import Mathlib.Logic.Function.Basic
import Kapsaro.StepPrograms

/-!
# Indexed programs — a state in parts, and programs on one of them

A state of several parts, each under an index.  A program of one part becomes a program of the whole
that reads and changes its part only.

* **`part`** — a program, run on one part.
* **`Safe.part`**, **`Keeps.part`** — what is known of the program alone holds of it on its part.
* **`Keeps.elsewhere`** — it keeps whatever is known of another part.
-/

namespace StepPrograms

namespace Steps

variable {ι σ ε α β : Type} [DecidableEq ι]

/-- A call on one part. -/
def onPart (i : ι) (f : σ → Except ε σ) (S : ι → σ) : Except ε (ι → σ) :=
  (f (S i)).map (Function.update S i)

/-- A program, run on one part. -/
def part (i : ι) : Steps σ ε α → Steps (ι → σ) ε α
  | done r => done r
  | look next => look fun S => part i (next (S i))
  | call f next => call (onPart i f) fun r => part i (next r)

theorem onPart_ok {i : ι} {f : σ → Except ε σ} {S S' : ι → σ} (h : onPart i f S = .ok S') :
    ∃ t, f (S i) = .ok t ∧ S' = Function.update S i t := by
  rw [onPart] at h
  cases hf : f (S i) with
  | error e =>
    rw [hf] at h
    cases h
  | ok t =>
    rw [hf] at h
    exact ⟨t, rfl, (Except.ok.inj h).symm⟩

/-- So does the run that nothing disturbs. -/
theorem finish_part (i : ι) (p : Steps σ ε α) (S : ι → σ) :
    (p.part i).finish S = (Function.update S i (p.finish (S i)).1, (p.finish (S i)).2) := by
  induction p generalizing S with
  | done r => rw [part, finish, finish, Function.update_eq_self]
  | look next ih => exact ih (S i) S
  | call f next ih =>
    rw [part, finish, finish]
    cases hf : f (S i) with
    | error e =>
      rw [show onPart i f S = .error e by rw [onPart, hf]; rfl]
      exact ih (.error e) S
    | ok t =>
      rw [show onPart i f S = .ok (Function.update S i t) by rw [onPart, hf]; rfl]
      dsimp only
      rw [ih (.ok ()), Function.update_self, Function.update_idem]

variable {Inv : σ → Prop} {Q : Except ε α → σ → Prop}

/-- What a program is safe for, it is safe for on its part, while the other parts stand still. -/
theorem Safe.part {p : Steps σ ε α} {S : ι → σ} (i : ι) (h : Safe Inv Q p (S i)) :
    Safe (fun S' => Inv (S' i) ∧ ∀ j, j ≠ i → S' j = S j) (fun r S' => Q r (S' i))
      (p.part i) S := by
  -- the start of the induction is any state that agrees with `S` elsewhere
  suffices hall : ∀ S' : ι → σ, Safe Inv Q p (S' i) → (∀ j, j ≠ i → S' j = S j) →
      Safe (fun S' => Inv (S' i) ∧ ∀ j, j ≠ i → S' j = S j) (fun r S' => Q r (S' i))
        (p.part i) S' from
    hall S h fun _ _ => rfl
  clear h
  induction p with
  | done r =>
    intro S' h hother
    exact ⟨⟨h.1, hother⟩, h.2⟩
  | look next ih =>
    intro S' h hother
    exact ih (S' i) S' h hother
  | call f next ih =>
    rintro S' ⟨hinv, herror, hok⟩ hother
    refine ⟨⟨hinv, hother⟩, fun e => ih (.error e) S' (herror e) hother, fun T hT => ?_⟩
    obtain ⟨t, hf, rfl⟩ := onPart_ok hT
    refine ih (.ok ()) _ ?_ fun j hj => ?_
    · rw [Function.update_self]
      exact hok t hf
    · rw [Function.update_of_ne hj]
      exact hother j hj

/-- What a program keeps, it keeps on its part. -/
theorem Keeps.part {p : Steps σ ε α} (i : ι) (h : Keeps Inv p) :
    Keeps (fun S => Inv (S i)) (p.part i) := by
  intro S hS
  refine (Safe.part i (h (S i) hS)).mono (fun _ h => h.1) fun _ _ _ _ => trivial

/-- **A PROGRAM KEEPS WHATEVER IS KNOWN OF ANOTHER PART**. -/
theorem Keeps.elsewhere {i j : ι} (hne : j ≠ i) (p : Steps σ ε α) :
    Keeps (fun S => Inv (S j)) (p.part i) := by
  intro S hS
  refine (Safe.part i (Keeps.top p (S i) trivial)).mono (fun T h => ?_) fun _ _ _ _ => trivial
  show Inv (T j)
  rw [h.2 j hne]
  exact hS

/-- An invariant of every part, of which the program keeps its own. -/
theorem Keeps.parts {Inv : ι → σ → Prop} {p : Steps σ ε α} (i : ι) (h : Keeps (Inv i) p) :
    Keeps (fun S => ∀ j, Inv j (S j)) (p.part i) := by
  intro S hS
  refine (Safe.part i (h (S i) (hS i))).mono (fun T hT j => ?_) fun _ _ _ _ => trivial
  by_cases hj : j = i
  · rw [hj]
    exact hT.1
  · rw [hT.2 j hj]
    exact hS j

end Steps

end StepPrograms
