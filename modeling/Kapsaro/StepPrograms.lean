import Mathlib.Data.List.Basic

/-!
# Step programs — operations that change a state call by call

An operation that reads a state and changes it in separate calls, each of which can fail, and
between any two of which the operation can be stopped.

* **`Steps`** — a program: an answer, a look at the state, or a call and what follows it.
* **`run`** — under a list of faults: `none` lets the next call go through, `some e` makes it fail,
  and the program is stopped where the list ends.  **`finish`** is the run nothing disturbs.
* **`Safe`** — what holds before every call and at the end of a program, as a precondition;
  **`Safe.run`** — it holds of every run, wherever the run is stopped.
* **`Safe.handle`**, **`Safe.bind`** — the rules for programs put together.
* **`Keeps`** — safety of an invariant alone, with the same rules.
* **`runs_invariant`** — an invariant of programs run one after the other, stopped or not.
-/

namespace StepPrograms

variable {σ ε α β γ : Type}

/-- A program over a state: a `call` changes it or fails, and what follows depends on which. -/
inductive Steps (σ ε α : Type) where
  | done (r : Except ε α)
  | look (next : σ → Steps σ ε α)
  | call (f : σ → Except ε σ) (next : Except ε Unit → Steps σ ε α)

namespace Steps

/-! ## Putting programs together -/

/-- Go on from the answer of a program, whether it failed or not. -/
def handle (k : Except ε α → Steps σ ε β) : Steps σ ε α → Steps σ ε β
  | done r => k r
  | look next => look fun s => handle k (next s)
  | call f next => call f fun r => handle k (next r)

/-- What follows a program that succeeded. -/
def andThen (k : α → Steps σ ε β) : Except ε α → Steps σ ε β
  | .ok a => k a
  | .error e => done (.error e)

instance : Monad (Steps σ ε) where
  pure a := done (.ok a)
  bind p k := p.handle (andThen k)

/-- An answer read off the state. -/
def observe (g : σ → Except ε α) : Steps σ ε α :=
  look fun s => done (g s)

/-- A single call. -/
def change (f : σ → Except ε σ) : Steps σ ε Unit :=
  call f done

/-- The same program for each element, until one fails. -/
def each (f : β → Steps σ ε Unit) : List β → Steps σ ε Unit
  | [] => done (.ok ())
  | x :: xs => (f x).handle (andThen fun _ => each f xs)

/-! ## Runs -/

/-- The state a program leaves, and its answer unless it was stopped. -/
def run : Steps σ ε α → List (Option ε) → σ → σ × Option (Except ε α)
  | done r, _, s => (s, some r)
  | look next, faults, s => run (next s) faults s
  | call _ _, [], s => (s, none)
  | call _ next, some e :: faults, s => run (next (.error e)) faults s
  | call f next, none :: faults, s =>
    match f s with
    | .ok t => run (next (.ok ())) faults t
    | .error e => run (next (.error e)) faults s

/-- The run in which no call is made to fail and nothing stops the program. -/
def finish : Steps σ ε α → σ → σ × Except ε α
  | done r, s => (s, r)
  | look next, s => finish (next s) s
  | call f next, s =>
    match f s with
    | .ok t => finish (next (.ok ())) t
    | .error e => finish (next (.error e)) s

@[simp]
theorem finish_handle (p : Steps σ ε α) (k : Except ε α → Steps σ ε β) (s : σ) :
    (p.handle k).finish s = (k (p.finish s).2).finish (p.finish s).1 := by
  induction p generalizing s with
  | done r => rfl
  | look next ih => exact ih s s
  | call f next ih =>
    rw [handle, finish, finish]
    cases f s with
    | ok t => exact ih (.ok ()) t
    | error e => exact ih (.error e) s

theorem finish_bind_ok {p : Steps σ ε α} {k : α → Steps σ ε β} {s t : σ} {a : α}
    (h : p.finish s = (t, .ok a)) : (p >>= k).finish s = (k a).finish t := by
  show (p.handle (andThen k)).finish s = (k a).finish t
  rw [finish_handle, h]
  rfl

theorem finish_handle_ok {p : Steps σ ε α} {k : Except ε α → Steps σ ε β} {s t : σ} {a : α}
    (h : p.finish s = (t, .ok a)) : (p.handle k).finish s = (k (.ok a)).finish t := by
  rw [finish_handle, h]

theorem finish_change_ok {f : σ → Except ε σ} {s t : σ} (h : f s = .ok t) :
    (change f).finish s = (t, .ok ()) := by
  rw [change, finish, h]
  rfl

/-- Without faults, a run long enough is the undisturbed one. -/
theorem run_replicate (p : Steps σ ε α) (s : σ) :
    ∃ least, ∀ n, least ≤ n →
      p.run (List.replicate n none) s = ((p.finish s).1, some (p.finish s).2) := by
  induction p generalizing s with
  | done r => exact ⟨0, fun _ _ => rfl⟩
  | look next ih => exact ih s s
  | call f next ih =>
    have hstep : ∃ least, ∀ n, least ≤ n →
        (call f next).run (List.replicate (n + 1) none) s
          = (((call f next).finish s).1, some ((call f next).finish s).2) := by
      rw [finish]
      cases hf : f s with
      | ok t =>
        obtain ⟨least, hleast⟩ := ih (.ok ()) t
        refine ⟨least, fun n hn => ?_⟩
        rw [List.replicate_succ, run, hf]
        exact hleast n hn
      | error e =>
        obtain ⟨least, hleast⟩ := ih (.error e) s
        refine ⟨least, fun n hn => ?_⟩
        rw [List.replicate_succ, run, hf]
        exact hleast n hn
    obtain ⟨least, hleast⟩ := hstep
    refine ⟨least + 1, fun n hn => ?_⟩
    obtain ⟨m, rfl⟩ : ∃ m, n = m + 1 := ⟨n - 1, by omega⟩
    exact hleast m (by omega)

/-- A program whose answer is dropped leaves the same state. -/
theorem run_forget (p : Steps σ ε α) (faults : List (Option ε)) (s : σ) :
    ((do
      let _ ← p
      pure () : Steps σ ε Unit).run faults s).1 = (p.run faults s).1 := by
  induction p generalizing faults s with
  | done r =>
    cases r with
    | ok a => rfl
    | error e => rfl
  | look next ih => exact ih s faults s
  | call f next ih =>
    cases faults with
    | nil => rfl
    | cons fault faults =>
      cases fault with
      | some e => exact ih (.error e) faults s
      | none =>
        show (Steps.run (call f fun r => handle _ (next r)) _ s).1 = _
        rw [run, run]
        cases f s with
        | ok t => exact ih (.ok ()) faults t
        | error e => exact ih (.error e) faults s

/-! ## Safety -/

/-- `Inv` holds before every call and at the end, whichever calls fail; `Q` holds of the answer
    and the last state. -/
def Safe (Inv : σ → Prop) (Q : Except ε α → σ → Prop) : Steps σ ε α → σ → Prop
  | done r, s => Inv s ∧ Q r s
  | look next, s => Safe Inv Q (next s) s
  | call f next, s =>
    Inv s ∧ (∀ e, Safe Inv Q (next (.error e)) s)
      ∧ ∀ t, f s = .ok t → Safe Inv Q (next (.ok ())) t

variable {Inv : σ → Prop} {Q : Except ε α → σ → Prop} {R : Except ε β → σ → Prop}

/-- **A SAFE PROGRAM IS SAFE WHEREVER IT IS STOPPED**. -/
theorem Safe.run {p : Steps σ ε α} {s : σ} (h : Safe Inv Q p s) (faults : List (Option ε)) :
    Inv (p.run faults s).1 ∧ ∀ r, (p.run faults s).2 = some r → Q r (p.run faults s).1 := by
  induction p generalizing s faults with
  | done r => exact ⟨h.1, fun r' hr => Option.some.inj hr ▸ h.2⟩
  | look next ih => exact ih s h faults
  | call f next ih =>
    obtain ⟨hinv, herror, hok⟩ := h
    cases faults with
    | nil => exact ⟨hinv, fun r hr => by cases hr⟩
    | cons fault faults =>
      cases fault with
      | some e => exact ih (.error e) (herror e) faults
      | none =>
        rw [Steps.run]
        cases hf : f s with
        | ok t => exact ih (.ok ()) (hok t hf) faults
        | error e => exact ih (.error e) (herror e) faults

/-- It is safe when nothing disturbs it, in particular. -/
theorem Safe.finish {p : Steps σ ε α} {s : σ} (h : Safe Inv Q p s) :
    Inv (p.finish s).1 ∧ Q (p.finish s).2 (p.finish s).1 := by
  obtain ⟨least, hleast⟩ := run_replicate p s
  have hrun := h.run (List.replicate least none)
  rw [hleast least (Nat.le_refl _)] at hrun
  exact ⟨hrun.1, hrun.2 _ rfl⟩

theorem Safe.handle {p : Steps σ ε α} {k : Except ε α → Steps σ ε β} {s : σ}
    (hp : Safe Inv Q p s) (hk : ∀ r t, Inv t → Q r t → Safe Inv R (k r) t) :
    Safe Inv R (p.handle k) s := by
  induction p generalizing s with
  | done r => exact hk r s hp.1 hp.2
  | look next ih => exact ih s hp
  | call f next ih =>
    obtain ⟨hinv, herror, hok⟩ := hp
    exact ⟨hinv, fun e => ih (.error e) (herror e), fun t ht => ih (.ok ()) (hok t ht)⟩

/-- **SEQUENCE**: what follows starts where the program succeeded. -/
theorem Safe.bind {p : Steps σ ε α} {k : α → Steps σ ε β} {s : σ} (hp : Safe Inv Q p s)
    (hk : ∀ a t, Inv t → Q (.ok a) t → Safe Inv R (k a) t)
    (herror : ∀ e t, Inv t → Q (.error e) t → R (.error e) t) : Safe Inv R (p >>= k) s := by
  refine Safe.handle hp fun r t hinv hr => ?_
  cases r with
  | ok a => exact hk a t hinv hr
  | error e => exact ⟨hinv, herror e t hinv hr⟩

theorem Safe.mono {Inv' : σ → Prop} {Q' : Except ε α → σ → Prop} {p : Steps σ ε α} {s : σ}
    (h : Safe Inv Q p s) (hinv : ∀ t, Inv t → Inv' t) (hq : ∀ r t, Inv t → Q r t → Q' r t) :
    Safe Inv' Q' p s := by
  induction p generalizing s with
  | done r => exact ⟨hinv s h.1, hq r s h.1 h.2⟩
  | look next ih => exact ih s h
  | call f next ih =>
    obtain ⟨hs, herror, hok⟩ := h
    exact ⟨hinv s hs, fun e => ih (.error e) (herror e), fun t ht => ih (.ok ()) (hok t ht)⟩

/-- The invariant holds at the end, too. -/
theorem Safe.holding {p : Steps σ ε α} {s : σ} (h : Safe Inv Q p s) :
    Safe Inv (fun r t => Inv t ∧ Q r t) p s :=
  h.mono (fun _ h => h) fun _ _ ht hq => ⟨ht, hq⟩

/-- Both of two safety facts. -/
theorem Safe.and {Inv' : σ → Prop} {Q' : Except ε α → σ → Prop} {p : Steps σ ε α} {s : σ}
    (h : Safe Inv Q p s) (h' : Safe Inv' Q' p s) :
    Safe (fun t => Inv t ∧ Inv' t) (fun r t => Q r t ∧ Q' r t) p s := by
  induction p generalizing s with
  | done r => exact ⟨⟨h.1, h'.1⟩, h.2, h'.2⟩
  | look next ih => exact ih s h h'
  | call f next ih =>
    obtain ⟨hs, herror, hok⟩ := h
    obtain ⟨hs', herror', hok'⟩ := h'
    exact ⟨⟨hs, hs'⟩, fun e => ih (.error e) (herror e) (herror' e),
      fun t ht => ih (.ok ()) (hok t ht) (hok' t ht)⟩

theorem Safe.observe {g : σ → Except ε α} {s : σ} (hinv : Inv s) (hq : Q (g s) s) :
    Safe Inv Q (Steps.observe g) s :=
  ⟨hinv, hq⟩

/-- One call: what it leaves when it goes through, and the state as it was when it fails. -/
theorem Safe.change {f : σ → Except ε σ} {Q : Except ε Unit → σ → Prop} {s : σ} (hinv : Inv s)
    (herror : ∀ e, Q (.error e) s) (hok : ∀ t, f s = .ok t → Inv t ∧ Q (.ok ()) t) :
    Safe Inv Q (Steps.change f) s :=
  ⟨hinv, fun e => ⟨hinv, herror e⟩, hok⟩

/-- A program that keeps an invariant at every call, wherever it starts. -/
def Keeps (Inv : σ → Prop) (p : Steps σ ε α) : Prop :=
  ∀ s, Inv s → Safe Inv (fun _ _ => True) p s

theorem Keeps.done (Inv : σ → Prop) (r : Except ε α) : Keeps Inv (done r : Steps σ ε α) :=
  fun _ h => ⟨h, trivial⟩

theorem Safe.look {Q : Except ε α → σ → Prop} {next : σ → Steps σ ε α} {s : σ}
    (h : Safe Inv Q (next s) s) : Safe Inv Q (look next) s :=
  h

theorem Keeps.look {next : σ → Steps σ ε α} (h : ∀ s, Keeps Inv (next s)) :
    Keeps Inv (look next) :=
  fun s hs => h s s hs

theorem Keeps.observe (Inv : σ → Prop) (g : σ → Except ε α) : Keeps Inv (observe g) :=
  Keeps.look fun s => Keeps.done Inv (g s)

theorem Keeps.change {f : σ → Except ε σ} (h : ∀ s t, Inv s → f s = .ok t → Inv t) :
    Keeps Inv (change f) :=
  fun s hs => Safe.change hs (fun _ => trivial) fun t ht => ⟨h s t hs ht, trivial⟩

theorem Keeps.handle {p : Steps σ ε α} {k : Except ε α → Steps σ ε β} (hp : Keeps Inv p)
    (hk : ∀ r, Keeps Inv (k r)) : Keeps Inv (p.handle k) :=
  fun s hs => Safe.handle (hp s hs) fun r t ht _ => hk r t ht

theorem Keeps.bind {p : Steps σ ε α} {k : α → Steps σ ε β} (hp : Keeps Inv p)
    (hk : ∀ a, Keeps Inv (k a)) : Keeps Inv (p >>= k) :=
  fun s hs => Safe.bind (hp s hs) (fun a t ht _ => hk a t ht) fun _ _ _ _ => trivial

/-- A fact about the answer, for a program that keeps an invariant. -/
theorem Keeps.also {p : Steps σ ε α} (hp : Keeps Inv p) {s : σ} (hs : Inv s)
    (hq : Safe (fun _ => True) Q p s) : Safe Inv Q p s :=
  ((hp s hs).and hq).mono (fun _ h => h.1) fun _ _ _ h => h.2

/-- Nothing is asked of a program. -/
theorem Keeps.top (p : Steps σ ε α) : Keeps (fun _ => True) p := by
  intro s _
  induction p generalizing s with
  | done r => exact ⟨trivial, trivial⟩
  | look next ih => exact ih s s
  | call f next ih => exact ⟨trivial, fun e => ih (.error e) s, fun t _ => ih (.ok ()) t⟩

/-- What a program keeps holds where it ends. -/
theorem Keeps.reached {p : Steps σ ε α} (hp : Keeps Inv p) {s : σ} (hs : Inv s) :
    Safe (fun _ => True) (fun _ t => Inv t) p s :=
  (hp s hs).holding.mono (fun _ _ => trivial) fun _ _ _ h => h.1

/-- What each of the programs keeps, all of them together keep. -/
theorem Keeps.each {f : β → Steps σ ε Unit} (xs : List β) (hf : ∀ x, Keeps Inv (f x)) :
    Keeps Inv (each f xs) := by
  induction xs with
  | nil => exact Keeps.done Inv _
  | cons x xs ih => exact Keeps.bind (hf x) fun _ => ih

end Steps

/-! ## One program after the other -/

/-- Operations run one after the other, each under its own faults; a stopped one is followed by
    the next all the same. -/
def runs (program : γ → Steps σ ε α) (operations : List (γ × List (Option ε))) (s : σ) : σ :=
  operations.foldl (fun s operation => ((program operation.1).run operation.2 s).1) s

theorem runs_append (program : γ → Steps σ ε α)
    (first second : List (γ × List (Option ε))) (s : σ) :
    runs program (first ++ second) s = runs program second (runs program first s) :=
  List.foldl_append

/-- **WHAT EVERY PROGRAM KEEPS HOLDS AFTER ANY NUMBER OF THEM**. -/
theorem runs_invariant {program : γ → Steps σ ε α} {Inv : σ → Prop}
    (hkeeps : ∀ c, Steps.Keeps Inv (program c))
    (operations : List (γ × List (Option ε))) {s : σ} (h : Inv s) :
    Inv (runs program operations s) := by
  induction operations generalizing s with
  | nil => exact h
  | cons operation operations ih => exact ih ((hkeeps operation.1 s h).run operation.2).1

/-- An invariant that only the programs which are run have to keep. -/
theorem runs_invariant_among {program : γ → Steps σ ε α} {Inv : σ → Prop}
    (operations : List (γ × List (Option ε)))
    (hkeeps : ∀ operation ∈ operations, Steps.Keeps Inv (program operation.1)) {s : σ} (h : Inv s) :
    Inv (runs program operations s) := by
  induction operations generalizing s with
  | nil => exact h
  | cons operation operations ih =>
    refine ih (fun other hother => hkeeps other (List.mem_cons_of_mem _ hother)) ?_
    exact ((hkeeps operation List.mem_cons_self s h).run operation.2).1

end StepPrograms
