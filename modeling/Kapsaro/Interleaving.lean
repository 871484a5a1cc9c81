import Mathlib.Data.List.Basic

/-!
# Interleaving — machines, their runs, and cells with a history

Parties that take steps on shared state, in any order. Names nothing of any program.

* **`run`** — a machine is a step function; a run is a list of actions, in the order they happen.
* **`run_invariant`** — what every step keeps, every run keeps.
* **`Chain`** — the records of a cell's updates, newest first: each found what the one before it
  left.
* **`Chain.value`** — the value of a cell is the one last put into it.
-/

namespace Interleaving

/-! ## Runs -/

section Runs

variable {S A : Type} (step : S → A → S)

/-- The state after some actions. -/
def run (s : S) (actions : List A) : S :=
  actions.foldl step s

theorem run_cons (s : S) (a : A) (actions : List A) :
    run step s (a :: actions) = run step (step s a) actions := rfl

theorem run_append (s : S) (before after : List A) :
    run step s (before ++ after) = run step (run step s before) after :=
  List.foldl_append

variable {step}

/-- **INVARIANTS HOLD ALONG RUNS**. -/
theorem run_invariant {Inv : S → Prop} (hstep : ∀ s a, Inv s → Inv (step s a)) {s : S}
    (h : Inv s) (actions : List A) : Inv (run step s actions) := by
  induction actions generalizing s with
  | nil => exact h
  | cons a actions ih => exact ih (hstep s a h)

end Runs

/-! ## The history of a cell -/

section Cells

variable {ρ β : Type} (found left : ρ → β)

/-- The records of a cell's updates, newest first, lead from one value to another. -/
def Chain (start : β) : List ρ → β → Prop
  | [], now => now = start
  | r :: earlier, now => now = left r ∧ Chain start earlier (found r)

variable {found left}

/-- A cell nobody touches keeps its history; an update is added to it. -/
theorem Chain.cons {start now : β} {history : List ρ} (h : Chain found left start history now)
    {r : ρ} (hfound : found r = now) : Chain found left start (r :: history) (left r) :=
  ⟨rfl, hfound ▸ h⟩

/-- **EACH UPDATE FOUND WHAT WAS LEFT**: the records before an update lead to what it found. -/
theorem Chain.earlier {start now : β} {later earlier : List ρ} {r : ρ}
    (h : Chain found left start (later ++ r :: earlier) now) :
    Chain found left start earlier (found r) := by
  induction later generalizing now with
  | nil => exact h.2
  | cons r' later ih => exact ih h.2

/-- The value last put into a cell by updates that put one. -/
def lastPut {γ : Type} (put : ρ → Option γ) : List ρ → Option γ
  | [] => none
  | r :: earlier =>
    match put r with
    | some c => some c
    | none => lastPut put earlier

theorem lastPut_eq_some {γ : Type} {put : ρ → Option γ} {history : List ρ} {c : γ}
    (h : lastPut put history = some c) : ∃ r ∈ history, put r = some c := by
  induction history with
  | nil => cases h
  | cons r earlier ih =>
    rw [lastPut] at h
    cases hput : put r with
    | some c' =>
      rw [hput] at h
      exact ⟨r, List.mem_cons_self, hput.trans h⟩
    | none =>
      rw [hput] at h
      obtain ⟨r', hr', heq⟩ := ih h
      exact ⟨r', List.mem_cons_of_mem _ hr', heq⟩

/-- Once something was put, something was put last. -/
theorem exists_lastPut {γ : Type} {put : ρ → Option γ} {history : List ρ} {r : ρ} {c : γ}
    (hr : r ∈ history) (h : put r = some c) : ∃ c', lastPut put history = some c' := by
  induction history with
  | nil => exact absurd hr List.not_mem_nil
  | cons r' earlier ih =>
    rw [lastPut]
    cases hput : put r' with
    | some c' => exact ⟨c', rfl⟩
    | none =>
      rcases List.mem_cons.mp hr with rfl | hr
      · cases h.symm.trans hput
      · exact ih hr

/-- **A CELL HOLDS WHAT WAS LAST PUT INTO IT**, or what it held at the start. -/
theorem Chain.value {γ : Type} {put : ρ → Option γ} {render : γ → β} {start now : β}
    {history : List ρ} (h : Chain found left start history now)
    (hput : ∀ r ∈ history, left r = ((put r).map render).getD (found r)) :
    now = ((lastPut put history).map render).getD start := by
  induction history generalizing now with
  | nil => exact h
  | cons r earlier ih =>
    obtain ⟨rfl, hrest⟩ := h
    rw [hput r List.mem_cons_self, lastPut]
    cases put r with
    | some c => rfl
    | none => exact ih hrest fun r' hr' => hput r' (List.mem_cons_of_mem _ hr')

end Cells

end Interleaving
