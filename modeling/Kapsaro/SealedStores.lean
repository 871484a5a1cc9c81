import Kapsaro.KeyedList
import Mathlib.Data.Set.Basic
import Mathlib.Logic.Function.Basic

/-!
# Sealed stores — a table under a key, and the holders of the key

What a store of shared secrets is for, over arbitrary keys, holders and values.  A change of the
table leaves the key with whoever holds it; a change of the holders either takes nobody away or puts
a newly drawn key in force.

* **`putAll`** — tables as functions; a later value of a key replaces an earlier one.
* **`Step`**, **`Run`** — the changes of a store, and runs of them; **`Trace.simulated`** — whatever
  makes one such step at a time runs as stores do.
* **`tables_of_run`** — the tables of a run are those its writes compute, whoever comes and goes.
* **`revoked`** — with pairwise different keys drawn, whoever left never held the key in force.
-/

namespace SealedStores

open KeyedList

variable {K H κ β : Type}

/-! ## Tables -/

section Tables

variable [DecidableEq κ]

/-- Put values under their keys, one after the other. -/
def putAll (table : κ → Option β) (pairs : List (κ × β)) : κ → Option β :=
  pairs.foldl (fun table pair => Function.update table pair.1 (some pair.2)) table

theorem putAll_append_singleton (table : κ → Option β) (pairs : List (κ × β)) (pair : κ × β) :
    putAll table (pairs ++ [pair])
      = Function.update (putAll table pairs) pair.1 (some pair.2) := by
  rw [putAll, List.foldl_append]
  rfl

/-- Inserting a pair is an update. -/
theorem lookup_insertKey (k : κ) (v : β) (pairs : List (κ × β)) :
    (fun k' => (insertKey k v pairs).lookup k')
      = Function.update (fun k' => pairs.lookup k') k (some v) := by
  ext1 k'
  induction pairs with
  | nil =>
    show ((k, v) :: []).lookup k' = _
    rw [List.lookup_cons, Function.update_apply]
    by_cases hk : k' = k
    · rw [if_pos hk, beq_iff_eq.mpr hk]
    · rw [if_neg hk, beq_eq_false_iff_ne.mpr hk]
  | cons pair pairs ih =>
    obtain ⟨key, value⟩ := pair
    rw [Function.update_apply] at ih ⊢
    by_cases hkey : key = k
    · subst hkey
      rw [insertKey, if_pos rfl, List.lookup_cons, List.lookup_cons]
      by_cases hk : k' = key
      · rw [if_pos hk, beq_iff_eq.mpr hk]
      · rw [if_neg hk, beq_eq_false_iff_ne.mpr hk]
    · rw [insertKey, if_neg hkey, List.lookup_cons, List.lookup_cons]
      by_cases hk : k' = key
      · rw [beq_iff_eq.mpr hk, if_neg fun h => hkey (hk.symm.trans h)]
      · rw [beq_eq_false_iff_ne.mpr hk]
        exact ih

/-- **PUTTING PAIRS LOOKS THEM UP FIRST.** -/
theorem putAll_apply (table : κ → Option β) (pairs : List (κ × β)) (k : κ) :
    putAll table pairs k = ((collect pairs).lookup k).or (table k) := by
  induction pairs using List.reverseRecOn with
  | nil => rfl
  | append_singleton pairs pair ih =>
    have hinsert : (collect (pairs ++ [pair])).lookup k
        = Function.update (fun k' => (collect pairs).lookup k') pair.1 (some pair.2) k := by
      rw [← lookup_insertKey, collect, List.foldl_append]
      rfl
    rw [putAll_append_singleton, hinsert, Function.update_apply, Function.update_apply]
    by_cases hk : k = pair.1
    · simp only [if_pos hk, Option.some_or]
    · simp only [if_neg hk]
      exact ih

/-- The keys of a table after some pairs were put into it. -/
theorem putAll_ne_none {table : κ → Option β} {pairs : List (κ × β)} {k : κ} :
    putAll table pairs k ≠ none ↔ k ∈ pairs.map Prod.fst ∨ table k ≠ none := by
  rw [putAll_apply, ← mem_keys_collect]
  by_cases hk : k ∈ (collect pairs).map Prod.fst
  · have hsome : (collect pairs).lookup k ≠ none := fun h => lookup_eq_none_iff_not_mem.mp h hk
    obtain ⟨v, hv⟩ := Option.ne_none_iff_exists'.mp hsome
    simp [hv, hk]
  · rw [lookup_eq_none_iff_not_mem.mpr hk, Option.none_or]
    exact ⟨Or.inr, fun h => h.resolve_left hk⟩

end Tables

/-! ## Stores and their changes -/

/-- A table, the key it is sealed with, and who was given that key. -/
structure Store (K H κ β : Type) where
  key : K
  holders : Set H
  table : κ → Option β

/-- A change: of the table, or of the holders; for the latter some keys are drawn. -/
inductive Change (K κ β : Type) where
  | put (pairs : List (κ × β))
  | erase (k : κ)
  | regrant (drawn : List K)

/-- The keys a change draws. -/
def Change.drawn : Change K κ β → List K
  | .regrant drawn => drawn
  | _ => []

variable [DecidableEq κ]

/-- What a change does to a table. -/
def Change.apply (table : κ → Option β) : Change K κ β → κ → Option β
  | .put pairs => putAll table pairs
  | .erase k => Function.update table k none
  | .regrant _ => table

/-- A step keeps the key with whoever holds it, or puts a drawn one in force. -/
inductive Step (change : Change K κ β) (before after : Store K H κ β) : Prop
  | kept (key : after.key = before.key) (holders : before.holders ⊆ after.holders)
      (table : after.table = change.apply before.table)
  | renewed (key : after.key ∈ change.drawn) (table : after.table = change.apply before.table)

theorem Step.table {change : Change K κ β} {before after : Store K H κ β}
    (h : Step change before after) : after.table = change.apply before.table := by
  cases h with
  | kept _ _ htable => exact htable
  | renewed _ htable => exact htable

/-- A run: each step works on the store before it. -/
inductive Run : Store K H κ β → List (Change K κ β) → List (Store K H κ β) → Prop
  | nil (start : Store K H κ β) : Run start [] []
  | cons {start next : Store K H κ β} {change : Change K κ β} {changes : List (Change K κ β)}
      {rest : List (Store K H κ β)} :
      Step change start next → Run next changes rest → Run start (change :: changes) (next :: rest)

/-! ## What stands for stores -/

section Simulation

variable {A T : Type}

/-- The states some actions lead through. -/
inductive Trace (does : A → T → T → Prop) : T → List A → List T → Prop
  | nil (start : T) : Trace does start [] []
  | cons {start next : T} {a : A} {actions : List A} {rest : List T} :
      does a start next → Trace does next actions rest →
        Trace does start (a :: actions) (next :: rest)

/-- **SIMULATION**: where each action on a state is a step of any store the state stands for, a
    trace is a run of stores. -/
theorem Trace.simulated {does : A → T → T → Prop} {stands : T → Store K H κ β → Prop}
    {change : A → Change K κ β}
    (hstep : ∀ {a before after store}, does a before after → stands before store →
      ∃ next, Step (change a) store next ∧ stands after next)
    {start : T} {actions : List A} {states : List T} (h : Trace does start actions states)
    {store : Store K H κ β} (hstart : stands start store) :
    ∃ stores, Run store (actions.map change) stores ∧ List.Forall₂ stands states stores := by
  induction h generalizing store with
  | nil start => exact ⟨[], .nil store, .nil⟩
  | cons hdoes _ ih =>
    obtain ⟨next, hnext, hstands⟩ := hstep hdoes hstart
    obtain ⟨stores, hrun, hall⟩ := ih hstands
    exact ⟨next :: stores, .cons hnext hrun, .cons hstands hall⟩

/-- Related lists are pairwise related as well, where the relation carries over. -/
theorem pairwise_of_forall₂ {α γ : Type} {R : α → γ → Prop} {P : α → α → Prop} {Q : γ → γ → Prop}
    {xs : List α} {ys : List γ} (h : List.Forall₂ R xs ys)
    (hcarry : ∀ {a b c d}, R a c → R b d → Q c d → P a b) (hys : ys.Pairwise Q) :
    xs.Pairwise P := by
  induction h with
  | nil => exact .nil
  | @cons a c xs ys hac hrest ih =>
    obtain ⟨hhead, htail⟩ := List.pairwise_cons.mp hys
    refine List.pairwise_cons.mpr ⟨fun b hb => ?_, ih htail⟩
    obtain ⟨d, hd, hbd⟩ := exists_right_of_mem hrest hb
    exact hcarry hac hbd (hhead d hd)

end Simulation

/-! ## What a run does to the table -/

/-- The tables some changes compute. -/
def tablesAfter (table : κ → Option β) : List (Change K κ β) → List (κ → Option β)
  | [] => []
  | change :: changes => change.apply table :: tablesAfter (change.apply table) changes

/-- **THE TABLES OF A RUN** are the computed ones. -/
theorem tables_of_run {start : Store K H κ β} {changes : List (Change K κ β)}
    {stores : List (Store K H κ β)} (h : Run start changes stores) :
    stores.map Store.table = tablesAfter start.table changes := by
  induction h with
  | nil start => rfl
  | cons hstep _ ih =>
    rw [List.map_cons, ih, hstep.table]
    rfl

/-! ## What a run does to the key -/

/-- **THE KEY OF A LATER STORE** is the first one, and then nobody was taken away, or a drawn
    one. -/
theorem key_of_run {start : Store K H κ β} {changes : List (Change K κ β)}
    {stores : List (Store K H κ β)} (h : Run start changes stores) :
    ∀ later ∈ stores, (later.key = start.key ∧ start.holders ⊆ later.holders)
      ∨ later.key ∈ changes.flatMap Change.drawn := by
  induction h with
  | nil start =>
    intro later hlater
    cases hlater
  | @cons start next change changes rest hstep _ ih =>
    have hnext : (next.key = start.key ∧ start.holders ⊆ next.holders)
        ∨ next.key ∈ change.drawn := by
      cases hstep with
      | kept hkey hholders _ => exact Or.inl ⟨hkey, hholders⟩
      | renewed hkey _ => exact Or.inr hkey
    intro later hlater
    rw [List.flatMap_cons, List.mem_append]
    rcases List.mem_cons.mp hlater with rfl | hlater
    · exact hnext.imp_right Or.inl
    · rcases ih later hlater with ⟨hkey, hholders⟩ | hdrawn
      · rcases hnext with ⟨hsame, hsubset⟩ | hdrawn
        · exact Or.inl ⟨hkey.trans hsame, hsubset.trans hholders⟩
        · exact Or.inr (Or.inl (hkey ▸ hdrawn))
      · exact Or.inr (Or.inr hdrawn)

/-- Whoever holds the key of one store and is gone from another does not hold the key of the
    other. -/
def Revoked (earlier later : Store K H κ β) : Prop :=
  ¬ earlier.holders ⊆ later.holders → later.key ≠ earlier.key

/-- **WHOEVER LEFT NEVER HELD THE KEY IN FORCE**, once no key is drawn twice. -/
theorem revoked {start : Store K H κ β} {changes : List (Change K κ β)}
    {stores : List (Store K H κ β)} (h : Run start changes stores)
    (hdrawn : (start.key :: changes.flatMap Change.drawn).Nodup) :
    (start :: stores).Pairwise Revoked := by
  induction h with
  | nil start => exact List.pairwise_singleton _ _
  | @cons start next change changes rest hstep hrest ih =>
    have hrun : Run start (change :: changes) (next :: rest) := .cons hstep hrest
    obtain ⟨hnew, hnodup⟩ := List.nodup_cons.mp hdrawn
    refine List.pairwise_cons.mpr ⟨?_, ih ?_⟩
    · intro later hlater hgone heq
      rcases key_of_run hrun later hlater with ⟨_, hholders⟩ | hmem
      · exact hgone hholders
      · exact hnew (heq ▸ hmem)
    · -- the key of the next store is not drawn again
      rw [List.flatMap_cons] at hnew hnodup
      obtain ⟨_, hlater, hdisjoint⟩ := List.nodup_append'.mp hnodup
      refine List.nodup_cons.mpr ⟨fun hagain => ?_, hlater⟩
      cases hstep with
      | kept hkey _ _ => exact hnew (List.mem_append_right _ (hkey ▸ hagain))
      | renewed hkey _ => exact hdisjoint hkey hagain

end SealedStores
