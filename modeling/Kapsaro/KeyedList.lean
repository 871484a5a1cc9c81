import Mathlib.Data.List.Induction
import Mathlib.Data.List.Perm.Basic
import Mathlib.Data.List.Sort

/-!
# Keyed lists — lists whose elements carry a key

Lists that stand for tables: a key is read off an element, and the operations look elements up,
replace them or drop them by key.

* **`insertKey`**, **`collect`** — insertion into a table, and a table collected from pairs;
  the last pair of a key wins (**`mem_collect_iff`**).
* **`uniqueBy`**, **`upsertBy`** — one element for each key; the first one stays.
* **`sortBy`** — a stable sort by key; **`sortBy_perm`**: a sorted table does not depend on the
  order it was listed in.
* **`perm_of_keys`** — two tables with the same keys, one contained in the other, are
  permutations of each other.
* **`setAll`** — many keys set at once; **`find?_setAll`**, **`setAll_setAll`**, **`setAll_perm`**:
  the updated table, whatever the order of the new pairs.
* **`Edited`**, **`reconcile`** — a table brought to a target in four edits: drop what is not in
  the target, redo what is stale, add what is missing, redo anything.
-/

namespace KeyedList

variable {α β κ : Type}

/-! ## Tables of pairs -/

section Tables

variable [DecidableEq κ]

/-- Set the value of a key: in place when the key is there, at the end otherwise. -/
def insertKey (k : κ) (v : β) : List (κ × β) → List (κ × β)
  | [] => [(k, v)]
  | (k', v') :: rest => if k' = k then (k, v) :: rest else (k', v') :: insertKey k v rest

/-- The table of a list of pairs. -/
def collect (pairs : List (κ × β)) : List (κ × β) :=
  pairs.foldl (fun table pair => insertKey pair.1 pair.2 table) []

theorem mem_keys_insertKey (k : κ) (v : β) (table : List (κ × β)) (k' : κ) :
    k' ∈ (insertKey k v table).map Prod.fst ↔ k' = k ∨ k' ∈ table.map Prod.fst := by
  induction table with
  | nil => simp [insertKey]
  | cons pair table ih =>
    obtain ⟨key, value⟩ := pair
    rw [insertKey]
    by_cases hkey : key = k
    · rw [if_pos hkey, hkey]
      simp
    · rw [if_neg hkey, List.map_cons, List.mem_cons, ih, List.map_cons, List.mem_cons]
      exact or_left_comm

theorem nodup_insertKey (k : κ) (v : β) {table : List (κ × β)}
    (h : (table.map Prod.fst).Nodup) : ((insertKey k v table).map Prod.fst).Nodup := by
  induction table with
  | nil => exact List.nodup_singleton k
  | cons pair table ih =>
    obtain ⟨key, value⟩ := pair
    obtain ⟨hfresh, htail⟩ := List.nodup_cons.mp h
    rw [insertKey]
    by_cases hkey : key = k
    · rw [if_pos hkey, ← hkey]
      exact h
    · rw [if_neg hkey]
      refine List.nodup_cons.mpr ⟨?_, ih htail⟩
      intro hmem
      rcases (mem_keys_insertKey k v table key).mp hmem with heq | hin
      · exact hkey heq
      · exact hfresh hin

theorem mem_insertKey {k : κ} {v : β} {table : List (κ × β)} {pair : κ × β}
    (h : pair ∈ insertKey k v table) : pair = (k, v) ∨ pair ∈ table := by
  induction table with
  | nil => exact Or.inl (List.mem_singleton.mp h)
  | cons head table ih =>
    obtain ⟨key, value⟩ := head
    rw [insertKey] at h
    by_cases hkey : key = k
    · rw [if_pos hkey] at h
      rcases List.mem_cons.mp h with heq | hin
      · exact Or.inl heq
      · exact Or.inr (List.mem_cons_of_mem _ hin)
    · rw [if_neg hkey] at h
      rcases List.mem_cons.mp h with heq | hin
      · exact Or.inr (heq ▸ List.mem_cons_self)
      · exact (ih hin).imp_right (List.mem_cons_of_mem _)

private theorem collect_append_singleton (pairs : List (κ × β)) (pair : κ × β) :
    collect (pairs ++ [pair]) = insertKey pair.1 pair.2 (collect pairs) := by
  rw [collect, List.foldl_append]
  rfl

/-- A collected table has one pair for each key. -/
theorem nodup_collect (pairs : List (κ × β)) : ((collect pairs).map Prod.fst).Nodup := by
  induction pairs using List.reverseRecOn with
  | nil => exact List.nodup_nil
  | append_singleton pairs pair ih =>
    rw [collect_append_singleton]
    exact nodup_insertKey _ _ ih

/-- A collected table has the keys of its pairs. -/
theorem mem_keys_collect (pairs : List (κ × β)) (k : κ) :
    k ∈ (collect pairs).map Prod.fst ↔ k ∈ pairs.map Prod.fst := by
  induction pairs using List.reverseRecOn with
  | nil => exact Iff.rfl
  | append_singleton pairs pair ih =>
    rw [collect_append_singleton, mem_keys_insertKey, ih, List.map_append, List.mem_append,
      List.map_singleton, List.mem_singleton, or_comm]

/-- The pairs of a collected table are among the collected ones. -/
theorem mem_of_mem_collect {pairs : List (κ × β)} {pair : κ × β} (h : pair ∈ collect pairs) :
    pair ∈ pairs := by
  induction pairs using List.reverseRecOn with
  | nil => exact h
  | append_singleton pairs last ih =>
    rw [collect_append_singleton] at h
    rw [List.mem_append, List.mem_singleton]
    exact (mem_insertKey h).symm.imp_left ih

theorem forall₂_insertKey {R : κ × β → κ × α → Prop} (hkeys : ∀ a b, R a b → a.1 = b.1)
    {left : List (κ × β)} {right : List (κ × α)} (h : List.Forall₂ R left right) {a : κ × β}
    {b : κ × α} (hab : R a b) :
    List.Forall₂ R (insertKey a.1 a.2 left) (insertKey b.1 b.2 right) := by
  have hkey := hkeys a b hab
  induction h with
  | nil => exact .cons hab .nil
  | @cons x y left right hxy hrest ih =>
    obtain ⟨k, v⟩ := x
    obtain ⟨k', w⟩ := y
    obtain rfl : k = k' := hkeys _ _ hxy
    rw [insertKey, insertKey]
    by_cases hk : k = a.1
    · rw [if_pos hk, if_pos (hk.trans hkey)]
      exact .cons hab hrest
    · rw [if_neg hk, if_neg fun h => hk (h.trans hkey.symm)]
      exact .cons hxy ih

/-- Related lists of pairs, with the same keys, collect to related tables. -/
theorem forall₂_collect {R : κ × β → κ × α → Prop} (hkeys : ∀ a b, R a b → a.1 = b.1)
    {left : List (κ × β)} {right : List (κ × α)} (h : List.Forall₂ R left right) :
    List.Forall₂ R (collect left) (collect right) := by
  have hfold : ∀ tableLeft tableRight, List.Forall₂ R tableLeft tableRight →
      List.Forall₂ R (left.foldl (fun table pair => insertKey pair.1 pair.2 table) tableLeft)
        (right.foldl (fun table pair => insertKey pair.1 pair.2 table) tableRight) := by
    induction h with
    | nil => exact fun _ _ htables => htables
    | cons hab _ ih => exact fun _ _ htables => ih _ _ (forall₂_insertKey hkeys htables hab)
  exact hfold [] [] .nil

/-! ## One element for each key -/

/-- Append the elements whose key is new. -/
def uniqueFrom (key : α → κ) : List α → List α → List α
  | kept, [] => kept
  | kept, x :: rest =>
    if kept.any fun y => key y = key x then uniqueFrom key kept rest
    else uniqueFrom key (kept ++ [x]) rest

/-- The first element of each key. -/
def uniqueBy (key : α → κ) (xs : List α) : List α :=
  uniqueFrom key [] xs

/-- Replace the first element with the key of `x`. -/
def replaceFirst (key : α → κ) (x : α) : List α → List α
  | [] => []
  | y :: rest => if key y = key x then x :: rest else y :: replaceFirst key x rest

/-- Put an element in the place of the one with its key, or at the end. -/
def upsertBy (key : α → κ) (x : α) (xs : List α) : List α :=
  if xs.any fun y => key y = key x then uniqueBy key (replaceFirst key x xs) else xs ++ [x]

/-- **UNIQUE KEEPS EVERY KEY.** -/
theorem mem_keys_uniqueFrom (key : α → κ) (kept xs : List α) (k : κ) :
    k ∈ (uniqueFrom key kept xs).map key ↔ k ∈ kept.map key ∨ k ∈ xs.map key := by
  induction xs generalizing kept with
  | nil => simp [uniqueFrom]
  | cons x xs ih =>
    rw [uniqueFrom]
    by_cases hseen : kept.any fun y => key y = key x
    · rw [if_pos hseen, ih, List.map_cons, List.mem_cons]
      obtain ⟨y, hy, heq⟩ := List.any_eq_true.mp hseen
      have hmem : key x ∈ kept.map key := by
        rw [← of_decide_eq_true heq]
        exact List.mem_map_of_mem hy
      refine ⟨fun h => h.imp_right Or.inr, ?_⟩
      rintro (h | rfl | h)
      · exact Or.inl h
      · exact Or.inl hmem
      · exact Or.inr h
    · rw [if_neg hseen, ih, List.map_append, List.mem_append, List.map_singleton,
        List.mem_singleton, List.map_cons, List.mem_cons, or_assoc]

theorem mem_keys_uniqueBy (key : α → κ) (xs : List α) (k : κ) :
    k ∈ (uniqueBy key xs).map key ↔ k ∈ xs.map key := by
  rw [uniqueBy, mem_keys_uniqueFrom]
  exact or_iff_right (List.not_mem_nil)

theorem mem_of_mem_uniqueFrom {key : α → κ} {kept xs : List α} {x : α}
    (h : x ∈ uniqueFrom key kept xs) : x ∈ kept ∨ x ∈ xs := by
  induction xs generalizing kept with
  | nil => exact Or.inl h
  | cons y xs ih =>
    rw [uniqueFrom] at h
    split at h
    · exact (ih h).imp_right (List.mem_cons_of_mem _)
    · rcases ih h with hk | hxs
      · rw [List.mem_append, List.mem_singleton] at hk
        rcases hk with hk | rfl
        · exact Or.inl hk
        · exact Or.inr List.mem_cons_self
      · exact Or.inr (List.mem_cons_of_mem _ hxs)

theorem mem_of_mem_uniqueBy {key : α → κ} {xs : List α} {x : α} (h : x ∈ uniqueBy key xs) :
    x ∈ xs :=
  (mem_of_mem_uniqueFrom h).resolve_left List.not_mem_nil

theorem keys_replaceFirst (key : α → κ) (x : α) (xs : List α) :
    (replaceFirst key x xs).map key = xs.map key := by
  induction xs with
  | nil => rfl
  | cons y xs ih =>
    rw [replaceFirst]
    by_cases hkey : key y = key x
    · rw [if_pos hkey, List.map_cons, List.map_cons, hkey]
    · rw [if_neg hkey, List.map_cons, List.map_cons, ih]

theorem mem_of_mem_replaceFirst {key : α → κ} {x y : α} {xs : List α}
    (h : y ∈ replaceFirst key x xs) : y = x ∨ y ∈ xs := by
  induction xs with
  | nil => cases h
  | cons z xs ih =>
    rw [replaceFirst] at h
    split at h
    · exact (List.mem_cons.mp h).imp_right (List.mem_cons_of_mem _)
    · rcases List.mem_cons.mp h with heq | hin
      · exact Or.inr (heq ▸ List.mem_cons_self)
      · exact (ih hin).imp_right (List.mem_cons_of_mem _)

/-- **UPSERT KEEPS EVERY KEY** and adds that of the element. -/
theorem mem_keys_upsertBy (key : α → κ) (x : α) (xs : List α) (k : κ) :
    k ∈ (upsertBy key x xs).map key ↔ k = key x ∨ k ∈ xs.map key := by
  rw [upsertBy]
  by_cases hseen : xs.any fun y => key y = key x
  · rw [if_pos hseen, mem_keys_uniqueBy, keys_replaceFirst]
    obtain ⟨y, hy, heq⟩ := List.any_eq_true.mp hseen
    have hmem : key x ∈ xs.map key := by
      rw [← of_decide_eq_true heq]
      exact List.mem_map_of_mem hy
    exact ⟨Or.inr, fun h => h.elim (fun heq => heq ▸ hmem) id⟩
  · rw [if_neg hseen, List.map_append, List.mem_append, List.map_singleton, List.mem_singleton,
      or_comm]

/-- **UNIQUE LEAVES NO KEY TWICE**, when the kept elements have none. -/
theorem nodup_uniqueFrom {key : α → κ} {kept : List α} (h : (kept.map key).Nodup)
    (xs : List α) : ((uniqueFrom key kept xs).map key).Nodup := by
  induction xs generalizing kept with
  | nil => exact h
  | cons x xs ih =>
    rw [uniqueFrom]
    by_cases hseen : kept.any fun y => key y = key x
    · rw [if_pos hseen]
      exact ih h
    · rw [if_neg hseen]
      refine ih ?_
      rw [List.map_append, List.map_singleton, List.nodup_append]
      refine ⟨h, List.nodup_singleton _, ?_⟩
      intro k hk k' hk' heq
      obtain ⟨y, hy, rfl⟩ := List.mem_map.mp hk
      rw [List.mem_singleton.mp hk'] at heq
      exact hseen (List.any_eq_true.mpr ⟨y, hy, decide_eq_true heq⟩)

theorem nodup_uniqueBy (key : α → κ) (xs : List α) : ((uniqueBy key xs).map key).Nodup :=
  nodup_uniqueFrom (show (([] : List α).map key).Nodup from List.nodup_nil) xs

/-- The kept elements stay. -/
theorem mem_uniqueFrom_of_mem {key : α → κ} {kept : List α} {x : α} (h : x ∈ kept)
    (xs : List α) : x ∈ uniqueFrom key kept xs := by
  induction xs generalizing kept with
  | nil => exact h
  | cons y xs ih =>
    rw [uniqueFrom]
    split
    · exact ih h
    · exact ih (List.mem_append_left _ h)

/-- With one element for each key to append, the new ones are those whose key is not kept. -/
theorem mem_uniqueFrom_iff {key : α → κ} {kept xs : List α} (h : (xs.map key).Nodup) {x : α} :
    x ∈ uniqueFrom key kept xs ↔ x ∈ kept ∨ x ∈ xs ∧ key x ∉ kept.map key := by
  induction xs generalizing kept with
  | nil => simp [uniqueFrom]
  | cons y xs ih =>
    rw [List.map_cons, List.nodup_cons] at h
    rw [uniqueFrom]
    by_cases hseen : kept.any fun z => key z = key y
    · obtain ⟨z, hz, heq⟩ := List.any_eq_true.mp hseen
      have hkept : key y ∈ kept.map key := of_decide_eq_true heq ▸ List.mem_map_of_mem hz
      rw [if_pos hseen, ih h.2]
      refine or_congr_right ⟨fun hx => ⟨List.mem_cons_of_mem _ hx.1, hx.2⟩, ?_⟩
      rintro ⟨hx, hfresh⟩
      rcases List.mem_cons.mp hx with rfl | hx
      · exact absurd hkept hfresh
      · exact ⟨hx, hfresh⟩
    · have hfresh : key y ∉ kept.map key := by
        intro hmem
        obtain ⟨z, hz, heq⟩ := List.mem_map.mp hmem
        exact hseen (List.any_eq_true.mpr ⟨z, hz, decide_eq_true heq⟩)
      rw [if_neg hseen, ih h.2, List.mem_append, List.mem_singleton, List.map_append,
        List.map_singleton, List.mem_append, List.mem_singleton, not_or, or_assoc]
      refine or_congr_right ⟨?_, ?_⟩
      · rintro (rfl | ⟨hx, hnot, _⟩)
        · exact ⟨List.mem_cons_self, hfresh⟩
        · exact ⟨List.mem_cons_of_mem _ hx, hnot⟩
      · rintro ⟨hx, hnot⟩
        rcases List.mem_cons.mp hx with rfl | hx
        · exact Or.inl rfl
        · refine Or.inr ⟨hx, hnot, fun heq => h.1 ?_⟩
          rw [← heq]
          exact List.mem_map_of_mem hx

/-- A list without a key twice is kept whole. -/
theorem uniqueFrom_eq {key : α → κ} {kept xs : List α} (h : ((kept ++ xs).map key).Nodup) :
    uniqueFrom key kept xs = kept ++ xs := by
  induction xs generalizing kept with
  | nil => rw [List.append_nil, uniqueFrom]
  | cons x xs ih =>
    have hfresh : ¬ (kept.any fun y => key y = key x) := by
      intro hseen
      obtain ⟨y, hy, heq⟩ := List.any_eq_true.mp hseen
      rw [List.map_append, List.map_cons, List.nodup_append] at h
      exact h.2.2 _ (List.mem_map_of_mem hy) _ List.mem_cons_self (of_decide_eq_true heq)
    rw [List.append_cons] at h ⊢
    rw [uniqueFrom, if_neg hfresh, ih h]

theorem uniqueBy_eq {key : α → κ} {xs : List α} (h : (xs.map key).Nodup) :
    uniqueBy key xs = xs :=
  uniqueFrom_eq (List.nil_append xs ▸ h)

/-- **UPSERT LEAVES NO KEY TWICE.** -/
theorem nodup_upsertBy {key : α → κ} {xs : List α} (h : (xs.map key).Nodup) (x : α) :
    ((upsertBy key x xs).map key).Nodup := by
  rw [upsertBy]
  by_cases hseen : xs.any fun y => key y = key x
  · rw [if_pos hseen]
    exact nodup_uniqueBy key _
  · rw [if_neg hseen, List.map_append, List.map_singleton, List.nodup_append]
    refine ⟨h, List.nodup_singleton _, ?_⟩
    intro k hk k' hk' heq
    obtain ⟨y, hy, rfl⟩ := List.mem_map.mp hk
    rw [List.mem_singleton.mp hk'] at heq
    exact hseen (List.any_eq_true.mpr ⟨y, hy, decide_eq_true heq⟩)

/-- **UPSERT PUTS THE ELEMENT IN**, and leaves those with another key. -/
theorem mem_upsertBy {key : α → κ} {xs : List α} (h : (xs.map key).Nodup) {x y : α} :
    y ∈ upsertBy key x xs ↔ y = x ∨ y ∈ xs ∧ key y ≠ key x := by
  rw [upsertBy]
  by_cases hseen : xs.any fun y => key y = key x
  · have hreplaced : ∀ {ys : List α}, (ys.map key).Nodup → key x ∈ ys.map key →
        (y ∈ replaceFirst key x ys ↔ y = x ∨ y ∈ ys ∧ key y ≠ key x) := by
      intro ys hnodup hin
      induction ys with
      | nil => cases hin
      | cons z ys ih =>
        rw [List.map_cons, List.nodup_cons] at hnodup
        rw [replaceFirst]
        by_cases hkey : key z = key x
        · rw [if_pos hkey, List.mem_cons, List.mem_cons]
          refine or_congr_right ⟨fun hy => ⟨Or.inr hy, ?_⟩, ?_⟩
          · rintro heq
            rw [hkey, ← heq] at hnodup
            exact hnodup.1 (List.mem_map_of_mem hy)
          · rintro ⟨rfl | hy, hne⟩
            · exact absurd hkey hne
            · exact hy
        · rw [if_neg hkey, List.mem_cons, List.mem_cons,
            ih hnodup.2 ((List.mem_cons.mp hin).resolve_left fun heq => hkey heq.symm)]
          constructor
          · rintro (rfl | rfl | hy)
            · exact Or.inr ⟨Or.inl rfl, hkey⟩
            · exact Or.inl rfl
            · exact Or.inr ⟨Or.inr hy.1, hy.2⟩
          · rintro (rfl | ⟨rfl | hy, hne⟩)
            · exact Or.inr (Or.inl rfl)
            · exact Or.inl rfl
            · exact Or.inr (Or.inr ⟨hy, hne⟩)
    obtain ⟨z, hz, heq⟩ := List.any_eq_true.mp hseen
    rw [if_pos hseen, uniqueBy_eq (by rw [keys_replaceFirst]; exact h)]
    exact hreplaced h (of_decide_eq_true heq ▸ List.mem_map_of_mem hz)
  · rw [if_neg hseen, List.mem_append, List.mem_singleton, or_comm]
    refine or_congr_right ⟨fun hy => ⟨hy, fun heq => ?_⟩, And.left⟩
    exact hseen (List.any_eq_true.mpr ⟨y, hy, decide_eq_true heq⟩)

end Tables

/-- An element of the right list of two related ones is related to one of the left list. -/
theorem exists_left_of_mem {R : α → β → Prop} {xs : List α} {ys : List β}
    (h : List.Forall₂ R xs ys) {y : β} (hmem : y ∈ ys) : ∃ x ∈ xs, R x y := by
  induction h with
  | nil => cases hmem
  | cons hxy _ ih =>
    rcases List.mem_cons.mp hmem with rfl | htail
    · exact ⟨_, List.mem_cons_self, hxy⟩
    · obtain ⟨x, hx, hrel⟩ := ih htail
      exact ⟨x, List.mem_cons_of_mem _ hx, hrel⟩

/-- A search finds the only element there is. -/
theorem find?_eq_of_unique {p : α → Bool} {xs : List α} {x : α} (hmem : x ∈ xs) (hx : p x = true)
    (hunique : ∀ y ∈ xs, p y = true → y = x) : xs.find? p = some x := by
  cases hfind : xs.find? p with
  | none => exact absurd hx (List.find?_eq_none.mp hfind x hmem)
  | some y => rw [hunique y (List.mem_of_find?_eq_some hfind) (List.find?_some hfind)]

/-- An element of the left list of two related ones is related to one of the right list. -/
theorem exists_right_of_mem {R : α → β → Prop} {xs : List α} {ys : List β}
    (h : List.Forall₂ R xs ys) {x : α} (hmem : x ∈ xs) : ∃ y ∈ ys, R x y :=
  exists_left_of_mem h.flip hmem

/-- What related elements have alike, related lists have throughout alike. -/
theorem forall_iff_of_forall₂ {R : α → β → Prop} {P : α → Prop} {Q : β → Prop}
    (halike : ∀ x y, R x y → (P x ↔ Q y)) {xs : List α} {ys : List β} (h : List.Forall₂ R xs ys) :
    (∀ x ∈ xs, P x) ↔ ∀ y ∈ ys, Q y := by
  constructor
  · intro hall y hy
    obtain ⟨x, hx, hxy⟩ := exists_left_of_mem h hy
    exact (halike x y hxy).mp (hall x hx)
  · intro hall x hx
    obtain ⟨y, hy, hxy⟩ := exists_right_of_mem h hx
    exact (halike x y hxy).mpr (hall y hy)

/-! ## Sorting -/

/-- A stable sort by key. -/
def sortBy [LE κ] [DecidableLE κ] (key : α → κ) (xs : List α) : List α :=
  xs.insertionSort fun x y => key x ≤ key y

theorem perm_sortBy [LE κ] [DecidableLE κ] (key : α → κ) (xs : List α) :
    (sortBy key xs).Perm xs :=
  List.perm_insertionSort _ xs

/-- Inserting related elements with equal keys keeps sorted lists related. -/
theorem forall₂_orderedInsert [LE κ] [DecidableLE κ] {R : α → β → Prop} {keyA : α → κ}
    {keyB : β → κ} (hkey : ∀ a b, R a b → keyA a = keyB b) {a : α} {b : β} (hab : R a b)
    {xs : List α} {ys : List β} (h : List.Forall₂ R xs ys) :
    List.Forall₂ R (xs.orderedInsert (fun x y => keyA x ≤ keyA y) a)
      (ys.orderedInsert (fun x y => keyB x ≤ keyB y) b) := by
  induction h with
  | nil => exact .cons hab .nil
  | @cons x y xs ys hxy hrest ih =>
    rw [List.orderedInsert, List.orderedInsert, hkey a b hab, hkey x y hxy]
    split
    · exact .cons hab (.cons hxy hrest)
    · exact .cons hxy ih

/-- **SORTING LOOKS AT KEYS ONLY**: related lists with equal keys stay related when sorted. -/
theorem forall₂_sortBy [LE κ] [DecidableLE κ] {R : α → β → Prop} {keyA : α → κ} {keyB : β → κ}
    (hkey : ∀ a b, R a b → keyA a = keyB b) {xs : List α} {ys : List β}
    (h : List.Forall₂ R xs ys) : List.Forall₂ R (sortBy keyA xs) (sortBy keyB ys) := by
  induction h with
  | nil => exact .nil
  | cons hxy _ ih => exact forall₂_orderedInsert hkey hxy ih

section Sorted
variable [LinearOrder κ]

/-- A table with distinct keys is sorted strictly. -/
theorem pairwise_sortBy {key : α → κ} {xs : List α} (h : (xs.map key).Nodup) :
    (sortBy key xs).Pairwise fun x y => key x < key y := by
  have : Std.Total fun x y : α => key x ≤ key y := ⟨fun x y => le_total (key x) (key y)⟩
  have : IsTrans α fun x y => key x ≤ key y := ⟨fun _ _ _ => le_trans⟩
  have hle := List.pairwise_insertionSort (fun x y : α => key x ≤ key y) xs
  have hne : (sortBy key xs).Pairwise fun x y => key x ≠ key y :=
    List.pairwise_map.mp (((perm_sortBy key xs).map key).nodup_iff.mpr h)
  exact (hle.and hne).imp fun ⟨hxy, hxy'⟩ => lt_of_le_of_ne hxy hxy'

/-- **A SORTED TABLE DOES NOT DEPEND ON THE ORDER IT WAS LISTED IN.** -/
theorem sortBy_perm {key : α → κ} {xs ys : List α} (hperm : xs.Perm ys)
    (h : (xs.map key).Nodup) : sortBy key xs = sortBy key ys := by
  have hsame : (sortBy key xs).Perm (sortBy key ys) :=
    (perm_sortBy key xs).trans (hperm.trans (perm_sortBy key ys).symm)
  refine hsame.eq_of_pairwise ?_ (pairwise_sortBy h)
    (pairwise_sortBy ((hperm.map key).nodup_iff.mp h))
  intro x y _ _ hxy hyx
  exact absurd hyx (lt_asymm hxy)

end Sorted

/-! ## Tables with the same keys -/

/-- **SAME KEYS, SAME TABLE**: a table contained in another one with the same keys is a
    permutation of it. -/
theorem perm_of_keys {key : α → κ} {xs ys : List α} (hxs : (xs.map key).Nodup)
    (hys : (ys.map key).Nodup) (hsub : ∀ x ∈ xs, x ∈ ys)
    (hkeys : ∀ k ∈ ys.map key, k ∈ xs.map key) : xs.Perm ys := by
  refine (List.perm_ext_iff_of_nodup hxs.of_map hys.of_map).mpr fun y => ⟨hsub y, fun hy => ?_⟩
  obtain ⟨x, hx, heq⟩ := List.mem_map.mp (hkeys _ (List.mem_map_of_mem hy))
  rw [List.inj_on_of_nodup_map hys (hsub x hx) hy heq] at hx
  exact hx

/-! ## Setting many keys at once -/

section SetAll

variable [DecidableEq κ]

/-- In a table with distinct keys, a lookup finds exactly the pairs. -/
theorem lookup_eq_some_iff_mem {pairs : List (κ × β)} (h : (pairs.map Prod.fst).Nodup) {k : κ}
    {v : β} : pairs.lookup k = some v ↔ (k, v) ∈ pairs := by
  induction pairs with
  | nil => simp
  | cons pair pairs ih =>
    obtain ⟨key, value⟩ := pair
    obtain ⟨hfresh, htail⟩ := List.nodup_cons.mp h
    rw [List.lookup_cons, List.mem_cons]
    by_cases hkey : k = key
    · subst hkey
      rw [beq_self_eq_true]
      constructor
      · intro hv
        exact Or.inl (by rw [Option.some.inj hv])
      · rintro (hpair | hmem)
        · rw [(Prod.mk.inj hpair).2]
        · exact absurd (List.mem_map_of_mem hmem) hfresh
    · rw [beq_eq_false_iff_ne.mpr hkey, ih htail]
      exact ⟨Or.inr, fun h => h.resolve_left fun hpair => hkey (Prod.mk.inj hpair).1⟩

theorem lookup_eq_none_iff_not_mem {pairs : List (κ × β)} {k : κ} :
    pairs.lookup k = none ↔ k ∉ pairs.map Prod.fst := by
  induction pairs with
  | nil => simp
  | cons pair pairs ih =>
    obtain ⟨key, value⟩ := pair
    rw [List.lookup_cons, List.map_cons, List.mem_cons, not_or]
    by_cases hkey : k = key
    · subst hkey
      simp
    · rw [beq_eq_false_iff_ne.mpr hkey, ih]
      exact ⟨fun h => ⟨hkey, h⟩, fun h => h.2⟩

/-- The lookup in a table with distinct keys does not depend on the order of the pairs. -/
theorem lookup_perm {pairs pairs' : List (κ × β)} (hperm : pairs.Perm pairs')
    (h : (pairs.map Prod.fst).Nodup) (k : κ) : pairs.lookup k = pairs'.lookup k := by
  have h' : (pairs'.map Prod.fst).Nodup := (hperm.map Prod.fst).nodup_iff.mp h
  refine Option.ext fun v => ?_
  rw [lookup_eq_some_iff_mem h, lookup_eq_some_iff_mem h', hperm.mem_iff]

/-- An element, with the new value of its key if there is one. -/
def renew (key : α → κ) (make : κ → β → α) (new : List (κ × β)) (x : α) : α :=
  match new.lookup (key x) with
  | some value => make (key x) value
  | none => x

theorem key_renew {key : α → κ} {make : κ → β → α} (hmake : ∀ k v, key (make k v) = k)
    (new : List (κ × β)) (x : α) : key (renew key make new x) = key x := by
  rw [renew]
  split
  · rw [hmake]
  · rfl

/-- Renewing twice is renewing once. -/
theorem renew_renew {key : α → κ} {make : κ → β → α} (hmake : ∀ k v, key (make k v) = k)
    (new : List (κ × β)) (x : α) :
    renew key make new (renew key make new x) = renew key make new x := by
  have hkey := key_renew hmake new x
  cases hlook : new.lookup (key x) with
  | none =>
    have hx : renew key make new x = x := by rw [renew, hlook]
    rw [hx, hx]
  | some value =>
    rw [renew, hkey, hlook]
    dsimp only
    rw [renew, hlook]

variable (key : α → κ) (make : κ → β → α) [LE κ] [DecidableLE κ]

/-- The pairs whose keys are new to a list, sorted. -/
def additions (new : List (κ × β)) (old : List α) : List (κ × β) :=
  sortBy Prod.fst (new.filter fun pair => pair.1 ∉ old.map key)

/-- Put values under many keys at once: in place where the key exists, sorted at the end
    otherwise. -/
def setAll (new : List (κ × β)) (old : List α) : List α :=
  old.map (renew key make new) ++ (additions key new old).map fun pair => make pair.1 pair.2

variable {key make}

theorem mem_additions {new : List (κ × β)} {old : List α} {pair : κ × β} :
    pair ∈ additions key new old ↔ pair ∈ new ∧ pair.1 ∉ old.map key := by
  rw [additions, (perm_sortBy _ _).mem_iff, List.mem_filter, decide_eq_true_iff]

theorem nodup_additions {new : List (κ × β)} (h : (new.map Prod.fst).Nodup) (old : List α) :
    ((additions key new old).map Prod.fst).Nodup :=
  ((perm_sortBy _ _).map Prod.fst).nodup_iff.mpr (h.sublist (List.filter_sublist.map _))

section Lawful

variable (hmake : ∀ k v, key (make k v) = k)

include hmake

/-- **EXISTING KEYS STAY WHERE THEY ARE** and the new ones follow. -/
theorem keys_setAll (new : List (κ × β)) (old : List α) :
    (setAll key make new old).map key
      = old.map key ++ (additions key new old).map Prod.fst := by
  have hold : (old.map (renew key make new)).map key = old.map key := by
    rw [List.map_map]
    exact List.map_congr_left fun x _ => key_renew hmake new x
  have hnew : ((additions key new old).map fun pair => make pair.1 pair.2).map key
      = (additions key new old).map Prod.fst := by
    rw [List.map_map]
    exact List.map_congr_left fun pair _ => hmake pair.1 pair.2
  rw [setAll, List.map_append, hold, hnew]

theorem nodup_setAll {new : List (κ × β)} (hnew : (new.map Prod.fst).Nodup) {old : List α}
    (hold : (old.map key).Nodup) : ((setAll key make new old).map key).Nodup := by
  rw [keys_setAll hmake]
  refine hold.append (nodup_additions hnew old) ?_
  intro k hk hadded
  obtain ⟨pair, hpair, rfl⟩ := List.mem_map.mp hadded
  exact (mem_additions.mp hpair).2 hk

/-- Every new key is there afterwards. -/
theorem key_mem_setAll {new : List (κ × β)} {old : List α} {pair : κ × β} (h : pair ∈ new) :
    pair.1 ∈ (setAll key make new old).map key := by
  rw [keys_setAll hmake, List.mem_append]
  by_cases hold : pair.1 ∈ old.map key
  · exact Or.inl hold
  · exact Or.inr (List.mem_map_of_mem (mem_additions.mpr ⟨h, hold⟩))

/-- **THE TABLE IS UPDATED**: a key has its new value if it has one, and what it had otherwise. -/
theorem find?_setAll {new : List (κ × β)} (hnew : (new.map Prod.fst).Nodup) (old : List α)
    (k : κ) :
    (setAll key make new old).find? (fun x => decide (key x = k))
      = ((new.lookup k).map (make k)).or (old.find? fun x => decide (key x = k)) := by
  have hfirst : (old.map (renew key make new)).find? (fun x => decide (key x = k))
      = (old.find? fun x => decide (key x = k)).map (renew key make new) := by
    rw [List.find?_map]
    congr 2
    funext x
    exact congrArg (fun j => decide (j = k)) (key_renew hmake new x)
  rw [setAll, List.find?_append, hfirst]
  cases hold : old.find? fun x => decide (key x = k) with
  | some x =>
    have hx : key x = k := by simpa using List.find?_some hold
    show some (renew key make new x) = _
    rw [renew, hx]
    cases new.lookup k <;> rfl
  | none =>
    have habsent : k ∉ old.map key := by
      intro hmem
      obtain ⟨x, hx, hkey⟩ := List.mem_map.mp hmem
      exact List.find?_eq_none.mp hold x hx (decide_eq_true hkey)
    rw [Option.map_none, Option.none_or, Option.or_none]
    cases hlook : new.lookup k with
    | none =>
      rw [Option.map_none, List.find?_eq_none]
      intro x hx hkey
      obtain ⟨pair, hpair, rfl⟩ := List.mem_map.mp hx
      have hk : pair.1 = k := (hmake _ _).symm.trans (of_decide_eq_true hkey)
      exact lookup_eq_none_iff_not_mem.mp hlook
        (hk ▸ List.mem_map_of_mem (mem_additions.mp hpair).1)
    | some v =>
      have hmem : (k, v) ∈ new := (lookup_eq_some_iff_mem hnew).mp hlook
      refine find?_eq_of_unique (List.mem_map_of_mem (mem_additions.mpr ⟨hmem, habsent⟩))
        (decide_eq_true (hmake k v)) ?_
      intro x hx hkey
      obtain ⟨⟨k', v'⟩, hpair, rfl⟩ := List.mem_map.mp hx
      obtain rfl : k' = k := (hmake _ _).symm.trans (of_decide_eq_true hkey)
      have hv := (lookup_eq_some_iff_mem hnew).mpr (mem_additions.mp hpair).1
      rw [hlook] at hv
      rw [Option.some.inj hv]

/-- **SETTING TWICE IS SETTING ONCE.** -/
theorem setAll_setAll {new : List (κ × β)} (hnew : (new.map Prod.fst).Nodup) (old : List α) :
    setAll key make new (setAll key make new old) = setAll key make new old := by
  have hnone : additions key new (setAll key make new old) = [] := by
    refine List.eq_nil_iff_forall_not_mem.mpr fun pair hpair => ?_
    obtain ⟨hmem, habsent⟩ := mem_additions.mp hpair
    exact habsent (key_mem_setAll hmake hmem)
  have hsame : ∀ x ∈ setAll key make new old, renew key make new x = x := by
    intro x hx
    rw [setAll, List.mem_append] at hx
    rcases hx with hx | hx
    · obtain ⟨y, _, rfl⟩ := List.mem_map.mp hx
      exact renew_renew hmake new y
    · obtain ⟨⟨k, v⟩, hpair, rfl⟩ := List.mem_map.mp hx
      have hlook := (lookup_eq_some_iff_mem hnew).mpr (mem_additions.mp hpair).1
      rw [renew, hmake, hlook]
  rw [setAll, hnone, List.map_nil, List.append_nil, List.map_congr_left hsame]
  exact List.map_id _

end Lawful

section Ordered

variable [Std.Total (fun a b : κ => a ≤ b)] [IsTrans κ (fun a b => a ≤ b)]

/-- The new keys come in order. -/
theorem pairwise_additions (new : List (κ × β)) (old : List α) :
    ((additions key new old).map Prod.fst).Pairwise (· ≤ ·) := by
  rw [List.pairwise_map]
  have : Std.Total (fun x y : κ × β => x.1 ≤ y.1) := ⟨fun x y => Std.Total.total x.1 y.1⟩
  have : IsTrans (κ × β) (fun x y => x.1 ≤ y.1) := ⟨fun x y z => IsTrans.trans x.1 y.1 z.1⟩
  exact List.pairwise_insertionSort (fun x y : κ × β => x.1 ≤ y.1) _

/-- **THE ORDER OF THE NEW PAIRS DOES NOT MATTER.** -/
theorem setAll_perm [Std.Antisymm (fun a b : κ => a ≤ b)] {new new' : List (κ × β)}
    (hperm : new.Perm new') (hnew : (new.map Prod.fst).Nodup) (old : List α) :
    setAll key make new old = setAll key make new' old := by
  have hrenew : renew key make new = renew key make new' := by
    funext x
    rw [renew, renew, lookup_perm hperm hnew]
  have hadditions : additions key new old = additions key new' old := by
    have hsame : (additions key new old).Perm (additions key new' old) :=
      (perm_sortBy _ _).trans ((hperm.filter _).trans (perm_sortBy _ _).symm)
    refine hsame.eq_of_pairwise ?_ (List.pairwise_map.mp (pairwise_additions new old))
      (List.pairwise_map.mp (pairwise_additions new' old))
    intro a b ha hb hab hba
    have hkey : a.1 = b.1 := Std.Antisymm.antisymm _ _ hab hba
    exact List.inj_on_of_nodup_map (nodup_additions hnew old) ha (hsame.mem_iff.mpr hb) hkey
  rw [setAll, setAll, hrenew, hadditions]

end Ordered

end SetAll

/-! ## Bringing a table to a target -/

/-- An edit of a table of pairs towards a target: it fixes the keys, and every pair is one of the
    target or an old one whose key was not redone. -/
structure Edited (target : List (κ × β)) (redone : κ → Prop) (keys : List κ)
    (before after : List (κ × β)) : Prop where
  keys_eq : after.map Prod.fst = keys
  pairs : ∀ pair ∈ after, pair ∈ target ∨ (pair ∈ before ∧ ¬redone pair.1)

theorem Edited.refl (target : List (κ × β)) (table : List (κ × β)) :
    Edited target (fun _ => False) (table.map Prod.fst) table table :=
  ⟨rfl, fun _ hpair => Or.inr ⟨hpair, not_false⟩⟩

/-- **RECONCILIATION**: after dropping the keys outside the target, redoing the stale ones, adding
    the missing ones, and redoing any, the table is the target. -/
theorem reconcile [DecidableEq κ] {target t₀ t₁ t₂ t₃ t₄ : List (κ × β)} {stale missing : List κ}
    (htarget : (target.map Prod.fst).Nodup) (h₀ : (t₀.map Prod.fst).Nodup)
    (hstaleNodup : stale.Nodup)
    (hstale : ∀ k, k ∈ stale ↔ ∃ v w, (k, v) ∈ t₀ ∧ (k, w) ∈ target ∧ v ≠ w)
    (hmissingNodup : missing.Nodup)
    (hmissing : ∀ k, k ∈ missing ↔ k ∈ target.map Prod.fst ∧ k ∉ t₀.map Prod.fst)
    (hdrop : Edited target (fun _ => False)
      ((t₀.map Prod.fst).filter (· ∈ target.map Prod.fst)) t₀ t₁)
    (hredo : Edited target (· ∈ stale) ((t₁.map Prod.fst).filter (· ∉ stale) ++ stale) t₁ t₂)
    (hadd : Edited target (fun _ => False)
      (t₂.map Prod.fst ++ missing.filter (· ∉ t₂.map Prod.fst)) t₂ t₃)
    (hany : Edited target (fun _ => False) (t₃.map Prod.fst) t₃ t₄) :
    t₄.Perm target := by
  have hkey₁ : ∀ k, k ∈ t₁.map Prod.fst ↔ k ∈ t₀.map Prod.fst ∧ k ∈ target.map Prod.fst := by
    intro k
    rw [hdrop.keys_eq, List.mem_filter, decide_eq_true_iff]
  have hstaleKey : ∀ k ∈ stale, k ∈ t₁.map Prod.fst := by
    intro k hk
    obtain ⟨v, w, hv, hw, _⟩ := (hstale k).mp hk
    exact (hkey₁ k).mpr ⟨List.mem_map_of_mem (f := Prod.fst) hv,
      List.mem_map_of_mem (f := Prod.fst) hw⟩
  have hkey₂ : ∀ k, k ∈ t₂.map Prod.fst ↔ k ∈ t₁.map Prod.fst := by
    intro k
    rw [hredo.keys_eq, List.mem_append, List.mem_filter, decide_eq_true_iff]
    constructor
    · rintro (⟨h, _⟩ | h)
      · exact h
      · exact hstaleKey k h
    · intro h
      by_cases hk : k ∈ stale
      · exact Or.inr hk
      · exact Or.inl ⟨h, hk⟩
  refine perm_of_keys ?_ htarget ?_ ?_
  · -- no key twice: the kept, the redone and the added keys are apart
    have h₁ : (t₁.map Prod.fst).Nodup := by
      rw [hdrop.keys_eq]
      exact h₀.filter _
    have h₂ : (t₂.map Prod.fst).Nodup := by
      rw [hredo.keys_eq]
      refine List.Nodup.append (h₁.filter _) hstaleNodup ?_
      intro k hk hks
      exact of_decide_eq_true (List.mem_filter.mp hk).2 hks
    rw [hany.keys_eq, hadd.keys_eq]
    refine List.Nodup.append h₂ (hmissingNodup.filter _) ?_
    intro k hk hkm
    exact of_decide_eq_true (List.mem_filter.mp hkm).2 hk
  · -- a pair that was never redone has the target's value, or its key would be stale
    intro pair hpair
    rcases hany.pairs pair hpair with h | ⟨h, _⟩
    · exact h
    rcases hadd.pairs pair h with h | ⟨h, _⟩
    · exact h
    rcases hredo.pairs pair h with h | ⟨h, hfresh⟩
    · exact h
    rcases hdrop.pairs pair h with h' | ⟨h', _⟩
    · exact h'
    obtain ⟨⟨k, w⟩, hw, heq⟩ :=
      List.mem_map.mp ((hkey₁ pair.1).mp (List.mem_map_of_mem h)).2
    obtain ⟨key, v⟩ := pair
    obtain rfl : k = key := heq
    by_cases hvw : v = w
    · exact hvw ▸ hw
    · exact absurd ((hstale k).mpr ⟨v, w, h', hw, hvw⟩) hfresh
  · intro k hk
    rw [hany.keys_eq, hadd.keys_eq, List.mem_append, List.mem_filter, decide_eq_true_iff, hkey₂]
    by_cases h : k ∈ t₁.map Prod.fst
    · exact Or.inl h
    · refine Or.inr ⟨(hmissing k).mpr ⟨hk, fun h' => h ((hkey₁ k).mpr ⟨h', hk⟩)⟩, h⟩

end KeyedList
