import Mathlib.Data.List.Basic
import Mathlib.Data.List.DropRight

/-!
# Text scanning — white space at the ends, and replacement of a pattern

Two operations of a standard string library on texts as lists of characters.  Names nothing of
any program.

* **`isWhitespace`**, **`trimStart`**, **`trim`** — the `White_Space` characters of Unicode, cut
  off in front or at both ends.
* **`replaceAll`** — every occurrence of a non-empty pattern, from left to right and without
  overlap, replaced by a text.
* **`replaceAll_pair`**, **`replaceAll_pair_of_ne`**, **`replaceAll_single`** — one step of a
  replacement whose pattern has two characters, or one.
-/

namespace TextScan

/-! ## White space -/

/-- A character with the Unicode property `White_Space`. -/
def isWhitespace (c : Char) : Bool :=
  (9 ≤ c.toNat && c.toNat ≤ 13) || c.toNat == 0x20 || c.toNat == 0x85 || c.toNat == 0xA0
    || c.toNat == 0x1680 || (0x2000 ≤ c.toNat && c.toNat ≤ 0x200A) || c.toNat == 0x2028
    || c.toNat == 0x2029 || c.toNat == 0x202F || c.toNat == 0x205F || c.toNat == 0x3000

/-- A text from its first character that is no white space. -/
def trimStart (text : List Char) : List Char :=
  text.dropWhile isWhitespace

/-- A text without the white space at its two ends. -/
def trim (text : List Char) : List Char :=
  (trimStart text).rdropWhile isWhitespace

@[simp] theorem trimStart_nil : trimStart [] = [] := rfl

theorem trimStart_cons_of_whitespace {c : Char} (h : isWhitespace c = true) (text : List Char) :
    trimStart (c :: text) = trimStart text := by
  rw [trimStart, trimStart, List.dropWhile_cons_of_pos h]

theorem trimStart_cons {c : Char} (h : isWhitespace c = false) (text : List Char) :
    trimStart (c :: text) = c :: text := by
  rw [trimStart, List.dropWhile_cons_of_neg (by rw [h]; exact Bool.false_ne_true)]

/-- White space in front does not count. -/
theorem trimStart_append {space : List Char} (h : ∀ c ∈ space, isWhitespace c = true)
    (text : List Char) : trimStart (space ++ text) = trimStart text := by
  induction space with
  | nil => rfl
  | cons c space ih =>
    rw [List.cons_append, trimStart_cons_of_whitespace (h c List.mem_cons_self)]
    exact ih fun d hd => h d (List.mem_cons_of_mem _ hd)

/-- A text that is not white space all over keeps its first other character when trimmed. -/
theorem trim_of_trimStart {text : List Char} {c : Char} {rest : List Char}
    (h : trimStart text = c :: rest) : ∃ kept, trim text = c :: kept := by
  have hc : isWhitespace c = false := by
    have hhead := List.head?_dropWhile_not isWhitespace text
    rw [trimStart] at h
    rw [h] at hhead
    simpa using hhead
  rw [trim, h]
  -- the first character stops the cut from the right
  have hstop : (c :: rest).rdropWhile isWhitespace ≠ [] := by
    rw [Ne, List.rdropWhile_eq_nil_iff]
    intro hall
    have hspace := hall c List.mem_cons_self
    rw [hc] at hspace
    exact Bool.false_ne_true hspace
  cases hkept : (c :: rest).rdropWhile isWhitespace with
  | nil => exact absurd hkept hstop
  | cons d kept =>
    have hstart := List.rdropWhile_prefix isWhitespace (l := c :: rest)
    rw [hkept, List.cons_prefix_cons] at hstart
    exact ⟨kept, by rw [hstart.1]⟩

/-! ## Replacement -/

section Replace

variable {α : Type} [DecidableEq α]

/-- Replace the pattern in a text; the first `skip` elements belong to an occurrence that was
    replaced already. -/
def replaceFrom (pattern replacement : List α) : Nat → List α → List α
  | _, [] => []
  | skip + 1, _ :: rest => replaceFrom pattern replacement skip rest
  | 0, c :: rest =>
    if pattern.isPrefixOf (c :: rest) then
      replacement ++ replaceFrom pattern replacement (pattern.length - 1) rest
    else c :: replaceFrom pattern replacement 0 rest

/-- Replace every occurrence of a non-empty pattern, from left to right and without overlap. -/
def replaceAll (pattern replacement text : List α) : List α :=
  replaceFrom pattern replacement 0 text

@[simp] theorem replaceAll_nil (pattern replacement : List α) :
    replaceAll pattern replacement [] = [] := rfl

/-- An occurrence of a pattern of two is replaced, and the scan goes on behind it. -/
@[simp] theorem replaceAll_pair (a b : α) (replacement rest : List α) :
    replaceAll [a, b] replacement (a :: b :: rest)
      = replacement ++ replaceAll [a, b] replacement rest := by
  rw [replaceAll, replaceFrom, if_pos (by simp)]
  rfl

/-- An element that does not open the pattern stays. -/
theorem replaceAll_pair_of_ne {a b c : α} (h : c ≠ a) (replacement rest : List α) :
    replaceAll [a, b] replacement (c :: rest) = c :: replaceAll [a, b] replacement rest := by
  rw [replaceAll, replaceFrom, if_neg]
  · rfl
  · intro hstart
    rw [List.isPrefixOf_iff_prefix, List.cons_prefix_cons] at hstart
    exact h hstart.1.symm

/-- An opening element without the second one stays. -/
theorem replaceAll_pair_of_second_ne {a b c : α} (h : c ≠ b) (replacement rest : List α) :
    replaceAll [a, b] replacement (a :: c :: rest)
      = a :: replaceAll [a, b] replacement (c :: rest) := by
  rw [replaceAll, replaceFrom, if_neg]
  · rfl
  · intro hstart
    rw [List.isPrefixOf_iff_prefix, List.cons_prefix_cons, List.cons_prefix_cons] at hstart
    exact h hstart.2.1.symm

/-- An opening element at the end stays. -/
@[simp] theorem replaceAll_pair_singleton (a b c : α) (replacement : List α) :
    replaceAll [a, b] replacement [c] = [c] := by
  rw [replaceAll, replaceFrom, if_neg]
  · rfl
  · intro hstart
    rw [List.isPrefixOf_iff_prefix] at hstart
    exact absurd hstart.length_le (by simp)

/-- A pattern of one is replaced element by element. -/
theorem replaceAll_single (a : α) (replacement text : List α) :
    replaceAll [a] replacement text
      = text.flatMap fun c => if c = a then replacement else [c] := by
  induction text with
  | nil => rfl
  | cons c text ih =>
    rw [replaceAll] at ih
    rw [replaceAll, replaceFrom, List.flatMap_cons]
    by_cases hc : c = a
    · rw [if_pos (by simp [hc]), if_pos hc, ← ih]
      rfl
    · rw [if_neg, if_neg hc, ih]
      · rfl
      · intro hstart
        rw [List.isPrefixOf_iff_prefix, List.cons_prefix_cons] at hstart
        exact hc hstart.1.symm

/-- A replaced element is gone when the replacement does not bring it back. -/
theorem not_mem_replaceAll_single {a : α} {replacement : List α} (h : a ∉ replacement)
    (text : List α) : a ∉ replaceAll [a] replacement text := by
  rw [replaceAll_single]
  intro hmem
  obtain ⟨c, _, hc⟩ := List.mem_flatMap.mp hmem
  by_cases heq : c = a
  · rw [if_pos heq] at hc
    exact h hc
  · rw [if_neg heq, List.mem_singleton] at hc
    exact heq hc.symm

end Replace

end TextScan
