import Mathlib.Data.List.Basic
import Mathlib.Tactic.Common

/-!
# Display text — what a reader is shown of a value someone else chose

`support/display.rs` escapes a value for logs and errors and cuts it to a limit in bytes.  The loop
keeps the last place where the truncation mark still fits; when the next character does not, it
takes the text back to that place and marks it.

* **`needsPlaceholder`** — the characters that do not stand for themselves: controls, and those that
  reorder or hide the text around them.
* **`escapedLen`** and **`pushEscaped`** — the length of an escape and the escape, written apart.
* **`truncate`** — `String::truncate` on the bytes of a text; `none` is its panic inside a
  character.
* **`sanitizeDisplayFieldWithLimit`** — the loop; **`LongestPrefix`** — its invariant.
* **`displayLaws`** — the whole value where it fits, and the longest part that leaves room for the
  mark where it does not.
-/

namespace DisplayText

/-! ## Characters -/

/-- `char::is_control`: the Cc block. -/
def isControl (ch : Char) : Bool :=
  decide (ch.toNat ≤ 0x1F) || (decide (0x7F ≤ ch.toNat) && decide (ch.toNat ≤ 0x9F))

/-- The ranges of the characters that reorder the text around them, render as nothing, or break the
    line they sit on. -/
def reorderingOrHidingRanges : List (Nat × Nat) :=
  [ (0x00AD, 0x00AD), (0x061C, 0x061C), (0x180E, 0x180E), (0x200B, 0x200F), (0x2028, 0x2029),
    (0x202A, 0x202E), (0x2060, 0x2064), (0x2066, 0x206F), (0xFEFF, 0xFEFF), (0xFFF9, 0xFFFB),
    (0x1D173, 0x1D17A), (0xE0000, 0xE007F) ]

/-- `reorders_or_hides_text`. -/
def reordersOrHidesText (ch : Char) : Bool :=
  reorderingOrHidingRanges.any fun range => decide (range.1 ≤ ch.toNat)
    && decide (ch.toNat ≤ range.2)

/-- A character that does not stand for itself once it reaches a terminal. -/
def needsPlaceholder (ch : Char) : Bool :=
  isControl ch || reordersOrHidesText ch

/-- The characters that order text by direction: the marks, the embeddings, overrides and
    isolates. -/
def isBidiControl (ch : Char) : Bool :=
  ch.toNat == 0x061C || (decide (0x200E ≤ ch.toNat) && decide (ch.toNat ≤ 0x200F))
    || (decide (0x202A ≤ ch.toNat) && decide (ch.toNat ≤ 0x202E))
    || (decide (0x2066 ≤ ch.toNat) && decide (ch.toNat ≤ 0x2069))

/-- Every character that orders text is replaced. -/
theorem reorders_of_bidi {ch : Char} (h : isBidiControl ch = true) :
    reordersOrHidesText ch = true := by
  simp only [isBidiControl, Bool.or_eq_true, Bool.and_eq_true, decide_eq_true_eq, beq_iff_eq] at h
  simp only [reordersOrHidesText, reorderingOrHidingRanges, List.any_cons, List.any_nil,
    Bool.or_eq_true, Bool.and_eq_true, decide_eq_true_eq]
  omega

/-! ## Escapes -/

/-- The bytes an escaped character takes. -/
def escapedLen (ch : Char) : Nat :=
  if ch = '\n' ∨ ch = '\r' ∨ ch = '\t' then 2
  else if needsPlaceholder ch then 1
  else ch.utf8Size

/-- Append a character, escaped. -/
def pushEscaped (out : String) (ch : Char) : String :=
  if ch = '\n' then out ++ "\\n"
  else if ch = '\r' then out ++ "\\r"
  else if ch = '\t' then out ++ "\\t"
  else if needsPlaceholder ch then out.push '?'
  else out.push ch

/-- Append a value, escaped and not cut. -/
def pushDisplayEscaped (out value : String) : String :=
  value.toList.foldl pushEscaped out

/-- A path inside prose, with control characters spelled out. -/
def formatPathForMessage (display : String) : String :=
  pushDisplayEscaped "" display

/-! ## The loop -/

def defaultMaxLen : Nat := 200
def minMaxLen : Nat := 8
def truncationMark : Char := '…'

/-- `String::truncate`: the first bytes of a text, or a panic where they end inside a character. -/
def truncate (out : String) (newLen : Nat) : Option String :=
  String.fromUTF8? (out.toByteArray.extract 0 newLen)

/-- The loop over the characters, from the text so far and the last length that leaves room for the
    mark. -/
def sanitizeFrom (maxLen : Nat) : List Char → String → Nat → Option String
  | [], out, _ => some out
  | ch :: rest, out, markFitsAt =>
    if maxLen < out.utf8ByteSize + escapedLen ch then
      (truncate out markFitsAt).map fun cut => cut.push truncationMark
    else
      sanitizeFrom maxLen rest (pushEscaped out ch)
        (if (pushEscaped out ch).utf8ByteSize + truncationMark.utf8Size ≤ maxLen then
          (pushEscaped out ch).utf8ByteSize
        else markFitsAt)

/-- Escape control characters and truncate on a character boundary. -/
def sanitizeDisplayFieldWithLimit (value : String) (maxLen : Nat) : Option String :=
  sanitizeFrom (max maxLen minMaxLen) value.toList "" 0

def sanitizeDisplayField (value : String) : Option String :=
  sanitizeDisplayFieldWithLimit value defaultMaxLen

/-! ## What an escape is -/

/-- The escape of one character, on its own. -/
def escape (ch : Char) : String := pushEscaped "" ch

/-- The escape of some characters, one after the other. -/
def escapes (chars : List Char) : String := String.join (chars.map escape)

/-- Appending an escape appends the same text everywhere. -/
theorem pushEscaped_eq (out : String) (ch : Char) : pushEscaped out ch = out ++ escape ch := by
  have hpush : ∀ c : Char, out.push c = out ++ ("" : String).push c := by
    intro c
    rw [← String.toList_inj, String.toList_append, String.toList_push, String.toList_push]
    rfl
  unfold escape pushEscaped
  split
  · rw [String.empty_append]
  · split
    · rw [String.empty_append]
    · split
      · rw [String.empty_append]
      · split <;> exact hpush _

/-- **THE TWO FUNCTIONS AGREE**: an escape is as long as its length says. -/
theorem escapedLen_eq (ch : Char) : escapedLen ch = (escape ch).utf8ByteSize := by
  unfold escape pushEscaped escapedLen
  by_cases hn : ch = '\n'
  · rw [if_pos (Or.inl hn), if_pos hn]
    decide
  · by_cases hr : ch = '\r'
    · rw [if_pos (Or.inr (Or.inl hr)), if_neg hn, if_pos hr]
      decide
    · by_cases ht : ch = '\t'
      · rw [if_pos (Or.inr (Or.inr ht)), if_neg hn, if_neg hr, if_pos ht]
        decide
      · have hnone : ¬(ch = '\n' ∨ ch = '\r' ∨ ch = '\t') := by simp [hn, hr, ht]
        rw [if_neg hnone, if_neg hn, if_neg hr, if_neg ht]
        split
        · decide
        · rw [String.utf8ByteSize_push, String.utf8ByteSize_empty, Nat.zero_add]

theorem escapes_append (left right : List Char) :
    escapes (left ++ right) = escapes left ++ escapes right := by
  rw [escapes, List.map_append, String.join_append]
  rfl

theorem escapes_cons (ch : Char) (rest : List Char) :
    escapes (ch :: rest) = escape ch ++ escapes rest := by
  rw [show ch :: rest = [ch] ++ rest from rfl, escapes_append]
  simp [escapes]

theorem escapes_snoc (chars : List Char) (ch : Char) :
    escapes (chars ++ [ch]) = escapes chars ++ escape ch := by
  rw [escapes_append]
  simp [escapes]

/-- The escape of a path is the escape of its characters. -/
theorem formatPathForMessage_eq (display : String) :
    formatPathForMessage display = escapes display.toList := by
  have hfold : ∀ (chars : List Char) (out : String),
      chars.foldl pushEscaped out = out ++ escapes chars := by
    intro chars
    induction chars with
    | nil => intro out; simp [escapes]
    | cons ch rest ih =>
      intro out
      rw [List.foldl_cons, ih, pushEscaped_eq, escapes_cons, String.append_assoc]
  rw [formatPathForMessage, pushDisplayEscaped, hfold, String.empty_append]

/-- A longer text has a longer escape. -/
theorem size_escapes_le {left right : List Char} (h : left <+: right) :
    (escapes left).utf8ByteSize ≤ (escapes right).utf8ByteSize := by
  obtain ⟨rest, rfl⟩ := h
  rw [escapes_append, String.utf8ByteSize_append]
  exact Nat.le_add_right _ _

/-! ## Escaped characters are safe to show -/

/-- Every character of an escape stands for itself. -/
theorem plain_escape {ch c : Char} (h : c ∈ (escape ch).toList) : needsPlaceholder c = false := by
  have hplain : ∀ text : String, text.toList.all (fun d => !needsPlaceholder d) = true →
      c ∈ text.toList → needsPlaceholder c = false := by
    intro text hall hc
    have hnot := List.all_eq_true.mp hall c hc
    rwa [Bool.not_eq_true'] at hnot
  unfold escape pushEscaped at h
  split at h
  · exact hplain "\\n" (by decide) h
  · split at h
    · exact hplain "\\r" (by decide) h
    · split at h
      · exact hplain "\\t" (by decide) h
      · split at h
        · exact hplain "?" (by decide) h
        · rename_i hneeds
          have hself : c = ch := by simpa using h
          rw [hself]
          exact Bool.eq_false_iff.mpr hneeds

theorem plain_escapes {chars : List Char} {c : Char} (h : c ∈ (escapes chars).toList) :
    needsPlaceholder c = false := by
  induction chars with
  | nil =>
    rw [show escapes [] = "" from rfl, String.toList_empty] at h
    cases h
  | cons ch rest ih =>
    rw [escapes_cons, String.toList_append, List.mem_append] at h
    rcases h with hfirst | hrest
    · exact plain_escape hfirst
    · exact ih hrest

theorem plain_mark : needsPlaceholder truncationMark = false := by decide

/-! ## Cutting -/

/-- **NOTHING IS CUT INSIDE A CHARACTER** where the length is that of the text in front. -/
theorem truncate_append (front back : String) :
    truncate (front ++ back) front.utf8ByteSize = some front := by
  have hbytes : (front ++ back).toByteArray.extract 0 front.utf8ByteSize = front.toByteArray := by
    rw [String.toByteArray_append]
    exact ByteArray.extract_append_eq_left String.size_toByteArray.symm
  rw [truncate, hbytes, String.fromUTF8?, dif_pos front.isValidUTF8]
  exact congrArg some (String.toByteArray_inj.mp rfl)

/-- The longest prefix of a list with a property. -/
structure LongestPrefix {α : Type} (P : List α → Prop) (whole part : List α) : Prop where
  isPrefix : part <+: whole
  holds : P part
  longest : ∀ other, other <+: whole → P other → other <+: part

namespace LongestPrefix

variable {α : Type} {P : List α → Prop} {whole part : List α}

/-- A list with the property is its own longest prefix. -/
theorem refl (h : P whole) : LongestPrefix P whole whole :=
  ⟨List.prefix_rfl, h, fun _ hother _ => hother⟩

/-- A longer list without the property, nor any list on the way to it, changes nothing. -/
theorem extend (h : LongestPrefix P whole part) {more : List α}
    (hnone : ∀ rest, rest <+: more → rest ≠ [] → ¬P (whole ++ rest)) :
    LongestPrefix P (whole ++ more) part where
  isPrefix := h.isPrefix.trans (List.prefix_append _ _)
  holds := h.holds
  longest := by
    intro other hother hP
    rcases List.prefix_or_prefix_of_prefix hother (List.prefix_append whole more) with hin | hout
    · exact h.longest other hin hP
    · obtain ⟨rest, rfl⟩ := hout
      by_cases hrest : rest = []
      · subst hrest
        rw [List.append_nil] at hP ⊢
        exact h.longest whole List.prefix_rfl hP
      · exact absurd hP (hnone rest ((List.prefix_append_right_inj whole).mp hother) hrest)

/-- There is one longest prefix. -/
theorem unique {other : List α} (h : LongestPrefix P whole part)
    (hother : LongestPrefix P whole other) : part = other := by
  obtain ⟨rest, hrest⟩ := hother.longest part h.isPrefix h.holds
  obtain ⟨rest', hrest'⟩ := h.longest other hother.isPrefix hother.holds
  have hlength := congrArg List.length hrest
  have hlength' := congrArg List.length hrest'
  rw [List.length_append] at hlength hlength'
  have hnil : rest = [] := List.eq_nil_of_length_eq_zero (by omega)
  rw [← hrest, hnil, List.append_nil]

end LongestPrefix

/-- The escape of some characters fits a limit, with room for the mark. -/
def FitsWithMark (limit : Nat) (chars : List Char) : Prop :=
  (escapes chars).utf8ByteSize + truncationMark.utf8Size ≤ limit

/-! ## The loop, step by step -/

/-- What the loop knows after some characters: its text is their escape and fits, and its mark
    stands behind the longest part of them that leaves room for the mark. -/
structure LoopState (limit : Nat) (done : List Char) (out : String) (markFitsAt : Nat) : Prop where
  text : out = escapes done
  fits : out.utf8ByteSize ≤ limit
  cut : ∃ part, LongestPrefix (FitsWithMark limit) done part
    ∧ markFitsAt = (escapes part).utf8ByteSize

/-- **ONE STEP**: a character that still fits keeps what the loop knows. -/
theorem loopState_step {limit : Nat} {done : List Char} {out : String} {markFitsAt : Nat}
    (h : LoopState limit done out markFitsAt) {ch : Char}
    (hfits : out.utf8ByteSize + escapedLen ch ≤ limit) :
    LoopState limit (done ++ [ch]) (pushEscaped out ch)
      (if (pushEscaped out ch).utf8ByteSize + truncationMark.utf8Size ≤ limit then
        (pushEscaped out ch).utf8ByteSize
      else markFitsAt) := by
  have htext : pushEscaped out ch = escapes (done ++ [ch]) := by
    rw [pushEscaped_eq, h.text, escapes_snoc]
  refine ⟨htext, ?_, ?_⟩
  · rw [pushEscaped_eq, String.utf8ByteSize_append, ← escapedLen_eq]
    exact hfits
  · obtain ⟨part, hpart, hmark⟩ := h.cut
    split
    · rename_i hroom
      rw [htext] at hroom ⊢
      exact ⟨_, .refl hroom, rfl⟩
    · rename_i hroom
      refine ⟨part, hpart.extend fun rest hrest hne => ?_, hmark⟩
      rw [htext] at hroom
      rcases List.prefix_cons_iff.mp hrest with hnil | ⟨tail, rfl, htail⟩
      · exact absurd hnil hne
      · rw [List.prefix_nil.mp htail]
        exact hroom

/-- **THE WHOLE LOOP**: the escape of everything where it fits, else the escape of the longest part
    that leaves room for the mark, and the mark. -/
theorem sanitizeFrom_eq {limit : Nat} (rest : List Char) {done : List Char} {out : String}
    {markFitsAt : Nat} (h : LoopState limit done out markFitsAt) :
    ((escapes (done ++ rest)).utf8ByteSize ≤ limit
      ∧ sanitizeFrom limit rest out markFitsAt = some (escapes (done ++ rest)))
    ∨ (limit < (escapes (done ++ rest)).utf8ByteSize
      ∧ ∃ part, LongestPrefix (FitsWithMark limit) (done ++ rest) part
        ∧ sanitizeFrom limit rest out markFitsAt = some ((escapes part).push truncationMark)) := by
  induction rest generalizing done out markFitsAt with
  | nil =>
    left
    rw [List.append_nil, ← h.text]
    exact ⟨h.fits, rfl⟩
  | cons ch rest ih =>
    rw [sanitizeFrom]
    by_cases hover : limit < out.utf8ByteSize + escapedLen ch
    · rw [if_pos hover]
      right
      -- every longer part is too long as well, whatever follows
      have hsnoc : limit < (escapes (done ++ [ch])).utf8ByteSize := by
        rw [escapes_snoc, String.utf8ByteSize_append, ← h.text, ← escapedLen_eq]
        exact hover
      have hlong : ∀ more, more <+: ch :: rest → more ≠ [] →
          limit < (escapes (done ++ more)).utf8ByteSize := by
        intro more hmore hne
        rcases List.prefix_cons_iff.mp hmore with hnil | ⟨tail, rfl, _⟩
        · exact absurd hnil hne
        · refine Nat.lt_of_lt_of_le hsnoc (size_escapes_le ⟨tail, ?_⟩)
          rw [List.append_assoc]
          rfl
      obtain ⟨part, hpart, hmark⟩ := h.cut
      refine ⟨hlong _ List.prefix_rfl (List.cons_ne_nil _ _), part, hpart.extend ?_, ?_⟩
      · intro more hmore hne hfits
        exact absurd (Nat.le_trans (Nat.le_add_right _ _) hfits)
          (Nat.not_le_of_lt (hlong more hmore hne))
      · obtain ⟨dropped, hdropped⟩ := hpart.isPrefix
        rw [h.text, ← hdropped, escapes_append, hmark, truncate_append]
        rfl
    · rw [if_neg hover]
      have hnext := ih (loopState_step h (Nat.le_of_not_lt hover))
      rw [List.append_assoc] at hnext
      exact hnext

/-! ## The laws of a displayed field -/

/-- The limit in bytes that is applied. -/
def limitOf (maxLen : Nat) : Nat := max maxLen minMaxLen

/-- The longest part of a value whose escape leaves room for the mark. -/
structure LongestShown (limit : Nat) (value part : String) : Prop where
  isPrefix : part.toList <+: value.toList
  fits : (formatPathForMessage part).utf8ByteSize ≤ limit - 3
  longest : ∀ other : String, other.toList <+: value.toList →
    (formatPathForMessage other).utf8ByteSize ≤ limit - 3 → other.toList <+: part.toList

/-- What a reader is shown of a value. -/
structure DisplayLaws : Prop where
  /-- the whole value, escaped, where that fits -/
  whole : ∀ value maxLen, (formatPathForMessage value).utf8ByteSize ≤ limitOf maxLen →
    sanitizeDisplayFieldWithLimit value maxLen = some (formatPathForMessage value)
  /-- else the longest part that leaves room for the mark, and the mark: the loop never panics -/
  cut : ∀ value maxLen, limitOf maxLen < (formatPathForMessage value).utf8ByteSize →
    ∃ part, LongestShown (limitOf maxLen) value part
      ∧ sanitizeDisplayFieldWithLimit value maxLen
        = some ((formatPathForMessage part).push truncationMark)
  /-- an escape is made of whole escapes of whole characters -/
  pieces : ∀ value, formatPathForMessage value = String.join (value.toList.map escape)
  /-- nothing shown is longer than the limit -/
  bounded : ∀ value maxLen out, sanitizeDisplayFieldWithLimit value maxLen = some out →
    out.utf8ByteSize ≤ limitOf maxLen
  /-- no control, bidirectional or hidden character is shown -/
  plain : ∀ value maxLen out, sanitizeDisplayFieldWithLimit value maxLen = some out →
    ∀ c ∈ out.toList, isControl c = false ∧ isBidiControl c = false ∧ reordersOrHidesText c = false
  /-- the mark is added only where characters were dropped -/
  marked : ∀ value maxLen out, sanitizeDisplayFieldWithLimit value maxLen = some out →
    out = formatPathForMessage value
      ∨ ∃ part : String, part.toList <+: value.toList ∧ part ≠ value
        ∧ out = (formatPathForMessage part).push truncationMark

/-- The loop starts with an empty text. -/
theorem loopState_initial (maxLen : Nat) : LoopState (limitOf maxLen) [] "" 0 := by
  have hroom : FitsWithMark (limitOf maxLen) [] := by
    show 0 + 3 ≤ max maxLen 8
    omega
  exact ⟨rfl, Nat.zero_le _, [], .refl hroom, rfl⟩

/-- The two cases of a call. -/
theorem sanitize_cases (value : String) (maxLen : Nat) :
    ((formatPathForMessage value).utf8ByteSize ≤ limitOf maxLen
      ∧ sanitizeDisplayFieldWithLimit value maxLen = some (formatPathForMessage value))
    ∨ (limitOf maxLen < (formatPathForMessage value).utf8ByteSize
      ∧ ∃ part, LongestShown (limitOf maxLen) value part
        ∧ sanitizeDisplayFieldWithLimit value maxLen
          = some ((formatPathForMessage part).push truncationMark)) := by
  have hloop := sanitizeFrom_eq value.toList (loopState_initial maxLen)
  rw [List.nil_append, ← formatPathForMessage_eq] at hloop
  have hroom : ∀ chars, FitsWithMark (limitOf maxLen) chars
      ↔ (escapes chars).utf8ByteSize ≤ limitOf maxLen - 3 := by
    intro chars
    show _ + 3 ≤ max maxLen 8 ↔ _ ≤ max maxLen 8 - 3
    omega
  rcases hloop with hwhole | ⟨hlong, part, hpart, hrun⟩
  · exact Or.inl hwhole
  · refine Or.inr ⟨hlong, String.ofList part, ⟨?_, ?_, ?_⟩, ?_⟩
    · rw [String.toList_ofList]
      exact hpart.isPrefix
    · rw [formatPathForMessage_eq, String.toList_ofList]
      exact (hroom part).mp hpart.holds
    · intro other hprefix hfits
      rw [formatPathForMessage_eq] at hfits
      rw [String.toList_ofList]
      exact hpart.longest other.toList hprefix ((hroom other.toList).mpr hfits)
    · rw [formatPathForMessage_eq, String.toList_ofList]
      exact hrun

/-- **A FIELD IS SHOWN WHOLE OR CUT AT ITS LIMIT**, escaped either way. -/
theorem displayLaws : DisplayLaws where
  whole := by
    intro value maxLen hfits
    -- Everything follows from the two cases: the text fits, or it is cut and marked.
    rcases sanitize_cases value maxLen with ⟨_, hrun⟩ | ⟨hlong, _⟩
    · exact hrun
    · exact absurd hfits (Nat.not_le_of_lt hlong)
  cut := by
    intro value maxLen hlong
    rcases sanitize_cases value maxLen with ⟨hfits, _⟩ | ⟨_, hcut⟩
    · exact absurd hfits (Nat.not_le_of_lt hlong)
    · exact hcut
  pieces := formatPathForMessage_eq
  bounded := by
    intro value maxLen out hout
    rcases sanitize_cases value maxLen with ⟨hfits, hrun⟩ | ⟨_, part, hpart, hrun⟩
    · rw [← Option.some.inj (hrun.symm.trans hout)]
      exact hfits
    · rw [← Option.some.inj (hrun.symm.trans hout), String.utf8ByteSize_push]
      have hmark : truncationMark.utf8Size = 3 := by decide
      have hfits := hpart.fits
      have hlimit : 8 ≤ limitOf maxLen := Nat.le_max_right _ _
      omega
  plain := by
    intro value maxLen out hout c hc
    have hplain : needsPlaceholder c = false := by
      rcases sanitize_cases value maxLen with ⟨_, hrun⟩ | ⟨_, part, _, hrun⟩
      · rw [← Option.some.inj (hrun.symm.trans hout), formatPathForMessage_eq] at hc
        exact plain_escapes hc
      · rw [← Option.some.inj (hrun.symm.trans hout), String.toList_push, List.mem_append,
          List.mem_singleton, formatPathForMessage_eq] at hc
        rcases hc with hbefore | rfl
        · exact plain_escapes hbefore
        · exact plain_mark
    obtain ⟨hcontrol, hreorders⟩ := Bool.or_eq_false_iff.mp hplain
    refine ⟨hcontrol, Bool.eq_false_iff.mpr fun hbidi => ?_, hreorders⟩
    rw [reorders_of_bidi hbidi] at hreorders
    cases hreorders
  marked := by
    intro value maxLen out hout
    rcases sanitize_cases value maxLen with ⟨_, hrun⟩ | ⟨hlong, part, hpart, hrun⟩
    · exact Or.inl (Option.some.inj (hrun.symm.trans hout)).symm
    · refine Or.inr ⟨part, hpart.isPrefix, ?_, (Option.some.inj (hrun.symm.trans hout)).symm⟩
      rintro rfl
      have hfits := hpart.fits
      omega

end DisplayText
