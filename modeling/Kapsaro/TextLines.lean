import Mathlib.Data.List.Basic
import Mathlib.Data.List.TakeDrop
import Mathlib.Data.String.Basic

/-!
# Text lines — UTF-8 bytes, line splitting, and joining

Texts as lists of characters, cut into lines the way a standard `lines` iterator cuts them.
Names nothing of any program.

* **`utf8`**, **`utf8Decode`** — the bytes of a text, and back.
* **`textLines`** — every `'\n'` ends a line and is dropped together with one `'\r'` before it;
  an unterminated last line is kept as it stands.
* **`joinLines`** — every line followed by `'\n'`.
* **`textLines_joinLines`**, **`joinLines_injective`** — lines that hold no line feed (and end
  in no carriage return) are read back from the joined text.
-/

namespace TextLines

/-! ## Bytes -/

/-- A byte string. -/
abbrev Bytes := List UInt8

/-- The UTF-8 bytes of a text. -/
def utf8 (s : String) : Bytes :=
  s.toList.flatMap String.utf8EncodeChar

/-- The text a byte string spells, if it is UTF-8. -/
def utf8Decode (bytes : Bytes) : Option String :=
  String.fromUTF8? bytes.toByteArray

theorem utf8_toByteArray (s : String) : (utf8 s).toByteArray = s.toByteArray := by
  have h : s.toList.utf8Encode = s.toByteArray := by
    rw [← String.toByteArray_ofList, String.ofList_toList]
  rw [← h]
  rfl

/-- **UTF-8 ROUND TRIP**: the bytes of a text decode to the text. -/
theorem utf8Decode_utf8 (s : String) : utf8Decode (utf8 s) = some s := by
  have hvalid : (utf8 s).toByteArray.IsValidUTF8 := utf8_toByteArray s ▸ s.isValidUTF8
  rw [utf8Decode, String.fromUTF8?, dif_pos hvalid]
  refine congrArg some (String.toByteArray_inj.mp ?_)
  exact utf8_toByteArray s

/-- What is decoded spells the bytes. -/
theorem utf8_of_utf8Decode {bytes : Bytes} {s : String} (h : utf8Decode bytes = some s) :
    utf8 s = bytes := by
  rw [utf8Decode, String.fromUTF8?] at h
  split at h
  · have hbytes : s.toByteArray = bytes.toByteArray := by
      rw [← Option.some.inj h]
      rfl
    have hlist : (utf8 s).toByteArray = bytes.toByteArray := (utf8_toByteArray s).trans hbytes
    have hdata := congrArg (fun b => b.data.toList) hlist
    simpa using hdata
  · cases h

theorem utf8_injective {a b : String} (h : utf8 a = utf8 b) : a = b := by
  have hdecode := utf8Decode_utf8 a
  rw [h, utf8Decode_utf8 b] at hdecode
  exact (Option.some.inj hdecode).symm

theorem utf8_length (s : String) : (utf8 s).length = s.utf8ByteSize := by
  have h := congrArg ByteArray.size (utf8_toByteArray s)
  rwa [List.size_toByteArray] at h

/-! ## Lines -/

/-- The line without the carriage return it may end in; the line is given in reverse. -/
def endLine : List Char → List Char
  | '\r' :: seen => seen.reverse
  | seen => seen.reverse

/-- The lines of a text, the current one read so far in reverse. -/
def linesFrom (seen : List Char) : List Char → List (List Char)
  | [] => if seen = [] then [] else [seen.reverse]
  | c :: rest => if c = '\n' then endLine seen :: linesFrom [] rest else linesFrom (c :: seen) rest

/-- The lines of a text. -/
def textLines (text : List Char) : List (List Char) :=
  linesFrom [] text

/-- Every line followed by a line feed. -/
def joinLines (lines : List (List Char)) : List Char :=
  lines.flatMap (· ++ ['\n'])

@[simp] theorem joinLines_nil : joinLines [] = [] := rfl

@[simp] theorem joinLines_cons (line : List Char) (lines : List (List Char)) :
    joinLines (line :: lines) = line ++ '\n' :: joinLines lines := by
  simp [joinLines]

theorem joinLines_append (a b : List (List Char)) :
    joinLines (a ++ b) = joinLines a ++ joinLines b :=
  List.flatMap_append

/-- A line is read up to its line feed. -/
theorem linesFrom_line (seen line rest : List Char) (h : '\n' ∉ line) :
    linesFrom seen (line ++ '\n' :: rest)
      = endLine (line.reverse ++ seen) :: linesFrom [] rest := by
  induction line generalizing seen with
  | nil => rw [List.nil_append, linesFrom, if_pos rfl]; rfl
  | cons c line ih =>
    rw [List.mem_cons, not_or] at h
    rw [List.cons_append, linesFrom, if_neg fun heq => h.1 heq.symm, ih (c :: seen) h.2]
    simp

/-- A first line is followed by its line ending, or by nothing. -/
private theorem linesFrom_eq_cons {seen text line : List Char} {lines : List (List Char)}
    (h : linesFrom seen text = line :: lines) :
    ∃ ending rest, seen.reverse ++ text = line ++ (ending ++ rest)
      ∧ (ending = [] ∨ ending = ['\n'] ∨ ending = ['\r', '\n']) ∧ textLines rest = lines := by
  induction text generalizing seen with
  | nil =>
    rw [linesFrom] at h
    split at h
    · cases h
    · obtain ⟨rfl, rfl⟩ := List.cons.inj h
      exact ⟨[], [], rfl, Or.inl rfl, rfl⟩
  | cons c text ih =>
    rw [linesFrom] at h
    by_cases hc : c = '\n'
    · rw [if_pos hc] at h
      obtain ⟨hline, hlines⟩ := List.cons.inj h
      subst hc
      unfold endLine at hline
      split at hline
      · subst hline
        exact ⟨['\r', '\n'], text, by simp, Or.inr (Or.inr rfl), hlines⟩
      · subst hline
        exact ⟨['\n'], text, by simp, Or.inr (Or.inl rfl), hlines⟩
    · rw [if_neg hc] at h
      obtain ⟨ending, rest, htext, hending, hrest⟩ := ih h
      refine ⟨ending, rest, ?_, hending, hrest⟩
      rw [← htext]
      simp

/-- **THE FIRST LINE OPENS THE TEXT**, and the lines behind its ending are the other ones. -/
theorem textLines_eq_cons {text line : List Char} {lines : List (List Char)}
    (h : textLines text = line :: lines) :
    ∃ ending rest, text = line ++ (ending ++ rest)
      ∧ (ending = [] ∨ ending = ['\n'] ∨ ending = ['\r', '\n']) ∧ textLines rest = lines :=
  linesFrom_eq_cons h

/-- Only a trailing carriage return is dropped. -/
theorem endLine_reverse (line : List Char) (h : line.getLast? ≠ some '\r') :
    endLine line.reverse = line := by
  cases hrev : line.reverse with
  | nil => rw [endLine, ← hrev, List.reverse_reverse]; exact nofun
  | cons c seen =>
    have hline : line = (c :: seen).reverse := by rw [← hrev, List.reverse_reverse]
    have hc : c ≠ '\r' := by
      rintro rfl
      exact h (by simp [hline])
    rw [endLine, hline]
    rintro seen' heq
    exact hc (List.cons.inj heq).1

/-- **LINES OF JOINED LINES**: lines without line feeds and trailing carriage returns come
    back as they were. -/
theorem textLines_joinLines (lines : List (List Char))
    (hfeed : ∀ line ∈ lines, '\n' ∉ line) (hreturn : ∀ line ∈ lines, line.getLast? ≠ some '\r') :
    textLines (joinLines lines) = lines := by
  induction lines with
  | nil => rfl
  | cons line lines ih =>
    have hline := linesFrom_line [] line (joinLines lines) (hfeed line List.mem_cons_self)
    rw [List.append_nil, endLine_reverse line (hreturn line List.mem_cons_self)] at hline
    rw [joinLines_cons, textLines, hline]
    exact congrArg (line :: ·) (ih (fun l hl => hfeed l (List.mem_cons_of_mem _ hl))
      fun l hl => hreturn l (List.mem_cons_of_mem _ hl))

/-- Two texts split at their first line feed in one way. -/
theorem append_feed_inj {a b r s : List Char} (ha : '\n' ∉ a) (hb : '\n' ∉ b)
    (h : a ++ '\n' :: r = b ++ '\n' :: s) : a = b ∧ r = s := by
  induction a generalizing b with
  | nil =>
    cases b with
    | nil => exact ⟨rfl, (List.cons.inj h).2⟩
    | cons d b => exact absurd ((List.cons.inj h).1 ▸ List.mem_cons_self) hb
  | cons c a ih =>
    cases b with
    | nil => exact absurd ((List.cons.inj h).1 ▸ List.mem_cons_self) ha
    | cons d b =>
      obtain ⟨rfl, htail⟩ := List.cons.inj h
      obtain ⟨rfl, hrest⟩ := ih (fun hm => ha (List.mem_cons_of_mem _ hm))
        (fun hm => hb (List.mem_cons_of_mem _ hm)) htail
      exact ⟨rfl, hrest⟩

/-- **JOINING IS INJECTIVE** on lines without line feeds. -/
theorem joinLines_injective {a b : List (List Char)} (ha : ∀ line ∈ a, '\n' ∉ line)
    (hb : ∀ line ∈ b, '\n' ∉ line) (h : joinLines a = joinLines b) : a = b := by
  induction a generalizing b with
  | nil =>
    cases b with
    | nil => rfl
    | cons line b => rw [joinLines_nil, joinLines_cons] at h; simp at h
  | cons line a ih =>
    cases b with
    | nil => rw [joinLines_nil, joinLines_cons] at h; simp at h
    | cons line' b =>
      rw [joinLines_cons, joinLines_cons] at h
      obtain ⟨rfl, hrest⟩ := append_feed_inj (ha line List.mem_cons_self)
        (hb line' List.mem_cons_self) h
      rw [ih (fun l hl => ha l (List.mem_cons_of_mem _ hl))
        (fun l hl => hb l (List.mem_cons_of_mem _ hl)) hrest]

theorem endLine_subset (seen : List Char) : ∀ c ∈ endLine seen, c ∈ seen := by
  intro c hc
  unfold endLine at hc
  split at hc
  · exact List.mem_cons_of_mem _ (List.mem_reverse.mp hc)
  · exact List.mem_reverse.mp hc

/-- A line of a text holds no line feed. -/
theorem feed_not_mem_linesFrom (seen text line : List Char) (hseen : '\n' ∉ seen)
    (h : line ∈ linesFrom seen text) : '\n' ∉ line := by
  induction text generalizing seen with
  | nil =>
    rw [linesFrom] at h
    split at h
    · cases h
    · rw [List.mem_singleton] at h
      rw [h, List.mem_reverse]
      exact hseen
  | cons c text ih =>
    rw [linesFrom] at h
    by_cases hc : c = '\n'
    · rw [if_pos hc] at h
      rcases List.mem_cons.mp h with rfl | hrest
      · exact fun hm => hseen (endLine_subset seen _ hm)
      · exact ih [] List.not_mem_nil hrest
    · rw [if_neg hc] at h
      refine ih (c :: seen) ?_ h
      rw [List.mem_cons, not_or]
      exact ⟨fun heq => hc heq.symm, hseen⟩

theorem feed_not_mem_of_mem_textLines {text line : List Char} (h : line ∈ textLines text) :
    '\n' ∉ line :=
  feed_not_mem_linesFrom [] text line List.not_mem_nil h

/-! ## Cutting a line -/

/-- The parts of a line before and after its first separator. -/
def splitAtFirst (separator : Char) (line : List Char) : Option (List Char × List Char) :=
  match line.dropWhile (· != separator) with
  | [] => none
  | _ :: rest => some (line.takeWhile (· != separator), rest)

theorem splitAtFirst_append {separator : Char} {a : List Char} (rest : List Char)
    (h : separator ∉ a) :
    splitAtFirst separator (a ++ separator :: rest) = some (a, rest) := by
  have hall : ∀ c ∈ a, (c != separator) = true := by
    intro c hc
    rw [bne_iff_ne]
    rintro rfl
    exact h hc
  rw [splitAtFirst, List.dropWhile_append_of_pos hall, List.takeWhile_append_of_pos hall]
  simp

theorem eq_of_splitAtFirst {separator : Char} {line a rest : List Char}
    (h : splitAtFirst separator line = some (a, rest)) :
    line = a ++ separator :: rest ∧ separator ∉ a := by
  have hcut := List.takeWhile_append_dropWhile (p := (· != separator)) (l := line)
  rw [splitAtFirst] at h
  cases hdrop : line.dropWhile (· != separator) with
  | nil => rw [hdrop] at h; cases h
  | cons d tail =>
    rw [hdrop] at h
    obtain ⟨rfl, rfl⟩ := Prod.mk.inj (Option.some.inj h)
    have hd : d = separator := by
      have hhead := List.head?_dropWhile_not (· != separator) line
      rw [hdrop] at hhead
      simpa using hhead
    constructor
    · rw [hd] at hdrop
      rw [← hdrop]
      exact hcut.symm
    · intro hmem
      have hall := List.all_takeWhile (p := (· != separator)) (l := line)
      have hne := List.all_eq_true.mp hall separator hmem
      simp at hne

/-! ## Letters and digits -/

/-- The upper-case letters, by their numbers. -/
theorem isUpper_iff_toNat {c : Char} : c.isUpper = true ↔ 65 ≤ c.toNat ∧ c.toNat ≤ 90 := by
  show decide ('A'.val ≤ c.val ∧ c.val ≤ 'Z'.val) = true ↔ _
  rw [decide_eq_true_iff, UInt32.le_iff_toNat_le, UInt32.le_iff_toNat_le]
  exact Iff.rfl

/-- The lower-case letters. -/
theorem isLower_iff_toNat {c : Char} : c.isLower = true ↔ 97 ≤ c.toNat ∧ c.toNat ≤ 122 := by
  show (decide ('a'.val ≤ c.val) && decide (c.val ≤ 'z'.val)) = true ↔ _
  rw [Bool.and_eq_true, decide_eq_true_iff, decide_eq_true_iff, UInt32.le_iff_toNat_le,
    UInt32.le_iff_toNat_le]
  exact Iff.rfl

/-- The letters and the digits. -/
theorem isAlphanum_iff_toNat {c : Char} : c.isAlphanum = true
    ↔ ((65 ≤ c.toNat ∧ c.toNat ≤ 90) ∨ (97 ≤ c.toNat ∧ c.toNat ≤ 122))
      ∨ (48 ≤ c.toNat ∧ c.toNat ≤ 57) := by
  show ((c.isUpper || c.isLower) || c.isDigit) = true ↔ _
  rw [Bool.or_eq_true, Bool.or_eq_true, isUpper_iff_toNat, isLower_iff_toNat,
    Char.isDigit_iff_toNat]
  exact Iff.rfl

end TextLines
