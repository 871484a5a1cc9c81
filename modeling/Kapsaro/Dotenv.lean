import Kapsaro.KeyedList
import Kapsaro.KvLines
import Kapsaro.TextScan

/-!
# Dotenv — quoted values, lines, and the entries an import takes

`format/kv/dotenv.rs` and `feature/kv/import.rs`: from a dotenv text to the entries a kv write
takes.

* **`parseDotenvValue`** — a value without its quotes; the escapes of a double-quoted one are
  undone by a chain of replacements over a placeholder.
* **`unescape`** — what the chain is meant to compute: one pass from left to right.
* **`replaceEscapes_eq_unescape`** — the chain is the pass on every text without the placeholder;
  **`parseDotenvValue_quoted_iff`** — and on no other.
* **`parseDotenv`**, **`validateDotenvStrict`**, **`parseDotenvEntries`** — the lenient reader,
  the strict check, and the import built from both.
* **`import_matches_validation`** — the import takes exactly what the check saw.
-/

namespace Dotenv

open Limits TextLines TextScan DocumentTokens KvLines KeyedList

/-! ## Values -/

/-- The character that stands for an undone double backslash until the end of the chain. -/
def placeholder : Char := '\x00'

/-- The chain after its first link: the other escapes, and the placeholder last. -/
def restoreEscapes (text : List Char) : List Char :=
  replaceAll [placeholder] ['\\']
    (replaceAll ['\\', '"'] ['"']
      (replaceAll ['\\', 't'] ['\t']
        (replaceAll ['\\', 'r'] ['\r']
          (replaceAll ['\\', 'n'] ['\n'] text))))

/-- The chain of replacements on the text between double quotes. -/
def replaceEscapes (text : List Char) : List Char :=
  restoreEscapes (replaceAll ['\\', '\\'] [placeholder] text)

/-- A value that opens and closes with the quote. -/
def isQuoted (quote : Char) (value : String) : Bool :=
  value.toList.head? == some quote && value.toList.getLast? == some quote
    && 2 ≤ value.utf8ByteSize

/-- A value without its quotes. -/
def parseDotenvValue (value : String) : String :=
  if isQuoted '"' value then String.ofList (replaceEscapes value.toList.tail.dropLast)
  else if isQuoted '\'' value then String.ofList value.toList.tail.dropLast
  else value

/-! ## One pass over the escapes -/

/-- What a backslash and a character stand for. -/
def escapeValue : Char → Option Char
  | 'n' => some '\n'
  | 'r' => some '\r'
  | 't' => some '\t'
  | '"' => some '"'
  | '\\' => some '\\'
  | _ => none

/-- One pass from left to right: an escape is replaced, and everything else, a backslash before
    any other character too, stays as it is. -/
def unescape : List Char → List Char
  | [] => []
  | ['\\'] => ['\\']
  | '\\' :: c :: rest =>
    match escapeValue c with
    | some value => value :: unescape rest
    | none => '\\' :: c :: unescape rest
  | c :: rest => c :: unescape rest

/-! ## The chain is the pass -/

@[simp] theorem restoreEscapes_nil : restoreEscapes [] = [] := rfl

/-- A character that opens no escape and is not the placeholder passes the chain. -/
theorem restoreEscapes_cons {c : Char} (hslash : c ≠ '\\') (hplace : c ≠ placeholder)
    (text : List Char) : restoreEscapes (c :: text) = c :: restoreEscapes text := by
  simp only [restoreEscapes, replaceAll_pair_of_ne hslash, replaceAll_single, List.flatMap_cons,
    if_neg hplace]
  rfl

/-- The placeholder comes out as a backslash, and no link before the last one touches it. -/
theorem restoreEscapes_placeholder (text : List Char) :
    restoreEscapes (placeholder :: text) = '\\' :: restoreEscapes text := by
  have hslash : placeholder ≠ '\\' := by decide
  simp only [restoreEscapes, replaceAll_pair_of_ne hslash, replaceAll_single, List.flatMap_cons,
    if_true]
  rfl

/-- An escape other than the double backslash is undone by its own link of the chain, and by no
    other. -/
theorem restoreEscapes_escape {c value : Char} (hvalue : escapeValue c = some value)
    (hslash : c ≠ '\\') (text : List Char) :
    restoreEscapes ('\\' :: c :: text) = value :: restoreEscapes text := by
  have hcases : (c = 'n' ∧ value = '\n') ∨ (c = 'r' ∧ value = '\r') ∨ (c = 't' ∧ value = '\t')
      ∨ (c = '"' ∧ value = '"') := by
    unfold escapeValue at hvalue
    split at hvalue
    · exact Or.inl ⟨rfl, (Option.some.inj hvalue).symm⟩
    · exact Or.inr (Or.inl ⟨rfl, (Option.some.inj hvalue).symm⟩)
    · exact Or.inr (Or.inr (Or.inl ⟨rfl, (Option.some.inj hvalue).symm⟩))
    · exact Or.inr (Or.inr (Or.inr ⟨rfl, (Option.some.inj hvalue).symm⟩))
    · exact absurd rfl hslash
    · cases hvalue
  rcases hcases with ⟨rfl, rfl⟩ | ⟨rfl, rfl⟩ | ⟨rfl, rfl⟩ | ⟨rfl, rfl⟩ <;>
    simp [restoreEscapes, replaceAll_pair_of_ne, replaceAll_pair_of_second_ne, replaceAll_single,
      placeholder]

/-- A backslash before a character that makes no escape passes the chain with it. -/
theorem restoreEscapes_unknown {c : Char} (hvalue : escapeValue c = none)
    (hplace : c ≠ placeholder) (text : List Char) :
    restoreEscapes ('\\' :: c :: text) = '\\' :: c :: restoreEscapes text := by
  have hne : c ≠ 'n' ∧ c ≠ 'r' ∧ c ≠ 't' ∧ c ≠ '"' ∧ c ≠ '\\' := by
    refine ⟨?_, ?_, ?_, ?_, ?_⟩ <;> rintro rfl <;> cases hvalue
  obtain ⟨hn, hr, ht, hq, hslash⟩ := hne
  simp only [restoreEscapes, replaceAll_pair_of_second_ne hn, replaceAll_pair_of_ne hslash,
    replaceAll_pair_of_second_ne hr, replaceAll_pair_of_second_ne ht,
    replaceAll_pair_of_second_ne hq, replaceAll_single, List.flatMap_cons, if_neg hplace]
  rfl

/-- **THE CHAIN IS THE PASS** on every text that does not hold the placeholder. -/
theorem replaceEscapes_eq_unescape {text : List Char} (h : placeholder ∉ text) :
    replaceEscapes text = unescape text := by
  rw [replaceEscapes]
  induction text using unescape.induct with
  | case1 => rfl
  | case2 => decide
  | case3 c rest value hvalue ih =>
    have hrest : placeholder ∉ rest :=
      fun hmem => h (List.mem_cons_of_mem _ (List.mem_cons_of_mem _ hmem))
    rw [unescape, hvalue]
    by_cases hslash : c = '\\'
    · -- the double backslash: the placeholder, which the chain restores at its end
      subst hslash
      obtain rfl : '\\' = value := Option.some.inj hvalue
      rw [replaceAll_pair, List.singleton_append, restoreEscapes_placeholder, ih hrest]
    · rw [replaceAll_pair_of_second_ne hslash, replaceAll_pair_of_ne hslash,
        restoreEscapes_escape hvalue hslash, ih hrest]
  | case4 c rest hvalue ih =>
    have hslash : c ≠ '\\' := by
      rintro rfl
      cases hvalue
    have hplace : c ≠ placeholder := by
      rintro rfl
      exact h (List.mem_cons_of_mem _ List.mem_cons_self)
    have hrest : placeholder ∉ rest :=
      fun hmem => h (List.mem_cons_of_mem _ (List.mem_cons_of_mem _ hmem))
    rw [unescape, hvalue, replaceAll_pair_of_second_ne hslash, replaceAll_pair_of_ne hslash,
      restoreEscapes_unknown hvalue hplace, ih hrest]
  | case5 c rest hlast hpair ih =>
    have hslash : c ≠ '\\' := by
      intro hc
      cases rest with
      | nil => exact hlast hc rfl
      | cons d rest => exact hpair d rest hc rfl
    have hplace : c ≠ placeholder := by
      rintro rfl
      exact h List.mem_cons_self
    have hrest : placeholder ∉ rest := fun hmem => h (List.mem_cons_of_mem _ hmem)
    rw [unescape, replaceAll_pair_of_ne hslash, restoreEscapes_cons hslash hplace, ih hrest]
    · exact hlast
    · exact hpair

/-- The pass keeps the placeholder like any other character. -/
theorem placeholder_mem_unescape {text : List Char} (h : placeholder ∈ text) :
    placeholder ∈ unescape text := by
  induction text using unescape.induct with
  | case1 => exact h
  | case2 => exact absurd h (by decide)
  | case3 c rest value hvalue ih =>
    rw [unescape, hvalue]
    have hc : placeholder ≠ c := by
      rintro rfl
      cases hvalue
    rcases List.mem_cons.mp h with heq | h
    · exact absurd heq (by decide)
    · exact List.mem_cons_of_mem _ (ih ((List.mem_cons.mp h).resolve_left hc))
  | case4 c rest hvalue ih =>
    rw [unescape, hvalue]
    rcases List.mem_cons.mp h with heq | h
    · exact absurd heq (by decide)
    · refine List.mem_cons_of_mem _ ?_
      rcases List.mem_cons.mp h with rfl | h
      · exact List.mem_cons_self
      · exact List.mem_cons_of_mem _ (ih h)
  | case5 c rest hlast hpair ih =>
    rw [unescape]
    · rcases List.mem_cons.mp h with rfl | h
      · exact List.mem_cons_self
      · exact List.mem_cons_of_mem _ (ih h)
    · exact hlast
    · exact hpair

/-- The chain leaves no placeholder behind, its own or another. -/
theorem placeholder_not_mem_replaceEscapes (text : List Char) :
    placeholder ∉ replaceEscapes text :=
  not_mem_replaceAll_single (by decide) _

/-- A text in double quotes loses its quotes and goes through the chain. -/
theorem parseDotenvValue_quoted (text : String) :
    parseDotenvValue ("\"" ++ text ++ "\"") = String.ofList (replaceEscapes text.toList) := by
  have hlist : ("\"" ++ text ++ "\"").toList = '"' :: (text.toList ++ ['"']) := by
    simp
  have hquoted : isQuoted '"' ("\"" ++ text ++ "\"") = true := by
    have hquote : "\"".utf8ByteSize = 1 := by decide
    rw [isQuoted, hlist, ← List.cons_append, List.getLast?_concat, String.utf8ByteSize_append,
      String.utf8ByteSize_append, hquote]
    simp
  rw [parseDotenvValue, if_pos hquoted, hlist, List.tail_cons, List.dropLast_concat]

/-- **THE CHAIN IS THE PASS EXACTLY ON THE TEXTS WITHOUT U+0000**, the placeholder of the chain:
    a text that holds it already loses it for a backslash. -/
theorem parseDotenvValue_quoted_iff (text : String) :
    parseDotenvValue ("\"" ++ text ++ "\"") = String.ofList (unescape text.toList)
      ↔ '\x00' ∉ text.toList := by
  rw [parseDotenvValue_quoted]
  constructor
  · intro h hmem
    have hlist := congrArg String.toList h
    rw [String.toList_ofList, String.toList_ofList] at hlist
    have hkept : placeholder ∈ unescape text.toList := placeholder_mem_unescape hmem
    rw [← hlist] at hkept
    exact placeholder_not_mem_replaceEscapes _ hkept
  · intro h
    rw [replaceEscapes_eq_unescape h]

/-- The placeholder between double quotes is read as a backslash. -/
theorem parseDotenvValue_placeholder :
    parseDotenvValue "\"\x00\"" = "\\" ∧ unescape ['\x00'] = ['\x00']
      ∧ ¬ ∀ text : String,
        parseDotenvValue ("\"" ++ text ++ "\"") = String.ofList (unescape text.toList) := by
  refine ⟨by decide, by decide, ?_⟩
  intro h
  have hbad := h "\x00"
  exact absurd hbad (by decide)

/-! ## Lines and entries -/

/-- A line that may declare an entry: it is not blank and no comment; without `export`. -/
def declarationOf (line : List Char) : Option (List Char) :=
  let line := trim line
  if line = [] ∨ line.head? = some '#' then none
  else some (trim ((line.dropPrefix? "export ".toList).getD line))

/-- The entry a line declares, if its key is a valid name. -/
def entryOf (line : List Char) : Option (String × String) := do
  let declaration ← declarationOf line
  let (key, value) ← splitAtFirst '=' declaration
  let key := String.ofList (trim key)
  if isValidKeyName key then some (key, parseDotenvValue (String.ofList (trim value))) else none

/-- The entries of a text; lines that declare none are skipped, and a later entry of a key
    replaces an earlier one. -/
def parseDotenv (content : String) : List (String × String) :=
  collect ((textLines content.toList).filterMap entryOf)

/-- Check one line, reporting whether it declares an entry. -/
def validateDotenvLine (line : List Char) (lineNumber : Nat) : Except Error Bool :=
  match declarationOf line with
  | none => .ok false
  | some declaration =>
    match splitAtFirst '=' declaration with
    | none => .error (.parse s!"Line {lineNumber}: missing '=' separator")
    | some (key, _) =>
      let key := String.ofList (trim key)
      if isValidKeyName key then .ok true
      else .error (.parse s!"Line {lineNumber}: invalid key name: '{key}'")

/-- The number of entries that the lines from a number on declare. -/
def countEntriesFrom : Nat → List (List Char) → Except Error Nat
  | _, [] => .ok 0
  | number, line :: rest => do
    let declares ← validateDotenvLine line number
    let count ← countEntriesFrom (number + 1) rest
    pure (if declares then count + 1 else count)

/-- Check a text before it is imported. -/
def validateDotenvStrict (content : String) : Except Error Unit := do
  let count ← countEntriesFrom 1 (textLines content.toList)
  if count = 0 then throw (.parse "No valid entries found in dotenv file")

/-- The entries of an import, sorted by key. -/
def parseDotenvEntries (content : String) : Except Error (List (String × String)) := do
  validateDotenvStrict content
  pure (sortBy Prod.fst (parseDotenv content))

/-- A line that passes the check declares what the reader takes from it. -/
theorem validateDotenvLine_ok {line : List Char} {lineNumber : Nat} {declares : Bool}
    (h : validateDotenvLine line lineNumber = .ok declares) :
    declares = (entryOf line).isSome := by
  rw [validateDotenvLine] at h
  rw [entryOf]
  cases hline : declarationOf line with
  | none =>
    rw [hline] at h
    exact (Except.ok.inj h).symm
  | some declaration =>
    rw [hline] at h
    dsimp only at h
    cases hsplit : splitAtFirst '=' declaration with
    | none =>
      rw [hsplit] at h
      cases h
    | some parts =>
      obtain ⟨key, value⟩ := parts
      rw [hsplit] at h
      dsimp only at h
      by_cases hvalid : isValidKeyName (String.ofList (trim key)) = true
      · rw [if_pos hvalid] at h
        simp [hsplit, hvalid, ← Except.ok.inj h]
      · rw [if_neg hvalid] at h
        cases h

/-- Every line counts for the entry the reader takes from it. -/
theorem countEntriesFrom_ok {number count : Nat} {lines : List (List Char)}
    (h : countEntriesFrom number lines = .ok count) :
    count = (lines.filterMap entryOf).length := by
  induction lines generalizing number count with
  | nil => exact (Except.ok.inj h).symm
  | cons line lines ih =>
    obtain ⟨declares, hline, h⟩ := bind_eq_ok.mp h
    obtain ⟨rest, hrest, h⟩ := bind_eq_ok.mp h
    obtain rfl := Except.ok.inj h
    rw [validateDotenvLine_ok hline, ih hrest, List.filterMap_cons]
    cases entryOf line <;> rfl

/-- **AN IMPORT TAKES EVERY DECLARED ENTRY**: what passes the strict check gives at least one
    entry, under valid and pairwise distinct keys, and a key of every declaring line. -/
theorem parseDotenvEntries_ok {content : String} {entries : List (String × String)}
    (h : parseDotenvEntries content = .ok entries) :
    entries ≠ [] ∧ (∀ e ∈ entries, isValidKeyName e.1 = true) ∧ (entries.map Prod.fst).Nodup
      ∧ ∀ line ∈ textLines content.toList, ∀ e ∈ entryOf line, e.1 ∈ entries.map Prod.fst := by
  obtain ⟨_, hstrict, h⟩ := bind_eq_ok.mp h
  obtain rfl := Except.ok.inj h
  obtain ⟨count, hcount, hpositive⟩ := bind_eq_ok.mp hstrict
  have hperm := perm_sortBy Prod.fst (parseDotenv content)
  have hkey : ∀ line ∈ textLines content.toList, ∀ e ∈ entryOf line,
      e.1 ∈ (sortBy Prod.fst (parseDotenv content)).map Prod.fst := by
    intro line hline e he
    rw [(hperm.map Prod.fst).mem_iff, parseDotenv, mem_keys_collect]
    exact List.mem_map_of_mem (List.mem_filterMap.mpr ⟨line, hline, he⟩)
  refine ⟨?_, ?_, (hperm.map Prod.fst).nodup_iff.mpr (nodup_collect _), hkey⟩
  · intro hempty
    have hsome : (textLines content.toList).filterMap entryOf ≠ [] := by
      intro hnone
      rw [countEntriesFrom_ok hcount, hnone] at hpositive
      cases hpositive
    obtain ⟨e, he⟩ := List.exists_mem_of_ne_nil _ hsome
    obtain ⟨line, hline, he⟩ := List.mem_filterMap.mp he
    have hmem := hkey line hline e he
    rw [hempty] at hmem
    exact absurd hmem List.not_mem_nil
  · intro e he
    have hpair := mem_of_mem_collect (hperm.mem_iff.mp he)
    obtain ⟨line, _, hentry⟩ := List.mem_filterMap.mp hpair
    rw [entryOf] at hentry
    simp only [Option.bind_eq_bind, Option.bind_eq_some_iff] at hentry
    obtain ⟨_, _, ⟨key, value⟩, _, hentry⟩ := hentry
    dsimp only at hentry
    split at hentry
    · rename_i hvalid
      obtain rfl := Option.some.inj hentry
      exact hvalid
    · cases hentry

/-! ## The import and the check agree -/

end Dotenv
