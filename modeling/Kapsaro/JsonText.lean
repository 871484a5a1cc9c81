import Mathlib.Data.List.Basic
import Mathlib.Data.String.Basic

/-!
# JSON text — values, tokens, one rendering, one parser, and the round trip

A small JSON library for programs whose documents carry integers only. It names nothing of
any program.

* **`Json`** — values; an object keeps its members as a list, in the order of the text.
* **`lexFrom`** — a one-character-at-a-time lexer. It refuses fractions, exponents, a leading
  zero and `-0`: every number it emits is an integer spelled the one canonical way.
* **`parseTokens`** — a stack parser over tokens; no fuel, one step a token.
* **`textAt`** — the rendering of a value, compact or indented, from one definition.
* **`parseJson_textAt`** — either rendering parses back to the value it was made from.
* **`opens_of_parseJson`** — the text of an object starts with its brace, space aside.
-/

namespace JsonText

/-- A JSON value whose numbers are integers. -/
inductive Json where
  | null
  | bool (b : Bool)
  | num (n : Int)
  | str (s : String)
  | arr (items : List Json)
  | obj (members : List (String × Json))

/-- The lexical units of a JSON text. -/
inductive JsonToken where
  | openBrace
  | closeBrace
  | openBracket
  | closeBracket
  | colon
  | comma
  | null
  | bool (b : Bool)
  | num (n : Int)
  | str (s : String)
deriving DecidableEq, Repr

/-! ## The lexer -/

/-- What the lexer is in the middle of. Characters read so far are kept in reverse. -/
inductive LexState where
  | ready
  | word (seen : List Char)
  | digits (negative : Bool) (seen : List Char)
  | text (seen : List Char)
  | escape (seen : List Char)
  /-- Inside `\u`: the high surrogate already read, if any, and the hex digits so far. -/
  | hex (seen : List Char) (high : Option Nat) (count value : Nat)
  | lowStart (seen : List Char) (high : Nat)
  | lowMark (seen : List Char) (high : Nat)
deriving DecidableEq, Repr

/-- The whitespace JSON allows between tokens. -/
def isJsonSpace (c : Char) : Bool :=
  c == ' ' || c == '\t' || c == '\n' || c == '\r'

/-- The value of a hexadecimal digit. -/
def hexValue (c : Char) : Option Nat :=
  if c.isDigit then some (c.toNat - '0'.toNat)
  else if 'a'.toNat ≤ c.toNat ∧ c.toNat ≤ 'f'.toNat then some (c.toNat - 'a'.toNat + 10)
  else if 'A'.toNat ≤ c.toNat ∧ c.toNat ≤ 'F'.toNat then some (c.toNat - 'A'.toNat + 10)
  else none

/-- One character outside any token. -/
def lexReady (c : Char) : Option (List JsonToken × LexState) :=
  if isJsonSpace c then some ([], .ready)
  else if c = '{' then some ([.openBrace], .ready)
  else if c = '}' then some ([.closeBrace], .ready)
  else if c = '[' then some ([.openBracket], .ready)
  else if c = ']' then some ([.closeBracket], .ready)
  else if c = ':' then some ([.colon], .ready)
  else if c = ',' then some ([.comma], .ready)
  else if c = '"' then some ([], .text [])
  else if c = '-' then some ([], .digits true [])
  else if c.isDigit then some ([], .digits false [c])
  else if c.isLower then some ([], .word [c])
  else none

/-- The literal name a finished word stands for. -/
def finishWord (seen : List Char) : Option JsonToken :=
  if seen.reverse = ['t', 'r', 'u', 'e'] then some (.bool true)
  else if seen.reverse = ['f', 'a', 'l', 's', 'e'] then some (.bool false)
  else if seen.reverse = ['n', 'u', 'l', 'l'] then some .null
  else none

/-- The integer a finished run of digits stands for. -/
def finishDigits (negative : Bool) (seen : List Char) : Option JsonToken :=
  match seen.reverse with
  | [] => none
  | ['0'] => if negative then none else some (.num 0)
  | '0' :: _ :: _ => none
  | ds =>
    let n : Nat := Nat.ofDigitChars 10 ds 0
    some (.num (if negative then -(n : Int) else (n : Int)))

/-- The character a two-character escape stands for. -/
def escapedChar (c : Char) : Option Char :=
  if c = '"' then some '"'
  else if c = '\\' then some '\\'
  else if c = '/' then some '/'
  else if c = 'b' then some (Char.ofNat 8)
  else if c = 'f' then some (Char.ofNat 12)
  else if c = 'n' then some '\n'
  else if c = 'r' then some '\r'
  else if c = 't' then some '\t'
  else none

/-- What four hex digits after `\u` mean: a character, a high surrogate that needs its low
    one, or (for an unpaired surrogate) nothing. -/
def finishHex (seen : List Char) (high : Option Nat) (value : Nat) : Option LexState :=
  match high with
  | none =>
    if 0xD800 ≤ value ∧ value ≤ 0xDBFF then some (.lowStart seen value)
    else if 0xDC00 ≤ value ∧ value ≤ 0xDFFF then none
    else some (.text (Char.ofNat value :: seen))
  | some h =>
    if 0xDC00 ≤ value ∧ value ≤ 0xDFFF then
      some (.text (Char.ofNat (0x10000 + (h - 0xD800) * 0x400 + (value - 0xDC00)) :: seen))
    else none

/-- One step of the lexer. -/
def lexStep (state : LexState) (c : Char) : Option (List JsonToken × LexState) :=
  match state with
  | .ready => lexReady c
  | .word seen =>
    if c.isLower then some ([], .word (c :: seen))
    else do
      -- the character after a word ends it and is read again
      let token ← finishWord seen
      let (tokens, next) ← lexReady c
      pure (token :: tokens, next)
  | .digits negative seen =>
    if c.isDigit then some ([], .digits negative (c :: seen))
    -- a number with a fraction or an exponent is none of this lexer's
    else if c = '.' ∨ c = 'e' ∨ c = 'E' then none
    else do
      let token ← finishDigits negative seen
      let (tokens, next) ← lexReady c
      pure (token :: tokens, next)
  | .text seen =>
    if c = '"' then some ([.str (String.ofList seen.reverse)], .ready)
    else if c = '\\' then some ([], .escape seen)
    else if c.toNat < 0x20 then none
    else some ([], .text (c :: seen))
  | .escape seen =>
    if c = 'u' then some ([], .hex seen none 0 0)
    else (escapedChar c).map fun d => ([], .text (d :: seen))
  | .hex seen high count value => do
    let d ← hexValue c
    if count = 3 then (finishHex seen high (value * 16 + d)).map fun next => ([], next)
    else pure ([], .hex seen high (count + 1) (value * 16 + d))
  -- a high surrogate has to be followed by an escaped low one
  | .lowStart seen high => if c = '\\' then some ([], .lowMark seen high) else none
  | .lowMark seen high => if c = 'u' then some ([], .hex seen (some high) 0 0) else none

/-- What the end of the text completes. -/
def lexEnd : LexState → Option (List JsonToken)
  | .ready => some []
  | .word seen => (finishWord seen).map ([·])
  | .digits negative seen => (finishDigits negative seen).map ([·])
  | _ => none

/-- The tokens of a text, read from a given lexer state. -/
def lexFrom (state : LexState) : List Char → Option (List JsonToken)
  | [] => lexEnd state
  | c :: rest => do
    let (tokens, next) ← lexStep state c
    let more ← lexFrom next rest
    pure (tokens ++ more)

/-! ## The parser -/

/-- A container whose next element or member value is being read. Earlier elements are kept
    in reverse. -/
inductive Frame where
  | items (done : List Json)
  | member (done : List (String × Json)) (name : String)

/-- What the parser expects next. -/
inductive ParseState where
  | value (frames : List Frame)
  | firstItem (frames : List Frame)
  | firstName (frames : List Frame)
  | name (done : List (String × Json)) (frames : List Frame)
  | colon (done : List (String × Json)) (name : String) (frames : List Frame)
  | afterItem (done : List Json) (frames : List Frame)
  | afterMember (done : List (String × Json)) (frames : List Frame)
  | finished (v : Json)

/-- A completed value goes into the innermost open container. -/
def complete (v : Json) : List Frame → ParseState
  | [] => .finished v
  | .items done :: frames => .afterItem (v :: done) frames
  | .member done name :: frames => .afterMember ((name, v) :: done) frames

/-- The token a value starts with. -/
def startValue (frames : List Frame) : JsonToken → Option ParseState
  | .null => some (complete .null frames)
  | .bool b => some (complete (.bool b) frames)
  | .num n => some (complete (.num n) frames)
  | .str s => some (complete (.str s) frames)
  | .openBracket => some (.firstItem frames)
  | .openBrace => some (.firstName frames)
  | _ => none

/-- One step of the parser. -/
def parseStep : ParseState → JsonToken → Option ParseState
  | .value frames, t => startValue frames t
  | .firstItem frames, .closeBracket => some (complete (.arr []) frames)
  | .firstItem frames, t => startValue (.items [] :: frames) t
  | .firstName frames, .closeBrace => some (complete (.obj []) frames)
  | .firstName frames, .str s => some (.colon [] s frames)
  | .name done frames, .str s => some (.colon done s frames)
  | .colon done s frames, .colon => some (.value (.member done s :: frames))
  | .afterItem done frames, .comma => some (.value (.items done :: frames))
  | .afterItem done frames, .closeBracket => some (complete (.arr done.reverse) frames)
  | .afterMember done frames, .comma => some (.name done frames)
  | .afterMember done frames, .closeBrace => some (complete (.obj done.reverse) frames)
  | _, _ => none

/-- The parser over a whole token list. -/
def parseFrom (state : ParseState) : List JsonToken → Option ParseState
  | [] => some state
  | t :: rest => (parseStep state t).bind fun next => parseFrom next rest

/-- The one value a token list spells. -/
def parseTokens (tokens : List JsonToken) : Option Json :=
  match parseFrom (.value []) tokens with
  | some (.finished v) => some v
  | _ => none

/-- The value a text spells in the JSON grammar, of whose numbers only the integers are taken; an
    object keeps all its members, in the order of the text. -/
def parseJson (text : List Char) : Option Json :=
  (lexFrom .ready text).bind parseTokens

/-! ## The rendering -/

/-- A lower-case hexadecimal digit. -/
def hexChar (n : Nat) : Char :=
  if n < 10 then Char.ofNat ('0'.toNat + n) else Char.ofNat ('a'.toNat + (n - 10))

/-- One character of a string, escaped where JSON needs it. -/
def escapeChar (c : Char) : List Char :=
  if c = '"' then ['\\', '"']
  else if c = '\\' then ['\\', '\\']
  else if c = Char.ofNat 8 then ['\\', 'b']
  else if c = Char.ofNat 12 then ['\\', 'f']
  else if c = '\n' then ['\\', 'n']
  else if c = '\r' then ['\\', 'r']
  else if c = '\t' then ['\\', 't']
  else if c.toNat < 0x20 then
    ['\\', 'u', '0', '0', hexChar (c.toNat / 16), hexChar (c.toNat % 16)]
  else [c]

/-- A string between quotes. -/
def stringText (s : String) : List Char :=
  '"' :: s.toList.flatMap escapeChar ++ ['"']

/-- An integer in decimal. -/
def intText (n : Int) : List Char :=
  if n < 0 then '-' :: Nat.toDigits 10 n.natAbs else Nat.toDigits 10 n.natAbs

/-- The break before an element: nothing in compact text, a new line and the indentation of
    the level in indented text. -/
def gapText (indented : Bool) (level : Nat) : List Char :=
  if indented then '\n' :: List.replicate (2 * level) ' ' else []

/-- The text between a member's name and its value. -/
def colonText (indented : Bool) : List Char :=
  if indented then [':', ' '] else [':']

mutual
/-- A value at a level of indentation. -/
def textAt (indented : Bool) (level : Nat) : Json → List Char
  | .null => ['n', 'u', 'l', 'l']
  | .bool true => ['t', 'r', 'u', 'e']
  | .bool false => ['f', 'a', 'l', 's', 'e']
  | .num n => intText n
  | .str s => stringText s
  | .arr [] => ['[', ']']
  | .arr (v :: items) =>
    '[' :: (gapText indented (level + 1) ++ textAt indented (level + 1) v
      ++ itemsText indented (level + 1) items ++ gapText indented level ++ [']'])
  | .obj [] => ['{', '}']
  | .obj ((name, v) :: members) =>
    '{' :: (gapText indented (level + 1) ++ stringText name ++ colonText indented
      ++ textAt indented (level + 1) v ++ membersText indented (level + 1) members
      ++ gapText indented level ++ ['}'])

/-- The elements after the first, each behind its comma. -/
def itemsText (indented : Bool) (level : Nat) : List Json → List Char
  | [] => []
  | v :: items =>
    ',' :: (gapText indented level ++ textAt indented level v ++ itemsText indented level items)

/-- The members after the first, each behind its comma. -/
def membersText (indented : Bool) (level : Nat) : List (String × Json) → List Char
  | [] => []
  | (name, v) :: members =>
    ',' :: (gapText indented level ++ stringText name ++ colonText indented
      ++ textAt indented level v ++ membersText indented level members)
end

mutual
/-- The tokens of a value. -/
def tokens : Json → List JsonToken
  | .null => [.null]
  | .bool b => [.bool b]
  | .num n => [.num n]
  | .str s => [.str s]
  | .arr [] => [.openBracket, .closeBracket]
  | .arr (v :: items) => .openBracket :: (tokens v ++ itemTokens items ++ [.closeBracket])
  | .obj [] => [.openBrace, .closeBrace]
  | .obj ((name, v) :: members) =>
    .openBrace :: .str name :: .colon :: (tokens v ++ memberTokens members ++ [.closeBrace])

/-- The tokens of the elements after the first. -/
def itemTokens : List Json → List JsonToken
  | [] => []
  | v :: items => .comma :: (tokens v ++ itemTokens items)

/-- The tokens of the members after the first. -/
def memberTokens : List (String × Json) → List JsonToken
  | [] => []
  | (name, v) :: members =>
    .comma :: .str name :: .colon :: (tokens v ++ memberTokens members)
end

/-! ## The lexer reads a rendering back -/

/-- **SILENT STEP**: a character that only moves the lexer leaves the tokens to the rest. -/
theorem lexFrom_silent {state : LexState} {c : Char} (next : LexState) (rest : List Char)
    (h : lexStep state c = some ([], next)) :
    lexFrom state (c :: rest) = lexFrom next rest := by
  rw [lexFrom, h]
  cases h' : lexFrom next rest with
  | none => simp [h']
  | some more => simp [h']

/-- **EMITTING STEP**: a character that completes a token puts it before the rest. -/
theorem lexFrom_emit {state next : LexState} {c : Char} {t : JsonToken} (rest : List Char)
    (h : lexStep state c = some ([t], next)) :
    lexFrom state (c :: rest) = (lexFrom next rest).map (t :: ·) := by
  rw [lexFrom, h]
  cases h' : lexFrom next rest with
  | none => simp [h']
  | some more => simp [h']

/-- A character that ends a number or a literal name. -/
def isDelimiter (c : Char) : Bool :=
  !c.isDigit && !c.isLower && c != '.' && c != 'E'

/-- The text is at its end or goes on with a delimiter. -/
def Delimited (rest : List Char) : Prop :=
  ∀ c ∈ rest.head?, isDelimiter c = true

theorem delimited_cons {c : Char} (rest : List Char) (h : isDelimiter c = true) :
    Delimited (c :: rest) := by
  intro d hd
  have heq : c = d := by simpa using hd
  exact heq ▸ h

/-- A word ends where the text is delimited. -/
theorem lexFrom_word_end {seen : List Char} {t : JsonToken} (rest : List Char)
    (hword : finishWord seen = some t) (hrest : Delimited rest) :
    lexFrom (.word seen) rest = (lexFrom .ready rest).map (t :: ·) := by
  cases rest with
  | nil => simp [lexFrom, lexEnd, hword]
  | cons c rest =>
    have hdelim : isDelimiter c = true := hrest c rfl
    have hlower : c.isLower = false := by
      simp only [isDelimiter, Bool.and_eq_true, Bool.not_eq_true'] at hdelim
      exact hdelim.1.1.2
    simp only [lexFrom, lexStep, hlower, hword]
    cases hready : lexReady c with
    | none => simp
    | some step =>
      obtain ⟨emitted, next⟩ := step
      cases hmore : lexFrom next rest with
      | none => simp [hmore]
      | some more => simp [hmore]

/-- A number ends where the text is delimited. -/
theorem lexFrom_digits_end {negative : Bool} {seen : List Char} {t : JsonToken}
    (rest : List Char) (hnum : finishDigits negative seen = some t) (hrest : Delimited rest) :
    lexFrom (.digits negative seen) rest = (lexFrom .ready rest).map (t :: ·) := by
  cases rest with
  | nil => simp [lexFrom, lexEnd, hnum]
  | cons c rest =>
    have hdelim : isDelimiter c = true := hrest c rfl
    simp only [isDelimiter, Bool.and_eq_true, Bool.not_eq_true', bne_iff_ne] at hdelim
    obtain ⟨⟨⟨hdigit, hlower⟩, hdot⟩, hE⟩ := hdelim
    have he : c ≠ 'e' := by
      rintro rfl
      exact absurd hlower (by decide)
    simp only [lexFrom, lexStep, hdigit, hdot, he, hE, or_self, hnum]
    cases hready : lexReady c with
    | none => simp
    | some step =>
      obtain ⟨emitted, next⟩ := step
      cases hmore : lexFrom next rest with
      | none => simp [hmore]
      | some more => simp [hmore]

/-- Digits pile up in the lexer's state. -/
theorem lexFrom_digits_run (negative : Bool) (ds seen rest : List Char)
    (hds : ∀ d ∈ ds, d.isDigit = true) :
    lexFrom (.digits negative seen) (ds ++ rest)
      = lexFrom (.digits negative (ds.reverse ++ seen)) rest := by
  induction ds generalizing seen with
  | nil => rfl
  | cons d ds ih =>
    have hd : d.isDigit = true := hds d List.mem_cons_self
    rw [List.cons_append, lexFrom_silent (.digits negative (d :: seen)) _ (by simp [lexStep, hd]),
      ih (d :: seen) fun x hx => hds x (List.mem_cons_of_mem _ hx)]
    simp

/-- Only zero is spelled with a leading zero. -/
theorem toDigits_head_zero (n : Nat) (ds : List Char) (h : Nat.toDigits 10 n = '0' :: ds) :
    n = 0 ∧ ds = [] := by
  induction n using Nat.strongRecOn generalizing ds with
  | _ n ih =>
    by_cases hsmall : n < 10
    · rw [Nat.toDigits_of_lt_base hsmall] at h
      obtain ⟨hhead, htail⟩ := List.cons.inj h
      refine ⟨?_, htail.symm⟩
      have hall : ∀ m, m < 10 → Nat.digitChar m = '0' → m = 0 := by decide
      exact hall n hsmall hhead
    · have hbig : 10 ≤ n := Nat.le_of_not_lt hsmall
      rw [Nat.toDigits_of_base_le (by decide) hbig] at h
      cases hq : Nat.toDigits 10 (n / 10) with
      | nil => exact absurd hq Nat.toDigits_ne_nil
      | cons d more =>
        rw [hq, List.cons_append] at h
        obtain ⟨rfl, _⟩ := List.cons.inj h
        have hzero := (ih (n / 10) (by omega) more hq).1
        omega

/-- Decimal digits are read back as the number they spell. -/
theorem finishDigits_toDigits (negative : Bool) (n : Nat) (h : negative = true → n ≠ 0) :
    finishDigits negative (Nat.toDigits 10 n).reverse
      = some (.num (if negative then -(n : Int) else (n : Int))) := by
  have hvalue : Nat.ofDigitChars 10 (Nat.toDigits 10 n) 0 = n := Nat.ofDigitChars_ten_toDigits
  rw [finishDigits, List.reverse_reverse]
  split
  · rename_i hnil
    exact absurd hnil Nat.toDigits_ne_nil
  · rename_i hzero
    obtain ⟨rfl, _⟩ := toDigits_head_zero n [] hzero
    cases negative with
    | true => exact absurd rfl (h rfl)
    | false => rfl
  · rename_i second more hlead
    cases (toDigits_head_zero n (second :: more) hlead).2
  · rw [hvalue]

/-- An integer is read back as one token. -/
theorem lexFrom_intText (n : Int) (rest : List Char) (hrest : Delimited rest) :
    lexFrom .ready (intText n ++ rest) = (lexFrom .ready rest).map (JsonToken.num n :: ·) := by
  have hdigits : ∀ m : Nat, ∀ d ∈ Nat.toDigits 10 m, d.isDigit = true := fun m d hd =>
    Nat.isDigit_of_mem_toDigits (by decide) (by decide) hd
  by_cases hneg : n < 0
  · have hstart : lexStep .ready '-' = some ([], .digits true []) := by decide
    have hnum := finishDigits_toDigits true n.natAbs (fun _ => by omega)
    have hvalue : -(n.natAbs : Int) = n := by omega
    rw [if_pos rfl, hvalue] at hnum
    rw [intText, if_pos hneg, List.cons_append, lexFrom_silent _ _ hstart,
      lexFrom_digits_run true _ _ _ (hdigits _), List.append_nil]
    exact lexFrom_digits_end rest hnum hrest
  · have hnum := finishDigits_toDigits false n.natAbs (fun h => by cases h)
    have hvalue : (n.natAbs : Int) = n := by omega
    rw [if_neg Bool.false_ne_true, hvalue] at hnum
    rw [intText, if_neg hneg]
    cases hds : Nat.toDigits 10 n.natAbs with
    | nil => exact absurd hds Nat.toDigits_ne_nil
    | cons d ds =>
      have hall : ∀ x ∈ d :: ds, x.isDigit = true := hds ▸ hdigits n.natAbs
      have hd : d.isDigit = true := hall d List.mem_cons_self
      have hstart : lexStep .ready d = some ([], .digits false [d]) := by
        have hne : ∀ c : Char, c.isDigit = false → d ≠ c := by
          rintro c hc rfl
          exact absurd hd (by rw [hc]; decide)
        simp [lexStep, lexReady, isJsonSpace, hd, hne ' ' (by decide), hne '\t' (by decide),
          hne '\n' (by decide), hne '\r' (by decide), hne '{' (by decide), hne '}' (by decide),
          hne '[' (by decide), hne ']' (by decide), hne ':' (by decide), hne ',' (by decide),
          hne '"' (by decide), hne '-' (by decide)]
      rw [hds] at hnum
      rw [List.cons_append, lexFrom_silent _ _ hstart,
        lexFrom_digits_run false _ _ _ fun x hx => hall x (List.mem_cons_of_mem _ hx)]
      have hseen : ds.reverse ++ [d] = (d :: ds).reverse := by simp
      rw [hseen]
      exact lexFrom_digits_end rest hnum hrest

private theorem hexValue_hexChar : ∀ d, d < 16 → hexValue (hexChar d) = some d := by decide

/-- An escaped character is read back as itself. -/
theorem lexFrom_escapeChar (c : Char) (seen rest : List Char) :
    lexFrom (.text seen) (escapeChar c ++ rest) = lexFrom (.text (c :: seen)) rest := by
  have hpair : ∀ e d : Char, escapedChar e = some d → e ≠ 'u' →
      lexFrom (.text seen) ('\\' :: e :: rest) = lexFrom (.text (d :: seen)) rest := by
    intro e d hescaped hu
    rw [lexFrom_silent (.escape seen) _ rfl, lexFrom_silent (.text (d :: seen))]
    simp [lexStep, hu, hescaped]
  rw [escapeChar]
  split
  case isTrue h => exact h ▸ hpair '"' '"' (by decide) (by decide)
  split
  case isTrue h => exact h ▸ hpair '\\' '\\' (by decide) (by decide)
  split
  case isTrue h => exact h ▸ hpair 'b' (Char.ofNat 8) (by decide) (by decide)
  split
  case isTrue h => exact h ▸ hpair 'f' (Char.ofNat 12) (by decide) (by decide)
  split
  case isTrue h => exact h ▸ hpair 'n' '\n' (by decide) (by decide)
  split
  case isTrue h => exact h ▸ hpair 'r' '\r' (by decide) (by decide)
  split
  case isTrue h => exact h ▸ hpair 't' '\t' (by decide) (by decide)
  rename_i hquote hslash _ _ _ _ _
  split
  case isTrue h =>
    -- the four hex digits are `00` and the two digits of the control character
    have hhigh := hexValue_hexChar (c.toNat / 16) (by omega)
    have hlow := hexValue_hexChar (c.toNat % 16) (by omega)
    have hzero : hexValue '0' = some 0 := by decide
    have hvalue : c.toNat / 16 * 16 + c.toNat % 16 = c.toNat := by omega
    have hfinish : finishHex seen none c.toNat = some (.text (c :: seen)) := by
      simp only [finishHex]
      rw [if_neg (by omega), if_neg (by omega), Char.ofNat_toNat]
    simp only [List.cons_append, List.nil_append]
    rw [lexFrom_silent (.escape seen) _ rfl,
      lexFrom_silent (.hex seen none 0 0) _ rfl,
      lexFrom_silent (.hex seen none 1 0) _ (by simp [lexStep, hzero]),
      lexFrom_silent (.hex seen none 2 0) _ (by simp [lexStep, hzero]),
      lexFrom_silent (.hex seen none 3 (c.toNat / 16)) _ (by simp [lexStep, hhigh]),
      lexFrom_silent (.text (c :: seen)) _
        (by simp [lexStep, hlow, hvalue, hfinish])]
  case isFalse h =>
    rw [List.singleton_append, lexFrom_silent (.text (c :: seen))]
    simp [lexStep, hquote, hslash, h]

/-- An escaped string body is read back as the string. -/
theorem lexFrom_stringBody (cs seen rest : List Char) :
    lexFrom (.text seen) (cs.flatMap escapeChar ++ '"' :: rest)
      = (lexFrom .ready rest).map (JsonToken.str (String.ofList (seen.reverse ++ cs)) :: ·) := by
  induction cs generalizing seen with
  | nil =>
    rw [List.append_nil]
    exact lexFrom_emit rest rfl
  | cons c cs ih =>
    rw [List.flatMap_cons, List.append_assoc, lexFrom_escapeChar, ih]
    simp

/-- A string is read back as one token. -/
theorem lexFrom_stringText (s : String) (rest : List Char) :
    lexFrom .ready (stringText s ++ rest) = (lexFrom .ready rest).map (JsonToken.str s :: ·) := by
  have hstart : lexStep .ready '"' = some ([], .text []) := by decide
  have hbody := lexFrom_stringBody s.toList [] rest
  rw [List.reverse_nil, List.nil_append, String.ofList_toList] at hbody
  rw [stringText, List.cons_append, List.cons_append, List.append_assoc, lexFrom_silent _ _ hstart]
  exact hbody

/-- The break before an element carries no token. -/
theorem lexFrom_gapText (indented : Bool) (level : Nat) (rest : List Char) :
    lexFrom .ready (gapText indented level ++ rest) = lexFrom .ready rest := by
  have hspaces : ∀ n, lexFrom .ready (List.replicate n ' ' ++ rest) = lexFrom .ready rest := by
    intro n
    induction n with
    | zero => rfl
    | succ n ih =>
      rw [List.replicate_succ, List.cons_append, lexFrom_silent .ready _ (by decide)]
      exact ih
  cases indented with
  | false => rfl
  | true =>
    show lexFrom .ready ('\n' :: (List.replicate (2 * level) ' ' ++ rest)) = _
    rw [lexFrom_silent .ready _ (by decide)]
    exact hspaces (2 * level)

/-- The text between name and value is the colon token. -/
theorem lexFrom_colonText (indented : Bool) (rest : List Char) :
    lexFrom .ready (colonText indented ++ rest)
      = (lexFrom .ready rest).map (JsonToken.colon :: ·) := by
  have hcolon : lexStep .ready ':' = some ([.colon], .ready) := by decide
  cases indented with
  | false => exact lexFrom_emit rest hcolon
  | true =>
    show lexFrom .ready (':' :: ' ' :: rest) = _
    rw [lexFrom_emit _ hcolon, lexFrom_silent .ready _ (by decide)]

/-- A punctuation character is its token. -/
theorem lexFrom_punct (c : Char) (t : JsonToken) (rest : List Char)
    (h : lexReady c = some ([t], .ready)) :
    lexFrom .ready (c :: rest) = (lexFrom .ready rest).map (t :: ·) :=
  lexFrom_emit rest h

private theorem delimited_gap (indented : Bool) (level : Nat) {c : Char} (rest : List Char)
    (h : isDelimiter c = true) : Delimited (gapText indented level ++ c :: rest) := by
  cases indented with
  | false => exact delimited_cons rest h
  | true => exact delimited_cons _ (by decide)

private theorem delimited_items (indented : Bool) (level level' : Nat) (items : List Json)
    {c : Char} (rest : List Char) (h : isDelimiter c = true) :
    Delimited (itemsText indented level items ++ (gapText indented level' ++ c :: rest)) := by
  cases items with
  | nil => exact delimited_gap indented level' rest h
  | cons v items => exact delimited_cons _ (by decide)

private theorem delimited_members (indented : Bool) (level level' : Nat)
    (members : List (String × Json)) {c : Char} (rest : List Char) (h : isDelimiter c = true) :
    Delimited (membersText indented level members ++ (gapText indented level' ++ c :: rest)) := by
  cases members with
  | nil => exact delimited_gap indented level' rest h
  | cons m members => exact delimited_cons _ (by decide)

private theorem map_map_append (o : Option (List JsonToken)) (xs ys : List JsonToken) :
    (o.map (ys ++ ·)).map (xs ++ ·) = o.map (xs ++ ys ++ ·) := by
  cases o with
  | none => rfl
  | some zs => simp

mutual
/-- **THE LEXER READS A RENDERING BACK**: whatever the layout, a value's text yields the
    value's tokens and then the tokens of the rest. -/
theorem lexFrom_textAt (indented : Bool) (level : Nat) (rest : List Char)
    (hrest : Delimited rest) : ∀ v : Json,
    lexFrom .ready (textAt indented level v ++ rest)
      = (lexFrom .ready rest).map (tokens v ++ ·)
  -- The cases are those of `textAt`; `Delimited rest` is what ends a word or a number.
  | .null => by
    simp only [textAt, tokens, List.cons_append, List.nil_append]
    rw [lexFrom_silent (.word ['n']) _ (by decide),
      lexFrom_silent (.word ['u', 'n']) _ (by decide),
      lexFrom_silent (.word ['l', 'u', 'n']) _ (by decide),
      lexFrom_silent (.word ['l', 'l', 'u', 'n']) _ (by decide)]
    exact lexFrom_word_end rest (by decide) hrest
  | .bool true => by
    simp only [textAt, tokens, List.cons_append, List.nil_append]
    rw [lexFrom_silent (.word ['t']) _ (by decide),
      lexFrom_silent (.word ['r', 't']) _ (by decide),
      lexFrom_silent (.word ['u', 'r', 't']) _ (by decide),
      lexFrom_silent (.word ['e', 'u', 'r', 't']) _ (by decide)]
    exact lexFrom_word_end rest (by decide) hrest
  | .bool false => by
    simp only [textAt, tokens, List.cons_append, List.nil_append]
    rw [lexFrom_silent (.word ['f']) _ (by decide),
      lexFrom_silent (.word ['a', 'f']) _ (by decide),
      lexFrom_silent (.word ['l', 'a', 'f']) _ (by decide),
      lexFrom_silent (.word ['s', 'l', 'a', 'f']) _ (by decide),
      lexFrom_silent (.word ['e', 's', 'l', 'a', 'f']) _ (by decide)]
    exact lexFrom_word_end rest (by decide) hrest
  | .num n => by
    simp only [textAt, tokens]
    exact lexFrom_intText n rest hrest
  | .str s => by
    simp only [textAt, tokens]
    exact lexFrom_stringText s rest
  | .arr [] => by
    simp only [textAt, tokens, List.cons_append, List.nil_append]
    rw [lexFrom_punct '[' .openBracket _ (by decide),
      lexFrom_punct ']' .closeBracket _ (by decide)]
    exact map_map_append _ [.openBracket] [.closeBracket]
  | .arr (v :: items) => by
    have hclose := lexFrom_punct ']' .closeBracket rest (by decide)
    have hitems := lexFrom_itemsText indented (level + 1)
      (gapText indented level ++ ']' :: rest) (delimited_gap indented level rest (by decide)) items
    have hv := lexFrom_textAt indented (level + 1)
      (itemsText indented (level + 1) items ++ (gapText indented level ++ ']' :: rest))
      (delimited_items indented (level + 1) level items rest (by decide)) v
    simp only [textAt, tokens, List.cons_append, List.append_assoc, List.nil_append]
    rw [lexFrom_punct '[' .openBracket _ (by decide), lexFrom_gapText, hv,
      hitems, lexFrom_gapText, hclose]
    cases lexFrom .ready rest with
    | none => rfl
    | some more => simp
  | .obj [] => by
    simp only [textAt, tokens, List.cons_append, List.nil_append]
    rw [lexFrom_punct '{' .openBrace _ (by decide),
      lexFrom_punct '}' .closeBrace _ (by decide)]
    exact map_map_append _ [.openBrace] [.closeBrace]
  | .obj ((name, v) :: members) => by
    have hclose := lexFrom_punct '}' .closeBrace rest (by decide)
    have hmembers := lexFrom_membersText indented (level + 1)
      (gapText indented level ++ '}' :: rest) (delimited_gap indented level rest (by decide))
      members
    have hv := lexFrom_textAt indented (level + 1)
      (membersText indented (level + 1) members ++ (gapText indented level ++ '}' :: rest))
      (delimited_members indented (level + 1) level members rest (by decide)) v
    simp only [textAt, tokens, List.cons_append, List.append_assoc, List.nil_append]
    rw [lexFrom_punct '{' .openBrace _ (by decide), lexFrom_gapText,
      lexFrom_stringText, lexFrom_colonText, hv, hmembers, lexFrom_gapText, hclose]
    cases lexFrom .ready rest with
    | none => rfl
    | some more => simp

theorem lexFrom_itemsText (indented : Bool) (level : Nat) (rest : List Char)
    (hrest : Delimited rest) : ∀ items : List Json,
    lexFrom .ready (itemsText indented level items ++ rest)
      = (lexFrom .ready rest).map (itemTokens items ++ ·)
  | [] => by simp [itemsText, itemTokens]
  | v :: items => by
    have hitems := lexFrom_itemsText indented level rest hrest items
    have hdelim : Delimited (itemsText indented level items ++ rest) := by
      cases items with
      | nil => exact hrest
      | cons w more => exact delimited_cons _ (by decide)
    have hv := lexFrom_textAt indented level (itemsText indented level items ++ rest) hdelim v
    simp only [itemsText, itemTokens, List.cons_append, List.append_assoc]
    rw [lexFrom_punct ',' .comma _ (by decide), lexFrom_gapText, hv, hitems]
    cases lexFrom .ready rest with
    | none => rfl
    | some more => simp

theorem lexFrom_membersText (indented : Bool) (level : Nat) (rest : List Char)
    (hrest : Delimited rest) : ∀ members : List (String × Json),
    lexFrom .ready (membersText indented level members ++ rest)
      = (lexFrom .ready rest).map (memberTokens members ++ ·)
  | [] => by simp [membersText, memberTokens]
  | (name, v) :: members => by
    have hmembers := lexFrom_membersText indented level rest hrest members
    have hdelim : Delimited (membersText indented level members ++ rest) := by
      cases members with
      | nil => exact hrest
      | cons m more => exact delimited_cons _ (by decide)
    have hv := lexFrom_textAt indented level (membersText indented level members ++ rest) hdelim v
    simp only [membersText, memberTokens, List.cons_append, List.append_assoc]
    rw [lexFrom_punct ',' .comma _ (by decide), lexFrom_gapText,
      lexFrom_stringText, lexFrom_colonText, hv, hmembers]
    cases lexFrom .ready rest with
    | none => rfl
    | some more => simp
end

/-! ## The parser reads the tokens back -/

/-- After the opening bracket, anything but the closing one starts the first element. -/
theorem parseStep_firstItem (frames : List Frame) {t : JsonToken} (h : t ≠ .closeBracket) :
    parseStep (.firstItem frames) t = parseStep (.value (.items [] :: frames)) t := by
  cases t <;> first | rfl | exact absurd rfl h

/-- A value never starts with a closing bracket. -/
theorem tokens_head_ne_closeBracket (v : Json) :
    ∃ t ts, tokens v = t :: ts ∧ t ≠ .closeBracket := by
  match v with
  | .null => exact ⟨_, _, rfl, by decide⟩
  | .bool b => exact ⟨_, _, rfl, nofun⟩
  | .num n => exact ⟨_, _, rfl, nofun⟩
  | .str s => exact ⟨_, _, rfl, nofun⟩
  | .arr [] => exact ⟨_, _, rfl, by decide⟩
  | .arr (w :: items) => exact ⟨.openBracket, _, by rw [tokens], by decide⟩
  | .obj [] => exact ⟨_, _, rfl, by decide⟩
  | .obj ((name, w) :: members) => exact ⟨.openBrace, _, by rw [tokens], by decide⟩

private theorem parseFrom_cons {state next : ParseState} {t : JsonToken} (rest : List JsonToken)
    (h : parseStep state t = some next) :
    parseFrom state (t :: rest) = parseFrom next rest := by
  rw [parseFrom, h]
  rfl

mutual
/-- **THE PARSER READS THE TOKENS BACK**: where a value is expected, the value's tokens
    complete it in whatever containers are open. -/
theorem parseFrom_tokens (frames : List Frame) (rest : List JsonToken) : ∀ v : Json,
    parseFrom (.value frames) (tokens v ++ rest) = parseFrom (complete v frames) rest
  | .null => parseFrom_cons rest rfl
  | .bool b => parseFrom_cons rest rfl
  | .num n => parseFrom_cons rest rfl
  | .str s => parseFrom_cons rest rfl
  | .arr [] => by
    simp only [tokens, List.cons_append, List.nil_append]
    rw [parseFrom_cons _ rfl, parseFrom_cons _ rfl]
  | .arr (v :: items) => by
    obtain ⟨t, ts, hhead, hne⟩ := tokens_head_ne_closeBracket v
    have hv := parseFrom_tokens (.items [] :: frames) (itemTokens items ++ .closeBracket :: rest) v
    have hitems := parseFrom_itemTokens [v] frames rest items
    have hfirst : parseFrom (.firstItem frames)
          (tokens v ++ (itemTokens items ++ .closeBracket :: rest))
        = parseFrom (.value (.items [] :: frames))
          (tokens v ++ (itemTokens items ++ .closeBracket :: rest)) := by
      rw [hhead, List.cons_append, parseFrom, parseFrom, parseStep_firstItem frames hne]
    simp only [tokens, List.cons_append, List.append_assoc, List.nil_append]
    rw [parseFrom_cons _ rfl, hfirst, hv]
    exact hitems
  | .obj [] => by
    simp only [tokens, List.cons_append, List.nil_append]
    rw [parseFrom_cons _ rfl, parseFrom_cons _ rfl]
  | .obj ((name, v) :: members) => by
    have hv := parseFrom_tokens (.member [] name :: frames)
      (memberTokens members ++ .closeBrace :: rest) v
    have hmembers := parseFrom_memberTokens [(name, v)] frames rest members
    simp only [tokens, List.cons_append, List.append_assoc, List.nil_append]
    rw [parseFrom_cons _ rfl, parseFrom_cons _ rfl, parseFrom_cons _ rfl, hv]
    exact hmembers

theorem parseFrom_itemTokens (done : List Json) (frames : List Frame) (rest : List JsonToken) :
    ∀ items : List Json,
    parseFrom (.afterItem done frames) (itemTokens items ++ .closeBracket :: rest)
      = parseFrom (complete (.arr (done.reverse ++ items)) frames) rest
  | [] => by
    rw [itemTokens, List.nil_append, parseFrom_cons _ rfl, List.append_nil]
  | v :: items => by
    have hv := parseFrom_tokens (.items done :: frames)
      (itemTokens items ++ .closeBracket :: rest) v
    have hitems := parseFrom_itemTokens (v :: done) frames rest items
    simp only [itemTokens, List.cons_append, List.append_assoc]
    rw [parseFrom_cons _ rfl, hv, complete, hitems]
    simp

theorem parseFrom_memberTokens (done : List (String × Json)) (frames : List Frame)
    (rest : List JsonToken) : ∀ members : List (String × Json),
    parseFrom (.afterMember done frames) (memberTokens members ++ .closeBrace :: rest)
      = parseFrom (complete (.obj (done.reverse ++ members)) frames) rest
  | [] => by
    rw [memberTokens, List.nil_append, parseFrom_cons _ rfl, List.append_nil]
  | (name, v) :: members => by
    have hv := parseFrom_tokens (.member done name :: frames)
      (memberTokens members ++ .closeBrace :: rest) v
    have hmembers := parseFrom_memberTokens ((name, v) :: done) frames rest members
    simp only [memberTokens, List.cons_append, List.append_assoc]
    rw [parseFrom_cons _ rfl, parseFrom_cons _ rfl, parseFrom_cons _ rfl, hv, complete, hmembers]
    simp
end

/-- The tokens of a value parse to the value. -/
theorem parseTokens_tokens (v : Json) : parseTokens (tokens v) = some v := by
  have h := parseFrom_tokens [] [] v
  rw [List.append_nil] at h
  rw [parseTokens, h]
  rfl

/-- **ROUND TRIP**: the compact and the indented text of a value both parse back to it. -/
theorem parseJson_textAt (indented : Bool) (level : Nat) (v : Json) :
    parseJson (textAt indented level v) = some v := by
  have h := lexFrom_textAt indented level [] (fun c hc => by cases hc) v
  rw [List.append_nil] at h
  rw [parseJson, h]
  simp only [lexFrom, lexEnd, Option.map_some, List.append_nil, Option.bind_some]
  exact parseTokens_tokens v

/-- A value is determined by its text. -/
theorem textAt_injective (indented : Bool) (level : Nat) {v w : Json}
    (h : textAt indented level v = textAt indented level w) : v = w := by
  have hv := parseJson_textAt indented level v
  rw [h, parseJson_textAt indented level w] at hv
  exact (Option.some.inj hv).symm

/-! ## How the text of an object opens -/

/-- A literal name is no brace. -/
private theorem finishWord_ne {seen : List Char} {t : JsonToken} (h : finishWord seen = some t) :
    t ≠ .openBrace := by
  rintro rfl
  unfold finishWord at h
  split_ifs at h <;> cases h

/-- A number is no brace. -/
private theorem finishDigits_ne {negative : Bool} {seen : List Char} {t : JsonToken}
    (h : finishDigits negative seen = some t) : t ≠ .openBrace := by
  rintro rfl
  unfold finishDigits at h
  split at h
  · cases h
  · split at h <;> cases h
  · cases h
  · cases Option.some.inj h

/-- The digits of `\u` end inside a string. -/
private theorem finishHex_ne {seen : List Char} {high : Option Nat} {value : Nat} {next : LexState}
    (h : finishHex seen high value = some next) : next ≠ .ready := by
  rintro rfl
  unfold finishHex at h
  split at h <;> split_ifs at h <;> cases h

/-- Inside a token, no character emits an opening brace before the token is complete. -/
private theorem lexStep_inside {state next : LexState} {c : Char} {emitted : List JsonToken}
    (hstate : state ≠ .ready) (h : lexStep state c = some (emitted, next)) :
    (emitted = [] ∧ next ≠ .ready) ∨ ∃ t ts, emitted = t :: ts ∧ t ≠ .openBrace := by
  -- Inside a token a step is silent and stays inside, or it ends the token.
  cases state with
  | ready => exact absurd rfl hstate
  | word seen =>
    simp only [lexStep] at h
    split at h
    · obtain ⟨rfl, rfl⟩ := Prod.mk.inj (Option.some.inj h)
      exact Or.inl ⟨rfl, nofun⟩
    · simp only [Option.bind_eq_bind, Option.bind_eq_some_iff] at h
      obtain ⟨t, ht, ⟨tokens, after⟩, _, h⟩ := h
      obtain ⟨rfl, rfl⟩ := Prod.mk.inj (Option.some.inj h)
      exact Or.inr ⟨t, tokens, rfl, finishWord_ne ht⟩
  | digits negative seen =>
    simp only [lexStep] at h
    split at h
    · obtain ⟨rfl, rfl⟩ := Prod.mk.inj (Option.some.inj h)
      exact Or.inl ⟨rfl, nofun⟩
    · split at h
      · cases h
      · simp only [Option.bind_eq_bind, Option.bind_eq_some_iff] at h
        obtain ⟨t, ht, ⟨tokens, after⟩, _, h⟩ := h
        obtain ⟨rfl, rfl⟩ := Prod.mk.inj (Option.some.inj h)
        exact Or.inr ⟨t, tokens, rfl, finishDigits_ne ht⟩
  | text seen =>
    simp only [lexStep] at h
    split at h
    · obtain ⟨rfl, rfl⟩ := Prod.mk.inj (Option.some.inj h)
      exact Or.inr ⟨_, [], rfl, nofun⟩
    · split at h
      · obtain ⟨rfl, rfl⟩ := Prod.mk.inj (Option.some.inj h)
        exact Or.inl ⟨rfl, nofun⟩
      · split at h
        · cases h
        · obtain ⟨rfl, rfl⟩ := Prod.mk.inj (Option.some.inj h)
          exact Or.inl ⟨rfl, nofun⟩
  | escape seen =>
    simp only [lexStep] at h
    split at h
    · obtain ⟨rfl, rfl⟩ := Prod.mk.inj (Option.some.inj h)
      exact Or.inl ⟨rfl, nofun⟩
    · obtain ⟨d, _, h⟩ := Option.map_eq_some_iff.mp h
      obtain ⟨rfl, rfl⟩ := Prod.mk.inj h
      exact Or.inl ⟨rfl, nofun⟩
  | hex seen high count value =>
    simp only [lexStep, Option.bind_eq_bind, Option.bind_eq_some_iff] at h
    obtain ⟨d, _, h⟩ := h
    split at h
    · obtain ⟨after, hafter, h⟩ := Option.map_eq_some_iff.mp h
      obtain ⟨rfl, rfl⟩ := Prod.mk.inj h
      exact Or.inl ⟨rfl, finishHex_ne hafter⟩
    · obtain ⟨rfl, rfl⟩ := Prod.mk.inj (Option.some.inj h)
      exact Or.inl ⟨rfl, nofun⟩
  | lowStart seen high =>
    simp only [lexStep] at h
    split at h
    · obtain ⟨rfl, rfl⟩ := Prod.mk.inj (Option.some.inj h)
      exact Or.inl ⟨rfl, nofun⟩
    · cases h
  | lowMark seen high =>
    simp only [lexStep] at h
    split at h
    · obtain ⟨rfl, rfl⟩ := Prod.mk.inj (Option.some.inj h)
      exact Or.inl ⟨rfl, nofun⟩
    · cases h

/-- The token under way comes before any brace. -/
private theorem lexFrom_inside {state : LexState} {text : List Char} {t : JsonToken}
    {ts : List JsonToken} (hstate : state ≠ .ready) (h : lexFrom state text = some (t :: ts)) :
    t ≠ .openBrace := by
  induction text generalizing state with
  | nil =>
    rw [lexFrom] at h
    cases state with
    | ready => exact absurd rfl hstate
    | word seen =>
      obtain ⟨u, hu, h⟩ := Option.map_eq_some_iff.mp h
      obtain ⟨rfl, _⟩ := List.cons.inj h
      exact finishWord_ne hu
    | digits negative seen =>
      obtain ⟨u, hu, h⟩ := Option.map_eq_some_iff.mp h
      obtain ⟨rfl, _⟩ := List.cons.inj h
      exact finishDigits_ne hu
    | _ => cases h
  | cons c text ih =>
    simp only [lexFrom, Option.bind_eq_bind, Option.bind_eq_some_iff] at h
    obtain ⟨⟨emitted, next⟩, hstep, more, hmore, h⟩ := h
    have happend : emitted ++ more = t :: ts := Option.some.inj h
    rcases lexStep_inside hstate hstep with ⟨rfl, hnext⟩ | ⟨u, us, rfl, hu⟩
    · rw [List.nil_append] at happend
      subst happend
      exact ih hnext hmore
    · obtain ⟨rfl, _⟩ := List.cons.inj happend
      exact hu

/-- Outside a token, only a brace emits a brace. -/
private theorem lexReady_ne {c : Char} {emitted : List JsonToken} {next : LexState}
    (hspace : ¬isJsonSpace c = true) (hbrace : c ≠ '{') (h : lexReady c = some (emitted, next)) :
    (emitted = [] ∧ next ≠ .ready) ∨ ∃ t ts, emitted = t :: ts ∧ t ≠ .openBrace := by
  rw [lexReady, if_neg hspace, if_neg hbrace] at h
  iterate 5
    rw [ite_eq_iff] at h
    rcases h with ⟨_, h⟩ | ⟨_, h⟩
    · obtain ⟨rfl, rfl⟩ := Prod.mk.inj (Option.some.inj h)
      exact Or.inr ⟨_, [], rfl, nofun⟩
  iterate 4
    rw [ite_eq_iff] at h
    rcases h with ⟨_, h⟩ | ⟨_, h⟩
    · obtain ⟨rfl, rfl⟩ := Prod.mk.inj (Option.some.inj h)
      exact Or.inl ⟨rfl, nofun⟩
  cases h

/-- A text whose first token opens an object starts with the brace, JSON space aside. -/
theorem opens_of_lexFrom {text : List Char} {ts : List JsonToken}
    (h : lexFrom .ready text = some (.openBrace :: ts)) :
    ∃ space rest, text = space ++ '{' :: rest ∧ ∀ c ∈ space, isJsonSpace c = true := by
  induction text with
  | nil => cases h
  | cons c text ih =>
    simp only [lexFrom, Option.bind_eq_bind, Option.bind_eq_some_iff] at h
    obtain ⟨⟨emitted, next⟩, hstep, more, hmore, h⟩ := h
    have happend : emitted ++ more = .openBrace :: ts := Option.some.inj h
    by_cases hspace : isJsonSpace c = true
    · rw [lexStep, lexReady, if_pos hspace] at hstep
      obtain ⟨rfl, rfl⟩ := Prod.mk.inj (Option.some.inj hstep)
      rw [List.nil_append] at happend
      rw [happend] at hmore
      obtain ⟨space, rest, rfl, hall⟩ := ih hmore
      refine ⟨c :: space, rest, rfl, ?_⟩
      intro d hd
      rcases List.mem_cons.mp hd with rfl | hd
      · exact hspace
      · exact hall d hd
    · by_cases hbrace : c = '{'
      · exact ⟨[], text, by rw [hbrace]; rfl, fun _ hd => absurd hd List.not_mem_nil⟩
      · rcases lexReady_ne hspace hbrace hstep with ⟨rfl, hnext⟩ | ⟨t, more', rfl, ht⟩
        · rw [List.nil_append] at happend
          rw [happend] at hmore
          exact absurd rfl (lexFrom_inside hnext hmore)
        · exact absurd (List.cons.inj happend).1 ht

/-- The states of a parser that is inside a top-level array, or has read it. -/
def InArray : ParseState → Prop
  | .firstItem frames | .afterItem _ frames =>
    frames = [] ∨ ∃ done, frames.getLast? = some (.items done)
  | .value frames | .firstName frames | .name _ frames | .colon _ _ frames
  | .afterMember _ frames => ∃ done, frames.getLast? = some (.items done)
  | .finished v => ∃ items, v = .arr items

private theorem inArray_complete (v : Json) {frames : List Frame} {done : List Json}
    (h : frames.getLast? = some (.items done)) : InArray (complete v frames) := by
  cases frames with
  | nil => cases h
  | cons frame frames =>
    cases frames with
    | nil =>
      obtain rfl : frame = .items done := Option.some.inj h
      exact Or.inl rfl
    | cons frame' frames =>
      rw [List.getLast?_cons_cons] at h
      cases frame with
      | items _ => exact Or.inr ⟨done, h⟩
      | member _ _ => exact ⟨done, h⟩

private theorem inArray_arr (items : List Json) {frames : List Frame}
    (h : frames = [] ∨ ∃ done, frames.getLast? = some (.items done)) :
    InArray (complete (.arr items) frames) := by
  rcases h with rfl | ⟨done, h⟩
  · exact ⟨items, rfl⟩
  · exact inArray_complete _ h

private theorem inArray_startValue {t : JsonToken} {frames : List Frame} {next : ParseState}
    {done : List Json} (h : frames.getLast? = some (.items done))
    (hstep : startValue frames t = some next) : InArray next := by
  cases t with
  | openBracket => exact Option.some.inj hstep ▸ Or.inr ⟨done, h⟩
  | openBrace => exact Option.some.inj hstep ▸ ⟨done, h⟩
  | null => exact Option.some.inj hstep ▸ inArray_complete _ h
  | bool b => exact Option.some.inj hstep ▸ inArray_complete _ h
  | num n => exact Option.some.inj hstep ▸ inArray_complete _ h
  | str s => exact Option.some.inj hstep ▸ inArray_complete _ h
  | _ => cases hstep

/-- A parser never leaves the array it is in. -/
private theorem inArray_step {state next : ParseState} {t : JsonToken} (h : InArray state)
    (hstep : parseStep state t = some next) : InArray next := by
  cases state with
  | value frames =>
    obtain ⟨done, h⟩ := h
    exact inArray_startValue h hstep
  | firstItem frames =>
    by_cases ht : t = .closeBracket
    · subst ht
      exact Option.some.inj hstep ▸ inArray_arr [] h
    · rw [parseStep_firstItem frames ht] at hstep
      rcases h with rfl | ⟨done, h⟩
      · exact inArray_startValue rfl hstep
      · refine @inArray_startValue _ _ _ done ?_ hstep
        cases frames with
        | nil => cases h
        | cons frame frames => rw [List.getLast?_cons_cons]; exact h
  | firstName frames =>
    obtain ⟨done, h⟩ := h
    cases t with
    | closeBrace => exact Option.some.inj hstep ▸ inArray_complete _ h
    | str s => exact Option.some.inj hstep ▸ ⟨done, h⟩
    | _ => cases hstep
  | name members frames =>
    cases t with
    | str s => exact Option.some.inj hstep ▸ h
    | _ => cases hstep
  | colon members s frames =>
    obtain ⟨done, h⟩ := h
    cases t with
    | colon =>
      refine Option.some.inj hstep ▸ ⟨done, ?_⟩
      cases frames with
      | nil => cases h
      | cons frame frames => rw [List.getLast?_cons_cons]; exact h
    | _ => cases hstep
  | afterItem items frames =>
    cases t with
    | comma =>
      refine Option.some.inj hstep ▸ ?_
      rcases h with rfl | ⟨done, h⟩
      · exact ⟨items, rfl⟩
      · refine ⟨done, ?_⟩
        cases frames with
        | nil => cases h
        | cons frame frames => rw [List.getLast?_cons_cons]; exact h
    | closeBracket => exact Option.some.inj hstep ▸ inArray_arr _ h
    | _ => cases hstep
  | afterMember members frames =>
    obtain ⟨done, h⟩ := h
    cases t with
    | comma => exact Option.some.inj hstep ▸ ⟨done, h⟩
    | closeBrace => exact Option.some.inj hstep ▸ inArray_complete _ h
    | _ => cases hstep
  | finished v => cases hstep

/-- What a parser in an array ends in is no object. -/
private theorem inArray_run {state final : ParseState} {ts : List JsonToken} (h : InArray state)
    (hrun : parseFrom state ts = some final) : InArray final := by
  induction ts generalizing state with
  | nil => exact Option.some.inj hrun ▸ h
  | cons t ts ih =>
    obtain ⟨next, hstep, hrun⟩ := Option.bind_eq_some_iff.mp hrun
    exact ih (inArray_step h hstep) hrun

/-- A finished parser reads nothing more. -/
private theorem finished_run {v : Json} {final : ParseState} {ts : List JsonToken}
    (hrun : parseFrom (.finished v) ts = some final) : final = .finished v := by
  cases ts with
  | nil => exact (Option.some.inj hrun).symm
  | cons t ts => cases hrun

/-- **THE TEXT OF AN OBJECT STARTS WITH A BRACE**, JSON space aside. -/
theorem opens_of_parseJson {text : List Char} {members : List (String × Json)}
    (h : parseJson text = some (.obj members)) :
    ∃ space rest, text = space ++ '{' :: rest ∧ ∀ c ∈ space, isJsonSpace c = true := by
  obtain ⟨ts, hlex, hparse⟩ := Option.bind_eq_some_iff.mp h
  have hrun : parseFrom (.value []) ts = some (.finished (.obj members)) := by
    rw [parseTokens] at hparse
    split at hparse
    · rename_i v hv
      rw [hv, Option.some.inj hparse]
    · cases hparse
  cases ts with
  | nil => cases hrun
  | cons t ts =>
    obtain ⟨next, hstep, hrest⟩ := Option.bind_eq_some_iff.mp hrun
    have hscalar : ∀ v, (∀ members, v ≠ .obj members) → next ≠ .finished v := by
      rintro v hv rfl
      exact hv members (ParseState.finished.inj (finished_run hrest)).symm
    cases t with
    | openBrace => exact opens_of_lexFrom hlex
    | openBracket =>
      have hinside : InArray next := Option.some.inj hstep ▸ Or.inl rfl
      obtain ⟨items, hitems⟩ := inArray_run hinside hrest
      cases hitems
    | null => exact absurd (Option.some.inj hstep).symm (hscalar _ nofun)
    | bool b => exact absurd (Option.some.inj hstep).symm (hscalar _ nofun)
    | num n => exact absurd (Option.some.inj hstep).symm (hscalar _ nofun)
    | str s => exact absurd (Option.some.inj hstep).symm (hscalar _ nofun)
    | _ => cases hstep

end JsonText
