import Kapsaro.JsonText

/-!
# JSON grammar — every well-formed text, as a tree of what is written

The trees of this module are the derivations of the JSON grammar: white space, escapes, fractions
and exponents are kept as they are spelled, and no tree can be built that is not one.  Names
nothing of any program.

* **`NumberText`**, **`StringPiece`**, **`JsonDoc`** — number literals, the pieces of a string
  literal, and values; **`JsonSource`** is a whole text.
* **`JsonDoc.text`** — the characters of a tree.
* **`JsonDoc.value?`** — the value, where every number is a plain integer and every escaped
  surrogate has its partner.
* **`parseJson_text`** — the parser of `JsonText` finds exactly that value, on every text.
-/

namespace JsonGrammar

open JsonText

/-! ## Literals -/

/-- White space between tokens. -/
structure Space where
  chars : List Char
  blank : ∀ c ∈ chars, isJsonSpace c = true

/-- One digit or more. -/
structure Digits where
  chars : List Char
  nonempty : chars ≠ []
  digits : ∀ c ∈ chars, c.isDigit = true

/-- The exponent of a number. -/
structure Exponent where
  mark : Char
  marked : mark = 'e' ∨ mark = 'E'
  /-- the sign, when there is one; `true` is minus -/
  sign : Option Bool
  digits : Digits

/-- A number literal; its whole part has no leading zero. -/
structure NumberText where
  negative : Bool
  whole : Digits
  plain : whole.chars.head? = some '0' → whole.chars = ['0']
  fraction : Option Digits
  exponent : Option Exponent

def Exponent.text (e : Exponent) : List Char :=
  e.mark :: ((match e.sign with
    | none => []
    | some false => ['+']
    | some true => ['-']) ++ e.digits.chars)

/-- What may follow the whole part. -/
def NumberText.tail (n : NumberText) : List Char :=
  (match n.fraction with
    | none => []
    | some ds => '.' :: ds.chars) ++
  (match n.exponent with
    | none => []
    | some e => e.text)

def NumberText.text (n : NumberText) : List Char :=
  (if n.negative then ['-'] else []) ++ (n.whole.chars ++ n.tail)

/-- A hexadecimal digit. -/
structure HexDigit where
  char : Char
  isHex : (hexValue char).isSome = true

/-- A character of a string literal, as it is written. -/
inductive StringPiece where
  | plain (c : Char) (ok : c ≠ '"' ∧ c ≠ '\\' ∧ 0x20 ≤ c.toNat)
  | short (c : Char) (ok : (escapedChar c).isSome = true)
  | unicode (a b c d : HexDigit)

def StringPiece.text : StringPiece → List Char
  | .plain c _ => [c]
  | .short c _ => ['\\', c]
  | .unicode a b c d => ['\\', 'u', a.char, b.char, c.char, d.char]

/-- The characters of a string literal, with its quotes. -/
def literalText (pieces : List StringPiece) : List Char :=
  '"' :: (pieces.flatMap StringPiece.text ++ ['"'])

/-! ## Trees -/

mutual
/-- A value, as it is written. -/
inductive JsonDoc where
  | null
  | bool (b : Bool)
  | num (n : NumberText)
  | str (pieces : List StringPiece)
  | emptyArr (gap : Space)
  | arr (items : DocItems)
  | emptyObj (gap : Space)
  | obj (members : DocMembers)

/-- The elements of an array, one or more. -/
inductive DocItems where
  | last (before : Space) (v : JsonDoc) (after : Space)
  | more (before : Space) (v : JsonDoc) (after : Space) (rest : DocItems)

/-- The members of an object, one or more. -/
inductive DocMembers where
  | last (before : Space) (name : List StringPiece) (gap start : Space) (v : JsonDoc)
      (after : Space)
  | more (before : Space) (name : List StringPiece) (gap start : Space) (v : JsonDoc)
      (after : Space) (rest : DocMembers)
end

mutual
/-- The characters of a value. -/
def JsonDoc.text : JsonDoc → List Char
  | .null => ['n', 'u', 'l', 'l']
  | .bool true => ['t', 'r', 'u', 'e']
  | .bool false => ['f', 'a', 'l', 's', 'e']
  | .num n => n.text
  | .str pieces => literalText pieces
  | .emptyArr gap => '[' :: (gap.chars ++ [']'])
  | .arr items => '[' :: (items.text ++ [']'])
  | .emptyObj gap => '{' :: (gap.chars ++ ['}'])
  | .obj members => '{' :: (members.text ++ ['}'])

def DocItems.text : DocItems → List Char
  | .last before v after => before.chars ++ (v.text ++ after.chars)
  | .more before v after rest => before.chars ++ (v.text ++ (after.chars ++ ',' :: rest.text))

def DocMembers.text : DocMembers → List Char
  | .last before name gap start v after =>
    before.chars ++ (literalText name ++ (gap.chars ++ ':' :: (start.chars
      ++ (v.text ++ after.chars))))
  | .more before name gap start v after rest =>
    before.chars ++ (literalText name ++ (gap.chars ++ ':' :: (start.chars
      ++ (v.text ++ (after.chars ++ ',' :: rest.text)))))
end

/-- A whole JSON text: a value between white space. -/
structure JsonSource where
  before : Space
  doc : JsonDoc
  after : Space

def JsonSource.text (source : JsonSource) : List Char :=
  source.before.chars ++ (source.doc.text ++ source.after.chars)

/-! ## Values -/

/-- The number of the whole part. -/
def NumberText.magnitude (n : NumberText) : Nat :=
  Nat.ofDigitChars 10 n.whole.chars 0

/-- The integer a literal spells: no fraction, no exponent, and no negative zero. -/
def NumberText.value? (n : NumberText) : Option Int :=
  if n.fraction.isSome || n.exponent.isSome then none
  else if n.negative then
    if n.whole.chars = ['0'] then none else some (-(n.magnitude : Int))
  else some n.magnitude

def HexDigit.value (h : HexDigit) : Nat :=
  (hexValue h.char).get h.isHex

/-- The code unit four hex digits spell. -/
def codeUnit (a b c d : HexDigit) : Nat :=
  ((a.value * 16 + b.value) * 16 + c.value) * 16 + d.value

/-- The characters of some pieces, after a high surrogate or not: it has to be followed by a low
    one, and a low one needs it. -/
def unescapeFrom : Option Nat → List StringPiece → Option (List Char)
  | none, [] => some []
  -- a high surrogate that nothing follows
  | some _, [] => none
  | none, .plain c _ :: rest => (unescapeFrom none rest).map (c :: ·)
  | none, .short c ok :: rest =>
    (unescapeFrom none rest).map ((escapedChar c).get ok :: ·)
  | none, .unicode a b c d :: rest =>
    let unit := codeUnit a b c d
    if 0xD800 ≤ unit ∧ unit ≤ 0xDBFF then unescapeFrom (some unit) rest
    else if 0xDC00 ≤ unit ∧ unit ≤ 0xDFFF then none
    else (unescapeFrom none rest).map (Char.ofNat unit :: ·)
  | some high, .unicode a b c d :: rest =>
    let unit := codeUnit a b c d
    if 0xDC00 ≤ unit ∧ unit ≤ 0xDFFF then
      (unescapeFrom none rest).map
        (Char.ofNat (0x10000 + (high - 0xD800) * 0x400 + (unit - 0xDC00)) :: ·)
    else none
  | some _, .plain _ _ :: _ => none
  | some _, .short _ _ :: _ => none

/-- The string a literal spells. -/
def unescape (pieces : List StringPiece) : Option String :=
  (unescapeFrom none pieces).map String.ofList

mutual
/-- The value a tree spells. -/
def JsonDoc.value? : JsonDoc → Option Json
  | .null => some .null
  | .bool b => some (.bool b)
  | .num n => n.value?.map .num
  | .str pieces => (unescape pieces).map .str
  | .emptyArr _ => some (.arr [])
  | .arr items => items.values?.map .arr
  | .emptyObj _ => some (.obj [])
  | .obj members => members.values?.map .obj

def DocItems.values? : DocItems → Option (List Json)
  | .last _ v _ => v.value?.map ([·])
  | .more _ v _ rest => v.value?.bind fun x => rest.values?.map (x :: ·)

def DocMembers.values? : DocMembers → Option (List (String × Json))
  | .last _ name _ _ v _ => (unescape name).bind fun s => v.value?.map fun x => [(s, x)]
  | .more _ name _ _ v _ rest =>
    (unescape name).bind fun s => v.value?.bind fun x => rest.values?.map ((s, x) :: ·)
end

/-! ## The lexer on literals -/

/-- A character the lexer has no step for ends the reading. -/
theorem lexFrom_stuck {state : LexState} {c : Char} (rest : List Char)
    (h : lexStep state c = none) : lexFrom state (c :: rest) = none := by
  rw [lexFrom, h]
  rfl

theorem lexFrom_space (space : Space) (rest : List Char) :
    lexFrom .ready (space.chars ++ rest) = lexFrom .ready rest := by
  obtain ⟨chars, hblank⟩ := space
  induction chars with
  | nil => rfl
  | cons c chars ih =>
    have hc : isJsonSpace c = true := hblank c List.mem_cons_self
    have hstep : lexStep .ready c = some ([], .ready) := by
      rw [lexStep, lexReady, if_pos hc]
    rw [List.cons_append, lexFrom_silent .ready _ hstep]
    exact ih fun d hd => hblank d (List.mem_cons_of_mem _ hd)

theorem isDelimiter_of_space {c : Char} (h : isJsonSpace c = true) : isDelimiter c = true := by
  simp only [isJsonSpace, Bool.or_eq_true, beq_iff_eq] at h
  rcases h with ((rfl | rfl) | rfl) | rfl <;> decide

/-- White space delimits what is before it, and so does what follows it. -/
theorem delimited_space (space : Space) {rest : List Char} (h : Delimited rest) :
    Delimited (space.chars ++ rest) := by
  obtain ⟨chars, hblank⟩ := space
  cases chars with
  | nil => exact h
  | cons c chars =>
    exact delimited_cons _ (isDelimiter_of_space (hblank c List.mem_cons_self))

/-- **A NUMBER ENDS AT A DELIMITER**, as a token or as none. -/
theorem lexFrom_digits_delimited (negative : Bool) (seen rest : List Char)
    (hrest : Delimited rest) :
    lexFrom (.digits negative seen) rest
      = (finishDigits negative seen).bind fun t => (lexFrom .ready rest).map (t :: ·) := by
  cases hfinish : finishDigits negative seen with
  | some t => exact lexFrom_digits_end rest hfinish hrest
  | none =>
    cases rest with
    | nil => rw [lexFrom, lexEnd, hfinish]; rfl
    | cons c rest =>
      have hdelim : isDelimiter c = true := hrest c rfl
      simp only [isDelimiter, Bool.and_eq_true, Bool.not_eq_true', bne_iff_ne] at hdelim
      refine lexFrom_stuck rest ?_
      rw [lexStep, if_neg (by rw [hdelim.1.1.1]; exact Bool.false_ne_true)]
      by_cases hmark : c = '.' ∨ c = 'e' ∨ c = 'E'
      · rw [if_pos hmark]
      · rw [if_neg hmark, hfinish]
        rfl

/-- The token of a whole part. -/
theorem finishDigits_whole (n : NumberText) :
    finishDigits n.negative n.whole.chars.reverse
      = (if n.negative then
          if n.whole.chars = ['0'] then none else some (-(n.magnitude : Int))
        else some (n.magnitude : Int)).map JsonToken.num := by
  obtain ⟨negative, ⟨chars, hnonempty, hdigits⟩, hplain, fraction, exponent⟩ := n
  dsimp only at hplain
  simp only [NumberText.magnitude]
  rw [finishDigits, List.reverse_reverse]
  split
  · exact absurd rfl hnonempty
  · cases negative with
    | true => rfl
    | false => rfl
  · rename_i second more
    cases hplain rfl
  · rename_i hzero _
    cases negative with
    | true =>
      rw [if_pos rfl, if_neg hzero]
      rfl
    | false => rfl

/-- A digit starts a number. -/
theorem lexStep_ready_digit {d : Char} (hd : d.isDigit = true) :
    lexStep .ready d = some ([], .digits false [d]) := by
  have hne : ∀ c : Char, c.isDigit = false → d ≠ c := by
    rintro c hc rfl
    exact absurd hd (by rw [hc]; decide)
  simp [lexStep, lexReady, isJsonSpace, hd, hne ' ' (by decide), hne '\t' (by decide),
    hne '\n' (by decide), hne '\r' (by decide), hne '{' (by decide), hne '}' (by decide),
    hne '[' (by decide), hne ']' (by decide), hne ':' (by decide), hne ',' (by decide),
    hne '"' (by decide), hne '-' (by decide)]

/-- Sign and whole part bring the lexer behind the digits. -/
theorem lexFrom_whole (n : NumberText) (rest : List Char) :
    lexFrom .ready ((if n.negative then ['-'] else []) ++ (n.whole.chars ++ rest))
      = lexFrom (.digits n.negative n.whole.chars.reverse) rest := by
  obtain ⟨negative, ⟨chars, hnonempty, hdigits⟩, hplain, fraction, exponent⟩ := n
  cases negative with
  | true =>
    have hminus : lexStep .ready '-' = some ([], .digits true []) := by decide
    show lexFrom .ready ('-' :: (chars ++ rest)) = _
    rw [lexFrom_silent _ _ hminus, lexFrom_digits_run true _ _ _ hdigits, List.append_nil]
  | false =>
    cases chars with
    | nil => exact absurd rfl hnonempty
    | cons d chars =>
      show lexFrom .ready (d :: (chars ++ rest)) = _
      rw [lexFrom_silent _ _ (lexStep_ready_digit (hdigits d List.mem_cons_self)),
        lexFrom_digits_run false _ _ _ fun x hx => hdigits x (List.mem_cons_of_mem _ hx),
        List.reverse_cons]

/-- **A NUMBER LITERAL** is one token when it spells an integer, and stops the lexer when not. -/
theorem lexFrom_number (n : NumberText) (rest : List Char) (hrest : Delimited rest) :
    lexFrom .ready (n.text ++ rest)
      = n.value?.bind fun i => (lexFrom .ready rest).map (JsonToken.num i :: ·) := by
  have hsplit : n.text ++ rest
      = (if n.negative then ['-'] else []) ++ (n.whole.chars ++ (n.tail ++ rest)) := by
    rw [NumberText.text, List.append_assoc, List.append_assoc]
  rw [hsplit, lexFrom_whole, NumberText.tail, NumberText.value?]
  -- a fraction or an exponent is met with a character that is no digit
  have hmark : ∀ c more, c = '.' ∨ c = 'e' ∨ c = 'E' →
      lexFrom (.digits n.negative n.whole.chars.reverse) (c :: more) = none := by
    intro c more hc
    refine lexFrom_stuck more ?_
    have hnot : c.isDigit = false := by
      rcases hc with rfl | rfl | rfl <;> decide
    rw [lexStep, if_neg (by rw [hnot]; exact Bool.false_ne_true), if_pos hc]
  cases hfraction : n.fraction with
  | some ds => exact hmark '.' _ (Or.inl rfl)
  | none =>
    cases hexponent : n.exponent with
    | some e => exact hmark e.mark _ (Or.inr e.marked)
    | none =>
      show lexFrom _ rest = _
      rw [lexFrom_digits_delimited _ _ _ hrest, finishDigits_whole]
      show _ = Option.bind (if n.negative then _ else _) _
      cases (if n.negative then
          if n.whole.chars = ['0'] then none else some (-(n.magnitude : Int))
        else some (n.magnitude : Int)) with
      | none => rfl
      | some i => rfl

/-! ## The lexer on strings -/

theorem hexValue_char (h : HexDigit) : hexValue h.char = some h.value :=
  (Option.some_get h.isHex).symm

/-- Four hex digits are read as their code unit. -/
theorem lexFrom_hex (seen : List Char) (high : Option Nat) (a b c d : HexDigit)
    (rest : List Char) :
    lexFrom (.hex seen high 0 0) (a.char :: b.char :: c.char :: d.char :: rest)
      = (finishHex seen high (codeUnit a b c d)).bind fun next => lexFrom next rest := by
  rw [lexFrom_silent (.hex seen high 1 a.value) _ (by simp [lexStep, hexValue_char]),
    lexFrom_silent (.hex seen high 2 (a.value * 16 + b.value)) _
      (by simp [lexStep, hexValue_char]),
    lexFrom_silent (.hex seen high 3 ((a.value * 16 + b.value) * 16 + c.value)) _
      (by simp [lexStep, hexValue_char])]
  cases hfinish : finishHex seen high (codeUnit a b c d) with
  | none =>
    refine lexFrom_stuck rest ?_
    rw [codeUnit] at hfinish
    simp [lexStep, hexValue_char, hfinish]
  | some next =>
    rw [codeUnit] at hfinish
    exact lexFrom_silent next rest (by simp [lexStep, hexValue_char, hfinish])

/-- What the lexer is in the middle of: behind a high surrogate, or not. -/
def inLiteral (seen : List Char) : Option Nat → LexState
  | none => .text seen
  | some high => .lowStart seen high

/-- **THE PIECES OF A STRING** are read as the characters they spell. -/
theorem lexFrom_pieces (pieces : List StringPiece) (high : Option Nat) (seen rest : List Char) :
    lexFrom (inLiteral seen high) (pieces.flatMap StringPiece.text ++ '"' :: rest)
      = (unescapeFrom high pieces).bind fun cs =>
        (lexFrom .ready rest).map (JsonToken.str (String.ofList (seen.reverse ++ cs)) :: ·) := by
  -- `high` is a surrogate that waits for its other half; it is generalized over the pieces.
  induction pieces generalizing high seen with
  | nil =>
    cases high with
    | none =>
      rw [unescapeFrom, Option.bind_some, List.append_nil]
      exact lexFrom_emit rest rfl
    | some h => exact lexFrom_stuck rest rfl
  | cons piece pieces ih =>
    rw [List.flatMap_cons, List.append_assoc]
    -- A piece that completes a character leaves nothing waiting.
    have hmore : ∀ d : Char,
        lexFrom (inLiteral (d :: seen) none) (pieces.flatMap StringPiece.text ++ '"' :: rest)
          = (unescapeFrom none pieces).bind (fun cs => (lexFrom .ready rest).map
            (JsonToken.str (String.ofList (seen.reverse ++ (d :: cs))) :: ·)) := by
      intro d
      rw [ih none (d :: seen)]
      simp
    cases piece with
    | plain c ok =>
      cases high with
      | none =>
        have hstep : lexStep (.text seen) c = some ([], .text (c :: seen)) := by
          rw [lexStep, if_neg ok.1, if_neg ok.2.1, if_neg (Nat.not_lt.mpr ok.2.2)]
        show lexFrom (.text seen) (c :: _) = _
        rw [lexFrom_silent _ _ hstep, unescapeFrom, Option.bind_map]
        exact hmore c
      | some h => exact lexFrom_stuck _ (if_neg ok.2.1)
    | short c ok =>
      have hu : c ≠ 'u' := by
        rintro rfl
        exact absurd ok (by decide)
      cases high with
      | none =>
        show lexFrom (.text seen) ('\\' :: c :: _) = _
        have hstep : lexStep (.escape seen) c
            = some ([], .text ((escapedChar c).get ok :: seen)) := by
          rw [lexStep, if_neg hu]
          conv_lhs => rw [← Option.some_get ok]
          rfl
        rw [lexFrom_silent (.escape seen) _ rfl, lexFrom_silent _ _ hstep, unescapeFrom,
          Option.bind_map]
        exact hmore _
      | some h =>
        show lexFrom (.lowStart seen h) ('\\' :: c :: _) = _
        rw [lexFrom_silent (.lowMark seen h) _ rfl]
        exact lexFrom_stuck _ (if_neg hu)
    | unicode a b c d =>
      cases high with
      | none =>
        show lexFrom (.text seen) ('\\' :: 'u' :: a.char :: b.char :: c.char :: d.char :: _) = _
        rw [lexFrom_silent (.escape seen) _ rfl, lexFrom_silent (.hex seen none 0 0) _ rfl,
          lexFrom_hex, finishHex, unescapeFrom]
        -- A high surrogate waits, a low one alone is refused, any other unit is a character.
        by_cases hhigh : 0xD800 ≤ codeUnit a b c d ∧ codeUnit a b c d ≤ 0xDBFF
        · rw [if_pos hhigh, if_pos hhigh]
          exact ih (some (codeUnit a b c d)) seen
        · rw [if_neg hhigh, if_neg hhigh]
          by_cases hlow : 0xDC00 ≤ codeUnit a b c d ∧ codeUnit a b c d ≤ 0xDFFF
          · rw [if_pos hlow, if_pos hlow]
            rfl
          · rw [if_neg hlow, if_neg hlow, Option.bind_map]
            exact hmore _
      | some h =>
        show lexFrom (.lowStart seen h)
          ('\\' :: 'u' :: a.char :: b.char :: c.char :: d.char :: _) = _
        rw [lexFrom_silent (.lowMark seen h) _ rfl,
          lexFrom_silent (.hex seen (some h) 0 0) _ rfl, lexFrom_hex, finishHex, unescapeFrom]
        -- A waiting surrogate accepts nothing but a low one.
        by_cases hlow : 0xDC00 ≤ codeUnit a b c d ∧ codeUnit a b c d ≤ 0xDFFF
        · rw [if_pos hlow, if_pos hlow, Option.bind_map]
          exact hmore _
        · rw [if_neg hlow, if_neg hlow]
          rfl

/-- **A STRING LITERAL** is one token, or stops the lexer at an unpaired surrogate. -/
theorem lexFrom_literal (pieces : List StringPiece) (rest : List Char) :
    lexFrom .ready (literalText pieces ++ rest)
      = (unescape pieces).bind fun s => (lexFrom .ready rest).map (JsonToken.str s :: ·) := by
  have hsplit : literalText pieces ++ rest
      = '"' :: (pieces.flatMap StringPiece.text ++ '"' :: rest) := by
    simp [literalText]
  have hpieces := lexFrom_pieces pieces none [] rest
  rw [hsplit, lexFrom_silent (.text []) _ (by decide), unescape, Option.bind_map]
  exact hpieces

/-! ## The lexer on values -/

/-- The tokens between the brackets of an array. -/
def listTokens : List Json → List JsonToken
  | [] => []
  | v :: items => tokens v ++ itemTokens items

/-- The tokens between the braces of an object. -/
def pairTokens : List (String × Json) → List JsonToken
  | [] => []
  | (name, v) :: members => .str name :: .colon :: (tokens v ++ memberTokens members)

theorem tokens_arr (items : List Json) :
    tokens (.arr items) = .openBracket :: (listTokens items ++ [.closeBracket]) := by
  cases items with
  | nil => rfl
  | cons v items => rw [tokens, listTokens]

theorem tokens_obj (members : List (String × Json)) :
    tokens (.obj members) = .openBrace :: (pairTokens members ++ [.closeBrace]) := by
  cases members with
  | nil => rfl
  | cons m members => rw [tokens, pairTokens]; rfl

theorem listTokens_cons (v : Json) {items : List Json} (h : items ≠ []) :
    listTokens (v :: items) = tokens v ++ .comma :: listTokens items := by
  cases items with
  | nil => exact absurd rfl h
  | cons w items => rfl

theorem pairTokens_cons (name : String) (v : Json) {members : List (String × Json)}
    (h : members ≠ []) :
    pairTokens ((name, v) :: members)
      = .str name :: .colon :: (tokens v ++ .comma :: pairTokens members) := by
  cases members with
  | nil => exact absurd rfl h
  | cons m members => rfl

/-- An array tree with elements spells a list with elements. -/
theorem DocItems.values_ne_nil {items : DocItems} {vs : List Json} (h : items.values? = some vs) :
    vs ≠ [] := by
  cases items with
  | last before v after =>
    rw [DocItems.values?, Option.map_eq_some_iff] at h
    obtain ⟨_, _, rfl⟩ := h
    exact List.cons_ne_nil _ _
  | more before v after rest =>
    rw [DocItems.values?, Option.bind_eq_some_iff] at h
    obtain ⟨_, _, h⟩ := h
    obtain ⟨_, _, rfl⟩ := Option.map_eq_some_iff.mp h
    exact List.cons_ne_nil _ _

theorem DocMembers.values_ne_nil {members : DocMembers} {ms : List (String × Json)}
    (h : members.values? = some ms) : ms ≠ [] := by
  cases members with
  | last before name gap start v after =>
    rw [DocMembers.values?, Option.bind_eq_some_iff] at h
    obtain ⟨_, _, h⟩ := h
    obtain ⟨_, _, rfl⟩ := Option.map_eq_some_iff.mp h
    exact List.cons_ne_nil _ _
  | more before name gap start v after rest =>
    rw [DocMembers.values?, Option.bind_eq_some_iff] at h
    obtain ⟨_, _, h⟩ := h
    obtain ⟨_, _, h⟩ := Option.bind_eq_some_iff.mp h
    obtain ⟨_, _, rfl⟩ := Option.map_eq_some_iff.mp h
    exact List.cons_ne_nil _ _

/-- A word of the grammar is one token. -/
theorem lexFrom_word {first : Char} {word : List Char} {t : JsonToken} (rest : List Char)
    (hfirst : lexStep .ready first = some ([], .word [first]))
    (hlower : ∀ c ∈ word, c.isLower = true)
    (hword : finishWord (word.reverse ++ [first]) = some t) (hrest : Delimited rest) :
    lexFrom .ready (first :: (word ++ rest)) = (lexFrom .ready rest).map (t :: ·) := by
  have hrun : ∀ (word seen : List Char), (∀ c ∈ word, c.isLower = true) →
      lexFrom (.word seen) (word ++ rest) = lexFrom (.word (word.reverse ++ seen)) rest := by
    intro word
    induction word with
    | nil => exact fun _ _ => rfl
    | cons c word ih =>
      intro seen hall
      have hc : lexStep (.word seen) c = some ([], .word (c :: seen)) :=
        if_pos (hall c List.mem_cons_self)
      rw [List.cons_append, lexFrom_silent _ _ hc,
        ih (c :: seen) fun d hd => hall d (List.mem_cons_of_mem _ hd), List.reverse_cons,
        List.append_assoc]
      rfl
  rw [lexFrom_silent _ _ hfirst, hrun word [first] hlower]
  exact lexFrom_word_end rest hword hrest

mutual
/-- **THE LEXER ON A TREE**: the tokens of its value, or nothing when it has none. -/
theorem lexFrom_doc (rest : List Char) (hrest : Delimited rest) : ∀ doc : JsonDoc,
    lexFrom .ready (doc.text ++ rest)
      = doc.value?.bind fun v => (lexFrom .ready rest).map (tokens v ++ ·)
  | .null =>
    @lexFrom_word 'n' ['u', 'l', 'l'] .null rest (by decide) (List.all_eq_true.mp (by decide))
      (by decide) hrest
  | .bool true =>
    @lexFrom_word 't' ['r', 'u', 'e'] (.bool true) rest (by decide)
      (List.all_eq_true.mp (by decide)) (by decide) hrest
  | .bool false =>
    @lexFrom_word 'f' ['a', 'l', 's', 'e'] (.bool false) rest (by decide)
      (List.all_eq_true.mp (by decide)) (by decide) hrest
  | .num n => by
    rw [JsonDoc.text, lexFrom_number n rest hrest, JsonDoc.value?, Option.bind_map]
    rfl
  | .str pieces => by
    rw [JsonDoc.text, lexFrom_literal, JsonDoc.value?, Option.bind_map]
    rfl
  | .emptyArr gap => by
    have hclose := lexFrom_punct ']' .closeBracket rest (by decide)
    rw [JsonDoc.text, List.cons_append, List.append_assoc,
      lexFrom_punct '[' .openBracket _ (by decide), lexFrom_space]
    show ((lexFrom .ready (']' :: rest)).map _) = _
    rw [hclose, JsonDoc.value?, Option.bind_some, Option.map_map]
    rfl
  | .arr items => by
    have hclose := lexFrom_punct ']' .closeBracket rest (by decide)
    have hitems := lexFrom_docItems (']' :: rest) (delimited_cons _ (by decide)) items
    rw [JsonDoc.text, List.cons_append, List.append_assoc, List.singleton_append,
      lexFrom_punct '[' .openBracket _ (by decide), hitems, hclose, JsonDoc.value?,
      Option.bind_map]
    cases items.values? with
    | none => rfl
    | some vs =>
      cases lexFrom .ready rest with
      | none => rfl
      | some more => simp [tokens_arr]
  | .emptyObj gap => by
    have hclose := lexFrom_punct '}' .closeBrace rest (by decide)
    rw [JsonDoc.text, List.cons_append, List.append_assoc,
      lexFrom_punct '{' .openBrace _ (by decide), lexFrom_space]
    show ((lexFrom .ready ('}' :: rest)).map _) = _
    rw [hclose, JsonDoc.value?, Option.bind_some, Option.map_map]
    rfl
  | .obj members => by
    have hclose := lexFrom_punct '}' .closeBrace rest (by decide)
    have hmembers := lexFrom_docMembers ('}' :: rest) (delimited_cons _ (by decide)) members
    rw [JsonDoc.text, List.cons_append, List.append_assoc, List.singleton_append,
      lexFrom_punct '{' .openBrace _ (by decide), hmembers, hclose, JsonDoc.value?,
      Option.bind_map]
    cases members.values? with
    | none => rfl
    | some ms =>
      cases lexFrom .ready rest with
      | none => rfl
      | some more => simp [tokens_obj]

/-- The elements of an array, up to what follows them. -/
theorem lexFrom_docItems (rest : List Char) (hrest : Delimited rest) : ∀ items : DocItems,
    lexFrom .ready (items.text ++ rest)
      = items.values?.bind fun vs => (lexFrom .ready rest).map (listTokens vs ++ ·)
  | .last before v after => by
    rw [DocItems.text, List.append_assoc, List.append_assoc, lexFrom_space,
      lexFrom_doc _ (delimited_space after hrest) v, lexFrom_space, DocItems.values?,
      Option.bind_map]
    simp only [Function.comp_def, listTokens, itemTokens, List.append_nil]
  | .more before v after items => by
    have htail := lexFrom_docItems rest hrest items
    have hcomma := lexFrom_punct ',' .comma (items.text ++ rest) (by decide)
    have hafter : Delimited (after.chars ++ ',' :: (items.text ++ rest)) :=
      delimited_space after (delimited_cons _ (by decide))
    rw [DocItems.text, List.append_assoc, List.append_assoc, List.append_assoc, List.cons_append,
      lexFrom_space, lexFrom_doc _ hafter v, lexFrom_space, hcomma, htail, DocItems.values?]
    cases v.value? with
    | none => rfl
    | some x =>
      cases hvalues : items.values? with
      | none => rfl
      | some vs =>
        cases lexFrom .ready rest with
        | none => rfl
        | some more => simp [listTokens_cons x (DocItems.values_ne_nil hvalues)]

/-- The members of an object, up to what follows them. -/
theorem lexFrom_docMembers (rest : List Char) (hrest : Delimited rest) : ∀ members : DocMembers,
    lexFrom .ready (members.text ++ rest)
      = members.values?.bind fun ms => (lexFrom .ready rest).map (pairTokens ms ++ ·)
  | .last before name gap start v after => by
    have hcolon := lexFrom_punct ':' .colon (start.chars ++ (v.text ++ (after.chars ++ rest)))
      (by decide)
    rw [DocMembers.text, List.append_assoc, List.append_assoc, List.append_assoc, List.cons_append,
      List.append_assoc, List.append_assoc, lexFrom_space, lexFrom_literal, lexFrom_space, hcolon,
      lexFrom_space, lexFrom_doc _ (delimited_space after hrest) v, lexFrom_space,
      DocMembers.values?]
    cases unescape name with
    | none => rfl
    | some s =>
      cases v.value? with
      | none => rfl
      | some x =>
        cases lexFrom .ready rest with
        | none => rfl
        | some more => simp [pairTokens, memberTokens]
  | .more before name gap start v after members => by
    have htail := lexFrom_docMembers rest hrest members
    have hcomma := lexFrom_punct ',' .comma (members.text ++ rest) (by decide)
    have hcolon := lexFrom_punct ':' .colon (start.chars ++ (v.text ++ (after.chars
      ++ ',' :: (members.text ++ rest)))) (by decide)
    have hafter : Delimited (after.chars ++ ',' :: (members.text ++ rest)) :=
      delimited_space after (delimited_cons _ (by decide))
    rw [DocMembers.text, List.append_assoc, List.append_assoc, List.append_assoc, List.cons_append,
      List.append_assoc, List.append_assoc, List.append_assoc, List.cons_append, lexFrom_space,
      lexFrom_literal, lexFrom_space, hcolon, lexFrom_space, lexFrom_doc _ hafter v,
      lexFrom_space, hcomma, htail, DocMembers.values?]
    cases unescape name with
    | none => rfl
    | some s =>
      cases v.value? with
      | none => rfl
      | some x =>
        cases hvalues : members.values? with
        | none => rfl
        | some ms =>
          cases lexFrom .ready rest with
          | none => rfl
          | some more => simp [pairTokens_cons s x (DocMembers.values_ne_nil hvalues)]
end

/-- **THE PARSER KNOWS THE GRAMMAR**: on every well-formed text it finds the value that is spelled,
    and fails where a literal spells none. -/
theorem parseJson_text (source : JsonSource) : parseJson source.text = source.doc.value? := by
  have hend : Delimited ([] : List Char) := fun c hc => by cases hc
  have hafter : lexFrom .ready source.after.chars = some [] := by
    have hspace := lexFrom_space source.after []
    rw [List.append_nil] at hspace
    exact hspace
  have hdelimited : Delimited source.after.chars := by
    have hspace := delimited_space source.after hend
    rwa [List.append_nil] at hspace
  rw [parseJson, JsonSource.text, lexFrom_space, lexFrom_doc _ hdelimited source.doc, hafter]
  cases source.doc.value? with
  | none => rfl
  | some v =>
    simp only [Option.bind_some, Option.map_some, List.append_nil]
    exact parseTokens_tokens v

end JsonGrammar
