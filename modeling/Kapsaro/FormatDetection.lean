import Kapsaro.TextScan
import Kapsaro.ToyDocuments
import Mathlib.Data.Int.Log
import Mathlib.Data.Rat.Floor

/-!
# Format detection — which parser a text is handed to

`format/detection.rs` and `format/content.rs`: the format of a text is guessed from its first
line, from a few JSON members, or from the share of its KEY=VALUE lines, before a parser reads it.

* **`detectFormat`** — the guess; the reader of untyped JSON is a parameter, **`ValueReader`**.
* **`detectKvEnc_of_accepted`**, **`detectFormat_of_blank`** — a text the kv-enc parser accepts:
  found as kv-enc by its first line, and as nothing at all behind a blank line.
* **`detectFileEnc_of_parse`** — a text the file-enc parser accepts.
* **`detection_agrees`** — detection beside the two parsers, over all texts.
-/

namespace FormatDetection

open JsonText JsonMembers JsonRecords JsonLimits Limits TextLines TextScan WireTexts WireModel
open DocumentTokens KvLines KvDocument FileDocument JsonSize ToyCrypto ToyDocuments

/-- What a text is taken for. -/
inductive InputFormat where
  | kvEnc
  | fileEnc
  | kvPlain
  | unknown
deriving DecidableEq, Repr

/-- A reader of untyped JSON.  A text within the limits, without a repeated name and with safe
    integers only, is read as the value it spells; what is read from other texts is left open. -/
structure ValueReader where
  read : String → Option Json
  reads : ∀ {text : String} {v : Json}, validateJsonLimits (utf8 text) = .ok () →
    parseJson text.toList = some v → uniqueNames v = true →
    numbersWithin maxSafeInteger v = true → read text = some v

/-! ## Double-precision shares -/

/-- The nearest integer, the even one of two. -/
def roundHalfEven (q : ℚ) : ℤ :=
  let floor := ⌊q⌋
  if q - floor < 1 / 2 then floor
  else if 1 / 2 < q - floor then floor + 1
  else if floor % 2 = 0 then floor else floor + 1

/-- The double-precision number next to a number that is not negative (within the range of normal
    numbers, where every share of lines lies). -/
def toDouble (q : ℚ) : ℚ :=
  if q = 0 then 0
  else
    let unit : ℚ := 2 ^ (Int.log 2 q - 52)
    roundHalfEven (q / unit) * unit

/-- The share of some lines in percent, computed in double precision. -/
def percentage (count total : Nat) : ℚ :=
  toDouble (toDouble (toDouble count / toDouble total) * 100)

theorem percentage_zero (total : Nat) : percentage 0 total = 0 := by
  simp [percentage, toDouble]

example : percentage 3 5 = 60 := by decide +kernel

/-! ## Detection -/

/-- A text whose first line is the header of kv-enc. -/
def detectKvEnc (content : String) : Option InputFormat :=
  if (textLines content.toList).head? = some headerLineV1.toList then some .kvEnc else none

/-- A member of a JSON object. -/
def getMember (name : String) : Json → Option Json
  | .obj members => member name members
  | _ => none

/-- A JSON object that names the file-enc format in its protected part. -/
def detectFileEnc (reader : ValueReader) (content : String) :
    Except Error (Option InputFormat) :=
  if (trimStart content.toList).head? = some '\x7b' then do
    validateJsonLimits (utf8 content)
    match reader.read content with
    | none => pure none
    | some value =>
      match (getMember "protected" value).bind (getMember "format") with
      | some (.str format) => pure (if format = fileEncV1 then some .fileEnc else none)
      | _ => pure none
  else .ok none

/-- A line of the form KEY=VALUE. -/
def isKeyValueLine (line : List Char) : Bool :=
  match splitAtFirst '=' (trim line) with
  | some (key, _) => !key.isEmpty && key.all isKeyChar
  | none => false

/-- A line that is neither blank nor a comment. -/
def isContentLine (line : List Char) : Bool :=
  !(trim line).isEmpty && (trim line).head? != some '#'

/-- A text of at least two lines, six in ten of them KEY=VALUE. -/
def detectKvPlain (content : String) : Option InputFormat :=
  let lines := (textLines content.toList).filter isContentLine
  if lines.length < 2 then none
  else if 60 ≤ percentage (lines.filter isKeyValueLine).length lines.length then some .kvPlain
  else none

/-- The format of a text. -/
def detectFormat (reader : ValueReader) (content : String) : Except Error InputFormat :=
  if trim content.toList = [] then .ok .unknown
  else
    match detectKvEnc content with
    | some format => .ok format
    | none => do
      match ← detectFileEnc reader content with
      | some format => pure format
      | none => pure ((detectKvPlain content).getD .unknown)

/-! ## Lines that are not KEY=VALUE -/

/-- The characters of key names are no white space. -/
theorem isWhitespace_of_isKeyChar {c : Char} (h : isKeyChar c = true) :
    isWhitespace c = false := by
  have hrange : (65 ≤ c.toNat ∧ c.toNat ≤ 90) ∨ (97 ≤ c.toNat ∧ c.toNat ≤ 122)
      ∨ (48 ≤ c.toNat ∧ c.toNat ≤ 57) ∨ c.toNat = 95 := by
    rw [isKeyChar, Bool.or_eq_true, beq_iff_eq, isAlphanum_iff_toNat] at h
    rcases h with ((⟨h1, h2⟩ | ⟨h1, h2⟩) | ⟨h1, h2⟩) | rfl
    · exact Or.inl ⟨h1, h2⟩
    · exact Or.inr (Or.inl ⟨h1, h2⟩)
    · exact Or.inr (Or.inr (Or.inl ⟨h1, h2⟩))
    · exact Or.inr (Or.inr (Or.inr rfl))
  simp only [isWhitespace, Bool.or_eq_false_iff, Bool.and_eq_false_iff, decide_eq_false_iff_not,
    beq_eq_false_iff_ne]
  omega

/-- A line whose first character outside key names is no `=` is not KEY=VALUE. -/
theorem isKeyValueLine_of_word {word rest : List Char} {c : Char}
    (hword : ∀ d ∈ word, isKeyChar d = true) (hc : isKeyChar c = false) (hne : c ≠ '=')
    (hopen : word = [] → isWhitespace c = false) :
    isKeyValueLine (word ++ c :: rest) = false := by
  have hstart : trimStart (word ++ c :: rest) = word ++ c :: rest := by
    cases word with
    | nil => exact trimStart_cons (hopen rfl) rest
    | cons d word =>
      exact trimStart_cons (isWhitespace_of_isKeyChar (hword d List.mem_cons_self)) _
  obtain ⟨cut, hcut⟩ := List.rdropWhile_prefix isWhitespace (l := trimStart (word ++ c :: rest))
  rw [isKeyValueLine]
  split
  · rename_i key after hsplit
    rw [Bool.and_eq_false_iff]
    refine Or.inr ?_
    rw [Bool.eq_false_iff]
    intro hkey
    -- two readings of the line: its first character outside key names is `c`, and is `=`
    have hline := (eq_of_splitAtFirst hsplit).1
    rw [trim] at hline
    rw [hline, hstart] at hcut
    have hleft : (word ++ c :: rest).dropWhile isKeyChar = c :: rest := by
      rw [List.dropWhile_append_of_pos hword, List.dropWhile_cons_of_neg (by simp [hc])]
    have hright : (key ++ '=' :: after ++ cut).dropWhile isKeyChar = '=' :: (after ++ cut) := by
      rw [List.append_assoc, List.cons_append,
        List.dropWhile_append_of_pos (List.all_eq_true.mp hkey), List.dropWhile_cons_of_neg]
      decide
    rw [hcut, hleft] at hright
    exact hne (List.cons.inj hright).1
  · rfl

/-- No line of a kv-enc document is KEY=VALUE. -/
theorem isKeyValueLine_lineText {l : KvEncLine}
    (h : ∀ key token, l = .kv key token → isValidKeyName key = true) :
    isKeyValueLine (lineText l) = false := by
  have hcolon : ∀ rest : List Char, isKeyValueLine (':' :: rest) = false := by
    intro rest
    have hnone : ∀ d ∈ ([] : List Char), isKeyChar d = true := fun _ hd =>
      absurd hd List.not_mem_nil
    exact isKeyValueLine_of_word hnone (by decide) (by decide) fun _ => by decide
  cases l with
  | header version => exact hcolon _
  | head token => exact hcolon _
  | wrap token => exact hcolon _
  | sig token => exact hcolon _
  | kv key token =>
    obtain ⟨first, rest, hkey, _, _, hall⟩ := isValidKeyName_cons (h key token rfl)
    rw [lineText_kv]
    refine isKeyValueLine_of_word hall (by decide) (by decide) ?_
    rw [hkey]
    exact nofun
  | empty => rfl

/-! ## What the kv-enc parser accepts -/

section KvEnc

variable {text : List Char} {lines tail : List KvEncLine}

/-- Blank lines aside, a document opens with the colon of its header. -/
theorem opens_of_lines (hlines : parseLines (textLines text) = .ok lines)
    (hlogical : logicalLines lines = .header .v1 :: tail) :
    ∃ space rest, text = space ++ ':' :: rest ∧ ∀ c ∈ space, isWhitespace c = true := by
  induction lines generalizing text with
  | nil => cases hlogical
  | cons l lines ih =>
    have htexts := parseLines_ok hlines
    rw [List.map_cons] at htexts
    obtain ⟨ending, rest, htext, hending, hrest⟩ := textLines_eq_cons htexts.symm
    by_cases hl : l = .empty
    · -- a blank line: its ending is white space, and the rest opens like that
      subst hl
      rw [← htexts] at hlines
      obtain ⟨_, _, hlines⟩ := bind_eq_ok.mp hlines
      obtain ⟨others, hothers, heq⟩ := bind_eq_ok.mp hlines
      obtain rfl : others = lines := (List.cons.inj (Except.ok.inj heq)).2
      rw [← hrest] at hothers
      obtain ⟨space, rest', rfl, hspace⟩ := ih hothers hlogical
      refine ⟨ending ++ space, rest', ?_, ?_⟩
      · rw [htext, List.append_assoc]
        rfl
      · intro c hc
        rcases List.mem_append.mp hc with hc | hc
        · rcases hending with rfl | rfl | rfl <;> simp at hc
          · subst hc
            decide
          · rcases hc with rfl | rfl <;> decide
        · exact hspace c hc
    · rw [logicalLines, List.filter_cons, if_pos (by simpa using hl)] at hlogical
      obtain ⟨rfl, _⟩ := List.cons.inj hlogical
      exact ⟨[], _, htext, fun _ hc => absurd hc List.not_mem_nil⟩

/-- The first line of a document is its header, or blank. -/
theorem firstLine_of_lines (hlines : parseLines (textLines text) = .ok lines)
    (hlogical : logicalLines lines = .header .v1 :: tail) :
    (textLines text).head? = some headerLineV1.toList ∨ (textLines text).head? = some [] := by
  rw [← parseLines_ok hlines]
  cases lines with
  | nil => cases hlogical
  | cons l lines =>
    by_cases hl : l = .empty
    · subst hl
      exact Or.inr rfl
    · rw [logicalLines, List.filter_cons, if_pos (by simpa using hl)] at hlogical
      obtain ⟨rfl, _⟩ := List.cons.inj hlogical
      have hheader : lineText (.header .v1) = headerLineV1.toList := by decide
      rw [List.map_cons, List.head?_cons, hheader]
      exact Or.inl rfl

end KvEnc

section Accepted

variable {content headToken sigToken : String} {doc : KvEncDocument}

theorem header_of_accepted (h : Accepted content doc headToken sigToken) :
    ∃ tail, logicalLines doc.lines = .header .v1 :: tail :=
  ⟨_, h.shape⟩

/-- What is accepted starts with a colon, white space aside. -/
theorem trimStart_of_accepted (h : Accepted content doc headToken sigToken) :
    ∃ rest, trimStart content.toList = ':' :: rest := by
  obtain ⟨tail, htail⟩ := header_of_accepted h
  obtain ⟨space, rest, htext, hspace⟩ := opens_of_lines h.lines htail
  refine ⟨rest, ?_⟩
  rw [htext, trimStart_append hspace]
  exact trimStart_cons (by decide) rest

/-- No line of an accepted text is KEY=VALUE. -/
theorem no_keyValueLine (h : Accepted content doc headToken sigToken) :
    ∀ line ∈ textLines content.toList, isKeyValueLine line = false := by
  intro line hline
  rw [← parseLines_ok h.lines] at hline
  obtain ⟨l, hl, rfl⟩ := List.mem_map.mp hline
  refine isKeyValueLine_lineText ?_
  rintro key token rfl
  have hmem : KvEncLine.kv key token ∈ doc.lines.filter isKv := List.mem_filter.mpr ⟨hl, rfl⟩
  rw [filter_isKv_of_shape h.shape, List.map_map] at hmem
  obtain ⟨e, he, heq⟩ := List.mem_map.mp hmem
  rw [← (KvEncLine.kv.inj heq).1]
  exact h.keys e he

theorem detectKvPlain_of_accepted (h : Accepted content doc headToken sigToken) :
    detectKvPlain content = none := by
  have hnone : ((textLines content.toList).filter isContentLine).filter isKeyValueLine = [] := by
    rw [List.filter_eq_nil_iff]
    intro line hline
    rw [no_keyValueLine h line (List.mem_filter.mp hline).1]
    exact Bool.false_ne_true
  have hshare : ¬(60 : ℚ) ≤ percentage 0
      ((textLines content.toList).filter isContentLine).length := by
    rw [percentage_zero]
    norm_num
  rw [detectKvPlain, hnone, List.length_nil, if_neg hshare, ite_self]

/-- **AN ACCEPTED KV TEXT IS FOUND BY ITS FIRST LINE**: as kv-enc when that is the header, and not
    at all when it is blank. -/
theorem detectFormat_of_accepted (reader : ValueReader)
    (h : Accepted content doc headToken sigToken) :
    detectFormat reader content
      = .ok (if (textLines content.toList).head? = some [] then .unknown else .kvEnc) := by
  obtain ⟨rest, htrim⟩ := trimStart_of_accepted h
  obtain ⟨kept, hkept⟩ := trim_of_trimStart htrim
  obtain ⟨tail, htail⟩ := header_of_accepted h
  rw [detectFormat, if_neg (by rw [hkept]; exact nofun)]
  rcases firstLine_of_lines h.lines htail with hfirst | hfirst
  · rw [detectKvEnc, if_pos hfirst, if_neg (by rw [hfirst]; decide)]
  · have hfile : detectFileEnc reader content = .ok none := by
      have hbrace : (some ':' : Option Char) ≠ some '\x7b' := by decide
      rw [detectFileEnc, htrim, List.head?_cons, if_neg hbrace]
    rw [detectKvEnc, if_neg (by rw [hfirst]; decide), if_pos hfirst]
    show (detectFileEnc reader content >>= _) = _
    rw [hfile, detectKvPlain_of_accepted h]
    rfl

end Accepted

/-! ## What the file-enc parser accepts -/

section FileEnc

variable {content sourceName : String} {doc : FileEncDocument}

/-- What is accepted starts with a brace, white space aside. -/
theorem trimStart_of_parse (h : parseFileEncStr content sourceName = .ok doc) :
    ∃ rest, trimStart content.toList = '\x7b' :: rest := by
  obtain ⟨_, v, hjson, _, _, _, hdoc⟩ := value_of_parse h
  obtain ⟨members, rfl, _⟩ := readRecord_eq_some hdoc
  obtain ⟨space, rest, htext, hspace⟩ := opens_of_parseJson hjson
  refine ⟨rest, ?_⟩
  have hwhite : ∀ c ∈ space, isWhitespace c = true := by
    intro c hc
    have hjsonSpace := hspace c hc
    simp only [isJsonSpace, Bool.or_eq_true, beq_iff_eq] at hjsonSpace
    rcases hjsonSpace with ((rfl | rfl) | rfl) | rfl <;> decide
  rw [htext, trimStart_append hwhite]
  exact trimStart_cons (by decide) rest

/-- The members detection looks at name the format. -/
theorem getMember_of_parse {v : Json} (hconforms : conforms FileEncDocument.schema v = true)
    (hdoc : FileEncDocument.fromJson v = some doc) :
    (getMember "protected" v).bind (getMember "format") = some (.str fileEncV1) := by
  obtain ⟨members, rfl, hfields⟩ := readRecord_eq_some hdoc
  simp only [Option.bind_eq_bind, Option.bind_eq_some_iff] at hfields
  obtain ⟨protect, hprotect, _, _, _⟩ := hfields
  obtain ⟨w, hlook, hw⟩ := field_eq_some hprotect
  have hconforms' : conforms FileEncDocumentProtected.schema w = true :=
    memberConforms_of_conforms hconforms hlook
  obtain ⟨inner, rfl, hinner⟩ := readRecord_eq_some hw
  simp only [Option.bind_eq_bind, Option.bind_eq_some_iff] at hinner
  obtain ⟨format, hformat, _⟩ := hinner
  have hformat' := text_conforms hconforms' hformat
  obtain rfl : format = fileEncV1 := beq_iff_eq.mp hformat'
  show (member "protected" members).bind (getMember "format") = _
  rw [hlook, Option.bind_some, getMember, textField_eq_some hformat]

/-- **AN ACCEPTED FILE TEXT IS FOUND AS FILE-ENC.** -/
theorem detectFormat_of_parse (reader : ValueReader)
    (h : parseFileEncStr content sourceName = .ok doc) :
    detectFormat reader content = .ok .fileEnc := by
  obtain ⟨rest, htrim⟩ := trimStart_of_parse h
  obtain ⟨kept, hkept⟩ := trim_of_trimStart htrim
  obtain ⟨hlimits, v, hjson, hnames, hnumbers, hconforms, hdoc⟩ := value_of_parse h
  have hfile : detectFileEnc reader content = .ok (some .fileEnc) := by
    rw [detectFileEnc, htrim, List.head?_cons, if_pos rfl]
    refine bind_eq_ok.mpr ⟨(), hlimits, ?_⟩
    rw [reader.reads hlimits hjson hnames hnumbers]
    dsimp only
    rw [getMember_of_parse hconforms hdoc]
    rfl
  have hkv : detectKvEnc content = none := by
    rw [detectKvEnc, if_neg]
    intro hfirst
    -- a text that starts with the header line starts with a colon
    cases hlines : textLines content.toList with
    | nil =>
      rw [hlines] at hfirst
      cases hfirst
    | cons line lines =>
      rw [hlines] at hfirst
      obtain rfl : line = headerLineV1.toList := Option.some.inj hfirst
      obtain ⟨ending, rest', htext, _⟩ := textLines_eq_cons hlines
      rw [htext] at htrim
      have hcolon : headerLineV1.toList = ':' :: "KAPSARO_KV 1".toList := by decide
      rw [hcolon, List.cons_append, trimStart_cons (by decide)] at htrim
      exact absurd (List.cons.inj htrim).1 (by decide)
  rw [detectFormat, if_neg (by rw [hkept]; exact nofun), hkv]
  exact bind_eq_ok.mpr ⟨_, hfile, rfl⟩

end FileEnc

/-! ## Detection and the parsers -/

/-- **DETECTION AGREES WITH THE PARSERS**: a text the kv-enc parser accepts is found as kv-enc, or
    as unknown when its first line is blank; a text the file-enc parser accepts is found as
    file-enc; and no text is accepted by both. -/
theorem detection_agrees (reader : ValueReader) (content : String) :
    (∀ sourceName doc, parseKvDocumentWithSource content sourceName = .ok doc →
        detectFormat reader content
          = .ok (if (textLines content.toList).head? = some [] then .unknown else .kvEnc))
      ∧ (∀ sourceName doc, parseFileEncStr content sourceName = .ok doc →
          detectFormat reader content = .ok .fileEnc)
      ∧ ¬((∃ sourceName doc, parseKvDocumentWithSource content sourceName = .ok doc)
        ∧ ∃ sourceName doc, parseFileEncStr content sourceName = .ok doc) := by
  refine ⟨?_, fun _ _ h => detectFormat_of_parse reader h, ?_⟩
  · intro sourceName doc h
    obtain ⟨_, _, haccepted⟩ := accepted_of_parse h
    exact detectFormat_of_accepted reader haccepted
  · rintro ⟨⟨_, _, hkv⟩, _, _, hfile⟩
    obtain ⟨_, _, haccepted⟩ := accepted_of_parse hkv
    obtain ⟨_, hcolon⟩ := trimStart_of_accepted haccepted
    obtain ⟨_, hbrace⟩ := trimStart_of_parse hfile
    rw [hcolon] at hbrace
    exact absurd (List.cons.inj hbrace).1 (by decide)

/-- A reader of untyped JSON that refuses what this development does not spell out. -/
def plainReader : ValueReader where
  read := fun text => parseJson text.toList
  reads := fun _ h _ _ => h

/-- A toy file is found as what it is. -/
theorem detection_agrees_toy :
    ∃ content doc, parseFileEncStr content "file-enc content" = .ok doc
      ∧ detectFormat plainReader content = .ok .fileEnc := by
  have hshort : stringSize alice.text ≤ 200 := by decide
  obtain ⟨doc, hfile⟩ := verify_toyFile toySid toySid (smallWraps_single hshort toyKid []
    (pad 32 [1])) shortHistory_none (pad 32 [1]) [] alice []
  obtain ⟨parsed, hparse, _⟩ := bind_eq_ok.mp hfile.verified
  exact ⟨_, parsed, hparse, (detection_agrees plainReader _).2.1 _ _ hparse⟩

/-! ## A document behind a blank line -/

/-- A blank line in front does not change what a text is parsed as. -/
theorem accepted_blank {content headToken sigToken : String} {doc : KvEncDocument}
    (h : Accepted content doc headToken sigToken)
    (hsize : content.utf8ByteSize < maxKvEncFileSize) :
    Accepted ("\n" ++ content) { doc with lines := .empty :: doc.lines } headToken sigToken where
  size := by
    have hfeed : "\n".utf8ByteSize = 1 := by decide
    rw [String.utf8ByteSize_append, hfeed]
    omega
  lines := by
    have htexts : textLines ("\n" ++ content).toList = [] :: textLines content.toList := by
      rw [String.toList_append]
      rfl
    rw [htexts]
    exact bind_eq_ok.mpr ⟨.empty, rfl, bind_eq_ok.mpr ⟨doc.lines, h.lines, rfl⟩⟩
  shape := h.shape
  count := h.count
  keys := h.keys
  distinct := h.distinct
  head := h.head
  wrap := h.wrap
  entries := h.entries
  signature := h.signature

/-- A document that is parsed, but not found as kv-enc, behind a blank line. -/
theorem detectFormat_blank_toy :
    ¬ ∀ (reader : ValueReader) (content : String) (doc : KvEncDocument),
      parseKvDocument content = .ok doc → detectFormat reader content = .ok .kvEnc := by
  intro hall
  have hshort : stringSize alice.text ≤ 200 := by decide
  have hwrap := (smallWraps_single hshort toyKid [] (pad 32 [1])).unremoved
  have hdraft := toyLike_toyDraft toySid hwrap.toWrapChecked (pad 32 [1])
  obtain ⟨text, signature, _, hsigned, hverify⟩ := verify_toyLike hwrap hdraft hshort []
  have hlength : text.utf8ByteSize < maxKvEncFileSize := by
    have hsize := short_toyLike hwrap hdraft hshort hsigned
    rw [← hsigned.text_eq] at hsize
    exact Nat.lt_of_le_of_lt hsize (by decide)
  obtain ⟨doc, hparse, _⟩ := bind_eq_ok.mp hverify
  obtain ⟨_, _, haccepted⟩ := accepted_of_parse hparse
  have hblank := accepted_blank haccepted hlength
  have hfound := hall plainReader _ _ (parse_of_accepted "kv-enc content" hblank)
  have hfirst : (textLines ("\n" ++ text).toList).head? = some [] := by
    rw [String.toList_append]
    rfl
  rw [detectFormat_of_accepted plainReader hblank, if_pos hfirst] at hfound
  cases Except.ok.inj hfound

end FormatDetection
