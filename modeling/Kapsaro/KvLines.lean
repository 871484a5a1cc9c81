import Kapsaro.DocumentTokens

/-!
# KV lines — the line grammar of a kv-enc text and its structure

`format/kv/enc/parser.rs` and `format/kv/document/structure.rs`: from the text of a kv-enc file
to its lines, and the order and counts those lines must have.

* **`KvEncLine`** — one logical line.
* **`parseLine`**, **`parseAll`** — the line grammar; size and KEY line limits.
* **`validateKvFileStructure`** — header, HEAD, WRAP, entries, SIG, in this order; valid,
  distinct keys.
* **`structure_accepts_iff`** — the structure check accepts exactly the line lists of that shape.
* **`parseLine_lineText`**, **`lineText_parseLine`** — a line and its text determine each other.
-/

namespace KvLines

open Limits TextLines Base64Codec DocumentTokens

/-! ## Lines -/

/-- The version on a header line. -/
inductive KvEncVersion where
  | v1
deriving DecidableEq, Repr

/-- The version as it is spelled. -/
def KvEncVersion.text : KvEncVersion → String
  | .v1 => "1"

/-- Only the canonical spelling names a version. -/
def KvEncVersion.parse (text : List Char) : Option KvEncVersion :=
  if text = "1".toList then some .v1 else none

/-- One line of a kv-enc text. -/
inductive KvEncLine where
  | header (version : KvEncVersion)
  | head (token : String)
  | wrap (token : String)
  | kv (key token : String)
  | sig (token : String)
  | empty
deriving DecidableEq, Repr

def headerLinePrefix : String := ":KAPSARO_KV "

def headerLineV1 : String := ":KAPSARO_KV 1"

/-- The version of a header line. -/
def parseHeaderLine (versionText : List Char) : Except Error KvEncLine :=
  match KvEncVersion.parse versionText with
  | some version => .ok (.header version)
  | none => .error (formatParseError
      s!"Unsupported kv-enc version: {String.ofList versionText} (only v1 is supported)")

/-- A control line whose payload is one token. -/
def parseTokenControlLine (tag : String) (token line : List Char)
    (buildLine : String → KvEncLine) : Except Error KvEncLine :=
  if token = [] then
    .error (formatParseError
      s!"kv-enc v1: {tag} line must have a token: {String.ofList line}")
  else .ok (buildLine (String.ofList token))

/-- A line that starts with `:`. -/
def parseControlLine (line : List Char) : Except Error KvEncLine :=
  match line.dropPrefix? headerLinePrefix.toList with
  | some versionText => parseHeaderLine versionText
  | none =>
  match line.dropPrefix? ":HEAD ".toList with
  | some token => parseTokenControlLine "HEAD" token line .head
  | none =>
  match line.dropPrefix? ":WRAP ".toList with
  | some token => parseTokenControlLine "WRAP" token line .wrap
  | none =>
  match line.dropPrefix? ":SIG ".toList with
  | some token => parseTokenControlLine "SIG" token line .sig
  -- a line that starts with a colon is never a key
  | none => .error (formatParseError
      s!"Unknown control tag in kv-enc line: {String.ofList line}")

/-- One line. -/
def parseLine (line : List Char) : Except Error KvEncLine :=
  match line with
  | [] => .ok .empty
  | '#' :: _ => .error (formatParseError
      s!"kv-enc v1: comment lines are not allowed: {String.ofList line}")
  | ':' :: _ => parseControlLine line
  | _ =>
    match splitAtFirst ' ' line with
    | some (key, token) => .ok (.kv (String.ofList key) (String.ofList token))
    | none => .error (formatParseError s!"Invalid kv-enc line format: {String.ofList line}")

/-- The lines in order, up to the first that is no line. -/
def parseLines : List (List Char) → Except Error (List KvEncLine)
  | [] => .ok []
  | line :: rest => do
    let l ← parseLine line
    let ls ← parseLines rest
    pure (l :: ls)

def isKv : KvEncLine → Bool
  | .kv _ _ => true
  | _ => false

/-- All lines of a text within the limits. -/
def parseAll (content : String) : Except Error (List KvEncLine) := do
  if content.utf8ByteSize > maxKvEncFileSize then
    throw (.parse (s!"kv-enc file exceeds maximum size limit ({content.utf8ByteSize} bytes > " ++
      s!"{maxKvEncFileSize} bytes)"))
  let lines ← parseLines (textLines content.toList)
  let keyCount := (lines.filter isKv).length
  if keyCount > maxKvKeyLines then
    throw (.parse
      s!"kv-enc file exceeds maximum KEY line count ({keyCount} > {maxKvKeyLines})")
  pure lines

theorem parseAll_ok {content : String} {lines : List KvEncLine} :
    parseAll content = .ok lines
      ↔ content.utf8ByteSize ≤ maxKvEncFileSize
        ∧ parseLines (textLines content.toList) = .ok lines
        ∧ (lines.filter isKv).length ≤ maxKvKeyLines := by
  rw [parseAll]
  by_cases hsize : content.utf8ByteSize > maxKvEncFileSize
  · rw [if_pos hsize]
    exact ⟨nofun, fun h => absurd h.1 (not_le.mpr hsize)⟩
  · rw [if_neg hsize]
    constructor
    · intro h
      obtain ⟨ls, hparse, h⟩ := bind_eq_ok.mp h
      by_cases hcount : (ls.filter isKv).length > maxKvKeyLines
      · rw [if_pos hcount] at h
        cases h
      · rw [if_neg hcount] at h
        obtain rfl := Except.ok.inj h
        exact ⟨not_lt.mp hsize, hparse, not_lt.mp hcount⟩
    · rintro ⟨_, hparse, hcount⟩
      refine bind_eq_ok.mpr ⟨lines, hparse, ?_⟩
      rw [if_neg (not_lt.mpr hcount)]
      rfl

/-! ## Structure -/

/-- A character that may open a key name, and one that may continue it. -/
def isKeyStart (c : Char) : Bool := c.isAlpha || c == '_'

def isKeyChar (c : Char) : Bool := c.isAlphanum || c == '_'

/-- `[A-Za-z_][A-Za-z0-9_]*` -/
def isValidKeyName (key : String) : Bool :=
  match key.toList with
  | [] => false
  | first :: rest => isKeyStart first && rest.all isKeyChar

/-- A line a kv-enc document must carry exactly once, at a known position. -/
structure RequiredLine where
  matcher : KvEncLine → Bool
  label : String
  missingRule : String
  positionRule : String
  positionMessage : String

def isHeader : KvEncLine → Bool
  | .header _ => true
  | _ => false

def isHead : KvEncLine → Bool
  | .head _ => true
  | _ => false

def isWrap : KvEncLine → Bool
  | .wrap _ => true
  | _ => false

def isSig : KvEncLine → Bool
  | .sig _ => true
  | _ => false

def requiredHeaderLine : RequiredLine where
  matcher := isHeader
  label := ":KAPSARO_KV"
  missingRule := "E_SCHEMA_INVALID"
  positionRule := "E_SCHEMA_INVALID"
  positionMessage := "kv-enc v1: :KAPSARO_KV 1 must be the first line"

def requiredHeadLine : RequiredLine where
  matcher := isHead
  label := ":HEAD"
  missingRule := "E_SCHEMA_INVALID"
  positionRule := "E_SCHEMA_INVALID"
  positionMessage := "kv-enc v1: :HEAD must be the second line (after :KAPSARO_KV 1)"

def requiredWrapLine : RequiredLine where
  matcher := isWrap
  label := ":WRAP"
  missingRule := "E_WRAP_LINE_MISSING"
  positionRule := "E_WRAP_LINE_POSITION"
  positionMessage := "kv-enc v1: :WRAP must be the third line (after :HEAD)"

def requiredSigLine : RequiredLine where
  matcher := isSig
  label := ":SIG"
  missingRule := "E_SIG_LINE_MISSING"
  positionRule := "E_SCHEMA_INVALID"
  positionMessage := "kv-enc v1: :SIG must be the last logical line (after all KV entries)"

/-- The required line appears exactly once. -/
def validateRequiredLineCount (logical : List KvEncLine) (required : RequiredLine) :
    Except Error Unit :=
  let count := (logical.filter required.matcher).length
  if count = 0 then
    .error (.verify required.missingRule s!"kv-enc v1: missing {required.label} line")
  else if count > 1 then
    .error (.verify "E_SCHEMA_INVALID"
      s!"kv-enc v1: {required.label} line appears {count} times (must be exactly once)")
  else .ok ()

/-- The required line appears exactly once, at its position. -/
def validateRequiredLine (logical : List KvEncLine) (required : RequiredLine) (position : Nat) :
    Except Error Unit := do
  validateRequiredLineCount logical required
  if logical[position]?.any required.matcher then pure ()
  else throw (.verify required.positionRule required.positionMessage)

/-- The four required lines at their positions. -/
def validateKvHeaderLines (logical : List KvEncLine) : Except Error Unit := do
  validateRequiredLine logical requiredHeaderLine 0
  validateRequiredLine logical requiredHeadLine 1
  validateRequiredLine logical requiredWrapLine 2
  validateRequiredLine logical requiredSigLine (logical.length - 1)

/-- No data line follows the signature. -/
def validateNoDataAfterSig : Bool → List KvEncLine → Except Error Unit
  | _, [] => .ok ()
  | foundSig, line :: rest =>
    match line with
    | .sig _ => validateNoDataAfterSig true rest
    | .empty => validateNoDataAfterSig foundSig rest
    | _ =>
      if foundSig then
        .error (.verify "E_SCHEMA_INVALID"
          "kv-enc v1: data lines (HEAD/WRAP/KV) must not appear after :SIG line")
      else validateNoDataAfterSig foundSig rest

/-- Keys are valid names and distinct. -/
def validateKvKeysFrom : List String → List KvEncLine → Except Error Unit
  | _, [] => .ok ()
  | seen, .kv key _ :: rest =>
    if !isValidKeyName key then
      .error (.verify "E_SCHEMA_INVALID" (s!"kv-enc v1: invalid KEY format '{key}' " ++
        "(must match ^[A-Za-z_][A-Za-z0-9_]*$)"))
    else if key ∈ seen then
      .error (.verify "E_DUPLICATE_KEY"
        s!"kv-enc v1: duplicate KEY '{key}' (each KEY must appear only once)")
    else validateKvKeysFrom (key :: seen) rest
  | seen, _ :: rest => validateKvKeysFrom seen rest

/-- The lines that carry something. -/
def logicalLines (lines : List KvEncLine) : List KvEncLine :=
  lines.filter (· ≠ .empty)

/-- The structure of a kv-enc document. -/
def validateKvFileStructure (lines : List KvEncLine) : Except Error Unit := do
  let logical := logicalLines lines
  if logical = [] then
    throw (.parse "kv-enc file is empty or contains only empty lines and comments")
  validateKvHeaderLines logical
  validateNoDataAfterSig false lines
  validateKvKeysFrom [] lines

/-! ## The shape the structure check accepts -/

/-- The lines of a document in their order. -/
def documentLines (headToken wrapToken : String) (entries : List (String × String))
    (sigToken : String) : List KvEncLine :=
  [.header .v1, .head headToken, .wrap wrapToken] ++ entries.map (fun e => .kv e.1 e.2)
    ++ [.sig sigToken]

theorem validateRequiredLine_ok {logical : List KvEncLine} {required : RequiredLine}
    {position : Nat} (h : validateRequiredLine logical required position = .ok ()) :
    (logical.filter required.matcher).length = 1
      ∧ ∃ line, logical[position]? = some line ∧ required.matcher line = true := by
  obtain ⟨_, hcount, hposition⟩ := bind_eq_ok.mp h
  constructor
  · simp only [validateRequiredLineCount] at hcount
    split at hcount
    · cases hcount
    · split at hcount
      · cases hcount
      · omega
  · split at hposition
    · rename_i hany
      cases hline : logical[position]? with
      | none => rw [hline] at hany; cases hany
      | some line =>
        rw [hline] at hany
        exact ⟨line, rfl, hany⟩
    · cases hposition

theorem validateRequiredLine_of {logical : List KvEncLine} {required : RequiredLine}
    {position : Nat} {line : KvEncLine} (hcount : (logical.filter required.matcher).length = 1)
    (hline : logical[position]? = some line) (hmatch : required.matcher line = true) :
    validateRequiredLine logical required position = .ok () := by
  refine bind_eq_ok.mpr ⟨(), ?_, ?_⟩
  · simp only [validateRequiredLineCount, hcount]
    rfl
  · rw [if_pos]
    · rfl
    · rw [hline]
      exact hmatch

/-- A predicate that holds of the only element it holds of, and of one at a known place, holds
    nowhere else. -/
theorem filter_eq_nil_of_unique {p : KvEncLine → Bool} (before after : List KvEncLine)
    {line : KvEncLine} (hcount : ((before ++ line :: after).filter p).length = 1)
    (hline : p line = true) :
    (∀ l ∈ before, p l = false) ∧ ∀ l ∈ after, p l = false := by
  rw [List.filter_append, List.filter_cons_of_pos hline, List.length_append,
    List.length_cons] at hcount
  have hbefore : before.filter p = [] := List.length_eq_zero_iff.mp (by omega)
  have hafter : after.filter p = [] := List.length_eq_zero_iff.mp (by omega)
  refine ⟨fun l hl => ?_, fun l hl => ?_⟩
  · exact Bool.eq_false_iff.mpr (List.filter_eq_nil_iff.mp hbefore l hl)
  · exact Bool.eq_false_iff.mpr (List.filter_eq_nil_iff.mp hafter l hl)

private theorem kv_of_others {line : KvEncLine} (h1 : isHeader line = false)
    (h2 : isHead line = false) (h3 : isWrap line = false) (h4 : isSig line = false)
    (h5 : line ≠ .empty) : ∃ key token, line = .kv key token := by
  cases line with
  | kv key token => exact ⟨key, token, rfl⟩
  | header _ => cases h1
  | head _ => cases h2
  | wrap _ => cases h3
  | sig _ => cases h4
  | empty => exact absurd rfl h5

/-- The lines between WRAP and SIG are entries. -/
private theorem exists_entries {lines : List KvEncLine}
    (h : ∀ line ∈ lines, ∃ key token, line = .kv key token) :
    ∃ entries : List (String × String), lines = entries.map fun e => .kv e.1 e.2 := by
  induction lines with
  | nil => exact ⟨[], rfl⟩
  | cons line lines ih =>
    obtain ⟨key, token, rfl⟩ := h line List.mem_cons_self
    obtain ⟨entries, rfl⟩ := ih fun l hl => h l (List.mem_cons_of_mem _ hl)
    exact ⟨(key, token) :: entries, rfl⟩

/-- **THE REQUIRED LINES FIX THE SHAPE**: with the four required lines once and in place, the
    rest are entries between WRAP and SIG. -/
theorem shape_of_headerLines {lines : List KvEncLine}
    (h : validateKvHeaderLines (logicalLines lines) = .ok ()) :
    ∃ headToken wrapToken entries sigToken,
      logicalLines lines = documentLines headToken wrapToken entries sigToken := by
  have hnonempty : ∀ line ∈ logicalLines lines, line ≠ .empty := by
    intro line hline
    simpa using (List.mem_filter.mp hline).2
  generalize logicalLines lines = logical at h hnonempty
  obtain ⟨_, hheader, h⟩ := bind_eq_ok.mp h
  obtain ⟨_, hhead, h⟩ := bind_eq_ok.mp h
  obtain ⟨_, hwrap, hsig⟩ := bind_eq_ok.mp h
  obtain ⟨cheader, l0, hl0, hm0⟩ := validateRequiredLine_ok hheader
  obtain ⟨chead, l1, hl1, hm1⟩ := validateRequiredLine_ok hhead
  obtain ⟨cwrap, l2, hl2, hm2⟩ := validateRequiredLine_ok hwrap
  obtain ⟨csig, l3, hl3, hm3⟩ := validateRequiredLine_ok hsig
  -- peel the first three lines off, then the last one
  match logical, hl0, hl1, hl2 with
  | a :: b :: c :: rest, hl0, hl1, hl2 =>
    obtain rfl : a = l0 := Option.some.inj hl0
    obtain rfl : b = l1 := Option.some.inj hl1
    obtain rfl : c = l2 := Option.some.inj hl2
    have hlast : (a :: b :: c :: rest).getLast? = some l3 := by
      rw [List.getLast?_eq_getElem?]
      exact hl3
    rcases List.eq_nil_or_concat' rest with rfl | ⟨middle, last, rfl⟩
    · have hc : c = l3 := by simpa using hlast
      rw [hc] at hm2
      cases l3 with
      | sig _ => cases hm2
      | _ => cases hm3
    · obtain rfl : last = l3 := by
        have hsplit : a :: b :: c :: (middle ++ [last]) = (a :: b :: c :: middle) ++ [last] := rfl
        rw [hsplit, List.getLast?_concat] at hlast
        exact Option.some.inj hlast
      have uheader := (filter_eq_nil_of_unique [] (b :: c :: (middle ++ [last])) cheader hm0).2
      have uhead := (filter_eq_nil_of_unique [a] (c :: (middle ++ [last])) chead hm1).2
      have uwrap := (filter_eq_nil_of_unique [a, b] (middle ++ [last]) cwrap hm2).2
      have usig := (filter_eq_nil_of_unique (a :: b :: c :: middle) [] csig hm3).1
      have hmiddle : ∀ line ∈ middle, ∃ key token, line = .kv key token := by
        intro line hline
        have hmem : line ∈ middle ++ [last] := List.mem_append_left _ hline
        exact kv_of_others
          (uheader line (List.mem_cons_of_mem _ (List.mem_cons_of_mem _ hmem)))
          (uhead line (List.mem_cons_of_mem _ hmem)) (uwrap line hmem)
          (usig line (List.mem_cons_of_mem _
            (List.mem_cons_of_mem _ (List.mem_cons_of_mem _ hline))))
          (hnonempty line (List.mem_cons_of_mem _ (List.mem_cons_of_mem _
            (List.mem_cons_of_mem _ hmem))))
      obtain ⟨entries, rfl⟩ := exists_entries hmiddle
      cases a with
      | header version =>
        cases version
        cases b with
        | head headToken =>
          cases c with
          | wrap wrapToken =>
            cases last with
            | sig sigToken => exact ⟨headToken, wrapToken, entries, sigToken, rfl⟩
            | _ => cases hm3
          | _ => cases hm2
        | _ => cases hm1
      | _ => cases hm0

/-- The key check reads the keys only. -/
theorem validateKvKeysFrom_ok (seen : List String) (lines : List KvEncLine)
    (entries : List (String × String))
    (hentries : lines.filter isKv = entries.map fun e => .kv e.1 e.2) :
    validateKvKeysFrom seen lines = .ok ()
      ↔ (∀ e ∈ entries, isValidKeyName e.1 = true ∧ e.1 ∉ seen)
        ∧ (entries.map Prod.fst).Nodup := by
  induction lines generalizing seen entries with
  | nil =>
    obtain rfl : entries = [] := by
      cases entries with
      | nil => rfl
      | cons e es => cases hentries
    exact ⟨fun _ => ⟨fun e he => absurd he List.not_mem_nil, List.nodup_nil⟩, fun _ => rfl⟩
  | cons line lines ih =>
    cases line with
    | kv key token =>
      cases entries with
      | nil => cases hentries
      | cons e es =>
        obtain ⟨hline, htail⟩ := List.cons.inj hentries
        obtain ⟨rfl, rfl⟩ := KvEncLine.kv.inj hline
        have ih' := ih (e.1 :: seen) es htail
        rw [validateKvKeysFrom]
        by_cases hvalid : isValidKeyName e.1 = true
        · rw [if_neg (by simp [hvalid])]
          by_cases hseen : e.1 ∈ seen
          · rw [if_pos hseen]
            exact ⟨nofun, fun h => absurd hseen (h.1 e List.mem_cons_self).2⟩
          · rw [if_neg hseen, ih']
            constructor
            · rintro ⟨hall, hnodup⟩
              constructor
              · intro f hf
                rcases List.mem_cons.mp hf with rfl | hf
                · exact ⟨hvalid, hseen⟩
                · exact ⟨(hall f hf).1, fun hm => (hall f hf).2 (List.mem_cons_of_mem _ hm)⟩
              · rw [List.map_cons, List.nodup_cons]
                refine ⟨fun hmem => ?_, hnodup⟩
                obtain ⟨f, hf, heq⟩ := List.mem_map.mp hmem
                exact (hall f hf).2 (heq ▸ List.mem_cons_self)
            · rintro ⟨hall, hnodup⟩
              rw [List.map_cons, List.nodup_cons] at hnodup
              refine ⟨fun f hf => ?_, hnodup.2⟩
              obtain ⟨hgood, hfresh⟩ := hall f (List.mem_cons_of_mem _ hf)
              refine ⟨hgood, fun hm => ?_⟩
              rcases List.mem_cons.mp hm with heq | hm
              · exact hnodup.1 (heq ▸ List.mem_map_of_mem hf)
              · exact hfresh hm
        · rw [if_pos (by simp [hvalid])]
          exact ⟨nofun, fun h => absurd (h.1 e List.mem_cons_self).1 hvalid⟩
    | header _ => exact ih seen entries hentries
    | head _ => exact ih seen entries hentries
    | wrap _ => exact ih seen entries hentries
    | sig _ => exact ih seen entries hentries
    | empty => exact ih seen entries hentries

/-- The entry lines of a document are its entries. -/
theorem filter_isKv_of_shape {lines : List KvEncLine} {headToken wrapToken : String}
    {entries : List (String × String)} {sigToken : String}
    (h : logicalLines lines = documentLines headToken wrapToken entries sigToken) :
    lines.filter isKv = entries.map fun e => .kv e.1 e.2 := by
  have hlogical : lines.filter isKv = (logicalLines lines).filter isKv := by
    rw [logicalLines, List.filter_filter]
    refine List.filter_congr fun line _ => ?_
    cases line <;> rfl
  have hentries : (entries.map fun e => KvEncLine.kv e.1 e.2).filter isKv
      = entries.map fun e => .kv e.1 e.2 := by
    rw [List.filter_eq_self]
    intro line hline
    obtain ⟨e, _, rfl⟩ := List.mem_map.mp hline
    rfl
  rw [hlogical, h, documentLines, List.filter_append, List.filter_append, hentries]
  simp [isKv]

/-- What an accepted document looks like: the shape, and valid, distinct keys. -/
theorem shape_of_structure {lines : List KvEncLine}
    (h : validateKvFileStructure lines = .ok ()) :
    ∃ headToken wrapToken entries sigToken,
      logicalLines lines = documentLines headToken wrapToken entries sigToken
        ∧ (∀ e ∈ entries, isValidKeyName e.1 = true) ∧ (entries.map Prod.fst).Nodup := by
  rw [validateKvFileStructure] at h
  by_cases hempty : logicalLines lines = []
  · simp only [hempty, if_true] at h
    cases h
  · simp only [hempty, if_false] at h
    obtain ⟨_, hheader, h⟩ := bind_eq_ok.mp h
    obtain ⟨_, _, hkeys⟩ := bind_eq_ok.mp h
    obtain ⟨headToken, wrapToken, entries, sigToken, hshape⟩ := shape_of_headerLines hheader
    obtain ⟨hvalid, hnodup⟩ :=
      (validateKvKeysFrom_ok [] lines entries (filter_isKv_of_shape hshape)).mp hkeys
    exact ⟨headToken, wrapToken, entries, sigToken, hshape, fun e he => (hvalid e he).1, hnodup⟩

private theorem filter_entries_eq_nil (entries : List (String × String)) {p : KvEncLine → Bool}
    (h : ∀ key token, p (.kv key token) = false) :
    (entries.map fun e => KvEncLine.kv e.1 e.2).filter p = [] := by
  rw [List.filter_eq_nil_iff]
  intro line hline
  obtain ⟨e, _, rfl⟩ := List.mem_map.mp hline
  rw [h]
  exact Bool.false_ne_true

/-- Blank lines aside, nothing follows the signature of a document. -/
private theorem noDataAfterSig_logical (foundSig : Bool) (lines : List KvEncLine) :
    validateNoDataAfterSig foundSig lines = validateNoDataAfterSig foundSig
      (logicalLines lines) := by
  induction lines generalizing foundSig with
  | nil => rfl
  | cons line lines ih =>
    cases line with
    | empty => exact ih foundSig
    | sig token => exact ih true
    | _ =>
      cases foundSig with
      | true => rfl
      | false => exact ih false

private theorem noDataAfterSig_entries (entries : List (String × String)) (sigToken : String) :
    validateNoDataAfterSig false ((entries.map fun e => .kv e.1 e.2) ++ [.sig sigToken])
      = .ok () := by
  induction entries with
  | nil => rfl
  | cons e entries ih => exact ih

/-- The required lines of a document are in place. -/
theorem headerLines_documentLines (headToken wrapToken : String)
    (entries : List (String × String)) (sigToken : String) :
    validateKvHeaderLines (documentLines headToken wrapToken entries sigToken) = .ok () := by
  have hlast : (documentLines headToken wrapToken entries sigToken)[
      (documentLines headToken wrapToken entries sigToken).length - 1]? = some (.sig sigToken) := by
    rw [← List.getLast?_eq_getElem?, documentLines, List.getLast?_concat]
  have hcount : ∀ p : KvEncLine → Bool, (∀ key token, p (.kv key token) = false) →
      (documentLines headToken wrapToken entries sigToken).filter p
        = [.header .v1, .head headToken, .wrap wrapToken, .sig sigToken].filter p := by
    intro p hp
    rw [documentLines, List.filter_append, List.filter_append, filter_entries_eq_nil entries hp,
      List.append_nil, ← List.filter_append]
    rfl
  refine bind_eq_ok.mpr ⟨(), ?_, bind_eq_ok.mpr ⟨(), ?_, bind_eq_ok.mpr ⟨(), ?_, ?_⟩⟩⟩
  · refine validateRequiredLine_of ?_ rfl rfl
    rw [hcount _ fun _ _ => rfl]
    rfl
  · refine validateRequiredLine_of ?_ rfl rfl
    rw [hcount _ fun _ _ => rfl]
    rfl
  · refine validateRequiredLine_of ?_ rfl rfl
    rw [hcount _ fun _ _ => rfl]
    rfl
  · refine validateRequiredLine_of ?_ hlast rfl
    rw [hcount _ fun _ _ => rfl]
    rfl

theorem logicalLines_documentLines (headToken wrapToken : String)
    (entries : List (String × String)) (sigToken : String) :
    logicalLines (documentLines headToken wrapToken entries sigToken)
      = documentLines headToken wrapToken entries sigToken := by
  rw [logicalLines, List.filter_eq_self]
  intro line hline
  rw [documentLines, List.mem_append, List.mem_append] at hline
  rcases hline with (hline | hline) | hline
  · simp only [List.mem_cons, List.not_mem_nil, or_false] at hline
    rcases hline with rfl | rfl | rfl <;> rfl
  · obtain ⟨e, _, rfl⟩ := List.mem_map.mp hline
    rfl
  · rw [List.mem_singleton] at hline
    subst hline
    rfl

/-- **LINES OF THE SHAPE ARE WELL STRUCTURED** as soon as the keys are valid and distinct,
    whatever blank lines stand between them. -/
theorem structure_of_shape {lines : List KvEncLine} {headToken wrapToken : String}
    {entries : List (String × String)} {sigToken : String}
    (hshape : logicalLines lines = documentLines headToken wrapToken entries sigToken)
    (hvalid : ∀ e ∈ entries, isValidKeyName e.1 = true)
    (hnodup : (entries.map Prod.fst).Nodup) : validateKvFileStructure lines = .ok () := by
  have hkeys := (validateKvKeysFrom_ok [] _ entries (filter_isKv_of_shape hshape)).mpr
    ⟨fun e he => ⟨hvalid e he, List.not_mem_nil⟩, hnodup⟩
  have hne : documentLines headToken wrapToken entries sigToken ≠ [] := nofun
  simp only [validateKvFileStructure, hshape, hne, if_false]
  refine bind_eq_ok.mpr ⟨(), ?_, bind_eq_ok.mpr ⟨(), ?_, hkeys⟩⟩
  · exact headerLines_documentLines headToken wrapToken entries sigToken
  · rw [noDataAfterSig_logical, hshape]
    exact noDataAfterSig_entries entries sigToken

/-- What the lines of a kv-enc document are, blank lines aside: the version header, HEAD, WRAP,
    the entries under valid and pairwise distinct names, and SIG at the end. -/
def WellStructured (lines : List KvEncLine) (entries : List (String × String)) : Prop :=
  (∃ headToken wrapToken sigToken,
    logicalLines lines = documentLines headToken wrapToken entries sigToken)
    ∧ (∀ e ∈ entries, isValidKeyName e.1 = true) ∧ (entries.map Prod.fst).Nodup

/-- The KEY lines of a document are its entries. -/
theorem keyCount_of_wellStructured {lines : List KvEncLine} {entries : List (String × String)}
    (h : WellStructured lines entries) : (lines.filter isKv).length = entries.length := by
  obtain ⟨⟨_, _, _, hshape⟩, _, _⟩ := h
  rw [filter_isKv_of_shape hshape, List.length_map]

/-- **THE STRUCTURE CHECK DECIDES THE GRAMMAR**: whatever the lines, the check passes exactly on
    the documents; and of the lines read from a text, exactly the documents with no more KEY
    lines than the limit get through the reader and the check. -/
theorem structure_accepts_iff :
    (∀ lines, validateKvFileStructure lines = .ok () ↔ ∃ entries, WellStructured lines entries)
      ∧ ∀ content lines,
          (parseAll content = .ok lines ∧ validateKvFileStructure lines = .ok ())
            ↔ content.utf8ByteSize ≤ maxKvEncFileSize
              ∧ parseLines (textLines content.toList) = .ok lines
              ∧ ∃ entries, WellStructured lines entries ∧ entries.length ≤ maxKvKeyLines := by
  have hiff : ∀ lines,
      validateKvFileStructure lines = .ok () ↔ ∃ entries, WellStructured lines entries := by
    intro lines
    constructor
    · intro h
      obtain ⟨headToken, wrapToken, entries, sigToken, hshape, hvalid, hnodup⟩ :=
        shape_of_structure h
      exact ⟨entries, ⟨headToken, wrapToken, sigToken, hshape⟩, hvalid, hnodup⟩
    · rintro ⟨entries, ⟨headToken, wrapToken, sigToken, hshape⟩, hvalid, hnodup⟩
      exact structure_of_shape hshape hvalid hnodup
  refine ⟨hiff, ?_⟩
  intro content lines
  rw [parseAll_ok, hiff]
  constructor
  · rintro ⟨⟨hsize, hlines, hcount⟩, entries, hentries⟩
    rw [keyCount_of_wellStructured hentries] at hcount
    exact ⟨hsize, hlines, entries, hentries, hcount⟩
  · rintro ⟨hsize, hlines, entries, hentries, hcount⟩
    rw [← keyCount_of_wellStructured hentries] at hcount
    exact ⟨⟨hsize, hlines, hcount⟩, entries, hentries⟩

/-! ## A line and its text -/

/-- The text of a line. -/
def lineText : KvEncLine → List Char
  | .header version => headerLinePrefix.toList ++ version.text.toList
  | .head token => ":HEAD ".toList ++ token.toList
  | .wrap token => ":WRAP ".toList ++ token.toList
  | .kv key token => key.toList ++ ' ' :: token.toList
  | .sig token => ":SIG ".toList ++ token.toList
  | .empty => []

@[simp] theorem lineText_head (token : String) :
    lineText (.head token) = ":HEAD ".toList ++ token.toList := rfl

@[simp] theorem lineText_wrap (token : String) :
    lineText (.wrap token) = ":WRAP ".toList ++ token.toList := rfl

@[simp] theorem lineText_kv (key token : String) :
    lineText (.kv key token) = key.toList ++ ' ' :: token.toList := rfl

@[simp] theorem lineText_sig (token : String) :
    lineText (.sig token) = ":SIG ".toList ++ token.toList := rfl

@[simp] theorem lineText_header (version : KvEncVersion) :
    lineText (.header version) = headerLinePrefix.toList ++ version.text.toList := rfl

private theorem eq_of_dropPrefix {line pre rest : List Char}
    (h : line.dropPrefix? pre = some rest) : line = pre ++ rest := by
  obtain ⟨pre', hline, heq⟩ := List.dropPrefix?_eq_some_iff.mp h
  rw [hline, eq_of_beq heq]

private theorem tokenLine_ok {tag : String} {token line : List Char}
    {build : String → KvEncLine} {l : KvEncLine}
    (h : parseTokenControlLine tag token line build = .ok l) :
    l = build (String.ofList token) ∧ token ≠ [] := by
  rw [parseTokenControlLine] at h
  split at h
  · cases h
  · exact ⟨(Except.ok.inj h).symm, ‹_›⟩

private theorem lineText_parseControlLine {line : List Char} {l : KvEncLine}
    (h : parseControlLine line = .ok l) : lineText l = line := by
  rw [parseControlLine] at h
  split at h
  · rename_i versionText hprefix
    rw [parseHeaderLine, KvEncVersion.parse] at h
    by_cases hversion : versionText = "1".toList
    · rw [if_pos hversion] at h
      rw [← Except.ok.inj h, eq_of_dropPrefix hprefix, hversion]
      rfl
    · rw [if_neg hversion] at h
      cases h
  · split at h
    · rename_i token hprefix
      rw [(tokenLine_ok h).1, eq_of_dropPrefix hprefix, lineText_head,
        String.toList_ofList (l := token)]
    · split at h
      · rename_i token hprefix
        rw [(tokenLine_ok h).1, eq_of_dropPrefix hprefix, lineText_wrap,
          String.toList_ofList (l := token)]
      · split at h
        · rename_i token hprefix
          rw [(tokenLine_ok h).1, eq_of_dropPrefix hprefix, lineText_sig,
            String.toList_ofList (l := token)]
        · cases h

/-- **A PARSED LINE HAS THE TEXT IT WAS PARSED FROM.** -/
theorem lineText_parseLine {line : List Char} {l : KvEncLine} (h : parseLine line = .ok l) :
    lineText l = line := by
  unfold parseLine at h
  split at h
  · rw [← Except.ok.inj h]
    rfl
  · cases h
  · exact lineText_parseControlLine h
  · split at h
    · rename_i key token hsplit
      rw [← Except.ok.inj h, lineText_kv, String.toList_ofList, String.toList_ofList]
      exact (eq_of_splitAtFirst hsplit).1.symm
    · cases h

theorem parseLines_ok {texts : List (List Char)} {lines : List KvEncLine}
    (h : parseLines texts = .ok lines) : lines.map lineText = texts := by
  induction texts generalizing lines with
  | nil =>
    rw [← Except.ok.inj h]
    rfl
  | cons text texts ih =>
    obtain ⟨l, hl, h⟩ := bind_eq_ok.mp h
    obtain ⟨ls, hls, h⟩ := bind_eq_ok.mp h
    rw [← Except.ok.inj h, List.map_cons, lineText_parseLine hl, ih hls]

/-- A line whose text reads back as the line. -/
def Readable (l : KvEncLine) : Prop :=
  parseLine (lineText l) = .ok l

theorem parseLines_map_lineText {lines : List KvEncLine} (h : ∀ l ∈ lines, Readable l) :
    parseLines (lines.map lineText) = .ok lines := by
  induction lines with
  | nil => rfl
  | cons l lines ih =>
    exact bind_eq_ok.mpr ⟨l, h l List.mem_cons_self,
      bind_eq_ok.mpr ⟨lines, ih fun k hk => h k (List.mem_cons_of_mem _ hk), rfl⟩⟩

/-- The lines of a parsed text are readable. -/
theorem readable_of_parseLines {texts : List (List Char)} {lines : List KvEncLine}
    (h : parseLines texts = .ok lines) : ∀ l ∈ lines, Readable l := by
  induction texts generalizing lines with
  | nil =>
    rw [← Except.ok.inj h]
    exact fun l hl => absurd hl List.not_mem_nil
  | cons text texts ih =>
    obtain ⟨l, hl, h⟩ := bind_eq_ok.mp h
    obtain ⟨ls, hls, h⟩ := bind_eq_ok.mp h
    rw [← Except.ok.inj h]
    intro k hk
    rcases List.mem_cons.mp hk with rfl | hk
    · rw [Readable, lineText_parseLine hl]
      exact hl
    · exact ih hls k hk

/-- Readable lines with one text are one line. -/
theorem lineText_injective {k l : KvEncLine} (hk : Readable k) (hl : Readable l)
    (h : lineText k = lineText l) : k = l := by
  rw [Readable, h, hl] at hk
  exact (Except.ok.inj hk).symm

/-- A readable line spells nothing only if it is blank. -/
theorem lineText_eq_nil {l : KvEncLine} (hl : Readable l) : lineText l = [] ↔ l = .empty := by
  constructor
  · intro h
    exact lineText_injective hl rfl h
  · rintro rfl
    rfl

theorem readable_header (version : KvEncVersion) : Readable (.header version) := by
  cases version
  rfl

private theorem dropPrefix_append (pre rest : List Char) :
    (pre ++ rest).dropPrefix? pre = some rest := by
  induction pre with
  | nil => cases rest <;> rfl
  | cons c pre ih =>
    rw [List.cons_append, List.dropPrefix?, if_pos (beq_self_eq_true c)]
    exact ih

private theorem token_ne_nil {token : String} (h : token ≠ "") : token.toList ≠ [] := by
  intro hnil
  exact h (String.toList_eq_nil_iff.mp hnil)

private theorem parseTokenControlLine_ok (tag : String) (line : List Char)
    (build : String → KvEncLine) {token : String} (h : token ≠ "") :
    parseTokenControlLine tag token.toList line build = .ok (build token) := by
  rw [parseTokenControlLine, if_neg (token_ne_nil h), String.ofList_toList]

theorem readable_head {token : String} (h : token ≠ "") : Readable (.head token) := by
  have hheader : (":HEAD ".toList ++ token.toList).dropPrefix? headerLinePrefix.toList = none := rfl
  have hline : parseLine (lineText (.head token))
      = parseControlLine (":HEAD ".toList ++ token.toList) := rfl
  rw [Readable, hline, parseControlLine, hheader, dropPrefix_append]
  exact parseTokenControlLine_ok "HEAD" _ .head h

theorem readable_wrap {token : String} (h : token ≠ "") : Readable (.wrap token) := by
  have hheader : (":WRAP ".toList ++ token.toList).dropPrefix? headerLinePrefix.toList = none := rfl
  have hhead : (":WRAP ".toList ++ token.toList).dropPrefix? ":HEAD ".toList = none := rfl
  have hline : parseLine (lineText (.wrap token))
      = parseControlLine (":WRAP ".toList ++ token.toList) := rfl
  rw [Readable, hline, parseControlLine, hheader, hhead, dropPrefix_append]
  exact parseTokenControlLine_ok "WRAP" _ .wrap h

theorem readable_sig {token : String} (h : token ≠ "") : Readable (.sig token) := by
  have hheader : (":SIG ".toList ++ token.toList).dropPrefix? headerLinePrefix.toList = none := rfl
  have hhead : (":SIG ".toList ++ token.toList).dropPrefix? ":HEAD ".toList = none := rfl
  have hwrap : (":SIG ".toList ++ token.toList).dropPrefix? ":WRAP ".toList = none := rfl
  have hline : parseLine (lineText (.sig token))
      = parseControlLine (":SIG ".toList ++ token.toList) := rfl
  rw [Readable, hline, parseControlLine, hheader, hhead, hwrap, dropPrefix_append]
  exact parseTokenControlLine_ok "SIG" _ .sig h

/-- A readable line starts like a signature line only if it is one. -/
theorem dropPrefix_sig {l : KvEncLine} (hl : Readable l) :
    (lineText l).dropPrefix? ":SIG ".toList = none ↔ isSig l = false := by
  constructor
  · intro h
    cases l with
    | sig token =>
      rw [lineText_sig, dropPrefix_append] at h
      cases h
    | _ => rfl
  · intro h
    cases hdrop : (lineText l).dropPrefix? ":SIG ".toList with
    | none => rfl
    | some token =>
      -- the text starts with `:SIG `, so the parser made a signature line of it
      have htext := eq_of_dropPrefix hdrop
      have hheader : (":SIG ".toList ++ token).dropPrefix? headerLinePrefix.toList = none := rfl
      have hhead : (":SIG ".toList ++ token).dropPrefix? ":HEAD ".toList = none := rfl
      have hwrap : (":SIG ".toList ++ token).dropPrefix? ":WRAP ".toList = none := rfl
      have hline : parseLine (":SIG ".toList ++ token)
          = parseControlLine (":SIG ".toList ++ token) := rfl
      rw [Readable, htext, hline, parseControlLine, hheader, hhead, hwrap, dropPrefix_append] at hl
      rw [(tokenLine_ok hl).1] at h
      cases h

/-- A valid key name holds no space and does not open a control line or a comment. -/
theorem isValidKeyName_cons {key : String} (h : isValidKeyName key = true) :
    ∃ first rest, key.toList = first :: rest ∧ first ≠ ':' ∧ first ≠ '#'
      ∧ ∀ c ∈ key.toList, isKeyChar c = true := by
  rw [isValidKeyName] at h
  cases hkey : key.toList with
  | nil => rw [hkey] at h; cases h
  | cons first rest =>
    rw [hkey] at h
    obtain ⟨hstart, hrest⟩ := Bool.and_eq_true_iff.mp h
    have hfirst : isKeyChar first = true := by
      rw [isKeyStart, Bool.or_eq_true] at hstart
      rw [isKeyChar, Char.isAlphanum]
      rcases hstart with halpha | hunder
      · rw [halpha]
        rfl
      · rw [hunder, Bool.or_true]
    refine ⟨first, rest, rfl, ?_, ?_, ?_⟩
    · rintro rfl
      exact absurd hfirst (by decide)
    · rintro rfl
      exact absurd hfirst (by decide)
    · intro c hc
      rcases List.mem_cons.mp hc with rfl | hc
      · exact hfirst
      · exact List.all_eq_true.mp hrest c hc

theorem readable_kv {key : String} (token : String) (h : isValidKeyName key = true) :
    Readable (.kv key token) := by
  obtain ⟨first, rest, hkey, hcolon, hhash, hchars⟩ := isValidKeyName_cons h
  have hspace : ' ' ∉ key.toList := fun hmem => absurd (hchars _ hmem) (by decide)
  have hsplit := splitAtFirst_append token.toList hspace
  have htext : lineText (.kv key token) = first :: (rest ++ ' ' :: token.toList) := by
    rw [lineText_kv, hkey]
    rfl
  rw [Readable, htext]
  unfold parseLine
  split
  · rename_i heq
    cases heq
  · rename_i heq
    exact absurd (List.cons.inj heq).1 hhash
  · rename_i heq
    exact absurd (List.cons.inj heq).1 hcolon
  · have hline : first :: (rest ++ ' ' :: token.toList) = key.toList ++ ' ' :: token.toList := by
      rw [hkey]
      rfl
    rw [hline, hsplit]
    show Except.ok (KvEncLine.kv (String.ofList key.toList) (String.ofList token.toList)) = _
    rw [String.ofList_toList, String.ofList_toList]

/-- Every line of a written document reads back. -/
theorem readable_documentLines {headToken wrapToken sigToken : String}
    {entries : List (String × String)} (hhead : headToken ≠ "") (hwrap : wrapToken ≠ "")
    (hsig : sigToken ≠ "") (hvalid : ∀ e ∈ entries, isValidKeyName e.1 = true) :
    ∀ l ∈ documentLines headToken wrapToken entries sigToken, Readable l := by
  intro l hl
  rw [documentLines, List.mem_append, List.mem_append] at hl
  rcases hl with (hl | hl) | hl
  · simp only [List.mem_cons, List.not_mem_nil, or_false] at hl
    rcases hl with rfl | rfl | rfl
    · exact readable_header .v1
    · exact readable_head hhead
    · exact readable_wrap hwrap
  · obtain ⟨e, he, rfl⟩ := List.mem_map.mp hl
    exact readable_kv e.2 (hvalid e he)
  · rw [List.mem_singleton] at hl
    subst hl
    exact readable_sig hsig

/-! ## Lines that stay lines -/

/-- A text that can stand on a line: no line feed, and no carriage return at its end. -/
def lineSafe (text : List Char) : Prop :=
  '\n' ∉ text ∧ text.getLast? ≠ some '\r'

/-- A nonempty token keeps a line safe. -/
theorem lineSafe_append {pre token : List Char} (hpre : '\n' ∉ pre) (hne : token ≠ [])
    (htoken : ∀ c ∈ token, isBase64urlChar c = true) : lineSafe (pre ++ token) := by
  constructor
  · intro hmem
    rcases List.mem_append.mp hmem with h | h
    · exact hpre h
    · exact absurd (htoken _ h) (by decide)
  · rw [List.getLast?_append_of_ne_nil _ hne]
    intro hlast
    have hmem : '\r' ∈ token := List.mem_of_getLast? hlast
    exact absurd (htoken _ hmem) (by decide)

/-- Every line of a written document stays one line, as long as its tokens are tokens. -/
theorem lineSafe_documentLines {headToken wrapToken sigToken : String}
    {entries : List (String × String)} (hvalid : ∀ e ∈ entries, isValidKeyName e.1 = true)
    (htokens : ∀ token ∈ headToken :: wrapToken :: sigToken :: entries.map Prod.snd,
      token ≠ "" ∧ ∀ c ∈ token.toList, isBase64urlChar c = true) :
    ∀ l ∈ documentLines headToken wrapToken entries sigToken, lineSafe (lineText l) := by
  have hne : ∀ token ∈ headToken :: wrapToken :: sigToken :: entries.map Prod.snd,
      token.toList ≠ [] := fun token hmem => token_ne_nil (htokens token hmem).1
  have hcontrol : ∀ (tag token : String), '\n' ∉ tag.toList →
      token ∈ headToken :: wrapToken :: sigToken :: entries.map Prod.snd →
      lineSafe (tag.toList ++ token.toList) := fun tag token htag hmem =>
    lineSafe_append htag (hne token hmem) (htokens token hmem).2
  intro l hl
  rw [documentLines, List.mem_append, List.mem_append] at hl
  rcases hl with (hl | hl) | hl
  · simp only [List.mem_cons, List.not_mem_nil, or_false] at hl
    rcases hl with rfl | rfl | rfl
    · constructor <;> decide
    · exact hcontrol ":HEAD " headToken (by decide) List.mem_cons_self
    · exact hcontrol ":WRAP " wrapToken (by decide) (List.mem_cons_of_mem _ List.mem_cons_self)
  · obtain ⟨e, he, rfl⟩ := List.mem_map.mp hl
    have hmem : e.2 ∈ headToken :: wrapToken :: sigToken :: entries.map Prod.snd :=
      List.mem_cons_of_mem _ (List.mem_cons_of_mem _ (List.mem_cons_of_mem _
        (List.mem_map_of_mem he)))
    obtain ⟨_, _, _, _, _, hchars⟩ := isValidKeyName_cons (hvalid e he)
    have hline : lineText (.kv e.1 e.2) = (e.1.toList ++ [' ']) ++ e.2.toList := by simp
    rw [hline]
    refine lineSafe_append ?_ (hne e.2 hmem) (htokens e.2 hmem).2
    intro hfeed
    rcases List.mem_append.mp hfeed with h | h
    · exact absurd (hchars _ h) (by decide)
    · exact absurd (List.mem_singleton.mp h) (by decide)
  · rw [List.mem_singleton] at hl
    subst hl
    exact hcontrol ":SIG " sigToken (by decide)
      (List.mem_cons_of_mem _ (List.mem_cons_of_mem _ List.mem_cons_self))

end KvLines
