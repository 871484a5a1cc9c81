import Kapsaro.KvLines

/-!
# KV document — parsing, canonical bytes, and the writer

`format/kv/document/parse.rs`, `format/kv/enc/canonical.rs` and `format/kv/enc/writer.rs`: the
parsed kv-enc document, the bytes its signature and its key-possession MAC cover, and the text
a writer makes.

* **`parseKvDocument`** — lines, structure, tokens, HEAD and WRAP.
* **`buildCanonicalBytes`** — every line but SIG and blank ones.
* **`buildUnsignedKvDocument`**, **`signedText`** — the written text.
* **`Accepted`** — what acceptance of a text means; **`accepted_of_parse`** and
  **`parse_of_accepted`** show that it is exactly that.
* **`parse_signedText`** — a written text is accepted as soon as its tokens are.
-/

namespace KvDocument

open JsonText Limits TextLines Base64Codec WireTexts WireModel DocumentTokens KvLines

/-! ## Tokens of a document -/

/-- The name of a token in messages. -/
def tokenSource (sourceName tokenName : String) : String :=
  if sourceName = tokenName then tokenName else s!"{sourceName} ({tokenName})"

def parseKvHeadTokenWithSource (token sourceName : String) : Except Error KvHeader :=
  parseJsonToken KvHeader.schema KvHeader.fromJson "HEAD token" sourceName token

/-- A WRAP token; its items are checked beyond the schema. -/
def parseKvWrapTokenWithSource (token sourceName : String) : Except Error KvWrap := do
  let wrap ← parseJsonToken KvWrap.schema KvWrap.fromJson "WRAP token" sourceName token
  validateWrapItems wrap.wrap "WRAP token"
  pure wrap

/-- A WRAP token that is not attached to a named document. -/
def parseKvWrapToken (token : String) : Except Error KvWrap :=
  parseKvWrapTokenWithSource token "WRAP token"

def parseKvEntryTokenWithSource (token sourceName : String) : Except Error KvEntryValue :=
  parseJsonToken KvEntryValue.schema KvEntryValue.fromJson "KV entry token" sourceName token

def parseKvSignatureTokenWithSource (token sourceName : String) :
    Except Error ArtifactSignature :=
  parseJsonToken ArtifactSignature.schema ArtifactSignature.fromJson "SIG token" sourceName token

/-- An entry with its token and what the token says. -/
structure KvEncEntry where
  key : String
  token : String
  value : KvEntryValue
deriving DecidableEq, Repr

/-- Check one entry token. -/
def validateEntryToken (key token sourceName : String) : Except Error KvEncEntry :=
  match parseKvEntryTokenWithSource token (tokenSource sourceName "KV entry token") with
  | .ok value => .ok { key, token, value }
  | .error e => .error (.parse
      s!"Invalid KV entry token structure for key '{key}': {e.display}")

/-- Check the WRAP, entry and SIG tokens in the order of their lines, collecting the entries
    and the signature. -/
def validateTokensFrom (sourceName : String) (entries : List KvEncEntry)
    (signature : Option ArtifactSignature) :
    List KvEncLine → Except Error (List KvEncEntry × Option ArtifactSignature)
  | [] => .ok (entries, signature)
  | .wrap token :: rest => do
    let _ ← parseKvWrapTokenWithSource token (tokenSource sourceName "WRAP token")
    validateTokensFrom sourceName entries signature rest
  | .kv key token :: rest => do
    let entry ← validateEntryToken key token sourceName
    validateTokensFrom sourceName (entries ++ [entry]) signature rest
  | .sig token :: rest => do
    let parsed ← parseKvSignatureTokenWithSource token (tokenSource sourceName "SIG token")
    validateTokensFrom sourceName entries (some parsed) rest
  -- the header line has no token, and the token of the head is read on its own
  | _ :: rest => validateTokensFrom sourceName entries signature rest

/-- The entries and the signature of a document. -/
def validateKvTokens (lines : List KvEncLine) (sourceName : String) :
    Except Error (List KvEncEntry × ArtifactSignature) := do
  let (entries, signature) ← validateTokensFrom sourceName [] none lines
  match signature with
  | some signature => pure (entries, signature)
  | none => throw (.crypto "kv-enc v1 has no SIG line (v9 requires signatures)")

def headTokenOf : KvEncLine → Option String
  | .head token => some token
  | _ => none

def wrapTokenOf : KvEncLine → Option String
  | .wrap token => some token
  | _ => none

/-- The HEAD and the WRAP token. -/
def extractKvHeaderTokens (lines : List KvEncLine) : Except Error (String × String) :=
  match lines.findSome? headTokenOf with
  | none => .error (formatParseError "HEAD line not found in kv-enc v1")
  | some headToken =>
    match lines.findSome? wrapTokenOf with
    | none => .error (formatParseError "WRAP line not found in kv-enc v1")
    | some wrapToken => .ok (headToken, wrapToken)

/-- A parsed kv-enc document. -/
structure KvEncDocument where
  lines : List KvEncLine
  head : KvHeader
  wrap : KvWrap
  wrapToken : String
  entries : List KvEncEntry
  signature : ArtifactSignature
deriving DecidableEq

/-- Parse a kv-enc text that is named in messages. -/
def parseKvDocumentWithSource (content sourceName : String) : Except Error KvEncDocument := do
  let lines ← parseAll content
  validateKvFileStructure lines
  let (entries, signature) ← validateKvTokens lines sourceName
  let (headToken, wrapToken) ← extractKvHeaderTokens lines
  let head ← parseKvHeadTokenWithSource headToken (tokenSource sourceName "HEAD token")
  let wrap ← parseKvWrapTokenWithSource wrapToken (tokenSource sourceName "WRAP token")
  pure { lines, head, wrap, wrapToken, entries, signature }

/-- Parse a kv-enc text. -/
def parseKvDocument (content : String) : Except Error KvEncDocument :=
  parseKvDocumentWithSource content "kv-enc content"

/-! ## Canonical bytes and the writer -/

/-- A line as the canonical bytes hold it: SIG and blank lines are left out. -/
def canonicalLine : KvEncLine → List (List Char)
  | .header version => [headerLinePrefix.toList ++ version.text.toList]
  | .head token => [":HEAD ".toList ++ token.toList]
  | .wrap token => [":WRAP ".toList ++ token.toList]
  | .kv key token => [key.toList ++ ' ' :: token.toList]
  | .sig _ => []
  | .empty => []

/-- The text whose bytes the signature covers. -/
def canonicalText (lines : List KvEncLine) : String :=
  String.ofList (joinLines (lines.flatMap canonicalLine))

/-- The bytes the signature and the key-possession MAC cover. -/
def buildCanonicalBytes (lines : List KvEncLine) : Bytes :=
  utf8 (canonicalText lines)

/-- The text of a document before its signature. -/
def buildUnsignedKvDocument (headToken wrapToken : String) (entries : List (String × String)) :
    String :=
  String.ofList (headerLineV1.toList ++ '\n' ::
    (":HEAD ".toList ++ headToken.toList ++ '\n' ::
      (":WRAP ".toList ++ wrapToken.toList ++ '\n' ::
        entries.flatMap fun e => e.1.toList ++ ' ' :: e.2.toList ++ ['\n'])))

/-- The text of a signed document: the signature line follows what it signs. -/
def signedText (unsigned sigToken : String) : String :=
  unsigned ++ ":SIG " ++ sigToken ++ "\n"

/-- The lines of a document that its signature covers. -/
def unsignedLines (headToken wrapToken : String) (entries : List (String × String)) :
    List KvEncLine :=
  [.header .v1, .head headToken, .wrap wrapToken] ++ entries.map fun e => .kv e.1 e.2

theorem documentLines_eq (headToken wrapToken : String) (entries : List (String × String))
    (sigToken : String) :
    documentLines headToken wrapToken entries sigToken
      = unsignedLines headToken wrapToken entries ++ [.sig sigToken] := rfl

/-- The writer writes the lines of the document. -/
theorem buildUnsigned_eq (headToken wrapToken : String) (entries : List (String × String)) :
    buildUnsignedKvDocument headToken wrapToken entries
      = String.ofList (joinLines ((unsignedLines headToken wrapToken entries).map lineText)) := by
  have hentries : joinLines ((entries.map fun e => KvEncLine.kv e.1 e.2).map lineText)
      = entries.flatMap fun e => e.1.toList ++ ' ' :: e.2.toList ++ ['\n'] := by
    induction entries with
    | nil => rfl
    | cons e entries ih =>
      rw [List.map_cons, List.map_cons, joinLines_cons, ih, List.flatMap_cons, lineText_kv]
      simp
  rw [buildUnsignedKvDocument, unsignedLines, List.map_append, joinLines_append, hentries]
  simp only [List.map_cons, List.map_nil, joinLines_cons, joinLines_nil, lineText_header,
    lineText_head, lineText_wrap]
  refine congrArg String.ofList ?_
  have hheader : headerLineV1.toList = headerLinePrefix.toList ++ KvEncVersion.v1.text.toList := by
    decide
  rw [hheader]
  simp

theorem signedText_eq (headToken wrapToken : String) (entries : List (String × String))
    (sigToken : String) :
    signedText (buildUnsignedKvDocument headToken wrapToken entries) sigToken
      = String.ofList
          (joinLines ((documentLines headToken wrapToken entries sigToken).map lineText)) := by
  rw [signedText, buildUnsigned_eq, documentLines_eq, List.map_append, joinLines_append,
    ← String.toList_inj]
  simp

/-- What the canonical bytes keep of a document's lines. -/
theorem flatMap_canonicalLine (lines : List KvEncLine) :
    lines.flatMap canonicalLine
      = ((logicalLines lines).filter fun l => !isSig l).map lineText := by
  induction lines with
  | nil => rfl
  | cons line lines ih =>
    rw [List.flatMap_cons, ih]
    cases line <;> rfl

theorem unsigned_no_sig (headToken wrapToken : String) (entries : List (String × String)) :
    ∀ l ∈ unsignedLines headToken wrapToken entries, isSig l = false := by
  intro l hl
  rw [unsignedLines, List.mem_append] at hl
  rcases hl with hl | hl
  · simp only [List.mem_cons, List.not_mem_nil, or_false] at hl
    rcases hl with rfl | rfl | rfl <;> rfl
  · obtain ⟨e, _, rfl⟩ := List.mem_map.mp hl
    rfl

/-- **THE CANONICAL TEXT OF A DOCUMENT IS ITS UNSIGNED TEXT**, whatever blank lines and line
    endings it was read with. -/
theorem canonicalText_of_shape {lines : List KvEncLine} {headToken wrapToken sigToken : String}
    {entries : List (String × String)}
    (h : logicalLines lines = documentLines headToken wrapToken entries sigToken) :
    canonicalText lines = buildUnsignedKvDocument headToken wrapToken entries := by
  have hkeep : (unsignedLines headToken wrapToken entries).filter (fun l => !isSig l)
      = unsignedLines headToken wrapToken entries := by
    rw [List.filter_eq_self]
    intro l hl
    rw [unsigned_no_sig headToken wrapToken entries l hl]
    rfl
  have hdrop : [KvEncLine.sig sigToken].filter (fun l => !isSig l) = [] := rfl
  rw [canonicalText, flatMap_canonicalLine, h, documentLines_eq, List.filter_append, hkeep, hdrop,
    List.append_nil, buildUnsigned_eq]

/-- The lines of a document say what it was written from. -/
theorem documentLines_injective {headA wrapA sigA headB wrapB sigB : String}
    {entriesA entriesB : List (String × String)}
    (h : documentLines headA wrapA entriesA sigA = documentLines headB wrapB entriesB sigB) :
    headA = headB ∧ wrapA = wrapB ∧ entriesA = entriesB ∧ sigA = sigB := by
  rw [documentLines_eq, documentLines_eq] at h
  obtain ⟨hlines, hsig⟩ := List.append_inj' h rfl
  simp only [unsignedLines, List.cons_append, List.nil_append, List.cons.injEq,
    KvEncLine.head.injEq, KvEncLine.wrap.injEq, true_and] at hlines
  obtain ⟨hhead, hwrap, hentries⟩ := hlines
  refine ⟨hhead, hwrap, ?_, KvEncLine.sig.inj (List.cons.inj hsig).1⟩
  refine List.map_injective_iff.mpr ?_ hentries
  rintro ⟨k, t⟩ ⟨k', t'⟩ heq
  obtain ⟨rfl, rfl⟩ := KvEncLine.kv.inj heq
  rfl

/-! ## What acceptance means -/

/-- A text with what the parser makes of it. -/
structure Accepted (content : String) (doc : KvEncDocument) (headToken sigToken : String) : Prop
    where
  size : content.utf8ByteSize ≤ maxKvEncFileSize
  lines : parseLines (textLines content.toList) = .ok doc.lines
  shape : logicalLines doc.lines = documentLines headToken doc.wrapToken
    (doc.entries.map fun e => (e.key, e.token)) sigToken
  count : doc.entries.length ≤ maxKvKeyLines
  keys : ∀ e ∈ doc.entries, isValidKeyName e.key = true
  distinct : (doc.entries.map KvEncEntry.key).Nodup
  head : parseKvHeadTokenWithSource headToken "HEAD token" = .ok doc.head
  wrap : parseKvWrapToken doc.wrapToken = .ok doc.wrap
  entries : ∀ e ∈ doc.entries, parseKvEntryTokenWithSource e.token "KV entry token" = .ok e.value
  signature : parseKvSignatureTokenWithSource sigToken "SIG token" = .ok doc.signature

theorem parseKvWrapToken_names {token sourceName : String} {wrap : KvWrap}
    (sourceName' : String) (h : parseKvWrapTokenWithSource token sourceName = .ok wrap) :
    parseKvWrapTokenWithSource token sourceName' = .ok wrap := by
  obtain ⟨w, hparse, h⟩ := bind_eq_ok.mp h
  exact bind_eq_ok.mpr ⟨w, parseJsonToken_names _ _ hparse, h⟩

theorem validateEntryToken_ok {key token sourceName : String} {entry : KvEncEntry} :
    validateEntryToken key token sourceName = .ok entry
      ↔ entry.key = key ∧ entry.token = token
        ∧ parseKvEntryTokenWithSource token "KV entry token" = .ok entry.value := by
  rw [validateEntryToken]
  constructor
  · intro h
    split at h
    · rename_i value hvalue
      obtain rfl := Except.ok.inj h
      exact ⟨rfl, rfl, parseJsonToken_names _ _ hvalue⟩
    · cases h
  · rintro ⟨rfl, rfl, hvalue⟩
    have hnamed : parseKvEntryTokenWithSource entry.token (tokenSource sourceName "KV entry token")
        = .ok entry.value := parseJsonToken_names _ _ hvalue
    rw [hnamed]

/-- The loop over the tokens of a well-shaped document. -/
private theorem validateTokensFrom_entries (sourceName : String) (entries : List (String × String))
    (seen collected : List KvEncEntry) (signature : ArtifactSignature) (sigToken : String) :
    validateTokensFrom sourceName seen none
        ((entries.map fun e => .kv e.1 e.2) ++ [.sig sigToken]) = .ok (collected, some signature)
      ↔ ∃ parsed : List KvEncEntry, collected = seen ++ parsed
          ∧ parsed.map (fun e => (e.key, e.token)) = entries
          ∧ (∀ e ∈ parsed, parseKvEntryTokenWithSource e.token "KV entry token" = .ok e.value)
          ∧ parseKvSignatureTokenWithSource sigToken "SIG token" = .ok signature := by
  induction entries generalizing seen with
  | nil =>
    constructor
    · intro h
      obtain ⟨sig, hsig, h⟩ := bind_eq_ok.mp h
      obtain ⟨rfl, hsome⟩ := Prod.mk.inj (Except.ok.inj h)
      obtain rfl := Option.some.inj hsome
      exact ⟨[], (List.append_nil _).symm, rfl, fun e he => absurd he List.not_mem_nil,
        parseJsonToken_names _ _ hsig⟩
    · rintro ⟨parsed, rfl, hmap, _, hsig⟩
      rw [List.map_eq_nil_iff] at hmap
      subst hmap
      exact bind_eq_ok.mpr ⟨signature, parseJsonToken_names _ _ hsig, by rw [List.append_nil]; rfl⟩
  | cons e entries ih =>
    constructor
    · intro h
      obtain ⟨entry, hentry, h⟩ := bind_eq_ok.mp h
      obtain ⟨hkey, htoken, hvalue⟩ := validateEntryToken_ok.mp hentry
      obtain ⟨parsed, rfl, hmap, hvalues, hsig⟩ := (ih (seen ++ [entry])).mp h
      refine ⟨entry :: parsed, by simp, ?_, ?_, hsig⟩
      · rw [List.map_cons, hmap, hkey, htoken]
      · intro f hf
        rcases List.mem_cons.mp hf with rfl | hf
        · rw [htoken]
          exact hvalue
        · exact hvalues f hf
    · rintro ⟨parsed, rfl, hmap, hvalues, hsig⟩
      cases parsed with
      | nil => cases hmap
      | cons entry parsed =>
        rw [List.map_cons] at hmap
        obtain ⟨hhead, htail⟩ := List.cons.inj hmap
        obtain ⟨hkey, htoken⟩ := Prod.mk.inj hhead
        refine bind_eq_ok.mpr ⟨entry, validateEntryToken_ok.mpr ⟨hkey, htoken, ?_⟩, ?_⟩
        · rw [← htoken]
          exact hvalues entry List.mem_cons_self
        · refine (ih (seen ++ [entry])).mpr ⟨parsed, by simp, htail, ?_, hsig⟩
          exact fun f hf => hvalues f (List.mem_cons_of_mem _ hf)

/-- The loop passes over blank lines. -/
private theorem validateTokensFrom_logical (sourceName : String) (seen : List KvEncEntry)
    (signature : Option ArtifactSignature) (lines : List KvEncLine) :
    validateTokensFrom sourceName seen signature lines
      = validateTokensFrom sourceName seen signature (logicalLines lines) := by
  induction lines generalizing seen signature with
  | nil => rfl
  | cons line lines ih =>
    cases line with
    | empty => exact ih seen signature
    | header version => exact ih seen signature
    | head token => exact ih seen signature
    | wrap token =>
      show (parseKvWrapTokenWithSource token (tokenSource sourceName "WRAP token") >>= fun _ =>
          validateTokensFrom sourceName seen signature lines)
        = (parseKvWrapTokenWithSource token (tokenSource sourceName "WRAP token") >>= fun _ =>
          validateTokensFrom sourceName seen signature (logicalLines lines))
      rw [ih]
    | kv key token =>
      show (validateEntryToken key token sourceName >>= fun entry =>
          validateTokensFrom sourceName (seen ++ [entry]) signature lines)
        = (validateEntryToken key token sourceName >>= fun entry =>
          validateTokensFrom sourceName (seen ++ [entry]) signature (logicalLines lines))
      exact congrArg _ (funext fun entry => ih (seen ++ [entry]) signature)
    | sig token =>
      show (parseKvSignatureTokenWithSource token (tokenSource sourceName "SIG token") >>=
          fun parsed => validateTokensFrom sourceName seen (some parsed) lines)
        = (parseKvSignatureTokenWithSource token (tokenSource sourceName "SIG token") >>=
          fun parsed => validateTokensFrom sourceName seen (some parsed) (logicalLines lines))
      exact congrArg _ (funext fun parsed => ih seen (some parsed))

/-- The tokens of a well-shaped document pass exactly when each of them parses. -/
theorem validateKvTokens_ok {lines : List KvEncLine} {headToken wrapToken sigToken : String}
    {entries : List (String × String)} {collected : List KvEncEntry}
    {signature : ArtifactSignature} (sourceName : String)
    (hshape : logicalLines lines = documentLines headToken wrapToken entries sigToken) :
    validateKvTokens lines sourceName = .ok (collected, signature)
      ↔ (∃ wrap, parseKvWrapToken wrapToken = .ok wrap)
        ∧ collected.map (fun e => (e.key, e.token)) = entries
        ∧ (∀ e ∈ collected, parseKvEntryTokenWithSource e.token "KV entry token" = .ok e.value)
        ∧ parseKvSignatureTokenWithSource sigToken "SIG token" = .ok signature := by
  have hloop : validateTokensFrom sourceName [] none lines
      = (parseKvWrapTokenWithSource wrapToken (tokenSource sourceName "WRAP token") >>= fun _ =>
          validateTokensFrom sourceName [] none
            ((entries.map fun e => .kv e.1 e.2) ++ [.sig sigToken])) := by
    rw [validateTokensFrom_logical, hshape]
    rfl
  constructor
  · intro h
    obtain ⟨⟨found, sig⟩, hfound, h⟩ := bind_eq_ok.mp h
    cases sig with
    | none => cases h
    | some sig =>
      obtain ⟨rfl, rfl⟩ := Prod.mk.inj (Except.ok.inj h)
      rw [hloop] at hfound
      obtain ⟨wrap, hwrap, hfound⟩ := bind_eq_ok.mp hfound
      obtain ⟨parsed, hparsed, hmap, hvalues, hsig⟩ :=
        (validateTokensFrom_entries sourceName entries [] found sig sigToken).mp hfound
      rw [List.nil_append] at hparsed
      subst hparsed
      exact ⟨⟨wrap, parseKvWrapToken_names _ hwrap⟩, hmap, hvalues, hsig⟩
  · rintro ⟨⟨wrap, hwrap⟩, hmap, hvalues, hsig⟩
    refine bind_eq_ok.mpr ⟨(collected, some signature), ?_, rfl⟩
    rw [hloop]
    exact bind_eq_ok.mpr ⟨wrap, parseKvWrapToken_names _ hwrap,
      (validateTokensFrom_entries sourceName entries [] collected signature sigToken).mpr
        ⟨collected, rfl, hmap, hvalues, hsig⟩⟩

private theorem findSome_logical {f : KvEncLine → Option String} (hf : f .empty = none)
    (lines : List KvEncLine) : lines.findSome? f = (logicalLines lines).findSome? f := by
  induction lines with
  | nil => rfl
  | cons line lines ih =>
    by_cases hline : line = .empty
    · subst hline
      rw [List.findSome?_cons, hf]
      exact ih
    · have hkeep : logicalLines (line :: lines) = line :: logicalLines lines := by
        rw [logicalLines, List.filter_cons_of_pos (by simpa using hline)]
        rfl
      rw [hkeep, List.findSome?_cons, List.findSome?_cons, ih]

/-- The HEAD and the WRAP token of a well-shaped document. -/
theorem extractKvHeaderTokens_of_shape {lines : List KvEncLine}
    {headToken wrapToken sigToken : String} {entries : List (String × String)}
    (hshape : logicalLines lines = documentLines headToken wrapToken entries sigToken) :
    extractKvHeaderTokens lines = .ok (headToken, wrapToken) := by
  rw [extractKvHeaderTokens, findSome_logical rfl, findSome_logical (f := wrapTokenOf) rfl, hshape]
  rfl

/-- **ACCEPTED DOCUMENTS ARE WELL FORMED**: shape, keys, limits, and every token. -/
theorem accepted_of_parse {content sourceName : String} {doc : KvEncDocument}
    (h : parseKvDocumentWithSource content sourceName = .ok doc) :
    ∃ headToken sigToken, Accepted content doc headToken sigToken := by
  obtain ⟨lines, hlines, h⟩ := bind_eq_ok.mp h
  obtain ⟨_, hstructure, h⟩ := bind_eq_ok.mp h
  obtain ⟨⟨entries, signature⟩, htokens, h⟩ := bind_eq_ok.mp h
  obtain ⟨⟨headToken, wrapToken⟩, hextract, h⟩ := bind_eq_ok.mp h
  obtain ⟨head, hhead, h⟩ := bind_eq_ok.mp h
  obtain ⟨wrap, hwrap, h⟩ := bind_eq_ok.mp h
  obtain rfl := Except.ok.inj h
  obtain ⟨hsize, hparse, hcount⟩ := parseAll_ok.mp hlines
  obtain ⟨headToken', wrapToken', pairs, sigToken, hshape, hvalid, hnodup⟩ :=
    shape_of_structure hstructure
  rw [extractKvHeaderTokens_of_shape hshape] at hextract
  obtain ⟨rfl, rfl⟩ := Prod.mk.inj (Except.ok.inj hextract)
  obtain ⟨_, hmap, hvalues, hsig⟩ := (validateKvTokens_ok sourceName hshape).mp htokens
  have hkeys : entries.map KvEncEntry.key = pairs.map Prod.fst := by
    rw [← hmap, List.map_map]
    rfl
  refine ⟨headToken', sigToken, ?_⟩
  constructor
  · exact hsize
  · exact hparse
  · rw [hmap]
    exact hshape
  · rw [filter_isKv_of_shape hshape, List.length_map, ← hmap, List.length_map] at hcount
    exact hcount
  · intro e he
    have hmem : (e.key, e.token) ∈ pairs := hmap ▸ List.mem_map_of_mem he
    exact hvalid _ hmem
  · rw [hkeys]
    exact hnodup
  · exact parseJsonToken_names _ _ hhead
  · exact parseKvWrapToken_names _ hwrap
  · exact hvalues
  · exact hsig

/-- **AND WELL-FORMED DOCUMENTS ARE ACCEPTED**, under any name. -/
theorem parse_of_accepted {content : String} {doc : KvEncDocument} {headToken sigToken : String}
    (sourceName : String) (h : Accepted content doc headToken sigToken) :
    parseKvDocumentWithSource content sourceName = .ok doc := by
  have hkeys : ((doc.entries.map fun e => (e.key, e.token)).map Prod.fst)
      = doc.entries.map KvEncEntry.key := by
    rw [List.map_map]
    rfl
  refine bind_eq_ok.mpr ⟨doc.lines, parseAll_ok.mpr ⟨h.size, h.lines, ?_⟩, ?_⟩
  · rw [filter_isKv_of_shape h.shape, List.length_map, List.length_map]
    exact h.count
  · refine bind_eq_ok.mpr ⟨(), structure_of_shape h.shape ?_ ?_, ?_⟩
    · intro e he
      obtain ⟨f, hf, rfl⟩ := List.mem_map.mp he
      exact h.keys f hf
    · rw [hkeys]
      exact h.distinct
    · refine bind_eq_ok.mpr ⟨(doc.entries, doc.signature), ?_, ?_⟩
      · exact (validateKvTokens_ok sourceName h.shape).mpr
          ⟨⟨doc.wrap, h.wrap⟩, rfl, h.entries, h.signature⟩
      · exact bind_eq_ok.mpr ⟨_, extractKvHeaderTokens_of_shape h.shape,
          bind_eq_ok.mpr ⟨_, parseJsonToken_names _ _ h.head,
            bind_eq_ok.mpr ⟨_, parseKvWrapToken_names _ h.wrap, rfl⟩⟩⟩

/-! ## Written documents -/

/-- The text of a written document has the lines it was written from. -/
theorem parseLines_signedText {headToken wrapToken sigToken : String}
    {entries : List (String × String)} (hvalid : ∀ e ∈ entries, isValidKeyName e.1 = true)
    (htokens : ∀ token ∈ headToken :: wrapToken :: sigToken :: entries.map Prod.snd,
      token ≠ "" ∧ ∀ c ∈ token.toList, isBase64urlChar c = true) :
    parseLines (textLines
        (signedText (buildUnsignedKvDocument headToken wrapToken entries) sigToken).toList)
      = .ok (documentLines headToken wrapToken entries sigToken) := by
  have hsafe := lineSafe_documentLines hvalid htokens
  have hreadable := readable_documentLines (htokens headToken List.mem_cons_self).1
    (htokens wrapToken (List.mem_cons_of_mem _ List.mem_cons_self)).1
    (htokens sigToken (List.mem_cons_of_mem _ (List.mem_cons_of_mem _ List.mem_cons_self))).1
    hvalid
  rw [signedText_eq, String.toList_ofList, textLines_joinLines]
  · exact parseLines_map_lineText hreadable
  · intro line hline
    obtain ⟨l, hl, rfl⟩ := List.mem_map.mp hline
    exact (hsafe l hl).1
  · intro line hline
    obtain ⟨l, hl, rfl⟩ := List.mem_map.mp hline
    exact (hsafe l hl).2

/-- A token that parses can stand on a line. -/
theorem token_of_parse {schema : JsonMembers.Schema} {T : Type} {read : Json → Option T}
    {tokenName sourceName token : String} {x : T}
    (h : parseJsonToken schema read tokenName sourceName token = .ok x) :
    token ≠ "" ∧ ∀ c ∈ token.toList, isBase64urlChar c = true :=
  ⟨parseJsonToken_ne_empty h, (parseJsonToken_ok h).1.2⟩

/-- The document a written text is parsed to. -/
def documentOf (headToken wrapToken sigToken : String) (head : KvHeader) (wrap : KvWrap)
    (entries : List KvEncEntry) (signature : ArtifactSignature) : KvEncDocument where
  lines := documentLines headToken wrapToken (entries.map fun e => (e.key, e.token)) sigToken
  head := head
  wrap := wrap
  wrapToken := wrapToken
  entries := entries
  signature := signature

/-- **A WRITTEN DOCUMENT IS ACCEPTED** when its keys are valid and distinct, it is within the
    size and count limits, and each of its tokens parses; it is parsed to what was written. -/
theorem parse_signedText {headToken wrapToken sigToken : String} {head : KvHeader}
    {wrap : KvWrap} {entries : List KvEncEntry} {signature : ArtifactSignature}
    (sourceName : String)
    (hsize : (signedText (buildUnsignedKvDocument headToken wrapToken
      (entries.map fun e => (e.key, e.token))) sigToken).utf8ByteSize ≤ maxKvEncFileSize)
    (hcount : entries.length ≤ maxKvKeyLines)
    (hkeys : ∀ e ∈ entries, isValidKeyName e.key = true)
    (hdistinct : (entries.map KvEncEntry.key).Nodup)
    (hhead : parseKvHeadTokenWithSource headToken "HEAD token" = .ok head)
    (hwrap : parseKvWrapToken wrapToken = .ok wrap)
    (hentries : ∀ e ∈ entries, parseKvEntryTokenWithSource e.token "KV entry token" = .ok e.value)
    (hsig : parseKvSignatureTokenWithSource sigToken "SIG token" = .ok signature) :
    parseKvDocumentWithSource (signedText (buildUnsignedKvDocument headToken wrapToken
        (entries.map fun e => (e.key, e.token))) sigToken) sourceName
      = .ok (documentOf headToken wrapToken sigToken head wrap entries signature) := by
  refine @parse_of_accepted _ _ headToken sigToken sourceName ?_
  constructor
  · exact hsize
  · refine parseLines_signedText ?_ ?_
    · intro e he
      obtain ⟨f, hf, rfl⟩ := List.mem_map.mp he
      exact hkeys f hf
    · intro token hmem
      simp only [List.map_map, List.mem_cons] at hmem
      rcases hmem with rfl | rfl | rfl | hmem
      · exact token_of_parse hhead
      · obtain ⟨w, hparse, _⟩ := bind_eq_ok.mp hwrap
        exact token_of_parse hparse
      · exact token_of_parse hsig
      · obtain ⟨e, he, rfl⟩ := List.mem_map.mp hmem
        exact token_of_parse (hentries e he)
  · exact logicalLines_documentLines headToken wrapToken _ sigToken
  · exact hcount
  · exact hkeys
  · exact hdistinct
  · exact hhead
  · exact hwrap
  · exact hentries
  · exact hsig

/-! ## Canonical bytes determine the document -/

/-- The lines of a text that carry content: all but blank ones and the signature line. -/
def contentLines (text : String) : List (List Char) :=
  (textLines text.toList).filter fun line =>
    line ≠ [] ∧ line.dropPrefix? ":SIG ".toList = none

theorem contentLines_of_parse {content : String} {lines : List KvEncLine}
    (h : parseLines (textLines content.toList) = .ok lines) :
    contentLines content = ((logicalLines lines).filter fun l => !isSig l).map lineText := by
  have hreadable := readable_of_parseLines h
  rw [contentLines, ← parseLines_ok h, List.filter_map, logicalLines, List.filter_filter]
  refine congrArg _ (List.filter_congr fun l hl => ?_)
  have hempty := lineText_eq_nil (hreadable l hl)
  have hsig := dropPrefix_sig (hreadable l hl)
  show decide (lineText l ≠ [] ∧ (lineText l).dropPrefix? ":SIG ".toList = none)
    = (!isSig l && decide (l ≠ .empty))
  rw [Bool.eq_iff_iff, decide_eq_true_iff, Bool.and_eq_true, Bool.not_eq_true',
    decide_eq_true_iff, ne_eq, ne_eq, hempty, hsig]
  exact and_comm

/-- The signed lines of an accepted document are lines of its text. -/
private theorem canonicalLines_of_accepted {content headToken sigToken : String}
    {doc : KvEncDocument} (h : Accepted content doc headToken sigToken) :
    (∀ line ∈ doc.lines.flatMap canonicalLine, '\n' ∉ line)
      ∧ doc.lines.flatMap canonicalLine = (unsignedLines headToken doc.wrapToken
          (doc.entries.map fun e => (e.key, e.token))).map lineText
      ∧ ∀ l ∈ unsignedLines headToken doc.wrapToken (doc.entries.map fun e => (e.key, e.token)),
          Readable l := by
  have hkeep : (unsignedLines headToken doc.wrapToken
        (doc.entries.map fun e => (e.key, e.token))).filter (fun l => !isSig l)
      = unsignedLines headToken doc.wrapToken (doc.entries.map fun e => (e.key, e.token)) := by
    rw [List.filter_eq_self]
    intro l hl
    rw [unsigned_no_sig _ _ _ l hl]
    rfl
  have hdrop : [KvEncLine.sig sigToken].filter (fun l => !isSig l) = [] := rfl
  have hlines : (logicalLines doc.lines).filter (fun l => !isSig l)
      = unsignedLines headToken doc.wrapToken (doc.entries.map fun e => (e.key, e.token)) := by
    rw [h.shape, documentLines_eq, List.filter_append, hkeep, hdrop, List.append_nil]
  have hmem : ∀ l ∈ unsignedLines headToken doc.wrapToken
      (doc.entries.map fun e => (e.key, e.token)), l ∈ doc.lines := by
    intro l hl
    rw [← hlines, logicalLines, List.filter_filter] at hl
    exact (List.mem_filter.mp hl).1
  refine ⟨?_, by rw [flatMap_canonicalLine, hlines], ?_⟩
  · intro line hline
    rw [flatMap_canonicalLine, hlines] at hline
    obtain ⟨l, hl, rfl⟩ := List.mem_map.mp hline
    refine @feed_not_mem_of_mem_textLines content.toList _ ?_
    rw [← parseLines_ok h.lines]
    exact List.mem_map_of_mem (hmem l hl)
  · exact fun l hl => readable_of_parseLines h.lines l (hmem l hl)

private theorem map_lineText_injective {a b : List KvEncLine} (ha : ∀ l ∈ a, Readable l)
    (hb : ∀ l ∈ b, Readable l) (h : a.map lineText = b.map lineText) : a = b := by
  induction a generalizing b with
  | nil =>
    cases b with
    | nil => rfl
    | cons l b => cases h
  | cons k a ih =>
    cases b with
    | nil => cases h
    | cons l b =>
      obtain ⟨hhead, htail⟩ := List.cons.inj h
      rw [lineText_injective (ha k List.mem_cons_self) (hb l List.mem_cons_self) hhead,
        ih (fun l hl => ha l (List.mem_cons_of_mem _ hl))
          (fun l hl => hb l (List.mem_cons_of_mem _ hl)) htail]

/-- **THE CANONICAL BYTES DETERMINE THE CONTENT**: the HEAD and WRAP tokens, the entries in
    order, and every content line of the text. -/
theorem canonicalBytes_injective {a b headA headB sigA sigB : String} {docA docB : KvEncDocument}
    (hA : Accepted a docA headA sigA) (hB : Accepted b docB headB sigB)
    (h : buildCanonicalBytes docA.lines = buildCanonicalBytes docB.lines) :
    headA = headB ∧ docA.wrapToken = docB.wrapToken
      ∧ docA.entries.map (fun e => (e.key, e.token)) = docB.entries.map (fun e => (e.key, e.token))
      ∧ contentLines a = contentLines b := by
  obtain ⟨hfeedA, hlinesA, hreadA⟩ := canonicalLines_of_accepted hA
  obtain ⟨hfeedB, hlinesB, hreadB⟩ := canonicalLines_of_accepted hB
  have htext : canonicalText docA.lines = canonicalText docB.lines := utf8_injective h
  have hchars : joinLines (docA.lines.flatMap canonicalLine)
      = joinLines (docB.lines.flatMap canonicalLine) := by
    rw [canonicalText, canonicalText, ← String.toList_inj, String.toList_ofList,
      String.toList_ofList] at htext
    exact htext
  have hlines := joinLines_injective hfeedA hfeedB hchars
  have hcontent : contentLines a = contentLines b := by
    rw [contentLines_of_parse hA.lines, contentLines_of_parse hB.lines,
      ← flatMap_canonicalLine, ← flatMap_canonicalLine, hlines]
  rw [hlinesA, hlinesB] at hlines
  have hunsigned := map_lineText_injective hreadA hreadB hlines
  have hdocument := congrArg (· ++ [KvEncLine.sig ""]) hunsigned
  simp only [← documentLines_eq] at hdocument
  obtain ⟨hhead, hwrap, hentries, _⟩ := documentLines_injective hdocument
  exact ⟨hhead, hwrap, hentries, hcontent⟩

/-- One token, one entry: documents with the same tokens hold the same entries. -/
theorem entries_of_tokens {a b headA headB sigA sigB : String} {docA docB : KvEncDocument}
    (hA : Accepted a docA headA sigA) (hB : Accepted b docB headB sigB)
    (h : docA.entries.map (fun e => (e.key, e.token))
      = docB.entries.map fun e => (e.key, e.token)) :
    docA.entries = docB.entries := by
  have hvalues : ∀ (x y : List KvEncEntry),
      (∀ e ∈ x, parseKvEntryTokenWithSource e.token "KV entry token" = .ok e.value) →
      (∀ e ∈ y, parseKvEntryTokenWithSource e.token "KV entry token" = .ok e.value) →
      x.map (fun e => (e.key, e.token)) = y.map (fun e => (e.key, e.token)) → x = y := by
    intro x
    induction x with
    | nil =>
      intro y _ _ hmap
      exact (List.map_eq_nil_iff.mp hmap.symm).symm
    | cons e x ih =>
      intro y hx hy hmap
      cases y with
      | nil => cases hmap
      | cons f y =>
        obtain ⟨hpair, htail⟩ := List.cons.inj hmap
        obtain ⟨hkey, htoken⟩ := Prod.mk.inj hpair
        have he := hx e List.mem_cons_self
        have hf := hy f List.mem_cons_self
        rw [htoken, hf] at he
        have hef : e = f := by
          cases e
          cases f
          simp_all
        rw [hef, ih y (fun g hg => hx g (List.mem_cons_of_mem _ hg))
          (fun g hg => hy g (List.mem_cons_of_mem _ hg)) htail]
  exact hvalues _ _ hA.entries hB.entries h

end KvDocument
