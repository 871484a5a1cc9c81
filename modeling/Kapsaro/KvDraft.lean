import Kapsaro.JsonSize
import Kapsaro.KeyedList
import Kapsaro.SignedArtifacts

/-!
# KV drafts — the unsigned document and its signed text

`format/kv/document/draft.rs`, `format/kv/document/builder.rs` and `feature/kv/sign.rs`: the
state between a parsed document and the text that is signed.  A part that was not touched keeps
the token it was parsed from; a part that was touched is encoded again.

* **`KvDocumentDraft`** — HEAD, WRAP and entries, with the raw tokens that are kept.
* **`Represents`** — what a draft says: the entries its tokens stand for.
* **`Built`** — the drafts the operations can make; **`represents_of_built`** is the invariant.
* **`parse_signed`**, **`signed_parse`** — a signed draft is read back as what it says, and
  whatever reads it back has found the limits kept.
-/

namespace KvDraft

open JsonText JsonMembers JsonLimits Limits TextLines Base64Codec WireTexts WireModel DocumentTokens
open KvLines TokenRecords Envelope KvDocument SignedArtifacts KeyedList JsonSize

/-! ## Drafts -/

/-- An entry of a draft: as it was read, or freshly encoded. -/
inductive KvDocumentEntry where
  | preserved (key token : String) (value : KvEntryValue)
  | encoded (key token : String)
deriving DecidableEq, Repr

namespace KvDocumentEntry

def key : KvDocumentEntry → String
  | .preserved key _ _ => key
  | .encoded key _ => key

def token : KvDocumentEntry → String
  | .preserved _ token _ => token
  | .encoded _ token => token

end KvDocumentEntry

/-- Wrap data with the token it was parsed from, when it still stands for the data. -/
structure WrapSource where
  data : KvWrap
  token : Option String
deriving DecidableEq, Repr

namespace WrapSource

def decoded (data : KvWrap) : WrapSource := { data := data, token := none }

def raw (data : KvWrap) (token : String) : WrapSource := { data := data, token := some token }

/-- Hand out the data for a change: the token no longer stands for it. -/
def dataMut (source : WrapSource) (change : KvWrap → KvWrap) : WrapSource :=
  { data := change source.data, token := none }

end WrapSource

/-- An unsigned kv-enc document. -/
structure KvDocumentDraft where
  head : KvHeader
  wrap : WrapSource
  entries : List KvDocumentEntry
deriving DecidableEq

namespace KvDocumentDraft

/-- Put tokens under their keys: in place where the key exists, sorted at the end otherwise. -/
def setEntries (draft : KvDocumentDraft) (entries : List (String × String)) : KvDocumentDraft :=
  let found := (draft.entries.map KvDocumentEntry.key).filter fun key =>
    (entries.lookup key).isSome
  let replaced := draft.entries.map fun entry =>
    match entries.lookup entry.key with
    | some token => .encoded entry.key token
    | none => entry
  let newKeys := sortBy Prod.fst (entries.filter fun entry => entry.1 ∉ found)
  { draft with entries := replaced ++ newKeys.map fun entry => .encoded entry.1 entry.2 }

def unsetEntry (draft : KvDocumentDraft) (key : String) : KvDocumentDraft :=
  { draft with entries := draft.entries.filter fun entry => entry.key ≠ key }

def setUpdatedAt (draft : KvDocumentDraft) (updatedAt : String) : KvDocumentDraft :=
  { draft with head := { draft.head with updatedAt := updatedAt } }

def setWrap (draft : KvDocumentDraft) (wrap : KvWrap) : KvDocumentDraft :=
  { draft with wrap := .decoded wrap }

def wrapMut (draft : KvDocumentDraft) (change : KvWrap → KvWrap) : KvDocumentDraft :=
  { draft with wrap := draft.wrap.dataMut change }

/-- Encode an entry that was read as disclosed again, without the flag. -/
def clearDisclosedFlag : KvDocumentEntry → Except Error KvDocumentEntry
  | .preserved key token value =>
    if value.disclosed then do
      let token ← encodeToken { value with disclosed := false }.toJson
      pure (.encoded key token)
    else .ok (.preserved key token value)
  | .encoded key token => .ok (.encoded key token)

def clearDisclosedFlagsFrom : List KvDocumentEntry → Except Error (List KvDocumentEntry)
  | [] => .ok []
  | entry :: rest => do
    let entry ← clearDisclosedFlag entry
    let rest ← clearDisclosedFlagsFrom rest
    pure (entry :: rest)

def clearDisclosedFlags (draft : KvDocumentDraft) : Except Error KvDocumentDraft := do
  let entries ← clearDisclosedFlagsFrom draft.entries
  pure { draft with entries := entries }

/-- The WRAP token: the raw one, or the data encoded. -/
def resolveWrapToken (draft : KvDocumentDraft) : Except Error String :=
  match draft.wrap.token with
  | some token => .ok token
  | none => encodeToken draft.wrap.data.toJson

/-- The keys and tokens of the entries. -/
def tokens (draft : KvDocumentDraft) : List (String × String) :=
  draft.entries.map fun entry => (entry.key, entry.token)

def serializeUnsigned (draft : KvDocumentDraft) : Except Error String := do
  let headToken ← encodeToken draft.head.toJson
  let wrapToken ← draft.resolveWrapToken
  pure (buildUnsignedKvDocument headToken wrapToken draft.tokens)

end KvDocumentDraft

/-- Serialize and sign a draft. -/
def signUnsignedKvDocument (C : Crypto) (unsigned : KvDocumentDraft) (masterKey : MasterKey)
    (signing : SigningContext) : Except Error String := do
  let macKey := deriveKvMacKey C (kvKeySchedule C masterKey unsigned.head.sid)
  let content ← unsigned.serializeUnsigned
  signKvDocument C content macKey signing

/-! ## The builder -/

namespace KvDocumentBuilder

/-- A draft with decoded wrap data and no entries. -/
def new (head : KvHeader) (wrap : KvWrap) : KvDocumentDraft :=
  { head := head, wrap := .decoded wrap, entries := [] }

def resolveWrapSource (wrap : Option KvWrap) (token : String) : Except Error WrapSource :=
  match wrap with
  | some wrap => .ok (.decoded wrap)
  | none => do
    let data ← parseKvWrapToken token
    pure (.raw data token)

/-- The source of the WRAP line. -/
def wrapSourceFromLines (wrap : Option KvWrap) (lines : List KvEncLine) :
    Except Error WrapSource :=
  match lines.findSome? wrapTokenOf with
  | some token => resolveWrapSource wrap token
  | none => .error (.parse "WRAP line not found in document")

/-- The draft of a parsed document under a header; every entry keeps its token. -/
def fromDocument (head : KvHeader) (wrap : Option KvWrap) (doc : KvEncDocument) :
    Except Error KvDocumentDraft := do
  let source ← wrapSourceFromLines wrap doc.lines
  pure {
    head := head
    wrap := source
    entries := doc.entries.map fun entry => .preserved entry.key entry.token entry.value }

/-- Append encoded entries. -/
def withEntries (draft : KvDocumentDraft) (entries : List (String × String)) : KvDocumentDraft :=
  { draft with
    entries := draft.entries ++ entries.map fun entry => .encoded entry.1 entry.2 }

end KvDocumentBuilder

/-! ## What a draft says -/

/-- A wrap a document may carry: it has the form of the schema, and each recipient once. -/
structure WrapChecked (wrap : KvWrap) : Prop where
  wellFormed : wrap.wellFormed = true
  handles : (wrap.wrap.map WrapItem.recipientHandle).Nodup

/-- A token that the encoder made for an entry. -/
def EncodesEntry (token : String) (value : KvEntryValue) : Prop :=
  value.wellFormed = true ∧ token = tokenText value.toJson

/-- What an entry of a draft stands for: a preserved token was parsed, an encoded one was
    made for its value. -/
def Holds : KvDocumentEntry → KvEncEntry → Prop
  | .preserved key token value, entry =>
    entry = ⟨key, token, value⟩ ∧ parseKvEntryTokenWithSource token "KV entry token" = .ok value
  | .encoded key token, entry =>
    entry.key = key ∧ entry.token = token ∧ EncodesEntry token entry.value

/-- The kept tokens of a draft stand for its wrap data and for these entries. -/
structure Stands (draft : KvDocumentDraft) (entries : List KvEncEntry) : Prop where
  raw : ∀ token ∈ draft.wrap.token, parseKvWrapToken token = .ok draft.wrap.data
  entries : List.Forall₂ Holds draft.entries entries

/-- A draft that a document can be written from: it stands for these entries, and its header
    and its wrap data have the form a reader asks for. -/
structure Represents (draft : KvDocumentDraft) (entries : List KvEncEntry) : Prop
    extends Stands draft entries where
  head : draft.head.wellFormed = true
  wrap : WrapChecked draft.wrap.data

theorem Holds.key {e : KvDocumentEntry} {entry : KvEncEntry} (h : Holds e entry) :
    entry.key = e.key := by
  cases e with
  | preserved key token value => exact congrArg KvEncEntry.key h.1
  | encoded key token => exact h.1

theorem Holds.token {e : KvDocumentEntry} {entry : KvEncEntry} (h : Holds e entry) :
    entry.token = e.token := by
  cases e with
  | preserved key token value => exact congrArg KvEncEntry.token h.1
  | encoded key token => exact h.2.1

/-- An entry whose token parses has the form of the schema. -/
theorem wellFormed_of_parseEntry {token sourceName : String} {value : KvEntryValue}
    (h : parseKvEntryTokenWithSource token sourceName = .ok value) : value.wellFormed = true := by
  obtain ⟨_, v, hconforms, hread⟩ := parseJsonToken_ok h
  exact KvEntryValue.wellFormed_of_fromJson hconforms hread

theorem Holds.wellFormed {e : KvDocumentEntry} {entry : KvEncEntry} (h : Holds e entry) :
    entry.value.wellFormed = true := by
  cases e with
  | preserved key token value =>
    obtain ⟨rfl, hparse⟩ := h
    exact wellFormed_of_parseEntry hparse
  | encoded key token => exact h.2.2.1

/-- The keys and tokens of a draft are those of the entries it stands for. -/
theorem Stands.tokens {draft : KvDocumentDraft} {entries : List KvEncEntry}
    (h : Stands draft entries) :
    draft.tokens = entries.map fun entry => (entry.key, entry.token) := by
  obtain ⟨_, hall⟩ := h
  rw [KvDocumentDraft.tokens]
  generalize draft.entries = es at hall ⊢
  induction hall with
  | nil => rfl
  | cons he _ ih => rw [List.map_cons, List.map_cons, ih, he.key, he.token]

theorem Stands.keys {draft : KvDocumentDraft} {entries : List KvEncEntry}
    (h : Stands draft entries) :
    draft.entries.map KvDocumentEntry.key = entries.map KvEncEntry.key := by
  have htokens := congrArg (List.map Prod.fst) h.tokens
  rw [KvDocumentDraft.tokens, List.map_map, List.map_map] at htokens
  exact htokens

/-! ## What the operations make of it -/

/-- A checked wrap passes the check of its items. -/
theorem WrapChecked.items {wrap : KvWrap} (h : WrapChecked wrap) (context : String) :
    validateWrapItems wrap.wrap context = .ok () := by
  have hwell := h.wellFormed
  simp only [KvWrap.wellFormed, Bool.and_eq_true, decide_eq_true_iff] at hwell
  refine validateWrapItems_ok.mpr ⟨hwell.1.1.2, h.handles, fun item hitem => ?_⟩
  exact validateWrapItem_of_wellFormed (List.all_eq_true.mp hwell.1.2 item hitem)

/-- A parsed WRAP token is a checked wrap. -/
theorem wrapChecked_of_parse {token : String} {wrap : KvWrap}
    (h : parseKvWrapToken token = .ok wrap) : WrapChecked wrap := by
  obtain ⟨w, hparse, h⟩ := bind_eq_ok.mp h
  obtain ⟨_, hitems, h⟩ := bind_eq_ok.mp h
  obtain rfl := Except.ok.inj h
  obtain ⟨_, v, hconforms, hread⟩ := parseJsonToken_ok hparse
  exact ⟨KvWrap.wellFormed_of_fromJson hconforms hread, (validateWrapItems_ok.mp hitems).2.1⟩

/-- A parsed HEAD token is well formed. -/
theorem wellFormed_of_parseHead {token sourceName : String} {head : KvHeader}
    (h : parseKvHeadTokenWithSource token sourceName = .ok head) : head.wellFormed = true := by
  obtain ⟨_, v, hconforms, hread⟩ := parseJsonToken_ok h
  exact KvHeader.wellFormed_of_fromJson hconforms hread

/-- **A PARSED DOCUMENT AS A DRAFT** stands for its own entries, with its own WRAP token. -/
theorem represents_fromDocument {content headToken sigToken : String} {doc : KvEncDocument}
    (hdoc : Accepted content doc headToken sigToken) {head : KvHeader}
    (hhead : head.wellFormed = true) :
    ∃ draft, KvDocumentBuilder.fromDocument head none doc = .ok draft
      ∧ draft.head = head ∧ draft.wrap = .raw doc.wrap doc.wrapToken
      ∧ Represents draft doc.entries := by
  have hlines : doc.lines.findSome? wrapTokenOf = some doc.wrapToken := by
    have hextract := extractKvHeaderTokens_of_shape hdoc.shape
    rw [extractKvHeaderTokens] at hextract
    cases hh : doc.lines.findSome? headTokenOf with
    | none => rw [hh] at hextract; cases hextract
    | some t =>
      cases hw : doc.lines.findSome? wrapTokenOf with
      | none => rw [hh, hw] at hextract; cases hextract
      | some w =>
        rw [hh, hw] at hextract
        exact congrArg some (Prod.mk.inj (Except.ok.inj hextract)).2
  have hsource : KvDocumentBuilder.wrapSourceFromLines none doc.lines
      = .ok (.raw doc.wrap doc.wrapToken) := by
    rw [KvDocumentBuilder.wrapSourceFromLines, hlines]
    exact bind_eq_ok.mpr ⟨doc.wrap, hdoc.wrap, rfl⟩
  refine ⟨_, bind_eq_ok.mpr ⟨_, hsource, rfl⟩, rfl, rfl, ⟨?_, ?_⟩, hhead,
    wrapChecked_of_parse hdoc.wrap⟩
  · intro token htoken
    obtain rfl : doc.wrapToken = token := Option.mem_some_iff.mp htoken
    exact hdoc.wrap
  · have hentries := hdoc.entries
    generalize doc.entries = entries at hentries
    induction entries with
    | nil => exact .nil
    | cons e entries ih =>
      exact .cons ⟨rfl, hentries e List.mem_cons_self⟩
        (ih fun k hk => hentries k (List.mem_cons_of_mem _ hk))

/-- Every token of a table was made by the encoder. -/
def EncodedEntries (entries : List (String × String)) : Prop :=
  ∀ entry ∈ entries, ∃ value, EncodesEntry entry.2 value

private theorem holds_encoded {entries : List (String × String)} (h : EncodedEntries entries) :
    ∃ values, List.Forall₂ Holds (entries.map fun e => .encoded e.1 e.2) values := by
  induction entries with
  | nil => exact ⟨[], .nil⟩
  | cons e entries ih =>
    obtain ⟨value, hvalue⟩ := h e List.mem_cons_self
    obtain ⟨values, hvalues⟩ := ih fun k hk => h k (List.mem_cons_of_mem _ hk)
    exact ⟨⟨e.1, e.2, value⟩ :: values, .cons ⟨rfl, rfl, hvalue⟩ hvalues⟩

private theorem holds_filter {es : List KvDocumentEntry} {entries : List KvEncEntry}
    (h : List.Forall₂ Holds es entries) (keep : String → Bool) :
    List.Forall₂ Holds (es.filter fun e => keep e.key) (entries.filter fun e => keep e.key) := by
  induction h with
  | nil => exact .nil
  | @cons e entry es entries he _ ih =>
    rw [List.filter_cons, List.filter_cons, he.key]
    split
    · exact .cons he ih
    · exact ih

private theorem holds_replace {es : List KvDocumentEntry} {entries : List KvEncEntry}
    (h : List.Forall₂ Holds es entries) {table : List (String × String)}
    (htable : EncodedEntries table) :
    ∃ values, List.Forall₂ Holds (es.map fun e =>
      match table.lookup e.key with
      | some token => .encoded e.key token
      | none => e) values := by
  induction h with
  | nil => exact ⟨[], .nil⟩
  | @cons e entry es entries he _ ih =>
    obtain ⟨values, hvalues⟩ := ih
    rw [List.map_cons]
    cases hlook : table.lookup e.key with
    | none => exact ⟨entry :: values, .cons he hvalues⟩
    | some token =>
      obtain ⟨before, rest, hsplit, _⟩ := List.lookup_eq_some_iff.mp hlook
      have hmem : (e.key, token) ∈ table := by
        rw [hsplit]
        exact List.mem_append_right _ List.mem_cons_self
      obtain ⟨value, hvalue⟩ := htable _ hmem
      exact ⟨⟨e.key, token, value⟩ :: values, .cons ⟨rfl, rfl, hvalue⟩ hvalues⟩

/-- **THE OPERATIONS KEEP THE INVARIANT**: entries set from encoded tokens. -/
theorem represents_setEntries {draft : KvDocumentDraft} {entries : List KvEncEntry}
    (h : Represents draft entries) {table : List (String × String)}
    (htable : EncodedEntries table) :
    ∃ entries', Represents (draft.setEntries table) entries' := by
  obtain ⟨replaced, hreplaced⟩ := holds_replace h.entries htable
  have hnew : EncodedEntries (sortBy Prod.fst (table.filter fun entry =>
      entry.1 ∉ (draft.entries.map KvDocumentEntry.key).filter fun key =>
        (table.lookup key).isSome)) :=
    fun entry hmem => htable entry (List.mem_filter.mp ((perm_sortBy _ _).mem_iff.mp hmem)).1
  obtain ⟨added, hadded⟩ := holds_encoded hnew
  exact ⟨replaced ++ added, ⟨h.raw, List.rel_append hreplaced hadded⟩, h.head, h.wrap⟩

theorem represents_unsetEntry {draft : KvDocumentDraft} {entries : List KvEncEntry}
    (h : Represents draft entries) (key : String) :
    Represents (draft.unsetEntry key) (entries.filter fun entry => entry.key ≠ key) :=
  ⟨⟨h.raw, holds_filter h.entries fun k => decide (k ≠ key)⟩, h.head, h.wrap⟩

theorem represents_setUpdatedAt {draft : KvDocumentDraft} {entries : List KvEncEntry}
    (h : Represents draft entries) {updatedAt : String} (htime : isIso8601Text updatedAt = true) :
    Represents (draft.setUpdatedAt updatedAt) entries := by
  have hhead := h.head
  simp only [KvHeader.wellFormed, Bool.and_eq_true] at hhead
  refine ⟨⟨h.raw, h.entries⟩, ?_, h.wrap⟩
  show (draft.head.alg.wellFormed && isIso8601Text draft.head.createdAt
    && isIso8601Text updatedAt) = true
  rw [hhead.1.1, hhead.1.2, htime]
  rfl

theorem represents_setWrap {draft : KvDocumentDraft} {entries : List KvEncEntry}
    (h : Represents draft entries) {wrap : KvWrap} (hwrap : WrapChecked wrap) :
    Represents (draft.setWrap wrap) entries :=
  ⟨⟨fun _ htoken => (by cases htoken), h.entries⟩, h.head, hwrap⟩

theorem represents_wrapMut {draft : KvDocumentDraft} {entries : List KvEncEntry}
    (h : Represents draft entries) {change : KvWrap → KvWrap}
    (hwrap : WrapChecked (change draft.wrap.data)) : Represents (draft.wrapMut change) entries :=
  ⟨⟨fun _ htoken => (by cases htoken), h.entries⟩, h.head, hwrap⟩

theorem represents_new {head : KvHeader} {wrap : KvWrap} (hhead : head.wellFormed = true)
    (hwrap : WrapChecked wrap) : Represents (KvDocumentBuilder.new head wrap) [] :=
  ⟨⟨fun _ htoken => (by cases htoken), .nil⟩, hhead, hwrap⟩

theorem represents_withEntries {draft : KvDocumentDraft} {entries added : List KvEncEntry}
    (h : Represents draft entries) {table : List (String × String)}
    (htable : List.Forall₂ Holds (table.map fun e => .encoded e.1 e.2) added) :
    Represents (KvDocumentBuilder.withEntries draft table) (entries ++ added) :=
  ⟨⟨h.raw, List.rel_append h.entries htable⟩, h.head, h.wrap⟩

/-- Two entries with the same key and the same encrypted value. -/
def SamePayload (a b : KvEncEntry) : Prop :=
  b.key = a.key ∧ b.value.nonce = a.value.nonce ∧ b.value.ct = a.value.ct

private theorem holds_clearDisclosedFlag {e e' : KvDocumentEntry} {entry : KvEncEntry}
    (h : Holds e entry) (hclear : KvDocumentDraft.clearDisclosedFlag e = .ok e') :
    ∃ entry', Holds e' entry' ∧ SamePayload entry entry' := by
  cases e with
  | encoded key token =>
    obtain rfl := Except.ok.inj hclear
    exact ⟨entry, h, rfl, rfl, rfl⟩
  | preserved key token value =>
    have hwell := h.wellFormed
    obtain ⟨rfl, hparse⟩ := h
    rw [KvDocumentDraft.clearDisclosedFlag] at hclear
    by_cases hflag : value.disclosed = true
    · rw [if_pos hflag] at hclear
      obtain ⟨token', htoken, hclear⟩ := bind_eq_ok.mp hclear
      obtain rfl := Except.ok.inj hclear
      have hcleared : ({ value with disclosed := false } : KvEntryValue).wellFormed = true := hwell
      rw [encodeToken_eq (encodable_entry hcleared).numbers] at htoken
      obtain rfl := Except.ok.inj htoken
      exact ⟨⟨key, _, { value with disclosed := false }⟩, ⟨rfl, rfl, hcleared, rfl⟩,
        rfl, rfl, rfl⟩
    · rw [if_neg hflag] at hclear
      obtain rfl := Except.ok.inj hclear
      exact ⟨_, ⟨rfl, hparse⟩, rfl, rfl, rfl⟩

/-- Clearing the flags keeps what the entries encrypt, and touches nothing else. -/
theorem stands_clearDisclosedFlags {draft draft' : KvDocumentDraft} {entries : List KvEncEntry}
    (h : Stands draft entries) (hclear : draft.clearDisclosedFlags = .ok draft') :
    draft'.head = draft.head ∧ draft'.wrap = draft.wrap
      ∧ ∃ entries', Stands draft' entries' ∧ List.Forall₂ SamePayload entries entries' := by
  obtain ⟨es, hes, hclear⟩ := bind_eq_ok.mp hclear
  obtain ⟨hraw, hall⟩ := h
  have hstep : ∃ entries', List.Forall₂ Holds es entries'
      ∧ List.Forall₂ SamePayload entries entries' := by
    clear hclear
    generalize draft.entries = before at hall hes
    induction hall generalizing es with
    | nil =>
      obtain rfl := Except.ok.inj hes
      exact ⟨[], .nil, .nil⟩
    | cons he _ ih =>
      obtain ⟨e', he', hes⟩ := bind_eq_ok.mp hes
      obtain ⟨rest, hrest, hes⟩ := bind_eq_ok.mp hes
      obtain rfl := Except.ok.inj hes
      obtain ⟨entry', hentry, hsame⟩ := holds_clearDisclosedFlag he he'
      obtain ⟨entries', hentries, hsames⟩ := ih _ hrest
      exact ⟨entry' :: entries', .cons hentry hentries, .cons hsame hsames⟩
  obtain ⟨entries', hentries, hsames⟩ := hstep
  obtain rfl := Except.ok.inj hclear
  exact ⟨rfl, rfl, entries', ⟨hraw, hentries⟩, hsames⟩

theorem represents_clearDisclosedFlags {draft draft' : KvDocumentDraft}
    {entries : List KvEncEntry} (h : Represents draft entries)
    (hclear : draft.clearDisclosedFlags = .ok draft') :
    ∃ entries', Represents draft' entries' := by
  obtain ⟨hhead, hwrap, entries', hstands, _⟩ := stands_clearDisclosedFlags h.toStands hclear
  refine ⟨entries', hstands, ?_, ?_⟩
  · rw [hhead]
    exact h.head
  · rw [hwrap]
    exact h.wrap

/-! ## The drafts that can be built -/

/-- The drafts the operations make from parsed documents, checked wraps and encoded entries. -/
inductive Built : KvDocumentDraft → Prop
  | new {head : KvHeader} {wrap : KvWrap} {table : List (String × String)} :
      head.wellFormed = true → WrapChecked wrap → EncodedEntries table →
      Built (KvDocumentBuilder.withEntries (KvDocumentBuilder.new head wrap) table)
  | fromDocument {content : String} {doc : KvEncDocument} {head : KvHeader}
      {draft : KvDocumentDraft} :
      parseKvDocument content = .ok doc → head.wellFormed = true →
      KvDocumentBuilder.fromDocument head none doc = .ok draft → Built draft
  | setEntries {draft : KvDocumentDraft} {table : List (String × String)} :
      Built draft → EncodedEntries table → Built (draft.setEntries table)
  | unsetEntry {draft : KvDocumentDraft} (key : String) :
      Built draft → Built (draft.unsetEntry key)
  | setUpdatedAt {draft : KvDocumentDraft} {updatedAt : String} :
      Built draft → isIso8601Text updatedAt = true → Built (draft.setUpdatedAt updatedAt)
  | setWrap {draft : KvDocumentDraft} {wrap : KvWrap} :
      Built draft → WrapChecked wrap → Built (draft.setWrap wrap)
  | wrapMut {draft : KvDocumentDraft} {change : KvWrap → KvWrap} :
      Built draft → WrapChecked (change draft.wrap.data) → Built (draft.wrapMut change)
  | clearDisclosedFlags {draft draft' : KvDocumentDraft} :
      Built draft → draft.clearDisclosedFlags = .ok draft' → Built draft'

/-- **THE INVARIANT**: every draft that can be built stands for some entries. -/
theorem represents_of_built {draft : KvDocumentDraft} (h : Built draft) :
    ∃ entries, Represents draft entries := by
  induction h with
  | new hhead hwrap htable =>
    obtain ⟨values, hvalues⟩ := holds_encoded htable
    exact ⟨_, represents_withEntries (represents_new hhead hwrap) hvalues⟩
  | fromDocument hparse hhead hdraft =>
    obtain ⟨headToken, sigToken, hdoc⟩ := accepted_of_parse hparse
    obtain ⟨draft', hdraft', _, _, hrep⟩ := represents_fromDocument hdoc hhead
    rw [hdraft] at hdraft'
    obtain rfl := Except.ok.inj hdraft'
    exact ⟨_, hrep⟩
  | setEntries _ htable ih =>
    obtain ⟨entries, hrep⟩ := ih
    exact represents_setEntries hrep htable
  | unsetEntry key _ ih =>
    obtain ⟨entries, hrep⟩ := ih
    exact ⟨_, represents_unsetEntry hrep key⟩
  | setUpdatedAt _ htime ih =>
    obtain ⟨entries, hrep⟩ := ih
    exact ⟨entries, represents_setUpdatedAt hrep htime⟩
  | setWrap _ hwrap ih =>
    obtain ⟨entries, hrep⟩ := ih
    exact ⟨entries, represents_setWrap hrep hwrap⟩
  | wrapMut _ hwrap ih =>
    obtain ⟨entries, hrep⟩ := ih
    exact ⟨entries, represents_wrapMut hrep hwrap⟩
  | clearDisclosedFlags _ hclear ih =>
    obtain ⟨entries, hrep⟩ := ih
    exact represents_clearDisclosedFlags hrep hclear

/-! ## Signed drafts are read back -/

/-- The WRAP token of a draft. -/
def KvDocumentDraft.wrapToken (draft : KvDocumentDraft) : String :=
  draft.wrap.token.getD (tokenText draft.wrap.data.toJson)

/-- The unsigned text of a draft. -/
def KvDocumentDraft.unsignedText (draft : KvDocumentDraft) : String :=
  buildUnsignedKvDocument (tokenText draft.head.toJson) draft.wrapToken draft.tokens

/-- The text of a draft under a signature. -/
def KvDocumentDraft.signedWith (draft : KvDocumentDraft) (signature : ArtifactSignature) :
    String :=
  signedText draft.unsignedText (tokenText signature.toJson)

/-- A signature that can be written: its texts have the form of the schema, and its proof is
    the one its text spells. -/
structure SignatureChecked (signature : ArtifactSignature) : Prop where
  wellFormed : signature.wellFormed = true
  mac : KeyPossessionProof.parse signature.mac.wire = some signature.mac

/-- The limits of the reader, on the parts of a draft and on its text. -/
structure WithinLimits (draft : KvDocumentDraft) (signature : ArtifactSignature) : Prop where
  headToken : (tokenText draft.head.toJson).utf8ByteSize ≤ maxBase64TokenLength
  wrapToken : draft.wrapToken.utf8ByteSize ≤ maxBase64TokenLength
  wrapElements : draft.wrap.token = none → elementCount draft.wrap.data.toJson ≤ maxJsonElements
  entryTokens : ∀ entry ∈ draft.tokens, entry.2.utf8ByteSize ≤ maxBase64TokenLength
  sigToken : (tokenText signature.toJson).utf8ByteSize ≤ maxBase64TokenLength
  count : draft.entries.length ≤ maxKvKeyLines
  size : (draft.signedWith signature).utf8ByteSize ≤ maxKvEncFileSize

/-- **THE SIZE OF A SIGNED TEXT** is the sum of the sizes of its parts. -/
theorem size_signedWith (draft : KvDocumentDraft) (signature : ArtifactSignature) :
    (draft.signedWith signature).utf8ByteSize
      = 34 + (tokenText draft.head.toJson).utf8ByteSize + draft.wrapToken.utf8ByteSize
        + (draft.tokens.map fun entry => entry.1.utf8ByteSize + entry.2.utf8ByteSize + 2).sum
        + (tokenText signature.toJson).utf8ByteSize := by
  have hsize : ∀ s : String, charsSize s.toList = s.utf8ByteSize := fun s => by
    rw [← utf8ByteSize_ofList, String.ofList_toList]
  have hentries : ∀ entries : List (String × String),
      charsSize (entries.flatMap fun e => e.1.toList ++ ' ' :: e.2.toList ++ ['\n'])
        = (entries.map fun entry => entry.1.utf8ByteSize + entry.2.utf8ByteSize + 2).sum := by
    intro entries
    induction entries with
    | nil => rfl
    | cons e entries ih =>
      have hspace : Char.utf8Size ' ' = 1 := rfl
      have hnewline : Char.utf8Size '\n' = 1 := rfl
      rw [List.flatMap_cons, charsSize_append, ih, List.map_cons, List.sum_cons, charsSize_append,
        charsSize_append, charsSize_cons, charsSize_cons, charsSize_nil, hsize, hsize, hspace,
        hnewline]
      omega
  have hunsigned : draft.unsignedText.utf8ByteSize
      = 28 + (tokenText draft.head.toJson).utf8ByteSize + draft.wrapToken.utf8ByteSize
        + (draft.tokens.map fun entry => entry.1.utf8ByteSize + entry.2.utf8ByteSize + 2).sum := by
    have hheader : headerLineV1.utf8ByteSize = 13 := by decide
    have hhead : (":HEAD ").utf8ByteSize = 6 := rfl
    have hwrap : (":WRAP ").utf8ByteSize = 6 := rfl
    have hnewline : Char.utf8Size '\n' = 1 := rfl
    rw [KvDocumentDraft.unsignedText, buildUnsignedKvDocument, utf8ByteSize_ofList]
    simp only [charsSize_append, charsSize_cons, hentries, hsize, hheader, hhead, hwrap, hnewline]
    omega
  have hsig : (":SIG ").utf8ByteSize = 5 := rfl
  have hend : ("\n").utf8ByteSize = 1 := rfl
  rw [KvDocumentDraft.signedWith, signedText, String.utf8ByteSize_append,
    String.utf8ByteSize_append, String.utf8ByteSize_append, hunsigned, hsig, hend]
  omega

/-- A summand is at most the sum. -/
theorem le_sum_map {α : Type} (weight : α → Nat) :
    ∀ {items : List α} {item : α}, item ∈ items → weight item ≤ (items.map weight).sum
  | first :: rest, item, hmem => by
    rw [List.map_cons, List.sum_cons]
    rcases List.mem_cons.mp hmem with rfl | hrest
    · exact Nat.le_add_right _ _
    · exact Nat.le_trans (le_sum_map weight hrest) (Nat.le_add_left _ _)

/-- **A SHORT TEXT KEEPS THE LIMITS**: no part is longer than the whole. -/
theorem withinLimits_of_short {draft : KvDocumentDraft} {signature : ArtifactSignature}
    (hsize : (draft.signedWith signature).utf8ByteSize ≤ maxBase64TokenLength)
    (hcount : draft.entries.length ≤ maxKvKeyLines)
    (helements : elementCount draft.wrap.data.toJson ≤ maxJsonElements) :
    WithinLimits draft signature := by
  have hsum := size_signedWith draft signature
  refine ⟨by omega, by omega, fun _ => helements, ?_, by omega, hcount,
    Nat.le_trans hsize (by decide)⟩
  intro entry hentry
  have hle := le_sum_map
    (fun entry : String × String => entry.1.utf8ByteSize + entry.2.utf8ByteSize + 2) hentry
  omega

/-- The keys of a draft can stand on lines, each once. -/
structure KeysChecked (draft : KvDocumentDraft) : Prop where
  valid : ∀ entry ∈ draft.entries, isValidKeyName entry.key = true
  distinct : (draft.entries.map KvDocumentEntry.key).Nodup

/-- Serializing a draft never fails. -/
theorem serializeUnsigned_eq (draft : KvDocumentDraft) :
    draft.serializeUnsigned = .ok draft.unsignedText := by
  have hwrap : draft.resolveWrapToken = .ok draft.wrapToken := by
    rw [KvDocumentDraft.resolveWrapToken, KvDocumentDraft.wrapToken]
    cases draft.wrap.token with
    | some token => rfl
    | none => exact encodeToken_eq (bounded_wrap draft.wrap.data).numbers
  exact bind_eq_ok.mpr ⟨_, encodeToken_eq (bounded_header draft.head).numbers,
    bind_eq_ok.mpr ⟨_, hwrap, rfl⟩⟩

/-- The MAC key of a draft under a master key. -/
def draftMacKey (C : Crypto) (draft : KvDocumentDraft) (masterKey : MasterKey) : FixedBytes 32 :=
  deriveKvMacKey C (kvKeySchedule C masterKey draft.head.sid)

/-- A text is a draft, signed: its proof is made under the master key, its signature by the
    signing context. -/
structure SignedBy (C : Crypto) (draft : KvDocumentDraft) (masterKey : MasterKey)
    (signing : SigningContext) (signature : ArtifactSignature) (text : String) : Prop where
  body : signKvBody C draft.unsignedText (draftMacKey C draft masterKey) signing = .ok signature
  checked : SignatureChecked signature
  text_eq : text = draft.signedWith signature

/-- What signing a draft yields. -/
theorem signUnsignedKvDocument_ok {C : Crypto} {draft : KvDocumentDraft} {masterKey : MasterKey}
    {signing : SigningContext} {text : String}
    (h : signUnsignedKvDocument C draft masterKey signing = .ok text) :
    ∃ signature, SignedBy C draft masterKey signing signature text := by
  obtain ⟨content, hcontent, h⟩ := bind_eq_ok.mp h
  rw [serializeUnsigned_eq] at hcontent
  obtain rfl := Except.ok.inj hcontent
  obtain ⟨signature, hbody, hwell, hmac, rfl⟩ := signKvDocument_ok h
  exact ⟨signature, hbody, ⟨hwell, hmac⟩, rfl⟩

/-- Signing a draft never fails. -/
theorem signUnsignedKvDocument_total (C : Crypto) (draft : KvDocumentDraft)
    (masterKey : MasterKey) (signing : SigningContext) :
    ∃ text, signUnsignedKvDocument C draft masterKey signing = .ok text := by
  obtain ⟨text, htext⟩ := signKvDocument_total (C := C) draft.unsignedText
    (draftMacKey C draft masterKey) signing
  exact ⟨text, bind_eq_ok.mpr ⟨_, serializeUnsigned_eq draft, htext⟩⟩

/-- Where the WRAP token of a draft parses, it parses to the data, and the limits are kept. -/
theorem Stands.parseWrap {draft : KvDocumentDraft} {entries : List KvEncEntry}
    (h : Stands draft entries) {wrap : KvWrap}
    (hparse : parseKvWrapToken draft.wrapToken = .ok wrap) :
    wrap = draft.wrap.data ∧ draft.wrapToken.utf8ByteSize ≤ maxBase64TokenLength
      ∧ (draft.wrap.token = none → elementCount draft.wrap.data.toJson ≤ maxJsonElements) := by
  cases htoken : draft.wrap.token with
  | some token =>
    have heq : draft.wrapToken = token := by
      rw [KvDocumentDraft.wrapToken, htoken]
      rfl
    have hraw := h.raw token htoken
    rw [heq] at hparse ⊢
    obtain ⟨w, hw, _⟩ := bind_eq_ok.mp hraw
    rw [hparse] at hraw
    exact ⟨Except.ok.inj hraw, (parseJsonToken_ok hw).1.1, fun hnone => by cases hnone⟩
  | none =>
    have heq : draft.wrapToken = tokenText draft.wrap.data.toJson := by
      rw [KvDocumentDraft.wrapToken, htoken]
      rfl
    rw [heq] at hparse ⊢
    obtain ⟨w, hw, hok⟩ := bind_eq_ok.mp hparse
    obtain ⟨_, _, hok⟩ := bind_eq_ok.mp hok
    have hbounded := bounded_wrap draft.wrap.data
    obtain ⟨rfl, hsize, helements⟩ := eq_of_parseJsonToken_tokenText (KvWrap.reads _)
      hbounded.names hbounded.numbers hw
    exact ⟨(Except.ok.inj hok).symm, hsize, fun _ => helements⟩

/-- Within the limits, the WRAP token parses to the data. -/
theorem Represents.parseWrap {draft : KvDocumentDraft} {entries : List KvEncEntry}
    (h : Represents draft entries)
    (hsize : draft.wrapToken.utf8ByteSize ≤ maxBase64TokenLength)
    (helements : draft.wrap.token = none →
      elementCount draft.wrap.data.toJson ≤ maxJsonElements) :
    parseKvWrapToken draft.wrapToken = .ok draft.wrap.data := by
  cases htoken : draft.wrap.token with
  | some token =>
    have heq : draft.wrapToken = token := by
      rw [KvDocumentDraft.wrapToken, htoken]
      rfl
    rw [heq]
    exact h.raw token htoken
  | none =>
    have heq : draft.wrapToken = tokenText draft.wrap.data.toJson := by
      rw [KvDocumentDraft.wrapToken, htoken]
      rfl
    rw [heq] at hsize ⊢
    exact bind_eq_ok.mpr ⟨_, parseJsonToken_tokenText (encodable_wrap h.wrap.wellFormed) _ _ hsize
      (helements htoken), bind_eq_ok.mpr ⟨(), h.wrap.items _, rfl⟩⟩

/-- The token of a held entry parses to its value exactly when it is short enough. -/
theorem Holds.parseEntry {e : KvDocumentEntry} {entry : KvEncEntry} (h : Holds e entry)
    {value : KvEntryValue} :
    parseKvEntryTokenWithSource entry.token "KV entry token" = .ok value
      ↔ value = entry.value ∧ entry.token.utf8ByteSize ≤ maxBase64TokenLength := by
  cases e with
  | preserved key token v =>
    obtain ⟨rfl, hparse⟩ := h
    show parseKvEntryTokenWithSource token "KV entry token" = .ok value ↔ _
    rw [hparse]
    constructor
    · intro hok
      exact ⟨(Except.ok.inj hok).symm, (parseJsonToken_ok hparse).1.1⟩
    · rintro ⟨rfl, _⟩
      rfl
  | encoded key token =>
    obtain ⟨_, htoken, hwell, rfl⟩ := h
    rw [htoken]
    have hencodable := encodable_entry hwell
    constructor
    · intro hok
      obtain ⟨rfl, hsize, _⟩ := eq_of_parseJsonToken_tokenText hencodable.reads
        hencodable.names hencodable.numbers hok
      exact ⟨rfl, hsize⟩
    · rintro ⟨rfl, hsize⟩
      refine parseJsonToken_tokenText hencodable _ _ hsize ?_
      exact Nat.le_trans (elements_entry _) (by decide)

/-- The tokens of a signed draft can stand on lines. -/
private theorem tokens_checked {draft : KvDocumentDraft} {entries : List KvEncEntry}
    (h : Stands draft entries) (signature : ArtifactSignature) :
    ∀ token ∈ tokenText draft.head.toJson :: draft.wrapToken :: tokenText signature.toJson
        :: draft.tokens.map Prod.snd,
      token ≠ "" ∧ ∀ c ∈ token.toList, isBase64urlChar c = true := by
  have hmade : ∀ v, tokenText v ≠ "" ∧ ∀ c ∈ (tokenText v).toList, isBase64urlChar c = true :=
    fun v => ⟨tokenText_ne_empty v, tokenText_chars v⟩
  intro token hmem
  simp only [List.mem_cons] at hmem
  rcases hmem with rfl | rfl | rfl | hmem
  · exact hmade _
  · rw [KvDocumentDraft.wrapToken]
    cases htoken : draft.wrap.token with
    | none => exact hmade _
    | some token =>
      obtain ⟨w, hw, _⟩ := bind_eq_ok.mp (h.raw token htoken)
      exact token_of_parse hw
  · exact hmade _
  · rw [h.tokens, List.map_map] at hmem
    obtain ⟨entry, hentry, rfl⟩ := List.mem_map.mp hmem
    obtain ⟨e, _, hholds⟩ := exists_left_of_mem h.entries hentry
    cases e with
    | preserved key token value =>
      obtain ⟨rfl, hparse⟩ := hholds
      exact token_of_parse hparse
    | encoded key token =>
      obtain ⟨_, htoken, _, rfl⟩ := hholds
      show entry.token ≠ "" ∧ ∀ c ∈ entry.token.toList, isBase64urlChar c = true
      rw [htoken]
      exact hmade _

/-- The document a signed draft is read as. -/
def KvDocumentDraft.document (draft : KvDocumentDraft) (entries : List KvEncEntry)
    (signature : ArtifactSignature) : KvEncDocument :=
  documentOf (tokenText draft.head.toJson) draft.wrapToken (tokenText signature.toJson)
    draft.head draft.wrap.data entries signature

/-- The canonical bytes of the document are the unsigned bytes that were signed. -/
theorem canonicalBytes_document {draft : KvDocumentDraft} {entries : List KvEncEntry}
    (h : Stands draft entries) (signature : ArtifactSignature) :
    buildKvArtifactBodyBytes (draft.document entries signature) = utf8 draft.unsignedText := by
  rw [buildKvArtifactBodyBytes, buildCanonicalBytes, KvDocumentDraft.unsignedText, h.tokens]
  refine congrArg utf8 (@canonicalText_of_shape _ _ _ (tokenText signature.toJson) _ ?_)
  exact logicalLines_documentLines _ _ _ _

/-- **THE PROOF OF A FRESH DOCUMENT PASSES** under the master key it was made with. -/
theorem verifyKvKeyPossession_document {C : Crypto} {draft : KvDocumentDraft}
    {entries : List KvEncEntry} {masterKey : MasterKey} {signing : SigningContext}
    {signature : ArtifactSignature} {text : String} (h : Stands draft entries)
    (hsigned : SignedBy C draft masterKey signing signature text) :
    verifyKvKeyPossession C (draft.document entries signature) masterKey = .ok () := by
  obtain ⟨mac, hmac, hbuild⟩ := bind_eq_ok.mp hsigned.body
  obtain rfl := Except.ok.inj hbuild
  rw [verifyKvKeyPossession, canonicalBytes_document h]
  exact verifyKeyPossession_built hmac

/-- **THE SIGNATURE OF A FRESH DOCUMENT PASSES** under the public half of the signing key. -/
theorem verifyKvSignature_document {C : Crypto} (hC : Lawful C) {draft : KvDocumentDraft}
    {entries : List KvEncEntry} {masterKey : MasterKey} {signing : SigningContext}
    {signature : ArtifactSignature} {text : String} (h : Stands draft entries)
    (hsigned : SignedBy C draft masterKey signing signature text) :
    verifyKvSignature C (draft.document entries signature) (C.verifyingKey signing.signingKey)
      signature = .ok () := by
  obtain ⟨mac, _, hbuild⟩ := bind_eq_ok.mp hsigned.body
  obtain rfl := Except.ok.inj hbuild
  rw [verifyKvSignature, canonicalBytes_document h]
  exact verifyArtifactSignature_built hC _ mac signing

/-- **SIGNED DRAFTS ARE READ BACK**: with keys that can stand on lines and within the limits, the
    text of a draft is parsed to what the draft stands for. -/
theorem parse_signed {draft : KvDocumentDraft} {entries : List KvEncEntry}
    (h : Represents draft entries) {signature : ArtifactSignature}
    (hsignature : SignatureChecked signature) (hkeys : KeysChecked draft)
    (hlimits : WithinLimits draft signature) (sourceName : String) :
    parseKvDocumentWithSource (draft.signedWith signature) sourceName
      = .ok (draft.document entries signature) := by
  have hsizeText := hlimits.size
  have hentryTokens := hlimits.entryTokens
  rw [KvDocumentDraft.signedWith, KvDocumentDraft.unsignedText, h.tokens] at hsizeText ⊢
  rw [h.tokens] at hentryTokens
  have hlength : entries.length = draft.entries.length := by
    have hmap := congrArg List.length h.keys
    rw [List.length_map, List.length_map] at hmap
    exact hmap.symm
  have hencodable := encodable_signature hsignature.wellFormed hsignature.mac
  refine parse_signedText sourceName hsizeText ?_ ?_ ?_ ?_ ?_ ?_ ?_
  · rw [hlength]
    exact hlimits.count
  · intro entry hentry
    obtain ⟨e, he, hholds⟩ := exists_left_of_mem h.entries hentry
    rw [hholds.key]
    exact hkeys.valid e he
  · rw [← h.keys]
    exact hkeys.distinct
  · exact parseJsonToken_tokenText (encodable_header h.head) _ _ hlimits.headToken
      (by rw [elements_header]; decide)
  · exact h.parseWrap hlimits.wrapToken hlimits.wrapElements
  · intro entry hentry
    obtain ⟨e, _, hholds⟩ := exists_left_of_mem h.entries hentry
    exact hholds.parseEntry.mpr ⟨rfl, hentryTokens _ (List.mem_map_of_mem hentry)⟩
  · exact parseJsonToken_tokenText hencodable _ _ hlimits.sigToken
      (Nat.le_trans (elements_signature _) (by decide))

/-- **A FRESH DOCUMENT VERIFIES**: with checked keys and within the limits, the text of a draft is
    accepted by the reader as what the draft stands for, where the expiry its signer states is a
    time. -/
theorem verify_signed {C : Crypto} (hC : Lawful C) {draft : KvDocumentDraft}
    {entries : List KvEncEntry} {masterKey : MasterKey} {ctx : CryptoContext}
    {signing : SigningContext} {signature : ArtifactSignature} {text : String}
    (h : Represents draft entries) (hsigned : SignedBy C draft masterKey signing signature text)
    (hsigning : buildSigningContext C ctx = .ok signing)
    (hexpiry : C.checkKeyExpiry signing.signerPub.document.protect.expiresAt = .ok ())
    (hkeys : KeysChecked draft) (hlimits : WithinLimits draft signature) :
    verifyKvContent C text = .ok (draft.document entries signature) := by
  obtain ⟨mac, _, hbuild⟩ := bind_eq_ok.mp hsigned.body
  have hkey : buildVerifyingKeyFromSignature C signature
      = .ok (C.verifyingKey signing.signingKey) := by
    rw [← Except.ok.inj hbuild]
    exact buildVerifyingKey_built hsigning hexpiry _ mac
  rw [hsigned.text_eq]
  refine bind_eq_ok.mpr ⟨_, parse_signed h hsigned.checked hkeys hlimits _, ?_⟩
  exact bind_eq_ok.mpr ⟨(), h.wrap.items "Document", bind_eq_ok.mpr ⟨_, hkey, bind_eq_ok.mpr
    ⟨(), verifyKvSignature_document hC h.toStands hsigned, rfl⟩⟩⟩

/-- The lines of a signed draft. -/
theorem parseLines_signedWith {draft : KvDocumentDraft} {entries : List KvEncEntry}
    (h : Stands draft entries) (signature : ArtifactSignature)
    (hvalid : ∀ entry ∈ draft.entries, isValidKeyName entry.key = true) :
    parseLines (textLines (draft.signedWith signature).toList)
      = .ok (documentLines (tokenText draft.head.toJson) draft.wrapToken draft.tokens
          (tokenText signature.toJson)) := by
  rw [KvDocumentDraft.signedWith, KvDocumentDraft.unsignedText]
  refine parseLines_signedText ?_ (tokens_checked h signature)
  intro entry hentry
  obtain ⟨e, he, rfl⟩ := List.mem_map.mp hentry
  exact hvalid e he

/-- **WHAT READS A SIGNED DRAFT READS WHAT IT SAYS**, and has found the limits kept and each key
    once. -/
theorem signed_parse {draft : KvDocumentDraft} {entries : List KvEncEntry}
    (h : Stands draft entries) {signature : ArtifactSignature}
    (hsignature : SignatureChecked signature)
    (hvalid : ∀ entry ∈ draft.entries, isValidKeyName entry.key = true) {sourceName : String}
    {doc : KvEncDocument}
    (hparse : parseKvDocumentWithSource (draft.signedWith signature) sourceName = .ok doc) :
    doc = draft.document entries signature ∧ KeysChecked draft ∧ WithinLimits draft signature := by
  obtain ⟨headToken, sigToken, hdoc⟩ := accepted_of_parse hparse
  -- The document was split from the lines of the signed text, so both have the same parts.
  have hlines := hdoc.lines
  rw [parseLines_signedWith h signature hvalid] at hlines
  have hshape := hdoc.shape
  rw [← Except.ok.inj hlines, logicalLines_documentLines] at hshape
  obtain ⟨rfl, hwrapToken, htokens, rfl⟩ := documentLines_injective hshape
  have hheader := bounded_header draft.head
  obtain ⟨hhead, hheadSize, _⟩ := eq_of_parseJsonToken_tokenText (KvHeader.reads draft.head)
    hheader.names hheader.numbers hdoc.head
  have hwrap := hdoc.wrap
  rw [← hwrapToken] at hwrap
  obtain ⟨hwrapData, hwrapSize, hwrapElements⟩ := h.parseWrap hwrap
  have hencodable := encodable_signature hsignature.wellFormed hsignature.mac
  obtain ⟨hsig, hsigSize, _⟩ := eq_of_parseJsonToken_tokenText hencodable.reads
    hencodable.names hencodable.numbers hdoc.signature
  have hpairs : (doc.entries.map fun e => (e.key, e.token))
      = entries.map fun e => (e.key, e.token) := by
    rw [← htokens, h.tokens]
  have hentries : doc.entries = entries := by
    -- Entry by entry: a token is read as the entry it was made from.
    have hvalues := hdoc.entries
    have hall := h.entries
    generalize doc.entries = read at hpairs hvalues
    generalize draft.entries = es at hall
    clear h hdoc hparse hshape hlines htokens
    induction hall generalizing read with
    | nil => exact List.map_eq_nil_iff.mp hpairs
    | @cons e entry es entries he _ ih =>
      cases read with
      | nil => cases hpairs
      | cons f read =>
        obtain ⟨hpair, htail⟩ := List.cons.inj hpairs
        obtain ⟨hkey, htoken⟩ := Prod.mk.inj hpair
        have hvalue := hvalues f List.mem_cons_self
        rw [htoken] at hvalue
        have hf : f = entry := by
          obtain ⟨fkey, ftoken, fvalue⟩ := f
          obtain ⟨key, token, value⟩ := entry
          obtain rfl : fkey = key := hkey
          obtain rfl : ftoken = token := htoken
          obtain rfl : fvalue = value := (he.parseEntry.mp hvalue).1
          rfl
        rw [hf, ih read htail fun g hg => hvalues g (List.mem_cons_of_mem _ hg)]
  have hkeysEq : doc.entries.map KvEncEntry.key = draft.entries.map KvDocumentEntry.key := by
    rw [hentries, h.keys]
  refine ⟨?_, ⟨hvalid, ?_⟩, ?_⟩
  · obtain ⟨lines, head, wrap, wrapToken, docEntries, signature'⟩ := doc
    obtain rfl : head = draft.head := hhead
    obtain rfl : wrap = draft.wrap.data := hwrapData
    obtain rfl : signature' = signature := hsig
    obtain rfl : docEntries = entries := hentries
    obtain rfl : draft.wrapToken = wrapToken := hwrapToken
    have hlinesEq := (Except.ok.inj hlines).symm
    rw [h.tokens] at hlinesEq
    obtain rfl := hlinesEq
    rfl
  · rw [← hkeysEq]
    exact hdoc.distinct
  -- What the parser accepted it measured, and it measured the tokens of the draft.
  · refine ⟨hheadSize, hwrapSize, hwrapElements, ?_, hsigSize, ?_, hdoc.size⟩
    · intro entry hentry
      rw [h.tokens, ← hentries] at hentry
      obtain ⟨e, he, rfl⟩ := List.mem_map.mp hentry
      exact (parseJsonToken_ok (hdoc.entries e he)).1.1
    · have hlength := congrArg List.length hkeysEq
      rw [List.length_map, List.length_map] at hlength
      rw [← hlength]
      exact hdoc.count

/-! ## What a text says -/

/-- A text spells a document: it is the signed text of a draft that stands for its entries. -/
inductive Spells : String → KvEncDocument → Prop
  | intro {draft : KvDocumentDraft} {entries : List KvEncEntry} {signature : ArtifactSignature} :
      Stands draft entries → SignatureChecked signature →
      (∀ entry ∈ draft.entries, isValidKeyName entry.key = true) →
      Spells (draft.signedWith signature) (draft.document entries signature)

/-- Kept tokens of a draft that are the same as another's stand for the same wrap. -/
theorem Stands.wrap_eq {a b : KvDocumentDraft} {as bs : List KvEncEntry} (ha : Stands a as)
    (hb : Stands b bs) (h : a.wrapToken = b.wrapToken) : a.wrap.data = b.wrap.data := by
  have hparsed : ∀ {d : KvDocumentDraft} {es : List KvEncEntry} {token : String}, Stands d es →
      d.wrap.token = some token → parseKvWrapToken d.wrapToken = .ok d.wrap.data := by
    intro d es token hd htoken
    rw [KvDocumentDraft.wrapToken, htoken]
    exact hd.raw token htoken
  cases hta : a.wrap.token with
  | some token =>
    have hread := hparsed ha hta
    rw [h] at hread
    exact (hb.parseWrap hread).1
  | none =>
    cases htb : b.wrap.token with
    | some token =>
      have hread := hparsed hb htb
      rw [← h] at hread
      exact (ha.parseWrap hread).1.symm
    | none =>
      rw [KvDocumentDraft.wrapToken, KvDocumentDraft.wrapToken, hta, htb] at h
      exact eq_of_tokenText (KvWrap.reads _) (KvWrap.reads _) h

/-- An entry is determined by its key and its token. -/
theorem Holds.eq {e f : KvDocumentEntry} {a b : KvEncEntry} (ha : Holds e a) (hb : Holds f b)
    (hkey : a.key = b.key) (htoken : a.token = b.token) : a = b := by
  have hvalue : a.value = b.value := by
    cases e with
    | preserved key token value =>
      obtain ⟨rfl, hparse⟩ := ha
      obtain rfl : token = b.token := htoken
      exact (hb.parseEntry.mp hparse).1
    | encoded key token =>
      cases f with
      | preserved key' token' value' =>
        obtain ⟨rfl, hparse⟩ := hb
        obtain rfl : a.token = token' := htoken
        exact (ha.parseEntry.mp hparse).1.symm
      | encoded key' token' =>
        obtain ⟨_, ha, _, rfl⟩ := ha
        obtain ⟨_, hb, _, rfl⟩ := hb
        rw [ha, hb] at htoken
        exact eq_of_tokenText (KvEntryValue.reads _) (KvEntryValue.reads _) htoken
  obtain ⟨_, _, _⟩ := a
  obtain ⟨_, _, _⟩ := b
  exact congr (congr (congrArg KvEncEntry.mk hkey) htoken) hvalue

/-- Entries that are held are determined by their keys and tokens. -/
theorem holds_eq {es fs : List KvDocumentEntry} {as bs : List KvEncEntry}
    (ha : List.Forall₂ Holds es as) (hb : List.Forall₂ Holds fs bs)
    (h : as.map (fun e => (e.key, e.token)) = bs.map fun e => (e.key, e.token)) : as = bs := by
  induction ha generalizing fs bs with
  | nil => exact (List.map_eq_nil_iff.mp h.symm).symm
  | @cons e entry es as he _ ih =>
    cases hb with
    | nil => cases h
    | @cons f other fs bs hf hrest =>
      obtain ⟨hpair, htail⟩ := List.cons.inj h
      obtain ⟨hkey, htoken⟩ := Prod.mk.inj hpair
      rw [he.eq hf hkey htoken, ih hrest htail]

/-- **A TEXT SPELLS ONE DOCUMENT.** -/
theorem Spells.unique {text : String} {a b : KvEncDocument} (ha : Spells text a)
    (hb : Spells text b) : a = b := by
  obtain @⟨draft, as, signature, hstands, hsignature, hvalid⟩ := ha
  generalize htext : draft.signedWith signature = text at hb
  obtain @⟨draft', bs, signature', hstands', hsignature', hvalid'⟩ := hb
  have hlines := parseLines_signedWith hstands signature hvalid
  rw [htext, parseLines_signedWith hstands' signature' hvalid'] at hlines
  obtain ⟨hhead, hwrap, htokens, hsig⟩ := documentLines_injective (Except.ok.inj hlines)
  have hdata := hstands.wrap_eq hstands' hwrap.symm
  have hheads := eq_of_tokenText (KvHeader.reads _) (KvHeader.reads _) hhead
  have hsignatures := eq_of_tokenText
    (encodable_signature hsignature'.wellFormed hsignature'.mac).reads
    (encodable_signature hsignature.wellFormed hsignature.mac).reads hsig
  rw [hstands.tokens, hstands'.tokens] at htokens
  have hentries := holds_eq hstands'.entries hstands.entries htokens
  rw [KvDocumentDraft.document, KvDocumentDraft.document, hwrap, hdata, hheads, hsignatures,
    hentries]

/-- **WHAT READS A TEXT READS THE DOCUMENT IT SPELLS.** -/
theorem Spells.read {text sourceName : String} {a b : KvEncDocument} (h : Spells text a)
    (hparse : parseKvDocumentWithSource text sourceName = .ok b) : b = a := by
  cases h with
  | intro hstands hsignature hvalid => exact (signed_parse hstands hsignature hvalid hparse).1

end KvDraft
