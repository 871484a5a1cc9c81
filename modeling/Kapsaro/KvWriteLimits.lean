import Kapsaro.Dotenv
import Kapsaro.FormatDetection
import Kapsaro.HistoryRuns
import Mathlib.Data.List.Dedup

/-!
# KV write limits — what a write checks of its text, and what the reader asks for

`service/kv/core.rs` and `service/artifact_text.rs`: before it is published, the text a mutation
made is taken for an artifact, which asks for its size and for its first line.  The reader of kv-enc
asks for more: key names, a number of KEY lines, tokens and a wrap within their limits.

* **`KvEncArtifact.parse`** — the check of the write path.
* **`AuthorizedKvMutation`** — the set and the unset of an authorized mutation.
* **`writtenDraft`** — the draft that a rewrite signs.
* **`ReadBack`** — the reader finds in a text the head, the wrap and the keys of a draft.
* **`RewriteFits`**, **`EntriesFit`** — what the reader asks for, on the document and the arguments.
* **`kvWriteLaws`** — a published text is read back exactly when its arguments fit.
-/

namespace KvWriteLimits

open JsonText JsonMembers JsonLimits Limits TextLines Base64Codec WireTexts WireModel DocumentTokens
open KvLines TokenRecords Envelope KvDocument SignedArtifacts KeyedList JsonSize KvDraft KvRewrap
open Recipients KvSession KvMutation TrustPolicy FormatDetection Dotenv TextScan ToyCrypto
open ToyDocuments ToyRewraps

/-! ## Artifacts -/

/-- The text of a kv-enc artifact. -/
structure KvEncArtifact where
  text : String

/-- The name of a format in messages. -/
def InputFormat.debug : InputFormat → String
  | .kvEnc => "KvEnc"
  | .fileEnc => "FileEnc"
  | .kvPlain => "KvPlain"
  | .unknown => "Unknown"

/-- The size of an artifact text. -/
def enforceTextSize (content sourceName : String) : Except Error Unit :=
  if maxKvEncFileSize < content.utf8ByteSize then
    .error (.parse (s!"kv-enc artifact exceeds maximum size limit ({content.utf8ByteSize} bytes " ++
      s!"> {maxKvEncFileSize} bytes): {sourceName}"))
  else .ok ()

/-- A text that is found to be kv-enc. -/
def KvEncContent.detect (reader : ValueReader) (content : String) : Except Error String := do
  let format ← detectFormat reader content
  if format = .kvEnc then pure content
  else throw (.parse s!"Expected kv-enc format, detected {InputFormat.debug format}")

namespace KvEncArtifact

/-- Take a text for a kv-enc artifact. -/
def parse (reader : ValueReader) (content : String) : Except Error KvEncArtifact := do
  enforceTextSize content "inline content"
  let content ← KvEncContent.detect reader content
  pure { text := content }

end KvEncArtifact

/-! ## Authorized mutations -/

/-- What a mutation is authorized for. -/
inductive KvMutationOperation where
  | set
  | unset
deriving DecidableEq, Repr

/-- A mutation of a document, for recipients, by a key. -/
structure AuthorizedKvMutation where
  content : String
  recipients : RecipientKeys
  keyCtx : KeyContext
  operation : KvMutationOperation

section Operations

variable (C : Crypto) (reader : ValueReader)

/-- The recipients of a write. -/
def writeRecipients (recipients : RecipientKeys) : KvRecipientSnapshot where
  memberHandles := recipients.keys.map VerifiedRecipientKey.subjectHandle
  verifiedMembers := recipients.keys

/-- Who writes. -/
def writeContext (keyCtx : KeyContext) : KvWriteContext where
  memberHandle := keyCtx.inner.memberHandle.text
  keyCtx := keyCtx.inner

/-- Set entries, and take the text for an artifact. -/
def KvEncArtifact.rewriteInternalEntries (existing : Option String) (entries : List KvInputEntry)
    (recipients : RecipientKeys) (keyCtx : KeyContext) (entropy : Entropy) :
    Except Error KvEncArtifact := do
  let encrypted ← setKvEntryWithRecipients C existing entries (writeRecipients recipients)
    (writeContext keyCtx) entropy
  KvEncArtifact.parse reader encrypted

namespace AuthorizedKvMutation

def enforceOperation (expected : String) (isExpected : Bool) : Except Error Unit :=
  if isExpected then .ok ()
  else .error (.invalidOperation
    s!"Authorized KV mutation is not authorized for {expected} mutations")

/-- Set entries of the document. -/
def setInternalEntries (mutation : AuthorizedKvMutation) (entries : List KvInputEntry)
    (entropy : Entropy) : Except Error KvEncArtifact := do
  enforceOperation "set" (mutation.operation = .set)
  KvEncArtifact.rewriteInternalEntries C reader (some mutation.content) entries mutation.recipients
    mutation.keyCtx entropy

/-- Unset an entry of the document. -/
def unsetEntry (mutation : AuthorizedKvMutation) (key : String) (entropy : Entropy) :
    Except Error KvEncArtifact := do
  enforceOperation "unset" (mutation.operation = .unset)
  let content ← unsetKvEntryWithRecipients C mutation.content key
    (writeRecipients mutation.recipients) (writeContext mutation.keyCtx) entropy
  KvEncArtifact.parse reader content

/-- Set the entries of a dotenv text. -/
def importEntries (mutation : AuthorizedKvMutation) (dotenvContent : String) (entropy : Entropy) :
    Except Error KvEncArtifact := do
  let entries ← parseDotenvEntries dotenvContent
  mutation.setInternalEntries C reader (entries.map fun entry => ⟨entry.1, entry.2⟩) entropy

end AuthorizedKvMutation

end Operations

/-! ## The draft that is signed -/

section Drafts

variable (C : Crypto)

/-- The draft that a rewrite signs, and the master key it proves. -/
def writtenDraft (content : String) (recipients : KvRecipientSnapshot) (ctx : KvWriteContext)
    (entropy : Entropy)
    (mutateUnsigned : KvDocumentDraft → VerifiedKvRewriteSession → MasterKey →
      Except Error KvDocumentDraft) : Except Error (KvDocumentDraft × MasterKey) := do
  let session ← VerifiedKvRewriteSession.load C content ctx.memberHandle ctx.keyCtx
  let head := buildUpdatedHeader session.verified (entropy.clock 0)
  let masterKey ← session.unwrapMasterKey C
  let unsigned ← session.buildUnsigned head
  let unsigned ← mutateUnsigned unsigned session masterKey
  let wrap ← buildCurrentWrap C session.verified.head.sid recipients masterKey
    session.verified.wrap.removedRecipients entropy.seed
  pure (unsigned.setWrap wrap, masterKey)

/-- The change of a set. -/
def setChange (entries : List KvInputEntry) (entropy : Entropy) (unsigned : KvDocumentDraft)
    (session : VerifiedKvRewriteSession) (masterKey : MasterKey) :
    Except Error KvDocumentDraft := do
  let entryTokens ← buildEntryTokens C entries masterKey session.verified.head.sid entropy.nonce
  pure (unsigned.setEntries entryTokens)

/-- The change of an unset. -/
def unsetChange (key : String) (unsigned : KvDocumentDraft) (session : VerifiedKvRewriteSession)
    (_ : MasterKey) : Except Error KvDocumentDraft :=
  if containsKey session.verified.lines key then .ok (unsigned.unsetEntry key)
  else .error (buildKeyNotFoundError key)

/-- The draft a set signs. -/
def AuthorizedKvMutation.setDraft (mutation : AuthorizedKvMutation) (entries : List KvInputEntry)
    (entropy : Entropy) : Except Error (KvDocumentDraft × MasterKey) :=
  writtenDraft C mutation.content (writeRecipients mutation.recipients)
    (writeContext mutation.keyCtx) entropy (setChange C entries entropy)

/-- The draft an unset signs. -/
def AuthorizedKvMutation.unsetDraft (mutation : AuthorizedKvMutation) (key : String)
    (entropy : Entropy) : Except Error (KvDocumentDraft × MasterKey) :=
  writtenDraft C mutation.content (writeRecipients mutation.recipients)
    (writeContext mutation.keyCtx) entropy (unsetChange key)

/-- A text is a draft, signed by a key. -/
def SignedText (draft : KvDocumentDraft) (masterKey : MasterKey) (keyCtx : KeyContext)
    (text : String) : Prop :=
  ∃ signing signature, buildSigningContext C keyCtx.inner = .ok signing
    ∧ SignedBy C draft masterKey signing signature text

/-- **A REWRITE SIGNS ITS DRAFT.** -/
theorem signedText_of_rewrite {C : Crypto} {content text : String} {recipients : RecipientKeys}
    {keyCtx : KeyContext} {entropy : Entropy}
    {mutateUnsigned : KvDocumentDraft → VerifiedKvRewriteSession → MasterKey →
      Except Error KvDocumentDraft}
    (h : rewriteExistingKvContent C content (writeRecipients recipients) (writeContext keyCtx)
      entropy mutateUnsigned = .ok text) :
    ∃ draft masterKey, writtenDraft C content (writeRecipients recipients) (writeContext keyCtx)
        entropy mutateUnsigned = .ok (draft, masterKey)
      ∧ SignedText C draft masterKey keyCtx text := by
  obtain ⟨session, hload, h⟩ := bind_eq_ok.mp h
  obtain ⟨doc, hverified, hsession⟩ := bind_eq_ok.mp hload
  obtain rfl := Except.ok.inj hsession
  obtain ⟨masterKey, hkey, h⟩ := bind_eq_ok.mp h
  obtain ⟨unsigned, hunsigned, h⟩ := bind_eq_ok.mp h
  obtain ⟨mutated, hmutated, h⟩ := bind_eq_ok.mp h
  obtain ⟨wrap, hwrap, h⟩ := bind_eq_ok.mp h
  obtain ⟨signing, hsigning, h⟩ := bind_eq_ok.mp h
  obtain ⟨signature, hsigned⟩ := signUnsignedKvDocument_ok h
  refine ⟨mutated.setWrap wrap, masterKey, ?_, signing, signature, hsigning, hsigned⟩
  exact bind_eq_ok.mpr ⟨_, hload, bind_eq_ok.mpr ⟨masterKey, hkey, bind_eq_ok.mpr ⟨unsigned,
    hunsigned, bind_eq_ok.mpr ⟨mutated, hmutated, bind_eq_ok.mpr ⟨wrap, hwrap, rfl⟩⟩⟩⟩⟩

/-- What the draft of a rewrite was made of. -/
theorem writtenDraft_ok {C : Crypto} {content : String} {recipients : RecipientKeys}
    {keyCtx : KeyContext} {entropy : Entropy}
    {mutateUnsigned : KvDocumentDraft → VerifiedKvRewriteSession → MasterKey →
      Except Error KvDocumentDraft} {draft : KvDocumentDraft} {masterKey : MasterKey}
    {doc : KvEncDocument} (hverified : verifyKvContent C content = .ok doc)
    (h : writtenDraft C content (writeRecipients recipients) (writeContext keyCtx) entropy
      mutateUnsigned = .ok (draft, masterKey)) :
    ∃ unsigned mutated items, Represents unsigned doc.entries
      ∧ unsigned.head = buildUpdatedHeader doc (entropy.clock 0)
      ∧ mutateUnsigned unsigned ⟨doc, keyCtx.inner.memberHandle.text, keyCtx.inner⟩ masterKey
        = .ok mutated
      ∧ buildWrapsForRecipients C recipients.keys doc.head.sid masterKey .kv entropy.seed
        = .ok items
      ∧ draft = mutated.setWrap ⟨items, doc.wrap.removedRecipients⟩ := by
  obtain ⟨session, hload, h⟩ := bind_eq_ok.mp h
  obtain ⟨doc', hverified', hsession⟩ := bind_eq_ok.mp hload
  obtain rfl := Except.ok.inj hsession
  obtain rfl := Except.ok.inj (hverified.symm.trans hverified')
  obtain ⟨_, _, h⟩ := bind_eq_ok.mp h
  obtain ⟨unsigned, hunsigned, h⟩ := bind_eq_ok.mp h
  obtain ⟨mutated, hmutated, h⟩ := bind_eq_ok.mp h
  obtain ⟨wrap, hwrap, h⟩ := bind_eq_ok.mp h
  obtain ⟨items, hitems, hwrap⟩ := bind_eq_ok.mp hwrap
  obtain rfl := Except.ok.inj hwrap
  obtain ⟨rfl, rfl⟩ := Prod.mk.inj (Except.ok.inj h)
  obtain ⟨headToken, sigToken, haccepted⟩ := accepted_of_verify hverified
  obtain ⟨unsigned', hunsigned', hhead, _, hrep⟩ := represents_fromDocument haccepted
    (wellFormed_updatedHeader haccepted (entropy.clock 0))
  obtain rfl := Except.ok.inj (hunsigned'.symm.trans hunsigned)
  exact ⟨unsigned', mutated, items, hrep, hhead, hmutated, hitems, rfl⟩

end Drafts

/-! ## What the reader asks for -/

/-- The reader accepts a text, and finds the head, the wrap and the keys of a draft. -/
def ReadBack (draft : KvDocumentDraft) (text : String) : Prop :=
  ∃ doc, parseKvDocument text = .ok doc
    ∧ doc.head = draft.head ∧ doc.wrap = draft.wrap.data
    ∧ doc.entries.map KvEncEntry.key = draft.entries.map KvDocumentEntry.key

/-- The token of a record is short enough to be read. -/
def Fits (record : Json) : Prop :=
  (tokenText record).utf8ByteSize ≤ maxBase64TokenLength

instance (record : Json) : Decidable (Fits record) := inferInstanceAs (Decidable (_ ≤ _))

/-- Some bytes as text, all zero. -/
def blank (size : Nat) : String :=
  encodeBase64urlNopad (List.replicate size 0)

/-- A wrap for a recipient with its sealed bytes left blank. -/
def blankItem (member : VerifiedRecipientKey) : WrapItem where
  recipientHandle := member.subjectHandle
  kid := member.kid
  alg := hpkeAlgorithm
  enc := blank 32
  ct := blank 48

/-- The wraps of a rewrite, with the history of the document. -/
def blankWrap (doc : KvEncDocument) (recipients : RecipientKeys) : KvWrap where
  wrap := recipients.keys.map blankItem
  removedRecipients := doc.wrap.removedRecipients

/-- An entry for a value with its encrypted bytes left blank. -/
def blankEntry (value : String) : KvEntryValue where
  nonce := blank 24
  ct := blank (value.utf8ByteSize + 16)
  disclosed := false

/-- A signature with its tag and its signed bytes left blank. -/
def blankSignature (signing : SigningContext) : ArtifactSignature where
  alg := signatureEd25519
  kid := signing.signerKid.text
  signerPub := signing.signerPub.document
  mac := {
    wire := KeyPossessionProof.algorithmPrefix ++ ":" ++ blank 32
    tag := List.replicate 32 0 }
  sig := blank 64

/-- What the reader asks of the parts that every rewrite makes anew. -/
structure RewriteFits (C : Crypto) (doc : KvEncDocument) (recipients : RecipientKeys)
    (keyCtx : KeyContext) (now : Timestamp) : Prop where
  head : Fits (buildUpdatedHeader doc now).toJson
  wrap : Fits (blankWrap doc recipients).toJson
  elements : elementCount (blankWrap doc recipients).toJson ≤ maxJsonElements
  inhabited : recipients.keys ≠ []
  handles : (recipients.keys.map VerifiedRecipientKey.subjectHandle).Nodup
  signature : ∀ signing, buildSigningContext C keyCtx.inner = .ok signing →
    Fits (blankSignature signing).toJson

/-- How many bytes a value may have for its token to be read. -/
def maxEntryValueSize : Nat := 589769

/-- What the reader asks of the entries of a set: names for keys, not too many of them, and values
    that are not too long, where the last value of a key counts. -/
structure EntriesFit (doc : KvEncDocument) (entries : List KvInputEntry) : Prop where
  keys : ∀ entry ∈ entries, isValidKeyName entry.key = true
  count : (doc.entries.map KvEncEntry.key ++ entries.map KvInputEntry.key).dedup.length
    ≤ maxKvKeyLines
  values : ∀ entry ∈ collect (entries.map fun entry => (entry.key, entry.value)),
    entry.2.utf8ByteSize ≤ maxEntryValueSize

/-! ## Drafts that are read back -/

/-- **A DRAFT IS READ BACK** when its wrap and its keys are those of a document, and its parts are
    within the limits; and only then. -/
theorem readBack_iff {C : Crypto} {draft : KvDocumentDraft} {entries : List KvEncEntry}
    {masterKey : MasterKey} {signing : SigningContext} {signature : ArtifactSignature}
    {text : String} (h : Stands draft entries) (hhead : draft.head.wellFormed = true)
    (hsigned : SignedBy C draft masterKey signing signature text) :
    ReadBack draft text ↔ WrapChecked draft.wrap.data ∧ KeysChecked draft
      ∧ WithinLimits draft signature := by
  constructor
  · rintro ⟨doc, hparse, _, hwrap, hkeys⟩
    obtain ⟨headToken, sigToken, haccepted⟩ := accepted_of_parse hparse
    have hvalid : ∀ entry ∈ draft.entries, isValidKeyName entry.key = true := by
      intro entry hentry
      have hmem : entry.key ∈ doc.entries.map KvEncEntry.key := by
        rw [hkeys]
        exact List.mem_map_of_mem hentry
      obtain ⟨e, he, hkey⟩ := List.mem_map.mp hmem
      rw [← hkey]
      exact haccepted.keys e he
    rw [hsigned.text_eq] at hparse
    obtain ⟨_, hchecked, hlimits⟩ := signed_parse h hsigned.checked hvalid hparse
    refine ⟨?_, hchecked, hlimits⟩
    rw [← hwrap]
    exact wrapChecked_of_parse haccepted.wrap
  · rintro ⟨hwrap, hkeys, hlimits⟩
    have hparse := parse_signed ⟨h, hhead, hwrap⟩ hsigned.checked hkeys hlimits "kv-enc content"
    rw [← hsigned.text_eq] at hparse
    exact ⟨_, hparse, rfl, rfl, h.keys.symm⟩

/-! ## Sizes of blank parts -/

theorem stringSize_blank {size : Nat} {data : Bytes} (h : data.length = size) :
    stringSize (encodeBase64urlNopad data) = stringSize (blank size) := by
  rw [blank, stringSize_encode, stringSize_encode, List.length_replicate, h]

/-- Records of one size fit together. -/
theorem fits_congr {a b : Json} (h : jsonSize a = jsonSize b) : Fits a ↔ Fits b := by
  rw [Fits, Fits, tokenText_size, tokenText_size, h]

section Blanks

variable {C : Crypto}

/-- A wrap has the size of its blank. -/
theorem size_blankItem (hC : Lawful C) {format : WrapFormat} {member : VerifiedRecipientKey}
    {sid : Uuid} {masterKey : MasterKey} {seed : Bytes} {item : WrapItem}
    (h : buildWrapItem C format member sid masterKey seed = .ok item) :
    jsonSize item.toJson = jsonSize (blankItem member).toJson := by
  obtain ⟨_, enc, ct, _, hseal, rfl⟩ := buildWrapItem_ok h
  obtain ⟨henc, hct⟩ := hC.seal_size hseal
  rw [masterKey.size] at hct
  rw [size_wrapItem, size_wrapItem]
  show 34 + stringSize member.subjectHandle + stringSize member.kid + stringSize hpkeAlgorithm
    + stringSize (encodeBase64urlNopad enc) + stringSize (encodeBase64urlNopad ct) = _
  rw [stringSize_blank henc, stringSize_blank hct]
  rfl

/-- Related lists have the same sum of weights. -/
theorem sum_of_forall₂ {α β : Type} {R : α → β → Prop} {left : α → Nat} {right : β → Nat}
    (heq : ∀ a b, R a b → left a = right b) {xs : List α} {ys : List β} (h : List.Forall₂ R xs ys) :
    (xs.map left).sum = (ys.map right).sum := by
  induction h with
  | nil => rfl
  | cons hxy _ ih =>
    rw [List.map_cons, List.sum_cons, List.map_cons, List.sum_cons, heq _ _ hxy, ih]

/-- The wraps of a rewrite have the size of their blanks. -/
theorem size_blankWrap (hC : Lawful C) {doc : KvEncDocument} {recipients : RecipientKeys}
    {masterKey : MasterKey} {seed : Nat → Bytes} {items : List WrapItem}
    (h : buildWrapsForRecipients C recipients.keys doc.head.sid masterKey .kv seed = .ok items) :
    jsonSize (KvWrap.mk items doc.wrap.removedRecipients).toJson
      = jsonSize (blankWrap doc recipients).toJson := by
  obtain ⟨_, hitems⟩ := buildWrapsForRecipients_ok h
  have hsizes : itemsSize (items.map WrapItem.toJson)
      = itemsSize ((recipients.keys.map blankItem).map WrapItem.toJson) := by
    rw [itemsSize_map, itemsSize_map, List.map_map]
    refine (sum_of_forall₂ ?_ hitems).symm
    rintro member item ⟨s, hs⟩
    exact congrArg (· + 1) (size_blankItem hC hs).symm
  have harr : jsonSize (.arr (items.map WrapItem.toJson))
      = jsonSize (.arr ((recipients.keys.map blankItem).map WrapItem.toJson)) := by
    rw [jsonSize, jsonSize, hsizes]
  rw [blankWrap, KvWrap.toJson, KvWrap.toJson, jsonSize_obj (by simp), jsonSize_obj (by simp)]
  simp only [membersSize, harr]

/-- The wraps of a rewrite have as many elements as their blanks. -/
theorem elements_blankWrap {doc : KvEncDocument} {recipients : RecipientKeys}
    {masterKey : MasterKey} {seed : Nat → Bytes} {items : List WrapItem}
    (h : buildWrapsForRecipients C recipients.keys doc.head.sid masterKey .kv seed = .ok items) :
    elementCount (KvWrap.mk items doc.wrap.removedRecipients).toJson
      = elementCount (blankWrap doc recipients).toJson := by
  have hlength : items.length = (recipients.keys.map blankItem).length := by
    rw [List.length_map, (buildWrapsForRecipients_ok h).2.length_eq]
  cases hitems : items with
  | nil =>
    rw [hitems] at hlength
    rw [blankWrap, List.length_eq_zero_iff.mp hlength.symm]
  | cons item rest =>
    have hne : recipients.keys.map blankItem ≠ [] := by
      intro hnil
      rw [hitems, hnil] at hlength
      cases hlength
    rw [← hitems, elements_wrap ⟨items, _⟩ (by rw [hitems]; exact List.cons_ne_nil _ _),
      elements_wrap (blankWrap doc recipients) hne]
    show _ = 2 + jsonElementsPerWrapItem * (recipients.keys.map blankItem).length + _
    rw [← hlength]
    rfl

/-- The wraps of a rewrite can be read when there are any, each for a handle of its own. -/
theorem wrapChecked_items (hC : Lawful C) {content headToken sigToken : String}
    {doc : KvEncDocument} (hdoc : Accepted content doc headToken sigToken)
    {recipients : RecipientKeys} {masterKey : MasterKey} {seed : Nat → Bytes}
    {items : List WrapItem}
    (h : buildWrapsForRecipients C recipients.keys doc.head.sid masterKey .kv seed = .ok items) :
    WrapChecked ⟨items, doc.wrap.removedRecipients⟩ ↔ recipients.keys ≠ []
      ∧ (recipients.keys.map VerifiedRecipientKey.subjectHandle).Nodup := by
  obtain ⟨hcount, hitems⟩ := buildWrapsForRecipients_ok h
  have hlength := hitems.length_eq
  have hhandles : items.map WrapItem.recipientHandle
      = recipients.keys.map VerifiedRecipientKey.subjectHandle := by
    have hpairs := congrArg (List.map Prod.fst) (recipients_of_built hitems)
    rw [List.map_map, List.map_map] at hpairs
    exact hpairs
  constructor
  · intro hwrap
    refine ⟨?_, hhandles ▸ hwrap.handles⟩
    have hwell := hwrap.wellFormed
    simp only [KvWrap.wellFormed, Bool.and_eq_true, decide_eq_true_iff] at hwell
    intro hnil
    rw [hnil] at hlength
    have hsome := hwell.1.1.1
    rw [← hlength] at hsome
    exact Nat.not_succ_le_zero 0 hsome
  · rintro ⟨hne, hnodup⟩
    refine ⟨?_, hhandles ▸ hnodup⟩
    have hold := (wrapChecked_of_parse hdoc.wrap).wellFormed
    simp only [KvWrap.wellFormed, Bool.and_eq_true, decide_eq_true_iff] at hold ⊢
    refine ⟨⟨⟨?_, ?_⟩, ?_⟩, hold.2⟩
    · rw [← hlength]
      exact List.length_pos_iff.mpr hne
    · rw [← hlength]
      exact hcount
    · refine List.all_eq_true.mpr fun item hitem => ?_
      obtain ⟨member, _, s, hs⟩ := exists_left_of_mem hitems hitem
      exact wellFormed_buildWrapItem hC hs

/-- A signature has the size of its blank. -/
theorem size_blankSignature {draft : KvDocumentDraft} {masterKey : MasterKey}
    {signing : SigningContext} {signature : ArtifactSignature} {text : String}
    (h : SignedBy C draft masterKey signing signature text) :
    jsonSize signature.toJson = jsonSize (blankSignature signing).toJson := by
  obtain ⟨mac, hmac, hbuild⟩ := bind_eq_ok.mp h.body
  obtain rfl := Except.ok.inj hbuild
  have hblank : KeyPossessionProof.tryNew (List.replicate 32 0)
      = .ok (blankSignature signing).mac := if_pos rfl
  have hwire : stringSize (buildArtifactSignature C (utf8 draft.unsignedText) mac signing).mac.wire
      = stringSize (blankSignature signing).mac.wire :=
    (size_macWire hmac).trans (size_macWire hblank).symm
  have hsig : stringSize (buildArtifactSignature C (utf8 draft.unsignedText) mac signing).sig
      = stringSize (blankSignature signing).sig :=
    stringSize_blank (C.sign signing.signingKey _).size
  rw [size_signature, size_signature, hwire, hsig]
  rfl

/-- An entry has the size of its blank. -/
theorem size_blankEntry (hC : Lawful C) {key value : String} {schedule : KeySchedule} {sid : Uuid}
    {nonce : FixedBytes 24} {entry : KvEntryValue}
    (h : encryptEntry C key value schedule sid nonce false = .ok entry) :
    jsonSize entry.toJson = jsonSize (blankEntry value).toJson := by
  obtain ⟨ct, hct, hnonce, htext, hdisclosed⟩ := encryptEntry_ok h
  have hlength := hC.encrypt_size hct
  rw [utf8_length] at hlength
  rw [size_entry, size_entry, hnonce, htext, hdisclosed, stringSize_blank nonce.size,
    stringSize_blank hlength]
  rfl

/-- **HOW LONG A VALUE MAY BE** for its token to be read. -/
theorem fits_blankEntry (value : String) :
    Fits (blankEntry value).toJson ↔ value.utf8ByteSize ≤ maxEntryValueSize := by
  have hnonce : stringSize (blank 24) = 34 := by
    rw [blank, stringSize_encode, List.length_replicate]
    rfl
  have hct : stringSize (blank (value.utf8ByteSize + 16))
      = 2 + computeEncodedLen (value.utf8ByteSize + 16) := by
    rw [blank, stringSize_encode, List.length_replicate]
  rw [Fits, tokenText_size, size_entry]
  show computeEncodedLen (16 + stringSize (blank 24) + stringSize (blank (value.utf8ByteSize + 16))
    + 0) ≤ maxBase64TokenLength ↔ _
  rw [hnonce, hct, maxBase64TokenLength, maxEntryValueSize, computeEncodedLen_eq,
    computeEncodedLen_eq]
  omega

end Blanks

/-! ## The entries of a set -/

section Sets

variable {C : Crypto}

/-- A token under the key of a value, which can be read when the value is short enough. -/
def Carries (pair entry : String × String) : Prop :=
  pair.1 = entry.1
    ∧ (pair.2.utf8ByteSize ≤ maxBase64TokenLength ↔ entry.2.utf8ByteSize ≤ maxEntryValueSize)

/-- The tokens of some entries carry their values. -/
theorem carries_encodeEntries (hC : Lawful C) {schedule : KeySchedule} {sid : Uuid}
    {nonce : Nat → FixedBytes 24} {i : Nat} {entries : List KvInputEntry}
    {tokens : List (String × String)}
    (h : encodeEntriesFrom C schedule sid nonce i entries = .ok tokens) :
    List.Forall₂ Carries tokens (entries.map fun entry => (entry.key, entry.value)) := by
  induction entries generalizing i tokens with
  | nil =>
    obtain rfl := Except.ok.inj h
    exact .nil
  | cons entry entries ih =>
    obtain ⟨token, htoken, h⟩ := bind_eq_ok.mp h
    obtain ⟨rest, hrest, h⟩ := bind_eq_ok.mp h
    obtain rfl := Except.ok.inj h
    refine .cons ⟨rfl, ?_⟩ (ih hrest)
    obtain ⟨value, hvalue, htoken⟩ := bind_eq_ok.mp htoken
    rw [encodeToken_eq (encodable_entry (wellFormed_encryptEntry hC hvalue).1).numbers] at htoken
    rw [← Except.ok.inj htoken]
    exact (fits_congr (size_blankEntry hC hvalue)).trans (fits_blankEntry entry.value)

/-- **THE TABLE OF A SET** can be read when the last value of each key is short enough. -/
theorem buildEntryTokens_fits (hC : Lawful C) {entries : List KvInputEntry} {masterKey : MasterKey}
    {sid : Uuid} {nonce : Nat → FixedBytes 24} {table : List (String × String)}
    (h : buildEntryTokens C entries masterKey sid nonce = .ok table) :
    (∀ pair ∈ table, pair.2.utf8ByteSize ≤ maxBase64TokenLength)
      ↔ ∀ entry ∈ collect (entries.map fun entry => (entry.key, entry.value)),
        entry.2.utf8ByteSize ≤ maxEntryValueSize := by
  obtain ⟨tokens, htokens, h⟩ := bind_eq_ok.mp h
  obtain rfl := Except.ok.inj h
  exact forall_iff_of_forall₂ (fun _ _ hcarries => hcarries.2)
    (forall₂_collect (fun _ _ hcarries => hcarries.1) (carries_encodeEntries hC htokens))

variable {draft : KvDocumentDraft} {table : List (String × String)}

/-- The token of an entry of a draft is found under its key. -/
theorem tokenOf_entry (h : (draft.entries.map KvDocumentEntry.key).Nodup) {entry : KvDocumentEntry}
    (hentry : entry ∈ draft.entries) : tokenOf draft entry.key = some entry.token := by
  rw [tokenOf, find?_eq_of_unique hentry (decide_eq_true rfl)
    fun other hother hkey => List.inj_on_of_nodup_map h hother hentry (of_decide_eq_true hkey)]
  rfl

/-- A token that is found belongs to an entry. -/
theorem entry_of_tokenOf {key token : String} (h : tokenOf draft key = some token) :
    ∃ entry ∈ draft.entries, entry.key = key ∧ entry.token = token := by
  obtain ⟨entry, hfind, htoken⟩ := Option.map_eq_some_iff.mp h
  have hkey := @List.find?_some _
    (fun entry : KvDocumentEntry => decide (entry.key = key)) _ _ hfind
  exact ⟨entry, List.mem_of_find?_eq_some hfind, of_decide_eq_true hkey, htoken⟩

/-- The tokens after a set are the ones before and the ones of the table. -/
theorem tokens_setEntries (hdraft : (draft.entries.map KvDocumentEntry.key).Nodup)
    (htable : (table.map Prod.fst).Nodup) {P : String → Prop}
    (hbefore : ∀ entry ∈ draft.entries, P entry.token) :
    (∀ entry ∈ (draft.setEntries table).entries, P entry.token) ↔ ∀ pair ∈ table, P pair.2 := by
  have hset := entriesSet_setEntries hdraft htable
  constructor
  · intro hall pair hpair
    have hfound : tokenOf (draft.setEntries table) pair.1 = some pair.2 := by
      rw [hset.tokens, (lookup_eq_some_iff_mem htable).mpr hpair]
      rfl
    obtain ⟨entry, hentry, _, htoken⟩ := entry_of_tokenOf hfound
    rw [← htoken]
    exact hall entry hentry
  · intro hall entry hentry
    have hfound := tokenOf_entry hset.distinct hentry
    rw [hset.tokens] at hfound
    cases hlook : table.lookup entry.key with
    | some token =>
      rw [hlook] at hfound
      obtain rfl : token = entry.token := Option.some.inj hfound
      exact hall _ ((lookup_eq_some_iff_mem htable).mp hlook)
    | none =>
      rw [hlook] at hfound
      obtain ⟨old, hold, _, htoken⟩ := entry_of_tokenOf hfound
      rw [← htoken]
      exact hbefore old hold

/-- A set leaves one entry for each key, of the draft or of the table. -/
theorem length_setEntries (hdraft : (draft.entries.map KvDocumentEntry.key).Nodup)
    (htable : (table.map Prod.fst).Nodup) {keys : List String}
    (hkeys : ∀ key, key ∈ table.map Prod.fst ↔ key ∈ keys) :
    (draft.setEntries table).entries.length
      = (draft.entries.map KvDocumentEntry.key ++ keys).dedup.length := by
  have hset := entriesSet_setEntries hdraft htable
  obtain ⟨added, hadded, _, hnew⟩ := hset.keys
  rw [← List.length_map KvDocumentEntry.key]
  refine ((List.perm_ext_iff_of_nodup hset.distinct (List.nodup_dedup _)).mpr ?_).length_eq
  intro key
  rw [hadded, List.mem_append, hnew, List.mem_dedup, List.mem_append, hkeys]
  constructor
  · rintro (hold | ⟨hkey, _⟩)
    · exact Or.inl hold
    · exact Or.inr hkey
  · intro hmem
    by_cases hold : key ∈ draft.entries.map KvDocumentEntry.key
    · exact Or.inl hold
    · exact Or.inr ⟨hmem.resolve_left hold, hold⟩

/-- The keys after a set are names when those of the table are. -/
theorem valid_setEntries (hdraft : (draft.entries.map KvDocumentEntry.key).Nodup)
    (htable : (table.map Prod.fst).Nodup)
    (hbefore : ∀ entry ∈ draft.entries, isValidKeyName entry.key = true) :
    (∀ entry ∈ (draft.setEntries table).entries, isValidKeyName entry.key = true)
      ↔ ∀ key ∈ table.map Prod.fst, isValidKeyName key = true := by
  obtain ⟨added, hadded, _, hnew⟩ := (entriesSet_setEntries hdraft htable).keys
  have hmap : (∀ entry ∈ (draft.setEntries table).entries, isValidKeyName entry.key = true)
      ↔ ∀ key ∈ draft.entries.map KvDocumentEntry.key ++ added, isValidKeyName key = true := by
    rw [← hadded]
    exact (List.forall_mem_map (P := fun key => isValidKeyName key = true)).symm
  have hold : ∀ key ∈ draft.entries.map KvDocumentEntry.key, isValidKeyName key = true :=
    (List.forall_mem_map (P := fun key => isValidKeyName key = true)).mpr hbefore
  rw [hmap]
  constructor
  · intro hall key hkey
    by_cases hmem : key ∈ draft.entries.map KvDocumentEntry.key
    · exact hold key hmem
    · exact hall key (List.mem_append_right _ ((hnew key).mpr ⟨hkey, hmem⟩))
  · intro hall key hkey
    rcases List.mem_append.mp hkey with hmem | hadd
    · exact hold key hmem
    · exact hall key ((hnew key).mp hadd).1

end Sets

/-! ## What is published -/

section Publication

variable {C : Crypto} {reader : ValueReader}

/-- What the write path checks of a text. -/
theorem parse_ok {content : String} {artifact : KvEncArtifact}
    (h : KvEncArtifact.parse reader content = .ok artifact) :
    artifact.text = content ∧ content.utf8ByteSize ≤ maxKvEncFileSize := by
  obtain ⟨_, hsize, h⟩ := bind_eq_ok.mp h
  obtain ⟨found, hdetect, h⟩ := bind_eq_ok.mp h
  obtain ⟨format, _, hdetect⟩ := bind_eq_ok.mp hdetect
  obtain rfl := Except.ok.inj h
  constructor
  · show found = content
    split at hdetect
    · exact (Except.ok.inj hdetect).symm
    · cases hdetect
  · rw [enforceTextSize] at hsize
    split at hsize
    · cases hsize
    · rename_i hle
      exact Nat.le_of_not_lt hle

/-- A signed draft passes the check of the write path, if it is not too long. -/
theorem parse_signedWith {draft : KvDocumentDraft} {entries : List KvEncEntry}
    (h : Stands draft entries) (signature : ArtifactSignature)
    (hsize : (draft.signedWith signature).utf8ByteSize ≤ maxKvEncFileSize) :
    KvEncArtifact.parse reader (draft.signedWith signature)
      = .ok ⟨draft.signedWith signature⟩ := by
  have hmade : ∀ v, HistoryRuns.TokenText (tokenText v) := fun v =>
    ⟨tokenText_ne_empty v, tokenText_chars v⟩
  have hwrap : HistoryRuns.TokenText draft.wrapToken := by
    rw [KvDocumentDraft.wrapToken]
    cases htoken : draft.wrap.token with
    | none => exact hmade _
    | some token =>
      obtain ⟨w, hw, _⟩ := bind_eq_ok.mp (h.raw token htoken)
      exact token_of_parse hw
  obtain ⟨rest, hlines⟩ := HistoryRuns.textLines_signedText (hmade draft.head.toJson) hwrap
    draft.tokens (tokenText signature.toJson)
  have hkv : detectKvEnc (draft.signedWith signature) = some .kvEnc := by
    have hheader : lineText (.header .v1) = headerLineV1.toList := by decide
    rw [detectKvEnc, KvDocumentDraft.signedWith, KvDocumentDraft.unsignedText, hlines,
      List.head?_cons, hheader, if_pos rfl]
  have htrim : trim (draft.signedWith signature).toList ≠ [] := by
    have hcolon : ∃ rest, (draft.signedWith signature).toList = ':' :: rest := by
      have hopen : headerLineV1.toList = ':' :: headerLineV1.toList.tail := by decide
      rw [KvDocumentDraft.signedWith, KvDocumentDraft.unsignedText, signedText,
        buildUnsignedKvDocument, hopen]
      simp
    obtain ⟨rest, hrest⟩ := hcolon
    have hstart : trimStart (draft.signedWith signature).toList = ':' :: rest := by
      rw [hrest, trimStart_cons (by decide)]
    obtain ⟨kept, hkept⟩ := trim_of_trimStart hstart
    rw [hkept]
    exact List.cons_ne_nil _ _
  have hdetect : KvEncContent.detect reader (draft.signedWith signature)
      = .ok (draft.signedWith signature) := by
    rw [KvEncContent.detect, detectFormat, if_neg htrim, hkv]
    rfl
  have hshort : enforceTextSize (draft.signedWith signature) "inline content" = .ok () := by
    rw [enforceTextSize, if_neg (Nat.not_lt.mpr hsize)]
  exact bind_eq_ok.mpr ⟨(), hshort, bind_eq_ok.mpr ⟨_, hdetect, rfl⟩⟩

/-- What the reader asks of the entries of a draft. -/
structure EntriesReadable (draft : KvDocumentDraft) : Prop where
  keys : KeysChecked draft
  tokens : ∀ entry ∈ draft.entries, entry.token.utf8ByteSize ≤ maxBase64TokenLength
  count : draft.entries.length ≤ maxKvKeyLines

/-- **A REWRITE IS READ BACK** when the parts it makes anew fit, and its entries can be read. -/
theorem readBack_rewrite (hC : Lawful C) {content headToken sigToken : String} {doc : KvEncDocument}
    (hdoc : Accepted content doc headToken sigToken) {recipients : RecipientKeys}
    {keyCtx : KeyContext} {now : Timestamp} {mutated : KvDocumentDraft}
    {entries : List KvEncEntry} (hstands : Stands mutated entries)
    (hhead : mutated.head = buildUpdatedHeader doc now) {masterKey key : MasterKey}
    {seed : Nat → Bytes} {items : List WrapItem}
    (hitems : buildWrapsForRecipients C recipients.keys doc.head.sid key .kv seed = .ok items)
    {text : String}
    (hsigned : SignedText C (mutated.setWrap ⟨items, doc.wrap.removedRecipients⟩) masterKey keyCtx
      text) (hsize : text.utf8ByteSize ≤ maxKvEncFileSize) :
    ReadBack (mutated.setWrap ⟨items, doc.wrap.removedRecipients⟩) text
      ↔ RewriteFits C doc recipients keyCtx now ∧ EntriesReadable mutated := by
  obtain ⟨signing, signature, hsigning, hsigned⟩ := hsigned
  have hwrapped : Stands (mutated.setWrap ⟨items, doc.wrap.removedRecipients⟩) entries :=
    ⟨fun _ htoken => (by cases htoken), hstands.entries⟩
  have hwell : (mutated.setWrap ⟨items, doc.wrap.removedRecipients⟩).head.wellFormed = true := by
    show mutated.head.wellFormed = true
    rw [hhead]
    exact wellFormed_updatedHeader hdoc now
  -- The sizes of the drawn texts do not depend on the draws.
  have hwrapFits := fits_congr (size_blankWrap hC hitems)
  have helements := elements_blankWrap hitems
  have hsignatureFits := fits_congr (size_blankSignature hsigned)
  rw [hsigned.text_eq] at hsize
  rw [readBack_iff hwrapped hwell hsigned]
  constructor
  · rintro ⟨hwrap, hkeys, hlimits⟩
    obtain ⟨hne, hhandles⟩ := (wrapChecked_items hC hdoc hitems).mp hwrap
    refine ⟨⟨?_, hwrapFits.mp hlimits.wrapToken, ?_, hne, hhandles, ?_⟩,
      ⟨⟨hkeys.valid, hkeys.distinct⟩, ?_, hlimits.count⟩⟩
    · rw [← hhead]
      exact hlimits.headToken
    · rw [← helements]
      exact hlimits.wrapElements rfl
    · intro other hother
      obtain rfl := Except.ok.inj (hsigning.symm.trans hother)
      exact hsignatureFits.mp hlimits.sigToken
    · intro entry hentry
      exact hlimits.entryTokens (entry.key, entry.token) (List.mem_map_of_mem hentry)
  · rintro ⟨hfits, hreadable⟩
    refine ⟨(wrapChecked_items hC hdoc hitems).mpr ⟨hfits.inhabited, hfits.handles⟩,
      ⟨hreadable.keys.valid, hreadable.keys.distinct⟩, ?_⟩
    refine ⟨?_, hwrapFits.mpr hfits.wrap, fun _ => ?_, ?_,
      hsignatureFits.mpr (hfits.signature signing hsigning), hreadable.count, hsize⟩
    · show Fits mutated.head.toJson
      rw [hhead]
      exact hfits.head
    · show elementCount (KvWrap.mk items doc.wrap.removedRecipients).toJson ≤ maxJsonElements
      rw [helements]
      exact hfits.elements
    · intro pair hpair
      obtain ⟨entry, hentry, rfl⟩ := List.mem_map.mp hpair
      exact hreadable.tokens entry hentry

/-- The entries of a parsed document can be read, as a draft. -/
theorem entriesReadable_of {content headToken sigToken : String} {doc : KvEncDocument}
    (hdoc : Accepted content doc headToken sigToken) {draft : KvDocumentDraft}
    (h : Stands draft doc.entries) : EntriesReadable draft where
  keys := by
    refine ⟨fun entry hentry => ?_, h.keys ▸ hdoc.distinct⟩
    obtain ⟨e, he, hholds⟩ := exists_right_of_mem h.entries hentry
    rw [← hholds.key]
    exact hdoc.keys e he
  tokens := by
    intro entry hentry
    obtain ⟨e, he, hholds⟩ := exists_right_of_mem h.entries hentry
    rw [← hholds.token]
    exact (parseJsonToken_ok (hdoc.entries e he)).1.1
  count := by
    rw [h.entries.length_eq]
    exact hdoc.count

/-- **THE ENTRIES OF A SET CAN BE READ** when they fit. -/
theorem entriesReadable_set (hC : Lawful C) {content headToken sigToken : String}
    {doc : KvEncDocument} (hdoc : Accepted content doc headToken sigToken)
    {unsigned : KvDocumentDraft} (h : Stands unsigned doc.entries) {entries : List KvInputEntry}
    {masterKey : MasterKey} {sid : Uuid} {nonce : Nat → FixedBytes 24}
    {table : List (String × String)}
    (htable : buildEntryTokens C entries masterKey sid nonce = .ok table) :
    EntriesReadable (unsigned.setEntries table) ↔ EntriesFit doc entries := by
  obtain ⟨hnodup, hkeys, _⟩ := buildEntryTokens_ok htable
  have hold := entriesReadable_of hdoc h
  have hdistinct := hold.keys.distinct
  have hvalid := valid_setEntries hdistinct hnodup hold.keys.valid
  have htokens := (tokens_setEntries (P := fun token => token.utf8ByteSize ≤ maxBase64TokenLength)
    hdistinct hnodup hold.tokens).trans (buildEntryTokens_fits hC htable)
  have hlength := length_setEntries hdistinct hnodup hkeys
  rw [h.keys] at hlength
  have hnames : (∀ key ∈ table.map Prod.fst, isValidKeyName key = true)
      ↔ ∀ entry ∈ entries, isValidKeyName entry.key = true := by
    rw [← List.forall_mem_map (f := KvInputEntry.key)
      (P := fun key => isValidKeyName key = true)]
    exact forall_congr' fun key => by rw [hkeys]
  constructor
  · rintro ⟨hchecked, hshort, hcount⟩
    exact ⟨hnames.mp (hvalid.mp hchecked.valid), hlength ▸ hcount, htokens.mp hshort⟩
  · rintro ⟨hnamed, hcount, hvalues⟩
    exact ⟨⟨hvalid.mpr (hnames.mpr hnamed), (entriesSet_setEntries hdistinct hnodup).distinct⟩,
      htokens.mpr hvalues, hlength ▸ hcount⟩

end Publication

/-! ## The laws -/

/-- What a published mutation of a document comes to. -/
structure KvWriteLaws (C : Crypto) : Prop where
  /-- a set publishes its draft, signed -/
  setSigned : ∀ (reader : ValueReader) (mutation : AuthorizedKvMutation)
    (entries : List KvInputEntry) (entropy : Entropy) (artifact : KvEncArtifact),
    mutation.setInternalEntries C reader entries entropy = .ok artifact →
    ∃ draft masterKey, mutation.setDraft C entries entropy = .ok (draft, masterKey)
      ∧ SignedText C draft masterKey mutation.keyCtx artifact.text
  /-- and so does an unset -/
  unsetSigned : ∀ (reader : ValueReader) (mutation : AuthorizedKvMutation)
    (key : String) (entropy : Entropy) (artifact : KvEncArtifact),
    mutation.unsetEntry C reader key entropy = .ok artifact →
    ∃ draft masterKey, mutation.unsetDraft C key entropy = .ok (draft, masterKey)
      ∧ SignedText C draft masterKey mutation.keyCtx artifact.text
  /-- an import is a set of the entries of its text, whose keys are names -/
  imported : ∀ (reader : ValueReader) (mutation : AuthorizedKvMutation)
    (dotenvContent : String) (entropy : Entropy) (artifact : KvEncArtifact),
    mutation.importEntries C reader dotenvContent entropy = .ok artifact →
    ∃ entries, parseDotenvEntries dotenvContent = .ok entries
      ∧ mutation.setInternalEntries C reader (entries.map fun entry => ⟨entry.1, entry.2⟩) entropy
        = .ok artifact
      ∧ ∀ entry ∈ entries, isValidKeyName entry.1 = true
  /-- what a set publishes is read back exactly when what it writes anew fits, and its entries -/
  set : ∀ (reader : ValueReader) (mutation : AuthorizedKvMutation)
    (entries : List KvInputEntry) (entropy : Entropy) (artifact : KvEncArtifact)
    (doc : KvEncDocument) (draft : KvDocumentDraft) (masterKey : MasterKey),
    verifyKvContent C mutation.content = .ok doc →
    mutation.setInternalEntries C reader entries entropy = .ok artifact →
    mutation.setDraft C entries entropy = .ok (draft, masterKey) →
    (ReadBack draft artifact.text
      ↔ RewriteFits C doc mutation.recipients mutation.keyCtx (entropy.clock 0)
        ∧ EntriesFit doc entries)
  /-- what an unset publishes is read back exactly when what it writes anew fits -/
  unset : ∀ (reader : ValueReader) (mutation : AuthorizedKvMutation)
    (key : String) (entropy : Entropy) (artifact : KvEncArtifact) (doc : KvEncDocument)
    (draft : KvDocumentDraft) (masterKey : MasterKey),
    verifyKvContent C mutation.content = .ok doc →
    mutation.unsetEntry C reader key entropy = .ok artifact →
    mutation.unsetDraft C key entropy = .ok (draft, masterKey) →
    (ReadBack draft artifact.text
      ↔ RewriteFits C doc mutation.recipients mutation.keyCtx (entropy.clock 0))

section Laws

variable {C : Crypto} {reader : ValueReader} {mutation : AuthorizedKvMutation} {entropy : Entropy}
  {artifact : KvEncArtifact}

/-- A set that is published: its text is checked, and is its draft, signed. -/
theorem setInternalEntries_ok {entries : List KvInputEntry}
    (h : mutation.setInternalEntries C reader entries entropy = .ok artifact) :
    artifact.text.utf8ByteSize ≤ maxKvEncFileSize
      ∧ ∃ draft masterKey, mutation.setDraft C entries entropy = .ok (draft, masterKey)
        ∧ SignedText C draft masterKey mutation.keyCtx artifact.text := by
  obtain ⟨_, _, h⟩ := bind_eq_ok.mp h
  obtain ⟨text, htext, h⟩ := bind_eq_ok.mp h
  obtain ⟨htextEq, hsize⟩ := parse_ok h
  rw [htextEq]
  exact ⟨hsize, signedText_of_rewrite htext⟩

theorem unsetEntry_ok {key : String}
    (h : mutation.unsetEntry C reader key entropy = .ok artifact) :
    artifact.text.utf8ByteSize ≤ maxKvEncFileSize
      ∧ ∃ draft masterKey, mutation.unsetDraft C key entropy = .ok (draft, masterKey)
        ∧ SignedText C draft masterKey mutation.keyCtx artifact.text := by
  obtain ⟨_, _, h⟩ := bind_eq_ok.mp h
  obtain ⟨text, htext, h⟩ := bind_eq_ok.mp h
  obtain ⟨htextEq, hsize⟩ := parse_ok h
  rw [htextEq]
  exact ⟨hsize, signedText_of_rewrite htext⟩

/-- **WHAT A SET PUBLISHES IS READ BACK** exactly when it fits. -/
theorem readBack_set (hC : Lawful C) {entries : List KvInputEntry} {doc : KvEncDocument}
    {draft : KvDocumentDraft} {masterKey : MasterKey}
    (hverified : verifyKvContent C mutation.content = .ok doc)
    (h : mutation.setInternalEntries C reader entries entropy = .ok artifact)
    (hdraft : mutation.setDraft C entries entropy = .ok (draft, masterKey)) :
    ReadBack draft artifact.text
      ↔ RewriteFits C doc mutation.recipients mutation.keyCtx (entropy.clock 0)
        ∧ EntriesFit doc entries := by
  obtain ⟨hsize, found, foundKey, hfound, hsigned⟩ := setInternalEntries_ok h
  obtain ⟨rfl, rfl⟩ := Prod.mk.inj (Except.ok.inj (hfound.symm.trans hdraft))
  obtain ⟨headToken, sigToken, hdoc⟩ := accepted_of_verify hverified
  obtain ⟨unsigned, mutated, items, hrep, hhead, hmutated, hitems, rfl⟩ :=
    writtenDraft_ok hverified hdraft
  obtain ⟨table, htable, hset⟩ := bind_eq_ok.mp hmutated
  obtain rfl := Except.ok.inj hset
  obtain ⟨_, _, hencoded⟩ := buildEntryTokens_ok htable
  obtain ⟨values, hvalues⟩ := represents_setEntries hrep (hencoded hC)
  rw [readBack_rewrite hC hdoc hvalues.toStands hhead hitems hsigned hsize,
    entriesReadable_set hC hdoc hrep.toStands htable]

/-- **WHAT AN UNSET PUBLISHES IS READ BACK** exactly when what it writes anew fits. -/
theorem readBack_unset (hC : Lawful C) {key : String} {doc : KvEncDocument}
    {draft : KvDocumentDraft} {masterKey : MasterKey}
    (hverified : verifyKvContent C mutation.content = .ok doc)
    (h : mutation.unsetEntry C reader key entropy = .ok artifact)
    (hdraft : mutation.unsetDraft C key entropy = .ok (draft, masterKey)) :
    ReadBack draft artifact.text
      ↔ RewriteFits C doc mutation.recipients mutation.keyCtx (entropy.clock 0) := by
  obtain ⟨hsize, found, foundKey, hfound, hsigned⟩ := unsetEntry_ok h
  obtain ⟨rfl, rfl⟩ := Prod.mk.inj (Except.ok.inj (hfound.symm.trans hdraft))
  obtain ⟨headToken, sigToken, hdoc⟩ := accepted_of_verify hverified
  obtain ⟨unsigned, mutated, items, hrep, hhead, hmutated, hitems, rfl⟩ :=
    writtenDraft_ok hverified hdraft
  rw [unsetChange] at hmutated
  split at hmutated
  · obtain rfl := Except.ok.inj hmutated
    have hold := entriesReadable_of hdoc hrep.toStands
    have hreadable : EntriesReadable (unsigned.unsetEntry key) := by
      have hsub : (unsigned.unsetEntry key).entries.Sublist unsigned.entries :=
        (entryUnset_unsetEntry unsigned key).order
      exact ⟨⟨fun entry hentry => hold.keys.valid entry (hsub.subset hentry),
          (hsub.map KvDocumentEntry.key).nodup hold.keys.distinct⟩,
        fun entry hentry => hold.tokens entry (hsub.subset hentry),
        Nat.le_trans hsub.length_le hold.count⟩
    rw [readBack_rewrite hC hdoc (represents_unsetEntry hrep key).toStands hhead hitems hsigned
      hsize, and_iff_left hreadable]
  · cases hmutated

end Laws

/-- **THE LIMITS OF A WRITE**: the size of a text is checked before it is published, and nothing
    else that the reader asks for; whether the text can be read is up to what was written. -/
theorem kvWriteLaws {C : Crypto} (hC : Lawful C) : KvWriteLaws C where
  setSigned _ _ _ _ _ h := (setInternalEntries_ok h).2
  unsetSigned _ _ _ _ _ h := (unsetEntry_ok h).2
  imported reader mutation dotenvContent entropy artifact h := by
    obtain ⟨entries, hentries, h⟩ := bind_eq_ok.mp h
    exact ⟨entries, hentries, h, (parseDotenvEntries_ok hentries).2.1⟩
  set _ _ _ _ _ _ _ _ hverified h hdraft := readBack_set hC hverified h hdraft
  unset _ _ _ _ _ _ _ _ hverified h hdraft := readBack_unset hC hverified h hdraft

/-! ## Sets of a toy document -/

section Toy

/-- Alice writes to a document, for herself. -/
def toyMutation (content : String) : AuthorizedKvMutation where
  content := content
  recipients := ⟨[toyMember alice toyKid []]⟩
  keyCtx := ⟨toyContext alice toyKid [], none⟩
  operation := .set

/-- The document that is written to, opened by Alice. -/
def toySession (signature : ArtifactSignature) : VerifiedKvRewriteSession where
  verified := (toyDraft toySid ⟨[toyWrap alice toyKid [] (pad 32 [1])], none⟩
    (pad 32 [1])).document [toyEntry (pad 32 [1])] signature
  memberHandle := alice.text
  keyCtx := toyContext alice toyKid []

/-- A set of one key. -/
def toyEntries (key : String) : List KvInputEntry := [⟨key, "value"⟩]

/-- The token of the toy value, under a key. -/
def toyTable (key : String) : List (String × String) := [(key, (toyEntry (pad 32 [1])).token)]

/-- The wrap of a set, for Alice. -/
def toyWritten (draft : KvDocumentDraft) (key : String) : KvDocumentDraft :=
  (draft.setEntries (toyTable key)).setWrap ⟨[toyWrap alice toyKid [] (pad 32 [1])], none⟩

theorem buildEntryTokens_toy (key : String) :
    buildEntryTokens toyCrypto (toyEntries key) (pad 32 [1]) toySid
      (toyDraws toySid (pad 32 [1])).nonce = .ok (toyTable key) := by
  have hentry := encryptEntry_toy key "value" (pad 32 [1]) toySid false
  have hwell := (wellFormed_encryptEntry lawful_toyCrypto hentry).1
  have htoken := encodeToken_eq (encodable_entry hwell).numbers
  exact bind_eq_ok.mpr ⟨toyTable key, bind_eq_ok.mpr ⟨_, bind_eq_ok.mpr ⟨_, hentry, htoken⟩,
    bind_eq_ok.mpr ⟨[], rfl, rfl⟩⟩, rfl⟩

/-- The tokens of a toy draft after the set of another key. -/
theorem tokens_toyWritten {key : String} (hne : key ≠ "KEY") {draft : KvDocumentDraft}
    (h : draft.tokens = [("KEY", (toyEntry (pad 32 [1])).token)]) :
    (toyWritten draft key).tokens
      = [("KEY", (toyEntry (pad 32 [1])).token), (key, (toyEntry (pad 32 [1])).token)] := by
  obtain ⟨entry, hentry, hpair⟩ := List.map_eq_singleton_iff.mp h
  obtain ⟨hkey, htoken⟩ := Prod.mk.inj hpair
  have hrenew : renew KvDocumentEntry.key KvDocumentEntry.encoded (toyTable key) entry = entry := by
    have hlook : (toyTable key).lookup entry.key = none := by
      rw [hkey, toyTable, List.lookup_cons, beq_eq_false_iff_ne.mpr hne.symm]
      rfl
    rw [renew, hlook]
  have hadded : additions KvDocumentEntry.key (toyTable key) [entry] = toyTable key := by
    have hnew : key ∉ [entry].map KvDocumentEntry.key := by
      rw [List.map_singleton, hkey, List.mem_singleton]
      exact hne
    have hkept : (toyTable key).filter (fun pair => pair.1 ∉ [entry].map KvDocumentEntry.key)
        = toyTable key :=
      List.filter_eq_self.mpr fun pair hpair => by
        rw [List.mem_singleton.mp hpair]
        exact decide_eq_true hnew
    rw [additions, hkept]
    rfl
  show (draft.setEntries (toyTable key)).entries.map _ = _
  rw [entries_setEntries, hentry, setAll, List.map_singleton, hrenew, hadded, List.map_append,
    List.map_singleton, hkey, htoken]
  rfl

/-- That set makes a short text. -/
theorem short_toyWritten {key : String} (hne : key ≠ "KEY") (hshort : key.utf8ByteSize ≤ 10)
    {draft : KvDocumentDraft} (hhead : draft.head = toyHead toySid)
    (htokens : draft.tokens = [("KEY", (toyEntry (pad 32 [1])).token)]) {secret : Bytes}
    {signature : ArtifactSignature} {text : String}
    (hsigned : SignedBy toyCrypto (toyWritten draft key) (pad 32 [1]) (toySigning alice secret)
      signature text) :
    ((toyWritten draft key).signedWith signature).utf8ByteSize ≤ maxKvEncFileSize := by
  have hhandle : stringSize alice.text ≤ 200 := by decide
  have hwrap := (smallWraps_single hhandle toyKid [] (pad 32 [1])).unremoved.size
  have htoken : (toyEntry (pad 32 [1])).token.utf8ByteSize ≤ 403 := by
    show (tokenText (markedValue (pad 32 [1]) false).toJson).utf8ByteSize ≤ 403
    rw [tokenText_size]
    exact computeEncodedLen_le (size_markedValue (pad 32 [1]) false)
  have hkey : "KEY".utf8ByteSize = 3 := by decide
  have h1 := computeEncodedLen_le (size_toyHead toySid)
  have h2 := computeEncodedLen_le hwrap
  have h3 := computeEncodedLen_le (size_signature_toyDraft hhandle hsigned)
  rw [← tokenText_size] at h1 h2 h3
  rw [size_signedWith, tokens_toyWritten hne htokens, maxKvEncFileSize]
  show _ + (tokenText draft.head.toJson).utf8ByteSize + (tokenText (KvWrap.toJson
    ⟨[toyWrap alice toyKid [] (pad 32 [1])], none⟩)).utf8ByteSize + _ + _ ≤ _
  rw [hhead]
  simp only [List.map_cons, List.map_nil, List.sum_cons, List.sum_nil, hkey]
  omega

/-- A set of a key, as it runs. -/
structure ToySet (key : String) (mutation : AuthorizedKvMutation) (artifact : KvEncArtifact)
    (doc : KvEncDocument) (draft : KvDocumentDraft) : Prop where
  verified : verifyKvContent toyCrypto mutation.content = .ok doc
  run : mutation.setInternalEntries toyCrypto plainReader (toyEntries key)
    (toyDraws toySid (pad 32 [1])) = .ok artifact
  drafted : mutation.setDraft toyCrypto (toyEntries key) (toyDraws toySid (pad 32 [1]))
    = .ok (draft, pad 32 [1])

/-- **A SET OF ANY OTHER SHORT KEY IS PUBLISHED.** -/
theorem exists_toySet {key : String} (hne : key ≠ "KEY") (hlength : key.utf8ByteSize ≤ 10) :
    ∃ content signature draft artifact,
      ToySet key (toyMutation content) artifact (toySession signature).verified draft := by
  have hshort : stringSize alice.text ≤ 200 := by decide
  have hwrap := (smallWraps_single hshort toyKid [] (pad 32 [1])).unremoved
  have hdraft := toyLike_toyDraft toySid hwrap.toWrapChecked (pad 32 [1])
  obtain ⟨content, signature, _, hsigned, hverify⟩ := verify_toyLike hwrap hdraft hshort []
  obtain ⟨hunwrap, hproof⟩ := unwrap_toyLike hwrap.toWrapChecked hdraft hsigned
    (List.mem_singleton.mpr rfl)
  obtain ⟨headToken, sigToken, haccepted⟩ := accepted_of_verify hverify
  obtain ⟨draft, hreread, hhead, _, hrep⟩ := represents_fromDocument haccepted
    (wellFormed_updatedHeader haccepted toyTime)
  have hitems := buildWrapsForRecipients_toy .kv toySid (pad 32 [1])
    (toyDraws toySid (pad 32 [1])).seed
    (show [(⟨alice, toyKid, []⟩ : ToyPerson)].length ≤ 50 by decide)
  -- the run of the set, up to the draft
  have hload : VerifiedKvRewriteSession.load toyCrypto content alice.text
      (toyContext alice toyKid []) = .ok (toySession signature) :=
    bind_eq_ok.mpr ⟨_, hverify, rfl⟩
  have hkey : (toySession signature).unwrapMasterKey toyCrypto = .ok (pad 32 [1]) :=
    bind_eq_ok.mpr ⟨_, hunwrap, bind_eq_ok.mpr ⟨(), hproof, rfl⟩⟩
  have hchange : setChange toyCrypto (toyEntries key) (toyDraws toySid (pad 32 [1])) draft
      (toySession signature) (pad 32 [1]) = .ok (draft.setEntries (toyTable key)) :=
    bind_eq_ok.mpr ⟨_, buildEntryTokens_toy key, rfl⟩
  have hdrafted : (toyMutation content).setDraft toyCrypto (toyEntries key)
      (toyDraws toySid (pad 32 [1])) = .ok (toyWritten draft key, pad 32 [1]) :=
    bind_eq_ok.mpr ⟨_, hload, bind_eq_ok.mpr ⟨_, hkey, bind_eq_ok.mpr ⟨draft, hreread,
      bind_eq_ok.mpr ⟨_, hchange, bind_eq_ok.mpr ⟨_, bind_eq_ok.mpr ⟨_, hitems, rfl⟩, rfl⟩⟩⟩⟩⟩
  -- its text, and the check of it
  obtain ⟨text, htext⟩ := signUnsignedKvDocument_total toyCrypto (toyWritten draft key)
    (pad 32 [1]) (toySigning alice [])
  obtain ⟨made, hmade⟩ := signUnsignedKvDocument_ok htext
  obtain ⟨_, _, hencoded⟩ := buildEntryTokens_ok (buildEntryTokens_toy key)
  obtain ⟨values, hvalues⟩ := represents_setEntries hrep (hencoded lawful_toyCrypto)
  have hstands : Stands (toyWritten draft key) values :=
    ⟨fun _ htoken => (by cases htoken), hvalues.toStands.entries⟩
  have hchecked : KvEncArtifact.parse plainReader text = .ok ⟨text⟩ := by
    rw [hmade.text_eq]
    exact parse_signedWith hstands made
      (short_toyWritten hne hlength hhead hrep.toStands.tokens hmade)
  have hset : setKvEntryWithRecipients toyCrypto (some content) (toyEntries key)
      (writeRecipients (toyMutation content).recipients) (writeContext (toyMutation content).keyCtx)
      (toyDraws toySid (pad 32 [1])) = .ok text :=
    bind_eq_ok.mpr ⟨_, hload, bind_eq_ok.mpr ⟨_, hkey, bind_eq_ok.mpr ⟨draft, hreread,
      bind_eq_ok.mpr ⟨_, hchange, bind_eq_ok.mpr ⟨_, bind_eq_ok.mpr ⟨_, hitems, rfl⟩,
        bind_eq_ok.mpr ⟨_, buildSigningContext_toy alice [], htext⟩⟩⟩⟩⟩⟩
  have hartifact : KvEncArtifact.rewriteInternalEntries toyCrypto plainReader (some content)
      (toyEntries key) (toyMutation content).recipients (toyMutation content).keyCtx
      (toyDraws toySid (pad 32 [1])) = .ok ⟨text⟩ := bind_eq_ok.mpr ⟨text, hset, hchecked⟩
  exact ⟨content, signature, toyWritten draft key, ⟨text⟩, hverify,
    bind_eq_ok.mpr ⟨(), rfl, hartifact⟩, hdrafted⟩

theorem fits_of_size {record : Json} (h : jsonSize record ≤ 300000) : Fits record := by
  have htoken := computeEncodedLen_le h
  rw [Fits, tokenText_size, maxBase64TokenLength]
  omega

/-- What such a set writes anew fits. -/
theorem rewriteFits_toySet (signature : ArtifactSignature) :
    RewriteFits toyCrypto (toySession signature).verified ⟨[toyMember alice toyKid []]⟩
      ⟨toyContext alice toyKid [], none⟩ ((toyDraws toySid (pad 32 [1])).clock 0) := by
  have hshort : stringSize alice.text ≤ 200 := by decide
  have hwrap := (smallWraps_single hshort toyKid [] (pad 32 [1])).unremoved
  have hdraft := toyLike_toyDraft toySid hwrap.toWrapChecked (pad 32 [1])
  obtain ⟨_, made, _, hsigned, _⟩ := verify_toyLike hwrap hdraft hshort []
  have hitems : buildWrapsForRecipients toyCrypto [toyMember alice toyKid []]
      (toySession signature).verified.head.sid (pad 32 [1]) .kv
      (toyDraws toySid (pad 32 [1])).seed = .ok [toyWrap alice toyKid [] (pad 32 [1])] :=
    buildWrapsForRecipients_toy .kv toySid (pad 32 [1]) (toyDraws toySid (pad 32 [1])).seed
      (show [(⟨alice, toyKid, []⟩ : ToyPerson)].length ≤ 50 by decide)
  refine ⟨fits_of_size (Nat.le_trans (size_toyHead toySid) (by decide)), ?_, ?_, ?_, ?_, ?_⟩
  · refine (fits_congr (@size_blankWrap _ lawful_toyCrypto (toySession signature).verified
      ⟨[toyMember alice toyKid []]⟩ _ _ _ hitems)).mp (fits_of_size ?_)
    exact Nat.le_trans hwrap.size (by decide)
  · rw [← @elements_blankWrap _ (toySession signature).verified ⟨[toyMember alice toyKid []]⟩ _ _ _
      hitems]
    exact hwrap.elements
  · exact List.cons_ne_nil _ _
  · exact List.nodup_singleton _
  · intro signing hsigning
    obtain rfl := Except.ok.inj ((buildSigningContext_toy alice []).symm.trans hsigning)
    refine (fits_congr (size_blankSignature hsigned)).mp (fits_of_size ?_)
    exact Nat.le_trans (size_signature_toyDraft hshort hsigned) (by decide)

/-- Alice sets a key of another name, and the text is read back. -/
theorem kvWriteLaws_toy : ∃ mutation artifact doc draft, ToySet "OTHER" mutation artifact doc draft
    ∧ ReadBack draft (KvEncArtifact.text artifact) := by
  obtain ⟨content, signature, draft, artifact, h⟩ := @exists_toySet "OTHER" (by decide) (by decide)
  refine ⟨_, _, _, _, h, ((kvWriteLaws lawful_toyCrypto).set _ _ _ _ _ _ _ _ h.verified h.run
    h.drafted).mpr ⟨rewriteFits_toySet signature, ?_, ?_, ?_⟩⟩
  · intro entry hentry
    rw [List.mem_singleton.mp hentry]
    decide
  · show ["KEY", "OTHER"].dedup.length ≤ maxKvKeyLines
    decide
  · decide

/-- **A SET PUBLISHES WHAT NO READER TAKES**: a key with blanks in it. -/
theorem set_publishes_unreadable :
    ∃ mutation artifact doc draft, ToySet "NOT A NAME" mutation artifact doc draft
      ∧ ¬ReadBack draft (KvEncArtifact.text artifact) := by
  obtain ⟨content, signature, draft, artifact, h⟩ :=
    @exists_toySet "NOT A NAME" (by decide) (by decide)
  refine ⟨_, _, _, _, h, fun hread => ?_⟩
  have hfit := ((readBack_set lawful_toyCrypto h.verified h.run h.drafted).mp hread).2
  exact absurd (hfit.keys ⟨"NOT A NAME", "value"⟩ (List.mem_singleton.mpr rfl)) (by decide)

end Toy

end KvWriteLimits
