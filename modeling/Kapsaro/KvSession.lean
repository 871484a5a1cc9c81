import Kapsaro.JsonSize
import Kapsaro.KvDraft
import Kapsaro.Recipients

/-!
# KV sessions — encryption, decryption, and the rewrite session

`feature/kv/encrypt.rs`, `feature/kv/decrypt.rs`, `feature/kv/entry_codec.rs` and
`feature/kv/rewrite_session/`: what the rewrap and the mutation of a kv-enc document share.

* **`decryptKvDocumentWithContext`** — the values of a verified document for a member.
* **`encryptKvMapWithWrapMutation`** — a fresh document: new sid, new master key, new wraps.
* **`VerifiedKvRewriteSession`** — a verified document with the member who rewrites it.
* **`Reencrypted`** — what a fresh document says; **`encryptKvMap_ok`** shows that encryption
  writes such a document, **`reencrypted_of_parse`** that reading it back finds it.
-/

namespace KvSession

open JsonText JsonMembers JsonLimits Limits TextLines Base64Codec WireTexts WireModel
open DocumentTokens KvLines TokenRecords Envelope KvDocument SignedArtifacts KeyedList KvDraft
open Recipients JsonSize

/-! ## Decryption -/

section Decryption

variable (C : Crypto)

/-- The values of the entries, in the order of the document. -/
def decryptKvEntries (entries : List KvEncEntry) (schedule : KeySchedule) (sid : Uuid)
    (aead : String) : Except Error (List (String × Bytes)) :=
  match entries with
  | [] => .ok []
  | entry :: rest => do
    let value ← decryptEntry C entry.value entry.key aead schedule sid
    let values ← decryptKvEntries rest schedule sid aead
    pure ((entry.key, value) :: values)

/-- Decrypt a verified document with the local key the context selects. -/
def decryptKvDocumentWithContext (doc : KvEncDocument) (memberHandle : String)
    (keyCtx : CryptoContext) : Except Error (List (String × Bytes)) := do
  let masterKey ← unwrapMasterKeyWithContext C .kv doc.head.sid doc.wrap.wrap memberHandle keyCtx
  verifyKvKeyPossession C doc masterKey
  decryptKvEntries C doc.entries (kvKeySchedule C masterKey doc.head.sid) doc.head.sid
    doc.head.alg.aead

/-- A decrypted value has to be text. -/
def decodeDecryptedKvValue (key : String) (value : Bytes) : Except Error String :=
  match utf8Decode value with
  | some text => .ok text
  | none => .error (.parse s!"Invalid UTF-8 in decrypted value for '{key}'")

def decodeDecryptedKvValues : List (String × Bytes) → Except Error (List (String × String))
  | [] => .ok []
  | (key, value) :: rest => do
    let text ← decodeDecryptedKvValue key value
    let texts ← decodeDecryptedKvValues rest
    pure ((key, text) :: texts)

end Decryption

/-! ## Encryption -/

section Encryption

variable (C : Crypto)

/-- The header and the wrap of a fresh document. -/
def buildKvEncryption (members : List VerifiedRecipientKey) (timestamp : String)
    (entropy : Entropy) : Except Error (KvHeader × KvWrap) := do
  let items ← buildWrapsForRecipients C members entropy.sid entropy.masterKey .kv entropy.seed
  pure (
    { sid := entropy.sid
      alg := { aead := aeadXChaCha20Poly1305 }
      createdAt := timestamp
      updatedAt := timestamp },
    { wrap := items, removedRecipients := none })

/-- Encrypt the values one by one; the nonces are drawn in order. -/
def encryptKvEntriesFrom (schedule : KeySchedule) (sid : Uuid) (disclosed : Bool)
    (nonce : Nat → FixedBytes 24) :
    Nat → List (String × String) → Except Error (List (String × KvEntryValue))
  | _, [] => .ok []
  | i, (key, value) :: rest => do
    let entry ← encryptEntry C key value schedule sid (nonce i) disclosed
    let entries ← encryptKvEntriesFrom schedule sid disclosed nonce (i + 1) rest
    pure ((key, entry) :: entries)

/-- Encrypt a table of values, sorted by key. -/
def encryptKvEntries (kvMap : List (String × String)) (masterKey : MasterKey) (sid : Uuid)
    (disclosed : Bool) (nonce : Nat → FixedBytes 24) :
    Except Error (List (String × KvEntryValue)) := do
  let entries ← encryptKvEntriesFrom C (kvKeySchedule C masterKey sid) sid disclosed nonce 0 kvMap
  pure (sortBy Prod.fst entries)

def encodeKvEntriesToTokens : List (String × KvEntryValue) → Except Error (List (String × String))
  | [] => .ok []
  | (key, entry) :: rest => do
    let token ← encodeToken entry.toJson
    let tokens ← encodeKvEntriesToTokens rest
    pure ((key, token) :: tokens)

/-- The unsigned draft of a fresh document. -/
def encryptedDraft (kvMap : List (String × String)) (members : List VerifiedRecipientKey)
    (disclosed : Bool) (mutateWrap : KvWrap → KvWrap) (entropy : Entropy) :
    Except Error KvDocumentDraft := do
  let timestamp := (entropy.clock 0).text
  let (head, wrap) ← buildKvEncryption C members timestamp entropy
  let entries ← encryptKvEntries C kvMap entropy.masterKey entropy.sid disclosed entropy.nonce
  let encoded ← encodeKvEntriesToTokens entries
  pure (KvDocumentBuilder.withEntries (KvDocumentBuilder.new head (mutateWrap wrap)) encoded)

/-- Encrypt a table into a fresh signed document; the wrap is adjusted before it is written. -/
def encryptKvMapWithWrapMutation (kvMap : List (String × String))
    (members : List VerifiedRecipientKey) (signing : SigningContext) (disclosed : Bool)
    (mutateWrap : KvWrap → KvWrap) (entropy : Entropy) : Except Error String := do
  let unsigned ← encryptedDraft C kvMap members disclosed mutateWrap entropy
  signUnsignedKvDocument C unsigned entropy.masterKey signing

def encryptKvMapWithKeyContext (kvMap : List (String × String))
    (members : List VerifiedRecipientKey) (keyCtx : CryptoContext) (disclosed : Bool)
    (mutateWrap : KvWrap → KvWrap) (entropy : Entropy) : Except Error String := do
  let signing ← buildSigningContext C keyCtx
  encryptKvMapWithWrapMutation C kvMap members signing disclosed mutateWrap entropy

end Encryption

/-! ## History of a departing wrap -/

/-- Record the removed recipients that had a wrap; the times are drawn in order. -/
def recordRemovals (oldWrap : KvWrap) (clock : Nat → Timestamp) :
    Nat → List String → Option (List RemovedRecipient) → Option (List RemovedRecipient)
  | _, [], history => history
  | i, handle :: rest, history =>
    match oldWrap.wrap.find? fun item => item.recipientHandle = handle with
    | some item =>
      recordRemovals oldWrap clock (i + 1) rest
        (addToRemovedHistory history handle item.kid (clock i))
    | none => recordRemovals oldWrap clock i rest history

/-- Fold the history of the departing wrap, and the removed recipients, into the new wrap. -/
def mergeRemovedHistoryFromOld (newWrap oldWrap : KvWrap) (removedRecipients : List String)
    (clock : Nat → Timestamp) : KvWrap :=
  let recorded := recordRemovals oldWrap clock 1 removedRecipients newWrap.removedRecipients
  { newWrap with removedRecipients := mergeRemovedHistory recorded oldWrap.removedRecipients }

def detectDisclosedEntries (doc : KvEncDocument) : Bool :=
  doc.entries.any fun entry => entry.value.disclosed

/-! ## The session -/

/-- A verified document and the member who rewrites it. -/
structure VerifiedKvRewriteSession where
  verified : KvEncDocument
  memberHandle : String
  keyCtx : CryptoContext

structure KvRecipientRewriteRequest where
  newRecipients : List String
  removedRecipients : List String
  disclosed : Bool
  preserveRemovedHistory : Bool

namespace VerifiedKvRewriteSession

variable (C : Crypto)

def load (content memberHandle : String) (keyCtx : CryptoContext) :
    Except Error VerifiedKvRewriteSession := do
  let verified ← verifyKvContent C content
  pure { verified, memberHandle, keyCtx }

def disclosed (session : VerifiedKvRewriteSession) : Bool :=
  detectDisclosedEntries session.verified

/-- The document as a draft under a header. -/
def buildUnsigned (session : VerifiedKvRewriteSession) (head : KvHeader) :
    Except Error KvDocumentDraft :=
  KvDocumentBuilder.fromDocument head none session.verified

/-- Sign a draft as the member. -/
def sign (session : VerifiedKvRewriteSession) (unsigned : KvDocumentDraft)
    (masterKey : MasterKey) : Except Error String := do
  let signing ← buildSigningContext C session.keyCtx
  signUnsignedKvDocument C unsigned masterKey signing

/-- The master key of the document, for the member, with its proof checked. -/
def unwrapMasterKey (session : VerifiedKvRewriteSession) : Except Error MasterKey := do
  let doc := session.verified
  let masterKey ← unwrapMasterKeyWithContext C .kv doc.head.sid doc.wrap.wrap
    session.memberHandle session.keyCtx
  verifyKvKeyPossession C doc masterKey
  pure masterKey

def decryptAllValues (session : VerifiedKvRewriteSession) :
    Except Error (List (String × String)) := do
  let values ← decryptKvDocumentWithContext C session.verified session.memberHandle session.keyCtx
  decodeDecryptedKvValues values

/-- What is done to the fresh wrap of a re-encryption. -/
def mutateWrap (session : VerifiedKvRewriteSession) (request : KvRecipientRewriteRequest)
    (clock : Nat → Timestamp) (newWrap : KvWrap) : KvWrap :=
  if request.preserveRemovedHistory then
    mergeRemovedHistoryFromOld newWrap session.verified.wrap request.removedRecipients clock
  else newWrap

/-- Encrypt the whole document anew for the given recipients. -/
def rewrapKvWithRecipients (session : VerifiedKvRewriteSession)
    (targetMembers : List VerifiedRecipientKey) (request : KvRecipientRewriteRequest)
    (entropy : Entropy) : Except Error String := do
  let verifiedMembers ← resolveSnapshotVerifiedRecipients targetMembers request.newRecipients
  let decryptedContent ← session.decryptAllValues C
  encryptKvMapWithKeyContext C decryptedContent verifiedMembers session.keyCtx request.disclosed
    (session.mutateWrap request entropy.clock) entropy

end VerifiedKvRewriteSession

/-- The header of a rewrite: a fresh update time, the rest carried over. -/
def buildUpdatedHeader (doc : KvEncDocument) (now : Timestamp) : KvHeader where
  sid := doc.head.sid
  alg := doc.head.alg
  createdAt := doc.head.createdAt
  updatedAt := now.text

variable {C : Crypto}

/-! ## What decryption says -/

/-- **DECRYPTION GOES ENTRY BY ENTRY.** -/
theorem decryptKvEntries_ok {entries : List KvEncEntry} {schedule : KeySchedule} {sid : Uuid}
    {aead : String} {values : List (String × Bytes)} :
    decryptKvEntries C entries schedule sid aead = .ok values
      ↔ List.Forall₂ (fun entry value => value.1 = entry.key
          ∧ decryptEntry C entry.value entry.key aead schedule sid = .ok value.2)
        entries values := by
  induction entries generalizing values with
  | nil =>
    constructor
    · intro h
      obtain rfl := Except.ok.inj h
      exact .nil
    · intro h
      cases h
      rfl
  | cons entry entries ih =>
    constructor
    · intro h
      obtain ⟨value, hvalue, h⟩ := bind_eq_ok.mp h
      obtain ⟨rest, hrest, h⟩ := bind_eq_ok.mp h
      obtain rfl := Except.ok.inj h
      exact .cons ⟨rfl, hvalue⟩ (ih.mp hrest)
    · intro h
      cases h with
      | @cons _ pair _ rest hpair hrest =>
        obtain ⟨key, value⟩ := pair
        obtain ⟨rfl, hvalue⟩ := hpair
        exact bind_eq_ok.mpr ⟨value, hvalue, bind_eq_ok.mpr ⟨rest, ih.mpr hrest, rfl⟩⟩

/-- Decryption only looks at keys, nonces and ciphertexts. -/
theorem decryptKvEntries_samePayload {entries entries' : List KvEncEntry}
    (h : List.Forall₂ SamePayload entries entries') (schedule : KeySchedule) (sid : Uuid)
    (aead : String) :
    decryptKvEntries C entries' schedule sid aead
      = decryptKvEntries C entries schedule sid aead := by
  induction h with
  | nil => rfl
  | @cons e e' entries entries' hsame _ ih =>
    obtain ⟨hkey, hnonce, hct⟩ := hsame
    have hentry : decryptEntry C e'.value e'.key aead schedule sid
        = decryptEntry C e.value e.key aead schedule sid := by
      rw [decryptEntry, decryptEntry, hkey, hnonce, hct]
    rw [decryptKvEntries, decryptKvEntries, hentry, ih, hkey]

/-- The keys of the values are those of the entries. -/
theorem keys_of_decryptKvEntries {entries : List KvEncEntry} {schedule : KeySchedule}
    {sid : Uuid} {aead : String} {values : List (String × Bytes)}
    (h : decryptKvEntries C entries schedule sid aead = .ok values) :
    values.map Prod.fst = entries.map KvEncEntry.key := by
  have hall := decryptKvEntries_ok.mp h
  clear h
  induction hall with
  | nil => rfl
  | cons hvalue _ ih => rw [List.map_cons, List.map_cons, ih, hvalue.1]

/-- The bytes of a table of texts. -/
def textBytes (kvMap : List (String × String)) : List (String × Bytes) :=
  kvMap.map fun pair => (pair.1, utf8 pair.2)

theorem decodeDecryptedKvValues_ok {values : List (String × Bytes)}
    {kvMap : List (String × String)} (h : decodeDecryptedKvValues values = .ok kvMap) :
    textBytes kvMap = values := by
  induction values generalizing kvMap with
  | nil =>
    obtain rfl := Except.ok.inj h
    rfl
  | cons pair values ih =>
    obtain ⟨key, value⟩ := pair
    obtain ⟨text, htext, h⟩ := bind_eq_ok.mp h
    obtain ⟨rest, hrest, h⟩ := bind_eq_ok.mp h
    obtain rfl := Except.ok.inj h
    have hvalue : utf8 text = value := by
      rw [decodeDecryptedKvValue] at htext
      cases hdecode : utf8Decode value with
      | none => rw [hdecode] at htext; cases htext
      | some t =>
        rw [hdecode] at htext
        obtain rfl := Except.ok.inj htext
        exact utf8_of_utf8Decode hdecode
    show (key, utf8 text) :: textBytes rest = (key, value) :: values
    rw [hvalue, ih hrest]

/-! ## What encryption writes -/

/-- An entry that encrypts a value under a schedule. -/
def Encrypts (C : Crypto) (schedule : KeySchedule) (sid : Uuid) (disclosed : Bool)
    (pair : String × String) (key : String) (value : KvEntryValue) : Prop :=
  key = pair.1 ∧ ∃ nonce, encryptEntry C pair.1 pair.2 schedule sid nonce disclosed = .ok value

theorem encryptKvEntriesFrom_ok {schedule : KeySchedule} {sid : Uuid} {disclosed : Bool}
    {nonce : Nat → FixedBytes 24} {i : Nat} {kvMap : List (String × String)}
    {entries : List (String × KvEntryValue)}
    (h : encryptKvEntriesFrom C schedule sid disclosed nonce i kvMap = .ok entries) :
    List.Forall₂ (fun pair entry => Encrypts C schedule sid disclosed pair entry.1 entry.2)
      kvMap entries := by
  induction kvMap generalizing i entries with
  | nil =>
    obtain rfl := Except.ok.inj h
    exact .nil
  | cons pair kvMap ih =>
    obtain ⟨entry, hentry, h⟩ := bind_eq_ok.mp h
    obtain ⟨rest, hrest, h⟩ := bind_eq_ok.mp h
    obtain rfl := Except.ok.inj h
    exact .cons ⟨rfl, nonce i, hentry⟩ (ih hrest)

/-- Encoded entries hold what was encoded. -/
theorem encodeKvEntriesToTokens_ok {entries : List (String × KvEntryValue)}
    {tokens : List (String × String)} (h : encodeKvEntriesToTokens entries = .ok tokens)
    (hwell : ∀ entry ∈ entries, entry.2.wellFormed = true) :
    List.Forall₂ Holds (tokens.map fun e => .encoded e.1 e.2)
      (entries.map fun e => ⟨e.1, tokenText e.2.toJson, e.2⟩) := by
  induction entries generalizing tokens with
  | nil =>
    obtain rfl := Except.ok.inj h
    exact .nil
  | cons entry entries ih =>
    obtain ⟨token, htoken, h⟩ := bind_eq_ok.mp h
    obtain ⟨rest, hrest, h⟩ := bind_eq_ok.mp h
    obtain rfl := Except.ok.inj h
    have hentry := hwell entry List.mem_cons_self
    rw [encodeToken_eq (encodable_entry hentry).numbers] at htoken
    obtain rfl := Except.ok.inj htoken
    exact .cons ⟨rfl, rfl, hentry, rfl⟩ (ih hrest fun e he => hwell e (List.mem_cons_of_mem _ he))

/-- What the draft of a fresh document says. -/
structure EncryptedDraft (C : Crypto) (kvMap : List (String × String))
    (members : List VerifiedRecipientKey) (disclosed : Bool) (mutateWrap : KvWrap → KvWrap)
    (entropy : Entropy) (draft : KvDocumentDraft) (entries : List KvEncEntry) : Prop where
  stands : Stands draft entries
  sid : draft.head.sid = entropy.sid
  aead : draft.head.alg.aead = aeadXChaCha20Poly1305
  count : members.length ≤ maxWrapItems
  wraps : ∃ items, List.Forall₂ (fun member item =>
        ∃ s, buildWrapItem C .kv member entropy.sid entropy.masterKey s = .ok item) members items
      ∧ draft.wrap = .decoded (mutateWrap { wrap := items, removedRecipients := none })
  encrypts : List.Forall₂ (fun pair entry => Encrypts C
      (kvKeySchedule C entropy.masterKey entropy.sid) entropy.sid disclosed pair entry.key
      entry.value) (sortBy Prod.fst kvMap) entries
  tokens : ∀ entry ∈ entries, entry.token = tokenText entry.value.toJson

/-- **ENCRYPTION WRITES A FRESH DOCUMENT.** -/
theorem encryptedDraft_ok (hC : Lawful C) {kvMap : List (String × String)}
    {members : List VerifiedRecipientKey} {disclosed : Bool} {mutateWrap : KvWrap → KvWrap}
    {entropy : Entropy} {draft : KvDocumentDraft}
    (h : encryptedDraft C kvMap members disclosed mutateWrap entropy = .ok draft) :
    ∃ entries, EncryptedDraft C kvMap members disclosed mutateWrap entropy draft entries := by
  obtain ⟨⟨head, wrap⟩, hbuild, h⟩ := bind_eq_ok.mp h
  obtain ⟨entries, hentries, h⟩ := bind_eq_ok.mp h
  obtain ⟨encoded, hencoded, h⟩ := bind_eq_ok.mp h
  obtain rfl := Except.ok.inj h
  obtain ⟨items, hitems, hbuild⟩ := bind_eq_ok.mp hbuild
  obtain ⟨rfl, rfl⟩ := Prod.mk.inj (Except.ok.inj hbuild)
  obtain ⟨unsorted, hunsorted, hsort⟩ := bind_eq_ok.mp hentries
  obtain rfl := Except.ok.inj hsort
  obtain ⟨hcount, hbuilt⟩ := buildWrapsForRecipients_ok hitems
  have hall := forall₂_sortBy
    (fun _ _ hab => hab.1.symm) (encryptKvEntriesFrom_ok hunsorted)
  have hwell : ∀ entry ∈ sortBy Prod.fst unsorted, entry.2.wellFormed = true := by
    intro entry hentry
    obtain ⟨pair, _, _, nonce, hencrypt⟩ := exists_left_of_mem hall hentry
    exact (wellFormed_encryptEntry hC hencrypt).1
  have hheld := encodeKvEntriesToTokens_ok hencoded hwell
  refine ⟨_, ⟨fun _ htoken => (by cases htoken), hheld⟩, rfl, rfl, hcount, ⟨items, hbuilt, rfl⟩,
    List.forall₂_map_right_iff.mpr hall, ?_⟩
  intro entry hentry
  obtain ⟨e, _, rfl⟩ := List.mem_map.mp hentry
  rfl

/-- The ciphertext of an entry is shorter than its token. -/
theorem ct_le_token (value : KvEntryValue) :
    value.ct.utf8ByteSize ≤ (tokenText value.toJson).utf8ByteSize := by
  obtain ⟨nonce, ct, disclosed⟩ := value
  have hct := le_stringSize ct
  have hjson : stringSize ct ≤ jsonSize (KvEntryValue.toJson ⟨nonce, ct, disclosed⟩) := by
    rw [KvEntryValue.toJson, jsonSize, membersSize, membersSize]
    show stringSize ct ≤ 1 + max 1 (stringSize "nonce" + 1 + stringSize nonce + 1
      + (stringSize "ct" + 1 + stringSize ct + 1 + membersSize _))
    omega
  rw [tokenText_size]
  exact Nat.le_trans (Nat.le_trans hct hjson) (le_computeEncodedLen _)

private theorem decrypt_encrypts (hC : Lawful C) {schedule : KeySchedule} {sid : Uuid}
    {disclosed : Bool} {pairs : List (String × String)} {entries : List KvEncEntry}
    (h : List.Forall₂ (fun pair entry =>
      Encrypts C schedule sid disclosed pair entry.key entry.value) pairs entries)
    (hsizes : ∀ entry ∈ entries, entry.value.ct.utf8ByteSize ≤ maxBase64CiphertextLength) :
    decryptKvEntries C entries schedule sid aeadXChaCha20Poly1305 = .ok (textBytes pairs) := by
  induction h with
  | nil => rfl
  | @cons pair entry pairs entries hpair _ ih =>
    obtain ⟨hkey, nonce, hencrypt⟩ := hpair
    have hsize := hsizes entry List.mem_cons_self
    rw [(wellFormed_encryptEntry hC hencrypt).2.2] at hsize
    have hvalue := decrypt_encryptEntry hC rfl hsize hencrypt
    rw [← hkey] at hvalue
    refine bind_eq_ok.mpr ⟨utf8 pair.2, hvalue, bind_eq_ok.mpr ⟨_,
      ih fun e he => hsizes e (List.mem_cons_of_mem _ he), ?_⟩⟩
    rw [hkey]
    rfl

/-- **A FRESH DOCUMENT DECRYPTS TO WHAT WAS ENCRYPTED**, once its tokens are within the limit. -/
theorem EncryptedDraft.decrypts (hC : Lawful C) {kvMap : List (String × String)}
    {members : List VerifiedRecipientKey} {disclosed : Bool} {mutateWrap : KvWrap → KvWrap}
    {entropy : Entropy} {draft : KvDocumentDraft} {entries : List KvEncEntry}
    (h : EncryptedDraft C kvMap members disclosed mutateWrap entropy draft entries)
    (htokens : ∀ entry ∈ entries, entry.token.utf8ByteSize ≤ maxBase64TokenLength) :
    decryptKvEntries C entries (kvKeySchedule C entropy.masterKey entropy.sid) entropy.sid
      aeadXChaCha20Poly1305 = .ok (textBytes (sortBy Prod.fst kvMap)) := by
  refine decrypt_encrypts hC h.encrypts fun entry hentry => ?_
  have htoken := htokens entry hentry
  rw [h.tokens entry hentry] at htoken
  exact Nat.le_trans (ct_le_token entry.value) (Nat.le_trans htoken (by decide))

/-! ## The fresh document, read back -/

/-- What a fresh document says to whoever reads it. -/
structure Reencrypted (C : Crypto) (kvMap : List (String × String))
    (members : List VerifiedRecipientKey) (mutateWrap : KvWrap → KvWrap) (entropy : Entropy)
    (doc : KvEncDocument) : Prop where
  sid : doc.head.sid = entropy.sid
  aead : doc.head.alg.aead = aeadXChaCha20Poly1305
  wraps : ∃ items, List.Forall₂ (fun member item =>
        ∃ s, buildWrapItem C .kv member entropy.sid entropy.masterKey s = .ok item) members items
      ∧ doc.wrap = mutateWrap { wrap := items, removedRecipients := none }
  values : decryptKvEntries C doc.entries (kvKeySchedule C entropy.masterKey entropy.sid)
    entropy.sid aeadXChaCha20Poly1305 = .ok (textBytes (sortBy Prod.fst kvMap))

/-- Whoever reads a fresh document finds its draft, within the limits. -/
theorem freshDraft_of_parse (hC : Lawful C) {kvMap : List (String × String)}
    {members : List VerifiedRecipientKey} {keyCtx : CryptoContext} {disclosed : Bool}
    {mutateWrap : KvWrap → KvWrap} {entropy : Entropy} {text sourceName : String}
    {doc : KvEncDocument}
    (hkeys : ∀ pair ∈ kvMap, isValidKeyName pair.1 = true)
    (htext : encryptKvMapWithKeyContext C kvMap members keyCtx disclosed mutateWrap entropy
      = .ok text)
    (hparse : parseKvDocumentWithSource text sourceName = .ok doc) :
    ∃ draft entries signature,
      EncryptedDraft C kvMap members disclosed mutateWrap entropy draft entries
        ∧ doc = draft.document entries signature ∧ WithinLimits draft signature := by
  obtain ⟨signing, _, htext⟩ := bind_eq_ok.mp htext
  obtain ⟨draft, hdraft, htext⟩ := bind_eq_ok.mp htext
  obtain ⟨entries, henc⟩ := encryptedDraft_ok hC hdraft
  obtain ⟨signature, hsigned⟩ := signUnsignedKvDocument_ok htext
  have hvalid : ∀ entry ∈ draft.entries, isValidKeyName entry.key = true := by
    intro e he
    have hmem : e.key ∈ entries.map KvEncEntry.key := by
      rw [← henc.stands.keys]
      exact List.mem_map_of_mem he
    obtain ⟨entry, hentry, hkey⟩ := List.mem_map.mp hmem
    obtain ⟨pair, hpair, hpairKey, _⟩ := exists_left_of_mem henc.encrypts hentry
    rw [← hkey, hpairKey]
    exact hkeys pair ((perm_sortBy _ _).mem_iff.mp hpair)
  rw [hsigned.text_eq] at hparse
  obtain ⟨rfl, _, hlimits⟩ := signed_parse henc.stands hsigned.checked hvalid hparse
  exact ⟨draft, entries, signature, henc, rfl, hlimits⟩

/-- **READING A FRESH DOCUMENT FINDS WHAT WAS ENCRYPTED.** -/
theorem reencrypted_of_parse (hC : Lawful C) {kvMap : List (String × String)}
    {members : List VerifiedRecipientKey} {keyCtx : CryptoContext} {disclosed : Bool}
    {mutateWrap : KvWrap → KvWrap} {entropy : Entropy} {text sourceName : String}
    {doc : KvEncDocument}
    (hkeys : ∀ pair ∈ kvMap, isValidKeyName pair.1 = true)
    (htext : encryptKvMapWithKeyContext C kvMap members keyCtx disclosed mutateWrap entropy
      = .ok text)
    (hparse : parseKvDocumentWithSource text sourceName = .ok doc) :
    Reencrypted C kvMap members mutateWrap entropy doc := by
  obtain ⟨draft, entries, signature, henc, rfl, hlimits⟩ :=
    freshDraft_of_parse hC hkeys htext hparse
  obtain ⟨items, hitems, hwrap⟩ := henc.wraps
  refine ⟨henc.sid, henc.aead, ⟨items, hitems, ?_⟩, ?_⟩
  · show draft.wrap.data = _
    rw [hwrap]
    rfl
  · refine henc.decrypts hC fun entry hentry => ?_
    have htokens := hlimits.entryTokens
    rw [henc.stands.tokens] at htokens
    exact htokens _ (List.mem_map_of_mem hentry)

/-- Every entry of a fresh document has the flag it was encrypted with. -/
theorem disclosed_of_parse (hC : Lawful C) {kvMap : List (String × String)}
    {members : List VerifiedRecipientKey} {keyCtx : CryptoContext} {disclosed : Bool}
    {mutateWrap : KvWrap → KvWrap} {entropy : Entropy} {text sourceName : String}
    {doc : KvEncDocument}
    (hkeys : ∀ pair ∈ kvMap, isValidKeyName pair.1 = true)
    (htext : encryptKvMapWithKeyContext C kvMap members keyCtx disclosed mutateWrap entropy
      = .ok text)
    (hparse : parseKvDocumentWithSource text sourceName = .ok doc) :
    ∀ entry ∈ doc.entries, entry.value.disclosed = disclosed := by
  obtain ⟨draft, entries, signature, henc, rfl, _⟩ := freshDraft_of_parse hC hkeys htext hparse
  intro entry hentry
  obtain ⟨pair, _, _, nonce, hencrypt⟩ := exists_left_of_mem henc.encrypts hentry
  exact (wellFormed_encryptEntry hC hencrypt).2.1

end KvSession
