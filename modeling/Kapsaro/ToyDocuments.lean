import Kapsaro.FileRewrap
import Kapsaro.ToyCrypto

/-!
# Toy documents — documents under the toy primitives

Documents small enough for every limit, for any checked wrap, any master key and any signer: what
a result says about all documents can be tried on them without computing their texts.

* **`toyDraft`**, **`ToyLike`**, **`verify_toyLike`** — a kv-enc document with one entry; its
  signed text is accepted by the reader.
* **`unwrap_toyWrap`**, **`decrypt_toyLike`** — a member with a wrap opens it and decrypts it.
* **`encryptedDraft_toy`** — encrypting the decrypted values anew gives such a document again.
* **`toyFile`**, **`verify_toyFile`** — the same for file-enc.
-/

namespace ToyDocuments

open JsonText JsonMembers JsonLimits Limits TextLines Base64Codec WireTexts WireModel
open DocumentTokens KvLines TokenRecords Envelope KvDocument SignedArtifacts KeyedList KvDraft
open Recipients JsonSize KvSession FileDocument RewrapPlan FileRewrap ToyCrypto

/-! ## Names and draws -/

def alice : MemberHandle := ⟨"alice", by decide⟩

def bob : MemberHandle := ⟨"bob", by decide⟩

/-- A kid that is not the toy kid. -/
def bobKid : Kid := ⟨"11111111111111111111111111111111", by decide⟩

def toySid : Uuid := ⟨"00000000-0000-0000-0000-000000000001", by decide⟩

def freshSid : Uuid := ⟨"00000000-0000-0000-0000-000000000002", by decide⟩

def toyTime : Timestamp := ⟨"2026-01-01T00:00:00Z", by decide⟩

/-- Draws that are the same at every step. -/
def toyDraws (sid : Uuid) (masterKey : MasterKey) : Entropy where
  clock := fun _ => toyTime
  sid := sid
  masterKey := masterKey
  seed := fun _ => []
  nonce := fun _ => pad 24 []

/-! ## Signatures -/

/-- A toy signature is short. -/
theorem size_toySignature {handle : MemberHandle} (hhandle : stringSize handle.text ≤ 200)
    (secret body : Bytes) {macKey : FixedBytes 32} {mac : KeyPossessionProof}
    (hmac : buildKeyPossessionProof toyCrypto body macKey toyKid.text = .ok mac) :
    jsonSize (buildArtifactSignature toyCrypto body mac (toySigning handle secret)).toJson
      ≤ 2000 := by
  have hkid : stringSize toyKid.text = 34 := by decide
  have h32 : ∀ b : FixedBytes 32, stringSize (encodeBase64urlNopad b.bytes) = 45 := by
    intro b
    rw [stringSize_encode, b.size]
    rfl
  have h64 : ∀ b : FixedBytes 64, stringSize (encodeBase64urlNopad b.bytes) = 88 := by
    intro b
    rw [stringSize_encode, b.size]
    rfl
  have hlits : stringSize "alg" = 5 ∧ stringSize "kid" = 5 ∧ stringSize "signer_pub" = 12
      ∧ stringSize "mac" = 5 ∧ stringSize "sig" = 5 ∧ stringSize "protected" = 11
      ∧ stringSize "signature" = 11 ∧ stringSize "format" = 8 ∧ stringSize "subject_handle" = 16
      ∧ stringSize "keys" = 6 ∧ stringSize "attestation" = 13 ∧ stringSize "expires_at" = 12
      ∧ stringSize "kem" = 5 ∧ stringSize "kty" = 5 ∧ stringSize "crv" = 5 ∧ stringSize "x" = 3
      ∧ stringSize "method" = 8 ∧ stringSize "pub" = 5 := by decide
  have htexts : stringSize signatureEd25519 = 15 ∧ stringSize publicKeyV1 = 29
      ∧ stringSize "OKP" = 5 ∧ stringSize "X25519" = 8 ∧ stringSize "Ed25519" = 9
      ∧ stringSize "ssh-sign" = 10 ∧ stringSize "ssh-ed25519 AAAA" = 18
      ∧ stringSize "2030-01-01T00:00:00Z" = 22 := by decide
  obtain ⟨l1, l2, l3, l4, l5, l6, l7, l8, l9, l10, l11, l12, l13, l14, l15, l16, l17, l18⟩ := hlits
  obtain ⟨t1, t2, t3, t4, t5, t6, t7, t8⟩ := htexts
  have hsign : ∀ m, stringSize (encodeBase64urlNopad (toyCrypto.sign secret m).bytes) = 88 :=
    fun m => h64 _
  have hkeys : jsonSize (toyStatement handle toyKid secret).protect.keys.toJson = 172 := by
    simp only [toyStatement, IdentityKeys.toJson, JwkOkpPublicKey.toJson, jsonSize, membersSize,
      h32, l13, l5, l14, l15, l16, t3, t4, t5]
    omega
  have hattestation : jsonSize (toyStatement handle toyKid secret).protect.attestation.toJson
      = 141 := by
    simp only [toyStatement, Attestation.toJson, jsonSize, membersSize, h64, l17, l18, l5, t6, t7]
    omega
  have hprotected : jsonSize (toyStatement handle toyKid secret).protect.toJson ≤ 800 := by
    have hformat : (toyStatement handle toyKid secret).protect.format = publicKeyV1 := rfl
    have hsubject : (toyStatement handle toyKid secret).protect.subjectHandle = handle.text := rfl
    have hk : (toyStatement handle toyKid secret).protect.kid = toyKid.text := rfl
    have hexpires : (toyStatement handle toyKid secret).protect.expiresAt
        = "2030-01-01T00:00:00Z" := rfl
    have hclaims : (toyStatement handle toyKid secret).protect.claimMembers = [] := rfl
    have hcreated : (toyStatement handle toyKid secret).protect.createdMembers = [] := rfl
    rw [PublicKeyProtected.toJson, hclaims, hcreated, List.append_nil, List.append_nil,
      List.cons_append, jsonSize_obj (List.cons_ne_nil _ _)]
    simp only [membersSize, List.cons_append, List.nil_append, jsonSize_str, hkeys, hattestation,
      hformat, hsubject, hk, hexpires, hkid, l8, l9, l2, l10, l11, l12, t2, t8]
    omega
  have hpub : jsonSize (toyStatement handle toyKid secret).toJson ≤ 950 := by
    have hsig : (toyStatement handle toyKid secret).signature
        = encodeBase64urlNopad (pad 64 (pad 32 secret).bytes).bytes := rfl
    rw [PublicKey.toJson, jsonSize_obj (List.cons_ne_nil _ _)]
    simp only [membersSize, jsonSize_str, hsig, h64, l6, l7]
    omega
  have hwire := size_macWire hmac
  rw [size_signature]
  simp only [buildArtifactSignature, toySigning, hsign, hwire, hkid, t1]
  omega

/-! ## A kv-enc document -/

def toyHead (sid : Uuid) : KvHeader where
  sid := sid
  alg := { aead := aeadXChaCha20Poly1305 }
  createdAt := toyTime.text
  updatedAt := toyTime.text

/-- An entry that encrypts a text under a master key. -/
def toyEntryValue (masterKey : MasterKey) (value : String) : KvEntryValue where
  nonce := encodeBase64urlNopad (pad 24 []).bytes
  ct := encodeBase64urlNopad (tagged (utf8 value) (pad 16 (pad 32 (pad 32
    masterKey.bytes).bytes).bytes).bytes)
  disclosed := false

theorem encryptEntry_toy (key value : String) (masterKey : MasterKey) (sid : Uuid)
    (disclosed : Bool) :
    encryptEntry toyCrypto key value (kvKeySchedule toyCrypto masterKey sid) sid (pad 24 [])
      disclosed = .ok { toyEntryValue masterKey value with disclosed := disclosed } := rfl

/-- The value of an entry with a flag. -/
def markedValue (masterKey : MasterKey) (disclosed : Bool) : KvEntryValue :=
  { toyEntryValue masterKey "value" with disclosed := disclosed }

/-- An entry under a key, with a flag. -/
def markedEntry (masterKey : MasterKey) (mark : String × Bool) : KvEncEntry where
  key := mark.1
  token := tokenText (markedValue masterKey mark.2).toJson
  value := markedValue masterKey mark.2

/-- The one entry of a toy document. -/
def toyEntry (masterKey : MasterKey) : KvEncEntry where
  key := "KEY"
  token := tokenText (toyEntryValue masterKey "value").toJson
  value := toyEntryValue masterKey "value"

/-- A draft with an entry for each key and flag. -/
def markedDraft (sid : Uuid) (wrap : KvWrap) (masterKey : MasterKey)
    (marks : List (String × Bool)) : KvDocumentDraft where
  head := toyHead sid
  wrap := .decoded wrap
  entries := marks.map fun mark => .encoded mark.1 (markedEntry masterKey mark).token

def toyDraft (sid : Uuid) (wrap : KvWrap) (masterKey : MasterKey) : KvDocumentDraft where
  head := toyHead sid
  wrap := .decoded wrap
  entries := [.encoded "KEY" (toyEntry masterKey).token]

/-- Keys and flags for a small document. -/
structure ToyMarks (marks : List (String × Bool)) : Prop where
  names : ∀ mark ∈ marks, isValidKeyName mark.1 = true
  sorted : (marks.map Prod.fst).Pairwise (· < ·)
  few : marks.length ≤ 10
  short : ∀ mark ∈ marks, mark.1.utf8ByteSize ≤ 20

theorem ToyMarks.distinct {marks : List (String × Bool)} (h : ToyMarks marks) :
    (marks.map Prod.fst).Nodup :=
  h.sorted.imp fun hlt => ne_of_lt hlt

theorem wellFormed_toyHead (sid : Uuid) : (toyHead sid).wellFormed = true := by
  have htime : isIso8601Text toyTime.text = true := by decide
  rw [KvHeader.wellFormed]
  show (Algorithm.wellFormed { aead := aeadXChaCha20Poly1305 } && isIso8601Text toyTime.text
    && isIso8601Text toyTime.text) = true
  rw [htime]
  rfl

theorem wellFormed_markedValue (masterKey : MasterKey) (disclosed : Bool) :
    (markedValue masterKey disclosed).wellFormed = true :=
  (wellFormed_encryptEntry lawful_toyCrypto
    (encryptEntry_toy "KEY" "value" masterKey toySid disclosed)).1

theorem represents_markedDraft (sid : Uuid) {wrap : KvWrap} (hwrap : WrapChecked wrap)
    (masterKey : MasterKey) (marks : List (String × Bool)) :
    Represents (markedDraft sid wrap masterKey marks) (marks.map (markedEntry masterKey)) := by
  refine ⟨⟨fun _ htoken => (by cases htoken), ?_⟩, wellFormed_toyHead sid, hwrap⟩
  refine List.forall₂_map_left_iff.mpr (List.forall₂_map_right_iff.mpr
    (List.forall₂_same.mpr fun mark _ => ?_))
  exact ⟨rfl, rfl, wellFormed_markedValue masterKey mark.2, rfl⟩

/-- A draft that spells a toy document with these keys and flags, written anew or read back. -/
structure ToyMarked (sid : Uuid) (wrap : KvWrap) (masterKey : MasterKey)
    (marks : List (String × Bool)) (draft : KvDocumentDraft) : Prop where
  represents : Represents draft (marks.map (markedEntry masterKey))
  head : draft.head = toyHead sid
  data : draft.wrap.data = wrap
  wrapToken : draft.wrapToken = tokenText wrap.toJson

/-- A draft that spells a toy document with one entry. -/
structure ToyLike (sid : Uuid) (wrap : KvWrap) (masterKey : MasterKey) (draft : KvDocumentDraft) :
    Prop where
  represents : Represents draft [toyEntry masterKey]
  head : draft.head = toyHead sid
  data : draft.wrap.data = wrap
  wrapToken : draft.wrapToken = tokenText wrap.toJson

/-- The key and the flag of the one entry. -/
def toyMarks : List (String × Bool) := [("KEY", false)]

theorem toyMarks_toyMarks : ToyMarks toyMarks := by
  refine ⟨fun mark hmark => ?_, List.pairwise_singleton _ _, by decide, fun mark hmark => ?_⟩
  · rw [List.mem_singleton.mp hmark]
    decide
  · rw [List.mem_singleton.mp hmark]
    decide

theorem ToyLike.marked {sid : Uuid} {wrap : KvWrap} {masterKey : MasterKey}
    {draft : KvDocumentDraft} (h : ToyLike sid wrap masterKey draft) :
    ToyMarked sid wrap masterKey toyMarks draft :=
  ⟨h.represents, h.head, h.data, h.wrapToken⟩

theorem toyMarked_markedDraft (sid : Uuid) {wrap : KvWrap} (hwrap : WrapChecked wrap)
    (masterKey : MasterKey) (marks : List (String × Bool)) :
    ToyMarked sid wrap masterKey marks (markedDraft sid wrap masterKey marks) :=
  ⟨represents_markedDraft sid hwrap masterKey marks, rfl, rfl, rfl⟩

theorem toyLike_toyDraft (sid : Uuid) {wrap : KvWrap} (hwrap : WrapChecked wrap)
    (masterKey : MasterKey) : ToyLike sid wrap masterKey (toyDraft sid wrap masterKey) :=
  ⟨represents_markedDraft sid hwrap masterKey toyMarks, rfl, rfl, rfl⟩

/-- The tokens of a toy document. -/
theorem ToyMarked.tokens {sid : Uuid} {wrap : KvWrap} {masterKey : MasterKey}
    {marks : List (String × Bool)} {draft : KvDocumentDraft}
    (h : ToyMarked sid wrap masterKey marks draft) :
    draft.tokens = marks.map fun mark => (mark.1, (markedEntry masterKey mark).token) := by
  rw [h.represents.toStands.tokens, List.map_map]
  rfl

theorem ToyMarked.count {sid : Uuid} {wrap : KvWrap} {masterKey : MasterKey}
    {marks : List (String × Bool)} {draft : KvDocumentDraft}
    (h : ToyMarked sid wrap masterKey marks draft) : draft.entries.length = marks.length := by
  have hlength := congrArg List.length h.tokens
  rw [KvDocumentDraft.tokens, List.length_map, List.length_map] at hlength
  exact hlength

theorem keysChecked_toyMarked {sid : Uuid} {wrap : KvWrap} {masterKey : MasterKey}
    {marks : List (String × Bool)} (hmarks : ToyMarks marks) {draft : KvDocumentDraft}
    (h : ToyMarked sid wrap masterKey marks draft) : KeysChecked draft := by
  have hkeys : draft.entries.map KvDocumentEntry.key = marks.map Prod.fst := by
    rw [h.represents.toStands.keys, List.map_map]
    rfl
  refine ⟨fun entry hentry => ?_, ?_⟩
  · have hmem : entry.key ∈ draft.entries.map KvDocumentEntry.key := List.mem_map_of_mem hentry
    rw [hkeys] at hmem
    obtain ⟨mark, hmark, heq⟩ := List.mem_map.mp hmem
    rw [← heq]
    exact hmarks.names mark hmark
  · rw [hkeys]
    exact hmarks.distinct

theorem keysChecked_toyLike {sid : Uuid} {wrap : KvWrap} {masterKey : MasterKey}
    {draft : KvDocumentDraft} (h : ToyLike sid wrap masterKey draft) : KeysChecked draft :=
  keysChecked_toyMarked toyMarks_toyMarks h.marked

/-- A wrap that leaves room for everything else. -/
structure FittingWrap (wrap : KvWrap) : Prop extends WrapChecked wrap where
  size : jsonSize wrap.toJson ≤ 400000

structure SmallWrap (wrap : KvWrap) : Prop extends WrapChecked wrap where
  size : jsonSize wrap.toJson ≤ 100000
  elements : elementCount wrap.toJson ≤ maxJsonElements

theorem SmallWrap.fitting {wrap : KvWrap} (h : SmallWrap wrap) : FittingWrap wrap :=
  ⟨h.toWrapChecked, Nat.le_trans h.size (by decide)⟩

theorem computeEncodedLen_le {n m : Nat} (h : n ≤ m) : computeEncodedLen n ≤ 2 * m + 3 := by
  rw [computeEncodedLen]
  split <;> omega

theorem size_toyHead (sid : Uuid) : jsonSize (toyHead sid).toJson ≤ 200 := by
  have hsid : stringSize sid.text = 38 := stringSize_uuid sid.valid
  have htime : stringSize toyTime.text = 22 := by decide
  have haead : stringSize aeadXChaCha20Poly1305 = 20 := by decide
  rw [size_header]
  show 52 + stringSize sid.text + stringSize aeadXChaCha20Poly1305 + stringSize toyTime.text
    + stringSize toyTime.text ≤ 200
  omega

/-- A toy signature of a draft is short. -/
theorem size_signature_toyDraft {draft : KvDocumentDraft} {masterKey : MasterKey}
    {handle : MemberHandle} (hhandle : stringSize handle.text ≤ 200) {secret : Bytes}
    {signature : ArtifactSignature} {text : String}
    (hsigned : SignedBy toyCrypto draft masterKey (toySigning handle secret) signature text) :
    jsonSize signature.toJson ≤ 2000 := by
  obtain ⟨mac, hmac, hbuild⟩ := bind_eq_ok.mp hsigned.body
  rw [← Except.ok.inj hbuild]
  exact size_toySignature hhandle secret _ hmac

theorem size_markedValue (masterKey : MasterKey) (disclosed : Bool) :
    jsonSize (markedValue masterKey disclosed).toJson ≤ 200 := by
  have hnonce : stringSize (markedValue masterKey disclosed).nonce = 34 := by
    rw [markedValue, toyEntryValue, stringSize_encode, FixedBytes.size]
    rfl
  have hct : stringSize (markedValue masterKey disclosed).ct = 30 := by
    have hvalue : (utf8 "value").length = 5 := by decide
    rw [markedValue, toyEntryValue, stringSize_encode, tagged, List.length_append,
      FixedBytes.size, hvalue]
    rfl
  rw [size_entry, hnonce, hct]
  split <;> decide

theorem sum_map_le {α : Type} {bound : Nat} {items : List α} (weight : α → Nat)
    (h : ∀ x ∈ items, weight x ≤ bound) : (items.map weight).sum ≤ items.length * bound := by
  induction items with
  | nil => exact Nat.zero_le _
  | cons x items ih =>
    have hx := h x List.mem_cons_self
    have hrest := ih fun y hy => h y (List.mem_cons_of_mem _ hy)
    rw [List.map_cons, List.sum_cons, List.length_cons, Nat.succ_mul]
    omega

/-- The text of a toy document is far shorter than a kv-enc file may be. -/
theorem short_toyMarked {sid : Uuid} {wrap : KvWrap} (hwrap : FittingWrap wrap)
    {masterKey : MasterKey} {marks : List (String × Bool)} (hmarks : ToyMarks marks)
    {draft : KvDocumentDraft} (h : ToyMarked sid wrap masterKey marks draft)
    {handle : MemberHandle} (hhandle : stringSize handle.text ≤ 200)
    {secret : Bytes} {signature : ArtifactSignature} {text : String}
    (hsigned : SignedBy toyCrypto draft masterKey (toySigning handle secret) signature text) :
    (draft.signedWith signature).utf8ByteSize ≤ maxBase64TokenLength := by
  have hentries : (draft.tokens.map fun entry => entry.1.utf8ByteSize + entry.2.utf8ByteSize
      + 2).sum ≤ marks.length * 425 := by
    rw [h.tokens, List.map_map]
    refine sum_map_le _ fun mark hmark => ?_
    have hkey := hmarks.short mark hmark
    have htoken := computeEncodedLen_le (size_markedValue masterKey mark.2)
    rw [← tokenText_size] at htoken
    show mark.1.utf8ByteSize + (tokenText (markedValue masterKey mark.2).toJson).utf8ByteSize + 2
      ≤ 425
    omega
  have hfew := hmarks.few
  have h1 := computeEncodedLen_le (size_toyHead sid)
  have h2 := computeEncodedLen_le hwrap.size
  have h3 := computeEncodedLen_le (size_signature_toyDraft hhandle hsigned)
  rw [← tokenText_size] at h1 h2 h3
  rw [size_signedWith, h.head, h.wrapToken, maxBase64TokenLength]
  omega

theorem short_toyLike {sid : Uuid} {wrap : KvWrap} (hwrap : SmallWrap wrap)
    {masterKey : MasterKey} {draft : KvDocumentDraft} (h : ToyLike sid wrap masterKey draft)
    {handle : MemberHandle} (hhandle : stringSize handle.text ≤ 200)
    {secret : Bytes} {signature : ArtifactSignature} {text : String}
    (hsigned : SignedBy toyCrypto draft masterKey (toySigning handle secret) signature text) :
    (draft.signedWith signature).utf8ByteSize ≤ maxBase64TokenLength :=
  short_toyMarked hwrap.fitting toyMarks_toyMarks h.marked hhandle hsigned

/-- **A TOY DOCUMENT IS WITHIN THE LIMITS**, when its wrap has few enough elements. -/
theorem withinLimits_toyMarked {sid : Uuid} {wrap : KvWrap} (hwrap : FittingWrap wrap)
    (helements : elementCount wrap.toJson ≤ maxJsonElements) {masterKey : MasterKey}
    {marks : List (String × Bool)} (hmarks : ToyMarks marks) {draft : KvDocumentDraft}
    (h : ToyMarked sid wrap masterKey marks draft) {handle : MemberHandle}
    (hhandle : stringSize handle.text ≤ 200) {secret : Bytes} {signature : ArtifactSignature}
    {text : String}
    (hsigned : SignedBy toyCrypto draft masterKey (toySigning handle secret) signature text) :
    WithinLimits draft signature := by
  refine withinLimits_of_short (short_toyMarked hwrap hmarks h hhandle hsigned) ?_ ?_
  · rw [h.count]
    exact Nat.le_trans hmarks.few (by decide)
  · rw [h.data]
    exact helements

theorem withinLimits_toyLike {sid : Uuid} {wrap : KvWrap} (hwrap : SmallWrap wrap)
    {masterKey : MasterKey} {draft : KvDocumentDraft} (h : ToyLike sid wrap masterKey draft)
    {handle : MemberHandle} (hhandle : stringSize handle.text ≤ 200)
    {secret : Bytes} {signature : ArtifactSignature} {text : String}
    (hsigned : SignedBy toyCrypto draft masterKey (toySigning handle secret) signature text) :
    WithinLimits draft signature :=
  withinLimits_toyMarked hwrap.fitting hwrap.elements toyMarks_toyMarks h.marked hhandle hsigned

/-- **A TOY DOCUMENT IS SIGNED AND READ BACK.** -/
theorem verify_toyMarked {sid : Uuid} {wrap : KvWrap} (hwrap : FittingWrap wrap)
    (helements : elementCount wrap.toJson ≤ maxJsonElements) {masterKey : MasterKey}
    {marks : List (String × Bool)} (hmarks : ToyMarks marks) {draft : KvDocumentDraft}
    (h : ToyMarked sid wrap masterKey marks draft) {handle : MemberHandle}
    (hhandle : stringSize handle.text ≤ 200) (secret : Bytes) :
    ∃ text signature, signUnsignedKvDocument toyCrypto draft masterKey (toySigning handle secret)
        = .ok text
      ∧ SignedBy toyCrypto draft masterKey (toySigning handle secret) signature text
      ∧ verifyKvContent toyCrypto text
        = .ok (draft.document (marks.map (markedEntry masterKey)) signature) := by
  obtain ⟨text, htext⟩ := signUnsignedKvDocument_total toyCrypto draft masterKey
    (toySigning handle secret)
  obtain ⟨signature, hsigned⟩ := signUnsignedKvDocument_ok htext
  refine ⟨text, signature, htext, hsigned, ?_⟩
  exact verify_signed lawful_toyCrypto h.represents hsigned (buildSigningContext_toy handle secret)
    rfl (keysChecked_toyMarked hmarks h)
    (withinLimits_toyMarked hwrap helements hmarks h hhandle hsigned)

theorem verify_toyLike {sid : Uuid} {wrap : KvWrap} (hwrap : SmallWrap wrap)
    {masterKey : MasterKey} {draft : KvDocumentDraft} (h : ToyLike sid wrap masterKey draft)
    {handle : MemberHandle} (hhandle : stringSize handle.text ≤ 200) (secret : Bytes) :
    ∃ text signature, signUnsignedKvDocument toyCrypto draft masterKey (toySigning handle secret)
        = .ok text
      ∧ SignedBy toyCrypto draft masterKey (toySigning handle secret) signature text
      ∧ verifyKvContent toyCrypto text = .ok (draft.document [toyEntry masterKey] signature) :=
  verify_toyMarked hwrap.fitting hwrap.elements toyMarks_toyMarks h.marked hhandle secret

/-- The update time of a toy document is the toy time. -/
theorem ToyMarked.setUpdatedAt {sid : Uuid} {wrap : KvWrap} {masterKey : MasterKey}
    {marks : List (String × Bool)} {draft : KvDocumentDraft}
    (h : ToyMarked sid wrap masterKey marks draft) :
    ToyMarked sid wrap masterKey marks (draft.setUpdatedAt toyTime.text) := by
  have htime : isIso8601Text toyTime.text = true := by decide
  refine ⟨represents_setUpdatedAt h.represents htime, ?_, h.data, h.wrapToken⟩
  show ({ draft.head with updatedAt := toyTime.text } : KvHeader) = toyHead sid
  rw [h.head]
  rfl

/-- A toy document with another wrap. -/
theorem ToyMarked.wrapMut {sid : Uuid} {wrap other : KvWrap} {masterKey : MasterKey}
    {marks : List (String × Bool)} {draft : KvDocumentDraft}
    (h : ToyMarked sid wrap masterKey marks draft) (hother : WrapChecked other) :
    ToyMarked sid other masterKey marks (draft.wrapMut fun _ => other) :=
  ⟨represents_wrapMut h.represents hother, h.head, rfl, rfl⟩

/-- A toy document, read back, is a draft of a toy document again. -/
theorem toyMarked_reread {sid : Uuid} {wrap : KvWrap} {masterKey : MasterKey}
    {marks : List (String × Bool)} {draft : KvDocumentDraft}
    (h : ToyMarked sid wrap masterKey marks draft) {content : String}
    {signature : ArtifactSignature}
    (hverify : verifyKvContent toyCrypto content
      = .ok (draft.document (marks.map (markedEntry masterKey)) signature)) :
    ∃ draft', KvDocumentBuilder.fromDocument
        (draft.document (marks.map (markedEntry masterKey)) signature).head none
        (draft.document (marks.map (markedEntry masterKey)) signature) = .ok draft'
      ∧ ToyMarked sid wrap masterKey marks draft' := by
  obtain ⟨parsed, hparse, hchecked⟩ := bind_eq_ok.mp hverify
  obtain ⟨_, _, hchecked⟩ := bind_eq_ok.mp hchecked
  obtain ⟨_, _, hchecked⟩ := bind_eq_ok.mp hchecked
  obtain ⟨_, _, hchecked⟩ := bind_eq_ok.mp hchecked
  rw [Except.ok.inj hchecked] at hparse
  obtain ⟨headToken, sigToken, haccepted⟩ := accepted_of_parse hparse
  obtain ⟨draft', hdraft, hhead, hsource, hrep⟩ := represents_fromDocument haccepted
    h.represents.head
  refine ⟨draft', hdraft, hrep, hhead.trans h.head, ?_, ?_⟩
  · rw [hsource]
    exact h.data
  · show draft'.wrap.token.getD _ = _
    rw [hsource]
    exact h.wrapToken

/-- The text of a toy document, signed by somebody. -/
def ToyText (sid : Uuid) (wrap : KvWrap) (masterKey : MasterKey) (marks : List (String × Bool))
    (handle : MemberHandle) (secret : Bytes) (text : String) : Prop :=
  ∃ draft signature, ToyMarked sid wrap masterKey marks draft
    ∧ SignedBy toyCrypto draft masterKey (toySigning handle secret) signature text
    ∧ verifyKvContent toyCrypto text
      = .ok (draft.document (marks.map (markedEntry masterKey)) signature)

/-- The signer of a toy document is named in it. -/
theorem signer_toyDraft {draft : KvDocumentDraft} {masterKey : MasterKey} {handle : MemberHandle}
    {secret : Bytes} {signature : ArtifactSignature} {text : String}
    (h : SignedBy toyCrypto draft masterKey (toySigning handle secret) signature text) :
    signature.signerPub = toyStatement handle toyKid secret := by
  obtain ⟨mac, _, hbuild⟩ := bind_eq_ok.mp h.body
  rw [← Except.ok.inj hbuild]
  rfl

/-! ## Opening it -/

/-- A member with a wrap opens it. -/
theorem unwrap_toyWrap {format : WrapFormat} {sid : Uuid} {items : List WrapItem}
    (hvalid : validateWrapItems items "Document" = .ok ()) {handle : MemberHandle} {kid : Kid}
    {secret : Bytes} {masterKey : MasterKey}
    (hitem : toyWrap handle kid secret masterKey ∈ items) :
    unwrapMasterKeyWithContext toyCrypto format sid items handle.text
      (toyContext handle kid secret) = .ok masterKey :=
  unwrap_of_member hvalid hitem (opensOwn_toy handle kid secret)
    (opensTo_toyWrap format handle kid secret sid masterKey)

/-- The entries of a toy document decrypt. -/
theorem decryptKvEntries_toy (sid : Uuid) (masterKey : MasterKey) (marks : List (String × Bool)) :
    decryptKvEntries toyCrypto (marks.map (markedEntry masterKey))
        (kvKeySchedule toyCrypto masterKey sid) sid aeadXChaCha20Poly1305
      = .ok (marks.map fun mark => (mark.1, utf8 "value")) := by
  induction marks with
  | nil => rfl
  | cons mark marks ih =>
    have hvalue : decryptEntry toyCrypto (markedEntry masterKey mark).value
        (markedEntry masterKey mark).key aeadXChaCha20Poly1305
        (kvKeySchedule toyCrypto masterKey sid) sid = .ok (utf8 "value") :=
      decrypt_encryptEntry lawful_toyCrypto rfl (by decide)
        (encryptEntry_toy mark.1 "value" masterKey sid mark.2)
    exact bind_eq_ok.mpr ⟨_, hvalue, bind_eq_ok.mpr ⟨_, ih, rfl⟩⟩

/-- The proof of a toy document, and the key behind its wraps. -/
theorem unwrap_toyMarked {sid : Uuid} {wrap : KvWrap} (hwrap : WrapChecked wrap)
    {masterKey : MasterKey} {marks : List (String × Bool)} {draft : KvDocumentDraft}
    (h : ToyMarked sid wrap masterKey marks draft)
    {signing : SigningContext} {signature : ArtifactSignature} {text : String}
    (hsigned : SignedBy toyCrypto draft masterKey signing signature text) {handle : MemberHandle}
    {kid : Kid} {secret : Bytes} (hitem : toyWrap handle kid secret masterKey ∈ wrap.wrap) :
    unwrapMasterKeyWithContext toyCrypto .kv draft.head.sid draft.wrap.data.wrap handle.text
        (toyContext handle kid secret) = .ok masterKey
      ∧ verifyKvKeyPossession toyCrypto
        (draft.document (marks.map (markedEntry masterKey)) signature) masterKey = .ok () := by
  refine ⟨?_, verifyKvKeyPossession_document h.represents.toStands hsigned⟩
  rw [h.data]
  exact unwrap_toyWrap (hwrap.items "Document") hitem

theorem unwrap_toyLike {sid : Uuid} {wrap : KvWrap} (hwrap : WrapChecked wrap)
    {masterKey : MasterKey} {draft : KvDocumentDraft} (h : ToyLike sid wrap masterKey draft)
    {signing : SigningContext} {signature : ArtifactSignature} {text : String}
    (hsigned : SignedBy toyCrypto draft masterKey signing signature text) {handle : MemberHandle}
    {kid : Kid} {secret : Bytes} (hitem : toyWrap handle kid secret masterKey ∈ wrap.wrap) :
    unwrapMasterKeyWithContext toyCrypto .kv draft.head.sid draft.wrap.data.wrap handle.text
        (toyContext handle kid secret) = .ok masterKey
      ∧ verifyKvKeyPossession toyCrypto (draft.document [toyEntry masterKey] signature) masterKey
        = .ok () :=
  unwrap_toyMarked hwrap h.marked hsigned hitem

/-- **A MEMBER WITH A WRAP DECRYPTS A TOY DOCUMENT.** -/
theorem decrypt_toyMarked {sid : Uuid} {wrap : KvWrap} (hwrap : WrapChecked wrap)
    {masterKey : MasterKey} {marks : List (String × Bool)} {draft : KvDocumentDraft}
    (h : ToyMarked sid wrap masterKey marks draft)
    {signing : SigningContext} {signature : ArtifactSignature} {text : String}
    (hsigned : SignedBy toyCrypto draft masterKey signing signature text) {handle : MemberHandle}
    {kid : Kid} {secret : Bytes} (hitem : toyWrap handle kid secret masterKey ∈ wrap.wrap) :
    decryptKvDocumentWithContext toyCrypto
        (draft.document (marks.map (markedEntry masterKey)) signature) handle.text
        (toyContext handle kid secret)
      = .ok (marks.map fun mark => (mark.1, utf8 "value")) := by
  obtain ⟨hunwrap, hproof⟩ := unwrap_toyMarked hwrap h hsigned hitem
  have haead : draft.head.alg.aead = aeadXChaCha20Poly1305 := by rw [h.head]; rfl
  refine bind_eq_ok.mpr ⟨masterKey, hunwrap, bind_eq_ok.mpr ⟨(), hproof, ?_⟩⟩
  show decryptKvEntries toyCrypto (marks.map (markedEntry masterKey))
    (kvKeySchedule toyCrypto masterKey draft.head.sid) draft.head.sid draft.head.alg.aead = _
  rw [haead]
  exact decryptKvEntries_toy draft.head.sid masterKey marks

theorem decrypt_toyLike {sid : Uuid} {wrap : KvWrap} (hwrap : WrapChecked wrap)
    {masterKey : MasterKey} {draft : KvDocumentDraft} (h : ToyLike sid wrap masterKey draft)
    {signing : SigningContext} {signature : ArtifactSignature} {text : String}
    (hsigned : SignedBy toyCrypto draft masterKey signing signature text) {handle : MemberHandle}
    {kid : Kid} {secret : Bytes} (hitem : toyWrap handle kid secret masterKey ∈ wrap.wrap) :
    decryptKvDocumentWithContext toyCrypto (draft.document [toyEntry masterKey] signature)
      handle.text (toyContext handle kid secret) = .ok [("KEY", utf8 "value")] :=
  decrypt_toyMarked hwrap h.marked hsigned hitem

/-! ## Writing it anew -/

/-- Encrypting the values of a toy document, with one flag for all. -/
theorem encryptKvEntriesFrom_marked (sid : Uuid) (masterKey : MasterKey) (disclosed : Bool)
    (i : Nat) (marks : List (String × Bool)) :
    encryptKvEntriesFrom toyCrypto (kvKeySchedule toyCrypto masterKey sid) sid disclosed
        (toyDraws sid masterKey).nonce i (marks.map fun mark => (mark.1, "value"))
      = .ok (marks.map fun mark => (mark.1, markedValue masterKey disclosed)) := by
  induction marks generalizing i with
  | nil => rfl
  | cons mark marks ih =>
    exact bind_eq_ok.mpr ⟨_, encryptEntry_toy mark.1 "value" masterKey sid disclosed,
      bind_eq_ok.mpr ⟨_, ih (i + 1), rfl⟩⟩

/-- Encoding them. -/
theorem encodeKvEntriesToTokens_marked (masterKey : MasterKey) (disclosed : Bool)
    (marks : List (String × Bool)) :
    encodeKvEntriesToTokens (marks.map fun mark => (mark.1, markedValue masterKey disclosed))
      = .ok (marks.map fun mark =>
        (mark.1, tokenText (markedValue masterKey disclosed).toJson)) := by
  have htoken := encodeToken_eq
    (encodable_entry (wellFormed_markedValue masterKey disclosed)).numbers
  induction marks with
  | nil => rfl
  | cons mark marks ih => exact bind_eq_ok.mpr ⟨_, htoken, bind_eq_ok.mpr ⟨_, ih, rfl⟩⟩

/-- **ENCRYPTING ANEW GIVES A TOY DOCUMENT**, for members who get these wraps, with one flag for
    all entries. -/
theorem encryptedDraft_marked (sid : Uuid) (masterKey : MasterKey)
    {marks : List (String × Bool)} (hmarks : ToyMarks marks) (disclosed : Bool)
    {members : List VerifiedRecipientKey} {items : List WrapItem}
    (hitems : buildWrapsForRecipients toyCrypto members sid masterKey .kv (fun _ => [])
      = .ok items) (mutateWrap : KvWrap → KvWrap) :
    encryptedDraft toyCrypto (marks.map fun mark => (mark.1, "value")) members disclosed mutateWrap
        (toyDraws sid masterKey)
      = .ok (markedDraft sid (mutateWrap { wrap := items, removedRecipients := none }) masterKey
          (marks.map fun mark => (mark.1, disclosed))) := by
  have hsorted : sortBy Prod.fst
      (marks.map fun mark => (mark.1, markedValue masterKey disclosed))
      = marks.map fun mark => (mark.1, markedValue masterKey disclosed) := by
    refine List.Pairwise.insertionSort_eq (List.pairwise_map.mpr ?_)
    exact (List.pairwise_map.mp hmarks.sorted).imp fun hlt => le_of_lt hlt
  refine bind_eq_ok.mpr ⟨(toyHead sid, { wrap := items, removedRecipients := none }),
    bind_eq_ok.mpr ⟨items, hitems, rfl⟩, bind_eq_ok.mpr ⟨_, bind_eq_ok.mpr
      ⟨_, encryptKvEntriesFrom_marked sid masterKey disclosed 0 marks, rfl⟩, bind_eq_ok.mpr
        ⟨marks.map fun mark => (mark.1, tokenText (markedValue masterKey disclosed).toJson), ?_,
          ?_⟩⟩⟩
  · rw [hsorted]
    exact encodeKvEntriesToTokens_marked masterKey disclosed marks
  · refine congrArg Except.ok ?_
    rw [KvDocumentBuilder.withEntries, markedDraft, KvDocumentBuilder.new, List.map_map,
      List.map_map]
    rfl

/-! ## Wraps that fit -/

theorem elements_wrapItem (item : WrapItem) : 1 + elementCount item.toJson = 11 := rfl

theorem elements_removedRecipient (r : RemovedRecipient) : 1 + elementCount r.toJson = 7 := rfl

/-- A toy wrap is short. -/
theorem size_toyWrap {handle : MemberHandle} (hhandle : stringSize handle.text ≤ 200) (kid : Kid)
    (secret : Bytes) (masterKey : MasterKey) :
    jsonSize (toyWrap handle kid secret masterKey).toJson ≤ 499 := by
  have hkid : stringSize kid.text = 34 := by
    have hvalid := kid.valid
    rw [isKidText, Bool.and_eq_true, beq_iff_eq] at hvalid
    have hchars : ∀ c ∈ kid.text.toList, isBase64urlChar c = true := by
      intro c hc
      have hrange := toNat_of_crockford (List.all_eq_true.mp hvalid.2 c hc)
      rw [isBase64urlChar, isAlphanum_iff_toNat.mpr (by omega)]
      rfl
    rw [stringSize_base64 hchars, ← String.ofList_toList (s := kid.text), utf8ByteSize_ofList,
      charsSize_base64 hchars, hvalid.1]
  have halg : stringSize hpkeAlgorithm ≤ 100 := by decide
  have henc : stringSize (toyWrap handle kid secret masterKey).enc = 45 := by
    rw [toyWrap, stringSize_encode, FixedBytes.size]
    rfl
  have hct : stringSize (toyWrap handle kid secret masterKey).ct = 66 := by
    rw [toyWrap, stringSize_encode, tagged, List.length_append, FixedBytes.size, FixedBytes.size]
    rfl
  rw [size_wrapItem, henc, hct]
  show 34 + stringSize handle.text + stringSize kid.text + stringSize hpkeAlgorithm + 45 + 66 ≤ 499
  omega

/-- **A FEW TOY WRAPS LEAVE ROOM**, whatever short history goes with them. -/
theorem smallWrap_of_items {wrap : KvWrap} (hchecked : WrapChecked wrap)
    (hcount : wrap.wrap.length ≤ 50)
    (hitems : ∀ item ∈ wrap.wrap, jsonSize item.toJson ≤ 499)
    (hremoved : ∀ removed ∈ wrap.removedRecipients, removed.length ≤ 50
      ∧ ∀ r ∈ removed, jsonSize r.toJson ≤ 499) : SmallWrap wrap := by
  have hwraps : jsonSize (.arr (wrap.wrap.map WrapItem.toJson)) ≤ 25001 := by
    have hsum := sum_map_le (fun item : WrapItem => jsonSize item.toJson + 1)
      fun item hitem => Nat.succ_le_succ (hitems item hitem)
    rw [jsonSize, itemsSize_map]
    omega
  have helements : elementCount (.arr (wrap.wrap.map WrapItem.toJson)) ≤ 1000 := by
    have hsum := sum_map_le (fun item : WrapItem => 1 + elementCount item.toJson)
      fun item (_ : item ∈ wrap.wrap) => Nat.le_of_eq (elements_wrapItem item)
    rw [elementCount_arr, itemsElementCount_eq_sum, List.map_map]
    show max 1 (wrap.wrap.map fun item : WrapItem => 1 + elementCount item.toJson).sum ≤ 1000
    omega
  have hnames : stringSize "wrap" = 6 ∧ stringSize "removed_recipients" = 20 := by decide
  have hhistory : ∀ removed ∈ wrap.removedRecipients,
      jsonSize (.arr (removed.map RemovedRecipient.toJson)) ≤ 25001
        ∧ elementCount (.arr (removed.map RemovedRecipient.toJson)) ≤ 1000 := by
    intro removed hmem
    obtain ⟨hlength, hsizes⟩ := hremoved removed hmem
    constructor
    · have hsum := sum_map_le (fun r : RemovedRecipient => jsonSize r.toJson + 1)
        fun r hr => Nat.succ_le_succ (hsizes r hr)
      rw [jsonSize, itemsSize_map]
      omega
    · have hsum := sum_map_le (fun r : RemovedRecipient => 1 + elementCount r.toJson)
        fun r (_ : r ∈ removed) => Nat.le_of_eq (elements_removedRecipient r)
      rw [elementCount_arr, itemsElementCount_eq_sum, List.map_map]
      show max 1 (removed.map fun r : RemovedRecipient => 1 + elementCount r.toJson).sum ≤ 1000
      omega
  have hmax : maxJsonElements = 13000 := rfl
  cases hcase : wrap.removedRecipients with
  | none =>
    refine ⟨hchecked, ?_, ?_⟩
    · rw [KvWrap.toJson, hcase, jsonSize_obj (List.cons_ne_nil _ _), membersSize, membersSize,
        hnames.1]
      omega
    · rw [KvWrap.toJson, hcase, elementCount, membersElementCount]
      omega
  | some removed =>
    obtain ⟨hsize, hcount'⟩ := hhistory removed hcase
    refine ⟨hchecked, ?_, ?_⟩
    · rw [KvWrap.toJson, hcase, jsonSize_obj (List.cons_ne_nil _ _), membersSize, membersSize,
        membersSize, hnames.1, hnames.2]
      omega
    · rw [KvWrap.toJson, hcase, elementCount, membersElementCount, membersElementCount]
      omega

/-! ## A file-enc document -/

/-- The protected part of a file-enc document, with a sid of its own for the payload. -/
def toyProtected (sid payloadSid : Uuid) (wrap : KvWrap) (masterKey : MasterKey)
    (content : Bytes) : FileEncDocumentProtected where
  format := fileEncV1
  sid := sid
  wrap := wrap.wrap
  removedRecipients := wrap.removedRecipients
  payload := {
    protect := {
      format := filePayloadV1
      sid := payloadSid
      alg := { aead := aeadXChaCha20Poly1305 } }
    encrypted := {
      nonce := encodeBase64urlNopad (pad 24 []).bytes
      ct := encodeBase64urlNopad (tagged content (pad 16 (pad 32 (pad 32
        masterKey.bytes).bytes).bytes).bytes) } }
  createdAt := toyTime.text
  updatedAt := toyTime.text

/-- Wraps a toy document can carry. -/
structure SmallWraps (items : List WrapItem) : Prop where
  nonempty : 1 ≤ items.length
  few : items.length ≤ 50
  handles : (items.map WrapItem.recipientHandle).Nodup
  wellFormed : ∀ item ∈ items, item.wellFormed = true
  short : ∀ item ∈ items, jsonSize item.toJson ≤ 499

/-- A history that is short. -/
def ShortHistory (removed : Option (List RemovedRecipient)) : Prop :=
  ∀ history ∈ removed, history.length ≤ 50
    ∧ ∀ r ∈ history, r.wellFormed = true ∧ jsonSize r.toJson ≤ 499

theorem shortHistory_none : ShortHistory none :=
  fun _ h => by cases h

/-- Wraps that are few and short, with a short history, make a small kv-enc wrap. -/
theorem SmallWraps.toSmallWrap {items : List WrapItem} (h : SmallWraps items)
    {removed : Option (List RemovedRecipient)} (hremoved : ShortHistory removed) :
    SmallWrap { wrap := items, removedRecipients := removed } := by
  have hmany : items.length ≤ 1000 := Nat.le_trans h.few (by decide)
  have hhistory : removed.all (fun history => history.all RemovedRecipient.wellFormed) = true := by
    cases removed with
    | none => rfl
    | some history =>
      exact List.all_eq_true.mpr fun r hr => ((hremoved history rfl).2 r hr).1
  refine smallWrap_of_items ⟨?_, h.handles⟩ h.few h.short fun history hhist =>
    ⟨(hremoved history hhist).1, fun r hr => ((hremoved history hhist).2 r hr).2⟩
  rw [KvWrap.wellFormed, List.all_eq_true.mpr h.wellFormed, hhistory, decide_eq_true h.nonempty,
    decide_eq_true hmany]
  rfl

/-- A wrap without a history. -/
theorem SmallWraps.unremoved {items : List WrapItem} (h : SmallWraps items) :
    SmallWrap { wrap := items, removedRecipients := none } :=
  h.toSmallWrap shortHistory_none

/-- One toy wrap is few. -/
theorem smallWraps_single {handle : MemberHandle} (hhandle : stringSize handle.text ≤ 200)
    (kid : Kid) (secret : Bytes) (masterKey : MasterKey) :
    SmallWraps [toyWrap handle kid secret masterKey] where
  nonempty := Nat.le_refl 1
  few := by rw [List.length_singleton]; decide
  handles := List.nodup_singleton _
  wellFormed := by
    intro item hitem
    rw [List.mem_singleton.mp hitem]
    exact wellFormed_toyWrap handle kid secret masterKey
  short := by
    intro item hitem
    rw [List.mem_singleton.mp hitem]
    exact size_toyWrap hhandle kid secret masterKey

/-- Two toy wraps for two handles are few. -/
theorem smallWraps_pair {handle handle' : MemberHandle} (hne : handle.text ≠ handle'.text)
    (hhandle : stringSize handle.text ≤ 200) (hhandle' : stringSize handle'.text ≤ 200)
    (kid kid' : Kid) (secret secret' : Bytes) (masterKey masterKey' : MasterKey) :
    SmallWraps [toyWrap handle kid secret masterKey, toyWrap handle' kid' secret' masterKey'] where
  nonempty := by rw [List.length_cons, List.length_singleton]; decide
  few := by rw [List.length_cons, List.length_singleton]; decide
  handles := List.nodup_cons.mpr ⟨by
    rw [List.map_singleton, List.mem_singleton]
    exact hne, List.nodup_singleton _⟩
  wellFormed := by
    intro item hitem
    rcases List.mem_cons.mp hitem with rfl | hitem
    · exact wellFormed_toyWrap handle kid secret masterKey
    · rw [List.mem_singleton.mp hitem]
      exact wellFormed_toyWrap handle' kid' secret' masterKey'
  short := by
    intro item hitem
    rcases List.mem_cons.mp hitem with rfl | hitem
    · exact size_toyWrap hhandle kid secret masterKey
    · rw [List.mem_singleton.mp hitem]
      exact size_toyWrap hhandle' kid' secret' masterKey'

theorem wellFormed_toyProtected (sid payloadSid : Uuid) {items : List WrapItem}
    (hitems : SmallWraps items) {removed : Option (List RemovedRecipient)}
    (hremoved : ShortHistory removed) (masterKey : MasterKey) (content : Bytes) :
    protectedWellFormed (toyProtected sid payloadSid ⟨items, removed⟩ masterKey content)
      = true := by
  have hmany : items.length ≤ 1000 := Nat.le_trans hitems.few (by decide)
  have htime : isIso8601Text toyTime.text = true := by decide
  have hhistory : removed.all (fun history => history.all RemovedRecipient.wellFormed) = true := by
    cases removed with
    | none => rfl
    | some history =>
      exact List.all_eq_true.mpr fun r hr => ((hremoved history rfl).2 r hr).1
  have hnonce : isB64urlSized 32 (encodeBase64urlNopad (pad 24 []).bytes) = true :=
    isB64urlSized_encode (n := 24) _ (FixedBytes.size _) (by decide)
  have hct : ∀ tag : FixedBytes 16,
      isB64urlText (encodeBase64urlNopad (tagged content tag.bytes)) = true := by
    intro tag
    refine isB64urlText_encode _ fun hnil => ?_
    have hlength := congrArg List.length hnil
    rw [tagged, List.length_append, tag.size, List.length_nil] at hlength
    omega
  have hpayload :
      (toyProtected sid payloadSid ⟨items, removed⟩ masterKey content).payload.wellFormed
        = true := by
    rw [FilePayload.wellFormed, FilePayloadCiphertext.wellFormed]
    show (true && (isB64urlSized 32 _ && isB64urlText _)) = true
    rw [toyProtected, hnonce, hct]
    rfl
  rw [protectedWellFormed, hpayload]
  show (fileEncV1 == fileEncV1 && (decide (1 ≤ items.length) && decide (items.length ≤ 1000)
    && items.all WrapItem.wellFormed)
    && removed.all (fun history => history.all RemovedRecipient.wellFormed) && true
    && isIso8601Text toyTime.text && isIso8601Text toyTime.text) = true
  rw [List.all_eq_true.mpr hitems.wellFormed, decide_eq_true hitems.nonempty,
    decide_eq_true hmany, htime, hhistory]
  rfl

/-- A signed toy file. -/
structure ToyFile (sid payloadSid : Uuid) (wrap : KvWrap) (masterKey : MasterKey)
    (content : Bytes) (handle : MemberHandle) (secret : Bytes) (doc : FileEncDocument) : Prop where
  protect_eq : doc.protect = toyProtected sid payloadSid wrap masterKey content
  signer : doc.signature.signerPub = toyStatement handle toyKid secret
  proof : verifyFileKeyPossession toyCrypto doc masterKey = .ok ()
  verified : verifyFileContent toyCrypto (writeFileEnc doc) = .ok doc

theorem elements_toySignature (body : Bytes) (mac : KeyPossessionProof) (handle : MemberHandle)
    (secret : Bytes) :
    elementCount (buildArtifactSignature toyCrypto body mac (toySigning handle secret)).toJson
      ≤ 100 := by
  show elementCount (.obj [("alg", Json.str _), ("kid", .str _),
    ("signer_pub", (toyStatement handle toyKid secret).toJson), ("mac", .str _),
    ("sig", .str _)]) ≤ 100
  have hpub : elementCount (toyStatement handle toyKid secret).toJson = 38 := rfl
  simp only [elementCount, membersElementCount]
  omega

/-- The elements of a toy file. -/
theorem elements_toyProtected (sid payloadSid : Uuid) {items : List WrapItem}
    (hfew : items.length ≤ 50) {removed : Option (List RemovedRecipient)}
    (hremoved : ShortHistory removed) (masterKey : MasterKey) (content : Bytes) :
    elementCount (toyProtected sid payloadSid ⟨items, removed⟩ masterKey content).toJson
      ≤ 2100 := by
  have hsum := sum_map_le (fun item : WrapItem => 1 + elementCount item.toJson)
    fun item (_ : item ∈ items) => Nat.le_of_eq (elements_wrapItem item)
  have harr : elementCount (.arr (items.map WrapItem.toJson)) ≤ 1000 := by
    rw [elementCount_arr, itemsElementCount_eq_sum, List.map_map]
    show max 1 (items.map fun item : WrapItem => 1 + elementCount item.toJson).sum ≤ 1000
    omega
  have hhistory : ∀ history ∈ removed,
      elementCount (.arr (history.map RemovedRecipient.toJson)) ≤ 1000 := by
    intro history hmem
    have hlength := (hremoved history hmem).1
    have hrecords := sum_map_le (fun r : RemovedRecipient => 1 + elementCount r.toJson)
      fun r (_ : r ∈ history) => Nat.le_of_eq (elements_removedRecipient r)
    rw [elementCount_arr, itemsElementCount_eq_sum, List.map_map]
    show max 1 (history.map fun r : RemovedRecipient => 1 + elementCount r.toJson).sum ≤ 1000
    omega
  have hpayload : elementCount
      (toyProtected sid payloadSid ⟨items, removed⟩ masterKey content).payload.toJson = 16 := rfl
  have hstr : ∀ text : String, elementCount (.str text) = 0 := fun _ => rfl
  cases removed with
  | none =>
    show elementCount (.obj [("format", Json.str _), ("sid", .str _),
      ("wrap", .arr (items.map WrapItem.toJson)),
      ("payload", (toyProtected sid payloadSid ⟨items, none⟩ masterKey content).payload.toJson),
      ("created_at", .str _), ("updated_at", .str _)]) ≤ 2100
    rw [elementCount_obj]
    simp only [membersElementCount, hpayload]
    rw [hstr, hstr, hstr, hstr]
    omega
  | some history =>
    have hrecords := hhistory history rfl
    show elementCount (.obj [("format", Json.str _), ("sid", .str _),
      ("wrap", .arr (items.map WrapItem.toJson)),
      ("removed_recipients", .arr (history.map RemovedRecipient.toJson)),
      ("payload", (toyProtected sid payloadSid ⟨items, some history⟩ masterKey
        content).payload.toJson),
      ("created_at", .str _), ("updated_at", .str _)]) ≤ 2100
    rw [elementCount_obj]
    simp only [membersElementCount, hpayload]
    rw [hstr, hstr, hstr, hstr]
    omega

/-- What somebody signs of a toy file is a toy file. -/
theorem toyFile_of_sign {sid payloadSid : Uuid} {items : List WrapItem} (hitems : SmallWraps items)
    {removed : Option (List RemovedRecipient)} (hremoved : ShortHistory removed)
    {masterKey : MasterKey} {content : Bytes} {handle : MemberHandle} {secret : Bytes}
    {signature : ArtifactSignature}
    (hsign : signFileDocument toyCrypto
      (toyProtected sid payloadSid ⟨items, removed⟩ masterKey content)
      (deriveFileMacKey toyCrypto (fileKeySchedule toyCrypto masterKey sid))
      (toySigning handle secret) = .ok signature) :
    ToyFile sid payloadSid ⟨items, removed⟩ masterKey content handle secret
      ⟨toyProtected sid payloadSid ⟨items, removed⟩ masterKey content, signature⟩ := by
  have hprotected := wellFormed_toyProtected sid payloadSid hitems hremoved masterKey content
  have helements := elements_toyProtected sid payloadSid hitems.few hremoved masterKey content
  have hhandles : ((toyProtected sid payloadSid ⟨items, removed⟩ masterKey content).wrap.map
      WrapItem.recipientHandle).Nodup := hitems.handles
  have hsid : (toyProtected sid payloadSid ⟨items, removed⟩ masterKey content).sid = sid := rfl
  generalize hprotect : toyProtected sid payloadSid ⟨items, removed⟩ masterKey content = protect
    at *
  obtain ⟨mac, hmac, hbuild⟩ := bind_eq_ok.mp hsign
  obtain rfl := Except.ok.inj hbuild
  have hsignature := elements_toySignature (buildFileArtifactBodyBytes protect) mac handle secret
  have hmax : maxJsonElements = 13000 := rfl
  have hverified := verify_signedFile lawful_toyCrypto (buildSigningContext_toy handle secret) rfl
    hprotected hhandles hsign (by
      rw [FileEncDocument.toJson, elementCount, membersElementCount, membersElementCount, hmax]
      dsimp only
      omega)
  refine ⟨hprotect.symm, rfl, ?_, hverified⟩
  rw [verifyFileKeyPossession, hsid]
  exact verifyKeyPossession_built hmac

/-- A toy file can be signed. -/
theorem sign_toyProtected (sid payloadSid : Uuid) (wrap : KvWrap) (masterKey : MasterKey)
    (content : Bytes) (handle : MemberHandle) (secret : Bytes) :
    ∃ signature, signFileDocument toyCrypto (toyProtected sid payloadSid wrap masterKey content)
      (deriveFileMacKey toyCrypto (fileKeySchedule toyCrypto masterKey sid))
      (toySigning handle secret) = .ok signature := by
  obtain ⟨mac, hmac, _⟩ := buildKeyPossessionProof_ok toyCrypto
    (buildFileArtifactBodyBytes (toyProtected sid payloadSid wrap masterKey content))
    (deriveFileMacKey toyCrypto (fileKeySchedule toyCrypto masterKey sid)) toyKid.text
  exact ⟨_, bind_eq_ok.mpr ⟨mac, hmac, rfl⟩⟩

/-- **A TOY FILE IS SIGNED AND READ BACK.** -/
theorem verify_toyFile (sid payloadSid : Uuid) {items : List WrapItem} (hitems : SmallWraps items)
    {removed : Option (List RemovedRecipient)} (hremoved : ShortHistory removed)
    (masterKey : MasterKey) (content : Bytes) (handle : MemberHandle) (secret : Bytes) :
    ∃ doc, ToyFile sid payloadSid ⟨items, removed⟩ masterKey content handle secret doc := by
  obtain ⟨signature, hsign⟩ :=
    sign_toyProtected sid payloadSid ⟨items, removed⟩ masterKey content handle secret
  exact ⟨_, toyFile_of_sign hitems hremoved hsign⟩

/-- A member with a wrap opens the content key of a toy file. -/
theorem unwrap_toyFile {sid payloadSid : Uuid} {wrap : KvWrap} (hitems : SmallWraps wrap.wrap)
    {masterKey : MasterKey} {content : Bytes} {signer handle : MemberHandle} {secret : Bytes}
    {doc : FileEncDocument} (hdoc : ToyFile sid payloadSid wrap masterKey content signer secret doc)
    {kid : Kid} {own : Bytes} (hitem : toyWrap handle kid own masterKey ∈ wrap.wrap) :
    unwrapMasterKeyWithContext toyCrypto .file doc.protect.sid doc.protect.wrap handle.text
      (toyContext handle kid own) = .ok masterKey := by
  rw [hdoc.protect_eq]
  refine unwrap_toyWrap (validateWrapItems_ok.mpr ⟨Nat.le_trans hitems.few (by decide),
    hitems.handles, ?_⟩) hitem
  exact fun item hitem => validateWrapItem_of_wellFormed (hitems.wellFormed item hitem)

/-- The payload of a toy file decrypts. -/
theorem decryptPayload_toyFile {sid payloadSid : Uuid} {wrap : KvWrap}
    {masterKey : MasterKey} {content : Bytes} {signer : MemberHandle} {secret : Bytes}
    {doc : FileEncDocument} (hdoc : ToyFile sid payloadSid wrap masterKey content signer secret doc)
    (hsize : computeEncodedLen (content.length + 16) ≤ maxBase64CiphertextLength) :
    decryptFilePayload toyCrypto doc (payloadKey toyCrypto masterKey doc.protect.sid)
      = .ok content := by
  rw [hdoc.protect_eq]
  rw [decryptFilePayload, hdoc.protect_eq]
  exact decrypt_encryptFilePayload lawful_toyCrypto hsize rfl

/-- **A MEMBER WITH A WRAP DECRYPTS A TOY FILE** whose payload carries the sid of the document. -/
theorem decrypt_toyFile {sid : Uuid} {wrap : KvWrap} (hitems : SmallWraps wrap.wrap)
    {masterKey : MasterKey} {content : Bytes} {signer handle : MemberHandle} {secret : Bytes}
    {doc : FileEncDocument} (hdoc : ToyFile sid sid wrap masterKey content signer secret doc)
    (hsize : computeEncodedLen (content.length + 16) ≤ maxBase64CiphertextLength)
    {kid : Kid} {own : Bytes} (hitem : toyWrap handle kid own masterKey ∈ wrap.wrap) :
    decryptFileDocumentWithContext toyCrypto doc handle.text (toyContext handle kid own)
      = .ok content := by
  have hformat : doc.protect.format = fileEncV1 := by rw [hdoc.protect_eq]; rfl
  have hheader : doc.protect.payload.protect = ⟨filePayloadV1, sid, ⟨aeadXChaCha20Poly1305⟩⟩ := by
    rw [hdoc.protect_eq]
    rfl
  have hsid : doc.protect.sid = sid := by rw [hdoc.protect_eq]; rfl
  refine bind_eq_ok.mpr ⟨(), if_neg (not_not_intro hformat), bind_eq_ok.mpr ⟨(), ?_,
    throwIf_ok.mpr ⟨?_, bind_eq_ok.mpr ⟨masterKey, unwrap_toyFile hitems hdoc hitem,
      bind_eq_ok.mpr ⟨(), hdoc.proof, decryptPayload_toyFile hdoc hsize⟩⟩⟩⟩⟩
  · rw [validateFileEncDocumentPayload, hheader]
    rfl
  · rw [hheader, hsid]
    exact not_not_intro rfl

end ToyDocuments
