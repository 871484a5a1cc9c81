import Kapsaro.KeyedList
import Kapsaro.TokenRecords

/-!
# Envelope — key schedule, wraps, entries and payloads

`feature/envelope/` over the third-party primitives, which are a parameter.

* **`Crypto`**, **`Lawful`** — the primitives, and what their documentation promises: opening
  undoes sealing, decryption undoes encryption, and the sizes of what they return.
* **`KeySchedule`** — the keys derived from a master key and a sid.
* **`buildWrapItem`**, **`unwrapMasterKey`** — sealing the master key to a recipient and opening
  it again.
* **`WrapSet`**, **`CryptoContext`** — which wrap a member opens, and with which key.
* **`encryptEntry`**, **`decryptEntry`**, **`encryptFilePayloadContent`** … — the payloads.
* **`unwrap_buildWrapItem`**, **`decrypt_encryptEntry`** — what was sealed comes back;
  **`unwrap_of_member`** — to the member it was sealed to.
-/

namespace Envelope

open JsonText JsonMembers Limits TextLines Base64Codec WireTexts WireModel DocumentTokens
open TokenRecords KeyedList

/-! ## Primitives -/

/-- A byte string of a fixed length. -/
structure FixedBytes (n : Nat) where
  bytes : Bytes
  size : bytes.length = n
deriving DecidableEq

/-- Fixed-length bytes are read back from their encoding. -/
theorem FixedBytes.decode_encode {n : Nat} (b : FixedBytes n) (fieldName : String) :
    decodeBase64urlNopadArray n (encodeBase64urlNopad b.bytes) fieldName = .ok b.bytes := by
  obtain ⟨bytes, rfl⟩ := b
  exact decodeBase64urlArray_encode bytes fieldName

/-- The 32-byte key of a document. -/
abbrev MasterKey := FixedBytes 32

/-- The third-party crates and the platform: the primitives, with the randomness they draw as an
    argument, the check of an SSH attestation, and the clock behind an expiry check. -/
structure Crypto where
  sha256 : Bytes → FixedBytes 32
  /-- key, message -/
  hmacSha256 : Bytes → Bytes → FixedBytes 32
  /-- salt, input key -/
  hkdfExtract : Bytes → Bytes → FixedBytes 32
  /-- pseudorandom key, info -/
  hkdfExpand : Bytes → Bytes → FixedBytes 32
  /-- the public key of a KEM secret key -/
  kemPublic : Bytes → Bytes
  /-- public key, info, aad, plaintext, drawn randomness -/
  sealBase : Bytes → Bytes → Bytes → Bytes → Bytes → Except Error (Bytes × Bytes)
  /-- secret key, enc, info, aad, ciphertext -/
  openBase : Bytes → Bytes → Bytes → Bytes → Bytes → Except Error Bytes
  /-- key, nonce, aad, plaintext -/
  xchachaEncrypt : Bytes → Bytes → Bytes → Bytes → Except Error Bytes
  /-- key, nonce, aad, ciphertext -/
  xchachaDecrypt : Bytes → Bytes → Bytes → Bytes → Except Error Bytes
  /-- the public key of a signing key -/
  verifyingKey : Bytes → Bytes
  /-- whether bytes are a public signing key -/
  isVerifyingKey : Bytes → Bool
  /-- signing key, message -/
  sign : Bytes → Bytes → FixedBytes 64
  /-- public key, message, signature -/
  verifyStrict : Bytes → Bytes → Bytes → Bool
  /-- the SSH attestation of a key statement -/
  verifyAttestation : PublicKeyProtected → Except Error Unit
  /-- the expiry check of a key statement; fails only for a text that is no time -/
  checkKeyExpiry : String → Except Error Unit

/-- What the primitives promise. -/
structure Lawful (C : Crypto) : Prop where
  /-- Opening with the secret key undoes sealing to its public key. -/
  open_seal : ∀ {sk info aad plaintext seed enc ct},
    C.sealBase (C.kemPublic sk) info aad plaintext seed = .ok (enc, ct) →
    C.openBase sk enc info aad ct = .ok plaintext
  /-- An encapsulated key has 32 bytes, a sealed text is 16 bytes longer than its content. -/
  seal_size : ∀ {pk info aad plaintext seed enc ct},
    C.sealBase pk info aad plaintext seed = .ok (enc, ct) →
    enc.length = 32 ∧ ct.length = plaintext.length + 16
  /-- Decryption undoes encryption. -/
  decrypt_encrypt : ∀ {key nonce aad plaintext ct},
    C.xchachaEncrypt key nonce aad plaintext = .ok ct →
    C.xchachaDecrypt key nonce aad ct = .ok plaintext
  /-- An encrypted text is 16 bytes longer than its content. -/
  encrypt_size : ∀ {key nonce aad plaintext ct},
    C.xchachaEncrypt key nonce aad plaintext = .ok ct → ct.length = plaintext.length + 16
  /-- A signature verifies under the public key of its signing key. -/
  verify_sign : ∀ sk message,
    C.verifyStrict (C.verifyingKey sk) message (C.sign sk message).bytes = true

/-- Ideal sealing: a sealed text opens to nothing but what was sealed, whatever opens it. -/
structure Ideal (C : Crypto) : Prop extends Lawful C where
  open_only : ∀ {pk info aad plaintext seed enc ct sk info' aad' opened},
    C.sealBase pk info aad plaintext seed = .ok (enc, ct) →
    C.openBase sk enc info' aad' ct = .ok opened → opened = plaintext

/-- An error of a primitive. -/
def buildCryptoOperationError (message : String) : Error :=
  .crypto ("Operation failed: " ++ message)

/-! ## Context bytes -/

/-- The JSON of a derivation context: texts under distinct names. -/
def contextJson (members : List (String × String)) : Json :=
  .obj (members.map fun m => (m.1, .str m.2))

/-- The canonical bytes of a derivation context. -/
def contextBytes (members : List (String × String)) : Bytes :=
  utf8 (jcsText (contextJson members))

/-- A context holds no number, so its normalization cannot fail. -/
theorem jcsNormalize_context (members : List (String × String)) :
    jcsNormalize (contextJson members) = .ok (contextBytes members) := by
  refine if_pos ?_
  rw [contextJson, numbersWithin, numbersWithinMembers_eq_all, List.all_map]
  exact List.all_eq_true.mpr fun m _ => rfl

def buildSidContextBytes (protocol : String) (sid : Uuid) : Bytes :=
  contextBytes [("p", protocol), ("sid", sid.text)]

def buildWrapInfoBytes (protocol : String) (sid : Uuid) (kid : String) : Bytes :=
  contextBytes [("p", protocol), ("sid", sid.text), ("kid", kid)]

def buildKvEntryAad (sid : Uuid) (key : String) : Bytes :=
  contextBytes [("p", "kapsaro:aad:kv:entry-payload@1"), ("sid", sid.text), ("k", key)]

def buildKvCekInfo (sid : Uuid) (key nonce : String) : Bytes :=
  contextBytes [("p", "kapsaro:hkdf-info:kv:cek@1"), ("sid", sid.text), ("k", key),
    ("nonce", nonce)]

/-- The two document formats a wrap is bound to. -/
inductive WrapFormat where
  | file
  | kv
deriving DecidableEq, Repr

/-- The HPKE context of a wrap; also its additional data. -/
def buildWrapInfo : WrapFormat → Uuid → String → Bytes
  | .file, sid, kid => buildWrapInfoBytes "kapsaro:hpke-info:file:wrap@1" sid kid
  | .kv, sid, kid => buildWrapInfoBytes "kapsaro:hpke-info:kv:wrap@1" sid kid

/-- The payload header is the additional data of a file payload. -/
def buildFilePayloadAad (header : FilePayloadHeader) : Bytes :=
  utf8 (jcsText header.toJson)

/-! ## Key schedule -/

section Schedule

variable (C : Crypto)

/-- The keys of one document: a pseudorandom key and the sid they are bound to. -/
structure KeySchedule where
  prk : FixedBytes 32
  sid : Uuid

/-- The schedule of a kv-enc document. -/
def kvKeySchedule (masterKey : MasterKey) (sid : Uuid) : KeySchedule where
  prk := C.hkdfExtract (buildSidContextBytes "kapsaro:hkdf-salt:kv@1" sid) masterKey.bytes
  sid := sid

/-- The schedule of a file-enc document. -/
def fileKeySchedule (masterKey : MasterKey) (sid : Uuid) : KeySchedule where
  prk := C.hkdfExtract (buildSidContextBytes "kapsaro:hkdf-salt:file@1" sid) masterKey.bytes
  sid := sid

/-- The key of one entry. -/
def deriveCek (schedule : KeySchedule) (key nonce : String) : FixedBytes 32 :=
  C.hkdfExpand schedule.prk.bytes (buildKvCekInfo schedule.sid key nonce)

def deriveKvMacKey (schedule : KeySchedule) : FixedBytes 32 :=
  C.hkdfExpand schedule.prk.bytes
    (buildSidContextBytes "kapsaro:hkdf-info:kv:mac-key@1" schedule.sid)

def deriveFileContentKey (schedule : KeySchedule) : FixedBytes 32 :=
  C.hkdfExpand schedule.prk.bytes
    (buildSidContextBytes "kapsaro:hkdf-info:file:content-key@1" schedule.sid)

def deriveFileMacKey (schedule : KeySchedule) : FixedBytes 32 :=
  C.hkdfExpand schedule.prk.bytes
    (buildSidContextBytes "kapsaro:hkdf-info:file:mac-key@1" schedule.sid)

end Schedule

/-! ## Wraps -/

/-- A key statement as its loader returns it: it has the form the schema asks for. -/
structure LoadedPublicKey where
  document : PublicKey
  wellFormed : document.wellFormed = true
deriving DecidableEq

/-- A recipient's key statement, verified by its loader. -/
structure VerifiedRecipientKey extends LoadedPublicKey
deriving DecidableEq

namespace VerifiedRecipientKey

def subjectHandle (member : VerifiedRecipientKey) : String :=
  member.document.protect.subjectHandle

def kid (member : VerifiedRecipientKey) : String :=
  member.document.protect.kid

end VerifiedRecipientKey

section Wraps

variable (C : Crypto)

/-- Seal the master key to one recipient. -/
def buildWrapItem (format : WrapFormat) (member : VerifiedRecipientKey) (sid : Uuid)
    (masterKey : MasterKey) (seed : Bytes) : Except Error WrapItem := do
  let info := buildWrapInfo format sid member.kid
  let kemPublic ← decodeBase64urlNopadArray 32 member.document.protect.keys.kem.x
    "KEM public key"
  let (enc, ct) ← C.sealBase kemPublic info info masterKey.bytes seed
  pure {
    recipientHandle := member.subjectHandle
    kid := member.kid
    alg := hpkeAlgorithm
    enc := encodeBase64urlNopad enc
    ct := encodeBase64urlNopad ct }

/-- Seal the master key to the recipients in order; the seeds are drawn in order. -/
def buildWrapsFrom (format : WrapFormat) (sid : Uuid) (masterKey : MasterKey)
    (seed : Nat → Bytes) : Nat → List VerifiedRecipientKey → Except Error (List WrapItem)
  | _, [] => .ok []
  | i, member :: rest => do
    let item ← buildWrapItem C format member sid masterKey (seed i)
    let items ← buildWrapsFrom format sid masterKey seed (i + 1) rest
    pure (item :: items)

/-- The wraps of a recipient set. -/
def buildWrapsForRecipients (members : List VerifiedRecipientKey) (sid : Uuid)
    (masterKey : MasterKey) (format : WrapFormat) (seed : Nat → Bytes) :
    Except Error (List WrapItem) := do
  validateWrapCount members.length "Recipients set"
  buildWrapsFrom C format sid masterKey seed 0 members

/-- A checked wrap. -/
structure RecipientWrap where
  recipientHandle : MemberHandle
  kid : Kid
  enc : Bytes
  ct : Bytes
deriving DecidableEq

/-- The wraps of a document, checked; one for each recipient handle. -/
structure WrapSet where
  items : List RecipientWrap

/-- Convert a checked wrap item; its kid was canonical already. -/
def RecipientWrap.parse (item : WrapItem) : Except Error RecipientWrap := do
  let recipientHandle ← MemberHandle.tryFrom item.recipientHandle
  let kid ← Kid.fromCanonical item.kid
  let enc ← decodeBase64urlNopadArray 32 item.enc "enc"
  let ct ← decodeBase64urlNopadArray 48 item.ct "ct"
  pure { recipientHandle, kid, enc, ct }

def parseRecipientWraps : List WrapItem → Except Error (List RecipientWrap)
  | [] => .ok []
  | item :: rest => do
    let wrap ← RecipientWrap.parse item
    let wraps ← parseRecipientWraps rest
    pure (wrap :: wraps)

def WrapSet.parse (items : List WrapItem) (context : String) : Except Error WrapSet := do
  validateWrapItems items context
  let wraps ← parseRecipientWraps items
  pure ⟨wraps⟩

/-- Four-character groups. -/
def groupsOfFour : List Char → List (List Char)
  | a :: b :: c :: d :: rest => [a, b, c, d] :: groupsOfFour rest
  | [] => []
  | rest => [rest]

/-- A kid as it is shown. -/
def formatKidDisplay (kid : Kid) : String :=
  String.ofList (List.intercalate ['-'] (groupsOfFour kid.text.toList))

/-- The wrap under a kid that is addressed to a member. -/
def WrapSet.findByKidForMember (set : WrapSet) (kid : Kid) (handle : MemberHandle) :
    Except Error RecipientWrap :=
  match set.items.find? fun item => item.kid = kid ∧ item.recipientHandle = handle with
  | some item => .ok item
  | none =>
    match set.items.find? fun item => item.kid = kid with
    | some item => .error (.crypto (s!"wrap_item.rh '{item.recipientHandle.text}' does not " ++
        s!"match member_handle '{handle.text}' for kid '{formatKidDisplay kid}'"))
    | none => .error (.crypto
        s!"No wrap found for kid '{formatKidDisplay kid}' (member: {handle.text})")

/-- The kid of the wrap addressed to a member. -/
def WrapSet.selfWrapKid (set : WrapSet) (handle : MemberHandle) : Option Kid :=
  (set.items.find? fun item => item.recipientHandle = handle).map RecipientWrap.kid

/-- Check the length of an opened master key. -/
def parseMasterKeyFromPlaintext (plaintext : Bytes) : Except Error MasterKey :=
  if h : plaintext.length = 32 then .ok ⟨plaintext, h⟩
  else .error (.crypto s!"Invalid master key length: expected 32, got {plaintext.length}")

/-- Open a wrap with a KEM secret key. -/
def unwrapMasterKey (format : WrapFormat) (item : RecipientWrap) (sid : Uuid)
    (kemSecret : Bytes) : Except Error MasterKey := do
  let info := buildWrapInfo format sid item.kid.text
  let plaintext ← C.openBase kemSecret item.enc info info item.ct
  parseMasterKeyFromPlaintext plaintext

end Wraps

/-! ## Local keys -/

/-- The private key material of a member, as its loader checked it. -/
structure PrivateKey where
  kemSecret : Bytes

/-- A member's keys: the active key, and the keystore behind it. -/
structure CryptoContext where
  memberHandle : MemberHandle
  kid : Kid
  privateKey : PrivateKey
  signingKey : Bytes
  selectedKidOverride : Option Kid
  /-- The keystore copy of another key: absent when there is none under the kid. -/
  loadFallbackKey : MemberHandle → Kid → Except Error (Option PrivateKey)
  /-- The expiry check of the active key, against the clock. -/
  enforceSigningKeyNotExpired : Except Error Unit
  /-- The stored key statement of the active key. -/
  loadSignerPublicKey : Except Error LoadedPublicKey

/-- Why no local key was found. -/
def missingDecryptionKeyError (memberHandle : String) (explicitKid searched wrapKid : Option Kid) :
    Error :=
  let shown := (searched.map formatKidDisplay).getD ""
  if wrapKid.isSome ∧ wrapKid = searched then
    .crypto (s!"Wrap found for kid '{shown}', but no local key with that kid is in the keystore " ++
      s!"(member: {memberHandle})")
  else if explicitKid.isSome then
    .crypto s!"No wrap found for kid '{shown}' (member: {memberHandle})"
  else .crypto s!"No wrap found for any local kid [{shown}] (member: {memberHandle})"

/-- The local key a member opens a wrap set with: the kid that was asked for, otherwise that of
    the member's own wrap. -/
def CryptoContext.selectLocalDecryptionKey (ctx : CryptoContext) (set : WrapSet)
    (memberHandle : String) : Except Error (Kid × PrivateKey) := do
  let handle ← MemberHandle.tryFrom memberHandle
  let wrapKid := set.selfWrapKid handle
  let candidate := ctx.selectedKidOverride.or wrapKid
  let missing := missingDecryptionKeyError memberHandle ctx.selectedKidOverride candidate wrapKid
  match candidate with
  | none => throw missing
  | some kid =>
    if kid = ctx.kid then pure (kid, ctx.privateKey)
    else
      match ← ctx.loadFallbackKey handle kid with
      | some key => pure (kid, key)
      | none => throw missing

/-- Open the document's wrap for a member. -/
def unwrapMasterKeyWithContext (C : Crypto) (format : WrapFormat) (sid : Uuid)
    (items : List WrapItem) (memberHandle : String) (ctx : CryptoContext) :
    Except Error MasterKey := do
  let set ← WrapSet.parse items "Document"
  let handle ← MemberHandle.tryFrom memberHandle
  let (kid, key) ← ctx.selectLocalDecryptionKey set memberHandle
  let item ← set.findByKidForMember kid handle
  unwrapMasterKey C format item sid key.kemSecret

/-! ## Payloads -/

section Payloads

variable (C : Crypto)

/-- Encrypt one value under a fresh nonce. -/
def encryptEntry (key value : String) (schedule : KeySchedule) (sid : Uuid)
    (freshNonce : FixedBytes 24) (disclosed : Bool) : Except Error KvEntryValue := do
  let nonce := encodeBase64urlNopad freshNonce.bytes
  let cek := deriveCek C schedule key nonce
  let ct ← C.xchachaEncrypt cek.bytes freshNonce.bytes (buildKvEntryAad sid key) (utf8 value)
  pure { nonce := nonce, ct := encodeBase64urlNopad ct, disclosed := disclosed }

/-- Decrypt one entry. -/
def decryptEntry (entry : KvEntryValue) (key aead : String) (schedule : KeySchedule)
    (sid : Uuid) : Except Error Bytes := do
  if aead ≠ aeadXChaCha20Poly1305 then throw (.crypto s!"Unsupported AEAD algorithm: {aead}")
  let cek := deriveCek C schedule key entry.nonce
  let nonce ← decodeBase64urlNopadArray 24 entry.nonce "nonce"
  let ct ← decodeBase64urlNopad entry.ct "ct"
  C.xchachaDecrypt cek.bytes nonce (buildKvEntryAad sid key) ct

/-- Encrypt a file payload under a fresh nonce. -/
def encryptFilePayloadContent (plaintext : Bytes) (contentKey : FixedBytes 32)
    (header : FilePayloadHeader) (freshNonce : FixedBytes 24) :
    Except Error FilePayloadCiphertext := do
  let ct ← C.xchachaEncrypt contentKey.bytes freshNonce.bytes (buildFilePayloadAad header) plaintext
  pure { nonce := encodeBase64urlNopad freshNonce.bytes, ct := encodeBase64urlNopad ct }

/-- Decrypt a file payload. -/
def decryptFilePayloadContent (encrypted : FilePayloadCiphertext) (contentKey : FixedBytes 32)
    (header : FilePayloadHeader) : Except Error Bytes := do
  let nonce ← decodeBase64urlNopadArray 24 encrypted.nonce "nonce"
  let ct ← decodeBase64urlNopad encrypted.ct "ct"
  C.xchachaDecrypt contentKey.bytes nonce (buildFilePayloadAad header) ct

end Payloads

/-! ## What was sealed comes back -/

/-- A wrap item opens to a master key under a KEM secret key. -/
def OpensTo (C : Crypto) (format : WrapFormat) (sid : Uuid) (item : WrapItem) (kemSecret : Bytes)
    (masterKey : MasterKey) : Prop :=
  ∃ wrap, RecipientWrap.parse item = .ok wrap
    ∧ unwrapMasterKey C format wrap sid kemSecret = .ok masterKey

/-- A secret key is the one behind a recipient's key statement. -/
def HoldsKey (C : Crypto) (member : VerifiedRecipientKey) (kemSecret : Bytes) : Prop :=
  decodeBase64urlNopadArray 32 member.document.protect.keys.kem.x "KEM public key"
    = .ok (C.kemPublic kemSecret)

/-- **A WRAP OPENS TO ONE KEY ONLY**: opening is a function. -/
theorem OpensTo.unique {C : Crypto} {format : WrapFormat} {sid : Uuid} {item : WrapItem}
    {kemSecret : Bytes} {mk mk' : MasterKey} (h : OpensTo C format sid item kemSecret mk)
    (h' : OpensTo C format sid item kemSecret mk') : mk = mk' := by
  obtain ⟨wrap, hparse, hopen⟩ := h
  obtain ⟨wrap', hparse', hopen'⟩ := h'
  rw [hparse] at hparse'
  obtain rfl := Except.ok.inj hparse'
  rw [hopen] at hopen'
  exact Except.ok.inj hopen'

variable {C : Crypto}

/-- What building a wrap yields. -/
theorem buildWrapItem_ok {format : WrapFormat} {member : VerifiedRecipientKey} {sid : Uuid}
    {masterKey : MasterKey} {seed : Bytes} {item : WrapItem}
    (h : buildWrapItem C format member sid masterKey seed = .ok item) :
    ∃ kemPublic enc ct,
      decodeBase64urlNopadArray 32 member.document.protect.keys.kem.x "KEM public key"
          = .ok kemPublic
        ∧ C.sealBase kemPublic (buildWrapInfo format sid member.kid)
            (buildWrapInfo format sid member.kid) masterKey.bytes seed = .ok (enc, ct)
        ∧ item = {
            recipientHandle := member.subjectHandle
            kid := member.kid
            alg := hpkeAlgorithm
            enc := encodeBase64urlNopad enc
            ct := encodeBase64urlNopad ct } := by
  obtain ⟨kemPublic, hdecode, h⟩ := bind_eq_ok.mp h
  obtain ⟨⟨enc, ct⟩, hseal, h⟩ := bind_eq_ok.mp h
  exact ⟨kemPublic, enc, ct, hdecode, hseal, (Except.ok.inj h).symm⟩

theorem VerifiedRecipientKey.texts (member : VerifiedRecipientKey) :
    isMemberHandleText member.subjectHandle = true ∧ isKidText member.kid = true := by
  have h := member.wellFormed
  simp only [PublicKey.wellFormed, PublicKeyProtected.wellFormed, Bool.and_eq_true] at h
  exact ⟨h.1.1.1.1.1.1.1.2, h.1.1.1.1.1.1.2⟩

/-- **BUILT WRAPS ARE WELL FORMED.** -/
theorem wellFormed_buildWrapItem (hC : Lawful C) {format : WrapFormat}
    {member : VerifiedRecipientKey} {sid : Uuid} {masterKey : MasterKey} {seed : Bytes}
    {item : WrapItem} (h : buildWrapItem C format member sid masterKey seed = .ok item) :
    item.wellFormed = true := by
  obtain ⟨kemPublic, enc, ct, _, hseal, rfl⟩ := buildWrapItem_ok h
  obtain ⟨henc, hct⟩ := hC.seal_size hseal
  rw [masterKey.size] at hct
  obtain ⟨hhandle, hkid⟩ := member.texts
  have hencText : isB64urlSized 43 (encodeBase64urlNopad enc) = true :=
    isB64urlSized_encode (n := 32) enc henc (by decide)
  have hctText : isB64urlSized 64 (encodeBase64urlNopad ct) = true :=
    isB64urlSized_encode (n := 48) ct hct (by decide)
  rw [WrapItem.wellFormed, hhandle, hkid, hencText, hctText, beq_self_eq_true]
  rfl

/-- **A BUILT WRAP OPENS TO WHAT IT SEALED**, for the holder of the recipient's key. -/
theorem unwrap_buildWrapItem (hC : Lawful C) {format : WrapFormat}
    {member : VerifiedRecipientKey} {sid : Uuid} {masterKey : MasterKey} {seed : Bytes}
    {item : WrapItem} {kemSecret : Bytes} (hkey : HoldsKey C member kemSecret)
    (h : buildWrapItem C format member sid masterKey seed = .ok item) :
    OpensTo C format sid item kemSecret masterKey := by
  obtain ⟨kemPublic, enc, ct, hdecode, hseal, rfl⟩ := buildWrapItem_ok h
  rw [hkey] at hdecode
  obtain rfl := Except.ok.inj hdecode
  obtain ⟨henc, hct⟩ := hC.seal_size hseal
  rw [masterKey.size] at hct
  obtain ⟨hhandle, hkid⟩ := member.texts
  have hdecEnc := FixedBytes.decode_encode ⟨enc, henc⟩ "enc"
  have hdecCt := FixedBytes.decode_encode ⟨ct, hct⟩ "ct"
  refine ⟨⟨⟨member.subjectHandle, hhandle⟩, ⟨member.kid, hkid⟩, enc, ct⟩, ?_, ?_⟩
  · exact bind_eq_ok.mpr ⟨_, MemberHandle.tryFrom_ok hhandle, bind_eq_ok.mpr
      ⟨_, Kid.fromCanonical_ok hkid, bind_eq_ok.mpr ⟨enc, hdecEnc, bind_eq_ok.mpr
        ⟨ct, hdecCt, rfl⟩⟩⟩⟩
  · refine bind_eq_ok.mpr ⟨masterKey.bytes, hC.open_seal hseal, ?_⟩
    rw [parseMasterKeyFromPlaintext, dif_pos masterKey.size]

/-- **A BUILT WRAP OPENS TO NOTHING ELSE**, under ideal sealing. -/
theorem opensOnly_buildWrapItem (hC : Ideal C) {format : WrapFormat}
    {member : VerifiedRecipientKey} {sid sid' : Uuid} {masterKey opened : MasterKey} {seed : Bytes}
    {item : WrapItem} {kemSecret : Bytes}
    (h : buildWrapItem C format member sid masterKey seed = .ok item)
    (hopens : OpensTo C format sid' item kemSecret opened) : opened = masterKey := by
  obtain ⟨kemPublic, enc, ct, _, hseal, rfl⟩ := buildWrapItem_ok h
  obtain ⟨wrap, hparse, hopen⟩ := hopens
  obtain ⟨henc, hct⟩ := hC.seal_size hseal
  rw [masterKey.size] at hct
  obtain ⟨_, _, hparse⟩ := bind_eq_ok.mp hparse
  obtain ⟨_, _, hparse⟩ := bind_eq_ok.mp hparse
  obtain ⟨enc', henc', hparse⟩ := bind_eq_ok.mp hparse
  obtain ⟨ct', hct', hparse⟩ := bind_eq_ok.mp hparse
  obtain rfl := Except.ok.inj hparse
  rw [FixedBytes.decode_encode ⟨enc, henc⟩] at henc'
  rw [FixedBytes.decode_encode ⟨ct, hct⟩] at hct'
  obtain rfl := Except.ok.inj henc'
  obtain rfl := Except.ok.inj hct'
  obtain ⟨plaintext, hplaintext, hopen⟩ := bind_eq_ok.mp hopen
  obtain rfl := hC.open_only hseal hplaintext
  rw [parseMasterKeyFromPlaintext, dif_pos masterKey.size] at hopen
  exact (Except.ok.inj hopen).symm

/-- The wraps of a list of recipients, one by one. -/
theorem buildWrapsFrom_ok {format : WrapFormat} {sid : Uuid} {masterKey : MasterKey}
    {seed : Nat → Bytes} {i : Nat} {members : List VerifiedRecipientKey} {items : List WrapItem}
    (h : buildWrapsFrom C format sid masterKey seed i members = .ok items) :
    List.Forall₂ (fun member item => ∃ s, buildWrapItem C format member sid masterKey s = .ok item)
      members items := by
  induction members generalizing i items with
  | nil =>
    obtain rfl := Except.ok.inj h
    exact .nil
  | cons member members ih =>
    obtain ⟨item, hitem, h⟩ := bind_eq_ok.mp h
    obtain ⟨rest, hrest, h⟩ := bind_eq_ok.mp h
    obtain rfl := Except.ok.inj h
    exact .cons ⟨seed i, hitem⟩ (ih hrest)

/-- The wraps of a recipient set, one by one. -/
theorem buildWrapsForRecipients_ok {format : WrapFormat} {sid : Uuid} {masterKey : MasterKey}
    {seed : Nat → Bytes} {members : List VerifiedRecipientKey} {items : List WrapItem}
    (h : buildWrapsForRecipients C members sid masterKey format seed = .ok items) :
    members.length ≤ maxWrapItems ∧ List.Forall₂
      (fun member item => ∃ s, buildWrapItem C format member sid masterKey s = .ok item)
      members items := by
  obtain ⟨_, hcount, h⟩ := bind_eq_ok.mp h
  exact ⟨(validateWrapCount_ok _ _).mp hcount, buildWrapsFrom_ok h⟩

/-- Who a wrap is for: its handle and its kid. -/
def recipientOf (item : WrapItem) : String × String :=
  (item.recipientHandle, item.kid)

/-- A recipient's handle and kid. -/
def VerifiedRecipientKey.identity (member : VerifiedRecipientKey) : String × String :=
  (member.subjectHandle, member.kid)

/-- **BUILT WRAPS NAME THEIR RECIPIENTS**, in order. -/
theorem recipients_of_built {format : WrapFormat} {sid : Uuid} {masterKey : MasterKey}
    {members : List VerifiedRecipientKey} {items : List WrapItem}
    (h : List.Forall₂
      (fun member item => ∃ s, buildWrapItem C format member sid masterKey s = .ok item)
      members items) :
    items.map recipientOf = members.map VerifiedRecipientKey.identity := by
  induction h with
  | nil => rfl
  | cons hitem _ ih =>
    obtain ⟨s, hs⟩ := hitem
    obtain ⟨_, _, _, _, _, rfl⟩ := buildWrapItem_ok hs
    rw [List.map_cons, List.map_cons, ih]
    rfl

/-- What encrypting an entry calls and returns. -/
theorem encryptEntry_ok {key value : String} {schedule : KeySchedule} {sid : Uuid}
    {nonce : FixedBytes 24} {disclosed : Bool} {entry : KvEntryValue}
    (h : encryptEntry C key value schedule sid nonce disclosed = .ok entry) :
    ∃ ct, C.xchachaEncrypt (deriveCek C schedule key entry.nonce).bytes nonce.bytes
          (buildKvEntryAad sid key) (utf8 value) = .ok ct
      ∧ entry.nonce = encodeBase64urlNopad nonce.bytes
      ∧ entry.ct = encodeBase64urlNopad ct ∧ entry.disclosed = disclosed := by
  obtain ⟨ct, hct, h⟩ := bind_eq_ok.mp h
  obtain rfl := Except.ok.inj h
  exact ⟨ct, hct, rfl, rfl, rfl⟩

/-- What decrypting an entry calls. -/
theorem decryptEntry_ok {entry : KvEntryValue} {key aead : String} {schedule : KeySchedule}
    {sid : Uuid} {plaintext : Bytes}
    (h : decryptEntry C entry key aead schedule sid = .ok plaintext) :
    ∃ nonce ct, decodeBase64urlNopadArray 24 entry.nonce "nonce" = .ok nonce
      ∧ decodeBase64urlNopad entry.ct "ct" = .ok ct
      ∧ C.xchachaDecrypt (deriveCek C schedule key entry.nonce).bytes nonce
          (buildKvEntryAad sid key) ct = .ok plaintext := by
  rw [decryptEntry] at h
  split at h
  · cases h
  · obtain ⟨nonce, hnonce, h⟩ := bind_eq_ok.mp h
    obtain ⟨ct, hct, h⟩ := bind_eq_ok.mp h
    exact ⟨nonce, ct, hnonce, hct, h⟩

/-- What encrypting a file payload calls and returns. -/
theorem encryptFilePayloadContent_ok {plaintext : Bytes} {contentKey : FixedBytes 32}
    {header : FilePayloadHeader} {nonce : FixedBytes 24} {encrypted : FilePayloadCiphertext}
    (h : encryptFilePayloadContent C plaintext contentKey header nonce = .ok encrypted) :
    ∃ ct, C.xchachaEncrypt contentKey.bytes nonce.bytes (buildFilePayloadAad header) plaintext
        = .ok ct
      ∧ encrypted.nonce = encodeBase64urlNopad nonce.bytes
      ∧ encrypted.ct = encodeBase64urlNopad ct := by
  obtain ⟨ct, hct, h⟩ := bind_eq_ok.mp h
  obtain rfl := Except.ok.inj h
  exact ⟨ct, hct, rfl, rfl⟩

/-- What decrypting a file payload calls. -/
theorem decryptFilePayloadContent_ok {encrypted : FilePayloadCiphertext}
    {contentKey : FixedBytes 32} {header : FilePayloadHeader} {plaintext : Bytes}
    (h : decryptFilePayloadContent C encrypted contentKey header = .ok plaintext) :
    ∃ nonce ct, decodeBase64urlNopadArray 24 encrypted.nonce "nonce" = .ok nonce
      ∧ decodeBase64urlNopad encrypted.ct "ct" = .ok ct
      ∧ C.xchachaDecrypt contentKey.bytes nonce (buildFilePayloadAad header) ct
          = .ok plaintext := by
  obtain ⟨nonce, hnonce, h⟩ := bind_eq_ok.mp h
  obtain ⟨ct, hct, h⟩ := bind_eq_ok.mp h
  exact ⟨nonce, ct, hnonce, hct, h⟩

/-- An entry encrypted under a schedule decrypts under it. -/
theorem decrypt_encryptEntry (hC : Lawful C) {key value aead : String} {schedule : KeySchedule}
    {sid : Uuid} {nonce : FixedBytes 24} {disclosed : Bool} {entry : KvEntryValue}
    (haead : aead = aeadXChaCha20Poly1305)
    (hsize : computeEncodedLen (value.utf8ByteSize + 16) ≤ maxBase64CiphertextLength)
    (h : encryptEntry C key value schedule sid nonce disclosed = .ok entry) :
    decryptEntry C entry key aead schedule sid = .ok (utf8 value) := by
  obtain ⟨ct, hct, h⟩ := bind_eq_ok.mp h
  obtain rfl := Except.ok.inj h
  have hlen := hC.encrypt_size hct
  have hnonce := nonce.decode_encode "nonce"
  have hdecode : decodeBase64urlNopad (encodeBase64urlNopad ct) "ct" = .ok ct := by
    refine decodeBase64url_encode ct "ct" _ ?_
    rw [hlen, utf8_length]
    exact hsize
  rw [decryptEntry, if_neg (not_not_intro haead)]
  exact bind_eq_ok.mpr ⟨nonce.bytes, hnonce, bind_eq_ok.mpr ⟨ct, hdecode,
    hC.decrypt_encrypt hct⟩⟩

/-- A written entry is well formed. -/
theorem wellFormed_encryptEntry (hC : Lawful C) {key value : String} {schedule : KeySchedule}
    {sid : Uuid} {nonce : FixedBytes 24} {disclosed : Bool} {entry : KvEntryValue}
    (h : encryptEntry C key value schedule sid nonce disclosed = .ok entry) :
    entry.wellFormed = true ∧ entry.disclosed = disclosed
      ∧ entry.ct.utf8ByteSize = computeEncodedLen (value.utf8ByteSize + 16) := by
  obtain ⟨ct, hct, h⟩ := bind_eq_ok.mp h
  obtain rfl := Except.ok.inj h
  have hlen := hC.encrypt_size hct
  have hne : ct ≠ [] := by
    rintro rfl
    rw [List.length_nil] at hlen
    omega
  have hnonce : isB64urlSized 32 (encodeBase64urlNopad nonce.bytes) = true :=
    isB64urlSized_encode (n := 24) nonce.bytes nonce.size (by decide)
  refine ⟨?_, rfl, ?_⟩
  · rw [KvEntryValue.wellFormed, hnonce, isB64urlText_encode ct hne]
    rfl
  · rw [encodeBase64urlNopad_size, hlen, utf8_length]

/-- A file payload encrypted under a key decrypts under it. -/
theorem decrypt_encryptFilePayload (hC : Lawful C) {plaintext : Bytes}
    {contentKey : FixedBytes 32} {header : FilePayloadHeader} {nonce : FixedBytes 24}
    {encrypted : FilePayloadCiphertext}
    (hsize : computeEncodedLen (plaintext.length + 16) ≤ maxBase64CiphertextLength)
    (h : encryptFilePayloadContent C plaintext contentKey header nonce = .ok encrypted) :
    decryptFilePayloadContent C encrypted contentKey header = .ok plaintext := by
  obtain ⟨ct, hct, h⟩ := bind_eq_ok.mp h
  obtain rfl := Except.ok.inj h
  have hlen := hC.encrypt_size hct
  have hnonce := nonce.decode_encode "nonce"
  have hdecode : decodeBase64urlNopad (encodeBase64urlNopad ct) "ct" = .ok ct := by
    refine decodeBase64url_encode ct "ct" _ ?_
    rw [hlen]
    exact hsize
  exact bind_eq_ok.mpr ⟨nonce.bytes, hnonce, bind_eq_ok.mpr ⟨ct, hdecode,
    hC.decrypt_encrypt hct⟩⟩

/-! ## Opening as a member -/

theorem RecipientWrap.parse_ok {item : WrapItem} {wrap : RecipientWrap}
    (h : RecipientWrap.parse item = .ok wrap) :
    wrap.recipientHandle.text = item.recipientHandle ∧ wrap.kid.text = item.kid := by
  obtain ⟨handle, hhandle, h⟩ := bind_eq_ok.mp h
  obtain ⟨kid, hkid, h⟩ := bind_eq_ok.mp h
  obtain ⟨enc, _, h⟩ := bind_eq_ok.mp h
  obtain ⟨ct, _, h⟩ := bind_eq_ok.mp h
  obtain rfl := Except.ok.inj h
  constructor
  · rw [MemberHandle.tryFrom] at hhandle
    split at hhandle
    · exact (congrArg MemberHandle.text (Except.ok.inj hhandle)).symm
    · cases hhandle
  · rw [Kid.fromCanonical] at hkid
    split at hkid
    · exact (congrArg Kid.text (Except.ok.inj hkid)).symm
    · cases hkid

/-- The bytes of a converted item are those its texts encode. -/
theorem RecipientWrap.bytes_of_parse {item : WrapItem} {wrap : RecipientWrap}
    (h : RecipientWrap.parse item = .ok wrap) :
    decodeBase64urlNopadArray 32 item.enc "enc" = .ok wrap.enc
      ∧ decodeBase64urlNopadArray 48 item.ct "ct" = .ok wrap.ct := by
  obtain ⟨_, _, h⟩ := bind_eq_ok.mp h
  obtain ⟨_, _, h⟩ := bind_eq_ok.mp h
  obtain ⟨enc, henc, h⟩ := bind_eq_ok.mp h
  obtain ⟨ct, hct, h⟩ := bind_eq_ok.mp h
  obtain rfl := Except.ok.inj h
  exact ⟨henc, hct⟩

/-- A checked item converts. -/
theorem RecipientWrap.parse_of_valid {item : WrapItem} (h : validateWrapItem item = .ok ()) :
    ∃ wrap, RecipientWrap.parse item = .ok wrap := by
  obtain ⟨handle, hhandle, h⟩ := bind_eq_ok.mp h
  obtain ⟨kid, hkid, h⟩ := bind_eq_ok.mp h
  by_cases halg : item.alg ≠ hpkeAlgorithm
  · rw [if_pos halg] at h
    cases h
  · rw [if_neg halg] at h
    obtain ⟨enc, henc, h⟩ := bind_eq_ok.mp h
    obtain ⟨ct, hct, _⟩ := bind_eq_ok.mp h
    exact ⟨⟨handle, kid, enc, ct⟩, bind_eq_ok.mpr ⟨handle, hhandle, bind_eq_ok.mpr
      ⟨kid, hkid, bind_eq_ok.mpr ⟨enc, henc, bind_eq_ok.mpr ⟨ct, hct, rfl⟩⟩⟩⟩⟩

theorem parseRecipientWraps_ok {items : List WrapItem}
    (h : ∀ item ∈ items, validateWrapItem item = .ok ()) :
    ∃ wraps, parseRecipientWraps items = .ok wraps
      ∧ List.Forall₂ (fun item wrap => RecipientWrap.parse item = .ok wrap) items wraps := by
  induction items with
  | nil => exact ⟨[], rfl, .nil⟩
  | cons item items ih =>
    obtain ⟨wrap, hwrap⟩ := RecipientWrap.parse_of_valid (h item List.mem_cons_self)
    obtain ⟨wraps, hwraps, hall⟩ := ih fun k hk => h k (List.mem_cons_of_mem _ hk)
    exact ⟨wrap :: wraps, bind_eq_ok.mpr ⟨wrap, hwrap, bind_eq_ok.mpr ⟨wraps, hwraps, rfl⟩⟩,
      .cons hwrap hall⟩

theorem handles_of_parsed {items : List WrapItem} {wraps : List RecipientWrap}
    (h : List.Forall₂ (fun item wrap => RecipientWrap.parse item = .ok wrap) items wraps) :
    wraps.map (fun wrap => wrap.recipientHandle.text) = items.map WrapItem.recipientHandle := by
  induction h with
  | nil => rfl
  | cons hparse _ ih => rw [List.map_cons, List.map_cons, ih, (RecipientWrap.parse_ok hparse).1]

/-- **WHOEVER OPENS A DOCUMENT OPENED ONE OF ITS WRAPS.** -/
theorem opensTo_of_unwrap {format : WrapFormat} {sid : Uuid} {items : List WrapItem}
    {handle : String} {ctx : CryptoContext} {masterKey : MasterKey}
    (h : unwrapMasterKeyWithContext C format sid items handle ctx = .ok masterKey) :
    ∃ item ∈ items, ∃ kemSecret, OpensTo C format sid item kemSecret masterKey := by
  obtain ⟨set, hset, h⟩ := bind_eq_ok.mp h
  obtain ⟨handle', _, h⟩ := bind_eq_ok.mp h
  obtain ⟨⟨kid, key⟩, _, h⟩ := bind_eq_ok.mp h
  obtain ⟨wrap, hfind, hopen⟩ := bind_eq_ok.mp h
  obtain ⟨_, hvalid, hset⟩ := bind_eq_ok.mp hset
  obtain ⟨wraps, hwraps, hset⟩ := bind_eq_ok.mp hset
  obtain rfl := Except.ok.inj hset
  obtain ⟨wraps', hwraps', hall⟩ := parseRecipientWraps_ok (validateWrapItems_ok.mp hvalid).2.2
  rw [hwraps] at hwraps'
  obtain rfl := Except.ok.inj hwraps'
  have hmem : wrap ∈ wraps := by
    rw [WrapSet.findByKidForMember] at hfind
    split at hfind
    · rename_i found hfound
      obtain rfl := Except.ok.inj hfind
      exact List.mem_of_find?_eq_some hfound
    · split at hfind <;> cases hfind
  obtain ⟨item, hitem, hparse⟩ := exists_left_of_mem hall hmem
  exact ⟨item, hitem, key.kemSecret, wrap, hparse, hopen⟩

/-- The keys a context opens a member's wrap with: its own, under its own kid. -/
structure OpensOwn (ctx : CryptoContext) (handle kid : String) (kemSecret : Bytes) : Prop where
  handle : isMemberHandleText handle = true
  kid : ctx.kid.text = kid
  secret : ctx.privateKey.kemSecret = kemSecret
  chosen : ctx.selectedKidOverride = none ∨ ctx.selectedKidOverride = some ctx.kid

/-- **A MEMBER OPENS WHAT WAS SEALED TO IT**: in a checked wrap list, the item for the member's
    handle and kid is the one that is opened. -/
theorem unwrap_of_member {format : WrapFormat} {sid : Uuid} {items : List WrapItem}
    (hvalid : validateWrapItems items "Document" = .ok ()) {item : WrapItem} (hitem : item ∈ items)
    {ctx : CryptoContext} {kemSecret : Bytes} {masterKey : MasterKey}
    (hown : OpensOwn ctx item.recipientHandle item.kid kemSecret)
    (hopens : OpensTo C format sid item kemSecret masterKey) :
    unwrapMasterKeyWithContext C format sid items item.recipientHandle ctx = .ok masterKey := by
  obtain ⟨_, hnodup, hitems⟩ := validateWrapItems_ok.mp hvalid
  obtain ⟨wraps, hwraps, hall⟩ := parseRecipientWraps_ok hitems
  obtain ⟨wrap, hwrap, hparse⟩ := exists_right_of_mem hall hitem
  obtain ⟨wrap', hparse', hopen⟩ := hopens
  rw [hparse] at hparse'
  obtain rfl := Except.ok.inj hparse'
  obtain ⟨hhandleText, hkidText⟩ := RecipientWrap.parse_ok hparse
  have htexts := handles_of_parsed hall
  -- the handle singles out the wrap
  have hunique : ∀ w ∈ wraps, w.recipientHandle = wrap.recipientHandle → w = wrap := by
    intro w hw heq
    rw [← htexts] at hnodup
    exact List.inj_on_of_nodup_map hnodup hw hwrap (congrArg MemberHandle.text heq)
  have hhandle : MemberHandle.tryFrom item.recipientHandle = .ok wrap.recipientHandle := by
    rw [MemberHandle.tryFrom_ok hown.handle]
    exact congrArg Except.ok (MemberHandle.ext hhandleText.symm)
  have hkid : wrap.kid = ctx.kid := Kid.ext (hkidText.trans hown.kid.symm)
  have hself : WrapSet.selfWrapKid ⟨wraps⟩ wrap.recipientHandle = some ctx.kid := by
    rw [WrapSet.selfWrapKid, find?_eq_of_unique hwrap (decide_eq_true rfl)
      fun w hw heq => hunique w hw (of_decide_eq_true heq), Option.map_some, hkid]
  have hcandidate : ctx.selectedKidOverride.or (WrapSet.selfWrapKid ⟨wraps⟩ wrap.recipientHandle)
      = some ctx.kid := by
    rw [hself]
    rcases hown.chosen with hnone | hsome
    · rw [hnone]
      rfl
    · rw [hsome]
      rfl
  have hselect : ctx.selectLocalDecryptionKey ⟨wraps⟩ item.recipientHandle
      = .ok (ctx.kid, ctx.privateKey) := by
    refine bind_eq_ok.mpr ⟨_, hhandle, ?_⟩
    dsimp only
    rw [hcandidate]
    exact if_pos rfl
  have hfind : WrapSet.findByKidForMember ⟨wraps⟩ ctx.kid wrap.recipientHandle = .ok wrap := by
    rw [WrapSet.findByKidForMember, find?_eq_of_unique hwrap
      (decide_eq_true ⟨hkid, rfl⟩) fun w hw heq => hunique w hw (of_decide_eq_true heq).2]
  refine bind_eq_ok.mpr ⟨⟨wraps⟩, bind_eq_ok.mpr ⟨(), hvalid, bind_eq_ok.mpr ⟨wraps, hwraps, rfl⟩⟩,
    bind_eq_ok.mpr ⟨_, hhandle, bind_eq_ok.mpr ⟨_, hselect, bind_eq_ok.mpr ⟨_, hfind, ?_⟩⟩⟩⟩
  rw [hown.secret]
  exact hopen

end Envelope
