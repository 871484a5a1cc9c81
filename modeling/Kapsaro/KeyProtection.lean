import Kapsaro.Envelope

/-!
# Key protection — the encrypted private key of a member

`model/private_key.rs` and `feature/key/protection/`: the private keys of a member are encrypted
under a key that is derived from an SSH signature or from a password; the protected header is the
additional data.

* **`PrivateKeyProtected`**, **`PrivateKeyAlgorithm`** — the header and its JSON.
* **`PrivateKey`**, **`parsePrivateKeyStr`** — the document and its schema.
* **`encryptPrivateKeyPlaintext`**, **`decryptPrivateKeyPlaintext`** — the ciphertext.
* **`decrypt_encryptPrivateKey`** — what was encrypted under a header comes back under it.
-/

namespace KeyProtection

open JsonText JsonMembers JsonRecords Limits TextLines Base64Codec WireTexts WireModel
open DocumentTokens Envelope JsonLimits

/-! ## Plaintext -/

/-- A key pair as a JWK. -/
structure JwkOkpPrivateKey where
  kty : String
  crv : String
  x : String
  d : String
deriving DecidableEq, Repr

namespace JwkOkpPrivateKey

def toJson (k : JwkOkpPrivateKey) : Json :=
  .obj [("kty", .str k.kty), ("crv", .str k.crv), ("x", .str k.x), ("d", .str k.d)]

def fromJson : Json → Option JwkOkpPrivateKey :=
  readRecord ["kty", "crv", "x", "d"] fun look => do
    let kty ← textField "kty" look
    let crv ← textField "crv" look
    let x ← textField "x" look
    let d ← textField "d" look
    pure { kty, crv, x, d }

theorem reads (k : JwkOkpPrivateKey) : Reads toJson fromJson k :=
  reads_record _ ["kty", "crv", "x", "d"] rfl rfl (by decide) (by decide) rfl rfl

end JwkOkpPrivateKey

/-- The encryption and the signing key pair of a member. -/
structure IdentityKeysPrivate where
  kem : JwkOkpPrivateKey
  sig : JwkOkpPrivateKey
deriving DecidableEq, Repr

namespace IdentityKeysPrivate

def toJson (k : IdentityKeysPrivate) : Json :=
  .obj [("kem", k.kem.toJson), ("sig", k.sig.toJson)]

def fromJson : Json → Option IdentityKeysPrivate :=
  readRecord ["kem", "sig"] fun look => do
    let kem ← field JwkOkpPrivateKey.fromJson "kem" look
    let sig ← field JwkOkpPrivateKey.fromJson "sig" look
    pure { kem, sig }

theorem reads (k : IdentityKeysPrivate) : Reads toJson fromJson k := by
  have hkem := JwkOkpPrivateKey.reads k.kem
  have hsig := JwkOkpPrivateKey.reads k.sig
  refine reads_record _ ["kem", "sig"] rfl rfl (by decide) (by decide) ?_ ?_
  · simp [field, member, hkem.1, hsig.1]
  · simp [field, member, hkem.2, hsig.2]

end IdentityKeysPrivate

/-- What is encrypted. -/
structure PrivateKeyPlaintext where
  keys : IdentityKeysPrivate
deriving DecidableEq, Repr

namespace PrivateKeyPlaintext

def toJson (p : PrivateKeyPlaintext) : Json := .obj [("keys", p.keys.toJson)]

def fromJson : Json → Option PrivateKeyPlaintext :=
  readRecord ["keys"] fun look => do
    let keys ← field IdentityKeysPrivate.fromJson "keys" look
    pure { keys }

theorem reads (p : PrivateKeyPlaintext) : Reads toJson fromJson p := by
  have hkeys := IdentityKeysPrivate.reads p.keys
  refine reads_record _ ["keys"] rfl rfl (by decide) (by decide) ?_ ?_
  · simp [field, member, hkeys.1]
  · simp [field, member, hkeys.2]

/-- The serialized plaintext. -/
def toBytes (p : PrivateKeyPlaintext) : Bytes := utf8 (String.ofList (textAt false 0 p.toJson))

/-- Read a serialized plaintext; a member that comes twice is refused. -/
def fromSlice (bytes : Bytes) : Option PrivateKeyPlaintext := do
  let text ← utf8Decode bytes
  let v ← parseJson text.toList
  if uniqueNames v then fromJson v else none

theorem fromSlice_toBytes (p : PrivateKeyPlaintext) : fromSlice p.toBytes = some p := by
  have hnames : uniqueNames p.toJson = true := by
    simp [toJson, IdentityKeysPrivate.toJson, JwkOkpPrivateKey.toJson, uniqueNames,
      uniqueNamesMembers]
  have hparse := parseJson_textAt false 0 p.toJson
  simp only [fromSlice, toBytes, utf8Decode_utf8, Option.bind_eq_bind, Option.bind_some,
    String.toList_ofList, hparse]
  rw [if_pos hnames]
  exact (reads p).1

end PrivateKeyPlaintext

/-! ## Header -/

def protectionKdfSshSig : String := "sshsig-ed25519-hkdf-sha256"

def protectionKdfArgon2id : String := "argon2id-m64t3p4-hkdf-sha256"

/-- How the encryption key is derived. -/
inductive PrivateKeyAlgorithm where
  | sshSig (fpr ikmSalt hkdfSalt aead : String)
  | argon2id (ikmSalt hkdfSalt aead : String)
deriving DecidableEq, Repr

namespace PrivateKeyAlgorithm

def toJson : PrivateKeyAlgorithm → Json
  | .sshSig fpr ikmSalt hkdfSalt aead =>
    .obj [("kdf", .str protectionKdfSshSig), ("fpr", .str fpr), ("ikm_salt", .str ikmSalt),
      ("hkdf_salt", .str hkdfSalt), ("aead", .str aead)]
  | .argon2id ikmSalt hkdfSalt aead =>
    .obj [("kdf", .str protectionKdfArgon2id), ("ikm_salt", .str ikmSalt),
      ("hkdf_salt", .str hkdfSalt), ("aead", .str aead)]

/-- The tag says which fields there are. -/
def fromJson : Json → Option PrivateKeyAlgorithm :=
  readRecord ["kdf", "fpr", "ikm_salt", "hkdf_salt", "aead"] fun look => do
    let kdf ← textField "kdf" look
    let ikmSalt ← textField "ikm_salt" look
    let hkdfSalt ← textField "hkdf_salt" look
    let aead ← textField "aead" look
    if kdf = protectionKdfSshSig then do
      let fpr ← textField "fpr" look
      pure (.sshSig fpr ikmSalt hkdfSalt aead)
    else if kdf = protectionKdfArgon2id ∧ look "fpr" = none then
      pure (.argon2id ikmSalt hkdfSalt aead)
    else none

theorem reads (a : PrivateKeyAlgorithm) : Reads toJson fromJson a := by
  cases a with
  | sshSig fpr ikmSalt hkdfSalt aead =>
    exact reads_record _ ["kdf", "fpr", "ikm_salt", "hkdf_salt", "aead"] rfl rfl (by decide)
      (by decide) rfl rfl
  | argon2id ikmSalt hkdfSalt aead =>
    exact reads_record _ ["kdf", "ikm_salt", "hkdf_salt", "aead"] rfl rfl (by decide)
      (by decide) rfl rfl

end PrivateKeyAlgorithm

/-- The protected header of a private key document. -/
structure PrivateKeyProtected where
  format : String
  subjectHandle : String
  kid : String
  alg : PrivateKeyAlgorithm
  createdAt : String
  expiresAt : String
deriving DecidableEq, Repr

namespace PrivateKeyProtected

def toJson (p : PrivateKeyProtected) : Json :=
  .obj [("format", .str p.format), ("subject_handle", .str p.subjectHandle), ("kid", .str p.kid),
    ("alg", p.alg.toJson), ("created_at", .str p.createdAt), ("expires_at", .str p.expiresAt)]

def fromJson : Json → Option PrivateKeyProtected :=
  readRecord ["format", "subject_handle", "kid", "alg", "created_at", "expires_at"] fun look => do
    let format ← textField "format" look
    let subjectHandle ← textField "subject_handle" look
    let kid ← textField "kid" look
    let alg ← field PrivateKeyAlgorithm.fromJson "alg" look
    let createdAt ← textField "created_at" look
    let expiresAt ← textField "expires_at" look
    pure { format, subjectHandle, kid, alg, createdAt, expiresAt }

theorem reads (p : PrivateKeyProtected) : Reads toJson fromJson p := by
  have halg := PrivateKeyAlgorithm.reads p.alg
  refine reads_record _ ["format", "subject_handle", "kid", "alg", "created_at", "expires_at"] rfl
    rfl (by decide) (by decide) ?_ ?_
  · simp [textField, field, member, asText, halg.1]
  · simp [textField, field, member, asText, canonical, halg.2]

end PrivateKeyProtected

structure PrivateKeyEncData where
  nonce : String
  ct : String
deriving DecidableEq, Repr

namespace PrivateKeyEncData

def toJson (d : PrivateKeyEncData) : Json := .obj [("nonce", .str d.nonce), ("ct", .str d.ct)]

def schema : Schema :=
  .record [("nonce", .text (isB64urlSized 32)), ("ct", .text isB64urlText)] ["nonce", "ct"] true

def fromJson : Json → Option PrivateKeyEncData :=
  readRecord ["nonce", "ct"] fun look => do
    let nonce ← textField "nonce" look
    let ct ← textField "ct" look
    pure { nonce, ct }

theorem reads (d : PrivateKeyEncData) : Reads toJson fromJson d :=
  reads_record _ ["nonce", "ct"] rfl rfl (by decide) (by decide) rfl rfl

end PrivateKeyEncData

/-- The private key document. -/
structure PrivateKey where
  protect : PrivateKeyProtected
  encrypted : PrivateKeyEncData
deriving DecidableEq, Repr

/-! ## Document -/

def privateKeyV1 : String := "kapsaro:format:private-key@1"

/-- A fingerprint as the schema wants it: `SHA256:` in any case, then base64 characters. -/
def isFingerprintText (s : String) : Bool :=
  String.ofList ((s.toList.take 7).map Char.toLower) == "sha256:"
    && (s.toList.drop 7) != []
    && (s.toList.drop 7).all fun c => c.isAlphanum || c == '+' || c == '/'

namespace PrivateKeyAlgorithm

def sshSigSchema : Schema :=
  .record [("kdf", .text (· == protectionKdfSshSig)), ("fpr", .text isFingerprintText),
      ("ikm_salt", .text (isB64urlSized 43)), ("hkdf_salt", .text (isB64urlSized 43)),
      ("aead", .text (· == aeadXChaCha20Poly1305))]
    ["kdf", "fpr", "ikm_salt", "hkdf_salt", "aead"] true

def argon2idSchema : Schema :=
  .record [("kdf", .text (· == protectionKdfArgon2id)), ("ikm_salt", .text (isB64urlSized 43)),
      ("hkdf_salt", .text (isB64urlSized 43)), ("aead", .text (· == aeadXChaCha20Poly1305))]
    ["kdf", "ikm_salt", "hkdf_salt", "aead"] true

end PrivateKeyAlgorithm

namespace PrivateKey

def toJson (k : PrivateKey) : Json :=
  .obj [("protected", k.protect.toJson), ("encrypted", k.encrypted.toJson)]

/-- The schema of a document, given that of its algorithm. -/
def schema (alg : Schema) : Schema :=
  .record
    [("protected", .record
        [("format", .text (· == privateKeyV1)), ("subject_handle", .text isMemberHandleText),
          ("kid", .text isKidText), ("alg", alg), ("created_at", .text isIso8601Text),
          ("expires_at", .text isIso8601Text)]
        ["format", "subject_handle", "kid", "alg", "created_at", "expires_at"] true),
      ("encrypted", PrivateKeyEncData.schema)]
    ["protected", "encrypted"] true

def fromJson : Json → Option PrivateKey :=
  readRecord ["protected", "encrypted"] fun look => do
    let protect ← field PrivateKeyProtected.fromJson "protected" look
    let encrypted ← field PrivateKeyEncData.fromJson "encrypted" look
    pure { protect, encrypted }

theorem reads (k : PrivateKey) : Reads toJson fromJson k := by
  have hprotect := PrivateKeyProtected.reads k.protect
  have hencrypted := PrivateKeyEncData.reads k.encrypted
  refine reads_record _ ["protected", "encrypted"] rfl rfl (by decide) (by decide) ?_ ?_
  · simp [field, member, hprotect.1, hencrypted.1]
  · simp [field, member, hprotect.2, hencrypted.2]

end PrivateKey

/-- The algorithm is one of the two; no value conforms to both. -/
def parsePrivateKeyStr (content sourceName : String) : Except Error PrivateKey := do
  validateJsonLimits (utf8 content)
  let v ← parseJsonValue (utf8 content) sourceName "PrivateKey"
  let alg := if conforms (PrivateKey.schema PrivateKeyAlgorithm.sshSigSchema) v then
    PrivateKeyAlgorithm.sshSigSchema else PrivateKeyAlgorithm.argon2idSchema
  readConforming (PrivateKey.schema alg) PrivateKey.fromJson sourceName "PrivateKey" v

/-! ## Ciphertext -/

/-- The header is the additional data. -/
def buildPrivateKeyAad (protect : PrivateKeyProtected) : Bytes :=
  utf8 (jcsText protect.toJson)

/-- The decoded ciphertext of a document, with its additional data. -/
structure PrivateKeyCiphertextParams where
  nonce : Bytes
  ct : Bytes
  aad : Bytes

section Ciphertext

variable (C : Crypto)

/-- Encrypt the keys under a fresh nonce. -/
def encryptPrivateKeyPlaintext (plaintext : PrivateKeyPlaintext) (encKey : FixedBytes 32)
    (protect : PrivateKeyProtected) (freshNonce : FixedBytes 24) :
    Except Error PrivateKeyEncData := do
  let ct ← C.xchachaEncrypt encKey.bytes freshNonce.bytes (buildPrivateKeyAad protect)
    plaintext.toBytes
  pure { nonce := encodeBase64urlNopad freshNonce.bytes, ct := encodeBase64urlNopad ct }

def decodeCiphertextParams (privateKey : PrivateKey) :
    Except Error PrivateKeyCiphertextParams := do
  let nonce ← decodeBase64urlNopadArray 24 privateKey.encrypted.nonce "nonce"
  let ct ← decodeBase64urlNopad privateKey.encrypted.ct "ct"
  pure { nonce, ct, aad := buildPrivateKeyAad privateKey.protect }

def decryptPrivateKeyPlaintext (encKey : FixedBytes 32) (params : PrivateKeyCiphertextParams) :
    Except Error PrivateKeyPlaintext := do
  let plaintext ← C.xchachaDecrypt encKey.bytes params.nonce params.aad params.ct
  match PrivateKeyPlaintext.fromSlice plaintext with
  | some keys => pure keys
  | none => .error (.crypto "Failed to deserialize plaintext")

end Ciphertext

/-- What encrypting the keys calls and returns. -/
theorem encryptPrivateKeyPlaintext_ok {C : Crypto} {plaintext : PrivateKeyPlaintext}
    {encKey : FixedBytes 32} {protect : PrivateKeyProtected} {nonce : FixedBytes 24}
    {encrypted : PrivateKeyEncData}
    (h : encryptPrivateKeyPlaintext C plaintext encKey protect nonce = .ok encrypted) :
    ∃ ct, C.xchachaEncrypt encKey.bytes nonce.bytes (buildPrivateKeyAad protect)
        plaintext.toBytes = .ok ct
      ∧ encrypted.nonce = encodeBase64urlNopad nonce.bytes
      ∧ encrypted.ct = encodeBase64urlNopad ct := by
  obtain ⟨ct, hct, h⟩ := bind_eq_ok.mp h
  obtain rfl := Except.ok.inj h
  exact ⟨ct, hct, rfl, rfl⟩

/-- What decrypting the keys of a document calls. -/
theorem decryptPrivateKeyPlaintext_ok {C : Crypto} {document : PrivateKey}
    {encKey : FixedBytes 32} {params : PrivateKeyCiphertextParams}
    {plaintext : PrivateKeyPlaintext} (hdecode : decodeCiphertextParams document = .ok params)
    (h : decryptPrivateKeyPlaintext C encKey params = .ok plaintext) :
    ∃ nonce ct bytes, decodeBase64urlNopadArray 24 document.encrypted.nonce "nonce" = .ok nonce
      ∧ decodeBase64urlNopad document.encrypted.ct "ct" = .ok ct
      ∧ C.xchachaDecrypt encKey.bytes nonce (buildPrivateKeyAad document.protect) ct
          = .ok bytes := by
  obtain ⟨nonce, hnonce, hdecode⟩ := bind_eq_ok.mp hdecode
  obtain ⟨ct, hct, hdecode⟩ := bind_eq_ok.mp hdecode
  obtain rfl := Except.ok.inj hdecode
  obtain ⟨bytes, hbytes, _⟩ := bind_eq_ok.mp h
  dsimp only at hbytes
  exact ⟨nonce, ct, bytes, hnonce, hct, hbytes⟩

/-- **WHAT WAS ENCRYPTED UNDER A HEADER COMES BACK** under it. -/
theorem decrypt_encryptPrivateKey {C : Crypto} (hC : Lawful C) {plaintext : PrivateKeyPlaintext}
    {encKey : FixedBytes 32} {protect : PrivateKeyProtected} {nonce : FixedBytes 24}
    {encrypted : PrivateKeyEncData}
    (hsize : computeEncodedLen (plaintext.toBytes.length + 16) ≤ maxBase64CiphertextLength)
    (h : encryptPrivateKeyPlaintext C plaintext encKey protect nonce = .ok encrypted) :
    (decodeCiphertextParams ⟨protect, encrypted⟩ >>= decryptPrivateKeyPlaintext C encKey)
      = .ok plaintext := by
  obtain ⟨ct, hct, h⟩ := bind_eq_ok.mp h
  obtain rfl := Except.ok.inj h
  have hlen := hC.encrypt_size hct
  have hdecode : decodeBase64urlNopad (encodeBase64urlNopad ct) "ct" = .ok ct := by
    refine decodeBase64url_encode ct "ct" _ ?_
    rw [hlen]
    exact hsize
  have hparams : decodeCiphertextParams
      ⟨protect, encodeBase64urlNopad nonce.bytes, encodeBase64urlNopad ct⟩
      = .ok ⟨nonce.bytes, ct, buildPrivateKeyAad protect⟩ := by
    refine bind_eq_ok.mpr ⟨nonce.bytes, nonce.decode_encode "nonce", ?_⟩
    exact bind_eq_ok.mpr ⟨ct, hdecode, rfl⟩
  have hread := PrivateKeyPlaintext.fromSlice_toBytes plaintext
  generalize plaintext.toBytes = bytes at hct hread
  have hdecrypt := hC.decrypt_encrypt hct
  rw [hparams]
  show decryptPrivateKeyPlaintext C encKey _ = _
  simp only [decryptPrivateKeyPlaintext, hdecrypt]
  rw [bind_eq_ok]
  refine ⟨bytes, rfl, ?_⟩
  rw [hread]
  rfl

end KeyProtection
