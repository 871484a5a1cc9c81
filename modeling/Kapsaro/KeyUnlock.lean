import Mathlib.Data.List.Infix
import Kapsaro.Base64Variants
import Kapsaro.JsonSize
import Kapsaro.KeyAttestation
import Kapsaro.KeyProtection

/-!
# Key unlocking — the private key behind a signature or a password

`feature/key/protection/`, `feature/key/material.rs` and `feature/context/crypto/loader.rs`: a
private key document is encrypted under a key that is derived from what an SSH key signs, or from a
password; whoever has the same signature or password gets the keys back, and these are checked
before use.

* **`SignatureBackend`**, **`signSshsigDeterministic`** — a signer, asked twice where it matters.
* **`encryptPrivateKey`**, **`decryptPrivateKey`** — protection by an SSH key;
  **`encryptPrivateKeyWithPassword`**, **`decryptPrivateKeyWithPassword`** — and by a password.
* **`verifyPrivateKeyMaterial_iff`** — the checked keys are exactly those that two secrets make.
* **`decryptPrivateKey_enrolled`**, **`decryptPrivateKeyWithPassword_encrypted`** — what was
  protected comes back; **`decryptPrivateKey_refused`** — and why it does not.
* **`decryptKeyPair`** — a stored pair, checked against itself and unlocked.
-/

namespace KeyUnlock

open Limits TextLines JsonText JsonMembers JsonLimits WireTexts WireModel DocumentTokens Base64Codec
open Base64Variants SignedArtifacts KeyProtection SshWire KeyAttestation TrustJudgment JsonSize
open Envelope hiding PrivateKey

/-! ## Errors -/

/-- Why a key could not be protected or unlocked. -/
inductive KeyError where
  | failed (error : Error)
  | ssh (fault : Fault)
deriving DecidableEq

/-- An error as it is printed. -/
def KeyError.display : KeyError → String
  | .failed error => error.display
  | .ssh (.failed (.operationFailed message)) => "SSH error: " ++ message
  | .ssh .outOfBounds => ""

/-- The result of a function that asks no SSH key. -/
def lift {α : Type} (result : Except Error α) : Except KeyError α :=
  result.mapError .failed

theorem lift_ok {α : Type} {result : Except Error α} {a : α} :
    lift result = .ok a ↔ result = .ok a :=
  mapError_ok

/-! ## Signers -/

/-- What a signer answers to the requests of one operation, in order. -/
structure SignatureBackend where
  /-- the number of the request, the namespace, the public key line and the message -/
  signSshsig : Nat → String → String → Bytes → Except KeyError (FixedBytes 64)

/-- The signer, once it has answered some requests. -/
def SignatureBackend.after (backend : SignatureBackend) (requests : Nat) : SignatureBackend where
  signSshsig n := backend.signSshsig (requests + n)

def nonDeterministicSignatureMessage : String :=
  "Non-deterministic signature detected: same input produced different signatures"

/-- Sign twice; the signature is good only if it comes back. -/
def SignatureBackend.signSshsigDeterministic (backend : SignatureBackend)
    (namespaceText sshPubkey : String) (message : Bytes) : Except KeyError (FixedBytes 64) := do
  let sig1 ← backend.signSshsig 0 namespaceText sshPubkey message
  let sig2 ← backend.signSshsig 1 namespaceText sshPubkey message
  if sig1 ≠ sig2 then
    .error (.ssh (.failed (.operationFailed nonDeterministicSignatureMessage)))
  else pure sig1

def nonDeterministicSignatureError : KeyError :=
  .failed (.crypto "W_SSH_NONDETERMINISTIC: SSH signature is non-deterministic")

/-- A refusal for two signatures is told as such, whoever reported it. -/
def buildDeterminismError (error : KeyError) : KeyError :=
  if nonDeterministicSignatureMessage.toList <:+: error.display.toList then
    nonDeterministicSignatureError
  else error

/-! ## Derivation -/

def sshsigMessagePrefixPrivateKeyProtectionV1 : String := "kapsaro:sshsig:private-key:protection@1"

def hkdfInfoPrivateKeySshsigV1 : String := "kapsaro:hkdf-info:private-key:sshsig@1"

def hkdfInfoPrivateKeyPasswordV1 : String := "kapsaro:hkdf-info:private-key:password@1"

/-- The message a signer signs for a private key. -/
def buildSignMessage (ikmSaltB64 : String) : String :=
  sshsigMessagePrefixPrivateKeyProtectionV1 ++ "\n" ++ ikmSaltB64

section Derivation

variable (C : Crypto)

/-- HKDF over a salt. -/
def deriveHkdfSha256Array (ikm salt info : Bytes) : FixedBytes 32 :=
  C.hkdfExpand (C.hkdfExtract salt ikm).bytes info

def deriveKeyFromRawSignature (kid : String) (rawSig : FixedBytes 64) (hkdfSalt : Bytes) :
    FixedBytes 32 :=
  deriveHkdfSha256Array C rawSig.bytes hkdfSalt (utf8 (hkdfInfoPrivateKeySshsigV1 ++ ":" ++ kid))

/-- The key of a new document: the signature has to come twice. -/
def deriveKeyFromSsh (kid ikmSaltB64 : String) (hkdfSalt : Bytes) (backend : SignatureBackend)
    (sshPubkey : String) : Except KeyError (FixedBytes 32) := do
  let rawSig ← (backend.signSshsigDeterministic keyProtectionNamespace sshPubkey
    (utf8 (buildSignMessage ikmSaltB64))).mapError buildDeterminismError
  pure (deriveKeyFromRawSignature C kid rawSig hkdfSalt)

/-- A key to use, with the signature it comes from. -/
structure PrivateKeyUseKey where
  encKey : FixedBytes 32
  rawSig : FixedBytes 64

def deriveKeyForPrivateKeyUse (kid ikmSaltB64 : String) (hkdfSalt : Bytes)
    (backend : SignatureBackend) (sshPubkey : String) : Except KeyError PrivateKeyUseKey := do
  let rawSig ← backend.signSshsig 0 keyProtectionNamespace sshPubkey
    (utf8 (buildSignMessage ikmSaltB64))
  pure { encKey := deriveKeyFromRawSignature C kid rawSig hkdfSalt, rawSig := rawSig }

/-- Sign once more, to tell a changing signer from a wrong one. -/
def enforcePrivateKeyUseSignatureDeterminism (ikmSaltB64 : String) (backend : SignatureBackend)
    (sshPubkey : String) (expectedRawSig : FixedBytes 64) : Except KeyError Unit := do
  let retrySig ← backend.signSshsig 1 keyProtectionNamespace sshPubkey
    (utf8 (buildSignMessage ikmSaltB64))
  if retrySig ≠ expectedRawSig then .error nonDeterministicSignatureError else pure ()

/-- The hash of a password: the password and its salt. -/
abbrev Argon2id := String → Bytes → Except Error (FixedBytes 32)

def deriveKeyFromPassword (argon2id : Argon2id) (password : String) (ikmSalt hkdfSalt : Bytes)
    (kid : String) : Except Error (FixedBytes 32) := do
  let ikm ← argon2id password ikmSalt
  pure (deriveHkdfSha256Array C ikm.bytes hkdfSalt
    (utf8 (hkdfInfoPrivateKeyPasswordV1 ++ ":" ++ kid)))

end Derivation

/-! ## Headers -/

structure PrivateKeyProtectionMetadata where
  memberHandle : String
  kid : String
  createdAt : String
  expiresAt : String

/-- The salts a new document draws, and its nonce. -/
structure FreshPrivateKeyProtectionMaterial where
  ikmSalt : FixedBytes 32
  hkdfSalt : FixedBytes 32
  nonce : FixedBytes 24

namespace FreshPrivateKeyProtectionMaterial

def ikmSaltB64 (material : FreshPrivateKeyProtectionMaterial) : String :=
  encodeBase64urlNopad material.ikmSalt.bytes

def hkdfSaltB64 (material : FreshPrivateKeyProtectionMaterial) : String :=
  encodeBase64urlNopad material.hkdfSalt.bytes

end FreshPrivateKeyProtectionMaterial

def buildPrivateKeyProtected (metadata : PrivateKeyProtectionMetadata)
    (alg : PrivateKeyAlgorithm) : PrivateKeyProtected where
  format := privateKeyV1
  subjectHandle := metadata.memberHandle
  kid := metadata.kid
  alg := alg
  createdAt := metadata.createdAt
  expiresAt := metadata.expiresAt

def buildSshsigAlgorithm (sshFpr : String) (material : FreshPrivateKeyProtectionMaterial) :
    PrivateKeyAlgorithm :=
  .sshSig sshFpr material.ikmSaltB64 material.hkdfSaltB64 aeadXChaCha20Poly1305

def buildArgon2idAlgorithm (material : FreshPrivateKeyProtectionMaterial) : PrivateKeyAlgorithm :=
  .argon2id material.ikmSaltB64 material.hkdfSaltB64 aeadXChaCha20Poly1305

/-- The salts of an algorithm. -/
def ikmSaltOf : PrivateKeyAlgorithm → String
  | .sshSig _ ikmSalt _ _ => ikmSalt
  | .argon2id ikmSalt _ _ => ikmSalt

def hkdfSaltOf : PrivateKeyAlgorithm → String
  | .sshSig _ _ hkdfSalt _ => hkdfSalt
  | .argon2id _ hkdfSalt _ => hkdfSalt

def validateAeadAlgorithm (aead : String) : Except Error Unit :=
  if aead = aeadXChaCha20Poly1305 then .ok ()
  else .error (.crypto
    s!"Unsupported AEAD algorithm '{aead}', expected '{aeadXChaCha20Poly1305}'")

def decodeHkdfSalt (privateKey : PrivateKey) : Except Error Bytes :=
  decodeBase64urlNopadArray 32 (hkdfSaltOf privateKey.protect.alg) "hkdf_salt"

def decodeIkmSalt (privateKey : PrivateKey) : Except Error Bytes :=
  decodeBase64urlNopadArray 32 (ikmSaltOf privateKey.protect.alg) "ikm_salt"

/-! ## Fingerprints -/

/-- `SHA256:`, in any case, is the same prefix. -/
def normalizeFingerprintPrefix (fingerprint : String) : String :=
  if (fingerprint.toList.take 7).map Char.toLower = "sha256:".toList then
    "SHA256:" ++ String.ofList (fingerprint.toList.drop 7)
  else fingerprint

def buildSha256Fingerprint (C : Crypto) (sshPubkey : String) : Except KeyError String := do
  let keyBlob ← (liftSsh (decodeSshPublicKeyBlob sshPubkey)).mapError .ssh
  pure ("SHA256:" ++ encodeBase64StandardNopad (C.sha256 keyBlob).bytes)

def expectedSshSigError : KeyError :=
  .failed (.crypto "Expected SshSig algorithm for SSH-based decryption")

def verifySshFingerprintMatches (C : Crypto) (privateKey : PrivateKey) (sshPubkey : String) :
    Except KeyError Unit :=
  match privateKey.protect.alg with
  | .argon2id .. => .error expectedSshSigError
  | .sshSig expected _ _ _ => do
    let actual ← buildSha256Fingerprint C sshPubkey
    if normalizeFingerprintPrefix expected = normalizeFingerprintPrefix actual then pure ()
    else .error (.failed (.crypto ("SSH public key fingerprint mismatch.\n" ++
      s!"Code: E_PRIVATE_KEY_DECRYPT_FAILED\nExpected: {expected}\nActual: {actual}")))

def validateSshProtectionAlgorithm (privateKey : PrivateKey) : Except KeyError Unit :=
  match privateKey.protect.alg with
  | .sshSig _ _ _ aead => lift (validateAeadAlgorithm aead)
  | .argon2id .. => .error expectedSshSigError

/-! ## Protection -/

section Protection

variable (C : Crypto)

/-- What a private key is encrypted with. -/
structure PrivateKeyEncryptionParams where
  plaintext : PrivateKeyPlaintext
  memberHandle : String
  kid : String
  backend : SignatureBackend
  sshPubkey : String
  sshFpr : String
  createdAt : String
  expiresAt : String

/-- Encrypt the keys under what an SSH key signs. -/
def encryptPrivateKey (params : PrivateKeyEncryptionParams)
    (material : FreshPrivateKeyProtectionMaterial) : Except KeyError PrivateKey := do
  let protect := buildPrivateKeyProtected
    ⟨params.memberHandle, params.kid, params.createdAt, params.expiresAt⟩
    (buildSshsigAlgorithm params.sshFpr material)
  let encKey ← deriveKeyFromSsh C params.kid material.ikmSaltB64 material.hkdfSalt.bytes
    params.backend params.sshPubkey
  let encrypted ← lift (encryptPrivateKeyPlaintext C params.plaintext encKey protect material.nonce)
  pure { protect, encrypted }

def buildPrivateKeyDecryptError : KeyError :=
  .failed (.crypto "E_PRIVATE_KEY_DECRYPT_FAILED: private key decryption failed")

/-- Decrypt the keys with an SSH key. -/
def decryptPrivateKey (privateKey : PrivateKey) (backend : SignatureBackend) (sshPubkey : String) :
    Except KeyError PrivateKeyPlaintext := do
  validateSshProtectionAlgorithm privateKey
  verifySshFingerprintMatches C privateKey sshPubkey
  let hkdfSalt ← lift (decodeHkdfSalt privateKey)
  let ikmSaltB64 := ikmSaltOf privateKey.protect.alg
  let ciphertext ← lift (decodeCiphertextParams privateKey)
  let derived ← deriveKeyForPrivateKeyUse C privateKey.protect.kid ikmSaltB64 hkdfSalt backend
    sshPubkey
  match decryptPrivateKeyPlaintext C derived.encKey ciphertext with
  | .ok plaintext => pure plaintext
  | .error _ => do
    -- the error is about the key, unless the signer has changed its answer meanwhile
    enforcePrivateKeyUseSignatureDeterminism ikmSaltB64 backend sshPubkey derived.rawSig
    .error buildPrivateKeyDecryptError

variable (argon2id : Argon2id)

/-- Encrypt the keys under a password. -/
def encryptPrivateKeyWithPassword (plaintext : PrivateKeyPlaintext)
    (metadata : PrivateKeyProtectionMetadata) (password : String)
    (material : FreshPrivateKeyProtectionMaterial) : Except Error PrivateKey := do
  let protect := buildPrivateKeyProtected metadata (buildArgon2idAlgorithm material)
  let encKey ← deriveKeyFromPassword C argon2id password material.ikmSalt.bytes
    material.hkdfSalt.bytes metadata.kid
  let encrypted ← encryptPrivateKeyPlaintext C plaintext encKey protect material.nonce
  pure { protect, encrypted }

/-- The document is protected by a password. -/
def validatePasswordProtectionAlgorithm (privateKey : PrivateKey) : Except Error Unit :=
  match privateKey.protect.alg with
  | .argon2id _ _ aead => validateAeadAlgorithm aead
  | .sshSig .. => .error (.crypto "Expected Argon2id algorithm, got SSH-based")

/-- Decrypt the keys with a password. -/
def decryptPrivateKeyWithPassword (privateKey : PrivateKey) (password : String) :
    Except Error PrivateKeyPlaintext := do
  validatePasswordProtectionAlgorithm privateKey
  let ikmSalt ← decodeIkmSalt privateKey
  let hkdfSalt ← decodeHkdfSalt privateKey
  let ciphertext ← decodeCiphertextParams privateKey
  let encKey ← deriveKeyFromPassword C argon2id password ikmSalt hkdfSalt privateKey.protect.kid
  (decryptPrivateKeyPlaintext C encKey ciphertext).mapError fun _ =>
    .crypto "E_PRIVATE_KEY_DECRYPT_FAILED: private key decryption failed"

end Protection

/-! ## Key material -/

section Material

variable (C : Crypto)

/-- The plaintext of two secrets. -/
def buildPrivateKeyPlaintext (kemSk sigSk : FixedBytes 32) : PrivateKeyPlaintext where
  keys := {
    kem := {
      kty := "OKP"
      crv := "X25519"
      x := encodeBase64urlNopad (C.kemPublic kemSk.bytes)
      d := encodeBase64urlNopadSecret32 kemSk }
    sig := {
      kty := "OKP"
      crv := "Ed25519"
      x := encodeBase64urlNopad (C.verifyingKey sigSk.bytes)
      d := encodeBase64urlNopadSecret32 sigSk } }

/-- The shape of a key pair, and its two halves. -/
def parseOkpKey (kty crv expectedCrv d x label : String) : Except Error (Bytes × Bytes) :=
  if kty ≠ "OKP" then
    .error (.crypto s!"Invalid {label} key type: expected 'OKP', got '{kty}'")
  else if crv ≠ expectedCrv then
    .error (.crypto s!"Invalid {label} curve: expected '{expectedCrv}', got '{crv}'")
  else do
    let dBytes ← decodeBase64urlNopadSecret32 d s!"{label} private key"
    let xBytes ← decodeBase64urlNopadArray 32 x s!"{label} public key"
    pure (dBytes, xBytes)

/-- One of the two halves is that of the other. -/
def verifyConsistency (derive : Bytes → Bytes) (algorithm : String) (d x : Bytes) :
    Except Error Unit :=
  if derive d ≠ x then
    .error (.crypto
      s!"{algorithm} key pair inconsistency: private key does not derive to public key")
  else .ok ()

def verifyEd25519Consistency (d x : Bytes) : Except Error Unit :=
  verifyConsistency C.verifyingKey "Ed25519" d x

def verifyX25519Consistency (d x : Bytes) : Except Error Unit :=
  verifyConsistency C.kemPublic "X25519" d x

/-- Check decrypted keys: each private half derives to its public half. -/
def verifyPrivateKeyMaterial (plaintext : PrivateKeyPlaintext) : Except Error Unit := do
  let kem := plaintext.keys.kem
  let (kemD, kemX) ← parseOkpKey kem.kty kem.crv "X25519" kem.d kem.x "KEM"
  verifyX25519Consistency C kemD kemX
  let sig := plaintext.keys.sig
  let (sigD, sigX) ← parseOkpKey sig.kty sig.crv "Ed25519" sig.d sig.x "Sig"
  verifyEd25519Consistency C sigD sigX

/-- Where decrypted keys come from. -/
structure DecryptionProof where
  memberHandle : String
  kid : String
  sshFpr : Option String
deriving DecidableEq

/-- Decrypted keys that were checked. -/
structure VerifiedPrivateKey where
  document : PrivateKeyPlaintext
  proof : DecryptionProof
  verified : verifyPrivateKeyMaterial C document = .ok ()

/-- Check decrypted keys, and wrap them. -/
def VerifiedPrivateKey.new (plaintext : PrivateKeyPlaintext) (proof : DecryptionProof) :
    Except Error (VerifiedPrivateKey C) :=
  if h : verifyPrivateKeyMaterial C plaintext = .ok () then .ok ⟨plaintext, proof, h⟩
  else do
    verifyPrivateKeyMaterial C plaintext
    .error (.crypto "")

def buildVerifiedPrivateKeyFromSsh (plaintext : PrivateKeyPlaintext)
    (memberHandle kid sshFpr : String) : Except Error (VerifiedPrivateKey C) :=
  VerifiedPrivateKey.new C plaintext ⟨memberHandle, kid, some sshFpr⟩

def buildVerifiedPrivateKeyFromPassword (plaintext : PrivateKeyPlaintext)
    (memberHandle kid : String) : Except Error (VerifiedPrivateKey C) :=
  VerifiedPrivateKey.new C plaintext ⟨memberHandle, kid, none⟩

def decodeKemSecretKey (privateKey : VerifiedPrivateKey C) : Except Error Bytes :=
  decodeBase64urlNopadSecret32 privateKey.document.keys.kem.d "KEM private key"

def buildSigningKey (plaintext : PrivateKeyPlaintext) : Except Error Bytes :=
  decodeBase64urlNopadSecret32 plaintext.keys.sig.d "Ed25519 private key"

end Material

/-! ## Stored pairs -/

/-- The two documents of a pair are about one member and one key. -/
def verifyPrivateKeyMatchesPublicKey (privateKey : PrivateKey) (publicKey : PublicKey) :
    Except Error Unit :=
  if privateKey.protect.subjectHandle ≠ publicKey.protect.subjectHandle then
    .error (.verify "V-PRIVATEKEY-PUBKEY-MISMATCH"
      ("PrivateKey subject does not match PublicKey subject.\n" ++
        s!"Private subject: {privateKey.protect.subjectHandle}\n" ++
        s!"Public subject: {publicKey.protect.subjectHandle}"))
  else if privateKey.protect.kid ≠ publicKey.protect.kid then
    .error (.verify "V-PRIVATEKEY-PUBKEY-MISMATCH"
      (s!"kid mismatch: private.protected.kid '{formatKidDisplayLossy privateKey.protect.kid}' " ++
        s!"!= public.protected.kid '{formatKidDisplayLossy publicKey.protect.kid}'"))
  else .ok ()

/-- The identity a statement is about. -/
def identityFromPublicKey (publicKey : PublicKey) : Except Error LocalKeyIdentity := do
  let sigX ← decodeBase64urlNopadArray 32 publicKey.protect.keys.sig.x "Ed25519 public key"
  let memberHandle ← MemberHandle.tryFrom publicKey.protect.subjectHandle
  let kid ← Kid.fromCanonical publicKey.protect.kid
  pure ⟨memberHandle, kid, sigX⟩

def extractSshFingerprint (privateKey : PrivateKey) : Except KeyError String :=
  match privateKey.protect.alg with
  | .sshSig fpr _ _ _ => .ok fpr
  | .argon2id .. => .error expectedSshSigError

/-- A loaded key: its halves, whose it is, and until when. -/
structure PrivateKeyLoadResult (C : Crypto) where
  privateKey : VerifiedPrivateKey C
  keyIdentity : LocalKeyIdentity
  privateExpiresAt : String
  publicExpiresAt : String

section Loading

variable (C : Crypto) (P : Platform) (errors : SignatureErrors)

/-- An error of the check of a statement. -/
def liftPublicKey : PublicKeyError → KeyError
  | .verification error => .failed error
  | .attestation fault => .ssh fault

/-- Check a stored pair against itself, and unlock the private half. -/
def decryptKeyPair (encryptedPrivateKey : PrivateKey) (publicKey : PublicKey)
    (backend : SignatureBackend) (sshPubkey : String) :
    Except KeyError (PrivateKeyLoadResult C) := do
  -- the public half first: nothing is decrypted for a statement that does not verify
  let _ ← (verifySigningPublicKey C P errors publicKey).mapError liftPublicKey
  lift (verifyPrivateKeyMatchesPublicKey encryptedPrivateKey publicKey)
  let plaintext ← decryptPrivateKey C encryptedPrivateKey backend sshPubkey
  let sshFpr ← extractSshFingerprint encryptedPrivateKey
  let privateKey ← lift (buildVerifiedPrivateKeyFromSsh C plaintext
    encryptedPrivateKey.protect.subjectHandle encryptedPrivateKey.protect.kid sshFpr)
  let keyIdentity ← lift (identityFromPublicKey publicKey)
  pure {
    privateKey := privateKey
    keyIdentity := keyIdentity
    privateExpiresAt := encryptedPrivateKey.protect.expiresAt
    publicExpiresAt := publicKey.protect.expiresAt }

end Loading

variable {C : Crypto}

/-! ## What the material check says -/

/-- A shaped key pair is read as its two halves. -/
theorem parseOkpKey_ok {kty crv expectedCrv d x label : String} {dBytes xBytes : Bytes} :
    parseOkpKey kty crv expectedCrv d x label = .ok (dBytes, xBytes)
      ↔ kty = "OKP" ∧ crv = expectedCrv ∧ (d = encodeBase64urlNopad dBytes ∧ dBytes.length = 32)
        ∧ x = encodeBase64urlNopad xBytes ∧ xBytes.length = 32 := by
  rw [parseOkpKey]
  by_cases hkty : kty = "OKP"
  · rw [if_neg (not_not_intro hkty)]
    by_cases hcrv : crv = expectedCrv
    · rw [if_neg (not_not_intro hcrv), decodeBase64urlNopadSecret32, decodeSecretArray_eq]
      constructor
      · intro h
        obtain ⟨d', hd, h⟩ := bind_eq_ok.mp h
        obtain ⟨x', hx, h⟩ := bind_eq_ok.mp h
        obtain ⟨rfl, rfl⟩ := Prod.mk.inj (Except.ok.inj h)
        exact ⟨hkty, hcrv, decodeBase64urlNopadArray_iff.mp hd, decodeBase64urlNopadArray_iff.mp hx⟩
      · rintro ⟨_, _, hd, hx⟩
        exact bind_eq_ok.mpr ⟨_, decodeBase64urlNopadArray_iff.mpr hd,
          bind_eq_ok.mpr ⟨_, decodeBase64urlNopadArray_iff.mpr hx, rfl⟩⟩
    · rw [if_pos hcrv]
      exact iff_of_false (fun h => by cases h) fun h => hcrv h.2.1
  · rw [if_pos hkty]
    exact iff_of_false (fun h => by cases h) fun h => hkty h.1

theorem verifyConsistency_ok {derive : Bytes → Bytes} {algorithm : String} {d x : Bytes} :
    verifyConsistency derive algorithm d x = .ok () ↔ derive d = x := by
  rw [verifyConsistency]
  by_cases h : derive d = x
  · rw [if_neg (not_not_intro h)]
    exact iff_of_true rfl h
  · rw [if_pos h]
    exact iff_of_false (fun h => by cases h) h

/-- The public halves have the size of a key. -/
structure KeySizes (C : Crypto) : Prop where
  kemPublic : ∀ sk : FixedBytes 32, (C.kemPublic sk.bytes).length = 32
  verifyingKey : ∀ sk : FixedBytes 32, (C.verifyingKey sk.bytes).length = 32

/-- **CHECKED KEYS ARE THOSE THAT TWO SECRETS MAKE**, and no others. -/
theorem verifyPrivateKeyMaterial_iff (hsizes : KeySizes C) {plaintext : PrivateKeyPlaintext} :
    verifyPrivateKeyMaterial C plaintext = .ok ()
      ↔ ∃ kemSk sigSk, plaintext = buildPrivateKeyPlaintext C kemSk sigSk := by
  constructor
  · intro h
    obtain ⟨⟨kemD, kemX⟩, hkem, h⟩ := bind_eq_ok.mp h
    obtain ⟨⟨⟩, hkemSame, h⟩ := bind_eq_ok.mp h
    obtain ⟨⟨sigD, sigX⟩, hsig, hsigSame⟩ := bind_eq_ok.mp h
    obtain ⟨hkty, hcrv, ⟨hkemText, hkemSize⟩, hkemPublic, _⟩ := parseOkpKey_ok.mp hkem
    obtain ⟨hkty', hcrv', ⟨hsigText, hsigSize⟩, hsigPublic, _⟩ := parseOkpKey_ok.mp hsig
    obtain rfl := verifyConsistency_ok.mp hkemSame
    obtain rfl := verifyConsistency_ok.mp hsigSame
    refine ⟨⟨kemD, hkemSize⟩, ⟨sigD, hsigSize⟩, ?_⟩
    obtain ⟨⟨⟨kty, crv, x, d⟩, ⟨kty', crv', x', d'⟩⟩⟩ := plaintext
    obtain rfl : kty = "OKP" := hkty
    obtain rfl : kty' = "OKP" := hkty'
    obtain rfl : crv = "X25519" := hcrv
    obtain rfl : crv' = "Ed25519" := hcrv'
    obtain rfl : d = encodeBase64urlNopad kemD := hkemText
    obtain rfl : d' = encodeBase64urlNopad sigD := hsigText
    obtain rfl : x = encodeBase64urlNopad (C.kemPublic kemD) := hkemPublic
    obtain rfl : x' = encodeBase64urlNopad (C.verifyingKey sigD) := hsigPublic
    rw [← encodeSecretBytes_eq kemD, ← encodeSecretBytes_eq sigD]
    rfl
  · rintro ⟨kemSk, sigSk, rfl⟩
    have hkem : parseOkpKey "OKP" "X25519" "X25519" (encodeBase64urlNopadSecret32 kemSk)
        (encodeBase64urlNopad (C.kemPublic kemSk.bytes)) "KEM"
        = .ok (kemSk.bytes, C.kemPublic kemSk.bytes) :=
      parseOkpKey_ok.mpr ⟨rfl, rfl, ⟨encodeSecretBytes_eq kemSk.bytes, kemSk.size⟩, rfl,
        hsizes.kemPublic kemSk⟩
    have hsig : parseOkpKey "OKP" "Ed25519" "Ed25519" (encodeBase64urlNopadSecret32 sigSk)
        (encodeBase64urlNopad (C.verifyingKey sigSk.bytes)) "Sig"
        = .ok (sigSk.bytes, C.verifyingKey sigSk.bytes) :=
      parseOkpKey_ok.mpr ⟨rfl, rfl, ⟨encodeSecretBytes_eq sigSk.bytes, sigSk.size⟩, rfl,
        hsizes.verifyingKey sigSk⟩
    exact bind_eq_ok.mpr ⟨_, hkem, bind_eq_ok.mpr ⟨(), verifyConsistency_ok.mpr rfl,
      bind_eq_ok.mpr ⟨_, hsig, verifyConsistency_ok.mpr rfl⟩⟩⟩

theorem decodeSecret32_encode (sk : FixedBytes 32) (fieldName : String) :
    decodeBase64urlNopadSecret32 (encodeBase64urlNopadSecret32 sk) fieldName = .ok sk.bytes := by
  rw [decodeBase64urlNopadSecret32, decodeSecretArray_eq]
  exact decodeBase64urlNopadArray_iff.mpr ⟨encodeSecretBytes_eq sk.bytes, sk.size⟩

/-- **THE SECRETS OF CHECKED KEYS** are found in them. -/
theorem VerifiedPrivateKey.secrets (hsizes : KeySizes C) (privateKey : VerifiedPrivateKey C) :
    ∃ kemSk sigSk, privateKey.document = buildPrivateKeyPlaintext C kemSk sigSk
      ∧ decodeKemSecretKey C privateKey = .ok kemSk.bytes
      ∧ buildSigningKey privateKey.document = .ok sigSk.bytes := by
  obtain ⟨kemSk, sigSk, heq⟩ := (verifyPrivateKeyMaterial_iff hsizes).mp privateKey.verified
  refine ⟨kemSk, sigSk, heq, ?_, ?_⟩
  · rw [decodeKemSecretKey, heq]
    exact decodeSecret32_encode kemSk _
  · rw [buildSigningKey, heq]
    exact decodeSecret32_encode sigSk _

/-- The keys of two secrets pass the check, and the secrets are found in them. -/
theorem VerifiedPrivateKey.new_build (hsizes : KeySizes C) (kemSk sigSk : FixedBytes 32)
    (proof : DecryptionProof) :
    ∃ privateKey, VerifiedPrivateKey.new C (buildPrivateKeyPlaintext C kemSk sigSk) proof
        = .ok privateKey
      ∧ privateKey.document = buildPrivateKeyPlaintext C kemSk sigSk ∧ privateKey.proof = proof
      ∧ decodeKemSecretKey C privateKey = .ok kemSk.bytes
      ∧ buildSigningKey privateKey.document = .ok sigSk.bytes := by
  have hverified := (verifyPrivateKeyMaterial_iff hsizes).mpr ⟨kemSk, sigSk, rfl⟩
  exact ⟨⟨_, proof, hverified⟩, dif_pos hverified, rfl, rfl, decodeSecret32_encode kemSk _,
    decodeSecret32_encode sigSk _⟩

/-! ## What was protected comes back -/

/-- What an SSH protection drew, signed and encrypted. -/
theorem encryptPrivateKey_ok {params : PrivateKeyEncryptionParams}
    {material : FreshPrivateKeyProtectionMaterial} {privateKey : PrivateKey}
    (h : encryptPrivateKey C params material = .ok privateKey) :
    ∃ rawSig, params.backend.signSshsig 0 keyProtectionNamespace params.sshPubkey
        (utf8 (buildSignMessage material.ikmSaltB64)) = .ok rawSig
      ∧ privateKey.protect = buildPrivateKeyProtected
        ⟨params.memberHandle, params.kid, params.createdAt, params.expiresAt⟩
        (buildSshsigAlgorithm params.sshFpr material)
      ∧ encryptPrivateKeyPlaintext C params.plaintext
        (deriveKeyFromRawSignature C params.kid rawSig material.hkdfSalt.bytes) privateKey.protect
        material.nonce = .ok privateKey.encrypted := by
  obtain ⟨encKey, hkey, h⟩ := bind_eq_ok.mp h
  obtain ⟨encrypted, hencrypted, h⟩ := bind_eq_ok.mp h
  obtain rfl := Except.ok.inj h
  obtain ⟨rawSig, hsig, hkey⟩ := bind_eq_ok.mp hkey
  obtain rfl := Except.ok.inj hkey
  obtain ⟨sig1, hsig1, hsig⟩ := bind_eq_ok.mp (mapError_ok.mp hsig)
  obtain ⟨sig2, _, hsig⟩ := bind_eq_ok.mp hsig
  split at hsig
  · cases hsig
  · obtain rfl := Except.ok.inj hsig
    exact ⟨sig1, hsig1, rfl, lift_ok.mp hencrypted⟩

/-- The plaintext fits into the limit on a ciphertext. -/
def Fits (plaintext : PrivateKeyPlaintext) : Prop :=
  computeEncodedLen (plaintext.toBytes.length + 16) ≤ maxBase64CiphertextLength

/-- The bytes of a key pair of two texts of 45 bytes, quotes included. -/
theorem size_jwkPrivate {k : JwkOkpPrivateKey} (hx : stringSize k.x = 45)
    (hd : stringSize k.d = 45) :
    jsonSize k.toJson = 115 + stringSize k.kty + stringSize k.crv := by
  have hkty : stringSize "kty" = 5 := by decide
  have hcrv : stringSize "crv" = 5 := by decide
  have hxName : stringSize "x" = 3 := by decide
  have hdName : stringSize "d" = 3 := by decide
  rw [JwkOkpPrivateKey.toJson, jsonSize_obj (List.cons_ne_nil _ _)]
  simp only [membersSize, jsonSize_str, hkty, hcrv, hxName, hdName, hx, hd]
  omega

/-- The keys of two secrets are short. -/
theorem size_buildPrivateKeyPlaintext (hsizes : KeySizes C) (kemSk sigSk : FixedBytes 32) :
    (buildPrivateKeyPlaintext C kemSk sigSk).toBytes.length ≤ 400 := by
  have h32 : ∀ {data : Bytes}, data.length = 32 → stringSize (encodeBase64urlNopad data) = 45 := by
    intro data hsize
    rw [stringSize_encode, hsize]
    rfl
  have hsecret : ∀ sk : FixedBytes 32, stringSize (encodeBase64urlNopadSecret32 sk) = 45 := by
    intro sk
    rw [show encodeBase64urlNopadSecret32 sk = encodeBase64urlNopad sk.bytes from
      encodeSecretBytes_eq sk.bytes]
    exact h32 sk.size
  have hkem := size_jwkPrivate (k := (buildPrivateKeyPlaintext C kemSk sigSk).keys.kem)
    (h32 (hsizes.kemPublic kemSk)) (hsecret kemSk)
  have hsig := size_jwkPrivate (k := (buildPrivateKeyPlaintext C kemSk sigSk).keys.sig)
    (h32 (hsizes.verifyingKey sigSk)) (hsecret sigSk)
  have hkeys : stringSize "keys" = 6 := by decide
  have hkemName : stringSize "kem" = 5 := by decide
  have hsigName : stringSize "sig" = 5 := by decide
  have hkty : stringSize "OKP" = 5 := by decide
  have hx25519 : stringSize "X25519" = 8 := by decide
  have hed25519 : stringSize "Ed25519" = 9 := by decide
  rw [PrivateKeyPlaintext.toBytes, utf8_length, utf8ByteSize_ofList, charsSize_textAt,
    PrivateKeyPlaintext.toJson, jsonSize_obj (List.cons_ne_nil _ _),
    IdentityKeysPrivate.toJson]
  simp only [membersSize, jsonSize, hkeys, hkemName, hsigName, hkem, hsig]
  simp only [buildPrivateKeyPlaintext, hkty, hx25519, hed25519]
  decide

/-- They always fit. -/
theorem fits_buildPrivateKeyPlaintext (hsizes : KeySizes C) (kemSk sigSk : FixedBytes 32) :
    Fits (buildPrivateKeyPlaintext C kemSk sigSk) := by
  have hsize := size_buildPrivateKeyPlaintext hsizes kemSk sigSk
  rw [Fits, computeEncodedLen_eq, maxBase64CiphertextLength]
  omega

/-- **THE SAME SIGNATURE UNLOCKS** what was protected with an SSH key. -/
theorem decryptPrivateKey_enrolled (hC : Lawful C) {params : PrivateKeyEncryptionParams}
    {material : FreshPrivateKeyProtectionMaterial} {privateKey : PrivateKey}
    (h : encryptPrivateKey C params material = .ok privateKey) (hfits : Fits params.plaintext)
    (hfpr : buildSha256Fingerprint C params.sshPubkey = .ok params.sshFpr)
    {backend : SignatureBackend}
    (hsame : backend.signSshsig 0 keyProtectionNamespace params.sshPubkey
        (utf8 (buildSignMessage material.ikmSaltB64))
      = params.backend.signSshsig 0 keyProtectionNamespace params.sshPubkey
        (utf8 (buildSignMessage material.ikmSaltB64))) :
    decryptPrivateKey C privateKey backend params.sshPubkey = .ok params.plaintext := by
  obtain ⟨rawSig, hsig, hprotect, hencrypted⟩ := encryptPrivateKey_ok h
  obtain ⟨protect, encrypted⟩ := privateKey
  obtain rfl : protect = _ := hprotect
  obtain ⟨ciphertext, hdecode, hdecrypt⟩ := bind_eq_ok.mp
    (decrypt_encryptPrivateKey hC hfits hencrypted)
  have hderive : deriveKeyForPrivateKeyUse C params.kid material.ikmSaltB64 material.hkdfSalt.bytes
      backend params.sshPubkey
      = .ok ⟨deriveKeyFromRawSignature C params.kid rawSig material.hkdfSalt.bytes, rawSig⟩ :=
    bind_eq_ok.mpr ⟨rawSig, hsame.trans hsig, rfl⟩
  refine bind_eq_ok.mpr ⟨(), ?_, bind_eq_ok.mpr ⟨(), ?_, bind_eq_ok.mpr
    ⟨_, lift_ok.mpr (material.hkdfSalt.decode_encode _), bind_eq_ok.mpr
      ⟨_, lift_ok.mpr hdecode, bind_eq_ok.mpr ⟨_, hderive, ?_⟩⟩⟩⟩⟩
  · exact lift_ok.mpr (if_pos rfl)
  · exact bind_eq_ok.mpr ⟨_, hfpr, if_pos rfl⟩
  · dsimp only
    rw [hdecrypt]
    rfl

/-- **WHY A KEY STAYS LOCKED**: the signer is blamed exactly when it has signed the same message in
    two ways; else it is the key. -/
theorem decryptPrivateKey_refused {privateKey : PrivateKey} {backend : SignatureBackend}
    {sshPubkey : String} {hkdfSalt : Bytes} {ciphertext : PrivateKeyCiphertextParams}
    {rawSig retrySig : FixedBytes 64} {e : Error}
    (halg : validateSshProtectionAlgorithm privateKey = .ok ())
    (hfpr : verifySshFingerprintMatches C privateKey sshPubkey = .ok ())
    (hsalt : decodeHkdfSalt privateKey = .ok hkdfSalt)
    (hdecode : decodeCiphertextParams privateKey = .ok ciphertext)
    (hsig : backend.signSshsig 0 keyProtectionNamespace sshPubkey
      (utf8 (buildSignMessage (ikmSaltOf privateKey.protect.alg))) = .ok rawSig)
    (hretry : backend.signSshsig 1 keyProtectionNamespace sshPubkey
      (utf8 (buildSignMessage (ikmSaltOf privateKey.protect.alg))) = .ok retrySig)
    (hlocked : decryptPrivateKeyPlaintext C
      (deriveKeyFromRawSignature C privateKey.protect.kid rawSig hkdfSalt) ciphertext = .error e) :
    decryptPrivateKey C privateKey backend sshPubkey
      = .error (if retrySig ≠ rawSig then nonDeterministicSignatureError
        else buildPrivateKeyDecryptError) := by
  have hderive : deriveKeyForPrivateKeyUse C privateKey.protect.kid
      (ikmSaltOf privateKey.protect.alg) hkdfSalt backend sshPubkey
      = .ok ⟨deriveKeyFromRawSignature C privateKey.protect.kid rawSig hkdfSalt, rawSig⟩ :=
    bind_eq_ok.mpr ⟨rawSig, hsig, rfl⟩
  have hsalt' : lift (decodeHkdfSalt privateKey) = .ok hkdfSalt := lift_ok.mpr hsalt
  have hdecode' : lift (decodeCiphertextParams privateKey) = .ok ciphertext := lift_ok.mpr hdecode
  rw [decryptPrivateKey, halg, hfpr, hsalt', hdecode']
  dsimp only [bind, Except.bind]
  rw [hderive]
  dsimp only
  rw [hlocked]
  dsimp only
  rw [enforcePrivateKeyUseSignatureDeterminism, hretry]
  by_cases hsame : retrySig ≠ rawSig
  · simp only [bind, Except.bind, if_pos hsame]
  · simp only [bind, Except.bind, if_neg hsame]
    rfl

/-- **THE PASSWORD UNLOCKS** what was protected with it. -/
theorem decryptPrivateKeyWithPassword_encrypted (hC : Lawful C) {argon2id : Argon2id}
    {plaintext : PrivateKeyPlaintext} {metadata : PrivateKeyProtectionMetadata} {password : String}
    {material : FreshPrivateKeyProtectionMaterial} {privateKey : PrivateKey}
    (h : encryptPrivateKeyWithPassword C argon2id plaintext metadata password material
      = .ok privateKey) (hfits : Fits plaintext) :
    privateKey.protect = buildPrivateKeyProtected metadata (buildArgon2idAlgorithm material)
      ∧ decryptPrivateKeyWithPassword C argon2id privateKey password = .ok plaintext := by
  obtain ⟨encKey, hkey, h⟩ := bind_eq_ok.mp h
  obtain ⟨encrypted, hencrypted, h⟩ := bind_eq_ok.mp h
  obtain rfl := Except.ok.inj h
  obtain ⟨ciphertext, hdecode, hdecrypt⟩ := bind_eq_ok.mp
    (decrypt_encryptPrivateKey hC hfits hencrypted)
  have halg : validatePasswordProtectionAlgorithm
      ⟨buildPrivateKeyProtected metadata (buildArgon2idAlgorithm material), encrypted⟩
      = .ok () := rfl
  refine ⟨rfl, bind_eq_ok.mpr ⟨(), halg, bind_eq_ok.mpr
    ⟨_, material.ikmSalt.decode_encode _, bind_eq_ok.mpr ⟨_, material.hkdfSalt.decode_encode _,
      bind_eq_ok.mpr ⟨_, hdecode, bind_eq_ok.mpr ⟨_, hkey, mapError_ok.mpr hdecrypt⟩⟩⟩⟩⟩⟩

end KeyUnlock
