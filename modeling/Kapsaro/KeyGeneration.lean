import Kapsaro.KeyDocuments
import Kapsaro.KeystoreChanges
import Kapsaro.KeyUnlock
import Kapsaro.MemberRuns

/-!
# Key generation — a new pair of documents, and what it is good for

`feature/key/generate.rs`, `feature/key/public_key_document.rs`, `feature/key/material.rs` and the
signing context of `service/ssh.rs`: two drawn secrets become a key statement, attested by an SSH
key, and a private key document that the same SSH key unlocks.

* **`buildSshSigningContext`** — an SSH key, asked whether it signs the same message the same way.
* **`buildPublicKey`**, **`buildAttestation`** — the statement: its kid, its signatures.
* **`generateKey`** — both documents.
* **`accepted_iff`** — others accept the statement exactly if the SSH key has signed it.
* **`generatedKeyLaws`** — a generated pair agrees with itself, is read back from the files it is
  written to, is unlocked by whoever signs the same, and opens what is sealed for it.
-/

namespace KeyGeneration

open Limits TextLines JsonText JsonMembers JsonRecords JsonLimits WireTexts WireModel
open DocumentTokens TokenRecords Base64Codec Base64Variants SignedArtifacts KeyProtection KidTexts
open SshWire KeyAttestation TrustJudgment KeystoreChanges MemberStore KeyUnlock KeyDocuments
open Envelope hiding PrivateKey

/-! ## The SSH key -/

/-- Whether an SSH key signs the same message the same way. -/
inductive SshDeterminismStatus where
  | verified
  | skipped
  | failed (message : String)
deriving DecidableEq

/-- An SSH key a pair is generated with. -/
structure SshBindingContext where
  publicKey : String
  fingerprint : String
  backend : SignatureBackend
  determinism : SshDeterminismStatus

def sshsigMessageDeterminismCheckV1 : String := "kapsaro:sshsig:determinism-check@1"

def isNonDeterministicSignatureError (error : KeyError) : Bool :=
  decide (nonDeterministicSignatureMessage.toList <:+: error.display.toList)

def checkDeterminismStatus (enabled : Bool) (backend : SignatureBackend) (publicKey : String) :
    Except KeyError SshDeterminismStatus :=
  if !enabled then .ok .skipped
  else
    match backend.signSshsigDeterministic keyProtectionNamespace publicKey
      (utf8 sshsigMessageDeterminismCheckV1) with
    | .ok _ => .ok .verified
    | .error error =>
      if isNonDeterministicSignatureError error then
        .ok (.failed ("SSH signature determinism check failed.\n" ++
          "A deterministic SSH key is required for key generation."))
      else .error error

def validateEd25519Key (publicKey : String) : Except Error Unit :=
  let keyType := (splitWhitespace publicKey.toList).head?
  if keyType = some keyTypeEd25519.toList then .ok ()
  else .error (.invalidArgument (s!"Only Ed25519 SSH keys are supported. Got: " ++
    (keyType.elim "unknown" String.ofList)))

section Generation

variable (C : Crypto)

/-- The signing context of a selected SSH key; the check takes two requests. -/
def buildSshSigningContext (backend : SignatureBackend) (selectedPublicKey : String)
    (checkDeterminism : Bool) : Except KeyError SshBindingContext := do
  lift (validateEd25519Key selectedPublicKey)
  let fingerprint ← buildSha256Fingerprint C selectedPublicKey
  let determinism ← checkDeterminismStatus checkDeterminism backend selectedPublicKey
  pure {
    publicKey := selectedPublicKey
    fingerprint := fingerprint
    backend := if checkDeterminism then backend.after 2 else backend
    determinism := determinism }

/-! ## The documents -/

/-- What a key is generated for. -/
structure KeyGenerationOptions where
  memberHandle : String
  createdAt : String
  expiresAt : String
  githubAccount : Option GithubAccount
  sshBinding : SshBindingContext

/-- The secrets that were drawn. -/
structure KeypairMaterial where
  kemSk : FixedBytes 32
  sigSk : FixedBytes 32

def buildIdentityKeys (material : KeypairMaterial) : IdentityKeys where
  kem := {
    kty := "OKP"
    crv := "X25519"
    x := encodeBase64urlNopad (C.kemPublic material.kemSk.bytes) }
  sig := {
    kty := "OKP"
    crv := "Ed25519"
    x := encodeBase64urlNopad (C.verifyingKey material.sigSk.bytes) }

def buildBindingClaims (githubAccount : Option GithubAccount) : Option BindingClaims :=
  githubAccount.map fun account => ⟨some account⟩

/-- What the SSH key attests. -/
def attestedInput (options : KeyGenerationOptions) (material : KeypairMaterial) :
    AttestationBodyInput where
  subjectHandle := options.memberHandle
  keys := buildIdentityKeys C material
  bindingClaims := buildBindingClaims options.githubAccount
  createdAt := some options.createdAt
  expiresAt := options.expiresAt

def attestationSigningError : KeyError → KeyError
  | .ssh .outOfBounds => .ssh .outOfBounds
  | error => .ssh (.failed (.operationFailed s!"Failed to sign attestation: {error.display}"))

/-- Have the SSH key sign the fields of a statement. -/
def buildAttestation (sshBinding : SshBindingContext) (input : AttestationBodyInput) :
    Except KeyError Attestation := do
  let body ← lift (buildAttestationBodyBytes input)
  let rawSig ← (sshBinding.backend.signSshsig 0 attestationNamespace sshBinding.publicKey
    body).mapError attestationSigningError
  pure {
    method := attestationMethodSshSign
    pub := sshBinding.publicKey
    sig := encodeBase64urlNopad rawSig.bytes }

/-- The members of a statement before it has a kid. -/
def publicKeyProtectedWithoutKid (input : AttestationBodyInput) (attestation : Attestation) :
    Json :=
  .obj ([("format", .str publicKeyV1), ("subject_handle", .str input.subjectHandle),
      ("keys", input.keys.toJson)]
    ++ optionalMember "binding_claims" BindingClaims.toJson input.bindingClaims
    ++ [("attestation", attestation.toJson), ("expires_at", .str input.expiresAt)]
    ++ optionalMember "created_at" .str input.createdAt)

/-- The statement under its kid, signed by its own key. -/
def buildPublicKey (input : AttestationBodyInput) (attestation : Attestation)
    (sigSk : FixedBytes 32) : Except Error PublicKey := do
  let derivedKid ← derivePublicKeyKid C (publicKeyProtectedWithoutKid input attestation)
  let protect : PublicKeyProtected := {
    format := publicKeyV1
    subjectHandle := input.subjectHandle
    kid := derivedKid
    keys := input.keys
    bindingClaims := input.bindingClaims
    attestation := attestation
    expiresAt := input.expiresAt
    createdAt := input.createdAt }
  let protectedJcs ← jcsNormalize protect.toJson
  pure { protect, signature := encodeBase64urlNopad (C.sign sigSk.bytes protectedJcs).bytes }

def buildPublicKeyDocument (options : KeyGenerationOptions) (material : KeypairMaterial) :
    Except KeyError PublicKey := do
  let input := attestedInput C options material
  let attestation ← buildAttestation options.sshBinding input
  lift (buildPublicKey C input attestation material.sigSk)

/-- What the private half is encrypted with; the attestation took one request. -/
def encryptionParams (options : KeyGenerationOptions) (material : KeypairMaterial) (kid : String) :
    PrivateKeyEncryptionParams where
  plaintext := buildPrivateKeyPlaintext C material.kemSk material.sigSk
  memberHandle := options.memberHandle
  kid := kid
  backend := options.sshBinding.backend.after 1
  sshPubkey := options.sshBinding.publicKey
  sshFpr := options.sshBinding.fingerprint
  createdAt := options.createdAt
  expiresAt := options.expiresAt

def ensureDeterminism : SshDeterminismStatus → Except Error Unit
  | .verified => .ok ()
  | .skipped =>
    .error (.crypto "SSH determinism check was not performed; key generation requires it")
  | .failed message => .error (.crypto message)

/-- A generated pair, before it is stored. -/
structure KeyGenerationResult where
  memberHandle : String
  kid : String
  expiresAt : String
  privateKey : PrivateKey
  publicKey : PublicKey
  sshFingerprint : String
  sshDeterminism : SshDeterminismStatus

/-- Generate a key: the statement first, since its kid goes into the private half. -/
def generateKey (options : KeyGenerationOptions) (material : KeypairMaterial)
    (fresh : FreshPrivateKeyProtectionMaterial) : Except KeyError KeyGenerationResult := do
  lift (ensureDeterminism options.sshBinding.determinism)
  -- the kid is derived from the public half, and the private half is bound to it
  let publicKey ← buildPublicKeyDocument C options material
  let privateKey ← encryptPrivateKey C
    (encryptionParams C options material publicKey.protect.kid) fresh
  pure {
    memberHandle := options.memberHandle
    kid := publicKey.protect.kid
    expiresAt := options.expiresAt
    privateKey := privateKey
    publicKey := publicKey
    sshFingerprint := options.sshBinding.fingerprint
    sshDeterminism := options.sshBinding.determinism }

end Generation

variable {C : Crypto} {P : Platform} {errors : SignatureErrors}

/-! ## What generation calls -/

/-- The public halves are keys of 32 bytes. -/
structure KeyHalves (C : Crypto) : Prop extends KeySizes C where
  isVerifyingKey : ∀ sk : FixedBytes 32, C.isVerifyingKey (C.verifyingKey sk.bytes) = true

/-- A statement, from the answer of its SSH key to its own signature. -/
structure BuiltStatement (C : Crypto) (options : KeyGenerationOptions)
    (material : KeypairMaterial) (body : Bytes) (rawSig : FixedBytes 64) (publicKey : PublicKey) :
    Prop where
  attested : jcsNormalize (attestedInput C options material).toJson = .ok body
  answered : options.sshBinding.backend.signSshsig 0 attestationNamespace
    options.sshBinding.publicKey body = .ok rawSig
  protect : publicKey.protect = {
    format := publicKeyV1
    subjectHandle := options.memberHandle
    kid := publicKey.protect.kid
    keys := buildIdentityKeys C material
    bindingClaims := buildBindingClaims options.githubAccount
    attestation := ⟨attestationMethodSshSign, options.sshBinding.publicKey,
      encodeBase64urlNopad rawSig.bytes⟩
    expiresAt := options.expiresAt
    createdAt := some options.createdAt }
  kid : derivePublicKeyKid C (removeMember "kid" publicKey.protect.toJson)
    = .ok publicKey.protect.kid
  signed : ∃ message, jcsNormalize publicKey.protect.toJson = .ok message
    ∧ publicKey.signature = encodeBase64urlNopad (C.sign material.sigSk.bytes message).bytes

/-- The kid is derived from the statement without it. -/
theorem removeMember_kid (p : PublicKeyProtected) (hformat : p.format = publicKeyV1) :
    removeMember "kid" p.toJson
      = publicKeyProtectedWithoutKid (attestationInput p) p.attestation := by
  obtain ⟨format, handle, kid, keys, claims, attestation, expires, created⟩ := p
  obtain rfl : format = publicKeyV1 := hformat
  cases claims <;> cases created <;> rfl

/-- What generating a pair calls, and in which order. -/
theorem generateKey_ok {options : KeyGenerationOptions} {material : KeypairMaterial}
    {fresh : FreshPrivateKeyProtectionMaterial} {result : KeyGenerationResult}
    (h : generateKey C options material fresh = .ok result) :
    options.sshBinding.determinism = .verified
      ∧ (∃ body rawSig, BuiltStatement C options material body rawSig result.publicKey)
      ∧ result.kid = result.publicKey.protect.kid
      ∧ encryptPrivateKey C (encryptionParams C options material result.kid) fresh
        = .ok result.privateKey := by
  obtain ⟨⟨⟩, hdeterminism, h⟩ := bind_eq_ok.mp h
  obtain ⟨publicKey, hpublic, h⟩ := bind_eq_ok.mp h
  obtain ⟨privateKey, hprivate, h⟩ := bind_eq_ok.mp h
  obtain rfl := Except.ok.inj h
  obtain ⟨attestation, hattestation, hpublic⟩ := bind_eq_ok.mp hpublic
  obtain ⟨body, hbody, hattestation⟩ := bind_eq_ok.mp hattestation
  obtain ⟨rawSig, hsig, hattestation⟩ := bind_eq_ok.mp hattestation
  obtain rfl := Except.ok.inj hattestation
  obtain ⟨kid, hkid, hpublic⟩ := bind_eq_ok.mp (lift_ok.mp hpublic)
  obtain ⟨message, hmessage, hpublic⟩ := bind_eq_ok.mp hpublic
  obtain rfl := Except.ok.inj hpublic
  refine ⟨?_, ⟨body, rawSig, lift_ok.mp hbody, mapError_ok.mp hsig, rfl, ?_, message,
    hmessage, rfl⟩, rfl, hprivate⟩
  · cases hstatus : options.sshBinding.determinism with
    | verified => rfl
    | skipped =>
      rw [hstatus] at hdeterminism
      cases hdeterminism
    | failed message =>
      rw [hstatus] at hdeterminism
      cases hdeterminism
  · rw [removeMember_kid _ rfl]
    exact hkid

/-! ## Acceptance -/

/-- The SSH key has signed what it was asked to attest. -/
def Attests (C : Crypto) (P : Platform) (errors : SignatureErrors) (options : KeyGenerationOptions)
    (material : KeypairMaterial) : Prop :=
  ∃ body signedData rawSig verifyingKey,
    jcsNormalize (attestedInput C options material).toJson = .ok body
    ∧ buildSshsigSignedData C body attestationNamespace = .ok signedData
    ∧ options.sshBinding.backend.signSshsig 0 attestationNamespace options.sshBinding.publicKey body
      = .ok rawSig
    ∧ extractEd25519PubkeyFromSsh C P errors options.sshBinding.publicKey = .ok verifyingKey
    ∧ C.verifyStrict verifyingKey signedData rawSig.bytes = true

/-- A built statement passes its own check. -/
theorem BuiltStatement.selfSigned {options : KeyGenerationOptions} {material : KeypairMaterial}
    {body : Bytes} {rawSig : FixedBytes 64} {publicKey : PublicKey} (hC : Lawful C)
    (hkeys : KeyHalves C) (h : BuiltStatement C options material body rawSig publicKey) :
    verifyPublicKeySelfSignature C publicKey = .ok (C.verifyingKey material.sigSk.bytes) := by
  obtain ⟨message, hmessage, hsignature⟩ := h.signed
  have hkey : publicKey.protect.keys = buildIdentityKeys C material := by rw [h.protect]
  have hkid : verifyDerivedKid C publicKey = .ok () :=
    bind_eq_ok.mpr ⟨_, h.kid, if_neg (not_not_intro rfl)⟩
  have hx : decodeBase64urlNopadArray 32 publicKey.protect.keys.sig.x "Ed25519 public key"
      = .ok (C.verifyingKey material.sigSk.bytes) := by
    rw [hkey]
    exact decodeBase64urlNopadArray_iff.mpr ⟨rfl, hkeys.verifyingKey material.sigSk⟩
  have hsig : decodeBase64urlNopad publicKey.signature "signature"
      = .ok (C.sign material.sigSk.bytes message).bytes := by
    rw [hsignature]
    exact decodeBase64url_encode _ _ _ (by rw [FixedBytes.size]; decide)
  refine bind_eq_ok.mpr ⟨(), hkid, bind_eq_ok.mpr ⟨message, mapError_ok.mpr hmessage,
    bind_eq_ok.mpr ⟨_, hx, throwIf_ok.mpr ⟨?_, bind_eq_ok.mpr ⟨_, mapError_ok.mpr hsig,
      throwIf_ok.mpr ⟨?_, throwIf_ok.mpr ⟨?_, rfl⟩⟩⟩⟩⟩⟩⟩
  · rw [hkeys.isVerifyingKey]
    decide
  · exact not_not_intro (FixedBytes.size _)
  · rw [hC.verify_sign]
    decide

/-- **OTHERS ACCEPT A GENERATED STATEMENT** exactly if the SSH key has signed it. -/
theorem BuiltStatement.accepted_iff {options : KeyGenerationOptions} {material : KeypairMaterial}
    {body : Bytes} {rawSig : FixedBytes 64} {publicKey : PublicKey} (hC : Lawful C)
    (hkeys : KeyHalves C) (h : BuiltStatement C options material body rawSig publicKey) :
    Accepted C P errors publicKey ↔ Attests C P errors options material := by
  have hinput : attestationInput publicKey.protect = attestedInput C options material := by
    rw [h.protect]
    rfl
  have hattestation : publicKey.protect.attestation = ⟨attestationMethodSshSign,
      options.sshBinding.publicKey, encodeBase64urlNopad rawSig.bytes⟩ := by rw [h.protect]
  constructor
  · rintro ⟨verifyingKey, haccepted⟩
    obtain ⟨_, _, haccepted⟩ := bind_eq_ok.mp haccepted
    obtain ⟨⟨⟩, hattested, _⟩ := bind_eq_ok.mp haccepted
    rw [hinput, hattestation] at hattested
    obtain ⟨_, body', signedData, sig, sshKey, hbody, hdata, hsig, hkey, hverify⟩ :=
      verifyAttestation_ok (mapError_ok.mp hattested)
    obtain rfl := Except.ok.inj (h.attested.symm.trans hbody)
    obtain rfl := Except.ok.inj ((rawSig.decode_encode _).symm.trans hsig)
    exact ⟨body, signedData, rawSig, sshKey, h.attested, hdata, h.answered, hkey, hverify⟩
  · rintro ⟨body', signedData, rawSig', sshKey, hbody, hdata, hanswer, hkey, hverify⟩
    obtain rfl := Except.ok.inj (h.attested.symm.trans hbody)
    obtain rfl : rawSig = rawSig' := Except.ok.inj (h.answered.symm.trans hanswer)
    refine ⟨_, bind_eq_ok.mpr ⟨_, mapError_ok.mpr (h.selfSigned hC hkeys),
      bind_eq_ok.mpr ⟨(), mapError_ok.mpr ?_, rfl⟩⟩⟩
    rw [hinput, hattestation, verifyAttestation, if_neg (not_not_intro rfl)]
    have hsigned : buildAttestationSignedData C (attestedInput C options material)
        = .ok signedData := bind_eq_ok.mpr ⟨body, mapError_ok.mpr hbody, hdata⟩
    have hdecoded : decodeAttestationSignature (encodeBase64urlNopad rawSig.bytes)
        = .ok rawSig.bytes := mapError_ok.mpr (rawSig.decode_encode _)
    refine bind_eq_ok.mpr ⟨_, liftSsh_ok.mpr hsigned, bind_eq_ok.mpr
      ⟨_, liftSsh_ok.mpr hdecoded, bind_eq_ok.mpr ⟨_, hkey, if_neg ?_⟩⟩⟩
    rw [hverify]
    decide

/-! ## What is stored -/

/-- What has been checked before a key is generated. -/
structure KeyGenerationOptions.WellFormed (options : KeyGenerationOptions) : Prop where
  memberHandle : isMemberHandleText options.memberHandle = true
  createdAt : isIso8601Text options.createdAt = true
  expiresAt : isIso8601Text options.expiresAt = true
  githubAccount : options.githubAccount.all GithubAccount.wellFormed = true
  publicKey : isSingleLine 4096 options.sshBinding.publicKey = true

/-- A symbol of the standard alphabet is one of a fingerprint. -/
theorem fingerprintChar_of_isStandard {c : Char} (h : IsStandard c) :
    (c.isAlphanum || c == '+' || c == '/') = true := by
  obtain ⟨value, hvalue⟩ := Option.isSome_iff_exists.mp h
  obtain ⟨hlt, rfl⟩ := symbolAt_of_decodeSymbolOf hvalue
  have hall : ∀ n < 64, ((standardAlphabet.getD n 'A').isAlphanum
      || standardAlphabet.getD n 'A' == '+' || standardAlphabet.getD n 'A' == '/') = true := by
    decide +kernel
  exact hall value.toNat hlt

/-- A fingerprint has the form that a document wants. -/
theorem isFingerprintText_built {sshPubkey fingerprint : String}
    (h : buildSha256Fingerprint C sshPubkey = .ok fingerprint) :
    isFingerprintText fingerprint = true := by
  obtain ⟨keyBlob, _, h⟩ := bind_eq_ok.mp h
  obtain rfl := Except.ok.inj h
  have htext : ("SHA256:" ++ encodeBase64StandardNopad (C.sha256 keyBlob).bytes).toList
      = "SHA256:".toList ++ fillEncodedWith standardAlphabet (C.sha256 keyBlob).bytes := by
    rw [String.toList_append, encodeBase64StandardNopad]
    exact congrArg ("SHA256:".toList ++ ·) (String.toList_ofList)
  have hdrop : ("SHA256:" ++ encodeBase64StandardNopad (C.sha256 keyBlob).bytes).toList.drop 7
      = fillEncodedWith standardAlphabet (C.sha256 keyBlob).bytes := by
    rw [htext]
    rfl
  have htake : ("SHA256:" ++ encodeBase64StandardNopad (C.sha256 keyBlob).bytes).toList.take 7
      = "SHA256:".toList := by
    rw [htext]
    rfl
  have hlen := fillEncodedWith_length standardAlphabet (C.sha256 keyBlob).bytes
  rw [FixedBytes.size] at hlen
  rw [isFingerprintText, hdrop, htake, Bool.and_eq_true, Bool.and_eq_true]
  refine ⟨⟨by decide, ?_⟩, List.all_eq_true.mpr fun c hc =>
    fingerprintChar_of_isStandard (isStandard_of_mem hc)⟩
  cases htext : fillEncodedWith standardAlphabet (C.sha256 keyBlob).bytes with
  | nil =>
    rw [htext] at hlen
    cases hlen
  | cons c cs => rfl

/-- Fields of 32 and of 64 bytes have their sized form. -/
theorem isB64urlSized_32 {data : Bytes} (h : data.length = 32) :
    isB64urlSized 43 (encodeBase64urlNopad data) = true :=
  isB64urlSized_encode data h (by decide)

theorem isB64urlSized_64 (data : FixedBytes 64) :
    isB64urlSized 86 (encodeBase64urlNopad data.bytes) = true :=
  isB64urlSized_encode data.bytes data.size (by decide)

/-- A built statement conforms to its schema. -/
theorem BuiltStatement.wellFormed {options : KeyGenerationOptions} {material : KeypairMaterial}
    {body : Bytes} {rawSig : FixedBytes 64} {publicKey : PublicKey} (hkeys : KeyHalves C)
    (hwf : options.WellFormed) (h : BuiltStatement C options material body rawSig publicKey) :
    publicKey.wellFormed = true := by
  obtain ⟨message, _, hsignature⟩ := h.signed
  have hkid := isKidText_derived h.kid
  have hclaims : (buildBindingClaims options.githubAccount).all BindingClaims.wellFormed
      = true := by
    have haccount := hwf.githubAccount
    cases hgithub : options.githubAccount with
    | none => rfl
    | some account =>
      rw [hgithub] at haccount
      exact haccount
  rw [PublicKey.wellFormed, hsignature, isB64urlSized_64, Bool.and_true, h.protect]
  simp only [PublicKeyProtected.wellFormed, hwf.memberHandle, hkid, hclaims, hwf.expiresAt,
    hwf.createdAt, Attestation.wellFormed, hwf.publicKey, isB64urlSized_64, IdentityKeys.wellFormed,
    buildIdentityKeys, JwkOkpPublicKey.wellFormed, isB64urlSized_32 (hkeys.kemPublic _),
    isB64urlSized_32 (hkeys.verifyingKey _), attestationMethodSshSign, beq_self_eq_true,
    Option.all_some, Bool.and_self]

/-- A private half that was encrypted conforms to its schema. -/
theorem wellFormed_encrypted {params : PrivateKeyEncryptionParams}
    {fresh : FreshPrivateKeyProtectionMaterial} {privateKey : PrivateKey} (hC : Lawful C)
    (h : encryptPrivateKey C params fresh = .ok privateKey)
    (hhandle : isMemberHandleText params.memberHandle = true) (hkid : isKidText params.kid = true)
    (hcreated : isIso8601Text params.createdAt = true)
    (hexpires : isIso8601Text params.expiresAt = true)
    (hfpr : isFingerprintText params.sshFpr = true) :
    KeyDocuments.PrivateKey.wellFormed privateKey = true := by
  obtain ⟨rawSig, _, hprotect, hencrypted⟩ := encryptPrivateKey_ok h
  obtain ⟨ct, hct, hnonce, hctText⟩ := encryptPrivateKeyPlaintext_ok hencrypted
  have hne : ct ≠ [] := by
    rintro rfl
    have hlen := hC.encrypt_size hct
    rw [List.length_nil] at hlen
    omega
  have hnonceText : isB64urlSized 32 (encodeBase64urlNopad fresh.nonce.bytes) = true :=
    isB64urlSized_encode fresh.nonce.bytes fresh.nonce.size (by decide)
  rw [KeyDocuments.PrivateKey.wellFormed, hprotect, hnonce, hctText]
  simp only [buildPrivateKeyProtected, buildSshsigAlgorithm, PrivateKeyAlgorithm.wellFormed,
    FreshPrivateKeyProtectionMaterial.ikmSaltB64, FreshPrivateKeyProtectionMaterial.hkdfSaltB64,
    isB64urlSized_32 fresh.ikmSalt.size, isB64urlSized_32 fresh.hkdfSalt.size, hhandle, hkid,
    hcreated, hexpires, hfpr, hnonceText, isB64urlText_encode ct hne, beq_self_eq_true,
    Bool.and_self]

/-! ## The laws of a generated pair -/

/-- The text of a document in its file. -/
def fileText (document : Json) : String := String.ofList (textAt true 0 document)

section Generated

variable {backend : SignatureBackend} {selectedPublicKey : String} {checkDeterminism : Bool}
variable {options : KeyGenerationOptions} {material : KeypairMaterial}
variable {fresh : FreshPrivateKeyProtectionMaterial} {result : KeyGenerationResult}

/-- The line that was selected is the one the pair is for, under its own fingerprint. -/
theorem sshBinding_of_built
    (hssh : buildSshSigningContext C backend selectedPublicKey checkDeterminism
      = .ok options.sshBinding) :
    options.sshBinding.publicKey = selectedPublicKey
      ∧ buildSha256Fingerprint C selectedPublicKey = .ok options.sshBinding.fingerprint
      ∧ options.sshBinding.backend = if checkDeterminism then backend.after 2 else backend := by
  obtain ⟨_, _, hssh⟩ := bind_eq_ok.mp hssh
  obtain ⟨fingerprint, hfpr, hssh⟩ := bind_eq_ok.mp hssh
  obtain ⟨_, _, hssh⟩ := bind_eq_ok.mp hssh
  rw [← Except.ok.inj hssh]
  exact ⟨rfl, hfpr, rfl⟩

/-- The kid of a generated pair is one. -/
theorem isKidText_generated (h : generateKey C options material fresh = .ok result) :
    isKidText result.kid = true := by
  obtain ⟨_, ⟨body, rawSig, hbuilt⟩, hresult, _⟩ := generateKey_ok h
  exact hresult ▸ isKidText_derived hbuilt.kid

/-- The private half states the member and the kid. -/
theorem protect_generated (h : generateKey C options material fresh = .ok result) :
    result.privateKey.protect = buildPrivateKeyProtected
      ⟨options.memberHandle, result.kid, options.createdAt, options.expiresAt⟩
      (buildSshsigAlgorithm options.sshBinding.fingerprint fresh) := by
  obtain ⟨_, _, _, hencrypted⟩ := generateKey_ok h
  obtain ⟨_, _, hprotect, _⟩ := encryptPrivateKey_ok hencrypted
  exact hprotect

/-- The public half states the member and the kid. -/
theorem publicStates_generated (h : generateKey C options material fresh = .ok result) :
    result.publicKey.protect.subjectHandle = options.memberHandle
      ∧ result.publicKey.protect.kid = result.kid := by
  obtain ⟨_, ⟨body, rawSig, hbuilt⟩, hresult, _⟩ := generateKey_ok h
  exact ⟨by rw [hbuilt.protect], hresult.symm⟩

/-- And so does the private half. -/
theorem privateStates_generated (h : generateKey C options material fresh = .ok result) :
    result.privateKey.protect.subjectHandle = options.memberHandle
      ∧ result.privateKey.protect.kid = result.kid := by
  rw [protect_generated h]
  exact ⟨rfl, rfl⟩

/-- Both halves are about the same key. -/
theorem matches_generated (h : generateKey C options material fresh = .ok result) :
    verifyPrivateKeyMatchesPublicKey result.privateKey result.publicKey = .ok () := by
  obtain ⟨hpublic, hpublicKid⟩ := publicStates_generated h
  obtain ⟨hprivate, hprivateKid⟩ := privateStates_generated h
  rw [verifyPrivateKeyMatchesPublicKey, if_neg (not_not_intro (hprivate.trans hpublic.symm)),
    if_neg (not_not_intro (hprivateKid.trans hpublicKid.symm))]

/-- Both documents are read back from their texts. -/
theorem parse_generated (hC : Lawful C) (hkeys : KeyHalves C)
    (hssh : buildSshSigningContext C backend selectedPublicKey checkDeterminism
      = .ok options.sshBinding)
    (hwf : options.WellFormed) (h : generateKey C options material fresh = .ok result)
    (sourceName : String) :
    parsePublicKeyStr (fileText result.publicKey.toJson) sourceName = .ok result.publicKey
      ∧ parsePrivateKeyStr (fileText result.privateKey.toJson) sourceName
        = .ok result.privateKey := by
  obtain ⟨_, ⟨body, rawSig, hbuilt⟩, _, hencrypted⟩ := generateKey_ok h
  constructor
  · exact parse_of_readDocument
      (MemberRuns.readDocument_textAt (hbuilt.wellFormed hkeys hwf) true) sourceName
  · rw [parsePrivateKeyStr_eq]
    have hform := isFingerprintText_built (sshBinding_of_built hssh).2.1
    refine parsePrivateKeyBytes_textAt ?_ true sourceName
    exact wellFormed_encrypted hC hencrypted hwf.memberHandle (isKidText_generated h) hwf.createdAt
      hwf.expiresAt hform

/-- Who the statement is about. -/
theorem identity_generated (hkeys : KeyHalves C) (hwf : options.WellFormed)
    (h : generateKey C options material fresh = .ok result) :
    identityFromPublicKey result.publicKey
      = .ok ⟨⟨options.memberHandle, hwf.memberHandle⟩, ⟨result.kid, isKidText_generated h⟩,
        C.verifyingKey material.sigSk.bytes⟩ := by
  obtain ⟨_, ⟨body, rawSig, hbuilt⟩, hresult, _⟩ := generateKey_ok h
  have hsigX : decodeBase64urlNopadArray 32 result.publicKey.protect.keys.sig.x
      "Ed25519 public key" = .ok (C.verifyingKey material.sigSk.bytes) := by
    rw [hbuilt.protect]
    exact decodeBase64urlNopadArray_iff.mpr ⟨rfl, hkeys.verifyingKey material.sigSk⟩
  have hhandle : MemberHandle.tryFrom result.publicKey.protect.subjectHandle
      = .ok ⟨options.memberHandle, hwf.memberHandle⟩ := by
    rw [hbuilt.protect]
    exact MemberHandle.tryFrom_ok hwf.memberHandle
  have hkidOf : Kid.fromCanonical result.publicKey.protect.kid
      = .ok ⟨result.kid, isKidText_generated h⟩ := by
    rw [← hresult]
    exact dif_pos (isKidText_generated h)
  exact bind_eq_ok.mpr ⟨_, hsigX, bind_eq_ok.mpr ⟨_, hhandle, bind_eq_ok.mpr ⟨_, hkidOf, rfl⟩⟩⟩

/-- **THE SAME SIGNATURE UNLOCKS A GENERATED PAIR**, and gives its secrets back. -/
theorem decryptKeyPair_generated (hC : Lawful C) (hkeys : KeyHalves C)
    (hssh : buildSshSigningContext C backend selectedPublicKey checkDeterminism
      = .ok options.sshBinding)
    (hwf : options.WellFormed) (h : generateKey C options material fresh = .ok result)
    (hattests : Attests C P errors options material) {later : SignatureBackend}
    (hsame : later.signSshsig 0 keyProtectionNamespace options.sshBinding.publicKey
        (utf8 (buildSignMessage fresh.ikmSaltB64))
      = options.sshBinding.backend.signSshsig 1 keyProtectionNamespace options.sshBinding.publicKey
        (utf8 (buildSignMessage fresh.ikmSaltB64))) :
    ∃ loaded, decryptKeyPair C P errors result.privateKey result.publicKey later
        options.sshBinding.publicKey = .ok loaded
      ∧ decodeKemSecretKey C loaded.privateKey = .ok material.kemSk.bytes
      ∧ buildSigningKey loaded.privateKey.document = .ok material.sigSk.bytes
      ∧ loaded.keyIdentity.memberHandle.text = options.memberHandle
      ∧ loaded.keyIdentity.kid.text = result.kid
      ∧ loaded.keyIdentity.sigX = C.verifyingKey material.sigSk.bytes
      ∧ loaded.privateExpiresAt = options.expiresAt
      ∧ loaded.publicExpiresAt = options.expiresAt := by
  obtain ⟨_, ⟨body, rawSig, hbuilt⟩, _, hencrypted⟩ := generateKey_ok h
  obtain ⟨hline, hfpr, _⟩ := sshBinding_of_built hssh
  obtain ⟨verifyingKey, hverified⟩ :=
    (@BuiltStatement.accepted_iff C P errors _ _ _ _ _ hC hkeys hbuilt).mpr hattests
  obtain ⟨privateKey, hprivate, _, _, hkem, hsigning⟩ := VerifiedPrivateKey.new_build
    hkeys.toKeySizes material.kemSk material.sigSk
    ⟨options.memberHandle, result.kid, some options.sshBinding.fingerprint⟩
  have hprotect := protect_generated h
  -- A signer that repeats its signature leads to the key the half was encrypted under.
  have hplain : decryptPrivateKey C result.privateKey later options.sshBinding.publicKey
      = .ok (buildPrivateKeyPlaintext C material.kemSk material.sigSk) := by
    refine decryptPrivateKey_enrolled hC hencrypted
      (fits_buildPrivateKeyPlaintext hkeys.toKeySizes material.kemSk material.sigSk) ?_ hsame
    show buildSha256Fingerprint C options.sshBinding.publicKey = _
    rw [hline, hfpr]
    rfl
  have hfprOf : extractSshFingerprint result.privateKey = .ok options.sshBinding.fingerprint := by
    rw [extractSshFingerprint, hprotect]
    rfl
  have hwrapped : buildVerifiedPrivateKeyFromSsh C
      (buildPrivateKeyPlaintext C material.kemSk material.sigSk)
      result.privateKey.protect.subjectHandle result.privateKey.protect.kid
      options.sshBinding.fingerprint = .ok privateKey := by
    rw [hprotect]
    exact hprivate
  -- The checks of the loader, one after the other.
  refine ⟨_, bind_eq_ok.mpr ⟨verifyingKey, mapError_ok.mpr hverified, bind_eq_ok.mpr
    ⟨(), lift_ok.mpr (matches_generated h), bind_eq_ok.mpr ⟨_, hplain, bind_eq_ok.mpr ⟨_, hfprOf,
      bind_eq_ok.mpr ⟨privateKey, lift_ok.mpr hwrapped, bind_eq_ok.mpr
        ⟨_, lift_ok.mpr (identity_generated hkeys hwf h), rfl⟩⟩⟩⟩⟩⟩,
    hkem, hsigning, rfl, rfl, rfl, ?_, ?_⟩
  · show result.privateKey.protect.expiresAt = options.expiresAt
    rw [hprotect]
    rfl
  · show result.publicKey.protect.expiresAt = options.expiresAt
    rw [hbuilt.protect]

end Generated

/-- What a generated pair is good for. -/
structure GeneratedKeyLaws (C : Crypto) (P : Platform) (errors : SignatureErrors)
    (options : KeyGenerationOptions) (material : KeypairMaterial)
    (fresh : FreshPrivateKeyProtectionMaterial) (result : KeyGenerationResult) : Prop where
  /-- the kid is derived from the statement -/
  derived : isKidText result.kid = true
    ∧ derivePublicKeyKid C (removeMember "kid" result.publicKey.protect.toJson) = .ok result.kid
  /-- and both halves name the member and this kid -/
  named : (result.publicKey.protect.subjectHandle = options.memberHandle
      ∧ result.publicKey.protect.kid = result.kid)
    ∧ result.privateKey.protect.subjectHandle = options.memberHandle
    ∧ result.privateKey.protect.kid = result.kid
  agree : verifyPrivateKeyMatchesPublicKey result.privateKey result.publicKey = .ok ()
  /-- others accept the statement exactly if the SSH key has signed it -/
  accepted : Accepted C P errors result.publicKey ↔ Attests C P errors options material
  /-- both documents are read back from the files they are written to -/
  stored : ∀ sourceName,
    parsePublicKeyStr (fileText result.publicKey.toJson) sourceName = .ok result.publicKey
      ∧ parsePrivateKeyStr (fileText result.privateKey.toJson) sourceName = .ok result.privateKey
  /-- whoever signs the protection message in the same way unlocks the pair, and gets the secrets -/
  unlocks : ∀ {backend : SignatureBackend}, Attests C P errors options material →
    backend.signSshsig 0 keyProtectionNamespace options.sshBinding.publicKey
        (utf8 (buildSignMessage fresh.ikmSaltB64))
      = options.sshBinding.backend.signSshsig 1 keyProtectionNamespace options.sshBinding.publicKey
        (utf8 (buildSignMessage fresh.ikmSaltB64)) →
    ∃ loaded, decryptKeyPair C P errors result.privateKey result.publicKey backend
        options.sshBinding.publicKey = .ok loaded
      ∧ decodeKemSecretKey C loaded.privateKey = .ok material.kemSk.bytes
      ∧ buildSigningKey loaded.privateKey.document = .ok material.sigSk.bytes
      ∧ loaded.keyIdentity.memberHandle.text = options.memberHandle
      ∧ loaded.keyIdentity.kid.text = result.kid
      ∧ loaded.keyIdentity.sigX = C.verifyingKey material.sigSk.bytes
      ∧ loaded.privateExpiresAt = options.expiresAt ∧ loaded.publicExpiresAt = options.expiresAt
  /-- what is sealed for the statement opens with the secret -/
  opens : ∀ member : VerifiedRecipientKey, member.document = result.publicKey →
    HoldsKey C member material.kemSk.bytes

/-- **A GENERATED PAIR WORKS**: it agrees with itself, others accept it if the SSH key has signed
    it, it survives its files, the same SSH key unlocks it, and it opens what is sealed for it. -/
theorem generatedKeyLaws (hC : Lawful C) (hkeys : KeyHalves C) {backend : SignatureBackend}
    {selectedPublicKey : String} {checkDeterminism : Bool} {options : KeyGenerationOptions}
    {material : KeypairMaterial} {fresh : FreshPrivateKeyProtectionMaterial}
    {result : KeyGenerationResult}
    (hssh : buildSshSigningContext C backend selectedPublicKey checkDeterminism
      = .ok options.sshBinding)
    (hwf : options.WellFormed) (h : generateKey C options material fresh = .ok result) :
    GeneratedKeyLaws C P errors options material fresh result := by
  obtain ⟨_, ⟨body, rawSig, hbuilt⟩, hresult, _⟩ := generateKey_ok h
  refine ⟨⟨isKidText_generated h, hresult ▸ hbuilt.kid⟩,
    ⟨publicStates_generated h, privateStates_generated h⟩, matches_generated h,
    @BuiltStatement.accepted_iff C P errors _ _ _ _ _ hC hkeys hbuilt,
    parse_generated hC hkeys hssh hwf h, ?_, ?_⟩
  · intro later hattests hsame
    exact decryptKeyPair_generated hC hkeys hssh hwf h hattests hsame
  · intro member hmember
    rw [HoldsKey, hmember, hbuilt.protect]
    exact decodeBase64urlNopadArray_iff.mpr ⟨rfl, hkeys.kemPublic material.kemSk⟩

/-! ## A generated pair -/

def toyLine : String :=
  "ssh-ed25519 AAAAC3NzaC1lZDI1NTE5AAAAIAAAAAAAAAAAAAAAAAAAAAAAAAAAAAAAAAAAAAAAAAAA"

/-- A signer that always answers the same. -/
def toyBackend : SignatureBackend where
  signSshsig _ _ _ _ := .ok (ToyCrypto.pad 64 [])

def toyFingerprint : String := "SHA256:AAAAAAAAAAAAAAAAAAAAAAAAAAAAAAAAAAAAAAAAAAA"

/-- A key for alice. -/
def toyOptions : KeyGenerationOptions where
  memberHandle := "alice"
  createdAt := "2026-01-01T00:00:00Z"
  expiresAt := "2027-01-01T00:00:00Z"
  githubAccount := some ⟨42, "alice"⟩
  sshBinding := {
    publicKey := toyLine
    fingerprint := toyFingerprint
    backend := toyBackend.after 2
    determinism := .verified }

def toyMaterial : KeypairMaterial := ⟨ToyCrypto.pad 32 [1], ToyCrypto.pad 32 [2]⟩

def toyFresh : FreshPrivateKeyProtectionMaterial :=
  ⟨ToyCrypto.pad 32 [3], ToyCrypto.pad 32 [4], ToyCrypto.pad 24 [5]⟩

theorem keyHalves_toyCrypto : KeyHalves ToyCrypto.toyCrypto where
  kemPublic sk := (ToyCrypto.pad 32 sk.bytes).size
  verifyingKey sk := (ToyCrypto.pad 32 sk.bytes).size
  isVerifyingKey _ := rfl

theorem wellFormed_toyOptions : toyOptions.WellFormed :=
  ⟨by decide, by decide, by decide, by decide, by decide⟩

/-- The signing context of the toy key. -/
theorem buildSshSigningContext_toy :
    buildSshSigningContext ToyCrypto.toyCrypto toyBackend toyLine true
      = .ok toyOptions.sshBinding := by
  have hline : (buildSha256Fingerprint ToyCrypto.toyCrypto toyLine).toOption
      = some toyFingerprint := by decide +kernel
  cases hfpr : buildSha256Fingerprint ToyCrypto.toyCrypto toyLine with
  | error e =>
    rw [hfpr] at hline
    cases hline
  | ok fingerprint =>
    rw [hfpr] at hline
    obtain rfl : fingerprint = toyFingerprint := Option.some.inj hline
    have hed25519 : validateEd25519Key toyLine = .ok () := by
      have htype : (splitWhitespace toyLine.toList).head? = some keyTypeEd25519.toList := by
        decide +kernel
      rw [validateEd25519Key, htype]
      exact if_pos rfl
    exact bind_eq_ok.mpr ⟨(), lift_ok.mpr hed25519, bind_eq_ok.mpr ⟨_, hfpr, rfl⟩⟩

/-- The toy key is generated. -/
theorem generateKey_toy :
    ∃ result, generateKey ToyCrypto.toyCrypto toyOptions toyMaterial toyFresh = .ok result := by
  have hgenerated : (generateKey ToyCrypto.toyCrypto toyOptions toyMaterial
      toyFresh).toOption.isSome = true := by decide +kernel
  cases h : generateKey ToyCrypto.toyCrypto toyOptions toyMaterial toyFresh with
  | error e =>
    rw [h] at hgenerated
    cases hgenerated
  | ok result => exact ⟨result, rfl⟩

/-- The laws are about pairs that are generated. -/
theorem generatedKeyLaws_toy :
    ∃ result, generateKey ToyCrypto.toyCrypto toyOptions toyMaterial toyFresh = .ok result
      ∧ GeneratedKeyLaws ToyCrypto.toyCrypto .bits64 ⟨"", ""⟩ toyOptions toyMaterial toyFresh
        result := by
  obtain ⟨result, h⟩ := generateKey_toy
  exact ⟨result, h, generatedKeyLaws ToyCrypto.ideal_toyCrypto.toLawful keyHalves_toyCrypto
    buildSshSigningContext_toy wellFormed_toyOptions h⟩

end KeyGeneration
