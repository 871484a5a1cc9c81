import Kapsaro.Envelope
import Kapsaro.Framing
import Kapsaro.KvDocument

/-!
# Signed artifacts — bodies, key-possession proofs, and signatures

`format/signature/`, `feature/envelope/signature.rs`, `feature/envelope/key_possession.rs` and
`feature/verify/`: what the signature and the MAC of a document cover, and who checks them.

* **`buildKeyPossessionMacMessage`**, **`buildArtifactSignatureInput`** — the framed messages;
  **`macMessage_injective`** and **`signatureInput_injective`** say that they determine the body.
* **`signKvDocument`**, **`signFileDocument`** — proof, signature, signed text.
* **`verifyKvDocument`**, **`verifyFileDocument`** — the embedded key statement, then the
  signature.
* **`verifyKvSignature_signed`**, **`verifyKeyPossession_built`** — a fresh signature and a fresh
  proof pass their checks.
-/

namespace SignedArtifacts

open JsonText JsonMembers Limits TextLines Base64Codec WireTexts WireModel DocumentTokens
open TokenRecords Envelope Framing KvDocument

/-! ## Bodies and messages -/

/-- The signed bytes of a kv-enc document. -/
def buildKvArtifactBodyBytes (doc : KvEncDocument) : Bytes :=
  buildCanonicalBytes doc.lines

/-- The signed bytes of a file-enc document. -/
def buildFileArtifactBodyBytes (protect : FileEncDocumentProtected) : Bytes :=
  utf8 (jcsText protect.toJson)

def macDomainKeyPossession : Bytes := utf8 "kapsaro:mac:key-possession@1"

def sigDomainArtifactSignature : Bytes := utf8 "kapsaro:sig:artifact-signature@1"

/-- The message of a key-possession proof. -/
def buildKeyPossessionMacMessage (body : Bytes) (signerKid : String) : Bytes :=
  framed macDomainKeyPossession [body, utf8 signerKid]

/-- The message of an artifact signature. -/
def buildArtifactSignatureInput (alg signerKid : String) (body : Bytes) (mac : String) : Bytes :=
  framed sigDomainArtifactSignature
    [contextBytes [("alg", alg), ("kid", signerKid)], body, utf8 mac]

/-- **THE MAC MESSAGE DETERMINES THE BODY** and the signer's kid. -/
theorem macMessage_injective {body body' : Bytes} {kid kid' : String}
    (h : buildKeyPossessionMacMessage body kid = buildKeyPossessionMacMessage body' kid') :
    body = body' ∧ kid = kid' := by
  rw [buildKeyPossessionMacMessage, buildKeyPossessionMacMessage] at h
  have hfields := framed_injective h
  obtain ⟨hbody, hrest⟩ := List.cons.inj hfields
  exact ⟨hbody, utf8_injective (List.cons.inj hrest).1⟩

/-- **THE SIGNATURE INPUT DETERMINES THE BODY** and the MAC. -/
theorem signatureInput_injective {alg alg' kid kid' mac mac' : String} {body body' : Bytes}
    (h : buildArtifactSignatureInput alg kid body mac
      = buildArtifactSignatureInput alg' kid' body' mac') :
    body = body' ∧ mac = mac' := by
  rw [buildArtifactSignatureInput, buildArtifactSignatureInput] at h
  have hfields := framed_injective h
  obtain ⟨_, hrest⟩ := List.cons.inj hfields
  obtain ⟨hbody, hrest⟩ := List.cons.inj hrest
  exact ⟨hbody, utf8_injective (List.cons.inj hrest).1⟩

/-! ## Key-possession proofs -/

section Proofs

variable (C : Crypto)

/-- The proof that the signer knows the master key. -/
def buildKeyPossessionProof (body : Bytes) (macKey : FixedBytes 32) (signerKid : String) :
    Except Error KeyPossessionProof :=
  KeyPossessionProof.tryNew
    (C.hmacSha256 macKey.bytes (buildKeyPossessionMacMessage body signerKid)).bytes

def verifyKeyPossessionProof (proof : KeyPossessionProof) (macKey : FixedBytes 32) (body : Bytes)
    (signerKid : String) : Except Error Unit :=
  if (C.hmacSha256 macKey.bytes (buildKeyPossessionMacMessage body signerKid)).bytes = proof.tag
  then .ok ()
  else .error (.verify "E_KEY_POSSESSION_MAC_INVALID" "Key-possession proof verification failed")

/-- Check the proof of a kv-enc document with an opened master key. -/
def verifyKvKeyPossession (doc : KvEncDocument) (masterKey : MasterKey) : Except Error Unit :=
  verifyKeyPossessionProof C doc.signature.mac
    (deriveKvMacKey C (kvKeySchedule C masterKey doc.head.sid))
    (buildKvArtifactBodyBytes doc) doc.signature.kid

/-- Check the proof of a file-enc document with an opened master key. -/
def verifyFileKeyPossession (doc : FileEncDocument) (masterKey : MasterKey) : Except Error Unit :=
  verifyKeyPossessionProof C doc.signature.mac
    (deriveFileMacKey C (fileKeySchedule C masterKey doc.protect.sid))
    (buildFileArtifactBodyBytes doc.protect) doc.signature.kid

end Proofs

/-! ## Key statements -/

section KeyStatements

variable (C : Crypto)

/-- Five bits of a byte string, most significant first. -/
def bitOf (bytes : Bytes) (index : Nat) : Nat :=
  (bytes.getD (index / 8) 0).toNat / 2 ^ (7 - index % 8) % 2

def crockfordAlphabet : List Char := "0123456789ABCDEFGHJKMNPQRSTVWXYZ".toList

def crockfordSymbol (bytes : Bytes) (group : Nat) : Char :=
  let value := (List.range 5).foldl (fun v offset => v * 2 + bitOf bytes (group * 5 + offset)) 0
  crockfordAlphabet.getD value '0'

/-- Crockford Base32 of a byte string whose bit count is a multiple of five. -/
def encodeCrockfordBase32 (bytes : Bytes) : String :=
  String.ofList ((List.range (bytes.length * 8 / 5)).map (crockfordSymbol bytes))

/-- The kid a key statement has to carry: derived from everything but the kid. -/
def derivePublicKeyKid (protectedWithoutKid : Json) : Except Error String := do
  let bytes ← jcsNormalize protectedWithoutKid
  pure (encodeCrockfordBase32 ((C.sha256 bytes).bytes.take 20))

def removeMember (name : String) : Json → Json
  | .obj members => .obj (members.filter fun m => m.1 ≠ name)
  | v => v

/-- A kid in a message: grouped when it is one. -/
def formatKidDisplayLossy (kid : String) : String :=
  if h : isKidText kid = true then formatKidDisplay ⟨kid, h⟩ else kid

/-- The statement carries the kid derived from it. -/
def verifyDerivedKid (key : PublicKey) : Except Error Unit := do
  let derived ← derivePublicKeyKid C (removeMember "kid" key.protect.toJson)
  if key.protect.kid ≠ derived then
    throw (.verify "V-KID-DERIVED"
      (s!"PublicKey protected.kid '{formatKidDisplayLossy key.protect.kid}' does not match " ++
        s!"derived kid '{formatKidDisplayLossy derived}'"))

/-- Check a statement's kid and self-signature; returns its signing key. -/
def verifyPublicKeySelfSignature (key : PublicKey) : Except Error Bytes := do
  verifyDerivedKid C key
  let message ← (jcsNormalize key.protect.toJson).mapError fun _ =>
    .crypto "Failed to normalize PublicKey protected"
  let verifyingKey ← decodeBase64urlNopadArray 32 key.protect.keys.sig.x "Ed25519 public key"
  if !C.isVerifyingKey verifyingKey then throw (.crypto "Invalid Ed25519 public key")
  let signature ← (decodeBase64urlNopad key.signature "signature").mapError fun _ =>
    .crypto "Failed to decode PublicKey signature"
  if signature.length ≠ 64 then throw (.crypto "Invalid signature format")
  if !C.verifyStrict verifyingKey message signature then
    throw (.crypto "PublicKey self-signature verification failed")
  pure verifyingKey

/-- Check a statement with its attestation; returns its signing key. -/
def verifyPublicKeyWithAttestation (key : PublicKey) : Except Error Bytes := do
  let verifyingKey ← verifyPublicKeySelfSignature C key
  C.verifyAttestation key.protect
  pure verifyingKey

/-- Check the statement behind a signature; returns its signing key. A statement that has expired is
    only warned about, one whose expiry is no time is refused. -/
def verifyPublicKeyForVerification (key : PublicKey) : Except Error Bytes := do
  let verifyingKey ← verifyPublicKeyWithAttestation C key
  C.checkKeyExpiry key.protect.expiresAt
  pure verifyingKey

/-- Check the statement embedded in a signature; returns its signing key. -/
def buildVerifyingKeyFromSignature (signature : ArtifactSignature) : Except Error Bytes := do
  let key := signature.signerPub
  let verifyingKey ← (verifyPublicKeyForVerification C key).mapError fun _ =>
    .crypto "PublicKey document verification failed (signer_pub embedded)"
  if signature.kid ≠ key.protect.kid then
    throw (.crypto (s!"kid mismatch: signature.kid '{formatKidDisplayLossy signature.kid}' != " ++
      s!"signer_pub.protected.kid '{formatKidDisplayLossy key.protect.kid}'"))
  pure verifyingKey

end KeyStatements

/-! ## Signing -/

section Signing

variable (C : Crypto)

/-- What signing needs: the key, its kid, and the statement that goes with it. -/
structure SigningContext where
  signingKey : Bytes
  signerKid : Kid
  signerPub : LoadedPublicKey

/-- The stored statement belongs to the loaded key. -/
def matchesPublicKey (ctx : CryptoContext) (key : PublicKey) : Except Error Bool :=
  if key.protect.subjectHandle ≠ ctx.memberHandle.text then .ok false
  else if key.protect.kid ≠ ctx.kid.text then .ok false
  else do
    let x ← decodeBase64urlNopadArray 32 key.protect.keys.sig.x "Ed25519 public key"
    pure (x = C.verifyingKey ctx.signingKey)

/-- The signing context of a member's active key. -/
def buildSigningContext (ctx : CryptoContext) : Except Error SigningContext := do
  ctx.enforceSigningKeyNotExpired
  let signerPub ← ctx.loadSignerPublicKey
  let _ ← verifyPublicKeyWithAttestation C signerPub.document
  let isMatch ← matchesPublicKey C ctx signerPub.document
  if !isMatch then
    throw (.verify "V-SIGNER-KEY-BINDING"
      (s!"Stored signer public key '{signerPub.document.protect.kid}' is not the public half of " ++
        s!"the key loaded for '{ctx.memberHandle.text}' as '{ctx.kid.text}'"))
  pure { signingKey := ctx.signingKey, signerKid := ctx.kid, signerPub := signerPub }

/-- Sign a body and its proof. -/
def buildArtifactSignature (body : Bytes) (mac : KeyPossessionProof) (signing : SigningContext) :
    ArtifactSignature where
  alg := signatureEd25519
  kid := signing.signerKid.text
  signerPub := signing.signerPub.document
  mac := mac
  sig := encodeBase64urlNopad (C.sign signing.signingKey
    (buildArtifactSignatureInput signatureEd25519 signing.signerKid.text body mac.wire)).bytes

/-- The signature of a kv-enc text. -/
def signKvBody (unsigned : String) (macKey : FixedBytes 32) (signing : SigningContext) :
    Except Error ArtifactSignature := do
  let mac ← buildKeyPossessionProof C (utf8 unsigned) macKey signing.signerKid.text
  pure (buildArtifactSignature C (utf8 unsigned) mac signing)

/-- Sign a kv-enc text: the signature line is appended. -/
def signKvDocument (unsigned : String) (macKey : FixedBytes 32) (signing : SigningContext) :
    Except Error String := do
  let signature ← signKvBody C unsigned macKey signing
  let sigToken ← encodeToken signature.toJson
  pure (signedText unsigned sigToken)

/-- The signature of a file-enc document. -/
def signFileDocument (protect : FileEncDocumentProtected) (macKey : FixedBytes 32)
    (signing : SigningContext) : Except Error ArtifactSignature := do
  let body := buildFileArtifactBodyBytes protect
  let mac ← buildKeyPossessionProof C body macKey signing.signerKid.text
  pure (buildArtifactSignature C body mac signing)

end Signing

/-! ## Verification -/

section Verification

variable (C : Crypto)

def validateSignatureAlgorithm (alg : String) : Except Error Unit :=
  if alg = signatureEd25519 then .ok ()
  else .error (buildCryptoOperationError s!"Unsupported signature algorithm: {alg}")

def decodeEd25519Signature (signature : String) : Except Error Bytes :=
  match decodeBase64urlNopad signature "signature" with
  | .error _ => .error (buildCryptoOperationError "Invalid signature Base64")
  | .ok bytes =>
    if bytes.length = 64 then .ok bytes
    else .error (buildCryptoOperationError
      s!"Invalid signature length: Expected 64 bytes (Ed25519), got {bytes.length}")

/-- Check a signature over a body. -/
def verifyArtifactSignature (body verifyingKey : Bytes) (signature : ArtifactSignature) :
    Except Error Unit := do
  let input := buildArtifactSignatureInput signature.alg signature.kid body signature.mac.wire
  validateSignatureAlgorithm signature.alg
  let bytes ← decodeEd25519Signature signature.sig
  if C.verifyStrict verifyingKey input bytes then pure ()
  else throw (buildCryptoOperationError "Signature verification failed")

def verifyKvSignature (doc : KvEncDocument) (verifyingKey : Bytes)
    (signature : ArtifactSignature) : Except Error Unit :=
  verifyArtifactSignature C (buildKvArtifactBodyBytes doc) verifyingKey signature

def verifyFileSignature (protect : FileEncDocumentProtected) (verifyingKey : Bytes)
    (signature : ArtifactSignature) : Except Error Unit :=
  verifyArtifactSignature C (buildFileArtifactBodyBytes protect) verifyingKey signature

/-- Verify a parsed kv-enc document. -/
def verifyKvDocument (doc : KvEncDocument) : Except Error KvEncDocument := do
  validateWrapItems doc.wrap.wrap "Document"
  let verifyingKey ← buildVerifyingKeyFromSignature C doc.signature
  verifyKvSignature C doc verifyingKey doc.signature
  pure doc

/-- Verify a parsed file-enc document. -/
def verifyFileDocument (doc : FileEncDocument) : Except Error FileEncDocument := do
  validateWrapItems doc.protect.wrap "Document"
  let verifyingKey ← buildVerifyingKeyFromSignature C doc.signature
  verifyFileSignature C doc.protect verifyingKey doc.signature
  pure doc

/-- Parse and verify a kv-enc text. -/
def verifyKvContent (content : String) : Except Error KvEncDocument := do
  let doc ← parseKvDocument content
  verifyKvDocument C doc

end Verification

/-! ## Fresh signatures and proofs -/

variable {C : Crypto}

/-- A 32-byte tag always makes a proof, and the proof is that tag. -/
theorem buildKeyPossessionProof_ok (C : Crypto) (body : Bytes) (macKey : FixedBytes 32)
    (signerKid : String) :
    ∃ proof, buildKeyPossessionProof C body macKey signerKid = .ok proof
      ∧ proof.tag = (C.hmacSha256 macKey.bytes
        (buildKeyPossessionMacMessage body signerKid)).bytes := by
  have hsize := (C.hmacSha256 macKey.bytes (buildKeyPossessionMacMessage body signerKid)).size
  rw [buildKeyPossessionProof, KeyPossessionProof.tryNew, if_pos hsize]
  exact ⟨_, rfl, rfl⟩

/-- **A FRESH PROOF PASSES ITS CHECK.** -/
theorem verifyKeyPossession_built {body : Bytes} {macKey : FixedBytes 32} {signerKid : String}
    {proof : KeyPossessionProof} (h : buildKeyPossessionProof C body macKey signerKid = .ok proof) :
    verifyKeyPossessionProof C proof macKey body signerKid = .ok () := by
  obtain ⟨proof', hbuild, htag⟩ := buildKeyPossessionProof_ok C body macKey signerKid
  rw [hbuild] at h
  obtain rfl := Except.ok.inj h
  exact if_pos htag.symm

/-- What passes the check is the tag of this body under this key. -/
theorem verifyKeyPossessionProof_ok {proof : KeyPossessionProof} {macKey : FixedBytes 32}
    {body : Bytes} {signerKid : String}
    (h : verifyKeyPossessionProof C proof macKey body signerKid = .ok ()) :
    (C.hmacSha256 macKey.bytes (buildKeyPossessionMacMessage body signerKid)).bytes
      = proof.tag := by
  by_contra hne
  rw [verifyKeyPossessionProof, if_neg hne] at h
  cases h

/-- What a signing context holds: the statement was verified, and its signing key is the public
    half of the loaded key. -/
theorem buildSigningContext_ok {ctx : CryptoContext} {signing : SigningContext}
    (h : buildSigningContext C ctx = .ok signing) :
    signing.signingKey = ctx.signingKey ∧ signing.signerKid = ctx.kid
      ∧ signing.signerPub.document.protect.kid = ctx.kid.text
      ∧ signing.signerPub.document.protect.subjectHandle = ctx.memberHandle.text
      ∧ verifyPublicKeyWithAttestation C signing.signerPub.document
          = .ok (C.verifyingKey ctx.signingKey) := by
  obtain ⟨_, _, h⟩ := bind_eq_ok.mp h
  obtain ⟨signerPub, _, h⟩ := bind_eq_ok.mp h
  obtain ⟨verifyingKey, hverify, h⟩ := bind_eq_ok.mp h
  obtain ⟨isMatch, hmatch, h⟩ := bind_eq_ok.mp h
  cases isMatch with
  | false => cases h
  | true =>
    obtain rfl := Except.ok.inj h
    rw [matchesPublicKey] at hmatch
    by_cases hhandle : signerPub.document.protect.subjectHandle ≠ ctx.memberHandle.text
    · rw [if_pos hhandle] at hmatch
      cases hmatch
    rw [if_neg hhandle] at hmatch
    by_cases hkid : signerPub.document.protect.kid ≠ ctx.kid.text
    · rw [if_pos hkid] at hmatch
      cases hmatch
    rw [if_neg hkid] at hmatch
    obtain ⟨x, hx, hmatch⟩ := bind_eq_ok.mp hmatch
    have hkey : x = C.verifyingKey ctx.signingKey := of_decide_eq_true (Except.ok.inj hmatch)
    refine ⟨rfl, rfl, not_not.mp hkid, not_not.mp hhandle, ?_⟩
    -- the key the statement verified under is the one it names
    have hnamed : verifyingKey = x := by
      obtain ⟨key, hself, hrest⟩ := bind_eq_ok.mp hverify
      obtain ⟨_, _, hrest⟩ := bind_eq_ok.mp hrest
      obtain rfl := Except.ok.inj hrest
      obtain ⟨_, _, hself⟩ := bind_eq_ok.mp hself
      obtain ⟨message, _, hself⟩ := bind_eq_ok.mp hself
      obtain ⟨named, hdecode, hself⟩ := bind_eq_ok.mp hself
      rw [hx] at hdecode
      obtain rfl := Except.ok.inj hdecode
      obtain ⟨_, hself⟩ := throwIf_ok.mp hself
      obtain ⟨bytes, _, hself⟩ := bind_eq_ok.mp hself
      obtain ⟨_, hself⟩ := throwIf_ok.mp hself
      obtain ⟨_, hself⟩ := throwIf_ok.mp hself
      exact (Except.ok.inj hself).symm
    rw [← hkey, ← hnamed]
    exact hverify

/-- **A FRESH SIGNATURE PASSES ITS CHECK.** -/
theorem verifyArtifactSignature_built (hC : Lawful C) (body : Bytes) (mac : KeyPossessionProof)
    (signing : SigningContext) :
    verifyArtifactSignature C body (C.verifyingKey signing.signingKey)
      (buildArtifactSignature C body mac signing) = .ok () := by
  have hsign := hC.verify_sign signing.signingKey
    (buildArtifactSignatureInput signatureEd25519 signing.signerKid.text body mac.wire)
  have hdecode : decodeEd25519Signature (buildArtifactSignature C body mac signing).sig
      = .ok (C.sign signing.signingKey (buildArtifactSignatureInput signatureEd25519
          signing.signerKid.text body mac.wire)).bytes := by
    have hraw : decodeBase64urlNopad (buildArtifactSignature C body mac signing).sig "signature"
        = .ok (C.sign signing.signingKey (buildArtifactSignatureInput signatureEd25519
          signing.signerKid.text body mac.wire)).bytes := by
      refine decodeBase64url_encode _ "signature" _ ?_
      rw [FixedBytes.size]
      decide
    rw [decodeEd25519Signature, hraw]
    exact if_pos (FixedBytes.size _)
  refine bind_eq_ok.mpr ⟨(), if_pos rfl, bind_eq_ok.mpr ⟨_, hdecode, ?_⟩⟩
  exact if_pos hsign

/-- **A FRESH SIGNATURE NAMES ITS OWN KEY**: its statement passes, where its expiry is a time. -/
theorem buildVerifyingKey_built {ctx : CryptoContext} {signing : SigningContext}
    (h : buildSigningContext C ctx = .ok signing)
    (hexpiry : C.checkKeyExpiry signing.signerPub.document.protect.expiresAt = .ok ())
    (body : Bytes) (mac : KeyPossessionProof) :
    buildVerifyingKeyFromSignature C (buildArtifactSignature C body mac signing)
      = .ok (C.verifyingKey signing.signingKey) := by
  obtain ⟨hkey, hkid, hstatement, _, hverify⟩ := buildSigningContext_ok h
  have hchecked : (do
      let verifyingKey ← verifyPublicKeyWithAttestation C signing.signerPub.document
      C.checkKeyExpiry signing.signerPub.document.protect.expiresAt
      pure verifyingKey : Except Error Bytes) = .ok (C.verifyingKey signing.signingKey) := by
    rw [hverify, hkey]
    exact bind_eq_ok.mpr ⟨_, rfl, bind_eq_ok.mpr ⟨(), hexpiry, rfl⟩⟩
  rw [buildVerifyingKeyFromSignature]
  refine bind_eq_ok.mpr ⟨C.verifyingKey signing.signingKey, ?_, throwIf_ok.mpr ⟨?_, rfl⟩⟩
  · show Except.mapError _ (do
      let verifyingKey ← verifyPublicKeyWithAttestation C signing.signerPub.document
      C.checkKeyExpiry signing.signerPub.document.protect.expiresAt
      pure verifyingKey : Except Error Bytes) = _
    rw [hchecked]
    rfl
  · show ¬signing.signerKid.text ≠ signing.signerPub.document.protect.kid
    rw [hkid, hstatement]
    exact not_not_intro rfl

/-- A fresh signature is well formed. -/
theorem wellFormed_buildArtifactSignature {body : Bytes} {mac : KeyPossessionProof}
    (signing : SigningContext) {macKey : FixedBytes 32} {signerKid : String}
    (hmac : buildKeyPossessionProof C body macKey signerKid = .ok mac) :
    (buildArtifactSignature C body mac signing).wellFormed = true
      ∧ KeyPossessionProof.parse mac.wire = some mac := by
  have hsig : isB64urlSized 86 (buildArtifactSignature C body mac signing).sig = true :=
    isB64urlSized_encode (n := 64) _ (FixedBytes.size _) (by decide)
  refine ⟨?_, KeyPossessionProof.parse_tryNew hmac⟩
  have hmacText : isMacText mac.wire = true := KeyPossessionProof.isMacText_tryNew hmac
  rw [ArtifactSignature.wellFormed, hsig]
  show (signatureEd25519 == signatureEd25519 && isKidText signing.signerKid.text
    && signing.signerPub.document.wellFormed && isMacText mac.wire && true) = true
  rw [beq_self_eq_true, signing.signerKid.valid, signing.signerPub.wellFormed, hmacText]
  rfl

/-- **SIGNING A KV TEXT**: what is appended is the token of a well-formed signature over the
    unsigned text, and its proof is the tag under the MAC key. -/
theorem signKvDocument_ok {unsigned text : String} {macKey : FixedBytes 32}
    {signing : SigningContext} (h : signKvDocument C unsigned macKey signing = .ok text) :
    ∃ signature, signKvBody C unsigned macKey signing = .ok signature
      ∧ signature.wellFormed = true
      ∧ KeyPossessionProof.parse signature.mac.wire = some signature.mac
      ∧ text = signedText unsigned (tokenText signature.toJson) := by
  obtain ⟨signature, hsig, h⟩ := bind_eq_ok.mp h
  obtain ⟨sigToken, htoken, h⟩ := bind_eq_ok.mp h
  obtain rfl := Except.ok.inj h
  obtain ⟨mac, hmac, hbuild⟩ := bind_eq_ok.mp hsig
  obtain rfl := Except.ok.inj hbuild
  obtain ⟨hwell, hparse⟩ := wellFormed_buildArtifactSignature signing hmac
  refine ⟨_, hsig, hwell, hparse, ?_⟩
  have hnumbers := (encodable_signature hwell hparse).numbers
  rw [encodeToken_eq hnumbers] at htoken
  rw [Except.ok.inj htoken]

/-- Signing a kv-enc text never fails. -/
theorem signKvDocument_total (unsigned : String) (macKey : FixedBytes 32)
    (signing : SigningContext) : ∃ text, signKvDocument C unsigned macKey signing = .ok text := by
  obtain ⟨mac, hmac, _⟩ := buildKeyPossessionProof_ok C (utf8 unsigned) macKey
    signing.signerKid.text
  obtain ⟨hwell, hparse⟩ := wellFormed_buildArtifactSignature signing hmac
  have hnumbers := (encodable_signature hwell hparse).numbers
  exact ⟨_, bind_eq_ok.mpr ⟨_, bind_eq_ok.mpr ⟨mac, hmac, rfl⟩, bind_eq_ok.mpr
    ⟨_, encodeToken_eq hnumbers, rfl⟩⟩⟩

end SignedArtifacts
