import Kapsaro.SshWire
import Kapsaro.KidTexts
import Kapsaro.TrustJudgment

/-!
# Key attestation — what a verified key statement is bound to

`io/ssh/verify.rs`, `format/public_key.rs` and `feature/verify/public_key.rs`: the attestation of a
key statement, with everything it is checked against.  The other modules take that check as a
parameter of the cryptography; here it is written out, and **`verifySigningPublicKey_ok`** says that
it can be put in its place.

* **`AttestationBodyInput`**, **`verifyAttestation`** — the attested fields, and the check of the
  SSH signature over them.
* **`verifySigningPublicKey`** — kid, self-signature and attestation of a key statement.
* **`eq_of_withoutKid`**, **`AttestationBodyInput.eq_of_jcsText`** — the canonical texts behind the
  kid and behind the attestation determine every field they cover, optional ones included.
* **`attestedKeyLaws`** — equal kids of accepted keys are kids of equal statements.
-/

namespace KeyAttestation

open Limits TextLines JsonText JsonMembers JsonRecords WireModel DocumentTokens Base64Codec Envelope
open SignedArtifacts KidTexts TrustRecords TrustStore TrustApprovals TrustJudgment SshWire

/-! ## Optional fields -/

/-- The member of a field, when it has a value. -/
def optionalMember {T : Type} (name : String) (write : T → Json) :
    Option T → List (String × Json)
  | none => []
  | some x => [(name, write x)]

/-- A field that is read back is determined by its canonical value, also where it may be absent. -/
theorem written_inj {T : Type} {write : T → Json} {read : Json → Option T}
    (hreads : ∀ x, Reads write read x) {x y : Option T}
    (h : (x.map write).map canonical = (y.map write).map canonical) : x = y := by
  cases x with
  | none =>
    cases y with
    | none => rfl
    | some y => cases h
  | some x =>
    cases y with
    | none => cases h
    | some y =>
      have hvalue : canonical (write x) = canonical (write y) := Option.some.inj h
      have hread := (hreads x).2
      rw [hvalue, (hreads y).2] at hread
      exact hread.symm

/-! ## The attested fields -/

def sshsigMessagePublicKeyAttestationV1 : String := "kapsaro:sshsig:public-key:attestation@1"
def attestationMethodSshSign : String := "ssh-sign"

/-- What an attestation is about. -/
structure AttestationBodyInput where
  subjectHandle : String
  keys : IdentityKeys
  bindingClaims : Option BindingClaims
  createdAt : Option String
  expiresAt : String
deriving DecidableEq

namespace AttestationBodyInput

def members (input : AttestationBodyInput) : List (String × Json) :=
  [("p", .str sshsigMessagePublicKeyAttestationV1), ("subject_handle", .str input.subjectHandle),
    ("keys", input.keys.toJson)]
    ++ optionalMember "binding_claims" BindingClaims.toJson input.bindingClaims
    ++ optionalMember "created_at" .str input.createdAt
    ++ [("expires_at", .str input.expiresAt)]

def toJson (input : AttestationBodyInput) : Json :=
  .obj input.members

theorem nodup_members (input : AttestationBodyInput) : (input.members.map Prod.fst).Nodup := by
  obtain ⟨handle, keys, claims, created, expires⟩ := input
  cases claims with
  | none =>
    cases created with
    | none => exact (by decide : ["p", "subject_handle", "keys", "expires_at"].Nodup)
    | some _ =>
      exact (by decide : ["p", "subject_handle", "keys", "created_at", "expires_at"].Nodup)
  | some _ =>
    cases created with
    | none =>
      exact (by decide : ["p", "subject_handle", "keys", "binding_claims", "expires_at"].Nodup)
    | some _ =>
      exact (by decide : ["p", "subject_handle", "keys", "binding_claims", "created_at",
        "expires_at"].Nodup)

/-- The members of a body, one by one. -/
theorem member_members (input : AttestationBodyInput) :
    member "subject_handle" input.members = (some input.subjectHandle).map .str
      ∧ member "keys" input.members = (some input.keys).map IdentityKeys.toJson
      ∧ member "binding_claims" input.members = input.bindingClaims.map BindingClaims.toJson
      ∧ member "created_at" input.members = input.createdAt.map .str
      ∧ member "expires_at" input.members = (some input.expiresAt).map .str := by
  obtain ⟨handle, keys, claims, created, expires⟩ := input
  cases claims <;> cases created <;> exact ⟨rfl, rfl, rfl, rfl, rfl⟩

/-- **THE BODY SAYS WHAT IS ATTESTED**: its canonical text determines every field. -/
theorem eq_of_jcsText {input other : AttestationBodyInput}
    (h : jcsText input.toJson = jcsText other.toJson) : input = other := by
  have hlook := member_of_jcsText input.nodup_members other.nodup_members h
  obtain ⟨hhandle, hkeys, hclaims, hcreated, hexpires⟩ := input.member_members
  obtain ⟨hhandle', hkeys', hclaims', hcreated', hexpires'⟩ := other.member_members
  have h1 := hlook "subject_handle"
  have h2 := hlook "keys"
  have h3 := hlook "binding_claims"
  have h4 := hlook "created_at"
  have h5 := hlook "expires_at"
  rw [hhandle, hhandle'] at h1
  rw [hkeys, hkeys'] at h2
  rw [hclaims, hclaims'] at h3
  rw [hcreated, hcreated'] at h4
  rw [hexpires, hexpires'] at h5
  have e1 := Option.some.inj (written_inj reads_text h1)
  have e2 := Option.some.inj (written_inj IdentityKeys.reads h2)
  have e3 := written_inj BindingClaims.reads h3
  have e4 := written_inj reads_text h4
  have e5 := Option.some.inj (written_inj reads_text h5)
  cases input
  cases other
  simp_all

end AttestationBodyInput

/-- Canonical bytes that are equal come from equal canonical texts. -/
theorem jcsText_of_jcsNormalize {v : Json} {bytes : Bytes} (h : jcsNormalize v = .ok bytes) :
    bytes = utf8 (jcsText v) := by
  rw [jcsNormalize] at h
  by_cases hnumbers : numbersWithin maxSafeInteger v = true
  · rw [if_pos hnumbers] at h
    exact (Except.ok.inj h).symm
  · rw [if_neg hnumbers] at h
    cases h

theorem jcsText_eq {v w : Json} {bytes : Bytes} (hv : jcsNormalize v = .ok bytes)
    (hw : jcsNormalize w = .ok bytes) : jcsText v = jcsText w :=
  utf8_injective ((jcsText_of_jcsNormalize hv).symm.trans (jcsText_of_jcsNormalize hw))

/-- The fields of a statement that its attestation covers. -/
def attestationInput (protect : PublicKeyProtected) : AttestationBodyInput where
  subjectHandle := protect.subjectHandle
  keys := protect.keys
  bindingClaims := protect.bindingClaims
  createdAt := protect.createdAt
  expiresAt := protect.expiresAt

/-! ## The check of an attestation -/

/-- How the signature crate words its errors. -/
structure SignatureErrors where
  invalidKey : String
  mismatch : String

section Checks

variable (C : Crypto) (P : Platform) (errors : SignatureErrors)

def buildAttestationBodyBytes (input : AttestationBodyInput) : Except Error Bytes :=
  jcsNormalize input.toJson

/-- The bytes the SSH key has signed. -/
def buildAttestationSignedData (input : AttestationBodyInput) : Except SshError Bytes := do
  let attestationBody ← (buildAttestationBodyBytes input).mapError fun e =>
    .operationFailed s!"Failed to normalize PublicKey attestation body: {e.display}"
  buildSshsigSignedData C attestationBody attestationNamespace

def decodeAttestationSignature (sigB64url : String) : Except SshError Bytes :=
  (decodeBase64urlNopadArray 64 sigB64url "attestation signature").mapError fun e =>
    .operationFailed s!"Failed to decode attestation signature: {e.display}"

/-- The Ed25519 key in an OpenSSH public key line. -/
def extractEd25519PubkeyFromSsh (sshPubkey : String) : Except Fault Bytes := do
  let pubkeyBlob ← liftSsh (decodeSshPublicKeyBlob sshPubkey)
  let (keyType, rest) ← decodeSshString P pubkeyBlob
  if keyType ≠ utf8 keyTypeEd25519 then
    operationFailed (s!"Unsupported key type: expected '{keyTypeEd25519}', "
      ++ s!"got '{fromUtf8Lossy keyType}'")
  else do
    let (pubkeyBytes, rest) ← decodeSshString P rest
    if !rest.isEmpty then
      operationFailed "SSH public key blob contains unexpected trailing data"
    else if pubkeyBytes.length ≠ 32 then
      operationFailed (s!"Invalid Ed25519 public key length: expected 32 bytes, "
        ++ s!"got {pubkeyBytes.length}")
    else if !C.isVerifyingKey pubkeyBytes then
      operationFailed s!"Invalid Ed25519 public key: {errors.invalidKey}"
    else pure pubkeyBytes

/-- Check an attestation over some fields. -/
def verifyAttestation (input : AttestationBodyInput) (method sshPubkey sigB64url : String) :
    Except Fault Unit :=
  if method ≠ attestationMethodSshSign then
    operationFailed s!"Unsupported attestation method: {method}"
  else do
    let signedData ← liftSsh (buildAttestationSignedData C input)
    let sig ← liftSsh (decodeAttestationSignature sigB64url)
    let verifyingKey ← extractEd25519PubkeyFromSsh C P errors sshPubkey
    if !C.verifyStrict verifyingKey signedData sig then
      operationFailed s!"Attestation signature verification failed: {errors.mismatch}"
    else pure ()

/-- Why a key statement was refused. -/
inductive PublicKeyError where
  | verification (error : Error)
  | attestation (fault : Fault)
deriving DecidableEq, Repr

/-- Check a key statement: its kid, its self-signature and its attestation; the signing key. -/
def verifySigningPublicKey (key : PublicKey) : Except PublicKeyError Bytes := do
  let verifyingKey ← (verifyPublicKeySelfSignature C key).mapError .verification
  (verifyAttestation C P errors (attestationInput key.protect) key.protect.attestation.method
    key.protect.attestation.pub key.protect.attestation.sig).mapError .attestation
  pure verifyingKey

/-- An error as the other modules know it. -/
def Fault.toError : Fault → Error
  | .failed (.operationFailed message) => .crypto ("SSH error: " ++ message)
  | .outOfBounds => .crypto "read past the end"

/-- The cryptography with the attestation check of this module. -/
def withSshAttestation : Crypto where
  __ := C
  verifyAttestation := fun protect =>
    (verifyAttestation C P errors (attestationInput protect) protect.attestation.method
      protect.attestation.pub protect.attestation.sig).mapError Fault.toError

/-- A key statement passes attested verification. -/
def Accepted (key : PublicKey) : Prop :=
  ∃ verifyingKey, verifySigningPublicKey C P errors key = .ok verifyingKey

end Checks

section Results

variable {C : Crypto} {P : Platform} {errors : SignatureErrors}

theorem mapError_ok {ε ε' α : Type} {x : Except ε α} {f : ε → ε'} {a : α} :
    x.mapError f = .ok a ↔ x = .ok a := by
  cases x with
  | error e => exact iff_of_false (fun h => by cases h) fun h => by cases h
  | ok b => exact ⟨fun h => congrArg Except.ok (Except.ok.inj h),
      fun h => congrArg Except.ok (Except.ok.inj h)⟩

/-- The key of an SSH public key line is a signing key of 32 bytes. -/
theorem extractEd25519PubkeyFromSsh_ok {sshPubkey : String} {verifyingKey : Bytes}
    (h : extractEd25519PubkeyFromSsh C P errors sshPubkey = .ok verifyingKey) :
    verifyingKey.length = 32 ∧ C.isVerifyingKey verifyingKey = true
      ∧ decodeSshPublicKeyBlob sshPubkey
        = .ok (LengthPrefix.frame (utf8 keyTypeEd25519) ++ LengthPrefix.frame verifyingKey) := by
  obtain ⟨blob, hblob, h⟩ := bind_eq_ok.mp h
  obtain ⟨⟨keyType, rest⟩, htype, h⟩ := bind_eq_ok.mp h
  dsimp only at h
  by_cases hed : keyType = utf8 keyTypeEd25519
  · rw [if_neg (not_not_intro hed)] at h
    obtain ⟨⟨pubkeyBytes, tail⟩, hkey, h⟩ := bind_eq_ok.mp h
    dsimp only at h
    by_cases hempty : tail = []
    · subst hempty
      rw [if_neg (by decide)] at h
      by_cases hsize : pubkeyBytes.length = 32
      · rw [if_neg (not_not_intro hsize)] at h
        by_cases hvalid : C.isVerifyingKey pubkeyBytes = true
        · rw [if_neg (by rw [hvalid]; decide)] at h
          obtain rfl := Except.ok.inj h
          obtain ⟨rfl, _⟩ := decodeSshString_ok.mp hkey
          obtain ⟨rfl, _⟩ := decodeSshString_ok.mp htype
          rw [liftSsh_ok, hed, List.append_nil] at hblob
          exact ⟨hsize, hvalid, hblob⟩
        · rw [if_pos (by simpa using hvalid)] at h
          cases h
      · rw [if_pos hsize] at h
        cases h
    · rw [if_pos (by simpa using hempty)] at h
      cases h
  · rw [if_pos hed] at h
    cases h

/-- **AN ATTESTATION THAT PASSES** is a signature over the canonical body of its fields, in the
    attestation namespace, under the SSH key it names. -/
theorem verifyAttestation_ok {input : AttestationBodyInput} {method sshPubkey sigB64url : String}
    (h : verifyAttestation C P errors input method sshPubkey sigB64url = .ok ()) :
    method = attestationMethodSshSign
      ∧ ∃ body signedData sig verifyingKey,
        jcsNormalize input.toJson = .ok body
        ∧ buildSshsigSignedData C body attestationNamespace = .ok signedData
        ∧ decodeBase64urlNopadArray 64 sigB64url "attestation signature" = .ok sig
        ∧ extractEd25519PubkeyFromSsh C P errors sshPubkey = .ok verifyingKey
        ∧ C.verifyStrict verifyingKey signedData sig = true := by
  rw [verifyAttestation] at h
  by_cases hmethod : method = attestationMethodSshSign
  · rw [if_neg (not_not_intro hmethod)] at h
    obtain ⟨signedData, hdata, h⟩ := bind_eq_ok.mp h
    obtain ⟨sig, hsig, h⟩ := bind_eq_ok.mp h
    obtain ⟨verifyingKey, hkey, h⟩ := bind_eq_ok.mp h
    obtain ⟨body, hbody, hdata⟩ := bind_eq_ok.mp (liftSsh_ok.mp hdata)
    by_cases hverify : C.verifyStrict verifyingKey signedData sig = true
    · exact ⟨hmethod, body, signedData, sig, verifyingKey, mapError_ok.mp hbody, hdata,
        mapError_ok.mp (liftSsh_ok.mp hsig), hkey, hverify⟩
    · rw [if_pos (by simpa using hverify)] at h
      cases h
  · rw [if_pos hmethod] at h
    cases h

/-- **A SELF-SIGNATURE THAT PASSES** is one over the canonical statement, under its own key; and the
    kid is the one derived from the rest. -/
theorem verifyPublicKeySelfSignature_ok {key : PublicKey} {verifyingKey : Bytes}
    (h : verifyPublicKeySelfSignature C key = .ok verifyingKey) :
    derivePublicKeyKid C (removeMember "kid" key.protect.toJson) = .ok key.protect.kid
      ∧ ∃ message signature, jcsNormalize key.protect.toJson = .ok message
        ∧ decodeBase64urlNopadArray 32 key.protect.keys.sig.x "Ed25519 public key"
          = .ok verifyingKey
        ∧ C.isVerifyingKey verifyingKey = true
        ∧ decodeBase64urlNopad key.signature "signature" = .ok signature
        ∧ signature.length = 64 ∧ C.verifyStrict verifyingKey message signature = true := by
  obtain ⟨⟨⟩, hkid, h⟩ := bind_eq_ok.mp h
  obtain ⟨message, hmessage, h⟩ := bind_eq_ok.mp h
  obtain ⟨decoded, hkey, h⟩ := bind_eq_ok.mp h
  obtain ⟨hvalid, h⟩ := throwIf_ok.mp h
  obtain ⟨signature, hsig, h⟩ := bind_eq_ok.mp h
  obtain ⟨hsize, h⟩ := throwIf_ok.mp h
  obtain ⟨hverify, hresult⟩ := throwIf_ok.mp h
  obtain rfl := Except.ok.inj hresult
  obtain ⟨derived, hderived, hkid⟩ := bind_eq_ok.mp hkid
  have hsame : key.protect.kid = derived := by
    by_contra hne
    rw [if_pos hne] at hkid
    cases hkid
  rw [← hsame] at hderived
  exact ⟨hderived, message, signature, mapError_ok.mp hmessage, hkey, by simpa using hvalid,
    mapError_ok.mp hsig, not_not.mp hsize, by simpa using hverify⟩

/-- **THE SAME CHECK AS THE OTHER MODULES'**, with the attestation written out. -/
theorem verifySigningPublicKey_ok {key : PublicKey} {verifyingKey : Bytes} :
    verifySigningPublicKey C P errors key = .ok verifyingKey
      ↔ verifyPublicKeyWithAttestation (withSshAttestation C P errors) key = .ok verifyingKey := by
  have hself : verifyPublicKeySelfSignature (withSshAttestation C P errors) key
      = verifyPublicKeySelfSignature C key := rfl
  rw [verifySigningPublicKey, verifyPublicKeyWithAttestation, hself, bind_eq_ok, bind_eq_ok]
  constructor
  · rintro ⟨vk, hvk, h⟩
    obtain ⟨⟨⟩, hattested, hresult⟩ := bind_eq_ok.mp h
    exact ⟨vk, mapError_ok.mp hvk,
      bind_eq_ok.mpr ⟨(), mapError_ok.mpr (mapError_ok.mp hattested),
        congrArg Except.ok (Except.ok.inj hresult)⟩⟩
  · rintro ⟨vk, hvk, h⟩
    obtain ⟨⟨⟩, hattested, hresult⟩ := bind_eq_ok.mp h
    exact ⟨vk, mapError_ok.mpr hvk,
      bind_eq_ok.mpr ⟨(), mapError_ok.mpr (mapError_ok.mp hattested),
        congrArg Except.ok (Except.ok.inj hresult)⟩⟩

end Results

/-! ## What the kid covers -/

/-- Removing a member leaves the others as they are. -/
theorem member_filter_ne {removed name : String} (hne : name ≠ removed)
    (members : List (String × Json)) :
    member name (members.filter fun m => m.1 ≠ removed) = member name members := by
  induction members with
  | nil => rfl
  | cons first rest ih =>
    obtain ⟨other, v⟩ := first
    by_cases hremoved : other = removed
    · have hother : other ≠ name := fun h => hne (h.symm.trans hremoved)
      rw [List.filter_cons_of_neg (by simpa using hremoved), member, if_neg hother, ih]
    · rw [List.filter_cons_of_pos (by simpa using hremoved), member, member, ih]

/-- The members of a statement. -/
def protectedMembers (p : PublicKeyProtected) : List (String × Json) :=
  [("format", .str p.format), ("subject_handle", .str p.subjectHandle),
      ("kid", .str p.kid), ("keys", p.keys.toJson)] ++ p.claimMembers
    ++ [("attestation", p.attestation.toJson), ("expires_at", .str p.expiresAt)]
    ++ p.createdMembers

theorem nodup_protectedMembers (p : PublicKeyProtected) :
    ((protectedMembers p).map Prod.fst).Nodup := by
  obtain ⟨format, handle, kid, keys, claims, attestation, expires, created⟩ := p
  have hall : (["format", "subject_handle", "kid", "keys", "binding_claims", "attestation",
    "expires_at", "created_at"]).Nodup := by decide
  have hsub : ∀ {names : List String}, names.Sublist ["format", "subject_handle", "kid", "keys",
      "binding_claims", "attestation", "expires_at", "created_at"] → names.Nodup :=
    fun h => hall.sublist h
  cases claims with
  | none =>
    cases created with
    | none =>
      exact hsub (by decide : ["format", "subject_handle", "kid", "keys", "attestation",
        "expires_at"].Sublist _)
    | some _ =>
      exact hsub (by decide : ["format", "subject_handle", "kid", "keys", "attestation",
        "expires_at", "created_at"].Sublist _)
  | some _ =>
    cases created with
    | none =>
      exact hsub (by decide : ["format", "subject_handle", "kid", "keys", "binding_claims",
        "attestation", "expires_at"].Sublist _)
    | some _ => exact hall

/-- The members of a statement, one by one. -/
theorem member_protectedMembers (p : PublicKeyProtected) :
    member "format" (protectedMembers p) = (some p.format).map .str
      ∧ member "subject_handle" (protectedMembers p) = (some p.subjectHandle).map .str
      ∧ member "keys" (protectedMembers p) = (some p.keys).map IdentityKeys.toJson
      ∧ member "binding_claims" (protectedMembers p) = p.bindingClaims.map BindingClaims.toJson
      ∧ member "attestation" (protectedMembers p) = (some p.attestation).map Attestation.toJson
      ∧ member "expires_at" (protectedMembers p) = (some p.expiresAt).map .str
      ∧ member "created_at" (protectedMembers p) = p.createdAt.map .str := by
  obtain ⟨format, handle, kid, keys, claims, attestation, expires, created⟩ := p
  cases claims <;> cases created <;> exact ⟨rfl, rfl, rfl, rfl, rfl, rfl, rfl⟩

/-- **THE TEXT BEHIND THE KID SAYS EVERYTHING ELSE**: with the kid, it determines the statement. -/
theorem eq_of_withoutKid {p q : PublicKeyProtected} (hkid : p.kid = q.kid)
    (h : jcsText (removeMember "kid" p.toJson) = jcsText (removeMember "kid" q.toJson)) :
    p = q := by
  have hnodup : ∀ p : PublicKeyProtected, (((protectedMembers p).filter
      fun m => m.1 ≠ "kid").map Prod.fst).Nodup := fun p =>
    (nodup_protectedMembers p).sublist (List.filter_sublist.map Prod.fst)
  have hlook : ∀ name, name ≠ "kid" → (member name (protectedMembers p)).map canonical
      = (member name (protectedMembers q)).map canonical := by
    intro name hne
    have hsame := member_of_jcsText (hnodup p) (hnodup q) h name
    rwa [member_filter_ne hne, member_filter_ne hne] at hsame
  obtain ⟨hformat, hhandle, hkeys, hclaims, hattestation, hexpires, hcreated⟩ :=
    member_protectedMembers p
  obtain ⟨hformat', hhandle', hkeys', hclaims', hattestation', hexpires', hcreated'⟩ :=
    member_protectedMembers q
  have h1 := hlook "format" (by decide)
  have h2 := hlook "subject_handle" (by decide)
  have h3 := hlook "keys" (by decide)
  have h4 := hlook "binding_claims" (by decide)
  have h5 := hlook "attestation" (by decide)
  have h6 := hlook "expires_at" (by decide)
  have h7 := hlook "created_at" (by decide)
  rw [hformat, hformat'] at h1
  rw [hhandle, hhandle'] at h2
  rw [hkeys, hkeys'] at h3
  rw [hclaims, hclaims'] at h4
  rw [hattestation, hattestation'] at h5
  rw [hexpires, hexpires'] at h6
  rw [hcreated, hcreated'] at h7
  have e1 := Option.some.inj (written_inj reads_text h1)
  have e2 := Option.some.inj (written_inj reads_text h2)
  have e3 := Option.some.inj (written_inj IdentityKeys.reads h3)
  have e4 := written_inj BindingClaims.reads h4
  have e5 := Option.some.inj (written_inj Attestation.reads h5)
  have e6 := Option.some.inj (written_inj reads_text h6)
  have e7 := written_inj reads_text h7
  cases p
  cases q
  simp_all

/-! ## The laws -/

section Laws

variable (C : Crypto) (P : Platform) (errors : SignatureErrors)

/-- Two statements whose kids are computed from different bytes, and have the same digest. -/
def KidCollision (p q : PublicKeyProtected) : Prop :=
  ∃ bytes bytes', jcsNormalize (removeMember "kid" p.toJson) = .ok bytes
    ∧ jcsNormalize (removeMember "kid" q.toJson) = .ok bytes'
    ∧ bytes ≠ bytes' ∧ (C.sha256 bytes).bytes.take 20 = (C.sha256 bytes').bytes.take 20

variable {C P errors}

/-- **A KID NAMES ONE STATEMENT**, unless two of them collide. -/
theorem eq_of_kid {key other : PublicKey} (hkey : Accepted C P errors key)
    (hother : Accepted C P errors other) (hkid : key.protect.kid = other.protect.kid)
    (hnone : ¬ KidCollision C key.protect other.protect) : key.protect = other.protect := by
  obtain ⟨vk, h⟩ := hkey
  obtain ⟨vk', h'⟩ := hother
  obtain ⟨_, hself, _⟩ := bind_eq_ok.mp h
  obtain ⟨_, hself', _⟩ := bind_eq_ok.mp h'
  obtain ⟨hderived, _⟩ := verifyPublicKeySelfSignature_ok (mapError_ok.mp hself)
  obtain ⟨hderived', _⟩ := verifyPublicKeySelfSignature_ok (mapError_ok.mp hself')
  obtain ⟨bytes, hbytes, hresult⟩ := bind_eq_ok.mp hderived
  obtain ⟨bytes', hbytes', hresult'⟩ := bind_eq_ok.mp hderived'
  have hsize : ∀ m, ((C.sha256 m).bytes.take 20).length = 20 := fun m => by
    rw [List.length_take, (C.sha256 m).size]
    rfl
  have hdigest : (C.sha256 bytes).bytes.take 20 = (C.sha256 bytes').bytes.take 20 := by
    refine encodeCrockfordBase32_injective ((hsize _).trans (hsize _).symm) ?_ ?_
    · rw [hsize]
    · exact (Except.ok.inj hresult).trans (hkid.trans (Except.ok.inj hresult').symm)
  by_cases hbytesEq : bytes = bytes'
  · subst hbytesEq
    exact eq_of_withoutKid hkid (jcsText_eq hbytes hbytes')
  · exact absurd ⟨bytes, bytes', hbytes, hbytes', hbytesEq, hdigest⟩ hnone

variable (C P errors)

/-- What attested verification binds a key statement to. -/
structure AttestedKeyLaws : Prop where
  /-- equal kids of accepted keys are kids of one statement, whatever fields it has -/
  kidBinds : ∀ key other, Accepted C P errors key → Accepted C P errors other →
    key.protect.kid = other.protect.kid → ¬ KidCollision C key.protect other.protect →
    key.protect = other.protect
  /-- an accepted key signed the whole of its statement, the kid included, with its own key -/
  selfSigned : ∀ key, Accepted C P errors key → ∃ verifyingKey message signature,
    decodeBase64urlNopadArray 32 key.protect.keys.sig.x "Ed25519 public key" = .ok verifyingKey
    ∧ C.isVerifyingKey verifyingKey = true
    ∧ decodeBase64urlNopad key.signature "signature" = .ok signature
    ∧ signature.length = 64
    ∧ C.verifyStrict verifyingKey message signature = true
    ∧ ∀ protect, jcsNormalize protect.toJson = .ok message ↔ protect = key.protect
  /-- and its SSH key signed the handle, keys, binding claims and times, and nothing else -/
  attested : ∀ key, Accepted C P errors key → ∃ verifyingKey body signedData signature,
    extractEd25519PubkeyFromSsh C P errors key.protect.attestation.pub = .ok verifyingKey
    ∧ key.protect.attestation.method = attestationMethodSshSign
    ∧ decodeBase64urlNopadArray 64 key.protect.attestation.sig "attestation signature"
      = .ok signature
    ∧ buildSshsigSignedData C body attestationNamespace = .ok signedData
    ∧ C.verifyStrict verifyingKey signedData signature = true
    ∧ (∀ message namespaceText, buildSshsigSignedData C message namespaceText = .ok signedData →
      namespaceText = attestationNamespace ∧ C.sha256 message = C.sha256 body)
    ∧ ∀ input, buildAttestationBodyBytes input = .ok body ↔ input = attestationInput key.protect
  /-- where every known key is the record of an approved statement, only such statements are
      known -/
  approved : ∀ (approvals : List (KnownKeyApproval × String)) (knownKeys : List KnownKey)
    (other : PublicKey) (identity : TrustIdentity),
    (∀ known ∈ knownKeys, ∃ approval ∈ approvals, known = approval.1.intoKnownKey approval.2) →
    (∀ approval ∈ approvals, Accepted C P errors approval.1.candidate.publicKey.document
      ∧ ¬ KidCollision C approval.1.candidate.publicKey.document.protect other.protect) →
    Accepted C P errors other → TrustIdentity.fromPublicKey other = .ok identity →
    judgeKnownIdentityMatch knownKeys identity = .exact →
    ∃ approval ∈ approvals, approval.1.candidate.publicKey.document.protect = other.protect
  /-- the check is the one the trust decisions are made with -/
  sameCheck : ∀ key verifyingKey, verifySigningPublicKey C P errors key = .ok verifyingKey
    ↔ verifyPublicKeyWithAttestation (withSshAttestation C P errors) key = .ok verifyingKey

/-- **A KID, A SELF-SIGNATURE AND AN ATTESTATION BIND ALL THE FIELDS THEY ARE FOR.** -/
theorem attestedKeyLaws : AttestedKeyLaws C P errors where
  kidBinds _ _ hkey hother hkid hnone := eq_of_kid hkey hother hkid hnone
  selfSigned key hkey := by
    obtain ⟨vk, h⟩ := hkey
    obtain ⟨signer, hself, _⟩ := bind_eq_ok.mp h
    obtain ⟨_, message, signature, hmessage, hdecode, hvalid, hsig, hsize, hverify⟩ :=
      verifyPublicKeySelfSignature_ok (mapError_ok.mp hself)
    refine ⟨signer, message, signature, hdecode, hvalid, hsig, hsize, hverify, fun protect => ?_⟩
    constructor
    · intro hsame
      exact DocumentTokens.eq_of_jcsText (PublicKeyProtected.reads protect)
        (PublicKeyProtected.reads key.protect) (jcsText_eq hsame hmessage)
    · rintro rfl
      exact hmessage
  attested key hkey := by
    obtain ⟨vk, h⟩ := hkey
    obtain ⟨_, _, h⟩ := bind_eq_ok.mp h
    obtain ⟨⟨⟩, hattested, _⟩ := bind_eq_ok.mp h
    obtain ⟨hmethod, body, signedData, sig, sshKey, hbody, hdata, hsig, hsshKey, hverify⟩ :=
      verifyAttestation_ok (mapError_ok.mp hattested)
    refine ⟨sshKey, body, signedData, sig, hsshKey, hmethod, hsig, hdata, hverify,
      fun message namespaceText hother => buildSshsigSignedData_inj hother hdata, fun input => ?_⟩
    constructor
    · intro hsame
      exact AttestationBodyInput.eq_of_jcsText (jcsText_eq hsame hbody)
    · rintro rfl
      exact hbody
  approved approvals knownKeys other identity hrecords happroved hother hidentity hexact := by
    obtain ⟨known, hfind, _⟩ := judgeKnownIdentityMatch_exact.mp hexact
    obtain ⟨approval, hmem, rfl⟩ := hrecords known (List.mem_of_find?_eq_some hfind)
    obtain ⟨haccepted, hnone⟩ := happroved approval hmem
    -- the record was found by the kid it is recorded under
    have hfound : (approval.1.intoKnownKey approval.2).kid = identity.kid.text := by
      simpa using List.find?_some hfind
    have hkid : approval.1.candidate.publicKey.document.protect.kid = other.protect.kid :=
      hfound.trans (TrustIdentity.fromPublicKey_ok hidentity).2.1
    exact ⟨approval, hmem, eq_of_kid haccepted hother hkid hnone⟩
  sameCheck _ _ := verifySigningPublicKey_ok

end Laws

/-! ## An accepted statement -/

/-- The statement of alice, attested by a key that `ssh-ed25519` knows. -/
def toyAttested (secret : Bytes) : PublicKey :=
  let stated := ToyCrypto.toyStatement ToyDocuments.alice ToyCrypto.toyKid secret
  let sshKey := "ssh-ed25519 AAAAC3NzaC1lZDI1NTE5AAAAIAAAAAAAAAAAAAAAAAAAAAAAAAAAAAAAAAAAAAAAAAAA"
  { stated with protect := { stated.protect with attestation := { stated.protect.attestation with
      pub := sshKey } } }

/-- It is accepted. -/
theorem accepted_toyAttested :
    Accepted ToyCrypto.toyCrypto .bits64 ⟨"", ""⟩ (toyAttested [1]) := by
  have haccepted : (verifySigningPublicKey ToyCrypto.toyCrypto .bits64 ⟨"", ""⟩
      (toyAttested [1])).toOption.isSome = true := by
    decide +kernel
  cases hresult : verifySigningPublicKey ToyCrypto.toyCrypto .bits64 ⟨"", ""⟩ (toyAttested [1]) with
  | error e =>
    rw [hresult] at haccepted
    cases haccepted
  | ok verifyingKey => exact ⟨verifyingKey, hresult⟩

/-- So the key in alice's attestation signed her handle, keys, binding claims and times, and her own
    key the whole statement. -/
theorem attestedKeyLaws_toy :
    (∃ verifyingKey body signedData signature,
      extractEd25519PubkeyFromSsh ToyCrypto.toyCrypto .bits64 ⟨"", ""⟩
          (toyAttested [1]).protect.attestation.pub = .ok verifyingKey
        ∧ buildSshsigSignedData ToyCrypto.toyCrypto body attestationNamespace = .ok signedData
        ∧ ToyCrypto.toyCrypto.verifyStrict verifyingKey signedData signature = true
        ∧ ∀ input, buildAttestationBodyBytes input = .ok body
          ↔ input = attestationInput (toyAttested [1]).protect)
      ∧ ∃ verifyingKey message signature,
        ToyCrypto.toyCrypto.verifyStrict verifyingKey message signature = true
          ∧ ∀ protect, jcsNormalize protect.toJson = .ok message
            ↔ protect = (toyAttested [1]).protect := by
  obtain ⟨verifyingKey, body, signedData, signature, hkey, _, _, hdata, hverify, _, hbody⟩ :=
    (attestedKeyLaws _ _ _).attested _ accepted_toyAttested
  obtain ⟨ownKey, message, ownSignature, _, _, _, _, hown, hstatement⟩ :=
    (attestedKeyLaws _ _ _).selfSigned _ accepted_toyAttested
  exact ⟨⟨verifyingKey, body, signedData, signature, hkey, hdata, hverify, hbody⟩, ownKey, message,
    ownSignature, hown, hstatement⟩

end KeyAttestation
