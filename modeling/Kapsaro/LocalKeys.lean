import Kapsaro.DecryptionKeys
import Kapsaro.KeyExpiry
import Kapsaro.KeySizes
import Kapsaro.KeyStorage
import Kapsaro.MutationReview
import Kapsaro.ToyTrust

/-!
# Local keys — the keys of a member, read from its key store

`feature/context/crypto/loader.rs`, `decryption_key.rs`, `io/keystore/access/key_pair.rs` and
`active.rs`: a command resolves one key of the member, checks and unlocks it, and signs and decrypts
with it; a wrap that was made for an older key is opened with that one, read when it is needed.

* **`loadKeyPair`**, **`resolveKeyPair`** — both halves of a named or of the current key.
* **`loadCryptoContextFromKeystore`** — the context of a command, with the store behind it.
* **`PublishedKey`** — a key that was generated with an SSH key and stands in the member directory.
* **`complete_of_stored`** — the documents a publication leaves make a complete key.
* **`keystoreContextLaws`** — a context loads, signs until its key expires, opens what is wrapped
  for any key of the member that is still there, and says which key is missing otherwise.
-/

namespace LocalKeys

open Limits TextLines JsonText WireTexts WireModel DocumentTokens Base64Codec SignedArtifacts
open KeyProtection KidTexts TrustStore SshWire KeyAttestation TrustJudgment MutationReview
open KeystoreReads KeystoreChanges KeystoreMarker KeystoreSelection KeyStorage KeyUnlock
open KeyGeneration KeyExpiry KeySizes TrustDocument MemberStore
open DecryptionKeys TokenRecords Base64Variants KeyedList
open Envelope hiding PrivateKey

/-! ## Reading a pair -/

/-- The directories of the members, where there are any. -/
abbrev MemberDirectories := MemberHandle → Option MemberDirectory

def keyHalfMissing (member : MemberHandle) (kid : Kid) : Error :=
  .notFound (s!"Key '{kid.text}' of member '{member.text}' is missing one of the two key " ++
    "documents. Restore the key directory from a backup, or remove the key with " ++
    s!"'kapsaro key remove {kid.text} --member-handle {member.text}' and generate a new one.")

def noUsableKeyFound (member : MemberHandle) (halfMissing : List Kid) : Error :=
  if halfMissing.isEmpty then noKeysFound member
  else .notFound (s!"No usable key found for member: {member.text}. Every key this member holds " ++
    "is incomplete, so the keystore has to be repaired before a key can be resolved without " ++
    s!"naming one.{formatRuledOutKeys halfMissing []}")

def openRequiredKey (member : MemberHandle) (dir : MemberDirectory) (kid : Kid) :
    Except Error KeyDirectory := do
  match ← openOptionalKeyDir member dir kid with
  | none => .error (keyNotFound member kid)
  | some entries => do
    ensureKeyDirectorySafe entries
    pure entries

def loadKeyPairInVerifiedNamespace (member : MemberHandle) (dir : MemberDirectory) (kid : Kid) :
    Except Error (PrivateKey × PublicKey) := do
  let entries ← openRequiredKey member dir kid
  let privateKey ← loadPrivateKeyAt member kid entries
  match ← loadOptionalPublicKeyAt member kid entries with
  | none => .error (keyHalfMissing member kid)
  | some publicKey => pure (privateKey, publicKey)

/-- Both halves of a named key. -/
def loadKeyPair (directories : MemberDirectories) (member : MemberHandle) (kid : Kid) :
    Except Error (PrivateKey × PublicKey) :=
  match directories member with
  | none => .error (memberNotFound member)
  | some dir => do
    ensureMemberNamespaceSafe dir
    loadKeyPairInVerifiedNamespace member dir kid

/-- The public half of a named key. -/
def loadPublicKey (directories : MemberDirectories) (member : MemberHandle) (kid : Kid) :
    Except Error PublicKey :=
  match directories member with
  | none => .error (keyNotFound member kid)
  | some dir => do
    ensureMemberNamespaceSafe dir
    match ← openOptionalKeyDir member dir kid with
    | none => .error (keyNotFound member kid)
    | some entries => do
      ensureKeyDirectorySafe entries
      match ← loadOptionalPublicKeyAt member kid entries with
      | none => .error (keyNotFound member kid)
      | some publicKey => pure publicKey

section Resolution

variable (T : TextParsers) (now : Int)

/-- The newest key whose two halves are stored. -/
def selectMostRecentKid (member : MemberHandle) (dir : MemberDirectory) : Except Error Kid := do
  let selectable ← collectSelectableKeys T member dir now .resolution
  match selectable.unreadable with
  | error :: _ => .error error
  | [] =>
    match selectPreferredKid selectable.candidates with
    | some kid => pure kid
    | none => .error (noUsableKeyFound member selectable.halfMissing)

/-- The key that was asked for; otherwise the active one; otherwise the newest. -/
def resolveKid (member : MemberHandle) (dir : MemberDirectory) :
    Option String → Except Error Kid
  | some query => do
    let kids ← listKidsInVerifiedNamespace dir
    let resolved ← resolveUniqueKid (kids.map Kid.text) query
    kidFromCanonical resolved
  | none => do
    ensureMemberNamespaceSafe dir
    match ← loadActiveKid member dir with
    | some active => pure active
    | none => selectMostRecentKid T now member dir

def resolveKeyPair (directories : MemberDirectories) (member : MemberHandle)
    (query : Option String) : Except Error (Kid × PrivateKey × PublicKey) :=
  match directories member with
  | none => .error (noKeysFound member)
  | some dir => do
    let kid ← resolveKid T now member dir query
    let (privateKey, publicKey) ← loadKeyPairInVerifiedNamespace member dir kid
    pure (kid, privateKey, publicKey)

end Resolution

/-! ## The context of a command -/

section Contexts

variable (C : Crypto) (P : Platform) (errors : SignatureErrors)

/-- Both halves of a named key, checked and unlocked. -/
def loadVerifiedPrivateKey (directories : MemberDirectories) (backend : SignatureBackend)
    (sshPubkey : String) (member : MemberHandle) (kid : Kid) :
    Except KeyError (PrivateKeyLoadResult C) := do
  let (privateKey, publicKey) ← lift (loadKeyPair directories member kid)
  decryptKeyPair C P errors privateKey publicKey backend sshPubkey

/-- An error as a context reports it. -/
def KeyError.toError : KeyError → Error
  | .failed error => error
  | .ssh fault => Fault.toError fault

/-- The key a wrap is opened with when it is not the current one; one that is not in the store is
    absent. -/
def loadFallbackKey (directories : MemberDirectories) (backend : SignatureBackend)
    (sshPubkey : String) (member : MemberHandle) (kid : Kid) :
    Except Error (Option Envelope.PrivateKey) :=
  match loadVerifiedPrivateKey C P errors directories backend sshPubkey member kid with
  | .ok loaded => do
    let kemSecret ← decodeKemSecretKey C loaded.privateKey
    pure (some ⟨kemSecret⟩)
  | .error (.failed (.notFound _)) => .ok none
  | .error error => .error (KeyError.toError error)

variable (T : TextParsers) (timeError : String → String) (now : Int)

/-- The context of an unlocked key.  The key is used when the command has come so far that the
    signer has answered `answered` requests. -/
def buildKeystoreCryptoContext (directories : MemberDirectories) (backend : SignatureBackend)
    (sshPubkey : String) (answered : Nat) (member : MemberHandle) (kid : Kid)
    (selectedKidOverride : Bool) (loaded : PrivateKeyLoadResult C) :
    Except Error CryptoContext := do
  let signingKey ← buildSigningKey loaded.privateKey.document
  let kemSecret ← decodeKemSecretKey C loaded.privateKey
  pure {
    memberHandle := member
    kid := kid
    privateKey := ⟨kemSecret⟩
    signingKey := signingKey
    selectedKidOverride := if selectedKidOverride then some kid else none
    loadFallbackKey :=
      loadFallbackKey C P errors directories (backend.after answered) sshPubkey
    enforceSigningKeyNotExpired := LocalKeyPairExpiry.enforceNotExpiredForSigning T timeError
      ⟨loaded.privateExpiresAt, some loaded.publicExpiresAt⟩ now
    loadSignerPublicKey := loadPublicKey directories member kid >>= loadedPublicKey }

/-- Resolve a key, check it, unlock it, and put the store behind it. -/
def loadCryptoContextFromKeystore (directories : MemberDirectories) (backend : SignatureBackend)
    (sshPubkey : String) (answered : Nat) (member : MemberHandle) (explicitKid : Option String) :
    Except KeyError CryptoContext := do
  let (kid, privateKey, publicKey) ← lift (resolveKeyPair T now directories member explicitKid)
  let loaded ← decryptKeyPair C P errors privateKey publicKey backend sshPubkey
  lift (buildKeystoreCryptoContext C P errors T timeError now directories backend sshPubkey answered
    member kid explicitKid.isSome loaded)

end Contexts

variable {C : Crypto} {P : Platform} {errors : SignatureErrors} {T : TextParsers}
variable {timeError : String → String} {now : Int}

/-! ## Keys that were generated and stored -/

/-- A signer that signs the same message the same way, whenever it is asked. -/
def Steady (backend : SignatureBackend) : Prop :=
  ∀ n m namespaceText sshPubkey message, backend.signSshsig n namespaceText sshPubkey message
    = backend.signSshsig m namespaceText sshPubkey message

/-- A key that was generated with an SSH key, and attested by it. -/
structure GeneratedKey (C : Crypto) (P : Platform) (errors : SignatureErrors)
    (backend : SignatureBackend) (sshPubkey : String) where
  checkDeterminism : Bool
  options : KeyGenerationOptions
  material : KeypairMaterial
  fresh : FreshPrivateKeyProtectionMaterial
  result : KeyGenerationResult
  binding : buildSshSigningContext C backend sshPubkey checkDeterminism = .ok options.sshBinding
  wellFormed : options.WellFormed
  generated : generateKey C options material fresh = .ok result
  attests : Attests C P errors options material
  small : optionsSize options ≤ 1000000

/-- A generated key of a member that stands in the member directory, with both halves. -/
structure PublishedKey (C : Crypto) (P : Platform) (errors : SignatureErrors)
    (backend : SignatureBackend) (sshPubkey : String) (member : MemberHandle)
    (dir : MemberDirectory) extends GeneratedKey C P errors backend sshPubkey where
  kid : Kid
  entries : KeyDirectory
  owner : options.memberHandle = member.text
  named : kid.text = result.kid
  complete : CompleteKey member dir kid entries result.privateKey result.publicKey

variable {backend : SignatureBackend} {sshPubkey : String} {member : MemberHandle}
variable {dir : MemberDirectory} {directories : MemberDirectories}

section Reading

variable {kid : Kid} {entries : KeyDirectory} {data : Bytes} {text : String}

theorem loadCappedBytes_ok {subject path : String}
    (hfits : data.length ≤ maxJsonDocumentReadSize) :
    loadCappedBytes maxJsonDocumentReadSize subject path data = .ok data := by
  rw [loadCappedBytes, if_pos hfits]

theorem decodeLoadedText_ok {path : String} (hdecode : utf8Decode data = some text) :
    decodeLoadedText path data = .ok text := by
  rw [decodeLoadedText, hdecode]

/-- The private half is read from a file that holds its text. -/
theorem loadPrivateKeyAt_ok {privateKey : PrivateKey}
    (hfile : entries.lookup privateKeyFile = some (.file ⟨data, true⟩))
    (hfits : data.length ≤ maxJsonDocumentReadSize) (hdecode : utf8Decode data = some text)
    (hparse : ∀ sourceName, parsePrivateKeyStr text sourceName = .ok privateKey)
    (hidentity : privateKey.protect.subjectHandle = member.text
      ∧ privateKey.protect.kid = kid.text) :
    loadPrivateKeyAt member kid entries = .ok privateKey := by
  have hopen : openRegularFileAt (keyEntryPath member kid privateKeyFile) entries privateKeyFile
      = .ok ⟨data, true⟩ := by
    rw [openRegularFileAt, hfile]
  have howner : ensureOpenPrivateKeyIsOwnerOnly (keyEntryPath member kid privateKeyFile)
      ⟨data, true⟩ = .ok () := if_pos rfl
  have hstates : ensureDocumentStatesStoredIdentity privateKey.protect.subjectHandle
      privateKey.protect.kid member kid (keyEntryPath member kid privateKeyFile) = .ok () :=
    if_pos hidentity
  rw [loadPrivateKeyAt]
  refine bind_eq_ok.mpr ⟨_, hopen, bind_eq_ok.mpr ⟨(), howner, ?_⟩⟩
  refine bind_eq_ok.mpr ⟨data, loadCappedBytes_ok hfits, ?_⟩
  refine bind_eq_ok.mpr ⟨text, decodeLoadedText_ok hdecode, ?_⟩
  exact bind_eq_ok.mpr ⟨privateKey, hparse _, bind_eq_ok.mpr ⟨(), hstates, rfl⟩⟩

/-- So is the public half. -/
theorem loadOptionalPublicKeyAt_ok {publicKey : PublicKey}
    (hfile : entries.lookup publicKeyFile = some (.file ⟨data, true⟩))
    (hfits : data.length ≤ maxJsonDocumentReadSize) (hdecode : utf8Decode data = some text)
    (hparse : ∀ sourceName, parsePublicKeyStr text sourceName = .ok publicKey)
    (hidentity : publicKey.protect.subjectHandle = member.text
      ∧ publicKey.protect.kid = kid.text) :
    loadOptionalPublicKeyAt member kid entries = .ok (some publicKey) := by
  have hopen : openRegularFileAt (keyEntryPath member kid publicKeyFile) entries publicKeyFile
      = .ok ⟨data, true⟩ := by
    rw [openRegularFileAt, hfile]
  have hstates : ensureDocumentStatesStoredIdentity publicKey.protect.subjectHandle
      publicKey.protect.kid member kid (keyEntryPath member kid publicKeyFile) = .ok () :=
    if_pos hidentity
  rw [loadOptionalPublicKeyAt, hfile]
  refine bind_eq_ok.mpr ⟨_, hopen, bind_eq_ok.mpr ⟨data, loadCappedBytes_ok hfits, ?_⟩⟩
  refine bind_eq_ok.mpr ⟨text, decodeLoadedText_ok hdecode, ?_⟩
  exact bind_eq_ok.mpr ⟨publicKey, hparse _, bind_eq_ok.mpr ⟨(), hstates, rfl⟩⟩

/-- **STORED DOCUMENTS MAKE A COMPLETE KEY** when they state its identity and can be read. -/
theorem complete_of_stored {privateKey : PrivateKey} {publicKey : PublicKey}
    (hstored : Stored privateKey publicKey (dir.lookup kid.text))
    (hidentity : StatesIdentity member kid privateKey publicKey)
    (hreadable : Readable privateKey publicKey)
    (hparse : ∀ sourceName, parsePublicKeyStr (fileText publicKey.toJson) sourceName = .ok publicKey
      ∧ parsePrivateKeyStr (fileText privateKey.toJson) sourceName = .ok privateKey) :
    ∃ entries, CompleteKey member dir kid entries privateKey publicKey := by
  obtain ⟨entries, hlook, hwritten⟩ := hstored
  obtain ⟨hprivateFile, hpublicFile⟩ := hwritten.documents
  have hdecode : ∀ document, utf8Decode (renderDocument document) = some (fileText document) :=
    fun document => utf8Decode_utf8 _
  refine ⟨entries, hlook, ensureKeyDirectorySafe_of hwritten.safe, ?_, ?_⟩
  · exact loadPrivateKeyAt_ok hprivateFile hreadable.privateHalf (hdecode _)
      (fun sourceName => (hparse sourceName).2) hidentity.1
  · exact loadOptionalPublicKeyAt_ok hpublicFile hreadable.publicHalf (hdecode _)
      (fun sourceName => (hparse sourceName).1) hidentity.2

end Reading

/-- The pair is unlocked by the signer it was generated with, whenever that is asked. -/
theorem GeneratedKey.unlocks (hC : Lawful C) (hkeys : KeyHalves C) (hsteady : Steady backend)
    (key : GeneratedKey C P errors backend sshPubkey) (answered : Nat) :
    ∃ loaded, decryptKeyPair C P errors key.result.privateKey key.result.publicKey
        (backend.after answered) sshPubkey = .ok loaded
      ∧ decodeKemSecretKey C loaded.privateKey = .ok key.material.kemSk.bytes
      ∧ buildSigningKey loaded.privateKey.document = .ok key.material.sigSk.bytes
      ∧ loaded.privateExpiresAt = key.options.expiresAt
      ∧ loaded.publicExpiresAt = key.options.expiresAt := by
  obtain ⟨hline, _, hbackend⟩ := sshBinding_of_built key.binding
  have hsame : (backend.after answered).signSshsig 0 keyProtectionNamespace
        key.options.sshBinding.publicKey (utf8 (buildSignMessage key.fresh.ikmSaltB64))
      = key.options.sshBinding.backend.signSshsig 1 keyProtectionNamespace
        key.options.sshBinding.publicKey (utf8 (buildSignMessage key.fresh.ikmSaltB64)) := by
    rw [hbackend]
    cases key.checkDeterminism with
    | true => exact hsteady _ _ _ _ _
    | false => exact hsteady _ _ _ _ _
  obtain ⟨loaded, hloaded, hkem, hsig, _, _, _, hprivate, hpublic⟩ := decryptKeyPair_generated hC
    hkeys key.binding key.wellFormed key.generated key.attests hsame
  rw [hline] at hloaded
  exact ⟨loaded, hloaded, hkem, hsig, hprivate, hpublic⟩

/-- A generated pair states who it is for. -/
theorem statesIdentity_generated {options : KeyGenerationOptions} {material : KeypairMaterial}
    {fresh : FreshPrivateKeyProtectionMaterial} {result : KeyGenerationResult} {kid : Kid}
    (h : generateKey C options material fresh = .ok result)
    (howner : options.memberHandle = member.text) (hkid : kid.text = result.kid) :
    StatesIdentity member kid result.privateKey result.publicKey := by
  obtain ⟨hsubject, hstated⟩ := publicStates_generated h
  rw [StatesIdentity, protect_generated h, hsubject, hstated, ← howner, hkid]
  exact ⟨⟨rfl, rfl⟩, rfl, rfl⟩

/-- A generated key whose documents are stored is published. -/
theorem GeneratedKey.published (hC : Lawful C) (hkeys : KeyHalves C)
    (key : GeneratedKey C P errors backend sshPubkey) {kid : Kid}
    (hidentity : StatesIdentity member kid key.result.privateKey key.result.publicKey)
    (hstored : Stored key.result.privateKey key.result.publicKey (dir.lookup kid.text)) :
    ∃ published : PublishedKey C P errors backend sshPubkey member dir,
      published.toGeneratedKey = key ∧ published.kid = kid := by
  obtain ⟨entries, hcomplete⟩ := complete_of_stored hstored hidentity
    (readable_generated hC hkeys key.generated key.small)
    (parse_generated hC hkeys key.binding key.wellFormed key.generated)
  have hprotect := protect_generated key.generated
  have howner : key.options.memberHandle = member.text := by
    rw [← hidentity.1.1, hprotect]
    rfl
  have hnamed : kid.text = key.result.kid := by
    rw [← hidentity.1.2, hprotect]
    rfl
  exact ⟨⟨key, kid, entries, howner, hnamed, hcomplete⟩, rfl, rfl⟩

namespace PublishedKey

/-- Both halves are read. -/
theorem readPair (key : PublishedKey C P errors backend sshPubkey member dir) :
    loadKeyPairInVerifiedNamespace member dir key.kid
      = .ok (key.result.privateKey, key.result.publicKey) := by
  have hopen : openOptionalKeyDir member dir key.kid = .ok (some key.entries) := by
    rw [openOptionalKeyDir, key.complete.stands]
  have hrequired : openRequiredKey member dir key.kid = .ok key.entries :=
    bind_eq_ok.mpr ⟨_, hopen, bind_eq_ok.mpr ⟨(), key.complete.safe, rfl⟩⟩
  exact bind_eq_ok.mpr ⟨_, hrequired, bind_eq_ok.mpr ⟨_, key.complete.privateHalf,
    bind_eq_ok.mpr ⟨_, key.complete.publicHalf, rfl⟩⟩⟩

/-- Both halves are found from the key store. -/
theorem load (key : PublishedKey C P errors backend sshPubkey member dir)
    (hdir : directories member = some dir) (hsafe : ensureMemberNamespaceSafe dir = .ok ()) :
    loadKeyPair directories member key.kid = .ok (key.result.privateKey, key.result.publicKey) := by
  rw [loadKeyPair, hdir]
  exact bind_eq_ok.mpr ⟨(), hsafe, key.readPair⟩

/-- So is the public half alone. -/
theorem loadPublic (key : PublishedKey C P errors backend sshPubkey member dir)
    (hdir : directories member = some dir) (hsafe : ensureMemberNamespaceSafe dir = .ok ()) :
    loadPublicKey directories member key.kid = .ok key.result.publicKey := by
  have hopen : openOptionalKeyDir member dir key.kid = .ok (some key.entries) := by
    rw [openOptionalKeyDir, key.complete.stands]
  rw [loadPublicKey, hdir]
  exact bind_eq_ok.mpr ⟨(), hsafe, bind_eq_ok.mpr ⟨_, hopen, bind_eq_ok.mpr ⟨(), key.complete.safe,
    bind_eq_ok.mpr ⟨_, key.complete.publicHalf, rfl⟩⟩⟩⟩

/-- A wrap for the key finds its secret in the key store. -/
theorem fallback (hC : Lawful C) (hkeys : KeyHalves C) (hsteady : Steady backend)
    (key : PublishedKey C P errors backend sshPubkey member dir)
    (hdir : directories member = some dir) (hsafe : ensureMemberNamespaceSafe dir = .ok ())
    (answered : Nat) :
    loadFallbackKey C P errors directories (backend.after answered) sshPubkey member key.kid
      = .ok (some ⟨key.material.kemSk.bytes⟩) := by
  obtain ⟨loaded, hloaded, hkem, _⟩ := key.unlocks hC hkeys hsteady answered
  have hverified : loadVerifiedPrivateKey C P errors directories (backend.after answered) sshPubkey
      member key.kid = .ok loaded :=
    bind_eq_ok.mpr ⟨_, lift_ok.mpr (key.load hdir hsafe), hloaded⟩
  rw [loadFallbackKey, hverified]
  exact bind_eq_ok.mpr ⟨_, hkem, rfl⟩

/-- Two keys with one kid have one secret. -/
theorem secret_eq (hC : Lawful C) (hkeys : KeyHalves C) (hsteady : Steady backend)
    (key other : PublishedKey C P errors backend sshPubkey member dir)
    (hkid : other.kid = key.kid) :
    other.material.kemSk.bytes = key.material.kemSk.bytes := by
  obtain ⟨loaded, hloaded, hkem, _⟩ := key.unlocks hC hkeys hsteady 0
  obtain ⟨loaded', hloaded', hkem', _⟩ := other.unlocks hC hkeys hsteady 0
  have hread := other.readPair
  rw [hkid, key.readPair] at hread
  obtain ⟨hprivate, hpublic⟩ := Prod.mk.inj (Except.ok.inj hread)
  rw [← hprivate, ← hpublic, hloaded] at hloaded'
  obtain rfl := Except.ok.inj hloaded'
  exact Except.ok.inj (hkem'.symm.trans hkem)

end PublishedKey

/-- A kid without a directory has no fallback key, and that is no error. -/
theorem loadFallbackKey_absent {kid : Kid} (hdir : directories member = some dir)
    (hsafe : ensureMemberNamespaceSafe dir = .ok ()) (habsent : dir.lookup kid.text = none) :
    loadFallbackKey C P errors directories backend sshPubkey member kid = .ok none := by
  have hopen : openOptionalKeyDir member dir kid = .ok none := by
    rw [openOptionalKeyDir, habsent]
  have hload : loadKeyPair directories member kid = .error (keyNotFound member kid) := by
    rw [loadKeyPair, hdir]
    dsimp only
    rw [hsafe, loadKeyPairInVerifiedNamespace, openRequiredKey, hopen]
    rfl
  have hverified : loadVerifiedPrivateKey C P errors directories backend sshPubkey member kid
      = .error (.failed (keyNotFound member kid)) := by
    rw [loadVerifiedPrivateKey, hload]
    rfl
  rw [loadFallbackKey, hverified, keyNotFound]

/-! ## The context of a key -/

/-- What a context of a stored key is good for: `key` is the one it was loaded with. -/
structure KeystoreContextLaws (T : TextParsers) (now : Int)
    (key : PublishedKey C P errors backend sshPubkey member dir) (explicitKid : Option String)
    (ctx : CryptoContext) : Prop where
  /-- it opens with the key's own secret -/
  own : OpensOwn ctx member.text key.kid.text key.material.kemSk.bytes
  /-- it signs with the key, under the statement of the key, until the key expires -/
  signs : ∀ signing, buildSigningContext (withSshAttestation C P errors) ctx = .ok signing
    ↔ (∃ expiry, T.rfc3339 key.options.expiresAt = some expiry ∧ now < expiry)
      ∧ signing.signingKey = key.material.sigSk.bytes ∧ signing.signerKid = key.kid
      ∧ signing.signerPub.document = key.result.publicKey
  /-- where no key was asked for, what was sealed for any key that is still there opens -/
  opens : explicitKid = none →
    ∀ (other : PublishedKey C P errors backend sshPubkey member dir)
      {format sid items item masterKey},
      validateWrapItems items "Document" = .ok () → item ∈ items →
      item.recipientHandle = member.text → item.kid = other.kid.text →
      OpensTo C format sid item other.material.kemSk.bytes masterKey →
      unwrapMasterKeyWithContext C format sid items member.text ctx = .ok masterKey
  /-- a wrap for a key that is gone says which one -/
  missing : explicitKid = none → ∀ {format sid items item} {kid : Kid},
    validateWrapItems items "Document" = .ok () → item ∈ items →
    item.recipientHandle = member.text → item.kid = kid.text → dir.lookup kid.text = none →
    unwrapMasterKeyWithContext C format sid items member.text ctx
      = .error (missingDecryptionKeyError member.text none (some kid) (some kid))
  /-- the key that was asked for opens nothing that was wrapped for another -/
  pinned : explicitKid.isSome = true → ∀ {format sid items item masterKey},
    validateWrapItems items "Document" = .ok () → item ∈ items →
    item.recipientHandle = member.text →
    unwrapMasterKeyWithContext C format sid items member.text ctx = .ok masterKey →
    item.kid = key.kid.text

/-- The parts of the context a stored key is loaded into. -/
structure LoadedFrom (C : Crypto) (P : Platform) (errors : SignatureErrors) (T : TextParsers)
    (timeError : String → String) (now : Int) (directories : MemberDirectories)
    (key : PublishedKey C P errors backend sshPubkey member dir) (answered : Nat)
    (explicitKid : Option String) (ctx : CryptoContext) : Prop where
  handle : ctx.memberHandle = member
  kid : ctx.kid = key.kid
  secret : ctx.privateKey = ⟨key.material.kemSk.bytes⟩
  signingKey : ctx.signingKey = key.material.sigSk.bytes
  override : ctx.selectedKidOverride = if explicitKid.isSome then some key.kid else none
  fallback : ctx.loadFallbackKey
    = loadFallbackKey C P errors directories (backend.after answered) sshPubkey
  expiry : ctx.enforceSigningKeyNotExpired = LocalKeyPairExpiry.enforceNotExpiredForSigning T
    timeError ⟨key.options.expiresAt, some key.options.expiresAt⟩ now
  statement : ctx.loadSignerPublicKey = loadPublicKey directories member key.kid >>= loadedPublicKey

/-- A key that is resolved is loaded. -/
theorem loadCryptoContext_ok (hC : Lawful C) (hkeys : KeyHalves C) (hsteady : Steady backend)
    (hdir : directories member = some dir)
    (key : PublishedKey C P errors backend sshPubkey member dir) {explicitKid : Option String}
    (hresolve : resolveKid T now member dir explicitKid = .ok key.kid) (answered : Nat) :
    ∃ ctx, loadCryptoContextFromKeystore C P errors T timeError now directories backend sshPubkey
        answered member explicitKid = .ok ctx
      ∧ LoadedFrom C P errors T timeError now directories key answered explicitKid ctx := by
  obtain ⟨loaded, hloaded, hkem, hsig, hprivate, hpublic⟩ := key.unlocks hC hkeys hsteady 0
  have hpair : resolveKeyPair T now directories member explicitKid
      = .ok (key.kid, key.result.privateKey, key.result.publicKey) := by
    rw [resolveKeyPair, hdir]
    exact bind_eq_ok.mpr ⟨_, hresolve, bind_eq_ok.mpr ⟨_, key.readPair, rfl⟩⟩
  have hzero : backend.after 0 = backend := by
    have hsame : ∀ n, backend.signSshsig (0 + n) = backend.signSshsig n := fun n =>
      congrArg backend.signSshsig (Nat.zero_add n)
    exact congrArg SignatureBackend.mk (funext hsame)
  rw [hzero] at hloaded
  refine ⟨_, bind_eq_ok.mpr ⟨_, lift_ok.mpr hpair, bind_eq_ok.mpr ⟨loaded, hloaded, lift_ok.mpr
    (bind_eq_ok.mpr ⟨_, hsig, bind_eq_ok.mpr ⟨_, hkem, rfl⟩⟩)⟩⟩, ?_⟩
  exact ⟨rfl, rfl, rfl, rfl, rfl, rfl, by rw [hprivate, hpublic], rfl⟩

/-- A member's own item in a checked list, with the set it is read into. -/
theorem ownWrap_of_valid {items : List WrapItem} {item : WrapItem}
    (hvalid : validateWrapItems items "Document" = .ok ()) (hitem : item ∈ items)
    (hhandle : item.recipientHandle = member.text) :
    ∃ set own, WrapSet.parse items "Document" = .ok set ∧ own ∈ set.items
      ∧ own.recipientHandle = member ∧ own.kid.text = item.kid
      ∧ RecipientWrap.parse item = .ok own := by
  obtain ⟨_, _, hitems⟩ := validateWrapItems_ok.mp hvalid
  obtain ⟨wraps, hwraps, hall⟩ := parseRecipientWraps_ok hitems
  obtain ⟨own, hown, hparse⟩ := exists_right_of_mem hall hitem
  obtain ⟨hownHandle, hownKid⟩ := RecipientWrap.parse_ok hparse
  exact ⟨⟨wraps⟩, own, bind_eq_ok.mpr ⟨(), hvalid, bind_eq_ok.mpr ⟨wraps, hwraps, rfl⟩⟩, hown,
    MemberHandle.ext (hownHandle.trans hhandle), hownKid, hparse⟩

namespace LoadedFrom

variable {key : PublishedKey C P errors backend sshPubkey member dir} {answered : Nat}
variable {explicitKid : Option String} {ctx : CryptoContext}

/-- The statement of a loaded key is accepted, and is the key's. -/
theorem statement_ok (hC : Lawful C) (hkeys : KeyHalves C)
    (h : LoadedFrom C P errors T timeError now directories key answered explicitKid ctx)
    (hdir : directories member = some dir) (hsafe : ensureMemberNamespaceSafe dir = .ok ()) :
    ∃ signerPub, ctx.loadSignerPublicKey = .ok signerPub
      ∧ signerPub.document = key.result.publicKey
      ∧ (∃ verifyingKey, verifyPublicKeyWithAttestation (withSshAttestation C P errors)
          signerPub.document = .ok verifyingKey)
      ∧ matchesPublicKey (withSshAttestation C P errors) ctx signerPub.document = .ok true := by
  obtain ⟨_, ⟨body, rawSig, hbuilt⟩, hresult, _⟩ := generateKey_ok key.generated
  have hwf : key.result.publicKey.wellFormed = true := hbuilt.wellFormed hkeys key.wellFormed
  obtain ⟨verifyingKey, haccepted⟩ :=
    (@BuiltStatement.accepted_iff C P errors _ _ _ _ _ hC hkeys hbuilt).mpr key.attests
  refine ⟨⟨key.result.publicKey, hwf⟩, ?_, rfl,
    ⟨verifyingKey, verifySigningPublicKey_ok.mp haccepted⟩, ?_⟩
  · rw [h.statement, key.loadPublic hdir hsafe]
    exact dif_pos hwf
  · have hhandle : key.result.publicKey.protect.subjectHandle = ctx.memberHandle.text := by
      rw [hbuilt.protect, h.handle]
      exact key.owner
    have hkid : key.result.publicKey.protect.kid = ctx.kid.text := by
      rw [← hresult, h.kid, key.named]
    have hsigX : decodeBase64urlNopadArray 32 key.result.publicKey.protect.keys.sig.x
        "Ed25519 public key" = .ok (C.verifyingKey key.material.sigSk.bytes) := by
      rw [hbuilt.protect]
      exact decodeBase64urlNopadArray_iff.mpr ⟨rfl, hkeys.verifyingKey key.material.sigSk⟩
    rw [matchesPublicKey, if_neg (not_not_intro hhandle), if_neg (not_not_intro hkid)]
    refine bind_eq_ok.mpr ⟨_, hsigX, ?_⟩
    rw [h.signingKey]
    exact congrArg Except.ok (decide_eq_true rfl)

/-- The context signs until the key expires. -/
theorem signs (hC : Lawful C) (hkeys : KeyHalves C)
    (h : LoadedFrom C P errors T timeError now directories key answered explicitKid ctx)
    (hdir : directories member = some dir) (hsafe : ensureMemberNamespaceSafe dir = .ok ())
    (signing : SigningContext) :
    buildSigningContext (withSshAttestation C P errors) ctx = .ok signing
      ↔ (∃ expiry, T.rfc3339 key.options.expiresAt = some expiry ∧ now < expiry)
        ∧ signing.signingKey = key.material.sigSk.bytes ∧ signing.signerKid = key.kid
        ∧ signing.signerPub.document = key.result.publicKey := by
  obtain ⟨signerPub, hload, hdocument, ⟨verifyingKey, haccepted⟩, hmatch⟩ :=
    h.statement_ok hC hkeys hdir hsafe
  have hexpiry : ctx.enforceSigningKeyNotExpired = .ok ()
      ↔ ∃ expiry, T.rfc3339 key.options.expiresAt = some expiry ∧ now < expiry := by
    rw [h.expiry, enforceNotExpiredForSigning_iff]
    simp [LocalKeyPairExpiry.texts]
  have hcontext : ctx.enforceSigningKeyNotExpired = .ok () →
      buildSigningContext (withSshAttestation C P errors) ctx
        = .ok ⟨ctx.signingKey, ctx.kid, signerPub⟩ := fun hlive =>
    bind_eq_ok.mpr ⟨(), hlive, bind_eq_ok.mpr ⟨_, hload, bind_eq_ok.mpr ⟨_, haccepted,
      bind_eq_ok.mpr ⟨_, hmatch, rfl⟩⟩⟩⟩
  constructor
  · intro hsigning
    have hlive : ctx.enforceSigningKeyNotExpired = .ok () := by
      obtain ⟨⟨⟩, hlive, _⟩ := bind_eq_ok.mp hsigning
      exact hlive
    rw [hcontext hlive] at hsigning
    obtain rfl := Except.ok.inj hsigning
    exact ⟨hexpiry.mp hlive, h.signingKey, h.kid, hdocument⟩
  · rintro ⟨hlive, hkey, hkid, hpub⟩
    rw [hcontext (hexpiry.mpr hlive)]
    obtain ⟨signingKey, signerKid, ⟨document, hwf⟩⟩ := signing
    obtain rfl : document = signerPub.document := hpub.trans hdocument.symm
    rw [show signingKey = ctx.signingKey from hkey.trans h.signingKey.symm,
      show signerKid = ctx.kid from hkid.trans h.kid.symm]

/-- Without a kid that was asked for, the context has a local key for each key of the member. -/
theorem localKey (hC : Lawful C) (hkeys : KeyHalves C) (hsteady : Steady backend)
    (h : LoadedFrom C P errors T timeError now directories key answered explicitKid ctx)
    (hdir : directories member = some dir) (hsafe : ensureMemberNamespaceSafe dir = .ok ())
    (other : PublishedKey C P errors backend sshPubkey member dir) :
    LocalKey ctx member other.kid ⟨other.material.kemSk.bytes⟩ := by
  by_cases hsame : other.kid = key.kid
  · rw [PublishedKey.secret_eq hC hkeys hsteady key other hsame, ← h.secret]
    exact .active (hsame.trans h.kid.symm)
  · refine .fallback (fun heq => hsame (heq.trans h.kid)) ?_
    rw [h.fallback]
    exact other.fallback hC hkeys hsteady hdir hsafe answered

/-- A wrap for a key that is gone is reported with its kid. -/
theorem missing (h : LoadedFrom C P errors T timeError now directories key answered none ctx)
    (hdir : directories member = some dir) (hsafe : ensureMemberNamespaceSafe dir = .ok ())
    {format : WrapFormat} {sid : Uuid} {items : List WrapItem} {item : WrapItem} {kid : Kid}
    (hvalid : validateWrapItems items "Document" = .ok ()) (hitem : item ∈ items)
    (hhandle : item.recipientHandle = member.text) (hkid : item.kid = kid.text)
    (habsent : dir.lookup kid.text = none) :
    unwrapMasterKeyWithContext C format sid items member.text ctx
      = .error (missingDecryptionKeyError member.text none (some kid) (some kid)) := by
  obtain ⟨set, own, hset, hown, hownHandle, hownKid, _⟩ := ownWrap_of_valid hvalid hitem hhandle
  have hself : set.selfWrapKid member = some kid :=
    (selfWrapKid_eq (oneForEach_of_parse hset).2).mpr
      ⟨own, hown, hownHandle, Kid.ext (hownKid.trans hkid)⟩
  -- the current key has a directory, so the wrap is not for it
  have hother : kid ≠ ctx.kid := by
    rintro rfl
    rw [h.kid, key.complete.stands] at habsent
    cases habsent
  have hselect : ctx.selectLocalDecryptionKey set member.text
      = .error (missingDecryptionKeyError member.text none (some kid) (some kid)) := by
    have hnone : ctx.selectedKidOverride = none := h.override
    rw [CryptoContext.selectLocalDecryptionKey, tryFrom_handle]
    dsimp only [bind, Except.bind]
    rw [hself, hnone, Option.none_or]
    dsimp only
    rw [if_neg hother, h.fallback, loadFallbackKey_absent hdir hsafe habsent]
    rfl
  rw [unwrapMasterKeyWithContext, hset, tryFrom_handle]
  dsimp only [bind, Except.bind]
  rw [hselect]

/-- **WHAT A LOADED KEY IS GOOD FOR**. -/
theorem laws (hC : Lawful C) (hkeys : KeyHalves C) (hsteady : Steady backend)
    (h : LoadedFrom C P errors T timeError now directories key answered explicitKid ctx)
    (hdir : directories member = some dir) (hsafe : ensureMemberNamespaceSafe dir = .ok ()) :
    KeystoreContextLaws T now key explicitKid ctx := by
  refine ⟨⟨member.valid, congrArg Kid.text h.kid, by rw [h.secret], ?_⟩,
    h.signs hC hkeys hdir hsafe, ?_, ?_, ?_⟩
  · rw [h.override, h.kid]
    cases explicitKid with
    | none => exact Or.inl rfl
    | some query => exact Or.inr rfl
  · intro hnone other format sid items item masterKey hvalid hitem hhandle hkid hopens
    obtain ⟨set, own, hset, hown, hownHandle, hownKid, hparse⟩ :=
      ownWrap_of_valid hvalid hitem hhandle
    obtain ⟨wrap, hwrap, hopen⟩ := hopens
    obtain rfl := Except.ok.inj (hparse.symm.trans hwrap)
    have hlocal := h.localKey hC hkeys hsteady hdir hsafe other
    rw [← Kid.ext (hownKid.trans hkid)] at hlocal
    have hchosen : chooseWrap ctx set member.text = .ok (own, ⟨other.material.kemSk.bytes⟩) := by
      refine (chooseWrap_ok (oneForEach_of_parse hset).2).mpr ⟨hown, hownHandle, ?_, hlocal⟩
      intro explicit hexplicit
      rw [h.override, hnone] at hexplicit
      cases hexplicit
    rw [unwrap_eq_chooseWrap]
    exact bind_eq_ok.mpr ⟨set, hset, bind_eq_ok.mpr ⟨_, hchosen, hopen⟩⟩
  · rintro rfl format sid items item kid hvalid hitem hhandle hkid habsent
    exact h.missing hdir hsafe hvalid hitem hhandle hkid habsent
  · intro hsome format sid items item masterKey hvalid hitem hhandle hopened
    obtain ⟨set, own, hset, hown, hownHandle, hownKid, _⟩ := ownWrap_of_valid hvalid hitem hhandle
    have hone := (oneForEach_of_parse hset).2
    rw [unwrap_eq_chooseWrap] at hopened
    obtain ⟨set', hset', hopened⟩ := bind_eq_ok.mp hopened
    obtain rfl := Except.ok.inj (hset.symm.trans hset')
    obtain ⟨⟨chosen, secret⟩, hchosen, _⟩ := bind_eq_ok.mp hopened
    obtain ⟨hchosenMem, hchosenHandle, hexplicit, _⟩ := (chooseWrap_ok hone).mp hchosen
    have hsame := hone.unique hown hchosenMem (hchosenHandle.trans hownHandle.symm)
    rw [← hownKid, ← hsame, hexplicit key.kid (by rw [h.override, if_pos hsome])]

end LoadedFrom

/-- **A KEY OF THE STORE SERVES**: whichever way it is resolved, its context loads, signs until the
    key expires, and opens what is wrapped for the member under any key that is still there. -/
theorem keystoreContextLaws (hC : Lawful C) (hkeys : KeyHalves C) (hsteady : Steady backend)
    (hdir : directories member = some dir) (hintact : Intact member dir)
    (key : PublishedKey C P errors backend sshPubkey member dir) {explicitKid : Option String}
    (hresolve : resolveKid T now member dir explicitKid = .ok key.kid) (answered : Nat) :
    ∃ ctx, loadCryptoContextFromKeystore C P errors T timeError now directories backend sshPubkey
        answered member explicitKid = .ok ctx
      ∧ KeystoreContextLaws T now key explicitKid ctx := by
  obtain ⟨ctx, hctx, h⟩ := @loadCryptoContext_ok C P errors T timeError now _ _ _ _ _ hC hkeys
    hsteady hdir key _ hresolve answered
  exact ⟨ctx, hctx, h.laws hC hkeys hsteady hdir (listKids_of_safe hintact.safe).1⟩

/-! ## A small key store -/

/-- The toy SSH key attests the toy key. -/
theorem attests_toy :
    Attests ToyCrypto.toyCrypto .bits64 ⟨"", ""⟩ toyOptions toyMaterial := by
  obtain ⟨result, h⟩ := generateKey_toy
  obtain ⟨_, ⟨body, rawSig, hbuilt⟩, _, _⟩ := generateKey_ok h
  have hdata : ∃ signedData, buildSshsigSignedData ToyCrypto.toyCrypto body attestationNamespace
      = .ok signedData := by
    have hsome : (buildSshsigSignedData ToyCrypto.toyCrypto [] attestationNamespace).toOption.isSome
        = true := by decide +kernel
    cases hdata : buildSshsigSignedData ToyCrypto.toyCrypto [] attestationNamespace with
    | ok signedData => exact ⟨signedData, hdata⟩
    | error e =>
      rw [hdata] at hsome
      cases hsome
  obtain ⟨signedData, hdata⟩ := hdata
  have hanswer : rawSig = ToyCrypto.pad 64 [] := (Except.ok.inj hbuilt.answered).symm
  have hkey : extractEd25519PubkeyFromSsh ToyCrypto.toyCrypto .bits64 ⟨"", ""⟩ toyLine
      = .ok (List.replicate 32 0) := by
    have hsame : (extractEd25519PubkeyFromSsh ToyCrypto.toyCrypto .bits64 ⟨"", ""⟩ toyLine).toOption
        = some (List.replicate 32 0) := by decide +kernel
    cases hkey : extractEd25519PubkeyFromSsh ToyCrypto.toyCrypto .bits64 ⟨"", ""⟩ toyLine with
    | ok bytes =>
      rw [hkey] at hsame
      exact congrArg Except.ok (Option.some.inj hsame)
    | error e =>
      rw [hkey] at hsame
      cases hsame
  refine ⟨body, signedData, rawSig, _, hbuilt.attested, hdata, hbuilt.answered, hkey, ?_⟩
  rw [hanswer]
  rfl

theorem exists_generatedKey_toy :
    ∃ key : GeneratedKey ToyCrypto.toyCrypto .bits64 ⟨"", ""⟩ toyBackend toyLine,
      key.options = toyOptions := by
  obtain ⟨result, h⟩ := generateKey_toy
  have hsmall : optionsSize toyOptions ≤ 1000000 := by decide +kernel
  exact ⟨⟨true, toyOptions, toyMaterial, toyFresh, result, buildSshSigningContext_toy,
    wellFormed_toyOptions, h, attests_toy, hsmall⟩, rfl⟩

/-- A member directory with one key, which is the active one. -/
def toyDirectory (kid : Kid) (result : KeyGenerationResult) : MemberDirectory :=
  [(activeFile, .file ⟨activeBytes kid, true⟩),
    (kid.text, .directory
      [(privateKeyFile, .file ⟨renderDocument result.privateKey.toJson, true⟩),
        (publicKeyFile, .file ⟨renderDocument result.publicKey.toJson, true⟩)])]

theorem stored_toyDirectory (kid : Kid) (result : KeyGenerationResult) :
    Stored result.privateKey result.publicKey ((toyDirectory kid result).lookup kid.text) := by
  rw [toyDirectory, lookup_cons_ite, if_neg (kid_ne_active kid), lookup_cons_ite, if_pos rfl]
  exact stored_keyEntries result.privateKey result.publicKey

/-- The marker of the toy directory names its key. -/
theorem loadActiveKid_toyDirectory (kid : Kid) (result : KeyGenerationResult) :
    loadActiveKid member (toyDirectory kid result) = .ok (some kid) := by
  refine @loadActiveKid_written _ _ _ true ?_
  rw [toyDirectory, lookup_cons_ite, if_pos rfl]

/-- The toy directory is in order once its key is complete. -/
theorem intact_toyDirectory {kid : Kid} {result : KeyGenerationResult}
    (hholds : KeystoreMarker.HoldsKey member (toyDirectory kid result) kid) :
    Intact member (toyDirectory kid result) := by
  refine ⟨fun e he => ?_, Or.inr ⟨kid, loadActiveKid_toyDirectory kid result, hholds⟩⟩
  rcases List.mem_cons.mp he with rfl | he
  · exact KeystoreSelection.ensureSafe_active
  · rw [List.mem_singleton.mp he, ensureKeystoreEntrySafe, if_neg (kid_not_staging kid),
      KeystoreLevel.storedType, if_neg (kid_ne_active kid), if_pos kid.valid]
    rfl

/-- The context of the toy key. -/
theorem keystoreContextLaws_toy :
    ∃ dir, ∃ key : PublishedKey ToyCrypto.toyCrypto .bits64 ⟨"", ""⟩ toyBackend toyLine
        ToyDocuments.alice dir, ∃ ctx,
      loadCryptoContextFromKeystore ToyCrypto.toyCrypto .bits64 ⟨"", ""⟩ ToyTrust.toyParsers
          (fun _ => "") 0 (fun _ => some dir) toyBackend toyLine 7 ToyDocuments.alice none = .ok ctx
        ∧ KeystoreContextLaws ToyTrust.toyParsers 0 key none ctx := by
  obtain ⟨generated, hoptions⟩ := exists_generatedKey_toy
  obtain ⟨kid, hkid⟩ : ∃ kid : Kid, kid.text = generated.result.kid :=
    ⟨⟨_, isKidText_generated generated.generated⟩, rfl⟩
  have hidentity : StatesIdentity ToyDocuments.alice kid generated.result.privateKey
      generated.result.publicKey :=
    statesIdentity_generated generated.generated (by rw [hoptions]; rfl) hkid
  obtain ⟨key, _, hkey⟩ := generated.published ToyCrypto.lawful_toyCrypto keyHalves_toyCrypto
    hidentity (stored_toyDirectory kid generated.result)
  have hholds : KeystoreMarker.HoldsKey ToyDocuments.alice (toyDirectory kid generated.result)
      key.kid := ⟨key.entries, _, _, key.complete⟩
  rw [hkey] at hholds
  have hintact := intact_toyDirectory hholds
  have hresolve : resolveKid ToyTrust.toyParsers 0 ToyDocuments.alice
      (toyDirectory kid generated.result) none = .ok key.kid := by
    rw [hkey]
    exact bind_eq_ok.mpr ⟨(), (listKids_of_safe hintact.safe).1,
      bind_eq_ok.mpr ⟨_, loadActiveKid_toyDirectory kid _, rfl⟩⟩
  have hsteady : Steady toyBackend := fun _ _ _ _ _ => rfl
  obtain ⟨ctx, hctx, hlaws⟩ := @keystoreContextLaws _ _ _ ToyTrust.toyParsers (fun _ => "") 0 _ _ _
    _ (fun _ => some (toyDirectory kid generated.result)) ToyCrypto.lawful_toyCrypto
    keyHalves_toyCrypto hsteady rfl hintact key none hresolve 7
  exact ⟨_, key, ctx, hctx, hlaws⟩

end LocalKeys
