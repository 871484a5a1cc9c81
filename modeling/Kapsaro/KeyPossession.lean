import Kapsaro.ToyDocuments

/-!
# Key possession — what has to match before a plaintext is released

The three ways to a plaintext, over both formats: one kv entry, all kv entries, and a file
payload.

* **`decryptKvSingleEntryWithContext`** — one entry of a verified document, by its key.
* **`SealedDocument`** — a document of either format, with its MAC key, its canonical body and its
  proof.
* **`Releases`** — a member gets a plaintext out of a document, one way or another.
* **`CollisionFree`** — ideal HMAC: among the inputs that were ever used, the tag tells them apart.
* **`possession_of_release`** — a released plaintext comes with a matching proof, and a proof that
  was made for another key, body or signer does not match.
-/

namespace KeyPossession

open JsonText Limits TextLines Base64Codec WireTexts WireModel DocumentTokens TokenRecords Envelope
open KvDocument SignedArtifacts KeyedList KvDraft KvSession FileDocument RewrapPlan FileRewrap
open JsonSize ToyCrypto ToyDocuments

/-! ## One entry -/

/-- The entry under a key. -/
def findEntry (doc : KvEncDocument) (key : String) : Option KvEncEntry :=
  doc.entries.find? fun entry => entry.key = key

/-- Decrypt one entry of a verified document. -/
def decryptKvSingleEntryWithContext (C : Crypto) (doc : KvEncDocument) (memberHandle : String)
    (keyCtx : CryptoContext) (key : String) : Except Error Bytes := do
  let masterKey ← unwrapMasterKeyWithContext C .kv doc.head.sid doc.wrap.wrap memberHandle keyCtx
  verifyKvKeyPossession C doc masterKey
  match findEntry doc key with
  | none => throw (.invalidOperation s!"Key '{key}' not found")
  | some entry =>
    decryptEntry C entry.value entry.key doc.head.alg.aead
      (kvKeySchedule C masterKey doc.head.sid) doc.head.sid

/-! ## Documents of either format -/

/-- A document whose plaintext is released on a proof. -/
inductive SealedDocument where
  | kv (doc : KvEncDocument)
  | file (doc : FileEncDocument)

namespace SealedDocument

variable (C : Crypto)

/-- Open the master key for a member. -/
def unwrap (memberHandle : String) (keyCtx : CryptoContext) :
    SealedDocument → Except Error MasterKey
  | .kv doc => unwrapMasterKeyWithContext C .kv doc.head.sid doc.wrap.wrap memberHandle keyCtx
  | .file doc =>
    unwrapMasterKeyWithContext C .file doc.protect.sid doc.protect.wrap memberHandle keyCtx

/-- The MAC key under a master key. -/
def macKey (masterKey : MasterKey) : SealedDocument → FixedBytes 32
  | .kv doc => deriveKvMacKey C (kvKeySchedule C masterKey doc.head.sid)
  | .file doc => deriveFileMacKey C (fileKeySchedule C masterKey doc.protect.sid)

/-- The canonical body. -/
def body : SealedDocument → Bytes
  | .kv doc => buildKvArtifactBodyBytes doc
  | .file doc => buildFileArtifactBodyBytes doc.protect

def signature : SealedDocument → ArtifactSignature
  | .kv doc => doc.signature
  | .file doc => doc.signature

/-- The message the proof of a document has to be made for. -/
def macMessage (doc : SealedDocument) : Bytes :=
  buildKeyPossessionMacMessage doc.body doc.signature.kid

end SealedDocument

/-- A member gets a plaintext out of a document. -/
inductive Releases (C : Crypto) (memberHandle : String) (keyCtx : CryptoContext) :
    SealedDocument → Prop
  | entry {doc : KvEncDocument} {key : String} {value : Bytes} :
      decryptKvSingleEntryWithContext C doc memberHandle keyCtx key = .ok value →
      Releases C memberHandle keyCtx (.kv doc)
  | entries {doc : KvEncDocument} {values : List (String × Bytes)} :
      decryptKvDocumentWithContext C doc memberHandle keyCtx = .ok values →
      Releases C memberHandle keyCtx (.kv doc)
  | payload {doc : FileEncDocument} {content : Bytes} :
      decryptFileDocumentWithContext C doc memberHandle keyCtx = .ok content →
      Releases C memberHandle keyCtx (.file doc)

/-- Ideal HMAC: of the keys and messages that were ever used, no two give the same tag. -/
def CollisionFree (C : Crypto) (used : Bytes → Bytes → Prop) : Prop :=
  ∀ {key message key' message'}, used key message → used key' message' →
    (C.hmacSha256 key message).bytes = (C.hmacSha256 key' message').bytes →
      key = key' ∧ message = message'

variable {C : Crypto}

/-- **EVERY WAY TO A PLAINTEXT CHECKS THE PROOF** with the key it opened, over the body of the
    document and the kid of its signer. -/
theorem proof_of_release {memberHandle : String} {keyCtx : CryptoContext} {doc : SealedDocument}
    (h : Releases C memberHandle keyCtx doc) :
    ∃ masterKey, doc.unwrap C memberHandle keyCtx = .ok masterKey
      ∧ (C.hmacSha256 (doc.macKey C masterKey).bytes doc.macMessage).bytes
        = doc.signature.mac.tag := by
  cases h with
  | entry h =>
    obtain ⟨masterKey, hunwrap, h⟩ := bind_eq_ok.mp h
    obtain ⟨_, hproof, _⟩ := bind_eq_ok.mp h
    exact ⟨masterKey, hunwrap, verifyKeyPossessionProof_ok hproof⟩
  | entries h =>
    obtain ⟨masterKey, hunwrap, h⟩ := bind_eq_ok.mp h
    obtain ⟨_, hproof, _⟩ := bind_eq_ok.mp h
    exact ⟨masterKey, hunwrap, verifyKeyPossessionProof_ok hproof⟩
  | payload h =>
    obtain ⟨_, _, h⟩ := bind_eq_ok.mp h
    obtain ⟨_, _, h⟩ := bind_eq_ok.mp h
    obtain ⟨_, h⟩ := throwIf_ok.mp h
    obtain ⟨masterKey, hunwrap, h⟩ := bind_eq_ok.mp h
    obtain ⟨_, hproof, _⟩ := bind_eq_ok.mp h
    exact ⟨masterKey, hunwrap, verifyKeyPossessionProof_ok hproof⟩

/-- **A RELEASED PLAINTEXT COMES WITH A MATCHING PROOF.**  The proof, recomputed with the opened
    master key over the canonical body and the kid of the signer, is the document's; under ideal
    HMAC it was made with that very key, for that body and that signer, so that a proof made by
    somebody without the master key, for another document, or by another signer releases
    nothing. -/
theorem possession_of_release {memberHandle : String} {keyCtx : CryptoContext}
    {doc : SealedDocument} (h : Releases C memberHandle keyCtx doc) :
    ∃ masterKey, doc.unwrap C memberHandle keyCtx = .ok masterKey
      ∧ (C.hmacSha256 (doc.macKey C masterKey).bytes doc.macMessage).bytes
        = doc.signature.mac.tag
      ∧ ∀ used : Bytes → Bytes → Prop, CollisionFree C used →
        used (doc.macKey C masterKey).bytes doc.macMessage →
        ∀ key body signerKid, used key (buildKeyPossessionMacMessage body signerKid) →
          (C.hmacSha256 key (buildKeyPossessionMacMessage body signerKid)).bytes
            = doc.signature.mac.tag →
          key = (doc.macKey C masterKey).bytes ∧ body = doc.body
            ∧ signerKid = doc.signature.kid := by
  obtain ⟨masterKey, hunwrap, hproof⟩ := proof_of_release h
  refine ⟨masterKey, hunwrap, hproof, ?_⟩
  intro used hfree hchecked key body signerKid hmade htag
  obtain ⟨hkey, hmessage⟩ := hfree hmade hchecked (htag.trans hproof.symm)
  obtain ⟨hbody, hkid⟩ := macMessage_injective hmessage
  exact ⟨hkey, hbody, hkid⟩

/-- Alice gets the value of a toy document, and the proof was made with her master key. -/
theorem possession_of_release_toyDraft :
    ∃ doc, Releases toyCrypto alice.text (toyContext alice toyKid []) doc
      ∧ doc.unwrap toyCrypto alice.text (toyContext alice toyKid []) = .ok (pad 32 [1])
      ∧ (toyCrypto.hmacSha256 (doc.macKey toyCrypto (pad 32 [1])).bytes doc.macMessage).bytes
        = doc.signature.mac.tag
      ∧ ∀ key body signerKid, key = (doc.macKey toyCrypto (pad 32 [1])).bytes
          ∧ buildKeyPossessionMacMessage body signerKid = doc.macMessage →
        body = doc.body ∧ signerKid = doc.signature.kid := by
  have hshort : stringSize alice.text ≤ 200 := by decide
  have hwraps := smallWraps_single hshort toyKid [] (pad 32 [1])
  have hwrap := hwraps.unremoved
  have hdraft := toyLike_toyDraft toySid hwrap.toWrapChecked (pad 32 [1])
  obtain ⟨text, signature, _, hsigned, _⟩ := verify_toyLike hwrap hdraft hshort []
  have hreads := decrypt_toyLike hwrap.toWrapChecked hdraft hsigned List.mem_cons_self
  obtain ⟨doc, hreleases, hopened⟩ : ∃ doc,
      Releases toyCrypto alice.text (toyContext alice toyKid []) doc
        ∧ doc.unwrap toyCrypto alice.text (toyContext alice toyKid []) = .ok (pad 32 [1]) :=
    ⟨_, Releases.entries hreads,
      unwrap_toyWrap (hwrap.items "Document") List.mem_cons_self⟩
  refine ⟨doc, hreleases, hopened, ?_⟩
  obtain ⟨masterKey, hunwrap, hproof, hmade⟩ := possession_of_release hreleases
  rw [hopened] at hunwrap
  obtain rfl := Except.ok.inj hunwrap
  refine ⟨hproof, ?_⟩
  rintro key body signerKid ⟨rfl, hmessage⟩
  have hfree : CollisionFree toyCrypto fun k m =>
      k = (doc.macKey toyCrypto (pad 32 [1])).bytes ∧ m = doc.macMessage := by
    rintro k m k' m' ⟨rfl, rfl⟩ ⟨rfl, rfl⟩ _
    exact ⟨rfl, rfl⟩
  have hlast := hmade _ hfree ⟨rfl, rfl⟩ _ body signerKid ⟨rfl, hmessage⟩ (by
    rw [hmessage]
    exact hproof)
  exact hlast.2

end KeyPossession
