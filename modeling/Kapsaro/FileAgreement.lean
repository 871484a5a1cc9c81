import Kapsaro.ToyRewraps

/-!
# File agreement — a rewrap against a normal decrypt

The rewrap of a file-enc document opens the content key and decrypts the payload on a path of its
own.  What a normal decrypt checks beyond that path is one comparison: the sid of the payload
header against the sid of the document.

* **`DecryptChecks`** — what a normal decrypt asks of a document before it decrypts.
* **`AgreesWithDecrypt`** — a rewrap only signs again what a normal decrypt would read, and what
  it encrypts anew is what that decrypt reads.
* **`agrees_iff_payloadSid`** — a successful rewrap agrees exactly when the two sids are equal.
* **`disagrees_toyFile`** — a signed file with two sids, encrypted anew by a rewrap.
-/

namespace FileAgreement

open JsonText Limits TextLines Base64Codec WireTexts WireModel DocumentTokens TokenRecords Envelope
open SignedArtifacts KeyedList Recipients FileDocument RewrapPlan FileRewrap JsonSize ToyCrypto
open ToyDocuments ToyRewraps

/-- What a normal decrypt asks of a document. -/
structure DecryptChecks (C : Crypto) (doc : FileEncDocument) (memberHandle : String)
    (keyCtx : CryptoContext) : Prop where
  format : validateFileEncDocumentFormat doc = .ok ()
  payload : validateFileEncDocumentPayload doc = .ok ()
  sid : doc.protect.payload.protect.sid = doc.protect.sid
  possession : ∃ masterKey, unwrapMasterKeyWithContext C .file doc.protect.sid doc.protect.wrap
      memberHandle keyCtx = .ok masterKey
    ∧ verifyFileKeyPossession C doc masterKey = .ok ()

/-- The plan of a rewrap of a document. -/
def filePlan (C : Crypto) (ctx : RewrapContext) (input : FileEncDocument) : RewrapOperationPlan :=
  planFor (fileExecutor C) ctx.options input.protect.wrap ctx.targetMembers
    (FileRewrapExecutor.new input ctx)

/-- A rewrap that wrote a text agrees with a normal decrypt of its input by the same member: the
    input passes the checks, and when a recipient was removed or the key was rotated, the payload
    that was encrypted anew is what the decrypt returns. -/
def AgreesWithDecrypt (C : Crypto) (draws : RewrapDraws) (ctx : RewrapContext)
    (input : FileEncDocument) (text : String) : Prop :=
  DecryptChecks C input ctx.memberHandle ctx.keyCtx
    ∧ ∀ entropy, renewalDraws draws (filePlan C ctx input) = some entropy →
      ∃ plaintext output,
        decryptFileDocumentWithContext C input ctx.memberHandle ctx.keyCtx = .ok plaintext
        ∧ text = writeFileEnc output
        ∧ encryptFilePayloadContent C plaintext (payloadKey C entropy.masterKey input.protect.sid)
            input.protect.payload.protect (entropy.nonce 0) = .ok output.protect.payload.encrypted

variable {C : Crypto}

/-- What opening the content key checks. -/
theorem possession_of_unwrap {doc : FileEncDocument} {memberHandle : String}
    {keyCtx : CryptoContext} {key : MasterKey}
    (h : unwrapVerifiedFileContentKey C doc memberHandle keyCtx = .ok key) :
    unwrapMasterKeyWithContext C .file doc.protect.sid doc.protect.wrap memberHandle keyCtx
        = .ok key
      ∧ verifyFileKeyPossession C doc key = .ok () := by
  obtain ⟨masterKey, hunwrap, h⟩ := bind_eq_ok.mp h
  obtain ⟨_, hproof, h⟩ := bind_eq_ok.mp h
  obtain rfl := Except.ok.inj h
  exact ⟨hunwrap, hproof⟩

/-- An executor that holds a content key has opened that of its input. -/
theorem exists_contentKey {ctx : RewrapContext} {input : FileEncDocument} {drawn : Option Entropy}
    {e : FileRewrapExecutor} {loaded : MasterKey} (h : FileTracks C ctx input drawn e)
    (hloaded : e.contentKey.loaded = some loaded) :
    ∃ key, unwrapVerifiedFileContentKey C input ctx.memberHandle ctx.keyCtx = .ok key := by
  cases h.origin with
  | original hkey _ _ => exact ⟨loaded, (hkey loaded hloaded).2⟩
  | rotated _ hold _ _ _ => exact ⟨_, hold⟩

/-- **A NORMAL DECRYPT READS THE PAYLOAD** once its checks pass. -/
theorem decrypt_of_checks {doc : FileEncDocument} {memberHandle : String} {keyCtx : CryptoContext}
    {key : MasterKey} {plaintext : Bytes} (h : DecryptChecks C doc memberHandle keyCtx)
    (hkey : unwrapVerifiedFileContentKey C doc memberHandle keyCtx = .ok key)
    (hpayload : decryptFilePayload C doc (payloadKey C key doc.protect.sid) = .ok plaintext) :
    decryptFileDocumentWithContext C doc memberHandle keyCtx = .ok plaintext := by
  obtain ⟨hunwrap, hproof⟩ := possession_of_unwrap hkey
  exact bind_eq_ok.mpr ⟨(), h.format, bind_eq_ok.mpr ⟨(), h.payload, throwIf_ok.mpr
    ⟨not_not_intro h.sid, bind_eq_ok.mpr ⟨key, hunwrap, bind_eq_ok.mpr ⟨(), hproof, hpayload⟩⟩⟩⟩⟩

/-- **A REWRAP AGREES WITH DECRYPTION EXACTLY WHEN THE SIDS DO.**  The formats, the cipher and the
    key possession hold for whatever a rewrap accepts; the sid of the payload header is never
    compared. -/
theorem agrees_iff_payloadSid {draws : RewrapDraws} {content text : String} {ctx : RewrapContext}
    {input : FileEncDocument} (hinput : verifyFileContent C content = .ok input)
    (h : rewrapFileDocument C draws content ctx = .ok text) :
    AgreesWithDecrypt C draws ctx input text
      ↔ input.protect.payload.protect.sid = input.protect.sid := by
  constructor
  · exact fun hagrees => hagrees.1.sid
  · intro hsid
    obtain ⟨run⟩ := file_run h
    have hsame : run.input = input := Except.ok.inj (run.verified.symm.trans hinput)
    obtain ⟨hopened, _, hloaded⟩ := tracks_ensure run.tracks run.key
    obtain ⟨key, hkey⟩ := exists_contentKey hopened hloaded
    rw [hsame] at hkey
    obtain ⟨parsed, hparse, hverify⟩ := bind_eq_ok.mp hinput
    have hparsed : parsed = input := by
      obtain ⟨_, _, hverify⟩ := bind_eq_ok.mp hverify
      obtain ⟨_, _, hverify⟩ := bind_eq_ok.mp hverify
      obtain ⟨_, _, hverify⟩ := bind_eq_ok.mp hverify
      exact Except.ok.inj hverify
    rw [hparsed] at hparse
    obtain ⟨hformat, hpayload, haead⟩ := formats_of_parse hparse
    obtain ⟨hunwrap, hproof⟩ := possession_of_unwrap hkey
    have hchecks : DecryptChecks C input ctx.memberHandle ctx.keyCtx :=
      ⟨if_neg (not_not_intro hformat),
        (if_neg (not_not_intro hpayload)).trans (if_neg (not_not_intro haead)), hsid,
        key, hunwrap, hproof⟩
    refine ⟨hchecks, fun entropy hrenewal => ?_⟩
    have htracks := run.tracks
    rw [hsame] at htracks
    rw [filePlan] at hrenewal
    rw [hrenewal] at htracks
    cases htracks.origin with
    | rotated _ hold hplain hencrypted _ =>
      refine ⟨_, run.output, decrypt_of_checks hchecks hold hplain, run.text_eq, ?_⟩
      rw [run.protect_eq]
      exact hencrypted

/-- A file of alice, whatever sid its payload carries, is rotated. -/
theorem rotated_aliceFile (payloadSid : Uuid) :
    ∃ doc text, verifyFileContent toyCrypto (writeFileEnc doc) = .ok doc
      ∧ doc.protect.sid = toySid ∧ doc.protect.payload.protect.sid = payloadSid
      ∧ rewrapFileDocument toyCrypto sameDraws (writeFileEnc doc) aliceRotates = .ok text := by
  have hitems := smallWraps_team course_rotation.before (pad 32 [1])
  obtain ⟨doc, hdoc⟩ :=
    verify_toyFile toySid payloadSid hitems shortHistory_none (pad 32 [1]) [] alice []
  obtain ⟨rotated, hrotated, _⟩ := rotated_toyFile shortHistory_none (by decide) hdoc
  refine ⟨doc, _, hdoc.verified, ?_, ?_, hrotated⟩
  · rw [hdoc.protect_eq]
    rfl
  · rw [hdoc.protect_eq]
    rfl

/-- A rotation of a file with one sid agrees with decryption. -/
theorem agrees_iff_payloadSid_toyFile :
    ∃ doc text, rewrapFileDocument toyCrypto sameDraws (writeFileEnc doc) aliceRotates = .ok text
      ∧ AgreesWithDecrypt toyCrypto sameDraws aliceRotates doc text := by
  obtain ⟨doc, text, hverify, hsid, hpayload, hrewrap⟩ := rotated_aliceFile toySid
  exact ⟨doc, text, hrewrap,
    (agrees_iff_payloadSid hverify hrewrap).mpr (hpayload.trans hsid.symm)⟩

/-- **A SIGNED FILE WITH TWO SIDS IS ENCRYPTED ANEW**, though a decrypt by the same member refuses
    it. -/
theorem disagrees_toyFile :
    ∃ doc text e, verifyFileContent toyCrypto (writeFileEnc doc) = .ok doc
      ∧ rewrapFileDocument toyCrypto sameDraws (writeFileEnc doc) aliceRotates = .ok text
      ∧ decryptFileDocumentWithContext toyCrypto doc alice.text (toyContext alice toyKid [])
        = .error e
      ∧ ¬AgreesWithDecrypt toyCrypto sameDraws aliceRotates doc text := by
  obtain ⟨doc, text, hverify, hsid, hpayload, hrewrap⟩ := rotated_aliceFile freshSid
  have hne : doc.protect.payload.protect.sid ≠ doc.protect.sid := by
    rw [hsid, hpayload]
    decide
  cases hdecrypt : decryptFileDocumentWithContext toyCrypto doc alice.text
      (toyContext alice toyKid []) with
  | ok plaintext =>
    obtain ⟨_, _, hdecrypt⟩ := bind_eq_ok.mp hdecrypt
    obtain ⟨_, _, hdecrypt⟩ := bind_eq_ok.mp hdecrypt
    exact absurd hne (throwIf_ok.mp hdecrypt).1
  | error e => exact ⟨doc, text, e, hverify, hrewrap, hdecrypt, fun hagrees => hne hagrees.1.sid⟩

end FileAgreement
