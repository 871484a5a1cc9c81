import Kapsaro.Base64Variants
import Kapsaro.RewrapOutcome

/-!
# Rewrap keys — the master key behind what a rewrap writes

Both backends hold a master key while a plan runs: that of the input until a removal or a rotation
draws another one.  A wrap that stays is not opened again, so it seals whatever it sealed before; a
wrap that is written seals the key in use, and the wraps before a renewal are all written again.

* **`WrapSeals`** — a wrap opens to one key, and does so for the member it was made for.
* **`KvKeys`**, **`FileKeys`** — wraps, proof and content of a written document go with one key.
* **`rewrap_key`** — so it is for every rewrap, once the wraps of the input seal one key.
* **`rewrap_plaintext`** — whoever of the target members reads the result reads what was there
  before.
* **`keeps_foreign_wrap`** — a verified file whose two wraps seal two keys is passed on as it is.
-/

namespace RewrapKeys

open JsonText Limits TextLines Base64Codec WireTexts WireModel DocumentTokens TokenRecords KvLines
open Envelope KvDocument SignedArtifacts KeyedList KvDraft Recipients KvSession FileDocument
open RewrapPlan
open FileRewrap KvRewrap KvDisclosure JsonSize ToyCrypto ToyDocuments ToyRewraps FileAgreement
open RewrapOutcome

variable {C : Crypto} {draws : RewrapDraws} {content text : String} {ctx : RewrapContext}

/-! ## Wraps and keys -/

/-- Nobody opens a wrap to another key. -/
def OpensOnlyTo (C : Crypto) (format : WrapFormat) (sid : Uuid) (masterKey : MasterKey)
    (item : WrapItem) : Prop :=
  ∀ {kemSecret opened}, OpensTo C format sid item kemSecret opened → opened = masterKey

/-- A wrap opens to a key for whoever holds the key of a member it is for. -/
def OpensForHolder (C : Crypto) (format : WrapFormat) (sid : Uuid) (masterKey : MasterKey)
    (member : VerifiedRecipientKey) (item : WrapItem) : Prop :=
  member.identity = recipientOf item →
    ∀ {kemSecret}, HoldsKey C member kemSecret → OpensTo C format sid item kemSecret masterKey

/-- A wrap seals a key for one of some members: it opens to nothing else, and does open for that
    member. -/
structure WrapSeals (C : Crypto) (format : WrapFormat) (sid : Uuid) (masterKey : MasterKey)
    (members : List VerifiedRecipientKey) (item : WrapItem) : Prop where
  only : OpensOnlyTo C format sid masterKey item
  holder : ∃ member ∈ members, member.identity = recipientOf item
    ∧ OpensForHolder C format sid masterKey member item

/-- More members change nothing. -/
theorem WrapSeals.mono {format : WrapFormat} {sid : Uuid} {masterKey : MasterKey}
    {members others : List VerifiedRecipientKey} {item : WrapItem}
    (h : WrapSeals C format sid masterKey members item) (hsub : members ⊆ others) :
    WrapSeals C format sid masterKey others item := by
  obtain ⟨member, hmember, hidentity, hopens⟩ := h.holder
  exact ⟨h.only, member, hsub hmember, hidentity, hopens⟩

/-- Statements of one identity say the same: a kid is derived from what its statement says. -/
def OneStatement (members : List VerifiedRecipientKey) : Prop :=
  ∀ member ∈ members, ∀ other ∈ members, member.identity = other.identity →
    member.document.protect = other.document.protect

/-- So it is with one member for each identity. -/
theorem oneStatement_of_identities {members : List VerifiedRecipientKey}
    (h : (targetTable members).Nodup) : OneStatement members := by
  intro member hmember other hother hidentity
  rw [List.inj_on_of_nodup_map h hmember hother hidentity]

/-- And with one member for each handle. -/
theorem oneStatement_of_nodup {members : List VerifiedRecipientKey}
    (h : (members.map VerifiedRecipientKey.subjectHandle).Nodup) : OneStatement members := by
  rw [← keys_targetTable] at h
  exact oneStatement_of_identities h.of_map

/-- Fewer members say no more. -/
theorem OneStatement.mono {members others : List VerifiedRecipientKey} (h : OneStatement others)
    (hsub : members ⊆ others) : OneStatement members :=
  fun member hmember other hother => h member (hsub hmember) other (hsub hother)

/-- **A SEALED WRAP OPENS FOR WHOEVER IT NAMES**, once its identity has one statement. -/
theorem WrapSeals.opens {format : WrapFormat} {sid : Uuid} {masterKey : MasterKey}
    {members : List VerifiedRecipientKey} {item : WrapItem}
    (h : WrapSeals C format sid masterKey members item) (hone : OneStatement members)
    {member : VerifiedRecipientKey} (hmember : member ∈ members) :
    OpensForHolder C format sid masterKey member item := by
  obtain ⟨holder, hholder, hidentity, hopens⟩ := h.holder
  intro hnamed kemSecret hkey
  have hsame := hone member hmember holder hholder (hnamed.trans hidentity.symm)
  rw [HoldsKey, hsame] at hkey
  exact hopens hidentity hkey

/-- **A WRITTEN WRAP SEALS THE KEY IN USE.** -/
theorem wrapSeals_built (hC : Ideal C) {format : WrapFormat} {sid : Uuid} {masterKey : MasterKey}
    {members : List VerifiedRecipientKey} {item : WrapItem}
    (h : BuiltFor C format sid masterKey members item) :
    WrapSeals C format sid masterKey members item := by
  obtain ⟨member, hmember, seed, hbuild⟩ := h
  refine ⟨fun hopens => opensOnly_buildWrapItem hC hbuild hopens, member, hmember, ?_,
    fun _ _ hkey => unwrap_buildWrapItem hC.toLawful hkey hbuild⟩
  obtain ⟨_, _, _, _, _, rfl⟩ := buildWrapItem_ok hbuild
  rfl

/-- A plan renews the key when it removes somebody or rotates. -/
def Renews (plan : RewrapOperationPlan) : Prop :=
  plan.removeRecipients ≠ [] ∨ plan.rotateKey = true

theorem renewalDraws_of_renews {plan : RewrapOperationPlan} (h : Renews plan) :
    ∃ entropy, renewalDraws draws plan = some entropy
      ∧ (entropy = draws.remove ∨ entropy = draws.rotate) := by
  by_cases hremoves : plan.removeRecipients ≠ []
  · exact ⟨draws.remove, if_pos hremoves, Or.inl rfl⟩
  · have hrotates := h.resolve_left hremoves
    exact ⟨draws.rotate, (if_neg hremoves).trans (if_pos hrotates), Or.inr rfl⟩

theorem renewalDraws_of_keeps {plan : RewrapOperationPlan} (h : ¬Renews plan) :
    renewalDraws draws plan = none :=
  (if_neg fun hremoves => h (Or.inl hremoves)).trans
    (if_neg fun hrotates => h (Or.inr hrotates))

/-- A key is a fresh one exactly when the plan renews: it is the one that was drawn then, and the
    old one otherwise. -/
def FreshIffRenewed (draws : RewrapDraws) (plan : RewrapOperationPlan) (old masterKey : MasterKey) :
    Prop :=
  (∀ entropy, renewalDraws draws plan = some entropy → masterKey = entropy.masterKey)
    ∧ (renewalDraws draws plan = none → masterKey = old)

/-- With draws other than the old key, the key changes exactly when the plan renews. -/
theorem FreshIffRenewed.changes_iff {plan : RewrapOperationPlan} {old masterKey : MasterKey}
    (h : FreshIffRenewed draws plan old masterKey) (hremove : draws.remove.masterKey ≠ old)
    (hrotate : draws.rotate.masterKey ≠ old) : masterKey ≠ old ↔ Renews plan := by
  constructor
  · intro hne
    by_contra hkeeps
    exact hne (h.2 (renewalDraws_of_keeps hkeeps))
  · intro hrenews
    obtain ⟨entropy, hdraws, hentropy⟩ := @renewalDraws_of_renews draws _ hrenews
    rw [h.1 entropy hdraws]
    rcases hentropy with rfl | rfl
    · exact hremove
    · exact hrotate

/-! ## Kv-enc -/

/-- The key of a kv-enc document, for the member who rewraps it. -/
def KvKeyOf (C : Crypto) (ctx : RewrapContext) (doc : KvEncDocument) (masterKey : MasterKey) :
    Prop :=
  unwrapMasterKeyWithContext C .kv doc.head.sid doc.wrap.wrap ctx.memberHandle ctx.keyCtx
    = .ok masterKey

/-- The values of a kv-enc document under a key. -/
def kvValues (C : Crypto) (doc : KvEncDocument) (masterKey : MasterKey) :
    Except Error (List (String × Bytes)) :=
  decryptKvEntries C doc.entries (kvKeySchedule C masterKey doc.head.sid) doc.head.sid
    doc.head.alg.aead

/-- What a written kv-enc document has to do with its key. -/
structure KvKeys (C : Crypto) (draws : RewrapDraws) (ctx : RewrapContext) (input : KvEncDocument)
    (old : MasterKey) (output : KvEncDocument) (masterKey : MasterKey) : Prop where
  /-- the key is drawn when the plan renews, and that of the input otherwise -/
  fresh : FreshIffRenewed draws (planOf input ctx) old masterKey
  /-- a wrap is written for this key, or an old one that stays -/
  wraps : ∀ item ∈ output.wrap.wrap,
    BuiltFor C .kv output.head.sid masterKey ctx.targetMembers item
      ∨ (renewalDraws draws (planOf input ctx) = none ∧ item ∈ input.wrap.wrap)
  /-- the document stays under its sid unless the plan renews -/
  sid : renewalDraws draws (planOf input ctx) = none → output.head.sid = input.head.sid
  /-- the proof of possession was made with this key -/
  possession : verifyKvKeyPossession C output masterKey = .ok ()
  /-- the old key opens the input, whenever the plan renews -/
  readable : renewalDraws draws (planOf input ctx) ≠ none →
    ∃ values, kvValues C input old = .ok values
  /-- the entries hold the same values under this key as before under the old one -/
  values : ∀ values, kvValues C input old = .ok values →
    ∃ written, kvValues C output masterKey = .ok written ∧ written.Perm values
  /-- without a renewal and a clearing, the entries and their tokens stay as they are -/
  kept : renewalDraws draws (planOf input ctx) = none →
    ctx.options.clearDisclosureHistory = false → output.entries = input.entries

/-- What a member decrypts are the values under the key it opens. -/
theorem values_of_decrypt {doc : KvEncDocument} {memberHandle : String} {keyCtx : CryptoContext}
    {values : List (String × Bytes)}
    (h : decryptKvDocumentWithContext C doc memberHandle keyCtx = .ok values) :
    ∃ masterKey, unwrapMasterKeyWithContext C .kv doc.head.sid doc.wrap.wrap memberHandle keyCtx
        = .ok masterKey
      ∧ verifyKvKeyPossession C doc masterKey = .ok () ∧ kvValues C doc masterKey = .ok values := by
  obtain ⟨masterKey, hunwrap, h⟩ := bind_eq_ok.mp h
  obtain ⟨⟨⟩, hproof, h⟩ := bind_eq_ok.mp h
  exact ⟨masterKey, hunwrap, hproof, h⟩

/-- A session opens the key of its document. -/
theorem unwrap_of_session {session : VerifiedKvRewriteSession} {masterKey : MasterKey}
    (h : session.unwrapMasterKey C = .ok masterKey) :
    unwrapMasterKeyWithContext C .kv session.verified.head.sid session.verified.wrap.wrap
      session.memberHandle session.keyCtx = .ok masterKey := by
  obtain ⟨opened, hunwrap, h⟩ := bind_eq_ok.mp h
  obtain ⟨_, _, h⟩ := bind_eq_ok.mp h
  obtain rfl := Except.ok.inj h
  exact hunwrap

/-- **THE KEY OF A KV-ENC REWRAP.** -/
theorem kvKeys_run (hC : Ideal C) (run : KvRun C draws content ctx text) :
    ∃ old, KvKeyOf C ctx run.input old
      ∧ KvKeys C draws ctx run.input old (run.draft.document run.entries run.signature)
        run.masterKey := by
  have hrecipients := (tracks_initial run.verified run.built).1
  have hplan := @planFor_start C ctx run.input run.start hrecipients
  have hwritten := run.written
  rw [hplan] at hwritten
  have hproof := verifyKvKeyPossession_document hwritten.stands run.signed
  have hsession := unwrap_of_session hwritten.masterKey
  have hwraps := hwritten.tracks.wraps
  have hpayload := fun schedule sid aead =>
    @decryptKvEntries_samePayload C _ _ hwritten.payload schedule sid aead
  have hsid : (run.draft.document run.entries run.signature).head.sid
      = run.rotated.session.verified.head.sid := hwritten.sid
  have haead : (run.draft.document run.entries run.signature).head.alg
      = run.rotated.session.verified.head.alg := hwritten.aead
  have hctx := hwritten.tracks.session_eq
  rw [congrArg VerifiedKvRewriteSession.memberHandle hctx,
    congrArg VerifiedKvRewriteSession.keyCtx hctx] at hsession
  -- the values of the document in the session are those of what is written
  have hsame : ∀ masterKey, kvValues C (run.draft.document run.entries run.signature) masterKey
      = kvValues C run.rotated.session.verified masterKey := by
    intro masterKey
    rw [kvValues, kvValues, hsid, haead]
    exact hpayload _ _ _
  generalize hdrawn : renewalDraws draws (planOf run.input ctx) = drawn at hwritten
  cases hwritten.tracks.origin with
  | original _ hverified =>
    rw [hverified] at hsession hsame hsid hwraps
    have hopened : run.rotated.session.unwrapMasterKey C = .ok run.masterKey := hwritten.masterKey
    refine ⟨run.masterKey, hsession, ⟨fun _ hsome => ?_, fun _ => rfl⟩, ?_, fun _ => hsid, hproof,
      fun hsome => absurd hdrawn hsome, ?_, ?_⟩
    · rw [hdrawn] at hsome
      cases hsome
    · intro item hitem
      have hmem : item ∈ run.rotated.doc.wrap.data.wrap := by
        rw [← hwritten.wraps]
        exact hitem
      rcases hwraps item hmem with hold | ⟨masterKey, hkey, hbuilt⟩
      · exact Or.inr ⟨hdrawn, hold⟩
      · obtain rfl := Except.ok.inj (hopened.symm.trans hkey)
        rw [hsid]
        exact Or.inl hbuilt
    · intro values hvalues
      exact ⟨values, (hsame _).trans hvalues, .refl _⟩
    · intro _ hoff
      show run.entries = run.input.entries
      rw [hwritten.kept hoff, hverified]
  | @rotated request entropy kvMap members _ hfrom =>
    obtain ⟨hhandles, hbuilt⟩ := hfrom.items
    have hfreshSid : run.rotated.session.verified.head.sid = entropy.sid := hfrom.fresh.sid
    -- every wrap of the new document opens to the drawn key only
    have hkey : run.masterKey = entropy.masterKey := by
      obtain ⟨item, hitem, kemSecret, hopens⟩ := opensTo_of_unwrap hsession
      exact (wrapSeals_built hC (hbuilt item hitem)).only (hfreshSid ▸ hopens)
    obtain ⟨old, hold, _, hplaintext⟩ := values_of_decrypt hfrom.plaintext
    refine ⟨old, hold, ⟨fun other hsome => ?_, fun hnone => ?_⟩, ?_, fun hnone => ?_, hproof,
      fun _ => ⟨_, hplaintext⟩, ?_, fun hnone => ?_⟩
    · rw [hdrawn] at hsome
      rw [hkey, Option.some.inj hsome]
    · rw [hdrawn] at hnone
      cases hnone
    · intro item hitem
      have hmem : item ∈ run.rotated.doc.wrap.data.wrap := by
        rw [← hwritten.wraps]
        exact hitem
      left
      rw [hsid]
      rcases hwraps item hmem with hold | ⟨masterKey, hopened, hlater⟩
      · rw [hfreshSid, hkey]
        exact hbuilt item hold
      · obtain rfl := Except.ok.inj (hwritten.masterKey.symm.trans hopened)
        exact hlater
    · rw [hdrawn] at hnone
      cases hnone
    · intro values hvalues
      refine ⟨textBytes (sortBy Prod.fst kvMap), ?_, ?_⟩
      · rw [hsame, kvValues, hfreshSid, hfrom.fresh.aead, hkey]
        exact hfrom.fresh.values
      · rw [← Except.ok.inj (hplaintext.symm.trans hvalues)]
        exact (perm_sortBy _ _).map _
    · rw [hdrawn] at hnone
      cases hnone

/-! ## File-enc -/

/-- The key of a file-enc document, for the member who rewraps it. -/
def FileKeyOf (C : Crypto) (ctx : RewrapContext) (doc : FileEncDocument) (masterKey : MasterKey) :
    Prop :=
  unwrapMasterKeyWithContext C .file doc.protect.sid doc.protect.wrap ctx.memberHandle ctx.keyCtx
    = .ok masterKey

/-- What a written file-enc document has to do with its key. -/
structure FileKeys (C : Crypto) (draws : RewrapDraws) (ctx : RewrapContext)
    (input : FileEncDocument)
    (old : MasterKey) (output : FileEncDocument) (masterKey : MasterKey) : Prop where
  /-- the key is drawn when the plan renews, and that of the input otherwise -/
  fresh : FreshIffRenewed draws (filePlan C ctx input) old masterKey
  /-- a wrap is written for this key, or an old one that stays -/
  wraps : ∀ item ∈ output.protect.wrap,
    BuiltFor C .file output.protect.sid masterKey ctx.targetMembers item
      ∨ (renewalDraws draws (filePlan C ctx input) = none ∧ item ∈ input.protect.wrap)
  /-- sid and payload header are those of the input -/
  sid : output.protect.sid = input.protect.sid
  header : output.protect.payload.protect = input.protect.payload.protect
  /-- the proof of possession was made with this key -/
  possession : verifyFileKeyPossession C output masterKey = .ok ()
  /-- when the plan renews, the payload is that of the input, encrypted under this key -/
  payload : ∀ entropy, renewalDraws draws (filePlan C ctx input) = some entropy →
    ∃ plaintext, decryptFilePayload C input (payloadKey C old input.protect.sid) = .ok plaintext
      ∧ encryptFilePayloadContent C plaintext (payloadKey C masterKey output.protect.sid)
          output.protect.payload.protect (entropy.nonce 0) = .ok output.protect.payload.encrypted
  /-- else the encrypted payload stays as it is -/
  kept : renewalDraws draws (filePlan C ctx input) = none →
    output.protect.payload = input.protect.payload

/-- **THE KEY OF A FILE-ENC REWRAP.** -/
theorem fileKeys_run (run : FileRun C draws content ctx text) :
    ∃ old, FileKeyOf C ctx run.input old
      ∧ FileKeys C draws ctx run.input old run.output run.masterKey := by
  obtain ⟨htracks, hprotect, hloaded⟩ := tracks_ensure run.tracks run.key
  have hwrap : run.output.protect.wrap = run.opened.protect.wrap := by
    rw [run.protect_eq, hprotect]
  have hpayload : run.output.protect.payload = run.opened.protect.payload := by
    rw [run.protect_eq, hprotect]
  have hsid : run.output.protect.sid = run.input.protect.sid := by
    rw [← htracks.sid, hprotect, run.protect_eq]
  have hheader : run.output.protect.payload.protect = run.input.protect.payload.protect := by
    rw [hpayload, htracks.header]
  have hproof : verifyFileKeyPossession C run.output run.masterKey = .ok () := by
    rw [verifyFileKeyPossession, run.signature_eq]
    exact verifyKeyPossession_built run.proof
  generalize hdrawn : renewalDraws draws
    (planFor (fileExecutor C) ctx.options run.input.protect.wrap
    ctx.targetMembers (FileRewrapExecutor.new run.input ctx)) = drawn at htracks
  have hplan : renewalDraws draws (filePlan C ctx run.input) = drawn := hdrawn
  cases htracks.origin with
  | original hkey hsame hwraps =>
    obtain ⟨_, hunwrap⟩ := hkey run.masterKey hloaded
    refine ⟨run.masterKey, (possession_of_unwrap hunwrap).1, ⟨fun _ hsome => ?_, fun _ => rfl⟩, ?_,
      hsid, hheader, hproof, fun _ hsome => ?_, fun _ => hpayload.trans hsame⟩
    · rw [hplan] at hsome
      cases hsome
    · intro item hitem
      rw [hwrap] at hitem
      rcases hwraps item hitem with hold | ⟨key, hopened, hbuilt⟩
      · exact Or.inr ⟨hplan, hold⟩
      · obtain rfl := Except.ok.inj (hunwrap.symm.trans hopened)
        rw [hsid]
        exact Or.inl hbuilt
    · rw [hplan] at hsome
      cases hsome
  | @rotated entropy old plaintext hstate hold hplain hencrypted hwraps =>
    have hkey : run.masterKey = entropy.masterKey := by
      rw [hstate] at hloaded
      exact (Option.some.inj hloaded).symm
    refine ⟨old, (possession_of_unwrap hold).1, ⟨fun other hsome => ?_, fun hnone => ?_⟩, ?_, hsid,
      hheader, hproof, fun other hsome => ⟨plaintext, hplain, ?_⟩, fun hnone => ?_⟩
    · rw [hplan] at hsome
      rw [hkey, Option.some.inj hsome]
    · rw [hplan] at hnone
      cases hnone
    · intro item hitem
      rw [hwrap] at hitem
      rw [hsid, hkey]
      exact Or.inl (hwraps item hitem)
    · rw [hplan] at hsome
      rw [hkey, hsid, hheader, hpayload, ← Option.some.inj hsome]
      exact hencrypted
    · rw [hplan] at hnone
      cases hnone

/-! ## One key for everything -/

/-- What the wraps of a rewritten document seal, once all those of the input seal one key: each is
    for a target member, or for whom it was for before. -/
theorem sealed_of_wraps (hC : Ideal C) {format : WrapFormat} {sid inputSid : Uuid}
    {old masterKey : MasterKey} {items inputItems : List WrapItem} {renewed : Prop}
    {served : List VerifiedRecipientKey}
    (hsid : ¬renewed → sid = inputSid) (hkey : ¬renewed → masterKey = old)
    (hwraps : ∀ item ∈ items, BuiltFor C format sid masterKey ctx.targetMembers item
      ∨ (¬renewed ∧ item ∈ inputItems))
    (hinput : ∀ item ∈ inputItems, WrapSeals C format inputSid old served item) :
    ∀ item ∈ items, WrapSeals C format sid masterKey (ctx.targetMembers ++ served) item := by
  intro item hitem
  rcases hwraps item hitem with hbuilt | ⟨hkept, hold⟩
  · exact (wrapSeals_built hC hbuilt).mono (List.subset_append_left _ _)
  · rw [hsid hkept, hkey hkept]
    exact (hinput item hold).mono (List.subset_append_right _ _)

/-- What the key of a document has to do with the document a rewrap wrote. -/
structure KeyOutcome (C : Crypto) (draws : RewrapDraws) (ctx : RewrapContext) : Prop where
  /-- of a kv-enc document -/
  kv : ∀ {content text input}, verifyKvContent C content = .ok input →
    rewrapKvDocument C draws content ctx = .ok text →
    ∃ output old masterKey, Spells text output ∧ KvKeyOf C ctx input old
      ∧ KvKeys C draws ctx input old output masterKey
      ∧ (∀ served, (∀ item ∈ input.wrap.wrap, WrapSeals C .kv input.head.sid old served item) →
        ∀ item ∈ output.wrap.wrap,
          WrapSeals C .kv output.head.sid masterKey (ctx.targetMembers ++ served) item)
      ∧ (draws.remove.masterKey ≠ old → draws.rotate.masterKey ≠ old →
        (masterKey ≠ old ↔ Renews (planOf input ctx)))
  /-- of a file-enc document -/
  file : ∀ {content text input}, verifyFileContent C content = .ok input →
    rewrapFileDocument C draws content ctx = .ok text →
    ∃ output old masterKey, SpellsFile text output ∧ FileKeyOf C ctx input old
      ∧ FileKeys C draws ctx input old output masterKey
      ∧ (∀ served,
        (∀ item ∈ input.protect.wrap, WrapSeals C .file input.protect.sid old served item) →
        ∀ item ∈ output.protect.wrap,
          WrapSeals C .file output.protect.sid masterKey (ctx.targetMembers ++ served) item)
      ∧ (draws.remove.masterKey ≠ old → draws.rotate.masterKey ≠ old →
        (masterKey ≠ old ↔ Renews (filePlan C ctx input)))

/-- **ONE KEY BEHIND A REWRAP**, in either backend and in whatever order a plan removes, refreshes,
    adds and rotates. -/
theorem rewrap_key (hC : Ideal C) : KeyOutcome C draws ctx where
  kv := by
    intro content text input hverify hrewrap
    obtain ⟨run⟩ := kv_run hC.toLawful hrewrap
    obtain rfl := Except.ok.inj (run.verified.symm.trans hverify)
    obtain ⟨old, hold, hkeys⟩ := kvKeys_run hC run
    refine ⟨_, old, run.masterKey, spells_kvRun run, hold, hkeys, fun served hinput => ?_,
      hkeys.fresh.changes_iff⟩
    exact @sealed_of_wraps C ctx hC _ _ _ _ _ _ _
      (renewalDraws draws (planOf run.input ctx) ≠ none) served
      (fun hkept => hkeys.sid (not_not.mp hkept)) (fun hkept => hkeys.fresh.2 (not_not.mp hkept))
      (fun item hitem => (hkeys.wraps item hitem).imp_right (And.imp_left not_not_intro)) hinput
  file := by
    intro content text input hverify hrewrap
    obtain ⟨run⟩ := file_run hrewrap
    obtain rfl := Except.ok.inj (run.verified.symm.trans hverify)
    obtain ⟨old, hold, hkeys⟩ := fileKeys_run run
    refine ⟨run.output, old, run.masterKey, spells_fileRun run, hold, hkeys,
      fun served hinput => ?_, hkeys.fresh.changes_iff⟩
    exact @sealed_of_wraps C ctx hC _ _ _ _ _ _ _
      (renewalDraws draws (filePlan C ctx run.input) ≠ none) served (fun _ => hkeys.sid)
      (fun hkept => hkeys.fresh.2 (not_not.mp hkept))
      (fun item hitem => (hkeys.wraps item hitem).imp_right (And.imp_left not_not_intro)) hinput

/-! ## The same plaintext for every target member -/

/-- Ideal encryption: nothing decrypts but what encrypting it yields. -/
def Authenticated (C : Crypto) : Prop :=
  ∀ {key nonce aad ct plaintext}, C.xchachaDecrypt key nonce aad ct = .ok plaintext →
    C.xchachaEncrypt key nonce aad plaintext = .ok ct

/-- Wraps of an input that are for target members open to its key for them. -/
def OpenForTargets (C : Crypto) (format : WrapFormat) (sid : Uuid) (old : MasterKey)
    (ctx : RewrapContext) (items : List WrapItem) : Prop :=
  ∀ item ∈ items, ∀ member ∈ ctx.targetMembers, OpensForHolder C format sid old member item

/-- A target member opens its wrap in a rewritten document, under the key in use. -/
theorem unwrap_of_target (hC : Lawful C) {format : WrapFormat} {sid inputSid : Uuid}
    {old masterKey : MasterKey} {items inputItems : List WrapItem} {renewed : Prop}
    (htarget : (ctx.targetMembers.map VerifiedRecipientKey.subjectHandle).Nodup)
    (hsid : ¬renewed → sid = inputSid) (hkey : ¬renewed → masterKey = old)
    (hwraps : ∀ item ∈ items, BuiltFor C format sid masterKey ctx.targetMembers item
      ∨ (¬renewed ∧ item ∈ inputItems))
    (hinput : OpenForTargets C format inputSid old ctx inputItems)
    (hfor : WrappedFor ctx.targetMembers items)
    (hvalid : validateWrapItems items "Document" = .ok ()) {member : VerifiedRecipientKey}
    (hmember : member ∈ ctx.targetMembers) {kemSecret : Bytes}
    (hholds : HoldsKey C member kemSecret)
    {keyCtx : CryptoContext} (hown : OpensOwn keyCtx member.subjectHandle member.kid kemSecret) :
    unwrapMasterKeyWithContext C format sid items member.subjectHandle keyCtx = .ok masterKey := by
  -- the wrap of the member
  have hlisted : member.identity ∈ recipientTable items :=
    hfor.recipients.mem_iff.mpr (List.mem_map_of_mem (f := VerifiedRecipientKey.identity) hmember)
  obtain ⟨item, hitem, hidentity⟩ := List.mem_map.mp hlisted
  obtain ⟨hhandle, hkid⟩ := Prod.mk.inj hidentity
  have hopens : OpensTo C format sid item kemSecret masterKey := by
    rcases hwraps item hitem with ⟨builder, hbuilder, seed, hbuild⟩ | ⟨hkept, hold⟩
    · have hsame : builder = member := by
        obtain ⟨_, _, _, _, _, hshape⟩ := buildWrapItem_ok hbuild
        refine List.inj_on_of_nodup_map htarget hbuilder hmember ?_
        rw [hshape] at hhandle
        exact hhandle
      rw [hsame] at hbuild
      exact unwrap_buildWrapItem hC hholds hbuild
    · rw [hsid hkept, hkey hkept]
      exact hinput item hold member hmember hidentity.symm hholds
  have hfound : VerifiedRecipientKey.subjectHandle member = item.recipientHandle := hhandle.symm
  rw [hfound] at hown ⊢
  rw [show VerifiedRecipientKey.kid member = item.kid from hkid.symm] at hown
  exact unwrap_of_member hvalid hitem hown hopens

/-- What verification has checked of the wraps of a text. -/
theorem wraps_of_verifyKv {output : KvEncDocument} (h : verifyKvContent C text = .ok output) :
    validateWrapItems output.wrap.wrap "Document" = .ok () := by
  obtain ⟨parsed, _, h⟩ := bind_eq_ok.mp h
  obtain ⟨⟨⟩, hitems, h⟩ := bind_eq_ok.mp h
  obtain ⟨_, _, h⟩ := bind_eq_ok.mp h
  obtain ⟨_, _, h⟩ := bind_eq_ok.mp h
  obtain rfl := Except.ok.inj h
  exact hitems

theorem wraps_of_verifyFile {output : FileEncDocument} (h : verifyFileContent C text = .ok output) :
    validateWrapItems output.protect.wrap "Document" = .ok ()
      ∧ ∃ sourceName, parseFileEncStr text sourceName = .ok output := by
  obtain ⟨parsed, hparse, h⟩ := bind_eq_ok.mp h
  obtain ⟨⟨⟩, hitems, h⟩ := bind_eq_ok.mp h
  obtain ⟨_, _, h⟩ := bind_eq_ok.mp h
  obtain ⟨_, _, h⟩ := bind_eq_ok.mp h
  obtain rfl := Except.ok.inj h
  exact ⟨hitems, _, hparse⟩

/-- A payload that was read can be written again within the limit on its ciphertext. -/
theorem payload_fits (hC : Lawful C) (hA : Authenticated C) {doc : FileEncDocument}
    {contentKey : FixedBytes 32} {plaintext : Bytes}
    (h : decryptFilePayload C doc contentKey = .ok plaintext) :
    computeEncodedLen (plaintext.length + 16) ≤ maxBase64CiphertextLength := by
  obtain ⟨nonce, ct, _, hdecode, hdecrypt⟩ := decryptFilePayloadContent_ok h
  obtain ⟨htext, hsize⟩ := Base64Variants.decodeBase64urlNopadWithLimit_iff.mp hdecode
  rw [htext, encodeBase64urlNopad_size, hC.encrypt_size (hA hdecrypt)] at hsize
  exact hsize

/-- What the members read of the text a rewrap wrote. -/
structure PlaintextOutcome (C : Crypto) (draws : RewrapDraws) (ctx : RewrapContext) : Prop where
  /-- every target member reads the values the input had -/
  kv : ∀ {content text input output}, verifyKvContent C content = .ok input →
    rewrapKvDocument C draws content ctx = .ok text → verifyKvContent C text = .ok output →
    (∀ old, KvKeyOf C ctx input old →
      OpenForTargets C .kv input.head.sid old ctx input.wrap.wrap) →
    ∀ {values}, decryptKvDocumentWithContext C input ctx.memberHandle ctx.keyCtx = .ok values →
    ∀ {member}, member ∈ ctx.targetMembers → ∀ {kemSecret}, HoldsKey C member kemSecret →
    ∀ {keyCtx}, OpensOwn keyCtx member.subjectHandle member.kid kemSecret →
    ∃ written, decryptKvDocumentWithContext C output member.subjectHandle keyCtx = .ok written
      ∧ written.Perm values
  /-- and the bytes the input held -/
  file : ∀ {content text input output}, verifyFileContent C content = .ok input →
    rewrapFileDocument C draws content ctx = .ok text → verifyFileContent C text = .ok output →
    (∀ old, FileKeyOf C ctx input old →
      OpenForTargets C .file input.protect.sid old ctx input.protect.wrap) →
    ∀ {plaintext}, decryptFileDocumentWithContext C input ctx.memberHandle ctx.keyCtx
      = .ok plaintext →
    ∀ {member}, member ∈ ctx.targetMembers → ∀ {kemSecret}, HoldsKey C member kemSecret →
    ∀ {keyCtx}, OpensOwn keyCtx member.subjectHandle member.kid kemSecret →
    decryptFileDocumentWithContext C output member.subjectHandle keyCtx = .ok plaintext

/-- **EVERY TARGET MEMBER READS WHAT WAS THERE BEFORE**, whether or not the plan encrypted it
    anew. -/
theorem rewrap_plaintext (hC : Ideal C) (hA : Authenticated C)
    (htarget : (ctx.targetMembers.map VerifiedRecipientKey.subjectHandle).Nodup) :
    PlaintextOutcome C draws ctx where
  kv := by
    intro content text input output hverify hrewrap hread hinput values hvalues member hmember
      kemSecret hholds keyCtx hown
    obtain ⟨run⟩ := kv_run hC.toLawful hrewrap
    obtain rfl := Except.ok.inj (run.verified.symm.trans hverify)
    have houtput := (spells_kvRun run).read (parse_of_verify hread)
    obtain ⟨old, hold, hkeys⟩ := kvKeys_run hC run
    have hfor := wrappedFor_kvRun hC.toLawful htarget run
    have hvalid := wraps_of_verifyKv hread
    rw [houtput] at hvalid ⊢
    have hunwrap := @unwrap_of_target C ctx hC.toLawful _ _ _ _ _ _ _
      (renewalDraws draws (planOf run.input ctx) ≠ none) htarget
      (fun hkept => hkeys.sid (not_not.mp hkept)) (fun hkept => hkeys.fresh.2 (not_not.mp hkept))
      (fun item hitem => (hkeys.wraps item hitem).imp_right (And.imp_left not_not_intro))
      (hinput old hold) hfor hvalid member hmember kemSecret hholds keyCtx hown
    obtain ⟨opened, hopened, _, hplain⟩ := values_of_decrypt hvalues
    obtain rfl := Except.ok.inj (hopened.symm.trans hold)
    obtain ⟨written, hwritten, hperm⟩ := hkeys.values values hplain
    exact ⟨written, bind_eq_ok.mpr ⟨_, hunwrap, bind_eq_ok.mpr ⟨(), hkeys.possession, hwritten⟩⟩,
      hperm⟩
  file := by
    intro content text input output hverify hrewrap hread hinput plaintext hplain member hmember
      kemSecret hholds keyCtx hown
    obtain ⟨run⟩ := file_run hrewrap
    obtain rfl := Except.ok.inj (run.verified.symm.trans hverify)
    obtain ⟨hvalid, sourceName, hparse⟩ := wraps_of_verifyFile hread
    have houtput := (spells_fileRun run).read hparse
    obtain ⟨old, hold, hkeys⟩ := fileKeys_run run
    have hfor := wrappedFor_fileRun htarget run
    rw [houtput] at hvalid hparse ⊢
    have hunwrap := @unwrap_of_target C ctx hC.toLawful _ _ _ _ _ _ _
      (renewalDraws draws (filePlan C ctx run.input) ≠ none) htarget (fun _ => hkeys.sid)
      (fun hkept => hkeys.fresh.2 (not_not.mp hkept))
      (fun item hitem => (hkeys.wraps item hitem).imp_right (And.imp_left not_not_intro))
      (hinput old hold) hfor hvalid member hmember kemSecret hholds keyCtx hown
    -- what the decrypt of the input has checked and read
    obtain ⟨_, _, hplain⟩ := bind_eq_ok.mp hplain
    obtain ⟨_, _, hplain⟩ := bind_eq_ok.mp hplain
    obtain ⟨hsids, hplain⟩ := throwIf_ok.mp hplain
    obtain ⟨opened, hopened, hplain⟩ := bind_eq_ok.mp hplain
    obtain ⟨_, _, hplain⟩ := bind_eq_ok.mp hplain
    obtain rfl := Except.ok.inj (hopened.symm.trans hold)
    have hread : decryptFilePayload C run.output
        (payloadKey C run.masterKey run.output.protect.sid) = .ok plaintext := by
      cases hdrawn : renewalDraws draws (filePlan C ctx run.input) with
      | none =>
        rw [hkeys.fresh.2 hdrawn, hkeys.sid, decryptFilePayload, hkeys.kept hdrawn]
        exact hplain
      | some entropy =>
        obtain ⟨read, hreadInput, hencrypted⟩ := hkeys.payload entropy hdrawn
        obtain rfl := Except.ok.inj (hplain.symm.trans hreadInput)
        exact decrypt_encryptFilePayload hC.toLawful (payload_fits hC.toLawful hA hplain) hencrypted
    obtain ⟨hformat, hpayload, haead⟩ := formats_of_parse hparse
    have hsame : run.output.protect.payload.protect.sid = run.output.protect.sid := by
      rw [hkeys.header, hkeys.sid]
      exact not_not.mp hsids
    exact bind_eq_ok.mpr ⟨(), if_neg (not_not_intro hformat), bind_eq_ok.mpr
      ⟨(), (if_neg (not_not_intro hpayload)).trans (if_neg (not_not_intro haead)), throwIf_ok.mpr
        ⟨not_not_intro hsame, bind_eq_ok.mpr ⟨_, hunwrap, bind_eq_ok.mpr
          ⟨(), hkeys.possession, hread⟩⟩⟩⟩⟩

/-! ## A wrap of another key -/

/-- Toy encryption is authenticated. -/
theorem authenticated_toyCrypto : Authenticated toyCrypto := by
  intro key nonce aad ct plaintext h
  have hopened : (if ct.drop (ct.length - 16) = (pad 16 key).bytes then .ok (untagged ct)
      else .error (buildCryptoOperationError "decryption failed") : Except Error Bytes)
      = .ok plaintext := h
  split at hopened
  · rename_i htag
    obtain rfl := Except.ok.inj hopened
    show Except.ok (tagged (untagged ct) (pad 16 key).bytes) = .ok ct
    rw [← htag, tagged, untagged, List.take_append_drop]
  · cases hopened

/-- The wraps of toy people seal one key. -/
theorem wrapSeals_people (format : WrapFormat) (sid : Uuid) (masterKey : MasterKey)
    (people : List ToyPerson) : ∀ item ∈ people.map (ToyPerson.wrap masterKey),
      WrapSeals toyCrypto format sid masterKey (people.map ToyPerson.member) item :=
  fun item hitem => wrapSeals_built ideal_toyCrypto
    (builtFor_people format sid masterKey people item hitem)

/-- Everybody there is. -/
def everybody : List ToyPerson := [aliceOnly, bobBefore, bobOnly, carolOnly, daveOnly]

/-- Each has one statement. -/
theorem oneStatement_everybody {members : List VerifiedRecipientKey}
    (h : members ⊆ everybody.map ToyPerson.member) : OneStatement members :=
  (oneStatement_of_identities (by decide)).mono h

/-- A document changes hands, and its key with them; a file gets a recipient, and keeps its key. -/
theorem rewrap_key_toy :
    (∃ content text input output old masterKey, verifyKvContent toyCrypto content = .ok input
      ∧ rewrapKvDocument toyCrypto sameDraws content aliceChanges = .ok text
      ∧ Spells text output ∧ KvKeyOf toyCrypto aliceChanges input old ∧ masterKey ≠ old
      ∧ ∀ item ∈ output.wrap.wrap, WrapSeals toyCrypto .kv output.head.sid masterKey
        (aliceChanges.targetMembers ++ teamBefore.map ToyPerson.member) item)
    ∧ ∃ content text input output old masterKey, verifyFileContent toyCrypto content = .ok input
      ∧ rewrapFileDocument toyCrypto sameDraws content aliceAdds = .ok text
      ∧ SpellsFile text output ∧ FileKeyOf toyCrypto aliceAdds input old ∧ masterKey = old
      ∧ ∀ item ∈ output.protect.wrap, WrapSeals toyCrypto .file output.protect.sid masterKey
        (aliceAdds.targetMembers ++ teamAfter.map ToyPerson.member) item := by
  constructor
  · obtain ⟨content, hcontent⟩ := toyText_people toySid course_change.before shortHistory_none
      (pad 32 [1]) toyMarks_toyMarks (List.mem_cons_self (a := aliceOnly))
    obtain ⟨text, hrewrap, _⟩ := changed_toyKv toyMarks_toyMarks hcontent
    obtain ⟨input, hverify, _, hwrap, hunwrap, _⟩ :=
      toyText_read (List.mem_cons_self (a := aliceOnly)) course_change.before
        shortHistory_none hcontent
    obtain ⟨output, old, masterKey, hspells, hold, _, hsealed, hchanges⟩ :=
      (@rewrap_key toyCrypto sameDraws aliceChanges ideal_toyCrypto).kv hverify hrewrap
    obtain rfl : pad 32 [1] = old := Except.ok.inj (hunwrap.symm.trans hold)
    have hplan : planOf input aliceChanges = changePlan := by
      rw [planOf, hwrap]
      rfl
    refine ⟨content, text, input, output, _, masterKey, hverify, hrewrap, hspells, hold,
      (hchanges (by decide) (by decide)).mpr (Or.inl ?_), hsealed _ ?_⟩
    · rw [hplan]
      exact List.cons_ne_nil _ _
    · rw [hwrap]
      exact wrapSeals_people .kv input.head.sid (pad 32 [1]) teamBefore
  · obtain ⟨doc, hdoc⟩ := verify_toyFile toySid toySid
      (smallWraps_team course_addition.before (pad 32 [1])) shortHistory_none
      (pad 32 [1]) [] alice []
    obtain ⟨added, hrewrap, _⟩ := @added_toyFile _ _ _ _ _ _ _ _ [2] [5]
      shortHistory_none (by decide) hdoc
    have hunwrap := unwrap_toyFile (smallWraps_team course_addition.before (pad 32 [1])) hdoc
      (List.mem_cons_self (a := aliceOnly.wrap (pad 32 [1])))
    obtain ⟨output, old, masterKey, hspells, hold, hkeys, hsealed, _⟩ :=
      (@rewrap_key toyCrypto sameDraws aliceAdds ideal_toyCrypto).file hdoc.verified hrewrap
    obtain rfl : pad 32 [1] = old := Except.ok.inj (hunwrap.symm.trans hold)
    have hplan : filePlan toyCrypto aliceAdds doc = ⟨[], [], ["carol"], false, false⟩ := by
      show buildRewrapOperationPlan (doc.protect.wrap.map WrapItem.recipientHandle)
        (collectTargetMemberHandles aliceAdds.targetMembers)
        (collectStaleRecipientHandles doc.protect.wrap aliceAdds.targetMembers)
        aliceAdds.options = _
      rw [hdoc.protect_eq]
      rfl
    refine ⟨_, _, doc, output, _, masterKey, hdoc.verified, hrewrap, hspells, hold,
      hkeys.fresh.2 ?_, hsealed _ ?_⟩
    · rw [hplan]
      rfl
    · rw [hdoc.protect_eq]
      exact wrapSeals_people .file _ (pad 32 [1]) teamAfter

/-- After the change everybody reads what alice read before it, of a document and of a file. -/
theorem rewrap_plaintext_toy :
    (∃ content input values text output, verifyKvContent toyCrypto content = .ok input
        ∧ decryptKvDocumentWithContext toyCrypto input alice.text aliceChanges.keyCtx = .ok values
        ∧ rewrapKvDocument toyCrypto sameDraws content aliceChanges = .ok text
        ∧ verifyKvContent toyCrypto text = .ok output
        ∧ ∀ p ∈ teamAfter, ∃ written,
          decryptKvDocumentWithContext toyCrypto output p.handle.text p.context = .ok written
            ∧ written.Perm values)
      ∧ ∃ content input plaintext text output, verifyFileContent toyCrypto content = .ok input
        ∧ decryptFileDocumentWithContext toyCrypto input alice.text aliceChanges.keyCtx
          = .ok plaintext
        ∧ rewrapFileDocument toyCrypto sameDraws content aliceChanges = .ok text
        ∧ verifyFileContent toyCrypto text = .ok output
        ∧ ∀ p ∈ teamAfter,
          decryptFileDocumentWithContext toyCrypto output p.handle.text p.context
            = .ok plaintext := by
  have houtcome := @rewrap_plaintext toyCrypto sameDraws aliceChanges ideal_toyCrypto
    authenticated_toyCrypto nodup_teamAfter
  have hmembers : ∀ p ∈ teamAfter, p.member ∈ aliceChanges.targetMembers :=
    fun p hp => List.mem_map_of_mem hp
  -- whoever stays has the same statement before and after, and the wraps before were for the team
  have hopen : ∀ (format : WrapFormat) (sid : Uuid),
      OpenForTargets toyCrypto format sid (pad 32 [1]) aliceChanges
        (teamBefore.map (ToyPerson.wrap (pad 32 [1]))) := by
    intro format sid item hitem member hmember hidentity kemSecret hholds
    obtain ⟨q, hq, rfl⟩ := List.mem_map.mp hitem
    obtain ⟨p, hp, rfl⟩ := List.mem_map.mp hmember
    have hsecrets : ∀ q ∈ teamBefore, ∀ p ∈ teamAfter,
        (p.handle.text, p.kid.text) = (q.handle.text, q.kid.text) → q.secret = p.secret := by decide
    have hsecret := hsecrets q hq p hp hidentity
    obtain ⟨hhandle, hkid⟩ : p.handle.text = q.handle.text ∧ p.kid.text = q.kid.text :=
      Prod.mk.inj hidentity
    have hsame : q.wrap (pad 32 [1]) = p.wrap (pad 32 [1]) := by
      rw [ToyPerson.wrap, ToyPerson.wrap, toyWrap, toyWrap, hhandle, hkid, hsecret]
    rw [hsame]
    exact unwrap_buildWrapItem lawful_toyCrypto hholds
      (buildWrapItem_toy format p.handle p.kid p.secret sid (pad 32 [1]) [])
  constructor
  · obtain ⟨content, hcontent⟩ := toyText_people toySid course_change.before shortHistory_none
      (pad 32 [1]) toyMarks_toyMarks (List.mem_cons_self (a := aliceOnly))
    obtain ⟨text, hrewrap, hchanged⟩ := changed_toyKv toyMarks_toyMarks hcontent
    obtain ⟨input, hverify, _, hwrap, hunwrap, hvalues⟩ :=
      toyText_read (List.mem_cons_self (a := aliceOnly)) course_change.before
        shortHistory_none hcontent
    obtain ⟨output, hread, _⟩ :=
      toyText_read (List.mem_cons_self (a := aliceOnly)) course_change.after
        shortHistory_carol hchanged
    refine ⟨content, input, _, text, output, hverify, hvalues, hrewrap, hread, fun p hp => ?_⟩
    refine houtcome.kv hverify hrewrap hread (fun old hold => ?_) hvalues (hmembers p hp)
      (holdsKey_toy p.handle p.kid p.secret) (opensOwn_toy p.handle p.kid p.secret)
    obtain rfl : pad 32 [1] = old := Except.ok.inj (hunwrap.symm.trans hold)
    rw [hwrap]
    exact hopen .kv _
  · obtain ⟨doc, hdoc⟩ := verify_toyFile toySid toySid
      (smallWraps_team course_change.before (pad 32 [1])) shortHistory_none (pad 32 [1]) [] alice []
    obtain ⟨changed, hrewrap, hchanged⟩ := changed_toyFile (by decide) hdoc
    have hitems := smallWraps_team course_change.before (pad 32 [1])
    have hunwrap := unwrap_toyFile hitems hdoc
      (List.mem_cons_self (a := aliceOnly.wrap (pad 32 [1])))
    have hplain := decrypt_toyFile hitems hdoc (by decide)
      (List.mem_cons_self (a := aliceOnly.wrap (pad 32 [1])))
    refine ⟨_, doc, [], _, changed, hdoc.verified, hplain, hrewrap, hchanged.verified,
      fun p hp => ?_⟩
    refine houtcome.file hdoc.verified hrewrap hchanged.verified (fun old hold => ?_) hplain
      (hmembers p hp) (holdsKey_toy p.handle p.kid p.secret) (opensOwn_toy p.handle p.kid p.secret)
    obtain rfl : pad 32 [1] = old := Except.ok.inj (hunwrap.symm.trans hold)
    rw [hdoc.protect_eq]
    exact hopen .file _

/-- Alice rewraps for herself and bob, and asks for nothing else. -/
def aliceKeepsBoth : RewrapContext where
  options := { rotateKey := false, clearDisclosureHistory := false }
  memberHandle := alice.text
  keyCtx := toyContext alice toyKid []
  targetMembers := [aliceOnly, bobOnly].map ToyPerson.member

/-- Alice's wrap seals one key, bob's wrap another one. -/
def twoKeys : List WrapItem := [aliceOnly.wrap (pad 32 [1]), bobOnly.wrap (pad 32 [7])]

theorem smallWraps_twoKeys : SmallWraps twoKeys :=
  smallWraps_pair (by decide) (by decide) (by decide) toyKid bobKid [] [2] (pad 32 [1]) (pad 32 [7])

/-- Either of the two opens a key of such a file, each a key of its own. -/
theorem unwrap_twoKeys {doc : FileEncDocument}
    (h : ToyFile toySid toySid ⟨twoKeys, none⟩ (pad 32 [1]) [] alice [] doc) :
    unwrapMasterKeyWithContext toyCrypto .file doc.protect.sid doc.protect.wrap alice.text
        (toyContext alice toyKid []) = .ok (pad 32 [1])
      ∧ unwrapMasterKeyWithContext toyCrypto .file doc.protect.sid doc.protect.wrap bob.text
        (toyContext bob bobKid [2]) = .ok (pad 32 [7]) := by
  have hvalid : validateWrapItems doc.protect.wrap "Document" = .ok () := by
    rw [h.protect_eq]
    refine validateWrapItems_ok.mpr ⟨Nat.le_trans smallWraps_twoKeys.few (by decide),
      smallWraps_twoKeys.handles, fun item hitem => ?_⟩
    exact validateWrapItem_of_wellFormed (smallWraps_twoKeys.wellFormed item hitem)
  have hwrap : doc.protect.wrap = twoKeys := by rw [h.protect_eq]; rfl
  constructor
  · refine unwrap_toyWrap hvalid ?_
    rw [hwrap]
    exact List.mem_cons_self
  · refine unwrap_toyWrap hvalid ?_
    rw [hwrap]
    exact List.mem_cons_of_mem _ List.mem_cons_self

/-- A file of alice's with these two wraps is rewrapped as it is, and what is written is
    verified. -/
theorem rewrapped_twoKeys :
    ∃ input output, ToyFile toySid toySid ⟨twoKeys, none⟩ (pad 32 [1]) [] alice [] input
      ∧ ToyFile toySid toySid ⟨twoKeys, none⟩ (pad 32 [1]) [] alice [] output
      ∧ rewrapFileDocument toyCrypto sameDraws (writeFileEnc input) aliceKeepsBoth
        = .ok (writeFileEnc output) := by
  obtain ⟨input, hinput⟩ := verify_toyFile toySid toySid smallWraps_twoKeys shortHistory_none
    (pad 32 [1]) [] alice []
  have hunwrap := (unwrap_twoKeys hinput).1
  have hkey : unwrapVerifiedFileContentKey toyCrypto input alice.text (toyContext alice toyKid [])
      = .ok (pad 32 [1]) :=
    bind_eq_ok.mpr ⟨_, hunwrap, bind_eq_ok.mpr ⟨(), hinput.proof, rfl⟩⟩
  obtain ⟨protect, inputSignature⟩ := input
  obtain rfl : protect = toyProtected toySid toySid ⟨twoKeys, none⟩ (pad 32 [1]) [] :=
    hinput.protect_eq
  obtain ⟨mac, hmac, _⟩ := buildKeyPossessionProof_ok toyCrypto
    (buildFileArtifactBodyBytes (toyProtected toySid toySid ⟨twoKeys, none⟩ (pad 32 [1]) []))
    (deriveFileMacKey toyCrypto (fileKeySchedule toyCrypto (pad 32 [1]) toySid)) toyKid.text
  have hsign : signFileDocument toyCrypto
      (toyProtected toySid toySid ⟨twoKeys, none⟩ (pad 32 [1]) [])
      (deriveFileMacKey toyCrypto (fileKeySchedule toyCrypto (pad 32 [1]) toySid))
      (toySigning alice []) = .ok (buildArtifactSignature toyCrypto _ mac (toySigning alice [])) :=
    bind_eq_ok.mpr ⟨mac, hmac, rfl⟩
  refine ⟨_, _, hinput, toyFile_of_sign smallWraps_twoKeys shortHistory_none hsign, rewrap_settled
    (A := fileAdapter toyCrypto) hinput.verified rfl rfl smallWraps_twoKeys.handles rfl rfl rfl ?_⟩
  exact bind_eq_ok.mpr ⟨_, bind_eq_ok.mpr ⟨_, hkey, rfl⟩, bind_eq_ok.mpr
    ⟨_, buildSigningContext_toy alice [], bind_eq_ok.mpr ⟨_, hsign, rfl⟩⟩⟩

/-- **A WRAP OF ANOTHER KEY IS KEPT**: no key is behind all the wraps of what alice writes. -/
theorem keeps_foreign_wrap :
    ∃ content text input output, verifyFileContent toyCrypto content = .ok input
      ∧ rewrapFileDocument toyCrypto sameDraws content aliceKeepsBoth = .ok text
      ∧ verifyFileContent toyCrypto text = .ok output
      ∧ ¬∃ masterKey, ∀ item ∈ output.protect.wrap,
        OpensOnlyTo toyCrypto .file output.protect.sid masterKey item := by
  obtain ⟨input, output, hinput, houtput, hrewrap⟩ := rewrapped_twoKeys
  refine ⟨_, _, input, output, hinput.verified, hrewrap, houtput.verified, ?_⟩
  rintro ⟨masterKey, honly⟩
  rw [houtput.protect_eq] at honly
  have halice := honly _ List.mem_cons_self
    (opensTo_toyWrap .file alice toyKid [] toySid (pad 32 [1]))
  have hbob := honly _ (List.mem_cons_of_mem _ List.mem_cons_self)
    (opensTo_toyWrap .file bob bobKid [2] toySid (pad 32 [7]))
  exact absurd (halice.trans hbob.symm) (by decide)

/-- **BOB IS NOT SERVED**: he is one of the target members, and what alice writes, which she can
    read, is refused for him. -/
theorem foreign_wrap_unreadable :
    ∃ content text input output plaintext e, verifyFileContent toyCrypto content = .ok input
      ∧ rewrapFileDocument toyCrypto sameDraws content aliceKeepsBoth = .ok text
      ∧ verifyFileContent toyCrypto text = .ok output
      ∧ decryptFileDocumentWithContext toyCrypto input alice.text (toyContext alice toyKid [])
        = .ok plaintext
      ∧ bobOnly.member ∈ aliceKeepsBoth.targetMembers
      ∧ HoldsKey toyCrypto bobOnly.member [2]
      ∧ decryptFileDocumentWithContext toyCrypto output bob.text (toyContext bob bobKid [2])
        = .error e := by
  obtain ⟨input, output, hinput, houtput, hrewrap⟩ := rewrapped_twoKeys
  have hread : ∃ plaintext, decryptFileDocumentWithContext toyCrypto input alice.text
      (toyContext alice toyKid []) = .ok plaintext := by
    have hunwrap := (unwrap_twoKeys hinput).1
    have hpayload := decryptPayload_toyFile hinput (by decide)
    obtain ⟨protect, signature⟩ := input
    obtain rfl : protect = toyProtected toySid toySid ⟨twoKeys, none⟩ (pad 32 [1]) [] :=
      hinput.protect_eq
    exact ⟨_, bind_eq_ok.mpr ⟨(), rfl, bind_eq_ok.mpr ⟨(), rfl, throwIf_ok.mpr
      ⟨not_not_intro rfl, bind_eq_ok.mpr ⟨_, hunwrap, bind_eq_ok.mpr ⟨(), hinput.proof,
        hpayload⟩⟩⟩⟩⟩⟩
  obtain ⟨plaintext, hplaintext⟩ := hread
  have hrefused : ∃ e, decryptFileDocumentWithContext toyCrypto output bob.text
      (toyContext bob bobKid [2]) = .error e := by
    cases hdecrypt : decryptFileDocumentWithContext toyCrypto output bob.text
        (toyContext bob bobKid [2]) with
    | error e => exact ⟨e, rfl⟩
    | ok read =>
      -- bob's key would have to make the tag that was made with alice's
      obtain ⟨_, _, hdecrypt⟩ := bind_eq_ok.mp hdecrypt
      obtain ⟨_, _, hdecrypt⟩ := bind_eq_ok.mp hdecrypt
      obtain ⟨_, hdecrypt⟩ := throwIf_ok.mp hdecrypt
      obtain ⟨opened, hopened, hdecrypt⟩ := bind_eq_ok.mp hdecrypt
      obtain ⟨⟨⟩, hproof, _⟩ := bind_eq_ok.mp hdecrypt
      obtain rfl := Except.ok.inj ((unwrap_twoKeys houtput).2.symm.trans hopened)
      have htag := (verifyKeyPossessionProof_ok hproof).trans
        (verifyKeyPossessionProof_ok houtput.proof).symm
      rw [houtput.protect_eq] at htag
      have hkeys : (pad 32 (deriveFileMacKey toyCrypto
            (fileKeySchedule toyCrypto (pad 32 [7]) toySid)).bytes).bytes
          = (pad 32 (deriveFileMacKey toyCrypto
            (fileKeySchedule toyCrypto (pad 32 [1]) toySid)).bytes).bytes := htag
      exact absurd hkeys (by decide)
  obtain ⟨e, hdecrypt⟩ := hrefused
  exact ⟨_, _, input, output, plaintext, e, hinput.verified, hrewrap, houtput.verified, hplaintext,
    List.mem_cons_of_mem _ List.mem_cons_self, holdsKey_toy bob bobKid [2], hdecrypt⟩

end RewrapKeys
