import Kapsaro.KvMutation
import Kapsaro.ReviewLoop
import Kapsaro.ToyTrust

/-!
# KV authority — what a trusted write to a kv document rests on

`service/trust/core.rs` decides on a write before it is made, and `feature/kv/mutate.rs` wraps the
result for the recipients the decision was about.  A decision without a review says a lot about the
members, the trust store and the recipients; here it is said in their own terms.

* **`CurrentWraps`** — everybody a document is wrapped for is an active member, under its own
  handle.
* **`CurrentKey`** — the key that writes is the executing member's active key.
* **`CurrentOutput`** — the recipients of an output are the active members' keys, each once; those
  of others are approved, and so is the set, unless it is the executing member alone.
* **`wraps_of_rewrite`** — a rewritten document is wrapped for the recipients, under its old key.
* **`kvAuthorityLaws`** — a trusted write rests on all of these, and nobody loses a wrap by it.
-/

namespace KvAuthority

open JsonText JsonMembers Limits TextLines Base64Codec WireTexts WireModel DocumentTokens
open Envelope SignedArtifacts KvDocument KeyedList TrustRecords TrustStore TrustSoundness
open TrustApprovals TrustJudgment TrustPolicy TrustEvaluation ApprovalRecords ReviewStages
open ReviewLoop
open KvDraft Recipients KvSession KvMutation ToyCrypto ToyDocuments ToyRewraps ToyTrust

/-! ## What a decision is about -/

/-- Every wrap item is for an active member: for its kid, under its handle. -/
def CurrentWraps (members : CurrentMemberSnapshot) (items : List WrapItem) : Prop :=
  ∀ item ∈ items, ∃ member ∈ members.members, kidOf member = item.kid
    ∧ handleOf member = item.recipientHandle

/-- The key of the executing member is an active one: kid, handle and signing key are those of an
    active member. -/
def CurrentKey (C : Crypto) (members : CurrentMemberSnapshot) (keyCtx : KeyContext) : Prop :=
  ∃ member ∈ members.members, kidOf member = keyCtx.inner.kid.text
    ∧ handleOf member = keyCtx.inner.memberHandle.text
    ∧ decodeBase64urlNopadArray 32 member.document.protect.keys.sig.x "Ed25519 public key"
      = .ok (C.verifyingKey keyCtx.inner.signingKey)

/-- The recipients of an output. -/
structure CurrentOutput (evaluator : TrustPolicyEvaluator) (sid : Uuid)
    (recipients : RecipientKeys) (keyCtx : KeyContext) : Prop where
  /-- their kids are those of the active members -/
  kids : (recipients.keys.map VerifiedRecipientKey.kid).Perm (evaluator.members.members.map kidOf)
  /-- each once -/
  distinct : (recipients.keys.map VerifiedRecipientKey.kid).Nodup
  /-- and their statements are the active members' -/
  documents : ∀ key ∈ recipients.keys, ∃ member ∈ evaluator.members.members,
    kidOf member = key.kid ∧ member.document = key.document
  /-- the key of another member is approved, under the handle it has -/
  known : ∀ key ∈ recipients.keys, key.subjectHandle ≠ keyCtx.inner.memberHandle.text →
    ∃ known, findKnownKey evaluator.knownKeys key.kid = some known
      ∧ known.subjectHandle = key.subjectHandle
  /-- the set is the one approved for the sid, or the executing member alone -/
  approved : (∃ record, (evaluator.recipientSets.find? fun record => record.sid = sid.text)
        = some record
      ∧ record.recipientKids.Perm (recipients.keys.map VerifiedRecipientKey.kid))
    ∨ ∃ key, recipients.keys = [key] ∧ key.subjectHandle = keyCtx.inner.memberHandle.text

/-! ## Members -/

theorem text_of_fromCanonical {value : String} {kid : Kid} (h : Kid.fromCanonical value = .ok kid) :
    kid.text = value := by
  rw [Kid.fromCanonical] at h
  split at h
  · rw [← Except.ok.inj h]
  · cases h

theorem text_of_tryFrom {id : String} {handle : MemberHandle}
    (h : MemberHandle.tryFrom id = .ok handle) : handle.text = id := by
  rw [MemberHandle.tryFrom] at h
  split at h
  · rw [← Except.ok.inj h]
  · cases h

theorem perm_of_matchesKidSet {members : CurrentMemberSnapshot} {kids : List String}
    (h : matchesKidSet members kids = true) (hnodup : kids.Nodup) :
    kids.Perm (members.members.map kidOf) := by
  rw [matchesKidSet, Bool.and_eq_true, List.all_eq_true, List.all_eq_true] at h
  refine (List.perm_ext_iff_of_nodup hnodup members.kids).mpr fun kid => ?_
  exact ⟨fun hkid => of_decide_eq_true (h.1 kid hkid), fun hkid => of_decide_eq_true (h.2 kid hkid)⟩

section Evaluations

variable {C : Crypto} {evaluator : TrustPolicyEvaluator} {keyCtx : KeyContext}

/-- The check of the writing key. -/
theorem enforceMutationKeyCurrent_ok (h : evaluator.enforceMutationKeyCurrent C keyCtx = .ok ()) :
    CurrentKey C evaluator.members keyCtx := by
  rw [TrustPolicyEvaluator.enforceMutationKeyCurrent] at h
  cases hget : evaluator.members.get keyCtx.inner.kid.text with
  | none =>
    rw [hget] at h
    cases h
  | some member =>
    rw [hget] at h
    obtain ⟨hmem, hkid⟩ := CurrentMemberSnapshot.get_eq_some.mp hget
    dsimp only at h
    by_cases hhandle : member.document.protect.subjectHandle = keyCtx.inner.memberHandle.text
    · rw [if_pos hhandle, matchesPublicKey, if_neg fun hne => hne hhandle,
        if_neg fun hne => hne hkid] at h
      obtain ⟨isCurrent, hcurrent, h⟩ := bind_eq_ok.mp h
      obtain ⟨x, hx, hcurrent⟩ := bind_eq_ok.mp hcurrent
      cases isCurrent with
      | false => cases h
      | true =>
        have hsame : x = C.verifyingKey keyCtx.inner.signingKey :=
          of_decide_eq_true (Except.ok.inj hcurrent)
        exact ⟨member, hmem, hkid, hhandle, hsame ▸ hx⟩
    · rw [if_neg hhandle] at h
      cases h

/-- The kids and the hints of a verified artifact are those of its wrap items. -/
theorem fromVerified_ok {artifact : VerifiedArtifact} {subject : RecipientSetSubject}
    (h : RecipientSetSubject.fromVerified C artifact = .ok subject) {item : WrapItem}
    (hitem : item ∈ artifact.wrapItems) :
    item.kid ∈ subject.inner.recipientKids
      ∧ ⟨item.kid, item.recipientHandle⟩ ∈ subject.inner.recipientHandleHints := by
  obtain ⟨inner, hinner, h⟩ := bind_eq_ok.mp h
  obtain ⟨_, _, hresult⟩ := bind_eq_ok.mp h
  obtain ⟨base, hbase, hinner⟩ := bind_eq_ok.mp hinner
  obtain ⟨hints, hhints, hset⟩ := bind_eq_ok.mp hinner
  obtain ⟨normalized, hnormalized, hbase⟩ := bind_eq_ok.mp hbase
  obtain ⟨hash, _, hbase⟩ := bind_eq_ok.mp hbase
  rw [← Except.ok.inj hresult, ← Except.ok.inj hset, ← Except.ok.inj hbase]
  constructor
  · exact (normalizeRecipientKids_ok hnormalized).2.mem_iff.mpr (List.mem_map_of_mem hitem)
  · obtain ⟨listed, hlisted, hsorted⟩ := bind_eq_ok.mp hhints
    rw [← Except.ok.inj hsorted]
    refine (perm_sortBy RecipientHandleHint.kid listed).mem_iff.mpr ?_
    obtain ⟨hint, hhint, hread⟩ := exists_right_of_mem (mapM_ok.mp hlisted) hitem
    obtain ⟨kid, hkid, hread⟩ := bind_eq_ok.mp hread
    obtain ⟨handle, hhandle, hread⟩ := bind_eq_ok.mp hread
    rw [← text_of_fromCanonical hkid, ← text_of_tryFrom hhandle, Except.ok.inj hread]
    exact hhint

/-- The recipients of an artifact that are current: all of them are active, under their handles. -/
theorem currentWraps_of {artifact : VerifiedArtifact} {subject : RecipientSetSubject}
    (hsubject : RecipientSetSubject.fromVerified C artifact = .ok subject)
    (h : evaluator.enforceArtifactRecipientsCurrent subject = .ok ()) :
    CurrentWraps evaluator.members artifact.wrapItems := by
  intro item hitem
  obtain ⟨hkid, hhint⟩ := fromVerified_ok hsubject hitem
  obtain ⟨⟨⟩, hhandles, h⟩ := bind_eq_ok.mp h
  cases hinactive : findInactiveRecipientKid subject.inner evaluator.members with
  | some kid =>
    rw [hinactive] at h
    cases h
  | none =>
    have hactive := List.find?_eq_none.mp hinactive item.kid hkid
    cases hget : evaluator.members.get item.kid with
    | none =>
      rw [hget] at hactive
      exact absurd rfl hactive
    | some member =>
      obtain ⟨hmem, hmemberKid⟩ := CurrentMemberSnapshot.get_eq_some.mp hget
      refine ⟨member, hmem, hmemberKid, ?_⟩
      rw [enforceRecipientHandleConsistency] at hhandles
      cases hmismatch : findRecipientHandleMismatch subject.inner evaluator.members with
      | some mismatch =>
        rw [hmismatch] at hhandles
        cases hhandles
      | none =>
        have hnone := List.findSome?_eq_none_iff.mp hmismatch _ hhint
        by_contra hother
        have hne : ¬member.document.protect.subjectHandle = item.recipientHandle := hother
        rw [hget] at hnone
        have hsome : (if member.document.protect.subjectHandle = item.recipientHandle then none
          else some (RecipientHandleMismatch.mk item.kid item.recipientHandle
            member.document.protect.subjectHandle)) = none := hnone
        rw [if_neg hne] at hsome
        cases hsome

/-! ## Outputs -/

theorem fromOutputRecipients_ok {sid : Uuid} {recipients : RecipientKeys}
    {output : RecipientSetSubject}
    (h : RecipientSetSubject.fromOutputRecipients C sid recipients = .ok output) :
    output.inner.sid = sid
      ∧ output.inner.recipientKids.Perm (recipients.keys.map VerifiedRecipientKey.kid) := by
  obtain ⟨inner, hinner, h⟩ := bind_eq_ok.mp h
  obtain ⟨_, _, hresult⟩ := bind_eq_ok.mp h
  obtain ⟨base, hbase, hset⟩ := bind_eq_ok.mp hinner
  obtain ⟨normalized, hnormalized, hbase⟩ := bind_eq_ok.mp hbase
  obtain ⟨hash, _, hbase⟩ := bind_eq_ok.mp hbase
  rw [← Except.ok.inj hresult, ← Except.ok.inj hset, ← Except.ok.inj hbase]
  refine ⟨rfl, (normalizeRecipientKids_ok hnormalized).2.trans ?_⟩
  rw [List.map_map]
  exact List.Perm.refl _

/-- One's own identity has one's own handle. -/
theorem handle_of_ownKey {identity : TrustIdentity}
    (h : OwnKey (buildSelfTrust C keyCtx) identity) :
    identity.memberHandle = keyCtx.inner.memberHandle :=
  (Option.some.inj h.1).symm

/-- An accepted set is recorded for its sid. -/
theorem record_of_accepted {records : List RecipientSetRecord} {current : ArtifactRecipientSet}
    (h : judgeRecipientSet records current = .accepted) :
    ∃ record, (records.find? fun record => record.sid = current.sid.text) = some record
      ∧ record.recipientKids = current.recipientKids := by
  rw [judgeRecipientSet] at h
  cases hfind : records.find? fun record => record.sid = current.sid.text with
  | none =>
    rw [hfind] at h
    cases h
  | some record =>
    rw [hfind] at h
    refine ⟨record, rfl, ?_⟩
    by_contra hne
    have hchanged : (if record.recipientKids = current.recipientKids then
      RecipientSetJudgment.accepted else .changed record) = .accepted := h
    rw [if_neg hne] at hchanged
    cases hchanged

/-- A recipient set of one's own is one kid, of an active member that is oneself. -/
theorem own_of_selfOnly {current : ArtifactRecipientSet}
    (h : isSelfOnlyRecipientSet current evaluator.members (buildSelfTrust C keyCtx) = .ok true) :
    ∃ kid, current.recipientKids = [kid] ∧ ∃ member, evaluator.members.get kid = some member
      ∧ handleOf member = keyCtx.inner.memberHandle.text := by
  rw [isSelfOnlyRecipientSet] at h
  split at h
  · rename_i kid hkids
    split at h
    · cases h
    · rename_i member hget
      obtain ⟨identity, hidentity, hown⟩ := bind_eq_ok.mp h
      refine ⟨kid, hkids, member, hget, ?_⟩
      rw [← handle_of_ownKey (containsIdentity_true.mp hown)]
      exact (TrustIdentity.fromPublicKey_ok hidentity).1.symm
  · cases h

/-- **A TRUSTED OUTPUT** is for the active members, with keys and as a set that are approved. -/
theorem currentOutput_of {sid : Uuid} {recipients : RecipientKeys} {output : RecipientSetSubject}
    {requests : List TrustReviewRequest}
    (houtput : RecipientSetSubject.fromOutputRecipients C sid recipients = .ok output)
    (h : evaluator.evaluateKvOutputRecipients output recipients (buildSelfTrust C keyCtx) requests
      = .ok []) :
    CurrentOutput evaluator sid recipients keyCtx := by
  obtain ⟨hkids, hcurrent, keyed, hkeyed, hset⟩ := evaluateKvOutputRecipients_ok h
  obtain ⟨hmatches, hdistinct⟩ := enforceOutputKidSetCurrent_ok.mp hkids
  obtain ⟨hsid, hperm⟩ := fromOutputRecipients_ok houtput
  have hdocuments : ∀ key ∈ recipients.keys, ∃ member ∈ evaluator.members.members,
      kidOf member = key.kid ∧ member.document = key.document := by
    intro key hkey
    obtain ⟨member, hmem, hsame⟩ := enforceOutputRecipientCurrent_ok.mp (hcurrent key hkey)
    exact ⟨member, hmem, congrArg (fun document => document.protect.kid) hsame, hsame⟩
  rcases evaluateArtifactRecipientSet_ok hset with ⟨rfl, haccepted⟩ | ⟨_, request, _, _, hnil, _⟩
  swap
  · exact absurd hnil (List.append_ne_nil_of_right_ne_nil _ (List.cons_ne_nil _ _)).symm
  refine ⟨perm_of_matchesKidSet hmatches hdistinct, hdistinct, hdocuments, ?_, ?_⟩
  · intro key hkey hother
    obtain ⟨identity, hidentity, htrusted⟩ := (evaluateRecipientPublicKeys_nil hkeyed).2 _
      (List.mem_map_of_mem hkey)
    obtain ⟨hhandle, hkid, _⟩ := TrustIdentity.fromPublicKey_ok hidentity
    rcases htrusted with hown | ⟨known, hknown, hsame⟩
    · refine absurd ?_ hother
      rw [← handle_of_ownKey hown]
      exact hhandle.symm
    · rw [hkid] at hknown
      exact ⟨known, hknown, hsame.trans hhandle⟩
  · rcases haccepted with hself | hjudged
    · obtain ⟨kid, hone, member, hget, hhandle⟩ := own_of_selfOnly hself
      rw [hone] at hperm
      obtain ⟨key, hkeys, hkid⟩ := List.map_eq_singleton_iff.mp (List.perm_singleton.mp hperm.symm)
      refine Or.inr ⟨key, hkeys, ?_⟩
      -- the member under that kid is the one whose statement the key carries
      obtain ⟨other, hother, hotherKid, hdocument⟩ := hdocuments key (by
        rw [hkeys]
        exact List.mem_singleton_self key)
      have hfound := CurrentMemberSnapshot.get_eq_some.mpr ⟨hother, hotherKid.trans hkid⟩
      obtain rfl := Option.some.inj (hget.symm.trans hfound)
      rw [← hhandle]
      exact congrArg (fun document => document.protect.subjectHandle) hdocument.symm
    · obtain ⟨record, hfind, hrecord⟩ := record_of_accepted hjudged
      rw [hsid] at hfind
      exact Or.inl ⟨record, hfind, hrecord ▸ hperm⟩

end Evaluations

/-! ## Rewrites -/

/-- **A REWRITE WRAPS THE OLD KEY** of the document for the recipients it was given. -/
theorem wraps_of_rewrite {C : Crypto} {content text : String} {recipients : KvRecipientSnapshot}
    {ctx : KvWriteContext} {entropy : Entropy}
    {mutateUnsigned : KvDocumentDraft → VerifiedKvRewriteSession → MasterKey →
      Except Error KvDocumentDraft}
    (h : rewriteExistingKvContent C content recipients ctx entropy mutateUnsigned = .ok text) :
    ∃ doc masterKey draft signing signature, verifyKvContent C content = .ok doc
      ∧ unwrapMasterKeyWithContext C .kv doc.head.sid doc.wrap.wrap ctx.memberHandle ctx.keyCtx
        = .ok masterKey
      ∧ KvDraft.SignedBy C draft masterKey signing signature text
      ∧ List.Forall₂ (fun member item =>
          ∃ s, buildWrapItem C .kv member doc.head.sid masterKey s = .ok item)
        recipients.verifiedMembers draft.wrap.data.wrap := by
  obtain ⟨session, hload, h⟩ := bind_eq_ok.mp h
  obtain ⟨doc, hverified, hload⟩ := bind_eq_ok.mp hload
  obtain rfl := Except.ok.inj hload
  obtain ⟨masterKey, hunwrap, h⟩ := bind_eq_ok.mp h
  obtain ⟨_, _, h⟩ := bind_eq_ok.mp h
  obtain ⟨mutated, _, h⟩ := bind_eq_ok.mp h
  obtain ⟨wrap, hwrap, h⟩ := bind_eq_ok.mp h
  obtain ⟨signing, _, h⟩ := bind_eq_ok.mp h
  obtain ⟨signature, hsigned⟩ := signUnsignedKvDocument_ok h
  obtain ⟨items, hitems, hwrap⟩ := bind_eq_ok.mp hwrap
  obtain rfl := Except.ok.inj hwrap
  obtain ⟨found, hfound, hproof⟩ := bind_eq_ok.mp hunwrap
  obtain ⟨_, _, hfoundKey⟩ := bind_eq_ok.mp hproof
  obtain rfl := Except.ok.inj hfoundKey
  exact ⟨doc, found, mutated.setWrap ⟨items, doc.wrap.removedRecipients⟩, signing, signature,
    hverified, hfound, hsigned, (buildWrapsForRecipients_ok hitems).2⟩

/-- Everybody a document was wrapped for is wrapped for again, with the same key. -/
def KeepsWraps (C : Crypto) (doc : KvEncDocument) (recipients : RecipientKeys)
    (keyCtx : KeyContext) (text : String) : Prop :=
  ∃ masterKey draft signing signature,
    unwrapMasterKeyWithContext C .kv doc.head.sid doc.wrap.wrap keyCtx.inner.memberHandle.text
        keyCtx.inner = .ok masterKey
      ∧ KvDraft.SignedBy C draft masterKey signing signature text
      ∧ ∀ item ∈ doc.wrap.wrap, ∃ again ∈ draft.wrap.data.wrap, again.kid = item.kid
        ∧ again.recipientHandle = item.recipientHandle
        ∧ ∃ member ∈ recipients.keys, ∃ s,
          buildWrapItem C .kv member doc.head.sid masterKey s = .ok again

theorem keepsWraps_of {C : Crypto} {evaluator : TrustPolicyEvaluator} {recipients : RecipientKeys}
    {keyCtx : KeyContext} {sid : Uuid} {content text : String} {handles : List String}
    {entropy : Entropy} {doc : KvEncDocument}
    {mutateUnsigned : KvDocumentDraft → VerifiedKvRewriteSession → MasterKey →
      Except Error KvDocumentDraft}
    (hverified : verifyKvContent C content = .ok doc)
    (hwraps : CurrentWraps evaluator.members doc.wrap.wrap)
    (houtput : CurrentOutput evaluator sid recipients keyCtx)
    (h : rewriteExistingKvContent C content ⟨handles, recipients.keys⟩
      ⟨keyCtx.inner.memberHandle.text, keyCtx.inner⟩ entropy mutateUnsigned = .ok text) :
    KeepsWraps C doc recipients keyCtx text := by
  obtain ⟨doc', masterKey, draft, signing, signature, hverified', hunwrap, hsigned, hbuilt⟩ :=
    wraps_of_rewrite h
  obtain rfl := Except.ok.inj (hverified.symm.trans hverified')
  refine ⟨masterKey, draft, signing, signature, hunwrap, hsigned, fun item hitem => ?_⟩
  -- the item's kid is an active member's, and so a recipient's
  obtain ⟨member, hmem, hkid, hhandle⟩ := hwraps item hitem
  have hrecipient : item.kid ∈ recipients.keys.map VerifiedRecipientKey.kid := by
    rw [houtput.kids.mem_iff, ← hkid]
    exact List.mem_map_of_mem hmem
  obtain ⟨key, hkey, hkeyKid⟩ := List.mem_map.mp hrecipient
  obtain ⟨other, hother, hotherKid, hdocument⟩ := houtput.documents key hkey
  obtain rfl := List.inj_on_of_nodup_map evaluator.members.kids hother hmem
    (hotherKid.trans (hkeyKid.trans hkid.symm))
  obtain ⟨again, hagain, s, hs⟩ := exists_right_of_mem hbuilt hkey
  obtain ⟨_, _, _, _, _, rfl⟩ := buildWrapItem_ok hs
  refine ⟨_, hagain, hkeyKid, ?_, key, hkey, s, hs⟩
  rw [← hhandle]
  exact congrArg (fun document => document.protect.subjectHandle) hdocument.symm

/-! ## The laws -/

/-- What a write to a kv document that is trusted rests on. -/
structure KvAuthorityLaws : Prop where
  /-- a trusted write to a document: its wraps, the writing key and the output are current -/
  existing : ∀ (C : Crypto) (evaluator : TrustPolicyEvaluator) (artifact : VerifiedArtifact)
    (recipients : RecipientKeys) (keyCtx : KeyContext),
    evaluator.evaluateKvMutation C artifact recipients keyCtx = .ok .trusted →
    CurrentWraps evaluator.members artifact.wrapItems
      ∧ CurrentKey C evaluator.members keyCtx
      ∧ CurrentOutput evaluator artifact.sid recipients keyCtx
  /-- and so are the writing key and the output of a new document -/
  absent : ∀ (C : Crypto) (evaluator : TrustPolicyEvaluator) (sid : Uuid)
    (recipients : RecipientKeys) (keyCtx : KeyContext),
    evaluator.evaluateNewKvOutput C sid recipients keyCtx = .ok .trusted →
    CurrentKey C evaluator.members keyCtx ∧ CurrentOutput evaluator sid recipients keyCtx
  /-- a trusted set, of one entry or of an import, keeps the master key and everybody's wrap -/
  set : ∀ (C : Crypto) (evaluator : TrustPolicyEvaluator) (artifact : VerifiedArtifact)
    (recipients : RecipientKeys) (keyCtx : KeyContext) (content text : String)
    (doc : KvEncDocument) (entries : List KvInputEntry) (handles : List String)
    (entropy : Entropy), verifyKvContent C content = .ok doc →
    artifact.wrapItems = doc.wrap.wrap →
    evaluator.evaluateKvMutation C artifact recipients keyCtx = .ok .trusted →
    setKvEntryWithRecipients C (some content) entries ⟨handles, recipients.keys⟩
      ⟨keyCtx.inner.memberHandle.text, keyCtx.inner⟩ entropy = .ok text →
    KeepsWraps C doc recipients keyCtx text
  /-- and so does a trusted unset -/
  unset : ∀ (C : Crypto) (evaluator : TrustPolicyEvaluator) (artifact : VerifiedArtifact)
    (recipients : RecipientKeys) (keyCtx : KeyContext) (content text key : String)
    (doc : KvEncDocument) (handles : List String) (entropy : Entropy),
    verifyKvContent C content = .ok doc → artifact.wrapItems = doc.wrap.wrap →
    evaluator.evaluateKvMutation C artifact recipients keyCtx = .ok .trusted →
    unsetKvEntryWithRecipients C content key ⟨handles, recipients.keys⟩
      ⟨keyCtx.inner.memberHandle.text, keyCtx.inner⟩ entropy = .ok text →
    KeepsWraps C doc recipients keyCtx text

/-- A trusted write to a document. -/
theorem current_of_trusted {C : Crypto} {evaluator : TrustPolicyEvaluator}
    {artifact : VerifiedArtifact} {recipients : RecipientKeys} {keyCtx : KeyContext}
    (h : evaluator.evaluateKvMutation C artifact recipients keyCtx = .ok .trusted) :
    CurrentWraps evaluator.members artifact.wrapItems
      ∧ CurrentKey C evaluator.members keyCtx
      ∧ CurrentOutput evaluator artifact.sid recipients keyCtx := by
  obtain ⟨requests, hrequests, hdecision⟩ := bind_eq_ok.mp h
  obtain rfl := decisionOf_trusted.mp (Except.ok.inj hdecision)
  obtain ⟨_, hcurrent, input, output, judged, hinput, houtput, _, hactive, hstage⟩ :=
    kvMutationRequests_stages.mp hrequests
  exact ⟨currentWraps_of hinput hactive, enforceMutationKeyCurrent_ok hcurrent,
    currentOutput_of houtput hstage⟩

/-- **A TRUSTED WRITE** is for the active members, by an active key, and takes nobody's wrap. -/
theorem kvAuthorityLaws : KvAuthorityLaws where
  existing _ _ _ _ _ h := current_of_trusted h
  absent C evaluator sid recipients keyCtx h := by
    obtain ⟨requests, hrequests, hdecision⟩ := bind_eq_ok.mp h
    obtain rfl := decisionOf_trusted.mp (Except.ok.inj hdecision)
    obtain ⟨_, hcurrent, output, houtput, hstage⟩ := preflightRewrapOutput_stages.mp hrequests
    exact ⟨enforceMutationKeyCurrent_ok hcurrent, currentOutput_of houtput hstage⟩
  set C evaluator artifact recipients keyCtx content text doc entries handles entropy hverified
      hitems htrusted hset := by
    obtain ⟨hwraps, _, houtput⟩ := current_of_trusted htrusted
    exact keepsWraps_of hverified (hitems ▸ hwraps) houtput hset
  unset C evaluator artifact recipients keyCtx content text key doc handles entropy hverified
      hitems htrusted hunset := by
    obtain ⟨hwraps, _, houtput⟩ := current_of_trusted htrusted
    exact keepsWraps_of hverified (hitems ▸ hwraps) houtput hunset

/-! ## A team -/

/-- Alice, bob and dave are active. -/
def membersAfter : CurrentMemberSnapshot where
  members := teamAfter.map fun p => p.member.toLoadedPublicKey
  sorted := by decide
  kids := by decide

/-- The approval of somebody's key. -/
def approvedKey (p : ToyPerson) : KnownKey where
  kid := p.kid.text
  subjectHandle := p.handle.text
  approvedAt := toyTime.text
  approvedVia := .manualReview
  evidence := none
  extra := []

/-- The approval of the three as the recipients of a document. -/
def approvedSet : RecipientSetRecord where
  sid := freshSid.text
  recipientKids := teamAfter.map fun p => p.kid.text
  recipientSetHash := ""
  approvedAt := toyTime.text
  approvedVia := .manualReview
  recipientHandleHints := none

/-- Alice has approved the others, and the three together. -/
def teamEvaluator : TrustPolicyEvaluator :=
  ⟨membersAfter, some (toyProtectedStore ([bobOnly, daveOnly].map approvedKey) [approvedSet])⟩

/-- The recipients of what she writes. -/
def recipientsAfter : RecipientKeys := ⟨teamAfter.map ToyPerson.member⟩

def aliceKeys : KeyContext := ⟨aliceOnly.context, none⟩

/-- A document of the three that alice signed. -/
def artifactAfter : VerifiedArtifact where
  signerPublicKey := some aliceOnly.member.toLoadedPublicKey
  sid := freshSid
  wrapItems := teamAfter.map (ToyPerson.wrap (pad 32 [2]))

/-- Alice's writes to it are trusted. -/
theorem trusted_team :
    teamEvaluator.evaluateKvMutation toyCrypto artifactAfter recipientsAfter aliceKeys
      = .ok .trusted := by
  decide +kernel

/-- Alice sets an entry of such a document: its wraps are the active members', and all of them are
    kept. -/
theorem kvAuthorityLaws_toy :
    ∃ content doc text, verifyKvContent toyCrypto content = .ok doc
      ∧ CurrentWraps membersAfter doc.wrap.wrap
      ∧ CurrentOutput teamEvaluator freshSid recipientsAfter aliceKeys
      ∧ setKvEntryWithRecipients toyCrypto (some content) [⟨"D", "value"⟩] (writesFor teamAfter)
        (writtenBy aliceOnly) (toyDraws freshSid (pad 32 [8])) = .ok text
      ∧ KeepsWraps toyCrypto doc recipientsAfter aliceKeys text := by
  have hmarks : ToyMarks (mixedMarks ++ [("D", false)]) :=
    ⟨by decide, by decide, by decide, by decide⟩
  obtain ⟨content, hcontent⟩ := toyText_people freshSid course_change.after shortHistory_carol
    (pad 32 [2]) toyMarks_mixedMarks (List.mem_cons_self (a := aliceOnly))
  obtain ⟨doc, hverify, _, hwrap, _⟩ := toyText_read (List.mem_cons_self (a := aliceOnly))
    course_change.after shortHistory_carol hcontent
  obtain ⟨text, hset, _⟩ := set_toyKv (p := aliceOnly) "D" rfl List.mem_cons_self
    course_change.after shortHistory_carol hmarks hcontent freshSid (pad 32 [8])
  obtain ⟨hwraps, _, houtput⟩ := kvAuthorityLaws.existing _ _ _ _ _ trusted_team
  have hitems : artifactAfter.wrapItems = doc.wrap.wrap := (congrArg KvWrap.wrap hwrap).symm
  exact ⟨content, doc, text, hverify, hitems ▸ hwraps, houtput, hset,
    kvAuthorityLaws.set _ _ _ _ _ _ _ _ _ _ _ hverify hitems trusted_team hset⟩

end KvAuthority
