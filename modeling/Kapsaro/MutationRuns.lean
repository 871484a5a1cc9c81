import Kapsaro.KvLifetimes
import Kapsaro.MemberRuns

/-!
# Mutation runs — a kv mutation among other writers

Other writers change the target, the members and the trust directory between any two steps of a kv
mutation, and steps fail; the last check and the rename are one step.

* **`Derived`** — a text, and the trust store its authorization was derived from.
* **`Published`** — what a publication rests on.
* **`execute_settled`** — a mutation publishes on that, or leaves the target alone and fails.
* **`MutationLaws`** — the same of every run, and what a mutation is planned on.
* **`turns_execute`** — a mutation that nobody disturbs publishes.
-/

namespace MutationRuns

open JsonText JsonMembers JsonLimits Limits TextLines Base64Codec WireTexts WireModel
open DocumentTokens Envelope SignedArtifacts KeyedList TrustRecords TrustStore TrustSoundness
open TrustApprovals TrustDocument TrustTransaction TrustJudgment TrustPolicy MemberStore KvDocument
open KvMutation KvWriteLimits FormatDetection MutationReview StepPrograms Steps MutationCommit
open MemberInvariants MemberRuns KvRewrap KvSession KvLifetimes KvAuthority JsonSize ToyCrypto
open ToyDocuments ToyRewraps ToyTrust

/-! ## What a publication rests on -/

/-- A session of a command later on: at most its trust directory was opened in between. -/
def Opened (start session : TrustCommandSession) : Prop :=
  session = { start with trustDir := session.trustDir }
    ∧ ∀ dir, start.trustDir = some dir → session.trustDir = some dir

theorem Opened.refl (session : TrustCommandSession) : Opened session session :=
  ⟨rfl, fun _ h => h⟩

/-- A text stands under the name of the target. -/
def TargetHolds (text : String) (w : Shared) : Prop :=
  ∃ inode, w.entry = some inode ∧ (w.files inode).bytes = some (utf8 text)

section Laws

variable (C : Crypto) (P : TextParsers) (reader : ValueReader) (clock : ExpiryClock)
variable (confirm : ArtifactRecipientTrustOutcome → Except Error Bool)
variable (plan : MutationWriteTrustPlan)
variable (createOperation : Option String → KvRecipientSnapshot → KvWriteContext →
  Except Error String)
variable (operation : KvMutationOperation)
variable (authorizedOperation : AuthorizedKvMutation → Except Error String)

/-- A text of a mutation, under an authorization that is derived from a trust store. -/
inductive Derived (store : Option TrustStoreProtected) (text : String) : Prop where
  /-- a new document: its text was made for the review, and its output is trusted -/
  | new {doc : KvEncDocument} {recipients : RecipientKeys} {members : CurrentMemberSnapshot}
      (absent : plan.review.fileSnapshot = none)
      (created : createOperation none plan.review.recipients
        ⟨plan.session.owner.text, plan.session.keyCtx.inner⟩ = .ok text)
      (parsed : parseKvDocument text = .ok doc)
      (keys : buildAuthorizedRecipientKeys plan.review = .ok recipients)
      (active : buildActiveMembersByKid
        (recipients.keys.map VerifiedRecipientKey.toLoadedPublicKey) = .ok members)
      (trusted : TrustPolicyEvaluator.evaluateNewKvOutput C ⟨members, store⟩ doc.head.sid recipients
        plan.session.keyCtx = .ok .trusted)
  /-- an existing one: the text is what the authorized operation makes of the reviewed content -/
  | existing {content : String} {doc : KvEncDocument} {recipients : RecipientKeys}
      {members : CurrentMemberSnapshot} {authorized : AuthorizedKvMutation}
      (reviewed : plan.review.existingContent = some content)
      (verified : verifyForOperation C reader clock content = .ok doc)
      (keys : buildAuthorizedRecipientKeys plan.review = .ok recipients)
      (active : buildActiveMembersByKid
        (recipients.keys.map VerifiedRecipientKey.toLoadedPublicKey) = .ok members)
      (trusted : evaluateMutation C clock ⟨members, store⟩ content doc recipients
        plan.session.keyCtx operation = .ok (.trusted authorized))
      (produced : authorizedOperation authorized = .ok text)

/-- A text was authorized at one visit, and at a later one the trust store was still the same. -/
def Authorized (visits : List (Visit Shared)) (text : String) : Prop :=
  ∃ session decided checked loaded again, Opened plan.session session
    ∧ [decided, checked].Sublist visits
    ∧ loadSessionVerifiedTrustStore C P session decided.found = .ok loaded
    ∧ Derived C reader clock plan createOperation operation authorizedOperation
        (loaded.map VerifiedLocalTrustStore.protect) text
    ∧ loadSessionVerifiedTrustStore C P session checked.found = .ok again
    ∧ again.map VerifiedLocalTrustStore.protect = loaded.map VerifiedLocalTrustStore.protect

/-- **A PUBLICATION** of a mutation, after some visits. -/
structure Published (before : List (Visit Shared)) (v : Visit Shared) : Prop where
  /-- the active members are the reviewed ones -/
  members : MembersAre C clock plan.review.members v.found
  /-- the target is the reviewed one -/
  target : TargetIs plan.review.fileSnapshot v.found
  /-- what is published was authorized, and the store was checked after that -/
  text : ∃ text, Authorized C P reader clock plan createOperation operation authorizedOperation
      before text ∧ TargetHolds text v.left

/-- The visits of a mutation, after some earlier ones, leave the target alone and it does not
    succeed, or one of them is a publication and the others leave the target alone. -/
def Settled (earlier visits : List (Visit Shared)) (answer : Option (Except Error Unit)) : Prop :=
  ((∀ v ∈ visits, targetOf v.left = targetOf v.found) ∧ answer ≠ some (.ok ()))
    ∨ ∃ before v after, visits = before ++ v :: after
      ∧ Published C P reader clock plan createOperation operation authorizedOperation
          (earlier ++ before) v
      ∧ ∀ w ∈ before ++ after, targetOf w.left = targetOf w.found

variable {C P reader clock confirm plan createOperation operation authorizedOperation}

theorem Authorized.mono {visits later : List (Visit Shared)} {text : String}
    (h : Authorized C P reader clock plan createOperation operation authorizedOperation visits text)
    (hsub : visits.Sublist later) :
    Authorized C P reader clock plan createOperation operation authorizedOperation later text := by
  obtain ⟨session, decided, checked, loaded, again, hopened, horder, hrest⟩ := h
  exact ⟨session, decided, checked, loaded, again, hopened, horder.trans hsub, hrest⟩

/-- **SEQUENCE**: a program that leaves the target alone, and what follows where it succeeds. -/
theorem Settled.bind {α : Type} {p : Steps Shared Error α} {k : α → Steps Shared Error Unit}
    {earlier visits : List (Visit Shared)} {answer : Option (Except Error Unit)}
    (hp : Leaves targetOf p) (h : Sees (p >>= k) visits answer)
    (hk : ∀ a before after, Sees p before (some (.ok a)) → Sees (k a) after answer →
      Settled C P reader clock plan createOperation operation authorizedOperation
        (earlier ++ before) after answer) :
    Settled C P reader clock plan createOperation operation authorizedOperation earlier visits
      answer := by
  rcases sees_handle h with ⟨hstopped, rfl⟩ | ⟨r, before, after, rfl, hbefore, hafter⟩
  · exact Or.inl ⟨hp visits none hstopped, fun h => by cases h⟩
  · have hquiet := hp before _ hbefore
    cases r with
    | error e =>
      obtain ⟨rfl, rfl⟩ := hafter
      rw [List.append_nil]
      exact Or.inl ⟨hquiet, fun h => by cases Option.some.inj h⟩
    | ok a =>
      rcases hk a before after hbefore hafter with ⟨hleft, hanswer⟩ |
        ⟨more, v, rest, rfl, hv, hleft⟩
      · refine Or.inl ⟨fun v hv => ?_, hanswer⟩
        rcases List.mem_append.mp hv with hv | hv
        · exact hquiet v hv
        · exact hleft v hv
      · refine Or.inr ⟨before ++ more, v, rest, (List.append_assoc ..).symm, ?_, fun w hw => ?_⟩
        · rw [← List.append_assoc]
          exact hv
        · rw [List.append_assoc] at hw
          rcases List.mem_append.mp hw with hw | hw
          · exact hquiet w hw
          · exact hleft w hw

/-! ## The steps leave the target alone -/

theorem leaves_privateStep : Leaves targetOf privateStep :=
  Leaves.change fun _ _ h => by rw [Except.ok.inj h]

theorem leaves_ensureCurrent (review : MutationReviewSnapshot) (session : TrustCommandSession) :
    Leaves targetOf (review.ensureCurrent C P clock session) :=
  Leaves.bind (Leaves.read _) fun _ => Leaves.bind (Leaves.read _) fun _ => Leaves.read _

theorem leaves_loadMutationAuthorization (session : TrustCommandSession)
    (recipients : RecipientKeys) :
    Leaves targetOf (loadMutationAuthorization C P session recipients) :=
  Leaves.bind (Leaves.lift _) fun _ => Leaves.bind (Leaves.read _) fun _ => Leaves.done _

theorem targetOf_makeTrustDirectory (dir : Nat) (w : Shared) :
    targetOf (makeTrustDirectory dir w) = targetOf w := by
  rw [makeTrustDirectory]
  cases w.trustEntry with
  | none => rfl
  | some _ => rfl

theorem leaves_ensuredTrustDirectory (session : TrustCommandSession) (draws : MutationDraws P) :
    Leaves targetOf (ensuredTrustDirectory P session draws) := by
  rw [ensuredTrustDirectory]
  cases session.trustDir with
  | some dir => exact Leaves.done _
  | none =>
    refine Leaves.bind (Leaves.change fun w t h => ?_) fun _ =>
      Leaves.bind (Leaves.read _) fun _ => Leaves.done _
    rw [← Except.ok.inj h]
    exact targetOf_makeTrustDirectory draws.trustDir w

theorem leaves_saveApproval (session : TrustCommandSession)
    (observed : Option VerifiedLocalTrustStore) (approval : ArtifactRecipientSet)
    (draws : MutationDraws P) :
    Leaves targetOf (saveReviewedRecipientSetApproval C P session observed approval draws) := by
  refine Leaves.bind (Leaves.lift _) fun _ => Leaves.bind (Leaves.lift _) fun _ =>
    Leaves.bind (Leaves.lift _) fun _ => Leaves.change fun w t h => ?_
  split at h
  · cases h
  · split at h
    · rw [← Except.ok.inj h]
      rfl
    · cases h
    · cases h

theorem leaves_reviewAndSave (session : TrustCommandSession)
    (outcome : ArtifactRecipientTrustOutcome) (draws : MutationDraws P) :
    Leaves targetOf
      (reviewAndSaveArtifactRecipientSet C P clock confirm plan session outcome draws) := by
  cases outcome with
  | accepted => exact Leaves.done _
  | needsManualApproval review =>
    refine Leaves.bind (leaves_ensuredTrustDirectory session draws) fun opened =>
      Leaves.bind (Leaves.read _) fun observed => Leaves.bind (Leaves.read _) fun confirmed =>
      Leaves.bind (leaves_ensureCurrent plan.review opened) fun _ => ?_
    cases confirmed with
    | false => exact Leaves.lift _
    | true =>
      exact Leaves.bind (leaves_saveApproval opened observed review.current draws) fun _ =>
        Leaves.done _

theorem leaves_reviewNew (draws : MutationDraws P) :
    Leaves targetOf (reviewNewKvMutation C P clock confirm plan createOperation draws) := by
  refine Leaves.bind (Leaves.lift _) fun _ => Leaves.bind (Leaves.lift _) fun _ =>
    Leaves.bind (Leaves.lift _) fun _ => Leaves.bind (Leaves.read _) fun _ =>
    Leaves.bind (Leaves.lift _) fun _ => Leaves.bind (Leaves.lift _) fun _ =>
    Leaves.bind (Leaves.lift _) fun _ => Leaves.bind (Leaves.lift _) fun _ =>
    Leaves.bind (Leaves.lift _) fun outcome =>
    Leaves.bind (leaves_reviewAndSave plan.session outcome draws) fun _ => Leaves.done _

theorem leaves_reviewExisting (existing : String) (draws : MutationDraws P) :
    Leaves targetOf
      (reviewExistingKvMutation C P reader clock confirm plan existing operation draws) := by
  refine Leaves.bind (Leaves.lift _) fun _ => Leaves.bind (Leaves.lift _) fun recipients =>
    Leaves.bind (leaves_loadMutationAuthorization plan.session recipients) fun _ =>
    Leaves.bind (Leaves.lift _) fun decision => Leaves.bind (Leaves.lift _) fun _ => ?_
  cases decision with
  | trusted mutation => exact Leaves.done _
  | reviewRequired requests =>
    refine Leaves.bind (Leaves.lift _) fun _ => Leaves.bind (Leaves.lift _) fun outcome => ?_
    cases outcome with
    | accepted => exact Leaves.lift _
    | needsManualApproval review =>
      exact Leaves.bind (leaves_reviewAndSave plan.session _ draws) fun _ => Leaves.done _

theorem leaves_review (draws : MutationDraws P) :
    Leaves targetOf
      (reviewKvMutation C P reader clock confirm plan createOperation operation draws) := by
  rw [reviewKvMutation]
  cases plan.review.existingContent with
  | none => exact leaves_reviewNew draws
  | some existing => exact leaves_reviewExisting existing draws

theorem leaves_commitNew (session : TrustCommandSession) (encrypted : String) (sid : Uuid) :
    Leaves targetOf (commitNewKvMutation C P plan session encrypted sid) := by
  refine Leaves.bind (Leaves.lift _) fun recipients =>
    Leaves.bind (leaves_loadMutationAuthorization session recipients) fun _ =>
    Leaves.bind (Leaves.lift _) fun decision => ?_
  cases decision with
  | trusted => exact Leaves.bind (Leaves.read _) fun _ => Leaves.done _
  | reviewRequired requests => exact Leaves.lift _

theorem leaves_commitExisting (session : TrustCommandSession) (existing : String) :
    Leaves targetOf (commitExistingKvMutation C P reader clock plan session existing operation
      authorizedOperation) := by
  refine Leaves.bind (Leaves.lift _) fun _ => Leaves.bind (Leaves.lift _) fun recipients =>
    Leaves.bind (leaves_loadMutationAuthorization session recipients) fun _ =>
    Leaves.bind (Leaves.lift _) fun decision => ?_
  cases decision with
  | trusted authorized =>
    exact Leaves.bind (Leaves.lift _) fun _ => Leaves.bind (Leaves.read _) fun _ => Leaves.done _
  | reviewRequired requests => exact Leaves.lift _

theorem leaves_commit (session : TrustCommandSession) (reviewed : ReviewedKvMutation) :
    Leaves targetOf (commitKvMutation C P reader clock plan session reviewed
      authorizedOperation) := by
  refine Leaves.bind (Leaves.read _) fun _ => Leaves.bind (Leaves.read _) fun _ => ?_
  cases reviewed with
  | new encrypted sid => exact leaves_commitNew session encrypted sid
  | existing existing operation => exact leaves_commitExisting session existing

/-! ## What the review hands on -/

/-- What the review handed on belongs to the plan. -/
def ReviewedFrom (plan : MutationWriteTrustPlan)
    (createOperation : Option String → KvRecipientSnapshot → KvWriteContext → Except Error String)
    (operation : KvMutationOperation) : ReviewedKvMutation → Prop
  | .new encrypted sid => plan.review.fileSnapshot = none
      ∧ createOperation none plan.review.recipients
          ⟨plan.session.owner.text, plan.session.keyCtx.inner⟩ = .ok encrypted
      ∧ ∃ doc, parseKvDocument encrypted = .ok doc ∧ doc.head.sid = sid
  | .existing content reviewedOperation =>
      plan.review.existingContent = some content ∧ reviewedOperation = operation

theorem ensuredTrustDirectory_ok {session opened : TrustCommandSession} {draws : MutationDraws P}
    {visits : List (Visit Shared)}
    (h : Sees (ensuredTrustDirectory P session draws) visits (some (.ok opened))) :
    Opened session opened := by
  rw [ensuredTrustDirectory] at h
  cases hdir : session.trustDir with
  | some dir =>
    rw [hdir] at h
    obtain ⟨_, hanswer⟩ := h
    obtain rfl := Except.ok.inj (Option.some.inj hanswer)
    exact Opened.refl opened
  | none =>
    rw [hdir] at h
    obtain ⟨_, _, _, _, _, h⟩ := sees_bind_ok.mp h
    obtain ⟨dir, _, _, _, _, h⟩ := sees_bind_ok.mp h
    obtain ⟨_, hanswer⟩ := h
    obtain rfl := Except.ok.inj (Option.some.inj hanswer)
    exact ⟨rfl, fun d hd => by rw [hdir] at hd; cases hd⟩

theorem reviewAndSave_ok {session opened : TrustCommandSession}
    {outcome : ArtifactRecipientTrustOutcome} {draws : MutationDraws P}
    {visits : List (Visit Shared)}
    (h : Sees (reviewAndSaveArtifactRecipientSet C P clock confirm plan session outcome draws)
      visits (some (.ok opened))) : Opened session opened := by
  cases outcome with
  | accepted =>
    obtain ⟨_, hanswer⟩ := h
    obtain rfl := Except.ok.inj (Option.some.inj hanswer)
    exact Opened.refl opened
  | needsManualApproval review =>
    obtain ⟨session', _, _, _, hopen, h⟩ := sees_bind_ok.mp h
    obtain ⟨observed, _, _, _, _, h⟩ := sees_bind_ok.mp h
    obtain ⟨confirmed, _, _, _, _, h⟩ := sees_bind_ok.mp h
    obtain ⟨_, _, _, _, _, h⟩ := sees_bind_ok.mp h
    cases confirmed with
    | false =>
      obtain ⟨_, hanswer⟩ := h
      cases Option.some.inj hanswer
    | true =>
      obtain ⟨_, _, _, _, _, h⟩ := sees_bind_ok.mp h
      obtain ⟨_, hanswer⟩ := h
      obtain rfl := Except.ok.inj (Option.some.inj hanswer)
      exact ensuredTrustDirectory_ok hopen

theorem reviewNew_ok {session : TrustCommandSession} {reviewed : ReviewedKvMutation}
    {draws : MutationDraws P} {visits : List (Visit Shared)}
    (habsent : plan.review.fileSnapshot = none)
    (h : Sees (reviewNewKvMutation C P clock confirm plan createOperation draws) visits
      (some (.ok (session, reviewed)))) :
    Opened plan.session session ∧ ReviewedFrom plan createOperation operation reviewed := by
  obtain ⟨encrypted, _, _, _, hcreated, h⟩ := sees_bind_ok.mp h
  obtain ⟨doc, _, _, _, hparsed, h⟩ := sees_bind_ok.mp h
  obtain ⟨_, _, _, _, _, h⟩ := sees_bind_ok.mp h
  obtain ⟨_, _, _, _, _, h⟩ := sees_bind_ok.mp h
  obtain ⟨_, _, _, _, _, h⟩ := sees_bind_ok.mp h
  obtain ⟨_, _, _, _, _, h⟩ := sees_bind_ok.mp h
  obtain ⟨_, _, _, _, _, h⟩ := sees_bind_ok.mp h
  obtain ⟨_, _, _, _, _, h⟩ := sees_bind_ok.mp h
  obtain ⟨outcome, _, _, _, _, h⟩ := sees_bind_ok.mp h
  obtain ⟨opened, _, _, _, hsaved, h⟩ := sees_bind_ok.mp h
  obtain ⟨_, hanswer⟩ := h
  obtain ⟨rfl, rfl⟩ := Prod.mk.inj (Except.ok.inj (Option.some.inj hanswer))
  exact ⟨reviewAndSave_ok hsaved, habsent, (Option.some.inj hcreated.2).symm, doc,
    (Option.some.inj hparsed.2).symm, rfl⟩

theorem reviewExisting_ok {session : TrustCommandSession} {reviewed : ReviewedKvMutation}
    {existing : String} {draws : MutationDraws P} {visits : List (Visit Shared)}
    (hexisting : plan.review.existingContent = some existing)
    (h : Sees (reviewExistingKvMutation C P reader clock confirm plan existing operation draws)
      visits (some (.ok (session, reviewed)))) :
    Opened plan.session session ∧ ReviewedFrom plan createOperation operation reviewed := by
  obtain ⟨doc, _, _, _, _, h⟩ := sees_bind_ok.mp h
  obtain ⟨recipients, _, _, _, _, h⟩ := sees_bind_ok.mp h
  obtain ⟨evaluator, _, _, _, _, h⟩ := sees_bind_ok.mp h
  obtain ⟨decision, _, _, _, _, h⟩ := sees_bind_ok.mp h
  obtain ⟨output, _, _, _, _, h⟩ := sees_bind_ok.mp h
  cases decision with
  | trusted mutation =>
    obtain ⟨_, hanswer⟩ := h
    obtain ⟨rfl, rfl⟩ := Prod.mk.inj (Except.ok.inj (Option.some.inj hanswer))
    exact ⟨Opened.refl _, hexisting, rfl⟩
  | reviewRequired requests =>
    obtain ⟨_, _, _, _, _, h⟩ := sees_bind_ok.mp h
    obtain ⟨outcome, _, _, _, _, h⟩ := sees_bind_ok.mp h
    cases outcome with
    | accepted =>
      obtain ⟨_, hanswer⟩ := h
      cases Option.some.inj hanswer
    | needsManualApproval review =>
      obtain ⟨opened, _, _, _, hsaved, h⟩ := sees_bind_ok.mp h
      obtain ⟨_, hanswer⟩ := h
      obtain ⟨rfl, rfl⟩ := Prod.mk.inj (Except.ok.inj (Option.some.inj hanswer))
      exact ⟨reviewAndSave_ok hsaved, hexisting, rfl⟩

theorem review_ok {session : TrustCommandSession} {reviewed : ReviewedKvMutation}
    {draws : MutationDraws P} {visits : List (Visit Shared)}
    (h : Sees (reviewKvMutation C P reader clock confirm plan createOperation operation draws)
      visits (some (.ok (session, reviewed)))) :
    Opened plan.session session ∧ ReviewedFrom plan createOperation operation reviewed := by
  rw [reviewKvMutation] at h
  cases hcontent : plan.review.existingContent with
  | none =>
    rw [hcontent] at h
    exact reviewNew_ok (Option.map_eq_none_iff.mp hcontent) h
  | some existing =>
    rw [hcontent] at h
    exact reviewExisting_ok hcontent h

/-! ## What the commit rests on -/

theorem Opened.keyCtx {start session : TrustCommandSession} (h : Opened start session) :
    session.keyCtx = start.keyCtx := by
  rw [h.1]

theorem loadMutationAuthorization_ok {session : TrustCommandSession} {recipients : RecipientKeys}
    {evaluator : TrustPolicyEvaluator} {visits : List (Visit Shared)}
    (h : Sees (loadMutationAuthorization C P session recipients) visits (some (.ok evaluator))) :
    ∃ v ∈ visits, ∃ members loaded, buildActiveMembersByKid
        (recipients.keys.map VerifiedRecipientKey.toLoadedPublicKey) = .ok members
      ∧ loadSessionVerifiedTrustStore C P session v.found = .ok loaded
      ∧ evaluator = ⟨members, loaded.map VerifiedLocalTrustStore.protect⟩ := by
  obtain ⟨members, before, after, rfl, hmembers, h⟩ := sees_bind_ok.mp h
  obtain ⟨loaded, reading, rest, rfl, hread, hdone⟩ := sees_bind_ok.mp h
  obtain ⟨opened, v, rfl, _, _, hload⟩ := sees_read.mp hread
  refine ⟨v, ?_, members, loaded, (Option.some.inj hmembers.2).symm, hload,
    Except.ok.inj (Option.some.inj hdone.2)⟩
  exact List.mem_append_right _ (List.mem_append_left _ (by simp))

/-- The last check of the trust store. -/
theorem enforceFinalSnapshot_ok {session : TrustCommandSession} {evaluator : TrustPolicyEvaluator}
    {visits : List (Visit Shared)}
    (h : Sees (enforceFinalSnapshot C P session evaluator) visits (some (.ok ()))) :
    ∃ v ∈ visits, ∃ again, loadSessionVerifiedTrustStore C P session v.found = .ok again
      ∧ again.map VerifiedLocalTrustStore.protect = evaluator.store := by
  obtain ⟨opened, v, rfl, _, _, hcheck⟩ := sees_read.mp h
  obtain ⟨again, hload, hsame⟩ := protect_of_trustStoreCurrent hcheck
  exact ⟨v, by simp, again, hload, hsame⟩

/-- One of some visits, and one of those after them. -/
theorem pair_sublist {before after : List (Visit Shared)} {v w : Visit Shared} (hv : v ∈ before)
    (hw : w ∈ after) : [v, w].Sublist (before ++ after) :=
  (List.singleton_sublist.mpr hv).append (List.singleton_sublist.mpr hw)

theorem authorized_of_commitNew {session : TrustCommandSession} {encrypted text : String}
    {sid : Uuid} {visits : List (Visit Shared)} (hopened : Opened plan.session session)
    (hreviewed : ReviewedFrom plan createOperation operation (.new encrypted sid))
    (h : Sees (commitNewKvMutation C P plan session encrypted sid) visits (some (.ok text))) :
    Authorized C P reader clock plan createOperation operation authorizedOperation visits text := by
  obtain ⟨habsent, hcreated, doc, hparsed, rfl⟩ := hreviewed
  obtain ⟨recipients, visits₁, _, rfl, hrecipients, h⟩ := sees_bind_ok.mp h
  obtain ⟨evaluator, visits₂, _, rfl, hload, h⟩ := sees_bind_ok.mp h
  obtain ⟨decided, hdecided, members, loaded, hmembers, hloaded, rfl⟩ :=
    loadMutationAuthorization_ok hload
  obtain ⟨decision, visits₃, _, rfl, hdecision, h⟩ := sees_bind_ok.mp h
  cases decision with
  | reviewRequired requests =>
    obtain ⟨_, hanswer⟩ := h
    cases Option.some.inj hanswer
  | trusted =>
    obtain ⟨_, visits₄, _, rfl, hfinal, h⟩ := sees_bind_ok.mp h
    obtain ⟨rfl, hanswer⟩ := h
    obtain rfl := Except.ok.inj (Option.some.inj hanswer)
    obtain ⟨checked, hchecked, again, hagain, hsame⟩ := enforceFinalSnapshot_ok hfinal
    have htrusted := (Option.some.inj hdecision.2).symm
    rw [hopened.keyCtx] at htrusted
    refine ⟨session, decided, checked, loaded, again, hopened, ?_, hloaded,
      .new habsent hcreated hparsed (Option.some.inj hrecipients.2).symm hmembers htrusted, hagain,
      hsame⟩
    refine (pair_sublist hdecided ?_).trans (List.sublist_append_right _ _)
    exact List.mem_append_right _ (List.mem_append_left _ hchecked)

theorem authorized_of_commitExisting {session : TrustCommandSession} {existing text : String}
    {visits : List (Visit Shared)} (hopened : Opened plan.session session)
    (hreviewed : ReviewedFrom plan createOperation operation (.existing existing operation))
    (h : Sees (commitExistingKvMutation C P reader clock plan session existing operation
      authorizedOperation) visits (some (.ok text))) :
    Authorized C P reader clock plan createOperation operation authorizedOperation visits text := by
  obtain ⟨hexisting, _⟩ := hreviewed
  obtain ⟨doc, visits₀, _, rfl, hverified, h⟩ := sees_bind_ok.mp h
  obtain ⟨recipients, visits₁, _, rfl, hrecipients, h⟩ := sees_bind_ok.mp h
  obtain ⟨evaluator, visits₂, _, rfl, hload, h⟩ := sees_bind_ok.mp h
  obtain ⟨decided, hdecided, members, loaded, hmembers, hloaded, rfl⟩ :=
    loadMutationAuthorization_ok hload
  obtain ⟨decision, visits₃, _, rfl, hdecision, h⟩ := sees_bind_ok.mp h
  cases decision with
  | reviewRequired requests =>
    obtain ⟨_, hanswer⟩ := h
    cases Option.some.inj hanswer
  | trusted authorized =>
    obtain ⟨made, visits₄, _, rfl, hmade, h⟩ := sees_bind_ok.mp h
    obtain ⟨_, visits₅, _, rfl, hfinal, h⟩ := sees_bind_ok.mp h
    obtain ⟨rfl, hanswer⟩ := h
    obtain rfl := Except.ok.inj (Option.some.inj hanswer)
    obtain ⟨checked, hchecked, again, hagain, hsame⟩ := enforceFinalSnapshot_ok hfinal
    have htrusted := (Option.some.inj hdecision.2).symm
    rw [hopened.keyCtx] at htrusted
    refine ⟨session, decided, checked, loaded, again, hopened, ?_, hloaded,
      .existing hexisting (Option.some.inj hverified.2).symm (Option.some.inj hrecipients.2).symm
        hmembers htrusted (Option.some.inj hmade.2).symm, hagain, hsame⟩
    refine ((pair_sublist hdecided ?_).trans (List.sublist_append_right _ _)).trans
      (List.sublist_append_right _ _)
    exact List.mem_append_right _ (List.mem_append_right _ (List.mem_append_left _ hchecked))

/-- **A COMMITTED TEXT IS AUTHORIZED** by the store that was found before and after it was made. -/
theorem authorized_of_commit {session : TrustCommandSession} {reviewed : ReviewedKvMutation}
    {text : String} {visits : List (Visit Shared)} (hopened : Opened plan.session session)
    (hreviewed : ReviewedFrom plan createOperation operation reviewed)
    (h : Sees (commitKvMutation C P reader clock plan session reviewed authorizedOperation) visits
      (some (.ok text))) :
    Authorized C P reader clock plan createOperation operation authorizedOperation visits text := by
  obtain ⟨_, visits₀, _, rfl, _, h⟩ := sees_bind_ok.mp h
  obtain ⟨_, visits₁, rest, rfl, _, h⟩ := sees_bind_ok.mp h
  have hsub : rest.Sublist (visits₀ ++ (visits₁ ++ rest)) :=
    (List.sublist_append_right _ _).trans (List.sublist_append_right _ _)
  cases reviewed with
  | new encrypted sid => exact (authorized_of_commitNew hopened hreviewed h).mono hsub
  | existing content reviewedOperation =>
    obtain rfl := hreviewed.2
    exact (authorized_of_commitExisting hopened hreviewed h).mono hsub

/-! ## The publication -/

/-- **THE LAST CHECK AND THE RENAME**, as one step. -/
theorem publish_ok {encrypted : String} {draws : MutationDraws P} {w t : Shared}
    (h : publish C P clock plan encrypted draws w = .ok t) :
    MembersAre C clock plan.review.members w ∧ TargetIs plan.review.fileSnapshot w
      ∧ TargetHolds encrypted t := by
  obtain ⟨⟨⟩, hcheck, h⟩ := bind_eq_ok.mp h
  obtain ⟨⟨⟩, _, h⟩ := bind_eq_ok.mp h
  obtain ⟨hmembers, htarget⟩ := reviewed_of_targetCurrent hcheck
  rw [← Except.ok.inj h]
  exact ⟨hmembers, htarget, draws.staged, rfl, congrArg FileNode.bytes (if_pos rfl)⟩

/-- **SAVING AN AUTHORIZED TEXT** publishes it, or leaves the target alone. -/
theorem settled_save {encrypted : String} {draws : MutationDraws P}
    {earlier visits : List (Visit Shared)} {answer : Option (Except Error Unit)}
    (hauthorized : Authorized C P reader clock plan createOperation operation authorizedOperation
      earlier encrypted)
    (h : Sees (saveReplacementAt C P clock plan encrypted draws) visits answer) :
    Settled C P reader clock plan createOperation operation authorizedOperation earlier visits
      answer := by
  refine Settled.bind leaves_privateStep h fun _ staging after _ h => ?_
  cases after with
  | nil =>
    obtain rfl : answer = none := h
    exact Or.inl ⟨fun v hv => (by cases hv), fun h => (by cases h)⟩
  | cons v after =>
    rcases h with ⟨hquiet, e, hfailed⟩ | ⟨hpublished, hsync⟩
    · -- the check or the rename failed
      obtain ⟨rfl, rfl⟩ := hfailed
      refine Or.inl ⟨fun w hw => ?_, fun h => (by cases Option.some.inj h)⟩
      rw [List.mem_singleton.mp hw, hquiet]
    · obtain ⟨hmembers, htarget, htext⟩ := publish_ok hpublished
      refine Or.inr ⟨[], v, after, rfl, ⟨hmembers, htarget, encrypted, ?_, htext⟩, fun w hw => ?_⟩
      · rw [List.append_nil]
        exact hauthorized.mono (List.sublist_append_left _ _)
      · exact leaves_privateStep after answer hsync w hw

/-- **A MUTATION PUBLISHES ON WHAT WAS REVIEWED AND AUTHORIZED**, or leaves the target alone. -/
theorem execute_settled {draws : MutationDraws P} {visits : List (Visit Shared)}
    {answer : Option (Except Error Unit)}
    (h : Sees (executeKvMutation C P reader clock confirm plan createOperation operation
      authorizedOperation draws) visits answer) :
    Settled C P reader clock plan createOperation operation authorizedOperation
      [] visits answer := by
  refine Settled.bind (leaves_ensureCurrent plan.review plan.session) h fun _ v₁ _ _ h => ?_
  refine Settled.bind (Leaves.lift _) h fun _ v₂ _ _ h => ?_
  refine Settled.bind (leaves_review draws) h fun handed v₃ _ hreview h => ?_
  obtain ⟨session, reviewed⟩ := handed
  obtain ⟨hopened, hreviewed⟩ := review_ok hreview
  refine Settled.bind leaves_privateStep h fun _ v₄ _ _ h => ?_
  refine Settled.bind (leaves_commit session reviewed) h fun encrypted v₅ _ hcommit h => ?_
  exact settled_save ((authorized_of_commit hopened hreviewed hcommit).mono
    (List.sublist_append_right _ _)) h

/-! ## A mutation nobody disturbs -/

/-- What a mutation of an existing document needs to publish a text: everything is as it was
    reviewed, and the trust store authorizes the text without a question. -/
structure Publishable (C : Crypto) (P : TextParsers) (reader : ValueReader) (clock : ExpiryClock)
    (plan : MutationWriteTrustPlan) (operation : KvMutationOperation)
    (authorizedOperation : AuthorizedKvMutation → Except Error String) (w : Shared)
    (text : String) : Prop where
  members : plan.review.ensureMembersMatch C clock w = .ok ()
  file : ensureFileMatches plan.review.target plan.review.fileSnapshot w = .ok ()
  content : ensureIdentityAndContentCurrent plan.review.target plan.review.fileSnapshot w = .ok ()
  store : ensureTrustStoreCurrent C P plan.session plan.review.trustStore w = .ok ()
  unexpired : plan.session.keyCtx.inner.enforceSigningKeyNotExpired = .ok ()
  authorized : ∃ content doc recipients members mutation output,
    plan.review.existingContent = some content
      ∧ verifyForOperation C reader clock content = .ok doc
      ∧ buildAuthorizedRecipientKeys plan.review = .ok recipients
      ∧ buildActiveMembersByKid (recipients.keys.map VerifiedRecipientKey.toLoadedPublicKey)
        = .ok members
      ∧ evaluateMutation C clock ⟨members, plan.review.trustStore⟩ content doc recipients
        plan.session.keyCtx operation = .ok (.trusted mutation)
      ∧ ArtifactRecipientSet.fromPublicKeys C doc.head.sid
        (recipients.keys.map fun key => key.document)
        = .ok output
      ∧ authorizedOperation mutation = .ok text

theorem passes_loadMutationAuthorization {session : TrustCommandSession} {w : Shared}
    {reviewed : Option TrustStoreProtected} {recipients : RecipientKeys}
    {members : CurrentMemberSnapshot}
    (hstore : ensureTrustStoreCurrent C P session reviewed w = .ok ())
    (hmembers : buildActiveMembersByKid (recipients.keys.map VerifiedRecipientKey.toLoadedPublicKey)
      = .ok members) :
    Passes (loadMutationAuthorization C P session recipients) w ⟨members, reviewed⟩ := by
  obtain ⟨loaded, hloaded, rfl⟩ := protect_of_trustStoreCurrent hstore
  exact Passes.bind (Passes.lift hmembers) (Passes.bind (Passes.read hloaded) (Passes.pure _ w))

/-- **AN UNDISTURBED MUTATION PUBLISHES** the text that was authorized, in one step. -/
theorem turns_execute {draws : MutationDraws P} {w left : Shared} {text : String}
    (h : Publishable C P reader clock plan operation authorizedOperation w text)
    (hleft : publish C P clock plan text draws w = .ok left) :
    Turns (executeKvMutation C P reader clock confirm plan createOperation operation
      authorizedOperation draws) w left () := by
  obtain ⟨content, doc, recipients, members, mutation, output, hcontent, hdoc,
      hrecipients, hmembers,
    htrusted, houtput, htext⟩ := h.authorized
  have hauthorization := passes_loadMutationAuthorization h.store hmembers
  have hcurrent : Passes (plan.review.ensureCurrent C P clock plan.session) w () :=
    Passes.bind (Passes.read h.members) (Passes.bind (Passes.read h.file) (Passes.read h.store))
  have hreview : Passes (reviewKvMutation C P reader clock confirm plan createOperation
      operation draws) w (plan.session, .existing content operation) := by
    rw [reviewKvMutation, hcontent]
    exact Passes.bind (Passes.lift hdoc) (Passes.bind (Passes.lift hrecipients)
      (Passes.bind hauthorization (Passes.bind (Passes.lift htrusted)
        (Passes.bind (Passes.lift houtput) (Passes.pure _ w)))))
  have hcommit : Passes (commitKvMutation C P reader clock plan plan.session
      (.existing content operation) authorizedOperation) w text :=
    Passes.bind (Passes.read h.members) (Passes.bind (Passes.read h.content)
      (Passes.bind (Passes.lift hdoc) (Passes.bind (Passes.lift hrecipients)
        (Passes.bind hauthorization (Passes.bind (Passes.lift htrusted)
          (Passes.bind (Passes.lift htext)
            (Passes.bind (Passes.read h.store) (Passes.pure _ w))))))))
  have hprivate : ∀ state : Shared, Passes privateStep state () := fun _ => Passes.change rfl
  have hsave : Turns (saveReplacementAt C P clock plan text draws) w left () :=
    Passes.turns (hprivate w) (Turns.bind (Turns.change hleft) (hprivate left))
  exact Passes.turns hcurrent (Passes.turns (Passes.lift h.unexpired) (Passes.turns hreview
    (Passes.turns (hprivate w) (Passes.turns hcommit hsave))))

end Laws

/-! ## The laws -/

section MutationLaws

variable (C : Crypto) (P : TextParsers) (reader : ValueReader) (clock : ExpiryClock)

/-- What holds of a kv mutation, whatever others do between its steps. -/
structure MutationLaws : Prop where
  /-- what a mutation is planned on: the members it was given, and the target as it stood at one of
      the steps -/
  planned : ∀ target members session context allowMissing moments s review,
    let o := (MutationReviewSnapshot.build C P target members session context allowMissing).among
      moments s
    o.answer = some (.ok review) →
      review.members = members ∧ ∃ v ∈ o.visits, TargetIs review.fileSnapshot v.found
  /-- a run publishes on what was reviewed and authorized, once and at one step; every other step
      leaves the target alone, and a run without a publication does not succeed -/
  executed : ∀ confirm plan createOperation operation authorizedOperation draws moments s,
    let o := (executeKvMutation C P reader clock confirm plan createOperation operation
      authorizedOperation draws).among moments s
    Settled C P reader clock plan createOperation operation authorizedOperation [] o.visits o.answer

/-- A review holds the target as one of the steps of its planning found it. -/
theorem planned_of_build {target : KvFileTarget} {members : WorkspaceMemberSnapshot}
    {session : TrustCommandSession} {context : TrustContext} {allowMissing : Bool}
    {visits : List (Visit Shared)} {review : MutationReviewSnapshot}
    (h : Sees (MutationReviewSnapshot.build C P target members session context allowMissing) visits
      (some (.ok review))) :
    review.members = members ∧ ∃ v ∈ visits, TargetIs review.fileSnapshot v.found := by
  obtain ⟨fileSnapshot, captured, rest, rfl, hcaptured, hrest⟩ := sees_bind_ok.mp h
  obtain ⟨opened, v, rfl, _, _, hcapture⟩ := sees_read.mp hcaptured
  have hstood := captureOptional_ok hcapture
  have hreview : review.members = members ∧ review.fileSnapshot = fileSnapshot := by
    dsimp only at hrest
    split at hrest
    · -- a target that has to be there is missing
      obtain ⟨_, _, _, _, hmissing, _⟩ := sees_bind_ok.mp hrest
      cases Option.some.inj hmissing.2
    · obtain ⟨_, _, _, _, _, hstore⟩ := sees_bind_ok.mp hrest
      obtain ⟨_, _, _, _, _, hdone⟩ := sees_bind_ok.mp hstore
      obtain rfl := Except.ok.inj (Option.some.inj hdone.2)
      exact ⟨rfl, rfl⟩
  refine ⟨hreview.1, v, ?_, hreview.2.symm ▸ hstood⟩
  exact List.mem_append_left _ (List.mem_cons_of_mem _ (List.mem_singleton.mpr rfl))

/-- **A KV MUTATION AMONG OTHER WRITERS**: what is published rests on the reviewed target, the
    reviewed members, and a trust store that was found again after the text was made. -/
theorem mutationLaws : MutationLaws C P reader clock where
  planned _ _ _ _ _ moments s _ h := planned_of_build C P (h ▸ sees_among _ moments s)
  executed _ _ _ _ _ _ moments s := execute_settled (sees_among _ moments s)

end MutationLaws

/-! ## Alice sets an entry -/

/-- The text of alice's key statement. -/
def aliceStatementText : String :=
  String.ofList (textAt false 0 aliceOnly.member.document.toJson)

/-- A workspace with alice alone. -/
def aliceWorkspace : Members :=
  Members.put ⟨∅, ∅⟩ .active (memberFileName alice.text) (utf8 aliceStatementText)

def aliceMembers : WorkspaceMemberSnapshot where
  activeMembers := [aliceOnly.member.toLoadedPublicKey]
  activeMembersByKid := ⟨[aliceOnly.member.toLoadedPublicKey], List.pairwise_singleton _ _,
    List.nodup_singleton _⟩
  memberHandles := [alice.text]
  verifiedRecipients := [aliceOnly.member]

theorem size_aliceStatementText :
    (utf8 aliceStatementText).length ≤ maxJsonDocumentReadSize := by
  rw [aliceStatementText, utf8_length, utf8ByteSize_ofList, charsSize_textAt]
  decide +kernel

theorem loadAt_aliceWorkspace :
    WorkspaceMemberSnapshot.loadAt toyCrypto unlimited aliceWorkspace = .ok aliceMembers := by
  have hnames : loadMemberDocumentNamesAt (aliceWorkspace.dir .active)
      = [memberFileName alice.text] := by
    have hkeys : (aliceWorkspace.dir .active).keys = {memberFileName alice.text} := by
      ext name
      rw [Finmap.mem_keys, Finset.mem_singleton]
      refine Finmap.mem_insert.trans (or_iff_left Finmap.notMem_empty)
    rw [loadMemberDocumentNamesAt, hkeys, Finset.sort_singleton]
    decide
  have hfound : aliceWorkspace.find .active (memberFileName alice.text)
      = some (utf8 aliceStatementText) := by
    rw [aliceWorkspace, Members.find_put, if_pos ⟨rfl, rfl⟩]
  have hloaded : loadVerifiedMemberFileAt aliceWorkspace .active (memberFileName alice.text)
      = .ok aliceOnly.member.document :=
    map_eq_ok.mpr ⟨⟨aliceStatementText, aliceOnly.member.document⟩,
      loadVerifiedMemberDocumentAt_of (checkedChildName_memberFileName alice.valid)
        hfound size_aliceStatementText
        (readDocument_textAt (wellFormed_toyStatement alice toyKid []) false)
        (fileStem_memberFileName _).symm, rfl⟩
  have hfiles : loadActiveMemberFiles aliceWorkspace = .ok aliceMembers.activeMembers := by
    rw [loadActiveMemberFiles, hnames]
    have hkey : loadedPublicKey aliceOnly.member.document
        = .ok aliceOnly.member.toLoadedPublicKey :=
      dif_pos (wellFormed_toyStatement alice toyKid [])
    have hone : [memberFileName alice.text].mapM (fun name => do
        let key ← loadVerifiedMemberFileAt aliceWorkspace .active name
        loadedPublicKey key) = Except.ok [aliceOnly.member.toLoadedPublicKey] := by
      rw [List.mapM_cons, List.mapM_nil]
      exact bind_eq_ok.mpr ⟨_, bind_eq_ok.mpr ⟨_, hloaded, hkey⟩, rfl⟩
    exact bind_eq_ok.mpr ⟨_, hone, rfl⟩
  have hverified : verifyRecipientPublicKeys toyCrypto unlimited aliceMembers.activeMembers
      = .ok [aliceOnly.member] := by
    have hattested : verifyPublicKeyWithAttestation toyCrypto aliceOnly.member.document
        = .ok (pad 32 []).bytes := verifyPublicKeyWithAttestation_toy alice []
    rw [verifyRecipientPublicKeys, aliceMembers, List.mapM_cons, List.mapM_nil, hattested]
    rfl
  have hbyKid : buildActiveMembersByKid aliceMembers.activeMembers
      = .ok aliceMembers.activeMembersByKid := rfl
  exact bind_eq_ok.mpr ⟨_, hfiles, throwIf_ok.mpr ⟨Bool.false_ne_true,
    bind_eq_ok.mpr ⟨_, hbyKid, bind_eq_ok.mpr ⟨_, hverified, rfl⟩⟩⟩⟩

/-- A file of an hour ago. -/
def toyMetadata : FileMetadata := ⟨420, 1, 1000, 1000, 0, 0, 0, 0, 0⟩

/-- Alice's document stands in a workspace of hers, and she has no trust store. -/
def aliceShared (content : String) : Shared where
  entry := some 1
  files := fun _ => ⟨toyMetadata, some (utf8 content)⟩
  members := aliceWorkspace
  trustEntry := none
  trustStores := fun _ => none

/-- What she reviews before she sets an entry of it. -/
def aliceReview (content : String) : MutationReviewSnapshot where
  target := ⟨"secrets/default.kvenc", "default.kvenc", maxKvEncFileSize⟩
  fileSnapshot := some ⟨1, toyMetadata, content⟩
  members := aliceMembers
  recipients := ⟨aliceMembers.memberHandles, aliceMembers.verifiedRecipients⟩
  trustStore := none

def alicePlan (content : String) : MutationWriteTrustPlan where
  session := {
    keyCtx := aliceKeys
    owner := alice
    path := ⟨"trust/alice.json", "alice"⟩
    keystore := ⟨"keys", fun _ _ => .ok none⟩
    trustDir := none }
  trustContext := ⟨[], [], aliceMembers.activeMembersByKid, false⟩
  review := aliceReview content

/-- She sets an entry. -/
def aliceSets (mutation : AuthorizedKvMutation) : Except Error String :=
  (executeAuthorized toyCrypto plainReader mutation (toyDraws freshSid (pad 32 [8]))
    (.set [⟨"D", "value"⟩])).map KvEncArtifact.text

def aliceDraws : MutationDraws toyParsers := ⟨2, toyNow, 3, toyMetadata⟩

/-- A document of hers, with the wrap for herself. -/
def OwnText (marks : List (String × Bool)) (text : String) : Prop :=
  ToyText toySid ⟨[aliceOnly].map (ToyPerson.wrap (pad 32 [1])), none⟩ (pad 32 [1])
    marks alice [] text

section Reviewed

variable {marks : List (String × Bool)} {content text : String}

theorem size_ownText (h : OwnText marks content) : (utf8 content).length ≤ maxKvEncFileSize := by
  obtain ⟨draft, signature, _, _, hverify⟩ := h
  obtain ⟨_, _, haccepted⟩ := accepted_of_verify hverify
  rw [utf8_length]
  exact haccepted.size

/-- The target is read as it was reviewed. -/
theorem read_aliceShared (h : OwnText marks content) :
    loadReviewedText (aliceReview content).target (aliceShared content)
      = .ok ⟨1, toyMetadata, content⟩ := by
  refine bind_eq_ok.mpr ⟨⟨1, toyMetadata, utf8 content⟩, rfl, bind_eq_ok.mpr
    ⟨_, if_pos (size_ownText h), bind_eq_ok.mpr ⟨content, ?_, rfl⟩⟩⟩
  rw [decodeLoadedText, utf8Decode_utf8]

theorem matches_aliceShared (h : OwnText marks content) :
    ensureFileMatches (aliceReview content).target (aliceReview content).fileSnapshot
      (aliceShared content) = .ok () := by
  have hcaptured : captureOptional (aliceReview content).target (aliceShared content)
      = .ok (some ⟨1, toyMetadata, content⟩) := map_eq_ok.mpr ⟨_, read_aliceShared h, rfl⟩
  have hcurrent : stillCurrent (aliceReview content).target (aliceReview content).fileSnapshot
      (aliceShared content) = .ok true := by
    have hmetadata : ¬toyMetadata ≠ toyMetadata := not_not_intro rfl
    rw [aliceReview, stillCurrent]
    refine (if_neg hmetadata).trans (bind_eq_ok.mpr ⟨_, hcaptured, ?_⟩)
    exact congrArg Except.ok (decide_eq_true ⟨rfl, rfl, rfl⟩)
  exact bind_eq_ok.mpr ⟨true, hcurrent, rfl⟩

theorem current_aliceShared (h : OwnText marks content) :
    ensureIdentityAndContentCurrent (aliceReview content).target (aliceReview content).fileSnapshot
      (aliceShared content) = .ok () := by
  have hcontent : ensureTextFileContentMatches (aliceReview content).target (some content)
      (aliceShared content) = .ok () := by
    rw [ensureTextFileContentMatches, read_aliceShared h]
    exact if_pos rfl
  have hholds : stillHolds (aliceReview content).target (aliceReview content).fileSnapshot
      (aliceShared content) = .ok true :=
    bind_eq_ok.mpr ⟨_, rfl, bind_eq_ok.mpr
      ⟨_, if_pos ((size_ownText h).trans (by decide)), rfl⟩⟩
  exact bind_eq_ok.mpr ⟨(), hcontent, bind_eq_ok.mpr ⟨true, hholds, rfl⟩⟩

/-- Alice is trusted with a document that is for her alone, without a trust store. -/
theorem trusted_alone :
    TrustPolicyEvaluator.evaluateKvMutation toyCrypto ⟨aliceMembers.activeMembersByKid, none⟩
      ⟨some aliceOnly.member.toLoadedPublicKey, toySid,
        [aliceOnly].map (ToyPerson.wrap (pad 32 [1]))⟩
      ⟨[aliceOnly].map ToyPerson.member⟩ aliceKeys = .ok .trusted := by
  decide +kernel

/-- **THE DOCUMENT STANDS AS SHE REVIEWED IT**, and she may set an entry of it. -/
theorem publishable_alice (hcontent : OwnText marks content)
    (htext : OwnText (marks ++ [("D", false)]) text)
    (hset : setKvEntryWithRecipients toyCrypto (some content) [⟨"D", "value"⟩]
      (writesFor [aliceOnly]) (writtenBy aliceOnly) (toyDraws freshSid (pad 32 [8])) = .ok text) :
    Publishable toyCrypto toyParsers plainReader unlimited (alicePlan content) .set aliceSets
      (aliceShared content) text := by
  obtain ⟨doc, hdoc, hauthorized⟩ := bind_eq_ok.mp (authorized_toy (List.mem_singleton_self _)
    course_rotation.before shortHistory_none trusted_alone hcontent .set)
  obtain ⟨decision, hdecision, hauthorized⟩ := bind_eq_ok.mp hauthorized
  obtain ⟨output, houtput⟩ : ∃ output, ArtifactRecipientSet.fromPublicKeys toyCrypto doc.head.sid
      [aliceOnly.member.document] = .ok output := ⟨_, rfl⟩
  cases decision with
  | reviewRequired requests => cases hauthorized
  | trusted mutation =>
    obtain rfl := Except.ok.inj hauthorized
    have hwritten : aliceSets ⟨content, ⟨[aliceOnly.member]⟩, aliceKeys, .set⟩ = .ok text :=
      map_eq_ok.mpr ⟨⟨text⟩, bind_eq_ok.mpr ⟨(), rfl, bind_eq_ok.mpr
        ⟨_, hset, parse_toyText htext⟩⟩, rfl⟩
    exact {
      members := bind_eq_ok.mpr ⟨_, loadAt_aliceWorkspace, rfl⟩
      file := matches_aliceShared hcontent
      content := current_aliceShared hcontent
      store := rfl
      unexpired := rfl
      authorized := ⟨content, doc, ⟨[aliceOnly.member]⟩, aliceMembers.activeMembersByKid,
        _, output, rfl, hdoc, rfl, rfl, hdecision, houtput, hwritten⟩ }

end Reviewed

/-- The entry is set: the run of the mutation publishes the text, once. -/
theorem mutationLaws_toy :
    ∃ content text left moments,
      let o := (executeKvMutation toyCrypto toyParsers plainReader unlimited (fun _ => .ok false)
        (alicePlan content) (fun _ _ _ => .ok "") .set aliceSets aliceDraws).among moments
          (aliceShared content)
      o.answer = some (.ok ())
        ∧ ⟨aliceShared content, left⟩ ∈ o.visits ∧ TargetHolds text left
        ∧ (∃ doc values, verifyKvContent toyCrypto text = .ok doc
          ∧ decryptKvDocumentWithContext toyCrypto doc "alice" aliceOnly.context = .ok values
          ∧ values.lookup "D" = some (utf8 "value"))
        ∧ ∃ before v after, o.visits = before ++ v :: after
          ∧ Published toyCrypto toyParsers plainReader unlimited (alicePlan content)
            (fun _ _ _ => .ok "") .set aliceSets before v
          ∧ ∀ w ∈ before ++ after, targetOf w.left = targetOf w.found := by
  have hmarks : ToyMarks [("A", false)] := ⟨by decide, by decide, by decide, by decide⟩
  have hmore : ToyMarks ([("A", false)] ++ [("D", false)]) :=
    ⟨by decide, by decide, by decide, by decide⟩
  obtain ⟨content, hcontent⟩ := toyText_people toySid course_rotation.before shortHistory_none
    (pad 32 [1]) hmarks (List.mem_singleton_self aliceOnly)
  obtain ⟨text, hset, htext⟩ := set_toyKv (p := aliceOnly) "D" rfl (List.mem_singleton_self _)
    course_rotation.before shortHistory_none hmore hcontent freshSid (pad 32 [8])
  have hpublishable := publishable_alice hcontent htext hset
  obtain ⟨left, hleft⟩ : ∃ left, publish toyCrypto toyParsers unlimited (alicePlan content) text
      aliceDraws (aliceShared content) = .ok left :=
    ⟨_, bind_eq_ok.mpr ⟨(), bind_eq_ok.mpr ⟨(), hpublishable.members, hpublishable.content⟩,
      bind_eq_ok.mpr ⟨(), hpublishable.content, rfl⟩⟩⟩
  have hturns : Turns (executeKvMutation toyCrypto toyParsers plainReader unlimited
      (fun _ => .ok false) (alicePlan content) (fun _ _ _ => .ok "") .set aliceSets aliceDraws)
      (aliceShared content) left () := turns_execute hpublishable hleft
  obtain ⟨before, after, _, _, hsees⟩ := hturns
  obtain ⟨moments, hvisits, hanswer⟩ := (sees_iff_among (aliceShared content)).mp hsees
  refine ⟨content, text, left, moments, hanswer, ?_, (publish_ok hleft).2.2, ?_, ?_⟩
  · rw [hvisits]
    exact List.mem_append_right _ List.mem_cons_self
  · obtain ⟨doc, hverify, _, _, _, hvalues⟩ := toyText_read (List.mem_singleton_self aliceOnly)
      course_rotation.before shortHistory_none htext
    exact ⟨doc, _, hverify, hvalues, rfl⟩
  · rcases (mutationLaws toyCrypto toyParsers plainReader unlimited).executed (fun _ => .ok false)
      (alicePlan content) (fun _ _ _ => .ok "") .set aliceSets aliceDraws moments
      (aliceShared content) with ⟨_, hfailed⟩ | ⟨earlier, v, later, hrun, hpublished, hquiet⟩
    · exact absurd hanswer hfailed
    · exact ⟨earlier, v, later, hrun, hpublished, hquiet⟩

end MutationRuns
