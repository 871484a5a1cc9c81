import Kapsaro.TrustEvaluation

/-!
# Approval records — what a store says once a review is answered

An answered review is recorded in the trust store. Recording a key succeeds unless the key carries
the owner's handle or its kid is recorded under another one, and afterwards the store knows this
key and every key it knew. Recording a recipient set always succeeds, and the set is accepted from
then on.

* **`Recorded`** — the handle a store knows a kid under.
* **`Answers`** — an approval of exactly what a request asks for.
* **`applyKnownKeys_ok`**, **`recorded_of_applyKnownKeys`** — recording the keys of a review.
* **`applyRecipientSet_ok`** — recording a recipient set.
-/

namespace ApprovalRecords

open JsonText JsonMembers Limits TextLines Base64Codec WireTexts WireModel DocumentTokens
open Envelope SignedArtifacts KvDocument KeyedList TrustRecords TrustStore TrustSoundness
open TrustApprovals TrustJudgment TrustPolicy TrustEvaluation

variable {C : Crypto} {P : TextParsers}

/-! ## Recorded keys -/

/-- The handle of a key statement. -/
def handleOf (key : LoadedPublicKey) : String :=
  key.document.protect.subjectHandle

/-- The first key known under a kid has this handle. -/
def Recorded (keys : List KnownKey) (kid handle : String) : Prop :=
  ∃ known, findKnownKey keys kid = some known ∧ known.subjectHandle = handle

/-- A kid is known under one handle. -/
theorem Recorded.unique {keys : List KnownKey} {kid handle other : String}
    (h : Recorded keys kid handle) (hother : Recorded keys kid other) : handle = other := by
  obtain ⟨known, hknown, rfl⟩ := h
  obtain ⟨known', hknown', rfl⟩ := hother
  rw [Option.some.inj (hknown.symm.trans hknown')]

/-- A key that fits what is known can be added. -/
theorem addKnownKey_total {keys : List KnownKey} (newKey : KnownKey)
    (h : ∀ handle, Recorded keys newKey.kid handle → handle = newKey.subjectHandle) :
    ∃ changed keys', addKnownKey keys newKey = .ok (changed, keys') := by
  rw [addKnownKey, enforceKidIntegrity]
  cases hfind : findKnownKey keys newKey.kid with
  | none => exact ⟨true, _, rfl⟩
  | some known =>
    have hsame := h known.subjectHandle ⟨known, hfind, rfl⟩
    dsimp only
    rw [if_neg fun hne => hne hsame]
    exact ⟨false, keys, rfl⟩

/-- An added key is known, and so is every key that was. -/
theorem addKnownKey_recorded {keys keys' : List KnownKey} {newKey : KnownKey} {changed : Bool}
    (h : addKnownKey keys newKey = .ok (changed, keys')) (kid handle : String) :
    Recorded keys' kid handle
      ↔ Recorded keys kid handle ∨ (kid = newKey.kid ∧ handle = newKey.subjectHandle) := by
  rw [addKnownKey, enforceKidIntegrity] at h
  obtain ⟨⟨⟩, hintegrity, h⟩ := bind_eq_ok.mp h
  cases hfind : findKnownKey keys newKey.kid with
  | none =>
    rw [hfind, Option.isSome_none, if_neg Bool.false_ne_true] at h
    rw [← (Prod.mk.inj (Except.ok.inj h)).2]
    simp only [Recorded, findKnownKey, List.find?_append] at hfind ⊢
    by_cases hkid : newKey.kid = kid
    · subst hkid
      rw [hfind, Option.none_or, List.find?_singleton, if_pos (decide_eq_true rfl)]
      constructor
      · rintro ⟨known, hknown, rfl⟩
        rw [← Option.some.inj hknown]
        exact Or.inr ⟨rfl, rfl⟩
      · rintro (⟨known, hknown, _⟩ | ⟨_, rfl⟩)
        · cases hknown
        · exact ⟨newKey, rfl, rfl⟩
    · rw [List.find?_singleton, if_neg (by simpa using hkid), Option.or_none]
      exact ⟨Or.inl, fun h => h.elim id fun hnew => absurd hnew.1.symm hkid⟩
  | some known =>
    rw [hfind, Option.isSome_some, if_pos rfl] at h
    rw [← (Prod.mk.inj (Except.ok.inj h)).2]
    rw [hfind] at hintegrity
    have hsame : known.subjectHandle = newKey.subjectHandle := by
      by_contra hne
      dsimp only at hintegrity
      rw [if_pos hne] at hintegrity
      cases hintegrity
    refine ⟨Or.inl, fun h => h.elim id ?_⟩
    rintro ⟨rfl, rfl⟩
    exact ⟨known, hfind, hsame⟩

/-! ## Answers -/

/-- The approval is of exactly what the request asks for. -/
def Answers (request : TrustReviewRequest) : TrustApproval → Prop
  | .knownKey key => request.kind = .knownKey ∧ request.knownKeyCandidate = some key.candidate
  | .recipientSet set => request.kind ≠ .knownKey ∧ request.sid = some set.sid
      ∧ request.recipientKids = set.recipientKids
      ∧ request.recipientHandleHints = set.recipientHandleHints

/-- Every candidate can be approved: with the evidence of its GitHub account when it claims one. -/
theorem exists_approval (candidate : KnownKeyReviewCandidate) :
    ∃ approval : KnownKeyApproval, approval.candidate = candidate := by
  cases hid : candidate.githubAccountId with
  | none =>
    refine ⟨⟨candidate, KnownKeyApprovalEvidence.none, ?_⟩, rfl⟩
    have hbinding : candidate.hasGithubBinding = false := by
      rw [KnownKeyReviewCandidate.hasGithubBinding, hid]
      rfl
    rw [KnownKeyApprovalEvidence.validateFor, hbinding]
    rfl
  | some id =>
    let verified : VerifiedGitHubEvidence :=
      ⟨⟨id, ""⟩, candidate.subjectHandle, candidate.kid, candidate.sshAttestorPublicKey⟩
    have hmatches : verified.matchesCandidate candidate = true := by
      simp only [VerifiedGitHubEvidence.matchesCandidate, Bool.and_eq_true, decide_eq_true_eq]
      exact ⟨⟨⟨rfl, rfl⟩, rfl⟩, hid⟩
    refine ⟨⟨candidate, ⟨some verified, none⟩, ?_⟩, rfl⟩
    simp only [KnownKeyApprovalEvidence.validateFor, Option.any_some, hmatches, Bool.not_true,
      Bool.and_false]
    rfl

/-! ## Recording keys -/

/-- What recording one approved key does. -/
theorem applyKnownKeyApproval_ok {owner : MemberHandle} {protect protect' : TrustStoreProtected}
    {key : KnownKeyApproval} {now : CurrentTime P} {changed : Bool}
    (h : applyKnownKeyApproval owner protect key now = .ok (changed, protect')) :
    handleOf key.candidate.publicKey ≠ owner.text
      ∧ ∃ keys', protect' = { protect with knownKeys := keys' }
        ∧ ∀ kid handle, Recorded keys' kid handle ↔ Recorded protect.knownKeys kid handle
          ∨ (kidOf key.candidate.publicKey = kid ∧ handleOf key.candidate.publicKey = handle) := by
  rw [applyKnownKeyApproval] at h
  obtain ⟨hself, h⟩ := throwIf_ok.mp h
  obtain ⟨⟨added, keys'⟩, hadd, h⟩ := bind_eq_ok.mp h
  refine ⟨hself, keys', (Prod.mk.inj (Except.ok.inj h)).2.symm, fun kid handle => ?_⟩
  rw [addKnownKey_recorded hadd kid handle]
  exact or_congr_right ⟨fun hnew => ⟨hnew.1.symm, hnew.2.symm⟩,
    fun hnew => ⟨hnew.1.symm, hnew.2.symm⟩⟩

theorem applyKnownKeyApproval_total {owner : MemberHandle} {protect : TrustStoreProtected}
    (key : KnownKeyApproval) (now : CurrentTime P)
    (howner : handleOf key.candidate.publicKey ≠ owner.text)
    (hfits : ∀ handle, Recorded protect.knownKeys (kidOf key.candidate.publicKey) handle →
      handle = handleOf key.candidate.publicKey) :
    ∃ changed protect', applyKnownKeyApproval owner protect key now = .ok (changed, protect') := by
  obtain ⟨changed, keys', hadd⟩ := addKnownKey_total (key.intoKnownKey now.text) hfits
  refine ⟨changed, { protect with knownKeys := keys' }, ?_⟩
  rw [applyKnownKeyApproval]
  exact throwIf_ok.mpr ⟨howner, bind_eq_ok.mpr ⟨(changed, keys'), hadd, rfl⟩⟩

/-- The approval of a requested key records that key. -/
theorem answers_knownKey {key : LoadedPublicKey} {approval : TrustApproval}
    (h : Answers (knownKeyReviewRequest key) approval) :
    ∃ approved : KnownKeyApproval, approval = .knownKey approved
      ∧ approved.candidate.publicKey = key := by
  cases approval with
  | knownKey approved =>
    refine ⟨approved, rfl, ?_⟩
    rw [← Option.some.inj h.2]
  | recipientSet set => exact absurd rfl h.1

/-- Approvals of the keys of a review, in its order. -/
abbrev AnswerKeys (keys : List LoadedPublicKey)
    (approvals : List (TrustApproval × CurrentTime P)) : Prop :=
  List.Forall₂ (fun key approval => Answers (knownKeyReviewRequest key) approval.1) keys approvals

/-- **RECORDING KEYS**: keys that do not carry the owner's handle and agree with each other and with
    the store about the handle of a kid are recorded. -/
theorem applyKnownKeys_ok {owner : MemberHandle} {protect : TrustStoreProtected}
    {keys : List LoadedPublicKey} {approvals : List (TrustApproval × CurrentTime P)}
    (hanswers : AnswerKeys keys approvals) (howner : ∀ key ∈ keys, handleOf key ≠ owner.text)
    (hfits : ∀ key ∈ keys, ∀ handle, Recorded protect.knownKeys (kidOf key) handle →
      handle = handleOf key)
    (hagree : ∀ a ∈ keys, ∀ b ∈ keys, kidOf a = kidOf b → handleOf a = handleOf b) :
    ∃ applied protect', applyApprovalsTo C owner protect approvals = .ok (applied, protect') := by
  induction hanswers generalizing protect with
  | nil => exact ⟨0, protect, rfl⟩
  | @cons key approval keys approvals hhead hrest ih =>
    obtain ⟨approval, now⟩ := approval
    obtain ⟨approved, rfl, rfl⟩ := answers_knownKey hhead
    obtain ⟨changed, next, hupdate⟩ := applyKnownKeyApproval_total approved now
      (howner _ List.mem_cons_self) (hfits _ List.mem_cons_self)
    obtain ⟨_, keys', rfl, hrecorded⟩ := applyKnownKeyApproval_ok hupdate
    have hfits' : ∀ key ∈ keys, ∀ handle, Recorded keys' (kidOf key) handle →
        handle = handleOf key := by
      intro key hkey handle hknown
      rcases (hrecorded _ _).mp hknown with hold | ⟨hkid, rfl⟩
      · exact hfits key (List.mem_cons_of_mem _ hkey) handle hold
      · exact hagree _ List.mem_cons_self key (List.mem_cons_of_mem _ hkey) hkid
    obtain ⟨applied, protect', hrun⟩ := @ih { protect with knownKeys := keys' }
      (fun key hkey => howner key (List.mem_cons_of_mem _ hkey)) hfits'
      (fun a ha b hb => hagree a (List.mem_cons_of_mem _ ha) b (List.mem_cons_of_mem _ hb))
    exact ⟨changed.toNat + applied, protect', bind_eq_ok.mpr ⟨_, hupdate, bind_eq_ok.mpr
      ⟨_, hrun, rfl⟩⟩⟩

/-- Recorded keys are known, and only they are new. None of them carries the owner's handle. -/
theorem recorded_of_applyKnownKeys {owner : MemberHandle} {protect protect' : TrustStoreProtected}
    {keys : List LoadedPublicKey} {approvals : List (TrustApproval × CurrentTime P)}
    {applied : Nat} (hanswers : AnswerKeys keys approvals)
    (h : applyApprovalsTo C owner protect approvals = .ok (applied, protect')) :
    (∀ key ∈ keys, handleOf key ≠ owner.text)
      ∧ ∃ keys', protect' = { protect with knownKeys := keys' }
        ∧ ∀ kid handle, Recorded keys' kid handle ↔ Recorded protect.knownKeys kid handle
          ∨ ∃ key ∈ keys, kidOf key = kid ∧ handleOf key = handle := by
  induction hanswers generalizing protect applied with
  | nil =>
    rw [← (Prod.mk.inj (Except.ok.inj h)).2]
    refine ⟨fun key hkey => absurd hkey List.not_mem_nil, protect.knownKeys, rfl,
      fun kid handle => ⟨Or.inl, fun hknown => hknown.elim id ?_⟩⟩
    rintro ⟨key, hkey, _⟩
    exact absurd hkey List.not_mem_nil
  | @cons key approval keys approvals hhead hrest ih =>
    obtain ⟨approval, now⟩ := approval
    obtain ⟨approved, rfl, rfl⟩ := answers_knownKey hhead
    obtain ⟨⟨changed, next⟩, hupdate, h⟩ := bind_eq_ok.mp h
    obtain ⟨⟨applied', last⟩, hrun, h⟩ := bind_eq_ok.mp h
    obtain rfl : last = protect' := (Prod.mk.inj (Except.ok.inj h)).2
    obtain ⟨howner, keys₁, rfl, hfirst⟩ := applyKnownKeyApproval_ok hupdate
    obtain ⟨howners, keys₂, hprotect, hothers⟩ := ih hrun
    refine ⟨?_, keys₂, hprotect, fun kid handle => ?_⟩
    · intro key hkey
      rcases List.mem_cons.mp hkey with rfl | hin
      · exact howner
      · exact howners key hin
    · rw [hothers, hfirst]
      constructor
      · rintro ((hold | hnew) | ⟨key, hkey, hnew⟩)
        · exact Or.inl hold
        · exact Or.inr ⟨_, List.mem_cons_self, hnew⟩
        · exact Or.inr ⟨key, List.mem_cons_of_mem _ hkey, hnew⟩
      · rintro (hold | ⟨key, hkey, hnew⟩)
        · exact Or.inl (Or.inl hold)
        · rcases List.mem_cons.mp hkey with rfl | hin
          · exact Or.inl (Or.inr hnew)
          · exact Or.inr ⟨key, hin, hnew⟩

/-- Approvals are applied in two parts. -/
theorem applyApprovalsTo_append {owner : MemberHandle} {protect protect' : TrustStoreProtected}
    {first rest : List (TrustApproval × CurrentTime P)} {applied : Nat} :
    applyApprovalsTo C owner protect (first ++ rest) = .ok (applied, protect')
      ↔ ∃ m next n, applyApprovalsTo C owner protect first = .ok (m, next)
        ∧ applyApprovalsTo C owner next rest = .ok (n, protect') ∧ applied = m + n := by
  induction first generalizing protect applied with
  | nil =>
    constructor
    · intro h
      exact ⟨0, protect, applied, rfl, h, (Nat.zero_add applied).symm⟩
    · rintro ⟨m, next, n, hfirst, hrest, rfl⟩
      obtain ⟨rfl, rfl⟩ := Prod.mk.inj (Except.ok.inj hfirst)
      rw [Nat.zero_add]
      exact hrest
  | cons approval first ih =>
    obtain ⟨approval, now⟩ := approval
    constructor
    · intro h
      obtain ⟨⟨changed, next⟩, hupdate, h⟩ := bind_eq_ok.mp h
      obtain ⟨⟨applied', last⟩, hrun, h⟩ := bind_eq_ok.mp h
      obtain ⟨rfl, rfl⟩ := Prod.mk.inj (Except.ok.inj h)
      obtain ⟨m, middle, n, hfirst, hrest, rfl⟩ := ih.mp hrun
      exact ⟨changed.toNat + m, middle, n, bind_eq_ok.mpr ⟨_, hupdate, bind_eq_ok.mpr
        ⟨_, hfirst, rfl⟩⟩, hrest, (Nat.add_assoc _ _ _).symm⟩
    · rintro ⟨m, middle, n, hfirst, hrest, rfl⟩
      obtain ⟨⟨changed, next⟩, hupdate, hfirst⟩ := bind_eq_ok.mp hfirst
      obtain ⟨⟨applied', last⟩, hrun, hfirst⟩ := bind_eq_ok.mp hfirst
      obtain ⟨rfl, rfl⟩ := Prod.mk.inj (Except.ok.inj hfirst)
      refine bind_eq_ok.mpr ⟨_, hupdate, bind_eq_ok.mpr
        ⟨_, ih.mpr ⟨applied', last, n, hrun, hrest, rfl⟩, ?_⟩⟩
      rw [Nat.add_assoc]
      rfl

/-! ## Recording recipient sets -/

/-- A recipient set as an artifact or an output states it: canonical kids, and a hint for each. -/
structure Displayed (current : ArtifactRecipientSet) : Prop where
  kids : Canonical current.recipientKids
  hints : (current.recipientHandleHints.map RecipientHandleHint.kid).Perm current.recipientKids

/-- Distinct hints of valid recipients pass. -/
theorem validateRecipientHandleHints_total {kids seen : List String}
    {hints : List RecipientHandleHint} (hform : ∀ hint ∈ hints, hint.wellFormed = true)
    (hkids : ∀ hint ∈ hints, hint.kid ∈ kids)
    (hnodup : (hints.map RecipientHandleHint.kid ++ seen).Nodup) :
    validateRecipientHandleHints kids seen hints = .ok () := by
  induction hints generalizing seen with
  | nil => rfl
  | cons hint hints ih =>
    have hwell := hform hint List.mem_cons_self
    rw [RecipientHandleHint.wellFormed, Bool.and_eq_true] at hwell
    obtain ⟨hfresh, hrest⟩ := List.nodup_cons.mp hnodup
    refine bind_eq_ok.mpr ⟨_, Kid.fromCanonical_ok hwell.1, bind_eq_ok.mpr
      ⟨⟨_, hwell.2⟩, ?_, throwIf_ok.mpr ⟨?_, ?_⟩⟩⟩
    · rw [MemberHandle.tryFrom, dif_pos hwell.2]
    · rintro (hunknown | hseen)
      · exact hunknown (hkids hint List.mem_cons_self)
      · exact hfresh (List.mem_append_right _ hseen)
    · refine ih (fun other hother => hform other (List.mem_cons_of_mem _ hother))
        (fun other hother => hkids other (List.mem_cons_of_mem _ hother)) ?_
      refine List.perm_middle.nodup_iff.mpr ?_
      exact List.nodup_cons.mpr ⟨hfresh, hrest⟩

/-- The parts of a displayed set build it again, up to the order of its hints. -/
theorem fromParts_total {current : ArtifactRecipientSet} (h : Displayed current)
    (hform : ∀ hint ∈ current.recipientHandleHints, hint.wellFormed = true) :
    ∃ set, ArtifactRecipientSet.fromParts C current.sid current.recipientKids
        current.recipientHandleHints = .ok set
      ∧ set.sid = current.sid ∧ set.recipientKids = current.recipientKids := by
  have hnormal := normalizeRecipientKids_self.mpr h.kids
  have hhints : validateRecipientHandleHints current.recipientKids []
      current.recipientHandleHints = .ok () := by
    refine validateRecipientHandleHints_total hform (fun hint hhint => ?_) ?_
    · exact h.hints.mem_iff.mp (List.mem_map_of_mem hhint)
    · rw [List.append_nil]
      exact h.hints.nodup_iff.mpr h.kids.nodup
  have hnew : ArtifactRecipientSet.new C current.sid current.recipientKids
      = .ok ⟨current.sid, current.recipientKids, recipientSetHashOf C current.recipientKids, []⟩ :=
    bind_eq_ok.mpr ⟨_, hnormal, bind_eq_ok.mpr ⟨_, computeRecipientSetHash_eq C _, rfl⟩⟩
  exact ⟨_, bind_eq_ok.mpr ⟨_, hnew, bind_eq_ok.mpr ⟨(), hhints, rfl⟩⟩, rfl, rfl⟩

/-- A record that is put in place of the one for its sid is found under that sid. -/
theorem find?_replaceFirst {records : List RecipientSetRecord} {record : RecipientSetRecord}
    (candidate : RecipientSetRecord)
    (h : records.find? (fun record => record.sid = candidate.sid) = some record) :
    (replaceFirst RecipientSetRecord.sid candidate records).find?
      (fun record => record.sid = candidate.sid) = some candidate := by
  induction records with
  | nil => cases h
  | cons head records ih =>
    rw [replaceFirst]
    by_cases hsid : head.sid = candidate.sid
    · rw [if_pos hsid]
      exact List.find?_cons_of_pos (decide_eq_true rfl)
    · rw [if_neg hsid, List.find?_cons_of_neg (by simpa using hsid)]
      rw [List.find?_cons_of_neg (by simpa using hsid)] at h
      exact ih h

/-- A recorded set is accepted from then on. -/
theorem judgeRecipientSet_upsert {records : List RecipientSetRecord}
    {set current : ArtifactRecipientSet} (hsid : set.sid = current.sid)
    (hkids : set.recipientKids = current.recipientKids) (approvedAt : String) :
    judgeRecipientSet (upsertRecipientSet records set approvedAt).2 current = .accepted := by
  rw [judgeRecipientSet, upsertRecipientSet, ← hsid]
  cases hfind : records.find? fun record => record.sid = set.sid.text with
  | none =>
    have hnew : (records ++ [set.intoRecord approvedAt]).find?
        (fun record => record.sid = set.sid.text) = some (set.intoRecord approvedAt) := by
      rw [List.find?_append, hfind, Option.none_or, List.find?_singleton]
      exact if_pos (decide_eq_true rfl)
    dsimp only
    rw [hnew]
    exact if_pos hkids
  | some record =>
    dsimp only
    by_cases hsame : record = set.intoRecord approvedAt
    · rw [if_pos hsame]
      dsimp only
      rw [hfind, hsame]
      exact if_pos hkids
    · rw [if_neg hsame]
      dsimp only
      have hreplaced : (replaceFirst RecipientSetRecord.sid (set.intoRecord approvedAt)
          records).find?
          (fun record => record.sid = set.sid.text) = some (set.intoRecord approvedAt) :=
        find?_replaceFirst (set.intoRecord approvedAt) hfind
      rw [hreplaced]
      exact if_pos hkids

/-- The texts of kids that were read are the kids. -/
theorem texts_of_fromCanonical {texts : List String} {kids : List Kid}
    (h : texts.mapM Kid.fromCanonical = .ok kids) : kids.map Kid.text = texts := by
  have hkids := mapM_ok.mp h
  induction hkids with
  | nil => rfl
  | @cons text kid texts kids hhead hrest ih =>
    rw [List.map_cons, ih (mapM_ok.mpr hrest)]
    rw [Kid.fromCanonical] at hhead
    split at hhead
    · rw [← Except.ok.inj hhead]
    · cases hhead

/-- Hints that were read are the hints, and have valid kids and handles. -/
theorem hints_of_fromModel {hints : List RecipientHandleHint}
    {read : List TrustRecipientHandleHint}
    (h : hints.mapM TrustRecipientHandleHint.fromModel = .ok read) :
    read.map TrustRecipientHandleHint.intoModel = hints
      ∧ ∀ hint ∈ hints, hint.wellFormed = true := by
  have hread := mapM_ok.mp h
  induction hread with
  | nil => exact ⟨rfl, fun hint hhint => absurd hhint List.not_mem_nil⟩
  | @cons hint read hints reads hhead hrest ih =>
    obtain ⟨htexts, hforms⟩ := ih (mapM_ok.mpr hrest)
    obtain ⟨kid, hkid, hhead⟩ := bind_eq_ok.mp hhead
    obtain ⟨handle, hhandle, hhead⟩ := bind_eq_ok.mp hhead
    rw [Kid.fromCanonical] at hkid
    rw [MemberHandle.tryFrom] at hhandle
    split at hkid
    · split at hhandle
      · rename_i hkidValid hhandleValid
        obtain rfl := Except.ok.inj hkid
        obtain rfl := Except.ok.inj hhandle
        obtain rfl := Except.ok.inj hhead
        refine ⟨congrArg (hint :: ·) htexts, fun other hother => ?_⟩
        rcases List.mem_cons.mp hother with rfl | hin
        · rw [RecipientHandleHint.wellFormed, Bool.and_eq_true]
          exact ⟨hkidValid, hhandleValid⟩
        · exact hforms other hin
      · cases hhandle
    · cases hkid

/-- **RECORDING A RECIPIENT SET**: the approval of a requested set is recorded, and the set is
    accepted from then on. -/
theorem applyRecipientSet_ok {owner : MemberHandle} {kind : TrustReviewKind}
    {current : ArtifactRecipientSet} {approved : Option RecipientSetRecord}
    {request : TrustReviewRequest} {approval : TrustApproval} (hdisplayed : Displayed current)
    (hkind : kind ≠ .knownKey)
    (hrequest : recipientReviewRequest kind current approved = .ok request)
    (hanswers : Answers request approval) (protect : TrustStoreProtected) (now : CurrentTime P) :
    ∃ changed sets', applyApprovalUpdate C owner protect approval now
        = .ok (changed, { protect with recipientSets := sets' })
      ∧ judgeRecipientSet sets' current = .accepted := by
  obtain ⟨kids, hkids, hrequest⟩ := bind_eq_ok.mp hrequest
  obtain ⟨hints, hhints, hrequest⟩ := bind_eq_ok.mp hrequest
  obtain rfl := Except.ok.inj hrequest
  cases approval with
  | knownKey key => exact absurd hanswers.1 hkind
  | recipientSet set =>
    obtain ⟨_, hsid, hsetKids, hsetHints⟩ := hanswers
    dsimp only at hsid hsetKids hsetHints
    obtain ⟨hmodel, hform⟩ := hints_of_fromModel hhints
    obtain ⟨built, hbuilt, hbuiltSid, hbuiltKids⟩ := fromParts_total (C := C) hdisplayed hform
    have hparts : ArtifactRecipientSet.fromParts C set.sid (set.recipientKids.map Kid.text)
        (set.recipientHandleHints.map TrustRecipientHandleHint.intoModel) = .ok built := by
      rw [← Option.some.inj hsid, ← hsetKids, ← hsetHints, texts_of_fromCanonical hkids, hmodel]
      exact hbuilt
    exact ⟨_, _, bind_eq_ok.mpr ⟨built, hparts, rfl⟩,
      judgeRecipientSet_upsert hbuiltSid hbuiltKids now.text⟩

end ApprovalRecords
