import Kapsaro.TrustEvaluation
import Kapsaro.ToyTrust

/-!
# Signer trust — whose artifacts are read and written without a question

A read and a write of an artifact both judge its signer. They go ahead without a review for a
signer that is an active member under its own handle, with a key that is the executing member's or
an approved one, and for the executing member's own historical keys.

* **`TrustedSigner`** — such a signer.
* **`UnderReview`** — an active member's key that has not been approved yet.
* **`Disputed`** — a signer under another member's kid, or known under another handle.
* **`trusted_signer`** — the exceptions of a read go no further: an accepted non-member is that one
  member's one key, a disputed signer is refused whatever is accepted, and skipping the review of
  keys leaves every other request and every refusal.
-/

namespace SignerTrust

open JsonText JsonMembers Limits TextLines Base64Codec WireTexts WireModel DocumentTokens
open Envelope SignedArtifacts KvDocument KeyedList TrustRecords TrustStore TrustSoundness
open TrustApprovals TrustJudgment TrustPolicy TrustEvaluation ToyCrypto ToyDocuments ToyTrust

/-! ## Signers -/

/-- An active member's key that is own or approved, or an own key that is no longer active. -/
def TrustedSigner (evaluator : TrustPolicyEvaluator) (self : SelfTrustSet)
    (signer : TrustIdentity) : Prop :=
  (ActiveMember evaluator.members signer
      ∧ (OwnKey self signer ∨ ExactKnownKey evaluator.knownKeys signer))
    ∨ (Inactive evaluator.members signer ∧ OwnKey self signer)

/-- An active member's key that is not own, under a kid that no approved key has. -/
def UnderReview (evaluator : TrustPolicyEvaluator) (self : SelfTrustSet)
    (signer : TrustIdentity) : Prop :=
  ActiveMember evaluator.members signer ∧ ¬OwnKey self signer
    ∧ judgeKnownIdentityMatch evaluator.knownKeys signer = .missing

/-- The signer's kid is an active member's with another handle; or the key is an active member's and
    not own, and the record of its kid is of another handle. -/
def Disputed (evaluator : TrustPolicyEvaluator) (self : SelfTrustSet) (signer : TrustIdentity) :
    Prop :=
  (∃ member ∈ evaluator.members.members, kidOf member = signer.kid.text
      ∧ member.document.protect.subjectHandle ≠ signer.memberHandle.text)
    ∨ ActiveMember evaluator.members signer ∧ self.containsIdentity signer = .ok false
      ∧ ∃ known, findKnownKey evaluator.knownKeys signer.kid.text = some known
        ∧ known.subjectHandle ≠ signer.memberHandle.text

/-- A signer that passes without a request is trusted. -/
theorem signer_of_evaluateSigner {evaluator : TrustPolicyEvaluator}
    {signerPublicKey : Option LoadedPublicKey} {self : SelfTrustSet}
    (h : evaluator.evaluateSigner signerPublicKey self = .ok []) :
    ∃ signer, SignedBy signerPublicKey signer ∧ TrustedSigner evaluator self signer := by
  obtain ⟨key, signer, hkey, hsigner, ⟨_, htrusted⟩ | ⟨hrequests, _⟩⟩ := evaluateSigner_ok h
  · exact ⟨signer, ⟨key, hkey, hsigner⟩, judgeSignerTrust_trusted htrusted⟩
  · cases hrequests

/-- A signer that passes is trusted or under review. -/
theorem signer_of_judged {evaluator : TrustPolicyEvaluator}
    {signerPublicKey : Option LoadedPublicKey} {self : SelfTrustSet}
    {requests : List TrustReviewRequest}
    (h : evaluator.evaluateSigner signerPublicKey self = .ok requests) :
    ∃ signer, SignedBy signerPublicKey signer
      ∧ (TrustedSigner evaluator self signer ∨ UnderReview evaluator self signer) := by
  obtain ⟨key, signer, hkey, hsigner, ⟨_, htrusted⟩ | ⟨_, hneeds⟩⟩ := evaluateSigner_ok h
  · exact ⟨signer, ⟨key, hkey, hsigner⟩, Or.inl (judgeSignerTrust_trusted htrusted)⟩
  · obtain ⟨hactive, hown, hmissing⟩ := judgeSignerTrust_needsApproval hneeds
    refine ⟨signer, ⟨key, hkey, hsigner⟩, Or.inr ⟨hactive, fun howned => ?_, hmissing⟩⟩
    have htrue := containsIdentity_true.mpr howned
    rw [hown] at htrue
    cases htrue

/-! ## Disputed signers -/

/-- An active member under the signer's kid and another handle is a mismatch. -/
theorem judgeHandleMatch_mismatch {members : CurrentMemberSnapshot} {member : LoadedPublicKey}
    {kid memberHandle : String} (hmem : member ∈ members.members) (hkid : kidOf member = kid)
    (hhandle : member.document.protect.subjectHandle ≠ memberHandle) :
    judgeHandleMatch members kid memberHandle
      = .memberHandleMismatch member.document.protect.subjectHandle := by
  rw [judgeHandleMatch, CurrentMemberSnapshot.get_eq_some.mpr ⟨hmem, hkid⟩]
  exact if_neg hhandle

/-- A disputed signer is refused, and not as a non-member. -/
theorem evaluateSigner_disputed {evaluator : TrustPolicyEvaluator}
    {signerPublicKey : Option LoadedPublicKey} {self : SelfTrustSet} {signer : TrustIdentity}
    (hsigned : SignedBy signerPublicKey signer) (h : Disputed evaluator self signer) :
    ∃ e, evaluator.evaluateSigner signerPublicKey self = .error e
      ∧ ∀ message, e ≠ .verify "E_TRUST_NON_MEMBER" message := by
  obtain ⟨key, hkey, hsigner⟩ := hsigned
  rw [evaluateSigner_eq hkey hsigner]
  rcases h with ⟨member, hmem, hkid, hhandle⟩ | ⟨hactive, hown, known, hknown, hhandle⟩
  · have hmismatch := judgeHandleMatch_mismatch hmem hkid hhandle
    rw [judgeSignerTrust, hmismatch]
    -- the member's own handle is valid, so that the verdict is the mismatch
    have hvalid := KnownKeyReviewCandidate.subjectHandle_valid ⟨member⟩
    have hactive : MemberHandle.tryFrom member.document.protect.subjectHandle
        = .ok ⟨_, hvalid⟩ := by
      rw [MemberHandle.tryFrom, dif_pos hvalid]
    dsimp only
    rw [hactive]
    refine ⟨_, rfl, fun message heq => ?_⟩
    injection heq with hrule _
    exact absurd hrule (by decide)
  · rw [judgeSignerTrust_anomaly hactive hown hknown hhandle]
    refine ⟨_, rfl, fun message heq => ?_⟩
    rw [buildKidIntegrityAnomalyError] at heq
    injection heq with hrule _
    exact absurd hrule (by decide)

/-- No exception lets a disputed signer pass. -/
theorem evaluateSignerWithExceptions_disputed {evaluator : TrustPolicyEvaluator}
    {signerPublicKey : Option LoadedPublicKey} {self : SelfTrustSet} {signer : TrustIdentity}
    (exceptions : ReadTrustExceptions) (hsigned : SignedBy signerPublicKey signer)
    (h : Disputed evaluator self signer) :
    ∃ e, evaluator.evaluateSignerWithExceptions signerPublicKey self exceptions = .error e := by
  obtain ⟨e, he, hne⟩ := evaluateSigner_disputed hsigned h
  refine ⟨e, ?_⟩
  rw [evaluateSignerWithExceptions_eq, he]
  intro message hmessage
  exact hne message (Except.error.inj (he.symm.trans hmessage))

/-! ## Reads -/

section Reads

variable {C : Crypto} {evaluator : TrustPolicyEvaluator}

/-- The steps of a read that returns. -/
theorem evaluateReadArtifact_ok {signerPublicKey : Option LoadedPublicKey}
    {subject : RecipientSetSubject} {keyCtx : KeyContext} {exceptions : ReadTrustExceptions}
    {requests : List TrustReviewRequest}
    (h : evaluator.evaluateReadArtifact C signerPublicKey subject keyCtx exceptions
      = .ok requests) :
    ∃ judged more,
      evaluator.evaluateSignerWithExceptions signerPublicKey (buildSelfTrust C keyCtx) exceptions
        = .ok judged
      ∧ requests = TrustPolicyEvaluator.skipKnownKeyReview exceptions.knownKeyReview
        (judged ++ more) := by
  obtain ⟨⟨⟩, _, h⟩ := bind_eq_ok.mp h
  obtain ⟨judged, hjudged, h⟩ := bind_eq_ok.mp h
  obtain ⟨⟨unresolved, all⟩, hrecipients, h⟩ := bind_eq_ok.mp h
  obtain ⟨⟨⟩, _, hrecipients⟩ := bind_eq_ok.mp hrecipients
  obtain ⟨evaluated, hevaluated, hrecipients⟩ := bind_eq_ok.mp hrecipients
  obtain ⟨more, hmore, _⟩ := evaluateRecipientPublicKeys_prefix hevaluated
  refine ⟨judged, more, hjudged, ?_⟩
  rw [← hmore, (Prod.mk.inj (Except.ok.inj hrecipients)).2]
  exact (Except.ok.inj h).symm

/-- **A TRUSTED READ**: the signer is trusted, or is the accepted non-member, or the read skips the
    review that the signer's key is waiting for. -/
theorem signer_of_read {signerPublicKey : Option LoadedPublicKey}
    {subject : RecipientSetSubject} {keyCtx : KeyContext} {exceptions : ReadTrustExceptions}
    (h : evaluator.evaluateReadArtifact C signerPublicKey subject keyCtx exceptions = .ok []) :
    ∃ signer, SignedBy signerPublicKey signer
      ∧ (TrustedSigner evaluator (buildSelfTrust C keyCtx) signer
        ∨ exceptions.acceptedNonMember = some (signer.memberHandle, signer.kid)
        ∨ (exceptions.knownKeyReview = .skipped
          ∧ UnderReview evaluator (buildSelfTrust C keyCtx) signer)) := by
  obtain ⟨judged, more, hjudged, hrequests⟩ := evaluateReadArtifact_ok h
  rcases evaluateSignerWithExceptions_ok hjudged with
    hsigner | ⟨_, signer, _, hsigned, _, haccepted⟩
  · cases hreview : exceptions.knownKeyReview with
    | required =>
      rw [hreview] at hrequests
      obtain ⟨rfl, _⟩ := List.append_eq_nil_iff.mp hrequests.symm
      obtain ⟨signer, hsigned, htrusted⟩ := signer_of_evaluateSigner hsigner
      exact ⟨signer, hsigned, Or.inl htrusted⟩
    | skipped =>
      obtain ⟨signer, hsigned, htrusted | hreviewed⟩ := signer_of_judged hsigner
      · exact ⟨signer, hsigned, Or.inl htrusted⟩
      · exact ⟨signer, hsigned, Or.inr (Or.inr ⟨rfl, hreviewed⟩)⟩
  · exact ⟨signer, hsigned, Or.inr (Or.inl haccepted)⟩

/-- A read of an artifact with a disputed signer fails. -/
theorem readArtifact_disputed {signerPublicKey : Option LoadedPublicKey}
    {subject : RecipientSetSubject} {keyCtx : KeyContext} {exceptions : ReadTrustExceptions}
    {signer : TrustIdentity} (hsigned : SignedBy signerPublicKey signer)
    (h : Disputed evaluator (buildSelfTrust C keyCtx) signer)
    (requests : List TrustReviewRequest) :
    evaluator.evaluateReadArtifact C signerPublicKey subject keyCtx exceptions
      ≠ .ok requests := by
  intro hread
  obtain ⟨judged, _, hjudged, _⟩ := evaluateReadArtifact_ok hread
  obtain ⟨e, he⟩ := evaluateSignerWithExceptions_disputed exceptions hsigned h
  rw [he] at hjudged
  cases hjudged

/-- **SKIPPING REVIEWS**: a read that skips the review of keys is the same read, without the
    requests to review keys. -/
theorem evaluateReadArtifact_skipped (signerPublicKey : Option LoadedPublicKey)
    (subject : RecipientSetSubject) (keyCtx : KeyContext) (exceptions : ReadTrustExceptions) :
    evaluator.evaluateReadArtifact C signerPublicKey subject keyCtx
        (exceptions.withKnownKeyReview .skipped)
      = (evaluator.evaluateReadArtifact C signerPublicKey subject keyCtx
          (exceptions.withKnownKeyReview .required)).map
            (·.filter fun request => request.kind ≠ .knownKey) := by
  -- no step before the last one looks at the review mode
  simp only [TrustPolicyEvaluator.evaluateReadArtifact, except_map_bind]
  rfl

end Reads

/-! ## The decisions -/

/-- **WHO IS TRUSTED WITHOUT A QUESTION**: a read and a write are trusted only for a trusted signer;
    a read also for the very non-member that was accepted, and without the reviews of keys that it
    skips; and no exception admits a disputed signer. -/
theorem trusted_signer (C : Crypto) (evaluator : TrustPolicyEvaluator)
    (artifact : VerifiedArtifact) (keyCtx : KeyContext) :
    (∀ operation exceptions,
      evaluator.evaluateRead C artifact keyCtx operation exceptions = .ok .trusted →
        ∃ signer, SignedBy artifact.signerPublicKey signer
          ∧ (TrustedSigner evaluator (buildSelfTrust C keyCtx) signer
            ∨ exceptions.acceptedNonMember = some (signer.memberHandle, signer.kid)
            ∨ (exceptions.knownKeyReview = .skipped
              ∧ UnderReview evaluator (buildSelfTrust C keyCtx) signer)))
    ∧ (∀ recipients, evaluator.evaluateKvMutation C artifact recipients keyCtx = .ok .trusted →
        ∃ signer, SignedBy artifact.signerPublicKey signer
          ∧ TrustedSigner evaluator (buildSelfTrust C keyCtx) signer)
    ∧ (∀ operation exceptions signer, SignedBy artifact.signerPublicKey signer →
        Disputed evaluator (buildSelfTrust C keyCtx) signer →
          ∀ decision, evaluator.evaluateRead C artifact keyCtx operation exceptions ≠ .ok decision)
    ∧ ∀ operation (exceptions : ReadTrustExceptions),
        evaluator.evaluateReadRequests C artifact keyCtx operation
            (exceptions.withKnownKeyReview .skipped)
          = (evaluator.evaluateReadRequests C artifact keyCtx operation
              (exceptions.withKnownKeyReview .required)).map
                (·.filter fun request => request.kind ≠ .knownKey) := by
  refine ⟨?_, ?_, ?_, ?_⟩
  · intro operation exceptions h
    obtain ⟨requests, hrequests, hdecision⟩ := bind_eq_ok.mp h
    obtain rfl := decisionOf_trusted.mp (Except.ok.inj hdecision)
    -- The gates before the evaluation return nothing, so they are passed over.
    obtain ⟨⟨⟩, _, hrequests⟩ := bind_eq_ok.mp hrequests
    obtain ⟨subject, _, hread⟩ := bind_eq_ok.mp hrequests
    exact signer_of_read hread
  · intro recipients h
    obtain ⟨requests, hrequests, hdecision⟩ := bind_eq_ok.mp h
    obtain rfl := decisionOf_trusted.mp (Except.ok.inj hdecision)
    obtain ⟨judged, hjudged, more, hmore⟩ := kvMutationRequests_signer hrequests
    obtain ⟨rfl, _⟩ := List.append_eq_nil_iff.mp hmore.symm
    exact signer_of_evaluateSigner hjudged
  · intro operation exceptions signer hsigned hdisputed decision h
    obtain ⟨requests, hrequests, _⟩ := bind_eq_ok.mp h
    obtain ⟨⟨⟩, _, hrequests⟩ := bind_eq_ok.mp hrequests
    obtain ⟨subject, _, hread⟩ := bind_eq_ok.mp hrequests
    exact readArtifact_disputed hsigned hdisputed requests hread
  · intro operation exceptions
    simp only [TrustPolicyEvaluator.evaluateReadRequests, except_map_bind]
    refine bind_congr fun _ => bind_congr fun subject => ?_
    exact evaluateReadArtifact_skipped artifact.signerPublicKey subject keyCtx exceptions

/-! ## Toy evaluations -/

/-- Alice is the only active member. -/
def toyMembers : CurrentMemberSnapshot where
  members := [(toyMember alice toyKid [1]).toLoadedPublicKey]
  sorted := List.pairwise_singleton _ _
  kids := List.nodup_singleton _

/-- Alice, who has not approved anything. -/
def toyEvaluator : TrustPolicyEvaluator := ⟨toyMembers, none⟩

/-- Alice's key, without a keystore. -/
def toyKeyContext : KeyContext := ⟨toyContext alice toyKid [1], none⟩

/-- An artifact for alice that this member signed. -/
def artifactOf (signer : VerifiedRecipientKey) : VerifiedArtifact :=
  ⟨some signer.toLoadedPublicKey, toySid, [⟨alice.text, toyKid.text, "", "", ""⟩]⟩

/-- The identity of a toy member. -/
def toyIdentity (handle : MemberHandle) (kid : Kid) (secret : Bytes) : TrustIdentity :=
  ⟨handle, kid, (pad 32 secret).bytes⟩

theorem fromPublicKey_toy (handle : MemberHandle) (kid : Kid) (secret : Bytes) :
    TrustIdentity.fromPublicKey (toyStatement handle kid secret)
      = .ok (toyIdentity handle kid secret) := by
  have hkid : Kid.fromCanonical kid.text = .ok kid := by
    rw [Kid.fromCanonical, dif_pos kid.valid]
  have hhandle : MemberHandle.tryFrom handle.text = .ok handle := by
    rw [MemberHandle.tryFrom, dif_pos handle.valid]
  exact bind_eq_ok.mpr ⟨kid, hkid, bind_eq_ok.mpr ⟨_, (pad 32 secret).decode_encode _,
    bind_eq_ok.mpr ⟨handle, hhandle, rfl⟩⟩⟩

/-- Alice reads and writes what she signed; what bob signed under her kid she does not read, not
    even when he is accepted. -/
theorem trusted_signer_toy :
    (∃ signer, SignedBy (artifactOf (toyMember alice toyKid [1])).signerPublicKey signer
      ∧ (TrustedSigner toyEvaluator (buildSelfTrust toyCrypto toyKeyContext) signer
        ∨ ReadTrustExceptions.none.acceptedNonMember = some (signer.memberHandle, signer.kid)
        ∨ (ReadTrustExceptions.none.knownKeyReview = .skipped
          ∧ UnderReview toyEvaluator (buildSelfTrust toyCrypto toyKeyContext) signer)))
    ∧ (∃ signer, SignedBy (artifactOf (toyMember alice toyKid [1])).signerPublicKey signer
      ∧ TrustedSigner toyEvaluator (buildSelfTrust toyCrypto toyKeyContext) signer)
    ∧ ∀ decision, toyEvaluator.evaluateRead toyCrypto (artifactOf (toyMember bob toyKid [2]))
        toyKeyContext .fileDecrypt (ReadTrustExceptions.none.acceptingNonMember bob toyKid)
          ≠ .ok decision := by
  have hown := trusted_signer toyCrypto toyEvaluator (artifactOf (toyMember alice toyKid [1]))
    toyKeyContext
  have hother := trusted_signer toyCrypto toyEvaluator (artifactOf (toyMember bob toyKid [2]))
    toyKeyContext
  refine ⟨hown.1 .fileDecrypt _ (by decide +kernel),
    hown.2.1 ⟨[toyMember alice toyKid [1]]⟩ (by decide +kernel),
    hother.2.2.1 .fileDecrypt _ (toyIdentity bob toyKid [2])
      ⟨_, rfl, fromPublicKey_toy bob toyKid [2]⟩ (Or.inl ?_)⟩
  exact ⟨_, List.mem_cons_self, rfl, by decide⟩

end SignerTrust
