import Kapsaro.TrustPolicy
import Mathlib.Data.List.Forall2

/-!
# Trust evaluation — what an evaluation has established when it returns

Each evaluation of the trust policy either fails or returns the reviews that are open. Here is what
its success says, one lemma for each.

* **`SignedBy`** — the identity of a verified artifact's signer.
* **`evaluateSigner_ok`**, **`evaluateSignerWithExceptions_ok`** — the signer is trusted, is under
  review, or was accepted.
* **`evaluateRecipientPublicKeys_ok`** — the keys under review are those that are neither own nor
  approved.
* **`evaluateArtifactRecipientSet_ok`** — a recipient set is approved, is one's own, or is under
  review.
-/

namespace TrustEvaluation

open JsonText JsonMembers Limits TextLines Base64Codec WireTexts WireModel DocumentTokens
open Envelope SignedArtifacts KvDocument KeyedList TrustRecords TrustStore TrustSoundness
open TrustApprovals TrustJudgment TrustPolicy

variable {C : Crypto}

/-! ## Lists of checks -/

/-- A check of every element that returns a value for each. -/
theorem mapM_ok {α β : Type} {f : α → Except Error β} {xs : List α} {ys : List β} :
    xs.mapM f = .ok ys ↔ List.Forall₂ (fun x y => f x = .ok y) xs ys := by
  induction xs generalizing ys with
  | nil =>
    constructor
    · intro h
      obtain rfl := Except.ok.inj h
      exact List.Forall₂.nil
    · intro h
      obtain rfl := List.forall₂_nil_left_iff.mp h
      rfl
  | cons x xs ih =>
    rw [List.mapM_cons]
    constructor
    · intro h
      obtain ⟨y, hy, h⟩ := bind_eq_ok.mp h
      obtain ⟨rest, hrest, h⟩ := bind_eq_ok.mp h
      obtain rfl := Except.ok.inj h
      exact List.Forall₂.cons hy (ih.mp hrest)
    · intro h
      obtain ⟨y, rest, hy, hrest, rfl⟩ := List.forall₂_cons_left_iff.mp h
      exact bind_eq_ok.mpr ⟨y, hy, bind_eq_ok.mpr ⟨rest, ih.mpr hrest, rfl⟩⟩

/-- The values are those of the elements. -/
theorem mem_of_mapM_ok {α β : Type} {f : α → Except Error β} {xs : List α} {ys : List β}
    (h : xs.mapM f = .ok ys) {y : β} : y ∈ ys ↔ ∃ x ∈ xs, f x = .ok y := by
  have hvalues := mapM_ok.mp h
  clear h
  induction hvalues with
  | nil => exact ⟨fun h => absurd h List.not_mem_nil, fun ⟨_, h, _⟩ => absurd h List.not_mem_nil⟩
  | @cons x value xs ys hvalue _ ih =>
    refine List.mem_cons.trans ((or_congr_right ih).trans ⟨?_, ?_⟩)
    · rintro (rfl | ⟨other, hother, hy⟩)
      · exact ⟨x, List.mem_cons_self, hvalue⟩
      · exact ⟨other, List.mem_cons_of_mem _ hother, hy⟩
    · rintro ⟨other, hother, hy⟩
      rcases List.mem_cons.mp hother with rfl | hother
      · exact .inl (Except.ok.inj (hy.symm.trans hvalue))
      · exact .inr ⟨other, hother, hy⟩

/-- A check of every element passes exactly when it passes on each. -/
theorem exists_mapM_ok {α β : Type} {f : α → Except Error β} {xs : List α} :
    (∃ ys, xs.mapM f = .ok ys) ↔ ∀ x ∈ xs, ∃ y, f x = .ok y := by
  induction xs with
  | nil => exact ⟨fun _ _ h => absurd h List.not_mem_nil, fun _ => ⟨[], rfl⟩⟩
  | cons x xs ih =>
    rw [List.forall_mem_cons, ← ih]
    constructor
    · rintro ⟨ys, hys⟩
      obtain ⟨y, rest, hy, hrest, rfl⟩ := List.forall₂_cons_left_iff.mp (mapM_ok.mp hys)
      exact ⟨⟨y, hy⟩, rest, mapM_ok.mpr hrest⟩
    · rintro ⟨⟨y, hy⟩, ys, hys⟩
      exact ⟨y :: ys, mapM_ok.mpr (List.Forall₂.cons hy (mapM_ok.mp hys))⟩

/-! ## Signers -/

/-- The artifact's verified signer has this identity. -/
def SignedBy (signerPublicKey : Option LoadedPublicKey) (signer : TrustIdentity) : Prop :=
  ∃ key, signerPublicKey = some key ∧ TrustIdentity.fromPublicKey key.document = .ok signer

/-- An artifact has one signer. -/
theorem SignedBy.unique {signerPublicKey : Option LoadedPublicKey} {signer other : TrustIdentity}
    (h : SignedBy signerPublicKey signer) (hother : SignedBy signerPublicKey other) :
    signer = other := by
  obtain ⟨key, hkey, hidentity⟩ := h
  obtain ⟨key', hkey', hidentity'⟩ := hother
  obtain rfl := Option.some.inj (hkey.symm.trans hkey')
  exact Except.ok.inj (hidentity.symm.trans hidentity')

/-- A signer is evaluated by its judgment. -/
theorem evaluateSigner_eq {evaluator : TrustPolicyEvaluator}
    {signerPublicKey : Option LoadedPublicKey} {self : SelfTrustSet} {key : LoadedPublicKey}
    {signer : TrustIdentity} (hkey : signerPublicKey = some key)
    (hsigner : TrustIdentity.fromPublicKey key.document = .ok signer) :
    evaluator.evaluateSigner signerPublicKey self
      = (judgeSignerTrust signer evaluator.members evaluator.knownKeys self >>= fun judgment =>
          enforceSignerJudgment judgment >>= fun acceptance =>
            match acceptance with
            | .trusted => pure []
            | .needsApproval _ _ => pure [knownKeyReviewRequest key]) := by
  rw [hkey, TrustPolicyEvaluator.evaluateSigner, hsigner]
  rfl

/-- What an evaluated signer is: trusted, or an active member's key under review. -/
theorem evaluateSigner_ok {evaluator : TrustPolicyEvaluator}
    {signerPublicKey : Option LoadedPublicKey} {self : SelfTrustSet}
    {requests : List TrustReviewRequest}
    (h : evaluator.evaluateSigner signerPublicKey self = .ok requests) :
    ∃ key signer, signerPublicKey = some key
      ∧ TrustIdentity.fromPublicKey key.document = .ok signer
      ∧ ((requests = []
          ∧ judgeSignerTrust signer evaluator.members evaluator.knownKeys self = .ok .trusted)
        ∨ (requests = [knownKeyReviewRequest key]
          ∧ judgeSignerTrust signer evaluator.members evaluator.knownKeys self
            = .ok (.needsApproval signer.memberHandle signer.kid))) := by
  cases hkey : signerPublicKey with
  | none => rw [hkey] at h; cases h
  | some key =>
    have hbind := h
    rw [hkey, TrustPolicyEvaluator.evaluateSigner] at hbind
    obtain ⟨signer, hsigner, _⟩ := bind_eq_ok.mp hbind
    rw [evaluateSigner_eq hkey hsigner] at h
    obtain ⟨judgment, hjudgment, h⟩ := bind_eq_ok.mp h
    refine ⟨key, signer, rfl, hsigner, ?_⟩
    cases judgment with
    | trusted => exact Or.inl ⟨(Except.ok.inj h).symm, hjudgment⟩
    | needsApproval memberHandle kid =>
      refine Or.inr ⟨(Except.ok.inj h).symm, ?_⟩
      obtain ⟨rfl, rfl⟩ := judgeSignerTrust_needsApproval_subject hjudgment
      exact hjudgment
    | nonMember memberHandle kid => cases h
    | activeMemberMismatch memberHandle kid active => cases h
    | knownKeyIntegrityAnomaly memberHandle kid known => cases h

/-- An exception lets a signer pass that was trusted or under review anyway, or the one it is for.
    The accepted signer's own evaluation had failed as a non-member's. -/
theorem evaluateSignerWithExceptions_ok {evaluator : TrustPolicyEvaluator}
    {signerPublicKey : Option LoadedPublicKey} {self : SelfTrustSet}
    {exceptions : ReadTrustExceptions} {requests : List TrustReviewRequest}
    (h : evaluator.evaluateSignerWithExceptions signerPublicKey self exceptions = .ok requests) :
    evaluator.evaluateSigner signerPublicKey self = .ok requests
      ∨ (requests = [] ∧ ∃ signer message, SignedBy signerPublicKey signer
        ∧ evaluator.evaluateSigner signerPublicKey self
          = .error (.verify "E_TRUST_NON_MEMBER" message)
        ∧ exceptions.acceptedNonMember = some (signer.memberHandle, signer.kid)) := by
  rw [TrustPolicyEvaluator.evaluateSignerWithExceptions] at h
  cases hjudged : evaluator.evaluateSigner signerPublicKey self with
  | ok judged => rw [hjudged] at h; exact Or.inl h
  | error e =>
    rw [hjudged] at h
    cases e with
    | verify rule message =>
      dsimp only at h
      by_cases hrule : rule = "E_TRUST_NON_MEMBER"
      · rw [if_pos hrule] at h
        subst hrule
        cases hkey : signerPublicKey with
        | none => rw [hkey] at h; cases h
        | some key =>
          rw [hkey] at h
          obtain ⟨signer, hsigner, h⟩ := bind_eq_ok.mp h
          by_cases haccepted
            : exceptions.acceptedNonMember = some (signer.memberHandle, signer.kid)
          · rw [if_pos haccepted] at h
            exact Or.inr ⟨(Except.ok.inj h).symm, signer, message, ⟨key, rfl, hsigner⟩, rfl,
              haccepted⟩
          · rw [if_neg haccepted] at h
            cases h
      · rw [if_neg hrule] at h
        cases h
    | _ => cases h

/-- Without a non-member's error, the exceptions change nothing. -/
theorem evaluateSignerWithExceptions_eq {evaluator : TrustPolicyEvaluator}
    {signerPublicKey : Option LoadedPublicKey} {self : SelfTrustSet}
    {exceptions : ReadTrustExceptions}
    (h : ∀ message, evaluator.evaluateSigner signerPublicKey self
      ≠ .error (.verify "E_TRUST_NON_MEMBER" message)) :
    evaluator.evaluateSignerWithExceptions signerPublicKey self exceptions
      = evaluator.evaluateSigner signerPublicKey self := by
  rw [TrustPolicyEvaluator.evaluateSignerWithExceptions]
  cases hjudged : evaluator.evaluateSigner signerPublicKey self with
  | ok judged => rfl
  | error e =>
    cases e with
    | verify rule message =>
      refine if_neg fun hrule => h message ?_
      rw [hjudged, hrule]
    | _ => rfl

/-! ## Review requests -/

theorem pushKnownKeyReviewRequest_eq (requests : List TrustReviewRequest) (key : LoadedPublicKey) :
    (pushKnownKeyReviewRequest requests key = requests
        ∧ ∃ request ∈ requests, request.kind = .knownKey
          ∧ request.subjectHandle = some (KnownKeyReviewCandidate.subjectHandle ⟨key⟩)
          ∧ request.kid = some (KnownKeyReviewCandidate.kid ⟨key⟩))
      ∨ pushKnownKeyReviewRequest requests key = requests ++ [knownKeyReviewRequest key] := by
  rw [pushKnownKeyReviewRequest]
  split
  · rename_i hany
    obtain ⟨request, hmem, hrequest⟩ := List.any_eq_true.mp hany
    exact Or.inl ⟨rfl, request, hmem, of_decide_eq_true hrequest⟩
  · exact Or.inr rfl

/-- Keys pushed one after the other only add requests to review keys. -/
theorem foldl_push_prefix (keys : List LoadedPublicKey) (requests : List TrustReviewRequest) :
    ∃ more, keys.foldl pushKnownKeyReviewRequest requests = requests ++ more
      ∧ ∀ request ∈ more, ∃ key ∈ keys, request = knownKeyReviewRequest key := by
  induction keys generalizing requests with
  | nil => exact ⟨[], by rw [List.foldl_nil, List.append_nil],
      fun _ h => absurd h List.not_mem_nil⟩
  | cons key keys ih =>
    obtain ⟨more, hmore, hkeys⟩ := ih (pushKnownKeyReviewRequest requests key)
    rw [List.foldl_cons, hmore]
    rcases pushKnownKeyReviewRequest_eq requests key with ⟨heq, _⟩ | heq
    · refine ⟨more, by rw [heq], fun request hrequest => ?_⟩
      obtain ⟨other, hother, hreq⟩ := hkeys request hrequest
      exact ⟨other, List.mem_cons_of_mem _ hother, hreq⟩
    · refine ⟨knownKeyReviewRequest key :: more, ?_, ?_⟩
      · rw [heq, List.append_assoc, List.singleton_append]
      intro request hrequest
      rcases List.mem_cons.mp hrequest with rfl | htail
      · exact ⟨key, List.mem_cons_self, rfl⟩
      · obtain ⟨other, hother, hreq⟩ := hkeys request htail
        exact ⟨other, List.mem_cons_of_mem _ hother, hreq⟩

/-- Every pushed key is asked for. -/
theorem foldl_push_asked {keys : List LoadedPublicKey} {key : LoadedPublicKey} (hmem : key ∈ keys)
    (requests : List TrustReviewRequest) :
    ∃ request ∈ keys.foldl pushKnownKeyReviewRequest requests, request.kind = .knownKey
      ∧ request.subjectHandle = some (KnownKeyReviewCandidate.subjectHandle ⟨key⟩)
      ∧ request.kid = some (KnownKeyReviewCandidate.kid ⟨key⟩) := by
  induction keys generalizing requests with
  | nil => cases hmem
  | cons head keys ih =>
    rw [List.foldl_cons]
    rcases List.mem_cons.mp hmem with rfl | htail
    · obtain ⟨more, hmore, _⟩ := foldl_push_prefix keys (pushKnownKeyReviewRequest requests key)
      rw [hmore]
      rcases pushKnownKeyReviewRequest_eq requests key with ⟨heq, request, hin, hrequest⟩ | heq
      · exact ⟨request, List.mem_append_left _ (heq.symm ▸ hin), hrequest⟩
      · refine ⟨knownKeyReviewRequest key, List.mem_append_left _ ?_, rfl, rfl, rfl⟩
        rw [heq]
        exact List.mem_append_right _ List.mem_cons_self
    · exact ih htail _

/-! ## Recipients -/

/-- The recipients under review are those that are neither own nor approved; and every recipient
    could be looked up. -/
theorem judgeRecipientsTrust_ok {knownKeys : List KnownKey} {self : SelfTrustSet}
    {identities : List TrustIdentity} {pending : List KnownKeyIdentity}
    (h : judgeRecipientsTrust knownKeys self identities = .ok pending) :
    ∀ item, item ∈ pending ↔ ∃ identity ∈ identities, ¬OwnKey self identity
      ∧ ¬ExactKnownKey knownKeys identity ∧ item = ⟨identity.memberHandle, identity.kid⟩ := by
  induction identities generalizing pending with
  | nil =>
    obtain rfl := Except.ok.inj h
    exact fun item => ⟨nofun, fun ⟨_, hmem, _⟩ => by cases hmem⟩
  | cons identity rest ih =>
    obtain ⟨own, hown, h⟩ := bind_eq_ok.mp h
    obtain ⟨tail, htail, h⟩ := bind_eq_ok.mp h
    have howned : own = true ↔ OwnKey self identity := by
      rw [← containsIdentity_true, hown]
      exact ⟨fun hown => congrArg Except.ok hown, fun hown => Except.ok.inj hown⟩
    have hexact : judgeKnownIdentityMatch knownKeys identity = .exact
        ↔ ExactKnownKey knownKeys identity := judgeKnownIdentityMatch_exact
    intro item
    -- An own or recorded key is passed over, any other is put on the list.
    by_cases htrusted : OwnKey self identity ∨ ExactKnownKey knownKeys identity
    · rw [if_pos (by
        rw [Bool.or_eq_true, decide_eq_true_eq, howned, hexact]
        exact htrusted)] at h
      obtain rfl := Except.ok.inj h
      rw [ih htail item]
      constructor
      · rintro ⟨other, hother, hitem⟩
        exact ⟨other, List.mem_cons_of_mem _ hother, hitem⟩
      · rintro ⟨other, hother, hnotOwn, hnotExact, hitem⟩
        rcases List.mem_cons.mp hother with rfl | hin
        · exact absurd htrusted (not_or.mpr ⟨hnotOwn, hnotExact⟩)
        · exact ⟨other, hin, hnotOwn, hnotExact, hitem⟩
    · rw [if_neg (by
        rw [Bool.or_eq_true, decide_eq_true_eq, howned, hexact]
        exact htrusted)] at h
      obtain rfl := Except.ok.inj h
      rw [List.mem_cons, ih htail item]
      obtain ⟨hnotOwn, hnotExact⟩ := not_or.mp htrusted
      constructor
      · rintro (rfl | ⟨other, hother, hitem⟩)
        · exact ⟨identity, List.mem_cons_self, hnotOwn, hnotExact, rfl⟩
        · exact ⟨other, List.mem_cons_of_mem _ hother, hitem⟩
      · rintro ⟨other, hother, hitem⟩
        rcases List.mem_cons.mp hother with rfl | hin
        · exact Or.inl hitem.2.2
        · exact Or.inr ⟨other, hin, hitem⟩

/-- The reviewed keys are found under the kids of the recipients under review. -/
theorem foldlM_push_ok {publicKeys : List LoadedPublicKey} {pending : List KnownKeyIdentity}
    {requests result : List TrustReviewRequest}
    (h : pending.foldlM (fun requests identity =>
      match publicKeys.find? fun key => kidOf key = identity.kid.text with
      | some publicKey => pure (pushKnownKeyReviewRequest requests publicKey)
      | none => throw (.invalidOperation "Reviewed key disappeared")) requests
        = (.ok result : Except Error _)) :
    ∃ reviewed, List.Forall₂ (fun identity key =>
        publicKeys.find? (fun key => kidOf key = identity.kid.text) = some key) pending reviewed
      ∧ result = reviewed.foldl pushKnownKeyReviewRequest requests := by
  induction pending generalizing requests with
  | nil => exact ⟨[], List.Forall₂.nil, (Except.ok.inj h).symm⟩
  | cons identity pending ih =>
    rw [List.foldlM_cons] at h
    obtain ⟨next, hnext, h⟩ := bind_eq_ok.mp h
    cases hfind : publicKeys.find? fun key => kidOf key = identity.kid.text with
    | none => rw [hfind] at hnext; cases hnext
    | some key =>
      rw [hfind] at hnext
      obtain rfl := Except.ok.inj hnext
      obtain ⟨reviewed, hreviewed, hresult⟩ := ih h
      exact ⟨key :: reviewed, List.Forall₂.cons hfind hreviewed, hresult⟩

/-- Whether a key still has to be reviewed: it is neither own nor approved. -/
def Pending (evaluator : TrustPolicyEvaluator) (self : SelfTrustSet) (identity : TrustIdentity) :
    Prop :=
  ¬OwnKey self identity ∧ ¬ExactKnownKey evaluator.knownKeys identity

/-- **KEYS UNDER REVIEW**: the evaluation of keys adds a request for each key that is pending, and
    no other request; the kids of all of them are known under their own handles or not at all. -/
theorem evaluateRecipientPublicKeys_ok {evaluator : TrustPolicyEvaluator}
    {publicKeys : List LoadedPublicKey} {self : SelfTrustSet}
    {requests result : List TrustReviewRequest}
    (h : evaluator.evaluateRecipientPublicKeys publicKeys self requests = .ok result) :
    ∃ (identities : List TrustIdentity) (reviewed : List LoadedPublicKey),
      List.Forall₂ (fun (key : LoadedPublicKey) identity =>
        TrustIdentity.fromPublicKey key.document = .ok identity) publicKeys identities
      ∧ enforceRecipientIntegrity evaluator.knownKeys identities = .ok ()
      ∧ result = reviewed.foldl pushKnownKeyReviewRequest requests
      ∧ (∀ key ∈ reviewed, ∃ identity ∈ identities, Pending evaluator self identity
        ∧ publicKeys.find? (fun key => kidOf key = identity.kid.text) = some key)
      ∧ (∀ identity ∈ identities, Pending evaluator self identity →
        ∃ key ∈ reviewed,
          publicKeys.find? (fun key => kidOf key = identity.kid.text) = some key) := by
  obtain ⟨identities, hidentities, h⟩ := bind_eq_ok.mp h
  obtain ⟨⟨⟩, hintegrity, h⟩ := bind_eq_ok.mp h
  obtain ⟨pending, hpending, h⟩ := bind_eq_ok.mp h
  obtain ⟨reviewed, hreviewed, hresult⟩ := foldlM_push_ok h
  have hmem := judgeRecipientsTrust_ok hpending
  refine ⟨identities, reviewed, mapM_ok.mp hidentities, hintegrity, hresult, ?_, ?_⟩
  · intro key hkey
    obtain ⟨item, hitem, hfind⟩ := exists_left_of_mem hreviewed hkey
    obtain ⟨identity, hidentity, hnotOwn, hnotExact, rfl⟩ := (hmem item).mp hitem
    exact ⟨identity, hidentity, ⟨hnotOwn, hnotExact⟩, hfind⟩
  · intro identity hidentity hpending
    have hitem := (hmem _).mpr ⟨identity, hidentity, hpending.1, hpending.2, rfl⟩
    obtain ⟨key, hkey, hfind⟩ := exists_right_of_mem hreviewed hitem
    exact ⟨key, hkey, hfind⟩

/-- The evaluation of keys keeps the requests it was given. -/
theorem evaluateRecipientPublicKeys_prefix {evaluator : TrustPolicyEvaluator}
    {publicKeys : List LoadedPublicKey} {self : SelfTrustSet}
    {requests result : List TrustReviewRequest}
    (h : evaluator.evaluateRecipientPublicKeys publicKeys self requests = .ok result) :
    ∃ more, result = requests ++ more ∧ ∀ request ∈ more, request.kind = .knownKey := by
  obtain ⟨_, reviewed, _, _, rfl, _, _⟩ := evaluateRecipientPublicKeys_ok h
  obtain ⟨more, hmore, hkeys⟩ := foldl_push_prefix reviewed requests
  refine ⟨more, hmore, fun request hrequest => ?_⟩
  obtain ⟨key, _, rfl⟩ := hkeys request hrequest
  rfl

/-- Without a request, no key is pending. -/
theorem evaluateRecipientPublicKeys_nil {evaluator : TrustPolicyEvaluator}
    {publicKeys : List LoadedPublicKey} {self : SelfTrustSet} {requests : List TrustReviewRequest}
    (h : evaluator.evaluateRecipientPublicKeys publicKeys self requests = .ok []) :
    requests = [] ∧ ∀ key ∈ publicKeys, ∃ identity,
      TrustIdentity.fromPublicKey key.document = .ok identity
        ∧ (OwnKey self identity ∨ ExactKnownKey evaluator.knownKeys identity) := by
  obtain ⟨more, hmore, _⟩ := evaluateRecipientPublicKeys_prefix h
  refine ⟨(List.append_eq_nil_iff.mp hmore.symm).1, fun key hkey => ?_⟩
  obtain ⟨identities, reviewed, hidentities, _, hresult, _, hpending⟩ :=
    evaluateRecipientPublicKeys_ok h
  obtain ⟨identity, hidentity, hread⟩ := exists_right_of_mem hidentities hkey
  refine ⟨identity, hread, ?_⟩
  by_contra hnot
  obtain ⟨found, hfound, _⟩ := hpending identity hidentity (not_or.mp hnot)
  obtain ⟨request, hrequest, _⟩ := foldl_push_asked hfound requests
  rw [← hresult] at hrequest
  cases hrequest

/-! ## Recipient sets -/

theorem recipientReviewRequest_kind {kind : TrustReviewKind} {current : ArtifactRecipientSet}
    {approved : Option RecipientSetRecord} {request : TrustReviewRequest}
    (h : recipientReviewRequest kind current approved = .ok request) :
    request.kind = kind ∧ request.sid = some current.sid := by
  obtain ⟨kids, _, h⟩ := bind_eq_ok.mp h
  obtain ⟨hints, _, h⟩ := bind_eq_ok.mp h
  rw [← Except.ok.inj h]
  exact ⟨rfl, rfl⟩

/-- A recipient set adds no request when it is one's own or the approved one, and one request to
    review it otherwise. -/
theorem evaluateArtifactRecipientSet_ok {evaluator : TrustPolicyEvaluator}
    {subject : RecipientSetSubject} {self : SelfTrustSet}
    {requests result : List TrustReviewRequest}
    (h : evaluator.evaluateArtifactRecipientSet subject self requests = .ok result) :
    (result = requests
        ∧ (isSelfOnlyRecipientSet subject.inner evaluator.members self = .ok true
          ∨ judgeRecipientSet evaluator.recipientSets subject.inner = .accepted))
      ∨ (isSelfOnlyRecipientSet subject.inner evaluator.members self = .ok false
        ∧ ∃ request kind approved, result = requests ++ [request] ∧ kind ≠ .knownKey
          ∧ recipientReviewRequest kind subject.inner approved = .ok request) := by
  obtain ⟨selfOnly, hself, h⟩ := bind_eq_ok.mp h
  cases selfOnly with
  | true =>
    rw [if_pos rfl] at h
    exact Or.inl ⟨(Except.ok.inj h).symm, Or.inl hself⟩
  | false =>
    rw [if_neg Bool.false_ne_true] at h
    cases hjudged : judgeRecipientSet evaluator.recipientSets subject.inner with
    | accepted =>
      rw [hjudged] at h
      exact Or.inl ⟨(Except.ok.inj h).symm, Or.inr rfl⟩
    | missing =>
      rw [hjudged] at h
      obtain ⟨request, hrequest, h⟩ := bind_eq_ok.mp h
      exact Or.inr ⟨hself, request, .recipientSet, _, (Except.ok.inj h).symm, nofun, hrequest⟩
    | changed approved =>
      rw [hjudged] at h
      obtain ⟨request, hrequest, h⟩ := bind_eq_ok.mp h
      exact Or.inr ⟨hself, request, .changedRecipientSet, _, (Except.ok.inj h).symm, nofun,
        hrequest⟩

/-! ## Outputs and writes -/

/-- The evaluation of an output keeps the requests it was given, and adds those of its keys and of
    its recipient set. -/
theorem evaluateKvOutputRecipients_ok {evaluator : TrustPolicyEvaluator}
    {output : RecipientSetSubject} {recipients : RecipientKeys} {self : SelfTrustSet}
    {requests result : List TrustReviewRequest}
    (h : evaluator.evaluateKvOutputRecipients output recipients self requests = .ok result) :
    evaluator.enforceOutputKidSetCurrent (recipients.keys.map VerifiedRecipientKey.kid) = .ok ()
      ∧ (∀ key ∈ recipients.keys, evaluator.enforceOutputRecipientCurrent key.document = .ok ())
      ∧ ∃ keyed, evaluator.evaluateRecipientPublicKeys
          (recipients.keys.map VerifiedRecipientKey.toLoadedPublicKey) self requests = .ok keyed
        ∧ evaluator.evaluateArtifactRecipientSet output self keyed = .ok result := by
  obtain ⟨⟨⟩, hkids, h⟩ := bind_eq_ok.mp h
  obtain ⟨keyed, hkeyed, hset⟩ := bind_eq_ok.mp h
  obtain ⟨⟨⟩, hcurrent, hkeyed⟩ := bind_eq_ok.mp hkeyed
  exact ⟨hkids, forM_ok.mp hcurrent, keyed, hkeyed, hset⟩

theorem evaluateKvOutputRecipients_prefix {evaluator : TrustPolicyEvaluator}
    {output : RecipientSetSubject} {recipients : RecipientKeys} {self : SelfTrustSet}
    {requests result : List TrustReviewRequest}
    (h : evaluator.evaluateKvOutputRecipients output recipients self requests = .ok result) :
    ∃ more, result = requests ++ more := by
  obtain ⟨_, _, keyed, hkeyed, hset⟩ := evaluateKvOutputRecipients_ok h
  obtain ⟨more, rfl, _⟩ := evaluateRecipientPublicKeys_prefix hkeyed
  rcases evaluateArtifactRecipientSet_ok hset with ⟨rfl, _⟩ | ⟨_, request, _, _, rfl, _⟩
  · exact ⟨more, rfl⟩
  · exact ⟨more ++ [request], List.append_assoc _ _ _⟩

/-- A write has judged the signer of the document it changes. -/
theorem kvMutationRequests_signer {evaluator : TrustPolicyEvaluator} {artifact : VerifiedArtifact}
    {recipients : RecipientKeys} {keyCtx : KeyContext} {requests : List TrustReviewRequest}
    (h : evaluator.kvMutationRequests C artifact recipients keyCtx = .ok requests) :
    ∃ judged, evaluator.evaluateSigner artifact.signerPublicKey (buildSelfTrust C keyCtx)
        = .ok judged
      ∧ ∃ more, requests = judged ++ more := by
  obtain ⟨⟨⟩, _, h⟩ := bind_eq_ok.mp h
  obtain ⟨⟨⟩, _, h⟩ := bind_eq_ok.mp h
  obtain ⟨input, _, h⟩ := bind_eq_ok.mp h
  obtain ⟨output, _, h⟩ := bind_eq_ok.mp h
  obtain ⟨judged, hjudged, h⟩ := bind_eq_ok.mp h
  obtain ⟨⟨⟩, _, h⟩ := bind_eq_ok.mp h
  exact ⟨judged, hjudged, evaluateKvOutputRecipients_prefix h⟩

end TrustEvaluation
