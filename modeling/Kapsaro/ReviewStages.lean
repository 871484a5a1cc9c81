import Kapsaro.ApprovalRecords
import Kapsaro.SignerTrust

/-!
# Review stages — an evaluation, and the same evaluation once its reviews are recorded

An evaluation judges a signer, judges keys, and matches a recipient set. Each of these stages looks
at the trust store only for the handles its kids are known under and for the recipient set of one
artifact.

* **`Agrees`** — a store does not know an identity's kid under another handle.
* **`KeysJudged`**, **`SignerJudged`**, **`SignerPending`** — the identities a stage looks at.
* **`evaluateRecipientPublicKeys_shape`**, **`evaluateSigner_shape`** — the requests of a stage are
  for its pending identities.
* **`evaluateRecipientPublicKeys_again`**, **`evaluateSigner_again`**,
  **`evaluateArtifactRecipientSet_again`** — the same stage under a store that knows more.
-/

namespace ReviewStages

open JsonText JsonMembers Limits TextLines Base64Codec WireTexts WireModel DocumentTokens
open Envelope SignedArtifacts KvDocument KeyedList TrustRecords TrustStore TrustSoundness
open TrustApprovals TrustJudgment TrustPolicy TrustEvaluation SignerTrust ApprovalRecords

variable {C : Crypto}

/-! ## Identities and stores -/

/-- The store knows the identity's kid under no other handle. -/
def Agrees (keys : List KnownKey) (identity : TrustIdentity) : Prop :=
  ∀ handle, Recorded keys identity.kid.text handle → handle = identity.memberHandle.text

/-- One of the keys has this identity. -/
def KeysJudged (keys : List LoadedPublicKey) (identity : TrustIdentity) : Prop :=
  ∃ key ∈ keys, TrustIdentity.fromPublicKey key.document = .ok identity

/-- The identity is the signer's, of an active member, and is not recognized as own. -/
def SignerJudged (members : CurrentMemberSnapshot) (signerPublicKey : Option LoadedPublicKey)
    (self : SelfTrustSet) (identity : TrustIdentity) : Prop :=
  SignedBy signerPublicKey identity ∧ ActiveMember members identity
    ∧ self.containsIdentity identity = .ok false

/-- Such a signer's kid is not known. -/
def SignerPending (evaluator : TrustPolicyEvaluator) (signerPublicKey : Option LoadedPublicKey)
    (self : SelfTrustSet) (identity : TrustIdentity) : Prop :=
  SignerJudged evaluator.members signerPublicKey self identity
    ∧ judgeKnownIdentityMatch evaluator.knownKeys identity = .missing

/-- A request asks for the review of an identity. -/
def AsksFor (keys : List LoadedPublicKey) (identity : TrustIdentity) : Prop :=
  ∃ key ∈ keys, kidOf key = identity.kid.text ∧ handleOf key = identity.memberHandle.text

theorem KeysJudged.text {keys : List LoadedPublicKey} {identity : TrustIdentity}
    (h : KeysJudged keys identity) :
    ∃ key ∈ keys, kidOf key = identity.kid.text ∧ handleOf key = identity.memberHandle.text := by
  obtain ⟨key, hkey, hidentity⟩ := h
  obtain ⟨hhandle, hkid, _⟩ := TrustIdentity.fromPublicKey_ok hidentity
  exact ⟨key, hkey, hkid.symm, hhandle.symm⟩

theorem judgeKnownIdentityMatch_missing {keys : List KnownKey} {identity : TrustIdentity} :
    judgeKnownIdentityMatch keys identity = .missing
      ↔ ∀ handle, ¬Recorded keys identity.kid.text handle := by
  rw [judgeKnownIdentityMatch]
  constructor
  · rintro h handle ⟨known, hknown, _⟩
    rw [hknown] at h
    dsimp only at h
    split at h <;> cases h
  · intro h
    cases hfind : findKnownKey keys identity.kid.text with
    | none => rfl
    | some known => exact absurd ⟨known, hfind, rfl⟩ (h known.subjectHandle)

/-- An identity the store agrees with is known under its handle or not at all. -/
theorem Agrees.judged {keys : List KnownKey} {identity : TrustIdentity}
    (h : Agrees keys identity) :
    judgeKnownIdentityMatch keys identity = .exact
      ∨ judgeKnownIdentityMatch keys identity = .missing := by
  by_cases hknown : ∃ handle, Recorded keys identity.kid.text handle
  · obtain ⟨handle, hrecorded⟩ := hknown
    obtain rfl := h handle hrecorded
    exact Or.inl (judgeKnownIdentityMatch_exact.mpr hrecorded)
  · exact Or.inr (judgeKnownIdentityMatch_missing.mpr fun handle hrecorded =>
      hknown ⟨handle, hrecorded⟩)

theorem agrees_of_judged {keys : List KnownKey} {identity : TrustIdentity}
    (h : judgeKnownIdentityMatch keys identity = .exact
      ∨ judgeKnownIdentityMatch keys identity = .missing) : Agrees keys identity := by
  intro handle hrecorded
  rcases h with hexact | hmissing
  · exact hrecorded.unique (judgeKnownIdentityMatch_exact.mp hexact)
  · exact absurd hrecorded (judgeKnownIdentityMatch_missing.mp hmissing handle)

theorem enforceRecipientIntegrity_ok {keys : List KnownKey} {identities : List TrustIdentity} :
    enforceRecipientIntegrity keys identities = .ok ()
      ↔ ∀ identity ∈ identities, Agrees keys identity := by
  rw [enforceRecipientIntegrity, forM_ok]
  refine forall_congr' fun identity => imp_congr_right fun _ => ?_
  constructor
  · intro h
    refine agrees_of_judged ?_
    cases hjudged : judgeKnownIdentityMatch keys identity with
    | exact => exact Or.inl rfl
    | missing => exact Or.inr rfl
    | memberHandleMismatch known => rw [hjudged] at h; cases h
  · intro h
    rcases h.judged with hjudged | hjudged
    · rw [hjudged]
    · rw [hjudged]

/-! ## Keys -/

/-- The identities of keys that could be read. -/
theorem keysJudged_iff {keys : List LoadedPublicKey} {identities : List TrustIdentity}
    (h : List.Forall₂ (fun (key : LoadedPublicKey) identity =>
      TrustIdentity.fromPublicKey key.document = .ok identity) keys identities)
    (identity : TrustIdentity) : KeysJudged keys identity ↔ identity ∈ identities := by
  constructor
  · rintro ⟨key, hkey, hidentity⟩
    obtain ⟨other, hother, hread⟩ := exists_right_of_mem h hkey
    rw [Except.ok.inj (hidentity.symm.trans hread)]
    exact hother
  · intro hmem
    exact exists_left_of_mem h hmem

/-- Judged keys are known under their own handles or not at all. -/
theorem agrees_of_keys {evaluator : TrustPolicyEvaluator} {keys : List LoadedPublicKey}
    {self : SelfTrustSet} {requests result : List TrustReviewRequest}
    (h : evaluator.evaluateRecipientPublicKeys keys self requests = .ok result)
    {identity : TrustIdentity} (hjudged : KeysJudged keys identity) :
    Agrees evaluator.knownKeys identity := by
  obtain ⟨identities, _, hidentities, hintegrity, _⟩ := evaluateRecipientPublicKeys_ok h
  exact enforceRecipientIntegrity_ok.mp hintegrity identity
    ((keysJudged_iff hidentities identity).mp hjudged)

/-- Requests to review keys are those of a list of keys. -/
theorem exists_requested {more : List TrustReviewRequest} {keys : List LoadedPublicKey}
    (h : ∀ request ∈ more, ∃ key ∈ keys, request = knownKeyReviewRequest key) :
    ∃ kept : List LoadedPublicKey,
      more = kept.map knownKeyReviewRequest ∧ ∀ key ∈ kept, key ∈ keys := by
  induction more with
  | nil => exact ⟨[], rfl, fun key hkey => absurd hkey List.not_mem_nil⟩
  | cons request more ih =>
    obtain ⟨key, hkey, rfl⟩ := h request List.mem_cons_self
    obtain ⟨kept, rfl, hkept⟩ := ih fun other hother => h other (List.mem_cons_of_mem _ hother)
    refine ⟨key :: kept, rfl, fun other hother => ?_⟩
    rcases List.mem_cons.mp hother with rfl | hin
    · exact hkey
    · exact hkept other hin

/-- **THE REQUESTS OF KEYS**: among keys with distinct kids, requests are added for pending
    identities only, and in the end every pending one is asked for. -/
theorem evaluateRecipientPublicKeys_shape {evaluator : TrustPolicyEvaluator}
    {keys asked : List LoadedPublicKey} {self : SelfTrustSet} {result : List TrustReviewRequest}
    (hkids : ∀ a ∈ keys, ∀ b ∈ keys, kidOf a = kidOf b → a = b)
    (h : evaluator.evaluateRecipientPublicKeys keys self (asked.map knownKeyReviewRequest)
      = .ok result) :
    ∃ kept : List LoadedPublicKey, result = (asked ++ kept).map knownKeyReviewRequest
      ∧ (∀ key ∈ kept, ∃ identity, KeysJudged keys identity ∧ Pending evaluator self identity
        ∧ kidOf key = identity.kid.text ∧ handleOf key = identity.memberHandle.text)
      ∧ ∀ identity, KeysJudged keys identity → Pending evaluator self identity →
        AsksFor (asked ++ kept) identity := by
  obtain ⟨identities, reviewed, hidentities, _, hresult, hreviewed, hpending⟩ :=
    evaluateRecipientPublicKeys_ok h
  obtain ⟨more, hmore, hmoreKeys⟩ := foldl_push_prefix reviewed (asked.map knownKeyReviewRequest)
  obtain ⟨kept, rfl, hkept⟩ := exists_requested hmoreKeys
  -- the key found under an identity's kid is the key with that identity
  have hfound : ∀ identity, KeysJudged keys identity → ∀ key,
      keys.find? (fun key => kidOf key = identity.kid.text) = some key →
        kidOf key = identity.kid.text ∧ handleOf key = identity.memberHandle.text := by
    intro identity hjudged key hfind
    obtain ⟨own, hown, hkid, hhandle⟩ := hjudged.text
    have hsame := of_decide_eq_true (List.find?_some (p := fun key =>
      decide (kidOf key = identity.kid.text)) hfind)
    rw [hkids key (List.mem_of_find?_eq_some hfind) own hown (hsame.trans hkid.symm)]
    exact ⟨hkid, hhandle⟩
  refine ⟨kept, ?_, ?_, ?_⟩
  · rw [hresult, hmore, List.map_append]
  · intro key hkey
    obtain ⟨identity, hidentity, hpend, hfind⟩ := hreviewed key (hkept key hkey)
    have hjudged := (keysJudged_iff hidentities identity).mpr hidentity
    exact ⟨identity, hjudged, hpend, hfound identity hjudged key hfind⟩
  · intro identity hjudged hpend
    obtain ⟨key, hkey, hfind⟩ :=
      hpending identity ((keysJudged_iff hidentities identity).mp hjudged) hpend
    obtain ⟨hkid, hhandle⟩ := hfound identity hjudged key hfind
    obtain ⟨request, hrequest, _, hrequestHandle, hrequestKid⟩ :=
      foldl_push_asked hkey (asked.map knownKeyReviewRequest)
    rw [hmore, ← List.map_append] at hrequest
    obtain ⟨shown, hshown, rfl⟩ := List.mem_map.mp hrequest
    refine ⟨shown, hshown, ?_, ?_⟩
    · rw [← hkid]
      exact congrArg Kid.text (Option.some.inj hrequestKid)
    · rw [← hhandle]
      exact congrArg MemberHandle.text (Option.some.inj hrequestHandle)

/-- Whether the recipients under review can be found does not depend on the approved keys. -/
theorem judgeRecipientsTrust_total {knownKeys : List KnownKey} {self : SelfTrustSet}
    {identities : List TrustIdentity} {pending : List KnownKeyIdentity}
    (h : judgeRecipientsTrust knownKeys self identities = .ok pending)
    (knownKeys' : List KnownKey) :
    ∃ pending', judgeRecipientsTrust knownKeys' self identities = .ok pending' := by
  induction identities generalizing pending with
  | nil => exact ⟨[], rfl⟩
  | cons identity rest ih =>
    obtain ⟨own, hown, h⟩ := bind_eq_ok.mp h
    obtain ⟨tail, htail, _⟩ := bind_eq_ok.mp h
    obtain ⟨tail', htail'⟩ := ih htail
    by_cases hknown : (own || judgeKnownIdentityMatch knownKeys' identity = .exact) = true
    · exact ⟨tail', bind_eq_ok.mpr ⟨own, hown, bind_eq_ok.mpr ⟨tail', htail', if_pos hknown⟩⟩⟩
    · exact ⟨_, bind_eq_ok.mpr ⟨own, hown, bind_eq_ok.mpr ⟨tail', htail', if_neg hknown⟩⟩⟩

/-- The reviewed keys are found when their kids are there. -/
theorem foldlM_push_total {keys : List LoadedPublicKey} {pending : List KnownKeyIdentity}
    (hkids : ∀ item ∈ pending, ∃ key ∈ keys, kidOf key = item.kid.text)
    (requests : List TrustReviewRequest) :
    ∃ result, pending.foldlM (fun requests identity =>
      match keys.find? fun key => kidOf key = identity.kid.text with
      | some publicKey => pure (pushKnownKeyReviewRequest requests publicKey)
      | none => throw (.invalidOperation "Reviewed key disappeared")) requests
        = (.ok result : Except Error _) := by
  induction pending generalizing requests with
  | nil => exact ⟨requests, rfl⟩
  | cons identity pending ih =>
    rw [List.foldlM_cons]
    obtain ⟨key, hkey, hkid⟩ := hkids identity List.mem_cons_self
    cases hfind : keys.find? fun key => kidOf key = identity.kid.text with
    | none => exact absurd (decide_eq_true hkid) (List.find?_eq_none.mp hfind key hkey)
    | some found =>
      obtain ⟨result, hresult⟩ := ih (fun item hitem => hkids item (List.mem_cons_of_mem _ hitem))
        (pushKnownKeyReviewRequest requests found)
      exact ⟨result, bind_eq_ok.mpr ⟨_, rfl, hresult⟩⟩

/-- **THE SAME KEYS AGAIN**: under a store that agrees with the keys the evaluation succeeds again;
    and without a request when all of them are own or approved by then. -/
theorem evaluateRecipientPublicKeys_again {evaluator : TrustPolicyEvaluator}
    (evaluator' : TrustPolicyEvaluator) {keys : List LoadedPublicKey}
    {self : SelfTrustSet} {requests result : List TrustReviewRequest}
    (h : evaluator.evaluateRecipientPublicKeys keys self requests = .ok result)
    (hagrees : ∀ identity, KeysJudged keys identity → Agrees evaluator'.knownKeys identity)
    (requests' : List TrustReviewRequest) :
    ∃ more, evaluator'.evaluateRecipientPublicKeys keys self requests' = .ok (requests' ++ more)
      ∧ (∀ request ∈ more, request.kind = .knownKey)
      ∧ ((∀ identity, KeysJudged keys identity → ¬Pending evaluator' self identity) →
        more = []) := by
  obtain ⟨identities, hidentities, h⟩ := bind_eq_ok.mp h
  obtain ⟨⟨⟩, _, h⟩ := bind_eq_ok.mp h
  obtain ⟨pending, hpending, _⟩ := bind_eq_ok.mp h
  have hjudged := keysJudged_iff (mapM_ok.mp hidentities)
  have hintegrity : enforceRecipientIntegrity evaluator'.knownKeys identities = .ok () :=
    enforceRecipientIntegrity_ok.mpr fun identity hidentity =>
      hagrees identity ((hjudged identity).mpr hidentity)
  obtain ⟨pending', hpending'⟩ := judgeRecipientsTrust_total hpending
    evaluator'.knownKeys
  have hkids : ∀ item ∈ pending', ∃ key ∈ keys, kidOf key = item.kid.text := by
    intro item hitem
    obtain ⟨identity, hidentity, _, _, rfl⟩ := (judgeRecipientsTrust_ok hpending' item).mp hitem
    obtain ⟨key, hkey, hkid, _⟩ := ((hjudged identity).mpr hidentity).text
    exact ⟨key, hkey, hkid⟩
  obtain ⟨all, hall⟩ := foldlM_push_total hkids requests'
  have hevaluated : evaluator'.evaluateRecipientPublicKeys keys self requests' = .ok all :=
    bind_eq_ok.mpr ⟨identities, hidentities, bind_eq_ok.mpr ⟨(), hintegrity,
      bind_eq_ok.mpr ⟨pending', hpending', hall⟩⟩⟩
  obtain ⟨more, rfl, hkinds⟩ := evaluateRecipientPublicKeys_prefix hevaluated
  refine ⟨more, hevaluated, hkinds, fun hnone => ?_⟩
  have hempty : pending' = [] := by
    refine List.eq_nil_iff_forall_not_mem.mpr fun item hitem => ?_
    obtain ⟨identity, hidentity, hnotOwn, hnotExact, _⟩ :=
      (judgeRecipientsTrust_ok hpending' item).mp hitem
    exact hnone identity ((hjudged identity).mpr hidentity) ⟨hnotOwn, hnotExact⟩
  subst hempty
  exact List.append_cancel_left ((Except.ok.inj hall).symm.trans (List.append_nil _).symm)

/-! ## Signers -/

/-- Approved keys only matter for an active member's key that is not own. -/
theorem judgeSignerTrust_congr {signer : TrustIdentity} {members : CurrentMemberSnapshot}
    {self : SelfTrustSet} (knownKeys knownKeys' : List KnownKey) :
    judgeSignerTrust signer members knownKeys self = judgeSignerTrust signer members knownKeys' self
      ∨ (ActiveMember members signer ∧ self.containsIdentity signer = .ok false) := by
  rw [judgeSignerTrust, judgeSignerTrust]
  cases hmatch : judgeHandleMatch members signer.kid.text signer.memberHandle.text with
  | missing => exact Or.inl rfl
  | memberHandleMismatch active => exact Or.inl rfl
  | matched =>
    cases hown : self.containsIdentity signer with
    | error e => exact Or.inl rfl
    | ok own =>
      cases own with
      | true => exact Or.inl rfl
      | false => exact Or.inr ⟨judgeHandleMatch_matched.mp hmatch, rfl⟩

/-- An active member's key that is not own passes when the store agrees with it: without a request
    when it is known, and with the request for its key when it is not. -/
theorem evaluateSigner_active {evaluator : TrustPolicyEvaluator}
    {signerPublicKey : Option LoadedPublicKey} {self : SelfTrustSet} {key : LoadedPublicKey}
    {signer : TrustIdentity} (hkey : signerPublicKey = some key)
    (hsigner : TrustIdentity.fromPublicKey key.document = .ok signer)
    (hactive : ActiveMember evaluator.members signer)
    (hown : self.containsIdentity signer = .ok false)
    (exceptions : ReadTrustExceptions) :
    (∀ requests, evaluator.evaluateSignerWithExceptions signerPublicKey self exceptions
        = .ok requests → Agrees evaluator.knownKeys signer)
      ∧ (judgeKnownIdentityMatch evaluator.knownKeys signer = .exact →
        evaluator.evaluateSignerWithExceptions signerPublicKey self exceptions = .ok [])
      ∧ (judgeKnownIdentityMatch evaluator.knownKeys signer = .missing →
        evaluator.evaluateSignerWithExceptions signerPublicKey self exceptions
          = .ok [knownKeyReviewRequest key]) := by
  rw [TrustPolicyEvaluator.evaluateSignerWithExceptions, evaluateSigner_eq hkey hsigner,
    judgeSignerTrust_active hactive hown]
  cases hknown : judgeKnownIdentityMatch evaluator.knownKeys signer with
  | exact => exact ⟨fun _ _ => agrees_of_judged (Or.inl hknown), fun _ => rfl, fun h => by cases h⟩
  | missing => exact ⟨fun _ _ => agrees_of_judged (Or.inr hknown), fun h => (by cases h),
      fun _ => rfl⟩
  | memberHandleMismatch known =>
    refine ⟨fun requests h => ?_, fun h => (by cases h), fun h => by cases h⟩
    -- the anomaly is no non-member's error, so that no exception applies
    cases h

/-- A signer that passes agrees with the store when its key is not own. -/
theorem agrees_of_signer {evaluator : TrustPolicyEvaluator}
    {signerPublicKey : Option LoadedPublicKey} {self : SelfTrustSet}
    {exceptions : ReadTrustExceptions} {requests : List TrustReviewRequest}
    (h : evaluator.evaluateSignerWithExceptions signerPublicKey self exceptions = .ok requests)
    {identity : TrustIdentity}
    (hjudged : SignerJudged evaluator.members signerPublicKey self identity) :
    Agrees evaluator.knownKeys identity := by
  obtain ⟨⟨key, hkey, hsigner⟩, hactive, hown⟩ := hjudged
  exact (evaluateSigner_active hkey hsigner hactive hown exceptions).1 requests h

/-- **THE REQUEST OF A SIGNER**: it is for a pending signer, and such a signer is asked for. -/
theorem evaluateSigner_shape {evaluator : TrustPolicyEvaluator}
    {signerPublicKey : Option LoadedPublicKey} {self : SelfTrustSet}
    {exceptions : ReadTrustExceptions} {requests : List TrustReviewRequest}
    (h : evaluator.evaluateSignerWithExceptions signerPublicKey self exceptions = .ok requests) :
    ∃ asked : List LoadedPublicKey, requests = asked.map knownKeyReviewRequest
      ∧ (∀ key ∈ asked, ∃ identity, SignerPending evaluator signerPublicKey self identity
        ∧ kidOf key = identity.kid.text ∧ handleOf key = identity.memberHandle.text)
      ∧ ∀ identity, SignerPending evaluator signerPublicKey self identity →
        AsksFor asked identity := by
  have hasked : ∀ identity, SignerPending evaluator signerPublicKey self identity →
      ∃ key, requests = [knownKeyReviewRequest key]
        ∧ kidOf key = identity.kid.text ∧ handleOf key = identity.memberHandle.text := by
    rintro identity ⟨⟨⟨key, hkey, hsigner⟩, hactive, hown⟩, hmissing⟩
    obtain ⟨hhandle, hkid, _⟩ := TrustIdentity.fromPublicKey_ok hsigner
    have hpass := (evaluateSigner_active hkey hsigner hactive hown exceptions).2.2 hmissing
    exact ⟨key, Except.ok.inj (h.symm.trans hpass), hkid.symm, hhandle.symm⟩
  have hempty : requests = [] → ∃ asked : List LoadedPublicKey,
      requests = asked.map knownKeyReviewRequest
        ∧ (∀ key ∈ asked, ∃ identity, SignerPending evaluator signerPublicKey self identity
          ∧ kidOf key = identity.kid.text ∧ handleOf key = identity.memberHandle.text)
        ∧ ∀ identity, SignerPending evaluator signerPublicKey self identity →
          AsksFor asked identity := by
    rintro rfl
    refine ⟨[], rfl, fun key hkey => absurd hkey List.not_mem_nil, fun identity hpending => ?_⟩
    obtain ⟨key, hrequests, _⟩ := hasked identity hpending
    cases hrequests
  rcases evaluateSignerWithExceptions_ok h with hjudged | ⟨hnone, _⟩
  · obtain ⟨key, signer, hkey, hsigner, ⟨hnone, _⟩ | ⟨hone, hneeds⟩⟩ := evaluateSigner_ok hjudged
    · exact hempty hnone
    · obtain ⟨hhandle, hkid, _⟩ := TrustIdentity.fromPublicKey_ok hsigner
      obtain ⟨hactive, hown, hmissing⟩ := judgeSignerTrust_needsApproval hneeds
      refine ⟨[key], hone, fun other hother => ?_, fun identity hpending => ?_⟩
      · rw [List.mem_singleton.mp hother]
        exact ⟨signer, ⟨⟨⟨key, hkey, hsigner⟩, hactive, hown⟩, hmissing⟩, hkid.symm,
          hhandle.symm⟩
      · obtain rfl := hpending.1.1.unique ⟨key, hkey, hsigner⟩
        exact ⟨key, List.mem_cons_self, hkid.symm, hhandle.symm⟩
  · exact hempty hnone

/-- **THE SAME SIGNER AGAIN**: under a store that agrees with it the signer passes again; and
    without a request when it is known by then. -/
theorem evaluateSigner_again {evaluator evaluator' : TrustPolicyEvaluator}
    {signerPublicKey : Option LoadedPublicKey} {self : SelfTrustSet}
    {exceptions : ReadTrustExceptions} {requests : List TrustReviewRequest}
    (hmembers : evaluator'.members = evaluator.members)
    (h : evaluator.evaluateSignerWithExceptions signerPublicKey self exceptions = .ok requests)
    (hagrees : ∀ identity, SignerJudged evaluator.members signerPublicKey self identity →
      Agrees evaluator'.knownKeys identity)
    (hkept : ∀ identity, ExactKnownKey evaluator.knownKeys identity →
      ExactKnownKey evaluator'.knownKeys identity) :
    ∃ asked : List LoadedPublicKey,
      evaluator'.evaluateSignerWithExceptions signerPublicKey self exceptions
        = .ok (asked.map knownKeyReviewRequest)
      ∧ ((∀ identity, SignerPending evaluator signerPublicKey self identity →
        ExactKnownKey evaluator'.knownKeys identity) → asked = []) := by
  have hsigned : ∃ key signer, signerPublicKey = some key
      ∧ TrustIdentity.fromPublicKey key.document = .ok signer := by
    rcases evaluateSignerWithExceptions_ok h with hsigner | ⟨_, signer, _, ⟨key, hkey, hsigner⟩, _⟩
    · obtain ⟨key, signer, hkey, hsigner, _⟩ := evaluateSigner_ok hsigner
      exact ⟨key, signer, hkey, hsigner⟩
    · exact ⟨key, signer, hkey, hsigner⟩
  obtain ⟨key, signer, hkey, hsigner⟩ := hsigned
  by_cases hjudged : ActiveMember evaluator.members signer
      ∧ self.containsIdentity signer = .ok false
  · -- the store decides about this signer, and agrees with it before and after
    obtain ⟨hactive, hown⟩ := hjudged
    have hsignerJudged : SignerJudged evaluator.members signerPublicKey self signer :=
      ⟨⟨key, hkey, hsigner⟩, hactive, hown⟩
    have hbefore := agrees_of_signer h hsignerJudged
    have hpass := evaluateSigner_active hkey hsigner
      (hmembers.symm ▸ hactive) hown exceptions
    rcases (hagrees signer hsignerJudged).judged with hexact | hmissing
    · exact ⟨[], hpass.2.1 hexact, fun _ => rfl⟩
    · refine ⟨[key], hpass.2.2 hmissing, fun hrecorded => ?_⟩
      have hnotExact : ¬ExactKnownKey evaluator'.knownKeys signer := by
        intro hexact
        rw [judgeKnownIdentityMatch_exact.mpr hexact] at hmissing
        cases hmissing
      rcases hbefore.judged with hold | hold
      · exact absurd (hkept signer (judgeKnownIdentityMatch_exact.mp hold)) hnotExact
      · exact absurd (hrecorded signer ⟨hsignerJudged, hold⟩) hnotExact
  · have hsame : evaluator'.evaluateSigner signerPublicKey self
        = evaluator.evaluateSigner signerPublicKey self := by
      rw [evaluateSigner_eq hkey hsigner, evaluateSigner_eq hkey hsigner, hmembers]
      rw [(judgeSignerTrust_congr evaluator'.knownKeys evaluator.knownKeys).resolve_right hjudged]
    have hagain : evaluator'.evaluateSignerWithExceptions signerPublicKey self exceptions
        = .ok requests := by
      rw [TrustPolicyEvaluator.evaluateSignerWithExceptions, hsame]
      exact h
    obtain ⟨asked, rfl, hpending, _⟩ := evaluateSigner_shape h
    refine ⟨asked, hagain, fun _ => List.eq_nil_iff_forall_not_mem.mpr fun other hother => ?_⟩
    obtain ⟨identity, ⟨⟨hsignedBy, hactive, hown⟩, _⟩, _⟩ := hpending other hother
    obtain rfl := hsignedBy.unique ⟨key, hkey, hsigner⟩
    exact hjudged ⟨hactive, hown⟩

/-! ## Recipient sets -/

/-- **THE SAME RECIPIENTS AGAIN**: a recipient set that is accepted by then adds no request. -/
theorem evaluateArtifactRecipientSet_again {evaluator evaluator' : TrustPolicyEvaluator}
    {subject : RecipientSetSubject} {self : SelfTrustSet}
    {requests result : List TrustReviewRequest} (hmembers : evaluator'.members = evaluator.members)
    (h : evaluator.evaluateArtifactRecipientSet subject self requests = .ok result)
    (haccepted : isSelfOnlyRecipientSet subject.inner evaluator.members self = .ok true
      ∨ judgeRecipientSet evaluator'.recipientSets subject.inner = .accepted)
    (requests' : List TrustReviewRequest) :
    evaluator'.evaluateArtifactRecipientSet subject self requests' = .ok requests' := by
  obtain ⟨selfOnly, hself, _⟩ := bind_eq_ok.mp h
  refine bind_eq_ok.mpr ⟨selfOnly, hmembers ▸ hself, ?_⟩
  cases selfOnly with
  | true => exact if_pos rfl
  | false =>
    rw [if_neg Bool.false_ne_true]
    rcases haccepted with htrue | haccepted
    · rw [hself] at htrue
      cases htrue
    · rw [haccepted]
      rfl

end ReviewStages
