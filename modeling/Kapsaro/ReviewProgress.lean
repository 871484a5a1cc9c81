import Kapsaro.ReviewStages

/-!
# Review progress — whether every review can be answered

The loop of a command evaluates, shows the open reviews, records the answers and evaluates again.
It makes progress when every answer can be recorded and the next evaluation does not ask again.
That holds exactly when no key under review carries the executing member's own handle: such a key
is asked for, and the store refuses to record it.

* **`Satisfiable`** — every answer can be recorded, and then nothing of the kind is asked again.
* **`Review`** — what the evaluations have in common.
* **`satisfiable_iff`** — the progress of a review.
-/

namespace ReviewProgress

open JsonText JsonMembers Limits TextLines Base64Codec WireTexts WireModel DocumentTokens
open Envelope SignedArtifacts KvDocument KeyedList TrustRecords TrustStore TrustSoundness
open TrustApprovals TrustJudgment TrustPolicy TrustEvaluation SignerTrust ApprovalRecords
open ReviewStages

/-! ## The loop -/

/-- Every request can be recorded, each on its own and all in their order, and the evaluation that
    follows asks for nothing of the same kind. -/
def Satisfiable (C : Crypto) (P : TextParsers) (owner : MemberHandle)
    (protect : TrustStoreProtected) (requests : List TrustReviewRequest)
    (again : TrustStoreProtected → Except Error (List TrustReviewRequest)) : Prop :=
  (∀ request ∈ requests, ∀ approval (now : CurrentTime P), Answers request approval →
      ∃ result, applyApprovalUpdate C owner protect approval now = .ok result)
    ∧ ∀ approvals : List (TrustApproval × CurrentTime P),
        List.Forall₂ (fun request approval => Answers request approval.1) requests approvals →
          ∃ applied protect' requests',
            applyApprovalsTo C owner protect approvals = .ok (applied, protect')
              ∧ again protect' = .ok requests'
              ∧ ∀ request ∈ requests, ∀ other ∈ requests', other.kind ≠ request.kind

/-- A review: requests for keys, then at most one for a recipient set. The identities `checked` are
    those the evaluation compares with the store, and `asked` are those it asks for. -/
structure Review (protect : TrustStoreProtected)
    (again : TrustStoreProtected → Except Error (List TrustReviewRequest))
    (asked checked : TrustIdentity → Prop) (accepts : List RecipientSetRecord → Prop)
    (keys : List LoadedPublicKey) (sets : List TrustReviewRequest) : Prop where
  requested : ∀ key ∈ keys, ∃ identity, asked identity
    ∧ kidOf key = identity.kid.text ∧ handleOf key = identity.memberHandle.text
  asksFor : ∀ identity, asked identity → AsksFor keys identity
  judged : ∀ identity, asked identity → checked identity
  agrees : ∀ identity, checked identity → Agrees protect.knownKeys identity
  set : (sets = [] ∧ accepts protect.recipientSets)
    ∨ ∃ request kind approved current, sets = [request] ∧ Displayed current ∧ kind ≠ .knownKey
      ∧ recipientReviewRequest kind current approved = .ok request
      ∧ ∀ records, judgeRecipientSet records current = .accepted → accepts records
  againAgrees : ∀ protect' requests', again protect' = .ok requests' →
    ∀ identity, checked identity → Agrees protect'.knownKeys identity
  settled : ∀ keys' sets', (∀ identity, checked identity → Agrees keys' identity) →
    (∀ identity, asked identity → ExactKnownKey keys' identity) →
    (∀ identity, ExactKnownKey protect.knownKeys identity → ExactKnownKey keys' identity) →
    accepts sets' →
      again { protect with knownKeys := keys', recipientSets := sets' } = .ok []

section Loop

variable {C : Crypto} {P : TextParsers} {owner : MemberHandle} {protect : TrustStoreProtected}
  {again : TrustStoreProtected → Except Error (List TrustReviewRequest)}
  {asked checked : TrustIdentity → Prop} {accepts : List RecipientSetRecord → Prop}
  {keys : List LoadedPublicKey} {sets : List TrustReviewRequest}

theorem MemberHandle.ext_text {a b : MemberHandle} (h : a.text = b.text) : a = b := by
  cases a
  cases b
  cases h
  rfl

theorem Kid.ext_text {a b : Kid} (h : a.text = b.text) : a = b := by
  cases a
  cases b
  cases h
  rfl

/-- Answers to two lists of requests are answers to each. -/
theorem forall₂_append {α β : Type} {R : α → β → Prop} {xs ys : List α} {zs : List β}
    (h : List.Forall₂ R (xs ++ ys) zs) :
    ∃ as bs, zs = as ++ bs ∧ List.Forall₂ R xs as ∧ List.Forall₂ R ys bs := by
  induction xs generalizing zs with
  | nil => exact ⟨[], zs, rfl, List.Forall₂.nil, h⟩
  | cons x xs ih =>
    obtain ⟨z, rest, hz, hrest, rfl⟩ := List.forall₂_cons_left_iff.mp h
    obtain ⟨as, bs, rfl, has, hbs⟩ := ih hrest
    exact ⟨z :: as, bs, rfl, List.Forall₂.cons hz has, hbs⟩

/-- Every list of requested keys can be answered. -/
theorem exists_answers (keys : List LoadedPublicKey) (now : CurrentTime P) :
    ∃ approvals : List (TrustApproval × CurrentTime P), AnswerKeys keys approvals := by
  induction keys with
  | nil => exact ⟨[], List.Forall₂.nil⟩
  | cons key keys ih =>
    obtain ⟨approvals, happrovals⟩ := ih
    obtain ⟨approval, happroval⟩ := exists_approval ⟨key⟩
    refine ⟨(.knownKey approval, now) :: approvals, List.Forall₂.cons ⟨rfl, ?_⟩ happrovals⟩
    rw [happroval]
    rfl

/-- The request for a recipient set is answered by the set it shows. -/
theorem exists_setAnswer {kind : TrustReviewKind} {current : ArtifactRecipientSet}
    {approved : Option RecipientSetRecord} {request : TrustReviewRequest}
    (hkind : kind ≠ .knownKey)
    (h : recipientReviewRequest kind current approved = .ok request) :
    ∃ approval, Answers request approval := by
  obtain ⟨hrequestKind, hsid⟩ := recipientReviewRequest_kind h
  exact ⟨.recipientSet ⟨current.sid, request.recipientKids, request.recipientHandleHints⟩,
    hrequestKind ▸ hkind, hsid, rfl, rfl⟩

/-- What is asked for is recorded once the answers are. -/
theorem exact_of_recorded (protect : TrustStoreProtected) {keys' : List KnownKey}
    (hasksFor : ∀ identity, asked identity →
      AsksFor keys identity)
    (hrecorded : ∀ kid handle, Recorded keys' kid handle ↔ Recorded protect.knownKeys kid handle
      ∨ ∃ key ∈ keys, kidOf key = kid ∧ handleOf key = handle) :
    (∀ identity, asked identity → ExactKnownKey keys' identity)
      ∧ ∀ identity, ExactKnownKey protect.knownKeys identity → ExactKnownKey keys' identity :=
  ⟨fun identity hasked => (hrecorded _ _).mpr (Or.inr (hasksFor identity hasked)),
    fun _ hknown => (hrecorded _ _).mpr (Or.inl hknown)⟩

/-- The answers to the recipient set part of a review leave the keys as they are. -/
theorem applySets_ok (review : Review protect again asked checked accepts keys sets)
    {answers : List (TrustApproval × CurrentTime P)}
    (hanswers : List.Forall₂ (fun request approval => Answers request approval.1) sets answers)
    (keys' : List KnownKey) :
    ∃ applied sets', applyApprovalsTo C owner { protect with knownKeys := keys' } answers
        = .ok (applied, { protect with knownKeys := keys', recipientSets := sets' })
      ∧ accepts sets' := by
  rcases review.set with ⟨rfl, haccepts⟩ |
    ⟨request, kind, approved, current, rfl, hdisplayed, hkind, hrequest, haccepts⟩
  · obtain rfl := List.forall₂_nil_left_iff.mp hanswers
    exact ⟨0, protect.recipientSets, rfl, haccepts⟩
  · obtain ⟨⟨approval, now⟩, rest, hanswer, hrest, rfl⟩ := List.forall₂_cons_left_iff.mp hanswers
    obtain rfl := List.forall₂_nil_left_iff.mp hrest
    obtain ⟨changed, sets', hupdate, haccepted⟩ := applyRecipientSet_ok (C := C) (P := P)
      hdisplayed hkind hrequest hanswer { protect with knownKeys := keys' } now
    exact ⟨changed.toNat + 0, sets', bind_eq_ok.mpr ⟨_, hupdate, rfl⟩, haccepts sets' haccepted⟩

/-- **PROGRESS OF A REVIEW**: it can be answered exactly when no identity it asks for carries the
    owner's handle, and the identities it looks at agree about the handle of an asked kid. -/
theorem satisfiable_iff (C : Crypto) (owner : MemberHandle)
    (review : Review protect again asked checked accepts keys sets) (now : CurrentTime P) :
    Satisfiable C P owner protect (keys.map knownKeyReviewRequest ++ sets) again
      ↔ (∀ identity, asked identity → identity.memberHandle ≠ owner)
        ∧ ∀ a b, asked a → checked b → a.kid = b.kid → a.memberHandle = b.memberHandle := by
  constructor
  · rintro ⟨_, hall⟩
    obtain ⟨keyAnswers, hkeyAnswers⟩ := exists_answers keys now
    have hsetAnswers : ∃ answers : List (TrustApproval × CurrentTime P),
        List.Forall₂ (fun request approval => Answers request approval.1) sets answers := by
      rcases review.set with ⟨rfl, _⟩ |
        ⟨request, kind, approved, current, rfl, _, hkind, hrequest, _⟩
      · exact ⟨[], List.Forall₂.nil⟩
      · obtain ⟨approval, happroval⟩ := exists_setAnswer hkind hrequest
        exact ⟨[(approval, now)], List.Forall₂.cons happroval List.Forall₂.nil⟩
    obtain ⟨setAnswers, hsetAnswers⟩ := hsetAnswers
    obtain ⟨applied, protect', requests', happly, hagain, _⟩ := hall (keyAnswers ++ setAnswers)
      (List.rel_append (List.forall₂_map_left_iff.mpr hkeyAnswers) hsetAnswers)
    obtain ⟨m, middle, n, hfirst, hrest, _⟩ := applyApprovalsTo_append.mp happly
    obtain ⟨howner, keys', rfl, hrecorded⟩ := recorded_of_applyKnownKeys hkeyAnswers hfirst
    obtain ⟨_, sets', hsets, _⟩ := applySets_ok (C := C) review hsetAnswers keys'
    obtain rfl : _ = protect' := (Prod.mk.inj (Except.ok.inj (hsets.symm.trans hrest))).2
    obtain ⟨hexact, _⟩ := exact_of_recorded protect review.asksFor hrecorded
    refine ⟨fun identity hasked hsame => ?_, fun a b hasked hchecked hkid => ?_⟩
    · obtain ⟨key, hkey, _, hhandle⟩ := review.asksFor identity hasked
      exact howner key hkey (hhandle.trans (congrArg MemberHandle.text hsame))
    · have hknown : Recorded keys' b.kid.text a.memberHandle.text := hkid ▸ hexact a hasked
      exact MemberHandle.ext_text (review.againAgrees _ _ hagain b hchecked _ hknown)
  · rintro ⟨howner, hagree⟩
    have hkeyOwner : ∀ key ∈ keys, handleOf key ≠ owner.text := by
      intro key hkey hsame
      obtain ⟨identity, hasked, _, hhandle⟩ := review.requested key hkey
      exact howner identity hasked (MemberHandle.ext_text (hhandle.symm.trans hsame))
    have hkeyFits : ∀ key ∈ keys, ∀ handle, Recorded protect.knownKeys (kidOf key) handle →
        handle = handleOf key := by
      intro key hkey handle hknown
      obtain ⟨identity, hasked, hkid, hhandle⟩ := review.requested key hkey
      rw [hkid] at hknown
      rw [hhandle]
      exact review.agrees identity (review.judged identity hasked) handle hknown
    have hkeyAgree : ∀ a ∈ keys, ∀ b ∈ keys, kidOf a = kidOf b → handleOf a = handleOf b := by
      intro a ha b hb hkid
      obtain ⟨first, haskedFirst, hkidFirst, hhandleFirst⟩ := review.requested a ha
      obtain ⟨second, haskedSecond, hkidSecond, hhandleSecond⟩ := review.requested b hb
      have hsame := hagree first second haskedFirst (review.judged second haskedSecond)
        (Kid.ext_text (hkidFirst.symm.trans (hkid.trans hkidSecond)))
      rw [hhandleFirst, hhandleSecond, hsame]
    refine ⟨fun request hrequest approval time hanswer => ?_, fun approvals hanswers => ?_⟩
    · rcases List.mem_append.mp hrequest with hkeyRequest | hsetRequest
      · obtain ⟨key, hkey, rfl⟩ := List.mem_map.mp hkeyRequest
        obtain ⟨approved, rfl, rfl⟩ := answers_knownKey hanswer
        obtain ⟨changed, protect', hupdate⟩ := applyKnownKeyApproval_total approved time
          (hkeyOwner _ hkey) (hkeyFits _ hkey)
        exact ⟨_, hupdate⟩
      · rcases review.set with ⟨rfl, _⟩ |
          ⟨other, kind, before, current, rfl, hdisplayed, hkind, hreview, _⟩
        · exact absurd hsetRequest List.not_mem_nil
        · obtain rfl := List.mem_singleton.mp hsetRequest
          obtain ⟨_, _, hupdate, _⟩ := applyRecipientSet_ok hdisplayed hkind hreview hanswer
            protect time
          exact ⟨_, hupdate⟩
    · obtain ⟨keyAnswers, setAnswers, rfl, hkeyAnswers, hsetAnswers⟩ := forall₂_append hanswers
      have hkeyAnswers' : AnswerKeys keys keyAnswers := List.forall₂_map_left_iff.mp hkeyAnswers
      obtain ⟨m, middle, hfirst⟩ := applyKnownKeys_ok (C := C) hkeyAnswers' hkeyOwner hkeyFits
        hkeyAgree
      obtain ⟨_, keys', rfl, hrecorded⟩ := recorded_of_applyKnownKeys hkeyAnswers' hfirst
      obtain ⟨n, sets', hsets, haccepts⟩ := applySets_ok (C := C) review hsetAnswers keys'
      obtain ⟨hexact, hkept⟩ := exact_of_recorded protect review.asksFor hrecorded
      refine ⟨m + n, _, [], applyApprovalsTo_append.mpr ⟨m, _, n, hfirst, hsets, rfl⟩,
        review.settled keys' sets' (fun identity hchecked handle hknown => ?_) hexact hkept
          haccepts, fun _ _ other hother => absurd hother List.not_mem_nil⟩
      -- what is recorded is either old or asked for, and both agree with what is looked at
      rcases (hrecorded _ _).mp hknown with hold | ⟨key, hkey, hkid, rfl⟩
      · exact review.agrees identity hchecked handle hold
      · obtain ⟨other, hasked, hotherKid, hotherHandle⟩ := review.requested key hkey
        have hsame := hagree other identity hasked hchecked
          (Kid.ext_text (hotherKid.symm.trans hkid))
        rw [hotherHandle, hsame]

end Loop

end ReviewProgress
