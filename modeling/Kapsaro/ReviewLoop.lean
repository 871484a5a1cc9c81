import Kapsaro.ReviewProgress

/-!
# Review loop — the progress of reads, writes, rewraps and new outputs

Each evaluation asks for the pending identities among those it looks at, and once they are recorded
the same evaluation asks for nothing. So its loop makes progress exactly when no pending identity
carries the executing member's own handle. Only a rewrap looks at two member lists, the one before
promotion and the one after it, and there the two also have to agree about the handles of pending
kids.

* **`ReadAsked`**, **`RewrapAsked`** — the pending identities of an evaluation.
* **`read_shape`**, **`output_shape`** — the requests are for them.
* **`read_again`**, **`output_again`** — and for nothing once they are recorded.
* **`reviewLoop_iff`** — the progress of each evaluation.
-/

namespace ReviewLoop

open JsonText JsonMembers Limits TextLines Base64Codec WireTexts WireModel DocumentTokens
open Envelope SignedArtifacts KvDocument KeyedList TrustRecords TrustStore TrustSoundness
open TrustApprovals TrustJudgment TrustPolicy TrustEvaluation SignerTrust ApprovalRecords
open ReviewStages ReviewProgress ToyCrypto ToyDocuments ToyTrust

/-! ## Evaluations under a store -/

/-- The same members, looked at with this store. -/
def withStore (evaluator : TrustPolicyEvaluator) (protect : TrustStoreProtected) :
    TrustPolicyEvaluator :=
  { evaluator with store := some protect }

/-- The content that an answer is recorded into: the store, or a new one. -/
def storeOf {P : TextParsers} (evaluator : TrustPolicyEvaluator) (owner : MemberHandle)
    (now : CurrentTime P) : TrustStoreProtected :=
  evaluator.store.getD (buildEmptyTrustStore owner now).protect

theorem knownKeys_storeOf {P : TextParsers} (evaluator : TrustPolicyEvaluator)
    (owner : MemberHandle) (now : CurrentTime P) :
    (storeOf evaluator owner now).knownKeys = evaluator.knownKeys
      ∧ (storeOf evaluator owner now).recipientSets = evaluator.recipientSets := by
  rw [storeOf, TrustPolicyEvaluator.knownKeys, TrustPolicyEvaluator.recipientSets]
  cases evaluator.store with
  | none => exact ⟨rfl, rfl⟩
  | some store => exact ⟨rfl, rfl⟩

/-- A store whose owner was checked keeps its owner while answers are recorded. -/
theorem enforceStoreOwner_again {P : TextParsers} {evaluator : TrustPolicyEvaluator}
    {keyCtx : KeyContext} (h : evaluator.enforceStoreOwner keyCtx = .ok ())
    (now : CurrentTime P) (keys' : List KnownKey) (sets' : List RecipientSetRecord) :
    (withStore evaluator { storeOf evaluator keyCtx.inner.memberHandle now with
      knownKeys := keys', recipientSets := sets' }).enforceStoreOwner keyCtx = .ok () := by
  rw [TrustPolicyEvaluator.enforceStoreOwner] at h ⊢
  rw [withStore, storeOf]
  cases hstore : evaluator.store with
  | none => exact if_pos rfl
  | some store =>
    rw [hstore] at h
    exact h

/-! ## Reads -/

/-- The active members with these kids. -/
def recipientMembers (members : CurrentMemberSnapshot) (kids : List String) :
    List LoadedPublicKey :=
  members.members.filter fun member => kidOf member ∈ kids

/-- The identities a read looks at: a signer that is not own, and the recipients that are active
    members. -/
def ReadChecked (members : CurrentMemberSnapshot) (self : SelfTrustSet)
    (signerPublicKey : Option LoadedPublicKey) (kids : List String)
    (identity : TrustIdentity) : Prop :=
  SignerJudged members signerPublicKey self identity
    ∨ KeysJudged (recipientMembers members kids) identity

/-- The identities a read asks for: the pending ones. -/
def ReadAsked (evaluator : TrustPolicyEvaluator) (self : SelfTrustSet)
    (signerPublicKey : Option LoadedPublicKey) (kids : List String)
    (identity : TrustIdentity) : Prop :=
  SignerPending evaluator signerPublicKey self identity
    ∨ (KeysJudged (recipientMembers evaluator.members kids) identity
      ∧ Pending evaluator self identity)

theorem ReadAsked.checked {evaluator : TrustPolicyEvaluator} {self : SelfTrustSet}
    {signerPublicKey : Option LoadedPublicKey} {kids : List String} {identity : TrustIdentity}
    (h : ReadAsked evaluator self signerPublicKey kids identity) :
    ReadChecked evaluator.members self signerPublicKey kids identity :=
  h.imp And.left And.left

/-- The keys a read looks up are those of the active members it is wrapped for. -/
theorem mem_subjectKeys {members : CurrentMemberSnapshot} {kids : List Kid}
    {key : LoadedPublicKey} :
    (key ∈ kids.filterMap fun kid => members.get kid.text)
      ↔ key ∈ recipientMembers members (kids.map Kid.text) := by
  rw [List.mem_filterMap, recipientMembers, List.mem_filter, decide_eq_true_eq, List.mem_map]
  constructor
  · rintro ⟨kid, hkid, hget⟩
    obtain ⟨hmem, hsame⟩ := CurrentMemberSnapshot.get_eq_some.mp hget
    exact ⟨hmem, kid, hkid, hsame.symm⟩
  · rintro ⟨hmem, kid, hkid, hsame⟩
    exact ⟨kid, hkid, CurrentMemberSnapshot.get_eq_some.mpr ⟨hmem, hsame.symm⟩⟩

theorem keysJudged_subject {members : CurrentMemberSnapshot} {kids : List Kid}
    {identity : TrustIdentity} :
    KeysJudged (kids.filterMap fun kid => members.get kid.text) identity
      ↔ KeysJudged (recipientMembers members (kids.map Kid.text)) identity :=
  exists_congr fun _ => and_congr_left fun _ => mem_subjectKeys

/-- Active members have distinct kids. -/
theorem subjectKeys_inj {members : CurrentMemberSnapshot} {kids : List Kid} :
    ∀ a ∈ kids.filterMap fun kid => members.get kid.text,
      ∀ b ∈ kids.filterMap fun kid => members.get kid.text, kidOf a = kidOf b → a = b := by
  intro a ha b hb hkid
  have ha := (List.mem_filter.mp (mem_subjectKeys.mp ha)).1
  have hb := (List.mem_filter.mp (mem_subjectKeys.mp hb)).1
  exact List.inj_on_of_nodup_map members.kids ha hb hkid

section Read

variable {C : Crypto} {evaluator : TrustPolicyEvaluator}
  {signerPublicKey : Option LoadedPublicKey} {subject : RecipientSetSubject}
  {keyCtx : KeyContext} {exceptions : ReadTrustExceptions} {requests : List TrustReviewRequest}

/-- The stages of a read. -/
theorem evaluateReadArtifact_stages :
    evaluator.evaluateReadArtifact C signerPublicKey subject keyCtx exceptions = .ok requests
      ↔ evaluator.enforceStoreOwner keyCtx = .ok ()
        ∧ ∃ judged all, evaluator.evaluateSignerWithExceptions signerPublicKey
            (buildSelfTrust C keyCtx) exceptions = .ok judged
          ∧ enforceRecipientHandleConsistency subject evaluator.members = .ok ()
          ∧ evaluator.evaluateRecipientPublicKeys
            (subject.recipientKids.filterMap fun kid => evaluator.members.get kid.text)
            (buildSelfTrust C keyCtx) judged = .ok all
          ∧ requests
            = TrustPolicyEvaluator.skipKnownKeyReview exceptions.knownKeyReview all := by
  constructor
  · intro h
    obtain ⟨⟨⟩, howner, h⟩ := bind_eq_ok.mp h
    obtain ⟨judged, hjudged, h⟩ := bind_eq_ok.mp h
    obtain ⟨⟨unresolved, all⟩, hrecipients, h⟩ := bind_eq_ok.mp h
    obtain ⟨⟨⟩, hconsistent, hrecipients⟩ := bind_eq_ok.mp hrecipients
    obtain ⟨evaluated, hevaluated, hrecipients⟩ := bind_eq_ok.mp hrecipients
    obtain rfl : evaluated = all := (Prod.mk.inj (Except.ok.inj hrecipients)).2
    exact ⟨howner, judged, evaluated, hjudged, hconsistent, hevaluated, (Except.ok.inj h).symm⟩
  · rintro ⟨howner, judged, all, hjudged, hconsistent, hevaluated, rfl⟩
    exact bind_eq_ok.mpr ⟨(), howner, bind_eq_ok.mpr ⟨judged, hjudged, bind_eq_ok.mpr
      ⟨_, bind_eq_ok.mpr ⟨(), hconsistent, bind_eq_ok.mpr ⟨all, hevaluated, rfl⟩⟩, rfl⟩⟩⟩

/-- Skipping drops all requests for keys. -/
theorem skip_keys (keys : List LoadedPublicKey) :
    TrustPolicyEvaluator.skipKnownKeyReview .skipped (keys.map knownKeyReviewRequest) = [] := by
  refine List.filter_eq_nil_iff.mpr fun request hrequest => ?_
  obtain ⟨key, _, rfl⟩ := List.mem_map.mp hrequest
  exact of_decide_eq_false rfl

/-- The requests of a read are for the identities it asks for, unless it skips them. -/
theorem read_shape
    (h : evaluator.evaluateReadArtifact C signerPublicKey subject keyCtx exceptions
      = .ok requests) :
    ∃ keys : List LoadedPublicKey, requests = keys.map knownKeyReviewRequest
      ∧ (∀ key ∈ keys, ∃ identity, (exceptions.knownKeyReview = .required
          ∧ ReadAsked evaluator (buildSelfTrust C keyCtx) signerPublicKey
            (subject.recipientKids.map Kid.text) identity)
        ∧ kidOf key = identity.kid.text ∧ handleOf key = identity.memberHandle.text)
      ∧ ∀ identity, (exceptions.knownKeyReview = .required
          ∧ ReadAsked evaluator (buildSelfTrust C keyCtx) signerPublicKey
            (subject.recipientKids.map Kid.text) identity) →
        AsksFor keys identity := by
  obtain ⟨_, judged, all, hjudged, _, hevaluated, rfl⟩ := evaluateReadArtifact_stages.mp h
  obtain ⟨asked, rfl, hsigner, hsignerAsked⟩ := evaluateSigner_shape hjudged
  obtain ⟨kept, rfl, hkeys, hkeysAsked⟩ :=
    evaluateRecipientPublicKeys_shape subjectKeys_inj hevaluated
  cases hreview : exceptions.knownKeyReview with
  | skipped =>
    exact ⟨[], skip_keys _, fun key hkey => absurd hkey List.not_mem_nil,
      fun identity hasked => by cases hasked.1⟩
  | required =>
    refine ⟨asked ++ kept, rfl, fun key hkey => ?_, ?_⟩
    · rcases List.mem_append.mp hkey with hin | hin
      · obtain ⟨identity, hpending, htext⟩ := hsigner key hin
        exact ⟨identity, ⟨rfl, Or.inl hpending⟩, htext⟩
      · obtain ⟨identity, hjudged, hpending, htext⟩ := hkeys key hin
        exact ⟨identity, ⟨rfl, Or.inr ⟨keysJudged_subject.mp hjudged, hpending⟩⟩, htext⟩
    · rintro identity ⟨_, hpending | ⟨hjudged, hpending⟩⟩
      · obtain ⟨key, hkey, htext⟩ := hsignerAsked identity hpending
        exact ⟨key, List.mem_append_left _ hkey, htext⟩
      · exact hkeysAsked identity (keysJudged_subject.mpr hjudged) hpending

/-- A read that returns agrees with the store about the identities it looks at. -/
theorem read_agrees
    (h : evaluator.evaluateReadArtifact C signerPublicKey subject keyCtx exceptions
      = .ok requests) {identity : TrustIdentity}
    (hchecked : ReadChecked evaluator.members (buildSelfTrust C keyCtx) signerPublicKey
      (subject.recipientKids.map Kid.text) identity) :
    Agrees evaluator.knownKeys identity := by
  obtain ⟨_, judged, all, hjudged, _, hevaluated, _⟩ := evaluateReadArtifact_stages.mp h
  rcases hchecked with hsigner | hkeys
  · exact agrees_of_signer hjudged hsigner
  · exact agrees_of_keys hevaluated (keysJudged_subject.mpr hkeys)

/-- The same read under a store that agrees and knows what was asked for returns no request. -/
theorem read_again {evaluator' : TrustPolicyEvaluator}
    (h : evaluator.evaluateReadArtifact C signerPublicKey subject keyCtx exceptions
      = .ok requests)
    (hmembers : evaluator'.members = evaluator.members)
    (howner : evaluator'.enforceStoreOwner keyCtx = .ok ())
    (hagrees : ∀ identity, ReadChecked evaluator.members (buildSelfTrust C keyCtx)
      signerPublicKey (subject.recipientKids.map Kid.text) identity →
        Agrees evaluator'.knownKeys identity)
    (hasked : ∀ identity, (exceptions.knownKeyReview = .required
      ∧ ReadAsked evaluator (buildSelfTrust C keyCtx) signerPublicKey
        (subject.recipientKids.map Kid.text) identity) →
          ExactKnownKey evaluator'.knownKeys identity)
    (hkept : ∀ identity, ExactKnownKey evaluator.knownKeys identity →
      ExactKnownKey evaluator'.knownKeys identity) :
    evaluator'.evaluateReadArtifact C signerPublicKey subject keyCtx exceptions = .ok [] := by
  obtain ⟨_, judged, all, hjudged, hconsistent, hevaluated, _⟩ :=
    evaluateReadArtifact_stages.mp h
  obtain ⟨asked, hsigner, hsignerNone⟩ := evaluateSigner_again hmembers hjudged
    (fun identity hsigner => hagrees identity (Or.inl hsigner)) hkept
  obtain ⟨more, hkeys, hkinds, hkeysNone⟩ := evaluateRecipientPublicKeys_again evaluator' hevaluated
    (fun identity hjudged => hagrees identity (Or.inr (keysJudged_subject.mp hjudged)))
    (asked.map knownKeyReviewRequest)
  refine evaluateReadArtifact_stages.mpr ⟨howner, _, _, hsigner, hmembers ▸ hconsistent,
    hmembers ▸ hkeys, ?_⟩
  cases hreview : exceptions.knownKeyReview with
  | skipped =>
    refine (List.filter_eq_nil_iff.mpr fun request hrequest => ?_).symm
    rcases List.mem_append.mp hrequest with hin | hin
    · obtain ⟨key, _, rfl⟩ := List.mem_map.mp hin
      exact of_decide_eq_false rfl
    · rw [hkinds request hin]
      exact of_decide_eq_false rfl
  | required =>
    rw [hsignerNone fun identity hpending => hasked identity ⟨hreview, Or.inl hpending⟩]
    rw [hkeysNone fun identity hjudged hpending => ?_]
    · rfl
    · -- a pending key was pending before, and so it was asked for
      refine hpending.2 (hasked identity ⟨hreview, Or.inr ⟨keysJudged_subject.mp hjudged,
        hpending.1, fun hexact => hpending.2 (hkept identity hexact)⟩⟩)

end Read

/-! ## Outputs -/

section Output

variable {C : Crypto} {evaluator : TrustPolicyEvaluator} {output : RecipientSetSubject}
  {recipients : RecipientKeys} {self : SelfTrustSet}

/-- The keys of an output. -/
def outputKeys (recipients : RecipientKeys) : List LoadedPublicKey :=
  recipients.keys.map VerifiedRecipientKey.toLoadedPublicKey

/-- A recipient set needs no review: it is the executing member alone, or the approved one. -/
def Accepts (evaluator : TrustPolicyEvaluator) (self : SelfTrustSet) (inner : ArtifactRecipientSet)
    (records : List RecipientSetRecord) : Prop :=
  isSelfOnlyRecipientSet inner evaluator.members self = .ok true
    ∨ judgeRecipientSet records inner = .accepted

/-- The kids of an output are those of the active members, each once. -/
theorem enforceOutputKidSetCurrent_ok {kids : List String} :
    evaluator.enforceOutputKidSetCurrent kids = .ok ()
      ↔ matchesKidSet evaluator.members kids = true ∧ kids.Nodup := by
  rw [TrustPolicyEvaluator.enforceOutputKidSetCurrent]
  by_cases h : ¬matchesKidSet evaluator.members kids ∨ ¬kids.Nodup
  · rw [if_pos h]
    exact ⟨nofun, fun hok => h.elim (absurd hok.1) (absurd hok.2)⟩
  · rw [if_neg h]
    obtain ⟨hmatch, hnodup⟩ := not_or.mp h
    exact ⟨fun _ => ⟨not_not.mp hmatch, not_not.mp hnodup⟩, fun _ => rfl⟩

/-- An output recipient's statement is the active member's. -/
theorem enforceOutputRecipientCurrent_ok {recipient : PublicKey} :
    evaluator.enforceOutputRecipientCurrent recipient = .ok ()
      ↔ ∃ member ∈ evaluator.members.members, member.document = recipient := by
  rw [TrustPolicyEvaluator.enforceOutputRecipientCurrent, judgePublicKeyMatch]
  constructor
  · intro h
    cases hget : evaluator.members.get recipient.protect.kid with
    | none => rw [hget] at h; cases h
    | some member =>
      rw [hget] at h
      by_cases hsame : member.document = recipient
      · exact ⟨member, (CurrentMemberSnapshot.get_eq_some.mp hget).1, hsame⟩
      · dsimp only at h
        rw [if_neg hsame] at h
        cases h
  · rintro ⟨member, hmem, rfl⟩
    have hget : evaluator.members.get member.document.protect.kid = some member :=
      CurrentMemberSnapshot.get_eq_some.mpr ⟨hmem, rfl⟩
    rw [hget]
    dsimp only
    rw [if_pos rfl]

/-- Keys with distinct kids are the same when their kids are. -/
theorem keys_inj {keys : List LoadedPublicKey} (h : (keys.map kidOf).Nodup) :
    ∀ a ∈ keys, ∀ b ∈ keys, kidOf a = kidOf b → a = b :=
  fun _ ha _ hb hkid => List.inj_on_of_nodup_map h ha hb hkid

theorem kids_outputKeys (recipients : RecipientKeys) :
    (outputKeys recipients).map kidOf = recipients.keys.map VerifiedRecipientKey.kid := by
  rw [outputKeys, List.map_map]
  rfl

/-- What an output's recipients state is a set as it is shown. -/
theorem displayed_output {sid : Uuid}
    (h : RecipientSetSubject.fromOutputRecipients C sid recipients = .ok output) :
    Displayed output.inner ∧ output.inner.sid = sid := by
  obtain ⟨inner, hinner, h⟩ := bind_eq_ok.mp h
  obtain ⟨kids, _, h⟩ := bind_eq_ok.mp h
  obtain ⟨base, hbase, hinner⟩ := bind_eq_ok.mp hinner
  obtain ⟨normalized, hnormalized, hbase⟩ := bind_eq_ok.mp hbase
  obtain ⟨hash, _, hbase⟩ := bind_eq_ok.mp hbase
  rw [← Except.ok.inj h, ← Except.ok.inj hinner, ← Except.ok.inj hbase]
  obtain ⟨hcanonical, hperm⟩ := normalizeRecipientKids_ok hnormalized
  refine ⟨⟨hcanonical, ?_⟩, rfl⟩
  refine ((perm_sortBy _ _).map RecipientHandleHint.kid).trans ?_
  rw [List.map_map]
  exact hperm.symm

/-- The requests of an output: those for its pending keys, and at most one for its recipients. -/
theorem output_shape {asked : List LoadedPublicKey} {requests : List TrustReviewRequest}
    (hdisplayed : Displayed output.inner)
    (h : evaluator.evaluateKvOutputRecipients output recipients self
      (asked.map knownKeyReviewRequest) = .ok requests) :
    ∃ (kept : List LoadedPublicKey) (sets : List TrustReviewRequest),
      requests = (asked ++ kept).map knownKeyReviewRequest ++ sets
      ∧ (∀ key ∈ kept, ∃ identity, (KeysJudged (outputKeys recipients) identity
          ∧ Pending evaluator self identity)
        ∧ kidOf key = identity.kid.text ∧ handleOf key = identity.memberHandle.text)
      ∧ (∀ identity, KeysJudged (outputKeys recipients) identity →
        Pending evaluator self identity → AsksFor (asked ++ kept) identity)
      ∧ ((sets = [] ∧ Accepts evaluator self output.inner evaluator.recipientSets)
        ∨ ∃ request kind approved current, sets = [request] ∧ Displayed current
          ∧ kind ≠ .knownKey ∧ recipientReviewRequest kind current approved = .ok request
          ∧ ∀ records, judgeRecipientSet records current = .accepted →
            Accepts evaluator self output.inner records) := by
  obtain ⟨hkids, _, keyed, hkeyed, hset⟩ := evaluateKvOutputRecipients_ok h
  have hnodup : ((outputKeys recipients).map kidOf).Nodup :=
    kids_outputKeys recipients ▸ (enforceOutputKidSetCurrent_ok.mp hkids).2
  obtain ⟨kept, rfl, hkept, hasked⟩ := evaluateRecipientPublicKeys_shape (keys_inj hnodup) hkeyed
  rcases evaluateArtifactRecipientSet_ok hset with
    ⟨rfl, haccepted⟩ | ⟨_, request, kind, approved, rfl, hkind, hrequest⟩
  · refine ⟨kept, [], (List.append_nil _).symm, fun key hkey => ?_, hasked,
      Or.inl ⟨rfl, haccepted⟩⟩
    obtain ⟨identity, hjudged, hpending, htext⟩ := hkept key hkey
    exact ⟨identity, ⟨hjudged, hpending⟩, htext⟩
  · refine ⟨kept, [request], rfl, fun key hkey => ?_, hasked,
      Or.inr ⟨request, kind, approved, output.inner, rfl, hdisplayed, hkind, hrequest,
        fun records haccepted => Or.inr haccepted⟩⟩
    obtain ⟨identity, hjudged, hpending, htext⟩ := hkept key hkey
    exact ⟨identity, ⟨hjudged, hpending⟩, htext⟩

theorem output_agrees {requests result : List TrustReviewRequest}
    (h : evaluator.evaluateKvOutputRecipients output recipients self requests = .ok result)
    {identity : TrustIdentity} (hjudged : KeysJudged (outputKeys recipients) identity) :
    Agrees evaluator.knownKeys identity := by
  obtain ⟨_, _, keyed, hkeyed, _⟩ := evaluateKvOutputRecipients_ok h
  exact agrees_of_keys hkeyed hjudged

/-- The same output under a store that agrees, knows its keys and accepts its recipients. -/
theorem output_again {evaluator' : TrustPolicyEvaluator} {requests result : List TrustReviewRequest}
    (h : evaluator.evaluateKvOutputRecipients output recipients self requests = .ok result)
    (hmembers : evaluator'.members = evaluator.members)
    (hagrees : ∀ identity, KeysJudged (outputKeys recipients) identity →
      Agrees evaluator'.knownKeys identity)
    (hasked : ∀ identity, KeysJudged (outputKeys recipients) identity →
      Pending evaluator self identity → ExactKnownKey evaluator'.knownKeys identity)
    (hkept : ∀ identity, ExactKnownKey evaluator.knownKeys identity →
      ExactKnownKey evaluator'.knownKeys identity)
    (haccepts : Accepts evaluator self output.inner evaluator'.recipientSets) :
    evaluator'.evaluateKvOutputRecipients output recipients self [] = .ok [] := by
  obtain ⟨hkids, hcurrent, keyed, hkeyed, hset⟩ := evaluateKvOutputRecipients_ok h
  obtain ⟨more, hkeys, _, hnone⟩ := evaluateRecipientPublicKeys_again evaluator' hkeyed hagrees []
  rw [hnone fun identity hjudged hpending => hpending.2 (hasked identity hjudged ⟨hpending.1,
    fun hexact => hpending.2 (hkept identity hexact)⟩)] at hkeys
  have hkids' : evaluator'.enforceOutputKidSetCurrent
      (recipients.keys.map VerifiedRecipientKey.kid) = .ok () := by
    rw [enforceOutputKidSetCurrent_ok, hmembers]
    exact enforceOutputKidSetCurrent_ok.mp hkids
  have hcurrent' : (recipients.keys.forM fun key =>
      evaluator'.enforceOutputRecipientCurrent key.document) = .ok () := by
    refine forM_ok.mpr fun key hkey => ?_
    rw [enforceOutputRecipientCurrent_ok, hmembers]
    exact enforceOutputRecipientCurrent_ok.mp (hcurrent key hkey)
  exact bind_eq_ok.mpr ⟨(), hkids', bind_eq_ok.mpr ⟨[], bind_eq_ok.mpr ⟨(), hcurrent', hkeys⟩,
    evaluateArtifactRecipientSet_again hmembers hset haccepts []⟩⟩

/-- A judged output key is an active member's. -/
theorem active_output {requests result : List TrustReviewRequest}
    (h : evaluator.evaluateKvOutputRecipients output recipients self requests = .ok result)
    {identity : TrustIdentity} (hjudged : KeysJudged (outputKeys recipients) identity) :
    ActiveMember evaluator.members identity := by
  obtain ⟨_, hcurrent, _⟩ := evaluateKvOutputRecipients_ok h
  obtain ⟨key, hkey, hkid, hhandle⟩ := hjudged.text
  obtain ⟨recipient, hrecipient, rfl⟩ := List.mem_map.mp hkey
  obtain ⟨member, hmem, hsame⟩ :=
    enforceOutputRecipientCurrent_ok.mp (hcurrent recipient hrecipient)
  refine ⟨member, hmem, ?_, ?_⟩
  · rw [kidOf, hsame]
    exact hkid
  · rw [hsame]
    exact hhandle

end Output

/-- Active members with one kid have one handle. -/
theorem ActiveMember.handle {members : CurrentMemberSnapshot} {a b : TrustIdentity}
    (ha : ActiveMember members a) (hb : ActiveMember members b) (hkid : a.kid = b.kid) :
    a.memberHandle = b.memberHandle := by
  obtain ⟨first, hfirst, hfirstKid, hfirstHandle⟩ := ha
  obtain ⟨second, hsecond, hsecondKid, hsecondHandle⟩ := hb
  obtain rfl := List.inj_on_of_nodup_map members.kids hfirst hsecond
    (by rw [hfirstKid, hsecondKid, hkid])
  exact MemberHandle.ext_text (hfirstHandle.symm.trans hsecondHandle)

theorem ReadChecked.active {members : CurrentMemberSnapshot} {self : SelfTrustSet}
    {signerPublicKey : Option LoadedPublicKey} {kids : List String} {identity : TrustIdentity}
    (h : ReadChecked members self signerPublicKey kids identity) :
    ActiveMember members identity := by
  rcases h with hsigner | hkeys
  · exact hsigner.2.1
  · obtain ⟨key, hkey, htext⟩ := hkeys.text
    exact ⟨key, (List.mem_filter.mp hkey).1, htext⟩

/-! ## The four loops -/

/-- The requests a decision shows. -/
def requestsOf : TrustDecision → List TrustReviewRequest
  | .trusted => []
  | .reviewRequired requests => requests

theorem requestsOf_decisionOf (requests : List TrustReviewRequest) :
    requestsOf (decisionOf requests) = requests := by
  cases requests with
  | nil => rfl
  | cons request requests => rfl

/-- A decision that shows requests was made from them. -/
theorem map_decisionOf (x : Except Error (List TrustReviewRequest)) :
    (x >>= fun requests => pure (decisionOf requests)).map requestsOf = x := by
  cases x with
  | error e => rfl
  | ok requests => exact congrArg Except.ok (requestsOf_decisionOf requests)

/-- The pending keys of an output. -/
def OutputAsked (evaluator : TrustPolicyEvaluator) (self : SelfTrustSet)
    (recipients : RecipientKeys) (identity : TrustIdentity) : Prop :=
  KeysJudged (outputKeys recipients) identity ∧ Pending evaluator self identity

/-- The pending identities of a write: the signer, and the keys of the output. -/
def MutationAsked (evaluator : TrustPolicyEvaluator) (self : SelfTrustSet)
    (signerPublicKey : Option LoadedPublicKey) (recipients : RecipientKeys)
    (identity : TrustIdentity) : Prop :=
  SignerPending evaluator signerPublicKey self identity
    ∨ OutputAsked evaluator self recipients identity

/-- The pending identities of a rewrap: those of the read of its input, unless they are skipped, and
    the keys of its output. -/
def RewrapAsked (evaluator inputEvaluator : TrustPolicyEvaluator) (self : SelfTrustSet)
    (signerPublicKey : Option LoadedPublicKey) (kids : List String) (recipients : RecipientKeys)
    (exceptions : ReadTrustExceptions) (identity : TrustIdentity) : Prop :=
  (exceptions.knownKeyReview = .required
      ∧ ReadAsked inputEvaluator self signerPublicKey kids identity)
    ∨ OutputAsked evaluator self recipients identity

/-- What a rewrap looks at: the read of its input, and the keys of its output. -/
def RewrapChecked (inputMembers : CurrentMemberSnapshot) (self : SelfTrustSet)
    (signerPublicKey : Option LoadedPublicKey) (kids : List String) (recipients : RecipientKeys)
    (identity : TrustIdentity) : Prop :=
  ReadChecked inputMembers self signerPublicKey kids identity
    ∨ KeysJudged (outputKeys recipients) identity

section Progress

variable {C : Crypto} {P : TextParsers} {evaluator : TrustPolicyEvaluator} {keyCtx : KeyContext}
  {requests : List TrustReviewRequest}

/-- The kids of a verified artifact's subject are those of its wraps. -/
theorem kids_fromVerified {artifact : VerifiedArtifact} {subject : RecipientSetSubject}
    (h : RecipientSetSubject.fromVerified C artifact = .ok subject)
    (members : CurrentMemberSnapshot) :
    recipientMembers members (subject.recipientKids.map Kid.text)
      = recipientMembers members (artifact.wrapItems.map WrapItem.kid) := by
  obtain ⟨inner, hinner, h⟩ := bind_eq_ok.mp h
  obtain ⟨kids, hkids, h⟩ := bind_eq_ok.mp h
  obtain ⟨base, hbase, hinner⟩ := bind_eq_ok.mp hinner
  obtain ⟨normalized, hnormalized, hbase⟩ := bind_eq_ok.mp hbase
  obtain ⟨hash, _, hbase⟩ := bind_eq_ok.mp hbase
  obtain ⟨hints, _, hinner⟩ := bind_eq_ok.mp hinner
  have hperm := (normalizeRecipientKids_ok hnormalized).2
  rw [← Except.ok.inj hbase] at hinner
  rw [← Except.ok.inj hinner] at hkids
  rw [← Except.ok.inj h, texts_of_fromCanonical hkids]
  refine List.filter_congr fun member _ => ?_
  exact decide_eq_decide.mpr hperm.mem_iff

/-- A write judges the signer as a read without exceptions does. -/
theorem evaluateSigner_noExceptions {signerPublicKey : Option LoadedPublicKey}
    {self : SelfTrustSet} :
    evaluator.evaluateSigner signerPublicKey self = .ok requests
      ↔ evaluator.evaluateSignerWithExceptions signerPublicKey self .none = .ok requests := by
  constructor
  · intro h
    rw [evaluateSignerWithExceptions_eq, h]
    intro message hmessage
    rw [h] at hmessage
    cases hmessage
  · intro h
    rcases evaluateSignerWithExceptions_ok h with hsigner | ⟨_, _, _, _, _, haccepted⟩
    · exact hsigner
    · cases haccepted

/-- **PROGRESS OF A READ.** -/
theorem read_progress {artifact : VerifiedArtifact} {operation : ReadOperation}
    {exceptions : ReadTrustExceptions} (now : CurrentTime P)
    (h : evaluator.evaluateReadRequests C artifact keyCtx operation exceptions = .ok requests) :
    Satisfiable C P keyCtx.inner.memberHandle
        (storeOf evaluator keyCtx.inner.memberHandle now) requests
        (fun protect => (withStore evaluator protect).evaluateReadRequests C artifact keyCtx
          operation exceptions)
      ↔ (exceptions.knownKeyReview = .required → ∀ identity,
          ReadAsked evaluator (buildSelfTrust C keyCtx) artifact.signerPublicKey
            (artifact.wrapItems.map WrapItem.kid) identity →
          identity.memberHandle ≠ keyCtx.inner.memberHandle) := by
  obtain ⟨⟨⟩, hexceptions, h⟩ := bind_eq_ok.mp h
  obtain ⟨subject, hsubject, h⟩ := bind_eq_ok.mp h
  have hkids := kids_fromVerified hsubject evaluator.members
  obtain ⟨keys, rfl, hrequested, hasksFor⟩ := read_shape h
  obtain ⟨howner, _⟩ := evaluateReadArtifact_stages.mp h
  obtain ⟨hknown, hsets⟩ := knownKeys_storeOf evaluator keyCtx.inner.memberHandle now
  have review : Review (storeOf evaluator keyCtx.inner.memberHandle now)
      (fun protect => (withStore evaluator protect).evaluateReadRequests C artifact keyCtx
        operation exceptions)
      (fun identity => exceptions.knownKeyReview = .required
        ∧ ReadAsked evaluator (buildSelfTrust C keyCtx) artifact.signerPublicKey
          (subject.recipientKids.map Kid.text) identity)
      (ReadChecked evaluator.members (buildSelfTrust C keyCtx) artifact.signerPublicKey
        (subject.recipientKids.map Kid.text)) (fun _ => True) keys [] := by
    refine ⟨hrequested, hasksFor, fun identity hasked => hasked.2.checked,
      fun identity hchecked => hknown ▸ read_agrees h hchecked, Or.inl ⟨rfl, trivial⟩, ?_, ?_⟩
    · intro protect' requests' hagain identity hchecked
      obtain ⟨⟨⟩, _, hagain⟩ := bind_eq_ok.mp hagain
      obtain ⟨subject', hsubject', hagain⟩ := bind_eq_ok.mp hagain
      obtain rfl := Except.ok.inj (hsubject.symm.trans hsubject')
      exact read_agrees hagain hchecked
    · intro keys' sets' hagrees hasked hkept _
      refine bind_eq_ok.mpr ⟨(), hexceptions, bind_eq_ok.mpr ⟨subject, hsubject, ?_⟩⟩
      rw [hknown] at hkept
      exact read_again h rfl (enforceStoreOwner_again howner now keys' sets') hagrees hasked hkept
  have hiff := satisfiable_iff C keyCtx.inner.memberHandle review now
  rw [List.append_nil] at hiff
  rw [hiff]
  constructor
  · intro hcondition hrequired identity hasked
    refine hcondition.1 identity ⟨hrequired, ?_⟩
    rw [ReadAsked, hkids]
    exact hasked
  · intro hcondition
    refine ⟨fun identity hasked => hcondition hasked.1 identity ?_, fun a b hasked hchecked => ?_⟩
    · rw [ReadAsked, ← hkids]
      exact hasked.2
    · exact ActiveMember.handle hasked.2.checked.active hchecked.active

/-- The stages of a write. -/
theorem kvMutationRequests_stages {artifact : VerifiedArtifact} {recipients : RecipientKeys} :
    evaluator.kvMutationRequests C artifact recipients keyCtx = .ok requests
      ↔ evaluator.enforceStoreOwner keyCtx = .ok ()
        ∧ evaluator.enforceMutationKeyCurrent C keyCtx = .ok ()
        ∧ ∃ input output judged, RecipientSetSubject.fromVerified C artifact = .ok input
          ∧ RecipientSetSubject.fromOutputRecipients C artifact.sid recipients = .ok output
          ∧ evaluator.evaluateSigner artifact.signerPublicKey (buildSelfTrust C keyCtx)
            = .ok judged
          ∧ evaluator.enforceArtifactRecipientsCurrent input = .ok ()
          ∧ evaluator.evaluateKvOutputRecipients output recipients (buildSelfTrust C keyCtx) judged
            = .ok requests := by
  constructor
  · intro h
    obtain ⟨⟨⟩, howner, h⟩ := bind_eq_ok.mp h
    obtain ⟨⟨⟩, hcurrent, h⟩ := bind_eq_ok.mp h
    obtain ⟨input, hinput, h⟩ := bind_eq_ok.mp h
    obtain ⟨output, houtput, h⟩ := bind_eq_ok.mp h
    obtain ⟨judged, hjudged, h⟩ := bind_eq_ok.mp h
    obtain ⟨⟨⟩, hactive, h⟩ := bind_eq_ok.mp h
    exact ⟨howner, hcurrent, input, output, judged, hinput, houtput, hjudged, hactive, h⟩
  · rintro ⟨howner, hcurrent, input, output, judged, hinput, houtput, hjudged, hactive, h⟩
    exact bind_eq_ok.mpr ⟨(), howner, bind_eq_ok.mpr ⟨(), hcurrent, bind_eq_ok.mpr
      ⟨input, hinput, bind_eq_ok.mpr ⟨output, houtput, bind_eq_ok.mpr ⟨judged, hjudged,
        bind_eq_ok.mpr ⟨(), hactive, h⟩⟩⟩⟩⟩⟩

/-- The checks of a write on the members do not look at the store. -/
theorem memberChecks_again {evaluator' : TrustPolicyEvaluator} (C : Crypto) (keyCtx : KeyContext)
    (input : RecipientSetSubject) (hmembers : evaluator'.members = evaluator.members) :
    evaluator'.enforceMutationKeyCurrent C keyCtx = evaluator.enforceMutationKeyCurrent C keyCtx
      ∧ evaluator'.enforceArtifactRecipientsCurrent input
        = evaluator.enforceArtifactRecipientsCurrent input := by
  rw [TrustPolicyEvaluator.enforceMutationKeyCurrent,
    TrustPolicyEvaluator.enforceMutationKeyCurrent,
    TrustPolicyEvaluator.enforceArtifactRecipientsCurrent,
    TrustPolicyEvaluator.enforceArtifactRecipientsCurrent, hmembers]
  exact ⟨rfl, rfl⟩

/-- What a write looks at. -/
def MutationChecked (members : CurrentMemberSnapshot) (self : SelfTrustSet)
    (signerPublicKey : Option LoadedPublicKey) (recipients : RecipientKeys)
    (identity : TrustIdentity) : Prop :=
  SignerJudged members signerPublicKey self identity
    ∨ KeysJudged (outputKeys recipients) identity

theorem mutation_agrees {artifact : VerifiedArtifact} {recipients : RecipientKeys}
    (h : evaluator.kvMutationRequests C artifact recipients keyCtx = .ok requests)
    {identity : TrustIdentity} (hchecked : MutationChecked evaluator.members
      (buildSelfTrust C keyCtx) artifact.signerPublicKey recipients identity) :
    Agrees evaluator.knownKeys identity := by
  obtain ⟨_, _, _, _, judged, _, _, hjudged, _, houtput⟩ := kvMutationRequests_stages.mp h
  rcases hchecked with hsigner | hkeys
  · exact agrees_of_signer (evaluateSigner_noExceptions.mp hjudged) hsigner
  · exact output_agrees houtput hkeys

/-- The same write under a store that agrees, knows what was asked for and accepts its recipients
    returns no request. -/
theorem mutation_again {evaluator' : TrustPolicyEvaluator} {artifact : VerifiedArtifact}
    {recipients : RecipientKeys} {output : RecipientSetSubject}
    (houtput : RecipientSetSubject.fromOutputRecipients C artifact.sid recipients = .ok output)
    (h : evaluator.kvMutationRequests C artifact recipients keyCtx = .ok requests)
    (hmembers : evaluator'.members = evaluator.members)
    (howner : evaluator'.enforceStoreOwner keyCtx = .ok ())
    (hagrees : ∀ identity, MutationChecked evaluator.members (buildSelfTrust C keyCtx)
      artifact.signerPublicKey recipients identity → Agrees evaluator'.knownKeys identity)
    (hasked : ∀ identity, MutationAsked evaluator (buildSelfTrust C keyCtx)
      artifact.signerPublicKey recipients identity → ExactKnownKey evaluator'.knownKeys identity)
    (hkept : ∀ identity, ExactKnownKey evaluator.knownKeys identity →
      ExactKnownKey evaluator'.knownKeys identity)
    (haccepts : Accepts evaluator (buildSelfTrust C keyCtx) output.inner
      evaluator'.recipientSets) :
    evaluator'.kvMutationRequests C artifact recipients keyCtx = .ok [] := by
  obtain ⟨_, hcurrent, input, output', judged, hinput, houtput', hjudged, hactive, h⟩ :=
    kvMutationRequests_stages.mp h
  obtain rfl := Except.ok.inj (houtput.symm.trans houtput')
  obtain ⟨hcurrentAgain, hactiveAgain⟩ :=
    memberChecks_again C keyCtx input hmembers
  obtain ⟨asked, hsigner, hnone⟩ := evaluateSigner_again hmembers
    (evaluateSigner_noExceptions.mp hjudged)
    (fun identity hsigner => hagrees identity (Or.inl hsigner)) hkept
  rw [hnone fun identity hpending => hasked identity (Or.inl hpending)] at hsigner
  refine kvMutationRequests_stages.mpr ⟨howner, hcurrentAgain.trans hcurrent, input, output, [],
    hinput, houtput, evaluateSigner_noExceptions.mpr hsigner, hactiveAgain.trans hactive, ?_⟩
  exact output_again h hmembers (fun identity hjudged => hagrees identity (Or.inr hjudged))
    (fun identity hjudged hpending => hasked identity (Or.inr ⟨hjudged, hpending⟩)) hkept haccepts

/-- **PROGRESS OF A WRITE.** -/
theorem mutation_progress {artifact : VerifiedArtifact} {recipients : RecipientKeys}
    (now : CurrentTime P)
    (h : evaluator.kvMutationRequests C artifact recipients keyCtx = .ok requests) :
    Satisfiable C P keyCtx.inner.memberHandle
        (storeOf evaluator keyCtx.inner.memberHandle now) requests
        (fun protect => (withStore evaluator protect).kvMutationRequests C artifact
          recipients keyCtx)
      ↔ ∀ identity, MutationAsked evaluator (buildSelfTrust C keyCtx) artifact.signerPublicKey
          recipients identity → identity.memberHandle ≠ keyCtx.inner.memberHandle := by
  obtain ⟨howner, _, _, output, judged, _, houtput, hjudged, _, hstage⟩ :=
    kvMutationRequests_stages.mp h
  obtain ⟨asked, rfl, hsigner, hsignerAsked⟩ :=
    evaluateSigner_shape (evaluateSigner_noExceptions.mp hjudged)
  obtain ⟨kept, sets, rfl, hkeys, hkeysAsked, hset⟩ :=
    output_shape (displayed_output houtput).1 hstage
  obtain ⟨hknown, hsets⟩ := knownKeys_storeOf evaluator keyCtx.inner.memberHandle now
  have hrequested : ∀ key ∈ asked ++ kept, ∃ identity,
      MutationAsked evaluator (buildSelfTrust C keyCtx) artifact.signerPublicKey recipients identity
        ∧ kidOf key = identity.kid.text ∧ handleOf key = identity.memberHandle.text := by
    intro key hkey
    rcases List.mem_append.mp hkey with hin | hin
    · obtain ⟨identity, hpending, htext⟩ := hsigner key hin
      exact ⟨identity, Or.inl hpending, htext⟩
    · obtain ⟨identity, hpending, htext⟩ := hkeys key hin
      exact ⟨identity, Or.inr hpending, htext⟩
  have hasksFor : ∀ identity, MutationAsked evaluator (buildSelfTrust C keyCtx)
      artifact.signerPublicKey recipients identity → AsksFor (asked ++ kept) identity := by
    rintro identity (hpending | ⟨hjudged, hpending⟩)
    · obtain ⟨key, hkey, htext⟩ := hsignerAsked identity hpending
      exact ⟨key, List.mem_append_left _ hkey, htext⟩
    · exact hkeysAsked identity hjudged hpending
  have review : Review (storeOf evaluator keyCtx.inner.memberHandle now)
      (fun protect => (withStore evaluator protect).kvMutationRequests C artifact recipients keyCtx)
      (MutationAsked evaluator (buildSelfTrust C keyCtx) artifact.signerPublicKey recipients)
      (MutationChecked evaluator.members (buildSelfTrust C keyCtx) artifact.signerPublicKey
        recipients)
      (Accepts evaluator (buildSelfTrust C keyCtx) output.inner) (asked ++ kept) sets := by
    refine ⟨hrequested, hasksFor, fun identity hasked => hasked.imp And.left And.left,
      fun identity hchecked => hknown ▸ mutation_agrees h hchecked, hsets.symm ▸ hset,
      fun protect' requests' hagain identity hchecked => mutation_agrees hagain hchecked, ?_⟩
    intro keys' sets' hagrees hasked hkept haccepts
    rw [hknown] at hkept
    exact mutation_again houtput h rfl (enforceStoreOwner_again howner now keys' sets') hagrees
      hasked hkept haccepts
  rw [satisfiable_iff C keyCtx.inner.memberHandle review now]
  refine and_iff_left fun a b hasked hchecked => ?_
  have hactiveOf : ∀ identity, MutationChecked evaluator.members (buildSelfTrust C keyCtx)
      artifact.signerPublicKey recipients identity → ActiveMember evaluator.members identity := by
    rintro identity (hsignerJudged | hkeysJudged)
    · exact hsignerJudged.2.1
    · exact active_output hstage hkeysJudged
  exact ActiveMember.handle (hactiveOf a (hasked.imp And.left And.left)) (hactiveOf b hchecked)

/-- The stages of the check of an output. -/
theorem preflightRewrapOutput_stages {sid : Uuid} {recipients : RecipientKeys}
    {result : List TrustReviewRequest} :
    evaluator.preflightRewrapOutput C sid recipients keyCtx requests = .ok result
      ↔ evaluator.enforceStoreOwner keyCtx = .ok ()
        ∧ evaluator.enforceMutationKeyCurrent C keyCtx = .ok ()
        ∧ ∃ output, RecipientSetSubject.fromOutputRecipients C sid recipients = .ok output
          ∧ evaluator.evaluateKvOutputRecipients output recipients (buildSelfTrust C keyCtx)
            requests = .ok result := by
  constructor
  · intro h
    obtain ⟨⟨⟩, howner, h⟩ := bind_eq_ok.mp h
    obtain ⟨⟨⟩, hcurrent, h⟩ := bind_eq_ok.mp h
    obtain ⟨output, houtput, h⟩ := bind_eq_ok.mp h
    exact ⟨howner, hcurrent, output, houtput, h⟩
  · rintro ⟨howner, hcurrent, output, houtput, h⟩
    exact bind_eq_ok.mpr ⟨(), howner, bind_eq_ok.mpr ⟨(), hcurrent, bind_eq_ok.mpr
      ⟨output, houtput, h⟩⟩⟩

theorem preflight_agrees {sid : Uuid} {recipients : RecipientKeys}
    {result : List TrustReviewRequest}
    (h : evaluator.preflightRewrapOutput C sid recipients keyCtx requests = .ok result)
    {identity : TrustIdentity} (hjudged : KeysJudged (outputKeys recipients) identity) :
    Agrees evaluator.knownKeys identity := by
  obtain ⟨_, _, output, _, houtput⟩ := preflightRewrapOutput_stages.mp h
  exact output_agrees houtput hjudged

/-- The same output under a store that agrees, knows its keys and accepts its recipients. -/
theorem preflight_again {evaluator' : TrustPolicyEvaluator} {sid : Uuid}
    {recipients : RecipientKeys} {output : RecipientSetSubject} {result : List TrustReviewRequest}
    (houtput : RecipientSetSubject.fromOutputRecipients C sid recipients = .ok output)
    (h : evaluator.preflightRewrapOutput C sid recipients keyCtx requests = .ok result)
    (hmembers : evaluator'.members = evaluator.members)
    (howner : evaluator'.enforceStoreOwner keyCtx = .ok ())
    (hagrees : ∀ identity, KeysJudged (outputKeys recipients) identity →
      Agrees evaluator'.knownKeys identity)
    (hasked : ∀ identity, OutputAsked evaluator (buildSelfTrust C keyCtx) recipients identity →
      ExactKnownKey evaluator'.knownKeys identity)
    (hkept : ∀ identity, ExactKnownKey evaluator.knownKeys identity →
      ExactKnownKey evaluator'.knownKeys identity)
    (haccepts : Accepts evaluator (buildSelfTrust C keyCtx) output.inner
      evaluator'.recipientSets) :
    evaluator'.preflightRewrapOutput C sid recipients keyCtx [] = .ok [] := by
  obtain ⟨_, hcurrent, output', houtput', h⟩ := preflightRewrapOutput_stages.mp h
  obtain rfl := Except.ok.inj (houtput.symm.trans houtput')
  obtain ⟨hcurrentAgain, _⟩ := memberChecks_again C keyCtx output hmembers
  exact preflightRewrapOutput_stages.mpr ⟨howner, hcurrentAgain.trans hcurrent, output, houtput,
    output_again h hmembers hagrees
      (fun identity hjudged hpending => hasked identity ⟨hjudged, hpending⟩) hkept haccepts⟩

/-- **PROGRESS OF A NEW OUTPUT.** -/
theorem newOutput_progress {sid : Uuid} {recipients : RecipientKeys} (now : CurrentTime P)
    (h : evaluator.preflightRewrapOutput C sid recipients keyCtx [] = .ok requests) :
    Satisfiable C P keyCtx.inner.memberHandle
        (storeOf evaluator keyCtx.inner.memberHandle now) requests
        (fun protect => (withStore evaluator protect).preflightRewrapOutput C sid recipients keyCtx
          [])
      ↔ ∀ identity, OutputAsked evaluator (buildSelfTrust C keyCtx) recipients identity →
          identity.memberHandle ≠ keyCtx.inner.memberHandle := by
  obtain ⟨howner, _, output, houtput, hstage⟩ := preflightRewrapOutput_stages.mp h
  have hnone : ([] : List LoadedPublicKey).map knownKeyReviewRequest = [] := rfl
  obtain ⟨kept, sets, rfl, hkeys, hkeysAsked, hset⟩ :=
    output_shape (displayed_output houtput).1 (hnone ▸ hstage)
  obtain ⟨hknown, hsets⟩ := knownKeys_storeOf evaluator keyCtx.inner.memberHandle now
  have review : Review (storeOf evaluator keyCtx.inner.memberHandle now)
      (fun protect => (withStore evaluator protect).preflightRewrapOutput C sid
        recipients keyCtx [])
      (OutputAsked evaluator (buildSelfTrust C keyCtx) recipients)
      (KeysJudged (outputKeys recipients))
      (Accepts evaluator (buildSelfTrust C keyCtx) output.inner) kept sets := by
    refine ⟨hkeys, fun identity hasked => hkeysAsked identity hasked.1 hasked.2,
      fun identity hasked => hasked.1,
      fun identity hjudged => hknown ▸ preflight_agrees h hjudged, hsets.symm ▸ hset,
      fun protect' requests' hagain identity hjudged => preflight_agrees hagain hjudged, ?_⟩
    intro keys' sets' hagrees hasked hkept haccepts
    rw [hknown] at hkept
    exact preflight_again houtput h rfl (enforceStoreOwner_again howner now keys' sets') hagrees
      hasked hkept haccepts
  rw [List.nil_append, satisfiable_iff C keyCtx.inner.memberHandle review now]
  refine and_iff_left fun a b hasked hjudged => ?_
  exact ActiveMember.handle (active_output hstage hasked.1) (active_output hstage hjudged)

/-- **PROGRESS OF A REWRAP**: its input is read with the members before promotion. -/
theorem rewrap_progress {inputMembers : CurrentMemberSnapshot}
    {signerPublicKey : Option LoadedPublicKey} {input : RecipientSetSubject}
    {recipients : RecipientKeys} {exceptions : ReadTrustExceptions} (now : CurrentTime P)
    (h : evaluator.rewrapRequests C ⟨inputMembers, evaluator.store⟩ signerPublicKey input recipients
      keyCtx exceptions = .ok requests) :
    Satisfiable C P keyCtx.inner.memberHandle
        (storeOf evaluator keyCtx.inner.memberHandle now) requests
        (fun protect => (withStore evaluator protect).rewrapRequests C
          ⟨inputMembers, some protect⟩ signerPublicKey input recipients keyCtx exceptions)
      ↔ (∀ identity, RewrapAsked evaluator ⟨inputMembers, evaluator.store⟩
            (buildSelfTrust C keyCtx) signerPublicKey (input.recipientKids.map Kid.text) recipients
            exceptions identity → identity.memberHandle ≠ keyCtx.inner.memberHandle)
        ∧ ∀ a b, RewrapAsked evaluator ⟨inputMembers, evaluator.store⟩ (buildSelfTrust C keyCtx)
            signerPublicKey (input.recipientKids.map Kid.text) recipients exceptions a →
          RewrapChecked inputMembers (buildSelfTrust C keyCtx) signerPublicKey
            (input.recipientKids.map Kid.text) recipients b →
          a.kid = b.kid → a.memberHandle = b.memberHandle := by
  obtain ⟨judged, hread, hpreflight⟩ := bind_eq_ok.mp h
  -- A rewrap is a read of the input and then a preflight of the output.
  obtain ⟨readKeys, rfl, hreadKeys, hreadAsked⟩ := read_shape hread
  obtain ⟨howner, _, output, houtput, hstage⟩ := preflightRewrapOutput_stages.mp hpreflight
  obtain ⟨kept, sets, rfl, hkeys, hkeysAsked, hset⟩ :=
    output_shape (displayed_output houtput).1 hstage
  obtain ⟨hknown, hsets⟩ := knownKeys_storeOf evaluator keyCtx.inner.memberHandle now
  have hinputKnown : (⟨inputMembers, evaluator.store⟩ : TrustPolicyEvaluator).knownKeys
      = evaluator.knownKeys := rfl
  have hrequested : ∀ key ∈ readKeys ++ kept, ∃ identity,
      RewrapAsked evaluator ⟨inputMembers, evaluator.store⟩ (buildSelfTrust C keyCtx)
        signerPublicKey (input.recipientKids.map Kid.text) recipients exceptions identity
        ∧ kidOf key = identity.kid.text ∧ handleOf key = identity.memberHandle.text := by
    intro key hkey
    rcases List.mem_append.mp hkey with hin | hin
    · obtain ⟨identity, hasked, htext⟩ := hreadKeys key hin
      exact ⟨identity, Or.inl hasked, htext⟩
    · obtain ⟨identity, hasked, htext⟩ := hkeys key hin
      exact ⟨identity, Or.inr hasked, htext⟩
  have hasksFor : ∀ identity, RewrapAsked evaluator ⟨inputMembers, evaluator.store⟩
      (buildSelfTrust C keyCtx) signerPublicKey (input.recipientKids.map Kid.text) recipients
        exceptions identity → AsksFor (readKeys ++ kept) identity := by
    rintro identity (hasked | ⟨hjudged, hpending⟩)
    · obtain ⟨key, hkey, htext⟩ := hreadAsked identity hasked
      exact ⟨key, List.mem_append_left _ hkey, htext⟩
    · exact hkeysAsked identity hjudged hpending
  -- Both stages are one review: it asks for the keys of the read and those of the output.
  have review : Review (storeOf evaluator keyCtx.inner.memberHandle now)
      (fun protect => (withStore evaluator protect).rewrapRequests C
        ⟨inputMembers, some protect⟩ signerPublicKey input recipients keyCtx exceptions)
      (RewrapAsked evaluator ⟨inputMembers, evaluator.store⟩ (buildSelfTrust C keyCtx)
        signerPublicKey (input.recipientKids.map Kid.text) recipients exceptions)
      (RewrapChecked inputMembers (buildSelfTrust C keyCtx) signerPublicKey
        (input.recipientKids.map Kid.text) recipients)
      (Accepts evaluator (buildSelfTrust C keyCtx) output.inner) (readKeys ++ kept) sets := by
    refine ⟨hrequested, hasksFor,
      fun identity hasked => hasked.imp (fun hread => hread.2.checked) And.left, ?_,
      hsets.symm ▸ hset, ?_, ?_⟩
    · rintro identity (hreadChecked | hjudged)
      · exact hknown ▸ hinputKnown ▸ read_agrees hread hreadChecked
      · exact hknown ▸ preflight_agrees hpreflight hjudged
    · intro protect' requests' hagain identity hchecked
      obtain ⟨judged', hread', hpreflight'⟩ := bind_eq_ok.mp hagain
      rcases hchecked with hreadChecked | hjudged
      · exact read_agrees hread' hreadChecked
      · exact preflight_agrees hpreflight' hjudged
    · intro keys' sets' hagrees hasked hkept haccepts
      -- Under the store of the answers each stage is evaluated again, and asks for nothing.
      rw [hknown] at hkept
      have hownerAgain := enforceStoreOwner_again howner now keys' sets'
      refine bind_eq_ok.mpr ⟨[], ?_, ?_⟩
      · exact read_again hread rfl hownerAgain
          (fun identity hreadChecked => hagrees identity (Or.inl hreadChecked))
          (fun identity hreadAsked => hasked identity (Or.inl hreadAsked)) hkept
      · exact preflight_again houtput hpreflight rfl hownerAgain
          (fun identity hjudged => hagrees identity (Or.inr hjudged))
          (fun identity houtputAsked => hasked identity (Or.inr houtputAsked)) hkept haccepts
  exact satisfiable_iff C keyCtx.inner.memberHandle review now

/-- The requests for a new file's recipients. -/
theorem preflightOutputRecipientKeys_stages {recipients : List LoadedPublicKey}
    {self : SelfTrustSet} :
    (evaluator.preflightOutputRecipientKeys recipients self).map requestsOf = .ok requests
      ↔ evaluator.enforceOutputKidSetCurrent (recipients.map kidOf) = .ok ()
        ∧ (∀ recipient ∈ recipients,
          evaluator.enforceOutputRecipientCurrent recipient.document = .ok ())
        ∧ evaluator.evaluateRecipientPublicKeys recipients self [] = .ok requests := by
  constructor
  · intro h
    obtain ⟨decision, h, hrequests⟩ := map_eq_ok.mp h
    obtain ⟨⟨⟩, hkids, h⟩ := bind_eq_ok.mp h
    obtain ⟨⟨⟩, hcurrent, h⟩ := bind_eq_ok.mp h
    obtain ⟨all, hall, h⟩ := bind_eq_ok.mp h
    rw [← Except.ok.inj h, requestsOf_decisionOf] at hrequests
    exact ⟨hkids, forM_ok.mp hcurrent, hrequests ▸ hall⟩
  · rintro ⟨hkids, hcurrent, hall⟩
    refine map_eq_ok.mpr ⟨decisionOf requests, ?_, requestsOf_decisionOf requests⟩
    exact bind_eq_ok.mpr ⟨(), hkids, bind_eq_ok.mpr ⟨(), forM_ok.mpr hcurrent, bind_eq_ok.mpr
      ⟨requests, hall, rfl⟩⟩⟩

/-- **PROGRESS OF A NEW FILE.** -/
theorem newFile_progress {owner : MemberHandle} {recipients : List LoadedPublicKey}
    {self : SelfTrustSet} (now : CurrentTime P)
    (h : (evaluator.preflightOutputRecipientKeys recipients self).map requestsOf = .ok requests) :
    Satisfiable C P owner (storeOf evaluator owner now) requests
        (fun protect => ((withStore evaluator protect).preflightOutputRecipientKeys recipients
          self).map requestsOf)
      ↔ ∀ identity, KeysJudged recipients identity → Pending evaluator self identity →
          identity.memberHandle ≠ owner := by
  obtain ⟨hkids, hcurrent, hall⟩ := preflightOutputRecipientKeys_stages.mp h
  have hinj := keys_inj (enforceOutputKidSetCurrent_ok.mp hkids).2
  have hnone : ([] : List LoadedPublicKey).map knownKeyReviewRequest = [] := rfl
  obtain ⟨kept, rfl, hkept, hasked⟩ := evaluateRecipientPublicKeys_shape hinj (hnone ▸ hall)
  obtain ⟨hknown, _⟩ := knownKeys_storeOf evaluator owner now
  have review : Review (storeOf evaluator owner now)
      (fun protect => ((withStore evaluator protect).preflightOutputRecipientKeys recipients
        self).map requestsOf)
      (fun identity => KeysJudged recipients identity ∧ Pending evaluator self identity)
      (KeysJudged recipients) (fun _ => True) kept [] := by
    refine ⟨fun key hkey => ?_, fun identity hpending => hasked identity hpending.1 hpending.2,
      fun identity hpending => hpending.1,
      fun identity hjudged => hknown ▸ agrees_of_keys hall hjudged, Or.inl ⟨rfl, trivial⟩, ?_, ?_⟩
    · obtain ⟨identity, hjudged, hpending, htext⟩ := hkept key hkey
      exact ⟨identity, ⟨hjudged, hpending⟩, htext⟩
    · intro protect' requests' hagain identity hjudged
      obtain ⟨_, _, hallAgain⟩ := preflightOutputRecipientKeys_stages.mp hagain
      exact agrees_of_keys hallAgain hjudged
    · intro keys' sets' hagrees hrecorded hkeptKnown _
      rw [hknown] at hkeptKnown
      obtain ⟨more, hkeys, _, hempty⟩ := evaluateRecipientPublicKeys_again
        (withStore evaluator { storeOf evaluator owner now with
          knownKeys := keys', recipientSets := sets' }) hall hagrees []
      refine preflightOutputRecipientKeys_stages.mpr ⟨hkids, hcurrent, ?_⟩
      rw [hkeys, hempty fun identity hjudged hpending => ?_, List.append_nil]
      exact hpending.2 (hrecorded identity ⟨hjudged, hpending.1,
        fun hexact => hpending.2 (hkeptKnown identity hexact)⟩)
  have hiff := satisfiable_iff C owner review now
  rw [List.append_nil] at hiff
  rw [List.nil_append, hiff]
  constructor
  · intro hcondition identity hjudged hpending
    exact hcondition.1 identity ⟨hjudged, hpending⟩
  · intro hcondition
    refine ⟨fun identity hpending => hcondition identity hpending.1 hpending.2, ?_⟩
    intro a b hasked hjudged hkid
    obtain ⟨first, hfirst, hfirstKid, hfirstHandle⟩ := hasked.1.text
    obtain ⟨second, hsecond, hsecondKid, hsecondHandle⟩ := hjudged.text
    obtain rfl := hinj first hfirst second hsecond (by rw [hfirstKid, hsecondKid, hkid])
    exact MemberHandle.ext_text (hfirstHandle.symm.trans hsecondHandle)

end Progress

/-- **PROGRESS OF THE REVIEW LOOP**: what an evaluation asks for can be recorded, and is not asked
    for again, exactly when no pending identity carries the executing member's own handle; and for a
    rewrap when besides the members before and after promotion agree about pending kids. -/
theorem reviewLoop_iff (C : Crypto) {P : TextParsers} (now : CurrentTime P)
    (evaluator : TrustPolicyEvaluator) (keyCtx : KeyContext) :
    (∀ artifact operation exceptions decision,
      evaluator.evaluateRead C artifact keyCtx operation exceptions = .ok decision →
        (Satisfiable C P keyCtx.inner.memberHandle
            (storeOf evaluator keyCtx.inner.memberHandle now) (requestsOf decision)
            (fun protect => ((withStore evaluator protect).evaluateRead C artifact keyCtx operation
              exceptions).map requestsOf)
          ↔ (exceptions.knownKeyReview = .required → ∀ identity,
              ReadAsked evaluator (buildSelfTrust C keyCtx) artifact.signerPublicKey
                (artifact.wrapItems.map WrapItem.kid) identity →
              identity.memberHandle ≠ keyCtx.inner.memberHandle)))
    ∧ (∀ artifact recipients decision,
      evaluator.evaluateKvMutation C artifact recipients keyCtx = .ok decision →
        (Satisfiable C P keyCtx.inner.memberHandle
            (storeOf evaluator keyCtx.inner.memberHandle now) (requestsOf decision)
            (fun protect => ((withStore evaluator protect).evaluateKvMutation C artifact recipients
              keyCtx).map requestsOf)
          ↔ ∀ identity, MutationAsked evaluator (buildSelfTrust C keyCtx)
              artifact.signerPublicKey recipients identity →
              identity.memberHandle ≠ keyCtx.inner.memberHandle))
    ∧ (∀ sid recipients decision,
      evaluator.evaluateNewKvOutput C sid recipients keyCtx = .ok decision →
        (Satisfiable C P keyCtx.inner.memberHandle
            (storeOf evaluator keyCtx.inner.memberHandle now) (requestsOf decision)
            (fun protect => ((withStore evaluator protect).evaluateNewKvOutput C sid recipients
              keyCtx).map requestsOf)
          ↔ ∀ identity, OutputAsked evaluator (buildSelfTrust C keyCtx) recipients identity →
              identity.memberHandle ≠ keyCtx.inner.memberHandle))
    ∧ (∀ (owner : MemberHandle) recipients self decision,
      evaluator.preflightOutputRecipientKeys recipients self = .ok decision →
        (Satisfiable C P owner (storeOf evaluator owner now) (requestsOf decision)
            (fun protect => ((withStore evaluator protect).preflightOutputRecipientKeys recipients
              self).map requestsOf)
          ↔ ∀ identity, KeysJudged recipients identity → Pending evaluator self identity →
              identity.memberHandle ≠ owner))
    ∧ ∀ inputMembers signerPublicKey input recipients exceptions requests,
      evaluator.rewrapRequests C ⟨inputMembers, evaluator.store⟩ signerPublicKey input recipients
          keyCtx exceptions = .ok requests →
        (Satisfiable C P keyCtx.inner.memberHandle
            (storeOf evaluator keyCtx.inner.memberHandle now) requests
            (fun protect => (withStore evaluator protect).rewrapRequests C
              ⟨inputMembers, some protect⟩ signerPublicKey input recipients keyCtx exceptions)
          ↔ (∀ identity, RewrapAsked evaluator ⟨inputMembers, evaluator.store⟩
                (buildSelfTrust C keyCtx) signerPublicKey (input.recipientKids.map Kid.text)
                recipients exceptions identity →
              identity.memberHandle ≠ keyCtx.inner.memberHandle)
            ∧ ∀ a b, RewrapAsked evaluator ⟨inputMembers, evaluator.store⟩
                (buildSelfTrust C keyCtx) signerPublicKey (input.recipientKids.map Kid.text)
                recipients exceptions a →
              RewrapChecked inputMembers (buildSelfTrust C keyCtx) signerPublicKey
                (input.recipientKids.map Kid.text) recipients b →
              a.kid = b.kid → a.memberHandle = b.memberHandle) := by
  refine ⟨?_, ?_, ?_, ?_, fun _ _ _ _ _ _ h => rewrap_progress now h⟩
  -- An evaluation turns its requests into a decision, and the loop is about the requests.
  · intro artifact operation exceptions decision h
    obtain ⟨requests, hrequests, hdecision⟩ := bind_eq_ok.mp h
    rw [← Except.ok.inj hdecision, requestsOf_decisionOf]
    have hmap : ∀ protect, ((withStore evaluator protect).evaluateRead C artifact keyCtx operation
        exceptions).map requestsOf = (withStore evaluator protect).evaluateReadRequests C artifact
          keyCtx operation exceptions := fun _ => map_decisionOf _
    simp only [hmap]
    exact read_progress now hrequests
  · intro artifact recipients decision h
    obtain ⟨requests, hrequests, hdecision⟩ := bind_eq_ok.mp h
    rw [← Except.ok.inj hdecision, requestsOf_decisionOf]
    have hmap : ∀ protect, ((withStore evaluator protect).evaluateKvMutation C artifact recipients
        keyCtx).map requestsOf = (withStore evaluator protect).kvMutationRequests C artifact
          recipients keyCtx := fun _ => map_decisionOf _
    simp only [hmap]
    exact mutation_progress now hrequests
  · intro sid recipients decision h
    obtain ⟨requests, hrequests, hdecision⟩ := bind_eq_ok.mp h
    rw [← Except.ok.inj hdecision, requestsOf_decisionOf]
    have hmap : ∀ protect, ((withStore evaluator protect).evaluateNewKvOutput C sid recipients
        keyCtx).map requestsOf = (withStore evaluator protect).preflightRewrapOutput C sid
          recipients keyCtx [] := fun _ => map_decisionOf _
    simp only [hmap]
    exact newOutput_progress now hrequests
  · intro owner recipients self decision h
    have hrequests : (evaluator.preflightOutputRecipientKeys recipients self).map requestsOf
        = .ok (requestsOf decision) := map_eq_ok.mpr ⟨decision, h, rfl⟩
    exact newFile_progress now hrequests

/-! ## A key under one's own handle -/

/-- Alice and bob are active. -/
def aliceAndBob : CurrentMemberSnapshot where
  members := [(toyMember alice toyKid [1]).toLoadedPublicKey,
    (toyMember bob bobKid [2]).toLoadedPublicKey]
  sorted := List.pairwise_pair.mpr (by
    show toyKid.text ≤ bobKid.text
    decide)
  kids := by
    show [toyKid.text, bobKid.text].Nodup
    decide

/-- The file of alice in the active members has been replaced: it holds a key that is not hers. -/
def aliceReplaced : CurrentMemberSnapshot where
  members := [(toyMember alice bobKid [2]).toLoadedPublicKey]
  sorted := List.pairwise_singleton _ _
  kids := List.nodup_singleton _

/-- Alice's key, with a keystore that has no other. -/
def toyKeystoreContext : KeyContext :=
  ⟨toyContext alice toyKid [1], some fun _ kid => .error (.notFound s!"kid '{kid.text}'")⟩

/-- What alice signed for a second key. -/
def artifactForSecond (second : MemberHandle) : VerifiedArtifact :=
  ⟨some (toyMember alice toyKid [1]).toLoadedPublicKey, toySid,
    [⟨second.text, bobKid.text, "", "", ""⟩]⟩

/-- The read of what she signed for bob. -/
def readForBob (store : Option TrustStoreProtected) : Except Error TrustDecision :=
  TrustPolicyEvaluator.evaluateRead toyCrypto ⟨aliceAndBob, store⟩ (artifactForSecond bob)
    toyKeystoreContext .fileDecrypt .none

/-- And of what she signed for herself, under the kid in her file. -/
def readReplaced (store : Option TrustStoreProtected) : Except Error TrustDecision :=
  TrustPolicyEvaluator.evaluateRead toyCrypto ⟨aliceReplaced, store⟩ (artifactForSecond alice)
    toyKeystoreContext .fileDecrypt .none

theorem readForBob_none : readForBob none
    = .ok (.reviewRequired [knownKeyReviewRequest
      (toyMember bob bobKid [2]).toLoadedPublicKey]) := by
  decide +kernel

/-- The read for bob is about bob's key. -/
theorem bob_of_readAsked {identity : TrustIdentity}
    (h : ReadAsked ⟨aliceAndBob, none⟩ (buildSelfTrust toyCrypto toyKeystoreContext)
      (artifactForSecond bob).signerPublicKey
      ((artifactForSecond bob).wrapItems.map WrapItem.kid) identity) :
    identity.memberHandle = bob := by
  rcases h with ⟨⟨hsigned, _, hown⟩, _⟩ | ⟨hjudged, _⟩
  · obtain rfl := hsigned.unique ⟨_, rfl, fromPublicKey_toy alice toyKid [1]⟩
    have hself : (buildSelfTrust toyCrypto toyKeystoreContext).containsIdentity
        (toyIdentity alice toyKid [1]) = .ok true := by decide +kernel
    rw [hself] at hown
    cases hown
  · obtain ⟨key, hkey, hkid, hhandle⟩ := hjudged.text
    obtain ⟨hmem, hsecond⟩ := List.mem_filter.mp hkey
    have hsecond : kidOf key = bobKid.text := List.mem_singleton.mp (of_decide_eq_true hsecond)
    rcases List.mem_cons.mp hmem with rfl | hrest
    · exact absurd hsecond (by decide)
    · obtain rfl := List.mem_singleton.mp hrest
      exact MemberHandle.ext_text hhandle.symm

/-- Bob's key, which alice does not know yet, can be recorded, and then the read is trusted. -/
theorem reviewLoop_iff_toy :
    Satisfiable toyCrypto toyParsers alice (storeOf ⟨aliceAndBob, none⟩ alice toyNow)
      [knownKeyReviewRequest (toyMember bob bobKid [2]).toLoadedPublicKey]
      (fun protect => (readForBob (some protect)).map requestsOf) := by
  refine ((reviewLoop_iff toyCrypto toyNow ⟨aliceAndBob, none⟩ toyKeystoreContext).1
    (artifactForSecond bob) .fileDecrypt .none _ readForBob_none).mpr fun _ identity hasked => ?_
  rw [bob_of_readAsked hasked]
  decide

/-- **A KEY THAT CANNOT BE ANSWERED**: the active member file with alice's handle holds a key that
    is not in her keystore. Reading what is wrapped for it asks her to review that key, and her
    store refuses the answer. -/
theorem foreignKey_unsatisfiable : ∃ decision, readReplaced none = .ok decision
    ∧ ¬Satisfiable toyCrypto toyParsers alice (storeOf ⟨aliceReplaced, none⟩ alice toyNow)
      (requestsOf decision) (fun protect => (readReplaced (some protect)).map requestsOf) := by
  have hread : readReplaced none = .ok (.reviewRequired
      [knownKeyReviewRequest (toyMember alice bobKid [2]).toLoadedPublicKey]) := by
    decide +kernel
  refine ⟨_, hread, fun hsatisfiable => ?_⟩
  obtain ⟨approval, happroval⟩ := exists_approval ⟨(toyMember alice bobKid [2]).toLoadedPublicKey⟩
  have hanswers : Answers (knownKeyReviewRequest (toyMember alice bobKid [2]).toLoadedPublicKey)
      (.knownKey approval) := ⟨rfl, happroval ▸ rfl⟩
  obtain ⟨⟨changed, protect'⟩, hupdate⟩ :=
    hsatisfiable.1 _ List.mem_cons_self (.knownKey approval) toyNow hanswers
  obtain ⟨howner, _⟩ := applyKnownKeyApproval_ok hupdate
  rw [happroval] at howner
  exact howner rfl

end ReviewLoop
