import Kapsaro.MemberRuns

/-!
# Promotion retry — what a promotion that was stopped leaves for the next one

`load_incoming_index` of `service/rewrap/plan.rs` reviews the incoming members again; the
promotion of what is left then runs the checks of `io/workspace/members/promotion.rs` on it.

* **`reviewIncomingMembers`** — one snapshot for each incoming document.
* **`PromotableBatch`**, **`stopped`** — a reviewed batch that an uninterrupted promotion accepts,
  and the store once so many of its file steps took effect.
* **`Recovers`** — reviewing and promoting again ends where an uninterrupted promotion does, and
  saves are not held up.
* **`stuck_promotion`**, **`stuck_save`** — with a document in both places, nothing is accepted
  any more but replacing one of the two copies.
* **`recovers_iff`** — exactly the cuts between two members are recovered from.
-/

namespace PromotionRetry

open JsonText JsonMembers JsonRecords JsonLimits Limits TextLines WireTexts WireModel
open DocumentTokens TrustDocument TrustEvaluation MemberStore MemberOperations MemberInvariants
open MemberRuns ToyCrypto ToyDocuments

/-! ## Reviewing incoming members -/

structure IncomingSnapshot where
  sourceContent : String
  destination : PromotionDestinationState
  publicKey : PublicKey

/-- One incoming document with the active document it would replace. -/
def loadIncomingSnapshot (s : Members) (name : String) :
    Except Error (String × IncomingSnapshot) := do
  let document ← loadVerifiedMemberDocumentAt s .incoming name
  let memberHandle := document.publicKey.protect.subjectHandle
  let destination ← loadDestinationState s (memberFileName memberHandle)
  pure (memberHandle, ⟨document.content, destination, document.publicKey⟩)

/-- Every incoming document together with the active document it would replace. -/
def loadIncomingIndex (s : Members) : Except Error (List (String × IncomingSnapshot)) :=
  (loadMemberDocumentNamesAt s.incoming).mapM (loadIncomingSnapshot s)

/-- What a promotion is given of a reviewed document. -/
def promotionSnapshot (entry : String × IncomingSnapshot) : IncomingMemberPromotionSnapshot where
  memberHandle := entry.1
  kid := entry.2.publicKey.protect.kid
  sourceContent := entry.2.sourceContent
  destination := entry.2.destination

def reviewIncomingMembers (s : Members) : Except Error (List IncomingMemberPromotionSnapshot) :=
  (loadIncomingIndex s).map fun index => index.map promotionSnapshot

/-- The snapshot of one incoming document. -/
def reviewMember (s : Members) (name : String) : Except Error IncomingMemberPromotionSnapshot :=
  (loadIncomingSnapshot s name).map promotionSnapshot

theorem mem_incomingNames {s : Members} {name : String} :
    name ∈ loadMemberDocumentNamesAt s.incoming ↔
      hasMemberDocumentExtension name = true ∧ (s.find .incoming name).isSome = true := by
  rw [loadMemberDocumentNamesAt, List.mem_filter, Finset.mem_sort, Finmap.mem_keys,
    Members.find, Finmap.lookup_isSome]
  exact And.comm

/-- A review holds the snapshot of each incoming document, and no other. -/
theorem mem_reviewed {s : Members} {reviewed : List IncomingMemberPromotionSnapshot}
    (h : reviewIncomingMembers s = .ok reviewed) {snapshot : IncomingMemberPromotionSnapshot} :
    snapshot ∈ reviewed ↔ ∃ name, hasMemberDocumentExtension name = true
      ∧ (s.find .incoming name).isSome = true ∧ reviewMember s name = .ok snapshot := by
  obtain ⟨index, hindex, rfl⟩ := map_eq_ok.mp h
  rw [List.mem_map]
  constructor
  · rintro ⟨entry, hentry, rfl⟩
    obtain ⟨name, hname, hloaded⟩ := (mem_of_mapM_ok hindex).mp hentry
    obtain ⟨hdocument, hfound⟩ := mem_incomingNames.mp hname
    exact ⟨name, hdocument, hfound, map_eq_ok.mpr ⟨entry, hloaded, rfl⟩⟩
  · rintro ⟨name, hdocument, hfound, hsnapshot⟩
    obtain ⟨entry, hentry, rfl⟩ := map_eq_ok.mp hsnapshot
    exact ⟨entry, (mem_of_mapM_ok hindex).mpr
      ⟨name, mem_incomingNames.mpr ⟨hdocument, hfound⟩, hentry⟩, rfl⟩

/-- A review succeeds when each incoming document can be reviewed. -/
theorem exists_reviewed {s : Members}
    (h : ∀ name, hasMemberDocumentExtension name = true → (s.find .incoming name).isSome = true →
      ∃ snapshot, reviewMember s name = .ok snapshot) :
    ∃ reviewed, reviewIncomingMembers s = .ok reviewed := by
  have hindex : ∃ index, loadIncomingIndex s = .ok index := by
    refine exists_mapM_ok.mpr fun name hname => ?_
    obtain ⟨hdocument, hfound⟩ := mem_incomingNames.mp hname
    obtain ⟨snapshot, hsnapshot⟩ := h name hdocument hfound
    obtain ⟨entry, hentry, -⟩ := map_eq_ok.mp hsnapshot
    exact ⟨entry, hentry⟩
  obtain ⟨index, hindex⟩ := hindex
  exact ⟨_, map_eq_ok.mpr ⟨index, hindex, rfl⟩⟩

/-- Each incoming document of a review could be reviewed. -/
theorem reviewMember_of_reviewed {s : Members} {reviewed : List IncomingMemberPromotionSnapshot}
    (h : reviewIncomingMembers s = .ok reviewed) {name : String}
    (hname : hasMemberDocumentExtension name = true)
    (hfound : (s.find .incoming name).isSome = true) :
    ∃ snapshot, reviewMember s name = .ok snapshot := by
  obtain ⟨index, hindex, -⟩ := map_eq_ok.mp h
  obtain ⟨entry, hentry⟩ := exists_mapM_ok.mp ⟨index, hindex⟩ name
    (mem_incomingNames.mpr ⟨hname, hfound⟩)
  exact ⟨promotionSnapshot entry, map_eq_ok.mpr ⟨entry, hentry, rfl⟩⟩

/-- What a reviewed snapshot says about the store. -/
structure ReviewedFrom (s : Members) (name : String) (snapshot : IncomingMemberPromotionSnapshot)
    (key : PublicKey) : Prop where
  name : name = memberFileName snapshot.memberHandle
  holds : SnapshotHolds s snapshot
  document : readDocument (utf8 snapshot.sourceContent) = some key
  kid : snapshot.kid = key.protect.kid
  subject : key.protect.subjectHandle = snapshot.memberHandle

/-- A snapshot says what its document and its destination are. -/
theorem reviewMember_ok {s : Members} {name : String}
    (hname : hasMemberDocumentExtension name = true)
    {snapshot : IncomingMemberPromotionSnapshot} (h : reviewMember s name = .ok snapshot) :
    ∃ key, ReviewedFrom s name snapshot key := by
  obtain ⟨entry, hentry, rfl⟩ := map_eq_ok.mp h
  obtain ⟨document, hdocument, hentry⟩ := bind_eq_ok.mp hentry
  obtain ⟨destination, hdestination, hentry⟩ := bind_eq_ok.mp hentry
  obtain rfl := Except.ok.inj hentry
  obtain ⟨hchild, hbytes, hsize, hread, hsubject⟩ := loadVerifiedMemberDocumentAt_ok hdocument
  have hfile : name = memberFileName document.publicKey.protect.subjectHandle := by
    rw [hsubject]
    exact (memberFileName_fileStem hname).symm
  refine ⟨document.publicKey, hfile, ⟨?_, ?_, hsize, hdestination⟩, hread, rfl, rfl⟩
  · exact hfile ▸ hchild
  · exact hfile ▸ hbytes

/-- A review names each member once. -/
theorem nodup_reviewed {s : Members} {reviewed : List IncomingMemberPromotionSnapshot}
    (h : reviewIncomingMembers s = .ok reviewed) :
    (reviewed.map fun snapshot => memberFileName snapshot.memberHandle).Nodup := by
  obtain ⟨index, hindex, rfl⟩ := map_eq_ok.mp h
  have hnames : ∀ (names : List String) (index : List (String × IncomingSnapshot)),
      (∀ name ∈ names, hasMemberDocumentExtension name = true) →
      List.Forall₂ (fun name entry => loadIncomingSnapshot s name = .ok entry) names index →
      (index.map promotionSnapshot).map (fun snapshot => memberFileName snapshot.memberHandle)
        = names := by
    intro names index hdocuments hentries
    induction hentries with
    | nil => rfl
    | cons hentry _ ih =>
      obtain ⟨key, hfrom⟩ := reviewMember_ok (hdocuments _ List.mem_cons_self)
        (map_eq_ok.mpr ⟨_, hentry, rfl⟩)
      rw [List.map_cons, List.map_cons,
        ih fun name hname => hdocuments name (List.mem_cons_of_mem _ hname), ← hfrom.name]
  rw [hnames _ index (fun name hname => (mem_incomingNames.mp hname).1) (mapM_ok.mp hindex)]
  exact (Finset.sort_nodup _ _).filter _

/-- Reading a document asks for nothing but its file. -/
theorem loadVerifiedMemberDocumentAt_congr {s t : Members} {status : MemberStatus} {name : String}
    (h : t.find status name = s.find status name) :
    loadVerifiedMemberDocumentAt t status name = loadVerifiedMemberDocumentAt s status name := by
  rw [loadVerifiedMemberDocumentAt, loadMemberDocumentAt, loadTextWithLimitAt, h]
  rfl

theorem loadDestinationState_congr {s t : Members} {name : String}
    (h : t.find .active name = s.find .active name) :
    loadDestinationState t name = loadDestinationState s name := by
  rw [loadDestinationState, h]
  rfl

/-- Where both files of a member are as before, its review is. -/
theorem reviewMember_congr {s t : Members} {name : String}
    (hname : hasMemberDocumentExtension name = true)
    {snapshot : IncomingMemberPromotionSnapshot} (h : reviewMember s name = .ok snapshot)
    (hsame : ∀ status, t.find status name = s.find status name) :
    reviewMember t name = .ok snapshot := by
  obtain ⟨key, hreviewed⟩ := reviewMember_ok hname h
  obtain ⟨entry, hentry, rfl⟩ := map_eq_ok.mp h
  refine map_eq_ok.mpr ⟨entry, ?_, rfl⟩
  obtain ⟨document, hdocument, hentry⟩ := bind_eq_ok.mp hentry
  obtain ⟨destination, hdestination, hentry⟩ := bind_eq_ok.mp hentry
  have hfile : memberFileName document.publicKey.protect.subjectHandle = name := by
    rw [(loadVerifiedMemberDocumentAt_ok hdocument).2.2.2.2]
    exact memberFileName_fileStem hname
  refine bind_eq_ok.mpr ⟨document, ?_, bind_eq_ok.mpr ⟨destination, ?_, hentry⟩⟩
  · rw [loadVerifiedMemberDocumentAt_congr (hsame .incoming)]
    exact hdocument
  · have hkept := hsame .active
    rw [← hfile] at hkept
    exact (loadDestinationState_congr hkept).trans hdestination

/-! ## Batches and cuts -/

/-- A reviewed batch that makes at least one file step and that a promotion without a fault
    promotes. -/
structure PromotableBatch (s : Members) (batch : List IncomingMemberPromotionSnapshot) : Prop where
  nonempty : batch ≠ []
  reviewed : ∃ reviewed, reviewIncomingMembers s = .ok reviewed ∧ ∀ snapshot ∈ batch,
    snapshot ∈ reviewed
  promotes : ((MemberOperation.promote batch).run s none).2
    = .ok (.promoted (batch.map (·.memberHandle)))

/-- The store an uninterrupted promotion leaves. -/
def uninterrupted (s : Members) (batch : List IncomingMemberPromotionSnapshot) : Members :=
  ((MemberOperation.promote batch).run s none).1

/-- The store once so many file steps of the promotion took effect. -/
def stopped (s : Members) (batch : List IncomingMemberPromotionSnapshot) (fault : FileFault) :
    Members :=
  ((MemberOperation.promote batch).run s (some fault)).1

/-- The members of the batch that a second review still finds. -/
def batchAgain (batch reviewed : List IncomingMemberPromotionSnapshot) :
    List IncomingMemberPromotionSnapshot :=
  reviewed.filter fun snapshot => decide (snapshot.memberHandle ∈ batch.map (·.memberHandle))

/-- Reviewing and promoting again ends where the uninterrupted promotion does, and every member
    whose kid no other document has can be saved. -/
structure Recovers (s : Members) (batch : List IncomingMemberPromotionSnapshot)
    (left : Members) : Prop where
  again : ∃ reviewed, reviewIncomingMembers left = .ok reviewed
    ∧ (MemberOperation.promote (batchAgain batch reviewed)).run left none
      = (uninterrupted s batch,
        .ok (.promoted ((batchAgain batch reviewed).map (·.memberHandle))))
  saves : ∀ status memberHandle content key, readDocument (utf8 content) = some key →
    key.protect.subjectHandle = memberHandle →
    (∀ p other, IsDocument left p other → other.protect.kid = key.protect.kid →
      p = .ofHandle status memberHandle) →
    ∃ outcome, ((MemberOperation.saveKeeping status memberHandle content true).run left none).2
      = .ok outcome

section Cuts

variable {s : Members} {batch : List IncomingMemberPromotionSnapshot}

/-- Every snapshot of a batch was reviewed. -/
theorem PromotableBatch.from_review (h : PromotableBatch s batch)
    {snapshot : IncomingMemberPromotionSnapshot} (hmem : snapshot ∈ batch) :
    ∃ key, ReviewedFrom s (memberFileName snapshot.memberHandle) snapshot key
      ∧ hasMemberDocumentExtension (memberFileName snapshot.memberHandle) = true
      ∧ reviewMember s (memberFileName snapshot.memberHandle) = .ok snapshot := by
  obtain ⟨reviewed, hreviewed, hall⟩ := h.reviewed
  obtain ⟨name, hname, -, hsnapshot⟩ := (mem_reviewed hreviewed).mp (hall snapshot hmem)
  obtain ⟨key, hfrom⟩ := reviewMember_ok hname hsnapshot
  obtain rfl := hfrom.name
  exact ⟨key, hfrom, hname, hsnapshot⟩

/-- Snapshots of a review carry the kid of their content. -/
theorem PromotableBatch.carry (h : PromotableBatch s batch) : CarryKids batch := by
  intro snapshot hmem
  obtain ⟨key, hfrom, -⟩ := h.from_review hmem
  exact ⟨key, hfrom.document, hfrom.kid.symm⟩

/-- What an accepted batch has checked, and the steps it makes. -/
theorem PromotableBatch.plan (h : PromotableBatch s batch) :
    Promotable s batch ∧ (MemberOperation.promote batch).plan s
      = .ok (.promoted (batch.map (·.memberHandle)), batch.flatMap promoteSnapshottedMember) := by
  have hpromotes := h.promotes
  rw [MemberOperation.run] at hpromotes
  cases hplan : (MemberOperation.promote batch).plan s with
  | error e =>
    rw [hplan] at hpromotes
    cases hpromotes
  | ok planned =>
    obtain ⟨⟨memberHandles, steps⟩, hpromote, hplanned⟩ := bind_eq_ok.mp hplan
    obtain rfl := Except.ok.inj hplanned
    obtain ⟨hempty | hpromotable, rfl, rfl⟩ := promoteSnapshottedIncomingMembersAt_ok.mp hpromote
    · exact absurd hempty h.nonempty
    · exact ⟨hpromotable, rfl⟩

/-- All documents of a store with a promotable batch load, and are well named. -/
theorem PromotableBatch.loads (h : PromotableBatch s batch) {p : MemberPlace}
    (hname : hasMemberDocumentExtension p.name = true)
    (hfound : (s.find p.status p.name).isSome = true) :
    ∃ document, loadVerifiedMemberDocumentAt s p.status p.name = .ok document := by
  by_cases hmoved : ∃ snapshot ∈ batch, p = .ofHandle .incoming snapshot.memberHandle
  · obtain ⟨snapshot, hmem, rfl⟩ := hmoved
    obtain ⟨key, hfrom, -⟩ := h.from_review hmem
    refine ⟨_, loadVerifiedMemberDocumentAt_of hfrom.holds.name hfrom.holds.source
      hfrom.holds.size hfrom.document ?_⟩
    rw [hfrom.subject]
    exact (fileStem_memberFileName _).symm
  · have hjudged : Judged s (promotionIgnored batch) p := ⟨hname, hfound,
      not_ignored_of_ne hname fun snapshot hmem heq => hmoved ⟨snapshot, hmem, heq⟩⟩
    obtain ⟨key, hkey⟩ := h.plan.1.kids.loads p hjudged
    obtain ⟨document, hdocument, -⟩ := map_eq_ok.mp hkey
    exact ⟨document, hdocument⟩

theorem PromotableBatch.named (h : PromotableBatch s batch) : WellNamed s := by
  intro p hname bytes hbytes
  obtain ⟨document, hdocument⟩ := h.loads hname (by rw [hbytes]; rfl)
  obtain ⟨-, hfound, -, hread, hsubject⟩ := loadVerifiedMemberDocumentAt_ok hdocument
  obtain rfl := Option.some.inj (hfound.symm.trans hbytes)
  exact ⟨document.publicKey, hread, hsubject⟩

/-- A store with a promotable batch is settled. -/
theorem PromotableBatch.settled (h : PromotableBatch s batch) : Settled s :=
  settled_promoted h.named h.plan.1 h.carry (List.nil_append batch).symm

/-- An uninterrupted promotion promotes every member of its batch. -/
theorem PromotableBatch.uninterrupted_eq (h : PromotableBatch s batch) :
    uninterrupted s batch = promoted s batch := by
  have hsound := stepsSound_promote (.inl h.settled) h.carry h.plan.1
  rw [uninterrupted, MemberOperation.run, h.plan.2]
  show (runSteps none s (batch.flatMap promoteSnapshottedMember)).1 = _
  rw [@runSteps_complete _ _ hsound.checks none (fun _ h => by cases h), promoted]

/-- **A STOPPED PROMOTION**: after an even number of file steps some members are promoted; after
    an odd number the next member's document is in both places. -/
theorem PromotableBatch.stopped_eq (h : PromotableBatch s batch) {fault : FileFault}
    (hfault : fault.after ≤ 2 * batch.length) :
    ∃ done rest, batch = done ++ rest
      ∧ ((fault.after = 2 * done.length ∧ stopped s batch fault = promoted s done)
        ∨ ∃ next later, rest = next :: later ∧ fault.after = 2 * done.length + 1
          ∧ stopped s batch fault = (promoted s done).put .active
              (memberFileName next.memberHandle) (utf8 next.sourceContent)) := by
  have hsound := stepsSound_promote (.inl h.settled) h.carry h.plan.1
  have hstate : stopped s batch fault
      = applySteps s ((batch.flatMap promoteSnapshottedMember).take fault.after) := by
    rw [stopped, MemberOperation.run, h.plan.2]
    show (runSteps (some fault) s (batch.flatMap promoteSnapshottedMember)).1 = _
    have hlength := length_promotion batch
    rw [runSteps_fault hsound.checks (by rw [hlength]; exact hfault) fault.error]
  rw [hstate]
  exact cut_promotion hfault

/-! ## Cuts between two members -/

section Between

variable {done rest : List IncomingMemberPromotionSnapshot}

/-- A member of the batch is promoted once. -/
theorem PromotableBatch.names_apart (h : PromotableBatch s batch) (hsplit : batch = done ++ rest)
    {first second : IncomingMemberPromotionSnapshot} (hfirst : first ∈ rest)
    (hsecond : second ∈ done) :
    memberFileName first.memberHandle ≠ memberFileName second.memberHandle := by
  intro heq
  have hnodup := nodup_memberHandles h.plan.1 h.carry
  rw [hsplit, List.map_append, List.nodup_append] at hnodup
  exact hnodup.2.2 second.memberHandle (List.mem_map.mpr ⟨second, hsecond, rfl⟩)
    first.memberHandle (List.mem_map.mpr ⟨first, hfirst, rfl⟩) (memberFileName_inj heq).symm

/-- The documents of what is left load. -/
theorem PromotableBatch.loads_promoted (h : PromotableBatch s batch)
    (hsplit : batch = done ++ rest) {p : MemberPlace}
    (hname : hasMemberDocumentExtension p.name = true)
    (hfound : ((promoted s done).find p.status p.name).isSome = true) :
    ∃ document, loadVerifiedMemberDocumentAt (promoted s done) p.status p.name
      = .ok document := by
  by_cases hdone : ∃ snapshot ∈ done, p.name = memberFileName snapshot.memberHandle
  · obtain ⟨snapshot, hmem, hpname⟩ := hdone
    obtain ⟨key, hfrom, -⟩ := h.from_review (hsplit ▸ List.mem_append_left rest hmem)
    obtain ⟨status, name⟩ := p
    obtain rfl : name = memberFileName snapshot.memberHandle := hpname
    cases status with
    | incoming =>
      have hgone := @find_promoted_incoming s done _ ⟨snapshot, hmem, rfl⟩
      rw [hgone] at hfound
      cases hfound
    | active =>
      have hnodup := nodup_memberHandles h.plan.1 h.carry
      rw [hsplit, List.map_append, List.nodup_append] at hnodup
      refine ⟨_, loadVerifiedMemberDocumentAt_of hfrom.holds.name
        (find_promoted_active hnodup.1 hmem) hfrom.holds.size hfrom.document ?_⟩
      rw [hfrom.subject]
      exact (fileStem_memberFileName _).symm
  · have hsame := @find_promoted_other s done p.name
      (fun snapshot hmem heq => hdone ⟨snapshot, hmem, heq⟩) p.status
    rw [hsame] at hfound
    rw [loadVerifiedMemberDocumentAt_congr hsame]
    exact h.loads hname hfound

/-- What is left in incoming is reviewed as before. -/
theorem PromotableBatch.review_promoted (h : PromotableBatch s batch) {name : String}
    (hname : hasMemberDocumentExtension name = true)
    (hfound : ((promoted s done).find .incoming name).isSome = true) :
    (∀ snapshot ∈ done, name ≠ memberFileName snapshot.memberHandle)
      ∧ ∃ snapshot, reviewMember s name = .ok snapshot
        ∧ reviewMember (promoted s done) name = .ok snapshot := by
  have hother : ∀ snapshot ∈ done, name ≠ memberFileName snapshot.memberHandle := by
    intro snapshot hmem heq
    rw [find_promoted_incoming ⟨snapshot, hmem, heq⟩] at hfound
    cases hfound
  have hsame := @find_promoted_other s done name hother
  obtain ⟨reviewed, hreviewed, -⟩ := h.reviewed
  obtain ⟨snapshot, hsnapshot⟩ := reviewMember_of_reviewed hreviewed hname
    (by rw [← hsame]; exact hfound)
  exact ⟨hother, snapshot, hsnapshot, reviewMember_congr hname hsnapshot hsame⟩

/-- The second review finds exactly the members that are left. -/
theorem PromotableBatch.mem_again (h : PromotableBatch s batch) (hsplit : batch = done ++ rest)
    {reviewed : List IncomingMemberPromotionSnapshot}
    (hreviewed : reviewIncomingMembers (promoted s done) = .ok reviewed)
    {snapshot : IncomingMemberPromotionSnapshot} :
    snapshot ∈ batchAgain batch reviewed ↔ snapshot ∈ rest := by
  rw [batchAgain, List.mem_filter, decide_eq_true_eq, mem_reviewed hreviewed]
  constructor
  · rintro ⟨⟨name, hname, hfound, hsnapshot⟩, hhandle⟩
    obtain ⟨hother, first, hfirst, hagain⟩ := h.review_promoted hname hfound
    obtain rfl := Except.ok.inj (hagain.symm.trans hsnapshot)
    obtain ⟨key, hfrom⟩ := reviewMember_ok hname hfirst
    obtain ⟨original, hmem, hsame⟩ := List.mem_map.mp hhandle
    obtain ⟨_, _, _, horiginal⟩ := h.from_review hmem
    rw [hsame, ← hfrom.name] at horiginal
    obtain rfl := Except.ok.inj (horiginal.symm.trans hfirst)
    rw [hsplit] at hmem
    rcases List.mem_append.mp hmem with hdone | hrest
    · exact absurd hfrom.name (hother original hdone)
    · exact hrest
  · intro hrest
    have hmem : snapshot ∈ batch := hsplit ▸ List.mem_append_right done hrest
    obtain ⟨key, hfrom, hname, hsnapshot⟩ := h.from_review hmem
    have hsame := @find_promoted_other s done _
      (fun other hother => h.names_apart hsplit hrest hother)
    refine ⟨⟨_, hname, ?_, reviewMember_congr hname hsnapshot hsame⟩,
      List.mem_map.mpr ⟨snapshot, hmem, rfl⟩⟩
    rw [hsame, hfrom.holds.source]
    rfl

/-- **WHAT IS LEFT CAN BE PROMOTED**: every check of the second promotion passes. -/
theorem PromotableBatch.promotable_again (h : PromotableBatch s batch)
    (hsplit : batch = done ++ rest) {reviewed : List IncomingMemberPromotionSnapshot}
    (hreviewed : reviewIncomingMembers (promoted s done) = .ok reviewed) :
    Promotable (promoted s done) (batchAgain batch reviewed) := by
  have hsettled := settled_promoted h.named h.plan.1 h.carry hsplit
  have hheld : ∀ snapshot ∈ batchAgain batch reviewed,
      ∃ key, ReviewedFrom (promoted s done) (memberFileName snapshot.memberHandle) snapshot key
        ∧ hasMemberDocumentExtension (memberFileName snapshot.memberHandle) = true := by
    intro snapshot hmem
    obtain ⟨name, hname, -, hsnapshot⟩ := (mem_reviewed hreviewed).mp (List.mem_filter.mp hmem).1
    obtain ⟨key, hfrom⟩ := reviewMember_ok hname hsnapshot
    obtain rfl := hfrom.name
    exact ⟨key, hfrom, hname⟩
  refine ⟨fun snapshot hmem => ?_, ?_, ?_, ?_, ?_⟩
  · obtain ⟨key, hfrom, -⟩ := hheld snapshot hmem
    exact hfrom.holds
  · rintro p ⟨hname, hfound, -⟩
    obtain ⟨document, hdocument⟩ := h.loads_promoted hsplit hname hfound
    exact ⟨document.publicKey, map_eq_ok.mpr ⟨document, hdocument, rfl⟩⟩
  · exact fun p q key other _ _ hkey hother => hsettled.distinct p q key other hkey hother
  · -- the only document with the kid of a snapshot is the one it promotes
    intro p key hjudged hkey candidate hcandidate heq
    obtain ⟨snapshot, hmem, rfl⟩ := List.mem_map.mp hcandidate
    obtain ⟨other, hfrom, hname⟩ := hheld snapshot hmem
    have hplace : p = .ofHandle .incoming snapshot.memberHandle :=
      hsettled.distinct p _ key other hkey ⟨hname, _, hfrom.holds.source, hfrom.document⟩
        (heq.trans hfrom.kid)
    have hignored := hjudged.2.2
    rw [hplace, MemberPlace.stem_ofHandle, isIgnoredExisting, List.any_eq_false] at hignored
    refine hignored (.incoming, snapshot.memberHandle) (List.mem_map.mpr ⟨snapshot, hmem, rfl⟩) ?_
    rw [beq_self_eq_true, Bool.and_true]
    rfl
  · rw [List.map_map, List.Nodup, List.pairwise_map]
    have hnodup := nodup_reviewed hreviewed
    rw [List.Nodup, List.pairwise_map] at hnodup
    refine (hnodup.filter _).imp_of_mem fun {first second} hfirst hsecond hne heq => hne ?_
    have hkids := h.plan.1.kids.candidates
    rw [List.map_map] at hkids
    have hin : ∀ {snapshot}, snapshot ∈ batchAgain batch reviewed → snapshot ∈ batch :=
      fun hmem => hsplit ▸ List.mem_append_right done ((h.mem_again hsplit hreviewed).mp hmem)
    rw [List.inj_on_of_nodup_map hkids (hin hfirst) (hin hsecond) heq]

/-- The second promotion leaves what the first one would have left. -/
theorem PromotableBatch.promoted_again (h : PromotableBatch s batch)
    (hsplit : batch = done ++ rest) {reviewed : List IncomingMemberPromotionSnapshot}
    (hreviewed : reviewIncomingMembers (promoted s done) = .ok reviewed) :
    promoted (promoted s done) (batchAgain batch reviewed) = promoted s batch := by
  have hmemAgain : ∀ {snapshot}, snapshot ∈ batchAgain batch reviewed ↔ snapshot ∈ rest :=
    h.mem_again hsplit hreviewed
  have hnodup := nodup_memberHandles h.plan.1 h.carry
  have hnodupDone : (done.map (·.memberHandle)).Nodup := by
    rw [hsplit, List.map_append, List.nodup_append] at hnodup
    exact hnodup.1
  have hsettled := settled_promoted h.named h.plan.1 h.carry hsplit
  have hagain := h.promotable_again hsplit hreviewed
  have hcarryAgain : CarryKids (batchAgain batch reviewed) := fun snapshot hmem =>
    h.carry snapshot (hsplit ▸ List.mem_append_right done (hmemAgain.mp hmem))
  have hnodupAgain := nodup_memberHandles hagain hcarryAgain
  refine Members.ext_find fun status name => ?_
  by_cases hbatch : ∃ snapshot ∈ batch, name = memberFileName snapshot.memberHandle
  · obtain ⟨snapshot, hmem, rfl⟩ := hbatch
    by_cases hleft : snapshot ∈ batchAgain batch reviewed
    · cases status with
      | active => rw [find_promoted_active hnodupAgain hleft, find_promoted_active hnodup hmem]
      | incoming =>
        rw [find_promoted_incoming ⟨snapshot, hleft, rfl⟩,
          find_promoted_incoming ⟨snapshot, hmem, rfl⟩]
    · have hdone : snapshot ∈ done := by
        rw [hsplit] at hmem
        rcases List.mem_append.mp hmem with hdone | hrest
        · exact hdone
        · exact absurd (hmemAgain.mpr hrest) hleft
      have hother : ∀ other ∈ batchAgain batch reviewed, memberFileName snapshot.memberHandle
          ≠ memberFileName other.memberHandle := fun other hother heq =>
        h.names_apart hsplit (hmemAgain.mp hother) hdone heq.symm
      rw [find_promoted_other hother]
      cases status with
      | active => rw [find_promoted_active hnodupDone hdone, find_promoted_active hnodup hmem]
      | incoming =>
        rw [find_promoted_incoming ⟨snapshot, hdone, rfl⟩,
          find_promoted_incoming ⟨snapshot, hmem, rfl⟩]
  · have hin : ∀ {snapshot}, snapshot ∈ done ∨ snapshot ∈ rest → snapshot ∈ batch := by
      intro snapshot hmem
      rw [hsplit]
      exact List.mem_append.mpr hmem
    rw [find_promoted_other fun other hother heq =>
        hbatch ⟨other, hin (.inr (hmemAgain.mp hother)), heq⟩,
      find_promoted_other fun other hother heq => hbatch ⟨other, hin (.inl hother), heq⟩,
      find_promoted_other fun other hother heq => hbatch ⟨other, hother, heq⟩]

/-- A document whose kid no other document has can be saved in what is left. -/
theorem PromotableBatch.savable_promoted (h : PromotableBatch s batch)
    (hsplit : batch = done ++ rest) {status : MemberStatus} {memberHandle content : String}
    {key : PublicKey} (hread : readDocument (utf8 content) = some key)
    (hsubject : key.protect.subjectHandle = memberHandle)
    (hfree : ∀ p other, IsDocument (promoted s done) p other →
      other.protect.kid = key.protect.kid → p = .ofHandle status memberHandle) :
    Savable (promoted s done) status memberHandle content key := by
  have hsettled := settled_promoted h.named h.plan.1 h.carry hsplit
  refine ⟨?_, hread, ?_, ?_, ?_, List.nodup_singleton _⟩
  · exact checkedChildName_memberFileName (hsubject ▸ handleText_of_readDocument hread)
  · rintro p ⟨hname, hfound, -⟩
    obtain ⟨document, hdocument⟩ := h.loads_promoted hsplit hname hfound
    exact ⟨document.publicKey, map_eq_ok.mpr ⟨document, hdocument, rfl⟩⟩
  · exact fun p q key other _ _ hkey hother => hsettled.distinct p q key other hkey hother
  · intro p other hjudged hother candidate hcandidate heq
    obtain rfl := List.mem_singleton.mp hcandidate
    obtain rfl := hfree p other hother heq
    obtain ⟨-, hfound, hignored⟩ := hjudged
    have hstands : ((promoted s done).find status (memberFileName memberHandle)).isSome = true :=
      hfound
    rw [if_pos hstands, MemberPlace.stem_ofHandle, isIgnoredExisting, List.any_eq_false] at hignored
    refine hignored (status, memberHandle) (List.mem_singleton_self _) ?_
    rw [beq_self_eq_true, Bool.and_true]
    exact beq_self_eq_true status

/-- **A CUT BETWEEN TWO MEMBERS IS RECOVERED FROM**. -/
theorem PromotableBatch.recovers (h : PromotableBatch s batch) (hsplit : batch = done ++ rest) :
    Recovers s batch (promoted s done) := by
  have hsettled : Settled (promoted s done) :=
    settled_promoted h.named h.plan.1 h.carry hsplit
  constructor
  · obtain ⟨reviewed, hreviewed⟩ : ∃ reviewed, reviewIncomingMembers (promoted s done)
        = .ok reviewed := exists_reviewed fun name hname hfound => by
      obtain ⟨-, snapshot, -, hsnapshot⟩ := h.review_promoted hname hfound
      exact ⟨snapshot, hsnapshot⟩
    have hagain := h.promotable_again hsplit hreviewed
    have hcarry : CarryKids (batchAgain batch reviewed) := fun snapshot hmem =>
      h.carry snapshot (hsplit ▸ List.mem_append_right done
        ((h.mem_again hsplit hreviewed).mp hmem))
    have hsound := stepsSound_promote (.inl hsettled) hcarry hagain
    have hplan : (MemberOperation.promote (batchAgain batch reviewed)).plan (promoted s done)
        = .ok (.promoted ((batchAgain batch reviewed).map (·.memberHandle)),
          (batchAgain batch reviewed).flatMap promoteSnapshottedMember) :=
      bind_eq_ok.mpr ⟨_, promoteSnapshottedIncomingMembersAt_ok.mpr ⟨.inr hagain, rfl, rfl⟩, rfl⟩
    refine ⟨reviewed, hreviewed, ?_⟩
    rw [MemberOperation.run, hplan, h.uninterrupted_eq, ← h.promoted_again hsplit hreviewed]
    dsimp only
    rw [@runSteps_complete _ _ hsound.checks none (fun _ h => by cases h)]
    rfl
  · intro status memberHandle content key hread hsubject hfree
    have hsavable := h.savable_promoted hsplit hread hsubject hfree
    have hsave := @saveMemberContentKeepingExisting_of _ _ _ _ true _ hsavable (.inl rfl)
    have hsound := stepsSound_save (.inl hsettled) (fun found hfound => by
      rw [← Option.some.inj (hread.symm.trans hfound)]
      exact hsubject) hsave
    have hplan : (MemberOperation.saveKeeping status memberHandle content true).plan
        (promoted s done) = .ok (.saved _, _) := bind_eq_ok.mpr ⟨_, hsave, rfl⟩
    rw [MemberOperation.run, hplan]
    dsimp only
    rw [@runSteps_complete _ _ hsound.checks none (fun _ h => by cases h)]
    exact ⟨_, rfl⟩

end Between

end Cuts

/-! ## Cuts within a member -/

section Within

variable {left : Members} {memberHandle : String} {key other : PublicKey}

/-- **NO PROMOTION FROM THERE**: while a kid stands in both places, every promotion is refused:
    the active copy collides with the candidate, or else with the incoming copy. -/
theorem stuck_promotion (hactive : IsDocument left (.ofHandle .active memberHandle) key)
    (hincoming : IsDocument left (.ofHandle .incoming memberHandle) other)
    (hkid : key.protect.kid = other.protect.kid)
    {batch : List IncomingMemberPromotionSnapshot} (hcarry : CarryKids batch)
    (hpromotable : Promotable left batch) : False := by
  have hjudged : Judged left (promotionIgnored batch) (.ofHandle .active memberHandle) :=
    judged_of_ne hactive fun _ _ h => by cases (MemberPlace.mk.inj h).1
  by_cases hmoved : ∃ snapshot ∈ batch, snapshot.memberHandle = memberHandle
  · obtain ⟨snapshot, hmem, rfl⟩ := hmoved
    exact no_twin hpromotable hcarry hmem hactive hincoming hkid
  · have hother : Judged left (promotionIgnored batch) (.ofHandle .incoming memberHandle) :=
      judged_of_ne hincoming fun snapshot hmem h =>
        hmoved ⟨snapshot, hmem, (memberFileName_inj (MemberPlace.mk.inj h).2).symm⟩
    cases (MemberPlace.mk.inj
      (hpromotable.kids.distinct _ _ key other hjudged hother hactive hincoming hkid)).1

/-- **NO SAVE OF ANOTHER MEMBER FROM THERE**: a save under another handle writes nothing. -/
theorem stuck_save (hactive : IsDocument left (.ofHandle .active memberHandle) key)
    (hincoming : IsDocument left (.ofHandle .incoming memberHandle) other)
    (hkid : key.protect.kid = other.protect.kid) {status : MemberStatus}
    {otherHandle content : String} (hne : otherHandle ≠ memberHandle) {overwrite : Bool}
    {write : MemberDocumentWrite} {steps : List FileStep}
    (h : saveMemberContentKeepingExisting left status otherHandle content overwrite
      = .ok (write, steps)) : steps = [] := by
  rcases saveMemberContentKeepingExisting_ok h with rfl | ⟨-, saved, hsavable⟩
  · rfl
  · have hjudged : ∀ {at' : MemberStatus} {found : PublicKey},
        IsDocument left (.ofHandle at' memberHandle) found →
        Judged left (if (left.find status (memberFileName otherHandle)).isSome then
          [(status, otherHandle)] else []) (.ofHandle at' memberHandle) := by
      rintro at' found ⟨hname, bytes, hbytes, -⟩
      refine ⟨hname, by rw [hbytes]; rfl, ?_⟩
      rw [MemberPlace.stem_ofHandle]
      split
      · rw [isIgnoredExisting, List.any_cons, List.any_nil, Bool.or_false,
          beq_eq_false_iff_ne.mpr hne, Bool.and_false]
      · rfl
    cases (MemberPlace.mk.inj (hsavable.kids.distinct _ _ key other (hjudged hactive)
      (hjudged hincoming) hactive hincoming hkid)).1

/-- **A CUT WITHIN A MEMBER IS NOT RECOVERED FROM**. -/
theorem PromotableBatch.not_recovers {s : Members}
    {batch done later : List IncomingMemberPromotionSnapshot}
    {next : IncomingMemberPromotionSnapshot} (h : PromotableBatch s batch)
    (hsplit : batch = done ++ next :: later) :
    ¬ Recovers s batch ((promoted s done).put .active (memberFileName next.memberHandle)
      (utf8 next.sourceContent)) := by
  have hnext : next ∈ batch := hsplit ▸ List.mem_append_right done List.mem_cons_self
  obtain ⟨key, hfrom, hname, -⟩ := h.from_review hnext
  obtain ⟨bytes, hactive, hincoming⟩ := (leftIn_promoted h.named h.plan.1 h.carry hsplit).twice
  have hbytes : bytes = utf8 next.sourceContent := by
    rw [Members.find_put, if_pos ⟨rfl, rfl⟩] at hactive
    exact (Option.some.inj hactive).symm
  subst hbytes
  rintro ⟨⟨reviewed, hreviewed, hrun⟩, -⟩
  -- the member is reviewed again, so the second batch is not empty
  obtain ⟨snapshot, hsnapshot⟩ := reviewMember_of_reviewed hreviewed hname
    (by rw [hincoming]; rfl)
  obtain ⟨found, hfound⟩ := reviewMember_ok hname hsnapshot
  have hhandle : snapshot.memberHandle = next.memberHandle :=
    (memberFileName_inj hfound.name).symm
  have hmem : snapshot ∈ batchAgain batch reviewed := by
    refine List.mem_filter.mpr ⟨(mem_reviewed hreviewed).mpr
      ⟨_, hname, by rw [hincoming]; rfl, hsnapshot⟩, decide_eq_true ?_⟩
    exact List.mem_map.mpr ⟨next, hnext, hhandle.symm⟩
  have hcarry : CarryKids (batchAgain batch reviewed) := by
    intro other hother
    obtain ⟨name, hother, -, hreview⟩ :=
      (mem_reviewed hreviewed).mp (List.mem_filter.mp hother).1
    obtain ⟨otherKey, hotherFrom⟩ := reviewMember_ok hother hreview
    exact ⟨otherKey, hotherFrom.document, hotherFrom.kid.symm⟩
  rw [MemberOperation.run] at hrun
  cases hplan : (MemberOperation.promote (batchAgain batch reviewed)).plan
      ((promoted s done).put .active (memberFileName next.memberHandle)
        (utf8 next.sourceContent)) with
  | error e =>
    rw [hplan] at hrun
    cases (Prod.mk.inj hrun).2
  | ok planned =>
    obtain ⟨⟨memberHandles, steps⟩, hpromote, -⟩ := bind_eq_ok.mp hplan
    rcases (promoteSnapshottedIncomingMembersAt_ok.mp hpromote).1 with hempty | hpromotable
    · rw [hempty] at hmem
      exact List.not_mem_nil hmem
    · exact stuck_promotion ⟨hname, _, hactive, hfrom.document⟩
        ⟨hname, _, hincoming, hfrom.document⟩ rfl hcarry hpromotable

end Within

/-! ## The cuts that are recovered from -/

section Recovered

variable {s : Members} {batch : List IncomingMemberPromotionSnapshot} {fault : FileFault}

theorem recovers_of_even (h : PromotableBatch s batch) (hfault : fault.after ≤ 2 * batch.length)
    (heven : fault.after % 2 = 0) : Recovers s batch (stopped s batch fault) := by
  obtain ⟨done, rest, hsplit, ⟨-, hstate⟩ | ⟨next, later, -, hcount, -⟩⟩ := h.stopped_eq hfault
  · rw [hstate]
    exact h.recovers hsplit
  · omega

theorem not_recovers_of_odd (h : PromotableBatch s batch)
    (hfault : fault.after ≤ 2 * batch.length) (hodd : fault.after % 2 ≠ 0) :
    ¬ Recovers s batch (stopped s batch fault) := by
  obtain ⟨done, rest, hsplit, ⟨hcount, -⟩ | ⟨next, later, hrest, -, hstate⟩⟩ :=
    h.stopped_eq hfault
  · omega
  · rw [hstate]
    exact h.not_recovers (hrest ▸ hsplit)

/-- **RECOVERY, EXACTLY**: a stopped promotion is recovered from if and only if it was stopped
    between two members, after an even number of file steps. -/
theorem recovers_iff (h : PromotableBatch s batch) (hfault : fault.after ≤ 2 * batch.length) :
    Recovers s batch (stopped s batch fault) ↔ fault.after % 2 = 0 := by
  by_cases heven : fault.after % 2 = 0
  · exact ⟨fun _ => heven, recovers_of_even h hfault⟩
  · exact ⟨fun hrecovers => absurd hrecovers (not_recovers_of_odd h hfault heven),
      fun h => absurd h heven⟩

end Recovered

/-! ## A promotion that was stopped -/

theorem size_toyMemberText :
    (utf8 (toyMemberText alice toyKid)).length ≤ maxJsonDocumentReadSize
      ∧ (utf8 (toyMemberText bob bobKid)).length ≤ maxJsonDocumentReadSize := by
  have hsize : ∀ v : Json, (utf8 (String.ofList (textAt false 0 v))).length = JsonSize.jsonSize v :=
    fun v => by rw [utf8_length, JsonSize.utf8ByteSize_ofList, JsonSize.charsSize_textAt]
  rw [toyMemberText, toyMemberText, hsize, hsize]
  decide +kernel

theorem holds_toySnapshot : SnapshotHolds toyMembers toySnapshot where
  name := checkedChildName_memberFileName alice.valid
  source := find_toyMembers .incoming (memberFileName alice.text)
  size := size_toyMemberText.1
  destination := by
    have hne : memberFileName alice.text ≠ memberFileName bob.text := by decide
    refine bind_eq_ok.mpr ⟨(), checkedChildName_memberFileName alice.valid, ?_⟩
    rw [find_toyMembers, if_neg (fun h => by cases h.1), if_neg (fun h => hne h.2)]
    rfl

theorem review_toyMembers : reviewMember toyMembers (memberFileName alice.text)
    = .ok toySnapshot := by
  refine map_eq_ok.mpr ⟨(alice.text, ⟨toyMemberText alice toyKid, .missing,
    toyStatement alice toyKid [1]⟩), ?_, rfl⟩
  refine bind_eq_ok.mpr ⟨⟨toyMemberText alice toyKid, toyStatement alice toyKid [1]⟩, ?_, ?_⟩
  · exact loadVerifiedMemberDocumentAt_of holds_toySnapshot.name holds_toySnapshot.source
      holds_toySnapshot.size (readDocument_toy alice toyKid) (fileStem_memberFileName _).symm
  · exact bind_eq_ok.mpr ⟨.missing, holds_toySnapshot.destination, rfl⟩

theorem promotable_toyMembers : Promotable toyMembers [toySnapshot] where
  holds := by
    intro snapshot hmem
    obtain rfl := List.mem_singleton.mp hmem
    exact holds_toySnapshot
  kids := by
    have hbob : (toyStatement bob bobKid [1]).protect.kid ≠ toySnapshot.kid := by decide
    refine ⟨?_, fun p q key other _ _ hkey hother =>
      settled_toyMembers.distinct p q key other hkey hother, ?_, List.nodup_singleton _⟩
    · rintro p ⟨hname, hfound, -⟩
      obtain ⟨bytes, hbytes⟩ := Option.isSome_iff_exists.mp hfound
      obtain ⟨key, hread, hsubject⟩ := settled_toyMembers.named p hname bytes hbytes
      rcases document_toyMembers ⟨hname, bytes, hbytes, hread⟩ with ⟨rfl, rfl⟩ | ⟨rfl, rfl⟩
      · exact ⟨_, map_eq_ok.mpr ⟨_, loadVerifiedMemberDocumentAt_of holds_toySnapshot.name
          holds_toySnapshot.source holds_toySnapshot.size (readDocument_toy alice toyKid) hsubject,
          rfl⟩⟩
      · exact ⟨_, map_eq_ok.mpr ⟨_, loadVerifiedMemberDocumentAt_of
          (checkedChildName_memberFileName bob.valid)
          (find_toyMembers .active (memberFileName bob.text)) size_toyMemberText.2
          (readDocument_toy bob bobKid) hsubject, rfl⟩⟩
    · intro p key hjudged hkey candidate hcandidate
      obtain rfl := List.mem_singleton.mp hcandidate
      rcases document_toyMembers hkey with ⟨rfl, rfl⟩ | ⟨rfl, rfl⟩
      · have hignored := hjudged.2.2
        rw [MemberPlace.stem_ofHandle] at hignored
        exact absurd hignored (by decide)
      · exact hbob

theorem reviewable_toyMembers {name : String} (hname : hasMemberDocumentExtension name = true)
    (hfound : (toyMembers.find .incoming name).isSome = true) :
    ∃ snapshot, reviewMember toyMembers name = .ok snapshot := by
  obtain ⟨bytes, hbytes⟩ := Option.isSome_iff_exists.mp hfound
  obtain ⟨key, hread, -⟩ := settled_toyMembers.named ⟨.incoming, name⟩ hname bytes hbytes
  have hdocument : IsDocument toyMembers ⟨.incoming, name⟩ key := ⟨hname, bytes, hbytes, hread⟩
  rcases document_toyMembers hdocument with ⟨hplace, -⟩ | ⟨hplace, -⟩
  · rw [(MemberPlace.mk.inj hplace).2]
    exact ⟨toySnapshot, review_toyMembers⟩
  · cases (MemberPlace.mk.inj hplace).1

theorem promotableBatch_toyMembers : PromotableBatch toyMembers [toySnapshot] where
  nonempty := List.cons_ne_nil _ _
  reviewed := by
    have hname : hasMemberDocumentExtension (memberFileName alice.text) = true := by decide
    obtain ⟨reviewed, hreviewed⟩ := @exists_reviewed toyMembers fun _ => reviewable_toyMembers
    refine ⟨reviewed, hreviewed, fun snapshot hmem => ?_⟩
    obtain rfl := List.mem_singleton.mp hmem
    refine (mem_reviewed hreviewed).mpr ⟨memberFileName alice.text, hname, ?_, review_toyMembers⟩
    rw [show memberFileName alice.text = memberFileName toySnapshot.memberHandle from rfl,
      holds_toySnapshot.source]
    rfl
  promotes := by
    have hsound := stepsSound_promote (.inl settled_toyMembers) carryKids_toy promotable_toyMembers
    have hplan : (MemberOperation.promote [toySnapshot]).plan toyMembers
        = .ok (.promoted [alice.text], [toySnapshot].flatMap promoteSnapshottedMember) :=
      bind_eq_ok.mpr ⟨_, promoteSnapshottedIncomingMembersAt_ok.mpr
        ⟨.inr promotable_toyMembers, rfl, rfl⟩, rfl⟩
    rw [MemberOperation.run, hplan]
    dsimp only
    rw [@runSteps_complete _ _ hsound.checks none (fun _ h => by cases h)]
    rfl

theorem recovers_iff_toy :
    Recovers toyMembers [toySnapshot] (stopped toyMembers [toySnapshot] ⟨2, .io "stopped"⟩)
      ↔ 2 % 2 = 0 :=
  recovers_iff promotableBatch_toyMembers (Nat.le_refl 2)

/-- Alice's document was saved to active and the process stopped: the batch is never promoted. -/
theorem stopped_toyMembers :
    ¬ Recovers toyMembers [toySnapshot] (stopped toyMembers [toySnapshot] ⟨1, .io "stopped"⟩) :=
  not_recovers_of_odd promotableBatch_toyMembers (by decide) (by decide)

end PromotionRetry
