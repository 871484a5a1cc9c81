import Kapsaro.MemberOperations

/-!
# Member invariants — what the steps of a member operation keep

* **`Settled`** — documents are well named, and no kid stands at two places.
* **`LeftIn`** — one promoted document still stands in `incoming/` as well.
* **`settled_of_save`** — a save settles the store, whatever it was before.
* **`same_name_of_kid`** — at any point of a promotion, documents of one kid share their name:
  the batch is judged against everything it does not move.
* **`settled_promoted`**, **`leftIn_promoted`** — a promotion cut between two members, and within
  one.
* **`checksPass_promotion`** — a promotion that may start is not refused by one of its steps.
-/

namespace MemberInvariants

open JsonText JsonMembers JsonRecords JsonLimits Limits TextLines Base64Codec WireTexts WireModel
open DocumentTokens TrustStore TrustDocument TrustTransaction MemberStore MemberOperations

/-! ## The invariant -/

/-- Every document is well named, and no kid stands at two places. -/
structure Settled (s : Members) : Prop where
  named : WellNamed s
  distinct : Distinct s

/-- One document stands in both directories; everything else is as in a settled store. -/
structure LeftIn (s : Members) (memberHandle : String) : Prop where
  named : WellNamed s
  twice : ∃ bytes, s.find .active (memberFileName memberHandle) = some bytes
    ∧ s.find .incoming (memberFileName memberHandle) = some bytes
  distinct : ∀ p q key other, IsDocument s p key → IsDocument s q other →
    key.protect.kid = other.protect.kid →
      p = q ∨ p.name = memberFileName memberHandle ∧ q.name = memberFileName memberHandle

/-- What every run of operations keeps. -/
def Consistent (s : Members) : Prop :=
  Settled s ∨ ∃ memberHandle, LeftIn s memberHandle

theorem Consistent.named {s : Members} (h : Consistent s) : WellNamed s := by
  rcases h with h | ⟨_, h⟩
  · exact h.named
  · exact h.named

theorem place_eq_iff {p : MemberPlace} {status : MemberStatus} {name : String} :
    p = ⟨status, name⟩ ↔ p.status = status ∧ p.name = name :=
  ⟨fun h => h ▸ ⟨rfl, rfl⟩, fun ⟨h, h'⟩ => by rw [← h, ← h']⟩

/-- A document after a write is the one written or one that stood elsewhere. -/
theorem isDocument_put {s : Members} {status : MemberStatus} {name : String} {bytes : Bytes}
    {p : MemberPlace} {key : PublicKey} (h : IsDocument (s.put status name bytes) p key) :
    p = ⟨status, name⟩ ∧ readDocument bytes = some key
      ∨ p ≠ ⟨status, name⟩ ∧ IsDocument s p key := by
  obtain ⟨hname, found, hfound, hread⟩ := h
  rw [Members.find_put] at hfound
  split at hfound
  · rename_i hplace
    obtain rfl := Option.some.inj hfound
    exact .inl ⟨place_eq_iff.mpr hplace, hread⟩
  · rename_i hplace
    exact .inr ⟨fun h => hplace (place_eq_iff.mp h), hname, found, hfound, hread⟩

/-- A document after an unlink stood there before. -/
theorem isDocument_unlink {s : Members} {status : MemberStatus} {name : String}
    {p : MemberPlace} {key : PublicKey} (h : IsDocument (s.unlink status name) p key) :
    IsDocument s p key := by
  obtain ⟨hname, found, hfound, hread⟩ := h
  rw [Members.find_unlink] at hfound
  split at hfound
  · cases hfound
  · exact ⟨hname, found, hfound, hread⟩

/-! ### Saves and removals -/

/-- **A SAVE SETTLES THE STORE**: every kid but that of the document it replaces was judged. -/
theorem settled_of_save {s : Members} (hnamed : WellNamed s) {status : MemberStatus}
    {memberHandle content : String} {key : PublicKey}
    (h : Savable s status memberHandle content key)
    (hsubject : key.protect.subjectHandle = memberHandle) :
    Settled (s.put status (memberFileName memberHandle) (utf8 content)) := by
  have hjudged : ∀ p key, p ≠ MemberPlace.mk status (memberFileName memberHandle) →
      IsDocument s p key → Judged s (if (s.find status (memberFileName memberHandle)).isSome
        then [(status, memberHandle)] else []) p := by
    rintro p other hp ⟨hname, bytes, hbytes, -⟩
    refine ⟨hname, by rw [hbytes]; rfl, ?_⟩
    split
    · rw [Bool.eq_false_iff]
      intro hignored
      rw [isIgnoredExisting, List.any_cons, List.any_nil, Bool.or_false,
        Bool.and_eq_true] at hignored
      refine hp (place_eq_iff.mpr ⟨(eq_of_beq hignored.1).symm, ?_⟩)
      have hstem : memberHandle = p.stem := eq_of_beq hignored.2
      rw [hstem]
      exact (memberFileName_fileStem hname).symm
    · rfl
  constructor
  · intro p hname bytes hbytes
    rw [Members.find_put] at hbytes
    split at hbytes
    · rename_i hplace
      obtain rfl := Option.some.inj hbytes
      refine ⟨key, h.document, hsubject.trans ?_⟩
      rw [MemberPlace.stem, hplace.2, fileStem_memberFileName]
    · exact hnamed p hname bytes hbytes
  · intro p q first second hp hq heq
    have hkey : ∀ {found}, readDocument (utf8 content) = some found → found = key :=
      fun hread => Option.some.inj (hread.symm.trans h.document)
    rcases isDocument_put hp with ⟨rfl, hfirst⟩ | ⟨hpne, hfirst⟩
    · rcases isDocument_put hq with ⟨rfl, -⟩ | ⟨hqne, hsecond⟩
      · rfl
      · refine absurd heq.symm (h.kids.unclaimed q second (hjudged q second hqne hsecond) hsecond
          ⟨memberHandle, first.protect.kid, status⟩ ?_)
        rw [hkey hfirst]
        exact List.mem_singleton_self _
    · rcases isDocument_put hq with ⟨rfl, hsecond⟩ | ⟨hqne, hsecond⟩
      · refine absurd heq (h.kids.unclaimed p first (hjudged p first hpne hfirst) hfirst
          ⟨memberHandle, second.protect.kid, status⟩ ?_)
        rw [hkey hsecond]
        exact List.mem_singleton_self _
      · exact h.kids.distinct p q first second (hjudged p first hpne hfirst)
          (hjudged q second hqne hsecond) hfirst hsecond heq

/-- A removal keeps names and kids. -/
theorem consistent_unlink {s : Members} (h : Consistent s) (memberHandle : String) :
    (Settled s → Settled (s.unlink .active (memberFileName memberHandle)))
      ∧ Consistent (s.unlink .active (memberFileName memberHandle)) := by
  have hnamed : WellNamed (s.unlink .active (memberFileName memberHandle)) := by
    intro p hname bytes hbytes
    rw [Members.find_unlink] at hbytes
    split at hbytes
    · cases hbytes
    · exact h.named p hname bytes hbytes
  have hsettled : Settled s → Settled (s.unlink .active (memberFileName memberHandle)) :=
    fun hs => ⟨hnamed, fun p q key other hp hq =>
      hs.distinct p q key other (isDocument_unlink hp) (isDocument_unlink hq)⟩
  refine ⟨hsettled, ?_⟩
  rcases h with hs | ⟨twice, hleft⟩
  · exact .inl (hsettled hs)
  · by_cases hsame : memberHandle = twice
    · -- the document that stood twice is gone from `active/`
      subst hsame
      refine .inl ⟨hnamed, fun p q key other hp hq heq => ?_⟩
      rcases hleft.distinct p q key other (isDocument_unlink hp) (isDocument_unlink hq) heq
        with heq | ⟨hpname, hqname⟩
      · exact heq
      · have hincoming : ∀ {r : MemberPlace} {key : PublicKey},
            IsDocument (s.unlink .active (memberFileName memberHandle)) r key →
            r.name = memberFileName memberHandle → r.status = .incoming := by
          rintro r key ⟨-, bytes, hbytes, -⟩ hrname
          rw [Members.find_unlink] at hbytes
          split at hbytes
          · cases hbytes
          · rename_i hplace
            cases hstatus : r.status with
            | active => exact absurd ⟨hstatus, hrname⟩ hplace
            | incoming => rfl
        exact place_eq_iff.mpr
          ⟨(hincoming hp hpname).trans (hincoming hq hqname).symm, hpname.trans hqname.symm⟩
    · refine .inr ⟨twice, hnamed, ?_, fun p q key other hp hq =>
        hleft.distinct p q key other (isDocument_unlink hp) (isDocument_unlink hq)⟩
      obtain ⟨bytes, hactive, hincoming⟩ := hleft.twice
      refine ⟨bytes, ?_, ?_⟩
      · rw [Members.find_unlink, if_neg fun h => hsame (memberFileName_inj h.2).symm]
        exact hactive
      · rw [Members.find_unlink, if_neg fun h => by cases h.1]
        exact hincoming

/-! ### Promotions -/

/-- Snapshots that carry the kid of their content. -/
def CarryKids (snapshots : List IncomingMemberPromotionSnapshot) : Prop :=
  ∀ snapshot ∈ snapshots, ∃ key, readDocument (utf8 snapshot.sourceContent) = some key
    ∧ key.protect.kid = snapshot.kid

/-- Every file is one the batch does not move, or holds what the batch reviewed for its name. -/
def FromBatch (s : Members) (snapshots : List IncomingMemberPromotionSnapshot) (t : Members) :
    Prop :=
  ∀ (p : MemberPlace) (bytes : Bytes), t.find p.status p.name = some bytes →
    (s.find p.status p.name = some bytes
        ∧ ∀ snapshot ∈ snapshots, p ≠ .ofHandle .incoming snapshot.memberHandle)
      ∨ ∃ snapshot ∈ snapshots, p.name = memberFileName snapshot.memberHandle
        ∧ bytes = utf8 snapshot.sourceContent

section Promotion

variable {s t : Members} {snapshots : List IncomingMemberPromotionSnapshot}

/-- The batch moves what it reviewed. -/
theorem fromBatch_self (h : ∀ snapshot ∈ snapshots, SnapshotHolds s snapshot) :
    FromBatch s snapshots s := by
  intro p bytes hbytes
  by_cases hmoved : ∃ snapshot ∈ snapshots, p = .ofHandle .incoming snapshot.memberHandle
  · obtain ⟨snapshot, hmem, rfl⟩ := hmoved
    exact .inr ⟨snapshot, hmem, rfl, Option.some.inj (hbytes.symm.trans (h snapshot hmem).source)⟩
  · exact .inl ⟨hbytes, fun snapshot hmem heq => hmoved ⟨snapshot, hmem, heq⟩⟩

/-- A file step of a promoted member writes its reviewed text, or removes a file. -/
theorem fromBatch_effect (h : FromBatch s snapshots t) {step : FileStep}
    {snapshot : IncomingMemberPromotionSnapshot} (hmem : snapshot ∈ snapshots)
    (hstep : step ∈ promoteSnapshottedMember snapshot) : FromBatch s snapshots (step.effect t) := by
  have hput : FromBatch s snapshots
      (t.put .active (memberFileName snapshot.memberHandle) (utf8 snapshot.sourceContent)) := by
    intro p bytes hbytes
    rw [Members.find_put] at hbytes
    split at hbytes
    · rename_i hplace
      exact .inr ⟨snapshot, hmem, hplace.2, (Option.some.inj hbytes).symm⟩
    · exact h p bytes hbytes
  have hunlink : FromBatch s snapshots
      (t.unlink .incoming (memberFileName snapshot.memberHandle)) := by
    intro p bytes hbytes
    rw [Members.find_unlink] at hbytes
    split at hbytes
    · cases hbytes
    · exact h p bytes hbytes
  rcases List.mem_cons.mp hstep with rfl | hstep
  · cases snapshot.destination with
    | missing => exact hput
    | present bytes => exact hput
  · obtain rfl := List.mem_singleton.mp hstep
    exact hunlink

theorem fromBatch_applySteps (h : FromBatch s snapshots t) {steps : List FileStep}
    (hsteps : ∀ step ∈ steps, step ∈ snapshots.flatMap promoteSnapshottedMember) :
    FromBatch s snapshots (applySteps t steps) := by
  induction steps generalizing t with
  | nil => exact h
  | cons step rest ih =>
    obtain ⟨snapshot, hmem, hstep⟩ := List.mem_flatMap.mp (hsteps step List.mem_cons_self)
    exact ih (fromBatch_effect h hmem hstep)
      fun other hother => hsteps other (List.mem_cons_of_mem _ hother)

/-- A promotion keeps documents well named: what it reviewed stood under the same name. -/
theorem named_of_fromBatch (hnamed : WellNamed s)
    (hholds : ∀ snapshot ∈ snapshots, SnapshotHolds s snapshot) (h : FromBatch s snapshots t) :
    WellNamed t := by
  intro p hname bytes hbytes
  rcases h p bytes hbytes with ⟨hkept, -⟩ | ⟨snapshot, hmem, hpname, rfl⟩
  · exact hnamed p hname bytes hkept
  · have hsource : s.find .incoming p.name = some (utf8 snapshot.sourceContent) := by
      rw [hpname]
      exact (hholds snapshot hmem).source
    exact hnamed ⟨.incoming, p.name⟩ hname _ hsource

/-- A name that is not an incoming document of the batch is judged. -/
theorem not_ignored_of_ne {p : MemberPlace} (hname : hasMemberDocumentExtension p.name = true)
    (hne : ∀ snapshot ∈ snapshots, p ≠ .ofHandle .incoming snapshot.memberHandle) :
    isIgnoredExisting (promotionIgnored snapshots) p.status p.stem = false := by
  rw [Bool.eq_false_iff]
  intro hignored
  obtain ⟨ignored, hmem, hmatch⟩ := List.any_eq_true.mp hignored
  obtain ⟨snapshot, hsnapshot, rfl⟩ := List.mem_map.mp hmem
  rw [Bool.and_eq_true] at hmatch
  have hstem : snapshot.memberHandle = p.stem := eq_of_beq hmatch.2
  refine hne snapshot hsnapshot (place_eq_iff.mpr ⟨(eq_of_beq hmatch.1).symm, ?_⟩)
  rw [hstem]
  exact (memberFileName_fileStem hname).symm

theorem judged_of_ne {p : MemberPlace} {key : PublicKey} (h : IsDocument s p key)
    (hne : ∀ snapshot ∈ snapshots, p ≠ .ofHandle .incoming snapshot.memberHandle) :
    Judged s (promotionIgnored snapshots) p := by
  obtain ⟨hname, bytes, hbytes, -⟩ := h
  exact ⟨hname, by rw [hbytes]; rfl, not_ignored_of_ne hname hne⟩

/-- A document is one the batch leaves where it is, or carries the kid of a snapshot. -/
theorem origin_of_document (hcarry : CarryKids snapshots) (h : FromBatch s snapshots t)
    {p : MemberPlace} {key : PublicKey} (hkey : IsDocument t p key) :
    (Judged s (promotionIgnored snapshots) p ∧ IsDocument s p key)
      ∨ ∃ snapshot ∈ snapshots, p.name = memberFileName snapshot.memberHandle
        ∧ key.protect.kid = snapshot.kid := by
  obtain ⟨hname, bytes, hbytes, hread⟩ := hkey
  rcases h p bytes hbytes with ⟨hkept, hne⟩ | ⟨snapshot, hmem, hpname, rfl⟩
  · have hdocument : IsDocument s p key := ⟨hname, bytes, hkept, hread⟩
    exact .inl ⟨judged_of_ne hdocument hne, hdocument⟩
  · obtain ⟨found, hfound, hkid⟩ := hcarry snapshot hmem
    obtain rfl := Option.some.inj (hread.symm.trans hfound)
    exact .inr ⟨snapshot, hmem, hpname, hkid⟩

/-- **ONE KID, ONE NAME**: at any point of a promotion, documents with one kid are one file, or
    both stand under the name of one promoted member. -/
theorem same_name_of_kid (hkids : KidsUnclaimed s (snapshots.map promotionCandidate)
      (promotionIgnored snapshots))
    (hcarry : CarryKids snapshots) (h : FromBatch s snapshots t) {p q : MemberPlace}
    {key other : PublicKey} (hkey : IsDocument t p key) (hother : IsDocument t q other)
    (heq : key.protect.kid = other.protect.kid) :
    p = q ∨ p.name = q.name ∧ ∃ snapshot ∈ snapshots,
      p.name = memberFileName snapshot.memberHandle := by
  rcases origin_of_document hcarry h hkey with ⟨hp, hpkey⟩ | ⟨first, hfirst, hpname, hpkid⟩
  · rcases origin_of_document hcarry h hother with ⟨hq, hqkey⟩ | ⟨second, hsecond, -, hqkid⟩
    · exact .inl (hkids.distinct p q key other hp hq hpkey hqkey heq)
    · exact absurd (heq.trans hqkid) (hkids.unclaimed p key hp hpkey (promotionCandidate second)
        (List.mem_map.mpr ⟨second, hsecond, rfl⟩))
  · rcases origin_of_document hcarry h hother with ⟨hq, hqkey⟩ | ⟨second, hsecond, hqname, hqkid⟩
    · exact absurd (heq.symm.trans hpkid) (hkids.unclaimed q other hq hqkey
        (promotionCandidate first) (List.mem_map.mpr ⟨first, hfirst, rfl⟩))
    · have hnodup := hkids.candidates
      rw [List.map_map] at hnodup
      obtain rfl : first = second := List.inj_on_of_nodup_map hnodup hfirst hsecond
        (hpkid.symm.trans (heq.trans hqkid))
      exact .inr ⟨hpname.trans hqname.symm, first, hfirst, hpname⟩

/-- Where nothing moved yet, the active document of a promoted member has another kid than the
    incoming one. -/
theorem no_twin (hpromotable : Promotable s snapshots) (hcarry : CarryKids snapshots)
    {snapshot : IncomingMemberPromotionSnapshot} (hmem : snapshot ∈ snapshots)
    {key other : PublicKey}
    (hactive : IsDocument s (.ofHandle .active snapshot.memberHandle) key)
    (hincoming : IsDocument s (.ofHandle .incoming snapshot.memberHandle) other) :
    key.protect.kid ≠ other.protect.kid := by
  obtain ⟨found, hfound, hkid⟩ := hcarry snapshot hmem
  obtain ⟨-, bytes, hbytes, hread⟩ := hincoming
  have hsource : some (utf8 snapshot.sourceContent) = some bytes :=
    (hpromotable.holds snapshot hmem).source.symm.trans hbytes
  obtain rfl := Option.some.inj hsource
  obtain rfl := Option.some.inj (hread.symm.trans hfound)
  rw [hkid]
  exact hpromotable.kids.unclaimed _ key
    (judged_of_ne hactive fun _ _ h => by cases (MemberPlace.mk.inj h).1) hactive
    (promotionCandidate snapshot) (List.mem_map.mpr ⟨snapshot, hmem, rfl⟩)

end Promotion

/-! ### Promoted members -/

/-- The store once some members are promoted. -/
def promoted (s : Members) (done : List IncomingMemberPromotionSnapshot) : Members :=
  applySteps s (done.flatMap promoteSnapshottedMember)

/-- Promoting one member writes its text to active and removes it from incoming. -/
theorem applySteps_member (s : Members) (snapshot : IncomingMemberPromotionSnapshot) :
    applySteps s (promoteSnapshottedMember snapshot)
      = (s.put .active (memberFileName snapshot.memberHandle) (utf8 snapshot.sourceContent)).unlink
        .incoming (memberFileName snapshot.memberHandle) := by
  rw [promoteSnapshottedMember]
  cases snapshot.destination <;> rfl

theorem applySteps_take_one (s : Members) (snapshot : IncomingMemberPromotionSnapshot) :
    applySteps s ((promoteSnapshottedMember snapshot).take 1)
      = s.put .active (memberFileName snapshot.memberHandle) (utf8 snapshot.sourceContent) := by
  rw [promoteSnapshottedMember]
  cases snapshot.destination <;> rfl

theorem promoted_cons (s : Members) (snapshot : IncomingMemberPromotionSnapshot)
    (done : List IncomingMemberPromotionSnapshot) :
    promoted s (snapshot :: done)
      = promoted ((s.put .active (memberFileName snapshot.memberHandle)
          (utf8 snapshot.sourceContent)).unlink .incoming (memberFileName snapshot.memberHandle))
        done := by
  rw [promoted, List.flatMap_cons, applySteps_append, applySteps_member, promoted]

/-- Files under other names stay. -/
theorem find_promoted_other {s : Members} {done : List IncomingMemberPromotionSnapshot}
    {name : String} (h : ∀ snapshot ∈ done, name ≠ memberFileName snapshot.memberHandle)
    (status : MemberStatus) : (promoted s done).find status name = s.find status name := by
  induction done generalizing s with
  | nil => rfl
  | cons snapshot done ih =>
    have hne := h snapshot List.mem_cons_self
    rw [promoted_cons, ih fun other hother => h other (List.mem_cons_of_mem _ hother),
      Members.find_unlink, if_neg fun h => hne h.2, Members.find_put, if_neg fun h => hne h.2]

/-- A promoted member is gone from incoming. -/
theorem find_promoted_incoming {s : Members} {done : List IncomingMemberPromotionSnapshot}
    {name : String} (h : ∃ snapshot ∈ done, name = memberFileName snapshot.memberHandle) :
    (promoted s done).find .incoming name = none := by
  induction done generalizing s with
  | nil =>
    obtain ⟨_, hmem, _⟩ := h
    exact absurd hmem List.not_mem_nil
  | cons head done ih =>
    rw [promoted_cons]
    by_cases hrest : ∃ snapshot ∈ done, name = memberFileName snapshot.memberHandle
    · exact ih hrest
    · obtain ⟨snapshot, hmem, hname⟩ := h
      rcases List.mem_cons.mp hmem with rfl | hmem
      · rw [find_promoted_other fun other hother heq => hrest ⟨other, hother, heq⟩,
          Members.find_unlink, if_pos ⟨rfl, hname⟩]
      · exact absurd ⟨snapshot, hmem, hname⟩ hrest

/-- A promoted member's reviewed text is in active. -/
theorem find_promoted_active {s : Members} {done : List IncomingMemberPromotionSnapshot}
    (hnodup : (done.map (·.memberHandle)).Nodup) {snapshot : IncomingMemberPromotionSnapshot}
    (hmem : snapshot ∈ done) :
    (promoted s done).find .active (memberFileName snapshot.memberHandle)
      = some (utf8 snapshot.sourceContent) := by
  induction done generalizing s with
  | nil => exact absurd hmem List.not_mem_nil
  | cons head done ih =>
    rw [List.map_cons, List.nodup_cons] at hnodup
    rw [promoted_cons]
    rcases List.mem_cons.mp hmem with rfl | hmem
    · have hother : ∀ other ∈ done, memberFileName snapshot.memberHandle
          ≠ memberFileName other.memberHandle := fun other hother heq =>
        hnodup.1 (List.mem_map.mpr ⟨other, hother, (memberFileName_inj heq).symm⟩)
      rw [find_promoted_other hother, Members.find_unlink, if_neg (fun h => by cases h.1),
        Members.find_put, if_pos ⟨rfl, rfl⟩]
    · exact ih hnodup.2 hmem

/-- Cutting a concatenation of pairs: whole pairs, and then one more element or none. -/
theorem take_flatMap_pairs {α β : Type} {f : α → List β} (hf : ∀ x, (f x).length = 2)
    (xs : List α) {count : Nat} (hcount : count ≤ 2 * xs.length) :
    ∃ done rest, xs = done ++ rest
      ∧ ((count = 2 * done.length ∧ (xs.flatMap f).take count = done.flatMap f)
        ∨ ∃ next later, rest = next :: later ∧ count = 2 * done.length + 1
          ∧ (xs.flatMap f).take count = done.flatMap f ++ (f next).take 1) := by
  induction xs generalizing count with
  | nil =>
    obtain rfl := Nat.le_zero.mp hcount
    exact ⟨[], [], rfl, .inl ⟨rfl, rfl⟩⟩
  | cons x xs ih =>
    rw [List.flatMap_cons]
    rcases count with _ | _ | count
    · exact ⟨[], x :: xs, rfl, .inl ⟨rfl, rfl⟩⟩
    · refine ⟨[], x :: xs, rfl, .inr ⟨x, xs, rfl, rfl, ?_⟩⟩
      rw [List.take_append_of_le_length (by rw [hf x]; omega)]
      rfl
    · rw [List.length_cons] at hcount
      obtain ⟨done, rest, rfl, hcut⟩ := @ih count (by omega)
      have htake : ∀ tail : List β, (f x ++ tail).take (count + 2) = f x ++ tail.take count := by
        intro tail
        rw [List.take_append, hf x, List.take_of_length_le (by rw [hf x]; omega),
          Nat.add_sub_cancel]
      refine ⟨x :: done, rest, rfl, ?_⟩
      rw [htake, List.length_cons, List.flatMap_cons]
      rcases hcut with ⟨hcount, heq⟩ | ⟨next, later, hrest, hcount, heq⟩
      · exact .inl ⟨by omega, by rw [heq]⟩
      · exact .inr ⟨next, later, hrest, by omega, by rw [heq, List.append_assoc]⟩

theorem length_promoteSnapshottedMember (snapshot : IncomingMemberPromotionSnapshot) :
    (promoteSnapshottedMember snapshot).length = 2 := rfl

/-- Two steps for each member. -/
theorem length_promotion (snapshots : List IncomingMemberPromotionSnapshot) :
    (snapshots.flatMap promoteSnapshottedMember).length = 2 * snapshots.length := by
  induction snapshots with
  | nil => rfl
  | cons snapshot rest ih =>
    rw [List.flatMap_cons, List.length_append, ih, length_promoteSnapshottedMember,
      List.length_cons]
    omega

section Cuts

variable {s : Members} {snapshots : List IncomingMemberPromotionSnapshot}

/-- A batch names each member once. -/
theorem nodup_memberHandles (hpromotable : Promotable s snapshots) (hcarry : CarryKids snapshots) :
    (snapshots.map (·.memberHandle)).Nodup := by
  have hkids := hpromotable.kids.candidates
  rw [List.map_map, List.Nodup, List.pairwise_map] at hkids
  rw [List.Nodup, List.pairwise_map]
  refine hkids.imp_of_mem fun {first second} hfirst hsecond hne heq => hne ?_
  have hsource := (hpromotable.holds first hfirst).source
  rw [heq] at hsource
  have htext : utf8 first.sourceContent = utf8 second.sourceContent :=
    Option.some.inj (hsource.symm.trans (hpromotable.holds second hsecond).source)
  obtain ⟨key, hkey, hkid⟩ := hcarry first hfirst
  obtain ⟨other, hother, hotherKid⟩ := hcarry second hsecond
  rw [htext] at hkey
  obtain rfl := Option.some.inj (hkey.symm.trans hother)
  exact hkid.symm.trans hotherKid

/-- The promotion of a batch, cut after any number of file steps: either whole members were
    promoted, or the next one is saved to active and still in incoming. -/
theorem cut_promotion {count : Nat} (hcount : count ≤ 2 * snapshots.length) :
    ∃ done rest, snapshots = done ++ rest
      ∧ ((count = 2 * done.length
          ∧ applySteps s ((snapshots.flatMap promoteSnapshottedMember).take count)
            = promoted s done)
        ∨ ∃ next later, rest = next :: later ∧ count = 2 * done.length + 1
          ∧ applySteps s ((snapshots.flatMap promoteSnapshottedMember).take count)
            = (promoted s done).put .active (memberFileName next.memberHandle)
                (utf8 next.sourceContent)) := by
  obtain ⟨done, rest, hsplit, hcut⟩ :=
    take_flatMap_pairs length_promoteSnapshottedMember snapshots hcount
  refine ⟨done, rest, hsplit, ?_⟩
  rcases hcut with ⟨hcount, heq⟩ | ⟨next, later, hrest, hcount, heq⟩
  · exact .inl ⟨hcount, by rw [heq, promoted]⟩
  · refine .inr ⟨next, later, hrest, hcount, ?_⟩
    rw [heq, applySteps_append, applySteps_take_one, promoted]

/-- Two files under one name are one file, or the two of `active/` and `incoming/`. -/
theorem eq_or_both {p q : MemberPlace} (h : p.name = q.name) :
    p = q ∨ ∃ active incoming, (p = active ∧ q = incoming ∨ p = incoming ∧ q = active)
      ∧ active = ⟨.active, p.name⟩ ∧ incoming = ⟨.incoming, p.name⟩ := by
  obtain ⟨pstatus, pname⟩ := p
  obtain ⟨qstatus, qname⟩ := q
  obtain rfl : pname = qname := h
  cases pstatus <;> cases qstatus
  · exact .inl rfl
  · exact .inr ⟨_, _, .inl ⟨rfl, rfl⟩, rfl, rfl⟩
  · exact .inr ⟨_, _, .inr ⟨rfl, rfl⟩, rfl, rfl⟩
  · exact .inl rfl

/-- Documents of one kid under the name of a member that is either promoted or untouched are one
    file. -/
theorem eq_of_name {t : Members} (hpromotable : Promotable s snapshots)
    (hcarry : CarryKids snapshots) {p q : MemberPlace} {key other : PublicKey}
    (hkey : IsDocument t p key) (hother : IsDocument t q other)
    (heq : key.protect.kid = other.protect.kid) (hname : p.name = q.name)
    {snapshot : IncomingMemberPromotionSnapshot} (hmem : snapshot ∈ snapshots)
    (hpname : p.name = memberFileName snapshot.memberHandle)
    (hstate : t.find .incoming p.name = none
      ∨ ∀ status, t.find status p.name = s.find status p.name) : p = q := by
  rcases eq_or_both hname with heq | ⟨active, incoming, hplaces, rfl, rfl⟩
  · exact heq
  · have hboth : ∀ {first second : PublicKey}, IsDocument t ⟨.active, p.name⟩ first →
        IsDocument t ⟨.incoming, p.name⟩ second →
        first.protect.kid ≠ second.protect.kid := by
      intro first second hfirst hsecond
      obtain ⟨hdocument, bytes, hbytes, hread⟩ := hfirst
      obtain ⟨hdocument', bytes', hbytes', hread'⟩ := hsecond
      rcases hstate with hgone | hsame
      · cases hgone.symm.trans hbytes'
      · rw [hsame] at hbytes hbytes'
        refine no_twin hpromotable hcarry hmem ?_ ?_
        · rw [MemberPlace.ofHandle, ← hpname]
          exact ⟨hdocument, bytes, hbytes, hread⟩
        · rw [MemberPlace.ofHandle, ← hpname]
          exact ⟨hdocument', bytes', hbytes', hread'⟩
    rcases hplaces with ⟨hp, hq⟩ | ⟨hp, hq⟩
    · rw [hp] at hkey
      rw [hq] at hother
      exact absurd heq (hboth hkey hother)
    · rw [hp] at hkey
      rw [hq] at hother
      exact absurd heq.symm (hboth hother hkey)

/-- Promoting some members of a batch leaves the store settled. -/
theorem settled_promoted (hnamed : WellNamed s) (hpromotable : Promotable s snapshots)
    (hcarry : CarryKids snapshots) {done rest : List IncomingMemberPromotionSnapshot}
    (hsplit : snapshots = done ++ rest) : Settled (promoted s done) := by
  have hbatch : FromBatch s snapshots (promoted s done) := by
    refine fromBatch_applySteps (fromBatch_self hpromotable.holds) fun step hstep => ?_
    rw [hsplit, List.flatMap_append]
    exact List.mem_append_left _ hstep
  refine ⟨named_of_fromBatch hnamed hpromotable.holds hbatch, ?_⟩
  intro p q key other hkey hother heq
  rcases same_name_of_kid hpromotable.kids hcarry hbatch hkey hother heq
    with hsame | ⟨hname, snapshot, hmem, hpname⟩
  · exact hsame
  · refine eq_of_name hpromotable hcarry hkey hother heq hname hmem hpname ?_
    by_cases hdone : ∃ other ∈ done, p.name = memberFileName other.memberHandle
    · exact .inl (find_promoted_incoming hdone)
    · exact .inr (find_promoted_other fun other hother heq => hdone ⟨other, hother, heq⟩)

/-- A promotion cut between its two file steps leaves that member's document in both places. -/
theorem leftIn_promoted (hnamed : WellNamed s) (hpromotable : Promotable s snapshots)
    (hcarry : CarryKids snapshots) {done later : List IncomingMemberPromotionSnapshot}
    {next : IncomingMemberPromotionSnapshot} (hsplit : snapshots = done ++ next :: later) :
    LeftIn ((promoted s done).put .active (memberFileName next.memberHandle)
      (utf8 next.sourceContent)) next.memberHandle := by
  have hnext : next ∈ snapshots := by
    rw [hsplit]
    exact List.mem_append_right _ List.mem_cons_self
  -- The members before this one have other names, so its incoming file still stands.
  have hfresh : ∀ other ∈ done, memberFileName next.memberHandle
      ≠ memberFileName other.memberHandle := by
    intro other hother heq
    have hnodup := nodup_memberHandles hpromotable hcarry
    rw [hsplit, List.map_append, List.nodup_append] at hnodup
    refine hnodup.2.2 other.memberHandle (List.mem_map.mpr ⟨other, hother, rfl⟩)
      next.memberHandle (List.mem_map.mpr ⟨next, List.mem_cons_self, rfl⟩) ?_
    exact (memberFileName_inj heq).symm
  have hbatch : FromBatch s snapshots ((promoted s done).put .active
      (memberFileName next.memberHandle) (utf8 next.sourceContent)) := by
    rw [← applySteps_take_one, promoted, ← applySteps_append]
    refine fromBatch_applySteps (fromBatch_self hpromotable.holds) fun step hstep => ?_
    rw [hsplit, List.flatMap_append, List.flatMap_cons]
    rcases List.mem_append.mp hstep with hstep | hstep
    · exact List.mem_append_left _ hstep
    · exact List.mem_append_right _ (List.mem_append_left _ (List.mem_of_mem_take hstep))
  refine ⟨named_of_fromBatch hnamed hpromotable.holds hbatch, ⟨utf8 next.sourceContent, ?_, ?_⟩, ?_⟩
  · rw [Members.find_put, if_pos ⟨rfl, rfl⟩]
  · rw [Members.find_put, if_neg fun h => by cases h.1]
    exact (find_promoted_other hfresh .incoming).trans (hpromotable.holds next hnext).source
  · intro p q key other hkey hother heq
    rcases same_name_of_kid hpromotable.kids hcarry hbatch hkey hother heq
      with hsame | ⟨hname, snapshot, hmem, hpname⟩
    · exact .inl hsame
    -- Two places with one kid are the two places of this member, or one place.
    · by_cases htwice : p.name = memberFileName next.memberHandle
      · exact .inr ⟨htwice, hname.symm.trans htwice⟩
      · refine .inl (eq_of_name hpromotable hcarry hkey hother heq hname hmem hpname ?_)
        have hput : ∀ status, ((promoted s done).put .active (memberFileName next.memberHandle)
            (utf8 next.sourceContent)).find status p.name = (promoted s done).find status p.name :=
          fun status => by rw [Members.find_put, if_neg fun h => htwice h.2]
        rw [hput]
        by_cases hdone : ∃ other ∈ done, p.name = memberFileName other.memberHandle
        · exact .inl (find_promoted_incoming hdone)
        · refine .inr fun status => (hput status).trans ?_
          exact find_promoted_other (fun other hother heq => hdone ⟨other, hother, heq⟩) status

end Cuts

/-! ### No step of an operation refuses -/

/-- A member handle has at most 128 characters, all of them handle characters. -/
theorem chars_of_handleText {memberHandle : String} (h : isMemberHandleText memberHandle = true) :
    (∀ c ∈ memberHandle.toList, isHandleChar c = true) ∧ memberHandle.toList.length ≤ 128
      ∧ memberHandle.toList ≠ [] := by
  rw [isMemberHandleText] at h
  split at h
  · cases h
  · rename_i first rest hlist
    rw [Bool.and_eq_true, Bool.and_eq_true] at h
    refine ⟨fun c hc => ?_, ?_, by rw [hlist]; exact List.cons_ne_nil _ _⟩
    · rw [hlist] at hc
      rcases List.mem_cons.mp hc with rfl | hc
      · rw [isHandleChar, h.1.1]
        rfl
      · exact List.all_eq_true.mp h.1.2 c hc
    · rw [hlist, List.length_cons]
      exact Nat.succ_le_succ (of_decide_eq_true h.2)

/-- A handle character is one byte. -/
theorem utf8Size_handleChar {c : Char} (h : isHandleChar c = true) : c.utf8Size = 1 := by
  have hsmall : c.val ≤ 127 := by
    simp only [isHandleChar, Bool.or_eq_true, beq_iff_eq, isAlphanum_iff_toNat] at h
    rcases h with ((((((⟨_, hle⟩ | ⟨_, hle⟩) | ⟨_, hle⟩) | rfl) | rfl) | rfl) | rfl) | rfl
    · exact UInt32.le_iff_toNat_le.mpr (Nat.le_trans hle (by decide))
    · exact UInt32.le_iff_toNat_le.mpr (Nat.le_trans hle (by decide))
    · exact UInt32.le_iff_toNat_le.mpr (Nat.le_trans hle (by decide))
    all_goals decide
  rw [Char.utf8Size]
  exact if_pos hsmall

/-- A member handle leaves room for the staging name of its file. -/
theorem memberFileName_size {memberHandle : String} (h : isMemberHandleText memberHandle = true) :
    (memberFileName memberHandle).utf8ByteSize ≤ maxAtomicWriteTargetNameLength := by
  have hsize : ∀ cs : List Char, (∀ c ∈ cs, isHandleChar c = true) →
      JsonSize.charsSize cs = cs.length := by
    intro cs hcs
    induction cs with
    | nil => rfl
    | cons c cs ih =>
      rw [JsonSize.charsSize_cons, utf8Size_handleChar (hcs c List.mem_cons_self),
        ih fun d hd => hcs d (List.mem_cons_of_mem _ hd), List.length_cons, Nat.add_comm]
  obtain ⟨hchars, hlength, -⟩ := chars_of_handleText h
  have hhandle : memberHandle.utf8ByteSize ≤ 128 := by
    rw [← @String.ofList_toList memberHandle, JsonSize.utf8ByteSize_ofList, hsize _ hchars]
    exact hlength
  rw [memberFileName, String.utf8ByteSize_append]
  exact le_trans (Nat.add_le_add_right hhandle _) (by decide)

/-- The file name of a member handle is a single path component. -/
theorem checkedChildName_memberFileName {memberHandle : String}
    (h : isMemberHandleText memberHandle = true) :
    checkedChildName (memberFileName memberHandle) = .ok () := by
  obtain ⟨hchars, -, hne⟩ := chars_of_handleText h
  have hforbidden : (memberFileName memberHandle).toList.any
      (fun c => c == '\\' || c == '/' || c == '\x00') = false := by
    rw [toList_memberFileName, List.any_append, Bool.or_eq_false_iff]
    refine ⟨List.any_eq_false.mpr fun c hc hbad => ?_, by decide⟩
    rw [Bool.or_eq_true, Bool.or_eq_true, beq_iff_eq, beq_iff_eq, beq_iff_eq] at hbad
    have hhandle := hchars c hc
    rcases hbad with (rfl | rfl) | rfl
    · exact absurd hhandle (by decide)
    · exact absurd hhandle (by decide)
    · exact absurd hhandle (by decide)
  have hlong : ∀ other : String, other.toList.length ≤ 2 →
      (memberFileName memberHandle == other) = false := by
    intro other hother
    rw [beq_eq_false_iff_ne]
    rintro rfl
    rw [toList_memberFileName, List.length_append, json_length] at hother
    omega
  rw [checkedChildName, hforbidden, hlong "" (by decide), hlong "." (by decide),
    hlong ".." (by decide)]
  rfl

theorem checkedAtomicWriteTargetName_of {name : String} (hname : checkedChildName name = .ok ())
    (hsize : name.utf8ByteSize ≤ maxAtomicWriteTargetNameLength) :
    checkedAtomicWriteTargetName name = .ok () := by
  rw [checkedAtomicWriteTargetName, if_neg (Nat.not_lt.mpr hsize)]
  exact hname

/-- The name of a reviewed incoming document can be written. -/
theorem target_of_snapshot {s : Members} {snapshot : IncomingMemberPromotionSnapshot}
    (h : SnapshotHolds s snapshot) (hnamed : WellNamed s) :
    checkedAtomicWriteTargetName (memberFileName snapshot.memberHandle) = .ok () := by
  refine checkedAtomicWriteTargetName_of h.name ?_
  by_cases hempty : snapshot.memberHandle = ""
  · rw [hempty]
    decide
  · obtain ⟨key, hkey, hsubject⟩ := hnamed (.ofHandle .incoming snapshot.memberHandle)
      (hasExtension_memberFileName hempty) _ h.source
    rw [MemberPlace.stem_ofHandle] at hsubject
    exact memberFileName_size (hsubject ▸ handleText_of_readDocument hkey)

/-- The steps of a batch pass their checks as long as each member still stands as reviewed. -/
theorem checksPass_promotion {s : Members} {snapshots : List IncomingMemberPromotionSnapshot}
    (hnodup : (snapshots.map (·.memberHandle)).Nodup)
    (hsnapshots : ∀ snapshot ∈ snapshots,
      checkedAtomicWriteTargetName (memberFileName snapshot.memberHandle) = .ok ()
        ∧ (s.find .incoming (memberFileName snapshot.memberHandle)).isSome = true
        ∧ destinationAt s (memberFileName snapshot.memberHandle) = snapshot.destination) :
    ChecksPass s (snapshots.flatMap promoteSnapshottedMember) := by
  induction snapshots generalizing s with
  | nil => trivial
  | cons snapshot rest ih =>
    rw [List.map_cons, List.nodup_cons] at hnodup
    obtain ⟨htarget, hincoming, hdestination⟩ := hsnapshots snapshot List.mem_cons_self
    -- Handles differ, so file names do: one promotion leaves the files of the others.
    have hne : ∀ other ∈ rest, memberFileName other.memberHandle
        ≠ memberFileName snapshot.memberHandle := fun other hother heq =>
      hnodup.1 (List.mem_map.mpr ⟨other, hother, memberFileName_inj heq⟩)
    have hclean : FileStep.check (s.put .active (memberFileName snapshot.memberHandle)
        (utf8 snapshot.sourceContent)) (.cleanIncoming snapshot.memberHandle) = .ok () := by
      refine if_pos ?_
      rw [Members.find_put, if_neg (fun h => by cases h.1)]
      exact hincoming
    have hrest : ChecksPass ((s.put .active (memberFileName snapshot.memberHandle)
        (utf8 snapshot.sourceContent)).unlink .incoming (memberFileName snapshot.memberHandle))
        (rest.flatMap promoteSnapshottedMember) := by
      refine ih hnodup.2 fun other hother => ?_
      obtain ⟨hotherTarget, hotherIncoming, hotherDestination⟩ :=
        hsnapshots other (List.mem_cons_of_mem _ hother)
      -- What is still to be promoted looks as it did before this member.
      have hkept : ∀ status, ((s.put .active (memberFileName snapshot.memberHandle)
          (utf8 snapshot.sourceContent)).unlink .incoming
            (memberFileName snapshot.memberHandle)).find status (memberFileName other.memberHandle)
              = s.find status (memberFileName other.memberHandle) := by
        intro status
        rw [Members.find_unlink, if_neg (fun h => hne other hother h.2), Members.find_put,
          if_neg (fun h => hne other hother h.2)]
      refine ⟨hotherTarget, ?_, ?_⟩
      · rw [hkept]
        exact hotherIncoming
      · rw [destinationAt, hkept]
        exact hotherDestination
    rw [List.flatMap_cons, promoteSnapshottedMember]
    cases hstate : snapshot.destination with
    | missing =>
      rw [hstate] at hdestination
      have hfree : (s.find .active (memberFileName snapshot.memberHandle)).isSome = false := by
        rw [destinationAt] at hdestination
        split at hdestination
        · rename_i hnone
          rw [hnone]
          rfl
        · cases hdestination
      refine ⟨?_, hclean, hrest⟩
      refine bind_eq_ok.mpr ⟨(), htarget, ?_⟩
      rw [hfree]
      rfl
    | present bytes => exact ⟨htarget, hclean, hrest⟩

end MemberInvariants
