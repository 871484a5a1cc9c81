import Kapsaro.ToyTrust
import Kapsaro.TrustTransaction

/-!
# Trust purge — the list a purge works on

`TrustStore.purgeRecords` gives what a purge removes and what it retains.  The program computes
both in one loop over `records.drain(..)`, and a loop that ends early leaves the list it was
draining behind.

* **`ApprovalRecord`** — a stored approval a purge can select by its recorded time.
* **`collectPurgeCandidates`** — the dry run: the records a cut-off selects, none of them touched.
* **`drainRecords`**, **`purgeRecordsFrom`** — the loop, with the list it leaves.
* **`PurgesFaithfully`** — what a caller expects: a purge that succeeds removes the candidates, a
  purge that fails changes nothing.
* **`DatedLists`** — every time in the two lists of a store can be read.
* **`PurgeLaws`** — dated lists are purged as expected, and the program purges no others.

A purge that meets a time it cannot read leaves an EMPTY list.  No such list reaches it: the times
of a store are read when the store is verified, before any edit runs on it.
-/

namespace TrustPurge

open JsonText JsonMembers Limits TextLines WireModel DocumentTokens Envelope TrustRecords
open TrustStore TrustSoundness TrustApprovals TrustDocument TrustTransaction

/-! ## The records -/

/-- A stored approval a purge can select by its recorded time. -/
class ApprovalRecord (R : Type) where
  /-- how the timestamp is named in the stored document -/
  approvedAtField : String
  approvedAt : R → String

instance : ApprovalRecord KnownKey where
  approvedAtField := "known_keys[].approved_at"
  approvedAt := KnownKey.approvedAt

instance : ApprovalRecord RecipientSetRecord where
  approvedAtField := "recipient_sets[].approved_at"
  approvedAt := RecipientSetRecord.approvedAt

variable {R : Type} [ApprovalRecord R]

/-- When a record says it was approved. -/
def approvalTime (P : TextParsers) (record : R) : Except Error Int :=
  parseApprovedAt P (ApprovalRecord.approvedAtField R) (ApprovalRecord.approvedAt record)

/-- The time of a record can be read. -/
def Dated (P : TextParsers) (record : R) : Prop :=
  (P.rfc3339 (ApprovalRecord.approvedAt record)).isSome = true

instance (P : TextParsers) (record : R) : Decidable (Dated P record) :=
  inferInstanceAs (Decidable (_ = true))

/-- The cut-off selects a record: it was approved strictly before. -/
def approvedBefore (P : TextParsers) (olderThan : Int) (record : R) : Bool :=
  match P.rfc3339 (ApprovalRecord.approvedAt record) with
  | some approved => decide (approved < olderThan)
  | none => false

variable {P : TextParsers} {olderThan : Int}

/-- A dated record has a time, and the cut-off judges that time. -/
theorem Dated.time {record : R} (h : Dated P record) (olderThan : Int) :
    ∃ approved, approvalTime P record = .ok approved ∧
      approvedBefore P olderThan record = decide (approved < olderThan) := by
  obtain ⟨approved, happroved⟩ := Option.isSome_iff_exists.mp h
  refine ⟨approved, ?_, ?_⟩
  · rw [approvalTime, parseApprovedAt, happroved]
  · rw [approvedBefore, happroved]

/-- A record whose time can be asked for is dated. -/
theorem dated_of_time {record : R} {approved : Int} (h : approvalTime P record = .ok approved) :
    Dated P record := by
  rw [approvalTime, parseApprovedAt] at h
  cases htime : P.rfc3339 (ApprovalRecord.approvedAt record) with
  | some instant => exact Option.isSome_iff_exists.mpr ⟨instant, htime⟩
  | none =>
    rw [htime] at h
    cases h

/-! ## The dry run -/

/-- The records a cut-off selects, in the order they are stored. -/
def collectPurgeCandidates (P : TextParsers) (olderThan : Int) : List R → Except Error (List R)
  | [] => .ok []
  | record :: rest => do
    let approved ← approvalTime P record
    let candidates ← collectPurgeCandidates P olderThan rest
    pure (if approved < olderThan then record :: candidates else candidates)

/-- Over dated records the candidates are the records approved before the cut-off. -/
theorem collectPurgeCandidates_of_dated {records : List R} (h : ∀ r ∈ records, Dated P r) :
    collectPurgeCandidates P olderThan records
      = .ok (records.filter (approvedBefore P olderThan)) := by
  induction records with
  | nil => rfl
  | cons record rest ih =>
    obtain ⟨approved, htime, hbefore⟩ := (h record List.mem_cons_self).time olderThan
    rw [collectPurgeCandidates, htime, ih fun r hr => h r (List.mem_cons_of_mem _ hr),
      List.filter_cons, hbefore]
    show Except.ok _ = Except.ok _
    simp only [decide_eq_true_eq]

/-! ## The loop -/

/-- `for record in records.drain(..)`: the records not judged yet, and those judged so far.  The
    list itself is empty while it is drained; `*records = retained` is reached at the end only. -/
def drainRecords (P : TextParsers) (olderThan : Int) :
    List R → List R → List R → Except Error (List R) × List R
  | [], removed, retained => (.ok removed, retained)
  | record :: draining, removed, retained =>
    match approvalTime P record with
    -- `?` returns, and dropping the drain drops what was not judged yet as well
    | .error e => (.error e, [])
    | .ok approved =>
      if approved < olderThan then drainRecords P olderThan draining (removed ++ [record]) retained
      else drainRecords P olderThan draining removed (retained ++ [record])

/-- `purge_records`: its result, and the list it leaves. -/
def purgeRecordsFrom (P : TextParsers) (olderThan : Int) (records : List R) :
    Except Error (List R) × List R :=
  drainRecords P olderThan records [] []

/-- The loop over dated records splits them at the cut-off. -/
theorem drainRecords_of_dated (olderThan : Int) {draining : List R} (h : ∀ r ∈ draining, Dated P r)
    (removed retained : List R) :
    drainRecords P olderThan draining removed retained
      = (.ok (removed ++ draining.filter (approvedBefore P olderThan)),
          retained ++ draining.filter fun r => !approvedBefore P olderThan r) := by
  induction draining generalizing removed retained with
  | nil =>
    rw [List.filter_nil, List.filter_nil, List.append_nil, List.append_nil]
    rfl
  | cons record rest ih =>
    obtain ⟨approved, htime, hbefore⟩ := (h record List.mem_cons_self).time olderThan
    have hrest := ih fun r hr => h r (List.mem_cons_of_mem _ hr)
    rw [drainRecords, htime]
    dsimp only
    rw [List.filter_cons, List.filter_cons, hbefore]
    by_cases hold : approved < olderThan
    · rw [if_pos hold, hrest, decide_eq_true hold, List.append_assoc]
      rfl
    · rw [if_neg hold, hrest, decide_eq_false hold, List.append_assoc]
      rfl

/-- The loop over a list with a record that is not dated fails, and the list is empty. -/
theorem drainRecords_of_not_dated (olderThan : Int) {draining : List R}
    (h : ∃ r ∈ draining, ¬ Dated P r)
    (removed retained : List R) :
    ∃ e, drainRecords P olderThan draining removed retained = (.error e, []) := by
  induction draining generalizing removed retained with
  | nil =>
    obtain ⟨r, hr, _⟩ := h
    exact absurd hr List.not_mem_nil
  | cons record rest ih =>
    rw [drainRecords]
    cases htime : approvalTime P record with
    | error e => exact ⟨e, rfl⟩
    | ok approved =>
      have hrest : ∃ r ∈ rest, ¬ Dated P r := by
        obtain ⟨r, hr, hundated⟩ := h
        rcases List.mem_cons.mp hr with rfl | hr
        · exact absurd (dated_of_time htime) hundated
        · exact ⟨r, hr, hundated⟩
      dsimp only
      split
      · exact ih hrest _ _
      · exact ih hrest _ _

/-- **THE LOOP IS THE PURGE** of the trust store, as long as the purge succeeds. -/
theorem purgeRecordsFrom_eq (records : List R) :
    purgeRecordsFrom P olderThan records
      = match purgeRecords P (ApprovalRecord.approvedAtField R) ApprovalRecord.approvedAt olderThan
          records with
        | .ok (removed, retained) => (.ok removed, retained)
        | .error e => (.error e, []) := by
  suffices h : ∀ removed retained : List R, drainRecords P olderThan records removed retained
      = match purgeRecords P (ApprovalRecord.approvedAtField R) ApprovalRecord.approvedAt olderThan
          records with
        | .ok (more, kept) => (.ok (removed ++ more), retained ++ kept)
        | .error e => (.error e, []) from h [] []
  induction records with
  | nil =>
    intro removed retained
    show (Except.ok removed, retained) = (Except.ok (removed ++ []), retained ++ [])
    rw [List.append_nil, List.append_nil]
  | cons record rest ih =>
    intro removed retained
    rw [drainRecords, purgeRecords, approvalTime]
    cases parseApprovedAt P (ApprovalRecord.approvedAtField R)
        (ApprovalRecord.approvedAt record) with
    | error e => rfl
    | ok approved =>
      simp only [ih]
      cases purgeRecords P (ApprovalRecord.approvedAtField R) ApprovalRecord.approvedAt olderThan
          rest with
      | error e =>
        show (if approved < olderThan then (Except.error e, []) else (Except.error e, []))
          = (Except.error e, [])
        exact ite_self _
      | ok split =>
        obtain ⟨more, kept⟩ := split
        by_cases hold : approved < olderThan
        · simp [hold, bind, Except.bind, pure, Except.pure]
        · simp [hold, bind, Except.bind, pure, Except.pure]

/-! ## What a caller expects -/

/-- What a purge of a list promises: its success removes what the dry run lists and retains the
    rest in order, and its failure leaves the list as it was. -/
structure PurgesFaithfully (P : TextParsers) (olderThan : Int) (records : List R) : Prop where
  /-- the removed records are those of the dry run, in its order -/
  removed : ∀ removed, (purgeRecordsFrom P olderThan records).1 = .ok removed →
    collectPurgeCandidates P olderThan records = .ok removed
  /-- the retained records keep their order, and nothing but the removed records is missing -/
  retained : ∀ removed, (purgeRecordsFrom P olderThan records).1 = .ok removed →
    (purgeRecordsFrom P olderThan records).2.Sublist records ∧
      records.Perm (removed ++ (purgeRecordsFrom P olderThan records).2)
  /-- a failure changes nothing -/
  failed : ∀ e, (purgeRecordsFrom P olderThan records).1 = .error e →
    (purgeRecordsFrom P olderThan records).2 = records

/-- A list of dated records is purged as promised. -/
theorem purgesFaithfully_of_dated {records : List R} (h : ∀ r ∈ records, Dated P r) :
    PurgesFaithfully P olderThan records := by
  have hpurge := drainRecords_of_dated olderThan h [] []
  rw [List.nil_append, List.nil_append] at hpurge
  constructor
  · intro removed hok
    rw [purgeRecordsFrom, hpurge] at hok
    rw [collectPurgeCandidates_of_dated h]
    exact hok
  · intro removed hok
    rw [purgeRecordsFrom, hpurge] at hok ⊢
    obtain rfl := Except.ok.inj hok
    exact ⟨List.filter_sublist, (List.filter_append_perm _ records).symm⟩
  · intro e herror
    rw [purgeRecordsFrom, hpurge] at herror
    cases herror

/-- **A PURGE KEEPS ITS PROMISE EXACTLY WHEN IT CAN READ EVERY TIME**: a time it cannot read ends
    the loop, and the list, which was not empty, is. -/
theorem purgesFaithfully_iff (P : TextParsers) (olderThan : Int) (records : List R) :
    PurgesFaithfully P olderThan records ↔ ∀ r ∈ records, Dated P r := by
  refine ⟨fun hfaithful => ?_, purgesFaithfully_of_dated⟩
  by_contra hundated
  have hsome : ∃ r ∈ records, ¬ Dated P r := by
    simpa only [not_forall, exists_prop] using hundated
  obtain ⟨e, hpurge⟩ := drainRecords_of_not_dated olderThan hsome [] []
  have hempty : records = [] := by
    have hleft := hfaithful.failed e (congrArg Prod.fst hpurge)
    rw [purgeRecordsFrom, hpurge] at hleft
    exact hleft.symm
  obtain ⟨r, hr, _⟩ := hsome
  rw [hempty] at hr
  exact absurd hr List.not_mem_nil

/-- A list of dated records is purged, whatever the cut-off. -/
theorem purgeRecordsFrom_of_dated {records : List R} (h : ∀ r ∈ records, Dated P r) :
    (purgeRecordsFrom P olderThan records).1
      = .ok (records.filter (approvedBefore P olderThan)) := by
  rw [purgeRecordsFrom, drainRecords_of_dated olderThan h, List.nil_append]

/-- Two known keys of a store; the time of the second is no RFC 3339 text. -/
def halfDatedKeys : List KnownKey :=
  [⟨"KJD1AAAA1111BBBB2222CCCC3333DDDD", "bob", "2026-03-29T12:40:00Z", .manualReview, none, []⟩,
    ⟨"KJD2AAAA1111BBBB2222CCCC3333DDDD", "carol", "not-a-timestamp", .manualReview, none, []⟩]

/-- **A FAILED PURGE LOSES THE LIST**: of the two keys none is left, neither in the list nor among
    the removed ones. -/
theorem purge_loses_records :
    (purgeRecordsFrom ToyTrust.toyParsers 0 halfDatedKeys).1.isOk = false ∧
      (purgeRecordsFrom ToyTrust.toyParsers 0 halfDatedKeys).2 = [] ∧
      ¬ PurgesFaithfully ToyTrust.toyParsers 0 halfDatedKeys := by
  have hleft : (purgeRecordsFrom ToyTrust.toyParsers 0 halfDatedKeys).2 = [] := by decide
  have hfails : (purgeRecordsFrom ToyTrust.toyParsers 0 halfDatedKeys).1.isOk = false := by decide
  refine ⟨hfails, hleft, fun hfaithful => ?_⟩
  cases hresult : (purgeRecordsFrom ToyTrust.toyParsers 0 halfDatedKeys).1 with
  | ok removed =>
    rw [hresult] at hfails
    cases hfails
  | error e =>
    have hkept := hfaithful.failed e hresult
    rw [hleft] at hkept
    cases hkept

/-! ## The lists the program purges -/

/-- Every time in the two lists of a store can be read. -/
structure DatedLists (P : TextParsers) (protect : TrustStoreProtected) : Prop where
  keys : ∀ key ∈ protect.knownKeys, Dated P key
  sets : ∀ record ∈ protect.recipientSets, Dated P record

variable {C : Crypto}

/-- The checks of a loaded store read every time in it. -/
theorem datedLists_of_content {protect : TrustStoreProtected}
    (h : validateSignerIndependentContent C P protect = .ok ()) : DatedLists P protect := by
  obtain ⟨_, _, h⟩ := bind_eq_ok.mp h
  obtain ⟨_, _, h⟩ := bind_eq_ok.mp h
  obtain ⟨_, _, hkeys, hsets⟩ := validateTimestamps_ok.mp h
  exact ⟨fun key hkey => (hkeys key hkey).parses,
    fun record hrecord => (hsets record hrecord).parses⟩

/-- **A VERIFIED STORE IS DATED.** -/
theorem datedLists_of_verified {doc verified : TrustStoreDocument}
    {signerKeys : SignerKeySnapshot} (h : verifyTrustStore C P doc signerKeys = .ok verified) :
    DatedLists P verified.protect := by
  have heq := verifyTrustStore_eq h
  rw [verifyTrustStore] at h
  obtain ⟨_, h⟩ := throwIf_ok.mp h
  obtain ⟨_, h⟩ := throwIf_ok.mp h
  obtain ⟨_, _, h⟩ := bind_eq_ok.mp h
  obtain ⟨_, _, h⟩ := bind_eq_ok.mp h
  obtain ⟨_, _, h⟩ := bind_eq_ok.mp h
  obtain ⟨_, h⟩ := throwIf_ok.mp h
  obtain ⟨_, h⟩ := throwIf_ok.mp h
  obtain ⟨⟨⟩, hcontent, _⟩ := bind_eq_ok.mp h
  exact heq ▸ datedLists_of_content hcontent

/-- **THE CONTENT AN EDIT RUNS ON IS DATED**: it was verified, or there is no record in it. -/
theorem datedLists_of_admitted {target : TrustStoreMutationTarget}
    {prepared : TrustStorePreparation} {window : LockWindow P} {file : Option Bytes}
    {state : TrustStoreState} (h : admittedState C target prepared window file = some state) :
    DatedLists P state.protect := by
  rw [admittedState] at h
  split at h
  · cases h
  split at h
  · rename_i found hresolve
    obtain rfl := Option.some.inj h
    unfold resolveLockedTrustStoreContent at hresolve
    split at hresolve
    · exact absurd hresolve evaluateLockedFailure_ne_usable
    split at hresolve
    · cases Except.ok.inj hresolve
    unfold buildTrustStoreForCommit at hresolve
    split at hresolve
    · split at hresolve
      -- a stored document is verified under the lock, before the edit sees its content
      · rename_i hverify
        obtain rfl := TrustStoreContentSnapshot.usable.inj (Except.ok.inj hresolve)
        obtain ⟨doc, hdoc, hverify⟩ := bind_eq_ok.mp hverify
        obtain ⟨kid, _, hverify⟩ := bind_eq_ok.mp hverify
        exact Except.ok.inj hverify ▸ datedLists_of_verified hdoc
      · exact absurd hresolve evaluateLockedFailure_ne_usable
    · split at hresolve
      · obtain rfl := TrustStoreContentSnapshot.usable.inj (Except.ok.inj hresolve)
        exact ⟨fun _ hkey => absurd hkey List.not_mem_nil,
          fun _ hrecord => absurd hrecord List.not_mem_nil⟩
      · cases hresolve
  · cases h

/-- A purge of a list succeeds, and does what a caller expects. -/
def Purges (P : TextParsers) (olderThan : Int) (records : List R) : Prop :=
  (∃ removed, (purgeRecordsFrom P olderThan records).1 = .ok removed)
    ∧ PurgesFaithfully P olderThan records

theorem purges_of_dated {records : List R} (h : ∀ r ∈ records, Dated P r) :
    Purges P olderThan records :=
  ⟨⟨_, purgeRecordsFrom_of_dated h⟩, purgesFaithfully_of_dated h⟩

/-- Both lists of a store are purged as a caller expects, whatever the cut-off. -/
structure StorePurges (P : TextParsers) (protect : TrustStoreProtected) : Prop where
  keys : ∀ olderThan, Purges P olderThan protect.knownKeys
  sets : ∀ olderThan, Purges P olderThan protect.recipientSets

theorem DatedLists.purges {protect : TrustStoreProtected} (h : DatedLists P protect) :
    StorePurges P protect where
  keys _ := purges_of_dated h.keys
  sets _ := purges_of_dated h.sets

/-- What purging does: a list whose times can be read is purged as a caller expects, and the lists
    of a store the program has verified are such lists. -/
structure PurgeLaws (C : Crypto) (P : TextParsers) : Prop where
  /-- known keys and recipient sets alike -/
  dated : ∀ {R : Type} [ApprovalRecord R] (olderThan : Int) (records : List R),
    (∀ r ∈ records, Dated P r) → Purges P olderThan records
  /-- the store a purge is listed from -/
  verified : ∀ doc signerKeys verified, verifyTrustStore C P doc signerKeys = .ok verified →
    StorePurges P verified.protect
  /-- the content under the lock, which a purge is run on -/
  admitted : ∀ target prepared window file state,
    admittedState C (P := P) target prepared window file = some state →
      StorePurges P state.protect

/-- **PURGES DO WHAT THEIR CALLERS EXPECT**, on every list they are given. -/
theorem purgeLaws (C : Crypto) (P : TextParsers) : PurgeLaws C P where
  dated _ _ h := purges_of_dated h
  verified _ _ _ h := (datedLists_of_verified h).purges
  admitted _ _ _ _ _ h := (datedLists_of_admitted h).purges

/-- Two known keys, approved one after the other. -/
def datedKeys : List KnownKey :=
  [⟨"KJD1AAAA1111BBBB2222CCCC3333DDDD", "bob", "2026-03-29T12:40:00Z", .manualReview, none, []⟩,
    ⟨"KJD2AAAA1111BBBB2222CCCC3333DDDD", "carol", "2026-04-02T08:00:00Z", .manualReview, none, []⟩]

/-- A purge of two dated keys at the moment the second was approved: the first is removed. -/
theorem purgeLaws_toy :
    Purges ToyTrust.toyParsers (ToyTrust.secondOf "2026-04-02T08:00:00Z".toList) datedKeys
      ∧ purgeRecordsFrom ToyTrust.toyParsers (ToyTrust.secondOf "2026-04-02T08:00:00Z".toList)
          datedKeys = (.ok [datedKeys[0]], [datedKeys[1]]) :=
  ⟨(purgeLaws ToyCrypto.toyCrypto ToyTrust.toyParsers).dated _ _ (by decide), rfl⟩

end TrustPurge
