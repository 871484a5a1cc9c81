import Kapsaro.Interleaving
import Kapsaro.MemberInvariants
import Kapsaro.ToyDocuments

/-!
# Member runs — any sequence of member operations, with faults of the file system

* **`MemberRequest`** — an operation that fits its content, and where the file system stops it.
* **`StepsSound`**, **`stepsSound_plan`** — what an operation plans keeps the invariant at every
  point it may be cut.
* **`OperationSound`** — what one operation does to a store, by what became of it.
* **`memberOperations_sound`** — every run of operations keeps the invariant; an operation that
  refuses changes nothing; a promotion installs what was reviewed where it was reviewed.
-/

namespace MemberRuns

open JsonText JsonMembers JsonRecords JsonLimits Limits TextLines Base64Codec WireTexts WireModel
open DocumentTokens TokenRecords Interleaving MemberStore MemberOperations MemberInvariants
open ToyCrypto ToyDocuments

/-! ## Runs of operations -/

/-- The document of a save is of the member it is saved for; the snapshots of a promotion carry
    the kid of their content. -/
def Fits : MemberOperation → Prop
  | .saveKeeping _ memberHandle content _ | .save _ memberHandle content _ =>
    ∀ key, readDocument (utf8 content) = some key → key.protect.subjectHandle = memberHandle
  | .promote snapshots => CarryKids snapshots
  | .remove _ => True

/-- An operation somebody runs, and what the file system makes of it. -/
structure MemberRequest where
  operation : MemberOperation
  fault : Option FileFault
  fits : Fits operation

def MemberRequest.perform (s : Members) (request : MemberRequest) :
    Members × Except Error MemberOutcome :=
  request.operation.run s request.fault

def step (s : Members) (request : MemberRequest) : Members :=
  (request.perform s).1

/-- What the steps of an operation lead to. -/
structure StepsSound (s : Members) (steps : List FileStep) : Prop where
  checks : ChecksPass s steps
  complete : Settled s → Settled (applySteps s steps)
  cut : ∀ count, Consistent (applySteps s (steps.take count))

theorem stepsSound_nil {s : Members} (h : Consistent s) : StepsSound s [] :=
  ⟨trivial, fun hs => hs, fun count => by rw [List.take_nil]; exact h⟩

/-- An operation of one step either did not begin or is done. -/
theorem stepsSound_single {s : Members} (h : Consistent s) {step : FileStep}
    (hcheck : step.check s = .ok ()) (hsettled : Settled s → Settled (step.effect s))
    (hdone : Consistent (step.effect s)) : StepsSound s [step] := by
  refine ⟨⟨hcheck, trivial⟩, hsettled, fun count => ?_⟩
  cases count with
  | zero => exact h
  | succ count =>
    rw [List.take_succ_cons, List.take_nil]
    exact hdone

theorem stepsSound_save {s : Members} (h : Consistent s) {status : MemberStatus}
    {memberHandle content : String} {overwrite : Bool} {write : MemberDocumentWrite}
    {steps : List FileStep}
    (hfits : ∀ key, readDocument (utf8 content) = some key →
      key.protect.subjectHandle = memberHandle)
    (hplan : saveMemberContentKeepingExisting s status memberHandle content overwrite
      = .ok (write, steps)) : StepsSound s steps := by
  rcases saveMemberContentKeepingExisting_ok hplan with rfl | ⟨rfl, key, hsavable⟩
  · exact stepsSound_nil h
  · have hsubject := hfits key hsavable.document
    have hsettled := settled_of_save h.named hsavable hsubject
    refine stepsSound_single h ?_ (fun _ => hsettled) (.inl hsettled)
    refine checkedAtomicWriteTargetName_of hsavable.name (memberFileName_size ?_)
    exact hsubject ▸ handleText_of_readDocument hsavable.document

theorem stepsSound_promote {s : Members} (h : Consistent s)
    {snapshots : List IncomingMemberPromotionSnapshot} (hcarry : CarryKids snapshots)
    (hpromotable : Promotable s snapshots) :
    StepsSound s (snapshots.flatMap promoteSnapshottedMember) := by
  refine ⟨?_, fun _ => ?_, fun count => ?_⟩
  · refine checksPass_promotion (nodup_memberHandles hpromotable hcarry) fun snapshot hmem => ?_
    have hholds := hpromotable.holds snapshot hmem
    exact ⟨target_of_snapshot hholds h.named, by rw [hholds.source]; rfl, hholds.destinationAt⟩
  · exact settled_promoted h.named hpromotable hcarry (List.append_nil snapshots).symm
  · have hcut : ∀ {count : Nat}, count ≤ 2 * snapshots.length → Consistent
        (applySteps s ((snapshots.flatMap promoteSnapshottedMember).take count)) := by
      intro count hcount
      obtain ⟨done, rest, hsplit, ⟨-, hstate⟩ | ⟨next, later, hrest, -, hstate⟩⟩ :=
        @cut_promotion s snapshots count hcount
      · rw [hstate]
        exact .inl (settled_promoted h.named hpromotable hcarry hsplit)
      · rw [hstate]
        exact .inr ⟨next.memberHandle,
          leftIn_promoted h.named hpromotable hcarry (hrest ▸ hsplit)⟩
    have hlength := Nat.le_of_eq (length_promotion snapshots)
    rcases Nat.le_total count (2 * snapshots.length) with hcount | hcount
    · exact hcut hcount
    · rw [List.take_of_length_le (le_trans hlength hcount),
        ← List.take_of_length_le hlength]
      exact hcut (Nat.le_refl _)

/-- What an operation plans keeps the invariant, at every point it may be cut. -/
theorem stepsSound_plan {s : Members} (h : Consistent s) {operation : MemberOperation}
    (hfits : Fits operation) {outcome : MemberOutcome} {steps : List FileStep}
    (hplan : operation.plan s = .ok (outcome, steps)) : StepsSound s steps := by
  cases operation with
  | saveKeeping status memberHandle content overwrite =>
    obtain ⟨⟨write, made⟩, hsave, hplan⟩ := bind_eq_ok.mp hplan
    obtain ⟨-, rfl⟩ := Prod.mk.inj (Except.ok.inj hplan)
    exact stepsSound_save h hfits hsave
  | save status memberHandle content overwrite =>
    obtain ⟨made, hsave, hplan⟩ := bind_eq_ok.mp hplan
    obtain ⟨-, rfl⟩ := Prod.mk.inj (Except.ok.inj hplan)
    obtain ⟨write, hkeeping⟩ := saveMemberContent_ok hsave
    exact stepsSound_save h hfits hkeeping
  | promote snapshots =>
    obtain ⟨⟨memberHandles, made⟩, hpromote, hplan⟩ := bind_eq_ok.mp hplan
    obtain ⟨-, rfl⟩ := Prod.mk.inj (Except.ok.inj hplan)
    obtain ⟨hempty | hpromotable, -, rfl⟩ := promoteSnapshottedIncomingMembersAt_ok.mp hpromote
    · rw [hempty]
      exact stepsSound_nil h
    · exact stepsSound_promote h hfits hpromotable
  | remove document =>
    obtain ⟨made, hremove, hplan⟩ := bind_eq_ok.mp hplan
    obtain ⟨-, rfl⟩ := Prod.mk.inj (Except.ok.inj hplan)
    obtain ⟨rfl, hfound⟩ := removeReviewed_ok hremove
    have hunlink := consistent_unlink h document.memberHandle
    refine stepsSound_single h (if_pos ?_) hunlink.1 hunlink.2
    rw [hfound]
    rfl

/-- Only a promotion makes more than one step. -/
theorem single_of_plan {s : Members} {operation : MemberOperation} {outcome : MemberOutcome}
    {steps : List FileStep} (hplan : operation.plan s = .ok (outcome, steps)) :
    (∃ snapshots, operation = .promote snapshots) ∨ steps.length ≤ 1 := by
  have hsave : ∀ {status memberHandle content overwrite write made},
      saveMemberContentKeepingExisting s status memberHandle content overwrite
        = .ok (write, made) → made.length ≤ 1 := by
    intro status memberHandle content overwrite write made h
    rcases saveMemberContentKeepingExisting_ok h with rfl | ⟨rfl, -⟩
    · exact Nat.zero_le 1
    · exact Nat.le_refl 1
  cases operation with
  | saveKeeping status memberHandle content overwrite =>
    obtain ⟨⟨write, made⟩, hkeeping, hplan⟩ := bind_eq_ok.mp hplan
    obtain ⟨-, rfl⟩ := Prod.mk.inj (Except.ok.inj hplan)
    exact .inr (hsave hkeeping)
  | save status memberHandle content overwrite =>
    obtain ⟨made, hsaved, hplan⟩ := bind_eq_ok.mp hplan
    obtain ⟨-, rfl⟩ := Prod.mk.inj (Except.ok.inj hplan)
    obtain ⟨write, hkeeping⟩ := saveMemberContent_ok hsaved
    exact .inr (hsave hkeeping)
  | promote snapshots => exact .inl ⟨snapshots, rfl⟩
  | remove document =>
    obtain ⟨made, hremove, hplan⟩ := bind_eq_ok.mp hplan
    obtain ⟨-, rfl⟩ := Prod.mk.inj (Except.ok.inj hplan)
    obtain ⟨rfl, -⟩ := removeReviewed_ok hremove
    exact .inr (Nat.le_refl 1)

/-- What one operation does to a store, by what became of it. -/
structure OperationSound (s : Members) (request : MemberRequest) : Prop where
  /-- The invariant holds afterwards, however far the operation came. -/
  consistent : Consistent (step s request)
  /-- An operation that succeeds leaves a settled store settled. -/
  succeeded : Settled s → (∃ outcome, (request.perform s).2 = .ok outcome) →
    Settled (step s request)
  /-- Only a promotion that was stopped unsettles a store. -/
  twice : Settled s → ¬ Settled (step s request) →
    (∃ snapshots, request.operation = .promote snapshots)
      ∧ ∃ fault, request.fault = some fault ∧ (request.perform s).2 = .error fault.error
  /-- An operation that fails before its first write changes nothing; without a fault of the file
      system no operation fails later. -/
  refused : (∀ fault, request.fault = some fault → fault.after = 0) →
    (∃ e, (request.perform s).2 = .error e) → step s request = s
  /-- What a promotion changed in active is a reviewed text, at a destination and from a source
      that were as reviewed. -/
  installed : ∀ snapshots, request.operation = .promote snapshots → ∀ name bytes,
    (step s request).find .active name = some bytes → s.find .active name ≠ some bytes →
      ∃ snapshot ∈ snapshots, name = memberFileName snapshot.memberHandle
        ∧ bytes = utf8 snapshot.sourceContent ∧ s.find .incoming name = some bytes
        ∧ destinationAt s name = snapshot.destination

/-- An operation that cannot start changes nothing. -/
theorem perform_error {s : Members} {request : MemberRequest} {e : Error}
    (h : request.operation.plan s = .error e) : request.perform s = (s, .error e) := by
  rw [MemberRequest.perform, MemberOperation.run, h]

theorem perform_ok {s : Members} {request : MemberRequest} {outcome : MemberOutcome}
    {steps : List FileStep} (h : request.operation.plan s = .ok (outcome, steps)) :
    request.perform s = ((runSteps request.fault s steps).1,
      (runSteps request.fault s steps).2.map fun _ => outcome) := by
  rw [MemberRequest.perform, MemberOperation.run, h]

/-- **EVERY OPERATION IS SOUND** in a consistent store. -/
theorem operationSound {s : Members} (h : Consistent s) (request : MemberRequest) :
    OperationSound s request := by
  cases hplan : request.operation.plan s with
  | error e =>
    have hstep : step s request = s := by rw [step, perform_error hplan]
    constructor
    · rw [hstep]
      exact h
    · rw [hstep]
      exact fun hs _ => hs
    · rw [hstep]
      exact fun hs hnot => absurd hs hnot
    · exact fun _ _ => hstep
    · intro snapshots _ name bytes hfound hnew
      rw [hstep] at hfound
      exact absurd hfound hnew
  | ok planned =>
    obtain ⟨outcome, steps⟩ := planned
    have hsteps := stepsSound_plan h request.fits hplan
    have hperform := perform_ok hplan
    -- However many steps were taken, a promotion installs only documents of its batch.
    have hinstalled : ∀ count snapshots, request.operation = .promote snapshots →
        ∀ name bytes, (applySteps s (steps.take count)).find .active name = some bytes →
          s.find .active name ≠ some bytes →
          ∃ snapshot ∈ snapshots, name = memberFileName snapshot.memberHandle
            ∧ bytes = utf8 snapshot.sourceContent ∧ s.find .incoming name = some bytes
            ∧ destinationAt s name = snapshot.destination := by
      intro count snapshots hpromote name bytes hfound hnew
      rw [hpromote] at hplan
      obtain ⟨⟨memberHandles, made⟩, hpromoted, hplan⟩ := bind_eq_ok.mp hplan
      obtain ⟨-, rfl⟩ := Prod.mk.inj (Except.ok.inj hplan)
      obtain ⟨hempty | hpromotable, -, rfl⟩ := promoteSnapshottedIncomingMembersAt_ok.mp hpromoted
      · rw [hempty, List.flatMap_nil, List.take_nil] at hfound
        exact absurd hfound hnew
      · have hbatch := fromBatch_applySteps (fromBatch_self hpromotable.holds)
          (fun step hstep => @List.mem_of_mem_take _ count _ _ hstep)
        rcases hbatch ⟨.active, name⟩ bytes hfound with ⟨hkept, -⟩ | ⟨snapshot, hmem, hname, rfl⟩
        · exact absurd hkept hnew
        · have hholds := hpromotable.holds snapshot hmem
          refine ⟨snapshot, hmem, hname, rfl, ?_, ?_⟩
          · rw [show name = memberFileName snapshot.memberHandle from hname]
            exact hholds.source
          · rw [show name = memberFileName snapshot.memberHandle from hname]
            exact hholds.destinationAt
    -- The steps all run, or a fault cuts them after some of them.
    rcases runSteps_checked hsteps.checks request.fault with hrun | ⟨f, hfault, hrun⟩
    · have hstep : step s request = applySteps s steps := by rw [step, hperform, hrun]
      have hresult : (request.perform s).2 = .ok outcome := by rw [hperform, hrun]; rfl
      have htake : applySteps s steps = applySteps s (steps.take steps.length) := by
        rw [List.take_length]
      constructor
      · rw [hstep, htake]
        exact hsteps.cut steps.length
      · rw [hstep]
        exact fun hs _ => hsteps.complete hs
      · rw [hstep]
        exact fun hs hnot => absurd (hsteps.complete hs) hnot
      · rintro - ⟨e, he⟩
        cases hresult.symm.trans he
      · rw [hstep, htake]
        exact hinstalled steps.length
    · have hstep : step s request = applySteps s (steps.take f.after) := by
        rw [step, hperform, hrun]
      have hresult : (request.perform s).2 = .error f.error := by rw [hperform, hrun]; rfl
      constructor
      · rw [hstep]
        exact hsteps.cut f.after
      · rintro - ⟨other, hother⟩
        cases hresult.symm.trans hother
      · intro hs hnot
        refine ⟨?_, f, hfault, hresult⟩
        -- A promotion may stop in between; every other operation is a single step, done or not.
        rcases single_of_plan hplan with hpromote | hsingle
        · exact hpromote
        · refine absurd ?_ hnot
          rw [hstep]
          cases hafter : f.after with
          | zero => exact hs
          | succ after =>
            rw [List.take_of_length_le (le_trans hsingle (Nat.succ_le_succ (Nat.zero_le after)))]
            exact hsteps.complete hs
      · rintro hzero -
        rw [hstep, hzero f hfault, List.take_zero, applySteps_nil]
      · rw [hstep]
        exact hinstalled f.after

/-- **MEMBER OPERATIONS ARE SOUND**: from a settled store, every run of saves, promotions and
    reviewed removals keeps the invariant, and so does each operation in it. -/
theorem memberOperations_sound {s : Members} (h : Settled s) (requests : List MemberRequest) :
    Consistent (run step s requests)
      ∧ ∀ before request after, requests = before ++ request :: after →
        OperationSound (run step s before) request := by
  have hrun : ∀ requests, Consistent (run step s requests) := fun requests =>
    @run_invariant _ _ step Consistent (fun t request ht => (operationSound ht request).consistent)
      s (.inl h) requests
  exact ⟨hrun requests, fun before request _ _ => operationSound (hrun before) request⟩

/-! ## A small store -/

/-- The text of a key statement. -/
def toyMemberText (memberHandle : MemberHandle) (kid : Kid) : String :=
  String.ofList (textAt false 0 (toyStatement memberHandle kid [1]).toJson)

/-- A key statement is read back from its text. -/
theorem readDocument_textAt {key : PublicKey} (h : key.wellFormed = true) (indented : Bool) :
    readDocument (utf8 (String.ofList (textAt indented 0 key.toJson))) = some key := by
  have hbounded := bounded_publicKey h
  have helements := elements_publicKeyProtected key.protect
  refine @readDocument_of_parse _ "" _ ?_
  refine bind_eq_ok.mpr ⟨(), (validateJsonLimits_textAt indented key.toJson).mpr ⟨?_, ?_⟩,
    bind_eq_ok.mpr ⟨_, parseJsonValue_textAt indented _ _ _ hbounded.names hbounded.numbers, ?_⟩⟩
  · have hcount : elementCount key.toJson = 2 + elementCount key.protect.toJson + 2 := rfl
    rw [hcount]
    exact le_trans (show _ ≤ 52 by omega) (by decide)
  · exact le_trans hbounded.nested (by decide)
  · rw [readConforming, PublicKey.conforms_toJson, if_pos h, (PublicKey.reads key).1]

theorem readDocument_toy (memberHandle : MemberHandle) (kid : Kid) :
    readDocument (utf8 (toyMemberText memberHandle kid))
      = some (toyStatement memberHandle kid [1]) :=
  readDocument_textAt (wellFormed_toyStatement memberHandle kid [1]) false

/-- A store with bob in `active/` and alice in `incoming/`. -/
def toyMembers : Members :=
  (Members.put ⟨∅, ∅⟩ .active (memberFileName bob.text) (utf8 (toyMemberText bob bobKid))).put
    .incoming (memberFileName alice.text) (utf8 (toyMemberText alice toyKid))

theorem find_toyMembers (status : MemberStatus) (name : String) :
    toyMembers.find status name
      = if status = .incoming ∧ name = memberFileName alice.text then
          some (utf8 (toyMemberText alice toyKid))
        else if status = .active ∧ name = memberFileName bob.text then
          some (utf8 (toyMemberText bob bobKid))
        else none := by
  have hempty : Members.find ⟨∅, ∅⟩ status name = none := by cases status <;> rfl
  rw [toyMembers, Members.find_put, Members.find_put, hempty]

/-- The toy store has two documents. -/
theorem document_toyMembers {p : MemberPlace} {key : PublicKey} (h : IsDocument toyMembers p key) :
    p = .ofHandle .incoming alice.text ∧ key = toyStatement alice toyKid [1]
      ∨ p = .ofHandle .active bob.text ∧ key = toyStatement bob bobKid [1] := by
  obtain ⟨-, bytes, hbytes, hread⟩ := h
  rw [find_toyMembers] at hbytes
  split at hbytes
  · rename_i hplace
    obtain rfl := Option.some.inj hbytes
    exact .inl ⟨place_eq_iff.mpr hplace,
      Option.some.inj (hread.symm.trans (readDocument_toy alice toyKid))⟩
  · split at hbytes
    · rename_i hplace
      obtain rfl := Option.some.inj hbytes
      exact .inr ⟨place_eq_iff.mpr hplace,
        Option.some.inj (hread.symm.trans (readDocument_toy bob bobKid))⟩
    · cases hbytes

theorem settled_toyMembers : Settled toyMembers := by
  have hkids : (toyStatement alice toyKid [1]).protect.kid
      ≠ (toyStatement bob bobKid [1]).protect.kid := by decide
  constructor
  · intro p hname bytes hbytes
    rw [find_toyMembers] at hbytes
    split at hbytes
    · rename_i hplace
      obtain rfl := Option.some.inj hbytes
      refine ⟨_, readDocument_toy alice toyKid, ?_⟩
      rw [MemberPlace.stem, hplace.2, fileStem_memberFileName]
      rfl
    · split at hbytes
      · rename_i hplace
        obtain rfl := Option.some.inj hbytes
        refine ⟨_, readDocument_toy bob bobKid, ?_⟩
        rw [MemberPlace.stem, hplace.2, fileStem_memberFileName]
        rfl
      · cases hbytes
  · intro p q key other hp hq heq
    rcases document_toyMembers hp with ⟨hpplace, rfl⟩ | ⟨hpplace, rfl⟩
    · rcases document_toyMembers hq with ⟨hqplace, rfl⟩ | ⟨-, rfl⟩
      · exact hpplace.trans hqplace.symm
      · exact absurd heq hkids
    · rcases document_toyMembers hq with ⟨-, rfl⟩ | ⟨hqplace, rfl⟩
      · exact absurd heq.symm hkids
      · exact hpplace.trans hqplace.symm

/-- What a review of alice's document records. -/
def toySnapshot : IncomingMemberPromotionSnapshot where
  memberHandle := alice.text
  kid := toyKid.text
  sourceContent := toyMemberText alice toyKid
  destination := .missing

theorem carryKids_toy : CarryKids [toySnapshot] := by
  intro snapshot hmem
  obtain rfl := List.mem_singleton.mp hmem
  exact ⟨_, readDocument_toy alice toyKid, rfl⟩

/-- Alice is promoted, and the process stops after the first file step. -/
def toyPromotion : MemberRequest where
  operation := .promote [toySnapshot]
  fault := some ⟨1, .io "disk full"⟩
  fits := carryKids_toy

theorem memberOperations_sound_toy :
    Consistent (run step toyMembers [toyPromotion])
      ∧ ∀ before request after, [toyPromotion] = before ++ request :: after →
        OperationSound (run step toyMembers before) request :=
  memberOperations_sound settled_toyMembers [toyPromotion]

end MemberRuns
