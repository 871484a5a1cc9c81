import Kapsaro.MemberStore

/-!
# Member operations — saving, promoting and removing member documents

What each operation checks and the file steps it then makes:
`io/workspace/members/store/save.rs`, `store/remove.rs`, `promotion.rs`.

* **`FileStep`**, **`runSteps`** — the changes to single files, and a file system that may fail
  between any two of them.
* **`saveMemberContentKeepingExisting`**, **`promoteSnapshottedIncomingMembersAt`**,
  **`removeReviewed`** — an operation answers with its outcome and the steps it makes, or refuses.
* **`Promotable`**, **`Savable`** — what a promotion and a save have checked before they write.
* **`runSteps_checked`** — whatever the file system does, a prefix of the steps was made.

An operation holds the lock on `members/` from its first check to its last step.
-/

namespace MemberOperations

open JsonText JsonMembers JsonLimits Limits TextLines Base64Codec WireTexts WireModel
open DocumentTokens TrustStore TrustDocument TrustTransaction MemberStore

/-! ## File steps -/

def maxAtomicWriteTargetNameLength : Nat := 255 - (1 + 5 + 36)

/-- The name leaves room for its staging name. -/
def checkedAtomicWriteTargetName (name : String) : Except Error Unit :=
  if name.utf8ByteSize > maxAtomicWriteTargetNameLength then
    .error (.invalidArgument (s!"file name too long for an atomic write: {name.utf8ByteSize} " ++
      s!"bytes (max {maxAtomicWriteTargetNameLength})"))
  else checkedChildName name

/-- One change to one file. A removal of an active document moves it to a name that no listing
    takes for a document and unlinks it there; both count as one step here. -/
inductive FileStep where
  | saveText (status : MemberStatus) (name content : String)
  | saveTextNoreplace (status : MemberStatus) (name content : String)
  | cleanIncoming (memberHandle : String)
  | removeActive (memberHandle : String)
deriving DecidableEq

namespace FileStep

/-- What the step itself checks. -/
def check (s : Members) : FileStep → Except Error Unit
  | .saveText _ name _ => checkedAtomicWriteTargetName name
  -- the rename of a new document refuses to replace one that came meanwhile
  | .saveTextNoreplace status name _ => do
    checkedAtomicWriteTargetName name
    if (s.find status name).isSome then
      .error (.invalidOperation
        s!"refusing to replace existing entry: {memberPath status name}")
    else .ok ()
  | .cleanIncoming memberHandle =>
    if (s.find .incoming (memberFileName memberHandle)).isSome then .ok ()
    else .error (.io (s!"Failed to clean incoming member '{memberHandle}': Failed to remove " ++
      s!"file {memberPath .incoming (memberFileName memberHandle)}"))
  | .removeActive memberHandle =>
    if (s.find .active (memberFileName memberHandle)).isSome then .ok ()
    else .error (.io (s!"Active member document " ++
      s!"'{memberPath .active (memberFileName memberHandle)}' could not be moved aside for " ++
      "deletion. Nothing was deleted."))

def effect (s : Members) : FileStep → Members
  | .saveText status name content => s.put status name (utf8 content)
  | .saveTextNoreplace status name content => s.put status name (utf8 content)
  | .cleanIncoming memberHandle => s.unlink .incoming (memberFileName memberHandle)
  | .removeActive memberHandle => s.unlink .active (memberFileName memberHandle)

end FileStep

/-- The file system fails, or the process is stopped, once so many steps took effect. -/
structure FileFault where
  after : Nat
  error : Error

/-- The store after some steps took effect. -/
def applySteps (s : Members) (steps : List FileStep) : Members :=
  steps.foldl FileStep.effect s

/-- Make the steps in order, up to a fault or to a step that refuses. -/
def runSteps : Option FileFault → Members → List FileStep → Members × Except Error Unit
  | some ⟨0, error⟩, s, _ => (s, .error error)
  | _, s, [] => (s, .ok ())
  | fault, s, step :: rest =>
    match step.check s with
    | .error e => (s, .error e)
    | .ok _ =>
      runSteps (fault.map fun f => ⟨f.after - 1, f.error⟩) (step.effect s) rest

/-! ## Saving -/

/-- What one save found standing at the name it writes. -/
inductive MemberDocumentWrite where
  | created
  | replaced
  | kept
deriving DecidableEq, Repr

/-- The candidate one saved document offers, and the document it replaces. -/
def buildSavedMemberCandidate (status : MemberStatus) (memberHandle kid : String)
    (allowReplaceSelf : Bool) : MemberKidCandidate × List (MemberStatus × String) :=
  (⟨memberHandle, kid, status⟩, if allowReplaceSelf then [(status, memberHandle)] else [])

def ensureMemberDocumentKidIsUnique (s : Members) (status : MemberStatus)
    (memberHandle kid : String) (allowReplaceSelf : Bool) : Except Error Unit :=
  let (candidate, ignoredExisting) :=
    buildSavedMemberCandidate status memberHandle kid allowReplaceSelf
  enforceWorkspaceMemberKidUniqueness s [candidate] ignoredExisting

/-- Judge the name and the kid, then write. -/
def saveMemberDocumentLocked (s : Members) (status : MemberStatus)
    (memberHandle content kid : String) (overwrite : Bool) :
    Except Error (MemberDocumentWrite × List FileStep) := do
  let name := memberFileName memberHandle
  checkedChildName name
  let existing := (s.find status name).isSome
  if existing && !overwrite then pure (.kept, [])
  else do
    ensureMemberDocumentKidIsUnique s status memberHandle kid existing
    pure (if existing then .replaced else .created, [.saveText status name content])

/-- Write one member document, reporting one that already stands there. -/
def saveMemberContentKeepingExisting (s : Members) (status : MemberStatus)
    (memberHandle content : String) (overwrite : Bool) :
    Except Error (MemberDocumentWrite × List FileStep) := do
  let publicKey ← parsePublicKeyStr content s!"member content for {memberHandle}"
  saveMemberDocumentLocked s status memberHandle content publicKey.protect.kid overwrite

/-- Write one member document, refusing one that already stands there. -/
def saveMemberContent (s : Members) (status : MemberStatus) (memberHandle content : String)
    (overwrite : Bool) : Except Error (List FileStep) := do
  let (write, steps) ← saveMemberContentKeepingExisting s status memberHandle content overwrite
  match write with
  | .created | .replaced => pure steps
  | .kept => .error (.invalidOperation (s!"Member '{memberHandle}' already exists in " ++
      s!"{statusDirName status}/ (use --force to overwrite)"))

/-! ## Promotion -/

/-- What the active directory held for a member when the promotion was reviewed. -/
inductive PromotionDestinationState where
  | missing
  | present (bytes : Bytes)
deriving DecidableEq

structure IncomingMemberPromotionSnapshot where
  memberHandle : String
  kid : String
  sourceContent : String
  destination : PromotionDestinationState
deriving DecidableEq

def loadDestinationState (s : Members) (name : String) :
    Except Error PromotionDestinationState := do
  checkedChildName name
  match s.find .active name with
  | none => pure .missing
  | some bytes =>
    let bytes ← loadCappedBytes maxJsonDocumentReadSize "PublicKey file"
      (memberPath .active name) bytes
    pure (.present bytes)

def reviewChangedError (subjectDisplay : String) : Error :=
  .invalidOperation s!"{subjectDisplay} changed since review and must be reviewed again."

/-- Say whether the file changed or whether it could not be compared at all. -/
def buildReviewComparisonError (s : Members) (status : MemberStatus)
    (name subjectDisplay : String) (error : Error) : Error :=
  let vanished := checkedChildName name == .ok () && (s.find status name).isNone
  let replaced := match error with
    | .notFound _ | .invalidOperation _ => true
    | _ => false
  if vanished || replaced then reviewChangedError subjectDisplay
  else .io (s!"{subjectDisplay} could not be compared with the state that was reviewed: " ++
    formatUserMessage error)

/-- Compare what stands under a name with the text a reviewer read. -/
def ensureTextFileContentMatchesAt (s : Members) (status : MemberStatus) (name : String)
    (reviewedContent : String) (subjectDisplay : String) (maxBytes : Nat) : Except Error Unit :=
  match loadTextWithLimitAt s status name maxBytes subjectDisplay with
  | .error e => .error (buildReviewComparisonError s status name subjectDisplay e)
  | .ok current =>
    if current = reviewedContent then .ok () else .error (reviewChangedError subjectDisplay)

def ensureDestinationMatches (s : Members) (name : String)
    (snapshot : IncomingMemberPromotionSnapshot) : Except Error Unit := do
  let current ← loadDestinationState s name
  if current = snapshot.destination then pure ()
  else .error (reviewChangedError s!"Active member '{snapshot.memberHandle}'")

/-- Every source and destination still holds what the review accepted. -/
def ensurePromotionSnapshotsHold (s : Members) :
    List IncomingMemberPromotionSnapshot → Except Error Unit
  | [] => .ok ()
  | snapshot :: rest => do
    let name := memberFileName snapshot.memberHandle
    ensureTextFileContentMatchesAt s .incoming name snapshot.sourceContent
      s!"Incoming member '{snapshot.memberHandle}'" maxJsonDocumentReadSize
    ensureDestinationMatches s name snapshot
    ensurePromotionSnapshotsHold s rest

def promotionCandidate (snapshot : IncomingMemberPromotionSnapshot) : MemberKidCandidate :=
  ⟨snapshot.memberHandle, snapshot.kid, .active⟩

def promotionIgnored (snapshots : List IncomingMemberPromotionSnapshot) :
    List (MemberStatus × String) :=
  snapshots.map fun snapshot => (.incoming, snapshot.memberHandle)

def ensureSnapshottedPromotionKidsAreUnique (s : Members)
    (snapshots : List IncomingMemberPromotionSnapshot) : Except Error Unit :=
  enforceWorkspaceMemberKidUniqueness s (snapshots.map promotionCandidate)
    (promotionIgnored snapshots)

/-- Save to active, then remove from incoming. -/
def promoteSnapshottedMember (snapshot : IncomingMemberPromotionSnapshot) : List FileStep :=
  let name := memberFileName snapshot.memberHandle
  let save : FileStep := match snapshot.destination with
    | .missing => .saveTextNoreplace .active name snapshot.sourceContent
    | .present _ => .saveText .active name snapshot.sourceContent
  [save, .cleanIncoming snapshot.memberHandle]

def promoteSnapshottedIncomingMembersAt (s : Members)
    (snapshots : List IncomingMemberPromotionSnapshot) :
    Except Error (List String × List FileStep) :=
  if snapshots.isEmpty then .ok ([], [])
  else do
    ensurePromotionSnapshotsHold s snapshots
    ensureSnapshottedPromotionKidsAreUnique s snapshots
    pure (snapshots.map (·.memberHandle), snapshots.flatMap promoteSnapshottedMember)

/-! ## Reviewed removal -/

/-- The document a removal was reviewed against, and whether the name still resolves to the
    inode that was reviewed. -/
structure ReviewedMemberDocument where
  memberHandle : String
  reviewed : Bytes
  identityHolds : Bool

def removeReviewed (s : Members) (document : ReviewedMemberDocument) :
    Except Error (List FileStep) := do
  let name := memberFileName document.memberHandle
  checkedChildName name
  if document.identityHolds && s.find .active name == some document.reviewed then
    pure [.removeActive document.memberHandle]
  else .error (reviewChangedError s!"Active member '{document.memberHandle}'")

/-! ## Operations -/

inductive MemberOperation where
  | saveKeeping (status : MemberStatus) (memberHandle content : String) (overwrite : Bool)
  | save (status : MemberStatus) (memberHandle content : String) (overwrite : Bool)
  | promote (snapshots : List IncomingMemberPromotionSnapshot)
  | remove (document : ReviewedMemberDocument)

inductive MemberOutcome where
  | saved (write : MemberDocumentWrite)
  | done
  | promoted (memberHandles : List String)
deriving DecidableEq

/-- What an operation answers and the file steps it makes. -/
def MemberOperation.plan (s : Members) :
    MemberOperation → Except Error (MemberOutcome × List FileStep)
  | .saveKeeping status memberHandle content overwrite => do
    let (write, steps) ←
      saveMemberContentKeepingExisting s status memberHandle content overwrite
    pure (.saved write, steps)
  | .save status memberHandle content overwrite => do
    let steps ← saveMemberContent s status memberHandle content overwrite
    pure (.done, steps)
  | .promote snapshots => do
    let (memberHandles, steps) ← promoteSnapshottedIncomingMembersAt s snapshots
    pure (.promoted memberHandles, steps)
  | .remove document => do
    let steps ← removeReviewed s document
    pure (.done, steps)

/-- Run an operation: its checks, then its steps. -/
def MemberOperation.run (s : Members) (operation : MemberOperation) (fault : Option FileFault) :
    Members × Except Error MemberOutcome :=
  match operation.plan s with
  | .error e => (s, .error e)
  | .ok (outcome, steps) =>
    let (left, result) := runSteps fault s steps
    (left, result.map fun _ => outcome)

/-! ## What the steps do -/

theorem applySteps_nil (s : Members) : applySteps s [] = s := rfl

theorem applySteps_append (s : Members) (first second : List FileStep) :
    applySteps s (first ++ second) = applySteps (applySteps s first) second :=
  List.foldl_append

/-- No step refuses, each in the state the ones before it left. -/
def ChecksPass : Members → List FileStep → Prop
  | _, [] => True
  | s, step :: rest => step.check s = .ok () ∧ ChecksPass (step.effect s) rest

theorem runSteps_stop (s : Members) (steps : List FileStep) (error : Error) :
    runSteps (some ⟨0, error⟩) s steps = (s, .error error) := by
  rw [runSteps]

/-- Steps that do not refuse are all made where no fault comes before the last. -/
theorem runSteps_complete {s : Members} {steps : List FileStep} (h : ChecksPass s steps)
    {fault : Option FileFault} (hfault : ∀ f, fault = some f → steps.length < f.after) :
    runSteps fault s steps = (applySteps s steps, .ok ()) := by
  induction steps generalizing s fault with
  | nil =>
    rcases fault with _ | ⟨_ | after, error⟩
    · rfl
    · exact absurd (hfault _ rfl) (Nat.lt_irrefl 0)
    · rfl
  | cons step rest ih =>
    rcases fault with _ | ⟨_ | after, error⟩
    · rw [runSteps, h.1]
      exact ih h.2 nofun
      exact nofun
    · exact absurd (hfault _ rfl) (Nat.not_lt_zero _)
    · rw [runSteps, h.1]
      refine ih h.2 fun f hf => ?_
      rw [← Option.some.inj hf]
      exact Nat.lt_of_succ_lt_succ (hfault _ rfl)
      exact nofun

/-- A fault after some of them leaves exactly these. -/
theorem runSteps_fault {s : Members} {steps : List FileStep} (h : ChecksPass s steps)
    {count : Nat} (hcount : count ≤ steps.length) (error : Error) :
    runSteps (some ⟨count, error⟩) s steps = (applySteps s (steps.take count), .error error) := by
  induction steps generalizing s count with
  | nil =>
    obtain rfl := Nat.le_zero.mp hcount
    rfl
  | cons step rest ih =>
    cases count with
    | zero => exact runSteps_stop s _ error
    | succ count =>
      rw [runSteps, h.1]
      exact ih h.2 (Nat.le_of_succ_le_succ hcount)
      exact nofun

/-- **A FAULT LEAVES A PREFIX**: steps that do not refuse are all made, or exactly those before
    the fault are. -/
theorem runSteps_checked {s : Members} {steps : List FileStep} (h : ChecksPass s steps)
    (fault : Option FileFault) :
    runSteps fault s steps = (applySteps s steps, .ok ())
      ∨ ∃ f, fault = some f
        ∧ runSteps fault s steps = (applySteps s (steps.take f.after), .error f.error) := by
  by_cases hreached : ∃ f, fault = some f ∧ f.after ≤ steps.length
  · obtain ⟨f, rfl, hle⟩ := hreached
    exact .inr ⟨f, rfl, runSteps_fault h hle f.error⟩
  · refine .inl (runSteps_complete h fun f hf => ?_)
    exact Nat.lt_of_not_le fun hle => hreached ⟨f, hf, hle⟩

/-! ## What the checks say -/

/-- What the active directory holds at a name, as a review captures it. -/
def destinationAt (s : Members) (name : String) : PromotionDestinationState :=
  match s.find .active name with
  | none => .missing
  | some bytes => .present bytes

theorem loadDestinationState_ok {s : Members} {name : String} {state : PromotionDestinationState}
    (h : loadDestinationState s name = .ok state) : state = destinationAt s name := by
  obtain ⟨_, _, h⟩ := bind_eq_ok.mp h
  rw [destinationAt]
  split at h
  · exact (Except.ok.inj h).symm
  · obtain ⟨capped, hcapped, h⟩ := bind_eq_ok.mp h
    rw [loadCappedBytes] at hcapped
    split at hcapped
    · obtain rfl := Except.ok.inj hcapped
      exact (Except.ok.inj h).symm
    · cases hcapped

/-- A snapshot whose two sides are what the store holds. -/
structure SnapshotHolds (s : Members) (snapshot : IncomingMemberPromotionSnapshot) : Prop where
  name : checkedChildName (memberFileName snapshot.memberHandle) = .ok ()
  source : s.find .incoming (memberFileName snapshot.memberHandle)
    = some (utf8 snapshot.sourceContent)
  size : (utf8 snapshot.sourceContent).length ≤ maxJsonDocumentReadSize
  destination : loadDestinationState s (memberFileName snapshot.memberHandle)
    = .ok snapshot.destination

/-- What is at the destination is what was reviewed. -/
theorem SnapshotHolds.destinationAt {s : Members} {snapshot : IncomingMemberPromotionSnapshot}
    (h : SnapshotHolds s snapshot) :
    destinationAt s (memberFileName snapshot.memberHandle) = snapshot.destination :=
  (loadDestinationState_ok h.destination).symm

theorem ensureTextFileContentMatchesAt_ok {s : Members} {status : MemberStatus}
    {name reviewedContent subjectDisplay : String} {maxBytes : Nat} :
    ensureTextFileContentMatchesAt s status name reviewedContent subjectDisplay maxBytes = .ok () ↔
      checkedChildName name = .ok () ∧ s.find status name = some (utf8 reviewedContent)
        ∧ (utf8 reviewedContent).length ≤ maxBytes := by
  rw [ensureTextFileContentMatchesAt]
  constructor
  · intro h
    split at h
    · cases h
    · rename_i current hcurrent
      split at h
      · rename_i heq
        exact heq ▸ loadTextWithLimitAt_ok hcurrent
      · cases h
  · rintro ⟨hname, hbytes, hsize⟩
    rw [loadTextWithLimitAt_of hname hbytes hsize]
    exact if_pos rfl

/-- The check of a batch passes exactly when every snapshot holds. -/
theorem ensurePromotionSnapshotsHold_ok {s : Members}
    {snapshots : List IncomingMemberPromotionSnapshot} :
    ensurePromotionSnapshotsHold s snapshots = .ok () ↔
      ∀ snapshot ∈ snapshots, SnapshotHolds s snapshot := by
  induction snapshots with
  | nil => exact ⟨fun _ _ h => absurd h List.not_mem_nil, fun _ => rfl⟩
  | cons snapshot rest ih =>
    rw [List.forall_mem_cons, ← ih]
    constructor
    · intro h
      obtain ⟨_, hsource, h⟩ := bind_eq_ok.mp h
      obtain ⟨_, hdestination, h⟩ := bind_eq_ok.mp h
      obtain ⟨hname, hbytes, hsize⟩ := ensureTextFileContentMatchesAt_ok.mp hsource
      obtain ⟨state, hstate, hdestination⟩ := bind_eq_ok.mp hdestination
      split at hdestination
      · rename_i heq
        exact ⟨⟨hname, hbytes, hsize, heq ▸ hstate⟩, h⟩
      · cases hdestination
    · rintro ⟨hholds, hrest⟩
      refine bind_eq_ok.mpr ⟨(), ensureTextFileContentMatchesAt_ok.mpr
        ⟨hholds.name, hholds.source, hholds.size⟩, bind_eq_ok.mpr ⟨(), ?_, hrest⟩⟩
      exact bind_eq_ok.mpr ⟨_, hholds.destination, if_pos rfl⟩

/-- The checks a promotion makes before its first step. -/
structure Promotable (s : Members) (snapshots : List IncomingMemberPromotionSnapshot) : Prop where
  holds : ∀ snapshot ∈ snapshots, SnapshotHolds s snapshot
  kids : KidsUnclaimed s (snapshots.map promotionCandidate) (promotionIgnored snapshots)

/-- A promotion of nothing does nothing; any other makes its steps exactly when it may. -/
theorem promoteSnapshottedIncomingMembersAt_ok {s : Members}
    {snapshots : List IncomingMemberPromotionSnapshot} {memberHandles : List String}
    {steps : List FileStep} :
    promoteSnapshottedIncomingMembersAt s snapshots = .ok (memberHandles, steps) ↔
      (snapshots = [] ∨ Promotable s snapshots)
        ∧ memberHandles = snapshots.map (·.memberHandle)
        ∧ steps = snapshots.flatMap promoteSnapshottedMember := by
  rw [promoteSnapshottedIncomingMembersAt]
  cases snapshots with
  | nil =>
    constructor
    · intro h
      obtain ⟨rfl, rfl⟩ := Prod.mk.inj (Except.ok.inj h)
      exact ⟨.inl rfl, rfl, rfl⟩
    · rintro ⟨-, rfl, rfl⟩
      rfl
  | cons snapshot rest =>
    rw [if_neg (by simp)]
    constructor
    · intro h
      obtain ⟨_, hholds, h⟩ := bind_eq_ok.mp h
      obtain ⟨_, hkids, h⟩ := bind_eq_ok.mp h
      obtain ⟨rfl, rfl⟩ := Prod.mk.inj (Except.ok.inj h)
      exact ⟨.inr ⟨ensurePromotionSnapshotsHold_ok.mp hholds, enforceUniqueness_iff.mp hkids⟩,
        rfl, rfl⟩
    · rintro ⟨hnil | hpromotable, rfl, rfl⟩
      · cases hnil
      · exact bind_eq_ok.mpr ⟨(), ensurePromotionSnapshotsHold_ok.mpr hpromotable.holds,
          bind_eq_ok.mpr ⟨(), enforceUniqueness_iff.mpr hpromotable.kids, rfl⟩⟩

/-- What a save that wrote has checked: the document that stood there, if any, is the only one
    left out. -/
structure Savable (s : Members) (status : MemberStatus) (memberHandle content : String)
    (key : PublicKey) : Prop where
  name : checkedChildName (memberFileName memberHandle) = .ok ()
  document : readDocument (utf8 content) = some key
  kids : KidsUnclaimed s [⟨memberHandle, key.protect.kid, status⟩]
    (if (s.find status (memberFileName memberHandle)).isSome then [(status, memberHandle)] else [])

/-- A save keeps what it finds or writes what it may. -/
theorem saveMemberContentKeepingExisting_ok {s : Members} {status : MemberStatus}
    {memberHandle content : String} {overwrite : Bool} {write : MemberDocumentWrite}
    {steps : List FileStep}
    (h : saveMemberContentKeepingExisting s status memberHandle content overwrite
      = .ok (write, steps)) :
    steps = [] ∨ steps = [.saveText status (memberFileName memberHandle) content]
      ∧ ∃ key, Savable s status memberHandle content key := by
  obtain ⟨key, hkey, h⟩ := bind_eq_ok.mp h
  obtain ⟨_, hname, h⟩ := bind_eq_ok.mp h
  dsimp only at h
  split at h
  · exact .inl (Prod.mk.inj (Except.ok.inj h)).2.symm
  · obtain ⟨_, hkids, h⟩ := bind_eq_ok.mp h
    refine .inr ⟨(Prod.mk.inj (Except.ok.inj h)).2.symm, key, hname, readDocument_of_parse hkey, ?_⟩
    exact enforceUniqueness_iff.mp hkids

/-- A save that refuses what it finds makes the steps of one that keeps it. -/
theorem saveMemberContent_ok {s : Members} {status : MemberStatus} {memberHandle content : String}
    {overwrite : Bool} {steps : List FileStep}
    (h : saveMemberContent s status memberHandle content overwrite = .ok steps) :
    ∃ write, saveMemberContentKeepingExisting s status memberHandle content overwrite
      = .ok (write, steps) := by
  obtain ⟨⟨write, made⟩, hkeeping, h⟩ := bind_eq_ok.mp h
  cases write with
  | created => exact ⟨_, Except.ok.inj h ▸ hkeeping⟩
  | replaced => exact ⟨_, Except.ok.inj h ▸ hkeeping⟩
  | kept => cases h

/-- A save that may write does. -/
theorem saveMemberContentKeepingExisting_of {s : Members} {status : MemberStatus}
    {memberHandle content : String} {overwrite : Bool} {key : PublicKey}
    (h : Savable s status memberHandle content key)
    (hfree : overwrite = true ∨ s.find status (memberFileName memberHandle) = none) :
    saveMemberContentKeepingExisting s status memberHandle content overwrite
      = .ok (if (s.find status (memberFileName memberHandle)).isSome then .replaced else .created,
        [.saveText status (memberFileName memberHandle) content]) := by
  have hkeep : ((s.find status (memberFileName memberHandle)).isSome && !overwrite) = false := by
    rcases hfree with rfl | hfree
    · rw [Bool.not_true, Bool.and_false]
    · rw [hfree, Option.isSome_none, Bool.false_and]
  refine bind_eq_ok.mpr ⟨key, parse_of_readDocument h.document _, ?_⟩
  refine bind_eq_ok.mpr ⟨(), h.name, ?_⟩
  rw [if_neg (by rw [hkeep]; exact Bool.false_ne_true)]
  exact bind_eq_ok.mpr ⟨(), enforceUniqueness_iff.mpr h.kids, rfl⟩

theorem removeReviewed_ok {s : Members} {document : ReviewedMemberDocument}
    {steps : List FileStep} (h : removeReviewed s document = .ok steps) :
    steps = [.removeActive document.memberHandle]
      ∧ s.find .active (memberFileName document.memberHandle) = some document.reviewed := by
  obtain ⟨_, _, h⟩ := bind_eq_ok.mp h
  split at h
  · rename_i hholds
    rw [Bool.and_eq_true] at hholds
    exact ⟨(Except.ok.inj h).symm, eq_of_beq hholds.2⟩
  · cases h

end MemberOperations
