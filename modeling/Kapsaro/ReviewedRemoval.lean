import Kapsaro.Interleaving
import Kapsaro.MemberStore
import Kapsaro.TrustTransaction

/-!
# Reviewed removal — deleting only what was reviewed

`io/workspace/members/store/remove.rs` and `io/trust/remove.rs`: a name can be repointed between a
review and the deletion, so the entry is moved aside first, identified there, and then deleted or
put back.  Every system call is a step; between any two of them others change the tree.

* **`Tree`**, **`Outside`** — entries, the files behind them, and what others can do to them.
* **`RegularFileSnapshot`**, **`Inspection`** — the reviewed file, held open, and the calls of
  `still_holds`.
* **`Removal`**, **`Phase`**, **`operationStep`** — the two operations, call by call.
* **`Ledger`** — what the operation did so far, for the statements only.
* **`identified_of_inspect`** — what a passed check saw.
-/

namespace ReviewedRemoval

open JsonText Limits TextLines WireTexts TrustDocument TrustTransaction MemberStore Interleaving

/-! ## The tree -/

/-- What a directory entry leads to. -/
inductive Node where
  | regular (bytes : Bytes)
  /-- a link, a directory or a device -/
  | other
deriving DecidableEq, Repr

/-- A name in a directory. -/
structure Place where
  dir : Nat
  name : String
deriving DecidableEq, Repr

/-- Directories and files are known by device and inode; a file that is held open keeps its own. -/
structure Tree where
  entries : Place → Option Nat
  nodes : Nat → Node
  /-- the directory behind the name of the status directory -/
  statusDir : Nat

namespace Tree

/-- The entry at a place, changed. -/
def setEntry (t : Tree) (place : Place) (entry : Option Nat) : Tree :=
  { t with entries := fun p => if p = place then entry else t.entries p }

@[simp]
theorem entries_setEntry_self (t : Tree) (place : Place) (entry : Option Nat) :
    (t.setEntry place entry).entries place = entry :=
  if_pos rfl

theorem entries_setEntry_ne (t : Tree) {place other : Place} (entry : Option Nat)
    (h : other ≠ place) : (t.setEntry place entry).entries other = t.entries other :=
  if_neg h

@[simp]
theorem nodes_setEntry (t : Tree) (place : Place) (entry : Option Nat) :
    (t.setEntry place entry).nodes = t.nodes := rfl

@[simp]
theorem statusDir_setEntry (t : Tree) (place : Place) (entry : Option Nat) :
    (t.setEntry place entry).statusDir = t.statusDir := rfl

/-- A rename within a directory. -/
def moveEntry (t : Tree) (source destination : Place) (inode : Nat) : Tree :=
  (t.setEntry source none).setEntry destination (some inode)

end Tree

/-- What others do: create, replace, rename, link, unlink, write in place, and repoint the
    directory. -/
inductive Outside where
  | setEntry (place : Place) (entry : Option Nat)
  | write (inode : Nat) (node : Node)
  | repoint (dir : Nat)

def Outside.apply (t : Tree) : Outside → Tree
  | .setEntry place entry => t.setEntry place entry
  | .write inode node => { t with nodes := fun i => if i = inode then node else t.nodes i }
  | .repoint dir => { t with statusDir := dir }

/-- Others leave a place alone. -/
def Outside.Spares (place : Place) : Outside → Prop
  | .setEntry other _ => other ≠ place
  | .write _ _ => True
  | .repoint _ => True

/-! ## Snapshots -/

/-- The file that was reviewed, held open. -/
structure RegularFileSnapshot where
  identity : Nat
  rawBytes : Bytes
deriving DecidableEq

/-- Read a file through a descriptor. -/
def loadSnapshotBytes (displayPath : String) : Node → Except Error Bytes
  | .regular bytes => loadCappedBytes maxJsonDocumentReadSize "Reviewed document" displayPath bytes
  | .other => .error (.io s!"Failed to read file {displayPath}")

/-- The calls of `still_holds`: look for the entry, open it, read it, read the reviewed file. -/
inductive Inspection where
  | lookup
  | openEntry
  | readCurrent (inode : Nat)
  | readHeld (inode : Nat) (bytes : Bytes)
deriving DecidableEq

/-- A call of `still_holds` leads to the next one, or to the answer. -/
def inspect (display : String → String) (reviewed : RegularFileSnapshot) (place : Place)
    (t : Tree) (fault : Option Error) : Inspection → Inspection ⊕ Except Error Bool
  | .lookup =>
    match fault, t.entries place with
    | some e, _ => .inr (.error e)
    -- a name that is gone is an answer, not a failure
    | none, none => .inr (.ok false)
    | none, some _ => .inl .openEntry
  | .openEntry =>
    match fault, t.entries place with
    | some e, _ => .inr (.error e)
    -- gone between the two calls
    | none, none => .inr (.error (.notFound s!"File not found: {display place.name}"))
    | none, some inode =>
      match t.nodes inode with
      | .regular _ => .inl (.readCurrent inode)
      | .other => .inr (.error
          (.invalidOperation s!"refusing to read non-regular file: {display place.name}"))
  | .readCurrent inode =>
    match fault, loadSnapshotBytes (display place.name) (t.nodes inode) with
    | some e, _ => .inr (.error e)
    | none, .error e => .inr (.error e)
    | none, .ok bytes => .inl (.readHeld inode bytes)
  -- the handle held since the review may show a write to the same inode
  | .readHeld inode bytes =>
    match fault, loadSnapshotBytes "reviewed file" (t.nodes reviewed.identity) with
    | some e, _ => .inr (.error e)
    | none, .error e => .inr (.error e)
    | none, .ok heldBytes => .inr (.ok (decide (reviewed.rawBytes = heldBytes
        ∧ reviewed.identity = inode ∧ reviewed.rawBytes = bytes)))

/-! ## The operations -/

/-- The name an entry is moved to; the last part is drawn for the operation. -/
def uniqueWriteStagingName (target uuid : String) : String :=
  "." ++ target ++ ".tmp." ++ uuid

theorem uniqueWriteStagingName_ne (target uuid : String) :
    uniqueWriteStagingName target uuid ≠ target := by
  intro h
  have hlength := congrArg (fun s => s.toList.length) h
  simp only [uniqueWriteStagingName, String.toList_append, List.length_append] at hlength
  have hdot : ".".toList.length = 1 := rfl
  omega

/-- A removal: what it was reviewed against, and what it reports. -/
structure Removal (α : Type) where
  dir : Nat
  fileName : String
  quarantine : String
  names_ne : quarantine ≠ fileName
  reviewed : RegularFileSnapshot
  display : String → String
  /-- the answer of a deletion -/
  deleted : α
  changedSinceReview : Error
  quarantineFailed : Error → Error
  anotherDocument : String
  unidentified : Error → String
  unrestored : String → Error → Error
  restored : String → Error
  restoredUnpersisted : String → Error → Error
  undeleted : Error → Error
  unpersisted : Error → Error

namespace Removal

variable {α : Type}

/-- Where the reviewed document stood. -/
def path (op : Removal α) : Place := ⟨op.dir, op.fileName⟩

/-- Where it is moved. -/
def aside (op : Removal α) : Place := ⟨op.dir, op.quarantine⟩

theorem path_ne_aside (op : Removal α) : op.path ≠ op.aside := fun h =>
  op.names_ne (Place.mk.inj h).2.symm

end Removal

/-- `ReviewedMemberDocument::remove`, after its directory check. -/
def memberRemoval (dir : Nat) (memberHandle uuid : String) (reviewed : RegularFileSnapshot)
    (display : String → String) : Removal Unit :=
  let fileName := memberFileName memberHandle
  let quarantine := uniqueWriteStagingName fileName uuid
  let changed (reason : String) :=
    s!"Active member '{memberHandle}' changed since review and must be reviewed again: {reason}"
  { dir, fileName, quarantine, reviewed, display
    names_ne := uniqueWriteStagingName_ne _ _
    deleted := ()
    changedSinceReview := .invalidOperation
      s!"Active member '{memberHandle}' changed since review and must be reviewed again."
    quarantineFailed := fun error => .io
      (s!"Active member document '{display fileName}' could not be moved aside for deletion: " ++
        s!"{formatUserMessage error}. Nothing was deleted.")
    anotherDocument := "another document stood at its name"
    unidentified := fun error =>
      s!"the moved entry could not be identified: {formatUserMessage error}"
    unrestored := fun reason error => .io
      (s!"{changed reason}. The document was not deleted, but it could not be restored under " ++
        s!"its original name: {formatUserMessage error}. It remains at {display quarantine}. " ++
        s!"Preserve or move the entry currently named '{fileName}', then rename the quarantined " ++
        s!"document to '{fileName}' and review the removal again.")
    restored := fun reason => .invalidOperation
      (s!"{changed reason}. The document was restored under its original name and nothing was " ++
        "deleted.")
    restoredUnpersisted := fun reason error => .io
      (s!"{changed reason}. The document was restored under its original name and nothing was " ++
        s!"deleted, but the directory entry was not persisted: {formatUserMessage error}")
    undeleted := fun error => .io
      (s!"Active member document '{display fileName}' was moved aside for deletion, but " ++
        s!"deletion failed: {formatUserMessage error}. It remains at {display quarantine}; " ++
        s!"remove that entry to finish the removal, or rename it to '{fileName}' to restore the " ++
        "member document.")
    unpersisted := fun error => .io
      (s!"The active member document was removed {display fileName}, but its directory entry " ++
        "was not persisted, so a crash before the next sync could bring it back: " ++
        formatUserMessage error) }

/-- `remove_confirmed_trust_store`, with a confirmed document. -/
def trustStoreRemoval (dir : Nat) (fileName uuid : String) (confirmed : RegularFileSnapshot)
    (display : String → String) (path : String) : Removal Bool :=
  let quarantine := uniqueWriteStagingName fileName uuid
  let replaced (reason : String) :=
    s!"Local trust store '{path}' changed since reset confirmation and must be reviewed again: " ++
      reason
  { dir, fileName, quarantine, display
    names_ne := uniqueWriteStagingName_ne _ _
    reviewed := confirmed
    deleted := true
    changedSinceReview := .invalidOperation
      s!"Local trust store '{path}' changed since reset confirmation and must be reviewed again."
    quarantineFailed := fun error => .io
      (s!"Local trust store '{path}' could not be moved aside for deletion: " ++
        s!"{formatUserMessage error}. Nothing was deleted.")
    anotherDocument := "another document stood at its name"
    unidentified := fun error =>
      s!"what stood at its name could not be identified: {formatUserMessage error}"
    unrestored := fun reason error => .io
      (s!"{replaced reason}. It was not deleted, but it could not be put back under that name: " ++
        s!"{formatUserMessage error}. It is at {display quarantine} and must be renamed to " ++
        s!"'{fileName}' to be read again.")
    restored := fun reason => .invalidOperation
      (s!"{replaced reason}. The document standing there was left as it was and nothing was " ++
        "deleted.")
    restoredUnpersisted := fun reason error => .io
      (s!"{replaced reason}. The document standing there was put back under that name and " ++
        "nothing was deleted, but the directory entry was not persisted: " ++
        s!"{formatUserMessage error}")
    undeleted := fun error => .io
      (s!"Local trust store '{path}' was moved aside for deletion but the deletion did not " ++
        s!"land: {formatUserMessage error}. It still holds the approvals the reset would have " ++
        s!"discarded and is at {display quarantine}; remove that entry to finish the reset, or " ++
        s!"rename it to '{fileName}' to keep them.")
    unpersisted := fun error => .io
      (s!"The local trust store was removed {path}, but its directory entry was not persisted: " ++
        formatUserMessage error) }

/-- The next call of an operation. -/
inductive Phase (α : Type) where
  /-- open the status directory and compare it with the reviewed one -/
  | openDirectory
  | inspectPath (at_ : Inspection)
  | moveAside
  | inspectAside (at_ : Inspection)
  | delete
  | syncDeletion
  | restore (reason : String)
  | syncRestoration (reason : String)
  | done (result : Except Error α)

/-- What the operation did. -/
structure Ledger where
  /-- the file it moved aside -/
  moved : Option Nat
  /-- it identified the file it moved as the reviewed one -/
  identified : Bool
  /-- someone wrote into the file it moved since it was identified -/
  rewritten : Bool
  /-- the file it deleted, and what was in it -/
  deleted : Option (Nat × Node)
  /-- it put the file back -/
  restored : Bool
  /-- someone changed the entry at the path since it was put back -/
  disturbed : Bool
deriving DecidableEq

def Ledger.empty : Ledger := ⟨none, false, false, none, false, false⟩

/-- The tree, the operation and its ledger. -/
structure System (α : Type) where
  tree : Tree
  phase : Phase α
  ledger : Ledger

section Steps

variable {α : Type} (op : Removal α)

def renameFailed (source destination : String) : Error :=
  .io s!"Failed to rename {op.display source} to {op.display destination}"

def renameRefused (destination : String) : Error :=
  .invalidOperation s!"refusing to replace existing entry: {op.display destination}"

/-- Rename one entry to a free name. -/
def renameNoreplace (source destination : Place) (t : Tree) (fault : Option Error) :
    Except Error (Nat × Tree) :=
  match fault, t.entries source, t.entries destination with
  | some e, _, _ => .error e
  | none, none, _ => .error (renameFailed op source.name destination.name)
  | none, some _, some _ => .error (renameRefused op destination.name)
  | none, some inode, none => .ok (inode, t.moveEntry source destination inode)

/-- One call of the operation; `fault` is the failure the system reports for it. -/
def operationStep (s : System α) (fault : Option Error) : System α :=
  match s.phase with
  | .openDirectory =>
    match fault with
    | some e => { s with phase := .done (.error e) }
    | none =>
      if s.tree.statusDir = op.dir then { s with phase := .inspectPath .lookup }
      else { s with phase := .done (.error op.changedSinceReview) }
  | .inspectPath call =>
    match inspect op.display op.reviewed op.path s.tree fault call with
    | .inl next => { s with phase := .inspectPath next }
    | .inr (.ok true) => { s with phase := .moveAside }
    | .inr (.ok false) => { s with phase := .done (.error op.changedSinceReview) }
    | .inr (.error e) => { s with phase := .done (.error e) }
  | .moveAside =>
    match renameNoreplace op op.path op.aside s.tree fault with
    | .error e => { s with phase := .done (.error (op.quarantineFailed e)) }
    | .ok (inode, tree) =>
      { tree, phase := .inspectAside .lookup, ledger := { s.ledger with moved := some inode } }
  | .inspectAside call =>
    match inspect op.display op.reviewed op.aside s.tree fault call with
    | .inl next => { s with phase := .inspectAside next }
    -- The file aside is the reviewed one: only now may it be deleted.
    | .inr (.ok true) =>
      { s with
        phase := .delete
        ledger := { s.ledger with identified := true, rewritten := false } }
    -- Another document was moved aside: it goes back, and the removal fails.
    | .inr (.ok false) => { s with phase := .restore op.anotherDocument }
    | .inr (.error e) => { s with phase := .restore (op.unidentified e) }
  | .delete =>
    match fault, s.tree.entries op.aside with
    | some e, _ => { s with phase := .done (.error (op.undeleted e)) }
    | none, none => { s with phase := .done (.error (op.undeleted
        (.io s!"Failed to remove file {op.display op.quarantine}"))) }
    | none, some inode =>
      { tree := s.tree.setEntry op.aside none
        phase := .syncDeletion
        ledger := { s.ledger with deleted := some (inode, s.tree.nodes inode) } }
  | .syncDeletion =>
    match fault with
    | some e => { s with phase := .done (.error (op.unpersisted e)) }
    | none => { s with phase := .done (.ok op.deleted) }
  | .restore reason =>
    match renameNoreplace op op.aside op.path s.tree fault with
    | .error e => { s with phase := .done (.error (op.unrestored reason e)) }
    | .ok (_, tree) =>
      { tree, phase := .syncRestoration reason, ledger := { s.ledger with restored := true } }
  | .syncRestoration reason =>
    match fault with
    | some e => { s with phase := .done (.error (op.restoredUnpersisted reason e)) }
    | none => { s with phase := .done (.error (op.restored reason)) }
  | .done result => { s with phase := .done result }

/-- What others did, in the ledger. -/
def Ledger.note (ledger : Ledger) : Outside → Ledger
  | .setEntry place _ =>
    { ledger with disturbed := ledger.disturbed || (ledger.restored && decide (place = op.path)) }
  | .write inode _ =>
    { ledger with rewritten := ledger.rewritten
        || (ledger.deleted.isNone && decide (ledger.moved = some inode)) }
  | .repoint _ => ledger

/-- A step of the operation or of someone else. -/
inductive Action where
  | operation (fault : Option Error)
  | outside (o : Outside)

def step (s : System α) : Action → System α
  | .operation fault => operationStep op s fault
  | .outside o => { s with tree := o.apply s.tree, ledger := s.ledger.note op o }

/-- Others leave the quarantine name alone. -/
def Spares (actions : List Action) : Prop :=
  ∀ o, Action.outside o ∈ actions → o.Spares op.aside

end Steps

/-! ## What one call does -/

section Calls

variable {α : Type} {op : Removal α}

/-- A call of `still_holds` has opened the file it will compare. -/
def Inspection.Opened (inode : Nat) : Inspection → Prop
  | .lookup => True
  | .openEntry => True
  | .readCurrent i => i = inode
  | .readHeld i _ => i = inode

theorem loadSnapshotBytes_ok {displayPath : String} {node : Node} {bytes : Bytes}
    (h : loadSnapshotBytes displayPath node = .ok bytes) : node = .regular bytes := by
  cases node with
  | regular content =>
    rw [loadSnapshotBytes, loadCappedBytes] at h
    split at h
    · rw [Except.ok.inj h]
    · cases h
  | other => cases h

/-- The calls of `still_holds` follow the entry as long as it stays. -/
theorem opened_of_inspect {display : String → String} {reviewed : RegularFileSnapshot}
    {place : Place} {t : Tree} {fault : Option Error} {call next : Inspection} {inode : Nat}
    (hentry : t.entries place = some inode) (hopened : call.Opened inode)
    (h : inspect display reviewed place t fault call = .inl next) : next.Opened inode := by
  cases call with
  | lookup =>
    cases fault with
    | some e => cases h
    | none =>
      simp only [inspect, hentry] at h
      obtain rfl := Sum.inl.inj h
      trivial
  | openEntry =>
    cases fault with
    | some e => cases h
    | none =>
      simp only [inspect, hentry] at h
      split at h
      · obtain rfl := Sum.inl.inj h
        rfl
      · cases h
  | readCurrent i =>
    cases fault with
    | some e => cases h
    | none =>
      simp only [inspect] at h
      cases hload : loadSnapshotBytes (display place.name) (t.nodes i) with
      | error e =>
        rw [hload] at h
        cases h
      | ok bytes =>
        rw [hload] at h
        obtain rfl := Sum.inl.inj h
        exact hopened
  | readHeld i bytes =>
    cases fault with
    | some e => cases h
    | none =>
      simp only [inspect] at h
      cases hload : loadSnapshotBytes "reviewed file" (t.nodes reviewed.identity) with
      | error e =>
        rw [hload] at h
        cases h
      | ok held =>
        rw [hload] at h
        cases h

/-- **WHAT A PASSED CHECK SAW**: the entry is the reviewed file, with the reviewed bytes in it. -/
theorem identified_of_inspect {display : String → String} {reviewed : RegularFileSnapshot}
    {place : Place} {t : Tree} {fault : Option Error} {call : Inspection} {inode : Nat}
    (hopened : call.Opened inode)
    (h : inspect display reviewed place t fault call = .inr (.ok true)) :
    inode = reviewed.identity ∧ t.nodes inode = .regular reviewed.rawBytes := by
  cases call with
  | lookup =>
    cases fault with
    | some e => cases h
    | none =>
      cases hentry : t.entries place with
      | none =>
        simp only [inspect, hentry] at h
        exact absurd (Except.ok.inj (Sum.inr.inj h)) Bool.false_ne_true
      | some i =>
        simp only [inspect, hentry] at h
        cases h
  | openEntry =>
    cases fault with
    | some e => cases h
    | none =>
      simp only [inspect] at h
      split at h
      · rename_i heq
        cases heq
      · cases h
      · split at h
        · cases h
        · cases h
  | readCurrent i =>
    simp only [inspect] at h
    split at h
    · cases h
    · cases h
    · cases h
  -- Only the last call answers yes, and it compares identity and bytes.
  | readHeld i bytes =>
    obtain rfl : i = inode := hopened
    simp only [inspect] at h
    cases fault with
    | some e => cases h
    | none =>
      cases hload : loadSnapshotBytes "reviewed file" (t.nodes reviewed.identity) with
      | error e =>
        rw [hload] at h
        cases h
      | ok held =>
        rw [hload] at h
        obtain ⟨hbytes, hinode, _⟩ := of_decide_eq_true (Except.ok.inj (Sum.inr.inj h))
        rw [← hinode, loadSnapshotBytes_ok hload, hbytes]
        exact ⟨rfl, rfl⟩

/-- A rename takes one entry to a free name. -/
theorem renameNoreplace_ok {source destination : Place} {t t' : Tree} {fault : Option Error}
    {inode : Nat} (h : renameNoreplace op source destination t fault = .ok (inode, t')) :
    t.entries source = some inode ∧ t.entries destination = none
      ∧ t' = t.moveEntry source destination inode := by
  unfold renameNoreplace at h
  split at h
  · cases h
  · cases h
  · cases h
  rename_i hsource hdestination
  obtain ⟨rfl, rfl⟩ := Prod.mk.inj (Except.ok.inj h)
  exact ⟨hsource, hdestination, rfl⟩

end Calls

end ReviewedRemoval
