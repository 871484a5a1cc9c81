import Kapsaro.KeystoreReads
import Kapsaro.KeyedList
import Kapsaro.MemberOperations
import Kapsaro.ReviewedRemoval
import Kapsaro.StepPrograms

/-!
# Keystore changes — publishing, activating and removing keys call by call

`io/keystore/access/key_pair.rs`, `access/active.rs`, `support/fs/relative.rs`: the operations that
change the directory of one member, as programs of file system calls.  A call that syncs a file or
a directory, sets a mode, takes the lock or works outside the member directory is `touch`.

* **`DirectoryCalls`** — the calls on one directory: create, write, rename, unlink.
* **`saveTextRestrictedAt`** — a file staged beside its target and renamed onto it.
* **`saveKeyPairAtomic`**, **`activateExistingKey`**, **`activateLatestValidKey`**,
  **`removeKeyWithValidation`** — the operations.
* **`KeystoreOperation`**, **`program`** — any of them, with the names it draws.
-/

namespace KeystoreChanges

open JsonText Limits TextLines WireTexts WireModel KeyProtection KeyedList TrustStore
open TrustTransaction MemberStore MemberOperations ReviewedRemoval KeystoreReads StepPrograms
open StepPrograms.Steps

/-! ## Calls -/

/-- The directory of the member, if there is one. -/
abbrev Keystore := Option MemberDirectory

abbrev Change (α : Type) := Steps Keystore Error α

/-- A call that may fail and leaves the member directory as it is. -/
def touch : Change Unit := change .ok

/-- Go on whatever came out. -/
def ignoring (p : Change Unit) : Change Unit :=
  p.handle fun _ => done (.ok ())

/-- The result of a check. -/
def ensure (r : Except Error Unit) : Change Unit := done r

/-- Report another error. -/
def mapError (f : Error → Error) (p : Change Unit) : Change Unit :=
  p.handle fun r => done (r.mapError f)

/-- How the calls on one directory reach it, and what its entries are. -/
structure DirectoryCalls (α : Type) where
  edit : (List (String × α) → Except Error (List (String × α))) → Keystore → Except Error Keystore
  view : Keystore → List (String × α)
  regular : StoredFile → α
  /-- a new directory -/
  empty : α
  kind : α → ChildType
  path : String → String

/-- The member directory. -/
def memberCalls (member : MemberHandle) : DirectoryCalls MemberEntry where
  edit f
    | none => .error (.notFound s!"Directory not found: keys/{member.text}")
    | some dir => (f dir).map some
  view s := s.getD []
  regular := .file
  empty := .directory []
  kind := MemberEntry.childType
  path := memberEntryPath member

/-- A directory in the member directory. -/
def childCalls (member : MemberHandle) (child : String) : DirectoryCalls KeyEntry where
  edit f
    | none => .error (.notFound s!"Directory not found: keys/{member.text}")
    | some dir =>
      match dir.lookup child with
      | some (.directory entries) =>
        (f entries).map fun entries => some (insertKey child (.directory entries) dir)
      | _ => .error (.notFound s!"Directory not found: {memberEntryPath member child}")
  view s :=
    match (s.getD []).lookup child with
    | some (.directory entries) => entries
    | _ => []
  regular := .file
  empty := .directory []
  kind := KeyEntry.childType
  path name := memberEntryPath member child ++ "/" ++ name

namespace DirectoryCalls

variable {α : Type} (d : DirectoryCalls α)

/-- The entries without those of a name. -/
def dropEntry (name : String) (entries : List (String × α)) : List (String × α) :=
  entries.filter fun entry => entry.1 ≠ name

/-- The name of a new entry must be free. -/
def creating (name : String) (entry : α) (what : String) (entries : List (String × α)) :
    Except Error (List (String × α)) :=
  if (entries.lookup name).isSome then .error (.io s!"Failed to create {what}: {d.path name}")
  else .ok (entries ++ [(name, entry)])

/-- A directory is not replaced by a rename. -/
def renamingOver (source destination : String) (entries : List (String × α)) :
    Except Error (List (String × α)) :=
  match entries.lookup source with
  | none => .error (.io s!"Persist to {d.path destination} failed")
  | some entry =>
    if (entries.lookup destination).map d.kind = some ChildType.directory then
      .error (.io s!"Persist to {d.path destination} failed")
    else .ok (insertKey destination entry (dropEntry source entries))

/-- Nothing is replaced by this one. -/
def renamingNoreplace (source destination : String) (entries : List (String × α)) :
    Except Error (List (String × α)) :=
  match entries.lookup source with
  | none => .error (.io s!"Failed to rename {d.path source} to {d.path destination}")
  | some entry =>
    if (entries.lookup destination).isSome then
      .error (.invalidOperation s!"refusing to replace existing entry: {d.path destination}")
    else .ok (dropEntry source entries ++ [(destination, entry)])

/-- A file, or an empty directory where `what` asks for one; a name that is free stays so. -/
def unlinking (name : String) (removable : α → Bool) (what : String)
    (entries : List (String × α)) : Except Error (List (String × α)) :=
  match entries.lookup name with
  | none => .ok entries
  | some entry =>
    if removable entry then .ok (dropEntry name entries)
    else .error (.io s!"Failed to remove {what}: {d.path name}")

def createEntry (name : String) (entry : α) (what : String) : Change Unit :=
  change (d.edit (d.creating name entry what))

/-- Write into a file that is held open. -/
def writeEntry (name : String) (bytes : Bytes) : Change Unit :=
  change (d.edit fun entries => .ok (insertKey name (d.regular ⟨bytes, true⟩) entries))

def renameEntry (source destination : String) : Change Unit :=
  change (d.edit (d.renamingOver source destination))

def renameNoreplace (source destination : String) : Change Unit :=
  change (d.edit (d.renamingNoreplace source destination))

def unlinkEntry (name : String) (removable : α → Bool) (what : String) : Change Unit :=
  change (d.edit (d.unlinking name removable what))

/-- Unlink a name if it is there, and persist the directory if it was. -/
def removeIfExistsAt (name : String) (removable : α → Bool) (what : String) : Change Unit :=
  look fun s => do
    d.unlinkEntry name removable what
    if ((d.view s).lookup name).isSome then touch else pure ()

def removeFileIfExistsAt (name : String) : Change Unit :=
  d.removeIfExistsAt name (fun entry => d.kind entry ≠ .directory) "file"

/-! ## Atomic writes -/

/-- Fill the file a write stages beside its target, leaving nothing on failure. -/
def saveStagedFile (tempName : String) (data : Bytes) : Change Unit := do
  d.createEntry tempName (d.regular ⟨[], true⟩) "temp file"
  (do
    touch
    d.writeEntry tempName data
    touch).handle fun
      | .ok () => pure ()
      | .error e => do
        ignoring (d.unlinkEntry tempName (fun entry => d.kind entry ≠ ChildType.directory) "file")
        done (.error e)

def unsyncedEntryError (path : String) (error : Error) : Error :=
  .io (s!"File {path} was written, but its directory entry was not persisted, so a crash before " ++
    s!"the next sync could lose it: {formatUserMessage error}")

/-- Rename the staged file onto its final name and persist the entry. -/
def publishStagedFile (name tempName : String) : Change Unit := do
  (d.renameEntry tempName name).handle fun
    | .ok () => pure ()
    | .error e => do
      ignoring (d.unlinkEntry tempName (fun entry => d.kind entry ≠ .directory) "file")
      done (.error e)
  mapError (unsyncedEntryError (d.path name)) touch

/-- Write a file that only its owner can reach. -/
def saveTextRestrictedAt (name : String) (data : Bytes) (uuid : Uuid) : Change Unit := do
  ensure (checkedAtomicWriteTargetName name)
  d.saveStagedFile (uniqueWriteStagingName name uuid.text) data
  d.publishStagedFile name (uniqueWriteStagingName name uuid.text)

end DirectoryCalls

/-! ## Member operations -/

/-- Whether the member directory holds an entry that is not safe. -/
def ensureNamespaceSafe : Change Unit :=
  observe fun s => ensureMemberNamespaceSafe (s.getD [])

def postMutationError (path phrase : String) (error : Error) : Error :=
  .invalidOperation (s!"The keystore entry {path} {phrase}, but the member directory became " ++
    s!"unsafe immediately after: {formatUserMessage error}")

/-- Check the namespace again once a change has succeeded. -/
def finishMemberMutation {α : Type} (path phrase : String) (p : Change α) : Change α := do
  let value ← p
  mapError (postMutationError path phrase) ensureNamespaceSafe
  pure value

/-- The member directory, which must be there. -/
def openMember (missing : Error) : Change MemberDirectory :=
  observe fun s =>
    match s with
    | some dir => .ok dir
    | none => .error missing

def memberNotFound (member : MemberHandle) : Error :=
  .notFound s!"Member '{member.text}' not found"

def noKeysFound (member : MemberHandle) : Error :=
  .notFound s!"No keys found for member: {member.text}"

def keyNotFound (member : MemberHandle) (kid : Kid) : Error :=
  .notFound s!"Key '{kid.text}' not found for member '{member.text}'"

/-- Make the member directory where there is none: it is staged elsewhere and renamed. -/
def ensureMember : Change Unit :=
  look fun s =>
    if s.isSome then done (.ok ())
    else do
      -- a staging directory, its mode and its rename: only the last one is seen
      touch
      (do
        touch
        touch
        change fun s => .ok (some (s.getD []))
        touch).handle fun
          | .ok () => pure ()
          | .error e => do
            ignoring touch
            done (.error e)

section Operations

variable (P : TextParsers) (member : MemberHandle)

/-! ### Activation -/

def saveActiveKidLocked (kid : Kid) (uuid : Uuid) : Change Unit :=
  (memberCalls member).saveTextRestrictedAt activeFile (utf8 (kid.text ++ "\n")) uuid

def expiredKeyNotActivatable (kid : Kid) : Error :=
  .invalidOperation
    (s!"Key '{kid.text}' of member '{member.text}' has expired, so it cannot be made active. " ++
      "Generate a new key with 'kapsaro key new', or name a key that is still valid.")

def halfMissingKeyNotActivatable (kid : Kid) : Error :=
  .invalidOperation
    (s!"Key '{kid.text}' of member '{member.text}' is missing one of the two key documents, so " ++
      "it cannot be made active. Repair the key directory, or name a key that is stored complete.")

/-- Point the marker at a named key. -/
def activateExistingKey (kid : Kid) (now : Int) (uuid : Uuid) : Change Unit := do
  let _ ← openMember (memberNotFound member)
  touch
  ensureNamespaceSafe
  finishMemberMutation (memberEntryPath member activeFile) "was written" <|
    look fun s =>
      match inspectKeyActivability P member (s.getD []) kid now .activation with
      | .activatable _ => saveActiveKidLocked member kid uuid
      | .expired _ => done (.error (expiredKeyNotActivatable member kid))
      | .missing => done (.error (keyNotFound member kid))
      | .halfMissing => done (.error (halfMissingKeyNotActivatable member kid))
      | .unreadable error => done (.error error)

/-- Name the keys a selection had to pass over, one line each. -/
def formatRuledOutKeys (halfMissing : List Kid) (unreadable : List Error) : String :=
  String.join (halfMissing.map fun kid =>
      s!"\n  Key '{kid.text}' is missing one of the two key documents.")
    ++ String.join (unreadable.map fun error =>
      s!"\n  A key of this member could not be read: {formatUserMessage error}")

def noActivatableKeyFound (halfMissing : List Kid) (unreadable : List Error) : Error :=
  .notFound (s!"No key that can be activated found for member: {member.text}. Every key is " ++
    "either expired, missing one of its halves, or unreadable." ++
    formatRuledOutKeys halfMissing unreadable)

/-- The newest unexpired key that both halves read back as. -/
def selectActivatableKid (dir : MemberDirectory) (now : Int) : Except Error Kid := do
  let selectable ← collectSelectableKeys P member dir now .activation
  if selectable.stored = 0 then throw (noKeysFound member)
  match selectPreferredKid selectable.candidates with
  | some kid => pure kid
  | none => throw (noActivatableKeyFound member selectable.halfMissing selectable.unreadable)

/-- Point the marker at the newest key that can be used. -/
def activateLatestValidKey (now : Int) (uuid : Uuid) : Change Kid := do
  let _ ← openMember (noKeysFound member)
  touch
  ensureNamespaceSafe
  finishMemberMutation (memberEntryPath member activeFile) "was written" do
    let kid ← observe fun s => selectActivatableKid P member (s.getD []) now
    saveActiveKidLocked member kid uuid
    pure kid

/-! ### Removal -/

/-- A directory in the key directory can be removed only when it is empty. -/
def ensureKeyEntriesRemovable (path : String → String) : KeyDirectory → Except Error Unit
  | [] => .ok ()
  | (name, .directory (_ :: _)) :: _ => .error (.invalidOperation
      s!"refusing to remove a key directory holding a non-empty entry: {path name}")
  | _ :: rest => ensureKeyEntriesRemovable path rest

/-- The entries of a key directory, once all of them can be deleted. -/
def buildKeyRemovalPlan (dir : MemberDirectory) (kid : Kid) : Except Error KeyDirectory := do
  match ← openOptionalKeyDir member dir kid with
  | none => throw (keyNotFound member kid)
  | some entries =>
    ensureKeyDirectorySafe entries
    ensureKeyEntriesRemovable (keyEntryPath member kid) entries
    pure entries

def standingActiveMarkerError (error : Error) : Error :=
  .io (s!"The active key marker {memberEntryPath member activeFile} could not be removed and " ++
    s!"still names the key it named before: {formatUserMessage error}")

def unsyncedActiveRemovalError (error : Error) : Error :=
  .io (s!"The active key marker {memberEntryPath member activeFile} was removed, but its " ++
    "directory entry was not persisted, so the member has no active key until " ++
    s!"'kapsaro key activate <kid> --member-handle {member.text}' names one: " ++
    formatUserMessage error)

/-- Which of the two failures the removal of the marker met. -/
def activeRemovalFailureError (dir : MemberDirectory) (error : Error) : Error :=
  match activeFileExists member dir with
  | .ok false => unsyncedActiveRemovalError member error
  | .ok true => standingActiveMarkerError member error
  | .error _ => error

def clearActiveKidLocked : Change Unit := do
  let standing ← observe fun s => activeFileExists member (s.getD [])
  if standing then
    ((memberCalls member).removeFileIfExistsAt activeFile).handle fun
      | .ok () => pure ()
      | .error e => look fun s => done (.error (activeRemovalFailureError member (s.getD []) e))
  else pure ()

/-- An empty directory among the entries of a key directory. -/
def isEmptyChild : KeyEntry → Bool
  | .directory names => names.isEmpty
  | _ => false

/-- A directory of the member directory that holds nothing. -/
def isEmptyDirectory : MemberEntry → Bool
  | .directory entries => entries.isEmpty
  | _ => false

/-- Delete one entry of a directory in the member directory. -/
def removeChildEntry (child name : String) (childType : ChildType) : Change Unit :=
  if childType = .directory then
    (childCalls member child).removeIfExistsAt name isEmptyChild "directory"
  else (childCalls member child).removeFileIfExistsAt name

def removeEmptyChildDirIfExistsAt (name : String) : Change Unit :=
  (memberCalls member).removeIfExistsAt name isEmptyDirectory "directory"

/-- Delete the entries, then the directory. -/
def executeKeyDirectoryRemoval (kid : Kid) (entries : KeyDirectory) : Change Unit := do
  each (fun entry : String × KeyEntry => removeChildEntry member kid.text entry.1 entry.2.childType)
    entries
  removeEmptyChildDirIfExistsAt member kid.text

def interruptedRemovalError (kid : Kid) (wasActive : Bool) (error : Error) : Error :=
  if wasActive then
    .io (s!"The active key marker for keys/{member.text} was removed, but removing key " ++
      s!"directory '{kid.text}' then stopped partway, so the member has no active key until " ++
      s!"'kapsaro key activate <kid> --member-handle {member.text}' names one: " ++
      formatUserMessage error)
  else error

/-- The marker goes before the documents do. -/
def removeKeyLocked (kid : Kid) (validate : Bool → Except Error Unit) : Change Bool := do
  let active ← observe fun s => loadActiveKid member (s.getD [])
  let wasActive := decide (active = some kid)
  ensure (validate wasActive)
  let entries ← observe fun s => buildKeyRemovalPlan member (s.getD []) kid
  (if wasActive then clearActiveKidLocked member else pure ())
  mapError (interruptedRemovalError member kid wasActive)
    (executeKeyDirectoryRemoval member kid entries)
  pure wasActive

/-- Remove one key after `validate` approves it; says whether it was active. -/
def removeKeyWithValidation (kid : Kid) (validate : Bool → Except Error Unit) : Change Bool := do
  let _ ← openMember (memberNotFound member)
  touch
  ensureNamespaceSafe
  finishMemberMutation (memberEntryPath member kid.text) "was removed"
    (removeKeyLocked member kid validate)

/-! ### Publication -/

/-- The names one publication draws. -/
structure PublicationNames where
  /-- the directory the documents are staged in -/
  staging : Uuid
  /-- the directory that one is staged as -/
  child : Uuid
  privateFile : Uuid
  publicFile : Uuid

def uniqueStagingDirName (uuid : Uuid) : String := ".tmp-" ++ uuid.text

def unsyncedPublishedDirError (path : String) (error : Error) : Error :=
  .io (s!"Directory {path} was written, but its directory entry was not persisted, so a crash " ++
    s!"before the next sync could lose it: {formatUserMessage error}")

/-- Make a directory under a new name: staged, then renamed. -/
def saveChildDirRestrictedAt (name staging : String) : Change Unit := do
  (memberCalls member).createEntry staging (memberCalls member).empty "directory"
  (do
    touch
    touch
    (memberCalls member).renameNoreplace staging name
    mapError (unsyncedPublishedDirError (memberEntryPath member name)) touch).handle fun
      | .ok () => pure ()
      | .error e => do
        ignoring (removeEmptyChildDirIfExistsAt member staging)
        done (.error e)

/-- Remove what was staged; every entry is tried, and the first failure is told. -/
def cleanupEntries (child : String) : Option Error → KeyDirectory → Change (Option Error)
  | failure, [] => done (.ok failure)
  | failure, (name, entry) :: rest =>
    (removeChildEntry member child name entry.childType).handle fun
      | .ok () => cleanupEntries child failure rest
      | .error e => cleanupEntries child (failure <|> some e) rest

def cleanupTempKeyDir (tempName : String) : Change Unit := do
  let entries ← observe fun s => .ok ((childCalls member tempName).view s)
  match ← cleanupEntries member tempName none entries with
  | some e => done (.error e)
  | none => removeEmptyChildDirIfExistsAt member tempName

def stagingResidueError (tempName : String) (error cleanup : Error) : Error :=
  .io (s!"{formatUserMessage error}. A key staging directory was left behind at " ++
    s!"{memberEntryPath member tempName} and should be inspected and removed: " ++
    formatUserMessage cleanup)

/-- A document as it is written. -/
def renderDocument (document : Json) : Bytes :=
  utf8 (String.ofList (textAt true 0 document))

def saveKeyPairFiles (tempName : String) (privateKey : PrivateKey) (publicKey : PublicKey)
    (names : PublicationNames) : Change Unit := do
  (childCalls member tempName).saveTextRestrictedAt privateKeyFile
    (renderDocument privateKey.toJson) names.privateFile
  (childCalls member tempName).saveTextRestrictedAt publicKeyFile
    (renderDocument publicKey.toJson) names.publicFile

/-- Write both documents into the staged directory and rename it into place. -/
def publishStagedKeyPair (kid : Kid) (privateKey : PrivateKey) (publicKey : PublicKey)
    (names : PublicationNames) : Change Unit := do
  saveKeyPairFiles member (uniqueStagingDirName names.staging) privateKey publicKey names
  (memberCalls member).renameNoreplace (uniqueStagingDirName names.staging) kid.text

def unsyncedKeyPairError (kid : Kid) (error : Error) : Error :=
  .io (s!"Key pair {memberEntryPath member kid.text} was written, but its directory entry was " ++
    s!"not persisted, so a crash before the next sync could lose it: {formatUserMessage error}")

def publishKeyPairAtomic (kid : Kid) (privateKey : PrivateKey) (publicKey : PublicKey)
    (names : PublicationNames) : Change Unit := do
  ensure (ensureDocumentStatesStoredIdentity privateKey.protect.subjectHandle
    privateKey.protect.kid member kid (keyEntryPath member kid privateKeyFile))
  ensure (ensureDocumentStatesStoredIdentity publicKey.protect.subjectHandle
    publicKey.protect.kid member kid (keyEntryPath member kid publicKeyFile))
  saveChildDirRestrictedAt member (uniqueStagingDirName names.staging)
    (uniqueStagingDirName names.child)
  (publishStagedKeyPair member kid privateKey publicKey names).handle fun
    -- the pair is in place; only the sync of its directory can still fail
    | .ok () => mapError (unsyncedKeyPairError member kid) touch
    | .error e =>
      -- nothing was renamed: drop what was staged and report the first error
      (cleanupTempKeyDir member (uniqueStagingDirName names.staging)).handle fun
        | .ok () => done (.error e)
        | .error cleanup =>
          done (.error (stagingResidueError member (uniqueStagingDirName names.staging) e cleanup))

/-- Store a key pair under its kid. -/
def saveKeyPairAtomic (kid : Kid) (privateKey : PrivateKey) (publicKey : PublicKey)
    (names : PublicationNames) : Change Unit := do
  ensureMember
  ensureNamespaceSafe
  finishMemberMutation (memberEntryPath member kid.text) "was written"
    (publishKeyPairAtomic member kid privateKey publicKey names)

/-! ### Any of them -/

/-- An operation on the keys of the member, with the time and the names it is given. -/
inductive KeystoreOperation where
  | publish (kid : Kid) (privateKey : PrivateKey) (publicKey : PublicKey) (names : PublicationNames)
  | activate (kid : Kid) (now : Int) (uuid : Uuid)
  | activateLatest (now : Int) (uuid : Uuid)
  | remove (kid : Kid) (validate : Bool → Except Error Unit)

def program : KeystoreOperation → Change Unit
  | .publish kid privateKey publicKey names =>
    saveKeyPairAtomic member kid privateKey publicKey names
  | .activate kid now uuid => activateExistingKey P member kid now uuid
  | .activateLatest now uuid => do
    let _ ← activateLatestValidKey P member now uuid
    pure ()
  | .remove kid validate => do
    let _ ← removeKeyWithValidation member kid validate
    pure ()

end Operations

end KeystoreChanges
