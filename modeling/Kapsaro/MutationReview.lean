import Kapsaro.KvWriteLimits
import Kapsaro.MemberStore
import Kapsaro.SharedPrograms
import Kapsaro.TrustTransaction

/-!
# Mutation review — what a kv mutation was planned on, and the checks that it still stands

A kv mutation is planned on a target file, the active members and a trust store, all of which others
may change until it is committed.  The code is `service/kv/mutation/snapshot.rs`,
`service/artifact/review.rs`, `support/fs/snapshot.rs` and `service/trust/snapshot/`.

* **`Shared`** — the files of other writers: the target, the members, the trust directory.
* **`ReviewedText`** — the reviewed target, held open; **`ensureIdentityAndContentCurrent`** — the
  name leads to it, and it has its bytes.
* **`WorkspaceMemberSnapshot`** — the active members, verified as recipients.
* **`TrustCommandSession`** — a command's trust directory is fixed when it is first opened;
  **`loadSessionVerifiedTrustStore`** — the store in it, none while there is no directory.
* **`MutationReviewSnapshot`** — all of it, and the checks against it.
* **`TargetIs`**, **`MembersAre`** — what a passed check says of the state it looked at.
-/

namespace MutationReview

open JsonText JsonMembers JsonLimits Limits TextLines Base64Codec WireTexts WireModel
open DocumentTokens Envelope SignedArtifacts KeyedList TrustRecords TrustStore TrustSoundness
open TrustApprovals TrustDocument TrustTransaction TrustJudgment TrustPolicy MemberStore KvMutation
open StepPrograms Steps

/-! ## Equality of trust stores -/

mutual

/-- Whether two JSON values are the same. -/
def sameJson : Json → Json → Bool
  | .null, .null => true
  | .bool a, .bool b => a == b
  | .num a, .num b => a == b
  | .str a, .str b => a == b
  | .arr as, .arr bs => sameItems as bs
  | .obj as, .obj bs => sameMembers as bs
  | _, _ => false

def sameItems : List Json → List Json → Bool
  | [], [] => true
  | a :: as, b :: bs => sameJson a b && sameItems as bs
  | _, _ => false

def sameMembers : List (String × Json) → List (String × Json) → Bool
  | [], [] => true
  | (x, a) :: as, (y, b) :: bs => x == y && sameJson a b && sameMembers as bs
  | _, _ => false

end

mutual

theorem sameJson_iff (a b : Json) : sameJson a b = true ↔ a = b := by
  cases a with
  | arr as =>
    cases b <;> simp [sameJson]
    exact sameItems_iff as _
  | obj as =>
    cases b <;> simp [sameJson]
    exact sameMembers_iff as _
  | _ => cases b <;> simp [sameJson]

theorem sameItems_iff (as bs : List Json) : sameItems as bs = true ↔ as = bs := by
  cases as with
  | nil => cases bs <;> simp [sameItems]
  | cons a as =>
    cases bs with
    | nil => simp [sameItems]
    | cons b bs =>
      rw [sameItems, Bool.and_eq_true, sameJson_iff a b, sameItems_iff as bs, List.cons.injEq]

theorem sameMembers_iff (as bs : List (String × Json)) : sameMembers as bs = true ↔ as = bs := by
  cases as with
  | nil => cases bs <;> simp [sameMembers]
  | cons a as =>
    obtain ⟨x, a⟩ := a
    cases bs with
    | nil => simp [sameMembers]
    | cons b bs =>
      obtain ⟨y, b⟩ := b
      rw [sameMembers, Bool.and_eq_true, Bool.and_eq_true, beq_iff_eq, sameJson_iff a b,
        sameMembers_iff as bs, List.cons.injEq, Prod.mk.injEq]

end

instance : DecidableEq Json := fun a b => decidable_of_iff _ (sameJson_iff a b)

deriving instance DecidableEq for KnownKey
deriving instance DecidableEq for TrustStoreProtected

/-! ## What others change -/

structure FileMetadata where
  mode : Nat
  links : Nat
  owner : Nat
  group : Nat
  length : Nat
  modifiedSeconds : Int
  modifiedNanoseconds : Int
  changedSeconds : Int
  changedNanoseconds : Int
deriving DecidableEq, Repr

/-- What stands behind an entry; no bytes for a link, a directory or a device. -/
structure FileNode where
  metadata : FileMetadata
  bytes : Option Bytes

/-- The files a mutation shares with other writers.  Files and directories are known by device and
    inode. -/
structure Shared where
  /-- what the name of the target leads to in the secrets directory -/
  entry : Option Nat
  files : Nat → FileNode
  members : Members
  /-- what the name of the trust directory leads to in the local state -/
  trustEntry : Option Nat
  /-- the owner's store in a trust directory -/
  trustStores : Nat → Option Bytes

/-- The target, for a reader of it. -/
def targetOf (w : Shared) : Option Nat × (Nat → FileNode) :=
  (w.entry, w.files)

/-! ## The target -/

/-- A kv file, as the command addresses it. -/
structure KvFileTarget where
  path : String
  relativePath : String
  readLimit : Nat

def kvFileSubjectLabel : String := "KV file"

def KvFileTarget.subjectDisplay (target : KvFileTarget) : String :=
  s!"{kvFileSubjectLabel} '{target.path}'"

/-- The file that was reviewed, held open. -/
structure ReviewedText where
  identity : Nat
  metadata : FileMetadata
  content : String

def reviewChangedError (subjectDisplay : String) : Error :=
  .invalidOperation s!"{subjectDisplay} changed since review and must be reviewed again."

/-- Open the target; it has to be a regular file. -/
def openRegularFile (target : KvFileTarget) (w : Shared) :
    Except Error (Nat × FileMetadata × Bytes) :=
  match w.entry with
  | none => .error (.notFound s!"File not found: {target.relativePath}")
  | some inode =>
    match (w.files inode).bytes with
    | none => .error
        (.invalidOperation s!"refusing to read non-regular file: {target.relativePath}")
    | some bytes => .ok (inode, (w.files inode).metadata, bytes)

/-- Open the target and read it under its limit. -/
def loadReviewedText (target : KvFileTarget) (w : Shared) : Except Error ReviewedText := do
  let (inode, metadata, bytes) ← openRegularFile target w
  let bytes ← loadCappedBytes target.readLimit kvFileSubjectLabel target.relativePath bytes
  let content ← decodeLoadedText target.relativePath bytes
  pure ⟨inode, metadata, content⟩

/-- Capture the target, or its absence. -/
def captureOptional (target : KvFileTarget) (w : Shared) : Except Error (Option ReviewedText) :=
  match w.entry with
  | none => .ok none
  | some _ => (loadReviewedText target w).map some

/-- A target that is gone or is no regular file has changed; a failed read leaves that open. -/
def buildReviewComparisonError (target : KvFileTarget) (w : Shared) (error : Error) : Error :=
  match w.entry, error with
  | none, _ => reviewChangedError target.subjectDisplay
  | some _, .notFound _ => reviewChangedError target.subjectDisplay
  | some _, .invalidOperation _ => reviewChangedError target.subjectDisplay
  | some _, error => .io (s!"{target.subjectDisplay} could not be compared with the state that " ++
      s!"was reviewed: {formatUserMessage error}")

/-- Compare the bytes that stand under the name with the reviewed text. -/
def ensureTextFileContentMatches (target : KvFileTarget) (reviewedContent : Option String)
    (w : Shared) : Except Error Unit :=
  match reviewedContent with
  | some content =>
    match loadReviewedText target w with
    | .error e => .error (buildReviewComparisonError target w e)
    | .ok current =>
      if current.content = content then .ok ()
      else .error (reviewChangedError target.subjectDisplay)
  | none =>
    if w.entry.isNone then .ok () else .error (reviewChangedError target.subjectDisplay)

/-- Whether the name leads to the file that is held; an absence has none. -/
def stillHolds (target : KvFileTarget) (reviewed : Option ReviewedText) (w : Shared) :
    Except Error Bool :=
  match reviewed with
  | none => .ok true
  | some reviewed =>
    match w.entry with
    | none => .ok false
    | some _ => do
      let (inode, _, bytes) ← openRegularFile target w
      let _ ← loadCappedBytes maxJsonDocumentReadSize "Reviewed document" target.relativePath bytes
      pure (decide (reviewed.identity = inode))

def ensureIdentityAndContentCurrent (target : KvFileTarget) (reviewed : Option ReviewedText)
    (w : Shared) : Except Error Unit := do
  ensureTextFileContentMatches target (reviewed.map ReviewedText.content) w
  let holds ← stillHolds target reviewed w
  if holds then pure () else throw (reviewChangedError target.subjectDisplay)

/-- Whether the file is what it was: identity, metadata and bytes. -/
def stillCurrent (target : KvFileTarget) (reviewed : Option ReviewedText) (w : Shared) :
    Except Error Bool :=
  match reviewed with
  | none => .ok w.entry.isNone
  | some reviewed =>
    if reviewed.metadata ≠ (w.files reviewed.identity).metadata then .ok false
    else do
      match ← captureOptional target w with
      | none => pure false
      | some current => pure (decide (reviewed.identity = current.identity
          ∧ reviewed.metadata = current.metadata ∧ reviewed.content = current.content))

def ensureFileMatches (target : KvFileTarget) (reviewed : Option ReviewedText) (w : Shared) :
    Except Error Unit := do
  let current ← stillCurrent target reviewed w
  if current then pure () else throw (reviewChangedError target.subjectDisplay)

/-! ## The members -/

/-- The expiry checks of a command, against the clock and its options. Each also refuses a key whose
    expiry is no time. -/
structure ExpiryClock where
  /-- the signer of a verified artifact -/
  signer : PublicKey → Except Error Unit
  /-- a member that is wrapped for -/
  recipient : PublicKey → Except Error Unit
  /-- the local key a document is opened with -/
  decryptionKey : Kid → Except Error Unit

/-- A member document that was read; the schema lets no other key through. -/
def loadedPublicKey (key : PublicKey) : Except Error LoadedPublicKey :=
  if h : key.wellFormed = true then .ok ⟨key, h⟩
  else .error (.schema "PublicKey does not conform to its schema")

def handleOfLoaded (key : LoadedPublicKey) : String :=
  key.document.protect.subjectHandle

/-- The active member documents, by handle. -/
def loadActiveMemberFiles (s : Members) : Except Error (List LoadedPublicKey) := do
  let members ← (loadMemberDocumentNamesAt (s.dir .active)).mapM fun name => do
    let key ← loadVerifiedMemberFileAt s .active name
    loadedPublicKey key
  pure (sortBy handleOfLoaded members)

/-- The active members of a workspace, verified as recipients. -/
structure WorkspaceMemberSnapshot where
  activeMembers : List LoadedPublicKey
  activeMembersByKid : CurrentMemberSnapshot
  memberHandles : List String
  verifiedRecipients : List VerifiedRecipientKey

section Members

variable (C : Crypto) (clock : ExpiryClock)

def verifyRecipientPublicKeys (keys : List LoadedPublicKey) :
    Except Error (List VerifiedRecipientKey) :=
  keys.mapM fun key => do
    let _ ← verifyPublicKeyWithAttestation C key.document
    clock.recipient key.document
    pure ⟨key⟩

namespace WorkspaceMemberSnapshot

def fromActiveMembers (activeMembers : List LoadedPublicKey) :
    Except Error WorkspaceMemberSnapshot := do
  let activeMembersByKid ← buildActiveMembersByKid activeMembers
  let verifiedRecipients ← verifyRecipientPublicKeys C clock activeMembers
  pure ⟨activeMembers, activeMembersByKid, sortBy id (activeMembers.map handleOfLoaded),
    verifiedRecipients⟩

/-- A workspace without an active member has nobody to write for. -/
def loadAt (s : Members) : Except Error WorkspaceMemberSnapshot := do
  let activeMembers ← loadActiveMemberFiles s
  if activeMembers.isEmpty then throw (.notFound "No active members found in workspace")
  fromActiveMembers C clock activeMembers

def matchesActiveMembers (current other : WorkspaceMemberSnapshot) : Bool :=
  decide (current.activeMembersByKid = other.activeMembersByKid)

end WorkspaceMemberSnapshot

def ensureWorkspaceMembersMatchSnapshot (reviewed : WorkspaceMemberSnapshot)
    (mismatchMessage : String) (w : Shared) : Except Error Unit := do
  let current ← WorkspaceMemberSnapshot.loadAt C clock w.members
  if current.matchesActiveMembers reviewed then pure ()
  else throw (.invalidOperation mismatchMessage)

end Members

/-! ## The trust store -/

/-- What a command fixed of the local state: the signing key, the owner, the keystore, and the trust
    directory once it was opened. -/
structure TrustCommandSession where
  keyCtx : KeyContext
  owner : MemberHandle
  path : TrustStorePath
  keystore : KeystoreAccess
  trustDir : Option Nat

/-- A store that was read and verified. -/
structure VerifiedLocalTrustStore where
  protect : TrustStoreProtected
  rawBytes : Bytes
  signerKid : Option Kid

section Trust

variable (C : Crypto) (P : TextParsers)

/-- Read and verify the store in a file. -/
def verifyStoredTrustStoreAt (session : TrustCommandSession) (file : Option Bytes) :
    Except Error (Option VerifiedLocalTrustStore) := do
  match ← loadTrustStoreAt session.path file with
  | none => pure none
  | some loaded =>
    let signerKid := documentSignerKid loaded.document
    let signerKeys ← loadSignerKeySnapshot session.keystore session.owner signerKid
    let state ← verifyStoredTrustStore C (P := P) loaded signerKeys
    pure (some ⟨state.protect, loaded.rawBytes, signerKid⟩)

/-- The store of the session's trust directory; a session without one has no store to read. -/
def loadSessionVerifiedTrustStore (session : TrustCommandSession) (w : Shared) :
    Except Error (Option VerifiedLocalTrustStore) :=
  match session.trustDir with
  | none => .ok none
  | some dir =>
    (verifyStoredTrustStoreAt C P session (w.trustStores dir)).mapError
      (attachTrustStoreRecovery session.path)

def kvTrustStoreChangedMessage : String :=
  "KV trust store changed since review and must be reviewed again."

/-- The content of the store is the one that was loaded before. -/
def ensureTrustStoreCurrent (session : TrustCommandSession) (reviewed : Option TrustStoreProtected)
    (w : Shared) : Except Error Unit := do
  let current ← loadSessionVerifiedTrustStore C P session w
  if current.map VerifiedLocalTrustStore.protect = reviewed then pure ()
  else throw (.invalidOperation kvTrustStoreChangedMessage)

end Trust

/-- The trust state a command was planned on. -/
structure TrustContext where
  knownKeys : List KnownKey
  recipientSets : List RecipientSetRecord
  activeMembersByKid : CurrentMemberSnapshot
  reviewAvailable : Bool

/-- The records a store holds; none without a store. -/
def ensureTrustContextMatches (protect : Option TrustStoreProtected) (context : TrustContext) :
    Except Error Unit :=
  if (protect.map TrustStoreProtected.knownKeys).getD [] = context.knownKeys
      ∧ (protect.map TrustStoreProtected.recipientSets).getD [] = context.recipientSets then .ok ()
  else .error (.invalidOperation kvTrustStoreChangedMessage)

/-! ## The snapshot -/

/-- What a mutation was reviewed on. -/
structure MutationReviewSnapshot where
  target : KvFileTarget
  fileSnapshot : Option ReviewedText
  members : WorkspaceMemberSnapshot
  recipients : KvRecipientSnapshot
  trustStore : Option TrustStoreProtected

namespace MutationReviewSnapshot

def existingContent (review : MutationReviewSnapshot) : Option String :=
  review.fileSnapshot.map ReviewedText.content

def membersChangedMessage : String :=
  "KV active members changed since review and must be reviewed again."

section Checks

variable (C : Crypto) (P : TextParsers) (clock : ExpiryClock)

/-- Capture the target and the trust store; the members were read before. -/
def build (target : KvFileTarget) (workspaceMembers : WorkspaceMemberSnapshot)
    (session : TrustCommandSession) (trustContext : TrustContext) (allowMissing : Bool) :
    Steps Shared Error MutationReviewSnapshot := do
  let fileSnapshot ← read (captureOptional target)
  if fileSnapshot.isNone && !allowMissing then
    lift (.error (.config none s!"File not found: {target.path}"))
  let loaded ← read (loadSessionVerifiedTrustStore C P session)
  let protect := loaded.map VerifiedLocalTrustStore.protect
  lift (ensureTrustContextMatches protect trustContext)
  pure { target, fileSnapshot, members := workspaceMembers, trustStore := protect
         recipients := ⟨workspaceMembers.memberHandles, workspaceMembers.verifiedRecipients⟩ }

def ensureMembersMatch (review : MutationReviewSnapshot) (w : Shared) : Except Error Unit :=
  ensureWorkspaceMembersMatchSnapshot C clock review.members membersChangedMessage w

/-- Everything is as it was reviewed. -/
def ensureCurrent (review : MutationReviewSnapshot) (session : TrustCommandSession) :
    Steps Shared Error Unit := do
  read (review.ensureMembersMatch C clock)
  read (ensureFileMatches review.target review.fileSnapshot)
  read (ensureTrustStoreCurrent C P session review.trustStore)

/-- The members and the target are the reviewed ones. -/
def ensureTargetCurrentAt (review : MutationReviewSnapshot) (w : Shared) : Except Error Unit := do
  review.ensureMembersMatch C clock w
  ensureIdentityAndContentCurrent review.target review.fileSnapshot w

end Checks

end MutationReviewSnapshot

/-! ## What a passed check says -/

/-- The target is the reviewed one: its file with its bytes, or nothing. -/
def TargetIs (reviewed : Option ReviewedText) (w : Shared) : Prop :=
  match reviewed with
  | none => w.entry = none
  | some reviewed => w.entry = some reviewed.identity
      ∧ (w.files reviewed.identity).bytes = some (utf8 reviewed.content)

/-- The active members are the reviewed ones. -/
def MembersAre (C : Crypto) (clock : ExpiryClock) (reviewed : WorkspaceMemberSnapshot)
    (w : Shared) : Prop :=
  ∃ current, WorkspaceMemberSnapshot.loadAt C clock w.members = .ok current
    ∧ current.activeMembersByKid = reviewed.activeMembersByKid

theorem openRegularFile_ok {target : KvFileTarget} {w : Shared} {inode : Nat}
    {metadata : FileMetadata} {bytes : Bytes}
    (h : openRegularFile target w = .ok (inode, metadata, bytes)) :
    w.entry = some inode ∧ (w.files inode).metadata = metadata
      ∧ (w.files inode).bytes = some bytes := by
  rw [openRegularFile] at h
  cases hentry : w.entry with
  | none => rw [hentry] at h; cases h
  | some found =>
    rw [hentry] at h
    dsimp only at h
    cases hbytes : (w.files found).bytes with
    | none => rw [hbytes] at h; cases h
    | some foundBytes =>
      rw [hbytes] at h
      obtain ⟨rfl, hrest⟩ := Prod.mk.inj (Except.ok.inj h)
      obtain ⟨rfl, rfl⟩ := Prod.mk.inj hrest
      exact ⟨rfl, rfl, hbytes⟩

/-- What a read of the target gives is what stands there. -/
theorem loadReviewedText_ok {target : KvFileTarget} {w : Shared} {reviewed : ReviewedText}
    (h : loadReviewedText target w = .ok reviewed) : TargetIs (some reviewed) w := by
  obtain ⟨⟨inode, metadata, bytes⟩, hopen, h⟩ := bind_eq_ok.mp h
  obtain ⟨capped, hcapped, h⟩ := bind_eq_ok.mp h
  obtain ⟨content, hcontent, h⟩ := bind_eq_ok.mp h
  obtain rfl := Except.ok.inj h
  obtain ⟨hentry, _, hbytes⟩ := openRegularFile_ok hopen
  refine ⟨hentry, ?_⟩
  rw [loadCappedBytes] at hcapped
  split at hcapped
  · obtain rfl := Except.ok.inj hcapped
    rw [decodeLoadedText] at hcontent
    cases hdecode : utf8Decode bytes with
    | none => rw [hdecode] at hcontent; cases hcontent
    | some text =>
      rw [hdecode] at hcontent
      obtain rfl := Except.ok.inj hcontent
      rw [utf8_of_utf8Decode hdecode]
      exact hbytes
  · cases hcapped

/-- **WHAT A MUTATION CAPTURES IS WHAT STANDS THERE**. -/
theorem captureOptional_ok {target : KvFileTarget} {w : Shared} {reviewed : Option ReviewedText}
    (h : captureOptional target w = .ok reviewed) : TargetIs reviewed w := by
  rw [captureOptional] at h
  cases hentry : w.entry with
  | none =>
    rw [hentry] at h
    obtain rfl := Except.ok.inj h
    exact hentry
  | some inode =>
    rw [hentry] at h
    obtain ⟨text, htext, rfl⟩ := map_eq_ok.mp h
    exact loadReviewedText_ok htext

/-- **A PASSED CHECK OF THE TARGET**: the name leads to the reviewed file, which has its bytes. -/
theorem targetIs_of_current {target : KvFileTarget} {reviewed : Option ReviewedText} {w : Shared}
    (h : ensureIdentityAndContentCurrent target reviewed w = .ok ()) : TargetIs reviewed w := by
  obtain ⟨⟨⟩, hcontent, h⟩ := bind_eq_ok.mp h
  obtain ⟨holds, hholds, h⟩ := bind_eq_ok.mp h
  cases holds with
  | false => cases h
  | true =>
    cases reviewed with
    | none =>
      rw [Option.map_none, ensureTextFileContentMatches] at hcontent
      split at hcontent
      · rename_i habsent
        exact Option.isNone_iff_eq_none.mp habsent
      · cases hcontent
    | some reviewed =>
      rw [Option.map_some, ensureTextFileContentMatches] at hcontent
      cases hload : loadReviewedText target w with
      | error e => rw [hload] at hcontent; cases hcontent
      | ok current =>
        rw [hload] at hcontent
        dsimp only at hcontent
        split at hcontent
        · rename_i hsame
          obtain ⟨hentry, hbytes⟩ := loadReviewedText_ok hload
          rw [stillHolds, hentry] at hholds
          obtain ⟨⟨inode, metadata, bytes⟩, hopen, hholds⟩ := bind_eq_ok.mp hholds
          obtain ⟨_, _, hholds⟩ := bind_eq_ok.mp hholds
          have hidentity : reviewed.identity = inode :=
            of_decide_eq_true (Except.ok.inj hholds)
          -- both looks were at the same state, so both found the same entry
          have hinode : inode = current.identity :=
            Option.some.inj ((openRegularFile_ok hopen).1.symm.trans hentry)
          rw [TargetIs, hidentity, hinode, ← hsame]
          exact ⟨hentry, hbytes⟩
        · cases hcontent

theorem membersAre_of_match {C : Crypto} {clock : ExpiryClock} {review : MutationReviewSnapshot}
    {w : Shared} (h : review.ensureMembersMatch C clock w = .ok ()) :
    MembersAre C clock review.members w := by
  obtain ⟨current, hload, h⟩ := bind_eq_ok.mp h
  cases hmatches : current.matchesActiveMembers review.members with
  | false => rw [hmatches] at h; cases h
  | true => exact ⟨current, hload, of_decide_eq_true hmatches⟩

/-- **A PASSED CHECK BEFORE THE RENAME**: members and target are the reviewed ones. -/
theorem reviewed_of_targetCurrent {C : Crypto} {clock : ExpiryClock}
    {review : MutationReviewSnapshot} {w : Shared}
    (h : review.ensureTargetCurrentAt C clock w = .ok ()) :
    MembersAre C clock review.members w ∧ TargetIs review.fileSnapshot w := by
  obtain ⟨⟨⟩, hmembers, hfile⟩ := bind_eq_ok.mp h
  exact ⟨membersAre_of_match hmembers, targetIs_of_current hfile⟩

theorem protect_of_trustStoreCurrent {C : Crypto} {P : TextParsers} {session : TrustCommandSession}
    {reviewed : Option TrustStoreProtected} {w : Shared}
    (h : ensureTrustStoreCurrent C P session reviewed w = .ok ()) :
    ∃ current, loadSessionVerifiedTrustStore C P session w = .ok current
      ∧ current.map VerifiedLocalTrustStore.protect = reviewed := by
  obtain ⟨current, hload, h⟩ := bind_eq_ok.mp h
  by_cases hsame : current.map VerifiedLocalTrustStore.protect = reviewed
  · exact ⟨current, hload, hsame⟩
  · rw [if_neg hsame] at h
    cases h

end MutationReview
