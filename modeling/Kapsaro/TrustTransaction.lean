import Kapsaro.TrustDocument

/-!
# Trust transaction — one attempt to commit an edit of the trust store

An edit of the local trust store is bound to an observation: the bytes of the file and the key
their signature names. The commit takes the exclusive lock, reads the file again, and runs the
edit only on the content it is bound to. The code is `service/trust/transaction.rs`,
`service/trust/persistence.rs` and `feature/trust/store_mutation.rs`.

* **`TrustStorePreparation`** — what a commit is bound to.
* **`resolveLockedTrustStoreContent`** — what the lock found: content to edit, content that moved,
  content no commit can run against.
* **`commitBoundTrustStoreMutation`** — one attempt; an edit the lock refuses is handed back.
* **`admittedState`** — the content an attempt runs its edit on; **`commitBound_refused`**,
  **`commitBound_ran`**, **`commitBound_moved`** say everything an attempt can do.
* **`mutate_edited`**, **`Retains`** — what the edits do to the content.
-/

namespace TrustTransaction

open JsonText JsonMembers JsonLimits Limits TextLines Base64Codec WireTexts WireModel
open DocumentTokens Envelope SignedArtifacts KeyedList TrustRecords TrustStore TrustSoundness
open TrustApprovals TrustDocument

/-! ## Errors -/

/-- The failure is a statement about the content that was read. -/
def isContentFailure : Error → Bool
  | .schema _ | .crypto _ | .verify _ _ | .parse _ | .invalidArgument _ => true
  | _ => false

/-- The message of an error, without its kind. -/
def formatUserMessage : Error → String
  | .schema message | .crypto message | .verify _ message | .io message | .parse message
  | .config _ message | .notFound message | .invalidArgument message
  | .invalidOperation message => message

/-- The same failure under another message. -/
def withMessage (message : String) : Error → Error
  | .schema _ => .schema message
  | .crypto _ => .crypto message
  | .verify rule _ => .verify rule message
  | .io _ => .io message
  | .parse _ => .parse message
  | .config rule _ => .config rule message
  | .notFound _ => .notFound message
  | .invalidArgument _ => .invalidArgument message
  | .invalidOperation _ => .invalidOperation message

def buildTrustStoreConflictError : Error :=
  .invalidOperation
    "Local trust store changed since this command read it. Run the command again."

def buildTrustStoreNotFoundError (ownerHandle : String) : Error :=
  .notFound s!"Trust store not found for '{ownerHandle}'"

/-- Say that a store whose content failed has to be reset. -/
def attachTrustStoreRecovery (path : TrustStorePath) (error : Error) : Error :=
  if isContentFailure error then
    withMessage (s!"Local trust store '{path.display}' is invalid and must be reset: " ++
      formatUserMessage error) error
  else error

/-! ## What a commit is bound to -/

/-- The keystore as one observation finds it. -/
structure KeystoreAccess where
  root : String
  loadOptionalPublicKey : MemberHandle → Kid → Except Error (Option PublicKey)

def buildUnusableSignerKeyError (keystoreRoot : String) (owner : MemberHandle) (kid : Kid)
    (cause : Error) : Error :=
  withMessage (s!"Trust store signer key '{kid.text}' for member '{owner.text}' could not be " ++
    s!"read, so the stored approvals cannot be verified: {formatUserMessage cause}. " ++
    buildSignerKeyRecoveryHint keystoreRoot owner kid) cause

/-- Read the key a kid names. -/
def loadSignerKeySnapshot (keystore : KeystoreAccess) (owner : MemberHandle) (kid : Option Kid) :
    Except Error SignerKeySnapshot :=
  match kid with
  | none => .ok ⟨owner, keystore.root, none⟩
  | some kid =>
    match keystore.loadOptionalPublicKey owner kid with
    | .ok key => .ok ⟨owner, keystore.root, key.map fun key => (kid, key)⟩
    | .error e =>
      .error (if isContentFailure e then
        buildUnusableSignerKeyError keystore.root owner kid e else e)

/-- The file as a commit is bound to it, and the key that verifies it. -/
structure TrustStorePreparation where
  snapshot : Option Bytes
  signerKeys : SignerKeySnapshot

/-- The bytes of what was loaded. -/
def snapshotFromLoaded (loaded : Option TrustStoreLoadResult) : Option Bytes :=
  loaded.map TrustStoreLoadResult.rawBytes

/-- Observe the store: its bytes, then the key their signature names. -/
def TrustStorePreparation.observe (keystore : KeystoreAccess) (owner : MemberHandle)
    (loaded : Except Error (Option TrustStoreLoadResult)) :
    Except Error TrustStorePreparation := do
  let loaded ← loaded
  let signerKid := loaded.bind fun found => documentSignerKid found.document
  let signerKeys ← loadSignerKeySnapshot keystore owner signerKid
  pure ⟨snapshotFromLoaded loaded, signerKeys⟩

inductive TrustStoreMutationMode where
  | existingRequired
  | createIfMissing
deriving DecidableEq, Repr

/-- What a commit makes of content it is not bound to. -/
inductive TrustStoreCommitGate where
  /-- the bytes have to be the reviewed ones -/
  | reviewedContent
  /-- what is stored is observed again and merged into -/
  | latestContent
deriving DecidableEq, Repr

/-- What an edit writes through. -/
structure TrustStoreMutationTarget where
  path : TrustStorePath
  owner : MemberHandle
  mode : TrustStoreMutationMode
  signing : SigningContext

/-- How an edit reached the stored document. -/
structure TrustStoreMutationOutcome where
  write : TrustStoreWrite
  signerKid : String
deriving DecidableEq, Repr

/-! ## One attempt -/

/-- What one attempt came back with. -/
inductive TrustStoreCommitAttempt (P : TextParsers) where
  | committed (outcome : TrustStoreMutationOutcome)
  /-- the content had moved; the edit comes back unused -/
  | stale (unused : StoreOperation P)
  | unusable (error : Error)

/-- What the lock found. -/
inductive TrustStoreContentSnapshot where
  | usable (state : TrustStoreState)
  | moved
  | unusable (error : Error)

/-- What the world does to one attempt: the lock, the read or the write may fail before the file is
    touched, and the clock has a time. -/
structure LockWindow (P : TextParsers) where
  lockFault : Option Error
  readFault : Option Error
  saveFault : Option Error
  now : CurrentTime P

/-- Nothing fails on its own. -/
def LockWindow.Calm {P : TextParsers} (window : LockWindow P) : Prop :=
  window.lockFault = none ∧ window.readFault = none

section Attempt

variable (C : Crypto) {P : TextParsers}

/-- The file as it is read; the read may fail. -/
def loadUnderFault (fault : Option Error) (path : TrustStorePath) (file : Option Bytes) :
    Except Error (Option TrustStoreLoadResult) :=
  match fault with
  | some e => .error e
  | none => loadTrustStoreAt path file

/-- A failure that reads the stored bytes is content no commit can run against; any other failure
    travels as itself. -/
def evaluateLockedFailure (error : Error) : Except Error TrustStoreContentSnapshot :=
  if isContentFailure error then .ok (.unusable error) else .error error

def verifyStoredTrustStore (loaded : TrustStoreLoadResult) (signerKeys : SignerKeySnapshot) :
    Except Error TrustStoreState := do
  let doc ← verifyTrustStore C P loaded.document signerKeys
  let signerKid ← Kid.fromCanonical doc.signature.kid
  pure ⟨doc.protect, some signerKid⟩

/-- The content the edit runs on. -/
def buildTrustStoreForCommit (target : TrustStoreMutationTarget)
    (prepared : TrustStorePreparation) (now : CurrentTime P) :
    Option TrustStoreLoadResult → Except Error TrustStoreContentSnapshot
  | some loaded =>
    match verifyStoredTrustStore C (P := P) loaded prepared.signerKeys with
    | .ok state => .ok (.usable state)
    | .error e => evaluateLockedFailure e
  | none =>
    match target.mode with
    | .createIfMissing => .ok (.usable (buildEmptyTrustStore target.owner now))
    | .existingRequired => .error (buildTrustStoreNotFoundError target.owner.text)

/-- Read what the lock settled on. -/
def resolveLockedTrustStoreContent (target : TrustStoreMutationTarget)
    (prepared : TrustStorePreparation) (now : CurrentTime P)
    (loaded : Except Error (Option TrustStoreLoadResult)) :
    Except Error TrustStoreContentSnapshot :=
  match loaded with
  | .error e => evaluateLockedFailure e
  | .ok loaded =>
    if snapshotFromLoaded loaded ≠ prepared.snapshot then .ok .moved
    else buildTrustStoreForCommit C target prepared now loaded

/-- Run the edit and sign its result; the document is `none` when nothing is to be written. -/
def applyAndSaveTrustStore (target : TrustStoreMutationTarget) (state : TrustStoreState)
    (now : CurrentTime P) (mutate : StoreOperation P) :
    Except Error (TrustStoreMutationOutcome × Option TrustStoreDocument) := do
  let (changed, protect) ← mutate.mutate C target.owner state.protect
  let write := judgeTrustStoreWrite changed (state.signerKid.map Kid.text)
    target.signing.signerKid.text
  let document ← saveTrustStoreForWrite C protect target.signing now write
  pure (⟨write, target.signing.signerKid.text⟩, document)

/-- Put a document into the file. -/
def saveTrustStoreAt (saveFault : Option Error) (document : Option TrustStoreDocument)
    (file : Option Bytes) : Except Error (Option Bytes) :=
  match document, saveFault with
  | none, _ => .ok file
  | some _, some e => .error e
  | some document, none => .ok (some (renderTrustStore document))

/-- Take the lock and write, when the stored content is the one the commit is bound to. Gives the
    result and the file left behind. -/
def commitBoundTrustStoreMutation (target : TrustStoreMutationTarget)
    (prepared : TrustStorePreparation) (mutate : StoreOperation P) (window : LockWindow P)
    (file : Option Bytes) : Except Error (TrustStoreCommitAttempt P) × Option Bytes :=
  match window.lockFault with
  | some e => (.error e, file)
  | none =>
    match resolveLockedTrustStoreContent C target prepared window.now
        (loadUnderFault window.readFault target.path file) with
    | .error e => (.error e, file)
    -- the mutation is handed back unused, to be tried again
    | .ok .moved => (.ok (.stale mutate), file)
    | .ok (.unusable e) => (.ok (.unusable e), file)
    | .ok (.usable state) =>
      match applyAndSaveTrustStore C target state window.now mutate with
      | .error e => (.error e, file)
      | .ok (outcome, document) =>
        match saveTrustStoreAt window.saveFault document file with
        | .error e => (.error e, file)
        | .ok file => (.ok (.committed outcome), file)

end Attempt

/-! ## What an attempt does to the file -/

section Spec

variable (C : Crypto) {P : TextParsers} (target : TrustStoreMutationTarget)
variable (prepared : TrustStorePreparation) (mutate : StoreOperation P) (window : LockWindow P)

/-- The content an attempt runs its edit on, if it runs it. -/
def admittedState (file : Option Bytes) : Option TrustStoreState :=
  match window.lockFault with
  | some _ => none
  | none =>
    match resolveLockedTrustStoreContent C target prepared window.now
        (loadUnderFault window.readFault target.path file) with
    | .ok (.usable state) => some state
    | _ => none

/-- The document an edit puts into the file. -/
def publishedDocument (state : TrustStoreState) : Option TrustStoreDocument :=
  match applyAndSaveTrustStore C target state window.now mutate with
  | .error _ => none
  | .ok (_, document) => if window.saveFault.isSome then none else document

/-- The file after a document was put into it, or nothing was. -/
def fileAfter (published : Option TrustStoreDocument) (file : Option Bytes) : Option Bytes :=
  match published with
  | none => file
  | some document => some (renderTrustStore document)

/-- The content of a file, as its readers see it. -/
def Holds (path : TrustStorePath) (file : Option Bytes) (protect : TrustStoreProtected) : Prop :=
  ∃ loaded, loadTrustStoreAt path file = .ok (some loaded) ∧ loaded.document.protect = protect

variable {C target prepared mutate window}

/-- **SAVED CONTENT IS WHAT READERS SEE**. -/
theorem holds_render {path : TrustStorePath} {document : TrustStoreDocument}
    {protect : TrustStoreProtected} (hkept : Kept document.protect)
    (h : Holds path (some (renderTrustStore document)) protect) : protect = document.protect := by
  obtain ⟨loaded, hload, rfl⟩ := h
  rw [Option.some.inj (loadTrustStoreAt_render hkept hload)]

theorem kept_of_holds {path : TrustStorePath} {file : Option Bytes}
    {protect : TrustStoreProtected} (h : Holds path file protect) : Kept protect := by
  obtain ⟨loaded, hload, rfl⟩ := h
  exact (loadTrustStoreAt_ok hload).2 loaded rfl

theorem kept_buildEmpty (owner : MemberHandle) (now : CurrentTime P) :
    Kept (buildEmptyTrustStore owner now).protect :=
  fun _ hk => absurd hk List.not_mem_nil

/-- The content a state carries: that of the file, or an empty store where there is no file. -/
def StateOf (target : TrustStoreMutationTarget) (now : CurrentTime P) (file : Option Bytes)
    (state : TrustStoreState) : Prop :=
  (Holds target.path file state.protect ∧ state.signerKid.isSome)
    ∨ (file = none ∧ target.mode = .createIfMissing
      ∧ state = buildEmptyTrustStore target.owner now)

theorem StateOf.kept {now : CurrentTime P} {file : Option Bytes} {state : TrustStoreState}
    (h : StateOf target now file state) : Kept state.protect := by
  rcases h with ⟨hholds, _⟩ | ⟨_, _, rfl⟩
  · exact kept_of_holds hholds
  · exact kept_buildEmpty target.owner now

theorem loadUnderFault_ok {fault : Option Error} {path : TrustStorePath} {file : Option Bytes}
    {loaded : Option TrustStoreLoadResult} (h : loadUnderFault fault path file = .ok loaded) :
    loadTrustStoreAt path file = .ok loaded := by
  cases fault with
  | some e => cases h
  | none => exact h

theorem evaluateLockedFailure_ne_usable {e : Error} {state : TrustStoreState} :
    evaluateLockedFailure e ≠ .ok (.usable state) := by
  rw [evaluateLockedFailure]
  split
  · exact fun h => (by cases Except.ok.inj h)
  · exact nofun

/-- The content to edit is never content that moved. -/
theorem buildTrustStoreForCommit_ne_moved {now : CurrentTime P}
    {loaded : Option TrustStoreLoadResult} :
    buildTrustStoreForCommit C target prepared now loaded ≠ .ok .moved := by
  cases loaded with
  | none =>
    rw [buildTrustStoreForCommit]
    cases target.mode with
    | existingRequired => exact nofun
    | createIfMissing => exact fun h => (by cases Except.ok.inj h)
  | some found =>
    rw [buildTrustStoreForCommit]
    cases verifyStoredTrustStore C (P := P) found prepared.signerKeys with
    | ok state => exact fun h => (by cases Except.ok.inj h)
    | error e =>
      dsimp only
      rw [evaluateLockedFailure]
      split
      · exact fun h => (by cases Except.ok.inj h)
      · exact nofun

/-- **EDITS RUN ON THE BOUND CONTENT ONLY**: the file under the lock is the observed one, and the
    state is its content. -/
theorem admittedState_some {file : Option Bytes} {state : TrustStoreState}
    (h : admittedState C target prepared window file = some state) :
    file = prepared.snapshot ∧ StateOf target window.now file state := by
  rw [admittedState] at h
  -- Each fault of the window ends without a state, so only the calm path is left.
  cases hlock : window.lockFault with
  | some e => rw [hlock] at h; cases h
  | none =>
    rw [hlock] at h
    dsimp only at h
    cases hload : loadUnderFault window.readFault target.path file with
    | error e =>
      rw [hload, resolveLockedTrustStoreContent] at h
      split at h
      · rename_i state' heq
        exact absurd heq evaluateLockedFailure_ne_usable
      · cases h
    | ok loaded =>
      have hread := loadUnderFault_ok hload
      have hbytes : snapshotFromLoaded loaded = file := (loadTrustStoreAt_ok hread).1
      rw [hload, resolveLockedTrustStoreContent, hbytes] at h
      -- The bytes under the lock are compared with those the transaction was prepared on.
      by_cases hsame : file ≠ prepared.snapshot
      · rw [if_pos hsame] at h
        cases h
      · rw [if_neg hsame] at h
        refine ⟨not_not.mp hsame, ?_⟩
        cases loaded with
        | none =>
          rw [buildTrustStoreForCommit] at h
          cases hmode : target.mode with
          | existingRequired => rw [hmode] at h; cases h
          | createIfMissing =>
            rw [hmode] at h
            exact Or.inr ⟨hbytes.symm, hmode, (Option.some.inj h).symm⟩
        | some found =>
          rw [buildTrustStoreForCommit] at h
          cases hverify : verifyStoredTrustStore C (P := P) found prepared.signerKeys with
          | error e =>
            rw [hverify] at h
            dsimp only at h
            split at h
            · rename_i state' heq
              exact absurd heq evaluateLockedFailure_ne_usable
            · cases h
          | ok verified =>
            rw [hverify] at h
            obtain rfl := Option.some.inj h
            rw [verifyStoredTrustStore] at hverify
            obtain ⟨doc, hdoc, hverify⟩ := bind_eq_ok.mp hverify
            obtain ⟨kid, _, hverify⟩ := bind_eq_ok.mp hverify
            obtain rfl := Except.ok.inj hverify
            exact Or.inl ⟨⟨found, hread, by rw [verifyTrustStore_eq hdoc]⟩, rfl⟩

/-- A refused edit leaves the file alone and commits nothing. -/
theorem commitBound_refused {file : Option Bytes} (mutate : StoreOperation P)
    (h : admittedState C target prepared window file = none) :
    (commitBoundTrustStoreMutation C target prepared mutate window file).2 = file
      ∧ ∀ outcome, (commitBoundTrustStoreMutation C target prepared mutate window file).1
        ≠ .ok (.committed outcome) := by
  rw [admittedState] at h
  rw [commitBoundTrustStoreMutation]
  cases hlock : window.lockFault with
  | some e => exact ⟨rfl, nofun⟩
  | none =>
    rw [hlock] at h
    dsimp only at h ⊢
    cases hresolve : resolveLockedTrustStoreContent C target prepared window.now
        (loadUnderFault window.readFault target.path file) with
    | error e => exact ⟨rfl, nofun⟩
    | ok content =>
      rw [hresolve] at h
      cases content with
      | usable state => cases h
      | moved => exact ⟨rfl, fun outcome heq => (by cases Except.ok.inj heq)⟩
      | unusable e => exact ⟨rfl, fun outcome heq => (by cases Except.ok.inj heq)⟩

/-- An edit that ran leaves the file with what it published, and comes back neither unused nor as
    content that could not be used. -/
theorem commitBound_ran {file : Option Bytes} {state : TrustStoreState}
    (mutate : StoreOperation P)
    (h : admittedState C target prepared window file = some state) :
    (commitBoundTrustStoreMutation C target prepared mutate window file).2
        = fileAfter (publishedDocument C target mutate window state) file
      ∧ ((∃ e, (commitBoundTrustStoreMutation C target prepared mutate window file).1 = .error e)
        ∨ ∃ outcome, (commitBoundTrustStoreMutation C target prepared mutate window file).1
          = .ok (.committed outcome)
          ∧ applyAndSaveTrustStore C target state window.now mutate
            = .ok (outcome, publishedDocument C target mutate window state)) := by
  rw [admittedState] at h
  rw [commitBoundTrustStoreMutation, publishedDocument]
  -- The branches of the attempt are those of `admittedState`, in the same order.
  cases hlock : window.lockFault with
  | some e => rw [hlock] at h; cases h
  | none =>
    rw [hlock] at h
    dsimp only at h ⊢
    cases hresolve : resolveLockedTrustStoreContent C target prepared window.now
        (loadUnderFault window.readFault target.path file) with
    | error e => rw [hresolve] at h; cases h
    | ok content =>
      rw [hresolve] at h
      cases content with
      | moved => cases h
      | unusable e => cases h
      | usable state' =>
        obtain rfl := Option.some.inj h
        dsimp only
        cases happly : applyAndSaveTrustStore C target state' window.now mutate with
        | error e => exact ⟨rfl, Or.inl ⟨e, rfl⟩⟩
        | ok result =>
          obtain ⟨outcome, document⟩ := result
          dsimp only
          cases document with
          | none =>
            cases hfault : window.saveFault with
            | none => exact ⟨rfl, Or.inr ⟨outcome, rfl, rfl⟩⟩
            | some e => exact ⟨rfl, Or.inr ⟨outcome, rfl, rfl⟩⟩
          | some document =>
            cases hfault : window.saveFault with
            | none => exact ⟨rfl, Or.inr ⟨outcome, rfl, rfl⟩⟩
            | some e => exact ⟨rfl, Or.inl ⟨e, rfl⟩⟩

/-! ## Content that moved -/

theorem error_of_bind {α β : Type} {x : Except Error α} {f : α → Except Error β} {e : Error}
    (h : (x >>= f) = .error e) : x = .error e ∨ ∃ a, x = .ok a ∧ f a = .error e := by
  cases x with
  | error e' => exact Or.inl (congrArg Except.error (Except.error.inj h))
  | ok a => exact Or.inr ⟨a, rfl, h⟩

theorem isContentFailure_validateJsonLimits {bytes : Bytes} {e : Error}
    (h : validateJsonLimits bytes = .error e) : isContentFailure e = true := by
  have hlimit : ∀ {state : JsonScanState} {e : Error}, enforceElementLimit state = .error e →
      isContentFailure e = true := by
    intro state e h
    rw [enforceElementLimit] at h
    split at h
    · rw [← Except.error.inj h]; rfl
    · cases h
  have hconsume : ∀ {state : JsonScanState} {byte : UInt8} {e : Error},
      consume state byte = .error e → isContentFailure e = true := by
    intro state byte e h
    rw [consume] at h
    split at h
    · cases h
    split at h
    · cases h
    split at h
    · exact hlimit h
    split at h
    · rcases error_of_bind h with h | ⟨next, _, h⟩
      · rw [openContainer] at h
        split at h
        · rw [← Except.error.inj h]; rfl
        · cases h
      · exact hlimit h
    split at h
    · exact hlimit h
    split at h
    · exact hlimit h
    · exact hlimit h
  have hscan : ∀ (bytes : Bytes) (state : JsonScanState),
      scanFrom state bytes = .error e → isContentFailure e = true := by
    intro bytes
    induction bytes with
    | nil => exact fun state h => by cases h
    | cons byte bytes ih =>
      intro state h
      rcases error_of_bind h with h | ⟨next, _, h⟩
      · exact hconsume h
      · exact ih next h
  rw [validateJsonLimits] at h
  cases hrun : scanFrom .start bytes with
  | ok state => rw [hrun] at h; cases h
  | error e' =>
    rw [hrun] at h
    obtain rfl : e' = e := Except.error.inj h
    exact hscan bytes _ hrun

/-- Whatever is wrong with a file that could be read is a statement about its content. -/
theorem isContentFailure_loadTrustStoreAt {path : TrustStorePath} {file : Option Bytes} {e : Error}
    (h : loadTrustStoreAt path file = .error e) : isContentFailure e = true := by
  cases file with
  | none => cases h
  | some bytes =>
    rw [loadTrustStoreAt] at h
    rcases error_of_bind h with h | ⟨_, _, h⟩
    · rw [loadCappedBytes] at h
      split at h
      · cases h
      · rw [← Except.error.inj h]; rfl
    rcases error_of_bind h with h | ⟨content, _, h⟩
    · rw [decodeLoadedText] at h
      split at h
      · cases h
      · rw [← Except.error.inj h]; rfl
    rcases error_of_bind h with h | ⟨document, _, h⟩
    · rw [parseJsonDocumentBytes] at h
      rcases error_of_bind h with h | ⟨_, _, h⟩
      · exact isContentFailure_validateJsonLimits h
      rcases error_of_bind h with h | ⟨v, _, h⟩
      · rw [parseJsonValue] at h
        split at h
        · rw [← Except.error.inj h]; rfl
        · split at h
          · cases h
          · rw [← Except.error.inj h]; rfl
      · rw [readConforming] at h
        split at h
        · split at h
          · cases h
          · rw [← Except.error.inj h]; rfl
        · rw [← Except.error.inj h, schemaError]; rfl
    rcases error_of_bind h with h | ⟨_, _, h⟩
    · rw [validateFilenameMatchesOwner] at h
      split at h
      · rw [← Except.error.inj h]; rfl
      · cases h
    · cases h

/-- **MOVED CONTENT IS NOT EDITED**: where the lock is taken and the file is read, bytes other than
    the observed ones bring the edit back unused or are content that cannot be used. -/
theorem commitBound_moved {file : Option Bytes} (hcalm : window.Calm)
    (hmoved : file ≠ prepared.snapshot) :
    (commitBoundTrustStoreMutation C target prepared mutate window file).1 = .ok (.stale mutate)
      ∨ ∃ e, (commitBoundTrustStoreMutation C target prepared mutate window file).1
        = .ok (.unusable e) := by
  obtain ⟨hlock, hread⟩ := hcalm
  rw [commitBoundTrustStoreMutation, hlock, hread]
  cases hload : loadUnderFault none target.path file with
  | error e =>
    have hcontent : isContentFailure e = true := isContentFailure_loadTrustStoreAt hload
    rw [resolveLockedTrustStoreContent, evaluateLockedFailure, if_pos hcontent]
    exact Or.inr ⟨e, rfl⟩
  | ok loaded =>
    have hbytes : snapshotFromLoaded loaded = file := (loadTrustStoreAt_ok hload).1
    rw [resolveLockedTrustStoreContent, hbytes, if_pos hmoved]
    exact Or.inl rfl

/-- An edit is handed back only for content that moved. -/
theorem commitBound_stale {file : Option Bytes} {unused : StoreOperation P}
    (h : (commitBoundTrustStoreMutation C target prepared mutate window file).1
      = .ok (.stale unused)) :
    unused = mutate ∧ file ≠ prepared.snapshot := by
  -- An attempt that had a state ran, so a stale one had none; the bytes tell why.
  cases hadmit : admittedState C target prepared window file with
  | some state =>
    rcases (commitBound_ran mutate hadmit).2 with ⟨e, herror⟩ | ⟨outcome, hdone, _⟩
    · cases herror.symm.trans h
    · cases Except.ok.inj (hdone.symm.trans h)
  | none =>
    rw [commitBoundTrustStoreMutation] at h
    cases hlock : window.lockFault with
    | some e => rw [hlock] at h; cases h
    | none =>
      rw [hlock] at h
      dsimp only at h
      cases hload : loadUnderFault window.readFault target.path file with
      | error e =>
        rw [hload, resolveLockedTrustStoreContent, evaluateLockedFailure] at h
        by_cases hcontent : isContentFailure e = true
        · rw [if_pos hcontent] at h
          cases Except.ok.inj h
        · rw [if_neg hcontent] at h
          cases h
      | ok loaded =>
        have hbytes : snapshotFromLoaded loaded = file :=
          (loadTrustStoreAt_ok (loadUnderFault_ok hload)).1
        rw [hload, resolveLockedTrustStoreContent, hbytes] at h
        by_cases hmoved : file ≠ prepared.snapshot
        · rw [if_pos hmoved] at h
          exact ⟨(TrustStoreCommitAttempt.stale.inj (Except.ok.inj h)).symm, hmoved⟩
        · exfalso
          rw [if_neg hmoved] at h
          cases hbuild : buildTrustStoreForCommit C target prepared window.now loaded with
          | error e => rw [hbuild] at h; cases h
          | ok content =>
            cases content with
            | moved => exact buildTrustStoreForCommit_ne_moved hbuild
            | unusable e => rw [hbuild] at h; cases Except.ok.inj h
            | usable state =>
              rw [admittedState, hlock] at hadmit
              dsimp only at hadmit
              rw [hload, resolveLockedTrustStoreContent, hbytes, if_neg hmoved, hbuild] at hadmit
              cases hadmit

end Spec

/-! ## What the edits do to the content -/

/-- Every record of a content is still in another: the known keys as they are, the recipient sets
    under their sids. -/
structure Retains (protect protect' : TrustStoreProtected) : Prop where
  keys : ∀ k ∈ protect.knownKeys, k ∈ protect'.knownKeys
  sids : ∀ r ∈ protect.recipientSets, r.sid ∈ protect'.recipientSets.map RecipientSetRecord.sid

theorem Retains.refl (protect : TrustStoreProtected) : Retains protect protect where
  keys := fun _ hk => hk
  sids := fun _ hr => List.mem_map_of_mem hr

theorem Retains.trans {a b c : TrustStoreProtected} (hab : Retains a b) (hbc : Retains b c) :
    Retains a c where
  keys := fun k hk => hbc.keys k (hab.keys k hk)
  sids := by
    intro r hr
    obtain ⟨r', hr', hsid⟩ := List.mem_map.mp (hab.sids r hr)
    exact hsid ▸ hbc.sids r' hr'

section Edits

variable {C : Crypto} {P : TextParsers}

/-- What an edit promises: it says truly whether the content changed, and what is kept stays
    kept. -/
structure Edited (changed : Bool) (protect protect' : TrustStoreProtected) : Prop where
  unchanged : changed = false → protect' = protect
  kept : Kept protect → Kept protect'

/-- An approval is an edit that retains every record. -/
structure Approved (changed : Bool) (protect protect' : TrustStoreProtected) : Prop
    extends Edited changed protect protect' where
  retains : Retains protect protect'

theorem approved_knownKey {owner : MemberHandle} {protect protect' : TrustStoreProtected}
    {key : KnownKeyApproval} {now : CurrentTime P} {changed : Bool}
    (h : applyKnownKeyApproval owner protect key now = .ok (changed, protect')) :
    Approved changed protect protect' := by
  rw [applyKnownKeyApproval] at h
  obtain ⟨_, h⟩ := throwIf_ok.mp h
  obtain ⟨⟨changed', keys⟩, hadd, h⟩ := bind_eq_ok.mp h
  obtain ⟨rfl, rfl⟩ := Prod.mk.inj (Except.ok.inj h)
  rw [addKnownKey] at hadd
  obtain ⟨_, _, hadd⟩ := bind_eq_ok.mp hadd
  split at hadd
  · obtain ⟨rfl, rfl⟩ := Prod.mk.inj (Except.ok.inj hadd)
    exact { unchanged := fun _ => rfl, kept := id, retains := Retains.refl protect }
  · obtain ⟨rfl, rfl⟩ := Prod.mk.inj (Except.ok.inj hadd)
    refine { unchanged := fun h => (by cases h), kept := fun hkept k hk => ?_, retains := ⟨?_, ?_⟩ }
    · rcases List.mem_append.mp hk with hk | hk
      · exact hkept k hk
      · rw [List.mem_singleton.mp hk]
        exact stored_of_extra_nil rfl
    · exact fun k hk => List.mem_append_left _ hk
    · exact fun r hr => List.mem_map_of_mem hr

/-- A replaced record keeps the sids of the list. -/
theorem upsertRecipientSet_spec {records records' : List RecipientSetRecord}
    {set : ArtifactRecipientSet} {approvedAt : String} {changed : Bool}
    (h : upsertRecipientSet records set approvedAt = (changed, records')) :
    (changed = false → records' = records)
      ∧ ∀ r ∈ records, r.sid ∈ records'.map RecipientSetRecord.sid := by
  rw [upsertRecipientSet] at h
  split at h
  · obtain ⟨rfl, rfl⟩ := Prod.mk.inj h
    refine ⟨fun h => (by cases h), fun r hr => ?_⟩
    rw [List.map_append, List.mem_append]
    exact Or.inl (List.mem_map_of_mem hr)
  · split at h
    · obtain ⟨rfl, rfl⟩ := Prod.mk.inj h
      exact ⟨fun _ => rfl, fun r hr => List.mem_map_of_mem hr⟩
    · obtain ⟨rfl, rfl⟩ := Prod.mk.inj h
      refine ⟨fun h => (by cases h), fun r hr => ?_⟩
      rw [keys_replaceFirst]
      exact List.mem_map_of_mem hr

theorem approved_recipientSet {protect protect' : TrustStoreProtected}
    {approval : RecipientSetApproval} {now : CurrentTime P} {changed : Bool}
    (h : applyRecipientSetApproval C protect approval now = .ok (changed, protect')) :
    Approved changed protect protect' := by
  rw [applyRecipientSetApproval] at h
  obtain ⟨set, _, h⟩ := bind_eq_ok.mp h
  cases hupsert : upsertRecipientSet protect.recipientSets set now.text with
  | mk changed' records =>
    rw [hupsert] at h
    obtain ⟨rfl, rfl⟩ := Prod.mk.inj (Except.ok.inj h)
    obtain ⟨hsame, hsids⟩ := upsertRecipientSet_spec hupsert
    refine { unchanged := fun hchanged => ?_, kept := id, retains := ⟨fun k hk => hk, hsids⟩ }
    rw [hsame hchanged]

/-- **APPROVALS RETAIN EVERY RECORD**: one after the other, whatever is stored. -/
theorem applyApprovalsTo_approved {owner : MemberHandle}
    {approvals : List (TrustApproval × CurrentTime P)} {protect protect' : TrustStoreProtected}
    {applied : Nat} (h : applyApprovalsTo C owner protect approvals = .ok (applied, protect')) :
    Approved (decide (0 < applied)) protect protect' := by
  induction approvals generalizing protect applied with
  | nil =>
    obtain ⟨rfl, rfl⟩ := Prod.mk.inj (Except.ok.inj h)
    exact { unchanged := fun _ => rfl, kept := id, retains := Retains.refl protect }
  | cons approval approvals ih =>
    obtain ⟨approval, now⟩ := approval
    rw [applyApprovalsTo] at h
    obtain ⟨⟨changed, next⟩, hfirst, h⟩ := bind_eq_ok.mp h
    obtain ⟨⟨count, last⟩, hrest, h⟩ := bind_eq_ok.mp h
    obtain ⟨rfl, rfl⟩ := Prod.mk.inj (Except.ok.inj h)
    have hone : Approved changed protect next := by
      cases approval with
      | knownKey key => exact approved_knownKey hfirst
      | recipientSet set => exact approved_recipientSet hfirst
    have hmore := ih hrest
    refine { unchanged := fun hnone => ?_, kept := fun hkept => hmore.kept (hone.kept hkept),
             retains := hone.retains.trans hmore.retains }
    have hcount : changed.toNat + count = 0 := Nat.eq_zero_of_not_pos (of_decide_eq_false hnone)
    obtain ⟨hchanged, hcount⟩ := Nat.add_eq_zero_iff.mp hcount
    rw [hmore.unchanged (by rw [hcount]; rfl)]
    exact hone.unchanged (by cases changed with
      | false => rfl
      | true => cases hchanged)

/-- A purge that removes nothing retains everything. -/
theorem purgeRecords_nil {R : Type} {field : String} {approvedAt : R → String} {olderThan : Int}
    {records retained : List R}
    (h : purgeRecords P field approvedAt olderThan records = .ok ([], retained)) :
    retained = records := by
  induction records generalizing retained with
  | nil => exact (Prod.mk.inj (Except.ok.inj h)).2.symm
  | cons record records ih =>
    rw [purgeRecords] at h
    obtain ⟨approved, _, h⟩ := bind_eq_ok.mp h
    obtain ⟨⟨removed, rest⟩, hrest, h⟩ := bind_eq_ok.mp h
    dsimp only at h
    split at h
    · cases (Prod.mk.inj (Except.ok.inj h)).1
    · obtain ⟨rfl, rfl⟩ := Prod.mk.inj (Except.ok.inj h)
      rw [ih hrest]

/-- Dropping known keys keeps what is kept. -/
theorem kept_of_subset {protect : TrustStoreProtected} {keys : List KnownKey}
    (hsub : ∀ k ∈ keys, k ∈ protect.knownKeys) (hkept : Kept protect) :
    Kept { protect with knownKeys := keys } :=
  fun k hk => hkept k (hsub k hk)

/-- **EVERY EDIT KEEPS ITS PROMISE**. -/
theorem mutate_edited {owner : MemberHandle} {protect protect' : TrustStoreProtected}
    {operation : StoreOperation P} {changed : Bool}
    (h : operation.mutate C owner protect = .ok (changed, protect')) :
    Edited changed protect protect' := by
  cases operation with
  | applyApprovals approvals =>
    obtain ⟨⟨applied, next⟩, happly, h⟩ := bind_eq_ok.mp h
    obtain ⟨rfl, rfl⟩ := Prod.mk.inj (Except.ok.inj h)
    exact (applyApprovalsTo_approved happly).toEdited
  | removeKnownKey kid =>
    obtain ⟨⟨key, keys⟩, hremove, h⟩ := bind_eq_ok.mp h
    obtain ⟨rfl, rfl⟩ := Prod.mk.inj (Except.ok.inj h)
    refine ⟨fun h => (by cases h), kept_of_subset fun k hk => ?_⟩
    rw [TrustStore.removeKnownKey] at hremove
    obtain ⟨resolved, _, hremove⟩ := bind_eq_ok.mp hremove
    split at hremove
    · cases hremove
    · rw [← (Prod.mk.inj (Except.ok.inj hremove)).2] at hk
      exact List.mem_of_mem_eraseP hk
  | removeRecipientSet sid =>
    obtain ⟨⟨record, sets⟩, _, h⟩ := bind_eq_ok.mp h
    obtain ⟨rfl, rfl⟩ := Prod.mk.inj (Except.ok.inj h)
    exact ⟨fun h => (by cases h), id⟩
  | purgeKnownKeys olderThan =>
    obtain ⟨⟨removed, keys⟩, hpurge, h⟩ := bind_eq_ok.mp h
    obtain ⟨rfl, rfl⟩ := Prod.mk.inj (Except.ok.inj h)
    refine ⟨fun hchanged => ?_, kept_of_subset fun k hk => (purgeRecords_sublist hpurge).subset hk⟩
    cases removed with
    | nil => rw [purgeRecords_nil hpurge]
    | cons record removed => cases hchanged
  | purgeRecipientSets olderThan =>
    obtain ⟨⟨removed, sets⟩, hpurge, h⟩ := bind_eq_ok.mp h
    obtain ⟨rfl, rfl⟩ := Prod.mk.inj (Except.ok.inj h)
    refine ⟨fun hchanged => ?_, id⟩
    cases removed with
    | nil => rw [purgeRecords_nil hpurge]
    | cons record removed => cases hchanged
  | resign =>
    obtain ⟨rfl, rfl⟩ := Prod.mk.inj (Except.ok.inj h)
    exact ⟨fun _ => rfl, id⟩

/-- **WHAT IS PUBLISHED**: a skipped write publishes nothing, a new signature leaves the whole
    content as it was, and a save is of content the edit changed, under a fresh timestamp. -/
theorem applyAndSave_ok {target : TrustStoreMutationTarget} {state : TrustStoreState}
    {now : CurrentTime P} {operation : StoreOperation P} {outcome : TrustStoreMutationOutcome}
    {document : Option TrustStoreDocument}
    (h : applyAndSaveTrustStore C target state now operation = .ok (outcome, document)) :
    (outcome.write = .skip ∧ document = none)
      ∨ (outcome.write = .resign ∧ ∃ doc, document = some doc ∧ doc.protect = state.protect)
      ∨ (outcome.write = .save ∧ ∃ doc protect, document = some doc
        ∧ operation.mutate C target.owner state.protect = .ok (true, protect)
        ∧ doc.protect = { protect with updatedAt := now.text }) := by
  rw [applyAndSaveTrustStore] at h
  obtain ⟨⟨changed, protect⟩, hmutate, h⟩ := bind_eq_ok.mp h
  dsimp only at h
  obtain ⟨written, hwritten, h⟩ := bind_eq_ok.mp h
  obtain ⟨rfl, rfl⟩ := Prod.mk.inj (Except.ok.inj h)
  have hedited := mutate_edited hmutate
  cases changed with
  | true =>
    obtain ⟨doc, hdoc, rfl⟩ := map_eq_ok.mp hwritten
    exact Or.inr (Or.inr ⟨rfl, doc, protect, rfl, hmutate, (signTrustStore_ok hdoc).1⟩)
  | false =>
    have hwrite : judgeTrustStoreWrite false (state.signerKid.map Kid.text)
        target.signing.signerKid.text = .skip ∨ judgeTrustStoreWrite false
        (state.signerKid.map Kid.text) target.signing.signerKid.text = .resign := by
      cases state.signerKid.map Kid.text with
      | none => exact Or.inl rfl
      | some stored =>
        by_cases hsigner : stored ≠ target.signing.signerKid.text
        · exact Or.inr (if_pos hsigner)
        · exact Or.inl (if_neg hsigner)
    rcases hwrite with hskip | hresign
    · rw [hskip] at hwritten ⊢
      exact Or.inl ⟨rfl, (Except.ok.inj hwritten).symm⟩
    · rw [hresign] at hwritten ⊢
      obtain ⟨doc, hdoc, rfl⟩ := map_eq_ok.mp hwritten
      refine Or.inr (Or.inl ⟨rfl, doc, rfl, ?_⟩)
      rw [(signTrustStore_ok hdoc).1]
      exact hedited.unchanged rfl

end Edits

end TrustTransaction
