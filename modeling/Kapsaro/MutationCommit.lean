import Kapsaro.MutationReview

/-!
# Mutation commit — review, authorize and publish a kv mutation

`service/kv/mutation/execution.rs`: the review settles what will be written, and may save an
approval of its recipients; the commit, under the lock of the secrets directory, checks that the
target and the members are the reviewed ones, derives the authorization again, makes the text and
checks that the trust store has not moved; and the text is published by a rename that checks once
more.

* **`ArtifactRecipientTrustOutcome`** — whether a recipient set needs an approval.
* **`reviewKvMutation`**, **`commitKvMutation`**, **`executeKvMutation`** — the mutation, step by
  step.
-/

namespace MutationCommit

open JsonText JsonMembers JsonLimits Limits TextLines Base64Codec WireTexts WireModel
open DocumentTokens Envelope SignedArtifacts KeyedList TrustRecords TrustStore TrustSoundness
open TrustApprovals TrustDocument TrustTransaction TrustJudgment TrustPolicy MemberStore KvDocument
open KvMutation KvWriteLimits FormatDetection MutationReview StepPrograms Steps

/-! ## Recipient-set outcomes -/

/-- A recipient set to approve, and the set an earlier approval stored. -/
structure ArtifactRecipientSetReview where
  current : ArtifactRecipientSet
  approved : Option RecipientSetRecord

inductive ArtifactRecipientTrustOutcome where
  | accepted
  | needsManualApproval (review : ArtifactRecipientSetReview)

/-- A recipient set needs an approval no run without review can give. -/
def unreviewedRecipientSetError : TrustReviewKind → Error
  | .changedRecipientSet => .verify "E_RECIPIENT_SET_CHANGED"
      "This secret's member set changed since local review and requires approval."
  | _ => .verify "E_RECIPIENT_TRUST_MISSING"
      "This secret's member set has not been reviewed locally and requires approval."

/-- The record an earlier approval stored; only a changed set has one. -/
def findApprovedRecipientSet (context : TrustContext) (current : ArtifactRecipientSet)
    (kind : TrustReviewKind) : Option RecipientSetRecord :=
  if kind ≠ .changedRecipientSet then none
  else context.recipientSets.find? fun record => record.sid = current.sid.text

/-- The outcome of open requests for a recipient set. -/
def artifactRecipientOutcomeFromRequests (requests : List TrustReviewRequest)
    (context : TrustContext) (current : ArtifactRecipientSet) :
    Except Error ArtifactRecipientTrustOutcome :=
  match requests.find? fun request =>
      request.kind = .recipientSet ∨ request.kind = .changedRecipientSet with
  | none => .ok .accepted
  | some request =>
    if context.reviewAvailable then
      .ok (.needsManualApproval
        ⟨current, findApprovedRecipientSet context current request.kind⟩)
    else .error (unreviewedRecipientSetError request.kind)

/-! ## Mutations -/

def buildMutationReviewChangedError : Error :=
  .invalidOperation "KV mutation trust changed and must be reviewed again."

/-- What a mutation was planned with. -/
structure MutationWriteTrustPlan where
  session : TrustCommandSession
  trustContext : TrustContext
  review : MutationReviewSnapshot

/-- What the review hands on: a new document is encrypted before its recipients can be reviewed, an
    existing one is mutated only once the write is authorized. -/
inductive ReviewedKvMutation where
  | new (encrypted : String) (sid : Uuid)
  | existing (content : String) (operation : KvMutationOperation)

/-- What the platform draws for a mutation. -/
structure MutationDraws (P : TextParsers) where
  /-- the trust directory, if it has to be made -/
  trustDir : Nat
  approvalTime : CurrentTime P
  /-- the staged file -/
  staged : Nat
  stagedMetadata : FileMetadata

inductive KvMutationDecision where
  | trusted (mutation : AuthorizedKvMutation)
  | reviewRequired (requests : List TrustReviewRequest)

/-- The evidence of a verified document. -/
def verifiedArtifactOf (doc : KvEncDocument) : Except Error VerifiedArtifact := do
  let signer ← loadedPublicKey doc.signature.signerPub
  pure ⟨some signer, doc.head.sid, doc.wrap.wrap⟩

section Operations

variable (C : Crypto) (P : TextParsers) (reader : ValueReader) (clock : ExpiryClock)

/-- Verify a document for an operation. -/
def verifyForOperation (content : String) : Except Error KvEncDocument := do
  let artifact ← KvEncArtifact.parse reader content
  let doc ← verifyKvContent C artifact.text
  clock.signer doc.signature.signerPub
  pure doc

/-- The proof that the key of a context opens a document. -/
def verifyKvKeyPossessionWithContext (doc : KvEncDocument) (keyCtx : KeyContext) :
    Except Error Unit := do
  let masterKey ← unwrapMasterKeyWithContext C .kv doc.head.sid doc.wrap.wrap
    keyCtx.inner.memberHandle.text keyCtx.inner
  verifyKvKeyPossession C doc masterKey

/-- Issue the capability of a mutation. -/
def AuthorizedKvMutation.fromAuthorized (content : String) (doc : KvEncDocument)
    (recipients : RecipientKeys) (keyCtx : KeyContext) (operation : KvMutationOperation) :
    Except Error AuthorizedKvMutation := do
  let set ← WrapSet.parse doc.wrap.wrap "Document"
  let (kid, _) ← keyCtx.inner.selectLocalDecryptionKey set keyCtx.inner.memberHandle.text
  clock.decryptionKey kid
  keyCtx.inner.enforceSigningKeyNotExpired
  verifyKvKeyPossessionWithContext C doc keyCtx
  pure ⟨content, recipients, keyCtx, operation⟩

/-- Decide on a mutation of a verified document, and authorize it without an open review. -/
def evaluateMutation (evaluator : TrustPolicyEvaluator) (content : String) (doc : KvEncDocument)
    (recipients : RecipientKeys) (keyCtx : KeyContext) (operation : KvMutationOperation) :
    Except Error KvMutationDecision := do
  let artifact ← verifiedArtifactOf doc
  match ← evaluator.evaluateKvMutation C artifact recipients keyCtx with
  | .reviewRequired requests => pure (.reviewRequired requests)
  | .trusted => do
    let mutation ←
      AuthorizedKvMutation.fromAuthorized C clock content doc recipients keyCtx operation
    pure (.trusted mutation)

/-- Handles and keys go together. -/
def buildAuthorizedRecipientKeys (review : MutationReviewSnapshot) :
    Except Error RecipientKeys := do
  let handles := review.recipients.memberHandles
  let keys := review.recipients.verifiedMembers
  if handles.length ≠ keys.length then
    throw (.invalidArgument (s!"recipient handle count ({handles.length}) does not match public " ++
      s!"key count ({keys.length})"))
  match (handles.zip keys).find? fun pair => decide (pair.2.subjectHandle ≠ pair.1) with
  | some (handle, key) => throw (.invalidArgument (s!"recipient handle '{handle}' does not " ++
      s!"match public key subject_handle '{key.subjectHandle}'"))
  | none => pure ⟨keys⟩

/-- Members and trust store of an evaluation: the recipients are the members. -/
def loadMutationAuthorization (session : TrustCommandSession) (recipients : RecipientKeys) :
    Steps Shared Error TrustPolicyEvaluator := do
  let members ← lift (buildActiveMembersByKid
    (recipients.keys.map VerifiedRecipientKey.toLoadedPublicKey))
  let loaded ← read (loadSessionVerifiedTrustStore C P session)
  pure ⟨members, loaded.map VerifiedLocalTrustStore.protect⟩

/-- Make the trust directory, with nothing in it, unless there is one. -/
def makeTrustDirectory (dir : Nat) (w : Shared) : Shared :=
  match w.trustEntry with
  | some _ => w
  | none => { w with
      trustEntry := some dir
      trustStores := fun d => if d = dir then none else w.trustStores d }

/-- Open the trust directory, and make it if there is none; a session opens it once. -/
def ensuredTrustDirectory (session : TrustCommandSession) (draws : MutationDraws P) :
    Steps Shared Error TrustCommandSession :=
  match session.trustDir with
  | some _ => pure session
  | none => do
    change fun w => .ok (makeTrustDirectory draws.trustDir w)
    let dir ← read fun w =>
      match w.trustEntry with
      | none => .error (.notFound "Failed to open directory: trust")
      | some dir => .ok dir
    pure { session with trustDir := some dir }

/-- The approval of an artifact's recipients. -/
def recipientSetFromArtifact (set : ArtifactRecipientSet) : Except Error TrustApproval := do
  let request ← recipientReviewRequest .recipientSet set none
  TrustApproval.ofRecipientSet C set.sid request.recipientKids request.recipientHandleHints

/-- Save an approval onto the store it was decided on, and onto no other. -/
def saveReviewedRecipientSetApproval (session : TrustCommandSession)
    (observed : Option VerifiedLocalTrustStore) (approval : ArtifactRecipientSet)
    (draws : MutationDraws P) : Steps Shared Error Unit := do
  let approval ← lift (recipientSetFromArtifact C approval)
  let signing ← lift (buildSigningContext C session.keyCtx.inner)
  let signerKeys ← lift (loadSignerKeySnapshot session.keystore session.owner
    (observed.bind VerifiedLocalTrustStore.signerKid))
  let target : TrustStoreMutationTarget := ⟨session.path, session.owner, .createIfMissing, signing⟩
  -- prepared on the bytes seen before the question, not on those of now
  let prepared : TrustStorePreparation :=
    ⟨observed.map VerifiedLocalTrustStore.rawBytes, signerKeys⟩
  change fun w =>
    match session.trustDir with
    | none => .error (.notFound "Failed to open directory: trust")
    | some dir =>
      match commitBoundTrustStoreMutation C (P := P) target prepared
          (.applyApprovals [(approval, draws.approvalTime)]) ⟨none, none, none, draws.approvalTime⟩
          (w.trustStores dir) with
      | (.ok (.committed _), file) =>
        .ok { w with trustStores := fun d => if d = dir then file else w.trustStores d }
      | (.error e, _) => .error e
      -- content that moved, or that no commit can run against, is a conflict
      | (.ok _, _) => .error buildTrustStoreConflictError

variable (confirm : ArtifactRecipientTrustOutcome → Except Error Bool)

/-- Ask about a recipient set, on the store as it is now, and save what was agreed to. -/
def reviewAndSaveArtifactRecipientSet (plan : MutationWriteTrustPlan)
    (session : TrustCommandSession) (outcome : ArtifactRecipientTrustOutcome)
    (draws : MutationDraws P) : Steps Shared Error TrustCommandSession :=
  match outcome with
  | .accepted => pure session
  | .needsManualApproval review => do
    let session ← ensuredTrustDirectory P session draws
    let observed ← read (loadSessionVerifiedTrustStore C P session)
    let confirmed ← read fun _ => confirm outcome
    -- checked after the answer, also when it is a refusal
    plan.review.ensureCurrent C P clock session
    if confirmed then
      saveReviewedRecipientSetApproval C P session observed review.current draws
      pure session
    else lift (.error (.invalidOperation "Recipient set approval declined"))

/-! ## The review -/

/-- The members of an evaluation; there has to be one. -/
def currentMembersOf (activeMembersByKid : CurrentMemberSnapshot) :
    Except Error CurrentMemberSnapshot :=
  if activeMembersByKid.members.isEmpty then
    .error (.notFound "No active members found in workspace")
  else .ok activeMembersByKid

/-- Encrypt a new document, and have its recipients reviewed. -/
def reviewNewKvMutation (plan : MutationWriteTrustPlan)
    (createOperation : Option String → KvRecipientSnapshot → KvWriteContext → Except Error String)
    (draws : MutationDraws P) : Steps Shared Error (TrustCommandSession × ReviewedKvMutation) := do
  let writeCtx : KvWriteContext := ⟨plan.session.owner.text, plan.session.keyCtx.inner⟩
  -- the text is made before the review, since its sid is part of what is approved
  let encrypted ← lift (createOperation none plan.review.recipients writeCtx)
  let doc ← lift (parseKvDocument encrypted)
  let set ← lift (ArtifactRecipientSet.fromWrapItems C doc.head.sid doc.wrap.wrap)
  let store ← read (loadSessionVerifiedTrustStore C P plan.session)
  let members ← lift (currentMembersOf plan.trustContext.activeMembersByKid)
  let evaluator : TrustPolicyEvaluator := ⟨members, store.map VerifiedLocalTrustStore.protect⟩
  lift (evaluator.enforceStoreOwner plan.session.keyCtx)
  let subject ← lift (RecipientSetSubject.fromInner set)
  let requests ← lift (evaluator.evaluateArtifactRecipientSet subject
    (buildSelfTrust C plan.session.keyCtx) [])
  let outcome ← lift (artifactRecipientOutcomeFromRequests requests plan.trustContext set)
  let session ← reviewAndSaveArtifactRecipientSet C P clock confirm plan plan.session outcome draws
  pure (session, .new encrypted doc.head.sid)

/-- The review that is open is that of the output's recipients, and of nothing else. -/
def enforceRecipientSetReviewMatchesOutput (requests : List TrustReviewRequest)
    (context : TrustContext) (output : ArtifactRecipientSet) : Except Error Unit :=
  let hasApprovedSet := context.recipientSets.any fun record => record.sid = output.sid.text
  let expectedKind : TrustReviewKind :=
    if hasApprovedSet then .changedRecipientSet else .recipientSet
  match requests with
  | [request] =>
    if request.kind = expectedKind ∧ request.sid = some output.sid
        ∧ request.recipientKids.map Kid.text = output.recipientKids then .ok ()
    else .error buildMutationReviewChangedError
  | _ => .error buildMutationReviewChangedError

/-- Decide on the mutation of an existing document, and have its recipients reviewed. -/
def reviewExistingKvMutation (plan : MutationWriteTrustPlan) (existing : String)
    (operation : KvMutationOperation) (draws : MutationDraws P) :
    Steps Shared Error (TrustCommandSession × ReviewedKvMutation) := do
  let doc ← lift (verifyForOperation C reader clock existing)
  let recipients ← lift (buildAuthorizedRecipientKeys plan.review)
  let evaluator ← loadMutationAuthorization C P plan.session recipients
  let decision ← lift
    (evaluateMutation C clock evaluator existing doc recipients plan.session.keyCtx operation)
  let output ← lift (ArtifactRecipientSet.fromPublicKeys C doc.head.sid
    (recipients.keys.map fun key => key.document))
  match decision with
  | .trusted _ => pure (plan.session, .existing existing operation)
  | .reviewRequired requests => do
    lift (enforceRecipientSetReviewMatchesOutput requests plan.trustContext output)
    match ← lift (artifactRecipientOutcomeFromRequests requests plan.trustContext output) with
    -- a review was required a moment ago, so something has changed
    | .accepted => lift (.error buildMutationReviewChangedError)
    | outcome => do
      let session ←
        reviewAndSaveArtifactRecipientSet C P clock confirm plan plan.session outcome draws
      pure (session, .existing existing operation)

/-- Settle what the mutation will write. -/
def reviewKvMutation (plan : MutationWriteTrustPlan)
    (createOperation : Option String → KvRecipientSnapshot → KvWriteContext → Except Error String)
    (operation : KvMutationOperation) (draws : MutationDraws P) :
    Steps Shared Error (TrustCommandSession × ReviewedKvMutation) :=
  match plan.review.existingContent with
  | none => reviewNewKvMutation C P clock confirm plan createOperation draws
  | some existing => reviewExistingKvMutation C P reader clock confirm plan existing operation draws

/-! ## The commit -/

/-- Confirm that the store the authorization was derived from has not moved. -/
def enforceFinalSnapshot (session : TrustCommandSession) (evaluator : TrustPolicyEvaluator) :
    Steps Shared Error Unit :=
  read (ensureTrustStoreCurrent C P session evaluator.store)

def commitNewKvMutation (plan : MutationWriteTrustPlan) (session : TrustCommandSession)
    (encrypted : String) (sid : Uuid) : Steps Shared Error String := do
  let recipients ← lift (buildAuthorizedRecipientKeys plan.review)
  let evaluator ← loadMutationAuthorization C P session recipients
  match ← lift (evaluator.evaluateNewKvOutput C sid recipients session.keyCtx) with
  | .reviewRequired _ => lift (.error buildMutationReviewChangedError)
  | .trusted => do
    enforceFinalSnapshot C P session evaluator
    pure encrypted

def commitExistingKvMutation (plan : MutationWriteTrustPlan) (session : TrustCommandSession)
    (existing : String) (operation : KvMutationOperation)
    (authorizedOperation : AuthorizedKvMutation → Except Error String) :
    Steps Shared Error String := do
  let doc ← lift (verifyForOperation C reader clock existing)
  let recipients ← lift (buildAuthorizedRecipientKeys plan.review)
  let evaluator ← loadMutationAuthorization C P session recipients
  match ← lift (evaluateMutation C clock evaluator existing doc recipients session.keyCtx
      operation) with
  -- the review is over: whatever is still open is new
  | .reviewRequired _ => lift (.error buildMutationReviewChangedError)
  | .trusted authorized => do
    let encrypted ← lift (authorizedOperation authorized)
    enforceFinalSnapshot C P session evaluator
    pure encrypted

/-- Check the target, then authorize the mutation again and make its text. -/
def commitKvMutation (plan : MutationWriteTrustPlan) (session : TrustCommandSession)
    (reviewed : ReviewedKvMutation)
    (authorizedOperation : AuthorizedKvMutation → Except Error String) :
    Steps Shared Error String := do
  read (plan.review.ensureMembersMatch C clock)
  read (ensureIdentityAndContentCurrent plan.review.target plan.review.fileSnapshot)
  match reviewed with
  | .new encrypted sid => commitNewKvMutation C P plan session encrypted sid
  | .existing existing operation =>
    commitExistingKvMutation C P reader clock plan session existing operation authorizedOperation

/-- The last check and the rename, as one step: the staged file takes the name of the target. -/
def publish (plan : MutationWriteTrustPlan) (encrypted : String) (draws : MutationDraws P)
    (w : Shared) : Except Error Shared := do
  plan.review.ensureTargetCurrentAt C clock w
  ensureIdentityAndContentCurrent plan.review.target plan.review.fileSnapshot w
  pure { w with
    entry := some draws.staged
    files := fun inode =>
      if inode = draws.staged then ⟨draws.stagedMetadata, some (utf8 encrypted)⟩
      else w.files inode }

/-- A step that changes no shared file: the lock, the staged file, the sync of a directory. -/
def privateStep : Steps Shared Error Unit :=
  change .ok

/-- Stage the text, publish it, and persist the entry. -/
def saveReplacementAt (plan : MutationWriteTrustPlan) (encrypted : String)
    (draws : MutationDraws P) : Steps Shared Error Unit := do
  privateStep
  change (publish C P clock plan encrypted draws)
  privateStep

/-- A kv mutation from its plan on. -/
def executeKvMutation (plan : MutationWriteTrustPlan)
    (createOperation : Option String → KvRecipientSnapshot → KvWriteContext → Except Error String)
    (operation : KvMutationOperation)
    (authorizedOperation : AuthorizedKvMutation → Except Error String)
    (draws : MutationDraws P) : Steps Shared Error Unit := do
  plan.review.ensureCurrent C P clock plan.session
  lift plan.session.keyCtx.inner.enforceSigningKeyNotExpired
  let (session, reviewed) ←
    reviewKvMutation C P reader clock confirm plan createOperation operation draws
  privateStep
  let encrypted ← commitKvMutation C P reader clock plan session reviewed authorizedOperation
  saveReplacementAt C P clock plan encrypted draws

end Operations

end MutationCommit
