import Kapsaro.TrustJudgment

/-!
# Trust policy — the decisions over the judgments

What a member has to review before it reads an artifact, writes to it, or wraps it for others.
An evaluation returns the reviews that are open; without any, the operation is trusted.

* **`TrustReviewRequest`** — a key or a recipient set that has to be approved first.
* **`TrustPolicyEvaluator`** — the active members and the trust store an evaluation looks at.
* **`evaluateReadRequests`** — a read, with its exceptions.
* **`kvMutationRequests`**, **`rewrapRequests`** — a write to a kv document, a rewrap.
* **`evaluateNewKvOutput`**, **`preflightOutputRecipientKeys`** — a new kv document, a new file.
-/

namespace TrustPolicy

open JsonText JsonMembers Limits TextLines Base64Codec WireTexts WireModel DocumentTokens
open Envelope SignedArtifacts KvDocument KeyedList TrustRecords TrustStore TrustSoundness
open TrustApprovals TrustJudgment

/-! ## What an evaluation looks at -/

/-- A member's loaded key, with the keystore it came from. -/
structure KeyContext where
  inner : CryptoContext
  keystore : Option Keystore

/-- Verified recipient keys, in the order the caller chose. -/
structure RecipientKeys where
  keys : List VerifiedRecipientKey
deriving DecidableEq

/-- A verified artifact: who signed it, and for whom it is wrapped. -/
structure VerifiedArtifact where
  signerPublicKey : Option LoadedPublicKey
  sid : Uuid
  wrapItems : List WrapItem

/-- The members and the trust store of an evaluation. -/
structure TrustPolicyEvaluator where
  members : CurrentMemberSnapshot
  store : Option TrustStoreProtected

namespace TrustPolicyEvaluator

def knownKeys (evaluator : TrustPolicyEvaluator) : List KnownKey :=
  (evaluator.store.map TrustStoreProtected.knownKeys).getD []

def recipientSets (evaluator : TrustPolicyEvaluator) : List RecipientSetRecord :=
  (evaluator.store.map TrustStoreProtected.recipientSets).getD []

end TrustPolicyEvaluator

inductive KnownKeyReview where
  | required
  | skipped
deriving DecidableEq, Repr

/-- What one read may be excused from. -/
structure ReadTrustExceptions where
  knownKeyReview : KnownKeyReview
  acceptedNonMember : Option (MemberHandle × Kid)
deriving DecidableEq

namespace ReadTrustExceptions

/-- No exception. -/
def none : ReadTrustExceptions := ⟨.required, Option.none⟩

def withKnownKeyReview (exceptions : ReadTrustExceptions) (review : KnownKeyReview) :
    ReadTrustExceptions :=
  { exceptions with knownKeyReview := review }

def acceptingNonMember (exceptions : ReadTrustExceptions) (memberHandle : MemberHandle)
    (kid : Kid) : ReadTrustExceptions :=
  { exceptions with acceptedNonMember := some (memberHandle, kid) }

end ReadTrustExceptions

/-- What a read is for. -/
inductive ReadOperation where
  | fileDecrypt
  | kvEntry (key : String)
  | kvEntries
  | kvList
  | kvEnvironment
deriving DecidableEq

/-! ## Review requests -/

inductive TrustReviewKind where
  | knownKey
  | recipientSet
  | changedRecipientSet
deriving DecidableEq, Repr

/-- The recipients an earlier approval stored, for display. -/
structure ArtifactRecipientSetSnapshot where
  recipientKids : List String
  recipientHandleHints : List RecipientHandleHint
deriving DecidableEq

def ArtifactRecipientSetSnapshot.fromRecord (record : RecipientSetRecord) :
    ArtifactRecipientSetSnapshot :=
  ⟨record.recipientKids, record.recipientHandleHints.getD []⟩

/-- A review that is open. -/
structure TrustReviewRequest where
  kind : TrustReviewKind
  subjectHandle : Option MemberHandle
  kid : Option Kid
  knownKeyCandidate : Option KnownKeyReviewCandidate
  sid : Option Uuid
  recipientKids : List Kid
  recipientHandleHints : List TrustRecipientHandleHint
  approvedRecipientSet : Option ArtifactRecipientSetSnapshot
deriving DecidableEq

inductive TrustDecision where
  | trusted
  | reviewRequired (requests : List TrustReviewRequest)
deriving DecidableEq

/-- Without a request, an operation is trusted. -/
def decisionOf (requests : List TrustReviewRequest) : TrustDecision :=
  if requests.isEmpty then .trusted else .reviewRequired requests

theorem decisionOf_trusted {requests : List TrustReviewRequest} :
    decisionOf requests = .trusted ↔ requests = [] := by
  cases requests with
  | nil => exact ⟨fun _ => rfl, fun _ => rfl⟩
  | cons request requests => exact ⟨nofun, nofun⟩

/-- The review of a key. -/
def knownKeyReviewRequest (publicKey : LoadedPublicKey) : TrustReviewRequest :=
  let candidate : KnownKeyReviewCandidate := ⟨publicKey⟩
  ⟨.knownKey, some candidate.subjectHandle, some candidate.kid, some candidate, none, [], [],
    none⟩

/-- Ask for the review of a key, once. -/
def pushKnownKeyReviewRequest (requests : List TrustReviewRequest)
    (publicKey : LoadedPublicKey) : List TrustReviewRequest :=
  let candidate : KnownKeyReviewCandidate := ⟨publicKey⟩
  let duplicate := requests.any fun request =>
    decide (request.kind = .knownKey ∧ request.subjectHandle = some candidate.subjectHandle
      ∧ request.kid = some candidate.kid)
  if duplicate then requests else requests ++ [knownKeyReviewRequest publicKey]

def TrustRecipientHandleHint.fromModel (hint : RecipientHandleHint) :
    Except Error TrustRecipientHandleHint := do
  let kid ← Kid.fromCanonical hint.kid
  let recipientHandle ← MemberHandle.tryFrom hint.recipientHandle
  pure ⟨kid, recipientHandle⟩

/-- The review of a recipient set. -/
def recipientReviewRequest (kind : TrustReviewKind) (current : ArtifactRecipientSet)
    (approved : Option RecipientSetRecord) : Except Error TrustReviewRequest := do
  let recipientKids ← current.recipientKids.mapM Kid.fromCanonical
  let hints ← current.recipientHandleHints.mapM TrustRecipientHandleHint.fromModel
  pure ⟨kind, none, none, none, some current.sid, recipientKids, hints,
    approved.map ArtifactRecipientSetSnapshot.fromRecord⟩

/-! ## Recipient sets -/

/-- The recipients of an artifact, under review. -/
structure RecipientSetSubject where
  inner : ArtifactRecipientSet
  recipientKids : List Kid
deriving DecidableEq

inductive RecipientSetJudgment where
  | accepted
  | missing
  | changed (approved : RecipientSetRecord)
deriving DecidableEq

/-- Match recipients against the set that is approved for their artifact. -/
def judgeRecipientSet (records : List RecipientSetRecord) (current : ArtifactRecipientSet) :
    RecipientSetJudgment :=
  match records.find? fun record => record.sid = current.sid.text with
  | none => .missing
  | some record =>
    if record.recipientKids = current.recipientKids then .accepted else .changed record

/-- A recipient whose handle in the artifact is not that of the active member with its kid. -/
structure RecipientHandleMismatch where
  kid : String
  artifactRecipientHandle : String
  activeMemberHandle : String
deriving DecidableEq

def findRecipientHandleMismatch (current : ArtifactRecipientSet)
    (members : CurrentMemberSnapshot) : Option RecipientHandleMismatch :=
  current.recipientHandleHints.findSome? fun hint => do
    let activeMember ← members.get hint.kid
    let activeMemberHandle := activeMember.document.protect.subjectHandle
    if activeMemberHandle = hint.recipientHandle then none
    else some ⟨hint.kid, hint.recipientHandle, activeMemberHandle⟩

def findInactiveRecipientKid (current : ArtifactRecipientSet) (members : CurrentMemberSnapshot) :
    Option String :=
  current.recipientKids.find? fun kid => (members.get kid).isNone

/-- The only recipient is the executing member. -/
def isSelfOnlyRecipientSet (current : ArtifactRecipientSet) (members : CurrentMemberSnapshot)
    (self : SelfTrustSet) : Except Error Bool :=
  match current.recipientKids with
  | [kid] =>
    match members.get kid with
    | none => .ok false
    | some activeMember => do
      let identity ← TrustIdentity.fromPublicKey activeMember.document
      self.containsIdentity identity
  | _ => .ok false

def buildInactiveRecipientError (kid : String) : Error :=
  .verify "E_ARTIFACT_RECIPIENT_NOT_ACTIVE"
    (s!"Artifact recipient kid is not active.\nKid: {kid}\n" ++
      "The artifact must be rewrapped before writing.")

def enforceRecipientHandleConsistency (subject : RecipientSetSubject)
    (members : CurrentMemberSnapshot) : Except Error Unit :=
  match findRecipientHandleMismatch subject.inner members with
  | none => .ok ()
  | some mismatch => .error (.verify "E_RECIPIENT_SET_HANDLE_MISMATCH"
      (s!"Artifact recipient label differs from members/active.\nKid: {mismatch.kid}\n" ++
        s!"Artifact label: {mismatch.artifactRecipientHandle}\n" ++
        s!"Active label: {mismatch.activeMemberHandle}"))

section Evaluation

variable (C : Crypto)

namespace RecipientSetSubject

def fromInner (inner : ArtifactRecipientSet) : Except Error RecipientSetSubject := do
  let recipientKids ← inner.recipientKids.mapM Kid.fromCanonical
  pure ⟨inner, recipientKids⟩

/-- The recipients an artifact is wrapped for. -/
def fromVerified (artifact : VerifiedArtifact) : Except Error RecipientSetSubject := do
  let inner ← ArtifactRecipientSet.fromWrapItems C artifact.sid artifact.wrapItems
  fromInner inner

/-- The recipients an output will be wrapped for. -/
def fromOutputRecipients (sid : Uuid) (recipients : RecipientKeys) :
    Except Error RecipientSetSubject := do
  let inner ← ArtifactRecipientSet.fromPublicKeys C sid
    (recipients.keys.map fun key => key.document)
  fromInner inner

end RecipientSetSubject

/-- The keys the executing member recognizes as its own. -/
def buildSelfTrust (keyCtx : KeyContext) : SelfTrustSet :=
  ⟨some keyCtx.inner.memberHandle, [C.verifyingKey keyCtx.inner.signingKey], keyCtx.keystore⟩

namespace TrustPolicyEvaluator

/-- The trust store has to be the executing member's. -/
def enforceStoreOwner (evaluator : TrustPolicyEvaluator) (keyCtx : KeyContext) :
    Except Error Unit :=
  match evaluator.store with
  | none => .ok ()
  | some store =>
    if store.ownerHandle = keyCtx.inner.memberHandle.text then .ok ()
    else .error (.invalidArgument (s!"Trust store owner_handle '{store.ownerHandle}' does not " ++
      s!"match key context member_handle '{keyCtx.inner.memberHandle.text}'"))

/-- The key that writes has to be the executing member's active key. -/
def enforceMutationKeyCurrent (evaluator : TrustPolicyEvaluator) (keyCtx : KeyContext) :
    Except Error Unit :=
  match evaluator.members.get keyCtx.inner.kid.text with
  | none => .error (.verify "E_TRUST_NON_MEMBER"
      (s!"Mutation key is not a current active member.\n" ++
        s!"member: {keyCtx.inner.memberHandle.text}\nkid: {keyCtx.inner.kid.text}"))
  | some current => do
    -- the handle is compared first: of another member's key nothing else is looked at
    let isCurrent ←
      if current.document.protect.subjectHandle = keyCtx.inner.memberHandle.text then
        matchesPublicKey C keyCtx.inner current.document
      else pure false
    if isCurrent then pure ()
    else throw (.verify "E_TRUST_ACTIVE_MEMBER_MISMATCH"
      (s!"Mutation key '{keyCtx.inner.kid.text}' does not match current member " ++
        s!"'{keyCtx.inner.memberHandle.text}'"))

/-- Judge the signer of an artifact. -/
def evaluateSigner (evaluator : TrustPolicyEvaluator) (signerPublicKey : Option LoadedPublicKey)
    (self : SelfTrustSet) : Except Error (List TrustReviewRequest) :=
  match signerPublicKey with
  | none => .error (.verify "E_SIGNER_PUB_MISSING"
      "Required signer_pub is missing from verified proof")
  | some publicKey => do
    let identity ← TrustIdentity.fromPublicKey publicKey.document
    let judgment ← judgeSignerTrust identity evaluator.members evaluator.knownKeys self
    match ← enforceSignerJudgment judgment with
    | .trusted => pure []
    | .needsApproval _ _ => pure [knownKeyReviewRequest publicKey]

/-- Ask for the review of the keys that are neither one's own nor approved. -/
def evaluateRecipientPublicKeys (evaluator : TrustPolicyEvaluator)
    (publicKeys : List LoadedPublicKey) (self : SelfTrustSet)
    (requests : List TrustReviewRequest) : Except Error (List TrustReviewRequest) := do
  let identities ← publicKeys.mapM fun key => TrustIdentity.fromPublicKey key.document
  enforceRecipientIntegrity evaluator.knownKeys identities
  let pending ← judgeRecipientsTrust evaluator.knownKeys self identities
  pending.foldlM (fun requests identity =>
    match publicKeys.find? fun key => kidOf key = identity.kid.text with
    | some publicKey => pure (pushKnownKeyReviewRequest requests publicKey)
    | none => throw (.invalidOperation "Reviewed key disappeared")) requests

/-- Judge the recipients of an artifact that are active members; the other kids are returned. -/
def evaluateRecipientKeys (evaluator : TrustPolicyEvaluator) (subject : RecipientSetSubject)
    (self : SelfTrustSet) (requests : List TrustReviewRequest) :
    Except Error (List Kid × List TrustReviewRequest) := do
  enforceRecipientHandleConsistency subject evaluator.members
  let publicKeys := subject.recipientKids.filterMap fun kid => evaluator.members.get kid.text
  let unresolved := subject.recipientKids.filter fun kid =>
    (evaluator.members.get kid.text).isNone
  let requests ← evaluator.evaluateRecipientPublicKeys publicKeys self requests
  pure (unresolved, requests)

/-- A signer that is no member is accepted when it is exactly the one a review accepted. -/
def acceptReviewedNonMember (signerPublicKey : Option LoadedPublicKey)
    (exceptions : ReadTrustExceptions) (error : Error) :
    Except Error (List TrustReviewRequest) :=
  match signerPublicKey with
  | none => .error error
  | some publicKey => do
    let identity ← TrustIdentity.fromPublicKey publicKey.document
    if exceptions.acceptedNonMember = some (identity.memberHandle, identity.kid) then pure []
    else throw error

/-- Judge the signer, with the exception for an accepted non-member. -/
def evaluateSignerWithExceptions (evaluator : TrustPolicyEvaluator)
    (signerPublicKey : Option LoadedPublicKey) (self : SelfTrustSet)
    (exceptions : ReadTrustExceptions) : Except Error (List TrustReviewRequest) :=
  match evaluator.evaluateSigner signerPublicKey self with
  | .ok requests => .ok requests
  | .error (.verify rule message) =>
    if rule = "E_TRUST_NON_MEMBER" then
      acceptReviewedNonMember signerPublicKey exceptions (.verify rule message)
    else .error (.verify rule message)
  | .error e => .error e

/-- Drop the key reviews of a read that skips them. -/
def skipKnownKeyReview (review : KnownKeyReview) (requests : List TrustReviewRequest) :
    List TrustReviewRequest :=
  match review with
  | .required => requests
  | .skipped => requests.filter fun request => request.kind ≠ .knownKey

/-- The reviews a read is waiting for. -/
def evaluateReadArtifact (evaluator : TrustPolicyEvaluator)
    (signerPublicKey : Option LoadedPublicKey) (subject : RecipientSetSubject)
    (keyCtx : KeyContext) (exceptions : ReadTrustExceptions) :
    Except Error (List TrustReviewRequest) := do
  evaluator.enforceStoreOwner keyCtx
  let self := buildSelfTrust C keyCtx
  let requests ← evaluator.evaluateSignerWithExceptions signerPublicKey self exceptions
  let (_, requests) ← evaluator.evaluateRecipientKeys subject self requests
  pure (skipKnownKeyReview exceptions.knownKeyReview requests)

/-- An accepted non-member never lets an environment be read. -/
def enforceReadExceptions (operation : ReadOperation) (exceptions : ReadTrustExceptions) :
    Except Error Unit :=
  if operation = .kvEnvironment ∧ exceptions.acceptedNonMember.isSome then
    .error (.invalidOperation
      "A non-member signer exception cannot authorize environment decryption")
  else .ok ()

def evaluateReadRequests (evaluator : TrustPolicyEvaluator) (artifact : VerifiedArtifact)
    (keyCtx : KeyContext) (operation : ReadOperation) (exceptions : ReadTrustExceptions) :
    Except Error (List TrustReviewRequest) := do
  enforceReadExceptions operation exceptions
  let subject ← RecipientSetSubject.fromVerified C artifact
  evaluator.evaluateReadArtifact C artifact.signerPublicKey subject keyCtx exceptions

/-- The decision on a read. -/
def evaluateRead (evaluator : TrustPolicyEvaluator) (artifact : VerifiedArtifact)
    (keyCtx : KeyContext) (operation : ReadOperation) (exceptions : ReadTrustExceptions) :
    Except Error TrustDecision := do
  let requests ← evaluator.evaluateReadRequests C artifact keyCtx operation exceptions
  pure (decisionOf requests)

/-! ## Outputs -/

/-- The kids of an output are those of the active members, each once. -/
def enforceOutputKidSetCurrent (evaluator : TrustPolicyEvaluator) (outputKids : List String) :
    Except Error Unit :=
  if ¬matchesKidSet evaluator.members outputKids ∨ ¬outputKids.Nodup then
    .error (.verify "E_TRUST_REJECTED"
      "Output recipients must match all current members/active keys")
  else .ok ()

/-- An output recipient's statement is the active member's. -/
def enforceOutputRecipientCurrent (evaluator : TrustPolicyEvaluator) (recipient : PublicKey) :
    Except Error Unit :=
  match judgePublicKeyMatch evaluator.members recipient with
  | .matched => .ok ()
  | .missing => .error (buildInactiveRecipientError recipient.protect.kid)
  | .documentMismatch => .error (.verify "E_ARTIFACT_RECIPIENT_KEY_MISMATCH"
      s!"Output recipient kid '{recipient.protect.kid}' differs from members/active")

/-- The recipients an artifact is wrapped for are active members. -/
def enforceArtifactRecipientsCurrent (evaluator : TrustPolicyEvaluator)
    (subject : RecipientSetSubject) : Except Error Unit := do
  enforceRecipientHandleConsistency subject evaluator.members
  match findInactiveRecipientKid subject.inner evaluator.members with
  | some kid => throw (buildInactiveRecipientError kid)
  | none => pure ()

/-- The recipients of an output are approved as a set, or are the executing member alone. -/
def evaluateArtifactRecipientSet (evaluator : TrustPolicyEvaluator)
    (subject : RecipientSetSubject) (self : SelfTrustSet) (requests : List TrustReviewRequest) :
    Except Error (List TrustReviewRequest) := do
  let selfOnly ← isSelfOnlyRecipientSet subject.inner evaluator.members self
  -- an artifact for oneself alone needs no approval
  if selfOnly then pure requests
  else
    match judgeRecipientSet evaluator.recipientSets subject.inner with
    | .accepted => pure requests
    | .missing => do
      let request ← recipientReviewRequest .recipientSet subject.inner none
      pure (requests ++ [request])
    | .changed approved => do
      let request ← recipientReviewRequest .changedRecipientSet subject.inner (some approved)
      pure (requests ++ [request])

def evaluateOutputRecipientKeys (evaluator : TrustPolicyEvaluator) (recipients : RecipientKeys)
    (self : SelfTrustSet) (requests : List TrustReviewRequest) :
    Except Error (List TrustReviewRequest) := do
  recipients.keys.forM fun key => evaluator.enforceOutputRecipientCurrent key.document
  evaluator.evaluateRecipientPublicKeys
    (recipients.keys.map VerifiedRecipientKey.toLoadedPublicKey) self requests

/-- The reviews the recipients of an output are waiting for. -/
def evaluateKvOutputRecipients (evaluator : TrustPolicyEvaluator) (output : RecipientSetSubject)
    (recipients : RecipientKeys) (self : SelfTrustSet) (requests : List TrustReviewRequest) :
    Except Error (List TrustReviewRequest) := do
  evaluator.enforceOutputKidSetCurrent (recipients.keys.map VerifiedRecipientKey.kid)
  let requests ← evaluator.evaluateOutputRecipientKeys recipients self requests
  evaluator.evaluateArtifactRecipientSet output self requests

/-! ## Writes -/

/-- The reviews a write to a kv document is waiting for. -/
def kvMutationRequests (evaluator : TrustPolicyEvaluator) (artifact : VerifiedArtifact)
    (recipients : RecipientKeys) (keyCtx : KeyContext) :
    Except Error (List TrustReviewRequest) := do
  evaluator.enforceStoreOwner keyCtx
  evaluator.enforceMutationKeyCurrent C keyCtx
  let self := buildSelfTrust C keyCtx
  let input ← RecipientSetSubject.fromVerified C artifact
  let output ← RecipientSetSubject.fromOutputRecipients C artifact.sid recipients
  let requests ← evaluator.evaluateSigner artifact.signerPublicKey self
  evaluator.enforceArtifactRecipientsCurrent input
  evaluator.evaluateKvOutputRecipients output recipients self requests

/-- The decision on a write to a kv document. -/
def evaluateKvMutation (evaluator : TrustPolicyEvaluator) (artifact : VerifiedArtifact)
    (recipients : RecipientKeys) (keyCtx : KeyContext) : Except Error TrustDecision := do
  let requests ← evaluator.kvMutationRequests C artifact recipients keyCtx
  pure (decisionOf requests)

/-- The reviews a rewrap's output is waiting for. -/
def preflightRewrapOutput (evaluator : TrustPolicyEvaluator) (sid : Uuid)
    (recipients : RecipientKeys) (keyCtx : KeyContext) (requests : List TrustReviewRequest) :
    Except Error (List TrustReviewRequest) := do
  evaluator.enforceStoreOwner keyCtx
  evaluator.enforceMutationKeyCurrent C keyCtx
  let self := buildSelfTrust C keyCtx
  let output ← RecipientSetSubject.fromOutputRecipients C sid recipients
  evaluator.evaluateKvOutputRecipients output recipients self requests

/-- The reviews a rewrap is waiting for: its input against the members before promotion, its
    output against those after it. -/
def rewrapRequests (evaluator inputEvaluator : TrustPolicyEvaluator)
    (signerPublicKey : Option LoadedPublicKey) (input : RecipientSetSubject)
    (recipients : RecipientKeys) (keyCtx : KeyContext) (exceptions : ReadTrustExceptions) :
    Except Error (List TrustReviewRequest) := do
  let requests ← inputEvaluator.evaluateReadArtifact C signerPublicKey input keyCtx exceptions
  evaluator.preflightRewrapOutput C input.inner.sid recipients keyCtx requests

/-- The decision on a new kv document. -/
def evaluateNewKvOutput (evaluator : TrustPolicyEvaluator) (sid : Uuid)
    (recipients : RecipientKeys) (keyCtx : KeyContext) : Except Error TrustDecision := do
  let requests ← evaluator.preflightRewrapOutput C sid recipients keyCtx []
  pure (decisionOf requests)

/-- The decision on the recipients of a new file. -/
def preflightOutputRecipientKeys (evaluator : TrustPolicyEvaluator)
    (recipients : List LoadedPublicKey) (self : SelfTrustSet) : Except Error TrustDecision := do
  evaluator.enforceOutputKidSetCurrent (recipients.map kidOf)
  recipients.forM fun recipient => evaluator.enforceOutputRecipientCurrent recipient.document
  let requests ← evaluator.evaluateRecipientPublicKeys recipients self []
  pure (decisionOf requests)

end TrustPolicyEvaluator

end Evaluation

end TrustPolicy
