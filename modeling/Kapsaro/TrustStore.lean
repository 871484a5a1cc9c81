import Kapsaro.TrustRecords
import Mathlib.Data.String.Lemmas

/-!
# Trust store — the approval records and what may be done to them

The two record lists of a trust store: the operations that edit them, and the conditions a loaded
store is checked for beyond its signature.

* **`addKnownKey`**, **`removeKnownKey`** — known keys, at most one for each kid.
* **`ArtifactRecipientSet`** — the recipients of an artifact in canonical form: sorted distinct
  kids, and their hash.
* **`upsertRecipientSet`**, **`removeRecipientSet`** — approved sets, at most one for each sid.
* **`purgeRecords`** — drop the records approved before a point in time.
* **`validateTrustStore`** — the checks of a loaded store that do not look at its signature.
* **`Sound`** — what these checks come to, as a property of the content.
-/

namespace TrustStore

open JsonText JsonMembers Limits TextLines Base64Codec WireTexts WireModel DocumentTokens
open Envelope KeyedList TrustRecords

/-- The third-party parsers: of UUIDs, and of points in time. -/
structure TextParsers where
  uuid : String → Option Uuid
  /-- the point in time an RFC 3339 text names -/
  rfc3339 : String → Option Int

/-- What the parsers promise. -/
structure TextParsers.Lawful (P : TextParsers) : Prop where
  /-- The form a UUID is written in is read back. -/
  uuid_text : ∀ sid : Uuid, P.uuid sid.text = some sid

/-- The current time as the program writes it: a time its own parser reads. -/
structure CurrentTime (P : TextParsers) extends Timestamp where
  parses : (P.rfc3339 text).isSome = true

/-! ## Kids -/

/-- A kid query in canonical characters: hyphens dropped, letters in upper case. -/
def normalizeKidQuery (input : String) : Except Error String := do
  let query := String.ofList ((input.toList.filter (· ≠ '-')).map Char.toUpper)
  if query.utf8ByteSize = 0 ∨ 32 < query.utf8ByteSize then
    throw (.invalidArgument "kid must be 1 to 32 Crockford Base32 characters after normalization")
  if !query.toList.all isCrockfordChar then
    throw (.invalidArgument "kid must use Crockford Base32 characters only")
  pure query

def normalizeKid (input : String) : Except Error String := do
  let canonical ← normalizeKidQuery input
  if canonical.utf8ByteSize ≠ 32 then
    throw (.invalidArgument "kid must be 32 Crockford Base32 characters after normalization")
  pure canonical

/-- The one kid among the candidates that a query names. -/
def resolveUniqueKid (candidates : List String) (query : String) : Except Error String := do
  let normalized ← normalizeKidQuery query
  let kids ← candidates.mapM normalizeKid
  match kids.filter fun kid => normalized.toList.isPrefixOf kid.toList with
  | [resolved] => pure resolved
  | [] => throw (.notFound s!"kid '{query}' not found")
  | found =>
    let displays := String.intercalate ", " (found.map SignedArtifacts.formatKidDisplayLossy)
    throw (.invalidArgument s!"kid '{query}' is ambiguous; matches: {displays}")

/-! ## Known keys -/

def buildKidIntegrityAnomalyError (kid existingMemberHandle candidateMemberHandle : String) :
    Error :=
  .verify "E_TRUST_KID_INTEGRITY_ANOMALY"
    (s!"Known key kid has conflicting subject handle.\nKid: {kid}\n" ++
      s!"Existing subject: {existingMemberHandle}\nCandidate subject: {candidateMemberHandle}")

def findKnownKey (keys : List KnownKey) (kid : String) : Option KnownKey :=
  keys.find? fun key => key.kid = kid

/-- A kid that is known already must be known under the same handle. -/
def enforceKidIntegrity (keys : List KnownKey) (candidateKid candidateMemberHandle : String) :
    Except Error Unit :=
  match findKnownKey keys candidateKid with
  | none => .ok ()
  | some existing =>
    if existing.subjectHandle ≠ candidateMemberHandle then
      .error (buildKidIntegrityAnomalyError candidateKid existing.subjectHandle
        candidateMemberHandle)
    else .ok ()

/-- Add a key unless its kid is known; says whether the list changed. -/
def addKnownKey (keys : List KnownKey) (newKey : KnownKey) :
    Except Error (Bool × List KnownKey) := do
  enforceKidIntegrity keys newKey.kid newKey.subjectHandle
  if (findKnownKey keys newKey.kid).isSome then
    pure (false, keys)
  else
    pure (true, keys ++ [newKey])

/-- Remove the key a query names. -/
def removeKnownKey (keys : List KnownKey) (kid : String) :
    Except Error (KnownKey × List KnownKey) := do
  let resolvedKid ← resolveUniqueKid (keys.map KnownKey.kid) kid
  match findKnownKey keys resolvedKid with
  | none => throw (.notFound s!"kid '{kid}' not found in known_keys")
  | some key => pure (key, keys.eraseP fun key => key.kid = resolvedKid)

/-! ## Recipient sets -/

/-- The recipients of one artifact: the kids in canonical order, and their hash. -/
structure ArtifactRecipientSet where
  sid : Uuid
  recipientKids : List String
  recipientSetHash : String
  recipientHandleHints : List RecipientHandleHint
deriving DecidableEq

/-- Collect kids into a sorted set; a kid may come once. -/
def normalizeRecipientKidsFrom : List String → List String → Except Error (List String)
  | seen, [] => .ok seen
  | seen, kid :: rest => do
    let kid ← Kid.fromCanonical kid
    if kid.text ∈ seen then
      throw (.verify "E_RECIPIENT_SET_DUPLICATE_KID"
        s!"Duplicate kid '{kid.text}' in recipient set")
    normalizeRecipientKidsFrom (seen.orderedInsert (· ≤ ·) kid.text) rest

def normalizeRecipientKids (recipientKids : List String) : Except Error (List String) :=
  normalizeRecipientKidsFrom [] recipientKids

/-- The hints of wrap items, in the order of the kids. -/
def buildRecipientHandleHints (wrapItems : List WrapItem) :
    Except Error (List RecipientHandleHint) := do
  let hints ← wrapItems.mapM fun item => do
    let kid ← Kid.fromCanonical item.kid
    let handle ← MemberHandle.tryFrom item.recipientHandle
    pure (⟨kid.text, handle.text⟩ : RecipientHandleHint)
  pure (sortBy RecipientHandleHint.kid hints)

/-- Every hint names another recipient. -/
def validateRecipientHandleHints (recipientKids : List String) :
    List String → List RecipientHandleHint → Except Error Unit
  | _, [] => .ok ()
  | seen, hint :: rest => do
    let kid ← Kid.fromCanonical hint.kid
    let _ ← MemberHandle.tryFrom hint.recipientHandle
    if kid.text ∉ recipientKids ∨ kid.text ∈ seen then
      throw (.invalidArgument
        s!"recipient handle hint does not identify one unique recipient kid: '{kid.text}'")
    validateRecipientHandleHints recipientKids (kid.text :: seen) rest

section RecipientSets

variable (C : Crypto)

/-- The hash of a canonical kid list. -/
def computeRecipientSetHash (recipientKids : List String) : Except Error String := do
  let canonical ← jcsNormalize (.obj [("domain", .str hashDomainRecipientSetV1),
    ("recipient_kids", .arr (recipientKids.map Json.str))])
  pure (encodeBase64urlNopad (C.sha256 canonical).bytes)

namespace ArtifactRecipientSet

def new (sid : Uuid) (recipientKids : List String) : Except Error ArtifactRecipientSet := do
  let recipientKids ← normalizeRecipientKids recipientKids
  let recipientSetHash ← computeRecipientSetHash C recipientKids
  pure ⟨sid, recipientKids, recipientSetHash, []⟩

def fromWrapItems (sid : Uuid) (wrapItems : List WrapItem) : Except Error ArtifactRecipientSet := do
  let set ← new C sid (wrapItems.map WrapItem.kid)
  let hints ← buildRecipientHandleHints wrapItems
  pure { set with recipientHandleHints := hints }

/-- The hint of a key statement. -/
def hintOf (key : PublicKey) : RecipientHandleHint :=
  ⟨key.protect.kid, key.protect.subjectHandle⟩

def fromPublicKeys (sid : Uuid) (publicKeys : List PublicKey) :
    Except Error ArtifactRecipientSet := do
  let set ← new C sid (publicKeys.map fun key => key.protect.kid)
  pure { set with recipientHandleHints := sortBy RecipientHandleHint.kid (publicKeys.map hintOf) }

def fromParts (sid : Uuid) (recipientKids : List String) (hints : List RecipientHandleHint) :
    Except Error ArtifactRecipientSet := do
  let set ← new C sid recipientKids
  validateRecipientHandleHints set.recipientKids [] hints
  pure { set with recipientHandleHints := sortBy RecipientHandleHint.kid hints }

/-- The record of an approval. -/
def intoRecord (set : ArtifactRecipientSet) (approvedAt : String) : RecipientSetRecord where
  sid := set.sid.text
  recipientKids := set.recipientKids
  recipientSetHash := set.recipientSetHash
  approvedAt := approvedAt
  approvedVia := .manualReview
  recipientHandleHints :=
    if set.recipientHandleHints.isEmpty then none else some set.recipientHandleHints

end ArtifactRecipientSet

/-- Put the record of a set in the place of the one for its sid, or at the end; says whether the
    list changed. -/
def upsertRecipientSet (records : List RecipientSetRecord) (current : ArtifactRecipientSet)
    (approvedAt : String) : Bool × List RecipientSetRecord :=
  let candidate := current.intoRecord approvedAt
  match records.find? fun record => record.sid = current.sid.text with
  | none => (true, records ++ [candidate])
  | some record =>
    if record = candidate then (false, records)
    else (true, replaceFirst RecipientSetRecord.sid candidate records)

/-- Remove the record of a sid. -/
def removeRecipientSet (P : TextParsers) (records : List RecipientSetRecord) (sid : String) :
    Except Error (RecipientSetRecord × List RecipientSetRecord) :=
  match P.uuid sid with
  | none => .error (.invalidArgument s!"Invalid sid '{sid}'")
  | some uuid =>
    match records.find? fun record => record.sid = uuid.text with
    | none => .error (.notFound s!"sid '{uuid.text}' not found in recipient_sets")
    | some record => .ok (record, records.eraseP fun record => record.sid = uuid.text)

/-! ## Purging -/

/-- The time of an approval. -/
def parseApprovedAt (P : TextParsers) (field approvedAt : String) : Except Error Int :=
  match P.rfc3339 approvedAt with
  | some instant => .ok instant
  | none => .error (.parse s!"Failed to parse {field} '{approvedAt}'")

/-- The records approved before a point in time, and the others. -/
def purgeRecords {R : Type} (P : TextParsers) (field : String) (approvedAt : R → String)
    (olderThan : Int) : List R → Except Error (List R × List R)
  | [] => .ok ([], [])
  | record :: rest => do
    let approved ← parseApprovedAt P field (approvedAt record)
    let (removed, retained) ← purgeRecords P field approvedAt olderThan rest
    if approved < olderThan then pure (record :: removed, retained)
    else pure (removed, record :: retained)

def purgeKnownKeys (P : TextParsers) (keys : List KnownKey) (olderThan : Int) :
    Except Error (List KnownKey × List KnownKey) :=
  purgeRecords P "known_keys[].approved_at" KnownKey.approvedAt olderThan keys

def purgeRecipientSets (P : TextParsers) (records : List RecipientSetRecord) (olderThan : Int) :
    Except Error (List RecipientSetRecord × List RecipientSetRecord) :=
  purgeRecords P "recipient_sets[].approved_at" RecipientSetRecord.approvedAt olderThan records

/-! ## The checks of a loaded store -/

/-- A timestamp has to be a UTC time. -/
def validateUtcTimestamp (P : TextParsers) (ts field : String) : Except Error Unit :=
  if ts.toList.getLast? ≠ some 'Z' then
    .error (.verify "E_TRUST_TIMESTAMP_NOT_UTC" s!"{field} must end with 'Z' (UTC): '{ts}'")
  else if (P.rfc3339 ts).isNone then
    .error (.verify "E_TRUST_TIMESTAMP_INVALID"
      s!"{field} must be a valid RFC 3339 UTC timestamp: '{ts}'")
  else .ok ()

def validateRecipientSetRecord (P : TextParsers) (record : RecipientSetRecord) :
    Except Error Unit := do
  if (P.uuid record.sid).isNone then
    throw (.verify "E_RECIPIENT_SET_INVALID_SID" "recipient_sets[].sid must be a UUID")
  let normalized ← normalizeRecipientKids record.recipientKids
  -- the hash is over the stored kids, so they have to be in the one order
  if normalized ≠ record.recipientKids then
    throw (.verify "E_RECIPIENT_SET_KIDS_NOT_CANONICAL"
      (s!"recipient_sets entry for sid '{record.sid}' must use sorted canonical " ++
        "recipient_kids"))
  let expectedHash ← computeRecipientSetHash C record.recipientKids
  if expectedHash ≠ record.recipientSetHash then
    throw (.verify "E_RECIPIENT_SET_HASH_MISMATCH"
      s!"recipient_set_hash mismatch for sid '{record.sid}'")
  validateUtcTimestamp P record.approvedAt "recipient_sets[].approved_at"

def validateKnownKeysUniqueness : List String → List KnownKey → Except Error Unit
  | _, [] => .ok ()
  | seen, key :: rest => do
    if key.kid ∈ seen then
      throw (.verify "E_TRUST_DUPLICATE_KID" s!"Duplicate kid '{key.kid}' in known_keys")
    validateKnownKeysUniqueness (key.kid :: seen) rest

def validateRecipientSets (P : TextParsers) :
    List String → List RecipientSetRecord → Except Error Unit
  | _, [] => .ok ()
  | seen, record :: rest => do
    if record.sid ∈ seen then
      throw (.verify "E_RECIPIENT_SET_DUPLICATE_SID"
        s!"Duplicate sid '{record.sid}' in recipient_sets")
    validateRecipientSetRecord C P record
    validateRecipientSets P (record.sid :: seen) rest

def validateTimestamps (P : TextParsers) (protect : TrustStoreProtected) : Except Error Unit := do
  validateUtcTimestamp P protect.createdAt "created_at"
  validateUtcTimestamp P protect.updatedAt "updated_at"
  protect.knownKeys.forM fun key =>
    validateUtcTimestamp P key.approvedAt "known_keys[].approved_at"
  protect.recipientSets.forM fun record =>
    validateUtcTimestamp P record.approvedAt "recipient_sets[].approved_at"

def validateSignerIndependentContent (P : TextParsers) (protect : TrustStoreProtected) :
    Except Error Unit := do
  validateKnownKeysUniqueness [] protect.knownKeys
  validateRecipientSets C P [] protect.recipientSets
  validateTimestamps P protect

/-- The checks of a loaded store that its signature plays no part in. -/
def validateTrustStore (P : TextParsers) (doc : TrustStoreDocument) : Except Error Unit := do
  if !conforms TrustStoreDocument.schema doc.toJson then
    throw (.schema "Trust store does not conform to its schema")
  if doc.protect.format ≠ localTrustV1 then
    throw (.verify "E_TRUST_FORMAT_MISMATCH"
      s!"Expected format '{localTrustV1}', got '{doc.protect.format}'")
  validateSignerIndependentContent C P doc.protect

end RecipientSets

end TrustStore
