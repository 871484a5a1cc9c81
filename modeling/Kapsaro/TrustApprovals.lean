import Kapsaro.ToyTrust

/-!
# Trust approvals — what a member's decisions do to the trust store

A reviewed key or recipient set becomes an approval, an approval becomes a record, and the edited
store is signed and saved. Whatever the sequence of operations, what is saved passes the checks of
the loader.

* **`KnownKeyApproval`**, **`RecipientSetApproval`** — what a member agreed to.
* **`StoreOperation`** — the ways to edit a trust store.
* **`judgeTrustStoreWrite`**, **`saveTrustStoreForWrite`** — whether the result is written, and
  what is written.
* **`storeOperations_sound`** — every operation keeps the conditions a loaded store is checked for.
-/

namespace TrustApprovals

open JsonText JsonMembers Limits TextLines Base64Codec WireTexts WireModel DocumentTokens
open Envelope SignedArtifacts KeyedList TrustRecords TrustStore TrustSoundness
open ToyCrypto ToyDocuments ToyTrust

/-! ## Known-key approvals -/

/-- A verified key statement, presented for review. -/
structure KnownKeyReviewCandidate where
  publicKey : LoadedPublicKey
deriving DecidableEq

namespace KnownKeyReviewCandidate

theorem subjectHandle_valid (candidate : KnownKeyReviewCandidate) :
    isMemberHandleText candidate.publicKey.document.protect.subjectHandle = true := by
  have h := candidate.publicKey.wellFormed
  simp only [PublicKey.wellFormed, PublicKeyProtected.wellFormed, Bool.and_eq_true] at h
  exact h.1.1.1.1.1.1.1.2

theorem kid_valid (candidate : KnownKeyReviewCandidate) :
    isKidText candidate.publicKey.document.protect.kid = true := by
  have h := candidate.publicKey.wellFormed
  simp only [PublicKey.wellFormed, PublicKeyProtected.wellFormed, Bool.and_eq_true] at h
  exact h.1.1.1.1.1.1.2

def subjectHandle (candidate : KnownKeyReviewCandidate) : MemberHandle :=
  ⟨_, candidate.subjectHandle_valid⟩

def kid (candidate : KnownKeyReviewCandidate) : Kid :=
  ⟨_, candidate.kid_valid⟩

def sshAttestorPublicKey (candidate : KnownKeyReviewCandidate) : String :=
  candidate.publicKey.document.protect.attestation.pub

def githubAccountId (candidate : KnownKeyReviewCandidate) : Option Nat :=
  (candidate.publicKey.document.protect.bindingClaims.bind BindingClaims.githubAccount).map
    GithubAccount.id

def hasGithubBinding (candidate : KnownKeyReviewCandidate) : Bool :=
  candidate.githubAccountId.isSome

/-- The attestor key of a statement is not empty. -/
theorem sshAttestorPublicKey_ne (candidate : KnownKeyReviewCandidate) :
    candidate.sshAttestorPublicKey ≠ "" := by
  have h := candidate.publicKey.wellFormed
  simp only [PublicKey.wellFormed, PublicKeyProtected.wellFormed, Attestation.wellFormed,
    isSingleLine, Bool.and_eq_true] at h
  intro hempty
  have hchars := h.1.1.1.2.1.2.1.1
  rw [sshAttestorPublicKey] at hempty
  rw [hempty] at hchars
  cases hchars

/-- The account a statement claims has an id the schema admits. -/
theorem githubAccountId_range {candidate : KnownKeyReviewCandidate} {id : Nat}
    (h : candidate.githubAccountId = some id) : 1 ≤ id ∧ id ≤ maxSafeInteger := by
  have hform := candidate.publicKey.wellFormed
  simp only [PublicKey.wellFormed, PublicKeyProtected.wellFormed, Bool.and_eq_true] at hform
  have hclaims := hform.1.1.1.1.2
  rw [githubAccountId] at h
  cases hb : candidate.publicKey.document.protect.bindingClaims with
  | none => rw [hb] at h; cases h
  | some claims =>
    rw [hb, Option.bind_some] at h
    rw [hb] at hclaims
    obtain ⟨account, haccount, rfl⟩ := Option.map_eq_some_iff.mp h
    rw [Option.all_some, BindingClaims.wellFormed, haccount, Option.all_some,
      GithubAccount.wellFormed, Bool.and_eq_true] at hclaims
    exact of_decide_eq_true hclaims.1

end KnownKeyReviewCandidate

/-- A GitHub account that was verified for one candidate. -/
structure VerifiedGitHubEvidence where
  account : GithubAccount
  subjectHandle : MemberHandle
  kid : Kid
  sshAttestorPublicKey : String
deriving DecidableEq

def VerifiedGitHubEvidence.matchesCandidate (evidence : VerifiedGitHubEvidence)
    (candidate : KnownKeyReviewCandidate) : Bool :=
  decide (evidence.subjectHandle = candidate.subjectHandle) && decide (evidence.kid = candidate.kid)
    && decide (evidence.sshAttestorPublicKey = candidate.sshAttestorPublicKey)
    && decide (candidate.githubAccountId = some evidence.account.id)

/-- What was seen while a key was approved. -/
structure KnownKeyApprovalEvidence where
  verifiedGithub : Option VerifiedGitHubEvidence
  sshAttestorPublicKey : Option String
deriving DecidableEq

namespace KnownKeyApprovalEvidence

def none : KnownKeyApprovalEvidence := ⟨Option.none, Option.none⟩

/-- The evidence belongs to the candidate, and a claimed account was verified. -/
def validateFor (evidence : KnownKeyApprovalEvidence) (candidate : KnownKeyReviewCandidate) :
    Except Error Unit := do
  if candidate.hasGithubBinding
      && !evidence.verifiedGithub.any (·.matchesCandidate candidate) then
    throw (.verify "E_TRUST_APPROVAL_EVIDENCE_MISMATCH"
      "Known-key approval requires GitHub evidence verified for this candidate")
  if evidence.verifiedGithub.any (!·.matchesCandidate candidate) then
    throw (.verify "E_TRUST_APPROVAL_EVIDENCE_MISMATCH"
      "GitHub evidence belongs to a different known-key candidate")
  if evidence.sshAttestorPublicKey.any (· ≠ candidate.sshAttestorPublicKey) then
    throw (.verify "E_TRUST_APPROVAL_EVIDENCE_MISMATCH"
      "SSH attestor evidence differs from the reviewed candidate")
  pure ()

/-- The evidence of a record; nothing is recorded when there is none. -/
def intoModel (evidence : KnownKeyApprovalEvidence) : Option KnownKeyEvidence :=
  let githubAccount := evidence.verifiedGithub.map fun verified =>
    (⟨verified.account.id, some verified.account.login⟩ : KnownKeyGithubAccount)
  if githubAccount.isNone && evidence.sshAttestorPublicKey.isNone then Option.none
  else some ⟨githubAccount, evidence.sshAttestorPublicKey⟩

/-- The login of the verified account, as GitHub gave it, is not empty. -/
def LoginPresent (evidence : KnownKeyApprovalEvidence) : Prop :=
  ∀ verified, evidence.verifiedGithub = some verified → verified.account.login ≠ ""

end KnownKeyApprovalEvidence

/-- A key a member agreed to, with evidence that belongs to it. -/
structure KnownKeyApproval where
  candidate : KnownKeyReviewCandidate
  evidence : KnownKeyApprovalEvidence
  valid : evidence.validateFor candidate = .ok ()

/-- The record of an approval. -/
def KnownKeyApproval.intoKnownKey (approval : KnownKeyApproval) (approvedAt : String) :
    KnownKey where
  kid := approval.candidate.kid.text
  subjectHandle := approval.candidate.subjectHandle.text
  approvedAt := approvedAt
  approvedVia := .manualReview
  evidence := approval.evidence.intoModel
  extra := []

/-! ## Recipient-set approvals -/

/-- The handle a recipient was shown under. -/
structure TrustRecipientHandleHint where
  kid : Kid
  recipientHandle : MemberHandle
deriving DecidableEq

def TrustRecipientHandleHint.intoModel (hint : TrustRecipientHandleHint) : RecipientHandleHint :=
  ⟨hint.kid.text, hint.recipientHandle.text⟩

/-- The recipients of an artifact a member agreed to. -/
structure RecipientSetApproval where
  sid : Uuid
  recipientKids : List Kid
  recipientHandleHints : List TrustRecipientHandleHint
deriving DecidableEq

/-- A trust update a member agreed to. -/
inductive TrustApproval where
  | knownKey (approval : KnownKeyApproval)
  | recipientSet (approval : RecipientSetApproval)

namespace TrustApproval

/-- Approve a key with evidence. -/
def ofKnownKey (candidate : KnownKeyReviewCandidate) (evidence : KnownKeyApprovalEvidence) :
    Except Error TrustApproval :=
  match h : evidence.validateFor candidate with
  | .ok () => .ok (.knownKey ⟨candidate, evidence, h⟩)
  | .error e => .error e

section

variable (C : Crypto)

/-- Approve a recipient set; every recipient needs a hint. -/
def ofRecipientSet (sid : Uuid) (recipientKids : List Kid)
    (hints : List TrustRecipientHandleHint) : Except Error TrustApproval := do
  if hints.length ≠ recipientKids.length then
    throw (.invalidArgument "recipient handle hints must identify every recipient kid")
  let _ ← ArtifactRecipientSet.fromParts C sid (recipientKids.map Kid.text)
    (hints.map TrustRecipientHandleHint.intoModel)
  pure (.recipientSet ⟨sid, recipientKids, hints⟩)

end

end TrustApproval

/-! ## Applying approvals -/

section Apply

variable (C : Crypto) {P : TextParsers}

/-- Record an approved key. The store's owner is never recorded. -/
def applyKnownKeyApproval (owner : MemberHandle) (protect : TrustStoreProtected)
    (key : KnownKeyApproval) (now : CurrentTime P) :
    Except Error (Bool × TrustStoreProtected) := do
  let knownKey := key.intoKnownKey now.text
  if knownKey.subjectHandle = owner.text then
    throw (.invalidOperation s!"Self member '{owner.text}' must not be stored in known_keys")
  let (changed, keys) ← addKnownKey protect.knownKeys knownKey
  pure (changed, { protect with knownKeys := keys })

/-- Record an approved recipient set. -/
def applyRecipientSetApproval (protect : TrustStoreProtected) (approval : RecipientSetApproval)
    (now : CurrentTime P) : Except Error (Bool × TrustStoreProtected) := do
  let recipientSet ← ArtifactRecipientSet.fromParts C approval.sid
    (approval.recipientKids.map Kid.text)
    (approval.recipientHandleHints.map TrustRecipientHandleHint.intoModel)
  let (changed, sets) := upsertRecipientSet protect.recipientSets recipientSet now.text
  pure (changed, { protect with recipientSets := sets })

def applyApprovalUpdate (owner : MemberHandle) (protect : TrustStoreProtected)
    (approval : TrustApproval) (now : CurrentTime P) :
    Except Error (Bool × TrustStoreProtected) :=
  match approval with
  | .knownKey key => applyKnownKeyApproval owner protect key now
  | .recipientSet set => applyRecipientSetApproval C protect set now

/-- Apply approvals in order, each at its own time; says how many changed the store. -/
def applyApprovalsTo (owner : MemberHandle) :
    TrustStoreProtected → List (TrustApproval × CurrentTime P) →
      Except Error (Nat × TrustStoreProtected)
  | protect, [] => .ok (0, protect)
  | protect, (approval, now) :: rest => do
    let (changed, protect) ← applyApprovalUpdate C owner protect approval now
    let (applied, protect) ← applyApprovalsTo owner protect rest
    pure (changed.toNat + applied, protect)

/-! ## The operations -/

/-- A way to edit a trust store. -/
inductive StoreOperation (P : TextParsers) where
  | applyApprovals (approvals : List (TrustApproval × CurrentTime P))
  | removeKnownKey (kid : String)
  | removeRecipientSet (sid : String)
  | purgeKnownKeys (olderThan : Int)
  | purgeRecipientSets (olderThan : Int)
  | resign

/-- Run an operation; says whether the content changed. -/
def StoreOperation.mutate (owner : MemberHandle) (protect : TrustStoreProtected) :
    StoreOperation P → Except Error (Bool × TrustStoreProtected)
  | .applyApprovals approvals => do
    let (applied, protect) ← applyApprovalsTo C owner protect approvals
    pure (decide (0 < applied), protect)
  | .removeKnownKey kid => do
    let (_, keys) ← TrustStore.removeKnownKey protect.knownKeys kid
    pure (true, { protect with knownKeys := keys })
  | .removeRecipientSet sid => do
    let (_, sets) ← TrustStore.removeRecipientSet P protect.recipientSets sid
    pure (true, { protect with recipientSets := sets })
  | .purgeKnownKeys olderThan => do
    let (removed, keys) ← TrustStore.purgeKnownKeys P protect.knownKeys olderThan
    pure (!removed.isEmpty, { protect with knownKeys := keys })
  | .purgeRecipientSets olderThan => do
    let (removed, sets) ← TrustStore.purgeRecipientSets P protect.recipientSets olderThan
    pure (!removed.isEmpty, { protect with recipientSets := sets })
  | .resign => pure (false, protect)

/-- The content a mutation acts on, with the kid that signed the stored document. -/
structure TrustStoreState where
  protect : TrustStoreProtected
  signerKid : Option Kid

/-- The content of a store that was never written. -/
def buildEmptyTrustStore (owner : MemberHandle) (now : CurrentTime P) : TrustStoreState where
  protect := {
    format := localTrustV1
    ownerHandle := owner.text
    createdAt := now.text
    updatedAt := now.text
    knownKeys := []
    recipientSets := [] }
  signerKid := none

/-! ## Writing -/

/-- How a mutation reaches the stored document. -/
inductive TrustStoreWrite where
  /-- the stored document already says what would be written -/
  | skip
  /-- the content is unchanged, but another key has to sign it -/
  | resign
  /-- the content changed, and is written with a fresh timestamp -/
  | save
deriving DecidableEq, Repr

def judgeTrustStoreWrite (changed : Bool) (storedSignerKid : Option String)
    (currentSignerKid : String) : TrustStoreWrite :=
  if changed then .save
  else
    match storedSignerKid with
    | some stored => if stored ≠ currentSignerKid then .resign else .skip
    | none => .skip

/-- Sign the content of a store. -/
def signTrustStore (protect : TrustStoreProtected) (signing : SigningContext) :
    Except Error TrustStoreDocument := do
  let canonical ← jcsNormalize protect.toJson
  pure ⟨protect, ⟨signatureEd25519, signing.signerKid.text,
    encodeBase64urlNopad (C.sign signing.signingKey canonical).bytes⟩⟩

/-- The document a write leaves behind; `none` when nothing is written. Only a changed content
    moves `updated_at`. -/
def saveTrustStoreForWrite (protect : TrustStoreProtected) (signing : SigningContext)
    (now : CurrentTime P) : TrustStoreWrite → Except Error (Option TrustStoreDocument)
  | .skip => .ok none
  | .resign => (signTrustStore C protect signing).map some
  | .save => (signTrustStore C { protect with updatedAt := now.text } signing).map some

end Apply

/-! ## Every operation keeps a store sound -/

section Soundness

variable {C : Crypto} {P : TextParsers}

theorem SoundKeys.sublist {keys keys' : List KnownKey} (h : SoundKeys P keys)
    (hsub : keys'.Sublist keys) : SoundKeys P keys' where
  wellFormed key hkey := h.wellFormed key (hsub.subset hkey)
  kids := h.kids.sublist (hsub.map KnownKey.kid)
  times key hkey := h.times key (hsub.subset hkey)

theorem SoundSets.sublist {sets sets' : List RecipientSetRecord} (h : SoundSets C P sets)
    (hsub : sets'.Sublist sets) : SoundSets C P sets' where
  records record hrecord := h.records record (hsub.subset hrecord)
  sids := h.sids.sublist (hsub.map RecipientSetRecord.sid)

theorem Sound.setKnownKeys {protect : TrustStoreProtected} (h : Sound C P protect)
    {keys : List KnownKey} (hkeys : SoundKeys P keys) :
    Sound C P { protect with knownKeys := keys } :=
  ⟨h.format, h.owner, h.createdForm, h.updatedForm, h.created, h.updated, hkeys, h.sets⟩

theorem Sound.setRecipientSets {protect : TrustStoreProtected} (h : Sound C P protect)
    {sets : List RecipientSetRecord} (hsets : SoundSets C P sets) :
    Sound C P { protect with recipientSets := sets } :=
  ⟨h.format, h.owner, h.createdForm, h.updatedForm, h.created, h.updated, h.keys, hsets⟩

theorem Sound.setUpdatedAt {protect : TrustStoreProtected} (h : Sound C P protect)
    (now : CurrentTime P) : Sound C P { protect with updatedAt := now.text } :=
  ⟨h.format, h.owner, h.createdForm, now.valid, h.created, CurrentTime.utcTime now, h.keys,
    h.sets⟩

/-- What evidence records belongs to the candidate, or is the login GitHub gave. -/
theorem intoModel_wellFormed {candidate : KnownKeyReviewCandidate}
    {evidence : KnownKeyApprovalEvidence} (hvalid : evidence.validateFor candidate = .ok ())
    (hlogin : evidence.LoginPresent) :
    evidence.intoModel.all KnownKeyEvidence.wellFormed = true := by
  rw [KnownKeyApprovalEvidence.validateFor] at hvalid
  obtain ⟨_, hvalid⟩ := throwIf_ok.mp hvalid
  obtain ⟨hmatches, hvalid⟩ := throwIf_ok.mp hvalid
  obtain ⟨hattestor, _⟩ := throwIf_ok.mp hvalid
  rw [KnownKeyApprovalEvidence.intoModel]
  split
  · rfl
  · rw [Option.all_some, KnownKeyEvidence.wellFormed, Bool.and_eq_true]
    constructor
    · cases hgithub : evidence.verifiedGithub with
      | none => rfl
      | some verified =>
        have hmatch : verified.matchesCandidate candidate = true := by
          rw [hgithub, Option.any_some] at hmatches
          simpa using hmatches
        simp only [VerifiedGitHubEvidence.matchesCandidate, Bool.and_eq_true,
          decide_eq_true_iff] at hmatch
        have hrange := KnownKeyReviewCandidate.githubAccountId_range hmatch.2
        rw [Option.map_some, Option.all_some, KnownKeyGithubAccount.wellFormed, Option.all_some,
          Bool.and_eq_true]
        exact ⟨decide_eq_true hrange, decide_eq_true (hlogin verified hgithub)⟩
    · cases hkey : evidence.sshAttestorPublicKey with
      | none => rfl
      | some attestor =>
        rw [hkey, Option.any_some, decide_eq_true_iff, not_not] at hattestor
        rw [Option.all_some, hattestor]
        exact decide_eq_true candidate.sshAttestorPublicKey_ne

theorem intoKnownKey_wellFormed (approval : KnownKeyApproval)
    (hlogin : approval.evidence.LoginPresent) (now : CurrentTime P) :
    (approval.intoKnownKey now.text).wellFormed = true := by
  rw [KnownKey.wellFormed, KnownKeyApproval.intoKnownKey]
  simp only [approval.candidate.kid.valid, approval.candidate.subjectHandle.valid, now.valid,
    intoModel_wellFormed approval.valid hlogin, List.all_nil, Bool.and_self]

/-- A key is only added under a kid that is not there yet. -/
theorem SoundKeys.addKnownKey {keys keys' : List KnownKey} {newKey : KnownKey} {changed : Bool}
    (h : SoundKeys P keys) (hform : newKey.wellFormed = true) (htime : UtcTime P newKey.approvedAt)
    (hadd : TrustStore.addKnownKey keys newKey = .ok (changed, keys')) : SoundKeys P keys' := by
  rw [TrustStore.addKnownKey] at hadd
  obtain ⟨⟨⟩, _, hadd⟩ := bind_eq_ok.mp hadd
  by_cases hknown : (findKnownKey keys newKey.kid).isSome = true
  · rw [if_pos hknown] at hadd
    rw [← (Prod.mk.inj (Except.ok.inj hadd)).2]
    exact h
  · rw [if_neg hknown] at hadd
    rw [← (Prod.mk.inj (Except.ok.inj hadd)).2]
    have hfresh : newKey.kid ∉ keys.map KnownKey.kid := by
      intro hmem
      obtain ⟨key, hkey, heq⟩ := List.mem_map.mp hmem
      refine hknown (List.find?_isSome.mpr ⟨key, hkey, decide_eq_true heq⟩)
    refine ⟨?_, ?_, ?_⟩
    · intro key hkey
      rcases List.mem_append.mp hkey with hin | hnew
      · exact h.wellFormed key hin
      · rw [List.mem_singleton.mp hnew]
        exact hform
    · rw [List.map_append, List.map_singleton]
      exact h.kids.append (List.nodup_singleton _)
        fun kid hkid hnew => hfresh (List.mem_singleton.mp hnew ▸ hkid)
    · intro key hkey
      rcases List.mem_append.mp hkey with hin | hnew
      · exact h.times key hin
      · rw [List.mem_singleton.mp hnew]
        exact htime

/-- Checked hints have valid kids and handles. -/
theorem validateRecipientHandleHints_ok {kids seen : List String}
    {hints : List RecipientHandleHint}
    (h : validateRecipientHandleHints kids seen hints = .ok ()) :
    ∀ hint ∈ hints, hint.wellFormed = true := by
  induction hints generalizing seen with
  | nil => exact fun _ hhint => by cases hhint
  | cons hint hints ih =>
    rw [validateRecipientHandleHints] at h
    obtain ⟨kid, hkid, h⟩ := bind_eq_ok.mp h
    obtain ⟨handle, hhandle, h⟩ := bind_eq_ok.mp h
    obtain ⟨_, h⟩ := throwIf_ok.mp h
    intro other hother
    rcases List.mem_cons.mp hother with rfl | hin
    · rw [Kid.fromCanonical] at hkid
      rw [MemberHandle.tryFrom] at hhandle
      split at hkid
      · split at hhandle
        · rw [RecipientHandleHint.wellFormed, Bool.and_eq_true]
          exact ⟨‹_›, ‹_›⟩
        · cases hhandle
      · cases hkid
    · exact ih h other hin

/-- What a recipient set built from parts says. -/
theorem fromParts_ok {sid : Uuid} {kids : List String} {hints : List RecipientHandleHint}
    {set : ArtifactRecipientSet} (h : ArtifactRecipientSet.fromParts C sid kids hints = .ok set) :
    set.sid = sid ∧ Canonical set.recipientKids ∧ set.recipientKids.Perm kids
      ∧ set.recipientSetHash = recipientSetHashOf C set.recipientKids
      ∧ set.recipientHandleHints = sortBy RecipientHandleHint.kid hints
      ∧ ∀ hint ∈ hints, hint.wellFormed = true := by
  rw [ArtifactRecipientSet.fromParts] at h
  obtain ⟨base, hbase, h⟩ := bind_eq_ok.mp h
  obtain ⟨⟨⟩, hhints, h⟩ := bind_eq_ok.mp h
  rw [ArtifactRecipientSet.new] at hbase
  obtain ⟨normalized, hnormalized, hbase⟩ := bind_eq_ok.mp hbase
  obtain ⟨hash, hhash, hbase⟩ := bind_eq_ok.mp hbase
  rw [computeRecipientSetHash_eq] at hhash
  rw [← Except.ok.inj h, ← Except.ok.inj hbase]
  obtain ⟨hcanonical, hperm⟩ := normalizeRecipientKids_ok hnormalized
  exact ⟨rfl, hcanonical, hperm, (Except.ok.inj hhash).symm, rfl,
    validateRecipientHandleHints_ok hhints⟩

/-- The record of a recipient set in canonical form is sound. -/
theorem intoRecord_sound {set : ArtifactRecipientSet} (hkids : Canonical set.recipientKids)
    (hhash : set.recipientSetHash = recipientSetHashOf C set.recipientKids)
    (hhints : ∀ hint ∈ set.recipientHandleHints, hint.wellFormed = true) (now : CurrentTime P) :
    SoundRecord C P (set.intoRecord now.text) where
  wellFormed := by
    have hkidsForm : set.recipientKids.all isKidText = true := List.all_eq_true.mpr hkids.valid
    have hhintsForm : (set.intoRecord now.text).recipientHandleHints.all
        (fun hints => hints.all RecipientHandleHint.wellFormed) = true := by
      rw [ArtifactRecipientSet.intoRecord]
      dsimp only
      split
      · rfl
      · exact List.all_eq_true.mpr hhints
    rw [RecipientSetRecord.wellFormed, hhintsForm]
    simp only [ArtifactRecipientSet.intoRecord, set.sid.valid, hkidsForm, hhash,
      recipientSetHashOf_sized, now.valid, Bool.and_self]
  canonical := hkids
  hash := hhash
  time := CurrentTime.utcTime now

/-- A record takes the place of the one for its sid, or comes to the end. -/
theorem SoundSets.upsertRecipientSet {sets : List RecipientSetRecord} (h : SoundSets C P sets)
    {set : ArtifactRecipientSet} {now : CurrentTime P}
    (hrecord : SoundRecord C P (set.intoRecord now.text)) :
    SoundSets C P (TrustStore.upsertRecipientSet sets set now.text).2 := by
  rw [TrustStore.upsertRecipientSet]
  cases hfind : sets.find? fun record => record.sid = set.sid.text with
  | none =>
    have hfresh : set.sid.text ∉ sets.map RecipientSetRecord.sid := by
      intro hmem
      obtain ⟨record, hmem, heq⟩ := List.mem_map.mp hmem
      exact List.find?_eq_none.mp hfind record hmem (decide_eq_true heq)
    refine ⟨?_, ?_⟩
    · intro record hmem
      rcases List.mem_append.mp hmem with hin | hnew
      · exact h.records record hin
      · rw [List.mem_singleton.mp hnew]
        exact hrecord
    · show ((sets ++ [set.intoRecord now.text]).map RecipientSetRecord.sid).Nodup
      rw [List.map_append, List.map_singleton]
      refine h.sids.append (List.nodup_singleton _) fun sid hsid hnew => hfresh ?_
      have hsame : sid = set.sid.text := List.mem_singleton.mp hnew
      rwa [hsame] at hsid
  | some record =>
    dsimp only
    split
    · exact h
    · refine ⟨?_, ?_⟩
      · intro other hmem
        rcases mem_of_mem_replaceFirst hmem with rfl | hin
        · exact hrecord
        · exact h.records other hin
      · rw [keys_replaceFirst]
        exact h.sids

theorem applyApprovalUpdate_sound {owner : MemberHandle} {protect protect' : TrustStoreProtected}
    {approval : TrustApproval} {now : CurrentTime P} {changed : Bool} (h : Sound C P protect)
    (hlogin : ∀ key, approval = .knownKey key → key.evidence.LoginPresent)
    (hok : applyApprovalUpdate C owner protect approval now = .ok (changed, protect')) :
    Sound C P protect' := by
  cases approval with
  | knownKey key =>
    rw [applyApprovalUpdate, applyKnownKeyApproval] at hok
    obtain ⟨_, hok⟩ := throwIf_ok.mp hok
    obtain ⟨⟨changed', keys⟩, hadd, hok⟩ := bind_eq_ok.mp hok
    rw [← (Prod.mk.inj (Except.ok.inj hok)).2]
    exact Sound.setKnownKeys h (SoundKeys.addKnownKey h.keys
      (intoKnownKey_wellFormed key (hlogin key rfl) now) (CurrentTime.utcTime now) hadd)
  | recipientSet approval =>
    rw [applyApprovalUpdate, applyRecipientSetApproval] at hok
    obtain ⟨set, hset, hok⟩ := bind_eq_ok.mp hok
    rw [← (Prod.mk.inj (Except.ok.inj hok)).2]
    obtain ⟨_, hkids, _, hhash, hhints, hform⟩ := fromParts_ok hset
    refine Sound.setRecipientSets h (SoundSets.upsertRecipientSet h.sets
      (intoRecord_sound hkids hhash ?_ now))
    intro hint hhint
    rw [hhints] at hhint
    exact hform hint ((perm_sortBy _ _).mem_iff.mp hhint)

/-- The logins that GitHub gave for the approvals are not empty. -/
def LoginsPresent (approvals : List (TrustApproval × CurrentTime P)) : Prop :=
  ∀ approval ∈ approvals, ∀ key, approval.1 = .knownKey key → key.evidence.LoginPresent

theorem applyApprovalsTo_sound {owner : MemberHandle} {protect protect' : TrustStoreProtected}
    {approvals : List (TrustApproval × CurrentTime P)} {applied : Nat} (h : Sound C P protect)
    (hlogins : LoginsPresent approvals)
    (hok : applyApprovalsTo C owner protect approvals = .ok (applied, protect')) :
    Sound C P protect' := by
  induction approvals generalizing protect applied with
  | nil =>
    rw [← (Prod.mk.inj (Except.ok.inj hok)).2]
    exact h
  | cons approval approvals ih =>
    obtain ⟨approval, now⟩ := approval
    rw [applyApprovalsTo] at hok
    obtain ⟨⟨changed, next⟩, hfirst, hok⟩ := bind_eq_ok.mp hok
    obtain ⟨⟨count, last⟩, hrest, hok⟩ := bind_eq_ok.mp hok
    obtain rfl : last = protect' := (Prod.mk.inj (Except.ok.inj hok)).2
    exact ih (applyApprovalUpdate_sound h (hlogins (approval, now) List.mem_cons_self) hfirst)
      (fun other hother => hlogins other (List.mem_cons_of_mem _ hother)) hrest

/-- What a purge retains is a part of the list. -/
theorem purgeRecords_sublist {R : Type} {field : String} {approvedAt : R → String}
    {olderThan : Int} {records removed retained : List R}
    (h : purgeRecords P field approvedAt olderThan records = .ok (removed, retained)) :
    retained.Sublist records := by
  induction records generalizing removed retained with
  | nil =>
    rw [← (Prod.mk.inj (Except.ok.inj h)).2]
  | cons record records ih =>
    rw [purgeRecords] at h
    obtain ⟨approved, _, h⟩ := bind_eq_ok.mp h
    obtain ⟨⟨removed', retained'⟩, hrest, h⟩ := bind_eq_ok.mp h
    dsimp only at h
    by_cases hold : approved < olderThan
    · rw [if_pos hold] at h
      rw [← (Prod.mk.inj (Except.ok.inj h)).2]
      exact (ih hrest).cons record
    · rw [if_neg hold] at h
      rw [← (Prod.mk.inj (Except.ok.inj h)).2]
      exact (ih hrest).cons_cons record

/-- The condition on what third parties told an operation. -/
def StoreOperation.LoginsPresent : StoreOperation P → Prop
  | .applyApprovals approvals => TrustApprovals.LoginsPresent approvals
  | _ => True

/-- **OPERATIONS KEEP A STORE SOUND**: approvals, removals, purges, and re-signing. -/
theorem mutate_sound {owner : MemberHandle} {protect protect' : TrustStoreProtected}
    {operation : StoreOperation P} {changed : Bool} (h : Sound C P protect)
    (hlogins : operation.LoginsPresent)
    (hok : operation.mutate C owner protect = .ok (changed, protect')) : Sound C P protect' := by
  -- Removing and purging leave a sublist, and soundness passes to sublists.
  cases operation with
  | applyApprovals approvals =>
    obtain ⟨⟨applied, next⟩, happly, hok⟩ := bind_eq_ok.mp hok
    rw [← (Prod.mk.inj (Except.ok.inj hok)).2]
    exact applyApprovalsTo_sound h hlogins happly
  | removeKnownKey kid =>
    obtain ⟨⟨key, keys⟩, hremove, hok⟩ := bind_eq_ok.mp hok
    rw [← (Prod.mk.inj (Except.ok.inj hok)).2]
    rw [TrustStore.removeKnownKey] at hremove
    obtain ⟨resolved, _, hremove⟩ := bind_eq_ok.mp hremove
    refine Sound.setKnownKeys h (SoundKeys.sublist h.keys ?_)
    cases hfind : findKnownKey protect.knownKeys resolved with
    | none => rw [hfind] at hremove; cases hremove
    | some found =>
      rw [hfind] at hremove
      rw [← (Prod.mk.inj (Except.ok.inj hremove)).2]
      exact List.eraseP_sublist
  | removeRecipientSet sid =>
    obtain ⟨⟨record, sets⟩, hremove, hok⟩ := bind_eq_ok.mp hok
    rw [← (Prod.mk.inj (Except.ok.inj hok)).2]
    refine Sound.setRecipientSets h (SoundSets.sublist h.sets ?_)
    rw [TrustStore.removeRecipientSet] at hremove
    cases huuid : P.uuid sid with
    | none => rw [huuid] at hremove; cases hremove
    | some uuid =>
      rw [huuid] at hremove
      dsimp only at hremove
      cases hfind : protect.recipientSets.find? fun record => record.sid = uuid.text with
      | none => rw [hfind] at hremove; cases hremove
      | some found =>
        rw [hfind] at hremove
        rw [← (Prod.mk.inj (Except.ok.inj hremove)).2]
        exact List.eraseP_sublist
  | purgeKnownKeys olderThan =>
    obtain ⟨⟨removed, keys⟩, hpurge, hok⟩ := bind_eq_ok.mp hok
    rw [← (Prod.mk.inj (Except.ok.inj hok)).2]
    exact Sound.setKnownKeys h (SoundKeys.sublist h.keys (purgeRecords_sublist hpurge))
  | purgeRecipientSets olderThan =>
    obtain ⟨⟨removed, sets⟩, hpurge, hok⟩ := bind_eq_ok.mp hok
    rw [← (Prod.mk.inj (Except.ok.inj hok)).2]
    exact Sound.setRecipientSets h (SoundSets.sublist h.sets (purgeRecords_sublist hpurge))
  | resign =>
    rw [← (Prod.mk.inj (Except.ok.inj hok)).2]
    exact h

/-- A fresh signature has the form the schema asks for. -/
theorem signTrustStore_ok {protect : TrustStoreProtected} {signing : SigningContext}
    {doc : TrustStoreDocument} (h : signTrustStore C protect signing = .ok doc) :
    doc.protect = protect ∧ doc.signature.wellFormed = true
      ∧ doc.signature.kid = signing.signerKid.text := by
  rw [signTrustStore] at h
  obtain ⟨canonical, _, h⟩ := bind_eq_ok.mp h
  rw [← Except.ok.inj h]
  refine ⟨rfl, ?_, rfl⟩
  have hsig : isB64urlSized 86
      (encodeBase64urlNopad (C.sign signing.signingKey canonical).bytes) = true :=
    isB64urlSized_encode _ (C.sign signing.signingKey canonical).size (by decide)
  simp only [TrustStoreSignature.wellFormed, signing.signerKid.valid, hsig, beq_self_eq_true,
    Bool.and_self]

end Soundness

/-! ## Runs -/

section Runs

variable (C : Crypto) {P : TextParsers}

/-- One operation with the key that signs its result and the time of its write. -/
structure StoreCommit (P : TextParsers) where
  operation : StoreOperation P
  signing : SigningContext
  now : CurrentTime P

/-- Run an operation on a stored document and write the result the way it asks for. -/
def commitOperation (owner : MemberHandle) (doc : TrustStoreDocument) (commit : StoreCommit P) :
    Except Error TrustStoreDocument := do
  let (changed, protect) ← commit.operation.mutate C owner doc.protect
  let write := judgeTrustStoreWrite changed (some doc.signature.kid) commit.signing.signerKid.text
  let written ← saveTrustStoreForWrite C protect commit.signing commit.now write
  pure (written.getD doc)

/-- Operations, one after the other. -/
def commitOperations (owner : MemberHandle) :
    TrustStoreDocument → List (StoreCommit P) → Except Error TrustStoreDocument
  | doc, [] => .ok doc
  | doc, commit :: rest => do
    let doc ← commitOperation C owner doc commit
    commitOperations owner doc rest

variable {C}

/-- One operation takes a store that passes the checks to one that passes them. -/
theorem commitOperation_sound (hP : P.Lawful) {owner : MemberHandle}
    {doc doc' : TrustStoreDocument} {commit : StoreCommit P}
    (haccepted : validateTrustStore C P doc = .ok ()) (hlogins : commit.operation.LoginsPresent)
    (hok : commitOperation C owner doc commit = .ok doc') :
    validateTrustStore C P doc' = .ok () := by
  obtain ⟨hsound, hsignature⟩ := (validateTrustStore_ok hP doc).mp haccepted
  obtain ⟨⟨changed, protect⟩, hmutate, hok⟩ := bind_eq_ok.mp hok
  obtain ⟨written, hwritten, hok⟩ := bind_eq_ok.mp hok
  have hprotect := mutate_sound hsound hlogins hmutate
  rw [← Except.ok.inj hok]
  cases hwrite : judgeTrustStoreWrite changed (some doc.signature.kid)
      commit.signing.signerKid.text with
  | skip =>
    rw [hwrite] at hwritten
    obtain rfl := Except.ok.inj hwritten
    exact haccepted
  | resign =>
    rw [hwrite] at hwritten
    obtain ⟨signed, hsigned, rfl⟩ := map_eq_ok.mp hwritten
    obtain ⟨heq, hform, _⟩ := signTrustStore_ok hsigned
    exact (validateTrustStore_ok hP signed).mpr ⟨heq ▸ hprotect, hform⟩
  | save =>
    rw [hwrite] at hwritten
    obtain ⟨signed, hsigned, rfl⟩ := map_eq_ok.mp hwritten
    obtain ⟨heq, hform, _⟩ := signTrustStore_ok hsigned
    exact (validateTrustStore_ok hP signed).mpr
      ⟨heq ▸ Sound.setUpdatedAt hprotect commit.now, hform⟩

/-- **STORES STAY VALID**: whatever operations are run on a store that passes the checks, in any
    order and with any arguments, each result passes them again. -/
theorem storeOperations_sound (hP : P.Lawful) {owner : MemberHandle}
    {doc doc' : TrustStoreDocument} {commits : List (StoreCommit P)}
    (haccepted : validateTrustStore C P doc = .ok ())
    (hlogins : ∀ commit ∈ commits, commit.operation.LoginsPresent)
    (hok : commitOperations C owner doc commits = .ok doc') :
    validateTrustStore C P doc' = .ok () := by
  induction commits generalizing doc with
  | nil =>
    obtain rfl := Except.ok.inj hok
    exact haccepted
  | cons commit commits ih =>
    obtain ⟨next, hfirst, hrest⟩ := bind_eq_ok.mp hok
    exact ih (commitOperation_sound hP haccepted (hlogins commit List.mem_cons_self) hfirst)
      (fun other hother => hlogins other (List.mem_cons_of_mem _ hother)) hrest

/-- Bob's key claims no account, so that no evidence is asked for. -/
theorem validateFor_toyBob : KnownKeyApprovalEvidence.none.validateFor
    ⟨(toyMember bob bobKid [2]).toLoadedPublicKey⟩ = .ok () := by
  decide

/-- Alice approves bob's key and a set with both of them, and removes the key again. -/
def toyCommits : List (StoreCommit toyParsers) :=
  [StoreOperation.applyApprovals [(.knownKey ⟨⟨(toyMember bob bobKid [2]).toLoadedPublicKey⟩,
        .none, validateFor_toyBob⟩, toyNow),
      (.recipientSet ⟨toySid, [bobKid, toyKid], [⟨bobKid, bob⟩, ⟨toyKid, alice⟩]⟩, toyNow)],
    StoreOperation.removeKnownKey "1111"].map fun operation => ⟨operation, toySigning alice [1],
      toyNow⟩

theorem storeOperations_sound_toy : ∃ doc,
    commitOperations toyCrypto alice toyStore toyCommits = .ok doc
      ∧ validateTrustStore toyCrypto toyParsers doc = .ok () := by
  have hok : (commitOperations toyCrypto alice toyStore toyCommits).isOk = true := by
    decide +kernel
  cases hrun : commitOperations toyCrypto alice toyStore toyCommits with
  | error e => rw [hrun] at hok; cases hok
  | ok doc =>
    refine ⟨doc, rfl, storeOperations_sound lawful_toyParsers accepted_toyStore ?_ hrun⟩
    intro commit hcommit
    rcases List.mem_cons.mp hcommit with rfl | hcommit
    · intro approval happroval key heq verified hverified
      rcases List.mem_cons.mp happroval with rfl | happroval
      · obtain rfl := TrustApproval.knownKey.inj heq
        cases hverified
      · rw [List.mem_singleton.mp happroval] at heq
        cases heq
    · rw [List.mem_singleton.mp hcommit]
      exact trivial

end Runs

end TrustApprovals
