import Kapsaro.TrustApprovals

/-!
# Trust judgments — whose key a member is looking at

A signer or a recipient is judged against the members of the workspace, the keys its owner has
approved, and the owner's own keys.

* **`CurrentMemberSnapshot`** — the active members by kid.
* **`KnownKeyMatch`**, **`SelfTrustSet`** — the approved keys, and the keys that are one's own.
* **`judgeSignerTrust`**, **`judgeRecipientsTrust`** — the judgments.
* **`OwnKey`**, **`ExactKnownKey`**, **`ActiveMember`** — what the judgments rest on, said without
  the code.
* **`judgeSignerTrust_trusted`** — who is trusted.
-/

namespace TrustJudgment

open JsonText JsonMembers Limits TextLines Base64Codec WireTexts WireModel DocumentTokens
open Envelope SignedArtifacts KeyedList TrustRecords TrustStore TrustSoundness TrustApprovals

/-! ## Identities -/

/-- The member, the kid and the signing key a judgment is about. -/
structure TrustIdentity where
  memberHandle : MemberHandle
  kid : Kid
  sigX : Bytes
deriving DecidableEq

/-- The identity a stored key statement states. -/
def TrustIdentity.fromPublicKey (publicKey : PublicKey) : Except Error TrustIdentity := do
  let kid ← Kid.fromCanonical publicKey.protect.kid
  let sigX ← decodeBase64urlNopadArray 32 publicKey.protect.keys.sig.x
    "signer Ed25519 public key"
  let memberHandle ← MemberHandle.tryFrom publicKey.protect.subjectHandle
  pure ⟨memberHandle, kid, sigX⟩

/-- A read identity is that of its statement. -/
theorem TrustIdentity.fromPublicKey_ok {publicKey : PublicKey} {identity : TrustIdentity}
    (h : TrustIdentity.fromPublicKey publicKey = .ok identity) :
    identity.memberHandle.text = publicKey.protect.subjectHandle
      ∧ identity.kid.text = publicKey.protect.kid
      ∧ decodeBase64urlNopadArray 32 publicKey.protect.keys.sig.x "signer Ed25519 public key"
        = .ok identity.sigX := by
  obtain ⟨kid, hkid, h⟩ := bind_eq_ok.mp h
  obtain ⟨sigX, hsig, h⟩ := bind_eq_ok.mp h
  obtain ⟨handle, hhandle, h⟩ := bind_eq_ok.mp h
  rw [← Except.ok.inj h]
  rw [Kid.fromCanonical] at hkid
  rw [MemberHandle.tryFrom] at hhandle
  split at hkid
  · split at hhandle
    · exact ⟨by rw [← Except.ok.inj hhandle], by rw [← Except.ok.inj hkid], hsig⟩
    · cases hhandle
  · cases hkid

/-! ## Active members -/

/-- The kid of a key statement. -/
def kidOf (key : LoadedPublicKey) : String :=
  key.document.protect.kid

/-- The active members, one for each kid, in the order of the kids. -/
structure CurrentMemberSnapshot where
  members : List LoadedPublicKey
  sorted : members.Pairwise (fun a b => kidOf a ≤ kidOf b)
  kids : (members.map kidOf).Nodup
deriving DecidableEq

namespace CurrentMemberSnapshot

def get (snapshot : CurrentMemberSnapshot) (kid : String) : Option LoadedPublicKey :=
  snapshot.members.find? fun member => kidOf member = kid

/-- A member is found under its kid, and under no other. -/
theorem get_eq_some {snapshot : CurrentMemberSnapshot} {kid : String} {member : LoadedPublicKey} :
    snapshot.get kid = some member ↔ member ∈ snapshot.members ∧ kidOf member = kid := by
  constructor
  · intro h
    have hkid := List.find?_some (p := fun member => decide (kidOf member = kid)) h
    exact ⟨List.mem_of_find?_eq_some h, of_decide_eq_true hkid⟩
  · rintro ⟨hmem, hkid⟩
    refine find?_eq_of_unique hmem (decide_eq_true hkid) fun other hother hsame => ?_
    exact List.inj_on_of_nodup_map snapshot.kids hother hmem
      ((of_decide_eq_true hsame).trans hkid.symm)

theorem get_eq_none {snapshot : CurrentMemberSnapshot} {kid : String} :
    snapshot.get kid = none ↔ kid ∉ snapshot.members.map kidOf := by
  rw [get, List.find?_eq_none]
  constructor
  · intro h hmem
    obtain ⟨member, hmember, heq⟩ := List.mem_map.mp hmem
    exact h member hmember (decide_eq_true heq)
  · intro h member hmember hsame
    exact h (of_decide_eq_true hsame ▸ List.mem_map_of_mem hmember)

end CurrentMemberSnapshot

/-- No members. -/
def noMembers : CurrentMemberSnapshot :=
  ⟨[], List.Pairwise.nil, List.nodup_nil⟩

/-- One more member, under a kid that is not there yet. -/
def insertMember (snapshot : CurrentMemberSnapshot) (member : LoadedPublicKey)
    (fresh : kidOf member ∉ snapshot.members.map kidOf) : CurrentMemberSnapshot where
  members := snapshot.members.orderedInsert (fun a b => kidOf a ≤ kidOf b) member
  sorted :=
    have : Std.Total fun a b : LoadedPublicKey => kidOf a ≤ kidOf b :=
      ⟨fun a b => le_total (kidOf a) (kidOf b)⟩
    have : IsTrans LoadedPublicKey fun a b => kidOf a ≤ kidOf b :=
      ⟨fun _ _ _ hab hbc => le_trans hab hbc⟩
    List.Pairwise.orderedInsert member _ snapshot.sorted
  kids :=
    (((List.perm_orderedInsert _ member snapshot.members).map kidOf).nodup_iff).mpr
      (List.nodup_cons.mpr ⟨fresh, snapshot.kids⟩)

def insertMembers : CurrentMemberSnapshot → List LoadedPublicKey →
    Except Error CurrentMemberSnapshot
  | snapshot, [] => .ok snapshot
  | snapshot, member :: rest =>
    if h : kidOf member ∉ snapshot.members.map kidOf then
      insertMembers (insertMember snapshot member h) rest
    else .error (.config none
      s!"Ambiguous key: kid '{kidOf member}' found in multiple members")

/-- The active members by kid; a kid may come once. -/
def buildActiveMembersByKid (activeMembers : List LoadedPublicKey) :
    Except Error CurrentMemberSnapshot :=
  insertMembers noMembers activeMembers

inductive CurrentMemberMatch where
  | missing
  | matched
  | memberHandleMismatch (activeMemberHandle : String)
deriving DecidableEq

/-- Match a kid and the handle claimed for it against the active members. -/
def judgeHandleMatch (members : CurrentMemberSnapshot) (kid memberHandle : String) :
    CurrentMemberMatch :=
  match members.get kid with
  | none => .missing
  | some member =>
    if member.document.protect.subjectHandle = memberHandle then .matched
    else .memberHandleMismatch member.document.protect.subjectHandle

inductive CurrentKeyMatch where
  | missing
  | matched
  | documentMismatch
deriving DecidableEq

/-- Match a key statement against the active member that holds its kid. -/
def judgePublicKeyMatch (members : CurrentMemberSnapshot) (key : PublicKey) : CurrentKeyMatch :=
  match members.get key.protect.kid with
  | none => .missing
  | some current => if current.document = key then .matched else .documentMismatch

/-- Whether kids are exactly the kids of the active members. -/
def matchesKidSet (members : CurrentMemberSnapshot) (kids : List String) : Bool :=
  kids.all (fun kid => decide (kid ∈ members.members.map kidOf))
    && (members.members.map kidOf).all fun kid => decide (kid ∈ kids)

/-! ## Known keys -/

inductive KnownKeyMatch where
  | missing
  | exact
  | memberHandleMismatch (knownMemberHandle : String)
deriving DecidableEq

/-- Match an identity against the approved keys. The handles of a verified store are valid, so
    comparing their texts is comparing them. -/
def judgeKnownIdentityMatch (knownKeys : List KnownKey) (identity : TrustIdentity) :
    KnownKeyMatch :=
  match findKnownKey knownKeys identity.kid.text with
  | none => .missing
  | some known =>
    if known.subjectHandle = identity.memberHandle.text then .exact
    else .memberHandleMismatch known.subjectHandle

/-- No recipient's kid is known under another handle. -/
def enforceRecipientIntegrity (knownKeys : List KnownKey) (recipients : List TrustIdentity) :
    Except Error Unit :=
  recipients.forM fun recipient =>
    match judgeKnownIdentityMatch knownKeys recipient with
    | .memberHandleMismatch known => .error
        (buildKidIntegrityAnomalyError recipient.kid.text known recipient.memberHandle.text)
    | _ => .ok ()

/-! ## One's own keys -/

/-- Read access to the key statements in the local keystore. -/
abbrev Keystore := MemberHandle → Kid → Except Error LoadedPublicKey

/-- A member, the kid and the public half of one of its keys. -/
structure LocalKeyIdentity where
  memberHandle : MemberHandle
  kid : Kid
  sigX : Bytes
deriving DecidableEq

inductive PublicKeyMatch where
  | isMatch
  | memberHandleMismatch
  | kidMismatch
  | signaturePublicKeyMismatch
deriving DecidableEq

/-- Compare a stored key statement against a local key. -/
def LocalKeyIdentity.checkPublicKey (identity : LocalKeyIdentity) (publicKey : PublicKey) :
    Except Error PublicKeyMatch :=
  if publicKey.protect.subjectHandle ≠ identity.memberHandle.text then .ok .memberHandleMismatch
  else if publicKey.protect.kid ≠ identity.kid.text then .ok .kidMismatch
  else do
    let publicSigX ← decodeBase64urlNopadArray 32 publicKey.protect.keys.sig.x
      "Ed25519 public key"
    if publicSigX ≠ identity.sigX then pure .signaturePublicKeyMismatch else pure .isMatch

/-- The keys a member recognizes as its own. -/
structure SelfTrustSet where
  memberHandle : Option MemberHandle
  sigXs : List Bytes
  keystore : Option Keystore

namespace SelfTrustSet

/-- Look an identity up in the local keystore. -/
def loadKeystoreIdentity (self : SelfTrustSet) (identity : TrustIdentity) : Except Error Bool :=
  match self.memberHandle, self.keystore with
  | some memberHandle, some keystore =>
    match keystore memberHandle identity.kid with
    -- a key that is not stored is not one's own; an unreadable one is an error
    | .error (.notFound _) => .ok false
    | .error e => .error e
    | .ok publicKey => do
      let expected : LocalKeyIdentity := ⟨memberHandle, identity.kid, identity.sigX⟩
      match ← expected.checkPublicKey publicKey.document with
      | .isMatch => pure true
      | .signaturePublicKeyMismatch => pure false
      | .memberHandleMismatch => throw (.config none
          (s!"Local self key member_handle mismatch for kid '{identity.kid.text}': expected " ++
            s!"'{memberHandle.text}', got '{publicKey.document.protect.subjectHandle}'"))
      | .kidMismatch => throw (.config none
          (s!"Local self key kid mismatch for member '{memberHandle.text}': expected " ++
            s!"'{identity.kid.text}', got '{publicKey.document.protect.kid}'"))
  -- no keystore to look into
  | _, _ => .ok false

/-- Whether an identity is the member's own. -/
def containsIdentity (self : SelfTrustSet) (identity : TrustIdentity) : Except Error Bool :=
  match self.memberHandle with
  | none => .ok false
  | some memberHandle =>
    if identity.memberHandle ≠ memberHandle then .ok false
    else if identity.sigX ∈ self.sigXs then .ok true
    else self.loadKeystoreIdentity identity

end SelfTrustSet

/-- The member and the kid of a key that needs approval. -/
structure KnownKeyIdentity where
  memberHandle : MemberHandle
  kid : Kid
deriving DecidableEq

/-! ## The judgments -/

/-- The recipients that are neither one's own nor approved. -/
def judgeRecipientsTrust (knownKeys : List KnownKey) (self : SelfTrustSet) :
    List TrustIdentity → Except Error (List KnownKeyIdentity)
  | [] => .ok []
  | recipient :: rest => do
    let own ← self.containsIdentity recipient
    let pending ← judgeRecipientsTrust knownKeys self rest
    if own || judgeKnownIdentityMatch knownKeys recipient = .exact then pure pending
    else pure (⟨recipient.memberHandle, recipient.kid⟩ :: pending)

/-- The verdict on a signer. -/
inductive SignerJudgment where
  | trusted
  | needsApproval (memberHandle : MemberHandle) (kid : Kid)
  | nonMember (memberHandle : MemberHandle) (kid : Kid)
  | activeMemberMismatch (memberHandle : MemberHandle) (kid : Kid)
      (activeMemberHandle : MemberHandle)
  | knownKeyIntegrityAnomaly (memberHandle : MemberHandle) (kid : Kid)
      (knownMemberHandle : String)
deriving DecidableEq

def buildKnownKeyJudgment (signer : TrustIdentity) : KnownKeyMatch → SignerJudgment
  | .exact => .trusted
  | .missing => .needsApproval signer.memberHandle signer.kid
  | .memberHandleMismatch known =>
    .knownKeyIntegrityAnomaly signer.memberHandle signer.kid known

def judgeMissingActiveMember (signer : TrustIdentity) (self : SelfTrustSet) :
    Except Error SignerJudgment := do
  let own ← self.containsIdentity signer
  if own then pure .trusted else pure (.nonMember signer.memberHandle signer.kid)

/-- Judge a signer: membership first, then one's own keys, then the approved ones. -/
def judgeSignerTrust (signer : TrustIdentity) (activeMembers : CurrentMemberSnapshot)
    (knownKeys : List KnownKey) (self : SelfTrustSet) : Except Error SignerJudgment :=
  match judgeHandleMatch activeMembers signer.kid.text signer.memberHandle.text with
  | .missing => judgeMissingActiveMember signer self
  | .memberHandleMismatch activeMemberHandle => do
    let active ← MemberHandle.tryFrom activeMemberHandle
    pure (.activeMemberMismatch signer.memberHandle signer.kid active)
  | .matched => do
    let own ← self.containsIdentity signer
    if own then pure .trusted
    else pure (buildKnownKeyJudgment signer (judgeKnownIdentityMatch knownKeys signer))

inductive SignerAcceptance where
  | trusted
  | needsApproval (memberHandle : MemberHandle) (kid : Kid)
deriving DecidableEq

/-- The verdicts that refuse a signer, as errors. -/
def enforceSignerJudgment : SignerJudgment → Except Error SignerAcceptance
  | .trusted => .ok .trusted
  | .needsApproval memberHandle kid => .ok (.needsApproval memberHandle kid)
  | .nonMember memberHandle kid => .error (.verify "E_TRUST_NON_MEMBER"
      s!"Signer is not in active members.\nsigner: {memberHandle.text}\nkid: {kid.text}")
  | .activeMemberMismatch memberHandle kid activeMemberHandle =>
    .error (.verify "E_TRUST_ACTIVE_MEMBER_MISMATCH"
      (s!"Signer '{memberHandle.text}' (kid: {kid.text}) does not match current active member " ++
        s!"'{activeMemberHandle.text}'"))
  | .knownKeyIntegrityAnomaly memberHandle kid knownMemberHandle =>
    .error (buildKidIntegrityAnomalyError kid.text knownMemberHandle memberHandle.text)

/-! ## What the judgments rest on -/

/-- A member's statement with this kid, handle and signing key is in the keystore. -/
def InKeystore (keystore : Keystore) (identity : TrustIdentity) : Prop :=
  ∃ key, keystore identity.memberHandle identity.kid = .ok key
    ∧ key.document.protect.subjectHandle = identity.memberHandle.text
    ∧ key.document.protect.kid = identity.kid.text
    ∧ decodeBase64urlNopadArray 32 key.document.protect.keys.sig.x "Ed25519 public key"
      = .ok identity.sigX

/-- The identity is the executing member's: its handle, with a signing key at hand or a statement
    in its keystore. -/
def OwnKey (self : SelfTrustSet) (identity : TrustIdentity) : Prop :=
  self.memberHandle = some identity.memberHandle
    ∧ (identity.sigX ∈ self.sigXs
      ∨ ∃ keystore, self.keystore = some keystore ∧ InKeystore keystore identity)

/-- The identity is approved: the key known under its kid has its handle. -/
def ExactKnownKey (knownKeys : List KnownKey) (identity : TrustIdentity) : Prop :=
  ∃ known, findKnownKey knownKeys identity.kid.text = some known
    ∧ known.subjectHandle = identity.memberHandle.text

/-- An active member has this kid, and this handle. -/
def ActiveMember (members : CurrentMemberSnapshot) (identity : TrustIdentity) : Prop :=
  ∃ member ∈ members.members, kidOf member = identity.kid.text
    ∧ member.document.protect.subjectHandle = identity.memberHandle.text

/-- No active member has this kid. -/
def Inactive (members : CurrentMemberSnapshot) (identity : TrustIdentity) : Prop :=
  identity.kid.text ∉ members.members.map kidOf

theorem checkPublicKey_isMatch {identity : LocalKeyIdentity} {publicKey : PublicKey} :
    identity.checkPublicKey publicKey = .ok .isMatch
      ↔ publicKey.protect.subjectHandle = identity.memberHandle.text
        ∧ publicKey.protect.kid = identity.kid.text
        ∧ decodeBase64urlNopadArray 32 publicKey.protect.keys.sig.x "Ed25519 public key"
          = .ok identity.sigX := by
  rw [LocalKeyIdentity.checkPublicKey]
  by_cases hhandle : publicKey.protect.subjectHandle = identity.memberHandle.text
  · rw [if_neg fun h => h hhandle]
    by_cases hkid : publicKey.protect.kid = identity.kid.text
    · rw [if_neg fun h => h hkid]
      constructor
      · intro h
        obtain ⟨sigX, hsig, h⟩ := bind_eq_ok.mp h
        by_cases hsame : sigX = identity.sigX
        · exact ⟨hhandle, hkid, hsame ▸ hsig⟩
        · rw [if_pos hsame] at h
          cases h
      · rintro ⟨_, _, hsig⟩
        exact bind_eq_ok.mpr ⟨_, hsig, if_neg fun h => h rfl⟩
    · rw [if_pos hkid]
      exact ⟨nofun, fun h => absurd h.2.1 hkid⟩
  · rw [if_pos hhandle]
    exact ⟨nofun, fun h => absurd h.1 hhandle⟩

/-- **ONE'S OWN KEYS**: a recognized identity is the member's own, and an own one is recognized. -/
theorem containsIdentity_true {self : SelfTrustSet} {identity : TrustIdentity} :
    self.containsIdentity identity = .ok true ↔ OwnKey self identity := by
  rw [SelfTrustSet.containsIdentity, OwnKey]
  cases hhandle : self.memberHandle with
  | none => exact ⟨nofun, fun h => by cases h.1⟩
  | some memberHandle =>
    dsimp only
    by_cases hsame : identity.memberHandle = memberHandle
    · subst hsame
      rw [if_neg fun h => h rfl]
      by_cases hsig : identity.sigX ∈ self.sigXs
      · rw [if_pos hsig]
        exact ⟨fun _ => ⟨rfl, Or.inl hsig⟩, fun _ => rfl⟩
      · rw [if_neg hsig, SelfTrustSet.loadKeystoreIdentity, hhandle]
        cases hkeystore : self.keystore with
        | none =>
          exact ⟨nofun, fun ⟨_, h⟩ => h.elim (absurd · hsig) fun ⟨_, h, _⟩ => by cases h⟩
        | some keystore =>
          dsimp only
          constructor
          · intro h
            refine ⟨rfl, Or.inr ⟨keystore, rfl, ?_⟩⟩
            cases hload : keystore identity.memberHandle identity.kid with
            | error e => rw [hload] at h; cases e <;> cases h
            | ok key =>
              rw [hload] at h
              obtain ⟨verdict, hverdict, h⟩ := bind_eq_ok.mp h
              cases verdict with
              | isMatch => exact ⟨key, hload, checkPublicKey_isMatch.mp hverdict⟩
              | _ => cases h
          · rintro ⟨_, hmem | ⟨other, hother, key, hload, hkey⟩⟩
            · exact absurd hmem hsig
            · obtain rfl := Option.some.inj hother
              rw [hload]
              exact bind_eq_ok.mpr ⟨.isMatch, checkPublicKey_isMatch.mpr hkey, rfl⟩
    · rw [if_pos hsame]
      exact ⟨nofun, fun h => absurd (Option.some.inj h.1).symm hsame⟩

theorem judgeKnownIdentityMatch_exact {knownKeys : List KnownKey} {identity : TrustIdentity} :
    judgeKnownIdentityMatch knownKeys identity = .exact ↔ ExactKnownKey knownKeys identity := by
  rw [judgeKnownIdentityMatch, ExactKnownKey]
  cases findKnownKey knownKeys identity.kid.text with
  | none => exact ⟨nofun, fun ⟨_, h, _⟩ => by cases h⟩
  | some known =>
    by_cases hhandle : known.subjectHandle = identity.memberHandle.text
    · exact ⟨fun _ => ⟨known, rfl, hhandle⟩, fun _ => if_pos hhandle⟩
    · refine ⟨fun h => ?_, fun ⟨_, h, heq⟩ => absurd (Option.some.inj h ▸ heq) hhandle⟩
      have hne : (if known.subjectHandle = identity.memberHandle.text then KnownKeyMatch.exact
        else .memberHandleMismatch known.subjectHandle) = .exact := h
      rw [if_neg hhandle] at hne
      cases hne

theorem judgeHandleMatch_matched {members : CurrentMemberSnapshot} {identity : TrustIdentity} :
    judgeHandleMatch members identity.kid.text identity.memberHandle.text = .matched
      ↔ ActiveMember members identity := by
  rw [judgeHandleMatch]
  constructor
  · intro h
    cases hget : members.get identity.kid.text with
    | none => rw [hget] at h; cases h
    | some member =>
      rw [hget] at h
      obtain ⟨hmem, hkid⟩ := CurrentMemberSnapshot.get_eq_some.mp hget
      by_cases hhandle : member.document.protect.subjectHandle = identity.memberHandle.text
      · exact ⟨member, hmem, hkid, hhandle⟩
      · dsimp only at h
        rw [if_neg hhandle] at h
        cases h
  · rintro ⟨member, hmem, hkid, hhandle⟩
    rw [CurrentMemberSnapshot.get_eq_some.mpr ⟨hmem, hkid⟩]
    exact if_pos hhandle

theorem judgeHandleMatch_missing {members : CurrentMemberSnapshot} {identity : TrustIdentity} :
    judgeHandleMatch members identity.kid.text identity.memberHandle.text = .missing
      ↔ Inactive members identity := by
  rw [judgeHandleMatch, Inactive, ← CurrentMemberSnapshot.get_eq_none]
  cases members.get identity.kid.text with
  | none => exact ⟨fun _ => rfl, fun _ => rfl⟩
  | some member =>
    refine ⟨fun h => ?_, fun h => by cases h⟩
    dsimp only at h
    split at h <;> cases h

/-- **WHO IS TRUSTED**: an active member's key that is one's own or approved, or an own key that is
    no longer active; and no one else. -/
theorem judgeSignerTrust_trusted {signer : TrustIdentity} {members : CurrentMemberSnapshot}
    {knownKeys : List KnownKey} {self : SelfTrustSet}
    (h : judgeSignerTrust signer members knownKeys self = .ok .trusted) :
    (ActiveMember members signer ∧ (OwnKey self signer ∨ ExactKnownKey knownKeys signer))
      ∨ (Inactive members signer ∧ OwnKey self signer) := by
  rw [judgeSignerTrust] at h
  cases hmatch : judgeHandleMatch members signer.kid.text signer.memberHandle.text with
  | missing =>
    rw [hmatch] at h
    obtain ⟨own, hown, h⟩ := bind_eq_ok.mp h
    cases own with
    | true =>
      exact Or.inr ⟨judgeHandleMatch_missing.mp hmatch, containsIdentity_true.mp hown⟩
    | false => cases h
  | memberHandleMismatch activeHandle =>
    rw [hmatch] at h
    obtain ⟨active, _, h⟩ := bind_eq_ok.mp h
    cases h
  | matched =>
    rw [hmatch] at h
    obtain ⟨own, hown, h⟩ := bind_eq_ok.mp h
    refine Or.inl ⟨judgeHandleMatch_matched.mp hmatch, ?_⟩
    cases own with
    | true => exact Or.inl (containsIdentity_true.mp hown)
    | false =>
      cases hknown : judgeKnownIdentityMatch knownKeys signer with
      | exact => exact Or.inr (judgeKnownIdentityMatch_exact.mp hknown)
      | missing => rw [hknown] at h; cases h
      | memberHandleMismatch known => rw [hknown] at h; cases h

/-- A signer only needs approval when it is an active member's key that is not known. -/
theorem judgeSignerTrust_needsApproval {signer : TrustIdentity}
    {members : CurrentMemberSnapshot} {knownKeys : List KnownKey} {self : SelfTrustSet}
    {memberHandle : MemberHandle} {kid : Kid}
    (h : judgeSignerTrust signer members knownKeys self = .ok (.needsApproval memberHandle kid)) :
    ActiveMember members signer ∧ self.containsIdentity signer = .ok false
      ∧ judgeKnownIdentityMatch knownKeys signer = .missing := by
  rw [judgeSignerTrust] at h
  cases hmatch : judgeHandleMatch members signer.kid.text signer.memberHandle.text with
  | missing =>
    rw [hmatch] at h
    obtain ⟨own, hown, h⟩ := bind_eq_ok.mp h
    cases own <;> cases h
  | memberHandleMismatch activeHandle =>
    rw [hmatch] at h
    obtain ⟨active, _, h⟩ := bind_eq_ok.mp h
    cases h
  | matched =>
    rw [hmatch] at h
    obtain ⟨own, hown, h⟩ := bind_eq_ok.mp h
    refine ⟨judgeHandleMatch_matched.mp hmatch, ?_⟩
    cases own with
    | true => cases h
    | false =>
      cases hknown : judgeKnownIdentityMatch knownKeys signer with
      | missing => exact ⟨hown, rfl⟩
      | exact => rw [hknown] at h; cases h
      | memberHandleMismatch known => rw [hknown] at h; cases h

/-- An active member's key that is not own is judged by the approved keys. -/
theorem judgeSignerTrust_active {signer : TrustIdentity} {members : CurrentMemberSnapshot}
    {self : SelfTrustSet} (hactive : ActiveMember members signer)
    (hown : self.containsIdentity signer = .ok false) (knownKeys : List KnownKey) :
    judgeSignerTrust signer members knownKeys self
      = .ok (buildKnownKeyJudgment signer (judgeKnownIdentityMatch knownKeys signer)) := by
  rw [judgeSignerTrust, judgeHandleMatch_matched.mpr hactive, hown]
  rfl

/-- One whose kid is recorded for another handle is an anomaly. -/
theorem judgeSignerTrust_anomaly {signer : TrustIdentity} {members : CurrentMemberSnapshot}
    {knownKeys : List KnownKey} {self : SelfTrustSet} (hactive : ActiveMember members signer)
    (hown : self.containsIdentity signer = .ok false) {known : KnownKey}
    (hknown : findKnownKey knownKeys signer.kid.text = some known)
    (hhandle : known.subjectHandle ≠ signer.memberHandle.text) :
    judgeSignerTrust signer members knownKeys self
      = .ok (.knownKeyIntegrityAnomaly signer.memberHandle signer.kid known.subjectHandle) := by
  rw [judgeSignerTrust_active hactive hown, judgeKnownIdentityMatch, hknown]
  dsimp only
  rw [if_neg hhandle]
  rfl

/-- A signer that needs approval needs it for itself. -/
theorem judgeSignerTrust_needsApproval_subject {signer : TrustIdentity}
    {members : CurrentMemberSnapshot} {knownKeys : List KnownKey} {self : SelfTrustSet}
    {memberHandle : MemberHandle} {kid : Kid}
    (h : judgeSignerTrust signer members knownKeys self = .ok (.needsApproval memberHandle kid)) :
    memberHandle = signer.memberHandle ∧ kid = signer.kid := by
  obtain ⟨hactive, hown, hknown⟩ := judgeSignerTrust_needsApproval h
  rw [judgeSignerTrust, judgeHandleMatch_matched.mpr hactive, hown, hknown] at h
  injection Except.ok.inj h with hhandle hkid
  exact ⟨hhandle.symm, hkid.symm⟩

/-- Only a signer under a kid that no active member has is a non-member. -/
theorem judgeSignerTrust_nonMember {signer : TrustIdentity} {members : CurrentMemberSnapshot}
    {knownKeys : List KnownKey} {self : SelfTrustSet} {memberHandle : MemberHandle} {kid : Kid}
    (h : judgeSignerTrust signer members knownKeys self = .ok (.nonMember memberHandle kid)) :
    Inactive members signer ∧ self.containsIdentity signer = .ok false
      ∧ memberHandle = signer.memberHandle ∧ kid = signer.kid := by
  rw [judgeSignerTrust] at h
  cases hmatch : judgeHandleMatch members signer.kid.text signer.memberHandle.text with
  | missing =>
    rw [hmatch] at h
    obtain ⟨own, hown, h⟩ := bind_eq_ok.mp h
    cases own with
    | true => cases h
    | false =>
      injection Except.ok.inj h with hhandle hkid
      exact ⟨judgeHandleMatch_missing.mp hmatch, hown, hhandle.symm, hkid.symm⟩
  | memberHandleMismatch activeHandle =>
    rw [hmatch] at h
    obtain ⟨active, _, h⟩ := bind_eq_ok.mp h
    cases h
  | matched =>
    rw [hmatch] at h
    obtain ⟨own, hown, h⟩ := bind_eq_ok.mp h
    cases own with
    | true => cases h
    | false =>
      cases hknown : judgeKnownIdentityMatch knownKeys signer <;>
        (rw [hknown] at h; cases h)

end TrustJudgment
