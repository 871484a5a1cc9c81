import Kapsaro.IndexedPrograms
import Kapsaro.LocalKeys

/-!
# The generate command — a new key is stored and made the current one

`service/key/generate.rs`, `service/key/timestamp.rs`, `io/keystore/helpers.rs`: the command that
generates a key, over the key store of all members.  The directories it reads are those of the
moment; its own member's directory is changed call by call.

* **`findMemberByKid`** — whose key a kid names.
* **`generateAndSaveKey`** — generate, check that the kid is new and the expiry lies ahead, store,
  point the marker at the key.
* **`safe_generateAndSaveKey`** — what holds of one entry at every call of the command.
* **`generationLaws`** — a command that is disturbed anywhere leaves the store in order, touches
  nothing but its own key and the marker, and says so when it leaves its key behind.
-/

namespace GenerateCommand

open Limits TextLines JsonText WireTexts WireModel DocumentTokens SignedArtifacts KeyProtection
open TrustStore TrustTransaction TrustEvaluation MemberStore MemberOperations ReviewedRemoval
open KeyExpiry KeyUnlock KidTexts KeyAttestation
open KeyGeneration KeyedList KeystoreChanges.DirectoryCalls
open KeystoreReads KeystoreChanges KeystoreMarker KeystoreSafety KeystoreSelection KeyStorage
open LocalKeys StepPrograms StepPrograms.Steps
open Envelope hiding PrivateKey

/-! ## Whose key it is -/

def listKids (directories : MemberDirectories) (member : MemberHandle) : Except Error (List Kid) :=
  match directories member with
  | none => .ok []
  | some dir => listKidsInVerifiedNamespace dir

/-- The member a kid belongs to; `listing` is what the root of the key store lists. -/
def findMemberByKid (listing : Except Error (List MemberHandle)) (directories : MemberDirectories)
    (kid : String) : Except Error MemberHandle := do
  let memberHandles ← listing
  let candidates ← memberHandles.mapM fun member => do
    let kids ← listKids directories member
    pure (member, kids)
  let resolved ← resolveUniqueKid ((candidates.flatMap Prod.snd).map Kid.text) kid
  match candidates.find? fun candidate => candidate.2.any fun k => k.text = resolved with
  | some (member, _) => pure member
  | none => throw (.notFound s!"kid '{formatKidDisplayLossy kid}' not found in keystore")

/-- No member has a key with this kid. -/
def ensureKidNotInKeystore (listing : Except Error (List MemberHandle))
    (directories : MemberDirectories) (kid : String) : Except Error Unit :=
  match findMemberByKid listing directories kid with
  | .ok owner => .error (.crypto (s!"kid '{formatKidDisplayLossy kid}' already exists in " ++
      s!"keystore (member_handle: '{owner.text}')"))
  | .error (.notFound _) => .ok ()
  | .error error => .error error

/-! ## The command -/

/-- What online verification has found out. -/
inductive OnlineVerificationStatus where
  | notConfigured
  | verified
  | failed

/-- What a key is generated for, and whether it is to become the current one. -/
structure LocalKeyGenerationOptions extends KeyGenerationOptions where
  noActivate : Bool
  githubVerification : OnlineVerificationStatus

/-- What a run draws, and what it reads of the clock and of the root of the key store. -/
structure Surroundings where
  material : KeypairMaterial
  fresh : FreshPrivateKeyProtectionMaterial
  names : PublicationNames
  marker : Uuid
  listing : Except Error (List MemberHandle)
  storedAt : Int
  activatedAt : Int

/-- What the command reports. -/
structure GenerationReport where
  memberHandle : String
  kid : String
  expiresAt : String
  activated : Bool
  sshFingerprint : String
  sshDeterminism : SshDeterminismStatus
  githubVerification : OnlineVerificationStatus

/-- What is reported of a key. -/
def generationReport (options : LocalKeyGenerationOptions) (generated : KeyGenerationResult) :
    GenerationReport where
  memberHandle := generated.memberHandle
  kid := generated.kid
  expiresAt := generated.expiresAt
  activated := !options.noActivate
  sshFingerprint := generated.sshFingerprint
  sshDeterminism := generated.sshDeterminism
  githubVerification := options.githubVerification

/-- The error under another message. -/
def withMessage (error : Error) (message : String) : Error :=
  match error with
  | .schema _ => .schema message
  | .crypto _ => .crypto message
  | .verify rule _ => .verify rule message
  | .io _ => .io message
  | .parse _ => .parse message
  | .config rule _ => .config rule message
  | .notFound _ => .notFound message
  | .invalidArgument _ => .invalidArgument message
  | .invalidOperation _ => .invalidOperation message

def buildActivationFailureError (member : MemberHandle) (kid : Kid) (activationError : Error) :
    Error :=
  withMessage activationError
    (s!"Generated key '{kid.text}' was stored, but activation failed: " ++
      s!"{formatUserMessage activationError}. Run 'kapsaro key list --member-handle " ++
      s!"{member.text}' to inspect the current active key. After repairing the activation " ++
      s!"failure, run 'kapsaro key activate {kid.text} --member-handle {member.text}' to retry, " ++
      s!"or 'kapsaro key remove {kid.text} --member-handle {member.text}' to remove the stored " ++
      "key.")

section Command

variable (C : Crypto) (T : TextParsers) (timeError : String → String)

/-- The expiry still lies ahead. -/
def enforceExpiryAfter (expiresAt : String) (now : Int) : Except Error Unit :=
  match T.rfc3339 expiresAt with
  | none => .error (.parse s!"Invalid key expiry format (expected RFC3339): {timeError expiresAt}")
  | some expiry =>
    if now < expiry then .ok ()
    else .error (.config none (s!"Key expiry '{expiresAt}' was reached before the key could be " ++
      "stored, so the key would already be expired. Run the command again, giving a later " ++
      "expiry with --expires-at or --valid-for."))

/-- Point the marker at the pair that was just stored. -/
def publishGeneratedKey (member : MemberHandle) (kid : Kid) (noActivate : Bool)
    (surroundings : Surroundings) : Change Unit :=
  if noActivate then done (.ok ())
  else mapError (buildActivationFailureError member kid)
    (activateExistingKey T member kid surroundings.activatedAt surroundings.marker)

/-- Store a generated pair in the directory of its member. -/
def storeGeneratedKey (member : MemberHandle) (kid : Kid) (generated : KeyGenerationResult)
    (noActivate : Bool) (surroundings : Surroundings) : Change Unit := do
  saveKeyPairAtomic member kid generated.privateKey generated.publicKey surroundings.names
  publishGeneratedKey T member kid noActivate surroundings

def saveGeneratedKey (generated : KeyGenerationResult) (noActivate : Bool)
    (surroundings : Surroundings) : Steps MemberDirectories Error Unit := do
  let member ← done (MemberHandle.tryFrom generated.memberHandle)
  let kid ← done (kidFromCanonical generated.kid)
  (storeGeneratedKey T member kid generated noActivate surroundings).part member

/-- Generate one key and store it. -/
def generateAndSaveKey (options : LocalKeyGenerationOptions) (surroundings : Surroundings) :
    Steps MemberDirectories Error GenerationReport := do
  -- the directory of the keys is opened, or made
  change .ok
  let generated ← done ((generateKey C options.toKeyGenerationOptions surroundings.material
    surroundings.fresh).mapError KeyError.toError)
  observe fun directories =>
    ensureKidNotInKeystore surroundings.listing directories generated.kid
  done (enforceExpiryAfter T timeError generated.expiresAt surroundings.storedAt)
  saveGeneratedKey T generated options.noActivate surroundings
  pure (generationReport options generated)

end Command

variable {C : Crypto} {T : TextParsers} {timeError : String → String}
variable {member : MemberHandle} {kid : Kid} {name : String} {R : Option MemberEntry → Prop}

/-! ## Activation of a named key -/

/-- Where a named key was activated, the marker names it. -/
theorem safe_activateExistingKey (now : Int) (uuid : Uuid) {s : Keystore} (h : InOrder member s) :
    Safe (InOrder member) (fun r t => r = .ok () → Marked member kid t)
      (activateExistingKey T member kid now uuid) s := by
  refine Safe.bind (keeps_openMember _ _ s h) (fun _ t ht _ => ?_) fun _ _ _ _ hr => by cases hr
  refine Safe.bind (keeps_touch _ t ht) (fun _ u hu _ => ?_) fun _ _ _ _ hr => by cases hr
  refine Safe.bind (keeps_ensureNamespaceSafe _ u hu) (fun _ v hv _ => ?_)
    fun _ _ _ _ hr => by cases hr
  refine Safe.bind (Q := fun r w => r = .ok () → Marked member kid w) (Safe.look ?_)
    (fun _ w hw hmarked => ?_) fun _ _ _ _ hr => by cases hr
  · cases hjudge : inspectKeyActivability T member (v.getD []) kid now .activation with
    | activatable createdAt =>
      exact safe_saveActiveKid uuid hv (held_getD T ((activatable_iff T createdAt).mp hjudge))
    | expired _ | missing | halfMissing | unreadable _ => exact ⟨hv, fun hr => by cases hr⟩
  · refine Safe.bind (Q := fun _ x => Marked member kid x) ?_ (fun _ x hx h => ⟨hx, fun _ => h⟩)
      fun _ _ _ _ hr => by cases hr
    exact Safe.handle (Q := fun _ x => Marked member kid x) ⟨hw, hmarked rfl⟩
      fun _ x hx h => ⟨hx, h⟩

/-- **THE MARKER IS REPLACED WHOLE**: wherever the write of it is stopped, it is the old one or the
    new one. -/
theorem safe_saveActiveKid_marker (kid : Kid) (uuid : Uuid) {s : Keystore}
    (hs : EntryIs activeFile R s) (hnew : R (some (.file ⟨activeBytes kid, true⟩))) :
    Safe (EntryIs activeFile R) (fun _ _ => True) (saveActiveKidLocked member kid uuid) s := by
  have htemp : Staging (uniqueWriteStagingName activeFile uuid.text) :=
    isWriteStagingName_active uuid
  have hguard := @guarded_entry activeFile R Staging Staging member activeFile_not_staging
  refine Safe.bind (keeps_ensure _ _ s hs) (fun _ t ht _ => ?_) fun _ _ _ _ => trivial
  refine Safe.bind ((keeps_saveStagedFile hguard htemp htemp _).also ht
    (safe_stagedAs _ (activeBytes kid) t)) (fun _ u hu hstaged => ?_) fun _ _ _ _ => trivial
  refine Safe.bind (Q := fun _ _ => True) (Safe.handle (Q := fun _ _ => True) ?_ fun r v hv _ => ?_)
    (fun _ v hv _ => keeps_mapError _ (keeps_touch _) v hv) fun _ _ _ _ => trivial
  · -- the rename puts the staged bytes under the name of the marker
    refine Safe.change hu (fun _ => trivial) fun v hv => ⟨?_, trivial⟩
    obtain ⟨dir, edited, rfl, hdir, rfl⟩ := memberCalls_edit hv
    obtain ⟨entry, hsource, rfl⟩ := renamingOver_ok hdir
    obtain ⟨_, hdir', hfile⟩ := hstaged rfl
    obtain rfl := Option.some.inj hdir'
    obtain rfl := Option.some.inj (hsource.symm.trans hfile)
    show R ((insertKey activeFile _ _).lookup activeFile)
    rw [lookup_insertKey, if_pos rfl]
    exact hnew
  · cases r with
    | ok _ => exact ⟨hv, trivial⟩
    | error e =>
      refine Safe.bind (keeps_ignoring (keeps_unlinkEntry hguard htemp _ _) v hv)
        (fun _ w hw _ => ⟨hw, trivial⟩) fun _ _ _ _ => trivial

/-- So is it by an activation. -/
theorem safe_activateExistingKey_marker (now : Int) (uuid : Uuid) {s : Keystore}
    (hs : EntryIs activeFile R s) (hnew : R (some (.file ⟨activeBytes kid, true⟩))) :
    Safe (EntryIs activeFile R) (fun _ _ => True)
      (activateExistingKey T member kid now uuid) s := by
  refine Safe.bind (keeps_openMember _ _ s hs) (fun _ t ht _ => ?_) fun _ _ _ _ => trivial
  refine Safe.bind (keeps_touch _ t ht) (fun _ u hu _ => ?_) fun _ _ _ _ => trivial
  refine Safe.bind (keeps_ensureNamespaceSafe _ u hu) (fun _ v hv _ => ?_) fun _ _ _ _ => trivial
  refine Safe.bind (Q := fun _ _ => True) (Safe.look ?_) (fun _ w hw _ => ?_) fun _ _ _ _ => trivial
  · cases inspectKeyActivability T member (v.getD []) kid now .activation with
    | activatable createdAt => exact safe_saveActiveKid_marker kid uuid hv hnew
    | expired _ | missing | halfMissing | unreadable _ => exact ⟨hv, trivial⟩
  · refine Safe.bind (keeps_mapError _ (keeps_ensureNamespaceSafe _) w hw)
      (fun _ x hx _ => ⟨hx, trivial⟩) fun _ _ _ _ => trivial

/-! ## Errors that leave the key behind -/

/-- The error says that the key was stored. -/
inductive TellsStored (member : MemberHandle) (kid : Kid) : Error → Prop where
  | unsynced (cause : Error) : TellsStored member kid (unsyncedKeyPairError member kid cause)
  | unsafeAfter (cause : Error) :
    TellsStored member kid (postMutationError (memberEntryPath member kid.text) "was written" cause)
  | notActivated (cause : Error) :
    TellsStored member kid (buildActivationFailureError member kid cause)

/-- An answer after which the entry of the kid is the one it was, unless the answer is good or an
    error that says more. -/
def Told {α : Type} (member : MemberHandle) (kid : Kid) (entry : Option MemberEntry)
    (r : Except Error α) (s : Keystore) : Prop :=
  ∀ e, r = .error e → EntryIs kid.text (· = entry) s ∨ TellsStored member kid e

theorem Told.of_entry {α : Type} {entry : Option MemberEntry} {s : Keystore}
    (h : EntryIs kid.text (· = entry) s) (r : Except Error α) : Told member kid entry r s :=
  fun _ _ => Or.inl h

/-- What an error is reworded to. -/
theorem safe_mapError_told {f : Error → Error} {entry : Option MemberEntry} (p : Change Unit)
    (hf : ∀ cause, TellsStored member kid (f cause)) (s : Keystore) :
    Safe (fun _ => True) (Told member kid entry) (mapError f p) s := by
  refine Safe.handle (Keeps.top p s trivial) fun r t _ _ => ⟨trivial, fun e he => ?_⟩
  cases r with
  | ok _ => cases he
  | error cause =>
    obtain rfl := Except.error.inj he
    exact Or.inr (hf cause)

/-- **A PUBLICATION THAT FAILS SAYS SO WHEN IT LEAVES THE KEY BEHIND**. -/
theorem safe_saveKeyPairAtomic_told (privateKey : PrivateKey) (publicKey : PublicKey)
    (names : PublicationNames) {entry : Option MemberEntry} {s : Keystore}
    (hs : EntryIs kid.text (· = entry) s) :
    Safe (fun _ => True) (Told member kid entry)
      (saveKeyPairAtomic member kid privateKey publicKey names) s := by
  have htemp : Staging (uniqueStagingDirName names.staging) := isWriteStagingName_dir _
  have hne : kid.text ≠ uniqueStagingDirName names.staging :=
    fun heq => kid_not_staging kid (heq ▸ htemp)
  have hmember := @guarded_entry kid.text (· = entry) Staging Staging member (kid_not_staging kid)
  have hchild := @guarded_entry_child kid.text (· = entry) member _ hne
  have hstaged : ∀ t, EntryIs kid.text (· = entry) t →
      Safe (fun _ => True) (fun r u => ∀ e, r = .error e → EntryIs kid.text (· = entry) u)
        (publishStagedKeyPair member kid privateKey publicKey names) t := by
    intro t ht
    refine Safe.bind ((keeps_saveKeyPairFiles hchild privateKey publicKey names).reached ht)
      (fun _ u _ hu => ?_) fun _ _ _ hu _ _ => hu
    -- a rename that fails leaves everything as it is
    exact Safe.change trivial (fun _ _ _ => hu) fun _ _ => ⟨trivial, fun _ he => by cases he⟩
  have hpublish : ∀ t, EntryIs kid.text (· = entry) t →
      Safe (fun _ => True) (Told member kid entry)
        (publishKeyPairAtomic member kid privateKey publicKey names) t := by
    intro t ht
    refine Safe.bind ((keeps_ensure _ _).reached ht) (fun _ u _ hu => ?_)
      fun e u _ hu => Told.of_entry hu _
    refine Safe.bind ((keeps_ensure _ _).reached hu) (fun _ v _ hv => ?_)
      fun e v _ hv => Told.of_entry hv _
    refine Safe.bind ((keeps_saveChildDir hmember htemp (isWriteStagingName_dir _)).reached hv)
      (fun _ w _ hw => ?_) fun e w _ hw => Told.of_entry hw _
    refine Safe.handle (hstaged w hw) fun r x _ hr => ?_
    cases r with
    | ok _ => exact safe_mapError_told _ .unsynced x
    | error e =>
      refine Safe.handle ((keeps_cleanup htemp hmember hchild).reached (hr e rfl))
        fun r y _ hy => ?_
      cases r with
      | ok _ => exact ⟨trivial, Told.of_entry hy _⟩
      | error cleanup => exact ⟨trivial, Told.of_entry hy _⟩
  refine Safe.bind (keeps_ensureMember_entry.reached hs) (fun _ t _ ht => ?_)
    fun e t _ ht => Told.of_entry ht _
  refine Safe.bind ((keeps_ensureNamespaceSafe _).reached ht) (fun _ u _ hu => ?_)
    fun e u _ hu => Told.of_entry hu _
  refine Safe.bind (hpublish u hu) (fun _ v _ _ => ?_) fun e v _ hv => ?_
  · refine Safe.bind (safe_mapError_told _ .unsafeAfter v)
      (fun _ w _ _ => ⟨trivial, fun e he => by cases he⟩) fun e w _ hw => hw
  · exact hv

/-! ## Storing a generated pair -/

section Storing

variable {generated : KeyGenerationResult} {noActivate : Bool} {surroundings : Surroundings}
variable {s : Keystore}

theorem keeps_publishGeneratedKey_entry (hname : ¬ Staging name)
    (hmarker : name = activeFile → noActivate = true) :
    Keeps (EntryIs name R) (publishGeneratedKey T member kid noActivate surroundings) := by
  cases noActivate with
  | true => exact Keeps.done _ _
  | false =>
    have hactive : name ≠ activeFile := fun heq => Bool.false_ne_true (hmarker heq)
    exact keeps_mapError _ (keeps_activateExistingKey_entry hname hactive T kid _ _)

/-- **ONE ENTRY OF THE MEMBER** while a pair is stored: it is touched only if it is that of the kid
    and nothing stands there. -/
theorem safe_storeGeneratedKey (hname : ¬ Staging name)
    (hmarker : name = activeFile → noActivate = true) (hs : EntryIs name R s)
    (hnew : name = kid.text → R none →
      ∀ entry, Stored generated.privateKey generated.publicKey (some entry) → R (some entry)) :
    Safe (EntryIs name R)
      (fun r t => r = .ok () →
        EntryIs kid.text (Stored generated.privateKey generated.publicKey) t
        ∧ (name = kid.text → R none)
        ∧ StatesIdentity member kid generated.privateKey generated.publicKey)
      (storeGeneratedKey T member kid generated noActivate surroundings) s := by
  refine Safe.bind (safe_saveKeyPairAtomic kid _ _ _ hname hs hnew) (fun _ t ht h => ?_)
    fun _ _ _ _ hr => by cases hr
  obtain ⟨hstored, hfree, hidentity⟩ := h rfl
  have hstays : Keeps (EntryIs kid.text (Stored generated.privateKey generated.publicKey))
      (publishGeneratedKey T member kid noActivate surroundings) :=
    keeps_publishGeneratedKey_entry (kid_not_staging kid) fun heq => absurd heq (kid_ne_active kid)
  exact ((keeps_publishGeneratedKey_entry hname hmarker).also ht (hstays.reached hstored)).mono
    (fun _ h => h) fun _ _ _ h _ => ⟨h, hfree, hidentity⟩

/-- The marker is the old one, or names the new key. -/
theorem safe_storeGeneratedKey_marker (hs : EntryIs activeFile R s)
    (hnew : noActivate = false → R (some (.file ⟨activeBytes kid, true⟩))) :
    Safe (EntryIs activeFile R) (fun _ _ => True)
      (storeGeneratedKey T member kid generated noActivate surroundings) s := by
  refine Safe.bind (Q := fun _ _ => True) ?_ (fun _ t ht _ => ?_) fun _ _ _ _ => trivial
  · refine (safe_saveKeyPairAtomic kid _ _ _ activeFile_not_staging hs fun heq => ?_).mono
      (fun _ h => h) fun _ _ _ _ => trivial
    exact absurd heq.symm (kid_ne_active kid)
  · cases noActivate with
    | true => exact ⟨ht, trivial⟩
    | false =>
      refine Safe.handle (safe_activateExistingKey_marker _ _ ht (hnew rfl)) fun r u hu _ => ?_
      exact ⟨hu, trivial⟩

/-- The member's directory stays in order, and the marker names the key where that was asked for. -/
theorem safe_storeGeneratedKey_inOrder (h : InOrder member s) :
    Safe (InOrder member) (fun r t => r = .ok () → noActivate = false → Marked member kid t)
      (storeGeneratedKey T member kid generated noActivate surroundings) s := by
  refine Safe.bind (keeps_saveKeyPairAtomic kid _ _ _ s h) (fun _ t ht _ => ?_)
    fun _ _ _ _ hr => by cases hr
  cases noActivate with
  | true => exact ⟨ht, fun _ hno => by cases hno⟩
  | false =>
    refine Safe.handle (safe_activateExistingKey _ _ ht) fun r u hu hmarked => ?_
    refine ⟨hu, fun hr _ => hmarked ?_⟩
    cases r with
    | ok _ => rfl
    | error e => cases hr

/-- A failure says so when it leaves the key behind. -/
theorem safe_storeGeneratedKey_told {entry : Option MemberEntry}
    (hs : EntryIs kid.text (· = entry) s) :
    Safe (fun _ => True) (Told member kid entry)
      (storeGeneratedKey T member kid generated noActivate surroundings) s := by
  refine Safe.bind (safe_saveKeyPairAtomic_told _ _ _ hs) (fun _ t _ _ => ?_) fun _ _ _ h => h
  cases noActivate with
  | true => exact ⟨trivial, fun e he => by cases he⟩
  | false => exact safe_mapError_told _ .notActivated t

end Storing

/-! ## The command as a whole -/

/-- A key directory of a member that is in order is among its kids. -/
theorem listKids_held {directories : MemberDirectories} (h : InOrder member (directories member))
    {dir : MemberDirectory} (hdir : directories member = some dir) {entries : KeyDirectory}
    (hlook : dir.lookup kid.text = some (.directory entries)) :
    ∃ kids, listKids directories member = .ok kids ∧ kid ∈ kids := by
  obtain ⟨_, kids, hkids, hall⟩ := listKids_of_safe (h dir hdir).safe
  refine ⟨kids, ?_, hall kid entries hlook⟩
  rw [listKids, hdir]
  exact hkids

theorem listKids_ok {directories : MemberDirectories} (h : InOrder member (directories member)) :
    ∃ kids, listKids directories member = .ok kids := by
  rw [listKids]
  cases hdir : directories member with
  | none => exact ⟨[], rfl⟩
  | some dir =>
    obtain ⟨_, kids, hkids, _⟩ := listKids_of_safe (h dir hdir).safe
    exact ⟨kids, hkids⟩

theorem normalizeKidQuery_kid (kid : Kid) : normalizeKidQuery kid.text = .ok kid.text := by
  obtain ⟨query, hquery, hrest⟩ := bind_eq_ok.mp (normalizeKid_canonical kid.valid)
  by_cases hlen : query.utf8ByteSize ≠ 32
  · rw [if_pos hlen] at hrest
    cases hrest
  · rw [if_neg hlen] at hrest
    obtain rfl := Except.ok.inj hrest
    exact hquery

/-- A kid that is among the candidates is found, or other ones are found with it. -/
theorem resolveUniqueKid_among {kids : List Kid} (hkid : kid ∈ kids) :
    (∃ resolved, resolveUniqueKid (kids.map Kid.text) kid.text = .ok resolved.text
      ∧ resolved ∈ kids)
      ∨ ∃ message, resolveUniqueKid (kids.map Kid.text) kid.text
        = .error (.invalidArgument message) := by
  have hmem : kid.text ∈ matchesOf kid.text (kids.map Kid.text) :=
    List.mem_filter.mpr ⟨List.mem_map_of_mem hkid, List.isPrefixOf_iff_prefix.mpr
      (List.prefix_refl _)⟩
  have hsub : ∀ text ∈ matchesOf kid.text (kids.map Kid.text), ∃ k ∈ kids, k.text = text :=
    fun text htext => List.mem_map.mp (List.mem_filter.mp htext).1
  rw [resolveUniqueKid, normalizeKidQuery_kid, mapM_normalizeKid]
  rw [matchesOf] at hmem hsub
  simp only [bind, Except.bind]
  cases hmatches : (kids.map Kid.text).filter fun k => kid.text.toList.isPrefixOf k.toList with
  | nil =>
    rw [hmatches] at hmem
    cases hmem
  | cons first rest =>
    cases rest with
    | nil =>
      obtain ⟨resolved, hin, htext⟩ := hsub first (by rw [hmatches]; exact List.mem_cons_self)
      exact Or.inl ⟨resolved, by rw [htext]; rfl, hin⟩
    | cons second rest => exact Or.inr ⟨_, rfl⟩

/-- **A KID THAT IS THERE IS NOT NEW**. -/
theorem ensureKidNotInKeystore_held {handles : List MemberHandle} {directories : MemberDirectories}
    (horder : ∀ m, InOrder m (directories m)) (howner : member ∈ handles)
    {dir : MemberDirectory} (hdir : directories member = some dir) {entries : KeyDirectory}
    (hlook : dir.lookup kid.text = some (.directory entries)) :
    ensureKidNotInKeystore (.ok handles) directories kid.text ≠ .ok () := by
  obtain ⟨ownKids, hownKids, hown⟩ := listKids_held (horder member) hdir hlook
  -- every member can be listed
  have hlist : ∃ candidates : List (MemberHandle × List Kid),
      (handles.mapM fun m => do
        let kids ← listKids directories m
        pure (m, kids)) = .ok candidates := by
    clear howner
    induction handles with
    | nil => exact ⟨[], rfl⟩
    | cons m handles ih =>
      obtain ⟨kids, hkids⟩ := listKids_ok (horder m)
      obtain ⟨candidates, hcandidates⟩ := ih
      refine ⟨(m, kids) :: candidates, ?_⟩
      rw [List.mapM_cons]
      exact bind_eq_ok.mpr ⟨_, bind_eq_ok.mpr ⟨_, hkids, rfl⟩,
        bind_eq_ok.mpr ⟨_, hcandidates, rfl⟩⟩
  obtain ⟨candidates, hcandidates⟩ := hlist
  obtain ⟨candidate, hcandidate, hread⟩ := exists_right_of_mem (mapM_ok.mp hcandidates) howner
  obtain ⟨kids, hkids, hread⟩ := bind_eq_ok.mp hread
  obtain rfl := Except.ok.inj (hownKids.symm.trans hkids)
  obtain rfl := Except.ok.inj hread
  have hin : kid ∈ candidates.flatMap Prod.snd := List.mem_flatMap.mpr ⟨_, hcandidate, hown⟩
  intro hnew
  rcases resolveUniqueKid_among hin with ⟨resolved, hresolved, hfound⟩ | ⟨message, hambiguous⟩
  · obtain ⟨owner, howner, hk⟩ := List.mem_flatMap.mp hfound
    have hsome : (candidates.find? fun candidate =>
        candidate.2.any fun k => k.text = resolved.text).isSome = true :=
      List.find?_isSome.mpr ⟨owner, howner, List.any_eq_true.mpr ⟨resolved, hk, decide_eq_true rfl⟩⟩
    obtain ⟨found, hfind⟩ := Option.isSome_iff_exists.mp hsome
    have hmember : findMemberByKid (.ok handles) directories kid.text = .ok found.1 := by
      refine bind_eq_ok.mpr ⟨handles, rfl, bind_eq_ok.mpr ⟨_, hcandidates,
        bind_eq_ok.mpr ⟨_, hresolved, ?_⟩⟩⟩
      rw [hfind]
      rfl
    rw [ensureKidNotInKeystore, hmember] at hnew
    cases hnew
  · have hmember : findMemberByKid (.ok handles) directories kid.text
        = .error (.invalidArgument message) := by
      rw [findMemberByKid]
      dsimp only [bind, Except.bind] at hcandidates ⊢
      rw [hcandidates]
      dsimp only
      rw [hambiguous]
    rw [ensureKidNotInKeystore, hmember] at hnew
    cases hnew

section Whole

variable {options : LocalKeyGenerationOptions} {surroundings : Surroundings}
variable {directories : MemberDirectories}

/-- What a command is about to store, in the directory of whom and under which kid. -/
structure Prepared (C : Crypto) (T : TextParsers) (timeError : String → String)
    (options : LocalKeyGenerationOptions) (surroundings : Surroundings)
    (directories : MemberDirectories) (generated : KeyGenerationResult) (member : MemberHandle)
    (kid : Kid) : Prop where
  made : generateKey C options.toKeyGenerationOptions surroundings.material surroundings.fresh
    = .ok generated
  owner : options.memberHandle = member.text
  named : kid.text = generated.kid
  unique : ensureKidNotInKeystore surroundings.listing directories generated.kid = .ok ()
  expiry : enforceExpiryAfter T timeError generated.expiresAt surroundings.storedAt = .ok ()

theorem states_generated {options : KeyGenerationOptions} {material : KeypairMaterial}
    {fresh : FreshPrivateKeyProtectionMaterial} {generated : KeyGenerationResult}
    (h : generateKey C options material fresh = .ok generated) :
    generated.memberHandle = options.memberHandle ∧ generated.expiresAt = options.expiresAt := by
  obtain ⟨⟨⟩, _, h⟩ := bind_eq_ok.mp h
  obtain ⟨_, _, h⟩ := bind_eq_ok.mp h
  obtain ⟨_, _, h⟩ := bind_eq_ok.mp h
  obtain rfl := Except.ok.inj h
  exact ⟨rfl, rfl⟩

theorem kidFromCanonical_ok {value : String} (h : kidFromCanonical value = .ok kid) :
    kid.text = value := by
  rw [kidFromCanonical, kidOfText?] at h
  by_cases hvalid : isKidText value = true
  · rw [dif_pos hvalid] at h
    rw [← Except.ok.inj h]
  · rw [dif_neg hvalid] at h
    cases h

/-- Nothing is changed before the pair is stored, and what is stored was checked. -/
theorem safe_generateAndSaveKey {Inv : MemberDirectories → Prop}
    {Q : Except Error GenerationReport → MemberDirectories → Prop} (hInv : Inv directories)
    (hfails : ∀ e, Q (.error e) directories)
    (hstore : ∀ generated member kid,
      Prepared C T timeError options surroundings directories generated member kid →
      Safe Inv (fun r S => Q (r.map fun _ => generationReport options generated) S)
        ((storeGeneratedKey T member kid generated options.noActivate surroundings).part member)
        directories) :
    Safe Inv Q (generateAndSaveKey C T timeError options surroundings) directories := by
  refine Safe.bind (Q := fun _ S => directories = S) ?_ ?_ (fun e _ _ h => h ▸ hfails e)
  · refine Safe.change hInv (fun _ => rfl) fun S hS => ?_
    obtain rfl := Except.ok.inj hS
    exact ⟨hInv, rfl⟩
  rintro _ _ _ rfl
  refine Safe.bind (Q := fun r S => directories = S ∧ r = (generateKey C
    options.toKeyGenerationOptions surroundings.material surroundings.fresh).mapError
      KeyError.toError) ⟨hInv, rfl, rfl⟩ ?_ (fun e _ _ h => h.1 ▸ hfails e)
  rintro generated _ _ ⟨rfl, hgenerated⟩
  have hgenerated := mapError_ok.mp hgenerated.symm
  refine Safe.bind (Q := fun r S => directories = S ∧ r = ensureKidNotInKeystore
    surroundings.listing directories generated.kid) ⟨hInv, rfl, rfl⟩ ?_
    (fun e _ _ h => h.1 ▸ hfails e)
  rintro _ _ _ ⟨rfl, hunique⟩
  refine Safe.bind (Q := fun r S => directories = S ∧ r = enforceExpiryAfter T timeError
    generated.expiresAt surroundings.storedAt) ⟨hInv, rfl, rfl⟩ ?_ (fun e _ _ h => h.1 ▸ hfails e)
  rintro _ _ _ ⟨rfl, hexpiry⟩
  refine Safe.bind (Q := fun r S => Q (r.map fun _ => generationReport options generated) S) ?_
    (fun _ S hS h => ⟨hS, h⟩) fun _ _ _ h => h
  refine Safe.bind (Q := fun r S => directories = S
    ∧ r = MemberHandle.tryFrom generated.memberHandle)
    ⟨hInv, rfl, rfl⟩ ?_ (fun e _ _ h => h.1 ▸ hfails e)
  rintro member _ _ ⟨rfl, howner⟩
  refine Safe.bind (Q := fun r S => directories = S ∧ r = kidFromCanonical generated.kid)
    ⟨hInv, rfl, rfl⟩ ?_ (fun e _ _ h => h.1 ▸ hfails e)
  rintro kid _ _ ⟨rfl, hkid⟩
  have hhandle : options.memberHandle = member.text := by
    rw [← (states_generated hgenerated).1]
    exact (KvAuthority.text_of_tryFrom howner.symm).symm
  exact hstore generated member kid
    ⟨hgenerated, hhandle, kidFromCanonical_ok hkid.symm, hunique.symm, hexpiry.symm⟩

/-- What a command leaves, whichever of its calls fail and wherever it is stopped: `final` is the
    store, and `answer` what was answered, if the command came to an end. -/
structure GenerationLaws (C : Crypto) (T : TextParsers) (timeError : String → String)
    (options : LocalKeyGenerationOptions) (surroundings : Surroundings)
    (directories final : MemberDirectories) (answer : Option (Except Error GenerationReport)) :
    Prop where
  /-- directories that were in order still are -/
  inOrder : (∀ m, InOrder m (directories m)) → ∀ m, InOrder m (final m)
  /-- the directories of other members are as they were -/
  elsewhere : ∀ m : MemberHandle, m.text ≠ options.memberHandle → final m = directories m
  /-- an entry is as it was, or it is the new key, whole, where nothing stood -/
  entries : ∀ m name, ¬ Staging name → name ≠ activeFile →
    standing name (final m) = standing name (directories m)
      ∨ standing name (directories m) = none ∧ ∃ generated kid,
        Prepared C T timeError options surroundings directories generated m kid ∧ name = kid.text
          ∧ Stored generated.privateKey generated.publicKey (standing name (final m))
  /-- the marker is as it was, or names the new key where that was asked for -/
  marker : ∀ m, standing activeFile (final m) = standing activeFile (directories m)
    ∨ options.noActivate = false ∧ ∃ generated kid,
      Prepared C T timeError options surroundings directories generated m kid
        ∧ standing activeFile (final m) = some (.file ⟨activeBytes kid, true⟩)
  /-- what is reported was stored, and made the current key where that was asked for -/
  saved : ∀ report, answer = some (.ok report) → ∃ generated member kid,
    Prepared C T timeError options surroundings directories generated member kid
      ∧ report = generationReport options generated
      ∧ standing kid.text (directories member) = none
      ∧ Stored generated.privateKey generated.publicKey (standing kid.text (final member))
      ∧ StatesIdentity member kid generated.privateKey generated.publicKey
      ∧ (options.noActivate = false → InOrder member (directories member) →
        Marked member kid (final member))
  /-- a kid that is in the store is refused, and nothing is changed -/
  unique : ∀ handles owner dir entries, ∀ kid : Kid, ∀ generated,
    surroundings.listing = .ok handles → owner ∈ handles → (∀ m, InOrder m (directories m)) →
    directories owner = some dir → dir.lookup kid.text = some (.directory entries) →
    generateKey C options.toKeyGenerationOptions surroundings.material surroundings.fresh
      = .ok generated → generated.kid = kid.text →
    final = directories ∧ ∀ report, answer ≠ some (.ok report)
  /-- an error that leaves a key behind says so -/
  told : ∀ e, answer = some (.error e) →
    (∀ m, ∀ kid : Kid, standing kid.text (final m) = standing kid.text (directories m))
      ∨ ∃ generated member kid,
        Prepared C T timeError options surroundings directories generated member kid
          ∧ TellsStored member kid e

/-- What stands under a name of one member during a command. -/
theorem safe_generateAndSaveKey_entry (m : MemberHandle) {name : String}
    {R : Option MemberEntry → Prop} (hR : R (standing name (directories m)))
    (hown : ∀ generated kid,
      Prepared C T timeError options surroundings directories generated m kid →
      Safe (EntryIs name R) (fun _ _ => True)
        (storeGeneratedKey T m kid generated options.noActivate surroundings) (directories m)) :
    Safe (fun S => EntryIs name R (S m)) (fun _ _ => True)
      (generateAndSaveKey C T timeError options surroundings) directories := by
  refine safe_generateAndSaveKey hR (fun _ => trivial) fun generated member kid hprepared => ?_
  by_cases hm : m = member
  · subst hm
    exact (Safe.part m (hown generated kid hprepared)).mono (fun _ h => h.1) fun _ _ _ _ => trivial
  · exact Keeps.elsewhere hm _ directories hR

/-- Every entry is the old one, or the new key where nothing stood. -/
theorem safe_entries (m : MemberHandle) {name : String} (hname : ¬ Staging name)
    (hactive : name ≠ activeFile) :
    Safe (fun S => EntryIs name (fun entry => entry = standing name (directories m)
        ∨ standing name (directories m) = none ∧ ∃ generated kid,
          Prepared C T timeError options surroundings directories generated m kid ∧ name = kid.text
            ∧ Stored generated.privateKey generated.publicKey entry) (S m)) (fun _ _ => True)
      (generateAndSaveKey C T timeError options surroundings) directories := by
  refine safe_generateAndSaveKey_entry m (Or.inl rfl) fun generated kid hprepared => ?_
  refine Safe.mono (safe_storeGeneratedKey hname (fun heq => absurd heq hactive) ?_ ?_)
    (fun _ h => h) fun _ _ _ _ => trivial
  · exact Or.inl rfl
  · rintro rfl hnone entry hentry
    refine Or.inr ⟨?_, generated, kid, hprepared, rfl, hentry⟩
    rcases hnone with hsame | ⟨hfree, _⟩
    · exact hsame.symm
    · exact hfree

/-- The marker is the old one, or names the new key. -/
theorem safe_marker (m : MemberHandle) :
    Safe (fun S => EntryIs activeFile (fun entry => entry = standing activeFile (directories m)
        ∨ options.noActivate = false ∧ ∃ generated kid,
          Prepared C T timeError options surroundings directories generated m kid
            ∧ entry = some (.file ⟨activeBytes kid, true⟩)) (S m)) (fun _ _ => True)
      (generateAndSaveKey C T timeError options surroundings) directories := by
  refine safe_generateAndSaveKey_entry m (Or.inl rfl) fun generated kid hprepared => ?_
  exact safe_storeGeneratedKey_marker (Or.inl rfl)
    fun hactivate => Or.inr ⟨hactivate, generated, kid, hprepared, rfl⟩

/-- Every directory is kept in order. -/
theorem keeps_generateAndSaveKey_inOrder :
    Keeps (fun S : MemberDirectories => ∀ m, InOrder m (S m))
      (generateAndSaveKey C T timeError options surroundings) := by
  intro directories horder
  refine safe_generateAndSaveKey horder (fun _ => trivial) fun generated member kid _ => ?_
  refine (Keeps.parts member fun s hs => ?_) directories horder
  exact (safe_storeGeneratedKey_inOrder hs).mono (fun _ h => h) fun _ _ _ _ => trivial

/-- What was reported was stored. -/
theorem safe_saved :
    Safe (fun _ => True) (fun r S => ∀ report, r = .ok report → ∃ generated member kid,
        Prepared C T timeError options surroundings directories generated member kid
          ∧ report = generationReport options generated
          ∧ standing kid.text (directories member) = none
          ∧ Stored generated.privateKey generated.publicKey (standing kid.text (S member))
          ∧ StatesIdentity member kid generated.privateKey generated.publicKey
          ∧ (options.noActivate = false → InOrder member (directories member) →
            Marked member kid (S member)))
      (generateAndSaveKey C T timeError options surroundings) directories := by
  refine safe_generateAndSaveKey trivial (fun e report he => by cases he)
    fun generated member kid hprepared => ?_
  have hentry := @safe_storeGeneratedKey T member kid kid.text
    (fun entry => entry = standing kid.text (directories member)
      ∨ standing kid.text (directories member) = none
        ∧ Stored generated.privateKey generated.publicKey entry)
    generated options.noActivate surroundings (directories member) (kid_not_staging kid)
    (fun heq => absurd heq (kid_ne_active kid)) (Or.inl rfl) (by
      rintro - (hsame | ⟨_, _, hnone, _⟩) entry hentry
      · exact Or.inr ⟨hsame.symm, hentry⟩
      · cases hnone)
  have hmarked : Safe (fun _ => True) (fun r t => r = .ok () → options.noActivate = false →
      InOrder member (directories member) → Marked member kid t)
      (storeGeneratedKey T member kid generated options.noActivate surroundings)
      (directories member) := by
    by_cases horder : InOrder member (directories member)
    · exact (safe_storeGeneratedKey_inOrder horder).mono (fun _ _ => trivial)
        fun _ _ _ h hr hno _ => h hr hno
    · exact (Keeps.top _ _ trivial).mono (fun _ h => h)
        fun _ _ _ _ _ _ horder' => absurd horder' horder
  refine (Safe.part member (hentry.and hmarked)).mono (fun _ _ => trivial) ?_
  rintro r S - ⟨hstored, hmarked⟩ report hreport
  cases r with
  | error e => cases hreport
  | ok _ =>
    obtain ⟨hstored, hfree, hidentity⟩ := hstored rfl
    refine ⟨generated, member, kid, hprepared, (Except.ok.inj hreport).symm, ?_, hstored, hidentity,
      hmarked rfl⟩
    rcases hfree rfl with hsame | ⟨hnone, _⟩
    · exact hsame.symm
    · exact hnone

/-- An error after which a key stands that did not stand before says so. -/
theorem safe_told :
    Safe (fun _ => True) (fun r S => ∀ e, r = .error e →
        (∃ generated member kid,
          Prepared C T timeError options surroundings directories generated member kid
            ∧ TellsStored member kid e)
        ∨ ∀ generated member kid,
          Prepared C T timeError options surroundings directories generated member kid →
          standing kid.text (S member) = standing kid.text (directories member))
      (generateAndSaveKey C T timeError options surroundings) directories := by
  refine safe_generateAndSaveKey trivial (fun e _ _ => Or.inr fun _ _ _ _ => rfl)
    fun generated member kid hprepared => ?_
  refine (Safe.part member (@safe_storeGeneratedKey_told T member kid generated options.noActivate
    surroundings _ _ rfl)).mono (fun _ _ => trivial) ?_
  rintro r S - htold e he
  cases r with
  | ok _ => cases he
  | error cause =>
    obtain rfl := Except.error.inj he
    rcases htold _ rfl with hsame | htells
    · refine Or.inr fun generated' member' kid' hprepared' => ?_
      obtain rfl := Except.ok.inj (hprepared.made.symm.trans hprepared'.made)
      obtain rfl := MemberHandle.ext (hprepared.owner.symm.trans hprepared'.owner)
      obtain rfl := Kid.ext (hprepared.named.trans hprepared'.named.symm)
      exact hsame
    · exact Or.inl ⟨generated, member, kid, hprepared, htells⟩

/-- **A COMMAND LEAVES THE STORE IN ORDER**, touches nothing but its own key and the marker, and its
    answer is true to what it leaves, over every way its calls can fail and it can be stopped. -/
theorem generationLaws (C : Crypto) (T : TextParsers) (timeError : String → String)
    (options : LocalKeyGenerationOptions) (surroundings : Surroundings)
    (directories : MemberDirectories) (faults : List (Option Error)) :
    GenerationLaws C T timeError options surroundings directories
      ((generateAndSaveKey C T timeError options surroundings).run faults directories).1
      ((generateAndSaveKey C T timeError options surroundings).run faults directories).2 := by
  refine ⟨fun horder => ?_, fun m hm => ?_, fun m name hname hactive => ?_, fun m => ?_, ?_, ?_, ?_⟩
  · -- the directory of the member is kept in order, the others are not touched
    exact ((keeps_generateAndSaveKey_inOrder directories horder).run faults).1
  · have hsafe : Safe (fun S : MemberDirectories => S m = directories m) (fun _ _ => True)
        (generateAndSaveKey C T timeError options surroundings) directories := by
      refine safe_generateAndSaveKey rfl (fun _ => trivial) fun generated member kid hprepared => ?_
      have hne : m ≠ member := fun heq => hm (heq ▸ hprepared.owner.symm)
      have hkeeps : Keeps (fun S : MemberDirectories => S m = directories m)
          ((storeGeneratedKey T member kid generated options.noActivate surroundings).part
            member) :=
        @Keeps.elsewhere _ _ _ _ _ (· = directories m) _ _ hne _
      exact hkeeps directories rfl
    exact (hsafe.run faults).1
  · exact ((safe_entries m hname hactive).run faults).1
  · exact ((safe_marker m).run faults).1
  · intro report hreport
    exact (safe_saved.run faults).2 _ hreport report rfl
  · intro handles owner dir entries kid generated hlisting howner horder hdir hlook hmade hkid
    -- the check refuses, so that nothing is ever stored
    have hnever : ∀ generated' member kid', ¬ Prepared C T timeError options
        surroundings directories generated' member kid' := by
      intro generated' member kid' hprepared
      obtain rfl := Except.ok.inj (hmade.symm.trans hprepared.made)
      refine ensureKidNotInKeystore_held horder howner hdir hlook ?_
      rw [← hlisting, ← hkid]
      exact hprepared.unique
    have hsafe : Safe (fun S => S = directories) (fun r _ => ∀ report, r ≠ .ok report)
        (generateAndSaveKey C T timeError options surroundings) directories :=
      safe_generateAndSaveKey rfl (fun e report he => by cases he)
        fun generated' member kid' hprepared => absurd hprepared (hnever generated' member kid')
    have hrun := hsafe.run faults
    exact ⟨hrun.1, fun report hreport => hrun.2 _ hreport report rfl⟩
  · intro e he
    rcases (safe_told.run faults).2 _ he e rfl with htells | hsame
    · exact Or.inr htells
    · refine Or.inl fun m kid => ?_
      have hentry := ((@safe_entries C T timeError options surroundings directories m kid.text
        (kid_not_staging kid) (kid_ne_active kid)).run faults).1
      rcases hentry with hkept | ⟨_, generated, kid', hprepared, hkid, _⟩
      · exact hkept
      · rw [hkid]
        exact hsame generated m kid' hprepared

end Whole

end GenerateCommand
