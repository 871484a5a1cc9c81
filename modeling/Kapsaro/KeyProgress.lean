import Kapsaro.GenerateCommand

/-!
# Key progress — a command that nothing disturbs succeeds

What the calls of a publication come to when none of them fails: the directory of the key appears
in the member directory behind everything that stood there, with both documents in it.

* **`withChild`** — a member directory with one more directory in it.
* **`finish_saveTextRestrictedAt`**, **`finish_saveKeyPairAtomic`** — one file, and a whole pair.
* **`finish_activateExistingKey`** — a key that can be selected is activated.
* **`generation_succeeds`** — a generation that passes its checks is reported, and leaves the store
  as it was but for the new key and its marker.
-/

namespace KeyProgress

open Limits TextLines JsonText WireTexts WireModel DocumentTokens SignedArtifacts KeyProtection
open TrustStore TrustTransaction TrustEvaluation MemberStore MemberOperations ReviewedRemoval
open KeyExpiry KeyUnlock KidTexts KeyAttestation KeyGeneration KeyedList KeyDocuments
open KeystoreReads KeystoreChanges KeystoreMarker KeystoreSafety KeystoreSelection KeyStorage
open LocalKeys GenerateCommand StepPrograms StepPrograms.Steps KeystoreChanges.DirectoryCalls
open Envelope hiding PrivateKey

variable {member : MemberHandle} {dir : MemberDirectory} {child name tempName : String}

/-! ## Names that are free -/

section Free

variable {α : Type} {entries : List (String × α)}

theorem insertKey_free (h : entries.lookup name = none) (x : α) :
    insertKey name x entries = entries ++ [(name, x)] := by
  induction entries with
  | nil => rfl
  | cons entry entries ih =>
    obtain ⟨key, y⟩ := entry
    rw [lookup_cons_ite] at h
    by_cases hkey : name = key
    · rw [if_pos hkey] at h
      cases h
    · rw [if_neg hkey] at h
      rw [insertKey, if_neg fun heq => hkey heq.symm, ih h]
      rfl

theorem insertKey_concat (h : entries.lookup name = none) (x y : α) :
    insertKey name x (entries ++ [(name, y)]) = entries ++ [(name, x)] := by
  induction entries with
  | nil => rw [List.nil_append, insertKey, if_pos rfl, List.nil_append]
  | cons entry entries ih =>
    obtain ⟨key, z⟩ := entry
    rw [lookup_cons_ite] at h
    by_cases hkey : name = key
    · rw [if_pos hkey] at h
      cases h
    · rw [if_neg hkey] at h
      rw [List.cons_append, insertKey, if_neg fun heq => hkey heq.symm, ih h]
      rfl

theorem dropEntry_concat (h : entries.lookup name = none) (x : α) :
    dropEntry name (entries ++ [(name, x)]) = entries := by
  have hold : dropEntry name entries = entries := dropEntry_of_free h
  rw [dropEntry] at hold ⊢
  rw [List.filter_append, hold, List.filter_cons_of_neg (by simp), List.filter_nil, List.append_nil]

theorem lookup_free_concat (h : entries.lookup child = none) (hne : child ≠ name) (x : α) :
    (entries ++ [(name, x)]).lookup child = none := by
  rw [List.lookup_append, h, lookup_cons_ite, if_neg hne]
  rfl

theorem lookup_one_free (hne : child ≠ name) (x : α) : [(name, x)].lookup child = none := by
  rw [lookup_cons_ite, if_neg hne]
  rfl

end Free

/-! ## Calls that go through -/

/-- A member directory with one more directory in it. -/
def withChild (dir : MemberDirectory) (child : String) (entries : KeyDirectory) : Keystore :=
  some (dir ++ [(child, .directory entries)])

/-- A call on the directory that was added. -/
theorem finish_childEdit (hfree : dir.lookup child = none) {entries edited : KeyDirectory}
    {f : KeyDirectory → Except Error KeyDirectory} (hf : f entries = .ok edited) :
    (change ((childCalls member child).edit f)).finish (withChild dir child entries)
      = (withChild dir child edited, .ok ()) := by
  refine finish_change_ok ?_
  have hlook : (dir ++ [(child, MemberEntry.directory entries)]).lookup child
      = some (.directory entries) := by
    rw [lookup_concat _ _ _ hfree, if_pos rfl]
  rw [withChild, childCalls]
  dsimp only
  rw [hlook]
  dsimp only
  rw [hf]
  exact congrArg (fun d => Except.ok (some d)) (insertKey_concat hfree _ _)

/-- A call on the member directory. -/
theorem finish_memberEdit {edited : MemberDirectory}
    {f : MemberDirectory → Except Error MemberDirectory} (hf : f dir = .ok edited) :
    (change ((memberCalls member).edit f)).finish (some dir) = (some edited, .ok ()) := by
  refine finish_change_ok ?_
  rw [memberCalls]
  dsimp only
  rw [hf]
  rfl

/-- What follows a cleanup only on failure, after a success. -/
theorem finish_recover {p cleanup : Change Unit} {s t : Keystore} (h : p.finish s = (t, .ok ())) :
    (p.handle fun
      | .ok () => pure ()
      | .error e => do
        ignoring cleanup
        done (.error e)).finish s = (t, .ok ()) := by
  rw [finish_handle_ok h]
  rfl

/-- **A FILE IS WRITTEN** behind the files of its directory. -/
theorem finish_saveTextRestrictedAt (hfree : dir.lookup child = none) {entries : KeyDirectory}
    (data : Bytes) {uuid : Uuid} (hname : entries.lookup name = none)
    (htemp : entries.lookup (uniqueWriteStagingName name uuid.text) = none)
    (htarget : checkedAtomicWriteTargetName name = .ok ()) :
    ((childCalls member child).saveTextRestrictedAt name data uuid).finish
        (withChild dir child entries)
      = (withChild dir child (entries ++ [(name, .file ⟨data, true⟩)]), .ok ()) := by
  rw [saveTextRestrictedAt]
  generalize uniqueWriteStagingName name uuid.text = tempName at htemp
  have hcreate : ((childCalls member child).createEntry tempName
      ((childCalls member child).regular ⟨[], true⟩) "temp file").finish
      (withChild dir child entries)
        = (withChild dir child (entries ++ [(tempName, .file ⟨[], true⟩)]), .ok ()) := by
    refine finish_childEdit hfree ?_
    rw [creating, htemp]
    rfl
  have hwrite : ((childCalls member child).writeEntry tempName data).finish
      (withChild dir child (entries ++ [(tempName, .file ⟨[], true⟩)]))
        = (withChild dir child (entries ++ [(tempName, .file ⟨data, true⟩)]), .ok ()) :=
    finish_childEdit hfree (congrArg Except.ok (insertKey_concat htemp _ _))
  have hrename : ((childCalls member child).renameEntry tempName name).finish
      (withChild dir child (entries ++ [(tempName, .file ⟨data, true⟩)]))
        = (withChild dir child (entries ++ [(name, .file ⟨data, true⟩)]), .ok ()) := by
    refine finish_childEdit hfree ?_
    have hsource : (entries ++ [(tempName, KeyEntry.file ⟨data, true⟩)]).lookup tempName
        = some (.file ⟨data, true⟩) := by
      rw [lookup_concat _ _ _ htemp, if_pos rfl]
    rw [renamingOver, hsource]
    dsimp only
    rw [if_neg ?_, dropEntry_concat htemp, insertKey_free hname]
    rw [lookup_concat _ _ _ htemp]
    by_cases hsame : name = tempName
    · rw [if_pos hsame]
      exact fun h => by cases h
    · rw [if_neg hsame, hname]
      exact fun h => by cases h
  have hsave : ((childCalls member child).saveStagedFile tempName data).finish
      (withChild dir child entries)
        = (withChild dir child (entries ++ [(tempName, .file ⟨data, true⟩)]), .ok ()) := by
    rw [saveStagedFile, finish_bind_ok hcreate]
    refine finish_recover ?_
    rw [finish_bind_ok (finish_touch _), finish_bind_ok hwrite, finish_touch]
  have hcheck : (ensure (checkedAtomicWriteTargetName name)).finish (withChild dir child entries)
      = (withChild dir child entries, .ok ()) := by
    rw [htarget]
    rfl
  rw [finish_bind_ok hcheck, finish_bind_ok hsave]
  exact (finish_bind_ok (finish_recover hrename)).trans rfl

/-- A directory is made, staged under one free name and renamed to another. -/
theorem finish_saveChildDir {staging : String} (hname : dir.lookup name = none)
    (hstaging : dir.lookup staging = none) (hne : name ≠ staging) :
    (saveChildDirRestrictedAt member name staging).finish (some dir)
      = (withChild dir name [], .ok ()) := by
  have hcreate : ((memberCalls member).createEntry staging (memberCalls member).empty
      "directory").finish (some dir) = (withChild dir staging [], .ok ()) := by
    refine finish_memberEdit ?_
    rw [creating, hstaging]
    rfl
  have hrename : ((memberCalls member).renameNoreplace staging name).finish
      (withChild dir staging []) = (withChild dir name [], .ok ()) := by
    refine finish_memberEdit ?_
    have hsource : (dir ++ [(staging, MemberEntry.directory [])]).lookup staging
        = some (.directory []) := by
      rw [lookup_concat _ _ _ hstaging, if_pos rfl]
    rw [renamingNoreplace, hsource]
    dsimp only
    rw [lookup_free_concat hname hne, dropEntry_concat hstaging]
    rfl
  rw [saveChildDirRestrictedAt, finish_bind_ok hcreate]
  refine finish_recover ?_
  rw [finish_bind_ok (finish_touch _), finish_bind_ok (finish_touch _), finish_bind_ok hrename]
  exact finish_handle_ok (finish_touch _)

/-! ## A pair -/

section Pair

variable {kid : Kid} {privateKey : PrivateKey} {publicKey : PublicKey} {names : PublicationNames}

theorem finish_saveKeyPairFiles (hfree : dir.lookup child = none) :
    (saveKeyPairFiles member child privateKey publicKey names).finish (withChild dir child [])
      = (withChild dir child (keyEntries privateKey publicKey), .ok ()) := by
  have hprivate := @finish_saveTextRestrictedAt member dir child privateKeyFile hfree []
    (renderDocument privateKey.toJson) names.privateFile rfl rfl (by decide)
  have hne : publicKeyFile ≠ privateKeyFile := by decide
  have htemp : Staging (uniqueWriteStagingName publicKeyFile names.publicFile.text) :=
    isWriteStagingName_target names.publicFile rfl (by decide)
  have hstaged : uniqueWriteStagingName publicKeyFile names.publicFile.text ≠ privateKeyFile :=
    fun heq => privateFile_not_staging (heq ▸ htemp)
  have hpublic := @finish_saveTextRestrictedAt member dir child publicKeyFile hfree
    [(privateKeyFile, .file ⟨renderDocument privateKey.toJson, true⟩)]
    (renderDocument publicKey.toJson) names.publicFile (lookup_one_free hne _)
    (lookup_one_free hstaged _) (by decide)
  rw [saveKeyPairFiles, finish_bind_ok hprivate]
  exact hpublic

/-- The names a publication draws are new, and nothing stands under its kid. -/
structure FreshNames (names : PublicationNames) (kid : Kid) (dir : MemberDirectory) : Prop where
  free : dir.lookup kid.text = none
  staging : dir.lookup (uniqueStagingDirName names.staging) = none
  child : dir.lookup (uniqueStagingDirName names.child) = none
  distinct : uniqueStagingDirName names.staging ≠ uniqueStagingDirName names.child

theorem finish_publishKeyPairAtomic (hfresh : FreshNames names kid dir)
    (hidentity : StatesIdentity member kid privateKey publicKey) :
    (publishKeyPairAtomic member kid privateKey publicKey names).finish (some dir)
      = (withChild dir kid.text (keyEntries privateKey publicKey), .ok ()) := by
  have htemp : Staging (uniqueStagingDirName names.staging) := isWriteStagingName_dir _
  have hne : kid.text ≠ uniqueStagingDirName names.staging :=
    fun heq => kid_not_staging kid (heq ▸ htemp)
  have hprivate : ∀ s : Keystore, (ensure (ensureDocumentStatesStoredIdentity
      privateKey.protect.subjectHandle privateKey.protect.kid member kid
        (keyEntryPath member kid privateKeyFile))).finish s = (s, .ok ()) := fun s => by
    rw [ensureDocumentStatesStoredIdentity, if_pos hidentity.1]
    rfl
  have hpublic : ∀ s : Keystore, (ensure (ensureDocumentStatesStoredIdentity
      publicKey.protect.subjectHandle publicKey.protect.kid member kid
        (keyEntryPath member kid publicKeyFile))).finish s = (s, .ok ()) := fun s => by
    rw [ensureDocumentStatesStoredIdentity, if_pos hidentity.2]
    rfl
  have hrename : ((memberCalls member).renameNoreplace (uniqueStagingDirName names.staging)
      kid.text).finish (withChild dir (uniqueStagingDirName names.staging)
        (keyEntries privateKey publicKey))
        = (withChild dir kid.text (keyEntries privateKey publicKey), .ok ()) := by
    refine finish_memberEdit ?_
    have hsource : (dir ++ [(uniqueStagingDirName names.staging,
        MemberEntry.directory (keyEntries privateKey publicKey))]).lookup
          (uniqueStagingDirName names.staging)
        = some (.directory (keyEntries privateKey publicKey)) := by
      rw [lookup_concat _ _ _ hfresh.staging, if_pos rfl]
    rw [renamingNoreplace, hsource]
    dsimp only
    rw [lookup_free_concat hfresh.free hne, dropEntry_concat hfresh.staging]
    rfl
  have hpublish : (publishStagedKeyPair member kid privateKey publicKey names).finish
      (withChild dir (uniqueStagingDirName names.staging) [])
        = (withChild dir kid.text (keyEntries privateKey publicKey), .ok ()) := by
    rw [publishStagedKeyPair, finish_bind_ok (finish_saveKeyPairFiles hfresh.staging)]
    exact hrename
  rw [publishKeyPairAtomic, finish_bind_ok (hprivate _), finish_bind_ok (hpublic _),
    finish_bind_ok (finish_saveChildDir hfresh.staging hfresh.child hfresh.distinct),
    finish_handle_ok hpublish]
  rfl

/-- A key directory may stand under its kid. -/
theorem ensureSafe_kid (kid : Kid) :
    ensureKeystoreEntrySafe .member kid.text .directory = .ok () := by
  rw [ensureKeystoreEntrySafe, if_neg (kid_not_staging kid), KeystoreLevel.storedType,
    if_neg (kid_ne_active kid), if_pos kid.valid]
  rfl

/-- A member directory is there once it was asked for. -/
theorem finish_ensureMember (s : Keystore) :
    ensureMember.finish s = (some (s.getD []), .ok ()) := by
  cases s with
  | none => rfl
  | some dir => rfl

/-- **A PAIR IS PUBLISHED** behind what stood in the member directory. -/
theorem finish_saveKeyPairAtomic {s : Keystore} (horder : InOrder member s)
    (hfresh : FreshNames names kid (s.getD []))
    (hidentity : StatesIdentity member kid privateKey publicKey) :
    (saveKeyPairAtomic member kid privateKey publicKey names).finish s
      = (withChild (s.getD []) kid.text (keyEntries privateKey publicKey), .ok ()) := by
  have hsafe : ∀ e ∈ s.getD [], ensureKeystoreEntrySafe .member e.1 e.2.childType = .ok () := by
    cases s with
    | none => exact fun e he => absurd he List.not_mem_nil
    | some dir => exact (horder dir rfl).safe
  rw [saveKeyPairAtomic, finish_bind_ok (finish_ensureMember s)]
  generalize s.getD [] = dir at hfresh hsafe ⊢
  have hbefore : ensureNamespaceSafe.finish (some dir) = (some dir, .ok ()) :=
    Prod.ext rfl (listKids_of_safe hsafe).1
  have hafter : (mapError (postMutationError (memberEntryPath member kid.text) "was written")
      ensureNamespaceSafe).finish (withChild dir kid.text (keyEntries privateKey publicKey))
        = (withChild dir kid.text (keyEntries privateKey publicKey), .ok ()) := by
    have hlist := (@listKids_of_safe
      (dir ++ [(kid.text, .directory (keyEntries privateKey publicKey))]) fun e he => by
        rcases List.mem_append.mp he with hold | hnew
        · exact hsafe e hold
        · rw [List.mem_singleton.mp hnew]
          exact ensureSafe_kid kid).1
    rw [mapError, finish_handle_ok (show ensureNamespaceSafe.finish _
      = (withChild dir kid.text (keyEntries privateKey publicKey), .ok ()) from Prod.ext rfl hlist)]
    rfl
  rw [finish_bind_ok hbefore, finishMemberMutation,
    finish_bind_ok (finish_publishKeyPairAtomic hfresh hidentity), finish_bind_ok hafter]
  rfl

end Pair

/-! ## Activation -/

/-- **A KEY IS ACTIVATED** when it can be selected and the staging name is new. -/
theorem finish_activateExistingKey {T : TextParsers} {kid : Kid} {now : Int} {uuid : Uuid}
    {createdAt : Option Int} (h : Intact member dir)
    (hfresh : dir.lookup (uniqueWriteStagingName activeFile uuid.text) = none)
    (hselectable : Selectable T member dir now kid createdAt) :
    ((activateExistingKey T member kid now uuid).finish (some dir)).2 = .ok () := by
  have horder : InOrder member (some dir) := fun dir' hdir => Option.some.inj hdir ▸ h
  have hkept := (safe_saveActiveKid uuid horder (held_of_selectable T hselectable)).finish
  obtain ⟨t, hsave⟩ : ∃ t, (saveActiveKidLocked member kid uuid).finish (some dir) = (t, .ok ()) :=
    ⟨_, Prod.ext rfl (finish_saveActiveKid h kid hfresh)⟩
  rw [hsave] at hkept
  obtain ⟨dir', rfl, _⟩ := hkept.2 rfl
  have hbefore : ensureNamespaceSafe.finish (some dir) = (some dir, .ok ()) :=
    Prod.ext rfl (listKids_of_safe h.safe).1
  have hafter : (mapError (postMutationError (memberEntryPath member activeFile) "was written")
      ensureNamespaceSafe).finish (some dir') = (some dir', .ok ()) := by
    rw [mapError, finish_handle_ok
      (show ensureNamespaceSafe.finish (some dir') = (some dir', .ok ())
      from Prod.ext rfl (listKids_of_safe (hkept.1 dir' rfl).safe).1)]
    rfl
  rw [activateExistingKey, finish_bind_ok (show (openMember _).finish (some dir)
    = (some dir, .ok dir) from rfl), finish_bind_ok (finish_touch _), finish_bind_ok hbefore,
    finishMemberMutation]
  refine (congrArg Prod.snd (finish_bind_ok (t := some dir') (a := ()) ?_)).trans ?_
  · rw [finish, Option.getD_some, (activatable_iff T createdAt).mpr hselectable]
    exact hsave
  · rw [finish_bind_ok hafter]
    rfl

/-! ## The command -/

section Command

variable {C : Crypto} {T : TextParsers} {timeError : String → String} {backend : SignatureBackend}
variable {sshPubkey : String} {checkDeterminism : Bool} {options : LocalKeyGenerationOptions}
variable {surroundings : Surroundings} {directories : MemberDirectories}
variable {generated : KeyGenerationResult} {kid : Kid}

/-- A generated key that is stored can be selected until it expires. -/
theorem selectable_generated {options : KeyGenerationOptions} {material : KeypairMaterial}
    {fresh : FreshPrivateKeyProtectionMaterial} {now expiry createdAt : Int} (hC : Lawful C)
    (hkeys : KeyHalves C)
    (hbinding : buildSshSigningContext C backend sshPubkey checkDeterminism
      = .ok options.sshBinding)
    (hwf : options.WellFormed) (hsmall : KeySizes.optionsSize options ≤ 1000000)
    (hmade : generateKey C options material fresh = .ok generated)
    (hidentity : StatesIdentity member kid generated.privateKey generated.publicKey)
    (hstored : Stored generated.privateKey generated.publicKey (dir.lookup kid.text))
    (hexpiry : T.rfc3339 options.expiresAt = some expiry) (hnow : now < expiry)
    (hcreated : T.rfc3339 options.createdAt = some createdAt) :
    Selectable T member dir now kid (some createdAt) := by
  obtain ⟨entries, hcomplete⟩ := complete_of_stored hstored hidentity
    (KeySizes.readable_generated hC hkeys hmade hsmall)
    (parse_generated hC hkeys hbinding hwf hmade)
  obtain ⟨_, ⟨body, rawSig, hbuilt⟩, _, _⟩ := generateKey_ok hmade
  refine ⟨entries, _, _, expiry, hcomplete, ?_, hnow, ?_⟩
  · rw [KeystoreReads.parseExpiresAt, hbuilt.protect, hexpiry]
  · rw [parseCreatedAt, hbuilt.protect]
    dsimp only
    rw [hcreated]

/-- What an activation of the new key needs: a name for the marker, and a key that has not
    expired. -/
structure Activatable (T : TextParsers) (options : LocalKeyGenerationOptions)
    (surroundings : Surroundings) (dir : MemberDirectory) : Prop where
  marker : dir.lookup (uniqueWriteStagingName activeFile surroundings.marker.text) = none
  expires : ∃ expiry, T.rfc3339 options.expiresAt = some expiry ∧ surroundings.activatedAt < expiry
  created : ∃ createdAt, T.rfc3339 options.createdAt = some createdAt

/-- A generation that passes its checks is reported when no call fails. -/
theorem finish_generateAndSaveKey (hC : Lawful C) (hkeys : KeyHalves C)
    (hbinding : buildSshSigningContext C backend sshPubkey checkDeterminism
      = .ok options.sshBinding)
    (hwf : options.toKeyGenerationOptions.WellFormed)
    (hsmall : KeySizes.optionsSize options.toKeyGenerationOptions ≤ 1000000)
    (hprepared : Prepared C T timeError options surroundings directories generated member kid)
    (horder : InOrder member (directories member))
    (hfresh : FreshNames surroundings.names kid ((directories member).getD []))
    (hactivatable : options.noActivate = false →
      Activatable T options surroundings ((directories member).getD [])) :
    ((generateAndSaveKey C T timeError options surroundings).finish directories).2
      = .ok (generationReport options generated) := by
  have hidentity : StatesIdentity member kid generated.privateKey generated.publicKey :=
    statesIdentity_generated hprepared.made hprepared.owner hprepared.named
  have hsave := finish_saveKeyPairAtomic horder hfresh hidentity
  -- Storing makes the entry, and the marker is set if the options ask for it.
  have hstore : ((storeGeneratedKey T member kid generated options.noActivate surroundings).finish
      (directories member)).2 = .ok () := by
    rw [storeGeneratedKey, finish_bind_ok hsave, publishGeneratedKey]
    cases hno : options.noActivate with
    | true => rfl
    | false =>
      -- The new entry passes the checks that the marker makes of the key it points at.
      obtain ⟨hmarker, ⟨expiry, hexpiry, hnow⟩, createdAt, hcreated⟩ := hactivatable hno
      have hkept := (keeps_saveKeyPairAtomic kid generated.privateKey generated.publicKey
        surroundings.names _ horder).finish.1
      rw [hsave, withChild] at hkept
      have htemp : Staging (uniqueWriteStagingName activeFile surroundings.marker.text) :=
        isWriteStagingName_active surroundings.marker
      have hstored : Stored generated.privateKey generated.publicKey
          ((((directories member).getD []) ++ [(kid.text, MemberEntry.directory
            (keyEntries generated.privateKey generated.publicKey))]).lookup kid.text) := by
        rw [lookup_concat _ _ _ hfresh.free, if_pos rfl]
        exact stored_keyEntries _ _
      have hselectable := selectable_generated hC hkeys hbinding hwf hsmall hprepared.made hidentity
        hstored hexpiry hnow hcreated
      have hne : uniqueWriteStagingName activeFile surroundings.marker.text ≠ kid.text :=
        fun heq => kid_not_staging kid (heq ▸ htemp)
      have hactivate := finish_activateExistingKey (hkept _ rfl)
        (lookup_free_concat hmarker hne _) hselectable
      rw [if_neg Bool.false_ne_true, mapError, finish_handle, withChild]
      rw [hactivate]
      rfl
  have hmember : MemberHandle.tryFrom generated.memberHandle = .ok member := by
    rw [(states_generated hprepared.made).1, hprepared.owner]
    exact DecryptionKeys.tryFrom_handle member
  have hkid : kidFromCanonical generated.kid = .ok kid := by
    rw [kidFromCanonical, ← hprepared.named, kidOfText?_text]
  -- The store happens in one member's directory, and the others are left alone.
  have hpart : ((storeGeneratedKey T member kid generated options.noActivate surroundings).part
      member).finish directories
        = (Function.update directories member ((storeGeneratedKey T member kid generated
            options.noActivate surroundings).finish (directories member)).1, .ok ()) := by
    rw [finish_part, hstore]
  have hsaved : (saveGeneratedKey T generated options.noActivate surroundings).finish directories
      = (Function.update directories member ((storeGeneratedKey T member kid generated
          options.noActivate surroundings).finish (directories member)).1, .ok ()) := by
    rw [saveGeneratedKey, hmember, hkid]
    exact hpart
  rw [generateAndSaveKey, finish_bind_ok (finish_change_ok rfl), mapError_ok.mpr hprepared.made]
  have hunique : (observe fun directories => ensureKidNotInKeystore surroundings.listing directories
      generated.kid).finish directories = (directories, .ok ()) := Prod.ext rfl hprepared.unique
  have hexpiry : (done (enforceExpiryAfter T timeError generated.expiresAt surroundings.storedAt)
      : Steps MemberDirectories Error Unit).finish directories = (directories, .ok ()) :=
    Prod.ext rfl hprepared.expiry
  refine (congrArg Prod.snd (finish_bind_ok (t := directories) (a := generated) rfl)).trans ?_
  rw [finish_bind_ok hunique, finish_bind_ok hexpiry, finish_bind_ok hsaved]
  rfl

/-- **A GENERATION THAT PASSES ITS CHECKS SUCCEEDS**: once enough calls have gone through, and none
    has failed, it has reported the generated key, provided the names it draws are new. -/
theorem generation_succeeds (hC : Lawful C) (hkeys : KeyHalves C)
    (hbinding : buildSshSigningContext C backend sshPubkey checkDeterminism
      = .ok options.sshBinding)
    (hwf : options.toKeyGenerationOptions.WellFormed)
    (hsmall : KeySizes.optionsSize options.toKeyGenerationOptions ≤ 1000000)
    (hprepared : Prepared C T timeError options surroundings directories generated member kid)
    (horder : InOrder member (directories member))
    (hfresh : FreshNames surroundings.names kid ((directories member).getD []))
    (hactivatable : options.noActivate = false →
      Activatable T options surroundings ((directories member).getD [])) :
    ∃ least, ∀ n, least ≤ n →
      ((generateAndSaveKey C T timeError options surroundings).run (List.replicate n none)
        directories).2 = some (.ok (generationReport options generated)) := by
  have hfinish := finish_generateAndSaveKey hC hkeys hbinding hwf hsmall hprepared horder hfresh
    hactivatable
  obtain ⟨least, hleast⟩ := run_replicate (generateAndSaveKey C T timeError options surroundings)
    directories
  refine ⟨least, fun n hn => ?_⟩
  rw [hleast n hn, hfinish]

end Command

/-! ## A first key -/

def toyLocalOptions : LocalKeyGenerationOptions where
  toKeyGenerationOptions := toyOptions
  noActivate := false
  githubVerification := .notConfigured

def toySurroundings : Surroundings where
  material := toyMaterial
  fresh := toyFresh
  names := ⟨toyUuid, otherUuid, toyUuid, toyUuid⟩
  marker := toyUuid
  listing := .ok []
  storedAt := 0
  activatedAt := 0

/-- The toy key can be generated into an empty store. -/
theorem prepared_toy : ∃ generated kid,
    Prepared ToyCrypto.toyCrypto ToyTrust.toyParsers (fun _ => "") toyLocalOptions toySurroundings
      (fun _ => none) generated ToyDocuments.alice kid := by
  obtain ⟨generated, hmade⟩ := generateKey_toy
  refine ⟨generated, ⟨generated.kid, isKidText_generated hmade⟩, hmade, by decide, rfl, ?_, ?_⟩
  · have hmissing : findMemberByKid (.ok []) (fun _ => none) generated.kid
        = .error (.notFound s!"kid '{generated.kid}' not found") := by
      have hquery := normalizeKidQuery_kid ⟨generated.kid, isKidText_generated hmade⟩
      dsimp only at hquery
      rw [findMemberByKid]
      dsimp only [bind, Except.bind, pure, Except.pure, List.mapM_nil, List.flatMap_nil,
        List.map_nil]
      rw [resolveUniqueKid, hquery]
      rfl
    show ensureKidNotInKeystore (.ok []) (fun _ => none) generated.kid = .ok ()
    rw [ensureKidNotInKeystore, hmissing]
  · rw [(states_generated hmade).2]
    decide +kernel

theorem small_toyOptions : KeySizes.optionsSize toyLocalOptions.toKeyGenerationOptions
    ≤ 1000000 := by
  decide +kernel

theorem freshNames_toy (kid : Kid) : FreshNames toySurroundings.names kid [] :=
  ⟨rfl, rfl, rfl, by decide⟩

theorem activatable_toy : Activatable ToyTrust.toyParsers toyLocalOptions toySurroundings [] :=
  ⟨rfl, ⟨_, rfl, by decide +kernel⟩, _, rfl⟩

theorem generation_succeeds_toy : ∃ generated least, ∀ n, least ≤ n →
    ((generateAndSaveKey ToyCrypto.toyCrypto ToyTrust.toyParsers (fun _ => "") toyLocalOptions
      toySurroundings).run (List.replicate n none) fun _ => none).2
        = some (.ok (generationReport toyLocalOptions generated)) := by
  obtain ⟨generated, kid, hprepared⟩ := prepared_toy
  exact ⟨generated, generation_succeeds ToyCrypto.lawful_toyCrypto keyHalves_toyCrypto
    buildSshSigningContext_toy wellFormed_toyOptions small_toyOptions hprepared
    (fun _ h => by cases h) (freshNames_toy kid) fun _ => activatable_toy⟩

end KeyProgress
