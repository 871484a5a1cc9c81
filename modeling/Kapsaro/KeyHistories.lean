import Kapsaro.KeyProgress

/-!
# Key histories — a reported key serves until it is removed

The key store of all members over any number of commands: keys are generated, published, activated
and removed, each command with any of its calls failing and stopped anywhere.

* **`StoreOperation`**, **`storeProgram`** — a command on the store.
* **`Spares`**, **`LeavesMarker`** — commands that do not remove a key, or move the marker.
* **`Serves`** — what a key is good for that was reported earlier.
* **`reported_key_serves`** — once a generation was reported, its key opens and signs in every later
  state of the store, until it is removed.
-/

namespace KeyHistories

open Limits TextLines JsonText WireTexts WireModel DocumentTokens SignedArtifacts KeyProtection
open TrustStore MemberStore KidTexts SshWire KeyAttestation KeyUnlock KeyGeneration KeySizes
open KeystoreReads KeystoreChanges KeystoreMarker KeystoreSafety KeystoreSelection KeyStorage
open LocalKeys GenerateCommand KeyProgress StepPrograms StepPrograms.Steps
open Envelope hiding PrivateKey

/-! ## Commands on the store -/

/-- A command: a generation, or one of the operations on the keys of a member. -/
inductive StoreOperation where
  | generate (options : LocalKeyGenerationOptions) (surroundings : Surroundings)
  | change (member : MemberHandle) (operation : KeystoreOperation)

def storeProgram (C : Crypto) (T : TextParsers) (timeError : String → String) :
    StoreOperation → Steps MemberDirectories Error Unit
  | .generate options surroundings => do
    let _ ← generateAndSaveKey C T timeError options surroundings
    pure ()
  | .change member operation => (program T member operation).part member

/-- The command does not remove a key of the member. -/
def Spares (member : MemberHandle) (kid : Kid) : StoreOperation → Prop
  | .generate .. => True
  | .change other operation => other = member → KeyStorage.Spares kid operation

/-- The operation does not touch the marker. -/
def Publishes : KeystoreOperation → Prop
  | .publish .. => True
  | .activate .. | .activateLatest .. | .remove .. => False

/-- The command does not touch the marker of the member. -/
def LeavesMarker (member : MemberHandle) : StoreOperation → Prop
  | .generate options _ => options.memberHandle = member.text → options.noActivate = true
  | .change other operation => other = member → Publishes operation

variable {C : Crypto} {P : Platform} {errors : SignatureErrors} {T : TextParsers}
variable {timeError : String → String} {member : MemberHandle} {kid : Kid}

/-- Every command keeps all directories in order. -/
theorem keeps_storeProgram_inOrder (operation : StoreOperation) :
    Keeps (fun S : MemberDirectories => ∀ m, InOrder m (S m))
      (storeProgram C T timeError operation) := by
  cases operation with
  | generate options surroundings =>
    exact Keeps.bind keeps_generateAndSaveKey_inOrder fun _ => Keeps.done _ _
  | change m operation => exact Keeps.parts m (keeps_program T m operation)

/-- **A COMMAND THAT SPARES A KEY DOES NOT TOUCH IT**. -/
theorem keeps_storeProgram_entry (entry : MemberEntry) (operation : StoreOperation)
    (hspares : Spares member kid operation) :
    Keeps (fun S : MemberDirectories => EntryIs kid.text (· = some entry) (S member))
      (storeProgram C T timeError operation) := by
  cases operation with
  | generate options surroundings =>
    refine Keeps.bind (fun S hS => ?_) fun _ => Keeps.done _ _
    refine safe_generateAndSaveKey_entry member hS fun generated other _ => ?_
    refine (safe_storeGeneratedKey (kid_not_staging kid) (fun heq => absurd heq (kid_ne_active kid))
      hS ?_).mono (fun _ h => h) fun _ _ _ _ => trivial
    intro _ hnone
    cases hnone
  | change m operation =>
    by_cases hm : member = m
    · subst hm
      exact Keeps.part member (keeps_entry T entry operation (hspares rfl))
    · exact Keeps.elsewhere hm _

/-- A command that leaves the marker of a member alone. -/
theorem keeps_storeProgram_marker (entry : Option MemberEntry) (operation : StoreOperation)
    (hleaves : LeavesMarker member operation) :
    Keeps (fun S : MemberDirectories => EntryIs activeFile (· = entry) (S member))
      (storeProgram C T timeError operation) := by
  cases operation with
  | generate options surroundings =>
    refine Keeps.bind (fun S hS => ?_) fun _ => Keeps.done _ _
    refine safe_generateAndSaveKey_entry member hS fun generated other hprepared => ?_
    exact (safe_storeGeneratedKey activeFile_not_staging (fun _ => hleaves hprepared.owner) hS
      fun heq => absurd heq.symm (kid_ne_active other)).mono (fun _ h => h) fun _ _ _ _ => trivial
  | change m operation =>
    by_cases hm : member = m
    · subst hm
      refine Keeps.part member ?_
      cases operation with
      | publish other privateKey publicKey names =>
        intro s hs
        exact (safe_saveKeyPairAtomic other privateKey publicKey names activeFile_not_staging hs
          fun heq => absurd heq.symm (kid_ne_active other)).mono (fun _ h => h)
          fun _ _ _ _ => trivial
      | activate other now uuid => exact absurd (hleaves rfl) id
      | activateLatest now uuid => exact absurd (hleaves rfl) id
      | remove other validate => exact absurd (hleaves rfl) id
    · exact Keeps.elsewhere hm _

/-! ## Asking for a kid -/

/-- Names are listed in their order. -/
theorem listKeystoreChildDirectories_sublist {dir : MemberDirectory} {names : List String}
    (h : listKeystoreChildDirectories dir = .ok names) : names.Sublist (dir.map Prod.fst) := by
  induction dir generalizing names with
  | nil =>
    obtain rfl := Except.ok.inj h
    exact List.Sublist.slnil
  | cons e dir ih =>
    obtain ⟨name, entry⟩ := e
    rw [listKeystoreChildDirectories] at h
    rw [List.map_cons]
    by_cases hstaging : isWriteStagingName name = true
    · rw [if_pos hstaging] at h
      exact (ih h).cons name
    · rw [if_neg hstaging] at h
      obtain ⟨⟨⟩, _, h⟩ := bind_eq_ok.mp h
      obtain ⟨rest, hrest, h⟩ := bind_eq_ok.mp h
      obtain rfl := Except.ok.inj h
      by_cases hdir : entry.childType = .directory
      · rw [if_pos hdir]
        exact (ih hrest).cons_cons name
      · rw [if_neg hdir]
        exact (ih hrest).cons name

/-- Asking for a kid that stands in a directory of distinct names resolves to it. -/
theorem resolveKid_named {now : Int} {dir : MemberDirectory} (hintact : Intact member dir)
    (hnames : (dir.map Prod.fst).Nodup) {entries : KeyDirectory}
    (hlook : dir.lookup kid.text = some (.directory entries)) :
    resolveKid T now member dir (some kid.text) = .ok kid := by
  obtain ⟨_, kids, hkids, hall⟩ := listKids_of_safe hintact.safe
  have hin : kid ∈ kids := hall kid entries hlook
  have hnodup : kids.Nodup := by
    rw [listKidsInVerifiedNamespace] at hkids
    cases hlist : listKeystoreChildDirectories dir with
    | error e =>
      rw [hlist] at hkids
      cases hkids
    | ok names =>
      rw [hlist] at hkids
      obtain rfl := Except.ok.inj hkids
      refine ((listKeystoreChildDirectories_sublist hlist).nodup hnames).filterMap ?_
      intro a b k ha hb
      rw [Option.mem_def, kidOfText?, Option.dite_none_right_eq_some] at ha hb
      obtain ⟨_, ha⟩ := ha
      obtain ⟨_, hb⟩ := hb
      exact (congrArg Kid.text (Option.some.inj ha)).trans
        (congrArg Kid.text (Option.some.inj hb)).symm
  have hresolved : resolveUniqueKid (kids.map Kid.text) kid.text = .ok kid.text := by
    refine (resolveUniqueKid_ok hnodup).mpr ⟨kid.text, normalizeKidQuery_kid kid, ⟨kid, hin, rfl⟩,
      List.prefix_refl _, fun other _ hstarts => ?_⟩
    have hlength : kid.text.toList.length = other.text.toList.length := by
      rw [(isKidText_iff.mp kid.valid).1, (isKidText_iff.mp other.valid).1]
    exact (String.toList_inj.mp (hstarts.eq_of_length hlength)).symm
  refine bind_eq_ok.mpr ⟨kids, hkids, bind_eq_ok.mpr ⟨_, hresolved, ?_⟩⟩
  rw [kidFromCanonical, kidOfText?_text]

/-! ## Keys that were reported -/

section Reported

variable {backend : SignatureBackend} {sshPubkey : String} {checkDeterminism : Bool}
variable {options : LocalKeyGenerationOptions} {surroundings : Surroundings}
variable {start : MemberDirectories} {report : GenerationReport}

/-- What a reported key is good for in a later state of the store: `later` are the commands that
    came after its generation. -/
structure Serves (T : TextParsers) (timeError : String → String)
    (options : LocalKeyGenerationOptions)
    (report : GenerationReport) (later : List (StoreOperation × List (Option Error)))
    (final : MemberDirectories) {dir : MemberDirectory}
    (key : PublishedKey C P errors backend sshPubkey member dir) : Prop where
  /-- it stands in the directory of its member, which is in order -/
  stands : final member = some dir ∧ Intact member dir
  /-- it is the one that was reported -/
  reported : report.memberHandle = member.text ∧ report.kid = key.kid.text
    ∧ key.options = options.toKeyGenerationOptions
  /-- whenever it is resolved, a context loads that opens and signs with it -/
  loads : ∀ now explicitKid answered, resolveKid T now member dir explicitKid = .ok key.kid →
    ∃ ctx, loadCryptoContextFromKeystore C P errors T timeError now final backend sshPubkey answered
        member explicitKid = .ok ctx
      ∧ KeystoreContextLaws T now key explicitKid ctx
  /-- asking for its kid resolves it -/
  named : (dir.map Prod.fst).Nodup →
    ∀ now, resolveKid T now member dir (some report.kid) = .ok key.kid
  /-- asking for no kid resolves it, too, while it is the current one -/
  current : report.activated = true → (∀ operation ∈ later, LeavesMarker member operation.1) →
    ∀ now, resolveKid T now member dir none = .ok key.kid

/-- **A REPORTED KEY SERVES UNTIL IT IS REMOVED**: whatever commands came before its generation and
    after it, with any of their calls failing and each of them stopped anywhere. -/
theorem reported_key_serves (hC : Lawful C) (hkeys : KeyHalves C) (hsteady : Steady backend)
    (hbinding : buildSshSigningContext C backend sshPubkey checkDeterminism
      = .ok options.sshBinding)
    (hwf : options.toKeyGenerationOptions.WellFormed)
    (hattests : Attests C P errors options.toKeyGenerationOptions surroundings.material)
    (hsmall : optionsSize options.toKeyGenerationOptions ≤ 1000000)
    (hstart : ∀ m, InOrder m (start m))
    (before later : List (StoreOperation × List (Option Error))) (faults : List (Option Error))
    (hreport : ((generateAndSaveKey C T timeError options surroundings).run faults
      (runs (storeProgram C T timeError) before start)).2 = some (.ok report))
    (hspares : ∀ (m : MemberHandle) (kid : Kid), report.memberHandle = m.text →
      report.kid = kid.text → ∀ operation ∈ later, Spares m kid operation.1) :
    ∃ (member : MemberHandle) (dir : MemberDirectory)
      (key : PublishedKey C P errors backend sshPubkey member dir),
      Serves T timeError options report later
        (runs (storeProgram C T timeError)
          (before ++ (.generate options surroundings, faults) :: later) start) key := by
  -- the store before the generation, and what the generation has left
  have hbefore : ∀ m, InOrder m (runs (storeProgram C T timeError) before start m) :=
    runs_invariant keeps_storeProgram_inOrder before hstart
  have hruns : runs (storeProgram C T timeError)
        (before ++ (.generate options surroundings, faults) :: later) start
      = runs (storeProgram C T timeError) later
        ((generateAndSaveKey C T timeError options surroundings).run faults
          (runs (storeProgram C T timeError) before start)).1 := by
    rw [runs_append]
    refine congrArg (runs (storeProgram C T timeError) later) ?_
    exact run_forget _ _ _
  rw [hruns]
  generalize runs (storeProgram C T timeError) before start = reached at hbefore hreport
  have hafter := ((@keeps_generateAndSaveKey_inOrder C T timeError options surroundings reached
    hbefore).run faults).1
  obtain ⟨generated, member, kid, hprepared, hgenerated, _, hstored, hidentity, hmarked⟩ :=
    (safe_saved.run faults).2 _ hreport report rfl
  generalize ((generateAndSaveKey C T timeError options surroundings).run faults reached).1 = saved
    at hafter hstored hmarked
  have howner : report.memberHandle = member.text := by
    rw [hgenerated]
    exact (states_generated hprepared.made).1.trans hprepared.owner
  have hkid : report.kid = kid.text := by
    rw [hgenerated]
    exact hprepared.named.symm
  -- the entry of the key outlasts the later commands
  have hfinal : ∀ m, InOrder m (runs (storeProgram C T timeError) later saved m) :=
    runs_invariant keeps_storeProgram_inOrder later hafter
  obtain ⟨entries, hentry, hwritten⟩ := hstored
  have hkept : EntryIs kid.text (· = some (.directory entries))
      (runs (storeProgram C T timeError) later saved member) :=
    @runs_invariant_among _ _ _ _ (storeProgram C T timeError)
      (fun S => EntryIs kid.text (· = some (.directory entries)) (S member)) later
      (fun operation hoperation => keeps_storeProgram_entry _ operation.1
        (hspares member kid howner hkid operation hoperation)) saved hentry
  have hmarker : (∀ operation ∈ later, LeavesMarker member operation.1) →
      EntryIs activeFile (· = standing activeFile (saved member))
        (runs (storeProgram C T timeError) later saved member) := fun hleaves =>
    @runs_invariant_among _ _ _ _ (storeProgram C T timeError)
      (fun S => EntryIs activeFile (· = standing activeFile (saved member)) (S member)) later
      (fun operation hoperation => keeps_storeProgram_marker _ operation.1
        (hleaves operation hoperation)) saved rfl
  generalize runs (storeProgram C T timeError) later saved = final at hfinal hkept hmarker
  obtain ⟨dir, hdir⟩ : ∃ dir, final member = some dir := by
    cases hdir : final member with
    | some dir => exact ⟨dir, rfl⟩
    | none =>
      rw [hdir] at hkept
      cases (show (none : Option MemberEntry) = some (.directory entries) from hkept)
  rw [hdir] at hkept hmarker
  have hlook : dir.lookup kid.text = some (.directory entries) := hkept
  have hintact := hfinal member dir hdir
  have hstored : Stored generated.privateKey generated.publicKey (dir.lookup kid.text) := by
    rw [hlook]
    exact ⟨entries, rfl, hwritten⟩
  obtain ⟨key, hkey, hkeyKid⟩ := (GeneratedKey.mk checkDeterminism options.toKeyGenerationOptions
    surroundings.material surroundings.fresh generated hbinding hwf hprepared.made hattests
    hsmall).published hC hkeys hidentity hstored
  refine ⟨member, dir, key, ⟨hdir, hintact⟩, ⟨howner, by rw [hkeyKid, hkid], by rw [hkey]⟩,
    ?_, ?_, ?_⟩
  · intro now explicitKid answered hresolve
    obtain ⟨ctx, hctx, h⟩ := @loadCryptoContext_ok C P errors T timeError now _ _ _ _ _ hC hkeys
      hsteady hdir key _ hresolve answered
    exact ⟨ctx, hctx, h.laws hC hkeys hsteady hdir (listKids_of_safe hintact.safe).1⟩
  · intro hnames now
    rw [hkid, hkeyKid]
    exact resolveKid_named hintact hnames hlook
  · intro hactivated hleaves now
    have hno : options.noActivate = false := by
      rw [hgenerated] at hactivated
      exact Bool.not_eq_true' _ ▸ hactivated
    obtain ⟨savedDir, hsavedDir, hactive⟩ := hmarked hno (hbefore member)
    have hsame : dir.lookup activeFile = savedDir.lookup activeFile := by
      have hmark := hmarker hleaves
      rw [hsavedDir] at hmark
      exact hmark
    rw [hkeyKid]
    refine bind_eq_ok.mpr ⟨(), (listKids_of_safe hintact.safe).1,
      bind_eq_ok.mpr ⟨some kid, ?_, rfl⟩⟩
    rw [loadActiveKid_congr hsame, hactive]

end Reported

/-- Another command on the keys of alice, which is stopped. -/
def toyLater : List (StoreOperation × List (Option Error)) :=
  [(.change ToyDocuments.alice (.activateLatest 0 otherUuid), [none, none, none])]

/-- The first key of alice serves after it. -/
theorem reported_key_serves_toy :
    ∃ faults report member dir,
      ∃ key : PublishedKey ToyCrypto.toyCrypto .bits64 ⟨"", ""⟩ toyBackend toyLine member dir,
        Serves ToyTrust.toyParsers (fun _ => "") toyLocalOptions report toyLater
          (runs (storeProgram ToyCrypto.toyCrypto ToyTrust.toyParsers fun _ => "")
            ([] ++ (.generate toyLocalOptions toySurroundings, faults) :: toyLater)
            fun _ => none) key := by
  obtain ⟨generated, kid, hprepared⟩ := prepared_toy
  have hempty : ∀ m, InOrder m ((fun _ => none : MemberDirectories) m) := fun _ _ h => by cases h
  have hfinish := finish_generateAndSaveKey ToyCrypto.lawful_toyCrypto keyHalves_toyCrypto
    buildSshSigningContext_toy wellFormed_toyOptions small_toyOptions hprepared (hempty _)
    (freshNames_toy kid) fun _ => activatable_toy
  obtain ⟨least, hleast⟩ :=
    run_replicate (generateAndSaveKey ToyCrypto.toyCrypto ToyTrust.toyParsers
    (fun _ => "") toyLocalOptions toySurroundings) fun _ => none
  have hsteady : Steady toyBackend := fun _ _ _ _ _ => rfl
  have hstart : runs (storeProgram ToyCrypto.toyCrypto ToyTrust.toyParsers fun _ => "") []
      (fun _ => none) = (fun _ => none : MemberDirectories) := rfl
  have hreport : ((generateAndSaveKey ToyCrypto.toyCrypto ToyTrust.toyParsers (fun _ => "")
      toyLocalOptions toySurroundings).run (List.replicate least none)
        (runs (storeProgram ToyCrypto.toyCrypto ToyTrust.toyParsers fun _ => "") []
          fun _ => none)).2 = some (.ok (generationReport toyLocalOptions generated)) := by
    rw [hstart, hleast least (Nat.le_refl _), hfinish]
  have hspares : ∀ (m : MemberHandle) (kid : Kid),
      (generationReport toyLocalOptions generated).memberHandle = m.text →
      (generationReport toyLocalOptions generated).kid = kid.text →
      ∀ operation ∈ toyLater, Spares m kid operation.1 := by
    intro m kid _ _ operation hoperation
    rw [List.mem_singleton.mp hoperation]
    exact fun _ => trivial
  obtain ⟨member, dir, key, hserves⟩ := @reported_key_serves ToyCrypto.toyCrypto .bits64 ⟨"", ""⟩
    ToyTrust.toyParsers (fun _ => "") toyBackend toyLine true toyLocalOptions toySurroundings
    (fun _ => none) _ ToyCrypto.lawful_toyCrypto keyHalves_toyCrypto hsteady
    buildSshSigningContext_toy wellFormed_toyOptions attests_toy small_toyOptions hempty [] toyLater
    (List.replicate least none) hreport hspares
  exact ⟨_, _, member, dir, key, hserves⟩

end KeyHistories
