import Kapsaro.KeystoreMarker

/-!
# Keystore safety — the marker never dangles

Every operation on a member directory keeps the invariant at each of its calls, whichever of them
fail and wherever it is stopped.

* **`guarded_staging`**, **`guarded_child`**, **`guarded_removed`** — calls that cannot touch the
  marker or the key it names.
* **`keeps_publish`**, **`keeps_activate`**, **`keeps_remove`** — the three kinds of operations.
* **`safe_saveActiveKid`** — a marker is written for a key that is complete.
-/

namespace KeystoreSafety

open JsonText Limits TextLines WireTexts WireModel KeyProtection KeyedList TextScan TrustStore
open DocumentTokens TrustDocument MemberStore MemberOperations ReviewedRemoval KeystoreReads
open KeystoreChanges KeystoreMarker StepPrograms StepPrograms.Steps KeystoreChanges.DirectoryCalls

variable {member : MemberHandle}

/-! ## Where calls land -/

theorem memberCalls_edit {f : MemberDirectory → Except Error MemberDirectory} {s t : Keystore}
    (h : (memberCalls member).edit f s = .ok t) :
    ∃ dir edited, s = some dir ∧ f dir = .ok edited ∧ t = some edited := by
  cases s with
  | none => cases h
  | some dir =>
    cases hf : f dir with
    | error e =>
      simp only [memberCalls, hf] at h
      cases h
    | ok edited =>
      simp only [memberCalls, hf] at h
      exact ⟨dir, edited, rfl, hf, (Except.ok.inj h).symm⟩

theorem childCalls_edit {child : String} {f : KeyDirectory → Except Error KeyDirectory}
    {s t : Keystore} (h : (childCalls member child).edit f s = .ok t) :
    ∃ dir entries edited, s = some dir ∧ dir.lookup child = some (.directory entries)
      ∧ f entries = .ok edited ∧ t = some (insertKey child (.directory edited) dir) := by
  cases s with
  | none => cases h
  | some dir =>
    simp only [childCalls] at h
    split at h
    · rename_i entries hlook
      cases hf : f entries with
      | error e =>
        rw [hf] at h
        cases h
      | ok edited =>
        rw [hf] at h
        exact ⟨dir, entries, edited, rfl, hlook, hf, (Except.ok.inj h).symm⟩
    · cases h

/-- A directory stands under a name. -/
def DirectoryAt (name : String) (s : Keystore) : Prop :=
  ∃ dir entries, s = some dir ∧ dir.lookup name = some (.directory entries)

/-- The marker does not name a kid. -/
def NotActive (member : MemberHandle) (kid : Kid) (s : Keystore) : Prop :=
  ∀ dir, s = some dir → loadActiveKid member dir ≠ .ok (some kid)

/-- The key of a kid is complete. -/
def Held (member : MemberHandle) (kid : Kid) (s : Keystore) : Prop :=
  ∃ dir, s = some dir ∧ HoldsKey member dir kid

/-- The name of a staged entry. -/
def Staging (name : String) : Prop := isWriteStagingName name = true

/-- Any name. -/
def Anywhere (_ : String) : Prop := True

/-- No name. -/
def Nowhere (_ : String) : Prop := False

/-- Staged entries of the member directory do not count. -/
theorem guarded_staging (member : MemberHandle) :
    Guarded (InOrder member) (memberCalls member) Staging Staging := by
  intro f s t hs hedit hf
  obtain ⟨dir, edited, rfl, hdir, rfl⟩ := memberCalls_edit hedit
  intro dir' hdir'
  obtain rfl := Option.some.inj hdir'
  exact (hs dir rfl).edit (hf dir edited hdir) activeFile_not_staging
    (fun kid _ => kid_not_staging kid) fun e _ hstaging => ensureSafe_of_staging hstaging

theorem guarded_held (member : MemberHandle) (kid : Kid) :
    Guarded (Held member kid) (memberCalls member) Staging Staging := by
  intro f s t hs hedit hf
  obtain ⟨dir, edited, rfl, hdir, rfl⟩ := memberCalls_edit hedit
  obtain ⟨_, hdir', hholds⟩ := hs
  obtain rfl := Option.some.inj hdir'
  exact ⟨edited, rfl, hholds.congr ((hf dir edited hdir).lookup _ (kid_not_staging kid))⟩

/-- What is in a directory of the member directory counts only if that is the active key. -/
theorem intact_child {dir : MemberDirectory} (h : Intact member dir) {child : String}
    {entries : KeyDirectory} (edited : KeyDirectory)
    (hlook : dir.lookup child = some (.directory entries)) (hactive : child ≠ activeFile)
    (hkid : ∀ kid, loadActiveKid member dir = .ok (some kid) → kid.text ≠ child) :
    Intact member (insertKey child (.directory edited) dir) := by
  have hconfined : Confined (· = child) (· = child) dir (insertKey child (.directory edited) dir) :=
    @Confined.insert _ (· = child) (· = child) child rfl rfl _ dir
  refine h.edit hconfined (fun heq => hactive heq.symm) (fun kid hload heq => hkid kid hload heq)
    fun e he hchild => ?_
  have hsafe := h.safe _ (mem_of_lookup hlook)
  rcases mem_insertKey he with rfl | hin
  · exact hsafe
  · exact h.safe e hin

theorem guarded_child (member : MemberHandle) {child : String} (hchild : Staging child) :
    Guarded (InOrder member) (childCalls member child) Anywhere Anywhere := by
  intro f s t hs hedit hf
  obtain ⟨dir, entries, edited, rfl, hlook, _, rfl⟩ := childCalls_edit hedit
  intro dir' hdir'
  obtain rfl := Option.some.inj hdir'
  refine intact_child (hs dir rfl) edited hlook ?_ fun kid _ heq => ?_
  · rintro rfl
    exact activeFile_not_staging hchild
  · exact kid_not_staging kid (heq ▸ hchild)

theorem guarded_directoryAt (member : MemberHandle) (child : String) :
    Guarded (DirectoryAt child) (childCalls member child) Anywhere Anywhere := by
  intro f s t hs hedit hf
  obtain ⟨dir, entries, edited, rfl, hlook, _, rfl⟩ := childCalls_edit hedit
  exact ⟨_, edited, rfl, by rw [lookup_insertKey, if_pos rfl]⟩

/-- Two invariants at once. -/
theorem guarded_and {α : Type} {Inv Inv' : Keystore → Prop} {d : DirectoryCalls α}
    {T N : String → Prop} (h : Guarded Inv d T N) (h' : Guarded Inv' d T N) :
    Guarded (fun s => Inv s ∧ Inv' s) d T N :=
  fun f s t hs hedit hf => ⟨h f s t hs.1 hedit hf, h' f s t hs.2 hedit hf⟩

/-- The directory of a key that is not active does not count. -/
theorem guarded_removed (member : MemberHandle) (kid : Kid) :
    Guarded (fun s => InOrder member s ∧ NotActive member kid s) (childCalls member kid.text)
      Anywhere Anywhere := by
  intro f s t hs hedit hf
  obtain ⟨dir, entries, edited, rfl, hlook, _, rfl⟩ := childCalls_edit hedit
  have hnot := hs.2 dir rfl
  refine ⟨fun dir' hdir' => ?_, fun dir' hdir' => ?_⟩
  · obtain rfl := Option.some.inj hdir'
    refine intact_child (hs.1 dir rfl) edited hlook (kid_ne_active kid) fun other hload heq => ?_
    exact hnot (Kid.ext heq ▸ hload)
  · obtain rfl := Option.some.inj hdir'
    have hlookup : (insertKey kid.text (.directory edited) dir).lookup activeFile
        = dir.lookup activeFile := by
      rw [lookup_insertKey, if_neg (kid_ne_active kid).symm]
    rw [loadActiveKid_congr hlookup]
    exact hnot

theorem guarded_removed_dir (member : MemberHandle) (kid : Kid) :
    Guarded (fun s => InOrder member s ∧ NotActive member kid s) (memberCalls member)
      (· = kid.text) Nowhere := by
  intro f s t hs hedit hf
  obtain ⟨dir, edited, rfl, hdir, rfl⟩ := memberCalls_edit hedit
  have hnot := hs.2 dir rfl
  have hconfined := hf dir edited hdir
  have hactive : ¬ activeFile = kid.text := (kid_ne_active kid).symm
  refine ⟨fun dir' hdir' => ?_, fun dir' hdir' => ?_⟩
  · obtain rfl := Option.some.inj hdir'
    refine (hs.1 dir rfl).edit hconfined hactive (fun other hload heq => ?_) fun _ _ h => h.elim
    exact hnot (Kid.ext heq ▸ hload)
  · obtain rfl := Option.some.inj hdir'
    rw [loadActiveKid_congr (hconfined.lookup _ hactive)]
    exact hnot

/-! ## Programs around an operation -/

theorem keeps_ensureNamespaceSafe (Inv : Keystore → Prop) : Keeps Inv ensureNamespaceSafe :=
  Keeps.observe Inv _

theorem keeps_openMember (Inv : Keystore → Prop) (missing : Error) :
    Keeps Inv (openMember missing) :=
  Keeps.observe Inv _

theorem keeps_finishMemberMutation {α : Type} {Inv : Keystore → Prop} (path phrase : String)
    {p : Change α} (hp : Keeps Inv p) : Keeps Inv (finishMemberMutation path phrase p) := by
  refine Keeps.bind hp fun value => ?_
  refine Keeps.bind (keeps_mapError _ (keeps_ensureNamespaceSafe Inv)) fun _ => ?_
  exact Keeps.done Inv _

theorem keeps_removeChildEntry {Inv : Keystore → Prop} {child : String}
    (h : Guarded Inv (childCalls member child) Anywhere Anywhere) (name : String)
    (childType : ChildType) : Keeps Inv (removeChildEntry member child name childType) := by
  rw [removeChildEntry]
  by_cases hdir : childType = .directory
  · rw [if_pos hdir]
    exact keeps_removeIfExistsAt h trivial _ _
  · rw [if_neg hdir]
    exact keeps_removeIfExistsAt h trivial _ _

/-! ## Removal -/

theorem keeps_executeKeyDirectoryRemoval (member : MemberHandle) (kid : Kid)
    (entries : KeyDirectory) :
    Keeps (fun s => InOrder member s ∧ NotActive member kid s)
      (executeKeyDirectoryRemoval member kid entries) := by
  refine Keeps.bind (Keeps.each entries fun entry => ?_) fun _ => ?_
  · exact keeps_removeChildEntry (guarded_removed member kid) entry.1 entry.2.childType
  · exact keeps_removeIfExistsAt (guarded_removed_dir member kid) rfl _ _

/-- Without its file the marker names nothing. -/
theorem loadActiveKid_none {dir : MemberDirectory} (h : dir.lookup activeFile = none) :
    loadActiveKid member dir = .ok none := by
  rw [loadActiveKid, loadActiveText, h]
  rfl

theorem activeFileExists_false {dir : MemberDirectory}
    (h : activeFileExists member dir = .ok false) : dir.lookup activeFile = none := by
  rw [activeFileExists] at h
  split at h
  · assumption
  · cases Except.ok.inj h
  · cases h

/-- There is no marker file. -/
def Unmarked (s : Keystore) : Prop :=
  ∀ dir, s = some dir → dir.lookup activeFile = none

theorem safe_unlinkActive {s : Keystore} (h : InOrder member s) (removable : MemberEntry → Bool)
    (what : String) :
    Safe (InOrder member) (fun r t => r = .ok () → Unmarked t)
      ((memberCalls member).unlinkEntry activeFile removable what) s := by
  refine Safe.change h (fun _ hr => by cases hr) fun t ht => ?_
  obtain ⟨dir, edited, rfl, hdir, rfl⟩ := memberCalls_edit ht
  have hdropped := unlinking_ok hdir
  have hnone : edited.lookup activeFile = none := by
    rw [hdropped, lookup_dropEntry, if_pos rfl]
  refine ⟨fun dir' hdir' => ?_, fun _ dir' hdir' => ?_⟩
  · obtain rfl := Option.some.inj hdir'
    refine ⟨fun e he => (h dir rfl).safe e ?_, Or.inl (loadActiveKid_none hnone)⟩
    rw [hdropped] at he
    exact List.mem_of_mem_filter he
  · obtain rfl := Option.some.inj hdir'
    exact hnone

/-- **CLEARING THE MARKER** keeps the invariant, and once it succeeded the marker is gone. -/
theorem safe_clearActiveKid {s : Keystore} (h : InOrder member s) :
    Safe (InOrder member) (fun r t => r = .ok () → Unmarked t) (clearActiveKidLocked member) s := by
  refine Safe.bind (Q := fun r t => t = s ∧ r = activeFileExists member (s.getD [])) ?_ ?_
    fun e t _ _ hr => by cases hr
  · exact Safe.observe h ⟨rfl, rfl⟩
  · rintro standing t ht ⟨rfl, hstanding⟩
    cases standing with
    | false =>
      refine ⟨ht, fun _ dir hdir => ?_⟩
      subst hdir
      exact activeFileExists_false hstanding.symm
    | true =>
      refine Safe.handle (Q := fun r t => r = .ok () → Unmarked t) ?_ fun r u hu hr => ?_
      · refine Safe.bind (safe_unlinkActive ht _ _) (fun _ u hu hr => ?_)
          fun _ _ _ _ hr => by cases hr
        split
        · exact safe_touch hu fun _ _ => hr rfl
        · exact ⟨hu, fun _ => hr rfl⟩
      · cases r with
        | ok _ => exact ⟨hu, fun _ => hr rfl⟩
        | error e => exact ⟨hu, fun hr => by cases hr⟩

/-- **REMOVALS KEEP THE MARKER IN ORDER**: it is cleared before the key it names loses anything. -/
theorem keeps_removeKeyLocked (kid : Kid) (validate : Bool → Except Error Unit) :
    Keeps (InOrder member) (removeKeyLocked member kid validate) := by
  intro s hs
  refine Safe.bind (Q := fun r t => t = s ∧ r = loadActiveKid member (s.getD []))
    (Safe.observe hs ⟨rfl, rfl⟩) ?_ fun _ _ _ _ => trivial
  rintro active t ht ⟨rfl, hactive⟩
  refine Safe.bind (Q := fun _ u => u = t) ⟨ht, rfl⟩ ?_ fun _ _ _ _ => trivial
  rintro _ u hu rfl
  refine Safe.bind (Q := fun _ v => v = u) ⟨hu, rfl⟩ ?_ fun _ _ _ _ => trivial
  rintro entries v hv rfl
  refine Safe.bind (Q := fun r w => r = .ok () → NotActive member kid w)
    (R := fun _ _ => True) ?_ (fun _ w hw hr => ?_) fun _ _ _ _ => trivial
  · by_cases hkid : active = some kid
    · rw [decide_eq_true hkid, if_pos rfl]
      refine (safe_clearActiveKid hv).mono (fun _ h => h) fun r w _ hr hok dir hdir hload => ?_
      rw [loadActiveKid_none (hr hok dir hdir)] at hload
      cases Except.ok.inj hload
    · rw [decide_eq_false hkid, if_neg Bool.false_ne_true]
      refine ⟨hv, fun _ dir hdir hload => hkid ?_⟩
      subst hdir
      exact Except.ok.inj (hactive.trans hload)
  · have hremoval := keeps_executeKeyDirectoryRemoval member kid entries w ⟨hw, hr rfl⟩
    have hexecuted : Safe (InOrder member) (fun _ _ => True)
        (mapError (interruptedRemovalError member kid (decide (active = some kid)))
          (executeKeyDirectoryRemoval member kid entries)) w := by
      refine Safe.handle (Q := fun _ _ => True) (hremoval.mono (fun _ h => h.1) fun _ _ _ h => h)
        fun r x hx _ => ?_
      exact ⟨hx, trivial⟩
    exact Safe.bind (R := fun _ _ => True) hexecuted (fun _ x hx _ => ⟨hx, trivial⟩)
      fun _ _ _ _ => trivial

theorem keeps_removeKeyWithValidation (kid : Kid) (validate : Bool → Except Error Unit) :
    Keeps (InOrder member) (removeKeyWithValidation member kid validate) := by
  refine Keeps.bind (keeps_openMember _ _) fun _ => ?_
  refine Keeps.bind (keeps_touch _) fun _ => ?_
  refine Keeps.bind (keeps_ensureNamespaceSafe _) fun _ => ?_
  exact keeps_finishMemberMutation _ _ (keeps_removeKeyLocked kid validate)

/-! ## Publication -/

theorem intact_nil (member : MemberHandle) : Intact member [] :=
  ⟨fun _ he => absurd he List.not_mem_nil, Or.inl (loadActiveKid_none rfl)⟩

theorem keeps_ensureMember (member : MemberHandle) : Keeps (InOrder member) ensureMember := by
  refine Keeps.look fun s => ?_
  by_cases hs : s.isSome
  · rw [if_pos hs]
    exact Keeps.done _ _
  · rw [if_neg hs]
    refine Keeps.bind (keeps_touch _) fun _ => ?_
    refine keeps_recover ?_ (keeps_touch _)
    refine Keeps.bind (keeps_touch _) fun _ => Keeps.bind (keeps_touch _) fun _ => ?_
    refine Keeps.bind (Keeps.change fun s t hs ht => ?_) fun _ => keeps_touch _
    obtain rfl := Except.ok.inj ht
    intro dir hdir
    obtain rfl := Option.some.inj hdir
    cases s with
    | none => exact intact_nil member
    | some dir => exact hs dir rfl

/-- A staged directory stands under the name it was asked for. -/
theorem safe_saveChildDir {name staging : String} (hname : Staging name)
    (hstaging : Staging staging) {s : Keystore} (h : InOrder member s) :
    Safe (InOrder member) (fun r t => r = .ok () → DirectoryAt name t)
      (saveChildDirRestrictedAt member name staging) s := by
  have hguard := guarded_staging member
  have hcreate : Safe (InOrder member) (fun r t => r = .ok () → DirectoryAt staging t)
      ((memberCalls member).createEntry staging (memberCalls member).empty "directory") s := by
    refine (keeps_createEntry hguard hstaging hstaging _ _).also h ?_
    refine Safe.change trivial (fun _ hr => by cases hr) fun t ht => ⟨trivial, fun _ => ?_⟩
    obtain ⟨dir, edited, rfl, hdir, rfl⟩ := memberCalls_edit ht
    obtain ⟨hfree, rfl⟩ := creating_ok hdir
    exact ⟨_, [], rfl, by rw [lookup_concat _ _ _ hfree, if_pos rfl]; rfl⟩
  have hrename : ∀ t, InOrder member t → DirectoryAt staging t →
      Safe (InOrder member) (fun r u => r = .ok () → DirectoryAt name u)
        ((memberCalls member).renameNoreplace staging name) t := by
    intro t ht hdirectory
    refine (keeps_renameNoreplace hguard hstaging hname hname).also ht ?_
    refine Safe.change trivial (fun _ hr => by cases hr) fun u hu => ⟨trivial, fun _ => ?_⟩
    obtain ⟨dir, edited, rfl, hdir, rfl⟩ := memberCalls_edit hu
    obtain ⟨entry, hsource, hfree, rfl⟩ := renamingNoreplace_ok hdir
    obtain ⟨_, entries, hdir', hlook⟩ := hdirectory
    obtain rfl := Option.some.inj hdir'
    obtain rfl := Option.some.inj (hsource.symm.trans hlook)
    exact ⟨_, entries, rfl, by rw [lookup_concat _ _ _ (lookup_dropEntry_free hfree), if_pos rfl]⟩
  refine Safe.bind hcreate (fun _ t ht hdirectory => ?_) fun _ _ _ _ hr => by cases hr
  refine Safe.handle (Q := fun r u => r = .ok () → DirectoryAt name u) ?_ fun r u hu hr => ?_
  · refine Safe.bind (Q := fun _ u => DirectoryAt staging u) (safe_touch ht fun _ => hdirectory rfl)
      (fun _ u hu hdir => ?_) fun _ _ _ _ hr => by cases hr
    refine Safe.bind (Q := fun _ v => DirectoryAt staging v) (safe_touch hu fun _ => hdir)
      (fun _ v hv hdir => ?_) fun _ _ _ _ hr => by cases hr
    refine Safe.bind (hrename v hv hdir) (fun _ w hw hr => ?_) fun _ _ _ _ hr => by cases hr
    exact safe_mapError_touch _ hw fun _ _ => hr rfl
  · cases r with
    | ok _ => exact ⟨hu, fun _ => hr rfl⟩
    | error e =>
      refine Safe.bind (Q := fun _ _ => True) ?_ (fun _ v hv _ => ⟨hv, fun hr => by cases hr⟩)
        fun _ _ _ _ hr => by cases hr
      exact keeps_ignoring (keeps_removeIfExistsAt hguard hstaging _ _) u hu

/-- The documents are written into the staged directory, which stays one. -/
theorem safe_saveKeyPairFiles {tempName : String} (htemp : Staging tempName)
    (privateKey : PrivateKey) (publicKey : PublicKey) (names : PublicationNames) {s : Keystore}
    (h : InOrder member s) (hdirectory : DirectoryAt tempName s) :
    Safe (InOrder member) (fun _ t => DirectoryAt tempName t)
      (saveKeyPairFiles member tempName privateKey publicKey names) s := by
  have hguard := guarded_and (guarded_child member htemp) (guarded_directoryAt member tempName)
  have hkeeps : Keeps (fun s => InOrder member s ∧ DirectoryAt tempName s)
      (saveKeyPairFiles member tempName privateKey publicKey names) :=
    Keeps.bind (keeps_saveTextRestrictedAt hguard trivial trivial trivial trivial _) fun _ =>
      keeps_saveTextRestrictedAt hguard trivial trivial trivial trivial _
  exact ((hkeeps s ⟨h, hdirectory⟩).holding).mono (fun _ h => h.1) fun _ _ _ h => h.1.2

/-- **THE RENAME THAT PUBLISHES A KEY** takes a name that was free, so the active key is another. -/
theorem safe_publishRename {tempName : String} (htemp : Staging tempName) (kid : Kid)
    {s : Keystore} (h : InOrder member s) (hdirectory : DirectoryAt tempName s) :
    Safe (InOrder member) (fun _ _ => True)
      ((memberCalls member).renameNoreplace tempName kid.text) s := by
  refine Safe.change h (fun _ => trivial) fun t ht => ⟨?_, trivial⟩
  obtain ⟨dir, edited, rfl, hdir, rfl⟩ := memberCalls_edit ht
  obtain ⟨entry, hsource, hfree, rfl⟩ := renamingNoreplace_ok hdir
  obtain ⟨_, entries, hdir', hlook⟩ := hdirectory
  obtain rfl := Option.some.inj hdir'
  obtain rfl := Option.some.inj (hsource.symm.trans hlook)
  intro dir' hdir'
  obtain rfl := Option.some.inj hdir'
  have hintact := h dir rfl
  have hconfined : Confined (fun name => Staging name ∨ name = kid.text) (· = kid.text) dir
      (dropEntry tempName dir ++ [(kid.text, .directory entries)]) :=
    (Confined.drop (Or.inl htemp) dir).trans
      (@Confined.concat _ (fun name => Staging name ∨ name = kid.text) (· = kid.text) kid.text
        (Or.inr rfl) rfl _ _ (lookup_dropEntry_free hfree))
  refine hintact.edit hconfined ?_ (fun other hload => ?_) fun e he hkid => ?_
  · rintro (hstaging | hkid)
    · exact activeFile_not_staging hstaging
    · exact kid_ne_active kid hkid.symm
  · -- the active key is there already
    rintro (hstaging | hkid)
    · exact kid_not_staging other hstaging
    · rcases hintact.marker with hnone | ⟨active, hactive, _, _, _, hkey⟩
      · cases hload.symm.trans hnone
      · obtain rfl := Option.some.inj (Except.ok.inj (hactive.symm.trans hload))
        rw [← hkid, hkey.stands] at hfree
        cases hfree
  · rcases List.mem_append.mp he with hin | hnew
    · exact hintact.safe e (List.mem_of_mem_filter hin)
    · rw [List.mem_singleton.mp hnew, ensureKeystoreEntrySafe, if_neg (kid_not_staging kid),
        KeystoreLevel.storedType, if_neg (kid_ne_active kid), if_pos kid.valid]
      rfl

theorem keeps_cleanupEntries {tempName : String} (htemp : Staging tempName)
    (failure : Option Error) (entries : KeyDirectory) :
    Keeps (InOrder member) (cleanupEntries member tempName failure entries) := by
  induction entries generalizing failure with
  | nil => exact Keeps.done _ _
  | cons entry entries ih =>
    refine Keeps.handle (keeps_removeChildEntry (guarded_child member htemp) _ _) fun r => ?_
    cases r with
    | ok _ => exact ih failure
    | error e => exact ih (failure <|> some e)

theorem keeps_cleanupTempKeyDir {tempName : String} (htemp : Staging tempName) :
    Keeps (InOrder member) (cleanupTempKeyDir member tempName) := by
  refine Keeps.bind (Keeps.observe _ _) fun entries => ?_
  refine Keeps.bind (keeps_cleanupEntries htemp none entries) fun failure => ?_
  cases failure with
  | none => exact keeps_removeIfExistsAt (guarded_staging member) htemp _ _
  | some e => exact Keeps.done _ _

/-- **PUBLICATIONS KEEP THE MARKER IN ORDER**. -/
theorem keeps_saveKeyPairAtomic (kid : Kid) (privateKey : PrivateKey) (publicKey : PublicKey)
    (names : PublicationNames) :
    Keeps (InOrder member) (saveKeyPairAtomic member kid privateKey publicKey names) := by
  have htemp : Staging (uniqueStagingDirName names.staging) := isWriteStagingName_dir _
  have hpublish : Keeps (InOrder member)
      (publishKeyPairAtomic member kid privateKey publicKey names) := by
    refine Keeps.bind (keeps_ensure _ _) fun _ => Keeps.bind (keeps_ensure _ _) fun _ => ?_
    intro s hs
    refine Safe.bind (safe_saveChildDir htemp (isWriteStagingName_dir _) hs)
      (fun _ t ht hdirectory => ?_) fun _ _ _ _ => trivial
    refine Safe.handle (Q := fun _ _ => True) ?_ fun r u hu _ => ?_
    · exact Safe.bind (safe_saveKeyPairFiles htemp _ _ _ ht (hdirectory rfl))
        (fun _ v hv hdir => safe_publishRename htemp kid hv hdir) fun _ _ _ _ => trivial
    · cases r with
      | ok _ => exact keeps_mapError _ (keeps_touch _) u hu
      | error e =>
        refine Keeps.handle (keeps_cleanupTempKeyDir htemp) (fun r => ?_) u hu
        cases r with
        | ok _ => exact Keeps.done _ _
        | error cleanup => exact Keeps.done _ _
  refine Keeps.bind (keeps_ensureMember member) fun _ => ?_
  refine Keeps.bind (keeps_ensureNamespaceSafe _) fun _ => ?_
  exact keeps_finishMemberMutation _ _ hpublish

end KeystoreSafety
