import Kapsaro.KeystoreSelection

/-!
# Key storage — a key pair is stored whole or not at all

`io/keystore/access/key_pair.rs` and `active.rs` once more: what the operations do to the documents
of a key, whichever of their calls fail and wherever they are stopped.

* **`EntryIs`** — what is known of the entry under one name of the member directory.
* **`Written`** — files that stand in a key directory, whose other entries are harmless.
* **`safe_saveKeyPairAtomic`** — a publication leaves the entry of its kid as it was, or complete.
* **`keeps_entry`** — an operation touches no key but the one it removes or publishes.
* **`publicationLaws`** — both, for every way a publication can be disturbed, and that the documents
  outlast any history in which the key is not removed.
-/

namespace KeyStorage

open JsonText Limits TextLines WireTexts WireModel KeyProtection KeyedList TextScan TrustStore
open DocumentTokens TrustDocument MemberStore MemberOperations ReviewedRemoval KeystoreReads
open KeystoreChanges KeystoreMarker KeystoreSafety KeystoreSelection StepPrograms
open StepPrograms.Steps KeystoreChanges.DirectoryCalls

variable {member : MemberHandle}

/-- What a program has reached where it succeeds, it has reached after cleaning up, too: a failure
    stays one. -/
theorem safe_recover {Inv Q : Keystore → Prop} {p cleanup : Change Unit} {s : Keystore}
    (hp : Safe Inv (fun r t => r = .ok () → Q t) p s) (hcleanup : Keeps Inv cleanup) :
    Safe Inv (fun r t => r = .ok () → Q t) (p.handle fun
      | .ok () => pure ()
      | .error e => do
        ignoring cleanup
        done (.error e)) s := by
  refine Safe.handle hp fun r t ht hr => ?_
  cases r with
  | ok _ => exact ⟨ht, hr⟩
  | error e =>
    refine Safe.bind (keeps_ignoring hcleanup t ht) (fun _ u hu _ => ⟨hu, fun hr => by cases hr⟩)
      fun _ _ _ _ hr => by cases hr

/-! ## One entry -/

/-- What is known of the entry under a name of the member directory. -/
def EntryIs (name : String) (R : Option MemberEntry → Prop) (s : Keystore) : Prop :=
  R ((s.getD []).lookup name)

/-- A directory with some entries. -/
def Directory (R : KeyDirectory → Prop) (entry : Option MemberEntry) : Prop :=
  ∃ entries, entry = some (.directory entries) ∧ R entries

section Entries

variable {name : String} {R : Option MemberEntry → Prop} {T N : String → Prop}
variable {Q : KeyDirectory → Prop}

/-- Calls away from a name leave its entry alone. -/
theorem guarded_entry (member : MemberHandle) (hname : ¬ T name) :
    Guarded (EntryIs name R) (memberCalls member) T N := by
  intro f s t hs hedit hf
  obtain ⟨dir, edited, rfl, hdir, rfl⟩ := memberCalls_edit hedit
  show R (edited.lookup name)
  rw [(hf dir edited hdir).lookup name hname]
  exact hs

/-- So do calls on the directory under another name. -/
theorem guarded_entry_child (member : MemberHandle) {child : String} (hne : name ≠ child) :
    Guarded (EntryIs name R) (childCalls member child) Anywhere Anywhere := by
  intro f s t hs hedit hf
  obtain ⟨dir, entries, edited, rfl, _, _, rfl⟩ := childCalls_edit hedit
  show R ((insertKey child (.directory edited) dir).lookup name)
  rw [lookup_insertKey, if_neg hne]
  exact hs

/-- A rename that replaces nothing touches an entry only if none stands under its new name. -/
theorem safe_renameEntry {source destination : String} (hsource : name ≠ source)
    {s : Keystore} (h : EntryIs name R s)
    (hnew : name = destination → R none →
      ∀ dir entry, s = some dir → dir.lookup source = some entry → R (some entry)) :
    Safe (EntryIs name R) (fun r _ => r = .ok () → name = destination → R none)
      ((memberCalls member).renameNoreplace source destination) s := by
  refine Safe.change h (fun _ hr => by cases hr) fun t ht => ?_
  obtain ⟨dir, edited, rfl, hdir, rfl⟩ := memberCalls_edit ht
  obtain ⟨entry, hentry, hfree, rfl⟩ := renamingNoreplace_ok hdir
  have hold : name = destination → R none := by
    rintro rfl
    have hlook : R (dir.lookup name) := h
    rwa [hfree] at hlook
  refine ⟨?_, fun _ => hold⟩
  show R ((dropEntry source dir ++ [(destination, entry)]).lookup name)
  rw [lookup_concat _ _ _ (lookup_dropEntry_free hfree)]
  by_cases hname : name = destination
  · rw [if_pos hname]
    exact hnew hname (hold hname) dir entry rfl hentry
  · rw [if_neg hname, lookup_dropEntry, if_neg hsource]
    exact h

/-- Where such a rename succeeds, the entry stands under its new name. -/
theorem safe_renamed {source destination : String} {s : Keystore}
    (h : EntryIs source (Directory Q) s) :
    Safe (fun _ => True) (fun r t => r = .ok () → EntryIs destination (Directory Q) t)
      ((memberCalls member).renameNoreplace source destination) s := by
  refine Safe.change trivial (fun _ hr => by cases hr) fun t ht => ⟨trivial, fun _ => ?_⟩
  obtain ⟨dir, edited, rfl, hdir, rfl⟩ := memberCalls_edit ht
  obtain ⟨entry, hentry, hfree, rfl⟩ := renamingNoreplace_ok hdir
  obtain ⟨entries, hlook, hQ⟩ := h
  obtain rfl := Option.some.inj (hentry.symm.trans hlook)
  refine ⟨entries, ?_, hQ⟩
  show (dropEntry source dir ++ [(destination, MemberEntry.directory entries)]).lookup
      destination = _
  rw [lookup_concat _ _ _ (lookup_dropEntry_free hfree), if_pos rfl]

end Entries

/-! ## Written files -/

/-- Files that stand in a key directory, whose other entries are harmless. -/
structure Written (files : List (String × Bytes)) (entries : KeyDirectory) : Prop where
  safe : ∀ e ∈ entries, ensureKeystoreEntrySafe .key e.1 e.2.childType = .ok ()
  files : ∀ file ∈ files, entries.lookup file.1 = some (.file ⟨file.2, true⟩)

theorem Written.nil : Written [] [] :=
  ⟨fun _ he => absurd he List.not_mem_nil, fun _ hfile => absurd hfile List.not_mem_nil⟩

theorem ensureKeyDirectorySafe_of {entries : KeyDirectory}
    (h : ∀ e ∈ entries, ensureKeystoreEntrySafe .key e.1 e.2.childType = .ok ()) :
    ensureKeyDirectorySafe entries = .ok () := by
  induction entries with
  | nil => rfl
  | cons first rest ih =>
    obtain ⟨name, entry⟩ := first
    rw [ensureKeyDirectorySafe, h _ List.mem_cons_self]
    exact ih fun e he => h e (List.mem_cons_of_mem _ he)

/-- The file a write stages beside its target has the name of a staged entry. -/
theorem isWriteStagingName_target {target : String} (uuid : Uuid) {c : Char} {cs : List Char}
    (htarget : target.toList = c :: cs) (hc : c ≠ 't') :
    isWriteStagingName (uniqueWriteStagingName target uuid.text) = true := by
  have hlist : (uniqueWriteStagingName target uuid.text).toList
      = ('.' :: c :: cs) ++ (".tmp.".toList ++ uuid.text.toList) := by
    simp [uniqueWriteStagingName, String.toList_append, htarget]
  rw [isWriteStagingName, hlist, rsplitOnce_last _ (dot_not_mem_uuid uuid), if_neg]
  · simp [isHyphenatedUuid_text]
  · intro hprefix
    obtain ⟨rest, hrest⟩ := List.isPrefixOf_iff_prefix.mp hprefix
    have hsecond := (List.cons.inj (List.cons.inj hrest).2).1
    exact hc hsecond.symm

section Files

variable {child : String} {R S : KeyDirectory → Prop}

/-- One call on a directory, by what it does to the entries. -/
theorem safe_childEdit {f : KeyDirectory → Except Error KeyDirectory} {s : Keystore}
    (hs : EntryIs child (Directory R) s)
    (hf : ∀ entries edited, R entries → f entries = .ok edited → S edited) :
    Safe (fun _ => True) (fun r t => r = .ok () → EntryIs child (Directory S) t)
      (change ((childCalls member child).edit f)) s := by
  refine Safe.change trivial (fun _ hr => by cases hr) fun t ht => ⟨trivial, fun _ => ?_⟩
  obtain ⟨dir, entries, edited, rfl, hlook, hedit, rfl⟩ := childCalls_edit ht
  obtain ⟨entries', hlook', hR⟩ := hs
  obtain rfl := MemberEntry.directory.inj (Option.some.inj (hlook.symm.trans hlook'))
  refine ⟨edited, ?_, hf entries edited hR hedit⟩
  show (insertKey child (.directory edited) dir).lookup child = _
  rw [lookup_insertKey, if_pos rfl]

variable {files : List (String × Bytes)} {tempName : String}

/-- A staged file is harmless. -/
theorem Written.concat {entries : KeyDirectory} (h : Written files entries)
    (htemp : Staging tempName) (file : StoredFile) (hfree : entries.lookup tempName = none) :
    Written files (entries ++ [(tempName, .file file)]) := by
  refine ⟨fun e he => ?_, fun written hwritten => ?_⟩
  · rcases List.mem_append.mp he with hin | hnew
    · exact h.safe e hin
    · rw [List.mem_singleton.mp hnew]
      exact ensureSafe_of_staging htemp
  · have hstands := h.files written hwritten
    rw [lookup_concat _ _ _ hfree, if_neg ?_]
    · exact hstands
    · intro heq
      rw [heq, hfree] at hstands
      cases hstands

/-- A file that is put under a name, old or new. -/
theorem Written.insert {entries : KeyDirectory} (h : Written files entries) {name : String}
    {data : Bytes} (hsafe : ensureKeystoreEntrySafe .key name .regularFile = .ok ())
    (hother : ∀ file ∈ files, file.1 ≠ name) :
    Written ((name, data) :: files) (insertKey name (.file ⟨data, true⟩) entries) := by
  refine ⟨fun e he => ?_, fun file hfile => ?_⟩
  · rcases mem_insertKey he with rfl | hin
    · exact hsafe
    · exact h.safe e hin
  · rcases List.mem_cons.mp hfile with rfl | hfile
    · rw [lookup_insertKey, if_pos rfl]
    · rw [lookup_insertKey, if_neg (hother file hfile)]
      exact h.files file hfile

/-- A name that is no file's is freed. -/
theorem Written.drop {entries : KeyDirectory} {data : Bytes}
    (h : Written ((tempName, data) :: files) entries) (hother : ∀ file ∈ files, file.1 ≠ tempName) :
    Written files (dropEntry tempName entries) := by
  refine ⟨fun e he => h.safe e (List.mem_of_mem_filter he), fun file hfile => ?_⟩
  rw [lookup_dropEntry, if_neg (hother file hfile)]
  exact h.files file (List.mem_cons_of_mem _ hfile)

/-- **A FILE IS WRITTEN WHOLE**: once the write succeeded, its bytes stand under its name, and the
    files that stood before still do. -/
theorem safe_saveTextAt {name : String} (data : Bytes) {uuid : Uuid}
    (htemp : Staging (uniqueWriteStagingName name uuid.text))
    (hsafe : ensureKeystoreEntrySafe .key name .regularFile = .ok ())
    (hother : ∀ file ∈ files, file.1 ≠ name ∧ ¬ Staging file.1) {s : Keystore}
    (hs : EntryIs child (Directory (Written files)) s) :
    Safe (fun _ => True)
      (fun r t => r = .ok () → EntryIs child (Directory (Written ((name, data) :: files))) t)
      ((childCalls member child).saveTextRestrictedAt name data uuid) s := by
  rw [saveTextRestrictedAt]
  generalize uniqueWriteStagingName name uuid.text = tempName at htemp
  have hfiles : ∀ file ∈ files, file.1 ≠ tempName := fun file hfile heq =>
    (hother file hfile).2 (heq ▸ htemp)
  have hstage : ∀ {t}, EntryIs child (Directory (Written files)) t →
      Safe (fun _ => True)
        (fun r u => r = .ok () → EntryIs child (Directory (Written ((tempName, data) :: files))) u)
        ((childCalls member child).saveStagedFile tempName data) t := by
    intro t ht
    refine Safe.bind (safe_childEdit (S := Written files) ht fun entries edited h hedit => ?_)
      (fun _ u _ hu => ?_) fun _ _ _ _ hr => by cases hr
    · obtain ⟨hfree, rfl⟩ := creating_ok hedit
      exact h.concat htemp _ hfree
    · refine safe_recover ?_ (Keeps.top _)
      refine Safe.bind (Q := fun _ v => EntryIs child (Directory (Written files)) v)
        (safe_touch trivial fun _ => hu rfl) (fun _ v _ hv => ?_) fun _ _ _ _ hr => by cases hr
      refine Safe.bind (safe_childEdit (S := Written ((tempName, data) :: files)) hv
        fun entries edited h hedit => ?_) (fun _ w _ hr => ?_) fun _ _ _ _ hr => by cases hr
      · obtain rfl := Except.ok.inj hedit
        exact h.insert (ensureSafe_of_staging htemp) hfiles
      · exact safe_touch trivial fun _ _ => hr rfl
  have hrename : ∀ {t}, EntryIs child (Directory (Written ((tempName, data) :: files))) t →
      Safe (fun _ => True)
        (fun r u => r = .ok () → EntryIs child (Directory (Written ((name, data) :: files))) u)
        ((childCalls member child).renameEntry tempName name) t := by
    intro t ht
    refine safe_childEdit ht fun entries edited h hedit => ?_
    obtain ⟨entry, hsource, rfl⟩ := renamingOver_ok hedit
    have hdata := h.files _ List.mem_cons_self
    obtain rfl := Option.some.inj (hsource.symm.trans hdata)
    exact (h.drop hfiles).insert hsafe fun file hfile => (hother file hfile).1
  refine Safe.bind (Q := fun _ t => EntryIs child (Directory (Written files)) t) ⟨trivial, hs⟩
    (fun _ t _ ht => ?_) fun _ _ _ _ hr => by cases hr
  refine Safe.bind (hstage ht) (fun _ u _ hu => ?_) fun _ _ _ _ hr => by cases hr
  refine Safe.bind (safe_recover (hrename (hu rfl)) (Keeps.top _)) (fun _ v _ hr => ?_)
    fun _ _ _ _ hr => by cases hr
  exact Safe.handle (Q := fun _ w => EntryIs child (Directory (Written ((name, data) :: files))) w)
    (safe_touch trivial fun _ => hr rfl) fun _ w _ hw => ⟨trivial, fun _ => hw⟩

end Files

/-! ## Publication -/

/-- The files of a key. -/
def keyFiles (privateKey : PrivateKey) (publicKey : PublicKey) : List (String × Bytes) :=
  [(publicKeyFile, renderDocument publicKey.toJson),
    (privateKeyFile, renderDocument privateKey.toJson)]

/-- Where the files of a key are written, both of its documents are. -/
theorem Written.documents {privateKey : PrivateKey} {publicKey : PublicKey} {entries : KeyDirectory}
    (h : Written (keyFiles privateKey publicKey) entries) :
    entries.lookup privateKeyFile = some (.file ⟨renderDocument privateKey.toJson, true⟩)
      ∧ entries.lookup publicKeyFile = some (.file ⟨renderDocument publicKey.toJson, true⟩) := by
  obtain ⟨_, hfiles⟩ := h
  rw [keyFiles] at hfiles
  generalize renderDocument privateKey.toJson = privateBytes at hfiles ⊢
  generalize renderDocument publicKey.toJson = publicBytes at hfiles ⊢
  exact ⟨hfiles (privateKeyFile, privateBytes) (List.mem_cons_of_mem _ List.mem_cons_self),
    hfiles (publicKeyFile, publicBytes) List.mem_cons_self⟩

/-- The entry of a key both of whose documents stand in it. -/
def Stored (privateKey : PrivateKey) (publicKey : PublicKey) : Option MemberEntry → Prop :=
  Directory (Written (keyFiles privateKey publicKey))

/-- The entries of a key directory as it is published. -/
def keyEntries (privateKey : PrivateKey) (publicKey : PublicKey) : KeyDirectory :=
  [(privateKeyFile, .file ⟨renderDocument privateKey.toJson, true⟩),
    (publicKeyFile, .file ⟨renderDocument publicKey.toJson, true⟩)]

theorem ensureSafe_privateFile :
    ensureKeystoreEntrySafe .key privateKeyFile .regularFile = .ok () := by decide

theorem ensureSafe_publicFile :
    ensureKeystoreEntrySafe .key publicKeyFile .regularFile = .ok () := by decide

/-- Such a directory holds both documents. -/
theorem stored_keyEntries (privateKey : PrivateKey) (publicKey : PublicKey) :
    Stored privateKey publicKey (some (.directory (keyEntries privateKey publicKey))) := by
  rw [Stored, keyFiles, keyEntries]
  generalize renderDocument privateKey.toJson = privateBytes
  generalize renderDocument publicKey.toJson = publicBytes
  refine ⟨_, rfl, ⟨fun e he => ?_, fun file hfile => ?_⟩⟩
  · rcases List.mem_cons.mp he with rfl | he
    · exact ensureSafe_privateFile
    · rw [List.mem_singleton.mp he]
      exact ensureSafe_publicFile
  · have hne : privateKeyFile ≠ publicKeyFile := by decide
    rcases List.mem_cons.mp hfile with rfl | hfile
    · rw [lookup_cons_ite, if_neg hne.symm, lookup_cons_ite, if_pos rfl]
    · rw [List.mem_singleton.mp hfile, lookup_cons_ite, if_pos rfl]

/-- A new directory is empty, under the name it was asked for. -/
theorem safe_newDirectory (name staging : String) (s : Keystore) :
    Safe (fun _ => True) (fun r t => r = .ok () → EntryIs name (Directory (Written [])) t)
      (saveChildDirRestrictedAt member name staging) s := by
  have hcreate : Safe (fun _ => True)
      (fun r t => r = .ok () → EntryIs staging (Directory (Written [])) t)
      ((memberCalls member).createEntry staging (memberCalls member).empty "directory") s := by
    refine Safe.change trivial (fun _ hr => by cases hr) fun t ht => ⟨trivial, fun _ => ?_⟩
    obtain ⟨dir, edited, rfl, hdir, rfl⟩ := memberCalls_edit ht
    obtain ⟨hfree, rfl⟩ := creating_ok hdir
    refine ⟨[], ?_, Written.nil⟩
    show (dir ++ [(staging, MemberEntry.directory [])]).lookup staging = _
    rw [lookup_concat _ _ _ hfree, if_pos rfl]
  refine Safe.bind hcreate (fun _ t _ ht => ?_) fun _ _ _ _ hr => by cases hr
  refine safe_recover ?_ (Keeps.top _)
  refine Safe.bind (Q := fun _ u => EntryIs staging (Directory (Written [])) u)
    (safe_touch trivial fun _ => ht rfl) (fun _ u _ hu => ?_) fun _ _ _ _ hr => by cases hr
  refine Safe.bind (Q := fun _ v => EntryIs staging (Directory (Written [])) v)
    (safe_touch trivial fun _ => hu) (fun _ v _ hv => ?_) fun _ _ _ _ hr => by cases hr
  refine Safe.bind (Q := fun r w => r = .ok () → EntryIs name (Directory (Written [])) w) ?_
    (fun _ w _ hr => safe_mapError_touch _ trivial fun _ _ => hr rfl) fun _ _ _ _ hr => by cases hr
  exact safe_renamed hv

theorem privateFile_not_staging : ¬ Staging privateKeyFile := by
  show ¬ isWriteStagingName privateKeyFile = true
  decide

/-- Both documents are written into the staged directory. -/
theorem safe_writtenPair {tempName : String} (privateKey : PrivateKey) (publicKey : PublicKey)
    (names : PublicationNames) {s : Keystore}
    (hs : EntryIs tempName (Directory (Written [])) s) :
    Safe (fun _ => True) (fun r t => r = .ok () → EntryIs tempName (Stored privateKey publicKey) t)
      (saveKeyPairFiles member tempName privateKey publicKey names) s := by
  refine Safe.bind (safe_saveTextAt _ (isWriteStagingName_target names.privateFile rfl (by decide))
    ensureSafe_privateFile (fun _ hfile => absurd hfile List.not_mem_nil) hs)
    (fun _ t _ ht => ?_) fun _ _ _ _ hr => by cases hr
  refine safe_saveTextAt _ (isWriteStagingName_target names.publicFile rfl (by decide))
    ensureSafe_publicFile (fun file hfile => ?_) (ht rfl)
  rw [List.mem_singleton.mp hfile]
  have hne : privateKeyFile ≠ publicKeyFile := by decide
  exact ⟨hne, privateFile_not_staging⟩

section Invariants

variable {Inv : Keystore → Prop}

theorem keeps_saveChildDir (hguard : Guarded Inv (memberCalls member) Staging Staging)
    {name staging : String} (hname : Staging name) (hstaging : Staging staging) :
    Keeps Inv (saveChildDirRestrictedAt member name staging) := by
  refine Keeps.bind (keeps_createEntry hguard hstaging hstaging _ _) fun _ => ?_
  refine keeps_recover ?_ (keeps_removeIfExistsAt hguard hstaging _ _)
  refine Keeps.bind (keeps_touch Inv) fun _ => Keeps.bind (keeps_touch Inv) fun _ => ?_
  exact Keeps.bind (keeps_renameNoreplace hguard hstaging hname hname) fun _ =>
    keeps_mapError _ (keeps_touch Inv)

theorem keeps_saveKeyPairFiles {tempName : String}
    (hguard : Guarded Inv (childCalls member tempName) Anywhere Anywhere) (privateKey : PrivateKey)
    (publicKey : PublicKey) (names : PublicationNames) :
    Keeps Inv (saveKeyPairFiles member tempName privateKey publicKey names) :=
  Keeps.bind (keeps_saveTextRestrictedAt hguard trivial trivial trivial trivial _) fun _ =>
    keeps_saveTextRestrictedAt hguard trivial trivial trivial trivial _

theorem keeps_cleanup {tempName : String} (htemp : Staging tempName)
    (hguard : Guarded Inv (memberCalls member) Staging Staging)
    (hchild : Guarded Inv (childCalls member tempName) Anywhere Anywhere) :
    Keeps Inv (cleanupTempKeyDir member tempName) := by
  have hentries : ∀ (entries : KeyDirectory) failure,
      Keeps Inv (cleanupEntries member tempName failure entries) := by
    intro entries
    induction entries with
    | nil => exact fun failure => Keeps.done Inv _
    | cons entry entries ih =>
      intro failure
      refine Keeps.handle (keeps_removeChildEntry hchild _ _) fun r => ?_
      cases r with
      | ok _ => exact ih failure
      | error e => exact ih (failure <|> some e)
  refine Keeps.bind (Keeps.observe Inv _) fun entries => ?_
  refine Keeps.bind (hentries entries none) fun failure => ?_
  cases failure with
  | none => exact keeps_removeIfExistsAt hguard htemp _ _
  | some e => exact Keeps.done Inv _

end Invariants

variable {name : String} {R : Option MemberEntry → Prop}

theorem keeps_ensureMember_entry : Keeps (EntryIs name R) ensureMember := by
  refine Keeps.look fun s => ?_
  by_cases hs : s.isSome
  · rw [if_pos hs]
    exact Keeps.done _ _
  · rw [if_neg hs]
    refine Keeps.bind (keeps_touch _) fun _ => ?_
    refine keeps_recover ?_ (keeps_touch _)
    refine Keeps.bind (keeps_touch _) fun _ => Keeps.bind (keeps_touch _) fun _ => ?_
    refine Keeps.bind (Keeps.change fun s t h ht => ?_) fun _ => keeps_touch _
    obtain rfl := Except.ok.inj ht
    exact h

/-- Both documents state the member and the kid. -/
def StatesIdentity (member : MemberHandle) (kid : Kid) (privateKey : PrivateKey)
    (publicKey : PublicKey) : Prop :=
  (privateKey.protect.subjectHandle = member.text ∧ privateKey.protect.kid = kid.text)
    ∧ publicKey.protect.subjectHandle = member.text ∧ publicKey.protect.kid = kid.text

/-- **A KEY PAIR IS PUBLISHED BY ONE RENAME**: an entry is touched only if it is that of the kid,
    nothing stands there, and both documents take its place; where the publication succeeds, they
    are there. -/
theorem safe_saveKeyPairAtomic (kid : Kid) (privateKey : PrivateKey) (publicKey : PublicKey)
    (names : PublicationNames) (hname : ¬ Staging name) {s : Keystore} (hs : EntryIs name R s)
    (hnew : name = kid.text → R none →
      ∀ entry, Stored privateKey publicKey (some entry) → R (some entry)) :
    Safe (EntryIs name R)
      (fun r t => r = .ok () → EntryIs kid.text (Stored privateKey publicKey) t
        ∧ (name = kid.text → R none) ∧ StatesIdentity member kid privateKey publicKey)
      (saveKeyPairAtomic member kid privateKey publicKey names) s := by
  -- Until the rename everything happens under staging names, and `name` is none of them.
  have htemp : Staging (uniqueStagingDirName names.staging) := isWriteStagingName_dir _
  have hne : name ≠ uniqueStagingDirName names.staging := fun heq => hname (heq ▸ htemp)
  have hmember := @guarded_entry name R Staging Staging member hname
  have hchild := @guarded_entry_child name R member _ hne
  have hpublish : ∀ {t}, EntryIs name R t →
      Safe (EntryIs name R)
        (fun r u => r = .ok () → EntryIs kid.text (Stored privateKey publicKey) u
          ∧ (name = kid.text → R none) ∧ StatesIdentity member kid privateKey publicKey)
        (publishKeyPairAtomic member kid privateKey publicKey names) t := by
    intro t ht
    -- Both documents state the identity they are stored under, and that is checked first.
    refine Safe.bind (Q := fun r u => r = .ok () → privateKey.protect.subjectHandle = member.text
        ∧ privateKey.protect.kid = kid.text) ⟨ht, identity_of_ensure⟩ (fun _ u hu hprivate => ?_)
      fun _ _ _ _ hr => by cases hr
    refine Safe.bind (Q := fun r v => r = .ok () → publicKey.protect.subjectHandle = member.text
        ∧ publicKey.protect.kid = kid.text) ⟨hu, identity_of_ensure⟩ (fun _ v hv hpublic => ?_)
      fun _ _ _ _ hr => by cases hr
    refine Safe.bind ((keeps_saveChildDir hmember htemp (isWriteStagingName_dir _)).also hv
      (safe_newDirectory _ _ v)) (fun _ w hw hdir => ?_)
      fun _ _ _ _ hr => by cases hr
    refine Safe.handle (Q := fun r x => r = .ok () →
      EntryIs kid.text (Stored privateKey publicKey) x ∧ (name = kid.text → R none)) ?_
      fun r x hx hr => ?_
    · refine Safe.bind ((keeps_saveKeyPairFiles hchild privateKey publicKey names).also hw
        (safe_writtenPair privateKey publicKey names (hdir rfl))) (fun _ x hx hpair => ?_)
        fun _ _ _ _ hr => by cases hr
      have hrenamed : Safe (fun _ => True)
          (fun r y => r = .ok () → EntryIs kid.text (Stored privateKey publicKey) y)
          ((memberCalls member).renameNoreplace (uniqueStagingDirName names.staging) kid.text) x :=
        safe_renamed (hpair rfl)
      have htouched : Safe (EntryIs name R) (fun r _ => r = .ok () → name = kid.text → R none)
          ((memberCalls member).renameNoreplace (uniqueStagingDirName names.staging) kid.text)
          x := by
        refine safe_renameEntry hne hx ?_
        rintro hkid hfree dir entry rfl hentry
        have hstored : Stored privateKey publicKey
            (dir.lookup (uniqueStagingDirName names.staging)) :=
          hpair rfl
        rw [hentry] at hstored
        exact hnew hkid hfree entry hstored
      exact (htouched.and hrenamed).mono (fun _ h => h.1) fun _ _ _ h hr => ⟨h.2 hr, h.1 hr⟩
    · cases r with
      | ok _ =>
        refine Safe.handle (Q := fun _ y => EntryIs kid.text (Stored privateKey publicKey) y)
          (safe_touch hx fun _ => (hr rfl).1) fun _ y hy hstored => ⟨hy, fun _ => ?_⟩
        exact ⟨hstored, (hr rfl).2, hprivate rfl, hpublic rfl⟩
      | error e =>
        refine Safe.handle (keeps_cleanup htemp hmember hchild x hx) fun r y hy _ => ?_
        cases r with
        | ok _ => exact ⟨hy, fun hr => by cases hr⟩
        | error cleanup => exact ⟨hy, fun hr => by cases hr⟩
  refine Safe.bind (keeps_ensureMember_entry s hs) (fun _ t ht _ => ?_)
    fun _ _ _ _ hr => by cases hr
  refine Safe.bind (Q := fun _ _ => True) ⟨ht, trivial⟩ (fun _ u hu _ => ?_)
    fun _ _ _ _ hr => by cases hr
  refine Safe.bind (hpublish hu) (fun _ v hv hstored => ?_) fun _ _ _ _ hr => by cases hr
  refine Safe.bind (Q := fun _ w => EntryIs kid.text (Stored privateKey publicKey) w) ?_
    (fun _ w hw h => ⟨hw, fun _ => ⟨h, (hstored rfl).2⟩⟩) fun _ _ _ _ hr => by cases hr
  exact Safe.handle (Q := fun _ w => EntryIs kid.text (Stored privateKey publicKey) w)
    ⟨hv, (hstored rfl).1⟩ fun _ w hw h => ⟨hw, h⟩

/-! ## Activation and removal -/

section Elsewhere

variable (hname : ¬ Staging name) (hactive : name ≠ activeFile)

include hname hactive

/-- The marker and what is staged for it. -/
theorem guarded_marker :
    Guarded (EntryIs name R) (memberCalls member) (fun n => Staging n ∨ n = activeFile)
      (fun n => Staging n ∨ n = activeFile) :=
  guarded_entry member fun h => h.elim hname hactive

theorem keeps_saveActiveKid_entry (kid : Kid) (uuid : Uuid) :
    Keeps (EntryIs name R) (saveActiveKidLocked member kid uuid) := by
  have htemp : Staging (uniqueWriteStagingName activeFile uuid.text) :=
    isWriteStagingName_active uuid
  exact keeps_saveTextRestrictedAt (guarded_marker hname hactive) (Or.inr rfl) (Or.inr rfl)
    (Or.inl htemp) (Or.inl htemp) _

theorem keeps_activateExistingKey_entry (P : TextParsers) (kid : Kid) (now : Int) (uuid : Uuid) :
    Keeps (EntryIs name R) (activateExistingKey P member kid now uuid) := by
  refine Keeps.bind (keeps_openMember _ _) fun _ => Keeps.bind (keeps_touch _) fun _ => ?_
  refine Keeps.bind (keeps_ensureNamespaceSafe _) fun _ => ?_
  refine keeps_finishMemberMutation _ _ (Keeps.look fun s => ?_)
  cases inspectKeyActivability P member (s.getD []) kid now .activation with
  | activatable createdAt => exact keeps_saveActiveKid_entry hname hactive kid uuid
  | expired _ | missing | halfMissing | unreadable _ => exact Keeps.done _ _

theorem keeps_activateLatestValidKey_entry (P : TextParsers) (now : Int) (uuid : Uuid) :
    Keeps (EntryIs name R) (activateLatestValidKey P member now uuid) := by
  refine Keeps.bind (keeps_openMember _ _) fun _ => Keeps.bind (keeps_touch _) fun _ => ?_
  refine Keeps.bind (keeps_ensureNamespaceSafe _) fun _ => ?_
  refine keeps_finishMemberMutation _ _ (Keeps.bind (Keeps.observe _ _) fun kid => ?_)
  exact Keeps.bind (keeps_saveActiveKid_entry hname hactive kid uuid) fun _ => Keeps.done _ _

theorem keeps_clearActiveKid_entry : Keeps (EntryIs name R) (clearActiveKidLocked member) := by
  refine Keeps.bind (Keeps.observe _ _) fun standing => ?_
  cases standing with
  | false => exact Keeps.done _ _
  | true =>
    refine Keeps.handle (keeps_removeIfExistsAt (guarded_marker hname hactive) (Or.inr rfl) _ _)
      fun r => ?_
    cases r with
    | ok _ => exact Keeps.done _ _
    | error e => exact Keeps.look fun s => Keeps.done _ _

theorem keeps_removeKey_entry {kid : Kid} (hkid : name ≠ kid.text)
    (validate : Bool → Except Error Unit) :
    Keeps (EntryIs name R) (removeKeyWithValidation member kid validate) := by
  have hchild := @guarded_entry_child name R member kid.text hkid
  have hdir := @guarded_entry name R (· = kid.text) Nowhere member hkid
  refine Keeps.bind (keeps_openMember _ _) fun _ => Keeps.bind (keeps_touch _) fun _ => ?_
  refine Keeps.bind (keeps_ensureNamespaceSafe _) fun _ => keeps_finishMemberMutation _ _ ?_
  refine Keeps.bind (Keeps.observe _ _) fun active => Keeps.bind (keeps_ensure _ _) fun _ => ?_
  refine Keeps.bind (Keeps.observe _ _) fun entries => ?_
  refine Keeps.bind ?_ fun _ => Keeps.bind (keeps_mapError _ ?_) fun _ => Keeps.done _ _
  · by_cases hwas : active = some kid
    · rw [decide_eq_true hwas, if_pos rfl]
      exact keeps_clearActiveKid_entry hname hactive
    · rw [decide_eq_false hwas, if_neg Bool.false_ne_true]
      exact Keeps.done _ _
  · refine Keeps.bind (Keeps.each entries fun entry => ?_) fun _ => ?_
    · exact keeps_removeChildEntry hchild entry.1 entry.2.childType
    · exact keeps_removeIfExistsAt hdir rfl _ _

end Elsewhere

/-! ## Histories -/

/-- The operation does not remove a kid. -/
def Spares (kid : Kid) : KeystoreOperation → Prop
  | .remove other _ => other ≠ kid
  | .publish .. | .activate .. | .activateLatest .. => True

/-- **ONLY A REMOVAL OF A KEY TOUCHES IT** once it stands there. -/
theorem keeps_entry (P : TextParsers) {kid : Kid} (entry : MemberEntry)
    (operation : KeystoreOperation) (hspares : Spares kid operation) :
    Keeps (EntryIs kid.text (· = some entry)) (program P member operation) := by
  have hname : ¬ Staging kid.text := kid_not_staging kid
  have hactive : kid.text ≠ activeFile := kid_ne_active kid
  cases operation with
  | publish other privateKey publicKey names =>
    intro s hs
    refine (safe_saveKeyPairAtomic other privateKey publicKey names hname hs ?_).mono
      (fun _ h => h) fun _ _ _ _ => trivial
    intro _ hnone
    cases hnone
  | activate other now uuid => exact keeps_activateExistingKey_entry hname hactive P other now uuid
  | activateLatest now uuid =>
    exact Keeps.bind (keeps_activateLatestValidKey_entry hname hactive P now uuid) fun _ =>
      Keeps.done _ _
  | remove other validate =>
    have hne : kid.text ≠ other.text := fun heq => hspares (Kid.ext heq.symm)
    exact Keeps.bind (keeps_removeKey_entry hname hactive hne validate) fun _ => Keeps.done _ _

/-- What stands under a name of a member directory. -/
def standing (name : String) (s : Keystore) : Option MemberEntry := (s.getD []).lookup name

/-- What a publication does to a member directory, whichever of its calls fail. -/
structure PublicationLaws (P : TextParsers) (member : MemberHandle) (kid : Kid)
    (privateKey : PrivateKey) (publicKey : PublicKey) (names : PublicationNames) (s : Keystore)
    (faults : List (Option Error)) : Prop where
  /-- wherever it is stopped, its kid stands as before, or complete where there was nothing -/
  whole : let run := (saveKeyPairAtomic member kid privateKey publicKey names).run faults s
    standing kid.text run.1 = standing kid.text s
      ∨ standing kid.text s = none ∧ Stored privateKey publicKey (standing kid.text run.1)
  /-- no other key, and not the marker, is touched -/
  others : ∀ name, ¬ Staging name → name ≠ kid.text →
    standing name ((saveKeyPairAtomic member kid privateKey publicKey names).run faults s).1
      = standing name s
  /-- where it succeeds, there was nothing, and the documents are there; they state the key -/
  stored : ((saveKeyPairAtomic member kid privateKey publicKey names).run faults s).2
      = some (.ok ()) →
    standing kid.text s = none
      ∧ Stored privateKey publicKey (standing kid.text
        ((saveKeyPairAtomic member kid privateKey publicKey names).run faults s).1)
      ∧ StatesIdentity member kid privateKey publicKey
  /-- and they stay, whatever is done afterwards, until the key is removed -/
  outlasts : ((saveKeyPairAtomic member kid privateKey publicKey names).run faults s).2
      = some (.ok ()) →
    ∀ operations : List (KeystoreOperation × List (Option Error)),
      (∀ operation ∈ operations, Spares kid operation.1) →
      standing kid.text (runs (program P member) operations
          ((saveKeyPairAtomic member kid privateKey publicKey names).run faults s).1)
        = standing kid.text
          ((saveKeyPairAtomic member kid privateKey publicKey names).run faults s).1

/-- **A KEY PAIR IS STORED WHOLE OR NOT AT ALL**, nothing else is touched, and what was stored stays
    until it is removed: over every way the calls can fail and the operations can be stopped. -/
theorem publicationLaws (P : TextParsers) (member : MemberHandle) (kid : Kid)
    (privateKey : PrivateKey) (publicKey : PublicKey) (names : PublicationNames) (s : Keystore)
    (faults : List (Option Error)) :
    PublicationLaws P member kid privateKey publicKey names s faults := by
  have hnotStored : ¬ Stored privateKey publicKey none := fun ⟨_, hnone, _⟩ => by cases hnone
  -- the entry of the kid is the old one, or complete where there was none
  have hwhole := (@safe_saveKeyPairAtomic member kid.text
    (fun entry => entry = standing kid.text s
      ∨ standing kid.text s = none ∧ Stored privateKey publicKey entry)
    kid privateKey publicKey names (kid_not_staging kid) s (Or.inl rfl) (by
      rintro _ (hnone | ⟨_, hstored⟩) entry hentry
      · exact Or.inr ⟨hnone.symm, hentry⟩
      · exact absurd hstored hnotStored)).run faults
  have hstored : ((saveKeyPairAtomic member kid privateKey publicKey names).run faults s).2
      = some (.ok ()) → standing kid.text s = none
        ∧ Stored privateKey publicKey (standing kid.text
          ((saveKeyPairAtomic member kid privateKey publicKey names).run faults s).1)
        ∧ StatesIdentity member kid privateKey publicKey := by
    intro hok
    obtain ⟨hentry, hfree, hidentity⟩ := hwhole.2 _ hok rfl
    refine ⟨?_, hentry, hidentity⟩
    rcases hfree rfl with hnone | ⟨hnone, _⟩
    · exact hnone.symm
    · exact hnone
  refine ⟨hwhole.1, fun name hname hne => ?_, hstored, fun hok operations hspares => ?_⟩
  · exact ((@safe_saveKeyPairAtomic member name (· = standing name s) kid privateKey publicKey names
      hname s rfl fun heq => absurd heq hne).run faults).1
  · obtain ⟨entries, hentry, _⟩ := (hstored hok).2.1
    have hkept : EntryIs kid.text (· = some (.directory entries))
        (runs (program P member) operations
          ((saveKeyPairAtomic member kid privateKey publicKey names).run faults s).1) :=
      runs_invariant_among operations
        (fun operation hoperation => keeps_entry P _ operation.1 (hspares operation hoperation))
        hentry
    rw [hentry]
    exact hkept

end KeyStorage
