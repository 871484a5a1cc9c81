import Kapsaro.KeystoreSafety
import Kapsaro.ToyTrust

/-!
# Keystore selection — which key activation picks

What `activate_existing_key` and `activate_latest_valid_key` accept, and what they leave behind.

* **`Selectable`** — an unexpired key whose two documents read back, with its creation time.
* **`BestKey`** — the newest of them; **`selectActivatableKid_spec`** — the one that is chosen.
* **`safe_saveActiveKid`** — a marker is written for a key that is complete.
* **`marker_never_dangles`** — the marker over any sequence of operations, and what activation
  of the latest key does.
-/

namespace KeystoreSelection

open JsonText Limits TextLines WireTexts WireModel KeyProtection KeyedList TextScan TrustStore
open DocumentTokens TrustDocument MemberStore MemberOperations ReviewedRemoval KeystoreReads
open KeystoreChanges KeystoreMarker KeystoreSafety StepPrograms StepPrograms.Steps
open KeystoreChanges.DirectoryCalls
open Base64Codec ToyCrypto ToyDocuments ToyTrust

variable {member : MemberHandle}

/-! ## Listing -/

/-- In a safe directory the listing has the directories that are not staged. -/
theorem listKeystoreChildDirectories_of_safe {dir : MemberDirectory}
    (h : ∀ e ∈ dir, ensureKeystoreEntrySafe .member e.1 e.2.childType = .ok ()) :
    ∃ names, listKeystoreChildDirectories dir = .ok names
      ∧ ∀ name, isWriteStagingName name = false → ∀ entries, (name, .directory entries) ∈ dir →
        name ∈ names := by
  induction dir with
  | nil => exact ⟨[], rfl, fun _ _ _ hmem => absurd hmem List.not_mem_nil⟩
  | cons e dir ih =>
    obtain ⟨key, entry⟩ := e
    obtain ⟨names, hnames, hmem⟩ := ih fun e he => h e (List.mem_cons_of_mem _ he)
    rw [listKeystoreChildDirectories]
    by_cases hstaging : isWriteStagingName key = true
    · rw [if_pos hstaging]
      refine ⟨names, hnames, fun name hname entries hin => ?_⟩
      rcases List.mem_cons.mp hin with heq | hin
      · rw [(Prod.mk.inj heq).1, hstaging] at hname
        cases hname
      · exact hmem name hname entries hin
    · rw [if_neg hstaging, h _ List.mem_cons_self, hnames]
      refine ⟨_, rfl, fun name hname entries hin => ?_⟩
      rcases List.mem_cons.mp hin with heq | hin
      · obtain ⟨rfl, rfl⟩ := Prod.mk.inj heq
        rw [if_pos (show (MemberEntry.directory entries).childType = .directory from rfl)]
        exact List.mem_cons_self
      · split
        · exact List.mem_cons_of_mem _ (hmem name hname entries hin)
        · exact hmem name hname entries hin

theorem kidOfText?_text (kid : Kid) : kidOfText? kid.text = some kid := by
  rw [kidOfText?, dif_pos kid.valid]

/-- Every key directory is listed. -/
theorem listKids_of_safe {dir : MemberDirectory}
    (h : ∀ e ∈ dir, ensureKeystoreEntrySafe .member e.1 e.2.childType = .ok ()) :
    ensureMemberNamespaceSafe dir = .ok () ∧ ∃ kids, listKidsInVerifiedNamespace dir = .ok kids
      ∧ ∀ kid entries, dir.lookup kid.text = some (.directory entries) → kid ∈ kids := by
  obtain ⟨names, hnames, hmem⟩ := listKeystoreChildDirectories_of_safe h
  rw [ensureMemberNamespaceSafe, listKidsInVerifiedNamespace, hnames]
  refine ⟨rfl, _, rfl, fun kid entries hlook => ?_⟩
  have hin := hmem kid.text (isWriteStagingName_kid kid) entries (mem_of_lookup hlook)
  exact List.mem_filterMap.mpr ⟨kid.text, hin, kidOfText?_text kid⟩

/-! ## Selectable keys -/

section Selectable

variable (P : TextParsers) {dir : MemberDirectory} {kid : Kid} {now : Int}

/-- The key can be read, both halves of it, and has not expired; `createdAt` is the time it
    states. -/
def Selectable (member : MemberHandle) (dir : MemberDirectory) (now : Int) (kid : Kid)
    (createdAt : Option Int) : Prop :=
  ∃ entries privateKey publicKey expiresAt,
    CompleteKey member dir kid entries privateKey publicKey
      ∧ parseExpiresAt P publicKey = .ok expiresAt ∧ now < expiresAt
      ∧ parseCreatedAt P publicKey = .ok createdAt

/-- The selectable key that no other is preferred to. -/
def BestKey (member : MemberHandle) (dir : MemberDirectory) (now : Int) (kid : Kid) : Prop :=
  ∃ createdAt, Selectable P member dir now kid createdAt
    ∧ ∀ other createdAt', Selectable P member dir now other createdAt' →
      Preferred (kid, createdAt) (other, createdAt')

/-- What a passed inspection has read. -/
theorem complete_of_inspect {publicKey : PublicKey}
    (h : inspectStoredKeyPair member dir kid .readable = .ok (.present publicKey)) :
    ∃ entries privateKey, CompleteKey member dir kid entries privateKey publicKey := by
  obtain ⟨found, hfound, h⟩ := bind_eq_ok.mp h
  cases found with
  | none => cases Except.ok.inj h
  | some entries =>
    obtain ⟨_, hsafe, h⟩ := bind_eq_ok.mp h
    obtain ⟨standing, hstanding, h⟩ := bind_eq_ok.mp h
    have hlook : dir.lookup kid.text = some (.directory entries) := by
      rw [openOptionalKeyDir] at hfound
      split at hfound
      · cases Except.ok.inj hfound
      · rename_i entries' hlook
        rw [hlook, Option.some.inj (Except.ok.inj hfound)]
      · cases hfound
    cases standing with
    | false => cases Except.ok.inj h
    | true =>
      obtain ⟨document, hdocument, h⟩ := bind_eq_ok.mp h
      cases document with
      | none => cases Except.ok.inj h
      | some document =>
        obtain rfl := KeyPairRecord.present.inj (Except.ok.inj h)
        obtain ⟨exists?, _, hstanding⟩ := bind_eq_ok.mp hstanding
        cases exists? with
        | false => cases Except.ok.inj hstanding
        | true =>
          obtain ⟨privateKey, hprivate, _⟩ := bind_eq_ok.mp hstanding
          exact ⟨entries, privateKey, hlook, hsafe, hprivate, hdocument⟩

/-- A complete key passes the inspection. -/
theorem inspect_of_complete {entries : KeyDirectory} {privateKey : PrivateKey}
    {publicKey : PublicKey} (h : CompleteKey member dir kid entries privateKey publicKey) :
    inspectStoredKeyPair member dir kid .readable = .ok (.present publicKey) := by
  have hopen : openOptionalKeyDir member dir kid = .ok (some entries) := by
    rw [openOptionalKeyDir, h.stands]
  have hfile : regularFileExistsAt (keyEntryPath member kid privateKeyFile) entries privateKeyFile
      = .ok true := by
    obtain ⟨file, hfile, _⟩ := bind_eq_ok.mp h.privateHalf
    rw [openRegularFileAt] at hfile
    rw [regularFileExistsAt]
    split at hfile
    · cases hfile
    · rfl
    · cases hfile
  have hhalf : inspectStoredPrivateHalf member kid entries .readable = .ok true := by
    rw [inspectStoredPrivateHalf, hfile]
    show (loadPrivateKeyAt member kid entries >>= fun _ => pure true) = .ok true
    rw [h.privateHalf]
    rfl
  rw [inspectStoredKeyPair, hopen]
  show (ensureKeyDirectorySafe entries >>= fun _ => _) = _
  rw [h.safe]
  show (inspectStoredPrivateHalf member kid entries .readable >>= fun _ => _) = _
  rw [hhalf]
  show (loadOptionalPublicKeyAt member kid entries >>= fun _ => _) = _
  rw [h.publicHalf]
  rfl

/-- **ACTIVATABLE KEYS ARE THE SELECTABLE ONES**. -/
theorem activatable_iff (createdAt : Option Int) :
    inspectKeyActivability P member dir kid now .activation = .activatable createdAt
      ↔ Selectable P member dir now kid createdAt := by
  rw [inspectKeyActivability]
  refine ⟨fun h => ?_, ?_⟩
  · cases hload : loadKeyActivability P member dir kid now .activation with
    | error e =>
      rw [hload] at h
      cases h
    | ok activability =>
      rw [hload] at h
      obtain rfl : activability = .activatable createdAt := h
      obtain ⟨record, hrecord, hload⟩ := bind_eq_ok.mp hload
      cases record with
      | noKeyDirectory => cases Except.ok.inj hload
      | halfMissing => cases Except.ok.inj hload
      | present publicKey =>
        obtain ⟨expiresAt, hexpires, hload⟩ := bind_eq_ok.mp hload
        obtain ⟨stated, hstated, hload⟩ := bind_eq_ok.mp hload
        have hjudged := Except.ok.inj hload
        obtain ⟨entries, privateKey, hkey⟩ := complete_of_inspect hrecord
        by_cases hexpired : expiresAt ≤ now
        · rw [if_pos hexpired] at hjudged
          cases hjudged
        · rw [if_neg hexpired] at hjudged
          obtain rfl := KeyActivability.activatable.inj hjudged
          exact ⟨entries, privateKey, publicKey, expiresAt, hkey, hexpires, by omega, hstated⟩
  · rintro ⟨entries, privateKey, publicKey, expiresAt, hkey, hexpires, hnow, hstated⟩
    have hload : loadKeyActivability P member dir kid now .activation
        = .ok (.activatable createdAt) := by
      rw [loadKeyActivability, KeySelection.privateHalfCheck, inspect_of_complete hkey]
      show (parseExpiresAt P publicKey >>= fun _ => _) = _
      rw [hexpires]
      show (parseCreatedAt P publicKey >>= fun _ => _) = _
      rw [hstated]
      show Except.ok (if expiresAt ≤ now then _ else _) = _
      rw [if_neg (by omega)]
    rw [hload]

/-! ## Collecting -/

/-- Walking some kids counts all of them and keeps the ones that can be made active. -/
theorem collected (judge : Kid → KeyActivability) (kids : List Kid) (start : SelectableKeys) :
    (kids.foldl (fun selectable kid => selectable.note .activation kid (judge kid)) start).stored
        = start.stored + kids.length
      ∧ ∀ kid createdAt,
        (kid, createdAt) ∈ (kids.foldl
            (fun selectable kid => selectable.note .activation kid (judge kid)) start).candidates
          ↔ (kid, createdAt) ∈ start.candidates
            ∨ kid ∈ kids ∧ judge kid = .activatable createdAt := by
  -- The induction is on the keys; what was noted before stays.
  induction kids generalizing start with
  | nil => simp
  | cons first kids ih =>
    obtain ⟨hstored, hmem⟩ := ih (start.note .activation first (judge first))
    have hcount : (start.note .activation first (judge first)).stored = start.stored + 1 := by
      cases judge first <;> rfl
    have hnote : ∀ kid createdAt,
        (kid, createdAt) ∈ (start.note .activation first (judge first)).candidates
          ↔ (kid, createdAt) ∈ start.candidates
            ∨ kid = first ∧ judge kid = .activatable createdAt := by
      intro kid createdAt
      cases hjudge : judge first with
      | activatable time =>
        simp only [SelectableKeys.note, List.mem_append, List.mem_singleton, Prod.mk.injEq]
        refine or_congr_right ⟨?_, ?_⟩
        · rintro ⟨rfl, rfl⟩
          exact ⟨rfl, hjudge⟩
        · rintro ⟨rfl, hsame⟩
          exact ⟨rfl, (KeyActivability.activatable.inj (hjudge.symm.trans hsame)).symm⟩
      | expired time | missing | halfMissing | unreadable e =>
        refine ⟨Or.inl, ?_⟩
        rintro (hin | ⟨rfl, hsame⟩)
        · exact hin
        · cases hjudge.symm.trans hsame
    refine ⟨?_, fun kid createdAt => ?_⟩
    · rw [List.foldl_cons, hstored, hcount, List.length_cons]
      omega
    · rw [List.foldl_cons, hmem, hnote, List.mem_cons, or_assoc]
      refine or_congr_right ⟨?_, ?_⟩
      · rintro (⟨heq, hjudge⟩ | ⟨hin, hjudge⟩)
        · exact ⟨Or.inl heq, hjudge⟩
        · exact ⟨Or.inr hin, hjudge⟩
      · rintro ⟨heq | hin, hjudge⟩
        · exact Or.inl ⟨heq, hjudge⟩
        · exact Or.inr ⟨hin, hjudge⟩

/-- **THE SELECTION** picks the best key, and fails only where no key is selectable. -/
theorem selectActivatableKid_spec (member : MemberHandle) (dir : MemberDirectory) (now : Int)
    (h : ∀ e ∈ dir, ensureKeystoreEntrySafe .member e.1 e.2.childType = .ok ()) :
    match selectActivatableKid P member dir now with
    | .ok kid => BestKey P member dir now kid
    | .error _ => ∀ kid createdAt, ¬ Selectable P member dir now kid createdAt := by
  obtain ⟨_, kids, hkids, hlisted⟩ := listKids_of_safe h
  obtain ⟨hstored, hmem⟩ := collected
    (fun kid => inspectKeyActivability P member dir kid now .activation) kids ⟨0, [], [], []⟩
  -- The candidates that were collected are the keys that may be selected.
  have hcandidates : ∀ kid createdAt,
      (kid, createdAt) ∈ (kids.foldl (fun (selectable : SelectableKeys) kid =>
          selectable.note .activation kid
            (inspectKeyActivability P member dir kid now .activation)) ⟨0, [], [], []⟩).candidates
        ↔ Selectable P member dir now kid createdAt := by
    intro kid createdAt
    rw [hmem, activatable_iff]
    refine ⟨fun hin => ?_, fun hsel => Or.inr ⟨?_, hsel⟩⟩
    · exact hin.elim (fun hin => absurd hin List.not_mem_nil) And.right
    · obtain ⟨entries, _, _, _, hkey, _⟩ := hsel
      exact hlisted kid entries hkey.stands
  rw [selectActivatableKid, collectSelectableKeys, hkids]
  dsimp only [bind, Except.bind, pure, Except.pure]
  generalize kids.foldl (fun (selectable : SelectableKeys) kid => selectable.note .activation kid
    (inspectKeyActivability P member dir kid now .activation)) ⟨0, [], [], []⟩ = selectable
    at hstored hcandidates ⊢
  have hspec := selectPreferredKid_spec selectable.candidates
  by_cases hzero : selectable.stored = 0
  · rw [if_pos hzero]
    intro kid createdAt hsel
    obtain ⟨entries, _, _, _, hkey, _⟩ := hsel
    have hempty : kids = [] := List.length_eq_zero_iff.mp (by dsimp only at hstored; omega)
    have hin := hlisted kid entries hkey.stands
    rw [hempty] at hin
    exact absurd hin List.not_mem_nil
  · rw [if_neg hzero]
    cases hselect : selectPreferredKid selectable.candidates with
    | none =>
      rw [hselect] at hspec
      intro kid createdAt hsel
      rw [← hcandidates, show selectable.candidates = [] from hspec] at hsel
      exact absurd hsel List.not_mem_nil
    | some kid =>
      rw [hselect] at hspec
      obtain ⟨createdAt, hin, hbest⟩ := hspec
      refine ⟨createdAt, (hcandidates kid createdAt).mp hin, fun other createdAt' hother => ?_⟩
      exact hbest _ ((hcandidates other createdAt').mpr hother)

end Selectable

/-! ## Writing the marker -/

/-- The bytes of a marker file. -/
def activeBytes (kid : Kid) : Bytes := utf8 (kid.text ++ "\n")

theorem isWhitespace_of_crockford {c : Char} (h : isCrockfordChar c = true) :
    isWhitespace c = false := by
  have hrange : 48 ≤ c.toNat ∧ c.toNat ≤ 90 := by
    rcases toNat_of_crockford h with hdigit | hupper <;> omega
  rw [Bool.eq_false_iff]
  intro hspace
  simp only [isWhitespace, Bool.or_eq_true, Bool.and_eq_true, decide_eq_true_eq,
    beq_iff_eq] at hspace
  omega

theorem trim_kid (kid : Kid) : trim (kid.text ++ "\n").toList = kid.text.toList := by
  have hvalid := kid.valid
  rw [isKidText, Bool.and_eq_true, beq_iff_eq, List.all_eq_true] at hvalid
  have hplain : ∀ c ∈ kid.text.toList, isWhitespace c = false :=
    fun c hc => isWhitespace_of_crockford (hvalid.2 c hc)
  have hlist : (kid.text ++ "\n").toList = kid.text.toList ++ ['\n'] := String.toList_append
  rw [hlist]
  generalize kid.text.toList = cs at hvalid hplain
  cases cs with
  | nil => cases hvalid.1
  | cons c rest =>
    rw [trim, List.cons_append, trimStart_cons (hplain c List.mem_cons_self), ← List.cons_append,
      List.rdropWhile_concat_pos _ _ _ (by decide)]
    exact List.rdropWhile_eq_self_iff.mpr fun hne =>
      Bool.eq_false_iff.mp (hplain _ (List.getLast_mem hne))

theorem activeBytes_length (kid : Kid) : (activeBytes kid).length ≤ maxActiveKidFileSize := by
  have hsize : ∀ cs : List Char, JsonSize.charsSize cs ≤ 4 * cs.length := by
    intro cs
    induction cs with
    | nil => exact Nat.le_refl 0
    | cons c cs ih =>
      have hc := Char.utf8Size_le_four c
      rw [JsonSize.charsSize_cons, List.length_cons]
      omega
  have hvalid := kid.valid
  rw [isKidText, Bool.and_eq_true, beq_iff_eq] at hvalid
  have hle := hsize kid.text.toList
  rw [← JsonSize.utf8ByteSize_ofList, String.ofList_toList, hvalid.1] at hle
  rw [activeBytes, utf8_length, String.utf8ByteSize_append]
  have hnewline : "\n".utf8ByteSize = 1 := by decide
  rw [maxActiveKidFileSize]
  omega

/-- A written marker reads back as its kid. -/
theorem loadActiveKid_written {dir : MemberDirectory} {kid : Kid} {ownerOnly : Bool}
    (h : dir.lookup activeFile = some (.file ⟨activeBytes kid, ownerOnly⟩)) :
    loadActiveKid member dir = .ok (some kid) := by
  have htext : loadActiveText member dir = .ok (some kid.text) := by
    rw [loadActiveText, h]
    dsimp only
    rw [loadCappedBytes, if_pos (activeBytes_length kid)]
    show (decodeLoadedText _ (activeBytes kid) >>= fun _ => _) = _
    rw [decodeLoadedText, activeBytes, utf8Decode_utf8]
    show Except.ok (some (String.ofList (trim (kid.text ++ "\n").toList))) = _
    rw [trim_kid, String.ofList_toList]
  have hne : kid.text ≠ "" := by
    intro hempty
    have hvalid := kid.valid
    rw [hempty] at hvalid
    cases hvalid
  rw [loadActiveKid, htext]
  show (if kid.text = "" then _ else _) = _
  rw [if_neg hne, kidFromCanonical, kidOfText?_text]
  rfl

/-- The marker names a kid. -/
def Marked (member : MemberHandle) (kid : Kid) (s : Keystore) : Prop :=
  ∃ dir, s = some dir ∧ loadActiveKid member dir = .ok (some kid)

/-- A staged file holds some bytes. -/
def StagedAs (name : String) (data : Bytes) (s : Keystore) : Prop :=
  ∃ dir, s = some dir ∧ dir.lookup name = some (.file ⟨data, true⟩)

section Marker

variable {kid : Kid}

/-- A staged file that was saved holds what it was given. -/
theorem safe_stagedAs (tempName : String) (data : Bytes) (s : Keystore) :
    Safe (fun _ => True) (fun r t => r = .ok () → StagedAs tempName data t)
      ((memberCalls member).saveStagedFile tempName data) s := by
  have hwrite : ∀ t, Safe (fun _ => True) (fun r u => r = .ok () → StagedAs tempName data u)
      ((memberCalls member).writeEntry tempName data) t := by
    refine fun t => Safe.change trivial (fun _ hr => by cases hr) fun u hu => ⟨trivial, fun _ => ?_⟩
    obtain ⟨dir, edited, rfl, hdir, rfl⟩ := memberCalls_edit hu
    obtain rfl := Except.ok.inj hdir
    exact ⟨_, rfl, by rw [lookup_insertKey, if_pos rfl]; rfl⟩
  refine Safe.bind (Q := fun _ _ => True) ?_ (fun _ t _ _ => ?_) fun _ _ _ _ hr => by cases hr
  · exact Safe.change trivial (fun _ => trivial) fun _ _ => ⟨trivial, trivial⟩
  · refine Safe.handle (Q := fun r u => r = .ok () → StagedAs tempName data u) ?_ fun r u _ hr => ?_
    · refine Safe.bind (Q := fun _ _ => True) (safe_touch trivial fun _ => trivial)
        (fun _ u _ _ => ?_) fun _ _ _ _ hr => by cases hr
      refine Safe.bind (hwrite u) (fun _ v _ hr => ?_) fun _ _ _ _ hr => by cases hr
      exact safe_touch trivial fun _ _ => hr rfl
    · cases r with
      | ok _ => exact ⟨trivial, fun _ => hr rfl⟩
      | error e =>
        refine Safe.bind (Q := fun _ _ => True) ?_ (fun _ _ _ _ => ⟨trivial, fun hr => by cases hr⟩)
          fun _ _ _ _ hr => by cases hr
        refine Safe.handle (Q := fun _ _ => True) ?_ fun _ _ _ _ => ⟨trivial, trivial⟩
        exact Safe.change trivial (fun _ => trivial) fun _ _ => ⟨trivial, trivial⟩

/-- A regular file may stand under the name of the marker. -/
theorem ensureSafe_active :
    ensureKeystoreEntrySafe .member activeFile .regularFile = .ok () := by
  rw [ensureKeystoreEntrySafe, if_neg activeFile_not_staging, KeystoreLevel.storedType, if_pos rfl]
  rfl

/-- The rename that publishes the marker. -/
theorem safe_renameActive {tempName : String} (htemp : Staging tempName) {s : Keystore}
    (h : InOrder member s) (hheld : Held member kid s)
    (hstaged : StagedAs tempName (activeBytes kid) s) :
    Safe (InOrder member) (fun r t => r = .ok () → Marked member kid t)
      ((memberCalls member).renameEntry tempName activeFile) s := by
  refine Safe.change h (fun _ hr => by cases hr) fun t ht => ?_
  obtain ⟨dir, edited, rfl, hdir, rfl⟩ := memberCalls_edit ht
  obtain ⟨entry, hsource, rfl⟩ := renamingOver_ok hdir
  obtain ⟨_, hdir', hfile⟩ := hstaged
  obtain rfl := Option.some.inj hdir'
  obtain rfl := Option.some.inj (hsource.symm.trans hfile)
  obtain ⟨_, hdir', hholds⟩ := hheld
  obtain rfl := Option.some.inj hdir'
  have hmarked : loadActiveKid member
      (insertKey activeFile (.file ⟨activeBytes kid, true⟩) (dropEntry tempName dir))
        = .ok (some kid) :=
    loadActiveKid_written (by rw [lookup_insertKey, if_pos rfl])
  refine ⟨fun dir' hdir' => ?_, fun _ => ⟨_, rfl, hmarked⟩⟩
  obtain rfl := Option.some.inj hdir'
  refine ⟨fun e he => ?_, Or.inr ⟨kid, hmarked, hholds.congr ?_⟩⟩
  · rcases mem_insertKey he with rfl | hin
    · exact ensureSafe_active
    · exact (h dir rfl).safe e (List.mem_of_mem_filter hin)
  · have hne : kid.text ≠ tempName := by
      rintro rfl
      exact kid_not_staging kid htemp
    rw [lookup_insertKey, if_neg (kid_ne_active kid), lookup_dropEntry, if_neg hne]

/-- **A MARKER IS WRITTEN FOR A COMPLETE KEY**: whatever fails, it names that key or what it named
    before. -/
theorem safe_saveActiveKid (uuid : Uuid) {s : Keystore} (h : InOrder member s)
    (hheld : Held member kid s) :
    Safe (InOrder member) (fun r t => r = .ok () → Marked member kid t)
      (saveActiveKidLocked member kid uuid) s := by
  have htemp : Staging (uniqueWriteStagingName activeFile uuid.text) :=
    isWriteStagingName_active uuid
  have hguard := guarded_and (guarded_staging member) (guarded_held member kid)
  have hstage : ∀ t, InOrder member t → Held member kid t →
      Safe (InOrder member)
        (fun r u => Held member kid u
          ∧ (r = .ok () → StagedAs (uniqueWriteStagingName activeFile uuid.text)
            (activeBytes kid) u))
        ((memberCalls member).saveStagedFile (uniqueWriteStagingName activeFile uuid.text)
          (activeBytes kid)) t := by
    intro t ht hheld
    have hkept := (keeps_saveStagedFile hguard htemp htemp (activeBytes kid)).also ⟨ht, hheld⟩
      (safe_stagedAs _ (activeBytes kid) t)
    exact hkept.holding.mono (fun _ h => h.1) fun _ _ _ h => ⟨h.1.2, h.2⟩
  refine Safe.bind (Q := fun _ t => Held member kid t) ⟨h, hheld⟩ (fun _ t ht hheld => ?_)
    fun _ _ _ _ hr => by cases hr
  · refine Safe.bind (hstage t ht hheld) (fun _ u hu hstaged => ?_) fun _ _ _ _ hr => by cases hr
    refine Safe.bind (Q := fun r v => r = .ok () → Marked member kid v) ?_ (fun _ v hv hr => ?_)
      fun _ _ _ _ hr => by cases hr
    · refine Safe.handle (safe_renameActive htemp hu hstaged.1 (hstaged.2 rfl)) fun r v hv hr => ?_
      cases r with
      | ok _ => exact ⟨hv, fun _ => hr rfl⟩
      | error e =>
        refine Safe.bind (Q := fun _ _ => True) ?_ (fun _ w hw _ => ⟨hw, fun hr => by cases hr⟩)
          fun _ _ _ _ hr => by cases hr
        exact keeps_ignoring (keeps_unlinkEntry (guarded_staging member) htemp _ _) v hv
    · refine Safe.handle (Q := fun _ w => Marked member kid w) (safe_touch hv fun _ => hr rfl)
        fun _ w hw hmarked => ⟨hw, fun _ => hmarked⟩

end Marker

/-! ## Activation -/

section Activation

variable (P : TextParsers)

theorem held_of_selectable {dir : MemberDirectory} {now : Int} {kid : Kid} {createdAt : Option Int}
    (h : Selectable P member dir now kid createdAt) : Held member kid (some dir) := by
  obtain ⟨entries, privateKey, publicKey, _, hkey, _⟩ := h
  exact ⟨dir, rfl, entries, privateKey, publicKey, hkey⟩

theorem held_getD {s : Keystore} {now : Int} {kid : Kid} {createdAt : Option Int}
    (h : Selectable P member (s.getD []) now kid createdAt) : Held member kid s := by
  cases s with
  | none =>
    obtain ⟨_, _, _, _, hkey, _⟩ := h
    cases hkey.stands
  | some dir => exact held_of_selectable P h

theorem keeps_activateExistingKey (kid : Kid) (now : Int) (uuid : Uuid) :
    Keeps (InOrder member) (activateExistingKey P member kid now uuid) := by
  refine Keeps.bind (keeps_openMember _ _) fun _ => ?_
  refine Keeps.bind (keeps_touch _) fun _ => ?_
  refine Keeps.bind (keeps_ensureNamespaceSafe _) fun _ => ?_
  refine keeps_finishMemberMutation _ _ fun s hs => Safe.look ?_
  cases hjudge : inspectKeyActivability P member (s.getD []) kid now .activation with
  | activatable createdAt =>
    have hheld := held_getD P ((activatable_iff P createdAt).mp hjudge)
    exact (safe_saveActiveKid uuid hs hheld).mono (fun _ h => h) fun _ _ _ _ => trivial
  | expired _ | missing | halfMissing | unreadable _ => exact ⟨hs, trivial⟩

/-- What activation of the latest key leaves when it succeeds. -/
def Activated (member : MemberHandle) (now : Int) (before : Keystore) (r : Except Error Kid)
    (after : Keystore) : Prop :=
  ∀ kid, r = .ok kid →
    (∃ dir, before = some dir ∧ BestKey P member dir now kid) ∧ Marked member kid after

theorem safe_activateLatestValidKey (now : Int) (uuid : Uuid) {s : Keystore}
    (h : InOrder member s) :
    Safe (InOrder member) (Activated P member now s)
      (activateLatestValidKey P member now uuid) s := by
  have hfail : ∀ e t, Activated P member now s (.error e) t := fun e t kid hr => by cases hr
  refine Safe.bind (Q := fun _ t => t = s) ⟨h, rfl⟩ ?_ fun e t _ _ => hfail e t
  rintro _ t ht rfl
  refine Safe.bind (Q := fun _ u => u = t) (safe_touch ht fun _ => rfl) ?_ fun e u _ _ => hfail e u
  rintro _ u hu rfl
  refine Safe.bind (Q := fun _ v => v = u) ⟨hu, rfl⟩ ?_ fun e v _ _ => hfail e v
  rintro _ v hv rfl
  refine Safe.bind (Q := Activated P member now v) ?_ (fun kid w hw hactivated => ?_)
    fun e w _ _ => hfail e w
  · refine Safe.bind (Q := fun r w => w = v ∧ r = selectActivatableKid P member (v.getD []) now)
      ⟨hv, rfl, rfl⟩ ?_ fun e w _ _ => hfail e w
    rintro kid w hw ⟨rfl, hselected⟩
    have hbest : ∃ dir, w = some dir ∧ BestKey P member dir now kid := by
      cases w with
      | none =>
        have hspec := selectActivatableKid_spec P member [] now
          fun _ he => absurd he List.not_mem_nil
        rw [show selectActivatableKid P member [] now = .ok kid from hselected.symm] at hspec
        obtain ⟨_, ⟨_, _, _, _, hkey, _⟩, _⟩ := hspec
        cases hkey.stands
      | some dir =>
        have hspec := selectActivatableKid_spec P member dir now (hw dir rfl).safe
        rw [show selectActivatableKid P member dir now = .ok kid from hselected.symm] at hspec
        exact ⟨dir, rfl, hspec⟩
    obtain ⟨dir, rfl, hbest⟩ := hbest
    have hheld := held_of_selectable P hbest.choose_spec.1
    refine Safe.bind (safe_saveActiveKid uuid hw hheld) (fun _ x hx hmarked => ⟨hx, ?_⟩)
      fun e x _ _ => hfail e x
    intro kid' hkid
    obtain rfl := Except.ok.inj hkid
    exact ⟨⟨dir, rfl, hbest⟩, hmarked rfl⟩
  · refine Safe.bind (Q := fun _ x => Activated P member now v (.ok kid) x) ?_
      (fun _ x hx h => ⟨hx, h⟩) fun e x _ _ => hfail e x
    exact Safe.handle (Q := fun _ x => Activated P member now v (.ok kid) x) ⟨hw, hactivated⟩
      fun _ x hx h => ⟨hx, h⟩

/-! ### Undisturbed activation -/

theorem finish_touch (s : Keystore) : touch.finish s = (s, .ok ()) := rfl

/-- No directory stands under the name of the marker. -/
theorem active_not_directory {dir : MemberDirectory} (h : Intact member dir) {entry : MemberEntry}
    (hlook : dir.lookup activeFile = some entry) : entry.childType ≠ .directory := by
  intro hdir
  have hsafe := h.safe _ (mem_of_lookup hlook)
  rw [ensureKeystoreEntrySafe, if_neg activeFile_not_staging, KeystoreLevel.storedType,
    if_pos rfl, hdir] at hsafe
  cases hsafe

/-- **A MARKER IS WRITTEN** when no call fails and the staging name is new. -/
theorem finish_saveActiveKid {dir : MemberDirectory} (h : Intact member dir) (kid : Kid)
    {uuid : Uuid} (hfresh : dir.lookup (uniqueWriteStagingName activeFile uuid.text) = none) :
    ((saveActiveKidLocked member kid uuid).finish (some dir)).2 = .ok () := by
  have htemp : Staging (uniqueWriteStagingName activeFile uuid.text) :=
    isWriteStagingName_active uuid
  rw [saveActiveKidLocked, saveTextRestrictedAt]
  -- The staging name matters only as a free one that is not the marker.
  generalize uniqueWriteStagingName activeFile uuid.text = tempName at hfresh htemp
  have hne : activeFile ≠ tempName := by
    rintro rfl
    exact activeFile_not_staging htemp
  have hcheck : checkedAtomicWriteTargetName activeFile = .ok () := by decide
  have hcreate : ((memberCalls member).createEntry tempName
      ((memberCalls member).regular ⟨[], true⟩) "temp file").finish (some dir)
        = (some (dir ++ [(tempName, .file ⟨[], true⟩)]), .ok ()) := by
    refine finish_change_ok ?_
    show (DirectoryCalls.creating _ _ _ _ dir).map some = _
    rw [creating, hfresh]
    rfl
  have hwrite : ((memberCalls member).writeEntry tempName (activeBytes kid)).finish
      (some (dir ++ [(tempName, .file ⟨[], true⟩)]))
        = (some (insertKey tempName (.file ⟨activeBytes kid, true⟩)
            (dir ++ [(tempName, .file ⟨[], true⟩)])), .ok ()) :=
    finish_change_ok rfl
  generalize hstaged : insertKey tempName (.file ⟨activeBytes kid, true⟩)
    (dir ++ [(tempName, .file ⟨[], true⟩)]) = staged at hwrite
  have hsource : staged.lookup tempName = some (.file ⟨activeBytes kid, true⟩) := by
    rw [← hstaged, lookup_insertKey, if_pos rfl]
  have hactive : staged.lookup activeFile = dir.lookup activeFile := by
    rw [← hstaged, lookup_insertKey, if_neg hne, lookup_concat _ _ _ hfresh, if_neg hne]
  have hrename : ∃ t, ((memberCalls member).renameEntry tempName activeFile).finish (some staged)
      = (t, .ok ()) := by
    refine ⟨some (insertKey activeFile (.file ⟨activeBytes kid, true⟩)
      (dropEntry tempName staged)), finish_change_ok ?_⟩
    show (DirectoryCalls.renamingOver _ _ _ staged).map some = _
    rw [renamingOver, hsource]
    dsimp only
    rw [if_neg ?_]
    · rfl
    · rw [hactive]
      cases hlook : dir.lookup activeFile with
      | none => exact fun h => by cases h
      | some entry => exact fun hdir => active_not_directory h hlook (Option.some.inj hdir)
  -- Create, write and rename succeed, so their sequence does.
  obtain ⟨t, hrename⟩ := hrename
  have hsave : ((memberCalls member).saveStagedFile tempName (activeBytes kid)).finish (some dir)
      = (some staged, .ok ()) := by
    rw [saveStagedFile, finish_bind_ok hcreate, finish_handle_ok]
    · rfl
    · rw [finish_bind_ok (finish_touch _), finish_bind_ok hwrite, finish_touch]
  have hpublish : (((memberCalls member).publishStagedFile activeFile tempName).finish
      (some staged)).2 = .ok () := by
    rw [publishStagedFile, finish_bind_ok (a := ()) (t := t)]
    · rfl
    · rw [finish_handle_ok hrename]
      rfl
  rw [finish_bind_ok (show (ensure _).finish (some dir) = (some dir, .ok ()) by rw [hcheck]; rfl)]
  exact (congrArg Prod.snd (finish_bind_ok hsave)).trans hpublish

/-- **ACTIVATION SUCCEEDS** when no call fails and there is a key it can select. -/
theorem finish_activateLatestValidKey {dir : MemberDirectory} (h : Intact member dir) {now : Int}
    {kid : Kid} {uuid : Uuid}
    (hfresh : dir.lookup (uniqueWriteStagingName activeFile uuid.text) = none)
    (hselect : selectActivatableKid P member dir now = .ok kid) :
    ((activateLatestValidKey P member now uuid).finish (some dir)).2 = .ok kid := by
  have hinOrder : InOrder member (some dir) := fun dir' hdir => Option.some.inj hdir ▸ h
  have hspec := selectActivatableKid_spec P member dir now h.safe
  rw [hselect] at hspec
  have hkept := (safe_saveActiveKid uuid hinOrder (held_of_selectable P hspec.choose_spec.1)).finish
  obtain ⟨t, hsave⟩ : ∃ t, (saveActiveKidLocked member kid uuid).finish (some dir) = (t, .ok ()) :=
    ⟨_, Prod.ext rfl (finish_saveActiveKid h kid hfresh)⟩
  rw [hsave] at hkept
  obtain ⟨dir', rfl, _⟩ := hkept.2 rfl
  have hsafe : ensureMemberNamespaceSafe dir = .ok () := (listKids_of_safe h.safe).1
  have hsafe' : ensureMemberNamespaceSafe dir' = .ok () :=
    (listKids_of_safe (hkept.1 dir' rfl).safe).1
  have hmutation : ((do
      let kid ← observe fun s => selectActivatableKid P member (s.getD []) now
      saveActiveKidLocked member kid uuid
      pure kid : Change Kid).finish (some dir)) = (some dir', .ok kid) := by
    have hobserve : (observe fun s : Keystore =>
        selectActivatableKid P member (s.getD []) now).finish (some dir) = (some dir, .ok kid) :=
      Prod.ext rfl hselect
    rw [finish_bind_ok hobserve, finish_bind_ok hsave]
    rfl
  have hfinal : (mapError (postMutationError (memberEntryPath member activeFile) "was written")
      ensureNamespaceSafe).finish (some dir') = (some dir', .ok ()) := by
    rw [mapError, finish_handle_ok
      (show ensureNamespaceSafe.finish (some dir') = (some dir', .ok ())
      from Prod.ext rfl hsafe')]
    rfl
  rw [activateLatestValidKey, finish_bind_ok (show (openMember _).finish (some dir)
    = (some dir, .ok dir) from rfl), finish_bind_ok (finish_touch _),
    finish_bind_ok (show ensureNamespaceSafe.finish (some dir) = (some dir, .ok ()) from
      Prod.ext rfl hsafe), finishMemberMutation, finish_bind_ok hmutation, finish_bind_ok hfinal]
  rfl

end Activation

/-! ## The marker -/

/-- Every operation keeps the marker in order. -/
theorem keeps_program (P : TextParsers) (member : MemberHandle) (operation : KeystoreOperation) :
    Keeps (InOrder member) (program P member operation) := by
  cases operation with
  | publish kid privateKey publicKey names =>
    exact keeps_saveKeyPairAtomic kid privateKey publicKey names
  | activate kid now uuid => exact keeps_activateExistingKey P kid now uuid
  | activateLatest now uuid =>
    intro s hs
    refine Safe.bind ((safe_activateLatestValidKey P now uuid hs).mono (fun _ h => h)
      fun _ _ _ _ => trivial) (fun _ t ht _ => ⟨ht, trivial⟩) fun _ _ _ _ => trivial
  | remove kid validate =>
    exact Keeps.bind (keeps_removeKeyWithValidation kid validate) fun _ => Keeps.done _ _

/-- What activation of the latest key does from a keystore: where it succeeds, whatever failed
    before, the marker names the best key; and undisturbed it fails exactly where no key can be
    selected. -/
structure ActivationSound (P : TextParsers) (member : MemberHandle) (now : Int) (uuid : Uuid)
    (s : Keystore) : Prop where
  named : ∀ faults t kid,
    (activateLatestValidKey P member now uuid).run faults s = (t, some (.ok kid)) →
      (∃ dir, s = some dir ∧ BestKey P member dir now kid) ∧ Marked member kid t
  fails : (∀ dir, s = some dir → dir.lookup (uniqueWriteStagingName activeFile uuid.text) = none) →
    ((∃ e, ((activateLatestValidKey P member now uuid).finish s).2 = .error e)
      ↔ ∀ dir, s = some dir → ∀ kid createdAt, ¬ Selectable P member dir now kid createdAt)

theorem activationSound (P : TextParsers) (now : Int) (uuid : Uuid) {s : Keystore}
    (h : InOrder member s) : ActivationSound P member now uuid s := by
  have hsafe := safe_activateLatestValidKey P now uuid h
  refine ⟨fun faults t kid hrun => ?_, fun hfresh => ⟨?_, ?_⟩⟩
  · have hactivated := (hsafe.run faults).2 (.ok kid) (congrArg Prod.snd hrun)
    rw [hrun] at hactivated
    exact hactivated kid rfl
  · rintro ⟨e, herror⟩ dir rfl kid createdAt hsel
    have hspec := selectActivatableKid_spec P member dir now (h dir rfl).safe
    cases hselect : selectActivatableKid P member dir now with
    | error e =>
      rw [hselect] at hspec
      exact hspec kid createdAt hsel
    | ok best =>
      rw [finish_activateLatestValidKey P (h dir rfl) (hfresh dir rfl) hselect] at herror
      cases herror
  · intro hnone
    cases hresult : ((activateLatestValidKey P member now uuid).finish s).2 with
    | error e => exact ⟨e, rfl⟩
    | ok kid =>
      obtain ⟨⟨dir, hdir, createdAt, hsel, _⟩, _⟩ := hsafe.finish.2 kid hresult
      exact absurd hsel (hnone dir hdir kid createdAt)

/-- There is no marker, or an empty one, or it names a key directory that holds both documents,
    and both state the member and that kid. -/
def MarkerSound (member : MemberHandle) (dir : MemberDirectory) : Prop :=
  loadActiveKid member dir = .ok none
    ∨ ∃ kid entries privateKey publicKey, loadActiveKid member dir = .ok (some kid)
      ∧ dir.lookup kid.text = some (.directory entries)
      ∧ loadPrivateKeyAt member kid entries = .ok privateKey
      ∧ loadOptionalPublicKeyAt member kid entries = .ok (some publicKey)
      ∧ (privateKey.protect.subjectHandle = member.text ∧ privateKey.protect.kid = kid.text)
      ∧ publicKey.protect.subjectHandle = member.text ∧ publicKey.protect.kid = kid.text

/-- **THE MARKER NEVER DANGLES**: after any sequence of publications, activations and removals,
    each of them stopped anywhere and with any of its calls failing, the marker names nothing or a
    complete key of the member; and activation of the latest key picks the best one. -/
theorem marker_never_dangles (P : TextParsers) (member : MemberHandle) (start : Keystore)
    (hstart : InOrder member start)
    (operations : List (KeystoreOperation × List (Option Error))) :
    (∀ dir, runs (program P member) operations start = some dir → MarkerSound member dir)
      ∧ ∀ now uuid, ActivationSound P member now uuid
        (runs (program P member) operations start) := by
  have hreached := runs_invariant (keeps_program P member) operations hstart
  refine ⟨fun dir hdir => ?_, fun now uuid => activationSound P now uuid hreached⟩
  rcases (hreached dir hdir).marker with hnone | ⟨kid, hload, entries, privateKey, publicKey, hkey⟩
  · exact Or.inl hnone
  · exact Or.inr ⟨kid, entries, privateKey, publicKey, hload, hkey.stands, hkey.privateHalf,
      hkey.publicHalf, hkey.privateStates, hkey.publicStates⟩

/-! ## A small keystore -/

def toyUuid : Uuid := ⟨"00000000-0000-4000-8000-000000000000", by decide⟩

def otherUuid : Uuid := ⟨"00000000-0000-4000-8000-000000000001", by decide⟩

/-- The private half of a key of alice. -/
def toyPrivateKey : PrivateKey where
  protect := {
    format := privateKeyV1
    subjectHandle := alice.text
    kid := toyKid.text
    alg := .argon2id (encodeBase64urlNopad (pad 32 []).bytes)
      (encodeBase64urlNopad (pad 32 []).bytes)
      aeadXChaCha20Poly1305
    createdAt := "2025-01-01T00:00:00Z"
    expiresAt := "2030-01-01T00:00:00Z" }
  encrypted := {
    nonce := encodeBase64urlNopad (pad 24 []).bytes
    ct := encodeBase64urlNopad (pad 64 []).bytes }

/-- A key is published and made active; its removal is stopped after the marker is cleared, and
    another activation is stopped before its rename. -/
def toyOperations : List (KeystoreOperation × List (Option Error)) :=
  [(.publish toyKid toyPrivateKey (toyStatement alice toyKid [1])
      ⟨toyUuid, otherUuid, toyUuid, toyUuid⟩, List.replicate 40 none),
    (.activateLatest 0 toyUuid, List.replicate 10 none),
    (.remove toyKid fun _ => .ok (), [none, none]),
    (.activate toyKid 0 toyUuid, [none, none, none, none])]

theorem marker_never_dangles_toy :
    (∀ dir, runs (program toyParsers alice) toyOperations none = some dir → MarkerSound alice dir)
      ∧ ∀ now uuid, ActivationSound toyParsers alice now uuid
        (runs (program toyParsers alice) toyOperations none) :=
  marker_never_dangles toyParsers alice none (fun _ h => by cases h) toyOperations

end KeystoreSelection
