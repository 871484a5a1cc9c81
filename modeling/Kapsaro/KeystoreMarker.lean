import Kapsaro.KeystoreChanges

/-!
# Keystore marker — what the active marker promises

The invariant of a member directory, and the names and calls that leave it alone.

* **`CompleteKey`**, **`HoldsKey`** — both documents of a key are there and state the member and
  the kid.
* **`Intact`** — the entries are safe, and the marker names a complete key or nothing.
* **`Confined`**, **`Guarded`** — an edit that stays within some names, and calls for which such
  edits keep an invariant.
* **`intact_edit`**, **`guarded_staging`**, **`guarded_child`** — staged entries do not count.
-/

namespace KeystoreMarker

open JsonText Limits TextLines WireTexts WireModel KeyProtection KeyedList TextScan TrustStore
open DocumentTokens TrustDocument MemberStore ReviewedRemoval KeystoreReads KeystoreChanges
open StepPrograms StepPrograms.Steps KeystoreChanges.DirectoryCalls

/-! ## Looking names up -/

section Lookup

variable {α : Type}

theorem lookup_cons_ite (name other : String) (x : α) (entries : List (String × α)) :
    ((name, x) :: entries).lookup other
      = if other = name then some x else entries.lookup other := by
  rw [List.lookup_cons]
  by_cases h : other = name
  · rw [if_pos h, beq_iff_eq.mpr h]
  · rw [if_neg h, beq_eq_false_iff_ne.mpr h]

theorem lookup_insertKey (name other : String) (x : α) (entries : List (String × α)) :
    (insertKey name x entries).lookup other
      = if other = name then some x else entries.lookup other := by
  induction entries with
  | nil => exact lookup_cons_ite name other x []
  | cons entry entries ih =>
    obtain ⟨key, y⟩ := entry
    rw [insertKey]
    by_cases hkey : key = name
    · rw [if_pos hkey, lookup_cons_ite, lookup_cons_ite, hkey]
      by_cases h : other = name
      · rw [if_pos h, if_pos h]
      · rw [if_neg h, if_neg h, if_neg h]
    · rw [if_neg hkey, lookup_cons_ite, lookup_cons_ite, ih]
      by_cases h : other = key
      · rw [if_pos h, if_pos h, if_neg fun heq => hkey (h.symm.trans heq)]
      · rw [if_neg h, if_neg h]

theorem lookup_dropEntry (name other : String) (entries : List (String × α)) :
    (dropEntry name entries).lookup other
      = if other = name then none else entries.lookup other := by
  induction entries with
  | nil => rw [dropEntry, List.filter_nil, List.lookup_nil, ite_self]
  | cons entry entries ih =>
    obtain ⟨key, y⟩ := entry
    rw [dropEntry] at ih ⊢
    by_cases hkey : key = name
    · rw [List.filter_cons_of_neg (by simpa using hkey), ih, lookup_cons_ite, hkey]
      by_cases h : other = name
      · rw [if_pos h, if_pos h]
      · rw [if_neg h, if_neg h, if_neg h]
    · rw [List.filter_cons_of_pos (by simpa using hkey), lookup_cons_ite, lookup_cons_ite, ih]
      by_cases h : other = key
      · rw [if_pos h, if_pos h, if_neg fun heq => hkey (h.symm.trans heq)]
      · rw [if_neg h, if_neg h]

theorem lookup_concat (name other : String) (x : α) {entries : List (String × α)}
    (hfree : entries.lookup name = none) :
    (entries ++ [(name, x)]).lookup other
      = if other = name then some x else entries.lookup other := by
  rw [List.lookup_append, lookup_cons_ite, List.lookup_nil]
  by_cases h : other = name
  · rw [if_pos h, h, hfree, if_pos rfl, Option.none_or]
  · rw [if_neg h, if_neg h, Option.or_none]

theorem mem_of_lookup {name : String} {x : α} {entries : List (String × α)}
    (h : entries.lookup name = some x) : (name, x) ∈ entries := by
  obtain ⟨before, after, heq, _⟩ := List.lookup_eq_some_iff.mp h
  rw [heq]
  exact List.mem_append_right _ List.mem_cons_self

/-- An edit that changes what stands under the names of `T` only, and adds entries under names of
    `N` only. -/
structure Confined (T N : String → Prop) (entries edited : List (String × α)) : Prop where
  lookup : ∀ name, ¬ T name → edited.lookup name = entries.lookup name
  entry : ∀ e ∈ edited, e ∈ entries ∨ N e.1

variable {T N : String → Prop}

theorem Confined.refl (T N : String → Prop) (entries : List (String × α)) :
    Confined T N entries entries :=
  ⟨fun _ _ => rfl, fun _ he => Or.inl he⟩

theorem Confined.insert {name : String} (hT : T name) (hN : N name) (x : α)
    (entries : List (String × α)) : Confined T N entries (insertKey name x entries) := by
  refine ⟨fun other hother => ?_, fun e he => ?_⟩
  · rw [lookup_insertKey, if_neg fun heq : other = name => hother (heq ▸ hT)]
  · rcases mem_insertKey he with rfl | hin
    · exact Or.inr hN
    · exact Or.inl hin

theorem Confined.drop {name : String} (hT : T name) (entries : List (String × α)) :
    Confined T N entries (dropEntry name entries) := by
  refine ⟨fun other hother => ?_, fun e he => Or.inl (List.mem_of_mem_filter he)⟩
  rw [lookup_dropEntry, if_neg fun heq : other = name => hother (heq ▸ hT)]

theorem Confined.concat {name : String} (hT : T name) (hN : N name) (x : α)
    {entries : List (String × α)} (hfree : entries.lookup name = none) :
    Confined T N entries (entries ++ [(name, x)]) := by
  refine ⟨fun other hother => ?_, fun e he => ?_⟩
  · rw [lookup_concat name other x hfree, if_neg fun heq : other = name => hother (heq ▸ hT)]
  · rcases List.mem_append.mp he with hin | hnew
    · exact Or.inl hin
    · rw [List.mem_singleton.mp hnew]
      exact Or.inr hN

theorem Confined.trans {first second third : List (String × α)} (h : Confined T N first second)
    (h' : Confined T N second third) : Confined T N first third := by
  refine ⟨fun name hname => (h'.lookup name hname).trans (h.lookup name hname), fun e he => ?_⟩
  rcases h'.entry e he with hin | hN
  · exact h.entry e hin
  · exact Or.inr hN

end Lookup

/-! ## Staging names -/

theorem matchesUuidShape_of_hex {shape cs : List Char} (h : matchesHexShape shape cs = true) :
    matchesUuidShape shape cs = true := by
  induction shape generalizing cs with
  | nil =>
    cases cs with
    | nil => rfl
    | cons c cs => cases h
  | cons p shape ih =>
    cases cs with
    | nil => cases h
    | cons c cs =>
      rw [matchesHexShape, Bool.and_eq_true] at h
      rw [matchesUuidShape, Bool.and_eq_true]
      refine ⟨?_, ih h.2⟩
      by_cases hx : p = 'x'
      · rw [if_pos hx] at h ⊢
        rw [isHexDigit, h.1, Bool.true_or]
      · rw [if_neg hx] at h ⊢
        exact h.1

theorem not_mem_of_hex {shape cs : List Char} {d : Char} (hd : d ∉ shape)
    (hhex : isLowerHex d = false) (h : matchesHexShape shape cs = true) : d ∉ cs := by
  induction shape generalizing cs with
  | nil =>
    cases cs with
    | nil => exact List.not_mem_nil
    | cons c cs => cases h
  | cons p shape ih =>
    cases cs with
    | nil => exact List.not_mem_nil
    | cons c cs =>
      rw [matchesHexShape, Bool.and_eq_true] at h
      rw [List.mem_cons, not_or] at hd ⊢
      refine ⟨fun heq => ?_, ih hd.2 h.2⟩
      by_cases hx : p = 'x'
      · rw [if_pos hx, ← heq, hhex] at h
        cases h.1
      · rw [if_neg hx, beq_iff_eq, ← heq] at h
        exact hd.1 h.1

theorem isHyphenatedUuid_text (uuid : Uuid) : isHyphenatedUuid uuid.text.toList = true :=
  matchesUuidShape_of_hex uuid.valid

theorem dot_not_mem_uuid (uuid : Uuid) : '.' ∉ uuid.text.toList :=
  not_mem_of_hex (by decide) (by decide) uuid.valid

/-- A text with fewer than two dots has no `.tmp.` in it. -/
theorem rsplitOnce_none {cs : List Char} (h : cs.count '.' < 2) :
    rsplitOnce ".tmp.".toList cs = none := by
  induction cs with
  | nil => rfl
  | cons c cs ih =>
    have htail : cs.count '.' ≤ (c :: cs).count '.' := List.count_le_count_cons
    rw [rsplitOnce, ih (by omega)]
    refine if_neg fun hprefix => ?_
    have hle := (List.isPrefixOf_iff_prefix.mp hprefix).sublist.count_le '.'
    have htwo : ".tmp.".toList.count '.' = 2 := by decide
    omega

theorem rsplitOnce_last (front : List Char) {back : List Char} (h : '.' ∉ back) :
    rsplitOnce ".tmp.".toList (front ++ (".tmp.".toList ++ back)) = some (front, back) := by
  induction front with
  | nil =>
    have hrest : rsplitOnce ".tmp.".toList ("tmp.".toList ++ back) = none := by
      refine rsplitOnce_none ?_
      rw [List.count_append, List.count_eq_zero.mpr h]
      decide
    show rsplitOnce ".tmp.".toList ('.' :: ("tmp.".toList ++ back)) = some ([], back)
    rw [rsplitOnce, hrest]
    exact if_pos (List.isPrefixOf_iff_prefix.mpr ⟨back, rfl⟩)
  | cons c front ih => rw [List.cons_append, rsplitOnce, ih]

theorem isWriteStagingName_dir (uuid : Uuid) :
    isWriteStagingName (uniqueStagingDirName uuid) = true := by
  have hlist : (uniqueStagingDirName uuid).toList = ".tmp-".toList ++ uuid.text.toList :=
    String.toList_append
  rw [isWriteStagingName, hlist, if_pos (List.isPrefixOf_iff_prefix.mpr ⟨_, rfl⟩),
    show 5 = ".tmp-".toList.length from rfl, List.drop_left]
  exact isHyphenatedUuid_text uuid

theorem isWriteStagingName_active (uuid : Uuid) :
    isWriteStagingName (uniqueWriteStagingName activeFile uuid.text) = true := by
  have hlist : (uniqueWriteStagingName activeFile uuid.text).toList
      = ".active".toList ++ (".tmp.".toList ++ uuid.text.toList) := by
    simp [uniqueWriteStagingName, activeFile, String.toList_append]
  rw [isWriteStagingName, hlist, rsplitOnce_last _ (dot_not_mem_uuid uuid)]
  rw [if_neg (fun h => by cases h)]
  simp only [isHyphenatedUuid_text, Bool.and_true]
  decide

theorem crockford_ne_dot {c : Char} (h : isCrockfordChar c = true) : c ≠ '.' := by
  rintro rfl
  cases h

theorem dot_not_mem_kid (kid : Kid) : '.' ∉ kid.text.toList := by
  have hvalid := kid.valid
  rw [isKidText, Bool.and_eq_true, List.all_eq_true] at hvalid
  intro hmem
  exact crockford_ne_dot (hvalid.2 '.' hmem) rfl

theorem isWriteStagingName_kid (kid : Kid) : isWriteStagingName kid.text = false := by
  have hdot := dot_not_mem_kid kid
  rw [isWriteStagingName, rsplitOnce_none (by rw [List.count_eq_zero.mpr hdot]; decide)]
  refine if_neg fun hprefix => hdot ?_
  exact (List.isPrefixOf_iff_prefix.mp hprefix).subset (by decide)

theorem kid_ne_active (kid : Kid) : kid.text ≠ activeFile := by
  intro h
  have hvalid := kid.valid
  rw [h] at hvalid
  cases hvalid

/-! ## Complete keys -/

section Keys

variable {member : MemberHandle} {dir edited : MemberDirectory} {kid : Kid}

/-- Both documents of a key, as they are read back. -/
structure CompleteKey (member : MemberHandle) (dir : MemberDirectory) (kid : Kid)
    (entries : KeyDirectory) (privateKey : PrivateKey) (publicKey : PublicKey) : Prop where
  stands : dir.lookup kid.text = some (.directory entries)
  safe : ensureKeyDirectorySafe entries = .ok ()
  privateHalf : loadPrivateKeyAt member kid entries = .ok privateKey
  publicHalf : loadOptionalPublicKeyAt member kid entries = .ok (some publicKey)

def HoldsKey (member : MemberHandle) (dir : MemberDirectory) (kid : Kid) : Prop :=
  ∃ entries privateKey publicKey, CompleteKey member dir kid entries privateKey publicKey

theorem identity_of_ensure {subjectHandle statedKid path : String}
    (h : ensureDocumentStatesStoredIdentity subjectHandle statedKid member kid path = .ok ()) :
    subjectHandle = member.text ∧ statedKid = kid.text := by
  rw [ensureDocumentStatesStoredIdentity] at h
  by_cases hsame : subjectHandle = member.text ∧ statedKid = kid.text
  · exact hsame
  · rw [if_neg hsame] at h
    cases h

/-- The private half states the member and the kid. -/
theorem CompleteKey.privateStates {entries : KeyDirectory} {privateKey : PrivateKey}
    {publicKey : PublicKey} (h : CompleteKey member dir kid entries privateKey publicKey) :
    privateKey.protect.subjectHandle = member.text ∧ privateKey.protect.kid = kid.text := by
  have hload := h.privateHalf
  simp only [loadPrivateKeyAt] at hload
  obtain ⟨file, _, hload⟩ := bind_eq_ok.mp hload
  obtain ⟨_, _, hload⟩ := bind_eq_ok.mp hload
  obtain ⟨bytes, _, hload⟩ := bind_eq_ok.mp hload
  obtain ⟨content, _, hload⟩ := bind_eq_ok.mp hload
  obtain ⟨document, _, hload⟩ := bind_eq_ok.mp hload
  obtain ⟨_, hstates, hload⟩ := bind_eq_ok.mp hload
  obtain rfl := Except.ok.inj hload
  exact identity_of_ensure hstates

/-- The public half states the member and the kid. -/
theorem CompleteKey.publicStates {entries : KeyDirectory} {privateKey : PrivateKey}
    {publicKey : PublicKey} (h : CompleteKey member dir kid entries privateKey publicKey) :
    publicKey.protect.subjectHandle = member.text ∧ publicKey.protect.kid = kid.text := by
  have hload := h.publicHalf
  rw [loadOptionalPublicKeyAt] at hload
  cases hlook : entries.lookup publicKeyFile with
  | none =>
    rw [hlook] at hload
    cases hload
  | some entry =>
    rw [hlook] at hload
    dsimp only at hload
    obtain ⟨file, _, hload⟩ := bind_eq_ok.mp hload
    obtain ⟨bytes, _, hload⟩ := bind_eq_ok.mp hload
    obtain ⟨content, _, hload⟩ := bind_eq_ok.mp hload
    obtain ⟨document, _, hload⟩ := bind_eq_ok.mp hload
    obtain ⟨_, hstates, hload⟩ := bind_eq_ok.mp hload
    obtain rfl := Option.some.inj (Except.ok.inj hload)
    exact identity_of_ensure hstates

/-- A key is read from what stands under its kid. -/
theorem HoldsKey.congr (h : HoldsKey member dir kid)
    (hlook : edited.lookup kid.text = dir.lookup kid.text) : HoldsKey member edited kid := by
  obtain ⟨entries, privateKey, publicKey, hkey⟩ := h
  exact ⟨entries, privateKey, publicKey, hlook.trans hkey.stands, hkey.safe, hkey.privateHalf,
    hkey.publicHalf⟩

/-- The marker is read from its file. -/
theorem loadActiveKid_congr (hlook : edited.lookup activeFile = dir.lookup activeFile) :
    loadActiveKid member edited = loadActiveKid member dir := by
  rw [loadActiveKid, loadActiveKid, loadActiveText, loadActiveText, hlook]

/-! ## The invariant -/

/-- Every entry is safe, and the marker, if it names a key, names a complete one. -/
structure Intact (member : MemberHandle) (dir : MemberDirectory) : Prop where
  safe : ∀ e ∈ dir, ensureKeystoreEntrySafe .member e.1 e.2.childType = .ok ()
  marker : loadActiveKid member dir = .ok none
    ∨ ∃ kid, loadActiveKid member dir = .ok (some kid) ∧ HoldsKey member dir kid

/-- A member without a directory has no marker. -/
def InOrder (member : MemberHandle) (s : Keystore) : Prop :=
  ∀ dir, s = some dir → Intact member dir

theorem ensureSafe_of_staging {level : KeystoreLevel} {name : String} {childType : ChildType}
    (h : isWriteStagingName name = true) :
    ensureKeystoreEntrySafe level name childType = .ok () :=
  if_pos h

theorem activeFile_not_staging : ¬ isWriteStagingName activeFile = true := by decide

theorem kid_not_staging (kid : Kid) : ¬ isWriteStagingName kid.text = true := by
  rw [isWriteStagingName_kid]
  exact Bool.false_ne_true

/-- **EDITS AWAY FROM THE MARKER AND ITS KEY** keep the invariant, if what they add is safe. -/
theorem Intact.edit {T N : String → Prop} (h : Intact member dir) (hedit : Confined T N dir edited)
    (hactive : ¬ T activeFile)
    (hkid : ∀ kid, loadActiveKid member dir = .ok (some kid) → ¬ T kid.text)
    (hsafe : ∀ e ∈ edited, N e.1 → ensureKeystoreEntrySafe .member e.1 e.2.childType = .ok ()) :
    Intact member edited := by
  have hload : loadActiveKid member edited = loadActiveKid member dir :=
    loadActiveKid_congr (hedit.lookup activeFile hactive)
  refine ⟨fun e he => ?_, ?_⟩
  · rcases hedit.entry e he with hin | hN
    · exact h.safe e hin
    · exact hsafe e he hN
  · rcases h.marker with hnone | ⟨kid, hsome, hholds⟩
    · exact Or.inl (hload.trans hnone)
    · exact Or.inr ⟨kid, hload.trans hsome, hholds.congr (hedit.lookup _ (hkid kid hsome))⟩

end Keys

/-! ## Guarded calls -/

section Guarded

variable {α : Type} {Inv : Keystore → Prop} {d : DirectoryCalls α} {T N : String → Prop}

/-- Edits that stay within `T` and `N` keep an invariant. -/
def Guarded (Inv : Keystore → Prop) (d : DirectoryCalls α) (T N : String → Prop) : Prop :=
  ∀ f s t, Inv s → d.edit f s = .ok t →
    (∀ entries edited, f entries = .ok edited → Confined T N entries edited) → Inv t

theorem keeps_touch (Inv : Keystore → Prop) : Keeps Inv touch :=
  Keeps.change fun _ _ hs ht => Except.ok.inj ht ▸ hs

/-- A call that leaves the member directory as it is. -/
theorem safe_touch {Q : Except Error Unit → Keystore → Prop} {s : Keystore} (h : Inv s)
    (hq : ∀ r, Q r s) : Safe Inv Q touch s :=
  Safe.change h (fun e => hq (.error e)) fun _ ht => Except.ok.inj ht ▸ ⟨h, hq (.ok ())⟩

theorem keeps_ensure (Inv : Keystore → Prop) (r : Except Error Unit) : Keeps Inv (ensure r) :=
  Keeps.done Inv r

theorem keeps_ignoring {p : Change Unit} (hp : Keeps Inv p) : Keeps Inv (ignoring p) :=
  Keeps.handle hp fun _ => Keeps.done Inv _

/-- A sync whose failure is reported as another error. -/
theorem safe_mapError_touch {Q : Except Error Unit → Keystore → Prop} {s : Keystore}
    (f : Error → Error) (h : Inv s) (hq : ∀ r, Q r s) : Safe Inv Q (mapError f touch) s :=
  Safe.handle (safe_touch h fun r => hq (r.mapError f)) fun _ _ ht hr => ⟨ht, hr⟩

theorem keeps_mapError (f : Error → Error) {p : Change Unit} (hp : Keeps Inv p) :
    Keeps Inv (mapError f p) :=
  Keeps.handle hp fun _ => Keeps.done Inv _

/-- Clean up after a failure. -/
theorem keeps_recover {p cleanup : Change Unit} (hp : Keeps Inv p) (hcleanup : Keeps Inv cleanup) :
    Keeps Inv (p.handle fun
      | .ok () => pure ()
      | .error e => do
        ignoring cleanup
        done (.error e)) := by
  refine Keeps.handle hp fun r => ?_
  cases r with
  | ok _ => exact Keeps.done Inv _
  | error e => exact Keeps.bind (keeps_ignoring hcleanup) fun _ => Keeps.done Inv _

theorem keeps_edit (hd : Guarded Inv d T N)
    {f : List (String × α) → Except Error (List (String × α))}
    (hf : ∀ entries edited, f entries = .ok edited → Confined T N entries edited) :
    Keeps Inv (change (d.edit f)) :=
  Keeps.change fun s t hs ht => hd f s t hs ht hf

theorem creating_ok {name what : String} {entry : α} {entries edited : List (String × α)}
    (h : d.creating name entry what entries = .ok edited) :
    entries.lookup name = none ∧ edited = entries ++ [(name, entry)] := by
  rw [creating] at h
  by_cases hfree : (entries.lookup name).isSome
  · rw [if_pos hfree] at h
    cases h
  · rw [if_neg hfree] at h
    exact ⟨Option.not_isSome_iff_eq_none.mp hfree, (Except.ok.inj h).symm⟩

theorem renamingOver_ok {source destination : String} {entries edited : List (String × α)}
    (h : d.renamingOver source destination entries = .ok edited) :
    ∃ entry, entries.lookup source = some entry
      ∧ edited = insertKey destination entry (dropEntry source entries) := by
  rw [renamingOver] at h
  cases hlook : entries.lookup source with
  | none =>
    rw [hlook] at h
    cases h
  | some entry =>
    rw [hlook] at h
    dsimp only at h
    by_cases hdir : (entries.lookup destination).map d.kind = some ChildType.directory
    · rw [if_pos hdir] at h
      cases h
    · rw [if_neg hdir] at h
      exact ⟨entry, rfl, (Except.ok.inj h).symm⟩

theorem renamingNoreplace_ok {source destination : String} {entries edited : List (String × α)}
    (h : d.renamingNoreplace source destination entries = .ok edited) :
    ∃ entry, entries.lookup source = some entry ∧ entries.lookup destination = none
      ∧ edited = dropEntry source entries ++ [(destination, entry)] := by
  rw [renamingNoreplace] at h
  cases hlook : entries.lookup source with
  | none =>
    rw [hlook] at h
    cases h
  | some entry =>
    rw [hlook] at h
    dsimp only at h
    by_cases hfree : (entries.lookup destination).isSome
    · rw [if_pos hfree] at h
      cases h
    · rw [if_neg hfree] at h
      exact ⟨entry, rfl, Option.not_isSome_iff_eq_none.mp hfree, (Except.ok.inj h).symm⟩

theorem dropEntry_of_free {name : String} {entries : List (String × α)}
    (h : entries.lookup name = none) : dropEntry name entries = entries := by
  refine List.filter_eq_self.mpr fun e he => ?_
  rw [decide_eq_true_eq]
  intro hname
  have hne := List.lookup_eq_none_iff.mp h e he
  rw [hname, bne_self_eq_false] at hne
  cases hne

/-- After it the name is free, whether it stood there or not. -/
theorem unlinking_ok {name what : String} {removable : α → Bool}
    {entries edited : List (String × α)}
    (h : d.unlinking name removable what entries = .ok edited) :
    edited = dropEntry name entries := by
  rw [unlinking] at h
  cases hlook : entries.lookup name with
  | none =>
    rw [hlook] at h
    rw [dropEntry_of_free hlook]
    exact (Except.ok.inj h).symm
  | some entry =>
    rw [hlook] at h
    dsimp only at h
    by_cases hremovable : removable entry = true
    · rw [if_pos hremovable] at h
      exact (Except.ok.inj h).symm
    · rw [if_neg hremovable] at h
      cases h

/-- The name a rename frees does not hide the one it takes. -/
theorem lookup_dropEntry_free {source destination : String} {entries : List (String × α)}
    (h : entries.lookup destination = none) :
    (dropEntry source entries).lookup destination = none := by
  rw [lookup_dropEntry, h, ite_self]

theorem keeps_createEntry (hd : Guarded Inv d T N) {name : String} (hT : T name) (hN : N name)
    (entry : α) (what : String) : Keeps Inv (d.createEntry name entry what) := by
  refine keeps_edit hd fun entries edited h => ?_
  obtain ⟨hfree, rfl⟩ := creating_ok h
  exact Confined.concat hT hN entry hfree

theorem keeps_writeEntry (hd : Guarded Inv d T N) {name : String} (hT : T name) (hN : N name)
    (bytes : Bytes) : Keeps Inv (d.writeEntry name bytes) := by
  refine keeps_edit hd fun entries edited h => ?_
  obtain rfl := Except.ok.inj h
  exact Confined.insert hT hN _ entries

theorem keeps_renameEntry (hd : Guarded Inv d T N) {source destination : String}
    (hsource : T source) (hT : T destination) (hN : N destination) :
    Keeps Inv (d.renameEntry source destination) := by
  refine keeps_edit hd fun entries edited h => ?_
  obtain ⟨entry, _, rfl⟩ := renamingOver_ok h
  exact (Confined.drop hsource entries).trans (Confined.insert hT hN entry _)

theorem keeps_renameNoreplace (hd : Guarded Inv d T N) {source destination : String}
    (hsource : T source) (hT : T destination) (hN : N destination) :
    Keeps Inv (d.renameNoreplace source destination) := by
  refine keeps_edit hd fun entries edited h => ?_
  obtain ⟨entry, _, hfree, rfl⟩ := renamingNoreplace_ok h
  exact (Confined.drop hsource entries).trans
    (Confined.concat hT hN entry (lookup_dropEntry_free hfree))

theorem keeps_unlinkEntry (hd : Guarded Inv d T N) {name : String} (hT : T name)
    (removable : α → Bool) (what : String) : Keeps Inv (d.unlinkEntry name removable what) := by
  refine keeps_edit hd fun entries edited h => ?_
  rw [unlinking_ok h]
  exact Confined.drop hT entries

theorem keeps_removeIfExistsAt (hd : Guarded Inv d T N) {name : String} (hT : T name)
    (removable : α → Bool) (what : String) :
    Keeps Inv (d.removeIfExistsAt name removable what) := by
  refine Keeps.look fun s => Keeps.bind (keeps_unlinkEntry hd hT removable what) fun _ => ?_
  by_cases hstands : ((d.view s).lookup name).isSome
  · rw [if_pos hstands]
    exact keeps_touch Inv
  · rw [if_neg hstands]
    exact Keeps.done Inv _

theorem keeps_saveStagedFile (hd : Guarded Inv d T N) {tempName : String} (hT : T tempName)
    (hN : N tempName) (data : Bytes) : Keeps Inv (d.saveStagedFile tempName data) := by
  refine Keeps.bind (keeps_createEntry hd hT hN _ _) fun _ => ?_
  refine keeps_recover ?_ (keeps_unlinkEntry hd hT _ _)
  refine Keeps.bind (keeps_touch Inv) fun _ => ?_
  exact Keeps.bind (keeps_writeEntry hd hT hN data) fun _ => keeps_touch Inv

/-- A file written atomically within guarded names. -/
theorem keeps_saveTextRestrictedAt (hd : Guarded Inv d T N) {name : String} {uuid : Uuid}
    (hT : T name) (hN : N name) (hTtemp : T (uniqueWriteStagingName name uuid.text))
    (hNtemp : N (uniqueWriteStagingName name uuid.text)) (data : Bytes) :
    Keeps Inv (d.saveTextRestrictedAt name data uuid) := by
  refine Keeps.bind (keeps_ensure Inv _) fun _ => ?_
  refine Keeps.bind (keeps_saveStagedFile hd hTtemp hNtemp data) fun _ => ?_
  refine Keeps.bind ?_ fun _ => keeps_mapError _ (keeps_touch Inv)
  exact keeps_recover (keeps_renameEntry hd hTtemp hT hN) (keeps_unlinkEntry hd hTtemp _ _)

end Guarded

end KeystoreMarker
