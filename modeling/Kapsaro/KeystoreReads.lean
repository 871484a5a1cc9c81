import Kapsaro.KeyProtection
import Kapsaro.MemberStore
import Kapsaro.TextScan
import Kapsaro.TrustTransaction

/-!
# Keystore reads — the key pairs of one member, and the one that is active

`io/keystore/access.rs`, `access/inspection.rs`, `access/key_pair.rs` and `access/active.rs`: what
is read of a member directory.  A key is a directory named by its kid that holds the two key
documents; `active` is a file that names one of the keys.

* **`MemberDirectory`**, **`KeyDirectory`** — the entries, in the order a listing gives them.
* **`ensureKeystoreEntrySafe`**, **`listKids`** — which entries are refused, and which are keys.
* **`loadActiveKid`** — the active marker.
* **`inspectStoredKeyPair`** — what the keystore holds under a kid.
* **`collectSelectableKeys`**, **`selectPreferredKid`** — the keys on offer, and the newest of them.
-/

namespace KeystoreReads

open JsonText Limits TextLines WireTexts WireModel KeyProtection TextScan TrustStore TrustDocument
open TrustTransaction MemberStore

/-! ## Entries -/

/-- A regular file; `ownerOnly` says that its mode and owner keep others out. -/
structure StoredFile where
  bytes : Bytes
  ownerOnly : Bool
deriving DecidableEq, Repr

inductive ChildType where
  | regularFile
  | directory
  | symlink
  | other
deriving DecidableEq, Repr

/-- The type, as errors show it. -/
def ChildType.shown : ChildType → String
  | .regularFile => "RegularFile"
  | .directory => "Directory"
  | .symlink => "Symlink"
  | .other => "Other"

/-- An entry of a key directory; of a directory in it only the names matter. -/
inductive KeyEntry where
  | file (file : StoredFile)
  | directory (names : List String)
  | symlink
  | other
deriving DecidableEq, Repr

def KeyEntry.childType : KeyEntry → ChildType
  | .file _ => .regularFile
  | .directory _ => .directory
  | .symlink => .symlink
  | .other => .other

/-- A key directory, in listing order. -/
abbrev KeyDirectory := List (String × KeyEntry)

/-- An entry of a member directory. -/
inductive MemberEntry where
  | file (file : StoredFile)
  | directory (entries : KeyDirectory)
  | symlink
  | other
deriving DecidableEq, Repr

def MemberEntry.childType : MemberEntry → ChildType
  | .file _ => .regularFile
  | .directory _ => .directory
  | .symlink => .symlink
  | .other => .other

/-- The keystore directory of one member, in listing order. -/
abbrev MemberDirectory := List (String × MemberEntry)

def activeFile : String := "active"

def privateKeyFile : String := "private.json"

def publicKeyFile : String := "public.json"

/-- Where an entry of the member directory is, as it is shown. -/
def memberEntryPath (member : MemberHandle) (name : String) : String :=
  s!"keys/{member.text}/{name}"

/-- Where an entry of a key directory is, as it is shown. -/
def keyEntryPath (member : MemberHandle) (kid : Kid) (name : String) : String :=
  s!"keys/{member.text}/{kid.text}/{name}"

/-! ## Names of unfinished writes -/

/-- A hexadecimal digit in either case. -/
def isHexDigit (c : Char) : Bool :=
  isLowerHex c || decide ('A'.toNat ≤ c.toNat ∧ c.toNat ≤ 'F'.toNat)

/-- Characters against a shape in which every `x` stands for a hexadecimal digit. -/
def matchesUuidShape : List Char → List Char → Bool
  | [], [] => true
  | p :: shape, c :: cs => (if p = 'x' then isHexDigit c else c == p) && matchesUuidShape shape cs
  | _, _ => false

def isHyphenatedUuid (value : List Char) : Bool :=
  matchesUuidShape "xxxxxxxx-xxxx-xxxx-xxxx-xxxxxxxxxxxx".toList value

/-- Split at the last occurrence of a separator. -/
def rsplitOnce (separator : List Char) : List Char → Option (List Char × List Char)
  | [] => none
  | c :: cs =>
    match rsplitOnce separator cs with
    | some (front, back) => some (c :: front, back)
    | none =>
      if separator.isPrefixOf (c :: cs) then some ([], (c :: cs).drop separator.length) else none

/-- The name has the shape of an entry staged by an unfinished write. -/
def isWriteStagingName (name : String) : Bool :=
  if ".tmp-".toList.isPrefixOf name.toList then isHyphenatedUuid (name.toList.drop 5)
  else
    match rsplitOnce ".tmp.".toList name.toList with
    | none => false
    | some (front, back) => decide (1 < front.length) && front.head? == some '.'
        && isHyphenatedUuid back

/-! ## Safe entries -/

/-- The levels of the keystore below its root. -/
inductive KeystoreLevel where
  | member
  | key
deriving DecidableEq, Repr

/-- The entry type the keystore stores under a name, if it stores one there. -/
def KeystoreLevel.storedType : KeystoreLevel → String → Option ChildType
  | .member, name =>
    if name = activeFile then some .regularFile
    else if isKidText name then some .directory
    else none
  | .key, name =>
    if name = privateKeyFile ∨ name = publicKeyFile then some .regularFile else none

def unsafeEntry (name : String) (childType : ChildType) : Error :=
  .invalidOperation s!"unsafe {childType.shown} entry in keystore: {name}"

def shadowingEntry (name : String) (childType : ChildType) : Error :=
  .invalidOperation s!"{childType.shown} entry shadowing a name the keystore stores: {name}"

/-- The check of one entry before it is used; what an unfinished write left is passed over. -/
def ensureKeystoreEntrySafe (level : KeystoreLevel) (name : String) (childType : ChildType) :
    Except Error Unit :=
  if isWriteStagingName name then .ok ()
  else
    match level.storedType name with
    | some stored =>
      if stored ≠ childType then .error (shadowingEntry name childType)
      else if childType = .other then .error (unsafeEntry name childType)
      else .ok ()
    | none => if childType = .other then .error (unsafeEntry name childType) else .ok ()

/-- The names of the directories of a member directory. -/
def listKeystoreChildDirectories : MemberDirectory → Except Error (List String)
  | [] => .ok []
  | (name, entry) :: rest =>
    if isWriteStagingName name then listKeystoreChildDirectories rest
    else do
      ensureKeystoreEntrySafe .member name entry.childType
      let names ← listKeystoreChildDirectories rest
      pure (if entry.childType = .directory then name :: names else names)

def ensureMemberNamespaceSafe (dir : MemberDirectory) : Except Error Unit :=
  (listKeystoreChildDirectories dir).map fun _ => ()

/-- The kid a text is the canonical form of. -/
def kidOfText? (text : String) : Option Kid :=
  if h : isKidText text = true then some ⟨text, h⟩ else none

/-- A stored kid must be canonical. -/
def kidFromCanonical (value : String) : Except Error Kid :=
  match kidOfText? value with
  | some kid => .ok kid
  | none => .error (.invalidArgument
      "kid must be canonical: exactly 32 uppercase Crockford Base32 characters")

def listKidsInVerifiedNamespace (dir : MemberDirectory) : Except Error (List Kid) :=
  (listKeystoreChildDirectories dir).map fun names => names.filterMap kidOfText?

/-- Every entry of a key directory is safe. -/
def ensureKeyDirectorySafe : KeyDirectory → Except Error Unit
  | [] => .ok ()
  | (name, entry) :: rest => do
    ensureKeystoreEntrySafe .key name entry.childType
    ensureKeyDirectorySafe rest

/-! ## Single entries -/

def nonRegularFileError (path : String) : Error :=
  .invalidOperation s!"refusing to access non-regular file: {path}"

/-- Whether the marker file is there; an entry of another type is refused. -/
def activeFileExists (member : MemberHandle) (dir : MemberDirectory) : Except Error Bool :=
  match dir.lookup activeFile with
  | none => .ok false
  | some (.file _) => .ok true
  | some _ => .error (nonRegularFileError (memberEntryPath member activeFile))

/-- The directory under a kid. -/
def openOptionalKeyDir (member : MemberHandle) (dir : MemberDirectory) (kid : Kid) :
    Except Error (Option KeyDirectory) :=
  match dir.lookup kid.text with
  | none => .ok none
  | some (.directory entries) => .ok (some entries)
  | some _ => .error (.invalidOperation
      s!"refusing to open a non-directory: {memberEntryPath member kid.text}")

/-- The regular file under a name of a key directory. -/
def openRegularFileAt (path : String) (entries : KeyDirectory) (name : String) :
    Except Error StoredFile :=
  match entries.lookup name with
  | none => .error (.notFound s!"File not found: {path}")
  | some (.file file) => .ok file
  | some _ => .error (nonRegularFileError path)

/-- Whether a regular file stands under a name of a key directory. -/
def regularFileExistsAt (path : String) (entries : KeyDirectory) (name : String) :
    Except Error Bool :=
  match entries.lookup name with
  | none => .ok false
  | some (.file _) => .ok true
  | some _ => .error (nonRegularFileError path)

/-! ## The active marker -/

def maxActiveKidFileSize : Nat := 256

/-- The text of the marker file without the white space around it. -/
def loadActiveText (member : MemberHandle) (dir : MemberDirectory) :
    Except Error (Option String) := do
  match dir.lookup activeFile with
  | none => pure none
  | some (.file file) =>
    let path := memberEntryPath member activeFile
    let bytes ← loadCappedBytes maxActiveKidFileSize "active key file" path file.bytes
    let content ← decodeLoadedText path bytes
    pure (some (String.ofList (trim content.toList)))
  | some _ => throw (nonRegularFileError (memberEntryPath member activeFile))

/-- The kid the marker names; no marker, or an empty one, names none. -/
def loadActiveKid (member : MemberHandle) (dir : MemberDirectory) : Except Error (Option Kid) := do
  match ← loadActiveText member dir with
  | none => pure none
  | some value => if value = "" then pure none else (kidFromCanonical value).map some

/-! ## Key documents -/

/-- A document states the member and the key it is stored under. -/
def ensureDocumentStatesStoredIdentity (subjectHandle statedKid : String) (member : MemberHandle)
    (kid : Kid) (path : String) : Except Error Unit :=
  if subjectHandle = member.text ∧ statedKid = kid.text then .ok ()
  else .error (.invalidOperation
    (s!"key document stating member '{subjectHandle}' key '{statedKid}' stored as member " ++
      s!"'{member.text}' key '{kid.text}': {path}"))

def ensureOpenPrivateKeyIsOwnerOnly (path : String) (file : StoredFile) : Except Error Unit :=
  if file.ownerOnly then .ok ()
  else .error (.invalidOperation
    s!"Refusing to read a private key that is not owner-only: {path}")

/-- Read the private half; one that others can reach is refused. -/
def loadPrivateKeyAt (member : MemberHandle) (kid : Kid) (entries : KeyDirectory) :
    Except Error PrivateKey := do
  let path := keyEntryPath member kid privateKeyFile
  let file ← openRegularFileAt path entries privateKeyFile
  ensureOpenPrivateKeyIsOwnerOnly path file
  let bytes ← loadCappedBytes maxJsonDocumentReadSize "PrivateKey file" path file.bytes
  let content ← decodeLoadedText path bytes
  let privateKey ← parsePrivateKeyStr content path
  ensureDocumentStatesStoredIdentity privateKey.protect.subjectHandle privateKey.protect.kid member
    kid path
  pure privateKey

/-- Read the public half, if there is one. -/
def loadOptionalPublicKeyAt (member : MemberHandle) (kid : Kid) (entries : KeyDirectory) :
    Except Error (Option PublicKey) :=
  let path := keyEntryPath member kid publicKeyFile
  match entries.lookup publicKeyFile with
  | none => .ok none
  | some _ => do
    let file ← openRegularFileAt path entries publicKeyFile
    let bytes ← loadCappedBytes maxJsonDocumentReadSize "PublicKey file" path file.bytes
    let content ← decodeLoadedText path bytes
    let publicKey ← parsePublicKeyStr content path
    ensureDocumentStatesStoredIdentity publicKey.protect.subjectHandle publicKey.protect.kid member
      kid path
    pure (some publicKey)

/-- How far an inspection goes into the private half. -/
inductive PrivateHalfCheck where
  | stored
  | readable
deriving DecidableEq, Repr

/-- Whether the private half is there; a readable one must read back as this member's key. -/
def inspectStoredPrivateHalf (member : MemberHandle) (kid : Kid) (entries : KeyDirectory)
    (check : PrivateHalfCheck) : Except Error Bool := do
  let standing ← regularFileExistsAt (keyEntryPath member kid privateKeyFile) entries privateKeyFile
  if standing then
    match check with
    | .stored => pure true
    | .readable =>
      let _ ← loadPrivateKeyAt member kid entries
      pure true
  else pure false

/-- What the keystore holds under one kid. -/
inductive KeyPairRecord where
  | noKeyDirectory
  | halfMissing
  | present (publicKey : PublicKey)
deriving DecidableEq

def inspectStoredKeyPair (member : MemberHandle) (dir : MemberDirectory) (kid : Kid)
    (check : PrivateHalfCheck) : Except Error KeyPairRecord := do
  match ← openOptionalKeyDir member dir kid with
  | none => pure .noKeyDirectory
  | some entries =>
    ensureKeyDirectorySafe entries
    if ← inspectStoredPrivateHalf member kid entries check then
      match ← loadOptionalPublicKeyAt member kid entries with
      | some publicKey => pure (.present publicKey)
      | none => pure .halfMissing
    else pure .halfMissing

/-! ## Selection -/

/-- What a walk over a member's keys is choosing a key for. -/
inductive KeySelection where
  | activation
  | resolution
deriving DecidableEq, Repr

def KeySelection.acceptsExpired (selection : KeySelection) : Bool :=
  selection = .resolution

def KeySelection.privateHalfCheck : KeySelection → PrivateHalfCheck
  | .activation => .readable
  | .resolution => .stored

/-- Whether one stored key may be made active, and what rules it out. -/
inductive KeyActivability where
  | activatable (createdAt : Option Int)
  | expired (createdAt : Option Int)
  | missing
  | halfMissing
  | unreadable (error : Error)
deriving DecidableEq

section Selection

variable (P : TextParsers)

/-- The creation time a key states; one that is there must be a time. -/
def parseCreatedAt (publicKey : PublicKey) : Except Error (Option Int) :=
  match publicKey.protect.createdAt with
  | none => .ok none
  | some value =>
    match P.rfc3339 value with
    | some time => .ok (some time)
    | none => .error (.parse s!"Invalid created_at format for key {publicKey.protect.kid}")

def parseExpiresAt (publicKey : PublicKey) : Except Error Int :=
  match P.rfc3339 publicKey.protect.expiresAt with
  | some time => .ok time
  | none => .error (.parse s!"Invalid expires_at format for key {publicKey.protect.kid}")

def loadKeyActivability (member : MemberHandle) (dir : MemberDirectory) (kid : Kid) (now : Int)
    (selection : KeySelection) : Except Error KeyActivability := do
  match ← inspectStoredKeyPair member dir kid selection.privateHalfCheck with
  | .noKeyDirectory => pure .missing
  | .halfMissing => pure .halfMissing
  | .present publicKey =>
    let expiresAt ← parseExpiresAt P publicKey
    let createdAt ← parseCreatedAt P publicKey
    pure (if expiresAt ≤ now then .expired createdAt else .activatable createdAt)

/-- A key that cannot be read carries its own failure. -/
def inspectKeyActivability (member : MemberHandle) (dir : MemberDirectory) (kid : Kid) (now : Int)
    (selection : KeySelection) : KeyActivability :=
  match loadKeyActivability P member dir kid now selection with
  | .ok activability => activability
  | .error e => .unreadable e

/-- The keys of a member a selection may choose from, and what ruled the rest out. -/
structure SelectableKeys where
  stored : Nat
  candidates : List (Kid × Option Int)
  halfMissing : List Kid
  unreadable : List Error

namespace SelectableKeys

/-- One more key, as it was judged. -/
def note (selection : KeySelection) (selectable : SelectableKeys) (kid : Kid)
    (activability : KeyActivability) : SelectableKeys :=
  let counted := { selectable with stored := selectable.stored + 1 }
  match activability with
  | .activatable createdAt =>
    { counted with candidates := selectable.candidates ++ [(kid, createdAt)] }
  | .expired createdAt =>
    if selection.acceptsExpired then
      { counted with candidates := selectable.candidates ++ [(kid, createdAt)] }
    else counted
  | .missing => counted
  | .halfMissing => { counted with halfMissing := selectable.halfMissing ++ [kid] }
  | .unreadable error => { counted with unreadable := selectable.unreadable ++ [error] }

end SelectableKeys

/-- Every key of a member, inspected once. -/
def collectSelectableKeys (member : MemberHandle) (dir : MemberDirectory) (now : Int)
    (selection : KeySelection) : Except Error SelectableKeys := do
  let kids ← listKidsInVerifiedNamespace dir
  pure (kids.foldl (fun selectable kid =>
    selectable.note selection kid (inspectKeyActivability P member dir kid now selection))
    ⟨0, [], [], []⟩)

end Selection

/-! ## The newest key -/

/-- No time comes before every time. -/
def compareTimes : Option Int → Option Int → Ordering
  | none, none => .eq
  | none, some _ => .lt
  | some _, none => .gt
  | some x, some y => compare x y

def compareTexts (a b : String) : Ordering :=
  if a < b then .lt else if a = b then .eq else .gt

/-- The later creation time first, none last; then the smaller kid. -/
def compareCandidates (a b : Kid × Option Int) : Ordering :=
  (compareTimes b.2 a.2).then (compareTexts a.1.text b.1.text)

/-- The candidate the sort puts first. -/
def selectPreferredKid (candidates : List (Kid × Option Int)) : Option Kid :=
  ((candidates.mergeSort fun a b => (compareCandidates a b).isLE).head?).map Prod.fst

/-- `a` is as good a choice as `b`: newer, with a creation time where `b` has none, or as new and
    with a kid that is not greater. -/
def Preferred (a b : Kid × Option Int) : Prop :=
  match a.2, b.2 with
  | some x, some y => y < x ∨ (x = y ∧ a.1.text ≤ b.1.text)
  | some _, none => True
  | none, some _ => False
  | none, none => a.1.text ≤ b.1.text

theorem isLE_compareTexts (a b : String) : (compareTexts a b).isLE = true ↔ a ≤ b := by
  rw [compareTexts]
  by_cases hlt : a < b
  · rw [if_pos hlt]
    exact ⟨fun _ => hlt.le, fun _ => rfl⟩
  · rw [if_neg hlt]
    by_cases heq : a = b
    · rw [if_pos heq]
      exact ⟨fun _ => heq.le, fun _ => rfl⟩
    · rw [if_neg heq]
      exact ⟨fun h => (by cases h), fun h => absurd (lt_of_le_of_ne h heq) hlt⟩

theorem isLE_compareCandidates (a b : Kid × Option Int) :
    (compareCandidates a b).isLE = true ↔ Preferred a b := by
  have htext := isLE_compareTexts a.1.text b.1.text
  obtain ⟨kid, time⟩ := a
  obtain ⟨other, time'⟩ := b
  cases time with
  | none =>
    cases time' with
    | none => exact htext
    | some y => exact ⟨fun h => (by cases h), fun h => h.elim⟩
  | some x =>
    cases time' with
    | none => exact ⟨fun _ => trivial, fun _ => rfl⟩
    | some y =>
      simp only [compareCandidates, compareTimes, Preferred]
      rcases Int.lt_trichotomy x y with hlt | heq | hgt
      · rw [Int.compare_eq_gt.mpr hlt]
        exact ⟨fun h => (by cases h), fun h => by omega⟩
      · rw [heq, Int.compare_eq_eq.mpr rfl]
        refine htext.trans ⟨fun h => Or.inr ⟨rfl, h⟩, fun h => ?_⟩
        rcases h with hlt | ⟨_, hle⟩
        · exact absurd hlt (Int.lt_irrefl y)
        · exact hle
      · rw [Int.compare_eq_lt.mpr hgt]
        exact ⟨fun _ => Or.inl hgt, fun _ => rfl⟩

theorem Preferred.trans {a b c : Kid × Option Int} (hab : Preferred a b) (hbc : Preferred b c) :
    Preferred a c := by
  obtain ⟨kidA, timeA⟩ := a
  obtain ⟨kidB, timeB⟩ := b
  obtain ⟨kidC, timeC⟩ := c
  cases timeA with
  | none =>
    cases timeB with
    | none =>
      cases timeC with
      | none => exact le_trans hab hbc
      | some z => exact hbc.elim
    | some y => exact hab.elim
  | some x =>
    cases timeC with
    | none => exact trivial
    | some z =>
      cases timeB with
      | none => exact hbc.elim
      | some y =>
        rcases hab with hxy | ⟨hxy, htext⟩
        · rcases hbc with hyz | ⟨hyz, _⟩
          · exact Or.inl (Int.lt_trans hyz hxy)
          · exact Or.inl (hyz ▸ hxy)
        · rcases hbc with hyz | ⟨hyz, htext'⟩
          · exact Or.inl (hxy ▸ hyz)
          · exact Or.inr ⟨hxy.trans hyz, le_trans htext htext'⟩

theorem Preferred.total (a b : Kid × Option Int) : Preferred a b ∨ Preferred b a := by
  obtain ⟨kidA, timeA⟩ := a
  obtain ⟨kidB, timeB⟩ := b
  cases timeA with
  | none =>
    cases timeB with
    | none => exact le_total kidA.text kidB.text
    | some y => exact Or.inr trivial
  | some x =>
    cases timeB with
    | none => exact Or.inl trivial
    | some y =>
      rcases Int.lt_trichotomy x y with hlt | heq | hgt
      · exact Or.inr (Or.inl hlt)
      · rcases le_total kidA.text kidB.text with htext | htext
        · exact Or.inl (Or.inr ⟨heq, htext⟩)
        · exact Or.inr (Or.inr ⟨heq.symm, htext⟩)
      · exact Or.inl (Or.inl hgt)

/-- **THE SELECTED KID IS THE BEST CANDIDATE**, and there is one whenever there are candidates. -/
theorem selectPreferredKid_spec (candidates : List (Kid × Option Int)) :
    match selectPreferredKid candidates with
    | none => candidates = []
    | some kid => ∃ time, (kid, time) ∈ candidates ∧ ∀ c ∈ candidates, Preferred (kid, time) c := by
  have hperm := List.mergeSort_perm candidates fun a b => (compareCandidates a b).isLE
  have hsorted : (candidates.mergeSort fun a b => (compareCandidates a b).isLE).Pairwise
      fun a b => (compareCandidates a b).isLE := by
    refine List.pairwise_mergeSort (fun a b c hab hbc => ?_) (fun a b => ?_) candidates
    · rw [isLE_compareCandidates] at hab hbc ⊢
      exact hab.trans hbc
    · rw [Bool.or_eq_true, isLE_compareCandidates, isLE_compareCandidates]
      exact Preferred.total a b
  rw [selectPreferredKid]
  generalize candidates.mergeSort (fun a b => (compareCandidates a b).isLE)
    = sorted at hperm hsorted
  cases sorted with
  | nil => exact hperm.symm.eq_nil
  | cons best rest =>
    refine ⟨best.2, hperm.subset List.mem_cons_self, fun c hc => ?_⟩
    rcases List.mem_cons.mp (hperm.symm.subset hc) with heq | hin
    · rw [heq]
      exact (Preferred.total best best).elim id id
    · exact (isLE_compareCandidates _ _).mp ((List.pairwise_cons.mp hsorted).1 c hin)

end KeystoreReads
