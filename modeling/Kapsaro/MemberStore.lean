import Kapsaro.TrustEvaluation
import Kapsaro.TrustTransaction
import Mathlib.Data.Finmap
import Mathlib.Data.Finset.Sort
import Mathlib.Data.String.Basic

/-!
# Member store — the documents under `members/`

The two status directories, how a member document is read out of one, and the check that no kid
is claimed twice: `io/workspace/members/paths.rs`, `store/load.rs`, `store/uniqueness.rs`.

* **`Members`** — `active/` and `incoming/`; a directory maps file names to bytes.
* **`loadVerifiedMemberFileAt`** — read, cap, decode, parse, and compare the file stem with the
  subject handle.
* **`enforceWorkspaceMemberKidUniqueness`** — the kids of all documents that are not ignored,
  then those of the candidates.
* **`IsDocument`**, **`WellNamed`**, **`Distinct`** — what the store is for: each file is the
  document of its own subject, and a kid stands at one place only.
* **`enforceUniqueness_iff`** — exactly when the check passes.

Both directories hold regular files only, and paths are shown as the workspace sees them.
-/

namespace MemberStore

open JsonText JsonMembers JsonRecords JsonLimits Limits TextLines Base64Codec WireTexts WireModel
open DocumentTokens SignedArtifacts TrustStore TrustDocument TrustTransaction TrustEvaluation

/-! ## Names and directories -/

/-- Status of a member in the workspace. -/
inductive MemberStatus where
  | active
  | incoming
deriving DecidableEq, Repr

def statusDirName : MemberStatus → String
  | .active => "active"
  | .incoming => "incoming"

def memberFileName (memberHandle : String) : String :=
  memberHandle ++ ".json"

/-- The name is spelled the way a member document is: `.json` after a stem. -/
def hasMemberDocumentExtension (name : String) : Bool :=
  ".json".toList.isSuffixOf name.toList && decide (5 < name.toList.length)

/-- The name without its extension. -/
def fileStem (name : String) : String :=
  String.ofList (name.toList.take (name.toList.length - 5))

/-- A directory of regular files. -/
abbrev Directory := Finmap fun _ : String => Bytes

/-- The directories under `members/`. -/
@[ext]
structure Members where
  active : Directory
  incoming : Directory

namespace Members

def dir (s : Members) : MemberStatus → Directory
  | .active => s.active
  | .incoming => s.incoming

/-- Change one of the directories. -/
def update (s : Members) (status : MemberStatus) (f : Directory → Directory) : Members :=
  match status with
  | .active => { s with active := f s.active }
  | .incoming => { s with incoming := f s.incoming }

/-- The bytes under a name. -/
def find (s : Members) (status : MemberStatus) (name : String) : Option Bytes :=
  (s.dir status).lookup name

/-- Write a file. -/
def put (s : Members) (status : MemberStatus) (name : String) (bytes : Bytes) : Members :=
  s.update status fun dir => dir.insert name bytes

/-- Unlink a file. -/
def unlink (s : Members) (status : MemberStatus) (name : String) : Members :=
  s.update status fun dir => dir.erase name

theorem dir_update (s : Members) (status other : MemberStatus) (f : Directory → Directory) :
    (s.update status f).dir other = if other = status then f (s.dir status) else s.dir other := by
  cases status <;> cases other <;> rfl

/-- A write is seen at its place and nowhere else. -/
theorem find_put (s : Members) (status other : MemberStatus) (name otherName : String)
    (bytes : Bytes) :
    (s.put status name bytes).find other otherName
      = if other = status ∧ otherName = name then some bytes else s.find other otherName := by
  rw [find, put, dir_update]
  by_cases hstatus : other = status
  · rw [if_pos hstatus]
    by_cases hname : otherName = name
    · rw [if_pos ⟨hstatus, hname⟩, hname, Finmap.lookup_insert]
    · rw [if_neg fun h => hname h.2, Finmap.lookup_insert_of_ne _ hname, find, hstatus]
  · rw [if_neg hstatus, if_neg fun h => hstatus h.1, find]

/-- An unlinked file is gone, and no other is. -/
theorem find_unlink (s : Members) (status other : MemberStatus) (name otherName : String) :
    (s.unlink status name).find other otherName
      = if other = status ∧ otherName = name then none else s.find other otherName := by
  rw [find, unlink, dir_update]
  by_cases hstatus : other = status
  · rw [if_pos hstatus]
    by_cases hname : otherName = name
    · rw [if_pos ⟨hstatus, hname⟩, hname, Finmap.lookup_erase]
    · rw [if_neg fun h => hname h.2, Finmap.lookup_erase_ne hname, find, hstatus]
  · rw [if_neg hstatus, if_neg fun h => hstatus h.1, find]

/-- A store is the files it holds. -/
theorem ext_find {s t : Members} (h : ∀ status name, s.find status name = t.find status name) :
    s = t := by
  refine Members.ext (Finmap.ext_lookup fun name => ?_) (Finmap.ext_lookup fun name => ?_)
  · exact h .active name
  · exact h .incoming name

end Members

/-! ### Stems -/

theorem json_length : ".json".toList.length = 5 := rfl

theorem toList_memberFileName (memberHandle : String) :
    (memberFileName memberHandle).toList = memberHandle.toList ++ ".json".toList :=
  String.toList_append

theorem fileStem_memberFileName (memberHandle : String) :
    fileStem (memberFileName memberHandle) = memberHandle := by
  rw [fileStem, toList_memberFileName, List.length_append, json_length, Nat.add_sub_cancel,
    List.take_left, String.ofList_toList]

theorem memberFileName_inj {a b : String} (h : memberFileName a = memberFileName b) : a = b := by
  rw [← fileStem_memberFileName a, h, fileStem_memberFileName]

/-- The file of a handle is spelled as a document, unless the handle is empty. -/
theorem hasExtension_memberFileName {memberHandle : String} (h : memberHandle ≠ "") :
    hasMemberDocumentExtension (memberFileName memberHandle) = true := by
  rw [hasMemberDocumentExtension, Bool.and_eq_true]
  refine ⟨List.isSuffixOf_iff_suffix.mpr ⟨memberHandle.toList, (toList_memberFileName _).symm⟩, ?_⟩
  have hpos : 0 < memberHandle.toList.length :=
    List.length_pos_iff.mpr fun hnil => h (String.toList_eq_nil_iff.mp hnil)
  rw [toList_memberFileName, List.length_append, json_length]
  exact decide_eq_true (by omega)

/-- A document's name is the file name of its stem. -/
theorem memberFileName_fileStem {name : String} (h : hasMemberDocumentExtension name = true) :
    memberFileName (fileStem name) = name := by
  rw [hasMemberDocumentExtension, Bool.and_eq_true] at h
  obtain ⟨stem, hstem⟩ := List.isSuffixOf_iff_suffix.mp h.1
  refine String.toList_inj.mp ?_
  rw [toList_memberFileName, fileStem, String.toList_ofList, ← hstem, List.length_append,
    json_length, Nat.add_sub_cancel, List.take_left]

/-! ## Reading member documents -/

def memberPath (status : MemberStatus) (name : String) : String :=
  s!"members/{statusDirName status}/{name}"

/-- One path component, without a backslash. -/
def checkedChildName (name : String) : Except Error Unit :=
  if name.toList.any (fun c => c == '\\' || c == '/' || c == '\x00')
      || name == "" || name == "." || name == ".." then
    .error (.invalidArgument
      s!"invalid relative file name '{name}': only a single path component is allowed")
  else .ok ()

def parsePublicKeyStr (content sourceName : String) : Except Error PublicKey :=
  parseJsonDocumentBytes PublicKey.schema PublicKey.fromJson sourceName "PublicKey" (utf8 content)

/-- A member document as one read of it saw the entry. -/
structure MemberDocumentLoadResult where
  content : String
  publicKey : PublicKey

def loadTextWithLimitAt (s : Members) (status : MemberStatus) (name : String) (maxBytes : Nat)
    (subject : String) : Except Error String := do
  checkedChildName name
  match s.find status name with
  | none => .error (.notFound s!"File not found: {memberPath status name}")
  | some bytes =>
    let bytes ← loadCappedBytes maxBytes subject (memberPath status name) bytes
    decodeLoadedText (memberPath status name) bytes

def loadMemberDocumentAt (s : Members) (status : MemberStatus) (name : String) :
    Except Error MemberDocumentLoadResult := do
  let content ← loadTextWithLimitAt s status name maxJsonDocumentReadSize "PublicKey file"
  let publicKey ← parsePublicKeyStr content (memberPath status name)
  pure ⟨content, publicKey⟩

/-- Require that a document's name is the subject handle it carries. -/
def ensureMemberDocumentStemMatches (name : String) (publicKey : PublicKey) : Except Error Unit :=
  if fileStem name ≠ publicKey.protect.subjectHandle then
    .error (.invalidArgument (s!"Member handle mismatch: file '{fileStem name}' contains " ++
      s!"'{publicKey.protect.subjectHandle}'"))
  else .ok ()

def loadVerifiedMemberDocumentAt (s : Members) (status : MemberStatus) (name : String) :
    Except Error MemberDocumentLoadResult := do
  let document ← loadMemberDocumentAt s status name
  ensureMemberDocumentStemMatches name document.publicKey
  pure document

def loadVerifiedMemberFileAt (s : Members) (status : MemberStatus) (name : String) :
    Except Error PublicKey :=
  (loadVerifiedMemberDocumentAt s status name).map MemberDocumentLoadResult.publicKey

/-- The member document names a directory holds, in name order. -/
def loadMemberDocumentNamesAt (dir : Directory) : List String :=
  (dir.keys.sort (· ≤ ·)).filter hasMemberDocumentExtension

/-! ## Uniqueness of kids -/

structure MemberKidCandidate where
  memberHandle : String
  kid : String
  status : MemberStatus
deriving DecidableEq, Repr

def isIgnoredExisting (ignoredExisting : List (MemberStatus × String)) (status : MemberStatus)
    (memberHandle : String) : Bool :=
  ignoredExisting.any fun ignored => ignored.1 == status && ignored.2 == memberHandle

def duplicateKidError (existing candidate : MemberKidCandidate) : Error :=
  .config none (s!"Duplicate kid '{formatKidDisplayLossy candidate.kid}' in workspace members: " ++
    s!"{statusDirName existing.status}/'{existing.memberHandle}' conflicts with " ++
    s!"{statusDirName candidate.status}/'{candidate.memberHandle}'")

/-- Note candidates one by one; `seen` holds at most one for each kid. -/
def noteKids (seen : List MemberKidCandidate) :
    List MemberKidCandidate → Except Error (List MemberKidCandidate)
  | [] => .ok seen
  | candidate :: rest =>
    match seen.find? fun other => other.kid == candidate.kid with
    | some previous => .error (duplicateKidError previous candidate)
    | none => noteKids (candidate :: seen) rest

def enforceMemberKidUniqueness (existing candidates : List MemberKidCandidate) :
    Except Error Unit := do
  let seen ← noteKids [] existing
  let _ ← noteKids seen candidates
  pure ()

def loadMemberKidCandidate (s : Members) (status : MemberStatus) (name : String) :
    Except Error MemberKidCandidate := do
  let member ← loadVerifiedMemberFileAt s status name
  pure ⟨fileStem name, member.protect.kid, status⟩

/-- The document names of a directory that are judged. -/
def judgedNames (s : Members) (ignoredExisting : List (MemberStatus × String))
    (status : MemberStatus) : List String :=
  (loadMemberDocumentNamesAt (s.dir status)).filter fun name =>
    !isIgnoredExisting ignoredExisting status (fileStem name)

def loadMemberKidCandidates (s : Members) (ignoredExisting : List (MemberStatus × String)) :
    Except Error (List MemberKidCandidate) := do
  let active ← (judgedNames s ignoredExisting .active).mapM (loadMemberKidCandidate s .active)
  let incoming ← (judgedNames s ignoredExisting .incoming).mapM
    (loadMemberKidCandidate s .incoming)
  pure (active ++ incoming)

def enforceWorkspaceMemberKidUniqueness (s : Members) (candidates : List MemberKidCandidate)
    (ignoredExisting : List (MemberStatus × String)) : Except Error Unit := do
  let existing ← loadMemberKidCandidates s ignoredExisting
  enforceMemberKidUniqueness existing candidates

/-! ## Documents -/

/-- The place of a file. -/
structure MemberPlace where
  status : MemberStatus
  name : String
deriving DecidableEq

namespace MemberPlace

/-- Where the document of a member is kept. -/
def ofHandle (status : MemberStatus) (memberHandle : String) : MemberPlace :=
  ⟨status, memberFileName memberHandle⟩

def stem (p : MemberPlace) : String :=
  fileStem p.name

theorem stem_ofHandle (status : MemberStatus) (memberHandle : String) :
    (ofHandle status memberHandle).stem = memberHandle :=
  fileStem_memberFileName memberHandle

end MemberPlace

/-- The key statement that bytes spell. -/
def readDocument (bytes : Bytes) : Option PublicKey :=
  (utf8Decode bytes).bind fun content => (parsePublicKeyStr content "").toOption

/-- A file that is spelled as a member document and holds this key statement. -/
def IsDocument (s : Members) (p : MemberPlace) (key : PublicKey) : Prop :=
  hasMemberDocumentExtension p.name = true
    ∧ ∃ bytes, s.find p.status p.name = some bytes ∧ readDocument bytes = some key

/-- Every document is a key statement of its own stem. -/
def WellNamed (s : Members) : Prop :=
  ∀ p : MemberPlace, hasMemberDocumentExtension p.name = true →
    ∀ bytes, s.find p.status p.name = some bytes →
      ∃ key, readDocument bytes = some key ∧ key.protect.subjectHandle = p.stem

/-- No kid stands at two places. -/
def Distinct (s : Members) : Prop :=
  ∀ p q key other, IsDocument s p key → IsDocument s q other →
    key.protect.kid = other.protect.kid → p = q

/-- A file is one document. -/
theorem IsDocument.unique {s : Members} {p : MemberPlace} {key other : PublicKey}
    (h : IsDocument s p key) (h' : IsDocument s p other) : key = other := by
  obtain ⟨-, bytes, hbytes, hkey⟩ := h
  obtain ⟨-, bytes', hbytes', hother⟩ := h'
  obtain rfl := Option.some.inj (hbytes.symm.trans hbytes')
  exact Option.some.inj (hkey.symm.trans hother)

/-- In a well named store a document carries the stem of its file. -/
theorem WellNamed.subject {s : Members} (h : WellNamed s) {p : MemberPlace} {key : PublicKey}
    (hkey : IsDocument s p key) : key.protect.subjectHandle = p.stem := by
  obtain ⟨hname, bytes, hbytes, hread⟩ := hkey
  obtain ⟨other, hother, hsubject⟩ := h p hname bytes hbytes
  obtain rfl := Option.some.inj (hread.symm.trans hother)
  exact hsubject

/-! ### What a read says -/

/-- Whether a key statement parses does not depend on what the source is called. -/
theorem parsePublicKeyStr_source {content sourceName : String} {key : PublicKey}
    (h : parsePublicKeyStr content sourceName = .ok key) (otherName : String) :
    parsePublicKeyStr content otherName = .ok key := by
  obtain ⟨_, hlimits, h⟩ := bind_eq_ok.mp h
  obtain ⟨v, hvalue, h⟩ := bind_eq_ok.mp h
  refine bind_eq_ok.mpr ⟨(), hlimits, bind_eq_ok.mpr ⟨v, ?_, ?_⟩⟩
  · rw [parseJsonValue] at hvalue ⊢
    split at hvalue
    · cases hvalue
    · split at hvalue
      · rename_i hgood
        rw [if_pos hgood]
        exact hvalue
      · cases hvalue
  · rw [readConforming] at h ⊢
    split at h
    · rename_i hconforms
      rw [if_pos hconforms]
      split at h
      · exact h
      · cases h
    · cases h

/-- Text that parses is what its bytes spell. -/
theorem readDocument_of_parse {content sourceName : String} {key : PublicKey}
    (h : parsePublicKeyStr content sourceName = .ok key) : readDocument (utf8 content)
      = some key := by
  rw [readDocument, utf8Decode_utf8, Option.bind_some, parsePublicKeyStr_source h]
  rfl

theorem parse_of_readDocument {content : String} {key : PublicKey}
    (h : readDocument (utf8 content) = some key) (sourceName : String) :
    parsePublicKeyStr content sourceName = .ok key := by
  rw [readDocument, utf8Decode_utf8, Option.bind_some] at h
  cases hparse : parsePublicKeyStr content "" with
  | error e => cases hparse ▸ h
  | ok found =>
    rw [hparse] at h
    obtain rfl := Option.some.inj h
    exact parsePublicKeyStr_source hparse sourceName

/-- The subject of a key statement is a member handle. -/
theorem handleText_of_readDocument {bytes : Bytes} {key : PublicKey}
    (h : readDocument bytes = some key) : isMemberHandleText key.protect.subjectHandle = true := by
  obtain ⟨content, -, h⟩ := Option.bind_eq_some_iff.mp h
  cases hparse : parsePublicKeyStr content "" with
  | error e => cases hparse ▸ h
  | ok found =>
    rw [hparse] at h
    obtain rfl := Option.some.inj h
    obtain ⟨_, _, hread⟩ := bind_eq_ok.mp hparse
    obtain ⟨v, _, hread⟩ := bind_eq_ok.mp hread
    rw [readConforming] at hread
    split at hread
    · rename_i hconforms
      split at hread
      · rename_i key hkey
        obtain rfl := Except.ok.inj hread
        obtain ⟨members, rfl, hfields⟩ := readRecord_eq_some hkey
        obtain ⟨protect, hprotect, hfields⟩ := Option.bind_eq_some_iff.mp hfields
        obtain ⟨_, _, hfields⟩ := Option.bind_eq_some_iff.mp hfields
        obtain rfl := Option.some.inj hfields
        obtain ⟨w, hlook, hw⟩ := field_eq_some hprotect
        have hinner : conforms PublicKeyProtected.schema w = true :=
          memberConforms_of_conforms hconforms hlook
        obtain ⟨inner, rfl, hfields⟩ := readRecord_eq_some hw
        simp only [Option.bind_eq_bind, Option.bind_eq_some_iff] at hfields
        obtain ⟨_, _, subject, hsubject, _, _, _, _, _, _, _, _, _, _, _, _, heq⟩ := hfields
        obtain rfl := Option.some.inj heq
        exact text_conforms hinner hsubject
      · cases hread
    · cases hread

/-- What a successful read of text says. -/
theorem loadTextWithLimitAt_ok {s : Members} {status : MemberStatus} {name subject content : String}
    {maxBytes : Nat} (h : loadTextWithLimitAt s status name maxBytes subject = .ok content) :
    checkedChildName name = .ok () ∧ s.find status name = some (utf8 content)
      ∧ (utf8 content).length ≤ maxBytes := by
  obtain ⟨_, hname, h⟩ := bind_eq_ok.mp h
  split at h
  · cases h
  · rename_i bytes hbytes
    obtain ⟨capped, hcapped, h⟩ := bind_eq_ok.mp h
    rw [loadCappedBytes] at hcapped
    split at hcapped
    · rename_i hsize
      obtain rfl := Except.ok.inj hcapped
      rw [decodeLoadedText] at h
      split at h
      · rename_i text htext
        obtain rfl := Except.ok.inj h
        rw [utf8_of_utf8Decode htext]
        exact ⟨hname, hbytes, hsize⟩
      · cases h
    · cases hcapped

theorem loadTextWithLimitAt_of {s : Members} {status : MemberStatus} {name content : String}
    {maxBytes : Nat} (hname : checkedChildName name = .ok ())
    (hbytes : s.find status name = some (utf8 content)) (hsize : (utf8 content).length ≤ maxBytes)
    (subject : String) : loadTextWithLimitAt s status name maxBytes subject = .ok content := by
  refine bind_eq_ok.mpr ⟨(), hname, ?_⟩
  rw [hbytes]
  refine bind_eq_ok.mpr ⟨utf8 content, if_pos hsize, ?_⟩
  rw [decodeLoadedText, utf8Decode_utf8]

/-- What a successful read of a member document says. -/
theorem loadVerifiedMemberDocumentAt_ok {s : Members} {status : MemberStatus} {name : String}
    {document : MemberDocumentLoadResult}
    (h : loadVerifiedMemberDocumentAt s status name = .ok document) :
    checkedChildName name = .ok () ∧ s.find status name = some (utf8 document.content)
      ∧ (utf8 document.content).length ≤ maxJsonDocumentReadSize
      ∧ readDocument (utf8 document.content) = some document.publicKey
      ∧ document.publicKey.protect.subjectHandle = fileStem name := by
  obtain ⟨loaded, hloaded, h⟩ := bind_eq_ok.mp h
  obtain ⟨_, hstem, h⟩ := bind_eq_ok.mp h
  obtain rfl := Except.ok.inj h
  obtain ⟨content, hcontent, hloaded⟩ := bind_eq_ok.mp hloaded
  obtain ⟨key, hkey, hloaded⟩ := bind_eq_ok.mp hloaded
  obtain rfl := Except.ok.inj hloaded
  obtain ⟨hname, hbytes, hsize⟩ := loadTextWithLimitAt_ok hcontent
  refine ⟨hname, hbytes, hsize, readDocument_of_parse hkey, ?_⟩
  rw [ensureMemberDocumentStemMatches] at hstem
  split at hstem
  · cases hstem
  · rename_i hsubject
    exact (not_not.mp hsubject).symm

theorem loadVerifiedMemberDocumentAt_of {s : Members} {status : MemberStatus}
    {name content : String} {key : PublicKey} (hname : checkedChildName name = .ok ())
    (hbytes : s.find status name = some (utf8 content))
    (hsize : (utf8 content).length ≤ maxJsonDocumentReadSize)
    (hkey : readDocument (utf8 content) = some key)
    (hsubject : key.protect.subjectHandle = fileStem name) :
    loadVerifiedMemberDocumentAt s status name = .ok ⟨content, key⟩ := by
  refine bind_eq_ok.mpr ⟨⟨content, key⟩, ?_, bind_eq_ok.mpr ⟨(), ?_, rfl⟩⟩
  · exact bind_eq_ok.mpr ⟨content, loadTextWithLimitAt_of hname hbytes hsize _,
      bind_eq_ok.mpr ⟨key, parse_of_readDocument hkey _, rfl⟩⟩
  · exact if_neg (not_not.mpr hsubject.symm)

theorem isDocument_of_load {s : Members} {p : MemberPlace} {key : PublicKey}
    (hname : hasMemberDocumentExtension p.name = true)
    (h : loadVerifiedMemberFileAt s p.status p.name = .ok key) : IsDocument s p key := by
  obtain ⟨document, hdocument, rfl⟩ := map_eq_ok.mp h
  obtain ⟨-, hbytes, -, hread, -⟩ := loadVerifiedMemberDocumentAt_ok hdocument
  exact ⟨hname, _, hbytes, hread⟩

/-! ## What the uniqueness check decides -/

/-- A place whose document is judged. -/
def Judged (s : Members) (ignoredExisting : List (MemberStatus × String)) (p : MemberPlace) :
    Prop :=
  hasMemberDocumentExtension p.name = true ∧ (s.find p.status p.name).isSome = true
    ∧ isIgnoredExisting ignoredExisting p.status p.stem = false

/-- Every judged document loads, and no kid of a judged document or a candidate is claimed
    twice. -/
structure KidsUnclaimed (s : Members) (candidates : List MemberKidCandidate)
    (ignoredExisting : List (MemberStatus × String)) : Prop where
  loads : ∀ p, Judged s ignoredExisting p →
    ∃ key, loadVerifiedMemberFileAt s p.status p.name = .ok key
  distinct : ∀ p q key other, Judged s ignoredExisting p → Judged s ignoredExisting q →
    IsDocument s p key → IsDocument s q other → key.protect.kid = other.protect.kid → p = q
  unclaimed : ∀ p key, Judged s ignoredExisting p → IsDocument s p key →
    ∀ candidate ∈ candidates, key.protect.kid ≠ candidate.kid
  candidates : (candidates.map MemberKidCandidate.kid).Nodup

/-- Noting succeeds exactly on kids that are new and distinct. -/
theorem noteKids_ok {seen candidates noted : List MemberKidCandidate} :
    noteKids seen candidates = .ok noted ↔
      (candidates.map MemberKidCandidate.kid).Nodup
        ∧ (∀ candidate ∈ candidates, ∀ other ∈ seen, other.kid ≠ candidate.kid)
        ∧ noted = candidates.reverse ++ seen := by
  induction candidates generalizing seen with
  | nil =>
    constructor
    · intro h
      obtain rfl := Except.ok.inj h
      exact ⟨List.nodup_nil, fun _ h => absurd h List.not_mem_nil, rfl⟩
    · rintro ⟨-, -, rfl⟩
      rfl
  | cons candidate rest ih =>
    rw [noteKids, List.map_cons, List.nodup_cons]
    cases hseen : seen.find? fun other => other.kid == candidate.kid with
    | some previous =>
      refine ⟨nofun, fun h => ?_⟩
      have hmatch : (previous.kid == candidate.kid) = true := by
        simpa using List.find?_some hseen
      have hkid : previous.kid = candidate.kid := eq_of_beq hmatch
      exact absurd hkid (h.2.1 candidate List.mem_cons_self previous
        (List.mem_of_find?_eq_some hseen))
    | none =>
      have hnew : ∀ other ∈ seen, other.kid ≠ candidate.kid := fun other hother heq =>
        List.find?_eq_none.mp hseen other hother (beq_iff_eq.mpr heq)
      show noteKids (candidate :: seen) rest = .ok noted ↔ _
      rw [ih, List.reverse_cons, List.append_assoc, List.singleton_append]
      constructor
      · rintro ⟨hnodup, hfresh, rfl⟩
        refine ⟨⟨?_, hnodup⟩, ?_, rfl⟩
        · intro hmem
          obtain ⟨other, hother, heq⟩ := List.mem_map.mp hmem
          exact hfresh other hother candidate List.mem_cons_self heq.symm
        · intro c hc other hother
          rcases List.mem_cons.mp hc with rfl | hc
          · exact hnew other hother
          · exact hfresh c hc other (List.mem_cons_of_mem _ hother)
      · rintro ⟨⟨hhead, hnodup⟩, hfresh, rfl⟩
        refine ⟨hnodup, ?_, rfl⟩
        intro c hc other hother
        rcases List.mem_cons.mp hother with rfl | hother
        · exact fun heq => hhead (List.mem_map.mpr ⟨c, hc, heq.symm⟩)
        · exact hfresh c (List.mem_cons_of_mem _ hc) other hother

theorem enforceMemberKidUniqueness_ok {existing candidates : List MemberKidCandidate} :
    enforceMemberKidUniqueness existing candidates = .ok () ↔
      (existing.map MemberKidCandidate.kid).Nodup
        ∧ (candidates.map MemberKidCandidate.kid).Nodup
        ∧ ∀ candidate ∈ candidates, ∀ other ∈ existing, other.kid ≠ candidate.kid := by
  constructor
  · intro h
    obtain ⟨seen, hseen, h⟩ := bind_eq_ok.mp h
    obtain ⟨noted, hnoted, -⟩ := bind_eq_ok.mp h
    obtain ⟨hexisting, -, rfl⟩ := noteKids_ok.mp hseen
    obtain ⟨hcandidates, hfresh, -⟩ := noteKids_ok.mp hnoted
    refine ⟨hexisting, hcandidates, fun candidate hc other hother => hfresh candidate hc other ?_⟩
    exact List.mem_append_left _ (List.mem_reverse.mpr hother)
  · rintro ⟨hexisting, hcandidates, hfresh⟩
    refine bind_eq_ok.mpr ⟨existing.reverse ++ [], noteKids_ok.mpr ⟨hexisting, ?_, rfl⟩, ?_⟩
    · exact fun _ _ _ h => absurd h List.not_mem_nil
    · refine bind_eq_ok.mpr ⟨_, noteKids_ok.mpr ⟨hcandidates, ?_, rfl⟩, rfl⟩
      intro candidate hc other hother
      rw [List.append_nil, List.mem_reverse] at hother
      exact hfresh candidate hc other hother

/-- The judged places, in the order they are read. -/
def judgedPlaces (s : Members) (ignoredExisting : List (MemberStatus × String)) :
    List MemberPlace :=
  (judgedNames s ignoredExisting .active).map (MemberPlace.mk .active)
    ++ (judgedNames s ignoredExisting .incoming).map (MemberPlace.mk .incoming)

theorem mem_judgedNames {s : Members} {ignoredExisting : List (MemberStatus × String)}
    {status : MemberStatus} {name : String} :
    name ∈ judgedNames s ignoredExisting status ↔ Judged s ignoredExisting ⟨status, name⟩ := by
  rw [judgedNames, loadMemberDocumentNamesAt, List.mem_filter, List.mem_filter, Finset.mem_sort,
    Finmap.mem_keys, Judged, Members.find, Finmap.lookup_isSome, Bool.not_eq_true',
    MemberPlace.stem]
  exact ⟨fun ⟨⟨hmem, hname⟩, hignored⟩ => ⟨hname, hmem, hignored⟩,
    fun ⟨hname, hmem, hignored⟩ => ⟨⟨hmem, hname⟩, hignored⟩⟩

theorem mem_judgedPlaces {s : Members} {ignoredExisting : List (MemberStatus × String)}
    {p : MemberPlace} : p ∈ judgedPlaces s ignoredExisting ↔ Judged s ignoredExisting p := by
  obtain ⟨status, name⟩ := p
  rw [judgedPlaces, List.mem_append, List.mem_map, List.mem_map]
  constructor
  · rintro (⟨_, hmem, heq⟩ | ⟨_, hmem, heq⟩)
    · exact heq ▸ mem_judgedNames.mp hmem
    · exact heq ▸ mem_judgedNames.mp hmem
  · intro h
    cases status with
    | active => exact .inl ⟨name, mem_judgedNames.mpr h, rfl⟩
    | incoming => exact .inr ⟨name, mem_judgedNames.mpr h, rfl⟩

theorem nodup_judgedPlaces (s : Members) (ignoredExisting : List (MemberStatus × String)) :
    (judgedPlaces s ignoredExisting).Nodup := by
  have hnames : ∀ status, (judgedNames s ignoredExisting status).Nodup := fun status =>
    ((Finset.sort_nodup _ _).filter _).filter _
  refine List.Nodup.append ?_ ?_ ?_
  · exact (hnames .active).map fun _ _ h => (MemberPlace.mk.inj h).2
  · exact (hnames .incoming).map fun _ _ h => (MemberPlace.mk.inj h).2
  · intro p hactive hincoming
    obtain ⟨_, -, rfl⟩ := List.mem_map.mp hactive
    obtain ⟨_, -, h⟩ := List.mem_map.mp hincoming
    cases (MemberPlace.mk.inj h).1

/-- The kid at a place. -/
def kidAt (s : Members) (p : MemberPlace) : String :=
  (((s.find p.status p.name).bind readDocument).map fun key => key.protect.kid).getD ""

theorem kidAt_of_find {s : Members} {p : MemberPlace} {bytes : Bytes} {key : PublicKey}
    (hbytes : s.find p.status p.name = some bytes) (hread : readDocument bytes = some key) :
    kidAt s p = key.protect.kid := by
  rw [kidAt, hbytes, Option.bind_some, hread]
  rfl

/-- The entry a loaded document adds to the existing kids. -/
def candidateAt (s : Members) (p : MemberPlace) : MemberKidCandidate :=
  ⟨p.stem, kidAt s p, p.status⟩

theorem loadMemberKidCandidate_ok {s : Members} {p : MemberPlace}
    {candidate : MemberKidCandidate} :
    loadMemberKidCandidate s p.status p.name = .ok candidate ↔
      (∃ key, loadVerifiedMemberFileAt s p.status p.name = .ok key)
        ∧ candidateAt s p = candidate := by
  have hkid : ∀ key, loadVerifiedMemberFileAt s p.status p.name = .ok key →
      kidAt s p = key.protect.kid := by
    intro key hkey
    obtain ⟨document, hdocument, rfl⟩ := map_eq_ok.mp hkey
    obtain ⟨-, hbytes, -, hread, -⟩ := loadVerifiedMemberDocumentAt_ok hdocument
    exact kidAt_of_find hbytes hread
  constructor
  · intro h
    obtain ⟨key, hkey, h⟩ := bind_eq_ok.mp h
    obtain rfl := Except.ok.inj h
    refine ⟨⟨key, hkey⟩, ?_⟩
    rw [candidateAt, hkid key hkey]
    rfl
  · rintro ⟨⟨key, hkey⟩, rfl⟩
    refine bind_eq_ok.mpr ⟨key, hkey, ?_⟩
    rw [candidateAt, hkid key hkey]
    rfl

/-- The existing kids are those of the judged places, once each of them loads. -/
theorem loadMemberKidCandidates_ok {s : Members} {ignoredExisting : List (MemberStatus × String)}
    {existing : List MemberKidCandidate} :
    loadMemberKidCandidates s ignoredExisting = .ok existing ↔
      (∀ p, Judged s ignoredExisting p →
          ∃ key, loadVerifiedMemberFileAt s p.status p.name = .ok key)
        ∧ existing = (judgedPlaces s ignoredExisting).map (candidateAt s) := by
  have hplaces : loadMemberKidCandidates s ignoredExisting = .ok existing ↔
      List.Forall₂ (fun p c => loadMemberKidCandidate s p.status p.name = .ok c)
        (judgedPlaces s ignoredExisting) existing := by
    rw [← mapM_ok, judgedPlaces, List.mapM_append, List.mapM_map, List.mapM_map]
    rfl
  simp only [hplaces, loadMemberKidCandidate_ok]
  rw [List.forall₂_and_left, ← List.forall₂_map_left_iff, List.forall₂_eq_eq_eq]
  constructor
  · rintro ⟨hloads, heq⟩
    exact ⟨fun p hp => hloads p (mem_judgedPlaces.mpr hp), heq.symm⟩
  · rintro ⟨hloads, heq⟩
    exact ⟨fun p hp => hloads p (mem_judgedPlaces.mp hp), heq.symm⟩

/-- **THE UNIQUENESS CHECK**: it passes exactly when every judged document loads and no kid is
    claimed twice. -/
theorem enforceUniqueness_iff {s : Members} {candidates : List MemberKidCandidate}
    {ignoredExisting : List (MemberStatus × String)} :
    enforceWorkspaceMemberKidUniqueness s candidates ignoredExisting = .ok () ↔
      KidsUnclaimed s candidates ignoredExisting := by
  have hkids : ∀ p key, IsDocument s p key → (candidateAt s p).kid = key.protect.kid :=
    fun p key ⟨_, _, hbytes, hread⟩ => kidAt_of_find hbytes hread
  constructor
  · intro h
    obtain ⟨existing, hexisting, h⟩ := bind_eq_ok.mp h
    obtain ⟨hloads, rfl⟩ := loadMemberKidCandidates_ok.mp hexisting
    obtain ⟨hnodup, hcandidates, hfresh⟩ := enforceMemberKidUniqueness_ok.mp h
    refine ⟨hloads, ?_, ?_, hcandidates⟩
    · intro p q key other hp hq hkey hother heq
      rw [List.map_map] at hnodup
      refine List.inj_on_of_nodup_map hnodup (mem_judgedPlaces.mpr hp) (mem_judgedPlaces.mpr hq) ?_
      exact (hkids p key hkey).trans (heq.trans (hkids q other hother).symm)
    · intro p key hp hkey candidate hcandidate heq
      refine hfresh candidate hcandidate (candidateAt s p) ?_ ((hkids p key hkey).trans heq)
      exact List.mem_map.mpr ⟨p, mem_judgedPlaces.mpr hp, rfl⟩
  · intro h
    refine bind_eq_ok.mpr ⟨_, loadMemberKidCandidates_ok.mpr ⟨h.loads, rfl⟩, ?_⟩
    have hdocument : ∀ p ∈ judgedPlaces s ignoredExisting, ∃ key, IsDocument s p key := by
      intro p hp
      obtain ⟨key, hkey⟩ := h.loads p (mem_judgedPlaces.mp hp)
      exact ⟨key, isDocument_of_load (mem_judgedPlaces.mp hp).1 hkey⟩
    refine enforceMemberKidUniqueness_ok.mpr ⟨?_, h.candidates, ?_⟩
    · rw [List.map_map]
      refine (List.nodup_map_iff_inj_on (nodup_judgedPlaces s ignoredExisting)).mpr ?_
      intro p hp q hq heq
      obtain ⟨key, hkey⟩ := hdocument p hp
      obtain ⟨other, hother⟩ := hdocument q hq
      refine h.distinct p q key other (mem_judgedPlaces.mp hp) (mem_judgedPlaces.mp hq)
        hkey hother ?_
      exact (hkids p key hkey).symm.trans (heq.trans (hkids q other hother))
    · intro candidate hcandidate other hother
      obtain ⟨p, hp, rfl⟩ := List.mem_map.mp hother
      obtain ⟨key, hkey⟩ := hdocument p hp
      rw [hkids p key hkey]
      exact h.unclaimed p key (mem_judgedPlaces.mp hp) hkey candidate hcandidate

end MemberStore
