import Kapsaro.FileRewrap
import Kapsaro.KvSession

/-!
# Removal history — who was removed last, in either backend

`feature/disclosure.rs` edits the history of removed recipients with two routines that settle a
conflict in opposite ways: recording a removal overwrites the record of its kid, merging an older
history in keeps the record that is there.  A rewrap of a file-enc document records into the
history it finds; a rewrap of a kv-enc document records into an empty history and merges the old
one in afterwards.

* **`HistoryCall`**, **`runCalls`** — any sequence of calls; kids stay distinct, and none is lost.
* **`fileRemovals`**, **`kvRemovals`** — one rewrap's removals in either backend, and
  **`history_removeFileRecipients`**, **`history_mergeRemovedHistoryFromOld`** — the code is that.
* **`LastRemoval`** — the record of the last removal of its kid.
* **`RecordsRemovals`** — what both backends do to a history, and **`RecordsRemovals.run`** — what
  a whole run of rewraps therefore does.
* **`historyLaws`** — together: the two backends end with the same records.
-/

namespace RemovalHistory

open JsonText Limits WireTexts WireModel DocumentTokens Envelope KeyedList Recipients KvSession
open FileRewrap

/-! ## Calls -/

/-- A removal, with the time it is recorded at. -/
structure Removal where
  recipientHandle : String
  kid : String
  removedAt : Timestamp

/-- The record of a removal. -/
def Removal.record (removal : Removal) : RemovedRecipient :=
  ⟨removal.recipientHandle, removal.kid, removal.removedAt.text⟩

/-- Record a removal. -/
def addRemoval (history : Option (List RemovedRecipient)) (removal : Removal) :
    Option (List RemovedRecipient) :=
  addToRemovedHistory history removal.recipientHandle removal.kid removal.removedAt

theorem nodup_addRemoval {history : Option (List RemovedRecipient)}
    (h : (historyKids history).Nodup) (removal : Removal) :
    (historyKids (addRemoval history removal)).Nodup :=
  nodup_addToRemovedHistory h _ _ _

theorem nodup_empty : (historyKids none).Nodup := List.nodup_nil

/-- A call on a history. -/
inductive HistoryCall where
  | add (removal : Removal)
  | merge (source : Option (List RemovedRecipient))

/-- Carry out a call. -/
def HistoryCall.run (history : Option (List RemovedRecipient)) :
    HistoryCall → Option (List RemovedRecipient)
  | .add removal => addRemoval history removal
  | .merge source => mergeRemovedHistory history source

/-- The kids a call brings. -/
def HistoryCall.kids : HistoryCall → List String
  | .add removal => [removal.kid]
  | .merge source => historyKids source

/-- Carry out calls in order. -/
def runCalls (history : Option (List RemovedRecipient)) (calls : List HistoryCall) :
    Option (List RemovedRecipient) :=
  calls.foldl HistoryCall.run history

/-- A call leaves no kid twice. -/
theorem nodup_run {history : Option (List RemovedRecipient)} (h : (historyKids history).Nodup)
    (call : HistoryCall) : (historyKids (call.run history)).Nodup := by
  cases call with
  | add removal => exact nodup_addRemoval h removal
  | merge source => exact nodup_mergeRemovedHistory h source

/-- A call keeps every kid, and adds those it brings. -/
theorem kids_run (history : Option (List RemovedRecipient)) (call : HistoryCall) (kid : String) :
    kid ∈ historyKids (call.run history) ↔ kid ∈ historyKids history ∨ kid ∈ call.kids := by
  cases call with
  | add removal =>
    show kid ∈ historyKids (addToRemovedHistory _ _ _ _) ↔ _ ∨ kid ∈ [removal.kid]
    rw [kids_addToRemovedHistory, List.mem_singleton, or_comm]
  | merge source => exact kids_mergeRemovedHistory history source kid

/-- **KIDS STAY DISTINCT** over every sequence of calls. -/
theorem nodup_runCalls {history : Option (List RemovedRecipient)}
    (h : (historyKids history).Nodup) (calls : List HistoryCall) :
    (historyKids (runCalls history calls)).Nodup := by
  induction calls generalizing history with
  | nil => exact h
  | cons call calls ih => exact ih (nodup_run h call)

/-- **NO KID IS LOST** over any sequence of calls. -/
theorem kids_runCalls (history : Option (List RemovedRecipient)) (calls : List HistoryCall)
    (kid : String) :
    kid ∈ historyKids (runCalls history calls)
      ↔ kid ∈ historyKids history ∨ ∃ call ∈ calls, kid ∈ call.kids := by
  induction calls generalizing history with
  | nil => simp [runCalls]
  | cons call calls ih =>
    show kid ∈ historyKids (runCalls (call.run history) calls) ↔ _
    rw [ih, kids_run, List.exists_mem_cons_iff, or_assoc]

/-- A merge takes over records of the source only for kids the target does not have. -/
theorem mem_of_mem_mergeRemovedHistory {target : Option (List RemovedRecipient)}
    (h : (historyKids target).Nodup) {source : Option (List RemovedRecipient)}
    {record : RemovedRecipient} (hmem : record ∈ (mergeRemovedHistory target source).getD []) :
    record ∈ target.getD [] ∨ record ∈ source.getD [] ∧ record.kid ∉ historyKids target := by
  by_cases hkid : record.kid ∈ historyKids target
  · -- the record of this kid is the target's, and there is only one
    obtain ⟨kept, hkept, heq⟩ := List.mem_map.mp hkid
    have hmerged := mem_mergeRemovedHistory h source hkept
    left
    rw [← List.inj_on_of_nodup_map (nodup_mergeRemovedHistory h source) hmerged hmem heq]
    exact hkept
  · cases source with
    | none => exact Or.inl hmem
    | some old =>
      refine Or.inr ⟨?_, hkid⟩
      cases target with
      | none => exact mem_of_mem_uniqueBy hmem
      | some records =>
        refine (mem_of_mem_uniqueFrom hmem).resolve_left fun hin => hkid ?_
        exact List.mem_map_of_mem (mem_of_mem_uniqueBy hin)

/-- When the source has distinct kids as well, a merge takes over every other record. -/
theorem mem_mergeRemovedHistory_iff {target source : Option (List RemovedRecipient)}
    (htarget : (historyKids target).Nodup) (hsource : (historyKids source).Nodup)
    {record : RemovedRecipient} :
    record ∈ (mergeRemovedHistory target source).getD []
      ↔ record ∈ target.getD [] ∨ record ∈ source.getD [] ∧ record.kid ∉ historyKids target := by
  refine ⟨mem_of_mem_mergeRemovedHistory htarget, ?_⟩
  rintro (hmem | ⟨hmem, hfresh⟩)
  · exact mem_mergeRemovedHistory htarget source hmem
  · cases source with
    | none => exact absurd hmem List.not_mem_nil
    | some old =>
      have hold : (old.map RemovedRecipient.kid).Nodup := hsource
      cases target with
      | none =>
        show record ∈ uniqueBy RemovedRecipient.kid old
        rw [uniqueBy_eq hold]
        exact hmem
      | some records =>
        show record ∈ uniqueFrom RemovedRecipient.kid (uniqueBy RemovedRecipient.kid records) old
        rw [mem_uniqueFrom_iff hold,
          uniqueBy_eq (show (records.map RemovedRecipient.kid).Nodup from htarget)]
        exact Or.inr ⟨hmem, hfresh⟩

/-! ## The backends -/

/-- The removals of one rewrap in a file-enc document: recorded into the history it has. -/
def fileRemovals (history : Option (List RemovedRecipient)) (removals : List Removal) :
    Option (List RemovedRecipient) :=
  removals.foldl addRemoval history

/-- The removals of one rewrap in a kv-enc document: recorded into an empty history, which the old
    one is merged into. -/
def kvRemovals (history : Option (List RemovedRecipient)) (removals : List Removal) :
    Option (List RemovedRecipient) :=
  mergeRemovedHistory (removals.foldl addRemoval none) history

/-- The removals of handles with their kids, at the times a clock shows from its `i`-th on. -/
def stamped (clock : Nat → Timestamp) : Nat → List (String × String) → List Removal
  | _, [] => []
  | i, (handle, kid) :: rest => ⟨handle, kid, clock i⟩ :: stamped clock (i + 1) rest

/-- **THE FILE BACKEND** records the removed wraps into the history of the document. -/
theorem history_removeFileRecipients {protect protect' : FileEncDocumentProtected}
    {handles : List String} {clock : Nat → Timestamp}
    (h : removeFileRecipients protect handles clock = .ok protect') :
    protect'.removedRecipients = fileRemovals protect.removedRecipients
      (stamped clock 0 (collectRemovals protect.wrap handles)) := by
  have hrecord : ∀ (pairs : List (String × String)) (i : Nat)
      (history : Option (List RemovedRecipient)), recordFileRemovals clock i pairs history
        = fileRemovals history (stamped clock i pairs) := by
    intro pairs
    induction pairs with
    | nil =>
      intro i history
      rfl
    | cons pair pairs ih =>
      intro i history
      rw [recordFileRemovals, ih]
      rfl
  rw [removeFileRecipients_ok h]
  exact hrecord _ 0 _

/-- A wrap is found exactly for the handles that are recipients. -/
theorem collectRemovals_cons (wrap : List WrapItem) (handle : String) (handles : List String) :
    collectRemovals wrap (handle :: handles)
      = match wrap.find? fun item => item.recipientHandle = handle with
        | some item => (handle, item.kid) :: collectRemovals wrap handles
        | none => collectRemovals wrap handles := by
  rw [collectRemovals, collectRemovals, List.filterMap_cons, checkRecipientExists_eq]
  cases hfind : wrap.find? fun item => item.recipientHandle = handle with
  | none =>
    rw [Option.map_none, ite_self]
  | some item =>
    have hcurrent : handle ∈ wrap.map WrapItem.recipientHandle := by
      have hhandle : item.recipientHandle = handle := by simpa using List.find?_some hfind
      rw [← hhandle]
      exact List.mem_map_of_mem (List.mem_of_find?_eq_some hfind)
    rw [if_pos (decide_eq_true hcurrent)]
    rfl

/-- **THE KV BACKEND** records the removed wraps into the empty history of the new wrap, and merges
    the history of the departing wrap in. -/
theorem history_mergeRemovedHistoryFromOld {newWrap oldWrap : KvWrap} {handles : List String}
    {clock : Nat → Timestamp} (hnew : newWrap.removedRecipients = none) :
    (mergeRemovedHistoryFromOld newWrap oldWrap handles clock).removedRecipients
      = kvRemovals oldWrap.removedRecipients
        (stamped clock 1 (collectRemovals oldWrap.wrap handles)) := by
  have hrecord : ∀ (handles : List String) (i : Nat) (history : Option (List RemovedRecipient)),
      recordRemovals oldWrap clock i handles history
        = (stamped clock i (collectRemovals oldWrap.wrap handles)).foldl addRemoval history := by
    intro handles
    induction handles with
    | nil =>
      intro i history
      rfl
    | cons handle handles ih =>
      intro i history
      rw [recordRemovals, collectRemovals_cons]
      cases oldWrap.wrap.find? fun item => item.recipientHandle = handle with
      | none => exact ih i history
      | some item => exact ih (i + 1) _
  rw [mergeRemovedHistoryFromOld]
  dsimp only
  rw [hnew, hrecord]
  rfl

/-! ## The last removal of a kid -/

/-- The record of a removal that no later removal has the kid of. -/
def LastRemoval (removals : List Removal) (record : RemovedRecipient) : Prop :=
  ∃ before removal after, removals = before ++ removal :: after ∧ removal.record = record
    ∧ ∀ later ∈ after, later.kid ≠ record.kid

theorem lastRemoval_nil {record : RemovedRecipient} : ¬ LastRemoval [] record := by
  rintro ⟨before, removal, after, hsplit, _⟩
  exact absurd hsplit.symm (List.append_ne_nil_of_right_ne_nil _ (List.cons_ne_nil _ _))

/-- The last removal is the first one, or among the later ones. -/
theorem lastRemoval_cons {removal : Removal} {removals : List Removal}
    {record : RemovedRecipient} :
    LastRemoval (removal :: removals) record
      ↔ LastRemoval removals record
        ∨ record = removal.record ∧ ∀ later ∈ removals, later.kid ≠ record.kid := by
  constructor
  · rintro ⟨before, last, after, hsplit, hrecord, hlater⟩
    cases before with
    | nil =>
      obtain ⟨rfl, rfl⟩ := List.cons.inj hsplit
      exact Or.inr ⟨hrecord.symm, hlater⟩
    | cons first before =>
      exact Or.inl ⟨before, last, after, (List.cons.inj hsplit).2, hrecord, hlater⟩
  · rintro (⟨before, last, after, rfl, hrecord, hlater⟩ | ⟨rfl, hlater⟩)
    · exact ⟨removal :: before, last, after, rfl, hrecord, hlater⟩
    · exact ⟨[], removal, removals, rfl, rfl, hlater⟩

/-- The last removal of two lists is that of the second, if it has one. -/
theorem lastRemoval_append {first second : List Removal} {record : RemovedRecipient} :
    LastRemoval (first ++ second) record
      ↔ LastRemoval second record
        ∨ LastRemoval first record ∧ ∀ later ∈ second, later.kid ≠ record.kid := by
  induction first with
  | nil =>
    rw [List.nil_append]
    exact ⟨Or.inl, fun h => h.resolve_right fun hnil => lastRemoval_nil hnil.1⟩
  | cons removal first ih =>
    rw [List.cons_append, lastRemoval_cons, lastRemoval_cons, ih, List.forall_mem_append]
    constructor
    · rintro ((hsecond | ⟨hfirst, hlater⟩) | ⟨heq, hfirst, hlater⟩)
      · exact Or.inl hsecond
      · exact Or.inr ⟨Or.inl hfirst, hlater⟩
      · exact Or.inr ⟨Or.inr ⟨heq, hfirst⟩, hlater⟩
    · rintro (hsecond | ⟨hfirst | ⟨heq, hfirst⟩, hlater⟩)
      · exact Or.inl (Or.inl hsecond)
      · exact Or.inl (Or.inr ⟨hfirst, hlater⟩)
      · exact Or.inr ⟨heq, hfirst, hlater⟩

/-! ## What a backend does to a history -/

/-- The records after some removals: the last removal of each kid, and for the other kids what was
    there. -/
def Recorded (history : Option (List RemovedRecipient)) (removals : List Removal)
    (record : RemovedRecipient) : Prop :=
  LastRemoval removals record
    ∨ record ∈ history.getD [] ∧ ∀ removal ∈ removals, removal.kid ≠ record.kid

/-- A way to carry out removals that keeps the record of the last one of each kid. -/
structure RecordsRemovals
    (step : Option (List RemovedRecipient) → List Removal → Option (List RemovedRecipient)) :
    Prop where
  nodup : ∀ {history : Option (List RemovedRecipient)} (removals : List Removal),
    (historyKids history).Nodup → (historyKids (step history removals)).Nodup
  mem : ∀ {history : Option (List RemovedRecipient)} (removals : List Removal)
    (record : RemovedRecipient), (historyKids history).Nodup →
    (record ∈ (step history removals).getD [] ↔ Recorded history removals record)

/-- **THE FILE BACKEND KEEPS THE LAST REMOVAL**: by induction over the removals, each of which
    overwrites. -/
theorem recordsRemovals_file : RecordsRemovals fileRemovals where
  nodup := by
    intro history removals h
    induction removals generalizing history with
    | nil => exact h
    | cons removal removals ih => exact ih (nodup_addRemoval h removal)
  mem := by
    intro history removals record h
    induction removals generalizing history with
    | nil =>
      show record ∈ history.getD [] ↔ _
      refine ⟨fun hmem => Or.inr ⟨hmem, fun _ hin => absurd hin List.not_mem_nil⟩, ?_⟩
      rintro (hlast | ⟨hmem, _⟩)
      · exact absurd hlast lastRemoval_nil
      · exact hmem
    | cons removal removals ih =>
      show record ∈ (fileRemovals (addRemoval history removal) removals).getD [] ↔ _
      rw [ih (nodup_addRemoval h removal), Recorded, Recorded, lastRemoval_cons,
        addRemoval, mem_addToRemovedHistory h, List.forall_mem_cons]
      show _ ∨ (record = removal.record ∨ _) ∧ _ ↔ _
      constructor
      · rintro (hlast | ⟨rfl | ⟨hmem, hne⟩, hlater⟩)
        · exact Or.inl (Or.inl hlast)
        · exact Or.inl (Or.inr ⟨rfl, hlater⟩)
        · exact Or.inr ⟨hmem, hne.symm, hlater⟩
      · rintro ((hlast | ⟨rfl, hlater⟩) | ⟨hmem, hne, hlater⟩)
        · exact Or.inl hlast
        · exact Or.inr ⟨Or.inl rfl, hlater⟩
        · exact Or.inr ⟨Or.inr ⟨hmem, hne.symm⟩, hlater⟩

/-- The kids of removals recorded into an empty history. -/
theorem kids_recorded (removals : List Removal) (kid : String) :
    kid ∈ historyKids (removals.foldl addRemoval none)
      ↔ ∃ removal ∈ removals, removal.kid = kid := by
  suffices h : ∀ history, kid ∈ historyKids (removals.foldl addRemoval history)
      ↔ kid ∈ historyKids history ∨ ∃ removal ∈ removals, removal.kid = kid by
    rw [h none]
    exact or_iff_right List.not_mem_nil
  induction removals with
  | nil => simp
  | cons removal removals ih =>
    intro history
    rw [List.foldl_cons, ih, addRemoval, kids_addToRemovedHistory, List.exists_mem_cons_iff,
      ← or_assoc, or_comm (a := kid = _), eq_comm (a := kid)]

/-- **THE KV BACKEND KEEPS THE LAST REMOVAL** as well: the merge keeps the records of the new
    removals over the old ones. -/
theorem recordsRemovals_kv : RecordsRemovals kvRemovals where
  nodup := by
    intro history removals _
    exact nodup_mergeRemovedHistory (recordsRemovals_file.nodup removals nodup_empty) history
  mem := by
    intro history removals record h
    have hrecorded : (historyKids (removals.foldl addRemoval none)).Nodup :=
      recordsRemovals_file.nodup removals nodup_empty
    rw [kvRemovals, mem_mergeRemovedHistory_iff hrecorded h, kids_recorded, Recorded]
    refine or_congr ?_ (and_congr_right fun _ => ?_)
    · refine (recordsRemovals_file.mem removals record nodup_empty).trans ?_
      exact or_iff_left fun hnone => absurd hnone.1 List.not_mem_nil
    · simp only [not_exists, not_and, ne_eq]

/-- **A RUN OF REWRAPS** keeps the record of the last removal of each kid. -/
theorem RecordsRemovals.run
    {step : Option (List RemovedRecipient) → List Removal → Option (List RemovedRecipient)}
    (hstep : RecordsRemovals step) {history : Option (List RemovedRecipient)}
    (h : (historyKids history).Nodup) (rewraps : List (List Removal)) :
    (historyKids (rewraps.foldl step history)).Nodup
      ∧ ∀ record, record ∈ (rewraps.foldl step history).getD []
        ↔ Recorded history rewraps.flatten record := by
  induction rewraps generalizing history with
  | nil =>
    refine ⟨h, fun record => ?_⟩
    exact (recordsRemovals_file.mem [] record h)
  | cons removals rewraps ih =>
    obtain ⟨hnodup, hmem⟩ := ih (hstep.nodup removals h)
    refine ⟨hnodup, fun record => ?_⟩
    rw [List.foldl_cons, hmem, List.flatten_cons, Recorded, Recorded, hstep.mem removals record h,
      Recorded, lastRemoval_append, List.forall_mem_append]
    constructor
    · rintro (hlast | ⟨hfirst | ⟨hold, hfirst⟩, hlater⟩)
      · exact Or.inl (Or.inl hlast)
      · exact Or.inl (Or.inr ⟨hfirst, hlater⟩)
      · exact Or.inr ⟨hold, hfirst, hlater⟩
    · rintro ((hlast | ⟨hfirst, hlater⟩) | ⟨hold, hfirst, hlater⟩)
      · exact Or.inl hlast
      · exact Or.inr ⟨Or.inl hfirst, hlater⟩
      · exact Or.inr ⟨Or.inr ⟨hold, hfirst⟩, hlater⟩

/-! ## The laws of a history -/

/-- What calls and rewraps do to a history. -/
structure HistoryLaws (history : Option (List RemovedRecipient)) : Prop where
  /-- kids stay distinct -/
  distinct : ∀ calls, (historyKids (runCalls history calls)).Nodup
  /-- no kid is lost, neither one of the history nor one that a call brought -/
  kept : ∀ calls kid, kid ∈ historyKids (runCalls history calls)
    ↔ kid ∈ historyKids history ∨ ∃ call ∈ calls, kid ∈ call.kids
  /-- recording replaces the record of its kid, and no other one -/
  replaces : ∀ calls removal record,
    record ∈ (addRemoval (runCalls history calls) removal).getD []
      ↔ record = removal.record
        ∨ record ∈ (runCalls history calls).getD [] ∧ record.kid ≠ removal.kid
  /-- merging keeps every record of the target -/
  keeps : ∀ calls source, ∀ record ∈ (runCalls history calls).getD [],
    record ∈ (mergeRemovedHistory (runCalls history calls) source).getD []
  /-- and takes over records of the source for kids the target does not have -/
  takes : ∀ calls source,
    ∀ record ∈ (mergeRemovedHistory (runCalls history calls) source).getD [],
      record ∈ (runCalls history calls).getD []
        ∨ record ∈ source.getD [] ∧ record.kid ∉ historyKids (runCalls history calls)
  /-- rewraps of a file-enc document keep the record of the last removal of each kid -/
  fileRun : ∀ (rewraps : List (List Removal)) record,
    record ∈ (rewraps.foldl fileRemovals history).getD []
    ↔ Recorded history rewraps.flatten record
  /-- and so do rewraps of a kv-enc document -/
  kvRun : ∀ (rewraps : List (List Removal)) record,
    record ∈ (rewraps.foldl kvRemovals history).getD []
    ↔ Recorded history rewraps.flatten record
  /-- so both end with the same records -/
  same : ∀ rewraps : List (List Removal), ((rewraps.foldl kvRemovals history).getD []).Perm
    ((rewraps.foldl fileRemovals history).getD [])

/-- **A HISTORY LOSES NOBODY AND REMEMBERS THE LAST REMOVAL**, in either backend. -/
theorem historyLaws {history : Option (List RemovedRecipient)} (h : (historyKids history).Nodup) :
    HistoryLaws history where
  distinct := nodup_runCalls h
  kept := kids_runCalls history
  replaces calls _ _ := mem_addToRemovedHistory (nodup_runCalls h calls)
  keeps calls source _ hmem := mem_mergeRemovedHistory (nodup_runCalls h calls) source hmem
  takes calls _ _ hmem := mem_of_mem_mergeRemovedHistory (nodup_runCalls h calls) hmem
  fileRun rewraps := (recordsRemovals_file.run h rewraps).2
  kvRun rewraps := (recordsRemovals_kv.run h rewraps).2
  same rewraps := by
    obtain ⟨hkv, hkvMem⟩ := recordsRemovals_kv.run h rewraps
    obtain ⟨hfile, hfileMem⟩ := recordsRemovals_file.run h rewraps
    refine (List.perm_ext_iff_of_nodup hkv.of_map hfile.of_map).mpr fun record => ?_
    rw [hkvMem, hfileMem]

/-! ## A history of three rewraps -/

def springTime : Timestamp := ⟨"2026-03-29T12:40:00Z", by decide⟩

def summerTime : Timestamp := ⟨"2026-07-01T08:00:00Z", by decide⟩

/-- Bob and carol have been removed. -/
def removedBefore : List RemovedRecipient := [
  ⟨"bob", "KJD1AAAA1111BBBB2222CCCC3333DDDD", springTime.text⟩,
  ⟨"carol", "KJD1AAAA1111BBBB2222CCCC3333EEEE", springTime.text⟩]

/-- Dave is removed; somebody is added; bob, who had come back with his key, is removed again, and
    dave under a new key of his. -/
def laterRewraps : List (List Removal) := [
  [⟨"dave", "KJD1AAAA1111BBBB2222CCCC3333FFFF", springTime⟩],
  [],
  [⟨"bob", "KJD1AAAA1111BBBB2222CCCC3333DDDD", summerTime⟩,
    ⟨"dave", "KJD1AAAA1111BBBB2222CCCC3333GGGG", summerTime⟩]]

/-- Bob's record is that of his last removal, dave has one for each key, and carol's is kept: in a
    file and in a document. -/
theorem historyLaws_examples :
    ((laterRewraps.foldl fileRemovals (some removedBefore)).getD []).Perm
        ((laterRewraps.foldl kvRemovals (some removedBefore)).getD [])
      ∧ ∀ record, record ∈ (laterRewraps.foldl kvRemovals (some removedBefore)).getD [] ↔ record ∈ [
        ⟨"bob", "KJD1AAAA1111BBBB2222CCCC3333DDDD", summerTime.text⟩,
        ⟨"carol", "KJD1AAAA1111BBBB2222CCCC3333EEEE", springTime.text⟩,
        ⟨"dave", "KJD1AAAA1111BBBB2222CCCC3333FFFF", springTime.text⟩,
        ⟨"dave", "KJD1AAAA1111BBBB2222CCCC3333GGGG", summerTime.text⟩] := by
  have hlaws : HistoryLaws (some removedBefore) := historyLaws (by decide)
  have hfile : (laterRewraps.foldl fileRemovals (some removedBefore)).getD [] = [
      ⟨"bob", "KJD1AAAA1111BBBB2222CCCC3333DDDD", summerTime.text⟩,
      ⟨"carol", "KJD1AAAA1111BBBB2222CCCC3333EEEE", springTime.text⟩,
      ⟨"dave", "KJD1AAAA1111BBBB2222CCCC3333FFFF", springTime.text⟩,
      ⟨"dave", "KJD1AAAA1111BBBB2222CCCC3333GGGG", summerTime.text⟩] := by decide
  refine ⟨(hlaws.same laterRewraps).symm, fun record => ?_⟩
  rw [(hlaws.same laterRewraps).mem_iff, hfile]

end RemovalHistory
