import Kapsaro.Envelope
import Kapsaro.KeyedList

/-!
# Recipients — resolution, wrap updates, and disclosure history

`feature/recipient.rs` and `feature/disclosure.rs`: the helpers both document formats share when
recipients come and go.

* **`Entropy`** — what a step draws: times, a sid, a master key, seeds and nonces.
* **`resolveSnapshotVerifiedRecipients`** — handles to members of the fixed target list.
* **`replaceRecipientWrapItems`**, **`buildNewWrapItems`** — the two ways to edit a wrap list.
* **`addToRemovedHistory`**, **`mergeRemovedHistory`** — the disclosure history; no kid is ever
  lost by either (**`kids_addToRemovedHistory`**, **`kids_mergeRemovedHistory`**).
-/

namespace Recipients

open JsonText Limits TextLines Base64Codec WireTexts WireModel DocumentTokens TokenRecords
open Envelope KeyedList

/-! ## Drawn values -/

/-- What one step of an operation draws from the clock and from the random source. -/
structure Entropy where
  clock : Nat → Timestamp
  sid : Uuid
  masterKey : MasterKey
  seed : Nat → Bytes
  nonce : Nat → FixedBytes 24

/-! ## Resolution -/

def checkRecipientExists (currentRecipients : List String) (recipientHandle : String) : Bool :=
  currentRecipients.any fun recipient => recipient = recipientHandle

theorem checkRecipientExists_eq (currentRecipients : List String) (recipientHandle : String) :
    checkRecipientExists currentRecipients recipientHandle
      = decide (recipientHandle ∈ currentRecipients) := by
  rw [Bool.eq_iff_iff, checkRecipientExists, List.any_eq_true, decide_eq_true_iff]
  constructor
  · rintro ⟨recipient, hmem, heq⟩
    rwa [← of_decide_eq_true heq]
  · intro hmem
    exact ⟨recipientHandle, hmem, decide_eq_true rfl⟩

def validateNotEmptyRecipients (recipients : List String) : Except Error Unit :=
  if recipients.isEmpty then
    .error (.config none "Cannot remove all recipients. At least one recipient must remain.")
  else .ok ()

/-- The members of the target list behind a list of handles. -/
def resolveSnapshotVerifiedRecipients (targetMembers : List VerifiedRecipientKey) :
    List String → Except Error (List VerifiedRecipientKey)
  | [] => .ok []
  | handle :: rest =>
    match targetMembers.find? fun member => member.subjectHandle = handle with
    | none => .error (.notFound
        s!"Member '{handle}' was not found in the fixed post-promotion snapshot")
    | some member => do
      let members ← resolveSnapshotVerifiedRecipients targetMembers rest
      pure (member :: members)

/-- The members that are no recipients yet. -/
def filterExistingRecipients (recipients : List VerifiedRecipientKey)
    (currentRecipients : List String) : List VerifiedRecipientKey :=
  recipients.filter fun member => !checkRecipientExists currentRecipients member.subjectHandle

def resolveNewSnapshotRecipients (targetMembers : List VerifiedRecipientKey)
    (recipientHandles currentRecipients : List String) :
    Except Error (List VerifiedRecipientKey) := do
  let recipients ← resolveSnapshotVerifiedRecipients targetMembers recipientHandles
  pure (filterExistingRecipients recipients currentRecipients)

section WrapLists

variable (C : Crypto) (format : WrapFormat) (sid : Uuid) (masterKey : MasterKey)

/-- The wraps of the recipients that are new. -/
def buildNewWrapItems (seed : Nat → Bytes) (currentRecipients : List String)
    (currentWrapCount : Nat) (newRecipients : List String)
    (targetMembers : List VerifiedRecipientKey) : Except Error (List WrapItem) := do
  let members ← resolveNewSnapshotRecipients targetMembers newRecipients currentRecipients
  validateWrapCount (currentWrapCount + members.length) "Updated wrap set"
  buildWrapsFrom C format sid masterKey seed 0 members

/-- Drop the wraps of the handles and build them anew, at the end. -/
def replaceRecipientWrapItems (seed : Nat → Bytes) (wrapItems : List WrapItem)
    (recipientHandles : List String) (targetMembers : List VerifiedRecipientKey) :
    Except Error (List WrapItem) := do
  let members ← resolveSnapshotVerifiedRecipients targetMembers recipientHandles
  let rebuilt ← buildWrapsFrom C format sid masterKey seed 0 members
  pure ((wrapItems.filter fun item => item.recipientHandle ∉ recipientHandles) ++ rebuilt)

end WrapLists

/-- Resolved members come in the order of the handles, each from the target list. -/
theorem resolveSnapshot_ok {targetMembers members : List VerifiedRecipientKey}
    {handles : List String}
    (h : resolveSnapshotVerifiedRecipients targetMembers handles = .ok members) :
    members.map VerifiedRecipientKey.subjectHandle = handles
      ∧ ∀ member ∈ members, member ∈ targetMembers := by
  induction handles generalizing members with
  | nil =>
    obtain rfl := Except.ok.inj h
    exact ⟨rfl, fun _ hmem => by cases hmem⟩
  | cons handle handles ih =>
    rw [resolveSnapshotVerifiedRecipients] at h
    cases hfind : targetMembers.find? fun member => member.subjectHandle = handle with
    | none => rw [hfind] at h; cases h
    | some member =>
      rw [hfind] at h
      obtain ⟨rest, hrest, h⟩ := bind_eq_ok.mp h
      obtain rfl := Except.ok.inj h
      obtain ⟨hmap, hmem⟩ := ih hrest
      constructor
      · have hhandle : member.subjectHandle = handle := by simpa using List.find?_some hfind
        rw [List.map_cons, hmap, hhandle]
      · intro m hm
        rcases List.mem_cons.mp hm with rfl | htail
        · exact List.mem_of_find?_eq_some hfind
        · exact hmem m htail

variable {C : Crypto} {format : WrapFormat} {sid : Uuid} {masterKey : MasterKey}

/-- A wrap built for a member of a list, under a master key. -/
def BuiltFor (C : Crypto) (format : WrapFormat) (sid : Uuid) (masterKey : MasterKey)
    (members : List VerifiedRecipientKey) (item : WrapItem) : Prop :=
  ∃ member ∈ members, ∃ seed, buildWrapItem C format member sid masterKey seed = .ok item

theorem builtFor_of_forall₂ {targetMembers members : List VerifiedRecipientKey}
    {items : List WrapItem} (hsub : ∀ member ∈ members, member ∈ targetMembers)
    (h : List.Forall₂
      (fun member item => ∃ s, buildWrapItem C format member sid masterKey s = .ok item)
      members items) :
    ∀ item ∈ items, BuiltFor C format sid masterKey targetMembers item := by
  induction h with
  | nil => exact fun _ hitem => by cases hitem
  | @cons member item members items hitem _ ih =>
    intro i hi
    rcases List.mem_cons.mp hi with rfl | htail
    · exact ⟨member, hsub member List.mem_cons_self, hitem⟩
    · exact ih (fun m hm => hsub m (List.mem_cons_of_mem _ hm)) i htail

/-- A built wrap names its member. -/
theorem BuiltFor.recipient {members : List VerifiedRecipientKey} {item : WrapItem}
    (h : BuiltFor C format sid masterKey members item) :
    recipientOf item ∈ members.map VerifiedRecipientKey.identity := by
  obtain ⟨member, hmember, seed, hbuild⟩ := h
  obtain ⟨_, _, _, _, _, rfl⟩ := buildWrapItem_ok hbuild
  exact List.mem_map_of_mem (f := VerifiedRecipientKey.identity) hmember

/-- **NEW WRAPS**: one for each new handle that has none yet, in order. -/
theorem buildNewWrapItems_ok {seed : Nat → Bytes} {currentRecipients newRecipients : List String}
    {currentWrapCount : Nat} {targetMembers : List VerifiedRecipientKey} {items : List WrapItem}
    (h : buildNewWrapItems C format sid masterKey seed currentRecipients currentWrapCount
      newRecipients targetMembers = .ok items) :
    items.map WrapItem.recipientHandle
        = newRecipients.filter (fun handle => handle ∉ currentRecipients)
      ∧ currentWrapCount + items.length ≤ maxWrapItems
      ∧ ∀ item ∈ items, BuiltFor C format sid masterKey targetMembers item := by
  obtain ⟨members, hmembers, h⟩ := bind_eq_ok.mp h
  obtain ⟨_, hcount, h⟩ := bind_eq_ok.mp h
  obtain ⟨resolved, hresolved, hmembers⟩ := bind_eq_ok.mp hmembers
  obtain rfl := Except.ok.inj hmembers
  obtain ⟨hmap, hsub⟩ := resolveSnapshot_ok hresolved
  have hall := buildWrapsFrom_ok h
  have hlength : items.length = (filterExistingRecipients resolved currentRecipients).length :=
    hall.length_eq.symm
  refine ⟨?_, ?_, ?_⟩
  · have hrecipients := congrArg (List.map Prod.fst) (recipients_of_built hall)
    rw [List.map_map, List.map_map] at hrecipients
    refine hrecipients.trans ?_
    rw [← hmap, filterExistingRecipients, List.filter_map]
    refine congrArg (List.map VerifiedRecipientKey.subjectHandle) (List.filter_congr ?_)
    intro member _
    rw [Function.comp, checkRecipientExists_eq, decide_not]
  · rw [hlength]
    exact (validateWrapCount_ok _ _).mp hcount
  · exact builtFor_of_forall₂ (fun m hm => hsub m (List.mem_filter.mp hm).1) hall

/-- **REPLACED WRAPS**: the other wraps stay as they are, the named ones are built anew. -/
theorem replaceRecipientWrapItems_ok {seed : Nat → Bytes} {wrapItems items : List WrapItem}
    {recipientHandles : List String} {targetMembers : List VerifiedRecipientKey}
    (h : replaceRecipientWrapItems C format sid masterKey seed wrapItems recipientHandles
      targetMembers = .ok items) :
    ∃ rebuilt, items
        = (wrapItems.filter fun item => item.recipientHandle ∉ recipientHandles) ++ rebuilt
      ∧ rebuilt.map WrapItem.recipientHandle = recipientHandles
      ∧ ∀ item ∈ rebuilt, BuiltFor C format sid masterKey targetMembers item := by
  obtain ⟨members, hmembers, h⟩ := bind_eq_ok.mp h
  obtain ⟨rebuilt, hrebuilt, h⟩ := bind_eq_ok.mp h
  obtain ⟨hmap, hsub⟩ := resolveSnapshot_ok hmembers
  have hall := buildWrapsFrom_ok hrebuilt
  refine ⟨rebuilt, (Except.ok.inj h).symm, ?_, builtFor_of_forall₂ hsub hall⟩
  have hrecipients := congrArg (List.map Prod.fst) (recipients_of_built hall)
  rw [List.map_map, List.map_map] at hrecipients
  exact hrecipients.trans hmap

/-! ## Disclosure history -/

/-- Record a removal: the record of a kid is replaced, a new kid is added at the end. -/
def addToRemovedHistory (history : Option (List RemovedRecipient)) (recipientHandle kid : String)
    (now : Timestamp) : Option (List RemovedRecipient) :=
  let removed : RemovedRecipient := { recipientHandle, kid, removedAt := now.text }
  match history with
  | some records => some (upsertBy RemovedRecipient.kid removed records)
  | none => some [removed]

/-- Take over the records of another history whose kids are new. -/
def mergeRemovedHistory (target source : Option (List RemovedRecipient)) :
    Option (List RemovedRecipient) :=
  match source with
  | none => target
  | some old =>
    match target with
    | some records =>
      some (uniqueFrom RemovedRecipient.kid (uniqueBy RemovedRecipient.kid records) old)
    | none => some (uniqueBy RemovedRecipient.kid old)

/-- The kids of a history. -/
def historyKids (history : Option (List RemovedRecipient)) : List String :=
  (history.getD []).map RemovedRecipient.kid

/-- **RECORDING KEEPS EVERY KID** and adds the removed one. -/
theorem kids_addToRemovedHistory (history : Option (List RemovedRecipient))
    (recipientHandle kid : String) (now : Timestamp) (k : String) :
    k ∈ historyKids (addToRemovedHistory history recipientHandle kid now)
      ↔ k = kid ∨ k ∈ historyKids history := by
  cases history with
  | none => simp [addToRemovedHistory, historyKids]
  | some records => exact mem_keys_upsertBy _ _ _ _

/-- **MERGING KEEPS EVERY KID** of both histories. -/
theorem kids_mergeRemovedHistory (target source : Option (List RemovedRecipient)) (k : String) :
    k ∈ historyKids (mergeRemovedHistory target source)
      ↔ k ∈ historyKids target ∨ k ∈ historyKids source := by
  cases source with
  | none => simp [mergeRemovedHistory, historyKids]
  | some old =>
    cases target with
    | none =>
      show k ∈ (uniqueBy RemovedRecipient.kid old).map RemovedRecipient.kid ↔ _
      rw [mem_keys_uniqueBy]
      simp [historyKids]
    | some records =>
      show k ∈ (uniqueFrom RemovedRecipient.kid (uniqueBy RemovedRecipient.kid records) old).map
        RemovedRecipient.kid ↔ _
      rw [mem_keys_uniqueFrom, mem_keys_uniqueBy]
      rfl

/-- **RECORDING LEAVES NO KID TWICE.** -/
theorem nodup_addToRemovedHistory {history : Option (List RemovedRecipient)}
    (h : (historyKids history).Nodup) (recipientHandle kid : String) (now : Timestamp) :
    (historyKids (addToRemovedHistory history recipientHandle kid now)).Nodup := by
  cases history with
  | none => exact List.nodup_singleton _
  | some records => exact nodup_upsertBy h _

/-- **RECORDING** puts the record in, and leaves those of other kids. -/
theorem mem_addToRemovedHistory {history : Option (List RemovedRecipient)}
    (h : (historyKids history).Nodup) {recipientHandle kid : String} {now : Timestamp}
    {record : RemovedRecipient} :
    record ∈ (addToRemovedHistory history recipientHandle kid now).getD []
      ↔ record = ⟨recipientHandle, kid, now.text⟩ ∨ record ∈ history.getD []
        ∧ record.kid ≠ kid := by
  cases history with
  | none =>
    show record ∈ [_] ↔ _ ∨ record ∈ [] ∧ _
    rw [List.mem_singleton]
    exact ⟨Or.inl, fun hor => hor.resolve_right fun hin => by cases hin.1⟩
  | some records => exact mem_upsertBy h

/-- **MERGING LEAVES NO KID TWICE**, when the target has none. -/
theorem nodup_mergeRemovedHistory {target : Option (List RemovedRecipient)}
    (h : (historyKids target).Nodup) (source : Option (List RemovedRecipient)) :
    (historyKids (mergeRemovedHistory target source)).Nodup := by
  cases source with
  | none => exact h
  | some old =>
    cases target with
    | none => exact nodup_uniqueBy _ old
    | some records => exact nodup_uniqueFrom (nodup_uniqueBy _ records) old

/-- **MERGING KEEPS EVERY RECORD** of the target. -/
theorem mem_mergeRemovedHistory {target : Option (List RemovedRecipient)}
    (h : (historyKids target).Nodup) (source : Option (List RemovedRecipient))
    {record : RemovedRecipient} (hmem : record ∈ target.getD []) :
    record ∈ (mergeRemovedHistory target source).getD [] := by
  cases source with
  | none => exact hmem
  | some old =>
    cases target with
    | none => cases hmem
    | some records =>
      refine mem_uniqueFrom_of_mem ?_ old
      rw [uniqueBy_eq (show (records.map RemovedRecipient.kid).Nodup from h)]
      exact hmem

end Recipients
