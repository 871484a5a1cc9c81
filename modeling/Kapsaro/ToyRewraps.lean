import Kapsaro.KvRewrap
import Kapsaro.ToyDocuments

/-!
# Toy rewraps — whole rewraps under the toy primitives

A toy document, of either format, is rewrapped for whomever its rewrapper asks for, and what is
written is a toy document again: runs of rewraps can be followed without computing their texts.

* **`ToyPerson`**, **`Team`** — members with their keys, and people a toy document can be for.
* **`removedFrom`**, **`refreshedIn`**, **`addedTo`** — the people after the steps of a plan.
* **`FileAt`**, **`KvAt`** — an executor that stands on a toy document for some people, with one
  lemma for each step.
* **`rewrap_toyFile`**, **`rewrap_toyKv`** — the rewraps.
-/

namespace ToyRewraps

open JsonText Limits TextLines Base64Codec WireTexts WireModel DocumentTokens TokenRecords Envelope
open KvDocument SignedArtifacts KeyedList KvDraft Recipients KvSession FileDocument RewrapPlan
open FileRewrap KvRewrap JsonSize ToyCrypto ToyDocuments

/-! ## People -/

/-- Somebody with a handle, a kid and a secret. -/
structure ToyPerson where
  handle : MemberHandle
  kid : Kid
  secret : Bytes
deriving DecidableEq

namespace ToyPerson

def member (p : ToyPerson) : VerifiedRecipientKey := toyMember p.handle p.kid p.secret

def wrap (masterKey : MasterKey) (p : ToyPerson) : WrapItem :=
  toyWrap p.handle p.kid p.secret masterKey

def context (p : ToyPerson) : CryptoContext := toyContext p.handle p.kid p.secret

end ToyPerson

/-- The handles of people. -/
def handleTexts (people : List ToyPerson) : List String :=
  people.map fun p => p.handle.text

/-- People a toy document can be for. -/
def Team (people : List ToyPerson) : Prop :=
  1 ≤ (handleTexts people).length ∧ (handleTexts people).length ≤ 50 ∧ (handleTexts people).Nodup
    ∧ ∀ handle ∈ handleTexts people, stringSize handle ≤ 200

instance (people : List ToyPerson) : Decidable (Team people) :=
  inferInstanceAs (Decidable (_ ∧ _ ∧ _ ∧ _))

theorem handles_members (people : List ToyPerson) :
    (people.map ToyPerson.member).map VerifiedRecipientKey.subjectHandle = handleTexts people := by
  rw [handleTexts, List.map_map]
  rfl

theorem handles_wraps (masterKey : MasterKey) (people : List ToyPerson) :
    (people.map (ToyPerson.wrap masterKey)).map WrapItem.recipientHandle = handleTexts people := by
  rw [handleTexts, List.map_map]
  rfl

theorem smallWraps_team {people : List ToyPerson} (h : Team people) (masterKey : MasterKey) :
    SmallWraps (people.map (ToyPerson.wrap masterKey)) := by
  obtain ⟨hnonempty, hfew, hnodup, hshort⟩ := h
  rw [handleTexts, List.length_map] at hnonempty hfew
  refine ⟨?_, ?_, ?_, fun item hitem => ?_, fun item hitem => ?_⟩
  · rw [List.length_map]
    exact hnonempty
  · rw [List.length_map]
    exact hfew
  · rw [handles_wraps]
    exact hnodup
  · obtain ⟨p, _, rfl⟩ := List.mem_map.mp hitem
    exact wellFormed_toyWrap p.handle p.kid p.secret masterKey
  · obtain ⟨p, hp, rfl⟩ := List.mem_map.mp hitem
    exact size_toyWrap (hshort _ (List.mem_map_of_mem hp)) p.kid p.secret masterKey

/-- Wrapping for people never fails. -/
theorem buildWrapsFrom_toy (format : WrapFormat) (sid : Uuid) (masterKey : MasterKey)
    (seed : Nat → Bytes) (i : Nat) (people : List ToyPerson) :
    buildWrapsFrom toyCrypto format sid masterKey seed i (people.map ToyPerson.member)
      = .ok (people.map (ToyPerson.wrap masterKey)) := by
  induction people generalizing i with
  | nil => rfl
  | cons p people ih =>
    exact bind_eq_ok.mpr ⟨_, buildWrapItem_toy format p.handle p.kid p.secret sid masterKey _,
      bind_eq_ok.mpr ⟨_, ih (i + 1), rfl⟩⟩

theorem buildWrapsForRecipients_toy (format : WrapFormat) (sid : Uuid) (masterKey : MasterKey)
    (seed : Nat → Bytes) {people : List ToyPerson} (hfew : people.length ≤ 50) :
    buildWrapsForRecipients toyCrypto (people.map ToyPerson.member) sid masterKey format seed
      = .ok (people.map (ToyPerson.wrap masterKey)) := by
  have hcount : (people.map ToyPerson.member).length ≤ maxWrapItems := by
    rw [List.length_map]
    exact Nat.le_trans hfew (by decide)
  exact bind_eq_ok.mpr ⟨(), (validateWrapCount_ok _ _).mpr hcount,
    buildWrapsFrom_toy format sid masterKey seed 0 people⟩

/-- The wraps of people are built for them. -/
theorem builtFor_people (format : WrapFormat) (sid : Uuid) (masterKey : MasterKey)
    (people : List ToyPerson) : ∀ item ∈ people.map (ToyPerson.wrap masterKey),
      BuiltFor toyCrypto format sid masterKey (people.map ToyPerson.member) item := by
  intro item hitem
  obtain ⟨p, hp, rfl⟩ := List.mem_map.mp hitem
  exact ⟨p.member, List.mem_map_of_mem hp, [],
    buildWrapItem_toy format p.handle p.kid p.secret sid masterKey []⟩

/-! ## The people after a step -/

/-- The people of a target behind some handles. -/
def named (target : List ToyPerson) (handles : List String) : List ToyPerson :=
  handles.filterMap fun handle => target.find? fun p => p.handle.text = handle

/-- Every handle is that of somebody. -/
def Known (target : List ToyPerson) (handles : List String) : Prop :=
  ∀ handle ∈ handles, handle ∈ handleTexts target

instance (target : List ToyPerson) (handles : List String) : Decidable (Known target handles) :=
  inferInstanceAs (Decidable (∀ _ ∈ _, _))

/-- After a removal, the others, as the target has them. -/
def removedFrom (target : List ToyPerson) (handles : List String) (people : List ToyPerson) :
    List ToyPerson :=
  named target ((handleTexts people).filter fun handle => handle ∉ handles)

/-- After a refresh, the others, and then the refreshed ones. -/
def refreshedIn (target : List ToyPerson) (handles : List String) (people : List ToyPerson) :
    List ToyPerson :=
  (people.filter fun p => p.handle.text ∉ handles) ++ named target handles

/-- After an addition, everybody, and then the new ones. -/
def addedTo (target : List ToyPerson) (handles : List String) (people : List ToyPerson) :
    List ToyPerson :=
  people ++ (named target handles).filter fun p => p.handle.text ∉ handleTexts people

/-- Known handles are resolved. -/
theorem resolve_named {target : List ToyPerson} {handles : List String} (h : Known target handles) :
    resolveSnapshotVerifiedRecipients (target.map ToyPerson.member) handles
      = .ok ((named target handles).map ToyPerson.member) := by
  induction handles with
  | nil => rfl
  | cons handle handles ih =>
    have hrest := ih fun k hk => h k (List.mem_cons_of_mem _ hk)
    have hfind : (target.map ToyPerson.member).find? (fun m => m.subjectHandle = handle)
        = (target.find? fun p => p.handle.text = handle).map ToyPerson.member :=
      List.find?_map
    rw [resolveSnapshotVerifiedRecipients, hfind, named, List.filterMap_cons]
    cases hcase : target.find? fun p => p.handle.text = handle with
    | none =>
      obtain ⟨p, hp, heq⟩ := List.mem_map.mp (h handle List.mem_cons_self)
      exact absurd (decide_eq_true heq) (List.find?_eq_none.mp hcase p hp)
    | some p => exact bind_eq_ok.mpr ⟨_, hrest, rfl⟩

theorem handleTexts_named {target : List ToyPerson} {handles : List String}
    (h : Known target handles) : handleTexts (named target handles) = handles := by
  rw [← handles_members]
  exact (resolveSnapshot_ok (resolve_named h)).1

/-- The wraps of the others. -/
theorem filter_wraps (masterKey : MasterKey) (handles : List String) (people : List ToyPerson) :
    (people.map (ToyPerson.wrap masterKey)).filter (fun item => item.recipientHandle ∉ handles)
      = (people.filter fun p => p.handle.text ∉ handles).map (ToyPerson.wrap masterKey) :=
  List.filter_map ..

/-- Refreshing the wraps of people. -/
theorem replaceRecipientWrapItems_toy (format : WrapFormat) (sid : Uuid) (masterKey : MasterKey)
    (seed : Nat → Bytes) {target people : List ToyPerson} {handles : List String}
    (h : Known target handles) :
    replaceRecipientWrapItems toyCrypto format sid masterKey seed
        (people.map (ToyPerson.wrap masterKey)) handles (target.map ToyPerson.member)
      = .ok ((refreshedIn target handles people).map (ToyPerson.wrap masterKey)) := by
  refine bind_eq_ok.mpr ⟨_, resolve_named h, bind_eq_ok.mpr
    ⟨_, buildWrapsFrom_toy format sid masterKey seed 0 _, ?_⟩⟩
  rw [filter_wraps, refreshedIn, List.map_append]
  rfl

/-- Building the wraps of the new ones. -/
theorem buildNewWrapItems_toy (format : WrapFormat) (sid : Uuid) (masterKey : MasterKey)
    (seed : Nat → Bytes) {target people : List ToyPerson} {handles : List String}
    (h : Known target handles) (hfew : (addedTo target handles people).length ≤ 50) :
    buildNewWrapItems toyCrypto format sid masterKey seed (handleTexts people) people.length handles
        (target.map ToyPerson.member)
      = .ok (((named target handles).filter fun p => p.handle.text ∉ handleTexts people).map
          (ToyPerson.wrap masterKey)) := by
  have hnew : filterExistingRecipients ((named target handles).map ToyPerson.member)
        (handleTexts people)
      = ((named target handles).filter fun p => p.handle.text ∉ handleTexts people).map
          ToyPerson.member := by
    rw [filterExistingRecipients, List.filter_map]
    refine congrArg (List.map ToyPerson.member) (List.filter_congr fun p _ => ?_)
    rw [Function.comp, checkRecipientExists_eq, decide_not]
    rfl
  refine bind_eq_ok.mpr ⟨_, bind_eq_ok.mpr ⟨_, resolve_named h, rfl⟩, ?_⟩
  rw [hnew]
  refine bind_eq_ok.mpr ⟨(), (validateWrapCount_ok _ _).mpr ?_,
    buildWrapsFrom_toy format sid masterKey seed 0 _⟩
  rw [addedTo, List.length_append] at hfew
  rw [List.length_map]
  exact Nat.le_trans hfew (by decide)

/-! ## Rewraps and draws -/

/-- A rewrap by somebody for some people, with a rotation or without. -/
def rewrapFor (p : ToyPerson) (rotate : Bool) (people : List ToyPerson) : RewrapContext where
  options := { rotateKey := rotate, clearDisclosureHistory := false }
  memberHandle := p.handle.text
  keyCtx := p.context
  targetMembers := people.map ToyPerson.member

/-- Draws with toy times, seeds and nonces. -/
structure ToyDrawn (draws : RewrapDraws) : Prop where
  remove : draws.remove = toyDraws draws.remove.sid draws.remove.masterKey
  stale : draws.stale = toyDraws draws.stale.sid draws.stale.masterKey
  add : draws.add = toyDraws draws.add.sid draws.add.masterKey
  rotate : draws.rotate = toyDraws draws.rotate.sid draws.rotate.masterKey
  finalize : draws.finalize = toyDraws draws.finalize.sid draws.finalize.masterKey

/-- The people who stay, as a removal leaves them. -/
def stayed (target people : List ToyPerson) (plan : RewrapOperationPlan) : List ToyPerson :=
  if plan.removeRecipients = [] then people
  else removedFrom target plan.removeRecipients people

/-- The people after the removal, the refresh and the addition. -/
def wrappedAfter (target people : List ToyPerson) (plan : RewrapOperationPlan) : List ToyPerson :=
  addedTo target plan.addRecipients
    (refreshedIn target plan.staleRecipientHandles (stayed target people plan))

/-- The history with those who leave. -/
def recordedIn (people : List ToyPerson) (handles : List String)
    (removed : Option (List RemovedRecipient)) : Option (List RemovedRecipient) :=
  recordFileRemovals (fun _ => toyTime) 0
    (collectRemovals (people.map (ToyPerson.wrap (pad 32 []))) handles) removed

/-- Who leaves does not depend on the key. -/
theorem collectRemovals_wraps (key other : MasterKey) (people : List ToyPerson)
    (handles : List String) :
    collectRemovals (people.map (ToyPerson.wrap key)) handles
      = collectRemovals (people.map (ToyPerson.wrap other)) handles := by
  have hfind : ∀ (masterKey : MasterKey) (handle : String),
      ((people.map (ToyPerson.wrap masterKey)).find? fun item => item.recipientHandle = handle).map
          (fun item => (handle, item.kid))
        = (people.find? fun p => p.handle.text = handle).map fun p => (handle, p.kid.text) := by
    intro masterKey handle
    rw [List.find?_map, Option.map_map]
    rfl
  rw [collectRemovals, collectRemovals, handles_wraps, handles_wraps]
  refine List.filterMap_congr fun handle _ => ?_
  rw [hfind, hfind]

/-- The history with those who leave, and then the old one. -/
def mergedIn (people : List ToyPerson) (handles : List String)
    (removed : Option (List RemovedRecipient)) : Option (List RemovedRecipient) :=
  mergeRemovedHistory (recordRemovals ⟨people.map (ToyPerson.wrap (pad 32 [])), none⟩
    (fun _ => toyTime) 1 handles none) removed

theorem recordRemovals_wraps (key other : MasterKey) (people : List ToyPerson)
    (removed : Option (List RemovedRecipient)) (clock : Nat → Timestamp) (i : Nat)
    (handles : List String) (history : Option (List RemovedRecipient)) :
    recordRemovals ⟨people.map (ToyPerson.wrap key), removed⟩ clock i handles history
      = recordRemovals ⟨people.map (ToyPerson.wrap other), none⟩ clock i handles history := by
  have hfind : ∀ (masterKey : MasterKey) (handle : String),
      (people.map (ToyPerson.wrap masterKey)).find? (fun item => item.recipientHandle = handle)
        = (people.find? fun p => p.handle.text = handle).map (ToyPerson.wrap masterKey) :=
    fun _ _ => List.find?_map
  induction handles generalizing i history with
  | nil => rfl
  | cons handle handles ih =>
    rw [recordRemovals, recordRemovals, hfind, hfind]
    cases people.find? fun p => p.handle.text = handle with
    | none => exact ih i history
    | some p => exact ih (i + 1) _

/-- A plan that can be carried out: its handles are known, and there is a team before and after. -/
structure Course (target people : List ToyPerson) (plan : RewrapOperationPlan) : Prop where
  remaining : plan.removeRecipients ≠ [] →
    Known target ((handleTexts people).filter fun handle => handle ∉ plan.removeRecipients)
  stale : Known target plan.staleRecipientHandles
  add : Known target plan.addRecipients
  known : plan.rotateKey = true → Known target (handleTexts (wrappedAfter target people plan))
  before : Team people
  kept : Team (stayed target people plan)
  refreshed : Team (refreshedIn target plan.staleRecipientHandles (stayed target people plan))
  after : Team (wrappedAfter target people plan)

/-- The keys with one flag for all. -/
def flagged (marks : List (String × Bool)) (disclosed : Bool) : List (String × Bool) :=
  marks.map fun mark => (mark.1, disclosed)

/-- The plan of a rewrap between people. -/
def planBetween (rotate : Bool) (people target : List ToyPerson) : RewrapOperationPlan :=
  buildRewrapOperationPlan (handleTexts people)
    (collectTargetMemberHandles (target.map ToyPerson.member))
    (collectStaleRecipientHandles (people.map (ToyPerson.wrap (pad 32 [])))
      (target.map ToyPerson.member)) { rotateKey := rotate, clearDisclosureHistory := false }

/-- Whose wrap is stale does not depend on the key. -/
theorem collectStale_wraps (key other : MasterKey) (people : List ToyPerson)
    (members : List VerifiedRecipientKey) :
    collectStaleRecipientHandles (people.map (ToyPerson.wrap key)) members
      = collectStaleRecipientHandles (people.map (ToyPerson.wrap other)) members := by
  have hstale : ∀ (masterKey : MasterKey) (member : VerifiedRecipientKey),
      staleHandle (people.map (ToyPerson.wrap masterKey)) member
        = ((people.find? fun p => p.handle.text = member.subjectHandle).filter
          fun p => p.kid.text ≠ member.kid).map fun _ => member.subjectHandle := by
    intro masterKey member
    rw [staleHandle, List.find?_map]
    have hsame : ((fun wrap : WrapItem => decide (wrap.recipientHandle = member.subjectHandle))
        ∘ ToyPerson.wrap masterKey) = fun p => decide (p.handle.text = member.subjectHandle) := rfl
    rw [hsame]
    cases people.find? fun p => p.handle.text = member.subjectHandle with
    | none => rfl
    | some p =>
      rw [Option.map_some, Option.filter_some, Option.filter_some]
      show ((if decide (p.kid.text ≠ member.kid) = true then _ else none).map _) = _
      split <;> rfl
  refine List.filterMap_congr fun member _ => ?_
  rw [hstale, hstale]

/-- The people a rewrap leaves wrapped, as the target has them once the key was rotated. -/
def rewrapped (target people : List ToyPerson) (plan : RewrapOperationPlan) : List ToyPerson :=
  if plan.removeRecipients = [] ∧ plan.rotateKey = true then
    named target (handleTexts (wrappedAfter target people plan))
  else wrappedAfter target people plan

/-- The key a rewrap leaves in force. -/
def keyAfter (draws : RewrapDraws) (plan : RewrapOperationPlan) (key : MasterKey) : MasterKey :=
  ((renewalDraws draws plan).map Entropy.masterKey).getD key

/-- The history of a file after a rewrap. -/
def fileHistory (people : List ToyPerson) (plan : RewrapOperationPlan)
    (removed : Option (List RemovedRecipient)) : Option (List RemovedRecipient) :=
  if plan.removeRecipients = [] then removed else recordedIn people plan.removeRecipients removed

/-- The history of a document after a rewrap: a rotation on its own leaves none. -/
def kvHistory (people : List ToyPerson) (plan : RewrapOperationPlan)
    (removed : Option (List RemovedRecipient)) : Option (List RemovedRecipient) :=
  if plan.removeRecipients ≠ [] then mergedIn people plan.removeRecipients removed
  else if plan.rotateKey then none else removed

/-- The flags after a rewrap. -/
def marksAfter (plan : RewrapOperationPlan) (marks : List (String × Bool)) : List (String × Bool) :=
  if plan.removeRecipients ≠ [] then flagged marks true
  else if plan.rotateKey then flagged marks (marks.any Prod.snd) else marks

/-- The sid after a rewrap. -/
def sidAfter (draws : RewrapDraws) (plan : RewrapOperationPlan) (sid : Uuid) : Uuid :=
  ((renewalDraws draws plan).map Entropy.sid).getD sid

theorem refreshedIn_nil (target people : List ToyPerson) :
    refreshedIn target [] people = people := by
  rw [refreshedIn, named, List.filterMap_nil, List.append_nil]
  exact List.filter_eq_self.mpr fun _ _ => decide_eq_true List.not_mem_nil

theorem addedTo_nil (target people : List ToyPerson) : addedTo target [] people = people := by
  rw [addedTo, named, List.filterMap_nil, List.filter_nil, List.append_nil]

theorem team_named {target people : List ToyPerson} (h : Team people)
    (hknown : Known target (handleTexts people)) : Team (named target (handleTexts people)) := by
  rw [Team, handleTexts_named hknown]
  exact h

theorem Team.length_le {people : List ToyPerson} (h : Team people) : people.length ≤ 50 := by
  have hfew := h.2.1
  rw [handleTexts, List.length_map] at hfew
  exact hfew

/-- A rewrap, put together from the run of its plan. -/
theorem rewrap_of_plan {V E : Type} {A : RewrapDocumentAdapter V E} {draws : RewrapDraws}
    {content text : String} {ctx : RewrapContext} {verified : V} {e₀ e₁ : E}
    {plan : RewrapOperationPlan} (hverify : A.verifyContent content = .ok verified)
    (hbuild : A.buildExecutor verified ctx = .ok e₀)
    (hplan : planFor A.executor ctx.options (A.currentWrapItems verified)
      ctx.targetMembers e₀ = plan)
    (happlied : applyRewrapOperationPlan A.executor draws plan e₀ = .ok e₁)
    (hfinal : A.executor.finalize draws.finalize e₁ = .ok text) :
    rewrapDocumentWithCommonSkeleton A draws content ctx = .ok text := by
  refine bind_eq_ok.mpr ⟨verified, hverify, bind_eq_ok.mpr ⟨e₀, hbuild, ?_⟩⟩
  rw [hplan]
  exact bind_eq_ok.mpr ⟨e₁, happlied, hfinal⟩

/-- A plan that clears no history, put together from its steps. -/
theorem apply_of_steps {E : Type} {ops : RewrapExecutor E} {draws : RewrapDraws}
    {plan : RewrapOperationPlan} {e₀ e₁ e₂ e₃ e₄ : E}
    (hclears : plan.clearDisclosureHistory = false)
    (hremove : applyRecipientStep (ops.removeRecipients draws.remove) plan.removeRecipients e₀
      = .ok e₁)
    (hstale : applyRecipientStep (ops.rewriteRecipientWraps draws.stale)
      plan.staleRecipientHandles e₁ = .ok e₂)
    (hadd : applyRecipientStep (ops.addRecipients draws.add) plan.addRecipients e₂ = .ok e₃)
    (hrotate : applyFlagStep plan.rotateKey (ops.rotateKey draws.rotate) e₃ = .ok e₄) :
    applyRewrapOperationPlan ops draws plan e₀ = .ok e₄ := by
  refine bind_eq_ok.mpr ⟨e₁, hremove, bind_eq_ok.mpr ⟨e₂, hstale, bind_eq_ok.mpr ⟨e₃, hadd,
    bind_eq_ok.mpr ⟨e₄, hrotate, ?_⟩⟩⟩⟩
  rw [hclears]
  rfl

theorem step_of_nil {E : Type} (apply : List String → E → Except Error E)
    {recipients : List String} (hnone : recipients = []) (e : E) :
    applyRecipientStep apply recipients e = .ok e := by
  rw [hnone]
  rfl

theorem step_of_ne {E : Type} {apply : List String → E → Except Error E}
    {recipients : List String} {e e' : E} (hsome : recipients ≠ [])
    (happly : apply recipients e = .ok e') : applyRecipientStep apply recipients e = .ok e' :=
  (if_neg fun hempty => hsome (List.isEmpty_iff.mp hempty)).trans happly

theorem Course.team {target people : List ToyPerson} {plan : RewrapOperationPlan}
    (h : Course target people plan) : Team (rewrapped target people plan) := by
  rw [rewrapped]
  split_ifs with hrotates
  · exact team_named h.after (h.known hrotates.2)
  · exact h.after

/-! ## File-enc -/

section Files

variable {ctx : RewrapContext} {input : FileEncDocument} {old key : MasterKey}
  {sid payloadSid : Uuid}
variable {content : Bytes} {target people : List ToyPerson}
  {removed : Option (List RemovedRecipient)}
variable {renewed : Bool}

/-- An executor that stands on a toy file for some people, under the key of the input or a fresh
    one. -/
structure FileAt (ctx : RewrapContext) (input : FileEncDocument) (old : MasterKey)
    (sid payloadSid : Uuid) (content : Bytes) (people : List ToyPerson)
    (removed : Option (List RemovedRecipient)) (key : MasterKey) (renewed : Bool)
    (e : FileRewrapExecutor) : Prop where
  ctx_eq : e.ctx = ctx
  verified_eq : e.verified = input
  protect_eq : e.protect = toyProtected sid payloadSid
    ⟨people.map (ToyPerson.wrap key), removed⟩ key content
  holds : renewed = true ∧ e.contentKey = .rotated key
    ∨ renewed = false ∧ key = old ∧ (e.contentKey = .unloaded ∨ e.contentKey = .original key)

/-- The content key can be opened. -/
theorem ensure_fileAt
    (hkey : unwrapVerifiedFileContentKey toyCrypto input ctx.memberHandle ctx.keyCtx = .ok old)
    {e : FileRewrapExecutor} (h : FileAt ctx input old sid payloadSid content people removed
      key renewed e) :
    ∃ opened, e.ensureContentKey toyCrypto = .ok (key, opened)
      ∧ FileAt ctx input old sid payloadSid content people removed key renewed opened := by
  rw [FileRewrapExecutor.ensureContentKey]
  rcases h.holds with ⟨_, hrotated⟩ | ⟨hfresh, hold, hunloaded | hloaded⟩
  · rw [hrotated]
    exact ⟨e, rfl, h⟩
  · rw [hunloaded, h.verified_eq, h.ctx_eq]
    exact ⟨⟨ctx, e.protect, input, .original key⟩, bind_eq_ok.mpr ⟨_, hkey, hold ▸ rfl⟩, rfl, rfl,
      h.protect_eq, Or.inr ⟨hfresh, hold, Or.inr rfl⟩⟩
  · rw [hloaded]
    exact ⟨e, rfl, h⟩

theorem recipients_toyProtected (people : List ToyPerson)
    (removed : Option (List RemovedRecipient)) :
    (toyProtected sid payloadSid ⟨people.map (ToyPerson.wrap key), removed⟩ key content).recipients
      = handleTexts people :=
  handles_wraps key people

/-- Refreshing goes through. -/
theorem fileAt_rewrite
    (hkey : unwrapVerifiedFileContentKey toyCrypto input ctx.memberHandle ctx.keyCtx = .ok old)
    (htarget : ctx.targetMembers = target.map ToyPerson.member) {handles : List String}
    (hknown : Known target handles) (entropy : Entropy) {e : FileRewrapExecutor}
    (h : FileAt ctx input old sid payloadSid content people removed key renewed e) :
    ∃ e', e.rewriteRecipientWraps toyCrypto entropy handles = .ok e'
      ∧ FileAt ctx input old sid payloadSid content (refreshedIn target handles people) removed key
        renewed e' := by
  obtain ⟨opened, hensure, hopened⟩ := ensure_fileAt hkey h
  have hitems := @replaceRecipientWrapItems_toy .file sid key entropy.seed _ people _ hknown
  have hprotect : rewriteFileRecipientWraps toyCrypto opened.protect key handles
      opened.ctx.targetMembers entropy.seed = .ok (toyProtected sid payloadSid
        ⟨(refreshedIn target handles people).map (ToyPerson.wrap key), removed⟩ key content) := by
    rw [hopened.protect_eq, hopened.ctx_eq, htarget]
    exact bind_eq_ok.mpr ⟨_, hitems, rfl⟩
  exact ⟨_, bind_eq_ok.mpr ⟨_, hensure, bind_eq_ok.mpr ⟨_, hprotect, rfl⟩⟩, hopened.ctx_eq,
    hopened.verified_eq, rfl, hopened.holds⟩

/-- Adding goes through. -/
theorem fileAt_add
    (hkey : unwrapVerifiedFileContentKey toyCrypto input ctx.memberHandle ctx.keyCtx = .ok old)
    (htarget : ctx.targetMembers = target.map ToyPerson.member) {handles : List String}
    (hknown : Known target handles) (hfew : (addedTo target handles people).length ≤ 50)
    (entropy : Entropy) {e : FileRewrapExecutor}
    (h : FileAt ctx input old sid payloadSid content people removed key renewed e) :
    ∃ e', e.addRecipients toyCrypto entropy handles = .ok e'
      ∧ FileAt ctx input old sid payloadSid content (addedTo target handles people) removed key
        renewed e' := by
  obtain ⟨opened, hensure, hopened⟩ := ensure_fileAt hkey h
  have hitems := buildNewWrapItems_toy .file sid key entropy.seed hknown hfew
  have hprotect : addFileRecipients toyCrypto opened.protect key handles
      opened.ctx.targetMembers entropy.seed = .ok (toyProtected sid payloadSid
        ⟨(addedTo target handles people).map (ToyPerson.wrap key), removed⟩ key content) := by
    have hcount : (people.map (ToyPerson.wrap key)).length = people.length := List.length_map ..
    rw [hopened.protect_eq, hopened.ctx_eq, htarget, addFileRecipients, recipients_toyProtected,
      addedTo, List.map_append]
    rw [← hcount] at hitems
    exact bind_eq_ok.mpr ⟨_, hitems, rfl⟩
  exact ⟨_, bind_eq_ok.mpr ⟨_, hensure, bind_eq_ok.mpr ⟨_, hprotect, rfl⟩⟩, hopened.ctx_eq,
    hopened.verified_eq, rfl, hopened.holds⟩

/-- Rotating the key of the input goes through, for people the target knows. -/
theorem fileAt_rotate
    (hkey : unwrapVerifiedFileContentKey toyCrypto input ctx.memberHandle ctx.keyCtx = .ok old)
    (hpayload : decryptFilePayload toyCrypto input (payloadKey toyCrypto old sid) = .ok content)
    (htarget : ctx.targetMembers = target.map ToyPerson.member)
    (hknown : Known target (handleTexts people)) (hfew : people.length ≤ 50)
    (newSid : Uuid) (newKey : MasterKey) {e : FileRewrapExecutor}
    (h : FileAt ctx input old sid payloadSid content people removed key false e) :
    ∃ e', e.rotateKey toyCrypto (toyDraws newSid newKey) = .ok e'
      ∧ FileAt ctx input old sid payloadSid content (named target (handleTexts people)) removed
        newKey true e' := by
  obtain ⟨opened, hensure, hopened⟩ := ensure_fileAt hkey h
  obtain ⟨hold, hfresh⟩ : key = old ∧ ∀ k, e.contentKey ≠ .rotated k := by
    rcases h.holds with ⟨hrenewed, _⟩ | ⟨_, hold, hunloaded | hloaded⟩
    · cases hrenewed
    · exact ⟨hold, fun k hrotated => by cases hunloaded.symm.trans hrotated⟩
    · exact ⟨hold, fun k hrotated => by cases hloaded.symm.trans hrotated⟩
  have hcount : (named target (handleTexts people)).length ≤ 50 := by
    have hlength := congrArg List.length (handleTexts_named hknown)
    rw [handleTexts, handleTexts, List.length_map, List.length_map] at hlength
    rw [handleTexts, hlength]
    exact hfew
  have hrotated : rotateFileKey toyCrypto opened.protect opened.verified key
      opened.ctx.targetMembers (toyDraws newSid newKey) = .ok (newKey, toyProtected sid payloadSid
        ⟨(named target (handleTexts people)).map (ToyPerson.wrap newKey), removed⟩ newKey
          content) := by
    rw [hopened.protect_eq, hopened.verified_eq, hopened.ctx_eq, htarget, hold, rotateFileKey,
      recipients_toyProtected]
    exact bind_eq_ok.mpr ⟨_, hpayload, bind_eq_ok.mpr ⟨_, rfl, bind_eq_ok.mpr
      ⟨_, resolve_named hknown, bind_eq_ok.mpr
        ⟨_, buildWrapsForRecipients_toy .file sid newKey _ hcount, rfl⟩⟩⟩⟩
  refine ⟨{ opened with
    protect := toyProtected sid payloadSid
      ⟨(named target (handleTexts people)).map (ToyPerson.wrap newKey), removed⟩ newKey content
    contentKey := .rotated newKey }, ?_, hopened.ctx_eq, hopened.verified_eq, rfl,
    Or.inl ⟨rfl, rfl⟩⟩
  rw [FileRewrapExecutor.rotateKey]
  split
  · rename_i k hrot
    exact absurd hrot (hfresh k)
  · exact bind_eq_ok.mpr ⟨_, hensure, bind_eq_ok.mpr ⟨_, hrotated, rfl⟩⟩

/-- Removing goes through, and rotates. -/
theorem fileAt_remove
    (hkey : unwrapVerifiedFileContentKey toyCrypto input ctx.memberHandle ctx.keyCtx = .ok old)
    (hpayload : decryptFilePayload toyCrypto input (payloadKey toyCrypto old sid) = .ok content)
    (htarget : ctx.targetMembers = target.map ToyPerson.member) {handles : List String}
    (hknown : Known target ((handleTexts people).filter fun handle => handle ∉ handles))
    (hteam : Team (removedFrom target handles people)) (newSid : Uuid) (newKey : MasterKey)
    {e : FileRewrapExecutor}
    (h : FileAt ctx input old sid payloadSid content people removed key false e) :
    ∃ e', e.removeRecipients toyCrypto (toyDraws newSid newKey) handles = .ok e'
      ∧ FileAt ctx input old sid payloadSid content (removedFrom target handles people)
        (recordedIn people handles removed) newKey true e' := by
  have hrest : handleTexts (people.filter fun p => p.handle.text ∉ handles)
      = (handleTexts people).filter fun handle => handle ∉ handles := by
    rw [handleTexts, handleTexts, List.filter_map]
    rfl
  obtain ⟨hnonempty, hfew, _⟩ := hteam
  rw [removedFrom, handleTexts_named hknown, ← hrest] at hnonempty hfew
  have hremoved : removeFileRecipients e.protect handles (toyDraws newSid newKey).clock
      = .ok (toyProtected sid payloadSid
        ⟨(people.filter fun p => p.handle.text ∉ handles).map (ToyPerson.wrap key),
          recordedIn people handles removed⟩ key content) := by
    have hwrap : dropWraps (people.map (ToyPerson.wrap key))
          (collectRemovals (people.map (ToyPerson.wrap key)) handles)
        = (people.filter fun p => p.handle.text ∉ handles).map (ToyPerson.wrap key) := by
      rw [dropWraps_eq, ← filter_wraps]
      refine List.filter_congr fun item hitem => ?_
      rw [decide_eq_decide, mem_collectRemovals hitem]
    have hprotect : toyProtected sid payloadSid
          ⟨(people.filter fun p => p.handle.text ∉ handles).map (ToyPerson.wrap key),
            recordedIn people handles removed⟩ key content
        = { toyProtected sid payloadSid ⟨people.map (ToyPerson.wrap key), removed⟩ key content with
          removedRecipients := recordFileRemovals (toyDraws newSid newKey).clock 0
            (collectRemovals (people.map (ToyPerson.wrap key)) handles) removed
          wrap := dropWraps (people.map (ToyPerson.wrap key))
            (collectRemovals (people.map (ToyPerson.wrap key)) handles) } := by
      rw [hwrap, recordedIn, collectRemovals_wraps (pad 32 []) key]
      rfl
    have hsome : validateNotEmptyRecipients (toyProtected sid payloadSid
        ⟨(people.filter fun p => p.handle.text ∉ handles).map (ToyPerson.wrap key),
          recordedIn people handles removed⟩ key content).recipients = .ok () := by
      rw [recipients_toyProtected]
      cases hcase : handleTexts (people.filter fun p => p.handle.text ∉ handles) with
      | nil =>
        rw [hcase] at hnonempty
        cases hnonempty
      | cons handle rest => rfl
    rw [h.protect_eq]
    rw [hprotect] at hsome ⊢
    exact bind_eq_ok.mpr ⟨(), hsome, rfl⟩
  obtain ⟨e', hrotate, hat⟩ := @fileAt_rotate ctx input old key sid payloadSid content target
    (people.filter fun p => p.handle.text ∉ handles) (recordedIn people handles removed)
    hkey hpayload htarget (hrest ▸ hknown)
    (by rw [handleTexts, List.length_map] at hfew; exact hfew) newSid newKey
    ⟨e.ctx, toyProtected sid payloadSid
      ⟨(people.filter fun p => p.handle.text ∉ handles).map (ToyPerson.wrap key),
        recordedIn people handles removed⟩ key content, e.verified, e.contentKey⟩
    ⟨h.ctx_eq, h.verified_eq, rfl, h.holds⟩
  rw [hrest] at hat
  exact ⟨e', bind_eq_ok.mpr ⟨_, hremoved, hrotate⟩, hat⟩

/-- Writing goes through, and gives a toy file. -/
theorem fileAt_finalize
    (hkey : unwrapVerifiedFileContentKey toyCrypto input ctx.memberHandle ctx.keyCtx = .ok old)
    {p : ToyPerson} (hkid : p.kid = toyKid) (hctx : ctx.keyCtx = p.context) (hteam : Team people)
    (hremoved : ShortHistory removed) (drawnSid : Uuid) (drawnKey : MasterKey)
    {e : FileRewrapExecutor}
    (h : FileAt ctx input old sid payloadSid content people removed key renewed e) :
    ∃ output, e.finalize toyCrypto (toyDraws drawnSid drawnKey) = .ok (writeFileEnc output)
      ∧ ToyFile sid payloadSid ⟨people.map (ToyPerson.wrap key), removed⟩ key content p.handle
        p.secret output := by
  obtain ⟨opened, hensure, hopened⟩ := ensure_fileAt hkey h
  have hsigning : buildSigningContext toyCrypto opened.ctx.keyCtx
      = .ok (toySigning p.handle p.secret) := by
    rw [hopened.ctx_eq, hctx, ToyPerson.context, hkid]
    exact buildSigningContext_toy p.handle p.secret
  obtain ⟨signature, hsign⟩ := sign_toyProtected sid payloadSid
    ⟨people.map (ToyPerson.wrap key), removed⟩ key content p.handle p.secret
  refine ⟨_, bind_eq_ok.mpr ⟨_, hensure, bind_eq_ok.mpr ⟨_, hsigning, bind_eq_ok.mpr
    ⟨signature, ?_, ?_⟩⟩⟩, toyFile_of_sign (smallWraps_team hteam key) hremoved hsign⟩
  · dsimp only
    rw [hopened.protect_eq]
    exact hsign
  · dsimp only
    rw [hopened.protect_eq]
    rfl

/-- The steps between the removal and the rotation go through. -/
theorem fileAt_edits
    (hkey : unwrapVerifiedFileContentKey toyCrypto input ctx.memberHandle ctx.keyCtx = .ok old)
    (htarget : ctx.targetMembers = target.map ToyPerson.member) {stale added : List String}
    (hstale : Known target stale) (hadded : Known target added)
    (hteam : Team (addedTo target added (refreshedIn target stale people))) (draws : RewrapDraws)
    {e : FileRewrapExecutor}
    (h : FileAt ctx input old sid payloadSid content people removed key renewed e) :
    ∃ e₁ e₂, applyRecipientStep ((fileExecutor toyCrypto).rewriteRecipientWraps draws.stale) stale e
        = .ok e₁
      ∧ applyRecipientStep ((fileExecutor toyCrypto).addRecipients draws.add) added e₁ = .ok e₂
      ∧ FileAt ctx input old sid payloadSid content
        (addedTo target added (refreshedIn target stale people)) removed key renewed e₂ := by
  obtain ⟨e₁, hrewrite, hfirst⟩ : ∃ e₁, applyRecipientStep
      ((fileExecutor toyCrypto).rewriteRecipientWraps draws.stale) stale e = .ok e₁
      ∧ FileAt ctx input old sid payloadSid content (refreshedIn target stale people) removed key
        renewed e₁ := by
    cases stale with
    | nil =>
      rw [refreshedIn_nil]
      exact ⟨e, rfl, h⟩
    | cons handle rest => exact fileAt_rewrite hkey htarget hstale draws.stale h
  cases added with
  | nil =>
    rw [addedTo_nil]
    exact ⟨e₁, e₁, hrewrite, rfl, hfirst⟩
  | cons handle rest =>
    obtain ⟨e₂, hadd, hsecond⟩ := fileAt_add hkey htarget hadded hteam.length_le draws.add hfirst
    exact ⟨e₁, e₂, hrewrite, hadd, hsecond⟩

/-- A plan that removes nobody is carried out on a toy file. -/
theorem fileAt_keeping
    (hkey : unwrapVerifiedFileContentKey toyCrypto input ctx.memberHandle ctx.keyCtx = .ok old)
    (hpayload : decryptFilePayload toyCrypto input (payloadKey toyCrypto old sid) = .ok content)
    (htarget : ctx.targetMembers = target.map ToyPerson.member) {draws : RewrapDraws}
    (hdraws : ToyDrawn draws) {plan : RewrapOperationPlan} (hcourse : Course target people plan)
    (hclears : plan.clearDisclosureHistory = false) (hremoves : plan.removeRecipients = [])
    {e : FileRewrapExecutor}
    (h : FileAt ctx input old sid payloadSid content people removed key false e) :
    ∃ e' renewed, applyRewrapOperationPlan (fileExecutor toyCrypto) draws plan e = .ok e'
      ∧ FileAt ctx input old sid payloadSid content (rewrapped target people plan)
        (fileHistory people plan removed) (keyAfter draws plan key) renewed e' := by
  have hstayed : stayed target people plan = people := if_pos hremoves
  have hafter := hcourse.after
  have hknown := hcourse.known
  rw [wrappedAfter, hstayed] at hafter hknown
  obtain ⟨e₁, e₂, hstale, hadd, hat⟩ :=
    fileAt_edits hkey htarget hcourse.stale hcourse.add hafter draws h
  rw [fileHistory, if_pos hremoves, rewrapped, wrappedAfter, hstayed, keyAfter, renewalDraws,
    if_neg (not_not_intro hremoves)]
  cases hrotate : plan.rotateKey with
  | false =>
    rw [if_neg fun hboth => Bool.false_ne_true hboth.2]
    exact ⟨e₂, false, apply_of_steps hclears (step_of_nil _ hremoves e) hstale hadd
      (by rw [hrotate]; rfl), hat⟩
  | true =>
    obtain ⟨e₃, hrotated, hat'⟩ := fileAt_rotate hkey hpayload htarget (hknown hrotate)
      hafter.length_le draws.rotate.sid draws.rotate.masterKey hat
    rw [← hdraws.rotate] at hrotated
    rw [if_pos ⟨hremoves, rfl⟩]
    exact ⟨e₃, true, apply_of_steps hclears (step_of_nil _ hremoves e) hstale hadd
      (by rw [hrotate]; exact hrotated), hat'⟩

/-- And one that removes somebody: the key is drawn for the removal, and then not again. -/
theorem fileAt_removing
    (hkey : unwrapVerifiedFileContentKey toyCrypto input ctx.memberHandle ctx.keyCtx = .ok old)
    (hpayload : decryptFilePayload toyCrypto input (payloadKey toyCrypto old sid) = .ok content)
    (htarget : ctx.targetMembers = target.map ToyPerson.member) {draws : RewrapDraws}
    (hdraws : ToyDrawn draws) {plan : RewrapOperationPlan} (hcourse : Course target people plan)
    (hclears : plan.clearDisclosureHistory = false) (hremoves : plan.removeRecipients ≠ [])
    {e : FileRewrapExecutor}
    (h : FileAt ctx input old sid payloadSid content people removed key false e) :
    ∃ e' renewed, applyRewrapOperationPlan (fileExecutor toyCrypto) draws plan e = .ok e'
      ∧ FileAt ctx input old sid payloadSid content (rewrapped target people plan)
        (fileHistory people plan removed) (keyAfter draws plan key) renewed e' := by
  have hstayed : stayed target people plan = removedFrom target plan.removeRecipients people :=
    if_neg hremoves
  have hkept := hcourse.kept
  have hafter := hcourse.after
  rw [wrappedAfter] at hafter
  rw [hstayed] at hkept hafter
  obtain ⟨e₁, hremove, hremoved⟩ := fileAt_remove hkey hpayload htarget
    (hcourse.remaining hremoves) hkept draws.remove.sid draws.remove.masterKey h
  rw [← hdraws.remove] at hremove
  obtain ⟨e₂, e₃, hstale, hadd, hat⟩ :=
    fileAt_edits hkey htarget hcourse.stale hcourse.add hafter draws hremoved
  have hagain : applyFlagStep plan.rotateKey ((fileExecutor toyCrypto).rotateKey draws.rotate) e₃
      = .ok e₃ := by
    obtain ⟨_, hheld⟩ : true = true ∧ e₃.contentKey = .rotated draws.remove.masterKey :=
      hat.holds.resolve_right fun hfresh => Bool.false_ne_true hfresh.1.symm
    cases plan.rotateKey with
    | false => rfl
    | true =>
      show FileRewrapExecutor.rotateKey toyCrypto draws.rotate e₃ = .ok e₃
      rw [FileRewrapExecutor.rotateKey, hheld]
  rw [fileHistory, if_neg hremoves, rewrapped, wrappedAfter, hstayed,
    if_neg fun hboth => hremoves hboth.1, keyAfter, renewalDraws, if_pos hremoves]
  exact ⟨e₃, true, apply_of_steps hclears (step_of_ne hremoves hremove) hstale hadd hagain, hat⟩

/-- **A TOY FILE IS REWRAPPED** for whomever its rewrapper asks for, and is a toy file again. -/
theorem rewrap_toyFile {p : ToyPerson} (hkid : p.kid = toyKid) (hp : p ∈ people)
    {draws : RewrapDraws} (hdraws : ToyDrawn draws) {signer : MemberHandle} {secret : Bytes}
    {doc : FileEncDocument} (hdoc : ToyFile sid payloadSid
      ⟨people.map (ToyPerson.wrap key), removed⟩ key content signer secret doc)
    (hsize : computeEncodedLen (content.length + 16) ≤ maxBase64CiphertextLength) {rotate : Bool}
    {plan : RewrapOperationPlan} (hplan : planBetween rotate people target = plan)
    (hcourse : Course target people plan)
    (hhistory : ShortHistory (fileHistory people plan removed)) :
    ∃ output, rewrapFileDocument toyCrypto draws (writeFileEnc doc) (rewrapFor p rotate target)
        = .ok (writeFileEnc output)
      ∧ ToyFile sid payloadSid ⟨(rewrapped target people plan).map
          (ToyPerson.wrap (keyAfter draws plan key)), fileHistory people plan removed⟩
        (keyAfter draws plan key) content p.handle p.secret output := by
  have hdocument : doc.protect
      = toyProtected sid payloadSid ⟨people.map (ToyPerson.wrap key), removed⟩ key content :=
    hdoc.protect_eq
  have hkey : unwrapVerifiedFileContentKey toyCrypto doc (rewrapFor p rotate target).memberHandle
      (rewrapFor p rotate target).keyCtx = .ok key :=
    bind_eq_ok.mpr ⟨key, unwrap_toyFile (smallWraps_team hcourse.before key) hdoc
      (List.mem_map_of_mem hp), bind_eq_ok.mpr ⟨(), hdoc.proof, rfl⟩⟩
  have hpayload : decryptFilePayload toyCrypto doc (payloadKey toyCrypto key sid)
      = .ok content := by
    have hdecrypt := decryptPayload_toyFile hdoc hsize
    rw [hdocument] at hdecrypt
    exact hdecrypt
  have hstart : FileAt (rewrapFor p rotate target) doc key sid payloadSid content people removed key
      false (FileRewrapExecutor.new doc (rewrapFor p rotate target)) :=
    ⟨rfl, rfl, hdocument, Or.inr ⟨rfl, rfl, Or.inl rfl⟩⟩
  have hplanned : planFor (fileExecutor toyCrypto) (rewrapFor p rotate target).options
      doc.protect.wrap (rewrapFor p rotate target).targetMembers
      (FileRewrapExecutor.new doc (rewrapFor p rotate target)) = plan := by
    have hcurrent : (fileExecutor toyCrypto).currentRecipients
        (FileRewrapExecutor.new doc (rewrapFor p rotate target)) = handleTexts people := by
      show doc.protect.wrap.map WrapItem.recipientHandle = _
      rw [hdocument]
      exact handles_wraps key people
    rw [planFor, hcurrent, hdocument, ← hplan, planBetween, collectStale_wraps (pad 32 []) key]
    rfl
  have hclears : plan.clearDisclosureHistory = false := by rw [← hplan]; rfl
  obtain ⟨e, renewed, happly, hat⟩ : ∃ e renewed, applyRewrapOperationPlan (fileExecutor toyCrypto)
        draws plan (FileRewrapExecutor.new doc (rewrapFor p rotate target)) = .ok e
      ∧ FileAt (rewrapFor p rotate target) doc key sid payloadSid content
        (rewrapped target people plan) (fileHistory people plan removed) (keyAfter draws plan key)
        renewed e := by
    by_cases hremoves : plan.removeRecipients = []
    · exact fileAt_keeping hkey hpayload rfl hdraws hcourse hclears hremoves hstart
    · exact fileAt_removing hkey hpayload rfl hdraws hcourse hclears hremoves hstart
  obtain ⟨output, hfinal, hfile⟩ := fileAt_finalize hkey hkid rfl hcourse.team hhistory
    draws.finalize.sid draws.finalize.masterKey hat
  rw [← hdraws.finalize] at hfinal
  exact ⟨output, rewrap_of_plan (A := fileAdapter toyCrypto) hdoc.verified rfl hplanned happly
    hfinal, hfile⟩

end Files

/-! ## Kv-enc -/

section Documents

variable {ctx : RewrapContext} {sid : Uuid} {key : MasterKey} {marks : List (String × Bool)}
variable {target people : List ToyPerson} {removed : Option (List RemovedRecipient)}
variable {renewed : Bool}

theorem toyMarks_flagged (hmarks : ToyMarks marks) (disclosed : Bool) :
    ToyMarks (flagged marks disclosed) := by
  have hkeys : (flagged marks disclosed).map Prod.fst = marks.map Prod.fst := by
    rw [flagged, List.map_map]
    rfl
  refine ⟨fun mark hmark => ?_, hkeys ▸ hmarks.sorted, ?_, fun mark hmark => ?_⟩
  · obtain ⟨old, hold, rfl⟩ := List.mem_map.mp hmark
    exact hmarks.names old hold
  · rw [flagged, List.length_map]
    exact hmarks.few
  · obtain ⟨old, hold, rfl⟩ := List.mem_map.mp hmark
    exact hmarks.short old hold

theorem toyMarks_after (hmarks : ToyMarks marks) (plan : RewrapOperationPlan) :
    ToyMarks (marksAfter plan marks) := by
  rw [marksAfter]
  split_ifs
  · exact toyMarks_flagged hmarks true
  · exact toyMarks_flagged hmarks _
  · exact hmarks

/-- An executor that stands on a toy document for some people. -/
structure KvAt (ctx : RewrapContext) (sid : Uuid) (people : List ToyPerson)
    (removed : Option (List RemovedRecipient)) (key : MasterKey) (marks : List (String × Bool))
    (renewed : Bool) (e : KvRewrapExecutor) : Prop where
  ctx_eq : e.ctx = ctx
  session_eq : e.session = ⟨e.session.verified, ctx.memberHandle, ctx.keyCtx⟩
  marked : ToyMarked sid ⟨people.map (ToyPerson.wrap key), removed⟩ key marks e.doc
  opens : e.session.unwrapMasterKey toyCrypto = .ok key
  reads : e.session.decryptAllValues toyCrypto = .ok (marks.map fun mark => (mark.1, "value"))
  flags : e.session.disclosed = marks.any Prod.snd
  state : e.masterKeyState = if renewed then .rotated else .original

/-- What the readers of a toy document get. -/
theorem decodeDecryptedKvValues_toy (marks : List (String × Bool)) :
    decodeDecryptedKvValues (marks.map fun mark => (mark.1, utf8 "value"))
      = .ok (marks.map fun mark => (mark.1, "value")) := by
  induction marks with
  | nil => rfl
  | cons mark marks ih =>
    have hvalue : decodeDecryptedKvValue mark.1 (utf8 "value") = .ok "value" := by
      rw [decodeDecryptedKvValue, show utf8Decode (utf8 "value") = some "value" by decide]
    exact bind_eq_ok.mpr ⟨_, hvalue, bind_eq_ok.mpr ⟨_, ih, rfl⟩⟩

/-- The text of a toy document is loaded. -/
theorem kvAt_load {p : ToyPerson} (hp : p ∈ people) (hmember : ctx.memberHandle = p.handle.text)
    (hctx : ctx.keyCtx = p.context) (hteam : Team people) (hremoved : ShortHistory removed)
    {signer : MemberHandle} {secret : Bytes} {text : String}
    (htext : ToyText sid ⟨people.map (ToyPerson.wrap key), removed⟩ key marks signer secret text)
    (renewed : Bool) :
    ∃ verified draft, verifyKvContent toyCrypto text = .ok verified
      ∧ VerifiedKvRewriteSession.buildUnsigned ⟨verified, ctx.memberHandle, ctx.keyCtx⟩
        verified.head = .ok draft
      ∧ verified.wrap = ⟨people.map (ToyPerson.wrap key), removed⟩
      ∧ KvAt ctx sid people removed key marks renewed
        ⟨⟨verified, ctx.memberHandle, ctx.keyCtx⟩, draft, ctx,
          if renewed then .rotated else .original⟩ := by
  obtain ⟨draft, signature, hmarked, hsigned, hverify⟩ := htext
  obtain ⟨reread, hreread, hagain⟩ := toyMarked_reread hmarked hverify
  have hchecked := ((smallWraps_team hteam key).toSmallWrap hremoved).toWrapChecked
  have hitem : toyWrap p.handle p.kid p.secret key ∈ people.map (ToyPerson.wrap key) :=
    List.mem_map_of_mem (f := ToyPerson.wrap key) hp
  obtain ⟨hunwrap, hproof⟩ := unwrap_toyMarked hchecked hmarked hsigned hitem
  have hreads := decrypt_toyMarked hchecked hmarked hsigned hitem
  refine ⟨_, reread, hverify, hreread, hmarked.data, rfl, rfl, hagain, ?_, ?_, ?_, rfl⟩
  · rw [hmember, hctx]
    exact bind_eq_ok.mpr ⟨key, hunwrap, bind_eq_ok.mpr ⟨(), hproof, rfl⟩⟩
  · rw [hmember, hctx]
    exact bind_eq_ok.mpr ⟨_, hreads, decodeDecryptedKvValues_toy marks⟩
  · show (marks.map (markedEntry key)).any (fun entry => entry.value.disclosed) = _
    rw [List.any_map]
    rfl

/-- A draft of a toy document is signed by somebody under the toy kid, and the text is accepted. -/
theorem toyText_sign {p : ToyPerson} (hteam : Team people) (hremoved : ShortHistory removed)
    (hmarks : ToyMarks marks) (hshort : stringSize p.handle.text ≤ 200) {draft : KvDocumentDraft}
    (h : ToyMarked sid ⟨people.map (ToyPerson.wrap key), removed⟩ key marks draft) :
    ∃ text, signUnsignedKvDocument toyCrypto draft key (toySigning p.handle p.secret) = .ok text
      ∧ ToyText sid ⟨people.map (ToyPerson.wrap key), removed⟩ key marks p.handle
        p.secret text := by
  have hsmall := (smallWraps_team hteam key).toSmallWrap hremoved
  obtain ⟨text, signature, htext, hsigned, hverify⟩ :=
    verify_toyMarked hsmall.fitting hsmall.elements hmarks h hshort p.secret
  exact ⟨text, htext, draft, signature, h, hsigned, hverify⟩

/-- Everybody with a wrap reads a toy document. -/
theorem toyText_read {p : ToyPerson} (hp : p ∈ people) (hteam : Team people)
    (hremoved : ShortHistory removed) {signer : MemberHandle} {secret : Bytes} {text : String}
    (htext : ToyText sid ⟨people.map (ToyPerson.wrap key), removed⟩ key marks signer secret text) :
    ∃ doc, verifyKvContent toyCrypto text = .ok doc ∧ doc.head.sid = sid
      ∧ doc.wrap = ⟨people.map (ToyPerson.wrap key), removed⟩
      ∧ unwrapMasterKeyWithContext toyCrypto .kv doc.head.sid doc.wrap.wrap p.handle.text p.context
        = .ok key
      ∧ decryptKvDocumentWithContext toyCrypto doc p.handle.text p.context
        = .ok (marks.map fun mark => (mark.1, utf8 "value")) := by
  obtain ⟨draft, signature, hmarked, hsigned, hverify⟩ := htext
  have hchecked := ((smallWraps_team hteam key).toSmallWrap hremoved).toWrapChecked
  have hitem : toyWrap p.handle p.kid p.secret key ∈ people.map (ToyPerson.wrap key) :=
    List.mem_map_of_mem (f := ToyPerson.wrap key) hp
  exact ⟨_, hverify, congrArg KvHeader.sid hmarked.head, hmarked.data,
    (unwrap_toyMarked hchecked hmarked hsigned hitem).1,
    decrypt_toyMarked hchecked hmarked hsigned hitem⟩

/-- Putting a wrap for other people in place. -/
theorem kvAt_withWrap {others : List ToyPerson} (hteam : Team others)
    (hremoved : ShortHistory removed)
    {e : KvRewrapExecutor} (h : KvAt ctx sid people removed key marks renewed e) :
    KvAt ctx sid others removed key marks renewed
      (e.withWrap ⟨others.map (ToyPerson.wrap key), removed⟩ toyTime) :=
  ⟨h.ctx_eq, h.session_eq,
    (h.marked.wrapMut ((smallWraps_team hteam key).toSmallWrap
      hremoved).toWrapChecked).setUpdatedAt,
    h.opens, h.reads, h.flags, h.state⟩

/-- Refreshing goes through. -/
theorem kvAt_rewrite (htarget : ctx.targetMembers = target.map ToyPerson.member)
    {handles : List String} (hknown : Known target handles)
    (hteam : Team (refreshedIn target handles people)) (hremoved : ShortHistory removed)
    (drawnSid : Uuid) (drawnKey : MasterKey) {e : KvRewrapExecutor}
    (h : KvAt ctx sid people removed key marks renewed e) :
    ∃ e', e.rewriteRecipientWraps toyCrypto (toyDraws drawnSid drawnKey) handles = .ok e'
      ∧ KvAt ctx sid (refreshedIn target handles people) removed key marks renewed e' := by
  have hitems := @replaceRecipientWrapItems_toy .kv e.doc.head.sid key
    (toyDraws drawnSid drawnKey).seed _ people _ hknown
  refine ⟨_, bind_eq_ok.mpr ⟨key, h.opens, bind_eq_ok.mpr ⟨⟨_, removed⟩, ?_, rfl⟩⟩,
    kvAt_withWrap hteam hremoved h⟩
  rw [h.marked.data, h.ctx_eq, htarget]
  exact bind_eq_ok.mpr ⟨_, hitems, rfl⟩

/-- Adding goes through. -/
theorem kvAt_add (htarget : ctx.targetMembers = target.map ToyPerson.member)
    {handles : List String} (hknown : Known target handles)
    (hteam : Team (addedTo target handles people)) (hremoved : ShortHistory removed)
    (drawnSid : Uuid) (drawnKey : MasterKey) {e : KvRewrapExecutor}
    (h : KvAt ctx sid people removed key marks renewed e) :
    ∃ e', e.addRecipients toyCrypto (toyDraws drawnSid drawnKey) handles = .ok e'
      ∧ KvAt ctx sid (addedTo target handles people) removed key marks renewed e' := by
  have hitems := buildNewWrapItems_toy .kv e.doc.head.sid key (toyDraws drawnSid drawnKey).seed
    hknown hteam.length_le
  have hcount : (people.map (ToyPerson.wrap key)).length = people.length := List.length_map ..
  rw [← hcount] at hitems
  refine ⟨_, bind_eq_ok.mpr ⟨key, h.opens, bind_eq_ok.mpr
    ⟨⟨(addedTo target handles people).map (ToyPerson.wrap key), removed⟩, ?_, rfl⟩⟩,
    kvAt_withWrap hteam hremoved h⟩
  rw [h.marked.data, h.ctx_eq, htarget, addKvRecipients, extractRecipientsFromWrap, handles_wraps,
    addedTo, List.map_append]
  exact bind_eq_ok.mpr ⟨_, hitems, rfl⟩

/-- Encrypting anew goes through, with the history that is folded in. -/
theorem kvAt_rebuild {p : ToyPerson} (hkid : p.kid = toyKid)
    (hmember : ctx.memberHandle = p.handle.text) (hctx : ctx.keyCtx = p.context)
    (htarget : ctx.targetMembers = target.map ToyPerson.member) (hmarks : ToyMarks marks)
    {request : KvRecipientRewriteRequest} (hknown : Known target request.newRecipients)
    (hteam : Team (named target request.newRecipients))
    (hp : p ∈ named target request.newRecipients)
    {history : Option (List RemovedRecipient)} (hhistory : ShortHistory history)
    (newSid : Uuid) (newKey : MasterKey) {e : KvRewrapExecutor}
    (hmutate : e.session.mutateWrap request (toyDraws newSid newKey).clock
      ⟨(named target request.newRecipients).map (ToyPerson.wrap newKey), none⟩
        = ⟨(named target request.newRecipients).map (ToyPerson.wrap newKey), history⟩)
    (h : KvAt ctx sid people removed key marks renewed e) :
    ∃ e', e.rewrapAndRebuild toyCrypto request (toyDraws newSid newKey) = .ok e'
      ∧ KvAt ctx newSid (named target request.newRecipients) history newKey
        (flagged marks request.disclosed) true e' := by
  have hshort : stringSize p.handle.text ≤ 200 := hteam.2.2.2 _ (List.mem_map_of_mem hp)
  have hsigning : buildSigningContext toyCrypto e.session.keyCtx
      = .ok (toySigning p.handle p.secret) := by
    rw [h.session_eq, hctx, ToyPerson.context, hkid]
    exact buildSigningContext_toy p.handle p.secret
  have hsmall := (smallWraps_team hteam newKey).toSmallWrap hhistory
  have hanew := encryptedDraft_marked newSid newKey hmarks request.disclosed
    (buildWrapsForRecipients_toy .kv newSid newKey (fun _ => []) hteam.length_le)
    (e.session.mutateWrap request (toyDraws newSid newKey).clock)
  rw [hmutate] at hanew
  obtain ⟨text, htext, htoy⟩ := toyText_sign (p := p) hteam hhistory
    (toyMarks_flagged hmarks request.disclosed) hshort
    (toyMarked_markedDraft newSid hsmall.toWrapChecked newKey (flagged marks request.disclosed))
  obtain ⟨verified, draft, hverify, hdraft, _, hat⟩ :=
    @kvAt_load ctx newSid newKey _ _ history p hp hmember hctx hteam hhistory _ _ _ htoy true
  have hwritten : e.session.rewrapKvWithRecipients toyCrypto e.ctx.targetMembers request
      (toyDraws newSid newKey) = .ok text := by
    rw [h.ctx_eq, htarget]
    exact bind_eq_ok.mpr ⟨_, resolve_named hknown, bind_eq_ok.mpr ⟨_, h.reads, bind_eq_ok.mpr
      ⟨_, hsigning, bind_eq_ok.mpr ⟨_, hanew, htext⟩⟩⟩⟩
  refine ⟨_, bind_eq_ok.mpr ⟨text, hwritten, bind_eq_ok.mpr ⟨_, bind_eq_ok.mpr ⟨_, hverify, rfl⟩,
    bind_eq_ok.mpr ⟨draft, ?_, rfl⟩⟩⟩, ?_⟩
  · rw [h.ctx_eq]
    exact hdraft
  · rw [h.ctx_eq]
    exact hat

theorem currentRecipients_kvAt {e : KvRewrapExecutor}
    (h : KvAt ctx sid people removed key marks renewed e) :
    e.currentRecipients = handleTexts people := by
  rw [KvRewrapExecutor.currentRecipients, extractRecipientsFromWrap, h.marked.data, handles_wraps]

/-- Removing goes through, and records. -/
theorem kvAt_remove {p : ToyPerson} (hkid : p.kid = toyKid)
    (hmember : ctx.memberHandle = p.handle.text) (hctx : ctx.keyCtx = p.context)
    (htarget : ctx.targetMembers = target.map ToyPerson.member) (hmarks : ToyMarks marks)
    {handles : List String}
    (hknown : Known target ((handleTexts people).filter fun handle => handle ∉ handles))
    (hteam : Team (removedFrom target handles people)) (hp : p ∈ removedFrom target handles people)
    (hhistory : ShortHistory (mergedIn people handles removed)) (newSid : Uuid) (newKey : MasterKey)
    {e : KvRewrapExecutor} (hwrap : e.session.verified.wrap
      = ⟨people.map (ToyPerson.wrap key), removed⟩)
    (h : KvAt ctx sid people removed key marks renewed e) :
    ∃ e', e.removeRecipients toyCrypto (toyDraws newSid newKey) handles = .ok e'
      ∧ KvAt ctx newSid (removedFrom target handles people) (mergedIn people handles removed) newKey
        (flagged marks true) true e' := by
  obtain ⟨e', hrebuild, hat⟩ := @kvAt_rebuild ctx sid key marks target people removed renewed p hkid
    hmember hctx htarget hmarks (KvRewrapExecutor.removalRequest
      ((handleTexts people).filter fun handle => handle ∉ handles) handles) hknown
      hteam hp _ hhistory
    newSid newKey e (by
      rw [VerifiedKvRewriteSession.mutateWrap, mergeRemovedHistoryFromOld, hwrap, mergedIn,
        recordRemovals_wraps key (pad 32 [])]
      rfl) h
  refine ⟨e', bind_eq_ok.mpr ⟨(), ?_, ?_⟩, hat⟩
  · have hnonempty := hteam.1
    rw [removedFrom, handleTexts_named hknown] at hnonempty
    rw [currentRecipients_kvAt h]
    cases hcase : (handleTexts people).filter fun handle => handle ∉ handles with
    | nil =>
      rw [hcase] at hnonempty
      cases hnonempty
    | cons handle rest => rfl
  · rw [currentRecipients_kvAt h]
    exact hrebuild

/-- Rotating goes through, and drops the history. -/
theorem kvAt_rotate {p : ToyPerson} (hkid : p.kid = toyKid)
    (hmember : ctx.memberHandle = p.handle.text) (hctx : ctx.keyCtx = p.context)
    (htarget : ctx.targetMembers = target.map ToyPerson.member) (hmarks : ToyMarks marks)
    (hknown : Known target (handleTexts people)) (hteam : Team people)
    (hp : p ∈ named target (handleTexts people)) (newSid : Uuid) (newKey : MasterKey)
    {e : KvRewrapExecutor} (h : KvAt ctx sid people removed key marks false e) :
    ∃ e', e.rotateKey toyCrypto (toyDraws newSid newKey) = .ok e'
      ∧ KvAt ctx newSid (named target (handleTexts people)) none newKey
        (flagged marks (marks.any Prod.snd)) true e' := by
  have hrequest : e.rotationRequest = {
      newRecipients := handleTexts people
      removedRecipients := []
      disclosed := marks.any Prod.snd
      preserveRemovedHistory := false } := by
    rw [KvRewrapExecutor.rotationRequest, currentRecipients_kvAt h, h.flags]
  obtain ⟨e', hrebuild, hat⟩ := @kvAt_rebuild ctx sid key marks target people removed false p hkid
    hmember hctx htarget hmarks e.rotationRequest (hrequest ▸ hknown)
    (hrequest ▸ team_named hteam hknown) (hrequest ▸ hp) none shortHistory_none newSid newKey e
    (by rw [hrequest]; rfl) h
  rw [hrequest] at hat
  refine ⟨e', ?_, hat⟩
  have hstate : e.masterKeyState ≠ .rotated := by
    rw [h.state]
    exact fun heq => by cases heq
  rw [KvRewrapExecutor.rotateKey, if_neg hstate]
  exact hrebuild

/-- The steps between the removal and the rotation go through. -/
theorem kvAt_edits (htarget : ctx.targetMembers = target.map ToyPerson.member)
    {stale added : List String} (hstale : Known target stale) (hadded : Known target added)
    (hrefreshed : Team (refreshedIn target stale people))
    (hteam : Team (addedTo target added (refreshedIn target stale people)))
    (hremoved : ShortHistory removed) {draws : RewrapDraws} (hdraws : ToyDrawn draws)
    {e : KvRewrapExecutor} (h : KvAt ctx sid people removed key marks renewed e) :
    ∃ e₁ e₂, applyRecipientStep ((kvExecutor toyCrypto).rewriteRecipientWraps draws.stale) stale e
        = .ok e₁
      ∧ applyRecipientStep ((kvExecutor toyCrypto).addRecipients draws.add) added e₁ = .ok e₂
      ∧ KvAt ctx sid (addedTo target added (refreshedIn target stale people)) removed key marks
        renewed e₂ := by
  obtain ⟨e₁, hrewrite, hfirst⟩ : ∃ e₁, applyRecipientStep
      ((kvExecutor toyCrypto).rewriteRecipientWraps draws.stale) stale e = .ok e₁
      ∧ KvAt ctx sid (refreshedIn target stale people) removed key marks renewed e₁ := by
    cases stale with
    | nil =>
      rw [refreshedIn_nil]
      exact ⟨e, rfl, h⟩
    | cons handle rest =>
      rw [hdraws.stale]
      exact kvAt_rewrite htarget hstale hrefreshed hremoved _ _ h
  cases added with
  | nil =>
    rw [addedTo_nil]
    exact ⟨e₁, e₁, hrewrite, rfl, hfirst⟩
  | cons handle rest =>
    rw [hdraws.add]
    obtain ⟨e₂, hadd, hsecond⟩ := kvAt_add htarget hadded hteam hremoved _ _ hfirst
    exact ⟨e₁, e₂, hrewrite, hadd, hsecond⟩

/-- Writing goes through, and gives a toy document. -/
theorem kvAt_finalize {p : ToyPerson} (hkid : p.kid = toyKid) (hctx : ctx.keyCtx = p.context)
    (hteam : Team people) (hremoved : ShortHistory removed) (hmarks : ToyMarks marks)
    (hp : p ∈ people) (drawnSid : Uuid) (drawnKey : MasterKey) {e : KvRewrapExecutor}
    (h : KvAt ctx sid people removed key marks renewed e) :
    ∃ text, e.finalize toyCrypto (toyDraws drawnSid drawnKey) = .ok text
      ∧ ToyText sid ⟨people.map (ToyPerson.wrap key), removed⟩ key marks p.handle
        p.secret text := by
  have hshort : stringSize p.handle.text ≤ 200 := hteam.2.2.2 _ (List.mem_map_of_mem hp)
  have hsigning : buildSigningContext toyCrypto e.session.keyCtx
      = .ok (toySigning p.handle p.secret) := by
    rw [h.session_eq, hctx, ToyPerson.context, hkid]
    exact buildSigningContext_toy p.handle p.secret
  obtain ⟨text, htext, htoy⟩ := toyText_sign (p := p) hteam hremoved hmarks hshort
    h.marked.setUpdatedAt
  exact ⟨text, bind_eq_ok.mpr ⟨key, h.opens, bind_eq_ok.mpr ⟨_, hsigning, htext⟩⟩, htoy⟩

/-- A plan that removes nobody is carried out on a toy document. -/
theorem kvAt_keeping {p : ToyPerson} (hkid : p.kid = toyKid)
    (hmember : ctx.memberHandle = p.handle.text) (hctx : ctx.keyCtx = p.context)
    (htarget : ctx.targetMembers = target.map ToyPerson.member) (hmarks : ToyMarks marks)
    {draws : RewrapDraws} (hdraws : ToyDrawn draws) {plan : RewrapOperationPlan}
    (hcourse : Course target people plan) (hclears : plan.clearDisclosureHistory = false)
    (hremoves : plan.removeRecipients = []) (hremoved : ShortHistory removed)
    (hends : p ∈ rewrapped target people plan) {e : KvRewrapExecutor}
    (h : KvAt ctx sid people removed key marks false e) :
    ∃ e' renewed, applyRewrapOperationPlan (kvExecutor toyCrypto) draws plan e = .ok e'
      ∧ KvAt ctx (sidAfter draws plan sid) (rewrapped target people plan)
        (kvHistory people plan removed) (keyAfter draws plan key) (marksAfter plan marks)
        renewed e' := by
  have hstayed : stayed target people plan = people := if_pos hremoves
  have hrefreshed := hcourse.refreshed
  have hafter := hcourse.after
  have hknown := hcourse.known
  rw [wrappedAfter, hstayed] at hafter hknown
  rw [hstayed] at hrefreshed
  obtain ⟨e₁, e₂, hstale, hadd, hat⟩ :=
    kvAt_edits htarget hcourse.stale hcourse.add hrefreshed hafter hremoved hdraws h
  rw [rewrapped, wrappedAfter, hstayed] at hends ⊢
  rw [kvHistory, marksAfter, if_neg (not_not_intro hremoves), if_neg (not_not_intro hremoves),
    keyAfter, sidAfter, renewalDraws, if_neg (not_not_intro hremoves)]
  cases hrotate : plan.rotateKey with
  | false =>
    rw [if_neg Bool.false_ne_true, if_neg Bool.false_ne_true,
      if_neg fun hboth : _ ∧ false = true => Bool.false_ne_true hboth.2]
    exact ⟨e₂, false, apply_of_steps hclears (step_of_nil _ hremoves e) hstale hadd
      (by rw [hrotate]; rfl), hat⟩
  | true =>
    rw [hrotate, if_pos ⟨hremoves, rfl⟩] at hends
    rw [if_pos rfl, if_pos rfl, if_pos ⟨hremoves, rfl⟩]
    obtain ⟨e₃, hrotated, hat'⟩ := kvAt_rotate hkid hmember hctx htarget hmarks (hknown hrotate)
      hafter hends draws.rotate.sid draws.rotate.masterKey hat
    rw [← hdraws.rotate] at hrotated
    exact ⟨e₃, true, apply_of_steps hclears (step_of_nil _ hremoves e) hstale hadd
      (by rw [hrotate]; exact hrotated), hat'⟩

/-- And one that removes somebody: the document is encrypted anew for that, and then not again. -/
theorem kvAt_removing {p : ToyPerson} (hkid : p.kid = toyKid)
    (hmember : ctx.memberHandle = p.handle.text) (hctx : ctx.keyCtx = p.context)
    (htarget : ctx.targetMembers = target.map ToyPerson.member) (hmarks : ToyMarks marks)
    {draws : RewrapDraws} (hdraws : ToyDrawn draws) {plan : RewrapOperationPlan}
    (hcourse : Course target people plan) (hclears : plan.clearDisclosureHistory = false)
    (hremoves : plan.removeRecipients ≠ [])
    (hhistory : ShortHistory (kvHistory people plan removed))
    (hstays : p ∈ stayed target people plan) {e : KvRewrapExecutor}
    (hwrap : e.session.verified.wrap = ⟨people.map (ToyPerson.wrap key), removed⟩)
    (h : KvAt ctx sid people removed key marks false e) :
    ∃ e' renewed, applyRewrapOperationPlan (kvExecutor toyCrypto) draws plan e = .ok e'
      ∧ KvAt ctx (sidAfter draws plan sid) (rewrapped target people plan)
        (kvHistory people plan removed) (keyAfter draws plan key) (marksAfter plan marks)
        renewed e' := by
  have hstayed : stayed target people plan = removedFrom target plan.removeRecipients people :=
    if_neg hremoves
  have hkept := hcourse.kept
  have hrefreshed := hcourse.refreshed
  have hafter := hcourse.after
  rw [wrappedAfter] at hafter
  rw [hstayed] at hkept hrefreshed hafter hstays
  rw [kvHistory, if_pos hremoves] at hhistory
  obtain ⟨e₁, hremove, hremoved⟩ := kvAt_remove hkid hmember hctx htarget hmarks
    (hcourse.remaining hremoves) hkept hstays hhistory draws.remove.sid draws.remove.masterKey
    hwrap h
  rw [← hdraws.remove] at hremove
  obtain ⟨e₂, e₃, hstale, hadd, hat⟩ :=
    kvAt_edits htarget hcourse.stale hcourse.add hrefreshed hafter hhistory hdraws hremoved
  have hagain : applyFlagStep plan.rotateKey ((kvExecutor toyCrypto).rotateKey draws.rotate) e₃
      = .ok e₃ := by
    cases plan.rotateKey with
    | false => rfl
    | true => exact if_pos hat.state
  rw [rewrapped, if_neg fun hboth => hremoves hboth.1, wrappedAfter, hstayed, kvHistory,
    if_pos hremoves, marksAfter, if_pos hremoves, keyAfter, sidAfter, renewalDraws, if_pos hremoves]
  exact ⟨e₃, true, apply_of_steps hclears (step_of_ne hremoves hremove) hstale hadd hagain, hat⟩

/-- **A TOY DOCUMENT IS REWRAPPED** for whomever its rewrapper asks for, and is a toy document
    again. -/
theorem rewrap_toyKv {p : ToyPerson} (hkid : p.kid = toyKid) (hp : p ∈ people)
    {draws : RewrapDraws} (hdraws : ToyDrawn draws) (hmarks : ToyMarks marks)
    {signer : MemberHandle} {secret : Bytes} {content : String}
    (hcontent : ToyText sid ⟨people.map (ToyPerson.wrap key), removed⟩ key marks signer
      secret content)
    {rotate : Bool} {plan : RewrapOperationPlan} (hplan : planBetween rotate people target = plan)
    (hcourse : Course target people plan) (hremoved : ShortHistory removed)
    (hhistory : ShortHistory (kvHistory people plan removed))
    (hstays : p ∈ stayed target people plan) (hends : p ∈ rewrapped target people plan) :
    ∃ text, rewrapKvDocument toyCrypto draws content (rewrapFor p rotate target) = .ok text
      ∧ ToyText (sidAfter draws plan sid) ⟨(rewrapped target people plan).map
          (ToyPerson.wrap (keyAfter draws plan key)), kvHistory people plan removed⟩
        (keyAfter draws plan key) (marksAfter plan marks) p.handle p.secret text := by
  obtain ⟨verified, draft, hverify, hdraft, hwrap, hstart⟩ := @kvAt_load (rewrapFor p rotate target)
    sid key marks people removed p hp rfl rfl hcourse.before hremoved _ _ _ hcontent false
  have hplanned : planFor (kvExecutor toyCrypto) (rewrapFor p rotate target).options
      verified.wrap.wrap (rewrapFor p rotate target).targetMembers
      ⟨⟨verified, p.handle.text, p.context⟩, draft, rewrapFor p rotate target, .original⟩
        = plan := by
    have hcurrent : (kvExecutor toyCrypto).currentRecipients
        ⟨⟨verified, p.handle.text, p.context⟩, draft, rewrapFor p rotate target, .original⟩
        = handleTexts people := currentRecipients_kvAt hstart
    rw [planFor, hcurrent, hwrap, ← hplan, planBetween, collectStale_wraps (pad 32 []) key]
    rfl
  have hclears : plan.clearDisclosureHistory = false := by rw [← hplan]; rfl
  obtain ⟨e, renewed, happly, hat⟩ : ∃ e renewed,
      applyRewrapOperationPlan (kvExecutor toyCrypto) draws plan
        ⟨⟨verified, p.handle.text, p.context⟩, draft, rewrapFor p rotate target, .original⟩ = .ok e
      ∧ KvAt (rewrapFor p rotate target) (sidAfter draws plan sid) (rewrapped target people plan)
        (kvHistory people plan removed) (keyAfter draws plan key) (marksAfter plan marks)
        renewed e := by
    by_cases hremoves : plan.removeRecipients = []
    · exact kvAt_keeping hkid rfl rfl rfl hmarks hdraws hcourse hclears hremoves hremoved hends
        hstart
    · exact kvAt_removing hkid rfl rfl rfl hmarks hdraws hcourse hclears hremoves hhistory hstays
        hwrap hstart
  obtain ⟨text, hfinal, htext⟩ := kvAt_finalize hkid rfl hcourse.team hhistory
    (toyMarks_after hmarks plan) hends draws.finalize.sid draws.finalize.masterKey hat
  rw [← hdraws.finalize] at hfinal
  exact ⟨text, rewrap_of_plan (A := kvAdapter toyCrypto) hverify
    (bind_eq_ok.mpr ⟨draft, hdraft, rfl⟩) hplanned happly hfinal, htext⟩

end Documents

/-! ## Alice and the others -/

/-- Alice. -/
def aliceOnly : ToyPerson where
  handle := alice
  kid := toyKid
  secret := []

/-- Bob, with a secret of his own. -/
def bobOnly : ToyPerson where
  handle := bob
  kid := bobKid
  secret := [2]

/-- Bob, with the key he had before. -/
def bobBefore : ToyPerson where
  handle := bob
  kid := ⟨"22222222222222222222222222222222", by decide⟩
  secret := [3]

def carolOnly : ToyPerson where
  handle := ⟨"carol", by decide⟩
  kid := ⟨"33333333333333333333333333333333", by decide⟩
  secret := [4]

def daveOnly : ToyPerson where
  handle := ⟨"dave", by decide⟩
  kid := ⟨"44444444444444444444444444444444", by decide⟩
  secret := [5]

/-- Draws of a rewrap: the keys of a removal and of a rotation. -/
def drawsOf (remove rotate : Bytes) : RewrapDraws where
  remove := toyDraws freshSid (pad 32 remove)
  stale := toyDraws freshSid (pad 32 [3])
  add := toyDraws freshSid (pad 32 [4])
  rotate := toyDraws freshSid (pad 32 rotate)
  finalize := toyDraws freshSid (pad 32 [6])

def sameDraws : RewrapDraws := drawsOf [2] [5]

theorem toyDrawn_drawsOf (remove rotate : Bytes) : ToyDrawn (drawsOf remove rotate) :=
  ⟨rfl, rfl, rfl, rfl, rfl⟩

/-- A rotation by alice, for herself. -/
def aliceRotates : RewrapContext := rewrapFor aliceOnly true [aliceOnly]

theorem course_rotation : Course [aliceOnly] [aliceOnly] ⟨[], [], [], true, false⟩ where
  remaining := fun h => absurd rfl h
  stale := by decide
  add := by decide
  known := fun _ => by decide
  before := by decide
  kept := by decide
  refreshed := by decide
  after := by decide

/-- The people of a document, before somebody leaves. -/
def teamBefore : List ToyPerson := [aliceOnly, bobBefore, carolOnly]

/-- And after: carol has left, bob has a new key, and dave has joined. -/
def teamAfter : List ToyPerson := [aliceOnly, bobOnly, daveOnly]

/-- And later on: carol is back. -/
def teamLater : List ToyPerson := [aliceOnly, bobOnly, daveOnly, carolOnly]

/-- Alice has the change carried out. -/
def aliceChanges : RewrapContext := rewrapFor aliceOnly false teamAfter

/-- Alice has carol put back. -/
def aliceAdds : RewrapContext := rewrapFor aliceOnly false teamLater

/-- And has the key rotated. -/
def aliceRenews : RewrapContext := rewrapFor aliceOnly true teamLater

def changePlan : RewrapOperationPlan := ⟨["carol"], ["bob"], ["dave"], false, false⟩

theorem plan_change : planBetween false teamBefore teamAfter = changePlan := by decide

theorem course_change : Course teamAfter teamBefore changePlan where
  remaining := fun _ => by decide
  stale := by decide
  add := by decide
  known := fun h => by cases h
  before := by decide
  kept := by decide
  refreshed := by decide
  after := by decide

theorem course_addition : Course teamLater teamAfter ⟨[], [], ["carol"], false, false⟩ where
  remaining := fun h => absurd rfl h
  stale := by decide
  add := by decide
  known := fun h => by cases h
  before := by decide
  kept := by decide
  refreshed := by decide
  after := by decide

theorem course_renewal : Course teamLater teamLater ⟨[], [], [], true, false⟩ where
  remaining := fun h => absurd rfl h
  stale := by decide
  add := by decide
  known := fun _ => by decide
  before := by decide
  kept := by decide
  refreshed := by decide
  after := by decide

/-- Carol, in a history. -/
def carolRemoved : List RemovedRecipient := [⟨"carol", carolOnly.kid.text, toyTime.text⟩]

theorem shortHistory_carol : ShortHistory (some carolRemoved) := by
  rintro history ⟨⟩
  refine ⟨by decide, fun r hr => ?_⟩
  rw [List.mem_singleton.mp hr]
  exact ⟨by decide, by decide⟩

/-- Entries of both kinds. -/
def mixedMarks : List (String × Bool) := [("A", true), ("B", false), ("C", true)]

theorem toyMarks_mixedMarks : ToyMarks mixedMarks :=
  ⟨by decide, by decide, by decide, by decide⟩

section Runs

variable {sid payloadSid : Uuid} {key : MasterKey} {content : Bytes} {marks : List (String × Bool)}
variable {removed : Option (List RemovedRecipient)} {signer : MemberHandle} {secret : Bytes}
variable {text : String} {doc : FileEncDocument} {people : List ToyPerson} {remove rotate : Bytes}

/-- There are such documents. -/
theorem toyText_people (sid : Uuid) (hteam : Team people) (hremoved : ShortHistory removed)
    (key : MasterKey) (hmarks : ToyMarks marks) {p : ToyPerson} (hp : p ∈ people) :
    ∃ text, ToyText sid ⟨people.map (ToyPerson.wrap key), removed⟩ key marks p.handle
      p.secret text := by
  have hsmall := (smallWraps_team hteam key).toSmallWrap hremoved
  obtain ⟨text, _, htext⟩ := toyText_sign (p := p) hteam hremoved hmarks
    (hteam.2.2.2 _ (List.mem_map_of_mem hp))
    (toyMarked_markedDraft sid hsmall.toWrapChecked key marks)
  exact ⟨text, htext⟩

/-- Alice rotates a document of hers, and goes on under the drawn sid, without its history. -/
theorem rotated_toyKv (hmarks : ToyMarks marks) (hremoved : ShortHistory removed)
    (h : ToyText sid ⟨[aliceOnly].map (ToyPerson.wrap key), removed⟩ key marks signer secret text) :
    ∃ rotated, rewrapKvDocument toyCrypto sameDraws text aliceRotates = .ok rotated
      ∧ ToyText freshSid ⟨[aliceOnly].map (ToyPerson.wrap (pad 32 [5])), none⟩ (pad 32 [5])
        (flagged marks (marks.any Prod.snd)) alice [] rotated :=
  rewrap_toyKv rfl List.mem_cons_self (toyDrawn_drawsOf [2] [5]) hmarks h rfl
    course_rotation hremoved shortHistory_none List.mem_cons_self List.mem_cons_self

/-- Alice rotates a file of hers. -/
theorem rotated_toyFile (hremoved : ShortHistory removed)
    (hsize : computeEncodedLen (content.length + 16) ≤ maxBase64CiphertextLength)
    (h : ToyFile sid payloadSid ⟨[aliceOnly].map (ToyPerson.wrap key), removed⟩ key content signer
      secret doc) :
    ∃ rotated, rewrapFileDocument toyCrypto sameDraws (writeFileEnc doc) aliceRotates
        = .ok (writeFileEnc rotated)
      ∧ ToyFile sid payloadSid ⟨[aliceOnly].map (ToyPerson.wrap (pad 32 [5])), removed⟩ (pad 32 [5])
        content alice [] rotated :=
  rewrap_toyFile rfl List.mem_cons_self (toyDrawn_drawsOf [2] [5]) h hsize rfl
    course_rotation hremoved

/-- Alice has the change carried out on a document: carol is recorded. -/
theorem changed_toyKv (hmarks : ToyMarks marks)
    (h : ToyText sid ⟨teamBefore.map (ToyPerson.wrap key), none⟩ key marks signer secret text) :
    ∃ changed, rewrapKvDocument toyCrypto (drawsOf remove rotate) text aliceChanges = .ok changed
      ∧ ToyText freshSid ⟨teamAfter.map (ToyPerson.wrap (pad 32 remove)), some carolRemoved⟩
        (pad 32 remove) (flagged marks true) alice [] changed :=
  rewrap_toyKv rfl List.mem_cons_self (toyDrawn_drawsOf remove rotate) hmarks h plan_change
    course_change shortHistory_none shortHistory_carol List.mem_cons_self List.mem_cons_self

/-- And on a file. -/
theorem changed_toyFile
    (hsize : computeEncodedLen (content.length + 16) ≤ maxBase64CiphertextLength)
    (h : ToyFile sid payloadSid ⟨teamBefore.map (ToyPerson.wrap key), none⟩ key
      content signer secret doc) :
    ∃ changed, rewrapFileDocument toyCrypto (drawsOf remove rotate) (writeFileEnc doc) aliceChanges
        = .ok (writeFileEnc changed)
      ∧ ToyFile sid payloadSid ⟨teamAfter.map (ToyPerson.wrap (pad 32 remove)), some carolRemoved⟩
        (pad 32 remove) content alice [] changed :=
  rewrap_toyFile rfl List.mem_cons_self (toyDrawn_drawsOf remove rotate) h hsize plan_change
    course_change shortHistory_carol

/-- Carol comes back: the key stays in force. -/
theorem added_toyKv (hmarks : ToyMarks marks) (hremoved : ShortHistory removed)
    (h : ToyText sid ⟨teamAfter.map (ToyPerson.wrap key), removed⟩ key marks signer secret text) :
    ∃ added, rewrapKvDocument toyCrypto (drawsOf remove rotate) text
        aliceAdds = .ok added
      ∧ ToyText sid ⟨teamLater.map (ToyPerson.wrap key), removed⟩ key marks alice [] added :=
  rewrap_toyKv rfl List.mem_cons_self (toyDrawn_drawsOf remove rotate) hmarks h (by decide)
    course_addition hremoved hremoved List.mem_cons_self List.mem_cons_self

theorem added_toyFile (hremoved : ShortHistory removed)
    (hsize : computeEncodedLen (content.length + 16) ≤ maxBase64CiphertextLength)
    (h : ToyFile sid payloadSid ⟨teamAfter.map (ToyPerson.wrap key), removed⟩ key
      content signer secret doc) :
    ∃ added, rewrapFileDocument toyCrypto (drawsOf remove rotate) (writeFileEnc doc)
        aliceAdds = .ok (writeFileEnc added)
      ∧ ToyFile sid payloadSid ⟨teamLater.map (ToyPerson.wrap key), removed⟩ key content alice []
        added :=
  rewrap_toyFile rfl List.mem_cons_self (toyDrawn_drawsOf remove rotate) h hsize (by decide)
    course_addition hremoved

/-- And the key is rotated. -/
theorem renewed_toyKv (hmarks : ToyMarks marks) (hremoved : ShortHistory removed)
    (h : ToyText sid ⟨teamLater.map (ToyPerson.wrap key), removed⟩ key marks signer secret text) :
    ∃ renewed, rewrapKvDocument toyCrypto (drawsOf remove rotate) text
        aliceRenews = .ok renewed
      ∧ ToyText freshSid ⟨teamLater.map (ToyPerson.wrap (pad 32 rotate)), none⟩ (pad 32 rotate)
        (flagged marks (marks.any Prod.snd)) alice [] renewed :=
  rewrap_toyKv rfl List.mem_cons_self (toyDrawn_drawsOf remove rotate) hmarks h (by decide)
    course_renewal hremoved shortHistory_none List.mem_cons_self List.mem_cons_self

theorem renewed_toyFile (hremoved : ShortHistory removed)
    (hsize : computeEncodedLen (content.length + 16) ≤ maxBase64CiphertextLength)
    (h : ToyFile sid payloadSid ⟨teamLater.map (ToyPerson.wrap key), removed⟩ key
      content signer secret doc) :
    ∃ renewed, rewrapFileDocument toyCrypto (drawsOf remove rotate) (writeFileEnc doc)
        aliceRenews = .ok (writeFileEnc renewed)
      ∧ ToyFile sid payloadSid ⟨teamLater.map (ToyPerson.wrap (pad 32 rotate)), removed⟩
        (pad 32 rotate) content alice [] renewed :=
  rewrap_toyFile rfl List.mem_cons_self (toyDrawn_drawsOf remove rotate) h hsize (by decide)
    course_renewal hremoved

end Runs

end ToyRewraps
