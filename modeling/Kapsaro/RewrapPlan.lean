import Kapsaro.Recipients

/-!
# Rewrap plan — the steps of a rewrap, for any backend

`feature/rewrap.rs`: a rewrap compares the current recipients with the target members, and applies
the difference through an executor.

* **`buildRewrapOperationPlan`**, **`collectStaleRecipientHandles`** — the difference.
* **`RewrapExecutor`** — the operations of a backend.
* **`applyRewrapOperationPlan`** — remove, rewrite stale wraps, add, rotate, clear; a step without
  work is skipped.  **`applyPlan_ok`** takes a successful run apart.
* **`RecipientLaws`** — how the operations of a backend edit its recipient table;
  **`recipients_of_plan`** shows that the plan brings any such table to the target.
-/

namespace RewrapPlan

open JsonText Limits WireModel DocumentTokens Envelope KeyedList Recipients

/-! ## The plan -/

structure RewrapOptions where
  rotateKey : Bool
  clearDisclosureHistory : Bool
deriving DecidableEq, Repr

/-- What a rewrap works with. -/
structure RewrapContext where
  options : RewrapOptions
  memberHandle : String
  keyCtx : CryptoContext
  targetMembers : List VerifiedRecipientKey

structure RewrapOperationPlan where
  removeRecipients : List String
  staleRecipientHandles : List String
  addRecipients : List String
  rotateKey : Bool
  clearDisclosureHistory : Bool
deriving DecidableEq, Repr

/-- The plan from the current and the target recipients. -/
def buildRewrapOperationPlan (currentRecipients targetRecipients staleRecipients : List String)
    (options : RewrapOptions) : RewrapOperationPlan where
  removeRecipients := currentRecipients.filter fun recipient => recipient ∉ targetRecipients
  staleRecipientHandles := staleRecipients
  addRecipients := targetRecipients.filter fun recipient => recipient ∉ currentRecipients
  rotateKey := options.rotateKey
  clearDisclosureHistory := options.clearDisclosureHistory

/-- A target member whose wrap is for another kid. -/
def staleHandle (currentWrap : List WrapItem) (member : VerifiedRecipientKey) : Option String :=
  ((currentWrap.find? fun wrap => wrap.recipientHandle = member.subjectHandle).filter
    fun wrap => wrap.kid ≠ member.kid).map fun _ => member.subjectHandle

def collectStaleRecipientHandles (currentWrap : List WrapItem)
    (targetMembers : List VerifiedRecipientKey) : List String :=
  targetMembers.filterMap (staleHandle currentWrap)

/-- The handles of the target members, sorted. -/
def collectTargetMemberHandles (targetMembers : List VerifiedRecipientKey) : List String :=
  sortBy id (targetMembers.map VerifiedRecipientKey.subjectHandle)

/-! ## Executors -/

/-- What each step of a rewrap draws. -/
structure RewrapDraws where
  remove : Entropy
  stale : Entropy
  add : Entropy
  rotate : Entropy
  finalize : Entropy

/-- The operations of a backend on its state. -/
structure RewrapExecutor (E : Type) where
  currentRecipients : E → List String
  addRecipients : Entropy → List String → E → Except Error E
  rewriteRecipientWraps : Entropy → List String → E → Except Error E
  removeRecipients : Entropy → List String → E → Except Error E
  rotateKey : Entropy → E → Except Error E
  clearDisclosureHistory : E → Except Error E
  finalize : Entropy → E → Except Error String

variable {E : Type}

/-- A step over recipients; without recipients it is skipped. -/
def applyRecipientStep (apply : List String → E → Except Error E) (recipients : List String)
    (executor : E) : Except Error E :=
  if recipients.isEmpty then .ok executor else apply recipients executor

/-- A step behind a flag. -/
def applyFlagStep (enabled : Bool) (apply : E → Except Error E) (executor : E) : Except Error E :=
  if enabled then apply executor else .ok executor

def applyRewrapOperationPlan (ops : RewrapExecutor E) (draws : RewrapDraws)
    (plan : RewrapOperationPlan) (executor : E) : Except Error E := do
  -- removals come first, so the later steps wrap for nobody who has just been removed
  let executor ← applyRecipientStep (ops.removeRecipients draws.remove) plan.removeRecipients
    executor
  let executor ← applyRecipientStep (ops.rewriteRecipientWraps draws.stale)
    plan.staleRecipientHandles executor
  let executor ← applyRecipientStep (ops.addRecipients draws.add) plan.addRecipients executor
  let executor ← applyFlagStep plan.rotateKey (ops.rotateKey draws.rotate) executor
  applyFlagStep plan.clearDisclosureHistory ops.clearDisclosureHistory executor

/-- Apply a plan and write the document. -/
def rewriteWithRewrapOperationPlan (ops : RewrapExecutor E) (draws : RewrapDraws)
    (plan : RewrapOperationPlan) (executor : E) : Except Error String := do
  let executor ← applyRewrapOperationPlan ops draws plan executor
  ops.finalize draws.finalize executor

/-- The plan for an executor over a document with these wraps. -/
def planFor (ops : RewrapExecutor E) (options : RewrapOptions) (currentWrap : List WrapItem)
    (targetMembers : List VerifiedRecipientKey) (executor : E) : RewrapOperationPlan :=
  buildRewrapOperationPlan (ops.currentRecipients executor)
    (collectTargetMemberHandles targetMembers)
    (collectStaleRecipientHandles currentWrap targetMembers) options

/-- A document format: how its text is verified, and its executor. -/
structure RewrapDocumentAdapter (V E : Type) where
  verifyContent : String → Except Error V
  currentWrapItems : V → List WrapItem
  buildExecutor : V → RewrapContext → Except Error E
  executor : RewrapExecutor E

variable {V : Type}

/-- Verify, plan, apply, write. -/
def rewrapDocumentWithCommonSkeleton (A : RewrapDocumentAdapter V E) (draws : RewrapDraws)
    (content : String) (ctx : RewrapContext) : Except Error String := do
  let verified ← A.verifyContent content
  let executor ← A.buildExecutor verified ctx
  rewriteWithRewrapOperationPlan A.executor draws
    (planFor A.executor ctx.options (A.currentWrapItems verified) ctx.targetMembers executor)
    executor

/-! ## Taking a run apart -/

/-- A step was skipped or done. -/
inductive Stepped (apply : E → Except Error E) (due : Prop) (before after : E) : Prop
  | skipped : ¬due → after = before → Stepped apply due before after
  | done : due → apply before = .ok after → Stepped apply due before after

theorem applyRecipientStep_ok {apply : List String → E → Except Error E}
    {recipients : List String} {before after : E}
    (h : applyRecipientStep apply recipients before = .ok after) :
    Stepped (apply recipients) (recipients ≠ []) before after := by
  rw [applyRecipientStep] at h
  cases recipients with
  | nil => exact .skipped (not_not_intro rfl) (Except.ok.inj h).symm
  | cons r rest => exact .done (List.cons_ne_nil r rest) h

theorem applyFlagStep_ok {apply : E → Except Error E} {enabled : Bool} {before after : E}
    (h : applyFlagStep enabled apply before = .ok after) :
    Stepped apply (enabled = true) before after := by
  cases enabled with
  | false => exact .skipped Bool.false_ne_true (Except.ok.inj h).symm
  | true => exact .done rfl h

/-- The states a plan goes through. -/
structure PlanRun (ops : RewrapExecutor E) (draws : RewrapDraws) (plan : RewrapOperationPlan)
    (e₀ e₁ e₂ e₃ e₄ e₅ : E) : Prop where
  remove : Stepped (ops.removeRecipients draws.remove plan.removeRecipients)
    (plan.removeRecipients ≠ []) e₀ e₁
  stale : Stepped (ops.rewriteRecipientWraps draws.stale plan.staleRecipientHandles)
    (plan.staleRecipientHandles ≠ []) e₁ e₂
  add : Stepped (ops.addRecipients draws.add plan.addRecipients) (plan.addRecipients ≠ []) e₂ e₃
  rotate : Stepped (ops.rotateKey draws.rotate) (plan.rotateKey = true) e₃ e₄
  clear : Stepped ops.clearDisclosureHistory (plan.clearDisclosureHistory = true) e₄ e₅

/-- **A SUCCESSFUL RUN**, step by step. -/
theorem applyPlan_ok {ops : RewrapExecutor E} {draws : RewrapDraws} {plan : RewrapOperationPlan}
    {e₀ e₅ : E} (h : applyRewrapOperationPlan ops draws plan e₀ = .ok e₅) :
    ∃ e₁ e₂ e₃ e₄, PlanRun ops draws plan e₀ e₁ e₂ e₃ e₄ e₅ := by
  obtain ⟨e₁, h₁, h⟩ := bind_eq_ok.mp h
  obtain ⟨e₂, h₂, h⟩ := bind_eq_ok.mp h
  obtain ⟨e₃, h₃, h⟩ := bind_eq_ok.mp h
  obtain ⟨e₄, h₄, h₅⟩ := bind_eq_ok.mp h
  exact ⟨e₁, e₂, e₃, e₄, applyRecipientStep_ok h₁, applyRecipientStep_ok h₂,
    applyRecipientStep_ok h₃, applyFlagStep_ok h₄, applyFlagStep_ok h₅⟩

/-- **A SUCCESSFUL REWRAP**: a verified text, a plan, its run, and the written text. -/
theorem rewrapDocument_ok {A : RewrapDocumentAdapter V E} {draws : RewrapDraws}
    {content text : String} {ctx : RewrapContext}
    (h : rewrapDocumentWithCommonSkeleton A draws content ctx = .ok text) :
    ∃ verified e₀ e₅, A.verifyContent content = .ok verified
      ∧ A.buildExecutor verified ctx = .ok e₀
      ∧ applyRewrapOperationPlan A.executor draws (planFor A.executor ctx.options
          (A.currentWrapItems verified) ctx.targetMembers e₀) e₀ = .ok e₅
      ∧ A.executor.finalize draws.finalize e₅ = .ok text := by
  obtain ⟨verified, hverify, h⟩ := bind_eq_ok.mp h
  obtain ⟨e₀, hbuild, h⟩ := bind_eq_ok.mp h
  obtain ⟨e₅, happly, h⟩ := bind_eq_ok.mp h
  exact ⟨verified, e₀, e₅, hverify, hbuild, happly, h⟩

/-- The draws of the step that renews the master key, when there is one: removal does, and
    rotation does unless a removal did. -/
def renewalDraws (draws : RewrapDraws) (plan : RewrapOperationPlan) : Option Entropy :=
  if plan.removeRecipients ≠ [] then some draws.remove
  else if plan.rotateKey then some draws.rotate
  else none

/-- A property that every operation keeps is kept by a step. -/
theorem Stepped.keeps {apply : E → Except Error E} {due : Prop} {before after : E} {P : E → Prop}
    (h : Stepped apply due before after) (hP : P before)
    (hkeep : ∀ {e e' : E}, P e → apply e = .ok e' → P e') : P after := by
  cases h with
  | skipped _ heq => exact heq ▸ hP
  | done _ happly => exact hkeep hP happly

/-! ## Recipient tables -/

/-- Who a table of wraps is for. -/
def recipientTable (items : List WrapItem) : List (String × String) :=
  items.map recipientOf

theorem keys_recipientTable (items : List WrapItem) :
    (recipientTable items).map Prod.fst = items.map WrapItem.recipientHandle := by
  rw [recipientTable, List.map_map]
  rfl

/-- The target of a rewrap. -/
def targetTable (targetMembers : List VerifiedRecipientKey) : List (String × String) :=
  targetMembers.map VerifiedRecipientKey.identity

theorem keys_targetTable (targetMembers : List VerifiedRecipientKey) :
    (targetTable targetMembers).map Prod.fst
      = targetMembers.map VerifiedRecipientKey.subjectHandle := by
  rw [targetTable, List.map_map]
  rfl

/-- Replacing the wraps of some handles edits the table. -/
theorem edited_replaced {target : List (String × String)} {items rebuilt : List WrapItem}
    {handles : List String} (hhandles : rebuilt.map WrapItem.recipientHandle = handles)
    (hbuilt : ∀ item ∈ rebuilt, recipientOf item ∈ target) :
    Edited target (· ∈ handles)
      (((recipientTable items).map Prod.fst).filter (· ∉ handles) ++ handles)
      (recipientTable items)
      (recipientTable ((items.filter fun item => item.recipientHandle ∉ handles) ++ rebuilt)) := by
  constructor
  · rw [keys_recipientTable, keys_recipientTable, List.map_append, hhandles, List.filter_map]
    rfl
  · intro pair hpair
    obtain ⟨item, hitem, rfl⟩ := List.mem_map.mp hpair
    rcases List.mem_append.mp hitem with hold | hnew
    · obtain ⟨hmem, hkept⟩ := List.mem_filter.mp hold
      exact Or.inr ⟨List.mem_map_of_mem hmem, of_decide_eq_true hkept⟩
    · exact Or.inl (hbuilt item hnew)

/-- Adding wraps for the handles that have none edits the table. -/
theorem edited_added {target : List (String × String)} {items added : List WrapItem}
    {handles : List String}
    (hhandles : added.map WrapItem.recipientHandle
      = handles.filter fun handle => handle ∉ items.map WrapItem.recipientHandle)
    (hbuilt : ∀ item ∈ added, recipientOf item ∈ target) :
    Edited target (fun _ => False)
      ((recipientTable items).map Prod.fst
        ++ handles.filter (· ∉ (recipientTable items).map Prod.fst))
      (recipientTable items) (recipientTable (items ++ added)) := by
  constructor
  · rw [keys_recipientTable, keys_recipientTable, List.map_append, hhandles]
  · intro pair hpair
    obtain ⟨item, hitem, rfl⟩ := List.mem_map.mp hpair
    rcases List.mem_append.mp hitem with hold | hnew
    · exact Or.inr ⟨List.mem_map_of_mem hold, not_false⟩
    · exact Or.inl (hbuilt item hnew)

/-- How the operations of a backend edit the recipient table it shows, on states that satisfy its
    invariant. -/
structure RecipientLaws (ops : RewrapExecutor E) (target : List (String × String))
    (view : E → List (String × String)) (Inv : E → Prop) : Prop where
  current : ∀ e, ops.currentRecipients e = (view e).map Prod.fst
  remove : ∀ {entropy handles e e'}, Inv e → ops.removeRecipients entropy handles e = .ok e' →
    Inv e' ∧ Edited target (fun _ => False) (((view e).map Prod.fst).filter (· ∉ handles))
      (view e) (view e')
  rewrite : ∀ {entropy handles e e'}, Inv e →
    ops.rewriteRecipientWraps entropy handles e = .ok e' →
    Inv e' ∧ Edited target (· ∈ handles)
      (((view e).map Prod.fst).filter (· ∉ handles) ++ handles) (view e) (view e')
  add : ∀ {entropy handles e e'}, Inv e → ops.addRecipients entropy handles e = .ok e' →
    Inv e' ∧ Edited target (fun _ => False)
      ((view e).map Prod.fst ++ handles.filter (· ∉ (view e).map Prod.fst)) (view e) (view e')
  rotate : ∀ {entropy e e'}, Inv e → ops.rotateKey entropy e = .ok e' →
    Inv e' ∧ Edited target (fun _ => False) ((view e).map Prod.fst) (view e) (view e')
  clear : ∀ {e e'}, Inv e → ops.clearDisclosureHistory e = .ok e' → view e' = view e

/-- A handle is stale when its wrap is for another kid than the target's. -/
theorem mem_collectStale {items : List WrapItem} {targetMembers : List VerifiedRecipientKey}
    (hitems : ((recipientTable items).map Prod.fst).Nodup) (handle : String) :
    handle ∈ collectStaleRecipientHandles items targetMembers
      ↔ ∃ v w, (handle, v) ∈ recipientTable items ∧ (handle, w) ∈ targetTable targetMembers
        ∧ v ≠ w := by
  rw [collectStaleRecipientHandles, List.mem_filterMap]
  constructor
  · rintro ⟨member, hmember, hstale⟩
    obtain ⟨item, hitem, rfl⟩ := Option.map_eq_some_iff.mp hstale
    obtain ⟨hfind, hkid⟩ := Option.filter_eq_some_iff.mp hitem
    have hhandle : item.recipientHandle = member.subjectHandle := by
      simpa using List.find?_some hfind
    refine ⟨item.kid, member.kid, ?_, List.mem_map_of_mem
      (f := VerifiedRecipientKey.identity) hmember, of_decide_eq_true hkid⟩
    rw [← hhandle]
    exact List.mem_map_of_mem (f := recipientOf) (List.mem_of_find?_eq_some hfind)
  · rintro ⟨v, w, hv, hw, hne⟩
    obtain ⟨item, hitem, hitemEq⟩ := List.mem_map.mp hv
    obtain ⟨member, hmember, hmemberEq⟩ := List.mem_map.mp hw
    obtain ⟨rfl, rfl⟩ := Prod.mk.inj hitemEq
    obtain ⟨hhandle, rfl⟩ := Prod.mk.inj hmemberEq
    refine ⟨member, hmember, ?_⟩
    have hfind : items.find? (fun wrap => wrap.recipientHandle = member.subjectHandle)
        = some item := by
      cases hcase : items.find? (fun wrap => wrap.recipientHandle = member.subjectHandle) with
      | none =>
        exact absurd (decide_eq_true hhandle.symm) (List.find?_eq_none.mp hcase item hitem)
      | some found =>
        have hfound : found.recipientHandle = member.subjectHandle := by
          simpa using List.find?_some hcase
        have hkeys : (items.map WrapItem.recipientHandle).Nodup := by
          rw [← keys_recipientTable]
          exact hitems
        rw [List.inj_on_of_nodup_map hkeys (List.mem_of_find?_eq_some hcase) hitem
          (hfound.trans hhandle)]
    rw [staleHandle, hfind, Option.filter_some, if_pos (decide_eq_true hne)]
    exact congrArg some hhandle

theorem nodup_collectStale {items : List WrapItem} {targetMembers : List VerifiedRecipientKey}
    (htarget : ((targetTable targetMembers).map Prod.fst).Nodup) :
    (collectStaleRecipientHandles items targetMembers).Nodup := by
  rw [keys_targetTable] at htarget
  have hsublist : (collectStaleRecipientHandles items targetMembers).Sublist
      (targetMembers.map VerifiedRecipientKey.subjectHandle) := by
    clear htarget
    induction targetMembers with
    | nil => exact List.Sublist.slnil
    | cons member members ih =>
      rw [collectStaleRecipientHandles, List.filterMap_cons, List.map_cons]
      cases hstale : staleHandle items member with
      | none => exact ih.cons _
      | some handle =>
        obtain ⟨_, _, rfl⟩ := Option.map_eq_some_iff.mp hstale
        exact ih.cons_cons _
  exact htarget.sublist hsublist

theorem mem_collectTargetMemberHandles (targetMembers : List VerifiedRecipientKey)
    (handle : String) :
    handle ∈ collectTargetMemberHandles targetMembers
      ↔ handle ∈ (targetTable targetMembers).map Prod.fst := by
  rw [collectTargetMemberHandles, (perm_sortBy _ _).mem_iff, keys_targetTable]

/-- **THE PLAN BRINGS THE TABLE TO THE TARGET**, for every backend that follows the laws. -/
theorem recipients_of_plan {ops : RewrapExecutor E} {draws : RewrapDraws}
    {options : RewrapOptions} {items : List WrapItem}
    {targetMembers : List VerifiedRecipientKey} {view : E → List (String × String)}
    {Inv : E → Prop} (laws : RecipientLaws ops (targetTable targetMembers) view Inv)
    {e₀ e₁ e₂ e₃ e₄ e₅ : E} (hinv : Inv e₀) (hview : view e₀ = recipientTable items)
    (hitems : (items.map WrapItem.recipientHandle).Nodup)
    (htarget : (targetMembers.map VerifiedRecipientKey.subjectHandle).Nodup)
    (hrun : PlanRun ops draws (planFor ops options items targetMembers e₀) e₀ e₁ e₂ e₃ e₄ e₅) :
    (view e₅).Perm (targetTable targetMembers) := by
  have hkeys₀ : ((view e₀).map Prod.fst).Nodup := by
    rw [hview, keys_recipientTable]
    exact hitems
  have hitems' : ((recipientTable items).map Prod.fst).Nodup := hview ▸ hkeys₀
  rw [← keys_targetTable] at htarget
  -- the handles that leave are those outside the target
  have hremove : Inv e₁ ∧ Edited (targetTable targetMembers) (fun _ => False)
      (((view e₀).map Prod.fst).filter (· ∈ (targetTable targetMembers).map Prod.fst))
      (view e₀) (view e₁) := by
    have hleave : (((view e₀).map Prod.fst).filter fun handle => handle ∉
          (planFor ops options items targetMembers e₀).removeRecipients)
        = ((view e₀).map Prod.fst).filter (· ∈ (targetTable targetMembers).map Prod.fst) := by
      refine List.filter_congr fun handle hhandle => ?_
      rw [planFor, buildRewrapOperationPlan, laws.current]
      simp only [List.mem_filter, hhandle, true_and, decide_eq_true_iff, not_not,
        mem_collectTargetMemberHandles]
    cases hrun.remove with
    | skipped hnone heq =>
      rw [heq, ← hleave, not_not.mp hnone]
      refine ⟨hinv, ?_⟩
      have hall : ((view e₀).map Prod.fst).filter (fun handle => handle ∉ ([] : List String))
          = (view e₀).map Prod.fst := List.filter_eq_self.mpr fun _ _ => by simp
      rw [hall]
      exact Edited.refl _ _
    | done _ happly =>
      rw [← hleave]
      exact laws.remove hinv happly
  have hstale : Inv e₂ ∧ Edited (targetTable targetMembers)
      (· ∈ collectStaleRecipientHandles items targetMembers)
      (((view e₁).map Prod.fst).filter
          (· ∉ collectStaleRecipientHandles items targetMembers)
        ++ collectStaleRecipientHandles items targetMembers) (view e₁) (view e₂) := by
    cases hrun.stale with
    | skipped hnone heq =>
      have hnil : collectStaleRecipientHandles items targetMembers = [] := not_not.mp hnone
      rw [heq, hnil]
      refine ⟨hremove.1, ?_, fun pair hpair => Or.inr ⟨hpair, List.not_mem_nil⟩⟩
      simp
    | done _ happly => exact laws.rewrite hremove.1 happly
  have hadd : Inv e₃ ∧ Edited (targetTable targetMembers) (fun _ => False)
      ((view e₂).map Prod.fst ++
        (planFor ops options items targetMembers e₀).addRecipients.filter
          (· ∉ (view e₂).map Prod.fst)) (view e₂) (view e₃) := by
    cases hrun.add with
    | skipped hnone heq =>
      rw [heq, not_not.mp hnone, List.filter_nil, List.append_nil]
      exact ⟨hstale.1, Edited.refl _ _⟩
    | done _ happly => exact laws.add hstale.1 happly
  have hrotate : Inv e₄ ∧ Edited (targetTable targetMembers) (fun _ => False)
      ((view e₃).map Prod.fst) (view e₃) (view e₄) := by
    cases hrun.rotate with
    | skipped _ heq =>
      rw [heq]
      exact ⟨hadd.1, Edited.refl _ _⟩
    | done _ happly => exact laws.rotate hadd.1 happly
  have hclear : view e₅ = view e₄ := by
    cases hrun.clear with
    | skipped _ heq => rw [heq]
    | done _ happly => exact laws.clear hrotate.1 happly
  rw [hclear]
  refine reconcile htarget hkeys₀ (nodup_collectStale htarget) ?_ ?_ ?_ hremove.2 hstale.2
    hadd.2 hrotate.2
  · intro handle
    rw [hview]
    exact mem_collectStale hitems' handle
  · have hsorted : (collectTargetMemberHandles targetMembers).Nodup := by
      rw [collectTargetMemberHandles, (perm_sortBy _ _).nodup_iff, ← keys_targetTable]
      exact htarget
    exact hsorted.filter _
  · intro handle
    rw [planFor, buildRewrapOperationPlan, laws.current, List.mem_filter,
      mem_collectTargetMemberHandles, decide_eq_true_iff]

/-- **A SETTLED TABLE NEEDS NO STEP**: when the wraps are for the target already, only the flags
    are left. -/
theorem buildPlan_settled {options : RewrapOptions} {items : List WrapItem}
    {targetMembers : List VerifiedRecipientKey}
    (hitems : (items.map WrapItem.recipientHandle).Nodup)
    (hsame : recipientTable items = targetTable targetMembers) :
    buildRewrapOperationPlan (items.map WrapItem.recipientHandle)
        (collectTargetMemberHandles targetMembers)
        (collectStaleRecipientHandles items targetMembers) options = {
      removeRecipients := []
      staleRecipientHandles := []
      addRecipients := []
      rotateKey := options.rotateKey
      clearDisclosureHistory := options.clearDisclosureHistory } := by
  have hkeys : (recipientTable items).map Prod.fst = items.map WrapItem.recipientHandle :=
    keys_recipientTable items
  have hremove : (items.map WrapItem.recipientHandle).filter
      (fun handle => handle ∉ collectTargetMemberHandles targetMembers) = [] := by
    refine List.filter_eq_nil_iff.mpr fun handle hhandle => ?_
    rw [decide_eq_true_iff, not_not, mem_collectTargetMemberHandles, ← hsame, hkeys]
    exact hhandle
  have hstale : collectStaleRecipientHandles items targetMembers = [] := by
    refine List.eq_nil_iff_forall_not_mem.mpr fun handle hhandle => ?_
    obtain ⟨v, w, hv, hw, hne⟩ := (mem_collectStale (hkeys ▸ hitems) handle).mp hhandle
    rw [← hsame] at hw
    have heq := List.inj_on_of_nodup_map (f := Prod.fst) (hkeys ▸ hitems) hv hw rfl
    exact hne (congrArg Prod.snd heq)
  have hadd : (collectTargetMemberHandles targetMembers).filter
      (fun handle => handle ∉ items.map WrapItem.recipientHandle) = [] := by
    refine List.filter_eq_nil_iff.mpr fun handle hhandle => ?_
    rw [mem_collectTargetMemberHandles, ← hsame, hkeys] at hhandle
    rw [decide_eq_true_iff, not_not]
    exact hhandle
  rw [buildRewrapOperationPlan, hremove, hstale, hadd]

theorem plan_settled {ops : RewrapExecutor E} {options : RewrapOptions} {items : List WrapItem}
    {targetMembers : List VerifiedRecipientKey} {e : E}
    (hcurrent : ops.currentRecipients e = items.map WrapItem.recipientHandle)
    (hitems : (items.map WrapItem.recipientHandle).Nodup)
    (hsame : recipientTable items = targetTable targetMembers) :
    planFor ops options items targetMembers e = {
      removeRecipients := []
      staleRecipientHandles := []
      addRecipients := []
      rotateKey := options.rotateKey
      clearDisclosureHistory := options.clearDisclosureHistory } := by
  rw [planFor, hcurrent]
  exact buildPlan_settled hitems hsame

/-- A rewrap of a settled document: rotate, clear, write. -/
theorem rewrap_settled {A : RewrapDocumentAdapter V E} {draws : RewrapDraws}
    {content text : String} {ctx : RewrapContext} {verified : V} {e₀ e₁ e₂ : E}
    (hverify : A.verifyContent content = .ok verified)
    (hbuild : A.buildExecutor verified ctx = .ok e₀)
    (hcurrent : A.executor.currentRecipients e₀
      = (A.currentWrapItems verified).map WrapItem.recipientHandle)
    (hitems : ((A.currentWrapItems verified).map WrapItem.recipientHandle).Nodup)
    (hsame : recipientTable (A.currentWrapItems verified) = targetTable ctx.targetMembers)
    (hrotate : applyFlagStep ctx.options.rotateKey (A.executor.rotateKey draws.rotate) e₀ = .ok e₁)
    (hclear : applyFlagStep ctx.options.clearDisclosureHistory A.executor.clearDisclosureHistory e₁
      = .ok e₂)
    (hfinal : A.executor.finalize draws.finalize e₂ = .ok text) :
    rewrapDocumentWithCommonSkeleton A draws content ctx = .ok text := by
  refine bind_eq_ok.mpr ⟨verified, hverify, bind_eq_ok.mpr ⟨e₀, hbuild, ?_⟩⟩
  rw [plan_settled hcurrent hitems hsame]
  exact bind_eq_ok.mpr ⟨e₂, bind_eq_ok.mpr ⟨e₀, rfl, bind_eq_ok.mpr ⟨e₀, rfl, bind_eq_ok.mpr
    ⟨e₀, rfl, bind_eq_ok.mpr ⟨e₁, hrotate, hclear⟩⟩⟩⟩, hfinal⟩

end RewrapPlan
