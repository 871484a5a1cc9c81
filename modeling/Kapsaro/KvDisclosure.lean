import Kapsaro.ToyRewraps

/-!
# KV disclosure — flags and history over a rewrap of a kv-enc document

`feature/kv/rewrite_session/history.rs` and `feature/rewrap/kv.rs`: an entry carries a flag that
somebody who is no recipient any more could read it, and the wrap carries the list of those who
were removed.  A document that is encrypted anew gets its flags and its history from the request:
a removal sets every flag and merges the histories, a rotation passes one flag for the whole
document and starts without a history.

* **`Renewal`** — the document a rewrap goes on with: the input, or the input encrypted anew for a
  removal or for a rotation.  **`renewal_run`** finds it for every run of a plan.
* **`rewrap_spells`** — what the written text says: the flags and the history of the renewal, or
  none after a clearing.
* **`FlagsHandled`** — what each kind of rewrap should do to the flags and to the history;
  **`flags_handled_iff`** — when it does.
-/

namespace KvDisclosure

open JsonText Limits WireTexts WireModel DocumentTokens KvLines TokenRecords Envelope KvDocument
open SignedArtifacts KeyedList KvDraft Recipients KvSession RewrapPlan KvRewrap JsonSize ToyCrypto
open ToyDocuments ToyRewraps

variable {C : Crypto}

/-! ## Flags and plans -/

/-- The flags of a document, under their keys. -/
def flags (doc : KvEncDocument) : List (String × Bool) :=
  doc.entries.map fun entry => (entry.key, entry.value.disclosed)

/-- The plan of a rewrap of a document. -/
def planOf (input : KvEncDocument) (ctx : RewrapContext) : RewrapOperationPlan :=
  buildRewrapOperationPlan (input.wrap.wrap.map WrapItem.recipientHandle)
    (collectTargetMemberHandles ctx.targetMembers)
    (collectStaleRecipientHandles input.wrap.wrap ctx.targetMembers) ctx.options

/-- The wraps of the recipients a plan removes. -/
def removedWraps (plan : RewrapOperationPlan) (input : KvEncDocument) : List WrapItem :=
  input.wrap.wrap.filter fun item => item.recipientHandle ∈ plan.removeRecipients

/-! ## A document encrypted anew -/

/-- It has the keys of the old one. -/
theorem keys_reencryptedFrom {ctx : RewrapContext} {old doc : KvEncDocument}
    {request : KvRecipientRewriteRequest} {entropy : Entropy} {kvMap : List (String × String)}
    {members : List VerifiedRecipientKey}
    (h : ReencryptedFrom C ctx old request entropy kvMap members doc) :
    (doc.entries.map KvEncEntry.key).Perm (old.entries.map KvEncEntry.key) := by
  obtain ⟨masterKey, _, hold⟩ := bind_eq_ok.mp h.plaintext
  obtain ⟨_, _, hold⟩ := bind_eq_ok.mp hold
  have hbefore := keys_of_decryptKvEntries hold
  have hafter := keys_of_decryptKvEntries h.fresh.values
  rw [← hbefore, ← hafter, textBytes, textBytes, List.map_map, List.map_map]
  exact (perm_sortBy _ _).map _

/-- Its history is the one asked for. -/
theorem history_reencryptedFrom {ctx : RewrapContext} {old doc : KvEncDocument}
    {request : KvRecipientRewriteRequest} {entropy : Entropy} {kvMap : List (String × String)}
    {members : List VerifiedRecipientKey}
    (h : ReencryptedFrom C ctx old request entropy kvMap members doc) :
    doc.wrap.removedRecipients = if request.preserveRemovedHistory then
        mergeRemovedHistory (recordRemovals old.wrap entropy.clock 1 request.removedRecipients none)
          old.wrap.removedRecipients
      else none := by
  obtain ⟨items, _, hwrap⟩ := h.fresh.wraps
  rw [hwrap, VerifiedKvRewriteSession.mutateWrap]
  cases request.preserveRemovedHistory with
  | true => rfl
  | false => rfl

/-- **ENCRYPTING ANEW** gives every entry the flag that was asked for. -/
theorem flags_rebuild (hC : Lawful C) {ctx : RewrapContext} {input : KvEncDocument}
    {drawn : Option Entropy} {e e' : KvRewrapExecutor} {request : KvRecipientRewriteRequest}
    {entropy : Entropy} (h : KvTracks C ctx input drawn e)
    (hrebuild : e.rewrapAndRebuild C request entropy = .ok e') :
    ∀ entry ∈ e'.session.verified.entries, entry.value.disclosed = request.disclosed := by
  obtain ⟨text, htext, hrebuild⟩ := bind_eq_ok.mp hrebuild
  obtain ⟨session, hsession, hrebuild⟩ := bind_eq_ok.mp hrebuild
  obtain ⟨verified, hverify, hsession⟩ := bind_eq_ok.mp hsession
  obtain rfl := Except.ok.inj hsession
  obtain ⟨doc, _, hrebuild⟩ := bind_eq_ok.mp hrebuild
  obtain rfl := Except.ok.inj hrebuild
  obtain ⟨content, headToken, sigToken, hold⟩ := h.accepted
  rw [h.ctx_eq, h.session_eq] at htext
  exact (reencryptedFrom_of_verify hC hold.keys htext hverify).2

/-! ## The renewal of a run -/

/-- The document a rewrap goes on with, once the recipients are removed and the key is rotated. -/
inductive Renewal (C : Crypto) (ctx : RewrapContext) (draws : RewrapDraws)
    (plan : RewrapOperationPlan) (input : KvEncDocument) : KvEncDocument → Prop
  | kept : plan.removeRecipients = [] → plan.rotateKey = false →
      Renewal C ctx draws plan input input
  | removed {remaining : List String} {kvMap : List (String × String)}
      {members : List VerifiedRecipientKey} {doc : KvEncDocument} :
      plan.removeRecipients ≠ [] →
      ReencryptedFrom C ctx input (KvRewrapExecutor.removalRequest remaining plan.removeRecipients)
        draws.remove kvMap members doc →
      (∀ entry ∈ doc.entries, entry.value.disclosed = true) →
      Renewal C ctx draws plan input doc
  | rotated {request : KvRecipientRewriteRequest} {kvMap : List (String × String)}
      {members : List VerifiedRecipientKey} {doc : KvEncDocument} :
      plan.removeRecipients = [] → plan.rotateKey = true →
      request.preserveRemovedHistory = false →
      ReencryptedFrom C ctx input request draws.rotate kvMap members doc →
      (∀ entry ∈ doc.entries, entry.value.disclosed = detectDisclosedEntries input) →
      Renewal C ctx draws plan input doc

/-- The draft holds the entries as its document was read. -/
def Untouched (e : KvRewrapExecutor) : Prop :=
  e.doc.entries = e.session.verified.entries.map fun entry =>
    .preserved entry.key entry.token entry.value

/-- The draft of a document holds the entries as they were read. -/
theorem entries_fromDocument {head : KvHeader} {doc : KvEncDocument} {draft : KvDocumentDraft}
    (h : KvDocumentBuilder.fromDocument head none doc = .ok draft) :
    draft.entries = doc.entries.map fun entry => .preserved entry.key entry.token entry.value := by
  obtain ⟨source, _, h⟩ := bind_eq_ok.mp h
  obtain rfl := Except.ok.inj h
  rfl

theorem untouched_rebuild {e e' : KvRewrapExecutor} {request : KvRecipientRewriteRequest}
    {entropy : Entropy} (h : e.rewrapAndRebuild C request entropy = .ok e') :
    e'.masterKeyState = .rotated ∧ Untouched e' := by
  obtain ⟨text, _, h⟩ := bind_eq_ok.mp h
  obtain ⟨session, _, h⟩ := bind_eq_ok.mp h
  obtain ⟨doc, hdoc, h⟩ := bind_eq_ok.mp h
  obtain rfl := Except.ok.inj h
  exact ⟨rfl, entries_fromDocument hdoc⟩

/-- What stays when wraps are added or replaced: the session and the entries of the draft. -/
structure SameSession (e e' : KvRewrapExecutor) : Prop where
  session : e'.session = e.session
  state : e'.masterKeyState = e.masterKeyState
  entries : e'.doc.entries = e.doc.entries

theorem sameSession_add {e e' : KvRewrapExecutor} {entropy : Entropy} {handles : List String}
    (h : e.addRecipients C entropy handles = .ok e') : SameSession e e' := by
  obtain ⟨masterKey, _, h⟩ := bind_eq_ok.mp h
  obtain ⟨wrap, _, h⟩ := bind_eq_ok.mp h
  obtain rfl := Except.ok.inj h
  exact ⟨rfl, rfl, rfl⟩

theorem sameSession_rewrite {e e' : KvRewrapExecutor} {entropy : Entropy} {handles : List String}
    (h : e.rewriteRecipientWraps C entropy handles = .ok e') : SameSession e e' := by
  obtain ⟨masterKey, _, h⟩ := bind_eq_ok.mp h
  obtain ⟨wrap, _, h⟩ := bind_eq_ok.mp h
  obtain rfl := Except.ok.inj h
  exact ⟨rfl, rfl, rfl⟩

/-- Adding and replacing wraps leaves the session alone. -/
theorem sameSession_steps {draws : RewrapDraws} {plan : RewrapOperationPlan}
    {e₀ e₁ e₂ e₃ e₄ e₅ : KvRewrapExecutor}
    (hrun : PlanRun (kvExecutor C) draws plan e₀ e₁ e₂ e₃ e₄ e₅) : SameSession e₁ e₃ := by
  have hstale : SameSession e₁ e₂ := by
    cases hrun.stale with
    | skipped _ heq => exact heq ▸ ⟨rfl, rfl, rfl⟩
    | done _ hstep => exact sameSession_rewrite hstep
  have hadd : SameSession e₂ e₃ := by
    cases hrun.add with
    | skipped _ heq => exact heq ▸ ⟨rfl, rfl, rfl⟩
    | done _ hstep => exact sameSession_add hstep
  exact ⟨hadd.session.trans hstale.session, hadd.state.trans hstale.state,
    hadd.entries.trans hstale.entries⟩

/-- **EVERY RUN GOES ON WITH A RENEWAL** of its input, whose entries the draft holds as they were
    read. -/
theorem renewal_run (hC : Lawful C) {ctx : RewrapContext} {input : KvEncDocument}
    {draws : RewrapDraws} {plan : RewrapOperationPlan} {e₀ e₁ e₂ e₃ e₄ e₅ : KvRewrapExecutor}
    (h : KvTracks C ctx input none e₀) (huntouched : Untouched e₀)
    (hrun : PlanRun (kvExecutor C) draws plan e₀ e₁ e₂ e₃ e₄ e₅) :
    Renewal C ctx draws plan input e₄.session.verified ∧ Untouched e₄ := by
  obtain ⟨hstate, hverified⟩ : e₀.masterKeyState = .original ∧ e₀.session.verified = input := by
    cases h.origin with
    | original hstate hverified => exact ⟨hstate, hverified⟩
  have hsame := sameSession_steps hrun
  have huntouched₃ : Untouched e₁ → Untouched e₃ := by
    intro h₁
    rw [Untouched, hsame.entries, hsame.session]
    exact h₁
  cases hrun.remove with
  | done hsome hremove =>
    -- the removal renews the key; the rotation has nothing left to do
    obtain ⟨_, _, kvMap, members, hfrom⟩ := tracks_remove hC h hremove
    obtain ⟨_, _, hrebuild⟩ := bind_eq_ok.mp hremove
    obtain ⟨hrotated, hfresh⟩ := untouched_rebuild hrebuild
    have hflags := flags_rebuild hC h hrebuild
    have heq : e₄ = e₃ := by
      cases hrun.rotate with
      | skipped _ heq => exact heq
      | done _ hrotate =>
        have hstep : KvRewrapExecutor.rotateKey C draws.rotate e₃ = .ok e₄ := hrotate
        rw [KvRewrapExecutor.rotateKey, if_pos (hsame.state.trans hrotated)] at hstep
        exact (Except.ok.inj hstep).symm
    rw [heq]
    rw [hverified] at hfrom
    refine ⟨?_, huntouched₃ hfresh⟩
    rw [hsame.session]
    exact .removed hsome hfrom hflags
  | skipped hnone heq =>
    subst heq
    have hnone' : plan.removeRecipients = [] := not_not.mp hnone
    cases hrun.rotate with
    | skipped hoff heq =>
      subst heq
      refine ⟨?_, huntouched₃ huntouched⟩
      rw [hsame.session, hverified]
      exact .kept hnone' (Bool.eq_false_iff.mpr hoff)
    | done hon hrotate =>
      have htracks : KvTracks C ctx input none e₃ :=
        hrun.add.keeps (hrun.stale.keeps h fun ht hstep => (tracks_rewrite ht hstep).1)
          fun ht hstep => (tracks_add ht hstep).1
      have hstep : KvRewrapExecutor.rotateKey C draws.rotate e₃ = .ok e₄ := hrotate
      rcases tracks_rotate hC htracks hstep with ⟨hrotated, _⟩ | ⟨_, _, _, kvMap, members, hfrom⟩
      · rw [hsame.state, hstate] at hrotated
        cases hrotated
      · rw [KvRewrapExecutor.rotateKey,
          if_neg (by rw [hsame.state, hstate]; exact fun h => by cases h)] at hstep
        have hflags := flags_rebuild hC htracks hstep
        rw [hsame.session, hverified] at hfrom
        refine ⟨.rotated hnone' hon rfl hfrom ?_, (untouched_rebuild hstep).2⟩
        intro entry hentry
        rw [hflags entry hentry]
        show detectDisclosedEntries e₃.session.verified = _
        rw [hsame.session, hverified]

/-! ## What the written text says -/

/-- **CLEARING THE FLAGS** of entries as they were read leaves no flag, and every key. -/
theorem flags_clearDisclosedFlags {entries : List KvEncEntry} {es : List KvDocumentEntry}
    {entries' : List KvEncEntry}
    (hclear : KvDocumentDraft.clearDisclosedFlagsFrom (entries.map fun entry =>
      .preserved entry.key entry.token entry.value) = .ok es)
    (hheld : List.Forall₂ Holds es entries') :
    entries'.map (fun entry => (entry.key, entry.value.disclosed))
      = entries.map fun entry => (entry.key, false) := by
  induction entries generalizing es entries' with
  | nil =>
    obtain rfl := Except.ok.inj hclear
    cases hheld
    rfl
  | cons entry entries ih =>
    obtain ⟨cleared, hfirst, hclear⟩ := bind_eq_ok.mp hclear
    obtain ⟨rest, hrest, hclear⟩ := bind_eq_ok.mp hclear
    obtain rfl := Except.ok.inj hclear
    cases hheld with
    | @cons _ held _ entries' hhead htail =>
      rw [List.map_cons, List.map_cons, ih hrest htail]
      refine congrArg (· :: _) ?_
      rw [KvDocumentDraft.clearDisclosedFlag] at hfirst
      by_cases hflag : entry.value.disclosed = true
      · rw [if_pos hflag] at hfirst
        obtain ⟨token, htoken, hfirst⟩ := bind_eq_ok.mp hfirst
        obtain rfl := Except.ok.inj hfirst
        obtain ⟨hkey, heq, _, hspelled⟩ := hhead
        have hnumbers := (bounded_entry { entry.value with disclosed := false }).numbers
        rw [encodeToken_eq hnumbers] at htoken
        obtain rfl := Except.ok.inj htoken
        rw [hkey, ← eq_of_tokenText (KvEntryValue.reads _) (KvEntryValue.reads _) hspelled]
      · rw [if_neg hflag] at hfirst
        obtain rfl := Except.ok.inj hfirst
        rw [hhead.1, Bool.eq_false_iff.mpr hflag]

/-- What a rewrap makes of the flags and the history of its renewal. -/
structure Written (cleared : Bool) (renewed doc : KvEncDocument) : Prop where
  flags : flags doc = if cleared then renewed.entries.map fun entry => (entry.key, false)
    else flags renewed
  history : doc.wrap.removedRecipients = if cleared then none else renewed.wrap.removedRecipients

/-- The plan of an executor that starts out on a document is the plan for that document. -/
theorem planFor_start {ctx : RewrapContext} {input : KvEncDocument} {e : KvRewrapExecutor}
    (hrecipients : recipients e = recipientTable input.wrap.wrap) :
    planFor (kvExecutor C) ctx.options input.wrap.wrap ctx.targetMembers e = planOf input ctx := by
  rw [planFor, planOf]
  show buildRewrapOperationPlan e.currentRecipients _ _ _ = _
  rw [currentRecipients_eq, hrecipients, keys_recipientTable]

/-- **WHAT A REWRAP WRITES**: the text spells a document with the flags and the history of a
    renewal of the input, or with none of them after a clearing. -/
theorem rewrap_spells (hC : Lawful C) {draws : RewrapDraws} {content text : String}
    {ctx : RewrapContext} {input : KvEncDocument} (hverify : verifyKvContent C content = .ok input)
    (hrewrap : rewrapKvDocument C draws content ctx = .ok text) :
    ∃ renewed doc, Renewal C ctx draws (planOf input ctx) input renewed ∧ Spells text doc
      ∧ Written ctx.options.clearDisclosureHistory renewed doc := by
  obtain ⟨verified, e₀, e₅, hverified, hnew, hplan, hfinal⟩ := rewrapDocument_ok hrewrap
  obtain rfl := Except.ok.inj (hverified.symm.trans hverify)
  obtain ⟨hrecipients, hinitial⟩ := tracks_initial hverify hnew
  -- The executor starts from the verified document, with no entry touched.
  have huntouched : Untouched e₀ := by
    obtain ⟨doc, hdoc, hnew⟩ := bind_eq_ok.mp hnew
    obtain rfl := Except.ok.inj hnew
    exact entries_fromDocument hdoc
  have hplanned := @planFor_start C ctx _ _ hrecipients
  have hplan' : applyRewrapOperationPlan (kvExecutor C) draws (planOf verified ctx) e₀
      = .ok e₅ := by
    rw [← hplanned]
    exact hplan
  obtain ⟨e₁, e₂, e₃, e₄, hrun⟩ := applyPlan_ok hplan'
  obtain ⟨hrenewal, huntouched₄⟩ := renewal_run hC hinitial huntouched hrun
  have htracks := tracks_run hC hinitial hrun
  obtain ⟨masterKey, signing, signature, _, _, hsigned⟩ := finalize_ok hfinal
  obtain ⟨content', headToken, sigToken, haccepted⟩ := htracks.accepted
  rw [hsigned.text_eq]
  cases hrun.clear with
  | skipped hoff heq =>
    subst heq
    have hoff' : ctx.options.clearDisclosureHistory = false := Bool.eq_false_iff.mpr hoff
    have hstands : Stands (e₅.doc.setUpdatedAt (draws.finalize.clock 0).text)
        e₅.session.verified.entries := ⟨htracks.stands.raw, htracks.stands.entries⟩
    have hvalid : ∀ entry ∈ e₅.doc.entries, isValidKeyName entry.key = true := by
      intro entry hentry
      rw [huntouched₄] at hentry
      obtain ⟨e, he, rfl⟩ := List.mem_map.mp hentry
      exact haccepted.keys e he
    refine ⟨_, _, hrenewal, .intro hstands hsigned.checked hvalid, ?_, ?_⟩
    · rw [hoff', if_neg Bool.false_ne_true]
      rfl
    · rw [hoff', if_neg Bool.false_ne_true]
      exact htracks.history
  | done hon hclear =>
    have hon' : ctx.options.clearDisclosureHistory = true := hon
    obtain ⟨_, _, _, entries, hstands, hsame⟩ := clear_ok htracks hclear
    obtain ⟨cleared, hcleared, hclear⟩ := bind_eq_ok.mp hclear
    obtain rfl := Except.ok.inj hclear
    obtain ⟨es, hes, hcleared⟩ := bind_eq_ok.mp hcleared
    obtain rfl := Except.ok.inj hcleared
    have hflags : entries.map (fun entry => (entry.key, entry.value.disclosed))
        = e₄.session.verified.entries.map fun entry => (entry.key, false) := by
      refine flags_clearDisclosedFlags ?_ hstands.entries
      rw [← huntouched₄]
      exact hes
    have hvalid : ∀ entry ∈ es, isValidKeyName entry.key = true := by
      intro e he
      obtain ⟨entry, hentry, hheld⟩ := exists_right_of_mem hstands.entries he
      obtain ⟨old, hold, hpayload⟩ := exists_left_of_mem hsame hentry
      rw [← hheld.key, hpayload.1]
      exact haccepted.keys old hold
    refine ⟨_, _, hrenewal, .intro ⟨hstands.raw, hstands.entries⟩ hsigned.checked hvalid, ?_, ?_⟩
    · rw [hon', if_pos rfl]
      exact hflags
    · rw [hon', if_pos rfl]
      rfl

/-! ## The history of a removal -/

/-- The kids of the recorded removals stay distinct. -/
theorem nodup_recordRemovals (oldWrap : KvWrap) (clock : Nat → Timestamp) (i : Nat)
    (handles : List String) {history : Option (List RemovedRecipient)}
    (h : (historyKids history).Nodup) :
    (historyKids (recordRemovals oldWrap clock i handles history)).Nodup := by
  induction handles generalizing i history with
  | nil => exact h
  | cons handle handles ih =>
    rw [recordRemovals]
    cases oldWrap.wrap.find? fun item => item.recipientHandle = handle with
    | none => exact ih i h
    | some item => exact ih (i + 1) (nodup_addToRemovedHistory h handle item.kid (clock i))

/-- The wraps that some handles have. -/
def wrapsOf (wrap : KvWrap) (handles : List String) : List WrapItem :=
  handles.filterMap fun handle => wrap.wrap.find? fun item => item.recipientHandle = handle

/-- A record stays while removals with other kids are recorded. -/
theorem mem_recordRemovals (oldWrap : KvWrap) (clock : Nat → Timestamp) (i : Nat)
    {handles : List String} {history : Option (List RemovedRecipient)}
    (h : (historyKids history).Nodup) {record : RemovedRecipient} (hmem : record ∈ history.getD [])
    (hother : record.kid ∉ (wrapsOf oldWrap handles).map WrapItem.kid) :
    record ∈ (recordRemovals oldWrap clock i handles history).getD [] := by
  induction handles generalizing i history with
  | nil => exact hmem
  | cons handle handles ih =>
    rw [recordRemovals]
    rw [wrapsOf, List.filterMap_cons] at hother
    cases hfind : oldWrap.wrap.find? fun item => item.recipientHandle = handle with
    | none =>
      rw [hfind] at hother
      exact ih i h hmem hother
    | some item =>
      rw [hfind, List.map_cons, List.mem_cons, not_or] at hother
      refine ih (i + 1) (nodup_addToRemovedHistory h handle item.kid (clock i)) ?_ hother.2
      exact (mem_addToRemovedHistory h).mpr (Or.inr ⟨hmem, hother.1⟩)

/-- **EVERY REMOVAL IS RECORDED**, when the removed wraps have distinct kids. -/
theorem recorded_recordRemovals (oldWrap : KvWrap) (clock : Nat → Timestamp) (i : Nat)
    {handles : List String} {history : Option (List RemovedRecipient)}
    (h : (historyKids history).Nodup)
    (hkids : ((wrapsOf oldWrap handles).map WrapItem.kid).Nodup) {item : WrapItem}
    (hitem : item ∈ wrapsOf oldWrap handles) :
    ∃ record ∈ (recordRemovals oldWrap clock i handles history).getD [],
      record.recipientHandle = item.recipientHandle ∧ record.kid = item.kid := by
  induction handles generalizing i history with
  | nil => cases hitem
  | cons handle handles ih =>
    rw [recordRemovals]
    rw [wrapsOf, List.filterMap_cons] at hkids hitem
    cases hfind : oldWrap.wrap.find? fun item => item.recipientHandle = handle with
    | none =>
      rw [hfind] at hkids hitem
      exact ih i h hkids hitem
    | some found =>
      rw [hfind, List.map_cons, List.nodup_cons] at hkids
      rw [hfind] at hitem
      have hnext := nodup_addToRemovedHistory h handle found.kid (clock i)
      rcases List.mem_cons.mp hitem with rfl | htail
      · have hhandle : item.recipientHandle = handle := by simpa using List.find?_some hfind
        refine ⟨⟨handle, item.kid, (clock i).text⟩, ?_, hhandle.symm, rfl⟩
        exact mem_recordRemovals oldWrap clock (i + 1) hnext
          ((mem_addToRemovedHistory h).mpr (Or.inl rfl)) hkids.1
      · exact ih (i + 1) hnext hkids.2 htail

/-- With one wrap for each handle, the handles of some wraps find these wraps. -/
theorem wrapsOf_handles {wrap : KvWrap} (h : (wrap.wrap.map WrapItem.recipientHandle).Nodup)
    {items : List WrapItem} (hsub : ∀ item ∈ items, item ∈ wrap.wrap) :
    wrapsOf wrap (items.map WrapItem.recipientHandle) = items := by
  induction items with
  | nil => rfl
  | cons item items ih =>
    have hfind : wrap.wrap.find? (fun other => other.recipientHandle = item.recipientHandle)
        = some item :=
      find?_eq_of_unique (hsub item List.mem_cons_self) (decide_eq_true rfl) fun other hother heq =>
        List.inj_on_of_nodup_map h hother (hsub item List.mem_cons_self) (of_decide_eq_true heq)
    rw [wrapsOf, List.map_cons, List.filterMap_cons, hfind]
    exact congrArg (item :: ·) (ih fun other hother => hsub other (List.mem_cons_of_mem _ hother))

/-- The wraps of the removed recipients are found by their handles. -/
theorem wrapsOf_removed {input : KvEncDocument}
    (h : (input.wrap.wrap.map WrapItem.recipientHandle).Nodup) (ctx : RewrapContext) :
    wrapsOf input.wrap (planOf input ctx).removeRecipients
      = removedWraps (planOf input ctx) input := by
  have hhandles : (planOf input ctx).removeRecipients
      = (removedWraps (planOf input ctx) input).map WrapItem.recipientHandle := by
    refine List.filter_map.trans (congrArg (List.map WrapItem.recipientHandle)
      (List.filter_congr ?_))
    intro item hitem
    have hmem : item.recipientHandle ∈ input.wrap.wrap.map WrapItem.recipientHandle :=
      List.mem_map_of_mem hitem
    refine (decide_eq_decide.mpr ?_).symm
    exact List.mem_filter.trans ⟨fun h => of_decide_eq_true h.2,
      fun h => ⟨hmem, decide_eq_true h⟩⟩
  rw [hhandles]
  refine wrapsOf_handles h ?_
  intro item hitem
  exact (List.mem_filter.mp hitem).1

/-! ## What a rewrap should do -/

/-- Every removed recipient is on record, under its handle and its kid. -/
def RemovalsRecorded (plan : RewrapOperationPlan) (input doc : KvEncDocument) : Prop :=
  ∀ item ∈ removedWraps plan input, ∃ record ∈ doc.wrap.removedRecipients.getD [],
    record.recipientHandle = item.recipientHandle ∧ record.kid = item.kid

/-- What each kind of rewrap should do to the flags and to the history. -/
structure FlagsHandled (plan : RewrapOperationPlan) (input doc : KvEncDocument) : Prop where
  /-- Rotating the key and nothing else keeps the flag of every entry. -/
  rotated : plan.clearDisclosureHistory = false → plan.rotateKey = true →
    plan.removeRecipients = [] → plan.staleRecipientHandles = [] → plan.addRecipients = [] →
    (flags doc).Perm (flags input)
  /-- Removing recipients marks every entry and records every removal. -/
  removed : plan.clearDisclosureHistory = false → plan.removeRecipients ≠ [] →
    (∀ entry ∈ doc.entries, entry.value.disclosed = true) ∧ RemovalsRecorded plan input doc
  /-- Adding and replacing wraps changes no flag. -/
  rewrapped : plan.clearDisclosureHistory = false → plan.rotateKey = false →
    plan.removeRecipients = [] → (flags doc).Perm (flags input)
  /-- Clearing leaves no flag and no history. -/
  cleared : plan.clearDisclosureHistory = true →
    (∀ entry ∈ doc.entries, entry.value.disclosed = false) ∧ doc.wrap.removedRecipients = none

/-- When a rewrap does so: it clears; or it removes wraps with distinct kids; or it removes none,
    and does not rotate the key, alone, of a document with both kinds of entries. -/
def HandlesFlags (plan : RewrapOperationPlan) (input : KvEncDocument) : Prop :=
  plan.clearDisclosureHistory = true
    ∨ plan.removeRecipients ≠ [] ∧ ((removedWraps plan input).map WrapItem.kid).Nodup
    ∨ plan.removeRecipients = [] ∧ (plan.rotateKey = true → plan.staleRecipientHandles = [] →
        plan.addRecipients = [] →
        ∀ e ∈ input.entries, ∀ f ∈ input.entries, e.value.disclosed = f.value.disclosed)

instance (plan : RewrapOperationPlan) (input : KvEncDocument) :
    Decidable (HandlesFlags plan input) := by
  unfold HandlesFlags
  infer_instance

/-- A document with one flag for all entries, next to another with the same keys: the flags agree
    exactly when the other has that flag on every entry. -/
theorem flags_perm_iff {input doc : KvEncDocument} {flag : Bool}
    (hkeys : (doc.entries.map KvEncEntry.key).Perm (input.entries.map KvEncEntry.key))
    (hflags : ∀ entry ∈ doc.entries, entry.value.disclosed = flag) :
    (flags doc).Perm (flags input) ↔ ∀ entry ∈ input.entries, entry.value.disclosed = flag := by
  have huniform : ∀ {d : KvEncDocument}, (∀ entry ∈ d.entries, entry.value.disclosed = flag) →
      flags d = (d.entries.map KvEncEntry.key).map fun key => (key, flag) := by
    intro d hd
    rw [flags, List.map_map]
    exact List.map_congr_left fun entry hentry => by rw [hd entry hentry]; rfl
  constructor
  · intro hperm entry hentry
    have hmem : (entry.key, entry.value.disclosed) ∈ flags doc :=
      hperm.mem_iff.mpr (List.mem_map_of_mem (f := fun e : KvEncEntry => (e.key, e.value.disclosed))
        hentry)
    obtain ⟨other, hother, heq⟩ := List.mem_map.mp hmem
    rw [← (Prod.mk.inj heq).2]
    exact hflags other hother
  · intro hinput
    rw [huniform hflags, huniform hinput]
    exact hkeys.map _

/-- The flag a rotation passes agrees with every entry exactly when all entries agree. -/
theorem detectDisclosedEntries_uniform (input : KvEncDocument) :
    (∀ entry ∈ input.entries, entry.value.disclosed = detectDisclosedEntries input)
      ↔ ∀ e ∈ input.entries, ∀ f ∈ input.entries, e.value.disclosed = f.value.disclosed := by
  constructor
  · intro h e he f hf
    rw [h e he, h f hf]
  · intro h entry hentry
    rw [detectDisclosedEntries, Bool.eq_iff_iff, List.any_eq_true]
    constructor
    · intro hflag
      exact ⟨entry, hentry, hflag⟩
    · rintro ⟨other, hother, hflag⟩
      rw [h entry hentry other hother]
      exact hflag

/-- **WHAT A REMOVAL RECORDS**: every removal, exactly when the removed wraps have distinct
    kids. -/
theorem removalsRecorded_iff {ctx : RewrapContext} {input renewed doc : KvEncDocument}
    {remaining : List String} {entropy : Entropy} {kvMap : List (String × String)}
    {members : List VerifiedRecipientKey}
    (hhandles : (input.wrap.wrap.map WrapItem.recipientHandle).Nodup)
    (hfrom : ReencryptedFrom C ctx input (KvRewrapExecutor.removalRequest remaining
      (planOf input ctx).removeRecipients) entropy kvMap members renewed)
    (hhistory : doc.wrap.removedRecipients = renewed.wrap.removedRecipients) :
    RemovalsRecorded (planOf input ctx) input doc
      ↔ ((removedWraps (planOf input ctx) input).map WrapItem.kid).Nodup := by
  have hmerged : doc.wrap.removedRecipients = mergeRemovedHistory (recordRemovals input.wrap
      entropy.clock 1 (planOf input ctx).removeRecipients none) input.wrap.removedRecipients :=
    hhistory.trans (history_reencryptedFrom hfrom)
  have hrecorded := nodup_recordRemovals input.wrap entropy.clock 1
    (planOf input ctx).removeRecipients (show (historyKids none).Nodup from List.nodup_nil)
  have hwraps := wrapsOf_removed hhandles ctx
  rw [RemovalsRecorded, hmerged]
  constructor
  · intro h
    have hnodup := nodup_mergeRemovedHistory hrecorded input.wrap.removedRecipients
    have hsub : (removedWraps (planOf input ctx) input).Nodup :=
      (List.Nodup.of_map _ hhandles).filter _
    refine hsub.map_on ?_
    intro a ha b hb hkid
    obtain ⟨r, hr, hrhandle, hrkid⟩ := h a ha
    obtain ⟨s, hs, hshandle, hskid⟩ := h b hb
    have heq : r = s := List.inj_on_of_nodup_map hnodup hr hs (by rw [hrkid, hskid, hkid])
    refine List.inj_on_of_nodup_map hhandles (List.mem_filter.mp ha).1 (List.mem_filter.mp hb).1 ?_
    rw [← hrhandle, ← hshandle, heq]
  · intro hkids item hitem
    rw [← hwraps] at hkids hitem
    obtain ⟨record, hrecord, hhandle, hkid⟩ := recorded_recordRemovals input.wrap entropy.clock 1
      (show (historyKids none).Nodup from List.nodup_nil) hkids hitem
    exact ⟨record, mem_mergeRemovedHistory hrecorded _ hrecord, hhandle, hkid⟩

/-- **WHEN A REWRAP HANDLES THE FLAGS**: the document its text spells is as it should be exactly
    when the rewrap clears, or removes wraps with distinct kids, or neither removes a recipient nor
    rotates, alone, the key of a document with both kinds of entries. -/
theorem flags_handled_iff (hC : Lawful C) {draws : RewrapDraws} {content text : String}
    {ctx : RewrapContext} {input : KvEncDocument} (hverify : verifyKvContent C content = .ok input)
    (hrewrap : rewrapKvDocument C draws content ctx = .ok text) :
    (∃ doc, Spells text doc ∧ FlagsHandled (planOf input ctx) input doc)
      ↔ HandlesFlags (planOf input ctx) input := by
  obtain ⟨renewed, doc, hrenewal, hspells, hwritten⟩ := rewrap_spells hC hverify hrewrap
  obtain ⟨_, _, haccepted⟩ := accepted_of_verify hverify
  have hhandles := (wrapChecked_of_parse haccepted.wrap).handles
  -- A text spells one document, so the claim is about the document of this run.
  have hdoc : (∃ doc, Spells text doc ∧ FlagsHandled (planOf input ctx) input doc)
      ↔ FlagsHandled (planOf input ctx) input doc := by
    constructor
    · rintro ⟨other, hother, hhandled⟩
      rw [hspells.unique hother]
      exact hhandled
    · intro hhandled
      exact ⟨doc, hspells, hhandled⟩
  rw [hdoc]
  cases hclear : ctx.options.clearDisclosureHistory with
  | true =>
    have hon : (planOf input ctx).clearDisclosureHistory = true := hclear
    rw [hclear] at hwritten
    -- Three of the conditions are about runs that keep the history, and this one clears it.
    refine ⟨fun _ => Or.inl hon, fun _ => ⟨?_, ?_, ?_, fun _ => ⟨?_, hwritten.history⟩⟩⟩
    · intro hoff
      rw [hon] at hoff
      cases hoff
    · intro hoff
      rw [hon] at hoff
      cases hoff
    · intro hoff
      rw [hon] at hoff
      cases hoff
    · intro entry hentry
      have hmem : (entry.key, entry.value.disclosed) ∈ flags doc :=
        List.mem_map_of_mem (f := fun e : KvEncEntry => (e.key, e.value.disclosed)) hentry
      rw [hwritten.flags, if_pos rfl] at hmem
      obtain ⟨_, _, heq⟩ := List.mem_map.mp hmem
      exact (Prod.mk.inj heq).2.symm
  | false =>
    have hoff : (planOf input ctx).clearDisclosureHistory = false := hclear
    have hnotOn : (planOf input ctx).clearDisclosureHistory ≠ true := by
      rw [hoff]
      exact Bool.false_ne_true
    rw [hclear] at hwritten
    obtain ⟨hflags, hhistory⟩ := hwritten
    rw [if_neg Bool.false_ne_true] at hflags hhistory
    -- Without clearing, the flags depend on how far the renewal went.
    cases hrenewal with
    | kept hnone hstays =>
      constructor
      · intro _
        refine Or.inr (Or.inr ⟨hnone, fun hrotates => ?_⟩)
        rw [hstays] at hrotates
        cases hrotates
      · intro _
        refine ⟨fun _ hrotates => ?_, fun _ hsome => absurd hnone hsome, fun _ _ _ => ?_,
          fun hon => absurd hon hnotOn⟩
        · rw [hstays] at hrotates
          cases hrotates
        · rw [hflags]
    | removed hsome hfrom hmarked =>
      have hrecorded := removalsRecorded_iff hhandles hfrom hhistory
      have hall : ∀ entry ∈ doc.entries, entry.value.disclosed = true := by
        intro entry hentry
        have hmem : (entry.key, entry.value.disclosed) ∈ flags doc :=
          List.mem_map_of_mem (f := fun e : KvEncEntry => (e.key, e.value.disclosed)) hentry
        rw [hflags] at hmem
        obtain ⟨other, hother, heq⟩ := List.mem_map.mp hmem
        rw [← (Prod.mk.inj heq).2]
        exact hmarked other hother
      constructor
      · intro hhandled
        exact Or.inr (Or.inl ⟨hsome, hrecorded.mp (hhandled.removed hoff hsome).2⟩)
      · intro hcondition
        rcases hcondition with hon | ⟨_, hkids⟩ | ⟨hnone, _⟩
        · exact absurd hon hnotOn
        · exact ⟨fun _ _ hnone => absurd hnone hsome, fun _ _ => ⟨hall, hrecorded.mpr hkids⟩,
            fun _ _ hnone => absurd hnone hsome, fun hon => absurd hon hnotOn⟩
        · exact absurd hnone hsome
    | rotated hnone hrotates _ hfrom hmarked =>
      -- A rotation encrypts every entry with one flag, so the old flags stay only if they were
      -- alike.
      have hperm := (flags_perm_iff (keys_reencryptedFrom hfrom) hmarked).trans
        (detectDisclosedEntries_uniform input)
      rw [← hflags] at hperm
      constructor
      · intro hhandled
        refine Or.inr (Or.inr ⟨hnone, fun _ hstale hadd => ?_⟩)
        exact hperm.mp (hhandled.rotated hoff hrotates hnone hstale hadd)
      · intro hcondition
        refine ⟨fun _ _ _ hstale hadd => ?_, fun _ hsome => absurd hnone hsome,
          fun _ hstays => ?_, fun hon => absurd hon hnotOn⟩
        · rcases hcondition with hon | ⟨hsome, _⟩ | ⟨_, huniform⟩
          · exact absurd hon hnotOn
          · exact absurd hnone hsome
          · exact hperm.mpr (huniform hrotates hstale hadd)
        · rw [hrotates] at hstays
          cases hstays

/-! ## A mixed document -/

/-- A rotation by alice of a document of hers, with these keys and flags. -/
theorem rotated_marked {marks : List (String × Bool)} (hmarks : ToyMarks marks) :
    ∃ content text input, verifyKvContent toyCrypto content = .ok input
      ∧ rewrapKvDocument toyCrypto sameDraws content aliceRotates = .ok text
      ∧ input.entries = marks.map (markedEntry (pad 32 [1]))
      ∧ planOf input aliceRotates = ⟨[], [], [], true, false⟩ := by
  obtain ⟨content, hcontent⟩ := toyText_people toySid course_rotation.before shortHistory_none
    (pad 32 [1]) hmarks List.mem_cons_self
  obtain ⟨text, hrewrap, _⟩ := rotated_toyKv hmarks shortHistory_none hcontent
  obtain ⟨draft, signature, hdraft, _, hverify⟩ := hcontent
  refine ⟨content, text, _, hverify, hrewrap, rfl, ?_⟩
  have hwrap : (draft.document (marks.map (markedEntry (pad 32 [1]))) signature).wrap
      = ⟨[aliceOnly].map (ToyPerson.wrap (pad 32 [1])), none⟩ := hdraft.data
  rw [planOf, hwrap]
  rfl

/-- **A MIXED DOCUMENT CHANGES HANDS**: carol leaves, bob has a new key, dave joins. -/
theorem changed_marked :
    ∃ content text input, verifyKvContent toyCrypto content = .ok input
      ∧ rewrapKvDocument toyCrypto sameDraws content aliceChanges = .ok text
      ∧ input.entries = mixedMarks.map (markedEntry (pad 32 [1]))
      ∧ input.wrap.wrap = teamBefore.map (ToyPerson.wrap (pad 32 [1]))
      ∧ planOf input aliceChanges = changePlan := by
  obtain ⟨content, hcontent⟩ := toyText_people toySid course_change.before shortHistory_none
    (pad 32 [1]) toyMarks_mixedMarks (List.mem_cons_self (a := aliceOnly))
  obtain ⟨text, hrewrap, _⟩ := changed_toyKv toyMarks_mixedMarks hcontent
  obtain ⟨draft, signature, hdraft, _, hverify⟩ := hcontent
  have hwrap : (draft.document (mixedMarks.map (markedEntry (pad 32 [1]))) signature).wrap
      = ⟨teamBefore.map (ToyPerson.wrap (pad 32 [1])), none⟩ := hdraft.data
  refine ⟨content, text, _, hverify, hrewrap, rfl, congrArg KvWrap.wrap hwrap, ?_⟩
  rw [planOf, hwrap]
  rfl

/-- All three entries are marked, and carol is recorded. -/
theorem flags_handled_iff_toy :
    ∃ content text input, verifyKvContent toyCrypto content = .ok input
      ∧ rewrapKvDocument toyCrypto sameDraws content aliceChanges = .ok text
      ∧ flags input = mixedMarks ∧ planOf input aliceChanges = changePlan
      ∧ ∃ doc, Spells text doc ∧ FlagsHandled (planOf input aliceChanges) input doc := by
  obtain ⟨content, text, input, hverify, hrewrap, hentries, hwrap, hplan⟩ := changed_marked
  have hflags : flags input = mixedMarks := by
    rw [flags, hentries]
    rfl
  refine ⟨content, text, input, hverify, hrewrap, hflags, hplan,
    (flags_handled_iff lawful_toyCrypto hverify hrewrap).mpr (Or.inr (Or.inl ?_))⟩
  rw [hplan, removedWraps, hwrap]
  exact ⟨List.cons_ne_nil _ _, by decide⟩

/-- **THE ROTATION OF A MIXED DOCUMENT**: alice's entry A is disclosed and her entry B is not; after
    the rotation, B is marked as well. -/
theorem rotation_mixed :
    ∃ content text input, verifyKvContent toyCrypto content = .ok input
      ∧ rewrapKvDocument toyCrypto sameDraws content aliceRotates = .ok text
      ∧ flags input = [("A", true), ("B", false)]
      ∧ planOf input aliceRotates = ⟨[], [], [], true, false⟩
      ∧ ¬∃ doc, Spells text doc ∧ FlagsHandled (planOf input aliceRotates) input doc := by
  have hmarks : ToyMarks [("A", true), ("B", false)] := by
    refine ⟨?_, by decide, by decide, by decide⟩
    intro mark hmark
    rcases List.mem_cons.mp hmark with rfl | hmark
    · decide
    · rw [List.mem_singleton.mp hmark]
      decide
  obtain ⟨content, text, input, hverify, hrewrap, hentries, hplan⟩ := rotated_marked hmarks
  have hinput : flags input = [("A", true), ("B", false)] := by
    rw [flags, hentries]
    rfl
  refine ⟨content, text, input, hverify, hrewrap, hinput, hplan, ?_⟩
  rintro ⟨doc, hspells, hhandled⟩
  have hperm := hhandled.rotated (by rw [hplan]) (by rw [hplan]) (by rw [hplan]) (by rw [hplan])
    (by rw [hplan])
  obtain ⟨renewed, doc', hrenewal, hspells', hwritten⟩ :=
    rewrap_spells lawful_toyCrypto hverify hrewrap
  obtain rfl := hspells.unique hspells'
  have hflags : flags doc = flags renewed := hwritten.flags
  rw [hflags] at hperm
  cases hrenewal with
  | kept _ hstays =>
    rw [hplan] at hstays
    cases hstays
  | removed hsome =>
    rw [hplan] at hsome
    exact hsome rfl
  | rotated _ _ _ hfrom hmarked =>
    have huniform := (flags_perm_iff (keys_reencryptedFrom hfrom) hmarked).mp hperm
    have hsame := (detectDisclosedEntries_uniform input).mp huniform
    rw [hentries] at hsame
    cases hsame (markedEntry (pad 32 [1]) ("A", true)) List.mem_cons_self
      (markedEntry (pad 32 [1]) ("B", false)) (List.mem_cons_of_mem _ List.mem_cons_self)

end KvDisclosure
