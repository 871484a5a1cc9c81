import Kapsaro.KvSession
import Kapsaro.RewrapPlan

/-!
# KV rewrap — the kv-enc backend of a rewrap

`feature/rewrap/kv.rs` and `feature/rewrap/kv_op/`: adding and refreshing recipients edits the
wrap of the draft in place; removing a recipient and rotating the key encrypt the whole document
anew, sign it, and load the result again.

* **`kvExecutor`**, **`rewrapKvDocument`** — the backend and the rewrap of a kv-enc text.
* **`KvTracks`** — the invariant of the executor: the draft carries the entries and the history of
  its session's document, and every wrap is that document's or was built under its master key.
* **`tracks_initial`**, **`tracks_add`**, **`tracks_rewrite`**, **`tracks_rebuild`** — one lemma
  for each operation; **`kv_run`** carries the invariant through a whole rewrap.
* **`kvLaws`** — how the operations edit the recipients.
-/

namespace KvRewrap

open JsonText Limits TextLines WireTexts WireModel DocumentTokens TokenRecords KvLines Envelope
open KvDocument SignedArtifacts KeyedList KvDraft Recipients KvSession RewrapPlan

/-! ## The executor -/

/-- Whether the master key still is the one of the loaded document, or a fresh one. -/
inductive KvMasterKeyState where
  | original
  | rotated
deriving DecidableEq, Repr

structure KvRewrapExecutor where
  session : VerifiedKvRewriteSession
  doc : KvDocumentDraft
  ctx : RewrapContext
  masterKeyState : KvMasterKeyState

def extractRecipientsFromWrap (wrap : KvWrap) : List String :=
  wrap.wrap.map WrapItem.recipientHandle

section Operations

variable (C : Crypto)

def addKvRecipients (sid : Uuid) (wrapData : KvWrap) (newRecipients : List String)
    (masterKey : MasterKey) (targetMembers : List VerifiedRecipientKey) (seed : Nat → Bytes) :
    Except Error KvWrap := do
  let currentRecipients := extractRecipientsFromWrap wrapData
  let items ← buildNewWrapItems C .kv sid masterKey seed currentRecipients wrapData.wrap.length
    newRecipients targetMembers
  pure { wrapData with wrap := wrapData.wrap ++ items }

def rewriteKvRecipientWraps (sid : Uuid) (wrapData : KvWrap) (refreshedRecipients : List String)
    (masterKey : MasterKey) (targetMembers : List VerifiedRecipientKey) (seed : Nat → Bytes) :
    Except Error KvWrap := do
  let items ← replaceRecipientWrapItems C .kv sid masterKey seed wrapData.wrap refreshedRecipients
    targetMembers
  pure { wrapData with wrap := items }

namespace KvRewrapExecutor

/-- The executor of a verified document. -/
def newFromVerified (verified : KvEncDocument) (ctx : RewrapContext) :
    Except Error KvRewrapExecutor := do
  let session : VerifiedKvRewriteSession :=
    { verified, memberHandle := ctx.memberHandle, keyCtx := ctx.keyCtx }
  let doc ← session.buildUnsigned session.verified.head
  pure { session, doc, ctx, masterKeyState := .original }

def currentRecipients (e : KvRewrapExecutor) : List String :=
  extractRecipientsFromWrap e.doc.wrap.data

/-- Go on with a text that was encrypted anew; its master key is a fresh one. -/
def rebuildFromContent (e : KvRewrapExecutor) (content : String) :
    Except Error KvRewrapExecutor := do
  let session ← VerifiedKvRewriteSession.load C content e.ctx.memberHandle e.ctx.keyCtx
  let doc ← session.buildUnsigned session.verified.head
  pure { e with session := session, doc := doc, masterKeyState := .rotated }

/-- Put a wrap in place and set the time. -/
def withWrap (e : KvRewrapExecutor) (wrap : KvWrap) (now : Timestamp) : KvRewrapExecutor :=
  { e with doc := (e.doc.wrapMut fun _ => wrap).setUpdatedAt now.text }

def addRecipients (entropy : Entropy) (recipients : List String) (e : KvRewrapExecutor) :
    Except Error KvRewrapExecutor := do
  let masterKey ← e.session.unwrapMasterKey C
  let wrap ← addKvRecipients C e.doc.head.sid e.doc.wrap.data recipients masterKey
    e.ctx.targetMembers entropy.seed
  pure (e.withWrap wrap (entropy.clock 0))

def rewriteRecipientWraps (entropy : Entropy) (recipients : List String) (e : KvRewrapExecutor) :
    Except Error KvRewrapExecutor := do
  let masterKey ← e.session.unwrapMasterKey C
  let wrap ← rewriteKvRecipientWraps C e.doc.head.sid e.doc.wrap.data recipients masterKey
    e.ctx.targetMembers entropy.seed
  pure (e.withWrap wrap (entropy.clock 0))

/-- Encrypt the document anew and go on with the result. -/
def rewrapAndRebuild (request : KvRecipientRewriteRequest) (entropy : Entropy)
    (e : KvRewrapExecutor) : Except Error KvRewrapExecutor := do
  let newContent ← e.session.rewrapKvWithRecipients C e.ctx.targetMembers request entropy
  e.rebuildFromContent C newContent

/-- What the removal of recipients asks for. -/
def removalRequest (remaining recipients : List String) : KvRecipientRewriteRequest where
  newRecipients := remaining
  removedRecipients := recipients
  disclosed := true
  preserveRemovedHistory := true

def removeRecipients (entropy : Entropy) (recipients : List String) (e : KvRewrapExecutor) :
    Except Error KvRewrapExecutor := do
  let remaining := e.currentRecipients.filter fun recipient => recipient ∉ recipients
  validateNotEmptyRecipients remaining
  e.rewrapAndRebuild C (removalRequest remaining recipients) entropy

/-- What the rotation of the key asks for: the history of the old wrap is not carried over. -/
def rotationRequest (e : KvRewrapExecutor) : KvRecipientRewriteRequest where
  newRecipients := e.currentRecipients
  removedRecipients := []
  disclosed := e.session.disclosed
  preserveRemovedHistory := false

def rotateKey (entropy : Entropy) (e : KvRewrapExecutor) : Except Error KvRewrapExecutor :=
  if e.masterKeyState = .rotated then .ok e
  else e.rewrapAndRebuild C e.rotationRequest entropy

def clearDisclosureHistory (e : KvRewrapExecutor) : Except Error KvRewrapExecutor := do
  let doc := e.doc.wrapMut fun wrap => { wrap with removedRecipients := none }
  let doc ← doc.clearDisclosedFlags
  pure { e with doc := doc }

def finalize (entropy : Entropy) (e : KvRewrapExecutor) : Except Error String := do
  let doc := e.doc.setUpdatedAt (entropy.clock 0).text
  let masterKey ← e.session.unwrapMasterKey C
  e.session.sign C doc masterKey

end KvRewrapExecutor

/-- The kv-enc operations. -/
def kvExecutor : RewrapExecutor KvRewrapExecutor where
  currentRecipients := KvRewrapExecutor.currentRecipients
  addRecipients := KvRewrapExecutor.addRecipients C
  rewriteRecipientWraps := KvRewrapExecutor.rewriteRecipientWraps C
  removeRecipients := KvRewrapExecutor.removeRecipients C
  rotateKey := KvRewrapExecutor.rotateKey C
  clearDisclosureHistory := KvRewrapExecutor.clearDisclosureHistory
  finalize := KvRewrapExecutor.finalize C

/-- The kv-enc format. -/
def kvAdapter : RewrapDocumentAdapter KvEncDocument KvRewrapExecutor where
  verifyContent := verifyKvContent C
  currentWrapItems := fun doc => doc.wrap.wrap
  buildExecutor := KvRewrapExecutor.newFromVerified
  executor := kvExecutor C

/-- Rewrap a kv-enc text. -/
def rewrapKvDocument (draws : RewrapDraws) (content : String) (ctx : RewrapContext) :
    Except Error String :=
  rewrapDocumentWithCommonSkeleton (kvAdapter C) draws content ctx

end Operations

variable {C : Crypto}

/-! ## Documents that were encrypted anew -/

/-- A document is another one, encrypted anew as requested. -/
structure ReencryptedFrom (C : Crypto) (ctx : RewrapContext) (old : KvEncDocument)
    (request : KvRecipientRewriteRequest) (entropy : Entropy) (kvMap : List (String × String))
    (members : List VerifiedRecipientKey) (doc : KvEncDocument) : Prop where
  plaintext : decryptKvDocumentWithContext C old ctx.memberHandle ctx.keyCtx
    = .ok (textBytes kvMap)
  resolved : resolveSnapshotVerifiedRecipients ctx.targetMembers request.newRecipients = .ok members
  fresh : Reencrypted C kvMap members
    (VerifiedKvRewriteSession.mutateWrap ⟨old, ctx.memberHandle, ctx.keyCtx⟩ request entropy.clock)
    entropy doc

/-- Adjusting the wrap of a new document leaves its items alone. -/
theorem wrap_mutateWrap (session : VerifiedKvRewriteSession) (request : KvRecipientRewriteRequest)
    (clock : Nat → Timestamp) (wrap : KvWrap) :
    (session.mutateWrap request clock wrap).wrap = wrap.wrap := by
  rw [VerifiedKvRewriteSession.mutateWrap]
  split <;> rfl

/-- The wraps of a document that was encrypted anew: one for each requested recipient. -/
theorem ReencryptedFrom.items {ctx : RewrapContext} {old doc : KvEncDocument}
    {request : KvRecipientRewriteRequest} {entropy : Entropy} {kvMap : List (String × String)}
    {members : List VerifiedRecipientKey}
    (h : ReencryptedFrom C ctx old request entropy kvMap members doc) :
    doc.wrap.wrap.map WrapItem.recipientHandle = request.newRecipients
      ∧ ∀ item ∈ doc.wrap.wrap,
        BuiltFor C .kv entropy.sid entropy.masterKey ctx.targetMembers item := by
  obtain ⟨items, hbuilt, hwrap⟩ := h.fresh.wraps
  obtain ⟨hhandles, hsub⟩ := resolveSnapshot_ok h.resolved
  rw [hwrap, wrap_mutateWrap]
  refine ⟨?_, builtFor_of_forall₂ hsub hbuilt⟩
  have hrecipients := congrArg (List.map Prod.fst) (recipients_of_built hbuilt)
  rw [List.map_map, List.map_map] at hrecipients
  exact hrecipients.trans hhandles

/-- What a verified text is. -/
theorem accepted_of_verify {content : String} {doc : KvEncDocument}
    (h : verifyKvContent C content = .ok doc) :
    ∃ headToken sigToken, Accepted content doc headToken sigToken := by
  obtain ⟨parsed, hparse, h⟩ := bind_eq_ok.mp h
  obtain ⟨_, _, h⟩ := bind_eq_ok.mp h
  obtain ⟨_, _, h⟩ := bind_eq_ok.mp h
  obtain ⟨_, _, h⟩ := bind_eq_ok.mp h
  obtain rfl := Except.ok.inj h
  exact accepted_of_parse hparse

theorem parse_of_verify {content : String} {doc : KvEncDocument}
    (h : verifyKvContent C content = .ok doc) : parseKvDocument content = .ok doc := by
  obtain ⟨parsed, hparse, h⟩ := bind_eq_ok.mp h
  obtain ⟨_, _, h⟩ := bind_eq_ok.mp h
  obtain ⟨_, _, h⟩ := bind_eq_ok.mp h
  obtain ⟨_, _, h⟩ := bind_eq_ok.mp h
  obtain rfl := Except.ok.inj h
  exact hparse

/-- The values of a session go under the key names of its document. -/
theorem names_of_decryptAllValues {session : VerifiedKvRewriteSession}
    {kvMap : List (String × String)} (hdecrypt : session.decryptAllValues C = .ok kvMap)
    (hkeys : ∀ e ∈ session.verified.entries, isValidKeyName e.key = true) :
    ∀ pair ∈ kvMap, isValidKeyName pair.1 = true := by
  obtain ⟨values, hvalues, hdecode⟩ := bind_eq_ok.mp hdecrypt
  obtain rfl := decodeDecryptedKvValues_ok hdecode
  obtain ⟨mk, _, hrest⟩ := bind_eq_ok.mp hvalues
  obtain ⟨_, _, hrest⟩ := bind_eq_ok.mp hrest
  have hnames := keys_of_decryptKvEntries hrest
  intro pair hpair
  have hmem : pair.1 ∈ session.verified.entries.map KvEncEntry.key := by
    rw [← hnames, textBytes, List.map_map]
    exact List.mem_map_of_mem (f := Prod.fst ∘ fun p : String × String => (p.1, utf8 p.2)) hpair
  obtain ⟨e, he, heq⟩ := List.mem_map.mp hmem
  rw [← heq]
  exact hkeys e he

/-- **RE-ENCRYPTION READS BACK AS RE-ENCRYPTION**: what a session wrote anew, when it verifies,
    is its document encrypted anew, with the flag that was asked for on every entry. -/
theorem reencryptedFrom_of_verify (hC : Lawful C) {ctx : RewrapContext}
    {old : KvEncDocument} {request : KvRecipientRewriteRequest} {entropy : Entropy}
    {text : String} {doc : KvEncDocument} (hkeys : ∀ e ∈ old.entries, isValidKeyName e.key = true)
    (htext : VerifiedKvRewriteSession.rewrapKvWithRecipients C
      ⟨old, ctx.memberHandle, ctx.keyCtx⟩ ctx.targetMembers request entropy = .ok text)
    (hverify : verifyKvContent C text = .ok doc) :
    (∃ kvMap members, ReencryptedFrom C ctx old request entropy kvMap members doc)
      ∧ ∀ entry ∈ doc.entries, entry.value.disclosed = request.disclosed := by
  obtain ⟨members, hmembers, htext⟩ := bind_eq_ok.mp htext
  obtain ⟨kvMap, hdecrypt, htext⟩ := bind_eq_ok.mp htext
  have hvalid := names_of_decryptAllValues hdecrypt hkeys
  obtain ⟨values, hvalues, hdecode⟩ := bind_eq_ok.mp hdecrypt
  obtain rfl := decodeDecryptedKvValues_ok hdecode
  have hparse := parse_of_verify hverify
  exact ⟨⟨kvMap, members, hvalues, hmembers, reencrypted_of_parse hC hvalid htext hparse⟩,
    disclosed_of_parse hC hvalid htext hparse⟩

/-! ## The invariant -/

/-- Where the document of the session comes from: it is the input, or the input encrypted anew
    with these draws. -/
inductive KvOrigin (C : Crypto) (ctx : RewrapContext) (input : KvEncDocument)
    (e : KvRewrapExecutor) : Option Entropy → Prop
  | original : e.masterKeyState = .original → e.session.verified = input →
      KvOrigin C ctx input e none
  | rotated {request : KvRecipientRewriteRequest} {entropy : Entropy}
      {kvMap : List (String × String)} {members : List VerifiedRecipientKey} :
      e.masterKeyState = .rotated →
      ReencryptedFrom C ctx input request entropy kvMap members e.session.verified →
      KvOrigin C ctx input e (some entropy)

/-- **THE INVARIANT** of the executor, up to the clearing of the history. -/
structure KvTracks (C : Crypto) (ctx : RewrapContext) (input : KvEncDocument)
    (drawn : Option Entropy) (e : KvRewrapExecutor) : Prop where
  ctx_eq : e.ctx = ctx
  session_eq : e.session = ⟨e.session.verified, ctx.memberHandle, ctx.keyCtx⟩
  accepted : ∃ content headToken sigToken, Accepted content e.session.verified headToken sigToken
  sid : e.doc.head.sid = e.session.verified.head.sid
  aead : e.doc.head.alg = e.session.verified.head.alg
  stands : Stands e.doc e.session.verified.entries
  wraps : ∀ item ∈ e.doc.wrap.data.wrap, item ∈ e.session.verified.wrap.wrap
    ∨ ∃ masterKey, e.session.unwrapMasterKey C = .ok masterKey
      ∧ BuiltFor C .kv e.session.verified.head.sid masterKey ctx.targetMembers item
  history : e.doc.wrap.data.removedRecipients = e.session.verified.wrap.removedRecipients
  origin : KvOrigin C ctx input e drawn

/-- The recipients an executor shows. -/
def recipients (e : KvRewrapExecutor) : List (String × String) :=
  recipientTable e.doc.wrap.data.wrap

theorem currentRecipients_eq (e : KvRewrapExecutor) :
    e.currentRecipients = (recipients e).map Prod.fst :=
  (keys_recipientTable _).symm

/-- The draft of a verified document, in a session. -/
private theorem tracks_buildUnsigned {ctx : RewrapContext} {input verified : KvEncDocument}
    {drawn : Option Entropy} {doc : KvDocumentDraft} {state : KvMasterKeyState}
    {content headToken sigToken : String}
    (haccepted : Accepted content verified headToken sigToken)
    (hdoc : VerifiedKvRewriteSession.buildUnsigned ⟨verified, ctx.memberHandle, ctx.keyCtx⟩
      verified.head = .ok doc)
    (horigin : KvOrigin C ctx input
      ⟨⟨verified, ctx.memberHandle, ctx.keyCtx⟩, doc, ctx, state⟩ drawn) :
    doc.wrap.data = verified.wrap ∧ KvTracks C ctx input drawn
      ⟨⟨verified, ctx.memberHandle, ctx.keyCtx⟩, doc, ctx, state⟩ := by
  obtain ⟨draft, hdraft, hhead, hwrap, hrep⟩ :=
    represents_fromDocument haccepted (wellFormed_of_parseHead haccepted.head)
  rw [VerifiedKvRewriteSession.buildUnsigned, hdraft] at hdoc
  obtain rfl := Except.ok.inj hdoc
  have hdata : draft.wrap.data = verified.wrap := by
    rw [hwrap]
    rfl
  refine ⟨hdata, rfl, rfl, ⟨_, _, _, haccepted⟩, ?_, ?_, hrep.toStands, ?_, ?_, horigin⟩
  · show draft.head.sid = verified.head.sid
    rw [hhead]
  · show draft.head.alg = verified.head.alg
    rw [hhead]
  · intro item hitem
    refine Or.inl ?_
    rw [← hdata]
    exact hitem
  · show draft.wrap.data.removedRecipients = verified.wrap.removedRecipients
    rw [hdata]

/-- The executor starts out on the input. -/
theorem tracks_initial {content : String} {input : KvEncDocument} {ctx : RewrapContext}
    {e : KvRewrapExecutor} (hverify : verifyKvContent C content = .ok input)
    (hnew : KvRewrapExecutor.newFromVerified input ctx = .ok e) :
    recipients e = recipientTable input.wrap.wrap ∧ KvTracks C ctx input none e := by
  obtain ⟨headToken, sigToken, haccepted⟩ := accepted_of_verify hverify
  obtain ⟨doc, hdoc, hnew⟩ := bind_eq_ok.mp hnew
  obtain rfl := Except.ok.inj hnew
  obtain ⟨hdata, htracks⟩ := tracks_buildUnsigned (C := C) haccepted hdoc
    (.original (e := ⟨_, doc, ctx, .original⟩) rfl rfl)
  refine ⟨?_, htracks⟩
  show recipientTable doc.wrap.data.wrap = _
  rw [hdata]

/-- Putting a wrap in place keeps the invariant, when its items and its history may stand. -/
theorem tracks_withWrap {ctx : RewrapContext} {input : KvEncDocument} {drawn : Option Entropy}
    {e : KvRewrapExecutor} (h : KvTracks C ctx input drawn e) {wrap : KvWrap} (now : Timestamp)
    (hitems : ∀ item ∈ wrap.wrap, item ∈ e.doc.wrap.data.wrap
      ∨ ∃ masterKey, e.session.unwrapMasterKey C = .ok masterKey
        ∧ BuiltFor C .kv e.session.verified.head.sid masterKey ctx.targetMembers item)
    (hhistory : wrap.removedRecipients = e.doc.wrap.data.removedRecipients) :
    KvTracks C ctx input drawn (e.withWrap wrap now) := by
  refine ⟨h.ctx_eq, h.session_eq, h.accepted, h.sid, h.aead, ?_, ?_, ?_, ?_⟩
  · exact ⟨fun _ htoken => (by cases htoken), h.stands.entries⟩
  · intro item hitem
    rcases hitems item hitem with hold | hnew
    · exact h.wraps item hold
    · exact Or.inr hnew
  · exact hhistory.trans h.history
  · cases h.origin with
    | original hstate hverified => exact .original hstate hverified
    | rotated hstate hfrom => exact .rotated hstate hfrom

/-- **ADDING** keeps the invariant, and appends the new recipients. -/
theorem tracks_add {ctx : RewrapContext} {input : KvEncDocument} {drawn : Option Entropy}
    {e e' : KvRewrapExecutor} {entropy : Entropy} {handles : List String}
    (h : KvTracks C ctx input drawn e)
    (hadd : e.addRecipients C entropy handles = .ok e') :
    KvTracks C ctx input drawn e'
      ∧ Edited (targetTable ctx.targetMembers) (fun _ => False)
        ((recipients e).map Prod.fst ++ handles.filter (· ∉ (recipients e).map Prod.fst))
        (recipients e) (recipients e') := by
  obtain ⟨masterKey, hkey, hadd⟩ := bind_eq_ok.mp hadd
  obtain ⟨wrap, hwrap, hadd⟩ := bind_eq_ok.mp hadd
  obtain rfl := Except.ok.inj hadd
  obtain ⟨items, hitems, hwrap⟩ := bind_eq_ok.mp hwrap
  obtain rfl := Except.ok.inj hwrap
  obtain ⟨hhandles, _, hbuilt⟩ := buildNewWrapItems_ok hitems
  rw [h.ctx_eq, h.sid] at hbuilt
  refine ⟨tracks_withWrap h _ ?_ rfl, edited_added hhandles fun item hitem =>
    (hbuilt item hitem).recipient⟩
  intro item hitem
  rcases List.mem_append.mp hitem with hold | hnew
  · exact Or.inl hold
  · exact Or.inr ⟨masterKey, hkey, hbuilt item hnew⟩

/-- **REFRESHING** keeps the invariant, and moves the refreshed recipients to the end. -/
theorem tracks_rewrite {ctx : RewrapContext} {input : KvEncDocument} {drawn : Option Entropy}
    {e e' : KvRewrapExecutor} {entropy : Entropy} {handles : List String}
    (h : KvTracks C ctx input drawn e)
    (hrewrite : e.rewriteRecipientWraps C entropy handles = .ok e') :
    KvTracks C ctx input drawn e'
      ∧ Edited (targetTable ctx.targetMembers) (· ∈ handles)
        (((recipients e).map Prod.fst).filter (· ∉ handles) ++ handles)
        (recipients e) (recipients e') := by
  obtain ⟨masterKey, hkey, hrewrite⟩ := bind_eq_ok.mp hrewrite
  obtain ⟨wrap, hwrap, hrewrite⟩ := bind_eq_ok.mp hrewrite
  obtain rfl := Except.ok.inj hrewrite
  obtain ⟨items, hitems, hwrap⟩ := bind_eq_ok.mp hwrap
  obtain rfl := Except.ok.inj hwrap
  obtain ⟨rebuilt, rfl, hhandles, hbuilt⟩ := replaceRecipientWrapItems_ok hitems
  rw [h.ctx_eq, h.sid] at hbuilt
  refine ⟨tracks_withWrap h _ ?_ rfl, edited_replaced hhandles fun item hitem =>
    (hbuilt item hitem).recipient⟩
  intro item hitem
  rcases List.mem_append.mp hitem with hold | hnew
  · exact Or.inl (List.mem_filter.mp hold).1
  · exact Or.inr ⟨masterKey, hkey, hbuilt item hnew⟩

/-- **ENCRYPTING ANEW** starts the invariant again, on the document of the session. -/
theorem tracks_rebuild (hC : Lawful C) {ctx : RewrapContext} {input : KvEncDocument}
    {drawn : Option Entropy} {e e' : KvRewrapExecutor} {request : KvRecipientRewriteRequest}
    {entropy : Entropy} (h : KvTracks C ctx input drawn e)
    (hrebuild : e.rewrapAndRebuild C request entropy = .ok e') :
    KvTracks C ctx e.session.verified (some entropy) e'
      ∧ e'.doc.wrap.data = e'.session.verified.wrap
      ∧ ∃ kvMap members, ReencryptedFrom C ctx e.session.verified request entropy kvMap members
          e'.session.verified := by
  obtain ⟨text, htext, hrebuild⟩ := bind_eq_ok.mp hrebuild
  obtain ⟨session, hsession, hrebuild⟩ := bind_eq_ok.mp hrebuild
  obtain ⟨verified, hverify, hsession⟩ := bind_eq_ok.mp hsession
  obtain rfl := Except.ok.inj hsession
  obtain ⟨doc, hdoc, hrebuild⟩ := bind_eq_ok.mp hrebuild
  obtain rfl := Except.ok.inj hrebuild
  obtain ⟨content, headToken, sigToken, hold⟩ := h.accepted
  rw [h.ctx_eq] at htext hdoc ⊢
  rw [h.session_eq] at htext
  obtain ⟨⟨kvMap, members, hfrom⟩, _⟩ := reencryptedFrom_of_verify hC hold.keys htext hverify
  obtain ⟨headToken', sigToken', haccepted⟩ := accepted_of_verify hverify
  obtain ⟨hdata, htracks⟩ := tracks_buildUnsigned haccepted hdoc
    (.rotated (e := ⟨_, doc, ctx, .rotated⟩) rfl hfrom)
  exact ⟨htracks, hdata, kvMap, members, hfrom⟩

/-- The recipients after encrypting anew. -/
theorem edited_rebuild {ctx : RewrapContext} {old : KvEncDocument} {e e' : KvRewrapExecutor}
    {request : KvRecipientRewriteRequest} {entropy : Entropy} {kvMap : List (String × String)}
    {members : List VerifiedRecipientKey}
    (hdata : e'.doc.wrap.data = e'.session.verified.wrap)
    (hfrom : ReencryptedFrom C ctx old request entropy kvMap members e'.session.verified) :
    Edited (targetTable ctx.targetMembers) (fun _ => False) request.newRecipients
      (recipients e) (recipients e') := by
  obtain ⟨hhandles, hbuilt⟩ := hfrom.items
  rw [recipients, recipients, hdata]
  refine ⟨(keys_recipientTable _).trans hhandles, ?_⟩
  intro pair hpair
  obtain ⟨item, hitem, rfl⟩ := List.mem_map.mp hpair
  exact Or.inl (hbuilt item hitem).recipient

/-- **REMOVING** encrypts anew for those who stay. -/
theorem tracks_remove (hC : Lawful C) {ctx : RewrapContext} {input : KvEncDocument}
    {drawn : Option Entropy} {e e' : KvRewrapExecutor} {entropy : Entropy}
    {handles : List String} (h : KvTracks C ctx input drawn e)
    (hremove : e.removeRecipients C entropy handles = .ok e') :
    KvTracks C ctx e.session.verified (some entropy) e'
      ∧ e'.doc.wrap.data = e'.session.verified.wrap
      ∧ ∃ kvMap members, ReencryptedFrom C ctx e.session.verified
          (KvRewrapExecutor.removalRequest (((recipients e).map Prod.fst).filter (· ∉ handles))
            handles) entropy kvMap members e'.session.verified := by
  obtain ⟨_, _, hremove⟩ := bind_eq_ok.mp hremove
  rw [currentRecipients_eq] at hremove
  exact tracks_rebuild hC h hremove

/-- **ROTATING** encrypts anew, unless that was done already. -/
theorem tracks_rotate (hC : Lawful C) {ctx : RewrapContext} {input : KvEncDocument}
    {drawn : Option Entropy} {e e' : KvRewrapExecutor} {entropy : Entropy}
    (h : KvTracks C ctx input drawn e) (hrotate : e.rotateKey C entropy = .ok e') :
    (e.masterKeyState = .rotated ∧ e' = e)
      ∨ (e.masterKeyState = .original ∧ KvTracks C ctx e.session.verified (some entropy) e'
        ∧ e'.doc.wrap.data = e'.session.verified.wrap
        ∧ ∃ kvMap members, ReencryptedFrom C ctx e.session.verified e.rotationRequest entropy
            kvMap members e'.session.verified) := by
  rw [KvRewrapExecutor.rotateKey] at hrotate
  cases hstate : e.masterKeyState with
  | rotated =>
    rw [if_pos hstate] at hrotate
    exact Or.inl ⟨rfl, (Except.ok.inj hrotate).symm⟩
  | original =>
    rw [if_neg (by rw [hstate]; exact nofun)] at hrotate
    exact Or.inr ⟨rfl, tracks_rebuild hC h hrotate⟩

/-- **CLEARING** drops the history and the flags of the draft, and nothing else. -/
theorem clear_ok {ctx : RewrapContext} {input : KvEncDocument} {drawn : Option Entropy}
    {e e' : KvRewrapExecutor} (h : KvTracks C ctx input drawn e)
    (hclear : e.clearDisclosureHistory = .ok e') :
    e'.session = e.session ∧ e'.doc.head = e.doc.head
      ∧ e'.doc.wrap.data = { e.doc.wrap.data with removedRecipients := none }
      ∧ ∃ entries, Stands e'.doc entries
        ∧ List.Forall₂ SamePayload e.session.verified.entries entries := by
  obtain ⟨doc, hdoc, hclear⟩ := bind_eq_ok.mp hclear
  obtain rfl := Except.ok.inj hclear
  have hstands : Stands (e.doc.wrapMut fun wrap => { wrap with removedRecipients := none })
      e.session.verified.entries := ⟨fun _ htoken => (by cases htoken), h.stands.entries⟩
  obtain ⟨hhead, hwrap, entries, hentries, hsame⟩ := stands_clearDisclosedFlags hstands hdoc
  refine ⟨rfl, hhead, ?_, entries, hentries, hsame⟩
  show doc.wrap.data = _
  rw [hwrap]
  rfl

/-- **THE KV-ENC OPERATIONS FOLLOW THE LAWS** of a recipient table. -/
theorem kvLaws (hC : Lawful C) (ctx : RewrapContext) :
    RecipientLaws (kvExecutor C) (targetTable ctx.targetMembers) recipients
      fun e => ∃ input drawn, KvTracks C ctx input drawn e where
  current := currentRecipients_eq
  remove := by
    rintro entropy handles e e' ⟨input, drawn, h⟩ hremove
    obtain ⟨htracks, hdata, kvMap, members, hfrom⟩ := tracks_remove hC h hremove
    exact ⟨⟨_, _, htracks⟩, edited_rebuild hdata hfrom⟩
  rewrite := by
    rintro entropy handles e e' ⟨input, drawn, h⟩ hrewrite
    obtain ⟨htracks, hedited⟩ := tracks_rewrite h hrewrite
    exact ⟨⟨_, _, htracks⟩, hedited⟩
  add := by
    rintro entropy handles e e' ⟨input, drawn, h⟩ hadd
    obtain ⟨htracks, hedited⟩ := tracks_add h hadd
    exact ⟨⟨_, _, htracks⟩, hedited⟩
  rotate := by
    rintro entropy e e' ⟨input, drawn, h⟩ hrotate
    rcases tracks_rotate hC h hrotate with ⟨_, rfl⟩ | ⟨_, htracks, hdata, kvMap, members, hfrom⟩
    · exact ⟨⟨_, _, h⟩, Edited.refl _ _⟩
    · have hedited := edited_rebuild (e := e) hdata hfrom
      rw [KvRewrapExecutor.rotationRequest, currentRecipients_eq] at hedited
      exact ⟨⟨_, _, htracks⟩, hedited⟩
  clear := by
    rintro e e' ⟨input, drawn, h⟩ hclear
    obtain ⟨_, _, hdata, _⟩ := clear_ok h hclear
    rw [recipients, recipients, hdata]

/-! ## A whole rewrap -/

/-- **THE INVARIANT HOLDS UP TO THE CLEARING**, with the draws of the step that renewed the key. -/
theorem tracks_run (hC : Lawful C) {ctx : RewrapContext} {input : KvEncDocument}
    {draws : RewrapDraws} {plan : RewrapOperationPlan} {e₀ e₁ e₂ e₃ e₄ e₅ : KvRewrapExecutor}
    (h : KvTracks C ctx input none e₀)
    (hrun : PlanRun (kvExecutor C) draws plan e₀ e₁ e₂ e₃ e₄ e₅) :
    KvTracks C ctx input (renewalDraws draws plan) e₄ := by
  rw [renewalDraws]
  -- A removal re-encrypts, and its draws are then the ones the document rests on.
  have hfirst : KvTracks C ctx input
      (if plan.removeRecipients ≠ [] then some draws.remove else none) e₁ := by
    cases hrun.remove with
    | skipped hnone heq =>
      rw [if_neg hnone, heq]
      exact h
    | done hsome hremove =>
      obtain ⟨htracks, _⟩ := tracks_remove hC h hremove
      cases h.origin with
      | original _ hverified =>
        rw [if_pos hsome, ← hverified]
        exact htracks
  generalize hdrawn : (if plan.removeRecipients ≠ [] then some draws.remove else none) = drawn
    at hfirst
  have hsecond : KvTracks C ctx input drawn e₂ :=
    hrun.stale.keeps hfirst fun htracks hstep => (tracks_rewrite htracks hstep).1
  have hthird : KvTracks C ctx input drawn e₃ :=
    hrun.add.keeps hsecond fun htracks hstep => (tracks_add htracks hstep).1
  cases hrun.rotate with
  | skipped hnone heq =>
    rw [heq]
    rw [Bool.not_eq_true] at hnone
    rw [hnone, if_neg Bool.false_ne_true, hdrawn]
    exact hthird
  | done hsome hrotate =>
    rw [hsome, if_pos rfl]
    -- A rotation does nothing to a document that a removal has just re-encrypted.
    rcases tracks_rotate hC hthird hrotate with ⟨hstate, heq⟩ | ⟨hstate, htracks, _⟩
    · rw [heq]
      by_cases hremoved : plan.removeRecipients ≠ []
      · rw [if_pos hremoved] at hdrawn ⊢
        rw [hdrawn]
        exact hthird
      · rw [if_neg hremoved] at hdrawn
        subst hdrawn
        cases hthird.origin with
        | original horiginal _ => rw [hstate] at horiginal; cases horiginal
    · by_cases hremoved : plan.removeRecipients ≠ []
      · rw [if_pos hremoved] at hdrawn
        subst hdrawn
        cases hthird.origin with
        | rotated hrotated _ => rw [hstate] at hrotated; cases hrotated
      · rw [if_neg hremoved] at hdrawn ⊢
        subst hdrawn
        cases hthird.origin with
        | original _ hverified =>
          rw [← hverified]
          exact htracks

/-- What finalizing signs. -/
theorem finalize_ok {e : KvRewrapExecutor} {entropy : Entropy} {text : String}
    (h : e.finalize C entropy = .ok text) :
    ∃ masterKey signing signature, e.session.unwrapMasterKey C = .ok masterKey
      ∧ buildSigningContext C e.session.keyCtx = .ok signing
      ∧ SignedBy C (e.doc.setUpdatedAt (entropy.clock 0).text) masterKey signing
        signature text := by
  obtain ⟨masterKey, hkey, h⟩ := bind_eq_ok.mp h
  obtain ⟨signing, hsigning, h⟩ := bind_eq_ok.mp h
  obtain ⟨signature, hsigned⟩ := signUnsignedKvDocument_ok h
  exact ⟨masterKey, signing, signature, hkey, hsigning, hsigned⟩

/-- The draft a rewrap signs, with the session it is signed in. -/
structure KvWritten (C : Crypto) (ctx : RewrapContext) (input : KvEncDocument)
    (drawn : Option Entropy) (cleared : Bool) (e : KvRewrapExecutor) (draft : KvDocumentDraft)
    (masterKey : MasterKey) (entries : List KvEncEntry) : Prop where
  tracks : KvTracks C ctx input drawn e
  masterKey : e.session.unwrapMasterKey C = .ok masterKey
  sid : draft.head.sid = e.session.verified.head.sid
  aead : draft.head.alg = e.session.verified.head.alg
  wraps : draft.wrap.data.wrap = e.doc.wrap.data.wrap
  history : draft.wrap.data.removedRecipients
    = if cleared then none else e.doc.wrap.data.removedRecipients
  stands : Stands draft entries
  payload : List.Forall₂ SamePayload e.session.verified.entries entries
  kept : cleared = false → entries = e.session.verified.entries

/-- A successful rewrap, taken apart. -/
structure KvRun (C : Crypto) (draws : RewrapDraws) (content : String) (ctx : RewrapContext)
    (text : String) where
  input : KvEncDocument
  start : KvRewrapExecutor
  removed : KvRewrapExecutor
  refreshed : KvRewrapExecutor
  added : KvRewrapExecutor
  rotated : KvRewrapExecutor
  cleared : KvRewrapExecutor
  draft : KvDocumentDraft
  entries : List KvEncEntry
  masterKey : MasterKey
  signing : SigningContext
  signature : ArtifactSignature
  verified : verifyKvContent C content = .ok input
  built : KvRewrapExecutor.newFromVerified input ctx = .ok start
  steps : PlanRun (kvExecutor C) draws
    (planFor (kvExecutor C) ctx.options input.wrap.wrap ctx.targetMembers start)
    start removed refreshed added rotated cleared
  written : KvWritten C ctx input (renewalDraws draws
      (planFor (kvExecutor C) ctx.options input.wrap.wrap ctx.targetMembers start))
    ctx.options.clearDisclosureHistory rotated draft masterKey entries
  signs : buildSigningContext C ctx.keyCtx = .ok signing
  signed : SignedBy C draft masterKey signing signature text

/-- **A WHOLE REWRAP**: the text is a signed draft of the document the executor ended on. -/
theorem kv_run (hC : Lawful C) {draws : RewrapDraws} {content text : String} {ctx : RewrapContext}
    (h : rewrapKvDocument C draws content ctx = .ok text) :
    Nonempty (KvRun C draws content ctx text) := by
  obtain ⟨input, e₀, e₅, hverify, hnew, hplan, hfinal⟩ := rewrapDocument_ok h
  obtain ⟨_, hinitial⟩ := tracks_initial hverify hnew
  obtain ⟨e₁, e₂, e₃, e₄, hrun⟩ := applyPlan_ok hplan
  have htracks := tracks_run hC hinitial hrun
  obtain ⟨masterKey, signing, signature, hkey, hsigning, hsigned⟩ := finalize_ok hfinal
  cases hrun.clear with
  | skipped hnone heq =>
    subst heq
    have hnone' : ctx.options.clearDisclosureHistory = false := Bool.eq_false_iff.mpr hnone
    rw [htracks.session_eq] at hsigning
    refine ⟨⟨input, e₀, e₁, e₂, e₃, e₅, e₅, _, e₅.session.verified.entries, masterKey, signing,
      signature, hverify, hnew, hrun, ?_, hsigning, hsigned⟩⟩
    refine ⟨htracks, hkey, htracks.sid, htracks.aead, rfl, ?_,
      ⟨htracks.stands.raw, htracks.stands.entries⟩, ?_, fun _ => rfl⟩
    · rw [hnone', if_neg Bool.false_ne_true]
      rfl
    · exact List.forall₂_same.mpr fun _ _ => ⟨rfl, rfl, rfl⟩
  | done hsome hclear =>
    have hsome' : ctx.options.clearDisclosureHistory = true := hsome
    obtain ⟨hsession, hhead, hdata, entries, hstands, hsame⟩ := clear_ok htracks hclear
    rw [hsession] at hkey hsigning
    rw [htracks.session_eq] at hsigning
    refine ⟨⟨input, e₀, e₁, e₂, e₃, e₄, e₅, _, entries, masterKey, signing, signature, hverify,
      hnew, hrun, ?_, hsigning, hsigned⟩⟩
    refine ⟨htracks, hkey, ?_, ?_, ?_, ?_, ⟨hstands.raw, hstands.entries⟩, hsame,
      fun hfalse => ?_⟩
    · show e₅.doc.head.sid = _
      rw [hhead]
      exact htracks.sid
    · show e₅.doc.head.alg = _
      rw [hhead]
      exact htracks.aead
    · show e₅.doc.wrap.data.wrap = _
      rw [hdata]
    · show e₅.doc.wrap.data.removedRecipients = _
      rw [hdata, hsome', if_pos rfl]
    · rw [hsome'] at hfalse
      cases hfalse

/-- The draft carries the wraps the plan ended on. -/
theorem KvRun.wraps {draws : RewrapDraws} {content text : String} {ctx : RewrapContext}
    (run : KvRun C draws content ctx text) :
    recipientTable run.draft.wrap.data.wrap = recipients run.cleared := by
  rw [run.written.wraps]
  cases run.steps.clear with
  | skipped _ heq => rw [heq, recipients]
  | done _ hclear =>
    obtain ⟨_, _, hdata, _⟩ := clear_ok run.written.tracks hclear
    rw [recipients, hdata]

end KvRewrap
