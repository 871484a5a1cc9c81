import Kapsaro.FileDocument
import Kapsaro.RewrapPlan

/-!
# File rewrap — the file-enc backend of a rewrap

`feature/rewrap/file.rs`, `feature/rewrap/file_op/` and `feature/decrypt/file.rs`: the protected
part is edited in place; the payload is encrypted anew when the content key rotates, which the
removal of a recipient always does.

* **`decryptFileDocumentWithContext`** — the payload of a verified document, for a member.
* **`fileExecutor`**, **`rewrapFileDocument`** — the backend and the rewrap of a file-enc text.
* **`FileTracks`** — the invariant of the executor: sid and payload header are the input's, and
  payload and wraps go with the content key.
* **`tracks_add`**, **`tracks_rewrite`**, **`tracks_rotate`**, **`tracks_remove`** — one lemma for
  each operation; **`file_run`** carries the invariant through a whole rewrap.
-/

namespace FileRewrap

open JsonText Limits TextLines Base64Codec WireTexts WireModel DocumentTokens TokenRecords Envelope
open SignedArtifacts KeyedList FileDocument Recipients RewrapPlan

/-! ## Decryption -/

section Decryption

variable (C : Crypto)

/-- The content key of a verified document, for a member, with its proof checked. -/
def unwrapVerifiedFileContentKey (doc : FileEncDocument) (memberHandle : String)
    (keyCtx : CryptoContext) : Except Error MasterKey := do
  let masterKey ← unwrapMasterKeyWithContext C .file doc.protect.sid doc.protect.wrap memberHandle
    keyCtx
  verifyFileKeyPossession C doc masterKey
  pure masterKey

/-- The payload key under a content key. -/
def payloadKey (masterKey : MasterKey) (sid : Uuid) : FixedBytes 32 :=
  deriveFileContentKey C (fileKeySchedule C masterKey sid)

/-- The payload of a verified document, under a payload key. -/
def decryptFilePayload (doc : FileEncDocument) (contentKey : FixedBytes 32) :
    Except Error Bytes :=
  decryptFilePayloadContent C doc.protect.payload.encrypted contentKey doc.protect.payload.protect

def validateFileEncDocumentFormat (doc : FileEncDocument) : Except Error Unit :=
  if doc.protect.format ≠ fileEncV1 then
    .error (.parse s!"Invalid format: expected '{fileEncV1}', got '{doc.protect.format}'")
  else .ok ()

def validateFileEncDocumentPayload (doc : FileEncDocument) : Except Error Unit :=
  let header := doc.protect.payload.protect
  if header.format ≠ filePayloadV1 then
    .error (.parse s!"Invalid payload format: expected '{filePayloadV1}', got '{header.format}'")
  else if header.alg.aead ≠ aeadXChaCha20Poly1305 then
    .error (.crypto s!"Unsupported AEAD algorithm: {header.alg.aead}")
  else .ok ()

/-- Decrypt a verified document with the local key the context selects. -/
def decryptFileDocumentWithContext (doc : FileEncDocument) (memberHandle : String)
    (keyCtx : CryptoContext) : Except Error Bytes := do
  validateFileEncDocumentFormat doc
  validateFileEncDocumentPayload doc
  if doc.protect.payload.protect.sid ≠ doc.protect.sid then
    throw (.crypto (s!"SID mismatch: payload.protected.sid " ++
      s!"({doc.protect.payload.protect.sid.text}) != protected.sid ({doc.protect.sid.text})"))
  let masterKey ← unwrapMasterKeyWithContext C .file doc.protect.sid doc.protect.wrap memberHandle
    keyCtx
  verifyFileKeyPossession C doc masterKey
  decryptFilePayload C doc (payloadKey C masterKey doc.protect.sid)

end Decryption

/-! ## The executor -/

/-- The content key: not opened yet, that of the loaded document, or a fresh one. -/
inductive FileContentKeyState where
  | unloaded
  | original (key : MasterKey)
  | rotated (key : MasterKey)
deriving DecidableEq

structure FileRewrapExecutor where
  ctx : RewrapContext
  protect : FileEncDocumentProtected
  verified : FileEncDocument
  contentKey : FileContentKeyState

section Operations

variable (C : Crypto)

/-- The wraps to remove, with their kids. -/
def collectRemovals (wrap : List WrapItem) (recipientsToRemove : List String) :
    List (String × String) :=
  let currentRecipients := wrap.map WrapItem.recipientHandle
  recipientsToRemove.filterMap fun handle =>
    if checkRecipientExists currentRecipients handle then
      (wrap.find? fun item => item.recipientHandle = handle).map fun item => (handle, item.kid)
    else none

/-- Record removals; the times are drawn in order. -/
def recordFileRemovals (clock : Nat → Timestamp) :
    Nat → List (String × String) → Option (List RemovedRecipient) → Option (List RemovedRecipient)
  | _, [], history => history
  | i, (handle, kid) :: rest, history =>
    recordFileRemovals clock (i + 1) rest (addToRemovedHistory history handle kid (clock i))

/-- Drop the wraps that are removed, one handle after the other. -/
def dropWraps (wrap : List WrapItem) (removals : List (String × String)) : List WrapItem :=
  removals.foldl (fun items removal => items.filter fun item => item.recipientHandle ≠ removal.1)
    wrap

def removeFileRecipients (protect : FileEncDocumentProtected) (recipientsToRemove : List String)
    (clock : Nat → Timestamp) : Except Error FileEncDocumentProtected := do
  let toRemove := collectRemovals protect.wrap recipientsToRemove
  let protect := { protect with
    removedRecipients := recordFileRemovals clock 0 toRemove protect.removedRecipients
    wrap := dropWraps protect.wrap toRemove }
  validateNotEmptyRecipients protect.recipients
  pure protect

def addFileRecipients (protect : FileEncDocumentProtected) (contentKey : MasterKey)
    (newRecipients : List String) (targetMembers : List VerifiedRecipientKey)
    (seed : Nat → Bytes) : Except Error FileEncDocumentProtected := do
  let items ← buildNewWrapItems C .file protect.sid contentKey seed protect.recipients
    protect.wrap.length newRecipients targetMembers
  pure { protect with wrap := protect.wrap ++ items }

def rewriteFileRecipientWraps (protect : FileEncDocumentProtected) (contentKey : MasterKey)
    (recipientsToRefresh : List String) (targetMembers : List VerifiedRecipientKey)
    (seed : Nat → Bytes) : Except Error FileEncDocumentProtected := do
  let items ← replaceRecipientWrapItems C .file protect.sid contentKey seed protect.wrap
    recipientsToRefresh targetMembers
  pure { protect with wrap := items }

/-- Encrypt the payload under a fresh content key, and wrap that for the current recipients. -/
def rotateFileKey (protect : FileEncDocumentProtected) (verified : FileEncDocument)
    (oldContentKey : MasterKey) (targetMembers : List VerifiedRecipientKey) (entropy : Entropy) :
    Except Error (MasterKey × FileEncDocumentProtected) := do
  let plaintext ← decryptFilePayload C verified (payloadKey C oldContentKey protect.sid)
  let encrypted ← encryptFilePayloadContent C plaintext
    (payloadKey C entropy.masterKey protect.sid) protect.payload.protect (entropy.nonce 0)
  let members ← resolveSnapshotVerifiedRecipients targetMembers protect.recipients
  let items ← buildWrapsForRecipients C members protect.sid entropy.masterKey .file entropy.seed
  pure (entropy.masterKey, { protect with
    payload := { protect.payload with encrypted := encrypted }
    wrap := items })

namespace FileRewrapExecutor

def new (verified : FileEncDocument) (ctx : RewrapContext) : FileRewrapExecutor where
  ctx := ctx
  protect := verified.protect
  verified := verified
  contentKey := .unloaded

def currentRecipients (e : FileRewrapExecutor) : List String :=
  e.protect.wrap.map WrapItem.recipientHandle

/-- Open the content key unless that was done; the key is returned with the state that holds it. -/
def ensureContentKey (e : FileRewrapExecutor) : Except Error (MasterKey × FileRewrapExecutor) :=
  match e.contentKey with
  | .original key => .ok (key, e)
  | .rotated key => .ok (key, e)
  | .unloaded => do
    let key ← unwrapVerifiedFileContentKey C e.verified e.ctx.memberHandle e.ctx.keyCtx
    pure (key, { e with contentKey := .original key })

def addRecipients (entropy : Entropy) (recipients : List String) (e : FileRewrapExecutor) :
    Except Error FileRewrapExecutor := do
  let (key, e) ← e.ensureContentKey C
  let protect ← addFileRecipients C e.protect key recipients e.ctx.targetMembers entropy.seed
  pure { e with protect := protect }

def rewriteRecipientWraps (entropy : Entropy) (recipients : List String)
    (e : FileRewrapExecutor) : Except Error FileRewrapExecutor := do
  let (key, e) ← e.ensureContentKey C
  let protect ← rewriteFileRecipientWraps C e.protect key recipients e.ctx.targetMembers
    entropy.seed
  pure { e with protect := protect }

def rotateKey (entropy : Entropy) (e : FileRewrapExecutor) : Except Error FileRewrapExecutor :=
  match e.contentKey with
  | .rotated _ => .ok e
  | _ => do
    let (key, e) ← e.ensureContentKey C
    let (contentKey, protect) ← rotateFileKey C e.protect e.verified key e.ctx.targetMembers
      entropy
    pure { e with protect := protect, contentKey := .rotated contentKey }

def removeRecipients (entropy : Entropy) (recipients : List String) (e : FileRewrapExecutor) :
    Except Error FileRewrapExecutor := do
  let protect ← removeFileRecipients e.protect recipients entropy.clock
  rotateKey C entropy { e with protect := protect }

def clearDisclosureHistory (e : FileRewrapExecutor) : Except Error FileRewrapExecutor :=
  .ok { e with protect := { e.protect with removedRecipients := none } }

def finalize (entropy : Entropy) (e : FileRewrapExecutor) : Except Error String := do
  let (key, e) ← e.ensureContentKey C
  let protect := { e.protect with updatedAt := (entropy.clock 0).text }
  let signing ← buildSigningContext C e.ctx.keyCtx
  let macKey := deriveFileMacKey C (fileKeySchedule C key protect.sid)
  let signature ← signFileDocument C protect macKey signing
  pure (writeFileEnc { protect, signature })

end FileRewrapExecutor

/-- The file-enc operations. -/
def fileExecutor : RewrapExecutor FileRewrapExecutor where
  currentRecipients := FileRewrapExecutor.currentRecipients
  addRecipients := FileRewrapExecutor.addRecipients C
  rewriteRecipientWraps := FileRewrapExecutor.rewriteRecipientWraps C
  removeRecipients := FileRewrapExecutor.removeRecipients C
  rotateKey := FileRewrapExecutor.rotateKey C
  clearDisclosureHistory := FileRewrapExecutor.clearDisclosureHistory
  finalize := FileRewrapExecutor.finalize C

/-- The file-enc format. -/
def fileAdapter : RewrapDocumentAdapter FileEncDocument FileRewrapExecutor where
  verifyContent := verifyFileContent C
  currentWrapItems := fun doc => doc.protect.wrap
  buildExecutor := fun verified ctx => .ok (FileRewrapExecutor.new verified ctx)
  executor := fileExecutor C

/-- Rewrap a file-enc text. -/
def rewrapFileDocument (draws : RewrapDraws) (content : String) (ctx : RewrapContext) :
    Except Error String :=
  rewrapDocumentWithCommonSkeleton (fileAdapter C) draws content ctx

end Operations

variable {C : Crypto}

/-! ## What the helpers do -/

theorem dropWraps_eq (wrap : List WrapItem) (removals : List (String × String)) :
    dropWraps wrap removals
      = wrap.filter fun item => item.recipientHandle ∉ removals.map Prod.fst := by
  rw [dropWraps]
  induction removals generalizing wrap with
  | nil => exact (List.filter_eq_self.mpr fun _ _ => by simp).symm
  | cons removal removals ih =>
    rw [List.foldl_cons, ih, List.filter_filter]
    refine List.filter_congr fun item _ => ?_
    rw [Bool.eq_iff_iff]
    simp only [List.map_cons, List.mem_cons, Bool.and_eq_true, decide_eq_true_iff, not_or]
    exact and_comm

/-- A handle with a wrap is removed exactly when that is asked for. -/
theorem mem_collectRemovals {wrap : List WrapItem} {handles : List String} {item : WrapItem}
    (hitem : item ∈ wrap) :
    item.recipientHandle ∈ (collectRemovals wrap handles).map Prod.fst
      ↔ item.recipientHandle ∈ handles := by
  have hcurrent : checkRecipientExists (wrap.map WrapItem.recipientHandle) item.recipientHandle
      = true := by
    rw [checkRecipientExists_eq, decide_eq_true_iff]
    exact List.mem_map_of_mem hitem
  constructor
  · intro h
    obtain ⟨pair, hpair, heq⟩ := List.mem_map.mp h
    obtain ⟨handle, hhandle, hsome⟩ := List.mem_filterMap.mp hpair
    split at hsome
    · obtain ⟨found, _, rfl⟩ := Option.map_eq_some_iff.mp hsome
      rwa [← heq]
    · cases hsome
  · intro h
    obtain ⟨found, hfound⟩ : ∃ found,
        wrap.find? (fun w => w.recipientHandle = item.recipientHandle) = some found := by
      cases hfind : wrap.find? (fun w => w.recipientHandle = item.recipientHandle) with
      | none => exact absurd (decide_eq_true rfl) (List.find?_eq_none.mp hfind item hitem)
      | some found => exact ⟨found, rfl⟩
    refine List.mem_map.mpr ⟨(item.recipientHandle, found.kid),
      List.mem_filterMap.mpr ⟨_, h, ?_⟩, rfl⟩
    rw [if_pos hcurrent, hfound]
    rfl

/-- **REMOVAL DROPS THE NAMED WRAPS** and records them. -/
theorem removeFileRecipients_ok {protect protect' : FileEncDocumentProtected}
    {handles : List String} {clock : Nat → Timestamp}
    (h : removeFileRecipients protect handles clock = .ok protect') :
    protect' = { protect with
      removedRecipients := recordFileRemovals clock 0 (collectRemovals protect.wrap handles)
        protect.removedRecipients
      wrap := protect.wrap.filter fun item => item.recipientHandle ∉ handles } := by
  obtain ⟨_, _, h⟩ := bind_eq_ok.mp h
  obtain rfl := Except.ok.inj h
  have hwrap : dropWraps protect.wrap (collectRemovals protect.wrap handles)
      = protect.wrap.filter fun item => item.recipientHandle ∉ handles := by
    rw [dropWraps_eq]
    refine List.filter_congr fun item hitem => ?_
    rw [decide_eq_decide, mem_collectRemovals hitem]
  rw [hwrap]

/-- Recording removals keeps every kid of the history. -/
theorem kids_recordFileRemovals (clock : Nat → Timestamp) (i : Nat)
    (removals : List (String × String)) (history : Option (List RemovedRecipient)) {kid : String}
    (h : kid ∈ historyKids history) :
    kid ∈ historyKids (recordFileRemovals clock i removals history) := by
  induction removals generalizing i history with
  | nil => exact h
  | cons removal removals ih =>
    exact ih (i + 1) _ ((kids_addToRemovedHistory _ _ _ _ _).mpr (Or.inr h))

/-- **ROTATION**: the payload is that of the verified document under the fresh key, and every
    wrap seals that key. -/
theorem rotateFileKey_ok {protect : FileEncDocumentProtected}
    {rotated : MasterKey × FileEncDocumentProtected} {verified : FileEncDocument}
    {oldContentKey : MasterKey} {targetMembers : List VerifiedRecipientKey} {entropy : Entropy}
    (h : rotateFileKey C protect verified oldContentKey targetMembers entropy = .ok rotated) :
    ∃ plaintext encrypted items,
      decryptFilePayload C verified (payloadKey C oldContentKey protect.sid) = .ok plaintext
      ∧ encryptFilePayloadContent C plaintext (payloadKey C entropy.masterKey protect.sid)
          protect.payload.protect (entropy.nonce 0) = .ok encrypted
      ∧ items.map WrapItem.recipientHandle = protect.recipients
      ∧ (∀ item ∈ items, BuiltFor C .file protect.sid entropy.masterKey targetMembers item)
      ∧ rotated = (entropy.masterKey, { protect with
          payload := { protect.payload with encrypted := encrypted }
          wrap := items }) := by
  obtain ⟨plaintext, hplaintext, h⟩ := bind_eq_ok.mp h
  obtain ⟨encrypted, hencrypted, h⟩ := bind_eq_ok.mp h
  obtain ⟨members, hmembers, h⟩ := bind_eq_ok.mp h
  obtain ⟨items, hitems, h⟩ := bind_eq_ok.mp h
  obtain ⟨_, hbuilt⟩ := buildWrapsForRecipients_ok hitems
  obtain ⟨hhandles, hsub⟩ := resolveSnapshot_ok hmembers
  have hrecipients := congrArg (List.map Prod.fst) (recipients_of_built hbuilt)
  rw [List.map_map, List.map_map] at hrecipients
  exact ⟨plaintext, encrypted, items, hplaintext, hencrypted, hrecipients.trans hhandles,
    builtFor_of_forall₂ hsub hbuilt, (Except.ok.inj h).symm⟩

/-! ## The invariant -/

/-- The content key an executor holds. -/
def FileContentKeyState.loaded : FileContentKeyState → Option MasterKey
  | .unloaded => none
  | .original key => some key
  | .rotated key => some key

/-- What payload and wraps go with: the content key of the input, or the one that was drawn. -/
inductive FileOrigin (C : Crypto) (ctx : RewrapContext) (input : FileEncDocument)
    (e : FileRewrapExecutor) : Option Entropy → Prop
  | original :
      (∀ key ∈ e.contentKey.loaded, e.contentKey = .original key
        ∧ unwrapVerifiedFileContentKey C input ctx.memberHandle ctx.keyCtx = .ok key) →
      e.protect.payload = input.protect.payload →
      (∀ item ∈ e.protect.wrap, item ∈ input.protect.wrap
        ∨ ∃ key, unwrapVerifiedFileContentKey C input ctx.memberHandle ctx.keyCtx = .ok key
          ∧ BuiltFor C .file input.protect.sid key ctx.targetMembers item) →
      FileOrigin C ctx input e none
  | rotated {entropy : Entropy} {oldKey : MasterKey} {plaintext : Bytes} :
      e.contentKey = .rotated entropy.masterKey →
      unwrapVerifiedFileContentKey C input ctx.memberHandle ctx.keyCtx = .ok oldKey →
      decryptFilePayload C input (payloadKey C oldKey input.protect.sid) = .ok plaintext →
      encryptFilePayloadContent C plaintext (payloadKey C entropy.masterKey input.protect.sid)
        input.protect.payload.protect (entropy.nonce 0) = .ok e.protect.payload.encrypted →
      (∀ item ∈ e.protect.wrap,
        BuiltFor C .file input.protect.sid entropy.masterKey ctx.targetMembers item) →
      FileOrigin C ctx input e (some entropy)

/-- **THE INVARIANT** of the executor. -/
structure FileTracks (C : Crypto) (ctx : RewrapContext) (input : FileEncDocument)
    (drawn : Option Entropy) (e : FileRewrapExecutor) : Prop where
  ctx_eq : e.ctx = ctx
  verified_eq : e.verified = input
  format : e.protect.format = input.protect.format
  sid : e.protect.sid = input.protect.sid
  createdAt : e.protect.createdAt = input.protect.createdAt
  header : e.protect.payload.protect = input.protect.payload.protect
  origin : FileOrigin C ctx input e drawn

/-- The recipients an executor shows. -/
def recipients (e : FileRewrapExecutor) : List (String × String) :=
  recipientTable e.protect.wrap

theorem currentRecipients_eq (e : FileRewrapExecutor) :
    e.currentRecipients = (recipients e).map Prod.fst :=
  (keys_recipientTable _).symm

theorem tracks_initial (input : FileEncDocument) (ctx : RewrapContext) :
    FileTracks C ctx input none (FileRewrapExecutor.new input ctx) :=
  ⟨rfl, rfl, rfl, rfl, rfl, rfl,
    .original (fun _ hkey => by cases hkey) rfl fun _ hitem => Or.inl hitem⟩

/-- What opening the content key does: the key was there, or it is that of the verified document. -/
theorem ensure_ok {e e' : FileRewrapExecutor} {key : MasterKey}
    (h : e.ensureContentKey C = .ok (key, e')) :
    (e' = e ∧ e.contentKey.loaded = some key)
      ∨ (e.contentKey = .unloaded ∧ e' = { e with contentKey := .original key }
        ∧ unwrapVerifiedFileContentKey C e.verified e.ctx.memberHandle e.ctx.keyCtx = .ok key) := by
  rw [FileRewrapExecutor.ensureContentKey] at h
  cases hstate : e.contentKey with
  | original k =>
    rw [hstate] at h
    obtain ⟨rfl, rfl⟩ := Prod.mk.inj (Except.ok.inj h)
    exact Or.inl ⟨rfl, rfl⟩
  | rotated k =>
    rw [hstate] at h
    obtain ⟨rfl, rfl⟩ := Prod.mk.inj (Except.ok.inj h)
    exact Or.inl ⟨rfl, rfl⟩
  | unloaded =>
    rw [hstate] at h
    obtain ⟨k, hunwrap, h⟩ := bind_eq_ok.mp h
    obtain ⟨rfl, rfl⟩ := Prod.mk.inj (Except.ok.inj h)
    exact Or.inr ⟨rfl, rfl, hunwrap⟩

/-- Opening the content key touches neither the protected part nor the context. -/
theorem ensure_frame {e e' : FileRewrapExecutor} {key : MasterKey}
    (h : e.ensureContentKey C = .ok (key, e')) : e'.protect = e.protect ∧ e'.ctx = e.ctx := by
  rcases ensure_ok h with ⟨rfl, _⟩ | ⟨_, rfl, _⟩ <;> exact ⟨rfl, rfl⟩

/-- Opening the content key does not look at the protected part. -/
theorem ensure_protect {e e' : FileRewrapExecutor} {key : MasterKey}
    (protect : FileEncDocumentProtected) (h : e.ensureContentKey C = .ok (key, e')) :
    ({ e with protect := protect } : FileRewrapExecutor).ensureContentKey C
      = .ok (key, { e' with protect := protect }) := by
  rw [FileRewrapExecutor.ensureContentKey] at h ⊢
  cases hstate : e.contentKey with
  | unloaded =>
    rw [hstate] at h
    obtain ⟨k, hunwrap, h⟩ := bind_eq_ok.mp h
    obtain ⟨rfl, rfl⟩ := Prod.mk.inj (Except.ok.inj h)
    exact bind_eq_ok.mpr ⟨k, hunwrap, rfl⟩
  | original k | rotated k =>
    rw [hstate] at h
    obtain ⟨rfl, rfl⟩ := Prod.mk.inj (Except.ok.inj h)
    dsimp only
    rw [hstate]

/-- **OPENING THE CONTENT KEY** keeps the invariant and the protected part. -/
theorem tracks_ensure {ctx : RewrapContext} {input : FileEncDocument} {drawn : Option Entropy}
    {e e' : FileRewrapExecutor} {key : MasterKey} (h : FileTracks C ctx input drawn e)
    (hensure : e.ensureContentKey C = .ok (key, e')) :
    FileTracks C ctx input drawn e' ∧ e'.protect = e.protect
      ∧ e'.contentKey.loaded = some key := by
  rcases ensure_ok hensure with ⟨rfl, hloaded⟩ | ⟨hstate, rfl, hunwrap⟩
  · exact ⟨h, rfl, hloaded⟩
  · rw [h.verified_eq, h.ctx_eq] at hunwrap
    refine ⟨⟨h.ctx_eq, h.verified_eq, h.format, h.sid, h.createdAt, h.header, ?_⟩, rfl, rfl⟩
    cases h.origin with
    | original _ hpayload hwraps =>
      refine .original (fun key' hkey' => ?_) hpayload hwraps
      obtain rfl : key = key' := Option.mem_some_iff.mp hkey'
      exact ⟨rfl, hunwrap⟩
    | rotated hrotated => rw [hstate] at hrotated; cases hrotated

/-- The key that is in use when an executor holds one. -/
theorem FileTracks.builtFor {ctx : RewrapContext} {input : FileEncDocument}
    {drawn : Option Entropy} {e : FileRewrapExecutor} {key : MasterKey}
    (h : FileTracks C ctx input drawn e) (hkey : e.contentKey.loaded = some key)
    {wrap : List WrapItem}
    (hwrap : ∀ item ∈ wrap, item ∈ e.protect.wrap
      ∨ BuiltFor C .file input.protect.sid key ctx.targetMembers item) :
    FileTracks C ctx input drawn { e with protect := { e.protect with wrap := wrap } } := by
  refine ⟨h.ctx_eq, h.verified_eq, h.format, h.sid, h.createdAt, h.header, ?_⟩
  cases h.origin with
  | original hloaded hpayload hwraps =>
    refine .original hloaded hpayload fun item hitem => ?_
    rcases hwrap item hitem with hold | hnew
    · exact hwraps item hold
    · exact Or.inr ⟨key, (hloaded key hkey).2, hnew⟩
  | rotated hstate hold hplain hencrypted hwraps =>
    rw [hstate] at hkey
    obtain rfl := Option.some.inj hkey
    refine .rotated hstate hold hplain hencrypted fun item hitem => ?_
    rcases hwrap item hitem with hkept | hnew
    · exact hwraps item hkept
    · exact hnew

/-- **ADDING** keeps the invariant and the history, and appends the new recipients. -/
theorem tracks_add {ctx : RewrapContext} {input : FileEncDocument} {drawn : Option Entropy}
    {e e' : FileRewrapExecutor} {entropy : Entropy} {handles : List String}
    (h : FileTracks C ctx input drawn e) (hadd : e.addRecipients C entropy handles = .ok e') :
    FileTracks C ctx input drawn e'
      ∧ e'.protect.removedRecipients = e.protect.removedRecipients
      ∧ Edited (targetTable ctx.targetMembers) (fun _ => False)
        ((recipients e).map Prod.fst ++ handles.filter (· ∉ (recipients e).map Prod.fst))
        (recipients e) (recipients e') := by
  obtain ⟨⟨key, e₁⟩, hensure, hadd⟩ := bind_eq_ok.mp hadd
  obtain ⟨protect, hprotect, hadd⟩ := bind_eq_ok.mp hadd
  obtain rfl := Except.ok.inj hadd
  obtain ⟨items, hitems, hprotect⟩ := bind_eq_ok.mp hprotect
  obtain rfl := Except.ok.inj hprotect
  obtain ⟨htracks, hsame, hkey⟩ := tracks_ensure h hensure
  obtain ⟨hhandles, _, hbuilt⟩ := buildNewWrapItems_ok hitems
  rw [htracks.sid, htracks.ctx_eq] at hbuilt
  refine ⟨htracks.builtFor hkey fun item hitem => ?_, ?_, ?_⟩
  · rcases List.mem_append.mp hitem with hold | hnew
    · exact Or.inl hold
    · exact Or.inr (hbuilt item hnew)
  · rw [← hsame]
  · rw [recipients, ← hsame]
    exact edited_added hhandles fun item hitem => (hbuilt item hitem).recipient

/-- **REFRESHING** keeps the invariant and the history, and moves the refreshed recipients to the
    end. -/
theorem tracks_rewrite {ctx : RewrapContext} {input : FileEncDocument} {drawn : Option Entropy}
    {e e' : FileRewrapExecutor} {entropy : Entropy} {handles : List String}
    (h : FileTracks C ctx input drawn e)
    (hrewrite : e.rewriteRecipientWraps C entropy handles = .ok e') :
    FileTracks C ctx input drawn e'
      ∧ e'.protect.removedRecipients = e.protect.removedRecipients
      ∧ Edited (targetTable ctx.targetMembers) (· ∈ handles)
        (((recipients e).map Prod.fst).filter (· ∉ handles) ++ handles)
        (recipients e) (recipients e') := by
  obtain ⟨⟨key, e₁⟩, hensure, hrewrite⟩ := bind_eq_ok.mp hrewrite
  obtain ⟨protect, hprotect, hrewrite⟩ := bind_eq_ok.mp hrewrite
  obtain rfl := Except.ok.inj hrewrite
  obtain ⟨items, hitems, hprotect⟩ := bind_eq_ok.mp hprotect
  obtain rfl := Except.ok.inj hprotect
  obtain ⟨htracks, hsame, hkey⟩ := tracks_ensure h hensure
  obtain ⟨rebuilt, rfl, hhandles, hbuilt⟩ := replaceRecipientWrapItems_ok hitems
  rw [htracks.sid, htracks.ctx_eq] at hbuilt
  refine ⟨htracks.builtFor hkey fun item hitem => ?_, ?_, ?_⟩
  · rcases List.mem_append.mp hitem with hold | hnew
    · exact Or.inl (List.mem_filter.mp hold).1
    · exact Or.inr (hbuilt item hnew)
  · rw [← hsame]
  · rw [recipients, ← hsame]
    exact edited_replaced hhandles fun item hitem => (hbuilt item hitem).recipient

/-- **ROTATING** encrypts the payload anew and wraps the fresh key, unless that was done. -/
theorem tracks_rotate {ctx : RewrapContext} {input : FileEncDocument} {drawn : Option Entropy}
    {e e' : FileRewrapExecutor} {entropy : Entropy} (h : FileTracks C ctx input drawn e)
    (hrotate : e.rotateKey C entropy = .ok e') :
    FileTracks C ctx input (drawn.getD entropy) e'
      ∧ e'.protect.removedRecipients = e.protect.removedRecipients
      ∧ Edited (targetTable ctx.targetMembers) (fun _ => False) ((recipients e).map Prod.fst)
        (recipients e) (recipients e') := by
  rw [FileRewrapExecutor.rotateKey] at hrotate
  -- A content key that was rotated once is not rotated again.
  cases horigin : h.origin with
  | rotated hstate hold hplain hencrypted hwraps =>
    rw [hstate] at hrotate
    obtain rfl := Except.ok.inj hrotate
    exact ⟨h, rfl, Edited.refl _ _⟩
  | original hloaded hpayload hwraps =>
    have hnot : ∀ k, e.contentKey ≠ .rotated k := by
      intro k hk
      have hsome : e.contentKey.loaded = some k := by rw [hk]; rfl
      have horiginal := (hloaded k hsome).1
      rw [hk] at horiginal
      cases horiginal
    -- In the other case the key is loaded, used to decrypt, and replaced.
    have hsteps : (do
        let (key, e) ← e.ensureContentKey C
        let (contentKey, protect) ← rotateFileKey C e.protect e.verified key e.ctx.targetMembers
          entropy
        pure { e with protect := protect, contentKey := .rotated contentKey } :
          Except Error FileRewrapExecutor) = .ok e' := by
      split at hrotate
      · rename_i k hk
        exact absurd hk (hnot k)
      · exact hrotate
    obtain ⟨⟨key, e₁⟩, hensure, hsteps⟩ := bind_eq_ok.mp hsteps
    obtain ⟨rotated, hrotated, hsteps⟩ := bind_eq_ok.mp hsteps
    obtain rfl := Except.ok.inj hsteps
    obtain ⟨htracks, hsame, hkey⟩ := tracks_ensure h hensure
    obtain ⟨plaintext, encrypted, items, hplain, hencrypted, hhandles, hbuilt, rfl⟩ :=
      rotateFileKey_ok hrotated
    have hunwrap : unwrapVerifiedFileContentKey C input ctx.memberHandle ctx.keyCtx = .ok key := by
      cases htracks.origin with
      | original hloaded' => exact (hloaded' key hkey).2
    rw [htracks.sid, htracks.verified_eq] at hplain
    rw [htracks.sid, htracks.header] at hencrypted
    rw [htracks.sid, htracks.ctx_eq] at hbuilt
    refine ⟨⟨htracks.ctx_eq, htracks.verified_eq, htracks.format, htracks.sid, htracks.createdAt,
      htracks.header, .rotated rfl hunwrap hplain hencrypted hbuilt⟩, ?_, ?_, ?_⟩
    · rw [← hsame]
    · rw [recipients, recipients, keys_recipientTable, keys_recipientTable, ← hsame]
      exact hhandles
    · intro pair hpair
      obtain ⟨item, hitem, rfl⟩ := List.mem_map.mp hpair
      exact Or.inl (hbuilt item hitem).recipient

/-- **REMOVING** drops the wraps, records them, and rotates. -/
theorem tracks_remove {ctx : RewrapContext} {input : FileEncDocument} {drawn : Option Entropy}
    {e e' : FileRewrapExecutor} {entropy : Entropy} {handles : List String}
    (h : FileTracks C ctx input drawn e)
    (hremove : e.removeRecipients C entropy handles = .ok e') :
    FileTracks C ctx input (drawn.getD entropy) e'
      ∧ e'.protect.removedRecipients = recordFileRemovals entropy.clock 0
          (collectRemovals e.protect.wrap handles) e.protect.removedRecipients
      ∧ Edited (targetTable ctx.targetMembers) (fun _ => False)
        (((recipients e).map Prod.fst).filter (· ∉ handles)) (recipients e) (recipients e') := by
  obtain ⟨protect, hprotect, hrotate⟩ := bind_eq_ok.mp hremove
  obtain rfl := removeFileRecipients_ok hprotect
  have hsub : ∀ item ∈ e.protect.wrap.filter (fun item => item.recipientHandle ∉ handles),
      item ∈ e.protect.wrap := fun item hitem => (List.mem_filter.mp hitem).1
  have hdropped : FileTracks C ctx input drawn { e with protect := { e.protect with
      removedRecipients := recordFileRemovals entropy.clock 0
        (collectRemovals e.protect.wrap handles) e.protect.removedRecipients
      wrap := e.protect.wrap.filter fun item => item.recipientHandle ∉ handles } } := by
    refine ⟨h.ctx_eq, h.verified_eq, h.format, h.sid, h.createdAt, h.header, ?_⟩
    cases h.origin with
    | original hloaded hpayload hwraps =>
      exact .original hloaded hpayload fun item hitem => hwraps item (hsub item hitem)
    | rotated hstate hold hplain hencrypted hwraps =>
      exact .rotated hstate hold hplain hencrypted fun item hitem => hwraps item (hsub item hitem)
  obtain ⟨htracks, hhistory, hkeys, hpairs⟩ := tracks_rotate hdropped hrotate
  refine ⟨htracks, hhistory, ?_, fun pair hpair => ?_⟩
  · rw [hkeys, recipients, recipients, keys_recipientTable, keys_recipientTable, List.filter_map]
    rfl
  · rcases hpairs pair hpair with hnew | ⟨hold, _⟩
    · exact Or.inl hnew
    · obtain ⟨item, hitem, rfl⟩ := List.mem_map.mp hold
      exact Or.inr ⟨List.mem_map_of_mem (hsub item hitem), not_false⟩

/-- **THE FILE-ENC OPERATIONS FOLLOW THE LAWS** of a recipient table. -/
theorem fileLaws (ctx : RewrapContext) (input : FileEncDocument) :
    RecipientLaws (fileExecutor C) (targetTable ctx.targetMembers) recipients
      fun e => ∃ drawn, FileTracks C ctx input drawn e where
  current := currentRecipients_eq
  remove := by
    rintro entropy handles e e' ⟨drawn, h⟩ hremove
    obtain ⟨htracks, _, hedited⟩ := tracks_remove h hremove
    exact ⟨⟨_, htracks⟩, hedited⟩
  rewrite := by
    rintro entropy handles e e' ⟨drawn, h⟩ hrewrite
    obtain ⟨htracks, _, hedited⟩ := tracks_rewrite h hrewrite
    exact ⟨⟨_, htracks⟩, hedited⟩
  add := by
    rintro entropy handles e e' ⟨drawn, h⟩ hadd
    obtain ⟨htracks, _, hedited⟩ := tracks_add h hadd
    exact ⟨⟨_, htracks⟩, hedited⟩
  rotate := by
    rintro entropy e e' ⟨drawn, h⟩ hrotate
    obtain ⟨htracks, _, hedited⟩ := tracks_rotate h hrotate
    exact ⟨⟨_, htracks⟩, hedited⟩
  clear := by
    rintro e e' _ hclear
    obtain rfl := Except.ok.inj hclear
    rfl

/-! ## A whole rewrap -/

/-- **THE INVARIANT HOLDS UP TO THE CLEARING**, with the draws of the step that renewed the key. -/
theorem tracks_run {ctx : RewrapContext} {input : FileEncDocument} {draws : RewrapDraws}
    {plan : RewrapOperationPlan} {e₀ e₁ e₂ e₃ e₄ e₅ : FileRewrapExecutor}
    (h : FileTracks C ctx input none e₀)
    (hrun : PlanRun (fileExecutor C) draws plan e₀ e₁ e₂ e₃ e₄ e₅) :
    FileTracks C ctx input (renewalDraws draws plan) e₄ := by
  rw [renewalDraws]
  have hfirst : FileTracks C ctx input
      (if plan.removeRecipients ≠ [] then some draws.remove else none) e₁ := by
    cases hrun.remove with
    | skipped hnone heq =>
      rw [if_neg hnone, heq]
      exact h
    | done hsome hremove =>
      rw [if_pos hsome]
      exact (tracks_remove h hremove).1
  generalize hdrawn : (if plan.removeRecipients ≠ [] then some draws.remove else none) = drawn
    at hfirst
  have hsecond : FileTracks C ctx input drawn e₂ :=
    hrun.stale.keeps hfirst fun htracks hstep => (tracks_rewrite htracks hstep).1
  have hthird : FileTracks C ctx input drawn e₃ :=
    hrun.add.keeps hsecond fun htracks hstep => (tracks_add htracks hstep).1
  cases hrun.rotate with
  | skipped hnone heq =>
    rw [Bool.not_eq_true] at hnone
    rw [heq, hnone, if_neg Bool.false_ne_true, hdrawn]
    exact hthird
  | done hsome hrotate =>
    have hfourth := (tracks_rotate hthird hrotate).1
    rw [hsome, if_pos rfl]
    by_cases hremoved : plan.removeRecipients ≠ []
    · rw [if_pos hremoved] at hdrawn ⊢
      rw [← hdrawn] at hfourth
      exact hfourth
    · rw [if_neg hremoved] at hdrawn ⊢
      rw [← hdrawn] at hfourth
      exact hfourth

/-- A successful rewrap, taken apart. -/
structure FileRun (C : Crypto) (draws : RewrapDraws) (content : String) (ctx : RewrapContext)
    (text : String) where
  input : FileEncDocument
  removed : FileRewrapExecutor
  refreshed : FileRewrapExecutor
  added : FileRewrapExecutor
  rotated : FileRewrapExecutor
  cleared : FileRewrapExecutor
  masterKey : MasterKey
  signing : SigningContext
  output : FileEncDocument
  mac : KeyPossessionProof
  verified : verifyFileContent C content = .ok input
  steps : PlanRun (fileExecutor C) draws
    (planFor (fileExecutor C) ctx.options input.protect.wrap ctx.targetMembers
      (FileRewrapExecutor.new input ctx))
    (FileRewrapExecutor.new input ctx) removed refreshed added rotated cleared
  tracks : FileTracks C ctx input (renewalDraws draws
      (planFor (fileExecutor C) ctx.options input.protect.wrap ctx.targetMembers
        (FileRewrapExecutor.new input ctx))) rotated
  opened : FileRewrapExecutor
  key : rotated.ensureContentKey C = .ok (masterKey, opened)
  signs : buildSigningContext C ctx.keyCtx = .ok signing
  protect_eq : output.protect = { rotated.protect with
    removedRecipients := if ctx.options.clearDisclosureHistory then none
      else rotated.protect.removedRecipients
    updatedAt := (draws.finalize.clock 0).text }
  proof : buildKeyPossessionProof C (buildFileArtifactBodyBytes output.protect)
    (deriveFileMacKey C (fileKeySchedule C masterKey output.protect.sid)) signing.signerKid.text
      = .ok mac
  signature_eq : output.signature
    = buildArtifactSignature C (buildFileArtifactBodyBytes output.protect) mac signing
  text_eq : text = writeFileEnc output

/-- **A WHOLE REWRAP**: the text is the signed document the executor ended on. -/
theorem file_run {draws : RewrapDraws} {content text : String} {ctx : RewrapContext}
    (h : rewrapFileDocument C draws content ctx = .ok text) :
    Nonempty (FileRun C draws content ctx text) := by
  obtain ⟨input, e₀, e₅, hverify, hnew, hplan, hfinal⟩ := rewrapDocument_ok h
  obtain rfl := Except.ok.inj hnew
  obtain ⟨e₁, e₂, e₃, e₄, hrun⟩ := applyPlan_ok hplan
  have htracks := tracks_run (tracks_initial input ctx) hrun
  obtain ⟨⟨key, e⟩, hensure, hfinal⟩ := bind_eq_ok.mp hfinal
  obtain ⟨signing, hsigning, hfinal⟩ := bind_eq_ok.mp hfinal
  obtain ⟨signature, hsignature, hfinal⟩ := bind_eq_ok.mp hfinal
  obtain ⟨mac, hmac, hsignature⟩ := bind_eq_ok.mp hsignature
  obtain rfl := Except.ok.inj hsignature
  obtain ⟨hprotect, hctx⟩ := ensure_frame hensure
  -- clearing touches the history only, opening the key nothing that is written
  have hclear : ∃ opened, e₄.ensureContentKey C = .ok (key, opened) ∧ e.ctx = e₄.ctx
      ∧ e.protect = { e₄.protect with
        removedRecipients := if ctx.options.clearDisclosureHistory then none
          else e₄.protect.removedRecipients } := by
    cases hrun.clear with
    | skipped hnone heq =>
      have hnone' : ctx.options.clearDisclosureHistory = false := Bool.eq_false_iff.mpr hnone
      rw [hnone', if_neg Bool.false_ne_true, hprotect, hctx, ← heq]
      exact ⟨e, hensure, rfl, rfl⟩
    | done hsome hclear =>
      have hsome' : ctx.options.clearDisclosureHistory = true := hsome
      rw [hsome', if_pos rfl, hprotect, hctx]
      rw [← Except.ok.inj hclear] at hensure ⊢
      have hopened := ensure_protect e₄.protect hensure
      exact ⟨_, hopened, rfl, rfl⟩
  obtain ⟨opened, hopened, hctx, hprotect⟩ := hclear
  rw [hctx, htracks.ctx_eq] at hsigning
  exact ⟨{
    input, removed := e₁, refreshed := e₂, added := e₃, rotated := e₄, cleared := e₅,
    masterKey := key, signing, output := ⟨_, _⟩, mac, verified := hverify, steps := hrun,
    tracks := htracks, opened, key := hopened, signs := hsigning,
    protect_eq := by rw [hprotect],
    proof := hmac, signature_eq := rfl, text_eq := (Except.ok.inj hfinal).symm }⟩

/-- The document carries the wraps the plan ended on. -/
theorem FileRun.wraps {draws : RewrapDraws} {content text : String} {ctx : RewrapContext}
    (run : FileRun C draws content ctx text) :
    recipientTable run.output.protect.wrap = recipients run.cleared := by
  rw [run.protect_eq]
  cases run.steps.clear with
  | skipped _ heq => rw [heq, recipients]
  | done _ hclear =>
    rw [← Except.ok.inj hclear]
    rfl

end FileRewrap
