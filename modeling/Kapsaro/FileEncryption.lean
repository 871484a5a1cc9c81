import Kapsaro.FileRewrap
import Kapsaro.RewrapKeys
import Mathlib.Data.List.Destutter

/-!
# File encryption — a new file-enc document

`feature/encrypt.rs` and `feature/encrypt/file.rs`: the recipients are put in order and each handle
is kept once, a content key is drawn, the bytes are encrypted under it, the key is wrapped for every
recipient, and the whole is signed.

* **`membersOrdered`** — the recipients that are kept, and **`encryptFileDocument`**,
  **`encryptFileContent`** — the encryption.
* **`encrypted_of_encryptFileContent`** — what an encryption wrote; **`Encrypted.verifies`** — it
  verifies.
* **`fits_iff`**, **`decryptFilePayload_iff`** — the limit on an input is the one on what is read.
-/

namespace FileEncryption

open JsonText JsonMembers JsonLimits Limits TextLines Base64Codec WireTexts WireModel DocumentTokens
open TokenRecords Envelope SignedArtifacts KeyedList Recipients RewrapPlan FileDocument FileRewrap
open RewrapOutcome RewrapKeys

/-! ## The recipients -/

/-- The members by handle; of members with one handle, the first is kept. -/
def membersOrdered (members : List VerifiedRecipientKey) : List VerifiedRecipientKey :=
  (sortBy VerifiedRecipientKey.subjectHandle members).destutter
    fun previous next => previous.subjectHandle ≠ next.subjectHandle

/-- Handles and members go together. -/
def validateRecipientMembers (recipientHandles : List String)
    (members : List VerifiedRecipientKey) : Except Error Unit :=
  if recipientHandles.length ≠ members.length then
    .error (.invalidArgument (s!"Recipients count ({recipientHandles.length}) does not match " ++
      s!"public keys ({members.length})"))
  else
    match (recipientHandles.zip members).find? fun pair =>
        decide (pair.1 ≠ pair.2.subjectHandle) with
    | some (recipientHandle, member) => .error (.invalidArgument
        (s!"Recipient '{recipientHandle}' does not match member '{member.subjectHandle}'"))
    | none => .ok ()

/-! ## The encryption -/

section Operations

variable (C : Crypto)

/-- Encrypt the bytes under a payload key, with a header of their own. -/
def encryptPayload (plaintext : Bytes) (key : FixedBytes 32) (sid : Uuid)
    (freshNonce : FixedBytes 24) : Except Error FilePayload := do
  let header : FilePayloadHeader := {
    format := filePayloadV1
    sid := sid
    alg := { aead := aeadXChaCha20Poly1305 } }
  let encrypted ← encryptFilePayloadContent C plaintext key header freshNonce
  pure { protect := header, encrypted := encrypted }

/-- The payload, and the key of the proof of possession. -/
def encryptContentIntoPayload (content : Bytes) (entropy : Entropy) :
    Except Error (FilePayload × FixedBytes 32) := do
  let schedule := fileKeySchedule C entropy.masterKey entropy.sid
  let payload ← encryptPayload C content (deriveFileContentKey C schedule) entropy.sid
    (entropy.nonce 0)
  pure (payload, deriveFileMacKey C schedule)

/-- The protected part of a new document. -/
def buildFileEncDocumentProtected (sid : Uuid) (wrap : List WrapItem) (payload : FilePayload)
    (timestamp : String) : FileEncDocumentProtected where
  format := fileEncV1
  sid := sid
  wrap := wrap
  removedRecipients := none
  payload := payload
  createdAt := timestamp
  updatedAt := timestamp

/-- Wrap the content key for the members, next to the payload. -/
def assembleFileEncProtected (members : List VerifiedRecipientKey) (payload : FilePayload)
    (entropy : Entropy) : Except Error FileEncDocumentProtected := do
  let wrap ← buildWrapsForRecipients C members entropy.sid entropy.masterKey .file entropy.seed
  pure (buildFileEncDocumentProtected entropy.sid wrap payload (entropy.clock 0).text)

def encryptFileDocument (content : Bytes) (recipientHandles : List String)
    (members : List VerifiedRecipientKey) (signing : SigningContext) (entropy : Entropy) :
    Except Error FileEncDocument := do
  validateRecipientMembers recipientHandles members
  let (payload, macKey) ← encryptContentIntoPayload C content entropy
  let protect ← assembleFileEncProtected C members payload entropy
  let signature ← signFileDocument C protect macKey signing
  pure { protect, signature }

/-- Encrypt bytes for members, each handle once, into the text of a document. -/
def encryptFileContent (content : Bytes) (members : List VerifiedRecipientKey)
    (signing : SigningContext) (entropy : Entropy) : Except Error String := do
  let ordered := membersOrdered members
  let doc ← encryptFileDocument C content (ordered.map VerifiedRecipientKey.subjectHandle) ordered
    signing entropy
  pure (writeFileEnc doc)

end Operations

variable {C : Crypto}

/-! ## Who is kept -/

/-- What is left of a list after its repetitions in a row are dropped still has every key. -/
theorem keys_destutter' {α κ : Type} [DecidableEq κ] (key : α → κ) (first : α) (xs : List α) :
    ∀ x ∈ first :: xs, ∃ y ∈ xs.destutter' (fun a b => key a ≠ key b) first, key y = key x := by
  induction xs generalizing first with
  | nil =>
    intro x hx
    exact ⟨first, List.mem_singleton_self first, by rw [List.mem_singleton.mp hx]⟩
  | cons next xs ih =>
    intro x hx
    by_cases hkey : key first ≠ key next
    · rw [List.destutter'_cons, if_pos hkey]
      rcases List.mem_cons.mp hx with rfl | hx
      · exact ⟨x, List.mem_cons_self, rfl⟩
      · obtain ⟨y, hy, hsame⟩ := ih next x hx
        exact ⟨y, List.mem_cons_of_mem _ hy, hsame⟩
    · rw [List.destutter'_cons, if_neg hkey]
      rcases List.mem_cons.mp hx with rfl | hx
      · exact ih x x List.mem_cons_self
      · rcases List.mem_cons.mp hx with rfl | hx
        · obtain ⟨y, hy, hsame⟩ := ih first first List.mem_cons_self
          exact ⟨y, hy, hsame.trans (not_not.mp hkey)⟩
        · exact ih first x (List.mem_cons_of_mem _ hx)

/-- A sorted list without repetitions in a row is sorted strictly. -/
theorem chain_lt {α κ : Type} [LinearOrder κ] (key : α → κ) {xs : List α}
    (hsorted : xs.Pairwise fun x y => key x ≤ key y)
    (hchain : xs.IsChain fun x y => key x ≠ key y) :
    xs.IsChain fun x y => key x < key y := by
  induction hchain with
  | nil => exact .nil
  | singleton x => exact .singleton x
  | cons_cons hne _ ih =>
    obtain ⟨hhead, htail⟩ := List.pairwise_cons.mp hsorted
    exact .cons_cons (lt_of_le_of_ne (hhead _ List.mem_cons_self) hne) (ih htail)

/-- **EACH HANDLE IS KEPT ONCE**, in order, with a member that has it. -/
theorem membersOrdered_spec (members : List VerifiedRecipientKey) :
    ((membersOrdered members).map VerifiedRecipientKey.subjectHandle).Pairwise (· < ·)
      ∧ (∀ member ∈ membersOrdered members, member ∈ members)
      ∧ ∀ handle, handle ∈ (membersOrdered members).map VerifiedRecipientKey.subjectHandle
        ↔ handle ∈ members.map VerifiedRecipientKey.subjectHandle := by
  have hperm := perm_sortBy VerifiedRecipientKey.subjectHandle members
  have hsublist := List.destutter_sublist (fun previous next : VerifiedRecipientKey =>
    previous.subjectHandle ≠ next.subjectHandle)
    (sortBy VerifiedRecipientKey.subjectHandle members)
  have hmem : ∀ member ∈ membersOrdered members, member ∈ members := fun member hmember =>
    hperm.mem_iff.mp (hsublist.subset hmember)
  refine ⟨?_, hmem, fun handle => ⟨fun hhandle => ?_, fun hhandle => ?_⟩⟩
  · have : Std.Total fun x y : VerifiedRecipientKey => x.subjectHandle ≤ y.subjectHandle :=
      ⟨fun x y => le_total x.subjectHandle y.subjectHandle⟩
    have : IsTrans VerifiedRecipientKey fun x y => x.subjectHandle ≤ y.subjectHandle :=
      ⟨fun _ _ _ => le_trans⟩
    have hsorted : (membersOrdered members).Pairwise fun x y => x.subjectHandle ≤ y.subjectHandle :=
      (List.pairwise_insertionSort (fun x y : VerifiedRecipientKey =>
        x.subjectHandle ≤ y.subjectHandle) members).sublist hsublist
    have hchain := List.isChain_destutter (fun previous next : VerifiedRecipientKey =>
      previous.subjectHandle ≠ next.subjectHandle)
      (sortBy VerifiedRecipientKey.subjectHandle members)
    -- neighbours are in order and differ, so everything is
    have hlt : (membersOrdered members).IsChain fun x y => x.subjectHandle < y.subjectHandle :=
      chain_lt VerifiedRecipientKey.subjectHandle hsorted hchain
    have : IsTrans VerifiedRecipientKey fun x y => x.subjectHandle < y.subjectHandle :=
      ⟨fun _ _ _ => lt_trans⟩
    exact List.pairwise_map.mpr (List.isChain_iff_pairwise.mp hlt)
  · obtain ⟨member, hmember, rfl⟩ := List.mem_map.mp hhandle
    exact List.mem_map_of_mem (hmem member hmember)
  · obtain ⟨member, hmember, rfl⟩ := List.mem_map.mp hhandle
    have hin := hperm.mem_iff.mpr hmember
    rw [membersOrdered]
    cases hsort : sortBy VerifiedRecipientKey.subjectHandle members with
    | nil =>
      rw [hsort] at hin
      cases hin
    | cons first rest =>
      rw [hsort] at hin
      obtain ⟨kept, hkept, hsame⟩ :=
        keys_destutter' VerifiedRecipientKey.subjectHandle first rest member hin
      exact List.mem_map.mpr ⟨kept, hkept, hsame⟩

/-- Sorting leaves the first element with a key the first one. -/
theorem find_orderedInsert {α κ : Type} [LinearOrder κ] (key : α → κ) (x : α)
    (xs : List α) (k : κ) :
    (xs.orderedInsert (fun x y => key x ≤ key y) x).find? (fun y => key y = k)
      = (x :: xs).find? fun y => key y = k := by
  induction xs with
  | nil => rfl
  | cons y ys ih =>
    rw [List.orderedInsert_cons]
    by_cases hle : key x ≤ key y
    · rw [if_pos hle]
    · rw [if_neg hle, List.find?_cons, ih, List.find?_cons, List.find?_cons, List.find?_cons]
      by_cases hy : key y = k
      · have hx : key x ≠ k := fun hx => hle (le_of_eq (hx.trans hy.symm))
        simp only [hx, hy, decide_false, decide_true]
      · simp only [hy, decide_false]

theorem find_sortBy {α κ : Type} [LinearOrder κ] (key : α → κ) (xs : List α) (k : κ) :
    (sortBy key xs).find? (fun y => key y = k) = xs.find? fun y => key y = k := by
  induction xs with
  | nil => rfl
  | cons x xs ih =>
    refine (find_orderedInsert key x (sortBy key xs) k).trans ?_
    rw [List.find?_cons, List.find?_cons, ih]

/-- Of a row of elements with one key the first is kept. -/
theorem find_destutter' {α κ : Type} [DecidableEq κ] (key : α → κ) (first : α)
    (xs : List α) (k : κ) :
    (List.destutter' (fun x y => key x ≠ key y) first xs).find? (fun y => key y = k)
      = (first :: xs).find? fun y => key y = k := by
  induction xs generalizing first with
  | nil => rfl
  | cons y ys ih =>
    by_cases hkey : key first ≠ key y
    · rw [List.destutter'_cons, if_pos hkey, List.find?_cons, ih y]
      rfl
    · rw [List.destutter'_cons, if_neg hkey, ih first, List.find?_cons, List.find?_cons,
        List.find?_cons, ← not_not.mp hkey]
      by_cases hfirst : key first = k
      · simp only [hfirst, decide_true]
      · simp only [hfirst, decide_false]

/-- Where keys are distinct, an element is the first one with its key. -/
theorem find_of_nodup {α κ : Type} [DecidableEq κ] {key : α → κ} {xs : List α}
    (hdistinct : (xs.map key).Nodup) {x : α} (hx : x ∈ xs) :
    xs.find? (fun y => key y = key x) = some x := by
  cases hfind : xs.find? (fun y => decide (key y = key x)) with
  | none => exact absurd (decide_eq_true rfl) (List.find?_eq_none.mp hfind x hx)
  | some y =>
    have hsame : key y = key x := of_decide_eq_true (@List.find?_some _ _ y xs hfind)
    rw [List.inj_on_of_nodup_map hdistinct (List.mem_of_find?_eq_some hfind) hx hsame]

/-- **THE FIRST MEMBER WINS**: whoever is kept is the first of the members with its handle. -/
theorem first_membersOrdered {members : List VerifiedRecipientKey} {member : VerifiedRecipientKey}
    (h : member ∈ membersOrdered members) :
    members.find? (fun other => other.subjectHandle = member.subjectHandle) = some member := by
  have hdistinct := (membersOrdered_spec members).1.imp fun hlt => ne_of_lt hlt
  rw [← find_sortBy VerifiedRecipientKey.subjectHandle, ← find_of_nodup hdistinct h, membersOrdered]
  cases sortBy VerifiedRecipientKey.subjectHandle members with
  | nil => rfl
  | cons first rest =>
    exact (find_destutter' VerifiedRecipientKey.subjectHandle first rest _).symm

/-! ## What is written -/

/-- The header of the payload of a new document. -/
def newPayloadHeader (sid : Uuid) : FilePayloadHeader where
  format := filePayloadV1
  sid := sid
  alg := { aead := aeadXChaCha20Poly1305 }

/-- A document that bytes were encrypted into, for members, under the drawn key. -/
structure Encrypted (C : Crypto) (content : Bytes) (members : List VerifiedRecipientKey)
    (signing : SigningContext) (entropy : Entropy) (doc : FileEncDocument) : Prop where
  count : members.length ≤ maxWrapItems
  wraps : List.Forall₂ (fun member item =>
      ∃ s, buildWrapItem C .file member entropy.sid entropy.masterKey s = .ok item)
    members doc.protect.wrap
  protect_eq : ∃ encrypted, doc.protect = buildFileEncDocumentProtected entropy.sid
      doc.protect.wrap ⟨newPayloadHeader entropy.sid, encrypted⟩ (entropy.clock 0).text
    ∧ encryptFilePayloadContent C content (payloadKey C entropy.masterKey entropy.sid)
      (newPayloadHeader entropy.sid) (entropy.nonce 0) = .ok encrypted
  signed : signFileDocument C doc.protect
    (deriveFileMacKey C (fileKeySchedule C entropy.masterKey entropy.sid)) signing
      = .ok doc.signature

/-- **WHAT AN ENCRYPTION WROTE.** -/
theorem encrypted_of_encryptFileContent {content : Bytes} {members : List VerifiedRecipientKey}
    {signing : SigningContext} {entropy : Entropy} {text : String}
    (h : encryptFileContent C content members signing entropy = .ok text) :
    ∃ doc, text = writeFileEnc doc
      ∧ Encrypted C content (membersOrdered members) signing entropy doc := by
  obtain ⟨doc, hdoc, h⟩ := bind_eq_ok.mp h
  obtain rfl := Except.ok.inj h
  obtain ⟨_, _, hdoc⟩ := bind_eq_ok.mp hdoc
  obtain ⟨⟨payload, macKey⟩, hpayload, hdoc⟩ := bind_eq_ok.mp hdoc
  obtain ⟨protect, hprotect, hdoc⟩ := bind_eq_ok.mp hdoc
  obtain ⟨signature, hsignature, hdoc⟩ := bind_eq_ok.mp hdoc
  obtain rfl := Except.ok.inj hdoc
  obtain ⟨sealedPayload, hsealed, hpayload⟩ := bind_eq_ok.mp hpayload
  obtain ⟨rfl, rfl⟩ := Prod.mk.inj (Except.ok.inj hpayload)
  obtain ⟨encrypted, hencrypted, hsealed⟩ := bind_eq_ok.mp hsealed
  obtain rfl := Except.ok.inj hsealed
  obtain ⟨items, hitems, hprotect⟩ := bind_eq_ok.mp hprotect
  obtain rfl := Except.ok.inj hprotect
  obtain ⟨hcount, hbuilt⟩ := buildWrapsForRecipients_ok hitems
  exact ⟨_, rfl, hcount, hbuilt, ⟨encrypted, rfl, hencrypted⟩, hsignature⟩

namespace Encrypted

variable {content : Bytes} {members : List VerifiedRecipientKey} {signing : SigningContext}
variable {entropy : Entropy} {doc : FileEncDocument}

theorem sid (h : Encrypted C content members signing entropy doc) :
    doc.protect.sid = entropy.sid := by
  obtain ⟨encrypted, heq, _⟩ := h.protect_eq
  rw [heq]
  rfl

theorem header (h : Encrypted C content members signing entropy doc) :
    doc.protect.payload.protect = newPayloadHeader entropy.sid := by
  obtain ⟨encrypted, heq, _⟩ := h.protect_eq
  rw [heq]
  rfl

/-- The payload of a new document encrypts its bytes. -/
theorem payload (h : Encrypted C content members signing entropy doc) :
    encryptFilePayloadContent C content (payloadKey C entropy.masterKey entropy.sid)
      (newPayloadHeader entropy.sid) (entropy.nonce 0) = .ok doc.protect.payload.encrypted := by
  obtain ⟨encrypted, heq, hencrypted⟩ := h.protect_eq
  rw [heq]
  exact hencrypted

/-- The proof of possession passes under the drawn key. -/
theorem possession (h : Encrypted C content members signing entropy doc) :
    verifyFileKeyPossession C doc entropy.masterKey = .ok () := by
  obtain ⟨mac, hmac, hsignature⟩ := bind_eq_ok.mp h.signed
  rw [verifyFileKeyPossession, ← Except.ok.inj hsignature, h.sid]
  exact verifyKeyPossession_built hmac

theorem spells (h : Encrypted C content members signing entropy doc) :
    SpellsFile (writeFileEnc doc) doc := by
  obtain ⟨mac, hmac, hsignature⟩ := bind_eq_ok.mp h.signed
  obtain ⟨hwell, hparse⟩ := wellFormed_buildArtifactSignature signing hmac
  rw [Except.ok.inj hsignature] at hwell
  have hpub : doc.signature.signerPub.wellFormed = true := by
    simp only [ArtifactSignature.wellFormed, Bool.and_eq_true] at hwell
    exact hwell.1.1.2
  have hmacEq : doc.signature.mac = mac := by
    rw [← Except.ok.inj hsignature]
    rfl
  exact .intro hpub (hmacEq ▸ hparse)

/-- The handles of the wraps are those of the members. -/
theorem handles (h : Encrypted C content members signing entropy doc) :
    doc.protect.wrap.map WrapItem.recipientHandle
      = members.map VerifiedRecipientKey.subjectHandle := by
  have hpairs := congrArg (List.map Prod.fst) (recipients_of_built h.wraps)
  rw [List.map_map, List.map_map] at hpairs
  exact hpairs

/-- The encrypted bytes of a payload are texts of the schema. -/
theorem wellFormed_encryptFilePayload (hC : Lawful C) {contentKey : FixedBytes 32}
    {payloadHeader : FilePayloadHeader} {freshNonce : FixedBytes 24}
    {encrypted : FilePayloadCiphertext}
    (h : encryptFilePayloadContent C content contentKey payloadHeader freshNonce = .ok encrypted) :
    encrypted.wellFormed = true := by
  obtain ⟨ct, hct, h⟩ := bind_eq_ok.mp h
  obtain rfl := Except.ok.inj h
  have hlen := hC.encrypt_size hct
  have hne : ct ≠ [] := by
    rintro rfl
    rw [List.length_nil] at hlen
    omega
  rw [FilePayloadCiphertext.wellFormed, Bool.and_eq_true]
  exact ⟨isB64urlSized_encode (n := 24) _ freshNonce.size (by decide), isB64urlText_encode ct hne⟩

/-- **A NEW DOCUMENT HAS THE FORM A READER ASKS FOR**, once there is a member. -/
theorem protectedWellFormed (hC : Lawful C)
    (h : Encrypted C content members signing entropy doc) (hmembers : members ≠ []) :
    FileDocument.protectedWellFormed doc.protect = true := by
  obtain ⟨encrypted, heq, hencrypted⟩ := h.protect_eq
  have hlength := h.wraps.length_eq
  have hcount : doc.protect.wrap.length ≤ 1000 := hlength ▸ h.count
  have hpos : 1 ≤ doc.protect.wrap.length := hlength ▸ List.length_pos_iff.mpr hmembers
  have hitems : doc.protect.wrap.all WrapItem.wellFormed = true := by
    refine List.all_eq_true.mpr fun item hitem => ?_
    obtain ⟨member, _, s, hs⟩ := exists_left_of_mem h.wraps hitem
    exact wellFormed_buildWrapItem hC hs
  have htime : isIso8601Text (entropy.clock 0).text = true :=
    isIso8601Text_of_rfc3339Utc (entropy.clock 0).valid
  have hpayload : FilePayload.wellFormed ⟨newPayloadHeader entropy.sid, encrypted⟩ = true := by
    rw [FilePayload.wellFormed, wellFormed_encryptFilePayload hC hencrypted]
    rfl
  generalize doc.protect.wrap = items at *
  rw [heq, FileDocument.protectedWellFormed]
  show (fileEncV1 == fileEncV1 && (decide (1 ≤ items.length) && decide (items.length ≤ 1000)
    && items.all WrapItem.wellFormed) && true
    && FilePayload.wellFormed ⟨newPayloadHeader entropy.sid, encrypted⟩
    && isIso8601Text (entropy.clock 0).text && isIso8601Text (entropy.clock 0).text) = true
  rw [hitems, hpayload, htime, decide_eq_true hpos, decide_eq_true hcount]
  rfl

/-- **A NEW DOCUMENT STAYS WITHIN THE ELEMENT LIMIT**, for as many members as a document may
    have. -/
theorem elements (h : Encrypted C content members signing entropy doc) :
    elementCount doc.toJson ≤ maxJsonElements := by
  obtain ⟨encrypted, heq, _⟩ := h.protect_eq
  have hcount : doc.protect.wrap.length ≤ 1000 := h.wraps.length_eq ▸ h.count
  have hsignature := elements_signature doc.signature
  have hmax : maxJsonElements = 13000 := rfl
  have hwrap : elementCount (.arr (doc.protect.wrap.map WrapItem.toJson))
      ≤ 1 + 11 * doc.protect.wrap.length := by
    -- eleven elements a wrap, with its comma
    have hitem : ∀ item : WrapItem, elementCount item.toJson = 10 := fun _ => rfl
    have hsum : itemsElementCount (doc.protect.wrap.map WrapItem.toJson)
        = 11 * doc.protect.wrap.length := by
      simp only [itemsElementCount_eq_sum, List.map_map, Function.comp_def, hitem, List.map_const',
        List.sum_replicate, Nat.nsmul_eq_mul]
      omega
    rw [elementCount_arr, hsum]
    omega
  have hprotect : elementCount doc.protect.toJson ≤ 11100 := by
    generalize doc.protect.wrap = items at *
    rw [heq]
    have hpayload : elementCount (FilePayload.toJson ⟨newPayloadHeader entropy.sid, encrypted⟩)
        = 16 := rfl
    show elementCount (.obj [("format", Json.str _), ("sid", .str _),
      ("wrap", .arr (items.map WrapItem.toJson)),
      ("payload", (FilePayload.toJson ⟨newPayloadHeader entropy.sid, encrypted⟩)),
      ("created_at", .str _), ("updated_at", .str _)]) ≤ 11100
    rw [elementCount_obj]
    simp only [membersElementCount, hpayload]
    have hstr : ∀ text : String, elementCount (.str text) = 0 := fun _ => rfl
    rw [hstr, hstr, hstr, hstr]
    omega
  rw [FileEncDocument.toJson, elementCount, membersElementCount, membersElementCount, hmax]
  omega

/-- **A NEW DOCUMENT VERIFIES**, where the expiry its signer states is a time. -/
theorem verifies (hC : Lawful C) (h : Encrypted C content members signing entropy doc)
    (hmembers : members ≠ []) (hdistinct : (members.map VerifiedRecipientKey.subjectHandle).Nodup)
    {ctx : CryptoContext} (hsigning : buildSigningContext C ctx = .ok signing)
    (hexpiry : C.checkKeyExpiry signing.signerPub.document.protect.expiresAt = .ok ()) :
    verifyFileContent C (writeFileEnc doc) = .ok doc :=
  verify_signedFile hC hsigning hexpiry (h.protectedWellFormed hC hmembers)
    (h.handles ▸ hdistinct) h.signed h.elements

end Encrypted

/-! ## The input limit -/

/-- Maximum plaintext input size for encryption. -/
def maxPlaintextInputSize : Nat := maxBase64CiphertextLength / 4 * 3 - 16

/-- **THE INPUT LIMIT IS EXACT**: it is the largest input whose ciphertext a reader decodes. -/
theorem fits_iff {size : Nat} :
    computeEncodedLen (size + 16) ≤ maxBase64CiphertextLength ↔ size ≤ maxPlaintextInputSize := by
  have hlimit : maxBase64CiphertextLength = 4 * 4194304 := rfl
  have hinput : maxPlaintextInputSize = 3 * 4194304 - 16 := rfl
  rw [computeEncodedLen, hlimit, hinput]
  have hmod : (size + 16) % 3 = 0 ∨ (size + 16) % 3 = 1 ∨ (size + 16) % 3 = 2 := by omega
  rcases hmod with h | h | h
  · rw [h]
    show (size + 16) / 3 * 4 + 0 ≤ _ ↔ _
    omega
  · rw [h]
    show (size + 16) / 3 * 4 + 2 ≤ _ ↔ _
    omega
  · rw [h]
    show (size + 16) / 3 * 4 + 3 ≤ _ ↔ _
    omega

/-- Encrypted bytes decrypt exactly within the input limit, and then to the bytes. -/
theorem decryptFilePayload_iff (hC : Lawful C) {content plaintext : Bytes}
    {contentKey : FixedBytes 32} {header : FilePayloadHeader} {nonce : FixedBytes 24}
    {encrypted : FilePayloadCiphertext}
    (h : encryptFilePayloadContent C content contentKey header nonce = .ok encrypted) :
    decryptFilePayloadContent C encrypted contentKey header = .ok plaintext
      ↔ plaintext = content ∧ content.length ≤ maxPlaintextInputSize := by
  constructor
  · intro hplain
    have hfits : computeEncodedLen (content.length + 16) ≤ maxBase64CiphertextLength := by
      obtain ⟨ct, hct, hmade⟩ := bind_eq_ok.mp h
      obtain ⟨_, decoded, _, hdecode, _⟩ := decryptFilePayloadContent_ok hplain
      obtain ⟨_, hsize⟩ := Base64Variants.decodeBase64urlNopadWithLimit_iff.mp hdecode
      rw [← Except.ok.inj hmade, encodeBase64urlNopad_size, hC.encrypt_size hct] at hsize
      exact hsize
    have hread := decrypt_encryptFilePayload hC hfits h
    exact ⟨Except.ok.inj (hplain.symm.trans hread), fits_iff.mp hfits⟩
  · rintro ⟨rfl, hsize⟩
    exact decrypt_encryptFilePayload hC (fits_iff.mpr hsize) h

end FileEncryption
