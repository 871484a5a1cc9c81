import Kapsaro.TrustApprovals

/-!
# Trust documents — the text a store is saved as, and what is read back from it

The file of a local trust store: how a document becomes the text on disk, how that text becomes a
document again, and that the second undoes the first. The code is `io/trust/store.rs`,
`io/document_store.rs`, `feature/trust/verification.rs` and the `Deserialize` side of
`model/trust_store.rs`.

* **`ordered`** — a value as a map keeps it: the members of every object sorted by name.
* **`KnownKey.fromJson`** — a stored record is read with the members it has no field for.
* **`Stored`** — what the reader makes of those members, as a property of the content.
* **`renderTrustStore`**, **`loadTrustStoreAt`** — the file written, and the file read.
* **`verifyTrustStore`** — the checks of a document that was read, with its signer's key.
* **`loadTrustStoreAt_render`** — if a saved file is read back at all, it holds what was saved.
-/

namespace TrustDocument

open JsonText JsonMembers JsonRecords JsonLimits Limits TextLines Base64Codec WireTexts WireModel
open DocumentTokens Envelope SignedArtifacts KeyedList TrustRecords TrustStore TrustSoundness
open TrustApprovals

/-! ## Values with sorted members -/

mutual
/-- A value with the members of every object sorted by name. -/
def ordered : Json → Json
  | .null => .null
  | .bool b => .bool b
  | .num n => .num n
  | .str s => .str s
  | .arr items => .arr (orderedItems items)
  | .obj members => .obj (sortBy Prod.fst (orderedMembers members))

def orderedItems : List Json → List Json
  | [] => []
  | v :: items => ordered v :: orderedItems items

def orderedMembers : List (String × Json) → List (String × Json)
  | [] => []
  | (name, v) :: members => (name, ordered v) :: orderedMembers members
end

theorem orderedMembers_eq_map (members : List (String × Json)) :
    orderedMembers members = members.map fun m => (m.1, ordered m.2) := by
  induction members with
  | nil => rfl
  | cons m members ih => rw [orderedMembers, ih, List.map_cons]

/-- Sorting by name does nothing to a sorted list. -/
theorem sortBy_fst_idem (members : List (String × Json)) :
    sortBy Prod.fst (sortBy Prod.fst members) = sortBy Prod.fst members := by
  have : Std.Total fun (x y : String × Json) => x.1 ≤ y.1 := ⟨fun x y => le_total x.1 y.1⟩
  have : IsTrans (String × Json) fun x y => x.1 ≤ y.1 := ⟨fun _ _ _ => le_trans⟩
  exact List.Pairwise.insertionSort_eq
    (List.pairwise_insertionSort (fun (x y : String × Json) => x.1 ≤ y.1) members)

/-- Where ordering the values changes nothing, it changes nothing after sorting either. -/
theorem orderedMembers_sortBy {members : List (String × Json)}
    (h : orderedMembers members = members) :
    orderedMembers (sortBy Prod.fst members) = sortBy Prod.fst members := by
  have hfixed : ∀ m ∈ members, (m.1, ordered m.2) = m := by
    refine List.map_inj_left.mp ?_
    rw [← orderedMembers_eq_map, h, List.map_id']
  rw [orderedMembers_eq_map]
  refine (List.map_congr_left fun m hm => ?_).trans (List.map_id _)
  exact hfixed m ((perm_sortBy Prod.fst members).mem_iff.mp hm)

mutual
theorem ordered_idem : ∀ v : Json, ordered (ordered v) = ordered v
  | .null => rfl
  | .bool _ => rfl
  | .num _ => rfl
  | .str _ => rfl
  | .arr items => by
    rw [ordered, ordered, orderedItems_idem items]
  | .obj members => by
    rw [ordered, ordered, orderedMembers_sortBy (orderedMembers_idem members), sortBy_fst_idem]

theorem orderedItems_idem : ∀ items : List Json,
    orderedItems (orderedItems items) = orderedItems items
  | [] => rfl
  | v :: items => by
    rw [orderedItems, orderedItems, ordered_idem v, orderedItems_idem items]

theorem orderedMembers_idem : ∀ members : List (String × Json),
    orderedMembers (orderedMembers members) = orderedMembers members
  | [] => rfl
  | (name, v) :: members => by
    rw [orderedMembers, orderedMembers, ordered_idem v, orderedMembers_idem members]
end

/-! ## Reading the records -/

/-- Lists are read back where their elements are. -/
theorem asList_map {T : Type} {write : T → Json} {read : Json → Option T} (xs : List T)
    (h : ∀ x ∈ xs, read (write x) = some x) : asList read (.arr (xs.map write)) = some xs := by
  show readItems read (xs.map write) = some xs
  induction xs with
  | nil => rfl
  | cons x xs ih =>
    rw [List.map_cons, readItems, h x List.mem_cons_self,
      ih fun y hy => h y (List.mem_cons_of_mem _ hy)]
    rfl

/-- What is read from a list was read from its items. -/
theorem forall_of_asList {T : Type} {read : Json → Option T} {Q : T → Prop}
    (hread : ∀ v x, read v = some x → Q x) {v : Json} {xs : List T}
    (h : asList read v = some xs) : ∀ x ∈ xs, Q x := by
  cases v with
  | arr items =>
    replace h : readItems read items = some xs := h
    induction items generalizing xs with
    | nil =>
      obtain rfl := Option.some.inj h
      exact fun x hx => absurd hx List.not_mem_nil
    | cons w items ih =>
      rw [readItems] at h
      obtain ⟨y, hy, h⟩ := Option.bind_eq_some_iff.mp h
      obtain ⟨ys, hys, h⟩ := Option.bind_eq_some_iff.mp h
      rw [← Option.some.inj h]
      intro x hx
      rcases List.mem_cons.mp hx with rfl | hx
      · exact hread w x hy
      · exact ih hys x hx
  | _ => cases h

def knownKeyApprovalViaFromJson : Json → Option KnownKeyApprovalVia
  | .str s => if s = "manual-review" then some .manualReview else none
  | _ => none

def recipientSetApprovalViaFromJson : Json → Option RecipientSetApprovalVia
  | .str s => if s = "manual-review" then some .manualReview else none
  | _ => none

def githubAccountFromJson : Json → Option KnownKeyGithubAccount :=
  readRecord ["id", "login"] fun look => do
    let id ← field asNat "id" look
    let login ← optionalField asText "login" look
    pure { id, login }

def evidenceFromJson : Json → Option KnownKeyEvidence :=
  readRecord ["github_account", "ssh_attestor_pub"] fun look => do
    let githubAccount ← optionalField githubAccountFromJson "github_account" look
    let sshAttestorPub ← optionalField asText "ssh_attestor_pub" look
    pure { githubAccount, sshAttestorPub }

/-- The members of a known key that have a field of their own. -/
def knownKeyFieldNames : List String :=
  ["kid", "subject_handle", "approved_at", "approved_via", "evidence"]

/-- A known key; the members it has no field for are kept, in a map. -/
def knownKeyFromJson : Json → Option KnownKey
  | .obj members => do
    let look : Lookup := fun name => member name members
    let kid ← textField "kid" look
    let subjectHandle ← textField "subject_handle" look
    let approvedAt ← textField "approved_at" look
    let approvedVia ← field knownKeyApprovalViaFromJson "approved_via" look
    let evidence ← optionalField evidenceFromJson "evidence" look
    let extra := sortBy Prod.fst
      (orderedMembers (members.filter fun m => m.1 ∉ knownKeyFieldNames))
    pure { kid, subjectHandle, approvedAt, approvedVia, evidence, extra }
  | _ => none

def hintFromJson : Json → Option RecipientHandleHint :=
  readRecord ["kid", "recipient_handle"] fun look => do
    let kid ← textField "kid" look
    let recipientHandle ← textField "recipient_handle" look
    pure { kid, recipientHandle }

def recipientSetFromJson : Json → Option RecipientSetRecord :=
  readRecord ["sid", "recipient_kids", "recipient_set_hash", "approved_at", "approved_via",
      "recipient_handle_hints"] fun look => do
    let sid ← textField "sid" look
    let recipientKids ← field (asList asText) "recipient_kids" look
    let recipientSetHash ← textField "recipient_set_hash" look
    let approvedAt ← textField "approved_at" look
    let approvedVia ← field recipientSetApprovalViaFromJson "approved_via" look
    let recipientHandleHints ← optionalField (asList hintFromJson) "recipient_handle_hints" look
    pure { sid, recipientKids, recipientSetHash, approvedAt, approvedVia, recipientHandleHints }

def protectedFromJson : Json → Option TrustStoreProtected :=
  readRecord ["format", "owner_handle", "created_at", "updated_at", "known_keys",
      "recipient_sets"] fun look => do
    let format ← textField "format" look
    let ownerHandle ← textField "owner_handle" look
    let createdAt ← textField "created_at" look
    let updatedAt ← textField "updated_at" look
    let knownKeys ← field (asList knownKeyFromJson) "known_keys" look
    let recipientSets ← field (asList recipientSetFromJson) "recipient_sets" look
    pure { format, ownerHandle, createdAt, updatedAt, knownKeys, recipientSets }

def signatureFromJson : Json → Option TrustStoreSignature :=
  readRecord ["alg", "kid", "sig"] fun look => do
    let alg ← textField "alg" look
    let kid ← textField "kid" look
    let sig ← textField "sig" look
    pure { alg, kid, sig }

def documentFromJson : Json → Option TrustStoreDocument :=
  readRecord ["protected", "signature"] fun look => do
    let protect ← field protectedFromJson "protected" look
    let signature ← field signatureFromJson "signature" look
    pure { protect, signature }

/-! ## Reading undoes writing -/

theorem githubAccountFromJson_toJson (g : KnownKeyGithubAccount) :
    githubAccountFromJson g.toJson = some g := by
  obtain ⟨id, login⟩ := g
  cases login with
  | none => rfl
  | some login => rfl

theorem evidenceFromJson_toJson (e : KnownKeyEvidence) : evidenceFromJson e.toJson = some e := by
  obtain ⟨account, attestor⟩ := e
  cases account with
  | none =>
    cases attestor with
    | none => rfl
    | some attestor => rfl
  | some account =>
    have haccount := githubAccountFromJson_toJson account
    have hread : ∀ attestor, evidenceFromJson
        (KnownKeyEvidence.mk (some account) attestor).toJson
          = (githubAccountFromJson account.toJson).map fun g => ⟨some g, attestor⟩ := by
      intro attestor
      cases attestor with
      | none =>
        show ((githubAccountFromJson account.toJson).map some >>= _) = _
        rw [haccount]
        rfl
      | some attestor =>
        show ((githubAccountFromJson account.toJson).map some >>= _) = _
        rw [haccount]
        rfl
    rw [hread, haccount]
    rfl

/-- A known key as it is kept: the extra members have no field of their own and are sorted. -/
structure Stored (k : KnownKey) : Prop where
  names : ∀ m ∈ k.extra, m.1 ∉ knownKeyFieldNames
  values : orderedMembers k.extra = k.extra
  sorted : sortBy Prod.fst k.extra = k.extra

/-- A key without extra members is as it is kept. -/
theorem stored_of_extra_nil {k : KnownKey} (h : k.extra = []) : Stored k where
  names := h ▸ fun _ hm => absurd hm List.not_mem_nil
  values := h ▸ rfl
  sorted := h ▸ rfl

/-- **KNOWN KEYS ARE READ BACK**, with their extra members. -/
theorem knownKeyFromJson_toJson {k : KnownKey} (h : Stored k) :
    knownKeyFromJson k.toJson = some k := by
  obtain ⟨hnames, hvalues, hsorted⟩ := h
  obtain ⟨kid, subjectHandle, approvedAt, ⟨⟩, evidence, extra⟩ := k
  have hextra : extra.filter (fun m => decide (m.1 ∉ knownKeyFieldNames)) = extra :=
    List.filter_eq_self.mpr fun m hm => decide_eq_true (hnames m hm)
  have hkept : sortBy Prod.fst (orderedMembers
      (extra.filter fun m => decide (m.1 ∉ knownKeyFieldNames))) = extra := by
    rw [hextra]
    exact (congrArg (sortBy Prod.fst) hvalues).trans hsorted
  cases evidence with
  | none =>
    have habsent : member "evidence" extra = none := by
      refine member_eq_none_of_not_mem fun hmem => ?_
      obtain ⟨m, hm, heq⟩ := List.mem_map.mp hmem
      exact hnames m hm (heq ▸ by decide)
    have hread : knownKeyFromJson
        (KnownKey.mk kid subjectHandle approvedAt .manualReview none extra).toJson
          = (optionalField evidenceFromJson "evidence" fun name => member name extra).bind
            fun evidence => some ⟨kid, subjectHandle, approvedAt, .manualReview, evidence,
              sortBy Prod.fst
              (orderedMembers (extra.filter fun m => decide (m.1 ∉ knownKeyFieldNames)))⟩ := rfl
    rw [hread, optionalField, habsent, hkept]
    rfl
  | some evidence =>
    have hread : knownKeyFromJson
        (KnownKey.mk kid subjectHandle approvedAt .manualReview (some evidence) extra).toJson
          = ((evidenceFromJson evidence.toJson).map some).bind fun evidence =>
            some ⟨kid, subjectHandle, approvedAt, .manualReview, evidence, sortBy Prod.fst
              (orderedMembers (extra.filter fun m => decide (m.1 ∉ knownKeyFieldNames)))⟩ := rfl
    rw [hread, evidenceFromJson_toJson, hkept]
    rfl

theorem hintFromJson_toJson (hint : RecipientHandleHint) : hintFromJson hint.toJson = some hint :=
  rfl

theorem recipientSetFromJson_toJson (r : RecipientSetRecord) :
    recipientSetFromJson r.toJson = some r := by
  obtain ⟨sid, kids, hash, approvedAt, ⟨⟩, hints⟩ := r
  have hkids : asList asText (.arr (kids.map Json.str)) = some kids :=
    asList_map kids fun _ _ => rfl
  cases hints with
  | none =>
    show (asList asText (.arr (kids.map Json.str))).bind _ = _
    rw [hkids]
    rfl
  | some hints =>
    have hhints : asList hintFromJson (.arr (hints.map RecipientHandleHint.toJson)) = some hints :=
      asList_map hints fun hint _ => hintFromJson_toJson hint
    show (asList asText (.arr (kids.map Json.str))).bind (fun kids =>
      ((asList hintFromJson (.arr (hints.map RecipientHandleHint.toJson))).map some).bind _) = _
    rw [hkids, hhints]
    rfl

/-- The content of a store as it is kept. -/
def Kept (protect : TrustStoreProtected) : Prop :=
  ∀ k ∈ protect.knownKeys, Stored k

theorem protectedFromJson_toJson {p : TrustStoreProtected} (h : Kept p) :
    protectedFromJson p.toJson = some p := by
  have hkeys : asList knownKeyFromJson (.arr (p.knownKeys.map KnownKey.toJson))
      = some p.knownKeys := asList_map p.knownKeys fun k hk => knownKeyFromJson_toJson (h k hk)
  have hsets : asList recipientSetFromJson (.arr (p.recipientSets.map RecipientSetRecord.toJson))
      = some p.recipientSets :=
    asList_map p.recipientSets fun r _ => recipientSetFromJson_toJson r
  show (asList knownKeyFromJson (.arr (p.knownKeys.map KnownKey.toJson))).bind (fun keys =>
    (asList recipientSetFromJson
      (.arr (p.recipientSets.map RecipientSetRecord.toJson))).bind _) = _
  rw [hkeys, hsets]
  rfl

/-- **DOCUMENTS ARE READ BACK** from their values. -/
theorem documentFromJson_toJson {d : TrustStoreDocument} (h : Kept d.protect) :
    documentFromJson d.toJson = some d := by
  show (protectedFromJson d.protect.toJson).bind _ = _
  rw [protectedFromJson_toJson h]
  rfl

/-! ## What is read is kept -/

theorem stored_of_knownKeyFromJson {v : Json} {k : KnownKey} (h : knownKeyFromJson v = some k) :
    Stored k := by
  cases v with
  | obj members =>
    rw [knownKeyFromJson] at h
    obtain ⟨_, _, h⟩ := Option.bind_eq_some_iff.mp h
    obtain ⟨_, _, h⟩ := Option.bind_eq_some_iff.mp h
    obtain ⟨_, _, h⟩ := Option.bind_eq_some_iff.mp h
    obtain ⟨_, _, h⟩ := Option.bind_eq_some_iff.mp h
    obtain ⟨_, _, h⟩ := Option.bind_eq_some_iff.mp h
    rw [← Option.some.inj h]
    refine ⟨fun m hm => ?_, orderedMembers_sortBy (orderedMembers_idem _), sortBy_fst_idem _⟩
    have hm := (perm_sortBy Prod.fst _).mem_iff.mp hm
    rw [orderedMembers_eq_map] at hm
    obtain ⟨m', hm', rfl⟩ := List.mem_map.mp hm
    exact of_decide_eq_true (List.mem_filter.mp hm').2
  | _ => cases h

/-- **WHAT IS READ IS KEPT**. -/
theorem kept_of_documentFromJson {v : Json} {d : TrustStoreDocument}
    (h : documentFromJson v = some d) : Kept d.protect := by
  obtain ⟨members, _, h⟩ := readRecord_eq_some h
  obtain ⟨protect, hprotect, h⟩ := Option.bind_eq_some_iff.mp h
  obtain ⟨_, _, h⟩ := Option.bind_eq_some_iff.mp h
  rw [← Option.some.inj h]
  obtain ⟨w, _, hprotect⟩ := Option.bind_eq_some_iff.mp hprotect
  obtain ⟨members', _, hprotect⟩ := readRecord_eq_some hprotect
  obtain ⟨_, _, hprotect⟩ := Option.bind_eq_some_iff.mp hprotect
  obtain ⟨_, _, hprotect⟩ := Option.bind_eq_some_iff.mp hprotect
  obtain ⟨_, _, hprotect⟩ := Option.bind_eq_some_iff.mp hprotect
  obtain ⟨_, _, hprotect⟩ := Option.bind_eq_some_iff.mp hprotect
  obtain ⟨keys, hkeys, hprotect⟩ := Option.bind_eq_some_iff.mp hprotect
  obtain ⟨_, _, hprotect⟩ := Option.bind_eq_some_iff.mp hprotect
  rw [← Option.some.inj hprotect]
  obtain ⟨list, _, hkeys⟩ := Option.bind_eq_some_iff.mp hkeys
  exact forall_of_asList (fun _ _ => stored_of_knownKeyFromJson) hkeys

/-! ## Files -/

/-- Where a trust store is: as messages name it, and the stem of its file name. -/
structure TrustStorePath where
  display : String
  stem : String

/-- The file of a document. -/
def renderTrustStore (doc : TrustStoreDocument) : Bytes :=
  utf8 (String.ofList (textAt true 0 doc.toJson))

/-- A document together with the bytes it was read from. -/
structure TrustStoreLoadResult where
  document : TrustStoreDocument
  rawBytes : Bytes

def loadCappedBytes (maxBytes : Nat) (subject displayPath : String) (bytes : Bytes) :
    Except Error Bytes :=
  if bytes.length ≤ maxBytes then .ok bytes
  else .error (.parse s!"{subject} exceeds maximum size limit ({maxBytes} bytes): {displayPath}")

def decodeLoadedText (displayPath : String) (bytes : Bytes) : Except Error String :=
  match utf8Decode bytes with
  | some text => .ok text
  | none => .error (.parse s!"Failed to read file {displayPath}: invalid utf-8")

def validateFilenameMatchesOwner (path : TrustStorePath) (doc : TrustStoreDocument) :
    Except Error Unit :=
  if path.stem ≠ doc.protect.ownerHandle then
    .error (.verify "E_TRUST_STORE_FILENAME_MISMATCH"
      (s!"File name stem '{path.stem}' does not match owner_handle " ++
        s!"'{doc.protect.ownerHandle}'"))
  else .ok ()

/-- Read the file of a trust store; no file is no store. -/
def loadTrustStoreAt (path : TrustStorePath) :
    Option Bytes → Except Error (Option TrustStoreLoadResult)
  | none => .ok none
  | some bytes => do
    let bytes ← loadCappedBytes maxJsonDocumentReadSize "Trust store" path.display bytes
    let content ← decodeLoadedText path.display bytes
    let document ← parseJsonDocumentBytes TrustStoreDocument.schema documentFromJson path.display
      "TrustStoreDocument" (utf8 content)
    validateFilenameMatchesOwner path document
    pure (some ⟨document, utf8 content⟩)

/-- What a successful read says: the bytes are those of the file, and the content is kept. -/
theorem loadTrustStoreAt_ok {path : TrustStorePath} {file : Option Bytes}
    {loaded : Option TrustStoreLoadResult} (h : loadTrustStoreAt path file = .ok loaded) :
    loaded.map TrustStoreLoadResult.rawBytes = file
      ∧ ∀ found, loaded = some found → Kept found.document.protect := by
  cases file with
  | none =>
    obtain rfl := Except.ok.inj h
    exact ⟨rfl, fun found hfound => by cases hfound⟩
  | some bytes =>
    rw [loadTrustStoreAt] at h
    obtain ⟨capped, hcapped, h⟩ := bind_eq_ok.mp h
    obtain ⟨content, hcontent, h⟩ := bind_eq_ok.mp h
    obtain ⟨document, hdocument, h⟩ := bind_eq_ok.mp h
    obtain ⟨_, _, h⟩ := bind_eq_ok.mp h
    obtain rfl := Except.ok.inj h
    have hbytes : capped = bytes := by
      rw [loadCappedBytes] at hcapped
      split at hcapped
      · exact (Except.ok.inj hcapped).symm
      · cases hcapped
    have htext : utf8 content = capped := by
      rw [decodeLoadedText] at hcontent
      split at hcontent
      · rename_i text htext
        exact Except.ok.inj hcontent ▸ utf8_of_utf8Decode htext
      · cases hcontent
    refine ⟨congrArg some (htext.trans hbytes), fun found hfound => ?_⟩
    obtain rfl := Option.some.inj hfound
    rw [parseJsonDocumentBytes] at hdocument
    obtain ⟨_, _, hdocument⟩ := bind_eq_ok.mp hdocument
    obtain ⟨v, _, hdocument⟩ := bind_eq_ok.mp hdocument
    rw [readConforming] at hdocument
    split at hdocument
    · split at hdocument
      · rename_i read hread
        exact Except.ok.inj hdocument ▸ kept_of_documentFromJson hread
      · cases hdocument
    · cases hdocument

/-- **SAVED CONTENT COMES BACK**: if the file of a document is read back at all, it is that
    document. -/
theorem loadTrustStoreAt_render {path : TrustStorePath} {doc : TrustStoreDocument}
    {loaded : Option TrustStoreLoadResult} (hkept : Kept doc.protect)
    (h : loadTrustStoreAt path (some (renderTrustStore doc)) = .ok loaded) :
    loaded = some ⟨doc, renderTrustStore doc⟩ := by
  have hraw := (loadTrustStoreAt_ok h).1
  rw [loadTrustStoreAt] at h
  obtain ⟨_, _, h⟩ := bind_eq_ok.mp h
  obtain ⟨content, _, h⟩ := bind_eq_ok.mp h
  obtain ⟨document, hdocument, h⟩ := bind_eq_ok.mp h
  obtain ⟨_, _, h⟩ := bind_eq_ok.mp h
  obtain rfl := Except.ok.inj h
  have hcontent : utf8 content = renderTrustStore doc := Option.some.inj hraw
  rw [hcontent, parseJsonDocumentBytes] at hdocument
  obtain ⟨_, _, hdocument⟩ := bind_eq_ok.mp hdocument
  obtain ⟨v, hv, hdocument⟩ := bind_eq_ok.mp hdocument
  have hvalue : v = doc.toJson := by
    rw [renderTrustStore, parseJsonValue, utf8Decode_utf8, Option.bind_some, String.toList_ofList,
      parseJson_textAt] at hv
    dsimp only at hv
    split at hv
    · exact (Except.ok.inj hv).symm
    · cases hv
  rw [hvalue, readConforming, documentFromJson_toJson hkept] at hdocument
  split at hdocument
  · rw [hcontent, ← Except.ok.inj hdocument]
  · cases hdocument

/-! ## The key a signature names -/

/-- The one key a stored signature names, as it was found in the keystore beforehand. -/
structure SignerKeySnapshot where
  owner : MemberHandle
  keystoreRoot : String
  key : Option (Kid × PublicKey)

namespace SignerKeySnapshot

/-- The held key, if it has this kid. -/
def find (snapshot : SignerKeySnapshot) (kid : Kid) : Option PublicKey :=
  (snapshot.key.filter fun held => held.1 = kid).map Prod.snd

end SignerKeySnapshot

/-- The key a document names, when the name is a kid. -/
def documentSignerKid (doc : TrustStoreDocument) : Option Kid :=
  (Kid.fromCanonical doc.signature.kid).toOption

/-- How to get back to a store that verifies once its signer key is gone. -/
def buildSignerKeyRecoveryHint (keystoreRoot : String) (owner : MemberHandle) (kid : Kid) :
    String :=
  "To keep them, restore the complete original document from a trusted backup or known-good " ++
    s!"copy to '{keystoreRoot}/{owner.text}/{kid.text}/public.json' with owner-only " ++
    s!"permissions, then run 'kapsaro trust resign --member-handle {owner.text}'. If no trusted " ++
    "copy exists, reset the trust store and review the approvals again."

def buildMissingSignerKeyError (keystoreRoot : String) (owner : MemberHandle) (kid : Kid) :
    Error :=
  .invalidOperation (s!"Trust store signer key '{kid.text}' for member " ++
    s!"'{owner.text}' is unavailable, so the stored approvals cannot be verified. " ++
    buildSignerKeyRecoveryHint keystoreRoot owner kid)

/-- The signer's key, out of the snapshot. -/
def resolveSignerPublicKey (doc : TrustStoreDocument) (signerKeys : SignerKeySnapshot) :
    Except Error PublicKey := do
  let owner ← MemberHandle.tryFrom doc.protect.ownerHandle
  if owner ≠ signerKeys.owner then
    throw (.verify "E_TRUST_OWNER_MISMATCH"
      (s!"protected.owner_handle '{owner.text}' != signer key owner " ++
        s!"'{signerKeys.owner.text}'"))
  let kid ← Kid.fromCanonical doc.signature.kid
  match signerKeys.find kid with
  | some key => pure key
  | none => throw (buildMissingSignerKeyError signerKeys.keystoreRoot owner kid)

/-! ## Verification -/

section Verification

variable (C : Crypto)

/-- Check trust-store bytes against their signature. -/
def verifyTrustStoreBytes (canonicalBytes verifyingKey : Bytes) (signature : TrustStoreSignature) :
    Except Error Unit := do
  validateSignatureAlgorithm signature.alg
  let bytes ← decodeEd25519Signature signature.sig
  if C.verifyStrict verifyingKey canonicalBytes bytes then pure ()
  else throw (buildCryptoOperationError "Signature verification failed")

def verifyTrustStoreSignature (doc : TrustStoreDocument) (verifyingKey : Bytes) :
    Except Error Unit := do
  let canonical ← jcsNormalize doc.protect.toJson
  (verifyTrustStoreBytes C canonical verifyingKey doc.signature).mapError fun _ =>
    .crypto "Trust store signature verification failed"

/-- Check a document that was read, with the key its signature names. -/
def verifyTrustStore (P : TextParsers) (doc : TrustStoreDocument)
    (signerKeys : SignerKeySnapshot) : Except Error TrustStoreDocument := do
  if !conforms TrustStoreDocument.schema doc.toJson then
    throw (.schema "Trust store does not conform to its schema")
  if doc.protect.format ≠ localTrustV1 then
    throw (.verify "E_TRUST_FORMAT_MISMATCH"
      s!"Expected format '{localTrustV1}', got '{doc.protect.format}'")
  let signerPublicKey ← resolveSignerPublicKey doc signerKeys
  let verifyingKey ← (verifyPublicKeyForVerification C signerPublicKey).mapError fun _ =>
    .crypto "Trust store keystore public key verification failed"
  verifyTrustStoreSignature C doc verifyingKey
  if doc.signature.kid ≠ signerPublicKey.protect.kid then
    throw (.verify "E_TRUST_KID_MISMATCH"
      (s!"signature.kid '{doc.signature.kid}' != keystore public key kid " ++
        s!"'{signerPublicKey.protect.kid}'"))
  if signerPublicKey.protect.subjectHandle ≠ doc.protect.ownerHandle then
    throw (.verify "E_TRUST_OWNER_MISMATCH"
      (s!"keystore public key member_handle '{signerPublicKey.protect.subjectHandle}' != " ++
        s!"protected.owner_handle '{doc.protect.ownerHandle}'"))
  validateSignerIndependentContent C P doc.protect
  pure doc

variable {C} {P : TextParsers}

/-- What verification hands back is the document it was given. -/
theorem verifyTrustStore_eq {doc verified : TrustStoreDocument} {signerKeys : SignerKeySnapshot}
    (h : verifyTrustStore C P doc signerKeys = .ok verified) : verified = doc := by
  rw [verifyTrustStore] at h
  obtain ⟨_, h⟩ := throwIf_ok.mp h
  obtain ⟨_, h⟩ := throwIf_ok.mp h
  obtain ⟨_, _, h⟩ := bind_eq_ok.mp h
  obtain ⟨_, _, h⟩ := bind_eq_ok.mp h
  obtain ⟨_, _, h⟩ := bind_eq_ok.mp h
  obtain ⟨_, h⟩ := throwIf_ok.mp h
  obtain ⟨_, h⟩ := throwIf_ok.mp h
  obtain ⟨_, _, h⟩ := bind_eq_ok.mp h
  exact (Except.ok.inj h).symm

end Verification

end TrustDocument
