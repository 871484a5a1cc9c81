import Kapsaro.SignedArtifacts

/-!
# File document — parsing and writing file-enc documents

`format/schema/document.rs` and the writers of `feature/encrypt/file.rs` and
`feature/rewrap/file.rs`: a file-enc document is one JSON object; the signature covers the
canonical bytes of its protected part.

* **`parseFileEncStr`** — JSON limits, JSON, schema, record, wrap check.
* **`writeFileEnc`** — the indented text of a document.
* **`parse_written`**, **`written_parse`** — a written document is read back, and whatever reads
  it back finds that document.
* **`bodyBytes_injective`** — the signed bytes determine the protected part.
-/

namespace FileDocument

open JsonText JsonMembers JsonRecords JsonLimits Limits TextLines Base64Codec WireTexts WireModel
open DocumentTokens TokenRecords Envelope SignedArtifacts

/-! ## Reading and writing -/

/-- Parse a file-enc text that is named in messages. -/
def parseFileEncStr (content sourceName : String) : Except Error FileEncDocument := do
  let doc ← parseJsonDocumentBytes FileEncDocument.schema FileEncDocument.fromJson sourceName
    "FileEncDocument" (utf8 content)
  validateWrapItems doc.protect.wrap "FileEncDocument"
  pure doc

/-- The text of a document. -/
def writeFileEnc (doc : FileEncDocument) : String :=
  String.ofList (textAt true 0 doc.toJson)

/-- Parse and verify a file-enc text. -/
def verifyFileContent (C : Crypto) (content : String) : Except Error FileEncDocument := do
  let doc ← parseFileEncStr content "file-enc content"
  verifyFileDocument C doc

/-! ## The records -/

/-- The texts of a protected part have the forms the schema asks for. -/
def protectedWellFormed (p : FileEncDocumentProtected) : Bool :=
  p.format == fileEncV1
    && (decide (1 ≤ p.wrap.length) && decide (p.wrap.length ≤ 1000)
      && p.wrap.all WrapItem.wellFormed)
    && (p.removedRecipients.all fun removed => removed.all RemovedRecipient.wellFormed)
    && p.payload.wellFormed && isIso8601Text p.createdAt && isIso8601Text p.updatedAt

theorem conforms_protected (p : FileEncDocumentProtected) :
    conforms FileEncDocumentProtected.schema p.toJson = protectedWellFormed p := by
  have hremoved : p.removedMembers.all
        (fun m => memberConforms FileEncDocumentProtected.properties true m.1 m.2)
      = p.removedRecipients.all fun removed => removed.all RemovedRecipient.wellFormed := by
    rw [FileEncDocumentProtected.removedMembers]
    cases p.removedRecipients with
    | none => rfl
    | some removed =>
      have hlist := conforms_list 0 none removed RemovedRecipient.conforms_toJson
      show (conforms (.list RemovedRecipient.schema 0 none)
        (.arr (removed.map RemovedRecipient.toJson)) && true) = _
      rw [hlist, Bool.and_true]
      rfl
  have hhead : [("format", Json.str p.format), ("sid", .str p.sid.text),
        ("wrap", .arr (p.wrap.map WrapItem.toJson))].all
          (fun m => memberConforms FileEncDocumentProtected.properties true m.1 m.2)
      = (p.format == fileEncV1 && (decide (1 ≤ p.wrap.length) && decide (p.wrap.length ≤ 1000)
        && p.wrap.all WrapItem.wellFormed)) := by
    have hlist := conforms_list 1 (some 1000) p.wrap WrapItem.conforms_toJson
    show (p.format == fileEncV1 && (isUuidText p.sid.text
      && (conforms (.list WrapItem.schema 1 (some 1000)) (.arr (p.wrap.map WrapItem.toJson))
        && true))) = _
    rw [hlist, p.sid.valid, Bool.and_true, Bool.true_and]
    rfl
  have htail : [("payload", p.payload.toJson), ("created_at", .str p.createdAt),
        ("updated_at", .str p.updatedAt)].all
          (fun m => memberConforms FileEncDocumentProtected.properties true m.1 m.2)
      = (p.payload.wellFormed && isIso8601Text p.createdAt && isIso8601Text p.updatedAt) := by
    show (conforms FilePayload.schema p.payload.toJson && (isIso8601Text p.createdAt
      && (isIso8601Text p.updatedAt && true))) = _
    rw [FilePayload.conforms_toJson, Bool.and_true, Bool.and_assoc]
  rw [FileEncDocumentProtected.schema, FileEncDocumentProtected.toJson, conforms_record,
    List.all_append, List.all_append, hhead, hremoved, htail, protectedWellFormed]
  · simp only [Bool.and_assoc]
  · intro name hname
    simp only [FileEncDocumentProtected.requiredNames, List.mem_cons, List.not_mem_nil,
      or_false] at hname
    rcases hname with h | h | h | h | h | h <;> simp [h]

theorem reads_fileEnc (d : FileEncDocument)
    (hmac : KeyPossessionProof.parse d.signature.mac.wire = some d.signature.mac) :
    Reads FileEncDocument.toJson FileEncDocument.fromJson d := by
  have hprotected := FileEncDocumentProtected.reads d.protect
  have hsignature := ArtifactSignature.reads d.signature hmac
  refine reads_record _ ["protected", "signature"] rfl rfl (by decide) (by decide) ?_ ?_
  · simp [field, member, hprotected.1, hsignature.1]
  · simp [field, member, hprotected.2, hsignature.2]

theorem conforms_fileEnc (d : FileEncDocument) :
    conforms FileEncDocument.schema d.toJson
      = (protectedWellFormed d.protect && d.signature.wellFormed) := by
  rw [FileEncDocument.schema, FileEncDocument.toJson, conforms_record (by simp)]
  show (conforms FileEncDocumentProtected.schema d.protect.toJson
    && (conforms ArtifactSignature.schema d.signature.toJson && true)) = _
  rw [conforms_protected, ArtifactSignature.conforms_toJson, Bool.and_true]

theorem bounded_payloadHeader (h : FilePayloadHeader) : Bounded 2 h.toJson := by
  refine Bounded.obj (show ["format", "sid", "alg"].Nodup by decide) ?_
  intro m hm
  rw [List.mem_cons, List.mem_cons, List.mem_singleton] at hm
  rcases hm with rfl | rfl | rfl
  · exact Bounded.str 1 _
  · exact Bounded.str 1 _
  · exact bounded_algorithm h.alg

theorem bounded_ciphertext (c : FilePayloadCiphertext) : Bounded 1 c.toJson := by
  refine Bounded.obj (show ["nonce", "ct"].Nodup by decide) ?_
  intro m hm
  rw [List.mem_cons, List.mem_singleton] at hm
  rcases hm with rfl | rfl <;> exact Bounded.str 0 _

theorem bounded_payload (p : FilePayload) : Bounded 3 p.toJson := by
  refine Bounded.obj (show ["protected", "encrypted"].Nodup by decide) ?_
  intro m hm
  rw [List.mem_cons, List.mem_singleton] at hm
  rcases hm with rfl | rfl
  · exact bounded_payloadHeader p.protect
  · exact (bounded_ciphertext p.encrypted).mono (by decide)

/-- A protected part has distinct names, no number, and little nesting. -/
theorem bounded_protected (p : FileEncDocumentProtected) : Bounded 4 p.toJson := by
  refine Bounded.obj ?_ ?_
  · rw [FileEncDocumentProtected.removedMembers]
    cases p.removedRecipients <;> simp
  · intro m hm
    rw [List.mem_append, List.mem_append] at hm
    rcases hm with (hm | hm) | hm
    · rw [List.mem_cons, List.mem_cons, List.mem_singleton] at hm
      rcases hm with rfl | rfl | rfl
      · exact Bounded.str 3 _
      · exact Bounded.str 3 _
      · refine (Bounded.arr ?_ : Bounded 2 _).mono (by decide)
        intro v hv
        obtain ⟨item, _, rfl⟩ := List.mem_map.mp hv
        exact bounded_wrapItem item
    · rw [FileEncDocumentProtected.removedMembers] at hm
      cases hr : p.removedRecipients with
      | none => rw [hr] at hm; exact absurd hm List.not_mem_nil
      | some removed =>
        rw [hr, List.mem_singleton] at hm
        rw [hm]
        refine (Bounded.arr ?_ : Bounded 2 _).mono (by decide)
        intro v hv
        obtain ⟨r, _, rfl⟩ := List.mem_map.mp hv
        exact bounded_removed r
    · rw [List.mem_cons, List.mem_cons, List.mem_singleton] at hm
      rcases hm with rfl | rfl | rfl
      · exact bounded_payload p.payload
      · exact Bounded.str 3 _
      · exact Bounded.str 3 _

theorem bounded_fileEnc {d : FileEncDocument} (h : d.signature.signerPub.wellFormed = true) :
    Bounded 6 d.toJson := by
  refine Bounded.obj (show ["protected", "signature"].Nodup by decide) ?_
  intro m hm
  rw [List.mem_cons, List.mem_singleton] at hm
  rcases hm with rfl | rfl
  · exact (bounded_protected d.protect).mono (by decide)
  · exact bounded_signature h

/-! ## Written documents are read back -/

/-- What reading back a written document comes down to. -/
private theorem parseValue_written {doc : FileEncDocument}
    (hsignature : doc.signature.signerPub.wellFormed = true) (sourceName : String) :
    parseJsonValue (utf8 (writeFileEnc doc)) sourceName "FileEncDocument" = .ok doc.toJson :=
  parseJsonValue_textAt true doc.toJson sourceName "FileEncDocument"
    (bounded_fileEnc hsignature).names (bounded_fileEnc hsignature).numbers

/-- **WRITTEN DOCUMENTS ARE READ BACK** within the element limit. -/
theorem parse_written {doc : FileEncDocument} (hprotected : protectedWellFormed doc.protect = true)
    (hhandles : (doc.protect.wrap.map WrapItem.recipientHandle).Nodup)
    (hsignature : doc.signature.wellFormed = true)
    (hmac : KeyPossessionProof.parse doc.signature.mac.wire = some doc.signature.mac)
    (helements : elementCount doc.toJson ≤ maxJsonElements) (sourceName : String) :
    parseFileEncStr (writeFileEnc doc) sourceName = .ok doc := by
  have hpub : doc.signature.signerPub.wellFormed = true := by
    simp only [ArtifactSignature.wellFormed, Bool.and_eq_true] at hsignature
    exact hsignature.1.1.2
  have hwrap : validateWrapItems doc.protect.wrap "FileEncDocument" = .ok () := by
    simp only [protectedWellFormed, Bool.and_eq_true, decide_eq_true_iff] at hprotected
    refine validateWrapItems_ok.mpr ⟨hprotected.1.1.1.1.2.1.2, hhandles, fun item hitem => ?_⟩
    exact validateWrapItem_of_wellFormed
      (List.all_eq_true.mp hprotected.1.1.1.1.2.2 item hitem)
  have hconforms : conforms FileEncDocument.schema doc.toJson = true := by
    rw [conforms_fileEnc, hprotected, hsignature]
    rfl
  refine bind_eq_ok.mpr ⟨doc, ?_, bind_eq_ok.mpr ⟨(), hwrap, rfl⟩⟩
  refine bind_eq_ok.mpr ⟨(), ?_, bind_eq_ok.mpr ⟨_, parseValue_written hpub sourceName, ?_⟩⟩
  · refine (validateJsonLimits_textAt true doc.toJson).mpr ⟨helements, ?_⟩
    exact Nat.le_trans (bounded_fileEnc hpub).nested (by decide)
  · rw [readConforming, if_pos hconforms, (reads_fileEnc doc hmac).1]

/-- **WHAT READS A WRITTEN DOCUMENT READS THAT DOCUMENT.** -/
theorem written_parse {doc read : FileEncDocument} {sourceName : String}
    (hpub : doc.signature.signerPub.wellFormed = true)
    (hmac : KeyPossessionProof.parse doc.signature.mac.wire = some doc.signature.mac)
    (h : parseFileEncStr (writeFileEnc doc) sourceName = .ok read) : read = doc := by
  obtain ⟨parsed, hparse, h⟩ := bind_eq_ok.mp h
  obtain ⟨_, _, h⟩ := bind_eq_ok.mp h
  obtain rfl := Except.ok.inj h
  obtain ⟨_, _, hparse⟩ := bind_eq_ok.mp hparse
  obtain ⟨v, hvalue, hread⟩ := bind_eq_ok.mp hparse
  rw [parseValue_written hpub] at hvalue
  obtain rfl := Except.ok.inj hvalue
  rw [readConforming] at hread
  split at hread
  · rw [(reads_fileEnc doc hmac).1] at hread
    exact (Except.ok.inj hread).symm
  · cases hread

/-- What acceptance of a text says: it is JSON within the limits, with distinct names and safe
    integers, and the document was read from a conforming value. -/
theorem value_of_parse {content sourceName : String} {doc : FileEncDocument}
    (h : parseFileEncStr content sourceName = .ok doc) :
    validateJsonLimits (utf8 content) = .ok () ∧ ∃ v, parseJson content.toList = some v
      ∧ uniqueNames v = true ∧ numbersWithin maxSafeInteger v = true
      ∧ conforms FileEncDocument.schema v = true ∧ FileEncDocument.fromJson v = some doc := by
  obtain ⟨parsed, hparse, h⟩ := bind_eq_ok.mp h
  obtain ⟨_, _, h⟩ := bind_eq_ok.mp h
  obtain rfl := Except.ok.inj h
  obtain ⟨_, hlimits, hparse⟩ := bind_eq_ok.mp hparse
  obtain ⟨v, hvalue, hread⟩ := bind_eq_ok.mp hparse
  refine ⟨hlimits, v, ?_⟩
  rw [parseJsonValue, utf8Decode_utf8, Option.bind_some] at hvalue
  rw [readConforming] at hread
  cases hjson : parseJson content.toList with
  | none =>
    rw [hjson] at hvalue
    cases hvalue
  | some w =>
    rw [hjson] at hvalue
    dsimp only at hvalue
    split at hvalue
    · rename_i hgood
      obtain rfl := Except.ok.inj hvalue
      rw [Bool.and_eq_true] at hgood
      split at hread
      · rename_i hconforms
        cases hdoc : FileEncDocument.fromJson w with
        | none =>
          rw [hdoc] at hread
          cases hread
        | some doc =>
          rw [hdoc] at hread
          exact ⟨rfl, hgood.1, hgood.2, hconforms, congrArg some (Except.ok.inj hread)⟩
      · cases hread
    · cases hvalue

/-- **WHAT IS READ NAMES THE FORMATS AND THE CIPHER**: the schema admits no other. -/
theorem formats_of_parse {content sourceName : String} {doc : FileEncDocument}
    (h : parseFileEncStr content sourceName = .ok doc) :
    doc.protect.format = fileEncV1 ∧ doc.protect.payload.protect.format = filePayloadV1
      ∧ doc.protect.payload.protect.alg.aead = aeadXChaCha20Poly1305 := by
  obtain ⟨_, v, _, _, _, hconforms, hdoc⟩ := value_of_parse h
  obtain ⟨members, rfl, hfields⟩ := readRecord_eq_some hdoc
  simp only [Option.bind_eq_bind, Option.bind_eq_some_iff] at hfields
  obtain ⟨protect, hprotect, signature, _, hfields⟩ := hfields
  obtain rfl := Option.some.inj hfields
  obtain ⟨w, hlook, hw⟩ := field_eq_some hprotect
  have hconforms' : conforms FileEncDocumentProtected.schema w = true :=
    memberConforms_of_conforms hconforms hlook
  obtain ⟨inner, rfl, hinner⟩ := readRecord_eq_some hw
  simp only [Option.bind_eq_bind, Option.bind_eq_some_iff] at hinner
  obtain ⟨format, hformat, sid, _, wrap, _, removed, _, payload, hpayload, createdAt, _,
    updatedAt, _, hinner⟩ := hinner
  obtain rfl := Option.some.inj hinner
  have hformat' := text_conforms hconforms' hformat
  obtain ⟨pv, hplook, hp⟩ := field_eq_some hpayload
  have hpconforms : conforms FilePayload.schema pv = true :=
    memberConforms_of_conforms hconforms' hplook
  obtain ⟨payloadMembers, rfl, hpfields⟩ := readRecord_eq_some hp
  simp only [Option.bind_eq_bind, Option.bind_eq_some_iff] at hpfields
  obtain ⟨header, hheader, encrypted, _, hpfields⟩ := hpfields
  obtain rfl := Option.some.inj hpfields
  obtain ⟨hv, hhlook, hh⟩ := field_eq_some hheader
  have hhconforms : conforms FilePayloadHeader.schema hv = true :=
    memberConforms_of_conforms hpconforms hhlook
  obtain ⟨headerMembers, rfl, hhfields⟩ := readRecord_eq_some hh
  simp only [Option.bind_eq_bind, Option.bind_eq_some_iff] at hhfields
  obtain ⟨hformatText, hhformat, hsid, _, alg, halg, hhfields⟩ := hhfields
  obtain rfl := Option.some.inj hhfields
  have hhformat' := text_conforms hhconforms hhformat
  obtain ⟨av, halook, ha⟩ := field_eq_some halg
  have haconforms : conforms Algorithm.schema av = true :=
    memberConforms_of_conforms hhconforms halook
  have halgorithm := Algorithm.wellFormed_of_fromJson haconforms ha
  refine ⟨?_, ?_, ?_⟩
  · exact beq_iff_eq.mp hformat'
  · exact beq_iff_eq.mp hhformat'
  · exact beq_iff_eq.mp halgorithm

/-- **A SIGNED FILE IS READ BACK AND VERIFIES** within the element limit, where the expiry the
    signer states is a time. -/
theorem verify_signedFile {C : Crypto} (hC : Lawful C) {ctx : CryptoContext}
    {signing : SigningContext} (hsigning : buildSigningContext C ctx = .ok signing)
    (hexpiry : C.checkKeyExpiry signing.signerPub.document.protect.expiresAt = .ok ())
    {protect : FileEncDocumentProtected} (hprotected : protectedWellFormed protect = true)
    (hhandles : (protect.wrap.map WrapItem.recipientHandle).Nodup) {macKey : FixedBytes 32}
    {signature : ArtifactSignature}
    (hsign : signFileDocument C protect macKey signing = .ok signature)
    (helements : elementCount (FileEncDocument.toJson ⟨protect, signature⟩) ≤ maxJsonElements) :
    verifyFileContent C (writeFileEnc ⟨protect, signature⟩) = .ok ⟨protect, signature⟩ := by
  obtain ⟨mac, hmac, hbuild⟩ := bind_eq_ok.mp hsign
  obtain ⟨hwell, hparse⟩ := wellFormed_buildArtifactSignature signing hmac
  rw [Except.ok.inj hbuild] at hwell
  have hmacEq : signature.mac = mac := by rw [← Except.ok.inj hbuild]; rfl
  rw [← hmacEq] at hparse
  refine bind_eq_ok.mpr ⟨_, parse_written hprotected hhandles hwell hparse helements _,
    bind_eq_ok.mpr ⟨(), ?_, bind_eq_ok.mpr ⟨C.verifyingKey signing.signingKey, ?_,
      bind_eq_ok.mpr ⟨(), ?_, rfl⟩⟩⟩⟩
  · simp only [protectedWellFormed, Bool.and_eq_true, decide_eq_true_iff] at hprotected
    refine validateWrapItems_ok.mpr ⟨hprotected.1.1.1.1.2.1.2, hhandles, fun item hitem => ?_⟩
    exact validateWrapItem_of_wellFormed (List.all_eq_true.mp hprotected.1.1.1.1.2.2 item hitem)
  · show buildVerifyingKeyFromSignature C signature = _
    rw [← Except.ok.inj hbuild]
    exact buildVerifyingKey_built hsigning hexpiry _ mac
  · show verifyArtifactSignature C (buildFileArtifactBodyBytes protect) _ signature = _
    rw [← Except.ok.inj hbuild]
    exact verifyArtifactSignature_built hC _ mac signing

/-- **THE SIGNED BYTES DETERMINE THE PROTECTED PART.** -/
theorem bodyBytes_injective {p q : FileEncDocumentProtected}
    (h : buildFileArtifactBodyBytes p = buildFileArtifactBodyBytes q) : p = q :=
  eq_of_jcsText (FileEncDocumentProtected.reads p) (FileEncDocumentProtected.reads q)
    (utf8_injective h)

end FileDocument
