import Kapsaro.KvRewrap
import Kapsaro.ToyDocuments

/-!
# Content binding — what the signed bytes say, and that a writer signs what a reader checks

Canonical bytes leave out blank lines, line endings and the signature.  Nothing else is lost, and
the bytes of a fresh text are the bytes its writer signed.

* **`SameKvContent`** — two accepted kv-enc texts that differ in blank lines, line endings and the
  signature line at most.
* **`signedBytes_determine`** — equal signed bytes mean equal content, in both formats; so a
  signature or a proof of one document is none of a document with another content.
* **`FreshlyRead`**, **`writer_agrees_with_reader`** — a draft within the limits is read back as
  what it says, and its proof and signature pass.
* **`oversized_draft`** — limits on the single tokens and on the number of entries do not bound
  the size of the text.
-/

namespace ContentBinding

open JsonText JsonMembers JsonLimits Limits TextLines Base64Codec WireTexts WireModel
open DocumentTokens KvLines TokenRecords Envelope KvDocument SignedArtifacts KeyedList JsonSize
open KvDraft KvSession RewrapPlan KvRewrap FileDocument ToyCrypto ToyDocuments

/-! ## The signed bytes determine the content -/

/-- Two accepted kv-enc texts with the same content. -/
structure SameKvContent (a b : String) (docA docB : KvEncDocument) : Prop where
  headerTokens : extractKvHeaderTokens docA.lines = extractKvHeaderTokens docB.lines
  head : docA.head = docB.head
  wrap : docA.wrap = docB.wrap
  tokens : docA.entries.map (fun e => (e.key, e.token))
    = docB.entries.map fun e => (e.key, e.token)
  entries : docA.entries = docB.entries
  /-- The texts agree on every line but blank ones and the signature line. -/
  lines : contentLines a = contentLines b

theorem sameKvContent_of_body {a b : String} {docA docB : KvEncDocument}
    (hA : parseKvDocument a = .ok docA) (hB : parseKvDocument b = .ok docB)
    (h : buildKvArtifactBodyBytes docA = buildKvArtifactBodyBytes docB) :
    SameKvContent a b docA docB := by
  obtain ⟨headA, sigA, hacceptedA⟩ := accepted_of_parse hA
  obtain ⟨headB, sigB, hacceptedB⟩ := accepted_of_parse hB
  obtain ⟨hhead, hwrap, htokens, hlines⟩ := canonicalBytes_injective hacceptedA hacceptedB h
  refine ⟨?_, ?_, ?_, htokens, entries_of_tokens hacceptedA hacceptedB htokens, hlines⟩
  · rw [extractKvHeaderTokens_of_shape hacceptedA.shape,
      extractKvHeaderTokens_of_shape hacceptedB.shape, hhead, hwrap]
  · have hparsed := hacceptedA.head
    rw [hhead, hacceptedB.head] at hparsed
    exact (Except.ok.inj hparsed).symm
  · have hparsed := hacceptedA.wrap
    rw [hwrap, hacceptedB.wrap] at hparsed
    exact (Except.ok.inj hparsed).symm

/-- **THE SIGNED BYTES DETERMINE THE CONTENT**, of kv-enc texts and of file-enc texts; hence the
    message of a signature does, and so does the message of a proof. -/
theorem signedBytes_determine :
    (∀ a b docA docB, parseKvDocument a = .ok docA → parseKvDocument b = .ok docB →
      (buildKvArtifactBodyBytes docA = buildKvArtifactBodyBytes docB →
        SameKvContent a b docA docB)
      ∧ (∀ algA kidA macA algB kidB macB,
          buildArtifactSignatureInput algA kidA (buildKvArtifactBodyBytes docA) macA
            = buildArtifactSignatureInput algB kidB (buildKvArtifactBodyBytes docB) macB →
          SameKvContent a b docA docB)
      ∧ ∀ kidA kidB, buildKeyPossessionMacMessage (buildKvArtifactBodyBytes docA) kidA
            = buildKeyPossessionMacMessage (buildKvArtifactBodyBytes docB) kidB →
          SameKvContent a b docA docB)
    ∧ ∀ a b nameA nameB docA docB, parseFileEncStr a nameA = .ok docA →
        parseFileEncStr b nameB = .ok docB →
      (buildFileArtifactBodyBytes docA.protect = buildFileArtifactBodyBytes docB.protect →
        docA.protect = docB.protect)
      ∧ (∀ algA kidA macA algB kidB macB,
          buildArtifactSignatureInput algA kidA (buildFileArtifactBodyBytes docA.protect) macA
            = buildArtifactSignatureInput algB kidB (buildFileArtifactBodyBytes docB.protect)
              macB →
          docA.protect = docB.protect)
      ∧ ∀ kidA kidB, buildKeyPossessionMacMessage (buildFileArtifactBodyBytes docA.protect) kidA
            = buildKeyPossessionMacMessage (buildFileArtifactBodyBytes docB.protect) kidB →
          docA.protect = docB.protect := by
  constructor
  · intro a b docA docB hA hB
    refine ⟨sameKvContent_of_body hA hB, ?_, ?_⟩
    · intro algA kidA macA algB kidB macB hinput
      exact sameKvContent_of_body hA hB (signatureInput_injective hinput).1
    · intro kidA kidB hmessage
      exact sameKvContent_of_body hA hB (macMessage_injective hmessage).1
  · intro a b nameA nameB docA docB _ _
    refine ⟨bodyBytes_injective, ?_, ?_⟩
    · intro algA kidA macA algB kidB macB hinput
      exact bodyBytes_injective (signatureInput_injective hinput).1
    · intro kidA kidB hmessage
      exact bodyBytes_injective (macMessage_injective hmessage).1

/-- Alice and bob sign one toy draft and one toy file: the texts differ, the content is the same. -/
theorem signedBytes_determine_toy :
    ∃ (a b : String) (docA docB : KvEncDocument) (fileA fileB : FileEncDocument),
      docA.signature ≠ docB.signature ∧ fileA.signature ≠ fileB.signature
        ∧ SameKvContent a b docA docB ∧ fileA.protect = fileB.protect := by
  have halice : stringSize alice.text ≤ 200 := by decide
  have hbob : stringSize bob.text ≤ 200 := by decide
  have hwraps := smallWraps_single halice toyKid [] (pad 32 [1])
  have hwrap := hwraps.unremoved
  obtain ⟨a, sigA, _, hsignedA, hverifyA⟩ := verify_toyLike hwrap
    (toyLike_toyDraft toySid hwrap.toWrapChecked (pad 32 [1])) halice []
  obtain ⟨b, sigB, _, hsignedB, hverifyB⟩ := verify_toyLike hwrap
    (toyLike_toyDraft toySid hwrap.toWrapChecked (pad 32 [1])) hbob []
  have hstands := (toyLike_toyDraft toySid hwrap.toWrapChecked (pad 32 [1])).represents.toStands
  have hkv := (signedBytes_determine.1 a b _ _ (parse_of_verify hverifyA)
    (parse_of_verify hverifyB)).1 ((canonicalBytes_document hstands sigA).trans
      (canonicalBytes_document hstands sigB).symm)
  obtain ⟨fileA, hfileA⟩ := verify_toyFile toySid toySid hwraps shortHistory_none
    (pad 32 [1]) [] alice []
  obtain ⟨fileB, hfileB⟩ := verify_toyFile toySid toySid hwraps shortHistory_none
    (pad 32 [1]) [] bob []
  obtain ⟨readA, hreadA, _⟩ := bind_eq_ok.mp hfileA.verified
  obtain ⟨readB, hreadB, _⟩ := bind_eq_ok.mp hfileB.verified
  have hfile := (signedBytes_determine.2 _ _ _ _ readA readB hreadA hreadB).1
  have hstatements : toyStatement alice toyKid [] ≠ toyStatement bob toyKid [] := by
    intro heq
    have hhandle : alice.text = bob.text := congrArg (fun key => key.protect.subjectHandle) heq
    exact absurd hhandle (by decide)
  have hreads : ∀ {doc read : FileEncDocument} {content : Bytes} {wrap : KvWrap}
      {sid : Uuid} {masterKey : MasterKey} {handle : MemberHandle} {secret : Bytes},
      ToyFile sid sid wrap masterKey content handle secret doc →
      parseFileEncStr (writeFileEnc doc) "file-enc content" = .ok read → read = doc := by
    intro doc read content wrap sid masterKey handle secret hdoc hread
    obtain ⟨parsed, hparse, hverify⟩ := bind_eq_ok.mp hdoc.verified
    obtain ⟨_, _, hverify⟩ := bind_eq_ok.mp hverify
    obtain ⟨_, _, hverify⟩ := bind_eq_ok.mp hverify
    obtain ⟨_, _, hverify⟩ := bind_eq_ok.mp hverify
    rw [hread] at hparse
    exact (Except.ok.inj hparse).trans (Except.ok.inj hverify)
  rw [hreads hfileA hreadA, hreads hfileB hreadB, hfileA.protect_eq, hfileB.protect_eq] at hfile
  refine ⟨a, b, _, _, fileA, fileB, ?_, ?_, hkv, ?_⟩
  · intro heq
    have hsame : sigA = sigB := heq
    refine hstatements ?_
    rw [← signer_toyDraft hsignedA, ← signer_toyDraft hsignedB, hsame]
  · intro heq
    refine hstatements ?_
    rw [← hfileA.signer, ← hfileB.signer, heq]
  · rw [hfileA.protect_eq]
    exact (hfile rfl).trans hfileB.protect_eq.symm

/-! ## The writer agrees with the reader -/

/-- The limits on the tokens of a draft and on the number of its entries. -/
structure TokensWithinLimits (draft : KvDocumentDraft) (signature : ArtifactSignature) : Prop where
  headToken : (tokenText draft.head.toJson).utf8ByteSize ≤ maxBase64TokenLength
  wrapToken : draft.wrapToken.utf8ByteSize ≤ maxBase64TokenLength
  entryTokens : ∀ entry ∈ draft.tokens, entry.2.utf8ByteSize ≤ maxBase64TokenLength
  sigToken : (tokenText signature.toJson).utf8ByteSize ≤ maxBase64TokenLength
  count : draft.entries.length ≤ maxKvKeyLines

/-- A signed draft is read back as what it says, and passes every check under the keys it was
    signed with. -/
structure FreshlyRead (C : Crypto) (draft : KvDocumentDraft) (masterKey : MasterKey)
    (signing : SigningContext) (text : String) (doc : KvEncDocument) : Prop where
  parsed : parseKvDocument text = .ok doc
  head : doc.head = draft.head
  wrap : doc.wrap = draft.wrap.data
  tokens : doc.entries.map (fun e => (e.key, e.token)) = draft.tokens
  /-- The canonical bytes are those that were signed and authenticated. -/
  canonical : draft.serializeUnsigned.map utf8 = .ok (buildKvArtifactBodyBytes doc)
  possession : verifyKvKeyPossession C doc masterKey = .ok ()
  signature : verifyKvSignature C doc (C.verifyingKey signing.signingKey) doc.signature = .ok ()

/-- **A WRITER AGREES WITH ITS READER**: every draft the operations can build, with keys that can
    stand on lines and within the limits of tokens, entries, WRAP elements and document size, is
    signed, read back as what it says, and passes its checks; the whole verification succeeds
    where the expiry the signer states is a time. -/
theorem writer_agrees_with_reader {C : Crypto} (hC : Lawful C) {draft : KvDocumentDraft}
    (hbuilt : Built draft) (hkeys : KeysChecked draft) (masterKey : MasterKey)
    {ctx : CryptoContext} {signing : SigningContext}
    (hsigning : buildSigningContext C ctx = .ok signing) :
    ∃ signature, signUnsignedKvDocument C draft masterKey signing
        = .ok (draft.signedWith signature)
      ∧ SignedBy C draft masterKey signing signature (draft.signedWith signature)
      ∧ (TokensWithinLimits draft signature →
          elementCount draft.wrap.data.toJson ≤ maxJsonElements →
          (draft.signedWith signature).utf8ByteSize ≤ maxKvEncFileSize →
        ∃ doc, FreshlyRead C draft masterKey signing (draft.signedWith signature) doc
          ∧ (C.checkKeyExpiry signing.signerPub.document.protect.expiresAt = .ok () →
            verifyKvContent C (draft.signedWith signature) = .ok doc)) := by
  obtain ⟨entries, hrep⟩ := represents_of_built hbuilt
  obtain ⟨text, htext⟩ := signUnsignedKvDocument_total C draft masterKey signing
  obtain ⟨signature, hsigned⟩ := signUnsignedKvDocument_ok htext
  rw [hsigned.text_eq] at htext hsigned
  refine ⟨signature, htext, hsigned, ?_⟩
  intro htokens helements hsize
  have hlimits : WithinLimits draft signature :=
    ⟨htokens.headToken, htokens.wrapToken, fun _ => helements, htokens.entryTokens,
      htokens.sigToken, htokens.count, hsize⟩
  have hparse := parse_signed hrep hsigned.checked hkeys hlimits "kv-enc content"
  have hcanonical := canonicalBytes_document hrep.toStands signature
  have hproof := verifyKvKeyPossession_document hrep.toStands hsigned
  have hsignature := verifyKvSignature_document hC hrep.toStands hsigned
  refine ⟨draft.document entries signature,
    ⟨hparse, rfl, rfl, hrep.toStands.tokens.symm, ?_, hproof, hsignature⟩, ?_⟩
  · rw [hcanonical, serializeUnsigned_eq]
    rfl
  · intro hexpiry
    exact verify_signed hC hrep hsigned hsigning hexpiry hkeys hlimits

/-- A toy draft is read back. -/
theorem writer_agrees_with_reader_toyDraft :
    ∃ draft signature doc, FreshlyRead toyCrypto draft (pad 32 [1]) (toySigning alice [])
        (draft.signedWith signature) doc
      ∧ verifyKvContent toyCrypto (draft.signedWith signature) = .ok doc := by
  have hshort : stringSize alice.text ≤ 200 := by decide
  have hwrap := (smallWraps_single hshort toyKid [] (pad 32 [1])).unremoved
  have hentry := (wellFormed_encryptEntry lawful_toyCrypto
    (encryptEntry_toy "KEY" "value" (pad 32 [1]) toySid false)).1
  have hdraft := toyLike_toyDraft toySid hwrap.toWrapChecked (pad 32 [1])
  have hbuilt : Built (toyDraft toySid { wrap := _, removedRecipients := none } (pad 32 [1])) :=
    @Built.new _ _ [("KEY", (toyEntry (pad 32 [1])).token)] (wellFormed_toyHead toySid)
      hwrap.toWrapChecked fun entry hmem => by
        rw [List.mem_singleton.mp hmem]
        exact ⟨_, hentry, rfl⟩
  obtain ⟨signature, _, hsigned, hread⟩ := writer_agrees_with_reader lawful_toyCrypto hbuilt
    (keysChecked_toyLike hdraft) (pad 32 [1]) (buildSigningContext_toy alice [])
  have hlimits := withinLimits_toyLike hwrap hdraft hshort hsigned
  obtain ⟨doc, hdoc, hverify⟩ := hread ⟨hlimits.headToken, hlimits.wrapToken, hlimits.entryTokens,
    hlimits.sigToken, hlimits.count⟩ hwrap.elements hlimits.size
  exact ⟨_, signature, doc, hdoc, hverify rfl⟩

/-! ## Token limits do not bound the text -/

/-- An entry whose ciphertext has so many zero bytes. -/
def zeroEntry (count : Nat) : KvEntryValue where
  nonce := encodeBase64urlNopad (pad 24 []).bytes
  ct := encodeBase64urlNopad (List.replicate count 0)
  disclosed := false

/-- Keys of one letter. -/
def letterKeys : List String :=
  ["A", "B", "C", "D", "E", "F", "G", "H", "I", "J", "K", "L", "M", "N", "O", "P", "Q"]

/-- A draft with seventeen entries whose tokens are just short enough. -/
def oversizedDraft : KvDocumentDraft where
  head := toyHead toySid
  wrap := .decoded { wrap := [toyWrap alice toyKid [] (pad 32 [1])], removedRecipients := none }
  entries := letterKeys.map fun key => .encoded key (tokenText (zeroEntry 589000).toJson)

theorem size_zeroEntry :
    (tokenText (zeroEntry 589000).toJson).utf8ByteSize = 1047182 := by
  have hnonce : stringSize (zeroEntry 589000).nonce = 34 := by
    rw [zeroEntry, stringSize_encode, FixedBytes.size]
    rfl
  have hct : stringSize (zeroEntry 589000).ct = 785336 := by
    rw [zeroEntry, stringSize_encode, List.length_replicate]
    decide
  have hdisclosed : (zeroEntry 589000).disclosed = false := rfl
  rw [tokenText_size, size_entry, hnonce, hct, hdisclosed]
  decide

theorem wellFormed_zeroEntry : (zeroEntry 589000).wellFormed = true := by
  have hnonce : isB64urlSized 32 (encodeBase64urlNopad (pad 24 []).bytes) = true :=
    isB64urlSized_encode (n := 24) _ (FixedBytes.size _) (by decide)
  have hct : isB64urlText (encodeBase64urlNopad (List.replicate 589000 0)) = true := by
    refine isB64urlText_encode _ fun hnil => ?_
    have hlength := congrArg List.length hnil
    rw [List.length_replicate, List.length_nil] at hlength
    omega
  rw [KvEntryValue.wellFormed, zeroEntry, hnonce, hct]
  rfl

/-- **TOKEN LIMITS DO NOT BOUND THE TEXT**: a draft with valid distinct keys, whose tokens and
    number of entries are within the limits, is signed, and the signed text is not read back. -/
theorem oversized_draft :
    ∃ draft signature, Built draft ∧ KeysChecked draft ∧ TokensWithinLimits draft signature
      ∧ signUnsignedKvDocument toyCrypto draft (pad 32 [1]) (toySigning alice [])
        = .ok (draft.signedWith signature)
      ∧ ∀ doc, parseKvDocument (draft.signedWith signature) ≠ .ok doc := by
  have hshort : stringSize alice.text ≤ 200 := by decide
  have hwrap := (smallWraps_single hshort toyKid [] (pad 32 [1])).unremoved
  -- Seventeen entries of one size: each token is within its limit, their sum is not.
  have hbuilt : Built oversizedDraft :=
    @Built.new _ _ (letterKeys.map fun key => (key, tokenText (zeroEntry 589000).toJson))
      (wellFormed_toyHead toySid) hwrap.toWrapChecked fun entry hmem => by
        obtain ⟨key, _, rfl⟩ := List.mem_map.mp hmem
        exact ⟨_, wellFormed_zeroEntry, rfl⟩
  obtain ⟨text, htext⟩ := signUnsignedKvDocument_total toyCrypto oversizedDraft (pad 32 [1])
    (toySigning alice [])
  obtain ⟨signature, hsigned⟩ := signUnsignedKvDocument_ok htext
  rw [hsigned.text_eq] at htext
  have hvalid : ∀ key ∈ letterKeys, isValidKeyName key = true ∧ key.utf8ByteSize = 1 := by decide
  have hkeys : KeysChecked oversizedDraft := by
    constructor
    · intro entry hentry
      obtain ⟨key, hkey, rfl⟩ := List.mem_map.mp hentry
      exact (hvalid key hkey).1
    · rw [oversizedDraft, List.map_map]
      have hdistinct : letterKeys.Nodup := by decide
      exact (List.map_id letterKeys).symm ▸ hdistinct
  have htokens : oversizedDraft.tokens
      = letterKeys.map fun key => (key, tokenText (zeroEntry 589000).toJson) := by
    rw [KvDocumentDraft.tokens, oversizedDraft, List.map_map]
    rfl
  have hhead := computeEncodedLen_le (size_toyHead toySid)
  have hwrapSize := computeEncodedLen_le hwrap.size
  have hsig := computeEncodedLen_le (size_signature_toyDraft hshort hsigned)
  have hlimit : maxBase64TokenLength = 1048576 := rfl
  refine ⟨oversizedDraft, signature, hbuilt, hkeys, ?_, htext, ?_⟩
  · refine ⟨?_, ?_, ?_, ?_, by decide⟩
    · rw [hlimit]
      show (tokenText (toyHead toySid).toJson).utf8ByteSize ≤ 1048576
      rw [tokenText_size]
      omega
    · rw [hlimit]
      show (tokenText (KvWrap.toJson _)).utf8ByteSize ≤ 1048576
      rw [tokenText_size]
      exact Nat.le_trans hwrapSize (by decide)
    · rw [htokens]
      intro entry hentry
      obtain ⟨key, _, rfl⟩ := List.mem_map.mp hentry
      exact Nat.le_trans (Nat.le_of_eq size_zeroEntry) (by decide)
    · rw [hlimit, tokenText_size]
      omega
  -- A parser that accepted the text would have measured all seventeen.
  · intro doc hdoc
    obtain ⟨_, _, haccepted⟩ := accepted_of_parse hdoc
    have hsize := haccepted.size
    rw [size_signedWith, htokens, List.map_map] at hsize
    have hsum : (letterKeys.map ((fun entry : String × String =>
        entry.1.utf8ByteSize + entry.2.utf8ByteSize + 2) ∘ fun key =>
          (key, tokenText (zeroEntry 589000).toJson))).sum = 17 * 1047185 := by
      have hmap : letterKeys.map ((fun entry : String × String =>
          entry.1.utf8ByteSize + entry.2.utf8ByteSize + 2) ∘ fun key =>
            (key, tokenText (zeroEntry 589000).toJson)) = letterKeys.map fun _ => 1047185 := by
        refine List.map_congr_left fun key hkey => ?_
        show key.utf8ByteSize + (tokenText (zeroEntry 589000).toJson).utf8ByteSize + 2 = 1047185
        rw [(hvalid key hkey).2, size_zeroEntry]
      rw [hmap]
      decide
    have hfile : maxKvEncFileSize = 16777216 := rfl
    omega

end ContentBinding
