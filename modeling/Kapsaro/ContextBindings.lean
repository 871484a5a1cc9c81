import Kapsaro.KeyProtection
import Kapsaro.SignedArtifacts
import Kapsaro.ToyDocuments

/-!
# Context bindings — bytes of one context are bytes of no other

Everything that is sealed, encrypted or derived is bound to bytes that say what it is for.

* **`ContextBinding`**, **`ContextBinding.bytes`** — the contexts, and the bytes the source builds
  for each.
* **`bytes_injective`** — equal bytes are bytes of one kind of context with equal fields.
* **`signatureInput_fields`**, **`macMessage_ne_signatureInput`** — the same for the two framed
  messages.
* **`SealedText`**, **`OpenedText`**, **`SealedWrap`**, **`OpenedWrap`** — what the source's own
  functions wrote, or read, in a context; the primitive was called with the context's bytes.
* **`IdealAead`**, **`IdealHpke`** — nothing opens but what was sealed.
* **`contexts_separate`** — a ciphertext or a wrap that was sealed in one context opens in no other.
-/

namespace ContextBindings

open JsonText JsonMembers Limits TextLines Base64Codec WireTexts WireModel DocumentTokens Framing
open Envelope SignedArtifacts KeyProtection ToyCrypto ToyDocuments

/-! ## The framed messages -/

/-- A derivation context determines its texts. -/
theorem contextBytes_lookup {members members' : List (String × String)} (name : String)
    (hnames : (members.map Prod.fst).Nodup) (hnames' : (members'.map Prod.fst).Nodup)
    (h : contextBytes members = contextBytes members') :
    (member name (members.map fun m => (m.1, Json.str m.2))).map canonical
      = (member name (members'.map fun m => (m.1, Json.str m.2))).map canonical := by
  refine member_of_jcsText ?_ ?_ (utf8_injective h) name
  · rw [List.map_map]
    exact hnames
  · rw [List.map_map]
    exact hnames'

/-- **THE SIGNATURE INPUT DETERMINES ALL ITS FIELDS.** -/
theorem signatureInput_fields {alg alg' kid kid' mac mac' : String} {body body' : Bytes}
    (h : buildArtifactSignatureInput alg kid body mac
      = buildArtifactSignatureInput alg' kid' body' mac') :
    alg = alg' ∧ kid = kid' ∧ body = body' ∧ mac = mac' := by
  obtain ⟨hbody, hmac⟩ := signatureInput_injective h
  rw [buildArtifactSignatureInput, buildArtifactSignatureInput] at h
  have hheader := (List.cons.inj (framed_injective h)).1
  have hnames : ∀ a k : String, (([("alg", a), ("kid", k)] : List (String × String)).map
      Prod.fst).Nodup := by
    intro a k
    show ["alg", "kid"].Nodup
    decide
  have halg := contextBytes_lookup "alg" (hnames alg kid) (hnames alg' kid') hheader
  have hkid := contextBytes_lookup "kid" (hnames alg kid) (hnames alg' kid') hheader
  simp only [List.map_cons, List.map_nil, member, if_pos, String.reduceEq, canonical,
    Option.map_some, Option.some.injEq, Json.str.injEq, if_false] at halg hkid
  exact ⟨halg, hkid, hbody, hmac⟩

/-- **NO MAC MESSAGE IS A SIGNATURE INPUT**: the domains differ in their ninth byte. -/
theorem macMessage_ne_signatureInput (body : Bytes) (kid : String) (alg kid' : String)
    (body' : Bytes) (mac : String) :
    buildKeyPossessionMacMessage body kid ≠ buildArtifactSignatureInput alg kid' body' mac :=
  framed_ne 8 (by decide) (by decide) (by decide) _ _

/-! ## The contexts -/

/-- What a context over a sid alone derives. -/
inductive SidProtocol where
  | fileSalt
  | kvSalt
  | fileContentKey
  | fileMacKey
  | kvMacKey
deriving DecidableEq, Repr

def SidProtocol.text : SidProtocol → String
  | .fileSalt => "kapsaro:hkdf-salt:file@1"
  | .kvSalt => "kapsaro:hkdf-salt:kv@1"
  | .fileContentKey => "kapsaro:hkdf-info:file:content-key@1"
  | .fileMacKey => "kapsaro:hkdf-info:file:mac-key@1"
  | .kvMacKey => "kapsaro:hkdf-info:kv:mac-key@1"

theorem SidProtocol.text_injective {p q : SidProtocol} (h : p.text = q.text) : p = q := by
  cases p <;> cases q <;> first | rfl | exact absurd h (by decide)

/-- A context something is sealed, encrypted or derived in. -/
inductive ContextBinding where
  | sidContext (protocol : SidProtocol) (sid : Uuid)
  | wrap (format : WrapFormat) (sid : Uuid) (kid : String)
  | kvEntry (sid : Uuid) (key : String)
  | kvCek (sid : Uuid) (key nonce : String)
  | filePayload (header : FilePayloadHeader)
  | privateKey (protect : PrivateKeyProtected)
deriving DecidableEq

namespace ContextBinding

/-- The bytes the source builds for a context. -/
def bytes : ContextBinding → Bytes
  | .sidContext protocol sid => buildSidContextBytes protocol.text sid
  | .wrap format sid kid => buildWrapInfo format sid kid
  | .kvEntry sid key => buildKvEntryAad sid key
  | .kvCek sid key nonce => buildKvCekInfo sid key nonce
  | .filePayload header => buildFilePayloadAad header
  | .privateKey protect => buildPrivateKeyAad protect

@[simp]
theorem bytes_kvEntry (sid : Uuid) (key : String) :
    (kvEntry sid key).bytes = buildKvEntryAad sid key := by
  rw [bytes]

@[simp]
theorem bytes_filePayload (header : FilePayloadHeader) :
    (filePayload header).bytes = buildFilePayloadAad header := by
  rw [bytes]

@[simp]
theorem bytes_privateKey (protect : PrivateKeyProtected) :
    (privateKey protect).bytes = buildPrivateKeyAad protect := by
  rw [bytes]

@[simp]
theorem bytes_wrap (format : WrapFormat) (sid : Uuid) (kid : String) :
    (wrap format sid kid).bytes = buildWrapInfo format sid kid := by
  rw [bytes]

/-- The protocol text of a wrap. -/
def wrapText : WrapFormat → String
  | .file => "kapsaro:hpke-info:file:wrap@1"
  | .kv => "kapsaro:hpke-info:kv:wrap@1"

/-- The members of the JSON object behind the bytes. -/
def members : ContextBinding → List (String × Json)
  | .sidContext protocol sid => [("p", .str protocol.text), ("sid", .str sid.text)]
  | .wrap format sid kid =>
    [("p", .str (wrapText format)), ("sid", .str sid.text), ("kid", .str kid)]
  | .kvEntry sid key =>
    [("p", .str "kapsaro:aad:kv:entry-payload@1"), ("sid", .str sid.text), ("k", .str key)]
  | .kvCek sid key nonce =>
    [("p", .str "kapsaro:hkdf-info:kv:cek@1"), ("sid", .str sid.text), ("k", .str key),
      ("nonce", .str nonce)]
  | .filePayload header =>
    [("format", .str header.format), ("sid", .str header.sid.text), ("alg", header.alg.toJson)]
  | .privateKey protect =>
    [("format", .str protect.format), ("subject_handle", .str protect.subjectHandle),
      ("kid", .str protect.kid), ("alg", protect.alg.toJson),
      ("created_at", .str protect.createdAt), ("expires_at", .str protect.expiresAt)]

theorem bytes_eq (b : ContextBinding) : b.bytes = utf8 (jcsText (.obj b.members)) := by
  cases b with
  | wrap format sid kid => cases format <;> rfl
  | _ => rfl

theorem nodup_members (b : ContextBinding) : (b.members.map Prod.fst).Nodup := by
  cases b with
  | sidContext => show ["p", "sid"].Nodup; decide
  | wrap => show ["p", "sid", "kid"].Nodup; decide
  | kvEntry => show ["p", "sid", "k"].Nodup; decide
  | kvCek => show ["p", "sid", "k", "nonce"].Nodup; decide
  | filePayload => show ["format", "sid", "alg"].Nodup; decide
  | privateKey =>
    show ["format", "subject_handle", "kid", "alg", "created_at", "expires_at"].Nodup
    decide

/-- A member that is a text. -/
def textOf (name : String) (b : ContextBinding) : Option String :=
  match member name b.members with
  | some (.str s) => some s
  | _ => none

theorem textOf_eq {b b' : ContextBinding} (h : b.bytes = b'.bytes) (name : String) :
    b.textOf name = b'.textOf name := by
  rw [bytes_eq, bytes_eq] at h
  have hlook := member_of_jcsText b.nodup_members b'.nodup_members (utf8_injective h) name
  have htext : ∀ v : Option Json,
      (match v with | some (.str s) => some s | _ => none : Option String)
      = match v.map canonical with | some (.str s) => some s | _ => none := by
    intro v
    cases v with
    | none => rfl
    | some v => cases v <;> rfl
  rw [textOf, textOf, htext, hlook, ← htext]

/-- The kinds of context. -/
inductive Kind where
  | sidContext
  | wrap
  | kvEntry
  | kvCek
  | filePayload
  | privateKey
deriving DecidableEq, Repr

def kind : ContextBinding → Kind
  | .sidContext _ _ => .sidContext
  | .wrap _ _ _ => .wrap
  | .kvEntry _ _ => .kvEntry
  | .kvCek _ _ _ => .kvCek
  | .filePayload _ => .filePayload
  | .privateKey _ => .privateKey

/-- The kind read off the protocol text and the sid: headers hold no protocol text, and the one
    of a private key holds no sid. -/
def kindOf (protocol sid : Option String) : Kind :=
  match protocol, sid with
  | none, some _ => .filePayload
  | none, none => .privateKey
  | some text, _ =>
    if text = "kapsaro:hpke-info:file:wrap@1" ∨ text = "kapsaro:hpke-info:kv:wrap@1" then .wrap
    else if text = "kapsaro:aad:kv:entry-payload@1" then .kvEntry
    else if text = "kapsaro:hkdf-info:kv:cek@1" then .kvCek
    else .sidContext

theorem kindOf_textOf (b : ContextBinding) : kindOf (b.textOf "p") (b.textOf "sid") = b.kind := by
  cases b with
  | sidContext protocol sid => cases protocol <;> rfl
  | wrap format sid kid => cases format <;> rfl
  | _ => rfl

theorem wrapText_injective {f g : WrapFormat} (h : wrapText f = wrapText g) : f = g := by
  cases f <;> cases g <;> first | rfl | exact absurd h (by decide)

/-- **EQUAL BINDING BYTES ARE ONE BINDING**: the same kind of context, with equal fields. -/
theorem bytes_injective {b b' : ContextBinding} (h : b.bytes = b'.bytes) : b = b' := by
  have htext := textOf_eq h
  -- The protocol text tells the kinds apart; within a kind the other members tell the rest.
  have hkind : b.kind = b'.kind := by
    rw [← kindOf_textOf b, ← kindOf_textOf b', htext, htext]
  have hsid : ∀ {s t : Uuid}, some s.text = some t.text → s = t := by
    rintro ⟨s, _⟩ ⟨t, _⟩ hst
    obtain rfl : s = t := Option.some.inj hst
    rfl
  cases b with
  | sidContext protocol sid =>
    cases b' with
    | sidContext protocol' sid' =>
      obtain rfl := SidProtocol.text_injective (Option.some.inj (htext "p"))
      obtain rfl := hsid (htext "sid")
      rfl
    | _ => cases hkind
  | wrap format sid kid =>
    cases b' with
    | wrap format' sid' kid' =>
      obtain rfl := wrapText_injective (Option.some.inj (htext "p"))
      obtain rfl := hsid (htext "sid")
      obtain rfl : kid = kid' := Option.some.inj (htext "kid")
      rfl
    | _ => cases hkind
  | kvEntry sid key =>
    cases b' with
    | kvEntry sid' key' =>
      obtain rfl := hsid (htext "sid")
      obtain rfl : key = key' := Option.some.inj (htext "k")
      rfl
    | _ => cases hkind
  | kvCek sid key nonce =>
    cases b' with
    | kvCek sid' key' nonce' =>
      obtain rfl := hsid (htext "sid")
      obtain rfl : key = key' := Option.some.inj (htext "k")
      obtain rfl : nonce = nonce' := Option.some.inj (htext "nonce")
      rfl
    | _ => cases hkind
  | filePayload header =>
    cases b' with
    | filePayload header' =>
      obtain rfl := eq_of_jcsText (FilePayloadHeader.reads header)
        (FilePayloadHeader.reads header') (utf8_injective h)
      rfl
    | _ => cases hkind
  | privateKey protect =>
    cases b' with
    | privateKey protect' =>
      obtain rfl := eq_of_jcsText (PrivateKeyProtected.reads protect)
        (PrivateKeyProtected.reads protect') (utf8_injective h)
      rfl
    | _ => cases hkind

end ContextBinding

/-! ## Encryption in a context -/

/-- One call of the cipher. -/
structure AeadSeal where
  key : Bytes
  nonce : Bytes
  aad : Bytes
  plaintext : Bytes
  ct : Bytes
deriving DecidableEq

/-- The cipher encrypts so. -/
def AeadSeal.Made (C : Crypto) (s : AeadSeal) : Prop :=
  C.xchachaEncrypt s.key s.nonce s.aad s.plaintext = .ok s.ct

/-- The cipher decrypts so. -/
def AeadSeal.Opens (C : Crypto) (s : AeadSeal) : Prop :=
  C.xchachaDecrypt s.key s.nonce s.aad s.ct = .ok s.plaintext

theorem AeadSeal.made_iff {C : Crypto} {key nonce aad plaintext ct : Bytes} :
    (⟨key, nonce, aad, plaintext, ct⟩ : AeadSeal).Made C
      ↔ C.xchachaEncrypt key nonce aad plaintext = .ok ct := Iff.rfl

theorem AeadSeal.opens_iff {C : Crypto} {key nonce aad plaintext ct : Bytes} :
    (⟨key, nonce, aad, plaintext, ct⟩ : AeadSeal).Opens C
      ↔ C.xchachaDecrypt key nonce aad ct = .ok plaintext := Iff.rfl

/-- The ideal cipher of a run, whose calls are recorded: nothing decrypts but what was recorded,
    and no two recorded texts coincide. -/
structure IdealAead (C : Crypto) (recorded : AeadSeal → Prop) : Prop where
  recorded_of_opens : ∀ s : AeadSeal, s.Opens C → recorded s
  fresh : ∀ s t, recorded s → recorded t → s.nonce = t.nonce → s.ct = t.ct → s = t

/-- The texts a writer of the source encrypted in a context, by a recorded call. -/
inductive SealedText (C : Crypto) (recorded : AeadSeal → Prop) :
    ContextBinding → String → String → Prop
  | entry {key value : String} {schedule : KeySchedule} {sid : Uuid} {freshNonce : FixedBytes 24}
      {disclosed : Bool} {ct : Bytes} :
      encryptEntry C key value schedule sid freshNonce disclosed
        = .ok ⟨encodeBase64urlNopad freshNonce.bytes, encodeBase64urlNopad ct, disclosed⟩ →
      recorded ⟨(deriveCek C schedule key (encodeBase64urlNopad freshNonce.bytes)).bytes,
        freshNonce.bytes, buildKvEntryAad sid key, utf8 value, ct⟩ →
      SealedText C recorded (.kvEntry sid key) (encodeBase64urlNopad freshNonce.bytes)
        (encodeBase64urlNopad ct)
  | payload {plaintext : Bytes} {contentKey : FixedBytes 32} {header : FilePayloadHeader}
      {freshNonce : FixedBytes 24} {ct : Bytes} :
      encryptFilePayloadContent C plaintext contentKey header freshNonce
        = .ok ⟨encodeBase64urlNopad freshNonce.bytes, encodeBase64urlNopad ct⟩ →
      recorded ⟨contentKey.bytes, freshNonce.bytes, buildFilePayloadAad header, plaintext, ct⟩ →
      SealedText C recorded (.filePayload header) (encodeBase64urlNopad freshNonce.bytes)
        (encodeBase64urlNopad ct)
  | privateKey {plaintext : PrivateKeyPlaintext} {encKey : FixedBytes 32}
      {protect : PrivateKeyProtected} {freshNonce : FixedBytes 24} {ct : Bytes} :
      encryptPrivateKeyPlaintext C plaintext encKey protect freshNonce
        = .ok ⟨encodeBase64urlNopad freshNonce.bytes, encodeBase64urlNopad ct⟩ →
      recorded ⟨encKey.bytes, freshNonce.bytes, buildPrivateKeyAad protect, plaintext.toBytes,
        ct⟩ →
      SealedText C recorded (.privateKey protect) (encodeBase64urlNopad freshNonce.bytes)
        (encodeBase64urlNopad ct)

/-- The texts a reader of the source decrypts in a context, whatever keys it holds. -/
inductive OpenedText (C : Crypto) : ContextBinding → String → String → Prop
  | entry {entry : KvEntryValue} {key aead : String} {schedule : KeySchedule} {sid : Uuid}
      {plaintext : Bytes} :
      decryptEntry C entry key aead schedule sid = .ok plaintext →
      OpenedText C (.kvEntry sid key) entry.nonce entry.ct
  | payload {encrypted : FilePayloadCiphertext} {contentKey : FixedBytes 32}
      {header : FilePayloadHeader} {plaintext : Bytes} :
      decryptFilePayloadContent C encrypted contentKey header = .ok plaintext →
      OpenedText C (.filePayload header) encrypted.nonce encrypted.ct
  | privateKey {document : KeyProtection.PrivateKey} {encKey : FixedBytes 32}
      {params : PrivateKeyCiphertextParams} {plaintext : PrivateKeyPlaintext} :
      decodeCiphertextParams document = .ok params →
      decryptPrivateKeyPlaintext C encKey params = .ok plaintext →
      OpenedText C (.privateKey document.protect) document.encrypted.nonce document.encrypted.ct

/-- **A WRITER ENCRYPTS UNDER THE BYTES OF ITS CONTEXT.** -/
theorem SealedText.call {C : Crypto} {recorded : AeadSeal → Prop} {b : ContextBinding}
    {nonce ct : String} (h : SealedText C recorded b nonce ct) :
    ∃ s, recorded s ∧ s.Made C ∧ s.aad = b.bytes ∧ nonce = encodeBase64urlNopad s.nonce
      ∧ ct = encodeBase64urlNopad s.ct := by
  cases h with
  | entry hencrypt hrecorded =>
    obtain ⟨ct', hmade, _, hct, _⟩ := encryptEntry_ok hencrypt
    obtain rfl := encodeBase64urlNopad_injective hct
    exact ⟨_, hrecorded, AeadSeal.made_iff.mpr hmade, by simp, rfl, rfl⟩
  | payload hencrypt hrecorded =>
    obtain ⟨ct', hmade, _, hct⟩ := encryptFilePayloadContent_ok hencrypt
    obtain rfl := encodeBase64urlNopad_injective hct
    exact ⟨_, hrecorded, AeadSeal.made_iff.mpr hmade, by simp, rfl, rfl⟩
  | privateKey hencrypt hrecorded =>
    obtain ⟨ct', hmade, _, hct⟩ := encryptPrivateKeyPlaintext_ok hencrypt
    obtain rfl := encodeBase64urlNopad_injective hct
    exact ⟨_, hrecorded, AeadSeal.made_iff.mpr hmade, by simp, rfl, rfl⟩

/-- **A READER DECRYPTS UNDER THE BYTES OF ITS CONTEXT.** -/
theorem OpenedText.call {C : Crypto} {b : ContextBinding} {nonce ct : String}
    (h : OpenedText C b nonce ct) :
    ∃ s : AeadSeal, s.Opens C ∧ s.aad = b.bytes
      ∧ decodeBase64urlNopadArray 24 nonce "nonce" = .ok s.nonce
      ∧ decodeBase64urlNopad ct "ct" = .ok s.ct := by
  cases h with
  | entry hdecrypt =>
    obtain ⟨nonce, ct, hnonce, hct, hopens⟩ := decryptEntry_ok hdecrypt
    exact ⟨_, AeadSeal.opens_iff.mpr hopens, by simp, hnonce, hct⟩
  | payload hdecrypt =>
    obtain ⟨nonce, ct, hnonce, hct, hopens⟩ := decryptFilePayloadContent_ok hdecrypt
    exact ⟨_, AeadSeal.opens_iff.mpr hopens, by simp, hnonce, hct⟩
  | privateKey hdecode hdecrypt =>
    obtain ⟨nonce, ct, bytes, hnonce, hct, hopens⟩ :=
      decryptPrivateKeyPlaintext_ok hdecode hdecrypt
    exact ⟨_, AeadSeal.opens_iff.mpr hopens, by simp, hnonce, hct⟩

/-- **A CIPHERTEXT OPENS IN ITS OWN CONTEXT ONLY.** -/
theorem OpenedText.context_eq {C : Crypto} {recorded : AeadSeal → Prop}
    (hC : IdealAead C recorded) {b b' : ContextBinding} {nonce ct : String}
    (hsealed : SealedText C recorded b nonce ct) (hopened : OpenedText C b' nonce ct) :
    b' = b := by
  obtain ⟨s, hs, _, haad, rfl, rfl⟩ := hsealed.call
  obtain ⟨t, ht, haad', hnonce, hct⟩ := hopened.call
  have hnonceEq := decodeBase64urlArray_encode_ok hnonce
  have hctEq := decodeBase64url_encode_ok hct
  obtain rfl := hC.fresh s t hs (hC.recorded_of_opens t ht) hnonceEq.symm hctEq.symm
  exact ContextBinding.bytes_injective (haad'.symm.trans haad)

/-! ## Wraps in a context -/

/-- One call of HPKE sealing. -/
structure HpkeSeal where
  publicKey : Bytes
  info : Bytes
  aad : Bytes
  plaintext : Bytes
  enc : Bytes
  ct : Bytes
deriving DecidableEq

/-- HPKE seals so, with some randomness. -/
def HpkeSeal.Made (C : Crypto) (s : HpkeSeal) : Prop :=
  ∃ seed, C.sealBase s.publicKey s.info s.aad s.plaintext seed = .ok (s.enc, s.ct)

/-- HPKE opens so, with the secret key behind the public one. -/
def HpkeSeal.Opens (C : Crypto) (s : HpkeSeal) : Prop :=
  ∃ sk, s.publicKey = C.kemPublic sk ∧ C.openBase sk s.enc s.info s.aad s.ct = .ok s.plaintext

/-- Ideal HPKE in a run whose calls are recorded. -/
structure IdealHpke (C : Crypto) (recorded : HpkeSeal → Prop) : Prop where
  recorded_of_opens : ∀ s : HpkeSeal, s.Opens C → recorded s
  fresh : ∀ s t, recorded s → recorded t → s.enc = t.enc → s.ct = t.ct → s = t

/-- The wraps the source sealed in a context, by a recorded call. -/
inductive SealedWrap (C : Crypto) (recorded : HpkeSeal → Prop) :
    ContextBinding → String → String → Prop
  | wrap {format : WrapFormat} {member : VerifiedRecipientKey} {sid : Uuid} {masterKey : MasterKey}
      {seed kemPublic enc ct : Bytes} {item : WrapItem} :
      buildWrapItem C format member sid masterKey seed = .ok item →
      decodeBase64urlNopadArray 32 member.document.protect.keys.kem.x "KEM public key"
        = .ok kemPublic →
      item.enc = encodeBase64urlNopad enc → item.ct = encodeBase64urlNopad ct →
      recorded ⟨kemPublic, buildWrapInfo format sid member.kid, buildWrapInfo format sid member.kid,
        masterKey.bytes, enc, ct⟩ →
      SealedWrap C recorded (.wrap format sid member.kid) item.enc item.ct

/-- The wraps the source opens in a context, whatever key it holds. -/
inductive OpenedWrap (C : Crypto) : ContextBinding → String → String → Prop
  | wrap {format : WrapFormat} {item : WrapItem} {wrap : RecipientWrap} {sid : Uuid}
      {kemSecret : Bytes} {masterKey : MasterKey} :
      RecipientWrap.parse item = .ok wrap →
      unwrapMasterKey C format wrap sid kemSecret = .ok masterKey →
      OpenedWrap C (.wrap format sid item.kid) item.enc item.ct

/-- **THE MASTER KEY IS SEALED UNDER THE BYTES OF ITS CONTEXT**, as info and as additional
    data. -/
theorem SealedWrap.call {C : Crypto} {recorded : HpkeSeal → Prop} {b : ContextBinding}
    {enc ct : String} (h : SealedWrap C recorded b enc ct) :
    ∃ s, recorded s ∧ s.Made C ∧ s.info = b.bytes ∧ s.aad = b.bytes
      ∧ enc = encodeBase64urlNopad s.enc ∧ ct = encodeBase64urlNopad s.ct := by
  cases h with
  | @wrap format member sid masterKey seed kemPublic enc ct item hbuild hpublic henc hct
      hrecorded =>
    obtain ⟨kemPublic', enc', ct', hdecode, hseal, rfl⟩ := buildWrapItem_ok hbuild
    rw [hpublic] at hdecode
    obtain rfl := Except.ok.inj hdecode
    obtain rfl := encodeBase64urlNopad_injective henc
    obtain rfl := encodeBase64urlNopad_injective hct
    exact ⟨_, hrecorded, ⟨seed, hseal⟩, by simp, by simp, rfl, rfl⟩

/-- **A WRAP IS OPENED UNDER THE BYTES OF ITS CONTEXT.** -/
theorem OpenedWrap.call {C : Crypto} {b : ContextBinding} {enc ct : String}
    (h : OpenedWrap C b enc ct) :
    ∃ s : HpkeSeal, s.Opens C ∧ s.info = b.bytes ∧ s.aad = b.bytes
      ∧ decodeBase64urlNopadArray 32 enc "enc" = .ok s.enc
      ∧ decodeBase64urlNopadArray 48 ct "ct" = .ok s.ct := by
  cases h with
  | @wrap format item wrap sid kemSecret masterKey hparse hopen =>
    obtain ⟨_, hkid⟩ := RecipientWrap.parse_ok hparse
    obtain ⟨henc, hct⟩ := RecipientWrap.bytes_of_parse hparse
    obtain ⟨bytes, hbytes, _⟩ := bind_eq_ok.mp hopen
    refine ⟨⟨C.kemPublic kemSecret, buildWrapInfo format sid wrap.kid.text,
      buildWrapInfo format sid wrap.kid.text, bytes, wrap.enc, wrap.ct⟩,
      ⟨kemSecret, rfl, hbytes⟩, ?_, ?_, henc, hct⟩
    · rw [hkid, ContextBinding.bytes_wrap]
    · rw [hkid, ContextBinding.bytes_wrap]

/-- **A WRAP OPENS IN ITS OWN CONTEXT ONLY.** -/
theorem OpenedWrap.context_eq {C : Crypto} {recorded : HpkeSeal → Prop}
    (hC : IdealHpke C recorded) {b b' : ContextBinding} {enc ct : String}
    (hsealed : SealedWrap C recorded b enc ct) (hopened : OpenedWrap C b' enc ct) : b' = b := by
  obtain ⟨s, hs, _, hinfo, _, rfl, rfl⟩ := hsealed.call
  obtain ⟨t, ht, hinfo', _, henc, hct⟩ := hopened.call
  have hencEq := decodeBase64urlArray_encode_ok henc
  have hctEq := decodeBase64urlArray_encode_ok hct
  obtain rfl := hC.fresh s t hs (hC.recorded_of_opens t ht) hencEq.symm hctEq.symm
  exact ContextBinding.bytes_injective (hinfo'.symm.trans hinfo)

/-! ## All contexts together -/

/-- **CONTEXTS SEPARATE**: framed messages and binding bytes are equal only for equal contexts,
    writers and readers use the bytes of their context, and so nothing that was sealed in one
    context opens in another. -/
theorem contexts_separate :
    (∀ body body' kid kid',
        buildKeyPossessionMacMessage body kid = buildKeyPossessionMacMessage body' kid' →
        body = body' ∧ kid = kid')
    ∧ (∀ alg alg' kid kid' body body' mac mac',
        buildArtifactSignatureInput alg kid body mac
          = buildArtifactSignatureInput alg' kid' body' mac' →
        alg = alg' ∧ kid = kid' ∧ body = body' ∧ mac = mac')
    ∧ (∀ body kid alg kid' body' mac,
        buildKeyPossessionMacMessage body kid ≠ buildArtifactSignatureInput alg kid' body' mac)
    ∧ (∀ b b' : ContextBinding, b.bytes = b'.bytes → b = b')
    ∧ (∀ C recorded b nonce ct, SealedText C recorded b nonce ct →
        ∃ s, recorded s ∧ s.Made C ∧ s.aad = b.bytes ∧ nonce = encodeBase64urlNopad s.nonce
          ∧ ct = encodeBase64urlNopad s.ct)
    ∧ (∀ C b nonce ct, OpenedText C b nonce ct →
        ∃ s : AeadSeal, s.Opens C ∧ s.aad = b.bytes
          ∧ decodeBase64urlNopadArray 24 nonce "nonce" = .ok s.nonce
          ∧ decodeBase64urlNopad ct "ct" = .ok s.ct)
    ∧ (∀ C recorded b enc ct, SealedWrap C recorded b enc ct →
        ∃ s, recorded s ∧ s.Made C ∧ s.info = b.bytes ∧ s.aad = b.bytes
          ∧ enc = encodeBase64urlNopad s.enc ∧ ct = encodeBase64urlNopad s.ct)
    ∧ (∀ C b enc ct, OpenedWrap C b enc ct →
        ∃ s : HpkeSeal, s.Opens C ∧ s.info = b.bytes ∧ s.aad = b.bytes
          ∧ decodeBase64urlNopadArray 32 enc "enc" = .ok s.enc
          ∧ decodeBase64urlNopadArray 48 ct "ct" = .ok s.ct)
    ∧ (∀ C recorded, IdealAead C recorded → ∀ b b' nonce ct,
        SealedText C recorded b nonce ct → OpenedText C b' nonce ct → b' = b)
    ∧ ∀ C recorded, IdealHpke C recorded → ∀ b b' enc ct,
        SealedWrap C recorded b enc ct → OpenedWrap C b' enc ct → b' = b := by
  refine ⟨?_, ?_, ?_, ?_, ?_, ?_, ?_, ?_, ?_, ?_⟩
  · intro body body' kid kid' h
    exact macMessage_injective h
  · intro alg alg' kid kid' body body' mac mac' h
    exact signatureInput_fields h
  · exact macMessage_ne_signatureInput
  · intro b b' h
    exact ContextBinding.bytes_injective h
  · intro C recorded b nonce ct h
    exact h.call
  · intro C b nonce ct h
    exact h.call
  · intro C recorded b enc ct h
    exact h.call
  · intro C b enc ct h
    exact h.call
  · intro C recorded hC b b' nonce ct hsealed hopened
    exact hopened.context_eq hC hsealed
  · intro C recorded hC b b' enc ct hsealed hopened
    exact hopened.context_eq hC hsealed

/-- Primitives that make and open one ciphertext and one wrap, and fail on everything else. -/
def tableCrypto (text : AeadSeal) (wrap : HpkeSeal) : Crypto :=
  { toyCrypto with
    sealBase := fun pk info aad plaintext _ =>
      if pk = wrap.publicKey ∧ info = wrap.info ∧ aad = wrap.aad ∧ plaintext = wrap.plaintext
      then .ok (wrap.enc, wrap.ct)
      else .error (buildCryptoOperationError "HPKE seal failed")
    openBase := fun sk enc info aad ct =>
      if toyCrypto.kemPublic sk = wrap.publicKey ∧ enc = wrap.enc ∧ info = wrap.info
        ∧ aad = wrap.aad ∧ ct = wrap.ct
      then .ok wrap.plaintext
      else .error (buildCryptoOperationError "HPKE open failed")
    xchachaEncrypt := fun key nonce aad plaintext =>
      if key = text.key ∧ nonce = text.nonce ∧ aad = text.aad ∧ plaintext = text.plaintext
      then .ok text.ct
      else .error (buildCryptoOperationError "encryption failed")
    xchachaDecrypt := fun key nonce aad ct =>
      if key = text.key ∧ nonce = text.nonce ∧ aad = text.aad ∧ ct = text.ct
      then .ok text.plaintext
      else .error (buildCryptoOperationError "decryption failed") }

theorem made_tableCrypto (text : AeadSeal) (wrap : HpkeSeal) :
    text.Made (tableCrypto text wrap) :=
  if_pos ⟨rfl, rfl, rfl, rfl⟩

theorem sealBase_tableCrypto (text : AeadSeal) (wrap : HpkeSeal) (seed : Bytes) :
    (tableCrypto text wrap).sealBase wrap.publicKey wrap.info wrap.aad wrap.plaintext seed
      = .ok (wrap.enc, wrap.ct) :=
  if_pos ⟨rfl, rfl, rfl, rfl⟩

/-- The one wrap of the table is built where its call is made. -/
theorem buildWrapItem_tableCrypto {text : AeadSeal} {wrap : HpkeSeal} {format : WrapFormat}
    {member : VerifiedRecipientKey} {sid : Uuid} {masterKey : MasterKey} {seed : Bytes}
    (hpublic : decodeBase64urlNopadArray 32 member.document.protect.keys.kem.x "KEM public key"
      = .ok wrap.publicKey)
    (hinfo : wrap.info = buildWrapInfo format sid member.kid)
    (haad : wrap.aad = buildWrapInfo format sid member.kid)
    (hplaintext : wrap.plaintext = masterKey.bytes) :
    buildWrapItem (tableCrypto text wrap) format member sid masterKey seed = .ok {
      recipientHandle := member.subjectHandle
      kid := member.kid
      alg := hpkeAlgorithm
      enc := encodeBase64urlNopad wrap.enc
      ct := encodeBase64urlNopad wrap.ct } := by
  have hseal := sealBase_tableCrypto text wrap seed
  rw [haad, hinfo, hplaintext] at hseal
  exact bind_eq_ok.mpr ⟨wrap.publicKey, hpublic, bind_eq_ok.mpr ⟨_, hseal, rfl⟩⟩

theorem idealAead_tableCrypto (text : AeadSeal) (wrap : HpkeSeal) :
    IdealAead (tableCrypto text wrap) (· = text) where
  recorded_of_opens := by
    rintro ⟨key, nonce, aad, plaintext, ct⟩ hopens
    have h : (if key = text.key ∧ nonce = text.nonce ∧ aad = text.aad ∧ ct = text.ct
        then .ok text.plaintext else .error (buildCryptoOperationError "decryption failed") :
        Except Error Bytes) = .ok plaintext := hopens
    clear hopens
    split at h
    · rename_i heq
      obtain ⟨rfl, rfl, rfl, rfl⟩ := heq
      obtain rfl := Except.ok.inj h
      rfl
    · cases h
  fresh := by
    rintro s t rfl rfl _ _
    rfl

theorem idealHpke_tableCrypto (text : AeadSeal) (wrap : HpkeSeal) :
    IdealHpke (tableCrypto text wrap) (· = wrap) where
  recorded_of_opens := by
    rintro ⟨publicKey, info, aad, plaintext, enc, ct⟩ ⟨sk, hsecret, hopens⟩
    have hpublic : publicKey = toyCrypto.kemPublic sk := hsecret
    have h : (if toyCrypto.kemPublic sk = wrap.publicKey ∧ enc = wrap.enc ∧ info = wrap.info
        ∧ aad = wrap.aad ∧ ct = wrap.ct
        then .ok wrap.plaintext else .error (buildCryptoOperationError "HPKE open failed") :
        Except Error Bytes) = .ok plaintext := hopens
    clear hopens
    split at h
    · rename_i heq
      obtain ⟨hkey, rfl, rfl, rfl, rfl⟩ := heq
      obtain rfl := Except.ok.inj h
      rw [hpublic, hkey]
    · cases h
  fresh := by
    rintro s t rfl rfl _ _
    rfl

/-- The value of one entry of a toy document, encrypted. -/
def toyText : AeadSeal where
  key := (deriveCek toyCrypto (kvKeySchedule toyCrypto (pad 32 [1]) toySid) "KEY"
    (encodeBase64urlNopad (pad 24 []).bytes)).bytes
  nonce := (pad 24 []).bytes
  aad := buildKvEntryAad toySid "KEY"
  plaintext := utf8 "value"
  ct := tagged (utf8 "value") (pad 16 []).bytes

/-- The master key of a toy document, sealed to its one member. -/
def toyHpke : HpkeSeal where
  publicKey := (pad 32 []).bytes
  info := buildWrapInfo .kv toySid toyKid.text
  aad := buildWrapInfo .kv toySid toyKid.text
  plaintext := (pad 32 [1]).bytes
  enc := (pad 32 []).bytes
  ct := tagged (pad 32 [1]).bytes (pad 16 []).bytes

theorem toyHpke_context :
    toyHpke.info = buildWrapInfo .kv toySid (toyMember alice toyKid []).kid
      ∧ toyHpke.aad = buildWrapInfo .kv toySid (toyMember alice toyKid []).kid := by
  have hkid : (toyMember alice toyKid []).kid = toyKid.text := rfl
  simp only [hkid, toyHpke, and_self]

/-- The entry of one key does not open as that of another, a kv wrap not as a file wrap. -/
theorem contexts_separate_toy :
    ¬ OpenedText (tableCrypto toyText toyHpke) (.kvEntry toySid "OTHER")
        (encodeBase64urlNopad toyText.nonce) (encodeBase64urlNopad toyText.ct)
    ∧ ¬ OpenedWrap (tableCrypto toyText toyHpke) (.wrap .file toySid toyKid.text)
        (encodeBase64urlNopad toyHpke.enc) (encodeBase64urlNopad toyHpke.ct) := by
  constructor
  · intro hopened
    have hencrypt : encryptEntry (tableCrypto toyText toyHpke) "KEY" "value"
        (kvKeySchedule toyCrypto (pad 32 [1]) toySid) toySid (pad 24 []) false
        = .ok ⟨encodeBase64urlNopad (pad 24 []).bytes, encodeBase64urlNopad toyText.ct, false⟩ :=
      bind_eq_ok.mpr ⟨toyText.ct, made_tableCrypto toyText toyHpke, rfl⟩
    have hsealed := @SealedText.entry _ (· = toyText) _ _ _ _ _ _ _ hencrypt rfl
    obtain ⟨_, _, _, _, _, _, _, _, htext, _⟩ := contexts_separate
    have heq := htext _ _ (idealAead_tableCrypto toyText toyHpke) _ _ _ _ hsealed hopened
    obtain ⟨_, hkey⟩ := ContextBinding.kvEntry.inj heq
    exact absurd hkey (by decide)
  · intro hopened
    have hbuild := @buildWrapItem_tableCrypto toyText toyHpke .kv (toyMember alice toyKid []) toySid
      (pad 32 [1]) [] ((pad 32 []).decode_encode _) toyHpke_context.1 toyHpke_context.2
      rfl
    have hsealed := @SealedWrap.wrap _ (· = toyHpke) _ _ _ _ _ _ _ _ _ hbuild
      ((pad 32 []).decode_encode _) rfl rfl rfl
    obtain ⟨_, _, _, _, _, _, _, _, _, hwrap⟩ := contexts_separate
    have heq := hwrap _ _ (idealHpke_tableCrypto toyText toyHpke) _ _ _ _ hsealed hopened
    obtain ⟨hformat, _⟩ := ContextBinding.wrap.inj heq
    cases hformat

end ContextBindings
