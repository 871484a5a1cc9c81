import Kapsaro.KvSession

/-!
# Toy primitives — an instance of the primitives, with members that use it

The results of this development hold for all primitives that keep their promises.  Here is one
instance: nothing in it is secret, but every promise is kept, and every step can be computed.

* **`toyCrypto`**, **`ideal_toyCrypto`** — sealing and encryption append a tag, and check it.
* **`toyMember`**, **`toyContext`** — a member with a secret key, as others see it and as it sees
  itself; **`buildSigningContext_toy`** — it can sign.
* **`buildWrapItem_toy`**, **`opensTo_toyWrap`** — its wrap is built, and opens.
-/

namespace ToyCrypto

open JsonText JsonMembers JsonLimits Limits TextLines Base64Codec WireTexts WireModel
open DocumentTokens KvLines TokenRecords Envelope KvDocument SignedArtifacts KeyedList KvDraft
open Recipients JsonSize KvSession

/-! ## The primitives -/

/-- Bytes cut, or filled up with zeros, to a fixed length. -/
def pad (n : Nat) (bytes : Bytes) : FixedBytes n where
  bytes := (bytes ++ List.replicate n 0).take n
  size := by
    rw [List.length_take, List.length_append, List.length_replicate]
    omega

theorem pad_of_length {n : Nat} {bytes : Bytes} (h : bytes.length = n) :
    (pad n bytes).bytes = bytes :=
  List.take_left' h

/-- The tag at the end of a sealed or encrypted text. -/
def tagged (content tag : Bytes) : Bytes := content ++ tag

/-- The content in front of a tag of 16 bytes. -/
def untagged (text : Bytes) : Bytes := text.take (text.length - 16)

theorem untagged_tagged {content tag : Bytes} (h : tag.length = 16) :
    untagged (tagged content tag) = content := by
  rw [untagged, tagged, List.length_append, h, Nat.add_sub_cancel]
  exact List.take_left' rfl

theorem drop_tagged {content tag : Bytes} (h : tag.length = 16) :
    (tagged content tag).drop ((tagged content tag).length - 16) = tag := by
  rw [tagged, List.length_append, h, Nat.add_sub_cancel]
  exact List.drop_left' rfl

/-- Sealing names the recipient's key in the encapsulated key, encryption the key in the tag. -/
def toyCrypto : Crypto where
  sha256 := fun _ => pad 32 []
  hmacSha256 := fun key _ => pad 32 key
  hkdfExtract := fun _ inputKey => pad 32 inputKey
  hkdfExpand := fun prk _ => pad 32 prk
  kemPublic := fun sk => (pad 32 sk).bytes
  sealBase := fun pk _ _ plaintext _ => .ok ((pad 32 pk).bytes, tagged plaintext (pad 16 []).bytes)
  openBase := fun sk enc _ _ ct =>
    if enc = (pad 32 sk).bytes then .ok (untagged ct)
    else .error (buildCryptoOperationError "HPKE open failed")
  xchachaEncrypt := fun key _ _ plaintext => .ok (tagged plaintext (pad 16 key).bytes)
  xchachaDecrypt := fun key _ _ ct =>
    if ct.drop (ct.length - 16) = (pad 16 key).bytes then .ok (untagged ct)
    else .error (buildCryptoOperationError "decryption failed")
  verifyingKey := fun sk => (pad 32 sk).bytes
  isVerifyingKey := fun _ => true
  sign := fun sk _ => pad 64 (pad 32 sk).bytes
  verifyStrict := fun pk _ signature => signature.take 32 == pk
  verifyAttestation := fun _ => .ok ()
  checkKeyExpiry := fun _ => .ok ()

theorem take_sign (sk : Bytes) : (pad 64 (pad 32 sk).bytes).bytes.take 32 = (pad 32 sk).bytes := by
  have htake : (pad 64 (pad 32 sk).bytes).bytes.take 32
      = ((pad 32 sk).bytes ++ List.replicate 64 0).take 32 := by
    show (List.take 64 _).take 32 = _
    rw [List.take_take]
    rfl
  rw [htake]
  exact List.take_left' (pad 32 sk).size

/-- **THE TOY PRIMITIVES KEEP EVERY PROMISE**, ideal sealing included. -/
theorem ideal_toyCrypto : Ideal toyCrypto where
  open_seal := by
    intro sk info aad plaintext seed enc ct h
    obtain ⟨rfl, rfl⟩ := Prod.mk.inj (Except.ok.inj h)
    have henc : (pad 32 (pad 32 sk).bytes).bytes = (pad 32 sk).bytes :=
      pad_of_length (pad 32 sk).size
    refine (if_pos henc).trans ?_
    rw [untagged_tagged (pad 16 []).size]
  seal_size := by
    intro pk info aad plaintext seed enc ct h
    obtain ⟨rfl, rfl⟩ := Prod.mk.inj (Except.ok.inj h)
    refine ⟨(pad 32 pk).size, ?_⟩
    rw [tagged, List.length_append, (pad 16 []).size]
  decrypt_encrypt := by
    intro key nonce aad plaintext ct h
    obtain rfl := Except.ok.inj h
    refine (if_pos (drop_tagged (pad 16 key).size)).trans ?_
    rw [untagged_tagged (pad 16 key).size]
  encrypt_size := by
    intro key nonce aad plaintext ct h
    obtain rfl := Except.ok.inj h
    rw [tagged, List.length_append, (pad 16 key).size]
  verify_sign := fun sk _ => beq_iff_eq.mpr (take_sign sk)
  open_only := by
    intro pk info aad plaintext seed enc ct sk info' aad' opened hseal hopen
    obtain ⟨rfl, rfl⟩ := Prod.mk.inj (Except.ok.inj hseal)
    have hopened : (if (pad 32 pk).bytes = (pad 32 sk).bytes
        then .ok (untagged (tagged plaintext (pad 16 []).bytes))
        else .error (buildCryptoOperationError "HPKE open failed") : Except Error Bytes)
        = .ok opened := hopen
    split at hopened
    · obtain rfl := Except.ok.inj hopened
      exact untagged_tagged (pad 16 []).size
    · cases hopened

theorem lawful_toyCrypto : Lawful toyCrypto := ideal_toyCrypto.toLawful

/-! ## Members -/

/-- The kid every key statement has under the toy hash. -/
def toyKid : Kid where
  text := "00000000000000000000000000000000"
  valid := by decide

/-- A key statement for a secret key; the two keys of the member are the same. -/
def toyStatement (handle : MemberHandle) (kid : Kid) (secret : Bytes) : PublicKey where
  protect := {
    format := publicKeyV1
    subjectHandle := handle.text
    kid := kid.text
    keys := {
      kem := { kty := "OKP", crv := "X25519", x := encodeBase64urlNopad (pad 32 secret).bytes }
      sig := { kty := "OKP", crv := "Ed25519", x := encodeBase64urlNopad (pad 32 secret).bytes } }
    bindingClaims := none
    attestation := {
      method := "ssh-sign"
      pub := "ssh-ed25519 AAAA"
      sig := encodeBase64urlNopad (pad 64 []).bytes }
    expiresAt := "2030-01-01T00:00:00Z"
    createdAt := none }
  signature := encodeBase64urlNopad (pad 64 (pad 32 secret).bytes).bytes

theorem wellFormed_toyStatement (handle : MemberHandle) (kid : Kid) (secret : Bytes) :
    (toyStatement handle kid secret).wellFormed = true := by
  have h43 : isB64urlSized 43 (encodeBase64urlNopad (pad 32 secret).bytes) = true :=
    isB64urlSized_encode (n := 32) _ (FixedBytes.size _) (by decide)
  have h86 : ∀ b : FixedBytes 64, isB64urlSized 86 (encodeBase64urlNopad b.bytes) = true :=
    fun b => isB64urlSized_encode (n := 64) _ b.size (by decide)
  have hpub : isSingleLine 4096 "ssh-ed25519 AAAA" = true := by decide
  have htime : isIso8601Text "2030-01-01T00:00:00Z" = true := by decide
  simp only [PublicKey.wellFormed, PublicKeyProtected.wellFormed, toyStatement,
    IdentityKeys.wellFormed, JwkOkpPublicKey.wellFormed, Attestation.wellFormed, handle.valid,
    kid.valid, h43, h86, hpub, htime, beq_self_eq_true, Option.all_none, Bool.and_self]

/-- A member as others see it. -/
def toyMember (handle : MemberHandle) (kid : Kid) (secret : Bytes) : VerifiedRecipientKey where
  document := toyStatement handle kid secret
  wellFormed := wellFormed_toyStatement handle kid secret

/-- A member as it sees itself, with one key and no other in its keystore. -/
def toyContext (handle : MemberHandle) (kid : Kid) (secret : Bytes) : CryptoContext where
  memberHandle := handle
  kid := kid
  privateKey := ⟨secret⟩
  signingKey := secret
  selectedKidOverride := none
  loadFallbackKey := fun _ _ => .ok none
  enforceSigningKeyNotExpired := .ok ()
  loadSignerPublicKey :=
    .ok ⟨toyStatement handle kid secret, wellFormed_toyStatement handle kid secret⟩

theorem holdsKey_toy (handle : MemberHandle) (kid : Kid) (secret : Bytes) :
    HoldsKey toyCrypto (toyMember handle kid secret) secret :=
  (pad 32 secret).decode_encode _

theorem opensOwn_toy (handle : MemberHandle) (kid : Kid) (secret : Bytes) :
    OpensOwn (toyContext handle kid secret) handle.text kid.text secret :=
  ⟨handle.valid, rfl, rfl, Or.inl rfl⟩

/-- The signing context of a member. -/
def toySigning (handle : MemberHandle) (secret : Bytes) : SigningContext where
  signingKey := secret
  signerKid := toyKid
  signerPub := ⟨toyStatement handle toyKid secret, wellFormed_toyStatement handle toyKid secret⟩

/-- Every kid that is derived under the toy hash is the same. -/
theorem verifyDerivedKid_toy (handle : MemberHandle) (secret : Bytes) :
    verifyDerivedKid toyCrypto (toyStatement handle toyKid secret) = .ok () := by
  have hderive : derivePublicKeyKid toyCrypto
      (removeMember "kid" (toyStatement handle toyKid secret).protect.toJson)
        = .ok toyKid.text := by
    refine bind_eq_ok.mpr ⟨_, if_pos rfl, ?_⟩
    have hkid : encodeCrockfordBase32 ((pad 32 []).bytes.take 20) = toyKid.text := by decide
    exact congrArg Except.ok hkid
  exact bind_eq_ok.mpr ⟨_, hderive, if_neg (not_not_intro rfl)⟩

/-- The statement of a member under the toy kid is verified. -/
theorem verifyPublicKeyWithAttestation_toy (handle : MemberHandle) (secret : Bytes) :
    verifyPublicKeyWithAttestation toyCrypto (toyStatement handle toyKid secret)
      = .ok (pad 32 secret).bytes := by
  have hbounded := bounded_publicKeyProtected (p := (toyStatement handle toyKid secret).protect)
    (by
      have h := wellFormed_toyStatement handle toyKid secret
      simp only [PublicKey.wellFormed, Bool.and_eq_true] at h
      exact h.1)
  have hself : verifyPublicKeySelfSignature toyCrypto (toyStatement handle toyKid secret)
      = .ok (pad 32 secret).bytes := by
    have hmessage : jcsNormalize (toyStatement handle toyKid secret).protect.toJson
        = .ok (utf8 (jcsText (toyStatement handle toyKid secret).protect.toJson)) :=
      if_pos hbounded.numbers
    have hraw : decodeBase64urlNopad (toyStatement handle toyKid secret).signature "signature"
        = .ok (pad 64 (pad 32 secret).bytes).bytes :=
      decodeBase64url_encode _ "signature" _ (by rw [FixedBytes.size]; decide)
    refine bind_eq_ok.mpr ⟨(), verifyDerivedKid_toy handle secret, ?_⟩
    rw [hmessage]
    refine bind_eq_ok.mpr ⟨_, rfl, bind_eq_ok.mpr ⟨_, (pad 32 secret).decode_encode _, ?_⟩⟩
    rw [hraw]
    refine throwIf_ok.mpr ⟨Bool.false_ne_true, bind_eq_ok.mpr ⟨_, rfl, throwIf_ok.mpr
      ⟨not_not_intro (FixedBytes.size _), throwIf_ok.mpr ⟨?_, rfl⟩⟩⟩⟩
    have hverify := lawful_toyCrypto.verify_sign secret
      (utf8 (jcsText (toyStatement handle toyKid secret).protect.toJson))
    intro hfailed
    have hverify' : toyCrypto.verifyStrict (pad 32 secret).bytes
        (utf8 (jcsText (toyStatement handle toyKid secret).protect.toJson))
        (pad 64 (pad 32 secret).bytes).bytes = true := hverify
    rw [hverify'] at hfailed
    cases hfailed
  exact bind_eq_ok.mpr ⟨_, hself, bind_eq_ok.mpr ⟨(), rfl, rfl⟩⟩

/-- **A MEMBER UNDER THE TOY KID CAN SIGN.** -/
theorem buildSigningContext_toy (handle : MemberHandle) (secret : Bytes) :
    buildSigningContext toyCrypto (toyContext handle toyKid secret)
      = .ok (toySigning handle secret) := by
  have hmatch : matchesPublicKey toyCrypto (toyContext handle toyKid secret)
      (toyStatement handle toyKid secret) = .ok true := by
    refine (if_neg fun hne => hne rfl).trans ((if_neg fun hne => hne rfl).trans ?_)
    exact bind_eq_ok.mpr ⟨_, (pad 32 secret).decode_encode _,
      congrArg Except.ok (decide_eq_true rfl)⟩
  exact bind_eq_ok.mpr ⟨(), rfl, bind_eq_ok.mpr ⟨_, rfl, bind_eq_ok.mpr
    ⟨_, verifyPublicKeyWithAttestation_toy handle secret, bind_eq_ok.mpr ⟨true, hmatch, rfl⟩⟩⟩⟩

/-! ## Its wraps -/

/-- The wrap a toy member gets. -/
def toyWrap (handle : MemberHandle) (kid : Kid) (secret : Bytes) (masterKey : MasterKey) :
    WrapItem where
  recipientHandle := handle.text
  kid := kid.text
  alg := hpkeAlgorithm
  enc := encodeBase64urlNopad (pad 32 (pad 32 secret).bytes).bytes
  ct := encodeBase64urlNopad (tagged masterKey.bytes (pad 16 []).bytes)

theorem buildWrapItem_toy (format : WrapFormat) (handle : MemberHandle) (kid : Kid)
    (secret : Bytes) (sid : Uuid) (masterKey : MasterKey) (seed : Bytes) :
    buildWrapItem toyCrypto format (toyMember handle kid secret) sid masterKey seed
      = .ok (toyWrap handle kid secret masterKey) :=
  bind_eq_ok.mpr ⟨_, (pad 32 secret).decode_encode _, bind_eq_ok.mpr ⟨_, rfl, rfl⟩⟩

/-- **A TOY WRAP OPENS** to what it seals, for its member. -/
theorem opensTo_toyWrap (format : WrapFormat) (handle : MemberHandle) (kid : Kid)
    (secret : Bytes) (sid : Uuid) (masterKey : MasterKey) :
    OpensTo toyCrypto format sid (toyWrap handle kid secret masterKey) secret masterKey :=
  unwrap_buildWrapItem lawful_toyCrypto (holdsKey_toy handle kid secret)
    (buildWrapItem_toy format handle kid secret sid masterKey [])

theorem wellFormed_toyWrap (handle : MemberHandle) (kid : Kid) (secret : Bytes)
    (masterKey : MasterKey) : (toyWrap handle kid secret masterKey).wellFormed = true :=
  wellFormed_buildWrapItem lawful_toyCrypto
    (buildWrapItem_toy .kv handle kid secret ⟨"00000000-0000-0000-0000-000000000000", by decide⟩
      masterKey [])

end ToyCrypto
