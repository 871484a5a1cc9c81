import Kapsaro.KeyGeneration

/-!
# Key sizes — a generated pair fits its files

The program writes the documents of a key with indentation, and reads no document past a limit.  The
texts of the options are all that can make a document long.

* **`charsSize_indented`** — the indented text of a value against its compact size.
* **`readable_generated`** — both documents of a generated pair stay below the limit when the texts
  of the options are no longer than a million bytes together.
-/

namespace KeySizes

open Limits TextLines JsonText JsonMembers JsonSize WireTexts WireModel DocumentTokens Base64Codec
open KeyProtection KidTexts SignedArtifacts KeyAttestation KeyUnlock KeyGeneration KeystoreChanges
open Envelope hiding PrivateKey

/-! ## Indented texts -/

mutual
/-- How deep objects and arrays stand in each other. -/
def nesting : Json → Nat
  | .arr items => 1 + itemsNesting items
  | .obj members => 1 + membersNesting members
  | _ => 0

def itemsNesting : List Json → Nat
  | [] => 0
  | v :: items => max (nesting v) (itemsNesting items)

def membersNesting : List (String × Json) → Nat
  | [] => 0
  | (_, v) :: members => max (nesting v) (membersNesting members)
end

theorem charsSize_gap (level : Nat) : charsSize (gapText true level) = 1 + 2 * level := by
  have hblanks : ∀ n, charsSize (List.replicate n ' ') = n := by
    intro n
    induction n with
    | zero => rfl
    | succ n ih =>
      rw [List.replicate_succ, charsSize_cons, ih]
      show 1 + n = n + 1
      omega
  rw [gapText, if_pos rfl, charsSize_cons, hblanks]
  rfl

mutual
/-- **AN INDENTED TEXT IS NOT MUCH LONGER**: each byte of the compact one stands for a line break
    and an indentation at most. -/
theorem charsSize_indented (width level : Nat) : ∀ v : Json, level + nesting v ≤ width →
    charsSize (textAt true level v) ≤ jsonSize v * (2 * width + 3)
  | .null, _ => by
    show 4 ≤ 4 * _
    omega
  | .bool true, _ => by
    show 4 ≤ 4 * _
    omega
  | .bool false, _ => by
    show 5 ≤ 5 * _
    omega
  | .num n, _ => by
    rw [textAt, jsonSize]
    exact Nat.le_mul_of_pos_right _ (by omega)
  | .str s, _ => by
    rw [textAt, jsonSize, charsSize_stringText]
    exact Nat.le_mul_of_pos_right _ (by omega)
  | .arr [], _ => by
    show 2 ≤ 2 * _
    omega
  | .arr (v :: items), h => by
    rw [nesting, itemsNesting] at h
    have hv := charsSize_indented width (level + 1) v (by omega)
    have hitems := charsSize_itemsIndented width (level + 1) items (by omega)
    rw [textAt, charsSize_cons, charsSize_append, charsSize_append, charsSize_append,
      charsSize_append, charsSize_gap, charsSize_gap,
      jsonSize_arr (List.cons_ne_nil _ _), itemsSize]
    have hclose : charsSize [']'] = 1 := rfl
    have hopen : ('[' : Char).utf8Size = 1 := rfl
    rw [hclose, hopen]
    simp only [Nat.add_mul, Nat.one_mul]
    omega
  | .obj [], _ => by
    show 2 ≤ 2 * _
    omega
  | .obj ((name, v) :: members), h => by
    rw [nesting, membersNesting] at h
    have hv := charsSize_indented width (level + 1) v (by omega)
    have hmembers := charsSize_membersIndented width (level + 1) members (by omega)
    have hname := Nat.le_mul_of_pos_right (stringSize name) (show 0 < 2 * width + 3 by omega)
    rw [textAt, charsSize_cons, charsSize_append, charsSize_append, charsSize_append,
      charsSize_append, charsSize_append, charsSize_append, charsSize_gap, charsSize_gap,
      charsSize_stringText, jsonSize_obj (List.cons_ne_nil _ _), membersSize]
    have hclose : charsSize ['}'] = 1 := rfl
    have hopen : ('{' : Char).utf8Size = 1 := rfl
    have hcolon : charsSize (colonText true) = 2 := rfl
    rw [hclose, hopen, hcolon]
    simp only [Nat.add_mul, Nat.one_mul]
    omega

theorem charsSize_itemsIndented (width level : Nat) : ∀ items : List Json,
    level + itemsNesting items ≤ width →
    charsSize (itemsText true level items) ≤ itemsSize items * (2 * width + 3)
  | [], _ => Nat.zero_le _
  | v :: items, h => by
    rw [itemsNesting] at h
    have hv := charsSize_indented width level v (by omega)
    have hitems := charsSize_itemsIndented width level items (by omega)
    rw [itemsText, charsSize_cons, charsSize_append, charsSize_append, charsSize_gap, itemsSize]
    have hcomma : (',' : Char).utf8Size = 1 := rfl
    rw [hcomma]
    simp only [Nat.add_mul, Nat.one_mul]
    omega

theorem charsSize_membersIndented (width level : Nat) : ∀ members : List (String × Json),
    level + membersNesting members ≤ width →
    charsSize (membersText true level members) ≤ membersSize members * (2 * width + 3)
  | [], _ => Nat.zero_le _
  | (name, v) :: members, h => by
    rw [membersNesting] at h
    have hv := charsSize_indented width level v (by omega)
    have hmembers := charsSize_membersIndented width level members (by omega)
    have hname := Nat.le_mul_of_pos_right (stringSize name) (show 0 < 2 * width + 3 by omega)
    rw [membersText, charsSize_cons, charsSize_append, charsSize_append, charsSize_append,
      charsSize_append, charsSize_gap, charsSize_stringText, membersSize]
    have hcomma : (',' : Char).utf8Size = 1 := rfl
    have hcolon : charsSize (colonText true) = 2 := rfl
    rw [hcomma, hcolon]
    simp only [Nat.add_mul, Nat.one_mul]
    omega
end

theorem length_renderDocument {width : Nat} {document : Json} (h : nesting document ≤ width) :
    (renderDocument document).length ≤ jsonSize document * (2 * width + 3) := by
  rw [renderDocument, utf8_length, utf8ByteSize_ofList]
  exact charsSize_indented width 0 document (by omega)

/-! ## The documents of a pair -/

theorem escapeChar_crockford {c : Char} (h : isCrockfordChar c = true) : escapeChar c = [c] := by
  have hrange := toNat_of_crockford h
  have hne : ∀ d : Char, d.toNat < 48 ∨ 90 < d.toNat → c ≠ d := by
    rintro d hd rfl
    omega
  have hlow : ¬ c.toNat < 0x20 := by omega
  rw [escapeChar, if_neg (hne '"' (by decide)), if_neg (hne '\\' (by decide)),
    if_neg (hne (Char.ofNat 8) (by decide)), if_neg (hne (Char.ofNat 12) (by decide)),
    if_neg (hne '\n' (by decide)), if_neg (hne '\r' (by decide)), if_neg (hne '\t' (by decide)),
    if_neg hlow]

theorem stringSize_kid {kid : String} (h : isKidText kid = true) : stringSize kid = 34 := by
  obtain ⟨hlength, hchars⟩ := isKidText_iff.mp h
  rw [stringSize_plain fun c hc => escapeChar_crockford (hchars c hc)]
  conv_lhs => rw [← String.ofList_toList (s := kid)]
  rw [utf8ByteSize_ofList, charsSize_crockford hchars, hlength]

/-- The bytes of the texts an operator gives. -/
def optionsSize (options : KeyGenerationOptions) : Nat :=
  stringSize options.memberHandle + stringSize options.createdAt + stringSize options.expiresAt
    + stringSize options.sshBinding.publicKey + stringSize options.sshBinding.fingerprint
    + ((buildBindingClaims options.githubAccount).map fun claims => jsonSize claims.toJson).getD 0

section Documents

variable {C : Crypto} {options : KeyGenerationOptions} {material : KeypairMaterial}
variable {fresh : FreshPrivateKeyProtectionMaterial} {result : KeyGenerationResult}

theorem stringSize_32 {data : Bytes} (h : data.length = 32) :
    stringSize (encodeBase64urlNopad data) = 45 := by
  rw [stringSize_encode, h]
  rfl

theorem stringSize_64 {data : Bytes} (h : data.length = 64) :
    stringSize (encodeBase64urlNopad data) = 88 := by
  rw [stringSize_encode, h]
  rfl

/-- The private half against the options. -/
theorem size_privateKey (hC : Lawful C) (hkeys : KeyHalves C)
    (h : generateKey C options material fresh = .ok result) :
    jsonSize result.privateKey.toJson ≤ 1500 + optionsSize options := by
  obtain ⟨_, _, _, hencrypted⟩ := generateKey_ok h
  obtain ⟨_, _, hprotect, hencrypted⟩ := encryptPrivateKey_ok hencrypted
  obtain ⟨ct, hct, hnonce, hctText⟩ := encryptPrivateKeyPlaintext_ok hencrypted
  have hctSize : stringSize result.privateKey.encrypted.ct ≤ 600 := by
    have hlength := hC.encrypt_size hct
    have hplain := size_buildPrivateKeyPlaintext hkeys.toKeySizes material.kemSk material.sigSk
    rw [hctText, stringSize_encode, computeEncodedLen_eq, hlength]
    show 2 + (4 * ((buildPrivateKeyPlaintext C material.kemSk material.sigSk).toBytes.length + 16)
      + 2) / 3 ≤ 600
    omega
  have hnonceSize : stringSize result.privateKey.encrypted.nonce = 34 := by
    rw [hnonce, stringSize_encode, fresh.nonce.size]
    rfl
  have hkid := stringSize_kid (isKidText_generated h)
  have hlits : stringSize "protected" = 11 ∧ stringSize "encrypted" = 11 ∧ stringSize "nonce" = 7
      ∧ stringSize "ct" = 4 ∧ stringSize "format" = 8 ∧ stringSize "subject_handle" = 16
      ∧ stringSize "kid" = 5 ∧ stringSize "alg" = 5 ∧ stringSize "created_at" = 12
      ∧ stringSize "expires_at" = 12 ∧ stringSize "kdf" = 5 ∧ stringSize "fpr" = 5
      ∧ stringSize "ikm_salt" = 10 ∧ stringSize "hkdf_salt" = 11
        ∧ stringSize "aead" = 6 := by decide
  have htexts : stringSize privateKeyV1 = 30 ∧ stringSize protectionKdfSshSig ≤ 100
      ∧ stringSize aeadXChaCha20Poly1305 ≤ 100 := by decide
  obtain ⟨l1, l2, l3, l4, l5, l6, l7, l8, l9, l10, l11, l12, l13, l14, l15⟩ := hlits
  obtain ⟨t1, t2, t3⟩ := htexts
  have hikm := stringSize_32 fresh.ikmSalt.size
  have hhkdf := stringSize_32 fresh.hkdfSalt.size
  have halg : jsonSize result.privateKey.protect.alg.toJson
      ≤ 400 + stringSize options.sshBinding.fingerprint := by
    rw [hprotect]
    simp only [buildPrivateKeyProtected, buildSshsigAlgorithm, encryptionParams,
      PrivateKeyAlgorithm.toJson, FreshPrivateKeyProtectionMaterial.ikmSaltB64,
      FreshPrivateKeyProtectionMaterial.hkdfSaltB64]
    rw [jsonSize_obj (List.cons_ne_nil _ _)]
    simp only [membersSize, jsonSize_str, hikm, hhkdf, l11, l12, l13, l14, l15]
    omega
  have hprotected : jsonSize result.privateKey.protect.toJson
      ≤ 700 + stringSize options.memberHandle + stringSize options.createdAt
        + stringSize options.expiresAt + stringSize options.sshBinding.fingerprint := by
    have hformat : result.privateKey.protect.format = privateKeyV1 := by rw [hprotect]; rfl
    have hsubject : result.privateKey.protect.subjectHandle = options.memberHandle := by
      rw [hprotect]
      rfl
    have hk : result.privateKey.protect.kid = result.kid := by rw [hprotect]; rfl
    have hcreated : result.privateKey.protect.createdAt = options.createdAt := by
      rw [hprotect]
      rfl
    have hexpires : result.privateKey.protect.expiresAt = options.expiresAt := by
      rw [hprotect]
      rfl
    rw [PrivateKeyProtected.toJson, jsonSize_obj (List.cons_ne_nil _ _)]
    simp only [membersSize, jsonSize_str, hformat, hsubject, hk, hcreated, hexpires, hkid, l5, l6,
      l7, l8, l9, l10, t1]
    omega
  have hdata : jsonSize result.privateKey.encrypted.toJson ≤ 700 := by
    rw [PrivateKeyEncData.toJson, jsonSize_obj (List.cons_ne_nil _ _)]
    simp only [membersSize, jsonSize_str, hnonceSize, l3, l4]
    omega
  rw [KeyProtection.PrivateKey.toJson, jsonSize_obj (List.cons_ne_nil _ _), optionsSize]
  simp only [membersSize, l1, l2]
  omega

/-- The public half against the options. -/
theorem size_publicKey (hkeys : KeyHalves C)
    (h : generateKey C options material fresh = .ok result) :
    jsonSize result.publicKey.toJson ≤ 1500 + optionsSize options := by
  obtain ⟨_, ⟨body, rawSig, hbuilt⟩, hresult, _⟩ := generateKey_ok h
  obtain ⟨message, _, hsignature⟩ := hbuilt.signed
  have hkid : stringSize result.publicKey.protect.kid = 34 :=
    stringSize_kid (isKidText_derived hbuilt.kid)
  have hlits : stringSize "kid" = 5 ∧ stringSize "sig" = 5 ∧ stringSize "protected" = 11
      ∧ stringSize "signature" = 11 ∧ stringSize "format" = 8 ∧ stringSize "subject_handle" = 16
      ∧ stringSize "keys" = 6 ∧ stringSize "attestation" = 13 ∧ stringSize "expires_at" = 12
      ∧ stringSize "kem" = 5 ∧ stringSize "kty" = 5 ∧ stringSize "crv" = 5 ∧ stringSize "x" = 3
      ∧ stringSize "method" = 8 ∧ stringSize "pub" = 5 ∧ stringSize "created_at" = 12
      ∧ stringSize "binding_claims" = 16 := by decide
  have htexts : stringSize publicKeyV1 = 29 ∧ stringSize "OKP" = 5 ∧ stringSize "X25519" = 8
      ∧ stringSize "Ed25519" = 9 ∧ stringSize attestationMethodSshSign = 10 := by decide
  obtain ⟨l1, l2, l3, l4, l5, l6, l7, l8, l9, l10, l11, l12, l13, l14, l15, l16, l17⟩ := hlits
  obtain ⟨t1, t2, t3, t4, t5⟩ := htexts
  have hkeysSize : jsonSize (buildIdentityKeys C material).toJson ≤ 250 := by
    simp only [buildIdentityKeys, IdentityKeys.toJson, JwkOkpPublicKey.toJson, jsonSize,
      membersSize, stringSize_32 (hkeys.kemPublic _), stringSize_32 (hkeys.verifyingKey _), l2, l10,
      l11, l12, l13, t2, t3, t4]
    omega
  have hattestation : jsonSize result.publicKey.protect.attestation.toJson
      ≤ 200 + stringSize options.sshBinding.publicKey := by
    have hparts : result.publicKey.protect.attestation = ⟨attestationMethodSshSign,
        options.sshBinding.publicKey, encodeBase64urlNopad rawSig.bytes⟩ := by rw [hbuilt.protect]
    rw [hparts, Attestation.toJson, jsonSize_obj (List.cons_ne_nil _ _)]
    simp only [membersSize, jsonSize_str, stringSize_64 rawSig.size, l14, l15, l2, t5]
    omega
  have hclaims : membersSize result.publicKey.protect.claimMembers
      ≤ 18 + ((buildBindingClaims options.githubAccount).map
        fun claims => jsonSize claims.toJson).getD 0 := by
    rw [PublicKeyProtected.claimMembers,
      show result.publicKey.protect.bindingClaims = buildBindingClaims options.githubAccount by
        rw [hbuilt.protect]]
    cases buildBindingClaims options.githubAccount with
    | none => exact Nat.zero_le _
    | some claims =>
      simp only [membersSize, l17, Option.map_some, Option.getD_some]
      omega
  have hcreated : membersSize result.publicKey.protect.createdMembers
      = 14 + stringSize options.createdAt := by
    rw [PublicKeyProtected.createdMembers,
      show result.publicKey.protect.createdAt = some options.createdAt by rw [hbuilt.protect]]
    simp only [membersSize, jsonSize_str, l16]
    omega
  have hprotected : jsonSize result.publicKey.protect.toJson ≤ 1000 + optionsSize options := by
    have hformat : result.publicKey.protect.format = publicKeyV1 := by rw [hbuilt.protect]
    have hsubject : result.publicKey.protect.subjectHandle = options.memberHandle := by
      rw [hbuilt.protect]
    have hidentity : result.publicKey.protect.keys = buildIdentityKeys C material := by
      rw [hbuilt.protect]
    have hexpires : result.publicKey.protect.expiresAt = options.expiresAt := by
      rw [hbuilt.protect]
    rw [PublicKeyProtected.toJson, jsonSize_obj (by simp), membersSize_append, membersSize_append,
      membersSize_append, hcreated, optionsSize]
    simp only [membersSize, jsonSize_str, hformat, hsubject, hidentity, hexpires, hkid, l1, l5, l6,
      l7, l8, l9, t1]
    omega
  have hsigSize : stringSize result.publicKey.signature = 88 := by
    rw [hsignature]
    exact stringSize_64 (FixedBytes.size _)
  rw [PublicKey.toJson, jsonSize_obj (List.cons_ne_nil _ _)]
  simp only [membersSize, jsonSize_str, hsigSize, l3, l4]
  omega

theorem nesting_privateKey (privateKey : KeyProtection.PrivateKey) :
    nesting privateKey.toJson ≤ 5 := by
  have halg : nesting privateKey.protect.alg.toJson ≤ 1 := by
    cases privateKey.protect.alg with
    | sshSig fpr ikmSalt hkdfSalt aead => exact Nat.le_refl 1
    | argon2id ikmSalt hkdfSalt aead => exact Nat.le_refl 1
  simp only [KeyProtection.PrivateKey.toJson, PrivateKeyProtected.toJson, PrivateKeyEncData.toJson,
    nesting, membersNesting]
  omega

theorem nesting_publicKey (publicKey : PublicKey) : nesting publicKey.toJson ≤ 5 := by
  have happend : ∀ a b, membersNesting (a ++ b) = max (membersNesting a) (membersNesting b) := by
    intro a b
    induction a with
    | nil => exact (Nat.zero_max _).symm
    | cons first a ih =>
      obtain ⟨name, v⟩ := first
      rw [List.cons_append, membersNesting, ih, membersNesting, Nat.max_assoc]
  have hclaims : membersNesting publicKey.protect.claimMembers ≤ 2 := by
    rw [PublicKeyProtected.claimMembers]
    cases publicKey.protect.bindingClaims with
    | none => exact Nat.zero_le 2
    | some claims =>
      obtain ⟨account⟩ := claims
      cases account with
      | none => decide
      | some account => exact Nat.le_refl 2
  have hcreated : membersNesting publicKey.protect.createdMembers = 0 := by
    rw [PublicKeyProtected.createdMembers]
    cases publicKey.protect.createdAt with
    | none => rfl
    | some created => rfl
  simp only [PublicKey.toJson, PublicKeyProtected.toJson, IdentityKeys.toJson,
    JwkOkpPublicKey.toJson, Attestation.toJson, nesting, membersNesting, happend, hcreated]
  omega

/-- The documents are small enough to be read again. -/
structure Readable (privateKey : KeyProtection.PrivateKey) (publicKey : PublicKey) : Prop where
  privateHalf : (renderDocument privateKey.toJson).length ≤ maxJsonDocumentReadSize
  publicHalf : (renderDocument publicKey.toJson).length ≤ maxJsonDocumentReadSize

/-- **A GENERATED PAIR CAN BE READ AGAIN** when the texts of the options are no longer than a
    million bytes together. -/
theorem readable_generated (hC : Lawful C) (hkeys : KeyHalves C)
    (h : generateKey C options material fresh = .ok result)
    (hsmall : optionsSize options ≤ 1000000) :
    Readable result.privateKey result.publicKey := by
  have hprivate := length_renderDocument (nesting_privateKey result.privateKey)
  have hpublic := length_renderDocument (nesting_publicKey result.publicKey)
  have hprivateSize := size_privateKey hC hkeys h
  have hpublicSize := size_publicKey hkeys h
  have hlimit : maxJsonDocumentReadSize = 25165824 := rfl
  constructor
  · omega
  · omega

end Documents

end KeySizes
