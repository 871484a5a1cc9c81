import Kapsaro.KeyProtection
import Kapsaro.TokenRecords

/-!
# Key documents — a private key document is read back from its text

`format/schema/document.rs` and `model/private_key.rs`: a private key document is written indented
into a key store, and canonically into a portable key; both texts are read by the same parser, which
accepts one of two forms of the header.

* **`PrivateKey.wellFormed`** — what the schema asks of a document, as a test of its fields.
* **`conforms_toJson`** — a document conforms to the schema of its algorithm exactly if it is well
  formed.
* **`parsePrivateKeyBytes_textAt`**, **`parsePrivateKeyBytes_jcsText`** — both texts are read back.
-/

namespace KeyDocuments

open Limits TextLines JsonText JsonMembers JsonRecords JsonLimits WireTexts WireModel
open DocumentTokens TokenRecords KeyProtection

/-! ## Well-formed documents -/

namespace PrivateKeyAlgorithm

/-- The schema of an algorithm. -/
def schemaOf : PrivateKeyAlgorithm → Schema
  | .sshSig .. => PrivateKeyAlgorithm.sshSigSchema
  | .argon2id .. => PrivateKeyAlgorithm.argon2idSchema

def wellFormed : PrivateKeyAlgorithm → Bool
  | .sshSig fpr ikmSalt hkdfSalt aead =>
    isFingerprintText fpr && isB64urlSized 43 ikmSalt && isB64urlSized 43 hkdfSalt
      && aead == aeadXChaCha20Poly1305
  | .argon2id ikmSalt hkdfSalt aead =>
    isB64urlSized 43 ikmSalt && isB64urlSized 43 hkdfSalt && aead == aeadXChaCha20Poly1305

theorem conforms_toJson (alg : PrivateKeyAlgorithm) :
    conforms (schemaOf alg) alg.toJson = wellFormed alg := by
  cases alg with
  | sshSig fpr ikmSalt hkdfSalt aead =>
    simp [schemaOf, PrivateKeyAlgorithm.sshSigSchema, PrivateKeyAlgorithm.toJson, conforms,
      memberConforms, wellFormed, Bool.and_assoc]
  | argon2id ikmSalt hkdfSalt aead =>
    simp [schemaOf, PrivateKeyAlgorithm.argon2idSchema, PrivateKeyAlgorithm.toJson, conforms,
      memberConforms, wellFormed, Bool.and_assoc]

theorem bounded (alg : PrivateKeyAlgorithm) : Bounded 1 alg.toJson := by
  cases alg with
  | sshSig fpr ikmSalt hkdfSalt aead =>
    refine Bounded.obj (show ["kdf", "fpr", "ikm_salt", "hkdf_salt", "aead"].Nodup by decide) ?_
    intro m hm
    rw [List.mem_cons, List.mem_cons, List.mem_cons, List.mem_cons, List.mem_singleton] at hm
    rcases hm with rfl | rfl | rfl | rfl | rfl <;> exact Bounded.str 0 _
  | argon2id ikmSalt hkdfSalt aead =>
    refine Bounded.obj (show ["kdf", "ikm_salt", "hkdf_salt", "aead"].Nodup by decide) ?_
    intro m hm
    rw [List.mem_cons, List.mem_cons, List.mem_cons, List.mem_singleton] at hm
    rcases hm with rfl | rfl | rfl | rfl <;> exact Bounded.str 0 _

end PrivateKeyAlgorithm

namespace PrivateKey

def wellFormed (k : PrivateKey) : Bool :=
  k.protect.format == privateKeyV1 && isMemberHandleText k.protect.subjectHandle
    && isKidText k.protect.kid && PrivateKeyAlgorithm.wellFormed k.protect.alg
    && isIso8601Text k.protect.createdAt && isIso8601Text k.protect.expiresAt
    && isB64urlSized 32 k.encrypted.nonce && isB64urlText k.encrypted.ct

/-- **THE SCHEMA IS THE TEST OF THE FIELDS.** -/
theorem conforms_toJson (k : PrivateKey) :
    conforms (PrivateKey.schema (PrivateKeyAlgorithm.schemaOf k.protect.alg)) k.toJson
      = wellFormed k := by
  simp [PrivateKey.schema, PrivateKey.toJson, PrivateKeyProtected.toJson, PrivateKeyEncData.schema,
    PrivateKeyEncData.toJson, conforms, memberConforms, wellFormed, Bool.and_assoc,
    PrivateKeyAlgorithm.conforms_toJson]

theorem bounded_encData (d : PrivateKeyEncData) : Bounded 1 d.toJson := by
  refine Bounded.obj (show ["nonce", "ct"].Nodup by decide) ?_
  intro m hm
  rw [List.mem_cons, List.mem_singleton] at hm
  rcases hm with rfl | rfl <;> exact Bounded.str 0 _

theorem bounded (k : PrivateKey) : Bounded 3 k.toJson := by
  refine Bounded.obj (show ["protected", "encrypted"].Nodup by decide) ?_
  intro m hm
  rw [List.mem_cons, List.mem_singleton] at hm
  rcases hm with rfl | rfl
  · refine Bounded.obj (show ["format", "subject_handle", "kid", "alg", "created_at",
      "expires_at"].Nodup by decide) ?_
    intro m hm
    rw [List.mem_cons, List.mem_cons, List.mem_cons, List.mem_cons, List.mem_cons,
      List.mem_singleton] at hm
    rcases hm with rfl | rfl | rfl | rfl | rfl | rfl
    · exact Bounded.str 1 _
    · exact Bounded.str 1 _
    · exact Bounded.str 1 _
    · exact PrivateKeyAlgorithm.bounded k.protect.alg
    · exact Bounded.str 1 _
    · exact Bounded.str 1 _
  · exact (bounded_encData k.encrypted).mono (by decide)

theorem elements (k : PrivateKey) : elementCount k.toJson ≤ 64 := by
  obtain ⟨⟨format, handle, kid, alg, created, expires⟩, nonce, ct⟩ := k
  cases alg with
  | sshSig fpr ikmSalt hkdfSalt aead => exact Nat.le_of_ble_eq_true rfl
  | argon2id ikmSalt hkdfSalt aead => exact Nat.le_of_ble_eq_true rfl

end PrivateKey

/-! ## Reading -/

/-- `parse_private_key_bytes`. -/
def parsePrivateKeyBytes (bytes : Bytes) (sourceName : String) : Except Error PrivateKey := do
  validateJsonLimits bytes
  let v ← parseJsonValue bytes sourceName "PrivateKey"
  let alg := if conforms (PrivateKey.schema PrivateKeyAlgorithm.sshSigSchema) v then
    PrivateKeyAlgorithm.sshSigSchema else PrivateKeyAlgorithm.argon2idSchema
  readConforming (PrivateKey.schema alg) PrivateKey.fromJson sourceName "PrivateKey" v

theorem parsePrivateKeyStr_eq (content sourceName : String) :
    parsePrivateKeyStr content sourceName = parsePrivateKeyBytes (utf8 content) sourceName :=
  rfl

/-- A value that conforms to one of the two forms is read. -/
theorem parsePrivateKeyBytes_of_value {bytes : Bytes} {sourceName : String} {v : Json}
    {k : PrivateKey} (hlimits : validateJsonLimits bytes = .ok ())
    (hvalue : parseJsonValue bytes sourceName "PrivateKey" = .ok v)
    (hconforms : conforms (PrivateKey.schema (PrivateKeyAlgorithm.schemaOf k.protect.alg)) v = true)
    (hread : PrivateKey.fromJson v = some k) : parsePrivateKeyBytes bytes sourceName = .ok k := by
  refine bind_eq_ok.mpr ⟨(), hlimits, bind_eq_ok.mpr ⟨v, hvalue, ?_⟩⟩
  by_cases hssh : conforms (PrivateKey.schema PrivateKeyAlgorithm.sshSigSchema) v = true
  · rw [if_pos hssh, readConforming, if_pos hssh, hread]
  · rw [if_neg hssh]
    cases halg : k.protect.alg with
    | sshSig fpr ikmSalt hkdfSalt aead =>
      rw [halg] at hconforms
      exact absurd hconforms hssh
    | argon2id ikmSalt hkdfSalt aead =>
      rw [halg] at hconforms
      have hargon : conforms (PrivateKey.schema PrivateKeyAlgorithm.argon2idSchema) v = true :=
        hconforms
      rw [readConforming, if_pos hargon, hread]

/-- **A STORED DOCUMENT IS READ BACK**, in either layout. -/
theorem parsePrivateKeyBytes_textAt {k : PrivateKey} (h : PrivateKey.wellFormed k = true)
    (indented : Bool) (sourceName : String) :
    parsePrivateKeyBytes (utf8 (String.ofList (textAt indented 0 k.toJson))) sourceName
      = .ok k := by
  have hbounded := PrivateKey.bounded k
  refine parsePrivateKeyBytes_of_value ((validateJsonLimits_textAt indented k.toJson).mpr ⟨?_, ?_⟩)
    (parseJsonValue_textAt indented _ _ _ hbounded.names hbounded.numbers) ?_ (PrivateKey.reads k).1
  · exact le_trans (PrivateKey.elements k) (by decide)
  · exact le_trans hbounded.nested (by decide)
  · rw [PrivateKey.conforms_toJson]
    exact h

/-- **A CANONICAL DOCUMENT IS READ BACK.** -/
theorem parsePrivateKeyBytes_jcsText {k : PrivateKey} (h : PrivateKey.wellFormed k = true)
    (sourceName : String) :
    parsePrivateKeyBytes (utf8 (jcsText k.toJson)) sourceName = .ok k := by
  have hbounded := PrivateKey.bounded k
  refine parsePrivateKeyBytes_of_value
    ((validateJsonLimits_textAt false (canonical k.toJson)).mpr ⟨?_, ?_⟩)
    (parseJsonValue_textAt false (canonical k.toJson) _ _ ?_ ?_) ?_ (PrivateKey.reads k).2
  · rw [elementCount_canonical]
    exact le_trans (PrivateKey.elements k) (by decide)
  · rw [nesting_canonical]
    exact le_trans hbounded.nested (by decide)
  · rw [uniqueNames_canonical]
    exact hbounded.names
  · rw [numbersWithin_canonical]
    exact hbounded.numbers
  · rw [conforms_canonical, PrivateKey.conforms_toJson]
    exact h

/-- The canonical form of a document exists. -/
theorem jcsNormalize_privateKey (k : PrivateKey) :
    jcsNormalize k.toJson = .ok (utf8 (jcsText k.toJson)) :=
  if_pos (PrivateKey.bounded k).numbers

end KeyDocuments
