import Kapsaro.JsonLimits
import Kapsaro.JsonRecords
import Kapsaro.WireTexts

/-!
# Wire model — the records of kv-enc and file-enc documents

The data types of `model/`, each with the JSON it is written as, the schema of `schemas/` it is
checked against, and the reader that takes it back.

* **`WrapItem`**, **`RemovedRecipient`** — what a wrap and a disclosure record carry.
* **`KvHeader`**, **`KvWrap`**, **`KvEntryValue`** — the three kv-enc tokens.
* **`PublicKey`**, **`ArtifactSignature`** — the signer's statement and the signature over it.
* **`FileEncDocument`** — the file-enc document.
* **`reads_…`** — every record is read back from what it was written as, in either order of
  members; **`conforms_…`** — it conforms to its schema exactly when its texts do.
-/

namespace WireModel

open JsonText JsonMembers JsonRecords JsonLimits Limits TextLines Base64Codec WireTexts

/-! ## Constants of the wire -/

def publicKeyV1 : String := "kapsaro:format:public-key@1"
def fileEncV1 : String := "kapsaro:format:file-enc@1"
def filePayloadV1 : String := "kapsaro:format:file-enc:payload@1"
def aeadXChaCha20Poly1305 : String := "xchacha20-poly1305"
def signatureEd25519 : String := "eddsa-ed25519"
def hpkeAlgorithm : String := "hpke-32-1-3"

/-! ## Wrap items and disclosure records -/

/-- A wrapped master key. -/
structure WrapItem where
  recipientHandle : String
  kid : String
  alg : String
  enc : String
  ct : String
deriving DecidableEq, Repr

/-- A disclosure record: a recipient that was removed. -/
structure RemovedRecipient where
  recipientHandle : String
  kid : String
  removedAt : String
deriving DecidableEq, Repr

namespace WrapItem

def toJson (w : WrapItem) : Json :=
  .obj [("rh", .str w.recipientHandle), ("kid", .str w.kid), ("alg", .str w.alg),
    ("enc", .str w.enc), ("ct", .str w.ct)]

def schema : Schema :=
  .record [("rh", .text isMemberHandleText), ("kid", .text isKidText),
      ("alg", .text (· == hpkeAlgorithm)), ("enc", .text (isB64urlSized 43)),
      ("ct", .text (isB64urlSized 64))]
    ["rh", "kid", "alg", "enc", "ct"] true

def fromJson : Json → Option WrapItem :=
  readRecord ["rh", "kid", "alg", "enc", "ct"] fun look => do
    let recipientHandle ← textField "rh" look
    let kid ← textField "kid" look
    let alg ← textField "alg" look
    let enc ← textField "enc" look
    let ct ← textField "ct" look
    pure { recipientHandle, kid, alg, enc, ct }

/-- The texts of a wrap item have the forms the schema asks for. -/
def wellFormed (w : WrapItem) : Bool :=
  isMemberHandleText w.recipientHandle && isKidText w.kid && w.alg == hpkeAlgorithm
    && isB64urlSized 43 w.enc && isB64urlSized 64 w.ct

theorem reads (w : WrapItem) : Reads toJson fromJson w :=
  reads_record _ ["rh", "kid", "alg", "enc", "ct"] rfl rfl (by decide) (by decide) rfl rfl

theorem conforms_toJson (w : WrapItem) : conforms schema w.toJson = w.wellFormed := by
  simp [schema, toJson, conforms, memberConforms, wellFormed, Bool.and_assoc]

/-- A wrap item read from a conforming value has well-formed texts. -/
theorem wellFormed_of_fromJson {v : Json} {w : WrapItem} (hconforms : conforms schema v = true)
    (hread : fromJson v = some w) : w.wellFormed = true := by
  obtain ⟨members, rfl, hfields⟩ := readRecord_eq_some hread
  simp only [Option.bind_eq_bind, Option.bind_eq_some_iff] at hfields
  obtain ⟨rh, hrh, kid, hkid, alg, halg, enc, henc, ct, hct, heq⟩ := hfields
  have h1 := text_conforms hconforms hrh
  have h2 := text_conforms hconforms hkid
  have h3 := text_conforms hconforms halg
  have h4 := text_conforms hconforms henc
  have h5 := text_conforms hconforms hct
  simp [memberConforms, conforms] at h1 h2 h3 h4 h5
  rw [← Option.some.inj heq]
  simp [wellFormed, h1, h2, h3, h4, h5]

end WrapItem

namespace RemovedRecipient

def toJson (r : RemovedRecipient) : Json :=
  .obj [("rh", .str r.recipientHandle), ("kid", .str r.kid), ("removed_at", .str r.removedAt)]

def schema : Schema :=
  .record [("rh", .text isMemberHandleText), ("kid", .text isKidText),
      ("removed_at", .text isIso8601Text)]
    ["rh", "kid", "removed_at"] true

def fromJson : Json → Option RemovedRecipient :=
  readRecord ["rh", "kid", "removed_at"] fun look => do
    let recipientHandle ← textField "rh" look
    let kid ← textField "kid" look
    let removedAt ← textField "removed_at" look
    pure { recipientHandle, kid, removedAt }

/-- The texts of a disclosure record have the forms the schema asks for. -/
def wellFormed (r : RemovedRecipient) : Bool :=
  isMemberHandleText r.recipientHandle && isKidText r.kid && isIso8601Text r.removedAt

theorem reads (r : RemovedRecipient) : Reads toJson fromJson r :=
  reads_record _ ["rh", "kid", "removed_at"] rfl rfl (by decide) (by decide) rfl rfl

theorem conforms_toJson (r : RemovedRecipient) : conforms schema r.toJson = r.wellFormed := by
  simp [schema, toJson, conforms, memberConforms, wellFormed, Bool.and_assoc]

/-- A disclosure record read from a conforming value has well-formed texts. -/
theorem wellFormed_of_fromJson {v : Json} {r : RemovedRecipient}
    (hconforms : conforms schema v = true) (hread : fromJson v = some r) :
    r.wellFormed = true := by
  obtain ⟨members, rfl, hfields⟩ := readRecord_eq_some hread
  simp only [Option.bind_eq_bind, Option.bind_eq_some_iff] at hfields
  obtain ⟨rh, hrh, kid, hkid, removedAt, hremoved, heq⟩ := hfields
  have h1 := text_conforms hconforms hrh
  have h2 := text_conforms hconforms hkid
  have h3 := text_conforms hconforms hremoved
  simp [memberConforms, conforms] at h1 h2 h3
  rw [← Option.some.inj heq]
  simp [wellFormed, h1, h2, h3]

end RemovedRecipient

/-! ## The kv-enc tokens -/

/-- The sid of a document, as the schema admits it. -/
def asUuid : Json → Option Uuid
  | .str s => if h : isUuidText s = true then some ⟨s, h⟩ else none
  | _ => none

theorem reads_uuid (sid : Uuid) : Reads (fun sid => .str sid.text) asUuid sid := by
  have h : asUuid (.str sid.text) = some sid := by
    rw [asUuid, dif_pos sid.valid]
  exact ⟨h, h⟩

/-- The payload algorithm. -/
structure Algorithm where
  aead : String
deriving DecidableEq, Repr

namespace Algorithm

def toJson (a : Algorithm) : Json := .obj [("aead", .str a.aead)]

def schema : Schema :=
  .record [("aead", .text (· == aeadXChaCha20Poly1305))] ["aead"] true

def fromJson : Json → Option Algorithm :=
  readRecord ["aead"] fun look => do
    let aead ← textField "aead" look
    pure { aead }

def wellFormed (a : Algorithm) : Bool := a.aead == aeadXChaCha20Poly1305

theorem reads (a : Algorithm) : Reads toJson fromJson a :=
  reads_record _ ["aead"] rfl rfl (by decide) (by decide) rfl rfl

theorem conforms_toJson (a : Algorithm) : conforms schema a.toJson = a.wellFormed := by
  simp [schema, toJson, conforms, memberConforms, wellFormed]

theorem wellFormed_of_fromJson {v : Json} {a : Algorithm} (hconforms : conforms schema v = true)
    (hread : fromJson v = some a) : a.wellFormed = true := by
  obtain ⟨members, rfl, hfields⟩ := readRecord_eq_some hread
  simp only [Option.bind_eq_bind, Option.bind_eq_some_iff] at hfields
  obtain ⟨aead, haead, heq⟩ := hfields
  have h1 := text_conforms hconforms haead
  simp [memberConforms, conforms] at h1
  rw [← Option.some.inj heq]
  simp [wellFormed, h1]

end Algorithm

/-- The HEAD token. -/
structure KvHeader where
  sid : Uuid
  alg : Algorithm
  createdAt : String
  updatedAt : String
deriving DecidableEq

/-- The WRAP token. -/
structure KvWrap where
  wrap : List WrapItem
  removedRecipients : Option (List RemovedRecipient)
deriving DecidableEq, Repr

/-- An entry token. -/
structure KvEntryValue where
  nonce : String
  ct : String
  disclosed : Bool
deriving DecidableEq, Repr

namespace KvHeader

def toJson (h : KvHeader) : Json :=
  .obj [("sid", .str h.sid.text), ("alg", h.alg.toJson), ("created_at", .str h.createdAt),
    ("updated_at", .str h.updatedAt)]

def schema : Schema :=
  .record [("sid", .text isUuidText), ("alg", Algorithm.schema),
      ("created_at", .text isIso8601Text), ("updated_at", .text isIso8601Text)]
    ["sid", "alg", "created_at", "updated_at"] true

def fromJson : Json → Option KvHeader :=
  readRecord ["sid", "alg", "created_at", "updated_at"] fun look => do
    let sid ← field asUuid "sid" look
    let alg ← field Algorithm.fromJson "alg" look
    let createdAt ← textField "created_at" look
    let updatedAt ← textField "updated_at" look
    pure { sid, alg, createdAt, updatedAt }

def wellFormed (h : KvHeader) : Bool :=
  h.alg.wellFormed && isIso8601Text h.createdAt && isIso8601Text h.updatedAt

theorem reads (h : KvHeader) : Reads toJson fromJson h := by
  have hsid := reads_uuid h.sid
  have halg := Algorithm.reads h.alg
  refine reads_record _ ["sid", "alg", "created_at", "updated_at"] rfl rfl (by decide) (by decide)
    ?_ ?_
  · simp [field, textField, member, hsid.1, halg.1, asText]
  · simp [field, textField, member, canonical, hsid.1, halg.2, asText]

theorem conforms_toJson (h : KvHeader) : conforms schema h.toJson = h.wellFormed := by
  simp [schema, toJson, conforms, memberConforms, wellFormed, Bool.and_assoc, h.sid.valid,
    Algorithm.conforms_toJson]

/-- A header read from a conforming value has well-formed texts. -/
theorem wellFormed_of_fromJson {v : Json} {h : KvHeader} (hconforms : conforms schema v = true)
    (hread : fromJson v = some h) : h.wellFormed = true := by
  obtain ⟨members, rfl, hfields⟩ := readRecord_eq_some hread
  simp only [Option.bind_eq_bind, Option.bind_eq_some_iff] at hfields
  obtain ⟨sid, _, alg, halg, createdAt, hcreated, updatedAt, hupdated, heq⟩ := hfields
  obtain ⟨algValue, hlook, hread'⟩ := field_eq_some halg
  have h1 := memberConforms_of_conforms hconforms hlook
  have h2 := text_conforms hconforms hcreated
  have h3 := text_conforms hconforms hupdated
  simp [memberConforms, conforms] at h1 h2 h3
  have h4 := Algorithm.wellFormed_of_fromJson h1 hread'
  rw [← Option.some.inj heq]
  simp [wellFormed, h2, h3, h4]

end KvHeader

namespace KvWrap

def toJson (w : KvWrap) : Json :=
  .obj (("wrap", .arr (w.wrap.map WrapItem.toJson)) ::
    match w.removedRecipients with
    | none => []
    | some removed => [("removed_recipients", .arr (removed.map RemovedRecipient.toJson))])

def schema : Schema :=
  .record [("wrap", .list WrapItem.schema 1 (some 1000)),
      ("removed_recipients", .list RemovedRecipient.schema 0 none)]
    ["wrap"] true

def fromJson : Json → Option KvWrap :=
  readRecord ["wrap", "removed_recipients"] fun look => do
    let wrap ← field (asList WrapItem.fromJson) "wrap" look
    let removedRecipients ← optionalField (asList RemovedRecipient.fromJson)
      "removed_recipients" look
    pure { wrap, removedRecipients }

def wellFormed (w : KvWrap) : Bool :=
  (decide (1 ≤ w.wrap.length) && decide (w.wrap.length ≤ 1000) && w.wrap.all WrapItem.wellFormed)
    && w.removedRecipients.all fun removed => removed.all RemovedRecipient.wellFormed

theorem reads (w : KvWrap) : Reads toJson fromJson w := by
  obtain ⟨wrap, removed⟩ := w
  have hwrap := reads_list wrap fun x _ => WrapItem.reads x
  have hwrap' := hwrap.2
  rw [canonical] at hwrap'
  cases removed with
  | none =>
    refine reads_record _ ["wrap"] rfl rfl (by decide) (by decide) ?_ ?_
    · simp [field, member, optionalField, hwrap.1]
    · simp [field, member, optionalField, canonical, hwrap']
  | some removed =>
    have hremoved := reads_list removed fun x _ => RemovedRecipient.reads x
    have hremoved' := hremoved.2
    rw [canonical] at hremoved'
    refine reads_record _ ["wrap", "removed_recipients"] rfl rfl (by decide) (by decide) ?_ ?_
    · simp [field, member, optionalField, hwrap.1, hremoved.1]
    · simp [field, member, optionalField, canonical, hwrap', hremoved']

theorem conforms_toJson (w : KvWrap) : conforms schema w.toJson = w.wellFormed := by
  obtain ⟨wrap, removed⟩ := w
  have hwrap := conforms_list 1 (some 1000) wrap WrapItem.conforms_toJson
  have hmember : memberConforms [("wrap", .list WrapItem.schema 1 (some 1000)),
      ("removed_recipients", .list RemovedRecipient.schema 0 none)] true "wrap"
      (.arr (wrap.map WrapItem.toJson)) = (decide (1 ≤ wrap.length)
        && decide (wrap.length ≤ 1000) && wrap.all WrapItem.wellFormed) := by
    rw [memberConforms, if_pos rfl, hwrap]
    rfl
  cases removed with
  | none =>
    simp only [schema, toJson, conforms, List.all_cons, List.all_nil, hmember, wellFormed,
      Option.all_none, Bool.and_true]
    rfl
  | some removed =>
    have hmember' : memberConforms [("wrap", .list WrapItem.schema 1 (some 1000)),
        ("removed_recipients", .list RemovedRecipient.schema 0 none)] true "removed_recipients"
        (.arr (removed.map RemovedRecipient.toJson)) = removed.all RemovedRecipient.wellFormed := by
      rw [memberConforms, if_neg (by decide), memberConforms, if_pos rfl,
        conforms_list 0 none removed RemovedRecipient.conforms_toJson]
      rfl
    simp only [schema, toJson, conforms, List.all_cons, List.all_nil, hmember, hmember',
      wellFormed, Option.all_some, Bool.and_true]
    rfl

/-- A wrap read from a conforming value is well formed. -/
theorem wellFormed_of_fromJson {v : Json} {w : KvWrap} (hconforms : conforms schema v = true)
    (hread : fromJson v = some w) : w.wellFormed = true := by
  obtain ⟨members, rfl, hfields⟩ := readRecord_eq_some hread
  simp only [Option.bind_eq_bind, Option.bind_eq_some_iff] at hfields
  obtain ⟨wrap, hwrap, removed, hremoved, heq⟩ := hfields
  obtain rfl := Option.some.inj heq
  rw [wellFormed, Bool.and_eq_true]
  constructor
  · obtain ⟨v, hlook, hlist⟩ := field_eq_some hwrap
    obtain ⟨items, rfl, hlength, hitems⟩ := asList_eq_some hlist
    have hmember := memberConforms_of_conforms hconforms hlook
    rw [memberConforms, if_pos rfl, conforms, Bool.and_eq_true, hlength] at hmember
    refine Bool.and_eq_true_iff.mpr ⟨hmember.1, List.all_eq_true.mpr fun item hitem => ?_⟩
    obtain ⟨w, hw, hread'⟩ := hitems item hitem
    exact WrapItem.wellFormed_of_fromJson (List.all_eq_true.mp hmember.2 w hw) hread'
  · cases removed with
    | none => rfl
    | some rs =>
      refine List.all_eq_true.mpr fun r hr => ?_
      obtain ⟨v, hlook, hlist⟩ := optionalField_eq_some hremoved
      obtain ⟨items, rfl, _, hitems⟩ := asList_eq_some hlist
      obtain ⟨w, hw, hread'⟩ := hitems r hr
      have hmember := memberConforms_of_conforms hconforms hlook
      rw [memberConforms, if_neg (by decide), memberConforms, if_pos rfl, conforms,
        Bool.and_eq_true] at hmember
      exact RemovedRecipient.wellFormed_of_fromJson (List.all_eq_true.mp hmember.2 w hw) hread'

end KvWrap

namespace KvEntryValue

def toJson (e : KvEntryValue) : Json :=
  .obj (("nonce", .str e.nonce) :: ("ct", .str e.ct) ::
    if e.disclosed then [("disclosed", .bool true)] else [])

def schema : Schema :=
  .record [("nonce", .text (isB64urlSized 32)), ("ct", .text isB64urlText),
      ("disclosed", .boolean)]
    ["nonce", "ct"] true

def fromJson : Json → Option KvEntryValue :=
  readRecord ["nonce", "ct", "disclosed"] fun look => do
    let nonce ← textField "nonce" look
    let ct ← textField "ct" look
    let disclosed ← defaultField asBool false "disclosed" look
    pure { nonce, ct, disclosed }

def wellFormed (e : KvEntryValue) : Bool :=
  isB64urlSized 32 e.nonce && isB64urlText e.ct

theorem reads (e : KvEntryValue) : Reads toJson fromJson e := by
  obtain ⟨nonce, ct, disclosed⟩ := e
  cases disclosed with
  | false => exact reads_record _ ["nonce", "ct"] rfl rfl (by decide) (by decide) rfl rfl
  | true =>
    exact reads_record _ ["nonce", "ct", "disclosed"] rfl rfl (by decide) (by decide) rfl rfl

theorem conforms_toJson (e : KvEntryValue) : conforms schema e.toJson = e.wellFormed := by
  obtain ⟨nonce, ct, disclosed⟩ := e
  cases disclosed with
  | false => simp [schema, toJson, conforms, memberConforms, wellFormed]
  | true => simp [schema, toJson, conforms, memberConforms, wellFormed]

/-- An entry read from a conforming value has well-formed texts. -/
theorem wellFormed_of_fromJson {v : Json} {e : KvEntryValue} (hconforms : conforms schema v = true)
    (hread : fromJson v = some e) : e.wellFormed = true := by
  obtain ⟨members, rfl, hfields⟩ := readRecord_eq_some hread
  simp only [Option.bind_eq_bind, Option.bind_eq_some_iff] at hfields
  obtain ⟨nonce, hnonce, ct, hct, disclosed, _, heq⟩ := hfields
  have h1 := text_conforms hconforms hnonce
  have h2 := text_conforms hconforms hct
  simp [memberConforms, conforms] at h1 h2
  rw [← Option.some.inj heq]
  simp [wellFormed, h1, h2]

end KvEntryValue

/-! ## Public keys -/

/-- A JWK/OKP public key. -/
structure JwkOkpPublicKey where
  kty : String
  crv : String
  x : String
deriving DecidableEq, Repr

namespace JwkOkpPublicKey

def toJson (k : JwkOkpPublicKey) : Json :=
  .obj [("kty", .str k.kty), ("crv", .str k.crv), ("x", .str k.x)]

def schema (crv : String) : Schema :=
  .record [("kty", .text (· == "OKP")), ("crv", .text (· == crv)),
      ("x", .text (isB64urlSized 43))]
    ["kty", "crv", "x"] true

def fromJson : Json → Option JwkOkpPublicKey :=
  readRecord ["kty", "crv", "x"] fun look => do
    let kty ← textField "kty" look
    let crv ← textField "crv" look
    let x ← textField "x" look
    pure { kty, crv, x }

def wellFormed (crv : String) (k : JwkOkpPublicKey) : Bool :=
  k.kty == "OKP" && k.crv == crv && isB64urlSized 43 k.x

theorem reads (k : JwkOkpPublicKey) : Reads toJson fromJson k :=
  reads_record _ ["kty", "crv", "x"] rfl rfl (by decide) (by decide) rfl rfl

theorem conforms_toJson (crv : String) (k : JwkOkpPublicKey) :
    conforms (schema crv) k.toJson = k.wellFormed crv := by
  simp [schema, toJson, conforms, memberConforms, wellFormed, Bool.and_assoc]

end JwkOkpPublicKey

/-- The encryption and the signing key of a member. -/
structure IdentityKeys where
  kem : JwkOkpPublicKey
  sig : JwkOkpPublicKey
deriving DecidableEq, Repr

namespace IdentityKeys

def toJson (k : IdentityKeys) : Json :=
  .obj [("kem", k.kem.toJson), ("sig", k.sig.toJson)]

def schema : Schema :=
  .record [("kem", JwkOkpPublicKey.schema "X25519"), ("sig", JwkOkpPublicKey.schema "Ed25519")]
    ["kem", "sig"] true

def fromJson : Json → Option IdentityKeys :=
  readRecord ["kem", "sig"] fun look => do
    let kem ← field JwkOkpPublicKey.fromJson "kem" look
    let sig ← field JwkOkpPublicKey.fromJson "sig" look
    pure { kem, sig }

def wellFormed (k : IdentityKeys) : Bool :=
  k.kem.wellFormed "X25519" && k.sig.wellFormed "Ed25519"

theorem reads (k : IdentityKeys) : Reads toJson fromJson k := by
  have hkem := JwkOkpPublicKey.reads k.kem
  have hsig := JwkOkpPublicKey.reads k.sig
  refine reads_record _ ["kem", "sig"] rfl rfl (by decide) (by decide) ?_ ?_
  · simp [field, member, hkem.1, hsig.1]
  · simp [field, member, hkem.2, hsig.2]

theorem conforms_toJson (k : IdentityKeys) : conforms schema k.toJson = k.wellFormed := by
  simp [schema, toJson, conforms, memberConforms, wellFormed, JwkOkpPublicKey.conforms_toJson]

end IdentityKeys

/-- The SSH attestation of a key statement. -/
structure Attestation where
  method : String
  pub : String
  sig : String
deriving DecidableEq, Repr

namespace Attestation

def toJson (a : Attestation) : Json :=
  .obj [("method", .str a.method), ("pub", .str a.pub), ("sig", .str a.sig)]

def schema : Schema :=
  .record [("method", .text (· == "ssh-sign")), ("pub", .text (isSingleLine 4096)),
      ("sig", .text (isB64urlSized 86))]
    ["method", "pub", "sig"] true

def fromJson : Json → Option Attestation :=
  readRecord ["method", "pub", "sig"] fun look => do
    let method ← textField "method" look
    let pub ← textField "pub" look
    let sig ← textField "sig" look
    pure { method, pub, sig }

def wellFormed (a : Attestation) : Bool :=
  a.method == "ssh-sign" && isSingleLine 4096 a.pub && isB64urlSized 86 a.sig

theorem reads (a : Attestation) : Reads toJson fromJson a :=
  reads_record _ ["method", "pub", "sig"] rfl rfl (by decide) (by decide) rfl rfl

theorem conforms_toJson (a : Attestation) : conforms schema a.toJson = a.wellFormed := by
  simp [schema, toJson, conforms, memberConforms, wellFormed, Bool.and_assoc]

end Attestation

/-- A claimed GitHub account. -/
structure GithubAccount where
  id : Nat
  login : String
deriving DecidableEq, Repr

namespace GithubAccount

def toJson (g : GithubAccount) : Json :=
  .obj [("id", .num (.ofNat g.id)), ("login", .str g.login)]

def schema : Schema :=
  .record [("id", .integer 1 9007199254740991), ("login", .text isGithubLogin)]
    ["id", "login"] true

def fromJson : Json → Option GithubAccount :=
  readRecord ["id", "login"] fun look => do
    let id ← field asNat "id" look
    let login ← textField "login" look
    pure { id, login }

def wellFormed (g : GithubAccount) : Bool :=
  decide (1 ≤ g.id ∧ g.id ≤ maxSafeInteger) && isGithubLogin g.login

theorem reads (g : GithubAccount) : Reads toJson fromJson g :=
  reads_record _ ["id", "login"] rfl rfl (by decide) (by decide) rfl rfl

theorem conforms_toJson (g : GithubAccount) : conforms schema g.toJson = g.wellFormed := by
  have hid : decide ((1 : Int) ≤ .ofNat g.id ∧ Int.ofNat g.id ≤ 9007199254740991)
      = decide (1 ≤ g.id ∧ g.id ≤ maxSafeInteger) := by
    refine decide_eq_decide.mpr ?_
    rw [maxSafeInteger, Int.ofNat_eq_natCast]
    omega
  simp only [schema, toJson, conforms, memberConforms, wellFormed, List.all_cons, List.all_nil,
    hid]
  simp

end GithubAccount

/-- Claims about external accounts. -/
structure BindingClaims where
  githubAccount : Option GithubAccount
deriving DecidableEq, Repr

namespace BindingClaims

def toJson (b : BindingClaims) : Json :=
  .obj (match b.githubAccount with
    | none => []
    | some g => [("github_account", g.toJson)])

def schema : Schema :=
  .record [("github_account", GithubAccount.schema)] [] true

def fromJson : Json → Option BindingClaims :=
  readRecord ["github_account"] fun look => do
    let githubAccount ← optionalField GithubAccount.fromJson "github_account" look
    pure { githubAccount }

def wellFormed (b : BindingClaims) : Bool :=
  b.githubAccount.all GithubAccount.wellFormed

theorem reads (b : BindingClaims) : Reads toJson fromJson b := by
  obtain ⟨account⟩ := b
  cases account with
  | none => exact reads_record _ [] rfl rfl (by decide) (by decide) rfl rfl
  | some g =>
    have hg := GithubAccount.reads g
    refine reads_record _ ["github_account"] rfl rfl (by decide) (by decide) ?_ ?_
    · rw [optionalField_some (v := g.toJson) rfl (fun h => by cases h) hg.1]
      rfl
    · rw [optionalField_some (v := canonical g.toJson) rfl (fun h => by cases h) hg.2]
      rfl

theorem conforms_toJson (b : BindingClaims) : conforms schema b.toJson = b.wellFormed := by
  obtain ⟨account⟩ := b
  cases account with
  | none => rfl
  | some g =>
    rw [schema, toJson, conforms, List.all_cons, memberConforms, if_pos rfl,
      GithubAccount.conforms_toJson]
    simp [wellFormed]

end BindingClaims

/-- The signed content of a key statement. -/
structure PublicKeyProtected where
  format : String
  subjectHandle : String
  kid : String
  keys : IdentityKeys
  bindingClaims : Option BindingClaims
  attestation : Attestation
  expiresAt : String
  createdAt : Option String
deriving DecidableEq, Repr

/-- A member's key statement. -/
structure PublicKey where
  protect : PublicKeyProtected
  signature : String
deriving DecidableEq, Repr

namespace PublicKeyProtected

def claimMembers (p : PublicKeyProtected) : List (String × Json) :=
  match p.bindingClaims with
  | none => []
  | some claims => [("binding_claims", claims.toJson)]

def createdMembers (p : PublicKeyProtected) : List (String × Json) :=
  match p.createdAt with
  | none => []
  | some created => [("created_at", .str created)]

def toJson (p : PublicKeyProtected) : Json :=
  .obj ([("format", .str p.format), ("subject_handle", .str p.subjectHandle),
      ("kid", .str p.kid), ("keys", p.keys.toJson)] ++ p.claimMembers
    ++ [("attestation", p.attestation.toJson), ("expires_at", .str p.expiresAt)]
    ++ p.createdMembers)

def properties : List (String × Schema) :=
  [("format", .text (· == publicKeyV1)), ("subject_handle", .text isMemberHandleText),
    ("kid", .text isKidText), ("keys", IdentityKeys.schema),
    ("binding_claims", BindingClaims.schema), ("attestation", Attestation.schema),
    ("expires_at", .text isIso8601Text), ("created_at", .text isIso8601Text)]

def requiredNames : List String :=
  ["format", "subject_handle", "kid", "keys", "attestation", "expires_at"]

def schema : Schema := .record properties requiredNames true

def fieldNames : List String :=
  ["format", "subject_handle", "kid", "keys", "binding_claims", "attestation", "expires_at",
    "created_at"]

def fromJson : Json → Option PublicKeyProtected :=
  readRecord fieldNames fun look => do
    let format ← textField "format" look
    let subjectHandle ← textField "subject_handle" look
    let kid ← textField "kid" look
    let keys ← field IdentityKeys.fromJson "keys" look
    let bindingClaims ← optionalField BindingClaims.fromJson "binding_claims" look
    let attestation ← field Attestation.fromJson "attestation" look
    let expiresAt ← textField "expires_at" look
    let createdAt ← optionalField asText "created_at" look
    pure { format, subjectHandle, kid, keys, bindingClaims, attestation, expiresAt, createdAt }

def wellFormed (p : PublicKeyProtected) : Bool :=
  p.format == publicKeyV1 && isMemberHandleText p.subjectHandle && isKidText p.kid
    && p.keys.wellFormed && p.bindingClaims.all BindingClaims.wellFormed
    && p.attestation.wellFormed && isIso8601Text p.expiresAt && p.createdAt.all isIso8601Text

theorem reads (p : PublicKeyProtected) : Reads toJson fromJson p := by
  obtain ⟨format, subjectHandle, kid, keys, claims, attestation, expiresAt, createdAt⟩ := p
  have hkeys := IdentityKeys.reads keys
  have hattestation := Attestation.reads attestation
  cases claims with
  | none =>
    cases createdAt with
    | none =>
      refine reads_record _ ["format", "subject_handle", "kid", "keys", "attestation",
        "expires_at"] rfl rfl (by decide) (by decide) ?_ ?_
      · simp [textField, field, optionalField, member, asText, claimMembers, createdMembers,
          hkeys.1, hattestation.1]
      · simp [textField, field, optionalField, member, asText, claimMembers, createdMembers,
          canonical, hkeys.2, hattestation.2]
    | some created =>
      refine reads_record _ ["format", "subject_handle", "kid", "keys", "attestation",
        "expires_at", "created_at"] rfl rfl (by decide) (by decide) ?_ ?_
      · simp [textField, field, optionalField, member, asText, claimMembers, createdMembers,
          hkeys.1, hattestation.1]
      · simp [textField, field, optionalField, member, asText, claimMembers, createdMembers,
          canonical, hkeys.2, hattestation.2]
  | some claims =>
    have hclaims := BindingClaims.reads claims
    cases createdAt with
    | none =>
      refine reads_record _ ["format", "subject_handle", "kid", "keys", "binding_claims",
        "attestation", "expires_at"] rfl rfl (by decide) (by decide) ?_ ?_
      · rw [optionalField_some (v := claims.toJson) rfl (fun h => by cases h) hclaims.1]
        simp [textField, field, optionalField, member, asText, claimMembers, createdMembers,
          hkeys.1, hattestation.1]
      · rw [optionalField_some (v := canonical claims.toJson) rfl (fun h => by cases h) hclaims.2]
        simp [textField, field, optionalField, member, asText, claimMembers, createdMembers,
          canonical, hkeys.2, hattestation.2]
    | some created =>
      refine reads_record _ fieldNames rfl rfl (by decide) (by decide) ?_ ?_
      · rw [optionalField_some (v := claims.toJson) rfl (fun h => by cases h) hclaims.1]
        simp [textField, field, optionalField, member, asText, claimMembers, createdMembers,
          hkeys.1, hattestation.1]
      · rw [optionalField_some (v := canonical claims.toJson) rfl (fun h => by cases h) hclaims.2]
        simp [textField, field, optionalField, member, asText, claimMembers, createdMembers,
          canonical, hkeys.2, hattestation.2]

theorem conforms_toJson (p : PublicKeyProtected) : conforms schema p.toJson = p.wellFormed := by
  have hclaims : p.claimMembers.all (fun m => memberConforms properties true m.1 m.2)
      = p.bindingClaims.all BindingClaims.wellFormed := by
    rw [claimMembers]
    cases p.bindingClaims with
    | none => rfl
    | some claims =>
      show (conforms BindingClaims.schema claims.toJson && true) = claims.wellFormed
      rw [BindingClaims.conforms_toJson, Bool.and_true]
  have hcreated : p.createdMembers.all (fun m => memberConforms properties true m.1 m.2)
      = p.createdAt.all isIso8601Text := by
    rw [createdMembers]
    cases p.createdAt with
    | none => rfl
    | some created => exact Bool.and_true _
  have hhead : [("format", Json.str p.format), ("subject_handle", .str p.subjectHandle),
        ("kid", .str p.kid), ("keys", p.keys.toJson)].all
          (fun m => memberConforms properties true m.1 m.2)
      = (p.format == publicKeyV1 && isMemberHandleText p.subjectHandle && isKidText p.kid
        && p.keys.wellFormed) := by
    show (p.format == publicKeyV1 && (isMemberHandleText p.subjectHandle && (isKidText p.kid
      && (conforms IdentityKeys.schema p.keys.toJson && true)))) = _
    rw [IdentityKeys.conforms_toJson, Bool.and_true, Bool.and_assoc, Bool.and_assoc]
  have htail : [("attestation", p.attestation.toJson), ("expires_at", .str p.expiresAt)].all
        (fun m => memberConforms properties true m.1 m.2)
      = (p.attestation.wellFormed && isIso8601Text p.expiresAt) := by
    show (conforms Attestation.schema p.attestation.toJson
      && (isIso8601Text p.expiresAt && true)) = _
    rw [Attestation.conforms_toJson, Bool.and_true]
  rw [schema, toJson, conforms_record, List.all_append, List.all_append, List.all_append, hhead,
    hclaims, htail, hcreated, wellFormed]
  · simp only [Bool.and_assoc]
  · intro name hname
    simp only [requiredNames, List.mem_cons, List.not_mem_nil, or_false] at hname
    rcases hname with h | h | h | h | h | h <;> simp [h]

end PublicKeyProtected

namespace PublicKey

def toJson (k : PublicKey) : Json :=
  .obj [("protected", k.protect.toJson), ("signature", .str k.signature)]

def schema : Schema :=
  .record [("protected", PublicKeyProtected.schema), ("signature", .text (isB64urlSized 86))]
    ["protected", "signature"] true

def fromJson : Json → Option PublicKey :=
  readRecord ["protected", "signature"] fun look => do
    let protect ← field PublicKeyProtected.fromJson "protected" look
    let signature ← textField "signature" look
    pure { protect, signature }

def wellFormed (k : PublicKey) : Bool :=
  k.protect.wellFormed && isB64urlSized 86 k.signature

theorem reads (k : PublicKey) : Reads toJson fromJson k := by
  have hprotected := PublicKeyProtected.reads k.protect
  refine reads_record _ ["protected", "signature"] rfl rfl (by decide) (by decide) ?_ ?_
  · simp [textField, field, member, asText, hprotected.1]
  · simp [textField, field, member, asText, canonical, hprotected.2]

theorem conforms_toJson (k : PublicKey) : conforms schema k.toJson = k.wellFormed := by
  rw [schema, toJson, conforms_record (by simp)]
  show (conforms PublicKeyProtected.schema k.protect.toJson
    && (isB64urlSized 86 k.signature && true)) = _
  rw [PublicKeyProtected.conforms_toJson, Bool.and_true, wellFormed]

end PublicKey

/-! ## Artifact signatures -/

/-- An HMAC tag over the body bytes, in its wire form. -/
structure KeyPossessionProof where
  wire : String
  tag : Bytes
deriving DecidableEq, Repr

namespace KeyPossessionProof

def algorithmPrefix : String := "hmac-sha256"

/-- The proof of a 32-byte tag. -/
def tryNew (tag : Bytes) : Except Error KeyPossessionProof :=
  if tag.length = 32 then
    .ok { wire := algorithmPrefix ++ ":" ++ encodeBase64urlNopad tag, tag := tag }
  else .error (.crypto (s!"Key-possession proof error: Invalid key-possession proof tag length: " ++
    s!"expected 32 bytes, got {tag.length}"))

/-- The proof a wire text spells. -/
def parse (wire : String) : Option KeyPossessionProof :=
  match splitAtFirst ':' wire.toList with
  | none => none
  | some (name, tagText) =>
    if name = [] ∨ tagText = [] ∨ ':' ∈ tagText then none
    else if name ≠ algorithmPrefix.toList then none
    else match decodeBase64urlNopad (String.ofList tagText) "key-possession proof" with
      | .error _ => none
      | .ok tag => if tag.length = 32 then some { wire := wire, tag := tag } else none

/-- What the source builds, its own parser accepts. -/
theorem parse_tryNew {tag : Bytes} {proof : KeyPossessionProof} (h : tryNew tag = .ok proof) :
    parse proof.wire = some proof := by
  rw [tryNew] at h
  by_cases hlen : tag.length = 32
  · rw [if_pos hlen] at h
    obtain rfl := Except.ok.inj h
    have hchars : ∀ c ∈ fillEncoded tag, isBase64urlChar c = true := fillEncoded_chars tag
    have hsplit : splitAtFirst ':'
        (algorithmPrefix ++ ":" ++ encodeBase64urlNopad tag).toList
        = some (algorithmPrefix.toList, fillEncoded tag) := by
      have htext : (algorithmPrefix ++ ":" ++ encodeBase64urlNopad tag).toList
          = algorithmPrefix.toList ++ ':' :: fillEncoded tag := by
        rw [String.toList_append, String.toList_append, encodeBase64urlNopad,
          String.toList_ofList (l := fillEncoded tag), List.append_assoc]
        rfl
      rw [htext]
      exact splitAtFirst_append _ (by decide)
    have hne : fillEncoded tag ≠ [] := by
      intro hnil
      have hlength := fillEncoded_length tag
      rw [hnil, hlen] at hlength
      exact absurd hlength (by decide)
    have hcolon : ':' ∉ fillEncoded tag := fun hmem => absurd (hchars _ hmem) (by decide)
    have hdecode : decodeBase64urlNopad (encodeBase64urlNopad tag) "key-possession proof"
        = .ok tag :=
      decodeBase64url_encode tag _ _ (by rw [hlen]; decide)
    rw [parse, hsplit]
    show (if _ then none else if _ then none else _) = _
    rw [if_neg (by simp [hne, hcolon]; decide), if_neg (by simp)]
    have htext : String.ofList (fillEncoded tag) = encodeBase64urlNopad tag := rfl
    rw [htext, hdecode]
    exact if_pos hlen
  · rw [if_neg hlen] at h
    cases h

theorem isMacText_tryNew {tag : Bytes} {proof : KeyPossessionProof} (h : tryNew tag = .ok proof) :
    isMacText proof.wire = true := by
  rw [tryNew] at h
  by_cases hlen : tag.length = 32
  · rw [if_pos hlen] at h
    obtain rfl := Except.ok.inj h
    have hne : tag ≠ [] := by
      rintro rfl
      cases hlen
    have htext : (algorithmPrefix ++ ":" ++ encodeBase64urlNopad tag).toList
        = "hmac-sha256:".toList ++ fillEncoded tag := by
      rw [String.toList_append, encodeBase64urlNopad, String.toList_ofList]
      rfl
    have hlength : (fillEncoded tag).length = 43 := by
      rw [fillEncoded_length, hlen]
      rfl
    have hshape := isB64urlChars_fillEncoded tag hne
    show isMacText (algorithmPrefix ++ ":" ++ encodeBase64urlNopad tag) = true
    have hprefix : "hmac-sha256:".toList.length = 12 := by decide
    rw [isMacText, htext, List.take_left' hprefix, List.drop_left' hprefix, hlength, hshape]
    rfl
  · rw [if_neg hlen] at h
    cases h

end KeyPossessionProof

/-- The signature of a document, with the signer's statement. -/
structure ArtifactSignature where
  alg : String
  kid : String
  signerPub : PublicKey
  mac : KeyPossessionProof
  sig : String
deriving DecidableEq, Repr

namespace ArtifactSignature

def toJson (s : ArtifactSignature) : Json :=
  .obj [("alg", .str s.alg), ("kid", .str s.kid), ("signer_pub", s.signerPub.toJson),
    ("mac", .str s.mac.wire), ("sig", .str s.sig)]

def schema : Schema :=
  .record [("alg", .text (· == signatureEd25519)), ("kid", .text isKidText),
      ("signer_pub", PublicKey.schema), ("mac", .text isMacText),
      ("sig", .text (isB64urlSized 86))]
    ["alg", "kid", "signer_pub", "mac", "sig"] true

def fromJson : Json → Option ArtifactSignature :=
  readRecord ["alg", "kid", "signer_pub", "mac", "sig"] fun look => do
    let alg ← textField "alg" look
    let kid ← textField "kid" look
    let signerPub ← field PublicKey.fromJson "signer_pub" look
    let macText ← textField "mac" look
    let mac ← KeyPossessionProof.parse macText
    let sig ← textField "sig" look
    pure { alg, kid, signerPub, mac, sig }

def wellFormed (s : ArtifactSignature) : Bool :=
  s.alg == signatureEd25519 && isKidText s.kid && s.signerPub.wellFormed && isMacText s.mac.wire
    && isB64urlSized 86 s.sig

/-- A signature is read back where its proof is. -/
theorem reads (s : ArtifactSignature) (h : KeyPossessionProof.parse s.mac.wire = some s.mac) :
    Reads toJson fromJson s := by
  have hpub := PublicKey.reads s.signerPub
  refine reads_record _ ["alg", "kid", "signer_pub", "mac", "sig"] rfl rfl (by decide)
    (by decide) ?_ ?_
  · simp [textField, field, member, asText, hpub.1, h]
  · simp [textField, field, member, asText, canonical, hpub.2, h]

theorem conforms_toJson (s : ArtifactSignature) : conforms schema s.toJson = s.wellFormed := by
  rw [schema, toJson, conforms_record (by simp)]
  show (s.alg == signatureEd25519 && (isKidText s.kid
    && (conforms PublicKey.schema s.signerPub.toJson && (isMacText s.mac.wire
    && (isB64urlSized 86 s.sig && true))))) = _
  rw [PublicKey.conforms_toJson, Bool.and_true, wellFormed]
  simp only [Bool.and_assoc]

end ArtifactSignature

/-! ## The file-enc document -/

/-- The authenticated header of a file payload. -/
structure FilePayloadHeader where
  format : String
  sid : Uuid
  alg : Algorithm
deriving DecidableEq

/-- The encrypted file payload. -/
structure FilePayloadCiphertext where
  nonce : String
  ct : String
deriving DecidableEq, Repr

structure FilePayload where
  protect : FilePayloadHeader
  encrypted : FilePayloadCiphertext
deriving DecidableEq

/-- The signed content of a file-enc document. -/
structure FileEncDocumentProtected where
  format : String
  sid : Uuid
  wrap : List WrapItem
  removedRecipients : Option (List RemovedRecipient)
  payload : FilePayload
  createdAt : String
  updatedAt : String
deriving DecidableEq

structure FileEncDocument where
  protect : FileEncDocumentProtected
  signature : ArtifactSignature
deriving DecidableEq

namespace FilePayloadHeader

def toJson (h : FilePayloadHeader) : Json :=
  .obj [("format", .str h.format), ("sid", .str h.sid.text), ("alg", h.alg.toJson)]

def schema : Schema :=
  .record [("format", .text (· == filePayloadV1)), ("sid", .text isUuidText),
      ("alg", Algorithm.schema)]
    ["format", "sid", "alg"] true

def fromJson : Json → Option FilePayloadHeader :=
  readRecord ["format", "sid", "alg"] fun look => do
    let format ← textField "format" look
    let sid ← field asUuid "sid" look
    let alg ← field Algorithm.fromJson "alg" look
    pure { format, sid, alg }

def wellFormed (h : FilePayloadHeader) : Bool :=
  h.format == filePayloadV1 && h.alg.wellFormed

theorem reads (h : FilePayloadHeader) : Reads toJson fromJson h := by
  have hsid := reads_uuid h.sid
  have halg := Algorithm.reads h.alg
  refine reads_record _ ["format", "sid", "alg"] rfl rfl (by decide) (by decide) ?_ ?_
  · simp [textField, field, member, asText, hsid.1, halg.1]
  · simp [textField, field, member, asText, canonical, hsid.1, halg.2]

theorem conforms_toJson (h : FilePayloadHeader) : conforms schema h.toJson = h.wellFormed := by
  rw [schema, toJson, conforms_record (by simp)]
  show (h.format == filePayloadV1 && (isUuidText h.sid.text
    && (conforms Algorithm.schema h.alg.toJson && true))) = _
  rw [h.sid.valid, Algorithm.conforms_toJson, Bool.and_true, Bool.true_and, wellFormed]

end FilePayloadHeader

namespace FilePayloadCiphertext

def toJson (c : FilePayloadCiphertext) : Json := .obj [("nonce", .str c.nonce), ("ct", .str c.ct)]

def schema : Schema :=
  .record [("nonce", .text (isB64urlSized 32)), ("ct", .text isB64urlText)] ["nonce", "ct"] true

def fromJson : Json → Option FilePayloadCiphertext :=
  readRecord ["nonce", "ct"] fun look => do
    let nonce ← textField "nonce" look
    let ct ← textField "ct" look
    pure { nonce, ct }

def wellFormed (c : FilePayloadCiphertext) : Bool := isB64urlSized 32 c.nonce && isB64urlText c.ct

theorem reads (c : FilePayloadCiphertext) : Reads toJson fromJson c :=
  reads_record _ ["nonce", "ct"] rfl rfl (by decide) (by decide) rfl rfl

theorem conforms_toJson (c : FilePayloadCiphertext) : conforms schema c.toJson = c.wellFormed := by
  rw [schema, toJson, conforms_record (by simp)]
  exact congrArg (isB64urlSized 32 c.nonce && ·) (Bool.and_true _)

end FilePayloadCiphertext

namespace FilePayload

def toJson (p : FilePayload) : Json :=
  .obj [("protected", p.protect.toJson), ("encrypted", p.encrypted.toJson)]

def schema : Schema :=
  .record [("protected", FilePayloadHeader.schema), ("encrypted", FilePayloadCiphertext.schema)]
    ["protected", "encrypted"] true

def fromJson : Json → Option FilePayload :=
  readRecord ["protected", "encrypted"] fun look => do
    let protect ← field FilePayloadHeader.fromJson "protected" look
    let encrypted ← field FilePayloadCiphertext.fromJson "encrypted" look
    pure { protect, encrypted }

def wellFormed (p : FilePayload) : Bool := p.protect.wellFormed && p.encrypted.wellFormed

theorem reads (p : FilePayload) : Reads toJson fromJson p := by
  have hprotected := FilePayloadHeader.reads p.protect
  have hencrypted := FilePayloadCiphertext.reads p.encrypted
  refine reads_record _ ["protected", "encrypted"] rfl rfl (by decide) (by decide) ?_ ?_
  · simp [field, member, hprotected.1, hencrypted.1]
  · simp [field, member, hprotected.2, hencrypted.2]

theorem conforms_toJson (p : FilePayload) : conforms schema p.toJson = p.wellFormed := by
  rw [schema, toJson, conforms_record (by simp)]
  show (conforms FilePayloadHeader.schema p.protect.toJson
    && (conforms FilePayloadCiphertext.schema p.encrypted.toJson && true)) = _
  rw [FilePayloadHeader.conforms_toJson, FilePayloadCiphertext.conforms_toJson, Bool.and_true,
    wellFormed]

end FilePayload

namespace FileEncDocumentProtected

/-- The handles of the wrap, in order. -/
def recipients (p : FileEncDocumentProtected) : List String :=
  p.wrap.map WrapItem.recipientHandle

def removedMembers (p : FileEncDocumentProtected) : List (String × Json) :=
  match p.removedRecipients with
  | none => []
  | some removed => [("removed_recipients", .arr (removed.map RemovedRecipient.toJson))]

def toJson (p : FileEncDocumentProtected) : Json :=
  .obj ([("format", .str p.format), ("sid", .str p.sid.text),
      ("wrap", .arr (p.wrap.map WrapItem.toJson))] ++ p.removedMembers
    ++ [("payload", p.payload.toJson), ("created_at", .str p.createdAt),
      ("updated_at", .str p.updatedAt)])

def properties : List (String × Schema) :=
  [("format", .text (· == fileEncV1)), ("sid", .text isUuidText),
    ("removed_recipients", .list RemovedRecipient.schema 0 none),
    ("payload", FilePayload.schema), ("wrap", .list WrapItem.schema 1 (some 1000)),
    ("created_at", .text isIso8601Text), ("updated_at", .text isIso8601Text)]

def requiredNames : List String :=
  ["format", "sid", "payload", "wrap", "created_at", "updated_at"]

def schema : Schema := .record properties requiredNames true

def fieldNames : List String :=
  ["format", "sid", "wrap", "removed_recipients", "payload", "created_at", "updated_at"]

def fromJson : Json → Option FileEncDocumentProtected :=
  readRecord fieldNames fun look => do
    let format ← textField "format" look
    let sid ← field asUuid "sid" look
    let wrap ← field (asList WrapItem.fromJson) "wrap" look
    let removedRecipients ← optionalField (asList RemovedRecipient.fromJson)
      "removed_recipients" look
    let payload ← field FilePayload.fromJson "payload" look
    let createdAt ← textField "created_at" look
    let updatedAt ← textField "updated_at" look
    pure { format, sid, wrap, removedRecipients, payload, createdAt, updatedAt }

theorem reads (p : FileEncDocumentProtected) : Reads toJson fromJson p := by
  obtain ⟨format, sid, wrap, removed, payload, createdAt, updatedAt⟩ := p
  have hsid := reads_uuid sid
  have hpayload := FilePayload.reads payload
  have hwrap := reads_list wrap fun x _ => WrapItem.reads x
  have hwrap' := hwrap.2
  rw [canonical] at hwrap'
  cases removed with
  | none =>
    refine reads_record _ ["format", "sid", "wrap", "payload", "created_at", "updated_at"] rfl
      rfl (by decide) (by decide) ?_ ?_
    · simp [textField, field, optionalField, member, asText, removedMembers, hsid.1, hwrap.1,
        hpayload.1]
    · simp [textField, field, optionalField, member, asText, removedMembers, canonical, hsid.1,
        hwrap', hpayload.2]
  | some removed =>
    have hremoved := reads_list removed fun x _ => RemovedRecipient.reads x
    have hremoved' := hremoved.2
    rw [canonical] at hremoved'
    refine reads_record _ fieldNames rfl rfl (by decide) (by decide) ?_ ?_
    · simp [textField, field, optionalField, member, asText, removedMembers, hsid.1, hwrap.1,
        hremoved.1, hpayload.1]
    · simp [textField, field, optionalField, member, asText, removedMembers, canonical, hsid.1,
        hwrap', hremoved', hpayload.2]

end FileEncDocumentProtected

namespace FileEncDocument

def toJson (d : FileEncDocument) : Json :=
  .obj [("protected", d.protect.toJson), ("signature", d.signature.toJson)]

def schema : Schema :=
  .record [("protected", FileEncDocumentProtected.schema), ("signature", ArtifactSignature.schema)]
    ["protected", "signature"] true

def fromJson : Json → Option FileEncDocument :=
  readRecord ["protected", "signature"] fun look => do
    let protect ← field FileEncDocumentProtected.fromJson "protected" look
    let signature ← field ArtifactSignature.fromJson "signature" look
    pure { protect, signature }

end FileEncDocument

end WireModel
