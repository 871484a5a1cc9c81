import Kapsaro.SignedArtifacts

/-!
# Trust records — the local trust store as it is stored

The signed document of a member's approvals, its JSON form, and the schema behind
`kapsaro_local_trust_schema.json`.

* **`KnownKey`** — one approved key statement. A stored record may carry members this version does
  not know; they are kept.
* **`RecipientSetRecord`** — the approved recipients of one artifact.
* **`TrustStoreProtected`**, **`TrustStoreDocument`** — the content, and the content with its
  signature.
* **`conforms_toJson`** — for each record, what the schema asks of it, as a predicate on its
  fields.
-/

namespace TrustRecords

open JsonText JsonMembers JsonRecords Limits TextLines Base64Codec WireTexts WireModel
open DocumentTokens Envelope

def localTrustV1 : String := "kapsaro:format:local-trust@1"
def hashDomainRecipientSetV1 : String := "kapsaro:hash:recipient-set@1"

/-! ## Optional members and lists -/

/-- The member of a field that is left out when it is absent. -/
def optionalMember {α : Type} (name : String) (write : α → Json) : Option α → List (String × Json)
  | none => []
  | some x => [(name, write x)]

/-- An optional member conforms when its value does. -/
theorem optionalMember_conforms {α : Type} (properties : List (String × Schema)) (closed : Bool)
    (name : String) (write : α → Json) (good : α → Bool) (value : Option α)
    (h : ∀ x, memberConforms properties closed name (write x) = good x) :
    (optionalMember name write value).all (fun m => memberConforms properties closed m.1 m.2)
      = value.all good := by
  cases value with
  | none => rfl
  | some x =>
    show (memberConforms properties closed name (write x) && true) = good x
    rw [h x, Bool.and_true]

/-- An unbounded list conforms when its elements do. -/
theorem conforms_unbounded {α : Type} {item : Schema} {write : α → Json} {good : α → Bool}
    (h : ∀ x, conforms item (write x) = good x) (xs : List α) :
    conforms (.list item 0 none) (.arr (xs.map write)) = xs.all good := by
  rw [conforms_list 0 none xs h]
  rfl

/-! ## Known keys -/

/-- How a key was approved. -/
inductive KnownKeyApprovalVia where
  | manualReview
deriving DecidableEq, Repr

def KnownKeyApprovalVia.display : KnownKeyApprovalVia → String
  | .manualReview => "manual-review"

/-- The GitHub account an approval recorded. -/
structure KnownKeyGithubAccount where
  id : Nat
  login : Option String
deriving DecidableEq, Repr

namespace KnownKeyGithubAccount

def toJson (g : KnownKeyGithubAccount) : Json :=
  .obj (("id", .num (.ofNat g.id)) :: optionalMember "login" Json.str g.login)

def properties : List (String × Schema) :=
  [("id", .integer 1 9007199254740991), ("login", .text (· ≠ ""))]

def schema : Schema := .record properties ["id"] true

def wellFormed (g : KnownKeyGithubAccount) : Bool :=
  decide (1 ≤ g.id ∧ g.id ≤ maxSafeInteger) && g.login.all (· ≠ "")

theorem conforms_toJson (g : KnownKeyGithubAccount) : conforms schema g.toJson = g.wellFormed := by
  have hid : memberConforms properties true "id" (.num (.ofNat g.id))
      = decide (1 ≤ g.id ∧ g.id ≤ maxSafeInteger) := by
    refine decide_eq_decide.mpr ?_
    rw [maxSafeInteger, Int.ofNat_eq_natCast]
    omega
  have hlogin := optionalMember_conforms properties true "login" Json.str
    (fun s => decide (s ≠ "")) g.login fun _ => rfl
  rw [schema, toJson, conforms_record, List.all_cons, hid, hlogin, wellFormed]
  intro name hname
  rw [List.mem_singleton.mp hname]
  exact List.mem_cons_self

end KnownKeyGithubAccount

/-- What was seen when a key was approved. -/
structure KnownKeyEvidence where
  githubAccount : Option KnownKeyGithubAccount
  sshAttestorPub : Option String
deriving DecidableEq, Repr

namespace KnownKeyEvidence

def toJson (e : KnownKeyEvidence) : Json :=
  .obj (optionalMember "github_account" KnownKeyGithubAccount.toJson e.githubAccount
    ++ optionalMember "ssh_attestor_pub" Json.str e.sshAttestorPub)

def properties : List (String × Schema) :=
  [("github_account", KnownKeyGithubAccount.schema), ("ssh_attestor_pub", .text (· ≠ ""))]

def schema : Schema := .record properties [] true

def wellFormed (e : KnownKeyEvidence) : Bool :=
  e.githubAccount.all KnownKeyGithubAccount.wellFormed && e.sshAttestorPub.all (· ≠ "")

theorem conforms_toJson (e : KnownKeyEvidence) : conforms schema e.toJson = e.wellFormed := by
  have haccount := optionalMember_conforms properties true "github_account"
    KnownKeyGithubAccount.toJson KnownKeyGithubAccount.wellFormed e.githubAccount
    KnownKeyGithubAccount.conforms_toJson
  have hattestor := optionalMember_conforms properties true "ssh_attestor_pub" Json.str
    (fun s => decide (s ≠ "")) e.sshAttestorPub fun _ => rfl
  rw [schema, toJson, conforms_record, List.all_append, haccount, hattestor, wellFormed]
  exact fun _ hname => by cases hname

end KnownKeyEvidence

/-- An approved key statement. `extra` holds the members of a stored record that have no field
    here. -/
structure KnownKey where
  kid : String
  subjectHandle : String
  approvedAt : String
  approvedVia : KnownKeyApprovalVia
  evidence : Option KnownKeyEvidence
  extra : List (String × Json)

namespace KnownKey

def toJson (k : KnownKey) : Json :=
  .obj ([("kid", .str k.kid), ("subject_handle", .str k.subjectHandle),
      ("approved_at", .str k.approvedAt), ("approved_via", .str k.approvedVia.display)]
    ++ optionalMember "evidence" KnownKeyEvidence.toJson k.evidence ++ k.extra)

def properties : List (String × Schema) :=
  [("kid", .text isKidText), ("subject_handle", .text isMemberHandleText),
    ("approved_at", .text isRfc3339UtcText), ("approved_via", .text (· == "manual-review")),
    ("evidence", KnownKeyEvidence.schema)]

def requiredNames : List String := ["kid", "subject_handle", "approved_at", "approved_via"]

def schema : Schema := .record properties requiredNames false

def wellFormed (k : KnownKey) : Bool :=
  isKidText k.kid && isMemberHandleText k.subjectHandle && isRfc3339UtcText k.approvedAt
    && k.evidence.all KnownKeyEvidence.wellFormed
    && k.extra.all fun m => memberConforms properties false m.1 m.2

theorem conforms_toJson (k : KnownKey) : conforms schema k.toJson = k.wellFormed := by
  have hhead : [("kid", Json.str k.kid), ("subject_handle", .str k.subjectHandle),
        ("approved_at", .str k.approvedAt), ("approved_via", .str k.approvedVia.display)].all
          (fun m => memberConforms properties false m.1 m.2)
      = (isKidText k.kid && isMemberHandleText k.subjectHandle
        && isRfc3339UtcText k.approvedAt) := by
    show (isKidText k.kid && (isMemberHandleText k.subjectHandle
      && (isRfc3339UtcText k.approvedAt
        && ((k.approvedVia.display == "manual-review") && true)))) = _
    cases k.approvedVia
    rw [show (KnownKeyApprovalVia.manualReview.display == "manual-review") = true from rfl,
      Bool.and_true, Bool.and_true, Bool.and_assoc]
  have hevidence := optionalMember_conforms properties false "evidence"
    KnownKeyEvidence.toJson KnownKeyEvidence.wellFormed k.evidence
    KnownKeyEvidence.conforms_toJson
  rw [schema, toJson, conforms_record, List.all_append, List.all_append, hhead, hevidence,
    wellFormed]
  intro name hname
  rw [requiredNames] at hname
  rw [List.append_assoc, List.map_append, List.mem_append]
  exact Or.inl hname

end KnownKey

/-! ## Recipient sets -/

/-- How a recipient set was approved. -/
inductive RecipientSetApprovalVia where
  | manualReview
deriving DecidableEq, Repr

def RecipientSetApprovalVia.display : RecipientSetApprovalVia → String
  | .manualReview => "manual-review"

/-- The handle under which a recipient was shown. -/
structure RecipientHandleHint where
  kid : String
  recipientHandle : String
deriving DecidableEq, Repr

namespace RecipientHandleHint

def toJson (h : RecipientHandleHint) : Json :=
  .obj [("kid", .str h.kid), ("recipient_handle", .str h.recipientHandle)]

def schema : Schema :=
  .record [("kid", .text isKidText), ("recipient_handle", .text isMemberHandleText)]
    ["kid", "recipient_handle"] true

def wellFormed (h : RecipientHandleHint) : Bool :=
  isKidText h.kid && isMemberHandleText h.recipientHandle

theorem conforms_toJson (h : RecipientHandleHint) : conforms schema h.toJson = h.wellFormed := by
  have hfields : conforms schema h.toJson
      = (isKidText h.kid && (isMemberHandleText h.recipientHandle && true)) := rfl
  rw [hfields, Bool.and_true, wellFormed]

end RecipientHandleHint

/-- The approved recipients of one artifact. -/
structure RecipientSetRecord where
  sid : String
  recipientKids : List String
  recipientSetHash : String
  approvedAt : String
  approvedVia : RecipientSetApprovalVia
  recipientHandleHints : Option (List RecipientHandleHint)
deriving DecidableEq, Repr

namespace RecipientSetRecord

def hintsToJson (hints : List RecipientHandleHint) : Json :=
  .arr (hints.map RecipientHandleHint.toJson)

def toJson (r : RecipientSetRecord) : Json :=
  .obj ([("sid", .str r.sid), ("recipient_kids", .arr (r.recipientKids.map Json.str)),
      ("recipient_set_hash", .str r.recipientSetHash), ("approved_at", .str r.approvedAt),
      ("approved_via", .str r.approvedVia.display)]
    ++ optionalMember "recipient_handle_hints" hintsToJson r.recipientHandleHints)

def properties : List (String × Schema) :=
  [("sid", .text isUuidText), ("recipient_kids", .list (.text isKidText) 0 none),
    ("recipient_set_hash", .text (isB64urlSized 43)), ("approved_at", .text isRfc3339UtcText),
    ("approved_via", .text (· == "manual-review")),
    ("recipient_handle_hints", .list RecipientHandleHint.schema 0 none)]

def requiredNames : List String :=
  ["sid", "recipient_kids", "recipient_set_hash", "approved_at", "approved_via"]

def schema : Schema := .record properties requiredNames true

def wellFormed (r : RecipientSetRecord) : Bool :=
  isUuidText r.sid && r.recipientKids.all isKidText && isB64urlSized 43 r.recipientSetHash
    && isRfc3339UtcText r.approvedAt
    && r.recipientHandleHints.all fun hints => hints.all RecipientHandleHint.wellFormed

theorem conforms_toJson (r : RecipientSetRecord) : conforms schema r.toJson = r.wellFormed := by
  have hkids : conforms (.list (.text isKidText) 0 none) (.arr (r.recipientKids.map Json.str))
      = r.recipientKids.all isKidText := conforms_unbounded (fun _ => rfl) r.recipientKids
  have hhead : [("sid", Json.str r.sid), ("recipient_kids", .arr (r.recipientKids.map Json.str)),
        ("recipient_set_hash", .str r.recipientSetHash), ("approved_at", .str r.approvedAt),
        ("approved_via", .str r.approvedVia.display)].all
          (fun m => memberConforms properties true m.1 m.2)
      = (isUuidText r.sid && r.recipientKids.all isKidText && isB64urlSized 43 r.recipientSetHash
        && isRfc3339UtcText r.approvedAt) := by
    show (isUuidText r.sid
      && (conforms (.list (.text isKidText) 0 none) (.arr (r.recipientKids.map Json.str))
        && (isB64urlSized 43 r.recipientSetHash && (isRfc3339UtcText r.approvedAt
          && ((r.approvedVia.display == "manual-review") && true))))) = _
    cases r.approvedVia
    rw [hkids,
      show (RecipientSetApprovalVia.manualReview.display == "manual-review") = true from rfl,
      Bool.and_true, Bool.and_true, Bool.and_assoc, Bool.and_assoc]
  have hhints := optionalMember_conforms properties true "recipient_handle_hints" hintsToJson
    (fun hints => hints.all RecipientHandleHint.wellFormed) r.recipientHandleHints
    fun hints => conforms_unbounded RecipientHandleHint.conforms_toJson hints
  rw [schema, toJson, conforms_record, List.all_append, hhead, hhints, wellFormed]
  intro name hname
  rw [requiredNames] at hname
  rw [List.map_append, List.mem_append]
  exact Or.inl hname

end RecipientSetRecord

/-! ## Documents -/

/-- The signed content of a trust store. -/
structure TrustStoreProtected where
  format : String
  ownerHandle : String
  createdAt : String
  updatedAt : String
  knownKeys : List KnownKey
  recipientSets : List RecipientSetRecord

namespace TrustStoreProtected

def toJson (p : TrustStoreProtected) : Json :=
  .obj [("format", .str p.format), ("owner_handle", .str p.ownerHandle),
    ("created_at", .str p.createdAt), ("updated_at", .str p.updatedAt),
    ("known_keys", .arr (p.knownKeys.map KnownKey.toJson)),
    ("recipient_sets", .arr (p.recipientSets.map RecipientSetRecord.toJson))]

def schema : Schema :=
  .record [("format", .text (· == localTrustV1)), ("owner_handle", .text isMemberHandleText),
      ("created_at", .text isRfc3339UtcText), ("updated_at", .text isRfc3339UtcText),
      ("known_keys", .list KnownKey.schema 0 none),
      ("recipient_sets", .list RecipientSetRecord.schema 0 none)]
    ["format", "owner_handle", "created_at", "updated_at", "known_keys", "recipient_sets"] true

def wellFormed (p : TrustStoreProtected) : Bool :=
  p.format == localTrustV1 && isMemberHandleText p.ownerHandle && isRfc3339UtcText p.createdAt
    && isRfc3339UtcText p.updatedAt && p.knownKeys.all KnownKey.wellFormed
    && p.recipientSets.all RecipientSetRecord.wellFormed

theorem conforms_toJson (p : TrustStoreProtected) : conforms schema p.toJson = p.wellFormed := by
  have hkeys := conforms_unbounded KnownKey.conforms_toJson p.knownKeys
  have hsets := conforms_unbounded RecipientSetRecord.conforms_toJson p.recipientSets
  have htexts : conforms schema p.toJson = (p.format == localTrustV1
      && (isMemberHandleText p.ownerHandle && (isRfc3339UtcText p.createdAt
        && (isRfc3339UtcText p.updatedAt
          && (conforms (.list KnownKey.schema 0 none) (.arr (p.knownKeys.map KnownKey.toJson))
            && (conforms (.list RecipientSetRecord.schema 0 none)
              (.arr (p.recipientSets.map RecipientSetRecord.toJson)) && true)))))) := rfl
  rw [htexts, hkeys, hsets, Bool.and_true, wellFormed]
  simp only [Bool.and_assoc]

end TrustStoreProtected

/-- The signature of a trust store. -/
structure TrustStoreSignature where
  alg : String
  kid : String
  sig : String
deriving DecidableEq, Repr

namespace TrustStoreSignature

def toJson (s : TrustStoreSignature) : Json :=
  .obj [("alg", .str s.alg), ("kid", .str s.kid), ("sig", .str s.sig)]

def schema : Schema :=
  .record [("alg", .text (· == signatureEd25519)), ("kid", .text isKidText),
      ("sig", .text (isB64urlSized 86))]
    ["alg", "kid", "sig"] true

def wellFormed (s : TrustStoreSignature) : Bool :=
  s.alg == signatureEd25519 && isKidText s.kid && isB64urlSized 86 s.sig

theorem conforms_toJson (s : TrustStoreSignature) : conforms schema s.toJson = s.wellFormed := by
  have hfields : conforms schema s.toJson = (s.alg == signatureEd25519
      && (isKidText s.kid && (isB64urlSized 86 s.sig && true))) := rfl
  rw [hfields, Bool.and_true, wellFormed, Bool.and_assoc]

end TrustStoreSignature

/-- A trust store with its signature. -/
structure TrustStoreDocument where
  protect : TrustStoreProtected
  signature : TrustStoreSignature

namespace TrustStoreDocument

def toJson (d : TrustStoreDocument) : Json :=
  .obj [("protected", d.protect.toJson), ("signature", d.signature.toJson)]

def schema : Schema :=
  .record [("protected", TrustStoreProtected.schema), ("signature", TrustStoreSignature.schema)]
    ["protected", "signature"] true

def wellFormed (d : TrustStoreDocument) : Bool :=
  d.protect.wellFormed && d.signature.wellFormed

theorem conforms_toJson (d : TrustStoreDocument) : conforms schema d.toJson = d.wellFormed := by
  have hparts : conforms schema d.toJson = (conforms TrustStoreProtected.schema d.protect.toJson
      && (conforms TrustStoreSignature.schema d.signature.toJson && true)) := rfl
  rw [hparts, TrustStoreProtected.conforms_toJson, TrustStoreSignature.conforms_toJson,
    Bool.and_true, wellFormed]

end TrustStoreDocument

end TrustRecords
