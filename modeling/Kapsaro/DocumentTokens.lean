import Kapsaro.WireModel

/-!
# Document tokens — JCS bytes, token codec, and schema-checked parsing

How a record becomes a token and a token a record: `format/jcs.rs`, `format/token/`,
`format/schema/document.rs` and `format/wrap.rs`.

* **`jcsText`**, **`encodeToken`** — canonical JSON, then base64url.
* **`parseJsonToken`** — size limit, base64url, JSON limits, JSON, schema, record.
* **`validateWrapItems`** — what a wrap list has to satisfy beyond its schema.
* **`parseJsonToken_encodeToken`** — a record that conforms and stays within the limits is
  parsed back from its token.
* **`parseJsonToken_ok`** — what acceptance of a token says about it.
-/

namespace DocumentTokens

open JsonText JsonMembers JsonRecords JsonLimits Limits TextLines Base64Codec WireTexts WireModel

variable {T : Type}

/-! ## JCS and the token codec -/

/-- The canonical text of a value, by JCS (RFC 8785): members sorted by the UTF-16 code units of
    their names, no white space, the short escapes. -/
def jcsText (v : Json) : String :=
  String.ofList (textAt false 0 (canonical v))

/-- The canonical bytes of a value, refused where a number is not a safe integer. -/
def jcsNormalize (v : Json) : Except Error Bytes :=
  if numbersWithin maxSafeInteger v then .ok (utf8 (jcsText v))
  else .error (formatParseError
    "JCS normalization failed: JSON integer exceeds the safe range")

/-- The token of a value. -/
def encodeToken (v : Json) : Except Error String :=
  (jcsNormalize v).map encodeBase64urlNopad

/-- The bytes of a token. -/
def decodeTokenBytes (token : String) : Except Error Bytes :=
  if token.toList.take 3 = "cb:".toList ∨ token.toList.take 3 = "cz:".toList then
    .error (formatParseError "CBOR tokens are not supported (use JSON/JCS tokens)")
  else decodeBase64urlNopadToken token "token"

/-! ## Schema-checked parsing -/

/-- A JSON value without duplicate member names and with safe integers only. -/
def parseJsonValue (bytes : Bytes) (sourceName kind : String) : Except Error Json :=
  match (utf8Decode bytes).bind fun text => parseJson text.toList with
  | none => .error (.parse s!"Failed to parse {kind} from {sourceName}")
  | some v =>
    if uniqueNames v && numbersWithin maxSafeInteger v then .ok v
    else .error (.parse s!"Failed to parse {kind} from {sourceName}")

/-- The schema error of a document, naming its source. -/
def schemaError (sourceName : String) : Error :=
  .schema s!"Invalid kapsaro document\nSource: {sourceName}"

/-- Schema check and conversion of a parsed value. -/
def readConforming (schema : Schema) (read : Json → Option T) (sourceName kind : String)
    (v : Json) : Except Error T :=
  if conforms schema v then
    match read v with
    | some x => .ok x
    | none => .error (.parse s!"Failed to deserialize {kind} from {sourceName}")
  else .error (schemaError sourceName)

/-- A JSON document. -/
def parseJsonDocumentBytes (schema : Schema) (read : Json → Option T) (sourceName kind : String)
    (bytes : Bytes) : Except Error T := do
  validateJsonLimits bytes
  let v ← parseJsonValue bytes sourceName kind
  readConforming schema read sourceName kind v

/-- A JSON token. -/
def parseJsonToken (schema : Schema) (read : Json → Option T) (tokenName sourceName : String)
    (token : String) : Except Error T := do
  let bytes ← decodeTokenBytes token
  parseJsonDocumentBytes schema read sourceName tokenName bytes

/-! ## Wrap items -/

/-- Why a text is no member handle. -/
def memberHandleError (id : String) : Error :=
  match id.toList with
  | [] => .invalidArgument "member_handle cannot be empty"
  | first :: rest =>
    if id.utf8ByteSize > maxMemberHandleLength then
      .invalidArgument
        s!"member_handle too long: {id.utf8ByteSize} chars (max {maxMemberHandleLength})"
    else if !first.isAlphanum then
      .invalidArgument s!"member_handle must start with alphanumeric: '{id}'"
    else
      let bad := (rest.find? fun c => !isHandleChar c).getD first
      .invalidArgument s!"invalid character '{bad}' in member_handle (only [A-Za-z0-9.@_+-])"

/-- Check a member handle. -/
def MemberHandle.tryFrom (id : String) : Except Error MemberHandle :=
  if h : isMemberHandleText id = true then .ok ⟨id, h⟩ else .error (memberHandleError id)

/-- Check a stored kid. -/
def Kid.fromCanonical (value : String) : Except Error Kid :=
  if h : isKidText value = true then .ok ⟨value, h⟩
  else .error (.invalidArgument
    "kid must be canonical: exactly 32 uppercase Crockford Base32 characters")

/-- Check one stored wrap entry against what the wire format allows. -/
def validateWrapItem (item : WrapItem) : Except Error Unit := do
  let _ ← MemberHandle.tryFrom item.recipientHandle
  let _ ← Kid.fromCanonical item.kid
  if item.alg ≠ hpkeAlgorithm then
    throw (.crypto s!"Unsupported HPKE algorithm: {item.alg} (expected: {hpkeAlgorithm})")
  let _ ← decodeBase64urlNopadArray 32 item.enc "enc"
  let _ ← decodeBase64urlNopadArray 48 item.ct "ct"
  pure ()

/-- Check the items in order; a handle may appear once. -/
def validateWrapItemsFrom (context : String) : List String → List WrapItem → Except Error Unit
  | _, [] => .ok ()
  | seen, item :: rest => do
    if item.recipientHandle ∈ seen then
      throw (.verify "E_DUPLICATE_RECIPIENT_HANDLE"
        s!"{context} contains duplicate rh '{item.recipientHandle}' in wrap")
    validateWrapItem item
    validateWrapItemsFrom context (item.recipientHandle :: seen) rest

/-- Check a wrap list against the shared structural constraints. -/
def validateWrapItems (items : List WrapItem) (context : String) : Except Error Unit := do
  validateWrapCount items.length context
  validateWrapItemsFrom context [] items

/-! ## Bind lemmas -/

/-- A sequence succeeds exactly when both parts do. -/
theorem bind_eq_ok {ε α β : Type} {x : Except ε α} {f : α → Except ε β} {b : β} :
    (x >>= f) = .ok b ↔ ∃ a, x = .ok a ∧ f a = .ok b := by
  cases x with
  | error e => exact ⟨nofun, fun ⟨_, h, _⟩ => by cases h⟩
  | ok a => exact ⟨fun h => ⟨a, rfl, h⟩, fun ⟨_, h, hf⟩ => Except.ok.inj h ▸ hf⟩

theorem map_eq_ok {ε α β : Type} {x : Except ε α} {f : α → β} {b : β} :
    x.map f = .ok b ↔ ∃ a, x = .ok a ∧ f a = b := by
  cases x with
  | error e => exact ⟨nofun, fun ⟨_, h, _⟩ => by cases h⟩
  | ok a => exact ⟨fun h => ⟨a, rfl, Except.ok.inj h⟩,
      fun ⟨_, h, hf⟩ => congrArg Except.ok (Except.ok.inj h ▸ hf)⟩

/-- A function of a sequence's result is one of its last part's. -/
theorem except_map_bind {α β γ : Type} {x : Except Error α} {f : α → Except Error β} {g : β → γ} :
    (x >>= f).map g = x >>= fun a => (f a).map g := by
  cases x with
  | error e => rfl
  | ok a => rfl

/-- A check that throws passes exactly when its condition is false. -/
theorem throwIf_ok {α : Type} {c : Prop} [Decidable c] {e : Error} {next : Unit → Except Error α}
    {a : α} :
    (if c then (throw e : Except Error Unit) >>= next else next ()) = .ok a
      ↔ ¬c ∧ next () = .ok a := by
  by_cases hc : c
  · rw [if_pos hc]
    exact ⟨nofun, fun h => absurd hc h.1⟩
  · rw [if_neg hc]
    exact ⟨fun h => ⟨hc, h⟩, fun h => h.2⟩

/-! ## Round trip -/

/-- The token text of a value. -/
def tokenText (v : Json) : String :=
  encodeBase64urlNopad (utf8 (jcsText v))

theorem encodeToken_eq {v : Json} (h : numbersWithin maxSafeInteger v = true) :
    encodeToken v = .ok (tokenText v) := by
  rw [encodeToken, jcsNormalize, if_pos h]
  rfl

/-- A token the encoder makes is not taken for an old CBOR token. -/
theorem decodeTokenBytes_tokenText (v : Json)
    (hsize : (tokenText v).utf8ByteSize ≤ maxBase64TokenLength) :
    decodeTokenBytes (tokenText v) = .ok (utf8 (jcsText v)) := by
  have hchars : ∀ c ∈ (tokenText v).toList, isBase64urlChar c = true := by
    rw [tokenText, encodeBase64urlNopad, String.toList_ofList]
    exact fillEncoded_chars _
  have hcolon : ∀ tail : List Char, ':' ∈ tail → (tokenText v).toList.take 3 ≠ tail := by
    intro tail htail heq
    have hmem : ':' ∈ (tokenText v).toList := List.mem_of_mem_take (heq ▸ htail)
    exact absurd (hchars _ hmem) (by decide)
  rw [decodeTokenBytes, if_neg (not_or.mpr ⟨hcolon _ (by decide), hcolon _ (by decide)⟩)]
  refine decodeBase64url_encode _ _ _ ?_
  rwa [tokenText, encodeBase64urlNopad_size] at hsize

/-- The JSON text of a value with distinct names and safe integers is read back, in the layout
    and member order it was written in. -/
theorem parseJsonValue_textAt (indented : Bool) (v : Json) (sourceName kind : String)
    (hnames : uniqueNames v = true) (hnumbers : numbersWithin maxSafeInteger v = true) :
    parseJsonValue (utf8 (String.ofList (textAt indented 0 v))) sourceName kind = .ok v := by
  rw [parseJsonValue, utf8Decode_utf8, Option.bind_some, String.toList_ofList,
    parseJson_textAt]
  exact if_pos (by rw [hnames, hnumbers]; rfl)

/-- What a record needs to be read back from its token. -/
structure Encodable (schema : Schema) (write : T → Json) (read : Json → Option T) (x : T) :
    Prop where
  reads : Reads write read x
  conforms : conforms schema (write x) = true
  names : uniqueNames (write x) = true
  numbers : numbersWithin maxSafeInteger (write x) = true
  depth : nesting (write x) ≤ maxJsonDepth

/-- **TOKEN ROUND TRIP**: a record that conforms to its schema is parsed back from its token as
    long as the token and the element count are within the limits. -/
theorem parseJsonToken_tokenText {schema : Schema} {write : T → Json} {read : Json → Option T}
    {x : T} (h : Encodable schema write read x) (tokenName sourceName : String)
    (hsize : (tokenText (write x)).utf8ByteSize ≤ maxBase64TokenLength)
    (helements : elementCount (write x) ≤ maxJsonElements) :
    parseJsonToken schema read tokenName sourceName (tokenText (write x)) = .ok x := by
  have hlimits : validateJsonLimits (utf8 (jcsText (write x))) = .ok () := by
    refine (validateJsonLimits_textAt false (canonical (write x))).mpr ⟨?_, ?_⟩
    · rw [elementCount_canonical]
      exact helements
    · rw [nesting_canonical]
      exact h.depth
  have hvalue : parseJsonValue (utf8 (jcsText (write x))) sourceName tokenName
      = .ok (canonical (write x)) := by
    refine parseJsonValue_textAt false (canonical (write x)) sourceName tokenName ?_ ?_
    · rw [uniqueNames_canonical]
      exact h.names
    · rw [numbersWithin_canonical]
      exact h.numbers
  have hconforms : conforms schema (canonical (write x)) = true := by
    rw [conforms_canonical]
    exact h.conforms
  refine bind_eq_ok.mpr ⟨_, decodeTokenBytes_tokenText (write x) hsize, ?_⟩
  refine bind_eq_ok.mpr ⟨(), hlimits, bind_eq_ok.mpr ⟨_, hvalue, ?_⟩⟩
  rw [readConforming, if_pos hconforms, h.reads.2]

/-- A document with too many elements is refused, whatever its schema. -/
theorem parseJsonDocumentBytes_elements {schema : Schema} {read : Json → Option T}
    {sourceName kind : String} {indented : Bool} {v : Json} {x : T}
    (h : parseJsonDocumentBytes schema read sourceName kind
      (utf8 (String.ofList (textAt indented 0 v))) = .ok x) :
    elementCount v ≤ maxJsonElements ∧ nesting v ≤ maxJsonDepth := by
  obtain ⟨_, hlimits, _⟩ := bind_eq_ok.mp h
  exact (validateJsonLimits_textAt indented v).mp hlimits

/-- What acceptance of a token says: its characters, its size, and that the record was read
    from a conforming value. -/
theorem parseJsonToken_ok {schema : Schema} {read : Json → Option T}
    {tokenName sourceName token : String} {x : T}
    (h : parseJsonToken schema read tokenName sourceName token = .ok x) :
    (token.utf8ByteSize ≤ maxBase64TokenLength ∧ ∀ c ∈ token.toList, isBase64urlChar c = true)
      ∧ ∃ v, conforms schema v = true ∧ read v = some x := by
  obtain ⟨bytes, hdecode, hdocument⟩ := bind_eq_ok.mp h
  obtain ⟨_, _, hdocument⟩ := bind_eq_ok.mp hdocument
  obtain ⟨v, _, hread⟩ := bind_eq_ok.mp hdocument
  constructor
  · rw [decodeTokenBytes] at hdecode
    split at hdecode
    · cases hdecode
    · exact isBase64urlChar_of_decode hdecode
  · rw [readConforming] at hread
    split at hread
    · rename_i hconforms
      refine ⟨v, hconforms, ?_⟩
      cases hx : read v with
      | none => rw [hx] at hread; cases hread
      | some y => rw [hx] at hread; exact congrArg some (Except.ok.inj hread)
    · cases hread

/-- **A TOKEN SAYS ONE THING**: whatever parses the token of a record has found that record,
    within the limits. -/
theorem eq_of_parseJsonToken_tokenText {schema : Schema} {write : T → Json}
    {read : Json → Option T} {x y : T} {tokenName sourceName : String}
    (hreads : Reads write read x) (hnames : uniqueNames (write x) = true)
    (hnumbers : numbersWithin maxSafeInteger (write x) = true)
    (hparse : parseJsonToken schema read tokenName sourceName (tokenText (write x)) = .ok y) :
    y = x ∧ (tokenText (write x)).utf8ByteSize ≤ maxBase64TokenLength
      ∧ elementCount (write x) ≤ maxJsonElements := by
  have hsize := (parseJsonToken_ok hparse).1.1
  obtain ⟨bytes, hdecode, hdocument⟩ := bind_eq_ok.mp hparse
  rw [decodeTokenBytes_tokenText _ hsize] at hdecode
  obtain rfl := Except.ok.inj hdecode
  have helements : elementCount (write x) ≤ maxJsonElements := by
    rw [← elementCount_canonical]
    exact (parseJsonDocumentBytes_elements hdocument).1
  obtain ⟨_, _, hdocument⟩ := bind_eq_ok.mp hdocument
  obtain ⟨v, hvalue, hread⟩ := bind_eq_ok.mp hdocument
  have hwritten : parseJsonValue (utf8 (jcsText (write x))) sourceName tokenName
      = .ok (canonical (write x)) := by
    refine parseJsonValue_textAt false (canonical (write x)) sourceName tokenName ?_ ?_
    · rw [uniqueNames_canonical]
      exact hnames
    · rw [numbersWithin_canonical]
      exact hnumbers
  rw [hwritten] at hvalue
  obtain rfl := Except.ok.inj hvalue
  rw [readConforming] at hread
  split at hread
  · rw [hreads.2] at hread
    exact ⟨(Except.ok.inj hread).symm, hsize, helements⟩
  · cases hread

/-- Records that are read back are determined by their canonical text. -/
theorem eq_of_jcsText {T : Type} {write : T → Json} {read : Json → Option T} {x y : T}
    (hx : Reads write read x) (hy : Reads write read y)
    (h : jcsText (write x) = jcsText (write y)) : x = y := by
  rw [jcsText, jcsText, ← String.toList_inj, String.toList_ofList, String.toList_ofList] at h
  have hvalue : canonical (write x) = canonical (write y) := textAt_injective false 0 h
  have hread := hx.2
  rw [hvalue, hy.2] at hread
  exact (Option.some.inj hread).symm

/-- The canonical text of an object determines its members. -/
theorem member_of_jcsText {members members' : List (String × Json)}
    (hnames : (members.map Prod.fst).Nodup) (hnames' : (members'.map Prod.fst).Nodup)
    (h : jcsText (.obj members) = jcsText (.obj members')) (name : String) :
    (member name members).map canonical = (member name members').map canonical := by
  rw [jcsText, jcsText, ← String.toList_inj, String.toList_ofList, String.toList_ofList] at h
  have hvalue : canonical (.obj members) = canonical (.obj members') :=
    textAt_injective false 0 h
  rw [canonical, canonical] at hvalue
  rw [← member_canonical name hnames, ← member_canonical name hnames', Json.obj.inj hvalue]

/-- Records that are read back are determined by their tokens. -/
theorem eq_of_tokenText {T : Type} {write : T → Json} {read : Json → Option T} {x y : T}
    (hx : Reads write read x) (hy : Reads write read y)
    (h : tokenText (write x) = tokenText (write y)) : x = y := by
  rw [tokenText, tokenText, encodeBase64urlNopad, encodeBase64urlNopad, ← String.toList_inj,
    String.toList_ofList, String.toList_ofList] at h
  have hbytes := decodeInto_fillEncoded "" (utf8 (jcsText (write x)))
  rw [h, decodeInto_fillEncoded] at hbytes
  exact eq_of_jcsText hx hy (utf8_injective (Except.ok.inj hbytes).symm)

/-- A token is never empty. -/
theorem tokenText_ne_empty (v : Json) : tokenText v ≠ "" := by
  intro h
  have hbytes : fillEncoded (utf8 (jcsText v)) = [] := by
    rw [tokenText, encodeBase64urlNopad, ← String.toList_inj, String.toList_ofList] at h
    exact h
  have htext : jcsText v = "" := utf8_injective (fillEncoded_eq_nil hbytes)
  have hparse := parseJson_textAt false 0 (canonical v)
  rw [jcsText, ← String.toList_inj, String.toList_ofList] at htext
  rw [htext] at hparse
  cases hparse

/-- A token has base64url characters only. -/
theorem tokenText_chars (v : Json) : ∀ c ∈ (tokenText v).toList, isBase64urlChar c = true := by
  rw [tokenText, encodeBase64urlNopad, String.toList_ofList]
  exact fillEncoded_chars _

/-- The empty token is no record. -/
theorem parseJsonToken_ne_empty {schema : Schema} {read : Json → Option T}
    {tokenName sourceName token : String} {x : T}
    (h : parseJsonToken schema read tokenName sourceName token = .ok x) : token ≠ "" := by
  rintro rfl
  obtain ⟨bytes, hdecode, hdocument⟩ := bind_eq_ok.mp h
  obtain ⟨_, _, hdocument⟩ := bind_eq_ok.mp hdocument
  obtain ⟨v, hvalue, _⟩ := bind_eq_ok.mp hdocument
  have hempty : decodeTokenBytes "" = .ok (utf8 "") := rfl
  rw [hempty] at hdecode
  obtain rfl := Except.ok.inj hdecode
  rw [parseJsonValue, utf8Decode_utf8] at hvalue
  cases hvalue

/-- The outcome of parsing a token does not depend on the names used in messages. -/
theorem parseJsonToken_names {schema : Schema} {read : Json → Option T}
    {tokenName sourceName token : String} {x : T} (tokenName' sourceName' : String)
    (h : parseJsonToken schema read tokenName sourceName token = .ok x) :
    parseJsonToken schema read tokenName' sourceName' token = .ok x := by
  obtain ⟨bytes, hdecode, hdocument⟩ := bind_eq_ok.mp h
  obtain ⟨_, hlimits, hdocument⟩ := bind_eq_ok.mp hdocument
  obtain ⟨v, hvalue, hread⟩ := bind_eq_ok.mp hdocument
  refine bind_eq_ok.mpr ⟨bytes, hdecode, bind_eq_ok.mpr ⟨(), hlimits, bind_eq_ok.mpr ⟨v, ?_, ?_⟩⟩⟩
  · rw [parseJsonValue] at hvalue ⊢
    split at hvalue
    · cases hvalue
    · split at hvalue
      · rename_i hgood
        rw [if_pos hgood]
        exact hvalue
      · cases hvalue
  · rw [readConforming] at hread ⊢
    split at hread
    · rename_i hconforms
      rw [if_pos hconforms]
      split at hread
      · exact hread
      · cases hread
    · cases hread

/-! ## Wrap items that pass -/

theorem MemberHandle.tryFrom_ok {id : String} (h : isMemberHandleText id = true) :
    MemberHandle.tryFrom id = .ok ⟨id, h⟩ :=
  dif_pos h

theorem Kid.fromCanonical_ok {value : String} (h : isKidText value = true) :
    Kid.fromCanonical value = .ok ⟨value, h⟩ :=
  dif_pos h

end DocumentTokens
