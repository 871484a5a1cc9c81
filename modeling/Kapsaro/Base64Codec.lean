import Kapsaro.Limits
import Kapsaro.TextLines

/-!
# Base64url codec — encoding without padding, and the strict decoder

The codec of `format/codec.rs` for the URL-safe alphabet. Bytes are cut into sextets with
division and remainder where the source shifts and masks.

* **`encodeBase64urlNopad`** — three bytes to four symbols, a ragged tail of one or two bytes
  to two or three.
* **`decodeBase64urlNopadWithLimit`** — refuses over-long input, padding, foreign characters,
  a length of 1 modulo 4, and non-zero unused tail bits.
* **`decodeBase64url_encode`** — what was encoded is decoded again.
* **`isBase64urlChar_of_decode`** — accepted text is made of the alphabet alone.
-/

namespace Base64Codec

open Limits TextLines

/-! ## Encoding -/

/-- The URL-safe alphabet, in the order of the values. -/
def urlSafeAlphabet : List Char :=
  "ABCDEFGHIJKLMNOPQRSTUVWXYZabcdefghijklmnopqrstuvwxyz0123456789-_".toList

/-- The symbol of a value below 64. -/
def symbol (value : Nat) : Char :=
  urlSafeAlphabet.getD value 'A'

/-- The symbols of a byte string. -/
def fillEncoded : Bytes → List Char
  | b0 :: b1 :: b2 :: rest =>
    symbol (b0.toNat / 4) :: symbol (b0.toNat % 4 * 16 + b1.toNat / 16)
      :: symbol (b1.toNat % 16 * 4 + b2.toNat / 64) :: symbol (b2.toNat % 64) :: fillEncoded rest
  | [b0, b1] =>
    [symbol (b0.toNat / 4), symbol (b0.toNat % 4 * 16 + b1.toNat / 16),
      symbol (b1.toNat % 16 * 4)]
  | [b0] => [symbol (b0.toNat / 4), symbol (b0.toNat % 4 * 16)]
  | [] => []

/-- Encode without padding, the only form the program emits. -/
def encodeBase64urlNopad (data : Bytes) : String :=
  String.ofList (fillEncoded data)

/-- The length of the encoding of `inputLen` bytes. -/
def computeEncodedLen (inputLen : Nat) : Nat :=
  inputLen / 3 * 4 + (match inputLen % 3 with
    | 0 => 0
    | 1 => 2
    | _ => 3)

/-! ## Decoding -/

/-- The value of a symbol. -/
def decodeSymbol (c : Char) : Option Nat :=
  if 'A'.toNat ≤ c.toNat ∧ c.toNat ≤ 'Z'.toNat then some (c.toNat - 'A'.toNat)
  else if 'a'.toNat ≤ c.toNat ∧ c.toNat ≤ 'z'.toNat then some (c.toNat - 'a'.toNat + 26)
  else if '0'.toNat ≤ c.toNat ∧ c.toNat ≤ '9'.toNat then some (c.toNat - '0'.toNat + 52)
  else if c = '-' then some 62
  else if c = '_' then some 63
  else none

/-- A character of the alphabet. -/
def isBase64urlChar (c : Char) : Bool :=
  c.isAlphanum || c == '-' || c == '_'

/-- A character Unicode counts as white space or as a control character. -/
def isWhitespaceOrControl (c : Char) : Bool :=
  let n := c.toNat
  decide (n ≤ 0x20) || decide (0x7F ≤ n ∧ n ≤ 0xA0) || n == 0x1680
    || decide (0x2000 ≤ n ∧ n ≤ 0x200A) || n == 0x2028 || n == 0x2029 || n == 0x202F
    || n == 0x205F || n == 0x3000

def invalidCharacterError (fieldName detail : String) : Error :=
  .parse s!"{fieldName} {detail}"

def invalidLengthError (fieldName detail : String) : Error :=
  .parse s!"{fieldName}: {detail}"

/-- Refuse white space and control characters. -/
def validateCommonInput (data : List Char) (fieldName : String) : Except Error Unit :=
  if data.any isWhitespaceOrControl then
    .error (invalidCharacterError fieldName "contains whitespace or control characters")
  else .ok ()

/-- Refuse padding and everything else outside the alphabet. -/
def validateBase64urlChars (data : List Char) (fieldName : String) : Except Error Unit :=
  if '=' ∈ data then
    .error (invalidCharacterError fieldName
      "contains padding ('='), which is not allowed in base64url")
  else if data.all isBase64urlChar then .ok ()
  else .error (invalidCharacterError fieldName
    "contains invalid characters (only A-Za-z0-9_- allowed in base64url)")

/-- The number of bytes a valid input decodes to. -/
def decodeBase64urlInputLen (data : List Char) (fieldName : String) : Except Error Nat := do
  validateCommonInput data fieldName
  validateBase64urlChars data fieldName
  if data.length % 4 = 1 then
    .error (invalidLengthError fieldName "Invalid base64url length (mod 4 must not be 1)")
  else
    .ok (data.length / 4 * 3 + (match data.length % 4 with
      | 2 => 1
      | 3 => 2
      | _ => 0))

def decodeSymbolChecked (c : Char) (fieldName : String) : Except Error Nat :=
  match decodeSymbol c with
  | some value => .ok value
  | none => .error (invalidCharacterError fieldName
      "contains characters outside the expected base64 alphabet")

/-- The unused low bits of the last symbol are zero. -/
def validateUnusedTailBits (value modulus : Nat) (fieldName : String) : Except Error Unit :=
  if value % modulus = 0 then .ok ()
  else .error (invalidCharacterError fieldName "contains non-zero unused base64 tail bits")

/-- Decode block by block, then the tail. -/
def decodeInto (fieldName : String) : List Char → Except Error Bytes
  | c0 :: c1 :: c2 :: c3 :: rest => do
    let a ← decodeSymbolChecked c0 fieldName
    let b ← decodeSymbolChecked c1 fieldName
    let c ← decodeSymbolChecked c2 fieldName
    let d ← decodeSymbolChecked c3 fieldName
    let more ← decodeInto fieldName rest
    .ok (UInt8.ofNat (a * 4 + b / 16) :: UInt8.ofNat (b % 16 * 16 + c / 4)
      :: UInt8.ofNat (c % 4 * 64 + d) :: more)
  | [c0, c1, c2] => do
    let a ← decodeSymbolChecked c0 fieldName
    let b ← decodeSymbolChecked c1 fieldName
    let c ← decodeSymbolChecked c2 fieldName
    validateUnusedTailBits c 4 fieldName
    .ok [UInt8.ofNat (a * 4 + b / 16), UInt8.ofNat (b % 16 * 16 + c / 4)]
  | [c0, c1] => do
    let a ← decodeSymbolChecked c0 fieldName
    let b ← decodeSymbolChecked c1 fieldName
    validateUnusedTailBits b 16 fieldName
    .ok [UInt8.ofNat (a * 4 + b / 16)]
  | [_] => .error (invalidLengthError fieldName "Invalid trailing base64 length")
  | [] => .ok []

/-- Decode a text of at most `maxLen` bytes. -/
def decodeBase64urlNopadWithLimit (data fieldName : String) (maxLen : Nat) :
    Except Error Bytes :=
  if data.utf8ByteSize > maxLen then
    .error (.parse
      s!"{fieldName} exceeds maximum base64url length ({data.utf8ByteSize} bytes > {maxLen} bytes)")
  else do
    let _ ← decodeBase64urlInputLen data.toList fieldName
    decodeInto fieldName data.toList

/-- Decode a ciphertext or key field. -/
def decodeBase64urlNopad (data fieldName : String) : Except Error Bytes :=
  decodeBase64urlNopadWithLimit data fieldName maxBase64CiphertextLength

/-- Decode a document token. -/
def decodeBase64urlNopadToken (data fieldName : String) : Except Error Bytes :=
  decodeBase64urlNopadWithLimit data fieldName maxBase64TokenLength

/-- Decode a field of exactly `n` bytes. -/
def decodeBase64urlNopadArray (n : Nat) (data fieldName : String) : Except Error Bytes := do
  let len ← decodeBase64urlInputLen data.toList fieldName
  if len ≠ n then .error (.crypto s!"Invalid {fieldName} length: expected {n}, got {len}")
  else decodeInto fieldName data.toList

/-! ## The alphabet -/

theorem decodeSymbol_symbol : ∀ value, value < 64 → decodeSymbol (symbol value) = some value := by
  decide +kernel

theorem isBase64urlChar_symbol : ∀ value, value < 64 → isBase64urlChar (symbol value) = true := by
  decide +kernel

/-- A character of the alphabet is neither white space nor a control character, and not
    padding. -/
theorem isBase64urlChar_plain {c : Char} (h : isBase64urlChar c = true) :
    isWhitespaceOrControl c = false ∧ c ≠ '=' := by
  have hrange : (48 ≤ c.toNat ∧ c.toNat ≤ 57) ∨ (65 ≤ c.toNat ∧ c.toNat ≤ 90)
      ∨ (97 ≤ c.toNat ∧ c.toNat ≤ 122) ∨ c.toNat = 45 ∨ c.toNat = 95 := by
    rw [isBase64urlChar, Bool.or_eq_true, Bool.or_eq_true, beq_iff_eq, beq_iff_eq,
      isAlphanum_iff_toNat] at h
    rcases h with (((h | h) | h) | rfl) | rfl
    · exact .inr (.inl h)
    · exact .inr (.inr (.inl h))
    · exact .inl h
    · exact .inr (.inr (.inr (.inl rfl)))
    · exact .inr (.inr (.inr (.inr rfl)))
  constructor
  · simp only [isWhitespaceOrControl, Bool.or_eq_false_iff, decide_eq_false_iff_not,
      beq_eq_false_iff_ne]
    omega
  · rintro rfl
    revert hrange
    decide

theorem fillEncoded_chars (data : Bytes) : ∀ c ∈ fillEncoded data, isBase64urlChar c = true := by
  have hbyte : ∀ b : UInt8, b.toNat < 256 := UInt8.toNat_lt
  induction data using fillEncoded.induct with
  | case1 b0 b1 b2 rest ih =>
    have h0 := hbyte b0
    have h1 := hbyte b1
    have h2 := hbyte b2
    intro c hc
    rw [fillEncoded] at hc
    simp only [List.mem_cons] at hc
    rcases hc with rfl | rfl | rfl | rfl | hrest
    · exact isBase64urlChar_symbol _ (by omega)
    · exact isBase64urlChar_symbol _ (by omega)
    · exact isBase64urlChar_symbol _ (by omega)
    · exact isBase64urlChar_symbol _ (by omega)
    · exact ih c hrest
  | case2 b0 b1 =>
    have h0 := hbyte b0
    have h1 := hbyte b1
    intro c hc
    rw [fillEncoded] at hc
    simp only [List.mem_cons, List.not_mem_nil, or_false] at hc
    rcases hc with rfl | rfl | rfl
    · exact isBase64urlChar_symbol _ (by omega)
    · exact isBase64urlChar_symbol _ (by omega)
    · exact isBase64urlChar_symbol _ (by omega)
  | case3 b0 =>
    have h0 := hbyte b0
    intro c hc
    rw [fillEncoded] at hc
    simp only [List.mem_cons, List.not_mem_nil, or_false] at hc
    rcases hc with rfl | rfl
    · exact isBase64urlChar_symbol _ (by omega)
    · exact isBase64urlChar_symbol _ (by omega)
  | case4 => exact fun c hc => by cases hc

/-- Only the empty byte string has an empty encoding. -/
theorem fillEncoded_eq_nil {data : Bytes} (h : fillEncoded data = []) : data = [] := by
  rcases data with _ | ⟨b0, _ | ⟨b1, _ | ⟨b2, rest⟩⟩⟩
  · rfl
  · cases h
  · cases h
  · cases h

theorem fillEncoded_length (data : Bytes) :
    (fillEncoded data).length = computeEncodedLen data.length := by
  induction data using fillEncoded.induct with
  | case1 b0 b1 b2 rest ih =>
    have hdiv : (rest.length + 1 + 1 + 1) / 3 = rest.length / 3 + 1 := by omega
    have hmod : (rest.length + 1 + 1 + 1) % 3 = rest.length % 3 := by omega
    simp only [fillEncoded, List.length_cons, ih, computeEncodedLen, hdiv, hmod]
    omega
  | case2 b0 b1 => simp [fillEncoded, computeEncodedLen]
  | case3 b0 => simp [fillEncoded, computeEncodedLen]
  | case4 => rfl

/-! ## Round trip -/

private theorem decodeSymbolChecked_symbol (fieldName : String) {value : Nat} (h : value < 64) :
    decodeSymbolChecked (symbol value) fieldName = .ok value := by
  rw [decodeSymbolChecked, decodeSymbol_symbol value h]

private theorem ofNat_eq (b : UInt8) {n : Nat} (h : n = b.toNat) : UInt8.ofNat n = b := by
  rw [h, UInt8.ofNat_toNat]

/-- The decoder undoes the encoder, block by block. -/
theorem decodeInto_fillEncoded (fieldName : String) (data : Bytes) :
    decodeInto fieldName (fillEncoded data) = .ok data := by
  have hbyte : ∀ b : UInt8, b.toNat < 256 := UInt8.toNat_lt
  induction data using fillEncoded.induct with
  | case1 b0 b1 b2 rest ih =>
    have h0 := hbyte b0
    have h1 := hbyte b1
    have h2 := hbyte b2
    simp only [fillEncoded, decodeInto]
    rw [decodeSymbolChecked_symbol _ (by omega), decodeSymbolChecked_symbol _ (by omega),
      decodeSymbolChecked_symbol _ (by omega), decodeSymbolChecked_symbol _ (by omega), ih]
    show Except.ok _ = Except.ok _
    rw [ofNat_eq b0 (by omega), ofNat_eq b1 (by omega), ofNat_eq b2 (by omega)]
  | case2 b0 b1 =>
    have h0 := hbyte b0
    have h1 := hbyte b1
    have htail : validateUnusedTailBits (b1.toNat % 16 * 4) 4 fieldName = .ok () :=
      if_pos (by omega)
    simp only [fillEncoded, decodeInto]
    rw [decodeSymbolChecked_symbol _ (by omega), decodeSymbolChecked_symbol _ (by omega),
      decodeSymbolChecked_symbol _ (by omega)]
    show (validateUnusedTailBits (b1.toNat % 16 * 4) 4 fieldName >>= fun _ => _) = _
    rw [htail]
    show Except.ok _ = Except.ok _
    rw [ofNat_eq b0 (by omega), ofNat_eq b1 (by omega)]
  | case3 b0 =>
    have h0 := hbyte b0
    have htail : validateUnusedTailBits (b0.toNat % 4 * 16) 16 fieldName = .ok () :=
      if_pos (by omega)
    simp only [fillEncoded, decodeInto]
    rw [decodeSymbolChecked_symbol _ (by omega), decodeSymbolChecked_symbol _ (by omega)]
    show (validateUnusedTailBits (b0.toNat % 4 * 16) 16 fieldName >>= fun _ => _) = _
    rw [htail]
    show Except.ok _ = Except.ok _
    rw [ofNat_eq b0 (by omega)]
  | case4 => rfl

/-- The length check accepts an encoding and computes the length of what was encoded. -/
theorem decodeBase64urlInputLen_fillEncoded (fieldName : String) (data : Bytes) :
    decodeBase64urlInputLen (fillEncoded data) fieldName = .ok data.length := by
  have hchars := fillEncoded_chars data
  have hspace : (fillEncoded data).any isWhitespaceOrControl = false := by
    rw [List.any_eq_false]
    intro c hc
    rw [(isBase64urlChar_plain (hchars c hc)).1]
    exact Bool.false_ne_true
  have hpad : '=' ∉ fillEncoded data := fun hmem => (isBase64urlChar_plain (hchars _ hmem)).2 rfl
  have hall : (fillEncoded data).all isBase64urlChar = true := List.all_eq_true.mpr hchars
  have hlen := fillEncoded_length data
  rw [decodeBase64urlInputLen, validateCommonInput, hspace, validateBase64urlChars, if_neg hpad,
    if_pos hall, hlen]
  have hcases : data.length % 3 = 0 ∨ data.length % 3 = 1 ∨ data.length % 3 = 2 := by omega
  show (if computeEncodedLen data.length % 4 = 1 then _ else _) = _
  unfold computeEncodedLen
  rcases hcases with h | h | h <;> rw [h]
  · have hmod : (data.length / 3 * 4 + 0) % 4 = 0 := by omega
    simp only [hmod]
    rw [if_neg (by decide)]
    exact congrArg Except.ok (by omega)
  · have hmod : (data.length / 3 * 4 + 2) % 4 = 2 := by omega
    simp only [hmod]
    rw [if_neg (by decide)]
    exact congrArg Except.ok (by omega)
  · have hmod : (data.length / 3 * 4 + 3) % 4 = 3 := by omega
    simp only [hmod]
    rw [if_neg (by decide)]
    exact congrArg Except.ok (by omega)

/-- The encoding is ASCII: as many bytes as symbols. -/
theorem encodeBase64urlNopad_size (data : Bytes) :
    (encodeBase64urlNopad data).utf8ByteSize = computeEncodedLen data.length := by
  have hascii : ∀ cs : List Char, (∀ c ∈ cs, isBase64urlChar c = true) →
      (cs.flatMap String.utf8EncodeChar).length = cs.length := by
    intro cs hcs
    induction cs with
    | nil => rfl
    | cons c cs ih =>
      have hsmall : c.val.toNat ≤ 127 := by
        have hc := hcs c List.mem_cons_self
        rw [isBase64urlChar, Bool.or_eq_true, Bool.or_eq_true, beq_iff_eq, beq_iff_eq,
          isAlphanum_iff_toNat] at hc
        rcases hc with (((h | h) | h) | rfl) | rfl
        · exact Nat.le_trans h.2 (by decide)
        · exact Nat.le_trans h.2 (by decide)
        · exact Nat.le_trans h.2 (by decide)
        · decide
        · decide
      have hone : (String.utf8EncodeChar c).length = 1 := by
        rw [String.utf8EncodeChar]
        simp only [hsmall, if_true]
        rfl
      rw [List.flatMap_cons, List.length_append, hone,
        ih fun d hd => hcs d (List.mem_cons_of_mem _ hd), List.length_cons, Nat.add_comm]
  rw [← utf8_length, utf8, encodeBase64urlNopad, String.toList_ofList,
    hascii _ (fillEncoded_chars data), fillEncoded_length]

/-- **ROUND TRIP**: an encoding within the limit decodes to what was encoded. -/
theorem decodeBase64url_encode (data : Bytes) (fieldName : String) (maxLen : Nat)
    (h : computeEncodedLen data.length ≤ maxLen) :
    decodeBase64urlNopadWithLimit (encodeBase64urlNopad data) fieldName maxLen = .ok data := by
  have hsize := encodeBase64urlNopad_size data
  rw [decodeBase64urlNopadWithLimit, if_neg (by omega), encodeBase64urlNopad,
    String.toList_ofList, decodeBase64urlInputLen_fillEncoded]
  exact decodeInto_fillEncoded fieldName data

/-- A fixed-size field decodes to what was encoded. -/
theorem decodeBase64urlArray_encode (data : Bytes) (fieldName : String) :
    decodeBase64urlNopadArray data.length (encodeBase64urlNopad data) fieldName = .ok data := by
  rw [decodeBase64urlNopadArray, encodeBase64urlNopad, String.toList_ofList,
    decodeBase64urlInputLen_fillEncoded]
  show (if data.length ≠ data.length then _ else _) = _
  rw [if_neg (not_not_intro rfl)]
  exact decodeInto_fillEncoded fieldName data

/-- What an encoding decodes to is what was encoded, where it decodes. -/
theorem decodeBase64url_encode_ok {data decoded : Bytes} {fieldName : String} {maxLen : Nat}
    (h : decodeBase64urlNopadWithLimit (encodeBase64urlNopad data) fieldName maxLen
      = .ok decoded) : decoded = data := by
  rw [decodeBase64urlNopadWithLimit] at h
  split at h
  · cases h
  · rw [encodeBase64urlNopad, String.toList_ofList, decodeBase64urlInputLen_fillEncoded] at h
    exact (Except.ok.inj ((decodeInto_fillEncoded fieldName data).symm.trans h)).symm

/-- The same for a fixed-size field. -/
theorem decodeBase64urlArray_encode_ok {n : Nat} {data decoded : Bytes} {fieldName : String}
    (h : decodeBase64urlNopadArray n (encodeBase64urlNopad data) fieldName = .ok decoded) :
    decoded = data := by
  rw [decodeBase64urlNopadArray, encodeBase64urlNopad, String.toList_ofList,
    decodeBase64urlInputLen_fillEncoded] at h
  have h : (if data.length ≠ n then
      .error (.crypto s!"Invalid {fieldName} length: expected {n}, got {data.length}")
      else decodeInto fieldName (fillEncoded data) : Except Error Bytes) = .ok decoded := h
  split at h
  · cases h
  · rw [decodeInto_fillEncoded] at h
    exact (Except.ok.inj h).symm

/-- **ENCODINGS ARE EQUAL ONLY FOR EQUAL BYTES.** -/
theorem encodeBase64urlNopad_injective {a b : Bytes}
    (h : encodeBase64urlNopad a = encodeBase64urlNopad b) : a = b := by
  have ha := decodeBase64urlArray_encode a ""
  rw [h] at ha
  exact decodeBase64urlArray_encode_ok ha

/-- An accepted input is made of the alphabet alone. -/
theorem isBase64urlChar_of_inputLen {data : List Char} {fieldName : String} {len : Nat}
    (h : decodeBase64urlInputLen data fieldName = .ok len) :
    ∀ c ∈ data, isBase64urlChar c = true := by
  rw [decodeBase64urlInputLen, validateCommonInput, validateBase64urlChars] at h
  by_cases hspace : data.any isWhitespaceOrControl = true
  · rw [if_pos hspace] at h
    cases h
  by_cases hpad : '=' ∈ data
  · rw [if_neg hspace, if_pos hpad] at h
    cases h
  by_cases hall : data.all isBase64urlChar = true
  · exact List.all_eq_true.mp hall
  · rw [if_neg hspace, if_neg hpad, if_neg hall] at h
    cases h

theorem isBase64urlChar_of_decode {data fieldName : String} {maxLen : Nat} {bytes : Bytes}
    (h : decodeBase64urlNopadWithLimit data fieldName maxLen = .ok bytes) :
    data.utf8ByteSize ≤ maxLen ∧ ∀ c ∈ data.toList, isBase64urlChar c = true := by
  rw [decodeBase64urlNopadWithLimit] at h
  by_cases hsize : data.utf8ByteSize > maxLen
  · rw [if_pos hsize] at h
    cases h
  · rw [if_neg hsize] at h
    refine ⟨Nat.le_of_not_lt hsize, ?_⟩
    cases hlen : decodeBase64urlInputLen data.toList fieldName with
    | error e => rw [hlen] at h; cases h
    | ok len => exact isBase64urlChar_of_inputLen hlen

end Base64Codec
