import Kapsaro.Envelope

/-!
# Base64 variants — both alphabets, and the secret-data codecs

The core of `format/codec.rs` for either alphabet, with the shifts and masks of the source, and the
public functions of `format/codec/base64_public.rs` and `format/codec/base64_secret.rs` on it.

* **`fillEncodedWith`**, **`decodeIntoWith`** — the two loops; **`decodeIntoWith_iff`**: the decoder
  accepts the encodings and nothing else, because a block of four symbols and the three bytes it
  decodes to determine each other, and a ragged tail leaves no bits over.
* **`fillEncoded_eq`**, **`decodeInto_eq`** — the codec of `Base64Codec` is the URL-safe case.
* **`decodeBase64Standard`** — the standard alphabet, where padding may follow;
  **`decodeBase64Standard_iff`**.
* **`codecLaws`** — each public function and each secret one, exactly.
-/

namespace Base64Variants

open Limits TextLines Base64Codec DocumentTokens Envelope

/-! ## Bits of a byte -/

/-- Moving bits down drops the low ones. -/
theorem toNat_shiftRight (x : UInt8) {k : UInt8} {m : Nat} (hk : k.toNat < 8)
    (hm : 2 ^ k.toNat = m) : (x >>> k).toNat = x.toNat / m := by
  rw [UInt8.toNat_shiftRight, Nat.mod_eq_of_lt hk, Nat.shiftRight_eq_div_pow, hm]

/-- A mask keeps the low bits. -/
theorem toNat_mask (x : UInt8) {mask : UInt8} {m : Nat} (k : Nat) (hm : 2 ^ k = m)
    (hmask : mask.toNat = 2 ^ k - 1) : (x &&& mask).toNat = x.toNat % m := by
  rw [UInt8.toNat_and, hmask, Nat.and_two_pow_sub_one_eq_mod, hm]

/-- Moving bits up loses none of them, when there is room. -/
theorem toNat_shiftLeft (x : UInt8) {k : UInt8} (m : Nat) (hk : k.toNat < 8)
    (hm : 2 ^ k.toNat = m) (hroom : x.toNat * m < 256) : (x <<< k).toNat = x.toNat * m := by
  rw [UInt8.toNat_shiftLeft, Nat.mod_eq_of_lt hk, Nat.shiftLeft_eq, hm, Nat.mod_eq_of_lt hroom]

/-- Bits put into the room below others add up. -/
theorem toNat_join (high low : UInt8) {k : UInt8} (m : Nat) (hk : k.toNat < 8)
    (hm : 2 ^ k.toNat = m) (hroom : high.toNat * m < 256) (hlow : low.toNat < m) :
    (high <<< k ||| low).toNat = high.toNat * m + low.toNat := by
  rw [UInt8.toNat_or, toNat_shiftLeft high m hk hm hroom, ← hm, ← Nat.shiftLeft_eq,
    Nat.shiftLeft_add_eq_or_of_lt (hm ▸ hlow)]

theorem toNat_and_0x03 (x : UInt8) : (x &&& 0x03).toNat = x.toNat % 4 :=
  toNat_mask x 2 rfl rfl

theorem toNat_and_0x0f (x : UInt8) : (x &&& 0x0f).toNat = x.toNat % 16 :=
  toNat_mask x 4 rfl rfl

theorem toNat_shiftRight_2 (x : UInt8) : (x >>> 2).toNat = x.toNat / 4 :=
  toNat_shiftRight x (by decide) rfl

theorem toNat_shiftRight_4 (x : UInt8) : (x >>> 4).toNat = x.toNat / 16 :=
  toNat_shiftRight x (by decide) rfl

theorem toNat_shiftRight_6 (x : UInt8) : (x >>> 6).toNat = x.toNat / 64 :=
  toNat_shiftRight x (by decide) rfl

/-- The second sextet: the rest of one byte above the top of the next. -/
theorem cut_second (b0 b1 : UInt8) :
    ((b0 &&& 0x03) <<< 4 ||| b1 >>> 4).toNat = b0.toNat % 4 * 16 + b1.toNat / 16 := by
  have hhigh := toNat_and_0x03 b0
  have hlow := toNat_shiftRight_4 b1
  have hbyte := b1.toNat_lt
  rw [toNat_join _ _ 16 (by decide) rfl (by omega) (by omega), hhigh, hlow]

theorem cut_third (b1 b2 : UInt8) :
    ((b1 &&& 0x0f) <<< 2 ||| b2 >>> 6).toNat = b1.toNat % 16 * 4 + b2.toNat / 64 := by
  have hhigh := toNat_and_0x0f b1
  have hlow := toNat_shiftRight_6 b2
  have hbyte := b2.toNat_lt
  rw [toNat_join _ _ 4 (by decide) rfl (by omega) (by omega), hhigh, hlow]

theorem cut_fourth (b2 : UInt8) : (b2 &&& 0x3f).toNat = b2.toNat % 64 :=
  toNat_mask b2 6 rfl rfl

/-- The last sextet of a ragged tail: what is left of its byte, above zero bits. -/
theorem cut_tailOne (b0 : UInt8) : ((b0 &&& 0x03) <<< 4).toNat = b0.toNat % 4 * 16 := by
  have hhigh := toNat_and_0x03 b0
  rw [toNat_shiftLeft _ 16 (by decide) rfl (by omega), hhigh]

theorem cut_tailTwo (b1 : UInt8) : ((b1 &&& 0x0f) <<< 2).toNat = b1.toNat % 16 * 4 := by
  have hhigh := toNat_and_0x0f b1
  rw [toNat_shiftLeft _ 4 (by decide) rfl (by omega), hhigh]

/-- The first byte of a block: a sextet, and the top of the next. -/
theorem join_first {a b : UInt8} (ha : a.toNat < 64) (hb : b.toNat < 64) :
    (a <<< 2 ||| b >>> 4).toNat = a.toNat * 4 + b.toNat / 16 := by
  have hlow := toNat_shiftRight_4 b
  rw [toNat_join _ _ 4 (by decide) rfl (by omega) (by omega), hlow]

theorem join_second {c : UInt8} (b : UInt8) (hc : c.toNat < 64) :
    ((b &&& 0x0f) <<< 4 ||| c >>> 2).toNat = b.toNat % 16 * 16 + c.toNat / 4 := by
  have hhigh := toNat_and_0x0f b
  have hlow := toNat_shiftRight_2 c
  rw [toNat_join _ _ 16 (by decide) rfl (by omega) (by omega), hhigh, hlow]

theorem join_third {d : UInt8} (c : UInt8) (hd : d.toNat < 64) :
    ((c &&& 0x03) <<< 6 ||| d).toNat = c.toNat % 4 * 64 + d.toNat := by
  have hhigh := toNat_and_0x03 c
  rw [toNat_join _ _ 64 (by decide) rfl (by omega) hd, hhigh]

/-- Numbers below 256 are bytes. -/
theorem eq_of_toNat {x y : UInt8} (h : x.toNat = y.toNat) : x = y :=
  UInt8.toNat_inj.mp h

/-! ## Encoding -/

/-- The alphabets: they differ in the last two symbols. -/
inductive Base64Variant where
  | standard
  | urlSafe
deriving DecidableEq, Repr

def standardAlphabet : List Char :=
  "ABCDEFGHIJKLMNOPQRSTUVWXYZabcdefghijklmnopqrstuvwxyz0123456789+/".toList

/-- The symbols of a variant, in the order of the values. -/
def Base64Variant.alphabet : Base64Variant → List Char
  | .standard => standardAlphabet
  | .urlSafe => urlSafeAlphabet

/-- `alphabet[value]`; a value below 64 is always in range. -/
def symbolAt (alphabet : List Char) (value : UInt8) : Char :=
  alphabet.getD value.toNat 'A'

def encodeFullBlock (b0 b1 b2 : UInt8) (alphabet : List Char) : List Char :=
  [symbolAt alphabet (b0 >>> 2), symbolAt alphabet ((b0 &&& 0x03) <<< 4 ||| b1 >>> 4),
    symbolAt alphabet ((b1 &&& 0x0f) <<< 2 ||| b2 >>> 6), symbolAt alphabet (b2 &&& 0x3f)]

def encodeTailOne (b0 : UInt8) (alphabet : List Char) : List Char :=
  [symbolAt alphabet (b0 >>> 2), symbolAt alphabet ((b0 &&& 0x03) <<< 4)]

def encodeTailTwo (b0 b1 : UInt8) (alphabet : List Char) : List Char :=
  [symbolAt alphabet (b0 >>> 2), symbolAt alphabet ((b0 &&& 0x03) <<< 4 ||| b1 >>> 4),
    symbolAt alphabet ((b1 &&& 0x0f) <<< 2)]

/-- The symbols of a byte string: full blocks, then the tail. -/
def fillEncodedWith (alphabet : List Char) : Bytes → List Char
  | b0 :: b1 :: b2 :: rest => encodeFullBlock b0 b1 b2 alphabet ++ fillEncodedWith alphabet rest
  | [b0, b1] => encodeTailTwo b0 b1 alphabet
  | [b0] => encodeTailOne b0 alphabet
  | [] => []

/-! ## Decoding -/

/-- The value of a symbol. -/
def decodeSymbolOf (variant : Base64Variant) (c : Char) : Option UInt8 :=
  if 'A'.toNat ≤ c.toNat ∧ c.toNat ≤ 'Z'.toNat then some (UInt8.ofNat (c.toNat - 'A'.toNat))
  else if 'a'.toNat ≤ c.toNat ∧ c.toNat ≤ 'z'.toNat then
    some (UInt8.ofNat (c.toNat - 'a'.toNat + 26))
  else if '0'.toNat ≤ c.toNat ∧ c.toNat ≤ '9'.toNat then
    some (UInt8.ofNat (c.toNat - '0'.toNat + 52))
  else if c = '+' ∧ variant = .standard then some 62
  else if c = '/' ∧ variant = .standard then some 63
  else if c = '-' ∧ variant = .urlSafe then some 62
  else if c = '_' ∧ variant = .urlSafe then some 63
  else none

def decodeSymbolCheckedOf (variant : Base64Variant) (c : Char) (fieldName : String) :
    Except Error UInt8 :=
  match decodeSymbolOf variant c with
  | some value => .ok value
  | none => .error (invalidCharacterError fieldName
      "contains characters outside the expected base64 alphabet")

def validateUnusedTailMask (value mask : UInt8) (fieldName : String) : Except Error Unit :=
  if value &&& mask = 0 then .ok ()
  else .error (invalidCharacterError fieldName "contains non-zero unused base64 tail bits")

def decodeFullBlock (c0 c1 c2 c3 : Char) (variant : Base64Variant) (fieldName : String) :
    Except Error Bytes := do
  let a ← decodeSymbolCheckedOf variant c0 fieldName
  let b ← decodeSymbolCheckedOf variant c1 fieldName
  let c ← decodeSymbolCheckedOf variant c2 fieldName
  let d ← decodeSymbolCheckedOf variant c3 fieldName
  pure [a <<< 2 ||| b >>> 4, (b &&& 0x0f) <<< 4 ||| c >>> 2, (c &&& 0x03) <<< 6 ||| d]

/-- The symbols after the last full block. -/
def decodeTail (variant : Base64Variant) (fieldName : String) : List Char → Except Error Bytes
  | [] => .ok []
  | [c0, c1] => do
    let a ← decodeSymbolCheckedOf variant c0 fieldName
    let b ← decodeSymbolCheckedOf variant c1 fieldName
    validateUnusedTailMask b 0x0f fieldName
    pure [a <<< 2 ||| b >>> 4]
  | [c0, c1, c2] => do
    let a ← decodeSymbolCheckedOf variant c0 fieldName
    let b ← decodeSymbolCheckedOf variant c1 fieldName
    let c ← decodeSymbolCheckedOf variant c2 fieldName
    validateUnusedTailMask c 0x03 fieldName
    pure [a <<< 2 ||| b >>> 4, (b &&& 0x0f) <<< 4 ||| c >>> 2]
  | _ => .error (invalidLengthError fieldName "Invalid trailing base64 length")

/-- Decode block by block, then the tail. -/
def decodeIntoWith (variant : Base64Variant) (fieldName : String) :
    List Char → Except Error Bytes
  | c0 :: c1 :: c2 :: c3 :: rest => do
    let block ← decodeFullBlock c0 c1 c2 c3 variant fieldName
    let more ← decodeIntoWith variant fieldName rest
    pure (block ++ more)
  | [c0, c1, c2] => decodeTail variant fieldName [c0, c1, c2]
  | [c0, c1] => decodeTail variant fieldName [c0, c1]
  | [c0] => decodeTail variant fieldName [c0]
  | [] => decodeTail variant fieldName []

/-! ## Symbols and values -/

/-- Every value has a symbol, which has that value. -/
theorem decodeSymbolOf_symbolAt (variant : Base64Variant) {value : UInt8}
    (h : value.toNat < 64) :
    decodeSymbolOf variant (symbolAt variant.alphabet value) = some value := by
  have hall : ∀ variant : Base64Variant, ∀ n < 64,
      decodeSymbolOf variant (variant.alphabet.getD n 'A') = some (UInt8.ofNat n) := by
    intro variant
    cases variant
    · decide +kernel
    · decide +kernel
  have hvalue := hall variant value.toNat h
  rw [UInt8.ofNat_toNat] at hvalue
  exact hvalue

/-- Only characters below 128 are symbols. -/
theorem toNat_of_decodeSymbolOf {variant : Base64Variant} {c : Char} {value : UInt8}
    (h : decodeSymbolOf variant c = some value) : c.toNat < 128 := by
  by_contra hbig
  have hupper : ¬ ('A'.toNat ≤ c.toNat ∧ c.toNat ≤ 'Z'.toNat) := fun hrange =>
    hbig (Nat.lt_of_le_of_lt hrange.2 (by decide))
  have hlower : ¬ ('a'.toNat ≤ c.toNat ∧ c.toNat ≤ 'z'.toNat) := fun hrange =>
    hbig (Nat.lt_of_le_of_lt hrange.2 (by decide))
  have hdigit : ¬ ('0'.toNat ≤ c.toNat ∧ c.toNat ≤ '9'.toNat) := fun hrange =>
    hbig (Nat.lt_of_le_of_lt hrange.2 (by decide))
  have hother : ∀ d : Char, d.toNat < 128 → ∀ v, ¬ (c = d ∧ variant = v) := by
    rintro d hd v ⟨rfl, _⟩
    exact hbig hd
  rw [decodeSymbolOf, if_neg hupper, if_neg hlower, if_neg hdigit,
    if_neg (hother '+' (by decide) _), if_neg (hother '/' (by decide) _),
    if_neg (hother '-' (by decide) _), if_neg (hother '_' (by decide) _)] at h
  cases h

/-- A symbol's value is below 64, and has that symbol. -/
theorem symbolAt_of_decodeSymbolOf {variant : Base64Variant} {c : Char} {value : UInt8}
    (h : decodeSymbolOf variant c = some value) :
    value.toNat < 64 ∧ symbolAt variant.alphabet value = c := by
  have hall : ∀ variant : Base64Variant, ∀ n < 128,
      ∀ value ∈ decodeSymbolOf variant (Char.ofNat n),
        value.toNat < 64 ∧ variant.alphabet.getD value.toNat 'A' = Char.ofNat n := by
    intro variant
    cases variant
    · decide +kernel
    · decide +kernel
  have hc := hall variant c.toNat (toNat_of_decodeSymbolOf h) value
  rw [Char.ofNat_toNat] at hc
  exact hc h

theorem decodeSymbolCheckedOf_ok {variant : Base64Variant} {c : Char} {fieldName : String}
    {value : UInt8} : decodeSymbolCheckedOf variant c fieldName = .ok value
      ↔ value.toNat < 64 ∧ c = symbolAt variant.alphabet value := by
  rw [decodeSymbolCheckedOf]
  constructor
  · intro h
    cases hvalue : decodeSymbolOf variant c with
    | none =>
      rw [hvalue] at h
      cases h
    | some found =>
      rw [hvalue] at h
      obtain rfl := Except.ok.inj h
      exact ⟨(symbolAt_of_decodeSymbolOf hvalue).1, (symbolAt_of_decodeSymbolOf hvalue).2.symm⟩
  · rintro ⟨hlt, rfl⟩
    rw [decodeSymbolOf_symbolAt variant hlt]

theorem validateUnusedTailMask_ok {value mask : UInt8} {fieldName : String} :
    validateUnusedTailMask value mask fieldName = .ok () ↔ value &&& mask = 0 := by
  rw [validateUnusedTailMask]
  by_cases hzero : value &&& mask = 0
  · rw [if_pos hzero]
    exact iff_of_true rfl hzero
  · rw [if_neg hzero]
    exact iff_of_false (fun h => by cases h) hzero

/-! ## Blocks and tails -/

/-- **A BLOCK DECODES EXACTLY WHEN IT IS ONE**: four symbols, and the three bytes they come from. -/
theorem decodeFullBlock_ok {c0 c1 c2 c3 : Char} {variant : Base64Variant} {fieldName : String}
    {data : Bytes} : decodeFullBlock c0 c1 c2 c3 variant fieldName = .ok data
      ↔ ∃ b0 b1 b2, data = [b0, b1, b2]
        ∧ [c0, c1, c2, c3] = encodeFullBlock b0 b1 b2 variant.alphabet := by
  rw [decodeFullBlock]
  constructor
  · intro h
    obtain ⟨a, hsymA, h⟩ := bind_eq_ok.mp h
    obtain ⟨b, hsymB, h⟩ := bind_eq_ok.mp h
    obtain ⟨c, hsymC, h⟩ := bind_eq_ok.mp h
    obtain ⟨d, hsymD, hresult⟩ := bind_eq_ok.mp h
    obtain ⟨ha, rfl⟩ := decodeSymbolCheckedOf_ok.mp hsymA
    obtain ⟨hb, rfl⟩ := decodeSymbolCheckedOf_ok.mp hsymB
    obtain ⟨hc, rfl⟩ := decodeSymbolCheckedOf_ok.mp hsymC
    obtain ⟨hd, rfl⟩ := decodeSymbolCheckedOf_ok.mp hsymD
    refine ⟨_, _, _, (Except.ok.inj hresult).symm, ?_⟩
    have h0 := join_first ha hb
    have h1 := join_second b hc
    have h2 := join_third c hd
    have hfirst : (a <<< 2 ||| b >>> 4) >>> 2 = a := eq_of_toNat (by
      rw [toNat_shiftRight_2]
      omega)
    have hsecond : ((a <<< 2 ||| b >>> 4) &&& 0x03) <<< 4
        ||| ((b &&& 0x0f) <<< 4 ||| c >>> 2) >>> 4 = b := eq_of_toNat (by
      rw [cut_second]
      omega)
    have hthird : (((b &&& 0x0f) <<< 4 ||| c >>> 2) &&& 0x0f) <<< 2
        ||| ((c &&& 0x03) <<< 6 ||| d) >>> 6 = c := eq_of_toNat (by
      rw [cut_third]
      omega)
    have hfourth : ((c &&& 0x03) <<< 6 ||| d) &&& 0x3f = d := eq_of_toNat (by
      rw [cut_fourth]
      omega)
    rw [encodeFullBlock, hfirst, hsecond, hthird, hfourth]
  -- Conversely three bytes give four symbols, and each byte comes back from two of them.
  · rintro ⟨b0, b1, b2, rfl, hcs⟩
    rw [encodeFullBlock] at hcs
    simp only [List.cons.injEq, and_true] at hcs
    obtain ⟨rfl, rfl, rfl, rfl⟩ := hcs
    have hbyte : ∀ b : UInt8, b.toNat < 256 := UInt8.toNat_lt
    have h0 := hbyte b0
    have h1 := hbyte b1
    have h2 := hbyte b2
    have hfirst := toNat_shiftRight_2 b0
    have hsecond := cut_second b0 b1
    have hthird := cut_third b1 b2
    have hfourth := cut_fourth b2
    refine bind_eq_ok.mpr ⟨_, decodeSymbolCheckedOf_ok.mpr ⟨by omega, rfl⟩, ?_⟩
    refine bind_eq_ok.mpr ⟨_, decodeSymbolCheckedOf_ok.mpr ⟨by omega, rfl⟩, ?_⟩
    refine bind_eq_ok.mpr ⟨_, decodeSymbolCheckedOf_ok.mpr ⟨by omega, rfl⟩, ?_⟩
    refine bind_eq_ok.mpr ⟨_, decodeSymbolCheckedOf_ok.mpr ⟨by omega, rfl⟩, ?_⟩
    show Except.ok [_, _, _] = Except.ok [_, _, _]
    congr 2
    · exact eq_of_toNat (by
        rw [join_first (by omega) (by omega)]
        omega)
    congr 1
    · exact eq_of_toNat (by
        rw [join_second _ (by omega)]
        omega)
    congr 1
    · exact eq_of_toNat (by
        rw [join_third _ (by omega)]
        omega)

/-- A tail of two symbols decodes exactly when it encodes one byte. -/
theorem decodeTail_two {c0 c1 : Char} {variant : Base64Variant} {fieldName : String}
    {data : Bytes} : decodeTail variant fieldName [c0, c1] = .ok data
      ↔ ∃ b0, data = [b0] ∧ [c0, c1] = encodeTailOne b0 variant.alphabet := by
  rw [decodeTail]
  constructor
  · intro h
    obtain ⟨a, hsymA, h⟩ := bind_eq_ok.mp h
    obtain ⟨b, hsymB, h⟩ := bind_eq_ok.mp h
    obtain ⟨⟨⟩, htail, hresult⟩ := bind_eq_ok.mp h
    obtain ⟨ha, rfl⟩ := decodeSymbolCheckedOf_ok.mp hsymA
    obtain ⟨hb, rfl⟩ := decodeSymbolCheckedOf_ok.mp hsymB
    refine ⟨_, (Except.ok.inj hresult).symm, ?_⟩
    have hzero : b.toNat % 16 = 0 := by
      rw [← toNat_and_0x0f, validateUnusedTailMask_ok.mp htail]
      rfl
    have h0 := join_first ha hb
    have hfirst : (a <<< 2 ||| b >>> 4) >>> 2 = a := eq_of_toNat (by
      rw [toNat_shiftRight_2]
      omega)
    have hsecond : ((a <<< 2 ||| b >>> 4) &&& 0x03) <<< 4 = b := eq_of_toNat (by
      rw [cut_tailOne]
      omega)
    rw [encodeTailOne, hfirst, hsecond]
  · rintro ⟨b0, rfl, hcs⟩
    rw [encodeTailOne] at hcs
    simp only [List.cons.injEq, and_true] at hcs
    obtain ⟨rfl, rfl⟩ := hcs
    have h0 := b0.toNat_lt
    have hfirst := toNat_shiftRight_2 b0
    have hsecond := cut_tailOne b0
    refine bind_eq_ok.mpr ⟨_, decodeSymbolCheckedOf_ok.mpr ⟨by omega, rfl⟩, ?_⟩
    refine bind_eq_ok.mpr ⟨_, decodeSymbolCheckedOf_ok.mpr ⟨by omega, rfl⟩, ?_⟩
    refine bind_eq_ok.mpr ⟨(), validateUnusedTailMask_ok.mpr (eq_of_toNat ?_), ?_⟩
    · rw [toNat_and_0x0f]
      show _ = 0
      omega
    · show Except.ok [_] = Except.ok [_]
      congr 2
      exact eq_of_toNat (by
        rw [join_first (by omega) (by omega)]
        omega)

/-- A tail of three symbols decodes exactly when it encodes two bytes. -/
theorem decodeTail_three {c0 c1 c2 : Char} {variant : Base64Variant} {fieldName : String}
    {data : Bytes} : decodeTail variant fieldName [c0, c1, c2] = .ok data
      ↔ ∃ b0 b1, data = [b0, b1] ∧ [c0, c1, c2] = encodeTailTwo b0 b1 variant.alphabet := by
  rw [decodeTail]
  constructor
  · intro h
    obtain ⟨a, hsymA, h⟩ := bind_eq_ok.mp h
    obtain ⟨b, hsymB, h⟩ := bind_eq_ok.mp h
    obtain ⟨c, hsymC, h⟩ := bind_eq_ok.mp h
    obtain ⟨⟨⟩, htail, hresult⟩ := bind_eq_ok.mp h
    obtain ⟨ha, rfl⟩ := decodeSymbolCheckedOf_ok.mp hsymA
    obtain ⟨hb, rfl⟩ := decodeSymbolCheckedOf_ok.mp hsymB
    obtain ⟨hc, rfl⟩ := decodeSymbolCheckedOf_ok.mp hsymC
    refine ⟨_, _, (Except.ok.inj hresult).symm, ?_⟩
    have hzero : c.toNat % 4 = 0 := by
      rw [← toNat_and_0x03, validateUnusedTailMask_ok.mp htail]
      rfl
    have h0 := join_first ha hb
    have h1 := join_second b hc
    have hfirst : (a <<< 2 ||| b >>> 4) >>> 2 = a := eq_of_toNat (by
      rw [toNat_shiftRight_2]
      omega)
    have hsecond : ((a <<< 2 ||| b >>> 4) &&& 0x03) <<< 4
        ||| ((b &&& 0x0f) <<< 4 ||| c >>> 2) >>> 4 = b := eq_of_toNat (by
      rw [cut_second]
      omega)
    have hthird : (((b &&& 0x0f) <<< 4 ||| c >>> 2) &&& 0x0f) <<< 2 = c := eq_of_toNat (by
      rw [cut_tailTwo]
      omega)
    rw [encodeTailTwo, hfirst, hsecond, hthird]
  · rintro ⟨b0, b1, rfl, hcs⟩
    rw [encodeTailTwo] at hcs
    simp only [List.cons.injEq, and_true] at hcs
    obtain ⟨rfl, rfl, rfl⟩ := hcs
    have h0 := b0.toNat_lt
    have h1 := b1.toNat_lt
    have hfirst := toNat_shiftRight_2 b0
    have hsecond := cut_second b0 b1
    have hthird := cut_tailTwo b1
    refine bind_eq_ok.mpr ⟨_, decodeSymbolCheckedOf_ok.mpr ⟨by omega, rfl⟩, ?_⟩
    refine bind_eq_ok.mpr ⟨_, decodeSymbolCheckedOf_ok.mpr ⟨by omega, rfl⟩, ?_⟩
    refine bind_eq_ok.mpr ⟨_, decodeSymbolCheckedOf_ok.mpr ⟨by omega, rfl⟩, ?_⟩
    refine bind_eq_ok.mpr ⟨(), validateUnusedTailMask_ok.mpr (eq_of_toNat ?_), ?_⟩
    · rw [toNat_and_0x03]
      show _ = 0
      omega
    · show Except.ok [_, _] = Except.ok [_, _]
      congr 2
      · exact eq_of_toNat (by
          rw [join_first (by omega) (by omega)]
          omega)
      congr 1
      · exact eq_of_toNat (by
          rw [join_second _ (by omega)]
          omega)

/-- **THE DECODER ACCEPTS THE ENCODINGS**, of the bytes it returns, and nothing else: by induction
    over the blocks, where every tail is settled by its length. -/
theorem decodeIntoWith_iff {variant : Base64Variant} {fieldName : String} {cs : List Char}
    {data : Bytes} : decodeIntoWith variant fieldName cs = .ok data
      ↔ cs = fillEncodedWith variant.alphabet data := by
  constructor
  · intro h
    induction cs using decodeIntoWith.induct generalizing data with
    | case1 c0 c1 c2 c3 rest ih =>
      rw [decodeIntoWith] at h
      obtain ⟨block, hblock, h⟩ := bind_eq_ok.mp h
      obtain ⟨more, hmore, hdata⟩ := bind_eq_ok.mp h
      obtain ⟨b0, b1, b2, rfl, hcs⟩ := decodeFullBlock_ok.mp hblock
      rw [← Except.ok.inj hdata]
      show _ = encodeFullBlock b0 b1 b2 variant.alphabet ++ fillEncodedWith variant.alphabet more
      rw [← hcs, ← ih hmore]
      rfl
    | case2 c0 c1 c2 =>
      obtain ⟨b0, b1, rfl, hcs⟩ := decodeTail_three.mp h
      exact hcs
    | case3 c0 c1 =>
      obtain ⟨b0, rfl, hcs⟩ := decodeTail_two.mp h
      exact hcs
    | case4 c0 => cases h
    | case5 => rw [← Except.ok.inj h, fillEncodedWith]
  · rintro rfl
    induction data using fillEncodedWith.induct with
    | case1 b0 b1 b2 rest ih =>
      have hblock := (@decodeFullBlock_ok _ _ _ _ variant fieldName _).mpr
        ⟨b0, b1, b2, rfl, (rfl : _ = encodeFullBlock b0 b1 b2 variant.alphabet)⟩
      rw [fillEncodedWith, encodeFullBlock]
      show decodeIntoWith variant fieldName (_ :: _ :: _ :: _ :: _) = _
      rw [decodeIntoWith]
      exact bind_eq_ok.mpr ⟨_, hblock, bind_eq_ok.mpr ⟨_, ih, rfl⟩⟩
    | case2 b0 b1 => exact decodeTail_three.mpr ⟨b0, b1, rfl, rfl⟩
    | case3 b0 => exact decodeTail_two.mpr ⟨b0, rfl, rfl⟩
    | case4 => rfl

/-! ## The URL-safe case -/

/-- **THE URL-SAFE ENCODER**, cut with shifts or with divisions. -/
theorem fillEncoded_eq (data : Bytes) :
    fillEncoded data = fillEncodedWith urlSafeAlphabet data := by
  induction data using fillEncoded.induct with
  | case1 b0 b1 b2 rest ih =>
    rw [fillEncoded, fillEncodedWith, encodeFullBlock, ih]
    simp only [symbolAt, symbol, toNat_shiftRight_2, cut_second, cut_third, cut_fourth,
      List.cons_append, List.nil_append]
  | case2 b0 b1 =>
    rw [fillEncoded, fillEncodedWith, encodeTailTwo]
    simp only [symbolAt, symbol, toNat_shiftRight_2, cut_second, cut_tailTwo]
  | case3 b0 =>
    rw [fillEncoded, fillEncodedWith, encodeTailOne]
    simp only [symbolAt, symbol, toNat_shiftRight_2, cut_tailOne]
  | case4 => rfl

theorem decodeSymbol_eq (c : Char) :
    decodeSymbol c = (decodeSymbolOf .urlSafe c).map UInt8.toNat := by
  have hsmall : ∀ {n : Nat}, n < 256 → (UInt8.ofNat n).toNat = n := fun h =>
    UInt8.toNat_ofNat_of_lt' h
  rw [decodeSymbol, decodeSymbolOf]
  by_cases hupper : 'A'.toNat ≤ c.toNat ∧ c.toNat ≤ 'Z'.toNat
  · rw [if_pos hupper, if_pos hupper, Option.map_some, hsmall]
    have hbound : 'Z'.toNat < 256 := by decide
    omega
  by_cases hlower : 'a'.toNat ≤ c.toNat ∧ c.toNat ≤ 'z'.toNat
  · rw [if_neg hupper, if_neg hupper, if_pos hlower, if_pos hlower, Option.map_some, hsmall]
    have hspan : 'z'.toNat - 'a'.toNat + 26 < 256 := by decide
    omega
  by_cases hdigit : '0'.toNat ≤ c.toNat ∧ c.toNat ≤ '9'.toNat
  · rw [if_neg hupper, if_neg hupper, if_neg hlower, if_neg hlower, if_pos hdigit, if_pos hdigit,
      Option.map_some, hsmall]
    have hspan : '9'.toNat - '0'.toNat + 52 < 256 := by decide
    omega
  have hother : ∀ d : Char, ¬ (c = d ∧ Base64Variant.urlSafe = .standard) := fun _ h => by cases h.2
  rw [if_neg hupper, if_neg hupper, if_neg hlower, if_neg hlower, if_neg hdigit, if_neg hdigit,
    if_neg (hother '+'), if_neg (hother '/')]
  simp only [and_true]
  by_cases hdash : c = '-'
  · rw [if_pos hdash, if_pos hdash]
    rfl
  by_cases hline : c = '_'
  · rw [if_neg hdash, if_neg hdash, if_pos hline, if_pos hline]
    rfl
  · rw [if_neg hdash, if_neg hdash, if_neg hline, if_neg hline]
    rfl

theorem decodeSymbolChecked_eq (c : Char) (fieldName : String) :
    decodeSymbolChecked c fieldName
      = (decodeSymbolCheckedOf .urlSafe c fieldName).map UInt8.toNat := by
  rw [decodeSymbolChecked, decodeSymbolCheckedOf, decodeSymbol_eq]
  cases decodeSymbolOf .urlSafe c with
  | none => rfl
  | some value => rfl

theorem validateUnusedTailBits_eq {value mask : UInt8} {modulus : Nat} {fieldName : String}
    (h : (value &&& mask).toNat = value.toNat % modulus) :
    validateUnusedTailBits value.toNat modulus fieldName
      = validateUnusedTailMask value mask fieldName := by
  have hzero : value.toNat % modulus = 0 ↔ value &&& mask = 0 := by
    rw [← h]
    exact ⟨fun hnat => eq_of_toNat hnat, fun heq => by rw [heq]; rfl⟩
  rw [validateUnusedTailBits, validateUnusedTailMask]
  exact if_congr hzero rfl rfl

/-- **THE URL-SAFE DECODER**, joined with shifts or with products, errors included. -/
theorem decodeInto_eq (fieldName : String) (cs : List Char) :
    decodeInto fieldName cs = decodeIntoWith .urlSafe fieldName cs := by
  -- Sums and products on one side, shifts on the other: they agree on six-bit symbols.
  have hfirst : ∀ {a b : UInt8}, a.toNat < 64 → b.toNat < 64 →
      UInt8.ofNat (a.toNat * 4 + b.toNat / 16) = a <<< 2 ||| b >>> 4 := fun ha hb => by
    rw [← join_first ha hb, UInt8.ofNat_toNat]
  have hsecond : ∀ {c : UInt8} (b : UInt8), c.toNat < 64 →
      UInt8.ofNat (b.toNat % 16 * 16 + c.toNat / 4) = (b &&& 0x0f) <<< 4 ||| c >>> 2 :=
    fun b hc => by rw [← join_second b hc, UInt8.ofNat_toNat]
  have hthird : ∀ {d : UInt8} (c : UInt8), d.toNat < 64 →
      UInt8.ofNat (c.toNat % 4 * 64 + d.toNat) = (c &&& 0x03) <<< 6 ||| d :=
    fun c hd => by rw [← join_third c hd, UInt8.ofNat_toNat]
  -- Four symbols at a time, then the three tails and the one that is refused.
  induction cs using decodeIntoWith.induct with
  | case1 c0 c1 c2 c3 rest ih =>
    rw [decodeInto, decodeIntoWith, decodeFullBlock, ih]
    simp only [decodeSymbolChecked_eq]
    cases ha : decodeSymbolCheckedOf .urlSafe c0 fieldName with
    | error e => rfl
    | ok a =>
      cases hb : decodeSymbolCheckedOf .urlSafe c1 fieldName with
      | error e => rfl
      | ok b =>
        cases hc : decodeSymbolCheckedOf .urlSafe c2 fieldName with
        | error e => rfl
        | ok c =>
          cases hd : decodeSymbolCheckedOf .urlSafe c3 fieldName with
          | error e => rfl
          | ok d =>
            cases decodeIntoWith .urlSafe fieldName rest with
            | error e => rfl
            | ok more =>
              show Except.ok (_ :: _ :: _ :: more) = Except.ok (_ :: _ :: _ :: more)
              rw [hfirst (decodeSymbolCheckedOf_ok.mp ha).1 (decodeSymbolCheckedOf_ok.mp hb).1,
                hsecond b (decodeSymbolCheckedOf_ok.mp hc).1,
                hthird c (decodeSymbolCheckedOf_ok.mp hd).1]
  | case2 c0 c1 c2 =>
    rw [decodeInto, decodeIntoWith, decodeTail]
    simp only [decodeSymbolChecked_eq]
    cases ha : decodeSymbolCheckedOf .urlSafe c0 fieldName with
    | error e => rfl
    | ok a =>
      cases hb : decodeSymbolCheckedOf .urlSafe c1 fieldName with
      | error e => rfl
      | ok b =>
        cases hc : decodeSymbolCheckedOf .urlSafe c2 fieldName with
        | error e => rfl
        | ok c =>
          show (validateUnusedTailBits c.toNat 4 fieldName >>= fun _ => _) = _
          rw [validateUnusedTailBits_eq (toNat_and_0x03 c),
            hfirst (decodeSymbolCheckedOf_ok.mp ha).1 (decodeSymbolCheckedOf_ok.mp hb).1,
            hsecond b (decodeSymbolCheckedOf_ok.mp hc).1]
          rfl
  | case3 c0 c1 =>
    rw [decodeInto, decodeIntoWith, decodeTail]
    simp only [decodeSymbolChecked_eq]
    cases ha : decodeSymbolCheckedOf .urlSafe c0 fieldName with
    | error e => rfl
    | ok a =>
      cases hb : decodeSymbolCheckedOf .urlSafe c1 fieldName with
      | error e => rfl
      | ok b =>
        show (validateUnusedTailBits b.toNat 16 fieldName >>= fun _ => _) = _
        rw [validateUnusedTailBits_eq (toNat_and_0x0f b),
          hfirst (decodeSymbolCheckedOf_ok.mp ha).1 (decodeSymbolCheckedOf_ok.mp hb).1]
        rfl
  | case4 c0 => rfl
  | case5 => rfl

/-- The URL-safe decoder accepts the encodings and nothing else. -/
theorem decodeInto_iff {fieldName : String} {cs : List Char} {data : Bytes} :
    decodeInto fieldName cs = .ok data ↔ cs = fillEncoded data := by
  rw [decodeInto_eq, fillEncoded_eq]
  exact decodeIntoWith_iff

/-! ## Padding of the standard alphabet -/

/-- Where the padding of a standard base64 string starts and how long it runs. -/
structure Base64Padding where
  /-- length of the encoded payload ahead of the first `=` -/
  payloadLen : Nat
  /-- number of trailing `=` characters -/
  count : Nat

/-- The walk over the string.  Positions count bytes in the source; every character before an error
    is one byte. -/
def standardCharSetLoop (fieldName : String) :
    Nat → Base64Padding → Bool → List Char → Except Error Base64Padding
  | _, padding, _, [] => .ok padding
  | idx, padding, started, c :: rest =>
    if c = '=' then
      standardCharSetLoop fieldName (idx + 1)
        ⟨if started then padding.payloadLen else idx, padding.count + 1⟩ true rest
    else if started then
      .error (invalidCharacterError fieldName "contains non-padding characters after '='")
    else if (decodeSymbolOf .standard c).isNone then
      .error (invalidCharacterError fieldName "contains invalid characters for standard base64")
    else standardCharSetLoop fieldName (idx + 1) padding started rest

/-- Reject symbols the alphabet does not hold, and symbols after the padding. -/
def validateStandardCharSet (data : List Char) (fieldName : String) :
    Except Error Base64Padding :=
  standardCharSetLoop fieldName 0 ⟨data.length, 0⟩ false data

/-- Require the padding to be the one the payload length implies. -/
def enforcePaddingShape (padding : Base64Padding) (dataLen : Nat) (fieldName : String) :
    Except Error Unit :=
  if padding.count > 2 then
    .error (invalidLengthError fieldName
      "Invalid base64 padding length (maximum 2 '=' characters)")
  else if padding.count > 0 ∧ dataLen % 4 ≠ 0 then
    .error (invalidLengthError fieldName "Padded base64 length must be a multiple of 4")
  else
    match padding.count with
    | 1 =>
      if padding.payloadLen % 4 ≠ 3 then
        .error (invalidLengthError fieldName "Invalid base64 padding placement")
      else .ok ()
    | 2 =>
      if padding.payloadLen % 4 ≠ 2 then
        .error (invalidLengthError fieldName "Invalid base64 padding placement")
      else .ok ()
    | _ => .ok ()

def validateStandardChars (data : List Char) (fieldName : String) : Except Error Nat := do
  let padding ← validateStandardCharSet data fieldName
  enforcePaddingShape padding data.length fieldName
  pure padding.payloadLen

structure StandardDecodeLayout where
  payloadLen : Nat
  outputLen : Nat

def tailOutputLen (rem : Nat) : Nat :=
  match rem with
  | 2 => 1
  | 3 => 2
  | _ => 0

def decodeStandardInputLen (data : List Char) (fieldName : String) :
    Except Error StandardDecodeLayout := do
  validateCommonInput data fieldName
  let payloadLen ← validateStandardChars data fieldName
  if payloadLen % 4 = 1 then
    .error (invalidLengthError fieldName "Invalid base64 length (payload mod 4 must not be 1)")
  else .ok ⟨payloadLen, payloadLen / 4 * 3 + tailOutputLen (payloadLen % 4)⟩

/-- Decode the standard alphabet, with or without padding. -/
def decodeBase64Standard (data fieldName : String) : Except Error Bytes := do
  let layout ← decodeStandardInputLen data.toList fieldName
  decodeIntoWith .standard fieldName (data.toList.take layout.payloadLen)

/-- Encode with the standard alphabet, without padding. -/
def encodeBase64StandardNopad (data : Bytes) : String :=
  String.ofList (fillEncodedWith standardAlphabet data)

/-- The padding the encoding of some number of bytes has in the padded form. -/
def paddingOf (inputLen : Nat) : List Char :=
  List.replicate (match inputLen % 3 with
    | 0 => 0
    | 1 => 2
    | _ => 1) '='

/-- A character is a symbol of the standard alphabet. -/
def IsStandard (c : Char) : Prop :=
  (decodeSymbolOf .standard c).isSome = true

/-- After the first `=` only padding may follow, which is counted. -/
theorem standardCharSetLoop_started {fieldName : String} {idx : Nat}
    {padding padding' : Base64Padding} {cs : List Char} :
    standardCharSetLoop fieldName idx padding true cs = .ok padding'
      ↔ cs = List.replicate cs.length '='
        ∧ padding' = ⟨padding.payloadLen, padding.count + cs.length⟩ := by
  induction cs generalizing idx padding with
  | nil =>
    rw [standardCharSetLoop]
    exact ⟨fun h => ⟨rfl, (Except.ok.inj h).symm⟩, fun h => congrArg Except.ok h.2.symm⟩
  | cons c rest ih =>
    rw [standardCharSetLoop]
    by_cases hpad : c = '='
    · subst hpad
      rw [if_pos rfl, ih, List.length_cons, List.replicate_succ, List.cons.injEq]
      simp only [if_true, true_and, Nat.add_assoc, Nat.add_comm 1]
    · rw [if_neg hpad, if_pos rfl, List.length_cons, List.replicate_succ, List.cons.injEq]
      exact iff_of_false (fun h => by cases h) fun h => hpad h.1.1

theorem not_isStandard_pad : ¬ IsStandard '=' := by
  rw [IsStandard]
  decide

/-- **THE WALK SPLITS THE STRING** into symbols and padding. -/
theorem standardCharSetLoop_ok {fieldName : String} {idx : Nat} {padding padding' : Base64Padding}
    {cs : List Char} (hlen : padding.payloadLen = idx + cs.length) (hzero : padding.count = 0) :
    standardCharSetLoop fieldName idx padding false cs = .ok padding'
      ↔ ∃ payload, cs = payload ++ List.replicate padding'.count '='
        ∧ padding'.payloadLen = idx + payload.length ∧ ∀ c ∈ payload, IsStandard c := by
  induction cs generalizing idx padding with
  | nil =>
    rw [standardCharSetLoop]
    constructor
    · intro h
      obtain rfl := Except.ok.inj h
      exact ⟨[], by rw [hzero]; rfl, hlen, fun c hc => absurd hc List.not_mem_nil⟩
    · rintro ⟨payload, hsplit, hpayload, _⟩
      obtain ⟨rfl, hnone⟩ := List.append_eq_nil_iff.mp hsplit.symm
      have hcount : padding'.count = 0 := (List.replicate_eq_nil_iff _).mp hnone
      obtain ⟨payloadLen, count⟩ := padding
      obtain ⟨payloadLen', count'⟩ := padding'
      simp only at hlen hzero hpayload hcount
      rw [hlen, hzero, hpayload, hcount]
  | cons c rest ih =>
    rw [standardCharSetLoop]
    by_cases hpad : c = '='
    · subst hpad
      rw [if_pos rfl, standardCharSetLoop_started, if_neg Bool.false_ne_true, hzero]
      constructor
      · rintro ⟨hrest, rfl⟩
        refine ⟨[], ?_, rfl, fun c hc => absurd hc List.not_mem_nil⟩
        show _ = List.replicate (0 + 1 + rest.length) '='
        rw [Nat.zero_add, Nat.add_comm, List.replicate_succ, ← hrest]
      · rintro ⟨payload, hsplit, hpayload, hall⟩
        -- the payload is empty, because the first character is padding
        cases payload with
        | cons d payload =>
          obtain ⟨rfl, _⟩ := List.cons.inj hsplit
          exact absurd (hall _ List.mem_cons_self) not_isStandard_pad
        | nil =>
          rw [List.nil_append] at hsplit
          have hlength := congrArg List.length hsplit
          rw [List.length_cons, List.length_replicate] at hlength
          rw [← hlength, List.replicate_succ] at hsplit
          refine ⟨(List.cons.inj hsplit).2, ?_⟩
          obtain ⟨payloadLen', count'⟩ := padding'
          simp only at hpayload hlength
          rw [hpayload, ← hlength]
          exact congrArg (Base64Padding.mk idx) (Nat.add_comm _ _)
    · rw [if_neg hpad, if_neg Bool.false_ne_true]
      have hidx : padding.payloadLen = idx + 1 + rest.length := by
        rw [hlen, List.length_cons]
        omega
      by_cases hsymbol : IsStandard c
      · have hsome : ¬ (decodeSymbolOf .standard c).isNone = true := by
          rw [Option.isNone_iff_eq_none, ← Option.not_isSome_iff_eq_none]
          exact not_not_intro hsymbol
        rw [if_neg hsome, ih hidx hzero]
        constructor
        · rintro ⟨payload, hsplit, hpayload, hall⟩
          refine ⟨c :: payload, congrArg (c :: ·) hsplit, ?_,
            List.forall_mem_cons.mpr ⟨hsymbol, hall⟩⟩
          rw [hpayload, List.length_cons]
          omega
        · rintro ⟨payload, hsplit, hpayload, hall⟩
          cases payload with
          | nil =>
            rw [List.nil_append] at hsplit
            have hmem : c ∈ List.replicate padding'.count '=' := hsplit ▸ List.mem_cons_self
            exact absurd (List.eq_of_mem_replicate hmem) hpad
          | cons d payload =>
            refine ⟨payload, (List.cons.inj hsplit).2, ?_,
              fun e he => hall e (List.mem_cons_of_mem _ he)⟩
            rw [hpayload, List.length_cons]
            omega
      · have hnone : (decodeSymbolOf .standard c).isNone = true := by
          rw [Option.isNone_iff_eq_none, ← Option.not_isSome_iff_eq_none]
          exact hsymbol
        rw [if_pos hnone]
        refine iff_of_false (fun h => by cases h) ?_
        rintro ⟨payload, hsplit, _, hall⟩
        cases payload with
        | nil =>
          rw [List.nil_append] at hsplit
          have hmem : c ∈ List.replicate padding'.count '=' := hsplit ▸ List.mem_cons_self
          exact hpad (List.eq_of_mem_replicate hmem)
        | cons d payload =>
          obtain ⟨rfl, _⟩ := List.cons.inj hsplit
          exact hsymbol (hall _ List.mem_cons_self)

/-- The shape that is accepted: none, or as much as brings the length to a multiple of four. -/
theorem enforcePaddingShape_ok {padding : Base64Padding} {fieldName : String} :
    enforcePaddingShape padding (padding.payloadLen + padding.count) fieldName = .ok ()
      ↔ padding.count = 0 ∨ padding.count = 1 ∧ padding.payloadLen % 4 = 3
        ∨ padding.count = 2 ∧ padding.payloadLen % 4 = 2 := by
  obtain ⟨payloadLen, count⟩ := padding
  rw [enforcePaddingShape]
  dsimp only
  by_cases hmany : count > 2
  · rw [if_pos hmany]
    exact iff_of_false (fun h => by cases h) (by omega)
  rw [if_neg hmany]
  match count, hmany with
  | 0, _ => simp
  | 1, _ =>
    by_cases hshape : payloadLen % 4 = 3
    · have haligned : ¬ (1 > 0 ∧ (payloadLen + 1) % 4 ≠ 0) := by omega
      rw [if_neg haligned]
      simp [hshape]
    · have hbad : 1 > 0 ∧ (payloadLen + 1) % 4 ≠ 0 := by omega
      rw [if_pos hbad]
      exact iff_of_false (fun h => by cases h) (by omega)
  | 2, _ =>
    by_cases hshape : payloadLen % 4 = 2
    · have haligned : ¬ (2 > 0 ∧ (payloadLen + 2) % 4 ≠ 0) := by omega
      rw [if_neg haligned]
      simp [hshape]
    · have hbad : 2 > 0 ∧ (payloadLen + 2) % 4 ≠ 0 := by omega
      rw [if_pos hbad]
      exact iff_of_false (fun h => by cases h) (by omega)
  | count + 3, hmany => exact absurd (by omega) hmany

/-- What the layout of a standard base64 string says. -/
structure StandardLayout (cs payload : List Char) (count : Nat) : Prop where
  split : cs = payload ++ List.replicate count '='
  symbols : ∀ c ∈ payload, IsStandard c
  shape : count = 0 ∨ count = 1 ∧ payload.length % 4 = 3 ∨ count = 2 ∧ payload.length % 4 = 2
  length : payload.length % 4 ≠ 1

theorem isStandard_plain {c : Char} (h : IsStandard c) : isWhitespaceOrControl c = false := by
  obtain ⟨value, hvalue⟩ := Option.isSome_iff_exists.mp h
  obtain ⟨hlt, rfl⟩ := symbolAt_of_decodeSymbolOf hvalue
  have hall : ∀ n < 64, isWhitespaceOrControl (standardAlphabet.getD n 'A') = false := by
    decide +kernel
  exact hall value.toNat hlt

/-- **THE LAYOUT CHECK** accepts symbols with the right padding, and finds the payload. -/
theorem decodeStandardInputLen_ok {cs : List Char} {fieldName : String}
    {layout : StandardDecodeLayout} : decodeStandardInputLen cs fieldName = .ok layout
      ↔ ∃ payload count, StandardLayout cs payload count
        ∧ layout = ⟨payload.length,
          payload.length / 4 * 3 + tailOutputLen (payload.length % 4)⟩ := by
  constructor
  · intro h
    obtain ⟨_, _, h⟩ := bind_eq_ok.mp h
    obtain ⟨payloadLen, hchars, h⟩ := bind_eq_ok.mp h
    obtain ⟨padding, hset, hchars⟩ := bind_eq_ok.mp hchars
    obtain ⟨⟨⟩, hshape, hchars⟩ := bind_eq_ok.mp hchars
    obtain rfl := Except.ok.inj hchars
    obtain ⟨payload, hsplit, hlen, hsymbols⟩ :=
      (standardCharSetLoop_ok (Nat.zero_add _).symm rfl).mp hset
    rw [Nat.zero_add] at hlen
    have htotal : cs.length = padding.payloadLen + padding.count := by
      rw [hsplit, List.length_append, List.length_replicate, hlen]
    rw [htotal, enforcePaddingShape_ok, hlen] at hshape
    rw [hlen] at h
    by_cases hone : payload.length % 4 = 1
    · rw [if_pos hone] at h
      cases h
    · rw [if_neg hone] at h
      exact ⟨payload, padding.count, ⟨hsplit, hsymbols, hshape, hone⟩, (Except.ok.inj h).symm⟩
  · rintro ⟨payload, count, ⟨rfl, hsymbols, hshape, hone⟩, rfl⟩
    have hplain : (payload ++ List.replicate count '=').any isWhitespaceOrControl = false := by
      rw [List.any_eq_false]
      intro c hc
      rcases List.mem_append.mp hc with hmem | hmem
      · rw [isStandard_plain (hsymbols c hmem)]
        exact Bool.false_ne_true
      · rw [List.eq_of_mem_replicate hmem]
        decide
    have hcommon : validateCommonInput (payload ++ List.replicate count '=') fieldName = .ok () :=
      if_neg (by rw [hplain]; exact Bool.false_ne_true)
    have hset : validateStandardCharSet (payload ++ List.replicate count '=') fieldName
        = .ok ⟨payload.length, count⟩ :=
      (standardCharSetLoop_ok (Nat.zero_add _).symm rfl).mpr
        ⟨payload, rfl, (Nat.zero_add _).symm, hsymbols⟩
    have hpadding : enforcePaddingShape ⟨payload.length, count⟩
        (payload ++ List.replicate count '=').length fieldName = .ok () := by
      rw [List.length_append, List.length_replicate]
      exact enforcePaddingShape_ok.mpr hshape
    have hchars : validateStandardChars (payload ++ List.replicate count '=') fieldName
        = .ok payload.length :=
      bind_eq_ok.mpr ⟨_, hset, bind_eq_ok.mpr ⟨(), hpadding, rfl⟩⟩
    exact bind_eq_ok.mpr ⟨(), hcommon, bind_eq_ok.mpr ⟨_, hchars, if_neg hone⟩⟩

/-! ## What an encoding looks like -/

theorem fillEncodedWith_length (alphabet : List Char) (data : Bytes) :
    (fillEncodedWith alphabet data).length = computeEncodedLen data.length := by
  induction data using fillEncodedWith.induct with
  | case1 b0 b1 b2 rest ih =>
    have hdiv : (rest.length + 1 + 1 + 1) / 3 = rest.length / 3 + 1 := by omega
    have hmod : (rest.length + 1 + 1 + 1) % 3 = rest.length % 3 := by omega
    rw [fillEncodedWith, List.length_append, ih]
    simp only [encodeFullBlock, List.length_cons, List.length_nil, computeEncodedLen, hdiv, hmod]
    omega
  | case2 b0 b1 => simp [fillEncodedWith, encodeTailTwo, computeEncodedLen]
  | case3 b0 => simp [fillEncodedWith, encodeTailOne, computeEncodedLen]
  | case4 => rfl

/-- Every character of an encoding is a symbol. -/
theorem isStandard_of_mem {data : Bytes} {c : Char}
    (h : c ∈ fillEncodedWith standardAlphabet data) : IsStandard c := by
  have hsymbol : ∀ value : UInt8, value.toNat < 64 → IsStandard (symbolAt standardAlphabet value) :=
    fun value hvalue => by
      rw [IsStandard, show standardAlphabet = Base64Variant.standard.alphabet from rfl,
        decodeSymbolOf_symbolAt _ hvalue]
      rfl
  induction data using fillEncodedWith.induct with
  | case1 b0 b1 b2 rest ih =>
    have h0 := b0.toNat_lt
    have h1 := b1.toNat_lt
    have h2 := b2.toNat_lt
    rw [fillEncodedWith, encodeFullBlock, List.mem_append] at h
    simp only [List.mem_cons, List.not_mem_nil, or_false] at h
    rcases h with (rfl | rfl | rfl | rfl) | hrest
    · exact hsymbol _ (by rw [toNat_shiftRight_2]; omega)
    · exact hsymbol _ (by rw [cut_second]; omega)
    · exact hsymbol _ (by rw [cut_third]; omega)
    · exact hsymbol _ (by rw [cut_fourth]; omega)
    · exact ih hrest
  | case2 b0 b1 =>
    have h0 := b0.toNat_lt
    have h1 := b1.toNat_lt
    rw [fillEncodedWith, encodeTailTwo] at h
    simp only [List.mem_cons, List.not_mem_nil, or_false] at h
    rcases h with rfl | rfl | rfl
    · exact hsymbol _ (by rw [toNat_shiftRight_2]; omega)
    · exact hsymbol _ (by rw [cut_second]; omega)
    · exact hsymbol _ (by rw [cut_tailTwo]; omega)
  | case3 b0 =>
    have h0 := b0.toNat_lt
    rw [fillEncodedWith, encodeTailOne] at h
    simp only [List.mem_cons, List.not_mem_nil, or_false] at h
    rcases h with rfl | rfl
    · exact hsymbol _ (by rw [toNat_shiftRight_2]; omega)
    · exact hsymbol _ (by rw [cut_tailOne]; omega)
  | case4 => exact absurd h List.not_mem_nil

/-- The three lengths an encoding can have, and the padding that goes with each. -/
theorem encoded_shape (inputLen : Nat) :
    computeEncodedLen inputLen % 4 = 0 ∧ paddingOf inputLen = []
      ∨ computeEncodedLen inputLen % 4 = 2 ∧ paddingOf inputLen = List.replicate 2 '='
      ∨ computeEncodedLen inputLen % 4 = 3 ∧ paddingOf inputLen = List.replicate 1 '=' := by
  have hcases : inputLen % 3 = 0 ∨ inputLen % 3 = 1 ∨ inputLen % 3 = 2 := by omega
  rcases hcases with h | h | h
  · have hlen : computeEncodedLen inputLen = inputLen / 3 * 4 := by
      rw [computeEncodedLen, h]
      rfl
    exact Or.inl ⟨by omega, by rw [paddingOf, h]; rfl⟩
  · have hlen : computeEncodedLen inputLen = inputLen / 3 * 4 + 2 := by
      rw [computeEncodedLen, h]
      rfl
    exact Or.inr (Or.inl ⟨by omega, by rw [paddingOf, h]; rfl⟩)
  · have hlen : computeEncodedLen inputLen = inputLen / 3 * 4 + 3 := by
      rw [computeEncodedLen, h]
      rfl
    exact Or.inr (Or.inr ⟨by omega, by rw [paddingOf, h]; rfl⟩)

/-- **THE STANDARD DECODER** accepts the encoding of what it returns, with its padding or without
    any. -/
theorem decodeBase64Standard_iff {data fieldName : String} {bytes : Bytes} :
    decodeBase64Standard data fieldName = .ok bytes
      ↔ data = encodeBase64StandardNopad bytes
        ∨ data = encodeBase64StandardNopad bytes ++ String.ofList (paddingOf bytes.length) := by
  have hlength := fillEncodedWith_length standardAlphabet bytes
  have htext : ∀ {cs : List Char}, data = String.ofList cs ↔ data.toList = cs := fun {cs} =>
    ⟨fun h => by rw [h, String.toList_ofList], fun h => by rw [← h, String.ofList_toList]⟩
  rw [encodeBase64StandardNopad, ← String.ofList_append, htext, htext]
  constructor
  · intro h
    obtain ⟨layout, hlayout, h⟩ := bind_eq_ok.mp h
    obtain ⟨payload, count, ⟨hsplit, _, hshape, _⟩, rfl⟩ := decodeStandardInputLen_ok.mp hlayout
    rw [hsplit, List.take_left' rfl, decodeIntoWith_iff] at h
    change payload = fillEncodedWith standardAlphabet bytes at h
    subst h
    rw [hlength] at hshape
    rw [hsplit]
    rcases hshape with rfl | ⟨rfl, hthree⟩ | ⟨rfl, htwo⟩
    · exact Or.inl (List.append_nil _)
    · right
      rcases encoded_shape bytes.length with hcase | hcase | hcase
      · omega
      · omega
      · rw [hcase.2]
    · right
      rcases encoded_shape bytes.length with hcase | hcase | hcase
      · omega
      · rw [hcase.2]
      · omega
  · intro h
    have hlayout : ∃ count, StandardLayout data.toList
        (fillEncodedWith standardAlphabet bytes) count := by
      have hsymbols : ∀ c ∈ fillEncodedWith standardAlphabet bytes, IsStandard c :=
        fun c hc => isStandard_of_mem hc
      rcases h with h | h
      · refine ⟨0, ⟨?_, hsymbols, Or.inl rfl, ?_⟩⟩
        · rw [h]
          exact (List.append_nil _).symm
        · rw [hlength]
          have hshape := encoded_shape bytes.length
          omega
      · rw [h]
        rcases encoded_shape bytes.length with ⟨hmod, hpad⟩ | ⟨hmod, hpad⟩ | ⟨hmod, hpad⟩
        · exact ⟨0, ⟨by rw [hpad]; rfl, hsymbols, Or.inl rfl, by omega⟩⟩
        · exact ⟨2, ⟨by rw [hpad], hsymbols, Or.inr (Or.inr ⟨rfl, by omega⟩), by omega⟩⟩
        · exact ⟨1, ⟨by rw [hpad], hsymbols, Or.inr (Or.inl ⟨rfl, by omega⟩), by omega⟩⟩
    obtain ⟨count, hlayout⟩ := hlayout
    refine bind_eq_ok.mpr ⟨_, decodeStandardInputLen_ok.mpr ⟨_, count, hlayout, rfl⟩, ?_⟩
    rw [hlayout.split, List.take_left' rfl]
    exact decodeIntoWith_iff.mpr rfl

/-! ## The public and the secret functions -/

/-- `encode_base64url_nopad_secret_bytes`: the same encoder over a buffer that is wiped. -/
def encodeBase64urlNopadSecretBytes (data : Bytes) : String :=
  String.ofList (fillEncodedWith urlSafeAlphabet data)

/-- `encode_base64url_nopad_secret_32`. -/
def encodeBase64urlNopadSecret32 (data : FixedBytes 32) : String :=
  String.ofList (fillEncodedWith urlSafeAlphabet data.bytes)

/-- `decode_base64url_nopad_secret_bytes`. -/
def decodeBase64urlNopadSecretBytes (data fieldName : String) : Except Error Bytes :=
  let maxLen := maxBase64CiphertextLength
  if data.utf8ByteSize > maxLen then
    .error (.parse
      s!"{fieldName} exceeds maximum base64url length ({data.utf8ByteSize} bytes > {maxLen} bytes)")
  else do
    let _ ← decodeBase64urlInputLen data.toList fieldName
    decodeIntoWith .urlSafe fieldName data.toList

/-- `decode_secret_array`. -/
def decodeSecretArray (n : Nat) (data fieldName : String) : Except Error Bytes := do
  let len ← decodeBase64urlInputLen data.toList fieldName
  if len ≠ n then .error (.crypto s!"Invalid {fieldName} length: expected {n}, got {len}")
  else decodeIntoWith .urlSafe fieldName data.toList

/-- `decode_base64url_nopad_secret_32`. -/
def decodeBase64urlNopadSecret32 (data fieldName : String) : Except Error Bytes :=
  decodeSecretArray 32 data fieldName

/-- **THE SECRET FUNCTIONS ARE THE PUBLIC ONES**: same texts, same bytes, same errors. -/
theorem decodeSecretBytes_eq (data fieldName : String) :
    decodeBase64urlNopadSecretBytes data fieldName = decodeBase64urlNopad data fieldName := by
  rw [decodeBase64urlNopadSecretBytes, decodeBase64urlNopad, decodeBase64urlNopadWithLimit,
    decodeInto_eq]

theorem decodeSecretArray_eq (n : Nat) (data fieldName : String) :
    decodeSecretArray n data fieldName = decodeBase64urlNopadArray n data fieldName := by
  rw [decodeSecretArray, decodeBase64urlNopadArray]
  simp only [decodeInto_eq]

theorem encodeSecretBytes_eq (data : Bytes) :
    encodeBase64urlNopadSecretBytes data = encodeBase64urlNopad data := by
  rw [encodeBase64urlNopadSecretBytes, encodeBase64urlNopad, fillEncoded_eq]

/-! ## The laws of the codecs -/

/-- A text is an encoding exactly when its characters are. -/
theorem eq_encode_iff {data : String} {bytes : Bytes} :
    data = encodeBase64urlNopad bytes ↔ data.toList = fillEncoded bytes := by
  rw [encodeBase64urlNopad]
  exact ⟨fun h => by rw [h, String.toList_ofList], fun h => by rw [← h, String.ofList_toList]⟩

/-- What every URL-safe decoder runs: the length check, and the loop that fills a buffer of that
    length. -/
theorem decodeUrlSafe_iff {data fieldName : String} {bytes : Bytes} {len : Nat} :
    decodeBase64urlInputLen data.toList fieldName = .ok len
        ∧ decodeInto fieldName data.toList = .ok bytes
      ↔ data = encodeBase64urlNopad bytes ∧ len = bytes.length := by
  rw [decodeInto_iff, eq_encode_iff]
  constructor
  · rintro ⟨hlen, htext⟩
    rw [htext, decodeBase64urlInputLen_fillEncoded] at hlen
    exact ⟨htext, (Except.ok.inj hlen).symm⟩
  · rintro ⟨htext, rfl⟩
    rw [htext]
    exact ⟨decodeBase64urlInputLen_fillEncoded fieldName bytes, rfl⟩

/-- Within its limit, a decoder accepts the encodings and nothing else. -/
theorem decodeBase64urlNopadWithLimit_iff {data fieldName : String} {maxLen : Nat}
    {bytes : Bytes} : decodeBase64urlNopadWithLimit data fieldName maxLen = .ok bytes
      ↔ data = encodeBase64urlNopad bytes ∧ data.utf8ByteSize ≤ maxLen := by
  rw [decodeBase64urlNopadWithLimit]
  by_cases hsize : data.utf8ByteSize > maxLen
  · rw [if_pos hsize]
    exact iff_of_false (fun h => by cases h) fun h => absurd h.2 (Nat.not_le_of_gt hsize)
  · rw [if_neg hsize, bind_eq_ok]
    constructor
    · rintro ⟨len, hlen, hbytes⟩
      exact ⟨(decodeUrlSafe_iff.mp ⟨hlen, hbytes⟩).1, Nat.le_of_not_gt hsize⟩
    · rintro ⟨htext, _⟩
      exact ⟨bytes.length, decodeUrlSafe_iff.mpr ⟨htext, rfl⟩⟩

/-- A decoder of a fixed number of bytes accepts their encodings and nothing else. -/
theorem decodeBase64urlNopadArray_iff {n : Nat} {data fieldName : String} {bytes : Bytes} :
    decodeBase64urlNopadArray n data fieldName = .ok bytes
      ↔ data = encodeBase64urlNopad bytes ∧ bytes.length = n := by
  rw [decodeBase64urlNopadArray, bind_eq_ok]
  constructor
  · rintro ⟨len, hlen, h⟩
    by_cases hother : len ≠ n
    · rw [if_pos hother] at h
      cases h
    · rw [if_neg hother] at h
      obtain ⟨htext, hbytes⟩ := decodeUrlSafe_iff.mp ⟨hlen, h⟩
      exact ⟨htext, hbytes.symm.trans (not_ne_iff.mp hother)⟩
  · rintro ⟨htext, rfl⟩
    obtain ⟨hlen, hbytes⟩ := decodeUrlSafe_iff.mpr ⟨htext, rfl⟩
    exact ⟨bytes.length, hlen, (if_neg (not_not_intro rfl)).trans hbytes⟩

/-- What holds of the codecs, whatever field they are asked about. -/
structure CodecLaws (fieldName : String) : Prop where
  /-- the URL-safe core accepts a text exactly when it encodes the bytes, and sizes the buffer -/
  core : ∀ data bytes len, decodeBase64urlInputLen data.toList fieldName = .ok len
      ∧ decodeInto fieldName data.toList = .ok bytes
    ↔ data = encodeBase64urlNopad bytes ∧ len = bytes.length
  /-- decoders with a limit are the core on texts within it -/
  limited : ∀ data bytes maxLen, decodeBase64urlNopadWithLimit data fieldName maxLen = .ok bytes
    ↔ data = encodeBase64urlNopad bytes ∧ data.utf8ByteSize ≤ maxLen
  /-- the array decoder is the core on texts of that many bytes; so it undoes the encoder always -/
  array : ∀ n data bytes, decodeBase64urlNopadArray n data fieldName = .ok bytes
    ↔ data = encodeBase64urlNopad bytes ∧ bytes.length = n
  /-- the standard decoder accepts the unpadded encoding, and the one with its padding -/
  standard : ∀ data bytes, decodeBase64Standard data fieldName = .ok bytes
    ↔ data = encodeBase64StandardNopad bytes
      ∨ data = encodeBase64StandardNopad bytes ++ String.ofList (paddingOf bytes.length)
  /-- secret data is encoded and decoded as public data is -/
  secretEncode : ∀ bytes, encodeBase64urlNopadSecretBytes bytes = encodeBase64urlNopad bytes
  secretDecode : ∀ data, decodeBase64urlNopadSecretBytes data fieldName
    = decodeBase64urlNopad data fieldName
  secretEncodeKey : ∀ key : FixedBytes 32,
    encodeBase64urlNopadSecret32 key = encodeBase64urlNopad key.bytes
  secretDecodeKey : ∀ data, decodeBase64urlNopadSecret32 data fieldName
    = decodeBase64urlNopadArray 32 data fieldName

/-- **THE CODECS ARE EXACT**: each decoder accepts the canonical spelling of what it returns, and no
    other one. -/
theorem codecLaws (fieldName : String) : CodecLaws fieldName where
  core _ _ _ := decodeUrlSafe_iff
  limited _ _ _ := decodeBase64urlNopadWithLimit_iff
  array _ _ _ := decodeBase64urlNopadArray_iff
  standard _ _ := decodeBase64Standard_iff
  secretEncode := encodeSecretBytes_eq
  secretDecode data := decodeSecretBytes_eq data fieldName
  secretEncodeKey key := encodeSecretBytes_eq key.bytes
  secretDecodeKey data := decodeSecretArray_eq 32 data fieldName

end Base64Variants
