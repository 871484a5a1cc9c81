import Kapsaro.Base64Codec

/-!
# Wire texts — the string grammars of the schemas, and the identities built on them

The patterns of `schemas/kapsaro_common_schema.json` as decidable predicates on strings, and the
values whose text has already been checked.

* **`isUuidText`**, **`isKidText`**, **`isMemberHandleText`**, **`isIso8601Text`** … — one
  predicate for each pattern.
* **`Uuid`**, **`Kid`**, **`MemberHandle`**, **`Timestamp`** — a text together with the proof
  that it has the form.
* **`isB64urlText_encode`** — what the encoder emits has the canonical base64url form.
-/

namespace WireTexts

open Limits TextLines Base64Codec

/-! ## Patterns -/

/-- Characters against a shape in which `9` stands for a digit and everything else for
    itself. -/
def matchesShape : List Char → List Char → Bool
  | [], [] => true
  | p :: shape, c :: cs => (if p = '9' then c.isDigit else c == p) && matchesShape shape cs
  | _, _ => false

/-- A lower-case hexadecimal digit. -/
def isLowerHex (c : Char) : Bool :=
  c.isDigit || decide ('a'.toNat ≤ c.toNat ∧ c.toNat ≤ 'f'.toNat)

/-- Characters against a shape in which every `x` stands for a lower-case hex digit. -/
def matchesHexShape : List Char → List Char → Bool
  | [], [] => true
  | p :: shape, c :: cs => (if p = 'x' then isLowerHex c else c == p) && matchesHexShape shape cs
  | _, _ => false

/-- `uuid`: the hyphenated lower-case form. -/
def isUuidText (s : String) : Bool :=
  matchesHexShape "xxxxxxxx-xxxx-xxxx-xxxx-xxxxxxxxxxxx".toList s.toList

/-- An upper-case Crockford Base32 character. -/
def isCrockfordChar (c : Char) : Bool :=
  c.isDigit || (c.isUpper && c != 'I' && c != 'L' && c != 'O' && c != 'U')

/-- The range a Crockford character lies in. -/
theorem toNat_of_crockford {c : Char} (h : isCrockfordChar c = true) :
    48 ≤ c.toNat ∧ c.toNat ≤ 57 ∨ 65 ≤ c.toNat ∧ c.toNat ≤ 90 := by
  rw [isCrockfordChar, Bool.or_eq_true] at h
  rcases h with hdigit | hupper
  · exact Or.inl (Char.isDigit_iff_toNat.mp hdigit)
  · simp only [Bool.and_eq_true] at hupper
    exact Or.inr (isUpper_iff_toNat.mp hupper.1.1.1.1)

/-- `kid`: 32 Crockford Base32 characters. -/
def isKidText (s : String) : Bool :=
  s.toList.length == 32 && s.toList.all isCrockfordChar

/-- The zone of a timestamp: `Z` or a signed offset. -/
def isZoneText (cs : List Char) : Bool :=
  cs == ['Z'] || matchesShape "+99:99".toList cs || matchesShape "-99:99".toList cs

/-- A timestamp up to the second, an optional fraction, and what `zone` accepts. -/
def isTimestampText (zone : List Char → Bool) (s : String) : Bool :=
  let cs := s.toList
  matchesShape "9999-99-99T99:99:99".toList (cs.take 19) &&
    match cs.drop 19 with
    | '.' :: d :: rest => d.isDigit && zone (rest.dropWhile Char.isDigit)
    | rest => zone rest

/-- `iso8601`. -/
def isIso8601Text (s : String) : Bool :=
  isTimestampText isZoneText s

/-- `rfc3339_utc`: the zone is `Z`. -/
def isRfc3339UtcText (s : String) : Bool :=
  isTimestampText (· == ['Z']) s

/-- A character of a member handle. -/
def isHandleChar (c : Char) : Bool :=
  c.isAlphanum || c == '.' || c == '@' || c == '_' || c == '+' || c == '-'

/-- `member_handle`: an alphanumeric character, then at most 127 handle characters. -/
def isMemberHandleText (s : String) : Bool :=
  match s.toList with
  | [] => false
  | first :: rest => first.isAlphanum && rest.all isHandleChar && decide (rest.length ≤ 127)

/-- The symbols whose lowest four, respectively two, bits are zero: the last symbol of a
    canonical encoding of one, respectively two, tail bytes. -/
def isOneByteTail (c : Char) : Bool :=
  c ∈ "AQgw".toList

def isTwoByteTail (c : Char) : Bool :=
  c ∈ "AEIMQUYcgkosw048".toList

/-- `b64url`: canonical base64url of at least one byte. -/
def isB64urlChars : List Char → Bool
  | [a, b] => isBase64urlChar a && isOneByteTail b
  | [a, b, c] => isBase64urlChar a && isBase64urlChar b && isTwoByteTail c
  | [a, b, c, d] => isBase64urlChar a && isBase64urlChar b && isBase64urlChar c
      && isBase64urlChar d
  | a :: b :: c :: d :: rest => isBase64urlChar a && isBase64urlChar b && isBase64urlChar c
      && isBase64urlChar d && isB64urlChars rest
  | _ => false

def isB64urlText (s : String) : Bool :=
  isB64urlChars s.toList

/-- `b64url_24` … `b64url_64`: canonical base64url of a fixed number of symbols. -/
def isB64urlSized (symbols : Nat) (s : String) : Bool :=
  s.toList.length == symbols && isB64urlText s

/-- `mac`: the algorithm prefix and a 32-byte tag. -/
def isMacText (s : String) : Bool :=
  s.toList.take 12 == "hmac-sha256:".toList && (s.toList.drop 12).length == 43
    && isB64urlChars (s.toList.drop 12)

/-- A single line of at most `limit` characters. -/
def isSingleLine (limit : Nat) (s : String) : Bool :=
  s.toList != [] && s.toList.all (fun c => c != '\r' && c != '\n')
    && decide (s.toList.length ≤ limit)

/-- No two hyphens in a row. -/
def noDoubleHyphen : List Char → Bool
  | '-' :: '-' :: _ => false
  | _ :: rest => noDoubleHyphen rest
  | [] => true

/-- A GitHub login: alphanumeric at both ends, single hyphens inside, at most 39 characters. -/
def isGithubLogin (s : String) : Bool :=
  let cs := s.toList
  noDoubleHyphen cs && cs.all (fun c => c.isAlphanum || c == '-')
    && cs.head?.any Char.isAlphanum && cs.getLast?.any Char.isAlphanum
    && decide (cs.length ≤ 39)

/-! ## Checked values -/

/-- A UUID in its one wire form. -/
structure Uuid where
  text : String
  valid : isUuidText text = true
deriving DecidableEq

/-- A key statement id in canonical form. -/
@[ext]
structure Kid where
  text : String
  valid : isKidText text = true
deriving DecidableEq

/-- A member handle. -/
@[ext]
structure MemberHandle where
  text : String
  valid : isMemberHandleText text = true
deriving DecidableEq

/-- A time as the program writes it. -/
structure Timestamp where
  text : String
  valid : isRfc3339UtcText text = true
deriving DecidableEq

/-- A UTC timestamp is an ISO 8601 timestamp. -/
theorem isIso8601Text_of_rfc3339Utc {s : String} (h : isRfc3339UtcText s = true) :
    isIso8601Text s = true := by
  have hzone : ∀ cs : List Char, (cs == ['Z']) = true → isZoneText cs = true := by
    intro cs hcs
    rw [beq_iff_eq.mp hcs]
    rfl
  unfold isRfc3339UtcText isTimestampText at h
  unfold isIso8601Text isTimestampText
  simp only [Bool.and_eq_true] at h ⊢
  refine ⟨h.1, ?_⟩
  cases hrest : s.toList.drop 19 with
  | nil => rw [hrest] at h; cases h.2
  | cons c rest =>
    rw [hrest] at h
    by_cases hdot : c = '.'
    · subst hdot
      cases rest with
      | nil => cases h.2
      | cons d rest =>
        have hfraction := Bool.and_eq_true_iff.mp h.2
        exact Bool.and_eq_true_iff.mpr ⟨hfraction.1, hzone _ hfraction.2⟩
    · have hsplit : ∀ zone : List Char → Bool, (match c :: rest with
          | '.' :: d :: rest => d.isDigit && zone (rest.dropWhile Char.isDigit)
          | rest => zone rest) = zone (c :: rest) := by
        intro zone
        split
        · rename_i heq
          exact absurd (List.cons.inj heq).1 hdot
        · rfl
      have hz : (c :: rest == ['Z']) = true := (hsplit (· == ['Z'])).symm.trans h.2
      exact (hsplit isZoneText).trans (hzone _ hz)

/-! ## What the encoder emits -/

theorem isOneByteTail_symbol : ∀ n, n < 4 → isOneByteTail (symbol (n * 16)) = true := by
  decide +kernel

theorem isTwoByteTail_symbol : ∀ n, n < 16 → isTwoByteTail (symbol (n * 4)) = true := by
  decide +kernel

/-- **ENCODINGS ARE CANONICAL**: the encoding of at least one byte has the `b64url` form. -/
theorem isB64urlChars_fillEncoded (data : Bytes) (h : data ≠ []) :
    isB64urlChars (fillEncoded data) = true := by
  have hbyte : ∀ b : UInt8, b.toNat < 256 := UInt8.toNat_lt
  have hsym : ∀ n, n < 64 → isBase64urlChar (symbol n) = true := isBase64urlChar_symbol
  induction data using fillEncoded.induct with
  | case1 b0 b1 b2 rest ih =>
    have h0 := hbyte b0
    have h1 := hbyte b1
    have h2 := hbyte b2
    have hs0 := hsym (b0.toNat / 4) (by omega)
    have hs1 := hsym (b0.toNat % 4 * 16 + b1.toNat / 16) (by omega)
    have hs2 := hsym (b1.toNat % 16 * 4 + b2.toNat / 64) (by omega)
    have hs3 := hsym (b2.toNat % 64) (by omega)
    rw [fillEncoded]
    cases hrest : fillEncoded rest with
    | nil => simp only [isB64urlChars, hs0, hs1, hs2, hs3, Bool.and_self]
    | cons c cs =>
      have hne : rest ≠ [] := by
        rintro rfl
        cases hrest
      have htail := ih hne
      rw [hrest] at htail
      simp only [isB64urlChars, hs0, hs1, hs2, hs3, htail, Bool.and_self]
  | case2 b0 b1 =>
    have h0 := hbyte b0
    have h1 := hbyte b1
    have hs0 := hsym (b0.toNat / 4) (by omega)
    have hs1 := hsym (b0.toNat % 4 * 16 + b1.toNat / 16) (by omega)
    have hs2 := isTwoByteTail_symbol (b1.toNat % 16) (by omega)
    rw [fillEncoded]
    simp only [isB64urlChars, hs0, hs1, hs2, Bool.and_self]
  | case3 b0 =>
    have h0 := hbyte b0
    have hs0 := hsym (b0.toNat / 4) (by omega)
    have hs1 := isOneByteTail_symbol (b0.toNat % 4) (by omega)
    rw [fillEncoded]
    simp only [isB64urlChars, hs0, hs1, Bool.and_self]
  | case4 => exact absurd rfl h

theorem isB64urlText_encode (data : Bytes) (h : data ≠ []) :
    isB64urlText (encodeBase64urlNopad data) = true := by
  rw [isB64urlText, encodeBase64urlNopad, String.toList_ofList]
  exact isB64urlChars_fillEncoded data h

/-- A field of `n` bytes has the sized form. -/
theorem isB64urlSized_encode {n : Nat} (data : Bytes) (hlen : data.length = n) (hpos : 0 < n) :
    isB64urlSized (computeEncodedLen n) (encodeBase64urlNopad data) = true := by
  have hne : data ≠ [] := by
    rintro rfl
    exact absurd hlen (Nat.ne_of_lt hpos)
  rw [isB64urlSized, isB64urlText_encode data hne, encodeBase64urlNopad, String.toList_ofList,
    fillEncoded_length, hlen, beq_self_eq_true]
  rfl

end WireTexts
