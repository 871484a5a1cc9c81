import Kapsaro.ToyDocuments
import Kapsaro.TrustSoundness

/-!
# Toy trust — a small trust store

A calendar for the parsers, and the trust store of a member who has not approved anything yet.
-/

namespace ToyTrust

open JsonText JsonMembers Limits TextLines Base64Codec WireTexts WireModel DocumentTokens
open Envelope KeyedList TrustRecords TrustStore TrustSoundness ToyCrypto ToyDocuments

/-! ## Parsers -/

/-- The number that digits spell. -/
def numberOf (digits : List Char) : Int :=
  digits.foldl (fun n c => n * 10 + (c.toNat - '0'.toNat)) 0

/-- The days from the first of March of the year 0 to a date. -/
def daysOf (year month day : Int) : Int :=
  let year := if month ≤ 2 then year - 1 else year
  let month := if month ≤ 2 then month + 9 else month - 3
  year * 365 + year / 4 - year / 100 + year / 400 + (month * 153 + 2) / 5 + day - 1

/-- The second a UTC text names. -/
def secondOf (ts : List Char) : Int :=
  let part := fun start length => numberOf ((ts.drop start).take length)
  ((daysOf (part 0 4) (part 5 2) (part 8 2) * 24 + part 11 2) * 60 + part 14 2) * 60 + part 17 2

def toyParsers : TextParsers where
  uuid := fun s => if h : isUuidText s = true then some ⟨s, h⟩ else none
  rfc3339 := fun s => if isRfc3339UtcText s then some (secondOf s.toList) else none

theorem lawful_toyParsers : toyParsers.Lawful where
  uuid_text sid := dif_pos sid.valid

def toyNow : CurrentTime toyParsers where
  toTimestamp := toyTime
  parses := by decide

/-! ## Stores -/

/-- A store of alice with these records. -/
def toyProtectedStore (keys : List KnownKey) (sets : List RecipientSetRecord) :
    TrustStoreProtected where
  format := localTrustV1
  ownerHandle := alice.text
  createdAt := toyTime.text
  updatedAt := toyTime.text
  knownKeys := keys
  recipientSets := sets

/-- A store of alice with nothing in it. -/
def toyStore : TrustStoreDocument where
  protect := toyProtectedStore [] []
  signature := ⟨signatureEd25519, toyKid.text,
    encodeBase64urlNopad (pad 64 (pad 32 [1]).bytes).bytes⟩

theorem accepted_toyStore : validateTrustStore toyCrypto toyParsers toyStore = .ok () := by
  decide +kernel

end ToyTrust
