import Kapsaro.JsonScan
import Kapsaro.TrustDocument

/-!
# Strict JSON — the visitor, the number rule and the canonical serialiser

Three pieces of the program decide which JSON values it works with: the visitor of
`format/schema/document.rs`, the number rule of `format/number.rs` and the serialiser of
`format/jcs/serializer.rs`.  Each is written here as its own recursion, with the three kinds of
number that `serde_json` tells apart.

* **`Number`**, **`Value`** — numbers and values as the program holds them; the members of an object
  are a map, listed by name.
* **`visit`** — the visitor on a text of the grammar.
* **`validateNumbers`**, **`integerOnly`**, **`normalize`** — the rule, and canonical bytes.
* **`validateNumbers_iff`** — rule and serialiser let the same values through.
* **`visit_sound`**, **`visit_total`** — the visitor accepts the texts whose value has distinct
  names and safe integers, and what it holds is serialised as that value.
-/

namespace StrictJson

open JsonText JsonGrammar JsonMembers JsonScan Limits TextLines DocumentTokens KeyedList
open TrustDocument

/-! ## Numbers and values -/

/-- A number as it is held: an unsigned integer, a negative one, or a float. A fraction, an
    exponent, a negative zero and an integer beyond 64 bits are floats. -/
inductive Number where
  | posInt (n : Nat) (fits : n < 2 ^ 64)
  | negInt (n : Int) (fits : -2 ^ 63 ≤ n ∧ n < 0)
  | float (literal : NumberText)

/-- The number of a literal. -/
def numberOf (n : NumberText) : Number :=
  if n.fraction.isSome || n.exponent.isSome then .float n
  else if n.negative then
    if h : -2 ^ 63 ≤ -(n.magnitude : Int) ∧ -(n.magnitude : Int) < 0 then .negInt _ h else .float n
  else if h : n.magnitude < 2 ^ 64 then .posInt _ h else .float n

/-- A value; an object lists its members by name. -/
inductive Value where
  | null
  | bool (b : Bool)
  | number (n : Number)
  | string (s : String)
  | array (items : List Value)
  | object (members : List (String × Value))

/-- Put a member into a map. -/
def mapInsert {α : Type} (key : String) (value : α) : List (String × α) → List (String × α)
  | [] => [(key, value)]
  | (k, v) :: rest =>
    if key < k then (key, value) :: (k, v) :: rest
    else if key = k then (key, value) :: rest
    else (k, v) :: mapInsert key value rest

/-! ## The number rule -/

def floatError : String :=
  "JSON numbers must be safe integers; floating-point values are forbidden"

def validateInteger (value : Int) : Except String Unit :=
  if -(maxSafeInteger : Int) ≤ value ∧ value ≤ maxSafeInteger then .ok ()
  else .error "JSON integer exceeds the safe range -9007199254740991..=9007199254740991"

/-- The number as a signed integer of 64 bits, where it is one. -/
def Number.asI64 : Number → Option Int
  | .posInt n _ => if n < 2 ^ 63 then some n else none
  | .negInt n _ => some n
  | .float _ => none

def Number.asU64 : Number → Option Nat
  | .posInt n _ => some n
  | .negInt _ _ => none
  | .float _ => none

def validateNumber (n : Number) : Except String Unit :=
  match n.asI64.or (n.asU64.map Int.ofNat) with
  | some integer => validateInteger integer
  | none => .error floatError

mutual
/-- Every number of a value is a safe integer. -/
def validateNumbers : Value → Except String Unit
  | .number n => validateNumber n
  | .array items => validateItems items
  | .object members => validateMembers members
  | _ => .ok ()

def validateItems : List Value → Except String Unit
  | [] => .ok ()
  | v :: items => do
    validateNumbers v
    validateItems items

def validateMembers : List (String × Value) → Except String Unit
  | [] => .ok ()
  | (_, v) :: members => do
    validateNumbers v
    validateMembers members
end

/-! ## The visitor -/

/-- Why a text is refused: by the visitor, or by the parser below it. -/
inductive VisitError where
  | custom (message : String)
  | unpairedSurrogate
deriving DecidableEq, Repr

def visitNumber : Number → Except VisitError Value
  | .posInt n h => do
    (validateInteger n).mapError .custom
    pure (.number (.posInt n h))
  | .negInt n h => do
    (validateInteger n).mapError .custom
    pure (.number (.negInt n h))
  | .float _ => .error (.custom floatError)

/-- The string of a literal. -/
def readString (pieces : List StringPiece) : Except VisitError String :=
  match unescape pieces with
  | some s => .ok s
  | none => .error .unpairedSurrogate

mutual
/-- The value of a text, without repeated member names and with safe integers only. Texts come here
    through the limit scan, so that the deserializer's own limit on nesting is never met. -/
def visit : JsonDoc → Except VisitError Value
  | .null => .ok .null
  | .bool b => .ok (.bool b)
  | .num n => visitNumber (numberOf n)
  | .str pieces => (readString pieces).map .string
  | .emptyArr _ => .ok (.array [])
  | .arr items => (visitSeq items).map .array
  | .emptyObj _ => .ok (.object [])
  | .obj members => (visitMap [] [] members).map .object

def visitSeq : DocItems → Except VisitError (List Value)
  | .last _ v _ => do
    let value ← visit v
    pure [value]
  | .more _ v _ rest => do
    let value ← visit v
    let values ← visitSeq rest
    pure (value :: values)

/-- The names that were met, and the members so far. -/
def visitMap (names : List String) (object : List (String × Value)) :
    DocMembers → Except VisitError (List (String × Value))
  | .last _ name _ _ v _ => do
    let key ← readString name
    if key ∈ names then .error (.custom s!"duplicate JSON member name '{key}'")
    else
      let value ← visit v
      pure (mapInsert key value object)
  | .more _ name _ _ v _ rest => do
    let key ← readString name
    if key ∈ names then .error (.custom s!"duplicate JSON member name '{key}'")
    else
      let value ← visit v
      visitMap (key :: names) (mapInsert key value object) rest
end

/-! ## The serialiser -/

def serializeNumber : Number → Except String Json
  | .posInt n _ => do
    validateInteger n
    pure (.num n)
  | .negInt n _ => do
    validateInteger n
    pure (.num n)
  | .float _ => .error floatError

mutual
/-- What reaches the canonical serialiser: a value whose numbers were let through. -/
def integerOnly : Value → Except String Json
  | .null => .ok .null
  | .bool b => .ok (.bool b)
  | .number n => serializeNumber n
  | .string s => .ok (.str s)
  | .array items => (integerOnlyItems items).map .arr
  | .object members => (integerOnlyMembers members).map .obj

def integerOnlyItems : List Value → Except String (List Json)
  | [] => .ok []
  | v :: items => do
    let x ← integerOnly v
    let xs ← integerOnlyItems items
    pure (x :: xs)

def integerOnlyMembers : List (String × Value) → Except String (List (String × Json))
  | [] => .ok []
  | (name, v) :: members => do
    let x ← integerOnly v
    let xs ← integerOnlyMembers members
    pure ((name, x) :: xs)
end

/-- The canonical bytes of a value. -/
def normalize (value : Value) : Except Error Bytes :=
  match integerOnly value with
  | .ok v => .ok (utf8 (jcsText v))
  | .error e => .error (formatParseError ("JCS normalization failed: " ++ e))

/-! ## The three rules agree -/

theorem validateInteger_ok {value : Int} :
    validateInteger value = .ok () ↔ value.natAbs ≤ maxSafeInteger := by
  rw [validateInteger]
  by_cases hsafe : -(maxSafeInteger : Int) ≤ value ∧ value ≤ maxSafeInteger
  · rw [if_pos hsafe]
    exact iff_of_true rfl (by omega)
  · rw [if_neg hsafe]
    exact iff_of_false (fun h => by cases h) (by omega)

/-- The integer a number holds. -/
def Number.integer? : Number → Option Int
  | .posInt n _ => some n
  | .negInt n _ => some n
  | .float _ => none

/-- A number the program works with. -/
def Number.Safe (n : Number) : Prop :=
  ∃ integer, n.integer? = some integer ∧ integer.natAbs ≤ maxSafeInteger

theorem validateNumber_ok {n : Number} : validateNumber n = .ok () ↔ n.Safe := by
  rw [Number.Safe]
  cases n with
  | posInt n h =>
    have hinteger : (Number.posInt n h).asI64.or ((Number.posInt n h).asU64.map Int.ofNat)
        = some (n : Int) := by
      rw [Number.asI64, Number.asU64]
      by_cases hsigned : n < 2 ^ 63
      · rw [if_pos hsigned]
        rfl
      · rw [if_neg hsigned]
        rfl
    rw [validateNumber, hinteger]
    dsimp only
    rw [validateInteger_ok]
    exact ⟨fun hsafe => ⟨n, rfl, hsafe⟩, fun ⟨_, heq, hsafe⟩ => Option.some.inj heq ▸ hsafe⟩
  | negInt n h =>
    show validateInteger n = .ok () ↔ _
    rw [validateInteger_ok]
    exact ⟨fun hsafe => ⟨n, rfl, hsafe⟩, fun ⟨_, heq, hsafe⟩ => Option.some.inj heq ▸ hsafe⟩
  | float literal => exact iff_of_false (fun h => by cases h) fun ⟨_, heq, _⟩ => by cases heq

theorem serializeNumber_ok {n : Number} {v : Json} :
    serializeNumber n = .ok v ↔ ∃ integer, n.integer? = some integer
      ∧ integer.natAbs ≤ maxSafeInteger ∧ v = .num integer := by
  have hinteger : ∀ integer : Int, (validateInteger integer >>= fun _ => pure (.num integer))
      = (.ok v : Except String Json) ↔ integer.natAbs ≤ maxSafeInteger ∧ v = .num integer := by
    intro integer
    rw [bind_eq_ok]
    constructor
    · rintro ⟨⟨⟩, hvalid, hv⟩
      exact ⟨validateInteger_ok.mp hvalid, (Except.ok.inj hv).symm⟩
    · rintro ⟨hsafe, rfl⟩
      exact ⟨(), validateInteger_ok.mpr hsafe, rfl⟩
  cases n with
  | posInt n h =>
    refine (hinteger n).trans ⟨fun ⟨hsafe, hv⟩ => ⟨n, rfl, hsafe, hv⟩, ?_⟩
    rintro ⟨_, heq, hsafe, rfl⟩
    obtain rfl := Option.some.inj heq
    exact ⟨hsafe, rfl⟩
  | negInt n h =>
    refine (hinteger n).trans ⟨fun ⟨hsafe, hv⟩ => ⟨n, rfl, hsafe, hv⟩, ?_⟩
    rintro ⟨_, heq, hsafe, rfl⟩
    obtain rfl := Option.some.inj heq
    exact ⟨hsafe, rfl⟩
  | float literal => exact iff_of_false (fun h => by cases h) fun ⟨_, heq, _⟩ => by cases heq

mutual
/-- **RULE AND SERIALISER AGREE** on every value. -/
theorem validateNumbers_iff : ∀ value : Value,
    validateNumbers value = .ok () ↔ ∃ v, integerOnly value = .ok v
  | .null => iff_of_true rfl ⟨_, rfl⟩
  | .bool b => iff_of_true rfl ⟨_, rfl⟩
  | .number n => by
    show validateNumber n = .ok () ↔ ∃ v, serializeNumber n = .ok v
    rw [validateNumber_ok, Number.Safe]
    constructor
    · rintro ⟨integer, heq, hsafe⟩
      exact ⟨_, serializeNumber_ok.mpr ⟨integer, heq, hsafe, rfl⟩⟩
    · rintro ⟨v, hv⟩
      obtain ⟨integer, heq, hsafe, _⟩ := serializeNumber_ok.mp hv
      exact ⟨integer, heq, hsafe⟩
  | .string s => iff_of_true rfl ⟨_, rfl⟩
  | .array items => by
    rw [validateNumbers, validateItems_iff items]
    constructor
    · rintro ⟨vs, hvs⟩
      exact ⟨.arr vs, by rw [integerOnly, hvs]; rfl⟩
    · rintro ⟨v, hv⟩
      obtain ⟨vs, hvs, _⟩ := map_eq_ok.mp hv
      exact ⟨vs, hvs⟩
  | .object members => by
    rw [validateNumbers, validateMembers_iff members]
    constructor
    · rintro ⟨ms, hms⟩
      exact ⟨.obj ms, by rw [integerOnly, hms]; rfl⟩
    · rintro ⟨v, hv⟩
      obtain ⟨ms, hms, _⟩ := map_eq_ok.mp hv
      exact ⟨ms, hms⟩

theorem validateItems_iff : ∀ items : List Value,
    validateItems items = .ok () ↔ ∃ vs, integerOnlyItems items = .ok vs
  | [] => iff_of_true rfl ⟨_, rfl⟩
  | v :: items => by
    rw [validateItems, bind_eq_ok]
    constructor
    · rintro ⟨⟨⟩, hv, hitems⟩
      obtain ⟨x, hx⟩ := (validateNumbers_iff v).mp hv
      obtain ⟨xs, hxs⟩ := (validateItems_iff items).mp hitems
      exact ⟨x :: xs, bind_eq_ok.mpr ⟨x, hx, bind_eq_ok.mpr ⟨xs, hxs, rfl⟩⟩⟩
    · rintro ⟨vs, hvs⟩
      obtain ⟨x, hx, hvs⟩ := bind_eq_ok.mp hvs
      obtain ⟨xs, hxs, _⟩ := bind_eq_ok.mp hvs
      exact ⟨(), (validateNumbers_iff v).mpr ⟨x, hx⟩, (validateItems_iff items).mpr ⟨xs, hxs⟩⟩

theorem validateMembers_iff : ∀ members : List (String × Value),
    validateMembers members = .ok () ↔ ∃ ms, integerOnlyMembers members = .ok ms
  | [] => iff_of_true rfl ⟨_, rfl⟩
  | (name, v) :: members => by
    rw [validateMembers, bind_eq_ok]
    constructor
    · rintro ⟨⟨⟩, hv, hmembers⟩
      obtain ⟨x, hx⟩ := (validateNumbers_iff v).mp hv
      obtain ⟨xs, hxs⟩ := (validateMembers_iff members).mp hmembers
      exact ⟨(name, x) :: xs, bind_eq_ok.mpr ⟨x, hx, bind_eq_ok.mpr ⟨xs, hxs, rfl⟩⟩⟩
    · rintro ⟨ms, hms⟩
      obtain ⟨x, hx, hms⟩ := bind_eq_ok.mp hms
      obtain ⟨xs, hxs, _⟩ := bind_eq_ok.mp hms
      exact ⟨(), (validateNumbers_iff v).mpr ⟨x, hx⟩, (validateMembers_iff members).mpr ⟨xs, hxs⟩⟩
end

theorem normalize_ok {value : Value} {bytes : Bytes} :
    normalize value = .ok bytes ↔ ∃ v, integerOnly value = .ok v ∧ bytes = utf8 (jcsText v) := by
  rw [normalize]
  cases integerOnly value with
  | error e => exact iff_of_false (fun h => by cases h) fun ⟨_, h, _⟩ => by cases h
  | ok v =>
    exact ⟨fun h => ⟨v, rfl, (Except.ok.inj h).symm⟩,
      fun ⟨_, hv, hbytes⟩ => congrArg Except.ok (by rw [hbytes, ← Except.ok.inj hv])⟩

/-! ## Maps -/

section Maps

variable {α : Type}

theorem mapInsert_perm {key : String} (value : α) {members : List (String × α)}
    (h : key ∉ members.map Prod.fst) :
    (mapInsert key value members).Perm ((key, value) :: members) := by
  induction members with
  | nil => exact List.Perm.refl _
  | cons m rest ih =>
    obtain ⟨k, v⟩ := m
    rw [List.map_cons, List.mem_cons, not_or] at h
    rw [mapInsert]
    by_cases hlt : key < k
    · rw [if_pos hlt]
    · rw [if_neg hlt, if_neg h.1]
      exact ((ih h.2).cons (k, v)).trans (List.Perm.swap _ _ _)

/-- Members that are listed by name, each name once. -/
def Listed (members : List (String × α)) : Prop :=
  members.Pairwise fun x y => x.1 < y.1

theorem Listed.mapInsert {key : String} (value : α) {members : List (String × α)}
    (hlisted : Listed members) (h : key ∉ members.map Prod.fst) :
    Listed (mapInsert key value members) := by
  induction members with
  | nil => exact List.pairwise_singleton _ _
  | cons m rest ih =>
    obtain ⟨k, v⟩ := m
    obtain ⟨hfirst, hrest⟩ := List.pairwise_cons.mp hlisted
    rw [List.map_cons, List.mem_cons, not_or] at h
    rw [StrictJson.mapInsert]
    by_cases hlt : key < k
    · rw [if_pos hlt]
      refine List.pairwise_cons.mpr ⟨fun m hm => ?_, hlisted⟩
      rcases List.mem_cons.mp hm with rfl | hmem
      · exact hlt
      · exact lt_trans hlt (hfirst m hmem)
    · rw [if_neg hlt, if_neg h.1]
      have hkey : k < key := lt_of_le_of_ne (not_lt.mp hlt) fun heq => h.1 heq.symm
      refine List.pairwise_cons.mpr ⟨fun m hm => ?_, ih hrest h.2⟩
      rcases List.mem_cons.mp ((mapInsert_perm value h.2).mem_iff.mp hm) with rfl | hmem
      · exact hkey
      · exact hfirst m hmem

theorem Listed.nodup {members : List (String × α)} (h : Listed members) :
    (members.map Prod.fst).Nodup :=
  List.pairwise_map.mpr (h.imp fun hlt => ne_of_lt hlt)

/-- A map is the sorted form of whatever list has its members. -/
theorem Listed.eq_sortBy {members other : List (String × α)} (h : Listed members)
    (hperm : members.Perm other) : members = sortBy Prod.fst other := by
  have hother : (other.map Prod.fst).Nodup := (hperm.map Prod.fst).nodup_iff.mp h.nodup
  have hsorted := hperm.trans (perm_sortBy Prod.fst other).symm
  refine hsorted.eq_of_pairwise ?_ h (pairwise_sortBy hother)
  intro x y _ _ hxy hyx
  exact absurd hyx (lt_asymm hxy)

end Maps

/-- A member is serialised where it is put. -/
theorem integerOnlyMembers_mapInsert {key : String} {value : Value} {v : Json}
    (hvalue : integerOnly value = .ok v) : ∀ {members : List (String × Value)}
    {written : List (String × Json)}, integerOnlyMembers members = .ok written →
    integerOnlyMembers (mapInsert key value members) = .ok (mapInsert key v written)
  | [], written, h => by
    obtain rfl := Except.ok.inj h
    exact bind_eq_ok.mpr ⟨v, hvalue, rfl⟩
  | (name, old) :: members, written, h => by
    have hwhole := h
    obtain ⟨x, hx, h⟩ := bind_eq_ok.mp h
    obtain ⟨xs, hxs, hresult⟩ := bind_eq_ok.mp h
    obtain rfl := Except.ok.inj hresult
    rw [mapInsert, mapInsert]
    by_cases hlt : key < name
    · rw [if_pos hlt, if_pos hlt]
      exact bind_eq_ok.mpr ⟨v, hvalue, bind_eq_ok.mpr ⟨_, hwhole, rfl⟩⟩
    · rw [if_neg hlt, if_neg hlt]
      by_cases hsame : key = name
      · rw [if_pos hsame, if_pos hsame]
        exact bind_eq_ok.mpr ⟨v, hvalue, bind_eq_ok.mpr ⟨xs, hxs, rfl⟩⟩
      · rw [if_neg hsame, if_neg hsame]
        have hrest := @integerOnlyMembers_mapInsert key _ _ hvalue _ _ hxs
        exact bind_eq_ok.mpr ⟨x, hx, bind_eq_ok.mpr ⟨_, hrest, rfl⟩⟩

/-! ## Number literals -/

theorem le_ofDigitChars (ds : List Char) (start : Nat) : start ≤ Nat.ofDigitChars 10 ds start := by
  induction ds generalizing start with
  | nil => exact Nat.le_refl _
  | cons d ds ih =>
    have hstep := ih (10 * start + (d.toNat - '0'.toNat))
    rw [Nat.ofDigitChars_cons]
    omega

/-- Only the literal zero has the magnitude zero. -/
theorem magnitude_pos {n : NumberText} (h : n.whole.chars ≠ ['0']) : 0 < n.magnitude := by
  obtain ⟨negative, ⟨chars, hnonempty, hdigits⟩, hplain, fraction, exponent⟩ := n
  cases chars with
  | nil => exact absurd rfl hnonempty
  | cons d ds =>
    have hne : d ≠ '0' := by
      rintro rfl
      exact h (hplain rfl)
    have hdigit := hdigits d List.mem_cons_self
    have hvalue : 1 ≤ d.toNat - '0'.toNat := by
      rw [Char.isDigit, Bool.and_eq_true, decide_eq_true_eq, decide_eq_true_eq] at hdigit
      have hlow : 48 ≤ d.toNat := hdigit.1
      have hzero : d.toNat ≠ 48 := fun heq => hne (Char.toNat_inj.mp heq)
      have hbase : '0'.toNat = 48 := rfl
      omega
    have hstep := le_ofDigitChars ds (10 * 0 + (d.toNat - '0'.toNat))
    show 0 < Nat.ofDigitChars 10 (d :: ds) 0
    rw [Nat.ofDigitChars_cons]
    omega

/-- A literal spells the integer its number holds. -/
theorem value?_of_integer {n : NumberText} {integer : Int}
    (h : (numberOf n).integer? = some integer) : n.value? = some integer := by
  rw [numberOf] at h
  rw [NumberText.value?]
  by_cases hparts : (n.fraction.isSome || n.exponent.isSome) = true
  · rw [if_pos hparts] at h
    cases h
  rw [if_neg hparts] at h
  rw [if_neg hparts]
  by_cases hnegative : n.negative = true
  · rw [if_pos hnegative] at h
    rw [if_pos hnegative]
    split at h
    · rename_i hfits
      have hzero : n.whole.chars ≠ ['0'] := by
        intro hchars
        have hmagnitude : n.magnitude = 0 := by
          rw [NumberText.magnitude, hchars]
          rfl
        omega
      rw [if_neg hzero]
      exact h
    · cases h
  · rw [if_neg hnegative] at h
    rw [if_neg hnegative]
    split at h
    · exact h
    · cases h

/-- And the number of a literal holds the safe integer it spells. -/
theorem integer_of_value? {n : NumberText} {integer : Int} (h : n.value? = some integer)
    (hsafe : integer.natAbs ≤ maxSafeInteger) : (numberOf n).integer? = some integer := by
  have hmax : maxSafeInteger < 2 ^ 63 := by decide
  rw [NumberText.value?] at h
  rw [numberOf]
  by_cases hparts : (n.fraction.isSome || n.exponent.isSome) = true
  · rw [if_pos hparts] at h
    cases h
  rw [if_neg hparts] at h
  rw [if_neg hparts]
  by_cases hnegative : n.negative = true
  · rw [if_pos hnegative] at h
    rw [if_pos hnegative]
    by_cases hzero : n.whole.chars = ['0']
    · rw [if_pos hzero] at h
      cases h
    · rw [if_neg hzero] at h
      obtain rfl := Option.some.inj h
      have hpos := magnitude_pos hzero
      rw [dif_pos (by omega)]
      rfl
  · rw [if_neg hnegative] at h
    rw [if_neg hnegative]
    obtain rfl := Option.some.inj h
    rw [dif_pos (by omega)]
    rfl

theorem visitNumber_ok {n : Number} {value : Value} :
    visitNumber n = .ok value ↔ value = .number n ∧ n.Safe := by
  have hcheck : ∀ (integer : Int) (k : Number),
      ((validateInteger integer).mapError VisitError.custom >>= fun _ => pure (Value.number k))
        = .ok value ↔ value = .number k ∧ integer.natAbs ≤ maxSafeInteger := by
    intro integer k
    rw [bind_eq_ok]
    constructor
    · rintro ⟨⟨⟩, hvalid, hvalue⟩
      refine ⟨(Except.ok.inj hvalue).symm, validateInteger_ok.mp ?_⟩
      cases hresult : validateInteger integer with
      | ok u => rfl
      | error e =>
        rw [hresult] at hvalid
        cases hvalid
    · rintro ⟨rfl, hsafe⟩
      exact ⟨(), by rw [validateInteger_ok.mpr hsafe]; rfl, rfl⟩
  have hsafe : ∀ (integer : Int) (k : Number), k.integer? = some integer →
      (integer.natAbs ≤ maxSafeInteger ↔ k.Safe) := fun integer k hk =>
    ⟨fun h => ⟨integer, hk, h⟩, fun ⟨_, heq, h⟩ => Option.some.inj (hk.symm.trans heq) ▸ h⟩
  cases n with
  | posInt n h => exact (hcheck n _).trans (and_congr_right fun _ => hsafe n (.posInt n h) rfl)
  | negInt n h => exact (hcheck n _).trans (and_congr_right fun _ => hsafe n (.negInt n h) rfl)
  | float literal => exact iff_of_false (fun h => by cases h) fun ⟨_, _, heq, _⟩ => by cases heq

theorem readString_ok {pieces : List StringPiece} {s : String} :
    readString pieces = .ok s ↔ unescape pieces = some s := by
  rw [readString]
  cases unescape pieces with
  | none => exact iff_of_false (fun h => by cases h) fun h => by cases h
  | some t =>
    exact ⟨fun h => congrArg some (Except.ok.inj h),
      fun h => congrArg Except.ok (Option.some.inj h)⟩

/-! ## What the visitor accepts -/

/-- The members a map has so far, and the names met on the way to it. -/
structure MapState (names : List String) (object : List (String × Value))
    (written : List (String × Json)) : Prop where
  serialized : integerOnlyMembers object = .ok written
  listed : Listed written
  met : ∀ name, name ∈ names ↔ name ∈ written.map Prod.fst

/-- A new member is put into the map and into what is written of it. -/
theorem MapState.insert {names : List String} {object : List (String × Value)}
    {written : List (String × Json)} (h : MapState names object written) {key : String}
    {value : Value} {v : Json} (hfresh : key ∉ names) (hvalue : integerOnly value = .ok v) :
    MapState (key :: names) (mapInsert key value object) (mapInsert key v written) where
  serialized := integerOnlyMembers_mapInsert hvalue h.serialized
  listed := h.listed.mapInsert v fun hmem => hfresh ((h.met key).mpr hmem)
  met name := by
    have hfresh' : key ∉ written.map Prod.fst := fun hmem => hfresh ((h.met key).mpr hmem)
    rw [((mapInsert_perm v hfresh').map Prod.fst).mem_iff, List.map_cons, List.mem_cons,
      List.mem_cons, h.met name]

/-- What a visited value is to the value the parser finds. -/
structure Visited (value : Value) (v : Json) : Prop where
  unique : uniqueNames v = true
  safe : numbersWithin maxSafeInteger v = true
  serialized : integerOnly value = .ok (ordered v)

mutual
/-- **THE VISITOR ACCEPTS** only values without repeated names and with safe integers. -/
theorem visit_sound : ∀ (doc : JsonDoc) {value : Value}, visit doc = .ok value →
    ∃ v, doc.value? = some v ∧ Visited value v
  -- What is visited has a value; `Visited` is what the two have in common.
  | .null, value, h => by
    obtain rfl := Except.ok.inj h
    exact ⟨.null, rfl, rfl, rfl, rfl⟩
  | .bool b, value, h => by
    obtain rfl := Except.ok.inj h
    exact ⟨.bool b, rfl, rfl, rfl, rfl⟩
  | .num n, value, h => by
    obtain ⟨rfl, integer, hinteger, hsafe⟩ := visitNumber_ok.mp h
    refine ⟨.num integer, ?_, rfl, ?_, serializeNumber_ok.mpr ⟨integer, hinteger, hsafe, rfl⟩⟩
    · rw [JsonDoc.value?, value?_of_integer hinteger]
      rfl
    · rw [numbersWithin]
      exact decide_eq_true hsafe
  | .str pieces, value, h => by
    obtain ⟨s, hs, rfl⟩ := map_eq_ok.mp h
    refine ⟨.str s, ?_, rfl, rfl, rfl⟩
    rw [JsonDoc.value?, readString_ok.mp hs]
    rfl
  | .emptyArr gap, value, h => by
    obtain rfl := Except.ok.inj h
    exact ⟨.arr [], rfl, rfl, rfl, rfl⟩
  | .arr items, value, h => by
    obtain ⟨values, hvalues, rfl⟩ := map_eq_ok.mp h
    obtain ⟨vs, hvs, hunique, hsafe, hserialized⟩ := visitSeq_sound items hvalues
    refine ⟨.arr vs, ?_, hunique, hsafe, ?_⟩
    · rw [JsonDoc.value?, hvs]
      rfl
    · rw [integerOnly, hserialized, ordered]
      rfl
  | .emptyObj gap, value, h => by
    obtain rfl := Except.ok.inj h
    exact ⟨.obj [], rfl, rfl, rfl, rfl⟩
  | .obj members, value, h => by
    obtain ⟨result, hresult, rfl⟩ := map_eq_ok.mp h
    have hempty : MapState [] [] [] := ⟨rfl, List.Pairwise.nil, fun _ => Iff.rfl⟩
    obtain ⟨ms, hms, _, hnodup, hunique, hsafe, names, written, hstate, hperm⟩ :=
      visitMap_sound members hempty hresult
    rw [List.append_nil] at hperm
    refine ⟨.obj ms, ?_, ?_, hsafe, ?_⟩
    · rw [JsonDoc.value?, hms]
      rfl
    · rw [uniqueNames, hunique, Bool.and_true]
      exact decide_eq_true hnodup
    · rw [integerOnly, hstate.serialized, ordered, ← hstate.listed.eq_sortBy hperm]
      rfl

theorem visitSeq_sound : ∀ (items : DocItems) {values : List Value}, visitSeq items = .ok values →
    ∃ vs, items.values? = some vs ∧ uniqueNamesItems vs = true
      ∧ numbersWithinItems maxSafeInteger vs = true
      ∧ integerOnlyItems values = .ok (orderedItems vs)
  | .last before v after, values, h => by
    obtain ⟨value, hvalue, hresult⟩ := bind_eq_ok.mp h
    obtain rfl := Except.ok.inj hresult
    obtain ⟨x, hx, hunique, hsafe, hserialized⟩ := visit_sound v hvalue
    refine ⟨[x], ?_, ?_, ?_, bind_eq_ok.mpr ⟨_, hserialized, rfl⟩⟩
    · rw [DocItems.values?, hx]
      rfl
    · rw [uniqueNamesItems, hunique]
      rfl
    · rw [numbersWithinItems, hsafe]
      rfl
  | .more before v after rest, values, h => by
    obtain ⟨value, hvalue, h⟩ := bind_eq_ok.mp h
    obtain ⟨more, hmore, hresult⟩ := bind_eq_ok.mp h
    obtain rfl := Except.ok.inj hresult
    obtain ⟨x, hx, hunique, hsafe, hserialized⟩ := visit_sound v hvalue
    obtain ⟨xs, hxs, hunique', hsafe', hserialized'⟩ := visitSeq_sound rest hmore
    refine ⟨x :: xs, ?_, ?_, ?_,
      bind_eq_ok.mpr ⟨_, hserialized, bind_eq_ok.mpr ⟨_, hserialized', rfl⟩⟩⟩
    · rw [DocItems.values?, hx, hxs]
      rfl
    · rw [uniqueNamesItems, hunique, hunique']
      rfl
    · rw [numbersWithinItems, hsafe, hsafe']
      rfl

/-- The members of an object, put into a map one after another. -/
theorem visitMap_sound : ∀ (members : DocMembers) {names : List String}
    {object result : List (String × Value)} {written : List (String × Json)},
    MapState names object written → visitMap names object members = .ok result →
    ∃ ms, members.values? = some ms ∧ (∀ m ∈ ms, m.1 ∉ names) ∧ (ms.map Prod.fst).Nodup
      ∧ uniqueNamesMembers ms = true ∧ numbersWithinMembers maxSafeInteger ms = true
      ∧ ∃ names' written', MapState names' result written'
        ∧ written'.Perm (orderedMembers ms ++ written)
  | .last before name gap start v after, names, object, result, written, hstate, h => by
    obtain ⟨key, hkey, h⟩ := bind_eq_ok.mp h
    by_cases hmet : key ∈ names
    · rw [if_pos hmet] at h
      cases h
    rw [if_neg hmet] at h
    obtain ⟨value, hvalue, hresult⟩ := bind_eq_ok.mp h
    obtain rfl := Except.ok.inj hresult
    obtain ⟨x, hx, hunique, hsafe, hserialized⟩ := visit_sound v hvalue
    have hfresh : key ∉ written.map Prod.fst := fun hmem => hmet ((hstate.met key).mpr hmem)
    refine ⟨[(key, x)], ?_, ?_, List.nodup_singleton _, ?_, ?_, _, _,
      hstate.insert hmet hserialized, mapInsert_perm _ hfresh⟩
    · rw [DocMembers.values?, readString_ok.mp hkey, hx]
      rfl
    · intro m hm
      rw [List.mem_singleton.mp hm]
      exact hmet
    · rw [uniqueNamesMembers, hunique]
      rfl
    · rw [numbersWithinMembers, hsafe]
      rfl
  | .more before name gap start v after rest, names, object, result, written, hstate, h => by
    obtain ⟨key, hkey, h⟩ := bind_eq_ok.mp h
    by_cases hmet : key ∈ names
    · rw [if_pos hmet] at h
      cases h
    rw [if_neg hmet] at h
    obtain ⟨value, hvalue, h⟩ := bind_eq_ok.mp h
    obtain ⟨x, hx, hunique, hsafe, hserialized⟩ := visit_sound v hvalue
    have hfresh : key ∉ written.map Prod.fst := fun hmem => hmet ((hstate.met key).mpr hmem)
    obtain ⟨ms, hms, hdisjoint, hnodup, hunique', hsafe', names', written', hstate', hperm⟩ :=
      visitMap_sound rest (hstate.insert hmet hserialized) h
    have hnew : key ∉ ms.map Prod.fst := by
      intro hmem
      obtain ⟨m, hm, heq⟩ := List.mem_map.mp hmem
      exact hdisjoint m hm (heq ▸ List.mem_cons_self)
    refine ⟨(key, x) :: ms, ?_, ?_, List.nodup_cons.mpr ⟨hnew, hnodup⟩, ?_, ?_, names', written',
      hstate', ?_⟩
    · rw [DocMembers.values?, readString_ok.mp hkey, hx, hms]
      rfl
    · intro m hm
      rcases List.mem_cons.mp hm with rfl | hmem
      · exact hmet
      · exact fun hin => hdisjoint m hmem (List.mem_cons_of_mem _ hin)
    · rw [uniqueNamesMembers, hunique, hunique']
      rfl
    · rw [numbersWithinMembers, hsafe, hsafe']
      rfl
    · have hinsert := (mapInsert_perm (ordered x) hfresh).append_left (orderedMembers ms)
      exact hperm.trans (hinsert.trans List.perm_middle)
end

mutual
/-- And it accepts all of them. -/
theorem visit_total : ∀ (doc : JsonDoc) {v : Json}, doc.value? = some v → uniqueNames v = true →
    numbersWithin maxSafeInteger v = true → ∃ value, visit doc = .ok value
  | .null, _, _, _, _ => ⟨_, rfl⟩
  | .bool b, _, _, _, _ => ⟨_, rfl⟩
  | .num n, v, hv, _, hsafe => by
    obtain ⟨integer, hinteger, rfl⟩ := Option.map_eq_some_iff.mp hv
    rw [numbersWithin, decide_eq_true_eq] at hsafe
    exact ⟨_, visitNumber_ok.mpr ⟨rfl, integer, integer_of_value? hinteger hsafe, hsafe⟩⟩
  | .str pieces, v, hv, _, _ => by
    obtain ⟨s, hs, _⟩ := Option.map_eq_some_iff.mp hv
    exact ⟨.string s, map_eq_ok.mpr ⟨s, readString_ok.mpr hs, rfl⟩⟩
  | .emptyArr gap, _, _, _, _ => ⟨_, rfl⟩
  | .arr items, v, hv, hunique, hsafe => by
    obtain ⟨vs, hvs, rfl⟩ := Option.map_eq_some_iff.mp hv
    obtain ⟨values, hvalues⟩ := visitSeq_total items hvs hunique hsafe
    exact ⟨.array values, map_eq_ok.mpr ⟨values, hvalues, rfl⟩⟩
  | .emptyObj gap, _, _, _, _ => ⟨_, rfl⟩
  | .obj members, v, hv, hunique, hsafe => by
    obtain ⟨ms, hms, rfl⟩ := Option.map_eq_some_iff.mp hv
    rw [uniqueNames, Bool.and_eq_true, decide_eq_true_eq] at hunique
    obtain ⟨result, hresult⟩ := visitMap_total members [] [] hms hunique.1
      (fun _ _ => List.not_mem_nil) hunique.2 hsafe
    exact ⟨.object result, map_eq_ok.mpr ⟨result, hresult, rfl⟩⟩

theorem visitSeq_total : ∀ (items : DocItems) {vs : List Json}, items.values? = some vs →
    uniqueNamesItems vs = true → numbersWithinItems maxSafeInteger vs = true →
    ∃ values, visitSeq items = .ok values
  | .last before v after, vs, hvs, hunique, hsafe => by
    obtain ⟨x, hx, rfl⟩ := Option.map_eq_some_iff.mp hvs
    rw [uniqueNamesItems, Bool.and_eq_true] at hunique
    rw [numbersWithinItems, Bool.and_eq_true] at hsafe
    obtain ⟨value, hvalue⟩ := visit_total v hx hunique.1 hsafe.1
    exact ⟨[value], bind_eq_ok.mpr ⟨value, hvalue, rfl⟩⟩
  | .more before v after rest, vs, hvs, hunique, hsafe => by
    obtain ⟨x, hx, hvs⟩ := Option.bind_eq_some_iff.mp hvs
    obtain ⟨xs, hxs, rfl⟩ := Option.map_eq_some_iff.mp hvs
    rw [uniqueNamesItems, Bool.and_eq_true] at hunique
    rw [numbersWithinItems, Bool.and_eq_true] at hsafe
    obtain ⟨value, hvalue⟩ := visit_total v hx hunique.1 hsafe.1
    obtain ⟨values, hvalues⟩ := visitSeq_total rest hxs hunique.2 hsafe.2
    exact ⟨value :: values, bind_eq_ok.mpr ⟨value, hvalue, bind_eq_ok.mpr ⟨values, hvalues, rfl⟩⟩⟩

theorem visitMap_total : ∀ (members : DocMembers) (names : List String)
    (object : List (String × Value)) {ms : List (String × Json)}, members.values? = some ms →
    (ms.map Prod.fst).Nodup → (∀ m ∈ ms, m.1 ∉ names) → uniqueNamesMembers ms = true →
    numbersWithinMembers maxSafeInteger ms = true →
    ∃ result, visitMap names object members = .ok result
  | .last before name gap start v after, names, object, ms, hms, _, hfresh, hunique, hsafe => by
    obtain ⟨key, hkey, hms⟩ := Option.bind_eq_some_iff.mp hms
    obtain ⟨x, hx, rfl⟩ := Option.map_eq_some_iff.mp hms
    rw [uniqueNamesMembers, Bool.and_eq_true] at hunique
    rw [numbersWithinMembers, Bool.and_eq_true] at hsafe
    obtain ⟨value, hvalue⟩ := visit_total v hx hunique.1 hsafe.1
    refine ⟨mapInsert key value object, bind_eq_ok.mpr ⟨key, readString_ok.mpr hkey, ?_⟩⟩
    rw [if_neg (hfresh _ List.mem_cons_self)]
    exact bind_eq_ok.mpr ⟨value, hvalue, rfl⟩
  | .more before name gap start v after rest, names, object, ms, hms, hnodup, hfresh, hunique,
      hsafe => by
    obtain ⟨key, hkey, hms⟩ := Option.bind_eq_some_iff.mp hms
    obtain ⟨x, hx, hms⟩ := Option.bind_eq_some_iff.mp hms
    obtain ⟨more, hmore, rfl⟩ := Option.map_eq_some_iff.mp hms
    obtain ⟨hkeyNew, hnodup⟩ := List.nodup_cons.mp hnodup
    rw [uniqueNamesMembers, Bool.and_eq_true] at hunique
    rw [numbersWithinMembers, Bool.and_eq_true] at hsafe
    obtain ⟨value, hvalue⟩ := visit_total v hx hunique.1 hsafe.1
    have hfresh' : ∀ m ∈ more, m.1 ∉ key :: names := by
      intro m hm hin
      rcases List.mem_cons.mp hin with heq | hmem
      · exact hkeyNew (List.mem_map.mpr ⟨m, hm, heq⟩)
      · exact hfresh m (List.mem_cons_of_mem _ hm) hmem
    obtain ⟨result, hresult⟩ := visitMap_total rest (key :: names) (mapInsert key value object)
      hmore hnodup hfresh' hunique.2 hsafe.2
    refine ⟨result, bind_eq_ok.mpr ⟨key, readString_ok.mpr hkey, ?_⟩⟩
    rw [if_neg (hfresh _ List.mem_cons_self)]
    exact bind_eq_ok.mpr ⟨value, hvalue, hresult⟩
end

end StrictJson
