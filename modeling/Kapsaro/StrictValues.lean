import Kapsaro.StrictJson
import Mathlib.Data.Rat.Lemmas

/-!
# Strict values — visitor, number rule and serialiser agree

What the three recursions of `StrictJson` have to do with each other and with the texts they work
on.

* **`RepeatsName`**, **`HasUnsafeNumber`** — the texts that have to be refused; a number is judged
  by the rational number it spells.
* **`heldValue`**, **`visit_iff`** — the visitor accepts the texts that repeat no name and whose
  value the rule lets through.
* **`integerOnly_injective`** — the serialiser tells all values apart.
* **`strictJsonLaws`** — the three agree, and canonical bytes determine the value.
-/

namespace StrictValues

open JsonText JsonGrammar JsonMembers JsonScan Limits TextLines DocumentTokens KeyedList
open TrustDocument StrictJson

/-! ## What has to be refused -/

/-- The member names of an object. -/
def memberNames : DocMembers → List String
  | .last _ name _ _ _ _ => (unescape name).toList
  | .more _ name _ _ _ _ rest => (unescape name).toList ++ memberNames rest

mutual
/-- Some object, at any depth, has two members of one name. -/
def RepeatsName : JsonDoc → Prop
  | .arr items => RepeatsNameItems items
  | .obj members => ¬ (memberNames members).Nodup ∨ RepeatsNameMembers members
  | _ => False

def RepeatsNameItems : DocItems → Prop
  | .last _ v _ => RepeatsName v
  | .more _ v _ rest => RepeatsName v ∨ RepeatsNameItems rest

def RepeatsNameMembers : DocMembers → Prop
  | .last _ _ _ _ v _ => RepeatsName v
  | .more _ _ _ _ v _ rest => RepeatsName v ∨ RepeatsNameMembers rest
end

/-- The rational number a literal spells: its digits, shifted by the exponent and the fraction. -/
def spelledNumber (n : NumberText) : ℚ :=
  let fraction := (n.fraction.map Digits.chars).getD []
  let exponent : Int := match n.exponent with
    | none => 0
    | some e =>
      let magnitude : Int := Nat.ofDigitChars 10 e.digits.chars 0
      if e.sign = some true then -magnitude else magnitude
  (if n.negative then -1 else 1) * (Nat.ofDigitChars 10 (n.whole.chars ++ fraction) 0 : ℚ)
    * 10 ^ (exponent - fraction.length)

/-- A literal of an integer that the program works with. -/
def IsSafeInteger (n : NumberText) : Prop :=
  ∃ integer : Int, spelledNumber n = integer ∧ integer.natAbs ≤ maxSafeInteger

mutual
/-- Some number, at any depth, is not a safe integer. -/
def HasUnsafeNumber : JsonDoc → Prop
  | .num n => ¬ IsSafeInteger n
  | .arr items => HasUnsafeNumberItems items
  | .obj members => HasUnsafeNumberMembers members
  | _ => False

def HasUnsafeNumberItems : DocItems → Prop
  | .last _ v _ => HasUnsafeNumber v
  | .more _ v _ rest => HasUnsafeNumber v ∨ HasUnsafeNumberItems rest

def HasUnsafeNumberMembers : DocMembers → Prop
  | .last _ _ _ _ v _ => HasUnsafeNumber v
  | .more _ _ _ _ v _ rest => HasUnsafeNumber v ∨ HasUnsafeNumberMembers rest
end

/-- An integer literal spells its integer. -/
theorem spelledNumber_of_value? {n : NumberText} {integer : Int} (h : n.value? = some integer) :
    spelledNumber n = integer := by
  rw [NumberText.value?] at h
  by_cases hparts : (n.fraction.isSome || n.exponent.isSome) = true
  · rw [if_pos hparts] at h
    cases h
  rw [if_neg hparts] at h
  rw [Bool.or_eq_true, not_or, Option.not_isSome_iff_eq_none, Option.not_isSome_iff_eq_none]
    at hparts
  have hnumber : spelledNumber n = (if n.negative then -1 else 1) * (n.magnitude : ℚ) := by
    rw [spelledNumber, hparts.1, hparts.2, NumberText.magnitude]
    simp
  rw [hnumber]
  by_cases hnegative : n.negative = true
  · rw [if_pos hnegative] at h ⊢
    by_cases hzero : n.whole.chars = ['0']
    · rw [if_pos hzero] at h
      cases h
    · rw [if_neg hzero] at h
      rw [← Option.some.inj h, neg_one_mul, Int.cast_neg, Int.cast_natCast]
  · rw [if_neg hnegative] at h ⊢
    rw [← Option.some.inj h, one_mul, Int.cast_natCast]

mutual
/-- A text whose value has safe numbers only has no other number. -/
theorem safe_docText : ∀ {doc : JsonDoc} {v : Json}, doc.value? = some v →
    numbersWithin maxSafeInteger v = true → ¬ HasUnsafeNumber doc
  | .null, _, _, _ => id
  | .bool _, _, _, _ => id
  | .num n, v, hv, hsafe => by
    obtain ⟨integer, hinteger, rfl⟩ := Option.map_eq_some_iff.mp hv
    rw [numbersWithin, decide_eq_true_eq] at hsafe
    exact not_not.mpr ⟨integer, spelledNumber_of_value? hinteger, hsafe⟩
  | .str _, _, _, _ => id
  | .emptyArr _, _, _, _ => id
  | .arr items, v, hv, hsafe => by
    obtain ⟨vs, hvs, rfl⟩ := Option.map_eq_some_iff.mp hv
    exact safe_itemsText hvs hsafe
  | .emptyObj _, _, _, _ => id
  | .obj members, v, hv, hsafe => by
    obtain ⟨ms, hms, rfl⟩ := Option.map_eq_some_iff.mp hv
    exact safe_membersText hms hsafe

theorem safe_itemsText : ∀ {items : DocItems} {vs : List Json}, items.values? = some vs →
    numbersWithinItems maxSafeInteger vs = true → ¬ HasUnsafeNumberItems items
  | .last before v after, vs, hvs, hsafe => by
    obtain ⟨x, hx, rfl⟩ := Option.map_eq_some_iff.mp hvs
    rw [numbersWithinItems, Bool.and_eq_true] at hsafe
    exact safe_docText hx hsafe.1
  | .more before v after rest, vs, hvs, hsafe => by
    obtain ⟨x, hx, hvs⟩ := Option.bind_eq_some_iff.mp hvs
    obtain ⟨xs, hxs, rfl⟩ := Option.map_eq_some_iff.mp hvs
    rw [numbersWithinItems, Bool.and_eq_true] at hsafe
    exact not_or.mpr ⟨safe_docText hx hsafe.1, safe_itemsText hxs hsafe.2⟩

theorem safe_membersText : ∀ {members : DocMembers} {ms : List (String × Json)},
    members.values? = some ms → numbersWithinMembers maxSafeInteger ms = true →
    ¬ HasUnsafeNumberMembers members
  | .last before name gap start v after, ms, hms, hsafe => by
    obtain ⟨key, _, hms⟩ := Option.bind_eq_some_iff.mp hms
    obtain ⟨x, hx, rfl⟩ := Option.map_eq_some_iff.mp hms
    rw [numbersWithinMembers, Bool.and_eq_true] at hsafe
    exact safe_docText hx hsafe.1
  | .more before name gap start v after rest, ms, hms, hsafe => by
    obtain ⟨key, _, hms⟩ := Option.bind_eq_some_iff.mp hms
    obtain ⟨x, hx, hms⟩ := Option.bind_eq_some_iff.mp hms
    obtain ⟨xs, hxs, rfl⟩ := Option.map_eq_some_iff.mp hms
    rw [numbersWithinMembers, Bool.and_eq_true] at hsafe
    exact not_or.mpr ⟨safe_docText hx hsafe.1, safe_membersText hxs hsafe.2⟩
end

/-! ## The visitor and the number rule -/

mutual
/-- The value of a text as a map of values, before any rule; of members with one name the last one
    stays. -/
def heldValue : JsonDoc → Option Value
  | .null => some .null
  | .bool b => some (.bool b)
  | .num n => some (.number (numberOf n))
  | .str pieces => (unescape pieces).map .string
  | .emptyArr _ => some (.array [])
  | .arr items => (heldItems items).map .array
  | .emptyObj _ => some (.object [])
  | .obj members => (heldMembers [] members).map .object

def heldItems : DocItems → Option (List Value)
  | .last _ v _ => (heldValue v).map ([·])
  | .more _ v _ rest => (heldValue v).bind fun value => (heldItems rest).map (value :: ·)

def heldMembers (object : List (String × Value)) : DocMembers → Option (List (String × Value))
  | .last _ name _ _ v _ =>
    (unescape name).bind fun key => (heldValue v).map fun value => mapInsert key value object
  | .more _ name _ _ v _ rest =>
    (unescape name).bind fun key =>
      (heldValue v).bind fun value => heldMembers (mapInsert key value object) rest
end

theorem validateMembers_forall {members : List (String × Value)} :
    validateMembers members = .ok () ↔ ∀ m ∈ members, validateNumbers m.2 = .ok () := by
  induction members with
  | nil => exact iff_of_true rfl fun _ hm => by cases hm
  | cons m members ih =>
    obtain ⟨name, v⟩ := m
    rw [validateMembers, bind_eq_ok, List.forall_mem_cons, ← ih]
    exact ⟨fun ⟨⟨⟩, hv, hmembers⟩ => ⟨hv, hmembers⟩, fun ⟨hv, hmembers⟩ => ⟨(), hv, hmembers⟩⟩

/-- A map with a new member keeps to the rule when both do. -/
theorem validateMembers_mapInsert {key : String} {value : Value}
    {object : List (String × Value)} (h : key ∉ object.map Prod.fst) :
    validateMembers (mapInsert key value object) = .ok ()
      ↔ validateNumbers value = .ok () ∧ validateMembers object = .ok () := by
  have hmem : ∀ m, m ∈ mapInsert key value object ↔ m ∈ (key, value) :: object := fun m =>
    (mapInsert_perm value h).mem_iff
  simp only [validateMembers_forall, hmem]
  exact List.forall_mem_cons

/-- The names met so far are the names of the map. -/
theorem met_mapInsert {names : List String} {object : List (String × Value)}
    (hmet : ∀ name, name ∈ names ↔ name ∈ object.map Prod.fst) {key : String} (value : Value)
    (hfresh : key ∉ object.map Prod.fst) (name : String) :
    name ∈ key :: names ↔ name ∈ (mapInsert key value object).map Prod.fst := by
  rw [((mapInsert_perm value hfresh).map Prod.fst).mem_iff, List.map_cons, List.mem_cons,
    List.mem_cons, hmet name]

mutual
/-- **VISITOR AND RULE AGREE**: a text is visited when it repeats no member name and the rule lets
    its value through. -/
theorem visit_iff : ∀ (doc : JsonDoc) {value : Value}, visit doc = .ok value ↔
    heldValue doc = some value ∧ ¬ RepeatsName doc ∧ validateNumbers value = .ok ()
  | .null, value => by
    refine ⟨fun h => ?_, fun ⟨h, _⟩ => congrArg Except.ok (Option.some.inj h)⟩
    obtain rfl := Except.ok.inj h
    exact ⟨rfl, id, rfl⟩
  | .bool b, value => by
    refine ⟨fun h => ?_, fun ⟨h, _⟩ => congrArg Except.ok (Option.some.inj h)⟩
    obtain rfl := Except.ok.inj h
    exact ⟨rfl, id, rfl⟩
  | .num n, value => by
    rw [visit, visitNumber_ok, heldValue]
    constructor
    · rintro ⟨rfl, hsafe⟩
      exact ⟨rfl, id, validateNumber_ok.mpr hsafe⟩
    · rintro ⟨h, _, hrule⟩
      obtain rfl := Option.some.inj h
      exact ⟨rfl, validateNumber_ok.mp hrule⟩
  | .str pieces, value => by
    rw [visit, map_eq_ok, heldValue, Option.map_eq_some_iff]
    constructor
    · rintro ⟨s, hs, rfl⟩
      exact ⟨⟨s, readString_ok.mp hs, rfl⟩, id, rfl⟩
    · rintro ⟨⟨s, hs, rfl⟩, _⟩
      exact ⟨s, readString_ok.mpr hs, rfl⟩
  | .emptyArr gap, value => by
    refine ⟨fun h => ?_, fun ⟨h, _⟩ => congrArg Except.ok (Option.some.inj h)⟩
    obtain rfl := Except.ok.inj h
    exact ⟨rfl, id, rfl⟩
  | .arr items, value => by
    rw [visit, map_eq_ok, heldValue, Option.map_eq_some_iff]
    constructor
    · rintro ⟨values, hvalues, rfl⟩
      obtain ⟨hheld, hrepeats, hrule⟩ := (visitSeq_iff items).mp hvalues
      exact ⟨⟨values, hheld, rfl⟩, hrepeats, hrule⟩
    · rintro ⟨⟨values, hheld, rfl⟩, hrepeats, hrule⟩
      exact ⟨values, (visitSeq_iff items).mpr ⟨hheld, hrepeats, hrule⟩, rfl⟩
  | .emptyObj gap, value => by
    refine ⟨fun h => ?_, fun ⟨h, _⟩ => congrArg Except.ok (Option.some.inj h)⟩
    obtain rfl := Except.ok.inj h
    exact ⟨rfl, id, rfl⟩
  | .obj members, value => by
    have hmembers := fun result => @visitMap_iff members [] [] result fun _ => Iff.rfl
    rw [visit, map_eq_ok, heldValue, Option.map_eq_some_iff]
    constructor
    · rintro ⟨result, hresult, rfl⟩
      obtain ⟨hheld, hnodup, _, hrepeats, hrule⟩ := (hmembers result).mp ⟨hresult, rfl⟩
      exact ⟨⟨result, hheld, rfl⟩, not_or.mpr ⟨not_not.mpr hnodup, hrepeats⟩, hrule⟩
    · rintro ⟨⟨result, hheld, rfl⟩, hrepeats, hrule⟩
      obtain ⟨hnodup, hinside⟩ := not_or.mp hrepeats
      have hnew : ∀ name ∈ memberNames members, name ∉ ([] : List String) :=
        fun _ _ => List.not_mem_nil
      exact ⟨result, ((hmembers result).mpr
        ⟨hheld, not_not.mp hnodup, hnew, hinside, hrule⟩).1, rfl⟩

theorem visitSeq_iff : ∀ (items : DocItems) {values : List Value}, visitSeq items = .ok values ↔
    heldItems items = some values ∧ ¬ RepeatsNameItems items ∧ validateItems values = .ok ()
  | .last before v after, values => by
    rw [visitSeq, bind_eq_ok, heldItems, Option.map_eq_some_iff]
    constructor
    · rintro ⟨value, hvalue, hresult⟩
      obtain rfl := Except.ok.inj hresult
      obtain ⟨hheld, hrepeats, hrule⟩ := (visit_iff v).mp hvalue
      exact ⟨⟨value, hheld, rfl⟩, hrepeats, bind_eq_ok.mpr ⟨(), hrule, rfl⟩⟩
    · rintro ⟨⟨value, hheld, rfl⟩, hrepeats, hrule⟩
      obtain ⟨⟨⟩, hrule, _⟩ := bind_eq_ok.mp hrule
      exact ⟨value, (visit_iff v).mpr ⟨hheld, hrepeats, hrule⟩, rfl⟩
  | .more before v after rest, values => by
    rw [visitSeq, bind_eq_ok, heldItems, Option.bind_eq_some_iff]
    constructor
    · rintro ⟨value, hvalue, h⟩
      obtain ⟨more, hmore, hresult⟩ := bind_eq_ok.mp h
      obtain rfl := Except.ok.inj hresult
      obtain ⟨hheld, hrepeats, hrule⟩ := (visit_iff v).mp hvalue
      obtain ⟨hheld', hrepeats', hrule'⟩ := (visitSeq_iff rest).mp hmore
      exact ⟨⟨value, hheld, Option.map_eq_some_iff.mpr ⟨more, hheld', rfl⟩⟩,
        not_or.mpr ⟨hrepeats, hrepeats'⟩, bind_eq_ok.mpr ⟨(), hrule, hrule'⟩⟩
    · rintro ⟨⟨value, hheld, h⟩, hrepeats, hrule⟩
      obtain ⟨more, hheld', rfl⟩ := Option.map_eq_some_iff.mp h
      obtain ⟨⟨⟩, hrule, hrule'⟩ := bind_eq_ok.mp hrule
      obtain ⟨hrepeats, hrepeats'⟩ := not_or.mp hrepeats
      exact ⟨value, (visit_iff v).mpr ⟨hheld, hrepeats, hrule⟩,
        bind_eq_ok.mpr ⟨more, (visitSeq_iff rest).mpr ⟨hheld', hrepeats', hrule'⟩, rfl⟩⟩

theorem visitMap_iff : ∀ (members : DocMembers) {names : List String}
    {object result : List (String × Value)},
    (∀ name, name ∈ names ↔ name ∈ object.map Prod.fst) →
    ((visitMap names object members = .ok result ∧ validateMembers object = .ok ()) ↔
      heldMembers object members = some result ∧ (memberNames members).Nodup
        ∧ (∀ name ∈ memberNames members, name ∉ names) ∧ ¬ RepeatsNameMembers members
        ∧ validateMembers result = .ok ())
  -- `hmet` carries the recursion: the names met are the names of the object so far.
  | .last before name gap start v after, names, object, result, hmet => by
    rw [visitMap, bind_eq_ok, heldMembers, Option.bind_eq_some_iff]
    constructor
    · rintro ⟨⟨key, hkey, h⟩, hobject⟩
      -- A name that was met before is refused, whatever its value.
      by_cases hknown : key ∈ names
      · rw [if_pos hknown] at h
        cases h
      rw [if_neg hknown] at h
      obtain ⟨value, hvalue, hresult⟩ := bind_eq_ok.mp h
      obtain rfl := Except.ok.inj hresult
      obtain ⟨hheld, hrepeats, hrule⟩ := (visit_iff v).mp hvalue
      rw [readString_ok] at hkey
      have hnames : memberNames (.last before name gap start v after) = [key] := by
        rw [memberNames, hkey]
        rfl
      rw [hnames]
      refine ⟨⟨key, hkey, Option.map_eq_some_iff.mpr ⟨value, hheld, rfl⟩⟩,
        List.nodup_singleton key, ?_, hrepeats, ?_⟩
      · intro other hother
        rw [List.mem_singleton.mp hother]
        exact hknown
      · exact (validateMembers_mapInsert ((hmet key).not.mp hknown)).mpr ⟨hrule, hobject⟩
    · rintro ⟨⟨key, hkey, h⟩, _, hnew, hrepeats, hrule⟩
      obtain ⟨value, hheld, rfl⟩ := Option.map_eq_some_iff.mp h
      have hknown : key ∉ names := by
        refine hnew key ?_
        rw [memberNames, hkey]
        exact List.mem_singleton_self key
      obtain ⟨hrule, hobject⟩ := (validateMembers_mapInsert ((hmet key).not.mp hknown)).mp hrule
      refine ⟨⟨key, readString_ok.mpr hkey, ?_⟩, hobject⟩
      rw [if_neg hknown]
      exact bind_eq_ok.mpr ⟨value, (visit_iff v).mpr ⟨hheld, hrepeats, hrule⟩, rfl⟩
  | .more before name gap start v after rest, names, object, result, hmet => by
    rw [visitMap, bind_eq_ok, heldMembers, Option.bind_eq_some_iff]
    constructor
    · rintro ⟨⟨key, hkey, h⟩, hobject⟩
      by_cases hknown : key ∈ names
      · rw [if_pos hknown] at h
        cases h
      rw [if_neg hknown] at h
      obtain ⟨value, hvalue, hrest⟩ := bind_eq_ok.mp h
      obtain ⟨hheld, hrepeats, hrule⟩ := (visit_iff v).mp hvalue
      -- The rest is read with this member in the object and its name among those met.
      have hfresh : key ∉ object.map Prod.fst := (hmet key).not.mp hknown
      have hobject' := (validateMembers_mapInsert hfresh).mpr ⟨hrule, hobject⟩
      obtain ⟨hheld', hnodup, hnew, hrepeats', hrule'⟩ :=
        (visitMap_iff rest (met_mapInsert hmet value hfresh)).mp ⟨hrest, hobject'⟩
      rw [readString_ok] at hkey
      have hnames : memberNames (.more before name gap start v after rest)
          = key :: memberNames rest := by
        rw [memberNames, hkey]
        rfl
      rw [hnames]
      refine ⟨⟨key, hkey, Option.bind_eq_some_iff.mpr ⟨value, hheld, hheld'⟩⟩,
        List.nodup_cons.mpr ⟨fun hmem => hnew key hmem List.mem_cons_self, hnodup⟩, ?_,
        not_or.mpr ⟨hrepeats, hrepeats'⟩, hrule'⟩
      intro other hother
      rcases List.mem_cons.mp hother with rfl | hmem
      · exact hknown
      · exact fun hin => hnew other hmem (List.mem_cons_of_mem _ hin)
    · rintro ⟨⟨key, hkey, h⟩, hnodup, hnew, hrepeats, hrule⟩
      obtain ⟨value, hheld, hheld'⟩ := Option.bind_eq_some_iff.mp h
      obtain ⟨hrepeats, hrepeats'⟩ := not_or.mp hrepeats
      have hnames : memberNames (.more before name gap start v after rest)
          = key :: memberNames rest := by
        rw [memberNames, hkey]
        rfl
      rw [hnames] at hnodup hnew
      obtain ⟨hkeyNew, hnodup⟩ := List.nodup_cons.mp hnodup
      have hknown : key ∉ names := hnew key List.mem_cons_self
      have hfresh : key ∉ object.map Prod.fst := (hmet key).not.mp hknown
      have hnew' : ∀ other ∈ memberNames rest, other ∉ key :: names := by
        intro other hother hin
        rcases List.mem_cons.mp hin with rfl | hmem
        · exact hkeyNew hother
        · exact hnew other (List.mem_cons_of_mem _ hother) hmem
      obtain ⟨hrest, hobject'⟩ := (visitMap_iff rest (met_mapInsert hmet value hfresh)).mpr
        ⟨hheld', hnodup, hnew', hrepeats', hrule⟩
      obtain ⟨hvalueRule, hobject⟩ := (validateMembers_mapInsert hfresh).mp hobject'
      refine ⟨⟨key, readString_ok.mpr hkey, ?_⟩, hobject⟩
      rw [if_neg hknown]
      exact bind_eq_ok.mpr ⟨value, (visit_iff v).mpr ⟨hheld, hrepeats, hvalueRule⟩, hrest⟩
end

/-! ## Canonical bytes -/

theorem orderedMembers_names (members : List (String × Json)) :
    (orderedMembers members).map Prod.fst = members.map Prod.fst := by
  rw [orderedMembers_eq_map, List.map_map]
  rfl

mutual
/-- Listing the members by name undoes the canonical order. -/
theorem ordered_canonical : ∀ {v : Json}, uniqueNames v = true → ordered (canonical v) = ordered v
  | .null, _ => rfl
  | .bool _, _ => rfl
  | .num _, _ => rfl
  | .str _, _ => rfl
  | .arr items, h => by
    rw [canonical, ordered, ordered, orderedItems_canonical h]
  | .obj members, h => by
    rw [uniqueNames, Bool.and_eq_true, decide_eq_true_eq] at h
    have hperm : (orderedMembers (sortMembers (canonicalMembers members))).Perm
        (orderedMembers members) := by
      rw [← orderedMembers_canonical h.2, orderedMembers_eq_map, orderedMembers_eq_map]
      exact (sortMembers_perm (canonicalMembers members)).map _
    have hnodup : ((orderedMembers members).map Prod.fst).Nodup := by
      rw [orderedMembers_names]
      exact h.1
    rw [canonical, ordered, ordered, sortBy_perm hperm.symm hnodup]

theorem orderedItems_canonical : ∀ {items : List Json}, uniqueNamesItems items = true →
    orderedItems (canonicalItems items) = orderedItems items
  | [], _ => rfl
  | v :: items, h => by
    rw [uniqueNamesItems, Bool.and_eq_true] at h
    rw [canonicalItems, orderedItems, orderedItems, ordered_canonical h.1,
      orderedItems_canonical h.2]

theorem orderedMembers_canonical : ∀ {members : List (String × Json)},
    uniqueNamesMembers members = true →
    orderedMembers (canonicalMembers members) = orderedMembers members
  | [], _ => rfl
  | (name, v) :: members, h => by
    rw [uniqueNamesMembers, Bool.and_eq_true] at h
    rw [canonicalMembers, orderedMembers, orderedMembers, ordered_canonical h.1,
      orderedMembers_canonical h.2]
end

mutual
/-- The canonical order does not see how the members were listed. -/
theorem canonical_ordered : ∀ {v : Json}, uniqueNames v = true →
    canonical (ordered v) = canonical v
  | .null, _ => rfl
  | .bool _, _ => rfl
  | .num _, _ => rfl
  | .str _, _ => rfl
  | .arr items, h => by
    rw [ordered, canonical, canonical, canonicalItems_ordered h]
  | .obj members, h => by
    rw [uniqueNames, Bool.and_eq_true, decide_eq_true_eq] at h
    have hperm : (canonicalMembers (sortBy Prod.fst (orderedMembers members))).Perm
        (canonicalMembers members) := by
      rw [← canonicalMembers_ordered h.2, canonicalMembers_eq_map, canonicalMembers_eq_map]
      exact (perm_sortBy Prod.fst (orderedMembers members)).map _
    have hnodup : ((canonicalMembers members).map Prod.fst).Nodup := by
      rw [canonicalMembers_names]
      exact h.1
    rw [ordered, canonical, canonical, sortMembers_eq_of_perm hperm.symm hnodup]

theorem canonicalItems_ordered : ∀ {items : List Json}, uniqueNamesItems items = true →
    canonicalItems (orderedItems items) = canonicalItems items
  | [], _ => rfl
  | v :: items, h => by
    rw [uniqueNamesItems, Bool.and_eq_true] at h
    rw [orderedItems, canonicalItems, canonicalItems, canonical_ordered h.1,
      canonicalItems_ordered h.2]

theorem canonicalMembers_ordered : ∀ {members : List (String × Json)},
    uniqueNamesMembers members = true →
    canonicalMembers (orderedMembers members) = canonicalMembers members
  | [], _ => rfl
  | (name, v) :: members, h => by
    rw [uniqueNamesMembers, Bool.and_eq_true] at h
    rw [orderedMembers, canonicalMembers, canonicalMembers, canonical_ordered h.1,
      canonicalMembers_ordered h.2]
end

/-- The canonical bytes of a visited value are those of the parsed one. -/
theorem normalize_of_visited {value : Value} {v : Json} (h : Visited value v) :
    normalize value = .ok (utf8 (jcsText v)) ∧ jcsNormalize v = .ok (utf8 (jcsText v)) := by
  refine ⟨normalize_ok.mpr ⟨ordered v, h.serialized, ?_⟩, if_pos h.safe⟩
  rw [jcsText, jcsText, canonical_ordered h.unique]

/-- Numbers that are serialised alike are one number: an unsigned one is not negative. -/
theorem eq_of_integer? {n n' : Number} {integer : Int} (h : n.integer? = some integer)
    (h' : n'.integer? = some integer) : n = n' := by
  cases n with
  | posInt k fits =>
    obtain rfl := Option.some.inj h
    cases n' with
    | posInt k' fits' =>
      have hsame : k' = k := Int.ofNat_inj.mp (Option.some.inj h')
      subst hsame
      rfl
    | negInt k' fits' =>
      have hsame : k' = (k : Int) := Option.some.inj h'
      omega
    | float literal => cases h'
  | negInt k fits =>
    obtain rfl := Option.some.inj h
    cases n' with
    | posInt k' fits' =>
      have hsame : (k' : Int) = k := Option.some.inj h'
      omega
    | negInt k' fits' =>
      have hsame : k' = k := Option.some.inj h'
      subst hsame
      rfl
    | float literal => cases h'
  | float literal => cases h

/-- The value that is serialised to a given one. -/
theorem shape_of_integerOnly {value : Value} {v : Json} (h : integerOnly value = .ok v) :
    match v with
    | .null => value = .null
    | .bool b => value = .bool b
    | .num integer => ∃ n, value = .number n ∧ n.integer? = some integer
    | .str s => value = .string s
    | .arr vs => ∃ items, value = .array items ∧ integerOnlyItems items = .ok vs
    | .obj ms => ∃ members, value = .object members ∧ integerOnlyMembers members = .ok ms := by
  cases value with
  | null =>
    obtain rfl := Except.ok.inj h
    rfl
  | bool b =>
    obtain rfl := Except.ok.inj h
    rfl
  | number n =>
    obtain ⟨integer, hinteger, _, rfl⟩ := serializeNumber_ok.mp h
    exact ⟨n, rfl, hinteger⟩
  | string s =>
    obtain rfl := Except.ok.inj h
    rfl
  | array items =>
    obtain ⟨vs, hvs, rfl⟩ := map_eq_ok.mp h
    exact ⟨items, rfl, hvs⟩
  | object members =>
    obtain ⟨ms, hms, rfl⟩ := map_eq_ok.mp h
    exact ⟨members, rfl, hms⟩

mutual
/-- **THE SERIALISER FORGETS NOTHING**: values that are serialised alike are one value. -/
theorem integerOnly_injective : ∀ (v : Json) {value value' : Value}, integerOnly value = .ok v →
    integerOnly value' = .ok v → value = value'
  | .null, value, value', h, h' => (shape_of_integerOnly h).trans (shape_of_integerOnly h').symm
  | .bool b, value, value', h, h' => (shape_of_integerOnly h).trans (shape_of_integerOnly h').symm
  | .num integer, value, value', h, h' => by
    obtain ⟨n, rfl, hn⟩ := shape_of_integerOnly h
    obtain ⟨n', rfl, hn'⟩ := shape_of_integerOnly h'
    rw [eq_of_integer? hn hn']
  | .str s, value, value', h, h' => (shape_of_integerOnly h).trans (shape_of_integerOnly h').symm
  | .arr vs, value, value', h, h' => by
    obtain ⟨items, rfl, hitems⟩ := shape_of_integerOnly h
    obtain ⟨items', rfl, hitems'⟩ := shape_of_integerOnly h'
    rw [integerOnlyItems_injective vs hitems hitems']
  | .obj ms, value, value', h, h' => by
    obtain ⟨members, rfl, hmembers⟩ := shape_of_integerOnly h
    obtain ⟨members', rfl, hmembers'⟩ := shape_of_integerOnly h'
    rw [integerOnlyMembers_injective ms hmembers hmembers']

theorem integerOnlyItems_injective : ∀ (vs : List Json) {items items' : List Value},
    integerOnlyItems items = .ok vs → integerOnlyItems items' = .ok vs → items = items'
  | [], items, items', h, h' => by
    have hempty : ∀ {xs : List Value}, integerOnlyItems xs = .ok [] → xs = [] := by
      rintro (_ | ⟨x, xs⟩) hxs
      · rfl
      · obtain ⟨_, _, hxs⟩ := bind_eq_ok.mp hxs
        obtain ⟨_, _, hresult⟩ := bind_eq_ok.mp hxs
        cases hresult
    rw [hempty h, hempty h']
  | v :: vs, items, items', h, h' => by
    have hcons : ∀ {xs : List Value}, integerOnlyItems xs = .ok (v :: vs) →
        ∃ x rest, xs = x :: rest ∧ integerOnly x = .ok v ∧ integerOnlyItems rest = .ok vs := by
      rintro (_ | ⟨x, rest⟩) hxs
      · cases hxs
      · obtain ⟨y, hy, hxs⟩ := bind_eq_ok.mp hxs
        obtain ⟨ys, hys, hresult⟩ := bind_eq_ok.mp hxs
        obtain ⟨rfl, rfl⟩ := List.cons.inj (Except.ok.inj hresult)
        exact ⟨x, rest, rfl, hy, hys⟩
    obtain ⟨x, rest, rfl, hx, hrest⟩ := hcons h
    obtain ⟨x', rest', rfl, hx', hrest'⟩ := hcons h'
    rw [integerOnly_injective v hx hx', integerOnlyItems_injective vs hrest hrest']

theorem integerOnlyMembers_injective : ∀ (ms : List (String × Json))
    {members members' : List (String × Value)}, integerOnlyMembers members = .ok ms →
    integerOnlyMembers members' = .ok ms → members = members'
  | [], members, members', h, h' => by
    have hempty : ∀ {xs : List (String × Value)}, integerOnlyMembers xs = .ok [] → xs = [] := by
      rintro (_ | ⟨⟨name, x⟩, xs⟩) hxs
      · rfl
      · obtain ⟨_, _, hxs⟩ := bind_eq_ok.mp hxs
        obtain ⟨_, _, hresult⟩ := bind_eq_ok.mp hxs
        cases hresult
    rw [hempty h, hempty h']
  | (name, v) :: ms, members, members', h, h' => by
    have hcons : ∀ {xs : List (String × Value)}, integerOnlyMembers xs = .ok ((name, v) :: ms) →
        ∃ x rest, xs = (name, x) :: rest ∧ integerOnly x = .ok v
          ∧ integerOnlyMembers rest = .ok ms := by
      rintro (_ | ⟨⟨other, x⟩, rest⟩) hxs
      · cases hxs
      · obtain ⟨y, hy, hxs⟩ := bind_eq_ok.mp hxs
        obtain ⟨ys, hys, hresult⟩ := bind_eq_ok.mp hxs
        obtain ⟨hpair, rfl⟩ := List.cons.inj (Except.ok.inj hresult)
        obtain ⟨rfl, rfl⟩ := Prod.mk.inj hpair
        exact ⟨x, rest, rfl, hy, hys⟩
    obtain ⟨x, rest, rfl, hx, hrest⟩ := hcons h
    obtain ⟨x', rest', rfl, hx', hrest'⟩ := hcons h'
    rw [integerOnly_injective v hx hx', integerOnlyMembers_injective ms hrest hrest']
end

/-- **CANONICAL BYTES DETERMINE THE VALUE**. -/
theorem eq_of_normalize {value value' : Value} {v v' : Json} {bytes : Bytes}
    (h : Visited value v) (h' : Visited value' v') (hbytes : normalize value = .ok bytes)
    (hbytes' : normalize value' = .ok bytes) : value = value' := by
  have htext : jcsText v = jcsText v' := by
    have hsame := (normalize_of_visited h).1.symm.trans
      (hbytes.trans (hbytes'.symm.trans (normalize_of_visited h').1))
    exact utf8_injective (Except.ok.inj hsame)
  rw [jcsText, jcsText, ← String.toList_inj, String.toList_ofList, String.toList_ofList] at htext
  have hcanonical : canonical v = canonical v' := textAt_injective false 0 htext
  have hordered : ordered v = ordered v' := by
    rw [← ordered_canonical h.unique, hcanonical, ordered_canonical h'.unique]
  exact integerOnly_injective (ordered v) h.serialized (hordered ▸ h'.serialized)

/-! ## The laws -/

/-- **ONE PARSER**: the parser of documents and tokens accepts what the visitor accepts. -/
theorem parseJsonValue_source (source : JsonSource) (sourceName kind : String) (v : Json) :
    parseJsonValue (bytesOf source) sourceName kind = .ok v
      ↔ (∃ value, visit source.doc = .ok value) ∧ source.doc.value? = some v := by
  have hparse : ((utf8Decode (bytesOf source)).bind fun text => parseJson text.toList)
      = source.doc.value? := by
    rw [bytesOf, utf8Decode_utf8, Option.bind_some, String.toList_ofList, parseJson_text]
  rw [parseJsonValue, hparse]
  constructor
  · intro h
    cases hvalue : source.doc.value? with
    | none =>
      rw [hvalue] at h
      cases h
    | some w =>
      rw [hvalue] at h
      dsimp only at h
      by_cases hstrict : (uniqueNames w && numbersWithin maxSafeInteger w) = true
      · rw [if_pos hstrict] at h
        obtain rfl := Except.ok.inj h
        rw [Bool.and_eq_true] at hstrict
        exact ⟨visit_total source.doc hvalue hstrict.1 hstrict.2, rfl⟩
      · rw [if_neg hstrict] at h
        cases h
  · rintro ⟨⟨value, hvisit⟩, hvalue⟩
    obtain ⟨w, hw, hvisited⟩ := visit_sound source.doc hvisit
    obtain rfl := Option.some.inj (hvalue.symm.trans hw)
    rw [hvalue]
    exact if_pos (by rw [hvisited.unique, hvisited.safe]; rfl)

/-- A text the visitor refuses is no document. -/
theorem parseJsonDocumentBytes_refused {T : Type} {source : JsonSource}
    (h : ∀ value, visit source.doc ≠ .ok value) (schema : Schema) (read : Json → Option T)
    (sourceName kind : String) (x : T) :
    parseJsonDocumentBytes schema read sourceName kind (bytesOf source) ≠ .ok x := by
  intro hparse
  rw [parseJsonDocumentBytes] at hparse
  obtain ⟨_, _, hparse⟩ := bind_eq_ok.mp hparse
  obtain ⟨v, hvalue, _⟩ := bind_eq_ok.mp hparse
  obtain ⟨⟨value, hvisit⟩, _⟩ := (parseJsonValue_source source sourceName kind v).mp hvalue
  exact h value hvisit

/-- What parser, number rule and serialiser have in common. -/
structure StrictJsonLaws : Prop where
  /-- a text that repeats a member name, at any depth, is refused -/
  repeats : ∀ source : JsonSource, RepeatsName source.doc →
    ∀ value, visit source.doc ≠ .ok value
  /-- so is one with a number, at any depth, that is not a safe integer -/
  numbers : ∀ source : JsonSource, HasUnsafeNumber source.doc →
    ∀ value, visit source.doc ≠ .ok value
  /-- the parser of documents and tokens accepts what the visitor accepts -/
  parses : ∀ (source : JsonSource) (sourceName kind : String) (v : Json),
    parseJsonValue (bytesOf source) sourceName kind = .ok v
      ↔ (∃ value, visit source.doc = .ok value) ∧ source.doc.value? = some v
  /-- and what the visitor refuses is no document of any schema -/
  documents : ∀ (T : Type) (source : JsonSource), (∀ value, visit source.doc ≠ .ok value) →
    ∀ (schema : Schema) (read : Json → Option T) (sourceName kind : String) (x : T),
      parseJsonDocumentBytes schema read sourceName kind (bytesOf source) ≠ .ok x
  /-- the visitor accepts the texts without repeated names whose value the number rule lets
      through -/
  visitor : ∀ (source : JsonSource) (value : Value), visit source.doc = .ok value ↔
    heldValue source.doc = some value ∧ ¬ RepeatsName source.doc
      ∧ validateNumbers value = .ok ()
  /-- the rule lets a value through when the serialiser does -/
  serializer : ∀ value : Value,
    validateNumbers value = .ok () ↔ ∃ bytes, normalize value = .ok bytes
  /-- an accepted text has canonical bytes, the ones its parsed value is signed with -/
  accepted : ∀ (source : JsonSource) (value : Value), visit source.doc = .ok value →
    ∃ v bytes, source.doc.value? = some v ∧ normalize value = .ok bytes
      ∧ jcsNormalize v = .ok bytes
  /-- and the bytes determine the value -/
  injective : ∀ (source source' : JsonSource) (value value' : Value) (bytes : Bytes),
    visit source.doc = .ok value → visit source'.doc = .ok value' →
    normalize value = .ok bytes → normalize value' = .ok bytes → value = value'

/-- **STRICT JSON**: visitor, number rule and canonical serialiser agree on every text. -/
theorem strictJsonLaws : StrictJsonLaws where
  repeats source hrepeats value hvisit := ((visit_iff source.doc).mp hvisit).2.1 hrepeats
  numbers source hunsafe value hvisit := by
    obtain ⟨v, hvalue, hvisited⟩ := visit_sound source.doc hvisit
    exact safe_docText hvalue hvisited.safe hunsafe
  parses := parseJsonValue_source
  documents _ _ hrefused := parseJsonDocumentBytes_refused hrefused
  visitor source _ := visit_iff source.doc
  serializer value := by
    rw [validateNumbers_iff]
    constructor
    · rintro ⟨v, hv⟩
      exact ⟨_, normalize_ok.mpr ⟨v, hv, rfl⟩⟩
    · rintro ⟨bytes, hbytes⟩
      obtain ⟨v, hv, _⟩ := normalize_ok.mp hbytes
      exact ⟨v, hv⟩
  accepted source value hvisit := by
    obtain ⟨v, hvalue, hvisited⟩ := visit_sound source.doc hvisit
    exact ⟨v, _, hvalue, (normalize_of_visited hvisited).1,
      (normalize_of_visited hvisited).2⟩
  injective source source' value value' bytes hvisit hvisit' hbytes hbytes' := by
    obtain ⟨v, _, hvisited⟩ := visit_sound source.doc hvisit
    obtain ⟨v', _, hvisited'⟩ := visit_sound source'.doc hvisit'
    exact eq_of_normalize hvisited hvisited' hbytes hbytes'

end StrictValues
