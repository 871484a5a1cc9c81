import Kapsaro.JsonMembers

/-!
# JSON records — reading typed records out of JSON objects

Typed records are read from objects that name no member off a list, field by field. Names
nothing of any program.

* **`readRecord`** — an object whose members all have allowed names, read through its lookup.
* **`textField`**, **`optionalField`**, **`listField`** … — one field.
* **`Reads`** — a reader undoes a writer, also after the writer's value was put in canonical
  form. Records are shown to have it field by field.
-/

namespace JsonRecords

open JsonText JsonMembers

variable {T : Type}

/-! ## Fields -/

/-- The lookup of an object: a member's value by its name. -/
abbrev Lookup := String → Option Json

def asText : Json → Option String
  | .str s => some s
  | _ => none

def asBool : Json → Option Bool
  | .bool b => some b
  | _ => none

/-- A natural number. -/
def asNat : Json → Option Nat
  | .num (.ofNat n) => some n
  | _ => none

def readItems (read : Json → Option T) : List Json → Option (List T)
  | [] => some []
  | v :: items => do
    let x ← read v
    let xs ← readItems read items
    pure (x :: xs)

def asList (read : Json → Option T) : Json → Option (List T)
  | .arr items => readItems read items
  | _ => none

/-- A required member. -/
def field (read : Json → Option T) (name : String) (look : Lookup) : Option T :=
  (look name).bind read

/-- A required string member. -/
def textField (name : String) (look : Lookup) : Option String :=
  field asText name look

/-- An optional member; `null` counts as absent. -/
def optionalField (read : Json → Option T) (name : String) (look : Lookup) : Option (Option T) :=
  match look name with
  | none => some none
  | some .null => some none
  | some v => (read v).map some

/-- A member with a default. -/
def defaultField (read : Json → Option T) (fallback : T) (name : String) (look : Lookup) :
    Option T :=
  match look name with
  | none => some fallback
  | some v => read v

/-- An object whose members all have allowed names, read through its lookup. -/
def readRecord (names : List String) (read : Lookup → Option T) : Json → Option T
  | .obj members =>
    if members.all (fun m => decide (m.1 ∈ names)) then read fun name => member name members
    else none
  | _ => none

/-! ## Readers that undo writers -/

/-- The reader gives back what was written, from the written value and from its canonical
    form. -/
def Reads (write : T → Json) (read : Json → Option T) (x : T) : Prop :=
  read (write x) = some x ∧ read (canonical (write x)) = some x

theorem reads_text (s : String) : Reads Json.str asText s := ⟨rfl, rfl⟩

theorem readItems_map {write : T → Json} {read : Json → Option T} (xs : List T)
    (h : ∀ x ∈ xs, Reads write read x) :
    readItems read (xs.map write) = some xs
      ∧ readItems read ((xs.map write).map canonical) = some xs := by
  induction xs with
  | nil => exact ⟨rfl, rfl⟩
  | cons x xs ih =>
    obtain ⟨hraw, hcanon⟩ := h x List.mem_cons_self
    obtain ⟨ihraw, ihcanon⟩ := ih fun y hy => h y (List.mem_cons_of_mem _ hy)
    constructor
    · rw [List.map_cons, readItems, hraw, ihraw]
      rfl
    · rw [List.map_cons, List.map_cons, readItems, hcanon, ihcanon]
      rfl

/-- A list is read back where its elements are. -/
theorem reads_list {write : T → Json} {read : Json → Option T} (xs : List T)
    (h : ∀ x ∈ xs, Reads write read x) :
    Reads (fun xs => .arr (xs.map write)) (asList read) xs := by
  obtain ⟨hraw, hcanon⟩ := readItems_map xs h
  refine ⟨hraw, ?_⟩
  show asList read (.arr (canonicalItems (xs.map write))) = some xs
  rw [canonicalItems_eq_map]
  exact hcanon

/-- **RECORDS ARE READ BACK**: an object with distinct, allowed names is read back as soon as
    its fields are, both from the written members and from their canonical forms. -/
theorem reads_record {names : List String} {write : T → Json} {read : Lookup → Option T} {x : T}
    (members : List (String × Json)) (present : List String) (hwrite : write x = .obj members)
    (hpresent : members.map Prod.fst = present) (hnodup : present.Nodup)
    (hallowed : ∀ name ∈ present, name ∈ names)
    (hraw : read (fun name => member name members) = some x)
    (hcanon : read (fun name => (member name members).map canonical) = some x) :
    Reads write (readRecord names read) x := by
  have hnames : (members.map Prod.fst).Nodup := hpresent ▸ hnodup
  have hallow : members.all (fun m => decide (m.1 ∈ names)) = true := by
    rw [List.all_eq_true]
    intro m hm
    exact decide_eq_true (hallowed m.1 (hpresent ▸ List.mem_map_of_mem hm))
  have hallow' : (sortMembers (canonicalMembers members)).all
      (fun m => decide (m.1 ∈ names)) = true := by
    rw [List.all_eq_true]
    intro m hm
    have hname : m.1 ∈ (sortMembers (canonicalMembers members)).map Prod.fst :=
      List.mem_map_of_mem hm
    rw [(canonical_names_perm members).mem_iff, hpresent] at hname
    exact decide_eq_true (hallowed m.1 hname)
  constructor
  · rw [hwrite, readRecord, if_pos hallow]
    exact hraw
  · have hlook : (fun name => member name (sortMembers (canonicalMembers members)))
        = fun name => (member name members).map canonical :=
      funext fun name => member_canonical name hnames
    rw [hwrite, canonical, readRecord, if_pos hallow', hlook]
    exact hcanon

/-- What a reader accepts is an object over the allowed names. -/
theorem readRecord_eq_some {names : List String} {read : Lookup → Option T} {v : Json} {x : T}
    (h : readRecord names read v = some x) :
    ∃ members, v = .obj members ∧ read (fun name => member name members) = some x := by
  cases v with
  | obj members =>
    rw [readRecord] at h
    split at h
    · exact ⟨members, rfl, h⟩
    · cases h
  | _ => cases h

/-- A member of a conforming record conforms to its property. -/
theorem memberConforms_of_conforms {properties : List (String × Schema)}
    {required : List String} {closed : Bool} {members : List (String × Json)} {name : String}
    {v : Json} (h : conforms (.record properties required closed) (.obj members) = true)
    (hlook : member name members = some v) : memberConforms properties closed name v = true := by
  rw [conforms, Bool.and_eq_true] at h
  exact List.all_eq_true.mp h.2 (name, v) (mem_of_member_eq_some hlook)

theorem textField_eq_some {name s : String} {look : Lookup}
    (h : textField name look = some s) : look name = some (.str s) := by
  rw [textField, field] at h
  cases hlook : look name with
  | none => rw [hlook] at h; cases h
  | some v =>
    rw [hlook] at h
    cases v with
    | str t => rw [Option.bind_some, asText] at h; rw [Option.some.inj h]
    | _ => cases h

/-- An object with every required member conforms when its members do. -/
theorem conforms_record {properties : List (String × Schema)} {required : List String}
    {closed : Bool} {members : List (String × Json)}
    (h : ∀ name ∈ required, name ∈ members.map Prod.fst) :
    conforms (.record properties required closed) (.obj members)
      = members.all fun m => memberConforms properties closed m.1 m.2 := by
  have hrequired : required.all (fun name => decide (name ∈ members.map Prod.fst)) = true := by
    rw [List.all_eq_true]
    intro name hname
    exact decide_eq_true (h name hname)
  rw [conforms, hrequired, Bool.true_and]

/-- A written list conforms when its length is in bounds and its elements conform. -/
theorem conforms_list {item : Schema} {write : T → Json} {good : T → Bool} (least : Nat)
    (most : Option Nat) (xs : List T) (h : ∀ x, conforms item (write x) = good x) :
    conforms (.list item least most) (.arr (xs.map write))
      = (decide (least ≤ xs.length) && most.all (fun m => decide (xs.length ≤ m))
        && xs.all good) := by
  have hall : (xs.map write).all (fun v => conforms item v) = xs.all good := by
    induction xs with
    | nil => rfl
    | cons x xs ih => rw [List.map_cons, List.all_cons, List.all_cons, ih, h x]
  rw [conforms, List.length_map, hall]

/-- A string field of a conforming record conforms to its property. -/
theorem text_conforms {properties : List (String × Schema)} {required : List String}
    {closed : Bool} {members : List (String × Json)} {name s : String}
    (h : conforms (.record properties required closed) (.obj members) = true)
    (hread : textField name (fun name => member name members) = some s) :
    memberConforms properties closed name (.str s) = true :=
  memberConforms_of_conforms h (textField_eq_some hread)

/-- An optional field whose member is not `null` is what the reader makes of it. -/
theorem optionalField_some {read : Json → Option T} {name : String} {look : Lookup} {v : Json}
    {x : T} (hlook : look name = some v) (hnull : v ≠ .null) (hread : read v = some x) :
    optionalField read name look = some (some x) := by
  rw [optionalField, hlook]
  cases v with
  | null => exact absurd rfl hnull
  | _ => exact congrArg (Option.map some) hread

/-- What a list reader accepts is a list, element by element. -/
theorem asList_eq_some {read : Json → Option T} {v : Json} {xs : List T}
    (h : asList read v = some xs) :
    ∃ items, v = .arr items ∧ items.length = xs.length
      ∧ ∀ x ∈ xs, ∃ w ∈ items, read w = some x := by
  cases v with
  | arr items =>
    refine ⟨items, rfl, ?_⟩
    have hread : readItems read items = some xs := h
    clear h
    induction items generalizing xs with
    | nil =>
      rw [readItems] at hread
      obtain rfl := Option.some.inj hread
      exact ⟨rfl, fun x hx => by cases hx⟩
    | cons w items ih =>
      rw [readItems] at hread
      cases hw : read w with
      | none => rw [hw] at hread; cases hread
      | some y =>
        cases hrest : readItems read items with
        | none => rw [hw, hrest] at hread; cases hread
        | some ys =>
          rw [hw, hrest] at hread
          obtain rfl : y :: ys = xs := Option.some.inj hread
          obtain ⟨hlength, hitems⟩ := ih hrest
          refine ⟨congrArg (· + 1) hlength, fun x hx => ?_⟩
          rcases List.mem_cons.mp hx with rfl | hys
          · exact ⟨w, List.mem_cons_self, hw⟩
          · obtain ⟨w', hw', hread'⟩ := hitems x hys
            exact ⟨w', List.mem_cons_of_mem _ hw', hread'⟩
  | _ => cases h

/-- A required field that is read is a member, and its value is what the reader accepts. -/
theorem field_eq_some {read : Json → Option T} {name : String} {look : Lookup} {x : T}
    (h : field read name look = some x) : ∃ v, look name = some v ∧ read v = some x :=
  Option.bind_eq_some_iff.mp h

/-- An optional field that is present is a member, and its value is what the reader accepts. -/
theorem optionalField_eq_some {read : Json → Option T} {name : String} {look : Lookup} {x : T}
    (h : optionalField read name look = some (some x)) :
    ∃ v, look name = some v ∧ read v = some x := by
  rw [optionalField] at h
  cases hlook : look name with
  | none => rw [hlook] at h; cases h
  | some v =>
    refine ⟨v, rfl, ?_⟩
    rw [hlook] at h
    cases v with
    | null => cases h
    | _ =>
      obtain ⟨y, hy, heq⟩ := Option.map_eq_some_iff.mp h
      rw [hy, Option.some.inj heq]

end JsonRecords
