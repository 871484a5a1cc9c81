import Kapsaro.JsonText
import Mathlib.Data.List.Perm.Basic
import Mathlib.Data.List.Nodup

/-!
# JSON members — canonical member order, member lookup, and schemas

What a program needs on top of JSON text when objects are records: the canonical order of
members, the lookup of a member by name, and a small schema language. Names nothing of any
program.

* **`canonical`** — members sorted by the UTF-16 code units of their names, at every level;
  the compact text of `canonical v` is the canonical serialisation of `v`.
* **`member`** — lookup by name; sorting does not change it where names are distinct.
* **`uniqueNames`**, **`numbersWithin`** — the two rules a strict reader adds to the grammar.
* **`Schema`**, **`conforms`** — objects with required, optional and refused members, lists
  with length bounds, strings under a predicate. Conformance does not see member order.
-/

namespace JsonMembers

open JsonText

/-! ## Canonical member order -/

/-- The UTF-16 code units of a character. -/
def utf16Units (c : Char) : List Nat :=
  if c.toNat < 0x10000 then [c.toNat]
  else [0xD800 + (c.toNat - 0x10000) / 0x400, 0xDC00 + (c.toNat - 0x10000) % 0x400]

/-- The UTF-16 code units of a member name. -/
def nameUnits (name : String) : List Nat :=
  name.toList.flatMap utf16Units

/-- The canonical order of member names: code unit by code unit. -/
def nameLe (a b : String) : Bool :=
  !decide (nameUnits b < nameUnits a)

/-- Insert a member in front of the first one whose name is not smaller. -/
def insertMember (m : String × Json) : List (String × Json) → List (String × Json)
  | [] => [m]
  | first :: rest =>
    if nameLe m.1 first.1 then m :: first :: rest else first :: insertMember m rest

/-- Sort members by name. -/
def sortMembers : List (String × Json) → List (String × Json)
  | [] => []
  | m :: rest => insertMember m (sortMembers rest)

mutual
/-- A value with the members of every object in canonical order. -/
def canonical : Json → Json
  | .null => .null
  | .bool b => .bool b
  | .num n => .num n
  | .str s => .str s
  | .arr items => .arr (canonicalItems items)
  | .obj members => .obj (sortMembers (canonicalMembers members))

/-- The elements of a list, each in canonical form. -/
def canonicalItems : List Json → List Json
  | [] => []
  | v :: items => canonical v :: canonicalItems items

/-- The members of an object, each value in canonical form. -/
def canonicalMembers : List (String × Json) → List (String × Json)
  | [] => []
  | (name, v) :: members => (name, canonical v) :: canonicalMembers members
end

theorem canonicalItems_eq_map (items : List Json) :
    canonicalItems items = items.map canonical := by
  induction items with
  | nil => rfl
  | cons v items ih => rw [canonicalItems, ih, List.map_cons]

theorem canonicalMembers_eq_map (members : List (String × Json)) :
    canonicalMembers members = members.map fun m => (m.1, canonical m.2) := by
  induction members with
  | nil => rfl
  | cons m members ih => rw [canonicalMembers, ih, List.map_cons]

theorem canonicalMembers_names (members : List (String × Json)) :
    (canonicalMembers members).map Prod.fst = members.map Prod.fst := by
  rw [canonicalMembers_eq_map, List.map_map]
  rfl

theorem insertMember_perm (m : String × Json) (members : List (String × Json)) :
    (insertMember m members).Perm (m :: members) := by
  induction members with
  | nil => exact List.Perm.refl _
  | cons first rest ih =>
    rw [insertMember]
    split
    · exact List.Perm.refl _
    · exact (ih.cons first).trans (List.Perm.swap m first rest)

theorem sortMembers_perm (members : List (String × Json)) :
    (sortMembers members).Perm members := by
  induction members with
  | nil => exact List.Perm.refl _
  | cons m rest ih => exact (insertMember_perm m (sortMembers rest)).trans (ih.cons m)

/-- Canonical form keeps the member names, in another order. -/
theorem canonical_names_perm (members : List (String × Json)) :
    ((sortMembers (canonicalMembers members)).map Prod.fst).Perm (members.map Prod.fst) := by
  have hmap := (sortMembers_perm (canonicalMembers members)).map Prod.fst
  rwa [canonicalMembers_names] at hmap

/-! ## The canonical order is an order -/

/-- A character is determined by its code units, and they end where the next ones start. -/
theorem utf16Units_append_inj {c d : Char} {xs ys : List Nat}
    (h : utf16Units c ++ xs = utf16Units d ++ ys) : c = d ∧ xs = ys := by
  have hplane : ∀ e : Char, e.toNat < 0x110000 ∧ ¬ (0xD800 ≤ e.toNat ∧ e.toNat < 0xE000) := by
    intro e
    rcases e.valid with hlow | ⟨hlow, hhigh⟩
    · exact ⟨lt_trans (show e.toNat < 0xD800 from hlow) (by decide), fun hmid => by
        have : e.toNat < 0xD800 := hlow
        omega⟩
    · have hlow' : 0xDFFF < e.toNat := hlow
      have hhigh' : e.toNat < 0x110000 := hhigh
      exact ⟨hhigh', fun hmid => by omega⟩
  have hc := hplane c
  have hd := hplane d
  rw [utf16Units, utf16Units] at h
  suffices hsame : c.toNat = d.toNat ∧ xs = ys from ⟨Char.toNat_inj.mp hsame.1, hsame.2⟩
  by_cases hbmp : c.toNat < 0x10000
  · rw [if_pos hbmp] at h
    by_cases hbmp' : d.toNat < 0x10000
    · rw [if_pos hbmp'] at h
      exact List.cons.inj h
    · rw [if_neg hbmp'] at h
      have hfirst := (List.cons.inj h).1
      omega
  · rw [if_neg hbmp] at h
    by_cases hbmp' : d.toNat < 0x10000
    · rw [if_pos hbmp'] at h
      have hfirst := (List.cons.inj h).1
      omega
    · rw [if_neg hbmp'] at h
      obtain ⟨hfirst, hrest⟩ := List.cons.inj h
      obtain ⟨hsecond, hrest⟩ := List.cons.inj hrest
      exact ⟨by omega, hrest⟩

theorem nameUnits_injective : Function.Injective nameUnits := by
  have hchars : ∀ cs ds : List Char, cs.flatMap utf16Units = ds.flatMap utf16Units → cs = ds := by
    have hnonempty : ∀ (c : Char) (cs : List Char), (c :: cs).flatMap utf16Units ≠ [] := by
      intro c cs
      rw [List.flatMap_cons, utf16Units]
      split
      · exact List.cons_ne_nil _ _
      · exact List.cons_ne_nil _ _
    intro cs
    induction cs with
    | nil =>
      rintro (_ | ⟨d, ds⟩) h
      · rfl
      · exact absurd h.symm (hnonempty d ds)
    | cons c cs ih =>
      rintro (_ | ⟨d, ds⟩) h
      · exact absurd h (hnonempty c cs)
      · rw [List.flatMap_cons, List.flatMap_cons] at h
        obtain ⟨rfl, hrest⟩ := utf16Units_append_inj h
        rw [ih ds hrest]
  intro a b h
  exact String.toList_inj.mp (hchars _ _ h)

theorem nameLe_iff {a b : String} : nameLe a b = true ↔ ¬ nameUnits b < nameUnits a := by
  rw [nameLe, Bool.not_eq_true', decide_eq_false_iff_not]

theorem nameLe_trans {a b c : String} (hab : nameLe a b = true) (hbc : nameLe b c = true) :
    nameLe a c = true :=
  nameLe_iff.mpr (List.not_lt.mpr (List.le_trans (List.not_lt.mp (nameLe_iff.mp hab))
    (List.not_lt.mp (nameLe_iff.mp hbc))))

theorem nameLe_of_not {a b : String} (h : ¬ nameLe a b = true) : nameLe b a = true := by
  rw [nameLe_iff, not_not] at h
  exact nameLe_iff.mpr (List.lt_asymm h)

/-- Two names that may each stand before the other are one name. -/
theorem nameLe_antisymm {a b : String} (hab : nameLe a b = true) (hba : nameLe b a = true) :
    a = b :=
  nameUnits_injective (List.le_antisymm (List.not_lt.mp (nameLe_iff.mp hab))
    (List.not_lt.mp (nameLe_iff.mp hba)))

/-- A member is inserted where the order allows it. -/
theorem insertMember_pairwise {m : String × Json} {members : List (String × Json)}
    (h : members.Pairwise fun x y => nameLe x.1 y.1 = true) :
    (insertMember m members).Pairwise fun x y => nameLe x.1 y.1 = true := by
  induction members with
  | nil => exact List.pairwise_singleton _ _
  | cons first rest ih =>
    obtain ⟨hfirst, hrest⟩ := List.pairwise_cons.mp h
    rw [insertMember]
    by_cases hle : nameLe m.1 first.1 = true
    · rw [if_pos hle]
      refine List.pairwise_cons.mpr ⟨fun x hx => ?_, h⟩
      rcases List.mem_cons.mp hx with rfl | hmem
      · exact hle
      · exact nameLe_trans hle (hfirst x hmem)
    · rw [if_neg hle]
      refine List.pairwise_cons.mpr ⟨fun x hx => ?_, ih hrest⟩
      rcases List.mem_cons.mp ((insertMember_perm m rest).mem_iff.mp hx) with rfl | hmem
      · exact nameLe_of_not hle
      · exact hfirst x hmem

theorem sortMembers_pairwise (members : List (String × Json)) :
    (sortMembers members).Pairwise fun x y => nameLe x.1 y.1 = true := by
  induction members with
  | nil => exact List.Pairwise.nil
  | cons m rest ih => exact insertMember_pairwise ih

/-- **CANONICAL ORDER DOES NOT DEPEND ON THE ORDER BEFORE**, where names are distinct. -/
theorem sortMembers_eq_of_perm {members members' : List (String × Json)}
    (hperm : members.Perm members') (hnames : (members.map Prod.fst).Nodup) :
    sortMembers members = sortMembers members' := by
  have hsame : (sortMembers members).Perm (sortMembers members') :=
    (sortMembers_perm members).trans (hperm.trans (sortMembers_perm members').symm)
  refine hsame.eq_of_pairwise ?_ (sortMembers_pairwise members) (sortMembers_pairwise members')
  intro x y hx hy hxy hyx
  have hname : x.1 = y.1 := nameLe_antisymm hxy hyx
  have hx' := (sortMembers_perm members).mem_iff.mp hx
  have hy' := hperm.mem_iff.mpr ((sortMembers_perm members').mem_iff.mp hy)
  exact List.inj_on_of_nodup_map hnames hx' hy' hname

/-! ## Lookup -/

/-- The value of the first member of a name. -/
def member (name : String) : List (String × Json) → Option Json
  | [] => none
  | (n, v) :: rest => if n = name then some v else member name rest

theorem member_eq_none_of_not_mem {name : String} {members : List (String × Json)}
    (h : name ∉ members.map Prod.fst) : member name members = none := by
  induction members with
  | nil => rfl
  | cons m rest ih =>
    rw [List.map_cons, List.mem_cons, not_or] at h
    rw [member, if_neg fun heq => h.1 heq.symm]
    exact ih h.2

theorem mem_of_member_eq_some {name : String} {v : Json} {members : List (String × Json)}
    (h : member name members = some v) : (name, v) ∈ members := by
  induction members with
  | nil => cases h
  | cons m rest ih =>
    rw [member] at h
    by_cases heq : m.1 = name
    · rw [if_pos heq] at h
      have hm : (name, v) = m := Prod.ext heq.symm (Option.some.inj h).symm
      exact hm ▸ List.mem_cons_self
    · rw [if_neg heq] at h
      exact List.mem_cons_of_mem _ (ih h)

/-- Where names are distinct, the lookup finds every member. -/
theorem member_eq_some_of_mem {name : String} {v : Json} {members : List (String × Json)}
    (hnames : (members.map Prod.fst).Nodup) (h : (name, v) ∈ members) :
    member name members = some v := by
  induction members with
  | nil => cases h
  | cons m rest ih =>
    rw [List.map_cons, List.nodup_cons] at hnames
    rcases List.mem_cons.mp h with rfl | hrest
    · rw [member, if_pos rfl]
    · have hne : m.1 ≠ name := by
        rintro rfl
        exact hnames.1 (List.mem_map.mpr ⟨_, hrest, rfl⟩)
      rw [member, if_neg hne]
      exact ih hnames.2 hrest

/-- The lookup depends on the members only as a set, where names are distinct. -/
theorem member_perm {members members' : List (String × Json)} (name : String)
    (hperm : members.Perm members') (hnames : (members.map Prod.fst).Nodup) :
    member name members = member name members' := by
  have hnames' : (members'.map Prod.fst).Nodup := (hperm.map Prod.fst).nodup_iff.mp hnames
  cases h : member name members with
  | some v =>
    exact (member_eq_some_of_mem hnames' (hperm.mem_iff.mp (mem_of_member_eq_some h))).symm
  | none =>
    cases h' : member name members' with
    | none => rfl
    | some v =>
      have hmem := hperm.mem_iff.mpr (mem_of_member_eq_some h')
      rw [member_eq_some_of_mem hnames hmem] at h
      cases h

/-- **LOOKUP IN CANONICAL FORM**: the canonical form of an object with distinct names has the
    same members, each in canonical form. -/
theorem member_canonical {members : List (String × Json)} (name : String)
    (hnames : (members.map Prod.fst).Nodup) :
    member name (sortMembers (canonicalMembers members))
      = (member name members).map canonical := by
  have hnames' : ((canonicalMembers members).map Prod.fst).Nodup := by
    rw [canonicalMembers_names]
    exact hnames
  have hsorted := (sortMembers_perm (canonicalMembers members)).symm
  rw [← member_perm name hsorted hnames']
  clear hnames hnames' hsorted
  induction members with
  | nil => rfl
  | cons m rest ih =>
    rw [canonicalMembers, member, member]
    split
    · rfl
    · exact ih

/-! ## Distinct names and bounded numbers -/

mutual
/-- No object, at any level, has two members of one name. -/
def uniqueNames : Json → Bool
  | .arr items => uniqueNamesItems items
  | .obj members => decide (members.map Prod.fst).Nodup && uniqueNamesMembers members
  | _ => true

def uniqueNamesItems : List Json → Bool
  | [] => true
  | v :: items => uniqueNames v && uniqueNamesItems items

def uniqueNamesMembers : List (String × Json) → Bool
  | [] => true
  | (_, v) :: members => uniqueNames v && uniqueNamesMembers members
end

mutual
/-- Every number, at any level, is at most `limit` in size. -/
def numbersWithin (limit : Nat) : Json → Bool
  | .num n => n.natAbs ≤ limit
  | .arr items => numbersWithinItems limit items
  | .obj members => numbersWithinMembers limit members
  | _ => true

def numbersWithinItems (limit : Nat) : List Json → Bool
  | [] => true
  | v :: items => numbersWithin limit v && numbersWithinItems limit items

def numbersWithinMembers (limit : Nat) : List (String × Json) → Bool
  | [] => true
  | (_, v) :: members => numbersWithin limit v && numbersWithinMembers limit members
end

theorem uniqueNamesItems_eq_all (items : List Json) :
    uniqueNamesItems items = items.all uniqueNames := by
  induction items with
  | nil => rfl
  | cons v items ih => rw [uniqueNamesItems, ih, List.all_cons]

theorem uniqueNamesMembers_eq_all (members : List (String × Json)) :
    uniqueNamesMembers members = members.all fun m => uniqueNames m.2 := by
  induction members with
  | nil => rfl
  | cons m members ih => rw [uniqueNamesMembers, ih, List.all_cons]

theorem numbersWithinItems_eq_all (limit : Nat) (items : List Json) :
    numbersWithinItems limit items = items.all (numbersWithin limit) := by
  induction items with
  | nil => rfl
  | cons v items ih => rw [numbersWithinItems, ih, List.all_cons]

theorem numbersWithinMembers_eq_all (limit : Nat) (members : List (String × Json)) :
    numbersWithinMembers limit members = members.all fun m => numbersWithin limit m.2 := by
  induction members with
  | nil => rfl
  | cons m members ih => rw [numbersWithinMembers, ih, List.all_cons]

theorem all_perm {α : Type} {xs ys : List α} (p : α → Bool) (h : xs.Perm ys) :
    xs.all p = ys.all p := by
  rw [Bool.eq_iff_iff, List.all_eq_true, List.all_eq_true]
  exact ⟨fun hx y hy => hx y (h.mem_iff.mpr hy), fun hy x hx => hy x (h.mem_iff.mp hx)⟩

mutual
/-- Canonical order keeps names distinct. -/
theorem uniqueNames_canonical : ∀ v : Json, uniqueNames (canonical v) = uniqueNames v
  | .null => rfl
  | .bool _ => rfl
  | .num _ => rfl
  | .str _ => rfl
  | .arr items => by
    rw [canonical, uniqueNames, uniqueNames]
    exact uniqueNames_canonicalItems items
  | .obj members => by
    have hperm := sortMembers_perm (canonicalMembers members)
    rw [canonical, uniqueNames, uniqueNames, uniqueNamesMembers_eq_all, all_perm _ hperm,
      ← uniqueNamesMembers_eq_all, uniqueNames_canonicalMembers members]
    congr 1
    exact decide_eq_decide.mpr (canonical_names_perm members).nodup_iff

theorem uniqueNames_canonicalItems : ∀ items : List Json,
    uniqueNamesItems (canonicalItems items) = uniqueNamesItems items
  | [] => rfl
  | v :: items => by
    rw [canonicalItems, uniqueNamesItems, uniqueNamesItems, uniqueNames_canonical v,
      uniqueNames_canonicalItems items]

theorem uniqueNames_canonicalMembers : ∀ members : List (String × Json),
    uniqueNamesMembers (canonicalMembers members) = uniqueNamesMembers members
  | [] => rfl
  | (_, v) :: members => by
    rw [canonicalMembers, uniqueNamesMembers, uniqueNamesMembers, uniqueNames_canonical v,
      uniqueNames_canonicalMembers members]
end

mutual
/-- Canonical order keeps the numbers. -/
theorem numbersWithin_canonical (limit : Nat) : ∀ v : Json,
    numbersWithin limit (canonical v) = numbersWithin limit v
  | .null => rfl
  | .bool _ => rfl
  | .num _ => rfl
  | .str _ => rfl
  | .arr items => by
    rw [canonical, numbersWithin, numbersWithin]
    exact numbersWithin_canonicalItems limit items
  | .obj members => by
    have hperm := sortMembers_perm (canonicalMembers members)
    rw [canonical, numbersWithin, numbersWithin, numbersWithinMembers_eq_all, all_perm _ hperm,
      ← numbersWithinMembers_eq_all, numbersWithin_canonicalMembers limit members]

theorem numbersWithin_canonicalItems (limit : Nat) : ∀ items : List Json,
    numbersWithinItems limit (canonicalItems items) = numbersWithinItems limit items
  | [] => rfl
  | v :: items => by
    rw [canonicalItems, numbersWithinItems, numbersWithinItems, numbersWithin_canonical limit v,
      numbersWithin_canonicalItems limit items]

theorem numbersWithin_canonicalMembers (limit : Nat) : ∀ members : List (String × Json),
    numbersWithinMembers limit (canonicalMembers members) = numbersWithinMembers limit members
  | [] => rfl
  | (_, v) :: members => by
    rw [canonicalMembers, numbersWithinMembers, numbersWithinMembers,
      numbersWithin_canonical limit v, numbersWithin_canonicalMembers limit members]
end

/-! ## Schemas -/

/-- What a schema can ask of a value. -/
inductive Schema where
  /-- A string the predicate accepts. -/
  | text (accepts : String → Bool)
  | integer (low high : Int)
  | boolean
  /-- A list of at least `least` and at most `most` conforming elements. -/
  | list (item : Schema) (least : Nat) (most : Option Nat)
  /-- An object with the required members; a `closed` one has no member off the list. -/
  | record (properties : List (String × Schema)) (required : List String) (closed : Bool)

mutual
/-- Whether a value conforms to a schema, as JSON Schema has it: the keyword `type`, with `pattern`,
    bounds and `enum` as the predicate of a string or a range, `minItems`, `maxItems` and `items`,
    `required`, `properties` and `additionalProperties`. -/
def conforms : Schema → Json → Bool
  | .text accepts, .str s => accepts s
  | .integer low high, .num n => decide (low ≤ n ∧ n ≤ high)
  | .boolean, .bool _ => true
  | .list item least most, .arr items =>
    decide (least ≤ items.length) && most.all (fun m => decide (items.length ≤ m))
      && items.all fun v => conforms item v
  | .record properties required closed, .obj members =>
    required.all (fun name => decide (name ∈ members.map Prod.fst))
      && members.all fun m => memberConforms properties closed m.1 m.2
  | _, _ => false

/-- Whether one member of an object conforms to the object's properties. -/
def memberConforms : List (String × Schema) → Bool → String → Json → Bool
  | [], closed, _, _ => !closed
  | (property, schema) :: rest, closed, name, v =>
    if property = name then conforms schema v else memberConforms rest closed name v
end

mutual
/-- **CONFORMANCE IGNORES MEMBER ORDER**: a value and its canonical form conform alike. -/
theorem conforms_canonical : ∀ (schema : Schema) (v : Json),
    conforms schema (canonical v) = conforms schema v
  | .text accepts, v => by cases v <;> simp [canonical, conforms]
  | .integer low high, v => by cases v <;> simp [canonical, conforms]
  | .boolean, v => by cases v <;> simp [canonical, conforms]
  | .list item least most, v => by
    cases v with
    | arr items =>
      have hall : ∀ items : List Json,
          (items.map canonical).all (fun w => conforms item w)
            = items.all fun w => conforms item w := by
        intro items
        induction items with
        | nil => rfl
        | cons w items ih =>
          rw [List.map_cons, List.all_cons, List.all_cons, ih, conforms_canonical item w]
      rw [canonical, conforms, conforms, canonicalItems_eq_map, List.length_map, hall]
    | _ => simp [canonical, conforms]
  | .record properties required closed, v => by
    cases v with
    | obj members =>
      have hperm := sortMembers_perm (canonicalMembers members)
      have hall : ∀ members : List (String × Json),
          (canonicalMembers members).all (fun m => memberConforms properties closed m.1 m.2)
            = members.all fun m => memberConforms properties closed m.1 m.2 := by
        intro members
        induction members with
        | nil => rfl
        | cons m members ih =>
          rw [canonicalMembers, List.all_cons, List.all_cons, ih,
            memberConforms_canonical properties closed m.1 m.2]
      rw [canonical, conforms, conforms, all_perm _ hperm, hall]
      congr 2
      funext name
      exact decide_eq_decide.mpr (canonical_names_perm members).mem_iff
    | _ => simp [canonical, conforms]

theorem memberConforms_canonical : ∀ (properties : List (String × Schema)) (closed : Bool)
    (name : String) (v : Json),
    memberConforms properties closed name (canonical v) = memberConforms properties closed name v
  | [], _, _, _ => rfl
  | (property, schema) :: rest, closed, name, v => by
    rw [memberConforms, memberConforms, conforms_canonical schema v,
      memberConforms_canonical rest closed name v]
end

end JsonMembers
