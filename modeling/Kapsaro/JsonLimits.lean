import Kapsaro.JsonMembers
import Kapsaro.Limits
import Kapsaro.TextLines
import Mathlib.Algebra.BigOperators.Group.List.Basic
import Mathlib.Algebra.GroupWithZero.Nat

/-!
# JSON limits — the pre-parse scan, and what it counts in a rendering

The scan of `support/json_limits.rs` walks the raw bytes of a JSON text, counts nesting and
elements outside string literals, and refuses past either limit.

* **`consume`**, **`validateJsonLimits`** — the scanner, byte by byte.
* **`elementCount`**, **`nesting`** — the same two numbers read off a value.
* **`validateJsonLimits_iff`** — the scan passes exactly when the final counts are within the
  limits: neither count ever falls.
* **`validateJsonLimits_textAt`** — on the text of a value, compact or indented, the scan
  decides `elementCount v ≤ maxJsonElements ∧ nesting v ≤ maxJsonDepth`.
-/

namespace JsonLimits

open JsonText JsonMembers Limits TextLines

/-! ## The scanner -/

/-- What the scan carries from one byte to the next. -/
structure JsonScanState where
  depth : Nat
  maxDepth : Nat
  elements : Nat
  inString : Bool
  escape : Bool
deriving DecidableEq, Repr

/-- The state before the first byte. -/
def JsonScanState.start : JsonScanState :=
  { depth := 0, maxDepth := 0, elements := 0, inString := false, escape := false }

/-- A byte inside a string literal. -/
def consumeInString (state : JsonScanState) (byte : UInt8) : JsonScanState :=
  if byte = 92 then { state with escape := true }
  else if byte = 34 then { state with inString := false }
  else state

/-- An opening brace or bracket. -/
def openContainer (state : JsonScanState) : Except Error JsonScanState :=
  let depth := state.depth + 1
  let maxDepth := max state.maxDepth depth
  if maxDepth > maxJsonDepth then
    .error (.parse s!"JSON nesting depth exceeds limit ({maxDepth} > {maxJsonDepth})")
  else .ok { state with depth := depth, maxDepth := maxDepth, elements := state.elements + 1 }

/-- The element count is checked after every byte outside a string. -/
def enforceElementLimit (state : JsonScanState) : Except Error JsonScanState :=
  if state.elements > maxJsonElements then
    .error (.parse s!"JSON element count exceeds limit ({state.elements} > {maxJsonElements})")
  else .ok state

/-- One byte of the scan. -/
def consume (state : JsonScanState) (byte : UInt8) : Except Error JsonScanState :=
  if state.escape then .ok { state with escape := false }
  else if state.inString then .ok (consumeInString state byte)
  else if byte = 34 then enforceElementLimit { state with inString := true }
  else if byte = 123 ∨ byte = 91 then openContainer state >>= enforceElementLimit
  else if byte = 125 ∨ byte = 93 then enforceElementLimit { state with depth := state.depth - 1 }
  else if byte = 58 ∨ byte = 44 then
    enforceElementLimit { state with elements := state.elements + 1 }
  else enforceElementLimit state

/-- Scan from a state. -/
def scanFrom (state : JsonScanState) : List UInt8 → Except Error JsonScanState
  | [] => .ok state
  | byte :: rest => consume state byte >>= fun next => scanFrom next rest

/-- Refuse a JSON text past the depth or element limit. -/
def validateJsonLimits (input : List UInt8) : Except Error Unit :=
  (scanFrom .start input).map fun _ => ()

/-! ## The counts without the checks -/

/-- The state after a byte, whatever the limits. -/
def advance (state : JsonScanState) (byte : UInt8) : JsonScanState :=
  if state.escape then { state with escape := false }
  else if state.inString then consumeInString state byte
  else if byte = 34 then { state with inString := true }
  else if byte = 123 ∨ byte = 91 then
    { state with
      depth := state.depth + 1
      maxDepth := max state.maxDepth (state.depth + 1)
      elements := state.elements + 1 }
  else if byte = 125 ∨ byte = 93 then { state with depth := state.depth - 1 }
  else if byte = 58 ∨ byte = 44 then { state with elements := state.elements + 1 }
  else state

/-- Both counts are within their limits. -/
def Within (state : JsonScanState) : Prop :=
  state.elements ≤ maxJsonElements ∧ state.maxDepth ≤ maxJsonDepth

theorem advance_elements_le (state : JsonScanState) (byte : UInt8) :
    state.elements ≤ (advance state byte).elements := by
  unfold advance consumeInString
  split_ifs <;> simp

theorem advance_maxDepth_le (state : JsonScanState) (byte : UInt8) :
    state.maxDepth ≤ (advance state byte).maxDepth := by
  unfold advance consumeInString
  split_ifs <;> simp

/-- **ONE BYTE**: from counts within the limits, the scan goes on exactly when the next counts
    are within the limits too. -/
theorem consume_eq (state : JsonScanState) (byte : UInt8) (h : Within state) :
    (Within (advance state byte) ∧ consume state byte = .ok (advance state byte))
      ∨ (¬ Within (advance state byte) ∧ ∃ e, consume state byte = .error e) := by
  obtain ⟨helements, hdepth⟩ := h
  unfold consume advance
  split_ifs with h1 h2 h3 h4 h5 h6
  · exact .inl ⟨⟨helements, hdepth⟩, rfl⟩
  · refine .inl ⟨?_, rfl⟩
    unfold consumeInString
    split_ifs <;> exact ⟨helements, hdepth⟩
  · exact .inl ⟨⟨helements, hdepth⟩, if_neg (by simpa using helements)⟩
  · by_cases hd : max state.maxDepth (state.depth + 1) > maxJsonDepth
    · have herror : ∃ e, openContainer state = .error e := ⟨_, if_pos hd⟩
      obtain ⟨e, he⟩ := herror
      refine .inr ⟨fun hw => absurd hw.2 (Nat.not_le.mpr hd), e, ?_⟩
      rw [he]
      rfl
    · have hd' : max state.maxDepth (state.depth + 1) ≤ maxJsonDepth := Nat.le_of_not_lt hd
      have hopen : (openContainer state >>= enforceElementLimit)
          = enforceElementLimit { state with
              depth := state.depth + 1
              maxDepth := max state.maxDepth (state.depth + 1)
              elements := state.elements + 1 } := by
        rw [openContainer, if_neg hd]
        rfl
      rw [hopen, enforceElementLimit]
      split_ifs with he
      · exact .inr ⟨fun hw => absurd hw.1 (Nat.not_le.mpr he), _, rfl⟩
      · exact .inl ⟨⟨Nat.le_of_not_lt he, hd'⟩, rfl⟩
  · exact .inl ⟨⟨helements, hdepth⟩, if_neg (by simpa using helements)⟩
  · rw [enforceElementLimit]
    split_ifs with he
    · exact .inr ⟨fun hw => absurd hw.1 (Nat.not_le.mpr he), _, rfl⟩
    · exact .inl ⟨⟨Nat.le_of_not_lt he, hdepth⟩, rfl⟩
  · exact .inl ⟨⟨helements, hdepth⟩, if_neg (by simpa using helements)⟩

/-- The state after a run of bytes, whatever the limits. -/
def advanceAll (state : JsonScanState) (bytes : List UInt8) : JsonScanState :=
  bytes.foldl advance state

theorem advanceAll_append (state : JsonScanState) (a b : List UInt8) :
    advanceAll state (a ++ b) = advanceAll (advanceAll state a) b :=
  List.foldl_append

theorem not_within_advanceAll {state : JsonScanState} (bytes : List UInt8)
    (h : ¬ Within state) : ¬ Within (advanceAll state bytes) := by
  induction bytes generalizing state with
  | nil => exact h
  | cons byte bytes ih =>
    refine ih fun (hw : Within (advance state byte)) => h ⟨?_, ?_⟩
    · exact Nat.le_trans (advance_elements_le state byte) hw.1
    · exact Nat.le_trans (advance_maxDepth_le state byte) hw.2

/-- **THE WHOLE SCAN**: it passes exactly when the counts at the end are within the limits. -/
theorem scanFrom_ok_iff (state : JsonScanState) (bytes : List UInt8) (h : Within state) :
    (∃ final, scanFrom state bytes = .ok final) ↔ Within (advanceAll state bytes) := by
  induction bytes generalizing state with
  | nil => exact ⟨fun _ => h, fun _ => ⟨state, rfl⟩⟩
  | cons byte bytes ih =>
    rcases consume_eq state byte h with ⟨hnext, heq⟩ | ⟨hnext, e, heq⟩
    · rw [scanFrom, heq]
      exact ih (advance state byte) hnext
    · constructor
      · rintro ⟨final, hfinal⟩
        rw [scanFrom, heq] at hfinal
        cases hfinal
      · exact fun hw => absurd hw (not_within_advanceAll bytes hnext)

theorem validateJsonLimits_iff (input : List UInt8) :
    validateJsonLimits input = .ok () ↔ Within (advanceAll .start input) := by
  rw [← scanFrom_ok_iff .start input ⟨Nat.zero_le _, Nat.zero_le _⟩, validateJsonLimits]
  cases h : scanFrom .start input with
  | error e => simp [Except.map]
  | ok final => simp [Except.map]

/-! ## The counts of a value -/

mutual
/-- The elements of a value: one for each container, each colon and each comma. -/
def elementCount : Json → Nat
  | .arr [] => 1
  | .arr (v :: items) => 1 + elementCount v + itemsElementCount items
  | .obj [] => 1
  | .obj ((_, v) :: members) => 2 + elementCount v + membersElementCount members
  | _ => 0

def itemsElementCount : List Json → Nat
  | [] => 0
  | v :: items => 1 + elementCount v + itemsElementCount items

def membersElementCount : List (String × Json) → Nat
  | [] => 0
  | (_, v) :: members => 2 + elementCount v + membersElementCount members
end

mutual
/-- The nesting depth of a value. -/
def nesting : Json → Nat
  | .arr items => 1 + itemsNesting items
  | .obj members => 1 + membersNesting members
  | _ => 0

def itemsNesting : List Json → Nat
  | [] => 0
  | v :: items => max (nesting v) (itemsNesting items)

def membersNesting : List (String × Json) → Nat
  | [] => 0
  | (_, v) :: members => max (nesting v) (membersNesting members)
end

theorem itemsElementCount_eq_sum (items : List Json) :
    itemsElementCount items = (items.map fun v => 1 + elementCount v).sum := by
  induction items with
  | nil => rfl
  | cons v items ih => rw [itemsElementCount, ih, List.map_cons, List.sum_cons]

theorem membersElementCount_eq_sum (members : List (String × Json)) :
    membersElementCount members = (members.map fun m => 2 + elementCount m.2).sum := by
  induction members with
  | nil => rfl
  | cons m members ih => rw [membersElementCount, ih, List.map_cons, List.sum_cons]

theorem elementCount_arr (items : List Json) :
    elementCount (.arr items) = max 1 (itemsElementCount items) := by
  cases items with
  | nil => rfl
  | cons v items => rw [elementCount, itemsElementCount]; omega

theorem elementCount_obj (members : List (String × Json)) :
    elementCount (.obj members) = max 1 (membersElementCount members) := by
  cases members with
  | nil => rfl
  | cons m members => rw [elementCount, membersElementCount]; omega

theorem itemsNesting_le_iff (items : List Json) (bound : Nat) :
    itemsNesting items ≤ bound ↔ ∀ v ∈ items, nesting v ≤ bound := by
  induction items with
  | nil => simp [itemsNesting]
  | cons v items ih => rw [itemsNesting, Nat.max_le, ih, List.forall_mem_cons]

theorem membersNesting_le_iff (members : List (String × Json)) (bound : Nat) :
    membersNesting members ≤ bound ↔ ∀ m ∈ members, nesting m.2 ≤ bound := by
  induction members with
  | nil => simp [membersNesting]
  | cons m members ih => rw [membersNesting, Nat.max_le, ih, List.forall_mem_cons]

mutual
/-- Canonical order keeps the element count. -/
theorem elementCount_canonical : ∀ v : Json, elementCount (canonical v) = elementCount v
  | .null => rfl
  | .bool _ => rfl
  | .num _ => rfl
  | .str _ => rfl
  | .arr items => by
    rw [canonical, elementCount_arr, elementCount_arr, elementCount_canonicalItems items]
  | .obj members => by
    have hperm := (sortMembers_perm (canonicalMembers members)).map
      fun m => 2 + elementCount m.2
    rw [canonical, elementCount_obj, elementCount_obj,
      membersElementCount_eq_sum (sortMembers _), hperm.sum_eq, ← membersElementCount_eq_sum,
      elementCount_canonicalMembers members]

theorem elementCount_canonicalItems : ∀ items : List Json,
    itemsElementCount (canonicalItems items) = itemsElementCount items
  | [] => rfl
  | v :: items => by
    rw [canonicalItems, itemsElementCount, itemsElementCount, elementCount_canonical v,
      elementCount_canonicalItems items]

theorem elementCount_canonicalMembers : ∀ members : List (String × Json),
    membersElementCount (canonicalMembers members) = membersElementCount members
  | [] => rfl
  | (_, v) :: members => by
    rw [canonicalMembers, membersElementCount, membersElementCount, elementCount_canonical v,
      elementCount_canonicalMembers members]
end

mutual
/-- Canonical order keeps the nesting depth. -/
theorem nesting_canonical : ∀ v : Json, nesting (canonical v) = nesting v
  | .null => rfl
  | .bool _ => rfl
  | .num _ => rfl
  | .str _ => rfl
  | .arr items => by
    rw [canonical, nesting, nesting, nesting_canonicalItems items]
  | .obj members => by
    have hperm := sortMembers_perm (canonicalMembers members)
    have hsorted : membersNesting (sortMembers (canonicalMembers members))
        = membersNesting (canonicalMembers members) := by
      refine Nat.le_antisymm ?_ ?_
      · rw [membersNesting_le_iff]
        intro m hm
        exact (membersNesting_le_iff _ _).mp (Nat.le_refl _) m (hperm.mem_iff.mp hm)
      · rw [membersNesting_le_iff]
        intro m hm
        exact (membersNesting_le_iff _ _).mp (Nat.le_refl _) m (hperm.mem_iff.mpr hm)
    rw [canonical, nesting, nesting, hsorted, nesting_canonicalMembers members]

theorem nesting_canonicalItems : ∀ items : List Json,
    itemsNesting (canonicalItems items) = itemsNesting items
  | [] => rfl
  | v :: items => by
    rw [canonicalItems, itemsNesting, itemsNesting, nesting_canonical v,
      nesting_canonicalItems items]

theorem nesting_canonicalMembers : ∀ members : List (String × Json),
    membersNesting (canonicalMembers members) = membersNesting members
  | [] => rfl
  | (_, v) :: members => by
    rw [canonicalMembers, membersNesting, membersNesting, nesting_canonical v,
      nesting_canonicalMembers members]
end

/-! ## The scan of a rendering -/

/-- The state after the bytes of some characters. -/
def advanceText (state : JsonScanState) (cs : List Char) : JsonScanState :=
  advanceAll state (cs.flatMap String.utf8EncodeChar)

theorem advanceText_append (state : JsonScanState) (a b : List Char) :
    advanceText state (a ++ b) = advanceText (advanceText state a) b := by
  rw [advanceText, List.flatMap_append, advanceAll_append]
  rfl

theorem advanceText_cons (state : JsonScanState) (c : Char) (cs : List Char) :
    advanceText state (c :: cs) = advanceText (advanceText state [c]) cs :=
  advanceText_append state [c] cs

/-- An ASCII character is one byte. -/
theorem utf8EncodeChar_ascii (c : Char) (h : c.toNat < 128) :
    String.utf8EncodeChar c = [UInt8.ofNat c.toNat] := by
  have hle : c.val.toNat ≤ 127 := Nat.le_of_lt_succ h
  rw [String.utf8EncodeChar]
  simp only [hle, if_true]
  rfl

/-- The bytes of any other character are outside ASCII. -/
theorem utf8EncodeChar_high (c : Char) (h : 128 ≤ c.toNat) :
    ∀ byte ∈ String.utf8EncodeChar c, 128 ≤ byte.toNat := by
  have hgt : ¬ c.val.toNat ≤ 127 := Nat.not_le.mpr h
  intro byte hbyte
  rw [String.utf8EncodeChar] at hbyte
  simp only [hgt, if_false] at hbyte
  split_ifs at hbyte <;>
    simp only [List.mem_cons, List.not_mem_nil, or_false] at hbyte <;>
    rcases hbyte with rfl | rfl | hbyte <;>
    (try rcases hbyte with rfl | rfl) <;>
    simp only [UInt8.toNat_ofNat'] <;> omega

/-- The state outside a string literal. -/
def Outside (state : JsonScanState) : Prop :=
  state.inString = false ∧ state.escape = false

/-- The state inside a string literal. -/
def Inside (state : JsonScanState) : Prop :=
  state.inString = true ∧ state.escape = false

/-- An ASCII character moves the scan as its byte does. -/
theorem advanceText_ascii (state : JsonScanState) (c : Char) (h : c.toNat < 128) :
    advanceText state [c] = advance state (UInt8.ofNat c.toNat) := by
  rw [advanceText, List.flatMap_singleton, utf8EncodeChar_ascii c h]
  rfl

/-- Distinct ASCII characters are distinct bytes. -/
theorem byte_ne_of_char_ne {c : Char} (d : Char) (hc : c.toNat < 128) (hd : d.toNat < 128)
    (h : c ≠ d) : UInt8.ofNat c.toNat ≠ UInt8.ofNat d.toNat := by
  intro heq
  have hnat := congrArg UInt8.toNat heq
  rw [UInt8.toNat_ofNat', UInt8.toNat_ofNat', Nat.mod_eq_of_lt (by omega),
    Nat.mod_eq_of_lt (by omega)] at hnat
  exact h (Char.toNat_inj.mp hnat)

private theorem advance_inside_plain {state : JsonScanState} {byte : UInt8}
    (hstate : Inside state) (hslash : byte ≠ 92) (hquote : byte ≠ 34) :
    advance state byte = state := by
  rw [advance, if_neg (by simp [hstate.2]), if_pos hstate.1, consumeInString, if_neg hslash,
    if_neg hquote]

/-- Any character but a quote or a backslash leaves a string literal as it is. -/
theorem advanceText_inside_plain {state : JsonScanState} (c : Char) (hstate : Inside state)
    (hslash : c ≠ '\\') (hquote : c ≠ '"') : advanceText state [c] = state := by
  by_cases hascii : c.toNat < 128
  · rw [advanceText_ascii state c hascii]
    exact advance_inside_plain hstate (byte_ne_of_char_ne '\\' hascii (by decide) hslash)
      (byte_ne_of_char_ne '"' hascii (by decide) hquote)
  · have hhigh := utf8EncodeChar_high c (Nat.le_of_not_lt hascii)
    rw [advanceText, List.flatMap_singleton]
    generalize String.utf8EncodeChar c = bytes at hhigh
    induction bytes with
    | nil => rfl
    | cons byte bytes ih =>
      have hbyte : 128 ≤ byte.toNat := hhigh byte List.mem_cons_self
      have hplain : advance state byte = state :=
        advance_inside_plain hstate (by rintro rfl; exact absurd hbyte (by decide))
          (by rintro rfl; exact absurd hbyte (by decide))
      rw [advanceAll, List.foldl_cons, hplain]
      exact ih fun b hb => hhigh b (List.mem_cons_of_mem _ hb)

/-- A backslash and the ASCII character after it leave a string literal as it is. -/
theorem advanceText_inside_escape {state : JsonScanState} (c : Char) (hstate : Inside state)
    (hascii : c.toNat < 128) : advanceText state ['\\', c] = state := by
  obtain ⟨hin, hesc⟩ := hstate
  have hslash : advanceText state ['\\'] = { state with escape := true } := by
    rw [advanceText_ascii _ _ (by decide), advance, if_neg (by simp [hesc]), if_pos hin]
    rfl
  rw [advanceText_cons, hslash, advanceText_ascii _ _ hascii, advance, if_pos rfl]
  cases state
  cases hesc
  rfl

/-- An escaped character leaves a string literal as it is. -/
theorem advanceText_escapeChar {state : JsonScanState} (c : Char) (hstate : Inside state) :
    advanceText state (escapeChar c) = state := by
  unfold escapeChar
  split
  · exact advanceText_inside_escape '"' hstate (by decide)
  split
  · exact advanceText_inside_escape '\\' hstate (by decide)
  split
  · exact advanceText_inside_escape 'b' hstate (by decide)
  split
  · exact advanceText_inside_escape 'f' hstate (by decide)
  split
  · exact advanceText_inside_escape 'n' hstate (by decide)
  split
  · exact advanceText_inside_escape 'r' hstate (by decide)
  split
  · exact advanceText_inside_escape 't' hstate (by decide)
  rename_i hquote hslash _ _ _ _ _
  split
  · have hhex : ∀ n, n < 16 → hexChar n ≠ '\\' ∧ hexChar n ≠ '"' := by decide
    have hhigh := hhex (c.toNat / 16) (by omega)
    have hlow := hhex (c.toNat % 16) (by omega)
    rw [show ['\\', 'u', '0', '0', hexChar (c.toNat / 16), hexChar (c.toNat % 16)]
        = ['\\', 'u'] ++ ['0', '0', hexChar (c.toNat / 16), hexChar (c.toNat % 16)] from rfl,
      advanceText_append, advanceText_inside_escape 'u' hstate (by decide), advanceText_cons,
      advanceText_inside_plain '0' hstate (by decide) (by decide), advanceText_cons,
      advanceText_inside_plain '0' hstate (by decide) (by decide), advanceText_cons,
      advanceText_inside_plain _ hstate hhigh.1 hhigh.2,
      advanceText_inside_plain _ hstate hlow.1 hlow.2]
  · exact advanceText_inside_plain c hstate hslash hquote

/-- A string literal changes no count. -/
theorem advanceText_stringText {state : JsonScanState} (s : String) (hstate : Outside state) :
    advanceText state (stringText s) = state := by
  obtain ⟨hin, hesc⟩ := hstate
  have hopen : advanceText state ['"'] = { state with inString := true } := by
    rw [advanceText_ascii _ _ (by decide), advance, if_neg (by simp [hesc]),
      if_neg (by simp [hin])]
    rfl
  have hinside : Inside { state with inString := true } := ⟨rfl, hesc⟩
  have hbody : ∀ cs : List Char,
      advanceText { state with inString := true } (cs.flatMap escapeChar)
        = { state with inString := true } := by
    intro cs
    induction cs with
    | nil => rfl
    | cons c cs ih =>
      rw [List.flatMap_cons, advanceText_append, advanceText_escapeChar c hinside]
      exact ih
  rw [stringText, List.cons_append, advanceText_cons, hopen, advanceText_append, hbody,
    advanceText_ascii _ _ (by decide), advance, if_neg (by simp [hesc]), if_pos rfl]
  cases state
  cases hin
  rfl

/-- The characters the scan does not look at outside a string literal. -/
def isSilent (c : Char) : Bool :=
  decide (c.toNat < 128) && c != '"' && c != '{' && c != '[' && c != '}' && c != ']'
    && c != ':' && c != ','

/-- Silent characters leave the state as it is. -/
theorem advanceText_silent {state : JsonScanState} (cs : List Char) (hstate : Outside state)
    (h : ∀ c ∈ cs, isSilent c = true) : advanceText state cs = state := by
  induction cs with
  | nil => rfl
  | cons c cs ih =>
    have hc := h c List.mem_cons_self
    simp only [isSilent, Bool.and_eq_true, decide_eq_true_eq, bne_iff_ne] at hc
    obtain ⟨⟨⟨⟨⟨⟨⟨hascii, hquote⟩, hbrace⟩, hbracket⟩, hclose⟩, hclose'⟩, hcolon⟩, hcomma⟩ := hc
    have h34 : UInt8.ofNat c.toNat ≠ 34 := byte_ne_of_char_ne '"' hascii (by decide) hquote
    have hopen : ¬ (UInt8.ofNat c.toNat = 123 ∨ UInt8.ofNat c.toNat = 91) :=
      not_or.mpr ⟨byte_ne_of_char_ne '{' hascii (by decide) hbrace,
        byte_ne_of_char_ne '[' hascii (by decide) hbracket⟩
    have hshut : ¬ (UInt8.ofNat c.toNat = 125 ∨ UInt8.ofNat c.toNat = 93) :=
      not_or.mpr ⟨byte_ne_of_char_ne '}' hascii (by decide) hclose,
        byte_ne_of_char_ne ']' hascii (by decide) hclose'⟩
    have hsep : ¬ (UInt8.ofNat c.toNat = 58 ∨ UInt8.ofNat c.toNat = 44) :=
      not_or.mpr ⟨byte_ne_of_char_ne ':' hascii (by decide) hcolon,
        byte_ne_of_char_ne ',' hascii (by decide) hcomma⟩
    have hone : advanceText state [c] = state := by
      rw [advanceText_ascii _ _ hascii, advance, if_neg (by simp [hstate.2]),
        if_neg (by simp [hstate.1]), if_neg h34, if_neg hopen, if_neg hshut, if_neg hsep]
    rw [advanceText_cons, hone]
    exact ih fun d hd => h d (List.mem_cons_of_mem _ hd)

theorem advanceText_gapText {state : JsonScanState} (indented : Bool) (level : Nat)
    (hstate : Outside state) : advanceText state (gapText indented level) = state := by
  refine advanceText_silent _ hstate fun c hc => ?_
  unfold gapText at hc
  split at hc
  · rcases List.mem_cons.mp hc with rfl | hspace
    · decide
    · rw [(List.mem_replicate.mp hspace).2]
      decide
  · cases hc

/-- A digit is silent. -/
theorem isSilent_of_digit {c : Char} (hc : c.isDigit = true) : isSilent c = true := by
  have hbounds : 48 ≤ c.toNat ∧ c.toNat ≤ 57 := by
    rw [Char.isDigit, Bool.and_eq_true, decide_eq_true_eq, decide_eq_true_eq] at hc
    exact ⟨hc.1, hc.2⟩
  have hne : ∀ d : Char, d.toNat < 48 ∨ 57 < d.toNat → c ≠ d := by
    rintro d hd rfl
    omega
  simp only [isSilent, Bool.and_eq_true, decide_eq_true_eq, bne_iff_ne]
  exact ⟨⟨⟨⟨⟨⟨⟨by omega, hne _ (by decide)⟩, hne _ (by decide)⟩, hne _ (by decide)⟩,
    hne _ (by decide)⟩, hne _ (by decide)⟩, hne _ (by decide)⟩, hne _ (by decide)⟩

theorem advanceText_intText {state : JsonScanState} (n : Int) (hstate : Outside state) :
    advanceText state (intText n) = state := by
  have hdigits : ∀ m : Nat, ∀ c ∈ Nat.toDigits 10 m, isSilent c = true := fun m c hc =>
    isSilent_of_digit (Nat.isDigit_of_mem_toDigits (by decide) (by decide) hc)
  refine advanceText_silent _ hstate fun c hc => ?_
  unfold intText at hc
  split at hc
  · rcases List.mem_cons.mp hc with rfl | hmem
    · decide
    · exact hdigits _ c hmem
  · exact hdigits _ c hc

/-- A state with more elements and more depth seen. -/
def grow (state : JsonScanState) (elements depth : Nat) : JsonScanState :=
  { state with
    elements := state.elements + elements
    maxDepth := max state.maxDepth (state.depth + depth) }

theorem outside_grow {state : JsonScanState} (elements depth : Nat)
    (h : Outside state) : Outside (grow state elements depth) := h

theorem grow_grow (state : JsonScanState) (e1 d1 e2 d2 : Nat) :
    grow (grow state e1 d1) e2 d2 = grow state (e1 + e2) (max d1 d2) := by
  simp only [grow, JsonScanState.mk.injEq]
  refine ⟨trivial, ?_, ?_, trivial, trivial⟩ <;> omega

theorem grow_zero (state : JsonScanState) (h : state.depth ≤ state.maxDepth) :
    grow state 0 0 = state := by
  simp only [grow]
  rw [Nat.add_zero, Nat.add_zero, Nat.max_eq_left h]

theorem advanceText_comma {state : JsonScanState} (hstate : Outside state)
    (hdepth : state.depth ≤ state.maxDepth) : advanceText state [','] = grow state 1 0 := by
  rw [advanceText_ascii _ _ (by decide), advance, if_neg (by simp [hstate.2]),
    if_neg (by simp [hstate.1])]
  simp only [grow, Nat.add_zero, Nat.max_eq_left hdepth]
  rfl

private theorem advanceText_colonText {state : JsonScanState} (indented : Bool)
    (hstate : Outside state) (hdepth : state.depth ≤ state.maxDepth) :
    advanceText state (colonText indented) = grow state 1 0 := by
  have hcolon : advanceText state [':'] = grow state 1 0 := by
    rw [advanceText_ascii _ _ (by decide), advance, if_neg (by simp [hstate.2]),
      if_neg (by simp [hstate.1])]
    simp only [grow, Nat.add_zero, Nat.max_eq_left hdepth]
    rfl
  cases indented with
  | false => exact hcolon
  | true =>
    show advanceText state [':', ' '] = _
    rw [advanceText_cons, hcolon]
    exact advanceText_silent [' '] (outside_grow 1 0 hstate) (List.all_eq_true.mp rfl)

/-- The state inside a container that was opened in `state`. -/
def opened (state : JsonScanState) : JsonScanState :=
  { state with
    depth := state.depth + 1
    maxDepth := max state.maxDepth (state.depth + 1)
    elements := state.elements + 1 }

theorem advanceText_open {state : JsonScanState} {c : Char} (hstate : Outside state)
    (h : c = '{' ∨ c = '[') : advanceText state [c] = opened state := by
  rcases h with rfl | rfl <;>
    rw [advanceText_ascii _ _ (by decide), advance, if_neg (by simp [hstate.2]),
      if_neg (by simp [hstate.1])] <;> rfl

theorem advanceText_close {state : JsonScanState} {c : Char} (hstate : Outside state)
    (h : c = '}' ∨ c = ']') (elements depth : Nat) :
    advanceText (grow (opened state) elements depth) [c] = grow state (1 + elements)
      (1 + depth) := by
  have hout : Outside (grow (opened state) elements depth) := hstate
  have hclose : advanceText (grow (opened state) elements depth) [c]
      = { grow (opened state) elements depth with depth := state.depth } := by
    rcases h with rfl | rfl <;>
      rw [advanceText_ascii _ _ (by decide), advance, if_neg (by simp [hout.2]),
        if_neg (by simp [hout.1])] <;> rfl
  rw [hclose]
  simp only [grow, opened, JsonScanState.mk.injEq]
  refine ⟨trivial, ?_, ?_, trivial, trivial⟩ <;> omega

mutual
/-- **THE SCAN OF A VALUE'S TEXT**, in either layout, adds the value's counts. -/
theorem advanceText_textAt (indented : Bool) (level : Nat) : ∀ (v : Json)
    (state : JsonScanState), Outside state → state.depth ≤ state.maxDepth →
    advanceText state (textAt indented level v) = grow state (elementCount v) (nesting v)
  -- Every case starts outside a string, at a depth that has been counted.
  | .null, state, hout, hdepth =>
    (advanceText_silent ['n', 'u', 'l', 'l'] hout (List.all_eq_true.mp rfl)).trans
      (grow_zero state hdepth).symm
  | .bool true, state, hout, hdepth =>
    (advanceText_silent ['t', 'r', 'u', 'e'] hout (List.all_eq_true.mp rfl)).trans
      (grow_zero state hdepth).symm
  | .bool false, state, hout, hdepth =>
    (advanceText_silent ['f', 'a', 'l', 's', 'e'] hout (List.all_eq_true.mp rfl)).trans
      (grow_zero state hdepth).symm
  | .num n, state, hout, hdepth => by
    rw [textAt, elementCount, nesting, advanceText_intText n hout, grow_zero state hdepth]
    all_goals nofun
  | .str s, state, hout, hdepth => by
    rw [textAt, elementCount, nesting, advanceText_stringText s hout, grow_zero state hdepth]
    all_goals nofun
  | .arr [], state, hout, hdepth => by
    have hclose := advanceText_close hout (.inr rfl) 0 0
    rw [grow_zero (opened state) (by simp only [opened]; omega)] at hclose
    rw [textAt, elementCount, nesting, itemsNesting, advanceText_cons,
      advanceText_open hout (.inr rfl)]
    exact hclose
  | .arr (v :: items), state, hout, hdepth => by
    -- The bracket goes one level down; `grow_grow` adds up what the parts count.
    have hopen : Outside (opened state) := hout
    have hdepth' : (opened state).depth ≤ (opened state).maxDepth := by
      simp only [opened]; omega
    rw [textAt, elementCount, nesting, itemsNesting, advanceText_cons,
      advanceText_open hout (.inr rfl), advanceText_append, advanceText_append,
      advanceText_append, advanceText_append, advanceText_gapText _ _ hopen,
      advanceText_textAt indented (level + 1) v _ hopen hdepth',
      advanceText_itemsText indented (level + 1) items _ (outside_grow _ _ hopen)
        (Nat.le_trans hdepth' (Nat.le_max_left _ _)),
      advanceText_gapText _ _ (outside_grow _ _ (outside_grow _ _ hopen)), grow_grow,
      advanceText_close hout (.inr rfl), ← Nat.add_assoc]
  | .obj [], state, hout, hdepth => by
    have hclose := advanceText_close hout (.inl rfl) 0 0
    rw [grow_zero (opened state) (by simp only [opened]; omega)] at hclose
    rw [textAt, elementCount, nesting, membersNesting, advanceText_cons,
      advanceText_open hout (.inl rfl)]
    exact hclose
  | .obj ((name, v) :: members), state, hout, hdepth => by
    have hopen : Outside (opened state) := hout
    have hdepth' : (opened state).depth ≤ (opened state).maxDepth := by
      simp only [opened]; omega
    have hcolon : Outside (grow (opened state) 1 0) := hout
    have hdepth'' : (grow (opened state) 1 0).depth ≤ (grow (opened state) 1 0).maxDepth :=
      Nat.le_trans hdepth' (Nat.le_max_left _ _)
    rw [textAt, elementCount, nesting, membersNesting, advanceText_cons,
      advanceText_open hout (.inl rfl), advanceText_append, advanceText_append,
      advanceText_append, advanceText_append, advanceText_append, advanceText_append,
      advanceText_gapText _ _ hopen, advanceText_stringText name hopen,
      advanceText_colonText indented hopen hdepth',
      advanceText_textAt indented (level + 1) v _ hcolon hdepth'',
      advanceText_membersText indented (level + 1) members _ (outside_grow _ _ hcolon)
        (Nat.le_trans hdepth'' (Nat.le_max_left _ _)),
      advanceText_gapText _ _ (outside_grow _ _ (outside_grow _ _ hcolon)), grow_grow, grow_grow,
      advanceText_close hout (.inl rfl)]
    congr 1
    all_goals omega

theorem advanceText_itemsText (indented : Bool) (level : Nat) : ∀ (items : List Json)
    (state : JsonScanState), Outside state → state.depth ≤ state.maxDepth →
    advanceText state (itemsText indented level items)
      = grow state (itemsElementCount items) (itemsNesting items)
  | [], state, _, hdepth => (grow_zero state hdepth).symm
  | v :: items, state, hout, hdepth => by
    have hdepth' : (grow state 1 0).depth ≤ (grow state 1 0).maxDepth :=
      Nat.le_trans hdepth (Nat.le_max_left _ _)
    rw [itemsText, itemsElementCount, itemsNesting, advanceText_cons,
      advanceText_comma hout hdepth, advanceText_append, advanceText_append,
      advanceText_gapText _ _ (outside_grow _ _ hout),
      advanceText_textAt indented level v _ (outside_grow _ _ hout) hdepth',
      advanceText_itemsText indented level items _ (outside_grow _ _ (outside_grow _ _ hout))
        (Nat.le_trans hdepth' (Nat.le_max_left _ _)), grow_grow, grow_grow]
    congr 1
    omega

theorem advanceText_membersText (indented : Bool) (level : Nat) :
    ∀ (members : List (String × Json)) (state : JsonScanState), Outside state →
    state.depth ≤ state.maxDepth →
    advanceText state (membersText indented level members)
      = grow state (membersElementCount members) (membersNesting members)
  | [], state, _, hdepth => (grow_zero state hdepth).symm
  | (name, v) :: members, state, hout, hdepth => by
    have hcomma : Outside (grow state 1 0) := hout
    have hdepth' : (grow state 1 0).depth ≤ (grow state 1 0).maxDepth :=
      Nat.le_trans hdepth (Nat.le_max_left _ _)
    have hcolon : Outside (grow (grow state 1 0) 1 0) := hout
    have hdepth'' : (grow (grow state 1 0) 1 0).depth ≤ (grow (grow state 1 0) 1 0).maxDepth :=
      Nat.le_trans hdepth' (Nat.le_max_left _ _)
    rw [membersText, membersElementCount, membersNesting, advanceText_cons,
      advanceText_comma hout hdepth, advanceText_append, advanceText_append, advanceText_append,
      advanceText_append, advanceText_gapText _ _ hcomma, advanceText_stringText name hcomma,
      advanceText_colonText indented hcomma hdepth',
      advanceText_textAt indented level v _ hcolon hdepth'',
      advanceText_membersText indented level members _ (outside_grow _ _ hcolon)
        (Nat.le_trans hdepth'' (Nat.le_max_left _ _)), grow_grow, grow_grow, grow_grow]
    congr 1
    all_goals omega
end

/-- **WHAT THE SCAN DECIDES** on the text of a value: the value's own two counts. -/
theorem validateJsonLimits_textAt (indented : Bool) (v : Json) :
    validateJsonLimits (utf8 (String.ofList (textAt indented 0 v))) = .ok ()
      ↔ elementCount v ≤ maxJsonElements ∧ nesting v ≤ maxJsonDepth := by
  have hscan := advanceText_textAt indented 0 v .start ⟨rfl, rfl⟩ (Nat.le_refl 0)
  rw [validateJsonLimits_iff, utf8, String.toList_ofList]
  show Within (advanceText .start (textAt indented 0 v)) ↔ _
  rw [hscan, Within]
  simp [grow, JsonScanState.start]

end JsonLimits
