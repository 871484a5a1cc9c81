import Kapsaro.JsonGrammar
import Kapsaro.JsonLimits

/-!
# JSON scan — the limit scanner against the grammar, and on machine words

`JsonLimits` has the scanner of `support/json_limits.rs`, and what it counts in the texts the
program writes.  The texts it is there for are written by others; this module is about all of them.

* **`JsonDoc.nesting`**, **`JsonDoc.elements`** — the two numbers, read off a tree of the grammar.
* **`advanceText_doc`** — the scan of a tree adds just these, whatever is escaped in its strings and
  wherever white space stands.
* **`scanWords`** — the scan with its counters in machine words, where an addition may overflow;
  **`scanWords_eq`**: none does, on any bytes.
* **`jsonLimitLaws`** — together.
-/

namespace JsonScan

open JsonText JsonGrammar JsonLimits Limits TextLines

/-! ## The counts of a tree -/

mutual
/-- The greatest number of containers around a place in a value. -/
def nesting : JsonDoc → Nat
  | .emptyArr _ => 1
  | .arr items => 1 + itemsNesting items
  | .emptyObj _ => 1
  | .obj members => 1 + membersNesting members
  | _ => 0

def itemsNesting : DocItems → Nat
  | .last _ v _ => nesting v
  | .more _ v _ rest => max (nesting v) (itemsNesting rest)

def membersNesting : DocMembers → Nat
  | .last _ _ _ _ v _ => nesting v
  | .more _ _ _ _ v _ rest => max (nesting v) (membersNesting rest)
end

/-- The number of elements of an array. -/
def itemCount : DocItems → Nat
  | .last _ _ _ => 1
  | .more _ _ _ rest => itemCount rest + 1

/-- The number of members of an object. -/
def memberCount : DocMembers → Nat
  | .last _ _ _ _ _ _ => 1
  | .more _ _ _ _ _ _ rest => memberCount rest + 1

mutual
/-- One for a container, for each of its commas, and for each colon of an object; and the same for
    what is inside. -/
def elements : JsonDoc → Nat
  | .emptyArr _ => 1
  | .arr items => 1 + (itemCount items - 1) + itemsElements items
  | .emptyObj _ => 1
  | .obj members => 1 + memberCount members + (memberCount members - 1) + membersElements members
  | _ => 0

def itemsElements : DocItems → Nat
  | .last _ v _ => elements v
  | .more _ v _ rest => elements v + itemsElements rest

def membersElements : DocMembers → Nat
  | .last _ _ _ _ v _ => elements v
  | .more _ _ _ _ v _ rest => elements v + membersElements rest
end

theorem one_le_itemCount (items : DocItems) : 1 ≤ itemCount items := by
  cases items with
  | last _ _ _ => exact Nat.le_refl 1
  | more _ _ _ rest => exact Nat.le_add_left 1 _

theorem one_le_memberCount (members : DocMembers) : 1 ≤ memberCount members := by
  cases members with
  | last _ _ _ _ _ _ => exact Nat.le_refl 1
  | more _ _ _ _ _ _ rest => exact Nat.le_add_left 1 _

/-! ## The scan of literals -/

theorem isSilent_of_space {c : Char} (h : isJsonSpace c = true) : isSilent c = true := by
  simp only [isJsonSpace, Bool.or_eq_true, beq_iff_eq] at h
  rcases h with ((rfl | rfl) | rfl) | rfl <;> decide

theorem advanceText_space {state : JsonScanState} (space : Space) (hstate : Outside state) :
    advanceText state space.chars = state :=
  advanceText_silent _ hstate fun c hc => isSilent_of_space (space.blank c hc)

theorem silent_exponent (e : Exponent) : ∀ c ∈ e.text, isSilent c = true := by
  obtain ⟨mark, hmarked, sign, digits⟩ := e
  have hmark : isSilent mark = true := by
    rcases hmarked with rfl | rfl <;> decide
  have hdigits : ∀ c ∈ digits.chars, isSilent c = true :=
    fun c hc => isSilent_of_digit (digits.digits c hc)
  intro c hc
  simp only [Exponent.text, List.mem_cons, List.mem_append] at hc
  rcases hc with rfl | hsign | hmem
  · exact hmark
  · match sign with
    | none => cases hsign
    | some false => exact List.mem_singleton.mp hsign ▸ by decide
    | some true => exact List.mem_singleton.mp hsign ▸ by decide
  · exact hdigits c hmem

/-- No character of a number counts. -/
theorem silent_number (n : NumberText) : ∀ c ∈ n.text, isSilent c = true := by
  intro c hc
  simp only [NumberText.text, NumberText.tail, List.mem_append] at hc
  rcases hc with hsign | hwhole | hfraction | hexponent
  · cases hnegative : n.negative with
    | false =>
      rw [hnegative] at hsign
      cases hsign
    | true =>
      rw [hnegative] at hsign
      exact List.mem_singleton.mp hsign ▸ by decide
  · exact isSilent_of_digit (n.whole.digits c hwhole)
  · cases hparts : n.fraction with
    | none =>
      rw [hparts] at hfraction
      cases hfraction
    | some ds =>
      rw [hparts] at hfraction
      rcases List.mem_cons.mp hfraction with rfl | hmem
      · decide
      · exact isSilent_of_digit (ds.digits c hmem)
  · cases hparts : n.exponent with
    | none =>
      rw [hparts] at hexponent
      cases hexponent
    | some e =>
      rw [hparts] at hexponent
      exact silent_exponent e c hexponent

/-- A hex digit is ASCII, and neither a quote nor a backslash. -/
theorem hexDigit_plain (h : HexDigit) : h.char ≠ '\\' ∧ h.char ≠ '"' := by
  obtain ⟨c, hhex⟩ := h
  constructor
  · rintro rfl
    exact absurd hhex (by decide)
  · rintro rfl
    exact absurd hhex (by decide)

/-- The character behind the backslash of an escape is ASCII. -/
theorem ascii_of_escaped {c : Char} (h : (escapedChar c).isSome = true) : c.toNat < 128 := by
  rw [escapedChar] at h
  split_ifs at h with h1 h2 h3 h4 h5 h6 h7 h8
  · exact h1 ▸ by decide
  · exact h2 ▸ by decide
  · exact h3 ▸ by decide
  · exact h4 ▸ by decide
  · exact h5 ▸ by decide
  · exact h6 ▸ by decide
  · exact h7 ▸ by decide
  · exact h8 ▸ by decide
  · cases h

/-- **A PIECE OF A STRING**, escaped or not, leaves the scan inside the string. -/
theorem advanceText_piece {state : JsonScanState} (piece : StringPiece) (hstate : Inside state) :
    advanceText state piece.text = state := by
  cases piece with
  | plain c ok => exact advanceText_inside_plain c hstate ok.2.1 ok.1
  | short c ok => exact advanceText_inside_escape c hstate (ascii_of_escaped ok)
  | unicode a b c d =>
    have hdigit : ∀ h : HexDigit, advanceText state [h.char] = state := fun h =>
      advanceText_inside_plain h.char hstate (hexDigit_plain h).1 (hexDigit_plain h).2
    show advanceText state (['\\', 'u'] ++ [a.char, b.char, c.char, d.char]) = state
    rw [advanceText_append, advanceText_inside_escape 'u' hstate (by decide), advanceText_cons,
      hdigit a, advanceText_cons, hdigit b, advanceText_cons, hdigit c]
    exact hdigit d

/-- **A STRING LITERAL CHANGES NO COUNT**, whatever brackets, colons and commas are in it. -/
theorem advanceText_literal {state : JsonScanState} (pieces : List StringPiece)
    (hstate : Outside state) : advanceText state (literalText pieces) = state := by
  obtain ⟨hin, hesc⟩ := hstate
  have hopen : advanceText state ['"'] = { state with inString := true } := by
    rw [advanceText_ascii _ _ (by decide), advance, if_neg (by simp [hesc]),
      if_neg (by simp [hin])]
    rfl
  have hinside : Inside { state with inString := true } := ⟨rfl, hesc⟩
  have hbody : ∀ pieces : List StringPiece,
      advanceText { state with inString := true } (pieces.flatMap StringPiece.text)
        = { state with inString := true } := by
    intro pieces
    induction pieces with
    | nil => rfl
    | cons piece pieces ih =>
      rw [List.flatMap_cons, advanceText_append, advanceText_piece piece hinside]
      exact ih
  rw [literalText, advanceText_cons, hopen, advanceText_append, hbody,
    advanceText_ascii _ _ (by decide), advance, if_neg (by simp [hesc]), if_pos rfl]
  cases state
  cases hin
  rfl

/-! ## The scan of values -/

theorem advanceText_colon {state : JsonScanState} (hstate : Outside state)
    (hdepth : state.depth ≤ state.maxDepth) : advanceText state [':'] = grow state 1 0 := by
  rw [advanceText_ascii _ _ (by decide), advance, if_neg (by simp [hstate.2]),
    if_neg (by simp [hstate.1])]
  simp only [grow, Nat.add_zero, Nat.max_eq_left hdepth]
  rfl

/-- Growing a state keeps its depth below the greatest one. -/
theorem depth_le_grow {state : JsonScanState} (elements depth : Nat)
    (h : state.depth ≤ state.maxDepth) :
    (grow state elements depth).depth ≤ (grow state elements depth).maxDepth :=
  Nat.le_trans h (Nat.le_max_left _ _)

mutual
/-- **THE SCAN OF A TREE** adds the tree's counts. -/
theorem advanceText_doc : ∀ (doc : JsonDoc) (state : JsonScanState), Outside state →
    state.depth ≤ state.maxDepth →
    advanceText state doc.text = grow state (elements doc) (nesting doc)
  | .null, state, hout, hdepth =>
    (advanceText_silent ['n', 'u', 'l', 'l'] hout (List.all_eq_true.mp rfl)).trans
      (grow_zero state hdepth).symm
  | .bool true, state, hout, hdepth =>
    (advanceText_silent ['t', 'r', 'u', 'e'] hout (List.all_eq_true.mp rfl)).trans
      (grow_zero state hdepth).symm
  | .bool false, state, hout, hdepth =>
    (advanceText_silent ['f', 'a', 'l', 's', 'e'] hout (List.all_eq_true.mp rfl)).trans
      (grow_zero state hdepth).symm
  | .num n, state, hout, hdepth =>
    (advanceText_silent _ hout (silent_number n)).trans (grow_zero state hdepth).symm
  | .str pieces, state, hout, hdepth =>
    (advanceText_literal pieces hout).trans (grow_zero state hdepth).symm
  | .emptyArr gap, state, hout, hdepth => by
    have hopen : Outside (opened state) := hout
    have hclose := advanceText_close hout (.inr rfl) 0 0
    rw [grow_zero (opened state) (by simp only [opened]; omega)] at hclose
    rw [JsonDoc.text, advanceText_cons, advanceText_open hout (.inr rfl), advanceText_append,
      advanceText_space gap hopen]
    exact hclose
  | .arr items, state, hout, hdepth => by
    have hopen : Outside (opened state) := hout
    have hdepth' : (opened state).depth ≤ (opened state).maxDepth := by
      simp only [opened]
      omega
    rw [JsonDoc.text, advanceText_cons, advanceText_open hout (.inr rfl), advanceText_append,
      advanceText_docItems items _ hopen hdepth', advanceText_close hout (.inr rfl), elements,
      nesting]
    congr 1
    omega
  | .emptyObj gap, state, hout, hdepth => by
    have hopen : Outside (opened state) := hout
    have hclose := advanceText_close hout (.inl rfl) 0 0
    rw [grow_zero (opened state) (by simp only [opened]; omega)] at hclose
    rw [JsonDoc.text, advanceText_cons, advanceText_open hout (.inl rfl), advanceText_append,
      advanceText_space gap hopen]
    exact hclose
  | .obj members, state, hout, hdepth => by
    have hopen : Outside (opened state) := hout
    have hdepth' : (opened state).depth ≤ (opened state).maxDepth := by
      simp only [opened]
      omega
    rw [JsonDoc.text, advanceText_cons, advanceText_open hout (.inl rfl), advanceText_append,
      advanceText_docMembers members _ hopen hdepth', advanceText_close hout (.inl rfl), elements,
      nesting]
    congr 1
    omega

/-- The elements of an array, with the commas between them. -/
theorem advanceText_docItems : ∀ (items : DocItems) (state : JsonScanState), Outside state →
    state.depth ≤ state.maxDepth →
    advanceText state items.text
      = grow state (itemsElements items + (itemCount items - 1)) (itemsNesting items)
  | .last before v after, state, hout, hdepth => by
    rw [DocItems.text, advanceText_append, advanceText_space before hout, advanceText_append,
      advanceText_doc v state hout hdepth, advanceText_space after (outside_grow _ _ hout)]
    rfl
  | .more before v after rest, state, hout, hdepth => by
    have hcount := one_le_itemCount rest
    have hv : Outside (grow state (elements v) (nesting v)) := hout
    have hcomma := advanceText_comma hv (depth_le_grow _ _ hdepth)
    rw [DocItems.text, advanceText_append, advanceText_space before hout, advanceText_append,
      advanceText_doc v state hout hdepth, advanceText_append, advanceText_space after hv,
      advanceText_cons, hcomma,
      advanceText_docItems rest _ (outside_grow 1 0 hv)
        (depth_le_grow _ _ (depth_le_grow _ _ hdepth)), grow_grow,
      grow_grow, itemsElements, itemCount, itemsNesting]
    congr 1
    all_goals omega

/-- The members of an object, with the commas between them and the colons in them. -/
theorem advanceText_docMembers : ∀ (members : DocMembers) (state : JsonScanState), Outside state →
    state.depth ≤ state.maxDepth →
    advanceText state members.text
      = grow state (membersElements members + memberCount members + (memberCount members - 1))
          (membersNesting members)
  | .last before name gap start v after, state, hout, hdepth => by
    have hcolon := advanceText_colon hout hdepth
    rw [DocMembers.text, advanceText_append, advanceText_space before hout, advanceText_append,
      advanceText_literal name hout, advanceText_append, advanceText_space gap hout,
      advanceText_cons, hcolon, advanceText_append, advanceText_space start (outside_grow _ _ hout),
      advanceText_append, advanceText_doc v _ (outside_grow _ _ hout) (depth_le_grow _ _ hdepth),
      advanceText_space after (outside_grow _ _ (outside_grow _ _ hout)), grow_grow,
      membersElements, memberCount, membersNesting]
    congr 1
    all_goals omega
  | .more before name gap start v after rest, state, hout, hdepth => by
    have hcount := one_le_memberCount rest
    have hcolon := advanceText_colon hout hdepth
    have hv : Outside (grow (grow state 1 0) (elements v) (nesting v)) := hout
    have hdepth' := depth_le_grow (elements v) (nesting v) (depth_le_grow 1 0 hdepth)
    have hcomma := advanceText_comma hv hdepth'
    rw [DocMembers.text, advanceText_append, advanceText_space before hout, advanceText_append,
      advanceText_literal name hout, advanceText_append, advanceText_space gap hout,
      advanceText_cons, hcolon, advanceText_append, advanceText_space start (outside_grow _ _ hout),
      advanceText_append, advanceText_doc v _ (outside_grow _ _ hout) (depth_le_grow _ _ hdepth),
      advanceText_append, advanceText_space after hv, advanceText_cons, hcomma,
      advanceText_docMembers rest _ (outside_grow 1 0 hv) (depth_le_grow 1 0 hdepth'), grow_grow,
      grow_grow, grow_grow, membersElements, memberCount, membersNesting]
    congr 1
    all_goals omega
end

/-- **THE SCAN OF A TEXT** ends outside every string and container, with the counts of its tree. -/
theorem advanceAll_text (source : JsonSource) :
    advanceAll .start (utf8 (String.ofList source.text))
      = { depth := 0, maxDepth := nesting source.doc, elements := elements source.doc,
          inString := false, escape := false } := by
  have hstart : Outside JsonScanState.start := ⟨rfl, rfl⟩
  rw [utf8, String.toList_ofList]
  show advanceText .start source.text = _
  rw [JsonSource.text, advanceText_append, advanceText_space _ hstart, advanceText_append,
    advanceText_doc source.doc _ hstart (Nat.le_refl 0),
    advanceText_space _ (outside_grow _ _ hstart)]
  simp [grow, JsonScanState.start]

/-! ## The counts of the parsed value -/

mutual
/-- A value that is parsed has the counts of its text. -/
theorem counts_of_value : ∀ (doc : JsonDoc) {v : Json}, doc.value? = some v →
    JsonLimits.nesting v = nesting doc ∧ elementCount v = elements doc
  | .null, v, h => by
    obtain rfl := Option.some.inj h
    exact ⟨rfl, rfl⟩
  | .bool b, v, h => by
    obtain rfl := Option.some.inj h
    exact ⟨rfl, rfl⟩
  | .num n, v, h => by
    obtain ⟨i, _, rfl⟩ := Option.map_eq_some_iff.mp h
    exact ⟨rfl, rfl⟩
  | .str pieces, v, h => by
    obtain ⟨s, _, rfl⟩ := Option.map_eq_some_iff.mp h
    exact ⟨rfl, rfl⟩
  | .emptyArr gap, v, h => by
    obtain rfl := Option.some.inj h
    exact ⟨rfl, rfl⟩
  | .arr items, v, h => by
    obtain ⟨vs, hvs, rfl⟩ := Option.map_eq_some_iff.mp h
    obtain ⟨hnesting, hcount⟩ := counts_of_values items hvs
    have hone := one_le_itemCount items
    rw [JsonLimits.nesting, elementCount_arr, hnesting, hcount, nesting, elements]
    exact ⟨rfl, by omega⟩
  | .emptyObj gap, v, h => by
    obtain rfl := Option.some.inj h
    exact ⟨rfl, rfl⟩
  | .obj members, v, h => by
    obtain ⟨ms, hms, rfl⟩ := Option.map_eq_some_iff.mp h
    obtain ⟨hnesting, hcount⟩ := counts_of_pairs members hms
    have hone := one_le_memberCount members
    rw [JsonLimits.nesting, elementCount_obj, hnesting, hcount, nesting, elements]
    exact ⟨rfl, by omega⟩

theorem counts_of_values : ∀ (items : DocItems) {vs : List Json}, items.values? = some vs →
    JsonLimits.itemsNesting vs = itemsNesting items
      ∧ itemsElementCount vs = itemsElements items + itemCount items
  | .last before v after, vs, h => by
    obtain ⟨x, hx, rfl⟩ := Option.map_eq_some_iff.mp h
    obtain ⟨hnesting, hcount⟩ := counts_of_value v hx
    simp only [JsonLimits.itemsNesting, itemsElementCount, itemsNesting, itemsElements, itemCount]
    omega
  | .more before v after rest, vs, h => by
    obtain ⟨x, hx, h⟩ := Option.bind_eq_some_iff.mp h
    obtain ⟨xs, hxs, rfl⟩ := Option.map_eq_some_iff.mp h
    obtain ⟨hnesting, hcount⟩ := counts_of_value v hx
    obtain ⟨hrest, hmore⟩ := counts_of_values rest hxs
    simp only [JsonLimits.itemsNesting, itemsElementCount, itemsNesting, itemsElements, itemCount]
    omega

theorem counts_of_pairs : ∀ (members : DocMembers) {ms : List (String × Json)},
    members.values? = some ms →
    JsonLimits.membersNesting ms = membersNesting members
      ∧ membersElementCount ms = membersElements members + 2 * memberCount members
  | .last before name gap start v after, ms, h => by
    obtain ⟨s, _, h⟩ := Option.bind_eq_some_iff.mp h
    obtain ⟨x, hx, rfl⟩ := Option.map_eq_some_iff.mp h
    obtain ⟨hnesting, hcount⟩ := counts_of_value v hx
    simp only [JsonLimits.membersNesting, membersElementCount, membersNesting, membersElements,
      memberCount]
    omega
  | .more before name gap start v after rest, ms, h => by
    obtain ⟨s, _, h⟩ := Option.bind_eq_some_iff.mp h
    obtain ⟨x, hx, h⟩ := Option.bind_eq_some_iff.mp h
    obtain ⟨xs, hxs, rfl⟩ := Option.map_eq_some_iff.mp h
    obtain ⟨hnesting, hcount⟩ := counts_of_value v hx
    obtain ⟨hrest, hmore⟩ := counts_of_pairs rest hxs
    simp only [JsonLimits.membersNesting, membersElementCount, membersNesting, membersElements,
      memberCount]
    omega
end

/-! ## Machine words -/

/-- How the scan stops without a state: with its own error, or at a sum that no word holds. -/
inductive ScanStop where
  | rejected (error : Error)
  | overflow

section Words

variable (usizeMax : Nat)

/-- One more, where a word holds it. -/
def increment (n : Nat) : Except ScanStop Nat :=
  if n + 1 ≤ usizeMax then .ok (n + 1) else .error .overflow

/-- One less, or zero. -/
def saturatingDecrement (n : Nat) : Nat :=
  if n = 0 then 0 else n - 1

def openContainerWords (state : JsonScanState) : Except ScanStop JsonScanState := do
  let depth ← increment usizeMax state.depth
  let maxDepth := if depth > state.maxDepth then depth else state.maxDepth
  let elements ← increment usizeMax state.elements
  if maxDepth > maxJsonDepth then
    .error (.rejected (.parse s!"JSON nesting depth exceeds limit ({maxDepth} > {maxJsonDepth})"))
  else pure { state with depth := depth, maxDepth := maxDepth, elements := elements }

def enforceElementLimitWords (state : JsonScanState) : Except ScanStop JsonScanState :=
  (enforceElementLimit state).mapError .rejected

/-- One byte of the scan. -/
def consumeWords (state : JsonScanState) (byte : UInt8) : Except ScanStop JsonScanState :=
  if state.escape then .ok { state with escape := false }
  else if state.inString then .ok (consumeInString state byte)
  else if byte = 34 then enforceElementLimitWords { state with inString := true }
  else if byte = 123 ∨ byte = 91 then do
    let state ← openContainerWords usizeMax state
    enforceElementLimitWords state
  else if byte = 125 ∨ byte = 93 then
    enforceElementLimitWords { state with depth := saturatingDecrement state.depth }
  else if byte = 58 ∨ byte = 44 then do
    let elements ← increment usizeMax state.elements
    enforceElementLimitWords { state with elements := elements }
  else enforceElementLimitWords state

def scanWords (state : JsonScanState) : List UInt8 → Except ScanStop JsonScanState
  | [] => .ok state
  | byte :: rest => do
    let next ← consumeWords usizeMax state byte
    scanWords next rest

end Words

/-- What the scan keeps: the depth is below the greatest one, and both counts are within their
    limits. -/
structure Bounded (state : JsonScanState) : Prop where
  depth : state.depth ≤ state.maxDepth
  within : Within state

theorem saturatingDecrement_eq (n : Nat) : saturatingDecrement n = n - 1 := by
  rw [saturatingDecrement]
  split <;> omega

/-- Every word holds one more than a limit. -/
theorem increment_ok {usizeMax n : Nat} (hwide : 2 ^ 16 ≤ usizeMax + 1)
    (h : n ≤ maxJsonElements ∨ n ≤ maxJsonDepth) : increment usizeMax n = .ok (n + 1) := by
  have helements : maxJsonElements < 2 ^ 16 - 1 := by decide
  have hdepth : maxJsonDepth < 2 ^ 16 - 1 := by decide
  exact if_pos (by omega)

/-- An accepted byte leaves a bounded state. -/
theorem Bounded.consume {state next : JsonScanState} {byte : UInt8} (h : Bounded state)
    (hnext : consume state byte = .ok next) : Bounded next := by
  have hdepth : (advance state byte).depth ≤ (advance state byte).maxDepth := by
    have hbefore := h.depth
    unfold advance consumeInString
    split_ifs <;> first | exact hbefore | (dsimp only; omega)
  rcases consume_eq state byte h.within with ⟨hwithin, heq⟩ | ⟨_, e, heq⟩
  · obtain rfl := Except.ok.inj (heq.symm.trans hnext)
    exact ⟨hdepth, hwithin⟩
  · rw [heq] at hnext
    cases hnext

/-- **ONE BYTE IN WORDS** is one byte of the scan: no sum leaves a word. -/
theorem consumeWords_eq {usizeMax : Nat} (hwide : 2 ^ 16 ≤ usizeMax + 1) {state : JsonScanState}
    (h : Bounded state) (byte : UInt8) :
    consumeWords usizeMax state byte = (consume state byte).mapError .rejected := by
  have hdepth := increment_ok hwide (Or.inr (Nat.le_trans h.depth h.within.2))
  have helements := increment_ok hwide (Or.inl h.within.1)
  have hmax : (if state.depth + 1 > state.maxDepth then state.depth + 1 else state.maxDepth)
      = max state.maxDepth (state.depth + 1) := by
    split <;> omega
  rw [consumeWords, consume]
  split_ifs with hescape hstring hquote hopen hclose hsep
  · rfl
  · rfl
  · rfl
  · have hwords : openContainerWords usizeMax state = (openContainer state).mapError .rejected := by
      rw [openContainerWords, hdepth, helements]
      show (if _ > maxJsonDepth then _ else _) = _
      rw [hmax, openContainer]
      by_cases hd : max state.maxDepth (state.depth + 1) > maxJsonDepth
      · rw [if_pos hd, if_pos hd]
        rfl
      · rw [if_neg hd, if_neg hd]
        rfl
    rw [hwords]
    cases openContainer state with
    | error e => rfl
    | ok opened => rfl
  · rw [saturatingDecrement_eq]
    rfl
  · rw [helements]
    rfl
  · rfl

/-- **NO SCAN OVERFLOWS**: in words it ends on every byte sequence as it does in numbers. -/
theorem scanWords_eq {usizeMax : Nat} (hwide : 2 ^ 16 ≤ usizeMax + 1) (bytes : List UInt8)
    {state : JsonScanState} (h : Bounded state) :
    scanWords usizeMax state bytes = (scanFrom state bytes).mapError .rejected := by
  induction bytes generalizing state with
  | nil => rfl
  | cons byte bytes ih =>
    rw [scanWords, scanFrom, consumeWords_eq hwide h byte]
    cases hnext : consume state byte with
    | error e => rfl
    | ok next => exact ih (h.consume hnext)

/-- A scan that passes ends in the state of the counts. -/
theorem scanFrom_eq_advanceAll {bytes : List UInt8} {state final : JsonScanState}
    (h : Within state) (hscan : scanFrom state bytes = .ok final) :
    final = advanceAll state bytes := by
  induction bytes generalizing state with
  | nil => exact (Except.ok.inj hscan).symm
  | cons byte bytes ih =>
    rcases consume_eq state byte h with ⟨hnext, heq⟩ | ⟨_, e, heq⟩
    · rw [scanFrom, heq] at hscan
      exact ih hnext hscan
    · rw [scanFrom, heq] at hscan
      cases hscan

/-! ## The laws -/

/-- The bytes of a JSON text. -/
def bytesOf (source : JsonSource) : Bytes :=
  utf8 (String.ofList source.text)

theorem bounded_start : Bounded .start :=
  ⟨Nat.le_refl 0, Nat.zero_le _, Nat.zero_le _⟩

/-- What the limit scanner decides. -/
structure JsonLimitLaws : Prop where
  /-- on a well-formed text, the counts are those of its tree -/
  counts : ∀ source, (advanceAll .start (bytesOf source)).maxDepth = nesting source.doc
    ∧ (advanceAll .start (bytesOf source)).elements = elements source.doc
  /-- and the scan, when it passes, has reached them -/
  reached : ∀ source final, scanFrom .start (bytesOf source) = .ok final →
    final.maxDepth = nesting source.doc ∧ final.elements = elements source.doc
  /-- they are those of the parsed value, when the parser finds one -/
  parsed : ∀ (source : JsonSource) (v : Json), parseJson source.text = some v →
    JsonLimits.nesting v = nesting source.doc ∧ elementCount v = elements source.doc
  /-- the scan rejects when one of them exceeds its limit, and not otherwise -/
  rejects : ∀ source, (∃ e, validateJsonLimits (bytesOf source) = .error e)
    ↔ maxJsonDepth < nesting source.doc ∨ maxJsonElements < elements source.doc
  /-- on any bytes the scan in machine words ends as it does in numbers, without overflow -/
  inWords : ∀ (usizeMax : Nat) (bytes : List UInt8), 2 ^ 16 ≤ usizeMax + 1 →
    scanWords usizeMax .start bytes = (scanFrom .start bytes).mapError .rejected
      ∧ scanWords usizeMax .start bytes ≠ .error .overflow

/-- **THE SCANNER AGREES WITH THE GRAMMAR**, on every text, and ends on every input. -/
theorem jsonLimitLaws : JsonLimitLaws where
  counts source := by
    rw [bytesOf, advanceAll_text]
    exact ⟨rfl, rfl⟩
  reached source final hscan := by
    rw [scanFrom_eq_advanceAll bounded_start.within hscan, bytesOf, advanceAll_text]
    exact ⟨rfl, rfl⟩
  parsed source v hparse := by
    rw [parseJson_text] at hparse
    exact counts_of_value source.doc hparse
  rejects source := by
    have hiff := validateJsonLimits_iff (bytesOf source)
    rw [bytesOf, advanceAll_text, Within] at hiff
    constructor
    · rintro ⟨e, herror⟩
      by_contra hwithin
      rw [bytesOf, hiff.mpr (by dsimp only; omega)] at herror
      cases herror
    · intro hexceeds
      rw [bytesOf]
      cases hresult : validateJsonLimits (utf8 (String.ofList source.text)) with
      | error e => exact ⟨e, rfl⟩
      | ok u =>
        have hwithin := hiff.mp hresult
        dsimp only at hwithin
        omega
  inWords usizeMax bytes hwide := by
    have heq := scanWords_eq hwide bytes bounded_start
    refine ⟨heq, fun hstop => ?_⟩
    rw [heq] at hstop
    cases hscan : scanFrom .start bytes with
    | error e =>
      rw [hscan] at hstop
      cases hstop
    | ok final =>
      rw [hscan] at hstop
      cases hstop

end JsonScan
