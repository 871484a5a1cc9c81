import Kapsaro.TokenRecords

/-!
# JSON size — how long the canonical text of a value is

The readers limit the length of a token and of a document, so the length of what a writer makes
has to be known without writing it.

* **`jsonSize`** — the length in bytes of the compact text of a value.
* **`jcsText_size`** — the canonical text is that long, whatever the order of the members.
* **`tokenText_size`** — and the token is the base64url length of it.
* **`stringSize_plain`**, **`stringSize_encode`** — strings that need no escape.
-/

namespace JsonSize

open JsonText JsonMembers TextLines Base64Codec WireTexts WireModel DocumentTokens TokenRecords

/-! ## Sizes -/

/-- The bytes of a list of characters. -/
def charsSize (cs : List Char) : Nat :=
  (cs.map Char.utf8Size).sum

/-- The bytes of a string between quotes, escapes included. -/
def stringSize (s : String) : Nat :=
  2 + (s.toList.map fun c => charsSize (escapeChar c)).sum

mutual
/-- The bytes of the compact text of a value. -/
def jsonSize : Json → Nat
  | .null => 4
  | .bool true => 4
  | .bool false => 5
  | .num n => charsSize (intText n)
  | .str s => stringSize s
  | .arr items => 1 + max 1 (itemsSize items)
  | .obj members => 1 + max 1 (membersSize members)

/-- The elements of an array, each with the comma or the bracket behind it. -/
def itemsSize : List Json → Nat
  | [] => 0
  | v :: items => jsonSize v + 1 + itemsSize items

/-- The members of an object, each with its colon and the comma or the brace behind it. -/
def membersSize : List (String × Json) → Nat
  | [] => 0
  | (name, v) :: members => stringSize name + 1 + jsonSize v + 1 + membersSize members
end

theorem charsSize_append (a b : List Char) : charsSize (a ++ b) = charsSize a + charsSize b := by
  rw [charsSize, List.map_append, List.sum_append]
  rfl

theorem charsSize_cons (c : Char) (cs : List Char) :
    charsSize (c :: cs) = c.utf8Size + charsSize cs := by
  rw [charsSize, List.map_cons, List.sum_cons]
  rfl

theorem charsSize_nil : charsSize [] = 0 := rfl

theorem utf8ByteSize_ofList (cs : List Char) : (String.ofList cs).utf8ByteSize = charsSize cs := by
  rw [← utf8_length, utf8, String.toList_ofList]
  induction cs with
  | nil => rfl
  | cons c cs ih =>
    rw [List.flatMap_cons, List.length_append, ih, charsSize_cons, String.length_utf8EncodeChar]

theorem charsSize_stringText (s : String) : charsSize (stringText s) = stringSize s := by
  have hbody : ∀ cs : List Char, charsSize (cs.flatMap escapeChar)
      = (cs.map fun c => charsSize (escapeChar c)).sum := by
    intro cs
    induction cs with
    | nil => rfl
    | cons c cs ih => rw [List.flatMap_cons, charsSize_append, ih, List.map_cons, List.sum_cons]
  rw [stringText, List.cons_append, charsSize_cons, charsSize_append, hbody, stringSize]
  show 1 + (_ + 1) = 2 + _
  omega

theorem itemsSize_pos {items : List Json} (h : items ≠ []) : 1 ≤ itemsSize items := by
  cases items with
  | nil => exact absurd rfl h
  | cons v items =>
    rw [itemsSize]
    omega

theorem membersSize_pos {members : List (String × Json)} (h : members ≠ []) :
    1 ≤ membersSize members := by
  cases members with
  | nil => exact absurd rfl h
  | cons m members =>
    rw [membersSize]
    omega

mutual
/-- **THE COMPACT TEXT HAS THE SIZE OF THE VALUE.** -/
theorem charsSize_textAt (level : Nat) : ∀ v : Json,
    charsSize (textAt false level v) = jsonSize v
  | .null => rfl
  | .bool true => rfl
  | .bool false => rfl
  | .num _ => rfl
  | .str s => charsSize_stringText s
  | .arr [] => rfl
  | .arr (v :: items) => by
    rw [textAt, charsSize_cons, charsSize_append, charsSize_append, charsSize_append,
      charsSize_append, charsSize_textAt (level + 1) v, charsSize_itemsText (level + 1) items,
      jsonSize, itemsSize]
    show 1 + (0 + jsonSize v + itemsSize items + 0 + 1) = _
    omega
  | .obj [] => rfl
  | .obj ((name, v) :: members) => by
    rw [textAt, charsSize_cons, charsSize_append, charsSize_append, charsSize_append,
      charsSize_append, charsSize_append, charsSize_append, charsSize_stringText,
      charsSize_textAt (level + 1) v, charsSize_membersText (level + 1) members, jsonSize,
      membersSize]
    show 1 + (0 + stringSize name + 1 + jsonSize v + membersSize members + 0 + 1) = _
    omega

theorem charsSize_itemsText (level : Nat) : ∀ items : List Json,
    charsSize (itemsText false level items) = itemsSize items
  | [] => rfl
  | v :: items => by
    rw [itemsText, charsSize_cons, charsSize_append, charsSize_append,
      charsSize_textAt level v, charsSize_itemsText level items, itemsSize]
    show 1 + (0 + jsonSize v + itemsSize items) = _
    omega

theorem charsSize_membersText (level : Nat) : ∀ members : List (String × Json),
    charsSize (membersText false level members) = membersSize members
  | [] => rfl
  | (name, v) :: members => by
    rw [membersText, charsSize_cons, charsSize_append, charsSize_append, charsSize_append,
      charsSize_append, charsSize_stringText, charsSize_textAt level v,
      charsSize_membersText level members, membersSize]
    show 1 + (0 + stringSize name + 1 + jsonSize v + membersSize members) = _
    omega
end

/-! ## Canonical order does not change the size -/

theorem membersSize_eq_sum (members : List (String × Json)) :
    membersSize members = (members.map fun m => stringSize m.1 + 1 + jsonSize m.2 + 1).sum := by
  induction members with
  | nil => rfl
  | cons m members ih => rw [membersSize, ih, List.map_cons, List.sum_cons]

mutual
theorem jsonSize_canonical : ∀ v : Json, jsonSize (canonical v) = jsonSize v
  | .null => rfl
  | .bool _ => rfl
  | .num _ => rfl
  | .str _ => rfl
  | .arr items => by
    rw [canonical, jsonSize, jsonSize, itemsSize_canonicalItems items]
  | .obj members => by
    have hperm := sortMembers_perm (canonicalMembers members)
    rw [canonical, jsonSize, jsonSize, membersSize_eq_sum, (hperm.map _).sum_eq,
      ← membersSize_eq_sum, membersSize_canonicalMembers members]

theorem itemsSize_canonicalItems : ∀ items : List Json,
    itemsSize (canonicalItems items) = itemsSize items
  | [] => rfl
  | v :: items => by
    rw [canonicalItems, itemsSize, itemsSize, jsonSize_canonical v,
      itemsSize_canonicalItems items]

theorem membersSize_canonicalMembers : ∀ members : List (String × Json),
    membersSize (canonicalMembers members) = membersSize members
  | [] => rfl
  | (name, v) :: members => by
    rw [canonicalMembers, membersSize, membersSize, jsonSize_canonical v,
      membersSize_canonicalMembers members]
end

/-- **THE CANONICAL TEXT HAS THE SIZE OF THE VALUE.** -/
theorem jcsText_size (v : Json) : (jcsText v).utf8ByteSize = jsonSize v := by
  rw [jcsText, utf8ByteSize_ofList, charsSize_textAt, jsonSize_canonical]

/-- The size of a token follows from that of its value. -/
theorem tokenText_size (v : Json) :
    (tokenText v).utf8ByteSize = computeEncodedLen (jsonSize v) := by
  rw [tokenText, encodeBase64urlNopad_size, utf8_length, jcsText_size]

/-! ## Strings without escapes -/

theorem stringSize_plain {s : String} (h : ∀ c ∈ s.toList, escapeChar c = [c]) :
    stringSize s = 2 + s.utf8ByteSize := by
  have hchars : ∀ cs : List Char, (∀ c ∈ cs, escapeChar c = [c]) →
      (cs.map fun c => charsSize (escapeChar c)).sum = charsSize cs := by
    intro cs hcs
    induction cs with
    | nil => rfl
    | cons c cs ih =>
      rw [List.map_cons, List.sum_cons, ih fun d hd => hcs d (List.mem_cons_of_mem _ hd),
        hcs c List.mem_cons_self, charsSize_cons, charsSize_cons, charsSize_nil, Nat.add_zero]
  rw [stringSize, hchars _ h, ← utf8ByteSize_ofList, String.ofList_toList]

theorem escapeChar_symbol : ∀ v, v < 64 → escapeChar (symbol v) = [symbol v] := by
  decide +kernel

/-- A base64url text needs no escape. -/
theorem stringSize_base64 {s : String} (h : ∀ c ∈ s.toList, isBase64urlChar c = true) :
    stringSize s = 2 + s.utf8ByteSize := by
  refine stringSize_plain fun c hc => ?_
  obtain ⟨v, hv, rfl⟩ := exists_symbol (h c hc)
  exact escapeChar_symbol v hv

theorem stringSize_encode (data : Bytes) :
    stringSize (encodeBase64urlNopad data) = 2 + computeEncodedLen data.length := by
  rw [stringSize_base64, encodeBase64urlNopad_size]
  rw [encodeBase64urlNopad, String.toList_ofList]
  exact fillEncoded_chars data

theorem utf8Size_symbol : ∀ v, v < 64 → (symbol v).utf8Size = 1 := by
  decide +kernel

/-- The alphabet takes one byte a character. -/
theorem charsSize_base64 {cs : List Char} (h : ∀ c ∈ cs, isBase64urlChar c = true) :
    charsSize cs = cs.length := by
  induction cs with
  | nil => rfl
  | cons c cs ih =>
    obtain ⟨v, hv, rfl⟩ := exists_symbol (h c List.mem_cons_self)
    rw [charsSize_cons, ih fun d hd => h d (List.mem_cons_of_mem _ hd), utf8Size_symbol v hv,
      List.length_cons, Nat.add_comm]

/-- A character a hex shape allows stands for itself. -/
theorem hexShape_plain : ∀ {shape cs : List Char}, matchesHexShape shape cs = true →
    (∀ p ∈ shape, p = 'x' ∨ p = '-') →
    cs.length = shape.length ∧ ∀ c ∈ cs, isBase64urlChar c = true
  | [], [], _, _ => ⟨rfl, fun _ hc => by cases hc⟩
  | p :: shape, c :: cs, h, hshape => by
    rw [matchesHexShape, Bool.and_eq_true] at h
    obtain ⟨hrest, hchars⟩ := hexShape_plain h.2 fun q hq => hshape q (List.mem_cons_of_mem _ hq)
    have hc : isBase64urlChar c = true := by
      rcases hshape p List.mem_cons_self with rfl | rfl
      · have hhex : isLowerHex c = true := h.1
        rw [isLowerHex, Bool.or_eq_true, decide_eq_true_iff] at hhex
        have halphanum : c.isAlphanum = true := by
          rw [isAlphanum_iff_toNat]
          rcases hhex with hdigit | ⟨ha, hf⟩
          · exact Or.inr (Char.isDigit_iff_toNat.mp hdigit)
          · exact Or.inl (Or.inr ⟨ha, Nat.le_trans hf (by decide)⟩)
        rw [isBase64urlChar, halphanum]
        rfl
      · have hdash : (c == '-') = true := h.1
        rw [isBase64urlChar, hdash]
        simp
    refine ⟨?_, ?_⟩
    · rw [List.length_cons, List.length_cons, hrest]
    · intro d hd
      rcases List.mem_cons.mp hd with rfl | hd
      · exact hc
      · exact hchars d hd

theorem stringSize_uuid {s : String} (h : isUuidText s = true) : stringSize s = 38 := by
  have hshape : ∀ p ∈ "xxxxxxxx-xxxx-xxxx-xxxx-xxxxxxxxxxxx".toList, p = 'x' ∨ p = '-' := by
    intro p hp
    have hall : "xxxxxxxx-xxxx-xxxx-xxxx-xxxxxxxxxxxx".toList.all
        (fun p => p == 'x' || p == '-') = true := by decide
    simpa using List.all_eq_true.mp hall p hp
  obtain ⟨hsize, hchars⟩ := hexShape_plain h hshape
  rw [stringSize_base64 hchars, ← String.ofList_toList (s := s), utf8ByteSize_ofList,
    charsSize_base64 hchars, hsize]
  rfl

/-- The text of a key-possession proof has one size. -/
theorem size_macWire {tag : Bytes} {proof : KeyPossessionProof}
    (h : KeyPossessionProof.tryNew tag = .ok proof) : stringSize proof.wire = 57 := by
  rw [KeyPossessionProof.tryNew] at h
  split at h
  · rename_i htag
    obtain rfl := Except.ok.inj h
    have hprefix : (KeyPossessionProof.algorithmPrefix ++ ":").toList.all
        (fun c => escapeChar c == [c]) = true := by decide
    have hsize : (KeyPossessionProof.algorithmPrefix ++ ":").utf8ByteSize = 12 := by decide
    have hencoded : (encodeBase64urlNopad tag).utf8ByteSize = 43 := by
      rw [encodeBase64urlNopad_size, htag]
      rfl
    rw [stringSize_plain, String.utf8ByteSize_append, hsize, hencoded]
    intro c hc
    rw [String.toList_append, List.mem_append] at hc
    rcases hc with hc | hc
    · exact eq_of_beq (List.all_eq_true.mp hprefix c hc)
    · rw [encodeBase64urlNopad, String.toList_ofList] at hc
      obtain ⟨v, hv, rfl⟩ := exists_symbol (fillEncoded_chars tag c hc)
      exact escapeChar_symbol v hv
  · cases h

/-! ## Lower bounds -/

/-- Every three bytes make four characters, and a rest is rounded up. -/
theorem computeEncodedLen_eq (n : Nat) : computeEncodedLen n = (4 * n + 2) / 3 := by
  have hmod : n % 3 = 0 ∨ n % 3 = 1 ∨ n % 3 = 2 := by omega
  rw [computeEncodedLen]
  rcases hmod with h | h | h
  all_goals
    simp only [h]
    omega

theorem le_computeEncodedLen (n : Nat) : n ≤ computeEncodedLen n := by
  rw [computeEncodedLen]
  split <;> omega

/-- Escaping never makes a character shorter. -/
theorem le_charsSize_escapeChar (c : Char) : c.utf8Size ≤ charsSize (escapeChar c) := by
  have hsmall : ∀ d : Char, c = d → d.utf8Size = 1 → c.utf8Size ≤ 1 := by
    intro d hcd hd
    rw [hcd, hd]
  rw [escapeChar]
  split_ifs with h1 h2 h3 h4 h5 h6 h7 h8
  · exact Nat.le_trans (hsmall _ h1 rfl) (by decide)
  · exact Nat.le_trans (hsmall _ h2 rfl) (by decide)
  · exact Nat.le_trans (hsmall _ h3 rfl) (by decide)
  · exact Nat.le_trans (hsmall _ h4 rfl) (by decide)
  · exact Nat.le_trans (hsmall _ h5 rfl) (by decide)
  · exact Nat.le_trans (hsmall _ h6 rfl) (by decide)
  · exact Nat.le_trans (hsmall _ h7 rfl) (by decide)
  · have hsize : c.utf8Size ≤ 4 := Char.utf8Size_le_four c
    simp only [charsSize_cons]
    have hpos := Char.utf8Size_pos '\\'
    have hpos' := Char.utf8Size_pos 'u'
    have hpos'' := Char.utf8Size_pos '0'
    omega
  · exact Nat.le_of_eq (Nat.add_zero _).symm

/-- The text of a string is at least as long as the string. -/
theorem le_stringSize (s : String) : s.utf8ByteSize ≤ stringSize s := by
  have hchars : ∀ cs : List Char,
      charsSize cs ≤ (cs.map fun c => charsSize (escapeChar c)).sum := by
    intro cs
    induction cs with
    | nil => exact Nat.le_refl 0
    | cons c cs ih =>
      rw [charsSize_cons, List.map_cons, List.sum_cons]
      exact Nat.add_le_add (le_charsSize_escapeChar c) ih
  have hsize : s.utf8ByteSize = charsSize s.toList := by
    rw [← utf8ByteSize_ofList, String.ofList_toList]
  rw [hsize, stringSize]
  exact Nat.le_trans (hchars _) (Nat.le_add_left _ _)

/-! ## Records -/

theorem jsonSize_obj {members : List (String × Json)} (h : members ≠ []) :
    jsonSize (.obj members) = 1 + membersSize members := by
  rw [jsonSize, Nat.max_eq_right (membersSize_pos h)]

theorem jsonSize_arr {items : List Json} (h : items ≠ []) :
    jsonSize (.arr items) = 1 + itemsSize items := by
  rw [jsonSize, Nat.max_eq_right (itemsSize_pos h)]

theorem jsonSize_str (s : String) : jsonSize (.str s) = stringSize s := rfl

theorem membersSize_append (a b : List (String × Json)) :
    membersSize (a ++ b) = membersSize a + membersSize b := by
  induction a with
  | nil => exact (Nat.zero_add _).symm
  | cons m a ih =>
    obtain ⟨name, v⟩ := m
    rw [List.cons_append, membersSize, membersSize, ih, ← Nat.add_assoc]

theorem itemsSize_map {T : Type} (toJson : T → Json) (items : List T) :
    itemsSize (items.map toJson) = (items.map fun x => jsonSize (toJson x) + 1).sum := by
  induction items with
  | nil => rfl
  | cons x items ih => rw [List.map_cons, itemsSize, ih, List.map_cons, List.sum_cons]

theorem size_algorithm (a : Algorithm) : jsonSize a.toJson = 9 + stringSize a.aead := by
  have hname : stringSize "aead" = 6 := by decide
  rw [Algorithm.toJson, jsonSize_obj (List.cons_ne_nil _ _), membersSize, membersSize,
    jsonSize_str, hname]
  omega

theorem size_header (h : KvHeader) :
    jsonSize h.toJson = 52 + stringSize h.sid.text + stringSize h.alg.aead
      + stringSize h.createdAt + stringSize h.updatedAt := by
  have hsid : stringSize "sid" = 5 := by decide
  have halg : stringSize "alg" = 5 := by decide
  have hcreated : stringSize "created_at" = 12 := by decide
  have hupdated : stringSize "updated_at" = 12 := by decide
  rw [KvHeader.toJson, jsonSize_obj (List.cons_ne_nil _ _)]
  simp only [membersSize, jsonSize_str, size_algorithm, hsid, halg, hcreated, hupdated]
  omega

theorem size_wrapItem (w : WrapItem) :
    jsonSize w.toJson = 34 + stringSize w.recipientHandle + stringSize w.kid + stringSize w.alg
      + stringSize w.enc + stringSize w.ct := by
  have hrh : stringSize "rh" = 4 := by decide
  have hkid : stringSize "kid" = 5 := by decide
  have halg : stringSize "alg" = 5 := by decide
  have henc : stringSize "enc" = 5 := by decide
  have hct : stringSize "ct" = 4 := by decide
  rw [WrapItem.toJson, jsonSize_obj (List.cons_ne_nil _ _)]
  simp only [membersSize, jsonSize_str, hrh, hkid, halg, henc, hct]
  omega

theorem size_signature (s : ArtifactSignature) :
    jsonSize s.toJson = 43 + stringSize s.alg + stringSize s.kid + jsonSize s.signerPub.toJson
      + stringSize s.mac.wire + stringSize s.sig := by
  have halg : stringSize "alg" = 5 := by decide
  have hkid : stringSize "kid" = 5 := by decide
  have hsignerPub : stringSize "signer_pub" = 12 := by decide
  have hmac : stringSize "mac" = 5 := by decide
  have hsig : stringSize "sig" = 5 := by decide
  rw [ArtifactSignature.toJson, jsonSize_obj (List.cons_ne_nil _ _)]
  simp only [membersSize, jsonSize_str, halg, hkid, hsignerPub, hmac, hsig]
  omega

theorem size_entry (e : KvEntryValue) :
    jsonSize e.toJson = 16 + stringSize e.nonce + stringSize e.ct
      + if e.disclosed then 17 else 0 := by
  have hnonce : stringSize "nonce" = 7 := by decide
  have hct : stringSize "ct" = 4 := by decide
  have hdisclosed : stringSize "disclosed" = 11 := by decide
  obtain ⟨nonce, ct, disclosed⟩ := e
  rw [KvEntryValue.toJson, jsonSize_obj (List.cons_ne_nil _ _)]
  cases disclosed with
  | false => simp [membersSize, jsonSize_str, hnonce, hct]; omega
  | true => simp [membersSize, jsonSize, hnonce, hct, hdisclosed]; omega

end JsonSize
