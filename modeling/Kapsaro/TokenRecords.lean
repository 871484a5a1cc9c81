import Kapsaro.DocumentTokens

/-!
# Token records — which records a reader accepts

What a record needs so that its token, once written, is read back: distinct member names, safe
integers, bounded nesting, and the checks `format/wrap.rs` makes on wrap items.

* **`exists_encoding`** — a text of the `b64url` form is the encoding of some bytes.
* **`validateWrapItems_ok`** — the wrap check is: the count, distinct handles, and well-formed
  items, nothing more.
* **`Bounded`** — names, numbers and nesting of a JSON value, built up along its structure.
* **`encodable_…`** — HEAD, WRAP, entry and signature records that are well formed are read back
  from their tokens.
* **`elements_…`** — how many JSON elements each of them counts.
-/

namespace TokenRecords

open JsonText JsonMembers JsonRecords JsonLimits Limits TextLines Base64Codec WireTexts WireModel
open DocumentTokens

/-! ## Texts that are encodings -/

private theorem exists_symbol_below : ∀ n, n < 128 → isBase64urlChar (Char.ofNat n) = true →
    ∃ v, v < 64 ∧ Char.ofNat n = symbol v := by
  decide +kernel

/-- Every character of the alphabet is the symbol of a value. -/
theorem exists_symbol {c : Char} (h : isBase64urlChar c = true) : ∃ v, v < 64 ∧ c = symbol v := by
  have hsmall : c.toNat < 128 := by
    rw [isBase64urlChar, Bool.or_eq_true, Bool.or_eq_true, beq_iff_eq, beq_iff_eq,
      isAlphanum_iff_toNat] at h
    rcases h with (((h | h) | h) | rfl) | rfl
    · exact Nat.lt_of_le_of_lt h.2 (by decide)
    · exact Nat.lt_of_le_of_lt h.2 (by decide)
    · exact Nat.lt_of_le_of_lt h.2 (by decide)
    · decide
    · decide
  have hc : Char.ofNat c.toNat = c := Char.ofNat_toNat c
  obtain ⟨v, hv, heq⟩ := exists_symbol_below c.toNat hsmall (hc.symm ▸ h)
  exact ⟨v, hv, hc ▸ heq⟩

private theorem exists_oneByteTail {c : Char} (h : isOneByteTail c = true) :
    ∃ v, v < 4 ∧ c = symbol (v * 16) := by
  have hmem : c ∈ "AQgw".toList := by simpa [isOneByteTail] using h
  have htable : "AQgw".toList.all
      (fun d => (List.range 4).any fun v => d == symbol (v * 16)) = true := by decide +kernel
  obtain ⟨v, hv, heq⟩ := List.any_eq_true.mp (List.all_eq_true.mp htable c hmem)
  exact ⟨v, List.mem_range.mp hv, eq_of_beq heq⟩

private theorem exists_twoByteTail {c : Char} (h : isTwoByteTail c = true) :
    ∃ v, v < 16 ∧ c = symbol (v * 4) := by
  have hmem : c ∈ "AEIMQUYcgkosw048".toList := by simpa [isTwoByteTail] using h
  have htable : "AEIMQUYcgkosw048".toList.all
      (fun d => (List.range 16).any fun v => d == symbol (v * 4)) = true := by decide +kernel
  obtain ⟨v, hv, heq⟩ := List.any_eq_true.mp (List.all_eq_true.mp htable c hmem)
  exact ⟨v, List.mem_range.mp hv, eq_of_beq heq⟩

/-- Four symbols are the encoding of three bytes. -/
private theorem exists_block {a b c d : Char} (ha : isBase64urlChar a = true)
    (hb : isBase64urlChar b = true) (hc : isBase64urlChar c = true)
    (hd : isBase64urlChar d = true) :
    ∃ x y z : UInt8, ∀ rest, fillEncoded (x :: y :: z :: rest)
      = a :: b :: c :: d :: fillEncoded rest := by
  obtain ⟨p, hp, rfl⟩ := exists_symbol ha
  obtain ⟨q, hq, rfl⟩ := exists_symbol hb
  obtain ⟨r, hr, rfl⟩ := exists_symbol hc
  obtain ⟨s, hs, rfl⟩ := exists_symbol hd
  refine ⟨UInt8.ofNat (p * 4 + q / 16), UInt8.ofNat (q % 16 * 16 + r / 4),
    UInt8.ofNat (r % 4 * 64 + s), fun rest => ?_⟩
  have hx : (UInt8.ofNat (p * 4 + q / 16)).toNat = p * 4 + q / 16 := by
    rw [UInt8.toNat_ofNat']
    omega
  have hy : (UInt8.ofNat (q % 16 * 16 + r / 4)).toNat = q % 16 * 16 + r / 4 := by
    rw [UInt8.toNat_ofNat']
    omega
  have hz : (UInt8.ofNat (r % 4 * 64 + s)).toNat = r % 4 * 64 + s := by
    rw [UInt8.toNat_ofNat']
    omega
  rw [fillEncoded, hx, hy, hz]
  have h1 : (p * 4 + q / 16) / 4 = p := by omega
  have h2 : (p * 4 + q / 16) % 4 * 16 + (q % 16 * 16 + r / 4) / 16 = q := by omega
  have h3 : (q % 16 * 16 + r / 4) % 16 * 4 + (r % 4 * 64 + s) / 64 = r := by omega
  have h4 : (r % 4 * 64 + s) % 64 = s := by omega
  rw [h1, h2, h3, h4]

/-- **CANONICAL TEXTS ARE ENCODINGS**: a text of the `b64url` form is the encoding of bytes. -/
theorem exists_encoding_chars {cs : List Char} (h : isB64urlChars cs = true) :
    ∃ data : Bytes, fillEncoded data = cs := by
  induction cs using isB64urlChars.induct with
  | case1 a b =>
    obtain ⟨ha, hb⟩ := Bool.and_eq_true_iff.mp h
    obtain ⟨p, hp, rfl⟩ := exists_symbol ha
    obtain ⟨q, hq, rfl⟩ := exists_oneByteTail hb
    have hx : (UInt8.ofNat (p * 4 + q)).toNat = p * 4 + q := by
      rw [UInt8.toNat_ofNat']
      omega
    refine ⟨[UInt8.ofNat (p * 4 + q)], ?_⟩
    have h1 : (p * 4 + q) / 4 = p := by omega
    have h2 : (p * 4 + q) % 4 = q := by omega
    rw [fillEncoded, hx, h1, h2]
  | case2 a b c =>
    obtain ⟨hab, hc⟩ := Bool.and_eq_true_iff.mp h
    obtain ⟨ha, hb⟩ := Bool.and_eq_true_iff.mp hab
    obtain ⟨p, hp, rfl⟩ := exists_symbol ha
    obtain ⟨q, hq, rfl⟩ := exists_symbol hb
    obtain ⟨r, hr, rfl⟩ := exists_twoByteTail hc
    have hx : (UInt8.ofNat (p * 4 + q / 16)).toNat = p * 4 + q / 16 := by
      rw [UInt8.toNat_ofNat']
      omega
    have hy : (UInt8.ofNat (q % 16 * 16 + r)).toNat = q % 16 * 16 + r := by
      rw [UInt8.toNat_ofNat']
      omega
    refine ⟨[UInt8.ofNat (p * 4 + q / 16), UInt8.ofNat (q % 16 * 16 + r)], ?_⟩
    have h1 : (p * 4 + q / 16) / 4 = p := by omega
    have h2 : (p * 4 + q / 16) % 4 * 16 + (q % 16 * 16 + r) / 16 = q := by omega
    have h3 : (q % 16 * 16 + r) % 16 = r := by omega
    rw [fillEncoded, hx, hy, h1, h2, h3]
  | case3 a b c d =>
    rw [isB64urlChars, Bool.and_eq_true, Bool.and_eq_true, Bool.and_eq_true] at h
    obtain ⟨⟨⟨ha, hb⟩, hc⟩, hd⟩ := h
    obtain ⟨x, y, z, hblock⟩ := exists_block ha hb hc hd
    exact ⟨[x, y, z], hblock []⟩
  | case4 a b c d rest hne ih =>
    rw [isB64urlChars, Bool.and_eq_true, Bool.and_eq_true, Bool.and_eq_true,
      Bool.and_eq_true] at h
    · obtain ⟨⟨⟨⟨ha, hb⟩, hc⟩, hd⟩, hrest⟩ := h
      obtain ⟨x, y, z, hblock⟩ := exists_block ha hb hc hd
      obtain ⟨data, hdata⟩ := ih hrest
      exact ⟨x :: y :: z :: data, by rw [hblock, hdata]⟩
    · exact hne
  | case5 cs h1 h2 h3 h4 =>
    rw [isB64urlChars] at h
    · cases h
    all_goals assumption

theorem exists_encoding {s : String} (h : isB64urlText s = true) :
    ∃ data : Bytes, encodeBase64urlNopad data = s := by
  obtain ⟨data, hdata⟩ := exists_encoding_chars h
  refine ⟨data, ?_⟩
  rw [encodeBase64urlNopad, hdata, String.ofList_toList]

/-- A text of a fixed number of symbols decodes to the fixed number of bytes. -/
theorem decodeArray_of_sized {n : Nat} {s : String} (fieldName : String)
    (h : isB64urlSized (computeEncodedLen n) s = true) :
    ∃ data : Bytes, data.length = n ∧ encodeBase64urlNopad data = s
      ∧ decodeBase64urlNopadArray n s fieldName = .ok data := by
  obtain ⟨hlen, htext⟩ := Bool.and_eq_true_iff.mp h
  obtain ⟨data, rfl⟩ := exists_encoding htext
  have hsize : data.length = n := by
    have hsymbols := eq_of_beq hlen
    rw [encodeBase64urlNopad, String.toList_ofList, fillEncoded_length] at hsymbols
    unfold computeEncodedLen at hsymbols
    have hd : data.length % 3 = 0 ∨ data.length % 3 = 1 ∨ data.length % 3 = 2 := by omega
    have hn : n % 3 = 0 ∨ n % 3 = 1 ∨ n % 3 = 2 := by omega
    rcases hd with hd | hd | hd <;> rcases hn with hn | hn | hn <;> rw [hd, hn] at hsymbols <;>
      simp only at hsymbols <;> omega
  refine ⟨data, hsize, rfl, ?_⟩
  rw [← hsize]
  exact decodeBase64urlArray_encode data fieldName

/-! ## Wrap items that pass -/

/-- A well-formed wrap item passes the check the reader makes on top of the schema. -/
theorem validateWrapItem_of_wellFormed {item : WrapItem} (h : item.wellFormed = true) :
    validateWrapItem item = .ok () := by
  rw [WrapItem.wellFormed, Bool.and_eq_true, Bool.and_eq_true, Bool.and_eq_true,
    Bool.and_eq_true] at h
  obtain ⟨⟨⟨⟨hrh, hkid⟩, halg⟩, henc⟩, hct⟩ := h
  obtain ⟨enc, _, _, hdecEnc⟩ := decodeArray_of_sized (n := 32) "enc" henc
  obtain ⟨ct, _, _, hdecCt⟩ := decodeArray_of_sized (n := 48) "ct" hct
  refine bind_eq_ok.mpr ⟨_, MemberHandle.tryFrom_ok hrh, bind_eq_ok.mpr ⟨_,
    Kid.fromCanonical_ok hkid, ?_⟩⟩
  rw [if_neg (not_not_intro (eq_of_beq halg))]
  exact bind_eq_ok.mpr ⟨enc, hdecEnc, bind_eq_ok.mpr ⟨ct, hdecCt, rfl⟩⟩

private theorem validateWrapItemsFrom_ok {context : String} {seen : List String}
    {items : List WrapItem} :
    validateWrapItemsFrom context seen items = .ok ()
      ↔ (items.map WrapItem.recipientHandle).Nodup
        ∧ (∀ item ∈ items, item.recipientHandle ∉ seen)
        ∧ ∀ item ∈ items, validateWrapItem item = .ok () := by
  induction items generalizing seen with
  | nil =>
    exact ⟨fun _ => ⟨List.nodup_nil, fun i hi => absurd hi List.not_mem_nil,
      fun i hi => absurd hi List.not_mem_nil⟩, fun _ => rfl⟩
  | cons item items ih =>
    rw [validateWrapItemsFrom]
    by_cases hseen : item.recipientHandle ∈ seen
    · rw [if_pos hseen]
      exact ⟨nofun, fun h => absurd hseen (h.2.1 item List.mem_cons_self)⟩
    · rw [if_neg hseen]
      constructor
      · intro h
        obtain ⟨_, hitem, h⟩ := bind_eq_ok.mp h
        obtain ⟨hnodup, hfresh, hvalid⟩ := ih.mp h
        refine ⟨?_, ?_, ?_⟩
        · rw [List.map_cons, List.nodup_cons]
          refine ⟨fun hmem => ?_, hnodup⟩
          obtain ⟨k, hk, heq⟩ := List.mem_map.mp hmem
          exact hfresh k hk (heq ▸ List.mem_cons_self)
        · intro k hk
          rcases List.mem_cons.mp hk with rfl | hk
          · exact hseen
          · exact fun hm => hfresh k hk (List.mem_cons_of_mem _ hm)
        · intro k hk
          rcases List.mem_cons.mp hk with rfl | hk
          · exact hitem
          · exact hvalid k hk
      · rintro ⟨hnodup, hfresh, hvalid⟩
        rw [List.map_cons, List.nodup_cons] at hnodup
        refine bind_eq_ok.mpr ⟨(), hvalid item List.mem_cons_self, ih.mpr ⟨hnodup.2, ?_, ?_⟩⟩
        · intro k hk hm
          rcases List.mem_cons.mp hm with heq | hm
          · exact hnodup.1 (heq ▸ List.mem_map_of_mem hk)
          · exact hfresh k (List.mem_cons_of_mem _ hk) hm
        · exact fun k hk => hvalid k (List.mem_cons_of_mem _ hk)

/-- **THE WRAP CHECK**: at most 1000 items, distinct handles, and every item valid. -/
theorem validateWrapItems_ok {items : List WrapItem} {context : String} :
    validateWrapItems items context = .ok ()
      ↔ items.length ≤ maxWrapItems ∧ (items.map WrapItem.recipientHandle).Nodup
        ∧ ∀ item ∈ items, validateWrapItem item = .ok () := by
  constructor
  · intro h
    obtain ⟨_, hcount, h⟩ := bind_eq_ok.mp h
    obtain ⟨hnodup, _, hvalid⟩ := validateWrapItemsFrom_ok.mp h
    exact ⟨(validateWrapCount_ok _ _).mp hcount, hnodup, hvalid⟩
  · rintro ⟨hcount, hnodup, hvalid⟩
    exact bind_eq_ok.mpr ⟨(), (validateWrapCount_ok _ _).mpr hcount,
      validateWrapItemsFrom_ok.mpr ⟨hnodup, fun _ _ => List.not_mem_nil, hvalid⟩⟩

/-! ## Names, numbers and nesting -/

/-- Distinct member names, safe integers, and at most `depth` levels of nesting. -/
structure Bounded (depth : Nat) (v : Json) : Prop where
  names : uniqueNames v = true
  numbers : numbersWithin maxSafeInteger v = true
  nested : nesting v ≤ depth

theorem Bounded.str (depth : Nat) (s : String) : Bounded depth (.str s) :=
  ⟨rfl, rfl, Nat.zero_le _⟩

theorem Bounded.bool (depth : Nat) (b : Bool) : Bounded depth (.bool b) :=
  ⟨rfl, rfl, Nat.zero_le _⟩

theorem Bounded.nat {depth n : Nat} (h : n ≤ maxSafeInteger) : Bounded depth (.num (.ofNat n)) := by
  refine ⟨rfl, ?_, Nat.zero_le _⟩
  rw [numbersWithin]
  exact decide_eq_true h

/-- An array of bounded values. -/
theorem Bounded.arr {depth : Nat} {items : List Json} (h : ∀ v ∈ items, Bounded depth v) :
    Bounded (depth + 1) (.arr items) := by
  refine ⟨?_, ?_, ?_⟩
  · rw [uniqueNames, uniqueNamesItems_eq_all, List.all_eq_true]
    exact fun v hv => (h v hv).names
  · rw [numbersWithin, numbersWithinItems_eq_all, List.all_eq_true]
    exact fun v hv => (h v hv).numbers
  · have hitems : itemsNesting items ≤ depth :=
      (itemsNesting_le_iff items depth).mpr fun v hv => (h v hv).nested
    rw [nesting]
    omega

/-- An object of bounded values under distinct names. -/
theorem Bounded.obj {depth : Nat} {members : List (String × Json)}
    (hnames : (members.map Prod.fst).Nodup) (h : ∀ m ∈ members, Bounded depth m.2) :
    Bounded (depth + 1) (.obj members) := by
  refine ⟨?_, ?_, ?_⟩
  · rw [uniqueNames, uniqueNamesMembers_eq_all, Bool.and_eq_true, List.all_eq_true]
    exact ⟨decide_eq_true hnames, fun m hm => (h m hm).names⟩
  · rw [numbersWithin, numbersWithinMembers_eq_all, List.all_eq_true]
    exact fun m hm => (h m hm).numbers
  · have hmembers : membersNesting members ≤ depth :=
      (membersNesting_le_iff members depth).mpr fun m hm => (h m hm).nested
    rw [nesting]
    omega

theorem Bounded.mono {depth depth' : Nat} {v : Json} (h : Bounded depth v)
    (hle : depth ≤ depth') : Bounded depth' v :=
  ⟨h.names, h.numbers, Nat.le_trans h.nested hle⟩

theorem bounded_wrapItem (item : WrapItem) : Bounded 1 item.toJson := by
  refine Bounded.obj (show ["rh", "kid", "alg", "enc", "ct"].Nodup by decide) ?_
  intro m hm
  rw [List.mem_cons, List.mem_cons, List.mem_cons, List.mem_cons, List.mem_singleton] at hm
  rcases hm with rfl | rfl | rfl | rfl | rfl <;> exact Bounded.str 0 _

theorem bounded_removed (r : RemovedRecipient) : Bounded 1 r.toJson := by
  refine Bounded.obj (show ["rh", "kid", "removed_at"].Nodup by decide) ?_
  intro m hm
  rw [List.mem_cons, List.mem_cons, List.mem_singleton] at hm
  rcases hm with rfl | rfl | rfl <;> exact Bounded.str 0 _

theorem bounded_algorithm (a : Algorithm) : Bounded 1 a.toJson := by
  refine Bounded.obj (show ["aead"].Nodup by decide) ?_
  intro m hm
  rw [List.mem_singleton] at hm
  rw [hm]
  exact Bounded.str 0 _

theorem bounded_header (h : KvHeader) : Bounded 2 h.toJson := by
  refine Bounded.obj (show ["sid", "alg", "created_at", "updated_at"].Nodup by decide) ?_
  intro m hm
  rw [List.mem_cons, List.mem_cons, List.mem_cons, List.mem_singleton] at hm
  rcases hm with rfl | rfl | rfl | rfl
  · exact Bounded.str 1 _
  · exact bounded_algorithm h.alg
  · exact Bounded.str 1 _
  · exact Bounded.str 1 _

theorem bounded_wrap (w : KvWrap) : Bounded 3 w.toJson := by
  have hitems : Bounded 2 (.arr (w.wrap.map WrapItem.toJson)) := by
    refine Bounded.arr ?_
    intro v hv
    obtain ⟨item, _, rfl⟩ := List.mem_map.mp hv
    exact bounded_wrapItem item
  obtain ⟨wrap, removed⟩ := w
  cases removed with
  | none =>
    refine Bounded.obj (show ["wrap"].Nodup by decide) ?_
    intro m hm
    rw [List.mem_singleton] at hm
    rw [hm]
    exact hitems
  | some removed =>
    refine Bounded.obj (show ["wrap", "removed_recipients"].Nodup by decide) ?_
    intro m hm
    rw [List.mem_cons, List.mem_singleton] at hm
    rcases hm with rfl | rfl
    · exact hitems
    · refine Bounded.arr ?_
      intro v hv
      obtain ⟨r, _, rfl⟩ := List.mem_map.mp hv
      exact bounded_removed r

theorem bounded_entry (e : KvEntryValue) : Bounded 1 e.toJson := by
  obtain ⟨nonce, ct, disclosed⟩ := e
  cases disclosed with
  | false =>
    refine Bounded.obj (show ["nonce", "ct"].Nodup by decide) ?_
    intro m hm
    rw [if_neg Bool.false_ne_true, List.mem_cons, List.mem_singleton] at hm
    rcases hm with rfl | rfl <;> exact Bounded.str 0 _
  | true =>
    refine Bounded.obj (show ["nonce", "ct", "disclosed"].Nodup by decide) ?_
    intro m hm
    rw [if_pos rfl, List.mem_cons, List.mem_cons, List.mem_singleton] at hm
    rcases hm with rfl | rfl | rfl
    · exact Bounded.str 0 _
    · exact Bounded.str 0 _
    · exact Bounded.bool 0 _

theorem bounded_jwk (k : JwkOkpPublicKey) : Bounded 1 k.toJson := by
  refine Bounded.obj (show ["kty", "crv", "x"].Nodup by decide) ?_
  intro m hm
  rw [List.mem_cons, List.mem_cons, List.mem_singleton] at hm
  rcases hm with rfl | rfl | rfl <;> exact Bounded.str 0 _

theorem bounded_keys (k : IdentityKeys) : Bounded 2 k.toJson := by
  refine Bounded.obj (show ["kem", "sig"].Nodup by decide) ?_
  intro m hm
  rw [List.mem_cons, List.mem_singleton] at hm
  rcases hm with rfl | rfl
  · exact bounded_jwk k.kem
  · exact bounded_jwk k.sig

theorem bounded_attestation (a : Attestation) : Bounded 1 a.toJson := by
  refine Bounded.obj (show ["method", "pub", "sig"].Nodup by decide) ?_
  intro m hm
  rw [List.mem_cons, List.mem_cons, List.mem_singleton] at hm
  rcases hm with rfl | rfl | rfl <;> exact Bounded.str 0 _

theorem bounded_claims {b : BindingClaims} (h : b.wellFormed = true) : Bounded 2 b.toJson := by
  obtain ⟨account⟩ := b
  cases account with
  | none => exact Bounded.obj List.nodup_nil fun m hm => absurd hm List.not_mem_nil
  | some g =>
    obtain ⟨hid, _⟩ := Bool.and_eq_true_iff.mp h
    refine Bounded.obj (show ["github_account"].Nodup by decide) ?_
    intro m hm
    rw [List.mem_singleton] at hm
    rw [hm]
    refine Bounded.obj (show ["id", "login"].Nodup by decide) ?_
    intro m hm
    rw [List.mem_cons, List.mem_singleton] at hm
    rcases hm with rfl | rfl
    · exact Bounded.nat (of_decide_eq_true hid).2
    · exact Bounded.str 0 _

/-- A key statement: the claimed account id is the one number in it. -/
theorem bounded_publicKeyProtected {p : PublicKeyProtected} (h : p.wellFormed = true) :
    Bounded 3 p.toJson := by
  have hclaims : ∀ b, p.bindingClaims = some b → b.wellFormed = true := by
    intro b hb
    simp only [PublicKeyProtected.wellFormed, Bool.and_eq_true] at h
    rw [hb] at h
    exact h.1.1.1.2
  refine Bounded.obj ?_ ?_
  · rw [PublicKeyProtected.claimMembers, PublicKeyProtected.createdMembers]
    cases p.bindingClaims <;> cases p.createdAt <;> simp
  · intro m hm
    rw [List.mem_append, List.mem_append, List.mem_append] at hm
    rcases hm with ((hm | hm) | hm) | hm
    · rw [List.mem_cons, List.mem_cons, List.mem_cons, List.mem_singleton] at hm
      rcases hm with rfl | rfl | rfl | rfl
      · exact Bounded.str 2 _
      · exact Bounded.str 2 _
      · exact Bounded.str 2 _
      · exact bounded_keys p.keys
    · rw [PublicKeyProtected.claimMembers] at hm
      cases hb : p.bindingClaims with
      | none => rw [hb] at hm; exact absurd hm List.not_mem_nil
      | some b =>
        rw [hb, List.mem_singleton] at hm
        rw [hm]
        exact bounded_claims (hclaims b hb)
    · rw [List.mem_cons, List.mem_singleton] at hm
      rcases hm with rfl | rfl
      · exact (bounded_attestation p.attestation).mono (by decide)
      · exact Bounded.str 2 _
    · rw [PublicKeyProtected.createdMembers] at hm
      cases hc : p.createdAt with
      | none => rw [hc] at hm; exact absurd hm List.not_mem_nil
      | some created =>
        rw [hc, List.mem_singleton] at hm
        rw [hm]
        exact Bounded.str 2 _

theorem bounded_publicKey {k : PublicKey} (h : k.wellFormed = true) : Bounded 4 k.toJson := by
  obtain ⟨hprotected, _⟩ := Bool.and_eq_true_iff.mp h
  refine Bounded.obj (show ["protected", "signature"].Nodup by decide) ?_
  intro m hm
  rw [List.mem_cons, List.mem_singleton] at hm
  rcases hm with rfl | rfl
  · exact bounded_publicKeyProtected hprotected
  · exact Bounded.str 3 _

theorem bounded_signature {s : ArtifactSignature} (h : s.signerPub.wellFormed = true) :
    Bounded 5 s.toJson := by
  refine Bounded.obj (show ["alg", "kid", "signer_pub", "mac", "sig"].Nodup by decide) ?_
  intro m hm
  rw [List.mem_cons, List.mem_cons, List.mem_cons, List.mem_cons, List.mem_singleton] at hm
  rcases hm with rfl | rfl | rfl | rfl | rfl
  · exact Bounded.str 4 _
  · exact Bounded.str 4 _
  · exact bounded_publicKey h
  · exact Bounded.str 4 _
  · exact Bounded.str 4 _

/-! ## Records that are read back -/

private theorem encodable_of_bounded {T : Type} {schema : Schema} {write : T → Json}
    {read : Json → Option T} {x : T} {depth : Nat} (hreads : Reads write read x)
    (hconforms : conforms schema (write x) = true) (h : Bounded depth (write x))
    (hdepth : depth ≤ maxJsonDepth) : Encodable schema write read x where
  reads := hreads
  conforms := hconforms
  names := h.names
  numbers := h.numbers
  depth := Nat.le_trans h.nested hdepth

theorem encodable_header {h : KvHeader} (hwell : h.wellFormed = true) :
    Encodable KvHeader.schema KvHeader.toJson KvHeader.fromJson h :=
  encodable_of_bounded (KvHeader.reads h) (by rw [KvHeader.conforms_toJson, hwell])
    (bounded_header h) (by decide)

theorem encodable_wrap {w : KvWrap} (hwell : w.wellFormed = true) :
    Encodable KvWrap.schema KvWrap.toJson KvWrap.fromJson w :=
  encodable_of_bounded (KvWrap.reads w) (by rw [KvWrap.conforms_toJson, hwell])
    (bounded_wrap w) (by decide)

theorem encodable_entry {e : KvEntryValue} (hwell : e.wellFormed = true) :
    Encodable KvEntryValue.schema KvEntryValue.toJson KvEntryValue.fromJson e :=
  encodable_of_bounded (KvEntryValue.reads e) (by rw [KvEntryValue.conforms_toJson, hwell])
    (bounded_entry e) (by decide)

theorem encodable_signature {s : ArtifactSignature} (hwell : s.wellFormed = true)
    (hmac : KeyPossessionProof.parse s.mac.wire = some s.mac) :
    Encodable ArtifactSignature.schema ArtifactSignature.toJson ArtifactSignature.fromJson s := by
  have hpub : s.signerPub.wellFormed = true := by
    simp only [ArtifactSignature.wellFormed, Bool.and_eq_true] at hwell
    exact hwell.1.1.2
  exact encodable_of_bounded (ArtifactSignature.reads s hmac)
    (by rw [ArtifactSignature.conforms_toJson, hwell]) (bounded_signature hpub) (by decide)

/-! ## Element counts -/

theorem elements_header (h : KvHeader) : elementCount h.toJson = 10 := rfl

theorem elements_entry (e : KvEntryValue) : elementCount e.toJson ≤ 6 := by
  obtain ⟨nonce, ct, disclosed⟩ := e
  cases disclosed with
  | false => exact (by decide : 4 ≤ 6)
  | true => exact Nat.le_refl 6

private theorem itemsElementCount_map {T : Type} {write : T → Json} {n : Nat}
    (h : ∀ x, elementCount (write x) = n) (xs : List T) :
    itemsElementCount (xs.map write) = (n + 1) * xs.length := by
  induction xs with
  | nil => rfl
  | cons x xs ih =>
    rw [List.map_cons, itemsElementCount, ih, h, List.length_cons, Nat.mul_succ]
    omega

/-- A wrap item counts eleven elements, a disclosure record seven, with the commas between
    them. -/
theorem elements_wrap (w : KvWrap) (hne : w.wrap ≠ []) :
    elementCount w.toJson = 2 + jsonElementsPerWrapItem * w.wrap.length
      + (match w.removedRecipients with
        | none => 0
        | some removed => 2 + max 1 (7 * removed.length)) := by
  have hpos : 1 ≤ w.wrap.length := List.length_pos_iff.mpr hne
  have hwrap : elementCount (.arr (w.wrap.map WrapItem.toJson)) = 11 * w.wrap.length := by
    rw [elementCount_arr, itemsElementCount_map fun x => show elementCount (WrapItem.toJson x)
      = 10 from rfl]
    omega
  obtain ⟨wrap, removed⟩ := w
  cases removed with
  | none =>
    rw [KvWrap.toJson, elementCount, hwrap, membersElementCount, jsonElementsPerWrapItem]
  | some removed =>
    have hremoved : elementCount (.arr (removed.map RemovedRecipient.toJson))
        = max 1 (7 * removed.length) := by
      rw [elementCount_arr,
        itemsElementCount_map fun x => show elementCount (RemovedRecipient.toJson x) = 6 from rfl]
    rw [KvWrap.toJson, elementCount, hwrap, membersElementCount, hremoved, membersElementCount,
      jsonElementsPerWrapItem]
    show 2 + 11 * wrap.length + (2 + max 1 (7 * removed.length) + 0)
      = 2 + 11 * wrap.length + (2 + max 1 (7 * removed.length))
    omega

theorem elements_publicKeyProtected (p : PublicKeyProtected) :
    elementCount p.toJson ≤ 48 := by
  have hclaims : ∀ b : BindingClaims, elementCount b.toJson ≤ 6 := by
    rintro ⟨account⟩
    cases account with
    | none => decide
    | some g => exact Nat.le_of_eq rfl
  rw [PublicKeyProtected.toJson, elementCount_obj, PublicKeyProtected.claimMembers,
    PublicKeyProtected.createdMembers]
  cases p.createdAt with
  | none =>
    cases hb : p.bindingClaims with
    | none =>
      exact (by decide : max 1 (2 + 0 + (2 + 0 + (2 + 0 + (2 + 16 + (2 + 6 + (2 + 0 + 0))))))
        ≤ 48)
    | some b =>
      have := hclaims b
      show max 1 (2 + 0 + (2 + 0 + (2 + 0 + (2 + 16 + (2 + elementCount b.toJson
        + (2 + 6 + (2 + 0 + 0))))))) ≤ 48
      omega
  | some created =>
    cases hb : p.bindingClaims with
    | none =>
      exact (by decide : max 1 (2 + 0 + (2 + 0 + (2 + 0 + (2 + 16 + (2 + 6 + (2 + 0
        + (2 + 0 + 0))))))) ≤ 48)
    | some b =>
      have := hclaims b
      show max 1 (2 + 0 + (2 + 0 + (2 + 0 + (2 + 16 + (2 + elementCount b.toJson
        + (2 + 6 + (2 + 0 + (2 + 0 + 0)))))))) ≤ 48
      omega

/-- A signature token stays far below the element limit. -/
theorem elements_signature (s : ArtifactSignature) : elementCount s.toJson ≤ 64 := by
  have hpub : elementCount s.signerPub.toJson
      = 2 + elementCount s.signerPub.protect.toJson + 2 := rfl
  have hprotected := elements_publicKeyProtected s.signerPub.protect
  have hsig : elementCount s.toJson = 2 + 0 + (2 + 0 + (2 + elementCount s.signerPub.toJson
      + (2 + 0 + (2 + 0 + 0)))) := rfl
  omega

end TokenRecords
