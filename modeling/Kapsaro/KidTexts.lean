import Kapsaro.JsonSize
import Kapsaro.TrustStore

/-!
# Kid texts — what a user types, what a user sees, and what a digest spells

`support/kid.rs` and `format/kid.rs`: a kid is stored as 32 Crockford Base32 characters, shown in
dashed groups of four, and asked for by any spelling of a prefix.

* **`normalizeKidQuery_ok`** — what a query comes to: hyphens dropped, letters in upper case.
* **`formatKidDisplayOf`**, **`formatKidHalfDisplay`** — the dashed forms;
  **`normalizeKid_display`**: normalization undoes the display.
* **`resolveUniqueKid_ok`** — a query names the one kid it is a prefix of.
* **`encodeCrockfordBase32_injective`** — the 32 characters tell the 160 bits.
* **`kidLaws`** — together.
-/

namespace KidTexts

open JsonText Limits TextLines Base64Codec WireTexts WireModel DocumentTokens Envelope
open SignedArtifacts JsonSize TrustStore

/-! ## Characters -/

/-- The characters of a query that count: hyphens dropped, ASCII letters in upper case. -/
def canonicalChars (input : String) : List Char :=
  (input.toList.filter (· ≠ '-')).map Char.toUpper

/-- Crockford characters are no hyphens, and upper case already. -/
theorem crockford_plain {c : Char} (h : isCrockfordChar c = true) :
    c ≠ '-' ∧ c.toUpper = c := by
  have hrange := toNat_of_crockford h
  constructor
  · rintro rfl
    revert hrange
    decide
  · have hlower : ¬ (c.val ≥ 'a'.val ∧ c.val ≤ 'z'.val) := by
      rintro ⟨hge, _⟩
      have hge : 97 ≤ c.toNat := UInt32.le_iff_toNat_le.mp hge
      omega
    exact dif_neg hlower

/-- Canonical characters are read as they are. -/
theorem canonicalChars_plain {cs : List Char} (h : ∀ c ∈ cs, isCrockfordChar c = true) :
    (cs.filter (· ≠ '-')).map Char.toUpper = cs := by
  have hfilter : cs.filter (· ≠ '-') = cs :=
    List.filter_eq_self.mpr fun c hc => decide_eq_true (crockford_plain (h c hc)).1
  rw [hfilter]
  exact (List.map_congr_left fun c hc => (crockford_plain (h c hc)).2).trans (List.map_id cs)

/-- They take one byte each. -/
theorem charsSize_crockford {cs : List Char} (h : ∀ c ∈ cs, isCrockfordChar c = true) :
    charsSize cs = cs.length := by
  induction cs with
  | nil => rfl
  | cons c cs ih =>
    have hrange := toNat_of_crockford (h c List.mem_cons_self)
    have hone : c.utf8Size = 1 := by
      rw [Char.utf8Size, if_pos]
      have hvalue : c.toNat = c.val.toNat := rfl
      exact UInt32.le_iff_toNat_le.mpr (by
        show c.val.toNat ≤ 127
        omega)
    rw [charsSize_cons, hone, ih fun d hd => h d (List.mem_cons_of_mem _ hd), List.length_cons,
      Nat.add_comm]

/-- A canonical kid: its characters. -/
theorem isKidText_iff {s : String} :
    isKidText s = true ↔ s.toList.length = 32 ∧ ∀ c ∈ s.toList, isCrockfordChar c = true := by
  rw [isKidText, Bool.and_eq_true, beq_iff_eq, List.all_eq_true]

/-! ## Normalization -/

/-- **WHAT A QUERY COMES TO**: between 1 and 32 Crockford characters, or it is refused. -/
theorem normalizeKidQuery_ok {input query : String} :
    normalizeKidQuery input = .ok query
      ↔ query.toList = canonicalChars input ∧ query.toList ≠ [] ∧ query.toList.length ≤ 32
        ∧ ∀ c ∈ query.toList, isCrockfordChar c = true := by
  have hchars : ∀ {cs : List Char}, String.ofList cs = query ↔ query.toList = cs := fun {cs} =>
    ⟨fun h => by rw [← h, String.toList_ofList], fun h => by rw [← h, String.ofList_toList]⟩
  have hempty : ∀ cs : List Char, cs.length = 0 ↔ cs = [] := fun cs => List.length_eq_zero_iff
  rw [normalizeKidQuery, ← canonicalChars]
  dsimp only
  rw [throwIf_ok, throwIf_ok, utf8ByteSize_ofList, String.toList_ofList]
  constructor
  · rintro ⟨hsize, hall, hquery⟩
    obtain hquery := hchars.mp (Except.ok.inj hquery)
    have hcrockford : ∀ c ∈ canonicalChars input, isCrockfordChar c = true := by
      simpa using hall
    rw [charsSize_crockford hcrockford] at hsize
    rw [hquery]
    exact ⟨rfl, fun hnil => hsize (Or.inl ((hempty _).mpr hnil)), by omega, hcrockford⟩
  · rintro ⟨hquery, hne, hlen, hcrockford⟩
    rw [hquery] at hne hlen hcrockford
    rw [charsSize_crockford hcrockford]
    refine ⟨?_, by simpa using hcrockford, congrArg Except.ok (hchars.mpr hquery)⟩
    rintro (hzero | hlong)
    · exact hne ((hempty _).mp hzero)
    · omega

/-- The whole kid is normalized to what it spells, when that is 32 characters. -/
theorem normalizeKid_ok {input kid : String} :
    normalizeKid input = .ok kid ↔ kid.toList = canonicalChars input ∧ isKidText kid = true := by
  rw [normalizeKid, bind_eq_ok, isKidText_iff]
  constructor
  · rintro ⟨canonical, hquery, h⟩
    obtain ⟨hchars, _, _, hcrockford⟩ := normalizeKidQuery_ok.mp hquery
    obtain ⟨hsize, h⟩ := throwIf_ok.mp h
    obtain rfl := Except.ok.inj h
    have hlen : canonical.utf8ByteSize = canonical.toList.length := by
      rw [← charsSize_crockford hcrockford, ← utf8ByteSize_ofList, String.ofList_toList]
    exact ⟨hchars, by omega, hcrockford⟩
  · rintro ⟨hchars, hlen, hcrockford⟩
    have hne : kid.toList ≠ [] := fun hnil => by
      rw [hnil] at hlen
      cases hlen
    have hsize : kid.utf8ByteSize = kid.toList.length := by
      rw [← charsSize_crockford hcrockford, ← utf8ByteSize_ofList, String.ofList_toList]
    refine ⟨kid, normalizeKidQuery_ok.mpr ⟨hchars, hne, by omega, hcrockford⟩, ?_⟩
    exact throwIf_ok.mpr ⟨by omega, rfl⟩

/-- A canonical kid is normalized to itself. -/
theorem normalizeKid_canonical {kid : String} (h : isKidText kid = true) :
    normalizeKid kid = .ok kid := by
  refine normalizeKid_ok.mpr ⟨?_, h⟩
  exact (canonicalChars_plain (isKidText_iff.mp h).2).symm

/-! ## Display -/

/-- The dashed form of a text: its groups of four, a hyphen before each but the first. -/
def dashed (cs : List Char) : String :=
  String.ofList (List.intercalate ['-'] (groupsOfFour cs))

/-- `format_kid_display`: the dashed form of whatever normalizes to a kid. -/
def formatKidDisplayOf (canonicalKid : String) : Except Error String := do
  let canonical ← normalizeKid canonicalKid
  pure (dashed canonical.toList)

/-- `format_kid_half_display`: the first half of it. -/
def formatKidHalfDisplay (canonicalKid : String) : Except Error String := do
  let canonical ← normalizeKid canonicalKid
  pure (dashed (canonical.toList.take 16))

/-- The groups together are the text. -/
theorem flatten_groupsOfFour (cs : List Char) : (groupsOfFour cs).flatten = cs := by
  induction cs using groupsOfFour.induct with
  | case1 a b c d rest ih =>
    rw [groupsOfFour, List.flatten_cons, ih]
    rfl
  | case2 => rfl
  | case3 rest hshort hne =>
    rw [groupsOfFour.eq_3 rest hshort hne, List.flatten_singleton]

/-- Dropping the hyphens of the dashed form gives the text back, when it has none of its own. -/
theorem canonicalChars_dashed {cs : List Char} (h : ∀ c ∈ cs, isCrockfordChar c = true) :
    canonicalChars (dashed cs) = cs := by
  have hjoin : ∀ groups : List (List Char), (∀ c ∈ groups.flatten, isCrockfordChar c = true) →
      ((List.intercalate ['-'] groups).filter (· ≠ '-')).map Char.toUpper = groups.flatten := by
    intro groups hgroups
    induction groups with
    | nil => rfl
    | cons group groups ih =>
      rw [List.flatten_cons] at hgroups ⊢
      have hfirst := canonicalChars_plain fun c hc => hgroups c (List.mem_append_left _ hc)
      cases groups with
      | nil =>
        rw [List.intercalate_singleton, hfirst]
        exact (List.append_nil _).symm
      | cons next groups =>
        have hrest := ih fun c hc => hgroups c (List.mem_append_right _ hc)
        rw [List.intercalate_cons_cons, List.append_assoc, List.filter_append, List.map_append,
          hfirst, List.filter_append, List.map_append, hrest]
        rfl
  rw [canonicalChars, dashed, String.toList_ofList, hjoin _ (by rwa [flatten_groupsOfFour]),
    flatten_groupsOfFour]

/-- A canonical kid is displayed as the rest of the model displays it. -/
theorem formatKidDisplayOf_kid (kid : Kid) :
    formatKidDisplayOf kid.text = .ok (formatKidDisplay kid) :=
  bind_eq_ok.mpr ⟨kid.text, normalizeKid_canonical kid.valid, rfl⟩

/-- **NORMALIZATION UNDOES THE DISPLAY.** -/
theorem normalizeKid_display (kid : Kid) :
    ∃ shown, formatKidDisplayOf kid.text = .ok shown ∧ normalizeKid shown = .ok kid.text := by
  refine ⟨_, formatKidDisplayOf_kid kid, normalizeKid_ok.mpr ⟨?_, kid.valid⟩⟩
  exact (canonicalChars_dashed (isKidText_iff.mp kid.valid).2).symm

/-- The half display asks for the first sixteen characters. -/
theorem normalizeKidQuery_halfDisplay (kid : Kid) :
    ∃ shown, formatKidHalfDisplay kid.text = .ok shown
      ∧ normalizeKidQuery shown = .ok (String.ofList (kid.text.toList.take 16)) := by
  obtain ⟨hlen, hcrockford⟩ := isKidText_iff.mp kid.valid
  have hhalf : ∀ c ∈ kid.text.toList.take 16, isCrockfordChar c = true :=
    fun c hc => hcrockford c (List.mem_of_mem_take hc)
  have hlength : (kid.text.toList.take 16).length = 16 := by
    rw [List.length_take, hlen]
    rfl
  refine ⟨_, bind_eq_ok.mpr ⟨kid.text, normalizeKid_canonical kid.valid, rfl⟩, ?_⟩
  rw [normalizeKidQuery_ok, String.toList_ofList]
  refine ⟨(canonicalChars_dashed hhalf).symm, fun hnil => ?_, by omega, hhalf⟩
  rw [hnil] at hlength
  cases hlength

/-! ## Resolution -/

/-- A query names a kid of a list: the kid starts with it, and no other one does. -/
def Names (query : String) (kids : List Kid) (kid : String) : Prop :=
  (∃ k ∈ kids, k.text = kid) ∧ query.toList <+: kid.toList
    ∧ ∀ other ∈ kids, query.toList <+: other.text.toList → other.text = kid

/-- Candidates that are canonical stay as they are. -/
theorem mapM_normalizeKid (kids : List Kid) :
    (kids.map Kid.text).mapM normalizeKid = .ok (kids.map Kid.text) := by
  induction kids with
  | nil => rfl
  | cons kid kids ih =>
    rw [List.map_cons, List.mapM_cons, normalizeKid_canonical kid.valid]
    exact bind_eq_ok.mpr ⟨_, rfl, bind_eq_ok.mpr ⟨_, ih, rfl⟩⟩

/-- The candidates a normalized query is a prefix of. -/
def matchesOf (normalized : String) (kids : List String) : List String :=
  kids.filter fun kid => normalized.toList.isPrefixOf kid.toList

/-- The resolution of a query is its one match. -/
theorem resolveUniqueKid_normalized {kids : List Kid} {query normalized kid : String}
    (hquery : normalizeKidQuery query = .ok normalized) :
    resolveUniqueKid (kids.map Kid.text) query = .ok kid
      ↔ matchesOf normalized (kids.map Kid.text) = [kid] := by
  rw [resolveUniqueKid, hquery, mapM_normalizeKid]
  simp only [bind, Except.bind, matchesOf]
  cases (kids.map Kid.text).filter fun kid => normalized.toList.isPrefixOf kid.toList with
  | nil => exact iff_of_false (fun h => by cases h) (fun h => by cases h)
  | cons first rest =>
    cases rest with
    | nil =>
      show Except.ok first = Except.ok kid ↔ [first] = [kid]
      rw [Except.ok.injEq, List.cons.injEq, and_iff_left rfl]
    | cons second rest =>
      refine iff_of_false (fun h => by cases h) fun h => ?_
      cases (List.cons.inj h).2

/-- A query that cannot be normalized is refused with that error. -/
theorem resolveUniqueKid_badQuery (kids : List Kid) {query : String} {e : Error}
    (hquery : normalizeKidQuery query = .error e) :
    resolveUniqueKid (kids.map Kid.text) query = .error e := by
  rw [resolveUniqueKid, hquery]
  rfl

/-- In a list without duplicates, one kid is the only match exactly when the query names it. -/
theorem matchesOf_eq_singleton {kids : List Kid} (h : kids.Nodup) {normalized kid : String} :
    matchesOf normalized (kids.map Kid.text) = [kid] ↔ Names normalized kids kid := by
  have htexts : (kids.map Kid.text).Nodup := by
    refine h.map fun a b heq => ?_
    obtain ⟨text, valid⟩ := a
    obtain ⟨text', valid'⟩ := b
    obtain rfl : text = text' := heq
    rfl
  have hmem : ∀ {text}, text ∈ matchesOf normalized (kids.map Kid.text)
      ↔ (∃ k ∈ kids, k.text = text) ∧ normalized.toList <+: text.toList := by
    intro text
    rw [matchesOf, List.mem_filter, List.mem_map, List.isPrefixOf_iff_prefix]
  constructor
  · intro hone
    have hkid : kid ∈ matchesOf normalized (kids.map Kid.text) := by
      rw [hone]
      exact List.mem_singleton_self kid
    obtain ⟨hin, hprefix⟩ := hmem.mp hkid
    refine ⟨hin, hprefix, fun other hother hstarts => ?_⟩
    have hmatch := hmem.mpr ⟨⟨other, hother, rfl⟩, hstarts⟩
    rw [hone] at hmatch
    exact List.mem_singleton.mp hmatch
  · rintro ⟨hin, hprefix, honly⟩
    refine List.perm_singleton.mp ?_
    refine (List.perm_ext_iff_of_nodup (htexts.filter _) (List.nodup_singleton kid)).mpr ?_
    intro text
    rw [List.mem_singleton]
    refine hmem.trans ⟨?_, fun heq => heq ▸ ⟨hin, hprefix⟩⟩
    rintro ⟨⟨other, hother, rfl⟩, hstarts⟩
    exact honly other hother hstarts

/-- **A QUERY FINDS EXACTLY THE KID IT NAMES**, in any list of distinct kids. -/
theorem resolveUniqueKid_ok {kids : List Kid} (h : kids.Nodup) {query kid : String} :
    resolveUniqueKid (kids.map Kid.text) query = .ok kid
      ↔ ∃ normalized, normalizeKidQuery query = .ok normalized ∧ Names normalized kids kid := by
  constructor
  · intro hok
    cases hquery : normalizeKidQuery query with
    | error e =>
      rw [resolveUniqueKid_badQuery kids hquery] at hok
      cases hok
    | ok normalized =>
      refine ⟨normalized, rfl, (matchesOf_eq_singleton h).mp ?_⟩
      exact (resolveUniqueKid_normalized hquery).mp hok
  · rintro ⟨normalized, hquery, hnames⟩
    exact (resolveUniqueKid_normalized hquery).mpr ((matchesOf_eq_singleton h).mpr hnames)

/-! ## Derived kids -/

theorem bitOf_lt (bytes : Bytes) (index : Nat) : bitOf bytes index < 2 :=
  Nat.mod_lt _ (by decide)

/-- The value of a symbol: five bits. -/
def groupValue (bytes : Bytes) (group : Nat) : Nat :=
  (List.range 5).foldl (fun v offset => v * 2 + bitOf bytes (group * 5 + offset)) 0

/-- The five bits, written out. -/
theorem groupValue_eq (bytes : Bytes) (group : Nat) :
    groupValue bytes group = bitOf bytes (group * 5) * 16 + bitOf bytes (group * 5 + 1) * 8
      + bitOf bytes (group * 5 + 2) * 4 + bitOf bytes (group * 5 + 3) * 2
      + bitOf bytes (group * 5 + 4) := by
  have hunfold : groupValue bytes group = ((((0 * 2 + bitOf bytes (group * 5 + 0)) * 2
      + bitOf bytes (group * 5 + 1)) * 2 + bitOf bytes (group * 5 + 2)) * 2
      + bitOf bytes (group * 5 + 3)) * 2 + bitOf bytes (group * 5 + 4) := rfl
  rw [hunfold, Nat.add_zero]
  omega

theorem groupValue_lt (bytes : Bytes) (group : Nat) : groupValue bytes group < 32 := by
  have h0 := bitOf_lt bytes (group * 5)
  have h1 := bitOf_lt bytes (group * 5 + 1)
  have h2 := bitOf_lt bytes (group * 5 + 2)
  have h3 := bitOf_lt bytes (group * 5 + 3)
  have h4 := bitOf_lt bytes (group * 5 + 4)
  rw [groupValue_eq]
  omega

/-- Each bit is read off the value. -/
theorem bit_of_groupValue (bytes : Bytes) (group : Nat) {offset : Nat} (h : offset < 5) :
    bitOf bytes (group * 5 + offset) = groupValue bytes group / 2 ^ (4 - offset) % 2 := by
  have h0 := bitOf_lt bytes (group * 5)
  have h1 := bitOf_lt bytes (group * 5 + 1)
  have h2 := bitOf_lt bytes (group * 5 + 2)
  have h3 := bitOf_lt bytes (group * 5 + 3)
  have h4 := bitOf_lt bytes (group * 5 + 4)
  rw [groupValue_eq]
  match offset, h with
  | 0, _ =>
    show bitOf bytes (group * 5) = _ / 16 % 2
    omega
  | 1, _ =>
    show _ = _ / 8 % 2
    omega
  | 2, _ =>
    show _ = _ / 4 % 2
    omega
  | 3, _ =>
    show _ = _ / 2 % 2
    omega
  | 4, _ =>
    show _ = _ / 1 % 2
    omega

/-- Equal symbols stand for equal bits. -/
theorem bits_of_symbol {a b : Bytes} {group : Nat}
    (h : crockfordSymbol a group = crockfordSymbol b group) {offset : Nat} (hoffset : offset < 5) :
    bitOf a (group * 5 + offset) = bitOf b (group * 5 + offset) := by
  have hinjective : ∀ v < 32, ∀ w < 32,
      crockfordAlphabet.getD v '0' = crockfordAlphabet.getD w '0' → v = w := by decide +kernel
  have hvalue : groupValue a group = groupValue b group :=
    hinjective _ (groupValue_lt a group) _ (groupValue_lt b group) h
  rw [bit_of_groupValue a group hoffset, bit_of_groupValue b group hoffset, hvalue]

/-- The eight bits of a byte make it up. -/
theorem byte_eq_of_bits {a b : Bytes} {j : Nat}
    (h : ∀ k < 8, bitOf a (j * 8 + k) = bitOf b (j * 8 + k)) : a.getD j 0 = b.getD j 0 := by
  have hbit : ∀ bytes : Bytes, ∀ k < 8,
      bitOf bytes (j * 8 + k) = (bytes.getD j 0).toNat / 2 ^ (7 - k) % 2 := by
    intro bytes k hk
    rw [bitOf, show (j * 8 + k) / 8 = j from by omega, show (j * 8 + k) % 8 = k from by omega]
  have hsame : ∀ k < 8,
      (a.getD j 0).toNat / 2 ^ (7 - k) % 2 = (b.getD j 0).toNat / 2 ^ (7 - k) % 2 := by
    intro k hk
    rw [← hbit a k hk, ← hbit b k hk, h k hk]
  have hsmall : ∀ (x : UInt8) {i : Nat}, 8 ≤ i → x.toNat.testBit i = false := fun x i hi =>
    Nat.testBit_lt_two_pow (Nat.lt_of_lt_of_le x.toNat_lt (Nat.pow_le_pow_right (by decide) hi))
  refine UInt8.toNat_inj.mp (Nat.eq_of_testBit_eq fun i => ?_)
  by_cases hi : i < 8
  · have hbits := hsame (7 - i) (by omega)
    rw [show 7 - (7 - i) = i from by omega] at hbits
    rw [Nat.testBit_eq_decide_div_mod_eq, Nat.testBit_eq_decide_div_mod_eq, hbits]
  · rw [hsmall _ (Nat.le_of_not_lt hi), hsmall _ (Nat.le_of_not_lt hi)]

/-- **THE SYMBOLS TELL THE BYTES**, when their bits come out even. -/
theorem encodeCrockfordBase32_injective {a b : Bytes} (hlen : a.length = b.length)
    (heven : a.length * 8 % 5 = 0) (h : encodeCrockfordBase32 a = encodeCrockfordBase32 b) :
    a = b := by
  have hsymbols : ∀ group < a.length * 8 / 5, crockfordSymbol a group
      = crockfordSymbol b group := by
    have hlists := congrArg String.toList h
    rw [encodeCrockfordBase32, encodeCrockfordBase32, String.toList_ofList, String.toList_ofList,
      ← hlen] at hlists
    intro group hgroup
    exact List.map_inj_left.mp hlists group (List.mem_range.mpr hgroup)
  refine List.ext_getElem hlen fun j hj hj' => ?_
  have hbyte : a.getD j 0 = b.getD j 0 := byte_eq_of_bits fun k hk => by
    -- bit `8 j + k` is in group `(8 j + k) / 5`
    have hbit := @bits_of_symbol a b ((j * 8 + k) / 5) (hsymbols _ (by omega)) ((j * 8 + k) % 5)
      (Nat.mod_lt _ (by decide))
    have hindex : (j * 8 + k) / 5 * 5 + (j * 8 + k) % 5 = j * 8 + k := by omega
    rw [hindex] at hbit
    exact hbit
  rw [List.getD_eq_getElem?_getD, List.getD_eq_getElem?_getD, List.getElem?_eq_getElem hj,
    List.getElem?_eq_getElem hj'] at hbyte
  exact hbyte

/-- **TWENTY BYTES SPELL A KID.** -/
theorem isKidText_encode (digest : FixedBytes 20) :
    isKidText (encodeCrockfordBase32 digest.bytes) = true := by
  have hsymbol : ∀ v < 32, isCrockfordChar (crockfordAlphabet.getD v '0') = true := by
    decide +kernel
  rw [isKidText_iff, encodeCrockfordBase32, String.toList_ofList, List.length_map,
    List.length_range, digest.size]
  refine ⟨rfl, fun c hc => ?_⟩
  obtain ⟨group, _, rfl⟩ := List.mem_map.mp hc
  exact hsymbol _ (groupValue_lt digest.bytes group)

/-- So does a key statement, whatever it says. -/
theorem isKidText_derived {C : Crypto} {statement : Json} {kid : String}
    (h : derivePublicKeyKid C statement = .ok kid) : isKidText kid = true := by
  obtain ⟨bytes, _, h⟩ := bind_eq_ok.mp h
  rw [← Except.ok.inj h]
  have hsize : ((C.sha256 bytes).bytes.take 20).length = 20 := by
    rw [List.length_take, FixedBytes.size]
    rfl
  exact isKidText_encode ⟨_, hsize⟩

/-! ## The laws of kids -/

/-- What holds of kids, and of the queries for one in a list of them. -/
structure KidLaws (kids : List Kid) : Prop where
  /-- a query is its characters in canonical form, if these are 1 to 32 Crockford characters -/
  normalizes : ∀ query normalized, normalizeKidQuery query = .ok normalized
    ↔ normalized.toList = canonicalChars query ∧ normalized.toList ≠ []
      ∧ normalized.toList.length ≤ 32 ∧ ∀ c ∈ normalized.toList, isCrockfordChar c = true
  /-- it resolves to the kid it is a prefix of, when there is one and no other, and fails
      otherwise -/
  resolves : ∀ query kid, resolveUniqueKid (kids.map Kid.text) query = .ok kid
    ↔ ∃ normalized, normalizeKidQuery query = .ok normalized ∧ Names normalized kids kid
  /-- normalization undoes the display -/
  displays : ∀ kid : Kid, ∃ shown, formatKidDisplayOf kid.text = .ok shown
    ∧ normalizeKid shown = .ok kid.text
  /-- the text of a digest is a kid -/
  derives : ∀ digest : FixedBytes 20, isKidText (encodeCrockfordBase32 digest.bytes) = true
  /-- and no other digest has it -/
  distinguishes : ∀ digest digest' : FixedBytes 20,
    encodeCrockfordBase32 digest.bytes = encodeCrockfordBase32 digest'.bytes → digest = digest'

/-- **A KID IS FOUND BY ITS PREFIXES AND TELLS ITS DIGEST.** -/
theorem kidLaws {kids : List Kid} (h : kids.Nodup) : KidLaws kids where
  normalizes _ _ := normalizeKidQuery_ok
  resolves _ _ := resolveUniqueKid_ok h
  displays := normalizeKid_display
  derives := isKidText_encode
  distinguishes digest digest' heq := by
    have hbytes := encodeCrockfordBase32_injective (digest.size.trans digest'.size.symm)
      (by rw [digest.size]) heq
    obtain ⟨bytes, size⟩ := digest
    obtain ⟨bytes', size'⟩ := digest'
    obtain rfl : bytes = bytes' := hbytes
    rfl

/-- The laws for two kids with a common prefix. -/
theorem kidLaws_pair : KidLaws [⟨"83KJ8YHMPPJHW7QC3446GPNXHNRTX61N", by decide⟩,
    ⟨"83ZZ8YHMPPJHW7QC3446GPNXHNRTX61N", by decide⟩] :=
  kidLaws (by decide)

end KidTexts
