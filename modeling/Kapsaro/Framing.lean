import Mathlib.Data.List.Basic
import Kapsaro.TextLines

/-!
# Framing — byte strings from which their parts can be read back

Length-prefixed fields behind a domain separator. Names nothing of any program.

* **`frame`** — the length in decimal, a colon, the field.
* **`framed`** — a domain and its framed fields.
* **`frame_append_injective`** — a frame ends where its length says.
* **`framed_injective`** — under one domain, the bytes determine the fields.
* **`framed_ne`** — domains that differ in a byte are never confused.
-/

namespace Framing

open TextLines

/-- The decimal digits of a number as bytes. -/
def decimalBytes (n : Nat) : Bytes :=
  utf8 (Nat.repr n)

/-- A field behind its length. -/
def frame (field : Bytes) : Bytes :=
  decimalBytes field.length ++ 58 :: field

/-- The fields behind a domain separator. -/
def framed (domain : Bytes) (fields : List Bytes) : Bytes :=
  domain ++ fields.flatMap frame

theorem decimalBytes_injective {m n : Nat} (h : decimalBytes m = decimalBytes n) : m = n := by
  have hdigits : Nat.toDigits 10 m = Nat.toDigits 10 n := String.ofList_inj.mp (utf8_injective h)
  have hm : Nat.ofDigitChars 10 (Nat.toDigits 10 m) 0 = m := Nat.ofDigitChars_ten_toDigits
  have hn : Nat.ofDigitChars 10 (Nat.toDigits 10 n) 0 = n := Nat.ofDigitChars_ten_toDigits
  rw [← hm, ← hn, hdigits]

private theorem digit_byte {c : Char} (h : c.isDigit = true) :
    String.utf8EncodeChar c = [c.toUInt8] ∧ c.toUInt8 ≠ 58 := by
  have hrange : 48 ≤ c.val.toNat ∧ c.val.toNat ≤ 57 := by
    simp only [Char.isDigit, Bool.and_eq_true, decide_eq_true_eq] at h
    exact ⟨h.1, h.2⟩
  constructor
  · rw [String.utf8EncodeChar]
    have hsmall : c.val.toNat ≤ 127 := by omega
    simp only [hsmall, if_true]
    rfl
  · intro heq
    have hval := congrArg UInt8.toNat heq
    rw [Char.toUInt8, UInt32.toNat_toUInt8] at hval
    have h58 : (58 : UInt8).toNat = 58 := rfl
    omega

/-- The digits hold no colon. -/
theorem colon_not_mem_decimalBytes (n : Nat) : (58 : UInt8) ∉ decimalBytes n := by
  intro hmem
  rw [decimalBytes, utf8, List.mem_flatMap] at hmem
  obtain ⟨c, hc, hbyte⟩ := hmem
  have hrepr : (Nat.repr n).toList = Nat.toDigits 10 n := by
    rw [Nat.repr, String.toList_ofList]
  rw [hrepr] at hc
  have hdigit := Nat.isDigit_of_mem_toDigits (by decide) (by decide) hc
  obtain ⟨hencode, hne⟩ := digit_byte hdigit
  rw [hencode, List.mem_singleton] at hbyte
  exact hne hbyte.symm

/-- Two byte strings split at their first separator in one way. -/
theorem append_separator_inj {sep : UInt8} {a b r s : Bytes} (ha : sep ∉ a) (hb : sep ∉ b)
    (h : a ++ sep :: r = b ++ sep :: s) : a = b ∧ r = s := by
  induction a generalizing b with
  | nil =>
    cases b with
    | nil => exact ⟨rfl, (List.cons.inj h).2⟩
    | cons d b => exact absurd ((List.cons.inj h).1 ▸ List.mem_cons_self) hb
  | cons c a ih =>
    cases b with
    | nil => exact absurd ((List.cons.inj h).1 ▸ List.mem_cons_self) ha
    | cons d b =>
      obtain ⟨rfl, htail⟩ := List.cons.inj h
      obtain ⟨rfl, hrest⟩ := ih (fun hm => ha (List.mem_cons_of_mem _ hm))
        (fun hm => hb (List.mem_cons_of_mem _ hm)) htail
      exact ⟨rfl, hrest⟩

/-- **A FRAME ENDS WHERE ITS LENGTH SAYS.** -/
theorem frame_append_injective {a b r s : Bytes} (h : frame a ++ r = frame b ++ s) :
    a = b ∧ r = s := by
  rw [frame, frame, List.append_assoc, List.append_assoc, List.cons_append,
    List.cons_append] at h
  obtain ⟨hdigits, hrest⟩ := append_separator_inj (colon_not_mem_decimalBytes _)
    (colon_not_mem_decimalBytes _) h
  have hlength := decimalBytes_injective hdigits
  exact List.append_inj hrest hlength

/-- A frame is never empty. -/
theorem frame_ne_nil (field : Bytes) : frame field ≠ [] := by
  rw [frame]
  exact List.append_ne_nil_of_right_ne_nil _ (List.cons_ne_nil _ _)

/-- **FRAMED BYTES DETERMINE THEIR FIELDS**, and how many there are. -/
theorem framed_injective {domain : Bytes} {as bs : List Bytes}
    (h : framed domain as = framed domain bs) : as = bs := by
  have hfields : as.flatMap frame = bs.flatMap frame := List.append_cancel_left h
  clear h
  induction as generalizing bs with
  | nil =>
    cases bs with
    | nil => rfl
    | cons b bs =>
      rw [List.flatMap_nil, List.flatMap_cons] at hfields
      exact absurd (List.append_eq_nil_iff.mp hfields.symm).1 (frame_ne_nil b)
  | cons a as ih =>
    cases bs with
    | nil =>
      rw [List.flatMap_nil, List.flatMap_cons] at hfields
      exact absurd (List.append_eq_nil_iff.mp hfields).1 (frame_ne_nil a)
    | cons b bs =>
      rw [List.flatMap_cons, List.flatMap_cons] at hfields
      obtain ⟨rfl, hrest⟩ := frame_append_injective hfields
      rw [ih hrest]

/-- **DOMAINS THAT DIFFER IN A BYTE ARE NEVER CONFUSED**, whatever the fields. -/
theorem framed_ne {domain domain' : Bytes} (i : Nat) (hi : i < domain.length)
    (hi' : i < domain'.length) (hne : domain[i]? ≠ domain'[i]?) (as bs : List Bytes) :
    framed domain as ≠ framed domain' bs := by
  intro h
  have hbyte : (framed domain as)[i]? = (framed domain' bs)[i]? := by rw [h]
  rw [framed, framed, List.getElem?_append_left hi, List.getElem?_append_left hi'] at hbyte
  exact hne hbyte

end Framing
