import Mathlib.Algebra.GroupWithZero.Nat
import Mathlib.Data.List.Basic

/-!
# Length prefixes — byte strings behind a four-byte length

A field of a wire format that states its length first, as a 32-bit number with the most
significant byte in front.  Names nothing of any program.

* **`toBeBytes`**, **`fromBeBytes`** — the four bytes of a number below `2 ^ 32`, and back.
* **`frame`** — a byte string behind its length.
* **`frame_append_inj`** — a framed field and what follows it determine each other, so a sequence
  of framed fields reads back in one way only.
-/

namespace LengthPrefix

/-! ## Numbers of 32 bits -/

/-- The four bytes of a number, most significant first. -/
def toBeBytes (n : Nat) : List UInt8 :=
  [UInt8.ofNat (n / 256 / 256 / 256), UInt8.ofNat (n / 256 / 256), UInt8.ofNat (n / 256),
    UInt8.ofNat n]

/-- The number of four bytes, most significant first. -/
def fromBeBytes (a b c d : UInt8) : Nat :=
  ((a.toNat * 256 + b.toNat) * 256 + c.toNat) * 256 + d.toNat

@[simp] theorem length_toBeBytes (n : Nat) : (toBeBytes n).length = 4 := rfl

/-- Four bytes hold no more than 32 bits. -/
theorem fromBeBytes_lt (a b c d : UInt8) : fromBeBytes a b c d < 2 ^ 32 := by
  have ha := a.toNat_lt
  have hb := b.toNat_lt
  have hc := c.toNat_lt
  have hd := d.toNat_lt
  rw [fromBeBytes]
  omega

/-- A number below `2 ^ 32` is read back from its bytes. -/
theorem fromBeBytes_toBeBytes {n : Nat} (h : n < 2 ^ 32) :
    fromBeBytes (UInt8.ofNat (n / 256 / 256 / 256)) (UInt8.ofNat (n / 256 / 256))
      (UInt8.ofNat (n / 256)) (UInt8.ofNat n) = n := by
  simp only [fromBeBytes, UInt8.toNat_ofNat']
  omega

/-- One byte of a sum, from the top part and the byte itself. -/
theorem ofNat_mul_add (q : Nat) (b : UInt8) : UInt8.ofNat (q * 256 + b.toNat) = b := by
  have hb := b.toNat_lt
  refine UInt8.toNat_inj.mp ?_
  rw [UInt8.toNat_ofNat']
  omega

/-- What is above the last byte of a sum. -/
theorem mul_add_div (q : Nat) (b : UInt8) : (q * 256 + b.toNat) / 256 = q := by
  have hb := b.toNat_lt
  omega

/-- Four bytes are read back from their number. -/
theorem toBeBytes_fromBeBytes (a b c d : UInt8) :
    toBeBytes (fromBeBytes a b c d) = [a, b, c, d] := by
  rw [toBeBytes, fromBeBytes, mul_add_div, mul_add_div, mul_add_div, ofNat_mul_add, ofNat_mul_add,
    ofNat_mul_add, UInt8.ofNat_toNat]

/-- Numbers below `2 ^ 32` with the same bytes are equal. -/
theorem toBeBytes_inj {m n : Nat} (hm : m < 2 ^ 32) (hn : n < 2 ^ 32)
    (h : toBeBytes m = toBeBytes n) : m = n := by
  simp only [toBeBytes, List.cons.injEq, and_true] at h
  obtain ⟨ha, hb, hc, hd⟩ := h
  have hread := fromBeBytes_toBeBytes hm
  rw [ha, hb, hc, hd, fromBeBytes_toBeBytes hn] at hread
  exact hread.symm

/-! ## Framed fields -/

/-- A byte string behind its length. -/
def frame (data : List UInt8) : List UInt8 :=
  toBeBytes data.length ++ data

@[simp] theorem length_frame (data : List UInt8) : (frame data).length = data.length + 4 := by
  rw [frame, List.length_append, length_toBeBytes, Nat.add_comm]

/-- **A FRAMED FIELD ENDS WHERE IT SAYS**: it and what follows it determine each other. -/
theorem frame_append_inj {a b rest rest' : List UInt8} (ha : a.length < 2 ^ 32)
    (hb : b.length < 2 ^ 32) (h : frame a ++ rest = frame b ++ rest') : a = b ∧ rest = rest' := by
  rw [frame, frame, List.append_assoc, List.append_assoc] at h
  obtain ⟨hhead, htail⟩ := List.append_inj h rfl
  exact List.append_inj htail (toBeBytes_inj ha hb hhead)

/-- Bytes that begin with a length and hold that many bytes after it are a framed field and a
    rest. -/
theorem eq_frame_append {a b c d : UInt8} {tail : List UInt8}
    (h : fromBeBytes a b c d ≤ tail.length) :
    a :: b :: c :: d :: tail
      = frame (tail.take (fromBeBytes a b c d)) ++ tail.drop (fromBeBytes a b c d) := by
  rw [frame, List.length_take, Nat.min_eq_left h, toBeBytes_fromBeBytes, List.append_assoc,
    List.take_append_drop]
  rfl

/-- Framed fields, one after another. -/
def frames (fields : List (List UInt8)) : List UInt8 :=
  fields.flatMap frame

@[simp] theorem frames_nil : frames [] = [] := rfl

@[simp] theorem frames_cons (field : List UInt8) (fields : List (List UInt8)) :
    frames (field :: fields) = frame field ++ frames fields := rfl

/-- **EVERY TRUNCATION SHOWS**: what follows the first few fields of a sequence begins with a
    whole field. -/
theorem frames_prefix {fields fields' : List (List UInt8)} {tail : List UInt8}
    (h : ∀ field ∈ fields, field.length < 2 ^ 32) (h' : ∀ field ∈ fields', field.length < 2 ^ 32)
    (hfewer : fields.length < fields'.length) (heq : frames fields ++ tail = frames fields') :
    ∃ next more, next.length < 2 ^ 32 ∧ tail = frame next ++ more := by
  induction fields generalizing fields' with
  | nil =>
    cases fields' with
    | nil => exact absurd hfewer (Nat.lt_irrefl 0)
    | cons next rest => exact ⟨next, frames rest, h' next List.mem_cons_self, heq⟩
  | cons field fields ih =>
    cases fields' with
    | nil => exact absurd hfewer (Nat.not_lt_zero _)
    | cons field' fields' =>
      rw [frames_cons, frames_cons, List.append_assoc] at heq
      obtain ⟨_, hrest⟩ := frame_append_inj (h field List.mem_cons_self)
        (h' field' List.mem_cons_self) heq
      exact ih (fun f hf => h f (List.mem_cons_of_mem _ hf))
        (fun f hf => h' f (List.mem_cons_of_mem _ hf)) (Nat.lt_of_succ_lt_succ hfewer) hrest

end LengthPrefix
