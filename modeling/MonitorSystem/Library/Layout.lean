import Mathlib.Algebra.Order.Field.Basic
import Mathlib.Algebra.Order.Ring.Rat

/-!
# Bytes in memory

A memory is a list of bytes. Some bytes are put at an offset (`Layout.store`) or taken from there
(`Layout.load`); what is taken is what has been put there (`Layout.load_store`), and what lies
beside it is not touched (`Layout.load_store_of_disjoint`).

Two parties that share a memory agree on how values are laid out in it. Numbers are little-endian
(`Layout.toBytes`, `Layout.ofBytes`), texts end with a zero (`Layout.printed`, `Layout.text`), and
32 bits may be the single-precision floating-point number that they encode (`Layout.float32`).
-/

namespace Layout

/-- Some bytes put at an offset. -/
def store (mem : List UInt8) (offset : ℕ) (bytes : List UInt8) : List UInt8 :=
  mem.take offset ++ bytes ++ mem.drop (offset + bytes.length)

/-- Some bytes from an offset on. -/
def load (mem : List UInt8) (offset count : ℕ) : List UInt8 := (mem.drop offset).take count

section Memory

variable {mem bytes : List UInt8} {offset : ℕ}

@[simp] theorem length_store (h : offset + bytes.length ≤ mem.length) :
    (store mem offset bytes).length = mem.length := by
  simp only [store, List.length_append, List.length_take, List.length_drop]
  omega

theorem getElem?_load (mem : List UInt8) (offset count i : ℕ) :
    (load mem offset count)[i]? = if i < count then mem[offset + i]? else none := by
  rw [load, List.getElem?_take, List.getElem?_drop]

/-- **A byte after some have been put.** -/
theorem getElem?_store (h : offset + bytes.length ≤ mem.length) (i : ℕ) :
    (store mem offset bytes)[i]? =
      if offset ≤ i ∧ i < offset + bytes.length then bytes[i - offset]? else mem[i]? := by
  have htake : (mem.take offset).length = offset := by
    rw [List.length_take]
    omega
  rw [store, List.append_assoc]
  rcases Nat.lt_or_ge i offset with hbelow | hge
  · rw [List.getElem?_append_left (by omega), List.getElem?_take_of_lt hbelow, if_neg (by omega)]
  · rw [List.getElem?_append_right (by omega), htake]
    rcases Nat.lt_or_ge i (offset + bytes.length) with hin | habove
    · rw [List.getElem?_append_left (by omega), if_pos ⟨hge, hin⟩]
    · rw [List.getElem?_append_right (by omega), List.getElem?_drop, if_neg (by omega)]
      congr 1
      omega

/-- **What has been put is taken**, together with what was behind it. -/
theorem load_store_append (h : offset + bytes.length ≤ mem.length) {count : ℕ}
    (hcount : bytes.length ≤ count) :
    load (store mem offset bytes) offset count =
      bytes ++ (load mem offset count).drop bytes.length := by
  refine List.ext_getElem? fun i => ?_
  rw [getElem?_load, getElem?_store h]
  rcases Nat.lt_or_ge i bytes.length with hin | hbehind
  · rw [if_pos (by omega), if_pos (by omega), List.getElem?_append_left hin,
      Nat.add_sub_cancel_left]
  · rw [List.getElem?_append_right hbehind, List.getElem?_drop, getElem?_load,
      Nat.add_sub_of_le hbehind, if_neg (show ¬(offset ≤ offset + i ∧ _) by omega)]

theorem load_store (h : offset + bytes.length ≤ mem.length) :
    load (store mem offset bytes) offset bytes.length = bytes := by
  rw [load_store_append h le_rfl, List.drop_eq_nil_of_le, List.append_nil]
  rw [load, List.length_take]
  exact min_le_left _ _

/-- **What lies beside it is not touched.** -/
theorem load_store_of_disjoint (h : offset + bytes.length ≤ mem.length) {start count : ℕ}
    (hdisjoint : start + count ≤ offset ∨ offset + bytes.length ≤ start) :
    load (store mem offset bytes) start count = load mem start count := by
  refine List.ext_getElem? fun i => ?_
  rw [getElem?_load, getElem?_load, getElem?_store h]
  split
  · rw [if_neg (by omega)]
  · rfl

theorem load_replicate_zero {size start count : ℕ} (h : start + count ≤ size) :
    load (List.replicate size 0) start count = List.replicate count 0 := by
  rw [load, List.drop_replicate, List.take_replicate, min_eq_left (by omega)]

/-- A part of what is taken. -/
theorem load_load (mem : List UInt8) {start count offset n : ℕ} (h : offset + n ≤ count) :
    load (load mem start count) offset n = load mem (start + offset) n := by
  refine List.ext_getElem? fun i => ?_
  rw [getElem?_load, getElem?_load, getElem?_load]
  rcases Nat.lt_or_ge i n with hlt | hge
  · rw [if_pos hlt, if_pos hlt, if_pos (by omega), Nat.add_assoc]
  · rw [if_neg (by omega), if_neg (by omega)]

end Memory

/-! ### Numbers -/

/-- A number in some bytes, the lowest first. -/
def toBytes : ℕ → ℕ → List UInt8
  | 0, _ => []
  | width + 1, n => UInt8.ofNat n :: toBytes width (n / 256)

/-- The number in some bytes. -/
def ofBytes : List UInt8 → ℕ
  | [] => 0
  | b :: bs => b.toNat + 256 * ofBytes bs

@[simp] theorem length_toBytes (width n : ℕ) : (toBytes width n).length = width := by
  induction width generalizing n with
  | zero => rfl
  | succ width ih => rw [toBytes, List.length_cons, ih]

/-- **The bytes of a number are read as this number**, if there are enough of them. -/
theorem ofBytes_toBytes {width n : ℕ} (h : n < 256 ^ width) : ofBytes (toBytes width n) = n := by
  induction width generalizing n with
  | zero =>
    rw [pow_zero] at h
    exact (Nat.lt_one_iff.mp h).symm
  | succ width ih =>
    rw [pow_succ] at h
    rw [toBytes, ofBytes, ih (by omega), UInt8.toNat_ofNat']
    omega

/-! ### Texts -/

/-- What is written of a text into a field of some size: as much as fits, and a zero. -/
def printed (size : ℕ) (text : List UInt8) : List UInt8 := text.take (size - 1) ++ [0]

/-- The text in a field, up to the first zero. -/
def text (field : List UInt8) : List UInt8 := field.takeWhile (· ≠ 0)

theorem length_printed_le {size : ℕ} (h : 0 < size) (text : List UInt8) :
    (printed size text).length ≤ size := by
  rw [printed, List.length_append, List.length_take, List.length_singleton]
  omega

/-- **A text that fits is read back**, whatever comes behind it. -/
theorem text_printed_append {size : ℕ} {chars : List UInt8} (hlt : chars.length < size)
    (hne : 0 ∉ chars) (rest : List UInt8) : text (printed size chars ++ rest) = chars := by
  have hchars : ∀ b ∈ chars, decide (b ≠ 0) = true := by
    intro b hb
    exact decide_eq_true fun hzero => hne (hzero ▸ hb)
  rw [text, printed, List.take_of_length_le (by omega), List.append_assoc,
    List.takeWhile_append_of_pos hchars]
  simp

/-! ### Floating-point numbers -/

/-- The number that 32 bits encode, if it is one: a sign, eight bits of the exponent, and 23 of the
fraction. -/
def float32 (bits : ℕ) : Option ℚ :=
  let sign : ℚ := if bits / 2 ^ 31 % 2 = 0 then 1 else -1
  let exponent : ℕ := bits / 2 ^ 23 % 256
  let fraction : ℕ := bits % 2 ^ 23
  if exponent = 255 then none
  else if exponent = 0 then some (sign * fraction * (2 : ℚ) ^ (-149 : ℤ))
  else some (sign * (2 ^ 23 + fraction) * (2 : ℚ) ^ ((exponent : ℤ) - 150))

/-- One half, in the encoding of the machine. -/
example : float32 0x3f000000 = some (1 / 2) := by decide +kernel

end Layout
