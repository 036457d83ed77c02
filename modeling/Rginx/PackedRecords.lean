-- Numbers as little-endian bytes, records of such numbers one behind the other, and memory that is
-- overwritten in part, or only begun to be overwritten.
import Mathlib.Data.List.Basic
import Mathlib.Tactic.Ring

namespace packed_records

/-! ## Ranges of a memory -/

section Ranges

variable {α : Type} {memory bytes : List α} {offset len : Nat}

def slice (memory : List α) (offset len : Nat) : List α := (memory.drop offset).take len

/-- The bytes take the place of as many from the offset on. -/
def overwrite (memory : List α) (offset : Nat) (bytes : List α) : List α :=
  memory.take offset ++ (bytes ++ memory.drop (offset + bytes.length))

theorem getElem?_slice (memory : List α) (offset len i : Nat) :
    (slice memory offset len)[i]? = if i < len then memory[offset + i]? else none := by
  rw [slice, List.getElem?_take]
  split
  · rw [List.getElem?_drop]
  · rfl

theorem length_slice (h : offset + len ≤ memory.length) : (slice memory offset len).length = len := by
  rw [slice, List.length_take, List.length_drop]
  omega

theorem length_overwrite (h : offset + bytes.length ≤ memory.length) :
    (overwrite memory offset bytes).length = memory.length := by
  simp only [overwrite, List.length_append, List.length_take, List.length_drop]
  omega

theorem getElem?_overwrite (h : offset ≤ memory.length) (i : Nat) :
    (overwrite memory offset bytes)[i]? =
      if offset ≤ i ∧ i < offset + bytes.length then bytes[i - offset]? else memory[i]? := by
  have hprefix : (memory.take offset).length = offset := List.length_take_of_le h
  rw [overwrite, List.getElem?_append, hprefix, List.getElem?_take]
  split
  · rw [if_neg (by omega)]
  rw [List.getElem?_append]
  split
  · rw [if_pos (by omega)]
  · rw [if_neg (by omega), List.getElem?_drop]
    congr 1
    omega

theorem slice_congr {other : List α} (h : ∀ i < len, memory[offset + i]? = other[offset + i]?) :
    slice memory offset len = slice other offset len := by
  refine List.ext_getElem? fun i => ?_
  rw [getElem?_slice, getElem?_slice]
  split
  · exact h i ‹_›
  · rfl

/-- What was written is read. -/
theorem slice_overwrite (h : offset ≤ memory.length) :
    slice (overwrite memory offset bytes) offset bytes.length = bytes := by
  refine List.ext_getElem? fun i => ?_
  rw [getElem?_slice]
  split
  · rw [getElem?_overwrite h, if_pos (by omega), Nat.add_sub_cancel_left]
  · exact (List.getElem?_eq_none (by omega)).symm

/-- What stands elsewhere is read as before. -/
theorem slice_overwrite_of_disjoint {other size : Nat} (h : offset ≤ memory.length)
    (hapart : other + size ≤ offset ∨ offset + bytes.length ≤ other) :
    slice (overwrite memory offset bytes) other size = slice memory other size := by
  refine slice_congr fun i hi => ?_
  rw [getElem?_overwrite h, if_neg (by omega)]

/-! ## What is left of a write that was interrupted -/

/-- Each byte is the one from before or the one that was to be written, in any order. -/
def Torn (before after between : List α) : Prop :=
  between.length = before.length ∧
    ∀ i : Nat, between[i]? = before[i]? ∨ between[i]? = after[i]?

theorem slice_of_torn {before after between : List α} (h : Torn before after between)
    (hsame : slice before offset len = slice after offset len) :
    slice between offset len = slice before offset len := by
  refine slice_congr fun i hi => ?_
  rcases h.2 (offset + i) with hold | hnew
  · exact hold
  · have hat := congrArg (fun bytes : List α => bytes[i]?) hsame
    simp only [getElem?_slice, if_pos hi] at hat
    exact hnew.trans hat.symm

end Ranges

/-! ## Little-endian numbers -/

def to_le_bytes : Nat → Nat → List UInt8
  | 0, _ => []
  | width + 1, n => UInt8.ofNat n :: to_le_bytes width (n / 256)

def from_le_bytes : List UInt8 → Nat
  | [] => 0
  | byte :: bytes => byte.toNat + 256 * from_le_bytes bytes

@[simp] theorem length_to_le_bytes (width n : Nat) : (to_le_bytes width n).length = width := by
  induction width generalizing n with
  | zero => rfl
  | succ width ih => rw [to_le_bytes, List.length_cons, ih]

/-- The round trip, less what the width cuts off. -/
theorem from_le_bytes_to_le_bytes (width n : Nat) :
    from_le_bytes (to_le_bytes width n) = n % 256 ^ width := by
  induction width generalizing n with
  | zero => simp [to_le_bytes, from_le_bytes, Nat.mod_one]
  | succ width ih =>
    rw [to_le_bytes, from_le_bytes, ih, pow_succ', Nat.mod_mul, UInt8.toNat_ofNat']

theorem from_le_bytes_lt (bytes : List UInt8) : from_le_bytes bytes < 256 ^ bytes.length := by
  induction bytes with
  | nil => exact Nat.one_pos
  | cons byte bytes ih =>
    rw [from_le_bytes, List.length_cons, pow_succ']
    have hbyte := byte.toNat_lt
    omega

/-! ## Records -/

/-- The values one behind the other, each in its width. -/
def pack : List Nat → List Nat → List UInt8
  | width :: widths, value :: values => to_le_bytes width value ++ pack widths values
  | _, _ => []

/-- The values of the widths from the offset on. -/
def unpack : List Nat → Nat → List UInt8 → List Nat
  | [], _, _ => []
  | width :: widths, offset, bytes =>
    from_le_bytes (slice bytes offset width) :: unpack widths (offset + width) bytes

theorem length_pack {widths values : List Nat} (h : widths.length = values.length) :
    (pack widths values).length = widths.sum := by
  induction widths generalizing values with
  | nil => rfl
  | cons width widths ih =>
    cases values with
    | nil => cases h
    | cons value values =>
      rw [pack, List.length_append, length_to_le_bytes, ih (Nat.succ.inj h), List.sum_cons]

theorem slice_behind {α : Type} (before bytes after : List α) :
    slice (before ++ (bytes ++ after)) before.length bytes.length = bytes := by
  simp [slice]

/-- A packed record is unpacked to its values, each as far as its width goes. -/
theorem unpack_pack {widths values : List Nat} (h : widths.length = values.length)
    (before after : List UInt8) :
    unpack widths before.length (before ++ (pack widths values ++ after)) =
      List.zipWith (fun value width => value % 256 ^ width) values widths := by
  induction widths generalizing values before with
  | nil =>
    cases values with
    | nil => rfl
    | cons => cases h
  | cons width widths ih =>
    cases values with
    | nil => cases h
    | cons value values =>
      have hfirst := slice_behind before (to_le_bytes width value) (pack widths values ++ after)
      rw [length_to_le_bytes] at hfirst
      have hrest := ih (Nat.succ.inj h) (before ++ to_le_bytes width value)
      rw [List.length_append, length_to_le_bytes, List.append_assoc] at hrest
      rw [unpack, pack, List.append_assoc, hfirst, hrest, from_le_bytes_to_le_bytes,
        List.zipWith_cons_cons]

/-- A range of a range that two memories have in common. -/
theorem slice_of_slice {α : Type} {memory other : List α} {size : Nat}
    (h : slice memory 0 size = slice other 0 size) {offset len : Nat} (hrange : offset + len ≤ size) :
    slice memory offset len = slice other offset len := by
  refine slice_congr fun i hi => ?_
  have hat := congrArg (fun bytes : List α => bytes[offset + i]?) h
  simpa only [getElem?_slice, if_pos (show offset + i < size by omega), Nat.zero_add] using hat

theorem unpack_congr {widths : List Nat} {offset size : Nat} {bytes other : List UInt8}
    (h : slice bytes 0 size = slice other 0 size) (hrange : offset + widths.sum ≤ size) :
    unpack widths offset bytes = unpack widths offset other := by
  induction widths generalizing offset with
  | nil => rfl
  | cons width widths ih =>
    rw [List.sum_cons] at hrange
    rw [unpack, unpack, slice_of_slice h (by omega), ih (by omega)]

theorem from_le_bytes_zeros (count : Nat) : from_le_bytes (List.replicate count 0) = 0 := by
  induction count with
  | zero => rfl
  | succ count ih => simp [List.replicate_succ, from_le_bytes, ih]

end packed_records
