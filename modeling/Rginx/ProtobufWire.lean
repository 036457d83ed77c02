-- The wire format of protobuf, as far as a reader of one number needs it: varints
-- of at most ten bytes, fields of four wire types, and messages as their sequences.
-- A reader with 64 bits cuts the number of a varint to them.
import Mathlib.Data.Nat.Bitwise
import Mathlib.Data.UInt

namespace protobuf_wire

abbrev Bytes := List UInt8

/-! ## Varints -/

/-- A varint and its number: seven bits a byte, the lowest first. All bytes but the last one have
the high bit. -/
inductive Varint : Bytes → Nat → Prop
  | last {byte : UInt8} (h : byte.toNat < 128) : Varint [byte] byte.toNat
  | more {byte : UInt8} {bytes : Bytes} {n : Nat} (h : 128 ≤ byte.toNat) (rest : Varint bytes n) :
    Varint (byte :: bytes) (byte.toNat - 128 + 128 * n)

theorem Varint.length_pos {bytes : Bytes} {n : Nat} (h : Varint bytes n) : 0 < bytes.length := by
  cases h <;> exact Nat.succ_pos _

/-- A varint ends where its bytes say. -/
theorem Varint.unique {bytes bytes' rest rest' : Bytes} {n n' : Nat} (h : Varint bytes n)
    (h' : Varint bytes' n') (hsame : bytes ++ rest = bytes' ++ rest') :
    bytes = bytes' ∧ n = n' ∧ rest = rest' := by
  induction h generalizing bytes' n' with
  | last hlow =>
    cases h' with
    | last hlow' =>
      obtain ⟨rfl, hrest⟩ := List.cons.inj hsame
      exact ⟨rfl, rfl, hrest⟩
    | more hhigh' _ =>
      obtain ⟨rfl, -⟩ := List.cons.inj hsame
      omega
  | more hhigh _ ih =>
    cases h' with
    | last hlow' =>
      obtain ⟨rfl, -⟩ := List.cons.inj hsame
      omega
    | more hhigh' hmore' =>
      obtain ⟨rfl, htail⟩ := List.cons.inj hsame
      obtain ⟨rfl, rfl, hrest⟩ := ih hmore' htail
      exact ⟨rfl, rfl, hrest⟩

/-- The varint of a number, with no byte to spare. -/
def varint (n : Nat) : Bytes :=
  if n < 128 then [UInt8.ofNat n] else UInt8.ofNat (n % 128 + 128) :: varint (n / 128)
termination_by n
decreasing_by omega

theorem varint_spec (n : Nat) : Varint (varint n) n := by
  induction n using varint.induct with
  | case1 n hsmall =>
    have hbyte : (UInt8.ofNat n).toNat = n := by
      rw [UInt8.toNat_ofNat']
      omega
    have hlast : Varint [UInt8.ofNat n] (UInt8.ofNat n).toNat := .last (by omega)
    unfold varint
    rw [if_pos hsmall]
    rwa [hbyte] at hlast
  | case2 n hlarge ih =>
    have hbyte : (UInt8.ofNat (n % 128 + 128)).toNat = n % 128 + 128 := by
      rw [UInt8.toNat_ofNat']
      omega
    have hmore : Varint (UInt8.ofNat (n % 128 + 128) :: varint (n / 128))
        ((UInt8.ofNat (n % 128 + 128)).toNat - 128 + 128 * (n / 128)) := .more (by omega) ih
    have hnumber : n % 128 + 128 - 128 + 128 * (n / 128) = n := by omega
    unfold varint
    rw [if_neg hlarge]
    rwa [hbyte, hnumber] at hmore

theorem length_varint_le {n k : Nat} (h : n < 2 ^ (7 * (k + 1))) : (varint n).length ≤ k + 1 := by
  induction k generalizing n with
  | zero =>
    have hsmall : n < 128 := h
    unfold varint
    rw [if_pos hsmall]
    exact Nat.le_refl _
  | succ k ih =>
    unfold varint
    split
    · exact Nat.succ_le_succ (Nat.zero_le _)
    · have hrest : n / 128 < 2 ^ (7 * (k + 1)) := by
        rw [Nat.div_lt_iff_lt_mul (by decide)]
        calc n < 2 ^ (7 * (k + 1 + 1)) := h
          _ = 2 ^ (7 * (k + 1)) * 128 := by rw [Nat.mul_add 7 (k + 1) 1, Nat.pow_add]
      exact Nat.succ_le_succ (ih hrest)

/-- A varint that a reader with 64 bits takes. -/
def Varint64 (bytes : Bytes) (n : Nat) : Prop := Varint bytes n ∧ bytes.length ≤ 10

/-! ## Fields and messages -/

/-- What follows the tag of a wire type: its bytes, the numbers of its varints, and its value if it
is a varint. -/
inductive Content : Nat → Bytes → List Nat → Option Nat → Prop
  | varint {bytes : Bytes} {n : Nat} (h : Varint64 bytes n) :
    Content 0 bytes [n] (some (n % 2 ^ 64))
  | fixed64 {bytes : Bytes} (h : bytes.length = 8) : Content 1 bytes [] none
  | delimited {len bytes : Bytes} {n : Nat} (h : Varint64 len n)
    (hlength : bytes.length = n % 2 ^ 64) : Content 2 (len ++ bytes) [n] none
  | fixed32 {bytes : Bytes} (h : bytes.length = 4) : Content 5 bytes [] none

/-- The fields of a message, each with its number and value, and the numbers of all varints. -/
inductive Message : Bytes → List Nat → List (Nat × Option Nat) → Prop
  | nil : Message [] [] []
  | field {tag content rest : Bytes} {n : Nat} {numbers others : List Nat} {value : Option Nat}
    {fields : List (Nat × Option Nat)} (htag : Varint64 tag n)
    (hcontent : Content (n % 2 ^ 64 % 8) content numbers value) (hrest : Message rest others fields) :
    Message (tag ++ (content ++ rest)) (n :: (numbers ++ others))
      ((n % 2 ^ 64 / 8, value) :: fields)

theorem Content.unique {wire_type : Nat} {bytes bytes' rest rest' : Bytes}
    {numbers numbers' : List Nat} {value value' : Option Nat}
    (h : Content wire_type bytes numbers value) (h' : Content wire_type bytes' numbers' value')
    (hsame : bytes ++ rest = bytes' ++ rest') :
    numbers = numbers' ∧ value = value' ∧ rest = rest' := by
  cases h with
  | varint h =>
    cases h' with
    | varint h' =>
      obtain ⟨-, rfl, hrest⟩ := h.1.unique h'.1 hsame
      exact ⟨rfl, rfl, hrest⟩
  | fixed64 h =>
    cases h' with
    | fixed64 h' =>
      exact ⟨rfl, rfl, (List.append_inj hsame (h.trans h'.symm)).2⟩
  | delimited h hlength =>
    cases h' with
    | delimited h' hlength' =>
      rw [List.append_assoc, List.append_assoc] at hsame
      obtain ⟨-, rfl, hsame⟩ := h.1.unique h'.1 hsame
      exact ⟨rfl, rfl, (List.append_inj hsame (hlength.trans hlength'.symm)).2⟩
  | fixed32 h =>
    cases h' with
    | fixed32 h' =>
      exact ⟨rfl, rfl, (List.append_inj hsame (h.trans h'.symm)).2⟩

/-- Bytes are one message at most. -/
theorem Message.unique {bytes : Bytes} {numbers numbers' : List Nat}
    {fields fields' : List (Nat × Option Nat)} (h : Message bytes numbers fields)
    (h' : Message bytes numbers' fields') : numbers = numbers' ∧ fields = fields' := by
  generalize hbytes : bytes = bytes' at h'
  induction h generalizing bytes' numbers' fields' with
  | nil =>
    cases h' with
    | nil => exact ⟨rfl, rfl⟩
    | field htag' _ _ =>
      have hpos := htag'.1.length_pos
      rw [eq_comm, List.append_eq_nil_iff] at hbytes
      rw [hbytes.1] at hpos
      cases hpos
  | field htag hcontent _ ih =>
    cases h' with
    | nil =>
      have hpos := htag.1.length_pos
      rw [List.append_eq_nil_iff] at hbytes
      rw [hbytes.1] at hpos
      cases hpos
    | field htag' hcontent' hrest' =>
      obtain ⟨-, rfl, hbytes⟩ := htag.1.unique htag'.1 hbytes
      obtain ⟨rfl, rfl, hbytes⟩ := hcontent.unique hcontent' hbytes
      obtain ⟨rfl, rfl⟩ := ih _ hbytes hrest'
      exact ⟨rfl, rfl⟩

/-- A message whose varints fit the 64 bits of a reader. -/
def WellFormed (bytes : Bytes) (fields : List (Nat × Option Nat)) : Prop :=
  ∃ numbers, Message bytes numbers fields ∧ ∀ n ∈ numbers, n < 2 ^ 64

end protobuf_wire
