-- The codec of gRPC health probes, from `proxy/health/grpc_health_codec.rs`: the
-- request, and a reader of the response that goes through the fields of a payload
-- with an index.
import Rginx.GrpcWebCodec
import Rginx.ProtobufWire
import Rginx.ResultChains

open rginx.cache rginx.grpc_web rust_result
open protobuf_wire hiding Bytes

namespace rginx.proxy.health

/-! ## The source -/

inductive GrpcHealthServingStatus
  | Unknown
  | Serving
  | NotServing
  | ServiceUnknown
  | Other (value : Nat)
  deriving DecidableEq

def GrpcHealthServingStatus.from_u64 : Nat → GrpcHealthServingStatus
  | 0 => .Unknown
  | 1 => .Serving
  | 2 => .NotServing
  | 3 => .ServiceUnknown
  | other => .Other other

def invalid_grpc_health_probe (message : String) : IoError := ⟨.InvalidData, message⟩

def append_protobuf_varint (buffer : Bytes) (value : Nat) : Bytes :=
  let byte := UInt8.ofNat (value &&& 0x7f)
  let value' := value >>> 7
  if value' ≠ 0 then append_protobuf_varint (buffer ++ [byte ||| 0x80]) value'
  else buffer ++ [byte]
termination_by value
decreasing_by
  simp only [Nat.shiftRight_eq_div_pow]
  simp only [value', Nat.shiftRight_eq_div_pow] at *
  omega

def encode_grpc_health_check_request (service : Bytes) : Bytes :=
  let payload := if service = [] then [] else append_protobuf_varint [0x0a] service.length ++ service
  0 :: (to_be_bytes payload.length ++ payload)

/-- The loop of `decode_protobuf_varint`, with the index after the varint. -/
def decode_varint_loop (payload : Bytes) (index value shift : Nat) : IoResult (Nat × Nat) :=
  if h : index < payload.length then
    let byte := payload[index]
    let value := value ||| (byte &&& 0x7f).toNat <<< shift % 2 ^ 64
    if byte &&& 0x80 = 0 then .ok (value, index + 1)
    else if shift + 7 ≥ 64 then
      .error (invalid_grpc_health_probe "protobuf varint is too large")
    else decode_varint_loop payload (index + 1) value (shift + 7)
  else .error (invalid_grpc_health_probe "unexpected EOF while decoding protobuf varint")
termination_by payload.length - index

def decode_protobuf_varint (payload : Bytes) (index : Nat) : IoResult (Nat × Nat) :=
  decode_varint_loop payload index 0 0

def USIZE_MAX : Nat := 2 ^ 64 - 1

def saturating_add (a b : Nat) : Nat := min (a + b) USIZE_MAX

/-- A field of a fixed size: the index after it. -/
def skip_bytes (payload : Bytes) (index len : Nat) (field : String) : IoResult Nat :=
  let last := saturating_add index len
  if last > payload.length then
    .error (invalid_grpc_health_probe
      s!"unexpected EOF while skipping {field} protobuf field")
  else .ok last

/-- The index after what follows a tag of the wire type. -/
def skip_protobuf_field (payload : Bytes) (index wire_type : Nat) : IoResult Nat :=
  match wire_type with
  | 0 => do
    let (_, index) ← decode_protobuf_varint payload index
    .ok index
  | 1 => skip_bytes payload index 8 "fixed64"
  | 2 => do
    let (len, index) ← decode_protobuf_varint payload index
    skip_bytes payload index len "length-delimited"
  | 5 => skip_bytes payload index 4 "fixed32"
  | wire_type =>
    .error (invalid_grpc_health_probe
      s!"unsupported protobuf wire type `{wire_type}` in gRPC health response")

/-- What follows a tag: the index after it, and the status. -/
def decode_field_value (payload : Bytes) (index field_number wire_type : Nat)
    (serving_status : GrpcHealthServingStatus) : IoResult (Nat × GrpcHealthServingStatus) :=
  match field_number, wire_type with
  | 1, 0 => do
    let (value, index) ← decode_protobuf_varint payload index
    .ok (index, .from_u64 value)
  | _, wire_type => do
    let index ← skip_protobuf_field payload index wire_type
    .ok (index, serving_status)

/-- One turn of the loop. -/
def decode_field (payload : Bytes) (index : Nat) (serving_status : GrpcHealthServingStatus) :
    IoResult (Nat × GrpcHealthServingStatus) := do
  let (tag, index) ← decode_protobuf_varint payload index
  decode_field_value payload index (tag >>> 3) (tag &&& 0x07) serving_status

/-- The payload of a frame is as long as 32 bits can say. -/
structure Payload where
  bytes : Bytes
  fits : bytes.length < 2 ^ 32

def decode_grpc_frame_payload (body : Bytes) : IoResult Payload :=
  if h : body.length < 5 then
    .error (invalid_grpc_health_probe "incomplete gRPC health response frame header")
  else
    let compressed := body[0]
    if compressed ≠ 0 then
      .error (invalid_grpc_health_probe "compressed gRPC health responses are not supported")
    else
      let len := from_be_bytes body[1] body[2] body[3] body[4]
      let expected_len := 5 + len
      if hlen : body.length ≠ expected_len then
        .error (invalid_grpc_health_probe
          s!"gRPC health response frame length mismatch: expected {expected_len} bytes, got {body.length}")
      else
        .ok ⟨body.drop 5, by
          have := from_be_bytes_lt body[1] body[2] body[3] body[4]
          rw [List.length_drop]
          omega⟩

/-! ## Varints -/

theorem and_high (byte : UInt8) : byte &&& 0x80 = 0 ↔ byte.toNat < 128 := by
  have hbit : byte.toNat &&& 128 = (byte.toNat.testBit 7).toNat * 128 := Nat.and_two_pow _ 7
  have hbyte := byte.toNat_lt
  rw [Nat.testBit_eq_decide_div_mod_eq] at hbit
  rw [← UInt8.toNat_inj, UInt8.toNat_and]
  show byte.toNat &&& 128 = 0 ↔ byte.toNat < 128
  by_cases hlow : byte.toNat < 128
  · have hzero : byte.toNat / 2 ^ 7 = 0 := Nat.div_eq_of_lt hlow
    rw [hzero] at hbit
    exact ⟨fun _ => hlow, fun _ => hbit⟩
  · have hone : byte.toNat / 2 ^ 7 = 1 := by omega
    rw [hone] at hbit
    have hhigh : byte.toNat &&& 128 = 128 := hbit
    omega

theorem and_low (byte : UInt8) : (byte &&& 0x7f).toNat = byte.toNat % 128 := by
  rw [UInt8.toNat_and]
  exact Nat.and_two_pow_sub_one_eq_mod byte.toNat 7

/-- Bits that stand above a number are added to it. -/
theorem or_shift {value shift : Nat} (hvalue : value < 2 ^ shift) (hshift : shift < 64) (m : Nat) :
    value ||| m <<< shift % 2 ^ 64 = value + m * 2 ^ shift % 2 ^ 64 := by
  have hpow : 2 ^ 64 = 2 ^ shift * 2 ^ (64 - shift) := by
    rw [← Nat.pow_add, Nat.add_sub_cancel' hshift.le]
  rw [Nat.shiftLeft_eq, Nat.mul_comm m, hpow, Nat.mul_mod_mul_left, Nat.or_comm,
    ← Nat.two_pow_add_eq_or_of_lt hvalue, Nat.add_comm]

/-- What stands below a multiple is not cut off with it. -/
theorem add_mul_mod {a b shift : Nat} (ha : a < 2 ^ shift) (hshift : shift < 64) :
    (a + b * 2 ^ shift) % 2 ^ 64 = a + b * 2 ^ shift % 2 ^ 64 := by
  have hpow : 2 ^ 64 = 2 ^ shift * 2 ^ (64 - shift) := by
    rw [← Nat.pow_add, Nat.add_sub_cancel' hshift.le]
  have hhigh : b % 2 ^ (64 - shift) + 1 ≤ 2 ^ (64 - shift) :=
    Nat.mod_lt _ (Nat.pow_pos (by decide))
  have hlt : a + 2 ^ shift * (b % 2 ^ (64 - shift)) < 2 ^ 64 := by
    calc a + 2 ^ shift * (b % 2 ^ (64 - shift))
        < 2 ^ shift * (b % 2 ^ (64 - shift) + 1) := by rw [Nat.mul_add]; omega
      _ ≤ 2 ^ shift * 2 ^ (64 - shift) := Nat.mul_le_mul_left _ hhigh
      _ = 2 ^ 64 := hpow.symm
  have hcut : b * 2 ^ shift % 2 ^ 64 = 2 ^ shift * (b % 2 ^ (64 - shift)) := by
    rw [Nat.mul_comm, hpow, Nat.mul_mod_mul_left]
  rw [← Nat.add_mod_mod, hcut, Nat.mod_eq_of_lt hlt]

theorem decode_varint_loop_iff {payload : Bytes} {index value k v index' : Nat} (hk : k ≤ 9)
    (hvalue : value < 2 ^ (7 * k)) :
    decode_varint_loop payload index value (7 * k) = .ok (v, index') ↔
      ∃ bytes n, bytes <+: payload.drop index ∧ index' = index + bytes.length ∧ Varint bytes n ∧
        k + bytes.length ≤ 10 ∧ v = value + n * 2 ^ (7 * k) % 2 ^ 64 := by
  induction hrest : payload.drop index generalizing index value k with
  | nil =>
    have hend : ¬ index < payload.length := by
      rw [List.drop_eq_nil_iff] at hrest
      omega
    unfold decode_varint_loop
    rw [dif_neg hend]
    constructor
    · intro h
      cases h
    · rintro ⟨bytes, n, hprefix, -, hvarint, -⟩
      rw [List.prefix_nil.mp hprefix] at hvarint
      cases hvarint
  | cons byte rest ih =>
    have hindex : index < payload.length := by
      by_contra hend
      rw [List.drop_eq_nil_of_le (by omega)] at hrest
      cases hrest
    rw [List.drop_eq_getElem_cons hindex] at hrest
    obtain ⟨hbyte, hnext⟩ := List.cons.inj hrest
    unfold decode_varint_loop
    dsimp only
    rw [dif_pos hindex, hbyte, and_low, or_shift hvalue (by omega)]
    by_cases hlast : byte &&& 0x80 = 0
    · rw [if_pos hlast, Except.ok.injEq, Prod.mk.injEq]
      rw [and_high] at hlast
      rw [Nat.mod_eq_of_lt hlast]
      constructor
      · rintro ⟨rfl, rfl⟩
        exact ⟨[byte], byte.toNat, List.prefix_append [byte] rest, rfl, .last hlast, by simp; omega, rfl⟩
      · rintro ⟨bytes, n, hprefix, rfl, hvarint, -, rfl⟩
        cases hvarint with
        | last _ =>
          obtain ⟨rfl, -⟩ := List.cons_prefix_cons.mp hprefix
          exact ⟨rfl, rfl⟩
        | more hhigh _ =>
          obtain ⟨rfl, -⟩ := List.cons_prefix_cons.mp hprefix
          omega
    · rw [if_neg hlast]
      rw [and_high, not_lt] at hlast
      have hbyte := byte.toNat_lt
      have hlow : byte.toNat % 128 = byte.toNat - 128 := by omega
      by_cases hlarge : 7 * k + 7 ≥ 64
      · rw [if_pos hlarge]
        constructor
        · intro h
          cases h
        · rintro ⟨bytes, n, hprefix, -, hvarint, hlength, -⟩
          cases hvarint with
          | last hlow' =>
            obtain ⟨rfl, -⟩ := List.cons_prefix_cons.mp hprefix
            omega
          | more _ hmore =>
            have := hmore.length_pos
            rw [List.length_cons] at hlength
            omega
      · -- the groups so far fit, so that the next one stands above them
        have hgroup : (byte.toNat - 128) * 2 ^ (7 * k) + value < 2 ^ (7 * (k + 1)) := by
          calc (byte.toNat - 128) * 2 ^ (7 * k) + value
              < (byte.toNat - 128) * 2 ^ (7 * k) + 2 ^ (7 * k) := by omega
            _ = (byte.toNat - 128 + 1) * 2 ^ (7 * k) := by rw [Nat.add_mul, Nat.one_mul]
            _ ≤ 128 * 2 ^ (7 * k) := Nat.mul_le_mul_right _ (by omega)
            _ = 2 ^ (7 * (k + 1)) := by rw [Nat.mul_add 7 k 1, Nat.pow_add, Nat.mul_comm]
        have hpow : 2 ^ (7 * (k + 1)) < 2 ^ 64 := Nat.pow_lt_pow_right (by decide) (by omega)
        have hcut : (byte.toNat - 128) * 2 ^ (7 * k) % 2 ^ 64 = (byte.toNat - 128) * 2 ^ (7 * k) :=
          Nat.mod_eq_of_lt (by omega)
        have hsum : ∀ n, value + (byte.toNat - 128 + 128 * n) * 2 ^ (7 * k) % 2 ^ 64 =
            value + (byte.toNat - 128) * 2 ^ (7 * k) + n * 2 ^ (7 * (k + 1)) % 2 ^ 64 := by
          intro n
          have hsplit : (byte.toNat - 128 + 128 * n) * 2 ^ (7 * k) =
              (byte.toNat - 128) * 2 ^ (7 * k) + n * 2 ^ (7 * (k + 1)) := by
            rw [Nat.add_mul, Nat.mul_add 7 k 1, Nat.pow_add]
            ring
          rw [hsplit, add_mul_mod (by omega) (by omega)]
          omega
        rw [if_neg hlarge, hlow, hcut, ← Nat.mul_add_one, ih (by omega) (by omega) hnext]
        constructor
        · rintro ⟨bytes, n, hprefix, rfl, hvarint, hlength, rfl⟩
          refine ⟨byte :: bytes, _, List.cons_prefix_cons.mpr ⟨rfl, hprefix⟩, ?_,
            .more hlast hvarint, ?_, (hsum n).symm⟩
          · rw [List.length_cons]
            omega
          · rw [List.length_cons]
            omega
        · rintro ⟨bytes, n, hprefix, rfl, hvarint, hlength, rfl⟩
          cases hvarint with
          | last hlow' =>
            obtain ⟨rfl, -⟩ := List.cons_prefix_cons.mp hprefix
            omega
          | more hhigh hmore =>
            obtain ⟨rfl, hmoreprefix⟩ := List.cons_prefix_cons.mp hprefix
            rw [List.length_cons] at hlength ⊢
            exact ⟨_, _, hmoreprefix, by omega, hmore, by omega, hsum _⟩

/-- A reader takes a varint of at most ten bytes, cut to 64 bits. -/
theorem decode_varint_iff {payload : Bytes} {index v index' : Nat} :
    decode_protobuf_varint payload index = .ok (v, index') ↔
      ∃ bytes n, bytes <+: payload.drop index ∧ index' = index + bytes.length ∧ Varint64 bytes n ∧
        v = n % 2 ^ 64 := by
  have hloop := @decode_varint_loop_iff payload index 0 0 v index' (by decide) (by decide)
  simp only [Nat.mul_zero, Nat.zero_add, Nat.pow_zero, Nat.mul_one] at hloop
  unfold decode_protobuf_varint Varint64
  rw [hloop]
  simp only [and_assoc]

/-! ## Fields -/

theorem prefix_drop {payload bytes : Bytes} {index : Nat} (h : bytes <+: payload.drop index)
    (hindex : index ≤ payload.length) : index + bytes.length ≤ payload.length := by
  have := h.length_le
  rw [List.length_drop] at this
  omega

/-- What stands at an index, and then after it. -/
theorem prefix_append_iff {payload first second : Bytes} {index : Nat} :
    first ++ second <+: payload.drop index ↔
      first <+: payload.drop index ∧ second <+: payload.drop (index + first.length) := by
  rw [← List.drop_drop]
  constructor
  · rintro ⟨rest, hrest⟩
    rw [← hrest, List.append_assoc, List.drop_left]
    exact ⟨List.prefix_append _ _, List.prefix_append _ _⟩
  · rintro ⟨⟨rest, hrest⟩, hsecond⟩
    rw [← hrest, List.drop_left] at hsecond
    rw [← hrest]
    exact List.prefix_append_right_inj _ |>.mpr hsecond

theorem skip_bytes_iff {payload : Payload} {index len index' : Nat} {field : String}
    (hindex : index ≤ payload.bytes.length) :
    skip_bytes payload.bytes index len field = .ok index' ↔
      ∃ bytes, bytes <+: payload.bytes.drop index ∧ bytes.length = len ∧
        index' = index + bytes.length := by
  have hfits := payload.fits
  unfold skip_bytes saturating_add USIZE_MAX
  dsimp only
  constructor
  · intro h
    split at h
    · cases h
    · rename_i hroom
      obtain rfl := Except.ok.inj h
      have hlength : ((payload.bytes.drop index).take len).length = len := by
        rw [List.length_take, List.length_drop]
        omega
      exact ⟨(payload.bytes.drop index).take len, List.take_prefix _ _, hlength, by omega⟩
  · rintro ⟨bytes, hprefix, rfl, rfl⟩
    have hroom := prefix_drop hprefix hindex
    rw [if_neg (by omega), Nat.min_eq_left (by omega)]

/-- What the reader skips is the content of a field. -/
theorem skip_field_iff {payload : Payload} {index wire_type index' : Nat}
    (hindex : index ≤ payload.bytes.length) :
    skip_protobuf_field payload.bytes index wire_type = .ok index' ↔
      ∃ content numbers value, content <+: payload.bytes.drop index ∧
        index' = index + content.length ∧ Content wire_type content numbers value := by
  unfold skip_protobuf_field
  split
  · simp only [bind_eq_ok, Prod.exists, decode_varint_iff, Except.ok.injEq]
    constructor
    · rintro ⟨_, _, ⟨bytes, n, hprefix, rfl, hvarint, rfl⟩, rfl⟩
      exact ⟨bytes, [n], _, hprefix, rfl, .varint hvarint⟩
    · rintro ⟨content, numbers, value, hprefix, rfl, hcontent⟩
      cases hcontent with
      | varint hvarint => exact ⟨_, _, ⟨content, _, hprefix, rfl, hvarint, rfl⟩, rfl⟩
  · rw [skip_bytes_iff hindex]
    constructor
    · rintro ⟨bytes, hprefix, hlength, rfl⟩
      exact ⟨bytes, [], none, hprefix, rfl, .fixed64 hlength⟩
    · rintro ⟨content, numbers, value, hprefix, rfl, hcontent⟩
      cases hcontent with
      | fixed64 hlength => exact ⟨content, hprefix, hlength, rfl⟩
  · simp only [bind_eq_ok, Prod.exists, decode_varint_iff]
    constructor
    · rintro ⟨_, _, ⟨len, n, hprefix, rfl, hvarint, rfl⟩, hskip⟩
      obtain ⟨bytes, hbytes, hlength, rfl⟩ :=
        (skip_bytes_iff (prefix_drop hprefix hindex)).mp hskip
      refine ⟨len ++ bytes, [n], none, prefix_append_iff.mpr ⟨ hprefix, hbytes⟩, ?_,
        .delimited hvarint hlength⟩
      rw [List.length_append, Nat.add_assoc]
    · rintro ⟨content, numbers, value, hprefix, rfl, hcontent⟩
      cases hcontent with
      | delimited hvarint hlength =>
        rename_i len bytes n
        obtain ⟨hlen, hbytes⟩ := prefix_append_iff.mp hprefix
        refine ⟨_, _, ⟨len, n, hlen, rfl, hvarint, rfl⟩, ?_⟩
        rw [skip_bytes_iff (prefix_drop hlen hindex), List.length_append]
        exact ⟨bytes, hbytes, hlength, by omega⟩
  · rw [skip_bytes_iff hindex]
    constructor
    · rintro ⟨bytes, hprefix, hlength, rfl⟩
      exact ⟨bytes, [], none, hprefix, rfl, .fixed32 hlength⟩
    · rintro ⟨content, numbers, value, hprefix, rfl, hcontent⟩
      cases hcontent with
      | fixed32 hlength => exact ⟨content, hprefix, hlength, rfl⟩
  · rename_i h0 h1 h2 h5
    constructor
    · intro h
      cases h
    · rintro ⟨content, numbers, value, -, -, hcontent⟩
      cases hcontent with
      | varint _ => exact absurd rfl h0
      | fixed64 _ => exact absurd rfl h1
      | delimited _ _ => exact absurd rfl h2
      | fixed32 _ => exact absurd rfl h5

/-- The status after a field: varints with the number one give it. -/
def GrpcHealthServingStatus.field (serving_status : GrpcHealthServingStatus) :
    Nat × Option Nat → GrpcHealthServingStatus
  | (field_number, some value) => if field_number = 1 then .from_u64 value else serving_status
  | (_, none) => serving_status

theorem decode_field_value_iff {payload : Payload} {index field_number wire_type index' : Nat}
    {serving_status serving_status' : GrpcHealthServingStatus}
    (hindex : index ≤ payload.bytes.length) :
    decode_field_value payload.bytes index field_number wire_type serving_status =
        .ok (index', serving_status') ↔
      ∃ content numbers value, content <+: payload.bytes.drop index ∧
        index' = index + content.length ∧ Content wire_type content numbers value ∧
        serving_status' = serving_status.field (field_number, value) := by
  unfold decode_field_value
  split
  · simp only [bind_eq_ok, Prod.exists, decode_varint_iff, Except.ok.injEq, Prod.mk.injEq]
    constructor
    · rintro ⟨_, _, ⟨bytes, n, hprefix, rfl, hvarint, rfl⟩, rfl, rfl⟩
      exact ⟨bytes, [n], _, hprefix, rfl, .varint hvarint, rfl⟩
    · rintro ⟨content, numbers, value, hprefix, rfl, hcontent, rfl⟩
      cases hcontent with
      | varint hvarint => exact ⟨_, _, ⟨content, _, hprefix, rfl, hvarint, rfl⟩, rfl, rfl⟩
  · rename_i hother
    simp only [bind_eq_ok, skip_field_iff hindex, Except.ok.injEq, Prod.mk.injEq]
    -- only a varint has a value
    have hsame : ∀ content numbers value, Content wire_type content numbers value →
        serving_status.field (field_number, value) = serving_status := by
      rintro content numbers value hcontent
      cases hcontent with
      | varint _ => exact if_neg fun hone => hother hone rfl
      | fixed64 _ => rfl
      | delimited _ _ => rfl
      | fixed32 _ => rfl
    constructor
    · rintro ⟨_, ⟨content, numbers, value, hprefix, rfl, hcontent⟩, rfl, rfl⟩
      exact ⟨content, numbers, value, hprefix, rfl, hcontent, (hsame _ _ _ hcontent).symm⟩
    · rintro ⟨content, numbers, value, hprefix, rfl, hcontent, rfl⟩
      exact ⟨_, ⟨content, numbers, value, hprefix, rfl, hcontent⟩, rfl, (hsame _ _ _ hcontent).symm⟩

/-- A turn of the loop reads one field. -/
theorem decode_field_iff {payload : Payload} {index index' : Nat}
    {serving_status serving_status' : GrpcHealthServingStatus}
    (hindex : index ≤ payload.bytes.length) :
    decode_field payload.bytes index serving_status = .ok (index', serving_status') ↔
      ∃ tag content n numbers value, tag ++ content <+: payload.bytes.drop index ∧
        index' = index + (tag ++ content).length ∧ Varint64 tag n ∧
        Content (n % 2 ^ 64 % 8) content numbers value ∧
        serving_status' = serving_status.field (n % 2 ^ 64 / 8, value) := by
  have hnumber : ∀ n, n >>> 3 = n / 8 := fun n => Nat.shiftRight_eq_div_pow n 3
  have htype : ∀ n, n &&& 0x07 = n % 8 := fun n => Nat.and_two_pow_sub_one_eq_mod n 3
  unfold decode_field
  simp only [bind_eq_ok, Prod.exists, decode_varint_iff, hnumber, htype]
  constructor
  · rintro ⟨_, _, ⟨tag, n, htag, rfl, hvarint, rfl⟩, hvalue⟩
    obtain ⟨content, numbers, value, hprefix, rfl, hcontent, rfl⟩ :=
      (decode_field_value_iff (prefix_drop htag hindex)).mp hvalue
    refine ⟨tag, content, n, numbers, value, prefix_append_iff.mpr ⟨htag, hprefix⟩, ?_, hvarint,
      hcontent, rfl⟩
    rw [List.length_append, Nat.add_assoc]
  · rintro ⟨tag, content, n, numbers, value, hprefix, rfl, hvarint, hcontent, rfl⟩
    obtain ⟨htag, hrest⟩ := prefix_append_iff.mp hprefix
    refine ⟨_, _, ⟨tag, n, htag, rfl, hvarint, rfl⟩, ?_⟩
    rw [decode_field_value_iff (prefix_drop htag hindex), List.length_append]
    exact ⟨content, numbers, value, hrest, by omega, hcontent, rfl⟩

/-- The index advances and stays in the payload. -/
theorem decode_field_index {payload : Payload} {index index' : Nat}
    {serving_status serving_status' : GrpcHealthServingStatus}
    (hindex : index ≤ payload.bytes.length)
    (h : decode_field payload.bytes index serving_status = .ok (index', serving_status')) :
    index < index' ∧ index' ≤ payload.bytes.length := by
  obtain ⟨tag, content, n, numbers, value, hprefix, rfl, hvarint, -⟩ := (decode_field_iff hindex).mp h
  have hpos := hvarint.1.length_pos
  refine ⟨?_, prefix_drop hprefix hindex⟩
  rw [List.length_append]
  omega

/-! ## The response -/

/-- The loop over the payload, from an index in it. -/
def decode_payload_loop (payload : Payload) (index : Nat)
    (serving_status : GrpcHealthServingStatus) : IoResult GrpcHealthServingStatus :=
  if hindex : index < payload.bytes.length then
    match hfield : decode_field payload.bytes index serving_status with
    | .error error => .error error
    | .ok (index', serving_status') => decode_payload_loop payload index' serving_status'
  else .ok serving_status
termination_by payload.bytes.length - index
decreasing_by
  have hlater := decode_field_index hindex.le hfield
  omega

def decode_grpc_health_check_response_payload (payload : Payload) :
    IoResult GrpcHealthServingStatus :=
  decode_payload_loop payload 0 .Unknown

def decode_grpc_health_check_response (body : Bytes) : IoResult (Option GrpcHealthServingStatus) :=
  if body = [] then .ok none
  else do
    let payload ← decode_grpc_frame_payload body
    let serving_status ← decode_grpc_health_check_response_payload payload
    .ok (some serving_status)

theorem decode_payload_loop_eq (payload : Payload) (index : Nat)
    (serving_status : GrpcHealthServingStatus) :
    decode_payload_loop payload index serving_status =
      if index < payload.bytes.length then do
        let (index, serving_status) ← decode_field payload.bytes index serving_status
        decode_payload_loop payload index serving_status
      else .ok serving_status := by
  conv_lhs => unfold decode_payload_loop
  split
  · split
    · rename_i hfield
      rw [hfield]
      rfl
    · rename_i hfield
      rw [hfield]
      rfl
  · rfl

/-- A payload that is not at its end is a message if it has a field in front of one. -/
theorem message_drop_iff {payload : Bytes} {index : Nat} (hmore : index < payload.length)
    {numbers : List Nat} {fields : List (Nat × Option Nat)} :
    Message (payload.drop index) numbers fields ↔
      ∃ tag content n ns value others rest, tag ++ content <+: payload.drop index ∧
        Varint64 tag n ∧ Content (n % 2 ^ 64 % 8) content ns value ∧
        Message (payload.drop (index + (tag ++ content).length)) others rest ∧
        numbers = n :: (ns ++ others) ∧ fields = (n % 2 ^ 64 / 8, value) :: rest := by
  constructor
  · intro h
    generalize hbytes : payload.drop index = bytes at h
    cases h with
    | nil =>
      rw [List.drop_eq_nil_iff] at hbytes
      omega
    | field htag hcontent hrest =>
      rename_i tag content rest n ns others value fields
      rw [← List.append_assoc] at hbytes ⊢
      have hdrop : payload.drop (index + (tag ++ content).length) = rest := by
        rw [← List.drop_drop, hbytes, List.drop_left]
      exact ⟨tag, content, n, ns, value, others, fields, List.prefix_append _ _, htag, hcontent,
        hdrop ▸ hrest, rfl, rfl⟩
  · rintro ⟨tag, content, n, ns, value, others, rest, ⟨bytes, hbytes⟩, htag, hcontent, hrest, rfl, rfl⟩
    rw [← List.drop_drop, ← hbytes, List.drop_left] at hrest
    rw [← hbytes, List.append_assoc]
    exact .field htag hcontent hrest

/-- From an index on the loop reads a message. -/
theorem decode_payload_loop_iff {payload : Payload} {index : Nat}
    {serving_status serving_status' : GrpcHealthServingStatus}
    (hindex : index ≤ payload.bytes.length) :
    decode_payload_loop payload index serving_status = .ok serving_status' ↔
      ∃ numbers fields, Message (payload.bytes.drop index) numbers fields ∧
        serving_status' = fields.foldl GrpcHealthServingStatus.field serving_status := by
  induction hleft : payload.bytes.length - index using Nat.strongRecOn
    generalizing index serving_status with
  | ind left ih =>
    rw [decode_payload_loop_eq]
    by_cases hmore : index < payload.bytes.length
    · simp only [if_pos hmore, bind_eq_ok, Prod.exists]
      constructor
      · rintro ⟨index', next, hfield, hloop⟩
        obtain ⟨hlater, hend⟩ := decode_field_index hindex hfield
        obtain ⟨others, rest, hrest, rfl⟩ := (ih _ (by omega) hend rfl).mp hloop
        obtain ⟨tag, content, n, numbers, value, hprefix, rfl, hvarint, hcontent, rfl⟩ :=
          (decode_field_iff hindex).mp hfield
        exact ⟨_, _, (message_drop_iff hmore).mpr ⟨tag, content, n, numbers, value, others, rest,
          hprefix, hvarint, hcontent, hrest, rfl, rfl⟩, rfl⟩
      · rintro ⟨numbers, fields, hmessage, rfl⟩
        obtain ⟨tag, content, n, ns, value, others, rest, hprefix, hvarint, hcontent, hrest, rfl, rfl⟩ :=
          (message_drop_iff hmore).mp hmessage
        have hfield : decode_field payload.bytes index serving_status =
            .ok (index + (tag ++ content).length, serving_status.field (n % 2 ^ 64 / 8, value)) :=
          (decode_field_iff hindex).mpr
            ⟨tag, content, n, ns, value, hprefix, rfl, hvarint, hcontent, rfl⟩
        obtain ⟨hlater, hend⟩ := decode_field_index hindex hfield
        exact ⟨_, _, hfield, (ih _ (by omega) hend rfl).mpr ⟨others, rest, hrest, rfl⟩⟩
    · rw [if_neg hmore, List.drop_eq_nil_of_le (not_lt.mp hmore)]
      constructor
      · intro h
        exact ⟨[], [], .nil, (Except.ok.inj h).symm⟩
      · rintro ⟨numbers, fields, hmessage, rfl⟩
        obtain ⟨-, rfl⟩ := hmessage.unique .nil
        rfl

/-- The last varint with the field number one. -/
def serving_status_of (fields : List (Nat × Option Nat)) : GrpcHealthServingStatus :=
  match (fields.filterMap fun field => if field.1 = 1 then field.2 else none).getLast? with
  | some value => .from_u64 value
  | none => .Unknown

theorem foldl_field (fields : List (Nat × Option Nat)) :
    fields.foldl GrpcHealthServingStatus.field .Unknown = serving_status_of fields := by
  induction fields using List.reverseRecOn with
  | nil => rfl
  | append_singleton fields field ih =>
    rw [List.foldl_append, ih]
    unfold serving_status_of
    rw [List.filterMap_append]
    obtain ⟨field_number, value⟩ := field
    by_cases hone : field_number = 1
    · cases value with
      | none => simp [GrpcHealthServingStatus.field]
      | some value => simp [GrpcHealthServingStatus.field, hone]
    · cases value with
      | none => simp [GrpcHealthServingStatus.field, hone]
      | some value => simp [GrpcHealthServingStatus.field, hone]

/-- One frame that is not compressed. -/
def frame (payload : Bytes) : Bytes := 0 :: (to_be_bytes payload.length ++ payload)

theorem decode_frame_cons {flags a b c d : UInt8} {rest : Bytes} {payload : Payload} :
    decode_grpc_frame_payload (flags :: a :: b :: c :: d :: rest) = .ok payload ↔
      flags = 0 ∧ rest.length = from_be_bytes a b c d ∧ payload.bytes = rest := by
  obtain ⟨bytes, hfits⟩ := payload
  unfold decode_grpc_frame_payload
  rw [dif_neg (by simp)]
  simp only [List.getElem_cons_zero, List.getElem_cons_succ, List.length_cons, List.drop_succ_cons,
    List.drop_zero]
  by_cases hflags : flags = 0
  · rw [if_neg (not_not.mpr hflags)]
    by_cases hlength : rest.length = from_be_bytes a b c d
    · rw [dif_neg (by omega), Except.ok.injEq, Payload.mk.injEq]
      exact ⟨fun h => ⟨hflags, hlength, h.symm⟩, fun h => h.2.2.symm⟩
    · rw [dif_pos (by omega)]
      exact ⟨nofun, fun h => absurd h.2.1 hlength⟩
  · rw [if_pos hflags]
    exact ⟨nofun, fun h => absurd h.1 hflags⟩

theorem decode_frame_iff {body : Bytes} {payload : Payload} :
    decode_grpc_frame_payload body = .ok payload ↔ body = frame payload.bytes := by
  have hfits := payload.fits
  constructor
  · intro h
    match body, h with
    | flags :: a :: b :: c :: d :: rest, h =>
      obtain ⟨rfl, hlength, hbytes⟩ := decode_frame_cons.mp h
      unfold frame
      rw [hbytes, hlength, to_be_bytes_from]
      rfl
  · intro h
    rw [h]
    exact decode_frame_cons.mpr ⟨rfl, (from_be_bytes_to hfits).symm, rfl⟩

theorem decode_response_iff {body : Bytes} {serving_status : GrpcHealthServingStatus} :
    decode_grpc_health_check_response body = .ok (some serving_status) ↔
      ∃ payload : Payload, body = frame payload.bytes ∧ ∃ numbers fields,
        Message payload.bytes numbers fields ∧ serving_status = serving_status_of fields := by
  unfold decode_grpc_health_check_response
  by_cases hnone : body = []
  · rw [if_pos hnone]
    constructor
    · intro h
      cases h
    · rintro ⟨payload, hbody, -⟩
      rw [hbody] at hnone
      cases hnone
  · rw [if_neg hnone]
    simp only [bind_eq_ok, decode_frame_iff, Except.ok.injEq, Option.some.injEq,
      decode_grpc_health_check_response_payload, decode_payload_loop_iff (Nat.zero_le _),
      List.drop_zero, foldl_field]
    constructor
    · rintro ⟨payload, rfl, _, ⟨numbers, fields, hmessage, rfl⟩, rfl⟩
      exact ⟨payload, rfl, numbers, fields, hmessage, rfl⟩
    · rintro ⟨payload, rfl, numbers, fields, hmessage, rfl⟩
      exact ⟨payload, rfl, _, ⟨numbers, fields, hmessage, rfl⟩, rfl⟩

/-! ## The varints of requests -/

/-- The byte of a group that another one follows. -/
theorem more_byte (value : Nat) :
    UInt8.ofNat (value &&& 0x7f) ||| 0x80 = UInt8.ofNat (value % 128 + 128) := by
  have hlow : value &&& 0x7f = value % 128 := Nat.and_two_pow_sub_one_eq_mod value 7
  have hgroup : value % 128 < 2 ^ 7 := Nat.mod_lt _ (by decide)
  have hhigh := Nat.two_pow_add_eq_or_of_lt hgroup 1
  have hfirst : value % 128 % 2 ^ 8 = value % 128 := Nat.mod_eq_of_lt (by omega)
  have hsecond : (value % 128 + 128) % 2 ^ 8 = value % 128 + 128 := Nat.mod_eq_of_lt (by omega)
  rw [← UInt8.toNat_inj, UInt8.toNat_or, UInt8.toNat_ofNat', UInt8.toNat_ofNat', hlow, hfirst,
    hsecond, Nat.or_comm]
  exact hhigh.symm.trans (Nat.add_comm _ _)

theorem append_varint_eq (buffer : Bytes) (value : Nat) :
    append_protobuf_varint buffer value = buffer ++ varint value := by
  induction buffer, value using append_protobuf_varint.induct with
  | case1 buffer value byte value' hmore ih =>
    have hrest : value' = value / 128 := Nat.shiftRight_eq_div_pow value 7
    unfold append_protobuf_varint varint
    dsimp only
    rw [if_pos hmore, if_neg (by omega), ih, hrest, more_byte, List.append_assoc,
      List.singleton_append]
  | case2 buffer value value' hlast =>
    have hrest : value' = value / 128 := Nat.shiftRight_eq_div_pow value 7
    have hlow : value &&& 0x7f = value % 128 := Nat.and_two_pow_sub_one_eq_mod value 7
    unfold append_protobuf_varint varint
    dsimp only
    rw [if_neg hlast, if_pos (by omega), hlow, Nat.mod_eq_of_lt (by omega)]

/-- What is appended for a number is read back, whatever follows it. -/
theorem decode_append_varint {value : Nat} (hvalue : value < 2 ^ 64) (rest : Bytes) :
    decode_protobuf_varint (append_protobuf_varint [] value ++ rest) 0 =
      .ok (value, (append_protobuf_varint [] value).length) := by
  have hlength : (varint value).length ≤ 10 := @length_varint_le value 9 (by omega)
  rw [append_varint_eq, List.nil_append, decode_varint_iff]
  exact ⟨varint value, value, List.prefix_append _ _, (Nat.zero_add _).symm,
    ⟨varint_spec value, hlength⟩, (Nat.mod_eq_of_lt hvalue).symm⟩

/-- A request is one frame with a message: the name of the service, or nothing. -/
theorem encode_request_message {service : Bytes} (hlength : service.length < 2 ^ 64) :
    ∃ payload, encode_grpc_health_check_request service = frame payload ∧
      WellFormed payload (if service = [] then [] else [(1, none)]) := by
  unfold encode_grpc_health_check_request
  by_cases hservice : service = []
  · simp only [if_pos hservice]
    exact ⟨[], rfl, [], .nil, nofun⟩
  · simp only [if_neg hservice]
    have htag : Varint64 [0x0a] 10 := ⟨.last (by decide), by decide⟩
    have hvarint : Varint64 (varint service.length) service.length :=
      ⟨varint_spec _, @length_varint_le service.length 9 (by omega)⟩
    have hcontent : Content 2 (varint service.length ++ service) [service.length] none :=
      .delimited hvarint (Nat.mod_eq_of_lt hlength).symm
    have hmessage := Message.field htag hcontent .nil
    refine ⟨_, rfl, [10, service.length], ?_, ?_⟩
    · rw [append_varint_eq]
      simpa using hmessage
    · simp only [List.mem_cons, List.not_mem_nil, or_false]
      rintro n (rfl | rfl)
      · decide
      · exact hlength

/-! ## Agreement with the wire format -/

/-- The body is one frame with a message whose varints fit 64 bits, and this is its status. -/
def RespondsWith (body : Bytes) (serving_status : GrpcHealthServingStatus) : Prop :=
  ∃ payload : Payload, body = frame payload.bytes ∧ ∃ fields,
    WellFormed payload.bytes fields ∧ serving_status = serving_status_of fields

/-- No varint of a frame that the reader takes needs more than 64 bits. -/
def VarintsFit (body : Bytes) : Prop :=
  ∀ payload : Payload, body = frame payload.bytes → ∀ numbers fields,
    Message payload.bytes numbers fields → ∀ n ∈ numbers, n < 2 ^ 64

theorem frame_injective {payload payload' : Payload}
    (h : frame payload.bytes = frame payload'.bytes) : payload.bytes = payload'.bytes := by
  have hrest := (List.cons.inj h).2
  exact (List.append_inj hrest rfl).2

/-- The reader agrees with the wire format on a body exactly if all its varints fit; and a number of
64 bits is read back from what is appended for it. -/
theorem decode_agrees_iff (body : Bytes) (value : UInt64) (rest : Bytes) :
    ((∀ serving_status, decode_grpc_health_check_response body = .ok (some serving_status) ↔
        RespondsWith body serving_status) ↔ VarintsFit body) ∧
    decode_protobuf_varint (append_protobuf_varint [] value.toNat ++ rest) 0 =
      .ok (value.toNat, (append_protobuf_varint [] value.toNat).length) := by
  refine ⟨?_, decode_append_varint value.toNat_lt rest⟩
  simp only [decode_response_iff]
  constructor
  · rintro hagrees payload rfl numbers fields hmessage n hn
    obtain ⟨payload', hframe, fields', ⟨numbers', hmessage', hfit⟩, -⟩ :=
      (hagrees _).mp ⟨payload, rfl, numbers, fields, hmessage, rfl⟩
    rw [← frame_injective hframe] at hmessage'
    obtain ⟨rfl, -⟩ := hmessage.unique hmessage'
    exact hfit n hn
  · intro hfit serving_status
    constructor
    · rintro ⟨payload, hbody, numbers, fields, hmessage, rfl⟩
      exact ⟨payload, hbody, fields, ⟨numbers, hmessage, hfit payload hbody numbers fields hmessage⟩,
        rfl⟩
    · rintro ⟨payload, hbody, fields, ⟨numbers, hmessage, -⟩, rfl⟩
      exact ⟨payload, hbody, numbers, fields, hmessage, rfl⟩

/-- A field number one whose varint is `2 ^ 64 + 1`. -/
def overlong : Bytes := [0x08, 0x81, 0x80, 0x80, 0x80, 0x80, 0x80, 0x80, 0x80, 0x80, 0x02]

theorem overlong_message : Message overlong [8, 2 ^ 64 + 1] [(1, some 1)] := by
  have htag : Varint64 [0x08] 8 := ⟨.last (by decide), by decide⟩
  have hcontent : Varint64 [0x81, 0x80, 0x80, 0x80, 0x80, 0x80, 0x80, 0x80, 0x80, 0x02]
      (2 ^ 64 + 1) := by
    refine ⟨?_, by decide⟩
    have hlast : Varint [0x02] 2 := .last (by decide)
    have hzero : ∀ {bytes : Bytes} {n : Nat}, Varint bytes n → Varint (0x80 :: bytes) (128 * n) := by
      intro bytes n h
      have hmore : Varint (0x80 :: bytes) ((0x80 : UInt8).toNat - 128 + 128 * n) :=
        .more (by decide) h
      simpa using hmore
    have hrest := hzero (hzero (hzero (hzero (hzero (hzero (hzero (hzero hlast)))))))
    exact .more (by decide) hrest
  exact .field htag (.varint hcontent) .nil

/-- The reader takes it for the status that is one. -/
theorem overlong_serving :
    ¬ ∀ body serving_status, decode_grpc_health_check_response body = .ok (some serving_status) ↔
      RespondsWith body serving_status := by
  intro hagrees
  have hdecoded : decode_grpc_health_check_response (frame overlong) = .ok (some .Serving) :=
    decode_response_iff.mpr ⟨⟨overlong, by decide⟩, rfl, _, _, overlong_message, rfl⟩
  obtain ⟨payload, hframe, fields, ⟨numbers, hmessage, hfit⟩, -⟩ := (hagrees _ _).mp hdecoded
  have hsame : overlong = payload.bytes := @frame_injective ⟨overlong, by decide⟩ payload hframe
  rw [← hsame] at hmessage
  obtain ⟨rfl, -⟩ := hmessage.unique overlong_message
  exact absurd (hfit (2 ^ 64 + 1) (by simp)) (by decide)

end rginx.proxy.health
