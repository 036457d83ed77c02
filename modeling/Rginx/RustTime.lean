-- Durations and instants of Rust's standard library on a Unix system. A duration counts its seconds
-- in `u64`; an instant counts the seconds of its clock in `i64`, from the start of the clock on. A
-- sum beyond that cannot be represented: `checked_add` gives nothing, and `+` panics.
import Mathlib

namespace rust_time

def NSEC_PER_SEC : Nat := 1000000000

structure Duration where
  secs : UInt64
  nanos : Nat
  nanos_lt : nanos < NSEC_PER_SEC

def Duration.from_secs (secs : UInt64) : Duration := ⟨secs, 0, by decide⟩

/-- `Duration::as_millis`, in `u128`. -/
def Duration.as_millis (duration : Duration) : Nat :=
  duration.secs.toNat * 1000 + duration.nanos / 1000000

def Duration.as_nanos (duration : Duration) : Nat :=
  duration.secs.toNat * NSEC_PER_SEC + duration.nanos

structure Instant where
  secs : Nat
  nanos : Nat
  secs_lt : secs < 2 ^ 63
  nanos_lt : nanos < NSEC_PER_SEC

/-- The nanoseconds since the start of the clock. -/
def Instant.as_nanos (now : Instant) : Nat := now.secs * NSEC_PER_SEC + now.nanos

/-- `Instant::checked_add`: the nanoseconds carry into the seconds. -/
def Instant.checked_add (now : Instant) (duration : Duration) : Option Instant :=
  let secs := now.secs + duration.secs.toNat
  let nanos := now.nanos + duration.nanos
  if hcarry : nanos < NSEC_PER_SEC then
    if hsecs : secs < 2 ^ 63 then some ⟨secs, nanos, hsecs, hcarry⟩ else none
  else if hsecs : secs + 1 < 2 ^ 63 then
    some ⟨secs + 1, nanos - NSEC_PER_SEC, hsecs, by
      have hnow := now.nanos_lt
      have hduration := duration.nanos_lt
      omega⟩
  else none

/-- `Instant::checked_duration_since` gives nothing for a time that is later. -/
def Instant.is_after (now earlier : Instant) : Bool := earlier.as_nanos < now.as_nanos

theorem Duration.as_millis_from_secs (secs : UInt64) :
    (Duration.from_secs secs).as_millis = secs.toNat * 1000 := by
  simp [as_millis, from_secs]

/-- The sum is exact where there is one. -/
theorem Instant.checked_add_eq_some {now later : Instant} {duration : Duration}
    (h : now.checked_add duration = some later) :
    later.as_nanos = now.as_nanos + duration.as_nanos := by
  unfold checked_add at h
  dsimp only at h
  unfold Instant.as_nanos Duration.as_nanos
  split at h
  · split at h
    · obtain rfl := Option.some.inj h
      dsimp only
      unfold NSEC_PER_SEC
      omega
    · cases h
  · rename_i hcarry
    split at h
    · obtain rfl := Option.some.inj h
      dsimp only
      unfold NSEC_PER_SEC at hcarry ⊢
      omega
    · cases h

/-- There is a sum with whole seconds exactly while the seconds fit into `i64`. -/
theorem Instant.checked_add_secs_iff (now : Instant) (secs : UInt64) :
    (now.checked_add (.from_secs secs)).isSome ↔ now.secs + secs.toNat < 2 ^ 63 := by
  have hcarry : now.nanos + (Duration.from_secs secs).nanos < NSEC_PER_SEC := now.nanos_lt
  have hsecs : (Duration.from_secs secs).secs = secs := rfl
  unfold checked_add
  dsimp only
  rw [dif_pos hcarry, hsecs]
  split
  · rename_i hfits
    exact ⟨fun _ => hfits, fun _ => rfl⟩
  · rename_i hbeyond
    exact ⟨nofun, fun hfits => absurd hfits hbeyond⟩

end rust_time
