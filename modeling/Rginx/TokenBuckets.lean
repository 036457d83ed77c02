-- Token buckets in exact arithmetic. A bucket is refilled at a rate up to its
-- capacity, and a taker takes one token; a bucket that is full again may be
-- forgotten. When the times of the refills never go back, the takers of an
-- interval are at most the capacity and what the rate gives in it, and what
-- was forgotten in between is not seen.
import Mathlib

namespace token_buckets

variable {K : Type} [CommRing K] [LinearOrder K]

structure Bucket (K : Type) where
  tokens : K
  last : K

/-- Time that goes back counts as no time. -/
def Bucket.refill (rate capacity now : K) (bucket : Bucket K) : Bucket K :=
  ⟨min (bucket.tokens + max (now - bucket.last) 0 * rate) capacity, now⟩

/-- A request at a time, or a sweep that forgets the bucket when it is full. -/
inductive Event (K : Type)
  | check (now : K)
  | sweep (now : K)

def Event.now : Event K → K
  | .check now => now
  | .sweep now => now

/-- The bucket after an event, and whether a request was admitted by it. -/
def step (rate capacity : K) (bucket : Option (Bucket K)) : Event K → Option (Bucket K) × Bool
  | .check now =>
    let bucket := (bucket.getD ⟨capacity, now⟩).refill rate capacity now
    if bucket.tokens < 1 then (some bucket, false)
    else (some { bucket with tokens := bucket.tokens - 1 }, true)
  | .sweep now =>
    let bucket := bucket.map fun bucket => bucket.refill rate capacity now
    (bucket.filter fun bucket => bucket.tokens < capacity, false)

/-- The times of the admitted requests. -/
def admitted (rate capacity : K) (bucket : Option (Bucket K)) : List (Event K) → List K
  | [] => []
  | event :: events =>
    let (bucket, allowed) := step rate capacity bucket event
    if allowed then event.now :: admitted rate capacity bucket events
    else admitted rate capacity bucket events

/-- The bucket after the events. -/
def after (rate capacity : K) (bucket : Option (Bucket K)) (events : List (Event K)) :
    Option (Bucket K) :=
  events.foldl (fun bucket event => (step rate capacity bucket event).1) bucket

theorem after_append (rate capacity : K) (bucket : Option (Bucket K))
    (events events' : List (Event K)) :
    after rate capacity bucket (events ++ events') =
      after rate capacity (after rate capacity bucket events) events' :=
  List.foldl_append

theorem admitted_append (rate capacity : K) (bucket : Option (Bucket K))
    (events events' : List (Event K)) :
    admitted rate capacity bucket (events ++ events') =
      admitted rate capacity bucket events ++
        admitted rate capacity (after rate capacity bucket events) events' := by
  induction events generalizing bucket with
  | nil => rfl
  | cons event events ih =>
    simp only [List.cons_append, admitted, ih]
    split <;> rfl

/-- How many of the times lie in the interval. -/
def inside (t₀ t₁ : K) (times : List K) : Nat :=
  times.countP fun t => decide (t₀ ≤ t) && decide (t ≤ t₁)

/-! ## Levels -/

/-- The tokens of a bucket; a forgotten one is full. -/
def level (capacity : K) (bucket : Option (Bucket K)) : K :=
  (bucket.map Bucket.tokens).getD capacity

/-- The level lies between nothing and the capacity. -/
structure InBounds (capacity : K) (bucket : Option (Bucket K)) : Prop where
  nonneg : 0 ≤ level capacity bucket
  le : level capacity bucket ≤ capacity

/-- The level is in its bounds, and the last refill of the bucket was at `latest`. -/
structure Ok (capacity latest : K) (bucket : Option (Bucket K)) : Prop
    extends InBounds capacity bucket where
  last : ∀ b ∈ bucket, b.last = latest

section Laws

variable [IsStrictOrderedRing K] {rate capacity latest : K} {bucket : Option (Bucket K)}

/-- A refill keeps the level in its bounds, at whatever time it is. -/
theorem refill_inBounds (hrate : 0 ≤ rate) (hcapacity : 0 ≤ capacity) {b : Bucket K} (now : K)
    (hnonneg : 0 ≤ b.tokens) :
    0 ≤ (b.refill rate capacity now).tokens ∧ (b.refill rate capacity now).tokens ≤ capacity := by
  have hgain : 0 ≤ max (now - b.last) 0 * rate := mul_nonneg (le_max_right _ _) hrate
  refine ⟨le_min ?_ hcapacity, min_le_right _ _⟩
  linarith

/-- A refill at a later time adds at most what the rate gives in the time between. -/
theorem refill_gain {b : Bucket K} {now : K} (hlast : b.last ≤ now) :
    (b.refill rate capacity now).tokens ≤ b.tokens + (now - b.last) * rate := by
  have hmax : max (now - b.last) 0 = now - b.last := max_eq_left (sub_nonneg.mpr hlast)
  simp only [Bucket.refill, hmax]
  exact min_le_left _ _

omit [IsStrictOrderedRing K] in
theorem sweep_some (rate capacity : K) (b : Bucket K) (now : K) :
    step rate capacity (some b) (.sweep now) =
      (if (b.refill rate capacity now).tokens < capacity then some (b.refill rate capacity now)
        else none, false) := by
  by_cases hkept : (b.refill rate capacity now).tokens < capacity
  · simp [step, hkept]
  · rw [if_neg hkept]
    simpa [step] using hkept

theorem step_inBounds (hrate : 0 ≤ rate) (hcapacity : 0 ≤ capacity)
    (h : InBounds capacity bucket) (event : Event K) :
    InBounds capacity (step rate capacity bucket event).1 := by
  cases event with
  | check now =>
    have hstart : 0 ≤ (bucket.getD ⟨capacity, now⟩).tokens := by
      cases bucket with
      | none => exact hcapacity
      | some b => exact h.nonneg
    obtain ⟨hnonneg, hle⟩ := refill_inBounds hrate hcapacity now hstart
    unfold step
    dsimp only
    split
    · exact ⟨hnonneg, hle⟩
    · rename_i hfull
      rw [not_lt] at hfull
      refine ⟨?_, ?_⟩
      · simpa [level] using hfull
      · simp only [level, Option.map_some, Option.getD_some]
        linarith
  | sweep now =>
    cases bucket with
    | none => exact ⟨hcapacity, le_rfl⟩
    | some b =>
      obtain ⟨hnonneg, hle⟩ := refill_inBounds hrate hcapacity now h.nonneg
      rw [sweep_some]
      dsimp only
      split
      · exact ⟨hnonneg, hle⟩
      · exact ⟨hcapacity, le_rfl⟩

theorem after_inBounds (hrate : 0 ≤ rate) (hcapacity : 0 ≤ capacity)
    (h : InBounds capacity bucket) (events : List (Event K)) :
    InBounds capacity (after rate capacity bucket events) := by
  induction events generalizing bucket with
  | nil => exact h
  | cons event events ih => exact ih (step_inBounds hrate hcapacity h event)

/-- What an event adds to the level and to the number of admitted requests, together. -/
structure StepBound (rate capacity latest : K) (bucket bucket' : Option (Bucket K))
    (allowed : Bool) (now : K) : Prop where
  ok : Ok capacity now bucket'
  le_capacity : (if allowed then 1 else 0) + level capacity bucket' ≤ capacity
  le_gain : (if allowed then 1 else 0) + level capacity bucket' ≤
    level capacity bucket + (now - latest) * rate

theorem check_bound (hrate : 0 ≤ rate) (hcapacity : 0 ≤ capacity) (h : Ok capacity latest bucket)
    {now : K} (hnow : latest ≤ now) :
    StepBound rate capacity latest bucket (step rate capacity bucket (.check now)).1
      (step rate capacity bucket (.check now)).2 now := by
  have hbounds := step_inBounds hrate hcapacity h.toInBounds (.check now)
  have hle : ((bucket.getD ⟨capacity, now⟩).refill rate capacity now).tokens ≤ capacity :=
    min_le_right _ _
  -- A forgotten bucket is a full one that was refilled just now.
  have hgain : ((bucket.getD ⟨capacity, now⟩).refill rate capacity now).tokens ≤
      level capacity bucket + (now - latest) * rate := by
    cases bucket with
    | none =>
      have : 0 ≤ (now - latest) * rate := mul_nonneg (sub_nonneg.mpr hnow) hrate
      refine hle.trans ?_
      simpa [level] using this
    | some b =>
      obtain rfl := h.last b rfl
      exact refill_gain hnow
  refine ⟨⟨hbounds, ?_⟩, ?_, ?_⟩
  · unfold step
    dsimp only
    split <;> simp [Bucket.refill]
  · unfold step
    dsimp only
    split <;> simpa [level] using hle
  · unfold step
    dsimp only
    split <;> simpa [level] using hgain

theorem sweep_bound (hrate : 0 ≤ rate) (hcapacity : 0 ≤ capacity) (h : Ok capacity latest bucket)
    {now : K} (hnow : latest ≤ now) :
    StepBound rate capacity latest bucket (step rate capacity bucket (.sweep now)).1
      (step rate capacity bucket (.sweep now)).2 now := by
  have hbounds := step_inBounds hrate hcapacity h.toInBounds (.sweep now)
  have hpassed : 0 ≤ (now - latest) * rate := mul_nonneg (sub_nonneg.mpr hnow) hrate
  cases bucket with
  | none =>
    refine ⟨⟨hbounds, by simp [step]⟩, ?_, ?_⟩
    · simp [step, level]
    · simpa [step, level] using hpassed
  | some b =>
    obtain rfl := h.last b rfl
    have hgain : (b.refill rate capacity now).tokens ≤ b.tokens + (now - b.last) * rate :=
      refill_gain hnow
    have hle : (b.refill rate capacity now).tokens ≤ capacity := min_le_right _ _
    rw [sweep_some] at hbounds ⊢
    dsimp only at hbounds ⊢
    by_cases hkept : (b.refill rate capacity now).tokens < capacity
    · rw [if_pos hkept] at hbounds ⊢
      exact ⟨⟨hbounds, by simp [Bucket.refill]⟩, by simpa [level] using hle,
        by simpa [level] using hgain⟩
    · have hfull : (b.refill rate capacity now).tokens = capacity :=
        le_antisymm hle (not_lt.mp hkept)
      rw [if_neg hkept] at hbounds ⊢
      rw [hfull] at hgain
      exact ⟨⟨hbounds, by simp⟩, by simp [level], by simpa [level] using hgain⟩

theorem step_bound (hrate : 0 ≤ rate) (hcapacity : 0 ≤ capacity) (h : Ok capacity latest bucket)
    (event : Event K) (hnow : latest ≤ event.now) :
    StepBound rate capacity latest bucket (step rate capacity bucket event).1
      (step rate capacity bucket event).2 event.now := by
  cases event with
  | check now => exact check_bound hrate hcapacity h hnow
  | sweep now => exact sweep_bound hrate hcapacity h hnow

/-- The requests that were admitted in the interval so far, and the tokens that are left, come
from the capacity and from the time of the interval that has passed. -/
structure Bounded (rate capacity t₀ t₁ latest : K) (count : Nat)
    (bucket : Option (Bucket K)) : Prop where
  before : latest < t₀ → count = 0
  during : t₀ ≤ latest → latest ≤ t₁ →
    count + level capacity bucket ≤ capacity + (latest - t₀) * rate
  after : t₁ < latest → count ≤ capacity + (t₁ - t₀) * rate

theorem Bounded.le {t₀ t₁ : K} {count : Nat} (hrate : 0 ≤ rate) (hcapacity : 0 ≤ capacity)
    (hinterval : t₀ ≤ t₁) (hok : Ok capacity latest bucket)
    (h : Bounded rate capacity t₀ t₁ latest count bucket) :
    count ≤ capacity + (t₁ - t₀) * rate := by
  have hspan : 0 ≤ (t₁ - t₀) * rate := mul_nonneg (sub_nonneg.mpr hinterval) hrate
  rcases lt_or_ge latest t₀ with hbefore | hfrom
  · rw [h.before hbefore, Nat.cast_zero]
    linarith
  · rcases le_or_gt latest t₁ with hto | hafter
    · have hsum := h.during hfrom hto
      have hpart : (latest - t₀) * rate ≤ (t₁ - t₀) * rate := by gcongr
      have hlevel := hok.nonneg
      linarith
    · exact h.after hafter

theorem Bounded.step {t₀ t₁ : K} {count : Nat} (hrate : 0 ≤ rate) (hcapacity : 0 ≤ capacity)
    (hinterval : t₀ ≤ t₁) (hok : Ok capacity latest bucket)
    (h : Bounded rate capacity t₀ t₁ latest count bucket) {bucket' : Option (Bucket K)}
    {allowed : Bool} {now : K} (hnow : latest ≤ now)
    (hstep : StepBound rate capacity latest bucket bucket' allowed now) :
    Bounded rate capacity t₀ t₁ now
      (count + if allowed ∧ t₀ ≤ now ∧ now ≤ t₁ then 1 else 0) bucket' := by
  refine ⟨?_, ?_, ?_⟩
  · intro hbefore
    rw [h.before (hnow.trans_lt hbefore)]
    simp [not_le.mpr hbefore]
  · intro hfrom hto
    have hcast : ((count + if allowed ∧ t₀ ≤ now ∧ now ≤ t₁ then 1 else 0 : Nat) : K) =
        count + if allowed then 1 else 0 := by
      cases allowed <;> simp [hfrom, hto]
    rw [hcast, add_assoc]
    have hpassed : 0 ≤ (now - t₀) * rate := mul_nonneg (sub_nonneg.mpr hfrom) hrate
    rcases lt_or_ge latest t₀ with hbefore | hlatest
    · have hle := hstep.le_capacity
      rw [h.before hbefore, Nat.cast_zero]
      linarith
    · have hsum := h.during hlatest (hnow.trans hto)
      have hgain := hstep.le_gain
      have hsplit : (latest - t₀) * rate + (now - latest) * rate = (now - t₀) * rate := by ring
      linarith
  · intro hafter
    have hnone : ¬ (allowed ∧ t₀ ≤ now ∧ now ≤ t₁) := by
      rintro ⟨-, -, hto⟩
      exact absurd hto (not_le.mpr hafter)
    rw [if_neg hnone, Nat.add_zero]
    exact h.le hrate hcapacity hinterval hok

/-- In a run whose times never go back, the requests admitted in an interval are at most the
capacity and what the rate gives in the interval. -/
theorem admitted_le (hrate : 0 ≤ rate) (hcapacity : 0 ≤ capacity) {t₀ t₁ : K}
    (hinterval : t₀ ≤ t₁) (events : List (Event K)) (latest : K)
    (hok : Ok capacity latest bucket) (count : Nat)
    (h : Bounded rate capacity t₀ t₁ latest count bucket)
    (hordered : (latest :: events.map Event.now).Pairwise (· ≤ ·)) :
    ((count + inside t₀ t₁ (admitted rate capacity bucket events) : Nat) : K) ≤
      capacity + (t₁ - t₀) * rate := by
  induction events generalizing latest bucket count with
  | nil => simpa [admitted, inside] using h.le hrate hcapacity hinterval hok
  | cons event events ih =>
    rw [List.map_cons, List.pairwise_cons] at hordered
    have hnow : latest ≤ event.now := hordered.1 _ List.mem_cons_self
    have hstep := step_bound hrate hcapacity hok event hnow
    have hnext := ih event.now hstep.ok _
      (h.step hrate hcapacity hinterval hok hnow hstep) hordered.2
    have hcount : inside t₀ t₁ (admitted rate capacity bucket (event :: events)) =
        (if (token_buckets.step rate capacity bucket event).2 ∧ t₀ ≤ event.now ∧ event.now ≤ t₁
          then 1 else 0) +
          inside t₀ t₁ (admitted rate capacity
            (token_buckets.step rate capacity bucket event).1 events) := by
      unfold inside
      rw [admitted]
      rcases token_buckets.step rate capacity bucket event with ⟨bucket', _ | _⟩
      · simp
      · simp [List.countP_cons, add_comm]
    rw [hcount, ← Nat.add_assoc]
    exact hnext

/-- Before its first event, a bucket has admitted nothing. -/
theorem Bounded.start (hrate : 0 ≤ rate) (hcapacity : 0 ≤ capacity) {t₀ t₁ : K}
    (hinterval : t₀ ≤ t₁) (hok : Ok capacity latest bucket) :
    Bounded rate capacity t₀ t₁ latest 0 bucket := by
  refine ⟨fun _ => rfl, ?_, ?_⟩
  · intro hfrom _
    have hpassed : 0 ≤ (latest - t₀) * rate := mul_nonneg (sub_nonneg.mpr hfrom) hrate
    have hle := hok.le
    rw [Nat.cast_zero]
    linarith
  · intro _
    have hspan : 0 ≤ (t₁ - t₀) * rate := mul_nonneg (sub_nonneg.mpr hinterval) hrate
    rw [Nat.cast_zero]
    linarith

end Laws

/-! ## Sweeps are not seen -/

def Event.isCheck : Event K → Bool
  | .check _ => true
  | .sweep _ => false

/-- The tokens that a bucket has at a time. -/
def level_at (rate capacity now : K) (bucket : Option (Bucket K)) : K :=
  ((bucket.getD ⟨capacity, now⟩).refill rate capacity now).tokens

/-- What a check does is decided by the tokens at its time. -/
theorem step_check (rate capacity : K) (bucket : Option (Bucket K)) (now : K) :
    step rate capacity bucket (.check now) =
      if level_at rate capacity now bucket < 1 then
        (some ⟨level_at rate capacity now bucket, now⟩, false)
      else (some ⟨level_at rate capacity now bucket - 1, now⟩, true) := rfl

/-- The buckets have the same tokens from a time on, and were not refilled after it. -/
structure SameFrom (rate capacity latest : K) (swept bucket : Option (Bucket K)) : Prop where
  level : ∀ now, latest ≤ now → level_at rate capacity now swept = level_at rate capacity now bucket
  last : ∀ b ∈ swept, b.last ≤ latest

section Sweeps

variable [IsStrictOrderedRing K] {rate capacity latest : K} {swept bucket : Option (Bucket K)}

variable (capacity) in
/-- Two refills are the last one. -/
theorem refill_refill (hrate : 0 ≤ rate) (b : Bucket K) {now later : K} (hlast : b.last ≤ now)
    (hnow : now ≤ later) :
    ((b.refill rate capacity now).refill rate capacity later) = b.refill rate capacity later := by
  have hfirst : max (now - b.last) 0 = now - b.last := max_eq_left (sub_nonneg.mpr hlast)
  have hsecond : max (later - now) 0 = later - now := max_eq_left (sub_nonneg.mpr hnow)
  have hboth : max (later - b.last) 0 = later - b.last :=
    max_eq_left (sub_nonneg.mpr (hlast.trans hnow))
  have hgain : 0 ≤ (later - now) * rate := mul_nonneg (sub_nonneg.mpr hnow) hrate
  have hsum : b.tokens + (now - b.last) * rate + (later - now) * rate =
      b.tokens + (later - b.last) * rate := by ring
  simp only [Bucket.refill, hfirst, hsecond, hboth, Bucket.mk.injEq, and_true]
  rcases le_total (b.tokens + (now - b.last) * rate) capacity with hle | hfull
  · rw [min_eq_left hle, hsum]
  · rw [min_eq_right hfull, min_eq_right (by linarith), min_eq_right (by linarith)]

omit [IsStrictOrderedRing K] in
theorem level_at_none (now : K) :
    level_at rate capacity now (none : Option (Bucket K)) = capacity := by
  simp [level_at, Bucket.refill]

/-- A bucket that was swept has the tokens that it would have had. -/
theorem level_at_sweep (hrate : 0 ≤ rate) (b : Bucket K) {now later : K} (hlast : b.last ≤ now)
    (hnow : now ≤ later) :
    level_at rate capacity later (step rate capacity (some b) (.sweep now)).1 =
      level_at rate capacity later (some b) := by
  have htwice := refill_refill capacity hrate b hlast hnow
  rw [sweep_some]
  split
  · simp only [level_at, Option.getD_some]
    rw [htwice]
  · rename_i hfull
    have hgain : 0 ≤ (later - now) * rate := mul_nonneg (sub_nonneg.mpr hnow) hrate
    rw [level_at_none, level_at, Option.getD_some, ← htwice]
    have hsecond : max (later - now) 0 = later - now := max_eq_left (sub_nonneg.mpr hnow)
    refine (min_eq_right ?_).symm
    change capacity ≤ (b.refill rate capacity now).tokens + max (later - now) 0 * rate
    rw [hsecond]
    rw [not_lt] at hfull
    linarith

theorem SameFrom.sweep (hrate : 0 ≤ rate) (h : SameFrom rate capacity latest swept bucket)
    {now : K} (hnow : latest ≤ now) :
    SameFrom rate capacity now (step rate capacity swept (.sweep now)).1 bucket := by
  cases swept with
  | none => exact ⟨fun later hlater => h.level later (hnow.trans hlater), nofun⟩
  | some b =>
    have hlast := (h.last b rfl).trans hnow
    refine ⟨?_, ?_⟩
    · intro later hlater
      rw [level_at_sweep hrate b hlast hlater]
      exact h.level later (hnow.trans hlater)
    · rw [sweep_some]
      intro kept hkept
      split at hkept
      · obtain rfl := Option.some.inj hkept
        exact le_rfl
      · cases hkept

omit [IsStrictOrderedRing K] in
/-- A check gives the same answer from both, and leaves the same bucket. -/
theorem SameFrom.check (h : SameFrom rate capacity latest swept bucket) {now : K}
    (hnow : latest ≤ now) :
    step rate capacity swept (.check now) = step rate capacity bucket (.check now) ∧
      SameFrom rate capacity now (step rate capacity swept (.check now)).1
        (step rate capacity bucket (.check now)).1 := by
  have hsame : step rate capacity swept (.check now) = step rate capacity bucket (.check now) := by
    rw [step_check, step_check, h.level now hnow]
  refine ⟨hsame, ?_⟩
  rw [← hsame]
  refine ⟨fun _ _ => rfl, ?_⟩
  rw [step_check]
  intro b hb
  split at hb
  · obtain rfl := Option.some.inj hb
    exact le_rfl
  · obtain rfl := Option.some.inj hb
    exact le_rfl

theorem SameFrom.after (hrate : 0 ≤ rate) (events : List (Event K))
    (h : SameFrom rate capacity latest swept bucket)
    (hordered : (latest :: events.map Event.now).Pairwise (· ≤ ·)) {now : K}
    (hnow : ∀ t ∈ latest :: events.map Event.now, t ≤ now) :
    SameFrom rate capacity now (token_buckets.after rate capacity swept events)
      (token_buckets.after rate capacity bucket (events.filter Event.isCheck)) := by
  induction events generalizing latest swept bucket with
  | nil =>
    have hlatest := hnow latest List.mem_cons_self
    exact ⟨fun later hlater => h.level later (hlatest.trans hlater),
      fun b hb => (h.last b hb).trans hlatest⟩
  | cons event events ih =>
    rw [List.map_cons, List.pairwise_cons] at hordered
    have hlater : latest ≤ event.now := hordered.1 _ List.mem_cons_self
    have hrest : ∀ t ∈ event.now :: events.map Event.now, t ≤ now :=
      fun t ht => hnow t (List.mem_cons_of_mem _ ht)
    cases event with
    | check time => exact ih (h.check hlater).2 hordered.2 hrest
    | sweep time => exact ih (h.sweep hrate hlater) hordered.2 hrest

variable (capacity) in
/-- A check after events is answered as if there had been no sweep among them. -/
theorem answer_of_unswept (hrate : 0 ≤ rate) (events : List (Event K)) {now : K}
    (hordered : (events.map Event.now ++ [now]).Pairwise (· ≤ ·)) :
    (step rate capacity (after rate capacity none events) (.check now)).2 =
      (step rate capacity (after rate capacity none (events.filter Event.isCheck))
        (.check now)).2 := by
  obtain ⟨hpast, -, hnow⟩ := List.pairwise_append.mp hordered
  have hbefore : ∀ t ∈ events.map Event.now, t ≤ now :=
    fun t ht => hnow t ht now (List.mem_singleton_self _)
  cases events with
  | nil => rfl
  | cons event events =>
    have hstart : SameFrom rate capacity event.now (none : Option (Bucket K)) none :=
      ⟨fun _ _ => rfl, nofun⟩
    have hfirst : (event.now :: (event :: events).map Event.now).Pairwise (· ≤ ·) := by
      refine List.pairwise_cons.mpr ⟨?_, hpast⟩
      intro t ht
      rcases List.mem_cons.mp ht with rfl | hrest
      · exact le_rfl
      · exact (List.pairwise_cons.mp hpast).1 t hrest
    have hall : ∀ t ∈ event.now :: (event :: events).map Event.now, t ≤ now := by
      intro t ht
      rcases List.mem_cons.mp ht with rfl | hrest
      · exact hbefore _ List.mem_cons_self
      · exact hbefore t hrest
    have hsame := hstart.after hrate (event :: events) hfirst hall
    rw [(hsame.check le_rfl).1]

end Sweeps
end token_buckets
