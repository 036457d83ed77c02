-- The counters of recent traffic, from `state/counters/rolling.rs`: one bucket for
-- a second, trimmed by readers and writers, and a clock that may move backwards.
import Mathlib

namespace rginx.counters

def MAX_RECENT_WINDOW_SECS : Nat := 300

/-- The buckets by second, the oldest in front. -/
structure RollingCounter where
  buckets : List (Nat × Nat)
  deriving DecidableEq

def trim_old_buckets (buckets : List (Nat × Nat)) (now_second window_secs : Nat) :
    List (Nat × Nat) :=
  let cutoff := now_second - (window_secs - 1)
  buckets.dropWhile fun bucket => bucket.1 < cutoff

def RollingCounter.increment_at (counter : RollingCounter) (second : Nat) : RollingCounter :=
  let buckets := trim_old_buckets counter.buckets second MAX_RECENT_WINDOW_SECS
  match buckets.getLast? with
  | some (bucket_second, count) =>
    if bucket_second = second then ⟨buckets.dropLast ++ [(bucket_second, count + 1)]⟩
    else if bucket_second > second then ⟨buckets.dropLast ++ [(bucket_second, count + 1)]⟩
    else ⟨buckets ++ [(second, 1)]⟩
  | none => ⟨buckets ++ [(second, 1)]⟩

/-- With the counter, which a reader trims too. -/
def RollingCounter.sum_recent (counter : RollingCounter) (now_second window_secs : Nat) :
    Nat × RollingCounter :=
  let buckets := trim_old_buckets counter.buckets now_second MAX_RECENT_WINDOW_SECS
  let cutoff := now_second - (window_secs - 1)
  (((buckets.filter fun bucket => bucket.1 ≥ cutoff).map Prod.snd).sum, ⟨buckets⟩)

inductive Call
  | increment_at (second : Nat)
  | sum_recent (now_second window_secs : Nat)
  deriving DecidableEq

def Call.second : Call → Nat
  | .increment_at second => second
  | .sum_recent now_second _ => now_second

def Call.is_increment : Call → Bool
  | .increment_at _ => true
  | .sum_recent _ _ => false

def RollingCounter.call (counter : RollingCounter) : Call → RollingCounter
  | .increment_at second => counter.increment_at second
  | .sum_recent now_second window_secs => (counter.sum_recent now_second window_secs).2

/-- A counter after its calls, one after the other. -/
def after (calls : List Call) : RollingCounter := calls.foldl RollingCounter.call ⟨[]⟩

theorem after_concat (calls : List Call) (call : Call) :
    after (calls ++ [call]) = (after calls).call call := by
  simp [after]

/-! ## One call -/

/-- The increments in the buckets whose seconds are asked for. -/
def weigh (buckets : List (Nat × Nat)) (asked : Nat → Bool) : Nat :=
  ((buckets.filter fun bucket => asked bucket.1).map Prod.snd).sum

/-- The second of the bucket that counts an increment: a newer bucket takes a late one. -/
def RollingCounter.bucket_for (counter : RollingCounter) (second : Nat) : Nat :=
  match (trim_old_buckets counter.buckets second MAX_RECENT_WINDOW_SECS).getLast? with
  | some (bucket_second, _) => max bucket_second second
  | none => second

def seconds (buckets : List (Nat × Nat)) : List Nat := buckets.map Prod.fst

/-- The buckets stand in order, and in one window. -/
structure Windowed (buckets : List (Nat × Nat)) : Prop where
  increasing : (seconds buckets).Pairwise (· < ·)
  window : ∀ older ∈ seconds buckets, ∀ newer ∈ seconds buckets,
    newer < older + MAX_RECENT_WINDOW_SECS

section OneCall

variable {buckets : List (Nat × Nat)} {counter : RollingCounter}

theorem weigh_append (front back : List (Nat × Nat)) (asked : Nat → Bool) :
    weigh (front ++ back) asked = weigh front asked + weigh back asked := by
  simp [weigh]

theorem weigh_singleton (second count : Nat) (asked : Nat → Bool) :
    weigh [(second, count)] asked = if asked second then count else 0 := by
  unfold weigh
  by_cases h : asked second <;> simp [h]

/-- A bucket is older than the window of a call, or the trim keeps it. -/
theorem lt_cutoff_iff (bucket_second second : Nat) :
    bucket_second < second - (MAX_RECENT_WINDOW_SECS - 1) ↔
      ¬ second < bucket_second + MAX_RECENT_WINDOW_SECS := by
  unfold MAX_RECENT_WINDOW_SECS
  omega

/-- In buckets that stand in order the trim leaves those that are not too old. -/
theorem trim_eq_filter (h : (seconds buckets).Pairwise (· < ·)) (second : Nat) :
    trim_old_buckets buckets second MAX_RECENT_WINDOW_SECS =
      buckets.filter fun bucket => second < bucket.1 + MAX_RECENT_WINDOW_SECS := by
  unfold trim_old_buckets
  simp only [lt_cutoff_iff]
  induction buckets with
  | nil => rfl
  | cons bucket buckets ih =>
    rw [seconds, List.map_cons, List.pairwise_cons] at h
    by_cases hold : second < bucket.1 + MAX_RECENT_WINDOW_SECS
    · rw [List.dropWhile_cons_of_neg (by simpa using hold), List.filter_cons_of_pos (by simpa using hold)]
      symm
      rw [List.cons_inj_right, List.filter_eq_self]
      intro newer hnewer
      have := h.1 newer.1 (List.mem_map_of_mem hnewer)
      simp only [decide_eq_true_eq]
      omega
    · rw [List.dropWhile_cons_of_pos (by simpa using hold), List.filter_cons_of_neg (by simpa using hold)]
      exact ih h.2

theorem weigh_trim (h : (seconds buckets).Pairwise (· < ·)) (second : Nat)
    (asked : Nat → Bool) :
    weigh (trim_old_buckets buckets second MAX_RECENT_WINDOW_SECS) asked =
      weigh buckets fun bucket_second =>
        asked bucket_second && second < bucket_second + MAX_RECENT_WINDOW_SECS := by
  rw [trim_eq_filter h]
  unfold weigh
  rw [List.filter_filter]

/-- An increment in the last bucket, or in a new one. -/
theorem increment_cases (counter : RollingCounter) (second : Nat) :
    (∃ front count,
      trim_old_buckets counter.buckets second MAX_RECENT_WINDOW_SECS =
        front ++ [(counter.bucket_for second, count)] ∧
      counter.increment_at second = ⟨front ++ [(counter.bucket_for second, count + 1)]⟩ ∧
      second ≤ counter.bucket_for second) ∨
    (counter.bucket_for second = second ∧
      (∀ bucket ∈ (trim_old_buckets counter.buckets second MAX_RECENT_WINDOW_SECS).getLast?,
        bucket.1 < second) ∧
      counter.increment_at second =
        ⟨trim_old_buckets counter.buckets second MAX_RECENT_WINDOW_SECS ++ [(second, 1)]⟩) := by
  unfold RollingCounter.increment_at RollingCounter.bucket_for
  dsimp only
  generalize trim_old_buckets counter.buckets second MAX_RECENT_WINDOW_SECS = kept
  rcases hlast : kept.getLast? with _ | ⟨bucket_second, count⟩
  · exact .inr ⟨rfl, by simp, rfl⟩
  · have hkept : kept = kept.dropLast ++ [(bucket_second, count)] := by
      obtain ⟨front, rfl⟩ := List.getLast?_eq_some_iff.mp hlast
      rw [List.dropLast_concat]
    dsimp only
    rcases Nat.lt_trichotomy bucket_second second with h | h | h
    · rw [if_neg (by omega), if_neg (by omega)]
      refine .inr ⟨by omega, ?_, rfl⟩
      rintro bucket hbucket
      obtain rfl := Option.some.inj hbucket
      exact h
    · rw [if_pos h, h, Nat.max_self]
      exact .inl ⟨kept.dropLast, count, h ▸ hkept, rfl, le_refl _⟩
    · rw [if_neg (by omega), if_pos h, Nat.max_eq_left (by omega)]
      exact .inl ⟨kept.dropLast, count, hkept, rfl, by omega⟩

theorem le_bucket_for (counter : RollingCounter) (second : Nat) :
    second ≤ counter.bucket_for second := by
  rcases increment_cases counter second with ⟨_, _, -, -, h⟩ | ⟨h, -, -⟩
  · exact h
  · exact h.ge

/-- A call counts an increment once, and drops the buckets that are too old for it. -/
theorem weigh_call (h : Windowed counter.buckets) (call : Call) (asked : Nat → Bool) :
    weigh (counter.call call).buckets asked =
      weigh counter.buckets (fun bucket_second =>
        asked bucket_second && call.second < bucket_second + MAX_RECENT_WINDOW_SECS) +
      if call.is_increment && asked (counter.bucket_for call.second) then 1 else 0 := by
  rw [← weigh_trim h.increasing]
  cases call with
  | sum_recent now_second window_secs => rfl
  | increment_at second =>
    unfold RollingCounter.call Call.is_increment Call.second
    dsimp only
    rw [Bool.true_and]
    rcases increment_cases counter second with ⟨front, count, htrim, hcall, -⟩ | ⟨hsecond, -, hcall⟩
    · rw [htrim, hcall, weigh_append, weigh_append, weigh_singleton, weigh_singleton]
      split <;> omega
    · rw [hcall, weigh_append, weigh_singleton, hsecond]

theorem trim_windowed (h : Windowed buckets) (second : Nat) :
    Windowed (trim_old_buckets buckets second MAX_RECENT_WINDOW_SECS) := by
  have hsub : (seconds (trim_old_buckets buckets second MAX_RECENT_WINDOW_SECS)).Sublist
      (seconds buckets) := (List.dropWhile_suffix _).sublist.map _
  exact ⟨h.increasing.sublist hsub,
    fun older holder newer hnewer => h.window older (hsub.subset holder) newer (hsub.subset hnewer)⟩

/-- Buckets that stand in order are not newer than the last one. -/
theorem lt_of_last_lt (h : (seconds buckets).Pairwise (· < ·)) {second : Nat}
    (hlast : ∀ bucket ∈ buckets.getLast?, bucket.1 < second) :
    ∀ bucket_second ∈ seconds buckets, bucket_second < second := by
  rcases List.eq_nil_or_concat buckets with rfl | ⟨front, last, rfl⟩
  · intro bucket_second hbucket
    cases hbucket
  · rw [List.concat_eq_append] at *
    have hend := hlast last (by simp)
    rw [seconds, List.map_append, List.map_singleton, List.pairwise_append] at h
    intro bucket_second hbucket
    rw [seconds, List.map_append, List.map_singleton, List.mem_append, List.mem_singleton] at hbucket
    rcases hbucket with hfront | rfl
    · exact (h.2.2 bucket_second hfront last.1 List.mem_cons_self).trans hend
    · exact hend

/-- A new last bucket, in the window of the others. -/
theorem windowed_concat (h : Windowed buckets) {second count : Nat}
    (hnewest : ∀ bucket_second ∈ seconds buckets, bucket_second < second)
    (hold : ∀ bucket_second ∈ seconds buckets, second < bucket_second + MAX_RECENT_WINDOW_SECS) :
    Windowed (buckets ++ [(second, count)]) := by
  have hseconds : seconds (buckets ++ [(second, count)]) = seconds buckets ++ [second] :=
    List.map_append
  constructor
  · rw [hseconds, List.pairwise_append]
    refine ⟨h.increasing, List.pairwise_singleton _ _, ?_⟩
    intro older holder newer hnewer
    rw [List.mem_singleton.mp hnewer]
    exact hnewest older holder
  · intro older holder newer hnewer
    rw [hseconds, List.mem_append, List.mem_singleton] at holder hnewer
    rcases holder with holder | rfl
    · rcases hnewer with hnewer | rfl
      · exact h.window older holder newer hnewer
      · exact hold older holder
    · rcases hnewer with hnewer | rfl
      · exact (hnewest newer hnewer).trans_le (Nat.le_add_right _ _)
      · exact Nat.lt_add_of_pos_right (by decide)

theorem call_windowed (h : Windowed counter.buckets) (call : Call) :
    Windowed (counter.call call).buckets := by
  cases call with
  | sum_recent now_second window_secs => exact trim_windowed h now_second
  | increment_at second =>
    have htrimmed := trim_windowed h second
    unfold RollingCounter.call
    dsimp only
    rcases increment_cases counter second with ⟨front, count, htrim, hcall, -⟩ | ⟨-, hlast, hcall⟩
    · rw [htrim] at htrimmed
      rw [hcall]
      -- the seconds of the buckets are what they were
      have hsame : seconds (front ++ [(counter.bucket_for second, count + 1)]) =
          seconds (front ++ [(counter.bucket_for second, count)]) := by
        simp [seconds]
      exact ⟨hsame ▸ htrimmed.increasing, hsame ▸ htrimmed.window⟩
    · rw [hcall]
      refine windowed_concat htrimmed (lt_of_last_lt htrimmed.increasing hlast) ?_
      intro bucket_second hbucket
      rw [trim_eq_filter h.increasing] at hbucket
      obtain ⟨bucket, hmem, rfl⟩ := List.mem_map.mp hbucket
      simpa using (List.mem_filter.mp hmem).2

end OneCall

/-! ## Runs of calls -/

section Runs

variable {buckets : List (Nat × Nat)} {counter : RollingCounter}

theorem after_windowed (calls : List Call) : Windowed (after calls).buckets := by
  induction calls using List.reverseRecOn with
  | nil => exact ⟨List.Pairwise.nil, nofun⟩
  | append_singleton calls call ih =>
    rw [after_concat]
    exact call_windowed ih call

/-- A bucket stands for the second of a call. -/
theorem second_of_bucket {calls : List Call} {bucket_second : Nat}
    (h : bucket_second ∈ seconds (after calls).buckets) :
    ∃ call ∈ calls, call.second = bucket_second := by
  induction calls using List.reverseRecOn with
  | nil => cases h
  | append_singleton calls call ih =>
    rw [after_concat] at h
    have htrim : ∀ second, bucket_second ∈ seconds (trim_old_buckets (after calls).buckets second
        MAX_RECENT_WINDOW_SECS) → ∃ earlier ∈ calls ++ [call], earlier.second = bucket_second := by
      intro second hkept
      have hsub := (List.dropWhile_suffix (l := (after calls).buckets) fun bucket =>
        decide (bucket.1 < second - (MAX_RECENT_WINDOW_SECS - 1))).subset
      obtain ⟨earlier, hearlier, hsecond⟩ := ih (List.map_subset _ hsub hkept)
      exact ⟨earlier, List.mem_append_left _ hearlier, hsecond⟩
    cases call with
    | sum_recent now_second window_secs => exact htrim now_second h
    | increment_at second =>
      unfold RollingCounter.call at h
      dsimp only at h
      rcases increment_cases (after calls) second with
        ⟨front, count, hkept, hcall, -⟩ | ⟨-, -, hcall⟩
      · apply htrim second
        rw [hkept]
        rw [hcall] at h
        simpa [seconds] using h
      · rw [hcall, seconds, List.map_append, List.mem_append] at h
        rcases h with hkept | hnew
        · exact htrim second hkept
        · rw [List.map_singleton, List.mem_singleton] at hnew
          exact ⟨.increment_at second, by simp, hnew.symm⟩

/-- Without a newer bucket an increment is counted in its own second. -/
theorem bucket_for_of_le {second : Nat}
    (h : ∀ bucket_second ∈ seconds counter.buckets, bucket_second ≤ second) :
    counter.bucket_for second = second := by
  rcases increment_cases counter second with ⟨front, count, htrim, -, hle⟩ | ⟨hsecond, -, -⟩
  · refine Nat.le_antisymm (h _ ?_) hle
    have hmem : (counter.bucket_for second, count) ∈
        trim_old_buckets counter.buckets second MAX_RECENT_WINDOW_SECS := by
      rw [htrim]
      simp
    exact List.mem_map_of_mem (f := Prod.fst) ((List.dropWhile_suffix _).subset hmem)
  · exact hsecond

/-- Calls in the order of their seconds: what is asked for and not too old for any of them is
counted in its own second. -/
theorem weigh_sorted {calls : List Call} (hsorted : (calls.map Call.second).Pairwise (· ≤ ·))
    {asked : Nat → Bool} (hasked : ∀ second, asked second = true →
      ∀ call ∈ calls, call.second < second + MAX_RECENT_WINDOW_SECS) :
    weigh (after calls).buckets asked =
      calls.countP fun call => call.is_increment && asked call.second := by
  induction calls using List.reverseRecOn generalizing asked with
  | nil => rfl
  | append_singleton calls call ih =>
    rw [List.map_append, List.map_singleton, List.pairwise_append] at hsorted
    obtain ⟨hearlier, -, hlast⟩ := hsorted
    have hbucket : (after calls).bucket_for call.second = call.second := by
      apply bucket_for_of_le
      intro bucket_second hmem
      obtain ⟨earlier, hcall, rfl⟩ := second_of_bucket hmem
      exact hlast _ (List.mem_map_of_mem hcall) _ List.mem_cons_self
    have hkept : (fun bucket_second =>
        asked bucket_second && decide (call.second < bucket_second + MAX_RECENT_WINDOW_SECS)) =
          asked := by
      funext bucket_second
      by_cases h : asked bucket_second = true
      · simp [h, hasked bucket_second h call (by simp)]
      · simp [h]
    rw [after_concat, weigh_call (after_windowed calls), hbucket, hkept,
      ih hearlier fun second h earlier hmem => hasked second h earlier (List.mem_append_left _ hmem),
      List.countP_append, List.countP_singleton]

/-- No call up to the `n`-th one drops the bucket that the `k`-th one is counted in. -/
def Kept (calls : List Call) (bucket_second k n : Nat) : Prop :=
  ∀ call ∈ (calls.take n).drop (k + 1), call.second < bucket_second + MAX_RECENT_WINDOW_SECS

instance (calls : List Call) (bucket_second k n : Nat) :
    Decidable (Kept calls bucket_second k n) := List.decidableBAll _ _

def is_increment_at (calls : List Call) (k : Nat) : Bool := (calls[k]?.map Call.is_increment).getD false

/-- Each increment of a run has one bucket that counts it, from its call on until a call that is
a whole window later. -/
structure CountedOnce (calls : List Call) (counted_in : Nat → Nat) : Prop where
  not_earlier : ∀ k second, calls[k]? = some (.increment_at second) → second ≤ counted_in k
  counts : ∀ n ≤ calls.length, ∀ bucket ∈ (after (calls.take n)).buckets,
    bucket.2 = (List.range n).countP fun k =>
      is_increment_at calls k && counted_in k = bucket.1 && Kept calls bucket.1 k n
  present : ∀ n ≤ calls.length, ∀ k < n, is_increment_at calls k = true →
    (counted_in k ∈ seconds (after (calls.take n)).buckets ∨ ¬ Kept calls (counted_in k) k n)

/-- The bucket of a call, where it is an increment. -/
def counted_in (calls : List Call) (k : Nat) : Nat :=
  (calls[k]?.map fun call => (after (calls.take k)).bucket_for call.second).getD 0

theorem kept_succ {calls : List Call} {bucket_second k n : Nat} (hk : k < n) (hn : n < calls.length) :
    Kept calls bucket_second k (n + 1) ↔
      Kept calls bucket_second k n ∧ calls[n].second < bucket_second + MAX_RECENT_WINDOW_SECS := by
  unfold Kept
  rw [List.take_succ_eq_append_getElem hn, List.drop_append_of_le_length (by simp; omega)]
  simp [or_imp, forall_and]

theorem kept_self (calls : List Call) (bucket_second n : Nat) :
    Kept calls bucket_second n (n + 1) := by
  unfold Kept
  rw [List.drop_eq_nil_of_le (List.length_take_le _ _)]
  exact nofun

/-- After each part of a run: the increments whose buckets are kept. -/
theorem weigh_after (calls : List Call) (asked : Nat → Bool) {n : Nat} (hn : n ≤ calls.length) :
    weigh (after (calls.take n)).buckets asked = (List.range n).countP fun k =>
      is_increment_at calls k && asked (counted_in calls k) &&
        Kept calls (counted_in calls k) k n := by
  induction n generalizing asked with
  | zero => rfl
  | succ n ih =>
    have hcall : calls[n]? = some calls[n] := List.getElem?_eq_getElem hn
    have hlast : is_increment_at calls n = calls[n].is_increment ∧
        counted_in calls n = (after (calls.take n)).bucket_for calls[n].second := by
      simp [is_increment_at, counted_in, hcall]
    rw [List.take_succ_eq_append_getElem hn, after_concat, weigh_call (after_windowed _),
      ih _ (by omega), List.range_succ, List.countP_append, List.countP_singleton, hlast.1, hlast.2]
    congr 1
    · apply List.countP_congr
      intro k hk
      have hkept := @kept_succ calls (counted_in calls k) k n (List.mem_range.mp hk) hn
      simp only [Bool.and_eq_true, decide_eq_true_eq, hkept]
      tauto
    · simp [kept_self]

theorem weigh_eq_count (h : (seconds buckets).Pairwise (· < ·)) {bucket : Nat × Nat}
    (hmem : bucket ∈ buckets) : weigh buckets (fun second => second = bucket.1) = bucket.2 := by
  induction buckets with
  | nil => cases hmem
  | cons first buckets ih =>
    rw [seconds, List.map_cons, List.pairwise_cons] at h
    rw [← List.singleton_append, weigh_append, weigh_singleton]
    rcases List.mem_cons.mp hmem with rfl | hmem
    · have hothers : weigh buckets (fun second => second = bucket.1) = 0 := by
        unfold weigh
        rw [List.filter_eq_nil_iff.mpr]
        · rfl
        · intro other hother
          have := h.1 other.1 (List.mem_map_of_mem hother)
          rw [decide_eq_true_eq]
          omega
      simp [hothers]
    · have hlater := h.1 bucket.1 (List.mem_map_of_mem hmem)
      rw [ih h.2 hmem, if_neg (by rw [decide_eq_true_eq]; omega), Nat.zero_add]

theorem mem_of_weigh_pos {second : Nat}
    (h : 0 < weigh buckets fun bucket_second => bucket_second = second) :
    second ∈ seconds buckets := by
  by_contra hnone
  unfold weigh at h
  rw [List.filter_eq_nil_iff.mpr] at h
  · cases h
  · intro bucket hbucket hsecond
    rw [decide_eq_true_eq] at hsecond
    exact hnone (List.mem_map.mpr ⟨bucket, hbucket, hsecond⟩)

theorem counted_once (calls : List Call) : CountedOnce calls (counted_in calls) := by
  refine ⟨?_, ?_, ?_⟩
  · intro k second hcall
    simp only [counted_in, hcall, Option.map_some, Option.getD_some]
    exact le_bucket_for _ _
  · intro n hn bucket hbucket
    rw [← weigh_eq_count (after_windowed _).increasing hbucket, weigh_after calls _ hn]
    apply List.countP_congr
    intro k _
    simp only [Bool.and_eq_true, decide_eq_true_eq, and_congr_right_iff, and_imp]
    intro _ hsame
    rw [hsame]
  · intro n hn k hk hincrement
    by_cases hkept : Kept calls (counted_in calls k) k n
    · refine .inl (mem_of_weigh_pos ?_)
      rw [weigh_after calls _ hn, List.countP_pos_iff]
      exact ⟨k, List.mem_range.mpr hk, by simp [hincrement, hkept]⟩
    · exact .inr hkept

theorem length_le_window (h : Windowed buckets) : buckets.length ≤ MAX_RECENT_WINDOW_SECS := by
  have hlength : buckets.length = (seconds buckets).length := by rw [seconds, List.length_map]
  rw [hlength]
  obtain ⟨hincreasing, hwindow⟩ := h
  rcases hlist : seconds buckets with _ | ⟨first, rest⟩
  · exact Nat.zero_le _
  · rw [hlist] at hincreasing hwindow
    have hnodup : (first :: rest).Nodup := hincreasing.imp fun h => Nat.ne_of_lt h
    have hsub : first :: rest ⊆ List.range' first MAX_RECENT_WINDOW_SECS := by
      intro second hsecond
      refine List.mem_range'_1.mpr ⟨?_, hwindow first List.mem_cons_self second hsecond⟩
      rcases List.mem_cons.mp hsecond with rfl | hrest
      · exact Nat.le_refl _
      · exact ((List.pairwise_cons.mp hincreasing).1 second hrest).le
    simpa using (List.subperm_of_subset hnodup hsub).length_le

/-- With a clock that does not move backwards the sum of a window is the number of its
increments; with any clock the buckets stand in order, in one window, and count each increment
once until a call that is a whole window later. -/
theorem rolling_counter_exact (calls : List Call) :
    (∀ now_second window_secs, 1 ≤ window_secs → window_secs ≤ MAX_RECENT_WINDOW_SECS →
      (calls.map Call.second ++ [now_second]).Pairwise (· ≤ ·) →
        ((after calls).sum_recent now_second window_secs).1 = calls.countP fun call =>
          call.is_increment && now_second < call.second + window_secs &&
            call.second ≤ now_second) ∧
    (seconds (after calls).buckets).Pairwise (· < ·) ∧
    (after calls).buckets.length ≤ MAX_RECENT_WINDOW_SECS ∧
    ∃ counted_in, CountedOnce calls counted_in := by
  refine ⟨?_, (after_windowed calls).increasing, length_le_window (after_windowed calls),
    counted_in calls, counted_once calls⟩
  intro now_second window_secs hpos hle hsorted
  rw [List.pairwise_append] at hsorted
  obtain ⟨hsorted, -, hnow⟩ := hsorted
  have hearlier : ∀ call ∈ calls, call.second ≤ now_second := fun call hcall =>
    hnow _ (List.mem_map_of_mem hcall) _ List.mem_cons_self
  have hsum : ((after calls).sum_recent now_second window_secs).1 =
      weigh (trim_old_buckets (after calls).buckets now_second MAX_RECENT_WINDOW_SECS)
        fun second => second ≥ now_second - (window_secs - 1) := rfl
  rw [hsum, weigh_trim (after_windowed calls).increasing, weigh_sorted hsorted]
  · apply List.countP_congr
    intro call hcall
    have := hearlier call hcall
    simp only [Bool.and_eq_true, decide_eq_true_eq, and_assoc, and_congr_right_iff]
    intro _
    omega
  · intro second hasked call hcall
    have := hearlier call hcall
    simp only [Bool.and_eq_true, decide_eq_true_eq] at hasked
    omega

/-- The clock of the test of the source, and a reader. -/
def backwards : List Call := [.increment_at 10, .increment_at 12, .increment_at 11]

example : (after backwards).buckets = [(10, 1), (12, 2)] := rfl

theorem rolling_counter_exact_at_edge :
    ((after [.increment_at 10, .increment_at 12]).sum_recent 12 2).1 = 1 :=
  (rolling_counter_exact [.increment_at 10, .increment_at 12]).1 12 2 (by decide) (by decide)
    (by decide)

end Runs

end rginx.counters
