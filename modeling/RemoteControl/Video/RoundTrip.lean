import Mathlib.Data.List.DropRight
import RemoteControl.Video.NetworkDelay

/-! # The delay beyond the round trip

What `avg_delay` of `server/video_qos.rs` gives after any history of delays, and what its estimate of the
round trip is after it.
-/

namespace RemoteControl.Video.Qos

section Window

variable {α : Type} (history : List α) (x : α) (n : Nat)

/-- A queue that drops its first element when it is full holds the end of the history. -/
theorem rtake_push :
    (if (history.rtake (n + 1)).length ≥ n + 1 then (history.rtake (n + 1)).tail
      else history.rtake (n + 1)) ++ [x] = (history ++ [x]).rtake (n + 1) := by
  have rest : (if (history.rtake (n + 1)).length ≥ n + 1 then (history.rtake (n + 1)).tail
      else history.rtake (n + 1)) = history.rtake n := by
    by_cases full : history.length ≥ n + 1
    · have long : (history.rtake (n + 1)).length ≥ n + 1 := by
        simp [List.rtake]
        omega
      rw [if_pos long, List.rtake, List.rtake, List.tail_drop]
      congr 1
      omega
    · have short : ¬(history.rtake (n + 1)).length ≥ n + 1 := by
        simp [List.rtake]
        omega
      rw [if_neg short, List.rtake, List.rtake]
      congr 1
      omega
  rw [rest, List.rtake_concat_succ]

theorem length_rtake : (history.rtake n).length = min n history.length := by
  simp [List.rtake]
  omega

end Window

theorem min?_concat (history : List Nat) (delay : Nat) :
    (history ++ [delay]).min? =
      some (match history.min? with
        | some least => if delay < least then delay else least
        | none => delay) := by
  cases history with
  | nil => rfl
  | cons first history =>
      simp only [List.cons_append, List.min?_cons', List.foldl_append, List.foldl_cons, List.foldl_nil]
      congr 1
      split <;> omega

/-- The calculator after a history. -/
def RttCalculator.summary (history : List Nat) : RttCalculator where
  minRtt := history.min?
  windowMinRtt := (history.rtake windowSamples).min?
  smoothedRtt :=
    if history.length ≥ windowSamples then
      history.min?.bind fun min_ => (history.rtake windowSamples).min?.map (newSrtt min_)
    else none
  samples := history.rtake windowSamples

theorem RttCalculator.update_summary (history : List Nat) (delay : Nat) :
    (summary history).update delay = summary (history ++ [delay]) := by
  have samples : (if (history.rtake windowSamples).length ≥ windowSamples then
      (history.rtake windowSamples).tail else history.rtake windowSamples) ++ [delay] =
        (history ++ [delay]).rtake windowSamples := rtake_push history delay 59
  obtain ⟨windowMin, least⟩ : ∃ windowMin, ((history ++ [delay]).rtake windowSamples).min? = some windowMin := by
    rw [windowSamples, List.rtake_concat_succ, min?_concat]
    exact ⟨_, rfl⟩
  have length : ((history ++ [delay]).rtake windowSamples).length = min windowSamples (history.length + 1) := by
    rw [length_rtake, List.length_append, List.length_singleton]
  have newMin := min?_concat history delay
  unfold update summary
  simp only [samples, least, length, List.length_append, List.length_singleton, RttCalculator.mk.injEq, true_and,
    and_true, Option.map_some]
  refine ⟨.trans (by cases history.min? <;> rfl) newMin.symm, ?_⟩
  by_cases full : history.length + 1 ≥ windowSamples
  · have window : min windowSamples (history.length + 1) ≥ windowSamples := by omega
    rw [newMin]
    refine (if_pos window).trans (.trans ?_ (if_pos full).symm)
    cases history.min? <;> rfl
  · have window : ¬min windowSamples (history.length + 1) ≥ windowSamples := by omega
    have before : ¬history.length ≥ windowSamples := by omega
    exact ((if_neg window).trans (if_neg before)).trans (if_neg full).symm

/-- The least number, if there is one. -/
def least (delays : List Nat) : Nat := delays.min?.getD 0

section Least

variable {history delays : List Nat} {delay : Nat}

theorem least_eq (some_ : delays ≠ []) : delays.min? = some (least delays) := by
  obtain ⟨value, known⟩ := Option.isSome_iff_exists.mp (List.isSome_min?_of_ne_nil some_)
  simp [least, known]

theorem le_least_iff (some_ : delays ≠ []) : delay ≤ least delays ↔ ∀ other ∈ delays, delay ≤ other :=
  List.le_min?_iff (least_eq some_)

theorem least_mem (some_ : delays ≠ []) : least delays ∈ delays := List.min?_mem (least_eq some_)

theorem rtake_ne_nil (some_ : history ≠ []) (n : Nat) : history.rtake (n + 1) ≠ [] := by
  have positive := List.length_pos_iff.mpr some_
  apply List.ne_nil_of_length_pos
  rw [length_rtake]
  omega

theorem mem_of_mem_rtake {n : Nat} (inside : delay ∈ history.rtake n) : delay ∈ history :=
  List.mem_of_mem_drop inside

/-- The least of the window is not below the least there ever was. -/
theorem least_le_least_rtake (some_ : history ≠ []) (n : Nat) :
    least history ≤ least (history.rtake (n + 1)) :=
  (le_least_iff some_).mp (Nat.le_refl _) _ (mem_of_mem_rtake (least_mem (rtake_ne_nil some_ n)))

end Least

namespace RttCalculator

variable {history : List Nat} {r : Nat}

/-- Without a full window the estimate is the least delay, and it is smoothed afterwards. -/
theorem getRtt_summary (known : (summary history).getRtt = some r) :
    minSamples ≤ history.length ∧
      r = if history.length ≥ windowSamples then newSrtt (least history) (least (history.rtake windowSamples))
        else least history := by
  by_cases some_ : history = []
  · subst some_
    exact absurd known nofun
  have window : (history.rtake windowSamples).min? = some (least (history.rtake windowSamples)) :=
    least_eq (rtake_ne_nil some_ 59)
  unfold getRtt summary at known
  simp only [least_eq some_, window, Option.bind_some, Option.map_some, length_rtake] at known
  by_cases full : history.length ≥ windowSamples
  · rw [if_pos full] at known ⊢
    exact ⟨Nat.le_trans (by decide) full, (Option.some_inj.mp known).symm⟩
  · rw [if_neg full] at known ⊢
    dsimp only at known
    split at known
    · exact ⟨by omega, (Option.some_inj.mp known).symm⟩
    · exact absurd known nofun

end RttCalculator

namespace UserDelay

/-- The delays of a user after a history. -/
def reached (history : List Nat) : UserDelay := history.foldl (fun d delay => d.addDelay delay) {}

theorem reached_eq (history : List Nat) :
    (reached history).rttCalculator = .summary history ∧
      (reached history).delayHistory = history.rtake (historyDelayLen + 1) := by
  induction history using List.reverseRecOn with
  | nil => exact ⟨rfl, rfl⟩
  | append_singleton history delay ih =>
      have step : reached (history ++ [delay]) = (reached history).addDelay delay := by
        simp [reached, List.foldl_append]
      rw [step]
      unfold addDelay
      simp only [ih.1, ih.2]
      exact ⟨RttCalculator.update_summary history delay, rtake_push history delay historyDelayLen⟩

/-- The delays that the average is taken of. -/
def lastDelays (history : List Nat) : List Nat := history.rtake (historyDelayLen + 1)

def average (history : List Nat) : Nat := (lastDelays history).sum / (lastDelays history).length

/-- The average of the sum in 32 bits. -/
def wrappedAverage (history : List Nat) : Nat :=
  (lastDelays history).sum % 2 ^ 32 / (lastDelays history).length

theorem avgDelay_reached {history : List Nat} {r : Nat}
    (known : (reached history).rttCalculator.getRtt = some r) :
    (reached history).avgDelay =
      if wrappedAverage history > r then wrappedAverage history - r else wrappedAverage history := by
  have enough := (RttCalculator.getRtt_summary ((reached_eq history).1 ▸ known)).1
  have positive : (reached history).delayHistory.length > 0 := by
    rw [(reached_eq history).2, length_rtake]
    simp [historyDelayLen]
    exact Nat.lt_of_lt_of_le (by decide) enough
  unfold avgDelay
  rw [if_pos positive, known, (reached_eq history).2]
  rfl

/-- What `avg_delay` should be: the average beyond the round trip, which is below the congestion when the
    delays do not change; and the round trip is no longer than any delay of the window. -/
structure Law (history : List Nat) (r : Nat) : Prop where
  beyond : (reached history).avgDelay = average history - r
  uncongested : ∀ delay, (∀ other ∈ history, other = delay) → (reached history).avgDelay < delayThreshold150Ms
  within : ∀ delay ∈ history.rtake RttCalculator.windowSamples, r ≤ delay

/-- The average exceeds the estimate, or there is nothing to subtract; a sum that does not fit in 32 bits
    must happen to give the right value. -/
def Subtracts (history : List Nat) (r : Nat) : Prop :=
  if (lastDelays history).sum < 2 ^ 32 then r < average history ∨ average history = 0
  else wrappedAverage history ≤ r ∧ wrappedAverage history = average history - r

/-- With a full window, the least delay of the window is not rounded up, or the least delay of all is far
    enough from it. -/
def Rounds (history : List Nat) : Prop :=
  let min_ := RttCalculator.asF32 (least history)
  let window := least (history.rtake RttCalculator.windowSamples)
  history.length < RttCalculator.windowSamples ∨ window = 2 ^ 32 - 1 ∨ RttCalculator.asF32 window ≤ window ∨
    ¬Rounding.Near (Rounding.unit 24 window) min_ (RttCalculator.asF32 window)

instance (history : List Nat) (r : Nat) : Decidable (Subtracts history r) := by
  unfold Subtracts
  infer_instance

instance (history : List Nat) : Decidable (Rounds history) := inferInstanceAs (Decidable (_ ∨ _))

section Laws

variable {history : List Nat} {r : Nat}

theorem lastDelays_pos (known : (reached history).rttCalculator.getRtt = some r) :
    0 < (lastDelays history).length := by
  have enough := (RttCalculator.getRtt_summary ((reached_eq history).1 ▸ known)).1
  simp only [lastDelays, length_rtake, historyDelayLen, RttCalculator.minSamples] at enough ⊢
  omega

/-- A sum that does not fit loses more than its length. -/
theorem wrappedAverage_lt (positive : 0 < (lastDelays history).length)
    (large : 2 ^ 32 ≤ (lastDelays history).sum) : wrappedAverage history < average history := by
  have short : (lastDelays history).length ≤ 3 := by
    rw [lastDelays, length_rtake]
    exact Nat.min_le_left ..
  have parts : (lastDelays history).sum % 2 ^ 32 + (lastDelays history).length ≤ (lastDelays history).sum := by
    have less : (lastDelays history).sum % 2 ^ 32 + 2 ^ 32 ≤ (lastDelays history).sum := by omega
    omega
  calc wrappedAverage history
      < (lastDelays history).sum % 2 ^ 32 / (lastDelays history).length + 1 := Nat.lt_succ_self _
    _ = ((lastDelays history).sum % 2 ^ 32 + (lastDelays history).length) / (lastDelays history).length :=
        (Nat.add_div_right _ positive).symm
    _ ≤ average history := Nat.div_le_div_right parts

theorem beyond_iff (known : (reached history).rttCalculator.getRtt = some r) :
    (reached history).avgDelay = average history - r ↔ Subtracts history r := by
  rw [avgDelay_reached known]
  unfold Subtracts
  by_cases fits : (lastDelays history).sum < 2 ^ 32
  · have same : wrappedAverage history = average history := by
      unfold wrappedAverage average
      rw [Nat.mod_eq_of_lt fits]
    rw [if_pos fits, same]
    split <;> omega
  · have less : wrappedAverage history < average history :=
      wrappedAverage_lt (lastDelays_pos known) (Nat.le_of_not_lt fits)
    rw [if_neg fits]
    split <;> omega

theorem within_iff (fits : ∀ delay ∈ history, delay < 2 ^ 32)
    (known : (reached history).rttCalculator.getRtt = some r) :
    (∀ delay ∈ history.rtake RttCalculator.windowSamples, r ≤ delay) ↔ Rounds history := by
  obtain ⟨enough, rfl⟩ := RttCalculator.getRtt_summary ((reached_eq history).1 ▸ known)
  have some_ : history ≠ [] := by
    rintro rfl
    exact absurd enough (by decide)
  have window : history.rtake RttCalculator.windowSamples ≠ [] := rtake_ne_nil some_ 59
  have smaller : least history ≤ least (history.rtake RttCalculator.windowSamples) :=
    least_le_least_rtake some_ 59
  rw [← le_least_iff window]
  unfold Rounds
  by_cases full : history.length ≥ RttCalculator.windowSamples
  · have not_short : ¬history.length < RttCalculator.windowSamples := Nat.not_lt.mpr full
    have small : least (history.rtake RttCalculator.windowSamples) < 2 ^ 32 :=
      fits _ (mem_of_mem_rtake (least_mem window))
    simp only [if_pos full, not_short, false_or]
    rw [RttCalculator.newSrtt, min_le_iff, RttCalculator.asF32, RttCalculator.asF32, RttCalculator.asF32,
      Rounding.round_add_round_le_iff (by decide) smaller, or_comm]
    have last : 2 ^ 32 - 1 ≤ least (history.rtake RttCalculator.windowSamples) ↔
        least (history.rtake RttCalculator.windowSamples) = 2 ^ 32 - 1 := by omega
    rw [last]
  · rw [if_neg full]
    exact iff_of_true smaller (.inl (Nat.lt_of_not_le full))

/-- The average and the estimate of a constant delay differ by the rounding alone. -/
theorem average_sub_le {delay : Nat} (fits : delay < 2 ^ 32) (constant : ∀ other ∈ history, other = delay)
    (known : (reached history).rttCalculator.getRtt = some r) : average history - r ≤ 128 := by
  obtain ⟨enough, rfl⟩ := RttCalculator.getRtt_summary ((reached_eq history).1 ▸ known)
  have some_ : history ≠ [] := by
    rintro rfl
    exact absurd enough (by decide)
  have all : least history = delay := constant _ (least_mem some_)
  have window : least (history.rtake RttCalculator.windowSamples) = delay :=
    constant _ (mem_of_mem_rtake (least_mem (rtake_ne_nil some_ 59)))
  have mean : average history = delay := by
    have replicated : lastDelays history = List.replicate (lastDelays history).length delay :=
      List.eq_replicate_of_mem fun other inside => constant other (mem_of_mem_rtake inside)
    unfold average
    rw [replicated, List.sum_replicate_nat, List.length_replicate, Nat.mul_div_cancel_left _ (lastDelays_pos known)]
  rw [mean, all, window]
  split
  · have near : RttCalculator.newSrtt delay delay = min (RttCalculator.asF32 delay) (2 ^ 32 - 1) := by
      have twice : Rounding.round 24 (Rounding.round 24 delay + Rounding.round 24 delay) =
          2 * Rounding.round 24 delay := by
        rw [← Nat.two_mul, Rounding.round_two_mul, Rounding.round_round (by decide)]
      rw [RttCalculator.newSrtt, RttCalculator.asF32, RttCalculator.asF32, twice,
        Nat.mul_div_cancel_left _ (by decide)]
    have distance : 2 * delay ≤ 2 * RttCalculator.asF32 delay + 2 ^ 8 :=
      Nat.le_trans (Rounding.le_nearest_add Rounding.unit_pos)
        (Nat.add_le_add_left (Rounding.unit_le_two_pow (by decide) fits) _)
    rw [near]
    omega
  · omega

/-- The delay beyond the round trip is right, and so are its estimate and its reading of a constant delay,
    exactly when the average exceeds the estimate and the estimate is not rounded up; and then the greater
    of two averages with one estimate is not the smaller delay. -/
theorem avgDelay_law_iff (other : List Nat) (fits : ∀ delay ∈ history, delay < 2 ^ 32)
    (known : (reached history).rttCalculator.getRtt = some r) :
    (Law history r ↔
        Subtracts history r ∧ Rounds history) ∧
      ((reached other).rttCalculator.getRtt = some r →
        Subtracts history r → Subtracts other r →
        average history ≤ average other →
          (reached history).avgDelay ≤ (reached other).avgDelay) := by
  constructor
  · constructor
    · intro law
      exact ⟨(beyond_iff known).mp law.beyond, (within_iff fits known).mp law.within⟩
    · intro ⟨subtracts, rounds⟩
      have beyond := (beyond_iff known).mpr subtracts
      refine ⟨beyond, ?_, (within_iff fits known).mpr rounds⟩
      intro delay constant
      have some_ := lastDelays_pos known
      obtain ⟨sample, inside⟩ := List.exists_mem_of_length_pos some_
      have inside := mem_of_mem_rtake inside
      have little := average_sub_le (constant sample inside ▸ fits sample inside) constant known
      rw [beyond]
      exact Nat.lt_of_le_of_lt little (by decide)
  · intro knownOther subtracts subtractsOther le
    rw [(beyond_iff known).mpr subtracts, (beyond_iff knownOther).mpr subtractsOther]
    exact Nat.sub_le_sub_right le r

end Laws

/-- Seven fast answers and three slow ones. -/
def slowing : List Nat := [10, 10, 10, 10, 10, 10, 10, 110, 110, 110]

theorem avgDelay_law_slowing : Law slowing 10 ∧ (reached slowing).avgDelay ≤ (reached slowing).avgDelay :=
  have laws := avgDelay_law_iff slowing (by decide) (by decide)
  ⟨laws.1.mpr ⟨by decide, by decide⟩, laws.2 (by decide) (by decide) (by decide) (Nat.le_refl _)⟩

/-- Ten delays of 200 ms: the average does not exceed the estimate, and all of it counts as congestion. -/
theorem constant_delay_congested :
    ¬∀ (history : List Nat) (r : Nat), (∀ delay ∈ history, delay < 2 ^ 32) →
      (reached history).rttCalculator.getRtt = some r → Law history r := by
  intro claimed
  have law := claimed (List.replicate 10 200) 200 (by decide) (by decide)
  exact absurd law.beyond (by decide)

end UserDelay

end RemoteControl.Video.Qos
