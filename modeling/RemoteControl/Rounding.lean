import Mathlib.Data.Nat.Log
import Mathlib.Algebra.Group.Nat.Even

/-! # Rounding to significant bits

What becomes of a natural number in a binary floating-point format: the nearest number with so many
significant bits, and of two that are as near the one whose last bit is zero.
-/

namespace RemoteControl.Rounding

/-- The nearest multiple, and of two that are as near the even one. -/
def nearest (u n : Nat) : Nat :=
  if 2 * (n % u) < u ∨ 2 * (n % u) = u ∧ n / u % 2 = 0 then u * (n / u) else u * (n / u + 1)

/-- The last of the significant bits of a number. -/
def unit (p n : Nat) : Nat := 2 ^ (n.log2 + 1 - p)

def round (p n : Nat) : Nat := nearest (unit p n) n

section Nearest

variable {u m n k rest : Nat}

theorem nearest_add (small : rest < u) :
    nearest u (u * k + rest) =
      if 2 * rest < u ∨ 2 * rest = u ∧ k % 2 = 0 then u * k else u * (k + 1) := by
  have positive : 0 < u := Nat.zero_lt_of_lt small
  have remainder : (u * k + rest) % u = rest := by
    rw [Nat.mul_add_mod, Nat.mod_eq_of_lt small]
  have quotient : (u * k + rest) / u = k := by
    rw [Nat.mul_add_div positive, Nat.div_eq_of_lt small, Nat.add_zero]
  simp only [nearest, remainder, quotient]

theorem nearest_mul (positive : 0 < u) : nearest u (u * k) = u * k := by
  have exact_ := nearest_add (k := k) positive
  simpa [positive] using exact_

theorem dvd_nearest : u ∣ nearest u n := by
  unfold nearest
  split <;> exact Nat.dvd_mul_right u _

theorem mul_div_le_nearest : u * (n / u) ≤ nearest u n := by
  unfold nearest
  split
  · exact Nat.le_refl _
  · exact Nat.mul_le_mul_left u (Nat.le_succ _)

theorem nearest_le_mul_succ : nearest u n ≤ u * (n / u + 1) := by
  unfold nearest
  split
  · exact Nat.mul_le_mul_left u (Nat.le_succ _)
  · exact Nat.le_refl _

theorem nearest_mono (le : m ≤ n) : nearest u m ≤ nearest u n := by
  have quotients : m / u ≤ n / u := Nat.div_le_div_right le
  cases Nat.lt_or_eq_of_le quotients with
  | inl less =>
      calc nearest u m ≤ u * (m / u + 1) := nearest_le_mul_succ
        _ ≤ u * (n / u) := Nat.mul_le_mul_left u less
        _ ≤ nearest u n := mul_div_le_nearest
  | inr same =>
      have remainders : m % u ≤ n % u := by
        have first := Nat.div_add_mod m u
        have second := Nat.div_add_mod n u
        rw [same] at first
        omega
      have grows : u * (n / u) ≤ u * (n / u + 1) := Nat.mul_le_mul_left u (Nat.le_succ _)
      simp only [nearest, same]
      split_ifs <;> omega

/-- The distance is half a multiple at most. -/
theorem le_nearest_add (positive : 0 < u) : 2 * n ≤ 2 * nearest u n + u := by
  have parts := Nat.div_add_mod n u
  have small := Nat.mod_lt n positive
  unfold nearest
  split
  · omega
  · rw [Nat.mul_add]
    omega

theorem nearest_le_add : 2 * nearest u n ≤ 2 * n + u := by
  have parts := Nat.div_add_mod n u
  unfold nearest
  split
  · omega
  · rw [Nat.mul_add]
    omega

theorem nearest_two_mul : nearest (2 * u) (2 * n) = 2 * nearest u n := by
  simp only [nearest, Nat.mul_mod_mul_left, Nat.mul_div_mul_left n u (by decide : 0 < 2)]
  split_ifs
  · exact Nat.mul_assoc ..
  · omega
  · omega
  · exact Nat.mul_assoc ..

end Nearest

variable {p m n e k : Nat}

theorem unit_pos : 0 < unit p n := Nat.two_pow_pos _

theorem unit_le_two_pow (positive : 0 < p) (small : n < 2 ^ (p + e)) : unit p n ≤ 2 ^ e := by
  apply Nat.pow_le_pow_right (by decide)
  by_cases none_ : n = 0
  · rw [none_, Nat.log2_zero]
    omega
  · have log := (Nat.log2_lt none_).mpr small
    omega

theorem unit_of_log2 (log : n.log2 = p + e) : unit p n = 2 ^ (e + 1) := by
  unfold unit
  congr 1
  omega

theorem unit_dvd_two_pow (positive : 0 < p) : unit p n ∣ 2 ^ n.log2 := by
  apply Nat.pow_dvd_pow
  omega

theorem round_of_dvd (multiple : unit p n ∣ n) : round p n = n := by
  obtain ⟨k, same⟩ := multiple
  have exact_ : nearest (unit p n) (unit p n * k) = unit p n * k := nearest_mul unit_pos
  rw [← same] at exact_
  exact exact_

theorem round_zero : round p 0 = 0 := round_of_dvd (Nat.dvd_zero _)

/-- A power of two over the number is not passed. -/
theorem round_le_two_pow (positive : 0 < p) : round p n ≤ 2 ^ (n.log2 + 1) := by
  have multiple : unit p n ∣ 2 ^ (n.log2 + 1) :=
    Nat.dvd_trans (unit_dvd_two_pow positive) (Nat.pow_dvd_pow 2 (Nat.le_succ _))
  obtain ⟨k, same⟩ := multiple
  calc round p n ≤ nearest (unit p n) (2 ^ (n.log2 + 1)) := nearest_mono (Nat.le_of_lt Nat.lt_log2_self)
    _ = 2 ^ (n.log2 + 1) := by rw [same, nearest_mul unit_pos]

theorem two_pow_le_round (positive : 0 < p) (some_ : n ≠ 0) : 2 ^ n.log2 ≤ round p n := by
  obtain ⟨k, same⟩ := unit_dvd_two_pow (n := n) positive
  calc 2 ^ n.log2 = nearest (unit p n) (2 ^ n.log2) := by rw [same, nearest_mul unit_pos]
    _ ≤ round p n := nearest_mono (Nat.log2_self_le some_)

theorem round_mono (positive : 0 < p) (le : m ≤ n) : round p m ≤ round p n := by
  by_cases none_ : m = 0
  · rw [none_, round_zero]
    exact Nat.zero_le _
  have some_ : n ≠ 0 := by omega
  have logs : m.log2 ≤ n.log2 := (Nat.le_log2 some_).mpr (Nat.le_trans (Nat.log2_self_le none_) le)
  cases Nat.lt_or_eq_of_le logs with
  | inl less =>
      calc round p m ≤ 2 ^ (m.log2 + 1) := round_le_two_pow positive
        _ ≤ 2 ^ n.log2 := Nat.pow_le_pow_right (by decide) less
        _ ≤ round p n := two_pow_le_round positive some_
  | inr same =>
      have units : unit p m = unit p n := by simp [unit, same]
      unfold round
      rw [units]
      exact nearest_mono le

theorem round_round (positive : 0 < p) : round p (round p n) = round p n := by
  by_cases none_ : n = 0
  · rw [none_, round_zero, round_zero]
  apply round_of_dvd
  cases Nat.lt_or_eq_of_le (round_le_two_pow (n := n) positive) with
  | inl less =>
      have log : (round p n).log2 = n.log2 := by
        have least := two_pow_le_round positive none_
        have some_ : round p n ≠ 0 := Nat.ne_of_gt (Nat.lt_of_lt_of_le (Nat.two_pow_pos _) least)
        exact (Nat.log2_eq_iff some_).mpr ⟨least, less⟩
      have units : unit p (round p n) = unit p n := by simp [unit, log]
      rw [units]
      exact dvd_nearest
  | inr same =>
      rw [same]
      have own := unit_dvd_two_pow (n := 2 ^ (n.log2 + 1)) positive
      rwa [Nat.log2_two_pow] at own

theorem round_two_mul : round p (2 * n) = 2 * round p n := by
  by_cases none_ : n = 0
  · simp [none_, round_zero]
  have log : (2 * n).log2 = n.log2 + 1 := Nat.log2_two_mul none_
  by_cases long : p ≤ n.log2 + 1
  · have units : unit p (2 * n) = 2 * unit p n := by
      unfold unit
      rw [log, Nat.mul_comm, ← Nat.pow_succ]
      congr 1
      omega
    unfold round
    rw [units, nearest_two_mul]
  · have units : unit p n = 1 ∧ unit p (2 * n) = 1 := by
      unfold unit
      rw [log, Nat.sub_eq_zero_of_le (by omega), Nat.sub_eq_zero_of_le (by omega)]
      exact ⟨rfl, rfl⟩
    have own : round p n = n := round_of_dvd (units.1 ▸ Nat.one_dvd n)
    have double : round p (2 * n) = 2 * n := round_of_dvd (units.2 ▸ Nat.one_dvd (2 * n))
    rw [own, double]

/-- A number that is rounded up goes to a multiple of its last bit, within the same powers of two. -/
theorem round_up_eq (positive : 0 < p) (up : n < round p n) :
    ∃ e k, unit p n = 2 ^ (e + 1) ∧ round p n = unit p n * k ∧ 2 ^ (p - 1) < k ∧ k ≤ 2 ^ p := by
  have some_ : n ≠ 0 := by
    rintro rfl
    simp [round_zero] at up
  have long : p ≤ n.log2 := by
    by_contra short
    have whole : unit p n = 1 := by
      unfold unit
      rw [Nat.sub_eq_zero_of_le (by omega), Nat.pow_zero]
    rw [round_of_dvd (whole ▸ Nat.one_dvd n)] at up
    exact Nat.lt_irrefl n up
  obtain ⟨e, log⟩ := Nat.exists_eq_add_of_le long
  have last : unit p n = 2 ^ (e + 1) := unit_of_log2 log
  obtain ⟨k, multiple⟩ := dvd_nearest (u := unit p n) (n := n)
  refine ⟨e, k, last, multiple, ?_, ?_⟩
  · have over_ : 2 ^ n.log2 < round p n := Nat.lt_of_le_of_lt (Nat.log2_self_le some_) up
    have split : 2 ^ n.log2 = unit p n * 2 ^ (p - 1) := by
      rw [last, ← Nat.pow_add, log]
      congr 1
      omega
    have product : unit p n * 2 ^ (p - 1) < unit p n * k := by rwa [← split, ← multiple]
    exact Nat.lt_of_mul_lt_mul_left product
  · have under : round p n ≤ 2 ^ (n.log2 + 1) := round_le_two_pow positive
    have split : 2 ^ (n.log2 + 1) = unit p n * 2 ^ p := by
      rw [last, ← Nat.pow_add, log]
      congr 1
      omega
    have product : unit p n * k ≤ unit p n * 2 ^ p := by rwa [← split, ← multiple]
    exact Nat.le_of_mul_le_mul_left product unit_pos

/-- Rounding between two powers of two, where the last bit is the double of `2 ^ e`. -/
theorem round_step {j rest : Nat} (positive : 0 < p) (least : 2 ^ (p - 1) ≤ j) (most : j < 2 ^ p)
    (small : rest < 2 * 2 ^ e) :
    round p (2 * 2 ^ e * j + rest) =
      if rest < 2 ^ e ∨ rest = 2 ^ e ∧ j % 2 = 0 then 2 * 2 ^ e * j else 2 * 2 ^ e * (j + 1) := by
  have double : 2 * 2 ^ e = 2 ^ (e + 1) := by rw [Nat.pow_succ, Nat.mul_comm]
  have log : (2 * 2 ^ e * j + rest).log2 = p + e := by
    have low : 2 ^ (p + e) = 2 * 2 ^ e * 2 ^ (p - 1) := by
      rw [double, ← Nat.pow_add]
      congr 1
      omega
    have high : 2 ^ (p + e + 1) = 2 * 2 ^ e * 2 ^ p := by
      rw [double, ← Nat.pow_add]
      congr 1
      omega
    have first : 2 * 2 ^ e * 2 ^ (p - 1) ≤ 2 * 2 ^ e * j := Nat.mul_le_mul_left _ least
    have last : 2 * 2 ^ e * (j + 1) ≤ 2 * 2 ^ e * 2 ^ p := Nat.mul_le_mul_left _ most
    have some_ : 2 * 2 ^ e * j + rest ≠ 0 := by
      have positive : 0 < 2 ^ (p + e) := Nat.two_pow_pos _
      omega
    rw [Nat.mul_add] at last
    exact (Nat.log2_eq_iff some_).mpr ⟨by omega, by omega⟩
  have halves : 2 * rest < 2 * 2 ^ e ∨ 2 * rest = 2 * 2 ^ e ∧ j % 2 = 0 ↔
      rest < 2 ^ e ∨ rest = 2 ^ e ∧ j % 2 = 0 := by omega
  unfold round
  rw [unit_of_log2 log, ← double, nearest_add small]
  simp only [halves]

variable {a : Nat}

/-- The smaller number is so near that it does not draw the sum below the double of the greater one. -/
def Near (u a b : Nat) : Prop := b < a + u ∨ b = a + u ∧ b / u % 2 = 0

instance (u a b : Nat) : Decidable (Near u a b) := inferInstanceAs (Decidable (_ ∨ _))

theorem near_mul_succ (a j : Nat) (e : Nat) :
    Near (2 ^ e) a (2 ^ e * (j + 1)) ↔ 2 ^ e * j < a ∨ 2 ^ e * j = a ∧ (j + 1) % 2 = 0 := by
  unfold Near
  rw [Nat.mul_div_cancel_left _ (Nat.two_pow_pos e), Nat.mul_add]
  omega

/-- The sum with a near number is rounded to the double. -/
theorem le_round_add_of_near {j : Nat} (positive : 0 < p) (least : 2 ^ (p - 1) ≤ j) (most : j < 2 ^ p)
    (near : Near (2 ^ (e + 1)) a (2 ^ (e + 1) * (j + 1))) :
    2 * (2 ^ (e + 1) * (j + 1)) ≤ round p (a + 2 ^ (e + 1) * (j + 1)) := by
  have two : 2 ≤ 2 ^ (e + 1) := Nat.le_self_pow (Nat.succ_ne_zero e) 2
  rw [near_mul_succ] at near
  rw [← Nat.mul_assoc]
  cases near with
  | inl nearer =>
      have up : round p (2 * 2 ^ (e + 1) * j + (2 ^ (e + 1) + 1)) = 2 * 2 ^ (e + 1) * (j + 1) := by
        rw [round_step positive least most (by omega), if_neg (by omega)]
      rw [← up]
      apply round_mono positive
      rw [Nat.mul_add, Nat.mul_assoc]
      omega
  | inr tie =>
      have up : round p (2 * 2 ^ (e + 1) * j + 2 ^ (e + 1)) = 2 * 2 ^ (e + 1) * (j + 1) := by
        rw [round_step positive least most (by omega), if_neg (by omega)]
      rw [← up]
      apply round_mono positive
      rw [Nat.mul_add, Nat.mul_assoc]
      omega

/-- The sum with any other number is rounded to less than that by two last bits. -/
theorem round_add_le_of_not_near {j : Nat} (positive : 0 < p) (least : 2 ^ (p - 1) ≤ j) (most : j < 2 ^ p)
    (far : ¬Near (2 ^ (e + 1)) a (2 ^ (e + 1) * (j + 1))) :
    round p (a + 2 ^ (e + 1) * (j + 1)) ≤ 2 * (2 ^ (e + 1) * j) := by
  have two : 2 ≤ 2 ^ (e + 1) := Nat.le_self_pow (Nat.succ_ne_zero e) 2
  rw [near_mul_succ, not_or] at far
  rw [← Nat.mul_assoc]
  by_cases even : j % 2 = 0
  · have down : round p (2 * 2 ^ (e + 1) * j + 2 ^ (e + 1)) = 2 * 2 ^ (e + 1) * j := by
      rw [round_step positive least most (by omega), if_pos (.inr ⟨rfl, even⟩)]
    rw [← down]
    apply round_mono positive
    rw [Nat.mul_add, Nat.mul_assoc]
    omega
  · have down : round p (2 * 2 ^ (e + 1) * j + (2 ^ (e + 1) - 1)) = 2 * 2 ^ (e + 1) * j := by
      rw [round_step positive least most (by omega), if_pos (by omega)]
    rw [← down]
    apply round_mono positive
    rw [Nat.mul_add, Nat.mul_assoc]
    omega

/-- The mean of a number and one that is not greater, both rounded, passes the greater one exactly when
    that is rounded up and the smaller one is near. -/
theorem round_add_round_le_iff (positive : 0 < p) (le : m ≤ n) :
    round p (round p m + round p n) / 2 ≤ n ↔
      round p n ≤ n ∨ ¬Near (unit p n) (round p m) (round p n) := by
  by_cases up : n < round p n
  · obtain ⟨e, k, last, multiple, least, most⟩ := round_up_eq positive up
    obtain ⟨j, rfl⟩ : ∃ j, k = j + 1 := Nat.exists_eq_add_one.mpr (Nat.zero_lt_of_lt least)
    have distance : 2 * round p n ≤ 2 * n + unit p n := nearest_le_add
    have product : unit p n * (j + 1) = unit p n * j + unit p n := Nat.mul_succ ..
    have above : ¬round p n ≤ n := Nat.not_le.mpr up
    simp only [above, false_or]
    constructor
    · intro under near
      rw [multiple, last] at near
      have double := le_round_add_of_near positive (Nat.le_of_lt_succ least) most near
      rw [← last, ← multiple] at double
      omega
    · intro far
      rw [multiple, last] at far
      have less := round_add_le_of_not_near positive (Nat.le_of_lt_succ least) most far
      rw [← last, ← multiple] at less
      omega
  · have down : round p n ≤ n := Nat.le_of_not_lt up
    refine iff_of_true ?_ (.inl down)
    have sum : round p m + round p n ≤ 2 * n := by
      have smaller := round_mono positive le
      omega
    have double : round p (2 * n) = 2 * round p n := round_two_mul
    have bound := round_mono positive sum
    omega

end RemoteControl.Rounding
