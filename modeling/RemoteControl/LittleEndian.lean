import Mathlib.Data.Nat.Bitwise

/-! # Little-endian numbers

Unsigned numbers as byte strings of a fixed width, the lowest byte first. What does not
fit into the width is cut off, as a cast to a narrower type does. Then the same with the
highest byte first.
-/

namespace RemoteControl

/-- The lowest `width` bytes of a number. -/
def toLe : Nat → Nat → List UInt8
  | 0, _ => []
  | width + 1, n => UInt8.ofNat n :: toLe width (n / 256)

def ofLe : List UInt8 → Nat
  | [] => 0
  | b :: rest => b.toNat + 256 * ofLe rest

@[simp] theorem length_toLe (width n : Nat) : (toLe width n).length = width := by
  induction width generalizing n with
  | zero => rfl
  | succ width ih => rw [toLe, List.length_cons, ih]

theorem ofLe_toLe (width n : Nat) : ofLe (toLe width n) = n % 256 ^ width := by
  induction width generalizing n with
  | zero => rw [toLe, ofLe, Nat.pow_zero, Nat.mod_one]
  | succ width ih =>
      rw [toLe, ofLe, ih, Nat.pow_succ', Nat.mod_mul]
      rfl

variable {width n : Nat}

theorem ofLe_toLe_of_lt (fits : n < 256 ^ width) : ofLe (toLe width n) = n := by
  rw [ofLe_toLe, Nat.mod_eq_of_lt fits]

theorem ofLe_lt (bytes : List UInt8) : ofLe bytes < 256 ^ bytes.length := by
  induction bytes with
  | nil => exact Nat.one_pos
  | cons b rest ih =>
      have small := b.toNat_lt
      rw [ofLe, List.length_cons, Nat.pow_succ]
      omega

theorem toLe_ofLe (bytes : List UInt8) : toLe bytes.length (ofLe bytes) = bytes := by
  induction bytes with
  | nil => rfl
  | cons b rest ih =>
      have small := b.toNat_lt
      have low : UInt8.ofNat (ofLe (b :: rest)) = b := by
        apply UInt8.toNat.inj
        rw [UInt8.toNat_ofNat', ofLe]
        omega
      have high : ofLe (b :: rest) / 256 = ofLe rest := by
        rw [ofLe]
        omega
      rw [List.length_cons, toLe, low, high, ih]

/-- Zero bytes at the end do not count. -/
theorem ofLe_append_zeros (bytes : List UInt8) (n : Nat) :
    ofLe (bytes ++ List.replicate n 0) = ofLe bytes := by
  induction bytes with
  | nil =>
      induction n with
      | zero => rfl
      | succ n ih =>
          have first : ofLe (0 :: List.replicate n 0) = 256 * ofLe (List.replicate n 0) :=
            Nat.zero_add _
          rw [List.nil_append] at ih ⊢
          rw [List.replicate_succ, first, ih]
          rfl
  | cons b rest ih => rw [List.cons_append, ofLe, ofLe, ih]

/-- Numbers that fit into the width are told apart by their bytes. -/
theorem toLe_inj {m : Nat} (fits : n < 256 ^ width) (fits' : m < 256 ^ width) :
    toLe width n = toLe width m ↔ n = m := by
  constructor
  · intro same
    rw [← ofLe_toLe_of_lt fits, same, ofLe_toLe_of_lt fits']
  · rintro rfl
    rfl

/-- A number put together from its bytes with shifts. -/
theorem or_shiftLeft_eq_add {low high : Nat} (small : low < 2 ^ width) :
    low ||| high <<< width = low + 2 ^ width * high := by
  rw [Nat.lor_comm, ← Nat.shiftLeft_add_eq_or_of_lt small, Nat.shiftLeft_eq, Nat.add_comm,
    Nat.mul_comm]

def toBe (width n : Nat) : List UInt8 := (toLe width n).reverse

def ofBe (bytes : List UInt8) : Nat := ofLe bytes.reverse

@[simp] theorem length_toBe (width n : Nat) : (toBe width n).length = width := by simp [toBe]

theorem ofBe_toBe_of_lt (fits : n < 256 ^ width) : ofBe (toBe width n) = n := by
  rw [ofBe, toBe, List.reverse_reverse, ofLe_toLe_of_lt fits]

/-- The highest byte of a number that does without it. -/
theorem toBe_succ_of_lt (small : n < 256 ^ width) :
    toBe (width + 1) n = 0 :: toBe width n := by
  have wider : toLe (width + 1) n = toLe width n ++ [0] := by
    induction width generalizing n with
    | zero =>
        have : n = 0 := by simpa using small
        subst this
        rfl
    | succ width ih =>
        have smaller : n / 256 < 256 ^ width := by
          apply Nat.div_lt_of_lt_mul
          rwa [Nat.pow_succ'] at small
        rw [toLe, ih smaller]
        rfl
  rw [toBe, toBe, wider, List.reverse_append]
  rfl

end RemoteControl
