import Mathlib.Algebra.Ring.Int.Defs
import Mathlib.Algebra.Ring.Nat
import Mathlib.Data.List.Basic

/-! # Version numbers

`get_version_number` of `hbb_common`, which makes one number of a version `a.b.c` or `a.b.c-p`.
Its arithmetic is that of a release build, where an overflow wraps.
-/

namespace RemoteControl.VersionNumbers

abbrev Text := List Char

/-- The digits of `parse::<i64>`, behind the sign. -/
def parseDigits (negative : Bool) (digits : Text) : Option Int64 :=
  if digits ≠ [] ∧ digits.all Char.isDigit then
    let n : Int := Nat.ofDigitChars 10 digits 0
    let n := if negative then -n else n
    if -2 ^ 63 ≤ n ∧ n < 2 ^ 63 then some (Int64.ofInt n) else none
  else none

/-- `parse::<i64>` -/
def parseI64 (s : Text) : Option Int64 :=
  match s with
  | '-' :: digits => parseDigits true digits
  | '+' :: digits => parseDigits false digits
  | digits => parseDigits false digits

/-- One turn of the loop over the components, on `n` and `last`. -/
def addComponent (sum : Int64 × Int64) (x : Text) : Int64 × Int64 :=
  let last := (parseI64 x).getD 0
  (sum.1 * 1000 + last, last)

/-- What the part in front of the first `-` comes to. -/
def mainNumber (v : Text) : Int64 :=
  let (n, last) := (v.splitOn '.').foldl addComponent (0, 0)
  n - last + last * 10

def getVersionNumber (v : Text) : Int64 :=
  let versions := v.splitOn '-'
  let n := (versions[0]?.map mainNumber).getD 0
  -- Ignore the rest
  (versions[1]?.map fun v => n + (parseI64 v).getD 0).getD n

/-- A decimal component. -/
structure Numeral where
  digits : Text
  nonempty : digits ≠ []
  decimal : digits.all Char.isDigit

namespace Numeral

variable (x : Numeral)

def value : Nat := Nat.ofDigitChars 10 x.digits 0

/-- The numeral without leading zeros. -/
def ofNat (n : Nat) : Numeral where
  digits := Nat.toDigits 10 n
  nonempty := Nat.toDigits_ne_nil
  decimal := List.all_eq_true.mpr fun _ inside =>
    Nat.isDigit_of_mem_toDigits (by decide) (by decide) inside

theorem not_mem {sign : Char} (other : sign.isDigit = false) : sign ∉ x.digits := by
  intro member
  have digit := List.all_eq_true.mp x.decimal sign member
  simp [other] at digit

/-- `parse::<i64>` reads a numeral that is in range. -/
theorem parseI64_digits (small : x.value < 2 ^ 63) : parseI64 x.digits = some (Int64.ofInt x.value) := by
  have unsigned : parseI64 x.digits = parseDigits false x.digits := by
    unfold parseI64
    split
    · next digits same => exact absurd (same ▸ List.mem_cons_self) (x.not_mem (by decide))
    · next digits same => exact absurd (same ▸ List.mem_cons_self) (x.not_mem (by decide))
    · rfl
  have range : -2 ^ 63 ≤ (x.value : Int) ∧ (x.value : Int) < 2 ^ 63 := by omega
  rw [unsigned]
  simp only [parseDigits, Bool.false_eq_true, if_false]
  rw [if_pos ⟨x.nonempty, x.decimal⟩]
  exact if_pos range

end Numeral

/-- A version `a.b.c` or `a.b.c-p`. -/
structure Version where
  a : Numeral
  b : Numeral
  c : Numeral
  p : Option Numeral

namespace Version

variable (v w : Version)

def main : Text := v.a.digits ++ '.' :: (v.b.digits ++ '.' :: v.c.digits)

def text : Text :=
  match v.p with
  | none => v.main
  | some p => v.main ++ '-' :: p.digits

/-- A patch that is missing counts as 0. -/
def patch : Nat := (v.p.map Numeral.value).getD 0

def components : List Nat := [v.a.value, v.b.value, v.c.value, v.patch]

/-- The first two components in one number. -/
def series : Nat := v.a.value * 1000 + v.b.value

/-- What the last two components come to. -/
def within : Nat := v.c.value * 10 + v.patch

def number : Nat := v.series * 1000 + v.within

/-- The components behind the first are in their ranges, and the number is an `i64`. -/
structure InRange : Prop where
  b : v.b.value < 1000
  c : v.c.value < 1000
  patch : v.patch < 10
  number : v.number < 2 ^ 63

instance : Decidable v.InRange :=
  decidable_of_iff (v.b.value < 1000 ∧ v.c.value < 1000 ∧ v.patch < 10 ∧ v.number < 2 ^ 63)
    ⟨fun ⟨b, c, patch, number⟩ => ⟨b, c, patch, number⟩,
      fun ⟨b, c, patch, number⟩ => ⟨b, c, patch, number⟩⟩

theorem splitOn_main : v.main.splitOn '.' = [v.a.digits, v.b.digits, v.c.digits] := by
  have plain (x : Numeral) : '.' ∉ x.digits := x.not_mem (by decide)
  simp [main, List.splitOn_append_cons_self_of_not_mem, List.splitOn_eq_singleton, plain]

theorem minus_not_mem_main : '-' ∉ v.main := by
  have plain (x : Numeral) : '-' ∉ x.digits := x.not_mem (by decide)
  simp [main, plain]

theorem splitOn_text : v.text.splitOn '-' = v.main :: (v.p.map Numeral.digits).toList := by
  cases same : v.p with
  | none => simp [text, same, List.splitOn_eq_singleton v.minus_not_mem_main]
  | some p =>
      have plain : '-' ∉ p.digits := p.not_mem (by decide)
      simp [text, same, List.splitOn_append_cons_self_of_not_mem v.minus_not_mem_main,
        List.splitOn_eq_singleton plain]

variable {v w : Version}

theorem mainNumber_main (range : v.InRange) :
    mainNumber v.main = Int64.ofInt (v.series * 1000 + v.c.value * 10) := by
  have := range.number
  simp only [number, series, within] at this
  have a : parseI64 v.a.digits = some (Int64.ofInt v.a.value) := v.a.parseI64_digits (by omega)
  have b : parseI64 v.b.digits = some (Int64.ofInt v.b.value) := v.b.parseI64_digits (by omega)
  have c : parseI64 v.c.digits = some (Int64.ofInt v.c.value) := v.c.parseI64_digits (by omega)
  simp only [mainNumber, splitOn_main, List.foldl_cons, List.foldl_nil, addComponent, a, b, c,
    Option.getD_some, series, Int.natCast_add, Int.natCast_mul, Int64.ofInt_add, Int64.ofInt_mul]
  -- The loop has added the last component once, and the source takes it away again.
  rw [Int64.add_sub_cancel]
  simp

theorem getVersionNumber_text (range : v.InRange) :
    getVersionNumber v.text = Int64.ofInt v.number := by
  have small := range.patch
  simp only [getVersionNumber, splitOn_text]
  cases same : v.p with
  | none => simp [number, within, patch, same, mainNumber_main range]
  | some p =>
      have patch : v.patch = p.value := by simp [Version.patch, same]
      have parsed : parseI64 p.digits = some (Int64.ofInt p.value) := p.parseI64_digits (by omega)
      simp [number, within, patch, mainNumber_main range, parsed]
      exact Int64.add_assoc _ _ _

example : getVersionNumber "1.1.10-1".toList = 1001101 := by decide

/-- The numbers compare as the sums they come to. -/
theorem getVersionNumber_lt_iff_number (range : v.InRange) (range' : w.InRange) :
    getVersionNumber v.text < getVersionNumber w.text ↔ v.number < w.number := by
  have toInt {u : Version} (range : u.InRange) : (getVersionNumber u.text).toInt = u.number := by
    have := range.number
    rw [getVersionNumber_text range]
    exact Int64.toInt_ofInt_of_le (by omega) (by omega)
  rw [Int64.lt_iff_toInt_lt, toInt range, toInt range', Int.ofNat_lt]

theorem components_lt_iff (range : v.InRange) (range' : w.InRange) :
    v.components < w.components ↔
      v.series < w.series ∨ v.series = w.series ∧ v.within < w.within := by
  have := range.b
  have := range'.b
  have := range.patch
  have := range'.patch
  simp only [components, series, within, List.cons_lt_cons_iff, List.lt_irrefl, and_false, or_false]
  omega

/-- What the last two components come to does not make up for a difference of the first two. -/
structure Apart (v w : Version) : Prop where
  below : 1000 * v.a.value + v.b.value < 1000 * w.a.value + w.b.value →
    10 * v.c.value + v.patch <
      1000 * (1000 * w.a.value + w.b.value - (1000 * v.a.value + v.b.value)) +
        (10 * w.c.value + w.patch)
  above : 1000 * w.a.value + w.b.value < 1000 * v.a.value + v.b.value →
    10 * w.c.value + w.patch ≤
      1000 * (1000 * v.a.value + v.b.value - (1000 * w.a.value + w.b.value)) +
        (10 * v.c.value + v.patch)

/-- The third component and the patch decide alone. -/
theorem apart_of_same (a : v.a.value = w.a.value) (b : v.b.value = w.b.value) : Apart v w := by
  constructor
  · omega
  · omega

/-- There is room for two digits in the place of the third component. -/
theorem apart_of_two_digits (range : v.InRange) (range' : w.InRange) (c : v.c.value < 100)
    (c' : w.c.value < 100) : Apart v w := by
  have := range.patch
  have := range'.patch
  constructor
  · omega
  · omega

theorem number_lt_iff_apart (range : v.InRange) (range' : w.InRange) :
    (v.number < w.number ↔ v.components < w.components) ↔ Apart v w := by
  rw [components_lt_iff range range']
  simp only [number, series, within]
  constructor
  · intro same
    constructor
    all_goals intro; omega
  · rintro ⟨below, above⟩
    omega

/-- The numbers order two versions as the components do, if and only if the last two components
do not outweigh the first two: there are more values of the last one than its place has room for. -/
theorem getVersionNumber_lt_iff (v w : Version) (range : v.InRange) (range' : w.InRange) :
    (getVersionNumber v.text < getVersionNumber w.text ↔ v.components < w.components) ↔ Apart v w := by
  rw [getVersionNumber_lt_iff_number range range']
  exact number_lt_iff_apart range range'

/-- `1.1.99-9` and `1.2.0`. -/
theorem getVersionNumber_lt_iff_last :
    let v : Version := ⟨.ofNat 1, .ofNat 1, .ofNat 99, some (.ofNat 9)⟩
    let w : Version := ⟨.ofNat 1, .ofNat 2, .ofNat 0, none⟩
    v.InRange ∧ w.InRange ∧
      ((getVersionNumber v.text < getVersionNumber w.text ↔ v.components < w.components) ↔
        Apart v w) :=
  ⟨by decide, by decide, getVersionNumber_lt_iff _ _ (by decide) (by decide)⟩

/-- `1.1.100` and `1.2.0` have one number. -/
theorem getVersionNumber_not_lt :
    getVersionNumber "1.1.100".toList = getVersionNumber "1.2.0".toList ∧
      ¬∀ v w : Version, v.InRange → w.InRange →
        (getVersionNumber v.text < getVersionNumber w.text ↔ v.components < w.components) := by
  refine ⟨by decide, fun ordered => ?_⟩
  have less := ordered ⟨.ofNat 1, .ofNat 1, .ofNat 100, none⟩ ⟨.ofNat 1, .ofNat 2, .ofNat 0, none⟩
    (by decide) (by decide)
  exact absurd (less.mpr (by decide)) (by decide)

end Version

end RemoteControl.VersionNumbers
