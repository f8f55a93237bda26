import Mathlib.Data.List.Basic

/-! # Base64

The variant with `+`, `/` and padding. Three bytes are four digits; what is left over is
padded to four. Decoding takes nothing but what encoding can give: whole groups, padding
at the end only, no bits that stand for nothing.
-/

namespace RemoteControl.Base64

/-- The digit for a number below 64, as an ASCII code. -/
def digit (n : Nat) : UInt8 :=
  if n < 26 then .ofNat (65 + n)
  else if n < 52 then .ofNat (71 + n)
  else if n < 62 then .ofNat (n - 4)
  else if n = 62 then 43 else 47

def value (c : UInt8) : Option Nat :=
  if 65 ≤ c.toNat ∧ c.toNat ≤ 90 then some (c.toNat - 65)
  else if 97 ≤ c.toNat ∧ c.toNat ≤ 122 then some (c.toNat - 71)
  else if 48 ≤ c.toNat ∧ c.toNat ≤ 57 then some (c.toNat + 4)
  else if c = 43 then some 62
  else if c = 47 then some 63 else none

/-- `=` -/
def padding : UInt8 := 61

/-- The code of `/`. -/
def slash : UInt8 := 47

def encode : List UInt8 → List UInt8
  | [] => []
  | [a] => [digit (a.toNat / 4), digit (a.toNat % 4 * 16), padding, padding]
  | [a, b] =>
      [digit (a.toNat / 4), digit (a.toNat % 4 * 16 + b.toNat / 16), digit (b.toNat % 16 * 4), padding]
  | a :: b :: c :: rest =>
      digit (a.toNat / 4) :: digit (a.toNat % 4 * 16 + b.toNat / 16) ::
        digit (b.toNat % 16 * 4 + c.toNat / 64) :: digit (c.toNat % 64) :: encode rest

/-- The last group, which may be padded. -/
def decodeLast (a b c d : UInt8) : Option (List UInt8) :=
  match value a, value b, value c, value d with
  | some a, some b, some c, some d =>
      some [.ofNat (a * 4 + b / 16), .ofNat (b % 16 * 16 + c / 4), .ofNat (c % 4 * 64 + d)]
  | some a, some b, some c, none =>
      if d = padding ∧ c % 4 = 0 then some [.ofNat (a * 4 + b / 16),
        .ofNat (b % 16 * 16 + c / 4)] else none
  | some a, some b, none, _ =>
      if c = padding ∧ d = padding ∧ b % 16 = 0 then some [.ofNat (a * 4 + b / 16)] else none
  | _, _, _, _ => none

def decode : List UInt8 → Option (List UInt8)
  | [] => some []
  | [a, b, c, d] => decodeLast a b c d
  | a :: b :: c :: d :: rest =>
      match value a, value b, value c, value d with
      | some a, some b, some c, some d =>
          (decode rest).map fun bytes =>
            .ofNat (a * 4 + b / 16) :: .ofNat (b % 16 * 16 + c / 4) :: .ofNat (c % 4 * 64 + d) :: bytes
      | _, _, _, _ => none
  | _ => none

variable {text bytes : List UInt8} {a c : UInt8} {n : Nat}

theorem value_digit (small : n < 64) : value (digit n) = some n := by
  have all : ∀ n : Fin 64, value (digit n) = some n.val := by decide
  exact all ⟨n, small⟩

theorem value_padding : value padding = none := rfl

/-- What has a value is an ASCII character. -/
theorem toNat_lt_of_value (known : value c = some n) : c.toNat < 128 := by
  unfold value at known
  split_ifs at known with _ _ _ plus slash_
  · omega
  · omega
  · omega
  · rw [plus]; decide
  · rw [slash_]; decide

/-- A whole group. -/
theorem decode_digits {w x y z : Nat} (w64 : w < 64) (x64 : x < 64) (y64 : y < 64) (z64 : z < 64)
    (rest : List UInt8) :
    decode (digit w :: digit x :: digit y :: digit z :: rest) =
      (decode rest).map fun bytes =>
        .ofNat (w * 4 + x / 16) :: .ofNat (x % 16 * 16 + y / 4) :: .ofNat
          (y % 4 * 64 + z) :: bytes := by
  cases rest with
  | nil =>
      simp only [decode, decodeLast, value_digit, w64, x64, y64, z64, Option.map_some]
  | cons e rest =>
      rw [decode]
      · simp only [value_digit, w64, x64, y64, z64]
      · exact List.cons_ne_nil _ _

theorem ofNat_of_eq (same : n = a.toNat) : UInt8.ofNat n = a := by
  rw [same, UInt8.ofNat_toNat]

theorem decode_encode (bytes : List UInt8) : decode (encode bytes) = some bytes := by
  induction bytes using encode.induct with
  | case1 => rfl
  | case2 a =>
      have small := a.toNat_lt
      simp only [encode, decode, decodeLast, value_digit (show a.toNat / 4 < 64 by omega),
        value_digit (show a.toNat % 4 * 16 < 64 by omega), value_padding]
      rw [if_pos ⟨trivial, trivial, by omega⟩, ofNat_of_eq (a := a) (by omega)]
  | case3 a b =>
      have small := a.toNat_lt
      have small' := b.toNat_lt
      simp only [encode, decode, decodeLast, value_digit (show a.toNat / 4 < 64 by omega),
        value_digit (show a.toNat % 4 * 16 + b.toNat / 16 < 64 by omega),
        value_digit (show b.toNat % 16 * 4 < 64 by omega), value_padding]
      rw [if_pos ⟨trivial, by omega⟩, ofNat_of_eq (a := a) (by omega), ofNat_of_eq (a := b) (by omega)]
  | case4 a b c rest ih =>
      have small := a.toNat_lt
      have small' := b.toNat_lt
      have small'' := c.toNat_lt
      rw [encode, decode_digits (by omega) (by omega) (by omega) (by omega), ih, Option.map_some,
        ofNat_of_eq (a := a) (by omega), ofNat_of_eq (a := b) (by omega),
        ofNat_of_eq (a := c) (by omega)]

theorem decodeLast_some {b d : UInt8} (decoded : decodeLast a b c d = some bytes) :
    bytes.length ≤ 4 ∧ ∀ x ∈ [a, b, c, d], x.toNat < 128 := by
  have pad : padding.toNat < 128 := by decide
  simp only [List.forall_mem_cons, List.not_mem_nil, false_implies, implies_true, and_true]
  unfold decodeLast at decoded
  split at decoded
  · rename_i va vb vc vd
    cases decoded
    exact ⟨by simp, toNat_lt_of_value va, toNat_lt_of_value vb, toNat_lt_of_value vc, toNat_lt_of_value vd⟩
  · rename_i va vb vc vd
    split_ifs at decoded with shape
    cases decoded
    rw [shape.1]
    exact ⟨by simp, toNat_lt_of_value va, toNat_lt_of_value vb, toNat_lt_of_value vc, pad⟩
  · rename_i va vb vc
    split_ifs at decoded with shape
    cases decoded
    rw [shape.1, shape.2.1]
    exact ⟨by simp, toNat_lt_of_value va, toNat_lt_of_value vb, pad, pad⟩
  · cases decoded

theorem encode_ne_nil (some_ : bytes ≠ []) : encode bytes ≠ [] := by
  intro none_
  have decoded := decode_encode bytes
  rw [none_] at decoded
  exact some_ (Option.some.inj decoded).symm

/-- What decoding comes to, group by group. -/
inductive Decodes : List UInt8 → List UInt8 → Prop where
  | nil : Decodes [] []
  | last {a b c d : UInt8} {bytes : List UInt8} (known : decodeLast a b c d = some bytes) :
      Decodes [a, b, c, d] bytes
  | group {a b c d : UInt8} {w x y z : Nat} {rest bytes : List UInt8} (va : value a = some w)
      (vb : value b = some x) (vc : value c = some y) (vd : value d = some z)
      (later : Decodes rest bytes) :
      Decodes (a :: b :: c :: d :: rest) (.ofNat (w * 4 + x / 16) :: .ofNat (x % 16 * 16 + y / 4) ::
        .ofNat (y % 4 * 64 + z) :: bytes)

theorem decodes_of_decode (decoded : decode text = some bytes) : Decodes text bytes := by
  fun_induction decode text generalizing bytes with
  | case1 =>
      cases decoded
      exact .nil
  | case2 a b c d => exact .last decoded
  | case3 a b c d rest more w x y z vd vc vb va ih =>
      obtain ⟨inner, later, rfl⟩ := Option.map_eq_some_iff.mp decoded
      exact .group va vb vc vd (ih later)
  | case4 => cases decoded
  | case5 => cases decoded

/-- What was decoded is ASCII, and no shorter than what came of it. -/
theorem decode_some (decoded : decode text = some bytes) :
    bytes.length ≤ text.length ∧ ∀ c ∈ text, c.toNat < 128 := by
  have decodes := decodes_of_decode decoded
  clear decoded
  induction decodes with
  | nil => simp
  | last known => exact decodeLast_some known
  | group va vb vc vd later ih =>
      obtain ⟨shorter, ascii⟩ := ih
      refine ⟨by simp only [List.length_cons]; omega, ?_⟩
      simp only [List.forall_mem_cons]
      exact ⟨toNat_lt_of_value va, toNat_lt_of_value vb, toNat_lt_of_value vc, toNat_lt_of_value vd,
        ascii⟩

/-- An encoding has nothing but digits and padding. -/
theorem mem_encode (member : c ∈ encode bytes) : (value c).isSome = true ∨ c = padding := by
  have isDigit {n : Nat} (small : n < 64) (same : c = digit n) : (value c).isSome = true := by
    rw [same, value_digit small]
    rfl
  induction bytes using encode.induct with
  | case1 => cases member
  | case2 a =>
      have small := a.toNat_lt
      simp only [encode, List.mem_cons, List.not_mem_nil, or_false, or_self] at member
      rcases member with first | second | pad
      · exact .inl (isDigit (by omega) first)
      · exact .inl (isDigit (by omega) second)
      · exact .inr pad
  | case3 a b =>
      have small := a.toNat_lt
      have small' := b.toNat_lt
      simp only [encode, List.mem_cons, List.not_mem_nil, or_false] at member
      rcases member with first | second | third | pad
      · exact .inl (isDigit (by omega) first)
      · exact .inl (isDigit (by omega) second)
      · exact .inl (isDigit (by omega) third)
      · exact .inr pad
  | case4 a b d rest ih =>
      have small := a.toNat_lt
      have small' := b.toNat_lt
      have small'' := d.toNat_lt
      simp only [encode, List.mem_cons] at member
      rcases member with first | second | third | fourth | later
      · exact .inl (isDigit (by omega) first)
      · exact .inl (isDigit (by omega) second)
      · exact .inl (isDigit (by omega) third)
      · exact .inl (isDigit (by omega) fourth)
      · exact ih later

theorem encode_ascii (bytes : List UInt8) : ∀ c ∈ encode bytes, c.toNat < 128 :=
  (decode_some (decode_encode bytes)).2

/-- The groups of an encoding are encodings themselves. -/
theorem drop_encode (bytes : List UInt8) (n : Nat) :
    (encode bytes).drop (4 * n) = encode (bytes.drop (3 * n)) := by
  induction bytes using encode.induct generalizing n with
  | case1 => simp [encode]
  | case2 a =>
      cases n with
      | zero => rfl
      | succ n => simp [encode, Nat.mul_succ]
  | case3 a b =>
      cases n with
      | zero => rfl
      | succ n => simp [encode, Nat.mul_succ]
  | case4 a b c rest ih =>
      cases n with
      | zero => rfl
      | succ n => simpa only [encode, Nat.mul_succ, List.drop_succ_cons] using ih n

/-- A group of four slashes stands for bytes whose bits are all set. -/
theorem eq_255_of_slashes {rest : List UInt8} (slashes : ∀ c ∈ encode (a :: rest), c = slash) :
    a = 255 := by
  have isSlash {n : Nat} (small : n < 64) (same : digit n = slash) : n = 63 := by
    have all : ∀ n : Fin 64, digit n = slash → n.val = 63 := by decide
    exact all ⟨n, small⟩ same
  have small := a.toNat_lt
  match rest with
  | [] =>
      have pad := slashes padding (by simp [encode])
      cases pad
  | [b] =>
      have pad := slashes padding (by simp [encode])
      cases pad
  | b :: c :: rest =>
      have small' := b.toNat_lt
      have first := isSlash (by omega) (slashes (digit (a.toNat / 4)) (by simp [encode]))
      have second :=
        isSlash (by omega) (slashes (digit (a.toNat % 4 * 16 + b.toNat / 16)) (by simp [encode]))
      have full : a.toNat = 255 := by omega
      rw [← UInt8.ofNat_toNat (x := a), full]
      rfl

/-- Only whole groups can be decoded. -/
theorem length_mod_of_decode (decoded : decode text = some bytes) : text.length % 4 = 0 := by
  have decodes := decodes_of_decode decoded
  clear decoded
  induction decodes with
  | nil => rfl
  | last => simp
  | group va vb vc vd later ih =>
      simp only [List.length_cons]
      omega

end RemoteControl.Base64
