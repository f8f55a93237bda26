import Mathlib.Data.List.Basic

/-! # UTF-8

The bytes of a text, and the text that bytes give when whatever is no character is
replaced: each longest part that could have begun one becomes one replacement character.
-/

namespace RemoteControl.Utf8

/-- The bytes of a character. -/
def encodeChar (c : Char) : List UInt8 :=
  let n := c.toNat
  if n < 0x80 then [.ofNat n]
  else if n < 0x800 then [.ofNat (0xC0 + n / 0x40), .ofNat (0x80 + n % 0x40)]
  else if n < 0x10000 then
    [.ofNat (0xE0 + n / 0x1000), .ofNat (0x80 + n / 0x40 % 0x40), .ofNat (0x80 + n % 0x40)]
  else
    [.ofNat (0xF0 + n / 0x40000), .ofNat (0x80 + n / 0x1000 % 0x40), .ofNat (0x80 + n / 0x40 % 0x40),
      .ofNat (0x80 + n % 0x40)]

/-- `as_bytes` -/
def encode (s : List Char) : List UInt8 := s.flatMap encodeChar

def isContinuation (b : Nat) : Bool := 0x80 ≤ b && b < 0xC0

/-- Which bytes may follow the first one of three or four. -/
def secondFits (first second : Nat) : Bool :=
  if first = 0xE0 then 0xA0 ≤ second && second < 0xC0
  else if first = 0xED then 0x80 ≤ second && second < 0xA0
  else if first = 0xF0 then 0x90 ≤ second && second < 0xC0
  else if first = 0xF4 then 0x80 ≤ second && second < 0x90
  else isContinuation second

/-- The character at the front, if there is one, and how many bytes it takes; otherwise
    how many bytes are replaced. -/
def front : List Nat → Option Char × Nat
  | [] => (none, 0)
  | a :: rest =>
      if a < 0x80 then (some (.ofNat a), 1)
      else if 0xC2 ≤ a ∧ a < 0xE0 then
        match rest with
        | b :: _ =>
            if isContinuation b then (some (.ofNat ((a - 0xC0) * 0x40 + (b - 0x80))), 2) else (none, 1)
        | [] => (none, 1)
      else if 0xE0 ≤ a ∧ a < 0xF0 then
        match rest with
        | b :: c :: _ =>
            if !secondFits a b then (none, 1)
            else if !isContinuation c then (none, 2)
            else (some (.ofNat ((a - 0xE0) * 0x1000 + (b - 0x80) * 0x40 + (c - 0x80))), 3)
        | [b] => (none, if secondFits a b then 2 else 1)
        | [] => (none, 1)
      else if 0xF0 ≤ a ∧ a < 0xF5 then
        match rest with
        | b :: c :: d :: _ =>
            if !secondFits a b then (none, 1)
            else if !isContinuation c then (none, 2)
            else if !isContinuation d then (none, 3)
            else
              (some (.ofNat
                ((a - 0xF0) * 0x40000 + (b - 0x80) * 0x1000 + (c - 0x80) * 0x40 + (d - 0x80))), 4)
        | [b, c] => (none, if secondFits a b then (if isContinuation c then 3 else 2) else 1)
        | [b] => (none, if secondFits a b then 2 else 1)
        | [] => (none, 1)
      else (none, 1)

/-- The bytes but the first `skip`, which are dealt with. -/
def lossy (skip : Nat) : List UInt8 → List Char
  | [] => []
  | b :: rest =>
      match skip with
      | skip + 1 => lossy skip rest
      | 0 =>
          let (c, width) := front ((b :: rest).map UInt8.toNat)
          c.getD '\uFFFD' :: lossy (width - 1) rest

/-- `String::from_utf8_lossy` -/
def fromUtf8Lossy (bytes : List UInt8) : List Char := lossy 0 bytes

variable {n : Nat} (s : List Char)

theorem toNat_ofNat (small : n < 256) : (UInt8.ofNat n).toNat = n := by
  rw [UInt8.toNat_ofNat', Nat.mod_eq_of_lt small]

theorem isContinuation_low (n : Nat) : isContinuation (0x80 + n % 0x40) = true := by
  simp only [isContinuation, Bool.and_eq_true, decide_eq_true_eq]
  omega

theorem secondFits_three (large : 0x800 ≤ n) (small : n < 0x10000)
    (valid : n < 0xD800 ∨ 0xE000 ≤ n) :
    secondFits (0xE0 + n / 0x1000) (0x80 + n / 0x40 % 0x40) = true := by
  unfold secondFits
  split_ifs
  · simp only [Bool.and_eq_true, decide_eq_true_eq]; omega
  · simp only [Bool.and_eq_true, decide_eq_true_eq]; omega
  · omega
  · omega
  · exact isContinuation_low _

theorem secondFits_four (large : 0x10000 ≤ n) (small : n < 0x110000) :
    secondFits (0xF0 + n / 0x40000) (0x80 + n / 0x1000 % 0x40) = true := by
  unfold secondFits
  split_ifs
  · omega
  · omega
  · simp only [Bool.and_eq_true, decide_eq_true_eq]; omega
  · simp only [Bool.and_eq_true, decide_eq_true_eq]; omega
  · exact isContinuation_low _

theorem ofNat_of_eq {c : Char} (same : n = c.toNat) : Char.ofNat n = c := by
  rw [same, Char.ofNat_toNat]

/-- A character at the front is found. -/
theorem front_encodeChar (c : Char) (rest : List Nat) :
    front ((encodeChar c).map UInt8.toNat ++ rest) = (some c, (encodeChar c).length) := by
  have valid : c.toNat < 0xD800 ∨ 0xE000 ≤ c.toNat ∧ c.toNat < 0x110000 := by
    rcases c.valid with low | ⟨high, small⟩
    · exact .inl low
    · exact .inr ⟨high, small⟩
  unfold encodeChar
  dsimp only
  split_ifs with one two three
  · simp only [List.map_cons, List.map_nil, List.cons_append, List.nil_append, front,
      toNat_ofNat (show c.toNat < 256 by omega), if_pos one, Char.ofNat_toNat, List.length_singleton]
  · simp only [List.map_cons, List.map_nil, List.cons_append, List.nil_append, front,
      toNat_ofNat (show 0xC0 + c.toNat / 0x40 < 256 by omega),
      toNat_ofNat (show 0x80 + c.toNat % 0x40 < 256 by omega), isContinuation_low, if_true]
    rw [if_neg (by omega), if_pos (by omega), ofNat_of_eq (c := c) (by omega)]
    rfl
  · simp only [List.map_cons, List.map_nil, List.cons_append, List.nil_append, front,
      toNat_ofNat (show 0xE0 + c.toNat / 0x1000 < 256 by omega),
      toNat_ofNat (show 0x80 + c.toNat / 0x40 % 0x40 < 256 by omega),
      toNat_ofNat (show 0x80 + c.toNat % 0x40 < 256 by omega), isContinuation_low,
      secondFits_three (Nat.le_of_not_lt two) three (valid.imp_right And.left), Bool.not_true,
      Bool.false_eq_true, if_false]
    rw [if_neg (by omega), if_neg (by omega), if_pos (by omega), ofNat_of_eq (c := c) (by omega)]
    rfl
  · simp only [List.map_cons, List.map_nil, List.cons_append, List.nil_append, front,
      toNat_ofNat (show 0xF0 + c.toNat / 0x40000 < 256 by omega),
      toNat_ofNat (show 0x80 + c.toNat / 0x1000 % 0x40 < 256 by omega),
      toNat_ofNat (show 0x80 + c.toNat / 0x40 % 0x40 < 256 by omega),
      toNat_ofNat (show 0x80 + c.toNat % 0x40 < 256 by omega), isContinuation_low,
      secondFits_four (Nat.le_of_not_lt three) (show c.toNat < 0x110000 by omega), Bool.not_true,
      Bool.false_eq_true, if_false]
    rw [if_neg (by omega), if_neg (by omega), if_neg (by omega), if_pos (by omega),
      ofNat_of_eq (c := c) (by omega)]
    rfl

theorem encodeChar_cons (c : Char) : ∃ b rest, encodeChar c = b :: rest := by
  unfold encodeChar
  dsimp only
  split_ifs <;> exact ⟨_, _, rfl⟩

theorem lossy_drop (skip : Nat) (bytes : List UInt8) :
    lossy skip bytes = lossy 0 (bytes.drop skip) := by
  induction bytes generalizing skip with
  | nil => rw [List.drop_nil]; rfl
  | cons b rest ih =>
      cases skip with
      | zero => rfl
      | succ skip => exact ih skip

theorem fromUtf8Lossy_encode : fromUtf8Lossy (encode s) = s := by
  induction s with
  | nil => rfl
  | cons c s ih =>
      have found := front_encodeChar c ((encode s).map UInt8.toNat)
      obtain ⟨b, rest, bytes⟩ := encodeChar_cons c
      have shape : encode (c :: s) = b :: (rest ++ encode s) := by
        rw [encode, List.flatMap_cons, bytes]
        rfl
      rw [bytes, ← List.map_append, List.cons_append] at found
      rw [shape, fromUtf8Lossy, lossy, found]
      dsimp only
      rw [List.length_cons, Nat.add_sub_cancel, lossy_drop, List.drop_left, Option.getD_some]
      exact congrArg _ ih

/-- `String::from_utf8`: the text whose bytes these are, if there is one. -/
def fromUtf8 (bytes : List UInt8) : Option (List Char) :=
  if encode (fromUtf8Lossy bytes) = bytes then some (fromUtf8Lossy bytes) else none

@[simp] theorem fromUtf8_encode : fromUtf8 (encode s) = some s := by
  simp [fromUtf8, fromUtf8Lossy_encode]

/-- A byte is one character at most. -/
theorem length_lossy_le (skip : Nat) (bytes : List UInt8) :
    (lossy skip bytes).length ≤ bytes.length := by
  induction bytes generalizing skip with
  | nil => exact Nat.le_refl 0
  | cons b rest ih =>
      cases skip with
      | succ skip => exact Nat.le_succ_of_le (ih skip)
      | zero =>
          rw [lossy]
          exact Nat.succ_le_succ (ih _)

theorem length_fromUtf8Lossy_le (bytes : List UInt8) : (fromUtf8Lossy bytes).length ≤ bytes.length :=
  length_lossy_le 0 bytes

theorem encode_injective {s t : List Char} (same : encode s = encode t) : s = t := by
  rw [← fromUtf8Lossy_encode s, same, fromUtf8Lossy_encode]

theorem encode_ne_nil {s : List Char} (some_ : s ≠ []) : encode s ≠ [] :=
  fun none_ => some_ (encode_injective none_)

/-- A byte of a character: it is ASCII only if it is all of it, and never the largest. -/
theorem mem_encodeChar {c : Char} {b : UInt8} (member : b ∈ encodeChar c) :
    (b.toNat < 128 → (encodeChar c).length = 1) ∧ b.toNat ≠ 255 := by
  have small : c.toNat < 0x110000 := by
    rcases c.valid with low | ⟨-, small⟩
    · exact Nat.lt_trans low (by decide)
    · exact small
  unfold encodeChar at member ⊢
  dsimp only at member ⊢
  split_ifs at member ⊢ with one two three
  · simp only [List.mem_singleton] at member
    rw [member, toNat_ofNat (by omega)]
    exact ⟨fun _ => rfl, by omega⟩
  · simp only [List.mem_cons, List.not_mem_nil, or_false] at member
    rcases member with rfl | rfl <;> rw [toNat_ofNat (by omega)] <;> omega
  · simp only [List.mem_cons, List.not_mem_nil, or_false] at member
    rcases member with rfl | rfl | rfl <;> rw [toNat_ofNat (by omega)] <;> omega
  · simp only [List.mem_cons, List.not_mem_nil, or_false] at member
    rcases member with rfl | rfl | rfl | rfl <;> rw [toNat_ofNat (by omega)] <;> omega

/-- A text of ASCII bytes has as many characters. -/
theorem length_of_ascii {s : List Char} (ascii : ∀ b ∈ encode s, b.toNat < 128) :
    (encode s).length = s.length := by
  induction s with
  | nil => rfl
  | cons c s ih =>
      obtain ⟨b, rest, bytes⟩ := encodeChar_cons c
      have first : b ∈ encodeChar c := by rw [bytes]; exact List.mem_cons_self ..
      have shape : encode (c :: s) = encodeChar c ++ encode s := List.flatMap_cons
      rw [shape] at ascii ⊢
      have single := (mem_encodeChar first).1 (ascii b (List.mem_append_left _ first))
      rw [List.length_append, single, ih fun b member => ascii b (List.mem_append_right _ member),
        List.length_cons, Nat.add_comm]

theorem toNat_ofNat_ascii (ascii : n < 128) : (Char.ofNat n).toNat = n := by
  have valid : n.isValidChar := .inl (Nat.lt_trans ascii (by decide))
  rw [Char.ofNat, dif_pos valid]
  rfl

/-- ASCII codes as a text. -/
def ofAscii (codes : List UInt8) : List Char := codes.map fun b => .ofNat b.toNat

theorem encode_ofAscii {codes : List UInt8} (ascii : ∀ b ∈ codes, b.toNat < 128) :
    encode (ofAscii codes) = codes := by
  induction codes with
  | nil => rfl
  | cons b rest ih =>
      obtain ⟨small, later⟩ := List.forall_mem_cons.mp ascii
      have shape :
          encode (ofAscii (b :: rest)) = encodeChar (.ofNat b.toNat) ++ encode (ofAscii rest) :=
        List.flatMap_cons
      rw [shape, ih later, encodeChar, toNat_ofNat_ascii small, if_pos small, UInt8.ofNat_toNat,
        List.singleton_append]

theorem not_mem_encode : (255 : UInt8) ∉ encode s := by
  intro member
  obtain ⟨c, -, there⟩ := List.mem_flatMap.mp member
  exact (mem_encodeChar there).2 rfl

/-- A byte in the middle of a character. -/
def Continues (b : UInt8) : Prop := 0x80 ≤ b.toNat ∧ b.toNat < 0xC0

/-- A text whose bytes these are. -/
def Valid (bytes : List UInt8) : Prop := ∃ s, encode s = bytes

theorem continues_low (n : Nat) : Continues (.ofNat (0x80 + n % 0x40)) := by
  unfold Continues
  rw [toNat_ofNat (by omega)]
  omega

theorem not_continues (byte : n < 256) (other : n < 0x80 ∨ 0xC0 ≤ n) : ¬ Continues (.ofNat n) := by
  unfold Continues
  rw [toNat_ofNat byte]
  omega

/-- The first byte of a character is none in the middle; at most three others follow. -/
theorem encodeChar_shape (c : Char) :
    ∃ b rest, encodeChar c = b :: rest ∧ ¬ Continues b ∧ rest.length ≤ 3 ∧ ∀ d ∈ rest, Continues d := by
  have small : c.toNat < 0x110000 := by
    rcases c.valid with low | ⟨-, small⟩
    · exact Nat.lt_trans low (by decide)
    · exact small
  have low := continues_low
  unfold encodeChar
  dsimp only
  split_ifs with one two three
  · exact ⟨_, _, rfl, not_continues (by omega) (by omega), Nat.zero_le 3, nofun⟩
  · refine ⟨_, _, rfl, not_continues (by omega) (by omega), Nat.le_add_left 1 2, ?_⟩
    exact List.forall_mem_singleton.mpr (low _)
  · refine ⟨_, _, rfl, not_continues (by omega) (by omega), Nat.le_add_left 2 1, ?_⟩
    exact List.forall_mem_cons.mpr ⟨low _, List.forall_mem_singleton.mpr (low _)⟩
  · refine ⟨_, _, rfl, not_continues (by omega) (by omega), Nat.le_refl 3, ?_⟩
    exact List.forall_mem_cons.mpr ⟨low _,
      List.forall_mem_cons.mpr ⟨low _, List.forall_mem_singleton.mpr (low _)⟩⟩

theorem encode_head : ∀ b ∈ (encode s).head?, ¬ Continues b := by
  cases s with
  | nil => exact nofun
  | cons c s =>
      obtain ⟨b, rest, bytes, first, -, -⟩ := encodeChar_shape c
      have shape : encode (c :: s) = encodeChar c ++ encode s := List.flatMap_cons
      rw [shape, bytes]
      rintro _ ⟨⟩
      exact first

/-- What is left behind a cut: the end of a character and whole characters. -/
theorem drop_encode (k : Nat) :
    ∃ middle t, (encode s).drop k = middle ++ encode t ∧ middle.length ≤ 3 ∧ ∀ b ∈ middle,
      Continues b := by
  induction s generalizing k with
  | nil => exact ⟨[], [], by simp [encode], by decide, nofun⟩
  | cons c s ih =>
      obtain ⟨b, rest, bytes, -, short, continues⟩ := encodeChar_shape c
      have shape : encode (c :: s) = b :: rest ++ encode s := by
        rw [← bytes]
        exact List.flatMap_cons
      cases k with
      | zero => exact ⟨[], c :: s, rfl, by decide, nofun⟩
      | succ k =>
          rw [shape, List.cons_append, List.drop_succ_cons, List.drop_append]
          by_cases inside : k ≤ rest.length
          · refine ⟨rest.drop k, s, ?_, ?_, fun d member => continues d (List.mem_of_mem_drop member)⟩
            · rw [Nat.sub_eq_zero_of_le inside, List.drop_zero]
            · rw [List.length_drop]
              omega
          · rw [List.drop_eq_nil_of_le (by omega), List.nil_append]
            exact ih _

/-- An ASCII byte is a character of its own: what follows it is a text again. -/
theorem valid_of_ascii {front rest : List UInt8} {b : UInt8} (ascii : b.toNat < 128)
    (valid : Valid (front ++ b :: rest)) : Valid rest := by
  obtain ⟨s, bytes⟩ := valid
  obtain ⟨middle, t, cut, -, continues⟩ := drop_encode s front.length
  rw [bytes, List.drop_left] at cut
  cases middle with
  | cons d middle =>
      have same : b = d := (List.cons.inj cut).1
      have high := (continues d (List.mem_cons_self ..)).1
      rw [← same] at high
      omega
  | nil =>
      cases t with
      | nil => cases cut
      | cons c t =>
          obtain ⟨first, others, shape⟩ := encodeChar_cons c
          have whole : encode (c :: t) = first :: (others ++ encode t) := by
            rw [encode, List.flatMap_cons, shape]
            rfl
          rw [List.nil_append, whole] at cut
          obtain ⟨rfl, tail⟩ := List.cons.inj cut
          have single :=
            (mem_encodeChar (c := c) (b := b) (by rw [shape]; exact List.mem_cons_self ..)).1 ascii
          rw [shape, List.length_cons, Nat.add_eq_right, List.length_eq_zero_iff] at single
          rw [single, List.nil_append] at tail
          exact ⟨t, tail.symm⟩

end RemoteControl.Utf8
