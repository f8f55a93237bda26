import RemoteControl.LittleEndian

/-! # UTF-16

Text as 16-bit code units, low byte first. A character beyond the first 65536 takes two
units, a surrogate pair; a surrogate that is not part of a pair stands for nothing.
-/

namespace RemoteControl.Utf16

/-- The code units of a character. -/
def units (c : Char) : List Nat :=
  if c.toNat < 0x10000 then [c.toNat]
  else [0xD800 + (c.toNat - 0x10000) / 0x400, 0xDC00 + (c.toNat - 0x10000) % 0x400]

def encode (s : List Char) : List Nat := s.flatMap units

def decode : List Nat → Option (List Char)
  | [] => some []
  | u :: rest =>
      if u < 0xD800 ∨ 0xE000 ≤ u then (decode rest).map (Char.ofNat u :: ·)
      else
        match rest with
        | [] => none
        | v :: rest =>
            if u < 0xDC00 ∧ 0xDC00 ≤ v ∧ v < 0xE000 then
              (decode rest).map (Char.ofNat (0x10000 + (u - 0xD800) * 0x400 + (v - 0xDC00)) :: ·)
            else none

def toBytes (us : List Nat) : List UInt8 := us.flatMap (toLe 2)

/-- The units of an even number of bytes. -/
def ofBytes : List UInt8 → List Nat
  | a :: b :: rest => ofLe [a, b] :: ofBytes rest
  | _ => []

/-- The text of some bytes, if it is one. -/
def decodeLe (bytes : List UInt8) : Option (List Char) :=
  if bytes.length % 2 = 0 then decode (ofBytes bytes) else none

theorem toNat_lt (c : Char) : c.toNat < 0xD800 ∨ 0xE000 ≤ c.toNat ∧ c.toNat < 0x110000 := by
  rcases c.valid with low | ⟨high, small⟩
  · exact .inl low
  · exact .inr ⟨high, small⟩

theorem decode_of_single {u : Nat} (single : u < 0xD800 ∨ 0xE000 ≤ u) (rest : List Nat) :
    decode (u :: rest) = (decode rest).map (Char.ofNat u :: ·) := by
  rw [decode.eq_def]
  exact if_pos single

theorem decode_of_pair {u v : Nat} (high : 0xD800 ≤ u ∧ u < 0xDC00) (low : 0xDC00 ≤ v ∧ v < 0xE000)
    (rest : List Nat) :
    decode (u :: v :: rest) =
      (decode rest).map (Char.ofNat (0x10000 + (u - 0xD800) * 0x400 + (v - 0xDC00)) :: ·) := by
  rw [decode, if_neg (by omega), if_pos ⟨high.2, low⟩]

theorem decode_units_append (c : Char) (rest : List Nat) :
    decode (units c ++ rest) = (decode rest).map (c :: ·) := by
  have range := toNat_lt c
  unfold units
  split_ifs with short
  · rw [List.singleton_append, decode_of_single (by omega), Char.ofNat_toNat]
  · rw [List.cons_append, List.singleton_append, decode_of_pair (by omega) (by omega)]
    have whole : 0x10000 + (0xD800 + (c.toNat - 0x10000) / 0x400 - 0xD800) * 0x400 +
        (0xDC00 + (c.toNat - 0x10000) % 0x400 - 0xDC00) = c.toNat := by omega
    rw [whole, Char.ofNat_toNat]

theorem decode_encode_append (s : List Char) (rest : List Nat) :
    decode (encode s ++ rest) = (decode rest).map (s ++ ·) := by
  induction s with
  | nil =>
      rw [encode, List.flatMap_nil, List.nil_append]
      cases decode rest <;> rfl
  | cons c s ih =>
      rw [encode, List.flatMap_cons, List.append_assoc, decode_units_append]
      rw [encode] at ih
      rw [ih, Option.map_map]
      rfl

theorem decode_zeros (k : Nat) : decode (List.replicate k 0) = some (List.replicate k '\x00') := by
  induction k with
  | zero => rfl
  | succ k ih =>
      rw [List.replicate_succ, decode_of_single (by omega), ih]
      rfl

theorem unit_lt {s : List Char} {u : Nat} (member : u ∈ encode s) : u < 0x10000 := by
  obtain ⟨c, -, inUnits⟩ := List.mem_flatMap.mp member
  have range := toNat_lt c
  unfold units at inUnits
  split_ifs at inUnits with short
  · rw [List.mem_singleton.mp inUnits]
    exact short
  · rcases List.mem_cons.mp inUnits with rfl | second
    · omega
    · rw [List.mem_singleton.mp second]
      omega

theorem length_toBytes (us : List Nat) : (toBytes us).length = 2 * us.length := by
  induction us with
  | nil => rfl
  | cons u us ih =>
      rw [toBytes, List.flatMap_cons, List.length_append, length_toLe]
      rw [toBytes] at ih
      rw [ih, List.length_cons]
      omega

theorem ofBytes_toBytes {us : List Nat} (small : ∀ u ∈ us, u < 0x10000) :
    ofBytes (toBytes us) = us := by
  induction us with
  | nil => rfl
  | cons u us ih =>
      have fits : ofLe (toLe 2 u) = u := ofLe_toLe_of_lt (small u (List.mem_cons_self ..))
      have later := ih fun v member => small v (List.mem_cons_of_mem u member)
      calc ofBytes (toBytes (u :: us))
          = ofLe (toLe 2 u) :: ofBytes (toBytes us) := rfl
        _ = u :: us := by rw [fits, later]

theorem toBytes_append (us vs : List Nat) : toBytes (us ++ vs) = toBytes us ++ toBytes vs :=
  List.flatMap_append

theorem toBytes_zeros (k : Nat) : toBytes (List.replicate k 0) = List.replicate (2 * k) 0 := by
  induction k with
  | zero => rfl
  | succ k ih =>
      calc toBytes (List.replicate (k + 1) 0)
          = 0 :: 0 :: toBytes (List.replicate k 0) := rfl
        _ = List.replicate (2 * (k + 1)) 0 := by rw [ih]; rfl

/-- Text that is padded with zeros comes back with that many null characters. -/
theorem decodeLe_padded (s : List Char) (k : Nat) :
    decodeLe (toBytes (encode s) ++ List.replicate (2 * k) 0) =
      some (s ++ List.replicate k '\x00') := by
  have small : ∀ u ∈ encode s ++ List.replicate k 0, u < 0x10000 := by
    intro u member
    rcases List.mem_append.mp member with inText | zero
    · exact unit_lt inText
    · rw [List.eq_of_mem_replicate zero]
      omega
  have even : (toBytes (encode s ++ List.replicate k 0)).length % 2 = 0 := by
    rw [length_toBytes]
    omega
  rw [← toBytes_zeros, ← toBytes_append, decodeLe, if_pos even, ofBytes_toBytes small,
    decode_encode_append, decode_zeros]
  rfl

end RemoteControl.Utf16
