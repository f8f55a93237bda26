import RemoteControl.Incremental
import RemoteControl.LittleEndian

/-! # Frames

`bytes_codec.rs`: a frame is its length, shifted by two bits and tagged with the number of
bytes it takes, followed by the payload. The decoder remembers the length while it waits for
the payload. A raw codec passes everything on as it comes.
-/

namespace RemoteControl.Stream

open Incremental

abbrev Bytes := List UInt8

inductive DecodeState where
  | head
  | data (n : Nat)
  deriving DecidableEq

structure BytesCodec where
  state : DecodeState := .head
  raw : Bool := false
  /-- `usize::MAX` unless it is set -/
  maxPacketLength : Nat := 2 ^ 64 - 1
  deriving DecidableEq

namespace BytesCodec

def setRaw (c : BytesCodec) : BytesCodec := { c with raw := true }

def setMaxPacketLength (n : Nat) (c : BytesCodec) : BytesCodec := { c with maxPacketLength := n }

/-- The number in the head, its tag included. -/
def headNumber (headLen : Nat) (src : Bytes) : Nat :=
  let n := (src.getD 0 0).toNat
  let n := if headLen > 1 then n ||| (src.getD 1 0).toNat <<< 8 else n
  let n := if headLen > 2 then n ||| (src.getD 2 0).toNat <<< 16 else n
  if headLen > 3 then n ||| (src.getD 3 0).toNat <<< 24 else n

/-- What is left of the buffer, and the length of the payload. -/
def decodeHead (c : BytesCodec) (src : Bytes) : Bytes × Except String (Option Nat) :=
  match src with
  | [] => (src, .ok none)
  | first :: _ =>
      let headLen := (first.toNat &&& 0x3) + 1
      if src.length < headLen then (src, .ok none)
      else
        let n := headNumber headLen src >>> 2
        if n > c.maxPacketLength then (src, .error "Too big packet")
        else (src.drop headLen, .ok (some n))

def decodeData (n : Nat) (src : Bytes) : Bytes × Option Bytes :=
  if src.length < n then (src, none) else (src.drop n, some (src.take n))

/-- The part of `decode` that takes the payload. -/
def finish (n : Nat) (c : BytesCodec) (src : Bytes) :
    BytesCodec × Bytes × Except String (Option Bytes) :=
  match decodeData n src with
  | (src, some data) => ({ c with state := .head }, src, .ok (some data))
  | (src, none) => (c, src, .ok none)

def decode (c : BytesCodec) (src : Bytes) : BytesCodec × Bytes × Except String (Option Bytes) :=
  if c.raw then
    if src ≠ [] then (c, [], .ok (some src)) else (c, src, .ok none)
  else
    match c.state with
    | .data n => c.finish n src
    | .head =>
        match c.decodeHead src with
        | (src, .error err) => (c, src, .error err)
        | (src, .ok none) => (c, src, .ok none)
        | (src, .ok (some n)) => { c with state := .data n }.finish n src

/-- The length of a payload as it is written before it; `none` if there is no room for it. -/
def head (length : Nat) : Option Bytes :=
  if length ≤ 0x3F then some (toLe 1 (length <<< 2))
  else if length ≤ 0x3FFF then some (toLe 2 ((length <<< 2) % 2 ^ 16 ||| 0x1))
  else if length ≤ 0x3FFFFF then
    let h := (length <<< 2) % 2 ^ 32 ||| 0x2
    some (toLe 2 (h &&& 0xFFFF) ++ toLe 1 (h >>> 16))
  else if length ≤ 0x3FFFFFFF then some (toLe 4 ((length <<< 2) % 2 ^ 32 ||| 0x3))
  else none

def encode (c : BytesCodec) (data buf : Bytes) : Bytes × Except String Unit :=
  if c.raw then (buf ++ data, .ok ())
  else
    match head data.length with
    | some h => (buf ++ h ++ data, .ok ())
    | none => (buf, .error "Overflow")

/-- Encodes payloads one after the other. -/
def encodeAll (c : BytesCodec) : List Bytes → Bytes → Bytes × Except String Unit
  | [], buf => (buf, .ok ())
  | data :: rest, buf =>
      match c.encode data buf with
      | (buf, .ok ()) => c.encodeAll rest buf
      | (buf, .error err) => (buf, .error err)

/-! ## The head of a frame -/

/-- The bytes a head takes, by its first one. -/
def headLen (first : UInt8) : Nat := first.toNat % 4 + 1

theorem and_three (n : Nat) : n &&& 0x3 = n % 4 :=
  Nat.and_two_pow_sub_one_eq_mod n 2

theorem or_two (a b : UInt8) : a.toNat ||| b.toNat <<< 8 = a.toNat + 256 * b.toNat :=
  or_shiftLeft_eq_add a.toNat_lt

theorem or_three (a b c : UInt8) :
    a.toNat ||| b.toNat <<< 8 ||| c.toNat <<< 16 = a.toNat + 256 * (b.toNat + 256 * c.toNat) := by
  have small := a.toNat_lt
  have small' := b.toNat_lt
  rw [or_two, or_shiftLeft_eq_add (by omega)]
  omega

theorem or_four (a b c d : UInt8) :
    a.toNat ||| b.toNat <<< 8 ||| c.toNat <<< 16 ||| d.toNat <<< 24 =
      a.toNat + 256 * (b.toNat + 256 * (c.toNat + 256 * d.toNat)) := by
  have small := a.toNat_lt
  have small' := b.toNat_lt
  have small'' := c.toNat_lt
  rw [or_three, or_shiftLeft_eq_add (by omega)]
  omega

theorem headNumber_eq {k : Nat} {src : Bytes} (few : k ≤ 3) (whole : k + 1 ≤ src.length) :
    headNumber (k + 1) src = ofLe (src.take (k + 1)) := by
  match k, src, few, whole with
  | 0, a :: _, _, _ => simp [headNumber, ofLe]
  | 1, a :: b :: _, _, _ => simp [headNumber, ofLe, or_two]
  | 2, a :: b :: c :: _, _, _ => simp [headNumber, ofLe, or_three]
  | 3, a :: b :: c :: d :: _, _, _ => simp [headNumber, ofLe, or_four]

variable {c : BytesCodec} {length : Nat}

theorem decodeHead_of_short {first : UInt8} {rest : Bytes}
    (short : (first :: rest).length < headLen first) :
    c.decodeHead (first :: rest) = (first :: rest, .ok none) := by
  unfold headLen at short
  simp only [decodeHead, and_three, if_pos short]

/-- A whole head is a little-endian number whose two lowest bits are its tag. -/
theorem decodeHead_of_whole {first : UInt8} {rest : Bytes}
    (whole : headLen first ≤ (first :: rest).length) :
    c.decodeHead (first :: rest) =
      if ofLe ((first :: rest).take (headLen first)) / 4 > c.maxPacketLength then
        (first :: rest, .error "Too big packet")
      else
        ((first :: rest).drop (headLen first),
          .ok (some (ofLe ((first :: rest).take (headLen first)) / 4))) := by
  have long : ¬ (first :: rest).length < first.toNat % 4 + 1 := Nat.not_lt.mpr whole
  have value := headNumber_eq (show first.toNat % 4 ≤ 3 by omega) whole
  simp only [decodeHead, and_three, if_neg long, value, headLen, Nat.shiftRight_eq_div_pow,
    Nat.reducePow]
  rfl

/-- A head is the length and the tag in as many bytes as the tag says. -/
theorem head_eq (fits : length ≤ 0x3FFFFFFF) :
    ∃ tag ≤ 3, head length = some (toLe (tag + 1) (4 * length + tag)) ∧
      4 * length + tag < 256 ^ (tag + 1) := by
  have shifted : length <<< 2 = 4 * length := by rw [Nat.shiftLeft_eq]; omega
  have tagged (tag : Nat) (small : tag < 2 ^ 2) : 4 * length ||| tag = 4 * length + tag := by
    rw [← shifted, Nat.shiftLeft_add_eq_or_of_lt small]
  unfold head
  rw [shifted]
  split_ifs with one two three
  · exact ⟨0, by omega, rfl, by omega⟩
  · refine ⟨1, by omega, ?_, by omega⟩
    rw [Nat.mod_eq_of_lt (by omega), tagged 1 (by decide)]
  · refine ⟨2, by omega, ?_, by omega⟩
    have low (h : Nat) : h &&& 0xFFFF = h % 2 ^ 16 := Nat.and_two_pow_sub_one_eq_mod h 16
    rw [Nat.mod_eq_of_lt (by omega), tagged 2 (by decide)]
    simp only [low, Nat.shiftRight_eq_div_pow, toLe, List.cons_append, List.nil_append,
      Option.some.injEq, List.cons.injEq, and_true]
    refine ⟨?_, ?_, ?_⟩ <;> apply UInt8.toNat_inj.mp <;> simp <;> omega
  · refine ⟨3, by omega, ?_, by omega⟩
    rw [Nat.mod_eq_of_lt (by omega), tagged 3 (by decide)]

theorem head_of_long (long : 0x3FFFFFFF < length) : head length = none := by
  unfold head
  rw [if_neg (by omega), if_neg (by omega), if_neg (by omega), if_neg (by omega)]

/-- A decoder reads the length from the head that was written for it. -/
theorem decodeHead_of_head {h : Bytes} (written : head length = some h)
    (admitted : length ≤ c.maxPacketLength) (rest : Bytes) :
    c.decodeHead (h ++ rest) = (rest, .ok (some length)) := by
  have fits : length ≤ 0x3FFFFFFF := by
    by_contra long
    rw [head_of_long (by omega)] at written
    cases written
  obtain ⟨tag, few, same, small⟩ := head_eq fits
  obtain rfl := Option.some.inj (written.symm.trans same)
  have first : headLen (UInt8.ofNat (4 * length + tag)) = tag + 1 := by
    simp only [headLen, UInt8.toNat_ofNat']
    omega
  have number : ofLe (toLe (tag + 1) (4 * length + tag)) = 4 * length + tag := ofLe_toLe_of_lt small
  have width := length_toLe (tag + 1) (4 * length + tag)
  have shape : toLe (tag + 1) (4 * length + tag) ++ rest =
      UInt8.ofNat (4 * length + tag) :: (toLe tag ((4 * length + tag) / 256) ++ rest) := rfl
  rw [shape, decodeHead_of_whole (by rw [first, ← shape, List.length_append, width]; omega), first,
    ← shape, List.take_left' width, List.drop_left' width, number, if_neg (by omega)]
  have quotient : (4 * length + tag) / 4 = length := by omega
  rw [quotient]

section More

variable {c c' : BytesCodec} {src src' : Bytes} {n : Nat}

/-- What one look at a head can come to. -/
theorem decodeHead_cases (c : BytesCodec) (src : Bytes) :
    c.decodeHead src = (src, .ok none) ∨
      (∀ more, c.decodeHead (src ++ more) = (src ++ more, .error "Too big packet")) ∨
      ∃ n left, left.length < src.length ∧
        ∀ more, c.decodeHead (src ++ more) = (left ++ more, .ok (some n)) := by
  cases src with
  | nil => exact .inl rfl
  | cons first tail =>
      by_cases short : (first :: tail).length < headLen first
      · exact .inl (decodeHead_of_short short)
      · right
        have whole : headLen first ≤ (first :: tail).length := Nat.not_lt.mp short
        have looked (more : Bytes) := @decodeHead_of_whole c first (tail ++ more)
          (whole.trans (by simp))
        simp only [← List.cons_append, List.take_append_of_le_length whole,
          List.drop_append_of_le_length whole] at looked
        by_cases big : ofLe ((first :: tail).take (headLen first)) / 4 > c.maxPacketLength
        · simp only [if_pos big] at looked
          exact .inl looked
        · simp only [if_neg big] at looked
          refine .inr ⟨_, _, ?_, looked⟩
          rw [List.length_drop]
          have some_ : 0 < headLen first := Nat.succ_pos _
          have any : 0 < (first :: tail).length := Nat.succ_pos _
          omega

theorem decode_of_data (framed : c.raw = false) (state : c.state = .data n) (src : Bytes) :
    c.decode src = c.finish n src := by
  simp only [decode, framed, state, Bool.false_eq_true, if_false]

theorem finish_of_short (short : src.length < n) : c.finish n src = (c, src, .ok none) := by
  simp only [finish, decodeData, if_pos short]

theorem finish_of_whole (whole : n ≤ src.length) :
    c.finish n src = ({ c with state := .head }, src.drop n, .ok (some (src.take n))) := by
  simp only [finish, decodeData, if_neg (Nat.not_lt.mpr whole)]

/-- What one call of a framing codec can come to. Whatever it is, more input does not
    change it. -/
inductive Decodes (c : BytesCodec) (src : Bytes) :
    BytesCodec × Bytes × Except String (Option Bytes) → Prop where
  | frame {data left : Bytes} (shorter : left.length < src.length ∨ ∃ n, c.state = .data n)
      (still : ∀ more, c.decode (src ++ more) =
        ({ c with state := .head }, left ++ more, .ok (some data))) :
      Decodes c src ({ c with state := .head }, left, .ok (some data))
  | wait {state : DecodeState} {left : Bytes} (again : ∀ more, c.decode (src ++ more) =
        { c with state := state }.decode (left ++ more)) :
      Decodes c src ({ c with state := state }, left, .ok none)
  | fail (still : ∀ more, c.decode (src ++ more) = (c, src ++ more, .error "Too big packet")) :
      Decodes c src (c, src, .error "Too big packet")

/-- A codec whose length is known waits for the payload or takes it. -/
theorem decodes_of_finish (framed : c.raw = false) (left : Bytes)
    (shorter : left.length < src.length ∨ ∃ n, c.state = .data n)
    (begun : ∀ more, c.decode (src ++ more) = { c with state := .data n }.finish n (left ++ more)) :
    Decodes c src ({ c with state := .data n }.finish n left) := by
  by_cases short : left.length < n
  · rw [finish_of_short short]
    refine .wait fun more => ?_
    rw [begun more]
    exact (@decode_of_data { c with state := .data n } n framed rfl _).symm
  · have whole : n ≤ left.length := Nat.not_lt.mp short
    rw [finish_of_whole whole]
    refine .frame (shorter.imp_left fun less => ?_) fun more => ?_
    · rw [List.length_drop]
      omega
    · rw [begun more, finish_of_whole (whole.trans (by simp)), List.take_append_of_le_length whole,
        List.drop_append_of_le_length whole]

theorem decode_cases (framed : c.raw = false) (src : Bytes) : Decodes c src (c.decode src) := by
  cases state : c.state with
  | data n =>
      have same : { c with state := .data n } = c := by rw [← state]
      have done :
          ∀ more, c.decode (src ++ more) = { c with state := .data n }.finish n (src ++ more) := by
        intro more
        rw [same, decode_of_data framed state]
      have call := done []
      rw [List.append_nil] at call
      rw [call]
      exact decodes_of_finish framed src (.inr ⟨n, state⟩) done
  | head =>
      have opened (more : Bytes) : c.decode (src ++ more) =
          match c.decodeHead (src ++ more) with
          | (src, .error err) => (c, src, .error err)
          | (src, .ok none) => (c, src, .ok none)
          | (src, .ok (some n)) => { c with state := .data n }.finish n src := by
        simp only [decode, framed, state, Bool.false_eq_true, if_false]
      have call := opened []
      rw [List.append_nil] at call
      rcases decodeHead_cases c src with short | big | ⟨n, left, shorter, known⟩
      · rw [call, short]
        exact .wait fun more => rfl
      · have looked := big []
        rw [List.append_nil] at looked
        rw [call, looked]
        refine .fail fun more => ?_
        rw [opened, big more]
      · have looked := known []
        rw [List.append_nil, List.append_nil] at looked
        rw [call, looked]
        refine decodes_of_finish framed left (.inl shorter) fun more => ?_
        rw [opened, known more]

end More

/-- What a codec still has to take: the buffer, and a length it has already read. -/
def pending (c : BytesCodec) (src : Bytes) : Nat :=
  match c.state with
  | .head => src.length
  | .data _ => src.length + 1

theorem pending_decreases {c' : BytesCodec} {src src' data : Bytes}
    (called : c.decode src = (c', src', .ok (some data))) : c'.pending src' < c.pending src := by
  have atLeast : src.length ≤ c.pending src := by
    unfold pending
    split <;> omega
  cases mode : c.raw with
  | true =>
      simp only [decode, mode, if_true] at called
      split_ifs at called with any
      · cases src with
        | nil => exact absurd rfl any
        | cons first tail =>
            obtain ⟨rfl, rfl, -⟩ := called
            unfold pending
            split <;> simp
      · cases called
  | false =>
      have cases_ := decode_cases mode src
      rw [called] at cases_
      cases cases_ with
      | frame shorter still =>
          rcases shorter with less | ⟨n, state⟩
          · exact Nat.lt_of_lt_of_le less atLeast
          · have call := still []
            rw [List.append_nil, List.append_nil, decode_of_data mode state] at call
            have left : src'.length ≤ src.length := by
              by_cases short : src.length < n
              · rw [finish_of_short short] at call
                cases (Prod.mk.inj (Prod.mk.inj call).2).2
              · rw [finish_of_whole (Nat.not_lt.mp short)] at call
                rw [← (Prod.mk.inj (Prod.mk.inj call).2).1, List.length_drop]
                exact Nat.sub_le ..
            unfold pending
            rw [state]
            exact Nat.lt_succ_of_le left

def decoder : Decoder BytesCodec UInt8 Bytes String where
  decode := decode
  size := pending
  decreases := pending_decreases

theorem decoder_steady : Steady decoder fun c => c.raw = false where
  keep := by
    intro c c' src src' r framed called
    have cases_ := decode_cases framed src
    rw [show c.decode src = (c', src', r) from called] at cases_
    cases cases_ <;> exact framed
  frame := by
    intro c c' src src' data more framed called
    have cases_ := decode_cases framed src
    rw [show c.decode src = (c', src', .ok (some data)) from called] at cases_
    cases cases_ with
    | frame _ still => exact still more
  error := by
    intro c c' src src' err more framed called
    have cases_ := decode_cases framed src
    rw [show c.decode src = (c', src', .error err) from called] at cases_
    cases cases_ with
    | fail still => exact still more
  resume := by
    intro c c' src src' more framed called
    have cases_ := decode_cases framed src
    rw [show c.decode src = (c', src', .ok none) from called] at cases_
    cases cases_ with
    | wait again => exact again more

theorem finish_suffix (n : Nat) (c : BytesCodec) (src : Bytes) : (c.finish n src).2.1 <:+ src := by
  by_cases short : src.length < n
  · simp [finish_of_short short]
  · rw [finish_of_whole (Nat.not_lt.mp short)]
    exact List.drop_suffix n src

theorem decodeHead_suffix (c : BytesCodec) (src : Bytes) : (c.decodeHead src).1 <:+ src := by
  unfold decodeHead
  cases src with
  | nil => exact List.suffix_rfl
  | cons first rest =>
      dsimp only
      split_ifs
      · exact List.suffix_rfl
      · exact List.suffix_rfl
      · exact List.drop_suffix _ _

/-- What a call leaves is the end of what it was given. -/
theorem decode_suffix (c : BytesCodec) (src : Bytes) : (c.decode src).2.1 <:+ src := by
  have opened := c.decodeHead_suffix src
  unfold decode
  split
  · split
    · exact List.nil_suffix
    · exact List.suffix_rfl
  · split
    · exact finish_suffix ..
    · split
      next looked =>
        rw [looked] at opened
        exact opened
      next looked =>
        rw [looked] at opened
        exact opened
      next looked =>
        rw [looked] at opened
        exact (finish_suffix ..).trans opened

theorem encodeAll_cons (framing : c.raw = false) {data h : Bytes}
    (written : head data.length = some h) (rest : List Bytes) (buf : Bytes) :
    c.encodeAll (data :: rest) buf = c.encodeAll rest (buf ++ h ++ data) := by
  simp only [encodeAll, encode, framing, written, Bool.false_eq_true, if_false]

/-- A decoder that is between frames takes the frame before it. -/
theorem decode_of_encoded (framed : c.raw = false) (state : c.state = .head) {data h : Bytes}
    (written : head data.length = some h) (admitted : data.length ≤ c.maxPacketLength)
    (rest : Bytes) : c.decode (h ++ data ++ rest) = (c, rest, .ok (some data)) := by
  obtain ⟨_, _, limit⟩ := c
  subst framed state
  simp only [decode, Bool.false_eq_true, if_false, List.append_assoc]
  rw [decodeHead_of_head written admitted]
  simp only
  rw [finish_of_whole (by simp), List.take_left, List.drop_left]

/-- Payloads that fit are encoded into a stream that drains to them. -/
theorem drain_encodeAll {enc dec : BytesCodec} (framing : enc.raw = false) (framed : dec.raw = false)
    (state : dec.state = .head) {payloads : List Bytes}
    (fit : ∀ data ∈ payloads, data.length ≤ 0x3FFFFFFF ∧ data.length ≤ dec.maxPacketLength)
    (buf : Bytes) :
    ∃ stream, enc.encodeAll payloads buf = (buf ++ stream, .ok ()) ∧
      decoder.drain dec stream = ⟨payloads, dec, [], none⟩ := by
  induction payloads generalizing buf with
  | nil =>
      refine ⟨[], by rw [List.append_nil]; rfl, drain_of_none ?_⟩
      simp only [decoder, decode, framed, state, Bool.false_eq_true, if_false]
      rfl
  | cons data rest ih =>
      obtain ⟨short, admitted⟩ := fit data (List.mem_cons_self ..)
      obtain ⟨tag, -, written, -⟩ := head_eq short
      obtain ⟨stream, encoded, drained⟩ := ih (fun data' member =>
        fit data' (List.mem_cons_of_mem data member))
          (buf ++ toLe (tag + 1) (4 * data.length + tag) ++ data)
      refine ⟨toLe (tag + 1) (4 * data.length + tag) ++ data ++ stream, ?_, ?_⟩
      · rw [encodeAll_cons framing written, encoded]
        simp only [List.append_assoc]
      · have called : decoder.decode dec (toLe (tag + 1) (4 * data.length + tag) ++ data ++ stream) =
            (dec, stream, .ok (some data)) :=
          decode_of_encoded framed state written admitted stream
        rw [drain_of_frame called, drained]
        rfl

/-- Frames survive the stream however it is cut; a payload that is too long for a frame
    is refused and leaves no trace. -/
theorem frames_round_trip (enc dec : BytesCodec) (framing : enc.raw = false)
    (framed : dec.raw = false) (fresh : dec.state = .head) (payloads chunks : List Bytes)
    (fit : ∀ data ∈ payloads, data.length ≤ 0x3FFFFFFF ∧ data.length ≤ dec.maxPacketLength)
    (cut : chunks.flatten = (enc.encodeAll payloads []).1) :
    (enc.encodeAll payloads []).2 = .ok () ∧
      decoder.feed dec [] chunks = ⟨⟨payloads, dec, [], none⟩, []⟩ ∧
      ∀ data buf, 0x3FFFFFFF < data.length → enc.encode data buf = (buf, .error "Overflow") := by
  obtain ⟨stream, encoded, drained⟩ := drain_encodeAll framing framed fresh fit []
  have settled : Settled decoder dec [] := by
    simp only [Settled, decoder, decode, framed, fresh, Bool.false_eq_true, if_false]
    rfl
  rw [encoded, List.nil_append] at cut
  obtain ⟨frames, state, err, left⟩ := decoder_steady.feed_eq_drain framed settled chunks
  rw [List.nil_append, cut, drained] at frames state err left
  have unread := unread_of_no_error err
  refine ⟨by rw [encoded], ?_, ?_⟩
  · obtain ⟨buffer, -⟩ := List.append_eq_nil_iff.mp left
    generalize decoder.feed dec [] chunks = r at frames state err buffer unread
    obtain ⟨⟨frames', state', buffer', err'⟩, unread'⟩ := r
    obtain rfl : frames' = payloads := frames
    obtain rfl : state' = dec := state
    obtain rfl : buffer' = [] := buffer
    obtain rfl : err' = none := err
    obtain rfl : unread' = [] := unread
    rfl
  · intro data buf long
    simp only [encode, framing, head_of_long long, Bool.false_eq_true, if_false]

/-- Two payloads, cut inside the first head and inside the second payload. -/
theorem two_frames_round_trip :
    decoder.feed {} [] [[8, 1], [2, 4], [9]] = ⟨⟨[[1, 2], [9]], {}, [], none⟩, []⟩ :=
  (frames_round_trip {} {} rfl rfl rfl [[1, 2], [9]] [[8, 1], [2, 4], [9]] (by decide) (by decide)).2.1

/-- Whatever the bytes are, reading them does not depend on how they are cut, and a call
    that fails changes nothing. -/
theorem chunks_do_not_matter (c : BytesCodec) (framed : c.raw = false) (fresh : c.state = .head)
    (chunks chunks' : List Bytes) (same : chunks.flatten = chunks'.flatten) :
    (decoder.feed c [] chunks).frames = (decoder.feed c [] chunks').frames ∧
      (decoder.feed c [] chunks).err = (decoder.feed c [] chunks').err ∧
      (decoder.feed c [] chunks).state = (decoder.feed c [] chunks').state ∧
      (decoder.feed c [] chunks).unconsumed = (decoder.feed c [] chunks').unconsumed ∧
      ((decoder.feed c [] chunks).err = none → (decoder.feed c [] chunks).unread = []) ∧
      ∀ (c₀ c₁ : BytesCodec) (src src₁ : Bytes) (err : String), c₀.raw = false →
        c₀.decode src = (c₁, src₁, .error err) →
        c₁ = c₀ ∧ src₁ = src ∧ err = "Too big packet" := by
  have settled : Settled decoder c [] := by
    simp only [Settled, decoder, decode, framed, fresh, Bool.false_eq_true, if_false]
    rfl
  obtain ⟨frames, state, err, left⟩ := decoder_steady.feed_eq_drain framed settled chunks
  obtain ⟨frames', state', err', left'⟩ := decoder_steady.feed_eq_drain framed settled chunks'
  rw [same] at frames state err left
  refine ⟨frames.trans frames'.symm, err.trans err'.symm, state.trans state'.symm,
    left.trans left'.symm, unread_of_no_error, ?_⟩
  intro c₀ c₁ src src₁ err framed₀ called
  have cases_ := decode_cases framed₀ src
  rw [called] at cases_
  cases cases_ with
  | fail still => exact ⟨rfl, rfl, rfl⟩

/-- A head of 63 bytes where 10 are admitted, after a frame, alone and with what follows. -/
theorem big_packet_chunks_do_not_matter :
    (decoder.feed { maxPacketLength := 10 } [] [[4, 7, 252, 1]]).unconsumed =
      (decoder.feed { maxPacketLength := 10 } [] [[4], [7, 252], [1]]).unconsumed :=
  (chunks_do_not_matter { maxPacketLength := 10 } rfl rfl [[4, 7, 252, 1]] [[4], [7, 252], [1]]
    (by decide)).2.2.2.1

theorem decode_within {max : Nat} {c' : BytesCodec} {src left data : Bytes}
    (called : (setMaxPacketLength max {}).decode src = (c', left, .ok (some data))) :
    c' = setMaxPacketLength max {} ∧ data.length ≤ max := by
  simp only [decode, setMaxPacketLength, Bool.false_eq_true, if_false] at called
  split at called
  · cases called
  · cases called
  · rename_i src' n known
    have within : n ≤ max := by
      unfold decodeHead at known
      split at known
      · cases known
      · dsimp only at known
        split_ifs at known with short big
        · cases known
        · cases known
        · cases known
          exact Nat.not_lt.mp big
    by_cases short : src'.length < n
    · rw [finish_of_short short] at called
      cases called
    · rw [finish_of_whole (Nat.not_lt.mp short)] at called
      cases called
      exact ⟨rfl, (List.length_take_le ..).trans within⟩

/-- No frame is longer than the codec admits, whatever comes in what chunks. -/
theorem frames_within_limit (max : Nat) (chunks : List Bytes) :
    (decoder.feed (setMaxPacketLength max {}) [] chunks).frames.Forall (·.length ≤ max) := by
  let c := setMaxPacketLength max {}
  have settled : Settled decoder c [] := rfl
  rw [(decoder_steady.feed_eq_drain rfl settled chunks).1, List.forall_iff_forall_mem]
  refine @frames_of_drain _ _ _ _ decoder _ _ (· = c) _ ?_ rfl
  rintro _ c' src left data rfl called
  exact decode_within called

end BytesCodec

end RemoteControl.Stream
