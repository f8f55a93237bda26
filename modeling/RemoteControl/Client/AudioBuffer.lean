import RemoteControl.RingBuffer
import RemoteControl.Runs

/-! # The buffered audio

`AudioBuffer` of `client.rs` is filled by the audio handler and emptied by the playback of the device. What
is too much is dropped from the front: at once when the buffer is full, and every twelve seconds by the
statistics of how full it was. Samples of all channels are interleaved, so a drop that is no multiple of the
channels lets every later sample go to a wrong one.
-/

namespace RemoteControl.Audio

/-- `AUDIO_BUFFER_MS` -/
def audioBufferMs : Nat := 3000

structure AudioBuffer (α : Type) where
  ring : RingBuffer α
  /-- The samples of a second. -/
  perSecond : Nat
  /-- How often each tenth of a second was the level. -/
  levels : List Nat

namespace AudioBuffer

variable {α : Type}

/-- 48000 Hz, two channels. -/
def default_ : AudioBuffer α where
  ring := .empty (48000 * 2 * audioBufferMs / 1000)
  perSecond := 48000 * 2
  levels := List.replicate 30 0

def resize (sampleRate channels : Nat) (b : AudioBuffer α) : AudioBuffer α :=
  let capacity := sampleRate * channels * audioBufferMs / 1000
  if capacity ≠ b.ring.capacity then
    { b with ring := .empty capacity, perSecond := sampleRate * channels }
  else b

/-- `append_pcm2`, which returns how much is buffered. -/
def appendPcm2 (buffer : List α) (b : AudioBuffer α) : Nat × AudioBuffer α :=
  let cap := b.ring.capacity
  if buffer.length > cap then (cap, { b with ring := b.ring.pushOverwrite buffer })
  else
    let having := b.ring.occupied + buffer.length
    let ring := if having > cap then b.ring.skip (having - cap) else b.ring
    let ring := ring.pushOverwrite buffer
    (ring.occupied, { b with ring := ring })

/-- The variables of the loop over the levels. -/
structure Marks where
  levels : List Nat
  /-- The safer water mark to drop. -/
  zero : Nat
  /-- The water mark taking most of the time. -/
  max : Nat

def Marks.visit (m : Marks) (i : Nat) : Marks :=
  let zero' := if m.levels.getD i 0 = 0 ∧ m.zero = i then m.zero + 1 else m.zero
  if m.levels.getD i 0 > m.levels.getD m.max 0 then ⟨m.levels.set m.max 0, zero', i⟩
  else ⟨m.levels.set i 0, zero', m.max⟩

def marks (levels : List Nat) : Marks := (List.range 30).foldl Marks.visit ⟨levels, 0, 0⟩

/-- The level at which data is dropped, unless too little is buffered. -/
def waterMark (m : Marks) : Option Nat :=
  let zero' := m.zero * 2 / 3
  if m.max < 6 then none else if m.max > zero' * 4 then some (zero' * 4) else some m.max

/-- How much is dropped at a level; an even number. -/
def skipOf (cap max : Nat) : Nat := (cap * max / (30 * 4) + 1) / 2 * 2

/-- The levels with one more. -/
def counted (having : Nat) (b : AudioBuffer α) : List Nat :=
  b.levels.modify (min (having * 10 / b.perSecond) 29) (· + 1)

/-- Twelve seconds have passed; the first time the clock is only set. -/
def Due (tms dt : Int) : Prop := tms ≠ 0 ∧ tms + 12000 ≤ dt

instance (tms dt : Int) : Decidable (Due tms dt) := inferInstanceAs (Decidable (_ ∧ _))

/-- What is dropped from the ring at a level. -/
def shrunk (max : Nat) (ring : RingBuffer α) : RingBuffer α :=
  let skip := skipOf ring.capacity max
  if ring.occupied > skip * 3 ∧ skip > 0 then ring.skip skip else ring

/-- `try_shrink` at the time `dt`; the time of the last time is shared by all buffers. -/
def tryShrink (having : Nat) (dt tms : Int) (b : AudioBuffer α) : Int × AudioBuffer α :=
  if Due tms dt then
    let m := marks (b.counted having)
    let levels := m.levels.set m.max 0
    match waterMark m with
    | some max => (dt, { b with levels := levels, ring := shrunk max b.ring })
    | none => (dt, { b with levels := levels })
  else (if tms = 0 then dt else tms, { b with levels := b.counted having })

/-- What the playback callback takes: so many samples, or all there are. -/
def play (n : Nat) (b : AudioBuffer α) : AudioBuffer α := { b with ring := b.ring.skip n }

/-! ## What each operation leaves -/

section Operations

variable (b : AudioBuffer α) (buffer : List α) (having max n sampleRate channels : Nat) (dt tms : Int)

theorem capacity_resize :
    (b.resize sampleRate channels).ring.capacity = sampleRate * channels * audioBufferMs / 1000 := by
  simp only [resize]
  split
  · rfl
  · rename_i same
    exact (not_not.mp same).symm

@[simp] theorem capacity_appendPcm2 : (b.appendPcm2 buffer).2.ring.capacity = b.ring.capacity := by
  simp only [appendPcm2]
  split_ifs <;> rfl

@[simp] theorem occupied_appendPcm2 :
    (b.appendPcm2 buffer).2.ring.occupied = min (b.ring.occupied + buffer.length) b.ring.capacity := by
  simp only [appendPcm2]
  split_ifs with oversized full
  · simp
  · simp
    omega
  · simp

@[simp] theorem levels_appendPcm2 : (b.appendPcm2 buffer).2.levels = b.levels := by
  simp only [appendPcm2]
  split_ifs <;> rfl

@[simp] theorem perSecond_appendPcm2 : (b.appendPcm2 buffer).2.perSecond = b.perSecond := by
  simp only [appendPcm2]
  split_ifs <;> rfl

/-- What is returned is what is buffered then. -/
theorem fst_appendPcm2 : (b.appendPcm2 buffer).1 = (b.appendPcm2 buffer).2.ring.occupied := by
  rw [occupied_appendPcm2]
  simp only [appendPcm2]
  split_ifs with oversized full
  · simp
    omega
  · simp
    omega
  · simp

theorem endOf_appendPcm2 {given : List α} (ends : b.ring.EndOf given) :
    (b.appendPcm2 buffer).2.ring.EndOf (given ++ buffer) := by
  simp only [appendPcm2]
  split_ifs
  · exact ends.pushOverwrite buffer
  · exact (ends.skip _).pushOverwrite buffer
  · exact ends.pushOverwrite buffer

variable (ring : RingBuffer α)

@[simp] theorem capacity_shrunk : (shrunk max ring).capacity = ring.capacity := by
  simp only [shrunk]
  split_ifs <;> rfl

theorem occupied_shrunk :
    (shrunk max ring).occupied =
      if ring.occupied > skipOf ring.capacity max * 3 ∧ skipOf ring.capacity max > 0 then
        ring.occupied - skipOf ring.capacity max else ring.occupied := by
  simp only [shrunk]
  split_ifs
  · simp
  · rfl

theorem endOf_shrunk {given : List α} (ends : ring.EndOf given) : (shrunk max ring).EndOf given := by
  simp only [shrunk]
  split_ifs
  · exact ends.skip _
  · exact ends

/-- The level at which a `try_shrink` drops, if it is time and enough was buffered most of the time. -/
def dropLevel : Option Nat := if Due tms dt then waterMark (marks (b.counted having)) else none

theorem tryShrink_of_not_due (early : ¬Due tms dt) :
    b.tryShrink having dt tms = (if tms = 0 then dt else tms, { b with levels := b.counted having }) :=
  if_neg early

theorem ring_tryShrink :
    (b.tryShrink having dt tms).2.ring =
      match b.dropLevel having dt tms with
      | some max => shrunk max b.ring
      | none => b.ring := by
  simp only [tryShrink, dropLevel]
  by_cases due : Due tms dt
  · simp only [if_pos due]
    cases waterMark (marks (b.counted having)) <;> rfl
  · simp only [if_neg due]

end Operations

/-- A fortieth of what the device plays in as many seconds as the level, rounded to a sample and then to an
    even number of samples, is a number of whole frames: of the frames before it or of one more. -/
def Whole (sampleRate channels max : Nat) : Prop :=
  channels * (sampleRate * max % 40) < 40 ∧ channels * (sampleRate * max / 40) % 2 = 0 ∨
    channels * (40 - sampleRate * max % 40) ≤ 40 ∧ channels * (sampleRate * max / 40 + 1) % 2 = 0

instance (sampleRate channels max : Nat) : Decidable (Whole sampleRate channels max) :=
  inferInstanceAs (Decidable (_ ∨ _))

/-- Between two neighbours there is no other multiple. -/
theorem dvd_iff_of_between {c t x : Nat} (positive : 0 < c) (low : c * t ≤ x) (high : x ≤ c * (t + 1)) :
    c ∣ x ↔ x = c * t ∨ x = c * (t + 1) := by
  constructor
  · intro ⟨y, same⟩
    subst same
    have least : t ≤ y := Nat.le_of_mul_le_mul_left low positive
    have most : y ≤ t + 1 := Nat.le_of_mul_le_mul_left high positive
    cases Nat.eq_or_lt_of_le least with
    | inl same => exact .inl (same ▸ rfl)
    | inr more => exact .inr (Nat.le_antisymm most more ▸ rfl)
  · intro neighbour
    cases neighbour with
    | inl same => exact ⟨t, same⟩
    | inr same => exact ⟨t + 1, same⟩

theorem three_seconds (samples : Nat) : samples * audioBufferMs / 1000 = 3 * samples := by
  simp only [audioBufferMs]
  omega

theorem dvd_skipOf_iff {sampleRate channels max : Nat} (positive : 0 < channels) :
    channels ∣ skipOf (sampleRate * channels * audioBufferMs / 1000) max ↔ Whole sampleRate channels max := by
  have parts := Nat.div_add_mod (sampleRate * max) 40
  have small : sampleRate * max % 40 < 40 := Nat.mod_lt _ (by decide)
  unfold Whole
  generalize sampleRate * max / 40 = t at *
  generalize sampleRate * max % 40 = s at *
  have real : sampleRate * channels * audioBufferMs / 1000 * max / (30 * 4) = channels * t + channels * s / 40 := by
    have spread : 3 * (sampleRate * channels) * max = 3 * (40 * (channels * t) + channels * s) := by
      calc 3 * (sampleRate * channels) * max = 3 * (channels * (sampleRate * max)) := by
            rw [Nat.mul_assoc, Nat.mul_comm sampleRate, Nat.mul_assoc]
        _ = 3 * (channels * (40 * t + s)) := by rw [parts]
        _ = 3 * (40 * (channels * t) + channels * s) := by rw [Nat.mul_add, Nat.mul_left_comm]
    rw [three_seconds, spread]
    omega
  have rest : channels * s / 40 < channels := by
    have less : channels * s < channels * 40 := Nat.mul_lt_mul_of_pos_left small positive
    omega
  have next : channels * (t + 1) = channels * t + channels := Nat.mul_succ ..
  have other : channels * (40 - s) = channels * 40 - channels * s := Nat.mul_sub ..
  have neighbours := dvd_iff_of_between (t := t) (x := (channels * t + channels * s / 40 + 1) / 2 * 2) positive
    (by omega) (by rw [next]; omega)
  rw [skipOf, real, neighbours, next, other]
  omega

/-- With one channel or two every drop is of whole frames. -/
theorem whole_of_le_two {sampleRate channels max : Nat} (positive : 0 < channels) (few : channels ≤ 2) :
    Whole sampleRate channels max := by
  rw [← dvd_skipOf_iff positive]
  have cases_ : channels = 1 ∨ channels = 2 := by omega
  cases cases_ with
  | inl one => exact one ▸ Nat.one_dvd _
  | inr two => exact two ▸ Nat.dvd_mul_left 2 _

end AudioBuffer

/-- `append_pcm` is `append_pcm2` and `try_shrink`, and the playback may come between them. -/
inductive Event (α : Type) (channels : Nat) where
  | appendPcm2 (buffer : List α) (whole : channels ∣ buffer.length)
  | tryShrink (dt : Int)
  | play (n : Nat) (whole : channels ∣ n)

structure Player (α : Type) where
  buffer : AudioBuffer α
  /-- What the last `append_pcm2` returned. -/
  having : Nat
  tms : Int
  /-- All that was in the buffer or came into it since it was resized. -/
  given : List α

namespace Player

variable {α : Type} {channels : Nat}

def step (s : Player α) : Event α channels → Player α
  | .appendPcm2 buffer _ =>
      let (having, b) := s.buffer.appendPcm2 buffer
      { s with buffer := b, having := having, given := s.given ++ buffer }
  | .tryShrink dt =>
      let (tms, b) := s.buffer.tryShrink s.having dt s.tms
      { s with buffer := b, tms := tms }
  | .play n _ => { s with buffer := s.buffer.play n }

/-- A buffer that was just resized. -/
def start (b : AudioBuffer α) (sampleRate channels having : Nat) (tms : Int) : Player α :=
  let b := b.resize sampleRate channels
  ⟨b, having, tms, b.ring.content⟩

def occupied (s : Player α) : Nat := s.buffer.ring.occupied

/-- How much was read, skipped or overwritten. -/
def removed (s : Player α) : Nat := s.given.length - s.occupied

/-- As many samples left the front as make whole frames, so that what is buffered begins with the first
    channel, and there is no more than the buffer is for. -/
structure Law (sampleRate channels : Nat) (s : Player α) : Prop where
  aligned : channels ∣ s.removed
  front : s.buffer.ring.content = s.given.drop s.removed
  within : s.occupied * 1000 ≤ sampleRate * channels * audioBufferMs

/-- What no step changes. -/
structure Inv (sampleRate channels : Nat) (s : Player α) : Prop where
  capacity : s.buffer.ring.capacity = sampleRate * channels * audioBufferMs / 1000
  ends : s.buffer.ring.EndOf s.given
  whole : channels ∣ s.given.length

/-- A drop by the statistics is of whole frames. -/
def Aligns (sampleRate channels : Nat) (s : Player α) : Event α channels → Prop
  | .tryShrink dt => ∀ max, s.buffer.dropLevel s.having dt s.tms = some max →
      s.occupied > AudioBuffer.skipOf s.buffer.ring.capacity max * 3 →
      AudioBuffer.skipOf s.buffer.ring.capacity max > 0 → AudioBuffer.Whole sampleRate channels max
  | _ => True

section Runs

open Runs (Always Along)

variable {sampleRate : Nat} {s : Player α}

theorem law_iff (inv : Inv sampleRate channels s) : Law sampleRate channels s ↔ channels ∣ s.occupied := by
  have le : s.occupied ≤ s.given.length := inv.ends.occupied_le
  have turn : channels ∣ s.removed ↔ channels ∣ s.occupied := (Nat.dvd_sub_iff_right le inv.whole)
  constructor
  · intro law
    exact turn.mp law.aligned
  · intro aligned
    refine ⟨turn.mpr aligned, inv.ends.content_eq, ?_⟩
    have fits : s.occupied ≤ sampleRate * channels * audioBufferMs / 1000 :=
      inv.capacity ▸ s.buffer.ring.fits
    omega

theorem Inv.step (inv : Inv sampleRate channels s) (e : Event α channels) :
    Inv sampleRate channels (s.step e) := by
  cases e with
  | appendPcm2 buffer whole =>
      refine ⟨?_, ?_, ?_⟩
      · simpa [Player.step] using inv.capacity
      · exact AudioBuffer.endOf_appendPcm2 _ _ inv.ends
      · simpa [Player.step] using Nat.dvd_add inv.whole whole
  | tryShrink dt =>
      have ring := AudioBuffer.ring_tryShrink s.buffer s.having dt s.tms
      refine ⟨?_, ?_, inv.whole⟩
      · simp only [Player.step, ring]
        split
        · simpa using inv.capacity
        · exact inv.capacity
      · simp only [Player.step, ring]
        split
        · exact AudioBuffer.endOf_shrunk _ _ inv.ends
        · exact inv.ends
  | play n whole => exact ⟨inv.capacity, inv.ends.skip n, inv.whole⟩

/-- The capacity is a number of whole frames, so only a drop by the statistics can cut one. -/
theorem dvd_step_iff (positive : 0 < channels) (inv : Inv sampleRate channels s) (aligned : channels ∣ s.occupied)
    (e : Event α channels) : channels ∣ (s.step e).occupied ↔ Aligns sampleRate channels s e := by
  cases e with
  | appendPcm2 buffer whole =>
      refine iff_of_true ?_ trivial
      have capacity : channels ∣ s.buffer.ring.capacity := by
        rw [inv.capacity, AudioBuffer.three_seconds, Nat.mul_left_comm]
        exact Nat.dvd_mul_left_of_dvd (Nat.dvd_mul_left channels 3) sampleRate
      simp only [Player.step, occupied, AudioBuffer.occupied_appendPcm2]
      cases Nat.le_total (s.buffer.ring.occupied + buffer.length) s.buffer.ring.capacity with
      | inl fits =>
          rw [Nat.min_eq_left fits]
          exact Nat.dvd_add aligned whole
      | inr full =>
          rw [Nat.min_eq_right full]
          exact capacity
  | tryShrink dt =>
      simp only [Player.step, occupied, AudioBuffer.ring_tryShrink, Aligns]
      cases s.buffer.dropLevel s.having dt s.tms with
      | none => exact iff_of_true aligned nofun
      | some max =>
          have dvd : channels ∣ AudioBuffer.skipOf s.buffer.ring.capacity max ↔
              AudioBuffer.Whole sampleRate channels max := by
            rw [inv.capacity, AudioBuffer.dvd_skipOf_iff positive]
          simp only [AudioBuffer.occupied_shrunk, Option.some.injEq, forall_eq']
          split
          · rename_i enough
            have less : AudioBuffer.skipOf s.buffer.ring.capacity max ≤ s.buffer.ring.occupied := by omega
            rw [Nat.dvd_sub_iff_right less aligned, dvd]
            exact ⟨fun whole _ _ => whole, fun whole => whole enough.1 enough.2⟩
          · rename_i little
            exact iff_of_true aligned fun more some_ => absurd ⟨more, some_⟩ little
  | play n whole =>
      refine iff_of_true ?_ trivial
      simp only [Player.step, occupied, AudioBuffer.play, RingBuffer.occupied_skip]
      exact Nat.dvd_sub aligned whole

variable (b : AudioBuffer α) (having : Nat) (tms : Int)

theorem inv_start (whole : channels ∣ (b.resize sampleRate channels).ring.occupied) :
    Inv sampleRate channels (start b sampleRate channels having tms) :=
  ⟨b.capacity_resize sampleRate channels, RingBuffer.endOf_content, whole⟩

theorem always_iff_along (positive : 0 < channels)
    (whole : channels ∣ (b.resize sampleRate channels).ring.occupied) (events : List (Event α channels)) :
    Always Player.step (Law sampleRate channels) (start b sampleRate channels having tms) events ↔
      Along Player.step (Aligns sampleRate channels) (start b sampleRate channels having tms) events := by
  have inv := inv_start b having tms whole
  have exact_ (s : Player α) (e : Event α channels) (inv : Inv sampleRate channels s)
      (law : Law sampleRate channels s) :
      Law sampleRate channels (s.step e) ↔ Aligns sampleRate channels s e := by
    rw [law_iff (inv.step e)]
    exact dvd_step_iff positive inv ((law_iff inv).mp law) e
  exact Runs.always_iff_along_of_inv (fun s e inv => inv.step e) exact_ inv ((law_iff inv).mpr whole)

/-- When a resize leaves whole frames in the buffer, the runs that stay aligned are those whose drops by the
    statistics are of whole frames. When it leaves others, a playback of all that is there breaks them. -/
theorem aligned_iff (positive : 0 < channels) :
    (channels ∣ (b.resize sampleRate channels).ring.occupied →
      ∀ events : List (Event α channels),
        Always Player.step (Law sampleRate channels) (start b sampleRate channels having tms) events ↔
          Along Player.step (Aligns sampleRate channels) (start b sampleRate channels having tms) events) ∧
      (¬channels ∣ (b.resize sampleRate channels).ring.occupied →
        ∃ events : List (Event α channels),
          ¬Always Player.step (Law sampleRate channels) (start b sampleRate channels having tms) events) := by
  constructor
  · exact always_iff_along b having tms positive
  · intro cut
    let all : Event α channels :=
      .play (channels * (b.resize sampleRate channels).ring.occupied) (Nat.dvd_mul_right ..)
    refine ⟨[all], fun always => cut ?_⟩
    have removed := always.last.aligned
    have emptied : (b.resize sampleRate channels).ring.occupied -
        channels * (b.resize sampleRate channels).ring.occupied = 0 := by
      apply Nat.sub_eq_zero_of_le
      exact Nat.le_mul_of_pos_left _ positive
    simp only [all, Runs.exec_cons, Runs.exec_nil, Player.removed, Player.occupied, Player.step, AudioBuffer.play,
      start, RingBuffer.occupied_skip, emptied] at removed
    exact removed

/-- Two frames come, and one is played. -/
def twoFrames : List (Event Nat 2) :=
  [.appendPcm2 [1, 2, 3, 4] (by decide), .tryShrink 5, .play 2 (by decide)]

theorem aligned_stereo :
    Always Player.step (Law 48000 2) (start AudioBuffer.default_ 48000 2 0 0) twoFrames :=
  ((aligned_iff AudioBuffer.default_ 0 0 (by decide)).1 (by decide) twoFrames).mpr
    ⟨trivial, fun _ _ _ _ => AudioBuffer.whole_of_le_two (by decide) (by decide), trivial, trivial⟩

/-- Samples of six channels at 44100 Hz are buffered for twelve seconds. -/
def sixChannels (buffer : List Unit) (whole : 6 ∣ buffer.length) : List (Event Unit 6) :=
  [.appendPcm2 buffer whole, .tryShrink 1, .appendPcm2 [] (by decide), .tryShrink 12001]

/-- With three quarters of a second the level is 7, at which 46306 samples are dropped. -/
theorem not_along_sixChannels {buffer : List Unit} (length : buffer.length = 198000)
    (whole : 6 ∣ buffer.length) :
    ¬Along Player.step (Aligns 44100 6) (start AudioBuffer.default_ 44100 6 0 0) (sixChannels buffer whole) := by
  intro along
  obtain ⟨-, -, -, drops, -⟩ := along
  have early : ¬AudioBuffer.Due 0 1 := by decide
  have resized : (AudioBuffer.default_ : AudioBuffer Unit).resize 44100 6 = ⟨.empty 793800, 264600,
    List.replicate 30 0⟩ := by
    simp [AudioBuffer.resize, AudioBuffer.default_, audioBufferMs, RingBuffer.empty]
  simp only [Aligns, Player.step, start, resized, AudioBuffer.fst_appendPcm2,
    AudioBuffer.tryShrink_of_not_due _ _ _ _ early, AudioBuffer.dropLevel, AudioBuffer.counted, Player.occupied,
    AudioBuffer.occupied_appendPcm2, AudioBuffer.levels_appendPcm2, AudioBuffer.perSecond_appendPcm2,
    AudioBuffer.capacity_appendPcm2, RingBuffer.occupied_empty, length, List.length_nil] at drops
  exact absurd (drops 7 (by decide +kernel) (by decide) (by decide)) (by decide)

/-- A drop that is no multiple of the six channels. -/
theorem six_channels_cut :
    ¬∀ (sampleRate channels : Nat) (b : AudioBuffer Unit) (events : List (Event Unit channels)),
      0 < channels → Always Player.step (Law sampleRate channels) (start b sampleRate channels 0 0) events := by
  intro claimed
  have length : (List.replicate 198000 ()).length = 198000 := List.length_replicate
  have whole : 6 ∣ (List.replicate 198000 ()).length := ⟨33000, length.trans (by decide)⟩
  have always := claimed 44100 6 .default_ (sixChannels _ whole) (by decide)
  exact not_along_sixChannels length whole
    ((always_iff_along AudioBuffer.default_ 0 0 (by decide) (by decide) _).mp always)

end Runs

end Player

end RemoteControl.Audio
