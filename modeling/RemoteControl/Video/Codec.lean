import Mathlib.Data.List.AList
import RemoteControl.Runs
import RemoteControl.Tally

/-! # Negotiation of the video codec

`Encoder::update` keeps what every peer can decode and which format it prefers, and
settles on a format for all of them: the one that most of them prefer among those that
can be used, or else one of its own choice.

Whether all peers can decode VP9 is never asked. A preference for it always counts, and it
is the choice when there is no other, although a peer whose VP9 decoder has failed
declares that it cannot.
-/

namespace RemoteControl.Video

inductive CodecFormat where
  | vp8
  | vp9
  | av1
  | h264
  | h265
  | unknown
  deriving DecidableEq

/-- `PreferCodec`, by its number in messages. -/
inductive PreferCodec where
  | auto
  | vp9
  | h264
  | h265
  | vp8
  | av1
  deriving DecidableEq

namespace PreferCodec

def value : PreferCodec → Int
  | auto => 0
  | vp9 => 1
  | h264 => 2
  | h265 => 3
  | vp8 => 4
  | av1 => 5

/-- `enum_value_or(PreferCodec::Auto)` -/
def ofValue (value : Int) : PreferCodec :=
  if value = 1 then vp9
  else if value = 2 then h264
  else if value = 3 then h265
  else if value = 4 then vp8
  else if value = 5 then av1
  else auto

@[simp] theorem ofValue_value (p : PreferCodec) : ofValue p.value = p := by
  cases p <;> rfl

end PreferCodec

/-- What a peer says about its decoders. Its preference is a number that need not be known. -/
structure SupportedDecoding where
  abilityVp9 : Int := 0
  abilityH264 : Int := 0
  abilityH265 : Int := 0
  prefer : Int := 0
  abilityVp8 : Int := 0
  abilityAv1 : Int := 0
  deriving DecidableEq

structure SupportedEncoding where
  vp8 : Bool
  av1 : Bool
  h264 : Bool
  h265 : Bool
  deriving DecidableEq

inductive EncodingUpdate where
  | update (id : Int) (decoding : SupportedDecoding)
  | remove (id : Int)
  | newOnlyVp9 (id : Int)
  | check

/-- What the host finds on its own side during an update. -/
structure Local where
  disableAv1 : Bool := false
  enableVramOption : Bool := false
  /-- `VRamEncoder::available` -/
  vramAvailable : CodecFormat → Bool := fun _ => false
  enableHwcodecOption : Bool := false
  /-- `HwRamEncoder::try_get` -/
  hwRamAvailable : CodecFormat → Bool := fun _ => false
  av1Test : Bool := true
  totalMemory : Nat := 0
  /-- The order in which the hash map is gone through. -/
  order : List SupportedDecoding → List SupportedDecoding := id
  orderPerm : ∀ peers, (order peers).Perm peers := by exact fun _ => .refl _

/-- `PEER_DECODINGS` -/
abbrev Decodings := AList fun _ : Int => SupportedDecoding

def Decodings.peers (decodings : Decodings) : List SupportedDecoding :=
  decodings.entries.map Sigma.snd

/-- The statics of the encoder. -/
structure Negotiation where
  peerDecodings : Decodings := ∅
  encodeCodecFormat : CodecFormat := .vp9
  usableEncoding : Option SupportedEncoding := none

namespace Negotiation

variable (env : Local)

/-- Which formats all `peers` can decode and an encoder is there for. -/
def usable (peers : List SupportedDecoding) : SupportedEncoding :=
  let anyone : Bool := 0 < peers.length
  let h264Decoding := anyone && peers.all (0 < ·.abilityH264)
  let h265Decoding := anyone && peers.all (0 < ·.abilityH265)
  let h264VramEncoding := env.enableVramOption && h264Decoding && env.vramAvailable .h264
  let h265VramEncoding := env.enableVramOption && h265Decoding && env.vramAvailable .h265
  let h264HwEncoding := env.enableHwcodecOption && h264Decoding && env.hwRamAvailable .h264
  let h265HwEncoding := env.enableHwcodecOption && h265Decoding && env.hwRamAvailable .h265
  { vp8 := anyone && peers.all (0 < ·.abilityVp8)
    av1 := anyone && peers.all (0 < ·.abilityAv1) && !env.disableAv1
    h264 := h264Decoding && (h264VramEncoding || h264HwEncoding)
    h265 := h265Decoding && (h265VramEncoding || h265HwEncoding) }

def preferences (usable : SupportedEncoding) (peers : List SupportedDecoding) : List Int :=
  (peers.filter fun s =>
    s.prefer = PreferCodec.vp9.value
      || (s.prefer = PreferCodec.vp8.value && usable.vp8)
      || (s.prefer = PreferCodec.av1.value && usable.av1)
      || (s.prefer = PreferCodec.h264.value && usable.h264)
      || (s.prefer = PreferCodec.h265.value && usable.h265)).map (·.prefer)

/-- Four gigabytes. -/
def smallMemory : Nat := 4 * 1024 * 1024 * 1024

def autoCodec (usable : SupportedEncoding) : CodecFormat :=
  let codec := if usable.av1 && env.av1Test then .av1 else .vp9
  let codec := if usable.h264 then .h264 else codec
  let codec := if usable.h265 then .h265 else codec
  if (codec = .vp9 ∨ codec = .av1) ∧ usable.vp8 = true ∧ env.totalMemory ≤ smallMemory then .vp8
  else codec

/-- The format that an update settles on. An encoder for H264 or H265 has been looked for
    only if all peers can decode it, so that it is there exactly when the format is usable. -/
def choose (peers : List SupportedDecoding) : CodecFormat :=
  let usable := usable env peers
  let preference :=
    PreferCodec.ofValue ((Tally.winner (preferences usable peers)).getD PreferCodec.auto.value)
  match preference with
  | .vp8 => .vp8
  | .vp9 => .vp9
  | .av1 => .av1
  | .h264 => if usable.h264 then .h264 else autoCodec env usable
  | .h265 => if usable.h265 then .h265 else autoCodec env usable
  | .auto => autoCodec env usable

/-- What an update does to the decodings of the peers. -/
def register (decodings : Decodings) : EncodingUpdate → Decodings
  | .update id decoding => decodings.insert id decoding
  | .remove id => decodings.erase id
  | .newOnlyVp9 id => decodings.insert id { abilityVp9 := 1 }
  | .check => decodings

/-- `Encoder::update` -/
def update (s : Negotiation) (e : EncodingUpdate) : Negotiation :=
  let decodings := register s.peerDecodings e
  let peers := env.order decodings.peers
  { peerDecodings := decodings
    encodeCodecFormat := choose env peers
    usableEncoding := some (usable env peers) }

/-- One update and what the host finds meanwhile. -/
structure Event where
  env : Local
  update : EncodingUpdate

def step (s : Negotiation) (e : Event) : Negotiation := s.update e.env e.update

end Negotiation

namespace CodecFormat

/-- What a peer declares about the format. -/
def ability : CodecFormat → SupportedDecoding → Int
  | vp8, s => s.abilityVp8
  | vp9, s => s.abilityVp9
  | av1, s => s.abilityAv1
  | h264, s => s.abilityH264
  | h265, s => s.abilityH265
  | unknown, _ => 0

/-- The preference for the format. -/
def prefer : CodecFormat → Int
  | vp8 => PreferCodec.vp8.value
  | vp9 => PreferCodec.vp9.value
  | av1 => PreferCodec.av1.value
  | h264 => PreferCodec.h264.value
  | h265 => PreferCodec.h265.value
  | unknown => PreferCodec.auto.value

/-- `Encoder::supported_encoding`; VP9 is always there. -/
def encodable (env : Local) : CodecFormat → Bool
  | vp8 => true
  | vp9 => true
  | av1 => !env.disableAv1
  | h264 =>
      env.enableHwcodecOption && env.hwRamAvailable .h264 ||
        env.enableVramOption && env.vramAvailable .h264
  | h265 =>
      env.enableHwcodecOption && env.hwRamAvailable .h265 ||
        env.enableVramOption && env.vramAvailable .h265
  | unknown => false

theorem prefer_injective : Function.Injective prefer := by
  intro f g same
  cases f <;> cases g <;> first | rfl | exact absurd same (by decide)

end CodecFormat

namespace Negotiation

variable (env : Local) (peers : List SupportedDecoding)

/-- The host can encode the format, and all peers say that they can decode it. -/
def Usable (f : CodecFormat) : Prop := f.encodable env = true ∧ ∀ s ∈ peers, 0 < f.ability s

/-- How many peers prefer the format. -/
def holders (f : CodecFormat) : Nat := (peers.map (·.prefer)).count f.prefer

structure Agreed (format : CodecFormat) : Prop where
  decodable : (∃ f, Usable env peers f) → ∀ s ∈ peers, 0 < format.ability s
  preferred : (∃ f, Usable env peers f ∧ 0 < holders peers f) →
    Usable env peers format ∧ 0 < holders peers format ∧
      ∀ f, Usable env peers f → holders peers f ≤ holders peers format

/-! ## When VP9 is chosen -/

/-- More peers prefer VP9 than any usable format, or as many and the first of them. -/
def Vp9Preferred : Prop :=
  0 < holders peers .vp9 ∧ ∀ f ≠ .vp9, Usable env peers f → 0 < holders peers f →
    holders peers f < holders peers .vp9 ∨ holders peers f = holders peers .vp9 ∧
      Tally.ComesBefore (peers.map (·.prefer)) CodecFormat.vp9.prefer f.prefer

/-- Nobody prefers VP9 or a usable format, and nothing else can be chosen for them. -/
def Vp9Left : Prop :=
  (∀ f, f = .vp9 ∨ Usable env peers f → holders peers f = 0) ∧
    ¬ Usable env peers .h264 ∧ ¬ Usable env peers .h265 ∧
      ¬ (Usable env peers .av1 ∧ env.av1Test = true) ∧
        ¬ (Usable env peers .vp8 ∧ env.totalMemory ≤ smallMemory)

/-- All peers can decode VP9, or there is no usable format, or VP9 is not chosen. -/
def Vp9Harmless : Prop :=
  (∀ s ∈ peers, 0 < s.abilityVp9) ∨ (∀ f, ¬ Usable env peers f) ∨
    ¬ (Vp9Preferred env peers ∨ Vp9Left env peers)

section Preferences

variable {env peers}

/-- Whose preferences count. -/
def counted (usable : SupportedEncoding) : CodecFormat → Bool
  | .vp8 => usable.vp8
  | .vp9 => true
  | .av1 => usable.av1
  | .h264 => usable.h264
  | .h265 => usable.h265
  | .unknown => false

def countedValue (usable : SupportedEncoding) (value : Int) : Bool :=
  value = PreferCodec.vp9.value || (value = PreferCodec.vp8.value && usable.vp8)
    || (value = PreferCodec.av1.value && usable.av1)
    || (value = PreferCodec.h264.value && usable.h264)
    || (value = PreferCodec.h265.value && usable.h265)

theorem preferences_eq (usable : SupportedEncoding) :
    preferences usable peers = (peers.map (·.prefer)).filter (countedValue usable) := by
  rw [List.filter_map]
  rfl

@[simp] theorem countedValue_prefer (usable : SupportedEncoding) (f : CodecFormat) :
    countedValue usable f.prefer = counted usable f := by
  cases f <;> simp [countedValue, counted, CodecFormat.prefer, PreferCodec.value]

theorem exists_of_countedValue {usable : SupportedEncoding} {value : Int}
    (counts : countedValue usable value = true) :
    ∃ f, counted usable f = true ∧ value = f.prefer := by
  simp only [countedValue, Bool.or_eq_true, Bool.and_eq_true, decide_eq_true_eq] at counts
  rcases counts with (((eq | ⟨eq, fine⟩) | ⟨eq, fine⟩) | ⟨eq, fine⟩) | ⟨eq, fine⟩
  · exact ⟨.vp9, rfl, eq⟩
  · exact ⟨.vp8, fine, eq⟩
  · exact ⟨.av1, fine, eq⟩
  · exact ⟨.h264, fine, eq⟩
  · exact ⟨.h265, fine, eq⟩

variable {f : CodecFormat}

theorem count_preferences {usable : SupportedEncoding} (counts : counted usable f = true) :
    (preferences usable peers).count f.prefer = holders peers f := by
  rw [preferences_eq, List.count_filter (by rwa [countedValue_prefer]), holders]

theorem mem_preferences {usable : SupportedEncoding} :
    f.prefer ∈ preferences usable peers ↔ counted usable f = true ∧ 0 < holders peers f := by
  rw [preferences_eq, List.mem_filter, countedValue_prefer, holders, List.count_pos_iff, and_comm]

theorem comesBefore_preferences {usable : SupportedEncoding} {g : CodecFormat}
    (countsF : counted usable f = true) (countsG : counted usable g = true) :
    Tally.ComesBefore (preferences usable peers) f.prefer g.prefer ↔
      Tally.ComesBefore (peers.map (·.prefer)) f.prefer g.prefer := by
  rw [preferences_eq, Tally.comesBefore_filter (by simpa) (by simpa)]

/-- Who wins among the preferences that count. -/
theorem wins_preferences_iff {usable : SupportedEncoding} :
    Tally.Wins (preferences usable peers) f.prefer ↔
      counted usable f = true ∧ 0 < holders peers f ∧
        ∀ g ≠ f, counted usable g = true → 0 < holders peers g →
          holders peers g < holders peers f ∨ holders peers g = holders peers f ∧
            Tally.ComesBefore (peers.map (·.prefer)) f.prefer g.prefer := by
  rw [Tally.Wins, mem_preferences, and_assoc]
  refine and_congr_right fun counts => and_congr_right fun _ => ?_
  constructor
  · intro wins g other countsG held
    have beaten := wins g.prefer (mem_preferences.mpr ⟨countsG, held⟩)
      (fun same => other (CodecFormat.prefer_injective same))
    rwa [count_preferences countsG, count_preferences counts,
      comesBefore_preferences counts countsG] at beaten
  · intro wins value member other
    obtain ⟨g, countsG, rfl⟩ := exists_of_countedValue (by
      rw [preferences_eq, List.mem_filter] at member
      exact member.2)
    rw [count_preferences countsG, count_preferences counts,
      comesBefore_preferences counts countsG]
    exact wins g (fun same => other (congrArg _ same)) countsG (mem_preferences.mp member).2

theorem choose_of_winner (counts : counted (usable env peers) f = true)
    (won : Tally.winner (preferences (usable env peers) peers) = some f.prefer) :
    choose env peers = f := by
  simp only [choose, won, Option.getD_some]
  cases f <;> simp_all [CodecFormat.prefer, counted]

theorem choose_of_none (nobody : preferences (usable env peers) peers = []) :
    choose env peers = autoCodec env (usable env peers) := by
  simp only [choose, Tally.winner_eq_none_iff.mpr nobody, Option.getD_none,
    PreferCodec.ofValue_value]

theorem preferences_eq_nil_iff {usable : SupportedEncoding} :
    preferences usable peers = [] ↔ ∀ f, counted usable f = true → holders peers f = 0 := by
  constructor
  · intro nobody f counts
    rw [← count_preferences counts, nobody, List.count_nil]
  · intro none_
    rw [List.eq_nil_iff_forall_not_mem]
    intro value member
    obtain ⟨f, counts, rfl⟩ := exists_of_countedValue (by
      rw [preferences_eq, List.mem_filter] at member
      exact member.2)
    have held := (mem_preferences.mp member).2
    rw [none_ f counts] at held
    exact absurd held (Nat.lt_irrefl 0)

theorem usable_iff (anyone : peers ≠ []) (other : f ≠ .vp9) :
    counted (usable env peers) f = true ↔ Usable env peers f := by
  have some_ := List.length_pos_iff.mpr anyone
  cases f with
  | vp9 => exact absurd rfl other
  | vp8 => simp [counted, usable, Usable, CodecFormat.encodable, CodecFormat.ability, some_]
  | av1 =>
      simp [counted, usable, Usable, CodecFormat.encodable, CodecFormat.ability, some_, and_comm]
  | h264 =>
      simp [counted, usable, Usable, CodecFormat.encodable, CodecFormat.ability, some_]
      grind
  | h265 =>
      simp [counted, usable, Usable, CodecFormat.encodable, CodecFormat.ability, some_]
      grind
  | unknown => simp [counted, Usable, CodecFormat.encodable]

theorem counted_iff (anyone : peers ≠ []) :
    counted (usable env peers) f = true ↔ f = .vp9 ∨ Usable env peers f := by
  by_cases vp9 : f = .vp9
  · simp [vp9, counted]
  · simp [vp9, usable_iff anyone vp9]

/-- The choice that is left is VP9, or a usable format. -/
theorem autoCodec_eq (usable : SupportedEncoding) :
    counted usable (autoCodec env usable) = true ∧
      (autoCodec env usable = .vp9 ↔ usable.h264 = false ∧ usable.h265 = false ∧
        ¬ (usable.av1 = true ∧ env.av1Test = true) ∧
          ¬ (usable.vp8 = true ∧ env.totalMemory ≤ smallMemory)) := by
  obtain ⟨vp8, av1, h264, h265⟩ := usable
  simp only [autoCodec]
  cases vp8 <;> cases av1 <;> cases h264 <;> cases h265 <;> cases env.av1Test <;>
    by_cases small : env.totalMemory ≤ smallMemory <;> simp [counted, small]

/-- Either the winner of the votes that count is chosen, or there are none. -/
theorem choose_cases (env : Local) (peers : List SupportedDecoding) :
    (∃ f, Tally.Wins (preferences (usable env peers) peers) f.prefer ∧ choose env peers = f) ∨
      (∀ f, counted (usable env peers) f = true → holders peers f = 0) ∧
        choose env peers = autoCodec env (usable env peers) := by
  by_cases nobody : preferences (usable env peers) peers = []
  · exact Or.inr ⟨preferences_eq_nil_iff.mp nobody, choose_of_none nobody⟩
  · obtain ⟨value, won⟩ := Option.isSome_iff_exists.mp (Tally.winner_isSome nobody)
    have wins := Tally.wins_of_winner won
    obtain ⟨f, counts, rfl⟩ := exists_of_countedValue (by
      have member := wins.1
      rw [preferences_eq, List.mem_filter] at member
      exact member.2)
    exact Or.inl ⟨f, wins, choose_of_winner counts won⟩

theorem choose_usable (env : Local) (anyone : peers ≠ []) :
    choose env peers = .vp9 ∨ Usable env peers (choose env peers) := by
  rw [← counted_iff anyone]
  rcases choose_cases env peers with ⟨f, wins, eq⟩ | ⟨-, eq⟩
  · rw [eq]
    exact (wins_preferences_iff.mp wins).1
  · rw [eq]
    exact (autoCodec_eq _).1

theorem vp9Preferred_iff (anyone : peers ≠ []) :
    Tally.Wins (preferences (usable env peers) peers) CodecFormat.vp9.prefer ↔
      Vp9Preferred env peers := by
  rw [wins_preferences_iff, Vp9Preferred]
  constructor
  · rintro ⟨-, held, beats⟩
    exact ⟨held, fun f other fine => beats f other ((usable_iff anyone other).mpr fine)⟩
  · rintro ⟨held, beats⟩
    exact ⟨rfl, held, fun f other fine => beats f other ((usable_iff anyone other).mp fine)⟩

theorem choose_eq_vp9_iff (anyone : peers ≠ []) :
    choose env peers = .vp9 ↔ Vp9Preferred env peers ∨ Vp9Left env peers := by
  have left_iff : Vp9Left env peers ↔
      (∀ f, counted (usable env peers) f = true → holders peers f = 0) ∧
        autoCodec env (usable env peers) = .vp9 := by
    have h264 : (usable env peers).h264 = true ↔ _ := usable_iff anyone (f := .h264) (by decide)
    have h265 : (usable env peers).h265 = true ↔ _ := usable_iff anyone (f := .h265) (by decide)
    have av1 : (usable env peers).av1 = true ↔ _ := usable_iff anyone (f := .av1) (by decide)
    have vp8 : (usable env peers).vp8 = true ↔ _ := usable_iff anyone (f := .vp8) (by decide)
    simp only [Vp9Left, counted_iff anyone, (autoCodec_eq _).2, h264, h265, av1, vp8,
      ← Bool.not_eq_true]
  rw [left_iff]
  rcases choose_cases env peers with ⟨f, wins, eq⟩ | ⟨nobody, eq⟩
  · obtain ⟨counts, held, -⟩ := wins_preferences_iff.mp wins
    have someone : ¬ ∀ f, counted (usable env peers) f = true → holders peers f = 0 := by
      intro nobody
      exact absurd (nobody f counts) (Nat.ne_of_gt held)
    rw [eq, ← vp9Preferred_iff anyone]
    simp only [someone, false_and, or_false]
    constructor
    · rintro rfl
      exact wins
    · intro wins'
      exact CodecFormat.prefer_injective (Tally.wins_unique wins wins')
  · have notPreferred : ¬ Vp9Preferred env peers := by
      rintro ⟨held, -⟩
      exact absurd (nobody .vp9 rfl) (Nat.ne_of_gt held)
    rw [eq]
    simp only [notPreferred, false_or]
    exact ⟨fun left_ => ⟨nobody, left_⟩, fun left_ => left_.2⟩

/-- A chosen format that is usable is what the peers can expect. -/
theorem agreed_of_usable (anyone : peers ≠ []) (fine : Usable env peers (choose env peers)) :
    Agreed env peers (choose env peers) where
  decodable _ := fine.2
  preferred := by
    rintro ⟨g, usableG, heldG⟩
    rcases choose_cases env peers with ⟨f, wins, eq⟩ | ⟨nobody, -⟩
    · obtain ⟨-, held, beats⟩ := wins_preferences_iff.mp wins
      rw [eq] at fine ⊢
      refine ⟨fine, held, fun g usableG => ?_⟩
      by_cases same : g = f
      · rw [same]
      · by_cases heldG : 0 < holders peers g
        · rcases beats g same ((counted_iff anyone).mpr (Or.inr usableG)) heldG with less | ⟨equal, -⟩
          · exact Nat.le_of_lt less
          · exact Nat.le_of_eq equal
        · omega
    · exact absurd (nobody g ((counted_iff anyone).mpr (Or.inr usableG))) (Nat.ne_of_gt heldG)

/-- An update meets what the peers can expect exactly when VP9 does no harm. -/
theorem agreed_iff : Agreed env peers (choose env peers) ↔ Vp9Harmless env peers := by
  by_cases anyone : peers = []
  · subst anyone
    refine ⟨fun _ => Or.inl (by simp), fun _ => ⟨by simp, ?_⟩⟩
    rintro ⟨f, -, held⟩
    exact absurd held (by simp [holders])
  · by_cases decodable : ∀ s ∈ peers, 0 < s.abilityVp9
    · refine ⟨fun _ => Or.inl decodable, fun _ => agreed_of_usable anyone ?_⟩
      rcases choose_usable env anyone with eq | fine
      · rw [eq]
        exact ⟨rfl, decodable⟩
      · exact fine
    · by_cases nothing : ∀ f, ¬ Usable env peers f
      · refine ⟨fun _ => Or.inr (Or.inl nothing), fun _ => ⟨?_, ?_⟩⟩
        · rintro ⟨f, fine⟩
          exact absurd fine (nothing f)
        · rintro ⟨f, fine, -⟩
          exact absurd fine (nothing f)
      · rw [Vp9Harmless, ← choose_eq_vp9_iff anyone]
        simp only [decodable, nothing, false_or]
        constructor
        · intro agreed eq
          rw [eq] at agreed
          exact decodable (agreed.decodable (by simpa using nothing))
        · intro other
          exact agreed_of_usable anyone ((choose_usable env anyone).resolve_left other)

theorem Agreed.perm {peers' : List SupportedDecoding} {format : CodecFormat}
    (same : peers.Perm peers') (agreed : Agreed env peers format) : Agreed env peers' format := by
  have usable_iff (f : CodecFormat) : Usable env peers f ↔ Usable env peers' f := by
    simp only [Usable, same.mem_iff]
  have holders_eq (f : CodecFormat) : holders peers f = holders peers' f :=
    (same.map _).count_eq _
  obtain ⟨decodable, preferred⟩ := agreed
  simp only [usable_iff, holders_eq, same.mem_iff] at decodable preferred
  exact ⟨decodable, preferred⟩

end Preferences

/-- What an update promises, about the peers that remain. -/
def Kept (s : Negotiation) (e : Event) : Prop :=
  Agreed e.env (s.step e).peerDecodings.peers (s.step e).encodeCodecFormat

/-- The condition on an update, about the peers it is for in the order it takes them in. -/
def Vp9Fine (s : Negotiation) (e : Event) : Prop :=
  Vp9Harmless e.env (e.env.order (register s.peerDecodings e.update).peers)

theorem kept_iff (s : Negotiation) (e : Event) : s.Kept e ↔ s.Vp9Fine e := by
  rw [Vp9Fine, ← agreed_iff]
  have perm := e.env.orderPerm (register s.peerDecodings e.update).peers
  exact ⟨fun kept => kept.perm perm.symm, fun agreed => agreed.perm perm⟩

/-- The updates of a run all keep their promise if and only if all of them meet the
    condition. -/
theorem along_kept_iff (s : Negotiation) (events : List Event) :
    Runs.Along step Kept s events ↔ Runs.Along step Vp9Fine s events :=
  Runs.along_congr_of_events (fun _ _ (_ : True) (_ : True) => trivial)
    (fun s e _ _ => kept_iff s e) (fun _ _ => trivial) trivial

/-- A peer whose VP9 decoder has failed, and who prefers nothing. -/
def withoutVp9 : SupportedDecoding := { abilityVp8 := 1, abilityAv1 := 1 }

theorem withoutVp9_not_kept :
    ¬ ∀ events : List Event, Runs.Along step Kept {} events := by
  intro all
  have kept := (all [⟨{ av1Test := false, totalMemory := 2 ^ 34 }, .update 1 withoutVp9⟩]).1
  have decodable := kept.decodable ⟨.vp8, rfl, by decide⟩ withoutVp9 (by decide)
  revert decodable
  decide

end Negotiation

end RemoteControl.Video
