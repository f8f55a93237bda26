import Mathlib.Algebra.Order.Floor.Div
import Mathlib.Data.List.AList
import RemoteControl.Runs
import RemoteControl.Video.NetworkDelay

/-! # Frame rates

The controller of `server/video_qos.rs` sets the frame rate from the delays of the viewers and
from the limits that they have asked for. Ratios are in hundredths, and what the controller does
to its own ratio is left out: the frame rate only looks at the quality that was asked for last.
-/

namespace RemoteControl.Video.Qos

open Runs (exec)

/-- `FPS` -/
def defaultFps : Nat := 30

def minFps : Nat := 1

def maxFps : Nat := 120

def initFps : Nat := 15

def brBest : Nat := 150

def brBalanced : Nat := 67

def brSpeed : Nat := 50

def brMax : Nat := 4000

def brMin : Nat := 20

/-- `clamp` of the ordered types. -/
def clamp (low high n : Nat) : Nat := min (max n low) high

inductive Quality where
  | best
  | balanced
  | low
  | custom (ratio : Nat)
  deriving DecidableEq

def Quality.ratio : Quality → Nat
  | .best => brBest
  | .balanced => brBalanced
  | .low => brSpeed
  | .custom ratio => ratio

/-- `convert_quality`, with the values of `ImageQuality`. -/
def convertQuality (q : Int) : Quality :=
  if q = 3 then .balanced
  else if q = 2 then .low
  else if q = 4 then .best
  else .custom (clamp brMin brMax ((q / 256 % 4096).toNat * 2))

structure UserData where
  autoAdjustFps : Option Nat := none
  customFps : Option Nat := none
  /-- When the quality was asked for, and the quality. -/
  quality : Option (Int × Quality) := none
  delay : UserDelay := {}
  deriving DecidableEq

/-- `user_fps` in `highest_fps`: the limit that a viewer asks for. -/
def UserData.userFps (u : UserData) : Nat :=
  let fps := u.customFps.getD defaultFps
  match u.autoAdjustFps with
  | some autoAdjustFps => if fps = 0 ∨ autoAdjustFps < fps then autoAdjustFps else fps
  | none => fps

abbrev Users := AList fun _ : Int => UserData

structure VideoQoS where
  fps : Nat := defaultFps
  users : Users := ∅

namespace VideoQoS

def all (q : VideoQoS) : List UserData := q.users.entries.map Sigma.snd

def highestFps (q : VideoQoS) : Nat :=
  clamp minFps maxFps (((q.all.map UserData.userFps).filter (· ≥ minFps)).min?.getD defaultFps)

/-- The later of two qualities, the second where they are from one time. -/
def later (a b : Int × Quality) : Int × Quality := if b.1 < a.1 then a else b

def latestQuality (q : VideoQoS) : Quality :=
  match q.all.filterMap UserData.quality with
  | [] => .balanced
  | first :: rest => (rest.foldl later first).2

/-- `fresh`: the last viewer is not here for a second. -/
def adjustFps (fresh : Bool) (q : VideoQoS) : VideoQoS :=
  let fps := (q.all.map fun u => u.delay.fps.getD initFps).min?.getD initFps
  let fps := if q.all.any (·.delay.responseDelayed) ∧ fps > minFps + 1 then minFps + 1 else fps
  let fps := if fresh ∧ fps > initFps then initFps else fps
  { q with fps := clamp minFps q.highestFps fps }

def onConnectionOpen (id : Int) (q : VideoQoS) : VideoQoS :=
  { q with users := q.users.insert id {} }

def onConnectionClose (id : Int) (q : VideoQoS) : VideoQoS :=
  let users := q.users.erase id
  if users.entries.isEmpty then {} else { q with users := users }

/-- What is done with a viewer that is there. -/
def withUser (id : Int) (change : UserData → UserData) (q : VideoQoS) : VideoQoS :=
  match q.users.lookup id with
  | some user => { q with users := q.users.insert id (change user) }
  | none => q

def userCustomFps (id : Int) (fps : Nat) (q : VideoQoS) : VideoQoS :=
  if fps < minFps ∨ fps > maxFps then q
  else q.withUser id fun user => { user with customFps := some fps }

def userAutoAdjustFps (id : Int) (fps : Nat) (q : VideoQoS) : VideoQoS :=
  if fps < minFps ∨ fps > maxFps then q
  else q.withUser id fun user => { user with autoAdjustFps := some fps }

def userImageQuality (id : Int) (imageQuality time : Int) (q : VideoQoS) : VideoQoS :=
  q.withUser id fun user => { user with quality := some (time, convertQuality imageQuality) }

/-- The least rate and the normal one of a quality. -/
def rates (targetRatio : Nat) : Nat × Nat :=
  if targetRatio ≥ brBest then (8, 16) else if targetRatio ≥ brBalanced then (10, 20) else (12, 24)

end VideoQoS

/-- The rate of each band of delays. `quick` counts the good samples, this one included. -/
def bandFps (leastFps normalFps fps quick oldAvgDelay avgDelay : Nat) : Nat :=
  let devideFps := (fps * delayThreshold150Ms) ⌈/⌉ avgDelay
  let dividendMs := delayThreshold150Ms * leastFps
  if avgDelay < 50 then
    max leastFps (fps + if quick ≥ 3 then 5 else if fps < normalFps then 1 else 0)
  else if avgDelay < 100 then
    max leastFps (fps + if avgDelay < oldAvgDelay then if fps < normalFps then 1 else 0 else 0)
  else if avgDelay < delayThreshold150Ms then max leastFps fps
  else if avgDelay < 200 then max leastFps devideFps
  else if avgDelay < 300 then min leastFps devideFps
  else if avgDelay < 600 then dividendMs / avgDelay
  else min (dividendMs / avgDelay) devideFps

/-- The average that the controller looks at after a sample. -/
def UserDelay.sampled (delay : Nat) (d : UserDelay) : Nat :=
  max (d.addDelay (max delay 10)).avgDelay 10

/-- `quick_increase_fps_count` when the rate is set. -/
def UserDelay.quickCount (avgDelay : Nat) (d : UserDelay) : Nat :=
  if avgDelay < 50 then d.quickIncreaseFpsCount + 1 else d.quickIncreaseFpsCount

/-- `increase_fps_count` when the rate is set. -/
def UserDelay.stableCount (avgDelay : Nat) (d : UserDelay) : Nat :=
  if avgDelay < delayThreshold150Ms then d.increaseFpsCount + 1 else 0

/-- The rate before the limits. -/
def UserDelay.adaptedFps (leastFps normalFps fps avgDelay : Nat) (d : UserDelay) : Nat :=
  bandFps leastFps normalFps fps (d.quickCount avgDelay) d.avgDelay avgDelay +
    if d.stableCount avgDelay ≥ 3 then 1 else 0

/-- The part of `user_network_delay` about the viewer itself. -/
def UserDelay.networkDelay (leastFps normalFps highestFps fps delay : Nat) (d : UserDelay) :
    UserDelay :=
  let avgDelay := d.sampled delay
  let quick := if avgDelay < 50 ∧ d.quickCount avgDelay ≥ 3 then 0 else d.quickCount avgDelay
  { d.addDelay (max delay 10) with
    fps := some (clamp minFps highestFps (d.adaptedFps leastFps normalFps fps avgDelay))
    quickIncreaseFpsCount := if avgDelay > 50 then 0 else quick
    increaseFpsCount := if d.stableCount avgDelay ≥ 3 then 0 else d.stableCount avgDelay }

namespace VideoQoS

def userNetworkDelay (id : Int) (delay : Nat) (fresh : Bool) (q : VideoQoS) : VideoQoS :=
  let highestFps := q.highestFps
  let (leastFps, normalFps) := rates q.latestQuality.ratio
  (q.withUser id fun user =>
    { user with delay := user.delay.networkDelay leastFps normalFps highestFps q.fps delay }).adjustFps fresh

def userDelayResponseElapsed (id : Int) (elapsed : Nat) (fresh : Bool) (q : VideoQoS) : VideoQoS :=
  match q.users.lookup id with
  | some user =>
      let delay := { user.delay with responseDelayed := elapsed > 2000 }
      if delay.responseDelayed then
        { q with users := q.users.insert id { user with delay := delay.addDelay (elapsed % 2 ^ 32) } }.adjustFps fresh
      else { q with users := q.users.insert id { user with delay := delay } }
  | none => q

inductive Event where
  | open (id : Int)
  | close (id : Int)
  | customFps (id : Int) (fps : Nat)
  | autoAdjustFps (id : Int) (fps : Nat)
  | imageQuality (id imageQuality time : Int)
  | networkDelay (id : Int) (delay : Nat) (fresh : Bool)
  | delayResponseElapsed (id : Int) (elapsed : Nat) (fresh : Bool)
  | updateDisplayData (fresh : Bool)
  /-- The map may list the viewers in any order. -/
  | rehash (users : Users)

def step (q : VideoQoS) : Event → VideoQoS
  | .open id => q.onConnectionOpen id
  | .close id => q.onConnectionClose id
  | .customFps id fps => q.userCustomFps id fps
  | .autoAdjustFps id fps => q.userAutoAdjustFps id fps
  | .imageQuality id imageQuality time => q.userImageQuality id imageQuality time
  | .networkDelay id delay fresh => q.userNetworkDelay id delay fresh
  | .delayResponseElapsed id elapsed fresh => q.userDelayResponseElapsed id elapsed fresh
  | .updateDisplayData fresh => q.adjustFps fresh
  | .rehash users => if users.entries.Perm q.users.entries then { q with users := users } else q

def reached (events : List Event) : VideoQoS := exec step {} events

end VideoQoS

/-! ## The bands -/

section Bands

variable {leastFps normalFps fps quick quick' oldAvgDelay avgDelay avgDelay' : Nat}

theorem clamp_le_clamp {low high a b : Nat} (le : a ≤ b) : clamp low high a ≤ clamp low high b :=
  min_le_min_right high (max_le_max_right low le)

theorem clamp_le (low high n : Nat) : clamp low high n ≤ high := min_le_right _ _

theorem le_clamp {low high : Nat} (n : Nat) (ordered : low ≤ high) : low ≤ clamp low high n :=
  le_min (le_max_right _ _) ordered

/-- A longer delay leaves less of a rate. -/
theorem ceilDiv_antitone (work : Nat) (positive : 0 < avgDelay) (worse : avgDelay ≤ avgDelay') :
    work ⌈/⌉ avgDelay' ≤ work ⌈/⌉ avgDelay := by
  rw [ceilDiv_le_iff_le_mul (positive.trans_le worse)]
  exact ((ceilDiv_le_iff_le_mul positive).mp le_rfl).trans (Nat.mul_le_mul_right _ worse)

/-- A delay over the threshold leaves no more than the rate itself. -/
theorem devideFps_le (fps : Nat) (slow : delayThreshold150Ms ≤ avgDelay) :
    (fps * delayThreshold150Ms) ⌈/⌉ avgDelay ≤ fps := by
  have positive : 0 < avgDelay := Nat.lt_of_lt_of_le (by decide) slow
  rw [ceilDiv_le_iff_le_mul positive, Nat.mul_comm]
  exact Nat.mul_le_mul_right fps slow

theorem dividend_le (leastFps : Nat) (slow : delayThreshold150Ms ≤ avgDelay) :
    delayThreshold150Ms * leastFps / avgDelay ≤ leastFps :=
  Nat.div_le_of_le_mul (Nat.mul_le_mul_right leastFps slow)

theorem le_bandFps (good : avgDelay < delayThreshold150Ms) :
    max leastFps fps ≤ bandFps leastFps normalFps fps quick oldAvgDelay avgDelay := by
  unfold bandFps
  dsimp only
  split_ifs
  all_goals first | exact le_rfl | exact max_le_max_left _ (Nat.le_add_right _ _)

/-- The bands over the threshold. -/
theorem bandFps_over (slow : delayThreshold150Ms ≤ avgDelay) :
    bandFps leastFps normalFps fps quick oldAvgDelay avgDelay =
      if avgDelay < 200 then max leastFps ((fps * delayThreshold150Ms) ⌈/⌉ avgDelay)
      else if avgDelay < 300 then min leastFps ((fps * delayThreshold150Ms) ⌈/⌉ avgDelay)
      else if avgDelay < 600 then delayThreshold150Ms * leastFps / avgDelay
      else min (delayThreshold150Ms * leastFps / avgDelay)
        ((fps * delayThreshold150Ms) ⌈/⌉ avgDelay) := by
  have far : 150 ≤ avgDelay := slow
  unfold bandFps
  dsimp only
  rw [if_neg (by omega), if_neg (by omega), if_neg (Nat.not_lt.mpr slow)]

theorem bandFps_le (slow : delayThreshold150Ms ≤ avgDelay) :
    bandFps leastFps normalFps fps quick oldAvgDelay avgDelay ≤ max leastFps fps := by
  have devide := devideFps_le fps slow
  have dividend := dividend_le leastFps slow
  rw [bandFps_over slow]
  split_ifs <;> omega

/-- Under the threshold, where the quick step only adds. -/
theorem bandFps_good (worse : avgDelay ≤ avgDelay') (good : avgDelay' < delayThreshold150Ms)
    (counted : avgDelay' < 50 → quick' = quick) :
    bandFps leastFps normalFps fps quick' oldAvgDelay avgDelay' ≤
      bandFps leastFps normalFps fps quick oldAvgDelay avgDelay := by
  unfold bandFps
  dsimp only
  by_cases fast' : avgDelay' < 50
  · have fast : avgDelay < 50 := worse.trans_lt fast'
    rw [if_pos fast', if_pos fast, counted fast']
  · rw [if_neg fast']
    by_cases fast : avgDelay < 50
    · rw [if_pos fast]
      split_ifs <;> omega
    · rw [if_neg fast]
      split_ifs <;> omega

/-- Over the threshold the bands fall too, but for the one where the current rate counts and
    the next one, where it does not. -/
theorem bandFps_slow (worse : avgDelay ≤ avgDelay') (slow : delayThreshold150Ms ≤ avgDelay)
    (apart : ¬(200 ≤ avgDelay ∧ avgDelay < 300 ∧ 300 ≤ avgDelay' ∧ avgDelay' < 600)) :
    bandFps leastFps normalFps fps quick' oldAvgDelay avgDelay' ≤
      bandFps leastFps normalFps fps quick oldAvgDelay avgDelay := by
  have positive : 0 < avgDelay := Nat.lt_of_lt_of_le (by decide) slow
  have falls : (fps * delayThreshold150Ms) ⌈/⌉ avgDelay' ≤ (fps * delayThreshold150Ms) ⌈/⌉ avgDelay :=
    ceilDiv_antitone _ positive worse
  have least : delayThreshold150Ms * leastFps / avgDelay ≤ leastFps := dividend_le leastFps slow
  have less : delayThreshold150Ms * leastFps / avgDelay' ≤ delayThreshold150Ms * leastFps / avgDelay :=
    Nat.div_le_div_left worse positive
  rw [bandFps_over slow, bandFps_over (slow.trans worse)]
  split_ifs <;> omega

/-- The band from 200 ms on slows down from the current rate, the one from 300 ms on does not
    look at it. -/
def Overtakes (leastFps highestFps fps avgDelay avgDelay' : Nat) : Prop :=
  (200 ≤ avgDelay ∧ avgDelay < 300) ∧ (300 ≤ avgDelay' ∧ avgDelay' < 600) ∧
    ∃ k, k < highestFps ∧ fps * delayThreshold150Ms ≤ avgDelay * k ∧
      (k + 1) * avgDelay' ≤ delayThreshold150Ms * leastFps

theorem bandFps_overtakes_iff {highestFps : Nat} (positive : 0 < fps) (allowed : minFps ≤ highestFps)
    (nearBand : 200 ≤ avgDelay ∧ avgDelay < 300) (farBand : 300 ≤ avgDelay' ∧ avgDelay' < 600) :
    clamp minFps highestFps (bandFps leastFps normalFps fps quick oldAvgDelay avgDelay) <
        clamp minFps highestFps (bandFps leastFps normalFps fps quick' oldAvgDelay avgDelay') ↔
      ∃ k, k < highestFps ∧ fps * delayThreshold150Ms ≤ avgDelay * k ∧
        (k + 1) * avgDelay' ≤ delayThreshold150Ms * leastFps := by
  have slow : delayThreshold150Ms ≤ avgDelay := by unfold delayThreshold150Ms; omega
  have slow' : delayThreshold150Ms ≤ avgDelay' := by unfold delayThreshold150Ms; omega
  have lasting : 0 < avgDelay := by omega
  have lasting' : 0 < avgDelay' := by omega
  have least := dividend_le leastFps slow'
  have devide (k : Nat) :
      (fps * delayThreshold150Ms) ⌈/⌉ avgDelay ≤ k ↔ fps * delayThreshold150Ms ≤ avgDelay * k :=
    ceilDiv_le_iff_le_mul lasting
  have dividend (k : Nat) : k + 1 ≤ delayThreshold150Ms * leastFps / avgDelay' ↔
      (k + 1) * avgDelay' ≤ delayThreshold150Ms * leastFps := Nat.le_div_iff_mul_le lasting'
  have some_work : 0 < (fps * delayThreshold150Ms) ⌈/⌉ avgDelay := by
    refine Nat.pos_of_ne_zero fun none => ?_
    have := (devide 0).mp none.le
    have : 0 < fps * delayThreshold150Ms := Nat.mul_pos positive (by decide)
    omega
  rw [bandFps_over slow, bandFps_over slow', if_neg (by omega), if_pos nearBand.2, if_neg (by omega),
    if_neg (by omega), if_pos farBand.2]
  simp only [← devide, ← dividend]
  unfold clamp minFps at *
  constructor
  · intro overtakes
    exact ⟨(fps * delayThreshold150Ms) ⌈/⌉ avgDelay, by omega, le_rfl, by omega⟩
  · rintro ⟨k, below, work, leaves⟩
    omega

end Bands

/-- With the current rate at least one, the sample with the longer average gives no higher rate
    but where the two bands cross. -/
theorem adaptedFps_le_iff {leastFps normalFps highestFps fps avgDelay avgDelay' : Nat} (d : UserDelay)
    (positive : 0 < fps) (allowed : minFps ≤ highestFps) (worse : avgDelay ≤ avgDelay') :
    clamp minFps highestFps (d.adaptedFps leastFps normalFps fps avgDelay') ≤
        clamp minFps highestFps (d.adaptedFps leastFps normalFps fps avgDelay) ↔
      ¬Overtakes leastFps highestFps fps avgDelay avgDelay' := by
  have faster_or_not : d.stableCount avgDelay' ≤ d.stableCount avgDelay := by
    unfold UserDelay.stableCount
    split_ifs <;> omega
  have step_le :
      (if d.stableCount avgDelay' ≥ 3 then 1 else 0) ≤ if d.stableCount avgDelay ≥ 3 then 1 else 0 := by
    split_ifs <;> omega
  by_cases bands : (200 ≤ avgDelay ∧ avgDelay < 300) ∧ 300 ≤ avgDelay' ∧ avgDelay' < 600
  · obtain ⟨nearBand, farBand⟩ := bands
    have unstable : d.stableCount avgDelay = 0 := if_neg (by unfold delayThreshold150Ms; omega)
    have unstable' : d.stableCount avgDelay' = 0 := if_neg (by unfold delayThreshold150Ms; omega)
    unfold UserDelay.adaptedFps Overtakes
    rw [unstable, unstable', ← Nat.not_lt, if_neg (by decide), Nat.add_zero, Nat.add_zero,
      bandFps_overtakes_iff positive allowed nearBand farBand]
    exact not_congr ⟨fun crossing => ⟨nearBand, farBand, crossing⟩, fun crossing => crossing.2.2⟩
  · refine iff_of_true (clamp_le_clamp (Nat.add_le_add ?_ step_le)) fun crossing =>
      bands ⟨crossing.1, crossing.2.1⟩
    by_cases slow : delayThreshold150Ms ≤ avgDelay
    · exact bandFps_slow worse slow fun crossing => bands ⟨⟨crossing.1, crossing.2.1⟩, crossing.2.2⟩
    · by_cases slow' : delayThreshold150Ms ≤ avgDelay'
      · exact (bandFps_le slow').trans (le_bandFps (Nat.not_le.mp slow))
      · refine bandFps_good worse (Nat.not_le.mp slow') fun fast' => ?_
        unfold UserDelay.quickCount
        rw [if_pos fast', if_pos (worse.trans_lt fast')]

/-- What the messages let a viewer ask for. -/
structure UserData.Asked (u : UserData) : Prop where
  custom : ∀ fps ∈ u.customFps, minFps ≤ fps
  auto : ∀ fps ∈ u.autoAdjustFps, minFps ≤ fps

theorem UserData.asked_new : ({} : UserData).Asked := ⟨nofun, nofun⟩

theorem UserData.Asked.minFps_le {u : UserData} (asked : u.Asked) : minFps ≤ u.userFps := by
  have custom : minFps ≤ u.customFps.getD defaultFps := by
    cases chosen : u.customFps with
    | none => decide
    | some fps => exact asked.custom fps chosen
  unfold UserData.userFps
  cases chosen : u.autoAdjustFps with
  | none => exact custom
  | some fps =>
      dsimp only
      split_ifs
      · exact asked.auto fps chosen
      · exact custom

namespace VideoQoS

variable {q : VideoQoS} {id : Int} {user : UserData} {change : UserData → UserData}

theorem mem_all : user ∈ q.all ↔ ∃ id, q.users.lookup id = some user := by
  unfold all
  rw [List.mem_map]
  constructor
  · rintro ⟨⟨id, user'⟩, listed, rfl⟩
    exact ⟨id, AList.mem_lookup_iff.mpr listed⟩
  · rintro ⟨id, known⟩
    exact ⟨⟨id, user⟩, AList.mem_lookup_iff.mp known, rfl⟩

/-- The controller runs at one frame at least, and the limits are ones that may be asked for. -/
structure Inv (q : VideoQoS) : Prop where
  fps : minFps ≤ q.fps
  asked : ∀ user ∈ q.all, user.Asked

theorem minFps_le_highestFps (q : VideoQoS) : minFps ≤ q.highestFps := le_clamp _ (by decide)

theorem highestFps_le (asked : ∀ user ∈ q.all, user.Asked) (listed : user ∈ q.all) :
    q.highestFps ≤ user.userFps := by
  have allowed : user.userFps ∈ (q.all.map UserData.userFps).filter (· ≥ minFps) :=
    List.mem_filter.mpr ⟨List.mem_map_of_mem listed, decide_eq_true (asked user listed).minFps_le⟩
  unfold highestFps
  cases least : ((q.all.map UserData.userFps).filter (· ≥ minFps)).min? with
  | none => exact absurd allowed (List.min?_eq_none_iff.mp least ▸ List.not_mem_nil)
  | some fps =>
      have le : fps ≤ user.userFps := (List.min?_eq_some_iff.mp least).2 _ allowed
      have positive := (asked user listed).minFps_le
      show clamp minFps maxFps fps ≤ user.userFps
      exact (min_le_left _ _).trans (max_le le positive)

/-- A rate that every viewer allows. -/
def Bounded (q : VideoQoS) (fps : Nat) : Prop := minFps ≤ fps ∧ ∀ user ∈ q.all, fps ≤ user.userFps

theorem adjustFps_bounded (fresh : Bool) (asked : ∀ user ∈ q.all, user.Asked) :
    (q.adjustFps fresh).Bounded (q.adjustFps fresh).fps :=
  ⟨le_clamp _ q.minFps_le_highestFps,
    fun _ listed => (clamp_le _ _ _).trans (highestFps_le asked listed)⟩

theorem inv_adjustFps (fresh : Bool) (asked : ∀ user ∈ q.all, user.Asked) : (q.adjustFps fresh).Inv :=
  ⟨le_clamp _ q.minFps_le_highestFps, asked⟩

/-- A viewer that is there after a change was there before it, or is the one that was put in. -/
theorem asked_insert (asked : ∀ user ∈ q.all, user.Asked) (fine : user.Asked) :
    ∀ other ∈ all { q with users := q.users.insert id user }, other.Asked := by
  intro other listed
  obtain ⟨id', known⟩ := mem_all.mp listed
  by_cases same : id' = id
  · subst same
    dsimp only at known
    rw [AList.lookup_insert] at known
    exact Option.some.inj known ▸ fine
  · dsimp only at known
    rw [AList.lookup_insert_ne same] at known
    exact asked other (mem_all.mpr ⟨id', known⟩)

theorem asked_withUser (asked : ∀ user ∈ q.all, user.Asked)
    (keep : ∀ user, user.Asked → (change user).Asked) :
    ∀ other ∈ (q.withUser id change).all, other.Asked := by
  unfold withUser
  cases known : q.users.lookup id with
  | none => exact asked
  | some user => exact asked_insert asked (keep user (asked user (mem_all.mpr ⟨id, known⟩)))

theorem withUser_fps (id : Int) (change : UserData → UserData) (q : VideoQoS) :
    (q.withUser id change).fps = q.fps := by
  unfold withUser
  split <;> rfl

theorem inv_withUser (inv : q.Inv) (keep : ∀ user, user.Asked → (change user).Asked) :
    (q.withUser id change).Inv :=
  ⟨(withUser_fps id change q).symm ▸ inv.fps, asked_withUser inv.asked keep⟩

theorem inv_step (q : VideoQoS) (e : Event) (inv : q.Inv) : (q.step e).Inv := by
  cases e with
  | «open» id => exact ⟨inv.fps, asked_insert inv.asked UserData.asked_new⟩
  | close id =>
      unfold step onConnectionClose
      dsimp only
      split
      · exact ⟨by decide, fun _ listed => absurd listed List.not_mem_nil⟩
      · refine ⟨inv.fps, fun other listed => ?_⟩
        obtain ⟨id', known⟩ := mem_all.mp listed
        by_cases same : id' = id
        · subst same
          exact absurd ((AList.lookup_erase id' q.users).symm.trans known) nofun
        · exact inv.asked other (mem_all.mpr ⟨id', (AList.lookup_erase_ne same).symm.trans known⟩)
  | customFps id fps =>
      unfold step userCustomFps
      dsimp only
      split
      · exact inv
      · exact inv_withUser inv fun user fine => ⟨fun fps' chosen => by cases chosen; omega, fine.auto⟩
  | autoAdjustFps id fps =>
      unfold step userAutoAdjustFps
      dsimp only
      split
      · exact inv
      · exact inv_withUser inv fun user fine => ⟨fine.custom, fun fps' chosen => by cases chosen; omega⟩
  | imageQuality id imageQuality time => exact inv_withUser inv fun user fine =>
    ⟨fine.custom, fine.auto⟩
  | networkDelay id delay fresh =>
      exact inv_adjustFps fresh (asked_withUser inv.asked fun user fine => ⟨fine.custom, fine.auto⟩)
  | delayResponseElapsed id elapsed fresh =>
      unfold step userDelayResponseElapsed
      dsimp only
      cases known : q.users.lookup id with
      | none => exact inv
      | some user =>
          have fine := inv.asked user (mem_all.mpr ⟨id, known⟩)
          dsimp only
          split
          · exact inv_adjustFps fresh (asked_insert inv.asked ⟨fine.custom, fine.auto⟩)
          · exact ⟨inv.fps, asked_insert inv.asked ⟨fine.custom, fine.auto⟩⟩
  | updateDisplayData fresh => exact inv_adjustFps fresh inv.asked
  | rehash users =>
      unfold step
      dsimp only
      split
      case isTrue same =>
        refine ⟨inv.fps, fun other listed => ?_⟩
        obtain ⟨id', known⟩ := mem_all.mp listed
        exact inv.asked other (mem_all.mpr ⟨id', (AList.perm_lookup same).symm.trans known⟩)
      case isFalse => exact inv

theorem inv_reached (events : List Event) : (reached events).Inv :=
  (Runs.always_of_events (fun q e (_ : True) inv => inv_step q e inv) (fun _ _ => trivial)
    ⟨by decide, fun _ listed => absurd listed List.not_mem_nil⟩).last

def fpsOf (id : Int) (q : VideoQoS) : Option Nat := (q.users.lookup id).bind (·.delay.fps)

theorem fpsOf_userNetworkDelay (delay : Nat) (fresh : Bool) (known : q.users.lookup id = some user) :
    (q.userNetworkDelay id delay fresh).fpsOf id =
      some (clamp minFps q.highestFps
        (user.delay.adaptedFps (rates q.latestQuality.ratio).1 (rates q.latestQuality.ratio).2 q.fps
          (user.delay.sampled delay))) := by
  unfold fpsOf userNetworkDelay withUser adjustFps
  dsimp only
  rw [known]
  dsimp only
  rw [AList.lookup_insert]
  rfl

/-- A sample leaves the limits as they are. -/
theorem limits_userNetworkDelay {delay : Nat} {fresh : Bool} {other : UserData}
    (listed : other ∈ (q.userNetworkDelay id delay fresh).all) :
    ∃ user ∈ q.all, user.userFps = other.userFps := by
  obtain ⟨id', known⟩ := mem_all.mp listed
  unfold userNetworkDelay withUser adjustFps at known
  dsimp only at known
  cases before : q.users.lookup id with
  | none =>
      rw [before] at known
      exact ⟨other, mem_all.mpr ⟨id', known⟩, rfl⟩
  | some user =>
      rw [before] at known
      dsimp only at known
      by_cases same : id' = id
      · subst same
        rw [AList.lookup_insert] at known
        exact ⟨user, mem_all.mpr ⟨id', before⟩, by rw [← Option.some.inj known]; rfl⟩
      · rw [AList.lookup_insert_ne same] at known
        exact ⟨other, mem_all.mpr ⟨id', known⟩, rfl⟩

/-- The viewer and the controller run at a frame at least and at no more than any viewer allows. -/
def WithinLimits (id : Int) (q : VideoQoS) : Prop :=
  (∃ fps, q.fpsOf id = some fps ∧ q.Bounded fps) ∧ q.Bounded q.fps

theorem withinLimits_userNetworkDelay (inv : q.Inv) (delay : Nat) (fresh : Bool)
    (known : q.users.lookup id = some user) : (q.userNetworkDelay id delay fresh).WithinLimits id := by
  refine ⟨⟨_, fpsOf_userNetworkDelay delay fresh known, le_clamp _ q.minFps_le_highestFps,
    fun other listed => ?_⟩,
    adjustFps_bounded fresh (asked_withUser inv.asked fun user fine => ⟨fine.custom, fine.auto⟩)⟩
  obtain ⟨old, there, same⟩ := limits_userNetworkDelay listed
  exact (clamp_le _ _ _).trans (same ▸ highestFps_le inv.asked there)

/-- The second sample gives the viewer no higher rate than the first would. -/
def NoFaster (id : Int) (after after' : VideoQoS) : Prop :=
  ∃ fps fps', after.fpsOf id = some fps ∧ after'.fpsOf id = some fps' ∧ fps' ≤ fps

/-- In whatever state the controller is, a sample with a longer average gives no higher rate
    unless the two averages are on both sides of 300 ms and the current rate is so low that the
    farther band overtakes the nearer one. The limits always hold. -/
theorem worse_network_no_faster_iff (events : List Event) (id : Int) (user : UserData)
    (known : (reached events).users.lookup id = some user) (delay delay' : Nat) (fresh fresh' : Bool)
    (worse : user.delay.sampled delay ≤ user.delay.sampled delay') :
    (NoFaster id ((reached events).userNetworkDelay id delay fresh)
      ((reached events).userNetworkDelay id delay' fresh') ∧
        ((reached events).userNetworkDelay id delay fresh).WithinLimits id ∧
        ((reached events).userNetworkDelay id delay' fresh').WithinLimits id) ↔
      ¬Overtakes (rates (reached events).latestQuality.ratio).1 (reached events).highestFps
        (reached events).fps
        (user.delay.sampled delay) (user.delay.sampled delay') := by
  have inv := inv_reached events
  rw [← adaptedFps_le_iff user.delay inv.fps (minFps_le_highestFps _) worse]
  constructor
  · rintro ⟨⟨fps, fps', rate, rate', le⟩, -, -⟩
    rw [fpsOf_userNetworkDelay delay fresh known] at rate
    rw [fpsOf_userNetworkDelay delay' fresh' known] at rate'
    rw [Option.some.inj rate, Option.some.inj rate']
    exact le
  · intro le
    exact ⟨⟨_, _, fpsOf_userNetworkDelay delay fresh known,
      fpsOf_userNetworkDelay delay' fresh' known, le⟩,
      withinLimits_userNetworkDelay inv delay fresh known,
        withinLimits_userNetworkDelay inv delay' fresh' known⟩

/-- One viewer after three samples, the first of them two seconds late. -/
def afterLateStart : List Event :=
  [.open 1, .networkDelay 1 2000 true, .networkDelay 1 10 true, .networkDelay 1 10 false]

theorem worse_network_no_faster_open :
    NoFaster 1 ((reached [.open 1]).userNetworkDelay 1 10 true)
      ((reached [.open 1]).userNetworkDelay 1 400 true) :=
  ((worse_network_no_faster_iff [.open 1] 1 {} (by decide) 10 400 true true
    (by decide)).mpr fun crossing =>
    absurd crossing.1 (by decide)).1

/-- After the late start an average of 206 ms leaves one frame and one of 306 ms gives four. -/
theorem longer_average_speeds_up :
    ¬∀ (events : List Event) (id : Int) (user : UserData),
      (reached events).users.lookup id = some user →
      ∀ (delay delay' : Nat) (fresh fresh' : Bool),
        user.delay.sampled delay ≤ user.delay.sampled delay' →
        NoFaster id ((reached events).userNetworkDelay id delay fresh)
            ((reached events).userNetworkDelay id delay' fresh') ∧
          ((reached events).userNetworkDelay id delay fresh).WithinLimits id ∧
          ((reached events).userNetworkDelay id delay' fresh').WithinLimits id := by
  intro claimed
  obtain ⟨⟨fps, fps', rate, rate', le⟩, -⟩ :=
    claimed afterLateStart 1 (((reached afterLateStart).users.lookup 1).getD {})
      (by decide) 600 900 false false (by decide)
  have four : ((reached afterLateStart).userNetworkDelay 1 900 false).fpsOf 1 = some 4 := by decide
  have one : ((reached afterLateStart).userNetworkDelay 1 600 false).fpsOf 1 = some 1 := by decide
  rw [one] at rate
  rw [four] at rate'
  cases rate
  cases rate'
  exact absurd le (by decide)

end VideoQoS

end RemoteControl.Video.Qos
