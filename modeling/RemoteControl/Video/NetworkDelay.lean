import Mathlib.Algebra.Ring.Int.Defs
import Mathlib.Algebra.Ring.Nat
import Mathlib.Data.List.MinMax
import RemoteControl.Rounding

/-! # The delay of a viewer

`UserDelay` and `RttCalculator` of `server/video_qos.rs` keep the last delays of a connection
and estimate how much of them is the way there and back. Sums are cut to 32 bits, and the
smoothed estimate is computed with the 24 significant bits of an `f32`.
-/

namespace RemoteControl.Video.Qos

def delayThreshold150Ms : Nat := 150

/-- `HISTORY_DELAY_LEN` -/
def historyDelayLen : Nat := 2

structure RttCalculator where
  /-- The least delay there ever was. -/
  minRtt : Option Nat := none
  /-- The least of the last samples. -/
  windowMinRtt : Option Nat := none
  smoothedRtt : Option Nat := none
  samples : List Nat := []
  deriving DecidableEq

namespace RttCalculator

def windowSamples : Nat := 60

def minSamples : Nat := 10

/-- `as f32` -/
def asF32 (n : Nat) : Nat := Rounding.round 24 n

/-- The weighted average. With `ALPHA` a half the products are exact, and their sum is rounded as the
    double of it is. -/
def newSrtt (min_ windowMin : Nat) : Nat := min (asF32 (asF32 min_ + asF32 windowMin) / 2) (2 ^ 32 - 1)

def update (delay : Nat) (r : RttCalculator) : RttCalculator :=
  let minRtt :=
    match r.minRtt with
    | some minRtt => if delay < minRtt then delay else minRtt
    | none => delay
  let samples := (if r.samples.length ≥ windowSamples then r.samples.tail else r.samples) ++ [delay]
  let windowMinRtt := samples.min?
  { minRtt := some minRtt
    windowMinRtt := windowMinRtt
    smoothedRtt :=
      match windowMinRtt with
      | some windowMin =>
        if samples.length ≥ windowSamples then some (newSrtt minRtt windowMin) else r.smoothedRtt
      | none => r.smoothedRtt
    samples := samples }

def getRtt (r : RttCalculator) : Option Nat :=
  match r.smoothedRtt with
  | some rtt => some rtt
  | none => if r.samples.length ≥ minSamples then r.minRtt else none

end RttCalculator

structure UserDelay where
  responseDelayed : Bool := false
  delayHistory : List Nat := []
  fps : Option Nat := none
  rttCalculator : RttCalculator := {}
  quickIncreaseFpsCount : Nat := 0
  increaseFpsCount : Nat := 0
  deriving DecidableEq

namespace UserDelay

def addDelay (delay : Nat) (d : UserDelay) : UserDelay :=
  { d with
    rttCalculator := d.rttCalculator.update delay
    delayHistory :=
      (if d.delayHistory.length > historyDelayLen then d.delayHistory.tail else d.delayHistory) ++ [delay] }

/-- The average delay without the way there and back. -/
def avgDelay (d : UserDelay) : Nat :=
  if d.delayHistory.length > 0 then
    let avgDelay := d.delayHistory.sum % 2 ^ 32 / d.delayHistory.length
    match d.rttCalculator.getRtt with
    | some rtt => if avgDelay > rtt then avgDelay - rtt else avgDelay
    | none => avgDelay
  else delayThreshold150Ms

end UserDelay

end RemoteControl.Video.Qos
