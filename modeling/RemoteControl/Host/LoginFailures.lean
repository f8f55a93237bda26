import RemoteControl.Runs
import Mathlib.Tactic.Cases

/-! # Counting failed logins

`LOGIN_FAILURES` keeps one table for wrong passwords (index 0) and one for wrong
2FA codes (index 1). A connection reads its entry in `check_failure`, verifies
the secret, and writes the entry back in `update_failure`; other connections run
between the two.

The tables are keyed by the text of an address or of an IPv6 netblock. The text
is always printed from an address, so a key is the address or netblock itself.
-/

namespace RemoteControl.Host.LoginFailures

open Runs

inductive IpAddr where
  | v4 (octets : BitVec 32)
  | v6 (octets : BitVec 128)
  deriving DecidableEq, Repr

/-- What a key of the table denotes: `"1.2.3.4"`, `"2001:db8::1"`, or a netblock
    such as `"2001:db8::/64"`. -/
inductive Key where
  | ip (addr : IpAddr)
  | netblock (base : BitVec 128) (length : Nat)
  deriving DecidableEq, Repr

/-- One entry: the minute of the last failure, the failures in that minute and
    the failures altogether. -/
structure Failure where
  minute : Int
  inMinute : Int
  total : Int
  deriving DecidableEq, Repr

def Failure.none : Failure := ⟨0, 0, 0⟩

abbrev Failures := Key → Option Failure

/-- `map.get(key).copied().unwrap_or((0, 0, 0))` -/
def Failures.get (m : Failures) (key : Key) : Failure :=
  (m key).getD Failure.none

def Failures.insert (m : Failures) (key : Key) (value : Failure) : Failures :=
  Function.update m key (some value)

def Failures.remove (m : Failures) (key : Key) : Failures :=
  Function.update m key Option.none

def maskU128 (addr : BitVec 128) (length : Nat) : BitVec 128 :=
  if length = 0 ∨ 128 < length then 0
  else addr &&& (BitVec.allOnes 128 <<< (128 - length))

/-- The /64, /56 and /48 netblocks of an IPv6 address. -/
def getIpv6Prefixes : IpAddr → Option (Key × Key × Key)
  | .v4 _ => Option.none
  | .v6 ip => some
      (.netblock (maskU128 ip 64) 64, .netblock (maskU128 ip 56) 56, .netblock (maskU128 ip 48) 48)

def bump (cur : Failure) (time : Int) : Failure :=
  if cur.minute = time then
    { cur with inMinute := cur.inMinute + 1, total := cur.total + 1 }
  else
    { minute := time, inMinute := 1, total := cur.total + 1 }

/-- `failure` and `time` are what `check_failure` returned earlier. The netblocks
    are bumped from the table, the address from `failure`. -/
def updateFailure (m : Failures) (ip : IpAddr) (failure : Failure) (time : Int)
    (remove : Bool) : Failures :=
  if remove then
    if failure.minute ≠ 0 then
      match getIpv6Prefixes ip with
      | some (p64, p56, p48) => (((m.remove p64).remove p56).remove p48).remove (.ip ip)
      | Option.none => m.remove (.ip ip)
    else m
  else
    match getIpv6Prefixes ip with
    | some (p64, p56, p48) =>
        let bumpKey (m : Failures) (key : Key) : Failures := m.insert key (bump (m.get key) time)
        ([p64, p56, p48].foldl bumpKey m).insert (.ip ip) (bump failure time)
    | Option.none => m.insert (.ip ip) (bump failure time)

inductive AlarmAuditType where
  | exceedThirtyAttempts
  | sixAttemptsWithinOneMinute
  | exceedIPv6PrefixAttempts
  deriving DecidableEq, Repr

/-- What `check_failure` decides: go on to verify the secret, or answer with a
    login error and post an alarm. -/
inductive Decision where
  | proceed
  | refuse (err : String) (alarm : AlarmAuditType)
  deriving DecidableEq, Repr

def checkFailureIpv6Prefix (m : Failures) (key : Key) (length : Nat) (thresh : Int) :
    Option (Failure × Decision) :=
  let failurePrefix := m.get key
  if failurePrefix.total > thresh then
    some (failurePrefix,
      .refuse ("Too many wrong attempts for IPv6 prefix /" ++ toString length)
        .exceedIPv6PrefixAttempts)
  else Option.none

def checkFailureIp (m : Failures) (ip : IpAddr) (time : Int) : Failure × Decision :=
  let failure := m.get (.ip ip)
  if failure.total > 30 then
    (failure, .refuse "Too many wrong attempts" .exceedThirtyAttempts)
  else if time = failure.minute ∧ failure.inMinute > 6 then
    (failure, .refuse "Please try 1 minute later" .sixAttemptsWithinOneMinute)
  else (failure, .proceed)

/-- `check_failure` at minute `time`: the netblocks first, then the address. -/
def checkFailure (m : Failures) (ip : IpAddr) (time : Int) : Failure × Decision :=
  match getIpv6Prefixes ip with
  | some (p64, p56, p48) =>
      ((checkFailureIpv6Prefix m p64 64 60).or
        ((checkFailureIpv6Prefix m p56 56 80).or
          (checkFailureIpv6Prefix m p48 48 100))).getD (checkFailureIp m ip time)
  | Option.none => checkFailureIp m ip time

/-- The total-failure counter `LOGIN_FAILURES[i][ip].2`, 0 without an entry. -/
def Failures.totalOf (m : Failures) (ip : IpAddr) : Int := (m.get (.ip ip)).total

@[simp] theorem bump_total (cur : Failure) (time : Int) :
    (bump cur time).total = cur.total + 1 := by
  unfold bump
  split <;> rfl

variable (m : Failures)

@[simp] theorem get_insert_same (key : Key) (value : Failure) :
    (m.insert key value).get key = value := by
  simp [Failures.insert, Failures.get]

theorem get_insert_other {key other : Key} (value : Failure) (h : other ≠ key) :
    (m.insert key value).get other = m.get other := by
  simp [Failures.insert, Failures.get, h]

@[simp] theorem get_remove_same (key : Key) : (m.remove key).get key = Failure.none := by
  simp [Failures.remove, Failures.get]

theorem get_remove_other {key other : Key} (h : other ≠ key) :
    (m.remove key).get other = m.get other := by
  simp [Failures.remove, Failures.get, h]

theorem prefixes_netblocks {ip : IpAddr} {p64 p56 p48 : Key}
    (h : getIpv6Prefixes ip = some (p64, p56, p48)) (addr : IpAddr) :
    Key.ip addr ≠ p64 ∧ Key.ip addr ≠ p56 ∧ Key.ip addr ≠ p48 := by
  cases ip with
  | v4 octets => simp [getIpv6Prefixes] at h
  | v6 octets =>
      simp only [getIpv6Prefixes, Option.some.injEq, Prod.mk.injEq] at h
      obtain ⟨rfl, rfl, rfl⟩ := h
      simp

/-- An attempt leaves every other address alone. -/
theorem totalOf_update_other {ip addr : IpAddr} (other : addr ≠ ip) (failure : Failure) (time : Int)
    (remove : Bool) : (updateFailure m ip failure time remove).totalOf addr = m.totalOf addr := by
  have keyNe : Key.ip addr ≠ Key.ip ip := by simpa using other
  unfold updateFailure Failures.totalOf
  cases prefixes : getIpv6Prefixes ip with
  | none => split_ifs <;> simp [get_insert_other _ _ keyNe, get_remove_other _ keyNe]
  | some keys =>
      obtain ⟨p64, p56, p48⟩ := keys
      obtain ⟨ne64, ne56, ne48⟩ := prefixes_netblocks prefixes addr
      split_ifs
      · simp [get_remove_other _ keyNe, get_remove_other _ ne64, get_remove_other _ ne56,
          get_remove_other _ ne48]
      · rfl
      · simp [get_insert_other _ _ keyNe, get_insert_other _ _ ne64, get_insert_other _ _ ne56,
          get_insert_other _ _ ne48]

/-- A failed attempt writes `failure + 1` over the entry of its own address. -/
theorem totalOf_update_failed (ip addr : IpAddr) (failure : Failure) (time : Int) :
    (updateFailure m ip failure time false).totalOf addr =
      if addr = ip then failure.total + 1 else m.totalOf addr := by
  split_ifs with same
  · subst same
    unfold updateFailure Failures.totalOf
    cases getIpv6Prefixes addr <;> simp
  · exact totalOf_update_other m same failure time false

/-- A successful attempt removes the entry of its own address when it had read one. -/
theorem totalOf_update_succeeded (ip addr : IpAddr) (failure : Failure) (time : Int) :
    (updateFailure m ip failure time true).totalOf addr =
      if addr = ip ∧ failure.minute ≠ 0 then 0 else m.totalOf addr := by
  by_cases same : addr = ip
  · subst same
    unfold updateFailure Failures.totalOf
    cases getIpv6Prefixes addr <;> by_cases seen : failure.minute = 0 <;> simp [seen, Failure.none]
  · rw [if_neg fun both => same both.1]
    exact totalOf_update_other m same failure time true

/-- The address itself is refused above thirty failures, whatever its netblocks
    say. -/
theorem checkFailure_refuses (ip : IpAddr) (time : Int) (many : m.totalOf ip > 30) :
    (checkFailure m ip time).2 ≠ .proceed := by
  have direct : (checkFailureIp m ip time).2 ≠ .proceed := by
    simp only [checkFailureIp, Failures.totalOf] at many ⊢
    rw [if_pos many]
    simp
  have blocked : ∀ key length thresh r, checkFailureIpv6Prefix m key length thresh = some r →
      r.2 ≠ .proceed := by
    intro key length thresh r found
    simp only [checkFailureIpv6Prefix, Option.ite_none_right_eq_some] at found
    obtain ⟨-, found⟩ := found
    cases found
    simp
  unfold checkFailure
  cases getIpv6Prefixes ip with
  | none => exact direct
  | some keys =>
      obtain ⟨p64, p56, p48⟩ := keys
      dsimp only
      cases h64 : checkFailureIpv6Prefix m p64 64 60 with
      | some r => exact blocked _ _ _ r h64
      | none =>
          cases h56 : checkFailureIpv6Prefix m p56 56 80 with
          | some r => exact blocked _ _ _ r h56
          | none =>
              cases h48 : checkFailureIpv6Prefix m p48 48 100 with
              | some r => exact blocked _ _ _ r h48
              | none => exact direct

end RemoteControl.Host.LoginFailures
