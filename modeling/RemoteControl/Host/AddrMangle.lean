import RemoteControl.Host.Rendezvous

/-! # Mangled addresses

Certain routers look for addresses of their own in what passes through and change them.
`AddrMangle` of `hbb_common/src/lib.rs` therefore hides an IPv4 address: the time is added to
the address and its low half to the port, and the three numbers are packed into one, of
which the bytes up to the last one that is not zero are sent. An IPv6 address goes as it is, with its
port behind it.

The fields do not run into each other: the sums stay below the places of the next field, and
what the decoder takes in too much of is cut off by its cast.
-/

namespace RemoteControl.AddrMangle

abbrev Bytes := List UInt8

structure Ipv4Addr where
  a : UInt8
  b : UInt8
  c : UInt8
  d : UInt8
  deriving DecidableEq

def Ipv4Addr.octets (ip : Ipv4Addr) : Bytes := [ip.a, ip.b, ip.c, ip.d]

def Ipv4Addr.ofOctets (octets : Bytes) : Ipv4Addr :=
  ⟨octets.getD 0 0, octets.getD 1 0, octets.getD 2 0, octets.getD 3 0⟩

structure Ipv6Addr where
  octets : Bytes
  sixteen : octets.length = 16
  deriving DecidableEq

namespace Ipv6Addr

def unspecified : Ipv6Addr := ⟨List.replicate 16 0, rfl⟩

def isLoopback (ip : Ipv6Addr) : Bool := ip.octets = List.replicate 15 0 ++ [1]

/-- The address in an IPv4-compatible or IPv4-mapped one. -/
def toIpv4 (ip : Ipv6Addr) : Option Ipv4Addr :=
  if ip.octets.take 10 = List.replicate 10 0 ∧ (ip.octets.drop 10).take 2 ∈ [[0, 0], [255, 255]] then
    some (.ofOctets (ip.octets.drop 12))
  else none

end Ipv6Addr

structure SocketAddrV6 where
  ip : Ipv6Addr
  port : UInt16
  flowinfo : UInt32 := 0
  scopeId : UInt32 := 0
  deriving DecidableEq

inductive SocketAddr where
  | v4 (ip : Ipv4Addr) (port : UInt16)
  | v6 (addr : SocketAddrV6)
  deriving DecidableEq

def tryIntoV4 : SocketAddr → SocketAddr
  | .v6 addr =>
      if addr.ip.isLoopback then .v6 addr
      else
        match addr.ip.toIpv4 with
        | some ip => .v4 ip addr.port
        | none => .v6 addr
  | .v4 ip port => .v4 ip port

/-- How many zero bytes there are at the end. -/
def nPadding (bytes : Bytes) : Nat := (bytes.reverse.takeWhile (· == 0)).length

/-- The number into which an address is packed. Bits that are shifted out are lost. -/
def mangled (tm ip port : Nat) : Nat :=
  ((ip + tm) <<< 49) % 2 ^ 128 ||| (tm <<< 17) % 2 ^ 128 ||| (port + (tm &&& 0xFFFF))

/-- `encode`, with the microseconds since 1970 (0 if the clock stands before). -/
def encode (micros : Nat) (addr : SocketAddr) : Bytes :=
  match tryIntoV4 addr with
  | .v4 ip port =>
      let bytes := toLe 16 (mangled (micros % 2 ^ 32) (ofLe ip.octets) port.toNat)
      bytes.take (16 - nPadding bytes)
  | .v6 addr => addr.ip.octets ++ toLe 2 addr.port.toNat

/-- `-` on a `u128`, which panics or wraps around, as the program was built. -/
def sub (checks : Bool) (a b : Nat) : Option Nat :=
  if b ≤ a then some (a - b) else if checks then none else some (2 ^ 128 + a - b)

/-- The address in a number. -/
def unmangled (checks : Bool) (number : Nat) : Option SocketAddr :=
  let tm := (number >>> 17) &&& (2 ^ 32 - 1)
  match sub checks (number >>> 49) tm, sub checks (number &&& 0xFFFFFF) (tm &&& 0xFFFF) with
  | some ip, some port => some (.v4 (.ofOctets (toLe 4 ip)) (.ofNat port))
  | _, _ => none

def decode (checks : Bool) (bytes : Bytes) : Option SocketAddr :=
  if 16 < bytes.length then
    if enough : bytes.length = 18 then
      let ip : Ipv6Addr := ⟨bytes.take 16, by rw [List.length_take, enough]; rfl⟩
      some (.v6 { ip, port := .ofNat (ofLe (bytes.drop 16)) })
    else some (.v6 { ip := .unspecified, port := 0 })
  else unmangled checks (ofLe (bytes ++ List.replicate (16 - bytes.length) 0))

/-! ## The fields -/

theorem ofOctets_octets (ip : Ipv4Addr) : .ofOctets ip.octets = ip := rfl

theorem octets_lt (ip : Ipv4Addr) : ofLe ip.octets < 2 ^ 32 := by
  have a := ip.a.toNat_lt
  have b := ip.b.toNat_lt
  have c := ip.c.toNat_lt
  have d := ip.d.toNat_lt
  simp only [Ipv4Addr.octets, ofLe]
  omega

/-- Four bytes and the number they are. -/
theorem toLe_octets (ip : Ipv4Addr) : toLe 4 (ofLe ip.octets) = ip.octets :=
  toLe_ofLe ip.octets

section Mangled

variable {tm ip port : Nat}

theorem mangled_eq (time : tm < 2 ^ 32) (address : ip < 2 ^ 32) (number : port < 2 ^ 16) :
    mangled tm ip port = port + tm % 2 ^ 16 + 2 ^ 17 * tm + 2 ^ 49 * (ip + tm) := by
  have low : tm &&& 0xFFFF = tm % 2 ^ 16 := Nat.and_two_pow_sub_one_eq_mod tm 16
  have high : ((ip + tm) <<< 49) % 2 ^ 128 = (ip + tm) <<< 49 := by
    rw [Nat.shiftLeft_eq]
    exact Nat.mod_eq_of_lt (by omega)
  have middle : (tm <<< 17) % 2 ^ 128 = tm <<< 17 := by
    rw [Nat.shiftLeft_eq]
    exact Nat.mod_eq_of_lt (by omega)
  have first : port + tm % 2 ^ 16 ||| tm <<< 17 = port + tm % 2 ^ 16 + 2 ^ 17 * tm :=
    or_shiftLeft_eq_add (by omega)
  have second : port + tm % 2 ^ 16 + 2 ^ 17 * tm ||| (ip + tm) <<< 49 =
      port + tm % 2 ^ 16 + 2 ^ 17 * tm + 2 ^ 49 * (ip + tm) :=
    or_shiftLeft_eq_add (by omega)
  rw [mangled, low, high, middle, Nat.lor_assoc, Nat.lor_comm, Nat.lor_comm (tm <<< 17), first, second]

end Mangled

/-- The zeros that are cut off do not count. -/
theorem ofLe_stripped {bytes : Bytes} (whole : bytes.length = 16) :
    ofLe (bytes.take (16 - nPadding bytes)) = ofLe bytes := by
  have zeros : bytes.reverse.takeWhile (· == 0) = List.replicate (nPadding bytes) 0 := by
    rw [List.eq_replicate_iff]
    exact ⟨rfl, fun b member => by simpa using List.all_eq_true.mp List.all_takeWhile b member⟩
  have split :
      (bytes.reverse.dropWhile (· == 0)).reverse ++ List.replicate (nPadding bytes) 0 = bytes := by
    rw [← List.reverse_replicate, ← List.reverse_append, ← zeros, List.takeWhile_append_dropWhile,
      List.reverse_reverse]
  generalize nPadding bytes = n at split ⊢
  rw [← split, ofLe_append_zeros, List.take_left']
  have length := congrArg List.length split
  rw [List.length_append, List.length_replicate, whole] at length
  omega

theorem sub_of_le {checks : Bool} {a b : Nat} (le : b ≤ a) : sub checks a b = some (a - b) := if_pos le

/-- What was put together is taken apart again, whatever the time was. -/
theorem unmangled_mangled (checks : Bool) {tm : Nat} (time : tm < 2 ^ 32) (ip : Ipv4Addr)
    (port : UInt16) :
    unmangled checks (mangled tm (ofLe ip.octets) port.toNat) = some (.v4 ip port) := by
  have address := octets_lt ip
  have number := port.toNat_lt
  have packed := mangled_eq time address number
  generalize mangled tm (ofLe ip.octets) port.toNat = n at packed ⊢
  have clock : (n >>> 17) &&& (2 ^ 32 - 1) = tm := by
    have shifted : n / 2 ^ 17 = tm + 2 ^ 32 * (ofLe ip.octets + tm) := by omega
    rw [Nat.and_two_pow_sub_one_eq_mod, Nat.shiftRight_eq_div_pow, shifted, Nat.add_mul_mod_self_left,
      Nat.mod_eq_of_lt time]
  have high : n >>> 49 = ofLe ip.octets + tm := by
    rw [Nat.shiftRight_eq_div_pow]
    omega
  -- seven bits of the time are left above the port
  have low : n &&& 0xFFFFFF = port.toNat + tm % 2 ^ 16 + 2 ^ 17 * (tm % 2 ^ 7) := by
    rw [show (0xFFFFFF : Nat) = 2 ^ 24 - 1 from rfl, Nat.and_two_pow_sub_one_eq_mod]
    omega
  have half : tm &&& 0xFFFF = tm % 2 ^ 16 := Nat.and_two_pow_sub_one_eq_mod tm 16
  have cast : UInt16.ofNat (port.toNat + tm % 2 ^ 16 + 2 ^ 17 * (tm % 2 ^ 7) - tm % 2 ^ 16) = port := by
    apply UInt16.toNat.inj
    rw [UInt16.toNat_ofNat']
    omega
  unfold unmangled
  dsimp only
  rw [clock, high, low, half, sub_of_le (Nat.le_add_left ..), sub_of_le (by omega), Nat.add_sub_cancel]
  dsimp only
  rw [toLe_octets, cast, ofOctets_octets]

theorem decode_of_short {bytes : Bytes} (short : bytes.length ≤ 16) (checks : Bool) :
    decode checks bytes = unmangled checks (ofLe bytes) := by
  rw [decode, if_neg (Nat.not_lt.mpr short), ofLe_append_zeros]

variable {addr : SocketAddr}

theorem decode_encode_v4 (checks : Bool) (micros : Nat) {ip : Ipv4Addr} {port : UInt16}
    (isV4 : tryIntoV4 addr = .v4 ip port) :
    decode checks (encode micros addr) = some (.v4 ip port) := by
  have time : micros % 2 ^ 32 < 2 ^ 32 := Nat.mod_lt _ (by decide)
  have small : mangled (micros % 2 ^ 32) (ofLe ip.octets) port.toNat < 256 ^ 16 := by
    have address := octets_lt ip
    have number := port.toNat_lt
    rw [mangled_eq time address number]
    omega
  rw [encode, isV4]
  dsimp only
  rw [decode_of_short (List.length_take_le ..|>.trans (Nat.sub_le ..)), ofLe_stripped (length_toLe ..),
    ofLe_toLe_of_lt small, unmangled_mangled checks time]

theorem decode_encode_v6 (checks : Bool) (micros : Nat) {v6 : SocketAddrV6}
    (isV6 : tryIntoV4 addr = .v6 v6) (flow : v6.flowinfo = 0) (scope : v6.scopeId = 0) :
    decode checks (encode micros addr) = some (.v6 v6) := by
  have whole : (v6.ip.octets ++ toLe 2 v6.port.toNat).length = 18 := by
    rw [List.length_append, v6.ip.sixteen, length_toLe]
  have port : UInt16.ofNat (ofLe (toLe 2 v6.port.toNat)) = v6.port := by
    rw [ofLe_toLe_of_lt v6.port.toNat_lt, UInt16.ofNat_toNat]
  rw [encode, isV6]
  dsimp only
  rw [decode, if_pos (by omega), dif_pos whole]
  obtain ⟨⟨octets, sixteen⟩, number, flowinfo, scopeId⟩ := v6
  dsimp only at flow scope port ⊢
  simp only [List.take_left' sixteen, List.drop_left' sixteen, port, flow, scope]

/-- An IPv6 address without a flow label and a scope. -/
def SocketAddr.Plain : SocketAddr → Prop
  | .v4 _ _ => True
  | .v6 addr => addr.flowinfo = 0 ∧ addr.scopeId = 0

theorem plain_tryIntoV4 (plain : addr.Plain) : (tryIntoV4 addr).Plain := by
  cases addr with
  | v4 ip port => trivial
  | v6 addr =>
      simp only [tryIntoV4]
      split_ifs
      · exact plain
      · cases addr.ip.toIpv4 with
        | none => exact plain
        | some ip => trivial

/-- Whatever the clock shows, and whether or not overflows are checked, what is decoded is
    the address that was encoded, as an IPv4 one where it stands for one. -/
theorem addresses_come_back (checks : Bool) (micros : Nat) (addr : SocketAddr) (plain : addr.Plain) :
    decode checks (encode micros addr) = some (tryIntoV4 addr) := by
  have plain' := plain_tryIntoV4 plain
  cases is : tryIntoV4 addr with
  | v4 ip port => exact decode_encode_v4 checks micros is
  | v6 addr =>
      rw [is] at plain'
      exact decode_encode_v6 checks micros is plain'.1 plain'.2

/-- `[::ffff:127.0.0.1]:8080` -/
def mapped : SocketAddr :=
  .v6 { ip := ⟨List.replicate 10 0 ++ [255, 255, 127, 0, 0, 1], rfl⟩, port := 8080 }

theorem mapped_comes_back :
    decode true (encode 1700000000123456 mapped) = some (.v4 ⟨127, 0, 0, 1⟩ 8080) :=
  (addresses_come_back true _ mapped ⟨rfl, rfl⟩).trans (by decide)

theorem sub_checked_iff {a b : Nat} : (∃ n, sub true a b = some n) ↔ b ≤ a := by
  constructor
  · rintro ⟨n, some⟩
    by_contra small
    rw [sub, if_neg small, if_pos rfl] at some
    cases some
  · exact fun le => ⟨a - b, sub_of_le le⟩

/-- A number is taken apart without an underflow exactly when its upper field is not below the
    time in it and, the time being a multiple of 128, the lower field is not below its half. -/
def Apart (number : Nat) : Prop :=
  let tm := number / 2 ^ 17 % 2 ^ 32
  tm ≤ number / 2 ^ 49 ∧ (tm % 2 ^ 7 = 0 → tm % 2 ^ 16 ≤ number % 2 ^ 17)

instance (number : Nat) : Decidable (Apart number) := inferInstanceAs (Decidable (_ ∧ _))

theorem unmangled_checked_iff {number : Nat} :
    (∃ addr, unmangled true number = some addr) ↔ Apart number := by
  have clock : (number >>> 17) &&& (2 ^ 32 - 1) = number / 2 ^ 17 % 2 ^ 32 := by
    rw [Nat.and_two_pow_sub_one_eq_mod, Nat.shiftRight_eq_div_pow]
  have low : number &&& 0xFFFFFF = number % 2 ^ 24 := Nat.and_two_pow_sub_one_eq_mod number 24
  have half (tm : Nat) : tm &&& 0xFFFF = tm % 2 ^ 16 := Nat.and_two_pow_sub_one_eq_mod tm 16
  unfold unmangled Apart
  dsimp only
  rw [clock, low, half, Nat.shiftRight_eq_div_pow]
  generalize time : number / 2 ^ 17 % 2 ^ 32 = tm
  -- seven bits of the time are in the lower field too, and any of them is enough
  have lower : tm % 2 ^ 16 ≤ number % 2 ^ 24 ↔ (tm % 2 ^ 7 = 0 → tm % 2 ^ 16 ≤ number % 2 ^ 17) := by
    omega
  rw [← lower, ← sub_checked_iff, ← sub_checked_iff]
  constructor
  · rintro ⟨addr, returned⟩
    split at returned
    · exact ⟨⟨_, ‹_›⟩, ⟨_, ‹_›⟩⟩
    · cases returned
  · rintro ⟨⟨ip, high⟩, port, rest⟩
    rw [high, rest]
    exact ⟨_, rfl⟩

/-- With overflow checks `decode` returns exactly for what is longer than a packed number and
    for the numbers that can be taken apart. -/
theorem decode_returns_iff (bytes : Bytes) :
    (∃ addr, decode true bytes = some addr) ↔ 16 < bytes.length ∨ Apart (ofLe bytes) := by
  by_cases long : 16 < bytes.length
  · refine iff_of_true ?_ (.inl long)
    rw [decode, if_pos long]
    split_ifs <;> exact ⟨_, rfl⟩
  · rw [decode_of_short (Nat.not_lt.mp long), unmangled_checked_iff]
    exact (or_iff_right long).symm

/-- A time with nothing above it. -/
theorem lone_time_underflows : ¬ ∀ bytes : Bytes, ∃ addr, decode true bytes = some addr := by
  intro returns
  obtain ⟨addr, returned⟩ := returns [0, 0, 2]
  have panics : decode true [0, 0, 2] = none := rfl
  cases panics.symm.trans returned

/-- The numbers of an address, as the handlers of requests compare them. -/
def SocketAddr.numbers : SocketAddr → Rendezvous.SocketAddr
  | .v4 ip port => .v4 (ofLe ip.octets) port.toNat
  | .v6 addr => .v6 addr.ip.octets addr.port.toNat

theorem ofLe_ofOctets (n : Nat) : ofLe (Ipv4Addr.ofOctets (toLe 4 n)).octets = n % 2 ^ 32 :=
  ofLe_toLe 4 n

theorem sub_unchecked {a b : Nat} (small : b ≤ 2 ^ 128) :
    ∃ n, sub false a b = some n ∧ (n + b = a ∨ n + b = 2 ^ 128 + a) := by
  by_cases le : b ≤ a
  · exact ⟨a - b, sub_of_le le, .inl (Nat.sub_add_cancel le)⟩
  · refine ⟨2 ^ 128 + a - b, ?_, .inr (by omega)⟩
    rw [sub, if_neg le, if_neg Bool.false_ne_true]

/-- What the handlers take an address for is what is decoded. -/
theorem numbers_decode (bytes : Bytes) :
    (decode false bytes).map SocketAddr.numbers = some (Rendezvous.addrMangleDecode bytes) := by
  by_cases long : 16 < bytes.length
  · rw [decode, Rendezvous.addrMangleDecode, if_pos long, if_pos long]
    by_cases enough : bytes.length = 18
    · have fits : ofLe (bytes.drop 16) < 2 ^ 16 := by
        have two : (bytes.drop 16).length = 2 := by rw [List.length_drop, enough]
        have bound := ofLe_lt (bytes.drop 16)
        rwa [two] at bound
      rw [dif_pos enough, if_neg (not_not.mpr enough)]
      simp only [Option.map_some, SocketAddr.numbers, UInt16.toNat_ofNat_of_lt' fits]
    · rw [dif_neg enough, if_pos enough]
      rfl
  · have short := Nat.not_lt.mp long
    rw [decode_of_short short, Rendezvous.addrMangleDecode, if_neg long]
    generalize ofLe bytes = number
    have clock : (number >>> 17) &&& (2 ^ 32 - 1) = (number >>> 17) % 2 ^ 32 :=
      Nat.and_two_pow_sub_one_eq_mod _ 32
    have low : number &&& 0xFFFFFF = number % 2 ^ 24 := Nat.and_two_pow_sub_one_eq_mod number 24
    have half (tm : Nat) : tm &&& 0xFFFF = tm % 2 ^ 16 := Nat.and_two_pow_sub_one_eq_mod tm 16
    unfold unmangled
    dsimp only
    rw [clock, low, half]
    have small : (number >>> 17) % 2 ^ 32 < 2 ^ 32 := Nat.mod_lt _ (by decide)
    generalize (number >>> 17) % 2 ^ 32 = tm at small ⊢
    obtain ⟨ip, ip', address⟩ := @sub_unchecked (number >>> 49) tm (by omega)
    obtain ⟨port, port', place⟩ := @sub_unchecked (number % 2 ^ 24) (tm % 2 ^ 16) (by omega)
    rw [ip', port']
    simp only [Option.map_some, SocketAddr.numbers, ofLe_ofOctets, UInt16.toNat_ofNat']
    congr 2 <;> omega

end RemoteControl.AddrMangle
