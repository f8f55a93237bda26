import RemoteControl.Config.HostPort

/-! # What the host and port helpers make of a host

Each helper by the kind of text that it is given, and when all of them agree on the host.
-/

namespace RemoteControl.HostPort

open CustomServers (Text CustomServer)
open Splitting (split)

section Split

variable {digits host port text : Text} {n k : Int32}

theorem length_splitOn {x : Char} {text : Text} : (text.splitOn x).length = text.count x + 1 := by
  induction text with
  | nil => rfl
  | cons a text ih =>
      rw [List.splitOn_cons_eq_if_modifyHead, List.count_cons]
      split
      · rw [List.length_cons, ih]
      · rw [List.length_modifyHead, ih, Nat.add_zero]

theorem portOf_pair :
    portOf [host, decimal n.toInt] = if 0 < n.toInt then some (host, n) else none := by
  have positive : n > 0 ↔ 0 < n.toInt := by rw [gt_iff_lt, Int32.lt_iff_toInt_lt, Int32.toInt_zero]
  unfold portOf
  dsimp only
  rw [parseI32_decimal, Option.getD_some, if_congr positive rfl rfl]

theorem portOf_long {tmp : List Text} (long : 3 ≤ tmp.length) : portOf tmp = none := by
  match tmp, long with
  | _ :: _ :: _ :: _, _ => rfl

theorem colon_not_mem_decimal {n : Int} : ':' ∉ decimal n := not_mem_decimal (by decide) (by decide)

/-- `increase_port` parses as `split_host_port` does. -/
theorem increasePort_eq :
    increasePort digits text k =
      match splitHostPort digits text with
      | some (host, port) => host ++ ':' :: decimal (port + k).toInt
      | none => text := by
  unfold increasePort splitHostPort
  split
  · split
    · cases portOf (split "]:".toList text) with
      | none => rfl
      | some pair =>
        have same (rest : Text) :
            pair.1 ++ "]:".toList ++ rest = pair.1 ++ [']'] ++ ':' :: rest := by simp
        exact same (decimal (pair.2 + k).toInt)
    · rfl
  · split
    · rfl
    · rfl

end Split

section Names

variable {digits host : Text} {n p k : Int32}

theorem IsGroup.head_ne_bracket (group : IsGroup host) (rest : Text) :
    (host ++ rest).head? ≠ some '[' := by
  obtain ⟨a, more, rfl⟩ := List.exists_cons_of_length_pos group.1
  intro same
  obtain rfl := Option.some.inj same
  exact absurd (group.2.2 '[' List.mem_cons_self) (by decide)

theorem isIpv6Str_plain (plain : ':' ∉ host) : isIpv6Str digits host = false := by
  refine Bool.eq_false_iff.mpr fun accepted => ?_
  rcases isIpv6Str_iff.mp accepted with grouped | ⟨inner, port, grouped, -, -, rfl⟩
  · exact plain grouped.colon_mem
  · exact plain (.tail _ (List.mem_append_left _ (List.mem_append_left _ grouped.colon_mem)))

theorem isIpv6Str_name (plain : ':' ∉ host) :
    isIpv6Str digits (host ++ ':' :: decimal n.toInt) ↔
      IsGroup host ∧ 0 ≤ n.toInt ∧ n.toInt < 10000 := by
  rw [isIpv6Str_iff, grouped_single_colon plain colon_not_mem_decimal, isGroup_decimal]
  refine or_iff_left ?_
  rintro ⟨inner, port, grouped, -, -, same⟩
  have again : '[' :: (inner ++ "]:".toList ++ port) = '[' :: (inner ++ [']']) ++ ':' :: port := by simp
  rw [again] at same
  obtain ⟨rfl, -, -⟩ := (List.append_cons_inj_of_notMem plain colon_not_mem_decimal).mp same
  exact plain (.tail _ (List.mem_append_left _ grouped.colon_mem))

theorem splitHostPort_plain (plain : ':' ∉ host) : splitHostPort digits host = none := by
  rw [splitHostPort, isIpv6Str_plain plain, if_neg nofun, if_neg plain]

theorem splitHostPort_name (plain : ':' ∉ host) :
    splitHostPort digits (host ++ ':' :: decimal n.toInt) =
      if 0 < n.toInt ∧ ¬(IsGroup host ∧ n.toInt < 10000) then some (host, n) else none := by
  have parts : (host ++ ':' :: decimal n.toInt).splitOn ':' = [host, decimal n.toInt] := by
    rw [List.splitOn_append_cons_self_of_not_mem plain, List.splitOn_eq_singleton colon_not_mem_decimal]
  unfold splitHostPort
  by_cases accepted : isIpv6Str digits (host ++ ':' :: decimal n.toInt) = true
  · obtain ⟨group, nonneg, small⟩ := (isIpv6Str_name plain).mp accepted
    rw [if_pos accepted, if_neg (group.head_ne_bracket _), if_neg fun taken => taken.2 ⟨group, small⟩]
  · have refused := (isIpv6Str_name plain).not.mp accepted
    rw [if_neg accepted, if_pos (List.mem_append_right host List.mem_cons_self), parts, portOf_pair]
    refine if_congr ?_ rfl rfl
    exact ⟨fun positive => ⟨positive, fun taken => refused ⟨taken.1, positive.le, taken.2⟩⟩, And.left⟩

end Names

section Addresses

variable {digits : Text} {n p k : Int32} (address : Ipv6)

theorem withPort_eq {n : Int} :
    (Host.ipv6 address).withPort n = '[' :: address.text ++ "]:".toList ++ decimal n := by
  simp [Host.withPort, Host.bracketed]

theorem isIpv6Str_bracketed (ascii : ∀ a : Char, a.isDigit → a ∈ digits) (positive : 0 < n.toInt) :
    isIpv6Str digits ((Host.ipv6 address).withPort n.toInt) ↔ address.Recognised := by
  rw [withPort_eq, isIpv6Str_iff, ← address.grouped_text_iff]
  constructor
  · rintro (grouped | ⟨inner, port, grouped, -, -, same⟩)
    · obtain ⟨a, head, hex⟩ := grouped.begins
      obtain rfl := Option.some.inj head
      exact absurd hex (by decide)
    · have bracket : ']' ∉ address.text := by
        intro inside
        rcases address.letters inside with hex | colon | dot
        · exact absurd hex (by decide)
        · exact absurd colon (by decide)
        · exact absurd dot (by decide)
      have digit : ']' ∉ ':' :: decimal n.toInt :=
        List.not_mem_cons_of_ne_of_not_mem (by decide) (not_mem_decimal (by decide) (by decide))
      have same : address.text ++ ']' :: ':' :: decimal n.toInt = inner ++ ']' :: ':' :: port := by
        simpa using same
      obtain ⟨rfl, -, -⟩ := (List.append_cons_inj_of_notMem bracket digit).mp same
      exact grouped
  · intro grouped
    obtain ⟨i, value⟩ : ∃ i : Nat, n.toInt = i := Int.eq_ofNat_of_zero_le positive.le
    refine .inr ⟨_, _, grouped, ?_, ?_, rfl⟩
    · rw [value]
      exact Nat.toDigits_ne_nil
    · intro a inside
      rw [value] at inside
      exact ascii a (Nat.isDigit_of_mem_toDigits (by decide) (by decide) inside)

/-- Without a port nothing is split off. -/
theorem splitHostPort_address : splitHostPort digits address.text = none := by
  have colons := address.two_le_count
  have colon : ':' ∈ address.text := List.count_pos_iff.mp (by omega)
  have long : 3 ≤ (address.text.splitOn ':').length := by rw [length_splitOn]; omega
  have other : ¬address.text.head? = some '[' := by
    intro head
    rcases address.letters (List.mem_of_mem_head? head) with hex | colon | dot
    · exact absurd hex (by decide)
    · exact absurd colon (by decide)
    · exact absurd dot (by decide)
  unfold splitHostPort
  rw [if_neg other, if_pos colon, portOf_long long, ite_self]

theorem splitHostPort_recognised (ascii : ∀ a : Char, a.isDigit → a ∈ digits) (positive : 0 < n.toInt)
    (recognised : address.Recognised) :
    splitHostPort digits ((Host.ipv6 address).withPort n.toInt) =
      some ((Host.ipv6 address).bracketed, n) := by
  have accepted := (isIpv6Str_bracketed address ascii positive).mpr recognised
  have bracket : ']' ∉ '[' :: address.text := by
    intro inside
    cases inside with
    | tail _ inside =>
        rcases (address.grouped_text_iff.mpr recognised).letters inside with hex | colon
        · exact absurd hex (by decide)
        · exact absurd colon (by decide)
  have parts : split "]:".toList ((Host.ipv6 address).withPort n.toInt) =
      ['[' :: address.text, decimal n.toInt] := by
    rw [withPort_eq, List.append_assoc]
    exact Splitting.split_once bracket (not_mem_decimal (by decide) (by decide))
  have begins : ((Host.ipv6 address).withPort n.toInt).head? = some '[' := rfl
  unfold splitHostPort
  rw [if_pos accepted, if_pos begins, parts, portOf_pair, if_pos positive]
  rfl

theorem splitHostPort_unrecognised (ascii : ∀ a : Char, a.isDigit → a ∈ digits) (positive : 0 < n.toInt)
    (other : ¬address.Recognised) :
    splitHostPort digits ((Host.ipv6 address).withPort n.toInt) = none := by
  have refused := (isIpv6Str_bracketed address ascii positive).not.mpr other
  have colons : 3 ≤ ((Host.ipv6 address).withPort n.toInt).count ':' + 1 := by
    have two := address.two_le_count
    rw [withPort_eq, List.count_append, List.count_append, List.count_cons]
    omega
  have colon : ':' ∈ (Host.ipv6 address).withPort n.toInt := List.count_pos_iff.mp (by omega)
  unfold splitHostPort
  rw [if_neg refused, if_pos colon, portOf_long (by rwa [length_splitOn])]

end Addresses

section Sums

variable {p k : Int32}

def Fits (n : Int) : Prop := -2 ^ 31 ≤ n ∧ n < 2 ^ 31

theorem toInt_add_eq_iff : (p + k).toInt = p.toInt + k.toInt ↔ Fits (p.toInt + k.toInt) := by
  constructor
  · intro same
    rw [← same]
    exact ⟨(p + k).le_toInt, (p + k).toInt_lt⟩
  · rintro ⟨low, high⟩
    rw [Int32.toInt_add]
    exact Int.bmod_eq_of_le (by omega) (by omega)

theorem toInt_minus_two (positive : 0 < p.toInt) : (p + -2).toInt = p.toInt - 2 := by
  have high := p.toInt_lt
  have two : (-2 : Int32).toInt = -2 := by decide
  have sum : p.toInt + (-2 : Int32).toInt = p.toInt - 2 := by rw [two]; rfl
  rw [toInt_add_eq_iff.mpr, sum]
  rw [sum]
  exact ⟨by omega, by omega⟩

end Sums

section Api

variable {digits prod host : Text} {license : Option CustomServer} {n : Int32}

/-- The program carries no servers of its own in its name. -/
def Unlicensed (license : Option CustomServer) : Prop := ∀ lic ∈ license, lic.api = [] ∧ lic.host = []

theorem getApiServer_eq (unlicensed : Unlicensed license) (some_ : host ≠ []) :
    getApiServer_ digits license prod [] host =
      if increasePort digits host (-2) = host then
        "http://".toList ++ increasePort digits host (-2) ++ ':' :: decimal 21114
      else "http://".toList ++ increasePort digits host (-2) := by
  have no_api : license.filter (·.api ≠ []) = none :=
    Option.filter_eq_none_iff.mpr fun lic given => by simp [(unlicensed lic given).1]
  have no_host : license.filter (·.host ≠ []) = none :=
    Option.filter_eq_none_iff.mpr fun lic given => by simp [(unlicensed lic given).2]
  have custom : getCustomRendezvousServer license prod host = host := by
    rw [getCustomRendezvousServer, no_host]
    exact if_pos some_
  unfold getApiServer_
  dsimp only
  rw [no_api, custom]
  dsimp only
  rw [if_neg (fun given => given rfl), if_pos some_]
  rfl

theorem getApiServer_unsplit (unlicensed : Unlicensed license) (some_ : host ≠ [])
    (whole : splitHostPort digits host = none) :
    getApiServer_ digits license prod [] host = "http://".toList ++ host ++ ':' :: decimal 21114 := by
  have same : increasePort digits host (-2) = host := by rw [increasePort_eq, whole]
  rw [getApiServer_eq unlicensed some_, same, if_pos rfl]

theorem getApiServer_split (unlicensed : Unlicensed license) (positive : 0 < n.toInt)
    (parts : splitHostPort digits (host ++ ':' :: decimal n.toInt) = some (host, n)) :
    getApiServer_ digits license prod [] (host ++ ':' :: decimal n.toInt) =
      "http://".toList ++ (host ++ ':' :: decimal (n.toInt - 2)) := by
  have next :
      increasePort digits (host ++ ':' :: decimal n.toInt) (-2) =
      host ++ ':' :: decimal (n.toInt - 2) := by
    rw [increasePort_eq, parts, ← toInt_minus_two positive]
  have other : host ++ ':' :: decimal (n.toInt - 2) ≠ host ++ ':' :: decimal n.toInt := by
    intro same
    have same := decimal_injective (List.cons.inj (List.append_cancel_left same)).2
    omega
  rw [getApiServer_eq unlicensed (List.append_ne_nil_of_right_ne_nil host (List.cons_ne_nil ':' _)),
    next, if_neg other]

end Api

/-- The port of a host: its own or else `p`. -/
def portFor (own : Option Port) (p : Int32) : Int32 := own.elim p Port.number

/-- The helpers agree on a host, with a port of its own or without. -/
structure Agree (digits : Text) (license : Option CustomServer) (prod : Text) (host : Host)
    (own : Option Port) (p k : Int32) : Prop where
  check : checkPort digits (host.spelt own) p = host.withPort (portFor own p).toInt
  split : splitHostPort digits (checkPort digits (host.spelt own) p) =
    some (host.bracketed, portFor own p)
  increase : increasePort digits (checkPort digits (host.spelt own) p) k =
    host.withPort ((portFor own p).toInt + k.toInt)
  again : checkPort digits (checkPort digits (host.spelt own) p) p = checkPort digits (host.spelt own) p
  api : ∃ port : Nat, (port : Int) = own.elim 21114 (fun own => own.number.toInt - 2) ∧
    getApiServer_ digits license prod [] (host.spelt own) = "http://".toList ++ host.withPort port

/-- A name is not to look like a group in front of four digits; an address is to have a port and to be
spelt in the way that the pattern knows. -/
def Works (host : Host) (own : Option Port) (p k : Int32) : Prop :=
  Fits ((portFor own p).toInt + k.toInt) ∧ (∀ port ∈ own, port.number.toInt ≠ 1) ∧
    match host with
    | .name text _ _ => 0 < (portFor own p).toInt ∧ ¬(IsGroup text ∧ (portFor own p).toInt < 10000)
    | .ipv6 address => own.isSome ∧ address.Recognised

section Agreement

variable {digits prod : Text} {license : Option CustomServer} {host : Host} {own : Option Port} {p k : Int32}
  {name : Text} {n : Int32}

theorem Agree.fits (agree : Agree digits license prod host own p k) :
    Fits ((portFor own p).toInt + k.toInt) := by
  have increase := agree.increase
  rw [increasePort_eq, agree.split] at increase
  have same := decimal_injective (List.cons.inj (List.append_cancel_left increase)).2
  exact toInt_add_eq_iff.mp same

theorem Agree.own_ne_one (agree : Agree digits license prod host own p k) :
    ∀ port ∈ own, port.number.toInt ≠ 1 := by
  rintro port rfl one
  obtain ⟨url, value, -⟩ := agree.api
  rw [Option.elim_some, one] at value
  omega

/-- What is left to show once a host with its port is told apart as it should be. -/
theorem agree_of_split
    (check : checkPort digits (host.spelt own) p = host.withPort (portFor own p).toInt)
    (parts : splitHostPort digits (host.withPort (portFor own p).toInt) =
    some (host.bracketed, portFor own p))
    (again : checkPort digits (host.withPort (portFor own p).toInt) p =
    host.withPort (portFor own p).toInt)
    (fits : Fits ((portFor own p).toInt + k.toInt)) (not_one : ∀ port ∈ own, port.number.toInt ≠ 1)
    (unlicensed : Unlicensed license)
    (alone : own = none → getApiServer_ digits license prod [] host.alone =
      "http://".toList ++ host.withPort 21114) : Agree digits license prod host own p k where
  check := check
  split := by rw [check, parts]
  increase := by
    rw [check, increasePort_eq, parts, ← toInt_add_eq_iff.mpr fits]
    rfl
  again := by rw [check, again]
  api := by
    cases own with
    | none => exact ⟨21114, rfl, alone rfl⟩
    | some own =>
        have one := not_one own rfl
        have positive := own.positive
        have value : own.number.toInt - 2 = ((own.number.toInt - 2).toNat : Nat) := by omega
        refine ⟨_, value.symm, ?_⟩
        rw [← value]
        exact getApiServer_split unlicensed positive parts

theorem checkPort_name (plain : ':' ∉ name) (other : ¬(IsGroup name ∧ n.toInt < 10000)) :
    checkPort digits (name ++ ':' :: decimal n.toInt) p = name ++ ':' :: decimal n.toInt := by
  have refused : ¬isIpv6Str digits (name ++ ':' :: decimal n.toInt) = true := fun accepted =>
    other ⟨((isIpv6Str_name plain).mp accepted).1, ((isIpv6Str_name plain).mp accepted).2.2⟩
  rw [checkPort, if_neg refused, if_neg (not_not_intro (List.mem_append_right name List.mem_cons_self))]

/-- A name that looks like a group in front of its port is put into brackets together with it. -/
theorem checkPort_group (group : IsGroup name) (nonneg : 0 ≤ n.toInt) (small : n.toInt < 10000) :
    checkPort digits (name ++ ':' :: decimal n.toInt) p =
      '[' :: (name ++ ':' :: decimal n.toInt) ++ "]:".toList ++ decimal p.toInt := by
  have accepted := (@isIpv6Str_name digits name n group.colon_not_mem).mpr ⟨group, nonneg, small⟩
  rw [checkPort, if_pos accepted, if_neg (group.head_ne_bracket _)]

theorem agree_name_iff {some_ : name ≠ []} {plain : ':' ∉ name} (unlicensed : Unlicensed license) :
    Agree digits license prod (.name name some_ plain) own p k ↔
      Works (.name name some_ plain) own p k := by
  have parts := @splitHostPort_name digits name (portFor own p) plain
  constructor
  · intro agree
    refine ⟨agree.fits, agree.own_ne_one, ?_⟩
    have split := agree.split
    rw [agree.check] at split
    by_contra neither
    exact nomatch split.symm.trans (parts.trans (if_neg neither))
  · rintro ⟨fits, not_one, told⟩
    refine agree_of_split ?_ (parts.trans (if_pos told))
      (checkPort_name plain told.2) fits not_one unlicensed ?_
    · cases own with
      | none =>
          show checkPort digits name p = _
          rw [checkPort, isIpv6Str_plain plain, if_neg nofun, if_pos plain]
          rfl
      | some own => exact checkPort_name plain told.2
    · rintro rfl
      show getApiServer_ digits license prod [] name = _
      rw [getApiServer_unsplit unlicensed some_ (splitHostPort_plain plain), List.append_assoc]
      rfl

theorem agree_ipv6_iff {address : Ipv6} (ascii : ∀ a : Char, a.isDigit → a ∈ digits)
    (unlicensed : Unlicensed license) :
    Agree digits license prod (.ipv6 address) own p k ↔ Works (.ipv6 address) own p k := by
  cases own with
  | none =>
      constructor
      · intro agree
        have some_ : address.text ≠ [] := by
          intro empty
          have two := address.two_le_count
          rw [empty] at two
          exact absurd two (by decide)
        obtain ⟨url, value, api⟩ := agree.api
        have value : (url : Int) = 21114 := value
        have bare :=
          @getApiServer_unsplit digits prod _ license unlicensed some_
          (splitHostPort_address address)
        have same := congrArg List.length (bare.symm.trans api)
        rw [value, withPort_eq] at same
        simp only [List.length_append, List.length_cons] at same
        have mark : "]:".toList.length = 2 := rfl
        omega
      · exact fun works => nomatch works.2.2.1
  | some own =>
      have positive := own.positive
      constructor
      · intro agree
        refine ⟨agree.fits, agree.own_ne_one, rfl, ?_⟩
        have split := agree.split
        rw [agree.check] at split
        by_contra other
        exact nomatch split.symm.trans (splitHostPort_unrecognised address ascii positive other)
      · rintro ⟨fits, not_one, -, recognised⟩
        have check : checkPort digits ((Host.ipv6 address).withPort own.number.toInt) p =
            (Host.ipv6 address).withPort own.number.toInt := by
          rw [checkPort, if_pos ((isIpv6Str_bracketed address ascii positive).mpr recognised)]
          exact if_pos rfl
        exact agree_of_split check
          (splitHostPort_recognised address ascii positive recognised) check fits not_one
          unlicensed nofun

end Agreement

/-- `check_port`, `split_host_port`, `increase_port` and `get_api_server_` agree on a host exactly when
it works. -/
theorem agree_iff (digits : Text) (ascii : ∀ a : Char, a.isDigit → a ∈ digits)
    (license : Option CustomServer)
    (unlicensed : Unlicensed license) (prod : Text) (host : Host) (own : Option Port) (p k : Int32) :
    Agree digits license prod host own p k ↔ Works host own p k := by
  cases host with
  | name name some_ plain => exact agree_name_iff unlicensed
  | ipv6 address => exact agree_ipv6_iff ascii unlicensed

/-- `[2001:db8::1]:21116`, the port being the rendezvous port. -/
theorem agree_address :
    Agree "0123456789".toList none []
      (.ipv6 ⟨[⟨"2001".toList, by decide⟩, ⟨"db8".toList, by decide⟩],
        some [⟨"1".toList, by decide⟩], none,
        by decide⟩) (some ⟨21116, by decide, by decide⟩) 21116 1 :=
  (agree_iff _ (fun _ => mem_of_isDigit) none nofun [] _ _ 21116 1).mpr
    ⟨⟨by decide, by decide⟩, by rintro _ ⟨⟩; decide, rfl, rfl, by rintro _ ⟨⟩; decide⟩

/-- The host `cafe` with port 1234 is taken for an address. -/
theorem helpers_disagree :
    checkPort "0123456789".toList "cafe:1234".toList 21116 = "[cafe:1234]:21116".toList ∧
      ¬∀ (digits : Text), (∀ a : Char, a.isDigit → a ∈ digits) → ∀ (license : Option CustomServer),
        Unlicensed license → ∀ (prod : Text) (host : Host) (own : Option Port) (p k : Int32),
          Agree digits license prod host own p k := by
  have check : checkPort "0123456789".toList "cafe:1234".toList 21116 = "[cafe:1234]:21116".toList :=
    @checkPort_group "0123456789".toList 21116 "cafe".toList 1234 (by decide) (by decide) (by decide)
  refine ⟨check, fun all => ?_⟩
  have agree := (all "0123456789".toList (fun _ => mem_of_isDigit) none nofun []
    (.name "cafe".toList (by decide) (by decide)) (some ⟨1234, by decide, by decide⟩) 21116 1).check
  exact absurd (check.symm.trans agree) (by decide)

end RemoteControl.HostPort
