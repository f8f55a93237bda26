import RemoteControl.Config.CustomServer
import RemoteControl.Patterns

/-! # A host and its port in one text

`check_port`, `increase_port` and `split_host_port` of `socket_client.rs`, which tell an IPv6 address
from a name by the pattern of `is_ipv6_str` and then split the text again, and `get_api_server_` of
`common.rs`, which builds on them.
-/

namespace RemoteControl.HostPort

open CustomServers (Text CustomServer)
open Patterns (oneOf between plus)
open RegularExpression (char)
open Splitting (split)

/-- What `format!` makes of an `i32`. -/
def decimal : Int → Text
  | .ofNat n => Nat.toDigits 10 n
  | .negSucc n => '-' :: Nat.toDigits 10 (n + 1)

/-- The digits of `parse::<i32>`, behind the sign. -/
def parseDigits (negative : Bool) (digits : Text) : Option Int32 :=
  if digits ≠ [] ∧ digits.all Char.isDigit then
    let n : Int := Nat.ofDigitChars 10 digits 0
    let n := if negative then -n else n
    if -2 ^ 31 ≤ n ∧ n < 2 ^ 31 then some (Int32.ofInt n) else none
  else none

/-- `parse::<i32>` -/
def parseI32 (s : Text) : Option Int32 :=
  match s with
  | '-' :: digits => parseDigits true digits
  | '+' :: digits => parseDigits false digits
  | digits => parseDigits false digits

def hexDigits : Text := "abcdefABCDEF0123456789".toList

/-- `([a-fA-F0-9]{1,4}:{1,2})+[a-fA-F0-9]{1,4}` -/
def groups : RegularExpression Char :=
  plus (between 1 4 (oneOf hexDigits) * between 1 2 (oneOf [':'])) * between 1 4 (oneOf hexDigits)

/-- The pattern of `is_ipv6_str`. Which letters `\d` stands for is up to the pattern library. -/
def ipv6Pattern (digits : Text) : RegularExpression Char :=
  groups + char '[' * groups * char ']' * char ':' * plus (oneOf digits)

def isIpv6Str (digits : Text) (id : Text) : Bool := (ipv6Pattern digits).rmatch id

def checkPort (digits : Text) (host : Text) (port : Int32) : Text :=
  if isIpv6Str digits host then
    if host.head? = some '[' then host
    else '[' :: host ++ "]:".toList ++ decimal port.toInt
  else if ':' ∉ host then host ++ ':' :: decimal port.toInt
  else host

/-- `tmp` of the source when it has two parts, the second a port greater than 0. -/
def portOf (tmp : List Text) : Option (Text × Int32) :=
  match tmp with
  | [host, port] =>
      let port := (parseI32 port).getD 0
      if port > 0 then some (host, port) else none
  | _ => none

def increasePort (digits : Text) (host : Text) (offset : Int32) : Text :=
  if isIpv6Str digits host then
    if host.head? = some '[' then
      match portOf (split "]:".toList host) with
      | some (tmp, port) => tmp ++ "]:".toList ++ decimal (port + offset).toInt
      | none => host
    else host
  else if ':' ∈ host then
    match portOf (host.splitOn ':') with
    | some (tmp, port) => tmp ++ ':' :: decimal (port + offset).toInt
    | none => host
  else host

def splitHostPort (digits : Text) (host : Text) : Option (Text × Int32) :=
  if isIpv6Str digits host then
    if host.head? = some '[' then
      (portOf (split "]:".toList host)).map fun (tmp, port) => (tmp ++ [']'], port)
    else none
  else if ':' ∈ host then portOf (host.splitOn ':')
  else none

def rendezvousPort : Int32 := 21116

/-- `license` is what `get_license_from_exe_name` gives on Windows, `prod` is
`PROD_RENDEZVOUS_SERVER`. -/
def getCustomRendezvousServer (license : Option CustomServer) (prod custom : Text) : Text :=
  match license.filter (·.host ≠ []) with
  | some lic => lic.host
  | none => if custom ≠ [] then custom else prod

def getApiServer_ (digits : Text) (license : Option CustomServer) (prod api custom : Text) : Text :=
  match license.filter (·.api ≠ []) with
  | some lic => lic.api
  | none =>
      if api ≠ [] then api
      else
        let s0 := getCustomRendezvousServer license prod custom
        if s0 ≠ [] then
          let s := increasePort digits s0 (-2)
          if s = s0 then "http://".toList ++ s ++ ':' :: decimal (rendezvousPort - 2).toInt
          else "http://".toList ++ s
        else "https://admin.rustdesk.com".toList

/-- One group of an IPv6 address. -/
def IsGroup (text : Text) : Prop := 1 ≤ text.length ∧ text.length ≤ 4 ∧ ∀ a ∈ text, a ∈ hexDigits

instance (text : Text) : Decidable (IsGroup text) :=
  decidable_of_iff (1 ≤ text.length ∧ text.length ≤ 4 ∧ text.all (· ∈ hexDigits))
    (and_congr_right' (and_congr_right' List.all_iff_forall_prop))

structure Group where
  text : Text
  isGroup : IsGroup text

/-- The last four bytes of an address in the spelling of IPv4. -/
structure Ipv4 where
  (a b c d : UInt8)

def Ipv4.text (v4 : Ipv4) : Text :=
  ['.'].intercalate ([v4.a, v4.b, v4.c, v4.d].map fun byte => Nat.toDigits 10 byte.toNat)

/-- A textual IPv6 address: the groups before a `::` and, if there is one, those after it. The last
two groups may be spelt as an IPv4 address. -/
structure Ipv6 where
  left : List Group
  right : Option (List Group)
  embedded : Option Ipv4
  size : match right with
    | none => left.length + (if embedded.isSome then 2 else 0) = 8
    | some right => left.length + right.length + (if embedded.isSome then 2 else 0) ≤ 7

def joined (parts : List Text) : Text := [':'].intercalate parts

/-- There is a group at both ends and nothing is spelt as IPv4. -/
def Ipv6.Recognised (address : Ipv6) : Prop :=
  address.embedded = none ∧ ∀ right ∈ address.right, address.left ≠ [] ∧ right ≠ []

def Ipv6.text (address : Ipv6) : Text :=
  let last := (address.embedded.map Ipv4.text).toList
  match address.right with
  | none => joined (address.left.map Group.text ++ last)
  | some right =>
    joined (address.left.map Group.text) ++ "::".toList ++ joined (right.map Group.text ++ last)

/-- A name, which may be an IPv4 address as well, or an IPv6 address. -/
inductive Host
  | name (text : Text) (some_ : text ≠ []) (plain : ':' ∉ text)
  | ipv6 (address : Ipv6)

/-- A host in front of a port. -/
def Host.bracketed : Host → Text
  | .name text _ _ => text
  | .ipv6 address => '[' :: address.text ++ [']']

def Host.alone : Host → Text
  | .name text _ _ => text
  | .ipv6 address => address.text

structure Port where
  number : Int32
  positive : 0 < number.toInt
  small : number.toInt ≤ 65535

def Host.withPort (host : Host) (port : Int) : Text := host.bracketed ++ ':' :: decimal port

/-- A host with a port of its own or without one. -/
def Host.spelt (host : Host) : Option Port → Text
  | none => host.alone
  | some own => host.withPort own.number.toInt

/-! ## Reading a number back -/

section Numbers

variable {a : Char} {m n : Int}

theorem decimal_letters (inside : a ∈ decimal n) : a.isDigit ∨ a = '-' := by
  cases n with
  | ofNat n => exact .inl (Nat.isDigit_of_mem_toDigits (by decide) (by decide) inside)
  | negSucc n =>
      cases inside with
      | head => exact .inr rfl
      | tail _ inside => exact .inl (Nat.isDigit_of_mem_toDigits (by decide) (by decide) inside)

theorem not_mem_decimal (digit : a.isDigit = false) (minus : a ≠ '-') : a ∉ decimal n :=
  fun inside => (decimal_letters inside).elim (by rw [digit]; exact nofun) minus

theorem parseDigits_toDigits (negative : Bool) {value : Int32} {i : Nat}
    (is : value.toInt = if negative then -(i : Int) else i) :
    parseDigits negative (Nat.toDigits 10 i) = some value := by
  have all : (Nat.toDigits 10 i).all Char.isDigit = true :=
    List.all_eq_true.mpr fun a inside => Nat.isDigit_of_mem_toDigits (by decide) (by decide) inside
  have low := value.le_toInt
  have high := value.toInt_lt
  unfold parseDigits
  dsimp only
  rw [if_pos ⟨Nat.toDigits_ne_nil, all⟩, Nat.ofDigitChars_ten_toDigits, ← is, if_pos ⟨low, high⟩,
    Int32.ofInt_toInt]

theorem parseI32_decimal (n : Int32) : parseI32 (decimal n.toInt) = some n := by
  cases value : n.toInt with
  | ofNat i =>
      obtain ⟨first, rest, digits⟩ := List.exists_cons_of_ne_nil (@Nat.toDigits_ne_nil i 10)
      have digit : first.isDigit := by
        refine Nat.isDigit_of_mem_toDigits (n := i) (b := 10) (by decide) (by decide) ?_
        rw [digits]
        exact List.mem_cons_self
      have unsigned : parseI32 (first :: rest) = parseDigits false (first :: rest) := by
        unfold parseI32
        split
        · next same => exact absurd ((List.cons.inj same).1 ▸ digit) (by decide)
        · next same => exact absurd ((List.cons.inj same).1 ▸ digit) (by decide)
        · rfl
      rw [decimal, digits, unsigned, ← digits]
      exact parseDigits_toDigits false value
  | negSucc i => exact parseDigits_toDigits true value

theorem decimal_injective (same : decimal m = decimal n) : m = n := by
  have digits {i j : Nat} (same : Nat.toDigits 10 i = Nat.toDigits 10 j) : i = j := by
    rw [← @Nat.ofDigitChars_ten_toDigits i, same, Nat.ofDigitChars_ten_toDigits]
  have minus (i : Nat) : '-' ∉ Nat.toDigits 10 i := fun inside =>
    absurd (Nat.isDigit_of_mem_toDigits (by decide) (by decide) inside) (by decide)
  cases m with
  | ofNat i =>
      cases n with
      | ofNat j => rw [digits same]
      | negSucc j => exact absurd (show '-' ∈ decimal (.ofNat i) by rw [same]; exact .head _) (minus i)
  | negSucc i =>
      cases n with
      | ofNat j => exact absurd (show '-' ∈ decimal (.ofNat j) by rw [← same]; exact .head _) (minus j)
      | negSucc j => rw [Nat.succ.inj (digits (List.cons.inj same).2)]

theorem mem_of_isDigit (digit : a.isDigit) : a ∈ "0123456789".toList := by
  have all : ∀ i < 10, Char.ofNat (48 + i) ∈ "0123456789".toList := by decide
  have low : 48 ≤ a.toNat := (Char.isDigit_iff_toNat.mp digit).1
  have high : a.toNat ≤ 57 := (Char.isDigit_iff_toNat.mp digit).2
  have inside := all (a.toNat - 48) (by omega)
  rwa [Nat.add_sub_cancel' low, Char.ofNat_toNat] at inside

theorem hexDigits_of_isDigit (digit : a.isDigit) : a ∈ hexDigits :=
  List.all_iff_forall_prop.mp
    (by decide : "0123456789".toList.all (· ∈ hexDigits) = true) a (mem_of_isDigit digit)

theorem isGroup_decimal : IsGroup (decimal n) ↔ 0 ≤ n ∧ n < 10000 := by
  cases n with
  | ofNat i =>
      have letters : ∀ a ∈ Nat.toDigits 10 i, a ∈ hexDigits := by
        intro a inside
        exact hexDigits_of_isDigit (Nat.isDigit_of_mem_toDigits (by decide) (by decide) inside)
      have short : (Nat.toDigits 10 i).length ≤ 4 ↔ i < 10 ^ 4 :=
        Nat.length_toDigits_le_iff (by decide) (by decide)
      constructor
      · rintro ⟨-, length, -⟩
        have small := short.mp length
        exact ⟨Int.natCast_nonneg i, by show (i : Int) < 10000; omega⟩
      · rintro ⟨-, small⟩
        have small : (i : Int) < 10000 := small
        exact ⟨Nat.length_toDigits_pos, short.mpr (by omega), letters⟩
  | negSucc i =>
      constructor
      · exact fun group => absurd (group.2.2 '-' (.head _)) (by decide)
      · exact fun nonneg => absurd nonneg.1 (by omega)

end Numbers

def IsColons (text : Text) : Prop := 1 ≤ text.length ∧ text.length ≤ 2 ∧ ∀ a ∈ text, a ∈ [':']

/-- At least two groups with one or two colons between each and the next. -/
inductive Grouped : Text → Prop
  | pair {first colons last : Text} (group : IsGroup first) (between : IsColons colons)
      (end_ : IsGroup last) : Grouped (first ++ colons ++ last)
  | next {first colons rest : Text} (group : IsGroup first) (between : IsColons colons)
      (later : Grouped rest) : Grouped (first ++ colons ++ rest)

section Pattern

variable {a : Char} {digits text inner port : Text}

theorem mem_groups : text ∈ groups.matches' ↔ Grouped text := by
  have mem_piece {piece : Text} :
      piece ∈ (between 1 4 (oneOf hexDigits) * between 1 2 (oneOf [':'])).matches' ↔
        ∃ first, IsGroup first ∧ ∃ colons, IsColons colons ∧ first ++ colons = piece := by
    rw [RegularExpression.matches'_mul, Language.mem_mul]
    exact exists_congr fun first => and_congr Patterns.mem_between_oneOf <|
      exists_congr fun colons => and_congr Patterns.mem_between_oneOf Iff.rfl
  rw [groups, RegularExpression.matches'_mul, Language.mem_mul]
  constructor
  · rintro ⟨_, pieces, last, end_, rfl⟩
    obtain ⟨piece, rest, head, all, rfl⟩ := Patterns.mem_plus.mp pieces
    have end_ := Patterns.mem_between_oneOf.mp end_
    clear pieces
    induction rest generalizing piece with
    | nil =>
        obtain ⟨first, group, colons, between, rfl⟩ := mem_piece.mp head
        rw [List.flatten_nil, List.append_nil]
        exact .pair group between end_
    | cons second rest ih =>
        obtain ⟨first, group, colons, between, rfl⟩ := mem_piece.mp head
        obtain ⟨head, all⟩ := List.forall_mem_cons.mp all
        rw [List.flatten_cons, List.append_assoc _ _ last]
        exact .next group between (ih second head all)
  · intro grouped
    induction grouped with
    | pair group between end_ =>
        refine ⟨_,
          Patterns.mem_plus.mpr ⟨_, [], mem_piece.mpr ⟨_, group, _, between, rfl⟩, nofun, rfl⟩, _,
          Patterns.mem_between_oneOf.mpr end_, ?_⟩
        rw [List.flatten_nil, List.append_nil]
    | next group between later ih =>
        obtain ⟨_, pieces, last, end_, rfl⟩ := ih
        obtain ⟨piece, rest, head, all, rfl⟩ := Patterns.mem_plus.mp pieces
        refine ⟨_, Patterns.mem_plus.mpr ⟨_, piece :: rest, mem_piece.mpr ⟨_, group, _, between, rfl⟩,
          List.forall_mem_cons.mpr ⟨head, all⟩, rfl⟩, last, end_, ?_⟩
        rw [List.flatten_cons, List.append_assoc _ _ last]

theorem isIpv6Str_iff :
    isIpv6Str digits text ↔ Grouped text ∨ ∃ inner port, Grouped inner ∧ port ≠ [] ∧
      (∀ a ∈ port, a ∈ digits) ∧ text = '[' :: (inner ++ "]:".toList ++ port) := by
  rw [isIpv6Str, RegularExpression.rmatch_iff_matches', ipv6Pattern, RegularExpression.matches'_add,
    Language.mem_add, mem_groups]
  refine or_congr Iff.rfl ?_
  simp only [RegularExpression.matches'_mul, Language.mem_mul, RegularExpression.matches'_char,
    mem_groups, Patterns.mem_plus_oneOf]
  constructor
  · rintro ⟨_, ⟨_, ⟨_, ⟨_, rfl, inner, grouped, rfl⟩, _, rfl, rfl⟩, _, rfl, rfl⟩, port,
      ⟨some_, all⟩, rfl⟩
    exact ⟨inner, port, grouped, some_, all, by simp⟩
  · rintro ⟨inner, port, grouped, some_, all, rfl⟩
    exact ⟨_, ⟨_, ⟨_, ⟨['['], rfl, inner, grouped, rfl⟩, [']'], rfl, rfl⟩, [':'], rfl, rfl⟩, port,
      ⟨some_, all⟩,
      by simp⟩

theorem IsColons.eq_colon (colons : IsColons text) (inside : a ∈ text) : a = ':' :=
  List.mem_singleton.mp (colons.2.2 a inside)

theorem Grouped.letters (grouped : Grouped text) (inside : a ∈ text) : a ∈ hexDigits ∨ a = ':' := by
  induction grouped with
  | pair group between end_ =>
      rcases List.mem_append.mp inside with inside | inside
      · exact (List.mem_append.mp inside).imp (group.2.2 a) between.eq_colon
      · exact .inl (end_.2.2 a inside)
  | next group between later ih =>
      rcases List.mem_append.mp inside with inside | inside
      · exact (List.mem_append.mp inside).imp (group.2.2 a) between.eq_colon
      · exact ih inside

theorem Grouped.begins (grouped : Grouped text) : ∃ a ∈ text.head?, a ∈ hexDigits := by
  have begins {first rest : Text} (group : IsGroup first) :
      ∃ a ∈ (first ++ rest).head?, a ∈ hexDigits := by
    obtain ⟨a, first, rfl⟩ := List.exists_cons_of_length_pos group.1
    exact ⟨a, rfl, group.2.2 a List.mem_cons_self⟩
  cases grouped with
  | pair group between end_ => rw [List.append_assoc]; exact begins group
  | next group between later => rw [List.append_assoc]; exact begins group

theorem Grouped.ends (grouped : Grouped text) : ∃ a ∈ text.getLast?, a ∈ hexDigits := by
  induction grouped with
  | pair group between end_ =>
      have some_ := List.ne_nil_of_length_pos end_.1
      refine ⟨_, ?_, end_.2.2 _ (List.getLast_mem some_)⟩
      rw [List.getLast?_append_of_ne_nil _ some_]
      exact List.getLast?_eq_some_getLast some_
  | next group between later ih =>
      obtain ⟨a, last, hex⟩ := ih
      refine ⟨a, ?_, hex⟩
      rw [List.getLast?_append, last]
      rfl

theorem IsGroup.colon_not_mem (group : IsGroup text) : ':' ∉ text :=
  fun inside => absurd (group.2.2 ':' inside) (by decide)

theorem IsColons.cons (colons : IsColons text) : ∃ more, text = ':' :: more ∧ ∀ a ∈ more, a = ':' := by
  obtain ⟨a, more, rfl⟩ := List.exists_cons_of_length_pos colons.1
  obtain rfl := colons.eq_colon List.mem_cons_self
  exact ⟨more, rfl, fun a inside => colons.eq_colon (List.mem_cons_of_mem ':' inside)⟩

theorem Grouped.colon_mem (grouped : Grouped text) : ':' ∈ text := by
  have inside {first colons rest : Text} (between : IsColons colons) :
      ':' ∈ first ++ colons ++ rest := by
    obtain ⟨more, rfl, -⟩ := between.cons
    exact List.mem_append_left rest (List.mem_append_right first List.mem_cons_self)
  cases grouped with
  | pair group between end_ => exact inside between
  | next group between later => exact inside between

/-- One colon alone is between two groups. -/
theorem grouped_single_colon (left : ':' ∉ inner) (right : ':' ∉ port) :
    Grouped (inner ++ ':' :: port) ↔ IsGroup inner ∧ IsGroup port := by
  have cut {first colons rest : Text} (between : IsColons colons)
      (same : first ++ colons ++ rest = inner ++ ':' :: port) : first = inner ∧ rest = port := by
    obtain ⟨more, rfl, all⟩ := between.cons
    rw [List.append_assoc, List.cons_append] at same
    obtain ⟨rfl, -, rfl⟩ := (List.append_cons_inj_of_notMem left right).mp same.symm
    cases more with
    | nil => exact ⟨rfl, rfl⟩
    | cons a more =>
        obtain rfl := all a List.mem_cons_self
        exact absurd List.mem_cons_self right
  constructor
  · intro grouped
    generalize is : inner ++ ':' :: port = text at grouped
    cases grouped with
    | pair group between end_ =>
        obtain ⟨rfl, rfl⟩ := cut between is.symm
        exact ⟨group, end_⟩
    | next group between later =>
        obtain ⟨-, rfl⟩ := cut between is.symm
        exact absurd later.colon_mem right
  · rintro ⟨group, end_⟩
    have grouped := Grouped.pair group ⟨by decide, by decide, fun a inside => inside⟩ end_
    rwa [List.append_assoc] at grouped

end Pattern

section Joined

variable {a : Char} {part : Text} {parts left right : List Text}

theorem mem_joined (inside : a ∈ joined parts) : a = ':' ∨ ∃ part ∈ parts, a ∈ part := by
  induction parts with
  | nil => exact absurd inside List.not_mem_nil
  | cons first parts ih =>
      cases parts with
      | nil =>
          rw [joined, List.intercalate_singleton] at inside
          exact .inr ⟨first, List.mem_cons_self, inside⟩
      | cons second parts =>
          rw [joined, List.intercalate_cons_cons, List.append_assoc] at inside
          rcases List.mem_append.mp inside with inside | inside
          · exact .inr ⟨first, List.mem_cons_self, inside⟩
          · cases inside with
            | head => exact .inl rfl
            | tail _ inside => exact (ih inside).imp_right fun ⟨part, there, inside⟩ =>
              ⟨part, .tail _ there, inside⟩

theorem mem_joined_of_mem (there : part ∈ parts) (inside : a ∈ part) : a ∈ joined parts := by
  induction parts with
  | nil => exact absurd there List.not_mem_nil
  | cons first parts ih =>
      cases parts with
      | nil =>
          rw [joined, List.intercalate_singleton, ← List.mem_singleton.mp there]
          exact inside
      | cons second parts =>
          rw [joined, List.intercalate_cons_cons, List.append_assoc]
          cases there with
          | head => exact List.mem_append_left _ inside
          | tail _ there => exact List.mem_append_right _ (List.mem_append_right _ (ih there))

theorem length_le_count_joined : parts.length ≤ (joined parts).count ':' + 1 := by
  induction parts with
  | nil => exact Nat.zero_le _
  | cons first parts ih =>
      cases parts with
      | nil => exact Nat.le_add_left _ _
      | cons second parts =>
          have counts : (joined (first :: second :: parts)).count ':' =
              first.count ':' + (1 + (joined (second :: parts)).count ':') := by
            rw [joined, List.intercalate_cons_cons, List.append_assoc, List.count_append,
              List.count_append]
            rfl
          rw [List.length_cons, counts]
          omega

theorem grouped_joined (all : ∀ part ∈ parts, IsGroup part) (two : 2 ≤ parts.length) :
    Grouped (joined parts) := by
  have colon : IsColons [':'] := ⟨by decide, by decide, fun a inside => inside⟩
  induction parts with
  | nil => exact absurd two (by decide)
  | cons first parts ih =>
      obtain ⟨group, all⟩ := List.forall_mem_cons.mp all
      cases parts with
      | nil => exact absurd two (Nat.lt_irrefl 1)
      | cons second parts =>
          rw [joined, List.intercalate_cons_cons]
          cases parts with
          | nil =>
              rw [List.intercalate_singleton]
              exact .pair group colon (all second List.mem_cons_self)
          | cons third parts => exact .next group colon (ih all (Nat.le_add_left 2 parts.length))

/-- Groups on both sides of a `::`. -/
theorem grouped_gap (left_all : ∀ part ∈ left, IsGroup part) (right_all : ∀ part ∈ right, IsGroup part)
    (before : left ≠ []) (after : right ≠ []) :
    Grouped (joined left ++ "::".toList ++ joined right) := by
  have colon : IsColons [':'] := ⟨by decide, by decide, fun a inside => inside⟩
  have colons : IsColons "::".toList :=
    ⟨by decide, by decide, List.all_iff_forall_prop.mp (by decide)⟩
  induction left with
  | nil => exact absurd rfl before
  | cons first left ih =>
      obtain ⟨group, left_all⟩ := List.forall_mem_cons.mp left_all
      cases left with
      | nil =>
          rw [joined, List.intercalate_singleton]
          cases right with
          | nil => exact absurd rfl after
          | cons last right =>
              cases right with
              | nil =>
                  rw [joined, List.intercalate_singleton]
                  exact .pair group colons (right_all last List.mem_cons_self)
              | cons second right =>
                  exact .next group colons (grouped_joined right_all (Nat.le_add_left 2 right.length))
      | cons second left =>
          rw [joined, List.intercalate_cons_cons, List.append_assoc, List.append_assoc,
            ← List.append_assoc _ "::".toList]
          exact .next group colon (ih left_all (List.cons_ne_nil second left))

end Joined

theorem Ipv4.letters {a : Char} {v4 : Ipv4} (inside : a ∈ v4.text) : a.isDigit ∨ a = '.' := by
  have digits (byte : UInt8) (inside : a ∈ Nat.toDigits 10 byte.toNat) : a.isDigit :=
    Nat.isDigit_of_mem_toDigits (by decide) (by decide) inside
  unfold Ipv4.text at inside
  simp only [List.map_cons, List.map_nil, List.intercalate_cons_cons, List.intercalate_singleton,
    List.mem_append, List.mem_singleton] at inside
  rcases inside with (inside | dot) | (inside | dot) | (inside | dot) | inside
  all_goals first | exact .inl (digits _ inside) | exact .inr dot

theorem Ipv4.dot_mem (v4 : Ipv4) : '.' ∈ v4.text := by
  unfold Ipv4.text
  rw [List.map_cons, List.map_cons, List.intercalate_cons_cons]
  exact List.mem_append_left _ (List.mem_append_right _ List.mem_cons_self)

namespace Ipv6

variable {a : Char} {digits : Text} (address : Ipv6)

/-- The bytes of an address that are spelt as IPv4 are its last part. -/
def last : List Text := (address.embedded.map Ipv4.text).toList

theorem mem_last {part : Text} :
    part ∈ address.last ↔ ∃ v4, address.embedded = some v4 ∧ v4.text = part := by
  rw [last, Option.mem_toList, Option.map_eq_some_iff]

theorem text_joined (full : address.right = none) :
    address.text = joined (address.left.map Group.text ++ address.last) := by
  rw [text, full, last]

theorem text_gap {right : List Group} (gap : address.right = some right) :
    address.text = joined (address.left.map Group.text) ++ "::".toList ++
      joined (right.map Group.text ++ address.last) := by
  rw [text, gap, last]

theorem letters (inside : a ∈ address.text) : a ∈ hexDigits ∨ a = ':' ∨ a = '.' := by
  have groups {parts : List Group} (inside : a ∈ joined (parts.map Group.text)) :
      a ∈ hexDigits ∨ a = ':' ∨ a = '.' := by
    rcases mem_joined inside with colon | ⟨_, there, inside⟩
    · exact .inr (.inl colon)
    · obtain ⟨group, -, rfl⟩ := List.mem_map.mp there
      exact .inl (group.isGroup.2.2 a inside)
  have tail {parts : List Group} (inside : a ∈ joined (parts.map Group.text ++ address.last)) :
      a ∈ hexDigits ∨ a = ':' ∨ a = '.' := by
    rcases mem_joined inside with colon | ⟨_, there, inside⟩
    · exact .inr (.inl colon)
    · rcases List.mem_append.mp there with there | there
      · obtain ⟨group, -, rfl⟩ := List.mem_map.mp there
        exact .inl (group.isGroup.2.2 a inside)
      · obtain ⟨v4, -, rfl⟩ := address.mem_last.mp there
        exact (Ipv4.letters inside).imp hexDigits_of_isDigit .inr
  cases gap : address.right with
  | none =>
      rw [address.text_joined gap] at inside
      exact tail inside
  | some right =>
      rw [address.text_gap gap] at inside
      rcases List.mem_append.mp inside with inside | inside
      · rcases List.mem_append.mp inside with inside | inside
        · exact groups inside
        · exact .inr (.inl (List.mem_singleton.mp (List.mem_of_mem_cons_of_mem inside (.head _))))
      · exact tail inside

theorem two_le_count : 2 ≤ address.text.count ':' := by
  cases gap : address.right with
  | none =>
      have size := address.size
      rw [gap] at size
      have long : address.left.length ≤ (address.left.map Group.text ++ address.last).length := by
        rw [List.length_append, List.length_map]
        exact Nat.le_add_right _ _
      have count := @length_le_count_joined (address.left.map Group.text ++ address.last)
      rw [address.text_joined gap]
      dsimp only at size
      split at size
      all_goals omega
  | some right =>
      have two : "::".toList.count ':' = 2 := by decide
      rw [address.text_gap gap, List.count_append, List.count_append, two]
      omega

/-- The pattern wants a group at both ends and knows no dots. -/
theorem grouped_text_iff : Grouped address.text ↔ address.Recognised := by
  have all {parts : List Group} : ∀ part ∈ parts.map Group.text, IsGroup part := by
    intro _ there
    obtain ⟨group, -, rfl⟩ := List.mem_map.mp there
    exact group.isGroup
  constructor
  · intro grouped
    have plain : address.embedded = none := by
      cases given : address.embedded with
      | none => rfl
      | some v4 =>
          have there {parts : List Text} : v4.text ∈ parts ++ address.last :=
            List.mem_append_right _ (address.mem_last.mpr ⟨v4, given, rfl⟩)
          have dot : '.' ∈ address.text := by
            cases gap : address.right with
            | none =>
                rw [address.text_joined gap]
                exact mem_joined_of_mem there v4.dot_mem
            | some right =>
                rw [address.text_gap gap]
                exact List.mem_append_right _ (mem_joined_of_mem there v4.dot_mem)
          exact absurd (grouped.letters dot) (by decide)
    refine ⟨plain, fun right gap => ⟨fun empty => ?_, fun empty => ?_⟩⟩
    · have text := address.text_gap gap
      rw [empty] at text
      obtain ⟨a, head, hex⟩ := grouped.begins
      rw [text] at head
      obtain rfl : ':' = a := Option.some.inj head
      exact absurd hex (by decide)
    · have text := address.text_gap gap
      rw [empty, last, plain] at text
      obtain ⟨a, end_, hex⟩ := grouped.ends
      rw [text, List.getLast?_append, List.getLast?_append] at end_
      obtain rfl : ':' = a := Option.some.inj end_
      exact absurd hex (by decide)
  · rintro ⟨plain, ends⟩
    have none_left : address.last = [] := by rw [last, plain]; rfl
    cases gap : address.right with
    | none =>
        have size := address.size
        rw [gap, plain] at size
        have eight : address.left.length = 8 := size
        rw [address.text_joined gap, none_left, List.append_nil]
        refine grouped_joined all ?_
        rw [List.length_map, eight]
        decide
    | some right =>
        obtain ⟨before, after⟩ := ends right gap
        rw [address.text_gap gap, none_left, List.append_nil]
        exact grouped_gap all all (List.map_eq_nil_iff.not.mpr before)
          (List.map_eq_nil_iff.not.mpr after)

end Ipv6

end RemoteControl.HostPort
