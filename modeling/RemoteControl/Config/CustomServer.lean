import RemoteControl.Lowercase
import RemoteControl.Splitting

/-! # The server in the name of the program

`get_custom_server_from_string` of `custom_server.rs` reads a host, a key and two other servers out
of the name of the file that was started, `rustdesk-host=H,key=K,api=A,relay=R,.exe` for one. It looks
for `host=` in the name in lower case and cuts the name itself at the byte that it has found.
-/

namespace RemoteControl.CustomServers

open Lowercase (CaseTables Plain find position utf8Len dropBytes dropLastBytes)
open Splitting (replace split)

abbrev Text := List Char

abbrev Bytes := List UInt8

structure CustomServer where
  key : Text := []
  host : Text := []
  api : Text := []
  relay : Text := []
  deriving DecidableEq

/-- The public key of `get_custom_server_from_config_string`. -/
def pk : Bytes :=
  [88, 168, 68, 104, 60, 5, 163, 198, 165, 38, 12, 85, 114, 203, 96, 163, 70, 48, 0, 131, 57,
    12, 46, 129, 83, 17, 84, 193, 119, 197, 130, 103]

/-- What the other libraries make of their inputs; `none` is an error. -/
structure Library where
  decode : Text → Option Bytes
  fromSlice : Bytes → Option CustomServer
  verify : Bytes → Bytes → Option Bytes

def getCustomServerFromConfigString (lib : Library) (s : Text) : Option CustomServer :=
  (lib.decode s.reverse).bind fun data =>
    match lib.fromSlice data with
    | some lic => some lic
    | none => (lib.verify data pk).bind lib.fromSlice

/-- `char::is_whitespace` -/
def isWhitespace (c : Char) : Bool :=
  let n := c.toNat
  9 ≤ n && n ≤ 13 || n = 0x20 || n = 0x85 || n = 0xA0 || n = 0x1680 || 0x2000 ≤ n && n ≤ 0x200A ||
    n = 0x2028 || n = 0x2029 || n = 0x202F || n = 0x205F || n = 0x3000

def trim (s : Text) : Text := ((s.dropWhile isWhitespace).reverse.dropWhile isWhitespace).reverse

def fromEncoded (lib : Library) (s : Text) : Option CustomServer :=
  let s := replace "-licensed---".toList "--".toList s
  let s := replace "-licensed--".toList "--".toList s
  let s := replace "-licensed-".toList "--".toList s
  (split "--".toList s).firstM fun s =>
    match getCustomServerFromConfigString lib (trim s) with
    | some lic => some lic
    | none =>
        if '(' ∈ s then (s.splitOn '(').firstM fun s =>
          getCustomServerFromConfigString lib (trim s) else none

def hostWord : Text := ['h', 'o', 's', 't', '=']

def keyWord : Text := ['k', 'e', 'y', '=']

def apiWord : Text := ['a', 'p', 'i', '=']

def relayWord : Text := ['r', 'e', 'l', 'a', 'y', '=']

def exe : Text := ['.', 'e', 'x', 'e']

section Function

variable (tables : CaseTables)

/-- The body of the loop over the parts between commas. -/
def readElement (c : CustomServer) (el : Text) : CustomServer :=
  let elLower := tables.toLowercase el
  let c := if hostWord.isPrefixOf elLower then { c with host := el.drop 5 } else c
  let c := if keyWord.isPrefixOf elLower then { c with key := el.drop 4 } else c
  let c := if apiWord.isPrefixOf elLower then { c with api := el.drop 4 } else c
  if relayWord.isPrefixOf elLower then { c with relay := el.drop 6 } else c

def readElements (strs : List Text) : CustomServer := strs.foldl (readElement tables) {}

/-- The name without its ending. -/
def withoutExe (s : Text) : Option Text :=
  if (exe ++ exe).isSuffixOf (tables.toLowercase s) then dropLastBytes 8 s
  else if exe.isSuffixOf (tables.toLowercase s) then dropLastBytes 4 s
  else some s

/-- What is done with the name without its ending. -/
def readStem (lib : Library) (s : Text) : Option (Option CustomServer) :=
  match find hostWord (tables.toLowercase s) with
  | some i => (dropBytes i s).map fun stripped => some (readElements tables (stripped.splitOn ','))
  | none => some (fromEncoded lib s)

/-- The outer `none` is a panic, the inner one an error. -/
def getCustomServerFromString (lib : Library) (s : Text) : Option (Option CustomServer) :=
  (withoutExe tables s).bind (readStem tables lib)

end Function

/-! ## Endings -/

theorem small_of_toLower {c : Char} (small : c.toLower.toNat < 128) : c.toNat < 128 := by
  by_contra large
  rw [Lowercase.toLower_of_large (Nat.not_lt.mp large)] at small
  exact large small

theorem utf8Size_of_small {c : Char} (small : c.toNat < 128) : c.utf8Size = 1 := by
  unfold Char.utf8Size
  exact if_pos (by show c.val.toNat ≤ 127; exact Nat.le_of_lt_succ small)

/-- A text of ASCII letters in some letter case. -/
structure Spells (spelled word : Text) : Prop where
  same : spelled.map Char.toLower = word
  small : ∀ c ∈ word, c.toNat < 128

namespace Spells

variable {spelled word : Text}

variable (spells : Spells spelled word)

include spells

theorem small_spelled : ∀ c ∈ spelled, c.toNat < 128 := fun _ inside =>
  small_of_toLower (spells.small _ (spells.same ▸ List.mem_map_of_mem inside))

theorem length_eq : spelled.length = word.length := by
  rw [← spells.same, List.length_map]

theorem utf8Len_eq : utf8Len spelled = word.length := by
  rw [← spells.length_eq]
  have small := spells.small_spelled
  clear spells
  induction spelled with
  | nil => rfl
  | cons c rest ih =>
      rw [Lowercase.utf8Len_cons, utf8Size_of_small (small c (List.mem_cons_self ..)),
        ih fun x inside => small x (List.mem_cons_of_mem _ inside), List.length_cons, Nat.add_comm]

/-- A capital of a letter is no sign. -/
theorem not_mem {sign : Char} (same : sign.toLower = sign) (absent : sign ∉ word) :
    sign ∉ spelled := fun inside => absent (by
  rw [← spells.same, ← same]
  exact List.mem_map_of_mem inside)

end Spells

theorem exists_of_suffix {word s : Text} (small : ∀ c ∈ word, c.toNat < 128)
    (ends : word <:+ s.map Char.toLower) :
    ∃ stem spelled, s = stem ++ spelled ∧ Spells spelled word := by
  obtain ⟨front, whole⟩ := ends
  obtain ⟨stem, spelled, rfl, -, same⟩ := List.map_eq_append_iff.mp whole.symm
  exact ⟨stem, spelled, rfl, same, small⟩

theorem suffix_of_spells {word stem spelled : Text} (spells : Spells spelled word) :
    word <:+ (stem ++ spelled).map Char.toLower := by
  rw [List.map_append, spells.same]
  exact List.suffix_append _ _

theorem plain_exe : ∀ c ∈ exe, Lowercase.Plain c := List.all_iff_forall_prop.mp (by decide)

theorem small_exe : ∀ c ∈ exe, c.toNat < 128 := fun c inside => (plain_exe c inside).1

theorem plain_exe_exe : ∀ c ∈ exe ++ exe, Lowercase.Plain c :=
  List.forall_mem_append.mpr ⟨plain_exe, plain_exe⟩

theorem small_exe_exe : ∀ c ∈ exe ++ exe, c.toNat < 128 := fun c inside => (plain_exe_exe c inside).1

theorem plain_hostWord : ∀ c ∈ hostWord, Lowercase.Plain c := List.all_iff_forall_prop.mp (by decide)

section Endings

variable (tables : CaseTables)

theorem withoutExe_eq (s : Text) : withoutExe tables s =
    if exe ++ exe <:+ s.map Char.toLower then dropLastBytes 8 s
    else if exe <:+ s.map Char.toLower then dropLastBytes 4 s else some s := by
  unfold withoutExe
  simp only [List.isSuffixOf_iff_suffix, tables.suffix_toLowercase_iff plain_exe_exe,
    tables.suffix_toLowercase_iff plain_exe]

theorem withoutExe_plain {s : Text} (plain : ¬exe <:+ s.map Char.toLower) :
    withoutExe tables s = some s := by
  rw [withoutExe_eq, if_neg fun ends => plain ((List.suffix_append exe exe).trans ends), if_neg plain]

theorem withoutExe_twice {s spelled : Text} (spells : Spells spelled (exe ++ exe)) :
    withoutExe tables (s ++ spelled) = some s := by
  rw [withoutExe_eq, if_pos (suffix_of_spells spells),
    ← show utf8Len spelled = 8 from spells.utf8Len_eq]
  exact Lowercase.dropLastBytes_append s spelled

theorem withoutExe_once {s spelled : Text} (spells : Spells spelled exe)
    (plain : ¬exe <:+ s.map Char.toLower) :
    withoutExe tables (s ++ spelled) = some s := by
  have once : ¬exe ++ exe <:+ (s ++ spelled).map Char.toLower := by
    rw [List.map_append, spells.same]
    rintro ⟨front, whole⟩
    rw [← List.append_assoc] at whole
    exact plain ⟨front, List.append_cancel_right whole⟩
  rw [withoutExe_eq, if_neg once, if_pos (suffix_of_spells spells),
    ← show utf8Len spelled = 4 from spells.utf8Len_eq]
  exact Lowercase.dropLastBytes_append s spelled

/-- What is left is a beginning, and all of it where there is no ending. -/
theorem exists_withoutExe (s : Text) :
    ∃ stem spelled, s = stem ++ spelled ∧ withoutExe tables s = some stem ∧
    (exe <:+ s.map Char.toLower → Spells spelled exe ∨ Spells spelled (exe ++ exe)) := by
  by_cases twice : exe ++ exe <:+ s.map Char.toLower
  · obtain ⟨stem, spelled, rfl, spells⟩ := exists_of_suffix small_exe_exe twice
    exact ⟨stem, spelled, rfl, withoutExe_twice tables spells, fun _ => .inr spells⟩
  · by_cases once : exe <:+ s.map Char.toLower
    · obtain ⟨stem, spelled, rfl, spells⟩ := exists_of_suffix small_exe once
      refine ⟨stem, spelled, rfl, withoutExe_once tables spells fun more => twice ?_,
        fun _ => .inl spells⟩
      obtain ⟨front, whole⟩ := more
      rw [List.map_append, spells.same, ← whole, List.append_assoc]
      exact List.suffix_append _ _
    · exact ⟨s, [], (List.append_nil s).symm, withoutExe_plain tables once,
        fun ends => absurd ends once⟩

end Endings

inductive Field where
  | key
  | api
  | relay
  deriving DecidableEq

namespace Field

def word : Field → Text
  | key => keyWord
  | api => apiWord
  | relay => relayWord

theorem small_word : ∀ f : Field, ∀ c ∈ f.word, c.toNat < 128
  | key => List.all_iff_forall_prop.mp (by decide)
  | api => List.all_iff_forall_prop.mp (by decide)
  | relay => List.all_iff_forall_prop.mp (by decide)

end Field

namespace CustomServer

def get (c : CustomServer) : Field → Text
  | .key => c.key
  | .api => c.api
  | .relay => c.relay

def set (f : Field) (value : Text) (c : CustomServer) : CustomServer :=
  match f with
  | .key => { c with key := value }
  | .api => { c with api := value }
  | .relay => { c with relay := value }

theorem get_set (c : CustomServer) (f g : Field) (value : Text) :
    (c.set f value).get g = if f = g then value else c.get g := by
  cases f <;> cases g <;> rfl

theorem ext_get {c c' : CustomServer} (host : c.host = c'.host) (fields : ∀ f, c.get f = c'.get f) :
    c = c' := by
  obtain ⟨key, h, api, relay⟩ := c
  obtain ⟨key', h', api', relay'⟩ := c'
  cases host
  cases fields .key
  cases fields .api
  cases fields .relay
  rfl

end CustomServer

/-- `key=K`, `api=A` or `relay=R`, in some letter case. -/
structure Part where
  field : Field
  spelled : Text
  value : Text
  isWord : spelled.map Char.toLower = field.word
  noComma : ',' ∉ value

namespace Part

def text (p : Part) : Text := p.spelled ++ p.value

theorem spells (p : Part) : Spells p.spelled p.field.word := ⟨p.isWord, p.field.small_word⟩

theorem comma_not_mem (p : Part) : ',' ∉ p.text := fun inside =>
  (List.mem_append.mp inside).elim (p.spells.not_mem rfl (by cases p.field <;> decide)) p.noComma

end Part

/-- What is behind the prefix: `host=H`, the other parts in some order, and an ending after a
    comma, if there is one. -/
structure Name where
  spelled : Text
  host : Text
  isWord : spelled.map Char.toLower = hostWord
  noComma : ',' ∉ host
  parts : List Part
  once : (parts.map Part.field).Nodup
  ending : Option Text
  isEnding : ∀ e ∈ ending, e.map Char.toLower = exe ∨ e.map Char.toLower = exe ++ exe

namespace Name

variable (n : Name)

def elements : List Text := (n.spelled ++ n.host) :: n.parts.map Part.text

/-- The name without its ending. -/
def body : Text := [','].intercalate n.elements

def text : Text :=
  match n.ending with
  | some e => n.body ++ ',' :: e
  | none => n.body

def fields : List Field := n.parts.map Part.field

/-- The values of the name on top of others. -/
def onto (c : CustomServer) : CustomServer :=
  n.parts.foldl (fun c p => c.set p.field p.value) { c with host := n.host }

/-- The server with the values of the name. -/
def server : CustomServer := n.onto {}

/-- Without an ending after a comma the last value does not look like one. -/
def EndsPlain : Prop := n.ending = none → ¬exe <:+ n.body.map Char.toLower

theorem spells : Spells n.spelled hostWord := ⟨n.isWord, fun c inside => (plain_hostWord c inside).1⟩

theorem comma_not_mem : ∀ el ∈ n.elements, ',' ∉ el := by
  intro el inside
  cases List.mem_cons.mp inside with
  | inl here =>
      rw [here]
      exact fun comma => (List.mem_append.mp comma).elim (n.spells.not_mem rfl (by decide)) n.noComma
  | inr part =>
      obtain ⟨p, -, rfl⟩ := List.mem_map.mp part
      exact p.comma_not_mem

theorem splitOn_body : n.body.splitOn ',' = n.elements :=
  List.splitOn_intercalate ',' n.comma_not_mem (List.cons_ne_nil _ _)

theorem exists_body : ∃ rest, n.body = n.spelled ++ (n.host ++ rest) := by
  unfold body elements
  cases n.parts with
  | nil => exact ⟨[], by simp⟩
  | cons p rest =>
    exact ⟨',' :: [','].intercalate ((p :: rest).map Part.text),
    by simp [List.intercalate_cons_cons]⟩

theorem word_prefix_body : hostWord <+: n.body.map Char.toLower := by
  obtain ⟨rest, whole⟩ := n.exists_body
  rw [whole, List.map_append, n.isWord]
  exact List.prefix_append _ _

end Name

section Reading

variable (tables : CaseTables) {spelled : Text}

/-- A word in some letter case begins its part. -/
theorem isPrefixOf_spelled {word : Text} (spells : Spells spelled word) (value : Text) :
    word.isPrefixOf (tables.toLowercase (spelled ++ value)) = true := by
  obtain ⟨tail, whole⟩ := tables.toLowercase_append spells.small_spelled value
  rw [whole, spells.same]
  exact List.isPrefixOf_iff_prefix.mpr (List.prefix_append _ _)

/-- No word with another first letter begins that part. -/
theorem not_isPrefixOf_spelled {word other : Text} (spells : Spells spelled word)
    (some_ : word ≠ [] ∧ other ≠ []) (differs : other.head? ≠ word.head?) (value : Text) :
    other.isPrefixOf (tables.toLowercase (spelled ++ value)) = false := by
  obtain ⟨tail, whole⟩ := tables.toLowercase_append spells.small_spelled value
  rw [whole, spells.same]
  obtain ⟨c, rest, rfl⟩ := List.exists_cons_of_ne_nil some_.1
  obtain ⟨d, other', rfl⟩ := List.exists_cons_of_ne_nil some_.2
  have apart : d ≠ c := fun same => differs (congrArg some same)
  rw [List.cons_append, List.isPrefixOf_cons_cons, beq_eq_false_iff_ne.mpr apart, Bool.false_and]

theorem drop_spelled {word : Text} (spells : Spells spelled word) (value : Text) :
    (spelled ++ value).drop word.length = value := by
  rw [← spells.length_eq]
  exact List.drop_left

theorem readElement_host (c : CustomServer) (spells : Spells spelled hostWord) (value : Text) :
    readElement tables c (spelled ++ value) = { c with host := value } := by
  have own := isPrefixOf_spelled tables spells value
  have key := @not_isPrefixOf_spelled tables _ _ keyWord spells (by decide) (by decide) value
  have api := @not_isPrefixOf_spelled tables _ _ apiWord spells (by decide) (by decide) value
  have relay := @not_isPrefixOf_spelled tables _ _ relayWord spells (by decide) (by decide) value
  have dropped : (spelled ++ value).drop 5 = value := drop_spelled spells value
  unfold readElement
  dsimp only
  rw [own, key, api, relay, dropped]
  rfl

theorem readElement_part (c : CustomServer) (p : Part) :
    readElement tables c p.text = c.set p.field p.value := by
  obtain ⟨field, spelled, value, isWord, noComma⟩ := p
  have spells : Spells spelled field.word := ⟨isWord, field.small_word⟩
  have dropped := drop_spelled spells value
  unfold readElement Part.text
  dsimp only
  cases field with
  | key =>
      have own : keyWord.isPrefixOf (tables.toLowercase (spelled ++ value)) = true :=
        isPrefixOf_spelled tables spells value
      have host := @not_isPrefixOf_spelled tables _ _ hostWord spells (by decide) (by decide) value
      have api := @not_isPrefixOf_spelled tables _ _ apiWord spells (by decide) (by decide) value
      have relay := @not_isPrefixOf_spelled tables _ _ relayWord spells (by decide) (by decide) value
      rw [own, host, api, relay, show (spelled ++ value).drop 4 = value from dropped]
      rfl
  | api =>
      have own : apiWord.isPrefixOf (tables.toLowercase (spelled ++ value)) = true :=
        isPrefixOf_spelled tables spells value
      have host := @not_isPrefixOf_spelled tables _ _ hostWord spells (by decide) (by decide) value
      have key := @not_isPrefixOf_spelled tables _ _ keyWord spells (by decide) (by decide) value
      have relay := @not_isPrefixOf_spelled tables _ _ relayWord spells (by decide) (by decide) value
      rw [own, host, key, relay, show (spelled ++ value).drop 4 = value from dropped]
      rfl
  | relay =>
      have own : relayWord.isPrefixOf (tables.toLowercase (spelled ++ value)) = true :=
        isPrefixOf_spelled tables spells value
      have host := @not_isPrefixOf_spelled tables _ _ hostWord spells (by decide) (by decide) value
      have key := @not_isPrefixOf_spelled tables _ _ keyWord spells (by decide) (by decide) value
      have api := @not_isPrefixOf_spelled tables _ _ apiWord spells (by decide) (by decide) value
      rw [own, host, key, api, show (spelled ++ value).drop 6 = value from dropped]
      rfl

/-- The parts of the name on top of what was read before. -/
theorem foldl_elements (n : Name) (c : CustomServer) :
    n.elements.foldl (readElement tables) c = n.onto c := by
  unfold Name.elements Name.onto
  rw [List.foldl_cons, readElement_host tables c n.spells, List.foldl_map]
  congr 1
  funext c p
  exact readElement_part tables c p

/-- A part that does not begin with the word leaves the host. -/
theorem host_readElement {c : CustomServer} {el : Text} (other : ¬hostWord <+: el.map Char.toLower) :
    (readElement tables c el).host = c.host := by
  have none : hostWord.isPrefixOf (tables.toLowercase el) = false :=
    Bool.eq_false_iff.mpr fun begins => other
      ((tables.prefix_toLowercase_iff plain_hostWord).mp (List.isPrefixOf_iff_prefix.mp begins))
  unfold readElement
  dsimp only
  simp only [none, Bool.false_eq_true, if_false]
  split_ifs <;> rfl

theorem host_readElements {strs : List Text} (others : ∀ el ∈ strs, ¬hostWord <+: el.map Char.toLower)
    (c : CustomServer) : (strs.foldl (readElement tables) c).host = c.host := by
  induction strs generalizing c with
  | nil => rfl
  | cons el rest ih =>
      rw [List.foldl_cons, ih fun x inside => others x (List.mem_cons_of_mem _ inside),
        host_readElement tables (others el (List.mem_cons_self ..))]

end Reading

namespace Name

variable (n : Name) {f : Field} {p : Part} {parts : List Part}

theorem host_onto (c : CustomServer) : (n.onto c).host = n.host := by
  unfold onto
  induction n.parts generalizing c with
  | nil => rfl
  | cons p rest ih =>
      rw [List.foldl_cons]
      have swapped : ({ c with host := n.host } : CustomServer).set p.field p.value =
          { c.set p.field p.value with host := n.host } := by
        cases p.field <;> rfl
      rw [swapped]
      exact ih (c.set p.field p.value)

theorem get_foldl_of_not_mem (absent : f ∉ parts.map Part.field) (c : CustomServer) :
    (parts.foldl (fun c p => c.set p.field p.value) c).get f = c.get f := by
  induction parts generalizing c with
  | nil => rfl
  | cons p rest ih =>
      rw [List.map_cons] at absent
      obtain ⟨different, later⟩ := List.ne_and_not_mem_of_not_mem_cons absent
      rw [List.foldl_cons, ih later, CustomServer.get_set, if_neg different.symm]

theorem get_foldl_of_mem (once : (parts.map Part.field).Nodup) (inside : p ∈ parts)
    (c : CustomServer) :
    (parts.foldl (fun c p => c.set p.field p.value) c).get p.field = p.value := by
  induction parts generalizing c with
  | nil => exact absurd inside List.not_mem_nil
  | cons q rest ih =>
      rw [List.map_cons, List.nodup_cons] at once
      rw [List.foldl_cons]
      cases List.mem_cons.mp inside with
      | inl here =>
          subst here
          rw [get_foldl_of_not_mem once.1, CustomServer.get_set, if_pos rfl]
      | inr later => exact ih once.2 later _

theorem get_onto_of_not_mem (absent : f ∉ n.fields) (c : CustomServer) :
    (n.onto c).get f = c.get f := by
  unfold onto
  rw [get_foldl_of_not_mem absent]
  cases f <;> rfl

theorem get_onto_of_mem (inside : p ∈ n.parts) (c : CustomServer) :
    (n.onto c).get p.field = p.value :=
  get_foldl_of_mem n.once inside _

/-- What is read is the server of the name unless something was read before that the name does not
    say anything about. -/
theorem onto_eq_server_iff (c : CustomServer) :
    n.onto c = n.server ↔ ∀ f, f ∉ n.fields → c.get f = [] := by
  constructor
  · intro same f absent
    have get : (n.onto c).get f = (n.onto {}).get f := congrArg (·.get f) same
    rw [n.get_onto_of_not_mem absent, n.get_onto_of_not_mem absent] at get
    rw [get]
    cases f <;> rfl
  · intro nothing
    refine CustomServer.ext_get ((n.host_onto c).trans (n.host_onto {}).symm) fun f => ?_
    by_cases named : f ∈ n.fields
    · obtain ⟨p, inside, rfl⟩ := List.mem_map.mp named
      exact (n.get_onto_of_mem inside c).trans (n.get_onto_of_mem inside {}).symm
    · refine (n.get_onto_of_not_mem named c).trans (.trans ?_ (n.get_onto_of_not_mem named {}).symm)
      rw [nothing f named]
      cases f <;> rfl

end Name

section Cut

variable (tables : CaseTables) (lib : Library) {pre rest after el s : Text}

/-- What a cut at the byte that was found in lower case leaves of the prefix: nothing, or a text up to
    a comma. -/
def Remains (tables : CaseTables) (pre rest : Text) : Prop :=
  dropBytes (tables.lowerLen pre) pre = some rest ∧ (rest = [] ∨ ∃ front, rest = front ++ [','])

/-- What is read out of that. -/
def leftover (tables : CaseTables) (rest : Text) : CustomServer :=
  readElements tables (rest.splitOn ',')

theorem readStem_word {back : Text} (absent : ¬hostWord <:+: pre.map Char.toLower)
    (begins : hostWord <+: back.map Char.toLower) :
    readStem tables lib (pre ++ back) =
      (dropBytes (tables.lowerLen pre) (pre ++ back)).map fun x =>
        some (readElements tables (x.splitOn ',')) := by
  have found : find hostWord (tables.toLowercase (pre ++ back)) = some (tables.lowerLen pre) := by
    unfold hostWord at absent begins ⊢
    rw [tables.find_toLowercase plain_hostWord, List.map_append,
      Lowercase.position_append (by decide) absent begins, Option.map_some, List.length_map,
      List.take_left]
  unfold readStem
  rw [found]

theorem dropBytes_append_right {i : Nat} {t : Text} (cut : dropBytes i s = some t) (back : Text) :
    dropBytes i (s ++ back) = some (t ++ back) := by
  obtain ⟨front, rfl, bytes⟩ := Lowercase.dropBytes_eq_some_iff.mp cut
  exact Lowercase.dropBytes_eq_some_iff.mpr ⟨front, List.append_assoc _ _ _, bytes⟩

/-- Behind what the cut leaves of the prefix the name is read as it should be. -/
theorem readElements_remains (clear : rest = [] ∨ ∃ front, rest = front ++ [',']) (n : Name)
    (end_ : after = [] ∨ after = [',']) :
    readElements tables ((rest ++ (n.body ++ after)).splitOn ',') = n.onto (leftover tables rest) := by
  have tail :
      ∃ tail, (n.body ++ after).splitOn ',' = n.elements ++ tail ∧ (tail = [] ∨ tail = [[]]) := by
    obtain rfl | rfl := end_
    · exact ⟨[], by rw [List.append_nil, n.splitOn_body, List.append_nil], .inl rfl⟩
    · exact ⟨[[]], by rw [List.splitOn_append_cons_self, n.splitOn_body]; rfl, .inr rfl⟩
  obtain ⟨tail, split, nothing⟩ := tail
  have tail_read (c : CustomServer) : tail.foldl (readElement tables) c = c := by
    obtain rfl | rfl := nothing <;> rfl
  unfold leftover readElements
  obtain rfl | ⟨front, rfl⟩ := clear
  · rw [List.nil_append, split, List.foldl_append, foldl_elements, tail_read]
    rfl
  · rw [List.append_assoc, List.singleton_append, List.splitOn_append_cons_self, split,
      List.foldl_append, List.foldl_append, foldl_elements, tail_read,
      List.splitOn_append_cons_self, List.foldl_append]
    rfl

theorem readStem_remains (absent : ¬hostWord <:+: pre.map Char.toLower)
    (remains : Remains tables pre rest) (n : Name) (end_ : after = [] ∨ after = [',']) :
    readStem tables lib (pre ++ (n.body ++ after)) = some (some (n.onto (leftover tables rest))) := by
  have begins : hostWord <+: (n.body ++ after).map Char.toLower := by
    rw [List.map_append]
    exact n.word_prefix_body.trans (List.prefix_append _ _)
  rw [readStem_word tables lib absent begins, dropBytes_append_right remains.1, Option.map_some,
    readElements_remains tables remains.2 n end_]

/-- An ending without an equality sign is the end of the value. -/
theorem suffix_value {w v ending word : Text} (equals : (w.map Char.toLower).getLast? = some '=')
    (spells : Spells ending word) (noEquals : '=' ∉ word) (ends : ending <:+ w ++ v) :
    ending <:+ v := by
  obtain within | ⟨x, whole⟩ := List.suffix_or_suffix_of_suffix ends (List.suffix_append w v)
  · exact within
  · obtain none | ⟨front, last, rfl⟩ := List.eq_nil_or_concat x
    · rw [none] at whole
      exact whole ▸ List.suffix_refl _
    · rw [List.concat_eq_append] at whole
      rw [← whole] at ends
      obtain ⟨front', whole'⟩ := ends
      rw [← List.append_assoc] at whole'
      have same := List.append_cancel_right whole'
      rw [← same, ← List.append_assoc, List.map_append, List.map_singleton,
        List.getLast?_concat] at equals
      refine absurd ?_ noEquals
      rw [← spells.same, ← whole, ← Option.some.inj equals]
      exact List.mem_map_of_mem
        (List.mem_append_left _ (List.mem_append_right _ (List.mem_singleton_self _)))

namespace Name

variable (n : Name)

theorem intercalate_concat {strs : List Text} (some_part : strs ≠ []) (el : Text) :
    [','].intercalate (strs ++ [el]) = [','].intercalate strs ++ ',' :: el := by
  induction strs with
  | nil => exact absurd rfl some_part
  | cons first rest ih =>
      cases rest with
      | nil => simp [List.intercalate_cons_cons]
      | cons second rest =>
          rw [List.cons_append, List.cons_append, List.intercalate_cons_cons,
            List.intercalate_cons_cons, ← List.cons_append, ih (List.cons_ne_nil _ _)]
          simp only [List.append_assoc]

/-- The last value of a name, and the name with another one. -/
theorem exists_last : ∃ w v, n.body = w ++ v ∧ (w.map Char.toLower).getLast? = some '=' ∧
    ',' ∉ v ∧ ∀ v', ',' ∉ v' → ∃ n' : Name,
      n'.body = w ++ v' ∧ (v' ≠ v → ∀ c c', n'.onto c ≠ n.onto c') := by
  obtain ⟨spelled, host, isWord, noComma, parts, once, ending, isEnding⟩ := n
  obtain rfl | ⟨front, p, rfl⟩ := List.eq_nil_or_concat' parts
  · refine ⟨spelled, host, List.intercalate_singleton, by rw [isWord]; rfl, noComma, fun v' clean => ?_⟩
    refine ⟨⟨spelled, v', isWord, clean, [], once, ending, isEnding⟩, List.intercalate_singleton,
      fun different c c' same => ?_⟩
    exact different (congrArg CustomServer.host same)
  · have bodies (q : Part) : [','].intercalate ((spelled ++ host) :: (front ++ [q]).map Part.text) =
        [','].intercalate
          ((spelled ++ host) :: front.map Part.text) ++ ',' :: q.spelled ++ q.value := by
      rw [List.map_append, ← List.cons_append, List.map_singleton,
        intercalate_concat (List.cons_ne_nil _ _)]
      simp only [Part.text, List.append_assoc, List.cons_append]
    refine ⟨[','].intercalate ((spelled ++ host) :: front.map Part.text) ++ ',' :: p.spelled,
      p.value, ?_, ?_,
      p.noComma, fun v' clean => ?_⟩
    · exact bodies p
    · rw [List.map_append, List.map_cons, p.isWord]
      cases p.field <;> simp [Field.word, keyWord, apiWord, relayWord]
    · let q : Part := { p with value := v', noComma := clean }
      have once' : ((front ++ [q]).map Part.field).Nodup := by
        rw [List.map_append] at once ⊢
        exact once
      refine ⟨⟨spelled, host, isWord, noComma, front ++ [q], once', ending, isEnding⟩, bodies q,
        fun different c c' same => ?_⟩
      have get := congrArg (fun server : CustomServer => server.get p.field) same
      have mine :=
        @get_onto_of_mem ⟨spelled, host, isWord, noComma, front ++ [q], once', ending, isEnding⟩ q
        (List.mem_append_right _ (List.mem_singleton_self q)) c
      have yours :=
        @get_onto_of_mem ⟨spelled, host, isWord, noComma, front ++ [p], once, ending, isEnding⟩ p
        (List.mem_append_right _ (List.mem_singleton_self p)) c'
      exact different (mine.symm.trans (get.trans yours))

end Name

theorem not_exe_suffix_comma (s : Text) : ¬exe <:+ (s ++ [',']).map Char.toLower := by
  rintro ⟨front, whole⟩
  rw [List.map_append] at whole
  have last := congrArg List.getLast? whole
  rw [List.map_singleton, List.getLast?_concat,
    show front ++ exe = (front ++ ['.', 'e', 'x']) ++ ['e'] by simp [exe],
    List.getLast?_concat] at last
  exact absurd last (by decide)

/-- The name loses its ending and nothing else. -/
theorem withoutExe_text (pre : Text) (n : Name) (plain : n.EndsPlain) :
    ∃ after, (after = [] ∨ after = [',']) ∧
    withoutExe tables (pre ++ n.text) = some (pre ++ (n.body ++ after)) := by
  cases kind : n.ending with
  | none =>
      refine ⟨[], .inl rfl, ?_⟩
      have whole : n.text = n.body := by unfold Name.text; rw [kind]
      rw [whole, List.append_nil]
      refine withoutExe_plain tables fun ends => plain kind ?_
      rw [List.map_append] at ends
      refine List.suffix_of_suffix_length_le ends (List.suffix_append _ _) ?_
      exact (show exe.length ≤ hostWord.length by decide).trans n.word_prefix_body.length_le
  | some e =>
      refine ⟨[','], .inr rfl, ?_⟩
      have whole : pre ++ n.text = (pre ++ (n.body ++ [','])) ++ e := by
        unfold Name.text
        rw [kind]
        simp only [List.append_assoc, List.singleton_append]
      rw [whole]
      obtain once | twice := n.isEnding e kind
      · refine withoutExe_once tables ⟨once, small_exe⟩ ?_
        rw [← List.append_assoc]
        exact not_exe_suffix_comma _
      · exact withoutExe_twice tables ⟨twice, small_exe_exe⟩

theorem get_of_endsPlain (absent : ¬hostWord <:+: pre.map Char.toLower)
    (remains : Remains tables pre rest) (n : Name) (plain : n.EndsPlain) :
    getCustomServerFromString tables lib (pre ++ n.text) =
      some (some (n.onto (leftover tables rest))) := by
  obtain ⟨after, end_, stem⟩ := withoutExe_text tables pre n plain
  unfold getCustomServerFromString
  rw [stem, Option.bind_some]
  exact readStem_remains tables lib absent remains n end_

/-- A value that looks like an ending loses what looks like it. -/
theorem get_of_not_endsPlain (absent : ¬hostWord <:+: pre.map Char.toLower)
    (remains : Remains tables pre rest) (n : Name) (looks : ¬n.EndsPlain) :
    getCustomServerFromString tables lib (pre ++ n.text) ≠ some (some n.server) := by
  obtain ⟨kind, ends⟩ := Classical.not_imp.mp looks
  have ends' := not_not.mp ends
  have whole : n.text = n.body := by unfold Name.text; rw [kind]
  obtain ⟨stem, spelled, same, cut, spells⟩ := exists_withoutExe tables (pre ++ n.body)
  have spells := spells (by
    rw [List.map_append]
    exact ends'.trans (List.suffix_append _ _))
  obtain ⟨w, v, body, equals, clean, other⟩ := n.exists_last
  have equals' : ((pre ++ w).map Char.toLower).getLast? = some '=' := by
    rw [List.map_append, List.getLast?_append, equals]
    rfl
  have ending : spelled <:+ (pre ++ w) ++ v := by
    rw [List.append_assoc, ← body, same]
    exact List.suffix_append _ _
  have some_ending : spelled ≠ [] := by
    rintro rfl
    exact spells.elim (fun once => absurd once.same (by decide)) fun twice =>
      absurd twice.same (by decide)
  obtain ⟨v', rfl⟩ : spelled <:+ v :=
    spells.elim (fun once => suffix_value equals' once (by decide) ending)
    fun twice => suffix_value equals' twice (by decide) ending
  obtain ⟨n', body', differs⟩ := other v' fun comma => clean (List.mem_append_left _ comma)
  have stem_eq : stem = pre ++ (n'.body ++ []) := by
    rw [body, ← List.append_assoc, ← List.append_assoc] at same
    rw [body', List.append_nil, ← List.append_assoc]
    exact (List.append_cancel_right same).symm
  unfold getCustomServerFromString
  rw [whole, cut, Option.bind_some, stem_eq, readStem_remains tables lib absent remains n' (.inl rfl)]
  intro right
  refine differs (fun none => some_ending ?_) _ {} (Option.some.inj (Option.some.inj right))
  exact List.self_eq_append_right.mp none

theorem infix_of_mem_splitOn (inside : el ∈ s.splitOn ',') : el <:+: s := by
  have each :
      ∃ first others, s.splitOn ',' = first :: others ∧ first <+: s ∧ ∀ x ∈ others, x <:+: s := by
    clear inside
    induction s with
    | nil => exact ⟨[], [], rfl, List.prefix_refl _, fun _ none => absurd none List.not_mem_nil⟩
    | cons c rest ih =>
        obtain ⟨first, others, split, begins, within⟩ := ih
        have later {x : Text} (there : x <:+: rest) : x <:+: c :: rest :=
          there.trans (List.suffix_cons c rest).isInfix
        rw [List.splitOn_cons_eq_if_modifyHead, split]
        split
        · refine ⟨[], first :: others, rfl, List.nil_prefix, fun x member => ?_⟩
          cases List.mem_cons.mp member with
          | inl here => exact here ▸ later begins.isInfix
          | inr further => exact later (within x further)
        · exact ⟨c :: first, others, rfl, (List.prefix_cons_inj c).mpr begins,
            fun x member => later (within x member)⟩
  obtain ⟨first, others, split, begins, within⟩ := each
  rw [split] at inside
  cases List.mem_cons.mp inside with
  | inl here => exact here ▸ begins.isInfix
  | inr later => exact within el later

theorem not_prefix_of_mem_splitOn (absent : ¬hostWord <:+: s.map Char.toLower)
    (inside : el ∈ s.splitOn ',') : ¬hostWord <+: el.map Char.toLower := fun begins =>
  absent (begins.isInfix.trans ((infix_of_mem_splitOn inside).map Char.toLower))

/-- `host=x,key=,api=,relay=` -/
def plainName : Name where
  spelled := hostWord
  host := ['x']
  isWord := by decide
  noComma := by decide
  parts :=
    [⟨.key, keyWord, [], by decide, List.not_mem_nil⟩, ⟨.api, apiWord, [], by decide, List.not_mem_nil⟩,
      ⟨.relay, relayWord, [], by decide, List.not_mem_nil⟩]
  once := by decide
  ending := none
  isEnding := nofun

/-- Behind the last comma of a text. -/
theorem exists_after_comma (comma : ',' ∈ s) :
    ∃ front back, s = front ++ ',' :: back ∧ ',' ∉ back := by
  obtain ⟨back, front, same, clean⟩ := List.eq_append_cons_of_mem (List.mem_reverse.mpr comma)
  refine ⟨front.reverse, back.reverse, ?_, fun inside => clean (List.mem_reverse.mp inside)⟩
  rw [← List.reverse_reverse s, same, List.reverse_append, List.reverse_cons, List.append_assoc]
  rfl

/-- The word does not begin a part in which something is before it. -/
theorem not_prefix_host {t : Text} (some_text : t ≠ []) (absent : ¬hostWord <:+: t.map Char.toLower) :
    ¬hostWord <+: (t ++ (hostWord ++ ['x'])).map Char.toLower := by
  intro begins
  have begins' : hostWord <+: (hostWord ++ ['x']).map Char.toLower := by decide
  rw [List.map_append] at begins
  unfold hostWord at absent begins begins'
  have place := Lowercase.position_append (by decide) absent begins'
  obtain ⟨y, rest, same⟩ := List.exists_cons_of_ne_nil some_text
  have first : Lowercase.position ['h', 'o', 's', 't', '='] (t.map Char.toLower ++
      (['h', 'o', 's', 't', '='] ++ ['x']).map Char.toLower) = some 0 := by
    rw [same, List.map_cons, List.cons_append] at begins ⊢
    exact Lowercase.position_cons_of_begins begins
  rw [first] at place
  exact some_text
    (List.length_eq_zero_iff.mp ((List.length_map _).symm.trans (Option.some.inj place).symm))

/-- A prefix that leaves anything else makes a name lose its host. -/
theorem get_plainName (absent : ¬hostWord <:+: pre.map Char.toLower)
    (none_ : ¬∃ rest, Remains tables pre rest) :
    getCustomServerFromString tables lib (pre ++ plainName.text) ≠ some (some plainName.server) := by
  have plain : withoutExe tables (pre ++ plainName.text) = some (pre ++ plainName.body) := by
    refine withoutExe_plain tables fun ends => ?_
    rw [List.map_append] at ends
    have short : exe <:+ plainName.text.map Char.toLower :=
      List.suffix_of_suffix_length_le ends (List.suffix_append _ _) (by decide)
    exact absurd short (by decide)
  unfold getCustomServerFromString
  rw [plain, Option.bind_some, readStem_word tables lib absent plainName.word_prefix_body]
  cases cut : dropBytes (tables.lowerLen pre) (pre ++ plainName.body) with
  | none => nofun
  | some x =>
      rw [Option.map_some]
      intro right
      have host : (readElements tables (x.splitOn ',')).host = ['x'] := by
        rw [Option.some.inj (Option.some.inj right)]
        rfl
      suffices others : ∀ el ∈ x.splitOn ',', ¬hostWord <+: el.map Char.toLower by
        have lost : (readElements tables (x.splitOn ',')).host = [] :=
          host_readElements tables others {}
        rw [lost] at host
        cases host
      obtain ⟨front, whole, bytes⟩ := Lowercase.dropBytes_eq_some_iff.mp cut
      obtain ⟨a, rfl, body⟩ | ⟨c, rfl, rfl⟩ := List.append_eq_append_iff.mp whole
      · -- the cut is behind the prefix
        cases a with
        | nil =>
            refine absurd ⟨[],
              Lowercase.dropBytes_eq_some_iff.mpr ⟨pre, (List.append_nil pre).symm, ?_⟩,
              .inl rfl⟩ none_
            rw [← bytes, List.append_nil]
        | cons y a =>
            intro el inside
            refine not_prefix_of_mem_splitOn (fun there => ?_) inside
            have tail : a ++ x = plainName.body.tail := by rw [body]; rfl
            have there' : hostWord <:+: plainName.body.tail.map Char.toLower := by
              rw [← tail, List.map_append]
              exact there.trans (List.suffix_append _ _).isInfix
            exact absurd there' (by decide)
      · -- the cut is in the prefix
        have left_ : dropBytes (tables.lowerLen (front ++ c)) (front ++ c) = some c :=
          Lowercase.dropBytes_eq_some_iff.mpr ⟨front, rfl, bytes⟩
        have within {t : Text} (there : t <:+: c) : ¬hostWord <:+: t.map Char.toLower := fun inside =>
          absent (inside.trans ((there.trans (List.suffix_append front c).isInfix).map Char.toLower))
        have rest_split (el : Text) (inside : el ∈ "key=,api=,relay=".toList.splitOn ',') :
            ¬hostWord <+: el.map Char.toLower := not_prefix_of_mem_splitOn (by decide) inside
        have body : plainName.body = (hostWord ++ ['x']) ++ ',' :: "key=,api=,relay=".toList := by
          decide
        intro el inside
        by_cases comma : ',' ∈ c
        · obtain ⟨c', t, rfl, clean⟩ := exists_after_comma comma
          have some_text : t ≠ [] := fun empty => none_ ⟨_, left_, .inr ⟨c', by rw [empty]⟩⟩
          rw [body, List.append_assoc, List.cons_append, ← List.append_assoc t,
            List.splitOn_append_cons_self,
            List.splitOn_append_cons_self, List.mem_append, List.mem_append,
            List.splitOn_eq_singleton (fun there => (List.mem_append.mp there).elim clean (by decide)),
            List.mem_singleton] at inside
          obtain before | rfl | later := inside
          · exact not_prefix_of_mem_splitOn (within (List.prefix_append _ _).isInfix) before
          · exact not_prefix_host some_text
              (within ((List.suffix_cons ',' t).trans (List.suffix_append _ _)).isInfix)
          · exact rest_split el later
        · have some_text : c ≠ [] := fun empty => none_ ⟨_, left_, .inl empty⟩
          rw [body, ← List.append_assoc c, List.splitOn_append_cons_self, List.mem_append,
            List.splitOn_eq_singleton (fun there => (List.mem_append.mp there).elim comma (by decide)),
            List.mem_singleton] at inside
          obtain rfl | later := inside
          · exact not_prefix_host some_text (within (List.infix_refl c))
          · exact rest_split el later

/-- The name without its ending, as it is meant. -/
def stem (s : Text) : Text :=
  if exe ++ exe <:+ s.map Char.toLower then s.take (s.length - 8)
  else if exe <:+ s.map Char.toLower then s.take (s.length - 4) else s

theorem take_stem {stem spelled word : Text} (spells : Spells spelled word) :
    (stem ++ spelled).take ((stem ++ spelled).length - word.length) = stem := by
  rw [List.length_append, spells.length_eq, Nat.add_sub_cancel, List.take_left]

theorem withoutExe_stem (s : Text) : withoutExe tables s = some (stem s) := by
  unfold stem
  by_cases twice : exe ++ exe <:+ s.map Char.toLower
  · obtain ⟨front, spelled, rfl, spells⟩ := exists_of_suffix small_exe_exe twice
    rw [if_pos twice, withoutExe_twice tables spells]
    exact congrArg some (take_stem spells).symm
  · by_cases once : exe <:+ s.map Char.toLower
    · obtain ⟨front, spelled, rfl, spells⟩ := exists_of_suffix small_exe once
      have plain : ¬exe <:+ front.map Char.toLower := by
        rintro ⟨front', whole⟩
        refine twice ⟨front', ?_⟩
        rw [List.map_append, spells.same, ← whole, List.append_assoc]
      rw [if_neg twice, if_pos once, withoutExe_once tables spells plain]
      exact congrArg some (take_stem spells).symm
    · rw [if_neg twice, if_neg once, withoutExe_plain tables once]

/-- Where there is a first `host=`, what is before it has in lower case as many bytes as some
    beginning of the name. -/
def OnBoundary (s : Text) : Prop :=
  ∀ n, position hostWord ((stem s).map Char.toLower) = some n →
    ∃ front back, stem s = front ++ back ∧ utf8Len front = tables.lowerLen ((stem s).take n)

theorem get_ne_none_iff (s : Text) :
    getCustomServerFromString tables lib s ≠ none ↔ OnBoundary tables s := by
  have found : find hostWord (tables.toLowercase (stem s)) =
      (position hostWord ((stem s).map Char.toLower)).map fun n =>
        tables.lowerLen ((stem s).take n) := by
    unfold hostWord
    exact tables.find_toLowercase plain_hostWord (stem s)
  unfold getCustomServerFromString OnBoundary
  rw [withoutExe_stem, Option.bind_some]
  unfold readStem
  rw [found]
  cases position hostWord ((stem s).map Char.toLower) with
  | none => exact iff_of_true nofun nofun
  | some n =>
      rw [Option.map_some]
      dsimp only
      constructor
      · intro returns n' same
        cases same
        cases cut : dropBytes (tables.lowerLen ((stem s).take n)) (stem s) with
        | none =>
            rw [cut] at returns
            exact absurd rfl returns
        | some x =>
            obtain ⟨front, whole, bytes⟩ := Lowercase.dropBytes_eq_some_iff.mp cut
            exact ⟨front, x, whole, bytes⟩
      · intro boundary
        obtain ⟨front, back, whole, bytes⟩ := boundary n rfl
        rw [Lowercase.dropBytes_eq_some_iff.mpr ⟨front, whole, bytes⟩]
        nofun

/-- It returns exactly where the cut is at a character. And behind a prefix without `host=` all values
    are read as they are written exactly when the cut leaves nothing of the prefix, or a text up to a
    comma that gives no value which the name does not give itself, and, without an ending, the last
    value does not look like one. A prefix that leaves anything else goes wrong with some name. -/
theorem custom_server_iff (tables : CaseTables) (lib : Library) :
    (∀ s, getCustomServerFromString tables lib s ≠ none ↔ OnBoundary tables s) ∧
      ∀ pre : Text, ¬hostWord <:+: pre.map Char.toLower →
        (∀ rest, Remains tables pre rest → ∀ n : Name,
          getCustomServerFromString tables lib (pre ++ n.text) = some (some n.server) ↔
            n.EndsPlain ∧ ∀ f, f ∉ n.fields → (leftover tables rest).get f = []) ∧
          ((¬∃ rest, Remains tables pre rest) → ∃ n : Name, n.EndsPlain ∧ (∀ f, f ∈ n.fields) ∧
            getCustomServerFromString tables lib (pre ++ n.text) ≠ some (some n.server)) := by
  refine ⟨get_ne_none_iff tables lib, fun pre absent => ⟨fun rest remains n => ?_, fun none_ => ?_⟩⟩
  · by_cases plain : n.EndsPlain
    · rw [get_of_endsPlain tables lib absent remains n plain, Option.some_inj, Option.some_inj,
        n.onto_eq_server_iff]
      exact ⟨fun nothing => ⟨plain, nothing⟩, fun both => both.2⟩
    · exact iff_of_false (get_of_not_endsPlain tables lib absent remains n plain) fun both =>
        plain both.1
  · exact ⟨plainName,
      fun _ => by decide, fun f => by cases f <;> decide, get_plainName tables lib absent none_⟩

end Cut

/-- Capital sharp S has three bytes and small sharp s two; other letters beyond ASCII do not matter
    here. -/
def sharpS : CaseTables where
  lower c :=
    if c.toNat < 128 then [c.toLower] else if c = Char.ofNat 0x1E9E then [Char.ofNat 0xDF] else [c]
  endsWord _ _ := false
  ascii c small := if_pos small
  ne_nil c := by split_ifs <;> nofun
  other c large x inside small := by
    rw [if_neg (Nat.not_lt.mpr large)] at inside
    split_ifs at inside
    · rw [List.mem_singleton.mp inside] at small
      exact absurd small (by decide)
    · rw [List.mem_singleton.mp inside] at small
      omega

def noLibrary : Library where
  decode _ := none
  fromSlice _ := none
  verify _ _ := none

/-- `host=a.org,RELAY=b,key=K=,api=https://c,.exe` -/
def fullName : Name where
  spelled := hostWord
  host := "a.org".toList
  isWord := by decide
  noComma := by decide
  parts :=
    [⟨.relay, "RELAY=".toList, ['b'], by decide, by decide⟩, ⟨.key, keyWord, ['K', '='], by decide, by decide⟩,
      ⟨.api, apiWord, "https://c".toList, by decide, by decide⟩]
  once := by decide
  ending := some exe
  isEnding _ same := .inl (by cases same; decide)

theorem custom_server_plain :
    getCustomServerFromString sharpS noLibrary (['r', '-'] ++ fullName.text) =
      some (some fullName.server) :=
  (((custom_server_iff sharpS noLibrary).2 ['r', '-'] (by decide)).1 []
    ⟨by decide, .inl rfl⟩ fullName).mpr
    ⟨nofun, fun f _ => by cases f <;> rfl⟩

/-- The cut is in the middle of a capital sharp S. -/
theorem sharp_s_panics :
    ¬∀ (tables : CaseTables) (lib : Library), (∀ s, getCustomServerFromString tables lib s ≠ none) ∧
      ∀ pre : Text, ¬hostWord <:+: pre.map Char.toLower → ∀ n : Name,
        getCustomServerFromString tables lib (pre ++ n.text) = some (some n.server) := by
  intro claimed
  have panics :
      getCustomServerFromString sharpS noLibrary (Char.ofNat 0x1E9E :: plainName.body) = none := by
      decide
  exact (claimed sharpS noLibrary).1 _ panics

end RemoteControl.CustomServers
