import RemoteControl.Base64
import RemoteControl.Utf8
import RemoteControl.Transfer.Path

/-! # The file of a peer

`PeerConfig::path` of `hbb_common/config.rs` makes a file name of a peer id and
`get_vec_id_modified_time_path` an id of a file name. Paths are their components below the
config directory.
-/

namespace RemoteControl.PeerConfig

open Transfer (Text components pathJoin dotDot isComponent isSep plainComponents)

/-- `rsplit_file_at_dot`: what is before and after the last dot of a name. -/
def rsplitFileAtDot (name : Text) : Option Text × Option Text :=
  if name = dotDot then (some name, none)
  else
    match name.reverse.dropWhile (· ≠ '.') with
    | [] => (none, some name)
    | _ :: before =>
        if before = [] then (some name, none)
        else (some before.reverse, some (name.reverse.takeWhile (· ≠ '.')).reverse)

/-- `Path::file_name` -/
def fileName (path : List Text) : Option Text := path.getLast?.filter (· ≠ dotDot)

/-- `Path::file_stem` -/
def fileStem (path : List Text) : Option Text :=
  (fileName path).bind fun name => (rsplitFileAtDot name).1.or (rsplitFileAtDot name).2

/-- `Path::extension` -/
def extension (path : List Text) : Option Text :=
  (fileName path).bind fun name => (rsplitFileAtDot name).1.bind fun _ => (rsplitFileAtDot name).2

/-- `Path::with_extension`; what has no file name stays as it is. -/
def pathWithExtension (path : List Text) (ext : Text) : List Text :=
  match fileStem path with
  | none => path
  | some stem => path.dropLast ++ [if ext = [] then stem else stem ++ '.' :: ext]

def toml : Text := ['t', 'o', 'm', 'l']

/-- `Config::with_extension` -/
def withExtension (path : List Text) : List Text :=
  match extension path with
  | some ext => pathWithExtension path (ext ++ '.' :: toml)
  | none => pathWithExtension path toml

/-- `PEERS` -/
def peers : Text := ['p', 'e', 'e', 'r', 's']

def base64Prefix : Text := ['b', 'a', 's', 'e', '6', '4', '_']

/-- `[<>:/\\|\?\*]` -/
def isForbidden (c : Char) : Bool := c ∈ ['<', '>', ':', '/', '\\', '|', '?', '*']

/-- `base64::encode` of a text. -/
def base64Encode (id : Text) : Text := Utf8.ofAscii (Base64.encode (Utf8.encode id))

def idEncoded (id : Text) : Text :=
  if id.any isForbidden then base64Prefix ++ base64Encode id else id

/-- `PeerConfig::path` -/
def path (windows : Bool) (id : Text) : List Text :=
  withExtension (components windows (pathJoin windows peers (idEncoded id)))

/-- The id that a file name stands for. -/
def idDecoded (stem : Text) : Text :=
  if base64Prefix.isPrefixOf stem && (Utf8.encode stem).length ≠ 7 then
    Utf8.fromUtf8Lossy ((Base64.decode (Utf8.encode (stem.drop 7))).getD [])
  else stem

/-- A file of the config directory and when it was modified. -/
abbrev PeerFile := List Text × Nat

/-- `PeerConfig::store`, as far as files go: a path without a file name is none of a file. -/
def store (windows : Bool) (files : List PeerFile) (id : Text) (now : Nat) : List PeerFile :=
  if (fileName (path windows id)).isSome then
    (path windows id, now) :: files.filter (·.1 ≠ path windows id)
  else files

/-- The latest file comes first. -/
def getVecIdModifiedTimePath (files : List PeerFile) (idFilters : Option (List Text)) :
    List (Text × Nat × List Text) :=
  let listed := files.filter fun f => f.1.dropLast = [peers] ∧ extension f.1 = some toml
  let named := listed.map fun f => (idDecoded ((fileStem f.1).getD []), f.2, f.1)
  let wanted := named.filter fun entry => idFilters.all fun filters => filters.contains entry.1
  wanted.mergeSort fun a b => b.2.1 ≤ a.2.1

/-! ## Names with the extension -/

theorem dots_of_reverse {after : Text} (noDot : '.' ∉ after) :
    ∀ c ∈ after.reverse, decide (c ≠ '.') = true := by
  intro c member
  refine decide_eq_true fun dot => noDot ?_
  rw [← dot]
  exact List.mem_reverse.mp member

variable {name : Text}

theorem rsplit_of_noDot (noDot : '.' ∉ name) : rsplitFileAtDot name = (none, some name) := by
  have notDots : name ≠ dotDot := by
    rintro rfl
    exact noDot (List.mem_cons_self ..)
  have none_ : name.reverse.dropWhile (· ≠ '.') = [] := by
    rw [← List.append_nil name.reverse, List.dropWhile_append_of_pos (dots_of_reverse noDot)]
    rfl
  rw [rsplitFileAtDot, if_neg notDots, none_]

theorem rsplit_of_dot {before after : Text} (noDot : '.' ∉ after)
    (name : before ++ '.' :: after ≠ dotDot) :
    rsplitFileAtDot (before ++ '.' :: after) =
      if before = [] then (some (before ++ '.' :: after), none) else (some before, some after) := by
  have reversed : (before ++ '.' :: after).reverse = after.reverse ++ '.' :: before.reverse := by simp
  have dropped : (before ++ '.' :: after).reverse.dropWhile (· ≠ '.') = '.' :: before.reverse := by
    rw [reversed, List.dropWhile_append_of_pos (dots_of_reverse noDot)]
    rfl
  have taken : (before ++ '.' :: after).reverse.takeWhile (· ≠ '.') = after.reverse := by
    rw [reversed, List.takeWhile_append_of_pos (dots_of_reverse noDot)]
    simp
  rw [rsplitFileAtDot, if_neg name, dropped, taken]
  simp

/-- The last dot of a name. -/
theorem dot_cases (name : Text) :
    '.' ∉ name ∨ ∃ before after, name = before ++ '.' :: after ∧ '.' ∉ after := by
  induction name with
  | nil => exact .inl List.not_mem_nil
  | cons c rest ih =>
      rcases ih with noDot | ⟨before, after, rfl, noDot⟩
      · by_cases dot : c = '.'
        · exact .inr ⟨[], rest, by rw [dot]; rfl, noDot⟩
        · refine .inl fun member => ?_
          rcases List.mem_cons.mp member with here | there
          · exact dot here.symm
          · exact noDot there
      · exact .inr ⟨c :: before, after, rfl, noDot⟩

/-- The file of a name. -/
def tomlName (name : Text) : Text := name ++ '.' :: toml

theorem fileName_append (front : List Text) (proper : name ≠ dotDot) :
    fileName (front ++ [name]) = some name := by
  rw [fileName, List.getLast?_concat, Option.filter_some, if_pos (decide_eq_true proper)]

theorem withExtension_append (front : List Text) (proper : name ≠ dotDot) :
    withExtension (front ++ [name]) = front ++ [tomlName name] := by
  have named := fileName_append front proper
  rcases dot_cases name with noDot | ⟨before, after, rfl, noDot⟩
  · have split := rsplit_of_noDot noDot
    simp [withExtension, extension, pathWithExtension, fileStem, named, split, tomlName, toml]
  · have split := rsplit_of_dot noDot proper
    by_cases bare : before = []
    · rw [if_pos bare] at split
      simp [withExtension, extension, pathWithExtension, fileStem, named, split, tomlName, toml]
    · rw [if_neg bare] at split
      simp [withExtension, extension, pathWithExtension, fileStem, named, split, tomlName, toml]

theorem tomlName_ne_dotDot (name : Text) : tomlName name ≠ dotDot := by
  intro same
  have lengths := congrArg List.length same
  simp [tomlName, toml, dotDot] at lengths

theorem rsplit_tomlName (some_ : name ≠ []) :
    rsplitFileAtDot (tomlName name) = (some name, some toml) := by
  have split : rsplitFileAtDot (name ++ '.' :: toml) = _ :=
    rsplit_of_dot (by decide) (tomlName_ne_dotDot name)
  rwa [if_neg some_] at split

theorem fileStem_tomlName (front : List Text) (some_ : name ≠ []) :
    fileStem (front ++ [tomlName name]) = some name := by
  rw [fileStem, fileName_append front (tomlName_ne_dotDot name), Option.bind_some,
    rsplit_tomlName some_]
  rfl

theorem extension_tomlName (front : List Text) (some_ : name ≠ []) :
    extension (front ++ [tomlName name]) = some toml := by
  rw [extension, fileName_append front (tomlName_ne_dotDot name), Option.bind_some,
    rsplit_tomlName some_]
  rfl

/-- The ids whose file lies in the directory of the peers and is listed under them. -/
def Good (id : Text) : Prop :=
  if id.any isForbidden then '/' ∉ base64Encode id
  else id ≠ [] ∧ id ≠ ['.'] ∧ id ≠ dotDot ∧ (base64Prefix.isPrefixOf id = true → id = base64Prefix)

instance (id : Text) : Decidable (Good id) := by unfold Good; infer_instance

/-- The file is stored directly in the directory of the peers, and listed under the id
    whatever other files there are. -/
def ComesBack (windows : Bool) (id : Text) : Prop :=
  ∃ name, path windows id = [peers, name] ∧ ∀ files now,
    (id, now, path windows id) ∈ getVecIdModifiedTimePath (store windows files id now) none

section Path

variable {windows : Bool} {id : Text} {c : Char} {text : Text}

/-- The text of an encoding: its only character with a meaning in paths is the slash. -/
theorem mem_base64Encode (member : c ∈ base64Encode id) : c ≠ '\\' ∧ c ≠ '.' ∧ c ≠ ':' := by
  obtain ⟨b, there, rfl⟩ := List.mem_map.mp member
  have ascii := Base64.encode_ascii _ b there
  have known := Base64.mem_encode there
  have notCode (n : UInt8) (unknown : Base64.value n = none) (other : n ≠ Base64.padding) : b ≠ n := by
    rintro rfl
    rcases known with digit | pad
    · rw [unknown] at digit
      cases digit
    · exact other pad
  have notChar (n : UInt8) (small : n.toNat < 128) (different : b ≠ n) :
      Char.ofNat b.toNat ≠ Char.ofNat n.toNat := by
    intro same
    have codes := congrArg Char.toNat same
    rw [Utf8.toNat_ofNat_ascii ascii, Utf8.toNat_ofNat_ascii small] at codes
    exact different (UInt8.toNat_inj.mp codes)
  exact ⟨notChar 92 (by decide) (notCode 92 rfl (by decide)),
    notChar 46 (by decide) (notCode 46 rfl (by decide)),
      notChar 58 (by decide) (notCode 58 rfl (by decide))⟩

theorem mem_idEncoded (member : c ∈ idEncoded id) :
    c ≠ '\\' ∧ c ≠ ':' ∧ (c = '/' → id.any isForbidden = true) := by
  unfold idEncoded at member
  split_ifs at member with forbidden
  · refine ⟨?_, ?_, fun _ => forbidden⟩
    · rintro rfl
      rcases List.mem_append.mp member with inPrefix | encoded
      · exact absurd inPrefix (by decide)
      · exact (mem_base64Encode encoded).1 rfl
    · rintro rfl
      rcases List.mem_append.mp member with inPrefix | encoded
      · exact absurd inPrefix (by decide)
      · exact (mem_base64Encode encoded).2.2 rfl
  · have allowed : isForbidden c = false := by
      rw [Bool.not_eq_true, List.any_eq_false] at forbidden
      exact Bool.eq_false_iff.mpr (forbidden c member)
    refine ⟨?_, ?_, ?_⟩
    · rintro rfl
      exact absurd allowed (by decide)
    · rintro rfl
      exact absurd allowed (by decide)
    · rintro rfl
      exact absurd allowed (by decide)

/-- Of its characters only the slash separates. -/
theorem isSep_idEncoded (member : c ∈ idEncoded id) : isSep windows c = decide (c = '/') := by
  rw [isSep, decide_eq_false (mem_idEncoded member).1, Bool.and_false, Bool.or_false]

theorem components_idEncoded : components windows (pathJoin windows peers (idEncoded id)) =
    peers :: plainComponents windows (idEncoded id) := by
  have noDrive : Transfer.hasDrive windows (idEncoded id) = false := by
    unfold Transfer.hasDrive
    split
    · rename_i c rest shape
      have colon : ':' ∈ idEncoded id := by rw [shape]; simp
      exact absurd rfl (mem_idEncoded colon).2.1
    · rfl
  have relative : (idEncoded id).head?.any (isSep windows) = false := by
    cases shape : idEncoded id with
    | nil => rfl
    | cons c rest =>
        have first : c ∈ idEncoded id := by rw [shape]; exact List.mem_cons_self ..
        rw [List.head?_cons, Option.any_some, isSep_idEncoded first]
        refine decide_eq_false fun slash => ?_
        have forbidden := (mem_idEncoded first).2.2 slash
        rw [idEncoded, if_pos forbidden] at shape
        have head : c = 'b' := (List.cons.inj shape).1.symm
        rw [head] at slash
        exact absurd slash (by decide)
  have front : components windows peers = [peers] := by cases windows <;> decide
  have plain : components windows (idEncoded id) = plainComponents windows (idEncoded id) :=
    if_neg (by simp [noDrive])
  rw [Transfer.components_pathJoin peers noDrive relative, front, plain, List.singleton_append]

/-- A file name in the directory of the peers is listed under what it stands for. -/
theorem comesBack_of_path {name : Text} (some_ : name ≠ [])
    (stored : path windows id = [peers, tomlName name])
    (decoded : idDecoded name = id) : ComesBack windows id := by
  have named : fileName (path windows id) = some (tomlName name) := by
    rw [stored]
    exact fileName_append [peers] (tomlName_ne_dotDot name)
  refine ⟨tomlName name, stored, fun files now => ?_⟩
  rw [store, named, Option.isSome_some, if_pos rfl, stored, getVecIdModifiedTimePath]
  simp only [Option.all_none, List.filter_true, List.mem_mergeSort, List.mem_map, List.mem_filter]
  refine ⟨([peers, tomlName name], now), ⟨List.mem_cons_self .., decide_eq_true ⟨rfl, ?_⟩⟩, ?_⟩
  · exact extension_tomlName [peers] some_
  · have stem := fileStem_tomlName [peers] some_
    rw [List.singleton_append] at stem
    simp only [stem, Option.getD_some, decoded]

/-- What the listing says of it. -/
theorem decoded_of_comesBack (back : ComesBack windows id) :
    ∃ name, path windows id = [peers, name] ∧ extension [peers, name] = some toml ∧
      idDecoded ((fileStem [peers, name]).getD []) = id := by
  obtain ⟨name, stored, listed⟩ := back
  have entry := listed [] 0
  rw [getVecIdModifiedTimePath] at entry
  simp only [Option.all_none, List.filter_true, List.mem_mergeSort, List.mem_map, List.mem_filter,
    decide_eq_true_eq, Prod.mk.injEq] at entry
  obtain ⟨f, ⟨-, -, isToml⟩, decoded, -, same⟩ := entry
  rw [same, stored] at isToml decoded
  exact ⟨name, stored, isToml, decoded⟩

/-- A file name of its own. -/
theorem path_of_name {name : Text} (encoded : idEncoded id = name) (noSlash : '/' ∉ name)
    (component : isComponent name = true) (proper : name ≠ dotDot) :
    path windows id = [peers, tomlName name] := by
  have noSep : ∀ c ∈ name, isSep windows c = false := by
    intro c member
    have inEncoded : c ∈ idEncoded id := by rw [encoded]; exact member
    rw [isSep_idEncoded inEncoded]
    refine decide_eq_false fun slash => noSlash ?_
    rw [← slash]
    exact member
  have alone : plainComponents windows (idEncoded id) = [name] := by
    rw [encoded, plainComponents, List.splitOnP_eq_singleton noSep, List.filter_singleton, component]
    rfl
  rw [path, components_idEncoded, alone]
  exact withExtension_append [peers] proper

theorem length_encode_base64Prefix_append (rest : Text) :
    (Utf8.encode (base64Prefix ++ rest)).length = 7 + (Utf8.encode rest).length := by
  have front : (Utf8.encode base64Prefix).length = 7 := by decide
  rw [Utf8.encode, List.flatMap_append, List.length_append]
  exact congrArg (· + _) front

theorem idDecoded_of_noPrefix (noPrefix : base64Prefix.isPrefixOf id = false) : idDecoded id = id := by
  rw [idDecoded, noPrefix]
  rfl

theorem idDecoded_of_long (some_ : text ≠ []) :
    idDecoded (base64Prefix ++ text) =
      Utf8.fromUtf8Lossy ((Base64.decode (Utf8.encode text)).getD []) := by
  have longer : (Utf8.encode (base64Prefix ++ text)).length ≠ 7 := by
    rw [length_encode_base64Prefix_append]
    have some' := List.length_pos_iff.mpr (Utf8.encode_ne_nil some_)
    omega
  have isPrefix : base64Prefix.isPrefixOf (base64Prefix ++ text) = true :=
    List.isPrefixOf_iff_prefix.mpr (List.prefix_append ..)
  rw [idDecoded, isPrefix, decide_eq_true longer, Bool.and_self, if_pos rfl]
  rfl

/-- An id that looks encoded is listed under another one, which is shorter. -/
theorem idDecoded_ne_of_prefix {rest : Text} (some_ : rest ≠ []) :
    idDecoded (base64Prefix ++ rest) ≠ base64Prefix ++ rest := by
  intro same
  rw [idDecoded_of_long some_] at same
  have bound := Utf8.length_fromUtf8Lossy_le ((Base64.decode (Utf8.encode rest)).getD [])
  have front : base64Prefix.length = 7 := rfl
  rw [same, List.length_append] at bound
  cases decoded : Base64.decode (Utf8.encode rest) with
  | none =>
      rw [decoded, Option.getD_none, List.length_nil] at bound
      omega
  | some bytes =>
      obtain ⟨shorter, ascii⟩ := Base64.decode_some decoded
      rw [Utf8.length_of_ascii ascii] at shorter
      rw [decoded, Option.getD_some] at bound
      omega

theorem comesBack_iff_of_verbatim (verbatim : id.any isForbidden = false) :
    ComesBack windows id ↔
      id ≠ [] ∧ id ≠ ['.'] ∧ id ≠ dotDot ∧ (base64Prefix.isPrefixOf id = true → id = base64Prefix) := by
  have encoded : idEncoded id = id := if_neg (by rw [verbatim]; decide)
  have noSlash : '/' ∉ id := by
    intro member
    rw [List.any_eq_false] at verbatim
    exact verbatim '/' member (by decide)
  constructor
  · intro back
    obtain ⟨name, stored, isToml, decoded⟩ := decoded_of_comesBack back
    have inPeers : id ≠ [] ∧ id ≠ ['.'] := by
      have alone (same : plainComponents windows (idEncoded id) = []) : False := by
        rw [path, components_idEncoded, same] at stored
        have lengths := congrArg List.length (stored.symm.trans (withExtension_append [] (by decide)))
        cases lengths
      constructor <;> rintro rfl <;> exact alone (by cases windows <;> decide)
    have notDots : id ≠ dotDot := by
      rintro rfl
      have kept : path windows dotDot = [peers, dotDot] := by cases windows <;> decide
      rw [kept] at stored
      cases stored
      exact absurd isToml (by decide)
    refine ⟨inPeers.1, inPeers.2, notDots, fun isPrefix => ?_⟩
    have component : isComponent id = true := decide_eq_true inPeers
    have named : path windows id = _ := path_of_name encoded noSlash component notDots
    rw [named] at stored
    cases stored
    have stem : fileStem [peers, tomlName id] = some id := fileStem_tomlName [peers] inPeers.1
    rw [stem, Option.getD_some] at decoded
    obtain ⟨rest, rfl⟩ := List.isPrefixOf_iff_prefix.mp isPrefix
    by_contra longer
    have some_ : rest ≠ [] := by
      rintro rfl
      exact longer (List.append_nil _)
    exact idDecoded_ne_of_prefix some_ decoded
  · rintro ⟨some_, notDot, notDots, decodes⟩
    refine comesBack_of_path some_
      (path_of_name encoded noSlash (decide_eq_true ⟨some_, notDot⟩) notDots) ?_
    cases isPrefix : base64Prefix.isPrefixOf id with
    | false => exact idDecoded_of_noPrefix isPrefix
    | true =>
        rw [decodes isPrefix]
        decide

theorem encode_base64Encode : Utf8.encode (base64Encode id) = Base64.encode (Utf8.encode id) :=
  Utf8.encode_ofAscii (Base64.encode_ascii _)

theorem comesBack_of_noSlash (forbidden : id.any isForbidden = true) (noSlash : '/' ∉ base64Encode id) :
    ComesBack windows id := by
  have some_ : id ≠ [] := by
    rintro rfl
    cases forbidden
  have some' : base64Encode id ≠ [] := by
    intro none_
    exact Base64.encode_ne_nil (Utf8.encode_ne_nil some_) (List.map_eq_nil_iff.mp none_)
  have encoded : idEncoded id = base64Prefix ++ base64Encode id := if_pos forbidden
  have long (other : Text) (short : other.length < 7) : base64Prefix ++ base64Encode id ≠ other := by
    rintro rfl
    rw [List.length_append] at short
    have front : base64Prefix.length = 7 := rfl
    omega
  refine comesBack_of_path (long [] (by decide)) (path_of_name encoded ?_
    (decide_eq_true ⟨long [] (by decide), long ['.'] (by decide)⟩) (long dotDot (by decide))) ?_
  · intro member
    rcases List.mem_append.mp member with inPrefix | inEncoding
    · exact absurd inPrefix (by decide)
    · exact noSlash inEncoding
  · rw [idDecoded_of_long some', encode_base64Encode, Base64.decode_encode, Option.getD_some,
      Utf8.fromUtf8Lossy_encode]

theorem length_withExtension (first : Text) (rest : List Text) :
    (withExtension (first :: rest)).length = (first :: rest).length := by
  have kept (ext : Text) : (pathWithExtension (first :: rest) ext).length = (first :: rest).length := by
    unfold pathWithExtension
    split
    · rfl
    · rw [List.length_append, List.length_dropLast, List.length_singleton]
      simp
  unfold withExtension
  split
  · exact kept _
  · exact kept _

/-- A text without components is all separators. -/
theorem isSep_of_plainComponents_nil (none_ : plainComponents windows text = [])
    (noDot : '.' ∉ text) : ∀ c ∈ text, isSep windows c = true := by
  induction text with
  | nil => exact fun _ member => absurd member List.not_mem_nil
  | cons c rest ih =>
      have noDot' : '.' ∉ rest := fun member => noDot (List.mem_cons_of_mem _ member)
      unfold plainComponents at none_ ih
      rw [List.splitOnP_cons_eq_if_modifyHead] at none_
      split_ifs at none_ with sep
      · refine List.forall_mem_cons.mpr ⟨sep, ih ?_ noDot'⟩
        rwa [List.filter_cons_of_neg (by decide)] at none_
      · exfalso
        obtain ⟨first, parts, split⟩ :=
          List.exists_cons_of_ne_nil (List.splitOnP_ne_nil (isSep windows) rest)
        have component : isComponent (c :: first) = true := by
          refine decide_eq_true ⟨List.cons_ne_nil _ _, fun dot => noDot ?_⟩
          rw [(List.cons.inj dot).1]
          exact List.mem_cons_self ..
        rw [split, List.modifyHead_cons, List.filter_cons_of_pos component] at none_
        cases none_

/-- What the listing decodes if the file lies in the directory of the peers: the encoding
    up to its first slash, after which there are slashes only. -/
theorem cut_of_comesBack (forbidden : id.any isForbidden = true) (slash : '/' ∈ base64Encode id)
    (back : ComesBack windows id) :
    ∃ front later, base64Encode id = front ++ '/' :: later ∧ (∀ c ∈ later, c = '/') ∧
      idDecoded (base64Prefix ++ front) = id := by
  obtain ⟨front, later, encoding, noSlash⟩ := List.eq_append_cons_of_mem slash
  obtain ⟨name, stored, -, decoded⟩ := decoded_of_comesBack back
  have encoded : idEncoded id = (base64Prefix ++ front) ++ '/' :: later := by
    rw [idEncoded, if_pos forbidden, encoding, List.append_assoc]
  have plain {c : Char} (member : c ∈ front ∨ c ∈ later) : c ∈ base64Encode id := by
    rw [encoding]
    rcases member with inFront | inLater
    · exact List.mem_append_left _ inFront
    · exact List.mem_append_right _ (List.mem_cons_of_mem _ inLater)
  have long (other : Text) (short : other.length < 7) : base64Prefix ++ front ≠ other := by
    rintro rfl
    rw [List.length_append] at short
    have prefixLength : base64Prefix.length = 7 := rfl
    omega
  have noSep : ∀ c ∈ base64Prefix ++ front, isSep windows c = false := by
    intro c member
    have there : c ∈ idEncoded id := by
      rw [encoded]
      exact List.mem_append_left _ member
    rw [isSep_idEncoded there]
    refine decide_eq_false ?_
    rintro rfl
    rcases List.mem_append.mp member with inPrefix | inFront
    · exact absurd inPrefix (by decide)
    · exact noSlash inFront
  have sep : isSep windows '/' = true := rfl
  have parts : plainComponents windows (idEncoded id) =
      (base64Prefix ++ front) :: plainComponents windows later := by
    rw [encoded, Transfer.plainComponents_append_sep _ _ sep]
    have alone : plainComponents windows (base64Prefix ++ front) = [base64Prefix ++ front] := by
      have component : isComponent (base64Prefix ++ front) = true :=
        decide_eq_true ⟨long [] (by decide), long ['.'] (by decide)⟩
      rw [plainComponents, List.splitOnP_eq_singleton noSep, List.filter_singleton, component]
      rfl
    rw [alone, List.singleton_append]
  have none_ : plainComponents windows later = [] := by
    have lengths := congrArg List.length stored
    rw [path, components_idEncoded, parts, length_withExtension] at lengths
    simp only [List.length_cons, List.length_nil] at lengths
    exact List.length_eq_zero_iff.mp (by omega)
  have slashes : ∀ c ∈ later, c = '/' := by
    intro c member
    have noDot : '.' ∉ later := fun dot => (mem_base64Encode (plain (.inr dot))).2.1 rfl
    have separates := isSep_of_plainComponents_nil none_ noDot c member
    have there : c ∈ idEncoded id := by
      rw [encoded]
      exact List.mem_append_right _ (List.mem_cons_of_mem _ member)
    rw [isSep_idEncoded there] at separates
    exact of_decide_eq_true separates
  have named : path windows id = [peers] ++ [tomlName (base64Prefix ++ front)] := by
    rw [path, components_idEncoded, parts, none_]
    exact withExtension_append [peers] (long dotDot (by decide))
  rw [← stored, named, fileStem_tomlName [peers] (long [] (by decide)), Option.getD_some] at decoded
  exact ⟨front, later, encoding, slashes, decoded⟩

/-- With a slash in its encoding the id is not listed: its file lies deeper or has lost the
    end of its name. -/
theorem not_comesBack_of_slash (forbidden : id.any isForbidden = true) (slash : '/' ∈ base64Encode id) :
    ¬ ComesBack windows id := by
  intro back
  obtain ⟨front, later, encoding, slashes, decoded⟩ := cut_of_comesBack forbidden slash back
  obtain ⟨codes, rest, split, frontCodes, laterCodes⟩ := List.map_eq_append_iff.mp encoding
  have ascii := Base64.encode_ascii (Utf8.encode id)
  rw [split] at ascii
  have isSlash : ∀ b ∈ rest, b = Base64.slash := by
    intro b member
    have char : Char.ofNat b.toNat = '/' := by
      have there : Char.ofNat b.toNat ∈ '/' :: later := by
        rw [← laterCodes]
        exact List.mem_map.mpr ⟨b, member, rfl⟩
      rcases List.mem_cons.mp there with here | inLater
      · exact here
      · exact slashes _ inLater
    have code := congrArg Char.toNat char
    rw [Utf8.toNat_ofNat_ascii (ascii b (List.mem_append_right _ member))] at code
    exact UInt8.toNat_inj.mp code
  have notEmpty : id ≠ [] := by
    rintro rfl
    cases forbidden
  by_cases bare : front = []
  · rw [bare, List.append_nil] at decoded
    have kept : idDecoded base64Prefix = base64Prefix := by decide
    rw [← decoded, kept] at forbidden
    exact absurd forbidden (by decide)
  · rw [idDecoded_of_long bare, ← frontCodes] at decoded
    have bytes : Utf8.encode (codes.map fun b => Char.ofNat b.toNat) = codes :=
      Utf8.encode_ofAscii fun b member => ascii b (List.mem_append_left _ member)
    rw [bytes] at decoded
    cases result : Base64.decode codes with
    | none =>
        rw [result] at decoded
        exact notEmpty decoded.symm
    | some w =>
        -- the slashes are whole groups, of bytes that no text has
        have whole := Base64.length_mod_of_decode result
        have group : Base64.encode ((Utf8.encode id).drop (3 * (codes.length / 4))) = rest := by
          rw [← Base64.drop_encode, split]
          have front4 : 4 * (codes.length / 4) = codes.length := by omega
          rw [front4, List.drop_left]
        cases left : (Utf8.encode id).drop (3 * (codes.length / 4)) with
        | nil =>
            rw [left] at group
            rw [← group] at laterCodes
            cases laterCodes
        | cons a more =>
            rw [left] at group
            rw [← group] at isSlash
            have full := Base64.eq_255_of_slashes isSlash
            have member : a ∈ Utf8.encode id := List.mem_of_mem_drop (i := 3 * (codes.length / 4)) (by
              rw [left]
              exact List.mem_cons_self ..)
            rw [full] at member
            exact Utf8.not_mem_encode id member

theorem comesBack_iff : ComesBack windows id ↔ Good id := by
  unfold Good
  cases forbidden : id.any isForbidden with
  | true =>
      rw [if_pos rfl]
      refine ⟨fun back slash => not_comesBack_of_slash forbidden slash back,
        comesBack_of_noSlash forbidden⟩
  | false =>
      rw [if_neg Bool.false_ne_true]
      exact comesBack_iff_of_verbatim forbidden

end Path

/-- Two ids have files of their own and are both listed under themselves exactly when both
    are good. -/
theorem peers_come_back_iff (windows : Bool) (id id' : Text) (different : id ≠ id') :
    (path windows id ≠ path windows id' ∧ ComesBack windows id ∧ ComesBack windows id') ↔
      Good id ∧ Good id' := by
  rw [comesBack_iff, comesBack_iff]
  refine and_iff_right_of_imp ?_
  rintro ⟨good, good'⟩ same
  have back : ComesBack windows id := comesBack_iff.mpr good
  have back' : ComesBack windows id' := comesBack_iff.mpr good'
  obtain ⟨name, stored, -, decoded⟩ := decoded_of_comesBack back
  obtain ⟨name', stored', -, decoded'⟩ := decoded_of_comesBack back'
  cases stored.symm.trans (same.trans stored')
  exact different (decoded.symm.trans decoded')

/-- Ids that come back. -/
theorem plain_and_encoded_ids_come_back :
    path false "1234".toList ≠ path false "a:b".toList ∧ ComesBack false "1234".toList ∧
      ComesBack false "a:b".toList :=
  (peers_come_back_iff false "1234".toList "a:b".toList (by decide)).mpr ⟨by decide, by decide⟩

/-- An id can be the file name of another one, the empty id and `.` have one file outside
    the directory, and a slash in the encoding leads deeper. -/
theorem files_lost_and_shared :
    path false "base64_YT8=".toList = path false "a?".toList ∧
      path false [] = path false ['.'] ∧ path false [] = ["peers.toml".toList] ∧
      path false "ab?c:d".toList = [peers, "base64_YWI".toList, "Yzpk.toml".toList] ∧
      ¬ ComesBack false "ab?c:d".toList := by
  refine ⟨by decide, by decide, by decide, by decide, ?_⟩
  rw [comesBack_iff]
  decide

end RemoteControl.PeerConfig
