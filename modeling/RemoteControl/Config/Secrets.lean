import RemoteControl.Base64
import RemoteControl.Utf8

/-! # Secrets in the config files

`password_security.rs` encrypts the secrets of the config files with a key of the machine,
and `config.rs` does so for each of its files on the way to the disk and back. A value that
looks encrypted is taken to be so, and a value beyond a length is dropped.
-/

namespace RemoteControl.Secrets

abbrev Bytes := List UInt8
abbrev Text := List Char

def macBytes : Nat := 16

/-- `secretbox` with the nonce that is always zero, and what is relied on. -/
structure Secretbox where
  seal_ : Bytes → Bytes → Bytes
  open_ : Bytes → Bytes → Option Bytes
  open_of_seal : ∀ key data, open_ key (seal_ key data) = some data
  length_of_open : ∀ key data opened,
    open_ key data = some opened → data.length = opened.length + macBytes

structure Machine where
  box : Secretbox
  uuid : Bytes
  /-- `Config::get_existing_key_pair`, which is not looked at on a phone -/
  pk : Option Bytes

namespace Machine

variable (m : Machine)

/-- `resize` to the length of a key. -/
def keyOf (bytes : Bytes) : Bytes := bytes.take 32 ++ List.replicate (32 - bytes.length) 0

/-- `symmetric_crypt` with `encrypt` -/
def sealData (data : Bytes) : Bytes := m.box.seal_ (keyOf m.uuid) data

/-- `symmetric_crypt` without `encrypt` -/
def openData (data : Bytes) : Option Bytes :=
  match m.box.open_ (keyOf m.uuid) data with
  | some opened => some opened
  | none =>
      match m.pk with
      | some pk => if pk ≠ m.uuid then m.box.open_ (keyOf pk) data else none
      | none => none

def encrypt (v : Bytes) : Option Bytes := if v = [] then none else some (Base64.encode (m.sealData v))

def decrypt (v : Bytes) : Option Bytes := if v = [] then none else (Base64.decode v).bind m.openData

end Machine

/-- `VERSION_LEN` -/
def versionLen : Nat := 2

/-- The bytes of `00`. -/
def zeros : Bytes := [48, 48]

def isEncrypted (v : Bytes) : Bool :=
  if v.length ≤ versionLen || !zeros.isPrefixOf v then false
  else
    match Base64.decode (v.drop versionLen) with
    | some decoded => macBytes ≤ decoded.length
    | none => false

section Values

variable (m : Machine)

def encryptStrOrOriginal (s version : Text) (maxLen : Nat) : Text :=
  if isEncrypted (Utf8.encode s) then s
  else if s.length > maxLen then []
  else if version = ['0', '0'] then
    match m.encrypt (Utf8.encode s) with
    | some e => version ++ Utf8.ofAscii e
    | none => s
  else s

/-- The bytes that a value decrypts to. -/
def decryptVersioned (v : Bytes) : Option Bytes :=
  if v.length > versionLen && zeros.isPrefixOf v then m.decrypt (v.drop versionLen) else none

/-- The value, whether it was decrypted, and whether it should be stored again. -/
def decryptStrOrOriginal (s currentVersion : Text) : Text × Bool × Bool :=
  match decryptVersioned m (Utf8.encode s) with
  | some v => (Utf8.fromUtf8Lossy v, true, ['0', '0'] ≠ currentVersion)
  | none => (s, false, s ≠ [] && !isEncrypted (Utf8.encode s))

def encryptVecOrOriginal (v : Bytes) (version : Text) (maxLen : Nat) : Bytes :=
  if isEncrypted v then v
  else if v.length > maxLen then []
  else if version = ['0', '0'] then
    match m.encrypt v with
    | some e => Utf8.encode version ++ e
    | none => v
  else v

def decryptVecOrOriginal (v : Bytes) (currentVersion : Text) : Bytes × Bool × Bool :=
  let version := Utf8.fromUtf8Lossy (v.take versionLen)
  let decrypted :=
    if v.length > versionLen && version = ['0', '0'] then m.decrypt (v.drop versionLen) else none
  match decrypted with
  | some opened => (opened, true, version ≠ currentVersion)
  | none => (v, false, v ≠ [] && !isEncrypted v)

end Values

/-- `PASSWORD_ENC_VERSION` -/
def passwordEncVersion : Text := ['0', '0']

/-- `ENCRYPT_MAX_LEN` -/
def encryptMaxLen : Nat := 128

structure Config where
  id : Text
  encId : Text
  password : Text
  deriving DecidableEq

namespace Config

/-- What `store` writes. -/
def store (m : Machine) (c : Config) : Config where
  id := []
  encId := encryptStrOrOriginal m c.id passwordEncVersion encryptMaxLen
  password := encryptStrOrOriginal m c.password passwordEncVersion encryptMaxLen

/-- What `load` makes of a file, and whether it stores that; `genId` is what the attempts
    at a new id give. -/
def load (m : Machine) (genId : Nat → Option Text) (file : Config) : Config × Bool :=
  let (password, _, store1) := decryptStrOrOriginal m file.password passwordEncVersion
  let (id, encrypted, store2) := decryptStrOrOriginal m file.encId passwordEncVersion
  let c := { file with password := password }
  if encrypted then ({ c with id := id }, store1 || store2)
  else if file.id ≠ [] ∧ file.encId = [] ∧ (decryptStrOrOriginal m file.id passwordEncVersion).2.1 = false then
    (c, true)
  else
    match (List.range 3).findSome? genId with
    | some id => ({ c with id := id }, true)
    | none => (c, store1)

end Config

structure Config2 where
  /-- the password of `socks` -/
  socks : Option Text
  unlockPin : Text
  deriving DecidableEq

namespace Config2

def store (m : Machine) (c : Config2) : Config2 where
  socks := c.socks.map fun password => encryptStrOrOriginal m password passwordEncVersion encryptMaxLen
  unlockPin := encryptStrOrOriginal m c.unlockPin passwordEncVersion encryptMaxLen

def load (m : Machine) (file : Config2) : Config2 × Bool :=
  let socks := file.socks.map fun password => decryptStrOrOriginal m password passwordEncVersion
  let (unlockPin, _, store) := decryptStrOrOriginal m file.unlockPin passwordEncVersion
  (⟨socks.map Prod.fst, unlockPin⟩, socks.any (·.2.2) || store)

end Config2

structure PeerConfig where
  password : Bytes
  options : Text → Option Text

namespace PeerConfig

/-- The options that are secrets. -/
def secretOptions : List Text := ["rdp_password", "os-username", "os-password"].map String.toList

def store (m : Machine) (c : PeerConfig) : PeerConfig where
  password := encryptVecOrOriginal m c.password passwordEncVersion encryptMaxLen
  options := fun opt =>
    if secretOptions.contains opt then
      (c.options opt).map fun v => encryptStrOrOriginal m v passwordEncVersion encryptMaxLen
    else c.options opt

def load (m : Machine) (file : PeerConfig) : PeerConfig × Bool :=
  let (password, _, store) := decryptVecOrOriginal m file.password passwordEncVersion
  let decrypted (opt : Text) :=
    (file.options opt).map fun v => decryptStrOrOriginal m v passwordEncVersion
  ({ password := password
     options :=
       fun opt => if secretOptions.contains opt then (decrypted opt).map Prod.fst else file.options opt },
    store || secretOptions.any fun opt => (decrypted opt).any (·.2.2))

end PeerConfig

/-! ## One value there and back -/

section Value

variable (m : Machine)

/-- A value that looks encrypted must not be so; any other must be short enough. -/
def Kept (bytes : Bytes) (length : Nat) : Prop :=
  if isEncrypted bytes then decryptVersioned m bytes = none else length ≤ encryptMaxLen

def KeptStr (s : Text) : Prop := Kept m (Utf8.encode s) s.length

def KeptVec (v : Bytes) : Prop := Kept m v v.length

instance (bytes : Bytes) (length : Nat) : Decidable (Kept m bytes length) := by
  unfold Kept
  infer_instance

instance (s : Text) : Decidable (KeptStr m s) := inferInstanceAs (Decidable (Kept _ _ _))

instance (v : Bytes) : Decidable (KeptVec m v) := inferInstanceAs (Decidable (Kept _ _ _))

variable {m}

theorem openData_sealData (data : Bytes) : m.openData (m.sealData data) = some data := by
  rw [Machine.openData, Machine.sealData, m.box.open_of_seal]

theorem length_of_openData {data opened : Bytes} (known : m.openData data = some opened) :
    data.length = opened.length + macBytes := by
  unfold Machine.openData at known
  split at known
  · rename_i v first
    cases known
    exact m.box.length_of_open _ _ _ first
  · split at known
    · split_ifs at known
      exact m.box.length_of_open _ _ _ known
    · cases known

variable {v : Bytes}

/-- What encryption writes decrypts to the value. -/
theorem decryptVersioned_encrypt {e : Bytes} (encrypted : m.encrypt v = some e) :
    decryptVersioned m (zeros ++ e) = some v := by
  unfold Machine.encrypt at encrypted
  split_ifs at encrypted with empty
  cases encrypted
  have sealed_ : Base64.encode (m.sealData v) ≠ [] := by
    have length := m.box.length_of_open _ _ _ (m.box.open_of_seal (Machine.keyOf m.uuid) v)
    refine Base64.encode_ne_nil fun none_ => ?_
    rw [Machine.sealData] at none_
    rw [none_, List.length_nil, macBytes] at length
    omega
  have long : (zeros ++ Base64.encode (m.sealData v)).length > versionLen := by
    have some_ := List.length_pos_iff.mpr sealed_
    rw [List.length_append, zeros, versionLen]
    simp only [List.length_cons, List.length_nil]
    omega
  have isPrefix : zeros.isPrefixOf (zeros ++ Base64.encode (m.sealData v)) = true :=
    List.isPrefixOf_iff_prefix.mpr (List.prefix_append ..)
  have dropped :
      (zeros ++ Base64.encode (m.sealData v)).drop versionLen = Base64.encode (m.sealData v) := rfl
  rw [decryptVersioned, decide_eq_true long, isPrefix, Bool.and_self, if_pos rfl, dropped,
    Machine.decrypt, if_neg sealed_, Base64.decode_encode, Option.bind_some, openData_sealData]

/-- What a value decrypts to is shorter, and the value is ASCII. -/
theorem decryptVersioned_some {opened : Bytes} (decrypted : decryptVersioned m v = some opened) :
    opened.length < v.length ∧ ∀ b ∈ v, b.toNat < 128 := by
  unfold decryptVersioned at decrypted
  split_ifs at decrypted with shape
  obtain ⟨-, isPrefix⟩ := (Bool.and_eq_true _ _).mp shape
  obtain ⟨rest, rfl⟩ := List.isPrefixOf_iff_prefix.mp isPrefix
  have dropped : (zeros ++ rest).drop versionLen = rest := rfl
  rw [dropped, Machine.decrypt] at decrypted
  split_ifs at decrypted
  obtain ⟨decoded, known, isOpen⟩ := Option.bind_eq_some_iff.mp decrypted
  obtain ⟨shorter, ascii⟩ := Base64.decode_some known
  have length := length_of_openData isOpen
  have mac : macBytes = 16 := rfl
  refine ⟨?_, fun b member => ?_⟩
  · rw [List.length_append]
    omega
  · rcases List.mem_append.mp member with zero | later
    · rw [List.eq_of_mem_replicate (n := 2) zero]
      decide
    · exact ascii b later

theorem encode_version : Utf8.encode passwordEncVersion = zeros := by decide

theorem encode_encrypted {e : Bytes} (encrypted : m.encrypt v = some e) :
    Utf8.encode (passwordEncVersion ++ Utf8.ofAscii e) = zeros ++ e := by
  have ascii : ∀ b ∈ e, b.toNat < 128 := by
    unfold Machine.encrypt at encrypted
    split_ifs at encrypted
    cases encrypted
    exact Base64.encode_ascii _
  rw [Utf8.encode, List.flatMap_append, ← Utf8.encode, ← Utf8.encode, encode_version,
    Utf8.encode_ofAscii ascii]

theorem isSome_encrypt (some_ : v ≠ []) : ∃ e, m.encrypt v = some e := ⟨_, if_neg some_⟩

variable {s : Text}

/-- What is stored of a text that does not look encrypted. -/
theorem encryptStr_of_plain (plain : isEncrypted (Utf8.encode s) = false) :
    encryptStrOrOriginal m s passwordEncVersion encryptMaxLen =
      if s.length > encryptMaxLen then []
      else match m.encrypt (Utf8.encode s) with
        | some e => passwordEncVersion ++ Utf8.ofAscii e
        | none => s := by
  rw [encryptStrOrOriginal, plain, if_neg Bool.false_ne_true]
  exact if_congr Iff.rfl rfl (if_pos rfl)

theorem decryptStr_nil : decryptStrOrOriginal m [] passwordEncVersion = ([], false, false) := by
  have none_ : decryptVersioned m (Utf8.encode []) = none := rfl
  rw [decryptStrOrOriginal, none_]
  rfl

/-- A text that is short enough and does not look encrypted. -/
theorem reloadStr_of_short (plain : isEncrypted (Utf8.encode s) = false)
    (short : s.length ≤ encryptMaxLen) :
    decryptStrOrOriginal m
      (encryptStrOrOriginal m s passwordEncVersion encryptMaxLen) passwordEncVersion =
      (s, decide (s ≠ []), false) := by
  rw [encryptStr_of_plain plain, if_neg (Nat.not_lt_of_le short)]
  by_cases empty : s = []
  · rw [empty]
    exact decryptStr_nil
  · obtain ⟨e, encrypted⟩ := isSome_encrypt (m := m) (Utf8.encode_ne_nil empty)
    rw [encrypted, decryptStrOrOriginal, encode_encrypted encrypted, decryptVersioned_encrypt encrypted]
    dsimp only
    rw [Utf8.fromUtf8Lossy_encode, decide_eq_true empty]
    rfl

/-- A text that looks encrypted is stored as it is. -/
theorem reloadStr_of_encrypted (looks : isEncrypted (Utf8.encode s) = true) :
    decryptStrOrOriginal m
      (encryptStrOrOriginal m s passwordEncVersion encryptMaxLen) passwordEncVersion =
      match decryptVersioned m (Utf8.encode s) with
      | some v => (Utf8.fromUtf8Lossy v, true, false)
      | none => (s, false, false) := by
  rw [encryptStrOrOriginal, if_pos looks, decryptStrOrOriginal, looks, Bool.not_true, Bool.and_false]
  rfl

theorem reloadStr_of_long (plain : isEncrypted (Utf8.encode s) = false)
    (long : encryptMaxLen < s.length) :
    decryptStrOrOriginal m
      (encryptStrOrOriginal m s passwordEncVersion encryptMaxLen) passwordEncVersion =
      ([], false, false) := by
  rw [encryptStr_of_plain plain, if_pos long]
  exact decryptStr_nil

theorem fromUtf8Lossy_ne     (decrypted : decryptVersioned m (Utf8.encode s) = some v) :
    Utf8.fromUtf8Lossy v ≠ s := by
  intro same
  obtain ⟨shorter, ascii⟩ := decryptVersioned_some decrypted
  have bound := Utf8.length_fromUtf8Lossy_le v
  rw [same] at bound
  rw [Utf8.length_of_ascii ascii] at shorter
  omega

/-- A text comes back exactly when it is kept, and is not stored once more. -/
theorem reloadStr (m : Machine) (s : Text) :
    let reloaded := decryptStrOrOriginal m
      (encryptStrOrOriginal m s passwordEncVersion encryptMaxLen) passwordEncVersion
    (reloaded.1 = s ↔ KeptStr m s) ∧ reloaded.2.2 = false := by
  unfold KeptStr Kept
  cases looks : isEncrypted (Utf8.encode s) with
  | true =>
      rw [reloadStr_of_encrypted looks, if_pos rfl]
      cases decrypted : decryptVersioned m (Utf8.encode s) with
      | none => exact ⟨iff_of_true rfl rfl, rfl⟩
      | some v => exact ⟨iff_of_false (fromUtf8Lossy_ne decrypted) (by simp), rfl⟩
  | false =>
      rw [if_neg Bool.false_ne_true]
      by_cases short : s.length ≤ encryptMaxLen
      · rw [reloadStr_of_short looks short]
        exact ⟨iff_of_true rfl short, rfl⟩
      · have long := Nat.lt_of_not_le short
        rw [reloadStr_of_long looks long]
        refine ⟨iff_of_false ?_ short, rfl⟩
        rintro rfl
        exact short (Nat.zero_le _)

/-- The id comes back only from a ciphertext of it. -/
theorem reloadStr_decrypted (m : Machine) (some_ : s ≠ []) :
    let reloaded := decryptStrOrOriginal m
      (encryptStrOrOriginal m s passwordEncVersion encryptMaxLen) passwordEncVersion
    reloaded.2.1 = true ∧ reloaded.1 = s ↔
      isEncrypted (Utf8.encode s) = false ∧ s.length ≤ encryptMaxLen := by
  cases looks : isEncrypted (Utf8.encode s) with
  | true =>
      rw [reloadStr_of_encrypted looks]
      refine iff_of_false ?_ (fun both => by cases both.1)
      cases decrypted : decryptVersioned m (Utf8.encode s) with
      | none => exact fun both => by cases both.1
      | some v => exact fun both => fromUtf8Lossy_ne decrypted both.2
  | false =>
      by_cases short : s.length ≤ encryptMaxLen
      · rw [reloadStr_of_short looks short]
        exact iff_of_true ⟨decide_eq_true some_, rfl⟩ ⟨rfl, short⟩
      · rw [reloadStr_of_long looks (Nat.lt_of_not_le short)]
        exact iff_of_false (fun both => by cases both.1) (fun both => short both.2)

/-- Bytes as they are stored: the version is read off as text. -/
theorem decryptVec_of_zeros (rest : Bytes) :
    decryptVecOrOriginal m (zeros ++ rest) passwordEncVersion =
      match decryptVersioned m (zeros ++ rest) with
      | some opened => (opened, true, false)
      | none => (zeros ++ rest, false, !isEncrypted (zeros ++ rest)) := by
  have version : Utf8.fromUtf8Lossy ((zeros ++ rest).take versionLen) = ['0', '0'] := rfl
  have isPrefix : zeros.isPrefixOf (zeros ++ rest) = true :=
    List.isPrefixOf_iff_prefix.mpr (List.prefix_append ..)
  rw [decryptVecOrOriginal, decryptVersioned, version, isPrefix]
  rfl

theorem decryptVec_nil : decryptVecOrOriginal m [] passwordEncVersion = ([], false, false) := rfl

/-- For bytes it is the same with their number. -/
theorem reloadVec (m : Machine) (v : Bytes) :
    let reloaded := decryptVecOrOriginal m
      (encryptVecOrOriginal m v passwordEncVersion encryptMaxLen) passwordEncVersion
    (reloaded.1 = v ↔ KeptVec m v) ∧ reloaded.2.2 = false := by
  unfold KeptVec Kept
  cases looks : isEncrypted v with
  | true =>
      have isPrefix : zeros.isPrefixOf v = true := by
        unfold isEncrypted at looks
        split_ifs at looks with shape
        rw [Bool.or_eq_true, not_or, Bool.not_eq_true', Bool.not_eq_false] at shape
        exact shape.2
      obtain ⟨rest, rfl⟩ := List.isPrefixOf_iff_prefix.mp isPrefix
      rw [if_pos rfl, encryptVecOrOriginal, if_pos looks, decryptVec_of_zeros]
      cases decrypted : decryptVersioned m (zeros ++ rest) with
      | none => exact ⟨iff_of_true rfl rfl, by rw [looks]; rfl⟩
      | some opened =>
          refine ⟨iff_of_false ?_ (by simp), rfl⟩
          rintro rfl
          exact Nat.lt_irrefl _ (decryptVersioned_some decrypted).1
  | false =>
      rw [if_neg Bool.false_ne_true, encryptVecOrOriginal, looks, if_neg Bool.false_ne_true]
      by_cases short : v.length ≤ encryptMaxLen
      · rw [if_neg (Nat.not_lt_of_le short), if_pos (by rfl)]
        by_cases empty : v = []
        · rw [empty]
          exact ⟨iff_of_true rfl (Nat.zero_le _), rfl⟩
        · obtain ⟨e, encrypted⟩ := isSome_encrypt (m := m) empty
          rw [encrypted]
          dsimp only
          rw [encode_version, decryptVec_of_zeros, decryptVersioned_encrypt encrypted]
          exact ⟨iff_of_true rfl short, rfl⟩
      · rw [if_pos (Nat.lt_of_not_le short), decryptVec_nil]
        refine ⟨iff_of_false ?_ short, rfl⟩
        rintro rfl
        exact short (Nat.zero_le _)

end Value

/-- An id must be short enough and must not look encrypted. -/
def KeptId (id : Text) : Prop := isEncrypted (Utf8.encode id) = false ∧ id.length ≤ encryptMaxLen

instance (id : Text) : Decidable (KeptId id) := inferInstanceAs (Decidable (_ ∧ _))

theorem Config.reload (m : Machine) (c : Config) (some_ : c.id ≠ []) :
    ((∀ genId,
      ((c.store m).load m genId).1.password = c.password ∧ ((c.store m).load m genId).1.id = c.id) ↔
        KeptStr m c.password ∧ KeptId c.id) ∧
      (KeptId c.id → ∀ genId, ((c.store m).load m genId).2 = false) := by
  obtain ⟨password, noStore⟩ := reloadStr m c.password
  have noStore' := (reloadStr m c.id).2
  have id := reloadStr_decrypted m some_
  unfold KeptId load store
  dsimp only at password noStore noStore' id ⊢
  generalize decryptStrOrOriginal m (encryptStrOrOriginal m c.password passwordEncVersion encryptMaxLen)
    passwordEncVersion = reloaded at password noStore ⊢
  generalize decryptStrOrOriginal m (encryptStrOrOriginal m c.id passwordEncVersion encryptMaxLen)
    passwordEncVersion = reloaded' at noStore' id ⊢
  obtain ⟨password', _, store1⟩ := reloaded
  obtain ⟨id', encrypted, store2⟩ := reloaded'
  dsimp only at password noStore noStore' id ⊢
  rw [noStore, noStore', ← id, ← password]
  cases encrypted with
  | true =>
      simp only [if_true, true_and, forall_const]
      exact fun _ => rfl
  | false =>
      simp only [Bool.false_eq_true, if_false, false_and, and_false, ne_eq, not_true_eq_false,
        iff_false, IsEmpty.forall_iff, and_true]
      intro kept
      exact some_ (kept fun _ => none).2.symm

/-- The same for a value that may be missing. -/
theorem reloadOption (m : Machine) (value : Option Text) :
    let reloaded := value.map fun v => decryptStrOrOriginal m
      (encryptStrOrOriginal m v passwordEncVersion encryptMaxLen) passwordEncVersion
    (reloaded.map Prod.fst = value ↔ ∀ v ∈ value, KeptStr m v) ∧ reloaded.any (·.2.2) = false := by
  cases value with
  | none => exact ⟨iff_of_true rfl (fun _ member => by cases member), rfl⟩
  | some v =>
      obtain ⟨same, noStore⟩ := reloadStr m v
      refine ⟨?_, noStore⟩
      rw [Option.map_some, Option.map_some, Option.some_inj, same]
      simp

theorem Config2.reload (m : Machine) (c : Config2) :
    (((c.store m).load m).1 = c ↔ (∀ password ∈ c.socks, KeptStr m password) ∧ KeptStr m c.unlockPin) ∧
      ((c.store m).load m).2 = false := by
  obtain ⟨unlockPin, noStore⟩ := reloadStr m c.unlockPin
  obtain ⟨password, noStore'⟩ := reloadOption m c.socks
  obtain ⟨socks, pin⟩ := c
  have inner : (socks.map fun v => encryptStrOrOriginal m v passwordEncVersion encryptMaxLen).map
      (fun v => decryptStrOrOriginal m v passwordEncVersion) = socks.map fun v =>
        decryptStrOrOriginal m
          (encryptStrOrOriginal m v passwordEncVersion encryptMaxLen) passwordEncVersion :=
    Option.map_map ..
  unfold load store
  dsimp only at unlockPin noStore password noStore' ⊢
  rw [inner, Config2.mk.injEq, unlockPin, noStore, Bool.or_false]
  exact ⟨and_congr_left fun _ => password, noStore'⟩

theorem PeerConfig.reload (m : Machine) (c : PeerConfig) :
    (((c.store m).load m).1 = c ↔
        KeptVec m c.password ∧ ∀ opt ∈ secretOptions, ∀ v ∈ c.options opt, KeptStr m v) ∧
      ((c.store m).load m).2 = false := by
  obtain ⟨password, noStore⟩ := reloadVec m c.password
  have options (opt : Text) (secret : opt ∈ secretOptions) : ((c.store m).options opt).map
      (fun v => decryptStrOrOriginal m v passwordEncVersion) = (c.options opt).map fun v =>
        decryptStrOrOriginal m
          (encryptStrOrOriginal m v passwordEncVersion encryptMaxLen) passwordEncVersion := by
    have stored : (c.store m).options opt = (c.options opt).map fun v =>
        encryptStrOrOriginal m v passwordEncVersion encryptMaxLen := if_pos (List.contains_iff_mem.mpr secret)
    rw [stored, Option.map_map]
    rfl
  obtain ⟨password', options'⟩ := c
  constructor
  · have loaded : ((store m ⟨password', options'⟩).load m).1 = ⟨password', options'⟩ ↔
        (decryptVecOrOriginal m (encryptVecOrOriginal m password' passwordEncVersion encryptMaxLen)
            passwordEncVersion).1 = password' ∧
          ∀ opt, (if secretOptions.contains opt then
              (((store m ⟨password', options'⟩).options opt).map fun v =>
                decryptStrOrOriginal m v passwordEncVersion).map Prod.fst
            else (store m ⟨password', options'⟩).options opt) = options' opt := by
      rw [← funext_iff, ← PeerConfig.mk.injEq]
      exact Iff.rfl
    rw [loaded, password]
    refine and_congr_right fun _ => ?_
    constructor
    · intro same opt secret
      have here := same opt
      rw [if_pos (List.contains_iff_mem.mpr secret), options opt secret] at here
      exact (reloadOption m (options' opt)).1.mp here
    · intro kept opt
      by_cases secret : opt ∈ secretOptions
      · rw [if_pos (List.contains_iff_mem.mpr secret), options opt secret]
        exact (reloadOption m (options' opt)).1.mpr (kept opt secret)
      · have plain : ¬secretOptions.contains opt = true := mt List.contains_iff_mem.mp secret
        rw [if_neg plain]
        exact if_neg plain
  · have loaded : ((store m ⟨password', options'⟩).load m).2 =
        ((decryptVecOrOriginal m (encryptVecOrOriginal m password' passwordEncVersion encryptMaxLen)
            passwordEncVersion).2.2 ||
          secretOptions.any fun opt => (((store m ⟨password', options'⟩).options opt).map fun v =>
            decryptStrOrOriginal m v passwordEncVersion).any (·.2.2)) := rfl
    rw [loaded]
    dsimp only at noStore
    rw [noStore, Bool.false_or, List.any_eq_false]
    intro opt secret
    rw [options opt secret, Bool.not_eq_true]
    exact (reloadOption m (options' opt)).2

/-- The file after a load. -/
def Config.afterLoad (m : Machine) (genId : Nat → Option Text) (file : Config) : Config :=
  if (file.load m genId).2 then (file.load m genId).1.store m else file

def Config2.afterLoad (m : Machine) (file : Config2) : Config2 :=
  if (file.load m).2 then (file.load m).1.store m else file

def PeerConfig.afterLoad (m : Machine) (file : PeerConfig) : PeerConfig :=
  if (file.load m).2 then (file.load m).1.store m else file

/-- The secrets of the config files come back from a store and a load exactly when they
    are kept, and then a second load stores nothing. -/
theorem secrets_survive_iff (m : Machine) :
    (∀ c : Config, c.id ≠ [] →
      ((∀ genId,
        ((c.store m).load m genId).1.password = c.password ∧
        ((c.store m).load m genId).1.id = c.id) ↔
          KeptStr m c.password ∧ KeptId c.id) ∧
        (KeptId c.id → ∀ genId genId', (((c.store m).afterLoad m genId).load m genId').2 = false)) ∧
      (∀ c : Config2,
        (((c.store m).load m).1 = c ↔
          (∀ password ∈ c.socks, KeptStr m password) ∧ KeptStr m c.unlockPin) ∧
          (((c.store m).afterLoad m).load m).2 = false) ∧
      ∀ c : PeerConfig,
        (((c.store m).load m).1 = c ↔
            KeptVec m c.password ∧ ∀ opt ∈ PeerConfig.secretOptions, ∀ v ∈ c.options opt, KeptStr m v) ∧
          (((c.store m).afterLoad m).load m).2 = false := by
  refine ⟨fun c some_ => ?_, fun c => ?_, fun c => ?_⟩
  · obtain ⟨secrets, noStore⟩ := c.reload m some_
    refine ⟨secrets, fun kept genId genId' => ?_⟩
    rw [Config.afterLoad, noStore kept genId, if_neg Bool.false_ne_true, noStore kept genId']
  · obtain ⟨secrets, noStore⟩ := c.reload m
    refine ⟨secrets, ?_⟩
    rw [Config2.afterLoad, noStore, if_neg Bool.false_ne_true, noStore]
  · obtain ⟨secrets, noStore⟩ := c.reload m
    refine ⟨secrets, ?_⟩
    rw [PeerConfig.afterLoad, noStore, if_neg Bool.false_ne_true, noStore]

/-- A box whose ciphertexts are the plaintexts behind sixteen zeros. -/
def plainBox : Secretbox where
  seal_ _ data := List.replicate 16 0 ++ data
  open_ _ data := if data.take 16 = List.replicate 16 0 then some (data.drop 16) else none
  open_of_seal _ data := by
    rw [List.take_left' (by rfl), if_pos rfl, List.drop_left' (by rfl)]
  length_of_open _ data opened known := by
    split_ifs at known with zeros
    cases known
    have lengths := congrArg List.length zeros
    rw [List.length_take, List.length_replicate] at lengths
    rw [List.length_drop, macBytes]
    omega

def sampleMachine : Machine where
  box := plainBox
  uuid := [1]
  pk := none

/-- Secrets that are short and look like nothing come back. -/
theorem short_secrets_survive :
    ((Config.store sampleMachine ⟨"12".toList, [], "p".toList⟩).load sampleMachine fun _ =>
      none).1.password =
        "p".toList ∧
      ((Config.store sampleMachine ⟨"12".toList, [], "p".toList⟩).load sampleMachine fun _ =>
        none).1.id =
        "12".toList :=
  (((secrets_survive_iff sampleMachine).1 ⟨"12".toList, [], "p".toList⟩ (by decide)).1.mpr
    ⟨by decide, by decide⟩) fun _ => none

/-- A password that is the ciphertext of `a`, and one of 129 characters. -/
theorem ciphertext_and_long_password_lost :
    let ciphertext : Text := '0' :: '0' :: Utf8.ofAscii (Base64.encode (sampleMachine.sealData [97]))
    let long : Text := List.replicate 129 'a'
    ((Config.store sampleMachine ⟨"12".toList, [], ciphertext⟩).load sampleMachine fun _ =>
      none).1.password =
        ['a'] ∧
      ((Config.store sampleMachine ⟨"12".toList, [], long⟩).load sampleMachine fun _ =>
        none).1.password =
        [] := by
  decide +kernel

end RemoteControl.Secrets
