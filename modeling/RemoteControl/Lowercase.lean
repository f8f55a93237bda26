import Mathlib.Algebra.Ring.Int.Defs
import Mathlib.Algebra.Ring.Nat
import Mathlib.Data.Bool.AllAny
import Mathlib.Data.List.Forall2
import Mathlib.Data.List.Infix

/-! # Lower case

A text in lower case may have more or fewer bytes than the text itself, and a character may
become two. What is found in it says something about the text only as long as one looks for
letters that come from themselves and their capitals.
-/

namespace RemoteControl.Lowercase

/-- The tables of the Unicode version at hand. -/
structure CaseTables where
  /-- `char::to_lowercase` -/
  lower : Char → List Char
  /-- Whether a capital sigma between two texts ends a word. -/
  endsWord : List Char → List Char → Bool
  ascii : ∀ c, c.toNat < 128 → lower c = [c.toLower]
  ne_nil : ∀ c, lower c ≠ []
  /-- Outside ASCII only the Kelvin sign and the dotted capital `I` have an ASCII letter in lower
      case. -/
  other : ∀ c, 128 ≤ c.toNat → ∀ x ∈ lower c, x.toNat < 128 → x = 'i' ∨ x = 'k'

def capitalSigma : Char := Char.ofNat 0x3A3

def smallSigma : Char := Char.ofNat 0x3C3

def finalSigma : Char := Char.ofNat 0x3C2

def utf8Len (s : List Char) : Nat := (s.map Char.utf8Size).sum

namespace CaseTables

variable (tables : CaseTables)

/-- What a character becomes between two texts. -/
def lowerAt (before after : List Char) (c : Char) : List Char :=
  if c = capitalSigma then [if tables.endsWord before after then finalSigma else smallSigma] else tables.lower c

/-- The text before is the one that the loop has been through, the last character first. -/
def lowerFrom : List Char → List Char → List Char
  | _, [] => []
  | before, c :: rest => tables.lowerAt before rest c ++ lowerFrom (c :: before) rest

/-- `str::to_lowercase` -/
def toLowercase (s : List Char) : List Char := tables.lowerFrom [] s

/-- How many bytes a character has in lower case. -/
def lowerSize (c : Char) : Nat := if c = capitalSigma then 2 else utf8Len (tables.lower c)

def lowerLen (s : List Char) : Nat := (s.map tables.lowerSize).sum

end CaseTables

/-! ## Bytes -/

/-- `str::find` -/
def find (p : List Char) : List Char → Option Nat
  | [] => if p = [] then some 0 else none
  | c :: rest => if p.isPrefixOf (c :: rest) then some 0 else (find p rest).map (· + c.utf8Size)

/-- The same in characters. -/
def position (p : List Char) : List Char → Option Nat
  | [] => if p = [] then some 0 else none
  | c :: rest => if p.isPrefixOf (c :: rest) then some 0 else (position p rest).map (· + 1)

/-- `&s[n..]`, where `none` is a panic. -/
def dropBytes : Nat → List Char → Option (List Char)
  | 0, s => some s
  | _ + 1, [] => none
  | n + 1, c :: rest => if c.utf8Size ≤ n + 1 then dropBytes (n + 1 - c.utf8Size) rest else none

/-- `&s[..n]` -/
def takeBytes : Nat → List Char → Option (List Char)
  | 0, _ => some []
  | _ + 1, [] => none
  | n + 1, c :: rest =>
    if c.utf8Size ≤ n + 1 then (takeBytes (n + 1 - c.utf8Size) rest).map (c :: ·) else none

/-- `&s[..s.len() - n]` -/
def dropLastBytes (n : Nat) (s : List Char) : Option (List Char) :=
  if utf8Len s < n then none else takeBytes (utf8Len s - n) s

@[simp] theorem utf8Len_nil : utf8Len [] = 0 := rfl

@[simp] theorem utf8Len_cons (c : Char) (s : List Char) :
    utf8Len (c :: s) = c.utf8Size + utf8Len s := List.sum_cons

variable (s : List Char) {n : Nat} {c x : Char} {p rest img : List Char} {imgs : List (List Char)}

theorem utf8Len_append (t : List Char) : utf8Len (s ++ t) = utf8Len s + utf8Len t := by
  unfold utf8Len
  rw [List.map_append, List.sum_append]

theorem dropBytes_cons (positive : 0 < n) :
    dropBytes n (c :: rest) = if c.utf8Size ≤ n then dropBytes (n - c.utf8Size) rest else none := by
  obtain ⟨n, rfl⟩ := Nat.exists_eq_succ_of_ne_zero positive.ne'
  rfl

theorem takeBytes_cons (positive : 0 < n) :
    takeBytes n (c :: rest) =
      if c.utf8Size ≤ n then (takeBytes (n - c.utf8Size) rest).map (c :: ·) else none := by
  obtain ⟨n, rfl⟩ := Nat.exists_eq_succ_of_ne_zero positive.ne'
  rfl

@[simp] theorem dropBytes_zero : dropBytes 0 s = some s := by
  cases s <;> rfl

@[simp] theorem takeBytes_zero : takeBytes 0 s = some [] := by
  cases s <;> rfl

theorem dropBytes_append (t : List Char) : dropBytes (utf8Len s) (s ++ t) = some t := by
  induction s with
  | nil => exact dropBytes_zero t
  | cons c rest ih =>
      have positive := c.utf8Size_pos
      rw [utf8Len_cons, List.cons_append, dropBytes_cons (by omega), if_pos (by omega),
        Nat.add_sub_cancel_left]
      exact ih

theorem takeBytes_append (t : List Char) : takeBytes (utf8Len s) (s ++ t) = some s := by
  induction s with
  | nil => exact takeBytes_zero t
  | cons c rest ih =>
      have positive := c.utf8Size_pos
      rw [utf8Len_cons, List.cons_append, takeBytes_cons (by omega), if_pos (by omega),
        Nat.add_sub_cancel_left, ih]
      rfl

theorem dropLastBytes_append (t : List Char) : dropLastBytes (utf8Len t) (s ++ t) = some s := by
  unfold dropLastBytes
  rw [utf8Len_append, if_neg (by omega), Nat.add_sub_cancel]
  exact takeBytes_append s t

variable {s : List Char}

/-- A cut is a cut of the text in two. -/
theorem dropBytes_eq_some_iff {t : List Char} :
    dropBytes n s = some t ↔ ∃ front, s = front ++ t ∧ utf8Len front = n := by
  constructor
  · intro cut
    induction s generalizing n with
    | nil =>
        cases n with
        | zero => cases cut; exact ⟨[], rfl, rfl⟩
        | succ n => cases cut
    | cons c rest ih =>
        cases n with
        | zero => cases cut; exact ⟨[], rfl, rfl⟩
        | succ n =>
            rw [dropBytes_cons (Nat.succ_pos n)] at cut
            split at cut
            · next fits =>
                obtain ⟨front, rfl, bytes⟩ := ih cut
                refine ⟨c :: front, rfl, ?_⟩
                rw [utf8Len_cons, bytes]
                omega
            · cases cut
  · rintro ⟨front, rfl, rfl⟩
    exact dropBytes_append front t

/-- What a character may become. -/
structure Image (c : Char) (img : List Char) : Prop where
  ascii : c.toNat < 128 → img = [c.toLower]
  ne_nil : img ≠ []
  other : 128 ≤ c.toNat → ∀ x ∈ img, x.toNat < 128 → x = 'i' ∨ x = 'k'

/-- A letter that only comes from itself and its capital. -/
def Plain (x : Char) : Prop := x.toNat < 128 ∧ x ≠ 'i' ∧ x ≠ 'k'

instance (x : Char) : Decidable (Plain x) := inferInstanceAs (Decidable (_ ∧ _))

theorem Image.reverse (image : Image c img) : Image c img.reverse where
  ascii small := by rw [image.ascii small]; rfl
  ne_nil := List.reverse_ne_nil_iff.mpr image.ne_nil
  other large x inside := image.other large x (List.mem_reverse.mp inside)

theorem Image.not_plain (image : Image c img) (large : 128 ≤ c.toNat) (inside : x ∈ img) :
    ¬Plain x := by
  rintro ⟨small, notI, notK⟩
  cases image.other large x inside small with
  | inl isI => exact notI isI
  | inr isK => exact notK isK

theorem toLower_of_large (large : 128 ≤ c.toNat) : c.toLower = c := by
  unfold Char.toLower
  refine dif_neg fun capital => ?_
  have small : c.toNat ≤ 90 := capital.2
  omega

/-- Letters that come from themselves begin the lower-cased text where they begin the text. -/
theorem prefix_images_iff (plain : ∀ x ∈ p, Plain x)
    (images : List.Forall₂ Image s imgs) : p <+: imgs.flatten ↔ p <+: s.map Char.toLower := by
  induction images generalizing p with
  | nil => exact Iff.rfl
  | @cons c img s imgs image images ih =>
      cases p with
      | nil => exact iff_of_true (List.nil_prefix) List.nil_prefix
      | cons x p =>
          rw [List.flatten_cons, List.map_cons]
          by_cases small : c.toNat < 128
          · rw [image.ascii small, List.singleton_append, List.cons_prefix_cons, List.cons_prefix_cons,
              ih fun y inside => plain y (List.mem_cons_of_mem _ inside)]
          · have large : 128 ≤ c.toNat := Nat.not_lt.mp small
            have isPlain := plain x (List.mem_cons_self ..)
            refine iff_of_false ?_ ?_
            · obtain ⟨y, rest, rfl⟩ := List.exists_cons_of_ne_nil image.ne_nil
              rw [List.cons_append, List.cons_prefix_cons]
              rintro ⟨rfl, -⟩
              exact image.not_plain large (List.mem_cons_self ..) isPlain
            · rw [List.cons_prefix_cons, toLower_of_large large]
              rintro ⟨rfl, -⟩
              exact small isPlain.1

theorem suffix_images_iff (plain : ∀ x ∈ p, Plain x)
    (images : List.Forall₂ Image s imgs) : p <:+ imgs.flatten ↔ p <:+ s.map Char.toLower := by
  have reversed : List.Forall₂ Image s.reverse (imgs.map List.reverse).reverse :=
    List.forall₂_reverse_iff.mpr
      (List.forall₂_map_right_iff.mpr (images.imp fun _ _ image => image.reverse))
  have begins := prefix_images_iff (fun x inside => plain x (List.mem_reverse.mp inside)) reversed
  rw [← List.reverse_flatten, List.map_reverse, List.reverse_prefix, List.reverse_prefix] at begins
  exact begins

theorem find_cons_of_begins (begins : p <+: c :: rest) :
    find p (c :: rest) = some 0 := if_pos (List.isPrefixOf_iff_prefix.mpr begins)

theorem find_cons_of_not_begins (not : ¬p <+: c :: rest) :
    find p (c :: rest) = (find p rest).map (· + c.utf8Size) :=
  if_neg fun begins => not (List.isPrefixOf_iff_prefix.mp begins)

theorem position_cons_of_begins (begins : p <+: c :: rest) :
    position p (c :: rest) = some 0 := if_pos (List.isPrefixOf_iff_prefix.mpr begins)

theorem position_cons_of_not_begins (not : ¬p <+: c :: rest) :
    position p (c :: rest) = (position p rest).map (· + 1) :=
  if_neg fun begins => not (List.isPrefixOf_iff_prefix.mp begins)

/-- The word does not begin with a letter that it does not begin with. -/
theorem find_append_of_not_mem (others : x ∉ img) (rest : List Char) :
    find (x :: p) (img ++ rest) = (find (x :: p) rest).map (· + utf8Len img) := by
  induction img with
  | nil => rw [List.nil_append, utf8Len_nil]; exact Option.map_id'.symm
  | cons y img ih =>
      obtain ⟨different, others⟩ := List.ne_and_not_mem_of_not_mem_cons others
      have not : ¬x :: p <+: y :: (img ++ rest) :=
        fun begins => different (List.cons_prefix_cons.mp begins).1
      rw [List.cons_append, find_cons_of_not_begins not, ih others, Option.map_map, utf8Len_cons]
      congr 1
      funext n
      show n + utf8Len img + y.utf8Size = n + (y.utf8Size + utf8Len img)
      omega

/-- Where a word begins in the lower-cased text, in bytes of that text. -/
theorem find_images (plain : ∀ y ∈ x :: p, Plain y) (images : List.Forall₂ Image s imgs) :
    find (x :: p) imgs.flatten =
      (position (x :: p) (s.map Char.toLower)).map fun n => ((imgs.take n).map utf8Len).sum := by
  induction images with
  | nil => rfl
  | @cons c img s imgs image images ih =>
      have begins := prefix_images_iff plain (.cons image images)
      rw [List.map_cons]
      by_cases here : x :: p <+: c.toLower :: s.map Char.toLower
      · rw [position_cons_of_begins here]
        have here' := begins.mpr here
        obtain ⟨y, rest, same⟩ := List.exists_cons_of_ne_nil image.ne_nil
        rw [List.flatten_cons, same, List.cons_append] at here' ⊢
        exact find_cons_of_begins here'
      · rw [position_cons_of_not_begins here, Option.map_map]
        have not : ¬x :: p <+: (img :: imgs).flatten := fun there => here (begins.mp there)
        have shifted :
            find (x :: p) (img :: imgs).flatten =
            (find (x :: p) imgs.flatten).map (· + utf8Len img) := by
          rw [List.flatten_cons] at not ⊢
          by_cases small : c.toNat < 128
          · rw [image.ascii small, List.singleton_append] at not ⊢
            exact find_cons_of_not_begins not
          · exact find_append_of_not_mem (fun inside =>
              image.not_plain (Nat.not_lt.mp small) inside (plain x (List.mem_cons_self ..))) _
        rw [shifted, ih, Option.map_map]
        congr 1
        funext n
        show ((imgs.take n).map utf8Len).sum + utf8Len img =
          (((img :: imgs).take (n + 1)).map utf8Len).sum
        rw [List.take_succ_cons, List.map_cons, List.sum_cons, Nat.add_comm]

/-- A word whose first letter occurs once begins where it is said to, if it is not there before. -/
theorem position_append {front back : List Char} (once : x ∉ p) (absent : ¬x :: p <:+: front)
    (begins : x :: p <+: back) : position (x :: p) (front ++ back) = some front.length := by
  induction front with
  | nil =>
      obtain ⟨y, rest, rfl⟩ := List.exists_cons_of_ne_nil fun none : back = [] => by
        rw [none] at begins
        exact absurd (List.prefix_nil.mp begins) (List.cons_ne_nil x p)
      exact position_cons_of_begins begins
  | cons c front ih =>
      have not : ¬x :: p <+: c :: (front ++ back) := by
        intro here
        obtain long | short := Nat.lt_or_ge (c :: front).length (x :: p).length
        · -- the word would go on into the text where it begins once more
          obtain ⟨rest, same⟩ :=
            List.prefix_of_prefix_length_le (List.prefix_append (c :: front) back) here long.le
          obtain ⟨rest', whole⟩ := here
          rw [← same, List.append_assoc] at whole
          have back_eq : rest ++ rest' = back :=
            List.append_cancel_left (whole.trans (List.cons_append).symm)
          cases rest with
          | nil => rw [List.append_nil] at same; rw [same] at long; exact absurd long (Nat.lt_irrefl _)
          | cons y rest =>
              rw [← back_eq, List.cons_append, List.cons_prefix_cons] at begins
              obtain ⟨-, rfl⟩ := List.cons.inj same
              exact once (begins.1 ▸ List.mem_append_right _ (List.mem_cons_self ..))
        · exact absent
            (List.prefix_of_prefix_length_le here
            (List.prefix_append (c :: front) back) short).isInfix
      rw [List.cons_append, position_cons_of_not_begins not,
        ih fun inside => absent (inside.trans (List.suffix_cons c front).isInfix)]
      rfl

namespace CaseTables

variable (tables : CaseTables)

theorem image_lowerAt (before after : List Char) (c : Char) :
    Image c (tables.lowerAt before after c) := by
  unfold lowerAt
  split
  · next sigma =>
      subst sigma
      refine ⟨fun small => absurd small (by decide), nofun, fun _ x inside small => ?_⟩
      rw [List.mem_singleton.mp inside] at small
      split at small
      · exact absurd small (by decide)
      · exact absurd small (by decide)
  · exact ⟨tables.ascii c, tables.ne_nil c, tables.other c⟩

theorem utf8Len_lowerAt (before after : List Char) (c : Char) :
    utf8Len (tables.lowerAt before after c) = tables.lowerSize c := by
  unfold lowerAt lowerSize
  split
  · split <;> rfl
  · rfl

/-- The pieces of the lower-cased text. -/
theorem exists_images (before s : List Char) : ∃ imgs, List.Forall₂ Image s imgs ∧
    tables.lowerFrom before s = imgs.flatten ∧ imgs.map utf8Len = s.map tables.lowerSize := by
  induction s generalizing before with
  | nil => exact ⟨[], .nil, rfl, rfl⟩
  | cons c rest ih =>
      obtain ⟨imgs, images, whole, sizes⟩ := ih (c :: before)
      refine ⟨tables.lowerAt before rest c :: imgs,
        .cons (tables.image_lowerAt before rest c) images, ?_, ?_⟩
      · rw [lowerFrom, whole, List.flatten_cons]
      · rw [List.map_cons, List.map_cons, sizes, tables.utf8Len_lowerAt]

variable {p : List Char}

theorem prefix_toLowercase_iff (plain : ∀ x ∈ p, Plain x) :
    p <+: tables.toLowercase s ↔ p <+: s.map Char.toLower := by
  obtain ⟨imgs, images, whole, -⟩ := tables.exists_images [] s
  unfold toLowercase
  rw [whole]
  exact prefix_images_iff plain images

theorem suffix_toLowercase_iff (plain : ∀ x ∈ p, Plain x) :
    p <:+ tables.toLowercase s ↔ p <:+ s.map Char.toLower := by
  obtain ⟨imgs, images, whole, -⟩ := tables.exists_images [] s
  unfold toLowercase
  rw [whole]
  exact suffix_images_iff plain images

/-- The place of a word, in bytes of the lower-cased text before it. -/
theorem find_toLowercase {x : Char} (plain : ∀ y ∈ x :: p, Plain y) (s : List Char) :
    find (x :: p) (tables.toLowercase s) =
      (position (x :: p) (s.map Char.toLower)).map fun n => tables.lowerLen (s.take n) := by
  obtain ⟨imgs, images, whole, sizes⟩ := tables.exists_images [] s
  unfold toLowercase lowerLen
  rw [whole, find_images plain images]
  congr 1
  funext n
  rw [List.map_take, sizes, List.map_take]

/-- ASCII letters at the beginning are lower-cased one by one. -/
theorem toLowercase_append {ascii : List Char} (small : ∀ c ∈ ascii, c.toNat < 128) (s : List Char) :
    ∃ rest, tables.toLowercase (ascii ++ s) = ascii.map Char.toLower ++ rest := by
  have each (before : List Char) :
      ∃ rest, tables.lowerFrom before (ascii ++ s) = ascii.map Char.toLower ++ rest := by
    induction ascii generalizing before with
    | nil => exact ⟨_, rfl⟩
    | cons c ascii ih =>
        obtain ⟨rest, whole⟩ :=
          ih (fun x inside => small x (List.mem_cons_of_mem _ inside)) (c :: before)
        refine ⟨rest, ?_⟩
        rw [List.cons_append, lowerFrom, whole,
          (tables.image_lowerAt before _ c).ascii (small c (List.mem_cons_self ..))]
        rfl
  exact each []

end CaseTables

end RemoteControl.Lowercase
