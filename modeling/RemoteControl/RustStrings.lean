import Mathlib.Data.List.Basic

/-! # String literals of Rust

What the compiler reads behind the opening quotation mark of a string literal that ends on
its line. A carriage return may not stand in a literal, and no backslash may stand in it that
does not begin one of the escapes.
-/

namespace RemoteControl.RustStrings

def quote : Char := Char.ofNat 34

def backslash : Char := Char.ofNat 92

/-- Where in a literal the reader is -/
inductive Reading where
  | text
  /-- Behind a backslash -/
  | escape
  /-- Behind `\x`, with the first digit when there is one -/
  | byte (high : Option Nat)
  /-- Behind `\u` -/
  | code
  /-- Behind `\u` and an opening brace, with what the digits say and how many they are -/
  | digits (value count : Nat)

def hexDigit (c : Char) : Option Nat :=
  if c.isDigit then some (c.toNat - 48)
  else if 'a' ≤ c ∧ c ≤ 'f' then some (c.toNat - 87)
  else if 'A' ≤ c ∧ c ≤ 'F' then some (c.toNat - 55)
  else none

/-- The escapes of one character -/
def unescape (c : Char) : Option Char :=
  if c = 'n' then some '\n'
  else if c = 'r' then some '\r'
  else if c = 't' then some '\t'
  else if c = '0' then some (Char.ofNat 0)
  else if c = backslash ∨ c = quote ∨ c = Char.ofNat 39 then some c
  else none

def push (c : Char) (rest : Option (List Char × List Char)) : Option (List Char × List Char) :=
  rest.map fun (content, after) => (c :: content, after)

/-- What the literal denotes, and what stands behind it -/
def readString : Reading → List Char → Option (List Char × List Char)
  | _, [] => none
  | .text, c :: rest =>
      if c = quote then some ([], rest)
      else if c = backslash then readString .escape rest
      else if c = '\r' then none
      else push c (readString .text rest)
  | .escape, c :: rest =>
      if c = 'x' then readString (.byte none) rest
      else if c = 'u' then readString .code rest
      else
        match unescape c with
        | some d => push d (readString .text rest)
        | none => none
  | .byte none, c :: rest =>
      match hexDigit c with
      | some high => if high < 8 then readString (.byte (some high)) rest else none
      | none => none
  | .byte (some high), c :: rest =>
      match hexDigit c with
      | some low => push (Char.ofNat (16 * high + low)) (readString .text rest)
      | none => none
  | .code, c :: rest => if c = Char.ofNat 123 then readString (.digits 0 0) rest else none
  | .digits value count, c :: rest =>
      if c = Char.ofNat 125 then
        if 0 < count ∧ count ≤ 6 ∧ value.isValidChar then push (Char.ofNat value)
          (readString .text rest)
        else none
      else if c = '_' then if 0 < count then readString (.digits value count) rest else none
      else
        match hexDigit c with
        | some digit => readString (.digits (16 * value + digit) (count + 1)) rest
        | none => none

/-- A raw literal, behind `r` and the quotation mark -/
def readRaw (text : List Char) : Option (List Char) :=
  let content := text.takeWhile (· ≠ quote)
  if quote ∈ text ∧ '\r' ∉ content then some content else none

/-- What stands behind the front of a line -/
def behind (front line : List Char) : Option (List Char) :=
  if front.isPrefixOf line then some (line.drop front.length) else none

/-- What the literal denotes that begins behind the front of a line -/
def literalBehind (front line : List Char) : Option (List Char) :=
  ((behind (front ++ [quote]) line).bind (readString .text)).map Prod.fst

def rawBehind (front line : List Char) : Option (List Char) :=
  (behind (front ++ [quote]) line).bind readRaw

/-! ## Texts without a backslash -/

/-- Without a backslash a literal is what it looks like. -/
theorem readString_plain {text content after : List Char} (plain : backslash ∉ text) :
    readString .text text = some (content, after) ↔
      text = content ++ quote :: after ∧ quote ∉ content ∧ '\r' ∉ content := by
  induction text generalizing content with
  | nil => simp [readString]
  | cons c rest ih =>
      have ⟨notEscape, others⟩ := List.ne_and_not_mem_of_not_mem_cons plain
      rw [readString]
      split
      case isTrue closes =>
        constructor
        · intro read
          cases read
          exact ⟨by rw [closes]; rfl, List.not_mem_nil, List.not_mem_nil⟩
        · intro ⟨eq, inside, _⟩
          cases content with
          | nil => rw [(List.cons.inj eq).2]
          | cons d more =>
              have first := (List.cons.inj eq).1
              exact absurd (List.mem_cons.mpr (.inl (closes.symm.trans first))) inside
      case isFalse goesOn =>
        rw [if_neg (Ne.symm notEscape)]
        split
        case isTrue bare =>
          constructor
          · intro read
            cases read
          · intro ⟨eq, _, noReturn⟩
            cases content with
            | nil => exact absurd (List.cons.inj eq).1 goesOn
            | cons d more =>
                have first := (List.cons.inj eq).1
                exact absurd (List.mem_cons.mpr (.inl (bare.symm.trans first))) noReturn
        case isFalse notReturn =>
          rw [push, Option.map_eq_some_iff]
          constructor
          · intro ⟨⟨more, after'⟩, read, eq⟩
            cases eq
            obtain ⟨rfl, inside, noReturn⟩ := (ih others).mp read
            exact ⟨rfl, List.not_mem_cons_of_ne_of_not_mem (Ne.symm goesOn) inside,
              List.not_mem_cons_of_ne_of_not_mem (Ne.symm notReturn) noReturn⟩
          · intro ⟨eq, inside, noReturn⟩
            cases content with
            | nil => exact absurd (List.cons.inj eq).1 goesOn
            | cons d more =>
                obtain ⟨rfl, rfl⟩ := List.cons.inj eq
                exact ⟨(more, after),
                  (ih others).mpr ⟨rfl, (List.ne_and_not_mem_of_not_mem_cons inside).2,
                  (List.ne_and_not_mem_of_not_mem_cons noReturn).2⟩, rfl⟩

theorem behind_append (front text : List Char) : behind front (front ++ text) = some text := by
  rw [behind, if_pos (List.isPrefixOf_iff_prefix.mpr (List.prefix_append front text)), List.drop_left]

theorem behind_eq_some_iff {front line text : List Char} :
    behind front line = some text ↔ line = front ++ text := by
  constructor
  · intro eq
    rw [behind] at eq
    split at eq
    case isTrue here =>
      cases eq
      exact List.prefix_iff_eq_append.mp (List.isPrefixOf_iff_prefix.mp here) |>.symm
    case isFalse => cases eq
  · rintro rfl
    exact behind_append front text

/-- Without a backslash in its line, a literal is what stands before the next quotation mark. -/
theorem literalBehind_plain {front line value : List Char} (plain : backslash ∉ line) :
    literalBehind front line = some value ↔
      (∃ after, line = front ++ quote :: value ++ quote :: after) ∧ quote ∉ value ∧ '\r' ∉ value := by
  rw [literalBehind, Option.map_eq_some_iff]
  constructor
  · intro ⟨⟨content, after⟩, read, eq⟩
    cases eq
    obtain ⟨text, begins, read⟩ := Option.bind_eq_some_iff.mp read
    have eq := behind_eq_some_iff.mp begins
    have plain' : backslash ∉ text := fun member => plain (eq ▸ List.mem_append_right _ member)
    obtain ⟨rfl, inside, noReturn⟩ := (readString_plain plain').mp read
    exact ⟨⟨after, by rw [eq]; simp⟩, inside, noReturn⟩
  · intro ⟨⟨after, eq⟩, inside, noReturn⟩
    have eq' : line = (front ++ [quote]) ++ (value ++ quote :: after) := by rw [eq]; simp
    have plain' : backslash ∉ value ++ quote :: after :=
      fun member => plain (eq' ▸ List.mem_append_right _ member)
    refine ⟨(value, after), ?_, rfl⟩
    rw [eq', behind_append, Option.bind_some]
    exact (readString_plain plain').mpr ⟨rfl, inside, noReturn⟩

theorem rawBehind_append {front value after : List Char} (inside : quote ∉ value)
    (noReturn : '\r' ∉ value) :
    rawBehind front (front ++ quote :: value ++ quote :: after) = some value := by
  have eq : front ++ quote :: value ++ quote :: after =
      (front ++ [quote]) ++ (value ++ quote :: after) := by simp
  have content : (value ++ quote :: after).takeWhile (· ≠ quote) = value := by
    rw [List.takeWhile_append_of_pos]
    · simp
    · intro c member
      exact decide_eq_true fun isQuote => inside (isQuote ▸ member)
  rw [rawBehind, eq, behind_append, Option.bind_some, readRaw, content,
    if_pos ⟨List.mem_append_right _ (List.mem_cons_self ..), noReturn⟩]

theorem eq_of_first_mark {front front' rest rest' : List Char} (plain : quote ∉ front)
    (plain' : quote ∉ front')
    (eq : front ++ quote :: rest = front' ++ quote :: rest') : front = front' ∧ rest = rest' := by
  induction front generalizing front' with
  | nil =>
      cases front' with
      | nil => exact ⟨rfl, (List.cons.inj eq).2⟩
      | cons c more => exact absurd (List.mem_cons.mpr (.inl (List.cons.inj eq).1)) plain'
  | cons c more ih =>
      cases front' with
      | nil => exact absurd (List.mem_cons.mpr (.inl (List.cons.inj eq).1.symm)) plain
      | cons d more' =>
          obtain ⟨rfl, eq'⟩ := List.cons.inj eq
          obtain ⟨rfl, same⟩ := ih (List.ne_and_not_mem_of_not_mem_cons plain).2
            (List.ne_and_not_mem_of_not_mem_cons plain').2 eq'
          exact ⟨rfl, same⟩

/-- A word between quotation marks is found in a text with two of them only where these are. -/
theorem eq_of_infix {front value back before word after : List Char}
    (frontPlain : quote ∉ front) (valuePlain : quote ∉ value) (backPlain : quote ∉ back)
    (wordPlain : quote ∉ word)
    (occurs : before ++ quote :: word ++ quote :: after <:+: front ++ quote :: value ++ quote :: back) :
    word = value ∧ before <:+ front ∧ after <+: back := by
  obtain ⟨left, right, eq⟩ := occurs
  have marks := congrArg (List.count quote) eq
  simp only [List.count_append, List.count_cons_self, List.count_eq_zero_of_not_mem frontPlain,
    List.count_eq_zero_of_not_mem valuePlain, List.count_eq_zero_of_not_mem backPlain,
    List.count_eq_zero_of_not_mem wordPlain] at marks
  have noMark : quote ∉ left ++ before := by
    rw [← List.count_eq_zero, List.count_append]
    omega
  have eq' : (left ++ before) ++ quote :: (word ++ quote :: (after ++ right)) =
      front ++ quote :: (value ++ quote :: back) := by simpa using eq
  obtain ⟨begins, eq''⟩ := eq_of_first_mark noMark frontPlain eq'
  obtain ⟨same, ends⟩ := eq_of_first_mark wordPlain valuePlain eq''
  exact ⟨same, ⟨left, begins⟩, ⟨right, ends⟩⟩

end RemoteControl.RustStrings
