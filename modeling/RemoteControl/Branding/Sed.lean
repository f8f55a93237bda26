import Mathlib.Data.List.DropRight
import Mathlib.Data.List.Infix
import RemoteControl.RustStrings

/-! # The tools of the branding script

The script edits files with `sed`, one line at a time, and looks at the result with
`grep -F`. A value gets into a substitution through `sed_escape`, which puts a backslash
before `/`, `&` and `|`, but not before a backslash.

What `sed` makes of a backslash before a letter, a digit or a line break, of an `&` and of
a delimiter within the replacement is left to the parameter `Sed`: it takes a backslash of
a value to get there.
-/

namespace RemoteControl.Branding

open RustStrings (quote backslash)

abbrev Line := List Char

/-- The characters of a text, as a list that evaluates -/
def chars (text : String) {list : List Char} (_ : text = String.ofList list := by rfl) :
    List Char := list

section Cut
variable {α : Type*} [DecidableEq α]

/-- What stands before and behind the first place where a word occurs -/
def cut (word : List α) : List α → Option (List α × List α)
  | [] => none
  | c :: rest =>
      if word.isPrefixOf (c :: rest) then some ([], (c :: rest).drop word.length)
      else (cut word rest).map fun (before, after) => (c :: before, after)

variable {word text : List α}

theorem eq_of_cut {before after : List α} (found : cut word text = some (before, after)) :
    text = before ++ word ++ after := by
  induction text generalizing before after with
  | nil => cases found
  | cons c rest ih =>
      unfold cut at found
      split at found
      case isTrue here =>
        cases found
        exact (List.prefix_iff_eq_append.mp (List.isPrefixOf_iff_prefix.mp here)).symm
      case isFalse =>
        obtain ⟨⟨before', after'⟩, found', eq⟩ := Option.map_eq_some_iff.mp found
        cases eq
        rw [ih found']
        rfl

theorem cut_eq_none (absent : ¬word <:+: text) : cut word text = none := by
  cases found : cut word text with
  | none => rfl
  | some parts =>
      have eq := eq_of_cut found
      exact absurd ⟨parts.1, parts.2, eq.symm⟩ absent

theorem not_infix_of_cut (full : word ≠ []) (absent : cut word text = none) :
    ¬word <:+: text := by
  induction text with
  | nil =>
      intro occurs
      exact full (List.infix_nil.mp occurs)
  | cons c rest ih =>
      unfold cut at absent
      split at absent
      case isTrue => cases absent
      case isFalse notHere =>
        intro occurs
        cases List.infix_cons_iff.mp occurs with
        | inl here => exact notHere (List.isPrefixOf_iff_prefix.mpr here)
        | inr later => exact ih (Option.map_eq_none_iff.mp absent) later

end Cut

/-- The regular expressions of the script -/
inductive Pattern where
  /-- A text without special characters -/
  | text (word : Line)
  /-- The text, `[^"]*` and a quotation mark -/
  | quoted (front : Line)
  /-- `^key *= *value$`, or `^key *=.*$` -/
  | setting (key : Line) (value : Option Line)
  deriving DecidableEq

/-- What stands behind the key and `=` in the line of a setting -/
def settingOf (key line : Line) : Option Line :=
  if key.isPrefixOf line then
    match (line.drop key.length).dropWhile (· = ' ') with
    | '=' :: value => some value
    | _ => none
  else none

/-- What stands before the place where the pattern is found, what is found, and what stands
    behind it -/
def Pattern.find (line : Line) : Pattern → Option (Line × Line × Line)
  | .text word => (cut word line).map fun (before, after) => (before, word, after)
  | .quoted front =>
      match cut front line with
      | none => none
      | some (before, after) =>
          if quote ∈ after then
            let content := after.takeWhile (· ≠ quote)
            some (before, front ++ content ++ [quote], after.drop (content.length + 1))
          else none
  | .setting key value =>
      match settingOf key line with
      | none => none
      | some given =>
          if value.all fun wanted => given.dropWhile (· = ' ') = wanted then some ([], line,
            []) else none

structure Command where
  pattern : Pattern
  /-- As it stands in the script, with the values in it -/
  replacement : List Char

inductive Trouble where
  /-- `sed` stops with an error. -/
  | stops
  | unclear
  deriving DecidableEq

def readReplacement : List Char → Except Trouble Line
  | [] => .ok []
  | c :: rest =>
      if c = backslash then
        match rest with
        | [] => .error .unclear
        | d :: rest =>
            if d.isAlphanum ∨ d = '\n' then .error .unclear else (readReplacement rest).map (d :: ·)
      else if c = '&' ∨ c = '|' then .error .unclear
      else if c = '\n' then .error .stops
      else (readReplacement rest).map (c :: ·)

/-- What is done to a line: at the first place where it is found, the pattern is replaced. -/
def substitute (pattern : Pattern) (replacement line : Line) : Line :=
  match pattern.find line with
  | some (before, _, after) => before ++ replacement ++ after
  | none => line

def readAll : List Command → Except Trouble (List (Pattern × Line))
  | [] => .ok []
  | command :: rest =>
      match readReplacement command.replacement, readAll rest with
      | .ok text, .ok others => .ok ((command.pattern, text) :: others)
      | .error trouble, _ => .error trouble
      | .ok _, .error trouble => .error trouble

/-- All substitutions, one after the other -/
def substituteAll (substitutions : List (Pattern × Line)) (line : Line) : Line :=
  substitutions.foldl (fun line (pattern, text) => substitute pattern text line) line

/-- What `sed` does with commands that are not clear -/
abbrev Sed := List Command → List Line → Option (List Line)

/-- `sed -i` -/
def sedInPlace (sed : Sed) (commands : List Command) (lines : List Line) : Option (List Line) :=
  match readAll commands with
  | .ok substitutions => some (lines.map (substituteAll substitutions))
  | .error .stops => none
  | .error .unclear => sed commands lines

/-- `$(...)` takes the line breaks at the end of an output away. -/
def stripNewlines (text : List Char) : List Char := text.rdropWhile (· = '\n')

/-- `s/[\/&|]/\\&/g` for a character -/
def protect (c : Char) : List Char := if c = '/' ∨ c = '&' ∨ c = '|' then [backslash, c] else [c]

def sedEscape (value : List Char) : List Char := stripNewlines (value.flatMap protect)

/-- `grep -qF`: each line of the pattern counts. -/
def grep (pattern : List Char) (lines : List Line) : Bool :=
  lines.any fun line => (pattern.splitOn '\n').any fun word => decide (word <:+: line)

/-! ## How replacements read -/

theorem readReplacement_escaped {d : Char} (literal : ¬(d.isAlphanum ∨ d = '\n')) (rest : List Char) :
    readReplacement (backslash :: d :: rest) = (readReplacement rest).map (d :: ·) := by
  rw [readReplacement.eq_def]
  simp only [if_true, if_neg literal]

theorem readReplacement_plain {c : Char} (notEscape : c ≠ backslash) (notSpecial : ¬(c = '&' ∨ c = '|'))
    (notBreak : c ≠ '\n') (rest : List Char) :
    readReplacement (c :: rest) = (readReplacement rest).map (c :: ·) := by
  rw [readReplacement.eq_def]
  simp only [if_neg notEscape, if_neg notSpecial, if_neg notBreak]

theorem readReplacement_break (rest : List Char) :
    readReplacement ('\n' :: rest) = .error .stops := by
  rw [readReplacement.eq_def]
  simp only [show '\n' ≠ backslash by decide, show ¬('\n' = '&' ∨ '\n' = '|') by decide, if_false,
    if_true]

theorem map_append (read : Except Trouble Line) (front back : Line) :
    (read.map (back ++ ·)).map (front ++ ·) = read.map (front ++ back ++ ·) := by
  cases read with
  | error trouble => rfl
  | ok text => exact congrArg Except.ok (List.append_assoc front back text).symm

theorem readReplacement_append {raw : List Char} {text : Line} (reads : readReplacement raw = .ok text)
    (rest : List Char) : readReplacement (raw ++ rest) = (readReplacement rest).map (text ++ ·) := by
  have later {c : Char} {more : List Char}
      (ih : ∀ {text : Line}, readReplacement more = .ok text →
        readReplacement (more ++ rest) = (readReplacement rest).map (text ++ ·))
      {text : Line} (eq : (readReplacement more).map (c :: ·) = .ok text) :
      (readReplacement (more ++ rest)).map (c :: ·) = (readReplacement rest).map (text ++ ·) := by
    cases read : readReplacement more with
    | error trouble => rw [read] at eq; cases eq
    | ok others =>
        rw [read] at eq
        cases eq
        rw [ih read]
        exact map_append _ [c] others
  fun_induction readReplacement raw generalizing text with
  | case1 =>
      cases reads
      rw [List.nil_append]
      cases readReplacement rest <;> rfl
  | case2 | case3 | case5 | case6 => cases reads
  | case4 d more notSpecial ih =>
      rw [List.cons_append, List.cons_append, readReplacement_escaped notSpecial]
      exact later ih reads
  | case7 c more notEscape notSpecial notBreak ih =>
      rw [List.cons_append, readReplacement_plain notEscape notSpecial notBreak]
      exact later ih reads

variable {value : List Char}

theorem stripNewlines_concat (front : List Char) (c : Char) :
    stripNewlines (front ++ [c]) = if c = '\n' then stripNewlines front else front ++ [c] := by
  unfold stripNewlines
  rw [List.rdropWhile_concat]
  simp only [decide_eq_true_eq]

theorem sedEscape_eq : sedEscape value = (stripNewlines value).flatMap protect := by
  unfold sedEscape
  induction value using List.reverseRecOn with
  | nil => rfl
  | append_singleton front c ih =>
      rw [List.flatMap_append, List.flatMap_singleton, stripNewlines_concat]
      by_cases isBreak : c = '\n'
      · rw [if_pos isBreak, isBreak, show protect '\n' = ['\n'] by decide, stripNewlines_concat,
          if_pos rfl]
        exact ih
      · rw [if_neg isBreak, List.flatMap_append, List.flatMap_singleton]
        unfold protect
        split
        case isTrue =>
          rw [show [backslash, c] = [backslash] ++ [c] by rfl, ← List.append_assoc,
            stripNewlines_concat, if_neg isBreak]
        case isFalse => rw [stripNewlines_concat, if_neg isBreak]

theorem mem_of_mem_strip {c : Char} (member : c ∈ stripNewlines value) : c ∈ value :=
  (List.rdropWhile_prefix (· = '\n') value).subset member

theorem readReplacement_flatMap {text : List Char} (plain : backslash ∉ text) (rest : List Char) :
    readReplacement (text.flatMap protect ++ rest) =
      if '\n' ∈ text then .error .stops else (readReplacement rest).map (text ++ ·) := by
  induction text with
  | nil =>
      rw [List.flatMap_nil, List.nil_append, if_neg List.not_mem_nil]
      cases readReplacement rest <;> rfl
  | cons c more ih =>
      have ⟨first, others⟩ := List.ne_and_not_mem_of_not_mem_cons plain
      rw [List.flatMap_cons, List.append_assoc, protect]
      by_cases special : c = '/' ∨ c = '&' ∨ c = '|'
      · have literal : ¬(c.isAlphanum ∨ c = '\n') := by rcases special with rfl | rfl | rfl <;> decide
        have notBreak : c ≠ '\n' := fun isBreak => literal (.inr isBreak)
        rw [if_pos special, List.cons_append, List.cons_append, List.nil_append,
          readReplacement_escaped literal, ih others]
        simp only [List.mem_cons, Ne.symm notBreak, false_or]
        split
        case isTrue => rfl
        case isFalse => exact map_append _ [c] more
      · rw [if_neg special, List.cons_append, List.nil_append]
        have notSpecial : ¬(c = '&' ∨ c = '|') := fun either => special (.inr either)
        by_cases isBreak : c = '\n'
        · rw [isBreak, readReplacement_break, if_pos (List.mem_cons_self ..)]
        · rw [readReplacement_plain (Ne.symm first) notSpecial isBreak, ih others]
          simp only [List.mem_cons, Ne.symm isBreak, false_or]
          split
          case isTrue => rfl
          case isFalse => exact map_append _ [c] more

/-- A value without a backslash comes out as it is, but for line breaks at its end; with
    another line break `sed` stops. -/
theorem readReplacement_value (plain : backslash ∉ value) {front back front' back' : List Char}
    (frontReads : readReplacement front = .ok front') (backReads : readReplacement back = .ok back') :
    readReplacement (front ++ sedEscape value ++ back) =
      if '\n' ∈ stripNewlines value then .error .stops
      else .ok (front' ++ stripNewlines value ++ back') := by
  have plain' : backslash ∉ stripNewlines value := fun member => plain (mem_of_mem_strip member)
  rw [List.append_assoc, readReplacement_append frontReads, sedEscape_eq,
    readReplacement_flatMap plain', backReads]
  split
  case isTrue => rfl
  case isFalse => exact congrArg Except.ok (List.append_assoc ..).symm

end RemoteControl.Branding
