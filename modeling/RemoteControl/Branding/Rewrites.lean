import RemoteControl.Branding.Script

/-! # What the substitutions do

For values that keep out of the language of `sed` the passes of the script are functions on
lines: `rewriteAll` says what becomes of a line, and `patch_eq_some_iff` when `sed` and the
checks after it let the script go on.
-/

namespace RemoteControl.Branding

open RustStrings (quote backslash)

section Find
variable {line : Line} {pattern : Pattern} {word : Line}

theorem find_text_eq_none (absent : ¬word <:+: line) : (Pattern.text word).find line = none := by
  rw [Pattern.find, cut_eq_none absent]
  rfl

theorem not_infix_of_find (full : word ≠ []) (absent : (Pattern.text word).find line = none) :
    ¬word <:+: line :=
  not_infix_of_cut full (Option.map_eq_none_iff.mp absent)

theorem eq_upTo {c : Char} {text : List Char} (member : c ∈ text) :
    text = text.takeWhile (· ≠ c) ++ c :: text.drop ((text.takeWhile (· ≠ c)).length + 1) := by
  induction text with
  | nil => cases member
  | cons d rest ih =>
      by_cases here : d = c
      · subst here
        simp
      · have later := (List.mem_cons.mp member).resolve_left (Ne.symm here)
        have first : (d :: rest).takeWhile (· ≠ c) = d :: rest.takeWhile (· ≠ c) := by simp [here]
        rw [first, List.length_cons, List.drop_succ_cons, List.cons_append, ← ih later]

theorem eq_of_find {before found after : Line}
    (finds : pattern.find line = some (before, found, after)) :
    line = before ++ found ++ after := by
  cases pattern with
  | text word =>
      obtain ⟨parts, here, eq⟩ := Option.map_eq_some_iff.mp finds
      cases eq
      exact eq_of_cut here
  | quoted front =>
      rw [Pattern.find] at finds
      split at finds
      case h_1 => cases finds
      case h_2 rest here =>
        split at finds
        case isFalse => cases finds
        case isTrue member =>
          cases finds
          have parts := eq_upTo member
          simp only [List.append_assoc, List.singleton_append] at parts ⊢
          rw [← parts, ← List.append_assoc]
          exact eq_of_cut here
  | setting key value =>
      rw [Pattern.find] at finds
      split at finds
      case h_1 => cases finds
      case h_2 =>
        split at finds
        case isFalse => cases finds
        case isTrue =>
          cases finds
          rw [List.nil_append, List.append_nil]

theorem substitute_of_none {text : Line} (absent : pattern.find line = none) :
    substitute pattern text line = line := by
  rw [substitute, absent]

theorem mem_substitute {text : Line} {c : Char} (member : c ∈ substitute pattern text line) :
    c ∈ line ∨ c ∈ text := by
  rw [substitute] at member
  split at member
  case h_1 before found after finds =>
    rw [eq_of_find finds]
    simp only [List.mem_append] at member ⊢
    tauto
  case h_2 => exact .inl member

end Find

section Pass
variable {env : Env} {rewrites : List Rewrite} {line : Line}

def Rewrite.apply (env : Env) (line : Line) (r : Rewrite) : Line :=
  substitute r.pattern (r.text env) line

def rewriteAll (env : Env) (rewrites : List Rewrite) (line : Line) : Line :=
  rewrites.foldl (Rewrite.apply env) line

/-- No value takes a substitution into the language of `sed`. -/
def Clear (env : Env) (rewrites : List Rewrite) : Prop :=
  ∀ r ∈ rewrites, readReplacement (r.command env).replacement ≠ .error .unclear

/-- `sed` reads all substitutions. -/
def Reads (env : Env) (rewrites : List Rewrite) : Prop :=
  ∀ r ∈ rewrites, readReplacement (r.command env).replacement = .ok (r.text env)

instance : Decidable (Reads env rewrites) := List.decidableBAll _ _

/-- No value in the substitutions has a backslash. -/
def Plain (env : Env) (rewrites : List Rewrite) : Prop := ∀ r ∈ rewrites, backslash ∉ r.value env

/-- No value in the substitutions has a line break, but for the end. -/
def OneLine (env : Env) (rewrites : List Rewrite) : Prop :=
  ∀ r ∈ rewrites, '\n' ∉ stripNewlines (r.value env)

theorem rewriteAll_append (front back : List Rewrite) :
    rewriteAll env (front ++ back) line = rewriteAll env back (rewriteAll env front line) :=
  List.foldl_append ..

theorem rewriteAll_of_fixed (fixed : ∀ r ∈ rewrites, r.apply env line = line) :
    rewriteAll env rewrites line = line := by
  induction rewrites with
  | nil => rfl
  | cons r rest ih =>
      rw [rewriteAll, List.foldl_cons, fixed r (List.mem_cons_self ..)]
      exact ih fun r' member => fixed r' (List.mem_cons_of_mem r member)

theorem rewriteAll_of_untouched (untouched : ∀ r ∈ rewrites, r.pattern.find line = none) :
    rewriteAll env rewrites line = line :=
  rewriteAll_of_fixed fun r member => substitute_of_none (untouched r member)

theorem mem_rewriteAll {c : Char} (member : c ∈ rewriteAll env rewrites line) :
    c ∈ line ∨ ∃ r ∈ rewrites, c ∈ r.text env := by
  induction rewrites generalizing line with
  | nil => exact .inl member
  | cons r rest ih =>
      cases ih member with
      | inl first =>
          cases mem_substitute first with
          | inl before => exact .inl before
          | inr inserted => exact .inr ⟨r, List.mem_cons_self .., inserted⟩
      | inr later =>
          have ⟨r', member', inserted⟩ := later
          exact .inr ⟨r', List.mem_cons_of_mem r member', inserted⟩

theorem readReplacement_command {r : Rewrite} (plain : backslash ∉ r.value env) :
    readReplacement (r.command env).replacement =
      if '\n' ∈ stripNewlines (r.value env) then .error .stops
      else .ok (literal r.front ++ stripNewlines (r.value env) ++ literal r.back) :=
  readReplacement_value plain r.frontReads r.backReads

theorem clear_of_plain (plain : Plain env rewrites) : Clear env rewrites := by
  intro r member
  rw [readReplacement_command (plain r member)]
  split <;> nofun

theorem oneLine_of_reads (plain : Plain env rewrites) (reads : Reads env rewrites) :
    OneLine env rewrites := by
  intro r member breaks
  have read := reads r member
  rw [readReplacement_command (plain r member), if_pos breaks] at read
  cases read

/-- A value of one line without a backslash comes out as it is. -/
theorem text_eq {r : Rewrite} (plain : backslash ∉ r.value env)
    (oneLine : '\n' ∉ stripNewlines (r.value env)) :
    r.text env = literal r.front ++ stripNewlines (r.value env) ++ literal r.back := by
  have read := readReplacement_command plain
  rw [if_neg oneLine] at read
  rw [Rewrite.text, literal, read]
  rfl

theorem readAll_commands (clear : Clear env rewrites) :
    readAll (rewrites.map (Rewrite.command env)) =
      if Reads env rewrites then .ok
        (rewrites.map fun r => (r.pattern, r.text env)) else .error .stops := by
  induction rewrites with
  | nil => rfl
  | cons r rest ih =>
      have others := ih fun r' member => clear r' (List.mem_cons_of_mem r member)
      have both :
          Reads env (r :: rest) ↔ readReplacement (r.command env).replacement = .ok (r.text env) ∧
          Reads env rest := List.forall_mem_cons
      rw [List.map_cons, readAll, others]
      simp only [both]
      cases read : readReplacement (r.command env).replacement with
      | error trouble =>
          cases trouble with
          | stops => simp only [reduceCtorEq, false_and, if_false]
          | unclear => exact absurd read (clear r (List.mem_cons_self ..))
      | ok text =>
          have own : r.text env = text := by
            rw [Rewrite.text, literal, read]
            rfl
          by_cases more : Reads env rest
          · simp only [own, more, and_self, if_true, List.map_cons]
            rfl
          · simp only [more, and_false, if_false]

theorem sedInPlace_clear (clear : Clear env rewrites) (sed : Sed) (lines : List Line) :
    sedInPlace sed (rewrites.map (Rewrite.command env)) lines =
      if Reads env rewrites then some (lines.map (rewriteAll env rewrites)) else none := by
  rw [sedInPlace, readAll_commands clear]
  split
  case h_1 substitutions eq =>
    split at eq
    case isTrue reads =>
      cases eq
      rw [if_pos reads]
      congr 2
      funext line
      rw [substituteAll, List.foldl_map]
      rfl
    case isFalse => cases eq
  case h_2 eq =>
    split at eq
    case isTrue => cases eq
    case isFalse breaks => rw [if_neg breaks]
  case h_3 eq => split at eq <;> cases eq

/-- A pass goes well if `sed` reads the substitutions and the checks hold of the rewritten lines. -/
theorem patch_eq_some_iff (clear : Clear env rewrites) {sed : Sed} {check : List Line → Bool}
    {lines lines' : List Line} :
    patch sed env rewrites check lines = some lines' ↔
      Reads env rewrites ∧ lines' = lines.map (rewriteAll env rewrites) ∧ check lines' = true := by
  rw [patch, sedInPlace_clear clear]
  split
  case isTrue reads =>
    rw [Option.filter_eq_some_iff, Option.some.injEq]
    exact ⟨fun ⟨eq, checked⟩ => ⟨reads, eq.symm, checked⟩, fun ⟨_, eq, checked⟩ => ⟨eq.symm, checked⟩⟩
  case isFalse breaks =>
    constructor
    · intro eq
      cases eq
    · intro ⟨reads, _⟩
      exact absurd reads breaks

end Pass

section Line
variable {env : Env} {r : Rewrite} {line : Line}

/-- Without a line break in front of its end, a value is one line. -/
theorem stripNewlines_eq {value : List Char} (oneLine : '\n' ∉ value) :
    stripNewlines value = value := by
  rw [stripNewlines, List.rdropWhile_eq_self_iff]
  intro full isBreak
  exact oneLine (of_decide_eq_true isBreak ▸ List.getLast_mem full)

theorem apply_of_find (front back : Line) {before found after : Line}
    (noEscape : backslash ∉ r.value env)
    (oneLine : '\n' ∉ r.value env) (finds : r.pattern.find line = some (before, found, after))
    (begins : before ++ literal r.front = front) (ends : literal r.back ++ after = back) :
    r.apply env line = front ++ r.value env ++ back := by
  have whole := stripNewlines_eq oneLine
  rw [Rewrite.apply, substitute, finds, ← begins, ← ends, text_eq noEscape (whole.symm ▸ oneLine),
    whole]
  simp only [List.append_assoc]

/-- A text with one quoted word in it is found in a line with one quoted word in it only where
    that stands. -/
theorem eq_of_infix_quoted {front value back before word after : Line}
    (frontPlain : quote ∉ front) (valuePlain : quote ∉ value) (backPlain : quote ∉ back)
    (wordPlain : quote ∉ word)
    (occurs : before ++ quoted word ++ after <:+: front ++ quoted value ++ back) :
    word = value ∧ before <:+ front ∧ after <+: back := by
  apply RustStrings.eq_of_infix frontPlain valuePlain backPlain wordPlain
  simpa [quoted] using occurs

end Line

/-- Letters, digits, dots and hyphens -/
def Ordinary (text : List Char) : Prop := ∀ c ∈ text, c.isAlphanum = true ∨ c = '.' ∨ c = '-'

variable {text : List Char} {c : Char}

theorem Ordinary.not_mem (ordinary : Ordinary text)
    (special : (c.isAlphanum || c = '.' || c = '-') = false) : c ∉ text := by
  intro member
  have := ordinary c member
  simp_all

theorem mem_identifier {first other : Char → Bool}
    (identifies : Env.identifier first other text = true) (member : c ∈ text) :
    first c = true ∨ other c = true := by
  cases text with
  | nil => cases member
  | cons d rest =>
      have ⟨begins, others⟩ := (Bool.and_eq_true _ _).mp identifies
      cases List.mem_cons.mp member with
      | inl here => exact .inl (here ▸ begins)
      | inr later => exact .inr (List.all_eq_true.mp others c later)

theorem mem_splitOn {separator : Char} (member : c ∈ text) :
    c = separator ∨ ∃ part ∈ text.splitOn separator, c ∈ part := by
  induction text with
  | nil => cases member
  | cons d rest ih =>
      rw [List.splitOn_cons_eq_if_modifyHead]
      split
      case isTrue here =>
        cases List.mem_cons.mp member with
        | inl same => exact .inl (same.trans (eq_of_beq here))
        | inr later =>
            exact (ih later).imp_right fun ⟨part, among, inside⟩ =>
              ⟨part, List.mem_cons_of_mem _ among, inside⟩
      case isFalse =>
        cases parts : rest.splitOn separator with
        | nil => exact absurd parts (List.splitOn_ne_nil separator rest)
        | cons part others =>
            rw [parts] at ih
            rw [List.modifyHead_cons]
            cases List.mem_cons.mp member with
            | inl same => exact .inr ⟨d :: part, List.mem_cons_self .., same ▸ List.mem_cons_self ..⟩
            | inr later =>
                cases ih later with
                | inl isSeparator => exact .inl isSeparator
                | inr inPart =>
                    have ⟨part', among, inside⟩ := inPart
                    cases List.mem_cons.mp among with
                    | inl first =>
                        exact .inr ⟨d :: part, List.mem_cons_self ..,
                          List.mem_cons_of_mem d (first ▸ inside)⟩
                    | inr other => exact .inr ⟨part', List.mem_cons_of_mem _ other, inside⟩

theorem mem_dotted {first other : Char → Bool} (dotted : Env.dotted first other text = true)
    (member : c ∈ text) : c = '.' ∨ first c = true ∨ other c = true := by
  have parts := List.all_eq_true.mp ((Bool.and_eq_true _ _).mp dotted).2
  exact (mem_splitOn member).imp_right fun ⟨part, among, inside⟩ =>
    mem_identifier (parts part among) inside

theorem ordinary_of_accepted {env : Env} (accepted : env.accepted = true) :
    Ordinary env.brandAppName ∧ Ordinary env.brandOrg ∧ Ordinary env.brandAndroidAppId ∧
      Ordinary env.brandMacosBundleId := by
  simp only [Env.accepted, Bool.and_eq_true] at accepted
  obtain ⟨⟨⟨⟨⟨⟨⟨_, appName⟩, org⟩, android⟩, macos⟩, _⟩, _⟩, _⟩ := accepted
  have lower {c : Char} (isLower : c.isLower = true) : c.isAlphanum = true := by
    have letter : c.isAlpha = true := by
      show (c.isUpper || c.isLower) = true
      rw [isLower, Bool.or_true]
    simp [Char.isAlphanum, letter]
  have digit {c : Char} (isDigit : c.isDigit = true) : c.isAlphanum = true := by
    simp [Char.isAlphanum, isDigit]
  have alpha {c : Char} (isAlpha : c.isAlpha = true) : c.isAlphanum = true := by
    simp [Char.isAlphanum, isAlpha]
  have reverseDns {text : List Char}
      (dotted : Env.dotted Char.isLower (fun c => c.isLower || c.isDigit) text =
        true) : Ordinary text := by
    intro c member
    rcases mem_dotted dotted member with isDot | isLower | either
    · exact .inr (.inl isDot)
    · exact .inl (lower isLower)
    · exact .inl (((Bool.or_eq_true _ _).mp either).elim lower digit)
  refine ⟨fun c member => .inl ((mem_identifier appName member).elim alpha id), reverseDns org,
    reverseDns android, fun c member => ?_⟩
  rcases mem_dotted macos member with isDot | isAlpha | either
  · exact .inr (.inl isDot)
  · exact .inl (alpha isAlpha)
  · cases (Bool.or_eq_true _ _).mp either with
    | inl letter => exact .inl letter
    | inr hyphen => exact .inr (.inr (of_decide_eq_true hyphen))

section Files
variable {sed : Sed} {m : Module} {env : Env} {tree tree' : Tree}

variable (done : applyBranding sed m env tree = some tree')

include done

theorem accepted_of_done : env.accepted = true := by
  rw [applyBranding] at done
  split at done
  case isTrue accepted => exact accepted
  case isFalse => cases done

theorem runFile_of_done (file : File) :
    Passes.runFile (Passes.passesOf file (script sed m env)) (tree file) = some (tree' file) := by
  rw [applyBranding, if_pos (accepted_of_done done)] at done
  exact Passes.run_eq_some_iff.mp done file

theorem common_of_done :
    patchApi sed env (tree .commonRs) = some (tree' .commonRs) := by
  simpa [Passes.passesOf, script, Passes.runFile] using runFile_of_done done .commonRs

theorem config_of_done :
    ∃ patched branded, patchEndpoints sed env (tree .configRs) = some patched ∧
      patchIdentity sed env patched = some branded ∧
        appendAnchor env branded = some (tree' .configRs) := by
  have whole := runFile_of_done done .configRs
  simp only [Passes.passesOf, script] at whole
  simpa [Passes.runFile, Option.bind_eq_some_iff] using whole

theorem server_of_done :
    ∃ called appended,
      insertCall (tree .serverRs) = some called ∧ appendModule m called = some appended ∧
      patchSentinels sed env appended = some (tree' .serverRs) := by
  have whole := runFile_of_done done .serverRs
  simp only [Passes.passesOf, script] at whole
  simpa [Passes.runFile, Option.bind_eq_some_iff] using whole

end Files

variable {m : Module} {tree : Tree} {called appended : List Line} {lines : List Line} {line : Line}

theorem contains_eq_false {word : Line} (absent : ∀ line ∈ lines, ¬word <:+: line) :
    contains lines word = false :=
  List.any_eq_false.mpr fun line member isIn => absent line member (of_decide_eq_true isIn)

/-- In the unbranded file the call is inserted. -/
theorem insertCall_of_pinned (pinned : Pinned m tree)
    (inserted : insertCall (tree .serverRs) = some called) :
    ∃ before after, tree .serverRs = before ++ (startAllFront ++ startAllBack) ++ after ∧
      called = before ++ (startAllFront ++ bootstrapCall :: startAllBack) ++ after := by
  have part : bootstrapName <:+: (chars "fleet_register_bootstrap();") := by decide
  have absent : contains (tree .serverRs) (chars "fleet_register_bootstrap();") = false :=
    contains_eq_false fun line member isIn =>
      pinned.noBootstrap line (List.mem_append_left _ member) (part.trans isIn)
  rw [insertCall, absent, if_neg Bool.false_ne_true, Option.map_eq_some_iff] at inserted
  obtain ⟨⟨before, after⟩, found, eq⟩ := inserted
  exact ⟨before, after, eq_of_cut found, eq.symm⟩

theorem mem_called (pinned : Pinned m tree) (inserted : insertCall (tree .serverRs) = some called)
    (member : line ∈ called) : line ∈ tree .serverRs ∨ line = bootstrapCall := by
  obtain ⟨before, after, eq, rfl⟩ := insertCall_of_pinned pinned inserted
  rw [eq]
  simp only [List.mem_append, List.mem_cons] at member ⊢
  tauto

/-- In the unbranded file the module is appended. -/
theorem appendModule_of_pinned (pinned : Pinned m tree)
    (inserted : insertCall (tree .serverRs) = some called)
    (made : appendModule m called = some appended) : appended = rstrip called ++ [] :: m.lines := by
  have part : bootstrapName <:+: (chars "fn fleet_register_bootstrap()") := by decide
  have absent : contains called (chars "fn fleet_register_bootstrap()") = false := by
    apply contains_eq_false
    intro line member isIn
    cases mem_called pinned inserted member with
    | inl old => exact pinned.noBootstrap line (List.mem_append_left _ old) (part.trans isIn)
    | inr call =>
        subst call
        exact absurd isIn (by decide)
  rw [appendModule, absent, if_neg Bool.false_ne_true, Option.some.injEq] at made
  exact made.symm

theorem mem_rstrip (member : line ∈ rstrip lines) :
    line = [] ∨ ∃ whole ∈ lines, line <+: whole := by
  have kept := List.rdropWhile_prefix (fun line : Line => line.all Char.isWhitespace) lines
  rw [rstrip] at member
  split at member
  case h_1 => exact .inl (List.mem_singleton.mp member)
  case h_2 first rest eq =>
    rw [eq] at kept
    cases List.mem_append.mp member with
    | inl before =>
        exact .inr ⟨line, kept.subset (List.dropLast_subset _ before), List.prefix_rfl⟩
    | inr last =>
        rw [List.mem_singleton.mp last]
        exact .inr ⟨_, kept.subset (List.getLast_mem _), List.rdropWhile_prefix ..⟩

end RemoteControl.Branding
