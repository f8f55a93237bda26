import RemoteControl.Branding.Rewrites

/-! # Literals of a branded tree

The values are put between quotation marks as they are, with a view to `sed` only. Whether
the compiler reads them back depends on the values: a quotation mark ends the literal, a
backslash begins an escape, and a value that is itself one of the later placeholders of
`server.rs` is replaced again.
-/

namespace RemoteControl.Branding

open RustStrings (quote backslash literalBehind rawBehind)

/-- What the script makes of a value when it replaces these placeholders one after the other -/
def replacedBy (env : Env) (later : List (Line × (Env → List Char))) (value : Line) : Line :=
  later.foldl
    (fun line (placeholder, other) =>
    if line = placeholder then stripNewlines (other env) else line) value

/-- The later placeholders do not change what the literal begins with. -/
def Keeps (env : Env) (later : List (Line × (Env → List Char))) (value : Line) : Prop :=
  (replacedBy env later value).takeWhile (· ≠ quote) = value

/-- The values that become literals -/
def Env.literals (env : Env) : List (List Char) :=
  [env.rendezvousServer, env.rsPubKey, env.apiServer, env.brandFleetUser, env.brandFleetPassword]

/-- No value reaches the language of `sed`. -/
def Env.Escaped (env : Env) : Prop := ∀ value ∈ env.releaseTag :: env.literals, backslash ∉ value

/-- The values that come out as they go in -/
structure Env.Literal (env : Env) : Prop where
  escaped : env.Escaped
  plain : ∀ value ∈ env.literals, quote ∉ value ∧ '\r' ∉ value ∧ '\n' ∉ value
  fleetApiBase : Keeps env (placeholders.drop 1) env.fleetApiBase
  fleetUser : Keeps env (placeholders.drop 2) env.brandFleetUser
  fleetPassword : Keeps env (placeholders.drop 3) env.brandFleetPassword

/-- Where the line stood, there is one with a literal for the value behind its front. -/
def Denotes (lines lines' : List Line) (old front : Line) (value : List Char) : Prop :=
  ∀ i : Nat, lines[i]? = some old → ∃ line,
    lines'[i]? = some line ∧ literalBehind front line = some value

/-- The literals behind a front, in all lines that begin with it -/
def literalsBehind (front : Line) (lines : List Line) : List (Option (List Char)) :=
  (lines.filter (front.isPrefixOf ·)).map (literalBehind front)

/-- The compiler reads the values. -/
structure Exact (env : Env) (tree tree' : Tree) : Prop where
  rendezvousServer : Denotes (tree .configRs) (tree' .configRs)
    (rendezvousLine upstreamServer) rendezvousFront
    env.rendezvousServer
  rsPubKey : Denotes (tree .configRs) (tree' .configRs)
    (rsPubKeyLine upstreamKey) rsPubKeyFront env.rsPubKey
  anchor : ∀ before rest, tree' .configRs = before ++ anchorStatic :: rest →
    (rest.take 4).map (rawBehind (chars "    r")) =
      (anchorValues env).map some
  apiServer : Denotes (tree .commonRs) (tree' .commonRs) (apiLine upstreamApi)
    (chars "    ") env.apiServer
  fleetApiBase : literalsBehind fleetApiBaseConst (tree' .serverRs) = [some env.fleetApiBase]
  fleetUser : literalsBehind fleetUserConst (tree' .serverRs) = [some env.brandFleetUser]
  fleetPassword : literalsBehind fleetPasswordConst (tree' .serverRs) = [some env.brandFleetPassword]

/-! ## Plain lines -/

section Plain
variable {env : Env} {rewrites : List Rewrite} {c : Char}

theorem literal_front_plain (file : File) :
    ∀ r ∈ rewritesOf file, ∀ c ∈ [backslash, '\n'], c ∉ literal r.front ∧ c ∉ literal r.back := by
  have both : ∀ r ∈ rewritesOf file,
      (backslash ∉ literal r.front ∧ backslash ∉ literal r.back) ∧
        '\n' ∉ literal r.front ∧ '\n' ∉ literal r.back := by
    cases file <;> decide
  intro r member
  rw [List.forall_mem_cons, List.forall_mem_singleton]
  exact both r member

variable {file : File}

/-- Values without a backslash bring neither a backslash nor a line break. -/
theorem not_mem_text {r : Rewrite} (member : r ∈ rewritesOf file)
    (plain : backslash ∉ r.value env) (oneLine : '\n' ∉ stripNewlines (r.value env))
    (special : c ∈ [backslash, '\n']) : c ∉ r.text env := by
  have ⟨front, back⟩ := literal_front_plain file r member c special
  have value : c ∉ stripNewlines (r.value env) := by
    rcases List.mem_cons.mp special with rfl | last
    · exact fun isIn => plain (mem_of_mem_strip isIn)
    · rw [List.mem_singleton.mp last]
      exact oneLine
  rw [text_eq plain oneLine]
  simp only [List.mem_append, not_or]
  exact ⟨⟨front, value⟩, back⟩

theorem not_mem_rewriteAll (part : ∀ r ∈ rewrites, r ∈ rewritesOf file)
    (plain : Plain env rewrites) (oneLine : OneLine env rewrites) {line : Line}
    (special : c ∈ [backslash, '\n']) (absent : c ∉ line) : c ∉ rewriteAll env rewrites line := by
  intro member
  cases mem_rewriteAll member with
  | inl before => exact absent before
  | inr inserted =>
      have ⟨r, among, isIn⟩ := inserted
      exact not_mem_text (part r among) (plain r among) (oneLine r among) special isIn

variable {front : Line}

/-- A literal in a rewritten line has nothing in it that the compiler would not read as it stands. -/
theorem plain_of_literal (part : ∀ r ∈ rewrites, r ∈ rewritesOf file) (plain : Plain env rewrites)
    (oneLine : OneLine env rewrites) {line : Line} {value : List Char}
    (clean : backslash ∉ line ∧ '\n' ∉ line)
    (reads : literalBehind front (rewriteAll env rewrites line) = some value) :
    quote ∉ value ∧ '\r' ∉ value ∧ '\n' ∉ value := by
  have noEscape := not_mem_rewriteAll part plain oneLine (List.mem_cons_self ..) clean.1
  have noBreak : '\n' ∉ rewriteAll env rewrites line :=
    not_mem_rewriteAll part plain oneLine (List.mem_cons_of_mem _ (List.mem_singleton_self _)) clean.2
  obtain ⟨⟨after, eq⟩, noQuote, noReturn⟩ := (RustStrings.literalBehind_plain noEscape).mp reads
  refine ⟨noQuote, noReturn, fun member => noBreak ?_⟩
  rw [eq]
  exact List.mem_append_left _ (List.mem_append_right _ (List.mem_cons_of_mem _ member))

variable {value back : Line}

/-- A line with a plain value between quotation marks denotes it. -/
theorem literalBehind_quoted (clean : backslash ∉ front ∧ backslash ∉ back)
    (noEscape : backslash ∉ value) (noQuote : quote ∉ value) (noReturn : '\r' ∉ value) :
    literalBehind front (front ++ quoted value ++ back) = some value := by
  apply (RustStrings.literalBehind_plain _).mpr ⟨⟨back, by simp [quoted]⟩, noQuote, noReturn⟩
  have notQuote : backslash ≠ quote := by decide
  simp [quoted, clean, noEscape, notQuote]

end Plain

section Consts
variable {env : Env} {front placeholder : Line} {line value word rest : Line} {other : Env → List Char}

/-- A word that begins with a quotation mark is not found before the first one. -/
theorem cut_behind (frontPlain : quote ∉ front) :
    cut (quoted word) (front ++ rest) = (cut (quoted word) rest).map fun (before, after) =>
      (front ++ before, after) := by
  induction front with
  | nil => simp
  | cons c more ih =>
      have ⟨notQuote, others⟩ := List.ne_and_not_mem_of_not_mem_cons frontPlain
      have notHere : ¬(quoted word).isPrefixOf (c :: (more ++ rest)) = true := by
        intro here
        exact notQuote (List.cons_prefix_cons.mp (List.isPrefixOf_iff_prefix.mp here)).1
      rw [List.cons_append, cut, if_neg notHere, ih others, Option.map_map]
      rfl

theorem cut_here : cut (quoted word) (quoted word ++ rest) = some ([], rest) := by
  have here : (quoted word).isPrefixOf (quoted word ++ rest) = true :=
    List.isPrefixOf_iff_prefix.mpr (List.prefix_append ..)
  rw [show quoted word ++ rest = quote :: (word ++ [quote] ++ rest) by rfl, cut,
    show quote :: (word ++ [quote] ++ rest) = quoted word ++ rest by rfl, if_pos here, List.drop_left]

theorem apply_behind (frontPlain : quote ∉ front) :
    (sentinel placeholder other).apply env (front ++ rest) =
      front ++ (sentinel placeholder other).apply env rest := by
  simp only [Rewrite.apply, substitute,
    show (sentinel placeholder other).pattern = .text (quoted placeholder) by rfl, Pattern.find,
    cut_behind frontPlain]
  cases cut (quoted placeholder) rest with
  | none => rfl
  | some parts => simp

/-- Before the first quotation mark of a line nothing is changed. -/
theorem rewriteAll_behind (frontPlain : quote ∉ front) :
    rewriteAll env sentinels (front ++ rest) = front ++ rewriteAll env sentinels rest := by
  rw [sentinels]
  induction placeholders generalizing rest with
  | nil => rfl
  | cons pair more ih =>
      rw [List.map_cons, rewriteAll, List.foldl_cons, apply_behind frontPlain]
      exact ih

theorem apply_sentinel (noEscape : backslash ∉ other env)
    (oneLine : '\n' ∉ stripNewlines (other env)) (frontPlain : quote ∉ front)
    (valuePlain : quote ∉ value) (placeholderPlain : quote ∉ placeholder) :
    (sentinel placeholder other).apply env (constLine front value) =
      constLine front (if value = placeholder then stripNewlines (other env) else value) := by
  have text : (sentinel placeholder other).text env = quoted (stripNewlines (other env)) := by
    have mark : literal (chars "\"") = [quote] := by decide
    have isText : (sentinel placeholder other).text env = _ := text_eq noEscape oneLine
    rw [isText, sentinel, mark]
    rfl
  have marks : quote ∉ [';'] := by decide
  by_cases same : value = placeholder
  · rw [if_pos same, same, constLine, List.append_assoc, apply_behind frontPlain, Rewrite.apply,
      text, substitute,
      show (sentinel placeholder other).pattern = .text (quoted placeholder) by rfl, Pattern.find,
      cut_here]
    exact (List.append_assoc ..).symm
  · have absent : ¬quoted placeholder <:+: constLine front value := by
      intro occurs
      have occurs' : [] ++ quoted placeholder ++ [] <:+: front ++ quoted value ++ [';'] := by
        simpa [constLine] using occurs
      exact same (eq_of_infix_quoted frontPlain valuePlain marks placeholderPlain occurs').1.symm
    rw [if_neg same]
    exact substitute_of_none (find_text_eq_none absent)

/-- The substitutions in the line of a constant are those of its value. -/
theorem rewriteAll_sentinels {later : List (Line × (Env → List Char))} (frontPlain : quote ∉ front)
    (valuePlain : quote ∉ value) (placeholdersPlain : ∀ pair ∈ later, quote ∉ pair.1)
    (noEscape : ∀ pair ∈ later, backslash ∉ pair.2 env)
    (oneLine : ∀ pair ∈ later, '\n' ∉ stripNewlines (pair.2 env))
    (othersPlain : ∀ pair ∈ later.dropLast, quote ∉ stripNewlines (pair.2 env)) :
    rewriteAll env (later.map fun (placeholder, other) => sentinel placeholder other)
      (constLine front value) =
      constLine front (replacedBy env later value) := by
  induction later generalizing value with
  | nil => rfl
  | cons pair rest ih =>
      have first : (sentinel pair.1 pair.2).apply env (constLine front value) = _ :=
        apply_sentinel (noEscape pair (List.mem_cons_self ..))
          (oneLine pair (List.mem_cons_self ..)) frontPlain
          valuePlain (placeholdersPlain pair (List.mem_cons_self ..))
      rw [List.map_cons, rewriteAll, List.foldl_cons, first]
      cases rest with
      | nil => rfl
      | cons next more =>
          apply ih
          · split
            case isTrue => exact othersPlain pair (List.mem_cons_self ..)
            case isFalse => exact valuePlain
          · exact fun pair' member => placeholdersPlain pair' (List.mem_cons_of_mem _ member)
          · exact fun pair' member => noEscape pair' (List.mem_cons_of_mem _ member)
          · exact fun pair' member => oneLine pair' (List.mem_cons_of_mem _ member)
          · exact fun pair' member => othersPlain pair' (List.mem_cons_of_mem _ member)

variable {before : List Line}

theorem literalsBehind_one {after : List Line} (own : front <+: line)
    (others : ∀ other ∈ before ++ after, ¬front <+: other) :
    literalsBehind front (before ++ line :: after) = [literalBehind front line] := by
  have none {lines : List Line} (absent : ∀ other ∈ lines, ¬front <+: other) :
      lines.filter (front.isPrefixOf ·) = [] := by
    rw [List.filter_eq_nil_iff]
    exact fun other member isFront => absent other member (List.isPrefixOf_iff_prefix.mp isFront)
  rw [literalsBehind, List.filter_append, List.filter_cons_of_pos (List.isPrefixOf_iff_prefix.mpr own),
    none fun other member => others other (List.mem_append_left _ member),
    none fun other member => others other (List.mem_append_right _ member)]
  rfl

/-- A line without a placeholder that is not the line of a constant -/
def Idle (line : Line) : Prop := Untouched .serverRs line ∧ ¬constFront <+: line

theorem Idle.of_start {whole : Line} (idle : Idle whole) (isPrefix : line <+: whole) :
    Idle line := by
  refine ⟨fun r member => ?_, fun isConst => idle.2 (isConst.trans isPrefix)⟩
  obtain ⟨pair, _, rfl⟩ := List.mem_map.mp member
  have absent := not_infix_of_find (List.cons_ne_nil quote _) (idle.1 _ member)
  exact find_text_eq_none fun isIn => absent (isIn.trans isPrefix.isInfix)

variable {m : Module} {tree : Tree} {called appended : List Line}

theorem idle_called (pinned : Pinned m tree) (inserted : insertCall (tree .serverRs) = some called)
    (member : line ∈ called) : Idle line := by
  cases mem_called pinned inserted member with
  | inl old =>
      have notConst := pinned.noConst line (List.mem_append_left _ old)
      cases pinned.lines .serverRs line old with
      | inl isSite =>
          have all : ∀ site ∈ sites .serverRs, constFront <+: site := by decide
          exact absurd (all line isSite) notConst
      | inr untouched => exact ⟨untouched, notConst⟩
  | inr call =>
      subst call
      exact ⟨by decide, by decide⟩

/-- Besides the constants the branded file has idle lines only. -/
theorem idle_appended (pinned : Pinned m tree) (inserted : insertCall (tree .serverRs) = some called)
    (made : appendModule m called = some appended) :
    ∃ before after, appended = before ++ fleetConsts ++ after ∧ ∀ line ∈ before ++ after,
      Idle line := by
  have moduleIdle {line : Line} (member : line ∈ m.comment ++ m.body) : Idle line :=
    ⟨pinned.moduleLines line member, pinned.noConst line (List.mem_append_right _ member)⟩
  refine ⟨rstrip called ++ [] :: m.comment, [] :: bootstrapFn :: m.body, ?_, fun line member => ?_⟩
  · rw [appendModule_of_pinned pinned inserted made, Module.lines]
    simp only [List.append_assoc, List.cons_append]
  · have empty : Idle [] := ⟨by decide, by decide⟩
    simp only [List.mem_append, List.mem_cons] at member
    rcases member with (stripped | isEmpty | inComment) | isEmpty | isFn | inBody
    · cases mem_rstrip stripped with
      | inl isEmpty => exact isEmpty ▸ empty
      | inr part =>
          have ⟨whole, isIn, isPrefix⟩ := part
          exact (idle_called pinned inserted isIn).of_start isPrefix
    · exact isEmpty ▸ empty
    · exact moduleIdle (List.mem_append_left _ inComment)
    · exact isEmpty ▸ empty
    · subst isFn
      exact ⟨by decide, by decide⟩
    · exact moduleIdle (List.mem_append_right _ inBody)

/-- The one literal behind the front of a constant is that of its line. -/
theorem literals_of_const (pinned : Pinned m tree)
    (inserted : insertCall (tree .serverRs) = some called)
    (made : appendModule m called = some appended) {after : List Line}
    (isConst : constFront <+: front) (frontPlain : quote ∉ front)
    (split : fleetConsts = before ++ constLine front placeholder :: after)
    (apart : ∀ line ∈ before ++ after,
      ¬front <+: line.takeWhile (· ≠ quote) ∧ ¬line.takeWhile (· ≠ quote) <+: front) :
    literalsBehind front (appended.map (rewriteAll env sentinels)) =
      [literalBehind front (rewriteAll env sentinels (constLine front placeholder))] := by
  obtain ⟨idleBefore, idleAfter, rfl, idle⟩ := idle_appended pinned inserted made
  have ofIdle {line : Line} (isIdle : Idle line) : ¬front <+: rewriteAll env sentinels line := by
    rw [show rewriteAll env sentinels line = line from rewriteAll_of_untouched isIdle.1]
    exact fun isFront => isIdle.2 (isConst.trans isFront)
  have ofConst {line : Line} (member : line ∈ before ++ after) :
      ¬front <+: rewriteAll env sentinels line := by
    intro isFront
    have plain : quote ∉ line.takeWhile (· ≠ quote) := fun isIn => by
      simpa using List.mem_takeWhile_imp isIn
    rw [← List.takeWhile_append_dropWhile (p := (· ≠ quote)) (l := line),
      rewriteAll_behind plain] at isFront
    have both := List.prefix_or_prefix_of_prefix isFront (List.prefix_append ..)
    exact both.elim (apart line member).1 (apart line member).2
  have shape : (idleBefore ++ fleetConsts ++ idleAfter).map (rewriteAll env sentinels) =
      (idleBefore ++ before).map (rewriteAll env sentinels) ++
        rewriteAll env sentinels (constLine front placeholder) ::
          (after ++ idleAfter).map (rewriteAll env sentinels) := by
    rw [split]
    simp
  rw [shape]
  apply literalsBehind_one
  · rw [constLine, List.append_assoc, rewriteAll_behind frontPlain]
    exact List.prefix_append ..
  · intro other member
    rw [← List.map_append] at member
    obtain ⟨line, among, rfl⟩ := List.mem_map.mp member
    simp only [List.mem_append] at among
    rcases among with (isIn | isIn) | isIn | isIn
    · exact ofIdle (idle line (List.mem_append_left _ isIn))
    · exact ofConst (List.mem_append_left _ isIn)
    · exact ofConst (List.mem_append_right _ isIn)
    · exact ofIdle (idle line (List.mem_append_right _ isIn))

theorem takeWhile_mark (front rest : Line) :
    (front ++ quote :: rest).takeWhile (· ≠ quote) = front.takeWhile (· ≠ quote) := by
  induction front with
  | nil => simp
  | cons c more ih =>
      by_cases isMark : c = quote
      · simp [isMark]
      · have goesOn (text : Line) :
            (c :: text).takeWhile (· ≠ quote) = c :: text.takeWhile (· ≠ quote) :=
          List.takeWhile_cons_of_pos (decide_eq_true isMark)
        rw [List.cons_append, goesOn, goesOn, ih]

/-- The literal of a constant is what stands before the first quotation mark in its text. -/
theorem literal_const {text : Line} (noEscape : backslash ∉ constLine front text) :
    literalBehind front (constLine front text) = some value ↔
      text.takeWhile (· ≠ quote) = value ∧ '\r' ∉ value := by
  have shape : constLine front text = (front ++ [quote]) ++ (text ++ quote :: [';']) := by
    simp [constLine, quoted]
  rw [RustStrings.literalBehind_plain noEscape]
  constructor
  · rintro ⟨⟨after, eq⟩, noQuote, noReturn⟩
    have same : text ++ quote :: [';'] = value ++ quote :: after := by
      rw [shape] at eq
      simpa using eq
    have begins := congrArg (List.takeWhile (· ≠ quote)) same
    rw [takeWhile_mark, takeWhile_mark] at begins
    refine ⟨begins.trans (List.takeWhile_eq_self_iff.mpr ?_), noReturn⟩
    exact fun c member => decide_eq_true fun isMark => noQuote (isMark ▸ member)
  · rintro ⟨begins, noReturn⟩
    have noQuote : quote ∉ value := by
      intro member
      rw [← begins] at member
      simpa using List.mem_takeWhile_imp member
    have marked : quote ∈ text ++ quote :: [';'] := by simp
    have marks := eq_upTo marked
    rw [takeWhile_mark, begins] at marks
    obtain ⟨after, marks⟩ : ∃ after, text ++ quote :: [';'] = value ++ quote :: after := ⟨_, marks⟩
    refine ⟨⟨after, ?_⟩, noQuote, noReturn⟩
    rw [shape, marks]
    simp

end Consts

section Config
variable {sed : Sed} {env : Env} {lines lines' : List Line} {r : Rewrite} {c : Char}
  {patched : List Line}

variable {old : Line}

/-- The substitutions of a line after the first that finds something have nothing to do. -/
theorem rewriteAll_of_first (before after : List Rewrite)
    (missed : ∀ r' ∈ before, r'.pattern.find old = none)
    (kept : ∀ r' ∈ after, r'.apply env (r.apply env old) = r.apply env old) :
    rewriteAll env (before ++ r :: after) old = r.apply env old := by
  rw [rewriteAll_append, rewriteAll_of_untouched missed, rewriteAll, List.foldl_cons]
  exact rewriteAll_of_fixed kept

theorem apply_of_apart {before word after : Line}
    (isText : r.pattern = .text (before ++ quoted word ++ after)) (frontPlain : quote ∉ front)
    (valuePlain : quote ∉ value) (backPlain : quote ∉ back) (wordPlain : quote ∉ word)
    (apart : ¬(word = value ∧ before <:+ front ∧ after <+: back)) :
    r.apply env (front ++ quoted value ++ back) = front ++ quoted value ++ back := by
  apply substitute_of_none
  rw [isText]
  exact find_text_eq_none fun occurs =>
    apart (eq_of_infix_quoted frontPlain valuePlain backPlain wordPlain occurs)

theorem apply_identity {r : Rewrite} (member : r ∈ identity) (frontPlain : quote ∉ front)
    (valuePlain : quote ∉ value) (backPlain : quote ∉ back)
    (apart : ¬(chars "RwLock::new(") <:+ front) :
    r.apply env (front ++ quoted value ++ back) = front ++ quoted value ++ back := by
  simp only [identity, List.mem_cons, List.not_mem_nil, or_false] at member
  rcases member with rfl | rfl
  · exact apply_of_apart rfl frontPlain valuePlain backPlain (by decide) fun ⟨_, begins, _⟩ =>
      apart begins
  · exact apply_of_apart rfl frontPlain valuePlain backPlain (by decide) fun ⟨_, begins, _⟩ =>
      apart begins

theorem rewriteAll_rendezvous (noEscape : backslash ∉ env.rendezvousServer)
    (noQuote : quote ∉ env.rendezvousServer) (oneLine : '\n' ∉ env.rendezvousServer)
    (notKey : upstreamKey ≠ env.rendezvousServer) :
    rewriteAll env (endpoints ++ identity) (rendezvousLine upstreamServer) =
      rendezvousLine env.rendezvousServer := by
  have finds : rendezvousRewrite.pattern.find (rendezvousLine upstreamServer) =
      some (chars "pub const RENDEZVOUS_SERVERS: &[&str] = ",
        chars "&[" ++ quoted upstreamServer ++ chars "]",
        chars ";") := by decide
  have own :
      rendezvousRewrite.apply env (rendezvousLine upstreamServer) =
      rendezvousLine env.rendezvousServer := by
    rw [apply_of_find (rendezvousFront ++ [quote]) (quote :: chars "];") noEscape oneLine finds
      (by decide)
      (by decide), show rendezvousRewrite.value = Env.rendezvousServer by rfl]
    simp [rendezvousLine, quoted]
  have frontPlain : quote ∉ rendezvousFront := by decide
  have backPlain : quote ∉ (chars "];") := by decide
  rw [show endpoints ++ identity = [] ++ rendezvousRewrite :: (rsPubKeyRewrite :: identity) by rfl,
    rewriteAll_of_first _ _ (List.forall_mem_nil _), own]
  intro r member
  rw [own]
  cases List.mem_cons.mp member with
  | inl isKey =>
      have isText : r.pattern = .text ([] ++ quoted upstreamKey ++ []) := by
        rw [isKey, List.nil_append, List.append_nil]
        rfl
      exact apply_of_apart isText frontPlain noQuote backPlain (by decide) fun both => notKey both.1
  | inr later => exact apply_identity later frontPlain noQuote backPlain (by decide)

theorem rewriteAll_rsPubKey (noEscape : backslash ∉ env.rsPubKey) (noQuote : quote ∉ env.rsPubKey)
    (oneLine : '\n' ∉ env.rsPubKey) :
    rewriteAll env (endpoints ++ identity) (rsPubKeyLine upstreamKey) = rsPubKeyLine env.rsPubKey := by
  have finds : rsPubKeyRewrite.pattern.find (rsPubKeyLine upstreamKey) =
      some (rsPubKeyFront, quoted upstreamKey, chars ";") := by decide
  have own : rsPubKeyRewrite.apply env (rsPubKeyLine upstreamKey) = rsPubKeyLine env.rsPubKey := by
    rw [apply_of_find (rsPubKeyFront ++ [quote]) (quote :: chars ";") noEscape oneLine finds
      (by decide) (by decide),
      show rsPubKeyRewrite.value = Env.rsPubKey by rfl]
    simp [rsPubKeyLine, quoted]
  have frontPlain : quote ∉ rsPubKeyFront := by decide
  have backPlain : quote ∉ (chars ";") := by decide
  rw [show endpoints ++ identity = [rendezvousRewrite] ++ rsPubKeyRewrite :: identity by rfl,
    rewriteAll_of_first _ _ (by decide), own]
  intro r member
  rw [own]
  exact apply_identity member frontPlain noQuote backPlain (by decide)

theorem rewriteAll_api (noEscape : backslash ∉ env.apiServer) (oneLine : '\n' ∉ env.apiServer) :
    rewriteAll env apiFallback (apiLine upstreamApi) = apiLine env.apiServer := by
  have finds : apiRewrite.pattern.find (apiLine upstreamApi) =
      some (chars "    ", quoted upstreamApi ++ chars ".to_owned()", []) := by decide
  rw [show apiFallback = [] ++ apiRewrite :: [] by rfl,
    rewriteAll_of_first _ _ (List.forall_mem_nil _) (List.forall_mem_nil _),
    apply_of_find (chars "    " ++ [quote]) (quote :: chars ".to_owned()") noEscape oneLine finds
      (by decide)
      (by decide), show apiRewrite.value = Env.apiServer by rfl]
  simp [apiLine, quoted]

/-- The patches of `config.rs` rewrite its lines; the anchor comes behind them. -/
theorem config_lines (plain : Plain env (endpoints ++ identity)) {branded : List Line}
    (first : patchEndpoints sed env lines = some patched)
    (second : patchIdentity sed env patched = some branded)
    (third : appendAnchor env branded = some lines') :
    OneLine env (endpoints ++ identity) ∧ branded = lines.map (rewriteAll env (endpoints ++ identity)) ∧
      (lines' = branded ∨ lines' = branded ++ anchorLines env) := by
  have plainFirst : Plain env endpoints := fun r member => plain r (List.mem_append_left _ member)
  have plainSecond : Plain env identity := fun r member => plain r (List.mem_append_right _ member)
  obtain ⟨reads, rfl, _⟩ := (patch_eq_some_iff (clear_of_plain plainFirst)).mp first
  obtain ⟨reads', rfl, _⟩ := (patch_eq_some_iff (clear_of_plain plainSecond)).mp second
  have oneLine := oneLine_of_reads plainFirst reads
  have oneLine' := oneLine_of_reads plainSecond reads'
  refine ⟨fun r member => (List.mem_append.mp member).elim (oneLine r) (oneLine' r), ?_, ?_⟩
  · rw [List.map_map]
    exact List.map_congr_left fun line _ => (rewriteAll_append endpoints identity).symm
  · rw [appendAnchor] at third
    split at third
    case isTrue => exact .inl (Option.some.inj third).symm
    case isFalse => exact .inr (Option.some.inj third).symm

/-- With the key of the upstream as its value, the rendezvous server would not get past the checks. -/
theorem upstreamKey_ne_of_patched (done : patchEndpoints sed env lines = some patched) :
    upstreamKey ≠ env.rendezvousServer := by
  intro same
  have checks := (Option.filter_eq_some_iff.mp done).2
  simp only [Bool.and_eq_true, Bool.not_eq_true', Bool.or_eq_false_iff] at checks
  obtain ⟨⟨found, _⟩, _, absent⟩ := checks
  rw [← same] at found
  have single : (quoted upstreamKey).splitOn '\n' = [quoted upstreamKey] :=
    List.splitOn_eq_singleton (by decide)
  have single' : upstreamKey.splitOn '\n' = [upstreamKey] := List.splitOn_eq_singleton (by decide)
  obtain ⟨line, member, isIn⟩ := List.any_eq_true.mp found
  simp only [single, List.any_cons, List.any_nil, Bool.or_false, decide_eq_true_eq] at isIn
  have notIn := List.any_eq_false.mp absent line member
  simp only [single', List.any_cons, List.any_nil, Bool.or_false, decide_eq_true_eq] at notIn
  exact notIn (List.IsInfix.trans ⟨[quote], [quote], rfl⟩ isIn)

/-- The first character of a line stays when no pattern begins with it. -/
theorem head_apply {d : Char} {word rest : Line} (isText : r.pattern = .text (d :: word))
    (different : d ≠ c) : ∃ rest', r.apply env (c :: rest) = c :: rest' := by
  have notHere : ¬(d :: word).isPrefixOf (c :: rest) = true := fun here =>
    different (List.cons_prefix_cons.mp (List.isPrefixOf_iff_prefix.mp here)).1
  rw [Rewrite.apply, isText, substitute, Pattern.find, cut, if_neg notHere]
  cases cut (d :: word) rest with
  | none => exact ⟨rest, rfl⟩
  | some parts => exact ⟨parts.1 ++ r.text env ++ parts.2, rfl⟩

theorem head_rewriteAll {rewrites : List Rewrite}
    (others : ∀ r ∈ rewrites, ∃ d word, r.pattern = .text (d :: word) ∧ d ≠ c) (rest : Line) :
    ∃ rest', rewriteAll env rewrites (c :: rest) = c :: rest' := by
  induction rewrites generalizing rest with
  | nil => exact ⟨rest, rfl⟩
  | cons r more ih =>
      have ⟨d, word, isText, different⟩ := others r (List.mem_cons_self ..)
      have ⟨rest', first⟩ : ∃ rest', r.apply env (c :: rest) = c :: rest' := head_apply isText different
      rw [rewriteAll, List.foldl_cons, first]
      exact ih (fun r' member => others r' (List.mem_cons_of_mem r member)) rest'

theorem config_patterns (other : c ∉ ['&', quote, 'R']) :
    ∀ r ∈ endpoints ++ identity, ∃ d word, r.pattern = .text (d :: word) ∧ d ≠ c := by
  simp only [List.mem_cons, List.not_mem_nil, or_false, not_or] at other
  have ⟨notAnd, notQuote, notR⟩ := other
  intro r member
  simp only [endpoints, identity, List.cons_append, List.nil_append, List.mem_cons, List.not_mem_nil,
    or_false] at member
  rcases member with rfl | rfl | rfl | rfl
  · exact ⟨'&', _, rfl, Ne.symm notAnd⟩
  · exact ⟨quote, _, rfl, Ne.symm notQuote⟩
  · exact ⟨'R', _, rfl, Ne.symm notR⟩
  · exact ⟨'R', _, rfl, Ne.symm notR⟩

variable {m : Module} {tree : Tree}

/-- The anchor is not among the lines that were there before. -/
theorem anchorStatic_not_mem (pinned : Pinned m tree) :
    anchorStatic ∉ (tree .configRs).map (rewriteAll env (endpoints ++ identity)) := by
  intro member
  obtain ⟨line, among, eq⟩ := List.mem_map.mp member
  cases pinned.lines .configRs line among with
  | inl isSite =>
      have heads : ∀ site ∈ sites .configRs, site.head? = some 'p' ∨ site.head? = some ' ' := by decide
      obtain ⟨c, either, head⟩ : ∃ c ∈ ['p', ' '], line.head? = some c := by
        simpa using heads line isSite
      obtain ⟨rest, rfl⟩ := List.head?_eq_some_iff.mp head
      have other : c ∉ ['&', quote, 'R'] ∧ c ≠ 's' := by
        rcases List.mem_cons.mp either with rfl | last
        · decide
        · rw [List.mem_singleton.mp last]
          decide
      obtain ⟨rest', kept⟩ := head_rewriteAll (config_patterns other.1) rest
      rw [kept] at eq
      exact other.2 (List.cons.inj eq).1
  | inr untouched =>
      rw [show rewriteAll env (endpoints ++ identity) line =
        line from rewriteAll_of_untouched untouched] at eq
      subst eq
      exact pinned.noAnchor _ among (by decide)

/-- With values of one line the anchor has a line for each. -/
theorem anchorLines_eq (oneLine : ∀ value ∈ anchorValues env, '\n' ∉ value) :
    anchorLines env =
      anchorComment ++ anchorStatic :: ((anchorValues env).map rawLine ++ [chars "];"]) := by
  have single : ∀ value ∈ anchorValues env, (rawLine value).splitOn '\n' = [rawLine value] := by
    intro value member
    apply List.splitOn_eq_singleton
    have front : '\n' ∉ (chars "    r") := by decide
    have back : '\n' ∉ (chars ",") := by decide
    have notQuote : '\n' ≠ quote := by decide
    simp only [rawLine, quoted, List.mem_append, List.mem_cons, List.not_mem_nil, front, back, notQuote,
      oneLine value member, or_false, not_false_eq_true]
  rw [anchorLines]
  congr 3
  rw [List.flatMap_congr single]
  exact List.map_eq_flatMap.symm

theorem reads_rawLine {value : List Char} (noQuote : quote ∉ value) (noReturn : '\r' ∉ value) :
    rawBehind (chars "    r") (rawLine value) = some value := by
  have reads :
      rawBehind (chars "    r") ((chars "    r") ++ quote :: value ++ quote :: (chars ",")) =
      some value :=
    RustStrings.rawBehind_append noQuote noReturn
  rw [← reads, rawLine, quoted]
  simp

/-- The anchor of a branded file denotes the values. -/
theorem anchor_reads (pinned : Pinned m tree)
    (clean : ∀ value ∈ anchorValues env, quote ∉ value ∧ '\r' ∉ value ∧ '\n' ∉ value)
    {rest : List Line}
    (anchored : lines' = (tree .configRs).map (rewriteAll env (endpoints ++ identity)) ∨
      lines' = (tree .configRs).map (rewriteAll env (endpoints ++ identity)) ++ anchorLines env)
    (split : lines' = before ++ anchorStatic :: rest) :
    (rest.take 4).map (rawBehind (chars "    r")) = (anchorValues env).map some := by
  have notBefore : anchorStatic ∉ (tree .configRs).map (rewriteAll env (endpoints ++ identity)) :=
    anchorStatic_not_mem pinned
  cases anchored with
  | inl none =>
      rw [← none, split] at notBefore
      exact absurd (List.mem_append_right _ (List.mem_cons_self ..)) notBefore
  | inr appended =>
      have lines := appended.symm.trans split
      rw [anchorLines_eq fun value member => (clean value member).2.2, ← List.append_assoc] at lines
      have notComment : anchorStatic ∉ anchorComment := by decide
      have notValue : anchorStatic ∉ (anchorValues env).map rawLine ++ [chars "];"] := by
        intro member
        cases List.mem_append.mp member with
        | inl isValue =>
            obtain ⟨value, _, eq⟩ := List.mem_map.mp isValue
            have heads : (rawLine value).head? = anchorStatic.head? := congrArg List.head? eq
            rw [show (rawLine value).head? = some ' ' by rfl] at heads
            exact absurd heads (by decide)
        | inr last => exact absurd last (by decide)
      have notFront := List.not_mem_append notBefore notComment
      obtain ⟨_, _, eq⟩ := (List.append_cons_inj_of_notMem notFront notValue).mp lines
      rw [← eq, show ((anchorValues env).map rawLine ++ [chars "];"]).take 4 =
        (anchorValues env).map rawLine by rfl,
        List.map_map]
      exact List.map_congr_left fun value member =>
        reads_rawLine (clean value member).1 (clean value member).2.1

end Config

variable {sed : Sed} {m : Module} {env : Env} {tree tree' : Tree} {rewrite : Line → Line}
  {value : List Char}

theorem mem_fleetApiBase {c : Char} (member : c ∈ env.fleetApiBase) : c ∈ env.apiServer := by
  rw [Env.fleetApiBase] at member
  split at member
  case isTrue => exact List.dropLast_subset _ member
  case isFalse => exact member

theorem plain_config (accepted : env.accepted = true) (escaped : env.Escaped) :
    Plain env (endpoints ++ identity) := by
  have ⟨appName, org, _⟩ := ordinary_of_accepted accepted
  have value {v : List Char} (member : v ∈ env.literals) : backslash ∉ v :=
    escaped v (List.mem_cons_of_mem _ member)
  intro r member
  simp only [endpoints, identity, List.cons_append, List.nil_append, List.mem_cons, List.not_mem_nil,
    or_false] at member
  rcases member with rfl | rfl | rfl | rfl
  · exact value (by simp [Env.literals, rendezvousRewrite])
  · exact value (by simp [Env.literals, rsPubKeyRewrite])
  · exact appName.not_mem (by decide)
  · exact org.not_mem (by decide)

theorem plain_api (escaped : env.Escaped) : Plain env apiFallback := by
  intro r member
  rw [List.mem_singleton.mp member]
  exact escaped _ (by simp [Env.literals, apiRewrite])

theorem plain_sentinels (accepted : env.accepted = true) (escaped : env.Escaped) :
    Plain env sentinels := by
  have ⟨appName, _⟩ := ordinary_of_accepted accepted
  have value {v : List Char} (member : v ∈ env.releaseTag :: env.literals) : backslash ∉ v :=
    escaped v member
  intro r member
  simp only [sentinels, placeholders, List.map_cons, List.map_nil, List.mem_cons, List.not_mem_nil,
    or_false] at member
  rcases member with rfl | rfl | rfl | rfl | rfl
  · exact fun isIn => value (by simp [Env.literals]) (mem_fleetApiBase isIn)
  · exact value (by simp [Env.literals, sentinel])
  · exact value (by simp [Env.literals, sentinel])
  · exact appName.not_mem (by decide)
  · exact value (by simp [Env.literals, sentinel])

/-- What becomes of the constants of the bootstrap module -/
theorem fleet_consts (accepted : env.accepted = true) (noEscape : Plain env sentinels)
    (oneLine : OneLine env sentinels)
    (plain : ∀ value ∈ env.literals, quote ∉ value ∧ '\r' ∉ value ∧ '\n' ∉ value) :
    rewriteAll env sentinels (constLine fleetApiBaseConst rdcApiBase) =
        constLine fleetApiBaseConst (replacedBy env (placeholders.drop 1) env.fleetApiBase) ∧
      rewriteAll env sentinels (constLine fleetUserConst rdcFleetUser) =
        constLine fleetUserConst (replacedBy env (placeholders.drop 2) env.brandFleetUser) ∧
      rewriteAll env sentinels (constLine fleetPasswordConst rdcFleetPassword) =
        constLine fleetPasswordConst (replacedBy env (placeholders.drop 3) env.brandFleetPassword) := by
  have ⟨appName, _⟩ := ordinary_of_accepted accepted
  have api := plain env.apiServer (by simp [Env.literals])
  have user := plain env.brandFleetUser (by simp [Env.literals])
  have password := plain env.brandFleetPassword (by simp [Env.literals])
  have base : stripNewlines env.fleetApiBase = env.fleetApiBase :=
    stripNewlines_eq fun member => api.2.2 (mem_fleetApiBase member)
  have whole {front placeholder : Line} (frontPlain : quote ∉ front)
      (placeholderPlain : quote ∉ placeholder) :
      rewriteAll env sentinels (constLine front placeholder) =
        constLine front (replacedBy env placeholders placeholder) := by
    apply rewriteAll_sentinels frontPlain placeholderPlain (by decide)
      (fun pair member => noEscape _ (List.mem_map_of_mem member))
      (fun pair member => oneLine _ (List.mem_map_of_mem member))
    intro pair member
    simp only [placeholders, List.dropLast_cons_cons, List.dropLast_singleton, List.mem_cons,
      List.not_mem_nil, or_false] at member
    rcases member with rfl | rfl | rfl | rfl
    · exact fun isIn => api.1 (mem_fleetApiBase (mem_of_mem_strip isIn))
    · exact fun isIn => user.1 (mem_of_mem_strip isIn)
    · exact fun isIn => password.1 (mem_of_mem_strip isIn)
    · exact fun isIn => appName.not_mem (by decide) (mem_of_mem_strip isIn)
  refine ⟨?_, ?_, ?_⟩
  · rw [whole (by decide) (by decide), ← base]
    rfl
  · rw [whole (by decide) (by decide), ← stripNewlines_eq user.2.2]
    rfl
  · rw [whole (by decide) (by decide), ← stripNewlines_eq password.2.2]
    rfl

/-- The literals of the constants are those of the rewritten lines of the module. -/
theorem literals_fleet (pinned : Pinned m tree) (escaped : env.Escaped)
    (done : applyBranding sed m env tree = some tree') :
    OneLine env sentinels ∧
      literalsBehind fleetApiBaseConst (tree' .serverRs) =
        [literalBehind fleetApiBaseConst
          (rewriteAll env sentinels (constLine fleetApiBaseConst rdcApiBase))] ∧
      literalsBehind fleetUserConst (tree' .serverRs) =
        [literalBehind fleetUserConst
          (rewriteAll env sentinels (constLine fleetUserConst rdcFleetUser))] ∧
      literalsBehind fleetPasswordConst (tree' .serverRs) =
        [literalBehind fleetPasswordConst
          (rewriteAll env sentinels (constLine fleetPasswordConst rdcFleetPassword))] := by
  obtain ⟨called, appended, inserted, made, patched⟩ := server_of_done done
  have plain := plain_sentinels (accepted_of_done done) escaped
  obtain ⟨reads, eq, _⟩ := (patch_eq_some_iff (clear_of_plain plain)).mp patched
  rw [eq]
  have const (before after : List Line) {front placeholder : Line} (isConst : constFront <+: front)
      (frontPlain : quote ∉ front)
        (split : fleetConsts = before ++ constLine front placeholder :: after)
      (apart : ∀ line ∈ before ++ after,
        ¬front <+: line.takeWhile (· ≠ quote) ∧ ¬line.takeWhile (· ≠ quote) <+: front) :
      literalsBehind front (appended.map (rewriteAll env sentinels)) =
        [literalBehind front (rewriteAll env sentinels (constLine front placeholder))] :=
    literals_of_const pinned inserted made isConst frontPlain split apart
  exact ⟨oneLine_of_reads plain reads,
    const [] (fleetConsts.drop 1) (by decide) (by decide) rfl (by decide),
    const (fleetConsts.take 1) (fleetConsts.drop 2) (by decide) (by decide) rfl (by decide),
    const (fleetConsts.take 2) (fleetConsts.drop 3) (by decide) (by decide) rfl (by decide)⟩

/-- Behind a front that is plain, with what the value becomes, the line has no backslash. -/
theorem noEscape_const (front placeholder : Line) (plain : Plain env sentinels)
    (oneLine : OneLine env sentinels) (clean : backslash ∉ constLine front placeholder) :
    backslash ∉ rewriteAll env sentinels (constLine front placeholder) :=
  not_mem_rewriteAll (fun r member => (member : r ∈ rewritesOf .serverRs)) plain oneLine
    (List.mem_cons_self ..) clean

theorem denotes_of_rewritten {lines lines' : List Line}
    (begins : ∀ i : Nat, ∀ line, lines[i]? = some line → lines'[i]? = some (rewrite line))
    (reads : literalBehind front (rewrite old) = some value) :
    Denotes lines lines' old front value :=
  fun i here => ⟨rewrite old, begins i old here, reads⟩

theorem reads_of_denotes {lines lines' : List Line}
    (begins : ∀ i : Nat, ∀ line, lines[i]? = some line → lines'[i]? = some (rewrite line))
    (present : old ∈ lines) (denotes : Denotes lines lines' old front value) :
    literalBehind front (rewrite old) = some value := by
  obtain ⟨i, here⟩ := List.mem_iff_getElem?.mp present
  obtain ⟨line, there, reads⟩ := denotes i here
  rw [begins i old here] at there
  exact Option.some.inj there ▸ reads

theorem config_begins (escaped : env.Escaped) (done : applyBranding sed m env tree = some tree') :
    OneLine env (endpoints ++ identity) ∧ upstreamKey ≠ env.rendezvousServer ∧
      (tree' .configRs = (tree .configRs).map (rewriteAll env (endpoints ++ identity)) ∨
        tree' .configRs =
          (tree .configRs).map (rewriteAll env (endpoints ++ identity)) ++ anchorLines env) ∧
      ∀ i : Nat, ∀ line, (tree .configRs)[i]? = some line →
        (tree' .configRs)[i]? = some (rewriteAll env (endpoints ++ identity) line) := by
  obtain ⟨patched, branded, first, second, third⟩ := config_of_done done
  obtain ⟨oneLine, rfl, anchored⟩ :=
    config_lines (plain_config (accepted_of_done done) escaped) first second third
  refine ⟨oneLine, upstreamKey_ne_of_patched first, anchored, fun i line here => ?_⟩
  have mapped : ((tree .configRs).map (rewriteAll env (endpoints ++ identity)))[i]? =
      some (rewriteAll env (endpoints ++ identity) line) := by
    rw [List.getElem?_map, here, Option.map_some]
  cases anchored with
  | inl same => rw [same, mapped]
  | inr more => rw [more, List.getElem?_append_left (List.getElem?_eq_some_iff.mp mapped).1, mapped]

theorem common_begins (escaped : env.Escaped) (done : applyBranding sed m env tree = some tree') :
    OneLine env apiFallback ∧ ∀ i : Nat, ∀ line, (tree .commonRs)[i]? = some line →
      (tree' .commonRs)[i]? = some (rewriteAll env apiFallback line) := by
  have plain := plain_api escaped
  obtain ⟨reads, eq, _⟩ := (patch_eq_some_iff (clear_of_plain plain)).mp (common_of_done done)
  refine ⟨oneLine_of_reads plain reads, fun i line here => ?_⟩
  rw [eq, List.getElem?_map, here, Option.map_some]

theorem exact_of_literal (pinned : Pinned m tree) (done : applyBranding sed m env tree = some tree')
    (literal : env.Literal) : Exact env tree tree' := by
  have accepted := accepted_of_done done
  have ⟨appName, _⟩ := ordinary_of_accepted accepted
  have plainSentinels := plain_sentinels accepted literal.escaped
  obtain ⟨_, notKey, anchored, config⟩ := config_begins literal.escaped done
  obtain ⟨_, common⟩ := common_begins literal.escaped done
  obtain ⟨oneLine, apiBaseLines, userLines, passwordLines⟩ := literals_fleet pinned literal.escaped done
  obtain ⟨apiBase, user, password⟩ := fleet_consts accepted plainSentinels oneLine literal.plain
  have value {v : List Char} (member : v ∈ env.literals) :
      backslash ∉ v ∧ quote ∉ v ∧ '\r' ∉ v ∧ '\n' ∉ v :=
    ⟨literal.escaped v (List.mem_cons_of_mem _ member), literal.plain v member⟩
  have rendezvous := value (v := env.rendezvousServer) (by simp [Env.literals])
  have key := value (v := env.rsPubKey) (by simp [Env.literals])
  have api := value (v := env.apiServer) (by simp [Env.literals])
  have fleetUser := value (v := env.brandFleetUser) (by simp [Env.literals])
  have fleetPassword := value (v := env.brandFleetPassword) (by simp [Env.literals])
  constructor
  case rendezvousServer =>
    apply denotes_of_rewritten config
    rw [rewriteAll_rendezvous rendezvous.1 rendezvous.2.1 rendezvous.2.2.2 notKey]
    exact literalBehind_quoted (by decide) rendezvous.1 rendezvous.2.1 rendezvous.2.2.1
  case rsPubKey =>
    apply denotes_of_rewritten config
    rw [rewriteAll_rsPubKey key.1 key.2.1 key.2.2.2]
    exact literalBehind_quoted (by decide) key.1 key.2.1 key.2.2.1
  case anchor =>
    intro before rest split
    refine anchor_reads pinned (fun v member => ?_) anchored split
    simp only [anchorValues, List.mem_cons, List.not_mem_nil, or_false] at member
    rcases member with rfl | rfl | rfl | rfl
    · exact rendezvous.2
    · exact key.2
    · exact api.2
    · exact ⟨appName.not_mem (by decide), appName.not_mem (by decide), appName.not_mem (by decide)⟩
  case apiServer =>
    apply denotes_of_rewritten common
    rw [rewriteAll_api api.1 api.2.2.2]
    exact literalBehind_quoted (by decide) api.1 api.2.1 api.2.2.1
  case fleetApiBase =>
    have noEscape := noEscape_const fleetApiBaseConst rdcApiBase plainSentinels oneLine (by decide)
    rw [apiBase] at noEscape
    rw [apiBaseLines, apiBase, (literal_const noEscape).mpr
      ⟨literal.fleetApiBase, fun member => api.2.2.1 (mem_fleetApiBase member)⟩]
  case fleetUser =>
    have noEscape := noEscape_const fleetUserConst rdcFleetUser plainSentinels oneLine (by decide)
    rw [user] at noEscape
    rw [userLines, user, (literal_const noEscape).mpr ⟨literal.fleetUser, fleetUser.2.2.1⟩]
  case fleetPassword =>
    have noEscape :=
      noEscape_const fleetPasswordConst rdcFleetPassword plainSentinels oneLine (by decide)
    rw [password] at noEscape
    rw [passwordLines, password,
      (literal_const noEscape).mpr ⟨literal.fleetPassword, fleetPassword.2.2.1⟩]

theorem literal_of_exact (pinned : Pinned m tree) (done : applyBranding sed m env tree = some tree')
    (escaped : env.Escaped) (exact : Exact env tree tree') : env.Literal := by
  have accepted := accepted_of_done done
  have plainSentinels := plain_sentinels accepted escaped
  obtain ⟨oneLineConfig, _, _, config⟩ := config_begins escaped done
  obtain ⟨oneLineApi, common⟩ := common_begins escaped done
  obtain ⟨oneLine, apiBaseLines, userLines, passwordLines⟩ := literals_fleet pinned escaped done
  have server {front placeholder : Line} {value : List Char}
      (clean : backslash ∉ constLine front placeholder ∧ '\n' ∉ constLine front placeholder)
      (reads : literalBehind front (rewriteAll env sentinels (constLine front placeholder)) =
        some value) :
      quote ∉ value ∧ '\r' ∉ value ∧ '\n' ∉ value :=
    plain_of_literal
      (fun r member => (member : r ∈ rewritesOf .serverRs)) plainSentinels oneLine clean reads
  have configValue {old front : Line} {value : List Char} (isSite : old ∈ sites .configRs)
      (clean : backslash ∉ old ∧ '\n' ∉ old)
      (denotes : Denotes (tree .configRs) (tree' .configRs) old front value) :
      quote ∉ value ∧ '\r' ∉ value ∧ '\n' ∉ value := by
    have present := pinned.present .configRs (by decide) old isSite
    exact plain_of_literal (fun r member => (member : r ∈ rewritesOf .configRs))
      (plain_config accepted escaped)
      oneLineConfig clean (reads_of_denotes config present denotes)
  have apiReads :=
    reads_of_denotes common (pinned.present .commonRs (by decide) _ (List.mem_singleton_self _))
    exact.apiServer
  have base := (apiBaseLines.symm.trans exact.fleetApiBase)
  have user := (userLines.symm.trans exact.fleetUser)
  have password := (passwordLines.symm.trans exact.fleetPassword)
  simp only [List.cons.injEq, and_true] at base user password
  have plain : ∀ value ∈ env.literals, quote ∉ value ∧ '\r' ∉ value ∧ '\n' ∉ value := by
    intro value member
    simp only [Env.literals, List.mem_cons, List.not_mem_nil, or_false] at member
    rcases member with rfl | rfl | rfl | rfl | rfl
    · exact configValue (by decide) (by decide) exact.rendezvousServer
    · exact configValue (by decide) (by decide) exact.rsPubKey
    · exact plain_of_literal (fun r member => (member : r ∈ rewritesOf .commonRs))
        (plain_api escaped) oneLineApi
        (by decide) apiReads
    · exact server (by decide) user
    · exact server (by decide) password
  obtain ⟨baseLine, userLine, passwordLine⟩ := fleet_consts accepted plainSentinels oneLine plain
  have noEscape {front placeholder text value : Line} (clean : backslash ∉ constLine front placeholder)
      (line : rewriteAll env sentinels (constLine front placeholder) = constLine front text)
      (reads : literalBehind front (rewriteAll env sentinels (constLine front placeholder)) =
        some value) :
      text.takeWhile (· ≠ quote) = value := by
    have absent := noEscape_const front placeholder plainSentinels oneLine clean
    rw [line] at absent reads
    exact ((literal_const absent).mp reads).1
  exact ⟨escaped, plain, noEscape (by decide) baseLine base, noEscape (by decide) userLine user,
    noEscape (by decide) passwordLine password⟩

theorem literal_smallEnv : smallEnv.Literal where
  escaped := by
    have plain : ∀ value ∈ smallEnv.releaseTag :: smallEnv.literals, backslash ∉ value := by decide
    exact plain
  plain := by decide
  fleetApiBase := by
    rw [Keeps]
    decide
  fleetUser := by
    rw [Keeps]
    decide
  fleetPassword := by
    rw [Keeps]
    decide

/-- A password with a quotation mark in it -/
def quotedEnv : Env := { smallEnv with brandFleetPassword := (chars "ab\"cd") }

theorem literals_quotedEnv : (applyBranding (fun _ _ => none) smallModule quotedEnv smallTree).map
    (fun tree => literalsBehind fleetPasswordConst (tree .serverRs)) =
      some [some (chars "ab")] := by decide +kernel

end RemoteControl.Branding
