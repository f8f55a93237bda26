import RemoteControl.Branding.Literals

/-! # Running the script again

Each pass of the script finds nothing to do in a file that it has patched already, unless a
value brings a pattern of the script back into the text, or an upstream default that the
checks look for. So a script that was broken off can be run again as a whole.
-/

namespace RemoteControl.Branding

open RustStrings (quote backslash)

def Rewrite.finds (line : Line) (r : Rewrite) : Bool := (r.pattern.find line).isSome

/-- The line with its value in place of what the script looks for -/
def branded (env : Env) (rewrites : List Rewrite) (line : Line) : Line :=
  match rewrites.find? (Rewrite.finds line) with
  | some r => r.apply env line
  | none => line

/-- Once the values are in place, no substitution of the script has anything to do. -/
structure Env.Settled (env : Env) : Prop where
  clear : ∀ file, Clear env (rewritesOf file)
  sites : ∀ file, ∀ site ∈ sites file, ∀ r ∈ rewritesOf file,
    r.apply env (branded env (rewritesOf file) site) = branded env (rewritesOf file) site
  anchor : ∀ line ∈ anchorLines env, ∀ r ∈ rewritesOf .configRs, r.apply env line = line
  defaults : ∀ line ∈ (Branding.sites .configRs).map
    (branded env (rewritesOf .configRs)) ++ anchorLines env,
    ¬upstreamServer <:+: line ∧ ¬upstreamKey <:+: line
  anchorName : ∀ line ∈ (Branding.sites .configRs).map (branded env (rewritesOf .configRs)),
    ¬anchorName <:+: line

section Lines
variable {env : Env} {rewrites : List Rewrite} {line : Line}

theorem find_eq_none {r : Rewrite} (misses : ¬r.finds line = true) : r.pattern.find line = none :=
  Option.not_isSome_iff_eq_none.mp misses

theorem rewriteAll_eq_branded
    (settled : ∀ r ∈ rewrites, r.apply env (branded env rewrites line) = branded env rewrites line) :
    rewriteAll env rewrites line = branded env rewrites line := by
  induction rewrites with
  | nil => rfl
  | cons r rest ih =>
      have step : rewriteAll env (r :: rest) line = rewriteAll env rest (r.apply env line) := rfl
      by_cases finds : r.finds line = true
      · have own : branded env (r :: rest) line = r.apply env line := by
          rw [branded, List.find?_cons_of_pos finds]
        rw [own] at settled ⊢
        rw [step]
        exact rewriteAll_of_fixed fun r' member => settled r' (List.mem_cons_of_mem r member)
      · have own : branded env (r :: rest) line = branded env rest line := by
          rw [branded, List.find?_cons_of_neg finds]
          rfl
        rw [own] at settled ⊢
        rw [step, Rewrite.apply, substitute_of_none (find_eq_none finds)]
        exact ih fun r' member => settled r' (List.mem_cons_of_mem r member)

variable {back : List Rewrite}

/-- A part of the substitutions makes the line what the whole makes of it, or leaves it alone. -/
theorem rewriteAll_front
    (settled : ∀ r ∈ rewrites ++ back, r.apply env (branded env (rewrites ++ back) line) =
      branded env (rewrites ++ back) line) :
    rewriteAll env rewrites line = branded env (rewrites ++ back) line ∨ ∀ r ∈ rewrites,
      r.pattern.find line = none := by
  cases found : rewrites.find? (Rewrite.finds line) with
  | none =>
      have missed := List.find?_eq_none.mp found
      exact .inr fun r member => find_eq_none (missed r member)
  | some r =>
      have same : branded env (rewrites ++ back) line = branded env rewrites line := by
        rw [branded, branded, List.find?_append, found]
        rfl
      rw [same] at settled ⊢
      exact .inl (rewriteAll_eq_branded fun r' member => settled r' (List.mem_append_left _ member))

end Lines

section Passes
variable {sed : Sed} {env : Env} {file : File} {lines lines' : List Line}

/-- The unbranded lines of a file -/
def Unbranded (file : File) (lines : List Line) : Prop :=
  ∀ line ∈ lines, line ∈ sites file ∨ Untouched file line

theorem rewriteAll_again (settled : env.Settled) {front : List Rewrite}
    (split : rewritesOf file = front ++ back)
    {line : Line} (known : line ∈ sites file ∨ Untouched file line) :
    rewriteAll env front (rewriteAll env front line) = rewriteAll env front line := by
  cases known with
  | inl isSite =>
      have fixed := settled.sites file line isSite
      rw [split] at fixed
      cases rewriteAll_front fixed with
      | inl made =>
          rw [made]
          exact rewriteAll_of_fixed fun r member => fixed r (List.mem_append_left _ member)
      | inr missed => rw [rewriteAll_of_untouched missed, rewriteAll_of_untouched missed]
  | inr untouched =>
      have missed : ∀ r ∈ front, r.pattern.find line = none := fun r member =>
        untouched r (split ▸ List.mem_append_left _ member)
      rw [rewriteAll_of_untouched missed, rewriteAll_of_untouched missed]

/-- After all passes over a file there is nothing to do in its lines. -/
theorem fixed_of_unbranded (settled : env.Settled) (unbranded : Unbranded file lines) {line : Line}
    (member : line ∈ lines.map (rewriteAll env (rewritesOf file))) :
    ∀ r ∈ rewritesOf file, r.apply env line = line := by
  obtain ⟨old, among, rfl⟩ := List.mem_map.mp member
  intro r isRewrite
  cases unbranded old among with
  | inl isSite =>
      rw [rewriteAll_eq_branded (settled.sites file old isSite)]
      exact settled.sites file old isSite r isRewrite
  | inr untouched =>
      rw [rewriteAll_of_untouched untouched]
      exact substitute_of_none (untouched r isRewrite)

/-- A pass made again does nothing. -/
theorem patch_again (settled : env.Settled) {front : List Rewrite}
    (split : rewritesOf file = front ++ back)
    (unbranded : Unbranded file lines) {check : List Line → Bool}
    (made : patch sed env front check lines = some lines') :
    patch sed env front check lines' = some lines' := by
  have clear : Clear env front :=
    fun r member => settled.clear file r (split ▸ List.mem_append_left _ member)
  obtain ⟨reads, rfl, checked⟩ := (patch_eq_some_iff clear).mp made
  refine (patch_eq_some_iff clear).mpr ⟨reads, ?_, checked⟩
  rw [List.map_map]
  exact List.map_congr_left fun line member =>
    (rewriteAll_again settled split (unbranded line member)).symm

end Passes

section Config
variable {sed : Sed} {m : Module} {env : Env} {tree : Tree} {lines lines' : List Line}

variable {r : Rewrite} {line : Line} {word : List Char} {patched branded : List Line}
  {value : List Char}

theorem grep_mono (part : ∀ line ∈ lines, line ∈ lines') (found : grep word lines = true) :
    grep word lines' = true := by
  obtain ⟨line, member, isIn⟩ := List.any_eq_true.mp found
  exact List.any_eq_true.mpr ⟨line, part line member, isIn⟩

theorem grep_eq_true_iff :
    grep word lines = true ↔ ∃ line ∈ lines, ∃ part ∈ word.splitOn '\n', part <:+: line := by
  simp only [grep, List.any_eq_true, decide_eq_true_eq]

theorem grep_eq_false_iff (oneLine : '\n' ∉ word) :
    grep word lines = false ↔ ∀ line ∈ lines, ¬word <:+: line := by
  rw [← Bool.not_eq_true, grep_eq_true_iff, List.splitOn_eq_singleton oneLine]
  simp only [List.mem_singleton, exists_eq_left, not_exists, not_and]

variable {rewrites : List Rewrite}

theorem front_prefix_text (reads : Reads env rewrites)
    (member : r ∈ rewrites) : literal r.front <+: r.text env := by
  have read := reads r member
  rw [Rewrite.command, List.append_assoc, readReplacement_append r.frontReads] at read
  cases rest : readReplacement (sedEscape (r.value env) ++ r.back) with
  | error trouble =>
      rw [rest] at read
      cases read
  | ok text =>
      rw [rest] at read
      exact ⟨text, Except.ok.inj read⟩

theorem ok_of_map {read : Except Trouble Line} {f : Line → Line} {text : Line}
    (reads : read.map f = .ok text) :
    ∃ text', read = .ok text' := by
  cases read with
  | error trouble => cases reads
  | ok text' => exact ⟨text', rfl⟩

theorem noBreak_of_reads {raw text : List Char} (reads : readReplacement raw = .ok text) :
    '\n' ∉ raw := by
  fun_induction readReplacement raw generalizing text with
  | case1 => exact List.not_mem_nil
  | case2 | case3 | case5 | case6 => cases reads
  | case4 d more notSpecial ih =>
      obtain ⟨text', read⟩ := ok_of_map reads
      have notBreak : '\n' ≠ d := fun isBreak => notSpecial (.inr isBreak.symm)
      have notEscape : '\n' ≠ backslash := by decide
      exact List.not_mem_cons_of_ne_of_not_mem notEscape
        (List.not_mem_cons_of_ne_of_not_mem notBreak (ih read))
  | case7 c more notEscape notSpecial notBreak ih =>
      obtain ⟨text', read⟩ := ok_of_map reads
      exact List.not_mem_cons_of_ne_of_not_mem (Ne.symm notBreak) (ih read)

/-- A value that `sed` reads has line breaks at its end only. -/
theorem oneLine_of_value (reads : Reads env rewrites)
    (member : r ∈ rewrites) : '\n' ∉ stripNewlines (r.value env) := by
  intro breaks
  have raw : '\n' ∉ r.front ++ sedEscape (r.value env) ++ r.back := noBreak_of_reads (reads r member)
  apply raw
  rw [sedEscape_eq]
  have escaped : '\n' ∈ (stripNewlines (r.value env)).flatMap protect :=
    List.mem_flatMap.mpr ⟨'\n', breaks, by decide⟩
  exact List.mem_append_left _ (List.mem_append_right _ escaped)

theorem ends_with_break (oneLine : '\n' ∉ stripNewlines value) (breaks : '\n' ∈ value) :
    ∃ front, value = front ++ ['\n'] := by
  cases value using List.reverseRecOn with
  | nil => cases breaks
  | append_singleton front c =>
      rw [stripNewlines_concat] at oneLine
      split at oneLine
      case isTrue isBreak => exact ⟨front, by rw [isBreak]⟩
      case isFalse => exact absurd breaks oneLine

/-- Where a value was found between quotation marks, it is found when the line it was found in stays,
    or when the script has put it into another line that stays. -/
theorem grep_kept (reads : Reads env rewrites) (member : r ∈ rewrites)
    (front back : Line) (begins : literal r.front = front ++ [quote])
    (ends : literal r.back = quote :: back) {own : Line} (isOwn : r.text env <:+: own)
    (stays : own ∈ lines') (kept : ∀ line ∈ lines, line ∈ lines' ∨ backslash ∉ line)
    (found : grep (quoted (r.value env)) lines = true) :
    grep (quoted (r.value env)) lines' = true := by
  have oneLine := oneLine_of_value reads member
  rw [grep_eq_true_iff]
  by_cases breaks : '\n' ∈ r.value env
  · -- The mark behind the last line break is a word of its own, and the script has written one.
    obtain ⟨value, eq⟩ := ends_with_break oneLine breaks
    have words : (quoted (r.value env)).splitOn '\n' = (quote :: value).splitOn '\n' ++ [[quote]] := by
      rw [eq, show quoted (value ++ ['\n']) = (quote :: value) ++ '\n' :: [quote] by simp [quoted],
        List.splitOn_append_cons_self]
      congr 1
    have marked : [quote] <:+: r.text env := by
      have isFront := front_prefix_text reads member
      rw [begins] at isFront
      exact (List.suffix_append front [quote]).isInfix.trans isFront.isInfix
    exact ⟨own, stays, [quote], by rw [words]; simp, marked.trans isOwn⟩
  · have notQuote : '\n' ∉ quoted (r.value env) := by
      have other : '\n' ≠ quote := by decide
      simp [quoted, breaks, other]
    have single := List.splitOn_eq_singleton notQuote
    by_cases plain : backslash ∈ r.value env
    · obtain ⟨line, among, part, isPart, isIn⟩ := grep_eq_true_iff.mp found
      rw [single, List.mem_singleton] at isPart
      subst isPart
      have inLine : backslash ∈ line := by
        apply isIn.subset
        exact List.mem_cons_of_mem _ (List.mem_append_left _ plain)
      exact ⟨line, (kept line among).resolve_right fun absent => absent inLine, _,
        by rw [single]; exact List.mem_singleton_self _, isIn⟩
    · have text := text_eq plain oneLine
      rw [stripNewlines_eq breaks, begins, ends] at text
      have isIn : quoted (r.value env) <:+: r.text env := by
        rw [text]
        exact ⟨front, back, by simp [quoted]⟩
      exact ⟨own, stays, _, by rw [single]; exact List.mem_singleton_self _, isIn.trans isOwn⟩

theorem patch_of_fixed (clear : Clear env rewrites) (reads : Reads env rewrites)
    {check : List Line → Bool} (fixed : ∀ line ∈ lines, ∀ r ∈ rewrites, r.apply env line = line)
    (checked : check lines = true) : patch sed env rewrites check lines = some lines := by
  refine (patch_eq_some_iff clear).mpr ⟨reads, ?_, checked⟩
  have same : lines.map (rewriteAll env rewrites) = lines.map id :=
    List.map_congr_left fun line member => rewriteAll_of_fixed (fixed line member)
  rw [same, List.map_id]

theorem unbranded_of_pinned (pinned : Pinned m tree) (file : File) : Unbranded file (tree file) :=
  pinned.lines file

/-- What the first patch of `config.rs` leaves is in the final lines, or was there before. -/
theorem patched_kept (settled : env.Settled) (unbranded : Unbranded .configRs lines)
    (part : ∀ line ∈ lines.map (rewriteAll env (endpoints ++ identity)), line ∈ lines')
    (member : line ∈ lines.map (rewriteAll env endpoints)) :
    line ∈ lines' ∨ line ∈ sites .configRs := by
  obtain ⟨old, among, rfl⟩ := List.mem_map.mp member
  have image := part _ (List.mem_map_of_mem among)
  cases unbranded old among with
  | inl isSite =>
      have fixed : ∀ r ∈ endpoints ++ identity, r.apply env (branded env (endpoints ++ identity) old) =
          branded env (endpoints ++ identity) old := settled.sites .configRs old isSite
      rw [rewriteAll_eq_branded fixed] at image
      cases rewriteAll_front fixed with
      | inl made => exact .inl (made.symm ▸ image)
      | inr missed =>
          rw [rewriteAll_of_untouched missed]
          exact .inr isSite
  | inr untouched =>
      have missed : ∀ r ∈ endpoints, r.pattern.find old = none := fun r isRewrite =>
        untouched r (List.mem_append_left _ isRewrite)
      have same : rewriteAll env (endpoints ++ identity) old = old := rewriteAll_of_untouched untouched
      rw [same] at image
      rw [rewriteAll_of_untouched missed]
      exact .inl image

theorem apply_eq_of_find {before found after : Line}
    (finds : r.pattern.find line = some (before, found, after)) :
    r.apply env line = before ++ r.text env ++ after := by
  rw [Rewrite.apply, substitute, finds]

/-- The line of an endpoint holds what was put into it. -/
theorem text_in_own (settled : env.Settled) {site before found after : Line}
    (isSite : site ∈ sites .configRs)
    (first : (endpoints ++ identity).find? (Rewrite.finds site) = some r)
    (finds : r.pattern.find site = some (before, found, after)) :
    r.text env <:+: rewriteAll env (endpoints ++ identity) site := by
  have own : branded env (endpoints ++ identity) site = r.apply env site := by
    rw [branded, first]
  have made : rewriteAll env (endpoints ++ identity) site = branded env (endpoints ++ identity) site :=
    rewriteAll_eq_branded (settled.sites .configRs site isSite)
  rw [made, own, apply_eq_of_find finds]
  exact ⟨before, after, rfl⟩

/-- The checks of the first patch hold of all later states of `config.rs`. -/
theorem patchEndpoints_of_fixed (pinned : Pinned m tree) (settled : env.Settled)
    (made : patchEndpoints sed env (tree .configRs) = some patched)
    (part : ∀ line ∈ (tree .configRs).map (rewriteAll env (endpoints ++ identity)), line ∈ lines')
    (fixed : ∀ line ∈ lines', ∀ r ∈ endpoints, r.apply env line = line)
    (defaults : ∀ line ∈ lines', ¬upstreamServer <:+: line ∧ ¬upstreamKey <:+: line) :
    patchEndpoints sed env lines' = some lines' := by
  have clear : Clear env endpoints :=
    fun r member => settled.clear .configRs r (List.mem_append_left _ member)
  obtain ⟨reads, rfl, checked⟩ := (patch_eq_some_iff clear).mp made
  simp only [Bool.and_eq_true] at checked
  obtain ⟨⟨server, key⟩, _⟩ := checked
  have unbranded := unbranded_of_pinned pinned .configRs
  have noEscape : ∀ site ∈ sites .configRs, backslash ∉ site := by decide
  have kept :
      ∀ line ∈ (tree .configRs).map (rewriteAll env endpoints), line ∈ lines' ∨ backslash ∉ line :=
    fun line member => (patched_kept settled unbranded part member).imp_right (noEscape line)
  have stays {site : Line} (isSite : site ∈ sites .configRs) :
      rewriteAll env (endpoints ++ identity) site ∈ lines' :=
    part _ (List.mem_map_of_mem (pinned.present .configRs (by decide) site isSite))
  have serverSite : rendezvousLine upstreamServer ∈ sites .configRs := by decide
  have keySite : rsPubKeyLine upstreamKey ∈ sites .configRs := by decide
  apply patch_of_fixed clear reads fixed
  simp only [Bool.and_eq_true, Bool.not_eq_true', Bool.or_eq_false_iff]
  refine ⟨⟨?_, ?_⟩, ?_, ?_⟩
  · have finds : rendezvousRewrite.pattern.find (rendezvousLine upstreamServer) =
        some (chars "pub const RENDEZVOUS_SERVERS: &[&str] = ",
          chars "&[" ++ quoted upstreamServer ++ chars "]",
          chars ";") := by decide
    exact grep_kept reads (r := rendezvousRewrite) (by simp [endpoints]) (chars "&[") (chars "]")
      (by decide)
      (by decide) (text_in_own settled serverSite rfl finds) (stays serverSite) kept server
  · have finds : rsPubKeyRewrite.pattern.find (rsPubKeyLine upstreamKey) =
        some (rsPubKeyFront, quoted upstreamKey, chars ";") := by decide
    exact grep_kept reads (r := rsPubKeyRewrite) (by simp [endpoints]) [] [] (by decide) (by decide)
      (text_in_own settled keySite rfl finds) (stays keySite) kept key
  · exact (grep_eq_false_iff (by decide)).mpr fun line member => (defaults line member).1
  · exact (grep_eq_false_iff (by decide)).mpr fun line member => (defaults line member).2

/-- Nothing in the rewritten lines is an upstream default, nor names the anchor. -/
theorem config_line (pinned : Pinned m tree) (settled : env.Settled)
    (made : patchEndpoints sed env (tree .configRs) = some patched)
    (member : line ∈ (tree .configRs).map (rewriteAll env (endpoints ++ identity))) :
    (¬upstreamServer <:+: line ∧ ¬upstreamKey <:+: line) ∧ ¬anchorName <:+: line := by
  obtain ⟨old, among, rfl⟩ := List.mem_map.mp member
  cases pinned.lines .configRs old among with
  | inl isSite =>
      have image : rewriteAll env (endpoints ++ identity) old ∈
          (sites .configRs).map (branded env (rewritesOf .configRs)) :=
        List.mem_map.mpr ⟨old, isSite,
          (rewriteAll_eq_branded (settled.sites .configRs old isSite)).symm⟩
      exact ⟨settled.defaults _ (List.mem_append_left _ image), settled.anchorName _ image⟩
  | inr untouched =>
      have clear : Clear env endpoints :=
        fun r isRewrite => settled.clear .configRs r (List.mem_append_left _ isRewrite)
      obtain ⟨_, rfl, checked⟩ := (patch_eq_some_iff clear).mp made
      simp only [Bool.and_eq_true, Bool.not_eq_true', Bool.or_eq_false_iff] at checked
      have same : rewriteAll env (endpoints ++ identity) old = old := rewriteAll_of_untouched untouched
      have first : rewriteAll env endpoints old = old :=
        rewriteAll_of_untouched fun r isRewrite => untouched r (List.mem_append_left _ isRewrite)
      have isIn : old ∈ (tree .configRs).map (rewriteAll env endpoints) :=
        List.mem_map.mpr ⟨old, among, first⟩
      rw [same]
      exact ⟨⟨(grep_eq_false_iff (by decide)).mp checked.2.1 old isIn,
        (grep_eq_false_iff (by decide)).mp checked.2.2 old isIn⟩, pinned.noAnchor old among⟩

/-- The anchor is appended to the unbranded file. -/
theorem appendAnchor_of_pinned (pinned : Pinned m tree) (settled : env.Settled)
    (made : patchEndpoints sed env (tree .configRs) = some patched) :
    appendAnchor env ((tree .configRs).map (rewriteAll env (endpoints ++ identity))) =
      some ((tree .configRs).map (rewriteAll env (endpoints ++ identity)) ++ anchorLines env) := by
  have absent :
      contains ((tree .configRs).map (rewriteAll env (endpoints ++ identity))) anchorName = false :=
    contains_eq_false fun line member => (config_line pinned settled made member).2
  rw [appendAnchor, absent, if_neg Bool.false_ne_true]

theorem contains_of_mem {word : Line} (member : line ∈ lines) (isIn : word <:+: line) :
    contains lines word = true :=
  List.any_eq_true.mpr ⟨line, member, decide_eq_true isIn⟩

theorem branded_of_config (settled : env.Settled)
    (first : patchEndpoints sed env (tree .configRs) = some patched)
    (second : patchIdentity sed env patched = some branded) :
    branded = (tree .configRs).map (rewriteAll env (endpoints ++ identity)) := by
  have clear : Clear env endpoints :=
    fun r member => settled.clear .configRs r (List.mem_append_left _ member)
  have clear' : Clear env identity :=
    fun r member => settled.clear .configRs r (List.mem_append_right _ member)
  obtain ⟨_, rfl, _⟩ := (patch_eq_some_iff clear).mp first
  obtain ⟨_, rfl, _⟩ := (patch_eq_some_iff clear').mp second
  rw [List.map_map]
  exact List.map_congr_left fun line _ => (rewriteAll_append endpoints identity).symm

theorem patchIdentity_of_fixed (settled : env.Settled)
    (made : patchIdentity sed env patched = some branded) (part : ∀ line ∈ branded, line ∈ lines')
    (fixed : ∀ line ∈ lines', ∀ r ∈ identity, r.apply env line = line) :
    patchIdentity sed env lines' = some lines' := by
  have clear : Clear env identity :=
    fun r member => settled.clear .configRs r (List.mem_append_right _ member)
  obtain ⟨reads, _, checked⟩ := (patch_eq_some_iff clear).mp made
  simp only [Bool.and_eq_true] at checked
  apply patch_of_fixed clear reads fixed
  simp only [Bool.and_eq_true]
  exact ⟨grep_mono part checked.1, grep_mono part checked.2⟩

theorem config_resumable (pinned : Pinned m tree) (settled : env.Settled) :
    Passes.Resumable [patchEndpoints sed env, patchIdentity sed env,
      appendAnchor env] (tree .configRs) := by
  have unbranded := unbranded_of_pinned pinned .configRs
  have fixed : ∀ line ∈ (tree .configRs).map (rewriteAll env (endpoints ++ identity)),
      ∀ r ∈ endpoints ++ identity, r.apply env line = line :=
        fun line => fixed_of_unbranded settled unbranded
  apply Passes.resumable_three
  · intro patched first
    exact patch_again settled (show rewritesOf .configRs = endpoints ++ identity by rfl) unbranded first
  · intro patched branded first second
    obtain rfl := branded_of_config settled first second
    constructor
    · exact patchEndpoints_of_fixed pinned settled first (fun line member => member)
        (fun line member r isRewrite => fixed line member r (List.mem_append_left _ isRewrite))
        (fun line member => (config_line pinned settled first member).1)
    · exact patchIdentity_of_fixed settled second (fun line member => member)
        (fun line member r isRewrite => fixed line member r (List.mem_append_right _ isRewrite))
  · intro patched branded final first second third
    obtain rfl := branded_of_config settled first second
    rw [appendAnchor_of_pinned pinned settled first, Option.some.injEq] at third
    subst third
    have fixed' :
        ∀ line ∈ (tree .configRs).map (rewriteAll env (endpoints ++ identity)) ++ anchorLines env,
        ∀ r ∈ endpoints ++ identity, r.apply env line = line := by
      intro line member
      cases List.mem_append.mp member with
      | inl before => exact fixed line before
      | inr added => exact settled.anchor line added
    refine ⟨?_, ?_, ?_⟩
    · apply patchEndpoints_of_fixed pinned settled first
        (fun line member => List.mem_append_left _ member)
        (fun line member r isRewrite => fixed' line member r (List.mem_append_left _ isRewrite))
      intro line member
      cases List.mem_append.mp member with
      | inl before => exact (config_line pinned settled first before).1
      | inr added => exact settled.defaults line (List.mem_append_right _ added)
    · exact patchIdentity_of_fixed settled second (fun line member => List.mem_append_left _ member)
        (fun line member r isRewrite => fixed' line member r (List.mem_append_right _ isRewrite))
    · have named : anchorStatic ∈ anchorLines env := List.mem_append_right _ (List.mem_cons_self ..)
      rw [appendAnchor, contains_of_mem (List.mem_append_right _ named) (by decide), if_pos rfl]

theorem splitOn_breaks (k : Nat) {rest : List Char} (oneLine : '\n' ∉ rest) :
    (List.replicate k '\n' ++ rest).splitOn '\n' = List.replicate k [] ++ [rest] := by
  induction k with
  | zero => exact List.splitOn_eq_singleton oneLine
  | succ k ih =>
      have first : ([] ++ '\n' :: (List.replicate k '\n' ++ rest)).splitOn '\n' =
          [] :: (List.replicate k '\n' ++ rest).splitOn '\n' :=
        List.splitOn_append_cons_self_of_not_mem List.not_mem_nil _
      rw [List.replicate_succ, List.replicate_succ, List.cons_append, List.cons_append, ← ih]
      exact first

theorem eq_strip_append (value : List Char) :
    ∃ k, value = stripNewlines value ++ List.replicate k '\n' := by
  induction value using List.reverseRecOn with
  | nil => exact ⟨0, rfl⟩
  | append_singleton front c ih =>
      rw [stripNewlines_concat]
      split
      case isTrue isBreak =>
        obtain ⟨k, eq⟩ := ih
        refine ⟨k + 1, ?_⟩
        rw [List.replicate_succ', ← List.append_assoc, ← eq, isBreak]
      case isFalse => exact ⟨0, (List.append_nil _).symm⟩

/-- A line of the anchor with a value in it does not begin like its first line. -/
theorem head_of_rawLine (oneLine : '\n' ∉ stripNewlines value)
    (member : line ∈ (rawLine value).splitOn '\n') : line.head? ≠ anchorStatic.head? := by
  obtain ⟨k, eq⟩ := eq_strip_append value
  have front : '\n' ∉ chars "    r" ++ quote :: stripNewlines value := by
    have begins : '\n' ∉ chars "    r" := by decide
    have notQuote : '\n' ≠ quote := by decide
    simp [begins, notQuote, oneLine]
  have shape : rawLine value =
      (chars "    r" ++ quote :: stripNewlines value) ++ (List.replicate k '\n' ++ [quote, ',']) := by
    rw [rawLine, quoted]
    nth_rewrite 1 [eq]
    simp
    rfl
  rw [shape] at member
  cases k with
  | zero =>
      have single : '\n' ∉ (chars "    r" ++ quote :: stripNewlines value) ++ [quote, ','] :=
        List.not_mem_append front (by decide)
      rw [List.replicate_zero, List.nil_append, List.splitOn_eq_singleton single,
        List.mem_singleton] at member
      rw [member,
        show ((chars "    r" ++ quote :: stripNewlines value) ++ [quote, ',']).head? =
        some ' ' by rfl]
      decide
  | succ k =>
      rw [List.replicate_succ, List.cons_append, List.splitOn_append_cons_self_of_not_mem front,
        splitOn_breaks k (by decide)] at member
      cases List.mem_cons.mp member with
      | inl first =>
          rw [first, show (chars "    r" ++ quote :: stripNewlines value).head? = some ' ' by rfl]
          decide
      | inr later =>
          cases List.mem_append.mp later with
          | inl empty =>
              rw [(List.mem_replicate.mp empty).2]
              decide
          | inr last =>
              rw [List.mem_singleton.mp last]
              decide

theorem count_anchor (oneLine : ∀ value ∈ anchorValues env, '\n' ∉ stripNewlines value) :
    (anchorLines env).count anchorStatic = 1 := by
  have noComment : anchorStatic ∉ anchorComment := by decide
  have noValue :
      anchorStatic ∉ (anchorValues env).flatMap fun value => (rawLine value).splitOn '\n' := by
    intro member
    obtain ⟨value, isValue, isLine⟩ := List.mem_flatMap.mp member
    exact head_of_rawLine (oneLine value isValue) isLine rfl
  have noEnd : anchorStatic ∉ [chars "];"] := by decide
  rw [anchorLines, List.count_append, List.count_cons_self, List.count_append,
    List.count_eq_zero_of_not_mem noComment, List.count_eq_zero_of_not_mem noValue,
    List.count_eq_zero_of_not_mem noEnd]

end Config

section Server
variable {sed : Sed} {m : Module} {env : Env} {tree : Tree} {called appended : List Line}
  {lines : List Line} {line : Line}

theorem rdropWhile_append {α : Type*} {p : α → Bool} {front back : List α} {x : α} (member : x ∈ back)
    (stops : p x = false) : (front ++ back).rdropWhile p = front ++ back.rdropWhile p := by
  have full : ¬(back.reverse.dropWhile p).isEmpty = true := by
    rw [List.isEmpty_iff, List.dropWhile_eq_nil_iff]
    intro all
    rw [all x (List.mem_reverse.mpr member)] at stops
    cases stops
  rw [List.rdropWhile, List.rdropWhile, List.reverse_append, List.dropWhile_append, if_neg full,
    List.reverse_append, List.reverse_reverse]

theorem rstrip_eq {kept : List Line} (eq : lines.rdropWhile (·.all Char.isWhitespace) = kept)
    (full : kept ≠ []) :
    rstrip lines = kept.dropLast ++ [(kept.getLast full).rdropWhile Char.isWhitespace] := by
  rw [rstrip]
  split
  case h_1 empty => exact absurd (eq.symm.trans empty) full
  case h_2 first rest eq' =>
    obtain rfl := eq.symm.trans eq'
    rfl

/-- What stands before a line that is not blank stays. -/
theorem rstrip_append {front back : List Line} (member : line ∈ back)
    (notBlank : line.all Char.isWhitespace = false) :
    rstrip (front ++ back) = front ++ rstrip back := by
  have whole : (front ++ back).rdropWhile (·.all Char.isWhitespace) =
      front ++ back.rdropWhile (·.all Char.isWhitespace) := rdropWhile_append member notBlank
  have full : back.rdropWhile (·.all Char.isWhitespace) ≠ [] := by
    intro empty
    have blank := List.rdropWhile_eq_nil_iff.mp empty line member
    rw [notBlank] at blank
    cases blank
  have full' : front ++ back.rdropWhile (·.all Char.isWhitespace) ≠ [] :=
    List.append_ne_nil_of_right_ne_nil _ full
  rw [rstrip_eq whole full', rstrip_eq rfl full, List.dropLast_append_of_ne_nil full, List.append_assoc,
    List.getLast_append_of_ne_nil full' full]

/-- The call and the function are in the file once the module is appended. -/
theorem appended_eq (pinned : Pinned m tree) (inserted : insertCall (tree .serverRs) = some called)
    (made : appendModule m called = some appended) :
    ∃ before behind, appended = before ++ bootstrapCall :: (behind ++ [] :: m.lines) ∧
      ∀ line ∈ before ++ behind, ¬bootstrapName <:+: line := by
  obtain ⟨before, after, eq, rfl⟩ := insertCall_of_pinned pinned inserted
  have absent :
      ∀ line ∈ before ++ (startAllFront ++ startAllBack) ++ after, ¬bootstrapName <:+: line := by
    intro line member
    exact pinned.noBootstrap line (List.mem_append_left _ (eq ▸ member))
  have last : chars "    \x7d else \x7b" ∈ startAllBack ++ after := List.mem_append_left _ (by decide)
  have shape : before ++ (startAllFront ++ bootstrapCall :: startAllBack) ++ after =
      (before ++ startAllFront ++ [bootstrapCall]) ++ (startAllBack ++ after) := by simp
  refine ⟨before ++ startAllFront, rstrip (startAllBack ++ after), ?_, fun line member => ?_⟩
  · rw [appendModule_of_pinned pinned inserted made, shape, rstrip_append last (by decide)]
    simp
  · cases List.mem_append.mp member with
    | inl isIn =>
        apply absent line
        simp only [List.mem_append] at isIn ⊢
        tauto
    | inr isIn =>
        cases mem_rstrip isIn with
        | inl empty =>
            subst empty
            decide
        | inr part =>
            have ⟨whole, among, isStart⟩ := part
            have noName : ¬bootstrapName <:+: whole := by
              apply absent whole
              simp only [List.mem_append] at among ⊢
              tauto
            exact fun named => noName (named.trans isStart.isInfix)

theorem unbranded_appended (pinned : Pinned m tree)
    (inserted : insertCall (tree .serverRs) = some called)
    (made : appendModule m called = some appended) : Unbranded .serverRs appended := by
  obtain ⟨before, after, rfl, idle⟩ := idle_appended pinned inserted made
  intro line member
  simp only [List.mem_append] at member
  rcases member with (isIn | isConst) | isIn
  · exact .inr (idle line (List.mem_append_left _ isIn)).1
  · exact .inl isConst
  · exact .inr (idle line (List.mem_append_right _ isIn)).1

theorem rewriteAll_call : rewriteAll env sentinels bootstrapCall = bootstrapCall :=
  rewriteAll_of_untouched (by decide)

theorem rewriteAll_fn : rewriteAll env sentinels bootstrapFn = bootstrapFn :=
  rewriteAll_of_untouched (by decide)

theorem insertCall_of_mem (member : bootstrapCall ∈ lines) : insertCall lines = some lines := by
  rw [insertCall, contains_of_mem member (by decide), if_pos rfl]

theorem appendModule_of_mem (member : bootstrapFn ∈ lines) : appendModule m lines = some lines := by
  rw [appendModule, contains_of_mem member (by decide), if_pos rfl]

theorem server_resumable (pinned : Pinned m tree) (settled : env.Settled) :
    Passes.Resumable [insertCall, appendModule m, patchSentinels sed env] (tree .serverRs) := by
  apply Passes.resumable_three
  · intro called inserted
    obtain ⟨before, after, _, rfl⟩ := insertCall_of_pinned pinned inserted
    exact insertCall_of_mem (by simp)
  · intro called appended inserted made
    obtain ⟨before, behind, rfl, _⟩ := appended_eq pinned inserted made
    exact ⟨insertCall_of_mem (by simp), appendModule_of_mem (by simp [Module.lines])⟩
  · intro called appended final inserted made patched
    have unbranded := unbranded_appended pinned inserted made
    have again :=
      patch_again settled (show rewritesOf .serverRs = sentinels ++ [] by rfl) unbranded patched
    obtain ⟨_, rfl, _⟩ := (patch_eq_some_iff (settled.clear .serverRs)).mp patched
    obtain ⟨before, behind, rfl, _⟩ := appended_eq pinned inserted made
    refine ⟨insertCall_of_mem ?_, appendModule_of_mem ?_, again⟩
    · exact List.mem_map.mpr ⟨bootstrapCall, by simp, rewriteAll_call⟩
    · exact List.mem_map.mpr ⟨bootstrapFn, by simp [Module.lines], rewriteAll_fn⟩

theorem count_one {front back : List Line} {rewrite : Line → Line} (fixed : rewrite line = line)
    (others : ∀ other ∈ front ++ back, rewrite other ≠ line) :
    ((front ++ line :: back).map rewrite).count line = 1 := by
  have none {lines : List Line} (absent : ∀ other ∈ lines, rewrite other ≠ line) :
      (lines.map rewrite).count line = 0 := by
    apply List.count_eq_zero_of_not_mem
    intro member
    obtain ⟨other, isIn, eq⟩ := List.mem_map.mp member
    exact absent other isIn eq
  rw [List.map_append, List.map_cons, fixed, List.count_append, List.count_cons_self,
    none fun other member => others other (List.mem_append_left _ member),
    none fun other member => others other (List.mem_append_right _ member)]

/-- No line without the name of the bootstrap becomes one with it, but for the constants. -/
theorem rewriteAll_ne (unbranded : Unbranded .serverRs appended) {made : Line}
    (member : line ∈ appended) (unnamed : ¬bootstrapName <:+: line)
    (named : bootstrapName <:+: made) (notConst : ¬constFront <+: made) :
    rewriteAll env sentinels line ≠ made := by
  cases unbranded line member with
  | inl isConst =>
      have fronts : ∀ site ∈ sites .serverRs, constFront <+: site.takeWhile (· ≠ quote) := by decide
      have plain : quote ∉ line.takeWhile (· ≠ quote) := fun isIn => by
        simpa using List.mem_takeWhile_imp isIn
      have kept : rewriteAll env sentinels line = line.takeWhile (· ≠ quote) ++
          rewriteAll env sentinels (line.dropWhile (· ≠ quote)) := by
        rw [← rewriteAll_behind plain, List.takeWhile_append_dropWhile]
      intro eq
      rw [kept] at eq
      exact notConst (eq ▸ (fronts line isConst).trans (List.prefix_append ..))
  | inr untouched =>
      have same : rewriteAll env sentinels line = line := rewriteAll_of_untouched untouched
      rw [same]
      exact fun eq => unnamed (eq ▸ named)

theorem count_bootstrap (pinned : Pinned m tree) (inserted : insertCall (tree .serverRs) = some called)
    (made : appendModule m called = some appended) :
    (appended.map (rewriteAll env sentinels)).count bootstrapCall = 1 ∧
      (appended.map (rewriteAll env sentinels)).count bootstrapFn = 1 := by
  have unbranded := unbranded_appended pinned inserted made
  obtain ⟨before, behind, rfl, unnamed⟩ := appended_eq pinned inserted made
  have others : ∀ line ∈ before ++ behind ++ [] :: (m.comment ++ fleetConsts ++ [] :: m.body),
      ¬bootstrapName <:+: line := by
    intro line member
    have consts : ∀ const ∈ fleetConsts, ¬bootstrapName <:+: const := by decide
    have empty : ¬bootstrapName <:+: [] := by decide
    have inModule : line ∈ m.comment ++ m.body → ¬bootstrapName <:+: line := fun isIn =>
      pinned.noBootstrap line (List.mem_append_right _ isIn)
    simp only [List.mem_append, List.mem_cons] at member inModule
    rcases member with isIn | rfl | (isComment | isConst) | rfl | isBody
    · exact unnamed line (List.mem_append.mpr isIn)
    · exact empty
    · exact inModule (.inl isComment)
    · exact consts line isConst
    · exact empty
    · exact inModule (.inr isBody)
  constructor
  · apply count_one rewriteAll_call
    intro line member
    by_cases isFn : line = bootstrapFn
    · rw [isFn, rewriteAll_fn]
      decide
    · apply rewriteAll_ne unbranded _ _ (by decide) (by decide)
      · simp only [List.mem_append, List.mem_cons] at member ⊢
        tauto
      · apply others line
        simp only [Module.lines, List.mem_append, List.mem_cons] at member ⊢
        tauto
  · have shape : before ++ bootstrapCall :: (behind ++ [] :: m.lines) =
        (before ++ bootstrapCall :: (behind ++ [] :: (m.comment ++ fleetConsts ++ [[]]))) ++ bootstrapFn :: m.body := by
      simp [Module.lines]
    rw [shape] at unbranded ⊢
    apply count_one rewriteAll_fn
    intro line member
    by_cases isCall : line = bootstrapCall
    · rw [isCall, rewriteAll_call]
      decide
    · apply rewriteAll_ne unbranded _ _ (by decide) (by decide)
      · simp only [List.mem_append, List.mem_cons] at member ⊢
        tauto
      · apply others line
        simp only [List.mem_append, List.mem_cons, List.not_mem_nil, or_false] at member ⊢
        tauto

end Server

variable {sed : Sed} {m : Module} {env : Env} {tree final : Tree}

theorem file_resumable (pinned : Pinned m tree) (settled : env.Settled) (file : File) :
    Passes.Resumable (Passes.passesOf file (script sed m env)) (tree file) := by
  have single (rewrites : List Rewrite) (check : List Line →
      Bool) (split : rewritesOf file = rewrites ++ []) :
      Passes.Resumable [patch sed env rewrites check] (tree file) :=
    Passes.resumable_single fun lines made => patch_again settled split (pinned.lines file) made
  cases file with
  | configRs => exact config_resumable pinned settled
  | serverRs => exact server_resumable pinned settled
  | commonRs => exact single _ _ rfl
  | androidGradle => exact single _ _ rfl
  | androidManifest => exact single _ _ rfl
  | macosXcconfig => exact single _ _ rfl
  | winRunnerRc => exact single _ _ rfl
  | hbbLibRs => exact single _ _ rfl
  | updaterRs => exact single _ _ rfl

theorem oneLine_of_done (settled : env.Settled) (done : applyBranding sed m env tree = some final) :
    ∀ value ∈ anchorValues env, '\n' ∉ stripNewlines value := by
  obtain ⟨patched, _, first, _⟩ := config_of_done done
  have clear : Clear env endpoints :=
    fun r member => settled.clear .configRs r (List.mem_append_left _ member)
  have endpointsRead := ((patch_eq_some_iff clear).mp first).1
  have apiReads := ((patch_eq_some_iff (settled.clear .commonRs)).mp (common_of_done done)).1
  have ⟨appName, _⟩ := ordinary_of_accepted (accepted_of_done done)
  intro value member
  simp only [anchorValues, List.mem_cons, List.not_mem_nil, or_false] at member
  rcases member with rfl | rfl | rfl | rfl
  · exact oneLine_of_value endpointsRead (r := rendezvousRewrite) (by simp [endpoints])
  · exact oneLine_of_value endpointsRead (r := rsPubKeyRewrite) (by simp [endpoints])
  · exact oneLine_of_value apiReads (List.mem_singleton_self apiRewrite)
  · exact fun breaks => appName.not_mem (by decide) (mem_of_mem_strip breaks)

theorem settled_smallEnv : smallEnv.Settled where
  clear := by
    intro file
    have clear : ∀ r ∈ rewritesOf file,
        readReplacement (r.command smallEnv).replacement ≠ .error .unclear := by
      cases file <;> decide
    exact clear
  sites := by
    intro file
    cases file <;> decide +kernel
  anchor := by decide +kernel
  defaults := by decide +kernel
  anchorName := by decide +kernel

/-- An API server of the upstream's own -/
def upstreamEnv : Env := { smallEnv with apiServer := chars "https://rs-ny.rustdesk.com" }

theorem upstreamEnv_fails_again :
    (applyBranding (fun _ _ => none) smallModule upstreamEnv smallTree).map
    (fun final => (applyBranding (fun _ _ => none) smallModule upstreamEnv final).isSome) =
      some false := by
  decide +kernel

end RemoteControl.Branding
