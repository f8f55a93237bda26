import RemoteControl.PathText

/-! # Prefixes of a path that is continued

A name that is pushed onto a path can complete a prefix that the path only begins, `\\server` with the
name `share` for one. Here is when it does.
-/

namespace RemoteControl.PathText

section Behind

variable {path server share name first rest tail : Text} {a b c : Char} {backslashes : Bool}

def Clean (text : Text) : Prop := ∀ c ∈ text, isSep true c = false

theorem parseUnc_of_clean (clean : Clean path) : parseUnc path = none := by
  unfold parseUnc
  rw [nextComponent_of_clean clean]
  exact if_neg fun given => given.2 rfl

theorem parseUnc_server (clean : Clean server) (sep : isSep true c = true) (rest : Text) :
    parseUnc (server ++ c :: rest) =
      if server ≠ [] ∧ (nextComponent (isSep true) rest).1 ≠ [] then
        some (.unc server (nextComponent (isSep true) rest).1) else none := by
  unfold parseUnc
  rw [nextComponent_append clean sep]

/-- A component is empty if and only if a separator or nothing is there. -/
theorem nextComponent_nil_iff (sep : Char → Bool) :
    (nextComponent sep path).1 = [] ↔ path = [] ∨ path.head?.any sep = true := by
  cases path with
  | nil => exact ⟨fun _ => .inl rfl, fun _ => rfl⟩
  | cons c path =>
      have begins : (c :: path).head?.any sep = sep c := rfl
      rw [begins, nextComponent, List.takeWhile_cons]
      cases sep c
      · simp
      · simp

theorem nextComponent_eq_nil_iff :
    (nextComponent (isSep true) path).1 = [] ↔ path = [] ∨ beginsWithSep true path = true :=
  nextComponent_nil_iff (isSep true)

theorem nextComponent_continued (some_ : rest ≠ [])
    (glued : beginsWithSep true tail = true ∨ rest.getLast?.any (isSep true) = true) :
    (nextComponent (isSep true) (rest ++ tail)).1 = (nextComponent (isSep true) rest).1 := by
  rcases nextComponent_cases (isSep true) rest with clean | ⟨share, d, more, clean, sep, rfl⟩
  · rcases glued with begins | ends
    · cases tail with
      | nil => cases begins
      | cons d tail => rw [nextComponent_append clean begins, nextComponent_of_clean clean]
    · rw [List.getLast?_eq_some_getLast some_] at ends
      have last := clean _ (List.getLast_mem some_)
      exact absurd (last.symm.trans ends) nofun
  · rw [List.append_assoc, List.cons_append, nextComponent_append clean sep,
      nextComponent_append clean sep]

/-- The first separator of a text divides it in one way only. -/
theorem clean_unique {first' rest' : Text} {c' : Char} (clean : Clean first) (sep : isSep true c = true)
    (clean' : Clean first') (sep' : isSep true c' = true)
    (same : first ++ c :: rest = first' ++ c' :: rest') :
    first = first' ∧ c = c' ∧ rest = rest' := by
  have one := nextComponent_append clean sep rest
  rw [same, nextComponent_append clean' sep'] at one
  obtain rfl : first = first' := (congrArg Prod.fst one).symm
  obtain ⟨rfl, rfl⟩ := List.cons.inj (List.append_cancel_left same)
  exact ⟨rfl, rfl, rfl⟩

theorem isVerbatim_parseVerbatim : (parseVerbatim path).isVerbatim = true := by
  have name {path : Text} : (parseVerbatimName path).isVerbatim = true := by
    unfold parseVerbatimName
    split
    · rfl
    · rfl
  unfold parseVerbatim
  split
  · split
    · rfl
    · exact name
  · exact name

theorem parseVerbatim_ne_deviceNs {device : Text} : parseVerbatim path ≠ .deviceNs device := fun same =>
  nomatch (congrArg Prefix.isVerbatim same).symm.trans isVerbatim_parseVerbatim

theorem isDrive_parseUnc : (parseUnc path).any Prefix.isDrive = false := by
  unfold parseUnc
  dsimp only
  split
  · rfl
  · rfl

theorem isDrive_parseBehind : (parseBehind backslashes path).any Prefix.isDrive = false := by
  unfold parseBehind
  split
  · split
    · have verbatim {p : Prefix} (is : p.isVerbatim = true) : p.isDrive = false := by
        cases p with
        | disk drive => cases is
        | _ => rfl
      exact verbatim isVerbatim_parseVerbatim
    · exact isDrive_parseUnc
  · split
    · rfl
    · exact isDrive_parseUnc
  · exact isDrive_parseUnc

/-- A text behind two separators by its first component. -/
theorem parseBehind_server (clean : Clean server) (sep : isSep true c = true) (rest : Text) :
    parseBehind backslashes (server ++ c :: rest) =
      if server = ['?'] ∧ backslashes = true ∧ c = '\\' then some (parseVerbatim rest)
      else if server = ['.'] then some (.deviceNs (nextComponent (isSep true) rest).1)
      else parseUnc (server ++ c :: rest) := by
  have question : Clean ['?'] := by rintro _ ⟨⟩; rfl; contradiction
  have dot : Clean ['.'] := by rintro _ ⟨⟩; rfl; contradiction
  generalize is : server ++ c :: rest = text
  unfold parseBehind
  split
  · next d more =>
      have other : server ≠ ['.'] := by
        rintro rfl
        exact absurd (List.cons.inj is).1 (by decide)
      by_cases verbatim : (backslashes && d = '\\') = true
      · obtain ⟨slashes, slash⟩ := Bool.and_eq_true_iff.mp verbatim
        have slash : d = '\\' := of_decide_eq_true slash
        obtain ⟨rfl, rfl, rfl⟩ := clean_unique clean sep question (by rw [slash]; rfl) is
        rw [if_pos verbatim, if_pos ⟨rfl, slashes, slash⟩]
      · rw [if_neg verbatim, if_neg, if_neg other]
        rintro ⟨rfl, slashes, rfl⟩
        obtain rfl := (List.cons.inj (List.cons.inj is).2).1
        exact verbatim (by rw [slashes]; rfl)
  · next d more =>
      have other : server ≠ ['?'] := by
        rintro rfl
        exact absurd (List.cons.inj is).1 (by decide)
      by_cases device : isSep true d = true
      · obtain ⟨rfl, rfl, rfl⟩ := clean_unique clean sep dot device is
        rw [if_pos device, if_neg fun given => other given.1, if_pos rfl]
      · rw [if_neg device, if_neg fun given => other given.1, if_neg]
        rintro rfl
        obtain rfl := (List.cons.inj (List.cons.inj is).2).1
        exact device sep
  · next noQuestion noDot =>
      rw [if_neg, if_neg]
      · rintro rfl
        exact noDot c rest is.symm
      · rintro ⟨rfl, -⟩
        exact noQuestion c rest is.symm

theorem parseBehind_of_clean (clean : Clean path) : parseBehind backslashes path = none := by
  unfold parseBehind
  split
  · next d more =>
      have other : ¬(backslashes && d = '\\') = true := by
        intro given
        have slash : d = '\\' := of_decide_eq_true (Bool.and_eq_true_iff.mp given).2
        have second := clean d (List.mem_cons_of_mem _ List.mem_cons_self)
        rw [slash] at second
        cases second
      rw [if_neg other, parseUnc_of_clean clean]
  · next d more =>
      have second : isSep true d = false := clean d (List.mem_cons_of_mem _ List.mem_cons_self)
      rw [second, if_neg nofun, parseUnc_of_clean clean]
  · exact parseUnc_of_clean clean

/-- What has a share already, or nothing for a server, keeps its prefix. -/
theorem parseBehind_continued (clean : Clean server) (sep : isSep true c = true)
    (closed : server = [] ∨ rest ≠ [] ∧
      (beginsWithSep true tail = true ∨ rest.getLast?.any (isSep true) = true))
    (plain : ¬(server = ['?'] ∧ backslashes = true ∧ c = '\\')) :
    parseBehind backslashes (server ++ c :: rest ++ tail) =
      parseBehind backslashes (server ++ c :: rest) := by
  rw [List.append_assoc, List.cons_append, parseBehind_server clean sep,
    parseBehind_server clean sep, if_neg plain, if_neg plain]
  rcases closed with rfl | ⟨some_, glued⟩
  · rw [if_neg nofun, if_neg nofun, parseUnc_server clean sep, parseUnc_server clean sep]
    rw [if_neg fun given => given.1 rfl, if_neg fun given => given.1 rfl]
  · rw [nextComponent_continued some_ glued, parseUnc_server clean sep, parseUnc_server clean sep,
      nextComponent_continued some_ glued]

/-- A server without a share is no prefix, and with a name behind it is one. -/
theorem parseBehind_completed (clean : Clean server) (some_ : server ≠ []) (sep : isSep true c = true)
    (named : name ≠ []) (relative : beginsWithSep true name = false) :
    parseBehind backslashes (server ++ c :: name) ≠ none ∧
      parseBehind backslashes (server ++ c :: name) ≠ some (.deviceNs []) := by
  have first : (nextComponent (isSep true) name).1 ≠ [] := by
    rw [Ne, nextComponent_eq_nil_iff, relative]
    simpa using named
  rw [parseBehind_server clean sep]
  split
  · exact ⟨nofun, fun same => parseVerbatim_ne_deviceNs (Option.some.inj same)⟩
  · split
    · exact ⟨nofun, fun same => first (Prefix.deviceNs.inj (Option.some.inj same))⟩
    · rw [parseUnc_server clean sep, if_pos ⟨some_, first⟩]
      exact ⟨nofun, nofun⟩

theorem parseBehind_bare (clean : Clean server) (sep : isSep true c = true)
    (plain : ¬(server = ['?'] ∧ backslashes = true ∧ c = '\\')) :
    parseBehind backslashes (server ++ [c]) = none ∨
      parseBehind backslashes (server ++ [c]) = some (.deviceNs []) := by
  rw [parseBehind_server clean sep, if_neg plain]
  split
  · exact .inr rfl
  · rw [parseUnc_server clean sep]
    exact .inl (if_neg fun given => given.2 rfl)

/-- A name of several components completes a prefix behind two separators, unless the second one is
empty. -/
theorem parseBehind_ne_none_iff (named : name ≠ []) (relative : beginsWithSep true name = false) :
    parseBehind backslashes name ≠ none ↔
      ∃ first c rest, name = first ++ c :: rest ∧ Clean first ∧ isSep true c = true ∧
        (first = ['.'] ∨ first = ['?'] ∧ backslashes = true ∧ c = '\\' ∨
          rest ≠ [] ∧ beginsWithSep true rest = false) := by
  rcases nextComponent_cases (isSep true) name with clean | ⟨first, c, rest, clean, sep, rfl⟩
  · constructor
    · exact fun some_ => absurd (parseBehind_of_clean clean) some_
    · rintro ⟨first, c, rest, rfl, -, sep, -⟩
      have inside := clean c (List.mem_append_right first List.mem_cons_self)
      exact absurd (sep.symm.trans inside) nofun
  · have some_ : first ≠ [] := by
      rintro rfl
      exact absurd (sep.symm.trans relative) nofun
    have only :
        (∃ first' c' rest',
        first ++ c :: rest = first' ++ c' :: rest' ∧ Clean first' ∧ isSep true c' = true ∧
        (first' = ['.'] ∨ first' = ['?'] ∧ backslashes = true ∧ c' = '\\' ∨
          rest' ≠ [] ∧ beginsWithSep true rest' = false)) ↔
        (first = ['.'] ∨ first = ['?'] ∧ backslashes = true ∧ c = '\\' ∨
          rest ≠ [] ∧ beginsWithSep true rest = false) := by
      constructor
      · rintro ⟨first', c', rest', same, clean', sep', shape⟩
        obtain ⟨rfl, rfl, rfl⟩ := clean_unique clean sep clean' sep' same
        exact shape
      · exact fun shape => ⟨first, c, rest, rfl, clean, sep, shape⟩
    rw [only, parseBehind_server clean sep]
    split
    · next question => exact iff_of_true nofun (.inr (.inl question))
    · next noQuestion =>
        split
        · next dot => exact iff_of_true nofun (.inl dot)
        · next noDot =>
            have share : (nextComponent (isSep true) rest).1 ≠ [] ↔
                rest ≠ [] ∧ beginsWithSep true rest = false := by
              rw [Ne, nextComponent_eq_nil_iff, not_or, Bool.not_eq_true]
            rw [parseUnc_server clean sep, or_iff_right noDot, or_iff_right noQuestion, ← share]
            split
            · next given => exact iff_of_true nofun given.2
            · next given =>
                exact iff_of_false (fun some_ => some_ rfl) fun share => given ⟨some_, share⟩

end Behind

/-- Two separators and a server without a share. -/
def IsBareServer (base : Text) : Prop :=
  ∃ a b server tail,
    base = a :: b :: (server ++ tail) ∧ isSep true a = true ∧ isSep true b = true ∧ server ≠ [] ∧
    Clean server ∧ (tail = [] ∨ ∃ c, isSep true c = true ∧ tail = [c])

/-- Two separators alone, which a name of several components completes. -/
def Completes (base name : Text) : Prop :=
  ∃ a b, base = [a, b] ∧ isSep true a = true ∧ isSep true b = true ∧
    ∃ first c rest, name = first ++ c :: rest ∧ Clean first ∧ isSep true c = true ∧
      (first = ['.'] ∨ first = ['?'] ∧ (a = '\\' && b = '\\') = true ∧ c = '\\' ∨
        rest ≠ [] ∧ beginsWithSep true rest = false)

section Bases

variable {base name path rest : Text} {a b c : Char}

theorem parsePrefix_two (sep : isSep true a = true) (sep' : isSep true b = true) :
    parsePrefix (a :: b :: path) = parseBehind (a = '\\' && b = '\\') path := by
  rw [parsePrefix, sep, sep', Bool.and_self, if_pos rfl]

theorem not_isAlpha_of_isSep (sep : isSep true c = true) : c.isAlpha = false := by
  simp only [isSep, Bool.or_eq_true, Bool.and_eq_true, decide_eq_true_eq, true_and] at sep
  rcases sep with rfl | rfl
  · decide
  · decide

/-- Without two separators in front the first two letters tell the prefix. -/
theorem parsePrefix_drive (other : ¬(isSep true a && isSep true b) = true) :
    parsePrefix (a :: b :: path) =
      if a.isAlpha = true ∧ b = ':' then some (.disk a.toUpper) else none := by
  rw [parsePrefix, if_neg other]
  unfold parseDrive
  split
  · next same =>
      obtain ⟨rfl, tail⟩ := List.cons.inj same
      obtain ⟨rfl, -⟩ := List.cons.inj tail
      cases a.isAlpha
      · rfl
      · rfl
  · next noColon =>
      rw [if_neg]
      · rfl
      · rintro ⟨-, rfl⟩
        exact noColon a path rfl

theorem isDrive_two (sep : isSep true a = true) (sep' : isSep true b = true) :
    (prefixOf true (a :: b :: path)).any Prefix.isDrive = false := by
  show (parsePrefix (a :: b :: path)).any Prefix.isDrive = false
  rw [parsePrefix_two sep sep', isDrive_parseBehind]

theorem glue_of_clean_end {front : Text} (ends : base = front ++ [c]) (other : isSep true c = false)
    (notDrive : (prefixOf true base).any Prefix.isDrive = false) : glue true base = ['\\'] := by
  have needs : needSep true base = true := by
    rw [needSep, notDrive, ends, List.getLast?_concat]
    simpa using other
  rw [glue, needs]
  rfl

theorem glue_of_sep_end {front : Text} (ends : base = front ++ [c]) (sep : isSep true c = true) :
    glue true base = [] := by
  have needs : needSep true base = false := by
    rw [needSep, ends, List.getLast?_concat]
    simp [sep]
  rw [glue, needs]
  rfl

/-- The server of a base is what is before its first separator but two. -/
theorem isBareServer_iff {server : Text} (sep : isSep true a = true) (sep' : isSep true b = true)
    (clean : Clean server) (third : isSep true c = true) :
    IsBareServer (a :: b :: (server ++ c :: rest)) ↔ server ≠ [] ∧ rest = [] := by
  constructor
  · rintro ⟨a', b', server', tail, same, -, -, some_, clean', shape⟩
    simp only [List.cons.injEq] at same
    obtain ⟨rfl, rfl, same⟩ := same
    rcases shape with rfl | ⟨d, fourth, rfl⟩
    · have inside := clean' c (by
        rw [List.append_nil] at same
        rw [← same]
        exact List.mem_append_right server List.mem_cons_self)
      exact absurd (third.symm.trans inside) nofun
    · obtain ⟨rfl, -, rfl⟩ := clean_unique clean third clean' fourth same
      exact ⟨some_, rfl⟩
  · rintro ⟨some_, rfl⟩
    exact ⟨a, b, server, [c], rfl, sep, sep', some_, clean, .inr ⟨c, third, rfl⟩⟩

theorem prefix_completed_of_isBareServer (named : name ≠ [])
    (relative : beginsWithSep true name = false)
    (plain : verbatim (parsePrefix base) = false) (bare : IsBareServer base) :
    parsePrefix (base ++ (glue true base ++ name)) ≠ parsePrefix base := by
  obtain ⟨a, b, server, tail, rfl, sep, sep', some_, clean, shape⟩ := bare
  have drive := @isDrive_two (server ++ tail) a b sep sep'
  have read : parsePrefix (a :: b :: (server ++ tail)) = none ∨
      parsePrefix (a :: b :: (server ++ tail)) = some (.deviceNs []) := by
    rw [parsePrefix_two sep sep'] at plain ⊢
    rcases shape with rfl | ⟨c, third, rfl⟩
    · rw [List.append_nil]
      exact .inl (parseBehind_of_clean clean)
    · refine parseBehind_bare clean third fun given => ?_
      rw [parseBehind_server clean third, if_pos given] at plain
      have plain : (parseVerbatim []).isVerbatim = false := plain
      exact absurd (isVerbatim_parseVerbatim.symm.trans plain) nofun
  have continued : ∃ c, isSep true c = true ∧
      a :: b :: (server ++ tail) ++ (glue true (a :: b :: (server ++ tail)) ++ name) =
        a :: b :: (server ++ c :: name) := by
    rcases shape with rfl | ⟨c, third, rfl⟩
    · obtain ⟨front, c, rfl⟩ := (List.eq_nil_or_concat server).resolve_left some_
      rw [List.concat_eq_append] at clean drive ⊢
      refine ⟨'\\', rfl, ?_⟩
      have glued : glue true (a :: b :: (front ++ [c] ++ [])) = ['\\'] :=
        @glue_of_clean_end _ c (a :: b :: front) (by simp)
          (clean c (List.mem_append_right front List.mem_cons_self)) drive
      rw [glued]
      simp
    · refine ⟨c, third, ?_⟩
      have glued : glue true (a :: b :: (server ++ [c])) = [] :=
        @glue_of_sep_end _ c (a :: b :: server) rfl third
      rw [glued]
      simp
  obtain ⟨c, third, continued⟩ := continued
  obtain ⟨notNone, notDevice⟩ :=
    @parseBehind_completed server name c (a = '\\' && b = '\\') clean some_ third named relative
  rw [continued, parsePrefix_two sep sep']
  rcases read with read | read
  · rwa [read]
  · rwa [read]

theorem continued_alone_iff (named : name ≠ []) (relative : beginsWithSep true name = false)
    (sep : isSep true a = true) (sep' : isSep true b = true) :
    parsePrefix ([a, b] ++ (glue true [a, b] ++ name)) = parsePrefix [a, b] ↔
      ¬IsBareServer [a, b] ∧ ¬Completes [a, b] name := by
  have glued : glue true [a, b] = [] := @glue_of_sep_end _ b [a] rfl sep'
  have alone : parsePrefix [a, b] = none := by
    rw [parsePrefix_two sep sep', parseBehind_of_clean (List.forall_mem_nil _)]
  have notBare : ¬IsBareServer [a, b] := by
    rintro ⟨_, _, server, tail, same, -, -, some_, -⟩
    simp only [List.cons.injEq] at same
    exact some_ (List.append_eq_nil_iff.mp same.2.2.symm).1
  have completes : Completes [a, b] name ↔ parseBehind (a = '\\' && b = '\\') name ≠ none := by
    rw [parseBehind_ne_none_iff named relative]
    constructor
    · rintro ⟨_, _, same, -, -, shape⟩
      simp only [List.cons.injEq] at same
      obtain ⟨rfl, rfl, -⟩ := same
      exact shape
    · exact fun shape => ⟨a, b, rfl, sep, sep', shape⟩
  rw [glued, alone, completes, not_not, and_iff_right notBare]
  show parsePrefix (a :: b :: name) = none ↔ _
  rw [parsePrefix_two sep sep']

theorem continued_two_iff (isName : IsName true name)
    (plain : verbatim (parsePrefix (a :: b :: path)) = false)
    (sep : isSep true a = true) (sep' : isSep true b = true) :
    parsePrefix (a :: b :: path ++ (glue true (a :: b :: path) ++ name)) =
      parsePrefix (a :: b :: path) ↔
      ¬IsBareServer (a :: b :: path) ∧ ¬Completes (a :: b :: path) name := by
  by_cases some_ : path = []
  · rw [some_]
    exact continued_alone_iff isName.some_ isName.relative sep sep'
  have notCompletes : ¬Completes (a :: b :: path) name := by
    rintro ⟨_, _, same, -⟩
    simp only [List.cons.injEq] at same
    exact some_ same.2.2
  rw [and_iff_left notCompletes]
  constructor
  · exact fun same bare => prefix_completed_of_isBareServer isName.some_ isName.relative plain bare same
  · intro notBare
    rcases nextComponent_cases (isSep true) path with clean | ⟨server, c, rest, clean, third, rfl⟩
    · exact absurd ⟨a, b, path, [], by rw [List.append_nil], sep, sep', some_, clean, .inl rfl⟩ notBare
    · rw [isBareServer_iff sep sep' clean third, not_and_or, not_not] at notBare
      have drive := @isDrive_two (server ++ c :: rest) a b sep sep'
      rw [parsePrefix_two sep sep'] at plain
      show parsePrefix (a :: b :: (server ++ c :: rest ++ _)) = _
      rw [parsePrefix_two sep sep', parsePrefix_two sep sep']
      refine parseBehind_continued clean third
        (notBare.imp_right fun more => ⟨more, ?_⟩) fun given => ?_
      · obtain ⟨front, d, rfl⟩ := (List.eq_nil_or_concat rest).resolve_left more
        rw [List.concat_eq_append] at drive ⊢
        rw [List.getLast?_concat]
        cases last : isSep true d with
        | true => exact .inr last
        | false =>
            have glued : glue true (a :: b :: (server ++ c :: (front ++ [d]))) = ['\\'] :=
              @glue_of_clean_end _ d (a :: b :: (server ++ c :: front)) (by simp) last drive
            rw [glued]
            exact .inl rfl
      · rw [parseBehind_server clean third, if_pos given] at plain
        have plain : (parseVerbatim rest).isVerbatim = false := plain
        exact absurd (isVerbatim_parseVerbatim.symm.trans plain) nofun

/-- When a name leaves the prefix of a path as it is. -/
theorem prefix_continued_iff (isName : IsName true name) (plain : verbatim (parsePrefix base) = false) :
    parsePrefix (base ++ (glue true base ++ name)) = parsePrefix base ↔
      ¬IsBareServer base ∧ ¬Completes base name := by
  have noPrefix : parsePrefix name = none := isName.noPrefix
  match base with
  | [] => exact iff_of_true noPrefix ⟨by rintro ⟨_, _, _, _, ⟨⟩, _⟩, by rintro ⟨_, _, ⟨⟩, _⟩⟩
  | [c] =>
      refine iff_of_true ?_ ⟨by rintro ⟨_, _, _, _, ⟨⟩, _⟩, by rintro ⟨_, _, ⟨⟩, _⟩⟩
      obtain ⟨d, name', rfl⟩ := List.exists_cons_of_ne_nil isName.some_
      cases sep : isSep true c with
      | true =>
          have glued : glue true [c] = [] := @glue_of_sep_end _ c [] rfl sep
          have second : isSep true d = false := isName.relative
          have other : ¬(isSep true c && isSep true d) = true := by
            rw [second, Bool.and_false]; exact nofun
          rw [glued]
          show parsePrefix (c :: d :: name') = none
          rw [parsePrefix_drive other, if_neg]
          rintro ⟨alpha, -⟩
          exact nomatch alpha.symm.trans (not_isAlpha_of_isSep sep)
      | false =>
          have glued : glue true [c] = ['\\'] := @glue_of_clean_end _ c [] rfl sep rfl
          have other : ¬(isSep true c && isSep true '\\') = true := by
            rw [sep, Bool.false_and]; exact nofun
          rw [glued]
          show parsePrefix (c :: '\\' :: d :: name') = none
          rw [parsePrefix_drive other, if_neg]
          exact fun given => absurd given.2 (by decide)
  | a :: b :: path =>
      by_cases two : (isSep true a && isSep true b) = true
      · obtain ⟨sep, sep'⟩ := Bool.and_eq_true_iff.mp two
        exact continued_two_iff isName plain sep sep'
      · refine iff_of_true ?_ ⟨?_, ?_⟩
        · show parsePrefix (a :: b :: (path ++ _)) = _
          rw [parsePrefix_drive two, parsePrefix_drive two]
        · rintro ⟨_, _, _, _, same, sep, sep', -⟩
          simp only [List.cons.injEq] at same
          obtain ⟨rfl, rfl, -⟩ := same
          exact two (Bool.and_eq_true_iff.mpr ⟨sep, sep'⟩)
        · rintro ⟨_, _, same, sep, sep', -⟩
          simp only [List.cons.injEq] at same
          obtain ⟨rfl, rfl, -⟩ := same
          exact two (Bool.and_eq_true_iff.mpr ⟨sep, sep'⟩)

end Bases

section Verbatim

variable {path rest x : Text} {c : Char}

def VerbatimClean (text : Text) : Prop := ∀ c ∈ text, isVerbatimSep c = false

/-- What a name completes behind `\\?\`: `UNC` without a server, or a server without a share. -/
def IsBareVerbatim (p : Prefix) : Prop :=
  p = .verbatim ['U', 'N', 'C'] ∨ ∃ server, p = .verbatimUnc server []

/-- `UNC\` behind `\\?\`. -/
def IsUnc (path : Text) : Prop := ∃ c more, path = 'U' :: 'N' :: 'C' :: c :: more ∧ isSep true c = true

theorem parseVerbatim_unc (sep : isSep true c = true) (rest : Text) :
    parseVerbatim ('U' :: 'N' :: 'C' :: c :: rest) =
      .verbatimUnc (nextComponent isVerbatimSep rest).1
        (nextComponent isVerbatimSep (nextComponent isVerbatimSep rest).2).1 := by
  rw [parseVerbatim, if_pos sep]

theorem parseVerbatim_of_not_isUnc (other : ¬IsUnc path) :
    parseVerbatim path = parseVerbatimName path := by
  unfold parseVerbatim
  split
  · next c more =>
      rw [if_neg]
      exact fun sep => other ⟨c, more, rfl, sep⟩
  · rfl

/-- The part of a path that is its prefix is continued behind a separator. -/
theorem parseVerbatim_continued_unc (sep : isSep true c = true)
    (finished : ¬IsBareVerbatim (parseVerbatim ('U' :: 'N' :: 'C' :: c :: rest))) (x : Text) :
    parseVerbatim (('U' :: 'N' :: 'C' :: c :: rest).take
        ((parseVerbatim ('U' :: 'N' :: 'C' :: c :: rest)).len - 4) ++ '\\' :: x) =
      parseVerbatim ('U' :: 'N' :: 'C' :: c :: rest) := by
  rw [parseVerbatim_unc sep] at finished ⊢
  rcases nextComponent_cases isVerbatimSep rest with clean | ⟨server, d, after, clean, slash, rfl⟩
  · rw [nextComponent_of_clean clean] at finished
    exact absurd (.inr ⟨rest, rfl⟩) finished
  · rw [nextComponent_append clean slash] at finished ⊢
    have kept (share : Text) (cleanShare : VerbatimClean share) (some_ : share ≠ []) (more : Text)
        (is : after = share ++ more) (read : (nextComponent isVerbatimSep after).1 = share) :
        parseVerbatim (('U' :: 'N' :: 'C' :: c :: (server ++ d :: after)).take
          ((Prefix.verbatimUnc server share).len - 4) ++ '\\' :: x) = .verbatimUnc server share := by
      have len : (Prefix.verbatimUnc server share).len - 4 = (server ++ d :: share).length + 4 := by
        rw [Prefix.len, if_pos some_, List.length_append, List.length_cons]
        omega
      have taken :
          ('U' :: 'N' :: 'C' :: c :: (server ++ d :: after)).take
          ((server ++ d :: share).length + 4) =
          'U' :: 'N' :: 'C' :: c :: (server ++ d :: share) := by
        have whole : server ++ d :: after = server ++ d :: share ++ more := by rw [is]; simp
        rw [List.take_succ_cons, List.take_succ_cons, List.take_succ_cons, List.take_succ_cons, whole,
          List.take_left]
      rw [len, taken]
      show parseVerbatim ('U' :: 'N' :: 'C' :: c :: (server ++ d :: share ++ '\\' :: x)) = _
      rw [parseVerbatim_unc sep, List.append_assoc, List.cons_append, nextComponent_append clean slash,
        nextComponent_append cleanShare rfl]
    rcases nextComponent_cases isVerbatimSep after with cleanShare | ⟨share, e, more, cleanShare,
      slash', rfl⟩
    · have read : (nextComponent isVerbatimSep after).1 = after := by
        rw [nextComponent_of_clean cleanShare]
      have some_ : after ≠ [] := by
        rintro rfl
        exact finished (.inr ⟨server, rfl⟩)
      rw [read]
      exact kept after cleanShare some_ [] (List.append_nil after).symm read
    · have read : (nextComponent isVerbatimSep (share ++ e :: more)).1 = share := by
        rw [nextComponent_append cleanShare slash']
      rw [read] at finished ⊢
      have some_ : share ≠ [] := by
        rintro rfl
        exact finished (.inr ⟨server, rfl⟩)
      exact kept share cleanShare some_ (e :: more) rfl read

theorem parseDriveExact_eq_some_iff {drive : Char} :
    parseDriveExact path = some drive ↔
      ∃ d tail, path = d :: ':' :: tail ∧ d.isAlpha = true ∧ d.toUpper = drive ∧
        (tail = [] ∨ beginsWithSep true tail = true) := by
  have letters {path : Text} : parseDrive path = some drive ↔
      ∃ d tail, path = d :: ':' :: tail ∧ d.isAlpha = true ∧ d.toUpper = drive := by
    unfold parseDrive
    split
    · next d tail =>
        constructor
        · intro read
          split at read
          · next alpha => exact ⟨d, tail, rfl, alpha, Option.some.inj read⟩
          · cases read
        · rintro ⟨d', tail', same, alpha, upper⟩
          obtain ⟨rfl, -⟩ := List.cons.inj same
          rw [if_pos alpha, upper]
    · next noColon => exact iff_of_false nofun fun ⟨d, tail, same, _⟩ => noColon d tail same
  unfold parseDriveExact
  split
  · next d e c tail =>
      constructor
      · intro read
        split at read
        · next sep =>
            obtain ⟨d', tail', same, alpha, upper⟩ := letters.mp read
            refine ⟨d', tail', same, alpha, upper, .inr ?_⟩
            simp only [List.cons.injEq] at same
            rw [← same.2.2]
            exact sep
        · cases read
      · rintro ⟨d', tail', same, alpha, upper, closed⟩
        simp only [List.cons.injEq] at same
        obtain ⟨rfl, rfl, rfl⟩ := same
        have sep : isSep true c = true := closed.resolve_left nofun
        rw [if_pos sep]
        exact letters.mpr ⟨d, c :: tail, rfl, alpha, upper⟩
  · next short =>
      rw [letters]
      constructor
      · rintro ⟨d, tail, rfl, alpha, upper⟩
        cases tail with
        | nil => exact ⟨d, [], rfl, alpha, upper, .inl rfl⟩
        | cons c tail => exact absurd rfl (short d ':' c tail)
      · rintro ⟨d, tail, rfl, alpha, upper, -⟩
        exact ⟨d, tail, rfl, alpha, upper⟩

theorem parseVerbatim_continued_name (other : ¬IsUnc rest)
    (finished : ¬IsBareVerbatim (parseVerbatim rest)) (x : Text) :
    parseVerbatim (rest.take ((parseVerbatim rest).len - 4) ++ '\\' :: x) = parseVerbatim rest := by
  rw [parseVerbatim_of_not_isUnc other] at finished ⊢
  unfold parseVerbatimName at finished ⊢
  cases exact_ : parseDriveExact rest with
  | some drive =>
      obtain ⟨d, tail, rfl, alpha, upper, -⟩ := parseDriveExact_eq_some_iff.mp exact_
      show parseVerbatim (d :: ':' :: '\\' :: x) = .verbatimDisk drive
      have noUnc : ¬IsUnc (d :: ':' :: '\\' :: x) := by
        rintro ⟨c, more, same, -⟩
        simp only [List.cons.injEq] at same
        exact absurd same.2.1 (by decide)
      rw [parseVerbatim_of_not_isUnc noUnc, parseVerbatimName,
        parseDriveExact_eq_some_iff.mpr ⟨d, '\\' :: x, rfl, alpha, upper, .inr rfl⟩]
  | none =>
      rw [exact_] at finished
      dsimp only at finished ⊢
      obtain ⟨after, whole, clean, behind⟩ := nextComponent_behind isVerbatimSep rest
      have closed : after = [] ∨ beginsWithSep true after = true := behind.imp_right fun slash => by
        cases after with
        | nil => cases slash
        | cons c after => exact Bool.or_eq_true_iff.mpr (.inr slash)
      generalize (nextComponent isVerbatimSep rest).1 = name at whole clean finished ⊢
      have len : (Prefix.verbatim name).len - 4 = name.length := Nat.add_sub_cancel_left 4 name.length
      rw [len, whole, List.take_left]
      have noUnc : ¬IsUnc (name ++ '\\' :: x) := by
        rintro ⟨c, more, same, sep⟩
        match name with
        | [] => exact absurd (List.cons.inj same).1 (by decide)
        | [_] => exact absurd (List.cons.inj (List.cons.inj same).2).1 (by decide)
        | [_, _] => exact absurd (List.cons.inj (List.cons.inj (List.cons.inj same).2).2).1 (by decide)
        | [_, _, _] =>
            simp only [List.cons_append, List.cons.injEq] at same
            obtain ⟨rfl, rfl, rfl, -⟩ := same
            exact finished (.inl rfl)
        | _ :: _ :: _ :: d :: more' =>
            simp only [List.cons_append, List.cons.injEq] at same
            obtain ⟨rfl, rfl, rfl, rfl, -⟩ := same
            exact other ⟨d, more' ++ after, whole, sep⟩
      have noDrive : parseDriveExact (name ++ '\\' :: x) = none := by
        refine Option.eq_none_iff_forall_ne_some.mpr fun drive found => ?_
        obtain ⟨d, tail, same, alpha, upper, ends⟩ := parseDriveExact_eq_some_iff.mp found
        match name with
        | [] =>
            obtain ⟨rfl, -⟩ := List.cons.inj same
            exact absurd alpha (by decide)
        | [_] => exact absurd (List.cons.inj (List.cons.inj same).2).1 (by decide)
        | [_, _] =>
            simp only [List.cons_append, List.cons.injEq] at same
            obtain ⟨rfl, rfl, -⟩ := same
            exact nomatch exact_.symm.trans
              (parseDriveExact_eq_some_iff.mpr ⟨_, after, whole, alpha, upper, closed⟩)
        | _ :: _ :: e :: more' =>
            simp only [List.cons_append, List.cons.injEq] at same
            obtain ⟨rfl, rfl, rfl⟩ := same
            have ends : beginsWithSep true (e :: more' ++ after) = true := ends.resolve_left nofun
            exact nomatch exact_.symm.trans
              (parseDriveExact_eq_some_iff.mpr ⟨_, _, whole, alpha, upper, .inr ends⟩)
      rw [parseVerbatim_of_not_isUnc noUnc, parseVerbatimName, noDrive, nextComponent_append clean rfl]

/-- A name completes what is bare. -/
theorem parseVerbatim_completed (bare : IsBareVerbatim (parseVerbatim rest)) (some_ : x ≠ [])
    (relative : x.head?.any isVerbatimSep = false) :
    parseVerbatim (rest.take ((parseVerbatim rest).len - 4) ++ '\\' :: x) ≠ parseVerbatim rest := by
  by_cases unc : IsUnc rest
  · obtain ⟨c, more, rfl, sep⟩ := unc
    have share : (nextComponent isVerbatimSep x).1 ≠ [] := by
      rw [Ne, nextComponent_nil_iff, relative]
      simpa using some_
    rw [parseVerbatim_unc sep] at bare ⊢
    obtain ⟨server, is⟩ := bare.resolve_left (by simp)
    obtain ⟨first, none_⟩ := Prefix.verbatimUnc.inj is
    obtain ⟨after, whole, clean, -⟩ := nextComponent_behind isVerbatimSep more
    rw [first] at whole clean
    obtain rfl := whole
    rw [first, none_]
    have len : (Prefix.verbatimUnc server []).len - 4 = server.length + 4 := by
      rw [Prefix.len, if_neg fun given => given rfl]
      omega
    rw [len, List.take_succ_cons, List.take_succ_cons, List.take_succ_cons, List.take_succ_cons,
      List.take_left]
    show parseVerbatim ('U' :: 'N' :: 'C' :: c :: (server ++ '\\' :: x)) ≠ _
    rw [parseVerbatim_unc sep, nextComponent_append clean rfl]
    exact fun same => share (Prefix.verbatimUnc.inj same).2
  · rw [parseVerbatim_of_not_isUnc unc] at bare ⊢
    have name : parseVerbatimName rest = .verbatim ['U', 'N', 'C'] := by
      refine bare.resolve_right ?_
      rintro ⟨server, is⟩
      unfold parseVerbatimName at is
      split at is
      · cases is
      · cases is
    have begins : ∃ after, rest = 'U' :: 'N' :: 'C' :: after := by
      unfold parseVerbatimName at name
      split at name
      · cases name
      · have first := Prefix.verbatim.inj name
        obtain ⟨after, whole, -⟩ := nextComponent_behind isVerbatimSep rest
        rw [first] at whole
        exact ⟨after, whole⟩
    obtain ⟨after, rfl⟩ := begins
    rw [name]
    show parseVerbatim ('U' :: 'N' :: 'C' :: '\\' :: x) ≠ _
    rw [parseVerbatim_unc rfl]
    simp

/-- A verbatim path begins with `\\?\`. -/
theorem verbatim_begins {base : Text} (is : verbatim (parsePrefix base) = true) :
    ∃ rest, base = '\\' :: '\\' :: '?' :: '\\' :: rest ∧
      parsePrefix base = some (parseVerbatim rest) := by
  have notUnc {path : Text} : ¬verbatim (parseUnc path) = true := by
    unfold parseUnc
    dsimp only
    split
    · exact nofun
    · exact nofun
  unfold parsePrefix at is
  split at is
  · next a b path =>
      split at is
      · next two =>
          unfold parseBehind at is
          split at is
          · next c rest =>
              split at is
              · next slashes =>
                  simp only [Bool.and_eq_true, decide_eq_true_eq] at slashes
                  obtain ⟨⟨rfl, rfl⟩, rfl⟩ := slashes
                  exact ⟨rest, rfl, rfl⟩
              · exact absurd is notUnc
          · split at is
            · exact absurd is nofun
            · exact absurd is notUnc
          · exact absurd is notUnc
      · have notDisk : verbatim ((parseDrive (a :: b :: path)).map .disk) = false := by
          cases parseDrive (a :: b :: path)
          · rfl
          · rfl
        exact nomatch notDisk.symm.trans is
  · exact absurd is nofun

end Verbatim

section Rendered

variable {base name : Text} {p : Prefix} {all more : List Text} {root : Bool}

theorem clean_of_mem_splitOnP {sep : Char → Bool} {text part : Text}
    (inside : part ∈ text.splitOnP sep) :
    ∀ c ∈ part, sep c = false := by
  induction text generalizing part with
  | nil =>
      obtain rfl := List.mem_singleton.mp inside
      exact nofun
  | cons c text ih =>
      rw [List.splitOnP_cons_eq_if_modifyHead] at inside
      split at inside
      · rcases List.mem_cons.mp inside with rfl | inside
        · exact nofun
        · exact ih inside
      · next noSep =>
          obtain ⟨first, others, split⟩ := List.exists_cons_of_ne_nil (List.splitOnP_ne_nil sep text)
          rw [split] at ih inside
          rcases List.mem_cons.mp inside with rfl | inside
          · exact List.forall_mem_cons.mpr ⟨Bool.eq_false_iff.mpr noSep, ih List.mem_cons_self⟩
          · exact ih (List.mem_cons_of_mem first inside)

/-- Parts as they may stand in a verbatim path. -/
def Whole (names : List Text) : Prop := ∀ part ∈ names, part ≠ [] ∧ VerbatimClean part

theorem whole_parts (is : verbatim (parsePrefix base) = true) : Whole (parts true base) := by
  intro part inside
  obtain ⟨inside, counted⟩ := List.mem_filter.mp inside
  refine ⟨of_decide_eq_true (Bool.and_eq_true_iff.mp counted).1, fun c there => ?_⟩
  have clean := clean_of_mem_splitOnP inside c there
  rwa [sepOf, show verbatim (prefixOf true base) = true from is, if_pos rfl] at clean

theorem whole_name (isName : IsName true name) : Whole (parts true name) := by
  rw [isName.parts_eq]
  intro part inside
  obtain ⟨inside, counted⟩ := List.mem_filter.mp inside
  refine ⟨of_decide_eq_true (Bool.and_eq_true_iff.mp counted).1, fun c there => ?_⟩
  have clean := clean_of_mem_splitOnP inside c there
  exact (Bool.or_eq_false_iff.mp clean).2

theorem filter_whole (is : p.isVerbatim = true) (whole : Whole all) :
    all.filter (counts (some p)) = all := by
  refine List.filter_eq_self.mpr fun part inside => ?_
  have verb : verbatim (some p) = true := is
  rw [counts, verb, Bool.true_or, Bool.and_true]
  exact decide_eq_true (whole part inside).1

/-- What is rendered behind a prefix has the components that it was rendered from. -/
theorem partsBehind_render (is : p.isVerbatim = true) (whole : Whole all) :
    partsBehind true (some p) (if root || all ≠ [] then '\\' :: ['\\'].intercalate all else []) =
      all := by
  have verb : verbatim (some p) = true := is
  have seps : sepOf true (some p) = isVerbatimSep := by rw [sepOf, verb, if_pos rfl]
  have split (behind : Text) : behind.splitOnP isVerbatimSep = behind.splitOn '\\' :=
    List.splitOn_eq_splitOnP.symm
  have body (behind : Text) : bodyOf true ('\\' :: behind) = behind := rfl
  have empty : (([] : Text).splitOnP isVerbatimSep).filter (counts (some p)) = [] := rfl
  unfold partsBehind
  rw [seps]
  split
  · rw [body]
    by_cases none_ : all = []
    · rw [none_]
      exact empty
    · rw [split, List.splitOn_intercalate '\\' _ none_, filter_whole is whole]
      intro part inside slash
      exact absurd ((whole part inside).2 '\\' slash) (by decide)
  · next none_ =>
      have none_ : all = [] := by
        by_contra some_
        exact none_ (by rw [decide_eq_true some_, Bool.or_true])
      rw [none_]
      exact empty

theorem afterPrefix_render (read : parsePrefix base = some p) {behind : Text}
    (same : parsePrefix (base.take p.len ++ behind) = some p) :
    afterPrefix true (base.take p.len ++ behind) = behind := by
  have long : p.len ≤ base.length := by
    have le := prefixLen_le true base
    rwa [show prefixOf true base = some p from read] at le
  rw [afterPrefix, show prefixOf true (base.take p.len ++ behind) = some p from same]
  exact List.drop_left' (List.length_take_of_le long)

theorem parsePrefix_render_iff (read : parsePrefix base = some p) (is : p.isVerbatim = true)
    (whole : Whole all) (some_ : all ≠ []) :
    parsePrefix (render (base.take p.len) root all) = some p ↔ ¬IsBareVerbatim p := by
  obtain ⟨rest, rfl, shape⟩ :=
    verbatim_begins (show verbatim (parsePrefix base) = true by rw [read]; exact is)
  obtain rfl := Option.some.inj (read.symm.trans shape)
  have long : 4 ≤ (parseVerbatim rest).len := by
    cases given : parseVerbatim rest with
    | verbatim name => exact Nat.le_add_right 4 _
    | verbatimUnc server share =>
        rw [Prefix.len]
        omega
    | verbatimDisk drive => exact (by decide : 4 ≤ 6)
    | deviceNs device => exact absurd given parseVerbatim_ne_deviceNs
    | unc server share =>
        rw [given] at is
        cases is
    | disk drive =>
        rw [given] at is
        cases is
  have text : render (('\\' :: '\\' :: '?' :: '\\' :: rest).take (parseVerbatim rest).len) root all =
      '\\' :: '\\' :: '?' :: '\\' :: (rest.take
        ((parseVerbatim rest).len - 4) ++ '\\' :: ['\\'].intercalate all) := by
    have four : (parseVerbatim rest).len = (parseVerbatim rest).len - 4 + 4 := by omega
    rw [four, render, decide_eq_true some_, Bool.or_true, if_pos rfl]
    rfl
  have begins :
      ['\\'].intercalate all ≠ [] ∧ (['\\'].intercalate all).head?.any isVerbatimSep = false := by
    obtain ⟨first, others, rfl⟩ := List.exists_cons_of_ne_nil some_
    obtain ⟨named, clean⟩ := whole first List.mem_cons_self
    obtain ⟨c, more, rfl⟩ := List.exists_cons_of_ne_nil named
    rw [List.intercalate_cons_cons_left]
    exact ⟨List.cons_ne_nil c _, clean c List.mem_cons_self⟩
  rw [text]
  show some (parseVerbatim _) = some (parseVerbatim rest) ↔ _
  rw [Option.some_inj]
  constructor
  · exact fun same bare => parseVerbatim_completed bare begins.1 begins.2 same
  · intro finished
    by_cases unc : IsUnc rest
    · obtain ⟨c, more, rfl, sep⟩ := unc
      exact parseVerbatim_continued_unc sep finished _
    · exact parseVerbatim_continued_name unc finished _

/-- Parts that are rendered behind those of a verbatim path lead below it, unless they complete its
prefix. -/
theorem below_render_iff (read : parsePrefix base = some p) (is : p.isVerbatim = true)
    (plain : Plain more) (whole : Whole more) :
    Below true base (render (base.take p.len) root (parts true base ++ more)) ↔
      more ≠ [] ∧ ¬IsBareVerbatim p := by
  have verb : verbatim (parsePrefix base) = true := by rw [read]; exact is
  have wholeAll : Whole (parts true base ++ more) := fun part inside =>
    (List.mem_append.mp inside).elim (whole_parts verb part) (whole part)
  have implicit : p.hasImplicitRoot = true := by
    cases p with
    | disk drive => cases is
    | _ => rfl
  have readOf : prefixOf true base = some p := read
  have leads (same : parsePrefix (render (base.take p.len) root (parts true base ++ more)) = some p) :
      locate true (render (base.take p.len) root (parts true base ++ more)) =
        (locate true base).down more := by
    have sameOf :
        prefixOf true (render (base.take p.len) root (parts true base ++ more)) = some p := same
    refine locate_of_parts plain (sameOf.trans readOf.symm) ?_ ?_
    · rw [hasRoot, hasRoot, sameOf, readOf, Option.any_some, implicit, Bool.true_or, Bool.true_or]
    · rw [parts, sameOf]
      unfold render at same ⊢
      rw [afterPrefix_render read same, partsBehind_render is wholeAll]
  have stable (some_ : more ≠ []) := @parsePrefix_render_iff base p _ root read is wholeAll
    (List.append_ne_nil_of_right_ne_nil _ some_)
  constructor
  · intro below
    have same := below.prefixOf_eq.trans readOf
    have some_ := (below_iff_of_locate (leads same)).mp below
    exact ⟨some_, (stable some_).mp same⟩
  · rintro ⟨some_, finished⟩
    exact (below_iff_of_locate (leads ((stable some_).mpr finished))).mpr some_

theorem foldl_pushPart (plain : Plain more) : more.foldl pushPart all = all ++ more := by
  induction more generalizing all with
  | nil => exact (List.append_nil all).symm
  | cons part more ih =>
      obtain ⟨⟨-, dots⟩, ⟨dotDot_, dotDots⟩⟩ :=
        plain.imp List.ne_and_not_mem_of_not_mem_cons List.ne_and_not_mem_of_not_mem_cons
      rw [List.foldl_cons, ih ⟨dots, dotDots⟩, pushPart, if_neg dotDot_.symm, List.append_assoc]
      rfl

theorem push_verbatim (isName : IsName true name) (read : parsePrefix base = some p)
    (is : p.isVerbatim = true) :
    push true base name =
      render (base.take p.len) (beginsWithSep true (afterPrefix true base))
        (parts true base ++ parts true name) := by
  have readOf : prefixOf true base = some p := read
  have verb : verbatim (some p) = true := is
  unfold push
  rw [isName.noPrefix, isName.not_hasRoot, readOf, verb, decide_eq_true isName.some_,
    @foldl_pushPart (parts true base) _ isName.plain_parts]
  rfl

theorem below_push_verbatim_iff (isName : IsName true name) (read : parsePrefix base = some p)
    (is : p.isVerbatim = true) :
    Below true base (push true base name) ↔ parts true name ≠ [] ∧ ¬IsBareVerbatim p := by
  rw [push_verbatim isName read is]
  exact below_render_iff read is isName.plain_parts (whole_name isName)

end Rendered

/-- The base is no prefix that the name completes. -/
def Finished (windows : Bool) (base name : Text) : Prop :=
  windows = true → ¬(IsBareServer base ∧ verbatim (parsePrefix base) = false) ∧
    (∀ p ∈ parsePrefix base, ¬IsBareVerbatim p) ∧ ¬Completes base name

/-- A name that is pushed onto a path leads below it exactly if it has a part and completes no prefix. -/
theorem below_push_iff {windows : Bool} {base name : Text} (isName : IsName windows name) :
    Below windows base (push windows base name) ↔
      parts windows name ≠ [] ∧ Finished windows base name := by
  cases windows with
  | false =>
      rw [push_plain isName rfl, below_continued_iff isName rfl rfl]
      exact (and_iff_left fun windows => nomatch windows).symm
  | true =>
      have finished :
          Finished true base name ↔ ¬(IsBareServer base ∧ verbatim (parsePrefix base) = false) ∧
          (∀ p ∈ parsePrefix base, ¬IsBareVerbatim p) ∧ ¬Completes base name :=
            ⟨fun given => given rfl, fun given _ => given⟩
      rw [finished]
      cases plain : verbatim (parsePrefix base) with
      | false =>
          have notBare : ∀ p ∈ parsePrefix base, ¬IsBareVerbatim p := by
            rintro p read bare
            rw [read] at plain
            rcases bare with rfl | ⟨server, rfl⟩
            · cases plain
            · cases plain
          have same := prefix_continued_iff isName plain
          rw [push_plain isName plain, and_iff_left rfl, and_iff_right notBare, ← same]
          constructor
          · intro below
            have stays := below.prefixOf_eq
            exact ⟨(below_continued_iff isName plain stays).mp below, stays⟩
          · exact fun ⟨some_, stays⟩ => (below_continued_iff isName plain stays).mpr some_
      | true =>
          obtain ⟨rest, is, read⟩ := verbatim_begins plain
          have notCompletes : ¬Completes base name := by
            rintro ⟨a, b, two, -⟩
            rw [is] at two
            cases two
          have only : (∀ p ∈ parsePrefix base, ¬IsBareVerbatim p) ↔
              ¬IsBareVerbatim (parseVerbatim rest) := by
            rw [read]
            exact ⟨fun all => all _ rfl, by rintro finished _ ⟨⟩; exact finished⟩
          rw [below_push_verbatim_iff isName read isVerbatim_parseVerbatim, only,
            and_iff_left notCompletes]
          exact and_congr_right fun _ => (and_iff_right fun given => nomatch given.2).symm

end RemoteControl.PathText
