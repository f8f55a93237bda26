import RemoteControl.Transfer.Client
import RemoteControl.Transfer.Frames

/-! # A download stays in its folder

The names of the files come from the peer and are joined to the chosen folder when a
block arrives. Nothing looks at them on the way: with names that climb out of the
folder the client writes wherever the peer wants. The connection manager, which
receives uploads, checks them.

A run of names that stay below, on the other hand, touches the folder only, whatever
the order of the messages; a single file without a name is the folder's path itself
and has its `.download` and `.digest` beside it.
-/

namespace RemoteControl.Transfer

open FileTree (Within)
open TransferJob (Own Roomy StreamIn Same)

section Places

variable (windows : Bool) (folder : Text)

/-- The files that are kept beside the folder's path when it is a file itself. -/
def IsBeside (p : Place) : Prop :=
  p = resolve windows (folder ++ downloadSuffix) ∨ p = resolve windows (folder ++ digestSuffix)

/-- What a download into the folder may touch. -/
def Allowed (single : Prop) (p : Place) : Prop :=
  resolve windows folder <+: p ∨ single ∧ IsBeside windows folder p

/-- The folder is where the user chose it: the directories above it are there, and none
    of them is in the place of a file that is kept beside it. -/
def Prepared (t : Tree) : Prop :=
  ∀ p ∈ parents windows folder, resolve windows folder <+: p ∨
    t.node p = some .dir ∧ ∀ a, a <+: p → ¬ IsBeside windows folder a

/-- A name that leads below every folder it is joined to. -/
def staysBelow (name : Text) : Bool :=
  !hasDrive windows name && !name.head?.any (isSep windows) && descends 0 (components windows name)

/-- A list of names none of which leads out of the folder. -/
def listStaysBelow (names : List Text) : Bool :=
  names = [[]] || names.all fun name => name ≠ [] && staysBelow windows name

end Places

section Names

variable {windows : Bool} {folder name : Text}

theorem resolve_pathJoin (noDrive : hasDrive windows name = false)
    (relative : name.head?.any (isSep windows) = false) :
    resolve windows (pathJoin windows folder name) =
      follow (resolve windows folder) (components windows name) := by
  unfold resolve
  rw [components_pathJoin folder noDrive relative, follow_append]

theorem inside_pathJoin (noDrive : hasDrive windows name = false)
    (relative : name.head?.any (isSep windows) = false)
    (down : descends 0 (components windows name) = true) :
    resolve windows folder <+: resolve windows (pathJoin windows folder name) := by
  rw [resolve_pathJoin noDrive relative]
  have below : resolve windows folder <+:
      follow (resolve windows folder ++ []) (components windows name) := prefix_follow down
  rwa [List.append_nil] at below

variable {suffix : Text}

/-- A suffix changes neither how a name is joined nor where it is joined to. -/
theorem staysBelow_suffix (companion : IsCompanion suffix) (named : name ≠ [])
    (below : staysBelow windows name = true) : staysBelow windows (name ++ suffix) = true := by
  unfold staysBelow at below ⊢
  simp only [Bool.and_eq_true, Bool.not_eq_true'] at below ⊢
  obtain ⟨⟨noDrive, relative⟩, down⟩ := below
  refine ⟨⟨?_, ?_⟩, ?_⟩
  · match name with
    | [] => exact absurd rfl named
    | [c] => rcases companion with rfl | rfl <;> rfl
    | c :: d :: rest => rw [hasDrive_append suffix (by simp), noDrive]
  · match name with
    | [] => exact absurd rfl named
    | c :: rest => exact relative
  · obtain ⟨front, last, whole, suffixed⟩ := @components_suffix windows name suffix companion
    rw [suffixed]
    refine descends_append_name ?_ (append_ne_dotDot companion last)
    rcases whole with ⟨whole, -⟩ | whole
    · rwa [whole] at down
    · exact descends_prefix_of (List.prefix_append ..) (whole ▸ down)

theorem pathJoin_append (companion : IsCompanion suffix) (named : name ≠ [])
    (below : staysBelow windows name = true) :
    pathJoin windows folder name ++ suffix = pathJoin windows folder (name ++ suffix) := by
  have below' := staysBelow_suffix companion named below
  unfold staysBelow at below below'
  simp only [Bool.and_eq_true, Bool.not_eq_true'] at below below'
  obtain ⟨⟨noDrive, relative⟩, -⟩ := below
  obtain ⟨⟨noDrive', relative'⟩, -⟩ := below'
  unfold pathJoin
  simp only [noDrive, relative, noDrive', relative', Bool.false_eq_true, if_false]
  split_ifs
  · exact List.append_assoc ..
  · exact List.append_assoc ..

theorem inside_of_staysBelow (below : staysBelow windows name = true) :
    resolve windows folder <+: resolve windows (pathJoin windows folder name) := by
  unfold staysBelow at below
  simp only [Bool.and_eq_true, Bool.not_eq_true'] at below
  exact inside_pathJoin below.1.1 below.1.2 below.2

/-- Above a name that stays below the folder there is the folder, what is above it and
    what is below it. -/
theorem parents_of_staysBelow (below : staysBelow windows name = true) {p : Place}
    (member : p ∈ parents windows (pathJoin windows folder name)) :
    resolve windows folder <+: p ∨ p ∈ parents windows folder := by
  unfold staysBelow at below
  simp only [Bool.and_eq_true, Bool.not_eq_true'] at below
  obtain ⟨⟨noDrive, relative⟩, down⟩ := below
  unfold parents at member
  rw [components_pathJoin folder noDrive relative, List.mem_map] at member
  obtain ⟨l, isPrefix, rfl⟩ := member
  rw [List.mem_inits] at isPrefix
  rcases List.eq_nil_or_concat (components windows name) with none | ⟨front, last, whole⟩
  · right
    rw [none, List.append_nil] at isPrefix
    exact List.mem_map.mpr ⟨l, (List.mem_inits ..).mpr isPrefix, rfl⟩
  · rw [whole, List.concat_eq_append, ← List.append_assoc, List.dropLast_concat] at isPrefix
    rw [whole, List.concat_eq_append] at down
    rcases List.prefix_or_prefix_of_prefix isPrefix (List.prefix_append ..) with above | ⟨m, rfl⟩
    · rcases List.eq_nil_or_concat (components windows folder) with none | ⟨front', last', whole'⟩
      · left
        rw [none, List.prefix_nil] at above
        rw [above, resolve, none]
      · rw [whole', List.concat_eq_append, List.prefix_concat_iff] at above
        rcases above with rfl | above
        · left
          rw [resolve, whole', List.concat_eq_append]
        · right
          refine List.mem_map.mpr ⟨l, (List.mem_inits ..).mpr ?_, rfl⟩
          rwa [whole', List.concat_eq_append, List.dropLast_concat]
    · left
      rw [follow_append]
      have inner : m <+: front := (List.prefix_append_right_inj _).mp isPrefix
      have below : resolve windows folder <+: follow (resolve windows folder ++ []) m :=
        prefix_follow (descends_prefix_of (inner.trans (List.prefix_append ..)) down)
      rwa [List.append_nil] at below

end Names

section Places

variable {lib : Library} {single : Prop} {t : Tree} {job : TransferJob} {e : FileEntry}

variable (listed : listStaysBelow lib.windows (job.files.map (·.name)) = true)

include listed

/-- An entry of an admitted list is the folder itself or has a name that stays below. -/
theorem filePath_of_listStaysBelow
    (member : e ∈ job.files) :
    job.files.map (·.name) = [[]] ∧ job.filePath lib e = job.path ∨
      e.name ≠ [] ∧ staysBelow lib.windows e.name = true ∧
        job.filePath lib e = pathJoin lib.windows job.path e.name := by
  have name : e.name ∈ job.files.map (·.name) := List.mem_map_of_mem member
  unfold listStaysBelow at listed
  simp only [Bool.or_eq_true, decide_eq_true_eq, List.all_eq_true, Bool.and_eq_true] at listed
  rcases listed with empty | below
  · rw [empty] at name
    exact .inl ⟨empty, if_pos (List.mem_singleton.mp name)⟩
  · obtain ⟨named, below⟩ := below e.name name
    exact .inr ⟨named, below, if_neg named⟩

theorem own_of_listStaysBelow
    (alone : job.files.map (·.name) = [[]] → single) (member : e ∈ job.files) :
    Own lib (Allowed lib.windows job.path single) (Allowed lib.windows job.path single) t job e := by
  have places : Allowed lib.windows job.path single (job.target lib e) ∧
      Allowed lib.windows job.path single (job.downloadPlace lib e) ∧
      Allowed lib.windows job.path single (job.digestPlace lib e) := by
    unfold TransferJob.target TransferJob.downloadPlace TransferJob.digestPlace
    rcases filePath_of_listStaysBelow listed member with ⟨empty, same⟩ | ⟨named, below, same⟩
    · rw [same]
      exact ⟨.inl (List.prefix_refl _), .inr ⟨alone empty, .inl rfl⟩, .inr ⟨alone empty, .inr rfl⟩⟩
    · rw [same, pathJoin_append (.inl rfl) named below, pathJoin_append (.inr rfl) named below]
      exact ⟨.inl (inside_of_staysBelow below),
        .inl (inside_of_staysBelow (staysBelow_suffix (.inl rfl) named below)),
        .inl (inside_of_staysBelow (staysBelow_suffix (.inr rfl) named below))⟩
  exact ⟨places.1, places.2.1, places.2.2, fun _ => ⟨places.2.1, places.1⟩⟩

variable {t' : Tree}

/-- The directories above an entry are missing only below the folder. -/
theorem roomy_of_listStaysBelow (prepared : Prepared lib.windows job.path t)
    (within : Within (Allowed lib.windows job.path single) (Allowed lib.windows job.path single) t t')
    (member : e ∈ job.files) :
    Roomy lib (Allowed lib.windows job.path single) (Allowed lib.windows job.path single) t' job e := by
  intro p above
  have reached : resolve lib.windows job.path <+: p ∨ p ∈ parents lib.windows job.path := by
    rcases filePath_of_listStaysBelow listed member with ⟨-, same⟩ | ⟨-, below, same⟩
    · exact .inr (same ▸ above)
    · exact parents_of_staysBelow below (same ▸ above)
  by_cases inside : resolve lib.windows job.path <+: p
  · exact .inl (.inl inside)
  · obtain ⟨isDir, apart⟩ := (prepared p (reached.resolve_left inside)).resolve_left inside
    have still : ∀ a, a <+: p → ¬ Allowed lib.windows job.path single a := by
      rintro a isPrefix (below | ⟨-, beside⟩)
      · exact inside (below.trans isPrefix)
      · exact apart a isPrefix beside
    refine .inr ⟨?_, still⟩
    rw [within.node p (still p (List.prefix_refl p)) still, isDir]
    rfl

end Places

variable {windows : Bool} {folder : Text} {l : List Text} {name : Text}

theorem descends_of_not_mem {depth : Nat} (plain : dotDot ∉ l) : descends depth l = true := by
  induction l generalizing depth with
  | nil => rfl
  | cons c rest ih =>
      rw [List.mem_cons, not_or] at plain
      simp only [descends, if_neg (Ne.symm plain.1)]
      exact ih plain.2

/-- Splitting at more characters splits every part further. -/
theorem splitOnP_flatMap {p q : Char → Bool} (more : ∀ c, p c = true → q c = true) (text : Text) :
    (text.splitOnP p).flatMap (·.splitOnP q) = text.splitOnP q := by
  induction text with
  | nil => rfl
  | cons c rest ih =>
      rw [List.splitOnP_cons_eq_if_modifyHead, List.splitOnP_cons_eq_if_modifyHead, ← ih]
      by_cases sep : p c = true
      · simp [sep, more c sep]
      · obtain ⟨first, parts, split⟩ := List.exists_cons_of_ne_nil (List.splitOnP_ne_nil p rest)
        simp only [sep, split, Bool.false_eq_true, if_false, List.modifyHead_cons,
          List.flatMap_cons, List.splitOnP_cons_eq_if_modifyHead]
        by_cases sep' : q c = true
        · simp [sep']
        · obtain ⟨first', parts', split'⟩ := List.exists_cons_of_ne_nil (List.splitOnP_ne_nil q first)
          simp [sep', split']

/-- What the check of a name leaves: it is relative and has no `..`. -/
theorem spec_of_validateFileNameNoTraversal
    (valid : validateFileNameNoTraversal windows name = .ok ()) :
    hasDrive windows name = false ∧ name.head?.any (isSep windows) = false ∧
      dotDot ∉ plainComponents windows name := by
  unfold validateFileNameNoTraversal at valid
  split_ifs at valid with null traversal drive absolute
  have more : ∀ c, isSep windows c = true → (decide (c = '/') || decide (c = '\\')) = true := by
    intro c sep
    unfold isSep at sep
    simp only [Bool.or_eq_true, decide_eq_true_eq, Bool.and_eq_true] at sep ⊢
    exact sep.imp_right And.right
  refine ⟨by simpa using drive, ?_, fun member => ?_⟩
  · cases first : name.head? with
    | none => rfl
    | some c =>
        rw [Option.any_some, Bool.eq_false_iff]
        intro sep
        have sep := more c sep
        simp only [Bool.or_eq_true, decide_eq_true_eq] at sep
        rcases sep with rfl | rfl
        · exact absolute (.inl first)
        · exact absolute (.inr first)
  · rw [plainComponents, List.mem_filter] at member
    refine traversal (List.contains_iff_mem.mpr (List.mem_filter.mpr ⟨?_, by decide⟩))
    rw [← splitOnP_flatMap more name]
    exact List.mem_flatMap.mpr ⟨dotDot, member.1, by decide⟩

theorem staysBelow_of_validateFileNameNoTraversal
    (valid : validateFileNameNoTraversal windows name = .ok ()) :
    staysBelow windows name = true := by
  obtain ⟨noDrive, relative, plain⟩ := spec_of_validateFileNameNoTraversal valid
  have components_eq : components windows name = plainComponents windows name :=
    if_neg (by rw [noDrive]; exact nofun)
  unfold staysBelow
  rw [noDrive, relative, components_eq, descends_of_not_mem plain]
  rfl

/-- What the connection manager asks of the names of an upload is enough for a
    download. -/
theorem listStaysBelow_of_validateTransferFileNames {windows : Bool} {files : List (Text × Nat)}
    (valid : validateTransferFileNames windows files = .ok ()) :
    listStaysBelow windows (files.map (·.1)) = true := by
  unfold validateTransferFileNames at valid
  split_ifs at valid with single
  · match files, single with
    | [(name, _)], single =>
        have empty : name = [] := by simpa [isSingleFileWithEmptyName] using single
        rw [empty]
        rfl
  · unfold listStaysBelow
    rw [Bool.or_eq_true, List.all_eq_true]
    right
    clear single
    induction files with
    | nil => nofun
    | cons f rest ih =>
        unfold validateNames at valid
        split_ifs at valid with empty
        split at valid
        · cases valid
        · rename_i first
          intro name member
          rcases List.mem_cons.mp member with rfl | later
          · simp [empty, staysBelow_of_validateFileNameNoTraversal first]
          · exact ih valid name later

theorem listStaysBelow_of_two : listStaysBelow false [['a', '/', 'b'], ['c']] = true :=
  @listStaysBelow_of_validateTransferFileNames false [(['a', '/', 'b'], 1), (['c'], 2)] (by decide)

theorem follow_of_plain {place : Place} (plain : dotDot ∉ l) : follow place l = place ++ l := by
  induction l generalizing place with
  | nil => exact (List.append_nil place).symm
  | cons c rest ih =>
      rw [List.mem_cons, not_or] at plain
      rw [follow, if_neg (Ne.symm plain.1), ih plain.2, List.append_assoc, List.singleton_append]

theorem length_resolve_suffix (companion : IsCompanion suffix)
    (plain : dotDot ∉ components windows folder) :
    (components windows folder).length ≤ (resolve windows (folder ++ suffix)).length ∧
      0 < (resolve windows (folder ++ suffix)).length := by
  obtain ⟨front, last, whole, suffixed⟩ := @components_suffix windows folder suffix companion
  have inFront : ∀ c ∈ front, c ∈ components windows folder := by
    intro c member
    rcases whole with ⟨whole, -⟩ | whole
    · rwa [whole]
    · rw [whole]
      exact List.mem_append_left _ member
  have plain' : dotDot ∉ components windows (folder ++ suffix) := by
    rw [suffixed, List.mem_append, List.mem_singleton]
    rintro (above | here)
    · exact plain (inFront dotDot above)
    · exact append_ne_dotDot companion last here.symm
  rw [resolve, follow_of_plain plain', suffixed]
  rcases whole with ⟨whole, -⟩ | whole <;> rw [whole] <;> simp

/-- Above such a folder there is nothing that is kept beside it. -/
theorem prepared_of_dirs {t : Tree} (plain : dotDot ∉ components windows folder)
    (dirs : ∀ p ∈ parents windows folder, t.node p = some .dir) : Prepared windows folder t := by
  intro p member
  refine .inr ⟨dirs p member, ?_⟩
  obtain ⟨l, isPrefix, rfl⟩ := List.mem_map.mp member
  rw [List.mem_inits] at isPrefix
  have plain' : dotDot ∉ l := fun climbs =>
    plain (List.dropLast_subset _ (isPrefix.subset climbs))
  rw [follow_of_plain plain', List.nil_append]
  have short := isPrefix.length_le
  rw [List.length_dropLast] at short
  rintro a above (rfl | rfl)
  · have long := length_resolve_suffix (.inl rfl) plain
    have shorter := above.length_le
    omega
  · have long := length_resolve_suffix (.inr rfl) plain
    have shorter := above.length_le
    omega

/-- The names a message gives to the job `id`, as they are joined to its folder. -/
def ClientEvent.names (st : Setting) (id : Int) : ClientEvent → Option (List Text)
  | .response _ (.dir id' entries) =>
      if id' = id then some ((Client.receivedEntries st entries).map (·.name)) else none
  | _ => none

section Runs

variable {st : Setting} {id : Int} {folder : Text} {single : Prop} {t : Tree}

/-- A write job whose files all lie where it may touch them. -/
structure JobIn (st : Setting) (id : Int) (folder : Text) (single : Prop) (job : TransferJob) :
    Prop where
  id : job.id = id
  path : job.path = folder
  names : listStaysBelow st.lib.windows (job.files.map (·.name)) = true
  alone : job.files.map (·.name) = [[]] → single
  stream : StreamIn (Allowed st.lib.windows folder single) job

structure Confined (st : Setting) (id : Int) (folder : Text) (single : Prop) (t : Tree) (c : Client) :
    Prop where
  within : Within (Allowed st.lib.windows folder single) (Allowed st.lib.windows folder single) t c.tree
  job : ∀ job, c.job = some job → JobIn st id folder single job

namespace JobIn

variable {job job' : TransferJob} {e : FileEntry}

variable (inJob : JobIn st id folder single job)

include inJob

theorem of_same (same : Same job job') (stream : StreamIn (Allowed st.lib.windows folder single) job') :
    JobIn st id folder single job' := by
  obtain ⟨sameId, samePath, sameFiles, -⟩ := same
  exact ⟨sameId.trans inJob.id, samePath.trans inJob.path, sameFiles ▸ inJob.names,
    sameFiles ▸ inJob.alone, stream⟩

theorem own {fileNum : Int} (listed : job.entry? fileNum = some e) :
    Own st.lib (Allowed st.lib.windows folder single)
      (Allowed st.lib.windows folder single) t job e := by
  obtain rfl := inJob.path
  exact own_of_listStaysBelow inJob.names inJob.alone (TransferJob.mem_of_entry listed)

theorem roomy {fileNum : Int} (prepared : Prepared st.lib.windows folder t)
    (within : Within (Allowed st.lib.windows folder single) (Allowed st.lib.windows folder single) t t')
    (listed : job.entry? fileNum = some e) :
    Roomy st.lib (Allowed st.lib.windows folder single)
      (Allowed st.lib.windows folder single) t' job e := by
  obtain rfl := inJob.path
  exact roomy_of_listStaysBelow inJob.names prepared within (TransferJob.mem_of_entry listed)

theorem confirm {r : Host.SendConfirm} :
    JobIn st id folder single (job.confirm st.lib t' r) := by
  refine inJob.of_same TransferJob.confirm_same (TransferJob.confirm_streamIn ?_ inJob.stream)
  intro e offset listed _
  have own := inJob.own (t := t') listed
  exact ⟨own.target, own.download⟩

end JobIn

namespace Confined

variable {c : Client} {job : TransferJob}

theorem of_none (gone : c.job = none)
    (within : Within (Allowed st.lib.windows folder single) (Allowed st.lib.windows folder single)
      t c.tree) : Confined st id folder single t c where
  within := within
  job := by
    intro job present
    rw [gone] at present
    cases present

variable (confined : Confined st id folder single t c)

include confined

section

variable (inJob : JobIn st id folder single job)

include inJob

theorem confirmBoth (fileNum : Int) (u : Host.ConfirmUnion) :
    Confined st id folder single t (c.confirmBoth st job fileNum u) where
  within := confined.within
  job := by
    rintro _ ⟨⟩
    exact inJob.confirm

theorem onDigest (d : FileTransferDigest) : Confined st id folder single t (c.onDigest st d job) := by
  have inJob' : JobIn st id folder single { job with digest := ⟨d.fileSize, d.lastModified⟩ } :=
    inJob.of_same .refl inJob.stream
  unfold Client.onDigest
  split
  · exact confined
  · extract_lets job'
    split
    · exact confined.confirmBoth inJob' _ _
    · split
      · exact confined.confirmBoth inJob' _ _
      · refine ⟨confined.within, ?_⟩
        rintro _ ⟨⟩
        exact inJob'
    · exact confined.confirmBoth inJob' _ _

theorem onBlock (prepared : Prepared st.lib.windows folder t) (now : Nat) (b : FileTransferBlock) :
    Confined st id folder single t
      { c with
        job := some (job.write st.lib now b c.tree).1
        tree := (job.write st.lib now b c.tree).2.1 } := by
  have written := @TransferJob.write_within st.lib (Allowed st.lib.windows folder single)
    (Allowed st.lib.windows folder single) job c.tree now b (fun _ => inJob.own)
    (fun e listed => by
      have own := inJob.own (t := c.tree) listed
      exact ⟨own.download, own.digest, inJob.roomy prepared confined.within listed⟩) inJob.stream
  refine ⟨confined.within.trans written.1, ?_⟩
  rintro _ ⟨⟩
  exact inJob.of_same TransferJob.write_same written.2

end

theorem onResponse (prepared : Prepared st.lib.windows folder t) (now : Nat) (r : Response)
    (admitted : ∀ names, (ClientEvent.response now r).names st id = some names →
      listStaysBelow st.lib.windows names = true ∧ (names = [[]] → single)) :
    Confined st id folder single t (c.onResponse st now r) := by
  unfold Client.onResponse
  cases present : c.job with
  | none => exact confined
  | some job =>
      have inJob := confined.job job present
      cases r with
      | dir id' entries =>
          dsimp only
          split_ifs with mine
          · obtain ⟨names, alone⟩ := admitted _ (if_pos (mine.trans inJob.id))
            refine ⟨confined.within, ?_⟩
            rintro _ ⟨⟩
            unfold TransferJob.setFinishedSizeOnResume
            split_ifs
            · exact ⟨inJob.id, inJob.path, names, alone, inJob.stream⟩
            · exact ⟨inJob.id, inJob.path, names, alone, inJob.stream⟩
          · exact confined
      | digest d =>
          dsimp only
          split_ifs
          · exact confined.onDigest inJob d
          · exact confined
      | block b => exact confined.onBlock inJob prepared now b
      | done id' fileNum =>
          dsimp only
          split_ifs
          · have finished : Within (Allowed st.lib.windows folder single)
                (Allowed st.lib.windows folder single) c.tree (job.modifyTime st.lib c.tree).2 :=
              TransferJob.modifyTime_within fun _ => inJob.own
            exact .of_none rfl (confined.within.trans finished)
          · exact confined
      | error id' fileNum err =>
          dsimp only
          split_ifs
          · exact .of_none rfl confined.within
          · exact confined

theorem step (prepared : Prepared st.lib.windows folder t) (e : ClientEvent)
    (admitted : ∀ names, e.names st id = some names →
      listStaysBelow st.lib.windows names = true ∧ (names = [[]] → single)) :
    Confined st id folder single t (c.step st e) := by
  cases e with
  | response now r => exact confined.onResponse prepared now r admitted
  | answer fileNum needOverride remember =>
      simp only [Client.step, Client.onAnswer]
      split
      · exact confined
      · rename_i job present
        have asked : Confined st id folder single t { c with question := none } :=
          ⟨confined.within, confined.job⟩
        have inJob := confined.job job present
        refine asked.confirmBoth ?_ fileNum _
        split_ifs
        · exact inJob.of_same .refl inJob.stream
        · exact inJob
  | cancel =>
      simp only [Client.step, Client.onCancel]
      split
      · exact confined
      · rename_i job present
        have inJob := confined.job job present
        have removed : Within (Allowed st.lib.windows folder single)
            (Allowed st.lib.windows folder single) c.tree (job.removeDownloadFile st.lib c.tree) := by
          refine TransferJob.removeDownloadFile_within fun e listed => ?_
          have own := inJob.own (t := c.tree) listed
          exact ⟨own.download, own.digest⟩
        exact .of_none rfl (confined.within.trans removed)

end Confined

end Runs

/-- A client that has touched nothing but the folder and, if a message of the run lists
    a single file without a name, what is kept beside it. -/
def InFolder (st : Setting) (id : Int) (folder : Text) (events : List ClientEvent) (t : Tree)
    (c : Client) : Prop :=
  Within (Allowed st.lib.windows folder (∃ e ∈ events, e.names st id = some [[]]))
    (Allowed st.lib.windows folder (∃ e ∈ events, e.names st id = some [[]])) t c.tree

/-- Whatever a peer sends, as long as the names it lists stay below, a download into a
    folder whose parents are there keeps to the folder. -/
theorem download_stays_in_folder (st : Setting) (id : Int) (folder : Text) (fileNum : Int)
    (overwriteDetection : Bool) (t : Tree) (events : List ClientEvent)
    (prepared : Prepared st.lib.windows folder t)
    (below : ∀ e ∈ events, ∀ names, e.names st id = some names →
      listStaysBelow st.lib.windows names = true) :
    Runs.Always (Client.step st) (InFolder st id folder events t)
      (.sendFiles id folder fileNum overwriteDetection t) events := by
  have confined : Runs.Always (Client.step st)
      (Confined st id folder (∃ e ∈ events, e.names st id = some [[]]) t)
      (.sendFiles id folder fileNum overwriteDetection t) events := by
    refine Runs.always_of_events (fun c e member confined => ?_) (fun e member => member) ?_
    · refine confined.step prepared e fun names listed => ⟨below e member names listed, ?_⟩
      rintro rfl
      exact ⟨e, member, listed⟩
    · refine ⟨.refl, ?_⟩
      rintro _ ⟨⟩
      exact ⟨rfl, rfl, rfl, nofun, nofun⟩
  exact confined.mono fun c => Confined.within

/-- A tree with one folder in it. -/
def oneFolder : Tree := ⟨fun p => if p = [] ∨ p = [['d']] then some .dir else none, []⟩

/-- A peer that sends one file of one byte under the given name. -/
def oneFile (name : Text) : List ClientEvent :=
  [.response 8 (.dir 1 [⟨name, 5, 1⟩]), .response 8 (.block ⟨1, 0, [7], false⟩),
    .response 9 (.done 1 0)]

theorem plain_name_stays_in_folder :
    Runs.Always (Client.step .plain) (InFolder .plain 1 ['/', 'd'] (oneFile ['a']) oneFolder)
        (.sendFiles 1 ['/', 'd'] 0 true oneFolder) (oneFile ['a']) ∧
      (Runs.exec (Client.step .plain) (.sendFiles 1 ['/', 'd'] 0 true oneFolder)
        (oneFile ['a'])).tree.node [['d'], ['a']] = some (.file [7] 5) := by
  refine ⟨download_stays_in_folder .plain 1 ['/', 'd'] 0 true oneFolder (oneFile ['a']) ?_ ?_,
    by decide⟩
  · exact prepared_of_dirs (by decide) (by decide)
  · simp only [oneFile, List.forall_mem_cons]
    refine ⟨?_, nofun, nofun, nofun⟩
    rintro names ⟨⟩
    decide

/-- The name `../x` leads out of the folder, and the file is created there. -/
theorem climbing_name_leaves_folder :
    (Runs.exec (Client.step .plain) (.sendFiles 1 ['/', 'd'] 0 true oneFolder)
        (oneFile ['.', '.', '/', 'x'])).tree.node [['x']] = some (.file [7] 5) ∧
      ¬ Runs.Always (Client.step .plain)
        (InFolder .plain 1 ['/', 'd'] (oneFile ['.', '.', '/', 'x']) oneFolder)
        (.sendFiles 1 ['/', 'd'] 0 true oneFolder) (oneFile ['.', '.', '/', 'x']) := by
  refine ⟨by decide, fun always => ?_⟩
  have touched := always.last.touched [['x']] (by decide)
  rcases touched with before | inside | ⟨-, beside⟩
  · cases before
  · exact absurd inside (by decide)
  · rcases beside with same | same <;> exact absurd same (by decide)

end RemoteControl.Transfer
