import Mathlib.Data.List.Nodup
import RemoteControl.Runs

/-! # Changing options

The options of the server process are changed by its own code, and by the user interface,
which runs in another process and has to ask for them. `Config::set_option` changes one
key while it holds the lock. `ipc::set_option` and `handle_config_options` read all
options, change theirs, and store all of them; what others have stored in between is put
back to what it was.
-/

namespace RemoteControl.OptionStore

/-- A `HashMap<String, String>`. -/
abbrev Options := String → Option String

/-- `HashMap::extend` -/
def extend (res more : Options) : Options := fun k => (more k).or (res k)

/-- The settings that do not change: `OVERWRITE_SETTINGS` and `DEFAULT_SETTINGS`. -/
structure Settings where
  overwrite : Options
  default : Options

namespace Settings

variable (c : Settings)

/-- `Config::get_options` -/
def getOptions (options : Options) : Options := extend (extend c.default options) c.overwrite

def isOptionCanSave (k v : String) : Bool :=
  !((c.overwrite k).isSome || c.default k = some v)

def purifyOptions (v : Options) : Options := fun k => (v k).filter (c.isOptionCanSave k)

/-- `Config::set_options`: the options afterwards. -/
def setOptions (v : Options) : Options := c.purifyOptions v

/-- `Config::get_option` -/
def getOption (options : Options) (k : String) : String :=
  ((c.overwrite k).or ((options k).or (c.default k))).getD ""

/-- One key in a map; the empty text takes it out. -/
def change (options : Options) (k v : String) : Options :=
  Function.update options k (if v = "" then none else some v)

/-- `Config::set_option`: the options afterwards. -/
def setOption (options : Options) (k v : String) : Options :=
  if c.isOptionCanSave k v then change options k v else Function.update options k none

end Settings

inductive Update where
  /-- `ipc::set_option` of a process of the user interface. -/
  | ipcSetOption (key value : String)
  /-- `handle_config_options` of the server, with the entries of its map. -/
  | handleConfigOptions (configOptions : List (String × String))
  /-- `Config::set_option` of the server. -/
  | setOption (key value : String)

namespace Update

/-- The keys and their values. -/
def entries : Update → List (String × String)
  | ipcSetOption key value => [(key, value)]
  | handleConfigOptions configOptions => configOptions
  | setOption key value => [(key, value)]

def keys (u : Update) : List String := u.entries.map Prod.fst

/-- The map after the changes, from the one that was read. -/
def apply (u : Update) (read : Options) : Options :=
  u.entries.foldl (fun options (k, v) => Settings.change options k v) read

end Update

/-- How far an update has got. -/
inductive Phase where
  | start
  /-- A request for the options is on its way to the server. -/
  | asked
  /-- The options are read, by the server itself or as the answer to a request. -/
  | hasRead (options : Options)
  /-- The changed options are on their way to the server. -/
  | sent (options : Options)
  | finished

structure Writer where
  update : Update
  phase : Phase := .start

structure State where
  /-- `CONFIG2.options` of the server. -/
  options : Options
  writers : List Writer

/-- A step of the writer with a number. -/
inductive Event where
  /-- `get_options_` sends its request. -/
  | ask (i : Nat)
  /-- The server handles the request. -/
  | answer (i : Nat)
  /-- The request fails, and the process takes its own copy of the options. -/
  | answerFails (i : Nat) (own : Options)
  /-- `set_options` sends the changed map. -/
  | send (i : Nat)
  /-- It cannot connect, or sending fails. -/
  | sendFails (i : Nat)
  /-- The server handles the map. -/
  | handle (i : Nat)
  /-- `handle_config_options` reads the options. -/
  | read (i : Nat)
  /-- `handle_config_options` stores the options. -/
  | store (i : Nat)
  /-- `Config::set_option` -/
  | set (i : Nat)

namespace State

def become (s : State) (i : Nat) (w : Writer) (phase : Phase) : State :=
  { s with writers := s.writers.set i { w with phase } }

/-- The writer that takes the step ends with these options in the server. -/
def finish (s : State) (i : Nat) (w : Writer) (options : Options) : State :=
  { s.become i w .finished with options }

def step (c : Settings) (s : State) : Event → State
  | .ask i =>
      match s.writers[i]? with
      | some w@⟨.ipcSetOption _ _, .start⟩ => s.become i w .asked
      | _ => s
  | .answer i =>
      match s.writers[i]? with
      | some w@⟨.ipcSetOption _ _, .asked⟩ => s.become i w (.hasRead (c.getOptions s.options))
      | _ => s
  | .answerFails i own =>
      match s.writers[i]? with
      | some w@⟨.ipcSetOption _ _, .start⟩ => s.become i w (.hasRead (c.getOptions own))
      | some w@⟨.ipcSetOption _ _, .asked⟩ => s.become i w (.hasRead (c.getOptions own))
      | _ => s
  | .send i =>
      match s.writers[i]? with
      | some w@⟨.ipcSetOption _ _, .hasRead read⟩ => s.become i w (.sent (w.update.apply read))
      | _ => s
  | .sendFails i =>
      match s.writers[i]? with
      | some w@⟨.ipcSetOption _ _, .hasRead _⟩ => s.become i w .finished
      | _ => s
  | .handle i =>
      match s.writers[i]? with
      | some w@⟨.ipcSetOption _ _, .sent value⟩ => s.finish i w (c.setOptions value)
      | _ => s
  | .read i =>
      match s.writers[i]? with
      | some w@⟨.handleConfigOptions _, .start⟩ => s.become i w (.hasRead (c.getOptions s.options))
      | _ => s
  | .store i =>
      match s.writers[i]? with
      | some w@⟨.handleConfigOptions _, .hasRead read⟩ =>
          s.finish i w (c.setOptions (w.update.apply read))
      | _ => s
  | .set i =>
      match s.writers[i]? with
      | some w@⟨.setOption k v, .start⟩ => s.finish i w (c.setOption s.options k v)
      | _ => s

end State

/-! ## One store -/

namespace Settings

variable {c : Settings} {options m : Options} {k v : String}

/-- A key that is stored as it was read keeps its value. -/
theorem getOption_setOptions_of_eq (same : m k = c.getOptions options k) :
    c.getOption (c.setOptions m) k = c.getOption options k := by
  cases forced : c.overwrite k with
  | some x => simp [getOption, forced]
  | none =>
      cases here : options k with
      | none =>
          cases fallback : c.default k <;>
            simp_all [getOption, setOptions, purifyOptions, getOptions, extend, isOptionCanSave,
              Option.filter]
      | some x =>
          by_cases usual : c.default k = some x <;>
            simp_all [getOption, setOptions, purifyOptions, getOptions, extend, isOptionCanSave,
              Option.filter]

/-- What the statement of the updates leaves out: keys that are overwritten, and values
    that are the default. -/
structure Allowed (c : Settings) (k v : String) : Prop where
  overwrite : c.overwrite k = none
  default : c.default k ≠ some v

theorem getOption_setOptions_of_written (allowed : c.Allowed k v)
    (emptied : v = "" → c.default k = none) (written : m k = if v = "" then none else some v) :
    c.getOption (c.setOptions m) k = v := by
  by_cases empty : v = ""
  · simp [getOption, setOptions, purifyOptions, written, empty, allowed.overwrite, emptied empty]
  · simp [getOption, setOptions, purifyOptions, written, empty, allowed.overwrite, allowed.default,
      isOptionCanSave, Option.filter]

theorem getOption_setOption_of_ne {k' : String} (other : k' ≠ k) :
    c.getOption (c.setOption options k v) k' = c.getOption options k' := by
  simp only [getOption, setOption]
  split <;> simp [change, Function.update_of_ne other]

theorem getOption_setOption_self (allowed : c.Allowed k v) (emptied : v = "" → c.default k = none) :
    c.getOption (c.setOption options k v) k = v := by
  by_cases empty : v = ""
  · simp [getOption, setOption, isOptionCanSave, change, allowed.overwrite, empty, emptied empty]
  · simp [getOption, setOption, isOptionCanSave, change, allowed.overwrite, allowed.default, empty]

end Settings

namespace Update

variable {k : String}

theorem foldl_change_of_notMem {entries : List (String × String)}
    (other : k ∉ entries.map Prod.fst) (options : Options) :
    entries.foldl (fun options (k, v) => Settings.change options k v) options k = options k := by
  induction entries generalizing options with
  | nil => rfl
  | cons entry entries ih =>
      simp only [List.map_cons, List.mem_cons, not_or] at other
      rw [List.foldl_cons, ih other.2]
      exact Function.update_of_ne other.1 _ _

variable {u : Update}

theorem apply_of_notMem (other : k ∉ u.keys) (read : Options) :
    u.apply read k = read k :=
  foldl_change_of_notMem other read

theorem apply_of_mem {v : String} (distinct : u.keys.Nodup)
    (member : (k, v) ∈ u.entries) (read : Options) :
    u.apply read k = if v = "" then none else some v := by
  rw [apply]
  rw [keys] at distinct
  generalize u.entries = entries at distinct member
  induction entries generalizing read with
  | nil => cases member
  | cons entry entries ih =>
      simp only [List.map_cons, List.nodup_cons] at distinct
      rw [List.foldl_cons]
      cases member with
      | head =>
          rw [foldl_change_of_notMem distinct.1]
          exact Function.update_self ..
      | tail _ later => exact ih _ distinct.2 later

end Update

namespace State

variable {c : Settings} {updates : List Update} {s : State}

/-- All updates before their first step. -/
def init (options : Options) (updates : List Update) : State :=
  { options, writers := updates.map ({ update := · }) }

/-- What a finished update has written is still there. -/
def Kept (c : Settings) (s : State) : Prop :=
  ∀ w ∈ s.writers, w.phase = .finished → ∀ entry ∈ w.update.entries,
    c.getOption s.options entry.1 = entry.2

/-- A map to be stored holds, for the keys of others, what the server has, and takes no
    option out that has a default. -/
structure StoresSafely (c : Settings) (s : State) (u : Update) (m : Options) : Prop where
  others : ∀ k ∉ u.keys, m k = c.getOptions s.options k
  emptied : ∀ entry ∈ u.entries, entry.2 = "" → c.default entry.1 = none

/-- No changed map gets lost, and each is stored safely. -/
def Safe (c : Settings) (s : State) : Event → Prop
  | .sendFails _ => False
  | .handle i =>
      ∀ w m, s.writers[i]? = some w → w.phase = .sent m → StoresSafely c s w.update m
  | .store i =>
      ∀ w read, s.writers[i]? = some w → w.phase = .hasRead read →
        StoresSafely c s w.update (w.update.apply read)
  | .set i =>
      ∀ w, s.writers[i]? = some w → ∀ entry ∈ w.update.entries, entry.2 = "" →
        c.default entry.1 = none
  | _ => True

structure Inv (c : Settings) (updates : List Update) (s : State) : Prop where
  updates : s.writers.map Writer.update = updates
  sent : ∀ w ∈ s.writers, ∀ m, w.phase = .sent m → ∃ read, m = w.update.apply read
  kept : Kept c s

theorem init_inv (c : Settings) (options : Options) (updates : List Update) :
    Inv c updates (init options updates) where
  updates := by simp [init, Function.comp_def]
  sent w member m phase := by
    obtain ⟨u, -, rfl⟩ := List.mem_map.mp member
    cases phase
  kept w member phase := by
    obtain ⟨u, -, rfl⟩ := List.mem_map.mp member
    cases phase

theorem updates_set {i : Nat} {w : Writer} (here : s.writers[i]? = some w) (phase : Phase) :
    (s.writers.set i { w with phase }).map Writer.update = s.writers.map Writer.update := by
  obtain ⟨lt, rfl⟩ := List.getElem?_eq_some_iff.mp here
  apply List.ext_getElem?
  intro j
  by_cases same : i = j
  · subst same
    simp [lt]
  · simp [same]

theorem keys_disjoint (distinct : (updates.flatMap Update.keys).Nodup) {i j : Nat} {u' : Update}
    (first : updates[i]? = some u) (second : updates[j]? = some u') (other : i ≠ j)
    (member : k ∈ u.keys) : k ∉ u'.keys := by
  obtain ⟨lt, rfl⟩ := List.getElem?_eq_some_iff.mp first
  obtain ⟨lt', rfl⟩ := List.getElem?_eq_some_iff.mp second
  have pairwise := List.pairwise_iff_getElem.mp (List.nodup_flatMap.mp distinct).2
  rcases Nat.lt_or_gt_of_ne other with before | after
  · exact fun member' => pairwise i j lt lt' before member member'
  · exact fun member' => pairwise j i lt' lt after member' member

namespace Inv

variable {i : Nat} {w : Writer}

variable (inv : Inv c updates s)

include inv

theorem become (here : s.writers[i]? = some w) {phase : Phase} (unfinished : phase ≠ .finished)
    (sent : ∀ m, phase = .sent m → ∃ read, m = w.update.apply read) :
    Inv c updates (s.become i w phase)  where
  updates := (updates_set here phase).trans inv.updates
  sent w' member m sent' := by
    rcases List.mem_or_eq_of_mem_set member with old | rfl
    · exact inv.sent w' old m sent'
    · exact sent m sent'
  kept w' member finished := by
    rcases List.mem_or_eq_of_mem_set member with old | rfl
    · exact inv.kept w' old finished
    · exact absurd finished unfinished

/-- The end of an update, if it leaves the keys of the others alone. -/
theorem finish (distinct : (updates.flatMap Update.keys).Nodup)
    (here : s.writers[i]? = some w) {options : Options}
    (others : ∀ k ∉ w.update.keys, c.getOption options k = c.getOption s.options k)
    (own : ∀ entry ∈ w.update.entries, c.getOption options entry.1 = entry.2) :
    Inv c updates (s.finish i w options)  where
  updates := (updates_set here .finished).trans inv.updates
  sent w' member m sent' := by
    rcases List.mem_or_eq_of_mem_set member with old | rfl
    · exact inv.sent w' old m sent'
    · cases sent'
  kept w' member finished entry written := by
    obtain ⟨j, at_⟩ := List.mem_iff_getElem?.mp member
    by_cases same : i = j
    · subst same
      obtain ⟨lt, -⟩ := List.getElem?_eq_some_iff.mp here
      rw [State.finish, State.become, List.getElem?_set_self lt] at at_
      obtain rfl := Option.some.inj at_
      exact own entry written
    · rw [State.finish, State.become, List.getElem?_set_ne same] at at_
      have first : updates[j]? = some w'.update := by simp [← inv.updates, at_]
      have second : updates[i]? = some w.update := by simp [← inv.updates, here]
      have foreign : entry.1 ∉ w.update.keys :=
        keys_disjoint distinct first second (Ne.symm same) (List.mem_map_of_mem written)
      exact (others entry.1 foreign).trans
        (inv.kept w' (List.mem_of_getElem? at_) finished entry written)

theorem listed (here : s.writers[i]? = some w) : w.update ∈ updates := by
  rw [← inv.updates]
  exact List.mem_map_of_mem (List.mem_of_getElem? here)

variable (distinct : (updates.flatMap Update.keys).Nodup)
  (allowed : ∀ u ∈ updates, ∀ entry ∈ u.entries, c.Allowed entry.1 entry.2)

include distinct allowed

theorem store (here : s.writers[i]? = some w) {read : Options}
    (safe : StoresSafely c s w.update (w.update.apply read)) :
    Inv c updates (s.finish i w (c.setOptions (w.update.apply read))) := by
  have listed := inv.listed here
  apply inv.finish distinct here
  · intro k other
    exact Settings.getOption_setOptions_of_eq (safe.others k other)
  · intro entry member
    apply Settings.getOption_setOptions_of_written (allowed _ listed entry member)
      (safe.emptied entry member)
    exact Update.apply_of_mem ((List.nodup_flatMap.mp distinct).1 _ listed) member read

/-- An option that is set alone leaves the others as they were. -/
theorem set {v : String} (here : s.writers[i]? = some ⟨.setOption k v, .start⟩)
    (emptied : ∀ entry ∈ (Update.setOption k v).entries, entry.2 = "" → c.default entry.1 = none) :
    Inv c updates (s.finish i ⟨.setOption k v, .start⟩ (c.setOption s.options k v)) := by
  have listed := inv.listed here
  apply inv.finish distinct here
  · intro k' other
    exact Settings.getOption_setOption_of_ne (by simpa [Update.keys, Update.entries] using other)
  · intro entry member
    obtain rfl : entry = (k, v) := by simpa [Update.entries] using member
    exact Settings.getOption_setOption_self (allowed _ listed _ member) (emptied _ member)

/-- A step that stores safely keeps what the finished updates have written. -/
theorem step {e : Event} (safe : Safe c s e) : Inv c updates (s.step c e) := by
  cases e with
  | ask i =>
      rw [State.step]
      split
      · exact inv.become (by assumption) (by simp) (by simp)
      · exact inv
  | answer i =>
      rw [State.step]
      split
      · exact inv.become (by assumption) (by simp) (by simp)
      · exact inv
  | answerFails i own =>
      rw [State.step]
      split
      · exact inv.become (by assumption) (by simp) (by simp)
      · exact inv.become (by assumption) (by simp) (by simp)
      · exact inv
  | send i =>
      rw [State.step]
      split
      · rename_i key value read here
        refine inv.become here (by simp) fun m sent => ⟨read, ?_⟩
        exact (Phase.sent.inj sent).symm
      · exact inv
  | sendFails i => exact absurd safe id
  | handle i =>
      rw [State.step]
      split
      · rename_i key value m here
        obtain ⟨read, written⟩ := inv.sent _ (List.mem_of_getElem? here) m rfl
        dsimp only at written
        subst written
        exact inv.store distinct allowed here (safe _ _ here rfl)
      · exact inv
  | read i =>
      rw [State.step]
      split
      · exact inv.become (by assumption) (by simp) (by simp)
      · exact inv
  | store i =>
      rw [State.step]
      split
      · rename_i configOptions read here
        exact inv.store distinct allowed here (safe _ _ here rfl)
      · exact inv
  | set i =>
      rw [State.step]
      split
      · rename_i k v here
        exact inv.set distinct allowed here (safe _ here)
      · exact inv

end Inv

/-- In a run that stores safely no update gets lost, whatever the order of the steps. -/
theorem updates_kept (c : Settings) (options : Options) {updates : List Update}
    (distinct : (updates.flatMap Update.keys).Nodup)
    (allowed : ∀ u ∈ updates, ∀ entry ∈ u.entries, c.Allowed entry.1 entry.2) {events : List Event}
    (safe : Runs.Along (State.step c) (Safe c) (init options updates) events) :
    Runs.Always (State.step c) (Kept c) (init options updates) events := by
  have always : Runs.Always (State.step c) (Inv c updates) (init options updates) events :=
    Runs.always_of_along (fun _ _ inv safe => inv.step distinct allowed safe)
      (init_inv c options updates) safe
  exact always.mono fun _ inv => inv.kept

/-- Two windows of the user interface change one option each, and nothing is in their way
    but that both read the options first. -/
def bothRead : List Event :=
  [.ask 0, .ask 1, .answer 0, .answer 1, .send 0, .send 1, .handle 0, .handle 1]

def twoUpdates : List Update := [.ipcSetOption "a" "1", .ipcSetOption "b" "2"]

theorem lost_update :
    ¬ ∀ (c : Settings) (options : Options) (updates : List Update) (events : List Event),
      (updates.flatMap Update.keys).Nodup →
      (∀ u ∈ updates, ∀ entry ∈ u.entries, c.Allowed entry.1 entry.2) →
      (∀ w ∈ (Runs.exec (State.step c) (init options updates) events).writers, w.phase = .finished) →
      ∀ u ∈ updates, ∀ entry ∈ u.entries,
        c.getOption (Runs.exec (State.step c) (init options updates) events).options entry.1 =
          entry.2 := by
  intro all
  have kept := all ⟨fun _ => none, fun _ => none⟩ (fun _ => none) twoUpdates bothRead (by decide)
    (fun u member entry written => ⟨rfl, by simp⟩)
    (by simp [twoUpdates, bothRead, Runs.exec, init, State.step, State.become, State.finish])
    (.ipcSetOption "a" "1") (by simp [twoUpdates]) ("a", "1") (by simp [Update.entries])
  exact absurd kept (by decide)

/-- One after the other, with the server's own code between them. -/
theorem updates_kept_two :
    Runs.Always (State.step ⟨fun _ => none, fun _ => none⟩) (Kept ⟨fun _ => none, fun _ => none⟩)
      (init (fun _ => none) [.ipcSetOption "a" "1", .setOption "b" "2"])
      [.ask 0, .set 1, .answer 0, .send 0, .handle 0] := by
  apply updates_kept
  · decide
  · exact fun u member entry written => ⟨rfl, by simp⟩
  · refine ⟨trivial, fun w _ entry _ _ => rfl, trivial, trivial, ?_, trivial⟩
    intro w m here phase
    have sent : m = (Update.ipcSetOption "a" "1").apply
        (Settings.getOptions ⟨fun _ => none, fun _ => none⟩
          (Settings.setOption ⟨fun _ => none, fun _ => none⟩ (fun _ => none) "b" "2")) ∧
        w.update = .ipcSetOption "a" "1" := by
      obtain rfl := Option.some.inj here
      exact ⟨(Phase.sent.inj phase).symm, rfl⟩
    obtain ⟨rfl, update⟩ := sent
    rw [update]
    exact ⟨fun k other => Update.apply_of_notMem other _, fun entry _ _ => rfl⟩

end State

end RemoteControl.OptionStore
