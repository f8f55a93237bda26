import Mathlib.Data.List.Nodup
import RemoteControl.Runs
import RemoteControl.Fleet.Register

/-! # Several devices at one address book

A device reads the book and posts it in two requests, and other devices come in between:
their posts are lost. One more call of each device, one after the other, repairs whatever
came of that, and leaves nothing to post.
-/

namespace RemoteControl.Fleet

open Runs (exec Along)

structure AddressBook where
  book : Json
  /-- what a device has read and made ready to post, by its id -/
  ready : String → Option Json := fun _ => none

inductive BookEvent where
  /-- The device reads the book; without a post this is its whole call. -/
  | get (d : Device) (answer : Response)
  | post (d : Device)

namespace AddressBook

section Step

variable (parse : String → Option Json)

def step (s : AddressBook) : BookEvent → AddressBook
  | .get d answer =>
      let posted := if inSync parse d answer then none else some (abData parse d answer)
      { s with ready := Function.update s.ready d.id posted }
  | .post d =>
      match s.ready d.id with
      | some posted => ⟨posted, Function.update s.ready d.id none⟩
      | none => s

/-- The server returns what was posted last. -/
def Answers (s : AddressBook) : BookEvent → Prop
  | .get _ answer => answeredBook parse answer = some s.book
  | .post _ => True

end Step

/-- A call with nothing in between. -/
def callOf (call : Device × Response) : List BookEvent := [.get call.1 call.2, .post call.1]

end AddressBook

/-- The row the device looks at is its own and current. -/
def Current (d : Device) (book : Json) : Prop :=
  ((rows book).filter (isOwn d)).getLast?.any (isCurrent d) = true

/-- The book as the device posts it. -/
def renewed (d : Device) (book : Json) : Json :=
  .obj [("tags", (book.get "tags").getD (.arr [])),
    ("peers", .arr (((rows book).filter fun p => !isOwn d p).map normalizePeer ++ [d.row])),
    ("tag_colors", (book.get "tag_colors").getD (.str "\x7b\x7d"))]

theorem rows_renewed (d : Device) (book : Json) :
    rows (renewed d book) = ((rows book).filter fun p => !isOwn d p).map normalizePeer ++ [d.row] := rfl

section Answered

variable {parse : String → Option Json} {d : Device} {answer : Response} {book : Json}

theorem inSync_iff (answered : answeredBook parse answer = some book) :
    inSync parse d answer = true ↔ Current d book := by
  unfold inSync existingSelf answeredRows
  rw [answered]
  exact .rfl

theorem abData_eq (answered : answeredBook parse answer = some book) :
    abData parse d answer = renewed d book := by
  unfold abData peersOther answeredRows
  rw [answered]
  rfl

end Answered

section Rows

variable {d other : Device} {p : Json}

/-- A row keeps its owner: `fleet_register_bootstrap` registers no device without an id. -/
theorem isOwn_normalizePeer (named : d.id ≠ "") : isOwn d (normalizePeer p) = isOwn d p := by
  unfold isOwn rowId Json.text
  rw [get_normalizePeer p (by decide)]
  cases p.get "id" with
  | some v => rfl
  | none =>
      have unnamed : ¬ some "" = some d.id := fun same => named (Option.some.inj same).symm
      exact decide_eq_decide.mpr (iff_of_false unnamed (by simp))

theorem isCurrent_normalizePeer (current : isCurrent d p = true) :
    isCurrent d (normalizePeer p) = true := by
  simp only [isCurrent, Bool.and_eq_true, decide_eq_true_eq] at current ⊢
  exact ⟨text_normalizePeer (by decide) current.1, text_normalizePeer (by decide) current.2⟩

theorem isOwn_row : isOwn d other.row = decide (other.id = d.id) := by
  have named : rowId other.row = some other.id := rfl
  unfold isOwn
  rw [named]
  exact decide_eq_decide.mpr (Option.some_inj)

theorem isCurrent_row : isCurrent d d.row = true := by
  have password : d.row.text "password" = some d.password := rfl
  have alias_ : d.row.text "alias" = some d.alias_ := rfl
  simp only [isCurrent, password, alias_, decide_true, Bool.and_self]

theorem filter_isOwn_normalized (named : d.id ≠ "") (l : List Json) :
    (l.map normalizePeer).filter (isOwn d) = (l.filter (isOwn d)).map normalizePeer := by
  rw [List.filter_map]
  congr 2
  funext p
  exact isOwn_normalizePeer named

end Rows

section Renewed

variable {d other : Device} {book : Json}

theorem current_renewed (named : d.id ≠ "") : Current d (renewed d book) := by
  have gone : (((rows book).filter fun p => !isOwn d p).filter (isOwn d)) = [] := by
    rw [List.filter_filter]
    refine List.filter_eq_nil_iff.mpr fun p _ => ?_
    cases isOwn d p <;> decide
  have own : [d.row].filter (isOwn d) = [d.row] := by
    rw [List.filter_singleton, isOwn_row]
    simp
  unfold Current
  rw [rows_renewed, List.filter_append, filter_isOwn_normalized named, gone, own]
  exact isCurrent_row

/-- Another device's post leaves the row as it is. -/
theorem Current.renewed (named : d.id ≠ "") (different : other.id ≠ d.id) (current : Current d book) :
    Current d (renewed other book) := by
  have kept : ((rows book).filter fun p => !isOwn other p).filter (isOwn d) =
      (rows book).filter (isOwn d) := by
    rw [List.filter_filter]
    refine List.filter_congr fun p _ => ?_
    cases own : isOwn d p with
    | false => rfl
    | true =>
        have foreign : isOwn other p = false := by
          unfold isOwn at own ⊢
          rw [of_decide_eq_true own]
          exact decide_eq_false fun same => different (Option.some.inj same).symm
        rw [foreign]
        rfl
  have notOwn : [other.row].filter (isOwn d) = [] := by
    rw [List.filter_singleton, isOwn_row, decide_eq_false different]
    rfl
  unfold Current at current ⊢
  rw [rows_renewed, List.filter_append, filter_isOwn_normalized named, kept, notOwn, List.append_nil,
    List.getLast?_map, Option.any_map]
  cases last : ((rows book).filter (isOwn d)).getLast? with
  | none =>
      rw [last] at current
      cases current
  | some p =>
      rw [last] at current
      exact isCurrent_normalizePeer current

/-- The rows of devices outside the fleet, as a post writes them. -/
def outside (devices : List Device) (book : Json) : List Json :=
  ((rows book).map normalizePeer).filter fun p => devices.all fun d => !isOwn d p

theorem outside_renewed {devices : List Device} (member : d ∈ devices) (named : d.id ≠ "") :
    outside devices (renewed d book) = outside devices book := by
  have notOutside {p : Json} (own : isOwn d p = true) : (devices.all fun d => !isOwn d p) = false := by
    refine List.all_eq_false.mpr ⟨d, member, ?_⟩
    rw [own]
    exact Bool.false_ne_true
  have twice : (((rows book).filter fun p => !isOwn d p).map normalizePeer).map normalizePeer =
      ((rows book).filter fun p => !isOwn d p).map normalizePeer := by
    rw [List.map_map]
    rfl
  have own : [normalizePeer d.row].filter (fun p => devices.all fun d => !isOwn d p) = [] := by
    rw [List.filter_singleton, notOutside]
    · rfl
    · rw [isOwn_normalizePeer named, isOwn_row]
      exact decide_eq_true rfl
  unfold outside
  rw [rows_renewed, List.map_append, twice, List.map_singleton, List.filter_append, own,
    List.append_nil, List.filter_map, List.filter_map, List.filter_filter]
  congr 1
  refine List.filter_congr fun p _ => ?_
  cases isOwn_p : isOwn d p with
  | false => rw [Bool.not_false, Bool.and_true]
  | true =>
      rw [Bool.not_true, Bool.and_false]
      have owned : isOwn d (normalizePeer p) = true := by rw [isOwn_normalizePeer named, isOwn_p]
      exact (notOutside owned).symm

end Renewed

namespace AddressBook

section Round

variable {parse : String → Option Json} {devices : List Device}
  {s : AddressBook} {d : Device} {answer : Response}

/-- A call whose requests all succeed, with nothing in between. -/
theorem book_callOf :
    (exec (step parse) s (callOf (d, answer))).book =
      if inSync parse d answer then s.book else abData parse d answer := by
  simp only [callOf, Runs.exec_cons, Runs.exec_nil, step, Function.update_self]
  cases inSync parse d answer <;> rfl

/-- It is `fleet_register_call`. -/
theorem book_callOf_eq_afterCall {login posted : Response} {token : String}
    (access : accessToken parse login = .ok token) :
    (exec (step parse) s (callOf (d, answer))).book =
      afterCall parse d ⟨.ok (), .ok login, .ok answer, .ok posted, true⟩ s.book := by
  rw [book_callOf]
  simp only [afterCall, fleetRegisterCall, access]
  cases inSync parse d answer <;> rfl

theorem get_of_stale {book : Json} (answered : answeredBook parse answer = some book)
    (stale : ¬ Current d book) :
    step parse s (.get d answer) =
      { s with ready := Function.update s.ready d.id (some (renewed d book)) } := by
  rw [step, abData_eq answered, if_neg (mt (inSync_iff answered).mp stale)]

theorem book_callOf_of_answered (answered : answeredBook parse answer = some s.book) :
    Current d s.book ∧ (exec (step parse) s (callOf (d, answer))).book = s.book ∨
      (exec (step parse) s (callOf (d, answer))).book = renewed d s.book := by
  rw [book_callOf, abData_eq answered]
  cases sync : inSync parse d answer with
  | true => exact .inl ⟨(inSync_iff answered).mp sync, rfl⟩
  | false => exact .inr rfl

/-- What the sequential round has done for the devices it has passed. -/
theorem round_heals {order : List (Device × Response)}
    (distinct : ∀ d ∈ devices, ∀ d' ∈ devices, d.id = d'.id → d = d')
    (named : ∀ d ∈ devices, d.id ≠ "") (among : ∀ call ∈ order, call.1 ∈ devices)
    (answered : Along (step parse) (Answers parse) s (order.flatMap callOf)) :
    let after := exec (step parse) s (order.flatMap callOf)
    (∀ d ∈ devices, Current d s.book ∨ d ∈ order.map Prod.fst → Current d after.book) ∧
      outside devices after.book = outside devices s.book := by
  induction order generalizing s with
  | nil => exact ⟨fun d _ current => current.resolve_right List.not_mem_nil, rfl⟩
  | cons call rest ih =>
      obtain ⟨d, answer⟩ := call
      rw [List.flatMap_cons, Runs.along_append] at answered
      obtain ⟨⟨here, -⟩, later⟩ := answered
      have member : d ∈ devices := among (d, answer) (List.mem_cons_self ..)
      obtain ⟨current, kept⟩ := ih (fun call there => among call (List.mem_cons_of_mem _ there)) later
      rw [List.flatMap_cons, Runs.exec_append]
      intro after
      rcases book_callOf_of_answered (d := d) here with ⟨sync, same⟩ | posted
      · rw [same] at current kept
        refine ⟨fun other there before => current other there ?_, kept⟩
        rw [List.map_cons, List.mem_cons] at before
        rcases before with now | rfl | later
        · exact .inl now
        · exact .inl sync
        · exact .inr later
      · rw [posted] at current kept
        refine ⟨fun other there before => current other there ?_,
          kept.trans (outside_renewed member (named d member))⟩
        by_cases same : other = d
        · rw [same]
          exact .inl (current_renewed (named d member))
        · have different : d.id ≠ other.id := fun ids => same (distinct d member other there ids).symm
          rw [List.map_cons, List.mem_cons, or_iff_right same] at before
          exact before.imp_left fun now => now.renewed (named other there) different

end Round

/-- However the calls of the devices have been interleaved: after one more call of each,
    one after the other, every device has its current row, the rows of others are as they
    were, and no call posts anything any more. -/
theorem fleet_heals (parse : String → Option Json) (devices : List Device)
    (distinct : (devices.map Device.id).Nodup) (named : ∀ d ∈ devices, d.id ≠ "") (start : AddressBook)
    (events : List BookEvent) (order : List (Device × Response))
    (each : (order.map Prod.fst).Perm devices)
    (answered : Along (step parse) (Answers parse) (exec (step parse) start events)
      (order.flatMap callOf)) :
    let interleaved := (exec (step parse) start events).book
    let final := (exec (step parse) start (events ++ order.flatMap callOf)).book
    (∀ d ∈ devices, ∃ p ∈ rows final, rowId p = some d.id ∧
        p.text "password" = some d.password ∧ p.text "alias" = some d.alias_) ∧
      outside devices final = outside devices interleaved ∧
      ∀ d ∈ devices, ∀ o answer, o.get = .ok answer → answeredBook parse answer = some final →
        (fleetRegisterCall parse d o).1 = none := by
  intro interleaved final
  have apart : ∀ d ∈ devices, ∀ d' ∈ devices, d.id = d'.id → d = d' := fun d member d' member' same =>
    List.inj_on_of_nodup_map distinct member member' same
  have among : ∀ call ∈ order, call.1 ∈ devices := fun call member =>
    each.mem_iff.mp (List.mem_map_of_mem member)
  obtain ⟨current, kept⟩ := round_heals apart named among answered
  rw [← Runs.exec_append] at current kept
  have synced (d : Device) (member : d ∈ devices) : Current d final :=
    current d member (.inr (each.mem_iff.mpr member))
  refine ⟨fun d member => ?_, kept, fun d member o answer get answer_ => ?_⟩
  · have now := synced d member
    unfold Current at now
    cases last : ((rows final).filter (isOwn d)).getLast? with
    | none =>
        rw [last] at now
        cases now
    | some p =>
        rw [last, Option.any_some, isCurrent, Bool.and_eq_true, decide_eq_true_eq,
          decide_eq_true_eq] at now
        obtain ⟨there, own⟩ := List.mem_filter.mp (List.mem_of_getLast? last)
        exact ⟨p, there, of_decide_eq_true own, now.1, now.2⟩
  · have sync := (inSync_iff answer_).mpr (synced d member)
    rw [Option.eq_none_iff_forall_ne_some]
    intro v posted
    obtain ⟨answer', posts, -⟩ := posted_iff.mp posted
    cases get.symm.trans posts.get
    rw [posts.outOfSync] at sync
    cases sync

def otherDevice : Device := { sampleDevice with id := "2" }

def emptyBook : Json := .obj [("tags", .arr []), ("peers", .arr []), ("tag_colors", .str "\x7b\x7d")]

/-- The text of a device's row, with this for each quotation mark. -/
def rowText (mark id : String) : String :=
  mark.intercalate ["\x7b", "id", ":", id, ",", "username", ":", "", ",", "hostname", ":", "h", ",",
    "platform", ":", "Linux", ",", "alias", ":", "B 2 · " ++ id, ",", "tags", ":[],", "password", ":",
    "p", ",", "hash", ":", "", "\x7d"]

def bookText (mark : String) (ids : List String) : String :=
  mark.intercalate ["\x7b", "tags", ":[],", "peers",
    ":[" ++ ",".intercalate (ids.map (rowText mark)) ++ "],", "tag_colors", ":", "\x7b\x7d", "\x7d"]

/-- The book is a text in the answer. -/
def answerText (ids : List String) : String :=
  "\x7b\"data\":\"" ++ bookText "\\\"" ids ++ "\"\x7d"

def listed : List (List String) := [[], ["2"], ["2", "1"]]

def bookOf (ids : List String) : Json :=
  ids.foldl (fun book id => renewed { sampleDevice with id := id } book) emptyBook

/-- `serde_json::from_str` on the texts of the example -/
def bookParse (s : String) : Option Json :=
  match listed.find? (bookText "\"" · = s) with
  | some ids => some (bookOf ids)
  | none => (listed.find? (answerText · = s)).map fun ids => .obj [("data", .str (bookText "\"" ids))]

def answerOf (ids : List String) : Response := ⟨200, answerText ids⟩

theorem answered_of_listed {ids : List String} (member : ids ∈ listed) :
    answeredBook bookParse (answerOf ids) = some (bookOf ids) := by
  have texts : ∀ ids ∈ listed, listed.find? (bookText "\"" · = bookText "\"" ids) = some ids ∧
      listed.find? (bookText "\"" · = answerText ids) = none ∧
        listed.find? (answerText · = answerText ids) = some ids := by
    decide +kernel
  obtain ⟨book, noBook, answer⟩ := texts ids member
  have parsed : bookParse (answerText ids) = some (.obj [("data", .str (bookText "\"" ids))]) := by
    rw [bookParse, noBook, answer]
    rfl
  have inner : bookParse (bookText "\"" ids) = some (bookOf ids) := by
    rw [bookParse, book]
  have success : (answerOf ids).isSuccess = true := rfl
  rw [answeredBook, if_pos success]
  calc (bookParse (answerText ids)).bind (fun env => (env.text "data").bind bookParse)
      = bookParse (bookText "\"" ids) := by rw [parsed]; rfl
    _ = some (bookOf ids) := inner

/-- The first device's row is overwritten and comes back. -/
theorem overwritten_device_heals :
    let final := (exec (step bookParse) ⟨emptyBook, fun _ => none⟩
      ([.get sampleDevice (answerOf []), .get otherDevice (answerOf []), .post sampleDevice,
        .post otherDevice] ++ [(sampleDevice, answerOf ["2"]), (otherDevice, answerOf ["2", "1"])].flatMap
          callOf)).book
    ∃ p ∈ rows final, rowId p = some "1" ∧ p.text "password" = some "p" := by
  have start := answered_of_listed (show [] ∈ listed by decide)
  have one := answered_of_listed (show ["2"] ∈ listed by decide)
  have both := answered_of_listed (show ["2", "1"] ∈ listed by decide)
  have interleaved :
      (exec (step bookParse) ⟨emptyBook, fun _ => none⟩ [.get sampleDevice (answerOf []), .get otherDevice (answerOf []),
        .post sampleDevice, .post otherDevice]).book = bookOf ["2"] := by
    rw [Runs.exec_cons, get_of_stale start nofun, Runs.exec_cons, get_of_stale start nofun]
    rfl
  have stale : ¬ Current sampleDevice (bookOf ["2"]) := by
    unfold Current
    decide
  have renewed_ (s : AddressBook) :
      (step bookParse (step bookParse s (.get sampleDevice (answerOf ["2"]))) (.post sampleDevice)).book =
        bookOf ["2", "1"] := by
    rw [get_of_stale one stale]
    simp only [step, Function.update_self]
    rfl
  have healed := fleet_heals bookParse [sampleDevice, otherDevice] (by decide) (by decide)
    ⟨emptyBook, fun _ => none⟩ [.get sampleDevice (answerOf []), .get otherDevice (answerOf []),
      .post sampleDevice, .post otherDevice]
    [(sampleDevice, answerOf ["2"]), (otherDevice, answerOf ["2", "1"])] (.refl _)
    ⟨by rw [Answers, interleaved, one], trivial, by rw [Answers, renewed_, both], trivial, trivial⟩
  exact (healed.1 sampleDevice (List.mem_cons_self ..)).imp fun _ row => ⟨row.1, row.2.1, row.2.2.1⟩

end AddressBook

end RemoteControl.Fleet
