import Mathlib.Data.List.Basic

/-! # Registering a device in the address book of the fleet

`fleet_register_call`, which `inject-admin-pw.py` writes into the server. The device logs
in, reads the address book of the fleet account and posts it back with its own row
renewed. The post replaces the whole book, so what the device did not read it removes:
`others_kept_iff` says when that is nobody.
-/

namespace RemoteControl.Fleet

/-- `serde_json::Value`. -/
inductive Json where
  | null
  | bool (b : Bool)
  | num (n : Int)
  | str (s : String)
  | arr (l : List Json)
  | obj (fields : List (String × Json))

namespace Json

def get (v : Json) (key : String) : Option Json :=
  match v with
  | .obj fields => fields.lookup key
  | _ => none

def asStr : Json → Option String
  | .str s => some s
  | _ => none

def asArray : Json → Option (List Json)
  | .arr l => some l
  | _ => none

/-- The text under a key. -/
def text (v : Json) (key : String) : Option String := (v.get key).bind asStr

end Json

/-- The fields of a row that `POST /api/ab` takes. -/
def peerKeys : List String := ["id", "username", "hostname", "platform", "alias", "password", "hash"]

def normalizePeer (p : Json) : Json :=
  .obj (peerKeys.map
    (fun k => (k, (p.get k).getD (.str ""))) ++ [("tags", (p.get "tags").getD (.arr []))])

theorem get_normalizePeer (p : Json) {k : String} (key : k ∈ peerKeys) :
    (normalizePeer p).get k = some ((p.get k).getD (.str "")) := by
  simp only [peerKeys, List.mem_cons, List.not_mem_nil, or_false] at key
  rcases key with rfl | rfl | rfl | rfl | rfl | rfl | rfl <;> rfl

/-- The id of a row, if it is a text. -/
def rowId (p : Json) : Option String := p.text "id"

theorem text_normalizePeer {p : Json} {k s : String} (key : k ∈ peerKeys) (text : p.text k = some s) :
    (normalizePeer p).text k = some s := by
  unfold Json.text at text ⊢
  rw [get_normalizePeer p key]
  cases value : p.get k with
  | none =>
      rw [value] at text
      cases text
  | some v =>
      rw [value] at text
      exact text

/-- The rows of an address book, which has none if it has no `peers`. -/
def rows (book : Json) : List Json := ((book.get "peers").bind Json.asArray).getD []

structure Device where
  id : String
  password : String
  hostname : String
  platform : String
  /-- `FLEET_BRAND` -/
  brand : String
  /-- `FLEET_VERSION` -/
  version : String

def Device.alias_ (d : Device) : String :=
  if d.version.isEmpty || d.version.startsWith "__RDC" then d.brand ++ " · " ++ d.id
  else d.brand ++ " " ++ d.version ++ " · " ++ d.id

def Device.row (d : Device) : Json :=
  .obj [("id", .str d.id), ("username", .str ""), ("hostname", .str d.hostname),
    ("platform", .str d.platform), ("alias", .str d.alias_), ("tags", .arr []),
    ("password", .str d.password), ("hash", .str "")]

structure Response where
  status : Nat
  body : String

def Response.isSuccess (r : Response) : Bool := 200 ≤ r.status && r.status < 300

/-- What becomes of the requests of one call. -/
structure Outcomes where
  build : Except String Unit := .ok ()
  login : Except String Response
  get : Except String Response
  post : Except String Response
  /-- The server has taken the post, whatever the device hears of it. -/
  applied : Bool

section Call

-- `serde_json::from_str`
variable (parse : String → Option Json)

/-- The token of a login, or why there is none. -/
def accessToken (login : Response) : Except String String :=
  if !login.isSuccess then .error s!"fleet login: HTTP {login.status} {login.body}"
  else
    match parse login.body with
    | none => .error "error decoding response body"
    | some env =>
        match env.text "access_token" with
        | none => .error "no access_token in login response"
        | some token => .ok token

/-- The address book in the answer to `GET /api/ab`, if it is one. -/
def answeredBook (answer : Response) : Option Json :=
  if answer.isSuccess then (parse answer.body).bind fun env => (env.text "data").bind parse else none

/-- The rows in the answer: none if anything about it is wrong. -/
def answeredRows (answer : Response) : List Json := ((answeredBook parse answer).map rows).getD []

def isOwn (d : Device) (p : Json) : Bool := rowId p = some d.id

def existingSelf (d : Device) (answer : Response) : Option Json :=
  ((answeredRows parse answer).filter (isOwn d)).getLast?

def peersOther (d : Device) (answer : Response) : List Json :=
  ((answeredRows parse answer).filter fun p => !isOwn d p).map normalizePeer

/-- The row has the password and the alias of the device. -/
def isCurrent (d : Device) (p : Json) : Bool :=
  p.text "password" = some d.password && p.text "alias" = some d.alias_

def inSync (d : Device) (answer : Response) : Bool := (existingSelf parse d answer).any (isCurrent d)

/-- `ab_data` -/
def abData (d : Device) (answer : Response) : Json :=
  let book := answeredBook parse answer
  .obj [("tags", (book.bind (·.get "tags")).getD (.arr [])),
    ("peers", .arr (peersOther parse d answer ++ [d.row])),
    ("tag_colors", (book.bind (·.get "tag_colors")).getD (.str "\x7b\x7d"))]

/-- What a call posts, if it comes so far, and its result. -/
def fleetRegisterCall (d : Device) (o : Outcomes) : Option Json × Except String Unit :=
  match o.build, o.login, o.get with
  | .error err, _, _ | _, .error err, _ => (none, .error err)
  | .ok (), .ok login, get =>
      match accessToken parse login, get with
      | .error err, _ | _, .error err => (none, .error err)
      | .ok _, .ok answer =>
          if inSync parse d answer then (none, .ok ())
          else
            (some (abData parse d answer),
              match o.post with
              | .error err => .error err
              | .ok posted =>
                  if posted.isSuccess then .ok ()
                  else .error s!"fleet ab upsert: HTTP {posted.status} {posted.body}")

/-- The address book after the call: a post replaces it. -/
def afterCall (d : Device) (o : Outcomes) (book : Json) : Json :=
  match (fleetRegisterCall parse d o).1 with
  | some posted => if o.applied then posted else book
  | none => book

end Call

/-! ## Who stays in the book -/

def Has (book : Json) (id : String) : Prop := ∃ p ∈ rows book, rowId p = some id

section Kept

variable {parse : String → Option Json} {d : Device} {o : Outcomes} {answer : Response}

/-- The call comes to its post, with this answer read. -/
structure Posts (parse : String → Option Json) (d : Device) (o : Outcomes) (answer : Response) :
    Prop where
  build : o.build = .ok ()
  login : ∃ login token, o.login = .ok login ∧ accessToken parse login = .ok token
  get : o.get = .ok answer
  outOfSync : inSync parse d answer = false

/-- A row of the answer that the post keeps, under this id. -/
def Listed (parse : String → Option Json) (answer : Response) (id : String) : Prop :=
  ∃ p ∈ answeredRows parse answer, rowId (normalizePeer p) = some id

theorem posted_iff {v : Json} :
    (fleetRegisterCall parse d o).1 = some v ↔
      ∃ answer, Posts parse d o answer ∧ v = abData parse d answer := by
  constructor
  · intro posted
    cases build : o.build with
    | error err => simp only [fleetRegisterCall, build, reduceCtorEq] at posted
    | ok =>
        cases loggedIn : o.login with
        | error err => simp only [fleetRegisterCall, build, loggedIn, reduceCtorEq] at posted
        | ok login =>
            cases access : accessToken parse login with
            | error err =>
              simp only [fleetRegisterCall, build, loggedIn, access, reduceCtorEq] at posted
            | ok token =>
                cases get : o.get with
                | error err =>
                    simp only [fleetRegisterCall, build, loggedIn, access, get, reduceCtorEq] at posted
                | ok answer =>
                    simp only [fleetRegisterCall, build, loggedIn, access, get] at posted
                    split_ifs at posted with sync
                    exact ⟨answer, ⟨build, ⟨login, token, loggedIn, access⟩, get,
                      Bool.eq_false_iff.mpr sync⟩, (Option.some.inj posted).symm⟩
  · rintro ⟨answer, ⟨build, ⟨login, token, loggedIn, access⟩, get, outOfSync⟩, rfl⟩
    simp only [fleetRegisterCall, build, loggedIn, access, get, outOfSync, Bool.false_eq_true, if_false]

/-- What a post says about another device is what the answer said. -/
theorem has_abData_iff {id : String} (other : id ≠ d.id) :
    Has (abData parse d answer) id ↔ Listed parse answer id := by
  have posted : rows (abData parse d answer) = peersOther parse d answer ++ [d.row] := rfl
  unfold Has
  rw [posted]
  constructor
  · rintro ⟨p, member, named⟩
    rcases List.mem_append.mp member with kept | own
    · obtain ⟨q, there, rfl⟩ := List.mem_map.mp kept
      exact ⟨q, (List.mem_filter.mp there).1, named⟩
    · rw [List.mem_singleton.mp own] at named
      exact absurd (Option.some.inj named).symm other
  · rintro ⟨q, there, named⟩
    refine ⟨normalizePeer q, List.mem_append_left _ (List.mem_map.mpr ⟨q, ?_, rfl⟩), named⟩
    refine List.mem_filter.mpr ⟨there, ?_⟩
    unfold isOwn
    rw [Bool.not_eq_true', decide_eq_false_iff_not]
    intro own
    have kept : rowId (normalizePeer q) = some d.id := text_normalizePeer (by decide) own
    exact other (Option.some.inj (named.symm.trans kept))

/-- A call keeps the other devices in the book exactly when the answer its post is made
    from lists them. -/
theorem others_kept_iff (parse : String → Option Json) (d : Device) (o : Outcomes) (book : Json) :
    (∀ id, id ≠ d.id → Has book id → Has (afterCall parse d o book) id) ↔
      ∀ answer, Posts parse d o answer → o.applied = true →
        ∀ id, id ≠ d.id → Has book id → Listed parse answer id := by
  constructor
  · intro kept answer posts applied id other has
    have after := kept id other has
    have posted : (fleetRegisterCall parse d o).1 = some (abData parse d answer) :=
      posted_iff.mpr ⟨answer, posts, rfl⟩
    simp only [afterCall, posted, applied, if_true] at after
    exact (has_abData_iff other).mp after
  · intro listed id other has
    unfold afterCall
    cases posted : (fleetRegisterCall parse d o).1 with
    | none => exact has
    | some v =>
        obtain ⟨answer, posts, rfl⟩ := posted_iff.mp posted
        dsimp only
        split_ifs with applied
        · exact (has_abData_iff other).mpr (listed answer posts applied id other has)
        · exact has

/-- An answer that is not an address book lists nobody. -/
theorem not_listed_of_unreadable (unreadable : answeredBook parse answer = none) (id : String) :
    ¬ Listed parse answer id := by
  rintro ⟨p, member, -⟩
  rw [answeredRows, unreadable] at member
  cases member

end Kept

def sampleDevice : Device where
  id := "1"
  password := "p"
  hostname := "h"
  platform := "Linux"
  brand := "B"
  version := "2"

def loginText : String := "\x7b\"access_token\":\"t\"\x7d"

def sampleParse (s : String) : Option Json :=
  if s = loginText then some (.obj [("access_token", .str "t")]) else none

def sampleOutcomes : Outcomes where
  login := .ok ⟨200, loginText⟩
  get := .ok ⟨500, ""⟩
  post := .ok ⟨200, ""⟩
  applied := true

/-- The book lists another device, the answer is an error and the post goes through. -/
theorem other_device_wiped :
    let book : Json := .obj [("peers", .arr [.obj [("id", .str "2")]])]
    Has book "2" ∧ (fleetRegisterCall sampleParse sampleDevice sampleOutcomes).2 = .ok () ∧
      ¬ Has (afterCall sampleParse sampleDevice sampleOutcomes book) "2" := by
  refine ⟨⟨.obj [("id", .str "2")], List.mem_singleton.mpr rfl, rfl⟩, rfl, ?_⟩
  have posted : afterCall sampleParse sampleDevice sampleOutcomes (.obj [("peers",
      .arr [.obj [("id", .str "2")]])]) = abData sampleParse sampleDevice ⟨500, ""⟩ := rfl
  rw [posted, has_abData_iff (by decide)]
  exact not_listed_of_unreadable rfl "2"

end RemoteControl.Fleet
