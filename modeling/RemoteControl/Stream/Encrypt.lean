import Mathlib.Data.List.Induction
import Mathlib.Data.List.Nodup
import RemoteControl.Runs
import RemoteControl.Stream.BytesCodec

/-! # Encrypted messages

`Encrypt` of `tcp.rs` seals the messages of a connection with a key both ends share. It
counts the messages of each direction, and the count is all that goes into the nonce.

The counts are 64 bits wide. Counting on from the last of them is an overflow, at which
the program stops: `enc` and `dec` have no result then.
-/

namespace RemoteControl.Stream

/-- `secretbox` of the library, as far as it is documented: what was sealed can be opened with
    the same nonce and key, and takes 16 bytes more. -/
structure SecretBox (Key : Type) where
  seal_ : Bytes → Bytes → Key → Bytes
  open_ : Bytes → Bytes → Key → Option Bytes
  opens : ∀ data nonce key, open_ (seal_ data nonce key) nonce key = some data
  longer : ∀ data nonce key, (seal_ data nonce key).length = data.length + 16

/-- A box that writes the first bytes of the nonce before the data. -/
def SecretBox.plain : SecretBox Unit where
  seal_ := fun data nonce _ => (nonce ++ List.replicate 16 0).take 16 ++ data
  open_ := fun bytes nonce _ =>
    if bytes.take 16 = (nonce ++ List.replicate 16 0).take 16 then some (bytes.drop 16) else none
  opens := by
    intro data nonce _
    have width : ((nonce ++ List.replicate 16 0).take 16).length = 16 := by simp
    rw [if_pos (List.take_left' width), List.drop_left' width]
  longer := by
    intro data nonce _
    simp only [List.length_append, List.length_take, List.length_replicate]
    omega

structure Encrypt (Key : Type) where
  key : Key
  /-- The messages sealed so far. -/
  sealedCount : Nat := 0
  /-- The messages opened so far, or not opened for that matter. -/
  openedCount : Nat := 0
  deriving DecidableEq

/-- `u64::MAX` -/
def maxCount : Nat := 2 ^ 64 - 1

def getNonce (seqnum : Nat) : Bytes := toLe 8 seqnum ++ List.replicate 16 0

theorem getNonce_inj {n m : Nat} (small : n ≤ maxCount) (small' : m ≤ maxCount) :
    getNonce n = getNonce m ↔ n = m := by
  unfold maxCount at small small'
  unfold getNonce
  rw [List.append_left_inj, toLe_inj (by omega) (by omega)]

namespace Encrypt

variable {Key : Type} (box : SecretBox Key)

def new (key : Key) : Encrypt Key where
  key := key

def enc (data : Bytes) (e : Encrypt Key) : Option (Encrypt Key × Bytes) :=
  if maxCount ≤ e.sealedCount then none
  else
    let e := { e with sealedCount := e.sealedCount + 1 }
    some (e, box.seal_ data (getNonce e.sealedCount) e.key)

def dec (bytes : Bytes) (e : Encrypt Key) : Option (Encrypt Key × Except String Bytes) :=
  if bytes.length ≤ 1 then some (e, .ok bytes)
  else if maxCount ≤ e.openedCount then none
  else
    let e := { e with openedCount := e.openedCount + 1 }
    match box.open_ bytes (getNonce e.openedCount) e.key with
    | some data => some (e, .ok data)
    | none => some (e, .error "decryption error")

/-- Seals messages one after the other. -/
def encAll : List Bytes → Encrypt Key → Option (Encrypt Key × List Bytes)
  | [], e => some (e, [])
  | data :: rest, e =>
      match e.enc box data with
      | none => none
      | some (e, frame) => (encAll rest e).map fun (e, frames) => (e, frame :: frames)

/-! ## What sealing and opening do -/

variable {box} {e e' : Encrypt Key} {data bytes frame : Bytes}

theorem enc_spec (sealed_ : e.enc box data = some (e', frame)) :
    e.sealedCount < maxCount ∧ e' = { e with sealedCount := e.sealedCount + 1 } ∧
      frame = box.seal_ data (getNonce (e.sealedCount + 1)) e.key := by
  unfold enc at sealed_
  split_ifs at sealed_ with last
  obtain ⟨rfl, rfl⟩ := Prod.mk.inj (Option.some.inj sealed_)
  exact ⟨Nat.not_le.mp last, rfl, rfl⟩

theorem dec_of_short (short : bytes.length ≤ 1) : e.dec box bytes = some (e, .ok bytes) :=
  if_pos short

/-- A frame that is looked at is counted, whether it can be opened or not. -/
theorem dec_of_long (long : 1 < bytes.length) (r : Except String Bytes) :
    e.dec box bytes = some (e', r) ↔
      e.openedCount < maxCount ∧ e' = { e with openedCount := e.openedCount + 1 } ∧
        r = match box.open_ bytes (getNonce (e.openedCount + 1)) e.key with
          | some data => .ok data
          | none => .error "decryption error" := by
  unfold dec
  rw [if_neg (by omega)]
  split_ifs with last
  · simp [Nat.not_lt.mpr last]
  · dsimp only
    split
    · simp only [Option.some.injEq, Prod.mk.injEq, Nat.not_le.mp last, true_and]
      exact and_congr eq_comm eq_comm
    · simp only [Option.some.injEq, Prod.mk.injEq, Nat.not_le.mp last, true_and]
      exact and_congr eq_comm eq_comm

end Encrypt

/-! Each end counts its own messages, both from the beginning, under one and the same key. -/

inductive Side where
  | near
  | far
  deriving DecidableEq

structure Ends (Key : Type) where
  encrypt : Side → Encrypt Key
  /-- The nonces `seal` was called with under the key. -/
  nonces : List Bytes := []

namespace Ends

variable {Key : Type} (box : SecretBox Key)

def new (key : Key) : Ends Key where
  encrypt := fun _ => .new key

/-- One end sends a message. -/
def step (ends : Ends Key) (event : Side × Bytes) : Ends Key :=
  match (ends.encrypt event.1).enc box event.2 with
  | none => ends
  | some (e, _) =>
      { encrypt := Function.update ends.encrypt event.1 e
        nonces := ends.nonces ++ [getNonce e.sealedCount] }

/-- The nonces of the first messages of one end. -/
def firstNonces (count : Nat) : List Bytes := (List.range count).map fun i => getNonce (i + 1)

theorem firstNonces_succ (count : Nat) :
    firstNonces (count + 1) = firstNonces count ++ [getNonce (count + 1)] := by
  simp [firstNonces, List.range_succ]

theorem firstNonces_nodup {count : Nat} (small : count ≤ maxCount) : (firstNonces count).Nodup := by
  refine List.Nodup.map_on ?_ List.nodup_range
  intro i member j member' same
  rw [List.mem_range] at member member'
  rw [getNonce_inj (by omega) (by omega)] at same
  omega

/-- What is known of the ends after the given messages. -/
structure Counted (ends : Ends Key) (events : List (Side × Bytes)) : Prop where
  nonces : ends.nonces.Perm (firstNonces (ends.encrypt .near).sealedCount ++
    firstNonces (ends.encrypt .far).sealedCount)
  small : ∀ side, (ends.encrypt side).sealedCount ≤ maxCount
  silent : ∀ side, (ends.encrypt side).sealedCount = 0 ↔ ∀ event ∈ events, event.1 ≠ side

section Step

variable {box} {ends : Ends Key} {side : Side}

theorem step_of_used (used : maxCount ≤ (ends.encrypt side).sealedCount) (data : Bytes) :
    ends.step box (side, data) = ends := by
  simp only [step, Encrypt.enc, if_pos used]

theorem step_of_room (room : (ends.encrypt side).sealedCount < maxCount) (data : Bytes) :
    ends.step box (side, data) =
      { encrypt := Function.update ends.encrypt side
          { ends.encrypt side with sealedCount := (ends.encrypt side).sealedCount + 1 }
        nonces := ends.nonces ++ [getNonce ((ends.encrypt side).sealedCount + 1)] } := by
  simp only [step, Encrypt.enc, if_neg (Nat.not_le.mpr room)]

end Step

theorem Counted.step {ends : Ends Key} {events : List (Side × Bytes)} (counted : Counted ends events)
    (event : Side × Bytes) : Counted (ends.step box event) (events ++ [event]) := by
  obtain ⟨side, data⟩ := event
  rcases Nat.lt_or_ge (ends.encrypt side).sealedCount maxCount with room | used
  · rw [step_of_room room]
    refine ⟨?_, fun side' => ?_, fun side' => ?_⟩
    · cases side with
      | near =>
          simp only [Function.update_self, Function.update_of_ne (show Side.far ≠ .near by decide),
            firstNonces_succ]
          refine (counted.nonces.append_right _).trans ?_
          rw [List.append_assoc, List.append_assoc]
          exact List.perm_append_comm.append_left _
      | far =>
          simp only [Function.update_self, Function.update_of_ne (show Side.near ≠ .far by decide),
            firstNonces_succ, ← List.append_assoc]
          exact counted.nonces.append_right _
    · by_cases same : side' = side
      · subst same
        simp only [Function.update_self]
        exact room
      · simp only [Function.update_of_ne same]
        exact counted.small side'
    · rw [List.forall_mem_append, List.forall_mem_singleton]
      by_cases same : side' = side
      · subst same
        simp
      · simp only [Function.update_of_ne same, counted.silent side']
        exact ⟨fun quiet => ⟨quiet, Ne.symm same⟩, And.left⟩
  · rw [step_of_used used]
    refine ⟨counted.nonces, counted.small, fun side' => ?_⟩
    rw [counted.silent side', List.forall_mem_append, List.forall_mem_singleton]
    refine ⟨fun quiet => ⟨quiet, ?_⟩, And.left⟩
    -- an end that has used up its counter has sent something before
    rintro rfl
    rw [(counted.silent side).mpr quiet] at used
    exact absurd used (by decide)

theorem counted_exec (key : Key) (events : List (Side × Bytes)) :
    Counted (Runs.exec (step box) (new key) events) events := by
  induction events using List.reverseRecOn with
  | nil => exact ⟨.nil, fun _ => Nat.zero_le _, fun _ => ⟨fun _ => nofun, fun _ => rfl⟩⟩
  | append_singleton events event ih =>
      rw [Runs.exec_append]
      exact ih.step box event

theorem firstNonces_of_pos {count : Nat} (some_ : count ≠ 0) : getNonce 1 ∈ firstNonces count :=
  List.mem_map.mpr ⟨0, List.mem_range.mpr (by omega), rfl⟩

/-- No nonce is used twice exactly in the runs in which one end sends nothing. -/
theorem nonces_unique_iff (key : Key) (events : List (Side × Bytes)) :
    (Runs.exec (step box) (new key) events).nonces.Nodup ↔
      ∃ side, ∀ event ∈ events, event.1 ≠ side := by
  obtain ⟨nonces, small, silent⟩ := counted_exec box key events
  rw [nonces.nodup_iff]
  constructor
  · intro unique
    by_contra both
    rw [not_exists] at both
    have near := mt (silent .near).mp (both .near)
    have far := mt (silent .far).mp (both .far)
    exact List.disjoint_of_nodup_append unique (firstNonces_of_pos near) (firstNonces_of_pos far)
  · rintro ⟨side, quiet⟩
    have zero := (silent side).mpr quiet
    cases side with
    | near =>
        rw [zero]
        exact firstNonces_nodup (small .far)
    | far =>
        rw [zero, show firstNonces 0 = [] from rfl, List.append_nil]
        exact firstNonces_nodup (small .near)

/-- One message from each end is enough. -/
theorem first_messages_share_nonce :
    ¬ (Runs.exec (step .plain) (new ()) [(.near, [1]), (.far, [2])]).nonces.Nodup := by
  decide

end Ends

/-! What the receiving end makes of the frames that reach it. -/

namespace Encrypt

variable {Key : Type} (box : SecretBox Key)

/-- A frame and what `dec` has made of it. -/
abbrev Received := Bytes × Except String Bytes

/-- Opens frames one after the other. -/
def decAll : List Bytes → Encrypt Key → Encrypt Key × List Received
  | [], e => (e, [])
  | frame :: rest, e =>
      match e.dec box frame with
      | none => (e, [])
      | some (e, r) =>
          let (e, received) := decAll rest e
          (e, (frame, r) :: received)

/-- The message of a frame that was opened; a frame of at most one byte is passed on as
    it is. -/
def Received.message : Received → Option Bytes
  | (frame, .ok data) => if 1 < frame.length then some data else none
  | (_, .error _) => none

/-- A longer message that was accepted. -/
def Received.accepted : Received → Option Bytes
  | (_, .ok data) => if 1 < data.length then some data else none
  | (_, .error _) => none

def Received.isOk : Received → Bool
  | (_, .ok _) => true
  | (_, .error _) => false

/-- Nothing can be opened but what the sender has sealed, each message with its own
    nonce. -/
def Authentic (key : Key) (msgs delivered : List Bytes) : Prop :=
  ∀ frame ∈ delivered, ∀ n data, box.open_ frame (getNonce n) key = some data →
    ∃ i, msgs[i]? = some data ∧ getNonce n = getNonce (i + 1)

section OneDirection

variable {box} {key : Key} {msgs delivered frames : List Bytes} {e e' : Encrypt Key} {frame : Bytes}

theorem decAll_of_short (short : frame.length ≤ 1) (rest : List Bytes) :
    e.decAll box (frame :: rest) =
      ((e.decAll box rest).1, (frame, .ok frame) :: (e.decAll box rest).2) := by
  simp only [decAll, dec_of_short short]

theorem encAll_spec (sealed_ : e.encAll box msgs = some (e', frames))
    (small : e.sealedCount ≤ maxCount) :
    e' = { e with sealedCount := e.sealedCount + msgs.length } ∧
      e.sealedCount + msgs.length ≤ maxCount := by
  induction msgs generalizing e frames with
  | nil =>
      obtain ⟨rfl, rfl⟩ := Prod.mk.inj (Option.some.inj sealed_)
      exact ⟨rfl, small⟩
  | cons data rest ih =>
      unfold encAll at sealed_
      split at sealed_
      · cases sealed_
      · rename_i e₁ frame first
        obtain ⟨room, rfl, -⟩ := enc_spec first
        obtain ⟨⟨e₂, frames'⟩, later, same⟩ := Option.map_eq_some_iff.mp sealed_
        obtain ⟨rfl, -⟩ := Prod.mk.inj same
        obtain ⟨rfl, fits⟩ := ih later room
        simp only [List.length_cons] at fits ⊢
        exact ⟨by congr 1; omega, by omega⟩

/-- The frame that is opened next is the message of that number. -/
theorem Authentic.next (ideal : Authentic box key msgs delivered) (fits : msgs.length ≤ maxCount)
    {data : Bytes} (member : frame ∈ delivered) {n : Nat} (room : n < maxCount)
    (opened : box.open_ frame (getNonce (n + 1)) key = some data) : msgs[n]? = some data := by
  obtain ⟨i, listed, nonce⟩ := ideal frame member _ data opened
  have inside : i < msgs.length := (List.getElem?_eq_some_iff.mp listed).1
  rw [getNonce_inj room (by omega)] at nonce
  obtain rfl : n = i := Nat.succ.inj nonce
  exact listed

theorem Authentic.tail (ideal : Authentic box key msgs (frame :: delivered)) :
    Authentic box key msgs delivered :=
  fun frame' member => ideal frame' (List.mem_cons_of_mem frame member)

/-- What is opened are messages of ever higher numbers. -/
theorem opened_increasing (ideal : Authentic box e.key msgs delivered) (fits : msgs.length ≤ maxCount) :
    ∃ numbers : List Nat, numbers.Pairwise (· < ·) ∧ (∀ n ∈ numbers, e.openedCount ≤ n) ∧
      numbers.map (msgs[·]?) = ((e.decAll box delivered).2.filterMap Received.message).map some := by
  fun_induction decAll box delivered e with
  | case1 => exact ⟨[], .nil, nofun, rfl⟩
  | case2 => exact ⟨[], .nil, nofun, rfl⟩
  | case3 frame rest e e₁ r called e₂ received later ih =>
      rw [later] at ih
      rcases Nat.lt_or_ge 1 frame.length with long | short
      · obtain ⟨room, rfl, r_eq⟩ := (dec_of_long long r).mp called
        obtain ⟨numbers, increasing, above, same⟩ := ih ideal.tail
        have above' : ∀ n ∈ numbers, e.openedCount < n := above
        cases opened : box.open_ frame (getNonce (e.openedCount + 1)) e.key with
        | none =>
            rw [opened] at r_eq
            subst r_eq
            exact ⟨numbers, increasing, fun n member => (above' n member).le, same⟩
        | some data =>
            rw [opened] at r_eq
            subst r_eq
            refine ⟨e.openedCount :: numbers, .cons above' increasing, ?_, ?_⟩
            · rintro n (_ | ⟨_, member⟩)
              · exact le_refl _
              · exact (above' n member).le
            · have listed := ideal.next fits (List.mem_cons_self ..) room opened
              simp only [List.filterMap_cons, Received.message, if_pos long, List.map_cons, listed]
              exact congrArg _ same
      · obtain ⟨rfl, rfl⟩ := Prod.mk.inj (Option.some.inj ((dec_of_short short).symm.trans called))
        obtain ⟨numbers, increasing, above, same⟩ := ih ideal.tail
        refine ⟨numbers, increasing, above, ?_⟩
        simp only [List.filterMap_cons, Received.message, if_neg (Nat.not_lt.mpr short)]
        exact same

/-- As long as nothing fails, nothing is left out. -/
theorem opened_prefix (ideal : Authentic box e.key msgs delivered) (fits : msgs.length ≤ maxCount) :
    ((e.decAll box delivered).2.takeWhile Received.isOk).filterMap Received.message <+:
      msgs.drop e.openedCount := by
  fun_induction decAll box delivered e with
  | case1 => exact List.nil_prefix
  | case2 => exact List.nil_prefix
  | case3 frame rest e e₁ r called e₂ received later ih =>
      rw [later] at ih
      rcases Nat.lt_or_ge 1 frame.length with long | short
      · obtain ⟨room, rfl, r_eq⟩ := (dec_of_long long r).mp called
        cases opened : box.open_ frame (getNonce (e.openedCount + 1)) e.key with
        | none =>
            rw [opened] at r_eq
            subst r_eq
            exact List.nil_prefix
        | some data =>
            rw [opened] at r_eq
            subst r_eq
            have listed := ideal.next fits (List.mem_cons_self ..) room opened
            obtain ⟨inside, here⟩ := List.getElem?_eq_some_iff.mp listed
            simp only [Received.isOk, List.takeWhile_cons, if_true, List.filterMap_cons,
              Received.message, if_pos long]
            rw [List.drop_eq_getElem_cons inside, here]
            exact List.cons_prefix_cons.mpr ⟨rfl, ih ideal.tail⟩
      · obtain ⟨rfl, rfl⟩ := Prod.mk.inj (Option.some.inj ((dec_of_short short).symm.trans called))
        simp only [Received.isOk, List.takeWhile_cons, if_true, List.filterMap_cons,
          Received.message, if_neg (Nat.not_lt.mpr short)]
        exact ih ideal.tail

/-- A message of more than one byte is never one that was passed on. -/
theorem accepted_eq_filter :
    (e.decAll box delivered).2.filterMap Received.accepted =
      ((e.decAll box delivered).2.filterMap Received.message).filter (1 < ·.length) := by
  fun_induction decAll box delivered e with
  | case1 => rfl
  | case2 => rfl
  | case3 frame rest e e₁ r called e₂ received later ih =>
      rw [later] at ih
      rcases Nat.lt_or_ge 1 frame.length with long | short
      · cases r with
        | error err => exact ih
        | ok data =>
            by_cases more : 1 < data.length
            · simp only [List.filterMap_cons, Received.accepted, Received.message, if_pos long,
                if_pos more, List.filter_cons, decide_eq_true more]
              exact congrArg _ ih
            · simp only [List.filterMap_cons, Received.accepted, Received.message, if_pos long,
                if_neg more, List.filter_cons, decide_eq_false more]
              exact ih
      · obtain ⟨rfl, rfl⟩ := Prod.mk.inj (Option.some.inj ((dec_of_short short).symm.trans called))
        simp only [List.filterMap_cons, Received.accepted, Received.message,
          if_neg (Nat.not_lt.mpr short)]
        exact ih

/-- Frames that arrive as they were sent are all opened, whatever stands between them. -/
theorem all_delivered {s : Encrypt Key} (same : s.key = e.key)
    (step : s.sealedCount = e.openedCount) (sealed_ : s.encAll box msgs = some (e', frames))
    (arrived : delivered.filter (1 < ·.length) = frames) :
    (e.decAll box delivered).2.filterMap Received.message = msgs ∧
      (∀ r ∈ (e.decAll box delivered).2, r.isOk = true) ∧
      (e.decAll box delivered).2.map Prod.fst = delivered ∧
      (e.decAll box delivered).1.openedCount = e'.sealedCount := by
  induction delivered generalizing e s msgs frames with
  | nil =>
      obtain rfl : [] = frames := arrived
      cases msgs with
      | nil =>
          obtain ⟨rfl, -⟩ := Prod.mk.inj (Option.some.inj sealed_)
          exact ⟨rfl, nofun, rfl, step.symm⟩
      | cons data rest =>
          unfold encAll at sealed_
          split at sealed_
          · cases sealed_
          · obtain ⟨_, -, impossible⟩ := Option.map_eq_some_iff.mp sealed_
            cases (Prod.mk.inj impossible).2
  | cons frame rest ih =>
      rcases Nat.lt_or_ge 1 frame.length with long | short
      · rw [List.filter_cons_of_pos (by simpa using long)] at arrived
        subst arrived
        cases msgs with
        | nil => cases (Prod.mk.inj (Option.some.inj sealed_)).2
        | cons data msgs =>
            unfold encAll at sealed_
            split at sealed_
            · cases sealed_
            · rename_i _ frame₁ first
              obtain ⟨⟨s₂, frames'⟩, later, both⟩ := Option.map_eq_some_iff.mp sealed_
              obtain ⟨rfl, frames_⟩ := Prod.mk.inj both
              obtain ⟨rfl, rfl⟩ := List.cons.inj frames_
              obtain ⟨room, rfl, frame_eq⟩ := enc_spec first
              let e₁ : Encrypt Key := { e with openedCount := e.openedCount + 1 }
              let s₁ : Encrypt Key := { s with sealedCount := s.sealedCount + 1 }
              have decoded : e.dec box frame₁ = some (e₁, .ok data) := by
                refine (dec_of_long long _).mpr ⟨step ▸ room, rfl, ?_⟩
                rw [frame_eq, same, step, box.opens]
              obtain ⟨opened, fine, whole, count⟩ := ih (e := e₁) (s := s₁) same
                (congrArg (· + 1) step) later rfl
              simp only [decAll, decoded, List.filterMap_cons, Received.message, if_pos long,
                List.map_cons]
              refine ⟨congrArg _ opened, ?_, congrArg _ whole, count⟩
              rintro r (_ | ⟨_, member⟩)
              · rfl
              · exact fine r member
      · rw [List.filter_cons_of_neg (by simpa using short)] at arrived
        obtain ⟨opened, fine, whole, count⟩ := ih same step sealed_ arrived
        simp only [decAll_of_short short, List.filterMap_cons, Received.message,
          if_neg (Nat.not_lt.mpr short), List.map_cons]
        refine ⟨opened, ?_, congrArg _ whole, count⟩
        rintro r (_ | ⟨_, member⟩)
        · rfl
        · exact fine r member

end OneDirection

/-- Whatever reaches the receiver, it accepts messages in the order they were sent and none
    of them twice, and up to the first failure it accepts all of them; what arrives as it
    was sent is accepted whole. -/
theorem stream_delivery (key : Key) (msgs frames : List Bytes) (e : Encrypt Key)
    (sealed_ : (new key).encAll box msgs = some (e, frames)) :
    (∀ delivered, Authentic box key msgs delivered →
      (∃ numbers : List Nat, numbers.Pairwise (· < ·) ∧ numbers.map (msgs[·]?) =
        (((new key).decAll box delivered).2.filterMap Received.message).map some) ∧
      (((new key).decAll box delivered).2.takeWhile Received.isOk).filterMap Received.message <+: msgs ∧
      ((new key).decAll box delivered).2.filterMap Received.accepted =
        (((new key).decAll box delivered).2.filterMap Received.message).filter (1 < ·.length)) ∧
      ∀ delivered, delivered.filter (1 < ·.length) = frames →
        ((new key).decAll box delivered).2.filterMap Received.message = msgs ∧
          (∀ r ∈ ((new key).decAll box delivered).2, r.isOk = true) ∧
          ((new key).decAll box delivered).2.map Prod.fst = delivered ∧
          ((new key).decAll box delivered).1.openedCount = e.sealedCount := by
  have fits : msgs.length ≤ maxCount := by
    have counted := (encAll_spec sealed_ (Nat.zero_le _)).2
    rwa [show (new key).sealedCount = 0 from rfl, Nat.zero_add] at counted
  constructor
  · intro delivered ideal
    obtain ⟨numbers, increasing, -, same⟩ := opened_increasing (e := new key) ideal fits
    exact ⟨⟨numbers, increasing, same⟩, opened_prefix (e := new key) ideal fits, accepted_eq_filter⟩
  · intro delivered arrived
    exact all_delivered rfl rfl sealed_ arrived

/-- What the plain box opens has the count before it. -/
theorem plain_open {frame data : Bytes} {n : Nat}
    (opened : SecretBox.plain.open_ frame (getNonce n) () = some data) :
    frame.take 8 = toLe 8 n ∧ frame.drop 16 = data := by
  simp only [SecretBox.plain] at opened
  split_ifs at opened with same
  refine ⟨?_, Option.some.inj opened⟩
  have front := congrArg (List.take 8) same
  rw [List.take_take, List.take_take, show min 8 16 = 8 from rfl] at front
  rwa [getNonce, List.append_assoc, List.take_left' (length_toLe 8 n)] at front

/-- The frame of `[7, 8]` as the second message. -/
def secondFrame : Bytes := toLe 8 2 ++ List.replicate 8 0 ++ [7, 8]

/-- The second of two messages arrives first, and once more after a single byte: it is
    accepted, once, in its own place. -/
theorem swapped_frames_delivery :
    ((new ()).decAll .plain [secondFrame, [0], secondFrame]).2.filterMap Received.accepted =
      [[7, 8]] := by
  have ideal : Authentic .plain () [[5], [7, 8]] [secondFrame, [0], secondFrame] := by
    intro frame member n data opened
    obtain ⟨count, rfl⟩ := plain_open opened
    simp only [List.mem_cons, List.not_mem_nil, or_false] at member
    rcases member with rfl | rfl | rfl
    · exact ⟨1, rfl, by simp only [getNonce, ← count]; rfl⟩
    · exact absurd (congrArg List.length count) (by simp)
    · exact ⟨1, rfl, by simp only [getNonce, ← count]; rfl⟩
  have delivery := (stream_delivery .plain () [[5], [7, 8]] _ ⟨(), 2, 0⟩ rfl).1 _ ideal
  exact delivery.2.2.trans (by decide)

end Encrypt

end RemoteControl.Stream
