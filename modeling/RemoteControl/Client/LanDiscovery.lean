import Mathlib.Data.Finset.Insert
import RemoteControl.Runs

/-! # Discovery in the local network

`handle_received_peers` of `lan.rs` takes the answers to a discovery one by one into the list of the
peers that are known. A peer is a user at a machine: the list goes by id and user, the set of those
that have answered by the id alone.
-/

namespace RemoteControl.LanDiscovery

/-- `HashMap<String, String>`, by what it holds for an address. -/
abbrev IpMac := String → Option String

namespace IpMac

/-- `HashMap::extend`: what is added replaces what is there. -/
def extend (m other : IpMac) : IpMac := fun ip => (other ip).or (m ip)

def single (ip mac : String) : IpMac := fun ip' => if ip' = ip then some mac else none

end IpMac

structure DiscoveryPeer where
  id : String
  username : String
  hostname : String
  platform : String
  online : Bool
  ipMac : IpMac

namespace DiscoveryPeer

def isSamePeer (p other : DiscoveryPeer) : Bool := p.id = other.id && p.username = other.username

def key (p : DiscoveryPeer) : String × String := (p.id, p.username)

def offline (p : DiscoveryPeer) : DiscoveryPeer := { p with online := false }

end DiscoveryPeer

/-- A pong, and the address that it came from. -/
structure Answer where
  id : String
  username : String
  hostname : String
  platform : String
  ip : String
  mac : String

namespace Answer

def key (a : Answer) : String × String := (a.id, a.username)

/-- What `wait_response` sends on. -/
def peer (a : Answer) : DiscoveryPeer where
  id := a.id
  username := a.username
  hostname := a.hostname
  platform := a.platform
  online := true
  ipMac := .single a.ip a.mac

end Answer

/-- The variables of the loop. -/
structure Loop where
  peers : List DiscoveryPeer
  responseSet : Finset String := ∅

namespace Loop

def receive (s : Loop) (peer : DiscoveryPeer) : Loop :=
  let inResponseSet := decide (peer.id ∈ s.responseSet)
  let responseSet := insert peer.id s.responseSet
  match s.peers.find? (·.isSamePeer peer) with
  | some peer1 =>
      let peers := s.peers.eraseP (·.isSamePeer peer)
      let peer :=
        if inResponseSet then { peer with ipMac := peer.ipMac.extend peer1.ipMac, online := true } else peer
      { peers := peer :: peers, responseSet := responseSet }
  | none => { peers := peer :: s.peers, responseSet := responseSet }

end Loop

/-- The list that is stored in the end. -/
def handleReceivedPeers (peers : List DiscoveryPeer) (answers : List Answer) : List DiscoveryPeer :=
  ((answers.map Answer.peer).foldl Loop.receive { peers := peers.map DiscoveryPeer.offline }).peers

/-! ## Lists without two same peers -/

def Apart (peers : List DiscoveryPeer) : Prop := peers.Pairwise fun p q => p.isSamePeer q = false

/-- The first peer of an id and a user. -/
def known (peers : List DiscoveryPeer) (k : String × String) : Option DiscoveryPeer :=
  peers.find? (·.key = k)

section Lists

variable {peers : List DiscoveryPeer} {p q : DiscoveryPeer} {k : String × String}

theorem isSamePeer_iff : p.isSamePeer q = true ↔ p.key = q.key := by
  simp [DiscoveryPeer.isSamePeer, DiscoveryPeer.key]

theorem isSamePeer_eq_false_iff : p.isSamePeer q = false ↔ p.key ≠ q.key :=
  Bool.eq_false_iff.trans isSamePeer_iff.not

theorem find_isSamePeer (peers : List DiscoveryPeer) (p : DiscoveryPeer) :
    peers.find? (·.isSamePeer p) = known peers p.key := by
  unfold known
  congr
  funext q
  simp [DiscoveryPeer.isSamePeer, DiscoveryPeer.key]

theorem key_of_known (found : known peers k = some p) : p.key = k := by
  simpa using List.find?_some found

theorem mem_of_known (found : known peers k = some p) : p ∈ peers := List.mem_of_find?_eq_some found

theorem known_cons : known (p :: peers) k = if p.key = k then some p else known peers k := by
  unfold known
  rw [List.find?_cons]
  split <;> simp_all

theorem known_of_mem (apart : Apart peers) (inside : p ∈ peers) : known peers p.key = some p := by
  induction peers with
  | nil => cases inside
  | cons q rest ih =>
      obtain ⟨first, others⟩ := List.pairwise_cons.mp apart
      rw [known_cons]
      cases inside with
      | head => simp
      | tail _ inside =>
          have differ : q.key ≠ p.key := fun same =>
            Bool.false_ne_true ((first p inside).symm.trans (isSamePeer_iff.mpr same))
          rw [if_neg differ]
          exact ih others inside

theorem known_eraseP (other : p.key ≠ k) : known (peers.eraseP (·.isSamePeer p)) k = known peers k := by
  induction peers with
  | nil => rfl
  | cons q rest ih =>
      cases same : q.isSamePeer p with
      | true =>
          have differ : q.key ≠ k := isSamePeer_iff.mp same ▸ other
          simp [same, known_cons, differ]
      | false => simp [same, known_cons, ih]

/-- The peer that is taken out was the only one of its kind. -/
theorem differ_of_mem_eraseP (apart : Apart peers) (inside : q ∈ peers.eraseP (·.isSamePeer p)) :
    p.isSamePeer q = false := by
  induction peers with
  | nil => cases inside
  | cons first rest ih =>
      obtain ⟨others, apart'⟩ := List.pairwise_cons.mp apart
      cases same : first.isSamePeer p with
      | true =>
          simp only [List.eraseP_cons, same, cond_true] at inside
          have differ := isSamePeer_eq_false_iff.mp (others q inside)
          exact isSamePeer_eq_false_iff.mpr (isSamePeer_iff.mp same ▸ differ)
      | false =>
          simp only [List.eraseP_cons, same, cond_false] at inside
          cases inside with
          | head => exact isSamePeer_eq_false_iff.mpr (isSamePeer_eq_false_iff.mp same).symm
          | tail _ inside => exact ih apart' inside

theorem apart_receive (apart : Apart peers) (same : q.key = p.key) :
    Apart (q :: peers.eraseP (·.isSamePeer p)) := by
  refine List.pairwise_cons.mpr ⟨fun other inside => ?_, apart.sublist List.eraseP_sublist⟩
  have differ := isSamePeer_eq_false_iff.mp (differ_of_mem_eraseP apart inside)
  exact isSamePeer_eq_false_iff.mpr (same ▸ differ)

end Lists

/-- The answers of one peer. -/
def own (k : String × String) (answers : List Answer) : List Answer := answers.filter (·.key = k)

/-- The pairs of the answers, a later one winning for the same address. -/
def union (answers : List Answer) : IpMac :=
  answers.foldl (fun m a => m.extend (.single a.ip a.mac)) fun _ => none

/-- The same, an earlier one winning. -/
def earliest (answers : List Answer) : IpMac := fun ip => (answers.find? (·.ip = ip)).map Answer.mac

/-- The stored pairs that get into the round: those of a peer whose id has answered for another user
before. -/
def stale (peers : List DiscoveryPeer) (answers : List Answer) (k : String × String) : IpMac :=
  if (answers.takeWhile (·.key ≠ k)).any (·.id = k.1) then
    (known peers k).elim (fun _ => none) DiscoveryPeer.ipMac
  else fun _ => none

section Round

variable {peers : List DiscoveryPeer} {answers : List Answer} {a : Answer} {k : String × String}

theorem earliest_concat (answers : List Answer) (a : Answer) (ip : String) :
    earliest (answers ++ [a]) ip = (earliest answers ip).or (IpMac.single a.ip a.mac ip) := by
  unfold earliest IpMac.single
  rw [List.find?_append]
  cases answers.find? (·.ip = ip) with
  | some b => rfl
  | none => by_cases same : a.ip = ip <;> simp [same, eq_comm]

theorem own_concat_self : own a.key (answers ++ [a]) = own a.key answers ++ [a] := by
  simp [own]

theorem own_concat_of_ne (other : a.key ≠ k) : own k (answers ++ [a]) = own k answers := by
  simp [own, other]

theorem stale_concat_of_mem (answered : ∃ b ∈ answers, b.key = k) :
    stale peers (answers ++ [a]) k = stale peers answers k := by
  have stops : (answers ++ [a]).takeWhile (·.key ≠ k) = answers.takeWhile (·.key ≠ k) := by
    induction answers with
    | nil => simp at answered
    | cons b rest ih =>
        by_cases same : b.key = k
        · simp [same]
        · obtain ⟨c, inside, same'⟩ := answered
          have later : c ∈ rest := by
            cases inside with
            | head => exact absurd same' same
            | tail _ later => exact later
          have tail := ih ⟨c, later, same'⟩
          simp_all
  unfold stale
  rw [stops]

theorem takeWhile_of_unanswered (unanswered : ∀ b ∈ answers, b.key ≠ a.key) :
    (answers ++ [a]).takeWhile (·.key ≠ a.key) = answers := by
  rw [List.takeWhile_append_of_pos fun b inside => decide_eq_true (unanswered b inside)]
  simp

end Round

/-- What the loop knows after some answers. -/
structure Inv (peers : List DiscoveryPeer) (answers : List Answer) (s : Loop) : Prop where
  apart : Apart s.peers
  responses : ∀ id, id ∈ s.responseSet ↔ ∃ a ∈ answers, a.id = id
  unanswered : ∀ k, (∀ a ∈ answers, a.key ≠ k) → known s.peers k = (known peers k).map DiscoveryPeer.offline
  answered : ∀ k, (∃ a ∈ answers, a.key = k) → ∃ q, known s.peers k = some q ∧ q.online = true ∧
    ∀ ip, q.ipMac ip = (stale peers answers k ip).or (earliest (own k answers) ip)

theorem known_offline (peers : List DiscoveryPeer) (k : String × String) :
    known (peers.map DiscoveryPeer.offline) k = (known peers k).map DiscoveryPeer.offline := by
  induction peers with
  | nil => rfl
  | cons p rest ih =>
      rw [List.map_cons, known_cons, known_cons, ih]
      by_cases same : p.key = k
      · rw [if_pos same, if_pos (show p.offline.key = k from same)]
        rfl
      · rw [if_neg same, if_neg (show p.offline.key ≠ k from same)]

variable {peers : List DiscoveryPeer}

theorem inv_start (apart : Apart peers) :
    Inv peers [] { peers := peers.map DiscoveryPeer.offline } where
  apart := List.pairwise_map.mpr apart
  responses := by simp
  unanswered k _ := known_offline peers k
  answered := by simp

/-- What goes to the front of the list. -/
def merged (s : Loop) (peer : DiscoveryPeer) : DiscoveryPeer :=
  match known s.peers peer.key with
  | some peer1 =>
      if peer.id ∈ s.responseSet then { peer with ipMac := peer.ipMac.extend peer1.ipMac, online := true }
      else peer
  | none => peer

theorem receive_eq (s : Loop) (peer : DiscoveryPeer) : s.receive peer =
    { peers := merged s peer :: s.peers.eraseP (·.isSamePeer peer)
      responseSet := insert peer.id s.responseSet } := by
  unfold Loop.receive merged
  rw [← find_isSamePeer]
  cases found : s.peers.find? (·.isSamePeer peer) with
  | some peer1 => simp
  | none => simp [List.eraseP_of_forall_not (List.find?_eq_none.mp found)]

theorem key_merged (s : Loop) (peer : DiscoveryPeer) : (merged s peer).key = peer.key := by
  unfold merged
  split
  · split <;> rfl
  · rfl

theorem known_receive (s : Loop) (peer : DiscoveryPeer) (k : String × String) :
    known (s.receive peer).peers k = if peer.key = k then some (merged s peer) else known s.peers k := by
  rw [receive_eq, known_cons, key_merged]
  split
  · rfl
  · next other => exact known_eraseP other

section Step

variable {peers : List DiscoveryPeer} {answers : List Answer} {s : Loop}

/-- The pairs of a peer that has answered before. -/
theorem merged_again (inv : Inv peers answers s) {a : Answer} (again : ∃ b ∈ answers, b.key = a.key) :
    (merged s a.peer).online = true ∧ ∀ ip, (merged s a.peer).ipMac ip =
      (stale peers (answers ++ [a]) a.key ip).or (earliest (own a.key (answers ++ [a])) ip) := by
  obtain ⟨q, found, -, pairs⟩ := inv.answered a.key again
  have noted : a.peer.id ∈ s.responseSet := by
    obtain ⟨b, inside, same⟩ := again
    exact (inv.responses a.id).mpr ⟨b, inside, congrArg Prod.fst same⟩
  have found' : known s.peers a.peer.key = some q := found
  simp only [merged, found', if_pos noted, true_and]
  intro ip
  rw [stale_concat_of_mem again, own_concat_self, earliest_concat, ← Option.or_assoc, ← pairs]
  rfl

/-- The pairs of a peer that answers for the first time. -/
theorem merged_first (inv : Inv peers answers s) {a : Answer} (first : ∀ b ∈ answers, b.key ≠ a.key) :
    (merged s a.peer).online = true ∧ ∀ ip, (merged s a.peer).ipMac ip =
      (stale peers (answers ++ [a]) a.key ip).or (earliest (own a.key (answers ++ [a])) ip) := by
  have none_ : own a.key answers = [] := List.filter_eq_nil_iff.mpr (by simpa using first)
  have single (ip : String) : earliest (own a.key (answers ++ [a])) ip = IpMac.single a.ip a.mac ip := by
    rw [own_concat_self, none_, earliest_concat]
    rfl
  have noted : a.peer.id ∈ s.responseSet ↔ answers.any (·.id = a.key.1) = true := by
    simp only [List.any_eq_true, decide_eq_true_eq]
    exact inv.responses a.id
  have found : known s.peers a.peer.key = (known peers a.key).map DiscoveryPeer.offline :=
    inv.unanswered a.key first
  unfold stale
  rw [takeWhile_of_unanswered first]
  simp only [merged, found, single]
  cases known peers a.key with
  | none => simp [Answer.peer]
  | some p =>
      by_cases other : a.peer.id ∈ s.responseSet
      · simp only [Option.map_some, if_pos other, if_pos (noted.mp other)]
        exact ⟨trivial, fun ip => rfl⟩
      · simp only [Option.map_some, if_neg other, if_neg (noted.not.mp other)]
        exact ⟨rfl, fun ip => rfl⟩

theorem Inv.receive (inv : Inv peers answers s) (a : Answer) :
    Inv peers (answers ++ [a]) (s.receive a.peer) where
  apart := by
    rw [receive_eq]
    exact apart_receive inv.apart (key_merged s a.peer)
  responses id := by
    rw [receive_eq]
    simp only [Finset.mem_insert, inv.responses, List.mem_append, List.mem_singleton]
    constructor
    · rintro (rfl | ⟨b, inside, same⟩)
      · exact ⟨a, .inr rfl, rfl⟩
      · exact ⟨b, .inl inside, same⟩
    · rintro ⟨b, inside | rfl, same⟩
      · exact .inr ⟨b, inside, same⟩
      · exact .inl same.symm
  unanswered k silent := by
    have other : a.peer.key ≠ k := silent a (List.mem_append_right _ (.head _))
    rw [known_receive, if_neg other]
    exact inv.unanswered k fun b inside => silent b (List.mem_append_left _ inside)
  answered k answered := by
    rw [known_receive]
    by_cases here : a.key = k
    · subst here
      rw [if_pos (show a.peer.key = a.key from rfl)]
      refine ⟨merged s a.peer, rfl, ?_⟩
      by_cases again : ∃ b ∈ answers, b.key = a.key
      · exact merged_again inv again
      · exact merged_first inv fun b inside same => again ⟨b, inside, same⟩
    · rw [if_neg (show a.peer.key ≠ k from here)]
      have earlier : ∃ b ∈ answers, b.key = k := by
        obtain ⟨b, inside, same⟩ := answered
        rcases List.mem_append.mp inside with inside | inside
        · exact ⟨b, inside, same⟩
        · exact absurd (List.mem_singleton.mp inside ▸ same) here
      obtain ⟨q, found, online, pairs⟩ := inv.answered k earlier
      refine ⟨q, found, online, fun ip => ?_⟩
      rw [stale_concat_of_mem earlier, own_concat_of_ne here]
      exact pairs ip

end Step

theorem inv_handleReceivedPeers (apart : Apart peers) (answers : List Answer) :
    Inv peers answers ((answers.map Answer.peer).foldl Loop.receive
      { peers := peers.map DiscoveryPeer.offline }) := by
  induction answers using List.reverseRecOn with
  | nil => exact inv_start apart
  | append_singleton answers a ih =>
      rw [List.map_append, List.foldl_append]
      exact ih.receive a

/-- What a round makes of the list. -/
structure Merges (peers : List DiscoveryPeer) (answers : List Answer) (result : List DiscoveryPeer) :
    Prop where
  apart : Apart result
  stored : ∀ p ∈ peers, ∃ q ∈ result, q.isSamePeer p = true
  discovered : ∀ a ∈ answers, ∃ q ∈ result, q.isSamePeer a.peer = true
  online : ∀ q ∈ result, q.online = true ↔ ∃ a ∈ answers, a.peer.isSamePeer q = true
  pairs : ∀ q ∈ result, (∃ a ∈ answers, a.peer.isSamePeer q = true) → q.ipMac = union (own q.key answers)
  unchanged : ∀ p ∈ peers, (∀ a ∈ answers, a.peer.isSamePeer p = false) → p.offline ∈ result

/-- Stored pairs that get into the round are found again, and otherwise the first answer from an address
gives the same mac as the last. -/
structure Steady (peers : List DiscoveryPeer) (answers : List Answer) (k : String × String) : Prop where
  again : ∀ ip mac, stale peers answers k ip = some mac → union (own k answers) ip = some mac
  constant : ∀ ip, stale peers answers k ip = none →
    earliest (own k answers) ip = union (own k answers) ip

theorem steady_iff {answers : List Answer} {k : String × String} :
    Steady peers answers k ↔
      ∀ ip, (stale peers answers k ip).or (earliest (own k answers) ip) = union (own k answers) ip := by
  constructor
  · intro steady ip
    cases found : stale peers answers k ip with
    | some mac => exact (steady.again ip mac found).symm
    | none => exact steady.constant ip found
  · intro same
    refine ⟨fun ip mac found => ?_, fun ip found => ?_⟩
    · rw [← same ip, found, Option.some_or]
    · rw [← same ip, found, Option.none_or]

section End

variable {peers : List DiscoveryPeer} {answers : List Answer} {s : Loop}

theorem Inv.known_of_mem (inv : Inv peers answers s) {q : DiscoveryPeer} (inside : q ∈ s.peers)
    (answered : ∃ a ∈ answers, a.peer.isSamePeer q = true) : q.online = true ∧
      ∀ ip, q.ipMac ip = (stale peers answers q.key ip).or (earliest (own q.key answers) ip) := by
  obtain ⟨a, member, same⟩ := answered
  obtain ⟨q', found, online, pairs⟩ := inv.answered q.key ⟨a, member, isSamePeer_iff.mp same⟩
  obtain rfl := Option.some.inj ((LanDiscovery.known_of_mem inv.apart inside).symm.trans found)
  exact ⟨online, pairs⟩

/-- All but the pairs is as it should be. -/
theorem Inv.merges (inv : Inv peers answers s) (apart : Apart peers)
    (pairs : ∀ q ∈ s.peers, (∃ a ∈ answers, a.peer.isSamePeer q = true) →
      q.ipMac = union (own q.key answers)) : Merges peers answers s.peers where
  apart := inv.apart
  stored p inside := by
    by_cases answered : ∃ a ∈ answers, a.key = p.key
    · obtain ⟨q, found, -⟩ := inv.answered p.key answered
      exact ⟨q, mem_of_known found, isSamePeer_iff.mpr (key_of_known found)⟩
    · have found := inv.unanswered p.key fun a member same => answered ⟨a, member, same⟩
      rw [LanDiscovery.known_of_mem apart inside] at found
      exact ⟨_, mem_of_known found, isSamePeer_iff.mpr rfl⟩
  discovered a member := by
    obtain ⟨q, found, -⟩ := inv.answered a.key ⟨a, member, rfl⟩
    exact ⟨q, mem_of_known found, isSamePeer_iff.mpr (key_of_known found)⟩
  online q inside := by
    refine ⟨fun online => ?_, fun answered => (inv.known_of_mem inside answered).1⟩
    by_contra silent
    have found := inv.unanswered q.key fun a member same =>
      silent ⟨a, member, isSamePeer_iff.mpr same⟩
    rw [LanDiscovery.known_of_mem inv.apart inside] at found
    obtain ⟨p, -, rfl⟩ := Option.map_eq_some_iff.mp found.symm
    cases online
  pairs := pairs
  unchanged p inside silent := by
    have found := inv.unanswered p.key fun a member same =>
      isSamePeer_eq_false_iff.mp (silent a member) same
    rw [LanDiscovery.known_of_mem apart inside] at found
    exact mem_of_known found

end End

/-- A round merges the answers into the list exactly if the pairs of every peer are steady. -/
theorem merges_iff {peers : List DiscoveryPeer} (apart : Apart peers) (answers : List Answer) :
    Merges peers answers (handleReceivedPeers peers answers) ↔
      ∀ a ∈ answers, Steady peers answers a.key := by
  have inv := inv_handleReceivedPeers apart answers
  constructor
  · intro merges a member
    obtain ⟨q, found, -, pairs⟩ := inv.answered a.key ⟨a, member, rfl⟩
    have key := key_of_known found
    have whole := merges.pairs q (mem_of_known found) ⟨a, member, isSamePeer_iff.mpr key.symm⟩
    rw [steady_iff]
    intro ip
    rw [← pairs, whole, key]
  · intro steady
    refine inv.merges apart fun q inside answered => funext fun ip => ?_
    obtain ⟨a, member, same⟩ := answered
    have key : a.key = q.key := isSamePeer_iff.mp same
    rw [(inv.known_of_mem inside ⟨a, member, same⟩).2 ip]
    exact key ▸ steady_iff.mp (steady a member) ip

/-- A peer of the list that is known with other pairs, and answers once. -/
theorem merges_stored :
    Apart [⟨"1", "a", "h", "Linux", true, .single "10.0.0.1" "aa"⟩] ∧
      Merges [⟨"1", "a", "h", "Linux", true, .single "10.0.0.1" "aa"⟩]
        [⟨"1", "a", "h", "Linux", "10.0.0.2", "bb"⟩]
        (handleReceivedPeers [⟨"1", "a", "h", "Linux", true, .single "10.0.0.1" "aa"⟩]
          [⟨"1", "a", "h", "Linux", "10.0.0.2", "bb"⟩]) := by
  refine ⟨List.pairwise_singleton _ _, (merges_iff (List.pairwise_singleton _ _) _).mpr fun a member => ?_⟩
  obtain rfl := List.mem_singleton.mp member
  refine ⟨nofun, fun ip _ => ?_⟩
  by_cases same : ip = "10.0.0.2" <;>
    simp [earliest, union, own, IpMac.extend, IpMac.single, same, eq_comm]

/-- A machine changes its mac within a round, and the first one stays. -/
theorem mac_kept : ¬∀ (peers : List DiscoveryPeer) (answers : List Answer), Apart peers →
    Merges peers answers (handleReceivedPeers peers answers) := by
  intro all
  have merges := all [] [⟨"1", "a", "h", "Linux", "10.0.0.1", "aa"⟩, ⟨"1", "a", "h", "Linux", "10.0.0.1", "bb"⟩]
    .nil
  have pairs := congrFun (merges.pairs _ (.head _) ⟨_, .head _, rfl⟩) "10.0.0.1"
  exact absurd (Option.some.inj pairs) (by decide)

end RemoteControl.LanDiscovery
