import Mathlib.Data.List.Induction
import Mathlib.Data.List.TakeWhile
import RemoteControl.Runs

/-! # The TLS cache

For each server the process remembers which TLS library reached it, and whether that took
an unchecked certificate. The server is cut out of the URL by hand, as what stands between
the last `@` and the next `/` or `?`.

What a URL's server is, is given here by the generic syntax of RFC 3986: the authority
ends at the first `/`, `?` or `#`. The two agree until an `@` stands behind the authority.
-/

namespace RemoteControl.Tls

open Runs (exec)

inductive TlsType where
  | plain
  | nativeTls
  | rustls
  deriving DecidableEq

def isPlain (url : List Char) : Bool :=
  "ws://".toList.isPrefixOf url || "http://".toList.isPrefixOf url

/-- What follows the first `://`, the whole text where there is none -/
def afterScheme (url : List Char) : List Char :=
  (find url).getD url
where
  find : List Char → Option (List Char)
    | ':' :: '/' :: '/' :: rest => some rest
    | _ :: rest => find rest
    | [] => none

/-- What follows the last `@`, the whole text where there is none -/
def afterLastAt : List Char → List Char
  | [] => []
  | c :: rest => if '@' ∈ rest then afterLastAt rest else if c = '@' then rest else c :: rest

def getDomainAndPortFromUrl (url : List Char) : List Char :=
  (afterLastAt (afterScheme url)).takeWhile fun c => c ≠ '/' && c ≠ '?'

/-- `URL_TLS_TYPE` and `URL_TLS_DANGER_ACCEPT_INVALID_CERTS` -/
structure Cache where
  urlTlsType : List Char → Option TlsType
  urlTlsDangerAcceptInvalidCerts : List Char → Option Bool

namespace Cache

def empty : Cache := ⟨fun _ => none, fun _ => none⟩

def upsertTlsCache (cache : Cache) (url : List Char) (tlsType : TlsType) (danger : Bool) : Cache :=
  if isPlain url then cache
  else
    let domainPort := getDomainAndPortFromUrl url
    { urlTlsType := Function.update cache.urlTlsType domainPort (some tlsType)
      urlTlsDangerAcceptInvalidCerts :=
        Function.update cache.urlTlsDangerAcceptInvalidCerts domainPort (some danger) }

def resetTlsCache (_ : Cache) : Cache := empty

def getCachedTlsType (cache : Cache) (url : List Char) : Option TlsType :=
  if isPlain url then some .plain
  else cache.urlTlsType (getDomainAndPortFromUrl url)

/-- `allow` is what `allow_insecure_tls_fallback` says at the time. -/
def getCachedTlsAcceptInvalidCert (allow : Bool) (cache : Cache) (url : List Char) : Option Bool :=
  if !allow then some false
  else if isPlain url then some false
  else cache.urlTlsDangerAcceptInvalidCerts (getDomainAndPortFromUrl url)

end Cache

/-- What changes the cache. A lookup does not. -/
inductive Event where
  | upsert (url : List Char) (tlsType : TlsType) (danger : Bool)
  | reset

def Cache.step (cache : Cache) : Event → Cache
  | .upsert url tlsType danger => cache.upsertTlsCache url tlsType danger
  | .reset => cache.resetTlsCache

def inAuthority (c : Char) : Bool := c ≠ '/' && c ≠ '?' && c ≠ '#'

/-- What follows the scheme and `//` -/
def hierPart (url : List Char) : Option (List Char) :=
  match url.dropWhile fun c => c ≠ ':' && inAuthority c with
  | ':' :: '/' :: '/' :: rest => some rest
  | _ => none

/-- The authority without the user information -/
def hostPort (url : List Char) : Option (List Char) :=
  (hierPart url).map fun rest => afterLastAt (rest.takeWhile inAuthority)

/-- The URL names a server, and an `@` behind the authority, if there is one, is followed
    by that server again. -/
def Own (url : List Char) : Prop :=
  match hierPart url with
  | none => False
  | some rest =>
      let behind := rest.dropWhile inAuthority
      '@' ∈ behind → some ((afterLastAt behind).takeWhile inAuthority) = hostPort url

instance (url : List Char) : Decidable (Own url) := by
  unfold Own
  split <;> infer_instance

/-! ## The key and the server -/

variable {text : List Char} {events : List Event} {url : List Char}

theorem afterLastAt_of_not_mem (plain : '@' ∉ text) : afterLastAt text = text := by
  cases text with
  | nil => rfl
  | cons c rest =>
      have ⟨first, others⟩ := List.ne_and_not_mem_of_not_mem_cons plain
      simp [afterLastAt, others, Ne.symm first]

theorem afterLastAt_append (front : List Char) (marked : '@' ∈ text) :
    afterLastAt (front ++ text) = afterLastAt text := by
  induction front with
  | nil => rfl
  | cons c rest ih => simp [afterLastAt, marked, ih]

theorem afterLastAt_append_of_not_mem (front : List Char) (plain : '@' ∉ text) :
    afterLastAt (front ++ text) = afterLastAt front ++ text := by
  induction front with
  | nil => exact afterLastAt_of_not_mem plain
  | cons c rest ih =>
      simp only [List.cons_append, afterLastAt, List.mem_append, plain, or_false, ih]
      split
      · rfl
      · split <;> rfl

theorem mem_afterLastAt {c : Char} (member : c ∈ afterLastAt text) : c ∈ text := by
  induction text with
  | nil => exact member
  | cons d rest ih =>
      unfold afterLastAt at member
      split at member
      · exact List.mem_cons_of_mem d (ih member)
      · split at member
        · exact List.mem_cons_of_mem d member
        · exact member

theorem at_not_mem_afterLastAt (text : List Char) : '@' ∉ afterLastAt text := by
  induction text with
  | nil => exact List.not_mem_nil
  | cons c rest ih =>
      unfold afterLastAt
      split
      · exact ih
      · split
        case isTrue plain _ => exact plain
        case isFalse plain other => simp [plain, Ne.symm other]

theorem find_scheme {scheme : List Char} (plain : ':' ∉ scheme) (rest : List Char) :
    afterScheme.find (scheme ++ ':' :: '/' :: '/' :: rest) = some rest := by
  induction scheme with
  | nil => rfl
  | cons c others ih =>
      have ⟨first, later⟩ := List.ne_and_not_mem_of_not_mem_cons plain
      rw [List.cons_append, afterScheme.find]
      · exact ih later
      · intro _ colon _
        exact first colon.symm

/-- The code finds the end of the scheme where the generic syntax has it. -/
theorem afterScheme_eq {rest : List Char} (named : hierPart url = some rest) :
    afterScheme url = rest := by
  unfold hierPart at named
  split at named
  case h_1 rest' split_ =>
    cases named
    have plain : ':' ∉ url.takeWhile fun c => c ≠ ':' && inAuthority c := by
      intro member
      have given := List.mem_takeWhile_imp member
      simp at given
    have text := List.takeWhile_append_dropWhile (p := fun c => c ≠ ':' && inAuthority c) (l := url)
    rw [split_] at text
    unfold afterScheme
    rw [← text, find_scheme plain]
    rfl
  case h_2 => cases named

theorem at_not_mem_key (url : List Char) : '@' ∉ getDomainAndPortFromUrl url := fun member =>
  at_not_mem_afterLastAt _ (List.takeWhile_subset _ member)

theorem key_takeWhile (url : List Char) :
    (getDomainAndPortFromUrl url).takeWhile inAuthority =
      (afterLastAt (afterScheme url)).takeWhile inAuthority := by
  unfold getDomainAndPortFromUrl
  rw [List.takeWhile_takeWhile]
  congr 1
  funext c
  simp only [inAuthority]
  grind

theorem takeWhile_behind (rest : List Char) :
    (rest.dropWhile inAuthority).takeWhile inAuthority = [] := by
  induction rest with
  | nil => rfl
  | cons c others ih =>
      cases inside : inAuthority c with
      | true => simpa [inside] using ih
      | false => simp [inside]

/-- The key, up to a fragment, is the server for the URLs that are their own, and for
    no others. -/
theorem own_iff {rest : List Char} (named : hierPart url = some rest) :
    Own url ↔ some ((getDomainAndPortFromUrl url).takeWhile inAuthority) = hostPort url := by
  have parts := List.takeWhile_append_dropWhile (p := inAuthority) (l := rest)
  rw [key_takeWhile, afterScheme_eq named]
  unfold Own
  rw [named]
  by_cases marked : '@' ∈ rest.dropWhile inAuthority
  · have last := afterLastAt_append (rest.takeWhile inAuthority) marked
    rw [parts] at last
    rw [last]
    exact ⟨fun own => own marked, fun same _ => same⟩
  · have last := afterLastAt_append_of_not_mem (rest.takeWhile inAuthority) marked
    rw [parts] at last
    have inside : ∀ c ∈ afterLastAt (rest.takeWhile inAuthority), inAuthority c := fun c member =>
      List.mem_takeWhile_imp (mem_afterLastAt member)
    rw [last, List.takeWhile_append_of_pos inside, takeWhile_behind, List.append_nil]
    simp [hostPort, named, marked]

theorem hostPort_of_own (own : Own url) :
    hostPort url = some ((getDomainAndPortFromUrl url).takeWhile inAuthority) := by
  cases named : hierPart url with
  | none =>
      unfold Own at own
      rw [named] at own
      exact own.elim
  | some rest => exact ((own_iff named).mp own).symm

/-- A URL that is not its own shares its entry with a URL of another server. -/
theorem exists_other_of_not_own (foreign : ¬Own url) :
    ∃ other, isPlain other = false ∧ Own other ∧
      getDomainAndPortFromUrl other = getDomainAndPortFromUrl url ∧ hostPort other ≠ hostPort url := by
  let key := getDomainAndPortFromUrl url
  have plain : '@' ∉ key := at_not_mem_key url
  have named : hierPart ("https://".toList ++ key) = some key := rfl
  have same : getDomainAndPortFromUrl ("https://".toList ++ key) = key := by
    unfold getDomainAndPortFromUrl
    rw [afterScheme_eq named, afterLastAt_of_not_mem plain]
    simp only [key, getDomainAndPortFromUrl, List.takeWhile_takeWhile]
    simp
  have own : Own ("https://".toList ++ key) := by
    unfold Own
    rw [named]
    intro marked
    exact absurd (List.dropWhile_subset _ marked) plain
  refine ⟨"https://".toList ++ key, rfl, own, same, ?_⟩
  rw [hostPort_of_own own, same]
  intro eq
  cases found : hierPart url with
  | none => simp [hostPort, found] at eq
  | some rest => exact foreign ((own_iff found).mpr eq)

/-- An upsert of these events stored what a lookup may return, and no reset followed it. -/
def StoredBy (events : List Event) (meets : List Char → TlsType → Bool → Prop) : Prop :=
  ∃ before url tlsType danger after, events = before ++ .upsert url tlsType danger :: after ∧
    .reset ∉ after ∧ isPlain url = false ∧ meets url tlsType danger

theorem StoredBy.upsert {meets : List Char → TlsType → Bool → Prop} (stored : StoredBy events meets)
    (url : List Char) (tlsType : TlsType) (danger : Bool) :
    StoredBy (events ++ [.upsert url tlsType danger]) meets := by
  obtain ⟨before, url', tlsType', danger', after, eq, kept, notPlain, met⟩ := stored
  refine ⟨before, url', tlsType', danger', after ++ [.upsert url tlsType danger], ?_, ?_, notPlain, met⟩
  · rw [eq, List.append_assoc, List.cons_append]
  · simp [kept]

/-- What the two maps hold for a key comes from one upsert. -/
def Cache.Sourced (events : List Event) (cache : Cache) (key : List Char) : Prop :=
  (cache.urlTlsType key = none ∧ cache.urlTlsDangerAcceptInvalidCerts key = none) ∨
    StoredBy events fun url tlsType danger => getDomainAndPortFromUrl url = key ∧
      cache.urlTlsType key = some tlsType ∧ cache.urlTlsDangerAcceptInvalidCerts key = some danger

theorem Cache.Sourced.upsertTlsCache {cache : Cache} {key : List Char}
    (sourced : cache.Sourced events key) (url : List Char) (tlsType : TlsType) (danger : Bool) :
    (cache.upsertTlsCache url tlsType danger).Sourced (events ++ [.upsert url tlsType danger]) key := by
  unfold Cache.upsertTlsCache
  cases notPlain : isPlain url with
  | true =>
      cases sourced with
      | inl absent => exact .inl absent
      | inr stored => exact .inr (stored.upsert url tlsType danger)
  | false =>
      by_cases here : key = getDomainAndPortFromUrl url
      · subst here
        exact .inr ⟨events, url, tlsType, danger, [], rfl, List.not_mem_nil, notPlain, rfl,
          by simp, by simp⟩
      · unfold Cache.Sourced
        simp only [Bool.false_eq_true, if_false, Function.update_of_ne here]
        cases sourced with
        | inl absent => exact .inl absent
        | inr stored => exact .inr (stored.upsert url tlsType danger)

theorem sourced (events : List Event) (key : List Char) :
    (exec Cache.step .empty events).Sourced events key := by
  induction events using List.reverseRecOn with
  | nil => exact .inl ⟨rfl, rfl⟩
  | append_singleton earlier event ih =>
      rw [Runs.exec_append]
      cases event with
      | upsert url tlsType danger => exact ih.upsertTlsCache url tlsType danger
      | reset => exact .inl ⟨rfl, rfl⟩

/-- The URLs that get as far as a key are their own. -/
def Event.Own : Event → Prop
  | .upsert url _ _ => isPlain url = false → Tls.Own url
  | .reset => True

/-- What a lookup returns was stored for the server it asks about. -/
theorem lookups_keep_to_server (own : ∀ event ∈ events, event.Own) (ownUrl : Own url)
    (notPlain : isPlain url = false) : let cache := exec Cache.step .empty events
    (∀ tlsType, cache.getCachedTlsType url = some tlsType →
      StoredBy events fun other tlsType' _ => hostPort other = hostPort url ∧ tlsType' = tlsType) ∧
    ∀ danger, cache.getCachedTlsAcceptInvalidCert true url = some danger →
      StoredBy events fun other _ danger' => hostPort other = hostPort url ∧ danger' = danger := by
  intro cache
  have same : ∀ before after other tlsType danger,
      events = before ++ .upsert other tlsType danger :: after → isPlain other = false →
      getDomainAndPortFromUrl other = getDomainAndPortFromUrl url → hostPort other = hostPort url := by
    intro before after other tlsType danger eq otherPlain key
    have ownOther : Own other := own (.upsert other tlsType danger) (by simp [eq]) otherPlain
    rw [hostPort_of_own ownOther, hostPort_of_own ownUrl, key]
  unfold Cache.getCachedTlsType Cache.getCachedTlsAcceptInvalidCert
  simp only [notPlain, Bool.not_true, Bool.false_eq_true, if_false]
  cases sourced events (getDomainAndPortFromUrl url) with
  | inl absent =>
      constructor
      · intro tlsType found
        cases absent.1.symm.trans found
      · intro danger found
        cases absent.2.symm.trans found
  | inr stored =>
      obtain ⟨before, other, tlsType, danger, after, eq, kept, otherPlain, key, type, accept⟩ := stored
      have server := same before after other tlsType danger eq otherPlain key
      constructor
      · intro tlsType' found
        exact ⟨before, other, tlsType, danger, after, eq, kept, otherPlain, server,
          Option.some.inj (type.symm.trans found)⟩
      · intro danger' found
        exact ⟨before, other, tlsType, danger, after, eq, kept, otherPlain, server,
          Option.some.inj (accept.symm.trans found)⟩

/-- What is stored for a URL that is not its own is returned for another server. -/
theorem read_by_other (foreign : ¬Own url) (notPlain : isPlain url = false) (tlsType : TlsType)
    (danger : Bool) :
    ∃ other, isPlain other = false ∧ Own other ∧ hostPort other ≠ hostPort url ∧
      (exec Cache.step .empty [.upsert url tlsType danger]).getCachedTlsType other = some tlsType := by
  obtain ⟨other, otherPlain, own, key, server⟩ := exists_other_of_not_own foreign
  refine ⟨other, otherPlain, own, server, ?_⟩
  simp [Cache.step, Cache.upsertTlsCache, Cache.getCachedTlsType, notPlain, otherPlain, key]

end RemoteControl.Tls
