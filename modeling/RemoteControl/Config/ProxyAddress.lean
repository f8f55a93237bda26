import RemoteControl.Base64
import RemoteControl.Config.HostPort
import RemoteControl.Utf8

/-! # The address of a proxy and the target behind it

`proxy.rs` keeps the host and the port of a proxy URL in one text, and each of its functions takes that
text apart by itself. The URL as the `url` crate has read it is taken as given, and so is the resolution of
names.
-/

namespace RemoteControl.ProxyAddress

open CustomServers (Text)
open HostPort (Host Ipv4 Ipv6 decimal)

/-- `std::net::IpAddr` in the spelling of the standard library. -/
inductive IpAddr where
  | v4 (address : Ipv4)
  | v6 (address : Ipv6)

def IpAddr.text : IpAddr → Text
  | .v4 address => address.text
  | .v6 address => address.text

structure SocketAddr where
  ip : IpAddr
  port : UInt16

def portText (port : UInt16) : Text := decimal port.toNat

/-- `format!("{}", addr)` -/
def SocketAddr.text (addr : SocketAddr) : Text :=
  match addr.ip with
  | .v4 address => address.text ++ ':' :: portText addr.port
  | .v6 address => '[' :: address.text ++ "]:".toList ++ portText addr.port

/-- `parse::<u16>` -/
def parseU16 (text : Text) : Option UInt16 :=
  let digits :=
    match text with
    | '+' :: rest => rest
    | _ => text
  if digits ≠ [] ∧ digits.all Char.isDigit then
    let n := Nat.ofDigitChars 10 digits 0
    if n < 2 ^ 16 then some (UInt16.ofNat n) else none
  else none

/-- `to_socket_addrs` of a host and a port, `none` where it fails. -/
abbrev Lookup := Text → UInt16 → Option (List SocketAddr)

/-- A URL with a host, as it has been read. -/
structure Url where
  scheme : Text
  username : Text
  password : Option Text
  host : Host
  /-- There is none where it is the one of the scheme. -/
  port : Option UInt16
  /-- `Url::socket_addrs` with 1080 as the port of `socks5` -/
  socketAddrs : Option (List SocketAddr)

/-- `url[Position::BeforeHost..Position::AfterPort]` -/
def Url.hostAndPort (url : Url) : Text :=
  match url.port with
  | some port => url.host.bracketed ++ ':' :: portText port
  | none => url.host.bracketed

inductive ProxyError where
  | ioError
  | urlBadScheme (scheme : Text)
  | urlParseScheme
  | addressResolutionFailed (host : Text)

structure Auth where
  userName : Text
  password : Text

inductive ProxyScheme where
  | http (auth : Option Auth) (host : Text)
  | https (auth : Option Auth) (host : Text)
  | socks5 (addr : SocketAddr) (auth : Option Auth) (remoteDns : Bool)

/-- `str::split_once` -/
def splitOnce (sign : Char) (text : Text) : Option (Text × Text) :=
  if sign ∈ text then some (text.takeWhile (· ≠ sign), (text.dropWhile (· ≠ sign)).tail) else none

namespace ProxyScheme

def maybeAuth : ProxyScheme → Option Auth
  | http auth _ | https auth _ | socks5 _ auth _ => auth

def setBasicAuth (userName password : Text) : ProxyScheme → ProxyScheme
  | http _ host => http (some ⟨userName, password⟩) host
  | https _ host => https (some ⟨userName, password⟩) host
  | socks5 addr _ remoteDns => socks5 addr (some ⟨userName, password⟩) remoteDns

def ofUrl (url : Url) : Except ProxyError ProxyScheme :=
  if url.scheme = "http".toList then .ok (http none url.hostAndPort)
  else if url.scheme = "https".toList then .ok (https none url.hostAndPort)
  else if url.scheme = "socks5".toList then
    match url.socketAddrs with
    | some (addr :: _) => .ok (socks5 addr none false)
    | some [] | none => .error .urlParseScheme
  else .error (.urlBadScheme url.scheme)

def parse (url : Url) : Except ProxyError ProxyScheme :=
  (ofUrl url).map fun scheme =>
    match url.password with
    | some pwd => scheme.setBasicAuth url.username pwd
    | none => scheme

/-- The first address of a look-up. -/
def firstAddr (host : Text) : Option (List SocketAddr) → Except ProxyError SocketAddr
  | some (addr :: _) => .ok addr
  | some [] => .error (.addressResolutionFailed host)
  | none => .error .ioError

def resolveHost (lookup : Lookup) (host : Text) (defaultPort : UInt16) : Except ProxyError SocketAddr :=
  let (hostStr, port) :=
    match splitOnce ':' host with
    | some (h, p) => (h, parseU16 p)
    | none => (host, none)
  firstAddr host (lookup hostStr (port.getD defaultPort))

def socketAddrs (lookup : Lookup) : ProxyScheme → Except ProxyError SocketAddr
  | http _ host => resolveHost lookup host 80
  | https _ host => resolveHost lookup host 443
  | socks5 addr _ _ => .ok addr

def getDomain : ProxyScheme → Except ProxyError Text
  | http _ host | https _ host =>
      match (host.splitOn ':').head? with
      | some domain => .ok domain
      | none => .error (.addressResolutionFailed host)
  | socks5 addr _ _ => .ok addr.ip.text

def appendDefaultPort (host : Text) (defaultPort : UInt16) : Text :=
  if ':' ∈ host then host else host ++ ':' :: portText defaultPort

def getHostAndPort : ProxyScheme → Except ProxyError Text
  | http _ host => .ok (appendDefaultPort host 80)
  | https _ host => .ok (appendDefaultPort host 443)
  | socks5 addr _ _ => .ok addr.text

end ProxyScheme

def Auth.getBasicAuthorization (auth : Auth) : Text :=
  Utf8.ofAscii (Base64.encode (Utf8.encode (auth.userName ++ ':' :: auth.password)))

def Auth.getProxyAuthorization (auth : Auth) : Text :=
  "Proxy-Authorization: Basic ".toList ++ auth.getBasicAuthorization ++ "\r\n".toList

/-- `tokio_socks::TargetAddr` -/
inductive TargetAddr where
  | ip (addr : SocketAddr)
  | domain (name : Text) (port : UInt16)

def getDomainAndPort : TargetAddr → Text × UInt16
  | .ip addr => (addr.ip.text, addr.port)
  | .domain name port => (name, port)

/-- The first line and the `Host` header of a request. -/
def connectLines (authority : Text) : Text :=
  "CONNECT ".toList ++ authority ++ " HTTP/1.1\r\nHost: ".toList ++ authority ++ "\r\n".toList

def makeRequest (scheme : ProxyScheme) (host : Text) (port : UInt16) : Text :=
  let request := connectLines (host ++ ':' :: portText port)
  let request :=
    match scheme.maybeAuth with
    | some auth => request ++ auth.getProxyAuthorization
    | none => request
  request ++ "\r\n".toList

/-- The request that `http_connect` writes. -/
def connectRequest (scheme : ProxyScheme) (target : TargetAddr) : Text :=
  let (domain, port) := getDomainAndPort target
  makeRequest scheme domain port

/-! ## Taking the text apart -/

section Texts

variable {text h rest : Text} {sign : Char}

theorem parseU16_portText (port : UInt16) : parseU16 (portText port) = some port := by
  have small : port.toNat < 2 ^ 16 := port.toNat_lt
  have letters : ∀ a ∈ Nat.toDigits 10 port.toNat, a.isDigit = true := fun a inside =>
    Nat.isDigit_of_mem_toDigits (by decide) (by decide) inside
  have unsigned : parseU16 (Nat.toDigits 10 port.toNat) =
      if Nat.ofDigitChars 10 (Nat.toDigits 10 port.toNat) 0 < 2 ^ 16 then
        some (UInt16.ofNat (Nat.ofDigitChars 10 (Nat.toDigits 10 port.toNat) 0)) else none := by
    obtain ⟨first, rest, digits⟩ := List.exists_cons_of_ne_nil (@Nat.toDigits_ne_nil port.toNat 10)
    have digit := letters first (digits ▸ .head _)
    rw [digits] at letters ⊢
    unfold parseU16
    split
    · next same => exact absurd ((List.cons.inj same).1 ▸ digit) (by decide)
    · simp [List.all_eq_true.mpr letters]
  show parseU16 (Nat.toDigits 10 port.toNat) = some port
  rw [unsigned, Nat.ofDigitChars_ten_toDigits, if_pos small, UInt16.ofNat_toNat]

theorem splitOnce_of_not_mem (absent : sign ∉ text) : splitOnce sign text = none := if_neg absent

theorem all_ne (absent : sign ∉ h) : ∀ a ∈ h, decide (a ≠ sign) = true := fun _ inside =>
  decide_eq_true fun same => absent (same ▸ inside)

theorem takeWhile_plain (absent : sign ∉ h) : h.takeWhile (· ≠ sign) = h := by
  have whole := @List.takeWhile_append_of_pos _ _ h [] (all_ne absent)
  simpa using whole

theorem takeWhile_of_not_mem (absent : sign ∉ h) : (h ++ sign :: rest).takeWhile (· ≠ sign) = h := by
  rw [List.takeWhile_append_of_pos (all_ne absent)]
  simp

theorem splitOnce_append (absent : sign ∉ h) : splitOnce sign (h ++ sign :: rest) = some (h, rest) := by
  unfold splitOnce
  rw [if_pos (List.mem_append_right _ (.head _)), takeWhile_of_not_mem absent,
    List.dropWhile_append_of_pos (all_ne absent)]
  simp

theorem head_splitOn (sign : Char) (text : Text) :
    (text.splitOn sign).head? = some (text.takeWhile (· ≠ sign)) := by
  unfold List.splitOn
  induction text with
  | nil => rfl
  | cons c rest ih =>
      rw [List.splitOnP_cons_eq_if_modifyHead]
      by_cases same : c = sign
      · simp [same]
      · cases pieces : rest.splitOnP (· == sign) with
        | nil => rw [pieces] at ih; cases ih
        | cons first more =>
            rw [pieces] at ih
            simp_all

theorem sign_not_mem_takeWhile : sign ∉ text.takeWhile (· ≠ sign) := fun inside => by
  have differs := List.all_eq_true.mp List.all_takeWhile sign inside
  simp at differs

end Texts

/-- `http://` or `https://` with a host, and a port where it is not the one of the scheme. -/
def httpUrl (https : Bool) (username : Text) (password : Option Text) (host : Host) (port : Option UInt16) :
    Url where
  scheme := if https then "https".toList else "http".toList
  username := username
  password := password
  host := host
  port := port
  socketAddrs := none

def defaultPort (https : Bool) : UInt16 := if https then 443 else 80

/-- A text for a host, with or without the brackets. -/
def Names (host : Host) (h : Text) : Prop := h = host.bracketed ∨ h = host.alone

/-- What the functions of the scheme make of the URL. -/
structure Reads (https : Bool) (host : Host) (port : Option UInt16) (scheme : ProxyScheme) : Prop where
  resolved : ∃ h whole, Names host h ∧ ∀ lookup, scheme.socketAddrs lookup =
    ProxyScheme.firstAddr whole (lookup h (port.getD (defaultPort https)))
  domain : ∃ h, Names host h ∧ scheme.getDomain = .ok h
  hostAndPort : scheme.getHostAndPort =
    .ok (host.bracketed ++ ':' :: portText (port.getD (defaultPort https)))

def TargetAddr.authority : TargetAddr → Text
  | .ip addr => addr.text
  | .domain name port => name ++ ':' :: portText port

/-- The request begins with the target. -/
def Asks (target : TargetAddr) (request : Text) : Prop :=
  ∃ rest, request = connectLines target.authority ++ rest

def IsIpv6 : Host → Prop
  | .name _ _ _ => False
  | .ipv6 _ => True

def TargetAddr.IsIpv6 : TargetAddr → Prop
  | .ip ⟨.v6 _, _⟩ => True
  | _ => False

section Schemes

variable {https : Bool} {username : Text} {password : Option Text} {host : Host} {port : Option UInt16}
  {auth : Option Auth}

/-- The scheme that such a URL is read as. -/
def scheme (https : Bool) (auth : Option Auth) (host : Text) : ProxyScheme :=
  if https then .https auth host else .http auth host

theorem parse_httpUrl : ProxyScheme.parse (httpUrl https username password host port) =
    .ok (scheme https (password.map fun pwd => ⟨username, pwd⟩)
      (httpUrl https username password host port).hostAndPort) := by
  cases https <;> cases password <;> rfl

theorem socketAddrs_scheme (lookup : Lookup) (h : Text) :
    (scheme https auth h).socketAddrs lookup = ProxyScheme.resolveHost lookup h (defaultPort https) := by
  cases https <;> rfl

theorem getDomain_scheme (h : Text) : (scheme https auth h).getDomain = .ok (h.takeWhile (· ≠ ':')) := by
  cases https <;> simp only [scheme, ProxyScheme.getDomain, head_splitOn, if_true, Bool.false_eq_true, if_false]

theorem getHostAndPort_scheme (h : Text) :
    (scheme https auth h).getHostAndPort = .ok (ProxyScheme.appendDefaultPort h (defaultPort https)) := by
  cases https <;> rfl

theorem colon_mem_of_names {address : Ipv6} {h : Text} (names : Names (.ipv6 address) h) : ':' ∈ h := by
  have colon : ':' ∈ address.text :=
    List.count_pos_iff.mp (Nat.lt_of_lt_of_le (by decide) address.two_le_count)
  rcases names with rfl | rfl
  · exact List.mem_cons_of_mem _ (List.mem_append_left _ colon)
  · exact colon

/-- A name without a colon is read alike by all functions. -/
theorem reads_name (text : Text) (some_ : text ≠ []) (plain : ':' ∉ text) :
    Reads https (.name text some_ plain) port
      (scheme https auth (httpUrl https username password (.name text some_ plain) port).hostAndPort) := by
  cases port with
  | some port =>
      have whole : (httpUrl https username password (.name text some_ plain) (some port)).hostAndPort =
          text ++ ':' :: portText port := rfl
      have colon : ':' ∈ text ++ ':' :: portText port := List.mem_append_right _ (.head _)
      rw [whole]
      refine ⟨⟨text, text ++ ':' :: portText port, .inl rfl, fun lookup => ?_⟩, ⟨text, .inl rfl, ?_⟩, ?_⟩
      · simp only [socketAddrs_scheme, ProxyScheme.resolveHost, splitOnce_append plain, parseU16_portText,
          Option.getD_some]
      · rw [getDomain_scheme, takeWhile_of_not_mem plain]
      · rw [getHostAndPort_scheme, ProxyScheme.appendDefaultPort, if_pos colon]
        rfl
  | none =>
      have whole : (httpUrl https username password (.name text some_ plain) none).hostAndPort = text := rfl
      rw [whole]
      refine ⟨⟨text, text, .inl rfl, fun lookup => ?_⟩, ⟨text, .inl rfl, ?_⟩, ?_⟩
      · simp only [socketAddrs_scheme, ProxyScheme.resolveHost, splitOnce_of_not_mem plain]
      · rw [getDomain_scheme, takeWhile_plain plain]
      · rw [getHostAndPort_scheme, ProxyScheme.appendDefaultPort, if_neg plain]
        rfl

theorem reads_iff : Reads https host port
    (scheme https auth (httpUrl https username password host port).hostAndPort) ↔ ¬IsIpv6 host := by
  cases host with
  | name text some_ plain => exact iff_of_true (reads_name text some_ plain) id
  | ipv6 address =>
      refine iff_of_false (fun reads => ?_) fun other => other trivial
      obtain ⟨h, names, domain⟩ := reads.domain
      rw [getDomain_scheme] at domain
      obtain rfl := Except.ok.inj domain
      exact sign_not_mem_takeWhile (colon_mem_of_names names)

end Schemes

theorem makeRequest_eq (scheme : ProxyScheme) (host : Text) (port : UInt16) :
    ∃ rest, makeRequest scheme host port = connectLines (host ++ ':' :: portText port) ++ rest := by
  unfold makeRequest
  cases scheme.maybeAuth with
  | none => exact ⟨_, rfl⟩
  | some auth => exact ⟨_, List.append_assoc _ _ _⟩

theorem connectLines_append (authority rest : Text) : ∃ more,
    connectLines authority ++ rest = "CONNECT ".toList ++ (authority ++ more) := by
  unfold connectLines
  exact ⟨_, by simp only [List.append_assoc]; rfl⟩

/-- Requests that are the same have targets that begin alike. -/
theorem authority_of_connectLines {a b rest rest' : Text}
    (same : connectLines a ++ rest = connectLines b ++ rest') : ∃ more more', a ++ more = b ++ more' := by
  obtain ⟨more, lines⟩ := connectLines_append a rest
  obtain ⟨more', lines'⟩ := connectLines_append b rest'
  rw [lines, lines'] at same
  exact ⟨more, more', List.append_cancel_left same⟩

/-- An address with colons does not begin with a bracket. -/
theorem head_text (address : Ipv6) : address.text.head? ≠ some '[' := by
  intro bracket
  have inside := List.mem_of_head? bracket
  rcases address.letters inside with hex | colon | dot
  · exact absurd hex (by decide)
  · exact absurd colon (by decide)
  · exact absurd dot (by decide)

theorem asks_iff (scheme : ProxyScheme) (target : TargetAddr) :
    Asks target (connectRequest scheme target) ↔ ¬target.IsIpv6 := by
  match target with
  | .domain name port => exact iff_of_true (makeRequest_eq scheme name port) id
  | .ip ⟨.v4 address, port⟩ => exact iff_of_true (makeRequest_eq scheme address.text port) id
  | .ip ⟨.v6 address, port⟩ =>
      refine iff_of_false (fun asks => ?_) fun other => other trivial
      obtain ⟨rest, asks⟩ := asks
      obtain ⟨rest', request⟩ := makeRequest_eq scheme address.text port
      obtain ⟨more, more', same⟩ := authority_of_connectLines (request.symm.trans asks)
      have colon : address.text ≠ [] := fun empty => by
        have two := address.two_le_count
        rw [empty] at two
        exact absurd two (by decide)
      obtain ⟨first, others, text⟩ := List.exists_cons_of_ne_nil colon
      have bracket := head_text address
      rw [text] at same bracket
      exact bracket (congrArg some (List.cons.inj same).1)

/-- The proxy and the target are read consistently exactly if neither is an IPv6 address. -/
theorem consistent_iff (https : Bool) (username : Text) (password : Option Text) (host : Host)
    (port : Option UInt16) (target : TargetAddr) :
    (∃ scheme, ProxyScheme.parse (httpUrl https username password host port) = .ok scheme ∧
      Reads https host port scheme ∧ Asks target (connectRequest scheme target)) ↔
      ¬IsIpv6 host ∧ ¬target.IsIpv6 := by
  constructor
  · rintro ⟨_, parsed, reads, asks⟩
    obtain rfl := Except.ok.inj (parse_httpUrl.symm.trans parsed)
    exact ⟨reads_iff.mp reads, (asks_iff _ target).mp asks⟩
  · rintro ⟨plain, plain'⟩
    exact ⟨_, parse_httpUrl, reads_iff.mpr plain, (asks_iff _ target).mpr plain'⟩

/-- `http://[::1]:8080` is looked up as `[`. -/
theorem bracket_looked_up : ¬∀ (https : Bool) (username : Text) (password : Option Text) (host : Host)
    (port : Option UInt16) (target : TargetAddr),
    ∃ scheme, ProxyScheme.parse (httpUrl https username password host port) = .ok scheme ∧
      Reads https host port scheme ∧ Asks target (connectRequest scheme target) := by
  intro all
  obtain ⟨_, parsed, reads, -⟩ := all false [] none
    (.ipv6 ⟨[], some [⟨['1'], by decide⟩], none, by decide⟩) (some 8080) (.domain ['a'] 80)
  obtain rfl := Except.ok.inj parsed
  obtain ⟨h, names, domain⟩ := reads.domain
  have bracket : h = ['['] := (Except.ok.inj domain).symm
  rcases names with rfl | rfl
  · exact absurd bracket (by decide)
  · exact absurd bracket (by decide)

end RemoteControl.ProxyAddress
