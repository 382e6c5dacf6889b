import Titlan.Foundation.Internet

/-! # Dialing a relay

A relay is named by a `ws` or `wss` URL. Requests go to the HTTP origin that `to_http` makes of it, which
the HTTP client reads by the URL standard; `subscribe` takes the URL apart by hand and opens its own TCP
and TLS connections. Both are compared by the endpoint they reach: the host, the port, and the host that
TLS checks. Which texts rustls takes as server names is a parameter, with the laws that are assumed of
it. -/

namespace Titlan.Client

open Foundation.Internet

/-! ## What the standard library reads -/

/-- `str::split_once`. -/
def splitOnce (sep : List Char) : List Char → Option (List Char × List Char)
  | [] => none
  | c :: cs =>
    match after sep (c :: cs) with
    | some rest => some ([], rest)
    | none => (splitOnce sep cs).map fun cut => (c :: cut.1, cut.2)

/-- `str::parse::<u16>`: a sign may lead the digits. -/
def parseU16 : List Char → Option ℕ
  | '+' :: digits => port digits
  | digits => port digits

/-- The addresses that stand for themselves in a `SocketAddr`. -/
def literalHost (host : List Char) : Option Host :=
  (ipv4 host).map .ipv4 <|> (bracketed host).map .ipv6

/-- `str::parse::<SocketAddr>`. -/
def parseSocketAddr (text : List Char) : Option (Host × ℕ) := do
  let (host, digits) ← cutLast ':' text
  return (← literalHost host, ← port digits)

/-- What `TcpStream::connect` connects to: a socket address, or else the host before the last colon, which
is given to the resolver. -/
def toSocketAddrs (text : List Char) : Option (Host × ℕ) :=
  parseSocketAddr text <|> do
    let (host, digits) ← cutLast ':' text
    return (.name (host.map Char.toLower), ← parseU16 digits)

/-! ## Server names -/

/-- What is assumed of `ServerName::try_from`. -/
structure ServerNameLaws (serverName : List Char → Option Host) : Prop where
  /-- Dotted decimal notation is read as the address. -/
  dotted : ∀ text address, ipv4 text = some address → serverName text = some (.ipv4 address)
  /-- What is no address is read as the name it spells, if at all. -/
  spelled : ∀ text host, ipv4 text = none → ipv6 text = none → serverName text = some host →
    host = .name (text.map Char.toLower)
  /-- A bracket stands in no server name. -/
  bracket : ∀ text, '[' ∈ text → serverName text = none

/-! ## The two transports -/

/-- The `host:port` of a relay URL's authority (`socket_authority`). -/
def socketAuthority (scheme authority : List Char) : List Char :=
  if ':' ∈ authority then authority
  else authority ++ (if scheme = "wss".toList then ":443".toList else ":80".toList)

/-- Where `subscribe` connects. It reaches no endpoint where the URL has no scheme, `TcpStream::connect`
finds no address, or `tls_connect` rejects the host. -/
def subscribeEndpoint (serverName : List Char → Option Host) (relayUrl : List Char) :
    Option Endpoint := do
  let (scheme, authority) ← splitOnce "://".toList relayUrl
  let host := authority.takeWhile (· ≠ ':')
  let (address, port) ← toSocketAddrs (socketAuthority scheme authority)
  if scheme = "wss".toList then
    return ⟨address, port, some (← serverName host)⟩
  else
    return ⟨address, port, none⟩

/-- The HTTP origin of a relay URL (`to_http`). -/
def toHttp (url : List Char) : List Char :=
  match after "ws://".toList url with
  | some rest => "http://".toList ++ rest
  | none =>
    match after "wss://".toList url with
    | some rest => "https://".toList ++ rest
    | none => url

/-! ## Relay URLs -/

/-- The schemes of relay URLs. -/
inductive Scheme
  | ws
  | wss
deriving DecidableEq, Repr

def Scheme.text : Scheme → List Char
  | .ws => "ws".toList
  | .wss => "wss".toList

/-- A relay URL: a scheme, a host and an optional port. -/
structure RelayUrl where
  scheme : Scheme
  authority : AuthorityText

namespace RelayUrl

def secure (url : RelayUrl) : Bool := url.scheme = .wss

def text (url : RelayUrl) : List Char :=
  url.scheme.text ++ "://".toList ++ url.authority.text

/-- The endpoint that a relay URL means. -/
def endpoint (url : RelayUrl) : Endpoint := url.authority.endpoint url.secure

end RelayUrl

variable (url : RelayUrl)

/-- **Requests go where the relay URL says.** -/
theorem urlEndpoint_toHttp : urlEndpoint (toHttp url.text) = some url.endpoint := by
  obtain ⟨scheme, authority⟩ := url
  cases scheme with
  | ws =>
    have horigin : toHttp (RelayUrl.text ⟨.ws, authority⟩) = "http://".toList ++ authority.text := by
      simp [toHttp, RelayUrl.text, Scheme.text, after]
    rw [horigin]
    simp [urlEndpoint, after, AuthorityText.authorityEndpoint_text, RelayUrl.endpoint, RelayUrl.secure]
  | wss =>
    have horigin : toHttp (RelayUrl.text ⟨.wss, authority⟩) = "https://".toList ++ authority.text := by
      simp [toHttp, RelayUrl.text, Scheme.text, after]
    rw [horigin]
    simp [urlEndpoint, after, AuthorityText.authorityEndpoint_text, RelayUrl.endpoint, RelayUrl.secure]

/-! ## Where `subscribe` connects -/

theorem parseU16_digits (port : PortText) : parseU16 port.digits = some port.value := by
  rw [parseU16.eq_def]
  split
  next digits hdigits =>
    have hplus := (number_eq_some (number_of_port port.isPort)).2 '+' (by simp [hdigits])
    exact absurd hplus (by decide)
  next => exact port.isPort

theorem ipv4_eq_none {text : List Char} (h : '[' ∈ text) : ipv4 text = none := by
  rw [Option.eq_none_iff_forall_ne_some]
  intro address haddress
  exact absurd (isHostChar_of_ipv4 haddress '[' h) (by decide)

/-- A name is not an address. -/
theorem ipv4_of_notNumber {text : List Char} (h : endsInNumber text = false) : ipv4 text = none := by
  rw [Option.eq_none_iff_forall_ne_some]
  intro address haddress
  rw [endsInNumber_of_ipv4 haddress] at h
  cases h

theorem literalHost_eq_none {text : List Char} (hchars : text.all isHostChar = true)
    (h : endsInNumber text = false) : literalHost text = none := by
  have h6 : bracketed text = none := by
    rw [bracketed.eq_def]
    split
    next rest => exact absurd (List.all_eq_true.mp hchars '[' (by simp)) (by decide)
    next => rfl
  rw [literalHost, ipv4_of_notNumber h, h6]
  rfl

/-- With its port written out, every host is found. -/
theorem toSocketAddrs_text (host : HostText) (port : PortText) :
    toSocketAddrs (host.text ++ ':' :: port.digits) = some (host.host, port.value) := by
  have hdigits : ':' ∉ port.digits := fun hmem => absurd (port.isHostChar_digits ':' hmem) (by decide)
  rw [toSocketAddrs, parseSocketAddr, cutLast_append _ hdigits]
  cases host with
  | name t isName notNumber =>
    simp [HostText.text, HostText.host, literalHost_eq_none isName.2 notNumber, parseU16_digits]
  | ipv4 t address isAddress =>
    simp [HostText.text, HostText.host, literalHost, isAddress, port.isPort]
  | ipv6 t groups isAddress =>
    have h4 : ipv4 ('[' :: (t ++ [']'])) = none := ipv4_eq_none (by simp)
    simp [HostText.text, HostText.host, literalHost, h4, bracketed, isAddress, port.isPort]

theorem port_eq_none {digits : List Char} (h : ']' ∈ digits) : port digits = none := by
  rw [Option.eq_none_iff_forall_ne_some]
  intro n hn
  exact absurd ((number_eq_some (number_of_port hn)).2 ']' h) (by decide)

theorem parseU16_eq_none {digits : List Char} (h : ']' ∈ digits) : parseU16 digits = none := by
  rw [parseU16.eq_def]
  split
  next rest => exact port_eq_none (by simpa using h)
  next => exact port_eq_none h

/-- Without one, an address in brackets is not: the text after its last colon is no port. -/
theorem toSocketAddrs_bracketed {t : List Char} {groups : List ℕ} (isAddress : ipv6 t = some groups) :
    toSocketAddrs ('[' :: (t ++ [']'])) = none := by
  have hcolon : ':' ∈ t.reverse := List.mem_reverse.mpr (colon_mem_of_ipv6 isAddress)
  obtain ⟨back, front, hrev, hback⟩ := List.eq_append_cons_of_mem hcolon
  have ht : '[' :: (t ++ [']']) = ('[' :: front.reverse) ++ ':' :: (back.reverse ++ [']']) := by
    rw [← List.reverse_reverse t, hrev]
    simp
  have hcut : ':' ∉ back.reverse ++ [']'] := by simpa using hback
  have hclose : ']' ∈ back.reverse ++ [']'] := by simp
  rw [toSocketAddrs, parseSocketAddr, ht, cutLast_append _ hcut]
  simp [port_eq_none hclose, parseU16_eq_none hclose]

variable {serverName : List Char → Option Host}

/-- A server name that is taken is the host of the URL. -/
theorem ServerNameLaws.eq_host (laws : ServerNameLaws serverName) {host : HostText}
    (h : host.isIpv6 = false) {taken : Host} (htaken : serverName host.text = some taken) :
    taken = host.host := by
  cases host with
  | name t isName notNumber =>
    refine laws.spelled t taken (ipv4_of_notNumber notNumber) ?_ htaken
    rw [Option.eq_none_iff_forall_ne_some]
    intro groups hgroups
    exact absurd (List.all_eq_true.mp isName.2 ':' (colon_mem_of_ipv6 hgroups)) (by decide)
  | ipv4 t address isAddress =>
    exact Option.some.inj (htaken.symm.trans (laws.dotted t address isAddress))
  | ipv6 _ _ _ => cases h

/-- The port that is dialed: the one given, or the default that `socket_authority` writes. -/
def RelayUrl.dialedPort (url : RelayUrl) : PortText :=
  url.authority.port.getD
    (match url.scheme with
      | .ws => ⟨"80".toList, 80, by decide⟩
      | .wss => ⟨"443".toList, 443, by decide⟩)

theorem splitOnce_text :
    splitOnce "://".toList url.text = some (url.scheme.text, url.authority.text) := by
  obtain ⟨scheme, authority⟩ := url
  cases scheme <;> simp [splitOnce, RelayUrl.text, Scheme.text, after]

theorem colon_notMem_text {host : HostText} (h : host.isIpv6 = false) : ':' ∉ host.text := fun hmem =>
  absurd (HostText.isHostChar_text h ':' hmem) (by decide)

theorem RelayUrl.endpoint_port : url.endpoint.port = url.dialedPort.value := by
  obtain ⟨scheme, host, port⟩ := url
  cases port with
  | none => cases scheme <;> rfl
  | some port => rfl

variable {url : RelayUrl}

/-- `socket_authority` adds the port of the scheme, unless the host is an address in brackets. -/
theorem socketAuthority_text
    (h : url.authority.host.isIpv6 = false ∨ url.authority.port.isSome = true) :
    socketAuthority url.scheme.text url.authority.text =
      url.authority.host.text ++ ':' :: url.dialedPort.digits := by
  obtain ⟨scheme, host, port⟩ := url
  cases port with
  | none =>
    have hplain : host.isIpv6 = false := h.resolve_right (by simp)
    have htext : AuthorityText.text ⟨host, none⟩ = host.text := by simp [AuthorityText.text]
    simp only [htext]
    rw [socketAuthority, if_neg (colon_notMem_text hplain)]
    cases scheme <;> rfl
  | some port => exact if_pos (by simp [AuthorityText.text])

/-- The host that `subscribe` gives to TLS. -/
theorem takeWhile_text {authority : AuthorityText} (h : authority.host.isIpv6 = false) :
    authority.text.takeWhile (· ≠ ':') = authority.host.text := by
  have hhost : ∀ c ∈ authority.host.text, decide (c ≠ ':') = true := by
    intro c hc
    rw [decide_eq_true_eq]
    rintro rfl
    exact colon_notMem_text h hc
  rw [AuthorityText.text, List.takeWhile_append_of_pos hhost]
  cases authority.port with
  | none => simp
  | some port => simp

theorem subscribeEndpoint_text : subscribeEndpoint serverName url.text =
      (toSocketAddrs (socketAuthority url.scheme.text url.authority.text)).bind fun reached =>
        if url.scheme = .wss then
          (serverName (url.authority.text.takeWhile (· ≠ ':'))).bind fun name =>
            some ⟨reached.1, reached.2, some name⟩
        else some ⟨reached.1, reached.2, none⟩ := by
  rw [subscribeEndpoint, splitOnce_text]
  obtain ⟨scheme, authority⟩ := url
  cases scheme with
  | ws => rfl
  | wss => rfl

/-- Names and IPv4 addresses are reached as the relay URL says, if TLS takes the host. -/
theorem subscribeEndpoint_of_plain (laws : ServerNameLaws serverName)
    (h : url.authority.host.isIpv6 = false) :
    subscribeEndpoint serverName url.text = some url.endpoint ↔
      (url.scheme = .wss → (serverName url.authority.host.text).isSome = true) := by
  have hport := url.endpoint_port
  rw [subscribeEndpoint_text, socketAuthority_text (.inl h), toSocketAddrs_text, takeWhile_text h,
    ← hport]
  obtain ⟨scheme, authority⟩ := url
  cases scheme with
  | ws => exact iff_of_true rfl (fun hwss => by cases hwss)
  | wss =>
    cases htaken : serverName authority.host.text with
    | none => simp
    | some taken =>
      cases laws.eq_host h htaken
      exact iff_of_true rfl fun _ => rfl

theorem subscribeEndpoint_of_ws (hws : url.scheme = .ws) (hgiven : url.authority.port.isSome = true) :
    subscribeEndpoint serverName url.text = some url.endpoint := by
  have hport := url.endpoint_port
  rw [subscribeEndpoint_text, socketAuthority_text (.inr hgiven), toSocketAddrs_text, ← hport]
  obtain ⟨scheme, authority⟩ := url
  cases hws
  rfl

/-- An IPv6 address without a port keeps none, and is not reached. -/
theorem subscribeEndpoint_of_ipv6_noPort (h : url.authority.host.isIpv6 = true)
    (hnone : url.authority.port = none) : subscribeEndpoint serverName url.text = none := by
  rw [subscribeEndpoint_text]
  obtain ⟨scheme, host, port⟩ := url
  cases host with
  | name _ _ _ => cases h
  | ipv4 _ _ _ => cases h
  | ipv6 t groups isAddress =>
    cases hnone
    have htext : AuthorityText.text ⟨.ipv6 t groups isAddress, none⟩ = '[' :: (t ++ [']']) := by
      simp [AuthorityText.text, HostText.text]
    simp only [htext]
    -- the colons of the address are taken for the colon of a port
    rw [socketAuthority, if_pos (by simp [colon_mem_of_ipv6 isAddress]), toSocketAddrs_bracketed isAddress]
    rfl

/-- The TLS host of an IPv6 address starts with a bracket, and is no server name. -/
theorem subscribeEndpoint_of_ipv6_wss (laws : ServerNameLaws serverName)
    (h : url.authority.host.isIpv6 = true) (hwss : url.scheme = .wss) :
    subscribeEndpoint serverName url.text = none := by
  have hhost : '[' ∈ url.authority.text.takeWhile (· ≠ ':') := by
    obtain ⟨scheme, host, port⟩ := url
    cases host with
    | name _ _ _ => cases h
    | ipv4 _ _ _ => cases h
    -- the cut at the first colon is inside the brackets
    | ipv6 t groups isAddress => simp [AuthorityText.text, HostText.text]
  rw [subscribeEndpoint_text, laws.bracket _ hhost]
  simp [hwss]

/-- **The two transports dial the same relay exactly when** the host is a name or an IPv4 address, which
for `wss` rustls takes as a server name, or the URL is a `ws` URL with a port. -/
theorem subscribeEndpoint_eq_urlEndpoint_iff (serverName : List Char → Option Host)
    (laws : ServerNameLaws serverName) (url : RelayUrl) :
    subscribeEndpoint serverName url.text = urlEndpoint (toHttp url.text) ↔
      url.authority.host.isIpv6 = false ∧
          (url.scheme = .wss → (serverName url.authority.host.text).isSome = true) ∨
        url.scheme = .ws ∧ url.authority.port.isSome = true := by
  rw [urlEndpoint_toHttp]
  cases h6 : url.authority.host.isIpv6 with
  | false =>
    rw [subscribeEndpoint_of_plain laws h6]
    refine ⟨fun htaken => .inl ⟨rfl, htaken⟩, ?_⟩
    rintro (⟨-, htaken⟩ | ⟨hws, -⟩) hwss
    · exact htaken hwss
    · cases hws.symm.trans hwss
  | true =>
    constructor
    · intro hsame
      cases hscheme : url.scheme with
      | wss =>
        rw [subscribeEndpoint_of_ipv6_wss laws h6 hscheme] at hsame
        cases hsame
      | ws =>
        refine .inr ⟨rfl, Option.isSome_iff_ne_none.mpr fun hnone => ?_⟩
        rw [subscribeEndpoint_of_ipv6_noPort h6 hnone] at hsame
        cases hsame
    · rintro (⟨hplain, -⟩ | ⟨hws, hgiven⟩)
      · cases hplain
      · exact subscribeEndpoint_of_ws hws hgiven

/-- A reading of server names under which every text without a bracket is an address or a name. -/
def anyServerName (text : List Char) : Option Host :=
  if '[' ∈ text then none
  else (ipv4 text).map .ipv4 <|> (ipv6 text).map .ipv6 <|> some (.name (text.map Char.toLower))

/-- A relay with a name, at the port of the scheme: both transports dial it, over TLS for the name. -/
theorem subscribeEndpoint_relayExample :
    subscribeEndpoint anyServerName "wss://relay.example".toList =
      urlEndpoint (toHttp "wss://relay.example".toList) :=
  (subscribeEndpoint_eq_urlEndpoint_iff anyServerName
    { dotted := fun text address h => by
        have hopen : '[' ∉ text := fun hmem => by simp [ipv4_eq_none hmem] at h
        simp [anyServerName, hopen, h]
      spelled := fun text host h4 h6 h => by
        simp only [anyServerName, h4, h6] at h
        split_ifs at h
        exact (Option.some.inj h).symm
      bracket := fun text h => if_pos h }
    ⟨.wss, .name "relay.example".toList (by decide) (by decide), none⟩).mpr (.inl (by decide))

/-- A relay on the loopback address of IPv6, at the port of the scheme. -/
def loopback : RelayUrl := ⟨.wss, .ipv6 "::1".toList [0, 0, 0, 0, 0, 0, 0, 1] (by decide), none⟩

/-- Requests reach the loopback address, and `subscribe` reaches nothing, whatever rustls takes as a server
name. -/
theorem subscribeEndpoint_loopback :
    loopback.text = "wss://[::1]".toList ∧
      urlEndpoint (toHttp loopback.text) =
        some ⟨.ipv6 [0, 0, 0, 0, 0, 0, 0, 1], 443, some (.ipv6 [0, 0, 0, 0, 0, 0, 0, 1])⟩ ∧
      ∀ serverName, subscribeEndpoint serverName loopback.text ≠ urlEndpoint (toHttp loopback.text) := by
  refine ⟨by decide, by decide, fun serverName => ?_⟩
  rw [subscribeEndpoint_of_ipv6_noPort rfl rfl, urlEndpoint_toHttp]
  exact (Option.some_ne_none _).symm

end Titlan.Client
