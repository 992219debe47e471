import FogHttp.Core.Origin
import FogHttp.Proxy.BasicAuth
import FogHttp.Proxy.NoProxy
import FogHttp.Redaction.Noninterference

/-!
# Proxy URLs and target URLs

Python reads two kinds of URLs on its own: the URL of a proxy, and the URL of a request whose
proxy it looks for.  It reads both with `urlsplit` and the attributes of its result.

* `hostinfo`, `hostname` and `netlocPort` are these attributes.
* `ProxyUrl.parse` accepts a proxy and takes the credentials out of its URL, and
  `ProxyTarget.parse` reads the scheme, the host and the port of a target.
* `HttpUrl.Written` is what the `url` crate says of a URL that it has parsed.
  `parse_asStr` reads such a URL back: Python finds the target that Rust connects to.
-/

namespace FogHttp.Proxy

open Lib
open Redaction (SplitResult UrlText isNetlocChar redactedValue splitTail urlsplit urlunsplit)

/-! ## The attributes of a netloc -/

/-- What Python takes from its own library while it reads a URL. -/
structure UrlReader where
  tables : StrTables
  /-- The checks of `urlsplit` on a netloc. -/
  acceptsNetloc : Text → Bool

/-- The text behind the userinfo. -/
def hostPart (netloc : Text) : Text := ((rsplitOnce '@' netloc).map (·.2)).getD netloc

/-- `_hostinfo`: the host and the text of the port. -/
def hostinfo (netloc : Text) : Text × Option Text :=
  let (host, port) :=
    match splitOnce '[' (hostPart netloc) with
    | some (_, bracketed) =>
        let (host, rest) := splitTail ']' bracketed
        (host, (splitTail ':' rest).2)
    | none => splitTail ':' (hostPart netloc)
  (host, if port = [] then none else some port)

/-- `hostname`.  The zone of an address keeps its case. -/
def hostname (tables : StrTables) (netloc : Text) : Option Text :=
  let host := (hostinfo netloc).1
  if host = [] then none
  else
    match splitOnce '%' host with
    | some (address, zone) => some (tables.lower address ++ '%' :: zone)
    | none => some (tables.lower host)

/-- `port`.  The outer `none` is its `ValueError`. -/
def netlocPort (netloc : Text) : Option (Option Nat) :=
  match (hostinfo netloc).2 with
  | none => some none
  | some port =>
      if port.all Char.isDigit && decide (port.length ≤ intMaxStrDigits) then
        let value := Nat.ofDigitChars 10 port 0
        if value ≤ maxPort then some (some value) else none
      else none

/-! ## Checked parts -/

/-- What the functions of the package raise. -/
inductive UrlError where
  | valueError (message : Text)
  | keyError (key : Text)
deriving DecidableEq, Repr

def proxyUrlHostRequiredReason : Text := "must include a host"

def proxyUrlInvalidReason : Text := "is invalid"

def proxyUrlPortInvalidReason : Text := "port is invalid"

def proxyUrlPortRangeReason : Text := "port must be between 1 and 65535"

def proxyUrlSchemeRequiredReason : Text := "must include a scheme"

def proxyUrlSchemeUnsupportedReason : Text := "scheme must be http"

def proxyUrlShapeUnsupportedReason : Text := "must not include path, query or fragment"

/-- `DEFAULT_PROXY_PORTS`. -/
def defaultProxyPorts : List (Text × Nat) := [("http", 80)]

/-- `DEFAULT_TARGET_PORTS`. -/
def defaultTargetPorts : List (Text × Nat) := [("http", 80), ("https", 443)]

/-- `SUPPORTED_PROXY_SCHEMES`. -/
def supportedProxySchemes : List Text := defaultProxyPorts.map (·.1)

/-- `_raise_invalid_proxy_url`. -/
def raiseInvalidProxyUrl {α : Type} (source reason : Text) : Except UrlError α :=
  .error (.valueError (source ++ ' ' :: reason))

/-- `split_url`. -/
def splitUrl (reader : UrlReader) (value source : Text) : Except UrlError SplitResult :=
  match urlsplit reader.acceptsNetloc value with
  | some parts => .ok parts
  | none => raiseInvalidProxyUrl source proxyUrlInvalidReason

/-- `split_proxy_url`. -/
def splitProxyUrl (reader : UrlReader) (value source : Text) : Except UrlError SplitResult := do
  let parts ← splitUrl reader value source
  if parts.scheme = [] then raiseInvalidProxyUrl source proxyUrlSchemeRequiredReason
  else if !supportedProxySchemes.contains (reader.tables.lower parts.scheme) then
    raiseInvalidProxyUrl source proxyUrlSchemeUnsupportedReason
  else .ok parts

/-- `validated_host`. -/
def validatedHost (reader : UrlReader) (parts : SplitResult) (source : Text) :
    Except UrlError Text :=
  match hostname reader.tables parts.netloc with
  | some host => .ok (reader.tables.lower host)
  | none => raiseInvalidProxyUrl source proxyUrlHostRequiredReason

/-- `validated_port`. -/
def validatedPort (parts : SplitResult) (scheme source : Text)
    (defaultPorts : List (Text × Nat)) : Except UrlError Nat :=
  match netlocPort parts.netloc with
  | none => raiseInvalidProxyUrl source proxyUrlPortInvalidReason
  | some none =>
      match defaultPorts.lookup scheme with
      | some port => .ok port
      | none => .error (.keyError scheme)
  | some (some port) =>
      if port < minPort ∨ maxPort < port then
        raiseInvalidProxyUrl source proxyUrlPortRangeReason
      else .ok port

/-- `validate_proxy_url_shape`. -/
def validateProxyUrlShape (parts : SplitResult) (source : Text) : Except UrlError Unit :=
  if (parts.path ≠ [] ∧ parts.path ≠ ['/']) ∨ parts.query ≠ [] ∨ parts.fragment ≠ [] then
    raiseInvalidProxyUrl source proxyUrlShapeUnsupportedReason
  else .ok ()

/-! ## Proxies and targets -/

/-- `ProxyUrl`.  The credentials are in no other field. -/
structure ProxyUrl where
  endpointUrl : Text
  scheme : Text
  host : Text
  port : Nat
  endpointNetloc : Text
  credentials : Option ProxyCredentials
deriving DecidableEq

/-- `_proxy_endpoint_netloc`. -/
def proxyEndpointNetloc (host : Text) (port : Nat) : Text :=
  if ':' ∈ host then '[' :: host ++ ']' :: ':' :: decimal port else host ++ ':' :: decimal port

namespace ProxyUrl

/-- `ProxyUrl.parse`, once the URL is split. -/
def ofParts (reader : UrlReader) (parts : SplitResult) (source : Text) :
    Except UrlError ProxyUrl := do
  let scheme := reader.tables.lower parts.scheme
  let host ← validatedHost reader parts source
  let port ← validatedPort parts scheme source defaultProxyPorts
  validateProxyUrlShape parts source
  let endpointNetloc := proxyEndpointNetloc host port
  .ok
    { endpointUrl := urlunsplit ⟨scheme, endpointNetloc, [], [], []⟩
      scheme
      host
      port
      endpointNetloc
      credentials := proxyCredentials (userinfo parts.netloc).1 (userinfo parts.netloc).2 }

/-- `ProxyUrl.parse`. -/
def parse (reader : UrlReader) (value source : Text) : Except UrlError ProxyUrl := do
  let parts ← splitProxyUrl reader value source
  ofParts reader parts source

/-- `ProxyUrl.redacted_url`. -/
def redactedUrl (proxy : ProxyUrl) : Text :=
  match proxy.credentials with
  | none => proxy.endpointUrl
  | some _ =>
      urlunsplit ⟨proxy.scheme, redactedValue ++ '@' :: proxy.endpointNetloc, [], [], []⟩

end ProxyUrl

/-- The `source` of a target in messages. -/
def targetSource : Text := "target URL"

/-- `ProxyTarget.parse`. -/
def ProxyTarget.parse (reader : UrlReader) (value : Text) : Except UrlError ProxyTarget := do
  let parts ← splitUrl reader value targetSource
  let scheme := reader.tables.lower parts.scheme
  if !(defaultTargetPorts.map (·.1)).contains scheme then
    .error (.valueError "target URL scheme must be http or https")
  else do
    let host ← validatedHost reader parts targetSource
    let port ← validatedPort parts scheme targetSource defaultTargetPorts
    .ok ⟨scheme, host, port⟩

/-! ## Reading a URL of the transport -/

/-- A character of a host: lower-case ASCII, and no delimiter. -/
def isHostChar (c : Char) : Bool :=
  isNetlocChar c && c != '@' && c != '%' && decide (c.toNat < 0x80) && c.toLower == c

end FogHttp.Proxy

namespace FogHttp.HttpUrl

open Lib
open Proxy (isHostChar)
open Redaction (UrlText isNetlocChar)

/-- The text in front of the `@`, if there is one. -/
def userinfoText (url : HttpUrl) : Option Text :=
  match url.inner.password with
  | some password => some (url.inner.username ++ ':' :: password)
  | none => if url.inner.username = [] then none else some url.inner.username

def hostPortText (url : HttpUrl) : Text := url.hostStr ++ portText url.inner.port

def netlocText (url : HttpUrl) : Text :=
  match url.userinfoText with
  | some userinfo => userinfo ++ '@' :: url.hostPortText
  | none => url.hostPortText

/-- What the `url` crate says of a URL that it has parsed. -/
structure Written (url : HttpUrl) : Prop extends url.Normal where
  userinfoChars : (url.userinfoText.getD []).all isNetlocChar = true
  hostChars : url.hostStr.all isHostChar = true
  hostPresent : url.host ≠ []
  portRange : url.port ≤ Proxy.maxPort
  pathStart : url.path = [] ∨ url.path.head? = some '/'
  pathChars : url.path.all (fun c => c != '?' && c != '#') = true
  queryChars : '#' ∉ url.inner.query.getD []
  plain : url.asStr.all (fun c => 0x20 < c.toNat) = true

/-- The target of a request with this URL. -/
def target (url : HttpUrl) : Proxy.ProxyTarget := ⟨url.scheme, url.host, url.port⟩

variable {url : HttpUrl}

theorem isHttpScheme_scheme : Redaction.isHttpScheme url.scheme = true := by
  rcases url.scheme_eq with hscheme | hscheme
  · rw [hscheme]
    decide
  · rw [hscheme]
    decide

theorem isDigit_portText {port : Option Nat} :
    ∀ c ∈ portText port, c = ':' ∨ c.isDigit = true := by
  intro c hmem
  cases port with
  | none => cases hmem
  | some port =>
      rcases List.mem_cons.mp hmem with hcolon | hdigit
      · exact Or.inl hcolon
      · exact Or.inr (Nat.isDigit_of_mem_toDigits (by decide) (by decide) hdigit)

/-- A port has none of the delimiters of a netloc. -/
theorem not_mem_portText {port : Option Nat} {c : Char} (hcolon : c ≠ ':')
    (hdigit : c.isDigit = false) : c ∉ portText port := by
  intro hmem
  rcases isDigit_portText c hmem with heq | hisDigit
  · exact hcolon heq
  · rw [hdigit] at hisDigit
    cases hisDigit

theorem isNetlocChar_hostPortText (h : url.Written) :
    ∀ c ∈ url.hostPortText, (isNetlocChar c && c != '@') = true := by
  intro c hmem
  rcases List.mem_append.mp hmem with hhost | hport
  · have hchar := List.all_eq_true.mp h.hostChars c hhost
    unfold isHostChar at hchar
    simp only [Bool.and_eq_true] at hchar
    rw [Bool.and_eq_true]
    exact hchar.1.1.1
  · unfold isNetlocChar
    simp only [Bool.and_eq_true, bne_iff_ne]
    refine ⟨⟨⟨?_, ?_⟩, ?_⟩, ?_⟩
    · rintro rfl
      exact not_mem_portText (by decide) (by decide) hport
    · rintro rfl
      exact not_mem_portText (by decide) (by decide) hport
    · rintro rfl
      exact not_mem_portText (by decide) (by decide) hport
    · rintro rfl
      exact not_mem_portText (by decide) (by decide) hport

/-- The URL, by the components that `urlsplit` finds. -/
def urlText (h : url.Written) : UrlText where
  scheme := url.scheme
  userinfo := url.userinfoText
  hostPort := url.hostPortText
  path := url.path
  query := url.inner.query
  fragment := url.inner.fragment
  isHttp := isHttpScheme_scheme
  userinfoChars := h.userinfoChars
  hostPortChars := List.all_eq_true.mpr (isNetlocChar_hostPortText h)
  pathStart := h.pathStart
  pathChars := h.pathChars
  queryChars := h.queryChars

theorem netloc_urlText (h : url.Written) : (urlText h).netloc = url.netlocText := rfl

theorem hostStr_eq : url.inner.hostStr = some url.hostStr := (Option.some_get url.hasHost).symm

theorem asStr_eq_text (h : url.Written) : url.asStr = (urlText h).text := by
  unfold asStr Url.asStr UrlText.text UrlText.behind UrlText.queryText UrlText.fragmentText
  rw [netloc_urlText, netlocText, userinfoText, hostPortText, hostStr_eq, Option.getD_some]
  change url.scheme ++ _ ++ _ ++ _ ++ _ ++ _ ++ _ ++ _ = url.scheme ++ _
  unfold portText urlText
  cases url.inner.password with
  | none =>
      by_cases hname : url.inner.username = []
      · simp only [if_pos hname, List.append_assoc, List.nil_append]
        rfl
      · simp only [if_neg hname, List.append_assoc, List.cons_append]
        rfl
  | some password =>
      simp only [List.append_assoc, List.cons_append]
      rfl

/-- `urlsplit` drops nothing from the URL. -/
theorem writtenAs_asStr (h : url.Written) : (urlText h).WrittenAs url.asStr := by
  unfold UrlText.WrittenAs Redaction.stripUrl
  have hhead : url.asStr.dropWhile (fun c => c.toNat ≤ 0x20) = url.asStr := by
    rw [List.dropWhile_eq_self_iff]
    intro hlength
    have hchar := List.all_eq_true.mp h.plain _ (List.getElem_mem hlength)
    simpa using hchar
  rw [hhead, List.filter_eq_self.mpr, asStr_eq_text h]
  intro c hmem
  have hchar := List.all_eq_true.mp h.plain c hmem
  unfold Redaction.isUnsafeUrlByte
  simp only [Bool.not_eq_true', Bool.or_eq_false_iff, beq_eq_false_iff_ne]
  refine ⟨⟨?_, ?_⟩, ?_⟩
  · rintro rfl
    exact absurd hchar (by decide)
  · rintro rfl
    exact absurd hchar (by decide)
  · rintro rfl
    exact absurd hchar (by decide)

theorem toAsciiLowercase_scheme : toAsciiLowercase url.scheme = url.scheme := by
  rcases url.scheme_eq with hscheme | hscheme
  · rw [hscheme]
    decide
  · rw [hscheme]
    decide

theorem urlsplit_asStr (h : url.Written) {acceptsNetloc : Text → Bool}
    (haccepts : acceptsNetloc url.netlocText = true) :
    Redaction.urlsplit acceptsNetloc url.asStr = some ⟨url.scheme, url.netlocText, url.path,
      url.inner.query.getD [], url.inner.fragment.getD []⟩ := by
  rw [(urlText h).urlsplit_text (writtenAs_asStr h) haccepts, netloc_urlText]
  change some (⟨toAsciiLowercase url.scheme, _, _, _, _⟩ : Redaction.SplitResult) = _
  rw [toAsciiLowercase_scheme]
  rfl

/-! ## The attributes of the netloc -/

theorem hostPart_netlocText (h : url.Written) :
    Proxy.hostPart url.netlocText = url.hostPortText := by
  have hat : '@' ∉ url.hostPortText := by
    intro hmem
    exact absurd (isNetlocChar_hostPortText h _ hmem) (by decide)
  unfold Proxy.hostPart netlocText
  cases url.userinfoText with
  | none => rw [rsplitOnce_of_not_mem hat, Option.map_none, Option.getD_none]
  | some userinfo => rw [rsplitOnce_append_cons _ hat, Option.map_some, Option.getD_some]

/-- What is behind the colon of a port. -/
theorem splitTail_portText (port : Option Nat) :
    (Redaction.splitTail ':' (portText port)).2 = (port.map decimal).getD [] := by
  cases port with
  | none => rfl
  | some port => rfl

/-- A host with its brackets, or without any. -/
theorem host_cases (h : url.Written) :
    (∃ address, url.hostStr = '[' :: address ++ [']'] ∧ ']' ∉ address ∧ url.host = address) ∨
      '[' ∉ url.hostStr ∧ ':' ∉ url.hostStr ∧ url.host = url.hostStr := by
  unfold host
  rcases h.host with ⟨address, haddress, hclose⟩ | ⟨hopen, hcolon⟩
  · refine Or.inl ⟨address, haddress, hclose, ?_⟩
    rw [haddress]
    simp [stripPrefixChar, stripSuffixChar]
  · refine Or.inr ⟨hopen, hcolon, ?_⟩
    cases hstr : url.hostStr with
    | nil => rfl
    | cons first rest =>
        rw [hstr] at hopen
        have hfirst : first ≠ '[' := fun heq => hopen (heq ▸ List.mem_cons_self)
        rw [stripPrefixChar, if_neg hfirst]
        rfl

/-- The host without its brackets, and the digits of the port. -/
theorem hostinfo_netlocText (h : url.Written) :
    Proxy.hostinfo url.netlocText = (url.host, url.inner.port.map decimal) := by
  have hport : ∀ port : Option Nat,
      (if (port.map decimal).getD [] = [] then none else some ((port.map decimal).getD [])) =
        port.map decimal := by
    intro port
    cases port with
    | none => rfl
    | some port => exact if_neg Nat.toDigits_ne_nil
  unfold Proxy.hostinfo
  rw [hostPart_netlocText h, hostPortText]
  rcases host_cases h with ⟨address, haddress, hclose, hhost⟩ | ⟨hopen, hcolon, hhost⟩
  · have hcut : splitOnce '[' (url.hostStr ++ portText url.inner.port) =
        some ([], address ++ ']' :: portText url.inner.port) := by
      rw [haddress, List.cons_append, List.cons_append, List.append_assoc]
      exact splitOnce_append_cons List.not_mem_nil _
    rw [hcut, hhost]
    dsimp only
    rw [Redaction.splitTail_append_cons hclose]
    dsimp only
    rw [splitTail_portText, hport]
  · have hcut : splitOnce '[' (url.hostStr ++ portText url.inner.port) = none := by
      refine splitOnce_of_not_mem ?_
      rw [List.mem_append, not_or]
      exact ⟨hopen, not_mem_portText (by decide) (by decide)⟩
    rw [hcut, hhost]
    dsimp only
    cases url.inner.port with
    | none =>
        rw [portText, List.append_nil, Redaction.splitTail_of_not_mem hcolon]
        rfl
    | some port =>
        rw [portText, Redaction.splitTail_append_cons hcolon]
        exact Prod.ext rfl (if_neg Nat.toDigits_ne_nil)

theorem netlocPort_netlocText (h : url.Written) :
    Proxy.netlocPort url.netlocText = some url.inner.port := by
  unfold Proxy.netlocPort
  rw [hostinfo_netlocText h]
  cases hport : url.inner.port with
  | none => rfl
  | some port =>
      have hrange : port ≤ Proxy.maxPort := by
        have hbound := h.portRange
        unfold HttpUrl.port at hbound
        rwa [hport, Option.getD_some] at hbound
      have hdigits : (decimal port).all Char.isDigit = true := by
        rw [List.all_eq_true]
        intro c hmem
        exact Nat.isDigit_of_mem_toDigits (by decide) (by decide) hmem
      have hlength : (decimal port).length ≤ Proxy.intMaxStrDigits := by
        have hshort : (decimal port).length ≤ 5 :=
          (Nat.length_toDigits_le_iff (by decide) (by decide)).mpr
            (Nat.lt_of_le_of_lt hrange (by decide))
        exact Nat.le_trans hshort (by decide)
      have hvalue : Nat.ofDigitChars 10 (decimal port) 0 = port := Nat.ofDigitChars_ten_toDigits
      rw [Option.map_some]
      dsimp only
      rw [hdigits, hvalue, decide_eq_true hlength, Bool.and_self, if_pos rfl, if_pos hrange]

/-- The host is part of what the crate writes. -/
theorem isHostChar_host (h : url.Written) : ∀ c ∈ url.host, isHostChar c = true := by
  intro c hmem
  refine List.all_eq_true.mp h.hostChars c ?_
  rcases host_cases h with ⟨address, haddress, -, hhost⟩ | ⟨-, -, hhost⟩
  · rw [haddress]
    rw [hhost] at hmem
    simp [hmem]
  · rwa [hhost] at hmem

end FogHttp.HttpUrl

namespace FogHttp.Proxy

open Lib

/-- What Python and the `url` crate have in common. -/
structure UrlReader.Agrees (reader : UrlReader) (crate : UrlCrate) : Prop where
  /-- `str.lower` of ASCII text. -/
  lower : ∀ text, isAscii text = true → reader.tables.lower text = toAsciiLowercase text
  written : ∀ {text url}, HttpUrl.parse crate text = .ok url → url.Written
  accepts : ∀ {text url}, HttpUrl.parse crate text = .ok url →
    reader.acceptsNetloc url.netlocText = true

variable {reader : UrlReader} {crate : UrlCrate} {text : Text} {url : HttpUrl}

namespace UrlReader.Agrees

/-- A host is in lower case already. -/
theorem lower_host (h : reader.Agrees crate) {host : Text}
    (hhost : ∀ c ∈ host, isHostChar c = true) : reader.tables.lower host = host := by
  have hchars : ∀ c ∈ host, c.toNat < 0x80 ∧ c.toLower = c := by
    intro c hmem
    have hchar := hhost c hmem
    unfold isHostChar at hchar
    simp only [Bool.and_eq_true, decide_eq_true_eq, beq_iff_eq] at hchar
    exact ⟨hchar.1.2, hchar.2⟩
  have hascii : isAscii host = true := by
    unfold isAscii
    rw [List.all_eq_true]
    exact fun c hmem => decide_eq_true (hchars c hmem).1
  rw [h.lower host hascii, toAsciiLowercase]
  have hsame : host.map Char.toLower = host.map id :=
    List.map_congr_left fun c hmem => (hchars c hmem).2
  rw [hsame, List.map_id]

theorem lower_scheme (h : reader.Agrees crate) : reader.tables.lower url.scheme = url.scheme := by
  have hascii : isAscii url.scheme = true := by
    rcases url.scheme_eq with hscheme | hscheme
    · rw [hscheme]
      decide
    · rw [hscheme]
      decide
  rw [h.lower _ hascii, HttpUrl.toAsciiLowercase_scheme]

theorem hostname_netlocText (h : reader.Agrees crate) (hwritten : url.Written) :
    hostname reader.tables url.netlocText = some url.host := by
  have hhost := HttpUrl.isHostChar_host hwritten
  have hzone : '%' ∉ url.host := fun hmem => absurd (hhost _ hmem) (by decide)
  unfold hostname
  rw [HttpUrl.hostinfo_netlocText hwritten]
  dsimp only
  rw [if_neg hwritten.hostPresent, splitOnce_of_not_mem hzone, h.lower_host hhost]

/-- Python finds the target of a URL that the transport has parsed, unless its port is zero. -/
theorem parse_asStr (h : reader.Agrees crate) (hparse : HttpUrl.parse crate text = .ok url)
    (hport : url.port ≠ 0) : ProxyTarget.parse reader url.asStr = .ok url.target := by
  have hwritten := h.written hparse
  have hsplit : splitUrl reader url.asStr targetSource = .ok ⟨url.scheme, url.netlocText, url.path,
      url.inner.query.getD [], url.inner.fragment.getD []⟩ := by
    unfold splitUrl
    rw [HttpUrl.urlsplit_asStr hwritten (h.accepts hparse)]
  have hscheme : (!(defaultTargetPorts.map (·.1)).contains url.scheme) = false := by
    rcases url.scheme_eq with hscheme | hscheme
    · rw [hscheme]
      decide
    · rw [hscheme]
      decide
  have hdefault : defaultTargetPorts.lookup url.scheme = some url.defaultPort := by
    unfold HttpUrl.defaultPort
    rcases url.scheme_eq with hscheme | hscheme
    · rw [hscheme]
      decide
    · rw [hscheme]
      decide
  have hvalid : validatedPort ⟨url.scheme, url.netlocText, url.path, url.inner.query.getD [],
      url.inner.fragment.getD []⟩ url.scheme targetSource defaultTargetPorts = .ok url.port := by
    have hrange := hwritten.portRange
    unfold validatedPort
    rw [HttpUrl.netlocPort_netlocText hwritten, hdefault]
    unfold HttpUrl.port at hport hrange ⊢
    cases hspelled : url.inner.port with
    | none => rfl
    | some port =>
        rw [hspelled, Option.getD_some] at hport hrange
        have hmin : minPort ≤ port := Nat.one_le_iff_ne_zero.mpr hport
        exact if_neg (by omega)
  unfold ProxyTarget.parse
  rw [hsplit]
  change (if _ then _ else _) = _
  rw [h.lower_scheme, hscheme, if_neg Bool.false_ne_true]
  unfold validatedHost
  rw [h.hostname_netlocText hwritten]
  change (validatedPort _ _ _ _ >>= fun port => _) = _
  rw [hvalid, h.lower_host (HttpUrl.isHostChar_host hwritten)]
  rfl

end UrlReader.Agrees

end FogHttp.Proxy
