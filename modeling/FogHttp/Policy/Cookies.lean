import Mathlib.Data.List.Sort
import FogHttp.Lib.Net
import FogHttp.Core.Url

/-!
# Cookies

`CookieJar` keeps the cookies of a client.  A response stores the cookies of its
`Set-Cookie` fields, and a request asks for the `Cookie` field of its URL.  The
mutex of the jar makes every call atomic, so a history is a list of calls.

The `rfc_6265` crate parses dates, compares domains and paths and knows the name
prefixes, the `time` crate adds seconds to a time, and the `http` crate checks a
header value.  None of them is part of the repository: `CookieCrates` carries
them, over any type of times with a linear order.

* Counters are `u64` and saturate, as in the source.
* The two eviction loops are one function, `evict`, with the loop condition and
  the choice of the victim as arguments.  Its fuel is the number of cookies, and
  each round removes one.
* `request_header` sorts the positions of the matching cookies; here each
  position stands beside its cookie.
-/

namespace FogHttp.Cookies

open Lib

/-- The functions of other crates that the cookie jar calls. -/
structure CookieCrates (τ : Type) where
  /-- `rfc_6265::date::parse_cookie_date`. -/
  parseCookieDate : Text → Option τ
  /-- `rfc_6265::domain::domain_matches`. -/
  domainMatches : Text → Text → Bool
  /-- `rfc_6265::domain::to_ascii`. -/
  toAscii : Text → Option Text
  /-- `rfc_6265::grammar::has_host_prefix`. -/
  hasHostPrefix : Text → Bool
  /-- `rfc_6265::grammar::has_secure_prefix`. -/
  hasSecurePrefix : Text → Bool
  /-- `rfc_6265::path::default_path`. -/
  defaultPath : Text → Text
  /-- `rfc_6265::path::path_matches`. -/
  pathMatches : Text → Text → Bool
  /-- `OffsetDateTime::saturating_add` of a number of seconds. -/
  saturatingAdd : τ → Int → τ
  /-- `HeaderValue::from_str` succeeds. -/
  isHeaderValue : Text → Bool

def maxCookiePairOctets : Nat := 4096

def maxCookieAttributeValueOctets : Nat := 1024

def maxSetCookieOctets : Nat := 16 * 1024

def maxCookiesPerDomain : Nat := 50

def maxCookies : Nat := 3000

def maxCookieAgeSeconds : Int := 400 * 24 * 60 * 60

/-- `u64::saturating_add` of one. -/
def saturatingSucc (n : Nat) : Nat := min (n + 1) (2 ^ 64 - 1)

/-- A result of an `i64` operation that saturates. -/
def saturatingI64 (n : Int) : Int := max (-2 ^ 63) (min n (2 ^ 63 - 1))

/-! ## Reading a field -/

/-- `trim_cookie_whitespace`. -/
def trimCookieWhitespace (value : Text) : Text :=
  trimMatches (fun c => c == ' ' || c == '\t') value

/-- The bytes that `contains_disallowed_control` looks for; the bytes of a character
beyond ASCII are not among them. -/
def isDisallowedControl (c : Char) : Bool :=
  c.toNat ≤ 0x08 || (0x0a ≤ c.toNat && c.toNat ≤ 0x1f) || c.toNat == 0x7f

/-- `contains_disallowed_control`. -/
def containsDisallowedControl (value : Text) : Bool := value.any isDisallowedControl

/-- `response_header_octet_len`. -/
def responseHeaderOctetLen (value : Text) : Option Nat :=
  if value.any fun c => 0xff < c.toNat then none else some value.length

/-- `parse_cookie_pair`. -/
def parseCookiePair (value : Text) : Option (Text × Text) :=
  let pair := ((splitOnce ';' value).map Prod.fst).getD value
  let pieces := (splitOnce '=' pair).getD ([], pair)
  let name := trimCookieWhitespace pieces.1
  let cookieValue := trimCookieWhitespace pieces.2
  if name = [] ∧ cookieValue = [] then none else some (name, cookieValue)

section Crates

variable {τ : Type} [LinearOrder τ] (crates : CookieCrates τ)

/-- `serialize_cookie_pair`. -/
def serializeCookiePair (name value : Text) : Option Text :=
  if utf8Len name + utf8Len value > maxCookiePairOctets || !isAscii name || !isAscii value then
    none
  else
    let pair := (if name = [] then [] else name ++ ['=']) ++ value
    if crates.isHeaderValue pair then some pair else none

/-- `parse_max_age`. -/
def parseMaxAge (value : Text) (now : τ) : Option τ :=
  let (negative, digits) := match stripPrefixChar '-' value with
    | some digits => (true, digits)
    | none => (false, value)
  if digits.isEmpty || !digits.all Char.isDigit then none
  else if negative || digits.all (· == '0') then some now
  else
    let seconds := digits.foldl (fun seconds digit =>
      min (saturatingI64 (saturatingI64 (seconds * 10) + (digit.toNat - '0'.toNat : Nat)))
        maxCookieAgeSeconds) 0
    some (crates.saturatingAdd now seconds)

/-- `clamp_cookie_expiry`. -/
def clampCookieExpiry (expires now : τ) : τ :=
  min expires (crates.saturatingAdd now maxCookieAgeSeconds)

structure CookieAttributes (τ : Type) where
  domain : Option Text
  path : Option Text
  secure : Bool
  expires : Option τ
  maxAge : Option τ

namespace CookieAttributes

/-- `CookieAttributes::default`. -/
def default : CookieAttributes τ := ⟨none, none, false, none, none⟩

/-- The body of the loop in `CookieAttributes::parse`. -/
def add (now : τ) (attributes : CookieAttributes τ) (rawAttribute : Text) :
    CookieAttributes τ :=
  let pieces := (splitOnce '=' rawAttribute).getD (rawAttribute, [])
  let name := trimCookieWhitespace pieces.1
  let attributeValue := trimCookieWhitespace pieces.2
  if (responseHeaderOctetLen attributeValue).all (· > maxCookieAttributeValueOctets) then
    attributes
  else if eqIgnoreAsciiCase name "domain" then
    { attributes with domain := some attributeValue }
  else if eqIgnoreAsciiCase name "path" then
    { attributes with path := some attributeValue }
  else if eqIgnoreAsciiCase name "secure" then { attributes with secure := true }
  else if eqIgnoreAsciiCase name "expires" then
    match crates.parseCookieDate attributeValue with
    | some expires => { attributes with expires := some (clampCookieExpiry crates expires now) }
    | none => attributes
  else if eqIgnoreAsciiCase name "max-age" then
    match parseMaxAge crates attributeValue now with
    | some expires => { attributes with maxAge := some expires }
    | none => attributes
  else attributes

/-- `CookieAttributes::parse`. -/
def parse (value : Text) (now : τ) : CookieAttributes τ :=
  ((splitPattern [';'] value).drop 1).foldl (add crates now) default

end CookieAttributes

/-- `canonical_cookie_domain`. -/
def canonicalCookieDomain (value : Text) : Option Text :=
  match parseIpAddr value with
  | some address => some address.display
  | none => crates.toAscii value

/-- `is_trustworthy_origin`. -/
def isTrustworthyOrigin (url : HttpUrl) : Bool :=
  if url.scheme = ("https" : Text) then true
  else
    match parseIpAddr url.host with
    | some address => address.isLoopback
    | none =>
        eqIgnoreAsciiCase url.host "localhost" ||
          (".localhost" : Text).isSuffixOf (toAsciiLowercase url.host)

/-! ## Stored cookies -/

structure StoredCookie (τ : Type) where
  name : Text
  wirePair : Text
  domain : Text
  path : Text
  hostOnly : Bool
  secure : Bool
  expiresAt : Option τ
  creation : Nat
  lastAccess : Nat
deriving DecidableEq

namespace StoredCookie

/-- The domain of a cookie and whether it is host-only, as `parse` finds them. -/
def scope (domainAttribute : Option Text) (originHost : Text) : Option (Text × Bool) :=
  match domainAttribute.map fun domain => (stripPrefixChar '.' domain).getD domain with
  | some domain =>
      if domain = [] then some (originHost, true)
      else if !isAscii domain then none
      else
        match canonicalCookieDomain crates domain with
        | none => none
        | some domain =>
            if crates.domainMatches originHost domain then some (domain, false) else none
  | none => some (originHost, true)

/-- The checks of `parse` on the secure attribute and on the name prefixes refuse the
cookie. -/
def refused (name cookieValue path : Text) (hostOnly pathAttributePresent secure : Bool)
    (originSecure : Bool) : Bool :=
  (secure && !originSecure) ||
  (crates.hasSecurePrefix name && !secure) ||
  (crates.hasHostPrefix name &&
    (!secure || !hostOnly || !pathAttributePresent || path != ("/" : Text))) ||
  (name.isEmpty && (crates.hasSecurePrefix cookieValue || crates.hasHostPrefix cookieValue))

/-- `StoredCookie::parse`. -/
def parse (value originHost requestPath : Text) (originSecure : Bool) (now : τ) :
    Option (StoredCookie τ) :=
  if containsDisallowedControl value then none
  else
    match parseCookiePair value with
    | none => none
    | some (name, cookieValue) =>
        match serializeCookiePair crates name cookieValue with
        | none => none
        | some wirePair =>
            let attributes := CookieAttributes.parse crates value now
            match scope crates attributes.domain originHost with
            | none => none
            | some (domain, hostOnly) =>
                let path := (attributes.path.filter fun path => path.head? == some '/').getD
                  (crates.defaultPath requestPath)
                if refused crates name cookieValue path hostOnly attributes.path.isSome
                    attributes.secure originSecure then none
                else
                  some
                    { name, wirePair, domain, path, hostOnly
                      secure := attributes.secure
                      expiresAt := attributes.maxAge.or attributes.expires
                      creation := 0
                      lastAccess := 0 }

/-- `StoredCookie::has_same_identity`. -/
def hasSameIdentity (cookie other : StoredCookie τ) : Bool :=
  cookie.name == other.name && cookie.domain == other.domain &&
    cookie.hostOnly == other.hostOnly && cookie.path == other.path

/-- `StoredCookie::is_expired`. -/
def isExpired (cookie : StoredCookie τ) (now : τ) : Bool :=
  cookie.expiresAt.any fun expiresAt => expiresAt ≤ now

/-- `StoredCookie::matches`. -/
def isMatch (cookie : StoredCookie τ) (host path : Text) (secure : Bool) : Bool :=
  (if cookie.hostOnly then cookie.domain == host else crates.domainMatches host cookie.domain) &&
    crates.pathMatches path cookie.path && (!cookie.secure || secure)

/-- The eviction key `(last_access, creation)` is smaller. -/
def lessRecent (cookie other : StoredCookie τ) : Bool :=
  cookie.lastAccess < other.lastAccess ||
    (cookie.lastAccess == other.lastAccess && cookie.creation < other.creation)

/-- The order of `request_header`: longer paths first, then older cookies. -/
def precedes (cookie other : StoredCookie τ) : Prop :=
  utf8Len other.path < utf8Len cookie.path ∨
    utf8Len other.path = utf8Len cookie.path ∧ cookie.creation ≤ other.creation

instance (cookie other : StoredCookie τ) : Decidable (cookie.precedes other) :=
  inferInstanceAs (Decidable (_ ∨ _ ∧ _))

end StoredCookie

/-! ## The store -/

structure CookieStore (τ : Type) where
  cookies : List (StoredCookie τ)
  nextCreation : Nat
  nextAccess : Nat
deriving DecidableEq

/-- `Iterator::min_by_key` on the eviction key over the eligible cookies: the position of
the first smallest one. -/
def leastRecent (eligible : StoredCookie τ → Bool) (cookies : List (StoredCookie τ)) :
    Option Nat :=
  match cookies.zipIdx.filter fun entry => eligible entry.1 with
  | [] => none
  | first :: rest =>
      some (rest.foldl (fun best entry => if entry.1.lessRecent best.1 then entry else best)
        first).2

/-- An eviction loop: while `exceeds`, the victim is removed. -/
def evict (exceeds : List (StoredCookie τ) → Bool)
    (eligible : List (StoredCookie τ) → StoredCookie τ → Bool) :
    Nat → List (StoredCookie τ) → List (StoredCookie τ)
  | 0, cookies => cookies
  | fuel + 1, cookies =>
      if exceeds cookies then
        match leastRecent (eligible cookies) cookies with
        | some index => evict exceeds eligible fuel (cookies.eraseIdx index)
        | none => cookies
      else cookies

/-- The domain has too many cookies. -/
def domainExceeds (domain : Text) (cookies : List (StoredCookie τ)) : Bool :=
  maxCookiesPerDomain < cookies.countP fun cookie => cookie.domain == domain

/-- The cookies of the domain, without the secure ones while there are others. -/
def domainEligible (domain : Text) (cookies : List (StoredCookie τ))
    (cookie : StoredCookie τ) : Bool :=
  let hasNonSecure := cookies.any fun cookie => cookie.domain == domain && !cookie.secure
  cookie.domain == domain && (!hasNonSecure || !cookie.secure)

/-- The store has too many cookies. -/
def storeExceeds (cookies : List (StoredCookie τ)) : Bool := maxCookies < cookies.length

namespace CookieStore

/-- `CookieStore::default`. -/
def default : CookieStore τ := ⟨[], 0, 0⟩

variable (self : CookieStore τ)

/-- `CookieStore::purge_expired`. -/
def purgeExpired (now : τ) : CookieStore τ :=
  { self with cookies := self.cookies.filter fun cookie => !cookie.isExpired now }

/-- `CookieStore::would_overlay_secure_cookie`. -/
def wouldOverlaySecureCookie (candidate : StoredCookie τ) : Bool :=
  self.cookies.any fun existing =>
    existing.secure && existing.name == candidate.name &&
      (crates.domainMatches candidate.domain existing.domain ||
        crates.domainMatches existing.domain candidate.domain) &&
      crates.pathMatches candidate.path existing.path

/-- `CookieStore::enforce_capacity`. -/
def enforceCapacity (domain : Text) : CookieStore τ :=
  let cookies := evict (domainExceeds domain) (domainEligible domain) self.cookies.length
    self.cookies
  { self with cookies := evict storeExceeds (fun _ _ => true) cookies.length cookies }

/-- The part of `CookieStore::store` for a candidate that is kept. -/
def insert (candidate : StoredCookie τ) : CookieStore τ :=
  let candidate := { candidate with lastAccess := self.nextAccess }
  let nextAccess := saturatingSucc self.nextAccess
  match self.cookies.findIdx? fun cookie => cookie.hasSameIdentity candidate with
  | some index =>
      { self with
        cookies := self.cookies.modify index fun existing =>
          { candidate with creation := existing.creation }
        nextAccess }
  | none =>
      enforceCapacity
        { cookies := self.cookies ++ [{ candidate with creation := self.nextCreation }]
          nextCreation := saturatingSucc self.nextCreation
          nextAccess }
        candidate.domain

/-- `CookieStore::store`. -/
def store (value originHost requestPath : Text) (originSecure : Bool) (now : τ) :
    CookieStore τ :=
  match StoredCookie.parse crates value originHost requestPath originSecure now with
  | none => self
  | some candidate =>
      if !originSecure && self.wouldOverlaySecureCookie crates candidate then self
      else if candidate.isExpired now then
        match self.cookies.findIdx? fun cookie => cookie.hasSameIdentity candidate with
        | some index => { self with cookies := self.cookies.eraseIdx index }
        | none => self
      else self.insert candidate

/-- One round of the loop in `CookieStore::request_header`. -/
def access (access : Nat) (state : List (StoredCookie τ) × Text)
    (entry : StoredCookie τ × Nat) : List (StoredCookie τ) × Text :=
  (state.1.modify entry.2 fun cookie => { cookie with lastAccess := access },
    state.2 ++ (if state.2 = [] then [] else ("; " : Text)) ++ entry.1.wirePair)

/-- `CookieStore::request_header`. -/
def requestHeader (host path : Text) (secure : Bool) : Option Text × CookieStore τ :=
  let matching := (self.cookies.zipIdx.filter fun entry =>
    entry.1.isMatch crates host path secure).insertionSort fun left right =>
      left.1.precedes right.1
  if matching = [] then (none, self)
  else
    let result := matching.foldl (CookieStore.access self.nextAccess) (self.cookies, [])
    (some result.2,
      { self with cookies := result.1, nextAccess := saturatingSucc self.nextAccess })

/-- `CookieJar::request_header_at`. -/
def requestHeaderAt (url : HttpUrl) (now : τ) : Option Text × CookieStore τ :=
  match canonicalCookieDomain crates url.host with
  | none => (none, self)
  | some host =>
      (self.purgeExpired now).requestHeader crates host url.path (isTrustworthyOrigin url)

/-- A header that `store_response_at` stores. -/
def isSetCookie (header : Text × Text) : Bool :=
  eqIgnoreAsciiCase header.1 "set-cookie" &&
    (responseHeaderOctetLen header.2).any (· ≤ maxSetCookieOctets)

/-- `CookieJar::store_response_at`. -/
def storeResponseAt (url : HttpUrl) (headers : List (Text × Text)) (now : τ) :
    CookieStore τ :=
  match canonicalCookieDomain crates url.host with
  | none => self
  | some host =>
      headers.foldl (fun store header =>
        if isSetCookie header then
          store.store crates header.2 host url.path (isTrustworthyOrigin url) now
        else store) (self.purgeExpired now)

end CookieStore

/-! ## Histories -/

/-- A call of a jar. -/
inductive Call (τ : Type) where
  | storeResponseAt (url : HttpUrl) (headers : List (Text × Text)) (now : τ)
  | requestHeaderAt (url : HttpUrl) (now : τ)

/-- The store after a call. -/
def CookieStore.call (store : CookieStore τ) : Call τ → CookieStore τ
  | .storeResponseAt url headers now => store.storeResponseAt crates url headers now
  | .requestHeaderAt url now => (store.requestHeaderAt crates url now).2

/-- The store after a history of calls. -/
def CookieStore.after (calls : List (Call τ)) : CookieStore τ :=
  calls.foldl (CookieStore.call crates) CookieStore.default

end Crates

end FogHttp.Cookies
