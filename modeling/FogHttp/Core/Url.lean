import FogHttp.Lib.Text

/-!
# HTTP URLs

`HttpUrl` wraps a URL of the `url` crate that passed two checks: its scheme is
`http` or `https`, and it has a host.  The two facts are fields, so no later
proof has to establish them again and the `expect` calls of the source cannot
fail.

The `url` crate itself is not part of the repository.  `Url` lists the
components its accessors return, and `UrlCrate` carries its two parsers.  No
result depends on how these parse.

`HttpUrl.origin` writes the slice from `Position::BeforeHost` to
`Position::AfterPort`: the host text and, when the URL spells a port that is
not the default of its scheme, a colon and that port.
-/

namespace FogHttp

open Lib

/-- A parsed URL of the `url` crate, component by component. -/
structure Url where
  scheme : Text
  username : Text
  password : Option Text
  hostStr : Option Text
  /-- `Url::port`: `none` when the URL uses the default port of its scheme. -/
  port : Option Nat
  path : Text
  query : Option Text
  fragment : Option Text
deriving DecidableEq, Repr

/-- The serialization of a URL with an authority, as `Url::as_str` returns
it. -/
def Url.asStr (url : Url) : Text :=
  let userinfo : Text :=
    match url.password with
    | some password => url.username ++ ":" ++ password ++ "@"
    | none => if url.username = [] then [] else url.username ++ "@"
  let port : Text := match url.port with
    | some port => ":" ++ decimal port
    | none => []
  let query : Text := match url.query with
    | some query => "?" ++ query
    | none => []
  let fragment : Text := match url.fragment with
    | some fragment => "#" ++ fragment
    | none => []
  url.scheme ++ "://" ++ userinfo ++ url.hostStr.getD [] ++ port ++ url.path ++ query ++
    fragment

/-- The parsers of the `url` crate. -/
structure UrlCrate where
  /-- `Url::parse`. -/
  parse : Text → Except Text Url
  /-- `Url::join`. -/
  join : Url → Text → Except Text Url

/-- `scheme::is_supported`. -/
def isSupported (scheme : Text) : Bool :=
  scheme == ("http" : Text) || scheme == ("https" : Text)

/-- A URL that `HttpUrl::parse` accepted. -/
structure HttpUrl where
  inner : Url
  supported : isSupported inner.scheme = true
  hasHost : inner.hostStr.isSome = true
deriving DecidableEq

namespace HttpUrl

/-- `HttpUrl::parse`. -/
def parse (crate : UrlCrate) (url : Text) : Except Text HttpUrl :=
  match crate.parse url with
  | .error err => .error ("URL is invalid: " ++ err)
  | .ok inner =>
      if supported : isSupported inner.scheme = true then
        if hasHost : inner.hostStr.isSome = true then
          .ok ⟨inner, supported, hasHost⟩
        else .error "URL must include a host"
      else .error "URL scheme must be http or https"

/-- `HttpUrl::as_str`. -/
def asStr (url : HttpUrl) : Text := url.inner.asStr

/-- `HttpUrl::scheme`. -/
def scheme (url : HttpUrl) : Text := url.inner.scheme

/-- `Url::host_str`, which is present by `hasHost`. -/
def hostStr (url : HttpUrl) : Text := url.inner.hostStr.get url.hasHost

/-- `HttpUrl::host`: the host without the brackets of an IPv6 literal. -/
def host (url : HttpUrl) : Text :=
  ((stripPrefixChar '[' url.hostStr).bind (stripSuffixChar ']')).getD url.hostStr

/-- `HttpUrl::port`: the spelled port or the default of the scheme. -/
def port (url : HttpUrl) : Nat :=
  url.inner.port.getD (if url.scheme = ("https" : Text) then 443 else 80)

/-- `HttpUrl::path`. -/
def path (url : HttpUrl) : Text := url.inner.path

/-- `HttpUrl::is_origin_only`. -/
def isOriginOnly (url : HttpUrl) : Bool :=
  url.inner.username.isEmpty && url.inner.password.isNone &&
    (url.inner.path == [] || url.inner.path == ("/" : Text)) &&
    url.inner.query.isNone && url.inner.fragment.isNone

/-- `HttpUrl::origin`. -/
def origin (url : HttpUrl) : Text :=
  url.scheme ++ "://" ++ url.hostStr ++
    match url.inner.port with
    | some port => ":" ++ decimal port
    | none => []

/-- `HttpUrl::join`: the joined URL is serialized and parsed again. -/
def join (crate : UrlCrate) (url : HttpUrl) (location : Text) : Except Text HttpUrl :=
  match crate.join url.inner location with
  | .error err => .error ("URL is invalid: " ++ err)
  | .ok inner => parse crate inner.asStr

/-- `HttpUrl::is_same_origin`: scheme, host and effective port agree. -/
def isSameOrigin (url other : HttpUrl) : Bool :=
  url.scheme == other.scheme && url.inner.hostStr == other.inner.hostStr &&
    url.port == other.port

end HttpUrl

end FogHttp
