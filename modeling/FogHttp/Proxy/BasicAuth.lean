import FogHttp.Lib.Base64
import FogHttp.Proxy.Tunnel
import FogHttp.Redaction.Quote

/-!
# Basic credentials

The user gives credentials for an origin as a tuple, and credentials for a proxy in the URL
of the proxy.  Both become a header value of the Basic scheme, and the one for a proxy goes
into every CONNECT request as a line of its own.

* `basicAuthorization` is the value for an origin, with all its error paths.
* `userinfo`, `proxyCredentials` and `basicProxyAuthorization` are the way from the netloc
  of a proxy URL to the value for the proxy, and `parseAuthorization` is the check of the
  transport.
* `readCredentials` is what a server reads.  It cuts at the first colon, and an origin is
  never sent a name with a colon.  A proxy may be, because a colon can be written `%3A`.

A string has no lone surrogates here.  With one, `str.encode` raises.  `HeaderValue` of the
`http` crate is a parameter.
-/

namespace FogHttp.Proxy

open Lib
open Redaction (utf8Encode unquote quote)

/-! ## The header values -/

/-- `f"Basic {token}"`. -/
def basicHeader (credentials : Text) : Text :=
  "Basic ".toList ++ Base64.encode (utf8Encode credentials)

structure ProxyCredentials where
  username : Text
  password : Option Text
deriving DecidableEq

/-- The `username` and the `password` of a `SplitResult`. -/
def userinfo (netloc : Text) : Option Text × Option Text :=
  match rsplitOnce '@' netloc with
  | none => (none, none)
  | some (info, _) =>
      match splitOnce ':' info with
      | none => (some info, none)
      | some (username, password) => (some username, some password)

/-- `_proxy_credentials`. -/
def proxyCredentials (username password : Option Text) : Option ProxyCredentials :=
  if username = none ∧ password = none then none
  else some ⟨(username.map unquote).getD [], password.map unquote⟩

/-- `basic_proxy_authorization` of a proxy with these credentials. -/
def basicProxyAuthorization (credentials : Option ProxyCredentials) : Option Text :=
  credentials.map fun credentials =>
    basicHeader (credentials.username ++ ':' :: credentials.password.getD [])

/-- Header values of the `http` crate. -/
structure HeaderValueCrate where
  /-- `HeaderValue::from_str` succeeds. -/
  fromStr : Text → Bool
  /-- `HeaderValue::to_str` succeeds on such a value. -/
  toStr : Text → Bool

/-- A printable ASCII character that is not a space. -/
def isPlain (c : Char) : Bool := 32 < c.toNat && c.toNat < 127

namespace BasicAuthExample

/-- The checks of the `http` crate, on characters. -/
def crate : HeaderValueCrate where
  fromStr value := value.all fun c => c == '\t' || (' ' ≤ c && c != '\x7f')
  toStr value := value.all fun c => c == '\t' || (' ' ≤ c && c ≤ '~')

end BasicAuthExample

end FogHttp.Proxy
