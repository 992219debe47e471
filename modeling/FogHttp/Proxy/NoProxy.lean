import FogHttp.Lib.IpAddress

/-!
# NO_PROXY

`NoProxyMatcher.parse` reads the tokens of a NO_PROXY value as rules, or raises on the
first token that it rejects.  A target goes past the proxy when a rule matches it.

A text is folded before it is compared: `str.lower`, and no dots at the end.  A rule
also loses the marker in front of a domain, `*.` or `.`, and a target the brackets of an
IPv6 address.

What `str` takes from the Unicode tables is an input.
-/

namespace FogHttp.Proxy

open Lib

/-! ## Texts -/

/-- What `str` and `int` take from the Unicode tables. -/
structure StrTables where
  /-- `str.lower`. -/
  lower : Text → Text
  /-- `str.isdigit` of one character. -/
  isDigit : Char → Bool
  /-- The value of a decimal digit. -/
  decimal : Char → Option Nat

/-- `str.isspace` of one character. -/
def isSpace (c : Char) : Bool := isWhitespace c || (0x1c ≤ c.toNat && c.toNat ≤ 0x1f)

/-- `text.strip()`. -/
def strip (text : Text) : Text := trimMatches isSpace text

/-- `text.rstrip(".")`. -/
def rstripDots (text : Text) : Text := text.rdropWhile (· == '.')

/-- `text.startswith(start)`. -/
def startsWith (start text : Text) : Bool := start.isPrefixOf text

/-- `text.removeprefix(start)`. -/
def removePrefix (start text : Text) : Text :=
  if startsWith start text then text.drop start.length else text

/-- The `ValueError` of the package, with its message, and the one of `int`. -/
inductive ValueError where
  | noProxy (message : Text)
  | int
deriving DecidableEq, Repr

/-- The default of `sys.set_int_max_str_digits`. -/
def intMaxStrDigits : Nat := 4300

/-- `int(value)` of characters that are digits. -/
def intValue (tables : StrTables) (value : Text) : Except ValueError Nat :=
  if intMaxStrDigits < value.length then .error .int
  else
    match value.mapM tables.decimal with
    | some digits => .ok (Nat.ofDigits 10 digits.reverse)
    | none => .error .int

/-! ## Tokens -/

def minPort : Nat := 1

def maxPort : Nat := 65535

/-- `raise ValueError(message)`. -/
def raise {α : Type} (message : String) : Except ValueError α := .error (.noProxy message.toList)

/-- `_parse_no_proxy_port`. -/
def parseNoProxyPort (tables : StrTables) (value : Text) : Except ValueError Nat :=
  if value = [] ∨ !value.all tables.isDigit then raise "NO_PROXY port must be an integer"
  else do
    let port ← intValue tables value
    if port < minPort ∨ maxPort < port then
      raise "NO_PROXY port must be between 1 and 65535"
    else .ok port

/-- `_validate_bracketed_ipv6_host`. -/
def validateBracketedIpv6Host (host : Text) : Except ValueError Unit :=
  if (ipv6Address host).isSome then .ok ()
  else raise "NO_PROXY bracketed host must be an IPv6 address"

/-- `_split_bracketed_host_port`, behind the opening bracket. -/
def splitBracketedHostPort (tables : StrTables) (value : Text) :
    Except ValueError (Text × Option Nat) :=
  match splitOnce ']' value with
  | none => raise "NO_PROXY IPv6 rule is missing closing bracket"
  | some (host, suffix) => do
      validateBracketedIpv6Host host
      match suffix with
      | [] => .ok (host, none)
      | c :: portText =>
          if c ≠ ':' then raise "NO_PROXY IPv6 rule suffix is invalid"
          else do
            let port ← parseNoProxyPort tables portText
            .ok (host, some port)

/-- `split_no_proxy_host_port`. -/
def splitNoProxyHostPort (tables : StrTables) (value : Text) :
    Except ValueError (Text × Option Nat) :=
  match value with
  | '[' :: rest => splitBracketedHostPort tables rest
  | _ =>
      if value.count ':' = 1 then
        match rsplitOnce ':' value with
        | some (host, portText) => do
            let port ← parseNoProxyPort tables portText
            .ok (host, some port)
        | none => .ok (value, none)
      else .ok (value, none)

/-- A rule's host in lower case, without blanks around it and dots behind it. -/
def foldedRuleHost (tables : StrTables) (value : Text) : Text :=
  rstripDots (tables.lower (strip value))

/-- `normalize_rule_host`. -/
def normalizeRuleHost (tables : StrTables) (value : Text) : Text :=
  removePrefix ['.'] (removePrefix ['*', '.'] (foldedRuleHost tables value))

/-- `normalize_target_host`. -/
def normalizeTargetHost (tables : StrTables) (value : Text) : Text :=
  rstripDots (tables.lower (trimMatches (fun c => c == '[' || c == ']') value))

/-- `is_ip_literal`. -/
def isIpLiteral (value : Text) : Bool := (ipAddress value).isSome

/-! ## Rules -/

/-- `ProxyTarget`. -/
structure ProxyTarget where
  scheme : Text
  host : Text
  port : Nat
deriving DecidableEq, Repr

/-- `NoProxyRule`. -/
structure NoProxyRule where
  value : Text
  host : Text
  port : Option Nat
  wildcard : Bool
  suffixMatch : Bool
  ipLiteral : Bool
deriving DecidableEq, Repr

/-- `_is_suffix_rule`. -/
def isSuffixRule (rawHost normalizedHost : Text) : Bool :=
  (startsWith ['.'] rawHost || startsWith ['*', '.'] rawHost) || normalizedHost.contains '.'

/-- The host without one marker, in `_is_malformed_rule_host`. -/
def withoutMarker (host : Text) : Text :=
  if startsWith ['*', '.'] host then removePrefix ['*', '.'] host
  else if startsWith ['.'] host then removePrefix ['.'] host
  else host

/-- `_is_malformed_rule_host`. -/
def isMalformedRuleHost (tables : StrTables) (rawHost : Text) : Bool :=
  let host := withoutMarker (foldedRuleHost tables rawHost)
  host.isEmpty || host == ['*'] || host.contains '*' || (host.splitOn '.').contains []

namespace NoProxyRule

/-- `NoProxyRule.parse`. -/
def parse (tables : StrTables) (value : Text) : Except ValueError (Option NoProxyRule) :=
  let strippedValue := strip value
  if strippedValue = [] then .ok none
  else if strippedValue = ['*'] then
    .ok (some
      { value := strippedValue
        host := []
        port := none
        wildcard := true
        suffixMatch := false
        ipLiteral := false })
  else do
    let (host, port) ← splitNoProxyHostPort tables strippedValue
    let normalizedHost := normalizeRuleHost tables host
    if '/' ∈ host then raise "NO_PROXY CIDR rules are not supported"
    else if isMalformedRuleHost tables host then raise "NO_PROXY host is invalid"
    else
      .ok (some
        { value := strippedValue
          host := normalizedHost
          port
          wildcard := false
          suffixMatch := isSuffixRule host normalizedHost
          ipLiteral := isIpLiteral normalizedHost })

/-- `NoProxyRule._matches_host`. -/
def matchesHost (rule : NoProxyRule) (targetHost : Text) : Bool :=
  if rule.ipLiteral || isIpLiteral targetHost || !rule.suffixMatch then targetHost == rule.host
  else targetHost == rule.host || ('.' :: rule.host).isSuffixOf targetHost

/-- `NoProxyRule.matches`. -/
def matchesTarget (tables : StrTables) (rule : NoProxyRule) (target : ProxyTarget) : Bool :=
  if rule.wildcard then true
  else if rule.port.isSome && rule.port != some target.port then false
  else rule.matchesHost (normalizeTargetHost tables target.host)

end NoProxyRule

/-- `NoProxyMatcher`. -/
structure NoProxyMatcher where
  rules : List NoProxyRule
deriving DecidableEq, Repr

namespace NoProxyMatcher

/-- `NoProxyMatcher.empty`. -/
def empty : NoProxyMatcher := ⟨[]⟩

/-- `NoProxyMatcher.parse`. -/
def parse (tables : StrTables) (value : Option Text) : Except ValueError NoProxyMatcher :=
  match value with
  | none => .ok empty
  | some value =>
      if value = [] then .ok empty
      else do
        let rules ← (value.splitOn ',').mapM (NoProxyRule.parse tables)
        .ok ⟨rules.filterMap id⟩

/-- `NoProxyMatcher.find_match`. -/
def findMatch (tables : StrTables) (matcher : NoProxyMatcher) (target : ProxyTarget) :
    Option NoProxyRule :=
  matcher.rules.find? fun rule => rule.matchesTarget tables target

/-- `NoProxyMatcher.matches`. -/
def matchesTarget (tables : StrTables) (matcher : NoProxyMatcher) (target : ProxyTarget) : Bool :=
  (matcher.findMatch tables target).isSome

end NoProxyMatcher

end FogHttp.Proxy
