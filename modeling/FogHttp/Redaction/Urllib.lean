import FogHttp.Lib.Text

/-!
# The functions of `urllib.parse`

`urlsplit` drops what a browser drops from a URL, then splits at the delimiters
from the left.  `urlunsplit` joins the components again.  `unquote_plus` decodes
a component of a query: percent escapes are bytes, and the bytes of a run of
ASCII characters are UTF-8, with U+FFFD for what is not.

`urlsplit` also checks the netloc: its brackets, the address between them, and
the characters that normalise to a delimiter.  The checks are a parameter of the
model, and a netloc that they reject makes no result.  What is said of two URLs is
said of URLs whose netlocs they accept.
-/

namespace FogHttp.Redaction

open Lib

/-! ## Percent escapes -/

/-- The value of a hexadecimal digit. -/
def hexValue (c : Char) : Option Nat :=
  if '0' ≤ c ∧ c ≤ '9' then some (c.toNat - '0'.toNat)
  else if 'a' ≤ c ∧ c ≤ 'f' then some (c.toNat - 'a'.toNat + 10)
  else if 'A' ≤ c ∧ c ≤ 'F' then some (c.toNat - 'A'.toNat + 10)
  else none

/-- `_unquote_impl` of ASCII text. -/
def unquoteImpl : Text → List Nat
  | '%' :: high :: low :: rest =>
      match hexValue high, hexValue low with
      | some high, some low => (16 * high + low) :: unquoteImpl rest
      | _, _ => '%'.toNat :: unquoteImpl (high :: low :: rest)
  | c :: rest => c.toNat :: unquoteImpl rest
  | [] => []

/-- What is known of an unfinished UTF-8 sequence: how many bytes are missing, the bounds of the
next one and the value so far. -/
structure Utf8Pending where
  missing : Nat
  lower : Nat
  upper : Nat
  value : Nat

/-- `\ufffd`. -/
def replacementChar : Char := '\uFFFD'

/-- A byte in front of which no sequence is open. -/
def utf8Start (byte : Nat) : Text × Option Utf8Pending :=
  if byte < 0x80 then ([Char.ofNat byte], none)
  else if 0xC2 ≤ byte ∧ byte ≤ 0xDF then ([], some ⟨1, 0x80, 0xBF, byte - 0xC0⟩)
  else if 0xE0 ≤ byte ∧ byte ≤ 0xEF then
    ([], some ⟨2, if byte = 0xE0 then 0xA0 else 0x80, if byte = 0xED then 0x9F else 0xBF,
      byte - 0xE0⟩)
  else if 0xF0 ≤ byte ∧ byte ≤ 0xF4 then
    ([], some ⟨3, if byte = 0xF0 then 0x90 else 0x80, if byte = 0xF4 then 0x8F else 0xBF,
      byte - 0xF0⟩)
  else ([replacementChar], none)

/-- `bytes.decode("utf-8", "replace")` behind an unfinished sequence. -/
def utf8Decode : Option Utf8Pending → List Nat → Text
  | none, [] => []
  | some _, [] => [replacementChar]
  | none, byte :: rest => (utf8Start byte).1 ++ utf8Decode (utf8Start byte).2 rest
  | some pending, byte :: rest =>
      if pending.lower ≤ byte ∧ byte ≤ pending.upper then
        let value := pending.value * 64 + (byte - 0x80)
        if pending.missing = 1 then Char.ofNat value :: utf8Decode none rest
        else utf8Decode (some ⟨pending.missing - 1, 0x80, 0xBF, value⟩) rest
      else replacementChar :: ((utf8Start byte).1 ++ utf8Decode (utf8Start byte).2 rest)

/-- `_generate_unquoted_parts`, joined, behind a run of ASCII characters. -/
def generateUnquotedParts (run : Text) : Text → Text
  | [] => utf8Decode none (unquoteImpl run)
  | c :: rest =>
      if c.toNat < 0x80 then generateUnquotedParts (run ++ [c]) rest
      else utf8Decode none (unquoteImpl run) ++ c :: generateUnquotedParts [] rest

/-- `unquote`. -/
def unquote (text : Text) : Text :=
  if '%' ∉ text then text else generateUnquotedParts [] text

/-- `unquote_plus`. -/
def unquotePlus (text : Text) : Text := unquote (text.map fun c => if c = '+' then ' ' else c)

example : unquotePlus "%61p%69+%E2%82%AC%ff%4".toList = "api €\uFFFD%4".toList := by decide

/-! ## Splitting -/

/-- `SplitResult`. -/
structure SplitResult where
  scheme : Text
  netloc : Text
  path : Text
  query : Text
  fragment : Text
deriving DecidableEq

/-- `scheme_chars`. -/
def isSchemeChar (c : Char) : Bool := isAsciiAlphanumeric c || c == '+' || c == '-' || c == '.'

/-- `_UNSAFE_URL_BYTES_TO_REMOVE`. -/
def isUnsafeUrlByte (c : Char) : Bool := c == '\t' || c == '\r' || c == '\n'

/-- What `urlsplit` reads: no control and no blank in front, and no tab or line break. -/
def stripUrl (url : Text) : Text :=
  (url.dropWhile fun c => c.toNat ≤ 0x20).filter fun c => !isUnsafeUrlByte c

/-- The scheme in front of the first colon, in lower case, and the text behind it. -/
def splitScheme (url : Text) : Text × Text :=
  match splitOnce ':' url with
  | some (scheme, rest) =>
      match scheme with
      | first :: _ =>
          if first.isAlpha && scheme.all isSchemeChar then (toAsciiLowercase scheme, rest)
          else ([], url)
      | [] => ([], url)
  | none => ([], url)

/-- A character before the path, the query and the fragment. -/
def isNetlocChar (c : Char) : Bool := c != '/' && c != '?' && c != '#'

/-- `_splitnetloc`, when the URL has a netloc. -/
def splitNetloc : Text → Text × Text
  | '/' :: '/' :: rest => (rest.takeWhile isNetlocChar, rest.dropWhile isNetlocChar)
  | url => ([], url)

/-- The text before the first separator and behind it, if there is one. -/
def splitTail (sep : Char) (url : Text) : Text × Text := (splitOnce sep url).getD (url, [])

/-- `urlsplit`, with its checks of the netloc.  `none` is its `ValueError`. -/
def urlsplit (acceptsNetloc : Text → Bool) (url : Text) : Option SplitResult :=
  let (scheme, url) := splitScheme (stripUrl url)
  let (netloc, url) := splitNetloc url
  let (url, fragment) := splitTail '#' url
  let (path, query) := splitTail '?' url
  if acceptsNetloc netloc then some ⟨scheme, netloc, path, query, fragment⟩ else none

/-- `uses_netloc`. -/
def usesNetloc : List Text :=
  ["", "ftp", "http", "gopher", "nntp", "telnet", "imap", "wais", "file", "mms", "https", "shttp",
    "snews", "prospero", "rtsp", "rtsps", "rtspu", "rsync", "svn", "svn+ssh", "sftp", "nfs", "git",
    "git+ssh", "ws", "wss"]

/-- `urlunsplit`. -/
def urlunsplit (parts : SplitResult) : Text :=
  let url :=
    if parts.netloc ≠ [] ∨ (parts.scheme ≠ [] ∧ parts.scheme ∈ usesNetloc) ∨
        parts.path.take 2 = ['/', '/'] then
      let path :=
        if parts.path ≠ [] ∧ parts.path.take 1 ≠ ['/'] then '/' :: parts.path else parts.path
      '/' :: '/' :: (parts.netloc ++ path)
    else parts.path
  let url := if parts.scheme ≠ [] then parts.scheme ++ ':' :: url else url
  let url := if parts.query ≠ [] then url ++ '?' :: parts.query else url
  if parts.fragment ≠ [] then url ++ '#' :: parts.fragment else url

/-- Only the fragment of the result comes from the fragment. -/
theorem urlunsplit_fragment_eq_iff (parts : SplitResult) (left right : Text) :
    urlunsplit { parts with fragment := left } = urlunsplit { parts with fragment := right } ↔
      left = right := by
  unfold urlunsplit
  dsimp only
  constructor
  · intro h
    by_cases hleft : left = []
    · by_cases hright : right = []
      · rw [hleft, hright]
      · simp [hleft, hright] at h
    · by_cases hright : right = []
      · simp [hleft, hright] at h
      · rw [if_pos hleft, if_pos hright] at h
        simpa using List.append_cancel_left h
  · intro hsame
    subst hsame
    rfl

end FogHttp.Redaction
