import FogHttp.Lib.Delimiter
import FogHttp.Redaction.Urllib

/-!
# Redaction of URLs

`redact_url` keeps the shape of a URL and hides its userinfo and the values of
its sensitive parameters.  A parameter is a piece of the query between two `&`,
and its key is what stands in front of the first `=`.

A fragment with a `?` is read as a path and a query, and the path is kept as it
is.  Any other fragment is read as a query.
-/

namespace FogHttp.Redaction

open Lib

def redactedValue : Text := "<redacted>"

/-- `SENSITIVE_QUERY_PARAM_NAMES`. -/
def sensitiveQueryParamNames : List Text :=
  ["access_token", "api_key", "apikey", "auth", "authorization", "bearer", "client_secret",
    "credential", "id_token", "key", "password", "passwd", "pwd", "refresh_token", "secret",
    "session", "session_id", "sessionid", "sig", "signature", "token"]

/-- `SENSITIVE_QUERY_PARAM_NAME_SUFFIXES`. -/
def sensitiveQueryParamNameSuffixes : List Text :=
  ["_access_token", "_auth_token", "_credential", "_security_token", "_session_token",
    "_signature"]

/-- `str.lower` of a character that may stand in a sensitive name.  The Kelvin sign is the one
character outside of ASCII with an ASCII lower case.  The others stay: they are in no name. -/
def lowerChar (c : Char) : Char := if c = '\u212A' then 'k' else c.toLower

/-- `_normalized_secret_name`. -/
def normalizedSecretName (name : Text) : Text :=
  name.map fun c => if lowerChar c = '-' then '_' else lowerChar c

/-- The key of a parameter: `part.partition("=")[0]`. -/
def paramKey (part : Text) : Text := (splitTail '=' part).1

/-- The test of `_redact_query_part` on the name of a parameter. -/
def isSensitiveName (name : Text) : Bool :=
  sensitiveQueryParamNames.contains name ||
    sensitiveQueryParamNameSuffixes.any fun suffix => suffix.isSuffixOf name

/-- A key whose value is hidden. -/
def isSensitiveKey (key : Text) : Bool := isSensitiveName (normalizedSecretName (unquotePlus key))

/-- `_redact_query_part`. -/
def redactQueryPart (part : Text) : Text :=
  if isSensitiveKey (paramKey part) then paramKey part ++ '=' :: redactedValue else part

/-- `_redact_query`. -/
def redactQuery (query : Text) : Text :=
  if query = [] then query
  else List.intercalate ['&'] ((query.splitOn '&').map redactQueryPart)

/-- `_redact_fragment`. -/
def redactFragment (fragment : Text) : Text :=
  if fragment = [] then fragment
  else
    match splitOnce '?' fragment with
    | some (path, query) => path ++ '?' :: redactQuery query
    | none => redactQuery fragment

/-- `_redact_netloc`. -/
def redactNetloc (netloc : Text) : Text :=
  match rsplitOnce '@' netloc with
  | none => netloc
  | some (_, hostPort) => redactedValue ++ '@' :: hostPort

/-- `redact_url`. -/
def redactUrl (acceptsNetloc : Text → Bool) (url : Text) : Option Text :=
  (urlsplit acceptsNetloc url).map fun parts =>
    urlunsplit ⟨parts.scheme, redactNetloc parts.netloc, parts.path, redactQuery parts.query,
      redactFragment parts.fragment⟩

/-- `URL.__repr__`, with the name of the class and the `repr` of a string. -/
def reprUrl (acceptsNetloc : Text → Bool) (className : Text) (repr : Text → Text) (value : Text) :
    Option Text :=
  (redactUrl acceptsNetloc value).map fun redacted => className ++ '(' :: (repr redacted ++ [')'])

example : redactUrl (fun _ => true)
    "https://u:p@example.com/a?access%5Ftoken=1&q=2#/cb?token=3&section=4".toList =
      some ("https://<redacted>@example.com/a?access%5Ftoken=<redacted>&q=2" ++
        "#/cb?token=<redacted>&section=4").toList := by decide

/-! ## Parameters -/

theorem splitTail_append_cons {sep : Char} {before : Text} (h : sep ∉ before) (after : Text) :
    splitTail sep (before ++ sep :: after) = (before, after) := by
  rw [splitTail, splitOnce_append_cons h]
  rfl

theorem splitTail_of_not_mem {sep : Char} {text : Text} (h : sep ∉ text) :
    splitTail sep text = (text, []) := by
  rw [splitTail, splitOnce_of_not_mem h]
  rfl

/-- The key of a parameter. -/
theorem paramKey_append_cons {key : Text} (h : '=' ∉ key) (value : Text) :
    paramKey (key ++ '=' :: value) = key := by
  rw [paramKey, splitTail_append_cons h]

theorem paramKey_spec (part : Text) : '=' ∉ paramKey part ∧ paramKey part <+: part := by
  unfold paramKey splitTail
  cases hsplit : splitOnce '=' part with
  | none => exact ⟨splitOnce_eq_none hsplit, List.prefix_refl part⟩
  | some pieces =>
      obtain ⟨htext, hkey⟩ := splitOnce_eq_some hsplit
      exact ⟨hkey, htext ▸ List.prefix_append _ _⟩

/-- Parameters look the same when they are, or when they have the same sensitive key. -/
theorem redactQueryPart_eq_iff (left right : Text) :
    redactQueryPart left = redactQueryPart right ↔
      left = right ∨ (paramKey left = paramKey right ∧ isSensitiveKey (paramKey left) = true) := by
  unfold redactQueryPart
  by_cases hleft : isSensitiveKey (paramKey left) = true
  · rw [if_pos hleft]
    by_cases hright : isSensitiveKey (paramKey right) = true
    · rw [if_pos hright]
      constructor
      · exact fun h => .inr ⟨List.append_cancel_right h, hleft⟩
      · intro hsame
        rcases hsame with rfl | ⟨hkey, -⟩
        · rfl
        · rw [hkey]
    · rw [if_neg hright]
      constructor
      · intro h
        have hkey := paramKey_append_cons (paramKey_spec left).1 redactedValue
        rw [h] at hkey
        exact absurd (hkey ▸ hleft) hright
      · intro hsame
        rcases hsame with rfl | ⟨hkey, -⟩
        · exact absurd hleft hright
        · exact absurd (hkey ▸ hleft) hright
  · rw [if_neg hleft]
    by_cases hright : isSensitiveKey (paramKey right) = true
    · rw [if_pos hright]
      constructor
      · intro h
        have hkey := paramKey_append_cons (paramKey_spec right).1 redactedValue
        rw [← h] at hkey
        exact absurd (hkey ▸ hright) hleft
      · intro hsame
        rcases hsame with rfl | ⟨-, hsensitive⟩
        · exact absurd hright hleft
        · exact absurd hsensitive hleft
    · rw [if_neg hright]
      exact ⟨.inl, fun h => h.resolve_right fun hkey => hleft hkey.2⟩

/-- Redaction adds an equals sign and the text for a hidden value only. -/
theorem not_mem_redactQueryPart {c : Char} {part : Text} (hc : c ∉ '=' :: redactedValue)
    (hpart : c ∉ part) : c ∉ redactQueryPart part := by
  unfold redactQueryPart
  split
  · rw [List.mem_append, not_or]
    exact ⟨fun hkey => hpart ((paramKey_spec part).2.subset hkey), hc⟩
  · exact hpart

/-! ## Queries -/

/-- The redacted parameters of a query. -/
def redactedParts (query : Text) : List Text := (query.splitOn '&').map redactQueryPart

/-- The empty query has one part, which is not sensitive. -/
theorem redactQuery_eq (query : Text) :
    redactQuery query = List.intercalate ['&'] (redactedParts query) := by
  unfold redactQuery
  split
  · rename_i hempty
    subst hempty
    decide
  · rfl

/-- Queries look the same when their parameters do. -/
theorem redactQuery_eq_iff (left right : Text) :
    redactQuery left = redactQuery right ↔ redactedParts left = redactedParts right := by
  have hsplit : ∀ query, (redactQuery query).splitOn '&' = redactedParts query := by
    intro query
    rw [redactQuery_eq]
    refine List.splitOn_intercalate '&' (fun part hmem => ?_) ?_
    · obtain ⟨original, horiginal, rfl⟩ := List.mem_map.mp hmem
      exact not_mem_redactQueryPart (by decide) (not_mem_of_mem_splitOn horiginal)
    · rw [redactedParts, ne_eq, List.map_eq_nil_iff]
      exact List.splitOn_ne_nil '&' query
  constructor
  · intro h
    rw [← hsplit left, ← hsplit right, h]
  · intro h
    rw [redactQuery_eq, redactQuery_eq, h]

/-- Redaction of a query adds no question mark. -/
theorem not_mem_redactQuery {query : Text} (h : '?' ∉ query) : '?' ∉ redactQuery query := by
  rw [redactQuery_eq]
  intro hmem
  rcases mem_intercalate hmem with hsep | ⟨part, hpart, hc⟩
  · exact absurd hsep (by decide)
  · obtain ⟨original, horiginal, rfl⟩ := List.mem_map.mp hpart
    refine not_mem_redactQueryPart (by decide) (fun hc => ?_) hc
    exact h (mem_of_mem_splitOn horiginal hc)

/-! ## Fragments -/

theorem redactFragment_of_mem {path : Text} (h : '?' ∉ path) (query : Text) :
    redactFragment (path ++ '?' :: query) = path ++ '?' :: redactQuery query := by
  rw [redactFragment, if_neg (by simp), splitOnce_append_cons h]

theorem redactFragment_of_not_mem {fragment : Text} (h : '?' ∉ fragment) :
    redactFragment fragment = redactQuery fragment := by
  unfold redactFragment
  split
  · rename_i hempty
    subst hempty
    rfl
  · rw [splitOnce_of_not_mem h]

end FogHttp.Redaction
