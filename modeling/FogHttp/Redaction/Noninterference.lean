import FogHttp.Redaction.Redact
import Mathlib.Data.List.Forall2

/-!
# Redaction hides what is sensitive

Two URLs are the same but for their secrets when they differ in the content of
their userinfo and in values of parameters with a sensitive key.  A parameter of
the fragment is a piece of the whole fragment, or of the query behind its `?`.

Redaction makes two such URLs equal, up to one case.  `redact_fragment` cuts at
the first `?`, wherever it stands.  If it stands in or behind a sensitive value,
that value is read as a path and kept.  `HiddenFragment` excludes exactly the
differences that show there.
-/

namespace FogHttp.Redaction

open Lib

/-! ## URLs -/

def isHttpScheme (scheme : Text) : Bool :=
  toAsciiLowercase scheme == ("http" : Text) || toAsciiLowercase scheme == ("https" : Text)

/-- A URL with the scheme `http` or `https`, by its components. -/
structure UrlText where
  scheme : Text
  userinfo : Option Text
  hostPort : Text
  path : Text
  query : Option Text
  fragment : Option Text
  isHttp : isHttpScheme scheme = true
  userinfoChars : (userinfo.getD []).all isNetlocChar = true
  hostPortChars : hostPort.all (fun c => isNetlocChar c && c != '@') = true
  pathStart : path = [] ∨ path.head? = some '/'
  pathChars : path.all (fun c => c != '?' && c != '#') = true
  queryChars : '#' ∉ query.getD []

namespace UrlText

def netloc (url : UrlText) : Text :=
  match url.userinfo with
  | some userinfo => userinfo ++ '@' :: url.hostPort
  | none => url.hostPort

def queryText (url : UrlText) : Text :=
  match url.query with
  | some query => '?' :: query
  | none => []

def fragmentText (url : UrlText) : Text :=
  match url.fragment with
  | some fragment => '#' :: fragment
  | none => []

/-- What stands behind the netloc. -/
def behind (url : UrlText) : Text := url.path ++ url.queryText ++ url.fragmentText

def text (url : UrlText) : Text :=
  url.scheme ++ ':' :: '/' :: '/' :: (url.netloc ++ url.behind)

/-- A string of the URL, with blanks in front or tabs and line breaks in it. -/
def WrittenAs (url : UrlText) (value : Text) : Prop := stripUrl value = url.text

instance (url : UrlText) (value : Text) : Decidable (url.WrittenAs value) :=
  inferInstanceAs (Decidable (_ = _))

end UrlText

/-- Parameters that are the same, up to the value behind a sensitive key. -/
def SamePart (left right : Text) : Prop :=
  left = right ∨ ∃ key leftValue rightValue, '=' ∉ key ∧ isSensitiveKey key = true ∧
    left = key ++ '=' :: leftValue ∧ right = key ++ '=' :: rightValue

/-- Queries of the same parameters, up to sensitive values. -/
def SameQuery (left right : Text) : Prop :=
  List.Forall₂ SamePart (left.splitOn '&') (right.splitOn '&')

/-- Fragments of the same parameters, up to sensitive values. -/
def SameFragment (left right : Text) : Prop :=
  SameQuery left right ∨ ∃ path leftQuery rightQuery, '?' ∉ path ∧
    left = path ++ '?' :: leftQuery ∧ right = path ++ '?' :: rightQuery ∧
      SameQuery leftQuery rightQuery

/-- URLs that differ in a userinfo that both have, and in sensitive values only. -/
structure SameButSecrets (left right : UrlText) : Prop where
  scheme : left.scheme = right.scheme
  userinfo : left.userinfo.isSome = right.userinfo.isSome
  hostPort : left.hostPort = right.hostPort
  path : left.path = right.path
  query : Option.Rel SameQuery left.query right.query
  fragment : Option.Rel SameFragment left.fragment right.fragment

/-- The first parameter of a query. -/
def firstPart (query : Text) : Text := (query.splitOn '&').headD []

/-- Parameters that are the same, or have the same sensitive key. -/
def HiddenPart (left right : Text) : Prop :=
  left = right ∨ (paramKey left = paramKey right ∧ isSensitiveKey (paramKey left) = true)

/-- No difference shows at the first `?`: neither fragment has one, or both have the same text in
front of it, and the text between it and the next `&` is hidden or the same. -/
def HiddenFragment (left right : Text) : Prop :=
  match splitOnce '?' left, splitOnce '?' right with
  | none, none => True
  | some (leftPath, leftQuery), some (rightPath, rightQuery) =>
      leftPath = rightPath ∧ HiddenPart (firstPart leftQuery) (firstPart rightQuery)
  | _, _ => False

/-! ## Splitting a URL -/

theorem isAlpha_of_toLower {c : Char} (h : c.toLower.isLower = true) : c.isAlpha = true := by
  change (c.isUpper || c.isLower) = true
  rw [Bool.or_eq_true]
  unfold Char.toLower at h
  split at h
  · rename_i hupper
    exact .inl (decide_eq_true hupper)
  · exact .inr h

theorem isSchemeChar_of_isAlpha {c : Char} (h : c.isAlpha = true) : isSchemeChar c = true := by
  have hbounds : (65 ≤ c.toNat ∧ c.toNat ≤ 90) ∨ (97 ≤ c.toNat ∧ c.toNat ≤ 122) := by
    change (decide (_ ∧ _) || decide (97 ≤ c.toNat) && decide (c.toNat ≤ 122)) = true at h
    rw [Bool.or_eq_true, Bool.and_eq_true, decide_eq_true_eq, decide_eq_true_eq,
      decide_eq_true_eq] at h
    exact h
  have halphanumeric : isAsciiAlphanumeric c = true := by
    simp only [isAsciiAlphanumeric, Bool.or_eq_true, Bool.and_eq_true, decide_eq_true_eq]
    omega
  rw [isSchemeChar, halphanumeric]
  rfl

variable {url : UrlText}

namespace UrlText

theorem toLower_scheme : toAsciiLowercase url.scheme = "http".toList ∨
    toAsciiLowercase url.scheme = "https".toList := by
  simpa [isHttpScheme] using url.isHttp

theorem isAlpha_scheme : ∀ c ∈ url.scheme, c.isAlpha = true := by
  intro c hmem
  have hlower : c.toLower ∈ toAsciiLowercase url.scheme := List.mem_map_of_mem hmem
  have hhttp : ∀ c ∈ "http".toList, c.isLower = true := List.all_eq_true.mp rfl
  have hhttps : ∀ c ∈ "https".toList, c.isLower = true := List.all_eq_true.mp rfl
  refine isAlpha_of_toLower ?_
  rcases url.toLower_scheme with hscheme | hscheme
  · exact hhttp _ (hscheme ▸ hlower)
  · exact hhttps _ (hscheme ▸ hlower)

theorem splitScheme_text : splitScheme url.text =
    (toAsciiLowercase url.scheme, '/' :: '/' :: (url.netloc ++ url.behind)) := by
  have hcolon : ':' ∉ url.scheme := fun hmem => absurd (isAlpha_scheme _ hmem) (by decide)
  have hall : url.scheme.all isSchemeChar = true :=
    List.all_eq_true.mpr fun c hmem => isSchemeChar_of_isAlpha (isAlpha_scheme c hmem)
  unfold splitScheme
  rw [text, splitOnce_append_cons hcolon]
  cases hscheme : url.scheme with
  | nil =>
      rcases url.toLower_scheme with hlower | hlower
      · rw [hscheme] at hlower
        exact absurd hlower (by decide)
      · rw [hscheme] at hlower
        exact absurd hlower (by decide)
  | cons first rest =>
      rw [hscheme] at hall
      have hfirst := isAlpha_scheme first (hscheme ▸ List.mem_cons_self)
      dsimp only
      rw [hfirst, hall, Bool.and_self, if_pos rfl]

theorem isNetlocChar_netloc : ∀ c ∈ url.netloc, isNetlocChar c = true := by
  have huserinfo := List.all_eq_true.mp url.userinfoChars
  have hhostPort : ∀ c ∈ url.hostPort, isNetlocChar c = true := fun c hmem =>
    (Bool.and_eq_true _ _ ▸ List.all_eq_true.mp url.hostPortChars c hmem).1
  intro c hmem
  unfold netloc at hmem
  cases hsome : url.userinfo with
  | none =>
      rw [hsome] at hmem
      exact hhostPort c hmem
  | some userinfo =>
      rw [hsome] at hmem huserinfo
      rcases List.mem_append.mp hmem with hmem | hmem
      · exact huserinfo c hmem
      · rcases List.mem_cons.mp hmem with rfl | hmem
        · decide
        · exact hhostPort c hmem

/-- The path, the query and the fragment start with their delimiters. -/
theorem behind_start : url.behind = [] ∨
    ∃ c rest, url.behind = c :: rest ∧ isNetlocChar c = false := by
  unfold behind
  rcases url.pathStart with hpath | hpath
  · rw [hpath, List.nil_append, queryText, fragmentText]
    cases url.query with
    | some query => exact .inr ⟨'?', _, rfl, rfl⟩
    | none =>
        cases url.fragment with
        | some fragment => exact .inr ⟨'#', _, rfl, rfl⟩
        | none => exact .inl rfl
  · obtain ⟨rest, hrest⟩ := List.head?_eq_some_iff.mp hpath
    rw [hrest]
    exact .inr ⟨'/', _, rfl, rfl⟩

theorem splitNetloc_text :
    splitNetloc ('/' :: '/' :: (url.netloc ++ url.behind)) = (url.netloc, url.behind) := by
  change ((url.netloc ++ url.behind).takeWhile isNetlocChar,
    (url.netloc ++ url.behind).dropWhile isNetlocChar) = _
  rw [List.takeWhile_append_of_pos url.isNetlocChar_netloc,
    List.dropWhile_append_of_pos url.isNetlocChar_netloc]
  rcases url.behind_start with hbehind | ⟨c, rest, hbehind, hc⟩
  · rw [hbehind, List.takeWhile_nil, List.dropWhile_nil, List.append_nil]
  · rw [hbehind, List.takeWhile_cons_of_neg (by simp [hc]),
      List.dropWhile_cons_of_neg (by simp [hc]),
      List.append_nil]

theorem splitTail_behind :
    splitTail '#' url.behind = (url.path ++ url.queryText, url.fragment.getD []) := by
  have hpath : '#' ∉ url.path := fun hmem =>
    absurd (List.all_eq_true.mp url.pathChars _ hmem) (by decide)
  have hfront : '#' ∉ url.path ++ url.queryText := by
    rw [List.mem_append, not_or]
    refine ⟨hpath, ?_⟩
    have hquery := url.queryChars
    unfold queryText
    cases hsome : url.query with
    | none => exact List.not_mem_nil
    | some query =>
        rw [hsome] at hquery
        rw [List.mem_cons, not_or]
        exact ⟨by decide, hquery⟩
  unfold behind fragmentText
  cases url.fragment with
  | none => rw [List.append_nil, splitTail_of_not_mem hfront, Option.getD_none]
  | some fragment => rw [splitTail_append_cons hfront, Option.getD_some]

theorem splitTail_front :
    splitTail '?' (url.path ++ url.queryText) = (url.path, url.query.getD []) := by
  have hpath : '?' ∉ url.path := fun hmem =>
    absurd (List.all_eq_true.mp url.pathChars _ hmem) (by decide)
  unfold queryText
  cases url.query with
  | none => rw [List.append_nil, splitTail_of_not_mem hpath, Option.getD_none]
  | some query => rw [splitTail_append_cons hpath, Option.getD_some]

/-- `urlsplit` finds the components of a URL. -/
theorem urlsplit_text {acceptsNetloc : Text → Bool} {value : Text} (h : url.WrittenAs value)
    (haccepts : acceptsNetloc url.netloc = true) :
    urlsplit acceptsNetloc value = some ⟨toAsciiLowercase url.scheme, url.netloc, url.path,
      url.query.getD [], url.fragment.getD []⟩ := by
  unfold urlsplit
  rw [h, splitScheme_text]
  dsimp only
  rw [splitNetloc_text]
  dsimp only
  rw [splitTail_behind]
  dsimp only
  rw [splitTail_front, if_pos haccepts]

/-- Redaction hides the userinfo. -/
theorem redactNetloc_netloc : redactNetloc url.netloc =
    if url.userinfo.isSome then redactedValue ++ '@' :: url.hostPort else url.hostPort := by
  have hat : '@' ∉ url.hostPort := fun hmem =>
    absurd (List.all_eq_true.mp url.hostPortChars _ hmem) (by decide)
  unfold redactNetloc netloc
  cases url.userinfo with
  | none =>
      rw [rsplitOnce_of_not_mem hat]
      rfl
  | some userinfo =>
      rw [rsplitOnce_append_cons userinfo hat]
      rfl

end UrlText

/-! ## Queries -/

/-- Parameters that are the same up to secrets are redacted to the same text. -/
theorem redactQueryPart_of_same {left right : Text} (h : SamePart left right) :
    redactQueryPart left = redactQueryPart right := by
  rcases h with rfl | ⟨key, leftValue, rightValue, hkey, hsensitive, rfl, rfl⟩
  · rfl
  · rw [redactQueryPart_eq_iff, paramKey_append_cons hkey, paramKey_append_cons hkey]
    exact .inr ⟨rfl, hsensitive⟩

theorem map_redactQueryPart_of_same {lefts rights : List Text}
    (h : List.Forall₂ SamePart lefts rights) :
    lefts.map redactQueryPart = rights.map redactQueryPart := by
  induction h with
  | nil => rfl
  | cons hpart hparts ih => rw [List.map_cons, List.map_cons, redactQueryPart_of_same hpart, ih]

theorem redactQuery_of_same {left right : Text} (h : SameQuery left right) :
    redactQuery left = redactQuery right := by
  rw [redactQuery_eq_iff]
  exact map_redactQueryPart_of_same h

/-- When the other parameters are the same up to secrets, the first ones decide. -/
theorem redactQuery_eq_iff_firstPart {left right : Text}
    (h : List.Forall₂ SamePart (left.splitOn '&').tail (right.splitOn '&').tail) :
    redactQuery left = redactQuery right ↔ HiddenPart (firstPart left) (firstPart right) := by
  rw [redactQuery_eq_iff, redactedParts, redactedParts, firstPart, firstPart]
  obtain ⟨leftPart, leftParts, hleft⟩ := List.exists_cons_of_ne_nil (List.splitOn_ne_nil '&' left)
  obtain ⟨rightPart, rightParts, hright⟩ :=
    List.exists_cons_of_ne_nil (List.splitOn_ne_nil '&' right)
  rw [hleft, hright] at h ⊢
  have htail := map_redactQueryPart_of_same h
  rw [List.tail_cons, List.tail_cons] at htail
  rw [List.map_cons, List.map_cons, List.cons.injEq, redactQueryPart_eq_iff]
  exact and_iff_left htail

/-! ## Fragments -/

/-- Behind the first `&` that follows a common path, the parameters are the same up to secrets. -/
theorem same_tail_of_same {path left right : Text}
    (h : SameQuery (path ++ '?' :: left) (path ++ '?' :: right)) :
    List.Forall₂ SamePart (left.splitOn '&').tail (right.splitOn '&').tail := by
  obtain ⟨front, last, hsplit⟩ := splitOn_append '&' (path ++ ['?'])
  obtain ⟨leftPart, leftParts, hleft, hleftSplit⟩ := hsplit left
  obtain ⟨rightPart, rightParts, hright, hrightSplit⟩ := hsplit right
  rw [List.append_assoc] at hleftSplit hrightSplit
  unfold SameQuery at h
  change List.Forall₂ SamePart (List.splitOn '&' (path ++ (['?'] ++ left)))
    (List.splitOn '&' (path ++ (['?'] ++ right))) at h
  rw [hleftSplit, hrightSplit] at h
  have hpieces := List.forall₂_drop front.length h
  rw [List.drop_left, List.drop_left] at hpieces
  rw [hleft, hright]
  exact (List.forall₂_cons.mp hpieces).2

theorem same_tail_of_sameFragment {path left right : Text} (hpath : '?' ∉ path)
    (h : SameFragment (path ++ '?' :: left) (path ++ '?' :: right)) :
    List.Forall₂ SamePart (left.splitOn '&').tail (right.splitOn '&').tail := by
  rcases h with h | ⟨front, leftQuery, rightQuery, hfront, hleft, hright, h⟩
  · exact same_tail_of_same h
  · have hleftCut := congrArg (splitOnce '?') hleft
    have hrightCut := congrArg (splitOnce '?') hright
    rw [splitOnce_append_cons hpath, splitOnce_append_cons hfront] at hleftCut hrightCut
    obtain ⟨-, rfl⟩ := Prod.mk.inj (Option.some.inj hleftCut)
    obtain ⟨-, rfl⟩ := Prod.mk.inj (Option.some.inj hrightCut)
    rw [← List.drop_one, ← List.drop_one]
    exact List.forall₂_drop 1 h

/-- Fragments that are the same up to secrets look the same exactly when no difference shows at
the first `?`. -/
theorem redactFragment_eq_iff {left right : Text} (h : SameFragment left right) :
    redactFragment left = redactFragment right ↔ HiddenFragment left right := by
  unfold HiddenFragment
  cases hleft : splitOnce '?' left with
  | none =>
      have hleftMem := splitOnce_eq_none hleft
      rw [redactFragment_of_not_mem hleftMem]
      cases hright : splitOnce '?' right with
      | none =>
          rw [redactFragment_of_not_mem (splitOnce_eq_none hright)]
          refine iff_of_true ?_ trivial
          rcases h with h | ⟨path, leftQuery, rightQuery, -, htext, -, -⟩
          · exact redactQuery_of_same h
          · exact absurd (htext ▸ List.mem_append_right _ List.mem_cons_self) hleftMem
      | some pieces =>
          obtain ⟨rfl, hpath⟩ := splitOnce_eq_some hright
          rw [redactFragment_of_mem hpath]
          refine iff_of_false (fun heq => not_mem_redactQuery hleftMem ?_) not_false
          exact heq ▸ List.mem_append_right _ List.mem_cons_self
  | some leftPieces =>
      obtain ⟨leftPath, leftQuery⟩ := leftPieces
      obtain ⟨rfl, hleftPath⟩ := splitOnce_eq_some hleft
      rw [redactFragment_of_mem hleftPath]
      cases hright : splitOnce '?' right with
      | none =>
          have hrightMem := splitOnce_eq_none hright
          rw [redactFragment_of_not_mem hrightMem]
          refine iff_of_false (fun heq => not_mem_redactQuery hrightMem ?_) not_false
          exact heq ▸ List.mem_append_right _ List.mem_cons_self
      | some rightPieces =>
          obtain ⟨rightPath, rightQuery⟩ := rightPieces
          obtain ⟨rfl, hrightPath⟩ := splitOnce_eq_some hright
          rw [redactFragment_of_mem hrightPath]
          dsimp only
          constructor
          · intro heq
            have hcut := congrArg (splitOnce '?') heq
            rw [splitOnce_append_cons hleftPath, splitOnce_append_cons hrightPath] at hcut
            obtain ⟨rfl, hquery⟩ := Prod.mk.inj (Option.some.inj hcut)
            have htail := same_tail_of_sameFragment hleftPath h
            exact ⟨rfl, (redactQuery_eq_iff_firstPart htail).mp hquery⟩
          · intro hsame
            obtain ⟨rfl, hpart⟩ := hsame
            have htail := same_tail_of_sameFragment hleftPath h
            rw [(redactQuery_eq_iff_firstPart htail).mpr hpart]

/-! ## URLs that are the same but for their secrets -/

/-- A relation on optional components, on their texts. -/
theorem rel_getD {R : Text → Text → Prop} {left right : Option Text} (hnil : R [] [])
    (h : Option.Rel R left right) : R (left.getD []) (right.getD []) := by
  cases h with
  | some h => exact h
  | none => exact hnil

variable {left right : UrlText} {leftValue rightValue : Text} {acceptsNetloc : Text → Bool}

/-- The redacted URLs differ in their fragments only. -/
theorem redactUrl_of_same (hleft : left.WrittenAs leftValue) (hright : right.WrittenAs rightValue)
    (hacceptsLeft : acceptsNetloc left.netloc = true)
    (hacceptsRight : acceptsNetloc right.netloc = true) (h : SameButSecrets left right) :
    ∃ parts : SplitResult,
      redactUrl acceptsNetloc leftValue =
        some (urlunsplit { parts with fragment := redactFragment (left.fragment.getD []) }) ∧
      redactUrl acceptsNetloc rightValue =
        some (urlunsplit { parts with fragment := redactFragment (right.fragment.getD []) }) := by
  have hquery : redactQuery (right.query.getD []) = redactQuery (left.query.getD []) := by
    refine (redactQuery_of_same (rel_getD ?_ h.query)).symm
    exact List.forall₂_same.mpr fun _ _ => .inl rfl
  refine ⟨⟨toAsciiLowercase left.scheme, redactNetloc left.netloc, left.path,
    redactQuery (left.query.getD []), []⟩, ?_, ?_⟩
  · rw [redactUrl, left.urlsplit_text hleft hacceptsLeft]
    rfl
  · rw [redactUrl, right.urlsplit_text hright hacceptsRight, Option.map_some, ← h.scheme, ← h.path,
      hquery, right.redactNetloc_netloc, ← h.userinfo, ← h.hostPort, ← left.redactNetloc_netloc]

/-- Two URLs that are the same but for their secrets have the same redacted form and the same
`repr`, exactly when no difference of their fragments shows at a `?`. -/
theorem redact_url_hides_secrets (hleft : left.WrittenAs leftValue)
    (hright : right.WrittenAs rightValue) (hacceptsLeft : acceptsNetloc left.netloc = true)
    (hacceptsRight : acceptsNetloc right.netloc = true) (h : SameButSecrets left right) :
    (∃ redacted, redactUrl acceptsNetloc leftValue = some redacted ∧
      redactUrl acceptsNetloc rightValue = some redacted ∧
      ∀ className repr, reprUrl acceptsNetloc className repr leftValue =
        reprUrl acceptsNetloc className repr rightValue) ↔
      HiddenFragment (left.fragment.getD []) (right.fragment.getD []) := by
  obtain ⟨parts, hredactLeft, hredactRight⟩ :=
    redactUrl_of_same hleft hright hacceptsLeft hacceptsRight h
  have hfragment : SameFragment (left.fragment.getD []) (right.fragment.getD []) := by
    refine rel_getD (.inl ?_) h.fragment
    exact List.forall₂_same.mpr fun _ _ => .inl rfl
  rw [← redactFragment_eq_iff hfragment, ← urlunsplit_fragment_eq_iff parts]
  constructor
  · intro hredacted
    obtain ⟨redacted, hsomeLeft, hsomeRight, -⟩ := hredacted
    rw [hredactLeft] at hsomeLeft
    rw [hredactRight] at hsomeRight
    rw [Option.some.inj hsomeLeft, Option.some.inj hsomeRight]
  · intro heq
    refine ⟨_, hredactLeft, heq ▸ hredactRight, fun className repr => ?_⟩
    rw [reprUrl, reprUrl, hredactLeft, hredactRight, heq]

/-! ## Two URLs -/

/-- The checks of `urlsplit` pass an ASCII netloc without brackets. -/
def acceptsPlain (netloc : Text) : Bool :=
  isAscii netloc && !netloc.contains '[' && !netloc.contains ']'

/-- A URL of `example.com` with a password, a token in the query and a fragment. -/
def exampleUrl (password token fragment : Text)
    (hpassword : password.all isNetlocChar = true := by decide)
    (htoken : '#' ∉ "token=".toList ++ token := by decide) : UrlText where
  scheme := "https"
  userinfo := some password
  hostPort := "example.com"
  path := "/"
  query := some ("token=".toList ++ token)
  fragment := some fragment
  isHttp := by decide
  userinfoChars := hpassword
  hostPortChars := by decide
  pathStart := .inr rfl
  pathChars := by decide
  queryChars := htoken

theorem sameQuery_token (leftValue rightValue : Text) (hleft : '&' ∉ leftValue)
    (hright : '&' ∉ rightValue) :
    SameQuery ("token=".toList ++ leftValue) ("token=".toList ++ rightValue) := by
  have hkey : '&' ∉ "token=".toList := by decide
  have hpart : ∀ value, '&' ∉ value → '&' ∉ "token=".toList ++ value :=
    fun value hvalue => List.not_mem_append hkey hvalue
  unfold SameQuery
  rw [List.splitOn_eq_singleton (hpart _ hleft), List.splitOn_eq_singleton (hpart _ hright)]
  exact .cons (.inr ⟨"token".toList, leftValue, rightValue, by decide, by decide, rfl, rfl⟩) .nil

/-- A password, a token with a `?`, and a token behind the `?` of the fragment. -/
theorem redact_url_hides_secrets_example : ∃ redacted,
    redactUrl acceptsPlain " https://a@b@example.com/?token=c?d=e#/cb?token=f\ng".toList =
      some redacted ∧
    redactUrl acceptsPlain "https://h@example.com/?token=i#/cb?token=j".toList = some redacted ∧
    ∀ className repr,
      reprUrl acceptsPlain className repr
        " https://a@b@example.com/?token=c?d=e#/cb?token=f\ng".toList =
      reprUrl acceptsPlain className repr "https://h@example.com/?token=i#/cb?token=j".toList := by
  have hsame : SameButSecrets
      (exampleUrl "a@b".toList "c?d=e".toList "/cb?token=fg".toList)
      (exampleUrl "h".toList "i".toList "/cb?token=j".toList) := by
    refine ⟨rfl, rfl, rfl, rfl, .some (sameQuery_token _ _ (by decide) (by decide)),
      .some (.inr ⟨"/cb".toList, "token=fg".toList, "token=j".toList, by decide, rfl, rfl, ?_⟩)⟩
    exact sameQuery_token ("fg".toList) ("j".toList) (by decide) (by decide)
  exact (redact_url_hides_secrets (by decide) (by decide) (by decide) (by decide) hsame).mpr
    ⟨rfl, .inr ⟨rfl, by decide⟩⟩

/-- A token of the fragment with a `?` in it is kept. -/
theorem redact_url_keeps_fragment_token : ∃ left right : UrlText, SameButSecrets left right ∧
    left.WrittenAs "https://@example.com/?token=#token=abc?d".toList ∧
    right.WrittenAs "https://@example.com/?token=#token=xyz?d".toList ∧
    redactUrl acceptsPlain "https://@example.com/?token=#token=abc?d".toList =
      some "https://<redacted>@example.com/?token=<redacted>#token=abc?d".toList ∧
    redactUrl acceptsPlain "https://@example.com/?token=#token=xyz?d".toList =
      some "https://<redacted>@example.com/?token=<redacted>#token=xyz?d".toList := by
  have hquery : SameQuery ("token=".toList ++ []) ("token=".toList ++ []) :=
    sameQuery_token [] [] (by decide) (by decide)
  have hfragment :
      SameQuery ("token=".toList ++ "abc?d".toList) ("token=".toList ++ "xyz?d".toList) :=
    sameQuery_token _ _ (by decide) (by decide)
  refine ⟨exampleUrl [] [] ("token=".toList ++ "abc?d".toList),
    exampleUrl [] [] ("token=".toList ++ "xyz?d".toList), ?_, ?_, ?_, ?_, ?_⟩
  · exact ⟨rfl, rfl, rfl, rfl, .some hquery, .some (.inl hfragment)⟩
  · decide
  · decide
  · decide
  · decide

end FogHttp.Redaction
