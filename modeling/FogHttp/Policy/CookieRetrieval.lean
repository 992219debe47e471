import Mathlib.Data.List.Induction
import FogHttp.Policy.CookieStore

/-!
# Cookie retrieval is exact

The `Cookie` field of a request is the list of the wire pairs of the stored
cookies that the request may carry, each once and in order, and every one of
them came from a `Set-Cookie` field of an earlier response.

* `Sends` says which cookies a request may carry, in the terms of the RFC.  The
  filter of the source is the same set.
* The loop of `request_header` joins the wire pairs with `"; "`.  No wire pair is
  empty or contains a semicolon, so splitting the field gives them back.
* `Provenance` is the invariant of histories: storing parses a field, and all
  other edits keep a cookie up to its times.

Neither the counters nor the prefix tests matter here, so the result holds for
every history.
-/

namespace FogHttp.Cookies

open Lib

variable {τ : Type} {crates : CookieCrates τ}

/-! ## The order -/

theorem precedes_total (cookie other : StoredCookie τ) :
    cookie.precedes other ∨ other.precedes cookie := by
  unfold StoredCookie.precedes
  omega

theorem precedes_trans {first second third : StoredCookie τ} (h : first.precedes second)
    (hnext : second.precedes third) : first.precedes third := by
  unfold StoredCookie.precedes at h hnext ⊢
  omega

/-- The order of `request_header` on the entries of its sort. -/
def entryPrecedes (left right : StoredCookie τ × Nat) : Prop := left.1.precedes right.1

instance : DecidableRel (@entryPrecedes τ) := fun left right =>
  inferInstanceAs (Decidable (left.1.precedes right.1))

instance : Std.Total (@entryPrecedes τ) :=
  ⟨fun left right => precedes_total left.1 right.1⟩

instance : IsTrans (StoredCookie τ × Nat) entryPrecedes :=
  ⟨fun _ _ _ => precedes_trans⟩

/-- The positions beside the cookies do not matter for a filter. -/
theorem filter_zipIdx_map_fst {α : Type} (p : α → Bool) (entries : List α) :
    (entries.zipIdx.filter fun entry => p entry.1).map Prod.fst = entries.filter p := by
  have hfilter : (entries.zipIdx.map Prod.fst).filter p =
      (entries.zipIdx.filter (p ∘ Prod.fst)).map Prod.fst := List.filter_map
  rw [List.zipIdx_map_fst] at hfilter
  exact hfilter.symm

/-! ## The header -/

/-- What follows a text that has begun. -/
theorem foldl_access_header_cons (access : Nat) (entries : List (StoredCookie τ × Nat))
    (cookies : List (StoredCookie τ)) {header : Text} (hheader : header ≠ []) :
    (entries.foldl (CookieStore.access access) (cookies, header)).2 =
      List.intercalate "; ".toList (header :: entries.map fun entry => entry.1.wirePair) := by
  induction entries generalizing cookies header with
  | nil => simp
  | cons entry entries ih =>
      rw [List.foldl_cons, CookieStore.access]
      dsimp only
      rw [if_neg hheader, ih _ (by simp [hheader])]
      cases entries with
      | nil => simp
      | cons next rest => simp [List.intercalate_cons_cons]

/-- The loop of `request_header` joins the wire pairs. -/
theorem foldl_access_header (access : Nat) {entries : List (StoredCookie τ × Nat)}
    (cookies : List (StoredCookie τ)) (hne : ∀ entry ∈ entries, entry.1.wirePair ≠ []) :
    (entries.foldl (CookieStore.access access) (cookies, [])).2 =
      List.intercalate "; ".toList (entries.map fun entry => entry.1.wirePair) := by
  cases entries with
  | nil => rfl
  | cons entry entries =>
      rw [List.foldl_cons, CookieStore.access]
      dsimp only
      rw [if_pos rfl]
      exact foldl_access_header_cons access entries _ (hne entry (by simp))

/-- The spec of `request_header` over the cookies that match. -/
theorem requestHeader_spec (crates : CookieCrates τ) (store : CookieStore τ)
    (host path : Text) (secure : Bool)
    (hwire : ∀ cookie ∈ store.cookies, cookie.wirePair ≠ []) :
    ∃ selected : List (StoredCookie τ),
      selected.Perm (store.cookies.filter fun cookie => cookie.isMatch crates host path secure) ∧
      selected.Pairwise StoredCookie.precedes ∧
      (store.requestHeader crates host path secure).1 =
        if selected = [] then none
        else some (List.intercalate "; ".toList (selected.map StoredCookie.wirePair)) := by
  let entries := (store.cookies.zipIdx.filter fun entry =>
    entry.1.isMatch crates host path secure).insertionSort entryPrecedes
  have hperm : entries.Perm (store.cookies.zipIdx.filter fun entry =>
      entry.1.isMatch crates host path secure) := List.perm_insertionSort _ _
  refine ⟨entries.map Prod.fst, ?_, ?_, ?_⟩
  · rw [← filter_zipIdx_map_fst]
    exact hperm.map Prod.fst
  · rw [List.pairwise_map]
    exact List.pairwise_insertionSort entryPrecedes _
  · have hentries : ∀ entry ∈ entries, entry.1.wirePair ≠ [] := by
      intro entry hmem
      have hfiltered := List.mem_filter.mp (hperm.mem_iff.mp hmem)
      exact hwire entry.1 (List.fst_mem_of_mem_zipIdx hfiltered.1)
    show (if entries = [] then (none, store) else _).1 = _
    by_cases hempty : entries = []
    · simp [hempty]
    · rw [if_neg hempty, if_neg (by simpa using hempty)]
      have hjoined := foldl_access_header store.nextAccess store.cookies hentries
      rw [List.map_map]
      exact congrArg some hjoined

/-! ## What a request may carry -/

section Request

variable [LinearOrder τ]

/-- A request to `host` and `path` may carry the cookie at `now`. -/
def Sends (crates : CookieCrates τ) (host path : Text) (trustworthy : Bool) (now : τ)
    (cookie : StoredCookie τ) : Prop :=
  (∀ expiresAt ∈ cookie.expiresAt, now < expiresAt) ∧
  (if cookie.hostOnly then cookie.domain = host
    else crates.domainMatches host cookie.domain = true) ∧
  crates.pathMatches path cookie.path = true ∧ (cookie.secure = true → trustworthy = true)

instance (host path : Text) (trustworthy : Bool) (now : τ) (cookie : StoredCookie τ) :
    Decidable (Sends crates host path trustworthy now cookie) :=
  inferInstanceAs (Decidable (_ ∧ _ ∧ _ ∧ _))

/-- The tests of the source are the conditions of the RFC. -/
theorem sends_iff {host path : Text} {trustworthy : Bool} {now : τ} {cookie : StoredCookie τ} :
    Sends crates host path trustworthy now cookie ↔
      (!cookie.isExpired now) = true ∧
        cookie.isMatch crates host path trustworthy = true := by
  have hexpired : (∀ expiresAt ∈ cookie.expiresAt, now < expiresAt) ↔
      (!cookie.isExpired now) = true := by
    cases hexpires : cookie.expiresAt with
    | none => simp [StoredCookie.isExpired, hexpires]
    | some expiresAt => simp [StoredCookie.isExpired, hexpires]
  have hmatch : cookie.isMatch crates host path trustworthy = true ↔
      (if cookie.hostOnly then cookie.domain = host
        else crates.domainMatches host cookie.domain = true) ∧
      crates.pathMatches path cookie.path = true ∧
        (cookie.secure = true → trustworthy = true) := by
    cases hhostOnly : cookie.hostOnly <;> cases hsecure : cookie.secure <;>
      simp [StoredCookie.isMatch, hhostOnly, hsecure, and_assoc]
  rw [Sends, hexpired, hmatch]

/-- The matching cookies of the purged store. -/
theorem filter_purgeExpired (store : CookieStore τ) (host path : Text) (trustworthy : Bool)
    (now : τ) :
    ((store.purgeExpired now).cookies.filter fun cookie =>
      cookie.isMatch crates host path trustworthy) =
        store.cookies.filter fun cookie => Sends crates host path trustworthy now cookie := by
  rw [CookieStore.purgeExpired, List.filter_filter]
  apply List.filter_congr
  intro cookie _
  rw [Bool.eq_iff_iff, decide_eq_true_iff, sends_iff, Bool.and_eq_true, and_comm]

end Request

/-! ## Where a cookie comes from -/

/-- The cookie is `source` up to its times. -/
def StoredCookie.Retimed (cookie source : StoredCookie τ) : Prop :=
  cookie = { source with creation := cookie.creation, lastAccess := cookie.lastAccess }

theorem StoredCookie.Retimed.trans {cookie middle source : StoredCookie τ}
    (h : cookie.Retimed middle) (hmiddle : middle.Retimed source) : cookie.Retimed source := by
  rw [StoredCookie.Retimed] at h hmiddle
  rw [StoredCookie.Retimed, h, hmiddle]

/-- A kept candidate is the only new cookie. -/
theorem mem_insert {store : CookieStore τ} {candidate cookie : StoredCookie τ}
    (h : cookie ∈ (store.insert candidate).cookies) :
    cookie ∈ store.cookies ∨ cookie.Retimed candidate := by
  unfold CookieStore.insert at h
  dsimp only at h
  split at h
  · rcases mem_modify h with hold | ⟨existing, -, rfl⟩
    · exact Or.inl hold
    · exact Or.inr rfl
  · have hmem := (enforceCapacity_spec _ _).1.subset h
    rcases List.mem_append.mp hmem with hold | hnew
    · exact Or.inl hold
    · rw [List.mem_singleton.mp hnew]
      exact Or.inr rfl

section Histories

variable [LinearOrder τ]

/-- The cookie was parsed from a field of a response that came from `host`. -/
def ParsedFrom (crates : CookieCrates τ) (url : HttpUrl) (host : Text) (now : τ)
    (header : Text × Text) (cookie : StoredCookie τ) : Prop :=
  ∃ source, StoredCookie.parse crates header.2 host url.path (isTrustworthyOrigin url) now =
    some source ∧ cookie.Retimed source

/-- The cookie was parsed from a `Set-Cookie` field of a response in the history. -/
def Provenance (crates : CookieCrates τ) (calls : List (Call τ)) (cookie : StoredCookie τ) :
    Prop :=
  ∃ url headers now header host, .storeResponseAt url headers now ∈ calls ∧
    header ∈ headers ∧ CookieStore.isSetCookie header = true ∧
    canonicalCookieDomain crates url.host = some host ∧
    ParsedFrom crates url host now header cookie

/-- The step lemma of `CookieStore::store`. -/
theorem mem_store {store : CookieStore τ} {value host path : Text} {secure : Bool} {now : τ}
    {cookie : StoredCookie τ}
    (h : cookie ∈ (store.store crates value host path secure now).cookies) :
    cookie ∈ store.cookies ∨ ∃ source,
      StoredCookie.parse crates value host path secure now = some source ∧
        cookie.Retimed source := by
  unfold CookieStore.store at h
  split at h
  · exact Or.inl h
  · rename_i candidate hparse
    split at h
    · exact Or.inl h
    · split at h
      · split at h
        · exact Or.inl (List.mem_of_mem_eraseIdx h)
        · exact Or.inl h
      · exact (mem_insert h).imp_right fun hretimed => ⟨candidate, hparse, hretimed⟩

/-- The step lemma of `store_response_at`. -/
theorem mem_storeResponseAt {store : CookieStore τ} {url : HttpUrl}
    {headers : List (Text × Text)} {now : τ} {cookie : StoredCookie τ}
    (h : cookie ∈ (store.storeResponseAt crates url headers now).cookies) :
    cookie ∈ store.cookies ∨ ∃ header host, header ∈ headers ∧
      CookieStore.isSetCookie header = true ∧
      canonicalCookieDomain crates url.host = some host ∧
      ParsedFrom crates url host now header cookie := by
  unfold CookieStore.storeResponseAt at h
  split at h
  · exact Or.inl h
  · rename_i host hhost
    -- The loop over the header fields, from the purged store.
    have hpurged : ∀ cookie ∈ (store.purgeExpired now).cookies, cookie ∈ store.cookies :=
      fun _ hmem => (List.mem_filter.mp hmem).1
    generalize store.purgeExpired now = purged at h hpurged
    suffices hloop : cookie ∈ purged.cookies ∨ ∃ header ∈ headers,
        CookieStore.isSetCookie header = true ∧ ParsedFrom crates url host now header cookie by
      rcases hloop with hold | ⟨header, hmem, hfield, hparsed⟩
      · exact Or.inl (hpurged cookie hold)
      · exact Or.inr ⟨header, host, hmem, hfield, hhost, hparsed⟩
    clear hpurged
    induction headers generalizing purged with
    | nil => exact Or.inl h
    | cons header headers ih =>
        rw [List.foldl_cons] at h
        rcases ih _ h with hstored | ⟨other, hmem, hparsed⟩
        · split at hstored
          · rename_i hfield
            exact (mem_store hstored).imp_right fun hparsed =>
              ⟨header, List.mem_cons_self, hfield, hparsed⟩
          · exact Or.inl hstored
        · exact Or.inr ⟨other, List.mem_cons_of_mem header hmem, hparsed⟩

/-- The step lemma of `request_header_at`. -/
theorem mem_requestHeaderAt {store : CookieStore τ} {url : HttpUrl} {now : τ}
    {cookie : StoredCookie τ} (h : cookie ∈ (store.requestHeaderAt crates url now).2.cookies) :
    ∃ old ∈ store.cookies, cookie.Retimed old := by
  unfold CookieStore.requestHeaderAt at h
  split at h
  · exact ⟨cookie, h, rfl⟩
  · have hpurged : ∀ cookie ∈ (store.purgeExpired now).cookies, cookie ∈ store.cookies :=
      fun _ hmem => (List.mem_filter.mp hmem).1
    unfold CookieStore.requestHeader at h
    dsimp only at h
    split at h
    · exact ⟨cookie, hpurged cookie h, rfl⟩
    · obtain ⟨old, hold, rfl | rfl⟩ := (foldl_access_cookies _ _ _ _).2.2 cookie h
      · exact ⟨cookie, hpurged cookie hold, rfl⟩
      · exact ⟨old, hpurged old hold, rfl⟩

/-- The run lemma: every stored cookie has a provenance. -/
theorem provenance_after (calls : List (Call τ)) :
    ∀ cookie ∈ (CookieStore.after crates calls).cookies, Provenance crates calls cookie := by
  induction calls using List.reverseRecOn with
  | nil =>
      intro cookie hmem
      simp [CookieStore.after, CookieStore.default] at hmem
  | append_singleton calls call ih =>
      intro cookie hmem
      rw [CookieStore.after, List.foldl_append] at hmem
      have hearlier : ∀ old ∈ (CookieStore.after crates calls).cookies, cookie.Retimed old →
          Provenance crates (calls ++ [call]) cookie := by
        intro old hold hretimed
        obtain ⟨url, headers, now, header, host, hcall, hheader, hfield, hhost, source, hparse,
          hsource⟩ := ih old hold
        exact ⟨url, headers, now, header, host, List.mem_append_left _ hcall, hheader, hfield,
          hhost, source, hparse, hretimed.trans hsource⟩
      cases call with
      | storeResponseAt url headers now =>
          rcases mem_storeResponseAt hmem with hold | ⟨header, host, hheader, hfield, hhost,
            hparsed⟩
          · exact hearlier cookie hold rfl
          · exact ⟨url, headers, now, header, host, by simp, hheader, hfield, hhost, hparsed⟩
      | requestHeaderAt url now =>
          obtain ⟨old, hold, hretimed⟩ := mem_requestHeaderAt hmem
          exact hearlier old hold hretimed

/-- A cookie with a provenance has a wire pair that splitting gives back. -/
theorem Provenance.wirePair {calls : List (Call τ)} {cookie : StoredCookie τ}
    (h : Provenance crates calls cookie) : cookie.wirePair ≠ [] ∧ ';' ∉ cookie.wirePair := by
  obtain ⟨_, _, _, _, _, -, -, -, -, source, hparse, hretimed⟩ := h
  have hsame : cookie = { source with
    creation := cookie.creation, lastAccess := cookie.lastAccess } := hretimed
  have hwire : cookie.wirePair = source.wirePair := by rw [hsame]
  rw [hwire]
  exact wirePair_of_parse hparse

/-- The response that a cookie comes from was allowed to set it. -/
theorem ParsedFrom.scope {url : HttpUrl} {host : Text} {now : τ} {header : Text × Text}
    {cookie : StoredCookie τ} (h : ParsedFrom crates url host now header cookie) :
    if cookie.hostOnly then cookie.domain = host
    else crates.domainMatches host cookie.domain = true := by
  obtain ⟨source, hparse, hretimed⟩ := h
  obtain ⟨-, -, -, -, -, hscope, -⟩ := parse_eq_some hparse
  rw [hretimed]
  exact hscope

/-- For every history, URL and time: the request gets no field exactly when no stored
cookie may be sent, and otherwise the field splits into the wire pairs of the cookies that
may be sent, each once, longer paths first and then older cookies.  Each of them was
parsed from a `Set-Cookie` field of an earlier response, whose host is the domain of a
host-only cookie and domain-matches the domain of any other. -/
theorem cookie_retrieval_exact (crates : CookieCrates τ) (calls : List (Call τ))
    (url : HttpUrl) (now : τ) :
    (((CookieStore.after crates calls).requestHeaderAt crates url now).1 = none ↔
      ∀ host, canonicalCookieDomain crates url.host = some host →
        ∀ cookie ∈ (CookieStore.after crates calls).cookies,
          ¬ Sends crates host url.path (isTrustworthyOrigin url) now cookie) ∧
    ∀ header, ((CookieStore.after crates calls).requestHeaderAt crates url now).1 =
        some header →
      ∃ host, ∃ selected : List (StoredCookie τ),
        canonicalCookieDomain crates url.host = some host ∧
        selected.Perm ((CookieStore.after crates calls).cookies.filter fun cookie =>
          Sends crates host url.path (isTrustworthyOrigin url) now cookie) ∧
        selected.Pairwise (fun cookie other => utf8Len other.path < utf8Len cookie.path ∨
          utf8Len other.path = utf8Len cookie.path ∧ cookie.creation ≤ other.creation) ∧
        splitPattern "; ".toList header = selected.map StoredCookie.wirePair ∧
        ∀ cookie ∈ selected, ∃ origin headers time field originHost,
          .storeResponseAt origin headers time ∈ calls ∧ field ∈ headers ∧
          CookieStore.isSetCookie field = true ∧
          canonicalCookieDomain crates origin.host = some originHost ∧
          ParsedFrom crates origin originHost time field cookie ∧
          if cookie.hostOnly then cookie.domain = originHost
          else crates.domainMatches originHost cookie.domain = true := by
  have hprovenance : ∀ cookie ∈ (CookieStore.after crates calls).cookies,
      Provenance crates calls cookie := provenance_after calls
  unfold CookieStore.requestHeaderAt
  cases hhost : canonicalCookieDomain crates url.host with
  | none => simp
  | some host =>
      obtain ⟨selected, hperm, hordered, hheader⟩ :=
        requestHeader_spec crates ((CookieStore.after crates calls).purgeExpired now) host
          url.path (isTrustworthyOrigin url)
          fun cookie hmem => (hprovenance cookie (List.mem_filter.mp hmem).1).wirePair.1
      rw [filter_purgeExpired] at hperm
      dsimp only
      rw [hheader]
      -- A selected cookie is stored and may be sent.
      have hselected : ∀ cookie, cookie ∈ selected ↔
          cookie ∈ (CookieStore.after crates calls).cookies ∧
            Sends crates host url.path (isTrustworthyOrigin url) now cookie := by
        intro cookie
        rw [hperm.mem_iff, List.mem_filter, decide_eq_true_iff]
      refine ⟨?_, ?_⟩
      · by_cases hempty : selected = []
        · simp only [hempty, if_true, true_iff, Option.some.injEq]
          intro other hsame cookie hmem hsends
          subst hsame
          have habsurd := (hselected cookie).mpr ⟨hmem, hsends⟩
          simp [hempty] at habsurd
        · simp only [hempty, if_false, reduceCtorEq, false_iff]
          intro hnone
          obtain ⟨cookie, hcookie⟩ := List.exists_mem_of_ne_nil selected hempty
          obtain ⟨hmem, hsends⟩ := (hselected cookie).mp hcookie
          exact hnone host rfl cookie hmem hsends
      · intro header hsome
        by_cases hempty : selected = []
        · simp [hempty] at hsome
        · rw [if_neg hempty, Option.some.injEq] at hsome
          refine ⟨host, selected, rfl, hperm, hordered, ?_, ?_⟩
          · rw [← hsome]
            apply splitPattern_intercalate
            · simpa using hempty
            · intro piece hpiece
              obtain ⟨cookie, hcookie, rfl⟩ := List.mem_map.mp hpiece
              exact (hprovenance cookie ((hselected cookie).mp hcookie).1).wirePair.2
          · intro cookie hcookie
            obtain ⟨origin, headers, time, field, originHost, hcall, hfield, hname, horigin,
              hparsed⟩ := hprovenance cookie ((hselected cookie).mp hcookie).1
            exact ⟨origin, headers, time, field, originHost, hcall, hfield, hname, horigin,
              hparsed, hparsed.scope⟩

end Histories

namespace CookieExample

/-- A request after the history gets all three cookies, the longer paths first; the cookie
with a maximal age is gone a minute later. -/
theorem cookie_retrieval_exact_example :
    ((CookieStore.after plainCrates history).requestHeaderAt plainCrates url 70).1 =
        some "a=3; __Host-id=1".toList ∧
      ∃ selected : List (StoredCookie Nat),
        splitPattern "; ".toList "a=3; b=2; __Host-id=1".toList =
            selected.map StoredCookie.wirePair ∧
          ∀ cookie ∈ selected, cookie ∈ (CookieStore.after plainCrates history).cookies := by
  refine ⟨by decide, ?_⟩
  obtain ⟨host, selected, -, hperm, -, hsplit, -⟩ :=
    (cookie_retrieval_exact plainCrates history url 6).2 "a=3; b=2; __Host-id=1".toList
      (by decide)
  exact ⟨selected, hsplit, fun cookie hmem => List.mem_of_mem_filter (hperm.mem_iff.mp hmem)⟩

end CookieExample

end FogHttp.Cookies
