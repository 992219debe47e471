import FogHttp.Lib.Positions
import FogHttp.Policy.Cookies

/-!
# The invariant of the cookie store

`WellFormed` holds after every history of calls, as long as the two counters
have not reached the end of `u64`.

* Two cookies differ in name, domain, host-only flag or path.
* A domain has at most 50 cookies and the store at most 3000.
* Creation values grow along the vector and stay below the counter, and so do
  the access values.
* Every cookie is `Accepted`: its wire pair is well formed, and a wire pair
  that starts like a prefixed name belongs to a cookie with the attributes that
  the prefix stands for.

The first part reads `StoredCookie::parse`, which alone decides `Accepted`.  The
second part follows the edits of the vector.  A removal is a sublist, a
replacement keeps the projections that the invariant is about, and the two
eviction loops are one argument about a measure.
-/

namespace FogHttp.Cookies

open Lib

variable {τ : Type} {crates : CookieCrates τ}

/-! ## Wire pairs -/

def securePrefix : Text := "__Secure-"

def hostPrefix : Text := "__Host-"

/-- The prefix tests of `rfc_6265` are string prefixes. -/
structure PrefixTests (crates : CookieCrates τ) : Prop where
  secure : ∀ text, crates.hasSecurePrefix text = securePrefix.isPrefixOf text
  host : ∀ text, crates.hasHostPrefix text = hostPrefix.isPrefixOf text

/-- The pair that a name and a value are sent as. -/
def wirePairOf (name value : Text) : Text := (if name = [] then [] else name ++ ['=']) ++ value

/-- The characters of a text before its first `sep`. -/
theorem mem_of_mem_before {sep c : Char} {text : Text}
    (h : c ∈ ((splitOnce sep text).map Prod.fst).getD text) : c ∈ text ∧ c ≠ sep := by
  cases hsplit : splitOnce sep text with
  | none =>
      have hmem : c ∈ text := by simpa [hsplit] using h
      exact ⟨hmem, fun hc => splitOnce_eq_none hsplit (hc ▸ hmem)⟩
  | some pieces =>
      obtain ⟨before, after⟩ := pieces
      have hmem : c ∈ before := by simpa [hsplit] using h
      obtain ⟨htext, hbefore⟩ := splitOnce_eq_some hsplit
      exact ⟨by simp [htext, hmem], fun hc => hbefore (hc ▸ hmem)⟩

/-- The two pieces around an equals sign. -/
theorem splitOnce_getD_spec (pair : Text) :
    '=' ∉ ((splitOnce '=' pair).getD ([], pair)).1 ∧
      (∀ c ∈ ((splitOnce '=' pair).getD ([], pair)).1, c ∈ pair) ∧
      ∀ c ∈ ((splitOnce '=' pair).getD ([], pair)).2, c ∈ pair := by
  cases hsplit : splitOnce '=' pair with
  | none => simp
  | some pieces =>
      obtain ⟨before, after⟩ := pieces
      obtain ⟨hpair, hbefore⟩ := splitOnce_eq_some hsplit
      refine ⟨hbefore, ?_, ?_⟩
      · intro c hmem
        have hmem : c ∈ before := hmem
        simp [hpair, hmem]
      · intro c hmem
        have hmem : c ∈ after := hmem
        simp [hpair, hmem]

/-- What `parse_cookie_pair` returns. -/
theorem parseCookiePair_eq_some {value name cookieValue : Text}
    (h : parseCookiePair value = some (name, cookieValue)) :
    (name ≠ [] ∨ cookieValue ≠ []) ∧ '=' ∉ name ∧
      ∀ c, c ∈ name ∨ c ∈ cookieValue → c ∈ value ∧ c ≠ ';' := by
  unfold parseCookiePair at h
  dsimp only at h
  split at h
  · simp at h
  · rename_i hnonempty
    simp only [Option.some.injEq, Prod.mk.injEq] at h
    obtain ⟨rfl, rfl⟩ := h
    obtain ⟨hname, hbefore, hafter⟩ :=
      splitOnce_getD_spec (((splitOnce ';' value).map Prod.fst).getD value)
    refine ⟨?_, fun hmem => hname (mem_of_mem_trimMatches hmem), ?_⟩
    · by_cases hempty : trimCookieWhitespace
          ((splitOnce '=' (((splitOnce ';' value).map Prod.fst).getD value)).getD
            ([], ((splitOnce ';' value).map Prod.fst).getD value)).1 = []
      · exact Or.inr fun hvalue => hnonempty ⟨hempty, hvalue⟩
      · exact Or.inl hempty
    · intro c hmem
      rcases hmem with hmem | hmem
      · exact mem_of_mem_before (hbefore c (mem_of_mem_trimMatches hmem))
      · exact mem_of_mem_before (hafter c (mem_of_mem_trimMatches hmem))

/-- What `serialize_cookie_pair` returns. -/
theorem serializeCookiePair_eq_some {name value wirePair : Text}
    (h : serializeCookiePair crates name value = some wirePair) :
    wirePair = wirePairOf name value ∧ utf8Len name + utf8Len value ≤ maxCookiePairOctets ∧
      isAscii name = true ∧ isAscii value = true := by
  unfold serializeCookiePair at h
  split at h
  · simp at h
  · rename_i hfits
    simp only [Bool.or_eq_true, not_or, decide_eq_true_eq, Bool.not_eq_true',
      Bool.not_eq_false] at hfits
    simp only [Option.ite_none_right_eq_some, Option.some.injEq] at h
    exact ⟨h.2.symm, by omega, hfits.1.2, hfits.2⟩

/-- A wire pair that starts with a text without an equals sign has it in the name, or in
the value when there is no name. -/
theorem prefix_wirePairOf {name value pre : Text} (h : pre <+: wirePairOf name value)
    (hpre : '=' ∉ pre) : (name ≠ [] ∧ pre <+: name) ∨ (name = [] ∧ pre <+: value) := by
  unfold wirePairOf at h
  by_cases hname : name = []
  · exact Or.inr ⟨hname, by simpa [hname] using h⟩
  · refine Or.inl ⟨hname, ?_⟩
    rw [if_neg hname, List.append_assoc] at h
    exact prefix_of_prefix_append_cons h hpre

/-- A character of a wire pair is the equals sign or comes from its parts. -/
theorem mem_wirePairOf {name value : Text} {c : Char} (h : c ∈ wirePairOf name value) :
    c = '=' ∨ c ∈ name ∨ c ∈ value := by
  unfold wirePairOf at h
  by_cases hname : name = []
  · exact Or.inr (Or.inr (by simpa [hname] using h))
  · simp only [hname, if_false, List.mem_append, List.mem_singleton] at h
    rcases h with (h | h) | h
    · exact Or.inr (Or.inl h)
    · exact Or.inl h
    · exact Or.inr (Or.inr h)

/-! ## Accepted cookies -/

/-- What `StoredCookie::parse` guarantees of a cookie. -/
structure StoredCookie.Accepted (cookie : StoredCookie τ) : Prop where
  securePrefix : securePrefix <+: cookie.wirePair → cookie.secure = true
  hostPrefix : hostPrefix <+: cookie.wirePair →
    cookie.secure = true ∧ cookie.hostOnly = true ∧ cookie.path = ("/" : Text)
  nonempty : cookie.wirePair ≠ []
  semicolon : ';' ∉ cookie.wirePair
  /-- The only control character, of ASCII or beyond, is the tab. -/
  control : ∀ c ∈ cookie.wirePair, c.toNat < 0x20 ∨ 0x7f ≤ c.toNat ∧ c.toNat < 0xa0 →
    c = '\t'
  octets : ∃ value, cookie.wirePair = wirePairOf cookie.name value ∧
    utf8Len cookie.name + utf8Len value ≤ maxCookiePairOctets

/-- The scope of a cookie from a response of `originHost`. -/
theorem scope_eq_some {domainAttribute : Option Text} {originHost domain : Text}
    {hostOnly : Bool}
    (h : StoredCookie.scope crates domainAttribute originHost = some (domain, hostOnly)) :
    if hostOnly then domain = originHost else crates.domainMatches originHost domain = true := by
  unfold StoredCookie.scope at h
  split at h
  · split at h
    · cases h
      rfl
    · split at h
      · simp at h
      · split at h
        · simp at h
        · split at h
          · rename_i hmatches
            cases h
            exact hmatches
          · simp at h
  · cases h
    rfl

/-- A character that `parse` lets through is a control character only when it is a tab. -/
theorem tab_of_control {c : Char} (hallowed : isDisallowedControl c = false)
    (hascii : c.toNat < 0x80) (hcontrol : c.toNat < 0x20 ∨ 0x7f ≤ c.toNat ∧ c.toNat < 0xa0) :
    c = '\t' := by
  simp only [isDisallowedControl, Bool.or_eq_false_iff, decide_eq_false_iff_not,
    Bool.and_eq_false_iff, beq_eq_false_iff_ne] at hallowed
  have hvalue : c.toNat = 9 := by omega
  exact Char.toNat_inj.mp hvalue

section Parse

variable [LinearOrder τ]

/-- The inversion lemma of `StoredCookie::parse`. -/
theorem parse_eq_some {value originHost requestPath : Text} {originSecure : Bool} {now : τ}
    {cookie : StoredCookie τ}
    (h : StoredCookie.parse crates value originHost requestPath originSecure now =
      some cookie) :
    ∃ cookieValue pathAttributePresent,
      containsDisallowedControl value = false ∧
      parseCookiePair value = some (cookie.name, cookieValue) ∧
      serializeCookiePair crates cookie.name cookieValue = some cookie.wirePair ∧
      (if cookie.hostOnly then cookie.domain = originHost
        else crates.domainMatches originHost cookie.domain = true) ∧
      StoredCookie.refused crates cookie.name cookieValue cookie.path cookie.hostOnly
        pathAttributePresent cookie.secure originSecure = false := by
  unfold StoredCookie.parse at h
  split at h
  · simp at h
  · rename_i hcontrol
    split at h
    · simp at h
    · rename_i name cookieValue hpair
      split at h
      · simp at h
      · rename_i wirePair hwire
        dsimp only at h
        split at h
        · simp at h
        · rename_i domain hostOnly hscope
          split at h
          · simp at h
          · rename_i haccepted
            simp only [Option.some.injEq] at h
            subst h
            exact ⟨cookieValue, _, by simpa using hcontrol, hpair, hwire,
              scope_eq_some hscope, by simpa using haccepted⟩

/-- The wire pair of a parsed cookie is not empty and has no semicolon. -/
theorem wirePair_of_parse {value originHost requestPath : Text} {originSecure : Bool} {now : τ}
    {cookie : StoredCookie τ}
    (h : StoredCookie.parse crates value originHost requestPath originSecure now =
      some cookie) : cookie.wirePair ≠ [] ∧ ';' ∉ cookie.wirePair := by
  obtain ⟨cookieValue, -, -, hpair, hwire, -, -⟩ := parse_eq_some h
  obtain ⟨hnonempty, -, hchars⟩ := parseCookiePair_eq_some hpair
  obtain ⟨hwirePair, -, -, -⟩ := serializeCookiePair_eq_some hwire
  rw [hwirePair]
  refine ⟨?_, ?_⟩
  · unfold wirePairOf
    rcases hnonempty with hne | hne <;> simp [hne]
  · intro hsemicolon
    rcases mem_wirePairOf hsemicolon with habsurd | hfield
    · simp at habsurd
    · exact (hchars _ hfield).2 rfl

/-- A parsed cookie is accepted. -/
theorem accepted_of_parse (tests : PrefixTests crates) {value originHost requestPath : Text}
    {originSecure : Bool} {now : τ} {cookie : StoredCookie τ}
    (h : StoredCookie.parse crates value originHost requestPath originSecure now =
      some cookie) : cookie.Accepted := by
  obtain ⟨cookieValue, pathPresent, hcontrol, hpair, hwire, -, hrefused⟩ := parse_eq_some h
  obtain ⟨-, -, hchars⟩ := parseCookiePair_eq_some hpair
  obtain ⟨hnonempty, hsemicolon⟩ := wirePair_of_parse h
  obtain ⟨hwirePair, hoctets, hnameAscii, hvalueAscii⟩ := serializeCookiePair_eq_some hwire
  simp only [StoredCookie.refused, tests.secure, tests.host, Bool.or_eq_false_iff,
    Bool.and_eq_false_iff] at hrefused
  obtain ⟨⟨⟨-, hsecure⟩, hhost⟩, hnameless⟩ := hrefused
  have hprefix : ∀ pre : Text, '=' ∉ pre → pre <+: cookie.wirePair →
      pre.isPrefixOf cookie.name = true ∨
        (cookie.name.isEmpty = true ∧ pre.isPrefixOf cookieValue = true) := by
    intro pre hpre hstart
    rw [hwirePair] at hstart
    rcases prefix_wirePairOf hstart hpre with ⟨-, hstart⟩ | ⟨hempty, hstart⟩
    · exact Or.inl (List.isPrefixOf_iff_prefix.mpr hstart)
    · exact Or.inr ⟨by simp [hempty], List.isPrefixOf_iff_prefix.mpr hstart⟩
  refine ⟨?_, ?_, hnonempty, hsemicolon, ?_, cookieValue, hwirePair, hoctets⟩
  · intro hstart
    rcases hprefix _ (by decide) hstart with hstart | ⟨hempty, hstart⟩
    · simpa [hstart] using hsecure
    · simp [hempty, hstart] at hnameless
  · intro hstart
    rcases hprefix _ (by decide) hstart with hstart | ⟨hempty, hstart⟩
    · simp only [hstart, Bool.true_eq_false, false_or, Bool.not_eq_false',
        bne_eq_false_iff_eq] at hhost
      exact ⟨hhost.1.1.1, hhost.1.1.2, hhost.2⟩
    · simp [hempty, hstart] at hnameless
  · intro c hc hctl
    rw [hwirePair] at hc
    rcases mem_wirePairOf hc with rfl | hfield
    · simp at hctl
    · have hallowed : isDisallowedControl c = false := by
        have hvalue := (hchars c hfield).1
        simp only [containsDisallowedControl, List.any_eq_false] at hcontrol
        simpa using hcontrol c hvalue
      have hascii : c.toNat < 0x80 := by
        simp only [isAscii, List.all_eq_true, decide_eq_true_eq] at hnameAscii hvalueAscii
        rcases hfield with hfield | hfield
        · exact hnameAscii c hfield
        · exact hvalueAscii c hfield
      exact tab_of_control hallowed hascii hctl

end Parse

/-! ## The invariant -/

/-- What the identity of a cookie is made of. -/
def StoredCookie.identity (cookie : StoredCookie τ) : Text × Text × Bool × Text :=
  (cookie.name, cookie.domain, cookie.hostOnly, cookie.path)

theorem hasSameIdentity_iff {cookie other : StoredCookie τ} :
    cookie.hasSameIdentity other = true ↔ cookie.identity = other.identity := by
  simp [StoredCookie.hasSameIdentity, StoredCookie.identity, and_assoc]

/-- The part of the invariant that a removal cannot break and that does not bound the
number of cookies. -/
structure Ordered (store : CookieStore τ) : Prop where
  identities : (store.cookies.map StoredCookie.identity).Nodup
  creations : (store.cookies.map StoredCookie.creation).Pairwise (· < ·)
  nextCreation : ∀ cookie ∈ store.cookies, cookie.creation < store.nextCreation
  nextAccess : ∀ cookie ∈ store.cookies, cookie.lastAccess < store.nextAccess
  accepted : ∀ cookie ∈ store.cookies, cookie.Accepted

/-- The number of cookies of a domain. -/
def domainCount (domain : Text) (cookies : List (StoredCookie τ)) : Nat :=
  cookies.countP fun cookie => cookie.domain == domain

/-- The invariant of the cookie store. -/
structure WellFormed (store : CookieStore τ) : Prop extends Ordered store where
  perDomain : ∀ domain, domainCount domain store.cookies ≤ maxCookiesPerDomain
  total : store.cookies.length ≤ maxCookies

variable {store next : CookieStore τ}

theorem wellFormed_default : WellFormed (CookieStore.default : CookieStore τ) := by
  refine ⟨⟨?_, ?_, ?_, ?_, ?_⟩, ?_, ?_⟩ <;> simp [CookieStore.default, domainCount]

/-- Removals keep the order. -/
theorem Ordered.sublist (h : Ordered store) (hsub : next.cookies.Sublist store.cookies)
    (hcreation : next.nextCreation = store.nextCreation)
    (haccess : next.nextAccess = store.nextAccess) : Ordered next where
  identities := h.identities.sublist (hsub.map _)
  creations := h.creations.sublist (hsub.map _)
  nextCreation cookie hmem := hcreation ▸ h.nextCreation cookie (hsub.subset hmem)
  nextAccess cookie hmem := haccess ▸ h.nextAccess cookie (hsub.subset hmem)
  accepted cookie hmem := h.accepted cookie (hsub.subset hmem)

/-- Removals keep the invariant. -/
theorem WellFormed.sublist (h : WellFormed store) (hsub : next.cookies.Sublist store.cookies)
    (hcreation : next.nextCreation = store.nextCreation)
    (haccess : next.nextAccess = store.nextAccess) : WellFormed next where
  toOrdered := h.toOrdered.sublist hsub hcreation haccess
  perDomain domain := (hsub.countP_le).trans (h.perDomain domain)
  total := hsub.length_le.trans h.total

/-! ## Eviction -/

/-- Choosing between two entries, over and over, ends at one of them. -/
theorem foldl_choose_mem {α : Type} (better : α → α → Bool) (first : α) (rest : List α) :
    rest.foldl (fun best entry => if better entry best then entry else best) first ∈
      first :: rest := by
  induction rest generalizing first with
  | nil => simp
  | cons entry rest ih =>
      rw [List.foldl_cons]
      have hmem := ih (if better entry first then entry else first)
      rcases List.mem_cons.mp hmem with heq | hrest
      · rw [heq]
        split <;> simp
      · simp [hrest]

/-- The victim is one of the eligible cookies. -/
theorem leastRecent_eq_some {eligible : StoredCookie τ → Bool}
    {cookies : List (StoredCookie τ)} {index : Nat}
    (h : leastRecent eligible cookies = some index) :
    ∃ cookie, cookies[index]? = some cookie ∧ eligible cookie = true := by
  unfold leastRecent at h
  split at h
  · simp at h
  · rename_i first rest hfilter
    simp only [Option.some.injEq] at h
    have hmem := foldl_choose_mem
      (fun entry best : StoredCookie τ × Nat => entry.1.lessRecent best.1) first rest
    rw [← hfilter, List.mem_filter, List.mem_zipIdx_iff_getElem?, h] at hmem
    exact ⟨_, hmem.1, hmem.2⟩

/-- There is a victim as soon as a cookie is eligible. -/
theorem leastRecent_isSome {eligible : StoredCookie τ → Bool}
    {cookies : List (StoredCookie τ)} {cookie : StoredCookie τ} (hmem : cookie ∈ cookies)
    (heligible : eligible cookie = true) :
    ∃ index, leastRecent eligible cookies = some index := by
  obtain ⟨i, hi⟩ := List.mem_iff_getElem?.mp hmem
  have hentry : (cookie, i) ∈ cookies.zipIdx.filter fun entry => eligible entry.1 :=
    List.mem_filter.mpr ⟨List.mk_mem_zipIdx_iff_getElem?.mpr hi, heligible⟩
  unfold leastRecent
  split
  · rename_i hfilter
    simp [hfilter] at hentry
  · exact ⟨_, rfl⟩

section Evict

variable {exceeds : List (StoredCookie τ) → Bool}
  {eligible : List (StoredCookie τ) → StoredCookie τ → Bool}

theorem evict_sublist (fuel : Nat) (cookies : List (StoredCookie τ)) :
    (evict exceeds eligible fuel cookies).Sublist cookies := by
  induction fuel generalizing cookies with
  | zero => exact List.Sublist.refl _
  | succ fuel ih =>
      rw [evict]
      split
      · split
        · exact (ih _).trans (List.eraseIdx_sublist _ _)
        · exact List.Sublist.refl _
      · exact List.Sublist.refl _

/-- A loop that removes one counted cookie in each round stops at its limit. -/
theorem evict_measure (p : StoredCookie τ → Bool) (limit : Nat)
    (hexceeds : ∀ cookies, exceeds cookies = true ↔ limit < cookies.countP p)
    (hvictim : ∀ cookies, exceeds cookies = true →
      ∃ cookie ∈ cookies, eligible cookies cookie = true)
    (hcounted : ∀ cookies cookie, eligible cookies cookie = true → p cookie = true)
    (fuel : Nat) (cookies : List (StoredCookie τ)) (hfuel : cookies.countP p ≤ limit + fuel) :
    (evict exceeds eligible fuel cookies).countP p ≤ limit := by
  induction fuel generalizing cookies with
  | zero => exact hfuel
  | succ fuel ih =>
      rw [evict]
      by_cases hmore : exceeds cookies = true
      · rw [if_pos hmore]
        obtain ⟨cookie, hmem, heligible⟩ := hvictim cookies hmore
        obtain ⟨index, hindex⟩ := leastRecent_isSome hmem heligible
        obtain ⟨victim, hvictim, hchosen⟩ := leastRecent_eq_some hindex
        simp only [hindex]
        have herased := countP_eraseIdx p hvictim
        rw [hcounted cookies victim hchosen] at herased
        apply ih
        simp only [Bool.toNat_true] at herased
        omega
      · rw [if_neg hmore]
        have hwithin := mt (hexceeds cookies).mpr hmore
        omega

end Evict

/-- A domain over its limit has a cookie to remove, secure only when all are. -/
theorem domainEligible_exists {domain : Text} {cookies : List (StoredCookie τ)}
    (h : domainExceeds domain cookies = true) :
    ∃ cookie ∈ cookies, domainEligible domain cookies cookie = true := by
  by_cases hopen : cookies.any (fun cookie => cookie.domain == domain && !cookie.secure) = true
  · obtain ⟨cookie, hmem, hcookie⟩ := List.any_eq_true.mp hopen
    simp only [Bool.and_eq_true] at hcookie
    exact ⟨cookie, hmem, by simp [domainEligible, hcookie.1, hcookie.2]⟩
  · have hpos : 0 < cookies.countP fun cookie => cookie.domain == domain := by
      simp only [domainExceeds, decide_eq_true_eq] at h
      omega
    obtain ⟨cookie, hmem, hdomain⟩ := List.countP_pos_iff.mp hpos
    rw [Bool.not_eq_true] at hopen
    exact ⟨cookie, hmem, by simp only [domainEligible, hdomain, hopen]; rfl⟩

/-- `enforce_capacity` removes cookies, until the domain and the store are within their
limits. -/
theorem enforceCapacity_spec (store : CookieStore τ) (domain : Text) :
    (store.enforceCapacity domain).cookies.Sublist store.cookies ∧
      domainCount domain (store.enforceCapacity domain).cookies ≤ maxCookiesPerDomain ∧
      (store.enforceCapacity domain).cookies.length ≤ maxCookies := by
  have hdomain : domainCount domain (evict (domainExceeds domain) (domainEligible domain)
      store.cookies.length store.cookies) ≤ maxCookiesPerDomain := by
    apply evict_measure
    · intro cookies
      simp [domainExceeds]
    · exact fun cookies => domainEligible_exists
    · intro cookies cookie heligible
      simp only [domainEligible, Bool.and_eq_true] at heligible
      exact heligible.1
    · exact List.countP_le_length.trans (Nat.le_add_left _ _)
  have hstore : ∀ cookies : List (StoredCookie τ),
      (evict storeExceeds (fun _ _ => true) cookies.length cookies).countP (fun _ => true) ≤
        maxCookies := by
    intro cookies
    apply evict_measure
    · intro cookies
      simp [storeExceeds]
    · intro cookies hmore
      simp only [storeExceeds, decide_eq_true_eq] at hmore
      have hpos : 0 < cookies.length := by omega
      exact ⟨cookies[0], List.getElem_mem hpos, rfl⟩
    · exact fun _ _ _ => rfl
    · exact List.countP_le_length.trans (Nat.le_add_left _ _)
  refine ⟨?_, ?_, ?_⟩
  · exact (evict_sublist _ _).trans (evict_sublist _ _)
  · exact (evict_sublist _ _).countP_le.trans hdomain
  · have hlength := hstore (evict (domainExceeds domain) (domainEligible domain)
      store.cookies.length store.cookies)
    rw [List.countP_true] at hlength
    exact hlength

/-! ## The operations -/

/-- The counters have not reached the end of `u64`. -/
def CookieStore.Fits (store : CookieStore τ) : Prop :=
  store.nextCreation < 2 ^ 64 - 1 ∧ store.nextAccess < 2 ^ 64 - 1

/-- A counter that fits after an increment did not saturate. -/
theorem saturatingSucc_of_lt {n : Nat} (h : saturatingSucc n < 2 ^ 64 - 1) :
    saturatingSucc n = n + 1 ∧ n < 2 ^ 64 - 1 := by
  unfold saturatingSucc at h ⊢
  omega

/-- A step of the store keeps the invariant, as long as the counters fit afterwards. -/
def Keeps (store next : CookieStore τ) : Prop :=
  next.Fits → store.Fits ∧ (WellFormed store → WellFormed next)

theorem Keeps.refl (store : CookieStore τ) : Keeps store store :=
  fun hfits => ⟨hfits, id⟩

theorem Keeps.trans {last : CookieStore τ} (h : Keeps store next) (hnext : Keeps next last) :
    Keeps store last := by
  intro hfits
  obtain ⟨hnextFits, hlast⟩ := hnext hfits
  obtain ⟨hstoreFits, hwellFormed⟩ := h hnextFits
  exact ⟨hstoreFits, hlast ∘ hwellFormed⟩

theorem keeps_of_sublist (hsub : next.cookies.Sublist store.cookies)
    (hcreation : next.nextCreation = store.nextCreation)
    (haccess : next.nextAccess = store.nextAccess) : Keeps store next := by
  intro hfits
  unfold CookieStore.Fits at hfits ⊢
  rw [hcreation, haccess] at hfits
  exact ⟨hfits, fun h => h.sublist hsub hcreation haccess⟩

/-- The times of a cookie do not matter for its acceptance. -/
theorem StoredCookie.Accepted.times {cookie : StoredCookie τ} (h : cookie.Accepted)
    (creation lastAccess : Nat) : { cookie with creation, lastAccess }.Accepted :=
  ⟨h.securePrefix, h.hostPrefix, h.nonempty, h.semicolon, h.control, h.octets⟩

theorem domainCount_eq_countP_map (domain : Text) (cookies : List (StoredCookie τ)) :
    domainCount domain cookies =
      (cookies.map StoredCookie.identity).countP fun identity => identity.2.1 == domain := by
  rw [List.countP_map]
  rfl

/-- Cookies are edited in place, and those that were touched get the next access value. -/
theorem keeps_edit {cookies : List (StoredCookie τ)}
    (hidentities : cookies.map StoredCookie.identity =
      store.cookies.map StoredCookie.identity)
    (hcreations : cookies.map StoredCookie.creation = store.cookies.map StoredCookie.creation)
    (haccess : ∀ cookie ∈ cookies, cookie.lastAccess = store.nextAccess ∨
      ∃ old ∈ store.cookies, cookie.lastAccess = old.lastAccess)
    (haccepted : (∀ old ∈ store.cookies, old.Accepted) → ∀ cookie ∈ cookies, cookie.Accepted) :
    Keeps store { store with cookies, nextAccess := saturatingSucc store.nextAccess } := by
  intro hfits
  obtain ⟨hsucc, haccessFits⟩ := saturatingSucc_of_lt hfits.2
  refine ⟨⟨hfits.1, haccessFits⟩, fun h => ?_⟩
  refine ⟨⟨hidentities ▸ h.identities, hcreations ▸ h.creations, ?_, ?_,
    haccepted h.accepted⟩, ?_, ?_⟩
  · intro cookie hmem
    have hcreation : cookie.creation ∈ store.cookies.map StoredCookie.creation :=
      hcreations ▸ List.mem_map_of_mem hmem
    obtain ⟨old, hold, heq⟩ := List.mem_map.mp hcreation
    exact heq ▸ h.nextCreation old hold
  · intro cookie hmem
    show cookie.lastAccess < saturatingSucc store.nextAccess
    rw [hsucc]
    rcases haccess cookie hmem with hnow | ⟨old, hold, heq⟩
    · omega
    · have hlt := h.nextAccess old hold
      omega
  · intro domain
    show domainCount domain cookies ≤ _
    rw [domainCount_eq_countP_map, hidentities, ← domainCount_eq_countP_map]
    exact h.perDomain domain
  · have hlength := congrArg List.length hcreations
    simp only [List.length_map] at hlength
    exact hlength ▸ h.total

/-- A cookie takes the place of the one with the same identity. -/
theorem keeps_replace {candidate existing : StoredCookie τ} {index : Nat}
    (haccepted : candidate.Accepted) (hindex : store.cookies[index]? = some existing)
    (hsame : existing.identity = candidate.identity) :
    Keeps store
      { store with
        cookies := store.cookies.modify index fun existing =>
          { candidate with lastAccess := store.nextAccess, creation := existing.creation }
        nextAccess := saturatingSucc store.nextAccess } := by
  apply keeps_edit
  · apply map_modify_eq
    intro other hother
    rw [hindex, Option.some.injEq] at hother
    exact hother ▸ hsame.symm
  · apply map_modify_eq
    exact fun _ _ => rfl
  · intro cookie hmem
    rcases mem_modify hmem with hold | ⟨old, -, rfl⟩
    · exact Or.inr ⟨cookie, hold, rfl⟩
    · exact Or.inl rfl
  · intro hstored cookie hmem
    rcases mem_modify hmem with hold | ⟨old, -, rfl⟩
    · exact hstored cookie hold
    · exact haccepted.times old.creation store.nextAccess

/-- A cookie with a new identity and the next values of the counters goes to the end. -/
theorem Ordered.push (h : Ordered store) {cookie : StoredCookie τ}
    (haccepted : cookie.Accepted)
    (hnew : ∀ old ∈ store.cookies, old.identity ≠ cookie.identity)
    (hcreation : cookie.creation = store.nextCreation)
    (haccess : cookie.lastAccess = store.nextAccess) :
    Ordered ⟨store.cookies ++ [cookie], store.nextCreation + 1, store.nextAccess + 1⟩ := by
  have hboth : ∀ {P : StoredCookie τ → Prop}, (∀ old ∈ store.cookies, P old) → P cookie →
      ∀ entry ∈ store.cookies ++ [cookie], P entry := by
    intro P hold hlast entry hmem
    rcases List.mem_append.mp hmem with hmem | hmem
    · exact hold entry hmem
    · exact List.mem_singleton.mp hmem ▸ hlast
  refine ⟨?_, ?_, ?_, ?_, hboth h.accepted haccepted⟩
  · rw [List.map_append, List.map_singleton, List.nodup_append]
    refine ⟨h.identities, by simp, ?_⟩
    intro identity hmem other hother
    obtain ⟨old, hold, rfl⟩ := List.mem_map.mp hmem
    rw [List.mem_singleton.mp hother]
    exact hnew old hold
  · rw [List.map_append, List.map_singleton, List.pairwise_append]
    refine ⟨h.creations, by simp, ?_⟩
    intro creation hmem other hother
    obtain ⟨old, hold, rfl⟩ := List.mem_map.mp hmem
    rw [List.mem_singleton.mp hother, hcreation]
    exact h.nextCreation old hold
  · refine hboth (fun old hold => Nat.lt_succ_of_lt (h.nextCreation old hold)) ?_
    rw [hcreation]
    exact Nat.lt_succ_self _
  · refine hboth (fun old hold => Nat.lt_succ_of_lt (h.nextAccess old hold)) ?_
    rw [haccess]
    exact Nat.lt_succ_self _

/-- A cookie with a new identity goes to the end, and the limits are enforced. -/
theorem keeps_push {candidate : StoredCookie τ} (haccepted : candidate.Accepted)
    (hnew : ∀ cookie ∈ store.cookies, cookie.identity ≠ candidate.identity) :
    Keeps store
      (CookieStore.enforceCapacity
        { cookies := store.cookies ++ [{ candidate with
            lastAccess := store.nextAccess, creation := store.nextCreation }]
          nextCreation := saturatingSucc store.nextCreation
          nextAccess := saturatingSucc store.nextAccess }
        candidate.domain) := by
  intro hfits
  obtain ⟨hcreation, hcreationFits⟩ := saturatingSucc_of_lt hfits.1
  obtain ⟨haccess, haccessFits⟩ := saturatingSucc_of_lt hfits.2
  refine ⟨⟨hcreationFits, haccessFits⟩, fun h => ?_⟩
  rw [hcreation, haccess]
  have hpushed := h.toOrdered.push (haccepted.times store.nextCreation store.nextAccess) hnew
    rfl rfl
  obtain ⟨hsub, hdomain, htotal⟩ := enforceCapacity_spec
    ⟨store.cookies ++ [{ candidate with
      lastAccess := store.nextAccess, creation := store.nextCreation }],
      store.nextCreation + 1, store.nextAccess + 1⟩ candidate.domain
  refine ⟨hpushed.sublist hsub rfl rfl, ?_, htotal⟩
  intro domain
  by_cases hsame : domain = candidate.domain
  · rw [hsame]
    exact hdomain
  · -- Another domain did not get a cookie.
    refine hsub.countP_le.trans ?_
    have hother : (candidate.domain == domain) = false := by
      simpa using fun heq : candidate.domain = domain => hsame heq.symm
    rw [List.countP_append, List.countP_singleton]
    simp only [hother, Bool.false_eq_true, if_false, Nat.add_zero]
    exact h.perDomain domain

/-- A cookie is kept. -/
theorem keeps_insert (store : CookieStore τ) {candidate : StoredCookie τ}
    (haccepted : candidate.Accepted) : Keeps store (store.insert candidate) := by
  unfold CookieStore.insert
  dsimp only
  split
  · rename_i index hfound
    obtain ⟨hlt, hsame, -⟩ := List.findIdx?_eq_some_iff_getElem.mp hfound
    exact keeps_replace haccepted (List.getElem?_eq_getElem hlt) (hasSameIdentity_iff.mp hsame)
  · rename_i hnone
    rw [List.findIdx?_eq_none_iff] at hnone
    refine keeps_push haccepted fun cookie hmem heq => ?_
    have hdifferent : cookie.hasSameIdentity candidate = false := hnone cookie hmem
    rw [hasSameIdentity_iff.mpr heq] at hdifferent
    simp at hdifferent

/-- The loop of `request_header` touches access values only. -/
theorem foldl_access_cookies (access : Nat) (entries : List (StoredCookie τ × Nat))
    (cookies : List (StoredCookie τ)) (header : Text) :
    (entries.foldl (CookieStore.access access) (cookies, header)).1.map StoredCookie.identity =
        cookies.map StoredCookie.identity ∧
      (entries.foldl (CookieStore.access access) (cookies, header)).1.map
        StoredCookie.creation = cookies.map StoredCookie.creation ∧
      ∀ cookie ∈ (entries.foldl (CookieStore.access access) (cookies, header)).1,
        ∃ old ∈ cookies, cookie = old ∨ cookie = { old with lastAccess := access } := by
  induction entries generalizing cookies header with
  | nil => exact ⟨rfl, rfl, fun cookie hmem => ⟨cookie, hmem, Or.inl rfl⟩⟩
  | cons entry entries ih =>
      rw [List.foldl_cons, CookieStore.access]
      obtain ⟨hidentities, hcreations, hmem⟩ := ih
        (cookies.modify entry.2 fun cookie => { cookie with lastAccess := access })
        (header ++ (if header = [] then [] else ("; " : Text)) ++ entry.1.wirePair)
      refine ⟨hidentities.trans (map_modify_eq _ _ fun _ _ => rfl),
        hcreations.trans (map_modify_eq _ _ fun _ _ => rfl), ?_⟩
      intro cookie hcookie
      obtain ⟨middle, hmiddle, hedited⟩ := hmem cookie hcookie
      rcases mem_modify hmiddle with hold | ⟨old, hold, rfl⟩
      · exact ⟨middle, hold, hedited⟩
      · refine ⟨old, List.mem_of_getElem? hold, Or.inr ?_⟩
        rcases hedited with rfl | rfl <;> rfl

section Operations

variable [LinearOrder τ]

theorem keeps_purgeExpired (store : CookieStore τ) (now : τ) :
    Keeps store (store.purgeExpired now) :=
  keeps_of_sublist List.filter_sublist rfl rfl

/-- The step lemma of `CookieStore::store`. -/
theorem keeps_store (tests : PrefixTests crates) (store : CookieStore τ)
    (value originHost requestPath : Text) (originSecure : Bool) (now : τ) :
    Keeps store (store.store crates value originHost requestPath originSecure now) := by
  unfold CookieStore.store
  split
  · exact Keeps.refl store
  · rename_i candidate hparse
    split
    · exact Keeps.refl store
    · split
      · split
        · exact keeps_of_sublist (List.eraseIdx_sublist _ _) rfl rfl
        · exact Keeps.refl store
      · exact keeps_insert store (accepted_of_parse tests hparse)

/-- The step lemma of `store_response_at`. -/
theorem keeps_storeResponseAt (tests : PrefixTests crates) (store : CookieStore τ)
    (url : HttpUrl) (headers : List (Text × Text)) (now : τ) :
    Keeps store (store.storeResponseAt crates url headers now) := by
  unfold CookieStore.storeResponseAt
  split
  · exact Keeps.refl store
  · rename_i host hhost
    refine (keeps_purgeExpired store now).trans ?_
    -- The loop over the header fields.
    generalize store.purgeExpired now = purged
    induction headers generalizing purged with
    | nil => exact Keeps.refl purged
    | cons header headers ih =>
        rw [List.foldl_cons]
        refine Keeps.trans ?_ (ih _)
        split
        · exact keeps_store tests purged _ _ _ _ _
        · exact Keeps.refl purged

/-- The step lemma of `request_header_at`. -/
theorem keeps_requestHeaderAt (store : CookieStore τ) (url : HttpUrl) (now : τ) :
    Keeps store (store.requestHeaderAt crates url now).2 := by
  unfold CookieStore.requestHeaderAt
  split
  · exact Keeps.refl store
  · rename_i host hhost
    refine (keeps_purgeExpired store now).trans ?_
    generalize store.purgeExpired now = purged
    unfold CookieStore.requestHeader
    dsimp only
    split
    · exact Keeps.refl purged
    · obtain ⟨hidentities, hcreations, hmem⟩ := foldl_access_cookies purged.nextAccess
        ((purged.cookies.zipIdx.filter fun entry =>
          entry.1.isMatch crates host url.path (isTrustworthyOrigin url)).insertionSort
            fun left right => left.1.precedes right.1) purged.cookies []
      refine keeps_edit hidentities hcreations ?_ ?_
      · intro cookie hcookie
        obtain ⟨old, hold, rfl | rfl⟩ := hmem cookie hcookie
        · exact Or.inr ⟨cookie, hold, rfl⟩
        · exact Or.inl rfl
      · intro hstored cookie hcookie
        obtain ⟨old, hold, rfl | rfl⟩ := hmem cookie hcookie
        · exact hstored cookie hold
        · exact (hstored old hold).times old.creation purged.nextAccess

/-- The run lemma. -/
theorem keeps_calls (tests : PrefixTests crates) (calls : List (Call τ))
    (store : CookieStore τ) : Keeps store (calls.foldl (CookieStore.call crates) store) := by
  induction calls generalizing store with
  | nil => exact Keeps.refl store
  | cons call calls ih =>
      rw [List.foldl_cons]
      refine Keeps.trans ?_ (ih _)
      cases call with
      | storeResponseAt url headers now => exact keeps_storeResponseAt tests store url headers now
      | requestHeaderAt url now => exact keeps_requestHeaderAt store url now

theorem wellFormed_after (tests : PrefixTests crates) (calls : List (Call τ))
    (hfits : (CookieStore.after crates calls).Fits) :
    WellFormed (CookieStore.after crates calls) :=
  (keeps_calls tests calls CookieStore.default hfits).2 wellFormed_default

/-- After every history whose counters stay below the end of `u64`, the stored cookies
have different identities, the limits hold, the counters bound the increasing creation
values and the access values, and every cookie is accepted. -/
theorem cookie_store_invariant (crates : CookieCrates τ) (tests : PrefixTests crates)
    (calls : List (Call τ)) (hfits : (CookieStore.after crates calls).Fits) :
    (CookieStore.after crates calls).cookies.Pairwise (fun cookie other =>
      ¬ (cookie.name = other.name ∧ cookie.domain = other.domain ∧
        cookie.hostOnly = other.hostOnly ∧ cookie.path = other.path)) ∧
    (∀ domain, ((CookieStore.after crates calls).cookies.countP fun cookie =>
      cookie.domain == domain) ≤ 50) ∧
    (CookieStore.after crates calls).cookies.length ≤ 3000 ∧
    (CookieStore.after crates calls).cookies.Pairwise (fun cookie other =>
      cookie.creation < other.creation) ∧
    ∀ cookie ∈ (CookieStore.after crates calls).cookies,
      cookie.creation < (CookieStore.after crates calls).nextCreation ∧
      cookie.lastAccess < (CookieStore.after crates calls).nextAccess ∧ cookie.Accepted := by
  have h := wellFormed_after tests calls hfits
  refine ⟨?_, h.perDomain, h.total, List.pairwise_map.mp h.creations, ?_⟩
  · refine (List.pairwise_map.mp h.identities).imp ?_
    intro cookie other hne hidentity
    obtain ⟨hname, hdomain, hhostOnly, hpath⟩ := hidentity
    exact hne (by simp [StoredCookie.identity, hname, hdomain, hhostOnly, hpath])
  · intro cookie hmem
    exact ⟨h.nextCreation cookie hmem, h.nextAccess cookie hmem, h.accepted cookie hmem⟩

end Operations

namespace CookieExample

/-- The functions of the other crates on hosts, paths and fields of plain ASCII without
dates. -/
def plainCrates : CookieCrates Nat where
  parseCookieDate _ := none
  domainMatches host domain :=
    host == domain || ((parseIpAddr host).isNone && ('.' :: domain).isSuffixOf host)
  toAscii domain := some (toAsciiLowercase domain)
  hasHostPrefix text := hostPrefix.isPrefixOf text
  hasSecurePrefix text := securePrefix.isPrefixOf text
  defaultPath path := ((rsplitOnce '/' path).map Prod.fst).filter (· ≠ []) |>.getD "/"
  pathMatches path cookiePath :=
    path == cookiePath || (cookiePath.isPrefixOf path &&
      (cookiePath.getLast? == some '/' || (path.drop cookiePath.length).head? == some '/'))
  saturatingAdd now seconds := now + seconds.toNat
  isHeaderValue text := text.all fun c => c == '\t' || (0x20 ≤ c.toNat && c.toNat != 0x7f)

theorem tests : PrefixTests plainCrates := ⟨fun _ => rfl, fun _ => rfl⟩

/-- `https://app.example.com/shop/cart`. -/
def url : HttpUrl where
  inner :=
    { scheme := "https"
      username := []
      password := none
      hostStr := some ("app.example.com" : Text)
      port := none
      path := "/shop/cart"
      query := none
      fragment := none }
  supported := rfl
  hasHost := rfl

/-- A response with a prefixed cookie, a cookie that is replaced, one for the parent
domain, and a value that would read as a prefixed name. -/
def history : List (Call Nat) :=
  [.storeResponseAt url
    [("Set-Cookie", "__Host-id=1; Secure; Path=/"), ("set-cookie", "a=1"),
      ("set-cookie", "b=2; Domain=.example.com; Path=/shop; Max-Age=60"),
      ("set-cookie", "a=3"), ("set-cookie", "=__Secure-x"), ("date", "c=4")] 5]

theorem cookie_store_invariant_example :
    ((CookieStore.after plainCrates history).cookies.map fun cookie =>
      (cookie.wirePair, cookie.creation, cookie.lastAccess)) =
        [("__Host-id=1".toList, 0, 0), ("a=3".toList, 1, 3), ("b=2".toList, 2, 2)] ∧
      ∀ cookie ∈ (CookieStore.after plainCrates history).cookies, cookie.Accepted := by
  refine ⟨by decide, fun cookie hmem => ?_⟩
  have h := cookie_store_invariant plainCrates tests history ⟨by decide, by decide⟩
  exact (h.2.2.2.2 cookie hmem).2.2

end CookieExample

end FogHttp.Cookies
