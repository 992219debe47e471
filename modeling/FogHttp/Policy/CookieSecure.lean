import FogHttp.Policy.CookieStore
import Mathlib.Data.List.Induction

/-!
# Secure cookies and insecure origins

A response from an insecure origin cannot set a secure cookie, and it must not
disturb one that another response set.  `CookieStore::store` has three ways to
take a cookie out, and each has its own guard.

* A replacement and a deletion hit the cookie of the same identity.  A candidate
  with the identity of a secure cookie overlays it, because domains and paths
  match themselves, and `store` refuses such a candidate.
* The eviction loop of the domain takes a secure cookie only while the domain has
  no other.  Before a store the domain is within its limit, so the loop runs once
  at most, and then the candidate itself is such another cookie.
* The eviction loop of the store does not run while there is room.

`WithinDomains` is the part of the store's invariant that the second guard needs.
It does not depend on the counters, so it holds after every history.
-/

namespace FogHttp.Cookies

open Lib

variable {τ : Type} {crates : CookieCrates τ}

/-! ## The limit of a domain -/

/-- Every domain is within its limit. -/
def WithinDomains (store : CookieStore τ) : Prop :=
  ∀ domain, domainCount domain store.cookies ≤ maxCookiesPerDomain

variable {store next : CookieStore τ}

theorem WithinDomains.sublist (h : WithinDomains store)
    (hsub : next.cookies.Sublist store.cookies) : WithinDomains next :=
  fun domain => hsub.countP_le.trans (h domain)

/-- The limit is about the identities only. -/
theorem WithinDomains.edit (h : WithinDomains store)
    (hsame : next.cookies.map StoredCookie.identity =
      store.cookies.map StoredCookie.identity) : WithinDomains next := by
  intro domain
  rw [domainCount_eq_countP_map, hsame, ← domainCount_eq_countP_map]
  exact h domain

theorem withinDomains_insert (h : WithinDomains store) (candidate : StoredCookie τ) :
    WithinDomains (store.insert candidate) := by
  unfold CookieStore.insert
  dsimp only
  split
  · rename_i index hindex
    rw [List.findIdx?_eq_some_iff_getElem] at hindex
    obtain ⟨hlt, hsame, -⟩ := hindex
    refine h.edit (map_modify_eq _ _ ?_)
    intro existing hexisting
    rw [List.getElem?_eq_getElem hlt, Option.some.injEq] at hexisting
    subst hexisting
    exact (hasSameIdentity_iff.mp hsame).symm
  · intro domain
    obtain ⟨hsub, hdomain, -⟩ := enforceCapacity_spec
      { cookies := store.cookies ++ [{ candidate with
          lastAccess := store.nextAccess, creation := store.nextCreation }]
        nextCreation := saturatingSucc store.nextCreation
        nextAccess := saturatingSucc store.nextAccess } candidate.domain
    by_cases hsame : domain = candidate.domain
    · rw [hsame]
      exact hdomain
    · have hother : (candidate.domain == domain) = false :=
        beq_eq_false_iff_ne.mpr (Ne.symm hsame)
      refine hsub.countP_le.trans ?_
      rw [List.countP_append, List.countP_singleton]
      simp only [hother, Bool.false_eq_true, if_false, Nat.add_zero]
      exact h domain

section Operations

variable [LinearOrder τ]

theorem withinDomains_store (h : WithinDomains store) (value originHost requestPath : Text)
    (originSecure : Bool) (now : τ) :
    WithinDomains (store.store crates value originHost requestPath originSecure now) := by
  unfold CookieStore.store
  split
  · exact h
  · split
    · exact h
    · split
      · split
        · exact h.sublist (List.eraseIdx_sublist _ _)
        · exact h
      · exact withinDomains_insert h _

theorem withinDomains_storeResponseAt (h : WithinDomains store) (url : HttpUrl)
    (headers : List (Text × Text)) (now : τ) :
    WithinDomains (store.storeResponseAt crates url headers now) := by
  unfold CookieStore.storeResponseAt
  split
  · exact h
  · have hpurged : WithinDomains (store.purgeExpired now) := h.sublist List.filter_sublist
    generalize store.purgeExpired now = purged at hpurged
    induction headers generalizing purged with
    | nil => exact hpurged
    | cons header headers ih =>
        rw [List.foldl_cons]
        apply ih
        split
        · exact withinDomains_store hpurged _ _ _ _ _
        · exact hpurged

theorem withinDomains_requestHeaderAt (h : WithinDomains store) (url : HttpUrl) (now : τ) :
    WithinDomains (store.requestHeaderAt crates url now).2 := by
  unfold CookieStore.requestHeaderAt
  split
  · exact h
  · have hpurged : WithinDomains (store.purgeExpired now) := h.sublist List.filter_sublist
    unfold CookieStore.requestHeader
    dsimp only
    split
    · exact hpurged
    · exact hpurged.edit (foldl_access_cookies _ _ _ _).1

/-- Every history keeps the domains within their limit. -/
theorem withinDomains_after (calls : List (Call τ)) :
    WithinDomains (CookieStore.after crates calls) := by
  have hrun : ∀ store : CookieStore τ, WithinDomains store →
      WithinDomains (calls.foldl (CookieStore.call crates) store) := by
    induction calls with
    | nil => exact fun _ h => h
    | cons call calls ih =>
        intro store h
        rw [List.foldl_cons]
        apply ih
        cases call with
        | storeResponseAt url headers now => exact withinDomains_storeResponseAt h url headers now
        | requestHeaderAt url now => exact withinDomains_requestHeaderAt h url now
  apply hrun
  intro domain
  simp [CookieStore.default, domainCount]

end Operations

/-! ## Eviction -/

section Evict

variable {exceeds : List (StoredCookie τ) → Bool}
  {eligible : List (StoredCookie τ) → StoredCookie τ → Bool}

theorem evict_of_within (fuel : Nat) {cookies : List (StoredCookie τ)}
    (h : exceeds cookies = false) : evict exceeds eligible fuel cookies = cookies := by
  cases fuel with
  | zero => rfl
  | succ fuel => simp [evict, h]

/-- A loop that stops after one round removes one eligible cookie at most. -/
theorem mem_evict_once {fuel : Nat} {cookies : List (StoredCookie τ)} {cookie : StoredCookie τ}
    (hmem : cookie ∈ cookies) (hspared : eligible cookies cookie = false)
    (honce : ∀ index victim, cookies[index]? = some victim →
      eligible cookies victim = true → exceeds (cookies.eraseIdx index) = false) :
    cookie ∈ evict exceeds eligible fuel cookies := by
  cases fuel with
  | zero => exact hmem
  | succ fuel =>
      rw [evict]
      split
      · split
        · rename_i index hindex
          obtain ⟨victim, hvictim, heligible⟩ := leastRecent_eq_some hindex
          rw [evict_of_within fuel (honce index victim hvictim heligible)]
          apply mem_eraseIdx_of_ne hvictim hmem
          intro hsame
          subst hsame
          simp [hspared] at heligible
        · exact hmem
      · exact hmem

end Evict

/-- The capacity is enforced after a push to a store with room: a secure cookie is kept
when the pushed cookie is not secure. -/
theorem mem_enforceCapacity_push {cookie pushed : StoredCookie τ} {nextCreation nextAccess : Nat}
    (h : WithinDomains store) (hroom : store.cookies.length < maxCookies)
    (hmem : cookie ∈ store.cookies) (hsecure : cookie.secure = true)
    (hpushed : pushed.secure = false) :
    cookie ∈ (CookieStore.enforceCapacity ⟨store.cookies ++ [pushed], nextCreation, nextAccess⟩
      pushed.domain).cookies := by
  have hdomain : cookie ∈ evict (domainExceeds pushed.domain) (domainEligible pushed.domain)
      (store.cookies ++ [pushed]).length (store.cookies ++ [pushed]) := by
    apply mem_evict_once (List.mem_append_left _ hmem)
    · -- The pushed cookie is one of the domain that is not secure.
      have hopen : (store.cookies ++ [pushed]).any
          (fun cookie => cookie.domain == pushed.domain && !cookie.secure) = true := by
        simp [hpushed]
      simp [domainEligible, hopen, hsecure]
    · intro index victim hvictim heligible
      simp only [domainEligible, Bool.and_eq_true] at heligible
      have herased := countP_eraseIdx (fun cookie => cookie.domain == pushed.domain) hvictim
      have hbefore := h pushed.domain
      unfold domainCount at hbefore
      rw [heligible.1, List.countP_append, List.countP_singleton] at herased
      simp only [BEq.rfl, if_true, Bool.toNat_true] at herased
      simp only [domainExceeds, decide_eq_false_iff_not]
      omega
  unfold CookieStore.enforceCapacity
  dsimp only
  rw [evict_of_within]
  · exact hdomain
  · have hlength : (evict (domainExceeds pushed.domain) (domainEligible pushed.domain)
        (store.cookies ++ [pushed]).length (store.cookies ++ [pushed])).length ≤
          (store.cookies ++ [pushed]).length :=
      (evict_sublist _ _).length_le
    rw [List.length_append, List.length_singleton] at hlength
    simp only [storeExceeds, decide_eq_false_iff_not]
    rw [List.length_append, List.length_singleton]
    omega

/-! ## One candidate -/

/-- A candidate that is not secure replaces another cookie or is pushed. -/
theorem mem_insert_of_secure {candidate cookie : StoredCookie τ} (h : WithinDomains store)
    (hroom : store.cookies.length < maxCookies) (hmem : cookie ∈ store.cookies)
    (hsecure : cookie.secure = true) (hcandidate : candidate.secure = false)
    (hother : cookie.identity ≠ candidate.identity) :
    cookie ∈ (store.insert candidate).cookies := by
  unfold CookieStore.insert
  dsimp only
  split
  · rename_i index hindex
    rw [List.findIdx?_eq_some_iff_getElem] at hindex
    obtain ⟨hlt, hsame, -⟩ := hindex
    apply mem_modify_of_ne (List.getElem?_eq_getElem hlt) hmem
    intro hsame
    subst hsame
    exact hother (hasSameIdentity_iff.mp hsame)
  · have hpushed : ({ candidate with
        lastAccess := store.nextAccess, creation := store.nextCreation } :
          StoredCookie τ).secure = false := hcandidate
    exact mem_enforceCapacity_push h hroom hmem hsecure hpushed

/-- A candidate with the identity of a secure cookie overlays it. -/
theorem overlay_of_identity (hdomain : ∀ domain, crates.domainMatches domain domain = true)
    (hpath : ∀ path, crates.pathMatches path path = true) {candidate cookie : StoredCookie τ}
    (hmem : cookie ∈ store.cookies) (hsecure : cookie.secure = true)
    (hsame : cookie.identity = candidate.identity) :
    store.wouldOverlaySecureCookie crates candidate = true := by
  simp only [StoredCookie.identity, Prod.mk.injEq] at hsame
  obtain ⟨hname, hsameDomain, -, hsamePath⟩ := hsame
  apply List.any_eq_true.mpr
  refine ⟨cookie, hmem, ?_⟩
  rw [hsecure, hname, hsameDomain, hsamePath, hdomain, hpath]
  simp

section Responses

variable [LinearOrder τ]

/-- A cookie from an insecure origin is not secure. -/
theorem secure_of_parse {value originHost requestPath : Text} {now : τ}
    {candidate : StoredCookie τ}
    (h : StoredCookie.parse crates value originHost requestPath false now = some candidate) :
    candidate.secure = false := by
  obtain ⟨cookieValue, pathPresent, -, -, -, -, haccepted⟩ := parse_eq_some h
  simp only [StoredCookie.refused, Bool.or_eq_false_iff, Bool.not_false, Bool.and_true]
    at haccepted
  exact haccepted.1.1.1

/-- `store` keeps the secure cookies when the origin is insecure and there is room. -/
theorem mem_store_of_secure (hdomain : ∀ domain, crates.domainMatches domain domain = true)
    (hpath : ∀ path, crates.pathMatches path path = true) {cookie : StoredCookie τ}
    (h : WithinDomains store) (hroom : store.cookies.length < maxCookies)
    (hmem : cookie ∈ store.cookies) (hsecure : cookie.secure = true)
    (value originHost requestPath : Text) (now : τ) :
    cookie ∈ (store.store crates value originHost requestPath false now).cookies := by
  unfold CookieStore.store
  split
  · exact hmem
  · rename_i candidate hparse
    split
    · exact hmem
    · rename_i hallowed
      have hother : cookie.identity ≠ candidate.identity := by
        intro hsame
        apply hallowed
        rw [overlay_of_identity hdomain hpath hmem hsecure hsame]
        rfl
      split
      · split
        · rename_i index hindex
          rw [List.findIdx?_eq_some_iff_getElem] at hindex
          obtain ⟨hlt, hsame, -⟩ := hindex
          apply mem_eraseIdx_of_ne (List.getElem?_eq_getElem hlt) hmem
          intro hsame
          subst hsame
          exact hother (hasSameIdentity_iff.mp hsame)
        · exact hmem
      · exact mem_insert_of_secure h hroom hmem hsecure (secure_of_parse hparse) hother

/-- The store after the fields of a prefix, with the next field. -/
theorem storeResponseAt_append (store : CookieStore τ) (url : HttpUrl)
    (headers : List (Text × Text)) (header : Text × Text) (now : τ) {host : Text}
    (hhost : canonicalCookieDomain crates url.host = some host) :
    store.storeResponseAt crates url (headers ++ [header]) now =
      if CookieStore.isSetCookie header then
        (store.storeResponseAt crates url headers now).store crates header.2 host url.path
          (isTrustworthyOrigin url) now
      else store.storeResponseAt crates url headers now := by
  simp only [CookieStore.storeResponseAt, hhost, List.foldl_append, List.foldl_cons,
    List.foldl_nil]

/-- Whatever the fields of a response from an insecure origin try, every unexpired secure
cookie is still in the store as it was. -/
theorem secure_cookies_undisturbed (crates : CookieCrates τ)
    (hdomain : ∀ domain, crates.domainMatches domain domain = true)
    (hpath : ∀ path, crates.pathMatches path path = true)
    (calls : List (Call τ)) (url : HttpUrl) (hinsecure : isTrustworthyOrigin url = false)
    (headers : List (Text × Text)) (now : τ)
    (hroom : ∀ before field after, headers = before ++ field :: after →
      CookieStore.isSetCookie field = true →
      ((CookieStore.after crates calls).storeResponseAt crates url before now).cookies.length <
        maxCookies) :
    ∀ cookie ∈ (CookieStore.after crates calls).cookies, cookie.secure = true →
      cookie.isExpired now = false →
      cookie ∈ ((CookieStore.after crates calls).storeResponseAt crates url headers
        now).cookies := by
  intro cookie hmem hsecure hlive
  cases hhost : canonicalCookieDomain crates url.host with
  | none => simpa [CookieStore.storeResponseAt, hhost] using hmem
  | some host =>
      -- By induction on the fields that were stored so far, the last one taken off the end.
      induction headers using List.reverseRecOn with
      | nil =>
          simp only [CookieStore.storeResponseAt, hhost, List.foldl_nil]
          exact List.mem_filter.mpr ⟨hmem, by simp [hlive]⟩
      | append_singleton headers header ih =>
          have hkept := ih fun before field after hsplit hfield =>
            hroom before field (after ++ [header]) (by simp [hsplit]) hfield
          rw [storeResponseAt_append _ _ _ _ _ hhost]
          split
          · rename_i hfield
            rw [hinsecure]
            have hwithin : WithinDomains
                ((CookieStore.after crates calls).storeResponseAt crates url headers now) :=
              withinDomains_storeResponseAt (withinDomains_after calls) url headers now
            exact mem_store_of_secure hdomain hpath hwithin (hroom headers header [] rfl hfield)
              hkept hsecure header.2 host url.path now
          · exact hkept

end Responses

namespace CookieExample

/-- `http://app.example.com/shop/cart`. -/
def insecureUrl : HttpUrl where
  inner := { url.inner with scheme := "http" }
  supported := rfl
  hasHost := rfl

/-- Fields that try to replace the secure cookie, to delete it and to shadow it. -/
def hostileFields : List (Text × Text) :=
  [("set-cookie", "__Host-id=2; Path=/"), ("set-cookie", "__Host-id=2; Secure; Path=/"),
    ("set-cookie", "sid=9"), ("set-cookie", "sid=9; Max-Age=0"),
    ("set-cookie", "sid=9; Domain=example.com; Path=/shop"), ("set-cookie", "b=2")]

/-- A secure cookie, set from the secure origin. -/
def secureHistory : List (Call Nat) :=
  [.storeResponseAt url [("set-cookie", "sid=1; Secure")] 5]

theorem secure_cookies_undisturbed_example :
    ((CookieStore.after plainCrates secureHistory).storeResponseAt plainCrates insecureUrl
        hostileFields 6).cookies.map StoredCookie.wirePair = ["sid=1".toList, "b=2".toList] ∧
      ∀ cookie ∈ (CookieStore.after plainCrates secureHistory).cookies,
        cookie.secure = true → cookie.isExpired 6 = false →
        cookie ∈ ((CookieStore.after plainCrates secureHistory).storeResponseAt plainCrates
          insecureUrl hostileFields 6).cookies := by
  refine ⟨by decide, ?_⟩
  apply secure_cookies_undisturbed plainCrates (fun _ => by simp [plainCrates])
    (fun _ => by simp [plainCrates]) secureHistory insecureUrl (by decide) hostileFields 6
  intro before field after hsplit hfield
  have hbefore : before = hostileFields.take before.length := by rw [hsplit, List.take_left]
  have hlength : before.length < 6 := by
    have htotal := congrArg List.length hsplit
    rw [List.length_append, List.length_cons] at htotal
    have hsix : hostileFields.length = 6 := rfl
    omega
  have hall : ∀ taken < 6, ((CookieStore.after plainCrates secureHistory).storeResponseAt
      plainCrates insecureUrl (hostileFields.take taken) 6).cookies.length < maxCookies := by
    decide
  rw [hbefore]
  exact hall before.length hlength

end CookieExample

end FogHttp.Cookies
