import FogHttp.Policy.Redirect

/-!
# Request headers along a chain of redirects

`redirectHeaders` is a filter that reads the list it filters: a `Connection` header
nominates other headers.  It never lets a `Connection` header through, so behind the first
redirect nothing is nominated any more, and every later redirect filters by name alone
(`redirectHeaders_of_not_nominating`).  By name alone, two redirects keep what one
redirect keeps that is as strict as both (`keeps_and`).

`redirect_headers_compose` is the result for a whole chain.
-/

namespace FogHttp

open Lib

/-- What a redirect asks of `redirect_headers`. -/
structure RedirectHop where
  body : RequestBodyMutation
  headerPolicy : RedirectHeaderPolicy
deriving DecidableEq, Repr

namespace RedirectHop

def apply (headers : HeaderPairs) (hop : RedirectHop) : HeaderPairs :=
  redirectHeaders headers hop.body hop.headerPolicy

/-- The headers behind a chain of redirects. -/
def applyAll (headers : HeaderPairs) (hops : List RedirectHop) : HeaderPairs :=
  hops.foldl apply headers

/-- One redirect that is as strict as all of these. -/
def strongest (hops : List RedirectHop) : RedirectHop where
  body := if hops.any fun hop => hop.body == .drop then .drop else .preserve
  headerPolicy :=
    if hops.any fun hop => hop.headerPolicy == .crossOrigin then .crossOrigin else .sameOrigin

/-- The header stays when no header is nominated. -/
def keeps (hop : RedirectHop) (header : Text × Text) : Bool :=
  keepRedirectHeader header.1 hop.body hop.headerPolicy []

theorem strongest_singleton (hop : RedirectHop) : strongest [hop] = hop := by
  obtain ⟨body, headerPolicy⟩ := hop
  cases body <;> cases headerPolicy <;> rfl

theorem strongest_strongest (hop next : RedirectHop) (hops : List RedirectHop) :
    strongest (strongest [hop, next] :: hops) = strongest (hop :: next :: hops) := by
  obtain ⟨body, headerPolicy⟩ := hop
  obtain ⟨nextBody, nextPolicy⟩ := next
  cases body <;> cases headerPolicy <;> cases nextBody <;> cases nextPolicy <;>
    simp [strongest]

theorem strongest_append_self (hop : RedirectHop) (hops : List RedirectHop) :
    strongest (hop :: (hops ++ hop :: hops)) = strongest (hop :: hops) := by
  have hany : ∀ p : RedirectHop → Bool,
      (hop :: (hops ++ hop :: hops)).any p = (hop :: hops).any p := by
    intro p
    rw [List.any_cons, List.any_append, List.any_cons]
    cases p hop <;> simp
  unfold strongest
  rw [hany, hany]

end RedirectHop

/-! ## One redirect -/

/-- A header stays when its name does and nothing nominates it. -/
theorem keepRedirectHeader_eq (name : Text) (body : RequestBodyMutation)
    (policy : RedirectHeaderPolicy) (options : List Text) :
    keepRedirectHeader name body policy options =
      (keepRedirectHeader name body policy [] && !options.any (eqIgnoreAsciiCase name)) := by
  unfold keepRedirectHeader
  cases options.any (eqIgnoreAsciiCase name)
  · simp
  · simp

/-- A header that stays is no connection header, not conditional and not nominated. -/
theorem not_listed_of_keep {name : Text} {body : RequestBodyMutation}
    {policy : RedirectHeaderPolicy} {options : List Text}
    (h : keepRedirectHeader name body policy options = true) :
    headerIn name alwaysRebuiltHeaders = false ∧ headerIn name conditionalHeaders = false ∧
      ∀ option ∈ options, eqIgnoreAsciiCase name option = false := by
  unfold keepRedirectHeader at h
  split at h
  · cases h
  · rename_i hlisted
    simp only [Bool.or_eq_true, not_or, Bool.not_eq_true, List.any_eq_false] at hlisted
    exact ⟨hlisted.1.1, hlisted.1.2, hlisted.2⟩

/-- Behind a redirect no header is nominated. -/
theorem connectionOptions_redirectHeaders (headers : HeaderPairs) (body : RequestBodyMutation)
    (policy : RedirectHeaderPolicy) :
    connectionOptions (redirectHeaders headers body policy) = [] := by
  have hnone : ((redirectHeaders headers body policy).filter
      fun header => eqIgnoreAsciiCase header.1 "connection") = [] := by
    refine List.filter_eq_nil_iff.mpr fun header hmem hconnection => ?_
    have hlisted := (not_listed_of_keep (List.mem_filter.mp hmem).2).1
    rw [headerIn, List.any_eq_false] at hlisted
    exact hlisted "connection" (by simp [alwaysRebuiltHeaders]) hconnection
  rw [connectionOptions, hnone]
  rfl

theorem redirectHeaders_of_not_nominating {headers : HeaderPairs}
    (h : connectionOptions headers = []) (hop : RedirectHop) :
    hop.apply headers = headers.filter hop.keeps := by
  unfold RedirectHop.apply redirectHeaders
  rw [h]
  rfl

/-! ## A chain of redirects -/

namespace RedirectHop

/-- By name alone, two redirects keep what one keeps that is as strict as both. -/
theorem keeps_and (hop next : RedirectHop) (header : Text × Text) :
    (hop.keeps header && next.keeps header) = (strongest [hop, next]).keeps header := by
  obtain ⟨body, headerPolicy⟩ := hop
  obtain ⟨nextBody, nextPolicy⟩ := next
  unfold keeps keepRedirectHeader
  cases headerIn header.1 alwaysRebuiltHeaders || headerIn header.1 conditionalHeaders ||
    ([] : List Text).any (eqIgnoreAsciiCase header.1)
  case true => rfl
  case false =>
    cases isContentMetadataHeader header.1 <;> cases headerIn header.1 crossOriginHeaders <;>
      cases body <;> cases headerPolicy <;> cases nextBody <;> cases nextPolicy <;> rfl

/-- Two redirects in a row filter like one that is as strict as both. -/
theorem apply_apply (headers : HeaderPairs) (hop next : RedirectHop) :
    apply (apply headers hop) next = apply headers (strongest [hop, next]) := by
  have hsecond : apply (apply headers hop) next = (apply headers hop).filter next.keeps :=
    redirectHeaders_of_not_nominating (connectionOptions_redirectHeaders ..) next
  rw [hsecond]
  show (headers.filter _).filter _ = headers.filter _
  rw [List.filter_filter]
  refine List.filter_congr fun header _ => ?_
  rw [keepRedirectHeader_eq, keepRedirectHeader_eq header.1 (strongest [hop, next]).body]
  have hboth := keeps_and hop next header
  unfold keeps at hboth ⊢
  rw [← hboth, Bool.and_comm, Bool.and_right_comm]

/-- A chain filters like one redirect that is as strict as all of it. -/
theorem applyAll_cons (headers : HeaderPairs) (hop : RedirectHop) (hops : List RedirectHop) :
    applyAll headers (hop :: hops) = apply headers (strongest (hop :: hops)) := by
  induction hops generalizing hop with
  | nil => rw [strongest_singleton]; rfl
  | cons next hops ih =>
      calc applyAll headers (hop :: next :: hops)
          = applyAll (apply (apply headers hop) next) hops := rfl
        _ = applyAll headers (strongest [hop, next] :: hops) := by rw [apply_apply]; rfl
        _ = apply headers (strongest (strongest [hop, next] :: hops)) := ih _
        _ = apply headers (strongest (hop :: next :: hops)) := by rw [strongest_strongest]

end RedirectHop

/-- A chain of redirects leaves the headers that its strictest redirect would leave.  They
stand in their order with their values, none of them is a connection header, conditional or
nominated by the headers of the first request, and the same chain changes nothing more. -/
theorem redirect_headers_compose (headers : HeaderPairs) (hop : RedirectHop)
    (hops : List RedirectHop) :
    let result := RedirectHop.applyAll headers (hop :: hops)
    let strongest := RedirectHop.strongest (hop :: hops)
    result = redirectHeaders headers strongest.body strongest.headerPolicy ∧
      result.Sublist headers ∧
      (∀ header ∈ result, headerIn header.1 alwaysRebuiltHeaders = false ∧
        headerIn header.1 conditionalHeaders = false ∧
        ∀ option ∈ connectionOptions headers, eqIgnoreAsciiCase header.1 option = false) ∧
      redirectHeaders result strongest.body strongest.headerPolicy = result ∧
      RedirectHop.applyAll result (hop :: hops) = result := by
  have hresult := RedirectHop.applyAll_cons headers hop hops
  have hagain : RedirectHop.applyAll (RedirectHop.applyAll headers (hop :: hops))
      (hop :: hops) = RedirectHop.applyAll headers (hop :: hops) := by
    have htwice := RedirectHop.applyAll_cons headers hop (hops ++ hop :: hops)
    rw [RedirectHop.strongest_append_self, ← hresult] at htwice
    exact (List.foldl_append (l := hop :: hops)).symm.trans htwice
  refine ⟨hresult, ?_, ?_, ?_, hagain⟩
  · rw [hresult]
    exact List.filter_sublist
  · rw [hresult]
    intro header hmem
    exact not_listed_of_keep (List.mem_filter.mp hmem).2
  · have honce := RedirectHop.applyAll_cons (RedirectHop.applyAll headers (hop :: hops)) hop hops
    rw [hagain] at honce
    exact honce.symm

end FogHttp
