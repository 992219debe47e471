import FogHttp.Acquire.Gate
import FogHttp.ConnectionLimit.Gate
import FogHttp.Core.Origin
import FogHttp.Policy.Pipeline

/-!
# One partition into origins

Two notions of origin are in use.  The redirect policy asks `is_same_origin`.  The
environment proxy, the SSRF allowlist and the gates keep the text of `origin` and compare
texts.  The lemmas below say of each of them that it tells two URLs apart exactly by this
text, and `origins_agree` puts them beside `is_same_origin`.
-/

namespace FogHttp

open Lib

/-- The redirect policy keeps the credentials within an origin. -/
theorem headerPolicy_eq_sameOrigin_iff (url other : HttpUrl) (body : RequestBodyMutation) :
    (redirectSecurityPolicy url other body).headerPolicy = .sameOrigin ↔
      url.isSameOrigin other = true := by
  show (if url.isSameOrigin other then RedirectHeaderPolicy.sameOrigin else .crossOrigin) =
    .sameOrigin ↔ _
  split
  · rename_i hsame
    simp [hsame]
  · rename_i hdiffers
    simp [hdiffers]

theorem validateRedirect_eq_ok_iff (url other : HttpUrl) (route : TransportRoute) :
    (ProxyPolicy.environment url.origin route).validateRedirect other = .ok () ↔
      url.origin = other.origin := by
  rw [ProxyPolicy.validateRedirect, eq_comm (a := url.origin)]
  split
  · rename_i hsame
    simp [hsame]
  · rename_i hdiffers
    simp [hdiffers]

theorem route_eq_ok_iff (url other : HttpUrl) (route : TransportRoute) :
    (ProxyPolicy.environment url.origin route).route other = .ok route ↔
      url.origin = other.origin := by
  rw [ProxyPolicy.route, eq_comm (a := url.origin)]
  split
  · rename_i hsame
    simp [hsame]
  · rename_i hdiffers
    simp [hdiffers]

/-- No allowlist tells two URLs of one origin apart, and one does for any other two. -/
theorem origins_contains_iff (url other : HttpUrl) :
    (∀ policy : SsrfPolicy,
        policy.origins.contains url.origin = policy.origins.contains other.origin) ↔
      url.origin = other.origin := by
  constructor
  · intro h
    have hone := h ⟨[], [url.origin], []⟩
    simp only [List.contains_cons, List.contains_nil, Bool.or_false, beq_self_eq_true] at hone
    exact (beq_iff_eq.mp hone.symm).symm
  · intro h policy
    rw [h]

/-- The acquire gate has one semaphore for an origin. -/
theorem semaphore_eq_iff (url other : HttpUrl) :
    (∀ (gate : Acquire.Gate) (limit : Nat),
        gate.semaphore limit url.origin = gate.semaphore limit other.origin) ↔
      url.origin = other.origin := by
  constructor
  · intro h
    have hnew := h (Acquire.Gate.new ⟨0, none, 0⟩) 1
    have hmaps : [(url.origin, 0)] = [(other.origin, 0)] :=
      congrArg (fun result : Nat × Acquire.Gate => result.2.semaphores) hnew
    exact (Prod.mk.inj (List.singleton_inj.mp hmaps)).1
  · intro h gate limit
    rw [h]

/-- The connection gate has one semaphore for an origin. -/
theorem lookupSemaphore_eq_iff (url other : HttpUrl) :
    (∀ (gate : ConnectionLimit.ConnectionGate) (i : Nat)
        (acquisition : ConnectionLimit.Acquisition),
        gate.lookupSemaphore i acquisition url.origin =
          gate.lookupSemaphore i acquisition other.origin) ↔
      url.origin = other.origin := by
  constructor
  · intro h
    -- In a map with the one origin only, the lookup of another one takes the lock.
    have hone := h { ConnectionLimit.ConnectionGate.new ⟨none, none⟩ with
      gates := [(url.origin, 0)] } 0 (.call none)
    by_contra hne
    have hmiss : List.lookup other.origin [(url.origin, 0)] = none := by
      rw [List.lookup_cons, beq_eq_false_iff_ne.mpr (Ne.symm hne)]
      rfl
    have hhit : List.lookup url.origin [(url.origin, 0)] = some 0 := List.lookup_cons_self
    simp only [ConnectionLimit.ConnectionGate.lookupSemaphore,
      ConnectionLimit.ConnectionGate.new, hmiss, hhit] at hone
    have hlock : (none : Option Nat) = some 0 :=
      congrArg ConnectionLimit.ConnectionGate.lock (Option.some.inj hone)
    cases hlock
  · intro h gate i acquisition
    rw [h]

/-- For URLs in normal form, the redirect policy, the environment proxy, the allowlist and
the gates all go by the same partition. -/
theorem origins_agree {url other : HttpUrl} (hurl : url.Normal) (hother : other.Normal)
    (body : RequestBodyMutation) (route : TransportRoute) :
    (url.isSameOrigin other = true ↔ url.origin = other.origin) ∧
      ((redirectSecurityPolicy url other body).headerPolicy = .sameOrigin ↔
        url.origin = other.origin) ∧
      ((ProxyPolicy.environment url.origin route).validateRedirect other = .ok () ↔
        url.isSameOrigin other = true) ∧
      ((ProxyPolicy.environment url.origin route).route other = .ok route ↔
        url.isSameOrigin other = true) ∧
      ((∀ policy : SsrfPolicy,
          policy.origins.contains url.origin = policy.origins.contains other.origin) ↔
        url.isSameOrigin other = true) ∧
      ((∀ (gate : Acquire.Gate) (limit : Nat),
          gate.semaphore limit url.origin = gate.semaphore limit other.origin) ↔
        url.isSameOrigin other = true) ∧
      ((∀ (gate : ConnectionLimit.ConnectionGate) (i : Nat)
          (acquisition : ConnectionLimit.Acquisition),
          gate.lookupSemaphore i acquisition url.origin =
            gate.lookupSemaphore i acquisition other.origin) ↔
        url.isSameOrigin other = true) := by
  have hagree := HttpUrl.isSameOrigin_iff_origin hurl hother
  refine ⟨hagree, ?_, ?_, ?_, ?_, ?_, ?_⟩
  · exact (headerPolicy_eq_sameOrigin_iff url other body).trans hagree
  · exact (validateRedirect_eq_ok_iff url other route).trans hagree.symm
  · exact (route_eq_ok_iff url other route).trans hagree.symm
  · exact (origins_contains_iff url other).trans hagree.symm
  · exact (semaphore_eq_iff url other).trans hagree.symm
  · exact (lookupSemaphore_eq_iff url other).trans hagree.symm

/-- `https://[::1]:8443/` and `https://[::1]/` in normal form. -/
theorem origins_agree_example :
    let url : HttpUrl := ⟨⟨"https", [], none, some "[::1]", some 8443, "/", none, none⟩,
      by decide, by decide⟩
    let other : HttpUrl := ⟨⟨"https", [], none, some "[::1]", none, "/", none, none⟩,
      by decide, by decide⟩
    (url.isSameOrigin other = true ↔ url.origin = other.origin) ∧
      url.isSameOrigin other = false := by
  intro url other
  have hurl : url.Normal := ⟨by decide, Or.inl ⟨"::1", rfl, by decide⟩⟩
  have hother : other.Normal := ⟨by decide, Or.inl ⟨"::1", rfl, by decide⟩⟩
  exact ⟨(origins_agree hurl hother .preserve .direct).1, by decide⟩

end FogHttp
