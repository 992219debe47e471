import FogHttp.Core.Url

/-!
# The text of an origin

`HttpUrl::origin` writes the scheme, the host and a port if the URL spells one, and
`HttpUrl::is_same_origin` compares schemes, hosts and effective ports.  The two agree on
URLs in the normal form of the `url` crate: it leaves the default port out and puts
brackets around the only hosts that contain a colon.

`authority_injective` is the reason: a host in normal form ends where the port begins.
-/

namespace FogHttp

open Lib

/-- A host as the `url` crate serializes it: an IPv6 literal in brackets, or a text without
brackets and colons. -/
def IsNormalHost (host : Text) : Prop :=
  (∃ address, host = '[' :: address ++ [']'] ∧ ']' ∉ address) ∨ '[' ∉ host ∧ ':' ∉ host

namespace HttpUrl

/-- `Url::port_or_known_default` of a URL without a port. -/
def defaultPort (url : HttpUrl) : Nat := if url.scheme = ("https" : Text) then 443 else 80

/-- The normal form of the `url` crate. -/
structure Normal (url : HttpUrl) : Prop where
  port : url.inner.port ≠ some url.defaultPort
  host : IsNormalHost url.hostStr

end HttpUrl

/-! ## The port -/

/-- The end of an origin. -/
def portText : Option Nat → Text
  | some port => ':' :: decimal port
  | none => []

theorem decimal_injective {n m : Nat} (h : decimal n = decimal m) : n = m := by
  rw [← Nat.ofDigitChars_toDigits (b := 10) (n := n) (by decide) (by decide),
    ← Nat.ofDigitChars_toDigits (b := 10) (n := m) (by decide) (by decide)]
  exact congrArg (Nat.ofDigitChars 10 · 0) h

theorem portText_injective {port other : Option Nat} (h : portText port = portText other) :
    port = other := by
  cases port with
  | none =>
      cases other with
      | none => rfl
      | some other => cases h
  | some port =>
      cases other with
      | none => cases h
      | some other => rw [decimal_injective (List.cons.inj h).2]

/-- A text in front of a port ends at the first colon. -/
theorem host_injective {host other : Text} {port otherPort : Option Nat} (hhost : ':' ∉ host)
    (hother : ':' ∉ other) (h : host ++ portText port = other ++ portText otherPort) :
    host = other ∧ portText port = portText otherPort := by
  have hsplit := congrArg (splitOnce ':') h
  cases port with
  | none =>
      cases otherPort with
      | none => exact ⟨by simpa [portText] using h, rfl⟩
      | some port =>
          rw [portText, portText, List.append_nil, splitOnce_of_not_mem hhost,
            splitOnce_append_cons hother] at hsplit
          cases hsplit
  | some port =>
      rw [portText, splitOnce_append_cons hhost] at hsplit
      cases otherPort with
      | none =>
          rw [portText, List.append_nil, splitOnce_of_not_mem hother] at hsplit
          cases hsplit
      | some otherPort =>
          rw [portText, splitOnce_append_cons hother] at hsplit
          obtain ⟨hsame, hports⟩ := Prod.mk.inj (Option.some.inj hsplit)
          exact ⟨hsame, by rw [portText, portText, hports]⟩

/-- A bracketed host is no other text without brackets. -/
theorem bracketed_ne {address other rest : Text} {port : Option Nat} (hother : '[' ∉ other) :
    '[' :: address ++ rest ≠ other ++ portText port := by
  intro h
  cases other with
  | nil =>
      cases port with
      | none => cases h
      | some port => cases h
  | cons c other =>
      have hhead : '[' = c := (List.cons.inj h).1
      exact hother (hhead ▸ List.mem_cons_self)

/-- Host and port can be read off their text. -/
theorem authority_injective {host other : Text} {port otherPort : Option Nat}
    (hhost : IsNormalHost host) (hother : IsNormalHost other)
    (h : host ++ portText port = other ++ portText otherPort) :
    host = other ∧ port = otherPort := by
  rcases hhost with ⟨address, rfl, haddress⟩ | ⟨hbracket, hcolon⟩
  · rcases hother with ⟨otherAddress, rfl, hotherAddress⟩ | ⟨hotherBracket, -⟩
    · have hcut : ∀ {address : Text} {port : Option Nat}, ']' ∉ address →
          splitOnce ']' ('[' :: address ++ [']'] ++ portText port) =
            some ('[' :: address, portText port) := by
        intro address port hnot
        rw [List.append_assoc, List.singleton_append]
        exact splitOnce_append_cons (by simpa using hnot) _
      have hsplit := congrArg (splitOnce ']') h
      rw [hcut haddress, hcut hotherAddress] at hsplit
      obtain ⟨hsame, hports⟩ := Prod.mk.inj (Option.some.inj hsplit)
      exact ⟨by rw [hsame], portText_injective hports⟩
    · rw [List.append_assoc] at h
      exact absurd h (bracketed_ne hotherBracket)
  · rcases hother with ⟨otherAddress, rfl, -⟩ | ⟨-, hotherColon⟩
    · rw [List.append_assoc] at h
      exact absurd h.symm (bracketed_ne hbracket)
    · obtain ⟨hsame, hports⟩ := host_injective hcolon hotherColon h
      exact ⟨hsame, portText_injective hports⟩

/-! ## Origins -/

namespace HttpUrl

theorem scheme_eq (url : HttpUrl) :
    url.scheme = ("http" : Text) ∨ url.scheme = ("https" : Text) := by
  have hsupported := url.supported
  unfold isSupported at hsupported
  simpa [HttpUrl.scheme] using hsupported

theorem origin_eq (url : HttpUrl) :
    url.origin = url.scheme ++ ("://" ++ (url.hostStr ++ portText url.inner.port)) := by
  unfold origin portText
  cases url.inner.port <;> simp [List.append_assoc]

/-- The scheme can be read off the origin. -/
theorem scheme_injective {url other : HttpUrl} (h : url.origin = other.origin) :
    url.scheme = other.scheme := by
  rw [origin_eq, origin_eq] at h
  rcases url.scheme_eq with hscheme | hscheme <;>
    rcases other.scheme_eq with hother | hother <;> rw [hscheme, hother] at h ⊢
  · cases h
  · cases h

/-- Effective ports agree exactly when the spelled ones do. -/
theorem port_eq_iff {url other : HttpUrl} (hurl : url.Normal) (hother : other.Normal)
    (hscheme : url.scheme = other.scheme) :
    url.port = other.port ↔ url.inner.port = other.inner.port := by
  have hdefault : url.defaultPort = other.defaultPort := by
    unfold defaultPort
    rw [hscheme]
  have hport : ∀ url : HttpUrl, url.port = url.inner.port.getD url.defaultPort :=
    fun _ => rfl
  have hspelled := hurl.port
  have hotherSpelled := hother.port
  rw [hport, hport]
  rw [hdefault] at hspelled ⊢
  cases hleft : url.inner.port with
  | none =>
      cases hright : other.inner.port with
      | none => simp
      | some port =>
          rw [hright] at hotherSpelled
          simpa [eq_comm] using hotherSpelled
  | some port =>
      rw [hleft] at hspelled
      cases hright : other.inner.port with
      | none => simpa using hspelled
      | some otherPort => simp

/-- Hosts agree exactly when their texts do. -/
theorem hostStr_eq_iff {url other : HttpUrl} :
    url.hostStr = other.hostStr ↔ url.inner.hostStr = other.inner.hostStr :=
  Option.get_inj

/-- In normal form, the comparison of scheme, host and effective port is the comparison of
the serialized origins. -/
theorem isSameOrigin_iff_origin {url other : HttpUrl} (hurl : url.Normal)
    (hother : other.Normal) :
    url.isSameOrigin other = true ↔ url.origin = other.origin := by
  unfold isSameOrigin
  simp only [Bool.and_eq_true, beq_iff_eq]
  constructor
  · rintro ⟨⟨hscheme, hhost⟩, hport⟩
    rw [origin_eq, origin_eq, hscheme, hostStr_eq_iff.mpr hhost,
      (port_eq_iff hurl hother hscheme).mp hport]
  · intro h
    have hscheme := scheme_injective h
    rw [origin_eq, origin_eq, hscheme, List.append_cancel_left_eq,
      List.append_cancel_left_eq] at h
    obtain ⟨hhost, hport⟩ := authority_injective hurl.host hother.host h
    exact ⟨⟨hscheme, hostStr_eq_iff.mp hhost⟩, (port_eq_iff hurl hother hscheme).mpr hport⟩

end HttpUrl

end FogHttp
