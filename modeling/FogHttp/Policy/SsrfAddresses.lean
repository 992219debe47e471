import FogHttp.Lib.Prefix
import FogHttp.Policy.Ssrf

/-!
# IPv6 addresses under the SSRF policy

The classification of an IPv6 address asks for the named kinds first, then for
an IPv4 address inside of it, and only then for the allocated prefixes.

An IPv4 address is written into an IPv6 address in three ways that end with its
32 bits: IPv4-mapped, NAT64 and IPv4-compatible.  `blockedIpKind_mapped` and
`blockedIpKind_nat64` say that the first two are classified as the IPv4 address
itself.  The third is too, except `::0.0.0.1`, which is the loopback address
`::1`.  A 6to4 address is always a special-use address.

The compatible form skips the allocated prefixes.  So an address that is let
through is in one of them, or in the NAT64 prefix, unless it is compatible with
a public IPv4 address (`ipv6_filter_fails_closed`).
-/

namespace FogHttp

open Lib

/-! ## Prefixes -/

theorem ipv6InPrefix_iff {address network : Ipv6Addr} {bits : Nat} :
    ipv6InPrefix address network bits = true ↔ SamePrefix bits address network :=
  mask_eq_iff_samePrefix

/-- No name of a kind begins with this segment. -/
def UnnamedSegment (segment : Nat) : Prop :=
  segment &&& 0xfe00 ≠ 0xfc00 ∧ segment &&& 0xffc0 ≠ 0xfe80 ∧ segment &&& 0xff00 ≠ 0xff00

instance (segment : Nat) : Decidable (UnnamedSegment segment) :=
  inferInstanceAs (Decidable (_ ∧ _))

/-- Segments below `0x100` belong to no named kind. -/
theorem unnamedSegment_of_lt {segment : Nat} (h : segment < 256) : UnnamedSegment segment := by
  have hunique : segment &&& 0xfe00 ≤ segment := Nat.and_le_left
  have hlink : segment &&& 0xffc0 ≤ segment := Nat.and_le_left
  have hmany : segment &&& 0xff00 ≤ segment := Nat.and_le_left
  exact ⟨by omega, by omega, by omega⟩

theorem segment_zero (address : Ipv6Addr) :
    Ipv6Addr.segment address 0 = address.toNat / 2 ^ 112 := by
  have hlt := address.isLt
  show address.toNat / 2 ^ 112 % 2 ^ 16 = address.toNat / 2 ^ 112
  omega

/-- The rest of the cascade, behind the named kinds. -/
theorem blockedIpv6Kind_of_unnamed {address : Ipv6Addr}
    (hsegment : UnnamedSegment (address.toNat / 2 ^ 112)) (hzero : address ≠ 0)
    (hone : address ≠ 1) :
    blockedIpv6Kind address =
      match embeddedIpv4 address with
      | some embedded => blockedIpv4Kind embedded
      | none => if isSpecialUseV6 address then some .specialUse else none := by
  obtain ⟨hlocal, hlink, hmulticast⟩ := hsegment
  rw [← segment_zero] at hlocal hlink hmulticast
  have hmetadata : isMetadataV6 address = false := by
    rw [isMetadataV6, beq_eq_false_iff_ne]
    rintro rfl
    exact hlocal (by decide)
  have hloopback : Ipv6Addr.isLoopback address = false := beq_eq_false_iff_ne.mpr hone
  have hunspecified : Ipv6Addr.isUnspecified address = false := beq_eq_false_iff_ne.mpr hzero
  have hunique : Ipv6Addr.isUniqueLocal address = false := beq_eq_false_iff_ne.mpr hlocal
  have hunicast : Ipv6Addr.isUnicastLinkLocal address = false := beq_eq_false_iff_ne.mpr hlink
  have hmany : Ipv6Addr.isMulticast address = false := beq_eq_false_iff_ne.mpr hmulticast
  rw [blockedIpv6Kind, hmetadata, hloopback, hunique, hunicast, hmany, hunspecified]
  rfl

/-- The IPv4 address in the last 32 bits. -/
def lowIpv4 (address : Ipv6Addr) : Ipv4Addr := BitVec.ofNat 32 (address.toNat % 2 ^ 32)

theorem embeddedIpv4_eq (address : Ipv6Addr) :
    embeddedIpv4 address =
      if SamePrefix 96 address 0 ∨ SamePrefix 96 address ipv6Nat64WellKnown then
        some (lowIpv4 address)
      else none := by
  unfold embeddedIpv4 lowIpv4
  simp only [← ipv6InPrefix_iff]
  cases ipv6InPrefix address 0 96 <;> cases ipv6InPrefix address ipv6Nat64WellKnown 96 <;> rfl

theorem samePrefix_zero {address : Ipv6Addr} :
    SamePrefix 96 address 0 ↔ address.toNat / 2 ^ 32 = 0 := by
  rfl

theorem samePrefix_nat64 {address : Ipv6Addr} :
    SamePrefix 96 address ipv6Nat64WellKnown ↔ address.toNat / 2 ^ 32 = 0x64ff9b * 2 ^ 64 := by
  rfl

/-- Addresses with an embedded IPv4 address, apart from `::` and `::1`. -/
theorem blockedIpv6Kind_of_embedded {address : Ipv6Addr} (hzero : address ≠ 0)
    (hone : address ≠ 1)
    (h : address.toNat / 2 ^ 32 = 0 ∨ address.toNat / 2 ^ 32 = 0x64ff9b * 2 ^ 64) :
    blockedIpv6Kind address = blockedIpv4Kind (lowIpv4 address) := by
  have hsegment : address.toNat / 2 ^ 112 < 256 := by omega
  rw [blockedIpv6Kind_of_unnamed (unnamedSegment_of_lt hsegment) hzero hone, embeddedIpv4_eq,
    if_pos (h.imp samePrefix_zero.mpr samePrefix_nat64.mpr)]

/-! ## The forms of an IPv4 address -/

/-- The IPv6 address with the given upper 96 bits and an IPv4 address below. -/
def embedding (upper : Nat) (v : Ipv4Addr) : Ipv6Addr := BitVec.ofNat 128 (upper * 2 ^ 32 + v.toNat)

/-- `::ffff:v`. -/
def mappedForm (v : Ipv4Addr) : Ipv6Addr := embedding 0xffff v

/-- `64:ff9b::v`. -/
def nat64Form (v : Ipv4Addr) : Ipv6Addr := embedding (0x64ff9b * 2 ^ 64) v

/-- `::v`. -/
def compatibleForm (v : Ipv4Addr) : Ipv6Addr := embedding 0 v

example : parseIpAddr "64:ff9b::127.0.0.1" = some (.v6 (nat64Form (Ipv4Addr.new 127 0 0 1))) := by
  decide

section Forms

variable {upper : Nat} (v : Ipv4Addr)

theorem toNat_embedding (h : upper < 2 ^ 96) :
    (embedding upper v).toNat = upper * 2 ^ 32 + v.toNat := by
  have hlt := v.isLt
  rw [embedding, BitVec.toNat_ofNat]
  omega

theorem upper_embedding (h : upper < 2 ^ 96) : (embedding upper v).toNat / 2 ^ 32 = upper := by
  have hlt := v.isLt
  rw [toNat_embedding v h]
  omega

theorem lowIpv4_embedding (h : upper < 2 ^ 96) : lowIpv4 (embedding upper v) = v := by
  have hlt := v.isLt
  apply BitVec.eq_of_toNat_eq
  rw [lowIpv4, toNat_embedding v h, BitVec.toNat_ofNat]
  omega

theorem toIpv4Mapped_embedding (h : upper < 2 ^ 96) :
    Ipv6Addr.toIpv4Mapped (embedding upper v) = if upper = 0xffff then some v else none := by
  rw [Ipv6Addr.toIpv4Mapped, upper_embedding v h]
  split
  · rw [← lowIpv4, lowIpv4_embedding v h]
  · rfl

/-- An IPv4-mapped address is classified as its IPv4 address. -/
theorem blockedIpKind_mapped : blockedIpKind (.v6 (mappedForm v)) = blockedIpKind (.v4 v) := by
  have hmapped : Ipv6Addr.toIpv4Mapped (mappedForm v) = some v := by
    rw [mappedForm, toIpv4Mapped_embedding v (by decide), if_pos rfl]
  have hcanonical : (IpAddr.v6 (mappedForm v)).toCanonical = .v4 v := by
    rw [IpAddr.toCanonical, hmapped]
  rw [blockedIpKind, hcanonical]
  rfl

/-- The classification of an embedding, apart from `::` and `::1`. -/
theorem blockedIpKind_embedding (hupper : upper = 0 ∨ upper = 0x64ff9b * 2 ^ 64)
    (hzero : embedding upper v ≠ 0) (hone : embedding upper v ≠ 1) :
    blockedIpKind (.v6 (embedding upper v)) = blockedIpKind (.v4 v) := by
  have hlt : upper < 2 ^ 96 := by omega
  have hcanonical : Ipv6Addr.toIpv4Mapped (embedding upper v) = none := by
    rw [toIpv4Mapped_embedding v hlt, if_neg (by omega)]
  rw [blockedIpKind, IpAddr.toCanonical, hcanonical]
  show blockedIpv6Kind (embedding upper v) = blockedIpv4Kind v
  rw [blockedIpv6Kind_of_embedded hzero hone (by rw [upper_embedding v hlt]; exact hupper),
    lowIpv4_embedding v hlt]

/-- A NAT64 address is classified as its IPv4 address. -/
theorem blockedIpKind_nat64 : blockedIpKind (.v6 (nat64Form v)) = blockedIpKind (.v4 v) := by
  have hnat := toNat_embedding v (show 0x64ff9b * 2 ^ 64 < 2 ^ 96 by decide)
  have hzero : (0 : Ipv6Addr).toNat = 0 := rfl
  have hone : (1 : Ipv6Addr).toNat = 1 := rfl
  apply blockedIpKind_embedding v (Or.inr rfl)
  · intro h
    rw [h] at hnat
    omega
  · intro h
    rw [h] at hnat
    omega

/-- An IPv4-compatible address is classified as its IPv4 address, except `::1`. -/
theorem blockedIpKind_compatible (h : v ≠ 1) :
    blockedIpKind (.v6 (compatibleForm v)) = blockedIpKind (.v4 v) := by
  have hnat := toNat_embedding v (show 0 < 2 ^ 96 by decide)
  by_cases hzero : v = 0
  · subst hzero
    decide
  · have hform : ∀ small : Nat, v ≠ BitVec.ofNat 32 small →
        compatibleForm v ≠ BitVec.ofNat 128 small := by
      intro small hne hsame
      have hsize := congrArg BitVec.toNat hsame
      rw [compatibleForm, hnat, BitVec.toNat_ofNat] at hsize
      apply hne
      apply BitVec.eq_of_toNat_eq
      have hlt := v.isLt
      rw [BitVec.toNat_ofNat]
      omega
    exact blockedIpKind_embedding v (Or.inl rfl) (hform 0 hzero) (hform 1 h)

end Forms

/-- Every address in `2002::/16` is a special-use address. -/
theorem blockedIpKind_sixToFour {address : Ipv6Addr} (h : address.toNat / 2 ^ 112 = 0x2002) :
    blockedIpKind (.v6 address) = some .specialUse := by
  have hcanonical : Ipv6Addr.toIpv4Mapped address = none := by
    rw [Ipv6Addr.toIpv4Mapped, if_neg (by omega)]
  have hzero : address ≠ 0 := by
    rintro rfl
    simp at h
  have hone : address ≠ 1 := by
    rintro rfl
    simp at h
  have hembedded : embeddedIpv4 address = none := by
    rw [embeddedIpv4_eq, if_neg]
    rw [samePrefix_zero, samePrefix_nat64]
    omega
  have hspecial : isSpecialUseV6 address = true := by
    have hsame : SamePrefix 16 address (Ipv6Addr.new 0x2002 0 0 0 0 0 0 0) := h
    rw [isSpecialUseV6, ipv6InPrefix_iff.mpr hsame, Bool.or_true]
  rw [blockedIpKind, IpAddr.toCanonical, hcanonical]
  show blockedIpv6Kind address = some .specialUse
  rw [blockedIpv6Kind_of_unnamed (by rw [h]; decide) hzero hone, hembedded, hspecial]
  rfl

/-! ## URLs with a literal address -/

/-- The literal forms of an IPv4 address. -/
inductive LiteralForm (v : Ipv4Addr) : IpAddr → Prop where
  | plain : LiteralForm v (.v4 v)
  | mapped : LiteralForm v (.v6 (mappedForm v))
  | nat64 : LiteralForm v (.v6 (nat64Form v))
  | compatible : LiteralForm v (.v6 (compatibleForm v))
  | sixToFour (address : Ipv6Addr) (h : address.toNat / 2 ^ 80 = 0x2002 * 2 ^ 32 + v.toNat) :
      LiteralForm v (.v6 address)

/-- A form has the kind of its IPv4 address, or is a special-use address. -/
theorem LiteralForm.kind {v : Ipv4Addr} {address : IpAddr} (h : LiteralForm v address)
    (hloopback : address ≠ .v6 1) :
    blockedIpKind address = blockedIpKind (.v4 v) ∨ blockedIpKind address = some .specialUse := by
  cases h with
  | plain => exact Or.inl rfl
  | mapped => exact Or.inl (blockedIpKind_mapped v)
  | nat64 => exact Or.inl (blockedIpKind_nat64 v)
  | compatible =>
      apply Or.inl
      apply blockedIpKind_compatible v
      rintro rfl
      exact hloopback (by decide)
  | sixToFour address h =>
      have hlt := v.isLt
      exact Or.inr (blockedIpKind_sixToFour (by omega))

namespace SsrfPolicy

variable {policy : SsrfPolicy} {url : HttpUrl} {address : IpAddr} {kind : BlockedIpKind}

/-- A blocked literal passes only as an excused kind of an exact origin. -/
theorem validateUrl_blocked (haddress : parseIpAddr url.host = some address)
    (hkind : blockedIpKind address = some kind) (h : policy.validateUrl url = .ok ()) :
    url.origin ∈ policy.origins ∧ (kind = .private_ ∨ kind = .loopback ∨ kind = .linkLocal) := by
  obtain ⟨-, -, hliteral⟩ := validateUrl_eq_ok h
  rcases hliteral address haddress with hnone | ⟨horigin, hexcused⟩
  · simp [hkind] at hnone
  · rw [hkind] at hexcused
    refine ⟨horigin, ?_⟩
    have hkinds := excusable_iff.mp hexcused
    simpa using hkinds

/-- A literal of a kind that is never excused is rejected. -/
theorem validateUrl_rejects (haddress : parseIpAddr url.host = some address)
    (hkind : blockedIpKind address = some kind)
    (hnever : kind = .metadata ∨ kind = .multicast ∨ kind = .unspecified ∨ kind = .specialUse) :
    ∃ violation, policy.validateUrl url = .error violation := by
  cases hresult : policy.validateUrl url with
  | error violation => exact ⟨violation, rfl⟩
  | ok _ =>
      obtain ⟨-, hexcused⟩ := validateUrl_blocked haddress hkind hresult
      rcases hnever with rfl | rfl | rfl | rfl <;> simp at hexcused

end SsrfPolicy

/-- No way to write an IPv4 address into an IPv6 address gets around the filter.
The loopback address `::1`, which is also the compatible form of `0.0.0.1`, is
treated as a loopback address. -/
theorem embedded_ipv4_not_bypassed (v : Ipv4Addr) :
    blockedIpKind (.v6 (mappedForm v)) = blockedIpKind (.v4 v) ∧
      blockedIpKind (.v6 (nat64Form v)) = blockedIpKind (.v4 v) ∧
      (blockedIpKind (.v4 v) ≠ none → blockedIpKind (.v6 (compatibleForm v)) ≠ none) ∧
      (∀ address : Ipv6Addr, address.toNat / 2 ^ 80 = 0x2002 * 2 ^ 32 + v.toNat →
        blockedIpKind (.v6 address) ≠ none) ∧
      ∀ (policy : SsrfPolicy) (url : HttpUrl) (address : IpAddr) (kind : BlockedIpKind),
        LiteralForm v address → parseIpAddr url.host = some address →
        blockedIpKind (.v4 v) = some kind →
        ((kind = .metadata ∨ kind = .multicast ∨ kind = .unspecified ∨ kind = .specialUse) →
          address ≠ .v6 1 → ∃ violation, policy.validateUrl url = .error violation) ∧
        (kind = .private_ ∨ kind = .loopback ∨ kind = .linkLocal ∨ address = .v6 1 →
          policy.validateUrl url = .ok () → url.origin ∈ policy.origins) := by
  refine ⟨blockedIpKind_mapped v, blockedIpKind_nat64 v, ?_, ?_, ?_⟩
  · intro hblocked
    by_cases hone : v = 1
    · subst hone
      decide
    · rw [blockedIpKind_compatible v hone]
      exact hblocked
  · intro address haddress
    have hlt := v.isLt
    rw [blockedIpKind_sixToFour (by omega)]
    simp
  · intro policy url address kind hform haddress hkind
    have hone : blockedIpKind (.v6 1) = some .loopback := by decide
    refine ⟨fun hnever hloopback => ?_, fun _ hok => ?_⟩
    · rcases hform.kind hloopback with hsame | hspecial
      · exact SsrfPolicy.validateUrl_rejects haddress (hsame.trans hkind) hnever
      · exact SsrfPolicy.validateUrl_rejects haddress hspecial (by simp)
    · by_cases hloopback : address = .v6 1
      · exact (SsrfPolicy.validateUrl_blocked haddress (hloopback ▸ hone) hok).1
      · rcases hform.kind hloopback with hsame | hspecial
        · exact (SsrfPolicy.validateUrl_blocked haddress (hsame.trans hkind) hok).1
        · exact (SsrfPolicy.validateUrl_blocked haddress hspecial hok).1

namespace SsrfAddressExample

/-! A policy that allowlists the origins of two literal addresses. -/

def policy : SsrfPolicy :=
  ⟨["http"], ["http://[::ffff:a9fe:a9fe]", "http://[::1]"], []⟩

/-- `http://[::ffff:a9fe:a9fe]/`, the mapped form of `169.254.169.254`. -/
def metadataUrl : HttpUrl :=
  ⟨⟨"http", [], none, some "[::ffff:a9fe:a9fe]", none, "/", none, none⟩, rfl, rfl⟩

/-- `http://[::1]/`, also the compatible form of `0.0.0.1`. -/
def loopbackUrl : HttpUrl :=
  ⟨⟨"http", [], none, some "[::1]", none, "/", none, none⟩, rfl, rfl⟩

/-- The metadata address is rejected although its origin is allowlisted. -/
theorem embedded_ipv4_not_bypassed_metadata :
    metadataUrl.origin ∈ policy.origins ∧
      ∃ violation, policy.validateUrl metadataUrl = .error violation := by
  have h := (embedded_ipv4_not_bypassed (Ipv4Addr.new 169 254 169 254)).2.2.2.2 policy metadataUrl
    (.v6 (mappedForm (Ipv4Addr.new 169 254 169 254))) .metadata .mapped (by decide) (by decide)
  exact ⟨by decide, h.1 (Or.inl rfl) (by decide)⟩

/-- The compatible form of the special-use address `0.0.0.1` passes. -/
theorem compatible_loopback_allowed :
    LiteralForm (Ipv4Addr.new 0 0 0 1) (.v6 1) ∧
      blockedIpKind (.v4 (Ipv4Addr.new 0 0 0 1)) = some .specialUse ∧
      parseIpAddr loopbackUrl.host = some (.v6 1) ∧
      loopbackUrl.origin ∈ policy.origins ∧ policy.validateUrl loopbackUrl = .ok () := by
  have hform : LiteralForm (Ipv4Addr.new 0 0 0 1) (.v6 (compatibleForm (Ipv4Addr.new 0 0 0 1))) :=
    .compatible
  have hsame : compatibleForm (Ipv4Addr.new 0 0 0 1) = 1 := by decide
  exact ⟨hsame ▸ hform, by decide, by decide, by decide, by decide⟩

end SsrfAddressExample

/-! ## Failing closed -/

/-- The address is in a prefix that the filter accepts. -/
def AcceptedPrefix (address : Ipv6Addr) : Prop :=
  SamePrefix 96 address ipv6Nat64WellKnown ∨
    ∃ entry ∈ ipv6AllocatedGlobalUnicast, SamePrefix entry.2 address entry.1

/-- The address is excluded from the accepted prefixes. -/
def SpecialUseExclusion (address : Ipv6Addr) : Prop :=
  isNonGlobalIetfProtocolAssignment address = true ∨
    SamePrefix 32 address (Ipv6Addr.new 0x2001 0x0db8 0 0 0 0 0 0) ∨
    SamePrefix 16 address (Ipv6Addr.new 0x2002 0 0 0 0 0 0 0)

theorem isSpecialUseV6_eq_false {address : Ipv6Addr} :
    isSpecialUseV6 address = false ↔ AcceptedPrefix address ∧ ¬ SpecialUseExclusion address := by
  have haccepted : isAllocatedGlobalUnicastV6 address = true ↔ AcceptedPrefix address := by
    simp only [isAllocatedGlobalUnicastV6, Bool.or_eq_true, List.any_eq_true, ipv6InPrefix_iff,
      AcceptedPrefix]
  have hexcluded : (isNonGlobalIetfProtocolAssignment address ||
      ipv6InPrefix address (Ipv6Addr.new 0x2001 0x0db8 0 0 0 0 0 0) 32 ||
      ipv6InPrefix address (Ipv6Addr.new 0x2002 0 0 0 0 0 0 0) 16) = true ↔
        SpecialUseExclusion address := by
    simp only [Bool.or_eq_true, ipv6InPrefix_iff, SpecialUseExclusion, or_assoc]
  rw [← haccepted, ← hexcluded, isSpecialUseV6, Bool.not_eq_true]
  simp only [Bool.or_eq_false_iff, Bool.not_eq_false', and_assoc]

/-- No accepted prefix holds an IPv4-compatible address. -/
theorem not_acceptedPrefix_of_compatible {address : Ipv6Addr} (h : address.toNat / 2 ^ 32 = 0) :
    ¬ AcceptedPrefix address := by
  have hsmall : address.toNat < 2 ^ 32 := by omega
  rintro (hnat64 | ⟨entry, hentry, hsame⟩)
  · rw [samePrefix_nat64] at hnat64
    omega
  · have htable : ∀ entry ∈ ipv6AllocatedGlobalUnicast,
        entry.2 ≤ 96 ∧ entry.1.toNat / 2 ^ (128 - entry.2) ≠ 0 := by decide
    obtain ⟨hbits, hne⟩ := htable entry hentry
    apply hne
    rw [← hsame]
    apply Nat.div_eq_of_lt
    calc address.toNat < 2 ^ 32 := hsmall
      _ ≤ 2 ^ (128 - entry.2) := Nat.pow_le_pow_right (by decide) (by omega)

/-- The NAT64 prefix is not excluded. -/
theorem not_excluded_of_nat64 {address : Ipv6Addr}
    (h : address.toNat / 2 ^ 32 = 0x64ff9b * 2 ^ 64) : ¬ SpecialUseExclusion address := by
  have hnetworks : (Ipv6Addr.new 0x2001 0 0 0 0 0 0 0).toNat / 2 ^ 105 = 0x2001 * 2 ^ 7 ∧
      (Ipv6Addr.new 0x2001 0x0db8 0 0 0 0 0 0).toNat / 2 ^ 96 = 0x20010db8 ∧
      (Ipv6Addr.new 0x2002 0 0 0 0 0 0 0).toNat / 2 ^ 112 = 0x2002 := by decide
  rintro (hassignment | hdocumentation | hsixToFour)
  · simp only [isNonGlobalIetfProtocolAssignment, Bool.and_eq_true, and_assoc] at hassignment
    have hsame : address.toNat / 2 ^ 105 = _ := ipv6InPrefix_iff.mp hassignment.1
    rw [hnetworks.1] at hsame
    omega
  · have hsame : address.toNat / 2 ^ 96 = _ := hdocumentation
    rw [hnetworks.2.1] at hsame
    omega
  · have hsame : address.toNat / 2 ^ 112 = _ := hsixToFour
    rw [hnetworks.2.2] at hsame
    omega

/-- What the filter lets through of the addresses that are not IPv4-mapped. -/
theorem blockedIpKind_eq_none_cases {address : Ipv6Addr}
    (hmapped : Ipv6Addr.toIpv4Mapped address = none) (h : blockedIpKind (.v6 address) = none) :
    address.toNat / 2 ^ 32 = 0 ∧ blockedIpKind (.v4 (lowIpv4 address)) = none ∨
      AcceptedPrefix address ∧ ¬ SpecialUseExclusion address := by
  have hzero : address ≠ 0 := by
    rintro rfl
    revert h
    decide
  have hone : address ≠ 1 := by
    rintro rfl
    revert h
    decide
  have hkind : blockedIpv6Kind address = none := by
    rw [blockedIpKind, IpAddr.toCanonical, hmapped] at h
    exact h
  by_cases hembedded : address.toNat / 2 ^ 32 = 0 ∨ address.toNat / 2 ^ 32 = 0x64ff9b * 2 ^ 64
  · rw [blockedIpv6Kind_of_embedded hzero hone hembedded] at hkind
    rcases hembedded with hcompatible | hnat64
    · exact Or.inl ⟨hcompatible, hkind⟩
    · exact Or.inr ⟨Or.inl (samePrefix_nat64.mpr hnat64), not_excluded_of_nat64 hnat64⟩
  · have hnone : embeddedIpv4 address = none := by
      rw [embeddedIpv4_eq, if_neg]
      rw [samePrefix_zero, samePrefix_nat64]
      exact hembedded
    have hspecial : isSpecialUseV6 address = false := by
      by_contra hspecial
      rw [Bool.not_eq_false] at hspecial
      unfold blockedIpv6Kind at hkind
      -- Every branch that is left names a kind.
      simp only [hnone, hspecial, if_true] at hkind
      split_ifs at hkind
    exact Or.inr (isSpecialUseV6_eq_false.mp hspecial)

/-- An IPv6 address that is not IPv4-mapped passes only in an accepted prefix
and outside of the exclusions, exactly when it is not the compatible form of a
public IPv4 address. -/
theorem ipv6_filter_fails_closed (address : Ipv6Addr)
    (hmapped : Ipv6Addr.toIpv4Mapped address = none) :
    (blockedIpKind (.v6 address) = none → AcceptedPrefix address ∧ ¬ SpecialUseExclusion address) ↔
      ¬ (address.toNat / 2 ^ 32 = 0 ∧ blockedIpKind (.v4 (lowIpv4 address)) = none) := by
  constructor
  · rintro hclosed ⟨hcompatible, hpublic⟩
    have hzero : address ≠ 0 := by
      rintro rfl
      revert hpublic
      decide
    have hone : address ≠ 1 := by
      rintro rfl
      revert hpublic
      decide
    have hpasses : blockedIpKind (.v6 address) = none := by
      rw [blockedIpKind, IpAddr.toCanonical, hmapped]
      show blockedIpv6Kind address = none
      rw [blockedIpv6Kind_of_embedded hzero hone (Or.inl hcompatible)]
      exact hpublic
    exact not_acceptedPrefix_of_compatible hcompatible (hclosed hpasses).1
  · intro hcondition hpasses
    exact (blockedIpKind_eq_none_cases hmapped hpasses).resolve_left hcondition

namespace SsrfAddressExample

/-- The public address `2606:4700:4700::1111`. -/
theorem ipv6_filter_fails_closed_public :
    blockedIpKind (.v6 (Ipv6Addr.new 0x2606 0x4700 0x4700 0 0 0 0 0x1111)) = none ∧
      AcceptedPrefix (Ipv6Addr.new 0x2606 0x4700 0x4700 0 0 0 0 0x1111) := by
  have hpasses : blockedIpKind (.v6 (Ipv6Addr.new 0x2606 0x4700 0x4700 0 0 0 0 0x1111)) = none := by
    decide
  have h := ipv6_filter_fails_closed (Ipv6Addr.new 0x2606 0x4700 0x4700 0 0 0 0 0x1111) (by decide)
  exact ⟨hpasses, (h.mpr (by decide) hpasses).1⟩

/-- `::8.8.8.8` passes, and it is in no accepted prefix. -/
theorem compatible_public_passes :
    Ipv6Addr.toIpv4Mapped (compatibleForm (Ipv4Addr.new 8 8 8 8)) = none ∧
      blockedIpKind (.v6 (compatibleForm (Ipv4Addr.new 8 8 8 8))) = none ∧
      ¬ AcceptedPrefix (compatibleForm (Ipv4Addr.new 8 8 8 8)) :=
  ⟨by decide, by decide, not_acceptedPrefix_of_compatible (by decide)⟩

end SsrfAddressExample

end FogHttp
