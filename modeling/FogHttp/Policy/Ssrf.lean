import Mathlib.Data.Char
import Mathlib.Data.List.Destutter
import Mathlib.Data.List.Lex
import Mathlib.Data.List.Sort
import FogHttp.Core.Url
import FogHttp.Lib.Fallible
import FogHttp.Lib.Net

/-!
# The SSRF policy

`SsrfPolicy` is the allowlist of a client: schemes, exact origins and domains.
`validateUrl` is the check that runs before every hop, and
`validateResolvedAddress` is the check of one DNS answer.  Both rest on
`blockedIpKind`, the classification of an address by the special-purpose
registries.

The classification keeps the order of the source: metadata addresses come
first, then the families of the standard library, then an IPv4 address that is
embedded in an IPv6 address, then the special-use prefixes.  A prefix test is a
mask and a comparison on the address word, as in the source.

`SsrfPolicy.new` normalizes the three lists and rejects an entry that is not in
a strict form.  A hash set is modelled by a list, since only membership is
read.

`configured_of_new` says that the lists of a built policy are the configured
ones, entry by entry, and that a configured allowlist is not lost.

Three lemmas describe what the checks accept.  `domainMatches_iff` reads a
domain match as equality or a suffix on a label boundary.
`validateUrl_eq_ok` lists what an accepted URL satisfies, and
`validateResolvedAddress_eq_ok` says that an accepted address is not blocked.
-/

namespace FogHttp

open Lib

/-! ## Address classes -/

inductive BlockedIpKind where
  | linkLocal
  | loopback
  | metadata
  | multicast
  | private_
  | specialUse
  | unspecified
deriving DecidableEq, Repr

/-- `ipv4_in_prefix`: `u32::MAX.checked_shl(32 - prefix)` is the mask, or zero
when the shift is too wide. -/
def ipv4InPrefix (address network : Ipv4Addr) (bits : Nat) : Bool :=
  let mask : BitVec 32 := if 32 - bits < 32 then BitVec.allOnes 32 <<< (32 - bits) else 0
  address &&& mask == network &&& mask

/-- `ipv6_in_prefix`. -/
def ipv6InPrefix (address network : Ipv6Addr) (bits : Nat) : Bool :=
  let mask : BitVec 128 := if 128 - bits < 128 then BitVec.allOnes 128 <<< (128 - bits) else 0
  address &&& mask == network &&& mask

/-- `IPV6_METADATA`. -/
def ipv6Metadata : Ipv6Addr := Ipv6Addr.new 0xfd00 0x0ec2 0 0 0 0 0 0x0254

/-- `IPV6_NAT64_WELL_KNOWN`. -/
def ipv6Nat64WellKnown : Ipv6Addr := Ipv6Addr.new 0x0064 0xff9b 0 0 0 0 0 0

/-- `IPV6_ALLOCATED_GLOBAL_UNICAST`: each network with its prefix length. -/
def ipv6AllocatedGlobalUnicast : List (Ipv6Addr × Nat) :=
  [(Ipv6Addr.new 0x2001 0 0 0 0 0 0 0, 20),
    (Ipv6Addr.new 0x2001 0x1200 0 0 0 0 0 0, 23),
    (Ipv6Addr.new 0x2001 0x1400 0 0 0 0 0 0, 22),
    (Ipv6Addr.new 0x2001 0x1800 0 0 0 0 0 0, 21),
    (Ipv6Addr.new 0x2001 0x2000 0 0 0 0 0 0, 19),
    (Ipv6Addr.new 0x2001 0x4000 0 0 0 0 0 0, 21),
    (Ipv6Addr.new 0x2001 0x4800 0 0 0 0 0 0, 22),
    (Ipv6Addr.new 0x2001 0x4c00 0 0 0 0 0 0, 23),
    (Ipv6Addr.new 0x2001 0x5000 0 0 0 0 0 0, 20),
    (Ipv6Addr.new 0x2001 0x8000 0 0 0 0 0 0, 18),
    (Ipv6Addr.new 0x2002 0 0 0 0 0 0 0, 16),
    (Ipv6Addr.new 0x2003 0 0 0 0 0 0 0, 18),
    (Ipv6Addr.new 0x2400 0 0 0 0 0 0 0, 12),
    (Ipv6Addr.new 0x2410 0 0 0 0 0 0 0, 12),
    (Ipv6Addr.new 0x2600 0 0 0 0 0 0 0, 12),
    (Ipv6Addr.new 0x2610 0 0 0 0 0 0 0, 23),
    (Ipv6Addr.new 0x2620 0 0 0 0 0 0 0, 23),
    (Ipv6Addr.new 0x2630 0 0 0 0 0 0 0, 12),
    (Ipv6Addr.new 0x2800 0 0 0 0 0 0 0, 12),
    (Ipv6Addr.new 0x2a00 0 0 0 0 0 0 0, 12),
    (Ipv6Addr.new 0x2a10 0 0 0 0 0 0 0, 12),
    (Ipv6Addr.new 0x2c00 0 0 0 0 0 0 0, 12)]

/-- `is_metadata_v4`. -/
def isMetadataV4 (address : Ipv4Addr) : Bool :=
  address == Ipv4Addr.new 169 254 169 254 || address == Ipv4Addr.new 169 254 170 2 ||
    address == Ipv4Addr.new 100 100 100 200

/-- `is_metadata_v6`. -/
def isMetadataV6 (address : Ipv6Addr) : Bool := address == ipv6Metadata

/-- `is_non_global_ietf_protocol_assignment_v4`. -/
def isNonGlobalIetfProtocolAssignmentV4 (address : Ipv4Addr) : Bool :=
  ipv4InPrefix address (Ipv4Addr.new 192 0 0 0) 24 &&
    address != Ipv4Addr.new 192 0 0 9 && address != Ipv4Addr.new 192 0 0 10

/-- `is_special_use_v4`. -/
def isSpecialUseV4 (address : Ipv4Addr) : Bool :=
  ipv4InPrefix address 0 8 ||
    ipv4InPrefix address (Ipv4Addr.new 100 64 0 0) 10 ||
    isNonGlobalIetfProtocolAssignmentV4 address ||
    ipv4InPrefix address (Ipv4Addr.new 192 0 2 0) 24 ||
    ipv4InPrefix address (Ipv4Addr.new 192 88 99 0) 24 ||
    ipv4InPrefix address (Ipv4Addr.new 198 18 0 0) 15 ||
    ipv4InPrefix address (Ipv4Addr.new 198 51 100 0) 24 ||
    ipv4InPrefix address (Ipv4Addr.new 203 0 113 0) 24 ||
    ipv4InPrefix address (Ipv4Addr.new 240 0 0 0) 4

/-- `is_allocated_global_unicast_v6`. -/
def isAllocatedGlobalUnicastV6 (address : Ipv6Addr) : Bool :=
  ipv6InPrefix address ipv6Nat64WellKnown 96 ||
    ipv6AllocatedGlobalUnicast.any fun entry => ipv6InPrefix address entry.1 entry.2

/-- `is_non_global_ietf_protocol_assignment`. -/
def isNonGlobalIetfProtocolAssignment (address : Ipv6Addr) : Bool :=
  ipv6InPrefix address (Ipv6Addr.new 0x2001 0 0 0 0 0 0 0) 23 &&
    address != Ipv6Addr.new 0x2001 1 0 0 0 0 0 1 &&
    address != Ipv6Addr.new 0x2001 1 0 0 0 0 0 2 &&
    address != Ipv6Addr.new 0x2001 1 0 0 0 0 0 3 &&
    !ipv6InPrefix address (Ipv6Addr.new 0x2001 3 0 0 0 0 0 0) 32 &&
    !ipv6InPrefix address (Ipv6Addr.new 0x2001 4 0x0112 0 0 0 0 0) 48 &&
    !ipv6InPrefix address (Ipv6Addr.new 0x2001 0x0020 0 0 0 0 0 0) 28 &&
    !ipv6InPrefix address (Ipv6Addr.new 0x2001 0x0030 0 0 0 0 0 0) 28

/-- `is_special_use_v6`. -/
def isSpecialUseV6 (address : Ipv6Addr) : Bool :=
  !isAllocatedGlobalUnicastV6 address ||
    isNonGlobalIetfProtocolAssignment address ||
    ipv6InPrefix address (Ipv6Addr.new 0x2001 0x0db8 0 0 0 0 0 0) 32 ||
    ipv6InPrefix address (Ipv6Addr.new 0x2002 0 0 0 0 0 0 0) 16

/-- `embedded_ipv4`: the IPv4 address in the last four octets of an
IPv4-compatible or well-known NAT64 address. -/
def embeddedIpv4 (address : Ipv6Addr) : Option Ipv4Addr :=
  if !ipv6InPrefix address 0 96 && !ipv6InPrefix address ipv6Nat64WellKnown 96 then none
  else some (BitVec.ofNat 32 (address.toNat % 2 ^ 32))

/-- `blocked_ipv4_kind`. -/
def blockedIpv4Kind (address : Ipv4Addr) : Option BlockedIpKind :=
  if isMetadataV4 address then some .metadata
  else if Ipv4Addr.isLoopback address then some .loopback
  else if Ipv4Addr.isPrivate address then some .private_
  else if Ipv4Addr.isLinkLocal address then some .linkLocal
  else if Ipv4Addr.isMulticast address then some .multicast
  else if Ipv4Addr.isUnspecified address then some .unspecified
  else if isSpecialUseV4 address then some .specialUse
  else none

/-- `blocked_ipv6_kind`. -/
def blockedIpv6Kind (address : Ipv6Addr) : Option BlockedIpKind :=
  if isMetadataV6 address then some .metadata
  else if Ipv6Addr.isLoopback address then some .loopback
  else if Ipv6Addr.isUniqueLocal address then some .private_
  else if Ipv6Addr.isUnicastLinkLocal address then some .linkLocal
  else if Ipv6Addr.isMulticast address then some .multicast
  else if Ipv6Addr.isUnspecified address then some .unspecified
  else
    match embeddedIpv4 address with
    | some embedded => blockedIpv4Kind embedded
    | none => if isSpecialUseV6 address then some .specialUse else none

/-- `blocked_ip_kind`. -/
def blockedIpKind (address : IpAddr) : Option BlockedIpKind :=
  match address.toCanonical with
  | .v4 address => blockedIpv4Kind address
  | .v6 address => blockedIpv6Kind address

/-! ## Violations -/

inductive SsrfViolationReason where
  | destinationNotAllowed
  | nonPublicAddress
  | proxyResolutionUnsupported
  | schemeNotAllowed
deriving DecidableEq, Repr

structure SsrfViolation where
  target : Text
  reason : SsrfViolationReason
deriving DecidableEq, Repr

/-- `SsrfViolation::proxy`. -/
def SsrfViolation.proxy (origin : Text) : SsrfViolation :=
  ⟨origin, .proxyResolutionUnsupported⟩

/-! ## Building the policy -/

structure SsrfPolicy where
  schemes : List Text
  origins : List Text
  domains : List Text
deriving DecidableEq, Repr

/-- `contains_control_or_whitespace`. -/
def containsControlOrWhitespace (value : Text) : Bool :=
  value.any fun c => isWhitespace c || isAsciiControl c

/-- The closure of `normalize_schemes`. -/
def normalizeScheme (scheme : Text) : Except Text Text :=
  if scheme ≠ trim scheme then
    .error "SSRFPolicy.allowed_schemes contains surrounding whitespace"
  else if !isSupported (toAsciiLowercase scheme) then
    .error "SSRFPolicy.allowed_schemes supports only http and https"
  else .ok (toAsciiLowercase scheme)

/-- `normalize_schemes`. -/
def normalizeSchemes (schemes : List Text) : Except Text (List Text) := do
  let normalized ← schemes.mapM normalizeScheme
  if normalized.isEmpty then .error "SSRFPolicy.allowed_schemes must not be empty"
  else .ok normalized

/-- The authority of an origin text, without one trailing slash. -/
def originAuthority (origin : Text) : Option (Text × Text) :=
  (splitOnceStr "://" origin).map fun pieces =>
    (pieces.1, (stripSuffixChar '/' pieces.2).getD pieces.2)

/-- `is_strict_origin_input`. -/
def isStrictOriginInput (origin : Text) : Bool :=
  if origin ≠ trim origin || containsControlOrWhitespace origin ||
      origin.any fun c => ("%\\@?#" : Text).contains c then false
  else
    match splitOnceStr "://" origin with
    | none => false
    | some (scheme, authorityAndPath) =>
        if scheme.isEmpty || authorityAndPath.isEmpty then false
        else
          let authority := (stripSuffixChar '/' authorityAndPath).getD authorityAndPath
          !authority.isEmpty && !authority.contains '/' && authority.getLast? != some ':'

/-- `original_origin_host`. -/
def originalOriginHost (origin : Text) : Option Text := do
  let (_, authority) ← originAuthority origin
  match stripPrefixChar '[' authority with
  | some bracketed => (splitOnce ']' bracketed).map Prod.fst
  | none => some (((rsplitOnce ':' authority).map Prod.fst).getD authority)

/-- `has_unambiguous_ip_host`. -/
def hasUnambiguousIpHost (origin : Text) (url : HttpUrl) : Bool :=
  match parseIpAddr url.host with
  | none => true
  | some normalizedAddress =>
      ((originalOriginHost origin).bind parseIpAddr) == some normalizedAddress

/-- The closure of `normalize_origins`. -/
def normalizeOrigin (crate : UrlCrate) (schemes : List Text) (origin : Text) :
    Except Text Text :=
  if !isStrictOriginInput origin then
    .error "SSRFPolicy.allowed_origins must contain origin-only HTTP(S) URLs"
  else do
    let url ← HttpUrl.parse crate origin
    if !url.isOriginOnly || !hasUnambiguousIpHost origin url then
      .error "SSRFPolicy.allowed_origins must contain origin-only HTTP(S) URLs"
    else if !schemes.contains url.scheme then
      .error "SSRFPolicy.allowed_origins contains a disabled scheme"
    else .ok url.origin

/-- `is_valid_domain`. -/
def isValidDomain (host : Text) : Bool :=
  utf8Len host ≤ 253 &&
    (host.splitOn '.').all fun label =>
      !label.isEmpty && utf8Len label ≤ 63 &&
        label.head?.any isAsciiAlphanumeric && label.getLast?.any isAsciiAlphanumeric &&
        label.all fun c => isAsciiAlphanumeric c || c == '-'

/-- `normalize_domain`. -/
def normalizeDomain (crate : UrlCrate) (domain : Text) : Except Text Text :=
  if domain.isEmpty || domain ≠ trim domain || containsControlOrWhitespace domain ||
      domain.head? == some '.' || domain.getLast? == some '.' ||
      domain.any fun c => (":/?#@[]*%\\" : Text).contains c then
    .error "SSRFPolicy.allowed_domains contains an invalid domain"
  else do
    let url ← HttpUrl.parse crate ("http://" ++ domain)
    if (parseIpAddr url.host).isSome then
      .error "SSRFPolicy.allowed_domains must not contain IP addresses"
    else if !isValidDomain url.host then
      .error "SSRFPolicy.allowed_domains contains an invalid domain"
    else .ok url.host

/-- `normalize_domains`: sorted, with equal neighbours merged. -/
def normalizeDomains (crate : UrlCrate) (domains : List Text) :
    Except Text (List Text) := do
  let normalized ← domains.mapM (normalizeDomain crate)
  .ok ((normalized.insertionSort (· ≤ ·)).destutter (· ≠ ·))

/-- `SsrfPolicy::new`. -/
def SsrfPolicy.new (crate : UrlCrate)
    (allowedSchemes allowedOrigins allowedDomains : List Text) :
    Except Text SsrfPolicy := do
  let schemes ← normalizeSchemes allowedSchemes
  let origins ← allowedOrigins.mapM (normalizeOrigin crate schemes)
  let domains ← normalizeDomains crate allowedDomains
  .ok ⟨schemes, origins, domains⟩

/-- The lists of a policy are the configured ones after normalisation, and a
configured allowlist is not empty. -/
structure SsrfPolicy.Configured (crate : UrlCrate)
    (allowedSchemes allowedOrigins allowedDomains : List Text) (policy : SsrfPolicy) :
    Prop where
  schemes : ∀ scheme ∈ policy.schemes,
    ∃ configured ∈ allowedSchemes, normalizeScheme configured = .ok scheme
  origins : ∀ origin ∈ policy.origins,
    ∃ configured ∈ allowedOrigins, normalizeOrigin crate policy.schemes configured = .ok origin
  domains : ∀ domain ∈ policy.domains,
    ∃ configured ∈ allowedDomains, normalizeDomain crate configured = .ok domain
  allowlist : allowedOrigins ≠ [] ∨ allowedDomains ≠ [] →
    policy.origins ≠ [] ∨ policy.domains ≠ []

/-- `SsrfPolicy::new` neither adds an entry nor drops an allowlist. -/
theorem SsrfPolicy.configured_of_new {crate : UrlCrate}
    {allowedSchemes allowedOrigins allowedDomains : List Text} {policy : SsrfPolicy}
    (h : SsrfPolicy.new crate allowedSchemes allowedOrigins allowedDomains = .ok policy) :
    policy.Configured crate allowedSchemes allowedOrigins allowedDomains := by
  unfold SsrfPolicy.new normalizeSchemes normalizeDomains at h
  rw [bind_eq_ok] at h
  obtain ⟨schemes, hkept, h⟩ := h
  rw [bind_eq_ok] at h hkept
  obtain ⟨normalized, hschemes, hkept⟩ := hkept
  obtain ⟨origins, horigins, h⟩ := h
  rw [bind_eq_ok] at h
  obtain ⟨sorted, hsorted, h⟩ := h
  rw [bind_eq_ok] at hsorted
  obtain ⟨domains, hdomains, hsorted⟩ := hsorted
  simp only [Except.ok.injEq] at hsorted h
  have hsame : normalized = schemes := by
    split at hkept
    · simp at hkept
    · simpa using hkept
  subst hsame hsorted h
  refine ⟨?_, ?_, ?_, ?_⟩
  · intro scheme hmem
    exact exists_of_mem_mapM hschemes hmem
  · intro origin hmem
    exact exists_of_mem_mapM horigins hmem
  · intro domain hmem
    have hmem := (List.destutter_sublist _ _).subset hmem
    rw [List.mem_insertionSort] at hmem
    exact exists_of_mem_mapM hdomains hmem
  · intro hne
    rcases hne with hne | hne
    · exact Or.inl (ne_nil_of_mapM horigins hne)
    · refine Or.inr fun hnil => ne_nil_of_mapM hdomains hne ?_
      have hlength := List.length_insertionSort (· ≤ ·) domains
      rw [(List.destutter_eq_nil _).mp hnil] at hlength
      exact List.eq_nil_of_length_eq_zero hlength.symm

/-! ## Checking a URL -/

/-- `domain_matches`. -/
def domainMatches (host domain : Text) : Bool :=
  host == domain ||
    (stripSuffix domain host).any fun front => front.getLast? == some '.'

/-- A host matches a domain when it is the domain, or ends with a dot and the
domain. -/
theorem domainMatches_iff {host domain : Text} :
    domainMatches host domain = true ↔
      host = domain ∨ ∃ labels, host = labels ++ '.' :: domain := by
  rw [domainMatches, Bool.or_eq_true, beq_iff_eq]
  apply or_congr Iff.rfl
  constructor
  · intro h
    cases hstrip : stripSuffix domain host with
    | none => simp [hstrip] at h
    | some front =>
        simp only [hstrip, Option.any_some, beq_iff_eq] at h
        obtain ⟨labels, hfront⟩ := List.getLast?_eq_some_iff.mp h
        exact ⟨labels, by rw [stripSuffix_eq_some hstrip, hfront]; simp⟩
  · intro hlabels
    obtain ⟨labels, rfl⟩ := hlabels
    have hsuffix : domain.isSuffixOf (labels ++ '.' :: domain) = true := by
      rw [List.isSuffixOf_iff_suffix]
      exact ⟨labels ++ ['.'], by simp⟩
    rw [stripSuffix, if_pos hsuffix]
    have hlen : (labels ++ '.' :: domain).length - domain.length = (labels ++ ['.']).length := by
      simp
      omega
    have hsplit : labels ++ '.' :: domain = (labels ++ ['.']) ++ domain := by simp
    have htake : (labels ++ '.' :: domain).take (labels ++ ['.']).length = labels ++ ['.'] := by
      rw [hsplit]
      exact List.take_left' rfl
    rw [hlen, htake]
    simp

namespace SsrfPolicy

/-- `SsrfPolicy::has_destination_allowlist`. -/
def hasDestinationAllowlist (policy : SsrfPolicy) : Bool :=
  !policy.origins.isEmpty || !policy.domains.isEmpty

/-- The kinds that an exactly allowlisted origin may have. -/
def excusable : Option BlockedIpKind → Bool
  | none | some .private_ | some .loopback | some .linkLocal => true
  | _ => false

/-- `SsrfPolicy::validate_url`. -/
def validateUrl (policy : SsrfPolicy) (url : HttpUrl) : Except SsrfViolation Unit :=
  if !policy.schemes.contains url.scheme then .error ⟨url.origin, .schemeNotAllowed⟩
  else
    let originAllowed := policy.origins.contains url.origin
    if policy.hasDestinationAllowlist && !originAllowed &&
        !policy.domains.any (domainMatches url.host) then
      .error ⟨url.origin, .destinationNotAllowed⟩
    else
      match parseIpAddr url.host with
      | none => .ok ()
      | some address =>
          if originAllowed && excusable (blockedIpKind address) then .ok ()
          else if (blockedIpKind address).isSome then .error ⟨url.origin, .nonPublicAddress⟩
          else .ok ()

/-- What a URL that passed `validateUrl` satisfies: its scheme is allowed, it is
on the allowlist when there is one, and an IP literal is public or excused by
its exact origin. -/
theorem validateUrl_eq_ok {policy : SsrfPolicy} {url : HttpUrl}
    (h : policy.validateUrl url = .ok ()) :
    url.scheme ∈ policy.schemes ∧
      (policy.hasDestinationAllowlist = true →
        url.origin ∈ policy.origins ∨
          ∃ domain ∈ policy.domains, domainMatches url.host domain = true) ∧
      ∀ address, parseIpAddr url.host = some address →
        blockedIpKind address = none ∨
          url.origin ∈ policy.origins ∧ excusable (blockedIpKind address) = true := by
  rw [validateUrl] at h
  split at h
  · simp at h
  rename_i hscheme
  dsimp only at h
  split at h
  · simp at h
  rename_i hdestination
  refine ⟨by simpa using hscheme, ?_, ?_⟩
  · intro hallow
    by_contra hnone
    simp only [not_or, not_exists, not_and] at hnone
    apply hdestination
    simp only [Bool.and_eq_true, Bool.not_eq_true', List.any_eq_false, hallow, true_and]
    exact ⟨by simpa using hnone.1, hnone.2⟩
  · intro address haddress
    rw [haddress] at h
    dsimp only at h
    split at h
    · rename_i hexcused
      rw [Bool.and_eq_true] at hexcused
      exact Or.inr ⟨by simpa using hexcused.1, hexcused.2⟩
    · split at h
      · simp at h
      · rename_i hnone
        exact Or.inl (by simpa using hnone)

/-- The excused kinds are the ones an exact origin may name. -/
theorem excusable_iff {kind : Option BlockedIpKind} :
    excusable kind = true ↔ kind = none ∨ kind = some .private_ ∨
      kind = some .loopback ∨ kind = some .linkLocal := by
  rcases kind with _ | kind
  · simp [excusable]
  · cases kind <;> simp [excusable]

end SsrfPolicy

/-- `validate_resolved_address`. -/
def validateResolvedAddress (target : Text) (address : IpAddr) : Except SsrfViolation Unit :=
  if (blockedIpKind address).isSome then .error ⟨target, .nonPublicAddress⟩ else .ok ()

/-- An accepted resolved address is not blocked. -/
theorem validateResolvedAddress_eq_ok {target : Text} {address : IpAddr} :
    validateResolvedAddress target address = .ok () ↔ blockedIpKind address = none := by
  rw [validateResolvedAddress]
  cases blockedIpKind address <;> simp

end FogHttp
