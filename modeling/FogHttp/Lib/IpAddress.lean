import Mathlib.Data.List.Basic
import Mathlib.Data.Nat.Digits.Defs
import FogHttp.Lib.Fallible
import FogHttp.Lib.Net

/-!
# The IP addresses of Python's `ipaddress`

`ipAddress` is `ip_address`: it reads a text as an `IPv4Address`, and otherwise as an
`IPv6Address`, which may name a scope.  `none` is the `ValueError` of both.

An IPv6 address has many spellings.  An IPv4 address has one (`ipv4Address_injective`),
since an octet has no leading zero.

Nothing here names a function of a particular program.
-/

namespace FogHttp.Lib

/-! ## Numbers -/

/-- `int(text, radix)` of digits alone. -/
def intOfDigits (radix : Nat) (text : Text) : Option Nat :=
  (text.mapM (toDigit radix)).map fun digits => Nat.ofDigits radix digits.reverse

/-- A decimal digit is its character. -/
theorem toNat_of_toDigit_ten {c : Char} {digit : Nat} (h : toDigit 10 c = some digit) :
    c.toNat = digit + 48 ∧ digit < 10 := by
  unfold toDigit at h
  rw [Option.filter_eq_some_iff, decide_eq_true_eq] at h
  obtain ⟨hvalue, hlt⟩ := h
  refine ⟨?_, hlt⟩
  split_ifs at hvalue with hdecimal hlower hupper
  · have hdigit := Option.some.inj hvalue
    omega
  · have hdigit := Option.some.inj hvalue
    omega
  · have hdigit := Option.some.inj hvalue
    omega

/-- A decimal digit is read without loss. -/
theorem toDigit_ten_leftUnique :
    Relator.LeftUnique fun c digit => toDigit 10 c = some digit := by
  intro left right digit hleft hright
  apply Char.toNat_inj.mp
  rw [(toNat_of_toDigit_ten hleft).1, (toNat_of_toDigit_ten hright).1]

theorem lt_ten_of_toDigit {text : Text} {digits : List Nat}
    (h : List.Forall₂ (fun c digit => toDigit 10 c = some digit) text digits) :
    ∀ digit ∈ digits, digit < 10 := by
  induction h with
  | nil => simp
  | cons hdigit _ ih =>
      intro digit hmem
      rcases List.mem_cons.mp hmem with rfl | hmem
      · exact (toNat_of_toDigit_ten hdigit).2
      · exact ih digit hmem

/-! ## IPv4 -/

/-- `_parse_octet`. -/
def parseOctet (octet : Text) : Option Nat :=
  if octet = [] ∨ 3 < octet.length ∨ (octet ≠ ['0'] ∧ octet.head? = some '0') then none
  else (intOfDigits 10 octet).filter (· ≤ 255)

/-- `IPv4Address(text)`. -/
def ipv4Address (text : Text) : Option Nat :=
  let octets := text.splitOn '.'
  if '/' ∈ text ∨ text = [] ∨ octets.length ≠ 4 then none
  else (octets.mapM parseOctet).map fun bytes => Nat.ofDigits 256 bytes.reverse

/-- The digits of an octet are the decimal digits of its value, if it is not zero. -/
theorem digits_of_parseOctet {octet : Text} {value : Nat} (h : parseOctet octet = some value)
    (hzero : octet ≠ ['0']) :
    List.Forall₂ (fun c digit => toDigit 10 c = some digit) octet (Nat.digits 10 value).reverse := by
  unfold parseOctet at h
  rw [Option.ite_none_left_eq_some, Option.filter_eq_some_iff] at h
  obtain ⟨hshape, hint, -⟩ := h
  unfold intOfDigits at hint
  rw [Option.map_eq_some_iff] at hint
  obtain ⟨digits, hdigits, rfl⟩ := hint
  have hread := mapM_eq_some hdigits
  have hbounds : ∀ digit ∈ digits.reverse, digit < 10 := fun digit hmem =>
    lt_ten_of_toDigit hread digit (List.mem_reverse.mp hmem)
  have hlast : ∀ hne : digits.reverse ≠ [], digits.reverse.getLast hne ≠ 0 := by
    intro hne hsame
    cases hread with
    | nil => exact hne rfl
    | @cons c first rest others hfirst _ =>
        rw [List.getLast_reverse, List.head_cons] at hsame
        have hc : c = '0' := by
          apply Char.toNat_inj.mp
          rw [(toNat_of_toDigit_ten hfirst).1, hsame]
          rfl
        exact hshape (.inr (.inr ⟨hzero, congrArg some hc⟩))
  rw [Nat.digits_ofDigits 10 (by decide) digits.reverse hbounds hlast, List.reverse_reverse]
  exact hread

theorem parseOctet_lt {octet : Text} {value : Nat} (h : parseOctet octet = some value) :
    value < 256 := by
  unfold parseOctet at h
  rw [Option.ite_none_left_eq_some, Option.filter_eq_some_iff, decide_eq_true_eq] at h
  omega

theorem eq_zero_of_parseOctet {octet : Text} (h : parseOctet octet = some 0) : octet = ['0'] := by
  by_contra hzero
  have hdigits := digits_of_parseOctet h hzero
  rw [Nat.digits_zero, List.reverse_nil, List.forall₂_nil_right_iff] at hdigits
  rw [hdigits] at h
  cases h

/-- An octet has no leading zero, so it is read without loss. -/
theorem parseOctet_leftUnique :
    Relator.LeftUnique fun octet value => parseOctet octet = some value := by
  intro left right value hleft hright
  by_cases hvalue : value = 0
  · subst hvalue
    rw [eq_zero_of_parseOctet hleft, eq_zero_of_parseOctet hright]
  · have hzero : ∀ octet, parseOctet octet = some value → octet ≠ ['0'] := by
      rintro _ hoctet rfl
      exact hvalue (Option.some.inj (hoctet.symm.trans (by decide)))
    exact List.left_unique_forall₂' toDigit_ten_leftUnique
      (digits_of_parseOctet hleft (hzero _ hleft)) (digits_of_parseOctet hright (hzero _ hright))

/-- The four octets of an IPv4 address. -/
theorem octets_of_ipv4Address {text : Text} {ip : Nat} (h : ipv4Address text = some ip) :
    ∃ bytes, List.Forall₂ (fun octet value => parseOctet octet = some value)
      (text.splitOn '.') bytes ∧ bytes.length = 4 ∧ (∀ byte ∈ bytes, byte < 256) ∧
        Nat.ofDigits 256 bytes.reverse = ip := by
  unfold ipv4Address at h
  rw [Option.ite_none_left_eq_some, Option.map_eq_some_iff] at h
  obtain ⟨hshape, bytes, hbytes, hip⟩ := h
  have hread := mapM_eq_some hbytes
  refine ⟨bytes, hread, ?_, fun byte hmem => ?_, hip⟩
  · rw [← hread.length_eq]
    by_contra hlength
    exact hshape (.inr (.inr hlength))
  · obtain ⟨i, hi, rfl⟩ := List.getElem_of_mem hmem
    exact parseOctet_lt (hread.get (hread.length_eq ▸ hi) hi)

/-- An IPv4 address is spelled in one way. -/
theorem ipv4Address_injective {left right : Text} {ip : Nat} (hleft : ipv4Address left = some ip)
    (hright : ipv4Address right = some ip) : left = right := by
  obtain ⟨bytes, hread, hlength, hbounds, hip⟩ := octets_of_ipv4Address hleft
  obtain ⟨others, hother, hotherLength, hotherBounds, hotherIp⟩ := octets_of_ipv4Address hright
  have hbytes : bytes.reverse = others.reverse := by
    refine Nat.ofDigits_inj_of_len_eq (by decide) ?_ ?_ ?_ (hip.trans hotherIp.symm)
    · rw [List.length_reverse, List.length_reverse, hlength, hotherLength]
    · exact fun byte hmem => hbounds byte (List.mem_reverse.mp hmem)
    · exact fun byte hmem => hotherBounds byte (List.mem_reverse.mp hmem)
  obtain rfl := List.reverse_injective hbytes
  have hoctets := List.left_unique_forall₂' parseOctet_leftUnique hread hother
  calc
    left = List.intercalate ['.'] (left.splitOn '.') := (List.intercalate_splitOn '.').symm
    _ = List.intercalate ['.'] (right.splitOn '.') := by rw [hoctets]
    _ = right := List.intercalate_splitOn '.'

/-! ## IPv6 -/

/-- `_parse_hextet`. -/
def parseHextet (hextet : Text) : Option Nat :=
  if hextet = [] ∨ 4 < hextet.length then none else intOfDigits 16 hextet

/-- The parts, with an IPv4 suffix in hexadecimal. -/
def hexParts (parts : List Text) : Option (List Text) :=
  match parts.getLast? with
  | none => some parts
  | some last =>
      if '.' ∈ last then
        (ipv4Address last).map fun ip =>
          parts.dropLast ++ [Nat.toDigits 16 (ip / 2 ^ 16), Nat.toDigits 16 (ip % 2 ^ 16)]
      else some parts

/-- The indices of empty parts, without the endpoints. -/
def skipIndices (parts : List Text) : List Nat :=
  (List.range parts.length).filter fun i =>
    1 ≤ i && i + 1 < parts.length && parts[i]? == some []

/-- The parts above a `::`, where a leading colon is a part of it. -/
def partsHi (parts : List Text) (skipIndex : Nat) : Option (List Text) :=
  if parts.head? = some [] then (if skipIndex = 1 then some [] else none)
  else some (parts.take skipIndex)

/-- The parts below a `::`, where a trailing colon is a part of it. -/
def partsLo (parts : List Text) (skipIndex : Nat) : Option (List Text) :=
  if parts.getLast? = some [] then (if skipIndex + 2 = parts.length then some [] else none)
  else some (parts.drop (skipIndex + 1))

/-- The eight hextets of the parts. -/
def hextets (parts : List Text) : Option (List Nat) := do
  match skipIndices parts with
  | [] =>
      if parts.length ≠ 8 ∨ parts.head? = some [] ∨ parts.getLast? = some [] then none
      else parts.mapM parseHextet
  | [skipIndex] =>
      let hi ← partsHi parts skipIndex
      let lo ← partsLo parts skipIndex
      if 8 ≤ hi.length + lo.length then none
      else
        let hi ← hi.mapM parseHextet
        let lo ← lo.mapM parseHextet
        some (hi ++ List.replicate (8 - (hi.length + lo.length)) 0 ++ lo)
  | _ => none

/-- `_BaseV6._ip_int_from_string`. -/
def ipv6FromString (text : Text) : Option Nat := do
  let parts := text.splitOn ':'
  if text = [] ∨ parts.length < 3 then none
  else
    let parts ← hexParts parts
    if 9 < parts.length then none
    else
      let hextets ← hextets parts
      some (Nat.ofDigits (2 ^ 16) hextets.reverse)

/-- `_split_scope_id`. -/
def splitScopeId (text : Text) : Option (Text × Option Text) :=
  match splitOnce '%' text with
  | none => some (text, none)
  | some (address, scopeId) =>
      if scopeId = [] ∨ '%' ∈ scopeId then none else some (address, some scopeId)

/-- `IPv6Address(text)`, with the scope that it names. -/
def ipv6Address (text : Text) : Option (Nat × Option Text) :=
  if '/' ∈ text then none
  else do
    let (address, scopeId) ← splitScopeId text
    let ip ← ipv6FromString address
    some (ip, scopeId)

/-! ## Addresses -/

/-- An `IPv4Address` or an `IPv6Address`.  Two of them are equal in Python when these are. -/
inductive IpAddress where
  | v4 (ip : Nat)
  | v6 (ip : Nat) (scopeId : Option Text)
deriving DecidableEq, Repr

/-- `ip_address`. -/
def ipAddress (text : Text) : Option IpAddress :=
  match ipv4Address text with
  | some ip => some (.v4 ip)
  | none => (ipv6Address text).map fun address => .v6 address.1 address.2

example : ipAddress "::ffff:10.0.0.1%eth0".toList =
    some (.v6 0xffff0a000001 (some "eth0".toList)) := by decide +kernel

example : ipAddress "1:0:0:0:0:0:0:2".toList = ipAddress "1::2".toList := by decide +kernel

end FogHttp.Lib
