import FogHttp.Lib.Text

/-!
# The IP addresses of `std::net`

`Ipv4Addr` and `Ipv6Addr` are fixed-width words in network order, as
`u32::from` and `u128::from` give them.  The classification methods
(`is_loopback`, `is_private`, ...) are written as the standard library writes
them, over octets and 16-bit segments.

`parseIpAddr` is `<IpAddr as FromStr>::from_str`: a dotted quad without leading
zeros, or the IPv6 text form with one optional `::` and an optional trailing
dotted quad.  `IpAddr.display` is the `Display` form: the longest run of zero
segments is elided, and an IPv4-mapped address is written as a dotted quad.
-/

namespace FogHttp.Lib

/-! ## Addresses -/

/-- An IPv4 address as `u32::from` reads it. -/
abbrev Ipv4Addr := BitVec 32

/-- An IPv6 address as `u128::from` reads it. -/
abbrev Ipv6Addr := BitVec 128

inductive IpAddr where
  | v4 (address : Ipv4Addr)
  | v6 (address : Ipv6Addr)
deriving DecidableEq, Repr

/-- `Ipv4Addr::new`. -/
def Ipv4Addr.new (a b c d : Nat) : Ipv4Addr :=
  BitVec.ofNat 32 (a * 2 ^ 24 + b * 2 ^ 16 + c * 2 ^ 8 + d)

/-- `Ipv4Addr::octets`. -/
def Ipv4Addr.octets (address : Ipv4Addr) : List Nat :=
  [address.toNat / 2 ^ 24, address.toNat / 2 ^ 16 % 2 ^ 8,
    address.toNat / 2 ^ 8 % 2 ^ 8, address.toNat % 2 ^ 8]

/-- The `i`th octet. -/
def Ipv4Addr.octet (address : Ipv4Addr) (i : Nat) : Nat :=
  (Ipv4Addr.octets address).getD i 0

/-- `Ipv6Addr::new`. -/
def Ipv6Addr.new (a b c d e f g h : Nat) : Ipv6Addr :=
  BitVec.ofNat 128
    (a * 2 ^ 112 + b * 2 ^ 96 + c * 2 ^ 80 + d * 2 ^ 64 + e * 2 ^ 48 + f * 2 ^ 32 +
      g * 2 ^ 16 + h)

/-- The `i`th 16-bit segment, counted from the left. -/
def Ipv6Addr.segment (address : Ipv6Addr) (i : Nat) : Nat :=
  address.toNat / 2 ^ (112 - 16 * i) % 2 ^ 16

/-- `Ipv6Addr::segments`. -/
def Ipv6Addr.segments (address : Ipv6Addr) : List Nat :=
  (List.range 8).map (Ipv6Addr.segment address)

/-! ## Classification -/

/-- `Ipv4Addr::is_loopback`: `127.0.0.0/8`. -/
def Ipv4Addr.isLoopback (address : Ipv4Addr) : Bool := Ipv4Addr.octet address 0 == 127

/-- `Ipv4Addr::is_private`: `10/8`, `172.16/12` and `192.168/16`. -/
def Ipv4Addr.isPrivate (address : Ipv4Addr) : Bool :=
  let a := Ipv4Addr.octet address 0
  let b := Ipv4Addr.octet address 1
  a == 10 || (a == 172 && 16 ≤ b && b ≤ 31) || (a == 192 && b == 168)

/-- `Ipv4Addr::is_link_local`: `169.254/16`. -/
def Ipv4Addr.isLinkLocal (address : Ipv4Addr) : Bool :=
  Ipv4Addr.octet address 0 == 169 && Ipv4Addr.octet address 1 == 254

/-- `Ipv4Addr::is_multicast`: `224/4`. -/
def Ipv4Addr.isMulticast (address : Ipv4Addr) : Bool :=
  224 ≤ Ipv4Addr.octet address 0 && Ipv4Addr.octet address 0 ≤ 239

/-- `Ipv4Addr::is_unspecified`. -/
def Ipv4Addr.isUnspecified (address : Ipv4Addr) : Bool := address == 0

/-- `Ipv6Addr::is_loopback`: `::1`. -/
def Ipv6Addr.isLoopback (address : Ipv6Addr) : Bool := address == 1

/-- `Ipv6Addr::is_unique_local`: `fc00::/7`. -/
def Ipv6Addr.isUniqueLocal (address : Ipv6Addr) : Bool :=
  Ipv6Addr.segment address 0 &&& 0xfe00 == 0xfc00

/-- `Ipv6Addr::is_unicast_link_local`: `fe80::/10`. -/
def Ipv6Addr.isUnicastLinkLocal (address : Ipv6Addr) : Bool :=
  Ipv6Addr.segment address 0 &&& 0xffc0 == 0xfe80

/-- `Ipv6Addr::is_multicast`: `ff00::/8`. -/
def Ipv6Addr.isMulticast (address : Ipv6Addr) : Bool :=
  Ipv6Addr.segment address 0 &&& 0xff00 == 0xff00

/-- `Ipv6Addr::is_unspecified`. -/
def Ipv6Addr.isUnspecified (address : Ipv6Addr) : Bool := address == 0

/-- `Ipv6Addr::to_ipv4_mapped`: the address inside `::ffff:0:0/96`. -/
def Ipv6Addr.toIpv4Mapped (address : Ipv6Addr) : Option Ipv4Addr :=
  if address.toNat / 2 ^ 32 = 0xffff then
    some (BitVec.ofNat 32 (address.toNat % 2 ^ 32))
  else none

/-- `IpAddr::to_canonical`: an IPv4-mapped address becomes its IPv4 form. -/
def IpAddr.toCanonical : IpAddr → IpAddr
  | .v4 address => .v4 address
  | .v6 address =>
      match Ipv6Addr.toIpv4Mapped address with
      | some mapped => .v4 mapped
      | none => .v6 address

/-- `IpAddr::is_loopback`. -/
def IpAddr.isLoopback : IpAddr → Bool
  | .v4 address => Ipv4Addr.isLoopback address
  | .v6 address => Ipv6Addr.isLoopback address

/-! ## Parsing

A reader takes the remaining text and returns the value it read together with
the text it left, or `none`, in which case it consumed nothing. -/

/-- `char::to_digit` for the radices 10 and 16. -/
def toDigit (radix : Nat) (c : Char) : Option Nat :=
  let n := c.toNat
  let value :=
    if 48 ≤ n ∧ n ≤ 57 then some (n - 48)
    else if 97 ≤ n ∧ n ≤ 102 then some (n - 87)
    else if 65 ≤ n ∧ n ≤ 70 then some (n - 55)
    else none
  value.filter (· < radix)

/-- The digits of `Parser::read_number`: the value, the number of digits and
the rest. -/
def readDigits (radix : Nat) : Nat → Nat → Text → Nat × Nat × Text
  | value, count, [] => (value, count, [])
  | value, count, c :: rest =>
      match toDigit radix c with
      | some digit => readDigits radix (value * radix + digit) (count + 1) rest
      | none => (value, count, c :: rest)

/-- `Parser::read_number` with a digit limit; `bound` is the size of the
integer type. -/
def readNumber (radix maxDigits bound : Nat) (allowZeroPrefix : Bool) (input : Text) :
    Option (Nat × Text) :=
  match readDigits radix 0 0 input with
  | (value, count, rest) =>
      if count = 0 ∨ maxDigits < count then none
      else if !allowZeroPrefix && input.head? == some '0' && 1 < count then none
      else if value < bound then some (value, rest) else none

/-- `Parser::read_given_char`. -/
def readGivenChar (c : Char) : Text → Option Text := stripPrefixChar c

/-- `Parser::read_separator`: every item but the first follows a separator. -/
def readSeparator {α : Type} (sep : Char) (index : Nat)
    (read : Text → Option (α × Text)) (input : Text) : Option (α × Text) :=
  if index = 0 then read input else readGivenChar sep input >>= read

/-- `Parser::read_ipv4_addr`. -/
def readIpv4Addr (input : Text) : Option (Ipv4Addr × Text) := do
  let octet (index : Nat) (input : Text) :=
    readSeparator '.' index (readNumber 10 3 256 false) input
  let (a, input) ← octet 0 input
  let (b, input) ← octet 1 input
  let (c, input) ← octet 2 input
  let (d, input) ← octet 3 input
  return (Ipv4Addr.new a b c d, input)

/-- The loop of `read_groups`: at most `limit` colon-separated groups from group
`index` on, the last two of which may be a dotted quad.  Returns the groups,
whether a dotted quad was read, and the rest. -/
def readGroups (limit : Nat) : Nat → Nat → Text → List Nat × Bool × Text
  | 0, _, input => ([], false, input)
  | fuel + 1, index, input =>
      let quad :=
        if index < limit - 1 then readSeparator ':' index readIpv4Addr input else none
      match quad with
      | some (address, rest) =>
          ([address.toNat / 2 ^ 16, address.toNat % 2 ^ 16], true, rest)
      | none =>
          match readSeparator ':' index (readNumber 16 4 65536 true) input with
          | none => ([], false, input)
          | some (group, rest) =>
              match readGroups limit fuel (index + 1) rest with
              | (groups, isQuad, rest) => (group :: groups, isQuad, rest)

/-- The address with the given eight segments. -/
def ipv6OfSegments (segments : List Nat) : Ipv6Addr :=
  BitVec.ofNat 128 (segments.foldl (fun value segment => value * 2 ^ 16 + segment) 0)

/-- `Parser::read_ipv6_addr`. -/
def readIpv6Addr (input : Text) : Option (Ipv6Addr × Text) :=
  match readGroups 8 8 0 input with
  | (head, headQuad, rest) =>
      if head.length = 8 then some (ipv6OfSegments head, rest)
      else if headQuad then none
      else do
        let rest ← readGivenChar ':' rest
        let rest ← readGivenChar ':' rest
        let limit := 8 - (head.length + 1)
        match readGroups limit limit 0 rest with
        | (tail, _, rest) =>
            let zeros := List.replicate (8 - head.length - tail.length) 0
            return (ipv6OfSegments (head ++ zeros ++ tail), rest)

/-- `<IpAddr as FromStr>::from_str`: the whole text is one address. -/
def parseIpAddr (input : Text) : Option IpAddr :=
  match readIpv4Addr input with
  | some (address, rest) => if rest = [] then some (.v4 address) else none
  | none =>
      match readIpv6Addr input with
      | some (address, rest) => if rest = [] then some (.v6 address) else none
      | none => none

example : parseIpAddr "127.0.0.1" = some (.v4 (Ipv4Addr.new 127 0 0 1)) := by decide
example : parseIpAddr "64:ff9b::808:808" =
    some (.v6 (Ipv6Addr.new 0x64 0xff9b 0 0 0 0 0x808 0x808)) := by decide

/-! ## Display -/

/-- `Ipv4Addr`'s `Display`: the dotted quad. -/
def Ipv4Addr.display (address : Ipv4Addr) : Text :=
  List.intercalate "." ((Ipv4Addr.octets address).map decimal)

/-- The first longest run of zero segments, as a start and a length. -/
def longestZeroRun : List Nat → Nat → Nat × Nat → Nat × Nat → Nat × Nat
  | [], _, _, longest => longest
  | segment :: rest, index, current, longest =>
      if segment = 0 then
        let current := if current.2 = 0 then (index, 1) else (current.1, current.2 + 1)
        longestZeroRun rest (index + 1) current
          (if longest.2 < current.2 then current else longest)
      else longestZeroRun rest (index + 1) (0, 0) longest

/-- Colon-separated lower-case hexadecimal segments. -/
def displaySegments (segments : List Nat) : Text :=
  List.intercalate ":" (segments.map (Nat.toDigits 16))

/-- `Ipv6Addr`'s `Display`. -/
def Ipv6Addr.display (address : Ipv6Addr) : Text :=
  match Ipv6Addr.toIpv4Mapped address with
  | some mapped => "::ffff:" ++ Ipv4Addr.display mapped
  | none =>
      let segments := Ipv6Addr.segments address
      let zeros := longestZeroRun segments 0 (0, 0) (0, 0)
      if 1 < zeros.2 then
        displaySegments (segments.take zeros.1) ++ "::" ++
          displaySegments (segments.drop (zeros.1 + zeros.2))
      else displaySegments segments

/-- `IpAddr`'s `Display`. -/
def IpAddr.display : IpAddr → Text
  | .v4 address => Ipv4Addr.display address
  | .v6 address => Ipv6Addr.display address

example : IpAddr.display (.v6 (Ipv6Addr.new 0x2001 0xdb8 0 0 0 0 0 1)) =
    ("2001:db8::1" : Text) := by decide

end FogHttp.Lib
