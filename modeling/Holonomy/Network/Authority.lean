import Mathlib.Data.Nat.Digits.Defs
import Holonomy.Foundation.Hexadecimal
import Holonomy.Kernel.Ascii

/-!
# Resolved addresses

An address that a host name was resolved to is read as a dotted IPv4 address or as an IPv6 address,
compared with the ranges that are not public, and handed on in a normal form. The normal form of an
IPv6 address is the host name of a URL that contains it.
-/

namespace Holonomy.Network

open Foundation Kernel

/-- The codes of network errors. -/
inductive WebNetworkErrorCode where
  | cancelled
  | connectionRefused
  | dnsFailed
  | internal
  | invalidUrl
  | notSupported
  | offline
  | protocolError
  | redirectLimit
  | responseTooLarge
  | timeout
  | tlsFailed
deriving DecidableEq

/-- What the authority throws. -/
inductive AuthorityError where
  | network (code : WebNetworkErrorCode)
  | typeError
deriving DecidableEq

/-- Whether addresses that are not public may be used. -/
inductive PrivateNetwork where
  | allow
  | deny
deriving DecidableEq

/-- What an address is authorized against. -/
structure ResolvedNetworkAuthority where
  privateNetwork : PrivateNetwork

def nonPublicIpv4Ranges : List (ℕ × ℕ) :=
  [(0x00000000, 8), (0x0A000000, 8), (0x64400000, 10), (0x7F000000, 8), (0xA9FE0000, 16),
    (0xAC100000, 12), (0xC0000000, 24), (0xC0000200, 24), (0xC0586300, 24), (0xC0A80000, 16),
    (0xC6120000, 15), (0xC6336400, 24), (0xCB007100, 24), (0xE0000000, 4), (0xF0000000, 4)]

def isDigit (unit : UInt16) : Bool := 0x30 ≤ unit.toNat && unit.toNat ≤ 0x39

def decimalNumber (digits : Text) : ℕ :=
  digits.foldl (fun number digit => number * 10 + (digit.toNat - 0x30)) 0

def decimalText (number : ℕ) : Text :=
  if number = 0 then [0x30]
  else (Nat.digits 10 number).reverse.map fun digit => UInt16.ofNat (0x30 + digit)

def isOctetText : Text → Bool
  | [] => false
  | first :: rest => first :: rest == [0x30] ||
      (0x31 ≤ first.toNat && first.toNat ≤ 0x39 && rest.length ≤ 2 && rest.all isDigit)

def readOctet (part : Text) : Option ℕ :=
  if isOctetText part = false then none
  else
    let byte := decimalNumber part
    if 255 < byte then none else some byte

/-- A dotted address that was read. -/
structure ParsedIpv4 where
  normalized : Text
  value : ℕ
deriving DecidableEq

/-- Read a dotted address. -/
def parseIpv4 (input : Text) : Option ParsedIpv4 :=
  let parts := input.splitOn 0x2E
  if parts.length ≠ 4 then none
  else do
    let octets ← parts.mapM readOctet
    some ⟨join 0x2E (octets.map decimalText),
      octets.foldl (fun value byte => value * 256 + byte) 0 % 2 ^ 32⟩

def isPublicIpv4Value (value : ℕ) : Bool := ! nonPublicIpv4Ranges.any fun range =>
  let mask := if range.2 = 0 then 0 else (0xFFFFFFFF <<< (32 - range.2)) % 2 ^ 32
  (value &&& mask) == (range.1 &&& mask)

def indexOf (sought text : Text) : Option ℕ :=
  (List.range (text.length + 1)).find? fun position => sought.isPrefixOf (text.drop position)

def lastIndexOf (sought text : Text) : Option ℕ :=
  (List.range (text.length + 1)).reverse.find? fun position =>
    sought.isPrefixOf (text.drop position)

/-- A unit of an IPv6 address in lower case. -/
def isIpv6Unit (unit : UInt16) : Bool :=
  isDigit unit || (0x61 ≤ unit.toNat && unit.toNat ≤ 0x66) || unit = 0x3A || unit = 0x2E

def isLowerHexDigit (unit : UInt16) : Bool :=
  isDigit unit || (0x61 ≤ unit.toNat && unit.toNat ≤ 0x66)

/-- One to four hexadecimal digits. -/
def isGroupText (part : Text) : Bool :=
  0 < part.length && part.length ≤ 4 && part.all isLowerHexDigit

def readParts (value : Text) : List Text := if value = [] then [] else value.splitOn 0x3A

def readGroups : List Text → Option (List ℕ)
  | [] => some []
  | part :: rest =>
    if 0x2E ∈ part then
      if rest ≠ [] then none
      else (parseIpv4 part).map fun ipv4 => [(ipv4.value >>> 16) &&& 0xFFFF, ipv4.value &&& 0xFFFF]
    else if isGroupText part = false then none
    else do
      let groups ← readGroups rest
      some (hexNumber part :: groups)

def groupCount (parts : List Text) : ℕ :=
  (parts.map fun part => if 0x2E ∈ part then 2 else 1).sum

/-- The groups of an address without two colons. -/
def fullGroups (parts : List Text) : Option (List ℕ) := do
  let groups ← readGroups parts
  if groups.length ≠ 8 then none else some groups

/-- The groups of an address whose two colons stand for groups that are zero. -/
def compressedGroups (left right : List Text) : Option (List ℕ) := do
  let groups ← readGroups (left ++ right)
  if 8 ≤ groups.length then none
  else
    let leftGroupCount := groupCount left
    some (groups.take leftGroupCount ++ List.replicate (8 - groups.length) 0 ++
      groups.drop leftGroupCount)

/-- Read an IPv6 address. Letters outside ASCII have no lower-case form among the units of an
address, so that lower case is a matter of the letters of ASCII. -/
def parseIpv6 (input : Text) : Option (List ℕ) :=
  if input = [] ∨ 0x25 ∈ input ∨ 0x5B ∈ input ∨ 0x5D ∈ input then none
  else
    let normalized := input.map lowerUnit
    if normalized.all isIpv6Unit = false then none
    else
      match indexOf [0x3A, 0x3A] normalized with
      | none => fullGroups (readParts normalized)
      | some compression =>
        if lastIndexOf [0x3A, 0x3A] normalized ≠ some compression then none
        else compressedGroups (readParts (normalized.take compression))
          (readParts (normalized.drop (compression + 2)))

/-- A range of IPv6 addresses. -/
structure Ipv6Prefix where
  base : List ℕ
  bits : ℕ
deriving DecidableEq

/-- Read a range that the source lists; a text that is no address stops the module. -/
def parseIpv6Prefix (input : Text) (bits : ℕ) : Option Ipv6Prefix :=
  (parseIpv6 input).map fun base => ⟨base, bits⟩

/-- The ranges of IPv6 addresses that are not public, as the source lists them. -/
def listedIpv6Prefixes : List (Text × ℕ) :=
  [(js "::", 128), (js "::1", 128), (js "::ffff:0:0", 96), (js "64:ff9b::", 96),
    (js "64:ff9b:1::", 48), (js "100::", 64), (js "100:0:0:1::", 64), (js "2001::", 23),
    (js "2001:2::", 48), (js "2001:3::", 32), (js "2001:4:112::", 48), (js "2001:10::", 28),
    (js "2001:20::", 28), (js "2001:30::", 28), (js "2001:db8::", 32), (js "2002::", 16),
    (js "2620:4f:8000::", 48), (js "3fff::", 20), (js "5f00::", 16), (js "fc00::", 7),
    (js "fe80::", 10), (js "ff00::", 8)]

/-- The ranges of IPv6 addresses that are not public. -/
def nonPublicIpv6Prefixes : List Ipv6Prefix :=
  listedIpv6Prefixes.filterMap fun listed => parseIpv6Prefix listed.1 listed.2

def matchesIpv6Prefix (groups : List ℕ) (range : Ipv6Prefix) : Bool :=
  let full := range.bits / 16
  let remaining := range.bits % 16
  let mask := (0xFFFF <<< (16 - remaining)) &&& 0xFFFF
  ((List.range full).all fun index => groups[index]? == range.base[index]?) &&
    (remaining == 0 || (groups.getD full 0 &&& mask) == (range.base.getD full 0 &&& mask))

/-- The address is a global one and lies in no range that is not public. -/
def isPublicIpv6 (groups : List ℕ) : Bool :=
  (groups.getD 0 0 &&& 0xE000) == 0x2000 && ! nonPublicIpv6Prefixes.any (matchesIpv6Prefix groups)

/-- An address that was read. -/
structure ParsedAddress where
  normalized : Text
  isPublic : Bool
deriving DecidableEq

def addressUrl (input : Text) : Text := js "http://[" ++ input ++ js "]/"

/-- What is between the first and the last unit. -/
def sliceInside (text : Text) : Text := (text.drop 1).dropLast

section Authority

-- The host name of a URL, unless the URL cannot be parsed.
variable (urlHostname : Text → Option Text)

def parseAddress (input : Text) : Except AuthorityError (Option ParsedAddress) :=
  match parseIpv4 input with
  | some ipv4 => .ok (some ⟨ipv4.normalized, isPublicIpv4Value ipv4.value⟩)
  | none =>
    match parseIpv6 input with
    | none => .ok none
    | some ipv6 =>
      match urlHostname (addressUrl input) with
      | none => .error .typeError
      | some hostname => .ok (some ⟨sliceInside hostname, isPublicIpv6 ipv6⟩)

def authorizeResolvedAddress (authority : ResolvedNetworkAuthority) (address : Text) :
    Except AuthorityError Text := do
  match ← parseAddress urlHostname address with
  | none => .error (.network .invalidUrl)
  | some parsed =>
    if authority.privateNetwork = .deny ∧ parsed.isPublic = false then
      .error (.network .invalidUrl)
    else .ok parsed.normalized

end Authority

end Holonomy.Network
