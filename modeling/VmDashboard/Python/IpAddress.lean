import Mathlib.Data.BitVec
import Mathlib.Data.Nat.Notation

/-!
# `ipaddress`: addresses and networks of both families

The texts `ip_address` and `ip_network` accept, membership of an address in a
network, and the text of a network. An IPv6 address may carry a scope id, which
membership ignores. A network keeps the proof that its host bits are zero.
-/

namespace Python

def isAsciiDigit (c : Char) : Bool := '0' ≤ c && c ≤ '9'

def isHexDigit (c : Char) : Bool := "0123456789ABCDEFabcdef".toList.contains c

def digitValue (c : Char) : ℕ :=
  if isAsciiDigit c then c.toNat - 48 else if 'a' ≤ c then c.toNat - 87 else c.toNat - 55

/-- `int(text, base)` of plain digits. -/
def numeral (base : ℕ) (cs : List Char) : ℕ := cs.foldl (fun n c => n * base + digitValue c) 0

inductive IpAddress
  | v4 (ip : BitVec 32)
  | v6 (ip : BitVec 128) (scope : Option String)
  deriving DecidableEq

/-! ### Addresses -/

def parseOctet (cs : List Char) : Option ℕ :=
  if cs = [] || !cs.all isAsciiDigit || 3 < cs.length then none
  else if cs ≠ ['0'] && cs.head? = some '0' then none
  else if 255 < numeral 10 cs then none
  else some (numeral 10 cs)

def ipv4FromString (cs : List Char) : Option (BitVec 32) :=
  match cs.splitOn '.' with
  | [a, b, c, d] => do
    let a ← parseOctet a
    let b ← parseOctet b
    let c ← parseOctet c
    let d ← parseOctet d
    return BitVec.ofNat 32 (((a * 256 + b) * 256 + c) * 256 + d)
  | _ => none

def parseHextet (cs : List Char) : Option ℕ :=
  if !cs.all isHexDigit || 4 < cs.length || cs = [] then none else some (numeral 16 cs)

/-- An IPv4 suffix in the last part is turned into two hextets. -/
def expandSuffix (parts : List (List Char)) : Option (List (List Char)) :=
  match parts.getLast? with
  | none => none
  | some last =>
    if last.contains '.' then
      (ipv4FromString last).map fun ip =>
        parts.dropLast ++ [Nat.toDigits 16 (ip.toNat / 65536), Nat.toDigits 16 (ip.toNat % 65536)]
    else some parts

/-- How many parts stand before and after the `::`, and how many hextets it stands for. -/
def partCounts (parts : List (List Char)) : Option (ℕ × ℕ × ℕ) :=
  let inner := (List.range parts.length).filter fun i =>
    1 ≤ i && i + 1 < parts.length && parts.getD i [] = []
  match inner with
  | [] =>
    if parts.length ≠ 8 || parts.head? = some [] || parts.getLast? = some [] then none
    else some (8, 0, 0)
  | [skip] =>
    let after := parts.length - skip - 1
    if parts.head? = some [] && skip ≠ 1 then none
    else if parts.getLast? = some [] && after ≠ 1 then none
    else
      let hi := if parts.head? = some [] then 0 else skip
      let lo := if parts.getLast? = some [] then 0 else after
      if 8 ≤ hi + lo then none else some (hi, lo, 8 - (hi + lo))
  | _ => none

def ipv6FromString (cs : List Char) : Option (BitVec 128) := do
  let split := cs.splitOn ':'
  if split.length < 3 then none
  let parts ← expandSuffix split
  if 9 < parts.length then none
  let (hi, lo, skipped) ← partCounts parts
  let before ← (parts.take hi).mapM parseHextet
  let after ← (parts.drop (parts.length - lo)).mapM parseHextet
  let high := before.foldl (fun n hextet => n * 65536 + hextet) 0
  return BitVec.ofNat 128 (after.foldl (fun n hextet => n * 65536 + hextet) (high * 65536 ^ skipped))

def splitScopeId (cs : List Char) : Option (List Char × Option String) :=
  match cs.span (· ≠ '%') with
  | (_, []) => some (cs, none)
  | (addr, _ :: scope) =>
    if scope = [] || scope.contains '%' then none else some (addr, some (String.ofList scope))

def ipv4Address (cs : List Char) : Option (BitVec 32) :=
  if cs.contains '/' then none else ipv4FromString cs

def ipv6Address (cs : List Char) : Option (BitVec 128 × Option String) :=
  if cs.contains '/' then none
  else do
    let (addr, scope) ← splitScopeId cs
    let ip ← ipv6FromString addr
    return (ip, scope)

/-- `ip_address(text)`. -/
def ipAddress (text : String) : Option IpAddress :=
  match ipv4Address text.toList with
  | some ip => some (.v4 ip)
  | none => (ipv6Address text.toList).map fun (ip, scope) => .v6 ip scope

/-- `address.ipv4_mapped`. -/
def ipv4Mapped (ip : BitVec 128) : Option (BitVec 32) :=
  if ip.toNat / 2 ^ 32 = 0xFFFF then some (BitVec.ofNat 32 ip.toNat) else none

/-! ### Networks -/

def netmask (w length : ℕ) : BitVec w := BitVec.allOnes w ^^^ (BitVec.allOnes w >>> length)

structure Net (w : ℕ) where
  base : BitVec w
  prefixlen : ℕ
  prefixlen_le : prefixlen ≤ w
  masked : base &&& netmask w prefixlen = base
  deriving DecidableEq

/-- `strict=False`: the host bits are dropped. -/
def Net.of {w : ℕ} (ip : BitVec w) (prefixlen : ℕ) (h : prefixlen ≤ w) : Net w :=
  ⟨ip &&& netmask w prefixlen, prefixlen, h, by rw [BitVec.and_assoc, BitVec.and_self]⟩

inductive IpNetwork
  | v4 (net : Net 32)
  | v6 (net : Net 128) (scope : Option String)
  deriving DecidableEq

def prefixlen : IpNetwork → ℕ
  | .v4 net => net.prefixlen
  | .v6 net _ => net.prefixlen

/-- `address in network`. -/
def IpNetwork.contains : IpNetwork → IpAddress → Bool
  | .v4 net, .v4 ip => ip &&& netmask 32 net.prefixlen = net.base
  | .v6 net _, .v6 ip _ => ip &&& netmask 128 net.prefixlen = net.base
  | _, _ => false

/-- `int(text)` refuses more than 4300 digits. -/
def prefixFromPrefixString (w : ℕ) (cs : List Char) : Option ℕ :=
  if cs = [] || !cs.all isAsciiDigit || 4300 < cs.length || w < numeral 10 cs then none
  else some (numeral 10 cs)

def countRighthandZeroBits (w : ℕ) (number : BitVec w) : ℕ :=
  ((List.range w).find? fun i => number.getLsbD i).getD w

def prefixFromIpInt {w : ℕ} (ip : BitVec w) : Option ℕ :=
  let zeroes := countRighthandZeroBits w ip
  if ip.toNat / 2 ^ zeroes = 2 ^ (w - zeroes) - 1 then some (w - zeroes) else none

/-- A dotted netmask, or a hostmask. -/
def prefixFromIpString (cs : List Char) : Option ℕ := do
  let ip ← ipv4FromString cs
  match prefixFromIpInt ip with
  | some length => return length
  | none => prefixFromIpInt (ip ^^^ BitVec.allOnes 32)

def ipv4Network (cs : List Char) : Option IpNetwork :=
  let build (addr : List Char) (length : Option ℕ) : Option IpNetwork := do
    let ip ← ipv4Address addr
    let length ← length
    if h : length ≤ 32 then some (.v4 (Net.of ip length h)) else none
  match cs.splitOn '/' with
  | [addr] => build addr (some 32)
  | [addr, mask] =>
    build addr (match prefixFromPrefixString 32 mask with
      | some length => some length
      | none => prefixFromIpString mask)
  | _ => none

/- An address rebuilt without its host bits has lost its scope id. -/
def ipv6Network (cs : List Char) : Option IpNetwork :=
  let build (addr : List Char) (length : Option ℕ) : Option IpNetwork := do
    let (ip, scope) ← ipv6Address addr
    let length ← length
    if h : length ≤ 128 then
      let net := Net.of ip length h
      some (.v6 net (if net.base = ip then scope else none))
    else none
  match cs.splitOn '/' with
  | [addr] => build addr (some 128)
  | [addr, mask] => build addr (prefixFromPrefixString 128 mask)
  | _ => none

/-- `ip_network(text, strict=False)`. -/
def ipNetwork (text : String) : Option IpNetwork :=
  match ipv4Network text.toList with
  | some net => some net
  | none => ipv6Network text.toList

/-! ### `str` of a network -/

def ipv4Text (ip : BitVec 32) : String :=
  ".".intercalate ([ip.toNat / 2 ^ 24, ip.toNat / 2 ^ 16 % 256, ip.toNat / 2 ^ 8 % 256,
    ip.toNat % 256].map toString)

/-- Start and length of the longest run of `0`, the first of the longest ones. -/
def longestZeros (hextets : List ℕ) : ℕ × ℕ :=
  (List.range hextets.length).foldl (fun best start =>
    let run := ((hextets.drop start).takeWhile (· = 0)).length
    if best.2 < run then (start, run) else best) (0, 0)

def ipv6Text (ip : BitVec 128) : String :=
  let hextets := (List.range 8).map fun i => ip.toNat / 65536 ^ (7 - i) % 65536
  let text (part : List ℕ) : String :=
    ":".intercalate (part.map fun n => String.ofList (Nat.toDigits 16 n))
  let (start, run) := longestZeros hextets
  if run ≤ 1 then text hextets
  else text (hextets.take start) ++ "::" ++ text (hextets.drop (start + run))

def IpNetwork.text : IpNetwork → String
  | .v4 net => ipv4Text net.base ++ "/" ++ toString net.prefixlen
  | .v6 net scope =>
    ipv6Text net.base ++ (scope.elim "" ("%" ++ ·)) ++ "/" ++ toString net.prefixlen

example : (ipNetwork "FE80::1%eth0/10").map IpNetwork.text = some "fe80::/10" ∧
    (ipNetwork "10.1.2.3/0.0.255.255").map IpNetwork.text = some "10.1.0.0/16" ∧
    ipAddress "::ffff:127.0.0.1" = some (.v6 0xFFFF7F000001 none) ∧
    ipAddress "1:2:3:4:5:6:7::8:9" = none := by decide +kernel

end Python
