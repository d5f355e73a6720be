import Mathlib.Data.Nat.Size
import Mathlib.Data.Prod.Basic
import VmDashboard.Python.Case
import VmDashboard.Python.IpSpecial

/-!
# Pools of a network tunnel (`services/tunnel_pool.py`)

`parse_pool` expands what an operator wrote, `derive_pool_cidr` picks an aligned network near the top of
a subnet.
-/

namespace Tunnels
open Python (IpAddress IpNetwork Net ipAddress ipNetwork prefixlen strip lower)

/-! ### Integers of addresses -/

/-- `int(address)`. -/
def number : IpAddress → ℕ
  | .v4 ip => ip.toNat
  | .v6 ip _ => ip.toNat

/-- `ip_address(n)`, which knows no family. -/
def addressOfInt (n : ℕ) : IpAddress :=
  if n < 2 ^ 32 then .v4 (BitVec.ofNat 32 n) else .v6 (BitVec.ofNat 128 n) none

def maxPrefixlen : IpNetwork → ℕ
  | .v4 _ => 32
  | .v6 _ _ => 128

/-- The hosts of a network that leaves out its first address and its `tops` last ones. -/
def hostNumbers {w : ℕ} (net : Net w) (tops : ℕ) : List ℕ :=
  if net.prefixlen = w then [net.base.toNat]
  else if net.prefixlen + 1 = w then [net.base.toNat, net.base.toNat + 1]
  else List.range' (net.base.toNat + 1) (2 ^ (w - net.prefixlen) - 1 - tops)

/-- `list(network.hosts())`. Only IPv4 has a broadcast address. -/
def hosts : IpNetwork → List IpAddress
  | .v4 net => (hostNumbers net 1).map fun n => .v4 (BitVec.ofNat 32 n)
  | .v6 net scope =>
    if net.prefixlen = 128 then [.v6 net.base scope]
    else (hostNumbers net 0).map fun n => .v6 (BitVec.ofNat 128 n) none

/-! ### What an operator wrote -/

def poolMax : ℕ := 32

def disabled : String := "off"

inductive Raised
  /-- Addresses of two families do not compare. -/
  | typeError
  deriving DecidableEq

/-- `spec.split("-", 1)`, both parts stripped. -/
def splitRange (spec : String) : String × String :=
  (strip (String.ofList (spec.toList.takeWhile (· ≠ '-'))),
    strip (String.ofList ((spec.toList.dropWhile (· ≠ '-')).drop 1)))

def sameFamily : IpAddress → IpAddress → Bool
  | .v4 _, .v4 _ => true
  | .v6 _ _, .v6 _ _ => true
  | _, _ => false

/-- The addresses of a range, `none` for a `ValueError`. -/
def expandRange (spec : String) : Except Raised (Option (List IpAddress)) :=
  match ipAddress (splitRange spec).1, ipAddress (splitRange spec).2 with
  | some lo, some hi =>
    if sameFamily lo hi then
      let (lo, hi) := if number hi < number lo then (hi, lo) else (lo, hi)
      .ok (some ((List.range' (number lo) (number hi + 1 - number lo)).map addressOfInt))
    else .error .typeError
  | _, _ => .ok none

def parsePool (spec : String) : Except Raised (List String) := do
  let spec := strip spec
  if spec = "" ∨ lower spec = disabled then return []
  let out ←
    if spec.toList.contains '-' then expandRange spec
    else if spec.toList.contains '/' then pure ((ipNetwork spec).map hosts)
    else pure ((ipAddress spec).map fun address => [address])
  return ((out.getD []).take poolMax).map IpAddress.text

/-! ### Deriving a network -/

/-- `RESERVED`: how many of the first and of the last hosts a cloud keeps for itself. -/
def reservedFor (cloud : String) : ℕ × ℕ :=
  if lower cloud = "azure" then (3, 0)
  else if lower cloud = "aws" then (3, 0)
  else if lower cloud = "gcp" then (1, 1)
  else (3, 0)

def usable (cloud : String) (net : IpNetwork) : List IpAddress :=
  let (head, tail) := reservedFor cloud
  let rest := (hosts net).drop head
  if tail = 0 then rest else rest.take (rest.length - tail)

/-- The walk down from `start` by blocks of `2 ^ k` addresses. -/
def walkDown (lo hi : ℤ) (k : ℕ) (start : ℤ) : Option ℤ :=
  if lo ≤ start then
    if start + 2 ^ k - 1 ≤ hi then some start else walkDown lo hi k (start - 2 ^ k)
  else none
termination_by (start - lo + 1).toNat
decreasing_by
  have hblock : (0 : ℤ) < 2 ^ k := Int.pow_pos (by decide)
  omega

/-- The highest aligned block of `2 ^ k` addresses. -/
def highest (lo hi : ℤ) (k : ℕ) : Option ℤ := walkDown lo hi k ((hi + 1 - 2 ^ k) / 2 ^ k * 2 ^ k)

def cidrText (start : ℤ) (bits : ℕ) : String :=
  (addressOfInt start.toNat).text ++ "/" ++ toString bits

/-- The smallest prefix length that is tried first, for `size` addresses. -/
def ideal (net : IpNetwork) (size : ℕ) : ℕ :=
  max (prefixlen net) (maxPrefixlen net - (max (size - 1) 1).size)

def derivePoolCidr (subnetCidr cloud : String) (size : ℕ) : String :=
  match ipNetwork subnetCidr with
  | none => ""
  | some net =>
    match (usable cloud net).head?, (usable cloud net).getLast? with
    | some first, some last =>
      let found := (List.range' (ideal net size) (maxPrefixlen net - 1 - ideal net size)).findSome?
        fun bits => (highest (number first) (number last) (maxPrefixlen net - bits)).map
          fun start => cidrText start bits
      found.getD ""
    | _, _ => ""

end Tunnels
