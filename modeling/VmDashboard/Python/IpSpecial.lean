import VmDashboard.Python.IpAddress

/-!
# `ipaddress`: the special-purpose ranges

`is_loopback` and its siblings. An IPv6 address that maps an IPv4 one is private when the
mapped address is; its other predicates are its own.
-/

namespace Python

def Net.holds {w : ℕ} (net : Net w) (ip : BitVec w) : Bool :=
  ip &&& netmask w net.prefixlen = net.base

/-- `a.b.c.d/length`. -/
def net4 (a b c d length : ℕ) (h : length ≤ 32 := by decide) : Net 32 :=
  Net.of (BitVec.ofNat 32 (((a * 256 + b) * 256 + c) * 256 + d)) length h

/-- The network whose first four hextets are `a:b:c:d` and the last `z`. -/
def net6 (a b c d z length : ℕ) (h : length ≤ 128 := by decide) : Net 128 :=
  Net.of (BitVec.ofNat 128 ((((a * 65536 + b) * 65536 + c) * 65536 + d) * 2 ^ 64 + z)) length h

def privateNetworks4 : List (Net 32) :=
  [net4 0 0 0 0 8, net4 10 0 0 0 8, net4 127 0 0 0 8, net4 169 254 0 0 16, net4 172 16 0 0 12,
    net4 192 0 0 0 24, net4 192 0 0 170 31, net4 192 0 2 0 24, net4 192 168 0 0 16,
    net4 198 18 0 0 15, net4 198 51 100 0 24, net4 203 0 113 0 24, net4 240 0 0 0 4,
    net4 255 255 255 255 32]

def privateExceptions4 : List (Net 32) := [net4 192 0 0 9 32, net4 192 0 0 10 32]

def privateNetworks6 : List (Net 128) :=
  [net6 0 0 0 0 1 128, net6 0 0 0 0 0 128, net6 0 0 0 0 0xFFFF00000000 96,
    net6 0x64 0xff9b 1 0 0 48, net6 0x100 0 0 0 0 64, net6 0x2001 0 0 0 0 23,
    net6 0x2001 0xdb8 0 0 0 32, net6 0x2002 0 0 0 0 16, net6 0xfc00 0 0 0 0 7,
    net6 0xfe80 0 0 0 0 10]

def privateExceptions6 : List (Net 128) :=
  [net6 0x2001 1 0 0 1 128, net6 0x2001 1 0 0 2 128, net6 0x2001 3 0 0 0 32,
    net6 0x2001 4 0x112 0 0 48, net6 0x2001 0x20 0 0 0 28, net6 0x2001 0x30 0 0 0 28]

def reservedNetworks6 : List (Net 128) :=
  [net6 0 0 0 0 0 8, net6 0x100 0 0 0 0 8, net6 0x200 0 0 0 0 7, net6 0x400 0 0 0 0 6,
    net6 0x800 0 0 0 0 5, net6 0x1000 0 0 0 0 4, net6 0x4000 0 0 0 0 3, net6 0x6000 0 0 0 0 3,
    net6 0x8000 0 0 0 0 3, net6 0xA000 0 0 0 0 3, net6 0xC000 0 0 0 0 3, net6 0xE000 0 0 0 0 4,
    net6 0xF000 0 0 0 0 5, net6 0xF800 0 0 0 0 6, net6 0xFE00 0 0 0 0 9]

def isPrivate4 (ip : BitVec 32) : Bool :=
  privateNetworks4.any (·.holds ip) && !privateExceptions4.any (·.holds ip)

namespace IpAddress

def isLoopback : IpAddress → Bool
  | .v4 ip => (net4 127 0 0 0 8).holds ip
  | .v6 ip _ => ip = 1

def isLinkLocal : IpAddress → Bool
  | .v4 ip => (net4 169 254 0 0 16).holds ip
  | .v6 ip _ => (net6 0xfe80 0 0 0 0 10).holds ip

def isUnspecified : IpAddress → Bool
  | .v4 ip => ip = 0
  | .v6 ip _ => ip = 0

def isMulticast : IpAddress → Bool
  | .v4 ip => (net4 224 0 0 0 4).holds ip
  | .v6 ip _ => (net6 0xff00 0 0 0 0 8).holds ip

def isReserved : IpAddress → Bool
  | .v4 ip => (net4 240 0 0 0 4).holds ip
  | .v6 ip _ => reservedNetworks6.any (·.holds ip)

def isPrivate : IpAddress → Bool
  | .v4 ip => isPrivate4 ip
  | .v6 ip _ =>
    match ipv4Mapped ip with
    | some ip => isPrivate4 ip
    | none => privateNetworks6.any (·.holds ip) && !privateExceptions6.any (·.holds ip)

/-- `str(address)`. -/
def text : IpAddress → String
  | .v4 ip => ipv4Text ip
  | .v6 ip scope => ipv6Text ip ++ scope.elim "" ("%" ++ ·)

end IpAddress

example : ((ipAddress "169.254.169.254").map IpAddress.isLinkLocal = some true) ∧
    (ipAddress "::ffff:10.0.0.1").map IpAddress.isPrivate = some true ∧
    (ipAddress "64:ff9b::7f00:1").map IpAddress.isReserved = some true ∧
    (ipAddress "2606:2800:220:1::1").map (fun a => a.isPrivate || a.isReserved) = some false := by
  decide +kernel

end Python
