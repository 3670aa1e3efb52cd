import Steward.Blocks
import Steward.Text

/-!
# Scan targets

A target list names addresses, CIDR blocks and ranges. `validateTargetsFor` checks
one when a task is accepted, `expandTargetsFor` turns it into addresses when the
task runs; both refuse reserved address space unless told otherwise. The parsers of
single addresses and blocks are the standard library's and a parameter here.
-/

namespace Steward.Targets

open Blocks

/-! ## Addresses and blocks -/

/-- An address of four or of sixteen bytes. -/
inductive IP
  | four (a : BitVec 32)
  | sixteen (a : BitVec 128)
  deriving DecidableEq, Repr

namespace IP

/-- The four bytes of an IPv4 address, also of one in its IPv6 form. -/
def to4 : IP → Option (BitVec 32)
  | four a => some a
  | sixteen a => if a.toNat / 2 ^ 32 = 0xffff then some (a.setWidth 32) else none

def incIP : IP → IP
  | four a => four (a + 1)
  | sixteen a => sixteen (a + 1)

end IP

/-- A network number whose bits behind the prefix are zero. -/
structure Masked (w : Nat) where
  base : BitVec w
  ones : Nat
  ones_le : ones ≤ w
  masked : 2 ^ (w - ones) ∣ base.toNat

theorem mask_masked {w : Nat} (a : BitVec w) (ones : Nat) :
    2 ^ (w - ones) ∣ (BitVec.ofNat w (a.toNat / 2 ^ (w - ones) * 2 ^ (w - ones))).toNat := by
  have hle : a.toNat / 2 ^ (w - ones) * 2 ^ (w - ones) ≤ a.toNat := Nat.div_mul_le_self ..
  rw [BitVec.toNat_ofNat, Nat.mod_eq_of_lt (Nat.lt_of_le_of_lt hle a.isLt)]
  exact Nat.dvd_mul_left _ _

/-- An address with the bits behind its prefix cleared. -/
def Masked.mask {w : Nat} (a : BitVec w) (ones : Nat) (h : ones ≤ w) : Masked w :=
  ⟨BitVec.ofNat w (a.toNat / 2 ^ (w - ones) * 2 ^ (w - ones)), ones, h, mask_masked a ones⟩

/-- The addresses of the network, as numbers. -/
def Masked.block {w : Nat} (n : Masked w) : Block := ⟨n.base.toNat, w - n.ones, n.masked⟩

inductive IPNet
  | four (n : Masked 32)
  | sixteen (n : Masked 128)

/-- Two addresses agree above the lowest `k` bits. -/
def samePrefix {w : Nat} (k : Nat) (a b : BitVec w) : Bool := a.toNat / 2 ^ k = b.toNat / 2 ^ k

namespace IPNet

def base : IPNet → IP
  | four n => .four n.base
  | sixteen n => .sixteen n.base

def ones : IPNet → Nat
  | four n => n.ones
  | sixteen n => n.ones

def bits : IPNet → Nat
  | four _ => 32
  | sixteen _ => 128

/-- `Contains` of a block whose number has four bytes. -/
def contains4 (base : BitVec 32) (k : Nat) (ip : IP) : Bool :=
  match ip.to4 with
  | some x => samePrefix k base x
  | none => false

/-- `Contains` of any other block: no address that has four bytes is in it. -/
def contains6 (base : BitVec 128) (k : Nat) (ip : IP) : Bool :=
  match ip with
  | .sixteen x => ip.to4.isNone && samePrefix k base x
  | .four _ => false

def contains (net : IPNet) (ip : IP) : Bool :=
  match net with
  | four n => contains4 n.base (32 - n.ones) ip
  | sixteen n =>
    match (IP.sixteen n.base).to4 with
    | some base => contains4 base (32 - (n.ones - 96)) ip
    | none => contains6 n.base (128 - n.ones) ip

/-- The highest address, all bits behind the prefix set. -/
def lastAddress (net : IPNet) : Option IP :=
  if net.bits ≤ net.ones then none
  else match net with
    | four n => some (.four (BitVec.ofNat 32
        (n.base.toNat / 2 ^ (32 - n.ones) * 2 ^ (32 - n.ones) + (2 ^ (32 - n.ones) - 1))))
    | sixteen n => some (.sixteen (BitVec.ofNat 128
        (n.base.toNat / 2 ^ (128 - n.ones) * 2 ^ (128 - n.ones) + (2 ^ (128 - n.ones) - 1))))

end IPNet

/-! ## Reserved space -/

inductive ReservedClass
  | unspecified | loopback | linkLocalUnicast | multicast | limitedBroadcast | reserved240
  deriving DecidableEq, Repr

namespace IP

variable (ip : IP)

def isUnspecified : Bool := ip.to4 = some 0 || ip = .sixteen 0

def isLoopback : Bool :=
  match ip.to4 with
  | some x => x.toNat / 2 ^ 24 = 127
  | none => ip = .sixteen 1

def isLinkLocalUnicast : Bool :=
  match ip.to4, ip with
  | some x, _ => x.toNat / 2 ^ 16 = 0xa9fe
  | none, .sixteen x => x.toNat / 2 ^ 118 = 0x3fa
  | none, .four _ => false

def isMulticast : Bool :=
  match ip.to4, ip with
  | some x, _ => x.toNat / 2 ^ 28 = 0xe
  | none, .sixteen x => x.toNat / 2 ^ 120 = 0xff
  | none, .four _ => false

def isBroadcast : Bool := ip.to4 = some 0xffffffff

end IP

def reservedClass (ip : IP) : Option ReservedClass :=
  if ip.isUnspecified then some .unspecified
  else if ip.isLoopback then some .loopback
  else if ip.isLinkLocalUnicast then some .linkLocalUnicast
  else if ip.isMulticast then some .multicast
  else if ip.isBroadcast then some .limitedBroadcast
  else match ip.to4 with
    | some x => if 240 ≤ x.toNat / 2 ^ 24 then some .reserved240 else none
    | none => none

inductive TargetError
  | emptyTargets
  | noValidTargets
  | invalidTarget (part : String)
  | invalidIPRange (text : String)
  | ipv6RangeUnsupported (part : String)
  | targetRangeTooLarge (count : Nat)
  | reservedTarget (part : String) (is : ReservedClass)
  | overlapsReserved (part : String) (overlaps : ReservedClass) (ends : IP)
  deriving DecidableEq, Repr

def checkReserved (part : String) (first : IP) (last : Option IP) : Except TargetError Unit :=
  match reservedClass first with
  | some c => .error (.reservedTarget part c)
  | none =>
    match last with
    | none => .ok ()
    | some last =>
      match reservedClass last with
      | some c => .error (.overlapsReserved part c last)
      | none => .ok ()

/-! ## Target lists -/

/-- `net.ParseIP`, always of sixteen bytes, and `net.ParseCIDR`. -/
structure NetParser where
  parseIP : String → Option (BitVec 128)
  parseCIDR : String → Option IPNet

variable (P : NetParser)

/-- The text before and behind the first dash. -/
def splitRange (s : String) : Option (String × String) :=
  match s.toList.span (· ≠ '-') with
  | (_, []) => none
  | (a, _ :: b) => some (Text.trimSpace (String.ofList a), Text.trimSpace (String.ofList b))

/-- The end of a range: an address, or an octet that replaces the last one of the start. -/
def rangeEnd (start : BitVec 32) (text : String) : Except TargetError (BitVec 32) :=
  match P.parseIP text with
  | some e =>
    match (IP.sixteen e).to4 with
    | some e => .ok e
    | none => .error (.invalidIPRange text)
  | none =>
    match Text.parseInt text with
    | some n =>
      if n < 0 ∨ n > 255 then .error (.invalidIPRange text)
      else .ok (BitVec.ofNat 32 (start.toNat / 256 * 256 + n.toNat))
    | none => .error (.invalidIPRange text)

def rangeBounds (s : String) : Except TargetError (BitVec 32 × BitVec 32) :=
  match splitRange s with
  | none => .error (.invalidIPRange s)
  | some (startText, endText) =>
    match P.parseIP startText with
    | none => .error (.invalidIPRange startText)
    | some startIP =>
      match (IP.sixteen startIP).to4 with
      | none => .error (.ipv6RangeUnsupported s)
      | some start =>
        match rangeEnd P start endText with
        | .error e => .error e
        | .ok last => if start.toNat > last.toNat then .ok (last, start) else .ok (start, last)

def validatePart (part : String) (allowReserved : Bool) : Except TargetError Unit :=
  match P.parseCIDR part with
  | some net => if allowReserved then .ok () else checkReserved part net.base net.lastAddress
  | none =>
    match P.parseIP part with
    | some ip =>
      if allowReserved then .ok ()
      else match reservedClass (.sixteen ip) with
        | some c => .error (.reservedTarget part c)
        | none => .ok ()
    | none =>
      if Text.contains part "-" then
        match rangeBounds P part with
        | .error e => .error e
        | .ok (first, last) =>
          if allowReserved then .ok () else checkReserved part (.four first) (some (.four last))
      else .error (.invalidTarget part)

def validateParts (allowReserved : Bool) : List String → Except TargetError Unit
  | [] => .ok ()
  | part :: rest =>
    if Text.trimSpace part = "" then validateParts allowReserved rest
    else match validatePart P (Text.trimSpace part) allowReserved with
      | .error e => .error e
      | .ok () => validateParts allowReserved rest

def validateTargetsFor (targets : String) (allowReserved : Bool) : Except TargetError Unit :=
  let targets := Text.trimSpace targets
  if targets = "" then .error .emptyTargets
  else validateParts P allowReserved (Text.split targets ',')

/-- The addresses of a block without network and broadcast address; `none` when the loop over
them does not end. -/
def enumerateCIDR (net : IPNet) : Option (List IP) :=
  if net.ones = net.bits then some [net.base]
  else
    (collectWhile net.contains IP.incIP (2 ^ net.bits + 1) net.base).map fun ips =>
      if net.bits = 32 ∧ net.ones < 31 then ips.tail.dropLast else ips

def maxRangeIPs : Nat := 65536

def rangeLoop (last : BitVec 32) : Nat → BitVec 32 → List IP
  | 0, _ => []
  | fuel + 1, cur =>
    if cur.toNat ≤ last.toNat then
      if cur = last then [.four cur] else .four cur :: rangeLoop last fuel (cur + 1)
    else []

def enumerateRange (first last : BitVec 32) : Except TargetError (List IP) :=
  let count := last.toNat - first.toNat + 1
  if count > maxRangeIPs then .error (.targetRangeTooLarge count)
  else .ok (rangeLoop last count first)

/-- The outcome of an expansion; `none` is one that does not return. -/
abbrev Expansion := Option (Except TargetError (List IP))

def expandSingle (t : String) (allowReserved : Bool) : Expansion :=
  match P.parseCIDR t with
  | some net =>
    match if allowReserved then .ok () else checkReserved t net.base net.lastAddress with
    | .error e => some (.error e)
    | .ok () => (enumerateCIDR net).map .ok
  | none =>
    match P.parseIP t with
    | some ip =>
      if allowReserved then some (.ok [.sixteen ip])
      else match reservedClass (.sixteen ip) with
        | some c => some (.error (.reservedTarget t c))
        | none => some (.ok [.sixteen ip])
    | none =>
      if Text.contains t "-" then
        match rangeBounds P t with
        | .error e => some (.error e)
        | .ok (first, last) =>
          match if allowReserved then .ok ()
            else checkReserved t (.four first) (some (.four last)) with
          | .error e => some (.error e)
          | .ok () => some (enumerateRange first last)
      else some (.error (.invalidTarget t))

def expandParts (allowReserved : Bool) : List String → Expansion
  | [] => some (.ok [])
  | part :: rest =>
    if Text.trimSpace part = "" then expandParts allowReserved rest
    else match expandSingle P (Text.trimSpace part) allowReserved with
      | some (.ok ips) =>
        match expandParts allowReserved rest with
        | some (.ok more) => some (.ok (ips ++ more))
        | other => other
      | other => other

def expandTargetsFor (targets : String) (allowReserved : Bool) : Expansion :=
  let targets := Text.trimSpace targets
  if targets = "" then some (.error .emptyTargets)
  else if Text.contains targets "," then
    match expandParts P allowReserved (Text.split targets ',') with
    | some (.ok []) => some (.error .noValidTargets)
    | other => other
  else expandSingle P targets allowReserved

end Steward.Targets
