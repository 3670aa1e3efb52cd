import Mathlib.Data.List.Sort
import Steward.Fallible
import Steward.TargetExpansion

/-!
# Scan targets on the agent

The agent expands the target lists that the center sends it with its own parser: blocks
through a library, which is a parameter here, ranges in ascending order only, both up to
limits of its own. The counter of the loop over the smallest blocks has 32 bits.
-/

namespace Steward.AgentTargets

open Fallible Targets

inductive ExpandError
  | invalid (part : String)
  | reservedRange (text : String)
  | tooManyHosts (part : String)
  deriving DecidableEq, Repr

def octets (ip : BitVec 32) : List Nat :=
  [ip.toNat / 2 ^ 24, ip.toNat / 2 ^ 16 % 256, ip.toNat / 2 ^ 8 % 256, ip.toNat % 256]

def dotted (ip : BitVec 32) : String := Text.join "." ((octets ip).map Text.decimal)

def isReserved (ip : BitVec 32) : Bool :=
  let n := ip.toNat
  n = 0 || n / 2 ^ 24 = 127 || n / 2 ^ 16 = 0xa9fe || (224 ≤ n / 2 ^ 24 && n / 2 ^ 24 ≤ 239) ||
    n = 0xffffffff || 240 ≤ n / 2 ^ 24

/-- The addresses from one number to another. -/
def interval (first last : Nat) : List (BitVec 32) :=
  (List.range' first (last + 1 - first)).map (BitVec.ofNat 32)

/-! ## The library for blocks -/

/-- What the agent calls of the library: a text parsed and truncated to its prefix, and the
hosts of a block. -/
structure Ipv4NetLib where
  parse : String → Option (Masked 32)
  hosts : Masked 32 → List (BitVec 32)

/-- The text behind the first slash. -/
def prefixDigits (s : String) : List Char := (s.toList.span (· ≠ '/')).2.tail

/-- The documented hosts of a block: without its two ends below a prefix of 31. -/
def usable (net : Masked 32) : List (BitVec 32) :=
  if net.ones < 31 then interval (net.base.toNat + 1) (net.block.last - 1)
  else interval net.base.toNat net.block.last

/-- What is assumed of the library. A block is a dotted address, a slash and one or two digits;
of what the center reads as a block, those are read alike. -/
structure Ipv4NetLib.Laws (lib : Ipv4NetLib) : Prop where
  parse_block : ∀ {s net}, parseIPv4Net s = some (.four net) →
    lib.parse s = if (prefixDigits s).length ≤ 2 then some net else none
  parse_none : ∀ {s}, '/' ∉ s.toList ∨ '-' ∈ s.toList → lib.parse s = none
  hosts_eq : ∀ net, lib.hosts net = usable net

/-- The end of a range: an address, or a number that replaces the last octet of the start. -/
def rangeEnd (start : BitVec 32) (text : String) : Option (BitVec 32) :=
  match parseIPv4 text with
  | some ip => some ip
  | none =>
    match Text.parseUnsigned 32 text with
    | some n =>
      if n > 255 then none else some (BitVec.ofNat 32 (start.toNat / 256 * 256 + n))
    | none => none

/-! ## Expansion -/

variable (lib : Ipv4NetLib) (allowReserved : Bool) (part : String)

def pushIfAllowed (ip : BitVec 32) : Res ExpandError (List (BitVec 32)) :=
  if isReserved ip && !allowReserved then
    .err (.reservedRange (dotted ip ++ " (in " ++ part ++ ")"))
  else .ok [ip]

def pushEach : List (BitVec 32) → Res ExpandError (List (BitVec 32))
  | [] => .ok []
  | ip :: rest => do
    let first ← pushIfAllowed allowReserved part ip
    let more ← pushEach rest
    pure (first ++ more)

/-- `while n <= end` with a counter of 32 bits. -/
def countUp (last : Nat) : Nat → Nat → Res ExpandError (List (BitVec 32))
  | 0, _ => .spin
  | fuel + 1, n =>
    if n ≤ last then do
      let first ← pushIfAllowed allowReserved part (BitVec.ofNat 32 n)
      let next ← checkedAdd 32 n 1
      let more ← countUp last fuel next
      pure (first ++ more)
    else .ok []

def expandNet (net : Masked 32) : Res ExpandError (List (BitVec 32)) :=
  if net.ones < 16 then .err (.tooManyHosts part)
  else do
    let inner ← pushEach allowReserved part (lib.hosts net)
    if net.ones ≥ 31 then do
      let all ← countUp allowReserved part net.block.last 3 net.base.toNat
      pure (inner ++ all)
    else .ok inner

def maxSpan : Nat := 10000

def expandRange (first last : BitVec 32) : Res ExpandError (List (BitVec 32)) :=
  if last.toNat < first.toNat then .err (.invalid part)
  else if last.toNat - first.toNat > maxSpan then .err (.tooManyHosts part)
  else pushEach allowReserved part (interval first.toNat last.toNat)

def expandPart : Res ExpandError (List (BitVec 32)) :=
  match lib.parse part with
  | some net => expandNet lib allowReserved part net
  | none =>
    match splitRange part with
    | some (startText, endText) =>
      match parseIPv4 startText with
      | none => .err (.invalid part)
      | some start =>
        match rangeEnd start endText with
        | none => .err (.invalid part)
        | some last => expandRange allowReserved part start last
    | none =>
      match parseIPv4 part with
      | none => .err (.invalid part)
      | some ip => pushIfAllowed allowReserved part ip

def expandParts : List String → Res ExpandError (List (BitVec 32))
  | [] => .ok []
  | part :: rest =>
    if Text.trimSpace part = "" then expandParts rest
    else do
      let first ← expandPart lib allowReserved (Text.trimSpace part)
      let more ← expandParts rest
      pure (first ++ more)

/-- One of each run of equal addresses. -/
def dedup : List (BitVec 32) → List (BitVec 32)
  | [] => []
  | [a] => [a]
  | a :: b :: rest => if a = b then dedup (b :: rest) else a :: dedup (b :: rest)

def expandTargets (spec : String) : Res ExpandError (List (BitVec 32)) := do
  let out ← expandParts lib allowReserved (Text.split spec ',')
  pure (dedup (out.insertionSort fun a b => a.toNat ≤ b.toNat))

end Steward.AgentTargets
