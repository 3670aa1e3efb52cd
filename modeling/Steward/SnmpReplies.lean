import Steward.Ber
import Steward.KeyMap

/-!
# Replies to the SNMP probes

The system probe asks for eight variables, the route probe walks six columns of the
routing table. Both run over whatever payloads come back. The conversion of octets to
text and of ticks to seconds is the standard library's, the order of a hash map any.
-/

namespace Steward.Snmp

open Fallible Scan Ber Text List

structure Library where
  /-- The text of octets, with bad ones replaced. -/
  lossy : List UInt8 → String
  /-- Ticks as a text to whole seconds. -/
  seconds : String → Option String
  /-- The order in which a hash map yields its entries. -/
  order : List (String × List UInt8) → List (String × List UInt8)
  order_perm : ∀ es, (order es).Perm es

/-- The payload that comes back in each exchange, if any. -/
abbrev Net := Nat → Option (List UInt8)

def exchange (net : Net) (size : Nat) : Scan Unit (Option (List UInt8)) := fun i =>
  .ok ((net i).map (List.take size), i + 1)

structure Evidence where
  source : String
  kind : String
  ip : String
  confidence : Rat
  port : Nat
  protocol : String
  rawData : List (String × String)
  deriving DecidableEq, Repr

/-! ## Requests -/

/-- The loop of `encode_oid` and a NULL over the identifiers. -/
def encodeVarbinds : List String → Res Unit (List UInt8)
  | [] => pure []
  | oid :: rest => do
    let name ← encodeOid oid
    let more ← encodeVarbinds rest
    pure (berTlv 0x30 (name ++ berTlv 0x05 []) ++ more)

def buildRequest (pduTag : UInt8) (version : Nat) (community : List UInt8) (reqId : Nat)
    (oids : List String) : Res Unit (List UInt8) := do
  let varbinds ← encodeVarbinds oids
  let int (v : Nat) := berTlv 0x02 (minimalBytes 4 v)
  let pdu := berTlv pduTag (int reqId ++ int 0 ++ int 0 ++ berTlv 0x30 varbinds)
  pure (berTlv 0x30 (int version ++ berTlv 0x04 community ++ pdu))

variable (version : Nat) (community : List UInt8) (reqId : Nat)

def buildGetRequest (oids : List String) :
    Res Unit (List UInt8) := buildRequest 0xA0 version community reqId oids

def buildGetNextRequest (oid : String) :
    Res Unit (List UInt8) := buildRequest 0xA1 version community reqId [oid]

/-- A request id made from the process id. -/
def requestId (pid factor : Nat) : Nat := pid * factor % 2 ^ 32 % 2 ^ 23

/-! ## Responses -/

/-- The cast of a wide integer to 32 bits. -/
def asI32 (v : Int) : Int := v.bmod (2 ^ 32)

def readInt (buf : List UInt8) : Scan Unit Int := do
  let t ← tlv buf
  lift (.ofOption () (decodeBerInt t.value))

/-- The response in a message of version, community and response. -/
def responsePdu (buf : List UInt8) : Res Unit (List UInt8) := do
  let (top, _) ← (tlv buf).run 0
  if top.tag ≠ 0x30 then .err ()
  else do
    let (pdu, _) ← (do
      let _version ← tlv top.value
      let _community ← tlv top.value
      tlv top.value).run 0
    if 0xA0 ≤ pdu.tag ∧ pdu.tag ≤ 0xA2 then .ok pdu.value else .err ()

/-- The error status behind a request id that is the expected one. -/
def errorStatus (pdu : List UInt8) (expect : Int) : Scan Unit Int := do
  let got ← readInt pdu
  if asI32 got ≠ expect then fail () else readInt pdu

def varbindList (pdu : List UInt8) : Scan Unit (List UInt8) := do
  let _index ← tlv pdu
  let list ← tlv pdu
  pure list.value

/-- The name and the value of a varbind. -/
def nameAndValue (vb : List UInt8) : Res Unit (Tlv × Tlv) := do
  let (pair, _) ← (do
    let name ← tlv vb
    let value ← tlv vb
    pure (name, value)).run 0
  pure pair

def octetsToDotted (b : List UInt8) : Res Unit String := do
  let w ← index b 0
  let x ← index b 1
  let y ← index b 2
  let z ← index b 3
  pure (Text.join "." ([w, x, y, z].map fun o => Text.decimal o.toNat))

def decodeBerIp (body : List UInt8) : Res Unit String :=
  if body.length = 4 then octetsToDotted body else pure (hexOf body)

def decodeBerTicks (body : List UInt8) : Option Nat :=
  (decodeBerInt body).map fun v => (v % 2 ^ 64).toNat

def decodeValue (lossy : List UInt8 → String) (tag : UInt8) (val : List UInt8) :
    Res Unit (Option String) :=
  if tag = 0x04 then pure (some (lossy val))
  else if tag = 0x06 then pure (some (oidToString val))
  else if tag = 0x02 ∨ tag = 0x0A then pure ((decodeBerInt val).map toString)
  else if tag = 0x05 ∨ tag = 0x80 then pure none
  else if tag = 0x40 then do pure (some (← decodeBerIp val))
  else if tag = 0x43 then pure ((decodeBerTicks val).map Text.decimal)
  else pure (some (hexOf val))

variable (lib : Library)

def parseGetResponse (buf : List UInt8) (expect : Int) : Res Unit (List (Option String)) := do
  let pdu ← responsePdu buf
  let (list, _) ← (do
    let status ← errorStatus pdu expect
    if status ≠ 0 then fail () else varbindList pdu).run 0
  items (fun vb => do
    let (_, value) ← nameAndValue vb
    decodeValue lib.lossy value.tag value.value) list

structure WalkVarbind where
  oid : String
  tag : UInt8
  value : List UInt8
  deriving DecidableEq, Repr

def parseWalkResponse (buf : List UInt8) (expect : Int) : Res Unit (Nat × List WalkVarbind) := do
  let pdu ← responsePdu buf
  let ((status, list), _) ← (do
    let status ← errorStatus pdu expect
    let list ← varbindList pdu
    pure (status, list)).run 0
  let vbs ← items (fun vb => do
    let (name, value) ← nameAndValue vb
    pure ⟨oidToString name.value, value.tag, value.value⟩) list
  pure ((max 0 (min status 255)).toNat, vbs)

/-! ## The system probe -/

def sysOids : List String :=
  ["1.3.6.1.2.1.1.1.0", "1.3.6.1.2.1.1.2.0", "1.3.6.1.2.1.1.3.0", "1.3.6.1.2.1.1.4.0",
    "1.3.6.1.2.1.1.5.0", "1.3.6.1.2.1.1.6.0", "1.3.6.1.2.1.1.7.0", "1.3.6.1.2.1.2.1.0"]

def fieldNames : List String :=
  ["sys_descr", "sys_object_id", "sys_up_time", "sys_contact", "sys_name", "sys_location",
    "sys_services", "if_number"]

/-- The target and the settings of a scan, and the process that runs it. -/
structure Hint where
  ip : String
  pid : Nat
  community : List UInt8

variable (net : Net) (hint : Hint)

def snmpGetAttempt (version : Nat) : Scan Unit (Option (List (Option String))) := do
  let reqId := requestId hint.pid 7919
  let _pkt ← lift (buildGetRequest version hint.community reqId sysOids)
  match ← exchange net 4096 with
  | none => pure none
  | some payload => lift (parseGetResponse lib payload reqId).attempt

/-- Attempts with these versions, up to the first that yields values. -/
def snmpGetAttempts : List Nat → Scan Unit (Option (List (Option String)))
  | [] => pure none
  | version :: rest => do
    match ← snmpGetAttempt lib net hint version with
    | some vars => pure (some vars)
    | none => snmpGetAttempts rest

/-- Version 2c twice, then version 1 twice. -/
def snmpGetSystem : Scan Unit (Option (List (Option String))) :=
  snmpGetAttempts lib net hint [1, 1, 0, 0]

/-- The values under the names of their positions. -/
def mapFields : Nat → List (String × String) → List (Option String) →
    Res Unit (List (String × String))
  | _, rd, [] => pure rd
  | i, rd, none :: rest => mapFields (i + 1) rd rest
  | i, rd, some v :: rest => do
    let name ← index fieldNames i
    mapFields (i + 1) (Assoc.set rd name v) rest

variable (ip : String)

def snmpEvidence (rd : List (String × String)) : List Evidence :=
  if rd = [] then []
  else
    let rd := Assoc.set rd "snmp_version" "2c"
    let rd := match (rd.lookup "sys_up_time").bind lib.seconds with
      | some s => Assoc.set rd "uptime_seconds" s
      | none => rd
    [⟨"active:snmp", "snmp", ip, 0.95, 161, "udp", rd⟩]

def snmpProbe : Scan Unit (List Evidence) := do
  match ← snmpGetSystem lib net hint with
  | none => pure []
  | some vars => do
    let rd ← lift (mapFields 0 [] vars)
    pure (snmpEvidence lib hint.ip rd)

/-! ## Walks -/

/-- The numbers of the root come first in the identifier. -/
def oidStartsWith (oid root : String) : Bool :=
  (Text.split root '.').isPrefixOf (Text.split oid '.')

/-- One retransmission on silence. -/
def exchangeTwice : Scan Unit (Option (List UInt8)) := do
  match ← exchange net 65535 with
  | some r => pure (some r)
  | none => exchange net 65535

def walkLoop (root : String) : Nat → Nat → String → List WalkVarbind →
    Scan Unit (Option (List WalkVarbind))
  | 0, _, _, out => pure (some out)
  | n + 1, reqId, next, out => do
    let _pkt ← lift (buildGetNextRequest 1 hint.community reqId next)
    match ← exchangeTwice net with
    | none => pure none
    | some payload => do
      match ← lift (parseWalkResponse payload reqId).attempt with
      | none => pure none
      | some (status, vbs) =>
        if status = 2 then pure (some out)
        else match vbs.head? with
          | none => pure none
          | some vb =>
            if !oidStartsWith vb.oid root then pure (some out)
            else walkLoop root n ((reqId + 1) % 2 ^ 23) vb.oid (out ++ [vb])

def v2cWalk (root : String) : Scan Unit (Option (List WalkVarbind)) :=
  walkLoop net hint root 1024 (requestId hint.pid 104729) root []

def dropDots (cs : List Char) : List Char := cs.dropWhile (· = '.')

def indexSuffix (fullOid root : String) : Option String :=
  let f := dropDots fullOid.toList
  let p := dropDots root.toList
  if p.isPrefixOf f then some (String.ofList (dropDots (f.drop p.length))) else none

/-- The values of a column by their index, the last of an index wins. -/
def column {β : Type} (value : WalkVarbind → Option β) (root : String) (vbs : List WalkVarbind) :
    List (String × β) :=
  vbs.foldl (fun out vb =>
    match value vb, indexSuffix vb.oid root with
    | some v, some suffix => Assoc.set out suffix v
    | _, _ => out) []

def walkColBytes (root : String) : Scan Unit (List (String × List UInt8)) := do
  let vbs ← v2cWalk net hint root
  pure (column (fun vb => some vb.value) root (vbs.getD []))

def walkColInt (root : String) : Scan Unit (List (String × Int)) := do
  let vbs ← v2cWalk net hint root
  pure (column (fun vb => if vb.tag = 0x02 then decodeBerInt vb.value else none) root (vbs.getD []))

/-! ## The route probe -/

def oidIpRouteDest : String := "1.3.6.1.2.1.4.21.1.1"
def oidIpRouteIfIndex : String := "1.3.6.1.2.1.4.21.1.2"
def oidIpRouteNextHop : String := "1.3.6.1.2.1.4.21.1.7"
def oidIpRouteType : String := "1.3.6.1.2.1.4.21.1.8"
def oidIpRouteProto : String := "1.3.6.1.2.1.4.21.1.9"
def oidIpRouteMask : String := "1.3.6.1.2.1.4.21.1.11"

structure RouteColumns where
  dests : List (String × List UInt8) := []
  hops : List (String × List UInt8) := []
  types : List (String × Int) := []
  protos : List (String × Int) := []
  masks : List (String × List UInt8) := []
  ifIdx : List (String × Int) := []

/-- The walks; nothing more is walked when there are no destinations. -/
def routeColumns : Scan Unit RouteColumns := do
  let dests ← walkColBytes net hint oidIpRouteDest
  if dests = [] then pure {}
  else do
    let hops ← walkColBytes net hint oidIpRouteNextHop
    let types ← walkColInt net hint oidIpRouteType
    let protos ← walkColInt net hint oidIpRouteProto
    let masks ← walkColBytes net hint oidIpRouteMask
    let ifIdx ← walkColInt net hint oidIpRouteIfIndex
    pure ⟨dests, hops, types, protos, masks, ifIdx⟩

def countOnes (b : UInt8) : Nat := (List.range 8).countP fun i => b.toNat.testBit i

def maskBitsOf (b : List UInt8) : Nat := (b.map countOnes).sum

/-- The next hop as a text, empty when it has not four octets. -/
def hopOf (c : RouteColumns) (key : String) : Res Unit String :=
  match c.hops.lookup key with
  | some b => if b.length = 4 then octetsToDotted b else pure ""
  | none => pure ""

def routeRow (c : RouteColumns) (key : String) (dest : List UInt8) :
    Res Unit (List Evidence) :=
  if c.types.lookup key = some 3 then pure []
  else do
    let hop ← hopOf c key
    if hop = "" ∨ hop = "0.0.0.0" then pure []
    else do
      let dest ← octetsToDotted dest
      let maskBits := match c.masks.lookup key with
        | some b => if b.length = 4 then maskBitsOf b else 0
        | none => 0
      pure [⟨"active:route_mib", "route", ip, 0.9, 161, "snmp",
        [("dest", dest ++ "/" ++ Text.decimal maskBits), ("next_hop", hop),
          ("if_index", toString ((c.ifIdx.lookup key).getD 0)),
          ("proto", toString ((c.protos.lookup key).getD 0))]⟩]

def routeRows (ip : String) (c : RouteColumns) :
    List (String × List UInt8) → Res Unit (List Evidence)
  | [] => pure []
  | (key, dest) :: rest => do
    let row ← routeRow ip c key dest
    let more ← routeRows ip c rest
    pure (row ++ more)

def routeMibProbe : Scan Unit (List Evidence) := do
  let c ← routeColumns net hint
  lift (routeRows hint.ip c (lib.order c.dests))

/-! ## Parsing returns -/

section Returns

variable (buf : List UInt8) (expect : Int) (pos : Nat)

theorem readInt_safe : Safe (readInt buf) pos := by
  simp [readInt, safe_bind, tlv_safe]

theorem responsePdu_returns : (responsePdu buf).Returns := by
  refine .bind (tlv_safe buf 0) fun top => ?_
  dsimp only
  split
  · trivial
  · refine .bind (show Safe _ 0 from ?_) fun pdu => ?_
    · simp [safe_bind, tlv_safe]
    · split <;> trivial

theorem errorStatus_safe : Safe (errorStatus buf expect) pos := by
  refine (readInt_safe buf pos).bind fun got p => ?_
  split
  · exact safe_fail ..
  · exact readInt_safe ..

theorem varbindList_safe : Safe (varbindList buf) pos := by
  simp [varbindList, safe_bind, tlv_safe]

theorem nameAndValue_returns : (nameAndValue buf).Returns := by
  refine .bind (show Safe _ 0 from ?_) fun _ => trivial
  simp [safe_bind, tlv_safe]

theorem octetsToDotted_returns_iff : (octetsToDotted buf).Returns ↔ 4 ≤ buf.length := by
  match buf with
  | [] => exact iff_of_false id (by simp)
  | [_] => exact iff_of_false id (by simp)
  | [_, _] => exact iff_of_false id (by simp)
  | [_, _, _] => exact iff_of_false id (by simp)
  | _ :: _ :: _ :: _ :: _ => exact iff_of_true trivial (by simp)

theorem decodeBerIp_returns : (decodeBerIp buf).Returns := by
  unfold decodeBerIp
  split
  · next h => exact (octetsToDotted_returns_iff buf).mpr (by omega)
  · trivial

theorem decodeValue_returns (lossy : List UInt8 → String) (tag : UInt8) :
    (decodeValue lossy tag buf).Returns := by
  unfold decodeValue
  split_ifs
  all_goals first
    | trivial
    | exact (decodeBerIp_returns buf).bind fun _ => trivial

/-- A payload of any bytes is parsed or refused. -/
theorem parseGetResponse_returns : (parseGetResponse lib buf expect).Returns := by
  refine (responsePdu_returns buf).bind fun pdu => ?_
  refine .bind (show Safe _ 0 from ?_) fun list => items_safe _ fun vb => ?_
  · refine (errorStatus_safe pdu expect 0).bind fun status p => ?_
    split
    · exact safe_fail ..
    · exact varbindList_safe ..
  · exact (nameAndValue_returns vb).bind fun pair => decodeValue_returns _ _ _

theorem parseWalkResponse_returns : (parseWalkResponse buf expect).Returns := by
  refine (responsePdu_returns buf).bind fun pdu => ?_
  refine .bind (show Safe _ 0 from ?_) fun list =>
    .bind (items_safe _ fun vb => ?_) fun _ => trivial
  · simp [safe_bind, errorStatus_safe, varbindList_safe]
  · exact (nameAndValue_returns vb).bind fun _ => trivial

end Returns

/-! ## Probes -/

variable {oids : List String} {version reqId : Nat} {community dest : List UInt8} {oid key : String}
  {c : RouteColumns}

theorem encodeVarbinds_returns (h : ∀ oid ∈ oids, Encodable (oidParts oid)) :
    (encodeVarbinds oids).Returns := by
  induction oids with
  | nil => trivial
  | cons oid rest ih =>
    obtain ⟨hfirst, hrest⟩ := forall_mem_cons.mp h
    exact .bind (encodeOid_returns_iff.mpr hfirst) fun _ => (ih hrest).bind fun _ => trivial

theorem buildRequest_returns {pduTag : UInt8} (h : ∀ oid ∈ oids, Encodable (oidParts oid)) :
    (buildRequest pduTag version community reqId oids).Returns :=
  (encodeVarbinds_returns h).bind fun _ => trivial

theorem exchange_safe (size pos : Nat) : Safe (exchange net size) pos := trivial

variable (pos : Nat)

theorem exchangeTwice_safe : Safe (exchangeTwice net) pos := by
  refine (exchange_safe net 65535 pos).bind fun reply p => ?_
  split <;> trivial

theorem snmpGetAttempt_safe (version pos : Nat) :
    Safe (snmpGetAttempt lib net hint version) pos := by
  refine (safe_lift.mpr (buildRequest_returns (by decide))).bind fun pkt p => ?_
  refine (exchange_safe net 4096 p).bind fun reply q => ?_
  split
  · trivial
  · rw [safe_lift, Res.returns_attempt]
    exact parseGetResponse_returns ..

theorem snmpGetSystem_safe : Safe (snmpGetSystem lib net hint) pos := by
  unfold snmpGetSystem
  generalize [1, 1, 0, 0] = versions
  induction versions generalizing pos with
  | nil => trivial
  | cons version rest ih =>
    refine (snmpGetAttempt_safe lib net hint version pos).bind fun vars p => ?_
    cases vars with
    | some vars => trivial
    | none => exact ih p

theorem mapFields_returns_iff (i : Nat) (rd : List (String × String))
    (vars : List (Option String)) : (mapFields i rd vars).Returns ↔
      ∀ k v, vars[k]? = some (some v) → i + k < fieldNames.length := by
  induction vars generalizing i rd with
  | nil => exact iff_of_true trivial (by simp)
  | cons val rest ih =>
    have shift : (∀ k v, rest[k]? = some (some v) → i + 1 + k < fieldNames.length) ↔
        ∀ k v, (val :: rest)[k + 1]? = some (some v) → i + (k + 1) < fieldNames.length := by
      simp only [getElem?_cons_succ, Nat.add_assoc, Nat.add_comm 1]
    cases val with
    | none =>
      rw [mapFields, ih, shift]
      refine ⟨fun h k v hk => ?_, fun h k v => h (k + 1) v⟩
      cases k with
      | zero => simp at hk
      | succ k => exact h k v hk
    | some v =>
      rw [mapFields, Res.returns_bind, returns_index]
      simp only [ih, shift]
      constructor
      · rintro ⟨hi, hrest⟩ k w hk
        have hname : ∃ name, (index fieldNames i : Res Unit String) = .ok name := by
          unfold index
          rw [getElem?_eq_getElem hi]
          exact ⟨_, rfl⟩
        obtain ⟨name, hname⟩ := hname
        cases k with
        | zero => simpa using hi
        | succ k => exact hrest name hname k w hk
      · intro h
        exact ⟨by simpa using h 0 v (by simp), fun _ _ k w => h (k + 1) w⟩

theorem snmpProbe_safe_iff : Safe (snmpProbe lib net hint) pos ↔
    ∀ vars p, (snmpGetSystem lib net hint).run pos = .ok (some vars, p) →
      ∀ k v, vars[k]? = some (some v) → k < 8 := by
  unfold snmpProbe
  rw [safe_bind_of_safe (snmpGetSystem_safe lib net hint pos)]
  constructor
  · intro h vars p hrun k v hk
    have hmap := h (some vars) p hrun
    rw [safe_bind, safe_lift, mapFields_returns_iff] at hmap
    simpa [fieldNames] using hmap.1 k v hk
  · intro h vars p hrun
    cases vars with
    | none => trivial
    | some vars =>
      rw [safe_bind, safe_lift, mapFields_returns_iff]
      refine ⟨fun k v hk => ?_, fun _ _ _ => trivial⟩
      simpa [fieldNames] using h vars p hrun k v hk

/-! ## Walks -/

variable {root : String} {b : List UInt8}

theorem oidParts_of_startsWith (h : oidStartsWith oid root = true) :
    oidParts root <+: oidParts oid :=
  (List.isPrefixOf_iff_prefix.mp h).map _

theorem encodable_of_parent {ps qs : List Nat} (h : ps <+: qs) (hp : Encodable ps) :
    Encodable qs := by
  obtain ⟨more, rfl⟩ := h
  match ps, hp with
  | a :: b :: rest, hp => exact hp

section Walks

variable (hroot : Encodable (oidParts root))

include hroot

/-- Every identifier that a walk asks for lies below its root. -/
theorem walkLoop_safe (n reqId : Nat) {next : String} (hnext : Encodable (oidParts next))
    (out : List WalkVarbind) (pos : Nat) :
    Safe (walkLoop net hint root n reqId next out) pos := by
  induction n generalizing reqId next out pos with
  | zero => trivial
  | succ n ih =>
    refine (safe_lift.mpr (buildRequest_returns (by simpa using hnext))).bind fun pkt p => ?_
    refine (exchangeTwice_safe net p).bind fun reply q => ?_
    cases reply with
    | none => trivial
    | some payload =>
      refine .bind ?_ fun r s => ?_
      · rw [safe_lift, Res.returns_attempt]
        exact parseWalkResponse_returns ..
      · cases r with
        | none => trivial
        | some r =>
          simp only
          split
          · trivial
          split
          · trivial
          split
          · trivial
          · next hin =>
            have hbelow := oidParts_of_startsWith (by simpa using hin)
            exact ih _ (encodable_of_parent hbelow hroot) _ s

theorem v2cWalk_safe (pos : Nat) :
    Safe (v2cWalk net hint root) pos := walkLoop_safe net hint hroot _ _ hroot _ _

theorem walkColBytes_safe (pos : Nat) :
    Safe (walkColBytes net hint root) pos := by
  simp [walkColBytes, safe_bind, v2cWalk_safe net hint hroot]

theorem walkColInt_safe (pos : Nat) :
    Safe (walkColInt net hint root) pos := by
  simp [walkColInt, safe_bind, v2cWalk_safe net hint hroot]

end Walks

theorem routeRoots_encodable : ∀ root ∈ [oidIpRouteDest, oidIpRouteNextHop, oidIpRouteType,
    oidIpRouteProto, oidIpRouteMask, oidIpRouteIfIndex], Encodable (oidParts root) := by decide

theorem routeColumns_safe : Safe (routeColumns net hint) pos := by
  have hroots := routeRoots_encodable
  simp only [mem_cons, not_mem_nil, or_false, forall_eq_or_imp, forall_eq] at hroots
  obtain ⟨hdest, hhop, htype, hproto, hmask, hif⟩ := hroots
  refine (safe_bind_of_safe (walkColBytes_safe net hint hdest pos)).mpr fun dests p _ => ?_
  split
  · trivial
  · refine (safe_bind_of_safe (walkColBytes_safe net hint hhop p)).mpr fun hops p _ => ?_
    refine (safe_bind_of_safe (walkColInt_safe net hint htype p)).mpr fun types p _ => ?_
    refine (safe_bind_of_safe (walkColInt_safe net hint hproto p)).mpr fun protos p _ => ?_
    refine (safe_bind_of_safe (walkColBytes_safe net hint hmask p)).mpr fun masks p _ => ?_
    refine (safe_bind_of_safe (walkColInt_safe net hint hif p)).mpr fun ifIdx p _ => ?_
    trivial

/-! ## Routes -/

def dotted (os : List UInt8) : String := Text.join "." (os.map fun o => Text.decimal o.toNat)

theorem octetsToDotted_of_le (h : 4 ≤ b.length) : octetsToDotted b = .ok (dotted (b.take 4)) := by
  match b, h with
  | w :: x :: y :: z :: rest, _ => rfl

theorem dotted_inj {a : List UInt8} (ha : a ≠ []) (hb : b ≠ []) (h : dotted a = dotted b) :
    a = b := by
  have hread : ∀ os : List UInt8, os ≠ [] →
      split (dotted os) '.' = os.map fun o => decimal o.toNat := by
    intro os hne
    refine split_join (by simpa using hne) ?_
    intro t ht hdot
    obtain ⟨o, -, rfl⟩ := mem_map.mp ht
    exact absurd (isDigit_of_mem_decimal hdot) (by decide)
  have htexts := congrArg (split · '.') h
  simp only [hread a ha, hread b hb] at htexts
  refine map_injective_iff.mpr ?_ htexts
  intro x y hxy
  exact UInt8.toNat_inj.mp (decimal_inj hxy)

theorem dotted_ne_empty (h : b.length = 4) : dotted b ≠ "" := by
  obtain ⟨w, x, y, z, rfl⟩ := length_eq_four.mp h
  intro hempty
  have hchars := congrArg String.toList hempty
  rw [dotted, join, String.toList_intercalate] at hchars
  simp [intercalate_cons_cons] at hchars

/-- A row that the probe reports: an indirect route with a next hop. -/
def RouteColumns.Reported (c : RouteColumns) (key : String) : Prop :=
  c.types.lookup key ≠ some 3 ∧
    ∃ hop, c.hops.lookup key = some hop ∧ hop.length = 4 ∧ hop ≠ [0, 0, 0, 0]

theorem hopOf_cases (c : RouteColumns) (key : String) :
    ∃ hop, hopOf c key = .ok hop ∧ ((hop = "" ∨ hop = "0.0.0.0") ↔
      ¬ ∃ b, c.hops.lookup key = some b ∧ b.length = 4 ∧ b ≠ [0, 0, 0, 0]) := by
  unfold hopOf
  cases hhop : c.hops.lookup key with
  | none => exact ⟨"", rfl, by simp⟩
  | some b =>
    by_cases hlen : b.length = 4
    · have hzero : dotted b = "0.0.0.0" ↔ b = [0, 0, 0, 0] := by
        refine ⟨fun h => dotted_inj (ne_nil_of_length_pos (by omega)) (by simp) ?_, ?_⟩
        · exact h
        · rintro rfl
          rfl
      simp only [if_pos hlen, octetsToDotted_of_le hlen.ge, take_of_length_le hlen.le]
      simp [dotted_ne_empty hlen, hzero, hlen]
    · exact ⟨"", by simp [hlen], by simp [hlen]⟩

theorem routeRow_ok (h : c.Reported key → 4 ≤ dest.length) :
    ∃ row, routeRow ip c key dest = .ok row := by
  obtain ⟨hop, hhop, hiff⟩ := hopOf_cases c key
  unfold routeRow
  split
  · exact ⟨_, rfl⟩
  · next htype =>
    rw [hhop, Res.ok_bind]
    split
    · exact ⟨_, rfl⟩
    · next hempty =>
      have hlen := h ⟨htype, not_not.mp (mt hiff.mpr hempty)⟩
      rw [octetsToDotted_of_le hlen]
      exact ⟨_, rfl⟩

theorem routeRow_short {ip : String} (h : c.Reported key) (hshort : dest.length < 4) :
    ¬ (routeRow ip c key dest).Returns := by
  obtain ⟨hop, hhop, hiff⟩ := hopOf_cases c key
  have hne : ¬ (hop = "" ∨ hop = "0.0.0.0") := fun hempty => hiff.mp hempty h.2
  unfold routeRow
  rw [if_neg h.1, hhop, Res.ok_bind, if_neg hne, Res.returns_bind, octetsToDotted_returns_iff]
  omega

theorem routeRows_returns_iff (c : RouteColumns) (es : List (String × List UInt8)) :
    (routeRows ip c es).Returns ↔ ∀ e ∈ es, c.Reported e.1 → 4 ≤ e.2.length := by
  induction es with
  | nil => exact iff_of_true trivial (by simp)
  | cons e rest ih =>
    obtain ⟨key, dest⟩ := e
    unfold routeRows
    rw [Res.returns_bind, forall_mem_cons, ← ih]
    constructor
    · rintro ⟨hrow, hrest⟩
      have hfirst : c.Reported key → 4 ≤ dest.length := by
        intro hkey
        by_contra hshort
        exact routeRow_short hkey (by omega) hrow
      obtain ⟨row, hok⟩ := routeRow_ok ip hfirst
      exact ⟨hfirst, (Res.returns_bind.mp (hrest row hok)).1⟩
    · rintro ⟨hfirst, hrest⟩
      obtain ⟨row, hok⟩ := routeRow_ok ip hfirst
      rw [hok]
      exact ⟨trivial, fun _ _ => hrest.bind fun _ => trivial⟩

/-- Whatever comes back, the system probe returns exactly when the first response that it accepts
has no value behind the eighth, and the route probe exactly when no route that it reports has a
destination of less than four octets. -/
theorem probes_return_iff :
    (((snmpProbe lib net hint).run 0).Returns ↔
      ∀ vars p, (snmpGetSystem lib net hint).run 0 = .ok (some vars, p) →
        ∀ k v, vars[k]? = some (some v) → k < 8) ∧
    (((routeMibProbe lib net hint).run 0).Returns ↔
      ∀ c p, (routeColumns net hint).run 0 = .ok (c, p) →
        ∀ e ∈ c.dests, c.Reported e.1 → 4 ≤ e.2.length) := by
  refine ⟨snmpProbe_safe_iff lib net hint 0, ?_⟩
  show Safe (routeMibProbe lib net hint) 0 ↔ _
  unfold routeMibProbe
  rw [safe_bind_of_safe (routeColumns_safe net hint 0)]
  simp only [safe_lift, routeRows_returns_iff, (lib.order_perm _).mem_iff]

/-! ## Hostile replies -/

def asciiLibrary : Library where
  lossy bytes := String.ofList (bytes.map fun b => Char.ofNat b.toNat)
  seconds := some
  order := id
  order_perm es := .refl es

/-- A response to a request with these varbinds. -/
def response (reqId : Nat) (status : UInt8) (varbinds : List (List UInt8)) : List UInt8 :=
  berTlv 0x30 (berTlv 0x02 [1] ++ berTlv 0x04 [] ++
    berTlv 0xA2 (berTlv 0x02 (minimalUint reqId) ++ berTlv 0x02 [status] ++ berTlv 0x02 [0] ++
      berTlv 0x30 (varbinds.flatMap (berTlv 0x30))))

def sampleHint : Hint := ⟨"192.0.2.1", 1, []⟩

/-- Nine varbinds where eight were asked for. -/
def nineVarbinds : Net := fun _ =>
  some (response 7919 0 (List.replicate 9 (berTlv 0x06 [43, 6] ++ berTlv 0x02 [1])))

/-- One route to a destination of three octets. -/
def shortDestination : Net := fun i =>
  match i with
  | 0 => some (response 104729 0
      [berTlv 0x06 [43, 6, 1, 2, 1, 4, 21, 1, 1, 9] ++ berTlv 0x40 [10, 0, 0]])
  | 2 => some (response 104729 0
      [berTlv 0x06 [43, 6, 1, 2, 1, 4, 21, 1, 7, 9] ++ berTlv 0x40 [192, 0, 2, 254]])
  | 1 | 3 => some (response 104730 2 [])
  | _ => none

theorem probes_panic :
    (snmpProbe asciiLibrary nineVarbinds sampleHint).run 0 = .panic .outOfRange ∧
      (routeMibProbe asciiLibrary shortDestination sampleHint).run 0 = .panic .outOfRange := by
  decide +kernel

end Steward.Snmp
