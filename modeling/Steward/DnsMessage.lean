import Steward.Fallible

/-!
# DNS messages

The agent's DNS reader: a header, questions and resource records, names with
compression pointers. Counts, lengths and pointers come from the packet. The
conversion of label bytes to text is the standard library's and a parameter.
-/

namespace Steward.Dns

open Fallible Scan

inductive DnsError
  | truncated (pos : Nat)
  | compressionLoop
  | doublePointer
  | labelOverruns (pos : Nat)
  | rdataOverrun (rtype : Nat)
  deriving DecidableEq, Repr

inductive RData
  | ptr (name : String)
  | cname (name : String)
  | a (octets : List UInt8)
  | aaaa (octets : List UInt8)
  | txt (strs : List String)
  | srv (prio weight port : Nat) (target : String)
  | other (rtype : Nat)
  deriving DecidableEq, Repr

structure RR where
  name : String
  rtype : Nat
  rdata : RData
  deriving DecidableEq, Repr

structure Message where
  id : Nat
  rcode : Nat
  answers : List RR
  additional : List RR
  deriving DecidableEq, Repr

/-! ## The reader -/

section Reader

variable (buf : List UInt8)

def u8 : Scan DnsError UInt8 := fun pos =>
  match buf[pos]? with
  | some b => .ok (b, pos + 1)
  | none => .err (.truncated pos)

def u16 : Scan DnsError Nat := do
  let hi ← u8 buf
  let lo ← u8 buf
  pure (hi.toNat * 256 + lo.toNat)

def u32 : Scan DnsError Nat := do
  let a ← u16 buf
  let b ← u16 buf
  pure (a * 65536 + b)

def octets : Nat → Scan DnsError (List UInt8)
  | 0 => pure []
  | n + 1 => do
    let b ← u8 buf
    let rest ← octets n
    pure (b :: rest)

variable (lossy : List UInt8 → String)

/-- The loop over the labels of a name. Behind a pointer it knows where to return to. -/
def labelLoop : Nat → List String → Option Nat → Scan DnsError String
  | 0, _, _ => fun _ => .spin
  | fuel + 1, labels, back => do
    let len ← u8 buf
    if len = 0 then
      match back with
      | some p => set p
      | none => pure ()
      pure (".".intercalate labels)
    else if 0xC0 ≤ len then
      match back with
      | some _ => fail .doublePointer
      | none => do
        let low ← u8 buf
        let here ← get
        set ((len.toNat % 64) * 256 + low.toNat)
        labelLoop fuel labels (some here)
    else do
      let pos ← get
      if pos + len.toNat > buf.length then fail (.labelOverruns pos)
      else do
        let label ← lift (slice buf pos (pos + len.toNat))
        set (pos + len.toNat)
        labelLoop fuel (labels ++ [lossy label]) back

def name (depth : Nat) : Scan DnsError String :=
  if depth > 8 then fail .compressionLoop else labelLoop buf lossy (2 * buf.length + 2) [] none

/-! ## Records -/

/-- The strings of a TXT record, up to its end. -/
def txtLoop (stop : Nat) : Nat → List String → Scan DnsError (List String)
  | 0, _ => fun _ => .spin
  | fuel + 1, strs => do
    let pos ← get
    if pos < stop then do
      let n ← u8 buf
      let start ← get
      let s ← lift (slice buf start (min (start + n.toNat) stop))
      set (min (start + n.toNat) stop)
      txtLoop stop fuel (strs ++ [lossy s])
    else pure strs

structure RecordHead where
  name : String
  rtype : Nat
  rdlen : Nat

def recordHead : Scan DnsError RecordHead := do
  let name ← name buf lossy 0
  let rtype ← u16 buf
  let _class ← u16 buf
  let _ttl ← u32 buf
  let rdlen ← u16 buf
  pure ⟨name, rtype, rdlen⟩

def rdata (rtype rdlen start : Nat) : Scan DnsError RData :=
  if rtype = 12 then do pure (.ptr (← name buf lossy 1))
  else if rtype = 5 then do pure (.cname (← name buf lossy 1))
  else if rtype = 1 ∧ rdlen = 4 then do pure (.a (← octets buf 4))
  else if rtype = 28 ∧ rdlen = 16 then do pure (.aaaa (← octets buf 16))
  else if rtype = 16 then do pure (.txt (← txtLoop buf lossy (start + rdlen) (rdlen + 1) []))
  else if rtype = 33 then do
    let prio ← u16 buf
    let weight ← u16 buf
    let port ← u16 buf
    let target ← name buf lossy 1
    pure (.srv prio weight port target)
  else pure (.other rtype)

def record : Scan DnsError RR := do
  let head ← recordHead buf lossy
  let start ← get
  let data ← rdata buf lossy head.rtype head.rdlen start
  let pos ← get
  if pos > start + head.rdlen then fail (.rdataOverrun head.rtype)
  else do
    set (start + head.rdlen)
    pure ⟨head.name, head.rtype, data⟩

def question : Scan DnsError Unit := do
  let _name ← name buf lossy 0
  let _qtype ← u16 buf
  let _qclass ← u16 buf

def questions : Nat → Scan DnsError Unit
  | 0 => pure ()
  | n + 1 => do
    question buf lossy
    questions n

structure Header where
  id : Nat
  flags : Nat
  qdcount : Nat
  ancount : Nat
  nscount : Nat
  arcount : Nat

def header : Scan DnsError Header := do
  let id ← u16 buf
  let flags ← u16 buf
  let qdcount ← u16 buf
  let ancount ← u16 buf
  let nscount ← u16 buf
  let arcount ← u16 buf
  pure ⟨id, flags, qdcount, ancount, nscount, arcount⟩

/-- All that stands before the records. -/
def preamble : Scan DnsError Header := do
  let h ← header buf
  questions buf lossy h.qdcount
  pure h

/-- Records from number `i` on; those behind the answers are additional ones. -/
def records (ancount : Nat) : Nat → Nat → Message → Scan DnsError Message
  | 0, _, msg => pure msg
  | n + 1, i, msg => do
    let rr ← record buf lossy
    records ancount n (i + 1)
      (if i < ancount then { msg with answers := msg.answers ++ [rr] }
        else { msg with additional := msg.additional ++ [rr] })

def message : Scan DnsError Message := do
  let h ← preamble buf lossy
  let sum ← lift (checkedAdd 16 h.ancount h.nscount)
  let total ← lift (checkedAdd 16 sum h.arcount)
  records buf lossy h.ancount total 0 ⟨h.id, h.flags % 16, [], []⟩

def parseMessage : Res DnsError Message := do
  let (msg, _) ← (message buf lossy).run 0
  pure msg

end Reader

/-! ## Where the reader returns -/

section Returns

variable (buf : List UInt8) (lossy : List UInt8 → String) (pos : Nat)

theorem u8_safe : Safe (u8 buf) pos := by
  unfold Safe u8
  rw [StateT.run]
  split <;> trivial

theorem u8_ok {pos p : Nat} {b : UInt8} :
    (u8 buf).run pos = .ok (b, p) ↔ buf[pos]? = some b ∧ p = pos + 1 := by
  unfold u8
  rw [StateT.run]
  cases buf[pos]? with
  | none => simp
  | some c => simp [eq_comm]

theorem u16_safe : Safe (u16 buf) pos := by
  simp [u16, safe_bind, u8_safe]

theorem u32_safe : Safe (u32 buf) pos := by
  simp [u32, safe_bind, u16_safe]

theorem octets_safe (n pos : Nat) : Safe (octets buf n) pos := by
  induction n generalizing pos with
  | zero => exact safe_pure ..
  | succ n ih => simp [octets, safe_bind, u8_safe, ih]

/-- How many rounds the loop over labels can still make. -/
def rounds (back : Option Nat) (pos : Nat) : Nat :=
  (if back.isNone then buf.length + 1 else 0) + (buf.length - pos)

theorem labelLoop_safe (fuel : Nat) (labels : List String) (back : Option Nat) (pos : Nat)
    (h : rounds buf back pos < fuel) : Safe (labelLoop buf lossy fuel labels back) pos := by
  induction fuel generalizing labels back pos with
  | zero => omega
  | succ fuel ih =>
    unfold labelLoop
    rw [safe_bind_of_safe (u8_safe buf pos)]
    intro len p hlen
    obtain ⟨hbyte, rfl⟩ := (u8_ok buf).mp hlen
    unfold rounds at h
    split
    · cases back <;> trivial
    split
    · cases back with
      | some q => trivial
      | none =>
        rw [safe_bind_of_safe (u8_safe buf (pos + 1))]
        intro low q _
        -- the one jump leaves the rounds that a whole packet can take
        refine ih labels (some q) _ ?_
        simp only [rounds, Option.isNone_none, Option.isNone_some] at h ⊢
        simp only [if_true, Bool.false_eq_true, if_false] at h ⊢
        omega
    · rw [safe_get_bind]
      split
      · trivial
      · next hend =>
        rw [slice_within (by omega) (by omega), safe_lift_ok_bind, safe_set_bind]
        refine ih _ back _ ?_
        unfold rounds
        omega

theorem name_safe (depth pos : Nat) : Safe (name buf lossy depth) pos := by
  unfold name
  split
  · trivial
  · refine labelLoop_safe buf lossy _ [] none pos ?_
    simp only [rounds, Option.isNone_none, if_true]
    omega

/-- The strings of a TXT record that ends at `stop`: one starts here, or behind the first. -/
inductive StringAt (stop : Nat) : Nat → Nat → Prop
  | here (p : Nat) : StringAt stop p p
  | next {p q : Nat} {n : UInt8} (hp : p < stop) (hn : buf[p]? = some n)
      (rest : StringAt stop (min (p + 1 + n.toNat) stop) q) : StringAt stop p q

/-- The string that starts here runs past the end of the packet. -/
def StringOverruns (stop p : Nat) : Prop :=
  p < stop ∧ ∃ n, buf[p]? = some n ∧ buf.length < min (p + 1 + n.toNat) stop

theorem txtLoop_safe_iff (stop fuel : Nat) (strs : List String) (pos : Nat)
    (h : stop - pos < fuel) : Safe (txtLoop buf lossy stop fuel strs) pos ↔
      ∀ q, StringAt buf stop pos q → ¬ StringOverruns buf stop q := by
  induction fuel generalizing strs pos with
  | zero => omega
  | succ fuel ih =>
    unfold txtLoop
    rw [safe_get_bind]
    by_cases hpos : pos < stop
    · rw [if_pos hpos, safe_bind_of_safe (u8_safe buf pos)]
      simp only [u8_ok, safe_get_bind]
      constructor
      · intro hsafe q hq
        cases hq with
        | here =>
          rintro ⟨-, n, hn, hover⟩
          have hstep := hsafe n (pos + 1) ⟨hn, rfl⟩
          rw [slice, if_neg (by omega)] at hstep
          exact not_safe_lift_panic_bind hstep
        | @next _ _ n _ hn rest =>
          have hstep := hsafe n (pos + 1) ⟨hn, rfl⟩
          by_cases hwithin : min (pos + 1 + n.toNat) stop ≤ buf.length
          · rw [slice_within (by omega) hwithin, safe_lift_ok_bind, safe_set_bind,
              ih _ _ (by omega)] at hstep
            exact hstep q rest
          · rw [slice, if_neg (by omega)] at hstep
            exact absurd hstep not_safe_lift_panic_bind
      · rintro hall n p ⟨hn, rfl⟩
        have hwithin : min (pos + 1 + n.toNat) stop ≤ buf.length := by
          by_contra hover
          exact hall pos (.here pos) ⟨hpos, n, hn, by omega⟩
        rw [slice_within (by omega) hwithin, safe_lift_ok_bind, safe_set_bind, ih _ _ (by omega)]
        exact fun q rest => hall q (.next hpos hn rest)
    · rw [if_neg hpos, iff_true_left (safe_pure ..)]
      intro q hq
      cases hq with
      | here => exact fun hover => hpos hover.1
      | next hp => exact absurd hp hpos

/-- The record here is a TXT record with a string that runs past the end of the packet. -/
def TxtOverruns (pos : Nat) : Prop :=
  ∃ head start, (recordHead buf lossy).run pos = .ok (head, start) ∧ head.rtype = 16 ∧
    ∃ q, StringAt buf (start + head.rdlen) start q ∧ StringOverruns buf (start + head.rdlen) q

theorem recordHead_safe : Safe (recordHead buf lossy) pos := by
  simp [recordHead, safe_bind, name_safe, u16_safe, u32_safe]

theorem rdata_safe_iff (rtype rdlen start : Nat) : Safe (rdata buf lossy rtype rdlen start) start ↔
    (rtype = 16 → ∀ q, StringAt buf (start + rdlen) start q →
      ¬ StringOverruns buf (start + rdlen) q) := by
  by_cases htxt : rtype = 16
  · subst htxt
    have hloop := txtLoop_safe_iff buf lossy (start + rdlen) (rdlen + 1) [] start (by omega)
    simp [rdata, safe_bind, hloop]
  · refine iff_of_true ?_ (fun h => absurd h htxt)
    unfold rdata
    split_ifs <;> simp [safe_bind, name_safe, octets_safe, u16_safe]

theorem record_safe_iff : Safe (record buf lossy) pos ↔ ¬ TxtOverruns buf lossy pos := by
  unfold record
  rw [safe_bind_of_safe (recordHead_safe buf lossy pos)]
  simp only [safe_get_bind, TxtOverruns, not_exists, not_and]
  refine forall_congr' fun head => forall_congr' fun start => imp_congr_right fun _ => ?_
  rw [safe_bind, rdata_safe_iff]
  refine and_iff_left ?_
  intro data p _
  rw [safe_get_bind]
  split
  · exact safe_fail ..
  · exact safe_set_bind.mpr (safe_pure ..)

/-- The record behind the first `k` from here on starts at this position. -/
inductive RecordAt : Nat → Nat → Nat → Prop
  | here (p : Nat) : RecordAt 0 p p
  | next {k p p' q : Nat} {rr : RR} (hrr : (record buf lossy).run p = .ok (rr, p'))
      (rest : RecordAt k p' q) : RecordAt (k + 1) p q

theorem records_safe_iff (ancount n i : Nat) (msg : Message) (pos : Nat) :
    Safe (records buf lossy ancount n i msg) pos ↔
      ∀ k < n, ∀ q, RecordAt buf lossy k pos q → ¬ TxtOverruns buf lossy q := by
  induction n generalizing i msg pos with
  | zero => exact iff_of_true (safe_pure ..) (by simp)
  | succ n ih =>
    unfold records
    rw [safe_bind, record_safe_iff]
    simp only [ih]
    constructor
    · rintro ⟨hfirst, hrest⟩ k hk q hq
      cases hq with
      | here => exact hfirst
      | next hrr rest => exact hrest _ _ hrr _ (by omega) q rest
    · intro hall
      refine ⟨hall 0 (by omega) pos (.here pos), ?_⟩
      intro rr p hrr k hk q hq
      exact hall (k + 1) (by omega) q (.next hrr hq)

theorem questions_safe (n pos : Nat) : Safe (questions buf lossy n) pos := by
  induction n generalizing pos with
  | zero => exact safe_pure ..
  | succ n ih => simp [questions, question, safe_bind, name_safe, u16_safe, ih]

theorem preamble_safe : Safe (preamble buf lossy) pos := by
  simp [preamble, header, safe_bind, u16_safe, questions_safe]

/-- The reader returns on a packet exactly when the counts of its records add up to 16 bits and
no TXT record that it reaches has a string which runs past the end of the packet. -/
theorem parse_returns_iff : (parseMessage buf lossy).Returns ↔
    ∀ h p, (preamble buf lossy).run 0 = .ok (h, p) →
      h.ancount + h.nscount + h.arcount < 2 ^ 16 ∧
        ∀ k < h.ancount + h.nscount + h.arcount, ∀ q, RecordAt buf lossy k p q →
          ¬ TxtOverruns buf lossy q := by
  have hsafe : (parseMessage buf lossy).Returns ↔ Safe (message buf lossy) 0 := by
    unfold parseMessage Safe
    rw [Res.returns_bind]
    exact and_iff_left fun _ _ => trivial
  rw [hsafe, message, safe_bind_of_safe (preamble_safe buf lossy 0)]
  refine forall_congr' fun h => forall_congr' fun p => imp_congr_right fun _ => ?_
  unfold checkedAdd
  by_cases hsum : h.ancount + h.nscount < 2 ^ 16
  · rw [if_pos hsum, safe_lift_ok_bind]
    by_cases htotal : h.ancount + h.nscount + h.arcount < 2 ^ 16
    · rw [if_pos htotal, safe_lift_ok_bind, records_safe_iff, and_iff_right htotal]
    · rw [if_neg htotal]
      exact iff_of_false not_safe_lift_panic_bind fun hall => htotal hall.1
  · rw [if_neg hsum]
    exact iff_of_false not_safe_lift_panic_bind fun hall => hsum (by omega)

end Returns

/-- An answer with one TXT record of 64 bytes whose only string is cut off. -/
def cutTxt : List UInt8 :=
  [0, 7, 0x84, 0, 0, 0, 0, 1, 0, 0, 0, 0, 0, 0, 16, 0, 1, 0, 0, 0, 120, 0, 64, 32]

/-- A header that announces 65535 answers and one authority record. -/
def manyRecords : List UInt8 := [0, 7, 0x84, 0, 0, 0, 255, 255, 0, 1, 0, 0]

def asciiText (bytes : List UInt8) : String :=
  String.ofList (bytes.map fun b => Char.ofNat b.toNat)

theorem packets_panic : parseMessage cutTxt asciiText = .panic .outOfRange ∧
    parseMessage manyRecords asciiText = .panic .overflow := by
  decide

end Steward.Dns
