import Steward.AgentTargets

/-!
# Center and agent on the same targets

For a target list that the center expands, the agent arrives at the same addresses
exactly when every part keeps to the limits the two share.
-/

namespace Steward.AgentTargets

open Fallible Targets Blocks Text Res List

/-! ## Lists of addresses -/

variable {x : BitVec 32}

theorem mem_interval {first last : Nat} (hlast : last < 2 ^ 32) :
    x ∈ interval first last ↔ first ≤ x.toNat ∧ x.toNat ≤ last := by
  unfold interval
  rw [mem_map]
  constructor
  · rintro ⟨n, hn, rfl⟩
    rw [mem_range'_1] at hn
    rw [BitVec.toNat_ofNat, Nat.mod_eq_of_lt (by omega)]
    omega
  · rintro ⟨hlow, hhigh⟩
    refine ⟨x.toNat, ?_, by simp⟩
    rw [mem_range'_1]
    omega

@[simp] theorem mem_dedup {xs : List (BitVec 32)} : x ∈ dedup xs ↔ x ∈ xs := by
  fun_induction dedup xs with
  | case1 => rfl
  | case2 => rfl
  | case3 a rest ih =>
    rw [ih]
    simp
  | case4 a b rest hne ih => simp only [mem_cons, ih]

theorem isReserved_iff (ip : BitVec 32) : isReserved ip = true ↔ Reserved4 ip.toNat := by
  simp only [isReserved, Reserved4, Bool.or_eq_true, Bool.and_eq_true, decide_eq_true_eq]
  omega

section Push

variable {allow : Bool} {part : String} {ips : List (BitVec 32)}

/-- What may be pushed. -/
def Allowed (allow : Bool) (ip : BitVec 32) : Prop := allow = true ∨ ¬ Reserved4 ip.toNat

theorem pushIfAllowed_ok {ip : BitVec 32} (h : Allowed allow ip) :
    pushIfAllowed allow part ip = .ok [ip] := by
  refine if_neg fun hboth => ?_
  rw [Bool.and_eq_true, isReserved_iff, Bool.not_eq_true'] at hboth
  rcases h with rfl | h
  · cases hboth.2
  · exact h hboth.1

theorem pushEach_ok (h : ∀ ip ∈ ips, Allowed allow ip) :
    pushEach allow part ips = .ok ips := by
  induction ips with
  | nil => rfl
  | cons ip rest ih =>
    rw [pushEach, pushIfAllowed_ok (h ip (by simp)), ih fun q hq => h q (by simp [hq])]
    rfl

theorem countUp_ok {last : Nat} (hlast : last + 1 < 2 ^ 32) (fuel : Nat) {n : Nat}
    (hfuel : last + 1 - n < fuel) (h : ∀ ip ∈ interval n last, Allowed allow ip) :
    countUp allow part last fuel n = .ok (interval n last) := by
  induction fuel generalizing n with
  | zero => omega
  | succ fuel ih =>
    unfold countUp
    by_cases hle : n ≤ last
    · have hsplit : interval n last = BitVec.ofNat 32 n :: interval (n + 1) last := by
        unfold interval
        rw [show last + 1 - n = last + 1 - (n + 1) + 1 by omega, range'_succ, map_cons]
      rw [if_pos hle, pushIfAllowed_ok (h _ (by simp [hsplit])), ok_bind,
        checkedAdd_fits (by omega), ok_bind,
        ih (by omega) fun ip hip => h ip (by simp [hsplit, hip]), hsplit]
      rfl
    · rw [if_neg hle, interval, show last + 1 - n = 0 by omega]
      rfl

theorem countUp_top (fuel n : Nat) (hn : n ≤ 0xffffffff) (out : List (BitVec 32)) :
    countUp allow part 0xffffffff fuel n ≠ .ok out := by
  induction fuel generalizing n out with
  | zero => simp [countUp]
  | succ fuel ih =>
    unfold countUp
    rw [if_pos hn]
    intro hok
    obtain ⟨first, -, hok⟩ := bind_eq_ok.mp hok
    obtain ⟨next, hnext, hok⟩ := bind_eq_ok.mp hok
    obtain ⟨more, hmore, -⟩ := bind_eq_ok.mp hok
    unfold checkedAdd at hnext
    split at hnext
    · cases hnext
      exact ih (n + 1) (by omega) more hmore
    · cases hnext

end Push

/-! ## Blocks -/

section Nets

variable {net : Masked 32} {ips : List IP}

theorem last_lt (net : Masked 32) : net.block.last < 2 ^ 32 := by
  have hend := IPNet.Masked.base_add_le net
  change net.base.toNat + 2 ^ (32 - net.ones) - 1 < 2 ^ 32
  omega

theorem small_count (h : 31 ≤ net.ones) : net.block.last + 1 - net.base.toNat < 3 := by
  have hsize : 2 ^ (32 - net.ones) ≤ 2 ^ 1 := Nat.pow_le_pow_right (by decide) (by omega)
  change net.base.toNat + 2 ^ (32 - net.ones) - 1 + 1 - net.base.toNat < 3
  omega

theorem addresses_eq (net : Masked 32) :
    (range (2 ^ (32 - net.ones))).map (fun i => IP.incIP^[i] (IPNet.four net).base) =
      (interval net.base.toNat net.block.last).map IP.four := by
  have hcount : net.block.last + 1 - net.base.toNat = 2 ^ (32 - net.ones) := by
    have hpos : 0 < 2 ^ (32 - net.ones) := Nat.two_pow_pos _
    change net.base.toNat + 2 ^ (32 - net.ones) - 1 + 1 - net.base.toNat = _
    omega
  rw [interval, hcount, range'_eq_map_range, map_map, map_map]
  refine map_congr_left fun i _ => ?_
  have hat := IPNet.address_four net i
  rw [IPNet.address] at hat
  rw [hat, Function.comp_apply, Function.comp_apply, BitVec.ofNat_add, BitVec.ofNat_toNat,
    BitVec.setWidth_eq]

theorem interval_trim {first last : Nat} (h : first < last) :
    (interval first last).tail.dropLast = interval (first + 1) (last - 1) := by
  obtain ⟨m, rfl⟩ : ∃ m, last = first + m + 1 := ⟨last - first - 1, by omega⟩
  unfold interval
  rw [show first + m + 1 + 1 - first = m + 1 + 1 by omega, range'_succ, map_cons,
    tail_cons, range'_concat, map_append, map_singleton, dropLast_concat,
    show first + m + 1 - 1 + 1 - (first + 1) = m by omega]

/-- The center's hosts of a block are the agent's. -/
theorem enumerateCIDR_eq (h : enumerateCIDR (.four net) = some ips) :
    ips = (usable net).map IP.four := by
  have hones : 0 < net.ones := by
    have hsome := (IPNet.enumerateCIDR_returns (.four net)).mp ⟨ips, h⟩
    exact Nat.pos_of_ne_zero hsome
  unfold enumerateCIDR at h
  split at h
  · next hsingle =>
    have hfull : net.ones = 32 := hsingle
    cases h
    have hlast : net.block.last = net.base.toNat := by
      change net.base.toNat + 2 ^ (32 - net.ones) - 1 = _
      rw [hfull]
      rfl
    rw [usable, if_neg (by omega), hlast, interval, Nat.add_sub_cancel_left]
    simp [IPNet.base]
  · have hstops : Stops (IPNet.four net).contains IP.incIP (IPNet.four net).base
        (2 ^ (32 - net.ones)) := by
      refine ⟨fun i hi => ?_, IPNet.fails_four hones⟩
      exact IPNet.contains_address (by rwa [(IPNet.block_four net).2]) (fun hv6 => by cases hv6)
    have hfuel : 2 ^ (32 - net.ones) < 2 ^ (IPNet.four net).bits + 1 :=
      Nat.lt_succ_of_le (Nat.pow_le_pow_right (by decide) (Nat.sub_le ..))
    rw [collectWhile_of_stops hstops hfuel, Option.map_some, addresses_eq] at h
    obtain rfl := Option.some.inj h
    by_cases hsmall : net.ones < 31
    · have hwide : net.base.toNat < net.block.last := by
        have hsize : 2 ^ 2 ≤ 2 ^ (32 - net.ones) := Nat.pow_le_pow_right (by decide) (by omega)
        change _ < net.base.toNat + 2 ^ (32 - net.ones) - 1
        omega
      rw [if_pos ⟨rfl, hsmall⟩, usable, if_pos hsmall, ← interval_trim hwide, map_dropLast,
        map_tail]
    · rw [if_neg fun hboth => hsmall hboth.2, usable, if_neg hsmall]

/-- A block within the limits is expanded by the agent. -/
def NetShared (net : Masked 32) : Prop :=
  16 ≤ net.ones ∧ (net.ones < 31 ∨ net.block.last ≠ 0xffffffff)

instance (net : Masked 32) : Decidable (NetShared net) := inferInstanceAs (Decidable (_ ∧ _))

variable {lib : Ipv4NetLib} {allow : Bool} {part : String}

/-- A small block whose ends are free has no reserved host. -/
theorem usable_allowed (hfree : allow = false → (IPNet.four net).EndsFree) (hones : 16 ≤ net.ones)
    (h : enumerateCIDR (.four net) = some ips) : ∀ ip ∈ usable net, Allowed allow ip := by
  cases allow with
  | true => exact fun _ _ => .inl rfl
  | false =>
    have hends := hfree rfl
    have hcover : ¬ (IPNet.four net).CoversLinkLocal := by
      rw [IPNet.coversLinkLocal_iff]
      intro hmem
      have hin : linkLocal4 ∈ Block.ofPrefix 0xa9fe 16 := Block.mem_ofPrefix.mpr (by decide)
      have hbits : (IPNet.four net).block.bits ≤ (Block.ofPrefix 0xa9fe 16).bits := by
        change 32 - net.ones ≤ 16
        omega
      have hbase := Block.nested hmem hin hbits (Block.base_mem _)
      exact (IPNet.ends_not_reserved hends).1 (.inr (.inr (.inl (Block.mem_ofPrefix.mp hbase))))
    have hclean := (IPNet.cidr_unreserved_iff hends h).mpr hcover
    rw [enumerateCIDR_eq h] at hclean
    exact fun ip hip => .inr (not_reserved4 (hclean _ (mem_map_of_mem hip)))

theorem expandNet_ok (hlib : lib.Laws) (part : String) (hshared : NetShared net)
    (hallowed : ∀ ip ∈ usable net, Allowed allow ip) :
    ∃ out, expandNet lib allow part net = .ok out ∧ ∀ x, x ∈ out ↔ x ∈ usable net := by
  obtain ⟨hones, htop⟩ := hshared
  unfold expandNet
  rw [if_neg (by omega), hlib.hosts_eq, pushEach_ok hallowed, ok_bind]
  by_cases hsmall : net.ones ≥ 31
  · have hlast := last_lt net
    have hall : usable net = interval net.base.toNat net.block.last := if_neg (by omega)
    rw [if_pos hsmall, countUp_ok (by omega) 3 (small_count hsmall) (hall ▸ hallowed), ← hall]
    exact ⟨_, rfl, fun x => by simp⟩
  · rw [if_neg hsmall]
    exact ⟨_, rfl, fun x => Iff.rfl⟩

theorem expandNet_not_ok (hshared : ¬ NetShared net) (out : List (BitVec 32)) :
    expandNet lib allow part net ≠ .ok out := by
  unfold expandNet
  split
  · simp
  · next hones =>
    intro hok
    obtain ⟨inner, -, hok⟩ := bind_eq_ok.mp hok
    by_cases hsmall : net.ones ≥ 31
    · rw [if_pos hsmall] at hok
      obtain ⟨all, hall, -⟩ := bind_eq_ok.mp hok
      have hlast : net.block.last = 0xffffffff := by
        by_contra hne
        exact hshared ⟨by omega, .inr hne⟩
      rw [hlast] at hall
      exact countUp_top _ _ (by omega) _ hall
    · exact hshared ⟨by omega, .inl (by omega)⟩

end Nets

/-! ## Ranges -/

section Ranges

variable {first last : BitVec 32} {allow : Bool} {part : String}

theorem mem_enumerateRange {ips : List IP} (h : enumerateRange first last = .ok ips)
    (hle : first.toNat ≤ last.toNat) :
    ∀ ip, ip ∈ ips ↔ ∃ x ∈ interval first.toNat last.toNat, ip = .four x := by
  rw [enumerateRange_eq hle] at h
  split at h
  · cases h
  · cases h
    intro ip
    rw [interval, show last.toNat + 1 - first.toNat = last.toNat - first.toNat + 1 by omega]
    simp [eq_comm]

/-- A range within the limits is expanded by the agent. -/
def RangeShared (first last : BitVec 32) : Prop :=
  first.toNat ≤ last.toNat ∧ last.toNat - first.toNat ≤ maxSpan

instance : Decidable (RangeShared first last) := inferInstanceAs (Decidable (_ ∧ _))

theorem expandRange_ok (hshared : RangeShared first last)
    (hallowed : ∀ ip ∈ interval first.toNat last.toNat, Allowed allow ip) :
    expandRange allow part first last = .ok (interval first.toNat last.toNat) := by
  obtain ⟨hle, hspan⟩ := hshared
  rw [expandRange, if_neg (by omega), if_neg (by omega), pushEach_ok hallowed]

theorem expandRange_not_ok (hshared : ¬ RangeShared first last) (out : List (BitVec 32)) :
    expandRange allow part first last ≠ .ok out := by
  unfold expandRange
  split
  · simp
  · split
    · simp
    · exact absurd ⟨by omega, by omega⟩ hshared

theorem interval_allowed (hspan : last.toNat - first.toNat ≤ maxSpan)
    (hfree : allow = false → reservedClass (.four first) = none ∧
      reservedClass (.four last) = none) :
    ∀ ip ∈ interval first.toNat last.toNat, Allowed allow ip := by
  cases allow with
  | true => exact fun _ _ => .inl rfl
  | false =>
    intro ip hip
    obtain ⟨hlow, hhigh⟩ := (mem_interval last.isLt).mp hip
    obtain ⟨hfirst, hlast⟩ := hfree rfl
    have hcount : last.toNat - first.toNat < maxRangeIPs :=
      Nat.lt_of_le_of_lt hspan (by decide)
    exact .inr (range_unreserved (not_reserved4 hfirst) (not_reserved4 hlast) hcount hlow hhigh)

end Ranges

/-! ## Texts -/

section Texts

variable {s t : String} {v : Nat}

theorem octet_digits (h : octet t = some v) : ∀ c ∈ t.toList, c.isDigit = true := by
  unfold octet at h
  split at h
  · cases h
  · exact isDigit_of_digits (Option.filter_eq_some_iff.mp h).1

variable {ip : BitVec 32}

theorem parseIPv4_chars (h : parseIPv4 s = some ip) :
    ∀ c ∈ s.toList, c = '.' ∨ c.isDigit = true := by
  intro c hc
  rcases mem_splitChars hc with hdot | ⟨p, hp, hcp⟩
  · exact .inl hdot
  have hmem : octet (String.ofList p) ∈ (split s '.').map octet :=
    mem_map_of_mem (mem_map_of_mem hp)
  obtain ⟨v, hv⟩ : ∃ v, octet (String.ofList p) = some v := by
    unfold parseIPv4 at h
    split at h
    · next hmap =>
      rw [hmap] at hmem
      simp only [mem_cons, not_mem_nil, or_false] at hmem
      rcases hmem with hv | hv | hv | hv <;> exact ⟨_, hv⟩
    · cases h
  exact .inr (octet_digits hv c (by rwa [String.toList_ofList]))

theorem parseIPv4Net_some {net : IPNet} (h : parseIPv4Net s = some net) :
    ∃ n, net = .four n ∧ '/' ∈ s.toList ∧ '-' ∉ s.toList := by
  unfold parseIPv4Net at h
  rcases span_char '/' s.toList with ⟨-, hspan⟩ | ⟨address, ones, hchars, -, hspan⟩
  · simp only [hspan] at h
    cases h
  simp only [hspan] at h
  split at h
  · next ip n hip hones =>
    split at h
    · cases h
      refine ⟨_, rfl, by simp [hchars], ?_⟩
      rw [hchars, mem_append, mem_cons, not_or, not_or]
      refine ⟨fun hdash => ?_, by decide, fun hdash => ?_⟩
      · have hclass := parseIPv4_chars hip '-' (by rwa [String.toList_ofList])
        exact absurd hclass (by decide)
      · exact absurd (isDigit_of_digits hones '-' hdash) (by decide)
    · cases h
  · cases h

theorem splitRange_none (h : '-' ∉ s.toList) : splitRange s = none := by
  unfold splitRange
  rcases span_char '-' s.toList with ⟨-, hspan⟩ | ⟨front, rest, hchars, -, -⟩
  · simp only [hspan]
  · exact absurd (by simp [hchars]) h

theorem to4_mapped (a : BitVec 32) :
    (IP.sixteen (BitVec.ofNat 128 (0xffff * 2 ^ 32 + a.toNat))).to4 = some a := by
  rw [to4_sixteen, BitVec.toNat_ofNat, Nat.mod_eq_of_lt (by omega)]

theorem parseIP_some {a : BitVec 32} (h : parseIPv4 t = some a) :
    ipv4Parser.parseIP t = some (BitVec.ofNat 128 (0xffff * 2 ^ 32 + a.toNat)) := by
  change (parseIPv4 t).map _ = _
  rw [h]
  rfl

theorem parseIP_none (h : parseIPv4 t = none) : ipv4Parser.parseIP t = none := by
  change (parseIPv4 t).map _ = _
  rw [h]
  rfl

theorem parseInt_of_parseUnsigned {m : Nat} (h : parseUnsigned 32 t = some m) :
    parseInt t = some (m : Int) := by
  obtain ⟨hvalue, hlt⟩ := Option.filter_eq_some_iff.mp h
  have hm : m < 2 ^ 32 := of_decide_eq_true hlt
  unfold parseInt
  rw [Option.filter_eq_some_iff]
  refine ⟨?_, by simp; omega⟩
  split at hvalue
  · next cs hchars => simp [hchars, hvalue]
  · next hplus =>
    split
    · next cs hchars =>
      have := isDigit_of_digits hvalue '-' (by simp [hchars])
      exact absurd this (by decide)
    · next cs hchars => exact absurd hchars (hplus cs)
    · simp [hvalue]

/-- Where the agent reads the end of a range, the center reads the same one. -/
theorem rangeEnd_agrees {start last last' : BitVec 32} {text : String}
    (hcenter : Targets.rangeEnd ipv4Parser start text = .ok last)
    (hagent : rangeEnd start text = some last') : last' = last := by
  unfold Targets.rangeEnd at hcenter
  unfold rangeEnd at hagent
  cases hip : parseIPv4 text with
  | some e =>
    simp only [parseIP_some hip, to4_mapped, Except.ok.injEq] at hcenter
    simp only [hip, Option.some.injEq] at hagent
    exact hagent.symm.trans hcenter
  | none =>
    simp only [parseIP_none hip] at hcenter
    simp only [hip] at hagent
    cases hm : parseUnsigned 32 text with
    | none => simp [hm] at hagent
    | some m =>
      simp only [hm] at hagent
      simp only [parseInt_of_parseUnsigned hm] at hcenter
      split at hagent
      · cases hagent
      · split at hcenter
        · cases hcenter
        · cases hagent
          cases hcenter
          rfl

/-- How the center reads a range. -/
theorem rangeBounds_some {lo hi : BitVec 32} (h : rangeBounds ipv4Parser s = .ok (lo, hi)) :
    ∃ a b start last, splitRange s = some (a, b) ∧ parseIPv4 a = some start ∧
      Targets.rangeEnd ipv4Parser start b = .ok last ∧
      (lo, hi) = if start.toNat > last.toNat then (last, start) else (start, last) := by
  unfold rangeBounds at h
  cases hsplit : splitRange s with
  | none => simp [hsplit] at h
  | some ends =>
    obtain ⟨a, b⟩ := ends
    simp only [hsplit] at h
    cases hstart : parseIPv4 a with
    | none => simp [parseIP_none hstart] at h
    | some start =>
      simp only [parseIP_some hstart, to4_mapped] at h
      cases hend : Targets.rangeEnd ipv4Parser start b with
      | error e => simp [hend] at h
      | ok last =>
        simp only [hend] at h
        refine ⟨a, b, start, last, rfl, hstart, hend, ?_⟩
        split at h
        · next hgt =>
          rw [if_pos hgt]
          exact (Except.ok.inj h).symm
        · next hle =>
          rw [if_neg hle]
          exact (Except.ok.inj h).symm

end Texts

/-! ## Parts -/

/-- The limits that both sides keep. -/
def keepsLimits (part : String) : Bool :=
  match parseIPv4Net part with
  | some (.four net) => decide ((prefixDigits part).length ≤ 2 ∧ NetShared net)
  | some (.sixteen _) => true
  | none =>
    match parseIPv4 part with
    | some _ => true
    | none =>
      match splitRange part with
      | none => true
      | some (startText, endText) =>
        match parseIPv4 startText with
        | none => true
        | some start =>
          match rangeEnd start endText with
          | none => false
          | some last => decide (RangeShared start last)

/-- The addresses of the agent are those of the center. -/
def SameAddresses (out : List (BitVec 32)) (ips : List IP) : Prop :=
  ∀ a, a ∈ out.map some ↔ a ∈ ips.map IP.to4

/-- The agent finds the addresses of the center, or none where the limits are not kept. -/
def PartAgrees (lib : Ipv4NetLib) (allow : Bool) (part : String) (ips : List IP) : Prop :=
  (keepsLimits part = true → ∃ out, expandPart lib allow part = .ok out ∧ SameAddresses out ips) ∧
    (keepsLimits part = false → ∀ out, expandPart lib allow part ≠ .ok out)

section Parts

variable {lib : Ipv4NetLib} {part : String} {allow : Bool} {ips : List IP}

theorem sameAddresses_of_four {out : List (BitVec 32)}
    (h : ∀ ip, ip ∈ ips ↔ ∃ x ∈ out, ip = .four x) : SameAddresses out ips := by
  intro a
  simp only [mem_map, h]
  constructor
  · rintro ⟨x, hx, rfl⟩
    exact ⟨.four x, ⟨x, hx, rfl⟩, rfl⟩
  · rintro ⟨ip, ⟨x, hx, rfl⟩, rfl⟩
    exact ⟨x, hx, rfl⟩

variable (hlib : lib.Laws) (h : expandSingle ipv4Parser part allow = some (.ok ips))

include hlib h

theorem block_agrees {net : IPNet} (hnet : parseIPv4Net part = some net) :
    PartAgrees lib allow part ips := by
  have hcidr : ipv4Parser.parseCIDR part = some net := hnet
  obtain ⟨n, rfl, hslash, hdash⟩ := parseIPv4Net_some hnet
  obtain ⟨hfree, henum⟩ : (allow = false → (IPNet.four n).EndsFree) ∧
      enumerateCIDR (.four n) = some ips := by
    cases expandSingle_expanded h with
    | block net hcidr' hfree henum =>
      rw [hcidr] at hcidr'
      obtain rfl := Option.some.inj hcidr'
      exact ⟨hfree, henum⟩
    | single ip hnone => rw [hcidr] at hnone; cases hnone
    | range first last hnone => rw [hcidr] at hnone; cases hnone
  have hsame : ∀ ip, ip ∈ ips ↔ ∃ x ∈ usable n, ip = .four x := by
    intro ip
    rw [enumerateCIDR_eq henum, mem_map]
    exact ⟨fun ⟨x, hx, heq⟩ => ⟨x, hx, heq.symm⟩, fun ⟨x, hx, heq⟩ => ⟨x, hx, heq.symm⟩⟩
  unfold PartAgrees keepsLimits expandPart
  simp only [hnet, hlib.parse_block hnet, decide_eq_true_eq, decide_eq_false_iff_not]
  by_cases hshort : (prefixDigits part).length ≤ 2
  · simp only [hshort, true_and]
    refine ⟨fun hshared => ?_, fun hshared => expandNet_not_ok hshared⟩
    obtain ⟨out, hout, hmem⟩ := expandNet_ok hlib part hshared
      (usable_allowed hfree hshared.1 henum)
    refine ⟨out, hout, sameAddresses_of_four fun ip => ?_⟩
    simp only [hsame, hmem]
  · -- the agent does not take it for a block, nor for anything else
    have haddress : parseIPv4 part = none := by
      cases hip : parseIPv4 part with
      | none => rfl
      | some ip => exact absurd (parseIPv4_chars hip '/' hslash) (by decide)
    simp [hshort, splitRange_none hdash, haddress]

theorem single_agrees {a : BitVec 32} (hnet : parseIPv4Net part = none)
    (hip : parseIPv4 part = some a) :
    keepsLimits part = true ∧
      ∃ out, expandPart lib allow part = .ok out ∧ SameAddresses out ips := by
  have hcidr : ipv4Parser.parseCIDR part = none := hnet
  have hchars := parseIPv4_chars hip
  have hno : ∀ c, c = '/' ∨ c = '-' → c ∉ part.toList := by
    rintro c (rfl | rfl) hc
    · exact absurd (hchars _ hc) (by decide)
    · exact absurd (hchars _ hc) (by decide)
  refine ⟨by simp [keepsLimits, hnet, hip], ?_⟩
  obtain ⟨m, hm, hto4⟩ : ∃ m, ipv4Parser.parseIP part = some m ∧ (IP.sixteen m).to4 = some a :=
    ⟨_, parseIP_some hip, to4_mapped a⟩
  unfold expandSingle at h
  simp only [hcidr, hm] at h
  obtain ⟨hallowed, rfl⟩ : Allowed allow a ∧ ips = [.sixteen m] := by
    cases allow with
    | true => exact ⟨.inl rfl, by simpa using h.symm⟩
    | false =>
      cases hclass : reservedClass (.sixteen m) with
      | some c => simp [hclass] at h
      | none =>
        refine ⟨.inr fun hres => ?_, by simpa [hclass] using h.symm⟩
        exact (reservedClass_four hto4).mpr hres hclass
  refine ⟨[a], ?_, fun x => by simp [hto4]⟩
  unfold expandPart
  rw [hlib.parse_none (.inl (hno '/' (.inl rfl))), splitRange_none (hno '-' (.inr rfl)), hip]
  exact pushIfAllowed_ok hallowed

theorem range_agrees (hnet : parseIPv4Net part = none) (hip : parseIPv4 part = none) :
    PartAgrees lib allow part ips := by
  have hcidr : ipv4Parser.parseCIDR part = none := hnet
  unfold expandSingle at h
  simp only [hcidr, parseIP_none hip] at h
  split at h
  case isFalse => cases h
  case isTrue hcontains =>
    have hdash : '-' ∈ part.toList := (containsChars_singleton _ _).mp hcontains
    cases hrange : rangeBounds ipv4Parser part with
    | error e => simp [hrange] at h
    | ok bounds =>
      obtain ⟨lo, hi⟩ := bounds
      simp only [hrange] at h
      split at h
      case h_1 => cases h
      case h_2 hcheck =>
        have henum : enumerateRange lo hi = .ok ips := Option.some.inj h
        have hfree : allow = false → reservedClass (.four lo) = none ∧
            reservedClass (.four hi) = none := by
          rintro rfl
          have hends : checkReserved part (.four lo) (some (.four hi)) = .ok () := hcheck
          obtain ⟨hfirst, hlast⟩ := checkReserved_ok.mp hends
          exact ⟨hfirst, hlast _ rfl⟩
        obtain ⟨a, b, start, last, hsplit, hstart, hend, hbounds⟩ := rangeBounds_some hrange
        unfold PartAgrees keepsLimits expandPart
        simp only [hnet, hip, hlib.parse_none (.inr hdash), hsplit, hstart]
        cases hagent : rangeEnd start b with
        | none => simp
        | some last' =>
          obtain rfl := rangeEnd_agrees hend hagent
          simp only [decide_eq_true_eq, decide_eq_false_iff_not]
          refine ⟨fun hshared => ?_, fun hshared => expandRange_not_ok hshared⟩
          rw [if_neg (by have := hshared.1; omega)] at hbounds
          obtain ⟨rfl, rfl⟩ := Prod.mk.inj hbounds
          exact ⟨_, expandRange_ok hshared (interval_allowed hshared.2 hfree),
            sameAddresses_of_four (mem_enumerateRange henum hshared.1)⟩

/-- For a part that the center expands, the agent either finds the same addresses or fails. -/
theorem expandPart_agrees : PartAgrees lib allow part ips := by
  cases hnet : parseIPv4Net part with
  | some net => exact block_agrees hlib h hnet
  | none =>
    cases hip : parseIPv4 part with
    | some a =>
      obtain ⟨hkeeps, hout⟩ := single_agrees hlib h hnet hip
      exact ⟨fun _ => hout, fun hfails => by rw [hkeeps] at hfails; cases hfails⟩
    | none => exact range_agrees hlib h hnet hip

end Parts

/-! ## Lists -/

section Lists

variable {lib : Ipv4NetLib} {allow : Bool}

/-- The parts of a list one after the other. -/
def expandEach (lib : Ipv4NetLib) (allow : Bool) : List String → Res ExpandError (List (BitVec 32))
  | [] => .ok []
  | part :: rest => do
    let first ← expandPart lib allow part
    let more ← expandEach lib allow rest
    pure (first ++ more)

theorem expandParts_eq (raw : List String) :
    expandParts lib allow raw = expandEach lib allow (named raw) := by
  induction raw with
  | nil => rfl
  | cons part rest ih =>
    by_cases hempty : trimSpace part = ""
    · rw [named_cons_empty hempty, expandParts, if_pos hempty, ih]
    · rw [named_cons hempty, expandParts, if_neg hempty, ih]
      rfl

theorem expandEach_agrees (hlib : lib.Laws) {raw : List String} {ips : List IP}
    (h : Targets.expandParts ipv4Parser allow raw = some (.ok ips)) :
    ((∀ part ∈ named raw, keepsLimits part = true) →
      ∃ out, expandEach lib allow (named raw) = .ok out ∧ SameAddresses out ips) ∧
    (∀ out, expandEach lib allow (named raw) = .ok out →
      ∀ part ∈ named raw, keepsLimits part = true) := by
  induction raw generalizing ips with
  | nil =>
    cases h
    exact ⟨fun _ => ⟨[], rfl, fun _ => Iff.rfl⟩, by simp⟩
  | cons part rest ih =>
    by_cases hempty : trimSpace part = ""
    · rw [Targets.expandParts, if_pos hempty] at h
      rw [named_cons_empty hempty]
      exact ih h
    · obtain ⟨first, more, hfirst, hmore, rfl⟩ := (expandParts_cons hempty).mp h
      obtain ⟨hok, hfails⟩ := expandPart_agrees hlib hfirst
      obtain ⟨hrest, hall⟩ := ih hmore
      rw [named_cons hempty]
      constructor
      · intro hkeeps
        obtain ⟨xs, hxs, hsame⟩ := hok (hkeeps _ (by simp))
        obtain ⟨ys, hys, hsames⟩ := hrest fun p hp => hkeeps p (by simp [hp])
        exact ⟨xs ++ ys, by rw [expandEach, hxs, ok_bind, hys]; rfl, fun a => by
          rw [map_append, map_append, mem_append, mem_append, hsame a, hsames a]⟩
      · intro out hout
        obtain ⟨xs, hxs, hout⟩ := bind_eq_ok.mp hout
        obtain ⟨ys, hys, -⟩ := bind_eq_ok.mp hout
        refine forall_mem_cons.mpr ⟨?_, hall ys hys⟩
        by_contra hnot
        exact hfails (Bool.eq_false_iff.mpr hnot) xs hxs

/-- Spaces around a list make no difference to its parts. -/
theorem named_split (targets : String) : named (split targets ',') = parts targets := by
  unfold parts named
  rw [split_trimSpace (by decide)]

end Lists

/-- For a list that the center expands, the agent succeeds with the same addresses exactly when
every part keeps to the limits of both. -/
theorem center_agent_agree_iff (lib : Ipv4NetLib) (hlib : lib.Laws) (targets : String)
    (allow : Bool) (ips : List IP)
    (h : expandTargetsFor ipv4Parser targets allow = some (.ok ips)) :
    (∃ out, expandTargets lib allow targets = .ok out ∧ SameAddresses out ips) ↔
      ∀ part ∈ parts targets, keepsLimits part = true := by
  obtain ⟨-, hparts, -⟩ := expandTargetsFor_ok.mp h
  obtain ⟨hok, hall⟩ := expandEach_agrees hlib hparts
  have hagent : expandParts lib allow (split targets ',') =
      expandEach lib allow (parts targets) := by
    rw [expandParts_eq, named_split]
  constructor
  · rintro ⟨out, hout, -⟩
    obtain ⟨xs, hxs, -⟩ := bind_eq_ok.mp hout
    exact hall xs (hagent.symm.trans hxs)
  · intro hkeeps
    obtain ⟨xs, hxs, hsame⟩ := hok hkeeps
    refine ⟨dedup (xs.insertionSort fun a b => a.toNat ≤ b.toNat), ?_, fun a => ?_⟩
    · exact bind_eq_ok.mpr ⟨xs, hagent.trans hxs, rfl⟩
    · rw [← hsame a]
      simp

/-- A library that meets the assumptions: of the center's blocks it reads those with a prefix of
at most two digits. -/
def sampleLib : Ipv4NetLib where
  parse s :=
    match parseIPv4Net s with
    | some (.four net) => if (prefixDigits s).length ≤ 2 then some net else none
    | _ => none
  hosts := usable

theorem sampleLib_laws : sampleLib.Laws where
  parse_block h := by simp only [sampleLib, h]
  parse_none {s} h := by
    cases hnet : parseIPv4Net s with
    | none => simp only [sampleLib, hnet]
    | some net =>
      obtain ⟨n, rfl, hslash, hdash⟩ := parseIPv4Net_some hnet
      exact absurd h (not_or.mpr ⟨not_not.mpr hslash, hdash⟩)
  hosts_eq _ := rfl

theorem office_agrees :
    expandTargetsFor ipv4Parser " 192.168.1.0/30, 192.168.1.9-11 " false =
        some (.ok [.four 0xc0a80101, .four 0xc0a80102, .four 0xc0a80109, .four 0xc0a8010a,
          .four 0xc0a8010b]) ∧
      ∃ out, expandTargets sampleLib false " 192.168.1.0/30, 192.168.1.9-11 " = .ok out ∧
        SameAddresses out [.four 0xc0a80101, .four 0xc0a80102, .four 0xc0a80109,
          .four 0xc0a8010a, .four 0xc0a8010b] := by
  have h : expandTargetsFor ipv4Parser " 192.168.1.0/30, 192.168.1.9-11 " false =
      some (.ok [.four 0xc0a80101, .four 0xc0a80102, .four 0xc0a80109, .four 0xc0a8010a,
        .four 0xc0a8010b]) := by decide +kernel
  exact ⟨h, (center_agent_agree_iff _ sampleLib_laws _ _ _ h).mpr (by decide +kernel)⟩

/-- A reversed range, a large block, a prefix of three digits and the highest address: the center
expands them all, the agent none. -/
theorem targets_differ :
    ((∃ ips, expandTargetsFor ipv4Parser "10.0.0.9-10.0.0.5" false = some (.ok ips)) ∧
      expandTargets sampleLib false "10.0.0.9-10.0.0.5" = .err (.invalid "10.0.0.9-10.0.0.5")) ∧
    ((∃ ips, expandTargetsFor ipv4Parser "10.0.0.0/15" false = some (.ok ips)) ∧
      expandTargets sampleLib false "10.0.0.0/15" = .err (.tooManyHosts "10.0.0.0/15")) ∧
    ((∃ ips, expandTargetsFor ipv4Parser "10.0.0.0/024" false = some (.ok ips)) ∧
      expandTargets sampleLib false "10.0.0.0/024" = .err (.invalid "10.0.0.0/024")) ∧
    (∃ ips, expandTargetsFor ipv4Parser "255.255.255.255/32" true = some (.ok ips)) ∧
      expandTargets sampleLib true "255.255.255.255/32" = .panic .overflow := by
  refine ⟨⟨?_, by decide +kernel⟩, ⟨?_, by decide +kernel⟩, ⟨?_, by decide +kernel⟩, ?_,
    by decide +kernel⟩
  all_goals exact (expandTargetsFor_iff ipv4Parser _ _).mpr (by decide +kernel)

end Steward.AgentTargets
