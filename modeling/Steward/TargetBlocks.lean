import Steward.ScanTargets

/-!
# Blocks of scan targets

A CIDR block as a prefix block of numbers: which reserved addresses the check of its
first and last address misses, and what the loop over its addresses returns.
-/

namespace Steward.Targets

open Blocks List

/-! ## Reserved numbers -/

/-- The reserved IPv4 addresses as numbers. -/
def Reserved4 (x : Nat) : Prop :=
  x = 0 ∨ x / 2 ^ 24 = 127 ∨ x / 2 ^ 16 = 0xa9fe ∨ 0xe0000000 ≤ x

/-- The reserved addresses among those that are IPv6 only. -/
def Reserved6 (x : Nat) : Prop :=
  x = 0 ∨ x = 1 ∨ x / 2 ^ 118 = 0x3fa ∨ 0xff * 2 ^ 120 ≤ x

theorem reservedClass_four {ip : IP} {x : BitVec 32} (h : ip.to4 = some x) :
    reservedClass ip ≠ none ↔ Reserved4 x.toNat := by
  have hzero : ip.isUnspecified = true ↔ x.toNat = 0 := by
    have hne : ip = .sixteen 0 → x.toNat = 0 := by
      rintro rfl
      simp [IP.to4] at h
    simp only [IP.isUnspecified, h, Bool.or_eq_true, decide_eq_true_eq, Option.some.injEq]
    rw [← BitVec.toNat_inj]
    constructor
    · rintro (h0 | h0)
      · exact h0
      · exact hne h0
    · exact .inl
  have hbroadcast : ip.isBroadcast = true ↔ x.toNat = 0xffffffff := by
    simp only [IP.isBroadcast, h, decide_eq_true_eq, Option.some.injEq]
    rw [← BitVec.toNat_inj]
    rfl
  have hloopback : ip.isLoopback = true ↔ x.toNat / 2 ^ 24 = 127 := by
    simp only [IP.isLoopback, h, decide_eq_true_eq]
  have hlink : ip.isLinkLocalUnicast = true ↔ x.toNat / 2 ^ 16 = 0xa9fe := by
    simp only [IP.isLinkLocalUnicast, h, decide_eq_true_eq]
  have hmulticast : ip.isMulticast = true ↔ x.toNat / 2 ^ 28 = 0xe := by
    simp only [IP.isMulticast, h, decide_eq_true_eq]
  simp only [reservedClass, hzero, hloopback, hlink, hmulticast, hbroadcast, h]
  unfold Reserved4
  repeat' split
  all_goals first
    | exact iff_of_true (Option.some_ne_none _) (by omega)
    | exact iff_of_false (fun hne => hne rfl) (by omega)

theorem reservedClass_sixteen {x : BitVec 128} (h : (IP.sixteen x).to4 = none) :
    reservedClass (.sixteen x) ≠ none ↔ Reserved6 x.toNat := by
  have hzero : IP.sixteen x = .sixteen 0 ↔ x.toNat = 0 := by
    rw [IP.sixteen.injEq, ← BitVec.toNat_inj]
    rfl
  have hone : IP.sixteen x = .sixteen 1 ↔ x.toNat = 1 := by
    rw [IP.sixteen.injEq, ← BitVec.toNat_inj]
    rfl
  simp only [reservedClass, IP.isUnspecified, IP.isLoopback, IP.isLinkLocalUnicast,
    IP.isMulticast, IP.isBroadcast, h, hzero, hone, decide_eq_true_eq, reduceCtorEq, decide_false,
    Bool.false_or, Bool.false_eq_true, if_false]
  unfold Reserved6
  repeat' split
  all_goals first
    | exact iff_of_true (Option.some_ne_none _) (by omega)
    | exact iff_of_false (fun hne => hne rfl) (by omega)

/-! ## Blocks whose ends are not reserved -/

/-- The first link-local address, in four and in sixteen bytes. -/
def linkLocal4 : Nat := 0xa9fe * 2 ^ 16

def linkLocal6 : Nat := 0x3fa * 2 ^ 118

/-- A block that meets a prefix has its base there or covers the first number of the prefix. -/
theorem base_or_first {B : Block} {a q k : Nat} (ha : a ∈ B) (hq : a / 2 ^ k = q) :
    B.base / 2 ^ k = q ∨ q * 2 ^ k ∈ B := by
  have hC : a ∈ Block.ofPrefix q k := Block.mem_ofPrefix.mpr hq
  rcases Nat.le_total B.bits k with hle | hle
  · exact .inl (Block.mem_ofPrefix.mp (Block.nested ha hC hle B.base_mem))
  · exact .inr (Block.nested hC ha hle (Block.base_mem _))

theorem reserved4_block {B : Block} (hbits : B.base + B.size ≤ 2 ^ 32)
    (hbase : ¬ Reserved4 B.base) (hlast : ¬ Reserved4 B.last) {a : Nat} (ha : a ∈ B)
    (hres : Reserved4 a) : linkLocal4 ∈ B := by
  rcases hres with h | h | h | h
  · exact absurd (.inl (by have := ha.1; omega)) hbase
  · -- below the loopback block the base is loopback, above it the last address or the base is
    have hC : a ∈ Block.ofPrefix 127 24 := Block.mem_ofPrefix.mpr h
    rcases Nat.le_total B.bits 24 with hle | hle
    · have hin := Block.nested ha hC hle B.base_mem
      exact absurd (.inr (.inl (Block.mem_ofPrefix.mp hin))) hbase
    · have htop : 0x7fffffff ∈ B :=
        Block.nested hC ha hle (Block.mem_ofPrefix.mpr (by decide))
      by_cases h32 : B.bits ≤ 31
      · have hdvd : B.size ∣ 0x7fffffff + 1 := Nat.pow_dvd_pow 2 h32
        have hend := Block.last_eq htop hdvd
        have hloopback : B.last / 2 ^ 24 = 127 := by omega
        exact absurd (.inr (.inl hloopback)) hlast
      · have hsize : 2 ^ 32 ≤ B.size := Nat.pow_le_pow_right (by decide) (by omega)
        exact absurd (.inl (by omega)) hbase
  · exact (base_or_first ha h).resolve_left fun hin => hbase (.inr (.inr (.inl hin)))
  · have := Block.le_last ha
    exact absurd (.inr (.inr (.inr (by omega)))) hlast

theorem reserved6_block {B : Block} (hbase : ¬ Reserved6 B.base) (hlast : ¬ Reserved6 B.last)
    {a : Nat} (ha : a ∈ B) (hres : Reserved6 a) : linkLocal6 ∈ B := by
  rcases hres with h | h | h | h
  · exact absurd (.inl (by have := ha.1; omega)) hbase
  · have := ha.1
    rcases Nat.le_one_iff_eq_zero_or_eq_one.mp (h ▸ this) with h0 | h1
    · exact absurd (.inl h0) hbase
    · exact absurd (.inr (.inl h1)) hbase
  · exact (base_or_first ha h).resolve_left fun hin => hbase (.inr (.inr (.inl hin)))
  · have := Block.le_last ha
    exact absurd (.inr (.inr (.inr (by omega)))) hlast

/-! ## Blocks as numbers -/

inductive Family
  | v4 | v6
  deriving DecidableEq, Repr

/-- How an address is compared: in four bytes whenever it has such a form. -/
def IP.family (ip : IP) : Family := if ip.to4.isSome then .v4 else .v6

def IP.number (ip : IP) : Nat :=
  match ip.to4, ip with
  | some x, _ => x.toNat
  | none, .sixteen x => x.toNat
  | none, .four x => x.toNat

def Reserved : Family → Nat → Prop
  | .v4 => Reserved4
  | .v6 => Reserved6

def linkLocal : Family → Nat
  | .v4 => linkLocal4
  | .v6 => linkLocal6

theorem IP.number_four {ip : IP} {x : BitVec 32} (h : ip.to4 = some x) :
    ip.family = .v4 ∧ ip.number = x.toNat := by
  simp [family, number, h]

theorem IP.number_sixteen {x : BitVec 128} (h : (IP.sixteen x).to4 = none) :
    (IP.sixteen x).family = .v6 ∧ (IP.sixteen x).number = x.toNat := by
  simp [family, number, h]

theorem reservedClass_iff (ip : IP) : reservedClass ip ≠ none ↔ Reserved ip.family ip.number := by
  cases h : ip.to4 with
  | some x =>
    obtain ⟨hfamily, hnumber⟩ := IP.number_four h
    rw [hfamily, hnumber]
    exact reservedClass_four h
  | none =>
    cases ip with
    | four a => cases h
    | sixteen a =>
      obtain ⟨hfamily, hnumber⟩ := IP.number_sixteen h
      rw [hfamily, hnumber]
      exact reservedClass_sixteen h

/-- The IPv6 addresses that stand for an IPv4 address. -/
theorem to4_sixteen {a : BitVec 128} {x : BitVec 32} :
    (IP.sixteen a).to4 = some x ↔ a.toNat = 0xffff * 2 ^ 32 + x.toNat := by
  simp only [IP.to4]
  split
  · rw [Option.some.injEq, ← BitVec.toNat_inj, BitVec.toNat_setWidth]
    omega
  · constructor
    · intro h
      cases h
    · omega

theorem to4_sixteen_none {a : BitVec 128} :
    (IP.sixteen a).to4 = none ↔ a.toNat / 2 ^ 32 ≠ 0xffff := by
  simp only [IP.to4]
  split
  case isTrue h => exact iff_of_false (fun hnone => nomatch hnone) (fun hne => hne h)
  case isFalse h => exact iff_of_true rfl h

namespace IPNet

/-- The number of low bits that `contains` does not compare. -/
def hostBits : IPNet → Nat
  | four n => 32 - n.ones
  | sixteen n =>
    match (IP.sixteen n.base).to4 with
    | some _ => 32 - (n.ones - 96)
    | none => 128 - n.ones

def family (net : IPNet) : Family := net.base.family

def block (net : IPNet) : Block := .ofPrefix (net.base.number / 2 ^ net.hostBits) net.hostBits

theorem contains4_iff (base : BitVec 32) (k : Nat) (ip : IP) : contains4 base k ip = true ↔
    ip.family = .v4 ∧ ip.number / 2 ^ k = base.toNat / 2 ^ k := by
  unfold contains4
  cases h : ip.to4 with
  | none => simp [IP.family, h]
  | some x => simp [IP.family, IP.number, h, samePrefix, eq_comm]

theorem contains6_iff (base : BitVec 128) (k : Nat) (ip : IP) : contains6 base k ip = true ↔
    ip.family = .v6 ∧ ip.number / 2 ^ k = base.toNat / 2 ^ k := by
  cases ip with
  | four a => simp [contains6, IP.family, IP.to4]
  | sixteen a =>
    cases h : (IP.sixteen a).to4 with
    | none => simp [contains6, IP.family, IP.number, h, samePrefix, eq_comm]
    | some x => simp [contains6, IP.family, h]

theorem contains_iff (net : IPNet) (ip : IP) :
    net.contains ip = true ↔ ip.family = net.family ∧ ip.number ∈ net.block := by
  rw [block, Block.mem_ofPrefix]
  cases net with
  | four n => exact contains4_iff n.base (32 - n.ones) ip
  | sixteen n =>
    unfold family base
    cases hbase : (IP.sixteen n.base).to4 with
    | some b =>
      rw [(IP.number_four hbase).1, (IP.number_four hbase).2]
      simp only [contains, hostBits, hbase]
      exact contains4_iff b (32 - (n.ones - 96)) ip
    | none =>
      rw [(IP.number_sixteen hbase).1, (IP.number_sixteen hbase).2]
      simp only [contains, hostBits, hbase]
      exact contains6_iff n.base (128 - n.ones) ip

variable {n : Masked 128} {net : IPNet} {ip : IP} {i : Nat}

/-- A block in IPv6 form of IPv4 addresses has the whole form in its prefix. -/
theorem ones_mapped {b : BitVec 32} (h : (IP.sixteen n.base).to4 = some b) : 96 ≤ n.ones := by
  by_contra hlt
  have hnumber := to4_sixteen.mp h
  have hdvd : 2 ^ 33 ∣ n.base.toNat :=
    Nat.dvd_trans (Nat.pow_dvd_pow 2 (by omega)) n.masked
  omega

theorem hostBits_eq (net : IPNet) : net.hostBits = net.bits - net.ones := by
  cases net with
  | four n => rfl
  | sixteen n =>
    show (sixteen n).hostBits = 128 - n.ones
    cases hbase : (IP.sixteen n.base).to4 with
    | some b =>
      have hones := ones_mapped hbase
      simp only [hostBits, hbase]
      omega
    | none => simp only [hostBits, hbase]

theorem block_size (net : IPNet) : net.block.size = 2 ^ (net.bits - net.ones) :=
  congrArg (2 ^ ·) (hostBits_eq net)

theorem block_base (net : IPNet) : net.block.base = net.base.number := by
  refine Nat.div_mul_cancel ?_
  rw [hostBits_eq]
  cases net with
  | four n => exact n.masked
  | sixteen n =>
    show 2 ^ (128 - n.ones) ∣ (IP.sixteen n.base).number
    cases hbase : (IP.sixteen n.base).to4 with
    | some b =>
      have hones := ones_mapped hbase
      have hdvd : 2 ^ (128 - n.ones) ∣ 0xffff * 2 ^ 32 :=
        Nat.dvd_mul_left_of_dvd (Nat.pow_dvd_pow 2 (by omega)) _
      rw [(IP.number_four hbase).2]
      exact (Nat.dvd_add_right hdvd).mp (to4_sixteen.mp hbase ▸ n.masked)
    | none =>
      rw [(IP.number_sixteen hbase).2]
      exact n.masked

theorem Masked.base_add_le {w : Nat} (n : Masked w) :
    n.base.toNat + 2 ^ (w - n.ones) ≤ 2 ^ w :=
  Block.end_le (B := n.block) n.base.isLt (Nat.pow_dvd_pow 2 (Nat.sub_le w n.ones))

theorem number_lt (h : ip.family = .v4) : ip.number < 2 ^ 32 := by
  cases hip : ip.to4 with
  | none => simp [IP.family, hip] at h
  | some x =>
    rw [(IP.number_four hip).2]
    exact x.isLt

/-- No address that is compared in sixteen bytes has the IPv4 form. -/
theorem number_wide (h : ip.family = .v6) : ip.number / 2 ^ 32 ≠ 0xffff := by
  cases hip : ip.to4 with
  | some x => simp [IP.family, hip] at h
  | none =>
    cases ip with
    | four a => cases hip
    | sixteen a =>
      rw [(IP.number_sixteen hip).2]
      exact to4_sixteen_none.mp hip

theorem eq_sixteen (h : net.family = .v6) :
    ∃ n, net = sixteen n ∧ (IP.sixteen n.base).to4 = none := by
  cases net with
  | four n => cases h
  | sixteen n =>
    cases hbase : (IP.sixteen n.base).to4 with
    | some b => simp [family, base, IP.family, hbase] at h
    | none => exact ⟨n, rfl, hbase⟩

theorem hostBits_le (h : net.family = .v4) : net.hostBits ≤ 32 := by
  cases net with
  | four n => exact Nat.sub_le 32 n.ones
  | sixteen n =>
    cases hbase : (IP.sixteen n.base).to4 with
    | some b => simp [hostBits, hbase]
    | none => simp [family, base, IP.family, hbase] at h

theorem block_end (net : IPNet) (h : net.family = .v4) :
    net.block.base + net.block.size ≤ 2 ^ 32 := by
  refine Block.end_le ?_ (Nat.pow_dvd_pow 2 (hostBits_le h))
  rw [block_base]
  exact number_lt h

/-! ## The addresses of a block in turn -/

/-- The address after a number of increments. -/
def address (net : IPNet) (i : Nat) : IP := IP.incIP^[i] net.base

theorem iterate_add_one {w : Nat} (a : BitVec w) (i : Nat) :
    (· + 1)^[i] a = a + BitVec.ofNat w i := by
  induction i with
  | zero => simp
  | succ i ih =>
    rw [Function.iterate_succ_apply', ih, BitVec.add_assoc, BitVec.ofNat_add]
    rfl

theorem address_four (n : Masked 32) (i : Nat) :
    (four n).address i = .four (n.base + BitVec.ofNat 32 i) := by
  rw [← iterate_add_one]
  exact (Function.Semiconj.iterate_right (f := IP.four) (fun _ => rfl) i n.base).symm

theorem address_sixteen (n : Masked 128) (i : Nat) :
    (sixteen n).address i = .sixteen (n.base + BitVec.ofNat 128 i) := by
  rw [← iterate_add_one]
  exact (Function.Semiconj.iterate_right (f := IP.sixteen) (fun _ => rfl) i n.base).symm

theorem toNat_add_ofNat {w : Nat} (a : BitVec w) (i : Nat) :
    (a + BitVec.ofNat w i).toNat = (a.toNat + i) % 2 ^ w := by
  rw [BitVec.toNat_add, BitVec.toNat_ofNat, Nat.add_mod_mod]

theorem address_v4 (h : net.family = .v4) (hi : i < net.block.size) :
    (net.address i).family = .v4 ∧ (net.address i).number = net.block.base + i := by
  have hend := block_end net h
  rw [block_base] at hend ⊢
  cases net with
  | four n =>
    have hlt : n.base.toNat + (four n).block.size ≤ 2 ^ 32 := hend
    rw [address_four]
    refine ⟨rfl, ?_⟩
    show (n.base + BitVec.ofNat 32 i).toNat = n.base.toNat + i
    rw [toNat_add_ofNat, Nat.mod_eq_of_lt (by omega)]
  | sixteen n =>
    cases hbase : (IP.sixteen n.base).to4 with
    | none => simp [family, base, IP.family, hbase] at h
    | some b =>
      rw [base, (IP.number_four hbase).2] at hend ⊢
      have hb := to4_sixteen.mp hbase
      have hto4 : ((sixteen n).address i).to4 = some (BitVec.ofNat 32 (b.toNat + i)) := by
        rw [address_sixteen, to4_sixteen, toNat_add_ofNat, BitVec.toNat_ofNat,
          Nat.mod_eq_of_lt (a := b.toNat + i) (by omega), Nat.mod_eq_of_lt (by omega), hb]
        omega
      obtain ⟨hfamily, hnumber⟩ := IP.number_four hto4
      rw [BitVec.toNat_ofNat, Nat.mod_eq_of_lt (by omega)] at hnumber
      exact ⟨hfamily, hnumber⟩

theorem address_wide (hbase : (IP.sixteen n.base).to4 = none) (hi : i < (sixteen n).block.size) :
    (n.base + BitVec.ofNat 128 i).toNat = (sixteen n).block.base + i := by
  have hend := Masked.base_add_le n
  have hlt : i < 2 ^ (128 - n.ones) := by rwa [block_size] at hi
  rw [toNat_add_ofNat, Nat.mod_eq_of_lt (by omega), block_base, base, (IP.number_sixteen hbase).2]

/-- Within a block of IPv6 addresses they count up outside the IPv4 form. -/
theorem address_v6 (h : net.family = .v6) (hi : i < net.block.size)
    (hform : (net.block.base + i) / 2 ^ 32 ≠ 0xffff) :
    (net.address i).family = .v6 ∧ (net.address i).number = net.block.base + i := by
  obtain ⟨n, rfl, hbase⟩ := eq_sixteen h
  rw [← address_wide hbase hi] at hform ⊢
  rw [address_sixteen]
  exact IP.number_sixteen (to4_sixteen_none.mpr hform)

/-- The addresses of a block count up, unless they come to the IPv4 form. -/
theorem address_number (hi : i < net.block.size)
    (hform : net.family = .v6 → (net.block.base + i) / 2 ^ 32 ≠ 0xffff) :
    (net.address i).family = net.family ∧ (net.address i).number = net.block.base + i := by
  cases hfamily : net.family with
  | v4 => exact address_v4 hfamily hi
  | v6 => exact address_v6 hfamily hi (hform hfamily)

theorem contains_address (hi : i < net.block.size)
    (hform : net.family = .v6 → (net.block.base + i) / 2 ^ 32 ≠ 0xffff) :
    net.contains (net.address i) = true := by
  obtain ⟨hfamily, hnumber⟩ := address_number hi hform
  rw [contains_iff, hfamily, hnumber]
  exact ⟨rfl, Nat.le_add_right _ _, Nat.add_lt_add_left hi _⟩

theorem Masked.last_eq {w : Nat} (n : Masked w) : BitVec.ofNat w
    (n.base.toNat / 2 ^ (w - n.ones) * 2 ^ (w - n.ones) + (2 ^ (w - n.ones) - 1)) =
      n.base + BitVec.ofNat w (2 ^ (w - n.ones) - 1) := by
  rw [Nat.div_mul_cancel n.masked, BitVec.ofNat_add, BitVec.ofNat_toNat, BitVec.setWidth_eq]

theorem lastAddress_at {last : IP} (h : net.lastAddress = some last) :
    last = net.address (net.block.size - 1) := by
  unfold lastAddress at h
  split at h
  · cases h
  rw [block_size]
  cases net with
  | four n =>
    cases h
    rw [Masked.last_eq, address_four]
    rfl
  | sixteen n =>
    cases h
    rw [Masked.last_eq, address_sixteen]
    rfl

/-- A block of IPv6 addresses that ends in the IPv4 form ends with its broadcast address. -/
theorem last_wide (h : net.family = .v6) (hform : net.block.last / 2 ^ 32 = 0xffff) :
    net.block.last = 0xffff * 2 ^ 32 + 0xffffffff := by
  have hmem : net.block.last ∈ net.block := by
    have := net.block.size_pos
    rw [Block.mem_def, Block.last]
    omega
  have hC : net.block.last ∈ Block.ofPrefix 0xffff 32 := Block.mem_ofPrefix.mpr hform
  rcases Nat.le_total net.block.bits 32 with hsmall | hlarge
  · have hbase := Block.mem_ofPrefix.mp (Block.nested hmem hC hsmall net.block.base_mem)
    rw [block_base] at hbase
    exact absurd hbase (number_wide h)
  · have hpos := net.block.size_pos
    have hsize : 2 ^ 32 ∣ net.block.size := Nat.pow_dvd_pow 2 hlarge
    have hdvd : 2 ^ 32 ∣ net.block.last + 1 := by
      rw [Block.last, Nat.sub_add_cancel (by omega)]
      exact Nat.dvd_add (Nat.dvd_trans hsize net.block.aligned) hsize
    omega

/-- An end that is not reserved is the end of the block. -/
theorem lastAddress_number {last : IP} (h : net.lastAddress = some last)
    (hfree : ¬ Reserved last.family last.number) :
    last.family = net.family ∧ last.number = net.block.last := by
  have hpos := net.block.size_pos
  have hi : net.block.size - 1 < net.block.size := by omega
  have hlast : net.block.last = net.block.base + (net.block.size - 1) := by
    rw [Block.last]
    omega
  obtain rfl := lastAddress_at h
  rw [hlast]
  refine address_number hi fun hfamily hform => ?_
  rw [← hlast] at hform
  obtain ⟨n, rfl, hbase⟩ := eq_sixteen hfamily
  have hto4 : ((sixteen n).address ((sixteen n).block.size - 1)).to4 = some 0xffffffff := by
    rw [address_sixteen, to4_sixteen, address_wide hbase hi, ← hlast, last_wide hfamily hform]
    rfl
  rw [(IP.number_four hto4).1, (IP.number_four hto4).2] at hfree
  exact hfree (.inr (.inr (.inr (by decide))))

/-- The check of a block: neither of its ends is reserved. -/
def EndsFree (net : IPNet) : Prop :=
  reservedClass net.base = none ∧ ∀ last ∈ net.lastAddress, reservedClass last = none

theorem not_reserved {ip : IP} (h : reservedClass ip = none) :
    ¬ Reserved ip.family ip.number :=
  fun hr => (reservedClass_iff ip).mpr hr h

theorem ends_not_reserved (h : net.EndsFree) :
    ¬ Reserved net.family net.block.base ∧ ¬ Reserved net.family net.block.last := by
  have hbase : ¬ Reserved net.family net.block.base := by
    rw [block_base]
    exact not_reserved h.1
  refine ⟨hbase, ?_⟩
  cases hlast : net.lastAddress with
  | none =>
    have hbits : net.bits ≤ net.ones := by
      by_contra hne
      unfold lastAddress at hlast
      rw [if_neg hne] at hlast
      cases net <;> cases hlast
    rw [Block.last, block_size, Nat.sub_eq_zero_of_le hbits]
    exact hbase
  | some last =>
    have hfree := not_reserved (h.2 last hlast)
    obtain ⟨hfamily, hnumber⟩ := lastAddress_number hlast hfree
    rwa [hfamily, hnumber] at hfree

/-- What the check of the ends misses is a block around the link-local addresses. -/
theorem reserved_block (h : net.EndsFree) {a : Nat} (ha : a ∈ net.block)
    (hres : Reserved net.family a) : linkLocal net.family ∈ net.block := by
  obtain ⟨hbase, hlast⟩ := ends_not_reserved h
  cases hfamily : net.family with
  | v4 =>
    rw [hfamily] at hbase hlast hres
    exact reserved4_block (block_end net hfamily) hbase hlast ha hres
  | v6 =>
    rw [hfamily] at hbase hlast hres
    exact reserved6_block hbase hlast ha hres

end IPNet

/-! ## The loop over a block -/

namespace IPNet

variable {net : IPNet} {i : Nat}

/-- The IPv4 block of all addresses. -/
def AllIPv4 : IPNet → Prop
  | four n => n.ones = 0
  | sixteen _ => False

instance : (net : IPNet) → Decidable net.AllIPv4
  | four n => inferInstanceAs (Decidable (n.ones = 0))
  | sixteen _ => isFalse id

/-- Past its end a block contains nothing, unless the count comes round to a block at zero. -/
theorem not_mem_wrapped {w : Nat} (n : Masked w) (h : 0 < n.ones) :
    (n.base.toNat + 2 ^ (w - n.ones)) % 2 ^ w ∉ n.block := by
  have hend := Masked.base_add_le n
  have hsize : n.block.size = 2 ^ (w - n.ones) := rfl
  have hstart : n.block.base = n.base.toNat := rfl
  rintro ⟨hlow, hhigh⟩
  rcases Nat.lt_or_eq_of_le hend with hlt | heq
  · rw [Nat.mod_eq_of_lt hlt] at hhigh
    exact absurd hhigh (Nat.lt_irrefl _)
  · rw [heq, Nat.mod_self] at hlow
    have hw : 2 ^ (w - n.ones) = 2 ^ w := by omega
    have := Nat.pow_right_injective (Nat.le_refl 2) hw
    have := n.ones_le
    omega

theorem block_four (n : Masked 32) : (four n).block.base = n.base.toNat ∧
    (four n).block.size = 2 ^ (32 - n.ones) :=
  ⟨block_base _, rfl⟩

theorem not_contains {ip : IP} (h : ip.family = net.family → ip.number ∉ net.block) :
    net.contains ip = false := by
  rw [Bool.eq_false_iff]
  intro hin
  obtain ⟨hfamily, hmem⟩ := (contains_iff _ _).mp hin
  exact h hfamily hmem

theorem fails_four {n : Masked 32} (h : 0 < n.ones) :
    (four n).contains ((four n).address (2 ^ (32 - n.ones))) = false := by
  rw [address_four]
  refine not_contains fun _ hmem => ?_
  have hnumber : (IP.four (n.base + BitVec.ofNat 32 (2 ^ (32 - n.ones)))).number =
      (n.base.toNat + 2 ^ (32 - n.ones)) % 2 ^ 32 := toNat_add_ofNat ..
  rw [hnumber, Block.mem_def, (block_four n).1, (block_four n).2] at hmem
  exact not_mem_wrapped n h hmem

theorem fails_mapped {n : Masked 128} {b : BitVec 32} (hbase : (IP.sixteen n.base).to4 = some b) :
    (sixteen n).contains ((sixteen n).address (2 ^ (128 - n.ones))) = false := by
  have hb := to4_sixteen.mp hbase
  have hfit := block_end (sixteen n) (IP.number_four hbase).1
  have hstart : (sixteen n).block.base = b.toNat := by
    rw [block_base, base, (IP.number_four hbase).2]
  have hsize : (sixteen n).block.size = 2 ^ (128 - n.ones) := block_size _
  rw [address_sixteen]
  refine not_contains fun hfamily hmem => ?_
  have htoNat : (n.base + BitVec.ofNat 128 (2 ^ (128 - n.ones))).toNat =
      0xffff * 2 ^ 32 + (b.toNat + 2 ^ (128 - n.ones)) := by
    rw [toNat_add_ofNat, Nat.mod_eq_of_lt (by omega), hb, Nat.add_assoc]
  cases hto4 : (IP.sixteen (n.base + BitVec.ofNat 128 (2 ^ (128 - n.ones)))).to4 with
  | none =>
    rw [(IP.number_sixteen hto4).1, family, base, (IP.number_four hbase).1] at hfamily
    cases hfamily
  | some x =>
    have hx := to4_sixteen.mp hto4
    rw [(IP.number_four hto4).2, Block.mem_def, hstart, hsize] at hmem
    omega

theorem fails_wide {n : Masked 128} (hbase : (IP.sixteen n.base).to4 = none) :
    ∃ m ≤ 2 ^ 128, (sixteen n).contains ((sixteen n).address m) = false := by
  have hv6 : (sixteen n).family = .v6 := (IP.number_sixteen hbase).1
  rcases Nat.eq_zero_or_pos n.ones with hzero | hpos
  · -- the block of everything starts at zero and stops at the first address in IPv4 form
    have hstart : n.base.toNat = 0 := by
      have hend := Masked.base_add_le n
      rw [hzero] at hend
      omega
    refine ⟨0xffff * 2 ^ 32, by omega, ?_⟩
    refine not_contains fun hfamily _ => ?_
    have hto4 : ((sixteen n).address (0xffff * 2 ^ 32)).to4 = some 0 := by
      rw [address_sixteen, to4_sixteen, toNat_add_ofNat, hstart]
      rfl
    rw [(IP.number_four hto4).1, hv6] at hfamily
    cases hfamily
  · refine ⟨2 ^ (128 - n.ones), Nat.pow_le_pow_right (by decide) (by omega), ?_⟩
    rw [address_sixteen]
    refine not_contains fun hfamily hmem => ?_
    cases hto4 : (IP.sixteen (n.base + BitVec.ofNat 128 (2 ^ (128 - n.ones)))).to4 with
    | some x =>
      rw [(IP.number_four hto4).1, hv6] at hfamily
      cases hfamily
    | none =>
      rw [(IP.number_sixteen hto4).2, toNat_add_ofNat, Block.mem_def, block_base, base,
        (IP.number_sixteen hbase).2, block_size] at hmem
      exact not_mem_wrapped n hpos hmem

/-- The loop ends on every block but that of all IPv4 addresses. -/
theorem stops (h : ¬ net.AllIPv4) : ∃ n ≤ 2 ^ net.bits, Stops net.contains IP.incIP net.base n := by
  have hfails : ∃ m ≤ 2 ^ net.bits, net.contains (net.address m) = false := by
    cases net with
    | four n =>
      exact ⟨2 ^ (32 - n.ones), Nat.pow_le_pow_right (by decide) (Nat.sub_le 32 n.ones),
        fails_four (Nat.pos_of_ne_zero h)⟩
    | sixteen n =>
      cases hbase : (IP.sixteen n.base).to4 with
      | some b =>
        exact ⟨2 ^ (128 - n.ones), Nat.pow_le_pow_right (by decide) (Nat.sub_le 128 n.ones),
          fails_mapped hbase⟩
      | none => exact fails_wide hbase
  obtain ⟨m, hm, hfail⟩ := hfails
  obtain ⟨n, hn, hstops⟩ := exists_stops hfail
  exact ⟨n, Nat.le_trans hn hm, hstops⟩

theorem always_allIPv4 (h : net.AllIPv4) (i : Nat) : net.contains (net.address i) = true := by
  cases net with
  | sixteen n => exact h.elim
  | four n =>
    have hones : n.ones = 0 := h
    have hend := Masked.base_add_le n
    rw [contains_iff, address_four]
    refine ⟨rfl, ?_⟩
    rw [Block.mem_def, (block_four n).1, (block_four n).2, hones]
    rw [hones] at hend
    show n.base.toNat ≤ (n.base + BitVec.ofNat 32 i).toNat ∧
      (n.base + BitVec.ofNat 32 i).toNat < n.base.toNat + 2 ^ (32 - 0)
    omega

/-- A block that loses its ends has at least four addresses. -/
theorem two_lt_of_trimmed (htrim : net.bits = 32 ∧ net.ones < 31) {n : Nat}
    (hstops : Stops net.contains IP.incIP net.base n) : 2 < n := by
  refine hstops.lt ?_
  intro i hi
  cases net with
  | sixteen m => exact absurd (show 128 = 32 from htrim.1) (by decide)
  | four m =>
    refine contains_address ?_ (fun hv6 => by cases hv6)
    have hones : m.ones < 31 := htrim.2
    have hsize : 2 ^ 2 ≤ 2 ^ (32 - m.ones) := Nat.pow_le_pow_right (by decide) (by omega)
    rw [(block_four m).2]
    omega

/-- The loop over a block ends with at least one address, all of them in the block; of an
address in the middle of the block it misses none. -/
theorem enumerateCIDR_spec (h : ¬ net.AllIPv4) :
    ∃ ips, enumerateCIDR net = some ips ∧ ips ≠ [] ∧ (∀ ip ∈ ips, net.contains ip = true) ∧
      ∀ i, net.ones ≠ net.bits → 0 < i → (∀ j ≤ i + 1, net.contains (net.address j) = true) →
        net.address i ∈ ips := by
  have hbase : net.contains net.base = true := by
    rw [contains_iff]
    exact ⟨rfl, block_base net ▸ net.block.base_mem⟩
  unfold enumerateCIDR
  by_cases hsingle : net.ones = net.bits
  · rw [if_pos hsingle]
    exact ⟨[net.base], rfl, by simp, by simpa using hbase, fun i hne => absurd hsingle hne⟩
  · obtain ⟨n, hn, hstops⟩ := stops h
    rw [if_neg hsingle, collectWhile_of_stops hstops (Nat.lt_succ_of_le hn), Option.map_some]
    have hall : ∀ ip ∈ (range n).map (fun i => IP.incIP^[i] net.base),
        net.contains ip = true := by
      intro ip hip
      obtain ⟨i, hi, rfl⟩ := mem_map.mp hip
      exact hstops.holds i (mem_range.mp hi)
    by_cases htrim : net.bits = 32 ∧ net.ones < 31
    · rw [if_pos htrim]
      refine ⟨_, rfl, ?_, ?_, ?_⟩
      · have hfour := two_lt_of_trimmed htrim hstops
        apply ne_nil_of_length_pos
        simp only [length_dropLast, length_tail, length_map, length_range]
        omega
      · intro ip hip
        exact hall ip (mem_of_mem_tail (dropLast_subset _ hip))
      · intro i _ hpos hmid
        have hlt := hstops.lt hmid
        refine mem_iff_getElem?.mpr ⟨i - 1, ?_⟩
        have hi : i - 1 + 1 = i := by omega
        rw [getElem?_dropLast, if_pos (by simp; omega), getElem?_tail, hi,
          getElem?_map, getElem?_range (by omega)]
        rfl
    · rw [if_neg htrim]
      refine ⟨_, rfl, ?_, hall, ?_⟩
      · have hone : 0 < n := hstops.lt fun i hi => by
          rw [Nat.le_zero.mp hi]
          exact hbase
        apply ne_nil_of_length_pos
        simpa using hone
      · intro i _ _ hmid
        have hlt := hstops.lt hmid
        exact mem_map.mpr ⟨i, mem_range.mpr (by omega), rfl⟩

theorem enumerateCIDR_allIPv4 (h : net.AllIPv4) : enumerateCIDR net = none := by
  have hne : net.ones ≠ net.bits := by
    cases net with
    | four n =>
      have hones : n.ones = 0 := h
      show n.ones ≠ 32
      omega
    | sixteen n => exact h.elim
  rw [enumerateCIDR, if_neg hne, collectWhile_of_always (always_allIPv4 h), Option.map_none]

theorem enumerateCIDR_returns (net : IPNet) :
    (∃ ips, enumerateCIDR net = some ips) ↔ ¬ net.AllIPv4 := by
  constructor
  · rintro ⟨ips, h⟩ hall
    rw [enumerateCIDR_allIPv4 hall] at h
    cases h
  · intro hsome
    obtain ⟨ips, h, -⟩ := enumerateCIDR_spec hsome
    exact ⟨ips, h⟩

theorem enumerateCIDR_some {ips : List IP} (h : enumerateCIDR net = some ips) :
    ips ≠ [] ∧ (∀ ip ∈ ips, net.contains ip = true) ∧
      ∀ i, net.ones ≠ net.bits → 0 < i → (∀ j ≤ i + 1, net.contains (net.address j) = true) →
        net.address i ∈ ips := by
  obtain ⟨ips', h', hspec⟩ := enumerateCIDR_spec ((enumerateCIDR_returns net).mp ⟨ips, h⟩)
  rw [h, Option.some.injEq] at h'
  exact h' ▸ hspec

/-! ## Blocks around the link-local addresses -/

theorem reserved_linkLocal (f : Family) : Reserved f (linkLocal f) := by
  cases f with
  | v4 => exact .inr (.inr (.inl (by decide)))
  | v6 => exact .inr (.inr (.inl (by decide)))

/-- The network contains the first link-local address. -/
def CoversLinkLocal (net : IPNet) : Prop :=
  net.contains (.four (BitVec.ofNat 32 linkLocal4)) = true ∨
    net.contains (.sixteen (BitVec.ofNat 128 linkLocal6)) = true

instance (net : IPNet) : Decidable net.CoversLinkLocal := inferInstanceAs (Decidable (_ ∨ _))

theorem coversLinkLocal_iff (net : IPNet) :
    net.CoversLinkLocal ↔ linkLocal net.family ∈ net.block := by
  have h4 : (IP.four (BitVec.ofNat 32 linkLocal4)).family = .v4 ∧
      (IP.four (BitVec.ofNat 32 linkLocal4)).number = linkLocal4 := by decide
  have h6 : (IP.sixteen (BitVec.ofNat 128 linkLocal6)).family = .v6 ∧
      (IP.sixteen (BitVec.ofNat 128 linkLocal6)).number = linkLocal6 := by decide
  rw [CoversLinkLocal, contains_iff, contains_iff, h4.1, h4.2, h6.1, h6.2]
  cases net.family <;> simp [linkLocal]

/-- A block around the link-local addresses reaches them before it ends. -/
theorem linkLocal_inside (hfree : net.EndsFree) (hcover : linkLocal net.family ∈ net.block) :
    ∃ i, 0 < i ∧ net.block.base + i = linkLocal net.family ∧ i + 1 < net.block.size := by
  obtain ⟨hbase, hlast⟩ := ends_not_reserved hfree
  have hres := reserved_linkLocal net.family
  have hne : net.block.base ≠ linkLocal net.family := fun h => hbase (h ▸ hres)
  have hne' : net.block.last ≠ linkLocal net.family := fun h => hlast (h ▸ hres)
  have hle := Block.le_last hcover
  rw [Block.last] at hne' hle
  have hlow := hcover.1
  exact ⟨linkLocal net.family - net.block.base, by omega, by omega, by omega⟩

/-- On the way there it meets no address in IPv4 form. -/
theorem linkLocal_form (hfree : net.EndsFree) (hv6 : net.family = .v6)
    (hi : net.block.base + i = linkLocal net.family) (hsize : i + 1 < net.block.size) (j : Nat) :
    (net.block.base + j) / 2 ^ 32 ≠ 0xffff := by
  intro hform
  obtain ⟨hbase, -⟩ := ends_not_reserved hfree
  rw [hv6] at hbase hi
  have hlarge : linkLocal .v6 = 0x3fa * 2 ^ 118 := rfl
  have hsmall : net.block.base < net.block.size := by omega
  have hzero : net.block.base = 0 := Nat.eq_zero_of_dvd_of_lt net.block.aligned hsmall
  exact hbase (.inl hzero)

theorem cidr_unreserved_iff (hfree : net.EndsFree) {ips : List IP}
    (h : enumerateCIDR net = some ips) :
    (∀ ip ∈ ips, reservedClass ip = none) ↔ ¬ net.CoversLinkLocal := by
  obtain ⟨-, hin, hmid⟩ := enumerateCIDR_some h
  rw [coversLinkLocal_iff]
  constructor
  · intro hclean hcover
    obtain ⟨i, hpos, hi, hsize⟩ := linkLocal_inside hfree hcover
    have hform : ∀ j, net.family = .v6 → (net.block.base + j) / 2 ^ 32 ≠ 0xffff :=
      fun j hv6 => linkLocal_form hfree hv6 hi hsize j
    have hbits : net.ones ≠ net.bits := by
      intro heq
      rw [block_size, heq, Nat.sub_self] at hsize
      omega
    have hmem := hmid i hbits hpos fun j hj =>
      contains_address (Nat.lt_of_le_of_lt hj hsize) (hform j)
    have hunreserved := not_reserved (hclean _ hmem)
    obtain ⟨hfamily, hnumber⟩ := address_number (Nat.lt_of_succ_lt hsize) (hform i)
    rw [hfamily, hnumber, hi] at hunreserved
    exact hunreserved (reserved_linkLocal net.family)
  · intro hcover ip hip
    by_contra hne
    obtain ⟨hfamily, hmem⟩ := (contains_iff net ip).mp (hin ip hip)
    have hreserved := (reservedClass_iff ip).mp hne
    rw [hfamily] at hreserved
    exact hcover (reserved_block hfree hmem hreserved)

end IPNet

end Steward.Targets
