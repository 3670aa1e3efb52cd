import Steward.TargetAgreement

/-!
# The agent at the top of the address space

The loop over a block of one or two addresses counts past the last of them. For
the block that ends at 255.255.255.255 the count does not fit into 32 bits; every
other target list is answered by an error or by addresses in ascending order.
-/

namespace Steward.AgentTargets

open Fallible Targets Res

variable {lib : Ipv4NetLib} {allow : Bool} {part : String}

/-! ## Parts -/

theorem pushIfAllowed_returns (ip : BitVec 32) : (pushIfAllowed allow part ip).Returns := by
  unfold pushIfAllowed
  split <;> trivial

theorem pushEach_returns (ips : List (BitVec 32)) : (pushEach allow part ips).Returns := by
  induction ips with
  | nil => trivial
  | cons ip rest ih =>
    exact (pushIfAllowed_returns ip).bind fun first => ih.bind fun more => trivial

theorem countUp_returns {last : Nat} (hlast : last + 1 < 2 ^ 32) (fuel : Nat) {n : Nat}
    (hfuel : last + 1 - n < fuel) : (countUp allow part last fuel n).Returns := by
  induction fuel generalizing n with
  | zero => omega
  | succ fuel ih =>
    unfold countUp
    split
    · next hle =>
      refine (pushIfAllowed_returns _).bind fun first => ?_
      rw [checkedAdd_fits (by omega), ok_bind]
      exact (ih (by omega)).bind fun more => trivial
    · trivial

theorem countUp_top_returns (fuel : Nat) {n : Nat} (hn : n ≤ 0xffffffff) :
    ¬ (countUp true part 0xffffffff fuel n).Returns := by
  induction fuel generalizing n with
  | zero => exact id
  | succ fuel ih =>
    unfold countUp
    rw [if_pos hn, pushIfAllowed_ok (.inl rfl), ok_bind, returns_bind]
    rintro ⟨hadd, hrest⟩
    by_cases htop : n = 0xffffffff
    · subst htop
      exact hadd
    · exact ih (n := n + 1) (by omega) (returns_bind.mp (hrest _ (if_pos (by omega)))).1

/-- The block of the part is the one or two addresses at the top, and they may be scanned. -/
def countsPastTop (lib : Ipv4NetLib) (allow : Bool) (part : String) : Bool :=
  allow && (lib.parse part).any fun net => 31 ≤ net.ones && net.block.last = 0xffffffff

theorem expandNet_returns_iff {net : Masked 32} :
    (expandNet lib allow part net).Returns ↔
      ¬ (allow = true ∧ 31 ≤ net.ones ∧ net.block.last = 0xffffffff) := by
  unfold expandNet
  split
  · next hones => exact iff_of_true trivial fun h => by omega
  rw [returns_bind, and_iff_right (pushEach_returns _)]
  by_cases hsmall : net.ones ≥ 31
  case neg => simp [hsmall]
  simp only [if_pos hsmall, returns_bind, pure_eq, returns_ok, implies_true, and_true]
  have hbase : net.base.toNat ≤ net.block.last := net.block.le_last net.block.base_mem
  have hsize := small_count hsmall
  by_cases htop : net.block.last = 0xffffffff
  · cases allow with
    | true =>
      have hok : pushEach true part (lib.hosts net) = .ok (lib.hosts net) :=
        pushEach_ok fun _ _ => .inl rfl
      simp only [hok, ok.injEq, forall_eq', htop, hsmall, and_self, not_true, iff_false]
      exact countUp_top_returns 3 (by omega)
    | false =>
      -- the addresses at the top are reserved, so that the loop ends at the first of them
      refine iff_of_true (fun _ _ => ?_) (by simp)
      have hres : isReserved net.base = true :=
        (isReserved_iff _).mpr (.inr (.inr (.inr (by omega))))
      rw [countUp, if_pos hbase, pushIfAllowed, if_pos (by simpa using hres)]
      trivial
  · exact iff_of_true (fun _ _ => countUp_returns (by have := last_lt net; omega) 3 hsize)
      (by simp [htop])

/-- Only the block at the top is not answered. -/
theorem expandPart_returns_iff :
    (expandPart lib allow part).Returns ↔ countsPastTop lib allow part = false := by
  unfold expandPart countsPastTop
  split
  · next net hnet => simp [hnet, expandNet_returns_iff]
  · next hnet =>
    refine iff_of_true ?_ (by simp [hnet])
    split
    · split
      · trivial
      · split
        · trivial
        · unfold expandRange
          split
          · trivial
          · split
            · trivial
            · exact pushEach_returns _
    · split
      · trivial
      · exact pushIfAllowed_returns _

/-! ## Lists -/

/-- Some part counts past the top, and the parts before it are expanded. -/
inductive ReachesTop (lib : Ipv4NetLib) (allow : Bool) : List String → Prop
  | here {part : String} {rest : List String} (h : countsPastTop lib allow part = true) :
    ReachesTop lib allow (part :: rest)
  | later {part : String} {rest : List String} {out : List (BitVec 32)}
    (hok : expandPart lib allow part = .ok out) (h : ReachesTop lib allow rest) :
    ReachesTop lib allow (part :: rest)

theorem expandEach_returns_iff (parts : List String) :
    (expandEach lib allow parts).Returns ↔ ¬ ReachesTop lib allow parts := by
  induction parts with
  | nil => exact iff_of_true trivial fun h => by cases h
  | cons part rest ih =>
    rw [expandEach, returns_bind, expandPart_returns_iff]
    constructor
    · rintro ⟨hp, hrest⟩ h
      cases h with
      | here h => exact absurd (hp.symm.trans h) (by decide)
      | later hok h => exact ih.mp (returns_bind.mp (hrest _ hok)).1 h
    · intro h
      refine ⟨Bool.eq_false_iff.mpr fun hp => h (.here hp), fun first hok => ?_⟩
      exact (ih.mpr fun hr => h (.later hok hr)).bind fun _ => trivial

theorem dedup_increasing {ips : List (BitVec 32)} (h : ips.Pairwise fun a b => a.toNat ≤ b.toNat) :
    (dedup ips).Pairwise fun a b => a.toNat < b.toNat := by
  fun_induction dedup ips with
  | case1 => exact .nil
  | case2 a => exact List.pairwise_singleton _ a
  | case3 a rest ih => exact ih h.of_cons
  | case4 a b rest hne ih =>
    refine List.pairwise_cons.mpr ⟨fun x hx => ?_, ih h.of_cons⟩
    obtain ⟨hhead, htail⟩ := List.pairwise_cons.mp h
    have hab : a.toNat < b.toNat :=
      Nat.lt_of_le_of_ne (hhead b (by simp)) fun heq => hne (BitVec.eq_of_toNat_eq heq)
    rcases List.mem_cons.mp (mem_dedup.mp hx) with rfl | hx
    · exact hab
    · exact Nat.lt_of_lt_of_le hab ((List.pairwise_cons.mp htail).1 x hx)

/-- Whatever the library reads and lists as hosts, the expansion of a target list returns, with
ascending addresses if it succeeds, exactly when no block at the top of the address space is
reached. -/
theorem expansion_returns_iff (lib : Ipv4NetLib) (allow : Bool) (spec : String) :
    ((expandTargets lib allow spec).Returns ∧ ∀ out, expandTargets lib allow spec = .ok out →
      out.Pairwise fun a b => a.toNat < b.toNat) ↔
        ¬ ReachesTop lib allow (named (Text.split spec ',')) := by
  rw [← expandEach_returns_iff, ← expandParts_eq, expandTargets, returns_bind]
  refine ⟨fun h => h.1.1, fun h => ⟨⟨h, fun _ _ => trivial⟩, fun out hout => ?_⟩⟩
  obtain ⟨all, -, hall⟩ := bind_eq_ok.mp hout
  cases hall
  exact dedup_increasing (List.pairwise_insertionSort _ all)

/-- The last address as a block. -/
theorem last_address_overflows :
    expandTargets sampleLib true "255.255.255.255/32" = .panic .overflow ∧
      expandTargets sampleLib false "255.255.255.255/32" =
        .err (.reservedRange "255.255.255.255 (in 255.255.255.255/32)") := by
  decide +kernel

end Steward.AgentTargets
