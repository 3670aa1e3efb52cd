import Steward.TargetBlocks

/-!
# Validation and expansion of target lists

The addresses a target list expands to are free of reserved ones exactly when no
block of the list lies around the link-local addresses. A list that passes the
validation expands, except when it names no target at all, a range beyond the limit
or the block of all IPv4 addresses.
-/

namespace Steward.Targets

open Blocks Text List

/-! ## Ranges -/

variable {last : BitVec 32}

theorem rangeLoop_eq {fuel : Nat} {cur : BitVec 32} (hle : cur.toNat ≤ last.toNat)
    (hfuel : last.toNat - cur.toNat < fuel) :
    rangeLoop last fuel cur =
      (range' cur.toNat (last.toNat - cur.toNat + 1)).map fun n => .four (BitVec.ofNat 32 n) := by
  induction fuel generalizing cur with
  | zero => omega
  | succ fuel ih =>
    rw [rangeLoop, if_pos hle, range'_succ, map_cons, BitVec.ofNat_toNat, BitVec.setWidth_eq]
    split
    · next heq => simp [heq]
    · next hne =>
      have hlt : cur.toNat < last.toNat :=
        Nat.lt_of_le_of_ne hle fun h => hne (BitVec.eq_of_toNat_eq h)
      have hnext : (cur + 1).toNat = cur.toNat + 1 := by
        exact Nat.mod_eq_of_lt (by simp; omega)
      rw [ih (by omega) (by omega), hnext, show last.toNat - cur.toNat =
        last.toNat - (cur.toNat + 1) + 1 by omega]

variable {first : BitVec 32}

theorem enumerateRange_eq (hle : first.toNat ≤ last.toNat) :
    enumerateRange first last =
      if maxRangeIPs < last.toNat - first.toNat + 1 then
        .error (.targetRangeTooLarge (last.toNat - first.toNat + 1))
      else .ok ((range' first.toNat (last.toNat - first.toNat + 1)).map fun n =>
        .four (BitVec.ofNat 32 n)) := by
  rw [enumerateRange, rangeLoop_eq hle (Nat.lt_succ_self _)]

theorem enumerateRange_ok {ips : List IP} (h : enumerateRange first last = .ok ips)
    (hle : first.toNat ≤ last.toNat) :
    last.toNat - first.toNat < maxRangeIPs ∧ ips ≠ [] ∧
      ∀ ip ∈ ips, ∃ x, ip = .four x ∧ first.toNat ≤ x.toNat ∧ x.toNat ≤ last.toNat := by
  rw [enumerateRange_eq hle] at h
  split at h
  · cases h
  · cases h
    refine ⟨by omega, by simp [range'_succ], ?_⟩
    simp only [mem_map, mem_range'_1]
    rintro _ ⟨n, hn, rfl⟩
    have hlast := last.isLt
    refine ⟨_, rfl, ?_⟩
    rw [BitVec.toNat_ofNat, Nat.mod_eq_of_lt (by omega)]
    omega

theorem rangeBounds_le {P : NetParser} {s : String} (h : rangeBounds P s = .ok (first, last)) :
    first.toNat ≤ last.toNat := by
  unfold rangeBounds at h
  split at h
  · cases h
  split at h
  · cases h
  split at h
  · cases h
  split at h
  · cases h
  · split at h
    · cases h
      omega
    · cases h
      omega

/-- A range within the limit whose ends are not reserved has no reserved address: the reserved
blocks inside the address space are larger. -/
theorem range_unreserved {first last x : Nat} (hfirst : ¬ Reserved4 first)
    (hlast : ¬ Reserved4 last) (hcount : last - first < maxRangeIPs) (hlow : first ≤ x)
    (hhigh : x ≤ last) : ¬ Reserved4 x := by
  unfold Reserved4 maxRangeIPs at *
  omega

/-! ### The loop over bytes -/

/-- The bytes of an IPv4 address, the highest first. -/
structure Octets where
  (a b c d : BitVec 8)

namespace Octets

def value (o : Octets) : BitVec 32 := o.a ++ o.b ++ o.c ++ o.d

/-- The loop of `incIP`, from the last byte on. -/
def incIP : Octets → Octets
  | ⟨a, b, c, d⟩ =>
    if d + 1 > 0 then ⟨a, b, c, d + 1⟩
    else if c + 1 > 0 then ⟨a, b, c + 1, d + 1⟩
    else if b + 1 > 0 then ⟨a, b + 1, c + 1, d + 1⟩
    else ⟨a + 1, b + 1, c + 1, d + 1⟩

end Octets

section Parts

variable {P : NetParser} {t : String}

theorem checkReserved_ok {first : IP} {last : Option IP} :
    checkReserved t first last = .ok () ↔
      reservedClass first = none ∧ ∀ l ∈ last, reservedClass l = none := by
  unfold checkReserved
  cases hfirst : reservedClass first with
  | some c => simp
  | none =>
    cases last with
    | none => simp
    | some l => cases hlast : reservedClass l <;> simp [hlast]

theorem not_reserved4 {x : BitVec 32} (h : reservedClass (.four x) = none) :
    ¬ Reserved4 x.toNat :=
  fun hr => (reservedClass_four (show (IP.four x).to4 = some x from rfl)).mpr hr h

/-- The three ways in which a part expands. -/
inductive Expanded (P : NetParser) (t : String) (allow : Bool) (ips : List IP) : Prop
  | block (net : IPNet) (hcidr : P.parseCIDR t = some net) (hfree : allow = false → net.EndsFree)
    (h : enumerateCIDR net = some ips)
  | single (ip : BitVec 128) (hcidr : P.parseCIDR t = none)
    (hfree : allow = false → reservedClass (.sixteen ip) = none) (h : ips = [.sixteen ip])
  | range (first last : BitVec 32) (hcidr : P.parseCIDR t = none)
    (hfree : allow = false → reservedClass (.four first) = none ∧ reservedClass (.four last) = none)
    (hle : first.toNat ≤ last.toNat) (h : enumerateRange first last = .ok ips)

variable {ips : List IP} {allow : Bool}

theorem expandSingle_expanded (h : expandSingle P t allow = some (.ok ips)) :
    Expanded P t allow ips := by
  unfold expandSingle at h
  cases hcidr : P.parseCIDR t with
  | some net =>
    simp only [hcidr] at h
    split at h
    case h_1 => cases h
    case h_2 hcheck =>
      simp only [Option.map_eq_some_iff, Except.ok.injEq, exists_eq_right] at h
      refine .block net hcidr ?_ h
      rintro rfl
      exact checkReserved_ok.mp hcheck
  | none =>
    simp only [hcidr] at h
    cases hip : P.parseIP t with
    | some ip =>
      simp only [hip] at h
      cases allow with
      | true => exact .single ip hcidr (fun hfalse => nomatch hfalse) (by simpa using h.symm)
      | false =>
        cases hclass : reservedClass (.sixteen ip) with
        | some c => simp [hclass] at h
        | none => exact .single ip hcidr (fun _ => hclass) (by simpa [hclass] using h.symm)
    | none =>
      simp only [hip] at h
      by_cases hdash : contains t "-"
      · rw [if_pos hdash] at h
        cases hrange : rangeBounds P t with
        | error e => simp [hrange] at h
        | ok bounds =>
          obtain ⟨first, last⟩ := bounds
          simp only [hrange] at h
          split at h
          case h_1 => cases h
          case h_2 hcheck =>
            refine .range first last hcidr ?_ (rangeBounds_le hrange) (Option.some.inj h)
            rintro rfl
            have hends : checkReserved t (.four first) (some (.four last)) = .ok () := hcheck
            obtain ⟨hfirst, hlast⟩ := checkReserved_ok.mp hends
            exact ⟨hfirst, hlast _ rfl⟩
      · simp [hdash] at h

/-- A part is expanded to unreserved addresses unless it is a block around the link-local
addresses. -/
theorem expandSingle_unreserved (h : expandSingle P t false = some (.ok ips)) :
    (∀ ip ∈ ips, reservedClass ip = none) ↔
      ∀ net ∈ P.parseCIDR t, ¬ net.CoversLinkLocal := by
  cases expandSingle_expanded h with
  | block net hcidr hfree h => simp [hcidr, IPNet.cidr_unreserved_iff (hfree rfl) h]
  | single ip hcidr hfree h => simp [hcidr, h, hfree rfl]
  | range first last hcidr hfree hle h =>
    obtain ⟨hcount, -, hall⟩ := enumerateRange_ok h hle
    obtain ⟨hfirst, hlast⟩ := hfree rfl
    refine iff_of_true ?_ (by simp [hcidr])
    intro ip hip
    obtain ⟨x, rfl, hlow, hhigh⟩ := hall ip hip
    by_contra hne
    have hreserved := (reservedClass_four (show (IP.four x).to4 = some x from rfl)).mp hne
    exact range_unreserved (not_reserved4 hfirst) (not_reserved4 hlast) hcount hlow hhigh hreserved

theorem expandSingle_nonempty (h : expandSingle P t allow = some (.ok ips)) : ips ≠ [] := by
  cases expandSingle_expanded h with
  | block net _ _ h => exact (IPNet.enumerateCIDR_some h).1
  | single ip _ _ h => simp [h]
  | range first last _ _ hle h => exact (enumerateRange_ok h hle).2.1

/-- What validation does not look at: the length of a range and the block without an end. -/
def withinLimits (P : NetParser) (t : String) : Bool :=
  match P.parseCIDR t with
  | some net => !decide net.AllIPv4
  | none =>
    match P.parseIP t with
    | some _ => true
    | none =>
      match rangeBounds P t with
      | .ok (first, last) => last.toNat - first.toNat < maxRangeIPs
      | .error _ => true

/-- A part expands exactly when it passes validation and is within the limits. -/
theorem expandSingle_iff (P : NetParser) (t : String) (allow : Bool) :
    (∃ ips, expandSingle P t allow = some (.ok ips)) ↔
      validatePart P t allow = .ok () ∧ withinLimits P t = true := by
  unfold expandSingle validatePart withinLimits
  cases hcidr : P.parseCIDR t with
  | some net =>
    simp only
    generalize (if allow = true then Except.ok () else
      checkReserved t net.base net.lastAddress) = check
    cases check with
    | error e => simp
    | ok u => simpa [Option.map_eq_some_iff] using net.enumerateCIDR_returns
  | none =>
    cases hip : P.parseIP t with
    | some ip =>
      simp only
      cases allow with
      | true => simp
      | false => cases hclass : reservedClass (.sixteen ip) <;> simp
    | none =>
      by_cases hdash : contains t "-"
      · simp only [hdash, if_true]
        cases hrange : rangeBounds P t with
        | error e => simp
        | ok bounds =>
          obtain ⟨first, last⟩ := bounds
          simp only
          generalize (if allow = true then Except.ok () else
            checkReserved t (.four first) (some (.four last))) = check
          cases check with
          | error e => simp
          | ok u =>
            simp only [enumerateRange]
            split <;> simp <;> omega
      · simp [hdash]

end Parts

/-! ## Lists of parts -/

variable (raw : List String)

def named : List String := (raw.map Text.trimSpace).filter fun part => part ≠ ""

/-- The targets that a list names. -/
def parts (targets : String) : List String := named (Text.split (Text.trimSpace targets) ',')

section Lists

variable {P : NetParser} {allow : Bool}

@[simp] theorem named_nil : named [] = [] := rfl

variable {part : String} {rest : List String} {ips : List IP}

theorem named_cons_empty (h : trimSpace part = "") : named (part :: rest) = named rest := by
  simp [named, h]

theorem named_cons (h : trimSpace part ≠ "") :
    named (part :: rest) = trimSpace part :: named rest := by
  simp [named, h]

theorem validateParts_ok : validateParts P allow raw = .ok () ↔
    ∀ part ∈ named raw, validatePart P part allow = .ok () := by
  induction raw with
  | nil => simp [validateParts]
  | cons part rest ih =>
    by_cases hempty : trimSpace part = ""
    · rw [named_cons_empty hempty, validateParts, if_pos hempty, ih]
    · rw [named_cons hempty, validateParts, if_neg hempty, forall_mem_cons, ← ih]
      cases validatePart P (trimSpace part) allow <;> simp

theorem expandParts_cons (h : trimSpace part ≠ "") :
    expandParts P allow (part :: rest) = some (.ok ips) ↔
      ∃ first more, expandSingle P (trimSpace part) allow = some (.ok first) ∧
        expandParts P allow rest = some (.ok more) ∧ ips = first ++ more := by
  rw [expandParts, if_neg h]
  cases hsingle : expandSingle P (trimSpace part) allow with
  | none => simp
  | some outcome =>
    cases outcome with
    | error e => simp
    | ok first =>
      cases hrest : expandParts P allow rest with
      | none => simp
      | some outcome =>
        cases outcome with
        | error e => simp
        | ok more => simp [eq_comm]

theorem expandParts_iff : (∃ ips, expandParts P allow raw = some (.ok ips)) ↔
    ∀ part ∈ named raw, ∃ ips, expandSingle P part allow = some (.ok ips) := by
  induction raw with
  | nil => simp [expandParts]
  | cons part rest ih =>
    by_cases hempty : trimSpace part = ""
    · rw [named_cons_empty hempty, expandParts, if_pos hempty, ih]
    · rw [named_cons hempty, forall_mem_cons, ← ih]
      simp only [expandParts_cons hempty]
      constructor
      · rintro ⟨ips, first, more, hfirst, hmore, -⟩
        exact ⟨⟨first, hfirst⟩, more, hmore⟩
      · rintro ⟨⟨first, hfirst⟩, more, hmore⟩
        exact ⟨first ++ more, first, more, hfirst, hmore, rfl⟩

variable {raw : List String}

theorem expandParts_nonempty (h : expandParts P allow raw = some (.ok ips)) :
    ips ≠ [] ↔ named raw ≠ [] := by
  induction raw generalizing ips with
  | nil =>
    cases h
    simp
  | cons part rest ih =>
    by_cases hempty : trimSpace part = ""
    · rw [expandParts, if_pos hempty] at h
      rw [named_cons_empty hempty, ih h]
    · obtain ⟨first, more, hfirst, -, rfl⟩ := (expandParts_cons hempty).mp h
      rw [named_cons hempty]
      simp [expandSingle_nonempty hfirst]

theorem expandParts_unreserved (h : expandParts P false raw = some (.ok ips)) :
    (∀ ip ∈ ips, reservedClass ip = none) ↔
      ∀ part ∈ named raw, ∀ net ∈ P.parseCIDR part, ¬ net.CoversLinkLocal := by
  induction raw generalizing ips with
  | nil =>
    cases h
    simp
  | cons part rest ih =>
    by_cases hempty : trimSpace part = ""
    · rw [expandParts, if_pos hempty] at h
      rw [named_cons_empty hempty, ih h]
    · obtain ⟨first, more, hfirst, hmore, rfl⟩ := (expandParts_cons hempty).mp h
      rw [named_cons hempty, forall_mem_cons, ← ih hmore, ← expandSingle_unreserved hfirst,
        forall_mem_append]

theorem expandTargetsFor_ok {targets : String} :
    expandTargetsFor P targets allow = some (.ok ips) ↔ trimSpace targets ≠ "" ∧
      expandParts P allow (split (trimSpace targets) ',') = some (.ok ips) ∧
        ips ≠ [] := by
  unfold expandTargetsFor
  by_cases hempty : trimSpace targets = ""
  · simp [hempty]
  rw [if_neg hempty]
  by_cases hcomma : contains (trimSpace targets) ","
  · rw [if_pos hcomma]
    cases hparts : expandParts P allow (split (trimSpace targets) ',') with
    | none => simp
    | some outcome =>
      cases outcome with
      | error e => simp
      | ok found => cases found <;> simp [hempty]; rintro rfl; simp
  · rw [if_neg hcomma]
    have hno : ',' ∉ (trimSpace targets).toList :=
      fun h => hcomma ((containsChars_singleton _ _).mpr h)
    have hsplit : split (trimSpace targets) ',' = [trimSpace targets] := by
      simp [split, splitChars_of_not_mem hno]
    have htrim := trimSpace_trimSpace targets
    have hne : trimSpace (trimSpace targets) ≠ "" := by
      rw [htrim]
      exact hempty
    rw [hsplit, expandParts_cons hne, htrim]
    constructor
    · intro h
      exact ⟨hempty, ⟨ips, [], h, rfl, by simp⟩, expandSingle_nonempty h⟩
    · rintro ⟨-, ⟨first, more, hfirst, hmore, rfl⟩, -⟩
      cases hmore
      rw [append_nil]
      exact hfirst

theorem validateTargetsFor_iff (targets : String) : validateTargetsFor P targets allow = .ok () ↔
    trimSpace targets ≠ "" ∧ ∀ part ∈ parts targets, validatePart P part allow = .ok () := by
  unfold validateTargetsFor
  by_cases hempty : trimSpace targets = ""
  · simp [hempty]
  · rw [if_neg hempty, validateParts_ok]
    simp [hempty, parts]

theorem expandTargetsFor_iff (P : NetParser) (targets : String) (allow : Bool) :
    (∃ ips, expandTargetsFor P targets allow = some (.ok ips)) ↔ trimSpace targets ≠ "" ∧
      parts targets ≠ [] ∧ ∀ part ∈ parts targets,
        validatePart P part allow = .ok () ∧ withinLimits P part = true := by
  simp only [← expandSingle_iff, expandTargetsFor_ok, parts]
  rw [← expandParts_iff]
  constructor
  · rintro ⟨ips, hne, hparts, hips⟩
    exact ⟨hne, (expandParts_nonempty hparts).mp hips, ips, hparts⟩
  · rintro ⟨hne, hnamed, ips, hparts⟩
    exact ⟨ips, hne, hparts, (expandParts_nonempty hparts).mpr hnamed⟩

end Lists

/-! ## Dotted quads -/

/-- One of the four numbers of an IPv4 address; a leading zero is refused. -/
def octet (t : String) : Option Nat :=
  if 1 < t.length ∧ t.toList.head? = some '0' then none
  else (Text.digits t.toList).filter (· ≤ 255)

def parseIPv4 (s : String) : Option (BitVec 32) :=
  match (Text.split s '.').map octet with
  | [some a, some b, some c, some d] => some (BitVec.ofNat 32 (((a * 256 + b) * 256 + c) * 256 + d))
  | _ => none

def parseIPv4Net (s : String) : Option IPNet :=
  match s.toList.span (· ≠ '/') with
  | (_, []) => none
  | (address, _ :: ones) =>
    match parseIPv4 (String.ofList address), Text.digits ones with
    | some a, some n => if h : n ≤ 32 then some (.four (Masked.mask a n h)) else none
    | _, _ => none

/-- The parsers of the standard library on IPv4 texts. -/
def ipv4Parser : NetParser where
  parseIP s := (parseIPv4 s).map fun a => BitVec.ofNat 128 (0xffff * 2 ^ 32 + a.toNat)
  parseCIDR := parseIPv4Net

/-! ## Reserved addresses in an expansion -/

/-- Every address of a list that expands is free exactly when no block of the list contains the
first link-local address. -/
theorem expansion_unreserved_iff (P : NetParser) (targets : String) (ips : List IP)
    (h : expandTargetsFor P targets false = some (.ok ips)) :
    (∀ ip ∈ ips, reservedClass ip = none) ↔
      ∀ part ∈ parts targets, ∀ net ∈ P.parseCIDR part, ¬ net.CoversLinkLocal :=
  expandParts_unreserved (expandTargetsFor_ok.mp h).2.1

theorem subnet_unreserved :
    expandTargetsFor ipv4Parser "10.0.0.0/30, 192.168.1.5" false =
        some (.ok [.four 0x0a000001, .four 0x0a000002, .sixteen 0xffffc0a80105]) ∧
      ∀ ip ∈ [IP.four 0x0a000001, .four 0x0a000002, .sixteen 0xffffc0a80105],
        reservedClass ip = none := by
  have h : expandTargetsFor ipv4Parser "10.0.0.0/30, 192.168.1.5" false =
      some (.ok [.four 0x0a000001, .four 0x0a000002, .sixteen 0xffffc0a80105]) := by
    decide +kernel
  exact ⟨h, (expansion_unreserved_iff ipv4Parser _ _ h).mpr (by decide +kernel)⟩

/-- The ends of this block are ordinary addresses, its middle is link-local. -/
theorem linkLocal_expanded : ∃ ips,
    expandTargetsFor ipv4Parser "169.252.0.0/14" false = some (.ok ips) ∧
      ¬ ∀ ip ∈ ips, reservedClass ip = none := by
  obtain ⟨ips, h⟩ := (expandTargetsFor_iff ipv4Parser "169.252.0.0/14" false).mpr
    (by decide +kernel)
  refine ⟨ips, h, fun hall => ?_⟩
  exact absurd ((expandParts_unreserved (expandTargetsFor_ok.mp h).2.1).mp hall)
    (by decide +kernel)

/-! ## Validation against expansion -/

/-- A list is accepted exactly when it expands, unless it is accepted and names no target or one
beyond the limits. -/
theorem validation_agrees_iff (P : NetParser) (targets : String) (allow : Bool) :
    (validateTargetsFor P targets allow = .ok () ↔
        ∃ ips, expandTargetsFor P targets allow = some (.ok ips)) ↔
      Text.trimSpace targets = "" ∨
        (∃ part ∈ parts targets, validatePart P part allow ≠ .ok ()) ∨
          (parts targets ≠ [] ∧ ∀ part ∈ parts targets, withinLimits P part = true) := by
  rw [validateTargetsFor_iff, expandTargetsFor_iff]
  by_cases hempty : trimSpace targets = ""
  · simp [hempty]
  by_cases hvalid : ∀ part ∈ parts targets, validatePart P part allow = .ok ()
  · have hnone : ¬ ∃ part ∈ parts targets, validatePart P part allow ≠ .ok () := by
      simpa using hvalid
    have hboth : (∀ part ∈ parts targets, validatePart P part allow = .ok () ∧
        withinLimits P part = true) ↔ ∀ part ∈ parts targets, withinLimits P part = true :=
      ⟨fun h part hp => (h part hp).2, fun h part hp => ⟨hvalid part hp, h part hp⟩⟩
    simp only [hempty, hboth, hnone, ne_eq, not_false_eq_true, true_and, false_or]
    exact ⟨fun h => h.mp hvalid, fun h => iff_of_true hvalid h⟩
  · have hsome : ∃ part ∈ parts targets, validatePart P part allow ≠ .ok () := by
      simpa using hvalid
    refine iff_of_true (iff_of_false (fun h => hvalid h.2) ?_) (.inr (.inl hsome))
    exact fun h => hvalid fun part hp => (h.2.2 part hp).1

/-- Accepted and never expanded: a list of nothing, a range of one address too many, and, with
reserved space allowed, the block of all IPv4 addresses, on which the loop does not end. -/
theorem accepted_not_expanded :
    (validateTargetsFor ipv4Parser "," false = .ok () ∧
      expandTargetsFor ipv4Parser "," false = some (.error .noValidTargets)) ∧
    (validateTargetsFor ipv4Parser "10.0.0.0-10.1.0.0" false = .ok () ∧
      expandTargetsFor ipv4Parser "10.0.0.0-10.1.0.0" false =
        some (.error (.targetRangeTooLarge 65537))) ∧
    (validateTargetsFor ipv4Parser "0.0.0.0/0" true = .ok () ∧
      ¬ ∃ ips, expandTargetsFor ipv4Parser "0.0.0.0/0" true = some (.ok ips)) := by
  rw [expandTargetsFor_iff]
  decide +kernel

end Steward.Targets
