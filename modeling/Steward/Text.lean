import Mathlib.Algebra.GroupWithZero.Nat
import Mathlib.Data.List.DropRight
import Mathlib.Data.List.TakeDrop
import Mathlib.Tactic.Common

/-!
# Texts

Text operations of the standard library, on the characters of a text. Letters
outside ASCII matter only where their case mapping ends in ASCII.
-/

namespace Text

open List

/-- The characters that trimming removes. -/
def isSpace (c : Char) : Bool :=
  let n := c.toNat
  (9 ≤ n && n ≤ 13) || n = 0x20 || n = 0x85 || n = 0xA0 || n =
    0x1680 || (0x2000 ≤ n && n ≤ 0x200A) ||
    n = 0x2028 || n = 0x2029 || n = 0x202F || n = 0x205F || n = 0x3000

variable (s : String)

def trimSpace : String :=
  String.ofList ((s.toList.dropWhile isSpace).reverse.dropWhile isSpace).reverse

/-- Lower case; the Kelvin sign and the dotted capital I are the letters whose image is ASCII. -/
def lowerChar (c : Char) : Char :=
  if c.toNat = 0x212A then 'k' else if c.toNat = 0x130 then 'i' else c.toLower

def toLower : String := String.ofList (s.toList.map lowerChar)

/-- Lower case of the ASCII letters only. -/
def asciiLower : String := String.ofList (s.toList.map Char.toLower)

/-- Case folding; the Kelvin sign and the long s fold to ASCII. -/
def foldChar (c : Char) : Char :=
  if c.toNat = 0x212A then 'k' else if c.toNat = 0x17F then 's' else c.toLower

def equalFold (a b : String) : Bool := a.toList.map foldChar == b.toList.map foldChar

variable (a : Char)

theorem toNat_toLower :
    a.toLower.toNat = if 65 ≤ a.toNat ∧ a.toNat ≤ 90 then a.toNat + 32 else a.toNat := by
  unfold Char.toLower
  by_cases h : 65 ≤ a.toNat ∧ a.toNat ≤ 90
  · have hupper : a.val ≥ 'A'.val ∧ a.val ≤ 'Z'.val := by
      simpa [UInt32.le_iff_toNat_le] using h
    rw [dif_pos hupper, if_pos h]
    change (a.val + ('a'.val - 'A'.val)).toNat = _
    change (a.toNat + 32) % 4294967296 = a.toNat + 32
    omega
  · have hupper : ¬ (a.val ≥ 'A'.val ∧ a.val ≤ 'Z'.val) := by
      simpa [UInt32.le_iff_toNat_le] using h
    rw [dif_neg hupper, if_neg h]

theorem foldChar_toLower : foldChar a.toLower = foldChar a := by
  have hlower := toNat_toLower a
  by_cases h : 65 ≤ a.toNat ∧ a.toNat ≤ 90
  · rw [if_pos h] at hlower
    have hfixed : a.toLower.toLower = a.toLower := by
      rw [← Char.toNat_inj, toNat_toLower, if_neg (by omega)]
    rw [foldChar, foldChar, if_neg (by omega), if_neg (by omega), if_neg (by omega),
      if_neg (by omega), hfixed]
  · rw [if_neg h, Char.toNat_inj] at hlower
    rw [hlower]

theorem equalFold_of_asciiLower {a b : String} (h : asciiLower a = asciiLower b) :
    equalFold a b = true := by
  have hlower : a.toList.map Char.toLower = b.toList.map Char.toLower := String.ofList_injective h
  have hfold : ∀ cs : List Char, (cs.map Char.toLower).map foldChar = cs.map foldChar := by
    intro cs
    rw [map_map]
    exact map_congr_left fun a _ => foldChar_toLower a
  rw [equalFold, ← hfold a.toList, hlower, hfold, beq_self_eq_true]

def hasPrefix (p s : String) : Bool := p.toList.isPrefixOf s.toList

def stripPrefix (p s : String) : Option String :=
  if hasPrefix p s then some (String.ofList (s.toList.drop p.toList.length)) else none

def containsChars (p : List Char) : List Char → Bool
  | [] => p.isEmpty
  | c :: cs => p.isPrefixOf (c :: cs) || containsChars p cs

def contains (s sub : String) : Bool := containsChars sub.toList s.toList

/-- The pieces between separators, at least one. -/
def splitChars (sep : Char) : List Char → List (List Char)
  | [] => [[]]
  | c :: cs =>
    match splitChars sep cs with
    | [] => [[c]]
    | p :: ps => if c = sep then [] :: p :: ps else (c :: p) :: ps

def split (sep : Char) : List String := (splitChars sep s.toList).map String.ofList

def join (sep : String) (parts : List String) : String := sep.intercalate parts

def digit (c : Char) : Option Nat := if '0' ≤ c ∧ c ≤ '9' then some (c.toNat - '0'.toNat) else none

/-- The value of a non-empty run of decimal digits. -/
def digits (cs : List Char) : Option Nat :=
  if cs = [] then none
  else cs.foldl (fun acc c => acc.bind fun n => (digit c).map fun d => 10 * n + d) (some 0)

/-- A signed decimal of 64 bits. -/
def parseInt : Option Int :=
  let value : Option Int :=
    match s.toList with
    | '-' :: cs => (digits cs).map fun n => -(n : Int)
    | '+' :: cs => (digits cs).map fun n => (n : Int)
    | cs => (digits cs).map fun n => (n : Int)
  value.filter fun v => -0x8000000000000000 ≤ v && v < 0x8000000000000000

/-- An unsigned decimal of so many bits. -/
def parseUnsigned (bits : Nat) (s : String) : Option Nat :=
  let value : Option Nat :=
    match s.toList with
    | '+' :: cs => digits cs
    | cs => digits cs
  value.filter fun v => v < 2 ^ bits

@[simp] theorem equalFold_refl (a : String) : equalFold a a = true := by simp [equalFold]

theorem trimSpace_trimSpace : trimSpace (trimSpace s) = trimSpace s := by
  unfold trimSpace
  rw [String.toList_ofList]
  congr 1
  generalize hm : s.toList.dropWhile isSpace = m
  have hhead : m.dropWhile isSpace = m := by rw [← hm, dropWhile_idempotent]
  generalize hr : m.reverse.dropWhile isSpace = r
  have hsuffix : r <:+ m.reverse := hr ▸ dropWhile_suffix isSpace
  have hprefix : r.reverse <+: m := by
    have hreverse := reverse_prefix.mpr hsuffix
    rwa [reverse_reverse] at hreverse
  have hfront : r.reverse.dropWhile isSpace = r.reverse := by
    cases hrev : r.reverse with
    | nil => rfl
    | cons c cs =>
      rw [hrev] at hprefix
      obtain ⟨rest, rfl⟩ := hprefix
      rw [dropWhile_eq_self_iff] at hhead ⊢
      simpa using hhead
  rw [hfront, reverse_reverse, ← hr, dropWhile_idempotent]

variable {cs : List Char} {c sep : Char} {ts : List String} {n v : Nat} {p : List Char} {s : String}

theorem containsChars_iff : containsChars p cs = true ↔ p <:+: cs := by
  induction cs with
  | nil => simp [containsChars]
  | cons c cs ih =>
    rw [containsChars, Bool.or_eq_true, ih, isPrefixOf_iff_prefix, infix_cons_iff]

theorem containsChars_singleton (c : Char) (cs : List Char) :
    containsChars [c] cs = true ↔ c ∈ cs := by
  induction cs with
  | nil => simp [containsChars]
  | cons d cs ih => simp [containsChars, ih, isPrefixOf]

theorem splitChars_of_not_mem (h : c ∉ cs) : splitChars c cs = [cs] := by
  induction cs with
  | nil => rfl
  | cons d cs ih =>
    rw [mem_cons, not_or] at h
    simp [splitChars, ih h.2, Ne.symm h.1]

theorem splitChars_ne_nil (sep : Char) (cs : List Char) : splitChars sep cs ≠ [] := by
  cases cs with
  | nil => simp [splitChars]
  | cons c cs =>
    rw [splitChars]
    split
    · simp
    · split <;> simp

theorem splitChars_append_cons (p cs : List Char) :
    splitChars sep (p ++ sep :: cs) = splitChars sep p ++ splitChars sep cs := by
  induction p with
  | nil =>
    cases hrest : splitChars sep cs with
    | nil => exact absurd hrest (splitChars_ne_nil sep cs)
    | cons q qs => simp [splitChars, hrest]
  | cons c p ih =>
    cases hp : splitChars sep p with
    | nil => exact absurd hp (splitChars_ne_nil sep p)
    | cons q qs => by_cases hc : c = sep <;> simp [splitChars, ih, hp, hc]

theorem splitChars_append (h : sep ∉ p) :
    splitChars sep (p ++ sep :: cs) = p :: splitChars sep cs := by
  rw [splitChars_append_cons, splitChars_of_not_mem h, singleton_append]

theorem splitChars_intercalate {ps : List (List Char)} (hne : ps ≠ []) (h : ∀ p ∈ ps, sep ∉ p) :
    splitChars sep ([sep].intercalate ps) = ps := by
  induction ps with
  | nil => exact absurd rfl hne
  | cons p ps ih =>
    cases ps with
    | nil => simpa using splitChars_of_not_mem (h p (by simp))
    | cons q qs =>
      have hrest := ih (by simp) fun r hr => h r (by simp [hr])
      rw [intercalate_cons_cons, append_assoc, singleton_append,
        splitChars_append (h p (by simp)), hrest]

theorem split_join (hne : ts ≠ []) (h : ∀ t ∈ ts, sep ∉ t.toList) :
    split (join (String.singleton sep) ts) sep = ts := by
  have hchars : splitChars sep ([sep].intercalate (ts.map String.toList)) = ts.map String.toList :=
    splitChars_intercalate (by simpa using hne) (by simpa using h)
  rw [split, join, String.toList_intercalate, String.toList_singleton, hchars, map_map]
  simp

theorem mem_join {sep : String} (h : c ∈ (join sep ts).toList) :
    c ∈ sep.toList ∨ ∃ t ∈ ts, c ∈ t.toList := by
  rw [join, String.toList_intercalate] at h
  induction ts with
  | nil => simp at h
  | cons t ts ih =>
    cases ts with
    | nil => exact .inr ⟨t, by simp, by simpa using h⟩
    | cons u us =>
      rw [map_cons, map_cons, intercalate_cons_cons, mem_append, mem_append] at h
      rcases h with (h | h) | h
      · exact .inr ⟨t, by simp, h⟩
      · exact .inl h
      · rcases ih h with h | ⟨v, hv, hc⟩
        · exact .inl h
        · exact .inr ⟨v, by simp [hv], hc⟩

theorem stripPrefix_append (p s : String) : stripPrefix p (p ++ s) = some s := by
  have hpre : hasPrefix p (p ++ s) = true := by
    rw [hasPrefix, isPrefixOf_iff_prefix, String.toList_append]
    exact prefix_append ..
  rw [stripPrefix, if_pos hpre, String.toList_append, drop_left, String.ofList_toList]

theorem span_char (sep : Char) (cs : List Char) :
    (sep ∉ cs ∧ cs.span (· ≠ sep) = (cs, [])) ∨
      ∃ front rest, cs = front ++ sep :: rest ∧ sep ∉ front ∧
        cs.span (· ≠ sep) = (front, sep :: rest) := by
  rw [span_eq_takeWhile_dropWhile]
  induction cs with
  | nil => exact .inl ⟨by simp, rfl⟩
  | cons c cs ih =>
    by_cases hc : c = sep
    · subst hc
      exact .inr ⟨[], cs, rfl, by simp, by simp⟩
    · rcases ih with ⟨hno, hspan⟩ | ⟨front, rest, rfl, hno, hspan⟩
      · rw [Prod.mk.injEq] at hspan
        exact .inl ⟨by simp [hno, Ne.symm hc], by simp_all⟩
      · rw [Prod.mk.injEq] at hspan
        exact .inr ⟨c :: front, rest, rfl, by simp [hno, Ne.symm hc], by simp_all⟩

/-! ## Trimmed pieces -/

/-- A piece without the spaces around it. -/
def trimmed (p : List Char) : List Char := (p.dropWhile isSpace).rdropWhile isSpace

theorem toList_trimSpace (s : String) : (trimSpace s).toList = trimmed s.toList := by
  rw [trimSpace, String.toList_ofList]
  rfl

theorem trimSpace_eq_empty_iff : trimSpace s = "" ↔ ∀ c ∈ s.toList, isSpace c = true := by
  rw [← String.toList_inj, toList_trimSpace, trimmed]
  change rdropWhile isSpace _ = [] ↔ _
  rw [rdropWhile_eq_nil_iff]
  constructor
  · intro h c hc
    by_contra hspace
    have hmem : c ∈ s.toList.dropWhile isSpace := by
      rw [← takeWhile_append_dropWhile (p := isSpace) (l := s.toList), mem_append] at hc
      exact hc.resolve_left fun htake => hspace (mem_takeWhile_imp htake)
    exact hspace (h c hmem)
  · intro h c hc
    exact h c ((dropWhile_suffix isSpace).mem hc)

theorem trimSpace_of_no_space (h : ∀ c ∈ s.toList, isSpace c = false) : trimSpace s = s := by
  have hdrop : ∀ cs : List Char, (∀ c ∈ cs, isSpace c = false) → cs.dropWhile isSpace = cs := by
    intro cs hcs
    cases cs with
    | nil => rfl
    | cons c cs => exact dropWhile_cons_of_neg (by simp [hcs c])
  rw [← String.toList_inj, toList_trimSpace, trimmed, hdrop _ h]
  change (s.toList.reverse.dropWhile isSpace).reverse = s.toList
  rw [hdrop _ fun c hc => h c (mem_reverse.mp hc), reverse_reverse]

theorem isSpace_of_letter (h : 65 ≤ c.toNat ∧ c.toNat ≤ 122) : isSpace c = false := by
  unfold isSpace
  simp only [Bool.or_eq_false_iff, Bool.and_eq_false_iff, decide_eq_false_iff_not]
  omega

theorem isSpace_toLower (c : Char) : isSpace c.toLower = isSpace c := by
  have hlower := toNat_toLower c
  split at hlower
  · rw [isSpace_of_letter (by omega), isSpace_of_letter (by omega)]
  · rw [Char.toNat_inj.mp hlower]

theorem trimmed_cons (h : isSpace c = true) (p : List Char) : trimmed (c :: p) = trimmed p := by
  rw [trimmed, dropWhile_cons_of_pos h, trimmed]

theorem trimmed_concat (h : isSpace c = true) (p : List Char) : trimmed (p ++ [c]) = trimmed p := by
  unfold trimmed
  rw [dropWhile_append]
  split
  · next hempty =>
    rw [isEmpty_iff.mp hempty, dropWhile_cons_of_pos h]
    rfl
  · rw [rdropWhile_concat_pos isSpace _ _ h]

theorem splitChars_concat (h : c ≠ sep) (cs : List Char) :
    ∃ front last, splitChars sep cs = front ++ [last] ∧
      splitChars sep (cs ++ [c]) = front ++ [last ++ [c]] := by
  induction cs with
  | nil => exact ⟨[], [], rfl, by simp [splitChars, h]⟩
  | cons d cs ih =>
    obtain ⟨front, last, hcs, hlonger⟩ := ih
    rw [cons_append, splitChars, splitChars, hcs, hlonger]
    cases front with
    | nil =>
      by_cases hd : d = sep
      · exact ⟨[[]], last, by simp [hd], by simp [hd]⟩
      · exact ⟨[], d :: last, by simp [hd], by simp [hd]⟩
    | cons p ps =>
      by_cases hd : d = sep
      · exact ⟨[] :: p :: ps, last, by simp [hd], by simp [hd]⟩
      · exact ⟨(d :: p) :: ps, last, by simp [hd], by simp [hd]⟩

section Pieces

variable {sep : Char}

theorem splitChars_dropWhile (hsep : isSpace sep = false) (cs : List Char) :
    (splitChars sep (cs.dropWhile isSpace)).map trimmed = (splitChars sep cs).map trimmed := by
  induction cs with
  | nil => rfl
  | cons c cs ih =>
    by_cases hc : isSpace c = true
    · have hne : c ≠ sep := by
        rintro rfl
        rw [hc] at hsep
        cases hsep
      rw [dropWhile_cons_of_pos hc, ih, splitChars]
      cases hrest : splitChars sep cs with
      | nil => exact absurd hrest (splitChars_ne_nil sep cs)
      | cons p ps => simp [hne, trimmed_cons hc]
    · rw [dropWhile_cons_of_neg hc]

theorem splitChars_rdropWhile (hsep : isSpace sep = false) (cs : List Char) :
    (splitChars sep (cs.rdropWhile isSpace)).map trimmed = (splitChars sep cs).map trimmed := by
  induction cs using reverseRecOn with
  | nil => rfl
  | append_singleton cs c ih =>
    by_cases hc : isSpace c = true
    · have hne : c ≠ sep := by
        rintro rfl
        rw [hc] at hsep
        cases hsep
      obtain ⟨front, last, hcs, hlonger⟩ := splitChars_concat hne cs
      rw [rdropWhile_concat_pos isSpace _ _ hc, ih, hcs, hlonger]
      simp [trimmed_concat hc]
    · rw [rdropWhile_concat_neg isSpace _ _ hc]

/-- Spaces around a text do not matter to its trimmed pieces. -/
theorem split_trimSpace (hsep : isSpace sep = false) (s : String) :
    (split (trimSpace s) sep).map trimSpace = (split s sep).map trimSpace := by
  have hchars : (splitChars sep (trimSpace s).toList).map trimmed =
      (splitChars sep s.toList).map trimmed := by
    rw [toList_trimSpace, trimmed, splitChars_rdropWhile hsep, splitChars_dropWhile hsep]
  have hpieces : ∀ ps : List (List Char), (ps.map String.ofList).map trimSpace =
      (ps.map trimmed).map String.ofList := by
    intro ps
    rw [map_map, map_map]
    refine map_congr_left fun p _ => ?_
    rw [Function.comp_apply, Function.comp_apply, ← String.toList_inj, toList_trimSpace,
      String.toList_ofList, String.toList_ofList]
  rw [split, split, hpieces, hpieces, hchars]

end Pieces

/-! ## Decimals -/

def decimal (n : Nat) : String := n.repr

theorem decimal_inj {m : Nat} (h : decimal m = decimal n) : m = n := by
  rw [decimal, decimal, Nat.repr_eq_ofList_toDigits, Nat.repr_eq_ofList_toDigits] at h
  have hdigits := String.ofList_injective h
  rw [← Nat.ofDigitChars_toDigits (b := 10) (n := m) (by decide) (by decide), hdigits,
    Nat.ofDigitChars_toDigits (by decide) (by decide)]

theorem isDigit_of_mem_decimal (h : c ∈ (decimal n).toList) : c.isDigit = true := by
  rw [decimal, Nat.repr_eq_ofList_toDigits, String.toList_ofList] at h
  exact Nat.isDigit_of_mem_toDigits (by decide) (by decide) h

theorem digit_of_isDigit (h : c.isDigit = true) : digit c = some (c.toNat - '0'.toNat) := by
  have hrange : '0' ≤ c ∧ c ≤ '9' := by
    simp only [Char.isDigit, Bool.and_eq_true, decide_eq_true_eq] at h
    exact h
  rw [digit, if_pos hrange]

theorem digits_foldl (h : ∀ c ∈ cs, c.isDigit = true) (n : Nat) :
    cs.foldl (fun acc c => acc.bind fun n => (digit c).map fun d => 10 * n + d) (some n) =
      some (Nat.ofDigitChars 10 cs n) := by
  induction cs generalizing n with
  | nil => rfl
  | cons c cs ih =>
    have hrest := ih (fun d hd => h d (by simp [hd])) (10 * n + (c.toNat - '0'.toNat))
    simpa [digit_of_isDigit (h c (by simp)), Nat.ofDigitChars] using hrest

theorem isDigit_of_digit {d : Nat} (h : digit c = some d) : c.isDigit = true := by
  unfold digit at h
  split at h
  · next hrange =>
    simp only [Char.isDigit, Bool.and_eq_true, decide_eq_true_eq]
    exact hrange
  · cases h

theorem foldl_none (cs : List Char) :
    cs.foldl (fun acc c => acc.bind fun n => (digit c).map fun d => 10 * n + d) none = none := by
  induction cs with
  | nil => rfl
  | cons c cs ih => exact ih

theorem foldl_digits
    (h : cs.foldl (fun acc c => acc.bind fun n => (digit c).map fun d => 10 * n + d) (some n) =
      some v) : ∀ c ∈ cs, c.isDigit = true := by
  induction cs generalizing n with
  | nil => simp
  | cons c cs ih =>
    rw [foldl_cons, Option.bind_some] at h
    cases hd : digit c with
    | none =>
      rw [hd, Option.map_none, foldl_none] at h
      cases h
    | some d =>
      rw [hd, Option.map_some] at h
      exact forall_mem_cons.mpr ⟨isDigit_of_digit hd, ih h⟩

theorem isDigit_of_digits (h : digits cs = some v) : ∀ c ∈ cs, c.isDigit = true := by
  unfold digits at h
  split at h
  · cases h
  · exact foldl_digits h

theorem mem_splitChars (h : c ∈ cs) : c = sep ∨ ∃ p ∈ splitChars sep cs, c ∈ p := by
  induction cs with
  | nil => cases h
  | cons d cs ih =>
    rw [splitChars]
    cases hrest : splitChars sep cs with
    | nil => exact absurd hrest (splitChars_ne_nil sep cs)
    | cons p ps =>
      rw [hrest] at ih
      by_cases hd : d = sep
      · rcases mem_cons.mp h with rfl | h
        · exact .inl hd
        · rcases ih h with hc | ⟨q, hq, hc⟩
          · exact .inl hc
          · exact .inr ⟨q, by simp [hd, mem_cons.mp hq], hc⟩
      · simp only [if_neg hd]
        rcases mem_cons.mp h with rfl | h
        · exact .inr ⟨c :: p, by simp, by simp⟩
        · rcases ih h with hc | ⟨q, hq, hc⟩
          · exact .inl hc
          · rcases mem_cons.mp hq with rfl | hq
            · exact .inr ⟨d :: q, by simp, by simp [hc]⟩
            · exact .inr ⟨q, by simp [hq], hc⟩

theorem digits_decimal (n : Nat) : digits (decimal n).toList = some n := by
  have hdigits : (decimal n).toList = Nat.toDigits 10 n := by
    rw [decimal, Nat.repr_eq_ofList_toDigits, String.toList_ofList]
  have hne : (decimal n).toList ≠ [] := by
    rw [hdigits]
    exact Nat.toDigits_ne_nil
  rw [digits, if_neg hne, digits_foldl (fun c hc => isDigit_of_mem_decimal hc), hdigits,
    Nat.ofDigitChars_toDigits (by decide) (by decide)]

theorem parseUnsigned_decimal {bits : Nat} (h : n < 2 ^ bits) :
    parseUnsigned bits (decimal n) = some n := by
  have hvalue := digits_decimal n
  have hdigit : ∀ c ∈ (decimal n).toList, c.isDigit = true := fun c hc => isDigit_of_mem_decimal hc
  unfold parseUnsigned
  cases hchars : (decimal n).toList with
  | nil => rw [hchars] at hvalue; cases hvalue
  | cons c cs =>
    have hplus : c ≠ '+' := by
      rintro rfl
      rw [hchars] at hdigit
      exact absurd (hdigit '+' (by simp)) (by decide)
    rw [hchars] at hvalue
    simp only
    split
    · next heq => exact absurd (cons.inj heq).1 hplus
    · simp [hvalue, h]
/-! ## Terminated texts -/

/-- Texts one after the other, each ended by the same character. -/
def terminated (c : Char) (ts : List String) : List Char := ts.flatMap fun t => t.toList ++ [c]

theorem append_cons_inj {α : Type} {c : α} {t u r s : List α} (ht : c ∉ t) (hu : c ∉ u)
    (h : t ++ c :: r = u ++ c :: s) : t = u ∧ r = s := by
  induction t generalizing u with
  | nil =>
    cases u with
    | nil => exact ⟨rfl, (cons.inj h).2⟩
    | cons d u => exact absurd (by simp [(cons.inj h).1]) hu
  | cons d t ih =>
    cases u with
    | nil => exact absurd (by simp [(cons.inj h).1]) ht
    | cons e u =>
      obtain ⟨rfl, hrest⟩ := cons.inj h
      obtain ⟨rfl, rfl⟩ := ih (fun hc => ht (by simp [hc])) (fun hc => hu (by simp [hc])) hrest
      exact ⟨rfl, rfl⟩

/-- Texts without the character can be read back. -/
theorem terminated_inj {us : List String} (ht : ∀ t ∈ ts, c ∉ t.toList)
    (hu : ∀ u ∈ us, c ∉ u.toList) (h : terminated c ts = terminated c us) : ts = us := by
  induction ts generalizing us with
  | nil =>
    cases us with
    | nil => rfl
    | cons u us => simp [terminated] at h
  | cons t ts ih =>
    cases us with
    | nil => simp [terminated] at h
    | cons u us =>
      simp only [terminated, flatMap_cons, append_assoc, singleton_append] at h
      obtain ⟨hhead, htail⟩ := append_cons_inj (ht t (by simp)) (hu u (by simp)) h
      rw [String.toList_inj.mp hhead,
        ih (fun t' h' => ht t' (by simp [h'])) (fun u' h' => hu u' (by simp [h'])) htail]

end Text
