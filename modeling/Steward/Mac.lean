import Steward.Text

/-!
# MAC addresses

The canonical text of a MAC address (lower case, colons) and the two bits of
its first octet that the scanner reads.
-/

namespace Steward

open Text

def isSeparator (c : Char) : Bool := c = ':' || c = '-' || c = ' ' || c = '.'

def isHexDigit (c : Char) : Bool := ('0' ≤ c && c ≤ '9') || ('a' ≤ c && c ≤ 'f')

/-- Colons between pairs of digits. -/
def colonPairs : List Char → List Char
  | a :: b :: c :: rest => a :: b :: ':' :: colonPairs (c :: rest)
  | cs => cs

/-- `NormalizeMAC`: the canonical text, or `""` for anything that is not twelve hex digits. -/
def normalizeMAC (s : String) : String :=
  let s := trimSpace (toLower s)
  if s = "" then ""
  else
    let hex := s.toList.filter fun c => !isSeparator c
    if (String.ofList hex).utf8ByteSize ≠ 12 then ""
    else if hex.all isHexDigit then String.ofList (colonPairs hex)
    else ""

def nibble (c : Char) : Option Nat :=
  if '0' ≤ c ∧ c ≤ '9' then some (c.toNat - '0'.toNat)
  else if 'a' ≤ c ∧ c ≤ 'f' then some (c.toNat - 'a'.toNat + 10)
  else none

variable (mac : String)

/-- Both bits live in the second byte of the text, the low digit of the first octet. -/
def macBitSet (mask : Nat) : Bool :=
  if mac.utf8ByteSize < 17 then false
  else
    match mac.toList with
    | c :: d :: _ => c.toNat < 128 && ((nibble d).any fun n => n &&& mask != 0)
    | _ => false

def isLocallyAdministeredMAC : Bool := macBitSet mac 2

def isMulticastMAC : Bool := macBitSet mac 1

/-- A stored MAC with a vendor block behind it. -/
def GloballyAdministered : Prop := mac ≠ "" ∧ isLocallyAdministeredMAC mac = false

instance : Decidable (GloballyAdministered mac) :=
  inferInstanceAs (Decidable (mac ≠ "" ∧ isLocallyAdministeredMAC mac = false))

/-- A MAC as the pipeline keys on it. -/
def Canonical : Prop := mac ≠ "" ∧ normalizeMAC mac = mac

instance : Decidable (Canonical mac) :=
  inferInstanceAs (Decidable (mac ≠ "" ∧ normalizeMAC mac = mac))

@[simp] theorem not_locallyAdministered_empty : isLocallyAdministeredMAC "" = false := by decide

theorem toNat_hexDigit {c : Char} (h : isHexDigit c = true) :
    (48 ≤ c.toNat ∧ c.toNat ≤ 57) ∨ (97 ≤ c.toNat ∧ c.toNat ≤ 102) := by
  simpa [isHexDigit, Char.le_def, UInt32.le_iff_toNat_le] using h

theorem fixed_of_hexDigit {c : Char} (h : c = ':' ∨ isHexDigit c = true) :
    foldChar c = c ∧ lowerChar c = c ∧ isSpace c = false := by
  rcases h with rfl | h
  · decide
  have hc := toNat_hexDigit h
  have hlower : c.toLower = c := by
    rw [← Char.toNat_inj, toNat_toLower, if_neg (by omega)]
  refine ⟨?_, ?_, ?_⟩
  · rw [foldChar, if_neg (by omega), if_neg (by omega), hlower]
  · rw [lowerChar, if_neg (by omega), if_neg (by omega), hlower]
  · simp only [isSpace, Bool.or_eq_false_iff, Bool.and_eq_false_iff, decide_eq_false_iff_not]
    omega

theorem not_separator_of_hexDigit {c : Char} (h : isHexDigit c = true) : isSeparator c = false := by
  have hne : ∀ d, isHexDigit d = false → c ≠ d := by
    rintro d hd rfl
    simp [hd] at h
  simp [isSeparator, hne ':' rfl, hne '-' rfl, hne ' ' rfl, hne '.' rfl]

theorem utf8ByteSize_hexDigits {cs : List Char} (h : ∀ c ∈ cs, isHexDigit c = true) :
    (String.ofList cs).utf8ByteSize = cs.length := by
  induction cs with
  | nil => rfl
  | cons c cs ih =>
    obtain ⟨hc, hcs⟩ := List.forall_mem_cons.mp h
    have hsize : c.utf8Size = 1 := by
      have := toNat_hexDigit hc
      rw [Char.utf8Size_eq_one_iff, UInt32.le_iff_toNat_le]
      exact show c.toNat ≤ 127 by omega
    simp [hsize, ih hcs, Nat.add_comm]

theorem mem_colonPairs {cs : List Char} (hlen : cs.length = 12) {x : Char}
    (hx : x ∈ colonPairs cs) : x = ':' ∨ x ∈ cs :=
  match cs, hlen with
  | [a, b, c, d, e, f, g, h, i, j, k, l], _ => by
    simp only [colonPairs, List.mem_cons] at hx ⊢
    tauto

theorem filter_colonPairs {cs : List Char} (hlen : cs.length = 12)
    (hdigit : ∀ c ∈ cs, isSeparator c = false) :
    (colonPairs cs).filter (fun c => !isSeparator c) = cs :=
  match cs, hlen with
  | [a, b, c, d, e, f, g, h, i, j, k, l], _ => by
    have hcolon : isSeparator ':' = true := rfl
    simp only [List.forall_mem_cons] at hdigit
    simp [colonPairs, hcolon, hdigit]

/-- The digits that `NormalizeMAC` reads. -/
def macDigits (s : String) : List Char :=
  (trimSpace (toLower s)).toList.filter fun c => !isSeparator c

theorem normalizeMAC_eq (s : String) : normalizeMAC s =
    if (macDigits s).length = 12 ∧ (macDigits s).all isHexDigit = true then
      String.ofList (colonPairs (macDigits s))
    else "" := by
  change (if trimSpace (toLower s) = "" then ""
    else if (String.ofList (macDigits s)).utf8ByteSize ≠ 12 then ""
    else if (macDigits s).all isHexDigit then String.ofList (colonPairs (macDigits s)) else "") = _
  by_cases hall : (macDigits s).all isHexDigit = true
  · rw [utf8ByteSize_hexDigits (List.all_eq_true.mp hall), if_pos hall]
    split
    · next hempty => rw [if_neg (by simp [macDigits, hempty])]
    · simp only [ite_not, and_iff_left hall]
  · rw [if_neg hall, ite_self, ite_self, if_neg fun h => hall h.2]

theorem normalizeMAC_folded (s : String) : ∀ c ∈ (normalizeMAC s).toList, foldChar c = c := by
  rw [normalizeMAC_eq]
  split
  · next h =>
    rw [String.toList_ofList]
    have hall := List.all_eq_true.mp h.2
    exact fun c hc => (fixed_of_hexDigit ((mem_colonPairs h.1 hc).imp_right (hall c))).1
  · simp

theorem macDigits_colonPairs {cs : List Char} (hlen : cs.length = 12)
    (h : cs.all isHexDigit = true) : macDigits (String.ofList (colonPairs cs)) = cs := by
  rw [List.all_eq_true] at h
  have hfixed : ∀ c ∈ colonPairs cs, lowerChar c = c ∧ isSpace c = false :=
    fun c hc => (fixed_of_hexDigit ((mem_colonPairs hlen hc).imp_right (h c))).2
  have hlower : toLower (String.ofList (colonPairs cs)) = String.ofList (colonPairs cs) := by
    rw [toLower, String.toList_ofList, List.map_congr_left fun c hc => (hfixed c hc).1,
      List.map_id']
  rw [macDigits, hlower, trimSpace_of_no_space (by simpa using fun c hc => (hfixed c hc).2),
    String.toList_ofList]
  exact filter_colonPairs hlen fun c hc => not_separator_of_hexDigit (h c hc)

/-- `NormalizeMAC` gives six pairs of digits or nothing, fixes what it gives, and tells texts apart
by their digits. -/
theorem normalizeMAC_canonical :
    (∀ s, normalizeMAC s = "" ∨ ∃ pairs : List (Char × Char), pairs.length = 6 ∧
      (∀ p ∈ pairs, isHexDigit p.1 = true ∧ isHexDigit p.2 = true) ∧
      (normalizeMAC s).toList = [':'].intercalate (pairs.map fun p => [p.1, p.2])) ∧
    (∀ s, normalizeMAC (normalizeMAC s) = normalizeMAC s) ∧
    ∀ s t, normalizeMAC s ≠ "" → normalizeMAC t ≠ "" →
      (normalizeMAC s = normalizeMAC t ↔ macDigits s = macDigits t) := by
  refine ⟨fun s => ?_, fun s => ?_, fun s t hs ht => ?_⟩
  · rw [normalizeMAC_eq]
    split
    · next h =>
      obtain ⟨hlen, hall⟩ := h
      right
      generalize macDigits s = cs at hlen hall
      match cs, hlen with
      | [a, b, c, d, e, f, g, h, i, j, k, l], _ =>
        refine ⟨[(a, b), (c, d), (e, f), (g, h), (i, j), (k, l)], rfl, ?_, by simp [colonPairs]⟩
        simpa [and_assoc] using hall
    · exact .inl rfl
  · rw [normalizeMAC_eq s]
    split
    · next h => rw [normalizeMAC_eq, macDigits_colonPairs h.1 h.2, if_pos h]
    · rfl
  · rw [normalizeMAC_eq] at hs ht
    have hs' := (ite_ne_right_iff.mp hs).1
    have ht' := (ite_ne_right_iff.mp ht).1
    rw [normalizeMAC_eq, normalizeMAC_eq, if_pos hs', if_pos ht']
    refine ⟨fun h => ?_, fun h => by rw [h]⟩
    rw [← macDigits_colonPairs hs'.1 hs'.2, h, macDigits_colonPairs ht'.1 ht'.2]

theorem Canonical.eq_of_equalFold {a b : String} (ha : Canonical a) (hb : Canonical b)
    (h : equalFold a b = true) : a = b := by
  have hfix : ∀ m, Canonical m → m.toList.map foldChar = m.toList := by
    intro m hm
    have hfold := normalizeMAC_folded m
    rw [hm.2] at hfold
    rw [List.map_congr_left hfold, List.map_id']
  have hl : a.toList = b.toList := by
    rw [← hfix a ha, ← hfix b hb]
    simpa [equalFold] using h
  exact String.toList_inj.mp hl

end Steward
