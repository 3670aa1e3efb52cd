import Mathlib.Data.List.TakeWhile
import Steward.Fallible

/-!
# Texts as bytes

The bytes of a text in UTF-8, and slices of a text at a byte offset, which panic when the
offset is inside a character. An offset at which a first byte stands is a boundary; two
texts with a common run of bytes part inside a character exactly when the characters in
which they differ begin with the same byte.
-/

namespace Utf8

open Fallible List

variable {ε : Type} {s t : List Char} {c d : Char} {i n : Nat} {b : UInt8}

def bytes (s : List Char) : List UInt8 := s.flatMap String.utf8EncodeChar

@[simp] theorem bytes_nil : bytes [] = [] := rfl

@[simp] theorem bytes_cons (c : Char) (s : List Char) :
    bytes (c :: s) = String.utf8EncodeChar c ++ bytes s := rfl

@[simp] theorem bytes_append (s t : List Char) : bytes (s ++ t) = bytes s ++ bytes t :=
  flatMap_append

/-- The byte that a character begins with. -/
def first (c : Char) : UInt8 := (String.utf8EncodeChar c).headD 0

theorem encode_eq_cons (c : Char) :
    ∃ tail, String.utf8EncodeChar c = first c :: tail ∧ tail.length + 1 = c.utf8Size := by
  have hlength := String.length_utf8EncodeChar c
  have hpos := c.utf8Size_pos
  unfold first
  cases hbytes : String.utf8EncodeChar c with
  | nil =>
    rw [hbytes, length_nil] at hlength
    omega
  | cons x tail =>
    rw [hbytes, length_cons] at hlength
    exact ⟨tail, rfl, hlength⟩

theorem first_isFirst (c : Char) : (first c).IsUTF8FirstByte := by
  obtain ⟨tail, htail, -⟩ := encode_eq_cons c
  have hfirst := UInt8.isUTF8FirstByte_getElem_zero_utf8EncodeChar (c := c)
  simpa only [htail, getElem_cons_zero] using hfirst

theorem utf8Size_eq_one_iff : c.utf8Size = 1 ↔ (first c).toNat < 128 := by
  rw [Char.utf8Size_eq_one_iff, UInt32.le_iff_toNat_le]
  change c.val.toNat ≤ 127 ↔ _
  unfold first String.utf8EncodeChar
  dsimp only
  split
  · simp only [headD_cons, UInt8.toNat_ofNat']
    omega
  split
  · simp only [headD_cons, UInt8.toNat_ofNat']
    omega
  split
  · simp only [headD_cons, UInt8.toNat_ofNat']
    omega
  · simp only [headD_cons, UInt8.toNat_ofNat']
    omega

/-! ## Slices -/

/-- The parts of a text before and after a byte offset; there are none inside a character. -/
def cut : List Char → Nat → Option (List Char × List Char)
  | s, 0 => some ([], s)
  | [], _ + 1 => none
  | c :: s, n + 1 =>
    if n + 1 < c.utf8Size then none
    else (cut s (n + 1 - c.utf8Size)).map fun p => (c :: p.1, p.2)

variable {p q : List Char}

theorem cut_eq_some_iff : cut s n = some (p, q) ↔ s = p ++ q ∧ (bytes p).length = n := by
  have hzero : ∀ p : List Char, (bytes p).length = 0 ↔ p = [] := by
    intro p
    cases p with
    | nil => simp
    | cons c p =>
      have hpos := c.utf8Size_pos
      simp only [bytes_cons, length_append, String.length_utf8EncodeChar]
      refine iff_of_false (by omega) (by simp)
  induction s generalizing n p with
  | nil =>
    cases n with
    | zero => simp [cut, hzero, and_comm, eq_comm]
    | succ n =>
      refine iff_of_false (by simp [cut]) ?_
      rintro ⟨happend, hlength⟩
      obtain ⟨rfl, -⟩ := append_eq_nil_iff.mp happend.symm
      cases hlength
  | cons c s ih =>
    cases n with
    | zero =>
      rw [hzero]
      simp only [cut, Option.some.injEq, Prod.mk.injEq]
      constructor
      · rintro ⟨rfl, rfl⟩
        exact ⟨rfl, rfl⟩
      · rintro ⟨happend, rfl⟩
        exact ⟨rfl, happend⟩
    | succ n =>
      cases p with
      | nil =>
        refine iff_of_false (fun h => ?_) (fun h => by cases h.2)
        simp only [cut] at h
        split at h
        · cases h
        · obtain ⟨_, -, h⟩ := Option.map_eq_some_iff.mp h
          cases h
      | cons d p =>
        simp only [cut, cons_append, cons.injEq, bytes_cons, length_append,
          String.length_utf8EncodeChar]
        split
        · next hinside =>
          refine iff_of_false (by simp) ?_
          rintro ⟨⟨rfl, -⟩, hlength⟩
          omega
        · next houtside =>
          simp only [Option.map_eq_some_iff, Prod.mk.injEq, cons.injEq, Prod.exists]
          constructor
          · rintro ⟨p', q', hcut, ⟨rfl, rfl⟩, rfl⟩
            obtain ⟨happend, hlength⟩ := ih.mp hcut
            exact ⟨⟨rfl, happend⟩, by omega⟩
          · rintro ⟨⟨rfl, happend⟩, hlength⟩
            exact ⟨p, q, ih.mpr ⟨happend, by omega⟩, ⟨rfl, rfl⟩, rfl⟩

theorem cut_add (c : Char) (s : List Char) (n : Nat) :
    cut (c :: s) (c.utf8Size + n) = (cut s n).map fun p => (c :: p.1, p.2) := by
  have hpos := c.utf8Size_pos
  obtain ⟨m, hm⟩ : ∃ m, c.utf8Size + n = m + 1 := ⟨c.utf8Size + n - 1, by omega⟩
  rw [hm, cut, if_neg (by omega), show m + 1 - c.utf8Size = n by omega]

theorem cut_inside (hpos : 0 < n) (hn : n < c.utf8Size) : cut (c :: s) n = none := by
  obtain ⟨m, rfl⟩ : ∃ m, n = m + 1 := ⟨n - 1, by omega⟩
  rw [cut, if_pos hn]

def sliceTo (s : String) (i : Nat) : Res ε String :=
  match cut s.toList i with
  | some p => .ok (String.ofList p.1)
  | none => .panic .outOfRange

def sliceFrom (s : String) (i : Nat) : Res ε String :=
  match cut s.toList i with
  | some p => .ok (String.ofList p.2)
  | none => .panic .outOfRange

theorem split_at_first (h : (bytes s)[i]? = some b) (hb : b.IsUTF8FirstByte) :
    ∃ p c q, s = p ++ c :: q ∧ (bytes p).length = i ∧ first c = b := by
  induction s generalizing i with
  | nil => simp at h
  | cons c s ih =>
    have hlength := String.length_utf8EncodeChar c
    by_cases hi : i < c.utf8Size
    · -- only the first byte of the encoding is a first byte
      rw [bytes_cons, getElem?_append_left (by omega), getElem?_eq_some_iff] at h
      obtain ⟨hlt, hbyte⟩ := h
      rw [← hbyte, UInt8.isUTF8FirstByte_getElem_utf8EncodeChar] at hb
      subst hb
      obtain ⟨tail, htail, -⟩ := encode_eq_cons c
      exact ⟨[], c, s, rfl, rfl, by simpa only [htail, getElem_cons_zero] using hbyte⟩
    · rw [bytes_cons, getElem?_append_right (by omega)] at h
      obtain ⟨p, d, q, rfl, hp, hd⟩ := ih h
      refine ⟨c :: p, d, q, rfl, ?_, hd⟩
      rw [bytes_cons, length_append]
      omega

theorem sliceTo_append {s : String} (h : s.toList = p ++ q) (hp : (bytes p).length = i) :
    (sliceTo s i : Res ε String) = .ok (String.ofList p) := by
  rw [sliceTo, cut_eq_some_iff.mpr ⟨h, hp⟩]

theorem sliceFrom_append {s : String} (h : s.toList = p ++ q) (hp : (bytes p).length = i) :
    (sliceFrom s i : Res ε String) = .ok (String.ofList q) := by
  rw [sliceFrom, cut_eq_some_iff.mpr ⟨h, hp⟩]

theorem returns_sliceTo_first {s : String} (h : (bytes s.toList)[i]? = some b)
    (hb : b.IsUTF8FirstByte) : (sliceTo s i : Res ε String).Returns := by
  obtain ⟨p, c, q, hs, hp, -⟩ := split_at_first h hb
  rw [sliceTo_append hs hp]
  trivial

/-- The slice behind a first byte returns when the byte is a character. -/
theorem returns_sliceFrom_first {s : String} (h : (bytes s.toList)[i]? = some b)
    (hb : b.IsUTF8FirstByte) : (sliceFrom s (i + 1) : Res ε String).Returns ↔ b.toNat < 128 := by
  obtain ⟨p, c, q, hs, hp, rfl⟩ := split_at_first h hb
  rw [← utf8Size_eq_one_iff]
  constructor
  · intro hreturns
    unfold sliceFrom at hreturns
    split at hreturns
    · next parts hcut =>
      obtain ⟨hparts, hlength⟩ :=
        cut_eq_some_iff.mp (show cut s.toList (i + 1) = some (_, _) from hcut)
      rw [hs] at hparts
      obtain ⟨r, hr, htail⟩ | ⟨r, hr, -⟩ := append_eq_append_iff.mp hparts
      · cases r with
        | nil => simp [hr, hp] at hlength
        | cons a r =>
          obtain ⟨rfl, -⟩ := cons.inj htail
          have hpos := c.utf8Size_pos
          simp only [hr, bytes_append, bytes_cons, length_append, hp,
            String.length_utf8EncodeChar] at hlength
          omega
      · simp only [hr, bytes_append, length_append] at hp
        omega
    · exact hreturns.elim
  · intro hsize
    have hs' : s.toList = (p ++ [c]) ++ q := by simp [hs]
    rw [sliceFrom_append hs' (by simp [hp, hsize])]
    trivial

/-! ## Common bytes -/

/-- The number of bytes that two texts have in common at their beginning. -/
def common (x y : List UInt8) : Nat := ((x.zip y).takeWhile fun p => p.1 == p.2).length

@[simp] theorem common_nil_left (y : List UInt8) : common [] y = 0 := rfl

@[simp] theorem common_nil_right (x : List UInt8) : common x [] = 0 := by simp [common]

theorem common_cons (a b : UInt8) (x y : List UInt8) :
    common (a :: x) (b :: y) = if a = b then common x y + 1 else 0 := by
  by_cases h : a = b <;> simp [common, h]

theorem common_append (z x y : List UInt8) : common (z ++ x) (z ++ y) = z.length + common x y := by
  induction z with
  | nil => simp
  | cons a z ih =>
    rw [cons_append, cons_append, common_cons, if_pos rfl, ih, length_cons]
    omega

theorem take_common (x y : List UInt8) : x.take (common x y) = y.take (common x y) := by
  induction x generalizing y with
  | nil => simp
  | cons a x ih =>
    cases y with
    | nil => simp
    | cons b y =>
      rw [common_cons]
      split
      · next h => rw [h, take_succ_cons, take_succ_cons, ih]
      · simp

/-- No encoding is the beginning of another. -/
theorem encode_append_inj {x y : List UInt8}
    (h : String.utf8EncodeChar c ++ x = String.utf8EncodeChar d ++ y) : c = d := by
  have hdecode : ∀ (c : Char) (x : List UInt8),
      (String.utf8EncodeChar c ++ x).toByteArray.utf8DecodeChar? 0 = some c := by
    intro c x
    rw [toByteArray_append]
    exact ByteArray.utf8DecodeChar?_utf8EncodeChar_append
  have hc := hdecode c x
  rw [h, hdecode d y] at hc
  exact (Option.some.inj hc).symm

theorem common_lt_of_ne (h : c ≠ d) (x y : List UInt8) :
    common (String.utf8EncodeChar c ++ x) (String.utf8EncodeChar d ++ y) < c.utf8Size := by
  by_contra hle
  refine h (encode_append_inj (x := (String.utf8EncodeChar d ++ y).drop c.utf8Size) (y := y) ?_)
  have htake := congrArg (take c.utf8Size)
    (take_common (String.utf8EncodeChar c ++ x) (String.utf8EncodeChar d ++ y))
  rw [take_take, take_take, Nat.min_eq_left (by omega),
    take_append_of_le_length (by simp), take_of_length_le (by simp)] at htake
  rw [htake, take_append_drop]

/-- The texts part inside a character: where they differ, the characters begin with one byte. -/
def PartInside : List Char → List Char → Prop
  | c :: s, d :: t => if c = d then PartInside s t else first c = first d
  | _, _ => False

instance : (s t : List Char) → Decidable (PartInside s t)
  | c :: s, d :: t =>
    have := instDecidablePartInside s t
    inferInstanceAs (Decidable (if c = d then PartInside s t else first c = first d))
  | [], _ => isFalse id
  | _ :: _, [] => isFalse id

theorem cut_common_isSome : (cut s (common (bytes s) (bytes t))).isSome ↔ ¬ PartInside s t := by
  induction s generalizing t with
  | nil => simp [cut, PartInside]
  | cons c s ih =>
    cases t with
    | nil => simp [cut, PartInside]
    | cons d t =>
      rw [bytes_cons, bytes_cons]
      by_cases hcd : c = d
      · subst hcd
        rw [common_append, String.length_utf8EncodeChar, cut_add, Option.isSome_map, ih]
        simp [PartInside]
      · have hlt := common_lt_of_ne hcd (bytes s) (bytes t)
        obtain ⟨x, hx, -⟩ := encode_eq_cons c
        obtain ⟨y, hy, -⟩ := encode_eq_cons d
        have hzero : common (String.utf8EncodeChar c ++ bytes s)
            (String.utf8EncodeChar d ++ bytes t) = 0 ↔ first c ≠ first d := by
          rw [hx, hy, cons_append, cons_append, common_cons]
          split <;> simp_all
        rw [PartInside, if_neg hcd, ← ne_eq, ← hzero]
        by_cases hnone : common (String.utf8EncodeChar c ++ bytes s)
            (String.utf8EncodeChar d ++ bytes t) = 0
        · simp [hnone, cut]
        · rw [cut_inside (by omega) hlt]
          simp [hnone]

/-- The part of a text before the end of the common bytes begins the other one too. -/
theorem prefix_of_cut_common (h : cut s (common (bytes s) (bytes t)) = some (p, q)) :
    p <+: s ∧ p <+: t := by
  refine ⟨⟨q, (cut_eq_some_iff.mp h).1.symm⟩, ?_⟩
  induction s generalizing t p with
  | nil =>
    cases h
    exact nil_prefix
  | cons c s ih =>
    cases t with
    | nil =>
      rw [bytes_nil, common_nil_right] at h
      cases h
      exact nil_prefix
    | cons d t =>
      rw [bytes_cons, bytes_cons] at h
      by_cases hcd : c = d
      · subst hcd
        rw [common_append, String.length_utf8EncodeChar, cut_add, Option.map_eq_some_iff] at h
        obtain ⟨⟨p', q'⟩, hcut, heq⟩ := h
        cases heq
        exact cons_prefix_cons.mpr ⟨rfl, ih hcut⟩
      · have hlt := common_lt_of_ne hcd (bytes s) (bytes t)
        by_cases hnone : common (String.utf8EncodeChar c ++ bytes s)
            (String.utf8EncodeChar d ++ bytes t) = 0
        · rw [hnone] at h
          cases h
          exact nil_prefix
        · rw [cut_inside (by omega) hlt] at h
          cases h

end Utf8
