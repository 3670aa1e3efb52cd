import Steward.DnsMessage
import Steward.UsmLayout

/-!
# Compressed names

What a name is in a packet: labels, then the root or a pointer to an earlier name. The reader
follows one pointer and refuses a name that needs a second.
-/

namespace Steward.Dns

open Fallible Scan Ber Usm List

section Encodes

variable (buf : List UInt8)

/-- These labels are encoded at a position, with so many pointers on the way, up to another. -/
inductive Encodes : Nat → List (List UInt8) → Nat → Nat → Prop
  | root {pos : Nat} {rest : List UInt8} (h : buf.drop pos = 0 :: rest) :
      Encodes pos [] 0 (pos + 1)
  | label {pos pointers stop : Nat} {label rest : List UInt8} {labels : List (List UInt8)}
      (hlen : 1 ≤ label.length ∧ label.length ≤ 63)
      (h : buf.drop pos = UInt8.ofNat label.length :: (label ++ rest))
      (more : Encodes (pos + 1 + label.length) labels pointers stop) :
      Encodes pos (label :: labels) pointers stop
  | pointer {pos pointers stop : Nat} {hi lo : UInt8} {rest : List UInt8}
      {labels : List (List UInt8)} (hhi : 0xC0 ≤ hi) (h : buf.drop pos = hi :: lo :: rest)
      (hearlier : hi.toNat % 64 * 256 + lo.toNat < pos)
      (target : Encodes (hi.toNat % 64 * 256 + lo.toNat) labels pointers stop) :
      Encodes pos labels (pointers + 1) (pos + 2)

variable {buf} {pos : Nat}

theorem u8_at {b : UInt8} {rest : List UInt8} (h : buf.drop pos = b :: rest) :
    (u8 buf).run pos = .ok (b, pos + 1) := by
  refine (u8_ok buf).mpr ⟨?_, rfl⟩
  rw [← head?_drop, h, head?_cons]

variable (lossy : List UInt8 → String)

/-- The loop follows a pointer unless it has followed one. -/
theorem labelLoop_encoded {bytes : List (List UInt8)} {pointers stop : Nat}
    (h : Encodes buf pos bytes pointers stop) (fuel : Nat) (labels : List String)
    (back : Option Nat) (hfuel : rounds buf back pos < fuel) :
    (labelLoop buf lossy fuel labels back).run pos =
      if pointers + (if back.isNone then 0 else 1) ≤ 1 then
        .ok (".".intercalate (labels ++ bytes.map lossy), back.getD stop)
      else .err .doublePointer := by
  induction h generalizing fuel labels back with
  | root h =>
    obtain ⟨fuel, rfl⟩ : ∃ n, fuel = n + 1 := ⟨fuel - 1, by omega⟩
    rw [labelLoop, run_bind_of_ok (u8_at h), if_pos rfl]
    cases back <;> simp
  | @label pos pointers stop label rest labels' hlen h more ih =>
    obtain ⟨fuel, rfl⟩ : ∃ n, fuel = n + 1 := ⟨fuel - 1, by omega⟩
    have hbyte : (UInt8.ofNat label.length).toNat = label.length :=
      Nat.mod_eq_of_lt (by omega)
    have hnz : UInt8.ofNat label.length ≠ 0 := by
      intro h0
      rw [h0, UInt8.toNat_zero] at hbyte
      omega
    have hplain : ¬ 0xC0 ≤ UInt8.ofNat label.length := by
      rw [UInt8.le_iff_toNat_le, hbyte]
      exact Nat.not_le.mpr (by omega : label.length < 192)
    have hsize := congrArg length h
    simp only [length_drop, length_cons, length_append] at hsize
    rw [labelLoop, run_bind_of_ok (u8_at h), if_neg hnz, if_neg hplain, run_get_bind, hbyte,
      if_neg (by omega), slice_within (by omega) (by omega), run_lift_ok_bind, run_set_bind,
      ih _ _ _ (by unfold rounds at hfuel ⊢; omega)]
    simp [drop_succ h]
  | @pointer pos pointers stop hi lo rest labels' hhi h hearlier target ih =>
    obtain ⟨fuel, rfl⟩ : ∃ n, fuel = n + 1 := ⟨fuel - 1, by omega⟩
    have hnz : hi ≠ 0 := by
      rintro rfl
      exact absurd hhi (by decide)
    rw [labelLoop, run_bind_of_ok (u8_at h), if_neg hnz, if_pos hhi]
    cases back with
    | some p => simp
    | none =>
      dsimp only
      rw [run_bind_of_ok (u8_at (drop_succ h)), run_get_bind, run_set_bind,
        ih _ _ _ (by simp [rounds] at hfuel ⊢; omega)]
      simp

theorem name_encoded {bytes : List (List UInt8)} {pointers stop depth : Nat}
    (h : Encodes buf pos bytes pointers stop) (hdepth : depth ≤ 8) :
    (name buf lossy depth).run pos =
      if pointers ≤ 1 then .ok (".".intercalate (bytes.map lossy), stop)
      else .err .doublePointer := by
  rw [name, if_neg (by omega), labelLoop_encoded lossy h _ _ _ (by simp [rounds]; omega)]
  simp

end Encodes

/-! ## Names that the agent writes -/

def encodeName (name : String) : List UInt8 :=
  let trimmed := String.ofList (name.toList.rdropWhile (· = '.'))
  ((Text.split trimmed '.').flatMap fun label =>
    UInt8.ofNat (utf8 label).length :: utf8 label) ++ [0]

/-- A label of a name, as a text. -/
structure Label where
  text : String
  no_dot : '.' ∉ text.toList
  length : 1 ≤ (utf8 text).length ∧ (utf8 text).length ≤ 63

def Label.bytes (l : Label) : List UInt8 := utf8 l.text

def Label.encoded (l : Label) : List UInt8 := UInt8.ofNat l.bytes.length :: l.bytes

def nameOf (labels : List Label) : String := Text.join "." (labels.map Label.text)

theorem encodeName_nameOf {labels : List Label} (hne : labels ≠ []) :
    encodeName (nameOf labels) = labels.flatMap Label.encoded ++ [0] := by
  have hsplit : Text.split (nameOf labels) '.' = labels.map Label.text :=
    Text.split_join (by simpa using hne) (by simpa using fun l _ => l.no_dot)
  -- a dot at the end would leave an empty label behind it
  have htrim : (nameOf labels).toList.rdropWhile (· = '.') = (nameOf labels).toList := by
    rw [rdropWhile_eq_self_iff]
    intro hne hlast
    have hmem : "" ∈ Text.split (nameOf labels) '.' := by
      rw [Text.split, ← dropLast_append_getLast hne, of_decide_eq_true hlast,
        Text.splitChars_append_cons]
      simp [Text.splitChars]
    rw [hsplit] at hmem
    obtain ⟨l, -, hl⟩ := mem_map.mp hmem
    have hlength := l.length
    rw [hl] at hlength
    exact absurd hlength (by decide)
  rw [encodeName, htrim, String.ofList_toList]
  simp only [hsplit, flatMap_map]
  rfl

theorem encodes_labels {buf rest : List UInt8} {pos : Nat} (labels : List Label)
    (h : buf.drop pos = labels.flatMap Label.encoded ++ 0 :: rest) :
    Encodes buf pos (labels.map Label.bytes) 0
      (pos + (labels.flatMap Label.encoded ++ [0]).length) := by
  induction labels generalizing pos with
  | nil => exact .root h
  | cons l labels ih =>
    rw [flatMap_cons, append_assoc] at h
    have hstop : pos + ((l :: labels).flatMap Label.encoded ++ [0]).length =
        pos + 1 + l.bytes.length + (labels.flatMap Label.encoded ++ [0]).length := by
      simp only [flatMap_cons, length_append, Label.encoded, length_cons]
      omega
    rw [hstop]
    exact .label l.length h (ih (drop_after (drop_succ h)))

/-- A name in a packet is read up to its end exactly when it needs at most one pointer; a name
that the agent has written is read back up to its end exactly when it has a label. -/
theorem names_read_back (lossy replace : List UInt8 → String) {depth : Nat} (hdepth : depth ≤ 8)
    (buf : List UInt8) (pos : Nat) :
    (∀ bytes pointers stop, Encodes buf pos bytes pointers stop →
      ((name buf lossy depth).run pos = .ok (".".intercalate (bytes.map lossy), stop) ↔
        pointers ≤ 1)) ∧
    ∀ labels rest, buf.drop pos = encodeName (nameOf labels) ++ rest →
      ((name buf (Usm.lossy replace) depth).run pos =
        .ok (nameOf labels, pos + (encodeName (nameOf labels)).length) ↔ labels ≠ []) := by
  constructor
  · intro bytes pointers stop h
    rw [name_encoded lossy h hdepth]
    split <;> simp [*]
  · intro labels rest h
    by_cases hne : labels = []
    · -- two zero bytes stand for the empty name, and the first one ends it
      subst hne
      have hroot : Encodes buf pos [] 0 (pos + 1) := .root h
      rw [name_encoded _ hroot hdepth]
      simp [show (encodeName (nameOf [])).length = 2 from rfl]
    · rw [encodeName_nameOf hne, append_assoc] at h
      rw [encodeName_nameOf hne, name_encoded _ (encodes_labels labels h) hdepth,
        if_pos (by decide), map_map]
      refine iff_of_true ?_ hne
      congr 3
      exact map_congr_left fun l _ => lossy_utf8 replace l.text

def ascii (bytes : List UInt8) : String := String.ofList (bytes.map fun b => Char.ofNat b.toNat)

theorem pointed_name_read_back :
    Encodes [1, 97, 0, 0xC0, 0] 3 [[97]] 1 5 ∧
      (name [1, 97, 0, 0xC0, 0] ascii 1).run 3 = .ok ("a", 5) := by
  have h : Encodes [1, 97, 0, 0xC0, 0] 3 [[97]] 1 5 :=
    .pointer (by decide) rfl (by decide) (.label (by decide) rfl (.root rfl))
  exact ⟨h, ((names_read_back ascii ascii (by decide) _ 3).1 _ _ _ h).mpr (by decide)⟩

/-- A pointer to a name that ends in a pointer. -/
theorem pointer_chain_refused :
    Encodes [1, 97, 0, 0xC0, 0, 0xC0, 3] 5 [[97]] 2 7 ∧
      (name [1, 97, 0, 0xC0, 0, 0xC0, 3] ascii 1).run 5 = .err .doublePointer :=
  ⟨.pointer (by decide) rfl (by decide)
    (.pointer (by decide) rfl (by decide) (.label (by decide) rfl (.root rfl))), by decide +kernel⟩

end Steward.Dns
