import Mathlib.Tactic.Ring
import Steward.Fallible
import Steward.Text

/-!
# The BER layer of the agent

Tags, lengths and values as the SNMP probes write and read them, integers and object
identifiers. The writer knows lengths of up to two bytes, the reader of up to four. A
reader that finds nothing to read fails; slices are checked, so that a panic would show.
-/

namespace Steward.Ber

open Fallible Scan Res List

/-! ## Writing -/

/-- The last bytes of a number, most significant first. -/
def beBytes : Nat → Nat → List UInt8
  | 0, _ => []
  | w + 1, v => UInt8.ofNat (v / 256 ^ w) :: beBytes w v

def berLen (len : Nat) : List UInt8 :=
  if len < 128 then [UInt8.ofNat len]
  else if len < 256 then [0x81, UInt8.ofNat len]
  else [0x82, UInt8.ofNat (len / 256), UInt8.ofNat (len % 256)]

def berTlv (tag : UInt8) (body : List UInt8) : List UInt8 := tag :: (berLen body.length ++ body)

variable (w v : Nat)

/-- The body of an unsigned integer of `w` bytes: no leading zeros, one in front of a high bit. -/
def minimalBytes : List UInt8 :=
  match (beBytes w v).dropWhile (· = 0) with
  | [] => [0]
  | b :: rest => if 128 ≤ b then 0 :: b :: rest else b :: rest

def minimalUint (v : Nat) : List UInt8 := minimalBytes 8 v

/-- The groups of seven bits above the lowest one. -/
def base128High : Nat → Nat → List UInt8
  | 0, _ => []
  | fuel + 1, v =>
    if v = 0 then [] else base128High fuel (v / 128) ++ [UInt8.ofNat (v % 128 + 128)]

def base128 (p : Nat) : List UInt8 :=
  if p < 128 then [UInt8.ofNat p] else base128High 10 (p / 128) ++ [UInt8.ofNat (p % 128)]

/-- The numbers of a dotted text; what is no number counts as zero. -/
def oidParts (oid : String) : List Nat :=
  (Text.split oid '.').map fun p => (Text.parseUnsigned 64 p).getD 0

def encodeOid {ε : Type} (oid : String) : Res ε (List UInt8) := do
  let parts := oidParts oid
  let a ← index parts 0
  let m ← checkedMul 64 a 40
  let b ← index parts 1
  let first ← checkedAdd 64 m b
  let rest ← slice parts 2 parts.length
  pure (berTlv 0x06 (UInt8.ofNat first :: rest.flatMap base128))

/-! ## Reading -/

/-- A tag and a value, and where the value starts in the buffer. -/
structure Tlv where
  tag : UInt8
  value : List UInt8
  start : Nat
  deriving DecidableEq, Repr

section Reader

variable (buf : List UInt8)

def byte : Scan Unit UInt8 := fun pos =>
  match buf[pos]? with
  | some b => .ok (b, pos + 1)
  | none => .err ()

def lengthBytes : Nat → Nat → Scan Unit Nat
  | 0, l => pure l
  | n + 1, l => do
    let b ← byte buf
    lengthBytes n (l * 256 + b.toNat)

def readLength (first : UInt8) : Scan Unit Nat :=
  if first < 128 then pure first.toNat
  else if first.toNat % 128 = 0 ∨ first.toNat % 128 > 4 then fail ()
  else lengthBytes buf (first.toNat % 128) 0

def tlv : Scan Unit Tlv := do
  let tag ← byte buf
  let first ← byte buf
  let len ← readLength buf first
  let start ← get
  set (start + len)
  if start + len > buf.length then fail ()
  else do
    let value ← lift (slice buf start (start + len))
    pure ⟨tag, value, start⟩

end Reader

def decodeBerInt (body : List UInt8) : Option Int :=
  match body with
  | [] => none
  | b :: _ =>
    if body.length > 8 then none
    else some (body.foldl (fun v b => v * 256 + b.toNat) (if 128 ≤ b then -1 else 0))

/-- The numbers behind the first byte, each ended by a byte below 128. -/
def oidTail : Nat → List UInt8 → List Nat
  | _, [] => []
  | v, b :: rest =>
    let v := (v * 128 + b.toNat % 128) % 2 ^ 64
    if b < 128 then v :: oidTail 0 rest else oidTail v rest

def oidToString (body : List UInt8) : String :=
  match body with
  | [] => ""
  | b :: rest =>
    Text.join "." ((b.toNat / 40 :: b.toNat % 40 :: oidTail 0 rest).map Text.decimal)

def hexDigit (n : Nat) : Char :=
  if n < 10 then Char.ofNat (48 + n) else Char.ofNat (87 + n)

def hexOf (bytes : List UInt8) : String :=
  String.ofList (bytes.flatMap fun b => [hexDigit (b.toNat / 16), hexDigit (b.toNat % 16)])

def hexValue (c : Char) : Option Nat :=
  if '0' ≤ c ∧ c ≤ '9' then some (c.toNat - 48)
  else if 'a' ≤ c ∧ c ≤ 'f' then some (c.toNat - 87)
  else if 'A' ≤ c ∧ c ≤ 'F' then some (c.toNat - 55)
  else none

/-- Two characters as a number; a sign may stand before the second. -/
def hexPair (a b : Char) : Option Nat :=
  if a = '+' then hexValue b else do pure (16 * (← hexValue a) + (← hexValue b))

def hexBytes : List Char → Option (List UInt8)
  | [] => some []
  | [_] => none
  | a :: b :: rest => do
    let v ← hexPair a b
    let more ← hexBytes rest
    pure (UInt8.ofNat v :: more)

/-- The bytes of a text of ASCII characters. -/
def hexToBytes (s : String) : Option (List UInt8) := hexBytes s.toList

/-- The items of a sequence of sequences, up to the first that cannot be read. -/
def readItems {β : Type} (item : List UInt8 → Res Unit β) (buf : List UInt8) :
    Nat → Nat → List β → Res Unit (List β)
  | 0, _, _ => .spin
  | fuel + 1, pos, out =>
    match (tlv buf).run pos with
    | .err _ => .ok out
    | .ok (t, p) =>
      if t.tag ≠ 0x30 then .err ()
      else do
        let x ← item t.value
        readItems item buf fuel p (out ++ [x])
    | .panic q => .panic q
    | .spin => .spin

def items {β : Type} (item : List UInt8 → Res Unit β) (buf : List UInt8) : Res Unit (List β) :=
  readItems item buf (buf.length + 1) 0 []

/-! ## The reader returns -/

section Returns

variable (buf : List UInt8)

theorem byte_safe (pos : Nat) : Safe (byte buf) pos := by
  unfold Safe byte
  rw [StateT.run]
  split <;> trivial

variable {pos p : Nat}

theorem byte_ok {b : UInt8} :
    (byte buf).run pos = .ok (b, p) ↔ buf[pos]? = some b ∧ p = pos + 1 := by
  unfold byte
  rw [StateT.run]
  cases buf[pos]? with
  | none => simp
  | some c => simp [eq_comm]

theorem lengthBytes_safe (n l pos : Nat) : Safe (lengthBytes buf n l) pos := by
  induction n generalizing l pos with
  | zero => exact safe_pure ..
  | succ n ih => simp [lengthBytes, safe_bind, byte_safe, ih]

theorem readLength_safe (first : UInt8) (pos : Nat) : Safe (readLength buf first) pos := by
  unfold readLength
  split
  · exact safe_pure ..
  split
  · exact safe_fail ..
  · exact lengthBytes_safe ..

theorem tlv_safe (pos : Nat) : Safe (tlv buf) pos := by
  unfold tlv
  refine (byte_safe buf pos).bind fun tag p => (byte_safe buf p).bind fun first p => ?_
  refine (readLength_safe buf first p).bind fun len p => ?_
  rw [safe_get_bind, safe_set_bind]
  split
  · exact safe_fail ..
  · rw [slice_within (by omega) (by omega), safe_lift_ok_bind]
    exact safe_pure ..

variable {len : Nat} {β : Type}

theorem lengthBytes_pos {n l : Nat} (h : (lengthBytes buf n l).run pos = .ok (len, p)) :
    pos ≤ p := by
  induction n generalizing l pos with
  | zero =>
    cases h
    rfl
  | succ n ih =>
    obtain ⟨b, q, hb, hrest⟩ := run_bind_ok.mp h
    obtain ⟨-, rfl⟩ := (byte_ok buf).mp hb
    have := ih hrest
    omega

theorem readLength_pos {first : UInt8} (h : (readLength buf first).run pos = .ok (len, p)) :
    pos ≤ p := by
  unfold readLength at h
  split at h
  · cases h
    rfl
  split at h
  · cases h
  · exact lengthBytes_pos buf h

theorem tlv_pos {t : Tlv} (h : (tlv buf).run pos = .ok (t, p)) : pos + 2 ≤ p ∧ p ≤ buf.length := by
  obtain ⟨tag, p₁, htag, h₁⟩ := run_bind_ok.mp h
  obtain ⟨first, p₂, hfirst, h₂⟩ := run_bind_ok.mp h₁
  obtain ⟨len, p₃, hlen, hrest⟩ := run_bind_ok.mp h₂
  obtain ⟨-, rfl⟩ := (byte_ok buf).mp htag
  obtain ⟨-, rfl⟩ := (byte_ok buf).mp hfirst
  have hle := readLength_pos buf hlen
  rw [run_get_bind, run_set_bind] at hrest
  split at hrest
  · cases hrest
  · rw [slice_within (by omega) (by omega), run_lift_ok_bind] at hrest
    cases hrest
    omega

theorem readItems_safe {item : List UInt8 → Res Unit β} (hitem : ∀ bytes, (item bytes).Returns)
    (fuel pos : Nat) (out : List β) (h : buf.length - pos < fuel) :
    (readItems item buf fuel pos out).Returns := by
  induction fuel generalizing pos out with
  | zero => omega
  | succ fuel ih =>
    have hread := tlv_safe buf pos
    unfold readItems
    unfold Safe at hread
    cases hrun : (tlv buf).run pos with
    | err _ => trivial
    | panic q => rwa [hrun] at hread
    | spin => rwa [hrun] at hread
    | ok r =>
      obtain ⟨t, p⟩ := r
      have hpos := tlv_pos buf hrun
      simp only
      split
      · trivial
      · exact (hitem _).bind fun x => ih p _ (by omega)

theorem items_safe {item : List UInt8 → Res Unit β} (hitem : ∀ bytes, (item bytes).Returns) :
    (items item buf).Returns :=
  readItems_safe buf hitem _ 0 [] (by omega)

end Returns

/-! ## What is written can be read -/

section RoundTrip

variable {buf rest : List UInt8} {pos : Nat}

theorem drop_after {xs : List UInt8} (h : buf.drop pos = xs ++ rest) :
    buf.drop (pos + xs.length) = rest := by
  rw [← drop_drop, h, drop_left]

variable {b : UInt8} {body : List UInt8}

theorem drop_succ (h : buf.drop pos = b :: rest) : buf.drop (pos + 1) = rest :=
  drop_after (show buf.drop pos = [b] ++ rest from h)

theorem byte_at (h : buf.drop pos = b :: rest) : (byte buf).run pos = .ok (b, pos + 1) := by
  rw [byte_ok, ← head?_drop, h]
  exact ⟨rfl, rfl⟩

theorem toNat_ofNat {n : Nat} (h : n < 256) : (UInt8.ofNat n).toNat = n := by
  rw [UInt8.toNat_ofNat']
  omega

theorem berLen_ne_nil (len : Nat) : ∃ first more, berLen len = first :: more := by
  unfold berLen
  split
  · exact ⟨_, _, rfl⟩
  split <;> exact ⟨_, _, rfl⟩

theorem readLength_encoded {len : Nat} {first : UInt8} {more : List UInt8} (hlen : len < 65536)
    (hfirst : berLen len = first :: more) (h : buf.drop pos = more ++ rest) :
    (readLength buf first).run pos = .ok (len, pos + more.length) := by
  unfold berLen at hfirst
  by_cases hshort : len < 128
  · rw [if_pos hshort] at hfirst
    obtain ⟨rfl, rfl⟩ := cons.inj hfirst
    have hvalue := toNat_ofNat (show len < 256 by omega)
    have hlow : UInt8.ofNat len < 128 := by
      rw [UInt8.lt_iff_toNat_lt, hvalue]
      exact hshort
    rw [readLength, if_pos hlow, hvalue]
    rfl
  rw [if_neg hshort] at hfirst
  by_cases hone : len < 256
  · rw [if_pos hone] at hfirst
    obtain ⟨rfl, rfl⟩ := cons.inj hfirst
    have hb := byte_at h
    change (lengthBytes buf 1 0).run pos = _
    rw [lengthBytes, run_bind_of_ok hb, lengthBytes, toNat_ofNat hone]
    simp
  · rw [if_neg hone] at hfirst
    obtain ⟨rfl, rfl⟩ := cons.inj hfirst
    have hb := byte_at h
    have hc := byte_at (drop_succ h)
    change (lengthBytes buf 2 0).run pos = _
    rw [lengthBytes, run_bind_of_ok hb, lengthBytes, run_bind_of_ok hc, lengthBytes,
      toNat_ofNat (show len / 256 < 256 by omega), toNat_ofNat (show len % 256 < 256 by omega)]
    rw [run_pure, Nat.zero_mul, Nat.zero_add, Nat.mul_comm, Nat.div_add_mod]
    rfl

variable {tag : UInt8}

/-- A value of less than 64 KiB is read back where it was written. -/
theorem tlv_encoded (hlen : body.length < 65536) (h : buf.drop pos = berTlv tag body ++ rest) :
    (tlv buf).run pos = .ok (⟨tag, body, pos + 1 + (berLen body.length).length⟩,
      pos + (berTlv tag body).length) := by
  obtain ⟨first, more, hfirst⟩ := berLen_ne_nil body.length
  simp only [berTlv, hfirst, cons_append, append_assoc] at h
  have htag := byte_at h
  have h₁ := drop_succ h
  have hone := byte_at h₁
  have h₂ := drop_succ h₁
  have hlength := readLength_encoded hlen hfirst h₂
  have h₃ := drop_after h₂
  have hend : pos + 1 + 1 + more.length + body.length ≤ buf.length := by
    have htotal := congrArg length h
    simp only [length_drop, length_cons, length_append] at htotal
    omega
  unfold tlv
  rw [run_bind_of_ok htag, run_bind_of_ok hone, run_bind_of_ok hlength, run_get_bind, run_set_bind,
    if_neg (by omega), slice_within (by omega) hend, run_lift_ok_bind, run_pure]
  have hbody : (buf.drop (pos + 1 + 1 + more.length)).take body.length = body := by
    rw [h₃, take_left]
  simp only [Nat.add_sub_cancel_left, hbody, hfirst, berTlv, length_cons, length_append]
  congr 2
  · congr 1
    omega
  · omega

/-- A scanner that reads a value first. -/
theorem run_tlv_bind {β : Type} {f : Tlv → Scan Unit β} (hlen : body.length < 65536)
    (h : buf.drop pos = berTlv tag body ++ rest) :
    (tlv buf >>= f).run pos = (f ⟨tag, body, pos + 1 + (berLen body.length).length⟩).run
      (pos + (berTlv tag body).length) :=
  run_bind_of_ok (tlv_encoded hlen h)

theorem berTlv_length (tag : UInt8) (body : List UInt8) :
    (berTlv tag body).length = 1 + (berLen body.length).length + body.length := by
  simp only [berTlv, length_cons, length_append]
  omega

theorem berLen_length (n : Nat) :
    (berLen n).length = if n < 128 then 1 else if n < 256 then 2 else 3 := by
  unfold berLen
  split
  · rfl
  split <;> rfl

theorem berTlv_inj {a b : List UInt8} (h : berTlv tag a = berTlv tag b) : a = b := by
  have hlen : a.length = b.length := by
    have htotal := congrArg length h
    simp only [berTlv_length, berLen_length] at htotal
    split_ifs at htotal <;> omega
  rw [berTlv, berTlv, hlen] at h
  exact append_cancel_left (cons.inj h).2

theorem tlv_at_end (h : buf.drop pos = []) : (tlv buf).run pos = .err () := by
  have hnone : buf[pos]? = none := by
    rw [← head?_drop, h]
    rfl
  have hbyte : (byte buf).run pos = .err () := by
    unfold byte
    rw [StateT.run, hnone]
  rw [tlv, StateT.run_bind, hbyte]
  rfl

section Items

variable {β γ : Type} {item : List UInt8 → Res Unit β} {enc : γ → List UInt8} {f : γ → β}

/-- A written sequence of sequences. -/
def encodeItems (enc : γ → List UInt8) (xs : List γ) : List UInt8 :=
  xs.flatMap fun x => berTlv 0x30 (enc x)

theorem encodeItems_cons (x : γ) (xs : List γ) :
    encodeItems enc (x :: xs) = berTlv 0x30 (enc x) ++ encodeItems enc xs := rfl

variable {xs : List γ}

theorem enc_length_lt {x : γ} (h : x ∈ xs) : (enc x).length < (encodeItems enc xs).length := by
  induction h with
  | head xs =>
    rw [encodeItems_cons, length_append, berTlv_length]
    omega
  | tail y _ ih =>
    rw [encodeItems_cons, length_append]
    omega

theorem readItems_encoded (hlen : ∀ x ∈ xs, (enc x).length < 65536)
    (hitem : ∀ x ∈ xs, item (enc x) = .ok (f x)) (out : List β) (fuel : Nat)
    (hfuel : xs.length < fuel) (h : buf.drop pos = encodeItems enc xs) :
    readItems item buf fuel pos out = .ok (out ++ xs.map f) := by
  induction fuel generalizing xs pos out with
  | zero => omega
  | succ fuel ih =>
    unfold readItems
    cases xs with
    | nil => rw [tlv_at_end h, map_nil, append_nil]
    | cons x xs =>
      rw [tlv_encoded (hlen x (by simp)) h]
      simp only [ne_eq, not_true_eq_false, if_false, hitem x (by simp), ok_bind]
      rw [ih (fun y hy => hlen y (by simp [hy])) (fun y hy => hitem y (by simp [hy])) _
        (by simp at hfuel; omega) (drop_after h), map_cons, append_assoc]
      rfl

theorem items_encoded (hlen : (encodeItems enc xs).length < 65536)
    (hitem : ∀ x ∈ xs, item (enc x) = .ok (f x)) :
    items item (encodeItems enc xs) = .ok (xs.map f) := by
  have hcount : xs.length ≤ (encodeItems enc xs).length := by
    clear hlen hitem
    induction xs with
    | nil => simp
    | cons x xs ih =>
      simp only [encodeItems_cons, length_append, length_cons, berTlv_length]
      omega
  refine readItems_encoded (fun x hx => ?_) hitem [] _ (by omega) rfl
  have : (enc x).length < (encodeItems enc xs).length := enc_length_lt hx
  omega

end Items

end RoundTrip

/-! ## Integers -/

/-- The number that bytes spell behind another one. -/
def natOf (acc : Nat) (bytes : List UInt8) : Nat := bytes.foldl (fun v b => v * 256 + b.toNat) acc

@[simp] theorem beBytes_length : (beBytes w v).length = w := by
  induction w with
  | zero => rfl
  | succ w ih => simp [beBytes, ih]

variable (acc : Nat) (bytes : List UInt8)

theorem natOf_beBytes : natOf acc (beBytes w v) = acc * 256 ^ w + v % 256 ^ w := by
  induction w generalizing acc with
  | zero => simp [natOf, beBytes, Nat.mod_one]
  | succ w ih =>
    have hstep : natOf acc (beBytes (w + 1) v) =
        natOf (acc * 256 + v / 256 ^ w % 256) (beBytes w v) := by
      simp [natOf, beBytes]
    rw [hstep, ih, Nat.pow_succ, Nat.mod_mul]
    ring

theorem natOf_acc : natOf acc bytes = acc * 256 ^ bytes.length + natOf 0 bytes := by
  induction bytes generalizing acc with
  | nil => simp [natOf]
  | cons b rest ih =>
    have hcons : ∀ a, natOf a (b :: rest) = natOf (a * 256 + b.toNat) rest := fun _ => rfl
    rw [hcons, hcons, ih, ih (0 * 256 + b.toNat), length_cons]
    ring

theorem natOf_dropWhile : natOf 0 (bytes.dropWhile (· = 0)) = natOf 0 bytes := by
  induction bytes with
  | nil => rfl
  | cons b rest ih =>
    by_cases hb : b = 0
    · subst hb
      simpa [natOf] using ih
    · simp [hb]

theorem foldl_natOf : bytes.foldl (fun (v : Int) b => v * 256 + b.toNat) acc = natOf acc bytes := by
  induction bytes generalizing acc with
  | nil => rfl
  | cons b rest ih => simpa [natOf] using ih (acc * 256 + b.toNat)

theorem stripped_length : ((beBytes w v).dropWhile (· = 0)).length ≤ w := by
  simpa using (dropWhile_suffix (l := beBytes w v) (· = 0)).length_le

theorem minimalBytes_length : (minimalBytes w v).length ≤ w + 1 := by
  have hlength := stripped_length w v
  unfold minimalBytes
  split
  · simp
  · next b rest hbytes =>
    rw [hbytes] at hlength
    split <;> simp at hlength ⊢ <;> omega

theorem decodeBerInt_minimalBytes {w v : Nat} (hw : w ≤ 8) (hv : v < 256 ^ w) (h : v < 2 ^ 63) :
    decodeBerInt (minimalBytes w v) = some (v : Int) := by
  have hvalue : natOf 0 ((beBytes w v).dropWhile (· = 0)) = v := by
    rw [natOf_dropWhile, natOf_beBytes, Nat.zero_mul, Nat.zero_add, Nat.mod_eq_of_lt hv]
  have hlength := (stripped_length w v).trans hw
  unfold minimalBytes
  cases hbytes : (beBytes w v).dropWhile (· = 0) with
  | nil =>
    rw [hbytes] at hvalue
    subst hvalue
    rfl
  | cons b rest =>
    rw [hbytes] at hvalue hlength
    simp only
    by_cases hhigh : 128 ≤ b
    · have hrest : rest.length ≤ 6 := by
        by_contra hlong
        have hseven : rest.length = 7 := by simp at hlength; omega
        have hacc := natOf_acc b.toNat rest
        have hbig : 128 ≤ b.toNat := UInt8.le_iff_toNat_le.mp hhigh
        have hsum : natOf b.toNat rest = v := by simpa [natOf] using hvalue
        rw [hseven] at hacc
        omega
      have hpad : natOf 0 (0 :: b :: rest) = v := by simpa [natOf] using hvalue
      rw [if_pos hhigh, decodeBerInt, if_neg (by simp; omega), if_neg (by decide)]
      exact congrArg some ((foldl_natOf 0 (0 :: b :: rest)).trans (congrArg Nat.cast hpad))
    · rw [if_neg hhigh, decodeBerInt, if_neg (by simpa using hlength), if_neg hhigh]
      exact congrArg some ((foldl_natOf 0 (b :: rest)).trans (congrArg Nat.cast hvalue))

theorem decodeBerInt_minimalUint {v : Nat} (h : v < 2 ^ 63) :
    decodeBerInt (minimalUint v) = some (v : Int) :=
  decodeBerInt_minimalBytes (Nat.le_refl 8) (by omega) h

/-! ## Object identifiers -/

theorem oidTail_high {fuel q : Nat} (hq : q < 128 ^ fuel) (h64 : q < 2 ^ 64) (ys : List UInt8) :
    oidTail 0 (base128High fuel q ++ ys) = oidTail q ys := by
  induction fuel generalizing q ys with
  | zero =>
    obtain rfl : q = 0 := by simpa using hq
    rfl
  | succ fuel ih =>
    rw [base128High]
    split
    · next hzero => rw [hzero, nil_append]
    · have hbyte : (UInt8.ofNat (q % 128 + 128)).toNat = q % 128 + 128 := toNat_ofNat (by omega)
      have hhigh : ¬ UInt8.ofNat (q % 128 + 128) < 128 := by
        rw [UInt8.lt_iff_toNat_lt, hbyte]
        change ¬ q % 128 + 128 < 128
        omega
      have hdiv : q / 128 < 128 ^ fuel := by
        omega
      rw [append_assoc, ih hdiv (by omega), singleton_append, oidTail]
      simp only [hbyte, if_neg hhigh]
      congr 1
      omega

theorem oidTail_base128 {p : Nat} (hp : p < 2 ^ 64) (ys : List UInt8) :
    oidTail 0 (base128 p ++ ys) = p :: oidTail 0 ys := by
  have last : ∀ v d, d < 128 → oidTail v (UInt8.ofNat d :: ys) =
      (v * 128 + d) % 2 ^ 64 :: oidTail 0 ys := by
    intro v d hd
    have hbyte : (UInt8.ofNat d).toNat = d := toNat_ofNat (by omega)
    have hlow : UInt8.ofNat d < 128 := by
      rw [UInt8.lt_iff_toNat_lt, hbyte]
      exact hd
    rw [oidTail]
    simp only [hbyte, if_pos hlow, Nat.mod_eq_of_lt hd]
  unfold base128
  split
  · next hshort =>
    rw [singleton_append, last 0 p hshort]
    congr 1
    omega
  · have hhigh : p / 128 < 128 ^ 10 := by
      omega
    rw [append_assoc, oidTail_high hhigh (by omega), singleton_append,
      last (p / 128) (p % 128) (by omega)]
    congr 1
    omega

theorem oidTail_flatMap {ps : List Nat} (h : ∀ p ∈ ps, p < 2 ^ 64) :
    oidTail 0 (ps.flatMap base128) = ps := by
  induction ps with
  | nil => rfl
  | cons p ps ih =>
    rw [flatMap_cons, oidTail_base128 (h p (by simp)), ih fun q hq => h q (by simp [hq])]

theorem oidTail_lt (v : Nat) (bytes : List UInt8) :
    ∀ p ∈ oidTail v bytes, p < 2 ^ 64 := by
  induction bytes generalizing v with
  | nil => simp [oidTail]
  | cons b rest ih =>
    rw [oidTail]
    split
    · intro p hp
      rcases mem_cons.mp hp with rfl | hp
      · exact Nat.mod_lt _ (by decide)
      · exact ih 0 p hp
    · exact ih _

/-- There are two numbers to make the first byte of, and it can be computed. -/
def Encodable : List Nat → Prop
  | a :: b :: _ => a * 40 + b < 2 ^ 64
  | _ => False

instance : (ps : List Nat) → Decidable (Encodable ps)
  | a :: b :: _ => inferInstanceAs (Decidable (a * 40 + b < 2 ^ 64))
  | [] => .isFalse id
  | [_] => .isFalse id

variable {ε : Type} {oid : String}

theorem encodeOid_returns_iff :
    (encodeOid oid : Res ε (List UInt8)).Returns ↔ Encodable (oidParts oid) := by
  unfold encodeOid
  match oidParts oid with
  | [] => exact iff_of_false id id
  | [a] =>
    refine iff_of_false (fun h => ?_) id
    obtain ⟨-, h⟩ := returns_bind.mp h
    obtain ⟨hmul, h⟩ := returns_bind.mp (h a rfl)
    unfold checkedMul at hmul h
    split at hmul
    · next hfits => exact h _ (if_pos hfits)
    · exact hmul
  | a :: b :: rest =>
    have hslice :
        (slice (a :: b :: rest) 2 (a :: b :: rest).length : Res ε (List Nat)).Returns := by
      rw [slice_within (by simp) (Nat.le_refl _)]
      trivial
    change ((checkedMul 64 a 40 : Res ε Nat) >>= fun m => (checkedAdd 64 m b >>= fun _ =>
      slice (a :: b :: rest) 2 (a :: b :: rest).length >>= fun _ => _)).Returns ↔
        a * 40 + b < 2 ^ 64
    by_cases hmul : a * 40 < 2 ^ 64
    · rw [checkedMul_fits hmul, ok_bind]
      by_cases hadd : a * 40 + b < 2 ^ 64
      · rw [checkedAdd_fits hadd, ok_bind, returns_bind]
        exact iff_of_true ⟨hslice, fun _ _ => trivial⟩ hadd
      · rw [checkedAdd, if_neg hadd]
        exact iff_of_false id hadd
    · rw [checkedMul, if_neg hmul]
      exact iff_of_false id (by omega)

/-- An object identifier whose first byte says its first two numbers. -/
structure Oid where
  first : Nat
  second : Nat
  rest : List Nat
  second_lt : second < 40
  first_byte : first * 40 + second < 256
  rest_lt : ∀ p ∈ rest, p < 2 ^ 64

namespace Oid

def parts (o : Oid) : List Nat := o.first :: o.second :: o.rest

def text (o : Oid) : String := Text.join "." (o.parts.map Text.decimal)

/-- The value bytes of its encoding. -/
def body (o : Oid) : List UInt8 :=
  UInt8.ofNat (o.first * 40 + o.second) :: o.rest.flatMap base128

variable (o : Oid)

theorem parts_lt : ∀ p ∈ o.parts, p < 2 ^ 64 := by
  intro p hp
  have hsmall := o.first_byte
  rcases mem_cons.mp hp with rfl | hp
  · omega
  rcases mem_cons.mp hp with rfl | hp
  · omega
  · exact o.rest_lt p hp

theorem oidParts_text : oidParts o.text = o.parts := by
  have hsplit : Text.split o.text '.' = o.parts.map Text.decimal := by
    refine Text.split_join (by simp [parts]) ?_
    intro t ht hdot
    obtain ⟨p, -, rfl⟩ := mem_map.mp ht
    exact absurd (Text.isDigit_of_mem_decimal hdot) (by decide)
  rw [oidParts, hsplit, map_map]
  refine (map_congr_left fun p hp => ?_).trans (map_id _)
  rw [Function.comp_apply, Text.parseUnsigned_decimal (o.parts_lt p hp)]
  rfl

theorem encode_text {ε : Type} :
    (encodeOid o.text : Res ε (List UInt8)) = .ok (berTlv 0x06 o.body) := by
  have hfirst := o.first_byte
  have hzero : (index o.parts 0 : Res ε Nat) = .ok o.first := rfl
  have hone : (index o.parts 1 : Res ε Nat) = .ok o.second := rfl
  have hrest : (slice o.parts 2 o.parts.length : Res ε (List Nat)) = .ok o.rest := by
    rw [slice_within (by simp [parts]) (Nat.le_refl _)]
    simp [parts]
  simp only [encodeOid, oidParts_text, hzero, hone, hrest, ok_bind]
  rw [checkedMul_fits (by omega), ok_bind, checkedAdd_fits (by omega)]
  rfl

theorem toString_body : oidToString o.body = o.text := by
  have hsecond := o.second_lt
  have hbyte : (UInt8.ofNat (o.first * 40 + o.second)).toNat = o.first * 40 + o.second :=
    toNat_ofNat o.first_byte
  have hdiv : (o.first * 40 + o.second) / 40 = o.first := by omega
  have hmod : (o.first * 40 + o.second) % 40 = o.second := by omega
  simp only [oidToString, body, text, parts, hbyte, hdiv, hmod, oidTail_flatMap o.rest_lt]

/-- Bytes are shown as such an identifier, whatever was written. -/
theorem text_of_bytes {bytes : List UInt8} (h : bytes ≠ []) :
    ∃ o : Oid, o.text = oidToString bytes := by
  obtain ⟨b, rest, rfl⟩ := exists_cons_of_ne_nil h
  have hb := b.toNat_lt
  exact ⟨⟨b.toNat / 40, b.toNat % 40, oidTail 0 rest, Nat.mod_lt _ (by decide), by omega,
    oidTail_lt 0 rest⟩, rfl⟩

end Oid

theorem encodeOid_ok {bytes : List UInt8} (h : (encodeOid oid : Res ε (List UInt8)) = .ok bytes) :
    ∃ body, body ≠ [] ∧ bytes = berTlv 0x06 body := by
  obtain ⟨a, -, h⟩ := bind_eq_ok.mp h
  obtain ⟨m, -, h⟩ := bind_eq_ok.mp h
  obtain ⟨b, -, h⟩ := bind_eq_ok.mp h
  obtain ⟨first, -, h⟩ := bind_eq_ok.mp h
  obtain ⟨rest, -, h⟩ := bind_eq_ok.mp h
  cases h
  exact ⟨_, by simp, rfl⟩

end Steward.Ber
