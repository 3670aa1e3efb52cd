import Mathlib.Data.List.Forall2
import Steward.Usm

/-!
# The layout of SNMPv3 messages

Keys and digests have their lengths, a get is read back layer by layer, and a message is
the same before and behind its digest whatever the digest is. Nothing before the digest
looks like its placeholder unless the engine id or the user name does.
-/

namespace Steward.Usm

open Fallible Scan Ber Res Patterns List
open V3Session (scopedPdu usmSeq header assemble)

/-! ## Texts and bytes -/

theorem lossy_utf8 (replace : List UInt8 → String) (s : String) : lossy replace (utf8 s) = s := by
  have h : String.fromUTF8? ⟨(utf8 s).toArray⟩ = some s := dif_pos s.isValidUTF8
  rw [lossy, h]
  rfl

theorem utf8_length_eq_zero {s : String} : (utf8 s).length = 0 ↔ s = "" := by
  simp [utf8]

theorem foldl_or_eq_zero {xs : List UInt8} {acc : UInt8} :
    xs.foldl (· ||| ·) acc = 0 ↔ acc = 0 ∧ ∀ x ∈ xs, x = 0 := by
  induction xs generalizing acc with
  | nil => simp
  | cons x xs ih => simp [ih, and_assoc]

theorem constantTimeEq_iff {a b : List UInt8} : constantTimeEq a b = true ↔ a = b := by
  unfold constantTimeEq
  simp only [Bool.and_eq_true, beq_iff_eq, foldl_or_eq_zero, true_and]
  constructor
  · rintro ⟨hlen, hxor⟩
    refine ext_getElem hlen fun i hi hj => ?_
    refine UInt8.xor_eq_zero_iff.mp (hxor _ ?_)
    refine mem_iff_getElem.mpr ⟨i, by simp; omega, by simp⟩
  · rintro rfl
    refine ⟨rfl, fun x hx => ?_⟩
    obtain ⟨i, hi, rfl⟩ := mem_iff_getElem.mp hx
    simp

theorem hexValue_hexDigit : ∀ n < 16, hexValue (hexDigit n) = some n := by decide

theorem hexDigit_ne_plus : ∀ n < 16, hexDigit n ≠ '+' := by decide

theorem hexToBytes_hexOf (bytes : List UInt8) : hexToBytes (hexOf bytes) = some bytes := by
  unfold hexToBytes hexOf
  rw [String.toList_ofList]
  induction bytes with
  | nil => rfl
  | cons b rest ih =>
    have hb := b.toNat_lt
    have hpair : hexPair (hexDigit (b.toNat / 16)) (hexDigit (b.toNat % 16)) = some b.toNat := by
      rw [hexPair, if_neg (hexDigit_ne_plus _ (by omega)), hexValue_hexDigit _ (by omega),
        hexValue_hexDigit _ (by omega)]
      exact congrArg some (by omega)
    simp only [flatMap_cons, cons_append, nil_append, hexBytes, hpair, ih]
    simp

/-! ## Keys and digests -/

section Keys

variable (c : Crypto) {ε : Type} (auth : AuthProtocol) (key msg : List UInt8)

theorem hashPassword_ok {password : List UInt8} (h : password.length ≠ 0) :
    (hashPassword c auth password : Res ε (List UInt8)) =
      .ok (c.hash (hasher auth) (repeated (2 ^ 20) password)) := if_neg h

theorem localize_length (ku engineId : List UInt8) :
    (localize c auth ku engineId).length = (hasher auth).size := c.hash_length ..

theorem HashAlg.size_ge (h : HashAlg) : 16 ≤ h.size := by cases h <;> decide

variable (params : V3Params) (engineId : List UInt8)

theorem extendKey_ok {key : List UInt8}
    (hkey : key.length = (hasher params.auth).size) :
    ∃ extended, (extendKey c params engineId key : Res ε (List UInt8)) = .ok extended ∧
      keyLength params.priv ≤ extended.length := by
  have hsize := (hasher params.auth).size_ge
  have hne : key.length ≠ 0 := by omega
  unfold extendKey
  cases params.priv
  case noPriv => exact ⟨_, rfl, Nat.le_refl _⟩
  case des => exact ⟨_, rfl, by simpa [keyLength, hkey] using hsize⟩
  case aes192 | aes256 =>
    refine ⟨_, rfl, ?_⟩
    simp only [keyLength, length_append, c.hash_length]
    omega
  all_goals
    simp only [hashPassword_ok c _ hne, ok_bind]
    refine ⟨_, rfl, ?_⟩
    simp only [keyLength, length_append, localize_length]
    omega

theorem privKey_ok
    (hpass : params.priv ≠ .noPriv → params.privPass ≠ "") :
    ∃ key, (privKey c params engineId : Res ε (List UInt8)) = .ok key ∧
      key.length = keyLength params.priv := by
  unfold privKey
  split
  · next h => exact ⟨[], rfl, by rw [h]; rfl⟩
  · next h =>
    have hne : (utf8 params.privPass).length ≠ 0 := mt utf8_length_eq_zero.mp (hpass h)
    rw [hashPassword_ok c _ hne, ok_bind]
    obtain ⟨extended, hok, hlen⟩ := extendKey_ok (ε := ε) c params engineId
      (localize_length c params.auth (c.hash (hasher params.auth)
        (repeated (2 ^ 20) (utf8 params.privPass))) engineId)
    rw [hok, ok_bind, slice_within (Nat.zero_le _) hlen]
    exact ⟨_, rfl, by simpa using hlen⟩

/-- A passphrase stands wherever a protocol asks for one. -/
def V3Params.HasPassphrases : Prop :=
  (params.auth ≠ .noAuth → params.authPass ≠ "") ∧ (params.priv ≠ .noPriv → params.privPass ≠ "")

variable {params : V3Params}

/-- What a new session holds besides its arguments. -/
theorem new_ok (boots time : UInt32) (draws : Draws)
    (h : params.HasPassphrases) :
    ∃ s, (V3Session.new c params engineId boots time draws : Res ε V3Session) = .ok s ∧
      s.params = params ∧ s.engineId = engineId ∧
      s.privKey.length = keyLength params.priv := by
  have hauth : ∃ key, (if params.auth ≠ .noAuth then authKey c params engineId else .ok [] :
      Res ε (List UInt8)) = .ok key := by
    split
    · next hauth =>
      have hne : (utf8 params.authPass).length ≠ 0 := mt utf8_length_eq_zero.mp (h.1 hauth)
      rw [authKey, hashPassword_ok c _ hne]
      exact ⟨_, rfl⟩
    · exact ⟨_, rfl⟩
  have hpriv : ∃ key, (if params.priv ≠ .noPriv then privKey c params engineId else .ok [] :
      Res ε (List UInt8)) = .ok key ∧ key.length = keyLength params.priv := by
    split
    · exact privKey_ok c params engineId h.2
    · next hpriv =>
      rw [not_not] at hpriv
      exact ⟨[], rfl, by rw [hpriv]; rfl⟩
  obtain ⟨auth, hauth⟩ := hauth
  obtain ⟨priv, hpriv, hlen⟩ := hpriv
  exact ⟨_, by rw [V3Session.new, hauth, ok_bind, hpriv]; rfl, rfl, rfl, hlen⟩

/-- An empty passphrase is a division by zero. -/
theorem hasPassphrases_of_new {engineId : List UInt8} {boots time : UInt32} {draws : Draws}
    {s : V3Session}
    (h : (V3Session.new c params engineId boots time draws : Res ε V3Session) = .ok s) :
    params.HasPassphrases := by
  obtain ⟨auth, hauth, h⟩ := bind_eq_ok.mp h
  obtain ⟨priv, hpriv, -⟩ := bind_eq_ok.mp h
  constructor
  · intro hne hempty
    rw [if_pos hne, authKey, hempty] at hauth
    cases hauth
  · intro hne hempty
    rw [if_pos hne, privKey, if_neg hne, hempty] at hpriv
    cases hpriv

/-- The digest of a message. -/
def digest (auth : AuthProtocol) (key msg : List UInt8) : List UInt8 :=
  (fullDigest c auth key msg).take (digestLen auth)

theorem digestLen_le : digestLen auth ≤ (fullDigest c auth key msg).length := by
  cases auth <;> simp [fullDigest, digestLen, c.hash_length, c.hmac_length, hasher, HashAlg.size]

theorem calcDigest_eq :
    (calcDigest c auth key msg : Res ε (List UInt8)) = .ok (digest c auth key msg) :=
  slice_within (Nat.zero_le _) (digestLen_le c auth key msg)

theorem digest_length : (digest c auth key msg).length = digestLen auth := by
  rw [digest, length_take, Nat.min_eq_left (digestLen_le c auth key msg)]

theorem digestLen_bounds {auth : AuthProtocol} (h : auth ≠ .noAuth) :
    12 ≤ digestLen auth ∧ digestLen auth ≤ 48 := by
  cases auth <;> first | exact absurd rfl h | decide

end Keys

/-! ## The request behind the security parameters -/

/-- A name with no value. -/
def nullVarbind (name : List UInt8) : List UInt8 := berTlv 0x06 name ++ berTlv 0x05 []

/-- The bytes under which an identifier is sent. -/
def SentAs (oid : String) (name : List UInt8) : Prop :=
  name ≠ [] ∧ (encodeOid oid : Res Unit (List UInt8)) = .ok (berTlv 0x06 name)

variable {oids : List String}

theorem encodeVarbinds_ok {bytes : List UInt8} (h : Snmp.encodeVarbinds oids = .ok bytes) :
    ∃ names, Forall₂ SentAs oids names ∧
      bytes = encodeItems nullVarbind names := by
  induction oids generalizing bytes with
  | nil =>
    cases h
    exact ⟨[], .nil, rfl⟩
  | cons oid oids ih =>
    obtain ⟨name, hname, h⟩ := bind_eq_ok.mp h
    obtain ⟨more, hmore, h⟩ := bind_eq_ok.mp h
    cases h
    obtain ⟨body, hbody, rfl⟩ := encodeOid_ok hname
    obtain ⟨names, hnames, rfl⟩ := ih hmore
    exact ⟨body :: names, .cons ⟨hbody, hname⟩ hnames, rfl⟩

theorem encodeVarbinds_texts (h : ∀ oid ∈ oids, ∃ o : Oid, o.text = oid) :
    ∃ bytes, Snmp.encodeVarbinds oids = .ok bytes := by
  induction oids with
  | nil => exact ⟨_, rfl⟩
  | cons oid oids ih =>
    obtain ⟨o, rfl⟩ := h oid (by simp)
    obtain ⟨more, hmore⟩ := ih fun q hq => h q (by simp [hq])
    rw [Snmp.encodeVarbinds, o.encode_text, ok_bind, hmore]
    exact ⟨_, rfl⟩

/-- Sent names are shown as what was asked exactly when that was in the usual form. -/
theorem shown_iff {names : List (List UInt8)} (h : Forall₂ SentAs oids names) :
    names.map oidToString = oids ↔ ∀ oid ∈ oids, ∃ o : Oid, o.text = oid := by
  induction h with
  | nil => simp
  | @cons oid name oids names hsent _ ih =>
    simp only [map_cons, cons.injEq, ih, forall_mem_cons]
    refine and_congr_left fun _ => ⟨?_, ?_⟩
    · rintro rfl
      exact Oid.text_of_bytes hsent.1
    · rintro ⟨o, rfl⟩
      have hbody : o.body = name := berTlv_inj (ok.inj (o.encode_text.symm.trans hsent.2))
      rw [← hbody, o.toString_body]

theorem nameAndValue_null {name : List UInt8} (hlen : name.length < 65536) :
    Snmp.nameAndValue (nullVarbind name) =
      .ok (⟨0x06, name, 0 + 1 + (berLen name.length).length⟩,
        ⟨0x05, [], 0 + (berTlv 0x06 name).length + 1 + 1⟩) := by
  have h₀ : (nullVarbind name).drop 0 = berTlv 0x06 name ++ berTlv 0x05 [] := rfl
  have h₁ : (nullVarbind name).drop (0 + (berTlv 0x06 name).length) = berTlv 0x05 [] ++ [] := by
    rw [drop_after h₀, append_nil]
  unfold Snmp.nameAndValue
  rw [run_tlv_bind hlen h₀, run_tlv_bind (by decide) h₁]
  rfl

section Scoped

variable (replace : List UInt8 → String)

/-- The body of a get for these names. -/
def getBody (reqId : Nat) (names : List (List UInt8)) : List UInt8 :=
  berTlv 0x02 (minimalUint reqId) ++ berTlv 0x02 [0] ++ berTlv 0x02 [0] ++
    berTlv 0x30 (encodeItems nullVarbind names)

/-- The message with the fields of a get. -/
def V3Message.asking (out : V3Message) (reqId : Nat) (names : List (List UInt8)) : V3Message :=
  { out with
    reqId := reqId
    errorStatus := 0
    varbindNames := out.varbindNames ++ names.map oidToString
    varbindRaw := out.varbindRaw ++ names.map fun name => (oidToString name, 0x05, [])
    varbinds := out.varbinds ++ names.map fun _ => none
    pduTag := 0xA0 }

theorem minimalUint_length (v : Nat) : (minimalUint v).length ≤ 9 := minimalBytes_length 8 v

variable {reqId : Nat} {names : List (List UInt8)}

theorem pduFields_get (hreq : reqId < 2 ^ 63)
    (hlist : (encodeItems nullVarbind names).length < 65536) :
    ∃ p, (pduFields (getBody reqId names)).run 0 =
      .ok ((reqId, 0, encodeItems nullVarbind names), p) := by
  have hid : (minimalUint reqId).length < 65536 := by
    have := minimalUint_length reqId
    omega
  have h₀ : (getBody reqId names).drop 0 = berTlv 0x02 (minimalUint reqId) ++
      (berTlv 0x02 [0] ++ (berTlv 0x02 [0] ++
        (berTlv 0x30 (encodeItems nullVarbind names) ++ []))) := by
    simp [getBody]
  have h₁ := drop_after h₀
  have h₂ := drop_after h₁
  have h₃ := drop_after h₂
  unfold pduFields
  rw [run_tlv_bind hid h₀, decodeBerInt_minimalUint hreq, ofOption_some, run_lift_ok_bind,
    run_tlv_bind (by decide) h₁, run_tlv_bind (by decide) h₂, run_tlv_bind hlist h₃]
  exact ⟨_, rfl⟩

/-- A get is parsed back, also with padding behind it. -/
theorem parseScopedPdu_get {engineId : List UInt8} (out : V3Message) (junk : List UInt8)
    (hreq : reqId < 2 ^ 63)
    (hsize : (scopedPdu engineId 0xA0 (getBody reqId names)).length < 65536) :
    parseScopedPdu replace (scopedPdu engineId 0xA0 (getBody reqId names) ++ junk) out =
      .ok (out.asking reqId names) := by
  have hbounds : engineId.length < 65536 ∧ (encodeItems nullVarbind names).length < 65536 ∧
      (getBody reqId names).length < 65536 ∧
      (berTlv 0x04 engineId ++ berTlv 0x04 [] ++ berTlv 0xA0 (getBody reqId names)).length <
        65536 := by
    simp only [scopedPdu, getBody, berTlv_length, length_append] at hsize ⊢
    omega
  obtain ⟨hengine, hlist, hbody, hinner⟩ := hbounds
  generalize hi : berTlv 0x04 engineId ++ berTlv 0x04 [] ++
    berTlv 0xA0 (getBody reqId names) = inner at hinner
  have htop : (scopedPdu engineId 0xA0 (getBody reqId names) ++ junk).drop 0 =
      berTlv 0x30 inner ++ junk := by
    simp [scopedPdu, ← hi]
  have h₀ : inner.drop 0 = berTlv 0x04 engineId ++ (berTlv 0x04 [] ++
      (berTlv 0xA0 (getBody reqId names) ++ [])) := by
    simp [← hi]
  have h₁ := drop_after h₀
  have h₂ := drop_after h₁
  have hscoped : ∃ start p, (scopedFields inner).run 0 =
      .ok (⟨0xA0, getBody reqId names, start⟩, p) := by
    unfold scopedFields
    rw [run_tlv_bind hengine h₀, run_tlv_bind (by decide) h₁, tlv_encoded hbody h₂]
    exact ⟨_, _, rfl⟩
  obtain ⟨start, p, hscoped⟩ := hscoped
  obtain ⟨q, hfields⟩ := pduFields_get hreq hlist
  have hitems : items (readVarbind replace) (encodeItems nullVarbind names) =
      .ok (names.map fun name => ⟨oidToString name, 0x05, [], none⟩) := by
    refine items_encoded hlist fun name hname => ?_
    have hlt : (nullVarbind name).length < (encodeItems nullVarbind names).length :=
      enc_length_lt hname
    simp only [nullVarbind, length_append, berTlv_length] at hlt
    rw [readVarbind, nameAndValue_null (by omega)]
    rfl
  have htag : ¬ ¬ ((0xA0 : UInt8) ≤ 0xA0 ∧ (0xA0 : UInt8) ≤ 0xA8) := by decide
  unfold parseScopedPdu
  rw [tlv_encoded hinner htop]
  simp only [ok_bind, ne_eq, not_true_eq_false, if_false, hscoped, hfields, hitems, if_neg htag,
    map_map]
  rfl

end Scoped

/-! ## The layout of a message -/

theorem decodeBerInt_word {v : UInt32} (h : v.toNat < 2 ^ 31) :
    decodeBerInt (beBytes 4 v.toNat) = some (v.toNat : Int) := by
  have hvalue : natOf 0 (beBytes 4 v.toNat) = v.toNat := by
    rw [natOf_beBytes]
    omega
  have hhead : beBytes 4 v.toNat = UInt8.ofNat (v.toNat / 256 ^ 3) :: beBytes 3 v.toNat := rfl
  have hlow : ¬ 128 ≤ UInt8.ofNat (v.toNat / 256 ^ 3) := by
    rw [UInt8.le_iff_toNat_le, toNat_ofNat (by omega)]
    change ¬ 128 ≤ v.toNat / 256 ^ 3
    omega
  rw [hhead] at hvalue ⊢
  rw [decodeBerInt, if_neg (by simp), if_neg hlow]
  exact congrArg some ((foldl_natOf 0 _).trans (congrArg Nat.cast hvalue))

@[simp] theorem asU32_toNat (v : UInt32) : asU32 (v.toNat : Int) = v := by
  have hlt := v.toNat_lt
  have hmod : ((v.toNat : Int) % 2 ^ 32).toNat = v.toNat := by omega
  rw [asU32, hmod, UInt32.ofNat_toNat]

theorem unsigned31_lt (v : UInt32) : (unsigned31 v).toNat < 2 ^ 31 := by
  exact Nat.lt_of_le_of_lt Nat.and_le_right (by decide)

/-- The bytes before a value. -/
def opening (tag : UInt8) (len : Nat) : List UInt8 := tag :: berLen len

theorem berTlv_eq (tag : UInt8) (body : List UInt8) :
    berTlv tag body = opening tag body.length ++ body := rfl

/-- What a message says of the session that sent it. -/
structure Sender where
  msgId : UInt32
  engineId : List UInt8
  boots : UInt32
  time : UInt32
  user : List UInt8

def V3Session.sender (s : V3Session) : Sender :=
  ⟨s.msgId, s.engineId, s.boots, s.time, utf8 s.params.username⟩

namespace Sender

def SameClocks (s t : Sender) : Prop := s.msgId = t.msgId ∧ s.boots = t.boots ∧ s.time = t.time

variable (s : Sender) (flags : UInt8) (auth priv data : List UInt8)

/-- The security parameters with these values for digest and salt. -/
def secure : List UInt8 :=
  usmSeq s.engineId s.boots.toNat s.time.toNat s.user (berTlv 0x04 auth) priv

def message : List UInt8 := assemble s.msgId flags (berTlv 0x04 (s.secure auth priv)) data

def clocks : List UInt8 :=
  berTlv 0x02 (minimalUint s.boots.toNat) ++ berTlv 0x02 (minimalUint s.time.toNat)

/-- The security parameters before the digest. -/
def identity : List UInt8 := berTlv 0x04 s.engineId ++ (s.clocks ++ berTlv 0x04 s.user)

variable (n : Nat)

def usmLength : Nat :=
  s.identity.length + (1 + (berLen n).length + n) + (berTlv 0x04 priv).length

def secureLength : Nat :=
  (opening 0x30 (s.usmLength priv n)).length + s.usmLength priv n

def bodyLength : Nat :=
  (berTlv 0x02 [3]).length + (berTlv 0x30 (header s.msgId flags)).length +
    (opening 0x04 (s.secureLength priv n)).length + s.secureLength priv n + data.length

def preamble : List UInt8 :=
  opening 0x30 (s.bodyLength flags priv data n) ++ (berTlv 0x02 [3] ++
    (berTlv 0x30 (header s.msgId flags) ++ (opening 0x04 (s.secureLength priv n) ++
      opening 0x30 (s.usmLength priv n))))

/-- The bytes of a message before a digest of this length. -/
def front : List UInt8 := s.preamble flags priv data n ++ s.identity

theorem secure_eq : s.secure auth priv = opening 0x30 (s.usmLength priv auth.length) ++
    (s.identity ++ (berTlv 0x04 auth ++ berTlv 0x04 priv)) := by
  have hlen : s.usmLength priv auth.length =
      (s.identity ++ (berTlv 0x04 auth ++ berTlv 0x04 priv)).length := by
    simp only [usmLength, length_append, berTlv_length 0x04 auth]
    omega
  rw [hlen, ← berTlv_eq, secure, usmSeq, identity, clocks]
  simp only [append_assoc]

theorem secure_length : (s.secure auth priv).length = s.secureLength priv auth.length := by
  rw [secure_eq, secureLength]
  simp only [length_append, usmLength, berTlv_length 0x04 auth]
  omega

/-- Only the length of the digest matters before and behind it. -/
theorem message_eq : s.message flags auth priv data = s.front flags priv data auth.length ++
    (berTlv 0x04 auth ++ (berTlv 0x04 priv ++ data)) := by
  have hlen : (berTlv 0x02 [3] ++ berTlv 0x30 (header s.msgId flags) ++
      berTlv 0x04 (s.secure auth priv) ++ data).length =
      s.bodyLength flags priv data auth.length := by
    simp only [length_append, berTlv_eq 0x04 (s.secure auth priv), secure_length, bodyLength]
    omega
  rw [message, assemble, berTlv_eq 0x30, hlen, berTlv_eq 0x04 (s.secure auth priv), secure_length,
    secure_eq, front, preamble]
  simp only [append_assoc]

/-- Where the digest stands. -/
def digestAt : Nat := (s.front flags priv data n).length + (opening 0x04 n).length

variable {s flags auth priv data}

theorem writeAt_message {new : List UInt8} (h : new.length = auth.length) :
    writeAt (s.message flags auth priv data) (s.digestAt flags priv data auth.length)
      new = s.message flags new priv data := by
  rw [message_eq, message_eq, berTlv_eq 0x04 auth, berTlv_eq 0x04 new, h, digestAt, ← length_append]
  simp only [append_assoc]
  rw [← append_assoc, writeAt_append _ _ h, append_assoc]

end Sender

/-! ## Reading a message -/

theorem header_length (msgId : UInt32) (flags : UInt8) : (header msgId flags).length = 17 := by
  rfl

theorem globalData_header (msgId : UInt32) (flags : UInt8) :
    ∃ p, (globalData (header msgId flags)).run 0 =
      .ok ((beBytes 4 msgId.toNat, flags), p) := by
  have hid : (beBytes 4 msgId.toNat).length < 65536 := by
    rw [beBytes_length]
    decide
  have h₀ : (header msgId flags).drop 0 = berTlv 0x02 (beBytes 4 msgId.toNat) ++
      (berTlv 0x02 (minimalUint 65535) ++ (berTlv 0x04 [flags] ++ (berTlv 0x02 [3] ++ []))) := by
    simp [header]
  have h₁ := drop_after h₀
  have h₂ := drop_after h₁
  unfold globalData
  rw [run_tlv_bind hid h₀, run_tlv_bind (by decide) h₁, run_tlv_bind (by simp) h₂]
  simp only
  exact ⟨_, rfl⟩

namespace Sender

section Decode

variable {s : Sender} {flags : UInt8} {auth priv : List UInt8}

/-- The fields of the security parameters. -/
def fields (s : Sender) (auth priv : List UInt8) : UsmFields :=
  ⟨s.engineId, minimalUint s.boots.toNat, minimalUint s.time.toNat, s.user,
    ⟨0x04, auth, s.identity.length + 1 + (berLen auth.length).length⟩, priv⟩

theorem usmFields_identity
    (hsize : (s.identity ++ (berTlv 0x04 auth ++ berTlv 0x04 priv)).length < 65536) :
    ∃ p, (usmFields (s.identity ++ (berTlv 0x04 auth ++ berTlv 0x04 priv))).run 0 =
      .ok (s.fields auth priv, p) := by
  have hboots := minimalUint_length s.boots.toNat
  have htime := minimalUint_length s.time.toNat
  have hbounds : s.engineId.length < 65536 ∧ s.user.length < 65536 ∧
      auth.length < 65536 ∧ priv.length < 65536 := by
    simp only [identity, clocks, length_append, berTlv_length] at hsize
    omega
  obtain ⟨hengine, huser, hauth, hpriv⟩ := hbounds
  generalize hb : s.identity ++ (berTlv 0x04 auth ++ berTlv 0x04 priv) = buf
  have h₀ : buf.drop 0 = berTlv 0x04 s.engineId ++ (berTlv 0x02 (minimalUint s.boots.toNat) ++
      (berTlv 0x02 (minimalUint s.time.toNat) ++ (berTlv 0x04 s.user ++
        (berTlv 0x04 auth ++ (berTlv 0x04 priv ++ []))))) := by
    simp [← hb, identity, clocks]
  have h₁ := drop_after h₀
  have h₂ := drop_after h₁
  have h₃ := drop_after h₂
  have h₄ := drop_after h₃
  have h₅ := drop_after h₄
  have hat : 0 + (berTlv 0x04 s.engineId).length +
      (berTlv 0x02 (minimalUint s.boots.toNat)).length +
      (berTlv 0x02 (minimalUint s.time.toNat)).length +
      (berTlv 0x04 s.user).length = s.identity.length := by
    simp only [identity, clocks, length_append]
    omega
  unfold usmFields
  rw [run_tlv_bind hengine h₀, run_tlv_bind (by omega) h₁, run_tlv_bind (by omega) h₂,
    run_tlv_bind huser h₃, run_tlv_bind hauth h₄, run_tlv_bind hpriv h₅, run_pure, hat]
  exact ⟨_, rfl⟩

theorem securityParameters_secure {start : Nat} (hsize : (s.secure auth priv).length < 65536) :
    securityParameters ⟨0x04, s.secure auth priv, start⟩ =
      .ok (s.fields auth priv, (opening 0x30 (s.usmLength priv auth.length)).length) := by
  have hinner : (s.identity ++ (berTlv 0x04 auth ++ berTlv 0x04 priv)).length =
      s.usmLength priv auth.length := by
    simp only [usmLength, length_append, berTlv_length 0x04 auth]
    omega
  have hsecure : s.secure auth priv =
      berTlv 0x30 (s.identity ++ (berTlv 0x04 auth ++ berTlv 0x04 priv)) := by
    rw [secure_eq, berTlv_eq 0x30, hinner]
  have hlen : (s.identity ++ (berTlv 0x04 auth ++ berTlv 0x04 priv)).length < 65536 := by
    rw [hsecure, berTlv_length 0x30] at hsize
    omega
  have h₀ : (s.secure auth priv).drop 0 =
      berTlv 0x30 (s.identity ++ (berTlv 0x04 auth ++ berTlv 0x04 priv)) ++ [] := by
    rw [hsecure, append_nil]
    rfl
  obtain ⟨p, hfields⟩ := usmFields_identity hlen
  unfold securityParameters
  rw [tlv_encoded hlen h₀]
  simp only [ne_eq, not_true_eq_false, if_false, ok_bind, hfields, hinner, Nat.zero_add,
    Nat.add_comm 1]
  rfl

/-- The body of a message around its data. -/
def framed (s : Sender) (flags : UInt8) (auth priv data : List UInt8) : List UInt8 :=
  berTlv 0x02 [3] ++ berTlv 0x30 (header s.msgId flags) ++ berTlv 0x04 (s.secure auth priv) ++ data

variable {tag : UInt8} {body : List UInt8}

theorem frame_framed (hsize : (s.framed flags auth priv (berTlv tag body)).length < 65536) :
    ∃ start p, (frame (s.framed flags auth priv (berTlv tag body))).run 0 =
      .ok (⟨beBytes 4 s.msgId.toNat, flags, s.fields auth priv,
        (berTlv 0x02 [3]).length + (berTlv 0x30 (header s.msgId flags)).length + 1 +
          (berLen (s.secure auth priv).length).length +
          (opening 0x30 (s.usmLength priv auth.length)).length +
          (s.identity.length + 1 + (berLen auth.length).length),
        ⟨tag, body, start⟩⟩, p) := by
  have hheader : (header s.msgId flags).length < 65536 := by
    rw [header_length]
    decide
  have hbounds : (s.secure auth priv).length < 65536 ∧ body.length < 65536 := by
    simp only [framed, length_append, berTlv_length] at hsize
    omega
  obtain ⟨hsecure, hbody⟩ := hbounds
  have h₀ : (s.framed flags auth priv (berTlv tag body)).drop 0 = berTlv 0x02 [3] ++
      (berTlv 0x30 (header s.msgId flags) ++ (berTlv 0x04 (s.secure auth priv) ++
        (berTlv tag body ++ []))) := by
    simp [framed]
  have h₁ := drop_after h₀
  have h₂ := drop_after h₁
  have h₃ := drop_after h₂
  have hversion : decodeBerInt [3] = some 3 := rfl
  obtain ⟨q, hglobal⟩ := globalData_header s.msgId flags
  unfold frame
  rw [run_tlv_bind (by decide) h₀, hversion, ofOption_some, run_lift_ok_bind,
    if_neg (by decide), run_tlv_bind hheader h₁, hglobal, run_lift_ok_bind]
  rw [run_tlv_bind hsecure h₂, securityParameters_secure hsecure, run_lift_ok_bind]
  rw [run_tlv_bind hbody h₃, run_pure, Nat.zero_add]
  exact ⟨_, _, rfl⟩

variable (replace : List UInt8 → String)

/-- What is read from a message before its data. -/
def received (s : Sender) (flags : UInt8) (auth priv data : List UInt8) : V3Message :=
  ⟨s.msgId.toNat, flags, s.engineId, s.boots, s.time, lossy replace s.user, auth, priv,
    s.digestAt flags priv data auth.length, 0, 0, [], [], [], 0⟩

theorem framed_length (tag : UInt8) (body : List UInt8) :
    (s.framed flags auth priv (berTlv tag body)).length =
      s.bodyLength flags priv (berTlv tag body) auth.length := by
  simp only [framed, length_append, berTlv_eq 0x04 (s.secure auth priv), secure_length, bodyLength]
  omega

/-- Where the fields say that the digest stands. -/
theorem digestAt_framed (tag : UInt8) (body : List UInt8) :
    0 + 1 + (berLen (s.framed flags auth priv (berTlv tag body)).length).length +
      ((berTlv 0x02 [3]).length + (berTlv 0x30 (header s.msgId flags)).length + 1 +
          (berLen (s.secure auth priv).length).length +
          (opening 0x30 (s.usmLength priv auth.length)).length +
          (s.identity.length + 1 + (berLen auth.length).length)) =
      s.digestAt flags priv (berTlv tag body) auth.length := by
  rw [framed_length, secure_length, digestAt, front, preamble]
  simp only [opening, length_append, length_cons]
  omega

theorem decodeV3Message_message (hid : s.msgId.toNat < 2 ^ 31)
    (hsize : (s.message flags auth priv (berTlv tag body)).length < 65536) :
    decodeV3Message replace (s.message flags auth priv (berTlv tag body)) =
      if tag = 0x30 then
        parseScopedPdu replace (berTlv 0x30 body)
          (s.received replace flags auth priv (berTlv tag body))
      else if tag = 0x04 then
        .ok { s.received replace flags auth priv (berTlv tag body) with
          varbindNames := [encryptedMarker ++ hexOf body] }
      else .err () := by
  have hmessage : s.message flags auth priv (berTlv tag body) =
      berTlv 0x30 (s.framed flags auth priv (berTlv tag body)) := rfl
  have hframed : (s.framed flags auth priv (berTlv tag body)).length < 65536 := by
    rw [hmessage, berTlv_length] at hsize
    omega
  have h₀ : (s.message flags auth priv (berTlv tag body)).drop 0 =
      berTlv 0x30 (s.framed flags auth priv (berTlv tag body)) ++ [] := by
    rw [hmessage, append_nil]
    rfl
  obtain ⟨start, p, hframe⟩ := frame_framed hframed
  have hboots : s.boots.toNat < 2 ^ 63 := by have := s.boots.toNat_lt; omega
  have htime : s.time.toNat < 2 ^ 63 := by have := s.time.toNat_lt; omega
  unfold decodeV3Message
  rw [tlv_encoded hframed h₀]
  simp only [ok_bind, hframe, fields, decodeBerInt_word hid, decodeBerInt_minimalUint hboots,
    decodeBerInt_minimalUint htime, ofOption_some, asU32_toNat,
    digestAt_framed]
  rfl

end Decode

end Sender

/-! ## Where the digest goes -/

section Placeholder

variable {n len : Nat} {tag : UInt8} {seg rest : List UInt8} {s : Sender}

/-- An empty field for a digest. -/
def placeholder (n : Nat) : List UInt8 := Patterns.marked 0x04 (UInt8.ofNat n) 0 n

abbrev Clean (n : Nat) : List UInt8 → List UInt8 → Prop := Patterns.Clear (placeholder n)

/-- The bytes of the placeholder are in neither of the two fields that others choose. -/
def Sender.Placeable (s : Sender) (n : Nat) : Prop :=
  ¬ placeholder n <:+: berTlv 0x04 s.engineId ∧ ¬ placeholder n <:+: berTlv 0x04 s.user

theorem berLen_head (h : len ≠ 0) : ∃ d more, berLen len = d :: more ∧ d ≠ 0 := by
  unfold berLen
  split
  · refine ⟨_, _, rfl, fun hzero => h ?_⟩
    have := congrArg UInt8.toNat hzero
    rwa [toNat_ofNat (by omega)] at this
  split <;> exact ⟨_, _, rfl, by decide⟩

theorem clean_before_opening (hn : 0 < n) (htag : tag ≠ 0) (hlen : len ≠ 0)
    (hseg : ¬ placeholder n <:+: seg) : Clean n seg (opening tag len ++ rest) := by
  obtain ⟨d, more, hd, hne⟩ := berLen_head hlen
  rw [opening, hd]
  exact (clear_iff_absent hn htag hne).mpr hseg

theorem absent_of_short (h : seg.length < n + 2) : ¬ placeholder n <:+: seg := by
  intro hin
  have hle := hin.length_le
  rw [placeholder, marked_length] at hle
  omega

theorem minimalUint_ne_nil (v : Nat) : (minimalUint v).length ≠ 0 := by
  unfold minimalUint minimalBytes
  split
  · decide
  · split <;> simp

theorem clocks_head (s : Sender) : ∃ d more, s.clocks = 0x02 :: d :: more ∧ d ≠ 0 := by
  obtain ⟨d, more, hd, hne⟩ := berLen_head (minimalUint_ne_nil s.boots.toNat)
  exact ⟨d, _, by rw [Sender.clocks, berTlv, hd]; rfl, hne⟩

theorem opening_length_le (tag : UInt8) (len : Nat) : (opening tag len).length ≤ 4 := by
  rw [opening, length_cons, berLen_length]
  split_ifs <;> omega

/-- Another engine id or user name of the same length leaves what is before them. -/
theorem Sender.front_append {t : Sender} (hid : t.msgId = s.msgId)
    (hlen : t.identity.length = s.identity.length) (flags : UInt8) (priv data tail : List UInt8) :
    t.front flags priv data n ++ tail = s.preamble flags priv data n ++
      (berTlv 0x04 t.engineId ++ (t.clocks ++ (berTlv 0x04 t.user ++ tail))) := by
  have hpreamble : t.preamble flags priv data n = s.preamble flags priv data n := by
    simp only [preamble, bodyLength, secureLength, usmLength, hid, hlen]
  simp only [front, identity, hpreamble, append_assoc]

section Digest

variable (hn : 12 ≤ n ∧ n ≤ 48)

include hn

/-- A short segment before an integer or an octet string. -/
theorem clean_before_tag (htag : tag = 0x02 ∨ tag = 0x04) (hseg : seg.length < 14) :
    Clean n seg (tag :: rest) := by
  have hlen : tag ≠ UInt8.ofNat n := by
    intro heq
    have hnat := congrArg UInt8.toNat heq
    rcases htag with rfl | rfl <;> simp at hnat <;> omega
  exact clear_of_short (by rcases htag with rfl | rfl <;> decide) hlen (by omega)

theorem clean_header (msgId : UInt32) (flags : UInt8) (rest : List UInt8) :
    Clean n (berTlv 0x30 (header msgId flags)) (0x04 :: rest) := by
  rw [berTlv_eq, header_length]
  unfold header
  simp only [append_assoc]
  refine clear_append (clean_before_tag hn (.inl rfl) (by decide)) ?_
  refine clear_append (clean_before_tag hn (.inl rfl) ?_) ?_
  · rw [berTlv_length, beBytes_length]
    decide
  refine clear_append (clean_before_tag hn (.inr rfl) (by decide)) ?_
  refine clear_append (clean_before_tag hn (.inl rfl) (by simp [berTlv, berLen])) ?_
  exact clean_before_tag hn (.inr rfl) (by decide)

theorem length_mark_ne_zero : UInt8.ofNat n ≠ 0 := by
  intro hzero
  have hnat := congrArg UInt8.toNat hzero
  simp at hnat
  omega

theorem clean_clocks (s : Sender) (rest : List UInt8) : Clean n s.clocks (0x04 :: rest) := by
  have short : ∀ v, (berTlv 0x02 (minimalUint v)).length < 14 := by
    intro v
    have hv := minimalUint_length v
    rw [berTlv_length, berLen_length, if_pos (by omega)]
    omega
  exact clear_append (clean_before_tag hn (.inl rfl) (short _))
    (clean_before_tag hn (.inr rfl) (short _))

theorem clean_engine (h : ¬ placeholder n <:+: berTlv 0x04 s.engineId) (rest : List UInt8) :
    Clean n (berTlv 0x04 s.engineId) (s.clocks ++ rest) := by
  obtain ⟨d, more, hclocks, hd⟩ := clocks_head s
  rw [hclocks]
  exact (clear_iff_absent (by omega) (by decide) hd).mpr h

/-- The bytes of a digest in place of the zeros of an occurrence leave the length of a value. -/
theorem patched_value {body p q new : List UInt8} (hnew : new.length = n)
    (h : berTlv 0x04 body = p ++ (placeholder n ++ q)) :
    ∃ body', body'.length = body.length ∧
      p ++ (0x04 :: UInt8.ofNat n :: (new ++ q)) = berTlv 0x04 body' := by
  -- a long form of the length starts with a byte that is no mark
  have hform : ∀ b tl, berLen body.length ++ body = b :: tl → b.toNat < 128 →
      body.length < 128 := by
    intro b tl hb hsmall
    by_contra hge
    rw [berLen, if_neg hge] at hb
    split at hb <;> obtain ⟨rfl, -⟩ := cons.inj hb <;> exact absurd hsmall (by decide)
  have hlong : (opening 0x04 body.length).length ≤ p.length + 2 := by
    have hshort : p.length < 2 → body.length < 128 := by
      intro hp
      match p, h with
      | [], h => exact hform _ _ (cons.inj h).2 (by rw [toNat_ofNat (by omega)]; omega)
      | [_], h => exact hform _ _ (cons.inj h).2 (by decide)
    by_cases hp : p.length < 2
    · rw [opening, length_cons, berLen_length, if_pos (hshort hp)]
      omega
    · have := opening_length_le 0x04 body.length
      omega
  obtain ⟨t, ht⟩ : opening 0x04 body.length <+: p ++ [0x04, UInt8.ofNat n] := by
    have hpre : p ++ [0x04, UInt8.ofNat n] <+: berTlv 0x04 body :=
      ⟨replicate n 0 ++ q, by simp [h, placeholder, marked]⟩
    exact prefix_of_prefix_length_le ⟨body, rfl⟩ hpre (by simpa using hlong)
  have hlen : (t ++ (new ++ q)).length = body.length := by
    have hwhole := congrArg length h
    have hstart := congrArg length ht
    simp only [berTlv_eq, length_append, placeholder, marked_length, length_cons, length_nil] at *
    omega
  refine ⟨t ++ (new ++ q), hlen, ?_⟩
  rw [berTlv_eq, hlen, ← append_assoc, ht, append_assoc]
  rfl

/-- Where the placeholder is in a field, the digest goes there. -/
theorem patched_field {before body after new : List UInt8} {c d : UInt8} (hnew : new.length = n)
    (hc : c ≠ 0) (hd : d ≠ 0) (hbefore : Clean n before (berTlv 0x04 body ++ c :: d :: after))
    (h : placeholder n <:+: berTlv 0x04 body) :
    ∃ body' i, body'.length = body.length ∧
      Patterns.find (placeholder n) (before ++ (berTlv 0x04 body ++ c :: d :: after)) = some i ∧
      ∀ tail, writeAt (before ++ (berTlv 0x04 body ++ tail)) (i + 2) new =
        before ++ (berTlv 0x04 body' ++ tail) := by
  have hclear : ¬ Clean n (berTlv 0x04 body) (c :: d :: after) :=
    fun hclear => (clear_iff_absent (by omega) hc hd).mp hclear h
  obtain ⟨p, q, hsplit, hp, hne, hpre⟩ := first_of_not_clear hclear
  obtain ⟨q, rfl⟩ : placeholder n <+: q := prefix_within (by omega) hc hd hne hpre
  obtain ⟨body', hlen, hbody⟩ := patched_value hn hnew hsplit
  refine ⟨body', (before ++ p).length, hlen, ?_, fun tail => ?_⟩
  · rw [hsplit] at hbefore ⊢
    simp only [append_assoc] at hbefore hp
    have hfind := find_of_clear (clear_append hbefore hp)
    simpa only [append_assoc] using hfind
  · have hzeros : new.length = (replicate n (0 : UInt8)).length := hnew.trans length_replicate.symm
    have hwrite := writeAt_append (before ++ p ++ [0x04, UInt8.ofNat n]) (q ++ tail) hzeros
    rw [hsplit, ← hbody]
    simpa [placeholder, marked, Nat.add_assoc] using hwrite

variable (flags : UInt8) (priv data rest : List UInt8)

theorem clean_preamble (s : Sender) : Clean n (s.preamble flags priv data n) (0x04 :: rest) := by
  have short : ∀ tag len, (opening tag len).length < 14 := fun tag len =>
    Nat.lt_of_le_of_lt (opening_length_le tag len) (by decide)
  have husm : s.usmLength priv n ≠ 0 := by
    unfold Sender.usmLength
    omega
  refine clear_append ?_ (clear_append ?_ (clear_append ?_ (clear_append ?_ ?_)))
  · exact clean_before_tag hn (.inl rfl) (short _ _)
  · rw [berTlv_eq 0x30, append_assoc, append_assoc, header_length]
    exact clean_before_opening (by omega) (by decide) (by decide)
      (absent_of_short (Nat.lt_of_lt_of_le (by decide : _ < 14) (by omega)))
  · exact clean_header hn s.msgId flags _
  · exact clean_before_opening (by omega) (by decide) husm
      (absent_of_short (Nat.lt_of_lt_of_le (short _ _) (by omega)))
  · exact clean_before_tag hn (.inr rfl) (short _ _)

theorem find_placed (h : s.Placeable n) :
    Patterns.find (placeholder n) (s.front flags priv data n ++ (placeholder n ++ rest)) =
      some (s.front flags priv data n).length := by
  have huser : Clean n (berTlv 0x04 s.user) (placeholder n ++ rest) :=
    (clear_iff_absent (by omega) (by decide) (length_mark_ne_zero hn)).mpr h.2
  have hengine := clean_engine hn h.1 (berTlv 0x04 s.user ++ (placeholder n ++ rest))
  rw [← append_assoc] at hengine
  exact find_of_clear (clear_append (clean_preamble hn flags priv data _ s)
    (clear_append hengine (clear_append (clean_clocks hn s _) huser)))

/-- A digest that does not go to its own field changes the engine id or the user name. -/
theorem find_misplaced (h : ¬ s.Placeable n) {new : List UInt8} (hnew : new.length = n) :
    ∃ (s' : Sender) (i : Nat), s'.SameClocks s ∧ Patterns.find (placeholder n)
        (s.front flags priv data n ++ (placeholder n ++ rest)) = some i ∧
      ∀ tail, writeAt (s.front flags priv data n ++ tail) (i + 2) new =
        s'.front flags priv data n ++ tail := by
  have hpreamble := fun rest => clean_preamble hn flags priv data rest s
  simp only [Sender.front_append (t := s) rfl rfl]
  by_cases hengine : placeholder n <:+: berTlv 0x04 s.engineId
  · obtain ⟨d, more, hclocks, hd⟩ := clocks_head s
    obtain ⟨engineId, i, hlen, hfind, hwrite⟩ :=
      patched_field hn hnew (by decide : (0x02 : UInt8) ≠ 0) hd (hpreamble _) hengine
    have hfront := Sender.front_append (n := n) (s := s) (t := { s with engineId := engineId }) rfl
      (by simp [Sender.identity, Sender.clocks, berTlv_length, hlen]) flags priv data
    exact ⟨{ s with engineId := engineId }, i, ⟨rfl, rfl, rfl⟩, by rw [hclocks]; exact hfind,
      fun tail => (hwrite _).trans (hfront tail).symm⟩
  · have huser : placeholder n <:+: berTlv 0x04 s.user := by
      by_contra huser
      exact h ⟨hengine, huser⟩
    obtain ⟨user, i, hlen, hfind, hwrite⟩ := patched_field hn hnew
      (by decide : (0x04 : UInt8) ≠ 0) (length_mark_ne_zero hn)
      (clear_append (hpreamble _) (clear_append (clean_engine hn hengine _) (clean_clocks hn s _)))
      huser
    have hfront := Sender.front_append (n := n) (s := s) (t := { s with user := user }) rfl
      (by simp [Sender.identity, Sender.clocks, berTlv_length, hlen]) flags priv data
    simp only [append_assoc] at hfind hwrite
    exact ⟨{ s with user := user }, i, ⟨rfl, rfl, rfl⟩, hfind,
      fun tail => (hwrite tail).trans (hfront tail).symm⟩

end Digest

end Placeholder

end Steward.Usm
