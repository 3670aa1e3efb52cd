import Steward.UsmLayout

/-!
# Requests that their own session verifies

The session that built a get decodes it, decrypts it where privacy is on, and finds the
request id and the identifiers it asked for. An empty passphrase, a protocol for
authentication at a level without it, identifiers in another form than the usual one, and
an engine id or a user name that holds the placeholder stand in the way.
-/

namespace Steward.Usm

open Fallible Scan Ber List

variable (c : Crypto) (replace : List UInt8 → String)

/-! ## Privacy -/

theorem padBlock_length (data : List UInt8) :
    (padBlock data).length % 8 = 0 ∧ padBlock data ≠ [] := by
  constructor
  · simp only [padBlock, length_append, length_replicate]
    omega
  · intro h
    have hlen := congrArg length h
    simp only [padBlock, length_append, length_replicate, length_nil] at hlen
    omega

theorem word_beBytes (v : UInt32) : UInt32.ofNat (natOf 0 (beBytes 4 v.toNat)) = v := by
  have hlt := v.toNat_lt
  have hvalue : natOf 0 (beBytes 4 v.toNat) = v.toNat := by
    rw [natOf_beBytes]
    omega
  rw [hvalue, UInt32.ofNat_toNat]

namespace V3Session

variable {s : V3Session}

/-- The data of a message hold a scoped PDU that the session can read. -/
def Holds (s : V3Session) (priv data plain : List UInt8) : Prop :=
  data = plain ∧ priv = [] ∨
    ∃ ct junk, data = berTlv 0x04 ct ∧ plain.length ≤ ct.length ∧
      ∀ msg : V3Message, msg.privParams = priv → msg.boots = s.boots → msg.time = s.time →
        s.decryptScopedPdu c msg ct = some (plain ++ junk)

variable {plain priv data : List UInt8} {flags : UInt8} {m : V3Message}

theorem des_holds (hpriv : s.params.priv = .des) (hkey : s.privKey.length = 16) :
    s.Holds c (desSalt8 s.boots s.desSalt)
      ((desEncrypt c s.privKey s.boots s.desSalt plain).getD plain) plain := by
  obtain ⟨hblock, hne⟩ := padBlock_length plain
  right
  rw [desEncrypt, if_neg (by omega)]
  have hlen := c.des_length (s.privKey.take 8) (desIv s.privKey s.boots s.desSalt) (padBlock plain)
  refine ⟨_, replicate (8 - plain.length % 8) 0, rfl, ?_, fun msg hsalt _ _ => ?_⟩
  · rw [hlen, padBlock, length_append]
    exact Nat.le_add_right ..
  have hboots : (msg.privParams.drop 0).take 4 = beBytes 4 s.boots.toNat := by
    rw [hsalt, desSalt8, drop_zero, take_left' (beBytes_length ..)]
  have hcount : (msg.privParams.drop 4).take 4 = beBytes 4 s.desSalt.toNat := by
    rw [hsalt, desSalt8, drop_left' (beBytes_length ..), take_of_length_le (by rw [beBytes_length])]
  have hlong : ¬ msg.privParams.length < 8 := by simp [hsalt, desSalt8]
  have hct : ¬ (c.des true (s.privKey.take 8) (desIv s.privKey s.boots s.desSalt)
        (padBlock plain) = [] ∨ (c.des true (s.privKey.take 8)
        (desIv s.privKey s.boots s.desSalt) (padBlock plain)).length % 8 ≠ 0) := by
    rw [← length_eq_zero_iff, hlen, length_eq_zero_iff]
    simp [hne, hblock]
  simp only [decryptScopedPdu, hpriv, if_neg hlong, hboots, hcount, word_beBytes]
  rw [desDecrypt, if_neg (by omega), if_neg hct, c.des_inverse _ _ _ hblock]
  rfl

theorem aes_holds (hno : s.params.priv ≠ .noPriv) (hdes : s.params.priv ≠ .des)
    (hkey : s.privKey.length = keyLength s.params.priv) :
    s.Holds c (beBytes 8 s.aesSalt.toNat)
      ((aesEncrypt c s.privKey s.boots s.time (beBytes 8 s.aesSalt.toNat) plain).getD plain)
      plain := by
  have hlens : s.privKey.length = 16 ∨ s.privKey.length = 24 ∨ s.privKey.length = 32 := by
    cases hp : s.params.priv <;> simp_all [keyLength]
  right
  rw [aesEncrypt, aesCfb, if_pos hlens]
  refine ⟨_, [], rfl, Nat.le_of_eq (c.aes_length ..).symm, fun msg hsalt hboots htime => ?_⟩
  have hlong : ¬ msg.privParams.length < 8 := by simp [hsalt]
  have htake : msg.privParams.take 8 = beBytes 8 s.aesSalt.toNat := by
    rw [hsalt, take_of_length_le (by rw [beBytes_length])]
  have hdecrypt : aesDecrypt c s.privKey s.boots s.time (beBytes 8 s.aesSalt.toNat)
      (c.aes true s.privKey (aesIv s.boots s.time (beBytes 8 s.aesSalt.toNat)) plain) =
      some plain := by
    rw [aesDecrypt, aesCfb, if_pos hlens, c.aes_inverse]
  unfold decryptScopedPdu
  rw [append_nil]
  cases hp : s.params.priv with
  | noPriv => exact absurd hp hno
  | des => exact absurd hp hdes
  | _ => simp only [if_neg hlong, htake, hboots, htime, hdecrypt]

/-- Encryption moves a salt and hides the scoped PDU from no one who holds the key. -/
theorem encryptScoped_holds (hno : s.params.priv ≠ .noPriv)
    (hkey : s.privKey.length = keyLength s.params.priv) :
    ∃ des aes priv data, s.encryptScoped c plain =
        ({ s with desSalt := des, aesSalt := aes }, priv, data) ∧
      { s with desSalt := des, aesSalt := aes }.Holds c priv data plain := by
  by_cases hdes : s.params.priv = .des
  · refine ⟨s.desSalt + 1, s.aesSalt, _, _, by simp only [encryptScoped, hdes]; rfl, ?_⟩
    exact des_holds (s := { s with desSalt := s.desSalt + 1 }) c hdes (by rw [hkey, hdes]; rfl)
  · refine ⟨s.desSalt, s.aesSalt + 1, beBytes 8 (s.aesSalt + 1).toNat,
      (aesEncrypt c s.privKey s.boots s.time (beBytes 8 (s.aesSalt + 1).toNat) plain).getD plain,
      ?_, aes_holds (s := { s with aesSalt := s.aesSalt + 1 }) c hno hdes hkey⟩
    unfold encryptScoped
    cases hp : s.params.priv with
    | noPriv => exact absurd hp hno
    | des => exact absurd hp hdes
    | _ => rfl

/-! ## Building -/

/-- Whether a message of the session carries a digest. -/
def authOn (s : V3Session) : Bool := decide (s.params.auth ≠ .noAuth) && s.flags &&& 0x01 != 0

theorem authOn_iff : s.authOn = true ↔
    s.params.auth ≠ .noAuth ∧ s.params.level ≠ .noAuthNoPriv := by
  have hbit : (3 : UInt8) &&& 1 ≠ 0 := by decide
  unfold authOn flags
  cases s.params.level <;> simp [hbit]

/-- The part of a message in which the placeholder is sought. -/
theorem searched_region (s : Sender) (flags : UInt8) (auth priv data : List UInt8) :
    (slice (s.message flags auth priv data) 0
      ((s.message flags auth priv data).length - data.length) : Res Unit (List UInt8)) =
      .ok (s.front flags priv data auth.length ++ (berTlv 0x04 auth ++ berTlv 0x04 priv)) := by
  rw [slice_within (Nat.zero_le _) (Nat.sub_le _ _), Sender.message_eq, drop_zero, Nat.sub_zero]
  simp only [← append_assoc]
  rw [take_left' (by simp only [length_append]; omega)]

/-- The field of the digest before it is filled. -/
def blank (s : V3Session) : List UInt8 := List.replicate (digestLen s.params.auth) 0

theorem blank_length : s.blank.length = digestLen s.params.auth := length_replicate

theorem berTlv_blank (hauth : s.params.auth ≠ .noAuth) :
    berTlv 0x04 s.blank = placeholder (digestLen s.params.auth) := by
  have hn := digestLen_bounds hauth
  rw [berTlv, blank_length, berLen, if_pos (by omega)]
  rfl

/-- The digest of the message with a blank field. -/
def digested (s : V3Session) (priv data : List UInt8) : List UInt8 :=
  digest c s.params.auth s.authKey (s.sender.message s.flags s.blank priv data)

/-- The digest goes where the placeholder is found. -/
theorem finishMessage_found {i : Nat} (hauth : s.params.auth ≠ .noAuth)
    (hfind : Patterns.find (placeholder (digestLen s.params.auth)) (s.sender.front s.flags priv data
      (digestLen s.params.auth) ++ (placeholder (digestLen s.params.auth) ++ berTlv 0x04 priv)) =
        some i) :
    (s.finishMessage c s.flags (berTlv 0x04 (s.sender.secure s.blank priv)) data true
      (berTlv 0x04 s.blank) : Res Unit (List UInt8)) =
      .ok (Patterns.writeAt (s.sender.message s.flags s.blank priv data) (i + 2)
        (s.digested c priv data)) := by
  have hplace := berTlv_blank hauth
  have hregion := searched_region s.sender s.flags s.blank priv data
  have hdigest := digest_length c s.params.auth s.authKey
    (s.sender.message s.flags s.blank priv data)
  have hfits : i + 2 + digestLen s.params.auth ≤
      (s.sender.message s.flags s.blank priv data).length := by
    have hle := Patterns.find_le hfind
    rw [Sender.message_eq, hplace, blank_length]
    simp only [length_append, placeholder, Patterns.marked_length] at hle ⊢
    omega
  have hunfold : s.finishMessage c s.flags (berTlv 0x04 (s.sender.secure s.blank priv)) data true
      (berTlv 0x04 s.blank) = (do
        let msg := s.sender.message s.flags s.blank priv data
        let region ← slice msg 0 (msg.length - data.length)
        let idx ← Res.expect (Patterns.find (berTlv 0x04 s.blank) region)
        let digest ← calcDigest c s.params.auth s.authKey msg
        let _ ← slice msg (idx + 2) (idx + 2 + digest.length)
        pure (Patterns.writeAt msg (idx + 2) digest) : Res Unit (List UInt8)) := rfl
  rw [hunfold]
  simp only [hregion, hplace, blank_length, hfind, Res.expect, Res.ok_bind, calcDigest_eq, hdigest]
  rw [slice_within (Nat.le_add_right _ _) hfits]
  rfl

variable (s)

/-- The session with the counters that a message moves. -/
def advanced (des : UInt32) (aes : UInt64) : V3Session :=
  { s with msgId := unsigned31 (s.msgId + 1), desSalt := des, aesSalt := aes }

/-- The digest that a message of the session carries. -/
def stamp (priv data : List UInt8) : List UInt8 :=
  if s.authOn then s.digested c priv data else []

def Placed : Prop :=
  s.authOn = true → s.sender.Placeable (digestLen s.params.auth)

/-- The bytes carry the digest in its field, or a blank field and the digest in another one. -/
def Sent (priv data bytes : List UInt8) : Prop :=
  s.Placed ∧ bytes = s.sender.message s.flags (s.stamp c priv data) priv data ∨
    ¬ s.Placed ∧ ∃ t : Sender, t.SameClocks s.sender ∧
      bytes = t.message s.flags s.blank priv data

theorem finishMessage_sent (priv data : List UInt8) :
    ∃ bytes, (s.finishMessage c s.flags (berTlv 0x04 (s.sender.secure
        (if s.authOn then s.blank else []) priv)) data s.authOn
      (berTlv 0x04 (if s.authOn then s.blank else [])) : Res Unit (List UInt8)) = .ok bytes ∧
      s.Sent c priv data bytes := by
  unfold Sent Placed stamp
  cases hon : s.authOn with
  | false => exact ⟨_, rfl, .inl ⟨nofun, rfl⟩⟩
  | true =>
    have hauth := (authOn_iff.mp hon).1
    have hn := digestLen_bounds hauth
    have hdigest : (s.digested c priv data).length = digestLen s.params.auth := digest_length ..
    simp only [if_true]
    by_cases h : s.sender.Placeable (digestLen s.params.auth)
    · have hfind := find_placed hn s.flags priv data (berTlv 0x04 priv) h
      refine ⟨_, finishMessage_found c hauth hfind, .inl ⟨fun _ => h, ?_⟩⟩
      have hat : (s.sender.front s.flags priv data (digestLen s.params.auth)).length + 2 =
          s.sender.digestAt s.flags priv data s.blank.length := by
        rw [Sender.digestAt, opening, length_cons, berLen_length, blank_length, if_pos (by omega)]
      rw [hat, Sender.writeAt_message (hdigest.trans blank_length.symm)]
    · obtain ⟨t, i, hsame, hfind, hwrite⟩ :=
        find_misplaced hn s.flags priv data (berTlv 0x04 priv) h hdigest
      refine ⟨_, finishMessage_found c hauth hfind, .inr ⟨fun hp => h (hp trivial), t, hsame, ?_⟩⟩
      rw [Sender.message_eq, Sender.message_eq, blank_length, hwrite]

variable {s}

/-- The privacy parameters and the data of a message hold the scoped PDU. -/
theorem scoped_holds (plain : List UInt8) (hkey : s.privKey.length = keyLength s.params.priv) :
    ∃ des aes priv data,
      (if decide (s.params.priv ≠ .noPriv) && s.flags &&& 0x02 != 0 then
        encryptScoped c { s with msgId := unsigned31 (s.msgId + 1) } plain
      else ({ s with msgId := unsigned31 (s.msgId + 1) }, [], plain)) =
        (s.advanced des aes, priv, data) ∧ (s.advanced des aes).Holds c priv data plain := by
  by_cases hon : (decide (s.params.priv ≠ .noPriv) && s.flags &&& 0x02 != 0) = true
  · have hno : s.params.priv ≠ .noPriv := of_decide_eq_true (Bool.and_eq_true_iff.mp hon).1
    rw [if_pos hon]
    exact encryptScoped_holds (s := { s with msgId := unsigned31 (s.msgId + 1) }) c hno hkey
  · rw [if_neg hon]
    exact ⟨s.desSalt, s.aesSalt, [], plain, rfl, .inl ⟨rfl, rfl⟩⟩

theorem encodeMessage_ok (body : List UInt8) (hkey : s.privKey.length = keyLength s.params.priv) :
    ∃ des aes priv data bytes,
      (s.encodeMessage c 0xA0 body s.flags false : Res Unit (V3Session × List UInt8)) =
        .ok (s.advanced des aes, bytes) ∧ (s.advanced des aes).Sent c priv data bytes ∧
      (s.advanced des aes).Holds c priv data (scopedPdu s.engineId 0xA0 body) := by
  obtain ⟨des, aes, priv, data, heq, hholds⟩ :=
    scoped_holds c (scopedPdu s.engineId 0xA0 body) hkey
  obtain ⟨bytes, hfinish, hsent⟩ := finishMessage_sent c (s.advanced des aes) priv data
  refine ⟨des, aes, priv, data, bytes, ?_, hsent, hholds⟩
  unfold encodeMessage
  simp only [Bool.not_false, Bool.true_and, Bool.false_eq_true, if_false, heq]
  exact Res.bind_eq_ok.mpr ⟨_, hfinish, rfl⟩

/-! ## Decoding -/

variable {auth : List UInt8} {names : List (List UInt8)}

/-- A message is accepted when no digest is due, or it names the user and its digest is the one of
the session. -/
theorem decode_message {t : Sender} {expect : UInt32}
    (hdec : decodeV3Message replace (t.message flags auth priv data) = .ok m)
    (hauth : m.authParams = auth) (hat : m.authValueOffset = t.digestAt flags priv data auth.length)
    (hreq : m.reqId = 0 ∨ m.reqId = expect.toNat) :
    s.decode c replace (t.message flags auth priv data) expect false =
      if s.params.auth = .noAuth ∨ m.user = s.params.username ∧ digest c s.params.auth s.authKey
        (t.message flags (replicate auth.length 0) priv data) = auth then .ok m
      else .err .authFail := by
  have hid : ¬ (m.reqId ≠ 0 ∧ expect ≠ 0 ∧ m.reqId ≠ expect.toNat) := by
    rintro ⟨hzero, -, hother⟩
    exact hreq.elim hzero hother
  have hfits : ¬ t.digestAt flags priv data auth.length + auth.length >
      (t.message flags auth priv data).length := by
    rw [Sender.message_eq, Sender.digestAt, berTlv_eq]
    simp only [length_append]
    omega
  unfold decode
  rw [hdec, Res.orFail_ok, Res.ok_bind, if_neg hid]
  by_cases hno : s.params.auth = .noAuth
  · simp [hno]
  by_cases huser : m.user = s.params.username
  · simp only [hno, decide_false, Bool.or_false, Bool.false_eq_true, if_false, huser, ne_eq,
      not_true_eq_false, hat, hauth, if_neg hfits, calcDigest_eq, Res.ok_bind, false_or,
      constantTimeEq_iff, true_and]
    rw [Sender.writeAt_message (by simp)]
  · simp [hno, huser]

theorem oidToString_not_marked {name : List UInt8} (h : name ≠ []) :
    Text.stripPrefix encryptedMarker (oidToString name) = none := by
  obtain ⟨o, ho⟩ := Oid.text_of_bytes h
  refine if_neg fun hpre => ?_
  rw [Text.hasPrefix, isPrefixOf_iff_prefix] at hpre
  have hmem : '_' ∈ (oidToString name).toList := hpre.subset (by decide)
  rw [← ho, Oid.text] at hmem
  rcases Text.mem_join hmem with hdot | ⟨t, ht, hc⟩
  · exact absurd hdot (by decide)
  · obtain ⟨p, -, rfl⟩ := mem_map.mp ht
    exact absurd (Text.isDigit_of_mem_decimal hc) (by decide)

theorem openMessage_plain (hnames : m.varbindNames = names.map oidToString)
    (hne : ∀ name ∈ names, name ≠ []) : s.openMessage c replace m = .ok m := by
  have hnone : m.varbindNames.head?.bind (Text.stripPrefix encryptedMarker) = none := by
    rw [hnames]
    cases names with
    | nil => rfl
    | cons name names => exact oidToString_not_marked (hne name (by simp))
  rw [openMessage, hnone]

theorem openMessage_encrypted {ct pt : List UInt8} {opened : V3Message}
    (hnames : m.varbindNames = [encryptedMarker ++ hexOf ct])
    (hdecrypt : s.decryptScopedPdu c m ct = some pt)
    (hparse : parseScopedPdu replace pt { m with varbindNames := [], varbinds := [] } =
      .ok opened) : s.openMessage c replace m = .ok opened := by
  have hhex : m.varbindNames.head?.bind (Text.stripPrefix encryptedMarker) = some (hexOf ct) := by
    rw [hnames]
    exact Text.stripPrefix_append ..
  simp only [openMessage, hhex, hexToBytes_hexOf, Res.ofOption_some, Res.ok_bind, hdecrypt, hparse,
    Res.orFail_ok]

/-- What the session finds in its own message, the digest left aside. -/
theorem message_reads_back {t : Sender} {reqId : Nat} (hsame : t.SameClocks s.sender)
    (hid : s.msgId.toNat < 2 ^ 31) (hreq : reqId < 2 ^ 31) (hne : ∀ name ∈ names, name ≠ [])
    (hholds : s.Holds c priv data (scopedPdu s.engineId 0xA0 (getBody reqId names)))
    (hsize : (t.message flags auth priv data).length < 65536) :
    ∃ m opened, decodeV3Message replace (t.message flags auth priv data) = .ok m ∧
      m.user = lossy replace t.user ∧ m.authParams = auth ∧
      m.authValueOffset = t.digestAt flags priv data auth.length ∧
      (m.reqId = 0 ∨ m.reqId = reqId) ∧ s.openMessage c replace m = .ok opened ∧
      opened.reqId = reqId ∧ opened.varbindNames = names.map oidToString := by
  obtain ⟨hmsg, hboots, htime⟩ := hsame
  have hdata : data.length < 65536 := by
    rw [Sender.message_eq] at hsize
    simp only [length_append] at hsize
    omega
  rcases hholds with ⟨rfl, rfl⟩ | ⟨ct, junk, rfl, hlong, hdecrypt⟩
  · have hdec := Sender.decodeV3Message_message replace (hmsg ▸ hid) hsize
    have hparse := parseScopedPdu_get replace
      (t.received replace flags auth [] (scopedPdu s.engineId 0xA0 (getBody reqId names))) []
      (by omega) hdata
    rw [append_nil] at hparse
    refine ⟨_, _, hdec.trans ((if_pos rfl).trans hparse), rfl, rfl, rfl, .inr rfl,
      openMessage_plain c replace (nil_append _) hne, rfl, nil_append _⟩
  · have hdec := Sender.decodeV3Message_message replace (hmsg ▸ hid) hsize
    have hplain : (scopedPdu s.engineId 0xA0 (getBody reqId names)).length < 65536 := by
      rw [berTlv_length] at hdata
      omega
    refine ⟨_, _, hdec, rfl, rfl, rfl, .inl rfl,
      openMessage_encrypted c replace rfl (hdecrypt _ rfl hboots htime)
        (parseScopedPdu_get replace _ junk (by omega) hplain), rfl, nil_append _⟩

end V3Session

/-! ## Requests -/

section Credentials

variable {quote : String → String} {cred : Credential} {params : V3Params} {level : SecurityLevel}

theorem levelOf_ok {text : String} (h : levelOf quote text = .ok level) :
    level = .noAuthNoPriv ↔ text = "noAuthNoPriv" := by
  unfold levelOf at h
  split at h <;> cases h <;> decide

theorem authOf_ok {auth : AuthProtocol} (h : authOf quote level cred = .ok auth) :
    auth = .noAuth ↔ cred.authProtocol = "" := by
  unfold authOf at h
  split at h
  · next hempty =>
    split at h <;> cases h
    exact iff_of_true rfl hempty
  · next hne =>
    split at h <;> cases h <;> exact iff_of_false (by decide) hne

theorem privOf_ok {priv : PrivProtocol} (h : privOf quote level cred = .ok priv) :
    priv = .noPriv ↔ cred.privProtocol = "" := by
  unfold privOf at h
  split at h
  · next hempty =>
    split at h <;> cases h
    exact iff_of_true rfl hempty
  · next hne =>
    split at h <;> cases h <;> exact iff_of_false (by decide) hne

theorem fromCredential_ok (h : fromCredential quote cred = .ok params) :
    ∃ level auth priv, params = ⟨level, auth, cred.authPassphrase, priv, cred.privPassphrase,
        cred.username⟩ ∧ (level = .noAuthNoPriv ↔ cred.securityLevel = "noAuthNoPriv") ∧
      (auth = .noAuth ↔ cred.authProtocol = "") ∧ (priv = .noPriv ↔ cred.privProtocol = "") := by
  unfold fromCredential at h
  cases hlevel : levelOf quote cred.securityLevel with
  | error e => simp [hlevel, bind, Except.bind] at h
  | ok level =>
    cases hauth : authOf quote level cred with
    | error e => simp [hlevel, hauth, bind, Except.bind] at h
    | ok auth =>
      cases hpriv : privOf quote level cred with
      | error e => simp [hlevel, hauth, hpriv, bind, Except.bind] at h
      | ok priv =>
        simp only [hlevel, hauth, hpriv, bind, Except.bind, pure, Except.pure, Except.ok.injEq] at h
        exact ⟨level, auth, priv, h.symm, levelOf_ok hlevel, authOf_ok hauth, privOf_ok hpriv⟩

end Credentials

section Verified

variable (params : V3Params) (engineId : List UInt8) (boots time : UInt32) (draws : Draws)

/-- A new session builds a get, accepts it, and finds in it what it asked. -/
def Verifies (oids : List String) : Prop :=
  ∃ s s' bytes msg opened,
    (V3Session.new c params engineId boots time draws : Res Unit V3Session) = .ok s ∧
    s.buildGet c oids false = .ok (s', bytes) ∧
    s'.decode c replace bytes s'.reqId false = .ok msg ∧
    s'.openMessage c replace msg = .ok opened ∧
    opened.reqId = s'.reqId.toNat ∧ opened.varbindNames = oids

/-- Every get of a new session is shorter than 64 KiB, and its digest is not all zeros. -/
def Regular (oids : List String) : Prop :=
  ∀ s s' bytes, (V3Session.new c params engineId boots time draws : Res Unit V3Session) = .ok s →
    s.buildGet c oids false = .ok (s', bytes) → bytes.length < 65536 ∧
      (params.auth ≠ .noAuth →
        digest c params.auth s'.authKey bytes ≠ List.replicate (digestLen params.auth) 0)

/-- A digest that is due is written, and to its own field. -/
def V3Params.Signs : Prop :=
  params.auth ≠ .noAuth → params.level ≠ .noAuthNoPriv ∧
    ¬ placeholder (digestLen params.auth) <:+: berTlv 0x04 engineId ∧
    ¬ placeholder (digestLen params.auth) <:+: berTlv 0x04 (utf8 params.username)

instance : Decidable (params.Signs engineId) := inferInstanceAs (Decidable (_ → _))

end Verified

namespace V3Session

variable {s : V3Session} {oids : List String}
  {names : List (List UInt8)}

/-- What a session of a usable key length builds. -/
theorem buildGet_ok (hkey : s.privKey.length = keyLength s.params.priv)
    (hvarbinds : Snmp.encodeVarbinds oids = .ok (encodeItems nullVarbind names)) :
    ∃ s' priv data bytes, s.buildGet c oids false = .ok (s', bytes) ∧
      s'.Sent c priv data bytes ∧ s'.params = s.params ∧ s'.engineId = s.engineId ∧
      s'.msgId.toNat < 2 ^ 31 ∧ s'.reqId.toNat < 2 ^ 31 ∧
      s'.Holds c priv data (scopedPdu s'.engineId 0xA0 (getBody s'.reqId.toNat names)) := by
  obtain ⟨des, aes, priv, data, bytes, hok, hsent, hholds⟩ :=
    encodeMessage_ok (s := { s with reqId := unsigned31 (s.reqId + 1) }) c
      (getBody (unsigned31 (s.reqId + 1)).toNat names) hkey
  refine ⟨advanced { s with reqId := unsigned31 (s.reqId + 1) } des aes, priv, data, bytes, ?_,
    hsent, rfl, rfl, unsigned31_lt (s.msgId + 1), unsigned31_lt (s.reqId + 1), hholds⟩
  unfold buildGet
  rw [hvarbinds, Res.ok_bind]
  exact hok

theorem signs_iff : s.params.Signs s.engineId ↔
    (s.params.auth ≠ .noAuth → s.params.level ≠ .noAuthNoPriv) ∧ s.Placed := by
  unfold V3Params.Signs Placed
  rw [authOn_iff]
  constructor
  · exact fun h => ⟨fun ha => (h ha).1, fun ha => (h ha.1).2⟩
  · exact fun h ha => ⟨h.1 ha, h.2 ⟨ha, h.1 ha⟩⟩

variable {priv data bytes : List UInt8}

/-- The digest of the session is found exactly where one was due and one was written. -/
theorem digest_eq_stamp_iff :
    (s.params.auth = .noAuth ∨ digest c s.params.auth s.authKey
      (s.sender.message s.flags (replicate (s.stamp c priv data).length 0) priv data) =
        s.stamp c priv data) ↔ (s.params.auth ≠ .noAuth → s.params.level ≠ .noAuthNoPriv) := by
  by_cases hno : s.params.auth = .noAuth
  · simp [hno]
  simp only [hno, false_or, ne_eq, not_false_eq_true, forall_const]
  unfold stamp
  cases hon : s.authOn with
  | true => simp [digested, blank, digest_length, (authOn_iff.mp hon).2]
  | false =>
    have hlevel : s.params.level = .noAuthNoPriv := by
      by_contra hlevel
      exact absurd (authOn_iff.mpr ⟨hno, hlevel⟩) (by simp [hon])
    refine iff_of_false (fun heq => ?_) (not_not.mpr hlevel)
    have hlen := congrArg length heq
    have hbounds := digestLen_bounds hno
    rw [digest_length] at hlen
    simp at hlen
    omega

/-- The session takes its own message back unless a digest is due that is not in its field. -/
theorem decode_own (hid : s.msgId.toNat < 2 ^ 31) (hreq : s.reqId.toNat < 2 ^ 31)
    (hne : ∀ name ∈ names, name ≠ []) (hsent : s.Sent c priv data bytes)
    (hholds : s.Holds c priv data (scopedPdu s.engineId 0xA0 (getBody s.reqId.toNat names)))
    (hsize : bytes.length < 65536)
    (hzero : s.params.auth ≠ .noAuth → digest c s.params.auth s.authKey bytes ≠ s.blank) :
    ∃ m opened, s.decode c replace bytes s.reqId false =
        (if s.params.Signs s.engineId then .ok m else .err .authFail) ∧
      s.openMessage c replace m = .ok opened ∧ opened.reqId = s.reqId.toNat ∧
      opened.varbindNames = names.map oidToString := by
  rcases hsent with ⟨hplaced, rfl⟩ | ⟨hplaced, t, hsame, rfl⟩
  · obtain ⟨m, opened, hdec, huser, hauth, hat, hmreq, hrest⟩ :=
      message_reads_back c replace ⟨rfl, rfl, rfl⟩ hid hreq hne hholds hsize
    refine ⟨m, opened, ?_, hrest⟩
    rw [decode_message c replace hdec hauth hat hmreq]
    have hname : m.user = s.params.username := huser.trans (lossy_utf8 ..)
    refine if_congr ?_ rfl rfl
    simp only [hname, true_and, digest_eq_stamp_iff, signs_iff, hplaced, and_true]
  · obtain ⟨m, opened, hdec, -, hauth, hat, hmreq, hrest⟩ :=
      message_reads_back c replace hsame hid hreq hne hholds hsize
    refine ⟨m, opened, ?_, hrest⟩
    have hon : s.authOn = true := by
      by_contra hoff
      exact hplaced fun hon => absurd hon hoff
    have hdue := (authOn_iff.mp hon).1
    rw [decode_message c replace hdec hauth hat hmreq, blank_length, if_neg, if_neg]
    · exact fun h => hplaced (signs_iff.mp h).2
    · exact not_or.mpr ⟨hdue, fun h => hzero hdue h.2⟩

end V3Session

theorem sentAs_ne_nil {oids : List String} {names : List (List UInt8)}
    (h : Forall₂ SentAs oids names) : ∀ name ∈ names, name ≠ [] := by
  induction h with
  | nil => simp
  | cons hsent _ ih => simpa using ⟨hsent.1, ih⟩

section Verified

variable {params : V3Params} {engineId : List UInt8} {boots time : UInt32} {draws : Draws}
  {oids : List String}

variable (hregular : Regular c params engineId boots time draws oids)

include hregular

/-- With passphrases and identifiers that can be sent, a message is built, and the session
takes it back unless a digest is due that is not in its field. -/
theorem takes_back {names : List (List UInt8)} (hpass : params.HasPassphrases)
    (hvarbinds : Snmp.encodeVarbinds oids = .ok (encodeItems nullVarbind names))
    (hne : ∀ name ∈ names, name ≠ []) :
    ∃ s s' bytes m opened,
      (V3Session.new c params engineId boots time draws : Res Unit V3Session) = .ok s ∧
      s.buildGet c oids false = .ok (s', bytes) ∧
      s'.decode c replace bytes s'.reqId false =
        (if params.Signs engineId then .ok m else .err .authFail) ∧
      s'.openMessage c replace m = .ok opened ∧ opened.reqId = s'.reqId.toNat ∧
      opened.varbindNames = names.map oidToString := by
  obtain ⟨s, hnew, hparams, hengine, hkey⟩ := new_ok (ε := Unit) c engineId boots time draws hpass
  obtain ⟨s', priv, data, bytes, hbuild, hsent, hsame, hsameEngine, hid, hreq, hholds⟩ :=
    V3Session.buildGet_ok c (by rw [hkey, hparams]) hvarbinds
  obtain ⟨hsize, hzero⟩ := hregular s s' bytes hnew hbuild
  have hp := hsame.trans hparams
  obtain ⟨m, opened, hdec, hrest⟩ := V3Session.decode_own c replace hid hreq hne hsent hholds hsize
    (by rw [V3Session.blank, hp]; exact hzero)
  rw [hp, hsameEngine, hengine] at hdec
  exact ⟨s, s', bytes, m, opened, hnew, hbuild, hdec, hrest⟩

theorem verifies_iff :
    Verifies c replace params engineId boots time draws oids ↔
      params.HasPassphrases ∧ params.Signs engineId ∧ ∀ oid ∈ oids, ∃ o : Oid, o.text = oid := by
  constructor
  · rintro ⟨s, s', bytes, msg, opened, hnew, hbuild, hdec, hopen, -, hnames⟩
    have hpass := hasPassphrases_of_new c hnew
    obtain ⟨varbinds, hvarbinds, -⟩ := Res.bind_eq_ok.mp hbuild
    obtain ⟨names, hsent, rfl⟩ := encodeVarbinds_ok hvarbinds
    obtain ⟨t, t', bytes', m, opened', hnew', hbuild', hdec', hopen', -, hnames'⟩ :=
      takes_back c replace hregular hpass hvarbinds (sentAs_ne_nil hsent)
    obtain rfl := Res.ok.inj (hnew.symm.trans hnew')
    obtain ⟨rfl, rfl⟩ := Prod.mk.inj (Res.ok.inj (hbuild.symm.trans hbuild'))
    rw [hdec] at hdec'
    by_cases hsigns : params.Signs engineId
    · rw [if_pos hsigns] at hdec'
      obtain rfl := Res.ok.inj hdec'
      obtain rfl := Res.ok.inj (hopen.symm.trans hopen')
      exact ⟨hpass, hsigns, (shown_iff hsent).mp (hnames'.symm.trans hnames)⟩
    · rw [if_neg hsigns] at hdec'
      cases hdec'
  · rintro ⟨hpass, hsigns, hoids⟩
    obtain ⟨varbinds, hvarbinds⟩ := encodeVarbinds_texts hoids
    obtain ⟨names, hsent, rfl⟩ := encodeVarbinds_ok hvarbinds
    obtain ⟨s, s', bytes, m, opened, hnew, hbuild, hdec, hopen, hreq, hnames⟩ :=
      takes_back c replace hregular hpass hvarbinds (sentAs_ne_nil hsent)
    rw [if_pos hsigns] at hdec
    exact ⟨s, s', bytes, m, opened, hnew, hbuild, hdec, hopen, hreq,
      hnames.trans ((shown_iff hsent).mpr hoids)⟩

omit hregular

/-- A credential that is accepted makes requests that verify exactly when every protocol has its
passphrase, authentication is not asked for at the level without it, neither engine id nor user
name holds the placeholder of its digest, and the identifiers are in the usual form. -/
theorem request_verifies_iff {quote : String → String} {cred : Credential}
    (hcred : fromCredential quote cred = .ok params)
    (hregular : Regular c params engineId boots time draws oids) :
    Verifies c replace params engineId boots time draws oids ↔
      (cred.authProtocol ≠ "" →
        cred.authPassphrase ≠ "" ∧ cred.securityLevel ≠ "noAuthNoPriv" ∧
        ¬ placeholder (digestLen params.auth) <:+: berTlv 0x04 engineId ∧
        ¬ placeholder (digestLen params.auth) <:+: berTlv 0x04 (utf8 cred.username)) ∧
      (cred.privProtocol ≠ "" → cred.privPassphrase ≠ "") ∧
      ∀ oid ∈ oids, ∃ o : Oid, o.text = oid := by
  obtain ⟨level, auth, priv, rfl, hlevel, hauth, hpriv⟩ := fromCredential_ok hcred
  rw [verifies_iff c replace hregular]
  simp only [V3Params.HasPassphrases, V3Params.Signs, ne_eq, hlevel, hauth, hpriv, imp_and,
    and_assoc]
  constructor
  · rintro ⟨ha, hp, hl, he, hu, ho⟩
    exact ⟨ha, hl, he, hu, hp, ho⟩
  · rintro ⟨ha, hl, he, hu, hp, ho⟩
    exact ⟨ha, hp, hl, he, hu, ho⟩

end Verified

/-! ### Runs -/

/-- Hashes that are the same for all messages, ciphers that change nothing. -/
def constantCrypto : Crypto where
  hash h _ := List.replicate h.size 1
  hash_length _ _ := List.length_replicate
  hmac h _ _ := List.replicate h.size 1
  hmac_length _ _ _ := List.length_replicate
  aes _ _ _ d := d
  aes_length _ _ _ := rfl
  aes_inverse _ _ _ := rfl
  des _ _ _ d := d
  des_length _ _ _ := rfl
  des_inverse _ _ _ _ := rfl

def monitor : Credential := ⟨"monitor", "authPriv", "MD5", "secret", "DES", "hidden"⟩

def monitorParams : V3Params := ⟨.authPriv, .md5, "secret", .des, "hidden", "monitor"⟩

def noDraws : Draws := ⟨0, 0, 0, 0⟩

def sysDescr : Oid := ⟨1, 3, [6, 1, 2, 1, 1, 1, 0], by decide, by decide, by decide⟩

theorem monitor_verifies :
    fromCredential id monitor = .ok monitorParams ∧
    Verifies constantCrypto (fun _ => "") monitorParams [0x80, 0, 1] 7 9 noDraws
      [sysDescr.text] := by
  have hcred : fromCredential id monitor = .ok monitorParams := by decide
  refine ⟨hcred, (request_verifies_iff constantCrypto (fun _ => "") hcred ?_).mpr
    ⟨by decide, by decide, by simp⟩⟩
  intro s s' bytes hnew hbuild
  have hrun : ((V3Session.new constantCrypto monitorParams [0x80, 0, 1] 7 9 noDraws >>= fun s =>
      s.buildGet constantCrypto [sysDescr.text] false >>= fun r => .ok r.2.length) :
        Res Unit Nat) = .ok 114 := by decide +kernel
  rw [hnew, Res.ok_bind, hbuild] at hrun
  rw [Res.ok.inj hrun]
  exact ⟨by decide, fun _ => show List.replicate 12 1 ≠ List.replicate 12 0 by decide⟩

/-- A get of a new session, decoded and opened. -/
def roundTrip (params : V3Params) (engineId : List UInt8) (oids : List String) :
    Res V3Error V3Message := do
  let s ← V3Session.new constantCrypto params engineId 7 9 noDraws
  let (s, bytes) ← (s.buildGet constantCrypto oids false).orFail .badPacket
  let msg ← s.decode constantCrypto (fun _ => "") bytes s.reqId false
  s.openMessage constantCrypto (fun _ => "") msg

/-- An empty passphrase and an identifier of one number panic, a digest that is due at a level
without it or is put into the engine id is missed, and an identifier comes back as another. -/
theorem requests_fail :
    (∃ params, fromCredential id { monitor with authPassphrase := "" } = .ok params ∧
      roundTrip params [0x80, 0, 1] [sysDescr.text] = .panic .divideByZero) ∧
    (∃ params, fromCredential id { monitor with securityLevel := "noAuthNoPriv" } = .ok params ∧
      roundTrip params [0x80, 0, 1] [sysDescr.text] = .err .authFail) ∧
    roundTrip monitorParams ([0x04, 0x0C] ++ List.replicate 12 0) [sysDescr.text] =
      .err .authFail ∧
    roundTrip monitorParams [0x80, 0, 1] ["1"] = .panic .outOfRange ∧
    ((roundTrip monitorParams [0x80, 0, 1] ["1.40"]) >>= fun msg => .ok msg.varbindNames) =
      .ok ["2.0"] := by
  refine ⟨⟨{ monitorParams with authPass := "" }, by decide, by decide +kernel⟩,
    ⟨{ monitorParams with level := .noAuthNoPriv }, by decide, by decide +kernel⟩, ?_, ?_, ?_⟩
  all_goals decide +kernel

end Steward.Usm
