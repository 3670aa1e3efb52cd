import Steward.Patterns
import Steward.SnmpReplies

/-!
# The SNMPv3 client

Keys, digests, privacy and the message codec of the user-based security model, as the
agent's one-shot get uses them. Hashes and ciphers are given with their lengths and as
inverses of each other; the texts and byte layouts are the client's own.
-/

namespace Steward.Usm

open Fallible Scan Ber

/-! ## Credentials -/

inductive AuthProtocol
  | noAuth | md5 | sha1 | sha224 | sha256 | sha384 | sha512
  deriving DecidableEq, Repr

inductive PrivProtocol
  | noPriv | des | aes | aes192 | aes256 | aes192C | aes256C
  deriving DecidableEq, Repr

inductive SecurityLevel
  | noAuthNoPriv | authNoPriv | authPriv
  deriving DecidableEq, Repr

/-- A credential as it is stored. -/
structure Credential where
  username : String
  securityLevel : String
  authProtocol : String
  authPassphrase : String
  privProtocol : String
  privPassphrase : String
  deriving DecidableEq, Repr

structure V3Params where
  level : SecurityLevel
  auth : AuthProtocol
  authPass : String
  priv : PrivProtocol
  privPass : String
  username : String
  deriving DecidableEq, Repr

section Credentials

-- the quoted form of a text in messages
variable (quote : String → String)

def levelOf (text : String) : Except String SecurityLevel :=
  match text with
  | "noAuthNoPriv" => .ok .noAuthNoPriv
  | "authNoPriv" => .ok .authNoPriv
  | "authPriv" => .ok .authPriv
  | other => .error ("unsupported v3 security level " ++ quote other)

def authOf (level : SecurityLevel) (c : Credential) : Except String AuthProtocol :=
  if c.authProtocol = "" then
    if level = .noAuthNoPriv then .ok .noAuth
    else .error ("auth_protocol required for security level " ++ quote c.securityLevel)
  else
    match c.authProtocol with
    | "MD5" => .ok .md5
    | "SHA" => .ok .sha1
    | "SHA224" => .ok .sha224
    | "SHA256" => .ok .sha256
    | "SHA384" => .ok .sha384
    | "SHA512" => .ok .sha512
    | other => .error ("unknown auth protocol " ++ quote other)

def privOf (level : SecurityLevel) (c : Credential) : Except String PrivProtocol :=
  if c.privProtocol = "" then
    if level ≠ .authPriv then .ok .noPriv
    else .error ("priv_protocol required for security level " ++ quote c.securityLevel)
  else
    match c.privProtocol with
    | "DES" => .ok .des
    | "AES" => .ok .aes
    | "AES192" => .ok .aes192
    | "AES256" => .ok .aes256
    | "AES192C" => .ok .aes192C
    | "AES256C" => .ok .aes256C
    | other => .error ("unknown priv protocol " ++ quote other)

def fromCredential (c : Credential) : Except String V3Params := do
  let level ← levelOf quote c.securityLevel
  let auth ← authOf quote level c
  let priv ← privOf quote level c
  pure ⟨level, auth, c.authPassphrase, priv, c.privPassphrase, c.username⟩

end Credentials

/-! ## Keys and digests -/

inductive HashAlg
  | md5 | sha1 | sha224 | sha256 | sha384 | sha512
  deriving DecidableEq, Repr

def HashAlg.size : HashAlg → Nat
  | md5 => 16
  | sha1 => 20
  | sha224 => 28
  | sha256 => 32
  | sha384 => 48
  | sha512 => 64

/-- The hashes and ciphers of the libraries; the flag of a cipher says whether it encrypts. -/
structure Crypto where
  hash : HashAlg → List UInt8 → List UInt8
  hash_length : ∀ h m, (hash h m).length = h.size
  hmac : HashAlg → List UInt8 → List UInt8 → List UInt8
  hmac_length : ∀ h k m, (hmac h k m).length = h.size
  aes : Bool → List UInt8 → List UInt8 → List UInt8 → List UInt8
  aes_length : ∀ k iv d, (aes true k iv d).length = d.length
  aes_inverse : ∀ k iv d, aes false k iv (aes true k iv d) = d
  des : Bool → List UInt8 → List UInt8 → List UInt8 → List UInt8
  des_length : ∀ k iv d, (des true k iv d).length = d.length
  des_inverse : ∀ k iv d, d.length % 8 = 0 → des false k iv (des true k iv d) = d

def hasher : AuthProtocol → HashAlg
  | .noAuth => .md5
  | .md5 => .md5
  | .sha1 => .sha1
  | .sha224 => .sha224
  | .sha256 => .sha256
  | .sha384 => .sha384
  | .sha512 => .sha512

def utf8 (s : String) : List UInt8 := s.toByteArray.data.toList

/-- The text of octets; how bad ones are replaced is the library's. -/
def lossy (replace : List UInt8 → String) (bytes : List UInt8) : String :=
  (String.fromUTF8? ⟨bytes.toArray⟩).getD (replace bytes)

variable (c : Crypto)

/-- A password over and over, so many bytes of it. -/
def repeated (n : Nat) (password : List UInt8) : List UInt8 :=
  (List.range n).map fun i => password.getD (i % password.length) 0

def hashPassword {ε : Type} (auth : AuthProtocol) (password : List UInt8) :
    Res ε (List UInt8) :=
  -- the index into the password is a remainder by its length
  if password.length = 0 then .panic .divideByZero
  else .ok (c.hash (hasher auth) (repeated (2 ^ 20) password))

def localize (auth : AuthProtocol) (ku engineId : List UInt8) : List UInt8 :=
  c.hash (hasher auth) (ku ++ engineId ++ ku)

def authKey {ε : Type} (params : V3Params) (engineId : List UInt8) : Res ε (List UInt8) := do
  let ku ← hashPassword c params.auth (utf8 params.authPass)
  pure (localize c params.auth ku engineId)

def keyLength : PrivProtocol → Nat
  | .noPriv => 0
  | .des => 16
  | .aes => 16
  | .aes192 => 24
  | .aes192C => 24
  | .aes256 => 32
  | .aes256C => 32

/-- The localized key and the bytes that extend it. -/
def extendKey {ε : Type} (params : V3Params) (engineId key : List UInt8) :
    Res ε (List UInt8) :=
  match params.priv with
  | .noPriv => .ok []
  | .des => .ok key
  | .aes | .aes192C | .aes256C => do
    let ku ← hashPassword c params.auth key
    pure (key ++ localize c params.auth ku engineId)
  | .aes192 | .aes256 => .ok (key ++ c.hash (hasher params.auth) key)

def privKey {ε : Type} (params : V3Params) (engineId : List UInt8) : Res ε (List UInt8) :=
  if params.priv = .noPriv then .ok []
  else do
    let ku ← hashPassword c params.auth (utf8 params.privPass)
    let key ← extendKey c params engineId (localize c params.auth ku engineId)
    slice key 0 (keyLength params.priv)

def digestLen : AuthProtocol → Nat
  | .noAuth => 0
  | .md5 => 12
  | .sha1 => 12
  | .sha224 => 16
  | .sha256 => 24
  | .sha384 => 32
  | .sha512 => 48

/-- A key of 64 bytes, mixed with a pad. -/
def padKey (pad : UInt8) (key : List UInt8) : List UInt8 :=
  (key.take 64 ++ List.replicate (64 - key.length) 0).map (· ^^^ pad)

def fullDigest (auth : AuthProtocol) (key msg : List UInt8) : List UInt8 :=
  match auth with
  | .noAuth => []
  | .md5 | .sha1 =>
    c.hash (hasher auth) (padKey 0x5c key ++ c.hash (hasher auth) (padKey 0x36 key ++ msg))
  | .sha224 | .sha256 | .sha384 | .sha512 => c.hmac (hasher auth) key msg

def calcDigest {ε : Type} (auth : AuthProtocol) (key msg : List UInt8) : Res ε (List UInt8) :=
  slice (fullDigest c auth key msg) 0 (digestLen auth)

/-! ## Privacy -/

def aesCfb (encrypt : Bool) (key iv data : List UInt8) : Option (List UInt8) :=
  if key.length = 16 ∨ key.length = 24 ∨ key.length = 32 then some (c.aes encrypt key iv data)
  else none

def aesIv (boots time : UInt32) (salt : List UInt8) : List UInt8 :=
  beBytes 4 boots.toNat ++ beBytes 4 time.toNat ++ salt

def aesEncrypt (key : List UInt8) (boots time : UInt32) (salt plain : List UInt8) :
    Option (List UInt8) :=
  (aesCfb c true key (aesIv boots time salt) plain).map (berTlv 0x04)

def aesDecrypt (key : List UInt8) (boots time : UInt32) (salt data : List UInt8) :
    Option (List UInt8) :=
  aesCfb c false key (aesIv boots time salt) data

def desSalt8 (boots salt : UInt32) : List UInt8 := beBytes 4 boots.toNat ++ beBytes 4 salt.toNat

variable (key : List UInt8) (boots salt : UInt32)

def desIv : List UInt8 :=
  List.zipWith (· ^^^ ·) ((key.drop 8).take 8) (desSalt8 boots salt)

/-- Zeros up to the next whole block, a block of them behind a whole one. -/
def padBlock (data : List UInt8) : List UInt8 :=
  data ++ List.replicate (8 - data.length % 8) 0

def desEncrypt (plain : List UInt8) :
    Option (List UInt8) :=
  if key.length < 16 then none
  else some (berTlv 0x04 (c.des true (key.take 8) (desIv key boots salt) (padBlock plain)))

def desDecrypt (data : List UInt8) :
    Option (List UInt8) :=
  if key.length < 16 then none
  else if data = [] ∨ data.length % 8 ≠ 0 then none
  else some (c.des false (key.take 8) (desIv key boots salt) data)

/-! ## Sessions -/

/-- What a session draws at its start. -/
structure Draws where
  aesSalt : UInt64
  desSalt : UInt32
  msgId : UInt32
  reqId : UInt32

structure V3Session where
  params : V3Params
  engineId : List UInt8
  boots : UInt32
  time : UInt32
  authKey : List UInt8
  privKey : List UInt8
  aesSalt : UInt64
  desSalt : UInt32
  msgId : UInt32
  reqId : UInt32
  deriving DecidableEq, Repr

/-- A number without its sign bit. -/
def unsigned31 (v : UInt32) : UInt32 := v &&& 0x7FFFFFFF

def V3Session.new {ε : Type} (params : V3Params) (engineId : List UInt8) (boots time : UInt32)
    (draws : Draws) : Res ε V3Session := do
  let auth ← (if params.auth ≠ .noAuth then Usm.authKey c params engineId else .ok [])
  let priv ← (if params.priv ≠ .noPriv then Usm.privKey c params engineId else .ok [])
  pure ⟨params, engineId, boots, time, auth, priv, draws.aesSalt, draws.desSalt,
    unsigned31 draws.msgId, unsigned31 draws.reqId⟩

namespace V3Session

def flags (s : V3Session) : UInt8 :=
  match s.params.level with
  | .noAuthNoPriv => 0
  | .authNoPriv => 0x01
  | .authPriv => 0x03

/-! ### Writing -/

def scopedPdu (engineId : List UInt8) (pduTag : UInt8) (pduBody : List UInt8) : List UInt8 :=
  berTlv 0x30 (berTlv 0x04 engineId ++ berTlv 0x04 [] ++ berTlv pduTag pduBody)

/-- The salt moved on, the privacy parameters and the message data. -/
def encryptScoped (s : V3Session) (plain : List UInt8) : V3Session × List UInt8 × List UInt8 :=
  match s.params.priv with
  | .des =>
    let s := { s with desSalt := s.desSalt + 1 }
    (s, desSalt8 s.boots s.desSalt,
      (desEncrypt c s.privKey s.boots s.desSalt plain).getD plain)
  | _ =>
    let s := { s with aesSalt := s.aesSalt + 1 }
    let salt := beBytes 8 s.aesSalt.toNat
    (s, salt, (aesEncrypt c s.privKey s.boots s.time salt plain).getD plain)

/-- The security parameters around a field for the digest. -/
def usmSeq (engineId : List UInt8) (boots time : Nat) (user authField privParams : List UInt8) :
    List UInt8 :=
  berTlv 0x30 (berTlv 0x04 engineId ++ berTlv 0x02 (minimalUint boots) ++
    berTlv 0x02 (minimalUint time) ++ berTlv 0x04 user ++ authField ++ berTlv 0x04 privParams)

def header (msgId : UInt32) (flags : UInt8) : List UInt8 :=
  berTlv 0x02 (beBytes 4 msgId.toNat) ++ berTlv 0x02 (minimalUint 65535) ++
    berTlv 0x04 [flags] ++ berTlv 0x02 [3]

def assemble (msgId : UInt32) (flags : UInt8) (secParams msgData : List UInt8) : List UInt8 :=
  berTlv 0x30 (berTlv 0x02 [3] ++ berTlv 0x30 (header msgId flags) ++ secParams ++ msgData)

def finishMessage {ε : Type} (s : V3Session) (flags : UInt8) (secParams msgData : List UInt8)
    (authOn : Bool) (placeholder : List UInt8) : Res ε (List UInt8) :=
  let msg := assemble s.msgId flags secParams msgData
  if authOn then do
    -- the digest goes behind the first bytes that look like the placeholder
    let region ← slice msg 0 (msg.length - msgData.length)
    let idx ← Res.expect (Patterns.find placeholder region)
    let digest ← calcDigest c s.params.auth s.authKey msg
    let _ ← slice msg (idx + 2) (idx + 2 + digest.length)
    pure (Patterns.writeAt msg (idx + 2) digest)
  else .ok msg

def encodeMessage {ε : Type} (s : V3Session) (pduTag : UInt8) (pduBody : List UInt8)
    (flags : UInt8) (blankIdentity : Bool) : Res ε (V3Session × List UInt8) :=
  let authOn := !blankIdentity && decide (s.params.auth ≠ .noAuth) && flags &&& 0x01 != 0
  let privOn := !blankIdentity && decide (s.params.priv ≠ .noPriv) && flags &&& 0x02 != 0
  let s := { s with msgId := unsigned31 (s.msgId + 1) }
  let plain := scopedPdu (if blankIdentity then [] else s.engineId) pduTag pduBody
  let (s, privParams, msgData) := if privOn then encryptScoped c s plain else (s, [], plain)
  if blankIdentity then do
    let sec := berTlv 0x04 (usmSeq [] 0 0 [] (berTlv 0x04 []) [])
    let bytes ← finishMessage c s flags sec msgData false []
    pure (s, bytes)
  else do
    let placeholder :=
      berTlv 0x04 (if authOn then List.replicate (digestLen s.params.auth) 0 else [])
    let usm := usmSeq s.engineId s.boots.toNat s.time.toNat (utf8 s.params.username) placeholder
      privParams
    let bytes ← finishMessage c s flags (berTlv 0x04 usm) msgData authOn placeholder
    pure (s, bytes)

def buildGet (s : V3Session) (oids : List String) (discovery : Bool) :
    Res Unit (V3Session × List UInt8) := do
  let s := if discovery then s else { s with reqId := unsigned31 (s.reqId + 1) }
  let varbinds ← Snmp.encodeVarbinds oids
  let reqId := if discovery then 0 else s.reqId.toNat
  let pduBody := berTlv 0x02 (minimalUint reqId) ++ berTlv 0x02 [0] ++ berTlv 0x02 [0] ++
    berTlv 0x30 varbinds
  encodeMessage c s 0xA0 pduBody (if discovery then 0x04 else s.flags) discovery

end V3Session

/-! ### Reading -/

inductive V3Error
  | badPacket | authFail | decryptFail
  deriving DecidableEq, Repr

structure V3Message where
  msgId : Int
  msgFlags : UInt8
  engineId : List UInt8
  boots : UInt32
  time : UInt32
  user : String
  authParams : List UInt8
  privParams : List UInt8
  /-- Where the digest stands in the buffer. -/
  authValueOffset : Nat
  pduTag : UInt8
  reqId : Int
  varbinds : List (Option String)
  varbindNames : List String
  varbindRaw : List (String × UInt8 × List UInt8)
  errorStatus : UInt8
  deriving DecidableEq, Repr

def constantTimeEq (a b : List UInt8) : Bool :=
  a.length == b.length && (List.zipWith (· ^^^ ·) a b).foldl (· ||| ·) 0 == 0

def encryptedMarker : String := "__encrypted__:"

/-- The cast of a wide integer to 32 bits without a sign. -/
def asU32 (v : Int) : UInt32 := UInt32.ofNat (v % 2 ^ 32).toNat

variable (replace : List UInt8 → String)

/-- As for the other versions, but ticks keep their sign. -/
def decodeVarbindValue (tag : UInt8) (val : List UInt8) : Res Unit (Option String) :=
  if tag = 0x43 then pure ((decodeBerInt val).map toString)
  else Snmp.decodeValue (lossy replace) tag val

structure Varbind where
  name : String
  tag : UInt8
  value : List UInt8
  text : Option String

def readVarbind (vb : List UInt8) : Res Unit Varbind := do
  let (name, value) ← Snmp.nameAndValue vb
  let text ← decodeVarbindValue replace value.tag value.value
  pure ⟨oidToString name.value, value.tag, value.value, text⟩

/-- The request id, the error status and the list of varbinds. -/
def pduFields (pdu : List UInt8) : Scan Unit (Int × Int × List UInt8) := do
  let id ← tlv pdu
  let reqId ← lift (.ofOption () (decodeBerInt id.value))
  let status ← tlv pdu
  let _index ← tlv pdu
  let list ← tlv pdu
  pure (reqId, (decodeBerInt status.value).getD 0, list.value)

def scopedFields (body : List UInt8) : Scan Unit Tlv := do
  let _engine ← tlv body
  let _name ← tlv body
  tlv body

def parseScopedPdu (bytes : List UInt8) (out : V3Message) : Res Unit V3Message := do
  let (top, _) ← (tlv bytes).run 0
  if top.tag ≠ 0x30 then .err ()
  else do
    let (pdu, _) ← (scopedFields top.value).run 0
    if ¬ (0xA0 ≤ pdu.tag ∧ pdu.tag ≤ 0xA8) then .err ()
    else do
      let ((reqId, status, list), _) ← (pduFields pdu.value).run 0
      let vbs ← items (readVarbind replace) list
      pure { out with
        reqId := reqId
        errorStatus := UInt8.ofNat (max 0 (min status 255)).toNat
        varbindNames := out.varbindNames ++ vbs.map (·.name)
        varbindRaw := out.varbindRaw ++ vbs.map fun vb => (vb.name, vb.tag, vb.value)
        varbinds := out.varbinds ++ vbs.map (·.text)
        pduTag := pdu.tag }

/-- The message id and the flags of the global data. -/
def globalData (header : List UInt8) : Scan Unit (List UInt8 × UInt8) := do
  let msgId ← tlv header
  let _maxSize ← tlv header
  let flags ← tlv header
  match flags.tag, flags.value with
  | 0x04, f :: _ => do
    let _model ← tlv header
    pure (msgId.value, f)
  | _, _ => fail ()

structure UsmFields where
  engineId : List UInt8
  boots : List UInt8
  time : List UInt8
  user : List UInt8
  authParams : Tlv
  privParams : List UInt8

def usmFields (usm : List UInt8) : Scan Unit UsmFields := do
  let engineId ← tlv usm
  let boots ← tlv usm
  let time ← tlv usm
  let user ← tlv usm
  let authParams ← tlv usm
  let privParams ← tlv usm
  pure ⟨engineId.value, boots.value, time.value, user.value, authParams, privParams.value⟩

/-- The security parameters, and where their sequence starts. -/
def securityParameters (sec : Tlv) : Res Unit (UsmFields × Nat) :=
  if sec.tag ≠ 0x04 then .err ()
  else do
    let (seq, _) ← (tlv sec.value).run 0
    if seq.tag ≠ 0x30 then .err ()
    else do
      let (usm, _) ← (usmFields seq.value).run 0
      pure (usm, seq.start)

structure Frame where
  msgId : List UInt8
  flags : UInt8
  usm : UsmFields
  /-- Where the digest stands in the body. -/
  authAt : Nat
  data : Tlv

def frame (body : List UInt8) : Scan Unit Frame := do
  let version ← tlv body
  let v ← lift (.ofOption () (decodeBerInt version.value))
  if v ≠ 3 then fail ()
  else do
    let header ← tlv body
    let ((msgId, flags), _) ← lift ((globalData header.value).run 0)
    let sec ← tlv body
    let (usm, seqAt) ← lift (securityParameters sec)
    let data ← tlv body
    pure ⟨msgId, flags, usm, sec.start + seqAt + usm.authParams.start, data⟩

def decodeV3Message (buf : List UInt8) : Res Unit V3Message := do
  let (top, _) ← (tlv buf).run 0
  let (f, _) ← (frame top.value).run 0
  let msgId ← .ofOption () (decodeBerInt f.msgId)
  let boots ← .ofOption () (decodeBerInt f.usm.boots)
  let time ← .ofOption () (decodeBerInt f.usm.time)
  let out : V3Message :=
    ⟨msgId, f.flags, f.usm.engineId, asU32 boots, asU32 time, lossy replace f.usm.user,
      f.usm.authParams.value, f.usm.privParams, top.start + f.authAt, 0, 0, [], [], [], 0⟩
  if f.data.tag = 0x30 then parseScopedPdu replace (berTlv 0x30 f.data.value) out
  else if f.data.tag = 0x04 then
    pure { out with varbindNames := [encryptedMarker ++ hexOf f.data.value] }
  else .err ()

namespace V3Session

def decode (s : V3Session) (buf : List UInt8) (expectReqId : UInt32) (fromDiscovery : Bool) :
    Res V3Error V3Message := do
  let msg ← (decodeV3Message replace buf).orFail .badPacket
  if msg.reqId ≠ 0 ∧ expectReqId ≠ 0 ∧ msg.reqId ≠ expectReqId.toNat then .err .badPacket
  else if fromDiscovery || decide (s.params.auth = .noAuth) then .ok msg
  else if msg.user ≠ s.params.username then .err .authFail
  else if msg.authValueOffset + msg.authParams.length > buf.length then .err .badPacket
  else do
    let zeroed :=
      Patterns.writeAt buf msg.authValueOffset (List.replicate msg.authParams.length 0)
    let digest ← calcDigest c s.params.auth s.authKey zeroed
    if constantTimeEq digest msg.authParams then .ok msg else .err .authFail

def decryptScopedPdu (s : V3Session) (msg : V3Message) (ciphertext : List UInt8) :
    Option (List UInt8) :=
  match s.params.priv with
  | .noPriv => some ciphertext
  | .des =>
    if msg.privParams.length < 8 then none
    else
      let word (i : Nat) := UInt32.ofNat (natOf 0 ((msg.privParams.drop i).take 4))
      desDecrypt c s.privKey (word 0) (word 4) ciphertext
  | _ =>
    if msg.privParams.length < 8 then none
    else aesDecrypt c s.privKey msg.boots msg.time (msg.privParams.take 8) ciphertext

/-- The part of `v3_get` that decrypts and parses what `decode` has left encrypted. -/
def openMessage (s : V3Session) (msg : V3Message) : Res V3Error V3Message :=
  match msg.varbindNames.head?.bind (Text.stripPrefix encryptedMarker) with
  | none => .ok msg
  | some hex => do
    let ct ← .ofOption .badPacket (hexToBytes hex)
    let pt ← .ofOption .decryptFail (s.decryptScopedPdu c msg ct)
    (parseScopedPdu replace pt { msg with varbindNames := [], varbinds := [] }).orFail .badPacket

end V3Session

end Steward.Usm
