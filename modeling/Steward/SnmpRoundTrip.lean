import Steward.UsmLayout

/-!
# Requests read back

The reader of responses takes a get request for a response without an error: it finds the
request id, and every name that was asked for with no value.
-/

namespace Steward.Snmp

open Fallible Scan Ber Usm

theorem encodeVarbinds_oids (oids : List Oid) :
    encodeVarbinds (oids.map Oid.text) = .ok (encodeItems nullVarbind (oids.map Oid.body)) := by
  induction oids with
  | nil => rfl
  | cons o oids ih =>
    rw [List.map_cons, encodeVarbinds, o.encode_text, Res.ok_bind, ih]
    rfl

section Layers

variable {buf rest : List UInt8} {pos v : Nat}

theorem readInt_at (hv : v < 2 ^ 32) (h : buf.drop pos = berTlv 0x02 (minimalBytes 4 v) ++ rest) :
    (readInt buf).run pos = .ok ((v : Int), pos + (berTlv 0x02 (minimalBytes 4 v)).length) := by
  have hlen := minimalBytes_length 4 v
  unfold readInt
  rw [run_tlv_bind (by omega) h, decodeBerInt_minimalBytes (by decide) (by omega) (by omega),
    Res.ofOption_some]
  rfl

/-- The body of a request. -/
def requestBody (reqId : Nat) (varbinds : List UInt8) : List UInt8 :=
  let int (v : Nat) := berTlv 0x02 (minimalBytes 4 v)
  int reqId ++ int 0 ++ int 0 ++ berTlv 0x30 varbinds

variable {reqId : Nat} {varbinds : List UInt8}

theorem requestBody_read (expect : Int) (hid : reqId < 2 ^ 32) (hlist : varbinds.length < 65536) :
    ∃ p, (do
      let status ← errorStatus (requestBody reqId varbinds) expect
      let list ← varbindList (requestBody reqId varbinds)
      pure (status, list) : Scan Unit _).run 0 =
        if asI32 reqId = expect then .ok ((0, varbinds), p) else .err () := by
  have h₀ : (requestBody reqId varbinds).drop 0 = berTlv 0x02 (minimalBytes 4 reqId) ++
      (berTlv 0x02 (minimalBytes 4 0) ++ (berTlv 0x02 (minimalBytes 4 0) ++
        (berTlv 0x30 varbinds ++ []))) := by
    simp [requestBody]
  have h₁ := drop_after h₀
  have h₂ := drop_after h₁
  have h₃ := drop_after h₂
  unfold errorStatus varbindList
  by_cases hsame : asI32 reqId = expect
  · simp only [if_pos hsame]
    rw [StateT.run_bind, run_bind_of_ok (readInt_at hid h₀), if_neg (not_not.mpr hsame),
      readInt_at (by decide) h₁, Res.ok_bind, StateT.run_bind,
      run_tlv_bind (by decide) h₂, run_tlv_bind hlist h₃]
    exact ⟨_, rfl⟩
  · simp only [if_neg hsame]
    rw [StateT.run_bind, run_bind_of_ok (readInt_at hid h₀), if_pos hsame]
    exact ⟨0, rfl⟩

theorem responsePdu_request {version : Nat} {community pdu : List UInt8}
    (hlen : (berTlv 0x30 (berTlv 0x02 (minimalBytes 4 version) ++ berTlv 0x04 community ++
      berTlv 0xA0 pdu)).length < 65536) :
    responsePdu (berTlv 0x30 (berTlv 0x02 (minimalBytes 4 version) ++ berTlv 0x04 community ++
      berTlv 0xA0 pdu)) = .ok pdu := by
  have hversion := minimalBytes_length 4 version
  generalize hbody : berTlv 0x02 (minimalBytes 4 version) ++ berTlv 0x04 community ++
    berTlv 0xA0 pdu = body at hlen
  have h₀ : body.drop 0 = berTlv 0x02 (minimalBytes 4 version) ++
      (berTlv 0x04 community ++ (berTlv 0xA0 pdu ++ [])) := by
    simp [← hbody]
  have hparts : body.length < 65536 ∧ community.length < 65536 ∧ pdu.length < 65536 := by
    have := congrArg List.length h₀
    simp only [berTlv_length, List.length_append, List.length_drop] at hlen this
    omega
  have h₁ := drop_after h₀
  have h₂ := drop_after h₁
  unfold responsePdu
  rw [tlv_encoded hparts.1 (show (berTlv 0x30 body).drop 0 = berTlv 0x30 body ++ [] by simp),
    Res.ok_bind]
  simp only [ne_eq, not_true_eq_false, if_false]
  rw [run_tlv_bind (by omega) h₀, run_tlv_bind hparts.2.1 h₁, tlv_encoded hparts.2.2 h₂]
  rfl

end Layers

/-- A get request is read back as a response without an error, under its own id only. -/
theorem request_read_back (version : Nat) (community : List UInt8) (reqId : Int)
    (hid : -2 ^ 31 ≤ reqId ∧ reqId < 2 ^ 31) (oids : List Oid) :
    ∃ msg, buildGetRequest version community (reqId % 2 ^ 32).toNat (oids.map Oid.text) = .ok msg ∧
      (msg.length < 65536 → ∀ expect, parseWalkResponse msg expect =
        if expect = reqId then .ok (0, oids.map fun o => ⟨o.text, 0x05, []⟩) else .err ()) := by
  have hcast : asI32 (reqId % 2 ^ 32).toNat = reqId := by
    rw [asI32, Int.toNat_of_nonneg (by omega)]
    exact (Int.emod_bmod reqId (2 ^ 32)).trans (Int.bmod_eq_of_le (by omega) (by omega))
  rw [buildGetRequest, buildRequest, encodeVarbinds_oids, Res.ok_bind]
  refine ⟨_, rfl, fun hlen expect => ?_⟩
  have hlist : (encodeItems nullVarbind (oids.map Oid.body)).length < 65536 := by
    simp only [berTlv_length, List.length_append] at hlen
    omega
  obtain ⟨p, hread⟩ := requestBody_read expect
    (show (reqId % 2 ^ 32).toNat < 2 ^ 32 by omega) hlist
  unfold parseWalkResponse
  rw [responsePdu_request hlen, Res.ok_bind]
  simp only [hcast, eq_comm (a := reqId)] at hread
  erw [hread]
  split
  · rw [Res.ok_bind]
    dsimp only
    rw [items_encoded (f := fun name => (⟨oidToString name, 0x05, []⟩ : WalkVarbind)) hlist]
    · simp [Oid.toString_body]
    · intro name hname
      have hlt : (nullVarbind name).length < _ := enc_length_lt hname
      simp only [nullVarbind, List.length_append, berTlv_length] at hlt
      rw [nameAndValue_null (by omega)]
      rfl
  · rfl

theorem short_request_read_back :
    ∃ msg, buildGetRequest 1 [112] 7 ["1.3.6"] = .ok msg ∧
      parseWalkResponse msg 7 = .ok (0, [⟨"1.3.6", 0x05, []⟩]) ∧
        parseWalkResponse msg 8 = .err () := by
  obtain ⟨msg, hmsg, hread⟩ := request_read_back 1 [112] 7 (by decide)
    [⟨1, 3, [6], by decide, by decide, by decide⟩]
  have hshort : (match buildGetRequest 1 [112] 7 ["1.3.6"] with
      | .ok m => decide (m.length < 65536)
      | _ => false) = true := by decide +kernel
  rw [show buildGetRequest 1 [112] 7 ["1.3.6"] = .ok msg from hmsg] at hshort
  exact ⟨msg, hmsg, hread (of_decide_eq_true hshort) 7, hread (of_decide_eq_true hshort) 8⟩

end Steward.Snmp
