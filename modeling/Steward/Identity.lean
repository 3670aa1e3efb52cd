import Steward.Devices

/-!
# Identity resolution

`ResolveDeviceIdentity`, the read-only half of the identity upsert: which row a
report belongs to and what has to happen to the row that holds the reported
address. `Verdict` lists every answer with the reason for it.
-/

namespace Steward

open JsonValue

structure IdentityResolution where
  targetId : Nat := 0
  replacedId : Nat := 0
  roamed : Bool := false
  takeOver : Bool := false
  isNew : Bool := false
  parkHolderId : Nat := 0
  deriving DecidableEq, Repr

/-- The elements of a JSON array of texts; a null reads as the empty text. -/
def textItems : List Json → Option (List String)
  | [] => some []
  | .str s :: rest => (textItems rest).map (s :: ·)
  | .null :: rest => (textItems rest).map ("" :: ·)
  | _ :: _ => none

/-- The MACs a document lists under `mac_aliases`; a text there is read as JSON once more. -/
def holderAliases (doc : Json) : List String :=
  match doc.get "mac_aliases" with
  | some (.arr items) => (textItems items).getD []
  | some (.str s) =>
    match parse s with
    | some (.arr items) => (textItems items).getD []
    | _ => []
  | _ => []

/-- `macIsHolderAlias`: the recorded other network cards of a multi-homed host. -/
def macIsHolderAlias (holder : DeviceRow) (mac : String) : Bool :=
  (holderAliases holder.scanAttributes).any fun a => Text.equalFold a mac

/-- The texts that `recordHolderAlias` finds already listed. -/
def listedAliases (doc : Json) : List String :=
  match doc.get "mac_aliases" with
  | some (.arr items) => items.filterMap Json.text?
  | _ => []

/-- `recordHolderAlias`: append a MAC to the list unless it is there. -/
def recordHolderAlias (doc : Json) (mac : String) : Json :=
  if mac = "" then doc
  else if (listedAliases doc).any fun a => Text.equalFold a mac then doc
  else .obj (Assoc.set doc.members "mac_aliases" (.arr ((listedAliases doc ++ [mac]).map Json.str)))

/-- A report from another network than the row's own while some other network still sees the row. -/
def multiHomed (db : Db) (now : Nat) (m : DeviceRow) (net : Option Nat) : Bool :=
  match net, m.networkId with
  | some n, some k => n ≠ k && db.hasFreshPresenceOutside now m.id n
  | _, _ => false

/-- A locally administered MAC proves nothing against a vendor MAC. -/
def guarded (mac holderMac : String) : Bool :=
  isLocallyAdministeredMAC mac && !isLocallyAdministeredMAC holderMac

/-- The resolver's answer for a MAC that no row carries. -/
def resolveUnseen (db : Db) (mac ip : String) (net : Option Nat) : IdentityResolution :=
  if carriesNoLocation ip then { isNew := true }
  else
    match db.placeholder ip net with
    | some p => { targetId := p.id }
    | none =>
      match db.slotHolder ip net with
      | some h =>
        if h.macAddress ≠ "" then
          if macIsHolderAlias h mac then { targetId := h.id }
          else if guarded mac h.macAddress then { isNew := true, parkHolderId := h.id }
          else { targetId := h.id, takeOver := true }
        else { isNew := true }
      | none => { isNew := true }

variable (db : Db) (now : Nat) (mac ip : String) (net : Option Nat)

/-- The resolver's answer for a MAC whose live row is `m`. -/
def resolveSeen (m : DeviceRow) :
    IdentityResolution :=
  if m.ipAddress = ip ∨ carriesNoLocation ip = true then { targetId := m.id }
  else if multiHomed db now m net then { targetId := m.id }
  else
    match db.slotHolder ip net with
    | none => { targetId := m.id, roamed := true }
    | some h =>
      if h.macAddress = "" ∨ h.macAddress = mac then { targetId := m.id }
      else if macIsHolderAlias h mac then { targetId := h.id }
      else if guarded mac h.macAddress then
        { targetId := m.id, roamed := true, parkHolderId := h.id }
      else { targetId := h.id, replacedId := m.id }

/-- `ResolveDeviceIdentity`. -/
@[irreducible] def resolveDeviceIdentity : IdentityResolution :=
  if mac = "" then
    match db.slotHolder ip net with
    | none => { isNew := true }
    | some h => { targetId := h.id }
  else
    match db.liveRowByMAC mac with
    | none => resolveUnseen db mac ip net
    | some m => resolveSeen db now mac ip net m

/-- No row carries the MAC of the report. -/
structure Unseen (db : Db) (mac : String) : Prop where
  reported : mac ≠ ""
  absent : ∀ r ∈ db.rows, r.macAddress ≠ mac

/-- The report places the MAC of row `m` at another address of a network that has to be taken
seriously. -/
structure Moved (m : DeviceRow) :
    Prop where
  reported : mac ≠ ""
  preferred : Preferred db mac m
  elsewhere : m.ipAddress ≠ ip
  located : carriesNoLocation ip = false
  single : multiHomed db now m net = false

/-- The reported address is held under another MAC. -/
structure Rival (db : Db) (mac ip : String) (net : Option Nat) (h : DeviceRow) : Prop where
  holder : db.slotHolder ip net = some h
  carries : h.macAddress ≠ ""
  other : h.macAddress ≠ mac

variable {db : Db} {mac ip : String} {net : Option Nat} {h : DeviceRow}

theorem Rival.mem (hr : Rival db mac ip net h) :
    h ∈ db.rows := (Db.slotHolder_eq_some.mp hr.holder).1

theorem Rival.at (hr : Rival db mac ip net h) :
    h.At ip net := (Db.slotHolder_eq_some.mp hr.holder).2.1

theorem Moved.ne_rival {now : Nat} {m : DeviceRow} (hm : Moved db now mac ip net m)
    (hr : Rival db mac ip net h) : m.id ≠ h.id := by
  intro he
  have heq : m = h := Db.eq_of_id hm.preferred.mem hr.mem he
  exact hr.other (heq ▸ hm.preferred.carries)

/-- Every answer of the resolver, with what it rests on. -/
inductive Verdict (db : Db) (now : Nat) (mac ip : String) (net : Option Nat) :
    IdentityResolution → Prop where
  | create
      (why : (mac = "" ∧ ∀ r ∈ db.rows, ¬ r.At ip net) ∨
        (Unseen db mac ∧ (carriesNoLocation ip = true ∨ ∀ r ∈ db.rows, ¬ r.At ip net))) :
      Verdict db now mac ip net { isNew := true }
  | slot (h : DeviceRow) (macless : mac = "") (holder : db.slotHolder ip net = some h) :
      Verdict db now mac ip net { targetId := h.id }
  | fill (p : DeviceRow) (unseen : Unseen db mac) (located : carriesNoLocation ip = false)
      (empty : db.placeholder ip net = some p) :
      Verdict db now mac ip net { targetId := p.id }
  | park (h : DeviceRow) (unseen : Unseen db mac) (located : carriesNoLocation ip = false)
      (rival : Rival db mac ip net h) (stranger : macIsHolderAlias h mac = false)
      (guard : guarded mac h.macAddress = true)
      (full : ∀ r ∈ db.rows, r.At ip net → r.macAddress ≠ "") :
      Verdict db now mac ip net { isNew := true, parkHolderId := h.id }
  | takeOver (h : DeviceRow) (unseen : Unseen db mac) (located : carriesNoLocation ip = false)
      (rival : Rival db mac ip net h) (stranger : macIsHolderAlias h mac = false)
      (noGuard : guarded mac h.macAddress = false)
      (full : ∀ r ∈ db.rows, r.At ip net → r.macAddress ≠ "") :
      Verdict db now mac ip net { targetId := h.id, takeOver := true }
  | sameHost (h : DeviceRow) (reported : mac ≠ "") (located : carriesNoLocation ip = false)
      (rival : Rival db mac ip net h) (listed : macIsHolderAlias h mac = true)
      (why : Unseen db mac ∨ ∃ m, Moved db now mac ip net m) :
      Verdict db now mac ip net { targetId := h.id }
  | own (m : DeviceRow) (reported : mac ≠ "") (preferred : Preferred db mac m)
      (why : m.ipAddress = ip ∨ carriesNoLocation ip = true ∨ multiHomed db now m net = true ∨
        ∃ h, db.slotHolder ip net = some h ∧ (h.macAddress = "" ∨ h.macAddress = mac)) :
      Verdict db now mac ip net { targetId := m.id }
  | roam (m : DeviceRow) (moved : Moved db now mac ip net m) (free : ∀ r ∈ db.rows, ¬ r.At ip net) :
      Verdict db now mac ip net { targetId := m.id, roamed := true }
  | parkRoam (m h : DeviceRow) (moved : Moved db now mac ip net m) (rival : Rival db mac ip net h)
      (stranger : macIsHolderAlias h mac = false) (guard : guarded mac h.macAddress = true) :
      Verdict db now mac ip net { targetId := m.id, roamed := true, parkHolderId := h.id }
  | replace (m h : DeviceRow) (moved : Moved db now mac ip net m) (rival : Rival db mac ip net h)
      (stranger : macIsHolderAlias h mac = false) (noGuard : guarded mac h.macAddress = false) :
      Verdict db now mac ip net { targetId := h.id, replacedId := m.id }

variable (db : Db) (now : Nat) (mac ip : String) (net : Option Nat)

theorem resolveUnseen_verdict (hu : Unseen db mac) :
    Verdict db now mac ip net (resolveUnseen db mac ip net) := by
  unfold resolveUnseen
  split
  · next hloc => exact .create (.inr ⟨hu, .inl hloc⟩)
  · next hloc =>
    have hloc : carriesNoLocation ip = false := by simpa using hloc
    cases hp : db.placeholder ip net with
    | some p => exact .fill p hu hloc hp
    | none =>
      cases hh : db.slotHolder ip net with
      | none => exact .create (.inr ⟨hu, .inr (Db.slotHolder_eq_none.mp hh)⟩)
      | some h =>
        obtain ⟨hmem, hat, -⟩ := Db.slotHolder_eq_some.mp hh
        have hne : h.macAddress ≠ "" := Db.placeholder_eq_none.mp hp h hmem hat
        have hrival : Rival db mac ip net h := ⟨hh, hne, hu.absent h hmem⟩
        simp only [if_pos hne]
        split
        · next ha => exact .sameHost h hu.reported hloc hrival ha (.inl hu)
        · next ha =>
          have ha : macIsHolderAlias h mac = false := by simpa using ha
          split
          · next hg => exact .park h hu hloc hrival ha hg (Db.placeholder_eq_none.mp hp)
          · next hg =>
              exact .takeOver h hu hloc hrival ha (by simpa using hg) (Db.placeholder_eq_none.mp hp)

theorem resolveSeen_verdict (m : DeviceRow) (hmac : mac ≠ "") (hm : Preferred db mac m) :
    Verdict db now mac ip net (resolveSeen db now mac ip net m) := by
  unfold resolveSeen
  split
  · next hsame =>
    refine .own m hmac hm ?_
    rcases hsame with h | h
    · exact .inl h
    · exact .inr (.inl h)
  · next hsame =>
    simp only [not_or, Bool.not_eq_true] at hsame
    split
    · next hmulti => exact .own m hmac hm (.inr (.inr (.inl hmulti)))
    · next hmulti =>
      have hmoved : Moved db now mac ip net m := ⟨hmac, hm, hsame.1, hsame.2, by simpa using hmulti⟩
      cases hh : db.slotHolder ip net with
      | none => exact .roam m hmoved (Db.slotHolder_eq_none.mp hh)
      | some h =>
        simp only
        split
        · next hempty => exact .own m hmac hm (.inr (.inr (.inr ⟨h, hh, hempty⟩)))
        · next hempty =>
          simp only [not_or] at hempty
          have hrival : Rival db mac ip net h := ⟨hh, hempty.1, hempty.2⟩
          split
          · next ha => exact .sameHost h hmac hsame.2 hrival ha (.inr ⟨m, hmoved⟩)
          · next ha =>
            have ha : macIsHolderAlias h mac = false := by simpa using ha
            split
            · next hg => exact .parkRoam m h hmoved hrival ha hg
            · next hg => exact .replace m h hmoved hrival ha (by simpa using hg)

/-- The resolver always answers, and its answer is one of the verdicts. -/
theorem resolve_verdict :
    Verdict db now mac ip net (resolveDeviceIdentity db now mac ip net) := by
  unfold resolveDeviceIdentity
  split
  · next hmac =>
    cases hh : db.slotHolder ip net with
    | none => exact .create (.inl ⟨hmac, Db.slotHolder_eq_none.mp hh⟩)
    | some h => exact .slot h hmac hh
  · next hmac =>
    cases hm : db.liveRowByMAC mac with
    | none => exact resolveUnseen_verdict db now mac ip net ⟨hmac, Db.liveRowByMAC_eq_none.mp hm⟩
    | some m => exact resolveSeen_verdict db now mac ip net m hmac (Db.liveRowByMAC_eq_some.mp hm)

end Steward
