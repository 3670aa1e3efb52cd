import Steward.LeaseSweeper

/-!
# The flap counter

What a sweep does to one device and its one lease: the status, the counter and
the time of the last flap. The counter goes up with an expiry, and a recovery
halves it when the last flap is a stable period old; a quiet lease decays. The
question is which infinite runs the counter silences.
-/

namespace Steward

structure Flap where
  status : Status
  count : Nat
  last : Option Nat
  deriving DecidableEq

/-- A renewal of the lease, or a sweep that finds it fresh or stale. -/
inductive FlapInput where
  | renew (now : Nat)
  | sweep (now : Nat) (fresh : Bool)

def FlapInput.time : FlapInput → Nat
  | .renew now => now
  | .sweep now _ => now

namespace Flap

/-- The counter that a recovery writes. -/
def effective (now : Nat) (f : Flap) : Nat :=
  if f.last.any fun t => t + flapStablePeriod ≤ now then f.count / 2 else f.count + 1

/-- The verdict of a sweep. -/
def turn (now : Nat) (fresh : Bool) (f : Flap) : Flap :=
  if fresh = false ∧ f.status = .online then ⟨.offline, f.count + 1, some now⟩
  else if fresh = true ∧ f.status = .offline then ⟨.online, f.effective now, some now⟩
  else f

/-- The decay of a quiet counter. -/
def decay (now : Nat) (f : Flap) : Flap :=
  if 0 < f.count ∧ (f.last.any fun t => t + flapStablePeriod < now) = true then
    { f with count := f.count / 2, last := some now }
  else f

def step (f : Flap) : FlapInput → Flap
  | .renew _ => f
  | .sweep now fresh => (f.turn now fresh).decay now

/-- The verdict is handed to the recorder. -/
def emits (f : Flap) : FlapInput → Bool
  | .renew _ => false
  | .sweep now fresh =>
    if fresh = false ∧ f.status = .online then f.count + 1 < flapThreshold
    else if fresh = true ∧ f.status = .offline then f.effective now < flapThreshold
    else false

/-- All that an input can do. -/
inductive Moves (f : Flap) (a : FlapInput) : Flap → Bool → Prop where
  | quiet : Moves f a f false
  | decayed (t : Nat) (hlast : f.last = some t) (ht : t + flapStablePeriod < a.time) :
      Moves f a { f with count := f.count / 2, last := some a.time } false
  | expired (hst : f.status = .online) :
      Moves f a ⟨.offline, f.count + 1, some a.time⟩ (f.count + 1 < flapThreshold)
  | recovered (hst : f.status = .offline) :
      Moves f a ⟨.online, f.effective a.time, some a.time⟩ (f.effective a.time < flapThreshold)

theorem decay_now (st : Status) (count now : Nat) :
    (Flap.mk st count (some now)).decay now = ⟨st, count, some now⟩ := by
  simp [decay]

theorem step_moves (f : Flap) (a : FlapInput) : f.Moves a (f.step a) (f.emits a) := by
  cases a with
  | renew now => exact .quiet
  | sweep now fresh =>
    simp only [step, emits, turn]
    by_cases hexp : fresh = false ∧ f.status = .online
    · rw [if_pos hexp, if_pos hexp, decay_now]
      exact .expired hexp.2
    · rw [if_neg hexp, if_neg hexp]
      by_cases hrec : fresh = true ∧ f.status = .offline
      · rw [if_pos hrec, if_pos hrec, decay_now]
        exact .recovered hrec.2
      · rw [if_neg hrec, if_neg hrec, decay]
        split
        · next hd =>
          cases hlast : f.last with
          | none => simp [hlast] at hd
          | some t => exact .decayed t hlast (by simpa [hlast, FlapInput.time] using hd.2)
        · exact .quiet

/-! ## Infinite runs -/

/-- Input `n` of the run changes the status. -/
def Turns (f : Nat → Flap) (n : Nat) : Prop := (f (n + 1)).status ≠ (f n).status

/-- Turn `m` is the last one before input `n`. -/
structure LastTurn (f : Nat → Flap) (m n : Nat) : Prop where
  before : m < n
  turns : Turns f m
  none : ∀ k, m < k → k < n → ¬ Turns f k

/-- An endless alternation of expiries and recoveries, `gap` apart. -/
structure Alternates (f : Nat → Flap) (a : Nat → FlapInput) (gap : Nat) : Prop where
  step : ∀ n, f (n + 1) = (f n).step (a n)
  clock : ∀ n, (a n).time ≤ (a (n + 1)).time
  forever : ∀ n, ∃ m, n ≤ m ∧ Turns f m
  gap : ∀ m n, LastTurn f m n → Turns f n → (a n).time = (a m).time + gap

section

variable {f : Nat → Flap} {a : Nat → FlapInput} {gap n m : Nat}

theorem LastTurn.self (h : Turns f n) : LastTurn f n (n + 1) :=
  ⟨Nat.lt_succ_self n, h, fun k hk hk' => by omega⟩

theorem LastTurn.wait (h : LastTurn f m n) (hn : ¬ Turns f n) : LastTurn f m (n + 1) := by
  refine ⟨Nat.lt_succ_of_lt h.before, h.turns, ?_⟩
  intro k hk hk'
  by_cases hkn : k = n
  · rw [hkn]
    exact hn
  · exact h.none k hk (by omega)

/-- A property of the inputs after a turn, by induction up to the next turn. -/
theorem LastTurn.induct {P : Nat → Prop} (h : LastTurn f m n) (hbase : P (m + 1))
    (hstep : ∀ k, LastTurn f m k → ¬ Turns f k → P k → P (k + 1)) : P n := by
  have hall : ∀ d, m + 1 + d ≤ n → LastTurn f m (m + 1 + d) ∧ P (m + 1 + d) := by
    intro d
    induction d with
    | zero => exact fun _ => ⟨LastTurn.self h.turns, hbase⟩
    | succ d ih =>
      intro hd
      obtain ⟨hlast, hp⟩ := ih (by omega)
      have hnot : ¬ Turns f (m + 1 + d) := h.none _ (by omega) (by omega)
      exact ⟨hlast.wait hnot, hstep _ hlast hnot hp⟩
  have hn := (hall (n - (m + 1)) (by have := h.before; omega)).2
  rwa [show m + 1 + (n - (m + 1)) = n by have := h.before; omega] at hn

theorem LastTurn.status (h : LastTurn f m n) : (f n).status = (f (m + 1)).status := by
  refine h.induct (P := fun n => (f n).status = (f (m + 1)).status) rfl ?_
  intro k _ hnot hk
  rw [← hk]
  exact not_not.mp hnot

namespace Alternates

variable {m n : Nat}

section Turns

variable (h : Alternates f a gap)

include h

theorem moves (n : Nat) :
    (f n).Moves (a n) (f (n + 1)) ((f n).emits (a n)) := by
  rw [h.step n]
  exact (f n).step_moves (a n)

theorem next_turn (hm : Turns f m) : ∃ n, LastTurn f m n ∧ Turns f n := by
  classical
  obtain ⟨k, hk, hturn⟩ := h.forever (m + 1)
  have hex : ∃ n, m < n ∧ Turns f n := ⟨k, hk, hturn⟩
  refine ⟨Nat.find hex, ⟨(Nat.find_spec hex).1, hm, ?_⟩, (Nat.find_spec hex).2⟩
  intro j hmj hjn hj
  exact Nat.find_min hex hjn ⟨hmj, hj⟩

theorem time_le (hlast : LastTurn f m n) :
    (a n).time ≤ (a m).time + gap := by
  obtain ⟨k, hk, hturn⟩ := h.next_turn hlast.turns
  have hnk : n ≤ k := by
    by_contra hlt
    exact hlast.none k hk.before (by omega) hturn
  calc (a n).time ≤ (a k).time := monotone_nat_of_le_succ h.clock hnk
    _ = (a m).time + gap := h.gap m k hk hturn

/-- A turn stamps its time and flips between online and offline. -/
theorem at_turn (hn : Turns f n) :
    ((f n).status = .online ∧ f (n + 1) = ⟨.offline, (f n).count + 1, some (a n).time⟩) ∨
      ((f n).status = .offline ∧
        f (n + 1) = ⟨.online, (f n).effective (a n).time, some (a n).time⟩ ∧
          (f n).emits (a n) = decide ((f n).effective (a n).time < flapThreshold)) := by
  have hmove := h.moves n
  generalize hnext : f (n + 1) = g at hmove
  generalize hemit : (f n).emits (a n) = b at hmove
  rw [Turns, hnext] at hn
  cases hmove with
  | quiet => exact absurd rfl hn
  | decayed => exact absurd rfl hn
  | expired hst => exact .inl ⟨hst, rfl⟩
  | recovered hst => exact .inr ⟨hst, rfl, rfl⟩

/-- Between the turns an input changes nothing, or halves the counter. -/
theorem not_turn (hn : ¬ Turns f n) :
    f (n + 1) = f n ∨ (f (n + 1)).count = (f n).count / 2 := by
  have hmove := h.moves n
  generalize hnext : f (n + 1) = g at hmove
  generalize (f n).emits (a n) = b at hmove
  rw [Turns, hnext] at hn
  cases hmove with
  | quiet => exact .inl rfl
  | decayed t ht hlt => exact .inr rfl
  | expired hst => exact absurd (by simp [hst]) hn
  | recovered hst => exact absurd (by simp [hst]) hn

end Turns

/-! ### Turns closer than the stable period -/

/-- The lease carries the time of the last turn. -/
def Stamped (f : Nat → Flap) (a : Nat → FlapInput) (n : Nat) : Prop :=
  ∃ m, LastTurn f m n ∧ (f n).last = some (a m).time

section Close

variable (h : Alternates f a gap) (hgap : gap < flapStablePeriod)

include h hgap

/-- Between close turns nothing decays, and every turn counts. -/
theorem stamped_step (hs : Stamped f a n) :
    Stamped f a (n + 1) ∧ (f n).count ≤ (f (n + 1)).count ∧
      (Turns f n → (f (n + 1)).count = (f n).count + 1) ∧
        ((f n).emits (a n) = true → (f n).count + 1 < flapThreshold) := by
  obtain ⟨m, hlast, hstamp⟩ := hs
  have htime := h.time_le hlast
  have heff : (f n).effective (a n).time = (f n).count + 1 := by
    simp only [effective, hstamp, Option.any_some, decide_eq_true_eq]
    rw [if_neg (by omega)]
  have hmove := h.moves n
  have hself : Turns f n → (f (n + 1)).last = some (a n).time → Stamped f a (n + 1) :=
    fun hn hl => ⟨n, LastTurn.self hn, hl⟩
  generalize hnext : f (n + 1) = g at hmove hself
  generalize hemit : (f n).emits (a n) = b at hmove
  cases hmove with
  | quiet =>
    have hnot : ¬ Turns f n := by simp [Turns, hnext]
    exact ⟨⟨m, hlast.wait hnot, by rw [hnext, hstamp]⟩, le_rfl, fun hn => absurd hn hnot, by simp⟩
  | decayed t ht hlt =>
    rw [hstamp] at ht
    cases ht
    omega
  | expired hst =>
    have hturn : Turns f n := by simp [Turns, hnext, hst]
    exact ⟨hself hturn rfl, Nat.le_succ _, fun _ => rfl, by simp⟩
  | recovered hst =>
    have hturn : Turns f n := by simp [Turns, hnext, hst]
    rw [heff]
    exact ⟨hself hturn rfl, Nat.le_succ _, fun _ => rfl, by simp⟩

theorem count_unbounded (k : Nat) :
    ∃ N, ∀ n, N ≤ n → Stamped f a n ∧ k ≤ (f n).count := by
  have hkeep : ∀ k N, (Stamped f a N ∧ k ≤ (f N).count) →
      ∀ n, N ≤ n → Stamped f a n ∧ k ≤ (f n).count := by
    intro k N hN n hn
    induction n, hn using Nat.le_induction with
    | base => exact hN
    | succ n _ ih =>
      have hs := h.stamped_step hgap ih.1
      exact ⟨hs.1, ih.2.trans hs.2.1⟩
  induction k with
  | zero =>
    obtain ⟨m, -, hm⟩ := h.forever 0
    refine ⟨m + 1, hkeep 0 (m + 1) ⟨⟨m, LastTurn.self hm, ?_⟩, Nat.zero_le _⟩⟩
    rcases h.at_turn hm with ⟨-, heq⟩ | ⟨-, heq, -⟩ <;> rw [heq]
  | succ k ih =>
    obtain ⟨N, hN⟩ := ih
    obtain ⟨m, hm, hturn⟩ := h.forever N
    have hs := h.stamped_step hgap (hN m hm).1
    have hcount := (hN m hm).2
    exact ⟨m + 1, hkeep (k + 1) (m + 1) ⟨hs.1, by rw [hs.2.2.1 hturn]; omega⟩⟩

theorem silent_of_close :
    ∃ N, ∀ n, N ≤ n → (f n).emits (a n) = false := by
  obtain ⟨N, hN⟩ := h.count_unbounded hgap flapThreshold
  refine ⟨N, fun n hn => ?_⟩
  obtain ⟨hs, hcount⟩ := hN n hn
  by_contra hemit
  have := (h.stamped_step hgap hs).2.2.2 (by simpa using hemit)
  omega

end Close

/-! ### Turns a stable period or more apart -/

variable (h : Alternates f a gap)

include h

/-- From an expiry on the counter stays as it was written, or has been halved. -/
theorem count_after_expiry (hlast : LastTurn f m n) (hstamp : (f (m + 1)).last = some (a m).time) :
    ((f n).count = (f (m + 1)).count ∧ (f n).last = some (a m).time) ∨
      (f n).count ≤ (f (m + 1)).count / 2 := by
  refine hlast.induct (P := fun n => ((f n).count = (f (m + 1)).count ∧
    (f n).last = some (a m).time) ∨ (f n).count ≤ (f (m + 1)).count / 2) (.inl ⟨rfl, hstamp⟩) ?_
  intro k _ hnot hk
  rcases h.not_turn hnot with hsame | hhalf
  · rwa [hsame]
  · right
    rcases hk with ⟨hc, -⟩ | hc
    · rw [hhalf, hc]
    · exact hhalf.le.trans ((Nat.div_le_self _ 2).trans hc)

/-- A recovery a stable period after the expiry writes little more than half the counter. -/
theorem recovery_le (hgap : flapStablePeriod ≤ gap) (hlast : LastTurn f m n) (hturn : Turns f n)
    (hstamp : (f (m + 1)).last = some (a m).time) :
    (f n).effective (a n).time ≤ (f (m + 1)).count / 2 + 1 := by
  have htime := h.gap m n hlast hturn
  rcases h.count_after_expiry hlast hstamp with ⟨hcount, hl⟩ | hcount
  · simp only [effective, hl, Option.any_some, decide_eq_true_eq]
    rw [if_pos (by omega), hcount]
    omega
  · unfold effective
    split <;> omega

theorem count_le_of_lastTurn (hlast : LastTurn f m n) :
    (f n).count ≤ (f (m + 1)).count := by
  refine hlast.induct (P := fun n => (f n).count ≤ (f (m + 1)).count) le_rfl ?_
  intro k _ hnot hk
  rcases h.not_turn hnot with hsame | hhalf
  · rwa [hsame]
  · exact hhalf.le.trans ((Nat.div_le_self _ 2).trans hk)

/-- After an expiry some recovery is recorded: a silent cycle leaves a smaller counter. -/
theorem emits_after_expiry (hgap : flapStablePeriod ≤ gap) (c m : Nat) (hm : Turns f m)
    (hst : (f m).status = .online) (hc : (f (m + 1)).count = c) :
    ∃ n, m < n ∧ (f n).emits (a n) = true := by
  induction c using Nat.strong_induction_on generalizing m with
  | _ c ih =>
    have hexp : f (m + 1) = ⟨.offline, (f m).count + 1, some (a m).time⟩ := by
      rcases h.at_turn hm with ⟨-, heq⟩ | ⟨hoff, -⟩
      · exact heq
      · rw [hst] at hoff
        cases hoff
    obtain ⟨n, hlast, hturn⟩ := h.next_turn hm
    have hoff : (f n).status = .offline := by rw [hlast.status, hexp]
    have hle := h.recovery_le hgap hlast hturn (by rw [hexp])
    rcases h.at_turn hturn with ⟨hon, -⟩ | ⟨-, heq, hemit⟩
    · rw [hoff] at hon
      cases hon
    · by_cases hlow : (f n).effective (a n).time < flapThreshold
      · exact ⟨n, hlast.before, by rw [hemit]; simpa using hlow⟩
      · -- The recovery was silent, so the next expiry starts from a smaller counter.
        obtain ⟨k, hlast', hturn'⟩ := h.next_turn hturn
        have hon : (f k).status = .online := by rw [hlast'.status, heq]
        have hcount := h.count_le_of_lastTurn hlast'
        have hnext : f (k + 1) = ⟨.offline, (f k).count + 1, some (a k).time⟩ := by
          rcases h.at_turn hturn' with ⟨-, heq'⟩ | ⟨hoff', -⟩
          · exact heq'
          · rw [hon] at hoff'
            cases hoff'
        rw [heq] at hcount
        have hsmall : (f (k + 1)).count < c := by
          rw [hnext]
          simp only [flapThreshold] at hlow hcount ⊢
          omega
        obtain ⟨j, hj, hemits⟩ := ih _ hsmall k hturn' hon rfl
        exact ⟨j, by have := hlast.before; have := hlast'.before; omega, hemits⟩

theorem emits_forever (hgap : flapStablePeriod ≤ gap) (N : Nat) :
    ∃ n, N ≤ n ∧ (f n).emits (a n) = true := by
  obtain ⟨m, hm, hturn⟩ := h.forever N
  rcases h.at_turn hturn with ⟨hon, -⟩ | ⟨-, heq, -⟩
  · obtain ⟨n, hn, hemit⟩ := h.emits_after_expiry hgap _ m hturn hon rfl
    exact ⟨n, by omega, hemit⟩
  · obtain ⟨k, hlast, hturn'⟩ := h.next_turn hturn
    have hon : (f k).status = .online := by rw [hlast.status, heq]
    obtain ⟨n, hn, hemit⟩ := h.emits_after_expiry hgap _ k hturn' hon rfl
    exact ⟨n, by have := hlast.before; omega, hemit⟩

/-- The counter silences an alternation exactly when its turns are closer than a stable period. -/
theorem silent_iff :
    (∃ N, ∀ n, N ≤ n → (f n).emits (a n) = false) ↔ gap < flapStablePeriod := by
  constructor
  · rintro ⟨N, hN⟩
    by_contra hgap
    obtain ⟨n, hn, hemit⟩ := h.emits_forever (by omega) N
    rw [hN n hn] at hemit
    cases hemit
  · exact h.silent_of_close

end Alternates

end

end Flap

end Steward
