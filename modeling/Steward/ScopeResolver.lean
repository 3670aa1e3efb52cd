import Mathlib.Algebra.Ring.Int.Defs
import Mathlib.Data.List.Sort
import Steward.Programs

/-!
# Scopes of users

A user who is no administrator sees the networks granted to them. The resolver reads the
grants of a user and keeps them in a cache for a while; whoever deletes a grant drops the
cached scope of its user afterwards. A reader that has read the grants before the deletion
and stores them after the drop brings the old scope back.
-/

namespace Steward.Scopes

open Programs Runs Prog

inductive ScopeMode where
  | open_ | closed
  deriving DecidableEq

def roleAdmin : String := "admin"

structure Scope where
  isGlobal : Bool
  networkIDs : List Int
  deriving DecidableEq

def Scope.everything : Scope := ⟨true, []⟩

def Scope.allowsNetwork (s : Scope) (networkID : Int) : Bool :=
  s.isGlobal || s.networkIDs.contains networkID

/-- A row of `user_network_grants`. -/
structure Grant where
  id : Int
  userID : Int
  networkID : Int
  deriving DecidableEq

structure CacheEntry where
  ids : List Int
  storedAt : Int
  deriving DecidableEq

/-- The grants, the cache of the resolver and the clock, in nanoseconds. -/
structure World where
  grants : List Grant
  cache : Int → Option CacheEntry := fun _ => none
  clock : Int := 0

def cacheTTL : Int := 30 * 10 ^ 9

def networkIDsByUser (grants : List Grant) (user : Int) : List Int :=
  ((grants.filter (·.userID = user)).map Grant.networkID).insertionSort (· ≤ ·)

namespace World

/-- A scope that is not too old. -/
def cached (w : World) (user : Int) : Option (List Int) :=
  match w.cache user with
  | some e => if w.clock - e.storedAt < cacheTTL then some e.ids else none
  | none => none

def setCache (w : World) (user : Int) (entry : Option CacheEntry) : World :=
  { w with cache := fun u => if u = user then entry else w.cache u }

end World

inductive Stmt where
  | deleteGrant (id : Int)
  | store (user : Int) (ids : List Int)
  | invalidate (user : Int)
  /-- The scope goes to the caller. -/
  | answer (user : Int) (role : String) (scope : Scope)
  deriving DecidableEq

def Stmt.apply : Stmt → World → World
  | deleteGrant id, w => { w with grants := w.grants.filter (·.id ≠ id) }
  | store user ids, w => w.setCache user (some ⟨ids, w.clock⟩)
  | invalidate user, w => w.setCache user none
  | answer .., w => w

abbrev Call := Prog World Stmt

/-- `Resolve`; without a resolver nothing is restricted, and neither is it when the grants
cannot be read. -/
def resolve (resolver : Option ScopeMode) (fails : Bool) (user : Int) (role : String) :
    Call Scope :=
  match resolver with
  | none => pure .everything
  | some mode =>
    if role = roleAdmin then pure .everything
    else if mode ≠ .closed then pure .everything
    else do
      match ← Prog.query fun w => w.cached user with
      | some ids => pure ⟨false, ids⟩
      | none =>
        if fails then pure .everything
        else
          let ids ← Prog.query fun w => networkIDsByUser w.grants user
          Prog.issue (.store user ids)
          pure ⟨false, ids⟩

/-- `Delete` of the handler: the cached scope is dropped when the row is gone. -/
def deleteGrant (id : Int) : Call Unit :=
  if id ≤ 0 then pure ()
  else do
    match ← Prog.query fun w => (w.grants.find? (·.id = id)).map Grant.userID with
    | none => pure ()
    | some user =>
      if ← Prog.statement (.deleteGrant id) fun w => w.grants.any (·.id = id) then
        Prog.issue (.invalidate user)
      else pure ()

/-! ## Interleavings -/

inductive Request where
  | resolve (user : Int) (role : String)
  | delete (id : Int)

/-- A request in closed mode, where no query fails. -/
def Request.handler : Request → Call Unit
  | resolve user role =>
    Scopes.resolve (some .closed) false user role >>= fun scope =>
      Prog.issue (.answer user role scope)
  | delete id => deleteGrant id

/-- A request arrives, one of those in progress takes its next step, or time passes. -/
inductive Event where
  | request (r : Request)
  | advance (task : Nat)
  | elapse (d : Nat)

abbrev Server := Pool World Stmt

def step (w : Server) : Event → Server
  | .request r => w.start r.handler
  | .advance task => w.advance Stmt.apply task
  | .elapse d => { w with state := { w.state with clock := w.state.clock + d } }

def start (world : World) : Server := { state := world }

section Revocation

variable (user network : Int)

/-- The call is about to store a scope of the user with the network. -/
def holds : Call Unit → Bool
  | .act (.store u ids) _ => u = user && ids.contains network
  | _ => false

/-- The call is about to answer the user, who is no administrator, with such a scope. -/
def yields : Call Unit → Bool
  | .act (.answer u role scope) _ =>
    u = user && role ≠ roleAdmin && scope.allowsNetwork network
  | _ => false

/-- The network is not granted to the user, and no cached scope has it. -/
def Clear (w : World) : Prop :=
  network ∉ networkIDsByUser w.grants user ∧ ∀ e ∈ w.cache user, network ∉ e.ids

/-- A call with a number that is not below `first` does not yield the network. -/
def Withheld (first : Nat) (w : Server) : Event → Prop
  | .advance i => first ≤ i → ∀ p ∈ w.tasks[i]?, yields user network p = false
  | _ => True

instance (first : Nat) (w : Server) : (e : Event) → Decidable (Withheld user network first w e)
  | .advance i => inferInstanceAs (Decidable (first ≤ i → ∀ p ∈ w.tasks[i]?, _))
  | .request _ | .elapse _ => isTrue trivial

/-! ### One step -/

variable {user network}

theorem mem_networkIDsByUser {grants : List Grant} {n : Int} :
    n ∈ networkIDsByUser grants user ↔ ∃ g ∈ grants, g.userID = user ∧ g.networkID = n := by
  simp [networkIDsByUser, and_assoc]

variable {w : World} {ids : List Int} {role : String}

theorem Clear.cached (h : Clear user network w) (hids : w.cached user = some ids) :
    network ∉ ids := by
  unfold World.cached at hids
  split at hids
  · next e he =>
    split at hids
    · cases hids
      exact h.2 e he
    · cases hids
  · cases hids

/-- A statement other than the store of a scope with the network. -/
theorem Clear.apply {op : Stmt} (h : Clear user network w)
    (hop : ∀ ids, op = .store user ids → network ∉ ids) : Clear user network (op.apply w) := by
  cases op with
  | deleteGrant id =>
    refine ⟨fun hmem => h.1 ?_, h.2⟩
    obtain ⟨g, hg, hgrant⟩ := mem_networkIDsByUser.mp hmem
    exact mem_networkIDsByUser.mpr ⟨g, List.mem_of_mem_filter hg, hgrant⟩
  | store u ids =>
    refine ⟨h.1, fun e he => ?_⟩
    simp only [Stmt.apply, World.setCache] at he
    split at he
    · next hu =>
      cases he
      exact hop ids (by rw [hu])
    · exact h.2 e he
  | invalidate u =>
    refine ⟨h.1, fun e he => ?_⟩
    simp only [Stmt.apply, World.setCache] at he
    split at he
    · cases he
    · exact h.2 e he
  | answer u role scope => exact h

/-- Where the network is neither granted nor cached, a step leads to no call that holds or
yields it. -/
def Fits (user network : Int) (w : World) (p : Call Unit) : Prop :=
  Clear user network w → holds user network p = false ∧ yields user network p = false

variable {u : Int} {next : World → Call Unit} {p : Call Unit} {first i : Nat}

theorem fits_answer (h : Clear user network w → u = user → network ∉ ids) :
    Fits user network w (.act (.answer u role ⟨false, ids⟩) next) := by
  intro hclear
  refine ⟨rfl, ?_⟩
  simp only [yields, Scope.allowsNetwork]
  by_cases hu : u = user
  · simp [h hclear hu]
  · simp [hu]

theorem fits_store (h : Clear user network w → u = user → network ∉ ids) :
    Fits user network w (.act (.store u ids) next) := by
  intro hclear
  refine ⟨?_, rfl⟩
  simp only [holds]
  by_cases hu : u = user
  · simp [h hclear hu]
  · simp [hu]

theorem fits_other (hholds : holds user network p = false)
    (hyields : yields user network p = false) : Fits user network w p :=
  fun _ => ⟨hholds, hyields⟩

theorem answer_leads (u : Int) (role : String) (scope : Scope) :
    (issue (.answer u role scope) : Call Unit).Leads Stmt.apply (Fits user network) :=
  fun _ => ⟨fits_other rfl rfl, trivial⟩

theorem resolve_leads (u : Int) (role : String) :
    (Request.resolve u role).handler.Leads Stmt.apply (Fits user network) := by
  unfold Request.handler resolve
  dsimp only
  split
  · exact answer_leads u role _
  split
  · exact answer_leads u role _
  rw [bind_bind]
  refine leads_query fun w => ?_
  cases hcached : w.cached u with
  | some ids =>
    refine ⟨fits_answer fun hclear hu => ?_, answer_leads u role _⟩
    subst hu
    exact hclear.cached hcached
  | none =>
    simp only [Bool.false_eq_true, if_false, bind_bind, ret_bind]
    refine ⟨fits_other rfl rfl, leads_query fun w => ⟨fits_store fun hclear hu => ?_, ?_⟩⟩
    · subst hu
      exact hclear.1
    · -- the store has made the cached scope the one that is answered
      refine leads_statement fun w' => ⟨fits_answer fun hclear hu => ?_, answer_leads u role _⟩
      refine hclear.2 ⟨networkIDsByUser w.grants u, w'.clock⟩ ?_
      simp [Stmt.apply, World.setCache, hu]

theorem deleteGrant_leads (id : Int) :
    (Request.delete id).handler.Leads Stmt.apply (Fits user network) := by
  unfold Request.handler deleteGrant
  dsimp only
  split
  · trivial
  refine leads_query fun w => ⟨?_, ?_⟩
  · split <;> exact fits_other rfl rfl
  split
  · trivial
  · refine leads_statement fun w => ⟨?_, ?_⟩
    · split <;> exact fits_other rfl rfl
    split
    · exact fun _ => ⟨fits_other rfl rfl, trivial⟩
    · trivial

theorem handler_leads (r : Request) : r.handler.Leads Stmt.apply (Fits user network) := by
  cases r with
  | resolve u role => exact resolve_leads u role
  | delete id => exact deleteGrant_leads id

/-! ### Every interleaving -/

/-- The calls in progress lead to calls that fit. -/
def Leading (user network : Int) (w : Server) : Prop :=
  w.Leads Stmt.apply fun _ => Fits user network

theorem Leading.step {w : Server} (h : Leading user network w) (e : Event) :
    Leading user network (step w e) := by
  cases e with
  | request r => exact Pool.Leads.start h (handler_leads r)
  | advance i => exact Pool.Leads.advance h i
  | elapse d => exact h

/-- The network is out of reach: no call holds it, and the later calls do not yield it. -/
structure Settled (user network : Int) (first : Nat) (w : Server) : Prop where
  leading : Leading user network w
  clear : Clear user network w.state
  unheld : ∀ p ∈ w.tasks, holds user network p = false
  withheld : ∀ i, first ≤ i → ∀ p ∈ w.tasks[i]?, yields user network p = false

theorem handler_idle (user network : Int) (r : Request) :
    holds user network r.handler = false ∧ yields user network r.handler = false := by
  cases r with
  | resolve u role =>
    unfold Request.handler resolve
    dsimp only
    split
    · next hrole => exact ⟨rfl, by simp [yields, hrole, issue, statement, ret_bind]⟩
    · exact ⟨rfl, rfl⟩
  | delete id =>
    unfold Request.handler deleteGrant
    dsimp only
    split <;> exact ⟨rfl, rfl⟩

theorem Settled.clear_advance {w : Server} (h : Settled user network first w) :
    Clear user network (w.advance Stmt.apply i).state := by
  rcases w.advance_cases Stmt.apply i with hsame | ⟨next, -, hafter⟩ | ⟨op, next, htask, hafter⟩
  · rw [hsame]
    exact h.clear
  · rw [hafter]
    exact h.clear
  · rw [hafter]
    refine h.clear.apply fun ids hop => ?_
    have hunheld := h.unheld _ (List.mem_of_getElem? htask)
    rw [hop] at hunheld
    simpa [holds] using hunheld

theorem Settled.step {w : Server} (h : Settled user network first w) (e : Event) :
    Settled user network first (step w e) := by
  have hleading := h.leading.step e
  cases e with
  | request r =>
    obtain ⟨hholds, hyields⟩ := handler_idle user network r
    refine ⟨hleading, h.clear, fun p hp => ?_, fun i hi p hp => ?_⟩
    · rcases List.mem_append.mp hp with hp | hp
      · exact h.unheld p hp
      · rw [List.mem_singleton.mp hp, hholds]
    · rcases Pool.start_cases hp with hold | ⟨-, rfl⟩
      · exact h.withheld i hi p hold
      · exact hyields
  | advance i =>
    have hclear : Clear user network (Scopes.step w (.advance i)).state := h.clear_advance
    refine ⟨hleading, hclear, fun p hp => ?_, fun j hj p hp => ?_⟩
    · obtain ⟨j, hj⟩ := List.mem_iff_getElem?.mp hp
      rcases h.leading.advance_task hj with hold | ⟨-, hfits, -⟩
      · exact h.unheld p (List.mem_of_getElem? hold)
      · exact (hfits hclear).1
    · rcases h.leading.advance_task hp with hold | ⟨-, hfits, -⟩
      · exact h.withheld j hj p hold
      · exact (hfits hclear).2
  | elapse d => exact ⟨hleading, h.clear, h.unheld, h.withheld⟩

theorem cached_after_store (w : World) (ids : List Int) :
    ((Stmt.store user ids).apply w).cached user = some ids := by
  have hpos : 0 < cacheTTL := by decide
  simp [World.cached, Stmt.apply, World.setCache, hpos]

/-- A call reads the cache first, and answers with what it finds there. -/
theorem handler_cached (user : Int) (hrole : role ≠ roleAdmin) (ids : List Int) :
    ∃ next, (Request.resolve user role).handler = .ask next ∧ ∀ w : World,
      w.cached user = some ids →
        next w = .act (.answer user role ⟨false, ids⟩) fun _ => .ret () := by
  unfold Request.handler resolve
  simp only [if_neg hrole, ne_eq, not_true_eq_false, if_false, bind_bind]
  refine ⟨_, rfl, fun w hw => ?_⟩
  dsimp only
  rw [hw]
  rfl

/-- A call that is about to store such a scope brings it back: another call finds it cached. -/
theorem yielded_of_holds {w : Server} (hrole : role ≠ roleAdmin) (hi : w.tasks[i]? = some p)
    (hp : holds user network p = true) :
    ¬ Along step (Withheld user network w.tasks.length) w
      [.advance i, .request (.resolve user role), .advance w.tasks.length,
        .advance w.tasks.length] := by
  obtain ⟨ids, next, rfl, hmem⟩ :
      ∃ ids next, p = .act (.store user ids) next ∧ network ∈ ids := by
    unfold holds at hp
    split at hp
    · next u ids next =>
      simp only [Bool.and_eq_true, decide_eq_true_eq, List.contains_iff_mem] at hp
      obtain ⟨rfl, hmem⟩ := hp
      exact ⟨ids, next, rfl, hmem⟩
    · cases hp
  -- the store, the call, and what it finds
  let w₁ := step w (.advance i)
  let w₂ := step w₁ (.request (.resolve user role))
  have hlength : w₁.tasks.length = w.tasks.length := Pool.advance_length Stmt.apply i
  have hstate : w₂.state = (Stmt.store user ids).apply w.state :=
    congrArg Pool.state (Pool.advance_act Stmt.apply hi)
  have hfound : (step w₂ (.advance w.tasks.length)).tasks[w.tasks.length]? =
      some (.act (.answer user role ⟨false, ids⟩) fun _ => .ret ()) := by
    obtain ⟨next, hhandler, hnext⟩ := handler_cached user hrole ids
    have htask : w₂.tasks[w.tasks.length]? = some (.ask next) := by
      rw [← hlength, ← hhandler]
      exact Pool.start_last w₁ _
    obtain ⟨hlt, -⟩ := List.getElem?_eq_some_iff.mp htask
    simp only [step, Pool.advance_ask Stmt.apply htask, List.getElem?_set_self hlt, hstate]
    rw [hnext _ (cached_after_store w.state ids)]
  intro h
  have hlast := h.2.2.2.1 (Nat.le_refl _) _ hfound
  simp [yields, hrole, Scope.allowsNetwork, hmem] at hlast

/-- When `Invalidate` has dropped the scope of the user after the grant was deleted, no call that
starts later yields the network, exactly when no call in progress holds it. -/
theorem revocation_effective_iff (world : World) (events : List Event) (task : Nat)
    (user network : Int) (next : World → Call Unit)
    (hinvalidate : (run step (start world) events).tasks[task]? =
      some (.act (.invalidate user) next))
    (hdeleted : network ∉ networkIDsByUser (run step (start world) events).state.grants user) :
    let w := step (run step (start world) events) (.advance task)
    (∀ later, Along step (Withheld user network w.tasks.length) w later) ↔
      ∀ p ∈ w.tasks, holds user network p = false := by
  intro w
  constructor
  · intro h p hp
    by_contra hholds
    obtain ⟨i, hi⟩ := List.mem_iff_getElem?.mp hp
    have hrole : "user" ≠ roleAdmin := by decide
    exact yielded_of_holds hrole hi (by simpa using hholds) (h _)
  · intro hunheld later
    have hstate : w.state = (Stmt.invalidate user).apply (run step (start world) events).state :=
      congrArg Pool.state (Pool.advance_act Stmt.apply hinvalidate)
    have hclear : Clear user network w.state := by
      rw [hstate]
      refine ⟨hdeleted, fun e he => ?_⟩
      simp [Stmt.apply, World.setCache] at he
    have hsettled : Settled user network w.tasks.length w := by
      refine ⟨Leading.step (run_preserves (fun _ e h => h.step e) fun _ _ hp => by cases hp) _,
        hclear, hunheld, fun i hi p hp => ?_⟩
      rw [List.getElem?_eq_none hi] at hp
      cases hp
    refine along_of_invariant (P := Settled user network w.tasks.length) ?_ hsettled
    intro v hv e _
    refine ⟨?_, hv.step e⟩
    cases e with
    | advance i => exact fun hi p hp => hv.withheld i hi p hp
    | request r => trivial
    | elapse d => trivial

end Revocation

/-! ### A slow reader -/

def oneGrant : World := { grants := [⟨1, 7, 3⟩] }

/-- The grant is deleted; the next step of the call drops the cached scope. -/
def deletion : List Event := [.request (.delete 1), .advance 0, .advance 0]

theorem undisturbed_revocation :
    oneGrant.grants ≠ [] ∧ ∀ later, Along step (Withheld 7 3 1)
      (step (run step (start oneGrant) deletion) (.advance 0)) later :=
  ⟨by decide, (revocation_effective_iff oneGrant deletion 0 7 3 _ rfl (by decide)).mpr
    (by decide)⟩

/-- A call reads the grants before the deletion, and stores them after the drop. -/
def overlapping : List Event :=
  [.request (.resolve 7 "user"), .advance 0, .advance 0, .request (.delete 1), .advance 1,
    .advance 1, .advance 1]

theorem slow_reader_restores :
    let w := run step (start oneGrant) overlapping
    w.state.grants = [] ∧ w.state.cache 7 = none ∧
      ¬ Along step (Withheld 7 3 w.tasks.length) w
        [.advance 0, .request (.resolve 7 "user"), .advance 2, .advance 2] := by
  decide +kernel

end Steward.Scopes
