import Steward.Sessions

/-!
# Edits of the profile

An edit of the profile is to change the email alone. It reads the row and writes all its
columns back, with the new email, some steps later: the columns that other requests have
changed in between are written over with what they were.
-/

namespace Steward.Accounts

open Programs Runs

/-- The columns that an update writes, but for the email. -/
def User.others (u : User) : UpdateUserParams := { u.params with email := "" }

/-- The rows differ in the email at most. -/
def OnlyEmail (before after : User) : Prop := after = { before with email := after.email }

instance (before after : User) : Decidable (OnlyEmail before after) :=
  inferInstanceAs (Decidable (_ = _))

theorem onlyEmail_update_iff (u v : User) (email : String) :
    OnlyEmail u (u.update { v.params with email := email }) ↔ u.others = v.others := by
  unfold OnlyEmail User.others User.params User.update
  grind

section Steps

variable {S : Service} {w : Server} {i : Nat} {p : Handler Unit}

theorem step_other (hp : w.tasks[i]? = some p) {e : Event} (he : e ≠ .advance i) :
    (step S w e).tasks[i]? = some p := by
  cases e with
  | request r => exact Pool.start_earlier hp
  | advance j =>
    have hne : i ≠ j := fun heq => he (by rw [heq])
    rw [step, Pool.advance_other Stmt.apply hne, hp]

/-- A request waits while the others take their steps. -/
theorem run_others (hp : w.tasks[i]? = some p) {events : List Event}
    (h : ∀ e ∈ events, e ≠ .advance i) : (run (step S) w events).tasks[i]? = some p :=
  run_invariant (P := fun v : Server => v.tasks[i]? = some p) (fun _ _ hv he => step_other hv he) hp
    (along_of_forall _ _ _ h)

variable {next : Account → Handler Unit}

theorem advance_ask (h : w.tasks[i]? = some (.ask next)) :
    (step S w (.advance i)).tasks[i]? = some (next w.state) := by
  obtain ⟨hlt, -⟩ := List.getElem?_eq_some_iff.mp h
  simp only [step, Pool.advance, h]
  exact List.getElem?_set_self hlt

end Steps

/-- The two steps of an edit. -/
theorem updateProfile_handler (S : Service) {env : Env} (email : String)
    (hget : env.fails 0 = false) (hupdate : env.fails 1 = false) :
    (Request.updateProfile env email).handler S =
      .ask fun a => .act (.updateUser { a.user.params with email := email }) fun b =>
        respond (.profile (.ok (b.user.update { a.user.params with email := email }))) := by
  simp only [Request.handler, updateProfile, getUserByID, read, write, hget, hupdate]
  rfl

/-- The write of an edit changes the email alone exactly when the other columns are what
they were when the edit read them. -/
theorem updateProfile_onlyEmail_iff (S : Service) (w : Server) (i : Nat) (env : Env)
    (email : String) (hget : env.fails 0 = false) (hupdate : env.fails 1 = false)
    (hedit : w.tasks[i]? = some ((Request.updateProfile env email).handler S))
    (between : List Event) (hothers : ∀ e ∈ between, e ≠ .advance i) :
    let w' := run (step S) (step S w (.advance i)) between
    OnlyEmail w'.state.user (step S w' (.advance i)).state.user ↔
      w'.state.user.others = w.state.user.others := by
  intro w'
  rw [updateProfile_handler S email hget hupdate] at hedit
  have hread := advance_ask (S := S) hedit
  have hwrite : (run (step S) (step S w (.advance i)) between).tasks[i]? = _ :=
    run_others hread hothers
  have hstate : (step S w' (.advance i)).state = _ :=
    congrArg Pool.state (Pool.advance_act Stmt.apply hwrite)
  rw [hstate]
  exact onlyEmail_update_iff _ _ _

/-- An edit beside a login. -/
theorem login_beside_edit :
    let w := step plainService (start operator none)
      (.request (.updateProfile {} "noc@example.org"))
    let w' := run (step plainService) (step plainService w (.advance 0))
      (.request (.login {} "ops" "old-secret") :: List.replicate 5 (.advance 1))
    OnlyEmail w'.state.user (step plainService w' (.advance 0)).state.user :=
  (updateProfile_onlyEmail_iff plainService _ 0 {} "noc@example.org" rfl rfl rfl
    (.request (.login {} "ops" "old-secret") :: List.replicate 5 (.advance 1)) (by simp)).mpr
    (by decide +kernel)

/-- The password is reset between the read and the write of an edit: the reset returns
success, and the edit restores the old hash and takes the duty to change it away. -/
theorem edit_undoes_reset :
    let w := run (step plainService) (start operator none)
      (.request (.updateProfile {} "noc@example.org") :: .advance 0 ::
        .request (.adminResetPassword {} "new-secret") :: List.replicate 4 (.advance 1))
    let w' := step plainService w (.advance 0)
    w.state.changes.length = 1 ∧ w.state.user.passwordHash = "#new-secret" ∧
      w.state.user.mustChangePassword = true ∧ w'.state.user.passwordHash = "#old-secret" ∧
      w'.state.user.mustChangePassword = false ∧ ¬ OnlyEmail w.state.user w'.state.user := by
  decide +kernel

end Steward.Accounts
