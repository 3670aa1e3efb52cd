import Steward.RowTable
import Steward.Runs

/-!
# Scan tasks and their jobs

`taskservice` writes the `scan_tasks` rows and, in a separate step, the scheduler's jobs. Creation
takes its row back when the job is refused. An update does not: it writes whatever cron expression
it is given, and the old job is dropped before the new one is tried.
-/

namespace Steward.ScanTasks

open Runs RowTable

structure Task where
  id : Nat
  name : String
  targets : String
  cronExpr : String
  pipelineConfig : String
  globalLabels : String
  timeout : Int
  concurrentHosts : Int
  credentialID : Option Int
  enabled : Bool
  deriving DecidableEq, Repr

/-- No index of `scan_tasks` is unique. -/
def schema : Schema Task := ⟨Task.id, fun _ _ => false, fun _ _ => rfl⟩

structure ScanTaskRequest where
  name : String
  targets : String
  cronExpr : String
  pipelineConfig : String
  globalLabels : String
  timeout : Int
  concurrentHosts : Int
  credentialID : Int
  deriving DecidableEq, Repr

structure UpdateScanTaskRequest where
  name : Option String := none
  targets : Option String := none
  cronExpr : Option String := none
  pipelineConfig : Option String := none
  globalLabels : Option String := none
  timeout : Option Int := none
  concurrentHosts : Option Int := none
  credentialID : Option Int := none
  enabled : Option Bool := none
  deriving DecidableEq, Repr

/-- The checks and the cron parser, each by the error it gives. -/
structure Library where
  validateScanTaskRequest : ScanTaskRequest → Option String
  validateTargetsFor : String → Option String
  validatePipelineConfig : String → Option String
  newJob : String → Option String
  newJob_empty : newJob "" ≠ none

/-- A registered job, under the id of its task. -/
structure Job where
  taskID : Nat
  cronExpr : String
  targets : String
  deriving DecidableEq, Repr

structure World where
  tasks : Table schema := .empty
  jobs : List Job := []

variable (lib : Library) (jobs : List Job)

def removeJob (taskID : Nat) : List Job := jobs.filter fun j => j.taskID ≠ taskID

/-- `AddJob`, and `UpdateJob` which is the same. -/
def addJob (j : Job) : List Job × Option String :=
  match lib.newJob j.cronExpr with
  | some e =>
    (removeJob jobs j.taskID, some ("register cron job task " ++ toString j.taskID ++ ": " ++ e))
  | none => (removeJob jobs j.taskID ++ [j], none)

def Task.job (t : Task) : Job := ⟨t.id, t.cronExpr, t.targets⟩

def defaultConcurrentHosts : Int := 16

/-- The row of `CreateScanTask`: enabled, and without a credential when the id is zero. -/
def ScanTaskRequest.task (req : ScanTaskRequest) (id : Nat) : Task where
  id := id
  name := req.name
  targets := req.targets
  cronExpr := req.cronExpr
  pipelineConfig := req.pipelineConfig
  globalLabels := req.globalLabels
  timeout := req.timeout
  concurrentHosts := req.concurrentHosts
  credentialID := if req.credentialID = 0 then none else some req.credentialID
  enabled := true

variable (w : World)

def createTask (req : ScanTaskRequest) : World × Except String Task :=
  let req := if req.concurrentHosts = 0 then
    { req with concurrentHosts := defaultConcurrentHosts } else req
  match lib.validateScanTaskRequest req with
  | some e => (w, .error e)
  | none =>
    match w.tasks.insert req.task fun _ => rfl with
    | none => (w, .error "insert")
    | some tasks =>
      let task := req.task w.tasks.nextId
      match addJob lib w.jobs task.job with
      | (jobs, some e) =>
        (⟨tasks.delete fun r => r.id = task.id, jobs⟩, .error ("register cron job: " ++ e))
      | (jobs, none) => (⟨tasks, jobs⟩, .ok task)

variable (req : UpdateScanTaskRequest)

/-- The checks of an update: the cron expression is not among them. -/
def UpdateScanTaskRequest.refused : Option String :=
  (req.targets.bind lib.validateTargetsFor).map ("targets: " ++ ·) <|>
    (req.pipelineConfig.bind lib.validatePipelineConfig).map ("pipeline_config: " ++ ·)

/-- The row after `UpdateScanTask` and `ToggleScanTaskEnabled`. -/
def UpdateScanTaskRequest.merge (existing : Task) : Task :=
  { existing with
    name := req.name.getD existing.name
    targets := req.targets.getD existing.targets
    cronExpr := req.cronExpr.getD existing.cronExpr
    pipelineConfig := req.pipelineConfig.getD existing.pipelineConfig
    globalLabels := req.globalLabels.getD existing.globalLabels
    timeout := req.timeout.getD existing.timeout
    concurrentHosts := req.concurrentHosts.getD existing.concurrentHosts
    credentialID := req.credentialID <|> existing.credentialID
    enabled := req.enabled.getD existing.enabled }

theorem merge_inert : schema.Inert req.merge :=
  ⟨fun _ => rfl, fun _ _ => rfl⟩

def updateTask (id : Nat) (req : UpdateScanTaskRequest) : World × Except String Task :=
  match w.tasks.get? id with
  | none => (w, .error "scan task not found")
  | some existing =>
    match req.refused lib with
    | some e => (w, .error e)
    | none =>
      let task := req.merge existing
      let tasks := w.tasks.modify id req.merge (merge_inert req)
      if !task.enabled then
        (⟨tasks, removeJob w.jobs id⟩, .ok task)
      else if task.cronExpr ≠ existing.cronExpr ∨ task.targets ≠ existing.targets ∨
          task.enabled ≠ existing.enabled then
        match addJob lib w.jobs ⟨id, task.cronExpr, task.targets⟩ with
        | (jobs, some e) => (⟨tasks, jobs⟩, .error ("re-register cron job: " ++ e))
        | (jobs, none) => (⟨tasks, jobs⟩, .ok task)
      else
        (⟨tasks, w.jobs⟩, .ok task)

def deleteTask (id : Nat) : World × Except String Unit :=
  match w.tasks.get? id with
  | none => (w, .error "scan task not found")
  | some _ => (⟨w.tasks.delete fun r => r.id = id, removeJob w.jobs id⟩, .ok ())

inductive Call where
  | create (req : ScanTaskRequest)
  | update (id : Nat) (req : UpdateScanTaskRequest)
  | delete (id : Nat)
  deriving DecidableEq, Repr

def step : Call → World
  | .create req => (createTask lib w req).1
  | .update id req => (updateTask lib w id req).1
  | .delete id => (deleteTask w id).1

def jobsOf (taskID : Nat) : List Job := jobs.filter fun j => j.taskID = taskID

/-- The jobs that a task should have: one for an enabled row with a schedule. -/
def scheduled : Option Task → List Job
  | some t => if t.enabled ∧ t.cronExpr ≠ "" then [t.job] else []
  | none => []

def InSync : Prop := ∀ taskID, jobsOf w.jobs taskID = scheduled (w.tasks.get? taskID)

/-- The expression is empty, or one that the scheduler takes. -/
def Library.Takes (c : String) : Prop := c = "" ∨ lib.newJob c = none

/-- An update that gives a cron expression gives none or one that the scheduler takes. -/
def Call.CronTaken : Call → Prop
  | .update _ req => ∀ c ∈ req.cronExpr, lib.Takes c
  | _ => True

theorem jobsOf_removeJob (i k : Nat) :
    jobsOf (removeJob jobs i) k = if k = i then [] else jobsOf jobs k := by
  rw [jobsOf, removeJob, List.filter_filter]
  split
  · next hk => exact List.filter_eq_nil_iff.mpr (by simp [hk])
  · next hk =>
    apply List.filter_congr
    intro j _
    by_cases hj : j.taskID = k <;> simp [hj, hk]

/-- A job that the scheduler takes is the only one of its task. -/
theorem jobsOf_addJob (j : Job) (h : lib.newJob j.cronExpr = none) (k : Nat) :
    addJob lib jobs j = (removeJob jobs j.taskID ++ [j], none) ∧
      jobsOf (removeJob jobs j.taskID ++ [j]) k =
        if k = j.taskID then [j] else jobsOf jobs k := by
  refine ⟨by simp [addJob, h], ?_⟩
  have hold := jobsOf_removeJob jobs j.taskID k
  unfold jobsOf at hold ⊢
  rw [List.filter_append, hold]
  by_cases hk : k = j.taskID
  · simp [hk]
  · simp [hk, Ne.symm hk]

theorem addJob_refused (j : Job) (e : String)
    (h : lib.newJob j.cronExpr = some e) :
    ∃ e', addJob lib jobs j = (removeJob jobs j.taskID, some e') := by
  simp [addJob, h]

/-- The tasks have their jobs, and the scheduler takes the cron expressions in the rows. -/
structure Sound : Prop where
  sync : InSync w
  taken : ∀ i t, w.tasks.get? i = some t → lib.Takes t.cronExpr

variable {lib} {w w' : World}

theorem scheduled_enabled (t : Task) (he : t.enabled = true) (h : lib.newJob t.cronExpr = none) :
    scheduled (some t) = [t.job] := by
  have hcron : t.cronExpr ≠ "" := by
    intro hempty
    rw [hempty] at h
    exact lib.newJob_empty h
  simp [scheduled, he, hcron]

/-- A registration leaves an enabled task with the jobs it should have. -/
theorem jobsOf_addJob_enabled (t : Task) (hon : t.enabled = true) (htaken : lib.Takes t.cronExpr)
    (k : Nat) :
    jobsOf (addJob lib jobs t.job).1 k =
      if k = t.id then scheduled (some t) else jobsOf jobs k := by
  rcases htaken with hempty | htaken
  · -- the empty expression is refused, and no job is due for it
    obtain ⟨e, he⟩ := Option.ne_none_iff_exists'.mp lib.newJob_empty
    obtain ⟨e', hadd⟩ := addJob_refused lib jobs t.job e ((congrArg lib.newJob hempty).trans he)
    have hnone : scheduled (some t) = [] := by simp [scheduled, hempty]
    rw [hadd, hnone]
    exact jobsOf_removeJob jobs t.id k
  · have hadd := jobsOf_addJob lib jobs t.job htaken k
    rw [scheduled_enabled t hon htaken, hadd.1]
    exact hadd.2

/-- A call that writes one task and its jobs together. -/
theorem Sound.write (h : Sound lib w) (i : Nat) (x : Option Task)
    (htasks : ∀ k, w'.tasks.get? k = if k = i then x else w.tasks.get? k)
    (hjobs : ∀ k, jobsOf w'.jobs k = if k = i then scheduled x else jobsOf w.jobs k)
    (htaken : ∀ t ∈ x, lib.Takes t.cronExpr) : Sound lib w' where
  sync := by
    intro k
    rw [htasks, hjobs]
    split
    · rfl
    · exact h.sync k
  taken := by
    intro k t ht
    rw [htasks] at ht
    split at ht
    · exact htaken t ht
    · exact h.taken k t ht

theorem Sound.createTask (h : Sound lib w) (req : ScanTaskRequest) :
    Sound lib (createTask lib w req).1 := by
  unfold ScanTasks.createTask
  generalize (if req.concurrentHosts = 0 then _ else req) = req
  simp only
  split
  · exact h
  · split
    · exact h
    · next tasks hins =>
      have hget := fun k => Table.get?_insert_row hins k
      cases hjob : lib.newJob req.cronExpr with
      | none =>
        have hadd := jobsOf_addJob lib w.jobs (req.task w.tasks.nextId).job hjob
        rw [(hadd 0).1]
        refine h.write w.tasks.nextId (some (req.task w.tasks.nextId)) hget ?_ ?_
        · intro k
          rw [scheduled_enabled _ rfl hjob]
          exact (hadd k).2
        · rintro t ⟨⟩
          exact .inr hjob
      | some e =>
        -- the row that was just written goes again, and its id had no job
        obtain ⟨e', hadd⟩ := addJob_refused lib w.jobs (req.task w.tasks.nextId).job e hjob
        rw [hadd]
        refine h.write w.tasks.nextId none ?_ (jobsOf_removeJob w.jobs _) (by simp)
        intro k
        refine (Table.get?_delete_id tasks w.tasks.nextId k).trans ?_
        rw [hget]
        split <;> rfl

theorem Sound.updateTask (h : Sound lib w) (id : Nat) (req : UpdateScanTaskRequest)
    (hcron : ∀ c ∈ req.cronExpr, lib.Takes c) : Sound lib (updateTask lib w id req).1 := by
  unfold ScanTasks.updateTask
  cases hex : w.tasks.get? id with
  | none => exact h
  | some existing =>
    simp only
    split
    · exact h
    · have hid : existing.id = id := Table.id_of_get? hex
      have htasks : ∀ k, (w.tasks.modify id req.merge (merge_inert req)).get? k =
          if k = id then some (req.merge existing) else w.tasks.get? k := by
        intro k
        split
        · next hk => rw [hk, Table.get?_modify_same, hex]; rfl
        · next hk => exact Table.get?_modify_other w.tasks _ _ hk
      have htaken : lib.Takes (req.merge existing).cronExpr := by
        unfold UpdateScanTaskRequest.merge
        cases hc : req.cronExpr with
        | none => exact h.taken id existing hex
        | some c => exact hcron c hc
      have hwrite : ∀ jobs, (∀ k, jobsOf jobs k = if k = id then
          scheduled (some (req.merge existing)) else jobsOf w.jobs k) →
          Sound lib ⟨w.tasks.modify id req.merge (merge_inert req), jobs⟩ := by
        intro jobs hjobs
        exact h.write id _ htasks hjobs (by rintro t ⟨⟩; exact htaken)
      split
      · next hoff =>
        apply hwrite
        intro k
        have hnone : scheduled (some (req.merge existing)) = [] := by
          simp_all [scheduled]
        rw [hnone]
        exact jobsOf_removeJob w.jobs id k
      · next hon =>
        have hon : (req.merge existing).enabled = true := by simpa using hon
        have hjob : (req.merge existing).job =
            ⟨id, (req.merge existing).cronExpr, (req.merge existing).targets⟩ := by
          rw [← hid]
          rfl
        split
        · -- the row is written whether or not the registration fails
          have hadd : ∀ k, jobsOf (addJob lib w.jobs (req.merge existing).job).1 k =
              if k = id then scheduled (some (req.merge existing)) else jobsOf w.jobs k :=
            hid ▸ jobsOf_addJob_enabled w.jobs (req.merge existing) hon htaken
          rw [← hjob]
          generalize addJob lib w.jobs (req.merge existing).job = added at hadd ⊢
          obtain ⟨jobs, _ | e⟩ := added <;> exact hwrite jobs hadd
        · next hsame =>
          -- neither the schedule nor the targets changed, and the task was enabled
          apply hwrite
          intro k
          split
          · next hk =>
            rw [hk, h.sync id, hex]
            simp only [not_or, ne_eq, not_not] at hsame
            simp only [scheduled, Task.job, hsame.1, hsame.2.1, hsame.2.2]
            rfl
          · rfl

theorem Sound.deleteTask (h : Sound lib w) (id : Nat) : Sound lib (deleteTask w id).1 := by
  unfold ScanTasks.deleteTask
  split
  · exact h
  · exact h.write id none (Table.get?_delete_id w.tasks id) (jobsOf_removeJob w.jobs id) (by simp)

theorem Sound.step (h : Sound lib w) (c : Call) (hc : c.CronTaken lib) :
    Sound lib (step lib w c) := by
  cases c with
  | create req => exact h.createTask req
  | update id req => exact h.updateTask id req hc
  | delete id => exact h.deleteTask id

/-- After any calls whose updates give cron expressions that are empty or that the scheduler takes,
every enabled task with a schedule has one job, with its expression and targets, and there is no
other job. -/
theorem tasks_in_sync (lib : Library) (calls : List Call) (hcron : ∀ c ∈ calls, c.CronTaken lib) :
    InSync (run (step lib) {} calls) := by
  have hempty : Sound lib {} := ⟨fun _ => rfl, by simp [Table.get?, Table.empty]⟩
  have hrun : Sound lib (run (step lib) {} calls) :=
    run_invariant (fun _ c h hc => h.step c hc) hempty (along_of_forall (step lib) _ calls hcron)
  exact hrun.sync

/-- A scheduler that knows hourly and daily tasks. -/
def hourly : Library where
  validateScanTaskRequest := fun req => if req.name = "" then some "name is required" else none
  validateTargetsFor := fun _ => none
  validatePipelineConfig := fun _ => none
  newJob := fun c => if c = "0 * * * *" ∨ c = "0 0 * * *" then none else some "invalid"
  newJob_empty := by decide

def officeScan : ScanTaskRequest :=
  ⟨"office", "192.168.1.0/24", "0 * * * *", "", "", 300, 0, 0⟩

theorem tasks_in_sync_daily :
    InSync (run (step hourly) {} [.create officeScan, .create { officeScan with name := "" },
      .update 1 { cronExpr := some "" }, .update 1 { cronExpr := some "0 0 * * *" },
      .update 1 { enabled := some false }, .update 1 { enabled := some true }]) ∧
    (run (step hourly) {} [.create officeScan, .update 1 { cronExpr := some "0 0 * * *" }]).jobs =
      [⟨1, "0 0 * * *", "192.168.1.0/24"⟩] :=
  ⟨tasks_in_sync hourly _ (by simp [Call.CronTaken, Library.Takes, hourly]), by decide⟩

/-- An update to an expression that the scheduler refuses fails, and the row is enabled with the
new expression and without a job. -/
theorem refused_update_drops_job :
    (updateTask hourly (step hourly {} (.create officeScan)) 1 { cronExpr := some "hourly" }).2 =
      .error "re-register cron job: register cron job task 1: invalid" ∧
    (run (step hourly) {} [.create officeScan, .update 1 { cronExpr := some "hourly" }]).jobs = [] ∧
    ¬ InSync (run (step hourly) {} [.create officeScan, .update 1 { cronExpr := some "hourly" }]) :=
  ⟨by decide, by decide, fun h => absurd (h 1) (by decide)⟩

end Steward.ScanTasks
