import LiveServer.Alone
import LiveServer.Tasks.Claims

/-! The lifecycle of a task: pending, running, then completed or failed.

A poll moves the tasks it returns from pending to running and nothing else. A report
writes the status it is given to the id it is given: no statement looks at what the
task's status is, or whether there is such a task. So the lifecycle is kept exactly as
long as the agents keep it. -/
namespace LiveServer
open Concurrent Relational

/-- A request of an agent. -/
inductive AgentRequest where
  | getTasks (agentID : Str)
  | updateTask (taskID status errorMsg : Str)
  deriving DecidableEq

/-- What it runs; `true` is the answer 200. -/
def AgentRequest.serve : AgentRequest → Server Bool
  | .getTasks agentID => Option.isSome <$> AgentHandler.getTasks agentID
  | .updateTask taskID status errorMsg => AgentHandler.updateTask taskID status errorMsg

/-- A request with the states around it. -/
structure Served where
  before : World
  request : AgentRequest
  success : Bool
  after : World

/-- Requests served one after the other. -/
inductive AgentRun (ok : Op → Choice → Prop) : World → List Served → World → Prop
  | nil {w : World} : AgentRun ok w [] w
  | cons {w w₁ w' : World} {request : AgentRequest} {success : Bool} {rest : List Served} :
      Prog.Runs World.perform ok request.serve w success w₁ → AgentRun ok w₁ rest w' →
      AgentRun ok w (⟨w, request, success, w₁⟩ :: rest) w'

def taskStatuses : List Str := [taskStatusPending, taskStatusRunning, taskStatusCompleted, taskStatusFailed]

/-- A task has come to its end. -/
def Done (status : Str) : Prop := status = taskStatusCompleted ∨ status = taskStatusFailed

instance (status : Str) : Decidable (Done status) := inferInstanceAs (Decidable (_ ∨ _))

/-- How the status of a task may change. -/
inductive Moves : Str → Str → Prop
  | stays {status : Str} : Moves status status
  | claimed : Moves taskStatusPending taskStatusRunning
  | done {status : Str} : Done status → Moves taskStatusRunning status

/-- A report is about a running task and says that it is done. One that names no UUID
comes to nothing. -/
def Orderly (db : DB) : AgentRequest → Prop
  | .getTasks _ => True
  | .updateTask taskID status _ => ∀ u, uuidIn taskID = some u →
    (db.taskAt u).map AgentTask.status = some taskStatusRunning ∧ Done status

/-- The rows of two tables, status by status. -/
def RowsMove (R : Str → Str → Prop) (db db' : DB) : Prop :=
  ∀ id, Option.Rel (fun row row' => R row.status row'.status) (db.taskAt id) (db'.taskAt id)

section
variable {R : Str → Str → Prop} {db db' db'' : DB} {w w' : World} {ok : Op → Choice → Prop}

theorem rel_self (hR : ∀ status, R status status) (row : Option AgentTask) :
    Option.Rel (fun row row' => R row.status row'.status) row row := by
  cases row with
  | none => exact .none
  | some row => exact .some (hR _)

theorem RowsMove.of_eq (hR : ∀ status, R status status) (h : db'.tasks = db.tasks) :
    RowsMove R db db' := by
  intro id
  unfold DB.taskAt
  rw [h]
  exact rel_self hR _

theorem RowsMove.trans (hR : ∀ {a b c}, R a b → R b c → R a c) (h : RowsMove R db db')
    (h' : RowsMove R db' db'') : RowsMove R db db'' := by
  intro id
  have h := h id
  have h' := h' id
  generalize db.taskAt id = x, db'.taskAt id = y, db''.taskAt id = z at h h'
  cases h with
  | none => exact h'
  | some hab =>
    cases h' with
    | some hbc => exact .some (hR hab hbc)

theorem RowsMove.mono {R' : Str → Str → Prop} (hR : ∀ {a b}, R a b → R' a b) (h : RowsMove R db db') :
    RowsMove R' db db' := by
  intro id
  have h := h id
  generalize db.taskAt id = x, db'.taskAt id = y at h ⊢
  cases h with
  | none => exact .none
  | some hab => exact .some (hR hab)

/-! ### A poll -/

/-- The part of the lifecycle that a poll makes. -/
def Claimed (a b : Str) : Prop := a = b ∨ a = taskStatusPending ∧ b = taskStatusRunning

theorem Claimed.trans {a b c : Str} (h : Claimed a b) (h' : Claimed b c) : Claimed a c := by
  rcases h with rfl | ⟨rfl, rfl⟩
  · exact h'
  · rcases h' with rfl | ⟨hne, _⟩
    · exact .inr ⟨rfl, rfl⟩
    · exact absurd hne (by decide)

theorem Claimed.moves {a b : Str} (h : Claimed a b) : Moves a b := by
  rcases h with rfl | ⟨rfl, rfl⟩
  · exact .stays
  · exact .claimed

/-- A statement of a poll marks its task or does nothing. -/
theorem claim_row {o : Op} {u agentID : Str} (hu : uuidIn u = some u)
    (ho : o = .assignTask u agentID ∨ o = .updateTaskStatus u taskStatusRunning []) (ch : Choice)
    (id : Str) :
    (World.perform ch o w).2.db.taskAt id = w.db.taskAt id ∨
      id = u ∧ ∃ f : AgentTask → AgentTask, (∀ row, (f row).status = taskStatusRunning) ∧
        (World.perform ch o w).2.db.taskAt id = (w.db.taskAt id).map f := by
  have hchange := (World.perform_tasks ch o w).row id
  rcases ho with rfl | rfl
  · cases hchange with
    | kept h => exact .inl h
    | assigned hid _ h =>
      exact .inr ⟨Option.some.inj (hid.symm.trans hu), _, fun _ => rfl, h⟩
  · cases hchange with
    | kept h => exact .inl h
    | status hid hst h =>
      have hst : varchar 20 taskStatusRunning = some _ := hst
      have hrun : varchar 20 taskStatusRunning = some taskStatusRunning := by decide
      refine .inr ⟨Option.some.inj (hid.symm.trans hu), _, fun row => ?_, h⟩
      exact Option.some.inj (hst.symm.trans hrun)

/-- Marking tasks that are pending moves their rows to running. -/
theorem wp_claimTasks (agentID : Str) {tasks : List AgentTask}
    (hids : tasks.Pairwise fun x y => x.id ≠ y.id) (hstored : ∀ x ∈ tasks, uuidIn x.id = some x.id)
    (hpend : ∀ x ∈ tasks, ∀ row, w.db.taskAt x.id = some row → row.status = taskStatusPending) :
    (AgentHandler.claimTasks agentID tasks).wp World.perform ok
      (fun _ w' => RowsMove Claimed w.db w'.db) w := by
  induction tasks generalizing w with
  | nil => exact .of_eq (fun _ => .inl rfl) rfl
  | cons x rest ih =>
    obtain ⟨hx, hrest⟩ := List.pairwise_cons.mp hids
    -- the statement for the first task, whichever it is, and then the others
    have hstep (o : Op) (ho : o = .assignTask x.id agentID ∨ o = .updateTaskStatus x.id taskStatusRunning [])
        (ch : Choice) : (AgentHandler.claimTasks agentID rest).wp World.perform ok
          (fun _ w' => RowsMove Claimed w.db w'.db) (World.perform ch o w).2 := by
      have hrow := claim_row (w := w) (hstored x List.mem_cons_self) ho ch
      have hfirst : RowsMove Claimed w.db (World.perform ch o w).2.db := by
        intro id
        rcases hrow id with hkept | ⟨rfl, f, hf, hmap⟩
        · rw [hkept]
          exact rel_self (fun _ => .inl rfl) _
        · rw [hmap]
          cases hat : w.db.taskAt x.id with
          | none => exact .none
          | some row => exact .some (.inr ⟨hpend x List.mem_cons_self row hat, hf row⟩)
      refine Prog.wp_mono (fun _ w' h => RowsMove.trans (R := Claimed) (fun h h' => h.trans h') hfirst h)
        (ih hrest (fun y hy => hstored y (List.mem_cons_of_mem x hy)) fun y hy row hat => ?_)
      rcases hrow y.id with hkept | ⟨heq, _⟩
      · exact hpend y (List.mem_cons_of_mem x hy) row (hkept ▸ hat)
      · exact absurd heq.symm (hx y hy)
    unfold AgentHandler.claimTasks
    split
    · exact fun ch _ => hstep _ (.inl rfl) ch
    · exact fun ch _ => hstep _ (.inr rfl) ch

theorem alone_poll (agentID : Str) :
    (AgentHandler.getTasks agentID).wp World.perform ok (fun _ w' => RowsMove Claimed w.db w'.db) w := by
  refine wp_getPendingTasks (fun e w₁ _ h₁ => ?_) fun w₁ h₁ => ?_
  · exact .of_eq (fun _ => .inl rfl) (congrArg DB.tasks h₁.db)
  · have hrow (x : AgentTask) (hx : x ∈ w.db.getPendingTasks agentID) :=
      DB.mem_getPendingTasks.mp hx
    refine Prog.wp_bind (Prog.wp_mono (fun _ w₂ h₂ => ?_) (wp_claimTasks (w := w₁) agentID
      (w.db.apart_getPendingTasks agentID) ?_ ?_))
    · exact h₁.db ▸ h₂
    · exact fun x hx => w.db.tasks.good x (hrow x hx).1
    · intro x hx row hat
      rw [h₁.db, DB.taskAt_eq_some.mpr ⟨(hrow x hx).1, rfl⟩] at hat
      cases hat
      exact (hrow x hx).2.1

/-! ### A report -/

theorem Done.stored {status st : Str} (h : Done status) (hst : varchar 20 status = some st) : st = status := by
  have hfits : varchar 20 status = some status := by
    rcases h with rfl | rfl <;> decide
  exact Option.some.inj (hst.symm.trans hfits)

/-- A report that is in order ends the task it names; if it is answered 200, that task has
the status it was given. -/
theorem alone_report {taskID status errorMsg : Str}
    (horder : Orderly w.db (.updateTask taskID status errorMsg)) :
    (AgentHandler.updateTask taskID status errorMsg).wp World.perform ok
      (fun success w' => RowsMove Moves w.db w'.db ∧ (success = true →
        ∃ u row, uuidIn taskID = some u ∧ w'.db.taskAt u = some row ∧ row.status = status)) w := by
  refine Prog.wp_mono (fun success w' h => ?_) (alone_updateTask taskID status errorMsg)
  cases h with
  | failed hfaded _ => exact ⟨.of_eq (fun _ => .stays) (congrArg DB.tasks hfaded.db), fun h => nomatch h⟩
  | reported hu hst hupd =>
    rename_i u st now
    obtain ⟨hrun, hdone⟩ := horder u hu
    obtain ⟨row, hrow, hstatus⟩ := Option.map_eq_some_iff.mp hrun
    have hstored := hdone.stored hst
    subst hstored
    have hself : w'.db.taskAt u = some (row.withStatus st errorMsg now) := by
      rw [hupd.self, hrow]
      rfl
    constructor
    · intro id
      by_cases hid : id = u
      · subst hid
        rw [hself, hrow]
        refine .some ?_
        rw [hstatus]
        exact .done hdone
      · rw [hupd.taskAt, if_neg hid]
        exact rel_self (fun _ => .stays) _
    · exact fun _ => ⟨u, _, hu, hself, rfl⟩

/-! ### Whole runs -/

/-- What is done stays as it is. -/
theorem Moves.of_done {a b : Str} (h : Moves a b) (ha : Done a) : b = a := by
  cases h with
  | stays => rfl
  | claimed => exact absurd ha (by decide)
  | done _ => exact absurd ha (by decide)

theorem Moves.known {a b : Str} (h : Moves a b) (ha : a ∈ taskStatuses) : b ∈ taskStatuses := by
  cases h with
  | stays => exact ha
  | claimed => decide
  | done hb => rcases hb with rfl | rfl <;> decide

/-- What one request does to the tasks. -/
theorem served_moves {request : AgentRequest} {success : Bool}
    (h : Prog.Runs World.perform ok request.serve w success w') (horder : Orderly w.db request) :
    RowsMove Moves w.db w'.db := by
  cases request with
  | getTasks agentID =>
    obtain ⟨_, _, h⟩ := h.of_map
    exact (h.wp (alone_poll agentID)).mono Claimed.moves
  | updateTask taskID status errorMsg => exact (h.wp (alone_report horder)).1

/-- The lifecycle of the tasks over a run of requests that ends in `w'`. -/
structure Lifecycle (steps : List Served) (w' : World) : Prop where
  known : ∀ step ∈ steps, ∀ row ∈ step.after.db.tasks.rows, row.status ∈ taskStatuses
  moves : ∀ step ∈ steps, RowsMove Moves step.before.db step.after.db
  final : ∀ step ∈ steps, ∀ id row, step.after.db.taskAt id = some row → Done row.status →
    ∃ row', w'.db.taskAt id = some row' ∧ row'.status = row.status
  reported : ∀ step ∈ steps, ∀ taskID status errorMsg,
    step.request = .updateTask taskID status errorMsg → step.success = true →
    ∃ u row, uuidIn taskID = some u ∧ step.after.db.taskAt u = some row ∧ row.status = status

theorem RowsMove.known (h : RowsMove Moves db db')
    (hdb : ∀ row ∈ db.tasks.rows, row.status ∈ taskStatuses) :
    ∀ row ∈ db'.tasks.rows, row.status ∈ taskStatuses := by
  intro row hrow
  have hat : db'.taskAt row.id = some row := DB.taskAt_eq_some.mpr ⟨hrow, rfl⟩
  have hmove := h row.id
  rw [hat] at hmove
  cases hold : db.taskAt row.id with
  | none =>
    rw [hold] at hmove
    cases hmove
  | some old =>
    rw [hold] at hmove
    cases hmove with
    | some hmoves => exact hmoves.known (hdb old (DB.taskAt_eq_some.mp hold).1)

theorem RowsMove.of_done (h : RowsMove Moves db db') {id : Str} {row : AgentTask}
    (hrow : db.taskAt id = some row) (hdone : Done row.status) :
    ∃ row', db'.taskAt id = some row' ∧ row'.status = row.status := by
  have hmove := h id
  rw [hrow] at hmove
  cases hat : db'.taskAt id with
  | none =>
    rw [hat] at hmove
    cases hmove
  | some row' =>
    rw [hat] at hmove
    cases hmove with
    | some hmoves => exact ⟨row', rfl, hmoves.of_done hdone⟩

/-- What is done at the start of a run is so at its end. -/
theorem AgentRun.of_done {steps : List Served} (h : AgentRun ok w steps w')
    (horder : ∀ step ∈ steps, Orderly step.before.db step.request) {id : Str} {row : AgentTask}
    (hrow : w.db.taskAt id = some row) (hdone : Done row.status) :
    ∃ row', w'.db.taskAt id = some row' ∧ row'.status = row.status := by
  induction h generalizing row with
  | nil => exact ⟨row, hrow, rfl⟩
  | cons hrun _ ih =>
    obtain ⟨hfirst, hrest⟩ := List.forall_mem_cons.mp horder
    obtain ⟨row₁, hrow₁, hst₁⟩ := (served_moves hrun hfirst).of_done hrow hdone
    obtain ⟨row', hrow', hst'⟩ := ih hrest hrow₁ (hst₁ ▸ hdone)
    exact ⟨row', hrow', hst'.trans hst₁⟩

theorem AgentRun.lifecycle {steps : List Served} (h : AgentRun ok w steps w')
    (horder : ∀ step ∈ steps, Orderly step.before.db step.request)
    (hw : ∀ row ∈ w.db.tasks.rows, row.status ∈ taskStatuses) : Lifecycle steps w' := by
  induction h with
  | nil => constructor <;> exact fun _ h => absurd h List.not_mem_nil
  | @cons w w₁ w' request success rest hrun htail ih =>
    obtain ⟨hfirst, hrest⟩ := List.forall_mem_cons.mp horder
    have hmoves := served_moves hrun hfirst
    have hw₁ := hmoves.known hw
    have ih := ih hrest hw₁
    constructor
    · exact List.forall_mem_cons.mpr ⟨hw₁, ih.known⟩
    · exact List.forall_mem_cons.mpr ⟨hmoves, ih.moves⟩
    · exact List.forall_mem_cons.mpr ⟨fun id row hrow hdone => htail.of_done hrest hrow hdone, ih.final⟩
    · refine List.forall_mem_cons.mpr ⟨fun taskID status errorMsg hreq hsuccess => ?_, ih.reported⟩
      cases hreq
      exact (hrun.wp (alone_report hfirst)).2 hsuccess

/-- **Tasks keep their lifecycle** over every run from a table of pending tasks in which
each report is about a running task and says that it is done. -/
theorem task_lifecycle {steps : List Served} (h : AgentRun ok w steps w')
    (hw : ∀ row ∈ w.db.tasks.rows, row.status = taskStatusPending)
    (horder : ∀ step ∈ steps, Orderly step.before.db step.request) : Lifecycle steps w' := by
  refine h.lifecycle horder fun row hrow => ?_
  rw [hw row hrow]
  exact List.mem_cons_self

end

/-! ### Agents that keep it, and one that does not -/

/-- One request of an agent, nothing failing. -/
def AgentRequest.answer (request : AgentRequest) (w : World) : Bool × World :=
  request.serve.exec World.perform (fun _ => {}) w

/-- Requests served one after the other, nothing failing. -/
def serveAll : World → List AgentRequest → List Served
  | _, [] => []
  | w, request :: rest => ⟨w, request, (request.answer w).1, (request.answer w).2⟩ ::
    serveAll (request.answer w).2 rest

theorem serveAll_run (requests : List AgentRequest) (w : World) :
    AgentRun noFaults w (serveAll w requests)
      (requests.foldl (fun w request => (request.answer w).2) w) := by
  induction requests generalizing w with
  | nil => exact .nil
  | cons request rest ih => exact .cons (Prog.exec_runs _ _ _ fun _ _ => rfl) (ih _)

/-- An agent that polls and reports the task it got. -/
theorem task_lifecycle_report :
    Lifecycle (serveAll sampleTasks [.getTasks (lit "a"), .updateTask sampleID taskStatusCompleted []])
      ((AgentRequest.updateTask sampleID taskStatusCompleted []).answer
        ((AgentRequest.getTasks (lit "a")).answer sampleTasks).2).2 := by
  have hreport : Orderly ((AgentRequest.getTasks (lit "a")).answer sampleTasks).2.db
      (.updateTask sampleID taskStatusCompleted []) := by
    intro u hu
    have hid : uuidIn sampleID = some sampleID := by decide
    cases hid.symm.trans hu
    decide
  refine task_lifecycle (serveAll_run _ _) (by decide) ?_
  exact List.forall_mem_cons.mpr ⟨trivial, List.forall_mem_cons.mpr
    ⟨hreport, fun _ h => absurd h List.not_mem_nil⟩⟩

/-- Nothing stops an agent from starting a completed task again, from making up a status,
or from reporting on a task that does not exist. -/
theorem task_lifecycle_broken :
    (∃ steps w', AgentRun noFaults sampleTasks steps w' ∧ ∃ step ∈ steps,
      (step.before.db.taskAt sampleID).map AgentTask.status = some taskStatusCompleted ∧
      (step.after.db.taskAt sampleID).map AgentTask.status = some taskStatusRunning) ∧
    (∃ steps w', AgentRun noFaults sampleTasks steps w' ∧ ∃ step ∈ steps,
      ∃ row ∈ step.after.db.tasks.rows, row.status ∉ taskStatuses) ∧
    (∃ steps w', AgentRun noFaults .empty steps w' ∧ ∃ step ∈ steps,
      step.request = .updateTask sampleID taskStatusCompleted [] ∧ step.success = true ∧
      step.after.db.taskAt sampleID = none) := by
  refine ⟨⟨_, _, serveAll_run [.getTasks (lit "a"), .updateTask sampleID taskStatusCompleted [],
      .updateTask sampleID taskStatusRunning []] sampleTasks, ?_⟩,
    ⟨_, _, serveAll_run [.updateTask sampleID (lit "paused") []] sampleTasks, ?_⟩,
    ⟨_, _, serveAll_run [.updateTask sampleID taskStatusCompleted []] .empty, ?_⟩⟩
  all_goals decide

end LiveServer
