import LiveServer.Recorded
import LiveServer.Tasks.AgentLoop
import LiveServer.Tasks.Poll

/-! What becomes of an ffmpeg that fails.

The agent takes the exit status of ffmpeg after `wait … || true`, where it is 0 whatever
ffmpeg did. So a task is reported as failed only if the device is missing, and completed if
ffmpeg was launched at all. From there on nothing is lost: a task is executed once, its row
still names its stream when the report comes, and where the server can read the report it
counts a restart for that stream exactly when the report says failed. -/
namespace LiveServer
open Concurrent Relational

namespace Agent

/-- A task the loop has taken, and what it met on the host. -/
structure Execution where
  task : AgentTask
  host : Host

namespace Execution

def report (e : Execution) : Report := execute e.host e.task

/-- ffmpeg was launched and exited 0. -/
def succeeded (e : Execution) : Bool := e.host.deviceExists && e.host.ffmpegExit = 0

/-- It was reported as failed, for this stream. -/
def failedFor (stream : Str) (e : Execution) : Bool :=
  e.report.status = taskStatusFailed && e.task.streamID = stream

end Execution

/-- Runs of the main loop with `start_push` tasks, and what it has executed. A poll may fail at
any of its calls; a report gets to the server, whose database does not fail then. Others may add
tasks in between. -/
inductive LoopRun (shouldBindJSON : Str → Except String TaskUpdateReq) (agentID : Str) (w₀ : World) :
    List Execution → Phase → World → Prop
  | start : LoopRun shouldBindJSON agentID w₀ [] .polling w₀
  | added {log : List Execution} {phase : Phase} {w w' : World} :
      LoopRun shouldBindJSON agentID w₀ log phase w →
      (∀ id row, w.db.taskAt id = some row → w'.db.taskAt id = some row) → w'.metrics = w.metrics →
      LoopRun shouldBindJSON agentID w₀ log phase w'
  | poll {log : List Execution} {answer : Option (List AgentTask)} {w w' : World} :
      LoopRun shouldBindJSON agentID w₀ log .polling w →
      Prog.Runs World.perform (fun _ _ => True) (Agent.poll agentID) w answer w' →
      LoopRun shouldBindJSON agentID w₀ log (parse (answer.getD [])) w'
  | report {log : List Execution} {e : Execution} {answer : Answer} {w w' : World} :
      LoopRun shouldBindJSON agentID w₀ log (.executing e.task) w → e.task.action = actionStartPush →
      Prog.Runs World.perform noFaults (Agent.report shouldBindJSON e.report) w answer w' →
      LoopRun shouldBindJSON agentID w₀ (log ++ [e]) .polling w'

end Agent

/-! ### What happens to the row of a task -/

/-- The task has a row, which names the same stream. -/
def Belongs (t : AgentTask) (db : DB) : Prop :=
  ∃ row, db.taskAt t.id = some row ∧ row.streamID = t.streamID

section
variable {t : AgentTask} {w w' : World}

/-- The call deletes no stream, so that the tasks stay where the schema cascades too. -/
def Op.sparesStreams : Op → Prop
  | .deleteStream _ => False
  | _ => True

/-- No other call takes a task away from its stream. -/
theorem belongs_perform {o : Op} (ho : o.sparesStreams) (ch : Choice) (w : World) (h : Belongs t w.db) :
    Belongs t (World.perform ch o w).2.db := by
  obtain ⟨row, hrow, hstream⟩ := h
  have hchange := (World.perform_tasks ch o w).row t.id
  generalize (World.perform ch o w).2.db = db' at hchange
  cases hchange with
  | kept hat => exact ⟨row, hat.trans hrow, hstream⟩
  | status _ _ hat =>
    rw [hrow] at hat
    exact ⟨_, hat, hstream⟩
  | assigned _ _ hat =>
    rw [hrow] at hat
    exact ⟨_, hat, hstream⟩
  | removed => exact absurd ho not_false

theorem belongs_run {ok : Op → Choice → Prop} {p : Server α} {a : α} (hp : p.Every Op.sparesStreams)
    (hrun : Prog.Runs World.perform ok p w a w') (h : Belongs t w.db) : Belongs t w'.db :=
  hrun.invariant (I := fun x => Belongs t x.db) hp (fun _ ch x ho hx => belongs_perform ho ch x hx) h

/-- A poll counts nothing, and leaves what is taken. -/
theorem poll_leaves {agentID : Str} {ok : Op → Choice → Prop} {answer : Option (List AgentTask)}
    (hrun : Prog.Runs World.perform ok (AgentHandler.getTasks agentID) w answer w') :
    w'.metrics = w.metrics ∧ ∀ id, Taken id w.db → Taken id w'.db := by
  have hevery : (AgentHandler.getTasks agentID).Every fun o => o.runsOnly ∧ ∀ m, o.records m = m :=
    StreamService.every_getTasks ⟨trivial, fun _ => rfl⟩ (fun _ => ⟨trivial, fun _ => rfl⟩)
      fun _ _ => ⟨rfl, fun _ => rfl⟩
  apply hrun.invariant (I := fun x => x.metrics = w.metrics ∧ ∀ id, Taken id w.db → Taken id x.db) hevery
  · intro o ch x ho hx
    constructor
    · rw [World.perform_metrics, ho.2, hx.1]
    · intro id hid
      exact taken_runsOnly ho.1 ch x (hx.2 id hid)
  · exact ⟨rfl, fun _ h => h⟩

/-- A report that nothing stands in the way of: the row has its status, and a failure is
counted for the stream the row names. -/
theorem wp_updateTask_counted {status errMsg : Str} (hu : uuidIn t.id = some t.id)
    (hst : varchar 20 status = some status) (h : Belongs t w.db) :
    (AgentHandler.updateTask t.id status errMsg).wp World.perform noFaults (fun _ w' =>
      (∃ now, w.db.TaskUpdated w'.db t.id (AgentTask.withStatus status errMsg now)) ∧
        w'.metrics = if status = taskStatusFailed then w.metrics.inc .ffmpegRestartTotal t.streamID
          else w.metrics) w := by
  intro ch hch
  have hupd := World.perform_updateTaskStatus (w := w) hch hu hst errMsg
  have hmetrics := World.perform_metrics ch (.updateTaskStatus t.id status errMsg) w
  obtain ⟨row, hrow, hstream⟩ := belongs_perform (o := .updateTaskStatus t.id status errMsg) trivial ch w h
  cases hr : (World.perform ch (.updateTaskStatus t.id status errMsg) w).1 with
  | some e =>
    rcases World.perform_updateTaskStatus_some hch hr with hbad | hbad
    · rw [hu] at hbad
      cases hbad
    · rw [hst] at hbad
      cases hbad
  | none =>
    generalize (World.perform ch (.updateTaskStatus t.id status errMsg) w).2 = w₁ at hupd hmetrics hrow
    by_cases hfailed : status = taskStatusFailed
    · simp only [hfailed, if_true]
      intro ch₂ hch₂
      have hread : (World.perform ch₂ (.getTaskByID t.id) w₁).1 = .ok row := by
        have hf : ch₂.fault = false := hch₂
        simp [World.perform, World.answer, World.read, DB.getTaskByID, hf, hu, hrow]
      have hstill : Still w₁ (World.perform ch₂ (.getTaskByID t.id) w₁).2 := perform_still rfl ch₂ w₁
      rw [hread]
      generalize (World.perform ch₂ (.getTaskByID t.id) w₁).2 = w₂ at hstill
      intro ch₃ _
      have hdb := (perform_faded (o := .inc .ffmpegRestartTotal row.streamID) rfl ch₃ w₂).db
      constructor
      · refine ⟨ch.now, ?_⟩
        rw [hfailed] at hupd
        show w.db.TaskUpdated (World.perform ch₃ (.inc .ffmpegRestartTotal row.streamID) w₂).2.db _ _
        rw [hdb, hstill.db]
        exact hupd
      · show (World.perform ch₃ (.inc .ffmpegRestartTotal row.streamID) w₂).2.metrics = _
        rw [World.perform_metrics, hstill.metrics, hmetrics, hstream]
        rfl
    · simp only [hfailed, if_false]
      exact ⟨⟨ch.now, hupd⟩, hmetrics⟩

/-- An update that ends or claims a task takes it, and leaves what is taken. -/
theorem taken_updated {db db' : DB} {id u : Str} {f : AgentTask → AgentTask} (hupd : db.TaskUpdated db' u f)
    (hf : ∀ t, (f t).status ≠ taskStatusPending) (h : id ≠ u → Taken id db) : Taken id db' := by
  intro row hrow
  rw [hupd.taskAt] at hrow
  split at hrow
  · obtain ⟨old, _, rfl⟩ := Option.map_eq_some_iff.mp hrow
    exact hf old
  · rename_i hne
    exact h hne row hrow

end

/-! ### What the loop reports -/

namespace Agent

theorem report_status {e : Execution} (h : e.task.action = actionStartPush) :
    e.report.status = if e.host.deviceExists then taskStatusCompleted else taskStatusFailed := by
  have haction : substituted e.task.action = actionStartPush := by
    rw [h]
    decide
  unfold Execution.report execute doStartPush
  dsimp only
  rw [if_pos haction, if_pos (orTrue_eq _)]
  cases e.host.deviceExists with
  | false => rfl
  | true => rfl

/-- The exit status is lost: the report is right exactly when there was none to lose. -/
theorem report_right_iff {e : Execution} (h : e.task.action = actionStartPush) :
    e.report.status = (if e.succeeded then taskStatusCompleted else taskStatusFailed) ↔
      (e.host.deviceExists = true → e.host.ffmpegExit = 0) := by
  rw [report_status h]
  unfold Execution.succeeded
  cases e.host.deviceExists with
  | false => simp
  | true =>
    by_cases hexit : e.host.ffmpegExit = 0
    · simp [hexit]
    · have hne : taskStatusCompleted ≠ taskStatusFailed := by decide
      simp [hexit, hne]

/-- What holds of a run: the counter is what the reports say, and no task comes twice. -/
structure Ledger (w₀ : World) (log : List Execution) (phase : Phase) (w : World) : Prop where
  action : ∀ e ∈ log, e.task.action = actionStartPush
  counted : ∀ stream, w.metrics.counter .ffmpegRestartTotal stream =
    w₀.metrics.counter .ffmpegRestartTotal stream + log.countP (Execution.failedFor stream)
  once : log.Pairwise fun e e' => e.task.id ≠ e'.task.id
  closed : ∀ e ∈ log, Belongs e.task w.db ∧ Taken e.task.id w.db
  held : ∀ t, phase = .executing t → uuidIn t.id = some t.id ∧ Belongs t w.db ∧ ∀ e ∈ log, e.task.id ≠ t.id

section
variable {agentID : Str} {w₀ w w' : World} {log : List Execution} {phase : Phase}

theorem Ledger.added (h : Ledger w₀ log phase w)
    (hrows : ∀ id row, w.db.taskAt id = some row → w'.db.taskAt id = some row)
    (hmetrics : w'.metrics = w.metrics) : Ledger w₀ log phase w' := by
  have hbelongs (t : AgentTask) (ht : Belongs t w.db) : Belongs t w'.db := by
    obtain ⟨row, hrow, hstream⟩ := ht
    exact ⟨row, hrows _ _ hrow, hstream⟩
  constructor
  · exact h.action
  · rw [hmetrics]
    exact h.counted
  · exact h.once
  · intro e he
    obtain ⟨hb, htaken⟩ := h.closed e he
    refine ⟨hbelongs _ hb, ?_⟩
    obtain ⟨old, hold, _⟩ := hb
    intro row hrow
    rw [hrows _ _ hold] at hrow
    cases hrow
    exact htaken old hold
  · intro t ht
    obtain ⟨hu, hb, hfresh⟩ := h.held t ht
    exact ⟨hu, hbelongs t hb, hfresh⟩

theorem Ledger.poll (h : Ledger w₀ log .polling w) {answer : Option (List AgentTask)}
    (hrun : Prog.Runs World.perform (fun _ _ => True) (Agent.poll agentID) w answer w') :
    Ledger w₀ log (parse (answer.getD [])) w' := by
  unfold Agent.poll at hrun
  obtain ⟨hmetrics, htaken⟩ := poll_leaves hrun
  have hbelongs {t : AgentTask} (hb : Belongs t w.db) : Belongs t w'.db :=
    belongs_run (StreamService.every_getTasks trivial (fun _ => trivial) fun _ _ => trivial) hrun hb
  constructor
  · exact h.action
  · rw [hmetrics]
    exact h.counted
  · exact h.once
  · intro e he
    obtain ⟨hb, ht⟩ := h.closed e he
    exact ⟨hbelongs hb, htaken _ ht⟩
  · intro t ht
    -- the first task of the answer was pending, so it is none that was executed
    cases answer with
    | none => cases ht
    | some tasks =>
      cases tasks with
      | nil => cases ht
      | cons t' rest =>
        cases ht
        obtain ⟨hrow, hpending⟩ := hrun.wp (wp_getTasks_pending _) _ rfl t List.mem_cons_self
        refine ⟨w.db.tasks.good t (DB.taskAt_eq_some.mp hrow).1, hbelongs ⟨t, hrow, rfl⟩, ?_⟩
        intro e he heq
        rw [← heq] at hrow
        exact (h.closed e he).2 t hrow hpending

theorem Ledger.report {e : Execution} (h : Ledger w₀ log (.executing e.task) w)
    (haction : e.task.action = actionStartPush) {answer : Bool}
    (hrun : Prog.Runs World.perform noFaults
      (AgentHandler.updateTask e.report.taskID e.report.status e.report.errMsg) w answer w') :
    Ledger w₀ (log ++ [e]) .polling w' := by
  obtain ⟨hfits, _, hdone⟩ := execute_status e.host e.task
  obtain ⟨hu, hb, hfresh⟩ := h.held e.task rfl
  rw [show e.report.taskID = e.task.id from (execute_spec e.host e.task).1] at hrun
  obtain ⟨⟨now, hupd⟩, hmetrics⟩ := hrun.wp (wp_updateTask_counted hu hfits hb)
  have hbelongs {t : AgentTask} (hb : Belongs t w.db) : Belongs t w'.db :=
    belongs_run (StreamService.every_updateTask trivial trivial fun _ => trivial) hrun hb
  constructor
  · intro e' he'
    rcases List.mem_append.mp he' with he' | he'
    · exact h.action e' he'
    · rw [List.mem_singleton.mp he']
      exact haction
  · intro stream
    rw [hmetrics, List.countP_append, List.countP_singleton, ← Nat.add_assoc, ← h.counted stream]
    unfold Execution.failedFor
    by_cases hfailed : e.report.status = taskStatusFailed
    · by_cases hstream : e.task.streamID = stream
      · simp [hfailed, hstream, Metrics.inc]
      · simp [hfailed, hstream, Ne.symm hstream, Metrics.inc]
    · simp [hfailed]
  · apply List.pairwise_append.mpr
    refine ⟨h.once, List.pairwise_singleton _ _, ?_⟩
    intro e' he' e'' he''
    rw [List.mem_singleton.mp he'']
    exact hfresh e' he'
  · intro e' he'
    rcases List.mem_append.mp he' with he' | he'
    · obtain ⟨hb', ht'⟩ := h.closed e' he'
      exact ⟨hbelongs hb', taken_updated hupd (fun _ => hdone) fun _ => ht'⟩
    · rw [List.mem_singleton.mp he']
      exact ⟨hbelongs hb, taken_updated hupd (fun _ => hdone) fun hne => absurd rfl hne⟩
  · intro t ht
    cases ht

theorem LoopRun.ledger {shouldBindJSON : Str → Except String TaskUpdateReq}
    (hdecodes : Decodes shouldBindJSON) (h : LoopRun shouldBindJSON agentID w₀ log phase w)
    (hdev : ∀ e ∈ log, ∀ b ∈ e.host.videoDev, IsVerbatim b) : Ledger w₀ log phase w := by
  induction h with
  | start => exact ⟨nofun, fun _ => rfl, .nil, nofun, nofun⟩
  | added _ hrows hmetrics ih => exact (ih hdev).added hrows hmetrics
  | poll _ hrun ih => exact (ih hdev).poll hrun
  | @report log e _ _ _ _ haction hrun ih =>
    have hverbatim : ∀ b ∈ e.task.action, IsVerbatim b := by
      rw [haction]
      exact List.all_iff_forall_prop.mp (by decide)
    obtain ⟨_, hrun⟩ := execute_runs hdecodes (hdev e (by simp)) hverbatim hrun
    exact (ih fun e' he' => hdev e' (List.mem_append_left _ he')).report haction hrun

end

end Agent

/-- **Failures of ffmpeg are reported and counted** exactly if there is none: over any run of
the loop with `start_push` tasks on hosts whose `VIDEO_DEV` needs no escape, each task is executed
once, and the reports say completed for the ffmpegs that were launched and exited 0 and failed for
all others, with as many restarts counted for each stream, exactly when every ffmpeg that was
launched exited 0. -/
theorem ffmpeg_failures_counted_iff {shouldBindJSON : Str → Except String TaskUpdateReq} {agentID : Str}
    {w₀ w : World} {log : List Agent.Execution} {phase : Agent.Phase}
    (hdecodes : Agent.Decodes shouldBindJSON) (h : Agent.LoopRun shouldBindJSON agentID w₀ log phase w)
    (hdev : ∀ e ∈ log, ∀ b ∈ e.host.videoDev, Agent.IsVerbatim b) :
    log.Pairwise (fun e e' => e.task.id ≠ e'.task.id) ∧
    (((∀ e ∈ log, e.report.status = if e.succeeded then taskStatusCompleted else taskStatusFailed) ∧
        ∀ stream, w.metrics.counter .ffmpegRestartTotal stream =
          w₀.metrics.counter .ffmpegRestartTotal stream +
            (log.filter fun e => e.task.streamID = stream && !e.succeeded).length) ↔
      ∀ e ∈ log, e.host.deviceExists = true → e.host.ffmpegExit = 0) := by
  have hledger := h.ledger hdecodes hdev
  refine ⟨hledger.once, ?_, ?_⟩
  · intro hright e he
    exact (Agent.report_right_iff (hledger.action e he)).mp (hright.1 e he)
  · intro hexits
    have hright : ∀ e ∈ log,
        e.report.status = if e.succeeded then taskStatusCompleted else taskStatusFailed :=
      fun e he => (Agent.report_right_iff (hledger.action e he)).mpr (hexits e he)
    refine ⟨hright, ?_⟩
    intro stream
    rw [hledger.counted stream, List.countP_eq_length_filter]
    congr 2
    apply List.filter_congr
    intro e he
    unfold Agent.Execution.failedFor
    rw [hright e he]
    cases e.succeeded with
    | false => simp
    | true =>
      have hne : taskStatusCompleted ≠ taskStatusFailed := by decide
      simp [hne]

/-- One task, polled, executed on the host and reported. -/
def sampleLoopEnd (host : Agent.Host) : World :=
  (sampleTasks.serve (Agent.poll (lit "a"))).serve
    (Agent.report Agent.sampleBind (Agent.execute host sampleTask))

theorem sampleLoop (host : Agent.Host) :
    Agent.LoopRun Agent.sampleBind (lit "a") sampleTasks [⟨sampleTask, host⟩] .polling
      (sampleLoopEnd host) := by
  have hanswer : ((Agent.poll (lit "a")).exec World.perform (fun _ => {}) sampleTasks).1 =
      some [sampleTask] := by decide
  have hpoll : Prog.Runs World.perform (fun _ _ => True) (Agent.poll (lit "a")) sampleTasks
      (some [sampleTask]) (sampleTasks.serve (Agent.poll (lit "a"))) :=
    hanswer ▸ Prog.exec_runs _ _ _ fun _ _ => trivial
  have hpolled : Agent.LoopRun Agent.sampleBind (lit "a") sampleTasks [] (.executing sampleTask)
      (sampleTasks.serve (Agent.poll (lit "a"))) := .poll .start hpoll
  exact Agent.LoopRun.report (e := ⟨sampleTask, host⟩) hpolled rfl
    (Prog.exec_runs _ _ _ fun _ _ => rfl)

/-- A host without a camera: the task is reported as failed, and one restart is counted. -/
theorem ffmpeg_failures_counted_sample :
    let e : Agent.Execution := ⟨sampleTask, { sampleHost with deviceExists := false }⟩
    e.report.status = taskStatusFailed ∧
      (sampleLoopEnd e.host).metrics.counter .ffmpegRestartTotal sampleTask.streamID =
        sampleTasks.metrics.counter .ffmpegRestartTotal sampleTask.streamID + 1 := by
  intro e
  have hexits : ∀ e' ∈ [e], e'.host.deviceExists = true → e'.host.ffmpegExit = 0 := by
    intro e' he' hdevice
    rw [List.mem_singleton.mp he'] at hdevice
    cases hdevice
  have hdev : ∀ e' ∈ [e], ∀ b ∈ e'.host.videoDev, Agent.IsVerbatim b := by
    intro e' he'
    rw [List.mem_singleton.mp he']
    exact List.all_iff_forall_prop.mp (by decide)
  obtain ⟨hright, hcount⟩ :=
    (ffmpeg_failures_counted_iff Agent.sampleBind_decodes (sampleLoop e.host) hdev).2.mpr hexits
  exact ⟨hright e (List.mem_singleton_self e), hcount sampleTask.streamID⟩

/-- ffmpeg is launched and exits 1: the task is reported as completed, and no restart is
counted. On a host without a camera whose `VIDEO_DEV` has a quote in it the report is refused: the
task is left running, and no restart is counted either. -/
theorem ffmpeg_failure_lost :
    (let e : Agent.Execution := ⟨sampleTask, { sampleHost with ffmpegExit := 1 }⟩
    Agent.LoopRun Agent.sampleBind (lit "a") sampleTasks [e] .polling (sampleLoopEnd e.host) ∧
      e.succeeded = false ∧ e.report.status = taskStatusCompleted ∧
      (sampleLoopEnd e.host).metrics.counter .ffmpegRestartTotal sampleTask.streamID =
        sampleTasks.metrics.counter .ffmpegRestartTotal sampleTask.streamID) ∧
    let e : Agent.Execution := ⟨sampleTask, ⟨lit "/dev/\"cam\"", false, 0⟩⟩
    Agent.LoopRun Agent.sampleBind (lit "a") sampleTasks [e] .polling (sampleLoopEnd e.host) ∧
      e.succeeded = false ∧
      ((sampleLoopEnd e.host).db.taskAt sampleTask.id).map AgentTask.status = some taskStatusRunning ∧
      (sampleLoopEnd e.host).metrics.counter .ffmpegRestartTotal sampleTask.streamID =
        sampleTasks.metrics.counter .ffmpegRestartTotal sampleTask.streamID := by
  constructor
  · intro e
    exact ⟨sampleLoop e.host, by decide, by decide, by decide⟩
  · intro e
    exact ⟨sampleLoop e.host, by decide, by decide, by decide⟩

end LiveServer
