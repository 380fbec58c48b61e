import LiveServer.Handler.Public
import LiveServer.Text.Query
import Mathlib.Data.List.DropRight

/-! The agent, as `agent.sh` runs it on a camera host.

The main loop polls the server under its `AGENT_ID`, takes the first task of the
answer, executes it to its end and reports a result; `do_start_push` waits for
ffmpeg, so nothing is running when the loop comes back to the poll. What the host
does meanwhile is its `Host`; logging and the sleeps are left out.

The script pastes its texts into the query of a poll and into the JSON of a report
and escapes neither, so what the server gets is what it reads out of them: another
agent's id if there is an `&` in `AGENT_ID`, and no report at all if there is a
quote in its message. -/
namespace LiveServer.Agent
open Text Concurrent

/-- `AGENT_ID="${AGENT_ID:-pi-cam-01}"`: the default also stands for an empty value. -/
def agentID (env : Str) : Str := if env = [] then lit "pi-cam-01" else env

theorem agentID_ne_nil (env : Str) : agentID env ≠ [] := by
  unfold agentID
  split
  · decide
  · assumption

/-- What a task meets on the host: `VIDEO_DEV`, whether the device is there and how
ffmpeg exits. -/
structure Host where
  videoDev : Str
  deviceExists : Bool
  ffmpegExit : Nat

/-- The arguments of `report`. -/
structure Report where
  taskID : Str
  status : Str
  errMsg : Str
  deriving DecidableEq

/-- `$?` after `command || true`. -/
def orTrue (exit : Nat) : Nat := if exit = 0 then exit else 0

def doStartPush (host : Host) (taskID : Str) : Report :=
  if !host.deviceExists then
    ⟨taskID, taskStatusFailed, lit "video device " ++ host.videoDev ++ lit " not found"⟩
  else
    let exitCode := orTrue host.ffmpegExit
    if exitCode = 0 then ⟨taskID, taskStatusCompleted, []⟩
    else ⟨taskID, taskStatusFailed, lit "ffmpeg exited with code " ++ formatInt exitCode⟩

/-- Both branches report the same. -/
def doStopPush (taskID : Str) : Report := ⟨taskID, taskStatusCompleted, []⟩

/-- What `$(…)` leaves of an output: not the newlines at its end. -/
def substituted (output : Str) : Str := output.rdropWhile (· = 10)

/-- The `case` on the action of a task. -/
def execute (host : Host) (task : AgentTask) : Report :=
  let action := substituted task.action
  if action = actionStartPush then doStartPush host task.id
  else if action = actionStopPush then doStopPush task.id
  else ⟨task.id, taskStatusFailed, lit "unknown action: " ++ action⟩

/-- Where an agent is in its loop. -/
inductive Phase where
  /-- About to poll. -/
  | polling
  /-- It has a task and has not reported it. -/
  | executing (task : AgentTask)

/-- `tasks[0]`, or back to sleep. -/
def parse : List AgentTask → Phase
  | [] => .polling
  | task :: _ => .executing task

/-! ### What is sent -/

/-- The query of a poll. -/
def pollQuery (agentID : Str) : Str := lit "agent_id=" ++ agentID

/-- A poll: `GetTasks` for the agent its query names. -/
def poll (agentID : Str) : Server (Option (List AgentTask)) :=
  AgentHandler.getTasks (getValue (parseQuery (pollQuery agentID)).1 (lit "agent_id"))

/-- The body of a report. -/
def reportBody (status errMsg : Str) : Str :=
  lit "\x7b\"status\":\"" ++ status ++ lit "\",\"error_msg\":\"" ++ errMsg ++ lit "\"\x7d"

/-- `report`, answered by `UpdateTask`. -/
def report (shouldBindJSON : Str → Except String TaskUpdateReq) (r : Report) : Server Answer :=
  AgentHandler.serveUpdateTask shouldBindJSON r.taskID (reportBody r.status r.errMsg)

/-- An id of unreserved characters is the one the server reads. -/
theorem poll_unreserved {agentID : Str} (h : ∀ b ∈ agentID, IsUnreserved b) :
    poll agentID = AgentHandler.getTasks agentID := by
  have hname : ∀ b ∈ lit "agent_id", IsPlain b := List.all_iff_forall_prop.mp (by decide)
  have hquery : pollQuery agentID = lit "agent_id" ++ 61 :: agentID := by
    show lit "agent_id=" ++ agentID = _
    rw [show lit "agent_id=" = lit "agent_id" ++ [61] by decide, List.append_assoc]
    rfl
  unfold poll
  rw [hquery, parseQuery_single hname fun b hb => (h b hb).isPlain, getValue_cons_self]

/-- A printable character that is written as itself in a JSON string. -/
def IsVerbatim (b : UInt8) : Prop := 32 ≤ b ∧ b ≤ 126 ∧ b ≠ 34 ∧ b ≠ 92

instance (b : UInt8) : Decidable (IsVerbatim b) := inferInstanceAs (Decidable (_ ∧ _))

/-- The decoder reads what a report says where nothing in it needs an escape. -/
def Decodes (shouldBindJSON : Str → Except String TaskUpdateReq) : Prop :=
  ∀ status errMsg, status ≠ [] → (∀ b ∈ status, IsVerbatim b) → (∀ b ∈ errMsg, IsVerbatim b) →
    shouldBindJSON (reportBody status errMsg) = .ok { status := status, errorMsg := errMsg }

/-- A decoder of such reports and no others. -/
def sampleBind (body : Str) : Except String TaskUpdateReq :=
  let status := cut 34 (body.drop (lit "\x7b\"status\":\"").length)
  let errMsg := cut 34 (status.2.drop (lit ",\"error_msg\":\"").length)
  if reportBody status.1 errMsg.1 = body ∧ status.1 ≠ [] ∧ (status.1 ++ errMsg.1).all (IsVerbatim ·) then
    .ok { status := status.1, errorMsg := errMsg.1 }
  else .error "invalid character"

theorem sampleBind_decodes : Decodes sampleBind := by
  intro status errMsg hne hst herr
  have hquote {s : Str} (h : ∀ b ∈ s, IsVerbatim b) : 34 ∉ s := fun hmem => (h 34 hmem).2.2.1 rfl
  have hbody : reportBody status errMsg = lit "\x7b\"status\":\"" ++
      (status ++ 34 :: (lit ",\"error_msg\":\"" ++ (errMsg ++ 34 :: lit "\x7d"))) := by
    unfold reportBody
    rw [show lit "\",\"error_msg\":\"" = 34 :: lit ",\"error_msg\":\"" by decide,
      show lit "\"\x7d" = 34 :: lit "\x7d" by decide]
    simp only [List.append_assoc, List.cons_append]
  have hall : ∀ b ∈ status ++ errMsg, IsVerbatim b :=
    fun b hb => (List.mem_append.mp hb).elim (hst b) (herr b)
  unfold sampleBind
  simp only [hbody, List.drop_left, cut_append (hquote hst), cut_append (hquote herr)]
  rw [if_pos ⟨trivial, hne, List.all_iff_forall_prop.mpr hall⟩]

/-- So `UpdateTask` gets what such a report says. -/
theorem report_runs {shouldBindJSON : Str → Except String TaskUpdateReq} (hdecodes : Decodes shouldBindJSON)
    {r : Report} (hne : r.status ≠ []) (hst : ∀ b ∈ r.status, IsVerbatim b)
    (herr : ∀ b ∈ r.errMsg, IsVerbatim b) {ok : Op → Choice → Prop} {w w' : World} {answer : Answer}
    (hrun : Prog.Runs World.perform ok (report shouldBindJSON r) w answer w') :
    ∃ b, Prog.Runs World.perform ok (AgentHandler.updateTask r.taskID r.status r.errMsg) w b w' := by
  have heq : report shouldBindJSON r = (fun b => if b then Answer.success .null
      else .error 500 codeInternal "failed to update task") <$>
        AgentHandler.updateTask r.taskID r.status r.errMsg := by
    unfold report AgentHandler.serveUpdateTask
    rw [hdecodes _ _ hne hst herr]
    show Prog.bind _ _ = Prog.bind _ _
    congr 1
    funext b
    cases b <;> rfl
  rw [heq] at hrun
  obtain ⟨b, _, hb⟩ := Prog.Runs.of_map hrun
  exact ⟨b, hb⟩

/-! ### What is reported -/

/-- The exit status that is looked at is always 0. -/
theorem orTrue_eq (exit : Nat) : orTrue exit = 0 := by
  unfold orTrue
  split
  · assumption
  · rfl

/-- Whatever happens on the host, a task is reported as completed or failed. -/
theorem execute_spec (host : Host) (task : AgentTask) :
    (execute host task).taskID = task.id ∧
      ((execute host task).status = taskStatusCompleted ∨ (execute host task).status = taskStatusFailed) := by
  unfold execute
  dsimp only
  split
  · unfold doStartPush
    dsimp only
    split
    · exact ⟨rfl, .inr rfl⟩
    · split
      · exact ⟨rfl, .inl rfl⟩
      · exact ⟨rfl, .inr rfl⟩
  · split
    · exact ⟨rfl, .inl rfl⟩
    · exact ⟨rfl, .inr rfl⟩

/-- The message of a report needs no escape if `VIDEO_DEV` and the action do not. -/
theorem execute_verbatim {host : Host} {task : AgentTask} (hdev : ∀ b ∈ host.videoDev, IsVerbatim b)
    (haction : ∀ b ∈ task.action, IsVerbatim b) : ∀ b ∈ (execute host task).errMsg, IsVerbatim b := by
  have happend {s t : Str} (hs : ∀ b ∈ s, IsVerbatim b) (ht : ∀ b ∈ t, IsVerbatim b) :
      ∀ b ∈ s ++ t, IsVerbatim b := fun b hb => (List.mem_append.mp hb).elim (hs b) (ht b)
  unfold execute
  dsimp only
  split
  · unfold doStartPush
    dsimp only
    rw [if_pos (orTrue_eq _)]
    split
    · exact happend (happend (List.all_iff_forall_prop.mp (by decide)) hdev) (List.all_iff_forall_prop.mp (by decide))
    · exact fun _ hb => absurd hb List.not_mem_nil
  · split
    · exact fun _ hb => absurd hb List.not_mem_nil
    · apply happend (List.all_iff_forall_prop.mp (by decide))
      intro b hb
      exact haction b ((List.rdropWhile_prefix _ _).subset hb)

/-- So such a report is delivered. -/
theorem execute_runs {shouldBindJSON : Str → Except String TaskUpdateReq} (hdecodes : Decodes shouldBindJSON)
    {host : Host} {task : AgentTask} (hdev : ∀ b ∈ host.videoDev, IsVerbatim b)
    (haction : ∀ b ∈ task.action, IsVerbatim b) {ok : Op → Choice → Prop} {w w' : World} {answer : Answer}
    (hrun : Prog.Runs World.perform ok (report shouldBindJSON (execute host task)) w answer w') :
    ∃ b, Prog.Runs World.perform ok (AgentHandler.updateTask (execute host task).taskID
      (execute host task).status (execute host task).errMsg) w b w' := by
  have hst : (execute host task).status ≠ [] ∧ ∀ b ∈ (execute host task).status, IsVerbatim b := by
    rcases (execute_spec host task).2 with h | h
    · rw [h]
      exact ⟨by decide, List.all_iff_forall_prop.mp (by decide)⟩
    · rw [h]
      exact ⟨by decide, List.all_iff_forall_prop.mp (by decide)⟩
  exact report_runs hdecodes hst.1 hst.2 (execute_verbatim hdev haction) hrun

end LiveServer.Agent
