import LiveServer.Agent
import LiveServer.Alone
import LiveServer.Tasks.Claims

/-! Server and agents together.

A poll marks every task it returns as running for its agent; the agent executes the
first one and reports it. With more than one task in an answer the others stay
running for an agent that knows nothing of them. When no poll finds more than one
task, every running task is the one its agent is executing, so none is left when the
agent polls again, and there are no more of them than agents. -/
namespace LiveServer
open Concurrent Relational

/-- The server and where each agent is in its loop. -/
structure Fleet where
  world : World
  phase : Str → Agent.Phase

namespace Fleet

def start (w : World) : Fleet := ⟨w, fun _ => .polling⟩

/-- One agent has gone on, the server is left in `w`. -/
def move (f : Fleet) (w : World) (agentID : Str) (phase : Agent.Phase) : Fleet :=
  ⟨w, fun a => if a = agentID then phase else f.phase a⟩

end Fleet

/-- The agents and the video devices of their hosts, and how the server decodes a
report. -/
structure Deployment where
  agents : List Str
  devices : List Str
  shouldBindJSON : Str → Except String TaskUpdateReq

/-- Polls and reports of agents, one after another; the database does not fail. -/
inductive FleetRun (site : Deployment) (allowed : Fleet → Str → Prop) (w₀ : World) : Fleet → Prop
  | start : FleetRun site allowed w₀ (.start w₀)
  | poll {f : Fleet} {agentID : Str} {tasks : List AgentTask} {w : World} :
      FleetRun site allowed w₀ f → agentID ∈ site.agents → f.phase agentID = .polling →
      allowed f agentID →
      Prog.Runs World.perform noFaults (Agent.poll agentID) f.world (some tasks) w →
      FleetRun site allowed w₀ (f.move w agentID (Agent.parse tasks))
  | report {f : Fleet} {agentID : Str} {task : AgentTask} {host : Agent.Host} {answer : Answer} {w : World} :
      FleetRun site allowed w₀ f → agentID ∈ site.agents → f.phase agentID = .executing task →
      host.videoDev ∈ site.devices →
      Prog.Runs World.perform noFaults
        (Agent.report site.shouldBindJSON (Agent.execute host task)) f.world answer w →
      FleetRun site allowed w₀ (f.move w agentID .polling)

/-- No more than one task is pending for the agent or for nobody. -/
def atMostOne (f : Fleet) (agentID : Str) : Prop :=
  ∀ x ∈ f.world.db.tasks.rows, ∀ y ∈ f.world.db.tasks.rows,
    x.status = taskStatusPending → DB.claimable agentID x = true →
    y.status = taskStatusPending → DB.claimable agentID y = true → x = y

/-- What the script pastes into its requests comes out of them as it was: the ids of
the agents, the devices, and the actions of the tasks. -/
structure Deployment.Verbatim (site : Deployment) (w₀ : World) : Prop where
  decodes : Agent.Decodes site.shouldBindJSON
  agents : ∀ a ∈ site.agents, ∀ b ∈ a, Text.IsUnreserved b
  devices : ∀ d ∈ site.devices, ∀ b ∈ d, Agent.IsVerbatim b
  actions : ∀ t ∈ w₀.db.tasks.rows, ∀ b ∈ t.action, Agent.IsVerbatim b

/-- A task as it can be taken from the table. -/
structure Taskable (x : AgentTask) : Prop where
  stored : uuidIn x.id = some x.id
  action : ∀ b ∈ x.action, Agent.IsVerbatim b

/-- Every running task is the one its agent is executing. -/
structure Manned (agents : List Str) (f : Fleet) : Prop where
  owner : ∀ id t, f.world.db.taskAt id = some t → t.status = taskStatusRunning →
    ∃ agentID ∈ agents, t.agentID = some agentID ∧ ∃ x, f.phase agentID = .executing x ∧ x.id = id
  taken : ∀ agentID x, f.phase agentID = .executing x → Taskable x
  rows : ∀ t ∈ f.world.db.tasks.rows, ∀ b ∈ t.action, Agent.IsVerbatim b

section
variable {agents : List Str} {f : Fleet} {w w' : World} {agentID : Str}

/-! ### The requests alone -/

theorem length_getPendingTasks (hid : agentID ≠ []) (hone : atMostOne f agentID) :
    (f.world.db.getPendingTasks agentID).length ≤ 1 := by
  have hapart := f.world.db.apart_getPendingTasks agentID
  have hmem (x : AgentTask) (hx : x ∈ f.world.db.getPendingTasks agentID) :
      x ∈ f.world.db.tasks.rows ∧ x.status = taskStatusPending ∧ DB.claimable agentID x = true := by
    obtain ⟨hrow, hst, hfor⟩ := DB.mem_getPendingTasks.mp hx
    exact ⟨hrow, hst, hfor.resolve_left hid⟩
  cases htasks : f.world.db.getPendingTasks agentID with
  | nil => exact Nat.zero_le 1
  | cons x rest =>
    cases rest with
    | nil => exact Nat.le_refl 1
    | cons y rest =>
      rw [htasks] at hapart hmem
      obtain ⟨hx, hxst, hxfor⟩ := hmem x (by simp)
      obtain ⟨hy, hyst, hyfor⟩ := hmem y (by simp)
      have heq := hone x hx y hy hxst hxfor hyst hyfor
      subst heq
      exact absurd rfl ((List.pairwise_cons.mp hapart).1 x List.mem_cons_self)

/-- A poll that finds no more than one task returns it, and marks it. -/
inductive PollOutcome (agentID : Str) (w : World) : Option (List AgentTask) → World → Prop
  | nothing {w' : World} : w'.db = w.db → PollOutcome agentID w (some []) w'
  | task {x : AgentTask} {now : Time} {w' : World} : x ∈ w.db.tasks.rows →
      w.db.TaskUpdated w'.db x.id (AgentTask.assigned agentID now) → PollOutcome agentID w (some [x]) w'

theorem alone_getTasks (hid : agentID ≠ []) (hfits : varchar 64 agentID = some agentID)
    (hone : (w.db.getPendingTasks agentID).length ≤ 1) :
    (AgentHandler.getTasks agentID).wp World.perform noFaults (PollOutcome agentID w) w := by
  refine wp_getPendingTasks (fun _ _ hup _ => absurd up_noFaults hup) fun w₁ hquiet => ?_
  dsimp only
  cases htasks : w.db.getPendingTasks agentID with
  | nil => exact .nothing hquiet.db
  | cons x rest =>
    have hrest : rest = [] := by
      rw [htasks, List.length_cons] at hone
      exact List.length_eq_zero_iff.mp (Nat.le_zero.mp (Nat.le_of_succ_le_succ hone))
    subst hrest
    have hx : x ∈ w.db.tasks.rows :=
      (DB.mem_getPendingTasks.mp (htasks ▸ List.mem_singleton_self x)).1
    unfold AgentHandler.claimTasks
    rw [if_pos hid]
    intro ch hch
    have hupd := World.perform_assignTask (w := w₁) hch (w.db.tasks.good x hx) hfits
    rw [hquiet.db] at hupd
    exact .task hx hupd

/-! ### What each step keeps -/

theorem Fleet.phase_move_self (f : Fleet) (w : World) (agentID : Str) (phase : Agent.Phase) :
    (f.move w agentID phase).phase agentID = phase := if_pos rfl

theorem Fleet.phase_move_ne (f : Fleet) (w : World) {agentID a : Str} (phase : Agent.Phase)
    (h : a ≠ agentID) : (f.move w agentID phase).phase a = f.phase a := if_neg h

/-- A running task keeps its agent, unless it is the one that agent is done with. -/
theorem Manned.owner_move (h : Manned agents f) {phase : Agent.Phase} {id : Str} {t : AgentTask}
    (ht : f.world.db.taskAt id = some t) (hrun : t.status = taskStatusRunning)
    (hne : ∀ x, f.phase agentID = .executing x → x.id ≠ id) :
    ∃ a ∈ agents, t.agentID = some a ∧ ∃ x, (f.move w agentID phase).phase a = .executing x ∧ x.id = id := by
  obtain ⟨a, ha, hta, x, hx, hid⟩ := h.owner id t ht hrun
  have hother : a ≠ agentID := by
    intro heq
    rw [heq] at hx
    exact hne x hx hid
  exact ⟨a, ha, hta, x, (f.phase_move_ne w phase hother).trans hx, hid⟩

theorem Manned.taken_move (h : Manned agents f) {phase : Agent.Phase}
    (hnew : ∀ x, phase = .executing x → Taskable x) (a : Str) (x : AgentTask)
    (hx : (f.move w agentID phase).phase a = .executing x) : Taskable x := by
  by_cases ha : a = agentID
  · rw [ha, Fleet.phase_move_self] at hx
    exact hnew x hx
  · rw [Fleet.phase_move_ne f w phase ha] at hx
    exact h.taken a x hx

/-- An update leaves the action. -/
theorem Manned.rows_updated (h : Manned agents f) {u : Str} {g : AgentTask → AgentTask}
    (hupd : f.world.db.TaskUpdated w.db u g) (hg : ∀ t, (g t).action = t.action) :
    ∀ t ∈ w.db.tasks.rows, ∀ b ∈ t.action, Agent.IsVerbatim b := by
  intro t ht
  obtain ⟨old, hold, rfl⟩ := (hupd.mem t).mp ht
  have hold := h.rows old hold
  split
  · rw [hg]
    exact hold
  · exact hold

theorem Manned.poll (h : Manned agents f) (hmem : agentID ∈ agents) (hphase : f.phase agentID = .polling)
    {tasks : List AgentTask} (hout : PollOutcome agentID f.world (some tasks) w) :
    Manned agents (f.move w agentID (Agent.parse tasks)) := by
  -- an agent that is polling is executing nothing
  have hidle (id : Str) (x : AgentTask) (hx : f.phase agentID = .executing x) : x.id ≠ id := by
    rw [hphase] at hx
    cases hx
  cases hout with
  | nothing hdb =>
    constructor
    · intro id t ht hrun
      exact h.owner_move (hdb ▸ ht) hrun (hidle id)
    · apply h.taken_move
      intro x hx
      cases hx
    · show ∀ t ∈ w.db.tasks.rows, _
      rw [hdb]
      exact h.rows
  | @task x now _ hrow hupd =>
    constructor
    · intro id t ht hrun
      have ht : w.db.taskAt id = some t := ht
      rw [hupd.taskAt] at ht
      split at ht
      · rename_i hid
        obtain ⟨old, _, rfl⟩ := Option.map_eq_some_iff.mp ht
        exact ⟨agentID, hmem, rfl, x, f.phase_move_self w agentID _, hid.symm⟩
      · exact h.owner_move ht hrun (hidle id)
    · apply h.taken_move
      intro y hy
      cases hy
      exact ⟨f.world.db.tasks.good x hrow, h.rows x hrow⟩
    · exact h.rows_updated hupd fun _ => rfl

theorem Manned.report (h : Manned agents f) {task : AgentTask}
    (hphase : f.phase agentID = .executing task) {st errMsg : Str} {now : Time}
    (hst : st ≠ taskStatusRunning)
    (hupd : f.world.db.TaskUpdated w.db task.id (AgentTask.withStatus st errMsg now)) :
    Manned agents (f.move w agentID .polling) := by
  constructor
  · intro id t ht hrun
    have ht : w.db.taskAt id = some t := ht
    rw [hupd.taskAt] at ht
    split at ht
    · obtain ⟨old, _, rfl⟩ := Option.map_eq_some_iff.mp ht
      exact absurd hrun hst
    · rename_i hid
      apply h.owner_move ht hrun
      intro x hx
      rw [hphase] at hx
      cases hx
      exact Ne.symm hid
  · apply h.taken_move
    intro x hx
    cases hx
  · exact h.rows_updated hupd fun _ => rfl

/-- The status of a report is stored as it is, and says that the task is over. -/
theorem Agent.execute_status (host : Agent.Host) (task : AgentTask) :
    varchar 20 (Agent.execute host task).status = some (Agent.execute host task).status ∧
      (Agent.execute host task).status ≠ taskStatusRunning ∧
      (Agent.execute host task).status ≠ taskStatusPending := by
  rcases (Agent.execute_spec host task).2 with hst | hst
  · rw [hst]
    decide
  · rw [hst]
    decide

/-! ### Whole runs -/

theorem FleetRun.manned {site : Deployment} {w₀ : World} (hverbatim : site.Verbatim w₀)
    (hagents : ∀ a ∈ site.agents, a ≠ [] ∧ varchar 64 a = some a)
    (hw₀ : ∀ id t, w₀.db.taskAt id = some t → t.status ≠ taskStatusRunning)
    (h : FleetRun site atMostOne w₀ f) : Manned site.agents f := by
  induction h with
  | start =>
    exact ⟨fun id t ht hrun => absurd hrun (hw₀ id t ht), fun _ _ hx => (by cases hx), hverbatim.actions⟩
  | poll _ hmem hphase hone hrun ih =>
    obtain ⟨hid, hfits⟩ := hagents _ hmem
    rw [Agent.poll_unreserved (hverbatim.agents _ hmem)] at hrun
    exact ih.poll hmem hphase (hrun.wp (alone_getTasks hid hfits (length_getPendingTasks hid hone)))
  | @report f agentID task host _ _ _ _ hphase hdev hrun ih =>
    obtain ⟨hfits, hne, _⟩ := Agent.execute_status host task
    have htask := ih.taken agentID task hphase
    have hu : uuidIn (Agent.execute host task).taskID = some task.id := by
      rw [(Agent.execute_spec host task).1]
      exact htask.stored
    obtain ⟨_, hrun⟩ := Agent.execute_runs hverbatim.decodes (hverbatim.devices _ hdev) htask.action hrun
    cases hrun.wp (alone_updateTask _ _ _) with
    | failed _ hwhy =>
      have hbad := hwhy up_noFaults
      rw [hu, hfits] at hbad
      rcases hbad with hbad | hbad <;> cases hbad
    | reported hu' hst hupd =>
      cases hu.symm.trans hu'
      cases hfits.symm.trans hst
      exact ih.report hphase hne hupd

/-- The task an agent is executing. -/
def Fleet.executing (f : Fleet) (agentID : Str) : Option Str :=
  match f.phase agentID with
  | .polling => none
  | .executing x => some x.id

/-- Each running task takes an agent. -/
theorem Manned.count (h : Manned agents f) : f.world.db.countRunningFFmpegTasks ≤ agents.length := by
  unfold DB.countRunningFFmpegTasks
  generalize hrows : f.world.db.tasks.select
    (fun t => t.status = taskStatusRunning && t.action = actionStartPush) = rows
  have hnodup : (rows.map AgentTask.id).Nodup := by
    rw [← hrows]
    exact List.Pairwise.map _ (fun _ _ h => h) (f.world.db.tasks.apart.filter _)
  have hsub : rows.map AgentTask.id ⊆ agents.filterMap f.executing := by
    intro id hid
    obtain ⟨t, ht, rfl⟩ := List.mem_map.mp hid
    rw [← hrows] at ht
    obtain ⟨ht, hrun⟩ := List.mem_filter.mp ht
    simp only [Bool.and_eq_true, decide_eq_true_eq] at hrun
    obtain ⟨a, ha, _, x, hx, hxid⟩ := h.owner t.id t (DB.taskAt_eq_some.mpr ⟨ht, rfl⟩) hrun.1
    refine List.mem_filterMap.mpr ⟨a, ha, ?_⟩
    unfold Fleet.executing
    rw [hx, ← hxid]
  calc rows.length = (rows.map AgentTask.id).length := (List.length_map _).symm
    _ ≤ (agents.filterMap f.executing).length := (List.subperm_of_subset hnodup hsub).length_le
    _ ≤ agents.length := List.length_filterMap_le _ _

/-- **No task is lost** when no poll finds more than one, and the server reads what the agents
mean: an agent that is about to poll has no running task, and there are no more running tasks
than agents. -/
theorem no_task_lost {site : Deployment} {envs : List Str} {w₀ : World}
    (henvs : site.agents = envs.map Agent.agentID) (hverbatim : site.Verbatim w₀)
    (hfits : ∀ a ∈ site.agents, varchar 64 a = some a)
    (hw₀ : ∀ id t, w₀.db.taskAt id = some t → t.status ≠ taskStatusRunning)
    (h : FleetRun site atMostOne w₀ f) :
    (∀ a ∈ site.agents, f.phase a = .polling → ∀ t ∈ f.world.db.tasks.rows,
      ¬ (t.status = taskStatusRunning ∧ t.agentID = some a)) ∧
    f.world.db.countRunningFFmpegTasks ≤ envs.length := by
  have hagents (a : Str) (ha : a ∈ site.agents) : a ≠ [] ∧ varchar 64 a = some a := by
    refine ⟨?_, hfits a ha⟩
    rw [henvs] at ha
    obtain ⟨env, _, rfl⟩ := List.mem_map.mp ha
    exact Agent.agentID_ne_nil env
  have hmanned := h.manned hverbatim hagents hw₀
  refine ⟨fun a _ hpoll t ht hlost => ?_, ?_⟩
  · obtain ⟨hrun, hta⟩ := hlost
    obtain ⟨b, _, htb, x, hx, _⟩ := hmanned.owner t.id t (DB.taskAt_eq_some.mpr ⟨ht, rfl⟩) hrun
    cases hta.symm.trans htb
    rw [hpoll] at hx
    cases hx
  · have hcount := hmanned.count
    rwa [henvs, List.length_map] at hcount

end

/-! ### Runs of one agent -/

/-- The server after a request, nothing failing. -/
def World.serve (w : World) (p : Server α) : World := (p.exec World.perform (fun _ => {}) w).2

/-- One agent, on a host with a camera. -/
def sampleSite : Deployment := ⟨[lit "a"], [lit "/dev/video0"], Agent.sampleBind⟩

def sampleHost : Agent.Host := ⟨lit "/dev/video0", true, 0⟩

section
variable {allowed : Fleet → Str → Prop} {w₀ : World} {f : Fleet}

theorem FleetRun.polled (h : FleetRun sampleSite allowed w₀ f) (hphase : f.phase (lit "a") = .polling)
    (hallowed : allowed f (lit "a")) (tasks : List AgentTask)
    (htasks : ((Agent.poll (lit "a")).exec World.perform (fun _ => {}) f.world).1 = some tasks) :
    FleetRun sampleSite allowed w₀
      (f.move (f.world.serve (Agent.poll (lit "a"))) (lit "a") (Agent.parse tasks)) :=
  .poll h (List.mem_singleton_self _) hphase hallowed
    (htasks ▸ Prog.exec_runs _ _ _ fun _ _ => rfl)

theorem FleetRun.reported (h : FleetRun sampleSite allowed w₀ f) (task : AgentTask)
    (hphase : f.phase (lit "a") = .executing task) :
    FleetRun sampleSite allowed w₀
      (f.move (f.world.serve (Agent.report Agent.sampleBind (Agent.execute sampleHost task)))
        (lit "a") .polling) :=
  .report h (List.mem_singleton_self _) hphase (List.mem_singleton_self _)
    (Prog.exec_runs _ _ _ fun _ _ => rfl)

end

/-- One task, polled and reported. -/
theorem no_task_lost_run :
    ∃ f, FleetRun sampleSite atMostOne sampleTasks f ∧ f.phase (lit "a") = .polling ∧
      (f.world.db.taskAt sampleID).map AgentTask.status = some taskStatusCompleted ∧
      ∀ t ∈ f.world.db.tasks.rows, ¬ (t.status = taskStatusRunning ∧ t.agentID = some (lit "a")) := by
  have hstart : FleetRun sampleSite atMostOne sampleTasks (.start sampleTasks) := .start
  have hone : atMostOne (.start sampleTasks) (lit "a") := by
    intro x hx y hy _ _ _ _
    rw [List.mem_singleton.mp hx, List.mem_singleton.mp hy]
  have hpolled := hstart.polled rfl hone [sampleTask] (by decide)
  have hreported := hpolled.reported sampleTask rfl
  have henvs : sampleSite.agents = [lit "a"].map Agent.agentID := by decide
  have hverbatim : sampleSite.Verbatim sampleTasks := by
    refine ⟨Agent.sampleBind_decodes, ?_, ?_, ?_⟩
    all_goals
      intro x hx
      rw [List.mem_singleton.mp hx]
      exact List.all_iff_forall_prop.mp (by decide)
  have hw₀ (id : Str) (t : AgentTask) (ht : sampleTasks.db.taskAt id = some t) :
      t.status ≠ taskStatusRunning := by
    have hmem := (DB.taskAt_eq_some.mp ht).1
    rw [List.mem_singleton.mp hmem]
    decide
  have hsafe := (no_task_lost henvs hverbatim (by decide) hw₀ hreported).1 (lit "a") (by decide) rfl
  exact ⟨_, hreported, rfl, by decide, hsafe⟩

def sampleTwo : World :=
  .ofTasks ⟨[sampleTask, { sampleTask with id := lit "bbbbbbbb-bbbb-4ccc-8ddd-eeeeeeeeeeee" }],
    by decide, by decide⟩

/-- With two tasks in an answer both are running, and the second one still is when the
agent has reported the first and polls again. -/
theorem task_lost :
    (∃ f, FleetRun sampleSite (fun _ _ => True) sampleTwo f ∧ f.world.db.countRunningFFmpegTasks = 2) ∧
    ∃ f, FleetRun sampleSite (fun _ _ => True) sampleTwo f ∧ f.phase (lit "a") = .polling ∧
      ∃ t ∈ f.world.db.tasks.rows, t.status = taskStatusRunning ∧ t.agentID = some (lit "a") := by
  have hstart : FleetRun sampleSite (fun _ _ => True) sampleTwo (.start sampleTwo) := .start
  have hpolled := hstart.polled rfl trivial sampleTwo.db.tasks.rows (by decide)
  have hreported := hpolled.reported sampleTask rfl
  exact ⟨⟨_, hpolled, by decide⟩, ⟨_, hreported, rfl, by decide⟩⟩

end LiveServer
