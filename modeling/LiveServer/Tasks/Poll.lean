import LiveServer.Tasks.Lifecycle

/-! What a poll returns and what it claims.

A poll selects tasks and then claims them one by one, by one of two statements. Without
another request in between and without an error of the database the two parts agree: the
tasks that were selected, in the order of their creation, are the ones that are claimed, and
nothing else changes. So none of them is pending any more, and no later poll returns it until
somebody reports. The agent's name has to fit its column: blanks beyond it are cut without an
error. -/
namespace LiveServer
open Concurrent Relational

/-- The row of a task that was claimed. -/
def AgentTask.claimedBy (agentID : Str) (now : Time) (t : AgentTask) : AgentTask :=
  { t with
    status := taskStatusRunning
    agentID := if agentID = [] then t.agentID else some agentID
    updatedAt := now }

/-- The tasks of the list are claimed in `db'`, and all else is as in `db`. -/
structure Marked (agentID : Str) (tasks : List AgentTask) (db db' : DB) : Prop where
  claimed : ∀ t ∈ tasks, ∃ now, db'.taskAt t.id = (db.taskAt t.id).map (AgentTask.claimedBy agentID now)
  kept : ∀ id, (∀ t ∈ tasks, t.id ≠ id) → db'.taskAt id = db.taskAt id
  streams : db'.streams = db.streams
  issued : db'.issued = db.issued

/-- The statement that claims a task. -/
def claimOp (agentID : Str) (t : AgentTask) : Op :=
  if agentID ≠ [] then .assignTask t.id agentID else .updateTaskStatus t.id taskStatusRunning []

section
variable {agentID : Str} {w : World}

/-- One statement claims its task. -/
theorem perform_claim (hfits : varchar 64 agentID = some agentID) {ch : Choice} (hf : ch.fault = false)
    {t : AgentTask} (ht : uuidIn t.id = some t.id) :
    w.db.TaskUpdated (World.perform ch (claimOp agentID t) w).2.db t.id
      (AgentTask.claimedBy agentID ch.now) := by
  unfold claimOp
  by_cases hne : agentID = []
  · have hclaim : AgentTask.claimedBy agentID ch.now = AgentTask.withStatus taskStatusRunning [] ch.now := by
      funext t
      simp [AgentTask.claimedBy, AgentTask.withStatus, hne]
    rw [if_neg (not_not.mpr hne), hclaim]
    exact World.perform_updateTaskStatus hf ht (by decide) []
  · have hclaim : AgentTask.claimedBy agentID ch.now = AgentTask.assigned agentID ch.now := by
      funext t
      simp [AgentTask.claimedBy, AgentTask.assigned, hne]
    rw [if_pos hne, hclaim]
    exact World.perform_assignTask hf ht hfits

theorem claimTasks_cons (agentID : Str) (t : AgentTask) (rest : List AgentTask) :
    AgentHandler.claimTasks agentID (t :: rest) =
      (Prog.op (claimOp agentID t) >>= fun _ => AgentHandler.claimTasks agentID rest) := by
  by_cases hne : agentID ≠ []
  · rw [claimOp, if_pos hne, AgentHandler.claimTasks, if_pos hne]
    rfl
  · rw [claimOp, if_neg hne, AgentHandler.claimTasks, if_neg hne]
    rfl

/-- The loop claims its tasks, each once. -/
theorem wp_claimTasks_marked (hfits : varchar 64 agentID = some agentID) {tasks : List AgentTask}
    (hids : tasks.Pairwise AgentTask.Apart) (hstored : ∀ t ∈ tasks, uuidIn t.id = some t.id) :
    (AgentHandler.claimTasks agentID tasks).wp World.perform noFaults
      (fun _ w' => Marked agentID tasks w.db w'.db) w := by
  induction tasks generalizing w with
  | nil => exact ⟨nofun, fun _ _ => rfl, rfl, rfl⟩
  | cons t rest ih =>
    obtain ⟨hapart, hrest⟩ := List.pairwise_cons.mp hids
    rw [claimTasks_cons]
    intro ch hch
    have hupd := perform_claim (w := w) hfits hch (hstored t List.mem_cons_self)
    have hloop := ih (w := (World.perform ch (claimOp agentID t) w).2) hrest
      fun t' ht' => hstored t' (List.mem_cons_of_mem t ht')
    apply Prog.wp_mono _ hloop
    intro _ w' hmarked
    constructor
    · intro t' ht'
      rcases List.mem_cons.mp ht' with rfl | ht'
      · -- the first one is none of the others
        refine ⟨ch.now, ?_⟩
        rw [hmarked.kept _ fun t'' ht'' => (hapart t'' ht'').symm, hupd.self]
      · obtain ⟨now, hnow⟩ := hmarked.claimed t' ht'
        refine ⟨now, ?_⟩
        rw [hnow, hupd.taskAt, if_neg (hapart t' ht').symm]
    · intro id hid
      rw [hmarked.kept id fun t' ht' => hid t' (List.mem_cons_of_mem t ht'), hupd.taskAt,
        if_neg (hid t List.mem_cons_self).symm]
    · rw [hmarked.streams, hupd.streams]
    · rw [hmarked.issued, hupd.issued]

/-- A poll alone. -/
theorem wp_getTasks_marked (hfits : varchar 64 agentID = some agentID) :
    (AgentHandler.getTasks agentID).wp World.perform noFaults (fun r w' =>
      r = some (w.db.getPendingTasks agentID) ∧
        Marked agentID (w.db.getPendingTasks agentID) w.db w'.db) w := by
  apply wp_getPendingTasks
  · intro e w₁ hdown _
    exact absurd up_noFaults hdown
  · intro w₁ h₁
    apply Prog.wp_bind
    have hloop := wp_claimTasks_marked (w := w₁) hfits (w.db.apart_getPendingTasks agentID)
      fun t ht => w.db.tasks.good t (DB.mem_getPendingTasks.mp ht).1
    apply Prog.wp_mono _ hloop
    intro _ w₂ hmarked
    exact ⟨rfl, h₁.db ▸ hmarked⟩

/-! ### Later polls -/

/-- Requests served one after the other, none of which reports a task. The calls may fail. -/
inductive Unreported (s : StreamService) : World → World → Prop
  | refl {w : World} : Unreported s w w
  | serve {w w₁ w' : World} {call : Call} {reply : Reply} :
      (∀ id status errorMsg, call ≠ .updateTask id status errorMsg) →
      Prog.Runs World.perform (fun _ _ => True) (s.body call) w reply w₁ → Unreported s w₁ w' →
      Unreported s w w'

/-- The calls of a request that is no report write no status but *running*. -/
def Op.runsOnly : Op → Prop
  | .updateTaskStatus _ status _ => status = taskStatusRunning
  | _ => True

theorem taken_runsOnly {id : Str} {o : Op} (ho : o.runsOnly) (ch : Choice) (w : World)
    (h : Taken id w.db) : Taken id (World.perform ch o w).2.db := by
  have hchange := (World.perform_tasks ch o w).row id
  generalize (World.perform ch o w).2.db = db' at hchange
  cases hchange with
  | kept hat =>
    intro row hrow
    exact h row (hat ▸ hrow)
  | status _ hst hat =>
    apply taken_of_status hst _ hat
    rw [show _ = taskStatusRunning from ho]
    decide
  | assigned _ _ hat => exact taken_of_assigned hat
  | removed _ _ _ _ _ _ hgone =>
    intro row hrow
    cases hgone.symm.trans hrow

theorem Unreported.taken {s : StreamService} {id : Str} {w w' : World} (h : Unreported s w w')
    (hw : Taken id w.db) : Taken id w'.db := by
  induction h with
  | refl => exact hw
  | @serve w w₁ w' call reply hcall hrun _ ih =>
    apply ih
    have hevery : (s.body call).Every Op.runsOnly := by
      apply (s.body_may call).mono
      intro o hmay
      cases hmay with
      | running => rfl
      | report => exact absurd rfl (hcall _ _ _)
      | _ => trivial
    exact hrun.invariant hevery (fun o ch w ho hw => taken_runsOnly ho ch w hw) hw

/-- What a poll returns was pending when it asked. -/
theorem wp_getTasks_pending {ok : Op → Choice → Prop} (agentID : Str) :
    (AgentHandler.getTasks agentID).wp World.perform ok
      (fun r _ => ∀ tasks, r = some tasks → ∀ t ∈ tasks,
        w.db.taskAt t.id = some t ∧ t.status = taskStatusPending) w := by
  apply wp_getPendingTasks
  · intro e w₁ _ _ tasks h
    cases h
  · intro w₁ _
    apply Prog.wp_bind
    apply Prog.wp_of_forall
    intro _ _ tasks h t ht
    cases h
    obtain ⟨hrow, hpending, _⟩ := DB.mem_getPendingTasks.mp ht
    exact ⟨DB.taskAt_eq_some.mpr ⟨hrow, rfl⟩, hpending⟩

end

/-- **A poll claims exactly what it returns**: the pending tasks that are assigned to the agent
or to nobody, all pending ones for a poll without a name, each once and by creation time. They
are running afterwards, for that agent if it gave a name, and nothing else has changed but the
time of the update. No later poll of whatever agent returns one of them as long as nobody
reports. -/
theorem poll_claims_what_it_returns {agentID : Str} (hfits : varchar 64 agentID = some agentID)
    {w w' : World} {r : Option (List AgentTask)}
    (h : Prog.Runs World.perform noFaults (AgentHandler.getTasks agentID) w r w') :
    ∃ tasks, r = some tasks ∧
      tasks.Perm (w.db.tasks.rows.filter fun t => t.status = taskStatusPending &&
        (agentID = [] || (t.agentID = some agentID || t.agentID = some [] || t.agentID = none))) ∧
      tasks.Pairwise (fun t t' => t.createdAt ≤ t'.createdAt) ∧
      (∀ t ∈ tasks, ∃ now, w'.db.taskAt t.id =
        some { t with
          status := taskStatusRunning
          agentID := if agentID = [] then t.agentID else some agentID
          updatedAt := now }) ∧
      (∀ id, (∀ t ∈ tasks, t.id ≠ id) → w'.db.taskAt id = w.db.taskAt id) ∧
      w'.db.streams = w.db.streams ∧
      ∀ (s : StreamService) (w₁ w₂ : World) (other : Str) (later : List AgentTask),
        Unreported s w' w₁ →
        Prog.Runs World.perform (fun _ _ => True) (AgentHandler.getTasks other) w₁ (some later) w₂ →
        ∀ t ∈ tasks, ∀ t' ∈ later, t.id ≠ t'.id := by
  obtain ⟨rfl, hmarked⟩ := h.wp (wp_getTasks_marked hfits)
  have hclaimed : ∀ t ∈ w.db.getPendingTasks agentID, ∃ now,
      w'.db.taskAt t.id = some (t.claimedBy agentID now) := by
    intro t ht
    obtain ⟨now, hnow⟩ := hmarked.claimed t ht
    refine ⟨now, ?_⟩
    rw [hnow, DB.taskAt_eq_some.mpr ⟨(DB.mem_getPendingTasks.mp ht).1, rfl⟩]
    rfl
  refine ⟨w.db.getPendingTasks agentID, rfl, ?_, ?_, hclaimed, hmarked.kept, hmarked.streams, ?_⟩
  · have hperm := w.db.perm_getPendingTasks agentID
    cases agentID with
    | nil => exact hperm
    | cons b rest => exact hperm
  · exact w.db.sorted_getPendingTasks agentID
  · intro s w₁ w₂ other later hbetween hlater t ht t' ht' hid
    obtain ⟨hrow, hpending⟩ := hlater.wp (wp_getTasks_pending other) later rfl t' ht'
    have htaken : Taken t.id w'.db := by
      intro row hrow
      obtain ⟨now, hnow⟩ := hclaimed t ht
      rw [hnow] at hrow
      cases hrow
      show taskStatusRunning ≠ taskStatusPending
      decide
    rw [← hid] at hrow
    exact hbetween.taken htaken t' hrow hpending

/-- A task of agent *a*. -/
def ownTask : AgentTask :=
  { sampleTask with id := sampleID.dropLast ++ [49], agentID := some (lit "a"), createdAt := 2 }

/-- A task of another agent. -/
def foreignTask : AgentTask := { sampleTask with id := sampleID.dropLast ++ [50], agentID := some (lit "b") }

/-- A task of agent *a* that is done. -/
def finishedTask : AgentTask :=
  { sampleTask with id := sampleID.dropLast ++ [51], agentID := some (lit "a"), status := taskStatusCompleted }

def mixedTasks : World := .ofTasks ⟨[foreignTask, ownTask, finishedTask, sampleTask], by decide, by decide⟩

/-- A poll of an agent that finds a task of its own and an older one of nobody between others,
and one of another agent afterwards. -/
theorem poll_claims_sample :
    ∃ w' : World,
      Prog.Runs World.perform noFaults (AgentHandler.getTasks (lit "a")) mixedTasks
        (some [sampleTask, ownTask]) w' ∧
      (∃ now, w'.db.taskAt ownTask.id =
        some { ownTask with status := taskStatusRunning, updatedAt := now }) ∧
      (∃ now, w'.db.taskAt sampleTask.id =
        some { sampleTask with status := taskStatusRunning, agentID := some (lit "a"), updatedAt := now }) ∧
      w'.db.taskAt foreignTask.id = some foreignTask ∧ w'.db.taskAt finishedTask.id = some finishedTask ∧
      ∀ (w₂ : World) (later : List AgentTask), Prog.Runs World.perform (fun _ _ => True)
        (AgentHandler.getTasks (lit "b")) w' (some later) w₂ →
        ∀ t' ∈ later, sampleTask.id ≠ t'.id ∧ ownTask.id ≠ t'.id := by
  have hrun : Prog.Runs World.perform noFaults (AgentHandler.getTasks (lit "a")) mixedTasks _ _ :=
    Prog.exec_runs _ (fun _ => ({} : Choice)) _ fun _ _ => rfl
  have hres : ((AgentHandler.getTasks (lit "a")).exec World.perform (fun _ => {}) mixedTasks).1 =
      some [sampleTask, ownTask] := by
    decide
  rw [hres] at hrun
  obtain ⟨tasks, hr, _, _, hclaimed, hkept, _, hlater⟩ := poll_claims_what_it_returns (by decide) hrun
  cases hr
  refine ⟨_, hrun, hclaimed ownTask (by decide), hclaimed sampleTask (by decide),
    hkept foreignTask.id (by decide), hkept finishedTask.id (by decide), ?_⟩
  intro w₂ later h t' ht'
  exact ⟨hlater .sample _ w₂ (lit "b") later .refl h sampleTask (by decide) t' ht',
    hlater .sample _ w₂ (lit "b") later .refl h ownTask (by decide) t' ht'⟩

/-- A name that is a blank longer than the column is cut without an error: the task is claimed
for another agent than the one that asked. -/
theorem poll_name_cut :
    let agentID := List.replicate 64 120 ++ [32]
    let r := (AgentHandler.getTasks agentID).exec World.perform (fun _ => {}) sampleTasks
    r.1 = some [sampleTask] ∧
      (r.2.db.taskAt sampleTask.id).map AgentTask.agentID = some (some (List.replicate 64 120)) ∧
      (r.2.db.taskAt sampleTask.id).map AgentTask.agentID ≠ some (some agentID) := by
  decide

end LiveServer
