import LiveServer.Footprint

/-! Handing out tasks.

A poll selects the pending tasks and then marks each as running, one statement a
task, by id alone and with errors dropped. So two polls can select the same task
before either marks it, a mark that fails leaves its task for the next poll, and a
mark that comes late puts a finished task back to running. None of it happens in a
run where no mark fails and each finds its task still pending: a task is pending until
its first mark or report, and never again. -/
namespace LiveServer
open Concurrent Relational

/-- The task a statement marks. -/
def Op.marks : Op → Option Str
  | .assignTask u _ => some u
  | .updateTaskStatus u _ _ => some u
  | _ => none

/-- The task an update of a poll marks as running. -/
def claimOf (t : ServerTransition) : Option Str :=
  match t.performed with
  | some ⟨_, .getTasks _, o, _⟩ => o.marks
  | _ => none

def isPending (u : Str) (db : DB) : Bool :=
  (uuidIn u).any fun id => (db.taskAt id).any (·.status = taskStatusPending)

/-- An update of a poll runs on a task that is still pending; the database does not fail,
and the agent's id fits its column. -/
def inTime (t : ServerTransition) : Bool :=
  match t.performed with
  | some ⟨_, .getTasks _, .assignTask u agentID, ch⟩ =>
    isPending u t.before.world.db && !ch.fault && (varchar 64 agentID).isSome
  | some ⟨_, .getTasks _, .updateTaskStatus u _ _, ch⟩ => isPending u t.before.world.db && !ch.fault
  | _ => true

/-- No agent reports a task as pending. -/
def noReset (t : ServerTransition) : Bool :=
  match t.performed with
  | some ⟨_, .updateTask _ status _, _, _⟩ => status ≠ taskStatusPending
  | _ => true

/-- An agent reports the task as completed or failed. -/
def reports (id : Str) (t : ServerTransition) : Bool :=
  match t.performed with
  | some ⟨_, .updateTask .., .updateTaskStatus u status errMsg, ch⟩ =>
    uuidIn u = some id && (status = taskStatusCompleted || status = taskStatusFailed) &&
      (World.perform ch (.updateTaskStatus u status errMsg) t.before.world).1 = none
  | _ => false

/-- A step of a poll. -/
def polls (t : ServerTransition) : Bool :=
  match t.performed with
  | some ⟨_, .getTasks _, _, _⟩ => true
  | _ => false

/-- What the poll at an index has answered. -/
def answered (c : ServerConfig) (i : Nat) : Option (List AgentTask) :=
  match c.threads[i]? with
  | some ⟨.getTasks _, .done (.tasks tasks)⟩ => tasks
  | _ => none

/-- The task is not pending. -/
def Taken (id : Str) (db : DB) : Prop := ∀ row, db.taskAt id = some row → row.status ≠ taskStatusPending

section
variable {s : StreamService} {t : ServerTransition} {id u : Str}

theorem isPending_eq_true {db : DB} (h : isPending u db = true) :
    ∃ id row, uuidIn u = some id ∧ db.taskAt id = some row ∧ row.status = taskStatusPending := by
  obtain ⟨id, hu, hrow⟩ := (Option.any_eq_true _ _).mp h
  obtain ⟨row, hrow, hst⟩ := (Option.any_eq_true _ _).mp hrow
  exact ⟨id, row, hu, hrow, of_decide_eq_true hst⟩

theorem answered_eq_some {c : ServerConfig} {i : Nat} {tasks : List AgentTask}
    (h : answered c i = some tasks) :
    ∃ agentID, c.threads[i]? = some ⟨.getTasks agentID, .done (.tasks (some tasks))⟩ := by
  unfold answered at h
  split at h
  · rename_i agentID _ hth
    subst h
    exact ⟨agentID, hth⟩
  · cases h

/-! ### What a poll returns, it has marked -/

theorem claimTasks_requires {A : β → Prop} {x : AgentTask} (agentID : Str) {tasks : List AgentTask}
    (hx : x ∈ tasks) (f : Unit → Server β) :
    (AgentHandler.claimTasks agentID tasks >>= f).Requires A (·.op.marks = some x.id) := by
  induction tasks with
  | nil => cases hx
  | cons y rest ih =>
    unfold AgentHandler.claimTasks
    -- both statements mark the task at the head
    have hhead (o : Op) (ho : o.marks = some y.id) (r : o.Res) :
        (⟨o, r⟩ : Prog.Event Op Op.Res).op.marks = some x.id ∨
          (AgentHandler.claimTasks agentID rest >>= f).Requires A (·.op.marks = some x.id) := by
      rcases List.mem_cons.mp hx with rfl | hx
      · exact .inl ho
      · exact .inr (ih hx)
    split
    · exact fun r => hhead _ rfl r
    · exact fun r => hhead _ rfl r

theorem getTasks_requires (agentID : Str) (x : AgentTask) :
    (s.body (.getTasks agentID)).Requires (fun a => ∃ tasks, a = .tasks (some tasks) ∧ x ∈ tasks)
      (·.op.marks = some x.id) := by
  refine Prog.requires_map _ (Prog.requires_op_bind.mpr fun r => .inr ?_)
  cases r with
  | error e => exact fun ⟨_, h, _⟩ => (by cases h)
  | ok tasks =>
    by_cases hx : x ∈ tasks
    · exact claimTasks_requires agentID hx _
    · refine Prog.requires_bind _ fun _ => ?_
      rintro ⟨_, h, hx'⟩
      cases h
      exact hx hx'

/-! ### A task is taken once -/

theorem taken_of_assigned {db db' : DB} {agentID : Str} {now : Time}
    (h : db'.taskAt id = (db.taskAt id).map (AgentTask.assigned agentID now)) : Taken id db' := by
  intro row hrow
  rw [h] at hrow
  obtain ⟨_, _, rfl⟩ := Option.map_eq_some_iff.mp hrow
  show taskStatusRunning ≠ taskStatusPending
  decide

/-- A status that is not *pending* is not stored as *pending*. -/
theorem taken_of_status {db db' : DB} {status st errMsg : Str} {now : Time} (hst : varchar 20 status = some st)
    (hne : status ≠ taskStatusPending)
    (h : db'.taskAt id = (db.taskAt id).map (AgentTask.withStatus st errMsg now)) : Taken id db' := by
  intro row hrow hpend
  rw [h] at hrow
  obtain ⟨_, _, rfl⟩ := Option.map_eq_some_iff.mp hrow
  have hstored : st = taskStatusPending := hpend
  subst hstored
  exact hne (varchar_uncut hst (by decide)).symm

/-- A task that is taken stays so. -/
theorem taken_step (hv : s.machine.Valid t) (hl : s.Lawful t.before) (hreset : noReset t = true)
    (h : Taken id t.before.world.db) : Taken id t.after.world.db := by
  apply hv.world (I := fun w => Taken id w.db) h
  intro i ch call o k r w hs
  have hmay := hl.may hs
  have hperf := hs.performed
  have hchange := StreamService.steps_tasks hs
  clear hs
  cases hchange.row id with
  | kept hat =>
    intro row hrow
    exact h row (hat ▸ hrow)
  | status _ hst hat =>
    refine taken_of_status hst ?_ hat
    cases hmay with
    | running => decide
    | report =>
      unfold noReset at hreset
      rw [hperf] at hreset
      exact of_decide_eq_true hreset
  | assigned _ _ hat => exact taken_of_assigned hat
  | removed _ _ _ _ _ _ hgone =>
    intro row hrow
    cases hgone.symm.trans hrow

/-- An update of a poll that is in time finds its task pending and takes it. -/
theorem takes_of_claim (hv : s.machine.Valid t) (hl : s.Lawful t.before) (hin : inTime t = true)
    (hclaim : claimOf t = some u) :
    ∃ id row, uuidIn u = some id ∧ t.before.world.db.taskAt id = some row ∧
      row.status = taskStatusPending ∧ Taken id t.after.world.db := by
  unfold claimOf at hclaim
  split at hclaim
  · rename_i i agentID o ch hp
    obtain ⟨k, r, w, hs⟩ := hv.steps hp
    have hmay := hl.may hs
    have hperf := StreamService.steps_perform hs
    unfold inTime at hin
    rw [hp] at hin
    rw [hs.after]
    clear hs
    cases hmay with
    | assign =>
      cases hclaim
      simp only [Bool.and_eq_true, Bool.not_eq_true'] at hin
      obtain ⟨⟨hpend, hfault⟩, hfits⟩ := hin
      obtain ⟨id, row, hu, hrow, hst⟩ := isPending_eq_true hpend
      obtain ⟨a, ha⟩ := Option.isSome_iff_exists.mp hfits
      have hupd := World.perform_assignTask (w := t.before.world) hfault hu ha
      rw [hperf] at hupd
      exact ⟨id, row, hu, hrow, hst, taken_of_assigned hupd.self⟩
    | running =>
      cases hclaim
      simp only [Bool.and_eq_true, Bool.not_eq_true'] at hin
      obtain ⟨hpend, hfault⟩ := hin
      obtain ⟨id, row, hu, hrow, hst⟩ := isPending_eq_true hpend
      have hstored : varchar 20 taskStatusRunning = some taskStatusRunning := by decide
      have hupd := World.perform_updateTaskStatus (w := t.before.world) hfault hu hstored []
      rw [hperf] at hupd
      exact ⟨id, row, hu, hrow, hst, taken_of_status hstored (by decide) hupd.self⟩
    | _ => cases hclaim
  · cases hclaim

/-- A report of a result takes the task. -/
theorem taken_of_reports (hv : s.machine.Valid t) (h : reports id t = true) : Taken id t.after.world.db := by
  unfold reports at h
  split at h
  · rename_i i _ _ _ u status errMsg ch hp
    obtain ⟨k, r, w, hs⟩ := hv.steps hp
    simp only [Bool.and_eq_true, Bool.or_eq_true, decide_eq_true_eq] at h
    obtain ⟨⟨hu, hstatus⟩, hres⟩ := h
    have hdb := World.perform_updateTaskStatus_none hres
    rw [StreamService.steps_perform hs] at hdb
    obtain ⟨v, st, hv', hvarchar, hupd⟩ := DB.updateTaskStatus_ok hdb
    cases hu.symm.trans hv'
    rw [hs.after]
    refine taken_of_status hvarchar ?_ hupd.self
    rcases hstatus with rfl | rfl <;> decide
  · cases h

/-- A step of a poll leaves a task that is taken as it is. -/
theorem row_kept_of_taken (hv : s.machine.Valid t) (hl : s.Lawful t.before) (hin : inTime t = true)
    (hpoll : polls t = true) (h : Taken id t.before.world.db) :
    t.after.world.db.taskAt id = t.before.world.db.taskAt id := by
  unfold polls at hpoll
  split at hpoll
  · rename_i i agentID o ch hp
    obtain ⟨k, r, w, hs⟩ := hv.steps hp
    have hclaim : claimOf t = o.marks := by
      unfold claimOf
      rw [hp]
    -- no row of a task that is taken is named by an update in time
    have hnot (u : Str) (ho : o.marks = some u) : uuidIn u ≠ some id := by
      intro hu
      obtain ⟨v, row, hv', hrow, hst, _⟩ := takes_of_claim hv hl hin (hclaim.trans ho)
      cases hu.symm.trans hv'
      exact h row hrow hst
    have hmay := hl.may hs
    have hchange := StreamService.steps_tasks hs
    rw [hs.after]
    clear hs hp
    cases hchange.row id with
    | kept hat => exact hat
    | status hu _ _ => exact absurd hu (hnot _ rfl)
    | assigned hu _ _ => exact absurd hu (hnot _ rfl)
    | removed => cases hmay
  · cases hpoll

/-! ### Whole runs -/

section
variable {w : World} {ts a b : List ServerTransition}

/-- What holds before every step of a run after a task is taken. -/
theorem taken_before {c : ServerConfig} (h : s.machine.Trace c ts) (hl : s.Lawful c)
    (hreset : ∀ t ∈ ts, noReset t = true) (hc : Taken id c.world.db) (ht : t ∈ ts) :
    s.Lawful t.before ∧ Taken id t.before.world.db :=
  h.invariant_before (I := fun c => s.Lawful c ∧ Taken id c.world.db) (G := fun t => noReset t = true)
    (fun _ hv hr hc => ⟨hc.1.step hv, taken_step hv hc.1 hr hc.2⟩) hreset ⟨hl, hc⟩ ht

/-- After an update of a poll no other one marks the same task. -/
theorem not_claimed_again (hv : s.machine.Valid t) (hl : s.Lawful t.before)
    (hb : s.machine.Trace t.after b) (hreset : ∀ t' ∈ b, noReset t' = true) (hin : inTime t = true)
    (hin' : ∀ t' ∈ b, inTime t' = true) (hclaim : claimOf t = some u) :
    ∀ t' ∈ b, claimOf t' ≠ some u := by
  intro t' ht' hclaim'
  obtain ⟨id, _, hu, _, _, htaken⟩ := takes_of_claim hv hl hin hclaim
  obtain ⟨hl', htaken'⟩ := taken_before hb (hl.step hv) hreset htaken ht'
  obtain ⟨v, row, hv', hrow, hst, _⟩ := takes_of_claim (hb.valid ht') hl' (hin' t' ht') hclaim'
  cases hu.symm.trans hv'
  exact htaken' row hrow hst

theorem claims_pairwise {c : ServerConfig} (h : s.machine.Trace c ts) (hl : s.Lawful c)
    (hreset : ∀ t ∈ ts, noReset t = true) (hin : ∀ t ∈ ts, inTime t = true) (u : Str) :
    ts.Pairwise fun t t' => claimOf t = some u → claimOf t' ≠ some u := by
  induction ts generalizing c with
  | nil => exact List.Pairwise.nil
  | cons t rest ih =>
    obtain ⟨rfl, hv, hrest⟩ := h
    have hreset' (t' : ServerTransition) (ht' : t' ∈ rest) := hreset t' (List.mem_cons_of_mem t ht')
    have hin' (t' : ServerTransition) (ht' : t' ∈ rest) := hin t' (List.mem_cons_of_mem t ht')
    apply List.pairwise_cons.mpr
    constructor
    · intro t' ht' hclaim
      exact not_claimed_again hv hl hrest hreset' (hin t List.mem_cons_self) hin' hclaim t' ht'
    · exact ih hrest (hl.step hv) hreset' hin'

/-- Two steps that mark the same task are one. -/
theorem claim_unique (h : s.machine.Trace (.start w) ts) (hreset : ∀ t ∈ ts, noReset t = true)
    (hin : ∀ t ∈ ts, inTime t = true) {t' : ServerTransition} (ht : t ∈ ts) (ht' : t' ∈ ts)
    (hclaim : claimOf t = some u) (hclaim' : claimOf t' = some u) : t = t' := by
  have hpair := claims_pairwise h (StreamService.lawful_start w) hreset hin u
  have : Std.Symm fun t t' : ServerTransition => claimOf t = some u → claimOf t' ≠ some u :=
    ⟨fun _ _ hne hc' hc => hne hc hc'⟩
  by_contra hne
  exact hpair.forall ht ht' hne hclaim hclaim'

/-- A poll that returned has marked what it returns. -/
theorem claimed_of_answered (h : s.machine.Trace (.start w) ts) {i : Nat} {tasks : List AgentTask}
    {x : AgentTask} (hans : answered (Machine.final (.start w) ts) i = some tasks) (hx : x ∈ tasks) :
    ∃ t ∈ ts, claimOf t = some x.id ∧ t.performed.map Performed.index = some i := by
  obtain ⟨agentID, hth⟩ := answered_eq_some hans
  obtain ⟨t, ht, o, ch, r, hp, _, hmark⟩ := h.performed_of_returned (Nat.zero_le i) hth
    (getTasks_requires (s := s) agentID x) ⟨tasks, rfl, hx⟩
  refine ⟨t, ht, ?_, by rw [hp]; rfl⟩
  unfold claimOf
  rw [hp]
  exact hmark

/-- **A task is handed out once**, when no update of a poll fails and each finds its task
still pending: no two polls return the same task, and no poll touches one that was
reported. -/
theorem tasks_handed_out_once (h : s.machine.Trace (.start w) ts) (hreset : ∀ t ∈ ts, noReset t = true)
    (hin : ∀ t ∈ ts, inTime t = true) :
    (∀ i j tasks tasks', i ≠ j → answered (Machine.final (.start w) ts) i = some tasks →
      answered (Machine.final (.start w) ts) j = some tasks' →
      ∀ x ∈ tasks, ∀ y ∈ tasks', x.id ≠ y.id) ∧
    (∀ a t b id, ts = a ++ t :: b → reports id t = true → ∀ t' ∈ b, polls t' = true →
      t'.after.world.db.taskAt id = t'.before.world.db.taskAt id) := by
  constructor
  · intro i j tasks tasks' hij hi hj x hx y hy hxy
    obtain ⟨t, ht, hclaim, hti⟩ := claimed_of_answered h hi hx
    obtain ⟨t', ht', hclaim', htj⟩ := claimed_of_answered h hj hy
    rw [← hxy] at hclaim'
    have heq := claim_unique h hreset hin ht ht' hclaim hclaim'
    subst heq
    exact hij (Option.some.inj (hti.symm.trans htj))
  · intro a t b id hts hrep t' ht' hpoll
    subst hts
    have hmem {t'' : ServerTransition} (h : t'' ∈ b) : t'' ∈ a ++ t :: b :=
      List.mem_append_right a (List.mem_cons_of_mem t h)
    obtain ⟨ha, hbefore, hv, hb⟩ := Machine.Trace.split h
    have hl : s.Lawful t.before := hbefore ▸ (StreamService.lawful_start w).final ha
    obtain ⟨hl', htaken⟩ := taken_before hb (hl.step hv) (fun _ h => hreset _ (hmem h))
      (taken_of_reports hv hrep) ht'
    exact row_kept_of_taken (hb.valid ht') hl' (hin t' (hmem ht')) hpoll htaken

end

end

/-- A server with tasks and no streams. -/
def World.ofTasks (tasks : Table AgentTask AgentTask.Apart AgentTask.Stored) : World :=
  { World.empty with db := { DB.empty with tasks := tasks } }

def sampleTask : AgentTask := { id := sampleID, action := actionStartPush, status := taskStatusPending }

def sampleTasks : World := .ofTasks ⟨[sampleTask], by decide, by decide⟩

/-- Two agents that poll one after the other, the first task handed to the first. -/
theorem tasks_handed_out_once_run :
    ∃ ts tasks, StreamService.sample.machine.Trace (.start sampleTasks) ts ∧
      answered (Machine.final (.start sampleTasks) ts) 0 = some [sampleTask] ∧
      answered (Machine.final (.start sampleTasks) ts) 1 = some tasks ∧
      ∀ y ∈ tasks, sampleTask.id ≠ y.id := by
  obtain ⟨ts, htr, hP⟩ := Machine.exists_trace StreamService.sample.machine (.start sampleTasks)
    [.spawn (.getTasks (lit "a")), .step 0 {}, .step 0 {}, .spawn (.getTasks (lit "b")), .step 1 {},
      .spawn (.updateTask sampleID taskStatusCompleted []), .step 2 {}]
    (fun ts => (∀ t ∈ ts, noReset t = true) ∧ (∀ t ∈ ts, inTime t = true) ∧
      answered (Machine.final (.start sampleTasks) ts) 0 = some [sampleTask] ∧
      answered (Machine.final (.start sampleTasks) ts) 1 = some []) (by decide)
  simp only [decide_eq_true_eq] at hP
  obtain ⟨hreset, hin, hfirst, hsecond⟩ := hP
  have honce := (tasks_handed_out_once htr hreset hin).1 0 1 _ _ (by decide) hfirst hsecond
  exact ⟨ts, [], htr, hfirst, hsecond, honce sampleTask (by decide)⟩

/-- Two polls that both select before either marks return the same task, and so do two
polls when the first one's mark fails; and a mark that comes after a report puts the
task back to running. -/
theorem task_handed_out_twice :
    (∃ ts, StreamService.sample.machine.Trace (.start sampleTasks) ts ∧ (∀ t ∈ ts, noReset t = true) ∧
      answered (Machine.final (.start sampleTasks) ts) 0 = some [sampleTask] ∧
      answered (Machine.final (.start sampleTasks) ts) 1 = some [sampleTask]) ∧
    (∃ ts, StreamService.sample.machine.Trace (.start sampleTasks) ts ∧ (∀ t ∈ ts, noReset t = true) ∧
      (∀ t ∈ ts, claimOf t ≠ none → isPending sampleID t.before.world.db = true) ∧
      answered (Machine.final (.start sampleTasks) ts) 0 = some [sampleTask] ∧
      answered (Machine.final (.start sampleTasks) ts) 1 = some [sampleTask]) ∧
    (∃ ts n, StreamService.sample.machine.Trace (.start sampleTasks) ts ∧
      (∀ t ∈ ts, noReset t = true) ∧ (∃ t ∈ ts.take n, reports sampleID t = true) ∧
      ∃ t ∈ ts.drop n, polls t = true ∧
        (t.before.world.db.taskAt sampleID).map AgentTask.status = some taskStatusCompleted ∧
        (t.after.world.db.taskAt sampleID).map AgentTask.status = some taskStatusRunning) := by
  refine ⟨?_, ?_, ?_⟩
  · obtain ⟨ts, htr, hP⟩ := Machine.exists_trace StreamService.sample.machine (.start sampleTasks)
      [.spawn (.getTasks (lit "a")), .spawn (.getTasks (lit "b")), .step 0 {}, .step 1 {}, .step 0 {},
        .step 1 {}]
      (fun ts => (∀ t ∈ ts, noReset t = true) ∧
        answered (Machine.final (.start sampleTasks) ts) 0 = some [sampleTask] ∧
        answered (Machine.final (.start sampleTasks) ts) 1 = some [sampleTask]) (by decide)
    simp only [decide_eq_true_eq] at hP
    exact ⟨ts, htr, hP⟩
  · obtain ⟨ts, htr, hP⟩ := Machine.exists_trace StreamService.sample.machine (.start sampleTasks)
      [.spawn (.getTasks (lit "a")), .step 0 {}, .step 0 { fault := true }, .spawn (.getTasks (lit "b")),
        .step 1 {}, .step 1 {}]
      (fun ts => (∀ t ∈ ts, noReset t = true) ∧
        (∀ t ∈ ts, claimOf t ≠ none → isPending sampleID t.before.world.db = true) ∧
        answered (Machine.final (.start sampleTasks) ts) 0 = some [sampleTask] ∧
        answered (Machine.final (.start sampleTasks) ts) 1 = some [sampleTask]) (by decide)
    simp only [decide_eq_true_eq] at hP
    exact ⟨ts, htr, hP⟩
  · obtain ⟨ts, htr, hP⟩ := Machine.exists_trace StreamService.sample.machine (.start sampleTasks)
      [.spawn (.getTasks (lit "a")), .spawn (.getTasks (lit "b")), .step 0 {}, .step 1 {}, .step 1 {},
        .spawn (.updateTask sampleID taskStatusCompleted []), .step 2 {}, .step 0 {}]
      (fun ts => (∀ t ∈ ts, noReset t = true) ∧ (∃ t ∈ ts.take 7, reports sampleID t = true) ∧
        ∃ t ∈ ts.drop 7, polls t = true ∧
          (t.before.world.db.taskAt sampleID).map AgentTask.status = some taskStatusCompleted ∧
          (t.after.world.db.taskAt sampleID).map AgentTask.status = some taskStatusRunning) (by decide)
    simp only [decide_eq_true_eq] at hP
    exact ⟨ts, 7, htr, hP⟩

end LiveServer
