import LiveServer.Api.Footprint
import LiveServer.Concurrent.Serial
import LiveServer.Tasks.Claims
import Mathlib.Data.List.Induction

/-! What is never changed.

A stream keeps its key, its description and its play URLs for as long as it exists, and an id
that was given away is never given again: a stream that is deleted does not come back. Tasks
are not made by the server, nor told to do something else, and they are removed only with
their stream, where the schema says so. The number of running tasks that is shown as a gauge
is therefore bounded by the tasks there are, and it always is a number that was counted. -/
namespace LiveServer
open Relational

/-- A stream without the columns that are written after it is created. -/
def Stream.identity (s : Stream) : Stream :=
  { s with status := .created, pushToken := [], pushURL := [], startedAt := none, endedAt := none }

/-- A task without the columns that agents write. -/
def AgentTask.identity (t : AgentTask) : AgentTask :=
  { t with agentID := none, status := [], errorMsg := [], updatedAt := 0 }

/-- What becomes of a database that the server works on. -/
structure Preserved (db db' : DB) : Prop where
  issued : db.issued ⊆ db'.issued
  /-- A row under an id that was given away was there before. -/
  streams : ∀ id row', id ∈ db.issued → db'.streamAt id = some row' →
    ∃ row, db.streamAt id = some row ∧ row'.identity = row.identity
  cascade : db'.cascade = db.cascade
  tasks : (db'.tasks.rows.map AgentTask.identity).Sublist (db.tasks.rows.map AgentTask.identity)
  /-- A task that is there was there before. -/
  kept : ∀ id t', db'.taskAt id = some t' → ∃ t, db.taskAt id = some t ∧ t'.identity = t.identity
  /-- A task that is gone went with its stream. -/
  lost : ∀ id t, db.taskAt id = some t → db'.taskAt id = none →
    db.cascade = true ∧ t.streamID ∈ db'.issued ∧ db'.streamAt t.streamID = none
  whole : db.cascade = false → db'.tasks.rows.map AgentTask.identity = db.tasks.rows.map AgentTask.identity

theorem Preserved.refl (db : DB) : Preserved db db where
  issued _ hid := hid
  streams _ row' _ hrow := ⟨row', hrow, rfl⟩
  cascade := rfl
  tasks := .refl _
  kept _ t' ht' := ⟨t', ht', rfl⟩
  lost _ _ ht hgone := by cases ht.symm.trans hgone
  whole _ := rfl

/-- A stream that is away stays away. -/
theorem Preserved.away {db db' : DB} (h : Preserved db db') {id : Str} (hid : id ∈ db.issued)
    (hnone : db.streamAt id = none) : db'.streamAt id = none := by
  cases hafter : db'.streamAt id with
  | none => rfl
  | some row' =>
    obtain ⟨row, hrow, _⟩ := h.streams id row' hid hafter
    cases hnone.symm.trans hrow

theorem AgentTask.streamID_of_identity {t t' : AgentTask} (h : t'.identity = t.identity) :
    t'.streamID = t.streamID :=
  show t'.identity.streamID = t.identity.streamID from congrArg AgentTask.streamID h

theorem Preserved.trans {db db' db'' : DB} (h : Preserved db db') (h' : Preserved db' db'') :
    Preserved db db'' where
  issued _ hid := h'.issued (h.issued hid)
  streams id row'' hid hrow'' := by
    obtain ⟨row', hrow', heq'⟩ := h'.streams id row'' (h.issued hid) hrow''
    obtain ⟨row, hrow, heq⟩ := h.streams id row' hid hrow'
    exact ⟨row, hrow, heq'.trans heq⟩
  cascade := h'.cascade.trans h.cascade
  tasks := h'.tasks.trans h.tasks
  kept id t'' ht'' := by
    obtain ⟨t', ht', heq'⟩ := h'.kept id t'' ht''
    obtain ⟨t, ht, heq⟩ := h.kept id t' ht'
    exact ⟨t, ht, heq'.trans heq⟩
  lost id t ht hgone := by
    cases hmid : db'.taskAt id with
    | none =>
      obtain ⟨hcascade, hissued, haway⟩ := h.lost id t ht hmid
      exact ⟨hcascade, h'.issued hissued, h'.away hissued haway⟩
    | some t' =>
      obtain ⟨t₀, ht₀, heq⟩ := h.kept id t' hmid
      cases ht.symm.trans ht₀
      have hlost := h'.lost id t' hmid hgone
      rw [AgentTask.streamID_of_identity heq, h.cascade] at hlost
      exact hlost
  whole hcascade := (h'.whole (h.cascade.trans hcascade)).trans (h.whole hcascade)

theorem StreamChange.identity {db db' : DB} {o : Op} {r : o.Res} (h : StreamChange db db' o r) {id : Str}
    (hid : id ∈ db.issued) {row' : Stream} (hrow' : db'.streamAt id = some row') :
    ∃ row, db.streamAt id = some row ∧ row'.identity = row.identity := by
  cases h.row id with
  | kept hat => exact ⟨row', hat ▸ hrow', rfl⟩
  | created _ _ _ hfresh _ => exact absurd hid hfresh
  | status _ hat =>
    rw [hat] at hrow'
    obtain ⟨row, hrow, rfl⟩ := Option.map_eq_some_iff.mp hrow'
    exact ⟨row, hrow, rfl⟩
  | pushAuth _ hat =>
    rw [hat] at hrow'
    obtain ⟨row, hrow, rfl⟩ := Option.map_eq_some_iff.mp hrow'
    exact ⟨row, hrow, rfl⟩
  | deleted _ hat =>
    rw [hat] at hrow'
    cases hrow'

theorem DB.setTask_identities (db : DB) (u : Str) {f : AgentTask → AgentTask} (hid : ∀ r, (f r).id = r.id)
    (hf : ∀ r, (f r).identity = r.identity) :
    (db.setTask u f hid).tasks.rows.map AgentTask.identity = db.tasks.rows.map AgentTask.identity :=
  Table.map_update (DB.task_harmless hid) hf

/-- A statement removes tasks or leaves them as they were ordered. -/
theorem TaskChange.identities {db db' : DB} {o : Op} (h : TaskChange db db' o) :
    db'.tasks.rows.map AgentTask.identity = db.tasks.rows.map AgentTask.identity ∨
    ∃ u, db'.tasks = db.tasks.delete (db.cascades u) := by
  cases h with
  | same heq _ => exact .inl (by rw [heq])
  | status hc =>
    unfold DB.updateTaskStatus at hc
    split at hc
    · cases hc
      exact .inl (db.setTask_identities _ _ fun _ => rfl)
    · cases hc
  | assign hc =>
    unfold DB.assignTask at hc
    split at hc
    · cases hc
      exact .inl (db.setTask_identities _ _ fun _ => rfl)
    · cases hc
  | delete hc =>
    obtain ⟨u, _, hdel⟩ := DB.deleteStream_ok hc
    exact .inr ⟨u, hdel.tasks⟩

theorem TaskChange.sublist {db db' : DB} {o : Op} (h : TaskChange db db' o) :
    (db'.tasks.rows.map AgentTask.identity).Sublist (db.tasks.rows.map AgentTask.identity) := by
  rcases h.identities with heq | ⟨u, hdel⟩
  · rw [heq]
  · rw [hdel]
    exact List.filter_sublist.map _

theorem TaskChange.whole {db db' : DB} {o : Op} (h : TaskChange db db' o) (hcascade : db.cascade = false) :
    db'.tasks.rows.map AgentTask.identity = db.tasks.rows.map AgentTask.identity := by
  rcases h.identities with heq | ⟨u, hdel⟩
  · exact heq
  · have hall : db.tasks.rows.filter (fun t => !db.cascades u t) = db.tasks.rows := by
      apply List.filter_eq_self.mpr
      intro t _
      simp [DB.cascades, hcascade]
    rw [hdel]
    exact congrArg (List.map AgentTask.identity) hall

theorem TaskChange.kept {db db' : DB} {o : Op} (h : TaskChange db db' o) {id : Str} {t' : AgentTask}
    (ht' : db'.taskAt id = some t') : ∃ t, db.taskAt id = some t ∧ t'.identity = t.identity := by
  cases h.row id with
  | kept hat => exact ⟨t', hat ▸ ht', rfl⟩
  | status _ _ hat =>
    rw [hat] at ht'
    obtain ⟨t, ht, rfl⟩ := Option.map_eq_some_iff.mp ht'
    exact ⟨t, ht, rfl⟩
  | assigned _ _ hat =>
    rw [hat] at ht'
    obtain ⟨t, ht, rfl⟩ := Option.map_eq_some_iff.mp ht'
    exact ⟨t, ht, rfl⟩
  | removed _ _ _ _ _ _ hgone => cases hgone.symm.trans ht'

theorem TaskChange.lost {db db' : DB} {o : Op} (h : TaskChange db db' o) {id : Str} {t : AgentTask}
    (ht : db.taskAt id = some t) (hnone : db'.taskAt id = none) :
    db.cascade = true ∧ t.streamID ∈ db.issued ∧ db'.streamAt t.streamID = none := by
  cases h.row id with
  | kept hat => cases (hat.symm.trans hnone).symm.trans ht
  | status _ _ hat =>
    rw [hat, ht] at hnone
    cases hnone
  | assigned _ _ hat =>
    rw [hat, ht] at hnone
    cases hnone
  | removed hcascade _ hrow haway hold hstream _ =>
    cases ht.symm.trans hold
    subst hstream
    exact ⟨hcascade, DB.issued_of_streamAt hrow, haway⟩

theorem perform_preserved (ch : Choice) (o : Op) (w : World) : Preserved w.db (World.perform ch o w).2.db where
  issued := (World.perform_streams ch o w).issued
  streams _ _ hid hrow' := (World.perform_streams ch o w).identity hid hrow'
  cascade := (World.perform_tasks ch o w).cascade
  tasks := (World.perform_tasks ch o w).sublist
  kept _ _ ht' := (World.perform_tasks ch o w).kept ht'
  lost _ _ ht hgone := by
    obtain ⟨hcascade, hissued, haway⟩ := (World.perform_tasks ch o w).lost ht hgone
    exact ⟨hcascade, (World.perform_streams ch o w).issued hissued, haway⟩
  whole := (World.perform_tasks ch o w).whole

/-- The tasks that have an agent run ffmpeg. -/
def DB.startPushTasks (db : DB) : Nat := db.tasks.rows.countP fun t => t.action = actionStartPush

theorem DB.countRunning_le (db : DB) : db.countRunningFFmpegTasks ≤ db.startPushTasks := by
  show (db.tasks.rows.filter _).length ≤ db.tasks.rows.countP _
  rw [← List.countP_eq_length_filter]
  apply List.countP_mono_left
  intro t _ ht
  exact ((Bool.and_eq_true _ _).mp ht).2

theorem Preserved.startPushTasks_le {db db' : DB} (h : Preserved db db') :
    db'.startPushTasks ≤ db.startPushTasks := by
  have hview (db : DB) : db.startPushTasks =
      (db.tasks.rows.map AgentTask.identity).countP fun t => t.action = actionStartPush := by
    rw [List.countP_map]
    rfl
  rw [hview, hview]
  exact h.tasks.countP_le

namespace Api
open Concurrent

theorem World.perform_preserved (ch : Choice) (o : Op) (w : World) :
    Preserved w.base.db (World.perform ch o w).2.base.db := by
  cases o with
  | base o => exact LiveServer.perform_preserved ch o w.base
  | _ => exact .refl _

variable {g : Gateway} {w : World}

/-- What a run does to the database. -/
theorem Gateway.trace_preserved {c : ApiConfig} {ts : List ApiTransition} (h : g.machine.Trace c ts) :
    Preserved c.world.base.db (Machine.final c ts).world.base.db := by
  refine h.invariant (G := fun _ => True) (I := fun c' => Preserved c.world.base.db c'.world.base.db) ?_
    (fun _ _ => trivial) (.refl _)
  intro t hv _ hbefore
  refine hv.world (I := fun w' => Preserved c.world.base.db w'.base.db) hbefore ?_
  intro i ch call o k r w' hs
  have hstep := World.perform_preserved ch o t.before.world
  rw [show World.perform ch o t.before.world = (r, w') from hs.answer] at hstep
  exact hbefore.trans hstep

/-- **Records are permanent**: between any two moments of any run a stream that is there at
both has kept everything but its status, its times and its push credentials; a stream that
was deleted stays away; and the tasks are among those there were, in their order and but for
what agents report, a task being gone only where the schema cascades and with its stream. -/
theorem records_permanent {a b : List ApiTransition} (h : g.machine.Trace (.start w) (a ++ b)) :
    let before := (Machine.final (.start w) a).world.base.db
    let after := (Machine.final (.start w) (a ++ b)).world.base.db
    (∀ id row row', before.streamAt id = some row → after.streamAt id = some row' →
      row'.identity = row.identity) ∧
    (∀ id ∈ before.issued, before.streamAt id = none → after.streamAt id = none) ∧
    (after.tasks.rows.map AgentTask.identity).Sublist (before.tasks.rows.map AgentTask.identity) ∧
    (∀ id t, before.taskAt id = some t → after.taskAt id = none →
      w.base.db.cascade = true ∧ t.streamID ∈ after.issued ∧ after.streamAt t.streamID = none) ∧
    (w.base.db.cascade = false →
      after.tasks.rows.map AgentTask.identity = before.tasks.rows.map AgentTask.identity) := by
  obtain ⟨ha, hb⟩ := (Machine.trace_append a b).mp h
  have hcascade := (Gateway.trace_preserved ha).cascade
  have hpreserved := Gateway.trace_preserved hb
  rw [← Machine.final_append] at hpreserved
  refine ⟨?_, fun id hid hnone => hpreserved.away hid hnone, hpreserved.tasks, ?_, ?_⟩
  · intro id row row' hrow hrow'
    obtain ⟨row₀, hrow₀, heq⟩ := hpreserved.streams id row' (DB.issued_of_streamAt hrow) hrow'
    cases hrow.symm.trans hrow₀
    exact heq
  · intro id t ht hgone
    have hlost := hpreserved.lost id t ht hgone
    rw [hcascade] at hlost
    exact hlost
  · intro hno
    exact hpreserved.whole (hcascade.trans hno)

/-- A stream with a task, and the schema of the init script. -/
def cascadingDB : DB where
  streams := ⟨[{ id := sampleID, streamKey := lit "s", status := .created }], by decide, by decide⟩
  tasks := ⟨[{ sampleTask with streamID := sampleID }], by decide, by decide⟩
  issued := [sampleID]
  stream_issued := by decide
  cascade := true

/-- The sample stream is created, and then given another push token; and where the schema
cascades, a stream is deleted with its task. -/
theorem records_permanent_sample :
    (∃ a b row row', Gateway.sample.machine.Trace (.start .empty) (a ++ b) ∧
      (Machine.final (.start .empty) a).world.base.db.streamAt sampleID = some row ∧
      (Machine.final (.start .empty) (a ++ b)).world.base.db.streamAt sampleID = some row' ∧
      row'.pushToken ≠ row.pushToken ∧ row'.identity = row.identity) ∧
    ∃ (w : World) (ts : List ApiTransition), Gateway.sample.machine.Trace (.start w) ts ∧
      (w.base.db.taskAt sampleID).isSome ∧
      (Machine.final (.start w) ts).world.base.db.taskAt sampleID = none ∧
      (Machine.final (.start w) ts).world.base.db.streamAt sampleID = none := by
  constructor
  · obtain ⟨a, ha, hfin⟩ := Machine.exists_trace_serve Gateway.sample.machine (.start .empty)
      [(.request { sampleRequest .post "/api/streams" with authorization := sampleBearer },
        fun _ => { id := sampleID })]
    obtain ⟨b, hb, hfin'⟩ := Machine.exists_trace_serve Gateway.sample.machine (Machine.final (.start .empty) a)
      [(.request { sampleRequest .post "" with
          path := lit "/api/streams/" ++ sampleID ++ lit "/refresh-token"
          authorization := sampleBearer
          inputs := .sample 2 }, fun _ => {})]
    have htr := (Machine.trace_append a b).mpr ⟨ha, hb⟩
    have hrow : ((Machine.final (.start .empty) a).world.base.db.streamAt sampleID).map Stream.pushToken =
        some (sampleToken 1) := by
      rw [hfin]
      decide +kernel
    have hrow' : ((Machine.final (.start .empty) (a ++ b)).world.base.db.streamAt sampleID).map Stream.pushToken =
        some (sampleToken 2) := by
      rw [Machine.final_append, hfin', hfin]
      decide +kernel
    obtain ⟨row, hat, htoken⟩ := Option.map_eq_some_iff.mp hrow
    obtain ⟨row', hat', htoken'⟩ := Option.map_eq_some_iff.mp hrow'
    refine ⟨a, b, row, row', htr, hat, hat', ?_, (records_permanent htr).1 sampleID row row' hat hat'⟩
    rw [htoken, htoken']
    decide
  · let w : World := { World.empty with base := { LiveServer.World.empty with db := cascadingDB } }
    obtain ⟨ts, htr, hfin⟩ := Machine.exists_trace_serve Gateway.sample.machine (.start w)
      [(.request { sampleRequest .delete "" with
          path := lit "/api/streams/" ++ sampleID
          authorization := sampleBearer }, fun _ => {})]
    have htask : w.base.db.taskAt sampleID = some { sampleTask with streamID := sampleID } := by decide
    have hgone : (Machine.final (.start w) ts).world.base.db.taskAt sampleID = none := by
      rw [hfin]
      decide +kernel
    obtain ⟨_, _, _, hlost, _⟩ := records_permanent (a := []) (b := ts) htr
    exact ⟨w, ts, htr, by decide, hgone, (hlost sampleID _ htask hgone).2.2⟩

/-! ### The gauge -/

/-- The gauge is set to what was counted. -/
theorem guards_updateFFmpegProcesses (n : Nat) (call : Call) :
    (g.body call).Guards (fun o => o = .setFFmpegProcessesRunning n)
      fun e => e = ⟨.countRunningFFmpegTasks, .ok n⟩ := by
  cases call with
  | updateFFmpegProcesses =>
    apply Prog.guards_map
    refine Prog.guards_op_bind.mpr ⟨Op.noConfusion, ?_⟩
    rintro (e | count)
    · exact .inr trivial
    · by_cases hn : count = n
      · exact .inl (hn ▸ rfl)
      · refine .inr ⟨?_, fun _ => .inr trivial⟩
        intro heq
        exact hn (Op.setFFmpegProcessesRunning.inj heq)
  | _ =>
    refine ((g.body_allowed _).mono fun o ho => ?_).guards
    rintro rfl
    exact ho

/-- What a transition does to the gauge. -/
theorem gauge_cases {t : ApiTransition} (h : g.machine.Valid t) :
    t.after.world.ffmpegProcessesRunning = t.before.world.ffmpegProcessesRunning ∨
    ∃ i call ch, t.performed =
      some ⟨i, call, .setFFmpegProcessesRunning t.after.world.ffmpegProcessesRunning, ch⟩ := by
  rcases h.cases with ⟨call, hs⟩ | ⟨i, ch, call, o, k, r, w', hs⟩
  · left
    rw [hs.after]
  · have hworld : t.after.world = (World.perform ch o t.before.world).2 := hs.world_after
    have hp := hs.performed
    rw [hworld]
    cases o with
    | setFFmpegProcessesRunning count => exact .inr ⟨i, call, ch, hp⟩
    | _ => exact .inl rfl

/-- What the gauge shows was counted, unless it never was set. -/
theorem gauge_counted {ts : List ApiTransition} (h : g.machine.Trace (.start w) ts) :
    (Machine.final (.start w) ts).world.ffmpegProcessesRunning = w.ffmpegProcessesRunning ∨
    ∃ t ∈ ts, t.before.world.base.db.countRunningFFmpegTasks =
      (Machine.final (.start w) ts).world.ffmpegProcessesRunning := by
  induction ts using List.reverseRecOn with
  | nil => exact .inl rfl
  | append_singleton a t ih =>
    obtain ⟨ha, hbefore, hv, _⟩ := Machine.Trace.split h
    rw [Machine.final_append]
    show t.after.world.ffmpegProcessesRunning = _ ∨ ∃ u ∈ a ++ [t], _ = t.after.world.ffmpegProcessesRunning
    rcases gauge_cases hv with hkept | ⟨i, call, ch, hp⟩
    · rw [hkept, hbefore]
      exact (ih ha).imp_right fun ⟨u, hu, hcount⟩ => ⟨u, List.mem_append_left _ hu, hcount⟩
    · obtain ⟨u, hu, o, ch', _, heq⟩ := h.guarded rfl hp (guards_updateFFmpegProcesses _ call) rfl
      obtain ⟨rfl, hres⟩ := Prog.Event.mk.inj heq
      refine .inr ⟨u, List.mem_append_left _ hu, ?_⟩
      have hanswer : (if ch'.fault then Except.error GoError.backend
          else .ok u.before.world.base.db.countRunningFFmpegTasks) = .ok t.after.world.ffmpegProcessesRunning :=
        eq_of_heq hres
      split at hanswer
      · cases hanswer
      · exact Except.ok.inj hanswer

/-- **The gauge shows a count**: in every run it is as it was at the start, or the number of
tasks that were running with ffmpeg at some moment of the run; and then it is at most the
number of tasks there were for that from the start. -/
theorem ffmpeg_gauge_counted {ts : List ApiTransition} (h : g.machine.Trace (.start w) ts) :
    (Machine.final (.start w) ts).world.ffmpegProcessesRunning = w.ffmpegProcessesRunning ∨
    (∃ t ∈ ts, t.before.world.base.db.countRunningFFmpegTasks =
      (Machine.final (.start w) ts).world.ffmpegProcessesRunning) ∧
    (Machine.final (.start w) ts).world.ffmpegProcessesRunning ≤ w.base.db.startPushTasks := by
  refine (gauge_counted h).imp_right fun ⟨t, ht, hcount⟩ => ⟨⟨t, ht, hcount⟩, ?_⟩
  obtain ⟨a, b, rfl⟩ := List.append_of_mem ht
  obtain ⟨ha, hbefore, _, _⟩ := Machine.Trace.split h
  have htasks := (Gateway.trace_preserved ha).startPushTasks_le
  rw [← hbefore] at htasks
  rw [← hcount]
  exact t.before.world.base.db.countRunning_le.trans htasks

/-- An agent takes the sample task, and the running ones are counted. -/
theorem ffmpeg_gauge_counted_one : ∃ ts, Gateway.sample.machine.Trace (.start { World.empty with base := sampleTasks }) ts ∧
    ∃ t ∈ ts, t.before.world.base.db.countRunningFFmpegTasks = 1 := by
  obtain ⟨ts, htr, hfin⟩ := Machine.exists_trace_serve Gateway.sample.machine
    (.start { World.empty with base := sampleTasks })
    [(.request { sampleRequest .get "/api/agent/tasks" with rawQuery := lit "agent_id=a" }, fun _ => {}),
      (.updateFFmpegProcesses, fun _ => {})]
  have hgauge : (Machine.final (.start { World.empty with base := sampleTasks }) ts).world.ffmpegProcessesRunning = 1 := by
    rw [hfin]
    decide +kernel
  rcases ffmpeg_gauge_counted htr with hkept | ⟨⟨t, ht, hcount⟩, _⟩
  · rw [hgauge] at hkept
    cases hkept
  · exact ⟨ts, htr, t, ht, hcount.trans hgauge⟩

end Api
end LiveServer
