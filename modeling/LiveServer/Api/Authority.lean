import LiveServer.Api.Footprint

/-! Who can change the database.

Whatever requests and background jobs run beside each other, a step that changes the row of a
stream is a step of a request to one of five routes. Creating and deleting a stream and
replacing its push credentials takes a token that the JWT middleware accepts, for the stream
named in the path; the two callbacks, which take no token, write status and times only. The
rows of tasks are written by the two routes of the agents; nothing makes one, and where the
schema cascades a deleted stream takes its tasks with it. -/
namespace LiveServer.Api
open Concurrent Relational

namespace Gateway
variable (g : Gateway)

/-- What a request to a route may do to the row of a stream. -/
inductive MayChange (req : Request) (id param : Str) : Endpoint → Option Stream → Option Stream → Prop
  | create {row : Stream} : g.Authenticated req → MayChange req id param .createStream none (some row)
  | delete {row : Stream} : g.Authenticated req → uuidIn param = some id →
      MayChange req id param .deleteStream (some row) none
  | refresh {row : Stream} {token pushURL : Str} : g.Authenticated req → uuidIn param = some id →
      MayChange req id param .refreshToken (some row) (some (row.withPushAuth token pushURL))
  | publish {row : Stream} {extra : StatusExtra} :
      MayChange req id param .publish (some row) (some (row.withStatus .publishing extra))
  | unpublish {row : Stream} {extra : StatusExtra} :
      MayChange req id param .unpublish (some row) (some (row.withStatus .ended extra))

/-- What a request to a route may do to the row of a task. -/
inductive MayChangeTask (req : Request) (cascade : Bool) (id param : Str) :
    Endpoint → Option AgentTask → Option AgentTask → Prop
  | assigned {row : AgentTask} {agentID : Str} {now : Time} :
      MayChangeTask req cascade id param .tasks (some row) (some (row.assigned agentID now))
  | running {row : AgentTask} {errMsg : Str} {now : Time} :
      MayChangeTask req cascade id param .tasks (some row) (some (row.withStatus taskStatusRunning errMsg now))
  | reported {row : AgentTask} {status errMsg : Str} {now : Time} : uuidIn param = some id →
      MayChangeTask req cascade id param .updateTask (some row) (some (row.withStatus status errMsg now))
  | removed {row : AgentTask} : g.Authenticated req → cascade = true → uuidIn param = some row.streamID →
      MayChangeTask req cascade id param .deleteStream (some row) none

variable {g} {req : Request} {r : Route} {id param : Str} {db db' : DB}

/-- A row that a permitted call changes. -/
theorem mayChange_of_permitted {e : Endpoint} {o : LiveServer.Op} {res : o.Res} (hperm : Permitted e param o)
    (hauth : e.guarded = true → g.Authenticated req) (hchange : RowChange id db db' o res)
    (hne : db'.streamAt id ≠ db.streamAt id) :
    g.MayChange req id param e (db.streamAt id) (db'.streamAt id) := by
  cases hchange with
  | kept hkept => exact absurd hkept hne
  | created _ _ _ hfresh hnew =>
    have hold : db.streamAt id = none := by
      cases hat : db.streamAt id with
      | none => rfl
      | some row => exact absurd (DB.issued_of_streamAt hat) hfresh
    have he : e = .createStream := hperm
    subst he
    rw [hold, hnew]
    exact .create (hauth rfl)
  | status _ hnew =>
    cases hold : db.streamAt id with
    | none =>
      rw [hold] at hnew
      exact absurd (hnew.trans hold.symm) hne
    | some row =>
      rw [hnew, hold]
      rcases hperm with ⟨rfl, rfl⟩ | ⟨rfl, rfl⟩
      · exact .publish
      · exact .unpublish
  | pushAuth hu hnew =>
    obtain ⟨rfl, rfl⟩ := hperm
    cases hold : db.streamAt id with
    | none =>
      rw [hold] at hnew
      exact absurd (hnew.trans hold.symm) hne
    | some row =>
      rw [hnew, hold]
      exact .refresh (hauth rfl) hu
  | deleted hu hnew =>
    obtain ⟨rfl, rfl⟩ := hperm
    cases hold : db.streamAt id with
    | none => exact absurd (hnew.trans hold.symm) hne
    | some row =>
      rw [hnew]
      exact .delete (hauth rfl) hu

theorem mayChangeTask_of_permitted {e : Endpoint} {o : LiveServer.Op} (hperm : Permitted e param o)
    (hauth : e.guarded = true → g.Authenticated req) (hchange : TaskRowChange id db db' o)
    (hne : db'.taskAt id ≠ db.taskAt id) :
    g.MayChangeTask req db.cascade id param e (db.taskAt id) (db'.taskAt id) := by
  cases hchange with
  | kept hkept => exact absurd hkept hne
  | status hu hst hnew =>
    cases hold : db.taskAt id with
    | none =>
      rw [hold] at hnew
      exact absurd (hnew.trans hold.symm) hne
    | some row =>
      rw [hnew, hold]
      rcases hperm with ⟨rfl, rfl⟩ | ⟨rfl, rfl⟩
      · have hrunning : varchar 20 taskStatusRunning = some taskStatusRunning := by decide
        cases hst.symm.trans hrunning
        exact .running
      · exact .reported hu
  | assigned hu _ hnew =>
    have he : e = .tasks := hperm
    subst he
    cases hold : db.taskAt id with
    | none =>
      rw [hold] at hnew
      exact absurd (hnew.trans hold.symm) hne
    | some row =>
      rw [hnew, hold]
      exact .assigned
  | removed hcascade hu _ _ hold hstream hnew =>
    obtain ⟨rfl, rfl⟩ := hperm
    rw [hnew, hold]
    exact .removed (hauth rfl) hcascade (hstream ▸ hu)

/-- A step that changes the database performs a call of the service for a request. -/
theorem request_of_change {w : World} {ts : List ApiTransition} {t : ApiTransition}
    (h : g.machine.Trace (.start w) ts) (ht : t ∈ ts)
    (hne : t.after.world.base.db ≠ t.before.world.base.db) :
    ∃ i req o ch r params, t.performed = some ⟨i, .request req, .base o, ch⟩ ∧
      g.router.find req.method req.path = .route r params ∧ Permitted r.endpoint (params.headD []) o ∧
      (r.endpoint.guarded = true → g.Authenticated req) ∧
      t.after.world.base = (LiveServer.World.perform ch o t.before.world.base).2 := by
  rcases (h.valid ht).cases with ⟨call, hs⟩ | ⟨i, ch, call, o, k, res, w', hs⟩
  · rw [hs.after] at hne
    exact absurd rfl hne
  · have hallowed := allowed_of_steps h ht hs
    have hworld : t.after.world = (World.perform ch o t.before.world).2 := hs.world_after
    rw [hworld] at hne
    cases o with
    | base o =>
      have hstill (hquiet : o.isQuiet = true) : False := hne (perform_faded hquiet ch t.before.world.base).db
      cases call with
      | request req =>
        obtain ⟨r, params, hroute, hperm, hauth⟩ := hallowed
        exact ⟨i, req, o, ch, r, params, hs.performed, hroute, hperm, hauth, congrArg World.base hworld⟩
      | reconcile clock =>
        cases o with
        | listStreams _ => exact (hstill rfl).elim
        | getViewers _ => exact (hstill rfl).elim
        | set _ _ _ => exact (hstill rfl).elim
        | _ => exact hallowed.elim
      | pollViewers order =>
        cases o with
        | listAllClients => exact (hstill rfl).elim
        | setViewers key n =>
          refine absurd ?_ hne
          simp [World.perform, LiveServer.World.perform, LiveServer.World.answer]
        | _ => exact hallowed.elim
      | updateFFmpegProcesses => exact hallowed.elim
    | countRunningFFmpegTasks => exact absurd rfl hne
    | setFFmpegProcessesRunning n => exact absurd rfl hne
    | incHTTPRequestsTotal m p s => exact absurd rfl hne

end Gateway

/-- **Every change has its authority**, in every interleaving of requests and jobs: a changed
row of a stream or of a task is the work of a request whose route may do that. -/
theorem changes_authorised {g : Gateway} {w : World} {ts : List ApiTransition} {t : ApiTransition}
    (h : g.machine.Trace (.start w) ts) (ht : t ∈ ts) (id : Str) :
    (t.after.world.base.db.streamAt id ≠ t.before.world.base.db.streamAt id →
      ∃ i req o ch r params, t.performed = some ⟨i, .request req, o, ch⟩ ∧
        g.router.find req.method req.path = .route r params ∧
        g.MayChange req id (params.headD []) r.endpoint (t.before.world.base.db.streamAt id)
          (t.after.world.base.db.streamAt id)) ∧
    (t.after.world.base.db.taskAt id ≠ t.before.world.base.db.taskAt id →
      ∃ i req o ch r params, t.performed = some ⟨i, .request req, o, ch⟩ ∧
        g.router.find req.method req.path = .route r params ∧
        g.MayChangeTask req t.before.world.base.db.cascade id (params.headD []) r.endpoint
          (t.before.world.base.db.taskAt id) (t.after.world.base.db.taskAt id)) := by
  constructor
  · intro hne
    have hdb : t.after.world.base.db ≠ t.before.world.base.db := fun heq => hne (by rw [heq])
    obtain ⟨i, req, o, ch, r, params, hp, hroute, hperm, hauth, hworld⟩ := Gateway.request_of_change h ht hdb
    refine ⟨i, req, _, ch, r, params, hp, hroute, ?_⟩
    rw [hworld] at hne ⊢
    exact Gateway.mayChange_of_permitted hperm hauth ((LiveServer.World.perform_streams ch o _).row id) hne
  · intro hne
    have hdb : t.after.world.base.db ≠ t.before.world.base.db := fun heq => hne (by rw [heq])
    obtain ⟨i, req, o, ch, r, params, hp, hroute, hperm, hauth, hworld⟩ := Gateway.request_of_change h ht hdb
    refine ⟨i, req, _, ch, r, params, hp, hroute, ?_⟩
    rw [hworld] at hne ⊢
    exact Gateway.mayChangeTask_of_permitted hperm hauth ((LiveServer.World.perform_tasks ch o _).row id) hne

/-- The administrator creates the sample stream. -/
theorem changes_authorised_at_creation : ∃ ts t, Gateway.sample.machine.Trace (.start .empty) ts ∧ t ∈ ts ∧
    t.after.world.base.db.streamAt sampleID ≠ t.before.world.base.db.streamAt sampleID ∧
    ∃ i req o ch r params, t.performed = some ⟨i, .request req, o, ch⟩ ∧
      Gateway.sample.router.find req.method req.path = .route r params ∧
      Gateway.sample.MayChange req sampleID (params.headD []) r.endpoint
        (t.before.world.base.db.streamAt sampleID) (t.after.world.base.db.streamAt sampleID) := by
  obtain ⟨ts, htr, hP⟩ := Machine.exists_trace Gateway.sample.machine (.start .empty)
    [.spawn (.request { sampleRequest .post "/api/streams" with authorization := sampleBearer }),
      .step 0 { id := sampleID }]
    (fun ts => ts.any fun t =>
      decide (t.after.world.base.db.streamAt sampleID ≠ t.before.world.base.db.streamAt sampleID))
    (by decide +kernel)
  obtain ⟨t, ht, hne⟩ := List.any_eq_true.mp hP
  have hne := of_decide_eq_true hne
  exact ⟨ts, t, htr, ht, hne, (changes_authorised htr ht sampleID).1 hne⟩

end LiveServer.Api
