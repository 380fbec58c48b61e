import LiveServer.Api.Server
import LiveServer.Footprint
import LiveServer.Publishing.Reconciliation

/-! What each endpoint can do.

`Permitted` is the table: who may change what. `handle_permitted` says that every handler
keeps to it, and `serveRoute_permitted` that behind the JWT middleware nothing is done for a
request it does not let through. -/
namespace LiveServer.Api
open Concurrent

/-- The calls an endpoint may make with its path parameter; reading is free. -/
def Permitted (e : Endpoint) (param : Str) : LiveServer.Op → Prop
  | .createStream _ => e = .createStream
  | .updateStreamStatus _ status _ =>
    (e = .publish ∧ status = .publishing) ∨ (e = .unpublish ∧ status = .ended)
  | .updateStreamPushAuth id _ _ => e = .refreshToken ∧ id = param
  | .deleteStream id => e = .deleteStream ∧ id = param
  | .updateTaskStatus id status _ =>
    (e = .tasks ∧ status = taskStatusRunning) ∨ (e = .updateTask ∧ id = param)
  | .assignTask .. => e = .tasks
  | .setStreamStatus .. => e = .createStream ∨ e = .publish ∨ e = .unpublish
  | .setPlayURLs .. => e = .createStream
  | .incrViewers _ => e = .play
  | .decrViewers _ => e = .stop
  | .resetViewers _ => e = .unpublish
  | .setViewers .. => False
  | .deleteStreamCache id => e = .deleteStream ∧ id = param
  | .kickClient _ => e = .deleteStream ∨ e = .stopStream
  | .set .. => e = .publish ∨ e = .unpublish ∨ e = .play ∨ e = .stop
  | .deleteLabelValues .. => e = .unpublish
  | .inc .authFailuresTotal label =>
    (e = .login ∧ label = lit "admin") ∨ (e = .playAuth ∧ label = lit "play") ∨
      (e = .publish ∧ label = lit "publish")
  | .inc .srsCallbackErrorsTotal label => e = .publish ∧ label = lit "on_publish"
  | .inc .ffmpegRestartTotal _ => e = .updateTask
  | .getStreamByID _ | .getStreamByKey _ | .listStreams _ | .getPendingTasks _ | .getTaskByID _
  | .getStreamStatus _ | .getViewers _ | .findPublishingClient _ | .listAllClients => True

/-! ### The handlers -/

section
variable {P : LiveServer.Op → Prop}

theorem every_playAuth (s : StreamService) (now : Time) (key sign expire : Str)
    (hcount : P (.inc .authFailuresTotal (lit "play"))) : (AuthHandler.playAuth s now key sign expire).Every P := by
  have hreject (msg : String) : (AuthHandler.rejectPlay msg).Every P := ⟨hcount, fun _ => trivial⟩
  unfold AuthHandler.playAuth
  split
  · exact hreject _
  · split
    · exact hreject _
    · split
      · exact hreject _
      · split
        · exact hreject _
        · trivial

theorem every_login (h : Handlers) (now : Time) (body : Str)
    (hcount : P (.inc .authFailuresTotal (lit "admin"))) :
    (AuthHandler.login h.authCfg h.bindLogin h.signedString now body).Every P := by
  unfold AuthHandler.login
  split
  · trivial
  · split
    · exact ⟨hcount, fun _ => trivial⟩
    · split <;> trivial

end

namespace Gateway
variable (g : Gateway)

/-- Every handler keeps to the table. -/
theorem handle_permitted (req : Request) (param : Str) (e : Endpoint) :
    (g.handle req param e).Every (Permitted e param) := by
  cases e with
  | health => trivial
  | playback =>
    refine Prog.every_map _ (Prog.every_bind ?_ ?_)
    · refine ⟨trivial, ?_⟩
      rintro (e | stream) <;> trivial
    · rintro (e | stream) <;> trivial
  | login => exact Prog.every_map _ (every_login _ _ _ (.inl ⟨rfl, rfl⟩))
  | playAuth => exact Prog.every_map _ (Prog.every_map _ (every_playAuth _ _ _ _ _ (.inr (.inl ⟨rfl, rfl⟩))))
  | createStream =>
    apply Prog.every_map
    unfold StreamHandler.create
    split
    · trivial
    · refine Prog.every_bind (g.svc.every_createStream (fun _ _ => rfl) (fun _ _ => .inl rfl)
        fun _ _ => rfl) ?_
      rintro (e | stream) <;> trivial
  | listStreams =>
    refine Prog.every_map _ (Prog.every_bind (StreamService.every_listStreams fun _ => trivial) ?_)
    rintro (e | streams) <;> trivial
  | getStream =>
    refine Prog.every_map _ (Prog.every_bind (g.svc.every_getStream trivial trivial) ?_)
    rintro (e | stream) <;> trivial
  | deleteStream =>
    refine Prog.every_map _ (Prog.every_bind (g.svc.every_getStream trivial trivial) ?_)
    rintro (e | stream)
    · trivial
    · refine Prog.every_bind (g.svc.every_deleteStream trivial (fun _ => trivial) (fun _ => .inl rfl)
        ⟨rfl, rfl⟩ ⟨rfl, rfl⟩) ?_
      rintro (_ | e) <;> trivial
  | startStream =>
    refine Prog.every_map _ (Prog.every_bind (StreamService.every_startStream trivial) ?_)
    rintro (e | stream)
    · dsimp only
      split <;> trivial
    · trivial
  | stopStream =>
    refine Prog.every_map _ (Prog.every_bind (StreamService.every_stopStream trivial (fun _ => trivial)
      fun _ => .inr rfl) ?_)
    rintro (_ | e) <;> trivial
  | refreshToken =>
    refine Prog.every_map _ (Prog.every_bind (g.svc.every_refreshPushToken trivial fun _ _ => ⟨rfl, rfl⟩) ?_)
    rintro (e | stream) <;> trivial
  | publish =>
    refine Prog.every_map _ (Prog.every_map _ ?_)
    unfold CallbackHandler.publish
    split
    · trivial
    · refine Prog.every_bind (g.svc.every_onPublish trivial (.inr (.inr ⟨rfl, rfl⟩))
        (fun _ => .inl ⟨rfl, rfl⟩) (fun _ => trivial) (fun _ _ => .inr (.inl rfl)) fun _ _ _ => .inl rfl) ?_
      rintro (_ | e)
      · trivial
      · exact ⟨⟨rfl, rfl⟩, fun _ => trivial⟩
  | unpublish =>
    refine Prog.every_map _ (Prog.every_map _ ?_)
    unfold CallbackHandler.unpublish
    split
    · trivial
    · exact Prog.every_bind (g.svc.every_onUnpublish trivial (fun _ => .inr ⟨rfl, rfl⟩)
        (fun _ _ => .inr (.inr rfl)) (fun _ => rfl) (fun _ _ => .inr (.inl rfl)) fun _ _ => rfl)
        fun _ => trivial
  | play =>
    refine Prog.every_map _ (Prog.every_map _ ?_)
    unfold CallbackHandler.play
    split
    · trivial
    · exact Prog.every_bind (g.svc.every_countViewer trivial (fun _ => ⟨rfl, fun _ => trivial⟩)
        fun _ _ => .inr (.inr (.inl rfl))) fun _ => trivial
  | stop =>
    refine Prog.every_map _ (Prog.every_map _ ?_)
    unfold CallbackHandler.stop
    split
    · trivial
    · exact Prog.every_bind (g.svc.every_countViewer trivial (fun _ => ⟨rfl, fun _ => trivial⟩)
        fun _ _ => .inr (.inr (.inr rfl))) fun _ => trivial
  | tasks =>
    refine Prog.every_map _ (Prog.every_bind (StreamService.every_getTasks trivial (fun _ => rfl)
      fun _ _ => .inl ⟨rfl, rfl⟩) ?_)
    rintro (_ | tasks) <;> trivial
  | updateTask =>
    apply Prog.every_map
    show (AgentHandler.serveUpdateTask g.bindTaskUpdate param req.body).Every _
    unfold AgentHandler.serveUpdateTask
    split
    · trivial
    · refine Prog.every_bind (StreamService.every_updateTask (.inr ⟨rfl, rfl⟩) trivial fun _ => rfl) ?_
      rintro (_ | _) <;> trivial
  | heartbeat =>
    apply Prog.every_map
    show (AgentHandler.heartbeat g.bindHeartbeat req.body).Every _
    unfold AgentHandler.heartbeat
    split <;> trivial

/-- The request is let through by the middleware. -/
def Authenticated (req : Request) : Prop :=
  ∃ claims, jwtAuth g.jwt g.authCfg.jwtSecret req.checkedAt req.authorization = .ok claims

instance (req : Request) : Decidable (g.Authenticated req) :=
  match h : jwtAuth g.jwt g.authCfg.jwtSecret req.checkedAt req.authorization with
  | .ok claims => isTrue ⟨claims, h⟩
  | .error _ => isFalse (by intro ⟨_, hok⟩; rw [h] at hok; cases hok)

/-- Behind the middleware nothing is done for a request that is not let through. -/
theorem serveRoute_permitted (req : Request) (r : Route) (params : List Str) :
    (g.serveRoute req r params).Every fun o =>
      Permitted r.endpoint (params.headD []) o ∧ (r.endpoint.guarded = true → g.Authenticated req) := by
  unfold serveRoute
  split
  · split
    · trivial
    · rename_i claims hauth
      exact (g.handle_permitted req _ _).mono fun o ho => ⟨ho, fun _ => ⟨claims, hauth⟩⟩
  · rename_i hopen
    exact (g.handle_permitted req _ _).mono fun o ho => ⟨ho, fun h => absurd h hopen⟩

/-! ### Calls -/

/-- What a call may do: a request what its endpoint may and be counted, a job of the
background nothing to the database. -/
def Allowed : Call → Op → Prop
  | .request req, .base o => ∃ r params, g.router.find req.method req.path = .route r params ∧
      Permitted r.endpoint (params.headD []) o ∧ (r.endpoint.guarded = true → g.Authenticated req)
  | .request _, .incHTTPRequestsTotal .. => True
  | .reconcile _, .base (.listStreams _) => True
  | .reconcile _, .base (.getViewers _) => True
  | .reconcile _, .base (.set ..) => True
  | .pollViewers _, .base .listAllClients => True
  | .pollViewers _, .base (.setViewers ..) => True
  | .updateFFmpegProcesses, .countRunningFFmpegTasks => True
  | .updateFFmpegProcesses, .setFFmpegProcessesRunning _ => True
  | _, _ => False

theorem serve_allowed (req : Request) : (g.serve req).Every (g.Allowed (.request req)) := by
  rcases g.serve_cases req with ⟨status, _, h⟩ | ⟨_, _, h⟩ | ⟨_, _, h⟩ | ⟨r, params, hroute, h⟩
  · rw [h]
    trivial
  · rw [h]
    exact ⟨trivial, fun _ => trivial⟩
  · rw [h]
    trivial
  · rw [h]
    refine Prog.every_bind (Prog.every_lift ?_) fun _ => ⟨trivial, fun _ => trivial⟩
    exact (g.serveRoute_permitted req r params).mono fun o ho => ⟨r, params, hroute, ho⟩

theorem every_pollViewers {P : LiveServer.Op → Prop} (hlist : P .listAllClients)
    (hset : ∀ key n, P (.setViewers key n)) (order : Loops.MapOrder Str) :
    (LiveServer.pollViewers order).Every P := by
  refine Prog.every_op_bind.mpr ⟨hlist, ?_⟩
  rintro (e | clients)
  · trivial
  · apply Prog.every_forEach
    intro key
    exact ⟨hset key _, fun _ => trivial⟩

theorem body_allowed (call : Call) : (g.body call).Every (g.Allowed call) := by
  cases call with
  | request req => exact Prog.every_map _ (g.serve_allowed req)
  | reconcile clock =>
    refine Prog.every_map _ (Prog.every_lift ?_)
    exact every_reconcile trivial (fun _ _ _ => trivial) (fun _ => trivial) _ clock
  | pollViewers order =>
    show (if g.svc.cache && g.polling then _ else _ : Program _).Every _
    split
    · exact Prog.every_map _ (Prog.every_lift (every_pollViewers trivial (fun _ _ => trivial) order))
    · trivial
  | updateFFmpegProcesses =>
    refine Prog.every_map _ (Prog.every_op_bind.mpr ⟨trivial, ?_⟩)
    rintro (e | count)
    · trivial
    · exact ⟨trivial, fun _ => trivial⟩

/-- Every call has only allowed things left to do. -/
def Lawful (c : ApiConfig) : Prop := ∀ th ∈ c.threads, th.rest.Every (g.Allowed th.call)

variable {g} {t : ApiTransition} {ts : List ApiTransition} {w : World}

theorem Lawful.step (hv : g.machine.Valid t) (h : g.Lawful t.before) : g.Lawful t.after :=
  Machine.threads_step (H := fun call p => p.Every (g.Allowed call)) g.body_allowed
    (fun _ _ _ r hc => hc.2 r) hv h

/-- Whatever a run performs was allowed to who performed it. -/
theorem allowed_of_steps (h : g.machine.Trace (.start w) ts) (ht : t ∈ ts) {i : Nat} {ch : Choice} {call : Call}
    {o : Op} {k : o.Res → Program (Option Answer)} {r : o.Res} {w' : World}
    (hs : g.machine.Steps t i ch call o k r w') : g.Allowed call o := by
  have hlawful : g.Lawful t.before := h.invariant_before (G := fun _ => True)
    (fun _ hv _ hl => Lawful.step hv hl) (fun _ _ => trivial) (fun _ hth => absurd hth List.not_mem_nil) ht
  exact (hlawful _ hs.mem).1

end Gateway
end LiveServer.Api
