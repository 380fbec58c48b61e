import LiveServer.Alone
import LiveServer.Api.Footprint
import LiveServer.Concurrent.Delegation
import LiveServer.Concurrent.Serial

/-! The HTTP server in terms of the service.

What an endpoint does besides calling the service is to decode, to count and to answer. Here
every endpoint is written as such a plan, with the calls of the service as single operations
(`Gateway.plan`), and putting their programs in gives the server back (`Gateway.body_expand`).

So whatever happens over HTTP happens in a run of the service: `http_refines_service`. What is
proved about all interleavings of the service's calls holds behind the router, the middleware
and the handlers. -/
namespace LiveServer

/-! ### What calls reply -/

namespace Reply

def toStream : Reply → Except GoError Stream
  | .stream r => r
  | _ => .error .backend

def toError : Reply → Option GoError
  | .error e => e
  | _ => none

def toTasks : Reply → Option (List AgentTask)
  | .tasks r => r
  | _ => none

def toUpdated : Reply → Bool
  | .updated ok => ok
  | _ => false

end Reply

namespace Api
open Concurrent

/-- What an endpoint does, in terms of the calls of the service. -/
abbrev Handling (α : Type) := Plan Op Op.Res LiveServer.Call Reply α

namespace Handling

def call (c : LiveServer.Call) : Handling Reply := .op (Order.delegate c)

/-- What is done without a call. -/
def own (p : Program α) : Handling α := p.lift Order.own fun _ r => r

def createStream (inp : Inputs) (req : CreateStreamRequest) : Handling (Except GoError Stream) :=
  Reply.toStream <$> call (.createStream inp req)

def getStream (id : Str) : Handling (Except GoError Stream) := Reply.toStream <$> call (.getStream id)

def deleteStream (id : Str) : Handling (Option GoError) := Reply.toError <$> call (.deleteStream id)

def startStream (id : Str) : Handling (Except GoError Stream) := Reply.toStream <$> call (.startStream id)

def stopStream (id : Str) : Handling (Option GoError) := Reply.toError <$> call (.stopStream id)

def refreshPushToken (inp : Inputs) (id : Str) : Handling (Except GoError Stream) :=
  Reply.toStream <$> call (.refreshPushToken inp id)

def onPublish (now : Time) (streamKey token : Str) : Handling (Option GoError) :=
  Reply.toError <$> call (.onPublish 0 now streamKey token)

def onUnpublish (now : Time) (streamKey : Str) : Handling (Option GoError) :=
  Reply.toError <$> call (.onUnpublish 0 now streamKey)

def onPlay (streamKey : Str) : Handling Unit := (fun _ => ()) <$> call (.onPlay streamKey)

def onStop (streamKey : Str) : Handling Unit := (fun _ => ()) <$> call (.onStop streamKey)

def getTasks (agentID : Str) : Handling (Option (List AgentTask)) := Reply.toTasks <$> call (.getTasks agentID)

def updateTask (taskID status errorMsg : Str) : Handling Bool :=
  Reply.toUpdated <$> call (.updateTask taskID status errorMsg)

end Handling

namespace Gateway
variable (g : Gateway)

/-- The handlers. Those that make no call of the service are as they are. -/
def handling (req : Request) (param : Str) : Endpoint → Handling Answer
  | .createStream =>
    match g.bindCreate req.body with
    | .error err => return .stream (.error 400 codeInvalidParam ("invalid request: " ++ err))
    | .ok r => do
      match ← Handling.createStream req.inputs r with
      | .error _ => return .stream (.error 500 codeInternal "failed to create stream")
      | .ok stream => return .stream (.success (.stream stream))
  | .getStream => do
    match ← Handling.getStream param with
    | .error err => return .stream (.failure err "failed to get stream")
    | .ok stream => return .stream (.success (.stream stream))
  | .deleteStream => do
    match ← Handling.getStream param with
    | .error err => return .stream (.failure err "failed to get stream")
    | .ok _ =>
      match ← Handling.deleteStream param with
      | some _ => return .stream (.error 500 codeInternal "failed to delete stream")
      | none => return .stream (.success .null)
  | .startStream => do
    match ← Handling.startStream param with
    | .error err =>
      if err.isNotFound then return .stream (.error 404 codeNotFound "stream not found")
      else return .stream (.error 409 codeConflict (GoError.message g.backendText err))
    | .ok stream => return .stream (.success (.push "ready" stream.streamKey stream.pushURL))
  | .stopStream => do
    match ← Handling.stopStream param with
    | some err => return .stream (.failure err "failed to stop stream")
    | none => return .stream (.success (.status "stop_requested"))
  | .refreshToken => do
    match ← Handling.refreshPushToken req.inputs param with
    | .error _ => return .stream (.error 500 codeInternal "failed to refresh push token")
    | .ok stream => return .stream (.success (.stream stream))
  | .publish =>
    match g.bindCallback req.body with
    | none => return .open Response.allow.answer
    | some cb => do
      let auth := parsePushAuth cb.stream cb.param
      match ← Handling.onPublish req.now auth.1 auth.2.1 with
      | some _ =>
        Handling.own (base (metrics.inc .srsCallbackErrorsTotal (lit "on_publish")))
        return .open Response.unauthorized.answer
      | none => return .open Response.allow.answer
  | .unpublish =>
    match g.bindCallback req.body with
    | none => return .open Response.allow.answer
    | some cb => do
      let _ ← Handling.onUnpublish req.now (parsePushAuth cb.stream cb.param).1
      return .open Response.allow.answer
  | .play =>
    match g.bindCallback req.body with
    | none => return .open Response.allow.answer
    | some cb => do
      Handling.onPlay (parsePushAuth cb.stream cb.param).1
      return .open Response.allow.answer
  | .stop =>
    match g.bindCallback req.body with
    | none => return .open Response.allow.answer
    | some cb => do
      Handling.onStop (parsePushAuth cb.stream cb.param).1
      return .open Response.allow.answer
  | .tasks => do
    match ← Handling.getTasks (req.query (lit "agent_id")) with
    | none => return .open (.error 500 codeInternal "failed to fetch tasks")
    | some tasks => return .open (.success (.tasks tasks))
  | .updateTask =>
    match g.bindTaskUpdate req.body with
    | .error err => return .open (.error 400 codeInvalidParam ("invalid request: " ++ err))
    | .ok r => do
      if ← Handling.updateTask param r.status r.errorMsg then return .open (.success .null)
      else return .open (.error 500 codeInternal "failed to update task")
  | e => Handling.own (base (g.handle req param e))

def handlingRoute (req : Request) (r : Route) (params : List Str) : Handling Answer :=
  if r.endpoint.guarded then
    match jwtAuth g.jwt g.authCfg.jwtSecret req.checkedAt req.authorization with
    | .error refusal => return .refused refusal
    | .ok _ => g.handling req (params.headD []) r.endpoint
  else g.handling req (params.headD []) r.endpoint

def serving (req : Request) : Handling Answer :=
  match g.router.find req.method req.path with
  | .route r params => do
    let answer ← g.handlingRoute req r params
    Handling.own (incHTTPRequestsTotal req.method.name r.template answer.status)
    return answer
  | _ => Handling.own (g.serve req)

/-- The plan of a call. Jobs of the background make no call of the service. -/
def plan : Call → Handling (Option Answer)
  | .request req => some <$> g.serving req
  | job => Handling.own (g.body job)

end Gateway

/-! ### Putting the programs in -/

section
variable (s : StreamService)

/-- The handling with the service's programs in it. -/
def Handling.expand (h : Handling α) : Program α := Plan.expand s.body Op.base (fun _ r => r) h

theorem Handling.expand_bind (h : Handling α) (f : α → Handling β) :
    Handling.expand s (h >>= f) = Handling.expand s h >>= fun a => Handling.expand s (f a) :=
  Plan.expand_bind h f

theorem Handling.expand_own (p : Program α) : Handling.expand s (Handling.own p) = p := Plan.expand_own p

theorem base_bind (x : Server α) (f : α → Server β) : base (x >>= f) = base x >>= fun a => base (f a) :=
  Prog.lift_bind x f

variable {s}

/-- A call whose reply wraps the result of a program. -/
theorem Handling.expand_call {wrap : α → Reply} {unwrap : Reply → α} (hwrap : ∀ a, unwrap (wrap a) = a)
    {c : LiveServer.Call} {p : Server α} (hbody : s.body c = wrap <$> p) :
    Handling.expand s (unwrap <$> call c) = base p := by
  have hunwrapped : s.body c >>= (fun r => pure (unwrap r)) = p := by
    rw [hbody]
    show p >>= (fun a => pure (wrap a)) >>= _ = p
    rw [Prog.bind_assoc]
    show p >>= (fun a => pure (unwrap (wrap a))) = p
    simp only [hwrap]
    exact Prog.bind_pure p
  show base (s.body c) >>= (fun r => base (pure (unwrap r))) = base p
  rw [← base_bind, hunwrapped]

/-- A call and what is made of its result. -/
theorem Handling.expand_then {h : Handling α} {f : α → Handling β} {x : Server α} {k : α → Server β}
    (hx : Handling.expand s h = base x) (hf : ∀ a, Handling.expand s (f a) = base (k a)) :
    Handling.expand s (h >>= f) = base (x >>= k) := by
  rw [Handling.expand_bind, hx, base_bind]
  congr 1
  funext a
  exact hf a

end

namespace Gateway
variable (g : Gateway)

/-- **The handlers are what they were.** -/
theorem handling_expand (req : Request) (param : Str) (e : Endpoint) :
    Handling.expand g.svc (g.handling req param e) = base (g.handle req param e) := by
  cases e with
  | createStream =>
    simp only [handling, handle, StreamHandler.create]
    cases g.bindCreate req.body with
    | error err => rfl
    | ok r =>
      dsimp only
      rw [Prog.map_bind]
      apply Handling.expand_then (Handling.expand_call (fun _ => rfl) rfl)
      rintro (e | stream) <;> rfl
  | getStream =>
    simp only [handling, handle, StreamHandler.get]
    rw [Prog.map_bind]
    apply Handling.expand_then (Handling.expand_call (fun _ => rfl) rfl)
    rintro (e | stream) <;> rfl
  | deleteStream =>
    simp only [handling, handle, StreamHandler.delete]
    rw [Prog.map_bind]
    apply Handling.expand_then (Handling.expand_call (fun _ => rfl) rfl)
    rintro (e | stream)
    · rfl
    · dsimp only
      rw [Prog.map_bind]
      apply Handling.expand_then (Handling.expand_call (fun _ => rfl) rfl)
      rintro (_ | e) <;> rfl
  | startStream =>
    simp only [handling, handle, StreamHandler.start]
    rw [Prog.map_bind]
    apply Handling.expand_then (Handling.expand_call (fun _ => rfl) rfl)
    rintro (e | stream)
    · dsimp only
      split <;> rfl
    · rfl
  | stopStream =>
    simp only [handling, handle, StreamHandler.stop]
    rw [Prog.map_bind]
    apply Handling.expand_then (Handling.expand_call (fun _ => rfl) rfl)
    rintro (_ | e) <;> rfl
  | refreshToken =>
    simp only [handling, handle, AuthHandler.refreshToken]
    rw [Prog.map_bind]
    apply Handling.expand_then (Handling.expand_call (fun _ => rfl) rfl)
    rintro (e | stream) <;> rfl
  | publish =>
    simp only [handling, handle, Handlers.serve, CallbackHandler.publish, handlers]
    cases g.bindCallback req.body with
    | none => rfl
    | some cb =>
      dsimp only
      rw [Prog.map_bind, Prog.map_bind]
      apply Handling.expand_then (Handling.expand_call (fun _ => rfl) rfl)
      rintro (_ | e) <;> rfl
  | unpublish =>
    simp only [handling, handle, Handlers.serve, CallbackHandler.unpublish, handlers]
    cases g.bindCallback req.body with
    | none => rfl
    | some cb =>
      dsimp only
      rw [Prog.map_bind, Prog.map_bind]
      exact Handling.expand_then (Handling.expand_call (fun _ => rfl) rfl) fun _ => rfl
  | play =>
    simp only [handling, handle, Handlers.serve, CallbackHandler.play, handlers]
    cases g.bindCallback req.body with
    | none => rfl
    | some cb =>
      dsimp only
      rw [Prog.map_bind, Prog.map_bind]
      exact Handling.expand_then (Handling.expand_call (fun _ => rfl) rfl) fun _ => rfl
  | stop =>
    simp only [handling, handle, Handlers.serve, CallbackHandler.stop, handlers]
    cases g.bindCallback req.body with
    | none => rfl
    | some cb =>
      dsimp only
      rw [Prog.map_bind, Prog.map_bind]
      exact Handling.expand_then (Handling.expand_call (fun _ => rfl) rfl) fun _ => rfl
  | tasks =>
    simp only [handling, handle, Handlers.serve, AgentHandler.serveTasks]
    rw [Prog.map_bind]
    apply Handling.expand_then (Handling.expand_call (fun _ => rfl) rfl)
    rintro (_ | tasks) <;> rfl
  | updateTask =>
    simp only [handling, handle, Handlers.serve, AgentHandler.serveUpdateTask, handlers]
    cases g.bindTaskUpdate req.body with
    | error err => rfl
    | ok r =>
      dsimp only
      rw [Prog.map_bind]
      apply Handling.expand_then (Handling.expand_call (fun _ => rfl) rfl)
      rintro (_ | _) <;> rfl
  | _ => exact Handling.expand_own g.svc _

theorem handlingRoute_expand (req : Request) (r : Route) (params : List Str) :
    Handling.expand g.svc (g.handlingRoute req r params) = base (g.serveRoute req r params) := by
  unfold handlingRoute serveRoute
  split
  · cases jwtAuth g.jwt g.authCfg.jwtSecret req.checkedAt req.authorization with
    | error refusal => rfl
    | ok claims => exact g.handling_expand req _ _
  · exact g.handling_expand req _ _

theorem serving_expand (req : Request) : Handling.expand g.svc (g.serving req) = g.serve req := by
  unfold serving
  cases htarget : g.router.find req.method req.path with
  | redirect status => exact Handling.expand_own g.svc _
  | noRoute => exact Handling.expand_own g.svc _
  | route r params =>
    rw [g.serve_route htarget, Handling.expand_bind, handlingRoute_expand]
    rfl

/-- **The server is its plan** with the programs of the service in it. -/
theorem plan_expand (call : Call) : Handling.expand g.svc (g.plan call) = g.body call := by
  cases call with
  | request req =>
    show Handling.expand g.svc (g.serving req >>= fun a => pure (some a)) = some <$> g.serve req
    rw [Handling.expand_bind, serving_expand]
    rfl
  | _ => exact Handling.expand_own g.svc _

end Gateway

/-! ### What plans do themselves -/

/-- What is done without a call leaves the tables and Redis alone. -/
def Op.IsOwn : Op → Prop
  | .base o => o.isQuiet = true
  | _ => True

theorem Handling.keeps_own {p : Program α} (h : p.Every Op.IsOwn) : (Handling.own p).Every (Plan.Keeps Op.IsOwn) :=
  Prog.every_lift h

/-- A call is not the plan's own. -/
theorem Handling.keeps_call {unwrap : Reply → α} {c : LiveServer.Call} {f : α → Handling β}
    (hf : ∀ a, (f a).Every (Plan.Keeps Op.IsOwn)) : (unwrap <$> Handling.call c >>= f).Every (Plan.Keeps Op.IsOwn) :=
  Prog.every_bind (Prog.every_map unwrap ⟨trivial, fun _ => trivial⟩) hf

/-- The endpoints that make no call of the service write to neither store. -/
theorem quiet_of_permitted {e : Endpoint} {param : Str} {o : LiveServer.Op} (h : Permitted e param o)
    (he : e ∈ [.health, .playback, .login, .playAuth, .listStreams, .heartbeat]) : o.isQuiet = true := by
  have hnot {e' : Endpoint} (heq : e = e')
      (hno : e' ∉ [.health, .playback, .login, .playAuth, .listStreams, .heartbeat]) : False :=
    hno (heq ▸ he)
  cases o with
  | createStream _ => exact (hnot h (by decide)).elim
  | updateStreamStatus _ _ _ =>
    rcases h with ⟨heq, _⟩ | ⟨heq, _⟩
    · exact (hnot heq (by decide)).elim
    · exact (hnot heq (by decide)).elim
  | updateStreamPushAuth _ _ _ => exact (hnot h.1 (by decide)).elim
  | deleteStream _ => exact (hnot h.1 (by decide)).elim
  | updateTaskStatus _ _ _ =>
    rcases h with ⟨heq, _⟩ | ⟨heq, _⟩
    · exact (hnot heq (by decide)).elim
    · exact (hnot heq (by decide)).elim
  | assignTask _ _ => exact (hnot h (by decide)).elim
  | setStreamStatus _ _ =>
    rcases h with heq | heq | heq
    · exact (hnot heq (by decide)).elim
    · exact (hnot heq (by decide)).elim
    · exact (hnot heq (by decide)).elim
  | setPlayURLs _ _ => exact (hnot h (by decide)).elim
  | incrViewers _ => exact (hnot h (by decide)).elim
  | decrViewers _ => exact (hnot h (by decide)).elim
  | resetViewers _ => exact (hnot h (by decide)).elim
  | setViewers _ _ => exact h.elim
  | deleteStreamCache _ => exact (hnot h.1 (by decide)).elim
  | _ => rfl

namespace Gateway
variable (g : Gateway)

theorem handling_keeps (req : Request) (param : Str) (e : Endpoint) :
    (g.handling req param e).Every (Plan.Keeps Op.IsOwn) := by
  have hown (he : e ∈ [.health, .playback, .login, .playAuth, .listStreams, .heartbeat]) :
      (Handling.own (base (g.handle req param e))).Every (Plan.Keeps Op.IsOwn) := by
    apply Handling.keeps_own
    apply Prog.every_lift
    exact (g.handle_permitted req param e).mono fun o ho => quiet_of_permitted ho he
  cases e with
  | createStream =>
    simp only [handling]
    split
    · trivial
    · apply Handling.keeps_call
      rintro (e | stream) <;> trivial
  | getStream =>
    apply Handling.keeps_call
    rintro (e | stream) <;> trivial
  | deleteStream =>
    apply Handling.keeps_call
    rintro (e | stream)
    · trivial
    · apply Handling.keeps_call
      rintro (_ | e) <;> trivial
  | startStream =>
    apply Handling.keeps_call
    rintro (e | stream)
    · dsimp only
      split <;> trivial
    · trivial
  | stopStream =>
    apply Handling.keeps_call
    rintro (_ | e) <;> trivial
  | refreshToken =>
    apply Handling.keeps_call
    rintro (e | stream) <;> trivial
  | publish =>
    simp only [handling]
    split
    · trivial
    · apply Handling.keeps_call
      rintro (_ | e)
      · trivial
      · exact ⟨rfl, fun _ => trivial⟩
  | unpublish =>
    simp only [handling]
    split
    · trivial
    · exact Handling.keeps_call fun _ => trivial
  | play =>
    simp only [handling]
    split
    · trivial
    · exact Handling.keeps_call fun _ => trivial
  | stop =>
    simp only [handling]
    split
    · trivial
    · exact Handling.keeps_call fun _ => trivial
  | tasks =>
    apply Handling.keeps_call
    rintro (_ | tasks) <;> trivial
  | updateTask =>
    simp only [handling]
    split
    · trivial
    · apply Handling.keeps_call
      rintro (_ | _) <;> trivial
  | _ => exact hown (by decide)

theorem plan_keeps (hpoll : g.polling = false) (call : Call) : (g.plan call).Every (Plan.Keeps Op.IsOwn) := by
  cases call with
  | request req =>
    apply Prog.every_map
    unfold serving
    split
    · refine Prog.every_bind ?_ fun _ => ⟨trivial, fun _ => trivial⟩
      unfold handlingRoute
      split
      · split
        · trivial
        · exact g.handling_keeps req _ _
      · exact g.handling_keeps req _ _
    · rename_i hnone
      apply Handling.keeps_own
      refine Prog.Every.mono ?_ (g.serve_allowed req)
      intro o ho
      cases o with
      | base o =>
        obtain ⟨r, params, hroute, _⟩ := ho
        exact (hnone r params hroute).elim
      | _ => trivial
  | reconcile clock =>
    apply Handling.keeps_own
    refine Prog.Every.mono ?_ (g.body_allowed (.reconcile clock))
    intro o ho
    cases o with
    | base o =>
      cases o with
      | listStreams _ => rfl
      | getViewers _ => rfl
      | set _ _ _ => rfl
      | _ => exact ho.elim
    | _ => trivial
  | pollViewers order =>
    apply Handling.keeps_own
    simp [body, hpoll]
  | updateFFmpegProcesses =>
    apply Handling.keeps_own
    refine Prog.Every.mono ?_ (g.body_allowed .updateFFmpegProcesses)
    intro o ho
    cases o with
    | base o => exact ho.elim
    | _ => trivial

end Gateway

/-! ### What the two have in common -/

/-- The same tables, and in Redis what has not expired since. -/
structure Mirrors (w w₀ : LiveServer.World) : Prop where
  db : w.db = w₀.db
  redis : ∃ keys, w.redis = w₀.redis.expire keys

theorem perform_own {o : LiveServer.Op} (h : o.isQuiet = true) (ch : Choice) (w : LiveServer.World) :
    (LiveServer.World.perform ch o w).2.db = w.db ∧
      (LiveServer.World.perform ch o w).2.redis = w.redis.expire ch.expired := by
  cases o <;> first | exact ⟨rfl, rfl⟩ | cases h

section
variable {db : DB} {redis : Redis} {m m₀ : Metrics} {ch : Choice}

/-- The same but for the metrics. -/
def SameButMetrics (x y : β × LiveServer.World) : Prop :=
  x.1 = y.1 ∧ x.2.db = y.2.db ∧ x.2.redis = y.2.redis

theorem same_write (r : Except GoError DB) : SameButMetrics (LiveServer.World.write ⟨db, redis, m⟩ ch r)
    (LiveServer.World.write ⟨db, redis, m₀⟩ ch r) := by
  unfold LiveServer.World.write
  split
  · exact ⟨rfl, rfl, rfl⟩
  · cases r <;> exact ⟨rfl, rfl, rfl⟩

theorem same_insert (r : Except GoError (Stream × DB)) : SameButMetrics (LiveServer.World.insert ⟨db, redis, m⟩ ch r)
    (LiveServer.World.insert ⟨db, redis, m₀⟩ ch r) := by
  unfold LiveServer.World.insert
  split
  · exact ⟨rfl, rfl, rfl⟩
  · cases r <;> exact ⟨rfl, rfl, rfl⟩

theorem same_cacheWrite (r : Redis) : SameButMetrics (LiveServer.World.cacheWrite ⟨db, redis, m⟩ ch r)
    (LiveServer.World.cacheWrite ⟨db, redis, m₀⟩ ch r) := by
  unfold LiveServer.World.cacheWrite
  split <;> exact ⟨rfl, rfl, rfl⟩

theorem same_cacheCount (r : Except GoError (Int × Redis)) :
    SameButMetrics (LiveServer.World.cacheCount ⟨db, redis, m⟩ ch r)
      (LiveServer.World.cacheCount ⟨db, redis, m₀⟩ ch r) := by
  unfold LiveServer.World.cacheCount
  split
  · exact ⟨rfl, rfl, rfl⟩
  · cases r <;> exact ⟨rfl, rfl, rfl⟩

/-- Nothing but gauges and counters depends on gauges and counters. -/
theorem same_answer (o : LiveServer.Op) : SameButMetrics (LiveServer.World.answer ch o ⟨db, redis, m⟩)
    (LiveServer.World.answer ch o ⟨db, redis, m₀⟩) := by
  cases o with
  | createStream s => exact same_insert _
  | updateStreamStatus id status extra => exact same_write _
  | updateStreamPushAuth id token pushURL => exact same_write _
  | deleteStream id => exact same_write _
  | updateTaskStatus id status errMsg => exact same_write _
  | assignTask id agentID => exact same_write _
  | setStreamStatus id data => exact same_cacheWrite _
  | setPlayURLs id data => exact same_cacheWrite _
  | incrViewers id => exact same_cacheCount _
  | decrViewers id => exact same_cacheCount _
  | resetViewers id => exact same_cacheWrite _
  | setViewers id count => exact same_cacheWrite _
  | deleteStreamCache id => exact same_cacheWrite _
  | _ => exact ⟨rfl, rfl, rfl⟩

end

/-- A call does the same to both, if what has expired before has by then. -/
theorem Mirrors.perform {w w₀ : LiveServer.World} (h : Mirrors w w₀) (ch : Choice) (o : LiveServer.Op) :
    ∃ ch₀, (LiveServer.World.perform ch o w).1 = (LiveServer.World.perform ch₀ o w₀).1 ∧
      Mirrors (LiveServer.World.perform ch o w).2 (LiveServer.World.perform ch₀ o w₀).2 := by
  obtain ⟨keys, hkeys⟩ := h.redis
  obtain ⟨db, redis, m⟩ := w
  obtain ⟨db₀, redis₀, m₀⟩ := w₀
  obtain rfl : db = db₀ := h.db
  obtain rfl : redis = redis₀.expire keys := hkeys
  let ch₀ : Choice := { ch with expired := keys ++ ch.expired }
  have hchoice (w : LiveServer.World) : LiveServer.World.answer ch₀ o w = LiveServer.World.answer ch o w := by
    cases o <;> rfl
  have hlower : LiveServer.World.perform ch₀ o ⟨db, redis₀, m₀⟩ =
      LiveServer.World.answer ch o ⟨db, (redis₀.expire keys).expire ch.expired, m₀⟩ := by
    rw [Redis.expire_expire]
    exact hchoice _
  have hsame : SameButMetrics (LiveServer.World.perform ch o ⟨db, redis₀.expire keys, m⟩)
      (LiveServer.World.perform ch₀ o ⟨db, redis₀, m₀⟩) := by
    rw [hlower]
    exact same_answer o
  refine ⟨ch₀, hsame.1, hsame.2.1, [], ?_⟩
  rw [Redis.expire_nil]
  exact hsame.2.2

theorem Mirrors.own {w w₀ : LiveServer.World} (h : Mirrors w w₀) (ch : Choice) {o : LiveServer.Op}
    (ho : o.isQuiet = true) : Mirrors (LiveServer.World.perform ch o w).2 w₀ := by
  obtain ⟨hdb, hredis⟩ := perform_own ho ch w
  obtain ⟨keys, hkeys⟩ := h.redis
  refine ⟨hdb.trans h.db, keys ++ ch.expired, ?_⟩
  rw [hredis, hkeys, Redis.expire_expire]

namespace Gateway
variable {g : Gateway}

/-- The HTTP server delegates to the service. -/
def delegation (hpoll : g.polling = false) : Delegation g.machine g.svc.machine where
  ι := Op.base
  back := fun _ r => r
  plan := g.plan
  agree := fun w w₀ => Mirrors w.base w₀
  own := Op.IsOwn
  body := fun call => (g.plan_expand call).symm
  keeps := g.plan_keeps hpoll
  owned := by
    intro ch o w w₀ ho h
    cases o with
    | base o => exact h.own ch ho
    | _ => exact h
  delegated := fun ch o _ _ h => h.perform ch o

end Gateway

/-- **The HTTP server refines the service**: with viewers counted by the callbacks, every run of
requests and jobs beside each other has a run of calls of the service beside it that leaves the
same tables and, but for what has expired since, the same in Redis; and every answer is what
the endpoint makes of replies that calls in that run have given. -/
theorem http_refines_service {g : Gateway} (hpoll : g.polling = false) {w : World} {ts : List ApiTransition}
    (h : g.machine.Trace (.start w) ts) :
    ∃ ts₀, g.svc.machine.Trace (.start w.base) ts₀ ∧
      Mirrors (Machine.final (.start w) ts).world.base (Machine.final (.start w.base) ts₀).world ∧
      ∀ (i : Nat) req answer, (Machine.final (.start w) ts).threads[i]? = some ⟨.request req, .done (some answer)⟩ →
        ∃ es, Prog.Path (g.plan (.request req)) es (.done (some answer)) ∧
          ∀ (c : LiveServer.Call) (a : Reply), ⟨.delegate c, a⟩ ∈ es →
            ∃ j : Nat, (Machine.final (.start w.base) ts₀).threads[j]? = some ⟨c, .done a⟩ := by
  have hstart : Mirrors w.base w.base := ⟨rfl, [], (Redis.expire_nil _).symm⟩
  obtain ⟨ts₀, htr, hagree, hreturned⟩ := (Gateway.delegation hpoll).trace hstart h
  exact ⟨ts₀, htr, hagree, fun i req answer hth => hreturned i _ _ hth⟩

/-- A stream that is created over HTTP is created in the run of the service. -/
theorem http_refines_service_created :
    ∃ ts₀, StreamService.sample.machine.Trace (.start LiveServer.World.empty) ts₀ ∧
      (Machine.final (.start LiveServer.World.empty) ts₀).world.db.streamAt sampleID ≠ none := by
  let g : Gateway := { Gateway.sample with polling := false }
  obtain ⟨ts, htr, hfin⟩ := Machine.exists_trace_serve g.machine (.start .empty)
    [(.request { sampleRequest .post "/api/streams" with authorization := sampleBearer },
      fun _ => { id := sampleID })]
  obtain ⟨ts₀, htr₀, hmirrors, _⟩ := http_refines_service (g := g) rfl htr
  refine ⟨ts₀, htr₀, ?_⟩
  show (Machine.final (.start World.empty.base) ts₀).world.db.streamAt sampleID ≠ none
  rw [← hmirrors.db, hfin]
  decide +kernel

end Api
end LiveServer
