import LiveServer.Api.Router
import LiveServer.Background
import LiveServer.Concurrent.Interface
import LiveServer.Handler.Public
import LiveServer.Handler.Stream
import LiveServer.Middleware
import LiveServer.Server

/-! The whole server: every route with its middleware, and what runs in the background.

A `Request` is what reaches gin, with what the server reads from the clock and the random
sources while it serves it. It goes through the router, through the JWT middleware if its
route is in the group for streams, to its handler, and is counted by the metrics middleware
when the answer is known. The background jobs are calls like the requests, so that a run of
the machine is any interleaving of both. -/
namespace LiveServer.Api
open Concurrent Text

/-! ### The calls the server makes -/

/-- The calls of the service, and those made outside of it. -/
inductive Op where
  | base (o : LiveServer.Op)
  | countRunningFFmpegTasks
  | setFFmpegProcessesRunning (count : Nat)
  | incHTTPRequestsTotal (method path : Str) (status : Nat)
  deriving DecidableEq

@[reducible] def Op.Res : Op → Type
  | .base o => o.Res
  | .countRunningFFmpegTasks => Except GoError Nat
  | .setFFmpegProcessesRunning _ => Unit
  | .incHTTPRequestsTotal .. => Unit

/-- The world of the service, a gauge, and a counter by method, path and status. -/
structure World where
  base : LiveServer.World
  ffmpegProcessesRunning : Nat
  httpRequestsTotal : Str → Str → Nat → Nat

def World.empty : World := ⟨.empty, 0, fun _ _ _ => 0⟩

def World.perform (ch : Choice) : (o : Op) → World → o.Res × World
  | .base o, w => ((LiveServer.World.perform ch o w.base).1,
      { w with base := (LiveServer.World.perform ch o w.base).2 })
  | .countRunningFFmpegTasks, w =>
    (if ch.fault then .error .backend else .ok w.base.db.countRunningFFmpegTasks, w)
  | .setFFmpegProcessesRunning count, w => ((), { w with ffmpegProcessesRunning := count })
  | .incHTTPRequestsTotal method path status, w => ((), { w with
      httpRequestsTotal := fun m p s => if m = method ∧ p = path ∧ s = status
        then w.httpRequestsTotal m p s + 1 else w.httpRequestsTotal m p s })

abbrev Program (α : Type) := Prog Op Op.Res α

/-- A program of the service as part of the server. -/
def base (p : Server α) : Program α := p.lift Op.base fun _ r => r

@[simp] def countRunningFFmpegTasks : Program (Except GoError Nat) := .op Op.countRunningFFmpegTasks
@[simp] def setFFmpegProcessesRunning (count : Nat) : Program Unit := .op (Op.setFFmpegProcessesRunning count)
@[simp] def incHTTPRequestsTotal (method path : Str) (status : Nat) : Program Unit :=
  .op (Op.incHTTPRequestsTotal method path status)

/-! ### Requests -/

structure Request where
  method : Method
  path : Str
  rawQuery : Str := []
  authorization : Str := []
  body : Str := []
  /-- The clock when the middleware looks at it. -/
  checkedAt : Time := 0
  /-- The clock when the handler does. -/
  now : Time := 0
  inputs : Inputs

/-- `c.Query`. -/
def Request.query (req : Request) (name : Str) : Str := getValue (parseQuery req.rawQuery).1 name

/-- Method and path can be labels of a metric. -/
def Request.isLabel (req : Request) : Bool := validUTF8 req.method.name && validUTF8 req.path

/-- An answer, by who gave it. -/
inductive Answer where
  /-- An endpoint that needs no JWT. -/
  | open (a : LiveServer.Answer)
  /-- An endpoint behind the JWT. -/
  | stream (a : StreamAnswer)
  /-- The JWT middleware. -/
  | refused (r : Response)
  /-- No handler: a redirect or *not found* in plain text, or the empty answer of gin's
  recovery from a panic. -/
  | plain (status : Nat)
  deriving DecidableEq, Repr

def Answer.status : Answer → Nat
  | .open a => a.status
  | .stream a => a.status
  | .refused r => r.status
  | .plain status => status

/-- The server's configuration, and what its handlers call outside the server. -/
structure Gateway where
  svc : StreamService
  authCfg : AuthConfig
  router : Router
  jwt : JWT.Library
  /-- The viewer count method is `polling`. -/
  polling : Bool := false
  bindCallback : Str → Option SrsCallback
  bindLogin : Str → Option LoginReq
  bindTaskUpdate : Str → Except String TaskUpdateReq
  bindHeartbeat : Str → Except String HeartbeatReq
  bindCreate : Str → Except String CreateStreamRequest
  /-- The text of an error from outside the server. -/
  backendText : String

namespace Gateway
variable (g : Gateway)

def handlers : Handlers where
  svc := g.svc
  authCfg := g.authCfg
  bindCallback := g.bindCallback
  bindLogin := g.bindLogin
  bindTaskUpdate := g.bindTaskUpdate
  bindHeartbeat := g.bindHeartbeat
  signedString := fun claims secret => g.jwt.signedString (JWT.adminClaims claims) secret

/-- The handler of an endpoint; `param` is its path parameter, if it has one. -/
def handle (req : Request) (param : Str) : Endpoint → Server Answer
  | .health => .open <$> g.handlers.serve .health
  | .playback => .open <$> g.handlers.serve (.playback req.inputs.hlsNow req.inputs.flvNow param)
  | .login => .open <$> g.handlers.serve (.login req.now req.body)
  | .playAuth => .open <$> g.handlers.serve
      (.playAuth req.now (req.query (lit "stream_key")) (req.query (lit "sign")) (req.query (lit "expire")))
  | .createStream => .stream <$> StreamHandler.create g.svc g.bindCreate req.inputs req.body
  | .listStreams => .stream <$> StreamHandler.list (req.query (lit "status"))
  | .getStream => .stream <$> StreamHandler.get g.svc param
  | .deleteStream => .stream <$> StreamHandler.delete g.svc param
  | .startStream => .stream <$> StreamHandler.start (GoError.message g.backendText) param
  | .stopStream => .stream <$> StreamHandler.stop param
  | .refreshToken => .stream <$> AuthHandler.refreshToken g.svc req.inputs param
  | .publish => .open <$> g.handlers.serve (.publish req.now req.body)
  | .unpublish => .open <$> g.handlers.serve (.unpublish req.now req.body)
  | .play => .open <$> g.handlers.serve (.play req.body)
  | .stop => .open <$> g.handlers.serve (.stop req.body)
  | .tasks => .open <$> g.handlers.serve (.tasks (req.query (lit "agent_id")))
  | .updateTask => .open <$> g.handlers.serve (.updateTask param req.body)
  | .heartbeat => .open <$> g.handlers.serve (.heartbeat req.body)

/-- The handler behind its middleware. -/
def serveRoute (req : Request) (r : Route) (params : List Str) : Server Answer :=
  if r.endpoint.guarded then
    match jwtAuth g.jwt g.authCfg.jwtSecret req.checkedAt req.authorization with
    | .error refusal => return .refused refusal
    | .ok _ => g.handle req (params.headD []) r.endpoint
  else g.handle req (params.headD []) r.endpoint

/-- `HTTPMetrics` after the handlers: counts the request, or panics in `WithLabelValues` where
a label is not UTF-8. -/
def httpMetrics (method path : Str) (status : Nat) : Program Bool :=
  if validUTF8 method && validUTF8 path then do
    incHTTPRequestsTotal method path status
    return true
  else return false

/-- A request, counted under the template of its route or, without one, under its path. A
redirect is answered before any middleware; a panic is answered by gin's recovery, unless
there is an answer already. -/
def serve (req : Request) : Program Answer :=
  match g.router.find req.method req.path with
  | .redirect status => return .plain status
  | .noRoute => do
    if ← httpMetrics req.method.name req.path 404 then return .plain 404
    else return .plain 500
  | .route r params => do
    let answer ← base (g.serveRoute req r params)
    let _ ← httpMetrics req.method.name r.template answer.status
    return answer

theorem httpMetrics_of_label {method path : Str} (h : (validUTF8 method && validUTF8 path) = true)
    (status : Nat) : httpMetrics method path status = (do
      incHTTPRequestsTotal method path status
      return true) :=
  if_pos h

/-- A request with a route is served by it and counted: what is registered can be a label. -/
theorem serve_route {req : Request} {r : Route} {params : List Str}
    (h : g.router.find req.method req.path = .route r params) :
    g.serve req = do
      let answer ← base (g.serveRoute req r params)
      incHTTPRequestsTotal req.method.name r.template answer.status
      return answer := by
  obtain ⟨hr, hmethod⟩ := g.router.registered h
  have hlabel : (validUTF8 req.method.name && validUTF8 r.template) = true := by
    rw [← hmethod, Bool.and_eq_true]
    exact validUTF8_routes r hr
  unfold serve
  rw [h]
  simp only [httpMetrics_of_label hlabel]
  rfl

/-- **What becomes of a request**: it is redirected, there is no route for it and it is counted
or cannot be, or its route serves it and it is counted. -/
theorem serve_cases (req : Request) :
    (∃ status, g.router.find req.method req.path = .redirect status ∧ g.serve req = .done (.plain status)) ∨
    (g.router.find req.method req.path = .noRoute ∧ req.isLabel = true ∧
      g.serve req = do
        incHTTPRequestsTotal req.method.name req.path 404
        return .plain 404) ∨
    (g.router.find req.method req.path = .noRoute ∧ req.isLabel = false ∧ g.serve req = .done (.plain 500)) ∨
    ∃ r params, g.router.find req.method req.path = .route r params ∧
      g.serve req = do
        let answer ← base (g.serveRoute req r params)
        incHTTPRequestsTotal req.method.name r.template answer.status
        return answer := by
  cases htarget : g.router.find req.method req.path with
  | redirect status =>
    refine .inl ⟨status, rfl, ?_⟩
    unfold serve
    rw [htarget]
    rfl
  | noRoute =>
    have hserve : g.serve req = (do
        if ← httpMetrics req.method.name req.path 404 then return .plain 404 else return .plain 500) := by
      unfold serve
      rw [htarget]
    cases hlabel : req.isLabel with
    | true =>
      refine .inr (.inl ⟨rfl, rfl, ?_⟩)
      rw [hserve, httpMetrics_of_label hlabel]
      rfl
    | false =>
      refine .inr (.inr (.inl ⟨rfl, rfl, ?_⟩))
      have hpanic : httpMetrics req.method.name req.path 404 = return false :=
        if_neg (Bool.eq_false_iff.mp hlabel)
      rw [hserve, hpanic]
      rfl
  | route r params => exact .inr (.inr (.inr ⟨r, params, rfl, g.serve_route htarget⟩))

/-- One tick of `runFfmpegProcessUpdater`. -/
def updateFFmpegProcesses : Program Unit := do
  match ← countRunningFFmpegTasks with
  | .error _ => return
  | .ok count => setFFmpegProcessesRunning count

end Gateway

/-! ### The machine -/

/-- A request, or a job of the background. -/
inductive Call where
  | request (req : Request)
  | reconcile (clock : Str → Time)
  | pollViewers (order : Loops.MapOrder Str)
  | updateFFmpegProcesses

namespace Gateway
variable (g : Gateway)

/-- The program of a call; a job of the background answers nobody. Viewers are polled with
that method and a Redis client only. -/
def body : Call → Program (Option Answer)
  | .request req => some <$> g.serve req
  | .reconcile clock => (fun _ => none) <$> base (reconcileStreamMetrics g.svc.cache clock)
  | .pollViewers order =>
    if g.svc.cache && g.polling then (fun _ => none) <$> base (LiveServer.pollViewers order)
    else return none
  | .updateFFmpegProcesses => (fun _ => none) <$> updateFFmpegProcesses

def machine : Machine World Op Op.Res Choice Call (Option Answer) := ⟨World.perform, g.body⟩

end Gateway

/-! ### A server and requests to run -/

/-- A JWT library whose tokens are the date and the key. -/
def sampleJWT : JWT.Library where
  signedString := fun claims key => .ok (formatInt (claims.exp.getD 0) ++ 46 :: key)
  parse := fun now token keyFunc =>
    match keyFunc .hmac, parseInt (JWT.signedText token) with
    | .ok key, some exp =>
      if token = JWT.signedText token ++ 46 :: key ∧ now < exp * 1000000000 then
        .ok ⟨{ username := some (lit "admin"), role := some (lit "admin"), exp := some exp }, true⟩
      else .error .backend
    | _, _ => .error .backend

def Gateway.sample : Gateway where
  svc := .sample
  authCfg :=
    { jwtSecret := lit "k", adminUsername := lit "admin", adminPassword := lit "pw", adminExpiry := 60000000000 }
  router := .sample
  jwt := sampleJWT
  polling := true
  bindCallback := fun body => some { stream := body }
  bindLogin := fun body => some { username := lit "admin", password := body }
  bindTaskUpdate := fun body => .ok { status := body }
  bindHeartbeat := fun body => .ok { agentID := body }
  bindCreate := fun _ => .ok {}
  backendText := "error"

/-- What the sample administrator sends after a login at time 0. -/
def sampleBearer : Str := lit "Bearer 60.k"

def sampleRequest (method : Method) (path : String) : Request where
  method := method
  path := lit path
  inputs := .sample 1

abbrev ApiConfig := Config World Op Op.Res Call (Option Answer)
abbrev ApiTransition := Transition World Op Op.Res Choice Call (Option Answer)

/-- What a call of the service leaves of the world of the service. -/
theorem Gateway.base_after {g : Gateway} {t : ApiTransition} {i : Nat} {ch : Choice} {call : Call} {o : LiveServer.Op}
    {k : (Op.base o).Res → Program (Option Answer)} {r : (Op.base o).Res} {w : World}
    (h : g.machine.Steps t i ch call (.base o) k r w) :
    t.after.world.base = (LiveServer.World.perform ch o t.before.world.base).2 := by
  rw [h.world_after]
  rfl

/-- The call at an index is a request that has been answered, as `P` asks. -/
def finished (i : Nat) (P : Request → Answer → Bool) (c : ApiConfig) : Bool :=
  match c.threads[i]? with
  | some ⟨.request req, .done (some a)⟩ => P req a
  | _ => false

theorem finished_spec {i : Nat} {P : Request → Answer → Bool} {c : ApiConfig} (h : finished i P c = true) :
    ∃ req a, c.threads[i]? = some ⟨.request req, .done (some a)⟩ ∧ P req a = true := by
  unfold finished at h
  split at h
  · rename_i req a hth
    exact ⟨req, a, hth, h⟩
  · cases h

end LiveServer.Api
