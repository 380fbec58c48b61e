import LiveServer.Handler.Agent
import LiveServer.Handler.Auth

/-! The endpoints that need no JWT.

The router sends a request to its handler by method and path; a `Request` is what is
left of it then, with the times at which the handler looks at the clock. Decoding a
body is gin's `ShouldBindJSON`, and an admin token is signed by the JWT library. -/
namespace LiveServer

structure TaskUpdateReq where
  status : Str
  errorMsg : Str := []

structure HeartbeatReq where
  agentID : Str

/-- `HealthCheck`. -/
def healthCheck : Server Answer := return .success (.health "ok")

namespace AgentHandler

/-- Answers `GetTasks`. -/
def serveTasks (agentID : Str) : Server Answer := do
  match ← getTasks agentID with
  | none => return .error 500 codeInternal "failed to fetch tasks"
  | some tasks => return .success (.tasks tasks)

/-- Answers `UpdateTask`. -/
def serveUpdateTask (shouldBindJSON : Str → Except String TaskUpdateReq) (taskID body : Str) :
    Server Answer := do
  match shouldBindJSON body with
  | .error err => return .error 400 codeInvalidParam ("invalid request: " ++ err)
  | .ok req =>
    if ← updateTask taskID req.status req.errorMsg then return .success .null
    else return .error 500 codeInternal "failed to update task"

def heartbeat (shouldBindJSON : Str → Except String HeartbeatReq) (body : Str) : Server Answer :=
  match shouldBindJSON body with
  | .error err => return .error 400 codeInvalidParam ("invalid request: " ++ err)
  | .ok req => return .success (.agent req.agentID)

end AgentHandler

/-- A request without a JWT. -/
inductive Request where
  | health
  | playback (hlsNow flvNow : Time) (streamKey : Str)
  | login (now : Time) (body : Str)
  | playAuth (now : Time) (streamKey sign expire : Str)
  | publish (now : Time) (body : Str)
  | unpublish (now : Time) (body : Str)
  | play (body : Str)
  | stop (body : Str)
  | tasks (agentID : Str)
  | updateTask (id body : Str)
  | heartbeat (body : Str)

/-- The handlers and what they call outside the server. -/
structure Handlers where
  svc : StreamService
  authCfg : AuthConfig
  bindCallback : Str → Option SrsCallback
  bindLogin : Str → Option LoginReq
  bindTaskUpdate : Str → Except String TaskUpdateReq
  bindHeartbeat : Str → Except String HeartbeatReq
  signedString : AdminClaims → Str → Except GoError Str

namespace Handlers
variable (h : Handlers)

/-- The public part of the router. -/
def serve : Request → Server Answer
  | .health => healthCheck
  | .playback hlsNow flvNow streamKey => AuthHandler.getPlaybackInfo h.svc hlsNow flvNow streamKey
  | .login now body => AuthHandler.login h.authCfg h.bindLogin h.signedString now body
  | .playAuth now streamKey sign expire =>
    Response.answer <$> AuthHandler.playAuth h.svc now streamKey sign expire
  | .publish now body => Response.answer <$> CallbackHandler.publish h.bindCallback h.svc now body
  | .unpublish now body => Response.answer <$> CallbackHandler.unpublish h.bindCallback h.svc now body
  | .play body => Response.answer <$> CallbackHandler.play h.bindCallback h.svc body
  | .stop body => Response.answer <$> CallbackHandler.stop h.bindCallback h.svc body
  | .tasks agentID => AgentHandler.serveTasks agentID
  | .updateTask id body => AgentHandler.serveUpdateTask h.bindTaskUpdate id body
  | .heartbeat body => AgentHandler.heartbeat h.bindHeartbeat body

/-- Requests one after another, with how the services behave at each. -/
def serveAll : List (Request × (Nat → Choice)) → World → List Answer × World
  | [], w => ([], w)
  | (req, ch) :: rest, w =>
    let (answer, w₁) := (h.serve req).exec World.perform ch w
    let (answers, w₂) := serveAll rest w₁
    (answer :: answers, w₂)

end Handlers
end LiveServer
