import LiveServer.Handler.Callback

/-! The JSON answers of the endpoints that are not callbacks. -/
namespace LiveServer

/-- What an endpoint puts under `data`. -/
inductive Data where
  | null
  | health (status : String)
  | playback (id streamKey : Str) (status : Status) (resolution bitrate hlsURL flvURL : Str)
  | token (token : Str) (expiresIn : Int)
  | tasks (tasks : List AgentTask)
  | agent (agentID : Str)
  deriving DecidableEq, Repr

/-- An answer with the data it carries, if any. -/
structure Answer extends Response where
  data : Option Data := none
  deriving DecidableEq, Repr

def codeInvalidParam : Nat := 1001
def codeNotFound : Nat := 1002
def codeInternal : Nat := 1003

/-- `{code: 0, msg: "ok", data: …}` with status 200. -/
def Answer.success (data : Data) : Answer :=
  { status := 200, code := 0, msg := some "ok", data := some data }

/-- `{code, msg}` with the given status. -/
def Answer.error (status code : Nat) (msg : String) : Answer := { status, code, msg := some msg }

/-- A callback's answer carries no data. -/
def Response.answer (r : Response) : Answer := { toResponse := r }

end LiveServer
