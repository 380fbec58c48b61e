import LiveServer.Handler.Response

/-! The endpoints for streams, behind the JWT. -/
namespace LiveServer

/-- What such an endpoint puts under `data`. -/
inductive StreamData where
  | null
  | stream (s : Stream)
  | streams (streams : List Stream)
  | push (status : String) (streamKey pushURL : Str)
  | status (status : String)
  deriving DecidableEq, Repr

structure StreamAnswer extends Response where
  data : Option StreamData := none
  deriving DecidableEq, Repr

def codeConflict : Nat := 1004

/-- `Success`. -/
def StreamAnswer.success (data : StreamData) : StreamAnswer :=
  { status := 200, code := 0, msg := some "ok", data := some data }

/-- `Error`. -/
def StreamAnswer.error (status code : Nat) (msg : String) : StreamAnswer := { status, code, msg := some msg }

/-- What most endpoints answer when a stream is not found or something else goes wrong. -/
def StreamAnswer.failure (err : GoError) (msg : String) : StreamAnswer :=
  if err.isNotFound then .error 404 codeNotFound "stream not found" else .error 500 codeInternal msg

namespace StreamHandler

def create (s : StreamService) (shouldBindJSON : Str → Except String CreateStreamRequest) (inp : Inputs)
    (body : Str) : Server StreamAnswer := do
  match shouldBindJSON body with
  | .error err => return .error 400 codeInvalidParam ("invalid request: " ++ err)
  | .ok req =>
    match ← s.createStream inp req with
    | .error _ => return .error 500 codeInternal "failed to create stream"
    | .ok stream => return .success (.stream stream)

def list (status : Str) : Server StreamAnswer := do
  match ← StreamService.listStreams status with
  | .error _ => return .error 500 codeInternal "failed to list streams"
  | .ok streams => return .success (.streams streams)

def get (s : StreamService) (id : Str) : Server StreamAnswer := do
  match ← s.getStream id with
  | .error err => return .failure err "failed to get stream"
  | .ok stream => return .success (.stream stream)

/-- Looks the stream up through the cache before it is deleted. -/
def delete (s : StreamService) (id : Str) : Server StreamAnswer := do
  match ← s.getStream id with
  | .error err => return .failure err "failed to get stream"
  | .ok _ =>
    match ← s.deleteStream id with
    | some _ => return .error 500 codeInternal "failed to delete stream"
    | none => return .success .null

/-- Every error but *not found* is answered as a conflict. -/
def start (errorText : GoError → String) (id : Str) : Server StreamAnswer := do
  match ← StreamService.startStream id with
  | .error err =>
    if err.isNotFound then return .error 404 codeNotFound "stream not found"
    else return .error 409 codeConflict (errorText err)
  | .ok stream => return .success (.push "ready" stream.streamKey stream.pushURL)

def stop (id : Str) : Server StreamAnswer := do
  match ← StreamService.stopStream id with
  | some err => return .failure err "failed to stop stream"
  | none => return .success (.status "stop_requested")

end StreamHandler

def AuthHandler.refreshToken (s : StreamService) (inp : Inputs) (id : Str) : Server StreamAnswer := do
  match ← s.refreshPushToken inp id with
  | .error _ => return .error 500 codeInternal "failed to refresh push token"
  | .ok stream => return .success (.stream stream)

end LiveServer
