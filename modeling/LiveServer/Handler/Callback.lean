import LiveServer.Service
import LiveServer.Text.Query

/-! SRS callbacks.

SRS posts a JSON body for every hook. Decoding it is gin's `ShouldBindJSON`, a
parameter here: any function from bodies to callbacks or a failure. -/
namespace LiveServer
open Text

/-- The fields of the body that a handler reads. -/
structure SrsCallback where
  stream : Str := []
  param : Str := []
  deriving DecidableEq, Repr

/-- An HTTP status and the fields of the JSON answer. -/
structure Response where
  status : Nat
  code : Nat
  msg : Option String := none
  deriving DecidableEq, Repr

/-- `{code: 0}` with status 200, which SRS takes as *allow*. -/
def Response.allow : Response := { status := 200, code := 0 }

/-- What SRS takes as *reject*. -/
def Response.unauthorized : Response := { status := 403, code := 1005, msg := some "unauthorized" }

/-- Token and expire from a query-string-like param value. -/
def parseTokenParams (raw : Str) : Str × Int :=
  let parsed := parseQuery (trimPrefix raw (lit "?"))
  if parsed.2 then ([], 0)
  else
    let token := getValue parsed.1 (lit "token")
    let expireStr := getValue parsed.1 (lit "expire")
    (token, if expireStr = [] then 0 else (parseInt expireStr).getD 0)

/-- Stream key, token and expire from callback data: the param field first, then a
query appended to the stream name. -/
def parsePushAuth (stream param : Str) : Str × Str × Int :=
  let first := if param = [] then ([], 0) else parseTokenParams param
  if first.1 ≠ [] then (stream, first.1, first.2)
  else match index stream (lit "?token=") with
    | none => (stream, first.1, first.2)
    | some idx =>
      let second := parseTokenParams (stream.drop (idx + 1))
      if second.1 ≠ [] then (stream.take idx, second.1, second.2)
      else (stream.take idx, first.1, first.2)

namespace CallbackHandler
variable (shouldBindJSON : Str → Option SrsCallback)

/-- Handles the on_publish callback. -/
def publish (s : StreamService) (now : Time) (body : Str) : Server Response := do
  match shouldBindJSON body with
  -- a body that does not decode is always answered 200, so that SRS does not retry
  | none => return .allow
  | some cb =>
    let auth := parsePushAuth cb.stream cb.param
    match ← s.onPublish now auth.1 auth.2.1 with
    | some _ =>
      metrics.inc .srsCallbackErrorsTotal (lit "on_publish")
      return .unauthorized
    | none => return .allow

/-- Handles the on_unpublish callback. -/
def unpublish (s : StreamService) (now : Time) (body : Str) : Server Response := do
  match shouldBindJSON body with
  | none => return .allow
  | some cb =>
    let _ ← s.onUnpublish now (parsePushAuth cb.stream cb.param).1
    return .allow

/-- Handles the on_play callback. -/
def play (s : StreamService) (body : Str) : Server Response := do
  match shouldBindJSON body with
  | none => return .allow
  | some cb =>
    s.onPlay (parsePushAuth cb.stream cb.param).1
    return .allow

/-- Handles the on_stop callback. -/
def stop (s : StreamService) (body : Str) : Server Response := do
  match shouldBindJSON body with
  | none => return .allow
  | some cb =>
    s.onStop (parsePushAuth cb.stream cb.param).1
    return .allow

end CallbackHandler
end LiveServer
