import LiveServer.Text.Bytes

/-! The records the server keeps: streams and agent tasks. -/
namespace LiveServer

/-- A point in time or a duration, in nanoseconds. -/
abbrev Time := Int

/-- `Time.Unix`. -/
def Time.unix (t : Time) : Int := t / 1000000000

/-- Errors of the server and of what it calls. -/
inductive GoError where
  /-- `gorm.ErrRecordNotFound`. -/
  | recordNotFound
  /-- Any other error of the database, of Redis, of SRS or of the random source. -/
  | backend
  /-- `fmt.Errorf` with a text. -/
  | text (msg : String)
  /-- `fmt.Errorf` with a text and an error wrapped by `%w`. -/
  | wrap (msg : String) (err : GoError)
  deriving DecidableEq, Repr

/-- `errors.Is(err, gorm.ErrRecordNotFound)`. -/
def GoError.isNotFound : GoError → Bool
  | .recordNotFound => true
  | .backend => false
  | .text _ => false
  | .wrap _ err => err.isNotFound

/-- `err.Error()`, by the text of the errors from outside. -/
def GoError.message (backend : String) : GoError → String
  | .recordNotFound => "record not found"
  | .backend => backend
  | .text msg => msg
  | .wrap msg err => msg ++ ": " ++ err.message backend

@[simp] theorem isOk_ok (a : α) : (Except.ok a : Except ε α).isOk = true := rfl

@[simp] theorem isOk_error (e : ε) : (Except.error e : Except ε α).isOk = false := rfl

/-- Stream status constants. -/
inductive Status where
  | created
  | publishing
  | ended
  | error
  deriving DecidableEq, Repr

/-- The status as a text of its column. -/
def Status.text : Status → Str
  | .created => lit "created"
  | .publishing => lit "publishing"
  | .ended => lit "ended"
  | .error => lit "error"

/-- The status with a text, if there is one. -/
def Status.ofText (s : Str) : Option Status := [.created, .publishing, .ended, .error].find? (·.text = s)

/-- A live stream. A nil pointer is `none`. -/
structure Stream where
  id : Str := []
  channelID : Option Str := none
  streamKey : Str := []
  protocol : Str := []
  resolution : Str := []
  bitrate : Str := []
  status : Status
  pushToken : Str := []
  pushURL : Str := []
  hlsURL : Str := []
  flvURL : Str := []
  webRTCURL : Str := []
  startedAt : Option Time := none
  endedAt : Option Time := none
  createdAt : Time := 0
  deriving DecidableEq, Repr

/-! Agent task statuses are texts: an agent may report any. -/

def taskStatusPending : Str := lit "pending"
def taskStatusRunning : Str := lit "running"
def taskStatusCompleted : Str := lit "completed"
def taskStatusFailed : Str := lit "failed"

def actionStartPush : Str := lit "start_push"
def actionStopPush : Str := lit "stop_push"

/-- A command for an agent. `agentID` is `none` for SQL `NULL`, which reads as the
empty string. -/
structure AgentTask where
  id : Str
  streamID : Str := []
  agentID : Option Str := none
  action : Str
  status : Str
  streamKey : Str := []
  pushURL : Str := []
  errorMsg : Str := []
  createdAt : Time := 0
  updatedAt : Time := 0
  deriving DecidableEq, Repr

end LiveServer
