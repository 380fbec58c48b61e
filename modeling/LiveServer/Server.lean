import LiveServer.Concurrent.Machine
import LiveServer.Handler.Agent
import LiveServer.Service

/-! The server as a machine: the requests it serves beside each other. -/
namespace LiveServer
open Concurrent

/-- A request. Callbacks of a publisher carry its SRS client, which the server does
not read. -/
inductive Call where
  | createStream (inp : Inputs) (req : CreateStreamRequest)
  | getStream (id : Str)
  | deleteStream (id : Str)
  | startStream (id : Str)
  | stopStream (id : Str)
  | refreshPushToken (inp : Inputs) (id : Str)
  | onPublish (client : Nat) (now : Time) (streamKey token : Str)
  | onUnpublish (client : Nat) (now : Time) (streamKey : Str)
  | onPlay (streamKey : Str)
  | onStop (streamKey : Str)
  | getTasks (agentID : Str)
  | updateTask (taskID status errorMsg : Str)

inductive Reply where
  | stream (r : Except GoError Stream)
  | error (e : Option GoError)
  | unit
  | tasks (r : Option (List AgentTask))
  | updated (ok : Bool)
  deriving DecidableEq

namespace StreamService
variable (s : StreamService)

/-- The program a request runs. -/
def body : Call → Server Reply
  | .createStream inp req => .stream <$> s.createStream inp req
  | .getStream id => .stream <$> s.getStream id
  | .deleteStream id => .error <$> s.deleteStream id
  | .startStream id => .stream <$> startStream id
  | .stopStream id => .error <$> stopStream id
  | .refreshPushToken inp id => .stream <$> s.refreshPushToken inp id
  | .onPublish _ now streamKey token => .error <$> s.onPublish now streamKey token
  | .onUnpublish _ now streamKey => .error <$> s.onUnpublish now streamKey
  | .onPlay streamKey => (fun _ => .unit) <$> s.onPlay streamKey
  | .onStop streamKey => (fun _ => .unit) <$> s.onStop streamKey
  | .getTasks agentID => .tasks <$> AgentHandler.getTasks agentID
  | .updateTask taskID status errorMsg => .updated <$> AgentHandler.updateTask taskID status errorMsg

def machine : Machine World Op Op.Res Choice Call Reply := ⟨World.perform, s.body⟩

end StreamService

abbrev ServerConfig := Config World Op Op.Res Call Reply
abbrev ServerTransition := Transition World Op Op.Res Choice Call Reply

/-! ### A server and inputs to run -/

def StreamService.sample : StreamService where
  cache := true
  nginxBase := lit "http://localhost:8080/live"
  rtmpBase := lit "rtmp://localhost:1935/live"
  playSecret := lit "secret"
  playExpiry := 0
  hmacSHA256 := fun _ _ => []
  formatRFC3339 := fun _ => []

def sampleKey : UUIDText := ⟨lit "11111111-2222-4333-8444-555555555555", by decide⟩

/-- A `rand.Read` that fills its buffer with one byte. -/
def sampleRandom (b : UInt8) : Random32 := ⟨List.replicate 32 b, List.length_replicate⟩

def Inputs.sample (b : UInt8) : Inputs where
  hlsNow := 0
  flvNow := 0
  key := sampleKey
  random := some (sampleRandom b)

def sampleToken (b : UInt8) : Str := Text.hexEncode (List.replicate 32 b)

/-- What `gen_random_uuid` gives for the sample stream. -/
def sampleID : Str := lit "aaaaaaaa-bbbb-4ccc-8ddd-eeeeeeeeeeee"

/-- The sample stream is created and nothing else. -/
def sampleCreated : List (Action Choice Call) :=
  .spawn (.createStream (.sample 1) {}) ::
    [.step 0 { id := sampleID }, .step 0 {}, .step 0 {}]

end LiveServer
