import LiveServer.Cache
import LiveServer.Concurrent.Prog
import LiveServer.Store

/-! Everything the server shares: database, Redis and the metrics registry.

`Op` lists the calls the server makes, each one atomic, and `perform` what each does.
A `Choice` is what is left to the outside at one call: whether it fails, what the
database generates, which Redis keys have expired by then, and who is connected to
SRS, which is a server of its own. A call that fails changes nothing. -/
namespace LiveServer
open Concurrent

/-- A connected SRS client. -/
structure SRSClient where
  id : Str
  stream : Str
  type : Str
  deriving DecidableEq, Repr

/-- The value of a gauge, by the number it was set from. -/
inductive Sample where
  /-- `float64` of an integer. -/
  | count (n : Int)
  /-- What `strconv.ParseFloat` reads from a text, 0 where it fails. -/
  | parsed (s : Str)
  /-- A duration in seconds. -/
  | seconds (d : Time)
  /-- A `float64` other than 0, by its bits. -/
  | float (bits : UInt64)
  deriving DecidableEq, Repr

/-- A `float64`; both zeros are 0. -/
def Sample.ofFloat (bits : UInt64) : Sample :=
  if bits = 0 ∨ bits = 0x8000000000000000 then .count 0 else .float bits

inductive GaugeVec where
  | liveStreamsActive
  | liveViewersTotal
  | liveStreamBitrateKbps
  | streamPublishDuration
  deriving DecidableEq, Repr

inductive CounterVec where
  | authFailuresTotal
  | srsCallbackErrorsTotal
  | ffmpegRestartTotal
  deriving DecidableEq, Repr

/-- The registry, by vector and label value. -/
structure Metrics where
  gauge : GaugeVec → Str → Option Sample
  counter : CounterVec → Str → Nat

namespace Metrics

def empty : Metrics := ⟨fun _ _ => none, fun _ _ => 0⟩

def set (m : Metrics) (g : GaugeVec) (label : Str) (v : Sample) : Metrics :=
  { m with gauge := fun g' l => if g' = g ∧ l = label then some v else m.gauge g' l }

def deleteLabelValues (m : Metrics) (g : GaugeVec) (label : Str) : Metrics :=
  { m with gauge := fun g' l => if g' = g ∧ l = label then none else m.gauge g' l }

def inc (m : Metrics) (c : CounterVec) (label : Str) : Metrics :=
  { m with counter := fun c' l => if c' = c ∧ l = label then m.counter c' l + 1 else m.counter c' l }

end Metrics

structure World where
  db : DB
  redis : Redis
  metrics : Metrics

def World.empty : World := ⟨.empty, .empty, .empty⟩

/-- The calls the server makes. -/
inductive Op where
  | createStream (s : Stream)
  | getStreamByID (id : Str)
  | getStreamByKey (key : Str)
  | listStreams (status : Option Status)
  | updateStreamStatus (id : Str) (status : Status) (extra : StatusExtra)
  | updateStreamPushAuth (id token pushURL : Str)
  | deleteStream (id : Str)
  | getPendingTasks (agentID : Str)
  | updateTaskStatus (id status errMsg : Str)
  | assignTask (id agentID : Str)
  | getTaskByID (id : Str)
  | setStreamStatus (streamID : Str) (data : StreamStatusData)
  | getStreamStatus (streamID : Str)
  | setPlayURLs (streamID : Str) (data : PlayURLData)
  | incrViewers (streamID : Str)
  | decrViewers (streamID : Str)
  | resetViewers (streamID : Str)
  | getViewers (streamID : Str)
  | setViewers (streamID : Str) (count : Int)
  | deleteStreamCache (streamID : Str)
  | findPublishingClient (streamKey : Str)
  | listAllClients
  | kickClient (clientID : Str)
  | set (g : GaugeVec) (label : Str) (v : Sample)
  | deleteLabelValues (g : GaugeVec) (label : Str)
  | inc (c : CounterVec) (label : Str)
  deriving DecidableEq

/-- What a call answers; a Go `error` is `none` when it is nil. -/
@[reducible] def Op.Res : Op → Type
  | .createStream _ => Except GoError Stream
  | .getStreamByID _ => Except GoError Stream
  | .getStreamByKey _ => Except GoError Stream
  | .listStreams _ => Except GoError (List Stream)
  | .updateStreamStatus .. => Option GoError
  | .updateStreamPushAuth .. => Option GoError
  | .deleteStream _ => Option GoError
  | .getPendingTasks _ => Except GoError (List AgentTask)
  | .updateTaskStatus .. => Option GoError
  | .assignTask .. => Option GoError
  | .getTaskByID _ => Except GoError AgentTask
  | .setStreamStatus .. => Option GoError
  | .getStreamStatus _ => Except GoError (Option StreamStatusData)
  | .setPlayURLs .. => Option GoError
  | .incrViewers _ => Except GoError Int
  | .decrViewers _ => Except GoError Int
  | .resetViewers _ => Option GoError
  | .getViewers _ => Except GoError Int
  | .setViewers .. => Option GoError
  | .deleteStreamCache _ => Option GoError
  | .findPublishingClient _ => Except GoError (Option SRSClient)
  | .listAllClients => Except GoError (List SRSClient)
  | .kickClient _ => Option GoError
  | .set .. => Unit
  | .deleteLabelValues .. => Unit
  | .inc .. => Unit

/-- What is left to the outside at one call. -/
structure Choice where
  /-- The call fails. -/
  fault : Bool := false
  /-- What `gen_random_uuid` gives. -/
  id : Str := []
  /-- What the clock shows. -/
  now : Time := 0
  /-- Redis keys whose TTL has run out. -/
  expired : List Str := []
  /-- The clients SRS lists. -/
  clients : List SRSClient := []

namespace World

/-- A read, or an error that changes nothing. -/
def read (w : World) (ch : Choice) (r : Except GoError α) : Except GoError α × World :=
  (if ch.fault then .error .backend else r, w)

/-- A database write, or an error that changes nothing. -/
def write (w : World) (ch : Choice) (r : Except GoError DB) : Option GoError × World :=
  if ch.fault then (some .backend, w)
  else match r with
    | .error e => (some e, w)
    | .ok db => (none, { w with db := db })

/-- An insert that gives the record back, or an error that changes nothing. -/
def insert (w : World) (ch : Choice) (r : Except GoError (Stream × DB)) :
    Except GoError Stream × World :=
  if ch.fault then (.error .backend, w)
  else match r with
    | .error e => (.error e, w)
    | .ok (s, db) => (.ok s, { w with db := db })

/-- A Redis write, or an error that changes nothing. -/
def cacheWrite (w : World) (ch : Choice) (r : Redis) : Option GoError × World :=
  if ch.fault then (some .backend, w) else (none, { w with redis := r })

/-- A Redis counter command. -/
def cacheCount (w : World) (ch : Choice) (r : Except GoError (Int × Redis)) :
    Except GoError Int × World :=
  if ch.fault then (.error .backend, w)
  else match r with
    | .error e => (.error e, w)
    | .ok (n, redis) => (.ok n, { w with redis := redis })

def expire (w : World) (keys : List Str) : World := { w with redis := w.redis.expire keys }

/-- The client of a stream that SRS lists first as its publisher. -/
def publisher (clients : List SRSClient) (streamKey : Str) : Option SRSClient :=
  clients.find? fun c => c.stream = streamKey && c.type = lit "RTMP publisher"

def answer (ch : Choice) : (o : Op) → World → o.Res × World
  | .createStream s, w => w.insert ch (w.db.createStream s ch.id ch.now)
  | .getStreamByID id, w => w.read ch (w.db.getStreamByID id)
  | .getStreamByKey key, w => w.read ch (w.db.getStreamByKey key)
  | .listStreams status, w => w.read ch (.ok (w.db.listStreams status))
  | .updateStreamStatus id status extra, w => w.write ch (w.db.updateStreamStatus id status extra)
  | .updateStreamPushAuth id token pushURL, w =>
    w.write ch (w.db.updateStreamPushAuth id token pushURL)
  | .deleteStream id, w => w.write ch (w.db.deleteStream id)
  | .getPendingTasks agentID, w => w.read ch (.ok (w.db.getPendingTasks agentID))
  | .updateTaskStatus id status errMsg, w =>
    w.write ch (w.db.updateTaskStatus id status errMsg ch.now)
  | .assignTask id agentID, w => w.write ch (w.db.assignTask id agentID ch.now)
  | .getTaskByID id, w => w.read ch (w.db.getTaskByID id)
  | .setStreamStatus id data, w => w.cacheWrite ch (w.redis.setStreamStatus id data)
  | .getStreamStatus id, w => w.read ch (w.redis.getStreamStatus id)
  | .setPlayURLs id data, w => w.cacheWrite ch (w.redis.setPlayURLs id data)
  | .incrViewers id, w => w.cacheCount ch (w.redis.incrViewers id)
  | .decrViewers id, w => w.cacheCount ch (w.redis.decrViewers id)
  | .resetViewers id, w => w.cacheWrite ch (w.redis.resetViewers id)
  | .getViewers id, w => w.read ch (w.redis.getViewers id)
  | .setViewers id count, w => w.cacheWrite ch (w.redis.setViewers id count)
  | .deleteStreamCache id, w => w.cacheWrite ch (w.redis.deleteStreamCache id)
  | .findPublishingClient key, w => w.read ch (.ok (publisher ch.clients key))
  | .listAllClients, w => w.read ch (.ok ch.clients)
  | .kickClient _, w => (if ch.fault then some .backend else none, w)
  | .set g label v, w => ((), { w with metrics := w.metrics.set g label v })
  | .deleteLabelValues g label, w => ((), { w with metrics := w.metrics.deleteLabelValues g label })
  | .inc c label, w => ((), { w with metrics := w.metrics.inc c label })

/-- One call, on what is left of Redis by then. -/
def perform (ch : Choice) (o : Op) (w : World) : o.Res × World := answer ch o (w.expire ch.expired)

end World

/-! ### The calls as programs -/

abbrev Server (α : Type) := Prog Op Op.Res α

namespace db
@[simp] def createStream (s : Stream) : Server (Except GoError Stream) := .op (Op.createStream s)
@[simp] def getStreamByID (id : Str) : Server (Except GoError Stream) := .op (Op.getStreamByID id)
@[simp] def getStreamByKey (key : Str) : Server (Except GoError Stream) := .op (Op.getStreamByKey key)
@[simp] def listStreams (status : Option Status) : Server (Except GoError (List Stream)) :=
  .op (Op.listStreams status)
@[simp] def updateStreamStatus (id : Str) (status : Status) (extra : StatusExtra) :
    Server (Option GoError) := .op (Op.updateStreamStatus id status extra)
@[simp] def updateStreamPushAuth (id token pushURL : Str) : Server (Option GoError) :=
  .op (Op.updateStreamPushAuth id token pushURL)
@[simp] def deleteStream (id : Str) : Server (Option GoError) := .op (Op.deleteStream id)
@[simp] def getPendingTasks (agentID : Str) : Server (Except GoError (List AgentTask)) :=
  .op (Op.getPendingTasks agentID)
@[simp] def updateTaskStatus (id status errMsg : Str) : Server (Option GoError) :=
  .op (Op.updateTaskStatus id status errMsg)
@[simp] def assignTask (id agentID : Str) : Server (Option GoError) := .op (Op.assignTask id agentID)
@[simp] def getTaskByID (id : Str) : Server (Except GoError AgentTask) := .op (Op.getTaskByID id)
end db

namespace cache
@[simp] def setStreamStatus (streamID : Str) (data : StreamStatusData) : Server (Option GoError) :=
  .op (Op.setStreamStatus streamID data)
@[simp] def getStreamStatus (streamID : Str) : Server (Except GoError (Option StreamStatusData)) :=
  .op (Op.getStreamStatus streamID)
@[simp] def setPlayURLs (streamID : Str) (data : PlayURLData) : Server (Option GoError) :=
  .op (Op.setPlayURLs streamID data)
@[simp] def incrViewers (streamID : Str) : Server (Except GoError Int) := .op (Op.incrViewers streamID)
@[simp] def decrViewers (streamID : Str) : Server (Except GoError Int) := .op (Op.decrViewers streamID)
@[simp] def resetViewers (streamID : Str) : Server (Option GoError) := .op (Op.resetViewers streamID)
@[simp] def getViewers (streamID : Str) : Server (Except GoError Int) := .op (Op.getViewers streamID)
@[simp] def setViewers (streamID : Str) (count : Int) : Server (Option GoError) :=
  .op (Op.setViewers streamID count)
@[simp] def deleteStreamCache (streamID : Str) : Server (Option GoError) := .op (Op.deleteStreamCache streamID)
end cache

namespace srs
@[simp] def findPublishingClient (streamKey : Str) : Server (Except GoError (Option SRSClient)) :=
  .op (Op.findPublishingClient streamKey)
@[simp] def listAllClients : Server (Except GoError (List SRSClient)) := .op Op.listAllClients
@[simp] def kickClient (clientID : Str) : Server (Option GoError) := .op (Op.kickClient clientID)
end srs

namespace metrics
@[simp] def set (g : GaugeVec) (label : Str) (v : Sample) : Server Unit := .op (Op.set g label v)
@[simp] def deleteLabelValues (g : GaugeVec) (label : Str) : Server Unit := .op (Op.deleteLabelValues g label)
@[simp] def inc (c : CounterVec) (label : Str) : Server Unit := .op (Op.inc c label)
end metrics

end LiveServer
