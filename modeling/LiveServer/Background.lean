import LiveServer.Loops
import LiveServer.Service

/-! What the server runs beside its requests: restoring the gauges of live streams when it
starts, and counting viewers by asking SRS. -/
namespace LiveServer
open Concurrent Loops

/-! ### Startup reconciliation -/

/-- The gauges of one publishing stream. -/
def restoreStream (now : Time) (s : Stream) : Server Unit := do
  metrics.set .liveStreamsActive s.id (.count 1)
  metrics.set .liveStreamBitrateKbps s.id (parseBitrateKbps s.bitrate)
  match s.startedAt with
  | none => pure ()
  | some startedAt => metrics.set .streamPublishDuration s.id (.seconds (now - startedAt))

/-- Its viewer count, if Redis has one. -/
def restoreViewers (s : Stream) : Server Unit := do
  match ← cache.getViewers s.id with
  | .error _ => pure ()
  | .ok count => if 0 < count then metrics.set .liveViewersTotal s.id (.count count)

/-- Restores the gauges of all publishing streams after a start. `clock` is what the clock
shows when the loop is at a stream. -/
def reconcileStreamMetrics (cacheClient : Bool) (clock : Str → Time) : Server Unit := do
  match ← db.listStreams (some .publishing) with
  | .error _ => return
  | .ok publishing =>
    Prog.forEach (fun s => restoreStream (clock s.id) s) publishing
    if cacheClient then
      Prog.forEach restoreViewers publishing

/-! ### Viewer polling -/

/-- The viewers of each stream: all its clients that are no publishers. -/
def countViewers (clients : List SRSClient) : Counter Str :=
  clients.foldl (fun viewerCount c =>
    if c.stream ≠ [] && c.type ≠ lit "RTMP publisher" then viewerCount.inc c.stream
    else viewerCount) .empty

/-- One tick of `runViewerPolling`. -/
def pollViewers (order : MapOrder Str) : Server Unit := do
  match ← srs.listAllClients with
  | .error _ => return
  | .ok clients =>
    let viewerCount := countViewers clients
    Prog.forEach (fun streamKey => do
      let _ ← cache.setViewers streamKey (viewerCount.value streamKey)) (order.visit viewerCount.keys)

end LiveServer
