import LiveServer.Auth
import LiveServer.World

/-! The business logic for streams.

Each function is a program over the calls of `World.lean`, in the source's order,
with its early returns. What a function reads from the clock and the random
sources is its `Inputs`; logging is left out. -/
namespace LiveServer
open Text

/-- The service's configuration. `cache` says whether there is a Redis client;
`hmacSHA256` takes the secret and the message, `formatRFC3339` a time. -/
structure StreamService where
  cache : Bool
  nginxBase : Str
  rtmpBase : Str
  playSecret : Str
  playExpiry : Time
  hmacSHA256 : Str → Str → Str
  formatRFC3339 : Time → Str

structure CreateStreamRequest where
  channelID : Str := []
  protocol : Str := []
  resolution : Str := []
  bitrate : Str := []
  deriving DecidableEq

/-- What a call gets from `time.Now`, `uuid.New` and `rand.Read`. -/
structure Inputs where
  hlsNow : Time
  flvNow : Time
  key : UUIDText
  random : Option Random32

/-- A bitrate such as `2000k` in kbit/s. -/
def parseBitrateKbps (s : Str) : Sample :=
  if s = [] then .count 0 else .parsed (trimSuffix (trimSuffix s (lit "k")) (lit "K"))

namespace StreamService

/-- `fmt.Sprintf("%s/%s?token=%s", s.rtmpBase, streamKey, pushToken)`. -/
def pushURL (s : StreamService) (streamKey pushToken : Str) : Str :=
  s.rtmpBase ++ lit "/" ++ streamKey ++ lit "?token=" ++ pushToken

/-- A signed play URL with sign and expire query params. -/
def generatePlayURL (s : StreamService) (now : Time) (streamKey ext : Str) : Str :=
  let expire := Time.unix (now + s.playExpiry)
  let sign := generateSign s.hmacSHA256 streamKey expire s.playSecret
  s.nginxBase ++ lit "/" ++ streamKey ++ lit "." ++ ext ++ lit "?sign=" ++ sign ++ lit "&expire=" ++
    formatInt expire

/-! ### Cache helpers -/

def cacheStatus (s : StreamService) (stream : Stream) : Server Unit := do
  if s.cache then
    let startedAt := match stream.startedAt with
      | none => []
      | some t => s.formatRFC3339 t
    let _ ← cache.setStreamStatus stream.id
      { status := stream.status, bitrate := stream.bitrate, viewers := 0, startedAt := startedAt }

def cachePlayURLs (s : StreamService) (stream : Stream) : Server Unit := do
  if s.cache then
    let _ ← cache.setPlayURLs stream.id
      { hlsURL := stream.hlsURL, flvURL := stream.flvURL, webRTCURL := stream.webRTCURL }

/-! ### Streams -/

/-- The record `CreateStream` inserts, before the database gives it an id. -/
def newStream (s : StreamService) (inp : Inputs) (req : CreateStreamRequest) (pushToken : Str) :
    Stream where
  channelID := if req.channelID = [] then none else some req.channelID
  streamKey := inp.key.val
  protocol := if req.protocol = [] then lit "rtmp" else req.protocol
  resolution := req.resolution
  bitrate := req.bitrate
  status := .created
  pushToken := pushToken
  pushURL := s.pushURL inp.key.val pushToken
  hlsURL := s.generatePlayURL inp.hlsNow inp.key.val (lit "m3u8")
  flvURL := s.generatePlayURL inp.flvNow inp.key.val (lit "flv")

def createStream (s : StreamService) (inp : Inputs) (req : CreateStreamRequest) :
    Server (Except GoError Stream) := do
  match generatePublishToken inp.random with
  | .error err => return .error err
  | .ok pushToken =>
    match ← db.createStream (s.newStream inp req pushToken) with
    | .error err => return .error (.wrap "create stream" err)
    | .ok stream =>
      s.cacheStatus stream
      s.cachePlayURLs stream
      return .ok stream

/-- A single stream by id: the cache first, then the database. -/
def getStream (s : StreamService) (id : Str) : Server (Except GoError Stream) := do
  if s.cache then
    match ← cache.getStreamStatus id with
    | .ok (some cached) => return .ok { id := id, status := cached.status }
    | _ => db.getStreamByID id
  else db.getStreamByID id

/-- Streams, optionally filtered by status. A text that is no status is in no row. -/
def listStreams (status : Str) : Server (Except GoError (List Stream)) :=
  if status = [] then db.listStreams none
  else match Status.ofText status with
    | some st => db.listStreams (some st)
    | none => Except.map (fun _ => []) <$> db.listStreams none

def stopPublishing (stream : Stream) : Server Unit := do
  match ← srs.findPublishingClient stream.streamKey with
  | .error _ => return
  | .ok none => return
  | .ok (some client) =>
    let _ ← srs.kickClient client.id

def deleteStream (s : StreamService) (id : Str) : Server (Option GoError) := do
  match ← db.getStreamByID id with
  | .error err => return some err
  | .ok stream =>
    if stream.status = .publishing then
      stopPublishing stream
    if s.cache then
      let _ ← cache.deleteStreamCache id
    db.deleteStream id

def startStream (id : Str) : Server (Except GoError Stream) := do
  match ← db.getStreamByID id with
  | .error err => return .error err
  | .ok stream =>
    if stream.status = .publishing then
      return .error (.text "stream is already publishing")
    else return .ok stream

def stopStream (id : Str) : Server (Option GoError) := do
  match ← db.getStreamByID id with
  | .error err => return some err
  | .ok stream =>
    if stream.status = .publishing then
      stopPublishing stream
    return none

def refreshPushToken (s : StreamService) (inp : Inputs) (id : Str) :
    Server (Except GoError Stream) := do
  match ← db.getStreamByID id with
  | .error err => return .error (.wrap "get stream" err)
  | .ok stream =>
    match generatePublishToken inp.random with
    | .error err => return .error err
    | .ok pushToken =>
      match ← db.updateStreamPushAuth id pushToken (s.pushURL stream.streamKey pushToken) with
      | some err => return .error (.wrap "update push token" err)
      | none => return .ok (stream.withPushAuth pushToken (s.pushURL stream.streamKey pushToken))

/-! ### SRS callbacks -/

def validatePushToken (stream : Stream) (token : Str) : Server (Option GoError) := do
  match validatePublishToken stream.pushToken token with
  | some err =>
    metrics.inc .authFailuresTotal (lit "publish")
    return some err
  | none => return none

/-- Validates stream key and publish token, updates database and cache. -/
def onPublish (s : StreamService) (now : Time) (streamKey token : Str) :
    Server (Option GoError) := do
  match ← db.getStreamByKey streamKey with
  | .error _ =>
    metrics.inc .authFailuresTotal (lit "publish")
    return some (.text "unknown stream key")
  | .ok stream =>
    match ← validatePushToken stream token with
    | some err => return some err
    | none =>
      if stream.status = .publishing then
        metrics.inc .authFailuresTotal (lit "publish")
        return some (.text "stream is already publishing")
      else
        match ← db.updateStreamStatus stream.id .publishing
          { startedAt := some (some now), endedAt := some none } with
        | some err => return some err
        | none =>
          if s.cache then
            let viewers ← cache.getViewers stream.id
            let _ ← cache.setStreamStatus stream.id
              { status := .publishing
                bitrate := stream.bitrate
                viewers := viewers.toOption.getD 0
                startedAt := s.formatRFC3339 now }
          metrics.set .liveStreamsActive stream.id (.count 1)
          metrics.set .liveStreamBitrateKbps stream.id (parseBitrateKbps stream.bitrate)
          return none

/-- Updates database and cache, resets viewers. -/
def onUnpublish (s : StreamService) (now : Time) (streamKey : Str) : Server (Option GoError) := do
  match ← db.getStreamByKey streamKey with
  | .error _ => return none
  | .ok stream =>
    match ← db.updateStreamStatus stream.id .ended { endedAt := some (some now) } with
    | some err => return some err
    | none =>
      if s.cache then
        let _ ← cache.setStreamStatus stream.id
          { status := .ended, bitrate := stream.bitrate, viewers := 0, startedAt := [] }
        let _ ← cache.resetViewers stream.id
      match stream.startedAt with
      | none => pure ()
      | some startedAt =>
        metrics.set .streamPublishDuration stream.id (.seconds (now - startedAt))
      metrics.deleteLabelValues .liveStreamsActive stream.id
      metrics.deleteLabelValues .liveViewersTotal stream.id
      metrics.deleteLabelValues .liveStreamBitrateKbps stream.id
      return none

/-- The part `OnPlay` and `OnStop` share: count on the stream's id, show the count. -/
def countViewer (s : StreamService) (count : Str → Server (Except GoError Int)) (streamKey : Str) :
    Server Unit := do
  if s.cache then
    match ← db.getStreamByKey streamKey with
    | .error _ => return
    | .ok stream =>
      match ← count stream.id with
      | .error _ => return
      | .ok n => metrics.set .liveViewersTotal stream.id (.count n)

/-- Increments the viewer count. -/
def onPlay (s : StreamService) (streamKey : Str) : Server Unit := s.countViewer cache.incrViewers streamKey

/-- Decrements the viewer count. -/
def onStop (s : StreamService) (streamKey : Str) : Server Unit := s.countViewer cache.decrViewers streamKey

/-- A stream by its key, with fresh signed play URLs and without its push credentials. -/
def getPlaybackInfo (s : StreamService) (hlsNow flvNow : Time) (streamKey : Str) :
    Server (Except GoError Stream) := do
  match ← db.getStreamByKey streamKey with
  | .error err => return .error (.wrap "stream not found" err)
  | .ok stream =>
    return .ok
      { stream with
        hlsURL := s.generatePlayURL hlsNow stream.streamKey (lit "m3u8")
        flvURL := s.generatePlayURL flvNow stream.streamKey (lit "flv")
        pushURL := []
        pushToken := [] }

end StreamService
end LiveServer
