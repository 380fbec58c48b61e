import LiveServer.Loops
import LiveServer.Text.Lines
import LiveServer.World

/-! The HLS monitor: one check, and the gauges it leaves.

A check asks the components whether they are up, lists the publishers of SRS and
fetches the playlist and the newest segment of each of their streams. What it sees is an
`Observation`; the gauges and the set of streams seen healthy are the `State` that one
check hands to the next. -/
namespace LiveServer.Monitor
open Loops

/-- The flags a check reads, and what it uses of `net/url` and `strconv`. -/
structure Config where
  goHealth : Str := []
  srsAPI : Str := []
  rtmpAddr : Str := []
  hlsBase : Str := []
  /-- `u.ResolveReference(r).String()`, `none` where one of the two cannot be parsed. -/
  resolve : Str → Str → Option Str
  /-- `strconv.ParseFloat`: the bits of the number, `none` for an error. -/
  parseFloat : Str → Option UInt64

/-- The answer to a GET of a playlist. -/
structure Fetched where
  status : Nat
  body : Str
  /-- The body could be read to its end. -/
  complete : Bool := true

/-- The answer of SRS to a request for its clients: the decoded body is a code and data,
which is decoded in turn. -/
structure ClientsResponse where
  status : Nat
  body : Option (Int × Option (List SRSClient))

/-- What one check sees; `none` is a request that got no answer. -/
structure Observation where
  health : Str → Option Nat
  dial : Str → Bool
  clients : Str → Option ClientsResponse
  /-- By stream key and URL: the playlist, and the status of its newest segment. -/
  playlist : Str → Str → Option Fetched
  segment : Str → Str → Option Nat
  elapsed : Time := 0
  now : Time := 0

/-- The four vectors labelled by stream key. -/
inductive HLSVec where
  | playlistUp
  | playlistSegments
  | playlistTargetDuration
  | latestSegmentUp
  deriving DecidableEq, Repr

structure State where
  componentUp : Str → Option Sample
  publishingStreams : Sample
  hls : HLSVec → Str → Option Sample
  checkDuration : Sample
  lastSuccess : Sample
  /-- The set of streams whose playlist was healthy and has not been reset since. -/
  seen : List Str

def State.initial : State :=
  ⟨fun _ => none, .count 0, fun _ _ => none, .count 0, .count 0, []⟩

def boolFloat (ok : Bool) : Sample := if ok then .count 1 else .count 0

/-! ### What a check reads -/

def checkHTTP (status : Option Nat) : Bool := status.any fun n => 200 ≤ n && n < 400

def publishingStreamKeys (cfg : Config) (order : MapOrder Str) (obs : Observation) :
    Except GoError (List Str) :=
  match obs.clients (Text.trimRight 47 cfg.srsAPI ++ lit "/api/v1/clients") with
  | none => .error .backend
  | some resp =>
    if 400 ≤ resp.status then .error (.text s!"srs clients status={resp.status}")
    else match resp.body with
      | none => .error .backend
      | some (code, data) =>
        if code ≠ 0 then .error (.text s!"srs code={code}")
        else match data with
          | none => .error .backend
          | some clients =>
            let publishers := clients.filter fun c => c.type = lit "RTMP publisher" && c.stream ≠ []
            .ok (order.visit (publishers.map (·.stream)).dedup)

/-- The streams a check goes through: none if they cannot be listed. -/
def Observation.streams (cfg : Config) (order : MapOrder Str) (obs : Observation) : List Str :=
  match publishingStreamKeys cfg order obs with
  | .error _ => []
  | .ok streams => streams

/-- What `parsePlaylist` counts. -/
structure Playlist where
  segments : Nat := 0
  targetDuration : Sample := .count 0
  latestSegment : Str := []

/-- One line of a playlist. -/
def Playlist.read (parseFloat : Str → Option UInt64) (p : Playlist) (text : Str) : Playlist :=
  let line := Text.trimSpace text
  if line = [] then p
  else if (lit "#EXT-X-TARGETDURATION:").isPrefixOf line then
    match parseFloat (Text.trimPrefix line (lit "#EXT-X-TARGETDURATION:")) with
    | some f => { p with targetDuration := .ofFloat f }
    | none => p
  else if (lit "#").isPrefixOf line then p
  else { p with segments := p.segments + 1, latestSegment := line }

def parsePlaylist (parseFloat : Str → Option UInt64) (r : Fetched) : Playlist × Option GoError :=
  match Text.scanLines r.body with
  | none => ({}, some .backend)
  | some lines =>
    if !r.complete then ({}, some .backend)
    else
      let p := lines.foldl (Playlist.read parseFloat) {}
      if p.segments = 0 then
        ({ targetDuration := p.targetDuration }, some (.text "playlist contains no media segments"))
      else (p, none)

def resolveReference (cfg : Config) (baseURL ref : Str) : Str := (cfg.resolve baseURL ref).getD ref

def playlistURL (cfg : Config) (streamKey : Str) : Str :=
  Text.trimRight 47 cfg.hlsBase ++ lit "/" ++ Text.pathEscape streamKey ++ lit ".m3u8"

/-- The playlist of a stream as far as `checkHLS` changes nothing: fetched and parsed. -/
def fetchPlaylist (cfg : Config) (obs : Observation) (streamKey : Str) : Except GoError Playlist :=
  match obs.playlist streamKey (playlistURL cfg streamKey) with
  | none => .error .backend
  | some resp =>
    if resp.status < 200 ∨ 400 ≤ resp.status then
      .error (.text s!"playlist status={resp.status}")
    else match parsePlaylist cfg.parseFloat resp with
      | (_, some err) => .error err
      | (p, none) => .ok p

/-! ### What it writes -/

namespace State

def set (m : State) (g : HLSVec) (streamKey : Str) (v : Sample) : State :=
  { m with hls := fun g' k => if g' = g ∧ k = streamKey then some v else m.hls g' k }

def setComponent (m : State) (component : Str) (v : Sample) : State :=
  { m with componentUp := fun c => if c = component then some v else m.componentUp c }

def markSeen (m : State) (streamKey : Str) : State :=
  { m with seen := if streamKey ∈ m.seen then m.seen else streamKey :: m.seen }

/-- All four series of a stream to 0, and the stream out of the set. -/
def reset (m : State) (streamKey : Str) : State :=
  let m := m.set .playlistUp streamKey (.count 0)
  let m := m.set .playlistSegments streamKey (.count 0)
  let m := m.set .playlistTargetDuration streamKey (.count 0)
  let m := m.set .latestSegmentUp streamKey (.count 0)
  { m with seen := m.seen.filter (· ≠ streamKey) }

def resetMissingStreams (m : State) (order : MapOrder Str) (current : List Str) : State :=
  (order.visit m.seen).foldl (fun m streamKey => if streamKey ∈ current then m else m.reset streamKey) m

def checkHLS (m : State) (cfg : Config) (obs : Observation) (streamKey : Str) :
    Option GoError × State :=
  match fetchPlaylist cfg obs streamKey with
  | .error err => (some err, m)
  | .ok p =>
    let m := m.set .playlistUp streamKey (.count 1)
    let m := m.set .playlistSegments streamKey (.count p.segments)
    let m := m.set .playlistTargetDuration streamKey p.targetDuration
    let segmentURL := resolveReference cfg (playlistURL cfg streamKey) p.latestSegment
    let m := m.set .latestSegmentUp streamKey (boolFloat (checkHTTP (obs.segment streamKey segmentURL)))
    (none, m.markSeen streamKey)

/-- The body of the loop over the publishing streams. -/
def checkStream (cfg : Config) (obs : Observation) (m : State) (streamKey : Str) : State :=
  match m.checkHLS cfg obs streamKey with
  | (none, m) => m
  | (some _, m) =>
    let m := m.set .playlistUp streamKey (.count 0)
    m.set .latestSegmentUp streamKey (.count 0)

/-- The gauges of the four components. -/
def checkComponents (m : State) (cfg : Config) (order : MapOrder Str) (obs : Observation) : State :=
  let versions := Text.trimRight 47 cfg.srsAPI ++ lit "/api/v1/versions"
  let m := m.setComponent (lit "go_api") (boolFloat (checkHTTP (obs.health cfg.goHealth)))
  let m := m.setComponent (lit "srs_api") (boolFloat (checkHTTP (obs.health versions)))
  let m := m.setComponent (lit "rtmp") (boolFloat (obs.dial cfg.rtmpAddr))
  m.setComponent (lit "srs_publishers") (boolFloat (publishingStreamKeys cfg order obs).isOk)

def checkOnce (m : State) (cfg : Config) (order : MapOrder Str) (obs : Observation) : State :=
  let m := m.checkComponents cfg order obs
  let streams := obs.streams cfg order
  let m := { m with publishingStreams := .count streams.length }
  let m := m.resetMissingStreams order streams
  let m := streams.foldl (checkStream cfg obs) m
  { m with checkDuration := .seconds obs.elapsed, lastSuccess := .count obs.now.unix }

end State

/-- The checks of a monitor, each with the order Go happens to visit its maps in. -/
abbrev History := List (MapOrder Str × Observation)

def History.run (cfg : Config) (h : History) : State :=
  h.foldl (fun m check => m.checkOnce cfg check.1 check.2) .initial

/-! ### A check, seen from one stream -/

/-- SRS lists a publisher of the stream. -/
def Observation.Publishes (cfg : Config) (obs : Observation) (streamKey : Str) : Prop :=
  ∃ status clients, obs.clients (Text.trimRight 47 cfg.srsAPI ++ lit "/api/v1/clients") =
      some ⟨status, some (0, some clients)⟩ ∧ status < 400 ∧ streamKey ≠ [] ∧
    ∃ c ∈ clients, c.type = lit "RTMP publisher" ∧ c.stream = streamKey

/-- The streams of a check are those with a publisher, each once. -/
theorem streams_spec (cfg : Config) (order : MapOrder Str) (obs : Observation) :
    (obs.streams cfg order).Nodup ∧ ∀ k, k ∈ obs.streams cfg order ↔ obs.Publishes cfg k := by
  unfold Observation.streams publishingStreamKeys Observation.Publishes
  cases obs.clients (Text.trimRight 47 cfg.srsAPI ++ lit "/api/v1/clients") with
  | none => simp
  | some resp =>
    obtain ⟨status, body⟩ := resp
    by_cases hstatus : 400 ≤ status
    · simp [hstatus, Nat.not_lt.mpr hstatus]
    · cases body with
      | none => simp [hstatus]
      | some answer =>
        obtain ⟨code, data⟩ := answer
        by_cases hcode : code = 0
        · cases data with
          | none => simp [hstatus, hcode]
          | some clients =>
            simp only [hstatus, hcode, if_false, not_true_eq_false, ne_eq]
            refine ⟨order.nodup_visit (List.nodup_dedup _), fun k => ?_⟩
            simp only [MapOrder.mem_visit, List.mem_dedup, List.mem_map, List.mem_filter]
            grind
        · simp [hstatus, hcode]

/-- The series of one stream, and whether it is in the set. -/
structure Series where
  gauge : HLSVec → Option Sample
  seen : Prop

def State.series (k : Str) (m : State) : Series := ⟨fun g => m.hls g k, k ∈ m.seen⟩

theorem State.hls_eq_series (m : State) (g : HLSVec) (k : Str) : m.hls g k = (m.series k).gauge g :=
  rfl

namespace Series

/-- What a reset leaves of a stream. -/
def cleared : Series := ⟨fun _ => some (.count 0), False⟩

/-- What the check of a publishing stream leaves of it. -/
def checked (cfg : Config) (obs : Observation) (k : Str) (x : Series) : Series :=
  match fetchPlaylist cfg obs k with
  | .error _ =>
    { x with gauge := fun
      | .playlistUp => some (.count 0)
      | .latestSegmentUp => some (.count 0)
      | g => x.gauge g }
  | .ok p =>
    { gauge := fun
      | .playlistUp => some (.count 1)
      | .playlistSegments => some (.count p.segments)
      | .playlistTargetDuration => some p.targetDuration
      | .latestSegmentUp => some (boolFloat (checkHTTP (obs.segment k
          (resolveReference cfg (playlistURL cfg k) p.latestSegment))))
      seen := True }

end Series

section
variable {cfg : Config} {obs : Observation} {order : MapOrder Str}

theorem mem_markSeen {m : State} {k k' : Str} :
    k' ∈ (m.markSeen k).seen ↔ k' = k ∨ k' ∈ m.seen := by
  by_cases hk : k ∈ m.seen
  · simp only [State.markSeen, hk, if_true]
    constructor
    · exact .inr
    · rintro (rfl | h)
      · exact hk
      · exact h
  · simp [State.markSeen, hk]

theorem series_reset (m : State) (k k' : Str) :
    (m.reset k).series k' = if k' = k then .cleared else m.series k' := by
  by_cases hk : k' = k
  · subst hk
    simp only [State.series, State.reset, State.set, Series.cleared, if_true, Series.mk.injEq]
    constructor
    · funext g
      cases g <;> simp
    · simp
  · simp [State.series, State.reset, State.set, hk]

theorem series_checkStream (m : State) (k k' : Str) :
    (m.checkStream cfg obs k).series k' =
      if k' = k then (m.series k').checked cfg obs k' else m.series k' := by
  unfold State.checkStream State.checkHLS
  by_cases hk : k' = k
  · subst hk
    simp only [if_true, Series.checked]
    cases fetchPlaylist cfg obs k' with
    | error e =>
      simp only [State.series, State.set, Series.mk.injEq, and_true]
      funext g
      cases g <;> simp
    | ok p =>
      simp only [State.series, mem_markSeen, true_or, Series.mk.injEq, and_true]
      funext g
      cases g <;> simp [State.set, State.markSeen]
  · cases fetchPlaylist cfg obs k with
    | error e => simp [State.series, State.set, hk]
    | ok p =>
      simp only [State.series, mem_markSeen, hk, false_or]
      simp [State.set, State.markSeen, hk]

theorem series_resetMissingStreams (m : State) (current : List Str) (k : Str) :
    (m.resetMissingStreams order current).series k =
      if k ∈ m.seen ∧ k ∉ current then .cleared else m.series k := by
  have hloop := foldl_view_of_idempotent State.series
    (fun m streamKey => if streamKey ∈ current then m else m.reset streamKey)
    (fun k x => if k ∈ current then x else .cleared)
    (fun m k => by split <;> simp [series_reset])
    (fun m k k' hk => by split <;> simp [series_reset, hk])
    (fun k x => by split <;> rfl) (order.visit m.seen) m k
  simp only [MapOrder.mem_visit] at hloop
  unfold State.resetMissingStreams
  rw [hloop]
  by_cases hseen : k ∈ m.seen <;> by_cases hcur : k ∈ current <;> simp [hseen, hcur]

/-- One check, seen from one stream. -/
theorem series_checkOnce (m : State) (k : Str) :
    (m.checkOnce cfg order obs).series k =
      if k ∈ obs.streams cfg order then (m.series k).checked cfg obs k
      else if k ∈ m.seen then .cleared else m.series k := by
  have hloop := foldl_view_of_nodup State.series (State.checkStream cfg obs)
    (fun k x => x.checked cfg obs k) (fun m k => by simp [series_checkStream])
    (fun m k k' hk => by simp [series_checkStream, hk]) (streams_spec cfg order obs).1
  -- the gauges of the components and the counts of the check are none of the stream's series
  let m₁ : State := { m.checkComponents cfg order obs with
    publishingStreams := .count (obs.streams cfg order).length }
  have hseries : m₁.series k = m.series k := rfl
  have hseen : m₁.seen = m.seen := rfl
  calc (m.checkOnce cfg order obs).series k
    _ = ((obs.streams cfg order).foldl (State.checkStream cfg obs)
          (m₁.resetMissingStreams order (obs.streams cfg order))).series k := rfl
    _ = _ := hloop _ k
    _ = _ := by
      rw [series_resetMissingStreams, hseries, hseen]
      by_cases hk : k ∈ obs.streams cfg order <;> simp [hk]

/-- A publishing stream is checked. -/
theorem series_checkOnce_of_publishes {k : Str} (h : obs.Publishes cfg k) (m : State) :
    (m.checkOnce cfg order obs).series k = (m.series k).checked cfg obs k := by
  rw [series_checkOnce, if_pos (((streams_spec cfg order obs).2 k).mpr h)]

/-- Any other is cleared if it is in the set, and left alone if not. -/
theorem series_checkOnce_of_not_publishes {k : Str} (h : ¬ obs.Publishes cfg k) (m : State) :
    (m.checkOnce cfg order obs).series k = if k ∈ m.seen then .cleared else m.series k := by
  rw [series_checkOnce, if_neg (mt ((streams_spec cfg order obs).2 k).mp h)]

end

end LiveServer.Monitor
