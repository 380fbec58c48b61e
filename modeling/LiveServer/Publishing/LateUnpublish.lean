import LiveServer.Recorded

/-! Late and repeated `on_unpublish` callbacks.

`OnUnpublish` looks up the stream and ends it, whatever its status is: a stream that was
never published becomes ended, and a callback that comes twice moves the end and the
duration to the second time. So a callback ends live streams only, and the same stream only
once, exactly where its key is unknown or nothing is left to move: the stream is live or
already ended as it would be, and every repetition carries the time of the first. -/
namespace LiveServer
open Concurrent

/-- What a stray callback may disturb of a stream: status and times of its row, the cached
status and the gauge of the publish duration. -/
structure StreamView where
  row : Option (Status × Option Time × Option Time)
  cached : Option Entry
  duration : Option Sample
  deriving DecidableEq

def World.view (w : World) (id : Str) : StreamView where
  row := (w.db.streamAt id).map fun r => (r.status, r.startedAt, r.endedAt)
  cached := w.redis (statusKey id)
  duration := w.metrics.gauge .streamPublishDuration id

namespace StreamService

/-- The world after a callback at `now`, nothing failing and no key expiring. -/
def unpublished (s : StreamService) (key : Str) (w : World) (now : Time) : World :=
  ((s.onUnpublish now key).exec World.perform (fun _ => {}) w).2

/-- What `OnUnpublish` writes to the cache. -/
def endedStatus (row : Stream) : Entry := ⟨.status ⟨.ended, row.bitrate, 0, []⟩, true⟩

/-- The stream after a callback. -/
def endedView (s : StreamService) (row : Stream) (now : Time) (v : StreamView) : StreamView where
  row := some (.ended, row.startedAt, some now)
  cached := if s.cache then some (endedStatus row) else v.cached
  duration := match row.startedAt with
    | none => v.duration
    | some startedAt => some (.seconds (now - startedAt))

/-- Ending twice at one time is ending once. -/
theorem endedView_endedView (s : StreamService) (row : Stream) (now : Time) (v : StreamView) :
    s.endedView row now (s.endedView row now v) = s.endedView row now v := by
  unfold endedView
  by_cases hcache : s.cache = true
  · cases row.startedAt with
    | none => simp only [hcache, if_true]
    | some startedAt => simp only [hcache, if_true]
  · cases row.startedAt with
    | none => simp only [hcache]; rfl
    | some startedAt => simp only [hcache]; rfl

section
variable (s : StreamService) (now : Time) {key : Str} {w : World} {row : Stream}

/-- A callback for a stream that has one. -/
theorem unpublished_known (h : w.db.streamOf key = some row) :
    ∃ db', w.db.updateStreamStatus row.id .ended { endedAt := some (some now) } = .ok db' ∧
      s.unpublished key w now =
        { db := db'
          redis := if s.cache then (w.redis.setStreamStatus row.id ⟨.ended, row.bitrate, 0, []⟩).resetViewers
            row.id else w.redis
          metrics := endedMetrics w.metrics now row } := by
  have huuid := DB.uuidIn_streamAt (DB.streamAt_of_streamOf h)
  have hlookup : w.db.getStreamByKey key = .ok row := DB.getStreamByKey_ok.mpr h
  obtain ⟨db', hdb⟩ : ∃ db', w.db.updateStreamStatus row.id .ended { endedAt := some (some now) } =
      .ok db' := by
    unfold DB.updateStreamStatus
    rw [huuid]
    exact ⟨_, rfl⟩
  refine ⟨db', hdb, ?_⟩
  -- what comes last records the end in the metrics
  have hrecords (w₁ : World) : (do
      match row.startedAt with
      | none => pure ()
      | some startedAt =>
        metrics.set .streamPublishDuration row.id (.seconds (now - startedAt))
      metrics.deleteLabelValues .liveStreamsActive row.id
      metrics.deleteLabelValues .liveViewersTotal row.id
      metrics.deleteLabelValues .liveStreamBitrateKbps row.id
      return none : Server (Option GoError)).exec World.perform (fun _ => {}) w₁ =
        (none, { w₁ with metrics := endedMetrics w₁.metrics now row }) := by
    unfold endedMetrics
    cases hstart : row.startedAt with
    | none =>
      simp only [metrics.deleteLabelValues, Prog.op_bind, Prog.pure_eq, Prog.exec, World.perform,
        World.answer, World.expire_nil]
    | some startedAt =>
      simp only [metrics.set, metrics.deleteLabelValues, Prog.op_bind, Prog.pure_eq, Prog.exec,
        World.perform, World.answer, World.expire_nil]
  unfold unpublished onUnpublish
  by_cases hcache : s.cache = true
  · simp only [db.getStreamByKey, db.updateStreamStatus, cache.setStreamStatus, cache.resetViewers,
      Prog.op_bind, Prog.exec, World.perform, World.answer, World.read, World.write, World.cacheWrite,
      World.expire_nil, hlookup, hdb, hcache, if_true, if_false, Bool.false_eq_true]
    exact congrArg Prod.snd (hrecords _)
  · simp only [db.getStreamByKey, db.updateStreamStatus, Prog.op_bind, Prog.exec, World.perform,
      World.answer, World.read, World.write, World.expire_nil, hlookup, hdb, hcache, if_false,
      Bool.false_eq_true]
    exact congrArg Prod.snd (hrecords _)

/-- The row of a stream that a callback has ended. -/
theorem streamOf_unpublished (h : w.db.streamOf key = some row) :
    (s.unpublished key w now).db.streamOf key =
      some (row.withStatus .ended { endedAt := some (some now) }) := by
  obtain ⟨db', hdb, hw⟩ := unpublished_known s now h
  obtain ⟨u, hu, hupd⟩ := DB.updateStreamStatus_ok hdb
  have hid : u = row.id :=
    Option.some.inj (hu.symm.trans (DB.uuidIn_streamAt (DB.streamAt_of_streamOf h)))
  rw [hw]
  show db'.streamOf key = _
  rw [hupd.streamOf, h, hid]
  simp

/-- A callback, seen from the stream. -/
theorem view_unpublished (h : w.db.streamOf key = some row) :
    (s.unpublished key w now).view row.id = s.endedView row now (w.view row.id) := by
  have hrow : (s.unpublished key w now).db.streamAt row.id =
      some (row.withStatus .ended { endedAt := some (some now) }) :=
    DB.streamAt_of_streamOf (streamOf_unpublished s now h)
  obtain ⟨db', _, hw⟩ := unpublished_known s now h
  unfold World.view endedView
  rw [hrow, hw]
  congr 1
  · by_cases hcache : s.cache = true
    · simp [hcache, Redis.resetViewers, Redis.setStreamStatus, Redis.del, Redis.set, endedStatus]
    · simp [hcache]
  · unfold endedMetrics
    cases row.startedAt with
    | none => simp [Metrics.deleteLabelValues]
    | some startedAt => simp [Metrics.deleteLabelValues, Metrics.set]

/-- Any number of callbacks at one time are one callback. -/
theorem view_repeated (h : w.db.streamOf key = some row) {ts : List Time} (hts : ∀ t ∈ ts, t = now) :
    (ts.foldl (s.unpublished key) (s.unpublished key w now)).view row.id =
      (s.unpublished key w now).view row.id := by
  -- the row stays as the first one left it, so each further one ends it as the first did
  have hstep (w' : World) (ts : List Time) (hts : ∀ t ∈ ts, t = now)
      (hrow : w'.db.streamOf key = some (row.withStatus .ended { endedAt := some (some now) }))
      (hview : s.endedView row now (w'.view row.id) = w'.view row.id) :
      (ts.foldl (s.unpublished key) w').view row.id = w'.view row.id := by
    induction ts generalizing w' with
    | nil => rfl
    | cons t rest ih =>
      have ht : t = now := hts t List.mem_cons_self
      subst ht
      have hnext : (s.unpublished key w' t).view row.id = w'.view row.id :=
        (view_unpublished s t hrow).trans hview
      rw [List.foldl_cons, ih (s.unpublished key w' t) (fun t' ht' => hts t' (List.mem_cons_of_mem t ht')),
        hnext]
      · have hagain := streamOf_unpublished s t hrow
        exact hagain
      · rw [hnext]
        exact hview
  apply hstep _ ts hts
  · exact streamOf_unpublished s now h
  · rw [view_unpublished s now h]
    exact endedView_endedView s row now _

/-- The end of the row is the time of the last callback. -/
theorem view_last (h : w.db.streamOf key = some row) (ts : List Time) (t : Time) :
    ((ts ++ [t]).foldl (s.unpublished key) w).view row.id =
      s.endedView row t ((ts.foldl (s.unpublished key) w).view row.id) := by
  have hrow : ∃ row', (ts.foldl (s.unpublished key) w).db.streamOf key = some row' ∧ row'.id = row.id ∧
      row'.startedAt = row.startedAt ∧ row'.bitrate = row.bitrate := by
    induction ts generalizing w row with
    | nil => exact ⟨row, h, rfl, rfl, rfl⟩
    | cons t' rest ih =>
      have hnext := ih (streamOf_unpublished s t' h)
      exact hnext
  obtain ⟨row', hrow', hid, hstart, hbitrate⟩ := hrow
  rw [List.foldl_append]
  show (s.unpublished key (ts.foldl (s.unpublished key) w) t).view row.id = _
  rw [← hid, view_unpublished s t hrow']
  simp only [endedView, endedStatus, hstart, hbitrate]

end

/-- The stream has ended at this time, and cache and gauge show it. -/
structure EndedAt (s : StreamService) (w : World) (row : Stream) (now : Time) : Prop where
  status : row.status = .ended
  ended : row.endedAt = some now
  cached : s.cache = true → w.redis (statusKey row.id) = some (endedStatus row)
  duration : ∀ startedAt, row.startedAt = some startedAt →
    w.metrics.gauge .streamPublishDuration row.id = some (.seconds (now - startedAt))

theorem endedView_eq_iff {s : StreamService} {w : World} {row : Stream} {now : Time}
    (hrow : w.db.streamAt row.id = some row) :
    s.endedView row now (w.view row.id) = w.view row.id ↔ EndedAt s w row now := by
  have hparts : s.endedView row now (w.view row.id) = w.view row.id ↔
      (Status.ended = row.status ∧ row.startedAt = row.startedAt ∧ some now = row.endedAt) ∧
      (if s.cache then some (endedStatus row) else w.redis (statusKey row.id)) =
        w.redis (statusKey row.id) ∧
      (match row.startedAt with
        | none => w.metrics.gauge .streamPublishDuration row.id
        | some startedAt => some (.seconds (now - startedAt))) =
        w.metrics.gauge .streamPublishDuration row.id := by
    simp only [World.view, endedView, StreamView.mk.injEq, hrow, Option.map_some, Option.some.injEq,
      Prod.mk.injEq]
  rw [hparts]
  constructor
  · intro ⟨⟨hst, _, hend⟩, hcached, hduration⟩
    refine ⟨hst.symm, hend.symm, ?_, ?_⟩
    · intro hcache
      rw [if_pos hcache] at hcached
      exact hcached.symm
    · intro startedAt hstart
      rw [hstart] at hduration
      exact hduration.symm
  · intro ⟨hst, hend, hcached, hduration⟩
    refine ⟨⟨hst.symm, rfl, hend.symm⟩, ?_, ?_⟩
    · split
      · exact (hcached ‹_›).symm
      · rfl
    · split
      · rfl
      · exact (hduration _ ‹_›).symm

end StreamService

/-- The callback ends live streams only, and the same one only once: a stream that is not
live is left alone, and the repetitions at the times `later` change nothing any more. -/
def EndsLiveOnce (s : StreamService) (w : World) (key : Str) (now : Time) (later : List Time) : Prop :=
  ∀ row, w.db.streamOf key = some row →
    (row.status ≠ .publishing → (s.unpublished key w now).view row.id = w.view row.id) ∧
    ∀ ts, ts <+: later → (ts.foldl (s.unpublished key) (s.unpublished key w now)).view row.id =
      (s.unpublished key w now).view row.id

/-- **Late callbacks**: exactly where the stream is live or ended at this time already, and
each repetition carries the same time. -/
theorem ends_live_once_iff (s : StreamService) (w : World) (key : Str) (now : Time) (later : List Time) :
    EndsLiveOnce s w key now later ↔
      ∀ row, w.db.streamOf key = some row →
        (row.status = .publishing ∨ StreamService.EndedAt s w row now) ∧ ∀ t ∈ later, t = now := by
  constructor
  · intro hall row hrow
    obtain ⟨hfirst, hlater⟩ := hall row hrow
    constructor
    · by_cases hlive : row.status = .publishing
      · exact .inl hlive
      · have hsame := hfirst hlive
        rw [StreamService.view_unpublished s now hrow] at hsame
        exact .inr ((StreamService.endedView_eq_iff (DB.streamAt_of_streamOf hrow)).mp hsame)
    · intro t ht
      obtain ⟨before, after, rfl⟩ := List.append_of_mem ht
      -- the end of the row tells when the last callback came
      have hsame := hlater (before ++ [t]) ⟨after, by simp⟩
      have hlast := StreamService.view_last s (StreamService.streamOf_unpublished s now hrow) before t
      have hend : some (Status.ended, row.startedAt, some t) =
          some (Status.ended, row.startedAt, some now) :=
        congrArg StreamView.row
          ((hlast.symm.trans hsame).trans (StreamService.view_unpublished s now hrow))
      cases hend
      rfl
  · intro hall row hrow
    obtain ⟨hstate, hlater⟩ := hall row hrow
    constructor
    · intro hnot
      rw [StreamService.view_unpublished s now hrow]
      exact (StreamService.endedView_eq_iff (DB.streamAt_of_streamOf hrow)).mpr
        (hstate.resolve_left hnot)
    · intro ts hts
      exact StreamService.view_repeated s now hrow fun t ht => hlater t (hts.subset ht)

/-- A stray callback ends a stream that was never published; coming again it moves the end. -/
theorem unpublish_ends_created :
    (sampleStream.view sampleID).row = some (.created, none, none) ∧
      ((StreamService.sample.unpublished sampleKey.val sampleStream 7).view sampleID).row =
        some (.ended, none, some 7) ∧
      (([9].foldl (StreamService.sample.unpublished sampleKey.val)
        (StreamService.sample.unpublished sampleKey.val sampleStream 7)).view sampleID).row =
        some (.ended, none, some 9) ∧
      ¬ EndsLiveOnce .sample sampleStream sampleKey.val 7 [9] := by
  refine ⟨by decide, by decide, by decide, ?_⟩
  intro h
  have hsame := (h ((sampleStream.db.streamOf sampleKey.val).get (by decide))
    (Option.some_get _).symm).1 (by decide)
  exact absurd hsame (by decide)

end LiveServer
