import LiveServer.Coherence.CachedRead
import LiveServer.Concurrent.Erasure

/-! The cache decides nothing.

Redis is an optimisation: the server starts without it if it cannot be reached. Here is what
that takes. With everything left out that a server with Redis does for the cache and for the
number of viewers, what is left of each of its programs is the program of a server without.
So whatever is in Redis, however its commands fail and its keys expire, each run is a run of
the server without Redis, with the same rows, the same counters, the same gauges but the one
of the viewers, and the same replies to all calls but `GetStream`. -/
namespace LiveServer
open Concurrent

/-- What two worlds have in common that differ by what is cached. -/
structure SameRecords (w w' : World) : Prop where
  db : w'.db = w.db
  counter : w'.metrics.counter = w.metrics.counter
  gauge : ∀ g label, g ≠ .liveViewersTotal → w'.metrics.gauge g label = w.metrics.gauge g label

/-- Commands of Redis, reads of streams, and the number of viewers that is shown. -/
def Op.isCaching : Op → Bool
  | .getStreamByID _ | .getStreamByKey _ => true
  | .set .liveViewersTotal _ _ => true
  | o => o.isRedis

/-- What such a call leaves alone. -/
theorem perform_caching {o : Op} (h : o.isCaching = true) (ch : Choice) (w : World) :
    SameRecords w (World.perform ch o w).2 := by
  cases o with
  | set g label v =>
    cases g with
    | liveViewersTotal => exact ⟨rfl, rfl, fun g' _ hg' => if_neg fun heq => hg' heq.1⟩
    | _ => exact absurd h Bool.false_ne_true
  | _ =>
    first
    | exact absurd h Bool.false_ne_true
    | refine ⟨by simp [World.perform, World.answer], ?_, fun g label _ => ?_⟩ <;>
        rw [World.perform_metrics] <;> rfl

theorem SameRecords.dropped {w w' : World} (h : SameRecords w w') (ch : Choice) {o : Op}
    (ho : o.isCaching = true) : SameRecords (World.perform ch o w).2 w' where
  db := h.db.trans (perform_caching ho ch w).db.symm
  counter := h.counter.trans (perform_caching ho ch w).counter.symm
  gauge g label hg := (h.gauge g label hg).trans ((perform_caching ho ch w).gauge g label hg).symm

/-- A call that is not Redis' looks at the database only. -/
theorem perform_of_db {w w' : World} (hdb : w'.db = w.db) (ch : Choice) {o : Op} (ho : o.isRedis = false) :
    (World.perform ch o w').1 = (World.perform ch o w).1 ∧
      (World.perform ch o w').2.db = (World.perform ch o w).2.db := by
  have hread {α : Type} {r r' : Except GoError α} (hr : r' = r) :
      ((w'.expire ch.expired).read ch r').1 = ((w.expire ch.expired).read ch r).1 ∧
        ((w'.expire ch.expired).read ch r').2.db = ((w.expire ch.expired).read ch r).2.db := by
    rw [hr]
    exact ⟨rfl, hdb⟩
  have hwrite {r r' : Except GoError DB} (hr : r' = r) :
      ((w'.expire ch.expired).write ch r').1 = ((w.expire ch.expired).write ch r).1 ∧
        ((w'.expire ch.expired).write ch r').2.db = ((w.expire ch.expired).write ch r).2.db := by
    rw [hr]
    unfold World.write
    split
    · exact ⟨rfl, hdb⟩
    · cases r with
      | error e => exact ⟨rfl, hdb⟩
      | ok db => exact ⟨rfl, rfl⟩
  cases o with
  | createStream s =>
    have hinsert {r r' : Except GoError (Stream × DB)} (hr : r' = r) :
        ((w'.expire ch.expired).insert ch r').1 = ((w.expire ch.expired).insert ch r).1 ∧
          ((w'.expire ch.expired).insert ch r').2.db = ((w.expire ch.expired).insert ch r).2.db := by
      rw [hr]
      unfold World.insert
      split
      · exact ⟨rfl, hdb⟩
      · cases r with
        | error e => exact ⟨rfl, hdb⟩
        | ok created => exact ⟨rfl, rfl⟩
    exact hinsert (by rw [World.expire_db, World.expire_db, hdb])
  | getStreamByID id => exact hread (by rw [World.expire_db, World.expire_db, hdb])
  | getStreamByKey key => exact hread (by rw [World.expire_db, World.expire_db, hdb])
  | listStreams status => exact hread (by rw [World.expire_db, World.expire_db, hdb])
  | getPendingTasks agentID => exact hread (by rw [World.expire_db, World.expire_db, hdb])
  | getTaskByID id => exact hread (by rw [World.expire_db, World.expire_db, hdb])
  | updateStreamStatus id status extra => exact hwrite (by rw [World.expire_db, World.expire_db, hdb])
  | updateStreamPushAuth id token pushURL => exact hwrite (by rw [World.expire_db, World.expire_db, hdb])
  | deleteStream id => exact hwrite (by rw [World.expire_db, World.expire_db, hdb])
  | updateTaskStatus id status errMsg => exact hwrite (by rw [World.expire_db, World.expire_db, hdb])
  | assignTask id agentID => exact hwrite (by rw [World.expire_db, World.expire_db, hdb])
  | findPublishingClient key => exact hread rfl
  | listAllClients => exact hread rfl
  | kickClient client => exact ⟨rfl, hdb⟩
  | set g label v => exact ⟨rfl, hdb⟩
  | deleteLabelValues g label => exact ⟨rfl, hdb⟩
  | inc c label => exact ⟨rfl, hdb⟩
  | _ => cases ho

theorem SameRecords.kept {w w' : World} (h : SameRecords w w') (ch : Choice) {o : Op} (ho : o.isRedis = false) :
    (World.perform ch o w').1 = (World.perform ch o w).1 ∧
      SameRecords (World.perform ch o w).2 (World.perform ch o w').2 := by
  obtain ⟨hans, hdb⟩ := perform_of_db h.db ch ho
  refine ⟨hans, hdb, ?_, ?_⟩
  · rw [World.perform_metrics, World.perform_metrics]
    cases o with
    | inc c label =>
      funext c' label'
      show (if _ then w'.metrics.counter c' label' + 1 else w'.metrics.counter c' label') = _
      rw [h.counter]
      rfl
    | _ => exact h.counter
  · intro g label hg
    rw [World.perform_metrics, World.perform_metrics]
    have hgauge := h.gauge g label hg
    cases o with
    | set g' label' v =>
      show (if _ then some v else w'.metrics.gauge g label) = _
      rw [hgauge]
      rfl
    | deleteLabelValues g' label' =>
      show (if _ then none else w'.metrics.gauge g label) = _
      rw [hgauge]
      rfl
    | _ => exact hgauge

/-! ### The programs -/

/-- `q` is `p` without what it does for the cache. -/
abbrev Uncached (p q : Server α) : Prop :=
  Prog.Erases (fun o => o.isCaching = true) (fun o => o.isRedis = false) p q

namespace StreamService
variable (s : StreamService)

theorem uncached_cacheStatus (stream : Stream) : Uncached (s.cacheStatus stream) (.done ()) := by
  unfold cacheStatus
  split
  · exact .drop rfl fun _ => .done
  · exact .done

theorem uncached_cachePlayURLs (stream : Stream) : Uncached (s.cachePlayURLs stream) (.done ()) := by
  unfold cachePlayURLs
  split
  · exact .drop rfl fun _ => .done
  · exact .done

theorem uncached_createStream (inp : Inputs) (req : CreateStreamRequest) :
    Uncached (s.createStream inp req) (s.withoutCache.createStream inp req) := by
  unfold createStream
  cases generatePublishToken inp.random with
  | error e => exact .done
  | ok token =>
    refine Prog.erases_op_bind (by rfl) ?_
    rintro (e | stream)
    · exact .done
    · exact (s.uncached_cacheStatus stream).bind fun _ => (s.uncached_cachePlayURLs stream).bind fun _ => .done

theorem uncached_deleteStream (id : Str) : Uncached (s.deleteStream id) (s.withoutCache.deleteStream id) := by
  have hrest : Uncached (do
      if s.cache then
        let _ ← cache.deleteStreamCache id
      db.deleteStream id : Server (Option GoError)) (db.deleteStream id) := by
    have hdelete : Uncached (db.deleteStream id) (db.deleteStream id) := .keep rfl fun _ => .done
    split
    · exact .drop rfl fun _ => hdelete
    · exact hdelete
  refine Prog.erases_op_bind (by rfl) ?_
  rintro (e | stream)
  · exact .done
  · dsimp only
    split
    · refine Prog.Erases.bind (Prog.Every.erases ?_) fun _ => hrest
      exact every_stopPublishing stream (fun _ => rfl) fun _ => rfl
    · exact hrest

theorem uncached_refreshPushToken (inp : Inputs) (id : Str) :
    Uncached (s.refreshPushToken inp id) (s.withoutCache.refreshPushToken inp id) :=
  Prog.Every.erases (s.every_refreshPushToken rfl fun _ _ => rfl)

theorem uncached_announce (now : Time) (stream : Stream) :
    Uncached (s.announce now stream) (s.withoutCache.announce now stream) := by
  have hshow : Uncached (do
      metrics.set .liveStreamsActive stream.id (.count 1)
      metrics.set .liveStreamBitrateKbps stream.id (parseBitrateKbps stream.bitrate)
      return none : Server (Option GoError)) (s.withoutCache.announce now stream) :=
    .keep rfl fun _ => .keep rfl fun _ => .done
  unfold announce
  split
  · exact .drop rfl fun _ => .drop rfl fun _ => hshow
  · exact hshow

theorem uncached_onPublish (now : Time) (key token : Str) :
    Uncached (s.onPublish now key token) (s.withoutCache.onPublish now key token) := by
  have hrefuse (e : GoError) : Uncached (do metrics.inc .authFailuresTotal (lit "publish"); return some e)
      (do metrics.inc .authFailuresTotal (lit "publish"); return some e) := .keep rfl fun _ => .done
  refine Prog.erases_op_bind (by rfl) ?_
  rintro (e | stream)
  · exact hrefuse _
  · simp only [validatePushToken]
    cases validatePublishToken stream.pushToken token with
    | some e => exact hrefuse e
    | none =>
      simp only [Prog.pure_eq, Prog.done_bind]
      split
      · exact hrefuse _
      · refine Prog.erases_op_bind (by rfl) ?_
        rintro (_ | e)
        · exact s.uncached_announce now stream
        · exact .done

theorem uncached_retire (now : Time) (stream : Stream) :
    Uncached (s.retire now stream) (s.withoutCache.retire now stream) := by
  have hrest : Uncached (s.withoutCache.retire now stream) (s.withoutCache.retire now stream) := by
    apply Prog.Every.erases
    unfold retire
    cases stream.startedAt <;> simp [withoutCache, Op.isRedis]
  by_cases hcache : s.cache = true
  · unfold retire
    rw [if_pos hcache]
    exact .drop rfl fun _ => .drop rfl fun _ => hrest
  · unfold retire at hrest ⊢
    rw [if_neg hcache]
    exact hrest

theorem uncached_onUnpublish (now : Time) (key : Str) :
    Uncached (s.onUnpublish now key) (s.withoutCache.onUnpublish now key) := by
  refine Prog.erases_op_bind (by rfl) ?_
  rintro (e | stream)
  · exact .done
  · refine Prog.erases_op_bind (by rfl) ?_
    rintro (_ | e)
    · exact s.uncached_retire now stream
    · exact .done

/-- Without Redis nobody counts. -/
theorem uncached_countViewer {count : Str → Server (Except GoError Int)}
    (hcount : ∀ id, (count id).Every fun o => o.isCaching = true) (key : Str) :
    Uncached (s.countViewer count key) (s.withoutCache.countViewer count key) :=
  Prog.Every.erases_done (s.every_countViewer rfl hcount fun _ _ => rfl)

/-- Reading a stream through the cache, which has no counterpart. -/
def isGetStream (call : Call) : Prop := ∃ id, call = .getStream id

/-- What is left of each program is the program of a server without Redis. -/
theorem body_uncached (call : Call) :
    Follows (fun o => o.isCaching = true) (fun o => o.isRedis = false) isGetStream call (s.body call)
      (s.withoutCache.body call) := by
  cases call with
  | createStream inp req => exact .inl ((s.uncached_createStream inp req).map _)
  | getStream id => exact .inr ⟨⟨id, rfl⟩, Prog.every_map _ (s.every_getStream rfl rfl)⟩
  | deleteStream id => exact .inl ((s.uncached_deleteStream id).map _)
  | startStream id => exact .inl (Prog.Erases.map _ (Prog.Every.erases (every_startStream rfl)))
  | stopStream id =>
    exact .inl (Prog.Erases.map _ (Prog.Every.erases (every_stopStream rfl (fun _ => rfl) fun _ => rfl)))
  | refreshPushToken inp id => exact .inl ((s.uncached_refreshPushToken inp id).map _)
  | onPublish client now key token => exact .inl ((s.uncached_onPublish now key token).map _)
  | onUnpublish client now key => exact .inl ((s.uncached_onUnpublish now key).map _)
  | onPlay key =>
    refine .inl (Prog.Erases.map _ (s.uncached_countViewer ?_ key))
    exact fun _ => ⟨rfl, fun _ => trivial⟩
  | onStop key =>
    refine .inl (Prog.Erases.map _ (s.uncached_countViewer ?_ key))
    exact fun _ => ⟨rfl, fun _ => trivial⟩
  | getTasks agentID =>
    exact .inl (Prog.Erases.map _ (Prog.Every.erases (every_getTasks rfl (fun _ => rfl) fun _ _ => rfl)))
  | updateTask id status errorMsg =>
    exact .inl (Prog.Erases.map _ (Prog.Every.erases (every_updateTask rfl rfl fun _ => rfl)))

theorem erasure_withoutCache : Erasure s.machine s.withoutCache.machine SameRecords
    (fun o => o.isCaching = true) (fun o => o.isRedis = false) isGetStream where
  dropped ch _ _ _ ho h := h.dropped ch ho
  kept ch _ _ _ ho h := h.kept ch ho
  body := s.body_uncached

end StreamService

/-- **The cache decides nothing**: whatever Redis holds and does, a run of the server is a run
of the server without Redis, made of the same calls, with the same rows, counters and gauges
(but the number of viewers), and with the same reply to each call but the reads through the
cache. -/
theorem cache_decides_nothing (s : StreamService) {w w' : World} (hw : SameRecords w w')
    {ts : List ServerTransition} (h : s.machine.Trace (.start w) ts) :
    ∃ ts', s.withoutCache.machine.Trace (.start w') ts' ∧
      SameRecords (Machine.final (.start w) ts).world (Machine.final (.start w') ts').world ∧
      (Machine.final (.start w') ts').threads.map Thread.call =
        (Machine.final (.start w) ts).threads.map Thread.call ∧
      ∀ (i : Nat) (call : Call) (reply : Reply),
        (Machine.final (.start w) ts).threads[i]? = some ⟨call, .done reply⟩ →
        (∀ id, call ≠ .getStream id) →
        (Machine.final (.start w') ts').threads[i]? = some ⟨call, .done reply⟩ := by
  have hstart : Erased SameRecords (fun o : Op => o.isCaching = true) (fun o : Op => o.isRedis = false)
      StreamService.isGetStream (.start w : ServerConfig) (.start w') := by
    refine ⟨hw, rfl, ?_⟩
    intro i call p hth
    cases hth
  obtain ⟨ts', htr', herased⟩ := Machine.Trace.erase s.erasure_withoutCache h hstart
  refine ⟨ts', htr', herased.world, herased.calls, ?_⟩
  intro i call reply hth hcall
  apply herased.returned _ hth
  rintro ⟨id, hid⟩
  exact hcall id hid

/-- The sample stream is created while Redis fails once. -/
theorem cache_decides_nothing_created : ∃ ts', StreamService.sample.withoutCache.machine.Trace (.start .empty) ts' ∧
    ((Machine.final (.start .empty) ts').world.db.streamAt sampleID).isSome = true := by
  obtain ⟨ts, htr, hP⟩ := Machine.exists_trace StreamService.sample.machine (.start .empty)
    [.spawn (.createStream (.sample 1) {}), .step 0 { id := sampleID }, .step 0 { fault := true }, .step 0 {}]
    (fun ts => ((Machine.final (.start .empty) ts).world.db.streamAt sampleID).isSome) (by decide)
  have hsame : SameRecords .empty .empty := ⟨rfl, rfl, fun _ _ _ => rfl⟩
  obtain ⟨ts', htr', hrecords, _⟩ := cache_decides_nothing .sample hsame htr
  refine ⟨ts', htr', ?_⟩
  rw [hrecords.db]
  exact hP

end LiveServer
