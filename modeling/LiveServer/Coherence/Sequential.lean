import LiveServer.Alone

/-! The cache when requests come one after another.

Database calls may fail at any point and entries may expire at any moment; Redis
commands succeed. Every operation then leaves the cache in agreement with the rows
(`CacheMatches`), with two exceptions that are the caller's spelling: `DeleteStream`
removes the keys of the id as it was typed, where the database takes any spelling of
a UUID, and `CreateStream` caches the bitrate as it was sent, where the column cuts
blanks off an over-long one. -/
namespace LiveServer
open Concurrent Relational

/-- The entries of a stream say what its row says, and there are none without a row. -/
structure Agree (x : Redis.Entries) (row : Option Stream) : Prop where
  status : ∀ e, x.status = some e → ∃ d r, e.value = .status d ∧ row = some r ∧
    d.status = r.status ∧ d.bitrate = r.bitrate
  playURLs : ∀ e, x.playURLs = some e → ∃ u r, e.value = .playURLs u ∧ row = some r ∧
    u.hlsURL = r.hlsURL ∧ u.flvURL = r.flvURL
  viewers : ∀ e, x.viewers = some e → ∃ r, row = some r

def CacheMatches (w : World) : Prop := ∀ id, Agree (w.redis.entries id) (w.db.streamAt id)

/-- The worlds a server gets to by serving requests one after another, while entries
expire. -/
inductive Reachable (s : StreamService) (ok : Op → Choice → Prop) (serves : Call → Prop) : World → Prop
  | start : Reachable s ok serves .empty
  | call {call : Call} {w w' : World} {reply : Reply} : Reachable s ok serves w → serves call →
      Prog.Runs World.perform ok (s.body call) w reply w' → Reachable s ok serves w'
  | expire {w : World} (keys : List Str) : Reachable s ok serves w → Reachable s ok serves (w.expire keys)

/-- Redis commands succeed; anything else may fail. -/
def redisSucceeds (o : Op) (ch : Choice) : Prop := o.isRedis = true → ch.fault = false

/-- The requests on streams, with a delete that spells its id as the database does and a
create whose bitrate is stored as it is sent. -/
def AsStored : Call → Prop
  | .createStream _ req => ∀ b, varchar 10 req.bitrate = some b → b = req.bitrate
  | .deleteStream id => ∀ u, uuidIn id = some u → u = id
  | .getTasks _ => False
  | .updateTask .. => False
  | _ => True

section
variable {s : StreamService} {w w' : World}

theorem redisUp_redisSucceeds : RedisUp redisSucceeds := fun _ _ h => h

/-! ### One stream -/

section
variable {x x' : Redis.Entries} {r r' : Stream}

theorem Agree.le {row : Option Stream} (h : Agree x row) (hle : x'.Le x) : Agree x' row :=
  ⟨fun e he => h.status e (hle.status e he), fun e he => h.playURLs e (hle.playURLs e he),
    fun e he => h.viewers e (hle.viewers e he)⟩

theorem agree_empty (row : Option Stream) : Agree .empty row :=
  ⟨fun _ h => (by cases h), fun _ h => (by cases h), fun _ h => (by cases h)⟩

/-- Without a row there are no entries. -/
theorem Agree.eq_empty (h : Agree x none) : x = .empty := by
  have hnone {o : Option Entry} (ho : ∀ e, o = some e → ∃ r : Stream, none = some r) : o = none := by
    cases o with
    | none => rfl
    | some e =>
      obtain ⟨r, hr⟩ := ho e rfl
      cases hr
  obtain ⟨status, playURLs, viewers⟩ := x
  have hstatus : status = none := by
    apply hnone
    intro e he
    obtain ⟨_, r, _, hr, _⟩ := h.status e he
    exact ⟨r, hr⟩
  have hplay : playURLs = none := by
    apply hnone
    intro e he
    obtain ⟨_, r, _, hr, _⟩ := h.playURLs e he
    exact ⟨r, hr⟩
  have hviewers : viewers = none := hnone h.viewers
  rw [hstatus, hplay, hviewers]
  rfl

/-- A row with a new status, cached with it. -/
theorem Agree.setStatus (h : Agree x (some r)) {d : StreamStatusData} (hstatus : d.status = r'.status)
    (hbitrate : d.bitrate = r'.bitrate) (hhls : r'.hlsURL = r.hlsURL) (hflv : r'.flvURL = r.flvURL) :
    Agree { x with status := some ⟨.status d, true⟩ } (some r') where
  status e he := by
    cases he
    exact ⟨d, r', rfl, rfl, hstatus, hbitrate⟩
  playURLs e he := by
    obtain ⟨u, r₀, hu, hr₀, h1, h2⟩ := h.playURLs e he
    cases hr₀
    exact ⟨u, r', hu, rfl, h1.trans hhls.symm, h2.trans hflv.symm⟩
  viewers _ _ := ⟨r', rfl⟩

theorem Agree.setPlayURLs (h : Agree x (some r)) {u : PlayURLData} (hhls : u.hlsURL = r.hlsURL)
    (hflv : u.flvURL = r.flvURL) : Agree { x with playURLs := some ⟨.playURLs u, true⟩ } (some r) where
  status := h.status
  playURLs e he := by
    cases he
    exact ⟨u, r, rfl, rfl, hhls, hflv⟩
  viewers := h.viewers

theorem Agree.setViewers (h : Agree x (some r)) (e : Entry) :
    Agree { x with viewers := some e } (some r) where
  status := h.status
  playURLs := h.playURLs
  viewers _ _ := ⟨r, rfl⟩

/-- A row that changes nothing of what is cached. -/
theorem Agree.withPushAuth (h : Agree x (some r)) (token pushURL : Str) :
    Agree x (some (r.withPushAuth token pushURL)) where
  status e he := by
    obtain ⟨d, r₀, hd, hr₀, h1, h2⟩ := h.status e he
    cases hr₀
    exact ⟨d, _, hd, rfl, h1, h2⟩
  playURLs e he := by
    obtain ⟨u, r₀, hu, hr₀, h1, h2⟩ := h.playURLs e he
    cases hr₀
    exact ⟨u, _, hu, rfl, h1, h2⟩
  viewers _ _ := ⟨_, rfl⟩

end

/-! ### What each outcome keeps -/

theorem CacheMatches.faded (h : CacheMatches w) (hf : Faded w w') : CacheMatches w' := by
  intro id
  rw [hf.db]
  exact (h id).le (hf.redis.entries id)

/-- A status update with its cache write. -/
theorem CacheMatches.status (h : CacheMatches w) {row : Stream} {status : Status} {extra : StatusExtra}
    {d : StreamStatusData} (hrow : w.db.streamAt row.id = some row)
    (hupd : w.db.updateStreamStatus row.id status extra = .ok w'.db) (hstatus : d.status = status)
    (hbitrate : d.bitrate = row.bitrate) (hredis : w'.redis.Le (w.redis.setStreamStatus row.id d)) :
    CacheMatches w' := by
  obtain ⟨u, hu, hupd⟩ := DB.updateStreamStatus_ok hupd
  cases (DB.uuidIn_streamAt hrow).symm.trans hu
  intro id
  refine Agree.le ?_ (hredis.entries id)
  rw [Redis.entries_setStreamStatus, hupd.streamAt]
  split
  · rename_i hid
    subst hid
    have hold := h row.id
    rw [hrow] at hold ⊢
    exact hold.setStatus hstatus hbitrate rfl rfl
  · exact h id

theorem CacheMatches.create (h : CacheMatches w) {x stream : Stream} {id : Str} {now : Time}
    {d : StreamStatusData} {u : PlayURLData} (hc : w.db.createStream x id now = .ok (stream, w'.db))
    (hcut : ∀ b, varchar 10 x.bitrate = some b → b = x.bitrate)
    (hstatus : d.status = stream.status) (hbitrate : d.bitrate = stream.bitrate)
    (hhls : u.hlsURL = stream.hlsURL) (hflv : u.flvURL = stream.flvURL)
    (hredis : w'.redis.Le ((w.redis.setStreamStatus stream.id d).setPlayURLs stream.id u)) :
    CacheMatches w' := by
  obtain ⟨rfl, row, hcol, hid, hins⟩ := DB.createStream_ok hc
  obtain ⟨_, _, _, _, b, _, hb, hrow⟩ := DB.columns_spec hcol
  intro v
  refine Agree.le ?_ (hredis.entries v)
  rw [Redis.entries_setPlayURLs, Redis.entries_setStreamStatus, hins.streamAt, hid]
  split
  · rename_i hv
    have hv : v = row.id := by
      rw [hid]
      exact hv
    -- a new id has no row, so nothing is cached for it yet
    have hnone : w.db.streamAt v = none := by
      cases hat : w.db.streamAt v with
      | none => rfl
      | some r => exact absurd (hv ▸ DB.issued_of_streamAt hat) hins.fresh
    have hempty := (hnone ▸ h v).eq_empty
    rw [hempty]
    have hnew : Agree .empty (some row) := agree_empty _
    refine Agree.setPlayURLs (Agree.setStatus hnew ?_ ?_ rfl rfl) ?_ ?_
    · rw [hstatus, hrow]
    · rw [hbitrate, hrow]
      exact (hcut b hb).symm
    · rw [hhls, hrow]
    · rw [hflv, hrow]
  · exact h v

theorem CacheMatches.refresh (h : CacheMatches w) {id token pushURL : Str}
    (hupd : w.db.updateStreamPushAuth id token pushURL = .ok w'.db) (hredis : w'.redis.Le w.redis) :
    CacheMatches w' := by
  obtain ⟨u, hu, hupd⟩ := DB.updateStreamPushAuth_ok hupd
  intro v
  refine Agree.le ?_ (hredis.entries v)
  rw [hupd.streamAt]
  split
  · rename_i hv
    subst hv
    have hold := h v
    cases hat : w.db.streamAt v with
    | none =>
      rw [hat] at hold
      exact hold
    | some r =>
      rw [hat] at hold
      exact hold.withPushAuth token pushURL
  · exact h v

/-- Keys first, then the row, of the stream the id names. -/
theorem CacheMatches.delete (h : CacheMatches w) {id : Str} (hid : uuidIn id = some id)
    (hdb : w'.db = w.db ∨ w.db.deleteStream id = .ok w'.db)
    (hredis : w'.redis.Le (w.redis.deleteStreamCache id)) : CacheMatches w' := by
  intro v
  refine Agree.le ?_ (hredis.entries v)
  rw [Redis.entries_deleteStreamCache]
  split
  · exact agree_empty _
  · rename_i hv
    rcases hdb with hdb | hdel
    · rw [hdb]
      exact h v
    · obtain ⟨u, hu, hd⟩ := DB.deleteStream_ok hdel
      cases hid.symm.trans hu
      rw [hd.streamAt, if_neg hv]
      exact h v

theorem CacheMatches.count (h : CacheMatches w) {row : Stream} {e : Entry}
    (hrow : w.db.streamAt row.id = some row) (hdb : w'.db = w.db)
    (hredis : w'.redis.Le (w.redis.set (viewersKey row.id) e)) : CacheMatches w' := by
  intro v
  refine Agree.le ?_ (hredis.entries v)
  rw [Redis.entries_setViewers, hdb]
  split
  · rename_i hv
    subst hv
    have hold := h row.id
    rw [hrow] at hold ⊢
    exact hold.setViewers e
  · exact h v

/-! ### Whole runs -/

/-- One request keeps the agreement. -/
theorem CacheMatches.call (hcache : s.cache = true) (h : CacheMatches w) {call : Call} {reply : Reply}
    (hcall : AsStored call) (hrun : Prog.Runs World.perform redisSucceeds (s.body call) w reply w') :
    CacheMatches w' := by
  have hup := redisUp_redisSucceeds
  cases call with
  | createStream inp req =>
    obtain ⟨_, _, hrun⟩ := Prog.Runs.of_map hrun
    cases hrun.wp (StreamService.alone_createStream inp req) with
    | failed hf => exact h.faded hf
    | created _ hc hst hb hhls hflv hr => exact h.create hc hcall hst hb hhls hflv (hr hcache hup)
  | getStream id => exact h.faded (body_quiet (fun o ho => by cases ho <;> rfl) hrun)
  | deleteStream id =>
    obtain ⟨_, _, hrun⟩ := Prog.Runs.of_map hrun
    cases hrun.wp (StreamService.alone_deleteStream id) with
    | kept hf => exact h.faded hf
    | cleaned hu _ hdb hr =>
      have hid := hcall _ hu
      exact h.delete (hu.trans (congrArg some hid)) hdb (hr hcache hup)
  | startStream id => exact h.faded (body_quiet (fun o ho => by cases ho <;> rfl) hrun)
  | stopStream id => exact h.faded (body_quiet (fun o ho => by cases ho <;> rfl) hrun)
  | refreshPushToken inp id =>
    obtain ⟨_, _, hrun⟩ := Prog.Runs.of_map hrun
    cases hrun.wp (StreamService.alone_refreshPushToken inp id) with
    | kept hf => exact h.faded hf
    | refreshed _ _ _ hupd hr => exact h.refresh hupd hr
  | onPublish client now key token =>
    obtain ⟨_, _, hrun⟩ := Prog.Runs.of_map hrun
    cases hrun.wp (StreamService.alone_onPublish now key token) with
    | rejected hf _ => exact h.faded hf
    | accepted hrow _ _ hupd hst hb hr =>
      exact h.status (DB.streamAt_of_streamOf hrow) hupd hst hb (hr hcache hup)
  | onUnpublish client now key =>
    obtain ⟨_, _, hrun⟩ := Prog.Runs.of_map hrun
    cases hrun.wp (StreamService.alone_onUnpublish now key) with
    | ignored hf _ => exact h.faded hf
    | ended hrow hupd hst hb hr =>
      exact h.status (DB.streamAt_of_streamOf hrow) hupd hst hb ((hr hcache hup).trans (Redis.del_le _ _))
  | onPlay key =>
    obtain ⟨_, _, hrun⟩ := Prog.Runs.of_map hrun
    cases hrun.wp (StreamService.alone_onPlay key) with
    | kept hf => exact h.faded hf
    | counted hrow hdb hr => exact h.count (DB.streamAt_of_streamOf hrow) hdb hr
  | onStop key =>
    obtain ⟨_, _, hrun⟩ := Prog.Runs.of_map hrun
    cases hrun.wp (StreamService.alone_onStop key) with
    | kept hf => exact h.faded hf
    | counted hrow hdb hr => exact h.count (DB.streamAt_of_streamOf hrow) hdb hr
  | getTasks agentID => exact hcall.elim
  | updateTask id status errorMsg => exact hcall.elim

/-- **The sequential cache invariant**: whatever database calls fail and whatever expires,
every entry agrees with its row. -/
theorem cacheMatches_of_reachable (hcache : s.cache = true)
    (h : Reachable s redisSucceeds AsStored w) : CacheMatches w := by
  induction h with
  | start => exact fun _ => agree_empty _
  | call _ hcall hrun ih => exact ih.call hcache hcall hrun
  | expire keys _ ih => exact ih.faded (faded_expire _ keys)

end

theorem reachable_sampleServe {ok : Op → Choice → Prop} {serves : Call → Prop} {w : World}
    (h : Reachable .sample ok serves w) (call : Call) (hcall : serves call)
    (hok : ∀ o ch, noFaults o ch → ok o ch) :
    Reachable .sample ok serves (sampleServe call w) :=
  .call h hcall (Prog.exec_runs _ _ w fun _ o => hok o _ rfl)

theorem redisSucceeds_of_noFaults (o : Op) (ch : Choice) (h : noFaults o ch) : redisSucceeds o ch :=
  fun _ => h

/-- A stream that is created, published and watched. -/
theorem cacheMatches_of_reachable_run :
    CacheMatches (sampleServe (.onPlay sampleKey.val)
      (sampleServe (.onPublish 1 0 sampleKey.val (sampleToken 1))
        (sampleServe (.createStream (.sample 1) { bitrate := lit "2000k" }) .empty))) := by
  refine cacheMatches_of_reachable (s := .sample) rfl ?_
  have hcreated := reachable_sampleServe (.start : Reachable .sample redisSucceeds AsStored .empty)
    (.createStream (.sample 1) { bitrate := lit "2000k" }) (fun b hb => (Option.some.inj hb).symm)
    redisSucceeds_of_noFaults
  have hpublished := reachable_sampleServe hcreated
    (.onPublish 1 0 sampleKey.val (sampleToken 1)) trivial redisSucceeds_of_noFaults
  exact reachable_sampleServe hpublished (.onPlay sampleKey.val) trivial redisSucceeds_of_noFaults

/-- Deleting a stream by another spelling of its id leaves its keys; a bitrate that the
column cuts is cached uncut. -/
theorem cache_mismatches :
    (∃ w, Reachable .sample redisSucceeds (fun _ => True) w ∧ w.db.streamAt sampleID = none ∧
      ¬ CacheMatches w) ∧
    (∃ w, Reachable .sample redisSucceeds (fun _ => True) w ∧ (w.db.streamAt sampleID).isSome ∧
      ¬ CacheMatches w) := by
  have hstart : Reachable .sample redisSucceeds (fun _ => True) .empty := .start
  constructor
  · have hcreated := reachable_sampleServe hstart (.createStream (.sample 1) {}) trivial
      redisSucceeds_of_noFaults
    have hdeleted := reachable_sampleServe hcreated
      (.deleteStream (lit "AAAAAAAA-BBBB-4CCC-8DDD-EEEEEEEEEEEE")) trivial redisSucceeds_of_noFaults
    generalize hw : sampleServe (.deleteStream (lit "AAAAAAAA-BBBB-4CCC-8DDD-EEEEEEEEEEEE")) _ = w at hdeleted
    have hnone : w.db.streamAt sampleID = none := by
      rw [← hw]
      decide
    have hcached : (w.redis.entries sampleID).status.isSome = true := by
      rw [← hw]
      decide
    refine ⟨w, hdeleted, hnone, fun h => ?_⟩
    obtain ⟨e, he⟩ := Option.isSome_iff_exists.mp hcached
    obtain ⟨_, _, _, hrow, _⟩ := (h sampleID).status e he
    rw [hnone] at hrow
    cases hrow
  · have hcreated := reachable_sampleServe hstart
      (.createStream (.sample 1) { bitrate := lit "2000k      " }) trivial redisSucceeds_of_noFaults
    generalize hw : sampleServe (.createStream (.sample 1) { bitrate := lit "2000k      " }) _ = w at hcreated
    have hcached : (w.redis.entries sampleID).status =
        some ⟨.status ⟨.created, lit "2000k      ", 0, []⟩, true⟩ := by
      rw [← hw]
      decide
    have hstored : (w.db.streamAt sampleID).map Stream.bitrate = some (lit "2000k     ") := by
      rw [← hw]
      decide
    obtain ⟨row, hrow, hbitrate⟩ := Option.map_eq_some_iff.mp hstored
    refine ⟨w, hcreated, by rw [hrow]; rfl, fun h => ?_⟩
    obtain ⟨d, r, hd, hr, _, hb⟩ := (h sampleID).status _ hcached
    cases hd
    cases hrow.symm.trans hr
    rw [hbitrate] at hb
    revert hb
    decide

end LiveServer
