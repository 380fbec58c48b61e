import LiveServer.Footprint

/-! Requests served alone.

One rule for each call (`wp_…`) says what a program may assume of its answer and of
the stores after it, and one lemma for each request (`alone_…`) what it has done to
the stores when it returns. The rules hold however the services behave; what needs
Redis to succeed says so (`RedisUp`). Entries may expire at any moment, so Redis is
described up to `Redis.Le`. -/
namespace LiveServer
open Concurrent Relational

def Op.isRedis : Op → Bool
  | .setStreamStatus .. | .getStreamStatus _ | .setPlayURLs .. | .incrViewers _ | .decrViewers _
  | .resetViewers _ | .getViewers _ | .setViewers .. | .deleteStreamCache _ => true
  | _ => false

/-- Calls that write neither store. -/
def Op.isQuiet : Op → Bool
  | .getStreamByID _ | .getStreamByKey _ | .listStreams _ | .getPendingTasks _ | .getTaskByID _
  | .getStreamStatus _ | .getViewers _ | .findPublishingClient _ | .listAllClients | .kickClient _
  | .set .. | .deleteLabelValues .. | .inc .. => true
  | _ => false

/-- Redis commands succeed. -/
def RedisUp (ok : Op → Choice → Prop) : Prop := ∀ o ch, ok o ch → o.isRedis = true → ch.fault = false

/-- Every call succeeds. -/
def Up (ok : Op → Choice → Prop) : Prop := ∀ o ch, ok o ch → ch.fault = false

/-- No call fails. -/
def noFaults (_ : Op) (ch : Choice) : Prop := ch.fault = false

theorem up_noFaults : Up noFaults := fun _ _ h => h

/-- Nothing is written to either store; entries may be gone. -/
structure Faded (w w' : World) : Prop where
  db : w'.db = w.db
  redis : w'.redis.Le w.redis

theorem Faded.refl (w : World) : Faded w w := ⟨rfl, .refl _⟩

theorem Faded.trans {w w' w'' : World} (h : Faded w w') (h' : Faded w' w'') : Faded w w'' :=
  ⟨h'.db.trans h.db, h'.redis.trans h.redis⟩

theorem perform_faded {o : Op} (h : o.isQuiet = true) (ch : Choice) (w : World) :
    Faded w (World.perform ch o w).2 := by
  have hexp := w.redis.expire_le ch.expired
  cases o with
  | kickClient _ => exact ⟨rfl, hexp⟩
  | getStreamByID _ => exact ⟨rfl, hexp⟩
  | getStreamByKey _ => exact ⟨rfl, hexp⟩
  | listStreams _ => exact ⟨rfl, hexp⟩
  | listAllClients => exact ⟨rfl, hexp⟩
  | getPendingTasks _ => exact ⟨rfl, hexp⟩
  | getTaskByID _ => exact ⟨rfl, hexp⟩
  | getStreamStatus _ => exact ⟨rfl, hexp⟩
  | getViewers _ => exact ⟨rfl, hexp⟩
  | findPublishingClient _ => exact ⟨rfl, hexp⟩
  | set _ _ _ => exact ⟨rfl, hexp⟩
  | deleteLabelValues _ _ => exact ⟨rfl, hexp⟩
  | inc _ _ => exact ⟨rfl, hexp⟩
  | _ => cases h

section
variable {ok : Op → Choice → Prop} {Q : β → World → Prop} {w : World}

/-! ### Rules -/

theorem wp_quiet {o : Op} (ho : o.isQuiet = true) {f : o.Res → Server β}
    (h : ∀ r w', Faded w w' → (f r).wp World.perform ok Q w') :
    (Prog.op o >>= f).wp World.perform ok Q w :=
  fun ch _ => h _ _ (perform_faded ho ch w)

/-- A program that writes neither store. -/
theorem wp_all_quiet {p : Server β} (h : p.Every (·.isQuiet = true)) :
    p.wp World.perform ok (fun _ w' => Faded w w') w := by
  induction p generalizing w with
  | done a => exact .refl w
  | call o k ih =>
    intro ch _
    have hfirst := perform_faded h.1 ch w
    exact Prog.wp_mono (fun _ w' h' => hfirst.trans h') (ih _ (h.2 _))

theorem wp_getStreamByKey {key : Str} {f : Except GoError Stream → Server β}
    (herr : ∀ e w', (Up ok → w.db.streamOf key = none) → Faded w w' →
      (f (.error e)).wp World.perform ok Q w')
    (hok : ∀ row w', w.db.streamOf key = some row → Faded w w' →
      (f (.ok row)).wp World.perform ok Q w') :
    (db.getStreamByKey key >>= f).wp World.perform ok Q w := by
  intro ch hch
  have hfaded : Faded w (World.perform ch (.getStreamByKey key) w).2 := perform_faded rfl ch w
  cases hr : (World.perform ch (.getStreamByKey key) w).1 with
  | error e => exact herr e _ (fun hup => World.perform_getStreamByKey_error (hup _ _ hch) hr) hfaded
  | ok row => exact hok row _ (World.perform_getStreamByKey_ok hr) hfaded

theorem wp_getStreamByID {id : Str} {f : Except GoError Stream → Server β}
    (herr : ∀ e w', Faded w w' → (f (.error e)).wp World.perform ok Q w')
    (hok : ∀ row w', uuidIn id = some row.id → w.db.streamAt row.id = some row → Faded w w' →
      (f (.ok row)).wp World.perform ok Q w') :
    (db.getStreamByID id >>= f).wp World.perform ok Q w := by
  intro ch _
  have hfaded : Faded w (World.perform ch (.getStreamByID id) w).2 := perform_faded rfl ch w
  cases hr : (World.perform ch (.getStreamByID id) w).1 with
  | error e => exact herr e _ hfaded
  | ok row =>
    obtain ⟨hu, hrow⟩ := World.perform_getStreamByID_ok hr
    exact hok row _ hu hrow hfaded

/-- A statement: an error that changes nothing, or what it should do. -/
theorem write_alone (ch : Choice) (w : World) (r : Except GoError DB) :
    ((∃ e, ((w.expire ch.expired).write ch r).1 = some e) ∧ Faded w ((w.expire ch.expired).write ch r).2) ∨
      (((w.expire ch.expired).write ch r).1 = none ∧ r = .ok ((w.expire ch.expired).write ch r).2.db ∧
        ((w.expire ch.expired).write ch r).2.redis.Le w.redis) := by
  have hredis : ((w.expire ch.expired).write ch r).2.redis.Le w.redis := by
    rw [World.write_redis]
    exact w.redis.expire_le ch.expired
  rcases World.write_db (w.expire ch.expired) ch r with ⟨hne, hdb⟩ | ⟨hnone, hr⟩
  · exact .inl ⟨Option.ne_none_iff_exists'.mp hne, hdb, hredis⟩
  · exact .inr ⟨hnone, hr, hredis⟩

theorem wp_updateStreamStatus {id : Str} {status : Status} {extra : StatusExtra}
    {f : Option GoError → Server β}
    (herr : ∀ e w', (Up ok → uuidIn id = none) → Faded w w' → (f (some e)).wp World.perform ok Q w')
    (hok : ∀ w', w.db.updateStreamStatus id status extra = .ok w'.db → w'.redis.Le w.redis →
      (f none).wp World.perform ok Q w') :
    (db.updateStreamStatus id status extra >>= f).wp World.perform ok Q w := by
  intro ch hch
  rcases write_alone ch w (w.db.updateStreamStatus id status extra) with ⟨⟨e, he⟩, hw⟩ | ⟨he, hw, hr⟩
  · have he : (World.perform ch (.updateStreamStatus id status extra) w).1 = some e := he
    have hwhy (hup : Up ok) : uuidIn id = none :=
      World.perform_updateStreamStatus_some (hup _ _ hch) he
    exact he ▸ herr e _ hwhy hw
  · exact (show (World.perform ch (.updateStreamStatus id status extra) w).1 = none from he) ▸
      hok _ hw hr

theorem wp_updateStreamPushAuth {id token pushURL : Str} {f : Option GoError → Server β}
    (herr : ∀ e w', Faded w w' → (f (some e)).wp World.perform ok Q w')
    (hok : ∀ w', w.db.updateStreamPushAuth id token pushURL = .ok w'.db → w'.redis.Le w.redis →
      (f none).wp World.perform ok Q w') :
    (db.updateStreamPushAuth id token pushURL >>= f).wp World.perform ok Q w := by
  intro ch _
  rcases write_alone ch w (w.db.updateStreamPushAuth id token pushURL) with ⟨⟨e, he⟩, hw⟩ | ⟨he, hw, hr⟩
  · exact (show (World.perform ch (.updateStreamPushAuth id token pushURL) w).1 = some e from he) ▸
      herr e _ hw
  · exact (show (World.perform ch (.updateStreamPushAuth id token pushURL) w).1 = none from he) ▸
      hok _ hw hr

theorem wp_deleteStream {id : Str} {Q : Option GoError → World → Prop}
    (herr : ∀ e w', Faded w w' → Q (some e) w')
    (hok : ∀ w', w.db.deleteStream id = .ok w'.db → w'.redis.Le w.redis → Q none w') :
    (db.deleteStream id).wp World.perform ok Q w := by
  intro ch _
  rcases write_alone ch w (w.db.deleteStream id) with ⟨⟨e, he⟩, hw⟩ | ⟨he, hw, hr⟩
  · exact (show (World.perform ch (.deleteStream id) w).1 = some e from he) ▸ herr e _ hw
  · exact (show (World.perform ch (.deleteStream id) w).1 = none from he) ▸ hok _ hw hr

theorem wp_createStream {x : Stream} {f : Except GoError Stream → Server β}
    (herr : ∀ e w', Faded w w' → (f (.error e)).wp World.perform ok Q w')
    (hok : ∀ s' id now w', w.db.createStream x id now = .ok (s', w'.db) → w'.redis.Le w.redis →
      (f (.ok s')).wp World.perform ok Q w') :
    (db.createStream x >>= f).wp World.perform ok Q w := by
  intro ch _
  have hredis : (World.perform ch (.createStream x) w).2.redis.Le w.redis := by
    simp only [World.perform, World.answer, World.insert_redis]
    exact w.redis.expire_le ch.expired
  rcases World.insert_db (w.expire ch.expired) ch (w.db.createStream x ch.id ch.now) with
    ⟨⟨e, he⟩, hw⟩ | ⟨s', he, hw⟩
  · exact (show (World.perform ch (.createStream x) w).1 = .error e from he) ▸ herr e _ ⟨hw, hredis⟩
  · exact (show (World.perform ch (.createStream x) w).1 = .ok s' from he) ▸
      hok s' ch.id ch.now _ hw hredis

theorem wp_getPendingTasks {agentID : Str} {f : Except GoError (List AgentTask) → Server β}
    (herr : ∀ e w', ¬ Up ok → Faded w w' → (f (.error e)).wp World.perform ok Q w')
    (hok : ∀ w', Faded w w' → (f (.ok (w.db.getPendingTasks agentID))).wp World.perform ok Q w') :
    (db.getPendingTasks agentID >>= f).wp World.perform ok Q w := by
  intro ch hch
  have hfaded : Faded w (World.perform ch (.getPendingTasks agentID) w).2 := perform_faded rfl ch w
  cases hr : (World.perform ch (.getPendingTasks agentID) w).1 with
  | error e =>
    refine herr e _ (fun hup => ?_) hfaded
    rw [World.perform_getPendingTasks (hup _ _ hch)] at hr
    cases hr
  | ok tasks =>
    have htasks : w.db.getPendingTasks agentID = tasks := Except.ok.inj (World.read_ok hr)
    exact htasks ▸ hok _ hfaded

theorem wp_updateTaskStatus {id status errMsg : Str} {f : Option GoError → Server β}
    (herr : ∀ e w', (Up ok → uuidIn id = none ∨ varchar 20 status = none) → Faded w w' →
      (f (some e)).wp World.perform ok Q w')
    (hok : ∀ now w', w.db.updateTaskStatus id status errMsg now = .ok w'.db →
      (f none).wp World.perform ok Q w') :
    (db.updateTaskStatus id status errMsg >>= f).wp World.perform ok Q w := by
  intro ch hch
  rcases write_alone ch w (w.db.updateTaskStatus id status errMsg ch.now) with
    ⟨⟨e, he⟩, hw⟩ | ⟨he, hw, _⟩
  · have he : (World.perform ch (.updateTaskStatus id status errMsg) w).1 = some e := he
    have hwhy (hup : Up ok) : uuidIn id = none ∨ varchar 20 status = none :=
      World.perform_updateTaskStatus_some (hup _ _ hch) he
    exact he ▸ herr e _ hwhy hw
  · exact (show (World.perform ch (.updateTaskStatus id status errMsg) w).1 = none from he) ▸
      hok ch.now _ hw

/-- A Redis write: the database is untouched, and where Redis is up it is done. -/
theorem cacheWrite_alone {o : Op} {ch : Choice} (hok : ok o ch) (ho : o.isRedis = true) (w : World)
    {r : Redis → Redis} (hmono : ∀ r₁ r₂ : Redis, r₁.Le r₂ → (r r₁).Le (r r₂))
    (hperf : (World.perform ch o w).2 =
      ((w.expire ch.expired).cacheWrite ch (r (w.redis.expire ch.expired))).2) :
    (World.perform ch o w).2.db = w.db ∧
      (RedisUp ok → (World.perform ch o w).2.redis.Le (r w.redis)) := by
  rw [hperf]
  refine ⟨World.cacheWrite_db _, fun hup => ?_⟩
  have hf := hup o ch hok ho
  rcases World.cacheWrite_redis (w.expire ch.expired) ch (r (w.redis.expire ch.expired)) with
    ⟨hfault, _⟩ | h
  · rw [hf] at hfault
    cases hfault
  · rw [h]
    exact hmono _ _ (w.redis.expire_le ch.expired)

theorem wp_setStreamStatus {id : Str} {d : StreamStatusData} {f : Option GoError → Server β}
    (h : ∀ r w', w'.db = w.db → (RedisUp ok → w'.redis.Le (w.redis.setStreamStatus id d)) →
      (f r).wp World.perform ok Q w') :
    (cache.setStreamStatus id d >>= f).wp World.perform ok Q w := by
  intro ch hok
  obtain ⟨hdb, hredis⟩ := cacheWrite_alone (r := fun r => r.setStreamStatus id d) hok rfl w
    (fun _ _ h => h.set _ _) rfl
  exact h _ _ hdb hredis

theorem wp_setPlayURLs {id : Str} {d : PlayURLData} {f : Option GoError → Server β}
    (h : ∀ r w', w'.db = w.db → (RedisUp ok → w'.redis.Le (w.redis.setPlayURLs id d)) →
      (f r).wp World.perform ok Q w') :
    (cache.setPlayURLs id d >>= f).wp World.perform ok Q w := by
  intro ch hok
  obtain ⟨hdb, hredis⟩ := cacheWrite_alone (r := fun r => r.setPlayURLs id d) hok rfl w
    (fun _ _ h => h.set _ _) rfl
  exact h _ _ hdb hredis

theorem wp_resetViewers {id : Str} {f : Option GoError → Server β}
    (h : ∀ r w', w'.db = w.db → (RedisUp ok → w'.redis.Le (w.redis.resetViewers id)) →
      (f r).wp World.perform ok Q w') :
    (cache.resetViewers id >>= f).wp World.perform ok Q w := by
  intro ch hok
  obtain ⟨hdb, hredis⟩ := cacheWrite_alone (r := fun r => r.resetViewers id) hok rfl w
    (fun _ _ h => h.del _) rfl
  exact h _ _ hdb hredis

theorem wp_deleteStreamCache {id : Str} {f : Option GoError → Server β}
    (h : ∀ r w', w'.db = w.db → (RedisUp ok → w'.redis.Le (w.redis.deleteStreamCache id)) →
      (f r).wp World.perform ok Q w') :
    (cache.deleteStreamCache id >>= f).wp World.perform ok Q w := by
  intro ch hok
  obtain ⟨hdb, hredis⟩ := cacheWrite_alone (r := fun r => r.deleteStreamCache id) hok rfl w
    (fun _ _ h => h.del _) rfl
  exact h _ _ hdb hredis

/-- A count: the database is untouched, Redis as it was or with a counter set. -/
theorem wp_incrViewers {id : Str} {f : Except GoError Int → Server β}
    (h : ∀ r w', w'.db = w.db → (w'.redis.Le w.redis ∨
      ∃ n v, w'.redis.Le (w.redis.set (viewersKey id) ⟨.int n, v⟩)) → (f r).wp World.perform ok Q w') :
    (cache.incrViewers id >>= f).wp World.perform ok Q w := by
  intro ch _
  have hexp := w.redis.expire_le ch.expired
  refine h _ _ (World.cacheCount_db _) ?_
  rcases World.cacheCount_redis (w.expire ch.expired) ch ((w.redis.expire ch.expired).incrViewers id) with
    hr | ⟨m, hr⟩
  · exact .inl (hr ▸ hexp)
  · obtain ⟨n, v, hset⟩ := Redis.incrViewers_ok hr
    exact .inr ⟨n, v, hset ▸ hexp.set _ _⟩

theorem wp_decrViewers {id : Str} {f : Except GoError Int → Server β}
    (h : ∀ r w', w'.db = w.db → (w'.redis.Le w.redis ∨
      ∃ n v, w'.redis.Le (w.redis.set (viewersKey id) ⟨.int n, v⟩)) → (f r).wp World.perform ok Q w') :
    (cache.decrViewers id >>= f).wp World.perform ok Q w := by
  intro ch _
  have hexp := w.redis.expire_le ch.expired
  refine h _ _ (World.cacheCount_db _) ?_
  rcases World.cacheCount_redis (w.expire ch.expired) ch ((w.redis.expire ch.expired).decrViewers id) with
    hr | ⟨m, hr⟩
  · exact .inl (hr ▸ hexp)
  · rcases Redis.decrViewers_ok hr with hsame | ⟨_, n, v, _, hset⟩
    · exact .inl (hsame ▸ hexp)
    · exact .inr ⟨n, v, hset ▸ hexp.set _ _⟩

end

/-! ### Requests -/

section
variable (s : StreamService) (ok : Op → Choice → Prop) (w : World)

/-- `OnPublish` rejects and writes nothing, or marks the row it was let in for. -/
inductive PublishOutcome (key token : Str) : Option GoError → World → Prop
  | rejected {e : GoError} {w' : World} : Faded w w' →
      (Up ok → ∀ row, w.db.streamOf key = some row →
        validatePublishToken row.pushToken token ≠ none ∨ row.status = .publishing) →
      PublishOutcome key token (some e) w'
  | accepted {row : Stream} {extra : StatusExtra} {d : StreamStatusData} {w' : World} :
      w.db.streamOf key = some row → validatePublishToken row.pushToken token = none →
      row.status ≠ .publishing → w.db.updateStreamStatus row.id .publishing extra = .ok w'.db →
      d.status = .publishing → d.bitrate = row.bitrate →
      (s.cache = true → RedisUp ok → w'.redis.Le (w.redis.setStreamStatus row.id d)) →
      PublishOutcome key token none w'

/-- `OnUnpublish` finds no row or fails and writes nothing, or ends the row's stream. -/
inductive UnpublishOutcome (key : Str) : World → Prop
  | ignored {w' : World} : Faded w w' → (Up ok → w.db.streamOf key = none) → UnpublishOutcome key w'
  | ended {row : Stream} {extra : StatusExtra} {d : StreamStatusData} {w' : World} :
      w.db.streamOf key = some row → w.db.updateStreamStatus row.id .ended extra = .ok w'.db →
      d.status = .ended → d.bitrate = row.bitrate →
      (s.cache = true → RedisUp ok →
        w'.redis.Le ((w.redis.setStreamStatus row.id d).resetViewers row.id)) →
      UnpublishOutcome key w'

/-- `CreateStream` fails and writes nothing, or inserts its record. -/
inductive CreateOutcome (inp : Inputs) (req : CreateStreamRequest) : World → Prop
  | failed {w' : World} : Faded w w' → CreateOutcome inp req w'
  | created {token id : Str} {now : Time} {stream : Stream} {d : StreamStatusData} {u : PlayURLData}
      {w' : World} : generatePublishToken inp.random = .ok token →
      w.db.createStream (s.newStream inp req token) id now = .ok (stream, w'.db) →
      d.status = stream.status → d.bitrate = stream.bitrate →
      u.hlsURL = stream.hlsURL → u.flvURL = stream.flvURL →
      (s.cache = true → RedisUp ok →
        w'.redis.Le ((w.redis.setStreamStatus stream.id d).setPlayURLs stream.id u)) →
      CreateOutcome inp req w'

/-- `DeleteStream` finds no row and writes nothing, or removes the keys of the id it was
given, and then the row unless that fails. -/
inductive DeleteOutcome (id : Str) : World → Prop
  | kept {w' : World} : Faded w w' → DeleteOutcome id w'
  | cleaned {row : Stream} {w' : World} : uuidIn id = some row.id →
      w.db.streamAt row.id = some row → w'.db = w.db ∨ w.db.deleteStream id = .ok w'.db →
      (s.cache = true → RedisUp ok → w'.redis.Le (w.redis.deleteStreamCache id)) → DeleteOutcome id w'

/-- `RefreshPushToken` fails and writes nothing, or replaces token and push URL. -/
inductive RefreshOutcome (inp : Inputs) (id : Str) : World → Prop
  | kept {w' : World} : Faded w w' → RefreshOutcome inp id w'
  | refreshed {row : Stream} {token : Str} {w' : World} : uuidIn id = some row.id →
      w.db.streamAt row.id = some row → generatePublishToken inp.random = .ok token →
      w.db.updateStreamPushAuth id token (s.pushURL row.streamKey token) = .ok w'.db →
      w'.redis.Le w.redis → RefreshOutcome inp id w'

/-- `UpdateTask` fails and writes nothing, or writes the status it is given to the task it
names, if there is one. -/
inductive ReportOutcome (id status errMsg : Str) : Bool → World → Prop
  | failed {w' : World} : Faded w w' → (Up ok → uuidIn id = none ∨ varchar 20 status = none) →
      ReportOutcome id status errMsg false w'
  | reported {u st : Str} {now : Time} {w' : World} : uuidIn id = some u →
      varchar 20 status = some st →
      w.db.TaskUpdated w'.db u (AgentTask.withStatus st errMsg now) →
      ReportOutcome id status errMsg true w'

/-- `OnPlay` and `OnStop` write nothing, or the counter of a stream that has its row. -/
inductive CountOutcome (key : Str) : World → Prop
  | kept {w' : World} : Faded w w' → CountOutcome key w'
  | counted {row : Stream} {n : Int} {v : Bool} {w' : World} : w.db.streamOf key = some row →
      w'.db = w.db → w'.redis.Le (w.redis.set (viewersKey row.id) ⟨.int n, v⟩) → CountOutcome key w'

end

namespace StreamService
variable {s : StreamService} {ok : Op → Choice → Prop} {w : World}

theorem alone_onPublish (now : Time) (key token : Str) :
    (s.onPublish now key token).wp World.perform ok (PublishOutcome s ok w key token) w := by
  refine wp_getStreamByKey (fun e w₁ hnone h₁ => ?_) fun row w₁ hrow h₁ => ?_
  · refine wp_quiet rfl fun _ w₂ h₂ => .rejected (h₁.trans h₂) fun hup row hrow => ?_
    rw [hnone hup] at hrow
    cases hrow
  · have honly (row' : Stream) (h' : w.db.streamOf key = some row') : row' = row :=
      Option.some.inj (h'.symm.trans hrow)
    simp only [validatePushToken]
    cases hval : validatePublishToken row.pushToken token with
    | some e =>
      refine wp_quiet rfl fun _ w₂ h₂ => .rejected (h₁.trans h₂) fun _ row' h' => .inl ?_
      rw [honly row' h', hval]
      exact Option.some_ne_none e
    | none =>
      simp only [Prog.pure_eq, Prog.done_bind]
      by_cases hst : row.status = .publishing
      · rw [if_pos hst]
        refine wp_quiet rfl fun _ w₂ h₂ => .rejected (h₁.trans h₂) fun _ row' h' => .inr ?_
        rw [honly row' h']
        exact hst
      · rw [if_neg hst]
        refine wp_updateStreamStatus (fun e w₂ hbad h₂ => ?_) fun w₂ hupd hr₂ => ?_
        · refine .rejected (h₁.trans h₂) fun hup _ _ => ?_
          exact absurd (hbad hup) (DB.uuidIn_of_streamOf hrow)
        · rw [h₁.db] at hupd
          have hle := hr₂.trans h₁.redis
          -- what is left writes the status to Redis, if there is one, and the gauges
          by_cases hcache : s.cache = true
          · simp only [hcache, if_true]
            refine wp_quiet rfl fun n w₃ h₃ => wp_setStreamStatus fun _ w₄ hdb₄ hr₄ =>
              wp_quiet rfl fun _ w₅ h₅ => wp_quiet rfl fun _ w₆ h₆ => ?_
            have h₆ := h₅.trans h₆
            refine .accepted (d := ⟨.publishing, row.bitrate, n.toOption.getD 0, s.formatRFC3339 now⟩)
              hrow hval hst (by rw [hupd, h₆.db, hdb₄, h₃.db]) rfl rfl fun _ hup => ?_
            exact h₆.redis.trans ((hr₄ hup).trans ((h₃.redis.trans hle).set _ _))
          · simp only [hcache]
            refine wp_quiet rfl fun _ w₃ h₃ => wp_quiet rfl fun _ w₄ h₄ => ?_
            exact .accepted (d := ⟨.publishing, row.bitrate, 0, []⟩) hrow hval hst
              (by rw [hupd, (h₃.trans h₄).db]) rfl rfl fun h => absurd h hcache

theorem alone_onUnpublish (now : Time) (key : Str) :
    (s.onUnpublish now key).wp World.perform ok (fun _ => UnpublishOutcome s ok w key) w := by
  refine wp_getStreamByKey (fun e w₁ hnone h₁ => .ignored h₁ hnone) fun row w₁ hrow h₁ => ?_
  refine wp_updateStreamStatus (fun e w₂ hbad h₂ => ?_) fun w₂ hupd hr₂ => ?_
  · refine .ignored (h₁.trans h₂) fun hup => ?_
    exact absurd (hbad hup) (DB.uuidIn_of_streamOf hrow)
  rw [h₁.db] at hupd
  have hle := hr₂.trans h₁.redis
  by_cases hcache : s.cache = true
  · simp only [hcache, if_true]
    refine wp_setStreamStatus fun _ w₃ hdb₃ hr₃ => wp_resetViewers fun _ w₄ hdb₄ hr₄ => ?_
    have hquiet (w₅ : World) (h₅ : Faded w₄ w₅) : UnpublishOutcome s ok w key w₅ := by
      refine .ended (d := ⟨.ended, row.bitrate, 0, []⟩) hrow (by rw [hupd, h₅.db, hdb₄, hdb₃]) rfl rfl ?_
      intro _ hup
      exact h₅.redis.trans ((hr₄ hup).trans (((hr₃ hup).trans (hle.set _ _)).del _))
    refine Prog.wp_mono (fun _ => hquiet) (wp_all_quiet ?_)
    cases row.startedAt <;> simp [Op.isQuiet]
  · simp only [hcache]
    have hquiet (w₃ : World) (h₃ : Faded w₂ w₃) : UnpublishOutcome s ok w key w₃ :=
      .ended (d := ⟨.ended, row.bitrate, 0, []⟩) hrow (by rw [hupd, h₃.db]) rfl rfl
        fun h => absurd h hcache
    refine Prog.wp_mono (fun _ => hquiet) (wp_all_quiet ?_)
    cases row.startedAt <;> simp [Op.isQuiet]

theorem alone_createStream (inp : Inputs) (req : CreateStreamRequest) :
    (s.createStream inp req).wp World.perform ok (fun _ => CreateOutcome s ok w inp req) w := by
  unfold createStream
  cases htok : generatePublishToken inp.random with
  | error e => exact .failed (.refl w)
  | ok token =>
    refine wp_createStream (fun e w₁ h₁ => .failed h₁) fun stream id now w₁ hc hr₁ => ?_
    simp only [cacheStatus, cachePlayURLs]
    by_cases hcache : s.cache = true
    · simp only [hcache, if_true]
      refine wp_setStreamStatus fun _ w₂ hdb₂ hr₂ => wp_setPlayURLs fun _ w₃ hdb₃ hr₃ => ?_
      refine .created htok (by rw [hc, hdb₃, hdb₂]) ?_ ?_ ?_ ?_ fun _ hup =>
        (hr₃ hup).trans (((hr₂ hup).trans (hr₁.set _ _)).set _ _)
      all_goals rfl
    · simp only [hcache]
      exact .created (d := ⟨stream.status, stream.bitrate, 0, []⟩)
        (u := ⟨stream.hlsURL, stream.flvURL, []⟩) htok hc rfl rfl rfl rfl fun h => absurd h hcache

theorem alone_deleteStream (id : Str) :
    (s.deleteStream id).wp World.perform ok (fun _ => DeleteOutcome s ok w id) w := by
  refine wp_getStreamByID (fun e w₁ h₁ => .kept h₁) fun row w₁ hu hrow h₁ => ?_
  -- the keys, then the row, once the publisher is dealt with
  have hcleanup (w₂ : World) (h₂ : Faded w w₂) : (do
      if s.cache then
        let _ ← cache.deleteStreamCache id
      db.deleteStream id : Server (Option GoError)).wp World.perform ok
        (fun _ => DeleteOutcome s ok w id) w₂ := by
    by_cases hcache : s.cache = true
    · simp only [hcache, if_true]
      refine wp_deleteStreamCache fun _ w₃ hdb₃ hr₃ => wp_deleteStream (fun e w₄ h₄ => ?_) fun w₄ hdel hr₄ => ?_
      · refine .cleaned hu hrow (.inl ?_) fun _ hup => ?_
        · rw [h₄.db, hdb₃, h₂.db]
        · exact h₄.redis.trans ((hr₃ hup).trans (h₂.redis.del _))
      · refine .cleaned hu hrow (.inr ?_) fun _ hup => ?_
        · rw [← hdel, hdb₃, h₂.db]
        · exact hr₄.trans ((hr₃ hup).trans (h₂.redis.del _))
    · simp only [hcache]
      refine wp_deleteStream (fun e w₃ h₃ => .kept (h₂.trans h₃)) fun w₃ hdel hr₃ => ?_
      exact .cleaned hu hrow (.inr (by rw [← hdel, h₂.db])) fun h => absurd h hcache
  dsimp only
  split
  · refine Prog.wp_bind (Prog.wp_mono (fun _ w₂ h₂ => hcleanup w₂ (h₁.trans h₂)) (wp_all_quiet ?_))
    exact every_stopPublishing row (fun _ => rfl) fun _ => rfl
  · exact hcleanup w₁ h₁

theorem alone_refreshPushToken (inp : Inputs) (id : Str) :
    (s.refreshPushToken inp id).wp World.perform ok (fun _ => RefreshOutcome s w inp id) w := by
  refine wp_getStreamByID (fun e w₁ h₁ => .kept h₁) fun row w₁ hu hrow h₁ => ?_
  dsimp only
  cases htok : generatePublishToken inp.random with
  | error e => exact .kept h₁
  | ok token =>
    refine wp_updateStreamPushAuth (fun e w₂ h₂ => .kept (h₁.trans h₂)) fun w₂ hupd hr₂ => ?_
    exact .refreshed hu hrow htok (by rw [← h₁.db, hupd]) (hr₂.trans h₁.redis)

/-- After a count comes at most the gauge. -/
theorem counted {key : Str} {row : Stream} {w₁ w₂ w₃ : World} (hrow : w.db.streamOf key = some row)
    (h₁ : Faded w w₁) (hdb₂ : w₂.db = w₁.db) (hr₂ : w₂.redis.Le w₁.redis ∨
      ∃ n v, w₂.redis.Le (w₁.redis.set (viewersKey row.id) ⟨.int n, v⟩)) (h₃ : Faded w₂ w₃) :
    CountOutcome w key w₃ := by
  have hdb : w₃.db = w.db := by rw [h₃.db, hdb₂, h₁.db]
  rcases hr₂ with hle | ⟨n, v, hle⟩
  · exact .kept ⟨hdb, h₃.redis.trans (hle.trans h₁.redis)⟩
  · exact .counted hrow hdb (h₃.redis.trans (hle.trans (h₁.redis.set _ _)))

theorem alone_onPlay (key : Str) :
    (s.onPlay key).wp World.perform ok (fun _ => CountOutcome w key) w := by
  unfold onPlay countViewer
  split
  · refine wp_getStreamByKey (fun e w₁ _ h₁ => .kept h₁) fun row w₁ hrow h₁ => ?_
    refine wp_incrViewers fun r w₂ hdb₂ hr₂ => ?_
    cases r with
    | error e => exact counted hrow h₁ hdb₂ hr₂ (.refl w₂)
    | ok n => exact fun ch _ => counted hrow h₁ hdb₂ hr₂ (perform_faded rfl ch w₂)
  · exact .kept (.refl w)

theorem alone_onStop (key : Str) :
    (s.onStop key).wp World.perform ok (fun _ => CountOutcome w key) w := by
  unfold onStop countViewer
  split
  · refine wp_getStreamByKey (fun e w₁ _ h₁ => .kept h₁) fun row w₁ hrow h₁ => ?_
    refine wp_decrViewers fun r w₂ hdb₂ hr₂ => ?_
    cases r with
    | error e => exact counted hrow h₁ hdb₂ hr₂ (.refl w₂)
    | ok n => exact fun ch _ => counted hrow h₁ hdb₂ hr₂ (perform_faded rfl ch w₂)
  · exact .kept (.refl w)

end StreamService

theorem alone_updateTask {ok : Op → Choice → Prop} {w : World} (id status errMsg : Str) :
    (AgentHandler.updateTask id status errMsg).wp World.perform ok
      (ReportOutcome ok w id status errMsg) w := by
  refine wp_updateTaskStatus (fun e w₁ hwhy h₁ => .failed h₁ hwhy) fun now w₁ hok => ?_
  obtain ⟨u, st, hu, hst, hupd⟩ := DB.updateTaskStatus_ok hok
  have hlater (w₂ : World) (h₂ : Faded w₁ w₂) : ReportOutcome ok w id status errMsg true w₂ :=
    .reported hu hst (h₂.db ▸ hupd)
  dsimp only
  split
  · refine wp_quiet rfl fun r w₂ h₂ => ?_
    cases r with
    | error e => exact hlater w₂ h₂
    | ok task => exact wp_quiet rfl fun _ w₃ h₃ => hlater w₃ (h₂.trans h₃)
  · exact hlater w₁ (.refl w₁)

theorem faded_expire (w : World) (keys : List Str) : Faded w (w.expire keys) :=
  ⟨rfl, w.redis.expire_le keys⟩

/-- Requests that only read. -/
theorem body_quiet {s : StreamService} {ok : Op → Choice → Prop} {w w' : World} {call : Call} {reply : Reply}
    (hquiet : ∀ o, s.May call o → o.isQuiet = true)
    (h : Prog.Runs World.perform ok (s.body call) w reply w') : Faded w w' :=
  h.wp (wp_all_quiet ((s.body_may call).mono hquiet))

/-- The world after one request of the sample server, nothing failing. -/
def sampleServe (call : Call) (w : World) : World :=
  ((StreamService.sample.body call).exec World.perform (fun _ => { id := sampleID }) w).2

/-- The sample stream has been created. -/
def sampleStream : World := sampleServe (.createStream (.sample 1) {}) .empty

/-- It is being published. -/
def sampleLive : World := sampleServe (.onPublish 1 5 sampleKey.val (sampleToken 1)) sampleStream

end LiveServer
