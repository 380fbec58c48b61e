import LiveServer.World

/-! What a call changes.

Each call touches one of the stores, if any: `perform_streams`, `perform_tasks`,
`perform_redis` and `perform_metrics` say everything a call can do to the table of
streams, the table of tasks, Redis and the metrics. Invariants of a store are proved
from its lemma alone. -/
namespace LiveServer
open Relational

/-- What a call with its answer does to the table of streams. -/
inductive StreamChange (db db' : DB) : (o : Op) → o.Res → Prop
  | same {o : Op} {r : o.Res} :
      db'.streams = db.streams → db'.issued = db.issued → StreamChange db db' o r
  | create {s s' : Stream} {id : Str} {now : Time} :
      db.createStream s id now = .ok (s', db') → StreamChange db db' (.createStream s) (.ok s')
  | status {id : Str} {status : Status} {extra : StatusExtra} :
      db.updateStreamStatus id status extra = .ok db' →
      StreamChange db db' (.updateStreamStatus id status extra) none
  | pushAuth {id token pushURL : Str} :
      db.updateStreamPushAuth id token pushURL = .ok db' →
      StreamChange db db' (.updateStreamPushAuth id token pushURL) none
  | delete {id : Str} :
      db.deleteStream id = .ok db' → StreamChange db db' (.deleteStream id) none

/-- What a call with its answer does to the row of one stream. -/
inductive RowChange (id : Str) (db db' : DB) : (o : Op) → o.Res → Prop
  | kept {o : Op} {r : o.Res} : db'.streamAt id = db.streamAt id → RowChange id db db' o r
  | created {s s' row : Stream} {now : Time} :
      s' = { s with id := id, createdAt := now } → s'.columns = some row → row.id = id →
      id ∉ db.issued → db'.streamAt id = some row → RowChange id db db' (.createStream s) (.ok s')
  | status {u : Str} {status : Status} {extra : StatusExtra} :
      uuidIn u = some id → db'.streamAt id = (db.streamAt id).map (Stream.withStatus status extra) →
      RowChange id db db' (.updateStreamStatus u status extra) none
  | pushAuth {u token pushURL : Str} :
      uuidIn u = some id → db'.streamAt id = (db.streamAt id).map (Stream.withPushAuth token pushURL) →
      RowChange id db db' (.updateStreamPushAuth u token pushURL) none
  | deleted {u : Str} :
      uuidIn u = some id → db'.streamAt id = none → RowChange id db db' (.deleteStream u) none

theorem StreamChange.issued {db db' : DB} {o : Op} {r : o.Res} (h : StreamChange db db' o r) :
    db.issued ⊆ db'.issued := by
  cases h with
  | same _ hiss => exact hiss ▸ fun _ h => h
  | create hc =>
    obtain ⟨_, row, _, _, hins⟩ := DB.createStream_ok hc
    exact hins.issued ▸ List.subset_cons_self _ _
  | status hc =>
    obtain ⟨_, _, hupd⟩ := DB.updateStreamStatus_ok hc
    exact hupd.issued ▸ fun _ h => h
  | pushAuth hc =>
    obtain ⟨_, _, hupd⟩ := DB.updateStreamPushAuth_ok hc
    exact hupd.issued ▸ fun _ h => h
  | delete hc =>
    obtain ⟨_, _, hdel⟩ := DB.deleteStream_ok hc
    exact hdel.issued ▸ fun _ h => h

/-- What a call does to the table, seen from one row. -/
theorem StreamChange.row {db db' : DB} {o : Op} {r : o.Res} (h : StreamChange db db' o r) (id : Str) :
    RowChange id db db' o r := by
  cases h with
  | same hst _ => exact .kept (by unfold DB.streamAt; rw [hst])
  | @create s s' id' now hc =>
    obtain ⟨hs', row, hcol, hid, hins⟩ := DB.createStream_ok hc
    by_cases h : id = row.id
    · subst h
      exact .created (hid ▸ hs') hcol rfl hins.fresh (by rw [hins.streamAt, if_pos rfl])
    · exact .kept (by rw [hins.streamAt, if_neg h])
  | status hc =>
    obtain ⟨u, hu, hupd⟩ := DB.updateStreamStatus_ok hc
    by_cases h : id = u
    · subst h
      exact .status hu (by rw [hupd.streamAt, if_pos rfl])
    · exact .kept (by rw [hupd.streamAt, if_neg h])
  | pushAuth hc =>
    obtain ⟨u, hu, hupd⟩ := DB.updateStreamPushAuth_ok hc
    by_cases h : id = u
    · subst h
      exact .pushAuth hu (by rw [hupd.streamAt, if_pos rfl])
    · exact .kept (by rw [hupd.streamAt, if_neg h])
  | delete hc =>
    obtain ⟨u, hu, hdel⟩ := DB.deleteStream_ok hc
    by_cases h : id = u
    · subst h
      exact .deleted hu (by rw [hdel.streamAt, if_pos rfl])
    · exact .kept (by rw [hdel.streamAt, if_neg h])

/-- The row of an id that was given before keeps its key. -/
theorem StreamChange.key_kept {db db' : DB} {o : Op} {r : o.Res} (h : StreamChange db db' o r) {id : Str}
    (hid : id ∈ db.issued) {row' : Stream} (hrow : db'.streamAt id = some row') :
    ∃ row, db.streamAt id = some row ∧ row.streamKey = row'.streamKey := by
  cases h.row id with
  | kept hat => exact ⟨row', hat ▸ hrow, rfl⟩
  | created _ _ _ hfresh _ => exact absurd hid hfresh
  | status _ hat =>
    rw [hat] at hrow
    obtain ⟨row, hold, rfl⟩ := Option.map_eq_some_iff.mp hrow
    exact ⟨row, hold, rfl⟩
  | pushAuth _ hat =>
    rw [hat] at hrow
    obtain ⟨row, hold, rfl⟩ := Option.map_eq_some_iff.mp hrow
    exact ⟨row, hold, rfl⟩
  | deleted _ hat =>
    rw [hat] at hrow
    cases hrow

/-- What a call does to the table of tasks. -/
inductive TaskChange (db db' : DB) : Op → Prop
  | same {o : Op} : db'.tasks = db.tasks → db'.cascade = db.cascade → TaskChange db db' o
  | status {id status errMsg : Str} {now : Time} :
      db.updateTaskStatus id status errMsg now = .ok db' →
      TaskChange db db' (.updateTaskStatus id status errMsg)
  | assign {id agentID : Str} {now : Time} :
      db.assignTask id agentID now = .ok db' → TaskChange db db' (.assignTask id agentID)
  | delete {id : Str} : db.deleteStream id = .ok db' → TaskChange db db' (.deleteStream id)

/-- What a call does to the row of one task. -/
inductive TaskRowChange (id : Str) (db db' : DB) : Op → Prop
  | kept {o : Op} : db'.taskAt id = db.taskAt id → TaskRowChange id db db' o
  | status {u status errMsg st : Str} {now : Time} : uuidIn u = some id → varchar 20 status = some st →
      db'.taskAt id = (db.taskAt id).map (AgentTask.withStatus st errMsg now) →
      TaskRowChange id db db' (.updateTaskStatus u status errMsg)
  | assigned {u agentID a : Str} {now : Time} : uuidIn u = some id → varchar 64 agentID = some a →
      db'.taskAt id = (db.taskAt id).map (AgentTask.assigned a now) →
      TaskRowChange id db db' (.assignTask u agentID)
  | removed {u v : Str} {row : Stream} {t : AgentTask} : db.cascade = true → uuidIn u = some v →
      db.streamAt v = some row → db'.streamAt v = none → db.taskAt id = some t → t.streamID = v →
      db'.taskAt id = none →
      TaskRowChange id db db' (.deleteStream u)

/-- What a call does to the table of tasks, seen from one row. -/
theorem TaskChange.row {db db' : DB} {o : Op} (h : TaskChange db db' o) (id : Str) :
    TaskRowChange id db db' o := by
  cases h with
  | same hst _ => exact .kept (by unfold DB.taskAt; rw [hst])
  | status hc =>
    obtain ⟨u, st, hu, hst, hupd⟩ := DB.updateTaskStatus_ok hc
    by_cases h : id = u
    · subst h
      exact .status hu hst (by rw [hupd.taskAt, if_pos rfl])
    · exact .kept (by rw [hupd.taskAt, if_neg h])
  | assign hc =>
    obtain ⟨u, a, hu, ha, hupd⟩ := DB.assignTask_ok hc
    by_cases h : id = u
    · subst h
      exact .assigned hu ha (by rw [hupd.taskAt, if_pos rfl])
    · exact .kept (by rw [hupd.taskAt, if_neg h])
  | delete hc =>
    obtain ⟨u, hu, hdel⟩ := DB.deleteStream_ok hc
    have hat := hdel.taskAt id
    cases hold : db.taskAt id with
    | none => exact .kept (by rw [hat, hold]; rfl)
    | some t =>
      by_cases h : db.cascades u t = true
      · obtain ⟨hcascade, ⟨row, hrow⟩, hstream⟩ := DB.cascades_eq_true.mp h
        have hgone : db'.streamAt u = none := by rw [hdel.streamAt, if_pos rfl]
        exact .removed hcascade hu hrow hgone hold hstream (by rw [hat, hold]; simp [h])
      · exact .kept (by rw [hat, hold]; simp [h])

/-- No statement changes the schema. -/
theorem TaskChange.cascade {db db' : DB} {o : Op} (h : TaskChange db db' o) : db'.cascade = db.cascade := by
  cases h with
  | same _ heq => exact heq
  | status hc =>
    obtain ⟨_, _, _, _, hupd⟩ := DB.updateTaskStatus_ok hc
    exact hupd.cascade
  | assign hc =>
    obtain ⟨_, _, _, _, hupd⟩ := DB.assignTask_ok hc
    exact hupd.cascade
  | delete hc =>
    obtain ⟨_, _, hdel⟩ := DB.deleteStream_ok hc
    exact hdel.cascade

/-- What a call does to Redis. -/
inductive CacheChange (r r' : Redis) : Op → Prop
  | same {o : Op} : r' = r → CacheChange r r' o
  | status {id : Str} {d : StreamStatusData} :
      r' = r.setStreamStatus id d → CacheChange r r' (.setStreamStatus id d)
  | playURLs {id : Str} {d : PlayURLData} :
      r' = r.setPlayURLs id d → CacheChange r r' (.setPlayURLs id d)
  | incr {id : Str} {n : Int} : r.incrViewers id = .ok (n, r') → CacheChange r r' (.incrViewers id)
  | decr {id : Str} {n : Int} : r.decrViewers id = .ok (n, r') → CacheChange r r' (.decrViewers id)
  | reset {id : Str} : r' = r.resetViewers id → CacheChange r r' (.resetViewers id)
  | viewers {id : Str} {n : Int} : r' = r.setViewers id n → CacheChange r r' (.setViewers id n)
  | delete {id : Str} : r' = r.deleteStreamCache id → CacheChange r r' (.deleteStreamCache id)

/-- What a call does to the metrics registry. -/
def Op.records : Op → Metrics → Metrics
  | .set g label v, m => m.set g label v
  | .deleteLabelValues g label, m => m.deleteLabelValues g label
  | .inc c label, m => m.inc c label
  | _, m => m

/-- The stream for which a call may create an entry. -/
def Op.caches : Op → Option Str
  | .setStreamStatus id _ => some id
  | .setPlayURLs id _ => some id
  | .incrViewers id => some id
  | .setViewers id _ => some id
  | _ => none

/-- The keys a call may write. -/
def Op.keys : Op → List Str
  | .setStreamStatus id _ => [statusKey id]
  | .setPlayURLs id _ => [playURLsKey id]
  | .incrViewers id => [viewersKey id]
  | .decrViewers id => [viewersKey id]
  | .resetViewers id => [viewersKey id]
  | .setViewers id _ => [viewersKey id]
  | .deleteStreamCache id => [statusKey id, playURLsKey id, viewersKey id]
  | _ => []

/-- Any other key is as before. -/
theorem CacheChange.other {r r' : Redis} {o : Op} (h : CacheChange r r' o) {k : Str} (hk : k ∉ o.keys) :
    r' k = r k := by
  have hset {id : Str} {e : Entry} (h : k ∉ [id]) : r.set id e k = r k :=
    if_neg fun heq => h (List.mem_singleton.mpr heq)
  cases h with
  | same h => rw [h]
  | status h =>
    rw [h]
    exact hset hk
  | playURLs h =>
    rw [h]
    exact hset hk
  | incr h =>
    obtain ⟨m, v, rfl⟩ := Redis.incrViewers_ok h
    exact hset hk
  | decr h =>
    rcases Redis.decrViewers_ok h with rfl | ⟨e, m, v, _, rfl⟩
    · rfl
    · exact hset hk
  | reset h =>
    rw [h]
    exact if_neg hk
  | viewers h =>
    rw [h]
    exact hset hk
  | delete h =>
    rw [h]
    exact if_neg hk

/-- What a call does to the entries of one stream. -/
inductive EntriesChange (id : Str) (r r' : Redis) : Op → Prop
  | kept {o : Op} : r'.entries id = r.entries id → EntriesChange id r r' o
  | status {d : StreamStatusData} :
      r'.entries id = { r.entries id with status := some ⟨.status d, true⟩ } →
      EntriesChange id r r' (.setStreamStatus id d)
  | playURLs {d : PlayURLData} :
      r'.entries id = { r.entries id with playURLs := some ⟨.playURLs d, true⟩ } →
      EntriesChange id r r' (.setPlayURLs id d)
  | incr {n : Int} {v : Bool} :
      r'.entries id = { r.entries id with viewers := some ⟨.int n, v⟩ } →
      EntriesChange id r r' (.incrViewers id)
  | decr {e : Entry} {n : Int} {v : Bool} : (r.entries id).viewers = some e →
      r'.entries id = { r.entries id with viewers := some ⟨.int n, v⟩ } →
      EntriesChange id r r' (.decrViewers id)
  | reset :
      r'.entries id = { r.entries id with viewers := none } → EntriesChange id r r' (.resetViewers id)
  | viewers {n : Int} :
      r'.entries id = { r.entries id with viewers := some ⟨.int n, false⟩ } →
      EntriesChange id r r' (.setViewers id n)
  | cleared : r'.entries id = .empty → EntriesChange id r r' (.deleteStreamCache id)

/-- An entry changes only when its own stream is named. -/
private theorem entries_if {id id' : Str} {a b c : Redis.Entries} (h : a = if id' = id then b else c) :
    (id' = id ∧ a = b) ∨ a = c := by
  split at h
  · exact .inl ⟨‹_›, h⟩
  · exact .inr h

/-- What a call does to Redis, seen from one stream. -/
theorem CacheChange.entries {r r' : Redis} {o : Op} (h : CacheChange r r' o) (id : Str) :
    EntriesChange id r r' o := by
  cases h with
  | same h => exact .kept (by rw [h])
  | @status id' d h =>
    rcases entries_if (r.entries_setStreamStatus id' id d) with ⟨rfl, he⟩ | he
    · exact .status (h ▸ he)
    · exact .kept (h ▸ he)
  | @playURLs id' d h =>
    rcases entries_if (r.entries_setPlayURLs id' id d) with ⟨rfl, he⟩ | he
    · exact .playURLs (h ▸ he)
    · exact .kept (h ▸ he)
  | @incr id' n h =>
    obtain ⟨m, v, rfl⟩ := Redis.incrViewers_ok h
    rcases entries_if (r.entries_setViewers id' id ⟨.int m, v⟩) with ⟨rfl, he⟩ | he
    · exact .incr he
    · exact .kept he
  | @decr id' n h =>
    rcases Redis.decrViewers_ok h with rfl | ⟨e, m, v, hold, rfl⟩
    · exact .kept rfl
    · rcases entries_if (r.entries_setViewers id' id ⟨.int m, v⟩) with ⟨rfl, he⟩ | he
      · exact .decr hold he
      · exact .kept he
  | @reset id' h =>
    rcases entries_if (r.entries_resetViewers id' id) with ⟨rfl, he⟩ | he
    · exact .reset (h ▸ he)
    · exact .kept (h ▸ he)
  | @viewers id' n h =>
    rcases entries_if (r.entries_setViewers id' id ⟨.int n, false⟩) with ⟨rfl, he⟩ | he
    · exact .viewers (h ▸ he)
    · exact .kept (h ▸ he)
  | @delete id' h =>
    rcases entries_if (r.entries_deleteStreamCache id' id) with ⟨rfl, he⟩ | he
    · exact .cleared (h ▸ he)
    · exact .kept (h ▸ he)

section
variable {id : Str} {r r' : Redis} {o : Op}

/-- Other calls create no entry for the stream. -/
theorem EntriesChange.empty (h : EntriesChange id r r' o) (ho : o.caches ≠ some id)
    (hr : r.entries id = .empty) : r'.entries id = .empty := by
  cases h with
  | kept he => exact he.trans hr
  | status _ => exact absurd rfl ho
  | playURLs _ => exact absurd rfl ho
  | incr _ => exact absurd rfl ho
  | decr hold _ =>
    rw [hr] at hold
    cases hold
  | reset he =>
    rw [he, hr]
    rfl
  | viewers _ => exact absurd rfl ho
  | cleared he => exact he

/-- Only a status write gives a status that was not there. -/
theorem EntriesChange.status_of (h : EntriesChange id r r' o) (ho : ∀ d, o ≠ .setStreamStatus id d)
    {e : Entry} (hr : (r'.entries id).status = some e) : (r.entries id).status = some e := by
  cases h with
  | kept he => rwa [he] at hr
  | status _ => exact absurd rfl (ho _)
  | playURLs he => rwa [he] at hr
  | incr he => rwa [he] at hr
  | decr _ he => rwa [he] at hr
  | reset he => rwa [he] at hr
  | viewers he => rwa [he] at hr
  | cleared he =>
    rw [he] at hr
    cases hr

end

namespace World
variable {ch : Choice} {w : World}

/-! ### One kind of call at a time -/

/-- A read that succeeds. -/
theorem read_ok {r : Except GoError α} {a : α} (h : (w.read ch r).1 = .ok a) : r = .ok a := by
  unfold read at h
  split at h
  · cases h
  · exact h

/-- A statement leaves the database as it was, or does what it should. -/
theorem write_db (w : World) (ch : Choice) (r : Except GoError DB) :
    ((w.write ch r).1 ≠ none ∧ (w.write ch r).2.db = w.db) ∨
      ((w.write ch r).1 = none ∧ r = .ok (w.write ch r).2.db) := by
  unfold write
  split
  · exact .inl ⟨nofun, rfl⟩
  · cases r with
    | error e => exact .inl ⟨nofun, rfl⟩
    | ok db => exact .inr ⟨rfl, rfl⟩

theorem write_none {r : Except GoError DB} (h : (w.write ch r).1 = none) : ch.fault = false := by
  unfold write at h
  split at h
  · cases h
  · rename_i hf
    simpa using hf

theorem insert_db (w : World) (ch : Choice) (r : Except GoError (Stream × DB)) :
    ((∃ e, (w.insert ch r).1 = .error e) ∧ (w.insert ch r).2.db = w.db) ∨
      ∃ s, (w.insert ch r).1 = .ok s ∧ r = .ok (s, (w.insert ch r).2.db) := by
  unfold insert
  split
  · exact .inl ⟨⟨_, rfl⟩, rfl⟩
  · cases r with
    | error e => exact .inl ⟨⟨_, rfl⟩, rfl⟩
    | ok p => exact .inr ⟨p.1, rfl, rfl⟩

theorem cacheWrite_redis (w : World) (ch : Choice) (r : Redis) :
    (ch.fault = true ∧ (w.cacheWrite ch r).2.redis = w.redis) ∨ (w.cacheWrite ch r).2.redis = r := by
  unfold cacheWrite
  split
  · exact .inl ⟨‹_›, rfl⟩
  · exact .inr rfl

theorem cacheCount_redis (w : World) (ch : Choice) (r : Except GoError (Int × Redis)) :
    (w.cacheCount ch r).2.redis = w.redis ∨ ∃ n, r = .ok (n, (w.cacheCount ch r).2.redis) := by
  unfold cacheCount
  split
  · exact .inl rfl
  · cases r with
    | error e => exact .inl rfl
    | ok p => exact .inr ⟨p.1, rfl⟩

@[simp] theorem read_world (r : Except GoError α) : (w.read ch r).2 = w := rfl

@[simp] theorem cacheWrite_db (r : Redis) : (w.cacheWrite ch r).2.db = w.db := by
  unfold cacheWrite
  split <;> rfl

@[simp] theorem cacheCount_db (r : Except GoError (Int × Redis)) :
    (w.cacheCount ch r).2.db = w.db := by
  unfold cacheCount
  split
  · rfl
  · split <;> rfl

@[simp] theorem write_redis (r : Except GoError DB) : (w.write ch r).2.redis = w.redis := by
  unfold write
  split
  · rfl
  · split <;> rfl

@[simp] theorem insert_redis (r : Except GoError (Stream × DB)) :
    (w.insert ch r).2.redis = w.redis := by
  unfold insert
  split
  · rfl
  · split <;> rfl

@[simp] theorem expire_db (keys : List Str) : (w.expire keys).db = w.db := rfl

@[simp] theorem expire_nil (w : World) : w.expire [] = w := by
  unfold expire
  rw [Redis.expire_nil]

@[simp] theorem write_metrics (r : Except GoError DB) : (w.write ch r).2.metrics = w.metrics := by
  unfold write
  split
  · rfl
  · split <;> rfl

@[simp] theorem insert_metrics (r : Except GoError (Stream × DB)) :
    (w.insert ch r).2.metrics = w.metrics := by
  unfold insert
  split
  · rfl
  · split <;> rfl

@[simp] theorem cacheWrite_metrics (r : Redis) : (w.cacheWrite ch r).2.metrics = w.metrics := by
  unfold cacheWrite
  split <;> rfl

@[simp] theorem cacheCount_metrics (r : Except GoError (Int × Redis)) :
    (w.cacheCount ch r).2.metrics = w.metrics := by
  unfold cacheCount
  split
  · rfl
  · split <;> rfl

/-! ### All calls -/

/-- **What a call does to the table of streams.** -/
theorem perform_streams (ch : Choice) (o : Op) (w : World) :
    StreamChange w.db (perform ch o w).2.db o (perform ch o w).1 := by
  cases o with
  | createStream s =>
    rcases insert_db (w.expire ch.expired) ch (w.db.createStream s ch.id ch.now) with ⟨_, h⟩ | ⟨s', hr, h⟩
    · exact .same (congrArg DB.streams h) (congrArg DB.issued h)
    · exact (show (perform ch (.createStream s) w).1 = .ok s' from hr) ▸ .create h
  | updateStreamStatus id status extra =>
    rcases write_db (w.expire ch.expired) ch (w.db.updateStreamStatus id status extra) with
      ⟨_, h⟩ | ⟨hr, h⟩
    · exact .same (congrArg DB.streams h) (congrArg DB.issued h)
    · exact (show (perform ch (.updateStreamStatus id status extra) w).1 = none from hr) ▸ .status h
  | updateStreamPushAuth id token pushURL =>
    rcases write_db (w.expire ch.expired) ch (w.db.updateStreamPushAuth id token pushURL) with
      ⟨_, h⟩ | ⟨hr, h⟩
    · exact .same (congrArg DB.streams h) (congrArg DB.issued h)
    · exact (show (perform ch (.updateStreamPushAuth id token pushURL) w).1 = none from hr) ▸ .pushAuth h
  | deleteStream id =>
    rcases write_db (w.expire ch.expired) ch (w.db.deleteStream id) with ⟨_, h⟩ | ⟨hr, h⟩
    · exact .same (congrArg DB.streams h) (congrArg DB.issued h)
    · exact (show (perform ch (.deleteStream id) w).1 = none from hr) ▸ .delete h
  | updateTaskStatus id status errMsg =>
    rcases write_db (w.expire ch.expired) ch (w.db.updateTaskStatus id status errMsg ch.now) with
      ⟨_, h⟩ | ⟨hr, h⟩
    · exact .same (congrArg DB.streams h) (congrArg DB.issued h)
    · obtain ⟨_, _, _, _, h⟩ := DB.updateTaskStatus_ok h
      exact .same h.streams h.issued
  | assignTask id agentID =>
    rcases write_db (w.expire ch.expired) ch (w.db.assignTask id agentID ch.now) with ⟨_, h⟩ | ⟨hr, h⟩
    · exact .same (congrArg DB.streams h) (congrArg DB.issued h)
    · obtain ⟨_, _, _, _, h⟩ := DB.assignTask_ok h
      exact .same h.streams h.issued
  | _ => exact .same (by simp [perform, answer]) (by simp [perform, answer])

/-- **What a call does to the table of tasks.** -/
theorem perform_tasks (ch : Choice) (o : Op) (w : World) :
    TaskChange w.db (perform ch o w).2.db o := by
  cases o with
  | createStream s =>
    rcases insert_db (w.expire ch.expired) ch (w.db.createStream s ch.id ch.now) with ⟨_, h⟩ | ⟨_, _, h⟩
    · exact .same (congrArg DB.tasks h) (congrArg DB.cascade h)
    · obtain ⟨_, _, _, _, h⟩ := DB.createStream_ok h
      exact .same h.tasks h.cascade
  | updateStreamStatus id status extra =>
    rcases write_db (w.expire ch.expired) ch (w.db.updateStreamStatus id status extra) with
      ⟨_, h⟩ | ⟨_, h⟩
    · exact .same (congrArg DB.tasks h) (congrArg DB.cascade h)
    · obtain ⟨_, _, h⟩ := DB.updateStreamStatus_ok h
      exact .same h.tasks h.cascade
  | updateStreamPushAuth id token pushURL =>
    rcases write_db (w.expire ch.expired) ch (w.db.updateStreamPushAuth id token pushURL) with
      ⟨_, h⟩ | ⟨_, h⟩
    · exact .same (congrArg DB.tasks h) (congrArg DB.cascade h)
    · obtain ⟨_, _, h⟩ := DB.updateStreamPushAuth_ok h
      exact .same h.tasks h.cascade
  | deleteStream id =>
    rcases write_db (w.expire ch.expired) ch (w.db.deleteStream id) with ⟨_, h⟩ | ⟨_, h⟩
    · exact .same (congrArg DB.tasks h) (congrArg DB.cascade h)
    · exact .delete h
  | updateTaskStatus id status errMsg =>
    rcases write_db (w.expire ch.expired) ch (w.db.updateTaskStatus id status errMsg ch.now) with
      ⟨_, h⟩ | ⟨_, h⟩
    · exact .same (congrArg DB.tasks h) (congrArg DB.cascade h)
    · exact .status h
  | assignTask id agentID =>
    rcases write_db (w.expire ch.expired) ch (w.db.assignTask id agentID ch.now) with ⟨_, h⟩ | ⟨_, h⟩
    · exact .same (congrArg DB.tasks h) (congrArg DB.cascade h)
    · exact .assign h
  | _ => exact .same (by simp [perform, answer]) (by simp [perform, answer])

/-- **What a call does to Redis**, on what is left of it by then. -/
theorem perform_redis (ch : Choice) (o : Op) (w : World) :
    CacheChange (w.redis.expire ch.expired) (perform ch o w).2.redis o := by
  cases o with
  | setStreamStatus id d =>
    rcases cacheWrite_redis (w.expire ch.expired) ch _ with ⟨_, h⟩ | h
    · exact .same h
    · exact .status h
  | setPlayURLs id d =>
    rcases cacheWrite_redis (w.expire ch.expired) ch _ with ⟨_, h⟩ | h
    · exact .same h
    · exact .playURLs h
  | incrViewers id =>
    rcases cacheCount_redis (w.expire ch.expired) ch _ with h | ⟨_, h⟩
    · exact .same h
    · exact .incr h
  | decrViewers id =>
    rcases cacheCount_redis (w.expire ch.expired) ch _ with h | ⟨_, h⟩
    · exact .same h
    · exact .decr h
  | resetViewers id =>
    rcases cacheWrite_redis (w.expire ch.expired) ch _ with ⟨_, h⟩ | h
    · exact .same h
    · exact .reset h
  | setViewers id n =>
    rcases cacheWrite_redis (w.expire ch.expired) ch _ with ⟨_, h⟩ | h
    · exact .same h
    · exact .viewers h
  | deleteStreamCache id =>
    rcases cacheWrite_redis (w.expire ch.expired) ch _ with ⟨_, h⟩ | h
    · exact .same h
    · exact .delete h
  | _ => exact .same (by simp [perform, answer, expire])

/-- A key that a call does not write and that does not expire before it. -/
theorem perform_redis_other {ch : Choice} {o : Op} {k : Str} (hexp : k ∉ ch.expired) (hk : k ∉ o.keys)
    (w : World) : (perform ch o w).2.redis k = w.redis k := by
  rw [(perform_redis ch o w).other hk]
  exact Redis.expire_of_not_mem hexp

/-- A call that fails leaves Redis as it is by then. -/
theorem perform_redis_fault {ch : Choice} (hf : ch.fault = true) (o : Op) (w : World) :
    (perform ch o w).2.redis = w.redis.expire ch.expired := by
  cases o <;> simp [perform, answer, insert, read, write, cacheWrite, cacheCount, hf, expire]

/-- **What a call does to the metrics registry.** -/
theorem perform_metrics (ch : Choice) (o : Op) (w : World) :
    (perform ch o w).2.metrics = o.records w.metrics := by
  cases o <;> simp [perform, answer, Op.records, expire]

/-! ### Calls that succeed -/

theorem perform_setStreamStatus (hf : ch.fault = false) (id : Str) (d : StreamStatusData) :
    ((perform ch (.setStreamStatus id d) w).2.redis.entries id).status = some ⟨.status d, true⟩ := by
  have h : (perform ch (.setStreamStatus id d) w).2.redis =
      (w.redis.expire ch.expired).setStreamStatus id d := by
    simp [perform, answer, cacheWrite, hf, expire]
  rw [h, Redis.entries_setStreamStatus, if_pos rfl]

theorem perform_deleteStreamCache (hf : ch.fault = false) (id : Str) :
    (perform ch (.deleteStreamCache id) w).2.redis.entries id = .empty := by
  have h : (perform ch (.deleteStreamCache id) w).2.redis =
      (w.redis.expire ch.expired).deleteStreamCache id := by
    simp [perform, answer, cacheWrite, hf, expire]
  rw [h, Redis.entries_deleteStreamCache, if_pos rfl]

theorem perform_createStream_ok {x stream : Stream} (h : (perform ch (.createStream x) w).1 = .ok stream) :
    w.db.createStream x ch.id ch.now = .ok (stream, (perform ch (.createStream x) w).2.db) := by
  rcases insert_db (w.expire ch.expired) ch (w.db.createStream x ch.id ch.now) with ⟨⟨e, herr⟩, _⟩ | ⟨s, hok, hdb⟩
  · cases herr.symm.trans h
  · cases hok.symm.trans h
    exact hdb

theorem perform_getStreamByKey_ok {key : Str} {r : Stream}
    (h : (perform ch (.getStreamByKey key) w).1 = .ok r) : w.db.streamOf key = some r :=
  DB.getStreamByKey_ok.mp (read_ok h)

theorem perform_getStreamByID_ok {id : Str} {r : Stream}
    (h : (perform ch (.getStreamByID id) w).1 = .ok r) :
    uuidIn id = some r.id ∧ w.db.streamAt r.id = some r :=
  DB.getStreamByID_ok (read_ok h)

theorem perform_listStreams_ok {status : Option Status} {rows : List Stream}
    (h : (perform ch (.listStreams status) w).1 = .ok rows) : rows = w.db.listStreams status :=
  (Except.ok.inj (read_ok (w := w.expire ch.expired) h)).symm

theorem perform_listAllClients_ok {clients : List SRSClient}
    (h : (perform ch .listAllClients w).1 = .ok clients) : clients = ch.clients :=
  (Except.ok.inj (read_ok (w := w.expire ch.expired) h)).symm

theorem perform_getStreamStatus_ok {id : Str} {d : StreamStatusData}
    (h : (perform ch (.getStreamStatus id) w).1 = .ok (some d)) :
    ∃ v, w.redis.expire ch.expired (statusKey id) = some ⟨.status d, v⟩ :=
  Redis.getStreamStatus_ok (read_ok (w := w.expire ch.expired) h)

/-- A read by key that does not fail finds no row only where there is none. -/
theorem perform_getStreamByKey_error {key : Str} {e : GoError} (hf : ch.fault = false)
    (h : (perform ch (.getStreamByKey key) w).1 = .error e) : w.db.streamOf key = none := by
  simp only [perform, answer, read, hf, expire_db] at h
  unfold DB.getStreamByKey at h
  cases hrow : w.db.streamOf key with
  | none => rfl
  | some row =>
    rw [hrow] at h
    cases h

/-- A status update that does not fail is refused only for what is no id. -/
theorem perform_updateStreamStatus_some {id : Str} {status : Status} {extra : StatusExtra} {e : GoError}
    (hf : ch.fault = false) (h : (perform ch (.updateStreamStatus id status extra) w).1 = some e) :
    uuidIn id = none := by
  simp only [perform, answer, write, hf, expire_db] at h
  unfold DB.updateStreamStatus at h
  cases hu : uuidIn id with
  | none => rfl
  | some u =>
    rw [hu] at h
    cases h

/-- A status update without error is done, on the row if there is one. -/
theorem perform_updateStreamStatus_none {id : Str} {status : Status} {extra : StatusExtra}
    (h : (perform ch (.updateStreamStatus id status extra) w).1 = none) :
    w.db.updateStreamStatus id status extra =
      .ok (perform ch (.updateStreamStatus id status extra) w).2.db := by
  rcases write_db (w.expire ch.expired) ch (w.db.updateStreamStatus id status extra) with
    ⟨hne, _⟩ | ⟨_, hr⟩
  · exact absurd h hne
  · exact hr

theorem perform_updateStreamPushAuth_none {id token pushURL : Str}
    (h : (perform ch (.updateStreamPushAuth id token pushURL) w).1 = none) :
    w.db.updateStreamPushAuth id token pushURL =
      .ok (perform ch (.updateStreamPushAuth id token pushURL) w).2.db := by
  rcases write_db (w.expire ch.expired) ch (w.db.updateStreamPushAuth id token pushURL) with
    ⟨hne, _⟩ | ⟨_, hr⟩
  · exact absurd h hne
  · exact hr

theorem perform_deleteStream_none {id : Str} (h : (perform ch (.deleteStream id) w).1 = none) :
    w.db.deleteStream id = .ok (perform ch (.deleteStream id) w).2.db := by
  rcases write_db (w.expire ch.expired) ch (w.db.deleteStream id) with ⟨hne, _⟩ | ⟨_, hr⟩
  · exact absurd h hne
  · exact hr

theorem perform_updateTaskStatus_none {id status errMsg : Str}
    (h : (perform ch (.updateTaskStatus id status errMsg) w).1 = none) :
    w.db.updateTaskStatus id status errMsg ch.now =
      .ok (perform ch (.updateTaskStatus id status errMsg) w).2.db := by
  rcases write_db (w.expire ch.expired) ch (w.db.updateTaskStatus id status errMsg ch.now) with
    ⟨hne, _⟩ | ⟨_, hr⟩
  · exact absurd h hne
  · exact hr

/-- A mark that does not fail, on a task's own id and with an agent that fits its column. -/
theorem perform_assignTask (hf : ch.fault = false) {id u agentID a : Str} (hu : uuidIn id = some u)
    (ha : varchar 64 agentID = some a) :
    w.db.TaskUpdated (perform ch (.assignTask id agentID) w).2.db u (AgentTask.assigned a ch.now) := by
  simp only [perform, answer, write, hf, expire_db, DB.assignTask, hu, ha]
  exact w.db.setTask_updated u (AgentTask.assigned a ch.now) fun _ => rfl

theorem perform_updateTaskStatus (hf : ch.fault = false) {id u status st : Str}
    (hu : uuidIn id = some u) (hst : varchar 20 status = some st) (errMsg : Str) :
    w.db.TaskUpdated (perform ch (.updateTaskStatus id status errMsg) w).2.db u
      (AgentTask.withStatus st errMsg ch.now) := by
  simp only [perform, answer, write, hf, expire_db, DB.updateTaskStatus, hu, hst]
  exact w.db.setTask_updated u (AgentTask.withStatus st errMsg ch.now) fun _ => rfl

theorem perform_updateTaskStatus_some (hf : ch.fault = false) {id status errMsg : Str} {e : GoError}
    (h : (perform ch (.updateTaskStatus id status errMsg) w).1 = some e) :
    uuidIn id = none ∨ varchar 20 status = none := by
  cases hu : uuidIn id with
  | none => exact .inl rfl
  | some u =>
    cases hst : varchar 20 status with
    | none => exact .inr rfl
    | some st =>
      simp only [perform, answer, write, hf, DB.updateTaskStatus, hu, hst] at h
      cases h

theorem perform_getPendingTasks (hf : ch.fault = false) (agentID : Str) :
    (perform ch (.getPendingTasks agentID) w).1 = .ok (w.db.getPendingTasks agentID) := by
  simp [perform, answer, read, hf]

end World
end LiveServer
