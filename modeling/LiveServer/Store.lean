import LiveServer.Model
import LiveServer.Relational.Column
import LiveServer.Relational.Table
import Mathlib.Data.List.Sort

/-! The database: the two tables and the statements the server sends.

Each function is one statement, so one atomic step. A statement that names its row
by id does so through a `uuid` column: the text is read by `uuidIn` first, an
invalid one is an error, and a statement that matches no row changes nothing and
reports none. Ids come from `gen_random_uuid`, which does not repeat: `issued` is
every id it has given to a stream row so far.

The tables are those of `001_init.sql` or those that `AutoMigrate` makes where there
are none; to the statements they differ in `cascade`. -/
namespace LiveServer
open Relational

/-- Primary key and the unique index on `stream_key`. -/
def Stream.Apart (a b : Stream) : Prop := a.id ≠ b.id ∧ a.streamKey ≠ b.streamKey

instance : DecidableRel Stream.Apart := fun _ _ => inferInstanceAs (Decidable (_ ∧ _))

instance : Std.Symm Stream.Apart := ⟨fun _ _ h => ⟨h.1.symm, h.2.symm⟩⟩

/-- A row's id is a `uuid` as the database prints it. -/
def Stream.Stored (s : Stream) : Prop := uuidIn s.id = some s.id

instance : DecidablePred Stream.Stored := fun _ => inferInstanceAs (Decidable (_ = _))

def AgentTask.Apart (a b : AgentTask) : Prop := a.id ≠ b.id

instance : DecidableRel AgentTask.Apart := fun _ _ => inferInstanceAs (Decidable (_ ≠ _))

instance : Std.Symm AgentTask.Apart := ⟨fun _ _ h => Ne.symm h⟩

def AgentTask.Stored (t : AgentTask) : Prop := uuidIn t.id = some t.id

instance : DecidablePred AgentTask.Stored := fun _ => inferInstanceAs (Decidable (_ = _))

/-- A nullable `uuid` column. -/
def uuidColumn : Option Str → Option (Option Str)
  | none => some none
  | some s => (uuidIn s).map some

/-- What the columns of `streams` hold for a record, `none` when one refuses it. -/
def Stream.columns (s : Stream) : Option Stream := do
  let channelID ← uuidColumn s.channelID
  let streamKey ← varchar 128 s.streamKey
  let protocol ← varchar 20 s.protocol
  let resolution ← varchar 20 s.resolution
  let bitrate ← varchar 10 s.bitrate
  return { s with channelID, streamKey, protocol, resolution, bitrate }

/-- The extra columns of a status update: `none` leaves the column, `some none`
writes `NULL`. -/
structure StatusExtra where
  startedAt : Option (Option Time) := none
  endedAt : Option (Option Time) := none
  deriving DecidableEq, Repr

def Stream.withStatus (status : Status) (extra : StatusExtra) (s : Stream) : Stream :=
  { s with
    status := status
    startedAt := extra.startedAt.getD s.startedAt
    endedAt := extra.endedAt.getD s.endedAt }

def Stream.withPushAuth (token pushURL : Str) (s : Stream) : Stream :=
  { s with pushToken := token, pushURL := pushURL }

def AgentTask.withStatus (status errMsg : Str) (now : Time) (t : AgentTask) : AgentTask :=
  { t with
    status := status
    updatedAt := now
    errorMsg := if errMsg.isEmpty then t.errorMsg else errMsg }

def AgentTask.assigned (agentID : Str) (now : Time) (t : AgentTask) : AgentTask :=
  { t with agentID := some agentID, status := taskStatusRunning, updatedAt := now }

structure DB where
  streams : Table Stream Stream.Apart Stream.Stored
  tasks : Table AgentTask AgentTask.Apart AgentTask.Stored
  issued : List Str
  stream_issued : ∀ r ∈ streams.rows, r.id ∈ issued
  /-- The column `stream_id` of `agent_tasks` is `REFERENCES streams(id) ON DELETE CASCADE`
  as in the init script, and not a plain column as `AutoMigrate` makes it. -/
  cascade : Bool := false

namespace DB

def empty : DB where
  streams := .empty
  tasks := .empty
  issued := []
  stream_issued _ h := absurd h List.not_mem_nil

/-- The row with a printed id. -/
def streamAt (db : DB) (u : Str) : Option Stream := db.streams.find fun r => r.id = u

/-- The row with a stream key. -/
def streamOf (db : DB) (key : Str) : Option Stream := db.streams.find fun r => r.streamKey = key

def taskAt (db : DB) (u : Str) : Option AgentTask := db.tasks.find fun r => r.id = u

/-! ### Stream operations -/

/-- The record as it comes back, with its id and creation time, and the new table. -/
def createStream (db : DB) (s : Stream) (id : Str) (now : Time) : Except GoError (Stream × DB) :=
  let s' := { s with id := id, createdAt := now }
  if id ∈ db.issued then .error .backend
  else match s'.columns with
    | none => .error .backend
    | some row =>
      match h : db.streams.insert row with
      | none => .error .backend
      | some streams => .ok (s',
        { db with
          streams := streams
          issued := row.id :: db.issued
          stream_issued := fun r hr => (Table.mem_insert h).mp hr |>.elim
            (fun hr => List.mem_cons_of_mem _ (db.stream_issued r hr))
            fun hr => hr ▸ List.mem_cons_self })

def getStreamByID (db : DB) (id : Str) : Except GoError Stream :=
  match uuidIn id with
  | none => .error .backend
  | some u =>
    match db.streamAt u with
    | none => .error .recordNotFound
    | some s => .ok s

def getStreamByKey (db : DB) (key : Str) : Except GoError Stream :=
  match db.streamOf key with
  | none => .error .recordNotFound
  | some s => .ok s

/-- All streams, or those of one status, the newest first. -/
def listStreams (db : DB) (status : Option Status) : List Stream :=
  (db.streams.select fun s => status.all fun st => s.status = st).insertionSort
    fun a b => b.createdAt ≤ a.createdAt

theorem stream_harmless {f : Stream → Stream} (hid : ∀ r, (f r).id = r.id)
    (hkey : ∀ r, (f r).streamKey = r.streamKey) :
    Table.Harmless Stream.Apart Stream.Stored f := by
  constructor
  · intro a b h
    unfold Stream.Apart at *
    rw [hid, hkey, hid, hkey]
    exact ⟨h, h⟩
  · intro a h
    unfold Stream.Stored at *
    rw [hid]
    exact h

/-- `UPDATE streams SET … WHERE id = u`. -/
def setStream (db : DB) (u : Str) (f : Stream → Stream)
    (hid : ∀ r, (f r).id = r.id) (hkey : ∀ r, (f r).streamKey = r.streamKey) : DB :=
  { db with
    streams := db.streams.update (fun r => r.id = u) f (stream_harmless hid hkey)
    stream_issued := by
      intro r hr
      obtain ⟨x, hx, rfl⟩ := Table.mem_update.mp hr
      split
      · rw [hid]
        exact db.stream_issued x hx
      · exact db.stream_issued x hx }

def updateStreamStatus (db : DB) (id : Str) (status : Status) (extra : StatusExtra) :
    Except GoError DB :=
  match uuidIn id with
  | none => .error .backend
  | some u => .ok (db.setStream u (Stream.withStatus status extra) (fun _ => rfl) fun _ => rfl)

def updateStreamPushAuth (db : DB) (id token pushURL : Str) : Except GoError DB :=
  match uuidIn id with
  | none => .error .backend
  | some u => .ok (db.setStream u (Stream.withPushAuth token pushURL) (fun _ => rfl) fun _ => rfl)

/-- What goes with the row of a stream: its tasks, where the schema says so. -/
def cascades (db : DB) (u : Str) (t : AgentTask) : Bool :=
  db.cascade && (db.streamAt u).isSome && t.streamID = u

def deleteStream (db : DB) (id : Str) : Except GoError DB :=
  match uuidIn id with
  | none => .error .backend
  | some u => .ok
    { db with
      streams := db.streams.delete fun r => r.id = u
      tasks := db.tasks.delete (db.cascades u)
      stream_issued := fun r hr => db.stream_issued r (Table.mem_delete.mp hr).1 }

/-! ### Agent task operations -/

/-- `agent_id = ? OR agent_id = '' OR agent_id IS NULL`. -/
def claimable (agentID : Str) (t : AgentTask) : Bool :=
  t.agentID = some agentID || t.agentID = some [] || t.agentID = none

/-- Pending tasks, for one agent or all, by creation time. -/
def getPendingTasks (db : DB) (agentID : Str) : List AgentTask :=
  (db.tasks.select fun t =>
    t.status = taskStatusPending && (agentID.isEmpty || claimable agentID t)).insertionSort
    fun a b => a.createdAt ≤ b.createdAt

theorem task_harmless {f : AgentTask → AgentTask} (hid : ∀ r, (f r).id = r.id) :
    Table.Harmless AgentTask.Apart AgentTask.Stored f := by
  constructor
  · intro a b h
    unfold AgentTask.Apart at *
    rw [hid, hid]
    exact ⟨h, h⟩
  · intro a h
    unfold AgentTask.Stored at *
    rw [hid]
    exact h

/-- `UPDATE agent_tasks SET … WHERE id = u`. -/
def setTask (db : DB) (u : Str) (f : AgentTask → AgentTask) (hid : ∀ r, (f r).id = r.id) : DB :=
  { db with tasks := db.tasks.update (fun r => r.id = u) f (task_harmless hid) }

def updateTaskStatus (db : DB) (id status errMsg : Str) (now : Time) : Except GoError DB :=
  match uuidIn id, varchar 20 status with
  | some u, some st => .ok (db.setTask u (AgentTask.withStatus st errMsg now) fun _ => rfl)
  | _, _ => .error .backend

def assignTask (db : DB) (id agentID : Str) (now : Time) : Except GoError DB :=
  match uuidIn id, varchar 64 agentID with
  | some u, some a => .ok (db.setTask u (AgentTask.assigned a now) fun _ => rfl)
  | _, _ => .error .backend

def getTaskByID (db : DB) (id : Str) : Except GoError AgentTask :=
  match uuidIn id with
  | none => .error .backend
  | some u =>
    match db.taskAt u with
    | none => .error .recordNotFound
    | some t => .ok t

def countRunningFFmpegTasks (db : DB) : Nat :=
  (db.tasks.select fun t => t.status = taskStatusRunning && t.action = actionStartPush).length

/-! ### The row a statement finds -/

theorem identifies_id (u : Str) : Table.Identifies Stream.Apart fun r => decide (r.id = u) := by
  intro a b h ha hb
  simp only [decide_eq_true_eq] at ha hb
  exact h.1 (ha.trans hb.symm)

theorem identifies_key (k : Str) :
    Table.Identifies Stream.Apart fun r => decide (r.streamKey = k) := by
  intro a b h ha hb
  simp only [decide_eq_true_eq] at ha hb
  exact h.2 (ha.trans hb.symm)

theorem identifies_task (u : Str) :
    Table.Identifies AgentTask.Apart fun r => decide (r.id = u) := by
  intro a b h ha hb
  simp only [decide_eq_true_eq] at ha hb
  exact h (ha.trans hb.symm)

theorem streamAt_eq_some {db : DB} {u : Str} {r : Stream} :
    db.streamAt u = some r ↔ r ∈ db.streams.rows ∧ r.id = u := by
  simp [streamAt, Table.find_eq_some (identifies_id u)]

theorem streamOf_eq_some {db : DB} {k : Str} {r : Stream} :
    db.streamOf k = some r ↔ r ∈ db.streams.rows ∧ r.streamKey = k := by
  simp [streamOf, Table.find_eq_some (identifies_key k)]

theorem taskAt_eq_some {db : DB} {u : Str} {t : AgentTask} :
    db.taskAt u = some t ↔ t ∈ db.tasks.rows ∧ t.id = u := by
  simp [taskAt, Table.find_eq_some (identifies_task u)]

/-- A row found by its key is the row found by its id. -/
theorem streamAt_of_streamOf {db : DB} {k : Str} {r : Stream} (h : db.streamOf k = some r) :
    db.streamAt r.id = some r :=
  streamAt_eq_some.mpr ⟨(streamOf_eq_some.mp h).1, rfl⟩

theorem streamOf_of_streamAt {db : DB} {u : Str} {r : Stream} (h : db.streamAt u = some r) :
    db.streamOf r.streamKey = some r :=
  streamOf_eq_some.mpr ⟨(streamAt_eq_some.mp h).1, rfl⟩

/-- A stored id is its own printed form. -/
theorem uuidIn_streamAt {db : DB} {u : Str} {r : Stream} (h : db.streamAt u = some r) :
    uuidIn u = some u := by
  obtain ⟨hr, rfl⟩ := streamAt_eq_some.mp h
  exact db.streams.good r hr

/-- So no statement about a stored stream fails for its id. -/
theorem uuidIn_of_streamOf {db : DB} {k : Str} {r : Stream} (h : db.streamOf k = some r) :
    uuidIn r.id ≠ none := by
  rw [uuidIn_streamAt (streamAt_of_streamOf h)]
  exact Option.some_ne_none _

theorem issued_of_streamAt {db : DB} {u : Str} {r : Stream} (h : db.streamAt u = some r) :
    u ∈ db.issued := by
  obtain ⟨hr, rfl⟩ := streamAt_eq_some.mp h
  exact db.stream_issued r hr

theorem mem_listStreams {db : DB} {status : Status} {row : Stream} :
    row ∈ db.listStreams (some status) ↔ row ∈ db.streams.rows ∧ row.status = status := by
  simp [listStreams, Table.select, List.mem_insertionSort]

theorem mem_getPendingTasks {db : DB} {agentID : Str} {t : AgentTask} :
    t ∈ db.getPendingTasks agentID ↔ t ∈ db.tasks.rows ∧ t.status = taskStatusPending ∧
      (agentID = [] ∨ claimable agentID t = true) := by
  simp [getPendingTasks, Table.select, List.mem_insertionSort]

/-- A task is selected once. -/
theorem apart_getPendingTasks (db : DB) (agentID : Str) :
    (db.getPendingTasks agentID).Pairwise AgentTask.Apart :=
  ((List.perm_insertionSort _ _).pairwise_iff Ne.symm).mpr (db.tasks.apart.filter _)

/-- The tasks are selected as they are, and sorted. -/
theorem perm_getPendingTasks (db : DB) (agentID : Str) :
    (db.getPendingTasks agentID).Perm (db.tasks.rows.filter fun t => t.status = taskStatusPending &&
      (agentID.isEmpty || claimable agentID t)) :=
  List.perm_insertionSort _ _

theorem sorted_getPendingTasks (db : DB) (agentID : Str) :
    (db.getPendingTasks agentID).Pairwise fun a b => a.createdAt ≤ b.createdAt := by
  have : Std.Total fun a b : AgentTask => a.createdAt ≤ b.createdAt :=
    ⟨fun a b => Int.le_total a.createdAt b.createdAt⟩
  have : IsTrans AgentTask fun a b => a.createdAt ≤ b.createdAt := ⟨fun _ _ _ => Int.le_trans⟩
  exact List.pairwise_insertionSort _ _

theorem getStreamByID_ok {db : DB} {id : Str} {r : Stream} (h : db.getStreamByID id = .ok r) :
    uuidIn id = some r.id ∧ db.streamAt r.id = some r := by
  unfold getStreamByID at h
  split at h
  · cases h
  · rename_i u hu
    split at h
    · cases h
    · rename_i s hs
      cases h
      obtain ⟨_, rfl⟩ := streamAt_eq_some.mp hs
      exact ⟨hu, hs⟩

theorem getStreamByKey_ok {db : DB} {key : Str} {r : Stream} :
    db.getStreamByKey key = .ok r ↔ db.streamOf key = some r := by
  unfold getStreamByKey
  cases db.streamOf key with
  | none => simp
  | some s => simp

/-! ### What a statement does to a row -/

/-- `db'` is `db` with the rows named `u` passed through `f`. -/
structure Updated (db db' : DB) (u : Str) (f : Stream → Stream) : Prop where
  streamAt : ∀ v, db'.streamAt v = if v = u then (db.streamAt u).map f else db.streamAt v
  streamOf : ∀ k, db'.streamOf k = (db.streamOf k).map fun r => if r.id = u then f r else r
  mem : ∀ x, x ∈ db'.streams.rows ↔ ∃ r ∈ db.streams.rows, (if r.id = u then f r else r) = x
  tasks : db'.tasks = db.tasks
  issued : db'.issued = db.issued
  cascade : db'.cascade = db.cascade

/-- `db'` is `db` without the row named `u`. -/
structure Deleted (db db' : DB) (u : Str) : Prop where
  streamAt : ∀ v, db'.streamAt v = if v = u then none else db.streamAt v
  mem : ∀ x, x ∈ db'.streams.rows ↔ x ∈ db.streams.rows ∧ x.id ≠ u
  tasks : db'.tasks = db.tasks.delete (db.cascades u)
  issued : db'.issued = db.issued
  cascade : db'.cascade = db.cascade

/-- `db'` is `db` with a row under a new id and a new key. -/
structure Inserted (db db' : DB) (row : Stream) : Prop where
  fresh : row.id ∉ db.issued
  uuid : uuidIn row.id = some row.id
  streamAt : ∀ v, db'.streamAt v = if v = row.id then some row else db.streamAt v
  mem : ∀ x, x ∈ db'.streams.rows ↔ x ∈ db.streams.rows ∨ x = row
  key : ∀ x ∈ db.streams.rows, x.streamKey ≠ row.streamKey
  tasks : db'.tasks = db.tasks
  issued : db'.issued = row.id :: db.issued
  cascade : db'.cascade = db.cascade

theorem setStream_updated (db : DB) (u : Str) (f : Stream → Stream) (hid : ∀ r, (f r).id = r.id)
    (hkey : ∀ r, (f r).streamKey = r.streamKey) : db.Updated (db.setStream u f hid hkey) u f where
  streamAt v := Table.find_update_key (stream_harmless hid hkey) hid u v
  streamOf k := by
    have hq : ∀ r, decide ((f r).streamKey = k) = decide (r.streamKey = k) := fun r => by rw [hkey]
    unfold DB.streamOf setStream
    rw [Table.find_update hq]
    simp only [decide_eq_true_eq]
  mem x := by simp [setStream, Table.mem_update]
  tasks := rfl
  issued := rfl
  cascade := rfl

theorem updateStreamStatus_ok {db db' : DB} {id : Str} {status : Status} {extra : StatusExtra}
    (h : db.updateStreamStatus id status extra = .ok db') :
    ∃ u, uuidIn id = some u ∧ db.Updated db' u (Stream.withStatus status extra) := by
  unfold updateStreamStatus at h
  split at h
  · cases h
  · rename_i u hu
    cases h
    exact ⟨u, hu, db.setStream_updated u _ _ _⟩

theorem updateStreamPushAuth_ok {db db' : DB} {id token pushURL : Str}
    (h : db.updateStreamPushAuth id token pushURL = .ok db') :
    ∃ u, uuidIn id = some u ∧ db.Updated db' u (Stream.withPushAuth token pushURL) := by
  unfold updateStreamPushAuth at h
  split at h
  · cases h
  · rename_i u hu
    cases h
    exact ⟨u, hu, db.setStream_updated u _ _ _⟩

/-- A task goes with its stream, if the schema cascades. -/
theorem Deleted.taskAt {db db' : DB} {u : Str} (h : db.Deleted db' u) (id : Str) :
    db'.taskAt id = (db.taskAt id).filter fun t => !db.cascades u t := by
  unfold DB.taskAt
  rw [h.tasks]
  exact Table.find_delete (identifies_task id)

theorem cascades_eq_true {db : DB} {u : Str} {t : AgentTask} :
    db.cascades u t = true ↔ db.cascade = true ∧ (∃ row, db.streamAt u = some row) ∧ t.streamID = u := by
  simp [cascades, Option.isSome_iff_exists, and_assoc]

theorem deleteStream_ok {db db' : DB} {id : Str} (h : db.deleteStream id = .ok db') :
    ∃ u, uuidIn id = some u ∧ db.Deleted db' u := by
  unfold deleteStream at h
  split at h
  · cases h
  · rename_i u hu
    cases h
    refine ⟨u, hu, fun v => ?_, fun x => ?_, rfl, rfl, rfl⟩
    · simp only [streamAt, Table.find_delete (identifies_id v)]
      cases hf : db.streams.find fun r => decide (r.id = v) with
      | none => simp
      | some r =>
        have hr : r.id = v := by simpa using (Table.mem_of_find hf).2
        by_cases hv : v = u
        · simp [hr, hv]
        · simp [hr, hv]
    · simp [Table.mem_delete]

/-- What the columns hold of a record: all of it but the texts they may cut. -/
theorem columns_spec {s row : Stream} (h : s.columns = some row) :
    ∃ channelID streamKey protocol resolution bitrate,
      varchar 128 s.streamKey = some streamKey ∧ varchar 10 s.bitrate = some bitrate ∧
      row = { s with channelID, streamKey, protocol, resolution, bitrate } := by
  unfold Stream.columns at h
  simp only [Option.bind_eq_bind, Option.bind_eq_some_iff, Option.pure_def,
    Option.some.injEq] at h
  obtain ⟨c, _, k, hk, p, _, r, _, b, hb, rfl⟩ := h
  exact ⟨c, k, p, r, b, hk, hb, rfl⟩

/-- A successful insert stores what the columns hold of the record it returns. -/
theorem createStream_ok {db db' : DB} {s s' : Stream} {id : Str} {now : Time}
    (h : db.createStream s id now = .ok (s', db')) :
    s' = { s with id := id, createdAt := now } ∧
      ∃ row, s'.columns = some row ∧ row.id = id ∧ db.Inserted db' row := by
  unfold createStream at h
  split at h
  · cases h
  rename_i hissued
  dsimp only at h
  split at h
  · cases h
  rename_i row hrow
  split at h
  · cases h
  rename_i streams hins
  cases h
  have hid : row.id = id := by
    obtain ⟨_, _, _, _, _, _, _, rfl⟩ := columns_spec hrow
    rfl
  have happ := Table.insert_apart hins
  refine ⟨rfl, row, hrow, hid, hid ▸ hissued,
    streams.good row ((Table.mem_insert hins).mpr (.inr rfl)), fun v => ?_,
    fun x => Table.mem_insert hins, fun x hx => (happ x hx).2, rfl, rfl, rfl⟩
  simp only [streamAt, Table.find_insert hins]
  by_cases hv : v = row.id
  · subst hv
    have hnone : (db.streams.find fun r => decide (r.id = row.id)) = none := by
      refine Table.find_eq_none.mpr fun r hr => ?_
      simpa using (happ r hr).1
    simp [hnone]
  · have hne : ¬ row.id = v := Ne.symm hv
    simp [hv, hne]

/-- `db'` is `db` with the task named `u` passed through `f`. -/
structure TaskUpdated (db db' : DB) (u : Str) (f : AgentTask → AgentTask) : Prop where
  taskAt : ∀ v, db'.taskAt v = if v = u then (db.taskAt u).map f else db.taskAt v
  mem : ∀ x, x ∈ db'.tasks.rows ↔ ∃ t ∈ db.tasks.rows, (if t.id = u then f t else t) = x
  streams : db'.streams = db.streams
  issued : db'.issued = db.issued
  cascade : db'.cascade = db.cascade

theorem TaskUpdated.self {db db' : DB} {u : Str} {f : AgentTask → AgentTask} (h : db.TaskUpdated db' u f) :
    db'.taskAt u = (db.taskAt u).map f := by
  rw [h.taskAt, if_pos rfl]

theorem setTask_updated (db : DB) (u : Str) (f : AgentTask → AgentTask) (hid : ∀ r, (f r).id = r.id) :
    db.TaskUpdated (db.setTask u f hid) u f where
  taskAt v := Table.find_update_key (task_harmless hid) hid u v
  mem x := by simp [setTask, Table.mem_update]
  streams := rfl
  issued := rfl
  cascade := rfl

theorem updateTaskStatus_ok {db db' : DB} {id status errMsg : Str} {now : Time}
    (h : db.updateTaskStatus id status errMsg now = .ok db') :
    ∃ u st, uuidIn id = some u ∧ varchar 20 status = some st ∧
      db.TaskUpdated db' u (AgentTask.withStatus st errMsg now) := by
  unfold updateTaskStatus at h
  split at h
  · rename_i u st hu hst
    cases h
    exact ⟨u, st, hu, hst, db.setTask_updated u _ _⟩
  · cases h

theorem assignTask_ok {db db' : DB} {id agentID : Str} {now : Time}
    (h : db.assignTask id agentID now = .ok db') :
    ∃ u a, uuidIn id = some u ∧ varchar 64 agentID = some a ∧
      db.TaskUpdated db' u (AgentTask.assigned a now) := by
  unfold assignTask at h
  split at h
  · rename_i u a hu ha
    cases h
    exact ⟨u, a, hu, ha, db.setTask_updated u _ _⟩
  · cases h

end DB

/-- The row of the stream is there, and publishing. -/
def Live (db : DB) (x : Str) : Prop := ∃ row, db.streamAt x = some row ∧ row.status = .publishing

theorem any_publishing {db : DB} {x : Str} :
    (db.streamAt x).any (·.status = .publishing) = true ↔ Live db x := by
  rw [Option.any_eq_true]
  simp only [decide_eq_true_eq]
  rfl

instance (db : DB) (x : Str) : Decidable (Live db x) := decidable_of_iff _ any_publishing

theorem decide_live (db : DB) (x : Str) :
    decide (Live db x) = (db.streamAt x).any (·.status = .publishing) := by
  rw [Bool.eq_iff_iff, decide_eq_true_iff, any_publishing]

end LiveServer
