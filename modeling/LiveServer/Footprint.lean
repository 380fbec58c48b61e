import LiveServer.Effects
import LiveServer.Server

/-! What each request can do.

`May` lists the operations of each request, `body_may` says the list is complete.
An invariant only has to look at the requests that can touch what it is about. -/
namespace LiveServer
open Concurrent

/-- The operations a request can perform. -/
inductive StreamService.May (s : StreamService) : Call → Op → Prop
  | read {call : Call} {id : Str} : s.May call (.getStreamByID id)
  | readKey {call : Call} {key : Str} : s.May call (.getStreamByKey key)
  | readStatus {call : Call} {id : Str} : s.May call (.getStreamStatus id)
  | readViewers {call : Call} {id : Str} : s.May call (.getViewers id)
  | readTask {call : Call} {id : Str} : s.May call (.getTaskByID id)
  | readTasks {call : Call} {agentID : Str} : s.May call (.getPendingTasks agentID)
  | find {call : Call} {key : Str} : s.May call (.findPublishingClient key)
  | kick {call : Call} {client : Str} : s.May call (.kickClient client)
  | gauge {call : Call} {g : GaugeVec} {label : Str} {v : Sample} : s.May call (.set g label v)
  | label {call : Call} {g : GaugeVec} {label : Str} : s.May call (.deleteLabelValues g label)
  | count {call : Call} {c : CounterVec} {label : Str} : s.May call (.inc c label)
  | create {inp : Inputs} {req : CreateStreamRequest} {token : Str} :
      generatePublishToken inp.random = .ok token →
      s.May (.createStream inp req) (.createStream (s.newStream inp req token))
  | createStatus {inp : Inputs} {req : CreateStreamRequest} {id : Str} {d : StreamStatusData} :
      s.May (.createStream inp req) (.setStreamStatus id d)
  | createURLs {inp : Inputs} {req : CreateStreamRequest} {id : Str} {d : PlayURLData} :
      s.May (.createStream inp req) (.setPlayURLs id d)
  | cleanup {id : Str} : s.May (.deleteStream id) (.deleteStreamCache id)
  | delete {id : Str} : s.May (.deleteStream id) (.deleteStream id)
  | refresh {inp : Inputs} {id token pushURL : Str} :
      generatePublishToken inp.random = .ok token →
      s.May (.refreshPushToken inp id) (.updateStreamPushAuth id token pushURL)
  | publish {client : Nat} {now : Time} {key token id : Str} {extra : StatusExtra} :
      s.May (.onPublish client now key token) (.updateStreamStatus id .publishing extra)
  | publishStatus {client : Nat} {now : Time} {key token id : Str} {d : StreamStatusData} :
      s.May (.onPublish client now key token) (.setStreamStatus id d)
  | unpublish {client : Nat} {now : Time} {key id : Str} {extra : StatusExtra} :
      s.May (.onUnpublish client now key) (.updateStreamStatus id .ended extra)
  | unpublishStatus {client : Nat} {now : Time} {key id : Str} {d : StreamStatusData} :
      s.May (.onUnpublish client now key) (.setStreamStatus id d)
  | unpublishViewers {client : Nat} {now : Time} {key id : Str} :
      s.May (.onUnpublish client now key) (.resetViewers id)
  | play {key id : Str} : s.May (.onPlay key) (.incrViewers id)
  | stop {key id : Str} : s.May (.onStop key) (.decrViewers id)
  | assign {agentID id : Str} : s.May (.getTasks agentID) (.assignTask id agentID)
  | running {id : Str} : s.May (.getTasks []) (.updateTaskStatus id taskStatusRunning [])
  | report {id status errorMsg : Str} :
      s.May (.updateTask id status errorMsg) (.updateTaskStatus id status errorMsg)

namespace StreamService
variable (s : StreamService)

/-! ### The calls of each function

A property of calls holds of every call of a function if it holds of those listed. -/

section
variable {P : Op → Prop}

theorem every_stopPublishing (stream : Stream) (hfind : ∀ key, P (.findPublishingClient key))
    (hkick : ∀ client, P (.kickClient client)) : (stopPublishing stream).Every P := by
  refine Prog.every_op_bind.mpr ⟨hfind _, ?_⟩
  rintro (e | _ | c)
  · trivial
  · trivial
  · exact ⟨hkick _, fun _ => trivial⟩

theorem every_createStream {inp : Inputs} {req : CreateStreamRequest}
    (hinsert : ∀ token, generatePublishToken inp.random = .ok token →
      P (.createStream (s.newStream inp req token)))
    (hstatus : ∀ id d, P (.setStreamStatus id d)) (hurls : ∀ id d, P (.setPlayURLs id d)) :
    (s.createStream inp req).Every P := by
  unfold createStream
  cases ht : generatePublishToken inp.random with
  | error e => trivial
  | ok token =>
    refine Prog.every_op_bind.mpr ⟨hinsert token ht, fun r => ?_⟩
    cases r with
    | error e => trivial
    | ok stream =>
      simp only [cacheStatus, cachePlayURLs]
      split <;> simp [hstatus, hurls]

theorem every_getStream {id : Str} (hcache : P (.getStreamStatus id))
    (hdb : P (.getStreamByID id)) : (s.getStream id).Every P := by
  show (if s.cache then _ else _ : Server _).Every P
  split
  · refine Prog.every_op_bind.mpr ⟨hcache, ?_⟩
    rintro (e | _ | d)
    · exact ⟨hdb, fun _ => trivial⟩
    · exact ⟨hdb, fun _ => trivial⟩
    · trivial
  · exact ⟨hdb, fun _ => trivial⟩

theorem every_listStreams {status : Str} (h : ∀ st, P (.listStreams st)) :
    (listStreams status).Every P := by
  unfold listStreams
  split
  · exact ⟨h _, fun _ => trivial⟩
  · split
    · exact ⟨h _, fun _ => trivial⟩
    · exact Prog.every_map _ ⟨h _, fun _ => trivial⟩

theorem every_startStream {id : Str} (h : P (.getStreamByID id)) : (startStream id).Every P := by
  refine Prog.every_op_bind.mpr ⟨h, ?_⟩
  rintro (e | stream)
  · trivial
  · dsimp only
    split <;> trivial

theorem every_refreshPushToken {inp : Inputs} {id : Str} (hread : P (.getStreamByID id))
    (hwrite : ∀ token url, P (.updateStreamPushAuth id token url)) :
    (s.refreshPushToken inp id).Every P := by
  refine Prog.every_op_bind.mpr ⟨hread, ?_⟩
  rintro (e | stream)
  · trivial
  · dsimp only
    split
    · trivial
    · refine Prog.every_op_bind.mpr ⟨hwrite _ _, ?_⟩
      rintro (_ | e) <;> trivial

theorem every_deleteStream {id : Str} (hread : P (.getStreamByID id))
    (hfind : ∀ key, P (.findPublishingClient key)) (hkick : ∀ client, P (.kickClient client))
    (hcleanup : P (.deleteStreamCache id)) (hdelete : P (.deleteStream id)) :
    (s.deleteStream id).Every P := by
  refine Prog.every_op_bind.mpr ⟨hread, ?_⟩
  rintro (e | stream)
  · trivial
  · have hrest : (do
        if s.cache then
          let _ ← cache.deleteStreamCache id
        db.deleteStream id : Server (Option GoError)).Every P := by
      split <;> simp [hcleanup, hdelete]
    dsimp only
    split
    · exact Prog.every_bind (every_stopPublishing stream hfind hkick) fun _ => hrest
    · exact hrest

theorem every_stopStream {id : Str} (hread : P (.getStreamByID id))
    (hfind : ∀ key, P (.findPublishingClient key)) (hkick : ∀ client, P (.kickClient client)) :
    (stopStream id).Every P := by
  refine Prog.every_op_bind.mpr ⟨hread, ?_⟩
  rintro (e | stream)
  · trivial
  · dsimp only
    split
    · exact Prog.every_bind (every_stopPublishing stream hfind hkick) fun _ => trivial
    · trivial

/-- What `OnPublish` does once the row says that the stream is published. -/
def announce (now : Time) (stream : Stream) : Server (Option GoError) := do
  if s.cache then
    let viewers ← cache.getViewers stream.id
    let _ ← cache.setStreamStatus stream.id
      { status := .publishing
        bitrate := stream.bitrate
        viewers := viewers.toOption.getD 0
        startedAt := s.formatRFC3339 now }
  metrics.set .liveStreamsActive stream.id (.count 1)
  metrics.set .liveStreamBitrateKbps stream.id (parseBitrateKbps stream.bitrate)
  return none

/-- What `OnUnpublish` does once the row says that the stream has ended. -/
def retire (now : Time) (stream : Stream) : Server (Option GoError) := do
  if s.cache then
    let _ ← cache.setStreamStatus stream.id
      { status := .ended, bitrate := stream.bitrate, viewers := 0, startedAt := [] }
    let _ ← cache.resetViewers stream.id
  match stream.startedAt with
  | none => pure ()
  | some startedAt =>
    metrics.set .streamPublishDuration stream.id (.seconds (now - startedAt))
  metrics.deleteLabelValues .liveStreamsActive stream.id
  metrics.deleteLabelValues .liveViewersTotal stream.id
  metrics.deleteLabelValues .liveStreamBitrateKbps stream.id
  return none

theorem every_announce {now : Time} (hviewers : ∀ id, P (.getViewers id))
    (hstatus : ∀ id d, P (.setStreamStatus id d)) (hset : ∀ g id v, P (.set g id v)) (stream : Stream) :
    (s.announce now stream).Every P := by
  unfold announce
  split <;> simp [hviewers, hstatus, hset]

theorem every_retire {now : Time} (hstatus : ∀ id d, P (.setStreamStatus id d))
    (hreset : ∀ id, P (.resetViewers id)) (hset : ∀ id v, P (.set .streamPublishDuration id v))
    (hdrop : ∀ g id, P (.deleteLabelValues g id)) (stream : Stream) : (s.retire now stream).Every P := by
  unfold retire
  cases stream.startedAt <;> by_cases hcache : s.cache = true <;>
    simp [hcache, hstatus, hreset, hset, hdrop]

theorem every_onPublish {now : Time} {key token : Str} (hread : P (.getStreamByKey key))
    (hrefuse : P (.inc .authFailuresTotal (lit "publish")))
    (hupdate : ∀ id, P (.updateStreamStatus id .publishing
      { startedAt := some (some now), endedAt := some none }))
    (hviewers : ∀ id, P (.getViewers id)) (hstatus : ∀ id d, P (.setStreamStatus id d))
    (hset : ∀ g id v, P (.set g id v)) : (s.onPublish now key token).Every P := by
  refine Prog.every_op_bind.mpr ⟨hread, ?_⟩
  rintro (e | stream)
  · simp [hrefuse]
  · simp only [validatePushToken]
    cases validatePublishToken stream.pushToken token with
    | some e => simp [hrefuse]
    | none =>
      simp only [Prog.pure_eq, Prog.done_bind]
      split
      · simp [hrefuse]
      · refine Prog.every_op_bind.mpr ⟨hupdate _, ?_⟩
        rintro (_ | e)
        · exact s.every_announce hviewers hstatus hset stream
        · trivial

theorem every_onUnpublish {now : Time} {key : Str} (hread : P (.getStreamByKey key))
    (hupdate : ∀ id, P (.updateStreamStatus id .ended { endedAt := some (some now) }))
    (hstatus : ∀ id d, P (.setStreamStatus id d)) (hreset : ∀ id, P (.resetViewers id))
    (hset : ∀ id v, P (.set .streamPublishDuration id v)) (hdrop : ∀ g id, P (.deleteLabelValues g id)) :
    (s.onUnpublish now key).Every P := by
  refine Prog.every_op_bind.mpr ⟨hread, ?_⟩
  rintro (e | stream)
  · trivial
  · refine Prog.every_op_bind.mpr ⟨hupdate _, ?_⟩
    rintro (_ | e)
    · exact s.every_retire hstatus hreset hset hdrop stream
    · trivial

/-- What holds around each call of `OnPublish`: at calls of no interest, and at its update. -/
theorem after_onPublish {Q : Prog.Event Op Op.Res → Server (Option GoError) → Prop} {now : Time}
    {key token : Str} (hQ : ∀ e p, P e.op → Q e p) (hread : P (.getStreamByKey key))
    (hrefuse : P (.inc .authFailuresTotal (lit "publish"))) (hviewers : ∀ id, P (.getViewers id))
    (hstatus : ∀ id d, P (.setStreamStatus id d)) (hset : ∀ g id v, P (.set g id v))
    (hfailed : ∀ id extra e, Q ⟨.updateStreamStatus id .publishing extra, some e⟩ (.done (some e)))
    (hupdated : ∀ stream extra, Q ⟨.updateStreamStatus stream.id .publishing extra, none⟩
      (s.announce now stream)) : (s.onPublish now key token).After Q := by
  have htail {p : Server (Option GoError)} (h : p.Every P) : p.After Q := h.after fun e p he _ => hQ e p he
  refine Prog.after_op_bind.mpr fun r => ⟨hQ _ _ hread, ?_⟩
  cases r with
  | error e => exact htail (by simp [hrefuse])
  | ok stream =>
    simp only [validatePushToken]
    cases validatePublishToken stream.pushToken token with
    | some e => exact htail (by simp [hrefuse])
    | none =>
      simp only [Prog.pure_eq, Prog.done_bind]
      split
      · exact htail (by simp [hrefuse])
      · refine Prog.after_op_bind.mpr fun r => ?_
        cases r with
        | some e => exact ⟨hfailed _ _ e, trivial⟩
        | none => exact ⟨hupdated stream _, htail (s.every_announce hviewers hstatus hset stream)⟩

theorem after_onUnpublish {Q : Prog.Event Op Op.Res → Server (Option GoError) → Prop} {now : Time}
    {key : Str} (hQ : ∀ e p, P e.op → Q e p) (hread : P (.getStreamByKey key))
    (hstatus : ∀ id d, P (.setStreamStatus id d)) (hreset : ∀ id, P (.resetViewers id))
    (hset : ∀ id v, P (.set .streamPublishDuration id v)) (hdrop : ∀ g id, P (.deleteLabelValues g id))
    (hfailed : ∀ id extra e, Q ⟨.updateStreamStatus id .ended extra, some e⟩ (.done (some e)))
    (hupdated : ∀ stream extra, Q ⟨.updateStreamStatus stream.id .ended extra, none⟩
      (s.retire now stream)) : (s.onUnpublish now key).After Q := by
  refine Prog.after_op_bind.mpr fun r => ⟨hQ _ _ hread, ?_⟩
  cases r with
  | error e => trivial
  | ok stream =>
    refine Prog.after_op_bind.mpr fun r => ?_
    cases r with
    | some e => exact ⟨hfailed _ _ e, trivial⟩
    | none =>
      have htail : (s.retire now stream).Every P := s.every_retire hstatus hreset hset hdrop stream
      exact ⟨hupdated stream _, htail.after fun e p he _ => hQ e p he⟩

theorem every_countViewer {count : Str → Server (Except GoError Int)} {key : Str}
    (hread : P (.getStreamByKey key)) (hcount : ∀ id, (count id).Every P)
    (hset : ∀ id n, P (.set .liveViewersTotal id (.count n))) : (s.countViewer count key).Every P := by
  unfold countViewer
  split
  · refine Prog.every_op_bind.mpr ⟨hread, ?_⟩
    rintro (e | stream)
    · trivial
    · refine Prog.every_bind (hcount _) ?_
      rintro (e | n)
      · trivial
      · exact ⟨hset _ _, fun _ => trivial⟩
  · trivial

theorem every_getTasks {agentID : Str} (hread : P (.getPendingTasks agentID))
    (hassign : ∀ id, P (.assignTask id agentID))
    (hrunning : agentID = [] → ∀ id, P (.updateTaskStatus id taskStatusRunning [])) :
    (AgentHandler.getTasks agentID).Every P := by
  have hclaim (tasks : List AgentTask) : (AgentHandler.claimTasks agentID tasks).Every P := by
    induction tasks with
    | nil => trivial
    | cons t rest ih =>
      unfold AgentHandler.claimTasks
      dsimp only
      split
      · exact Prog.every_op_bind.mpr ⟨hassign _, fun _ => ih⟩
      · rename_i hnone
        exact Prog.every_op_bind.mpr ⟨hrunning (not_not.mp hnone) _, fun _ => ih⟩
  refine Prog.every_op_bind.mpr ⟨hread, ?_⟩
  rintro (e | tasks)
  · trivial
  · exact Prog.every_bind (hclaim tasks) fun _ => trivial

theorem every_updateTask {id status errorMsg : Str} (hupdate : P (.updateTaskStatus id status errorMsg))
    (hread : P (.getTaskByID id)) (hcount : ∀ stream, P (.inc .ffmpegRestartTotal stream)) :
    (AgentHandler.updateTask id status errorMsg).Every P := by
  refine Prog.every_op_bind.mpr ⟨hupdate, ?_⟩
  rintro (_ | e)
  · dsimp only
    split
    · refine Prog.every_op_bind.mpr ⟨hread, ?_⟩
      rintro (e | t) <;> simp [hcount]
    · trivial
  · trivial

end

/-! ### The list of each request -/

theorem may_getStream (id : Str) : (s.getStream id).Every (s.May (.getStream id)) := by
  unfold getStream
  split
  · refine Prog.every_op_bind.mpr ⟨.readStatus, ?_⟩
    rintro (e | _ | d)
    · exact ⟨.read, fun _ => trivial⟩
    · exact ⟨.read, fun _ => trivial⟩
    · trivial
  · exact ⟨.read, fun _ => trivial⟩

theorem may_startStream (id : Str) : (startStream id).Every (s.May (.startStream id)) := by
  refine Prog.every_op_bind.mpr ⟨.read, ?_⟩
  rintro (e | stream)
  · trivial
  · dsimp only
    split <;> trivial

theorem may_refreshPushToken (inp : Inputs) (id : Str) :
    (s.refreshPushToken inp id).Every (s.May (.refreshPushToken inp id)) := by
  refine Prog.every_op_bind.mpr ⟨.read, ?_⟩
  rintro (e | stream)
  · trivial
  · dsimp only
    cases ht : generatePublishToken inp.random with
    | error e => trivial
    | ok token =>
      refine Prog.every_op_bind.mpr ⟨.refresh ht, ?_⟩
      rintro (_ | e) <;> trivial

theorem may_onPublish (client : Nat) (now : Time) (key token : Str) :
    (s.onPublish now key token).Every (s.May (.onPublish client now key token)) :=
  s.every_onPublish .readKey .count (fun _ => .publish) (fun _ => .readViewers)
    (fun _ _ => .publishStatus) fun _ _ _ => .gauge

/-- **The list is complete.** -/
theorem body_may (call : Call) : (s.body call).Every (s.May call) := by
  cases call with
  | createStream inp req =>
    exact Prog.every_map _ (s.every_createStream (fun _ ht => .create ht) (fun _ _ => .createStatus)
      fun _ _ => .createURLs)
  | getStream id => exact Prog.every_map _ (s.may_getStream id)
  | deleteStream id =>
    exact Prog.every_map _ (s.every_deleteStream .read (fun _ => .find) (fun _ => .kick) .cleanup .delete)
  | startStream id => exact Prog.every_map _ (s.may_startStream id)
  | stopStream id => exact Prog.every_map _ (every_stopStream .read (fun _ => .find) fun _ => .kick)
  | refreshPushToken inp id => exact Prog.every_map _ (s.may_refreshPushToken inp id)
  | onPublish client now key token => exact Prog.every_map _ (s.may_onPublish client now key token)
  | onUnpublish client now key =>
    exact Prog.every_map _ (s.every_onUnpublish .readKey (fun _ => .unpublish)
      (fun _ _ => .unpublishStatus) (fun _ => .unpublishViewers) (fun _ _ => .gauge) fun _ _ => .label)
  | onPlay key =>
    exact Prog.every_map _ (s.every_countViewer .readKey (fun _ => ⟨.play, fun _ => trivial⟩)
      fun _ _ => .gauge)
  | onStop key =>
    exact Prog.every_map _ (s.every_countViewer .readKey (fun _ => ⟨.stop, fun _ => trivial⟩)
      fun _ _ => .gauge)
  | getTasks agentID =>
    refine Prog.every_map _ (every_getTasks .readTasks (fun _ => .assign) ?_)
    rintro rfl id
    exact .running
  | updateTask id status errorMsg =>
    exact Prog.every_map _ (every_updateTask .report .readTask fun _ => .count)

/-! ### Stream keys -/

/-- What the columns hold of a new stream; its key is too short to be cut. -/
structure Opened (s : StreamService) (inp : Inputs) (token : Str) (row : Stream) : Prop where
  streamKey : row.streamKey = inp.key.val
  pushToken : row.pushToken = token
  pushURL : row.pushURL = s.pushURL inp.key.val token
  status : row.status = .created

theorem newStream_opened {inp : Inputs} {req : CreateStreamRequest} {token id : Str} {now : Time}
    {stream row : Stream} (hs : stream = { s.newStream inp req token with id := id, createdAt := now })
    (hcol : stream.columns = some row) : s.Opened inp token row := by
  obtain ⟨_, key, _, _, _, hkey, _, rfl⟩ := DB.columns_spec hcol
  subst hs
  have hshort : inp.key.val.length ≤ 128 := by
    rw [inp.key.property.1]
    decide
  cases (Relational.varchar_short hshort).symm.trans hkey
  exact ⟨rfl, rfl, rfl, rfl⟩

/-- Every row has a key that `uuid.New` gave. -/
def Keyed (db : DB) : Prop := ∀ id row, db.streamAt id = some row → IsUUIDText row.streamKey

theorem keyed_empty : Keyed .empty := fun _ _ h => (by cases h)

variable {s} in
/-- Keys are written when the row is, and not again. -/
theorem Keyed.change {db db' : DB} {call : Call} {o : Op} {r : o.Res} (h : Keyed db)
    (hmay : s.May call o) (hch : StreamChange db db' o r) : Keyed db' := by
  intro id row hrow
  cases hch.row id with
  | kept hat => exact h id row (hat ▸ hrow)
  | created hs' hcol _ _ hat =>
    cases hrow.symm.trans hat
    cases hmay with
    | @create inp =>
      rw [(s.newStream_opened hs' hcol).streamKey]
      exact inp.key.property
  | status _ hat =>
    rw [hat] at hrow
    obtain ⟨old, hold, rfl⟩ := Option.map_eq_some_iff.mp hrow
    exact h id old hold
  | pushAuth _ hat =>
    rw [hat] at hrow
    obtain ⟨old, hold, rfl⟩ := Option.map_eq_some_iff.mp hrow
    exact h id old hold
  | deleted _ hat =>
    rw [hat] at hrow
    cases hrow

/-! ### Every thread of a run -/

/-- Every request in flight keeps to its list. -/
def Lawful (c : ServerConfig) : Prop := ∀ th ∈ c.threads, th.rest.Every (s.May th.call)

variable {s} {t : ServerTransition}

theorem lawful_start (w : World) : s.Lawful (.start w) :=
  fun _ h => absurd h List.not_mem_nil

theorem Lawful.step (hv : s.machine.Valid t) (h : s.Lawful t.before) : s.Lawful t.after :=
  Machine.threads_step (H := fun call p => p.Every (s.May call)) s.body_may
    (fun _ _ _ r hc => hc.2 r) hv h

theorem Lawful.final {c : ServerConfig} {ts : List ServerTransition} (h : s.Lawful c)
    (htr : s.machine.Trace c ts) : s.Lawful (Machine.final c ts) :=
  htr.invariant (G := fun _ => True) (fun _ hv _ hl => hl.step hv) (fun _ _ => trivial) h

section
variable {i : Nat} {ch : Choice} {call : Call} {o : Op} {k : o.Res → Server Reply} {r : o.Res}
  {w : World}

/-- The operation of a step is on the list of its request. -/
theorem Lawful.may (h : s.Lawful t.before) (hs : s.machine.Steps t i ch call o k r w) :
    s.May call o :=
  (h _ hs.mem).1

theorem steps_perform (hs : s.machine.Steps t i ch call o k r w) :
    World.perform ch o t.before.world = (r, w) := hs.answer

theorem steps_streams (hs : s.machine.Steps t i ch call o k r w) :
    StreamChange t.before.world.db w.db o r := by
  have h := World.perform_streams ch o t.before.world
  rwa [steps_perform hs] at h

theorem steps_tasks (hs : s.machine.Steps t i ch call o k r w) :
    TaskChange t.before.world.db w.db o := by
  have h := World.perform_tasks ch o t.before.world
  rwa [steps_perform hs] at h

theorem steps_redis (hs : s.machine.Steps t i ch call o k r w) :
    CacheChange (t.before.world.redis.expire ch.expired) w.redis o := by
  have h := World.perform_redis ch o t.before.world
  rwa [steps_perform hs] at h

end

end StreamService
end LiveServer
