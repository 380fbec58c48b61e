import LiveServer.Alone
import LiveServer.Concurrent.Lockstep
import LiveServer.Handler.Public

/-! Push credentials stay inside.

Two servers that differ only in the push tokens and push URLs of their streams are
asked the same public requests. Every statement a public endpoint sends finds and
writes the same in both, but for the lookup of a stream, whose rows differ in those
two columns; and no handler looks at them except to compare a publisher's token. As
long as nobody presents the right one, the two servers cannot be told apart. -/
namespace LiveServer
open Concurrent Relational

/-- A stream without its push credentials. -/
def Stream.blank (r : Stream) : Stream := { r with pushToken := [], pushURL := [] }

/-- Databases that differ in push credentials only. -/
structure DB.Alike (db db' : DB) : Prop where
  streams : db.streams.rows.map Stream.blank = db'.streams.rows.map Stream.blank
  tasks : db.tasks = db'.tasks
  issued : db.issued = db'.issued

structure Alike (w w' : World) : Prop where
  db : w.db.Alike w'.db
  redis : w.redis = w'.redis
  metrics : w.metrics = w'.metrics

/-- A publish callback that carries the token of the stream it addresses. -/
def Handlers.guesses (h : Handlers) (w : World) : Request → Bool
  | .publish _ body => (h.bindCallback body).any fun cb =>
      (w.db.streamOf (parsePushAuth cb.stream cb.param).1).any
        (·.pushToken = (parsePushAuth cb.stream cb.param).2.1)
  | _ => false

/-- No request does, at the moment it is served. -/
def Handlers.neverGuesses (h : Handlers) : List (Request × (Nat → Choice)) → World → Bool
  | [], _ => true
  | (req, ch) :: rest, w =>
    !h.guesses w req && h.neverGuesses rest ((h.serve req).exec World.perform ch w).2

/-! ### What a public endpoint asks for -/

/-- The calls of the public endpoints beside the lookup of a stream. -/
def Op.isPublic : Op → Bool
  | .updateStreamStatus .. | .getPendingTasks _ | .updateTaskStatus .. | .assignTask .. | .getTaskByID _
  | .setStreamStatus .. | .incrViewers _ | .decrViewers _ | .resetViewers _ | .getViewers _
  | .set .. | .deleteLabelValues .. | .inc .. => true
  | _ => false

/-- Results of a statement on two databases. -/
inductive AlikeResult : Except GoError DB → Except GoError DB → Prop
  | error {e : GoError} : AlikeResult (.error e) (.error e)
  | ok {db db' : DB} : db.Alike db' → AlikeResult (.ok db) (.ok db')

section
variable {w w' : World} {db db' : DB} {ch : Choice}

theorem Alike.expire (h : Alike w w') (keys : List Str) : Alike (w.expire keys) (w'.expire keys) where
  db := h.db
  redis := congrArg (Redis.expire · keys) h.redis
  metrics := h.metrics

/-- The row with a key is the same, but for its push credentials. -/
theorem DB.Alike.streamOf (h : db.Alike db') (key : Str) :
    (db.streamOf key).map Stream.blank = (db'.streamOf key).map Stream.blank := by
  have hfind (l : List Stream) : (l.find? fun r => r.streamKey = key).map Stream.blank =
      (l.map Stream.blank).find? fun r => r.streamKey = key := by
    rw [List.find?_map]
    rfl
  show (db.streams.rows.find? _).map _ = (db'.streams.rows.find? _).map _
  rw [hfind, hfind, h.streams]

theorem alike_updateStreamStatus (h : db.Alike db') (id : Str) (status : Status) (extra : StatusExtra) :
    AlikeResult (db.updateStreamStatus id status extra) (db'.updateStreamStatus id status extra) := by
  unfold DB.updateStreamStatus
  cases uuidIn id with
  | none => exact .error
  | some u =>
    refine .ok ⟨?_, h.tasks, h.issued⟩
    -- the update and the blanking touch different columns
    have hmap (l : List Stream) :
        (l.map fun r => if r.id = u then r.withStatus status extra else r).map Stream.blank =
          (l.map Stream.blank).map fun r => if r.id = u then r.withStatus status extra else r := by
      rw [List.map_map, List.map_map]
      congr 1
      funext r
      show Stream.blank (if r.id = u then _ else _) = if r.id = u then _ else _
      split <;> rfl
    simp only [DB.setStream, Table.update, decide_eq_true_eq]
    rw [hmap, hmap, h.streams]

theorem alike_setTask (h : db.Alike db') (u : Str) (f : AgentTask → AgentTask)
    (hid : ∀ r, (f r).id = r.id) : (db.setTask u f hid).Alike (db'.setTask u f hid) where
  streams := h.streams
  tasks := by
    unfold DB.setTask
    rw [h.tasks]
  issued := h.issued

theorem alike_updateTaskStatus (h : db.Alike db') (id status errMsg : Str) (now : Time) :
    AlikeResult (db.updateTaskStatus id status errMsg now) (db'.updateTaskStatus id status errMsg now) := by
  unfold DB.updateTaskStatus
  split
  · exact .ok (alike_setTask h _ _ _)
  · exact .error

theorem alike_assignTask (h : db.Alike db') (id agentID : Str) (now : Time) :
    AlikeResult (db.assignTask id agentID now) (db'.assignTask id agentID now) := by
  unfold DB.assignTask
  split
  · exact .ok (alike_setTask h _ _ _)
  · exact .error

/-! ### One kind of call at a time -/

theorem alike_read (h : Alike w w') {r r' : Except GoError α} (hr : r = r') :
    (w.read ch r).1 = (w'.read ch r').1 ∧ Alike (w.read ch r).2 (w'.read ch r').2 := by
  subst hr
  exact ⟨rfl, h⟩

theorem alike_write (h : Alike w w') {r r' : Except GoError DB} (hr : AlikeResult r r') :
    (w.write ch r).1 = (w'.write ch r').1 ∧ Alike (w.write ch r).2 (w'.write ch r').2 := by
  unfold World.write
  split
  · exact ⟨rfl, h⟩
  · cases hr with
    | error => exact ⟨rfl, h⟩
    | ok hdb => exact ⟨rfl, hdb, h.redis, h.metrics⟩

theorem alike_cacheWrite (h : Alike w w') {r r' : Redis} (hr : r = r') :
    (w.cacheWrite ch r).1 = (w'.cacheWrite ch r').1 ∧
      Alike (w.cacheWrite ch r).2 (w'.cacheWrite ch r').2 := by
  unfold World.cacheWrite
  split
  · exact ⟨rfl, h⟩
  · exact ⟨rfl, h.db, hr, h.metrics⟩

theorem alike_cacheCount (h : Alike w w') {r r' : Except GoError (Int × Redis)} (hr : r = r') :
    (w.cacheCount ch r).1 = (w'.cacheCount ch r').1 ∧
      Alike (w.cacheCount ch r).2 (w'.cacheCount ch r').2 := by
  subst hr
  unfold World.cacheCount
  split
  · exact ⟨rfl, h⟩
  · cases r with
    | error e => exact ⟨rfl, h⟩
    | ok p => exact ⟨rfl, h.db, rfl, h.metrics⟩

/-- **A public call is answered the same by both servers**, and leaves them alike. -/
theorem alike_perform {o : Op} (ho : o.isPublic = true) (ch : Choice) (h : Alike w w') :
    (World.perform ch o w).1 = (World.perform ch o w').1 ∧
      Alike (World.perform ch o w).2 (World.perform ch o w').2 := by
  have hw := h.expire ch.expired
  have hredis : (w.expire ch.expired).redis = (w'.expire ch.expired).redis := hw.redis
  cases o with
  | updateStreamStatus id status extra => exact alike_write hw (alike_updateStreamStatus h.db id status extra)
  | getPendingTasks agentID =>
    apply alike_read hw
    show Except.ok (w.db.getPendingTasks agentID) = .ok (w'.db.getPendingTasks agentID)
    unfold DB.getPendingTasks
    rw [h.db.tasks]
  | updateTaskStatus id status errMsg => exact alike_write hw (alike_updateTaskStatus h.db _ _ _ _)
  | assignTask id agentID => exact alike_write hw (alike_assignTask h.db _ _ _)
  | getTaskByID id =>
    apply alike_read hw
    show w.db.getTaskByID id = w'.db.getTaskByID id
    unfold DB.getTaskByID DB.taskAt
    rw [h.db.tasks]
  | setStreamStatus id data => exact alike_cacheWrite hw (congrArg (Redis.setStreamStatus · id data) hredis)
  | incrViewers id => exact alike_cacheCount hw (congrArg (Redis.incrViewers · id) hredis)
  | decrViewers id => exact alike_cacheCount hw (congrArg (Redis.decrViewers · id) hredis)
  | resetViewers id => exact alike_cacheWrite hw (congrArg (Redis.resetViewers · id) hredis)
  | getViewers id => exact alike_read hw (congrArg (Redis.getViewers · id) hredis)
  | set g label v => exact ⟨rfl, hw.db, hw.redis, congrArg (Metrics.set · g label v) h.metrics⟩
  | deleteLabelValues g label =>
    exact ⟨rfl, hw.db, hw.redis, congrArg (Metrics.deleteLabelValues · g label) h.metrics⟩
  | inc c label => exact ⟨rfl, hw.db, hw.redis, congrArg (Metrics.inc · c label) h.metrics⟩
  | _ => cases ho

/-- A lookup finds nothing in both, or rows that differ in their push credentials. -/
inductive AlikeRows (w w' : World) (key : Str) : Except GoError Stream → Except GoError Stream → Prop
  | error {e : GoError} : AlikeRows w w' key (.error e) (.error e)
  | ok {row row' : Stream} : w.db.streamOf key = some row → w'.db.streamOf key = some row' →
      row.blank = row'.blank → AlikeRows w w' key (.ok row) (.ok row')

theorem alike_lookup (key : Str) (ch : Choice) (h : Alike w w') :
    AlikeRows w w' key (World.perform ch (.getStreamByKey key) w).1
      (World.perform ch (.getStreamByKey key) w').1 := by
  have hrow := h.db.streamOf key
  simp only [World.perform, World.answer, World.read, World.expire_db]
  split
  · exact .error
  · unfold DB.getStreamByKey
    cases hof : w.db.streamOf key with
    | none =>
      cases hof' : w'.db.streamOf key with
      | none => exact .error
      | some row' => simp [hof, hof'] at hrow
    | some row =>
      cases hof' : w'.db.streamOf key with
      | none => simp [hof, hof'] at hrow
      | some row' =>
        rw [hof, hof'] at hrow
        exact .ok hof hof' (Option.some.inj hrow)

end

/-! ### The handlers -/

section
variable {w w' : World}

/-- Both servers answer the same and stay alike. -/
def SameAnswer (a b : α) (w w' : World) : Prop := a = b ∧ Alike w w'

/-- A program that cannot tell the two servers apart. -/
def Indistinct (p : Server α) (w w' : World) : Prop := Prog.Lockstep World.perform SameAnswer p p w w'

/-- A program that only makes public calls. -/
theorem indistinct_public {p : Server α} (hp : p.Every (·.isPublic = true)) (h : Alike w w') :
    Indistinct p w w' :=
  Prog.lockstep_every (fun _ ch _ _ ho hw => alike_perform ho ch hw) hp h

theorem lockstep_lookup {key : Str} {f g : Except GoError Stream → Server α}
    {Q : α → α → World → World → Prop} (h : Alike w w')
    (hnext : ∀ r r' w₁ w₁', AlikeRows w w' key r r' → Alike w₁ w₁' →
      Prog.Lockstep World.perform Q (f r) (g r') w₁ w₁') :
    Prog.Lockstep World.perform Q (db.getStreamByKey key >>= f) (db.getStreamByKey key >>= g) w w' :=
  Prog.lockstep_op_bind fun ch => hnext _ _ _ _ (alike_lookup key ch h) (h.expire ch.expired)

/-- A handler that looks a stream up and does not read its push credentials. -/
theorem indistinct_blind {key : Str} {f : Except GoError Stream → Server α} (h : Alike w w')
    (hblind : ∀ row : Stream, f (.ok row) = f (.ok row.blank))
    (hpublic : ∀ r, (f r).Every (·.isPublic = true)) :
    Indistinct (db.getStreamByKey key >>= f) w w' := by
  refine lockstep_lookup h fun r r' w₁ w₁' hrows h₁ => ?_
  cases hrows with
  | error => exact indistinct_public (hpublic _) h₁
  | @ok row row' _ _ hblank =>
    rw [hblind row, hblind row', hblank]
    exact indistinct_public (hpublic _) h₁

theorem indistinct_onUnpublish (s : StreamService) (now : Time) (key : Str) (h : Alike w w') :
    Indistinct (s.onUnpublish now key) w w' := by
  refine indistinct_blind h (fun _ => rfl) fun r => ?_
  cases r with
  | error e => trivial
  | ok row =>
    refine Prog.every_op_bind.mpr ⟨rfl, fun r => ?_⟩
    cases r with
    | some e => trivial
    | none =>
      dsimp only
      split <;> cases row.startedAt <;> simp [Op.isPublic]

theorem indistinct_countViewer (s : StreamService) {count : Str → Server (Except GoError Int)} (key : Str)
    (hcount : ∀ u, (count u).Every (·.isPublic = true)) (h : Alike w w') :
    Indistinct (s.countViewer count key) w w' := by
  unfold StreamService.countViewer
  split
  · refine indistinct_blind h (fun _ => rfl) fun r => ?_
    cases r with
    | error e => trivial
    | ok row =>
      refine Prog.every_bind (hcount row.id) fun r => ?_
      cases r <;> simp [Op.isPublic]
  · exact .done ⟨rfl, h⟩

theorem indistinct_getPlaybackInfo (s : StreamService) (hlsNow flvNow : Time) (key : Str) (h : Alike w w') :
    Indistinct (AuthHandler.getPlaybackInfo s hlsNow flvNow key) w w' := by
  refine Prog.Lockstep.bind (indistinct_blind h (fun _ => rfl) fun r => ?_) ?_
  · cases r <;> trivial
  · rintro a _ w₁ w₁' ⟨rfl, h₁⟩
    cases a <;> exact .done ⟨rfl, h₁⟩

/-- Whoever does not know the token is refused by both servers. -/
theorem lockstep_onPublish (s : StreamService) (now : Time) (key token : Str) (h : Alike w w')
    (hno : ∀ row, w.db.streamOf key = some row → row.pushToken ≠ token)
    (hno' : ∀ row, w'.db.streamOf key = some row → row.pushToken ≠ token) :
    Prog.Lockstep World.perform (fun a b w w' => (∃ e, a = some e) ∧ (∃ e, b = some e) ∧ Alike w w')
      (s.onPublish now key token) (s.onPublish now key token) w w' := by
  have hinvalid {row : Stream} (hne : row.pushToken ≠ token) :
      ∃ e, StreamService.validatePushToken row token = (do
        metrics.inc .authFailuresTotal (lit "publish")
        return some e) := by
    unfold StreamService.validatePushToken
    cases hval : validatePublishToken row.pushToken token with
    | none => exact absurd (validatePublishToken_none.mp hval).1 hne
    | some e => exact ⟨e, rfl⟩
  refine lockstep_lookup h fun r r' w₁ w₁' hrows h₁ => ?_
  cases hrows with
  | error =>
    refine Prog.lockstep_op_bind fun ch => .done ⟨⟨_, rfl⟩, ⟨_, rfl⟩, ?_⟩
    exact (alike_perform rfl ch h₁).2
  | ok hof hof' _ =>
    obtain ⟨e, he⟩ := hinvalid (hno _ hof)
    obtain ⟨e', he'⟩ := hinvalid (hno' _ hof')
    dsimp only
    rw [he, he']
    refine Prog.Lockstep.call fun ch => .done ⟨⟨e, rfl⟩, ⟨e', rfl⟩, ?_⟩
    exact (alike_perform rfl ch h₁).2

theorem indistinct_publish (h : Handlers) (now : Time) (body : Str) (hw : Alike w w')
    (hno : h.guesses w (.publish now body) = false) (hno' : h.guesses w' (.publish now body) = false) :
    Indistinct (CallbackHandler.publish h.bindCallback h.svc now body) w w' := by
  unfold CallbackHandler.publish
  cases hcb : h.bindCallback body with
  | none => exact .done ⟨rfl, hw⟩
  | some cb =>
    simp only [Handlers.guesses, hcb, Option.any_some] at hno hno'
    refine Prog.Lockstep.bind (lockstep_onPublish h.svc now _ _ hw ?_ ?_) ?_
    · intro row hrow
      simpa [hrow] using hno
    · intro row hrow
      simpa [hrow] using hno'
    · rintro _ _ w₁ w₁' ⟨⟨e, rfl⟩, ⟨e', rfl⟩, h₁⟩
      exact indistinct_public (by simp [Op.isPublic]) h₁

/-- A callback handler that drops the result of the service. -/
theorem indistinct_callback {decoded : Option SrsCallback} {serve : SrsCallback → Server β} (hw : Alike w w')
    (hserve : ∀ cb, Indistinct (serve cb) w w') :
    Indistinct (match decoded with
      | none => return Response.allow
      | some cb => do
        let _ ← serve cb
        return .allow) w w' := by
  cases decoded with
  | none => exact .done ⟨rfl, hw⟩
  | some cb => exact (hserve cb).bind fun _ _ _ _ hend => .done ⟨rfl, hend.2⟩

theorem every_login (h : Handlers) (now : Time) (body : Str) :
    (AuthHandler.login h.authCfg h.bindLogin h.signedString now body).Every (·.isPublic = true) := by
  unfold AuthHandler.login
  split
  · trivial
  · split
    · simp [Op.isPublic]
    · split <;> trivial

theorem every_playAuth (s : StreamService) (now : Time) (key sign expire : Str) :
    (AuthHandler.playAuth s now key sign expire).Every (·.isPublic = true) := by
  have hreject (msg : String) : (AuthHandler.rejectPlay msg).Every (·.isPublic = true) := by
    simp [AuthHandler.rejectPlay, Op.isPublic]
  unfold AuthHandler.playAuth
  split
  · exact hreject _
  · split
    · exact hreject _
    · split
      · exact hreject _
      · split
        · exact hreject _
        · trivial

theorem every_serveTasks (agentID : Str) : (AgentHandler.serveTasks agentID).Every (·.isPublic = true) := by
  refine Prog.every_bind (StreamService.every_getTasks rfl (fun _ => rfl) fun _ _ => rfl) fun tasks => ?_
  cases tasks <;> trivial

theorem every_serveUpdateTask (bindJSON : Str → Except String TaskUpdateReq) (taskID body : Str) :
    (AgentHandler.serveUpdateTask bindJSON taskID body).Every (·.isPublic = true) := by
  unfold AgentHandler.serveUpdateTask
  cases bindJSON body with
  | error e => trivial
  | ok req =>
    refine Prog.every_bind (StreamService.every_updateTask rfl rfl fun _ => rfl) fun updated => ?_
    cases updated <;> trivial

/-- One request. -/
theorem indistinct_serve (h : Handlers) (req : Request) (hw : Alike w w') (hno : h.guesses w req = false)
    (hno' : h.guesses w' req = false) :
    Indistinct (h.serve req) w w' := by
  have hanswer {p : Server Response} (hp : Indistinct p w w') : Indistinct (Response.answer <$> p) w w' :=
    Prog.Lockstep.map _ hp fun _ _ _ _ hend => ⟨congrArg _ hend.1, hend.2⟩
  cases req with
  | health => exact .done ⟨rfl, hw⟩
  | playback hlsNow flvNow key => exact indistinct_getPlaybackInfo h.svc hlsNow flvNow key hw
  | login now body => exact indistinct_public (every_login h now body) hw
  | playAuth now key sign expire =>
    exact hanswer (indistinct_public (every_playAuth h.svc now key sign expire) hw)
  | publish now body => exact hanswer (indistinct_publish h now body hw hno hno')
  | unpublish now body =>
    exact hanswer (indistinct_callback hw fun cb => indistinct_onUnpublish h.svc now _ hw)
  | play body =>
    refine hanswer (indistinct_callback hw fun cb => indistinct_countViewer h.svc _ (fun u => ?_) hw)
    exact ⟨rfl, fun _ => trivial⟩
  | stop body =>
    refine hanswer (indistinct_callback hw fun cb => indistinct_countViewer h.svc _ (fun u => ?_) hw)
    exact ⟨rfl, fun _ => trivial⟩
  | tasks agentID => exact indistinct_public (every_serveTasks agentID) hw
  | updateTask id body => exact indistinct_public (every_serveUpdateTask h.bindTaskUpdate id body) hw
  | heartbeat body =>
    refine indistinct_public ?_ hw
    show (AgentHandler.heartbeat h.bindHeartbeat body).Every _
    unfold AgentHandler.heartbeat
    cases h.bindHeartbeat body <;> trivial

end

/-! ### Runs -/

/-- **Push credentials do not leak.** Two servers that differ in them only, asked the
same requests by someone who never presents a right token, give the same answers and
end up differing in them only. -/
theorem push_credentials_hidden (h : Handlers) (reqs : List (Request × (Nat → Choice))) (w w' : World)
    (hw : Alike w w') (hno : h.neverGuesses reqs w = true) (hno' : h.neverGuesses reqs w' = true) :
    (h.serveAll reqs w).1 = (h.serveAll reqs w').1 ∧
      Alike (h.serveAll reqs w).2 (h.serveAll reqs w').2 := by
  induction reqs generalizing w w' with
  | nil => exact ⟨rfl, hw⟩
  | cons head rest ih =>
    obtain ⟨req, ch⟩ := head
    simp only [Handlers.neverGuesses, Bool.and_eq_true, Bool.not_eq_true'] at hno hno'
    obtain ⟨hans, hafter⟩ := (indistinct_serve h req hw hno.1 hno'.1).exec ch
    obtain ⟨hrest, hend⟩ := ih _ _ hafter hno.2 hno'.2
    constructor
    · show _ :: _ = _ :: _
      rw [hans, hrest]
    · exact hend

/-- Handlers to run: a callback's body is its stream field. -/
def Handlers.sample : Handlers where
  svc := .sample
  authCfg := { jwtSecret := [], adminUsername := lit "admin", adminPassword := lit "admin", adminExpiry := 0 }
  bindCallback := fun body => some { stream := body }
  bindLogin := fun _ => none
  bindTaskUpdate := fun _ => .error "EOF"
  bindHeartbeat := fun _ => .error "EOF"
  signedString := fun _ _ => .ok []

/-- The sample stream, created with another token. -/
def sampleTwin : World := sampleServe (.createStream (.sample 2) {}) .empty

/-- A viewer comes, someone tries to publish with a token of their own, and with none. -/
def sampleRequests : List (Request × (Nat → Choice)) :=
  [(.playback 0 0 sampleKey.val, fun _ => {}), (.play sampleKey.val, fun _ => {}),
    (.publish 0 (sampleKey.val ++ lit "?token=guess"), fun _ => {}), (.publish 0 sampleKey.val, fun _ => {}),
    (.unpublish 0 sampleKey.val, fun _ => {})]

theorem push_credentials_hidden_twins :
    sampleStream.db.streams.rows ≠ sampleTwin.db.streams.rows ∧
      (Handlers.sample.serveAll sampleRequests sampleStream).1 =
        (Handlers.sample.serveAll sampleRequests sampleTwin).1 ∧
      Alike (Handlers.sample.serveAll sampleRequests sampleStream).2
        (Handlers.sample.serveAll sampleRequests sampleTwin).2 :=
  ⟨by decide, push_credentials_hidden .sample sampleRequests sampleStream sampleTwin
    ⟨⟨by decide, rfl, rfl⟩, rfl, rfl⟩ (by decide) (by decide)⟩

end LiveServer
