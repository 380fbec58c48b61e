import LiveServer.Api.Answers

/-! All or nothing.

What a request does to the database it does in statements of its own, with other requests
in between. Still a client can rely on the answer: a request that is answered with anything
but 200 has changed nothing, and one of the four that change a single row has changed it in
exactly one statement if and only if it is answered with 200. -/
namespace LiveServer.Api
open Concurrent Text

/-- A statement that changed the database, or could have. -/
def wrote : Prog.Event LiveServer.Op LiveServer.Op.Res → Bool
  | ⟨.createStream _, .ok _⟩ => true
  | ⟨.updateStreamStatus .., none⟩ => true
  | ⟨.updateStreamPushAuth .., none⟩ => true
  | ⟨.deleteStream _, none⟩ => true
  | ⟨.updateTaskStatus .., none⟩ => true
  | ⟨.assignTask .., none⟩ => true
  | _ => false

/-- The same among all calls of the server. -/
def wroteApi : Prog.Event Op Op.Res → Bool
  | ⟨.base o, r⟩ => wrote ⟨o, r⟩
  | _ => false

/-- Calls that are no statements which change the database. -/
def isRead : LiveServer.Op → Bool
  | .createStream _ | .updateStreamStatus .. | .updateStreamPushAuth .. | .deleteStream _
  | .updateTaskStatus .. | .assignTask .. => false
  | _ => true

theorem wrote_of_isRead {o : LiveServer.Op} (h : isRead o = true) (r : o.Res) : wrote ⟨o, r⟩ = false := by
  cases o <;> first | rfl | cases h

/-- The database is as before unless a call says that it wrote. -/
theorem perform_db_of_wrote {ch : Choice} {o : LiveServer.Op} {w : LiveServer.World}
    (h : wrote ⟨o, (LiveServer.World.perform ch o w).1⟩ = false) :
    (LiveServer.World.perform ch o w).2.db = w.db := by
  have hwrite {r : Except GoError DB}
      (h : ((w.expire ch.expired).write ch r).1 ≠ none) : ((w.expire ch.expired).write ch r).2.db = w.db := by
    rcases LiveServer.World.write_db (w.expire ch.expired) ch r with ⟨_, hdb⟩ | ⟨hnone, _⟩
    · exact hdb
    · exact absurd hnone h
  cases o with
  | createStream s =>
    rcases LiveServer.World.insert_db (w.expire ch.expired) ch (w.db.createStream s ch.id ch.now) with
      ⟨_, hdb⟩ | ⟨s', hok, _⟩
    · exact hdb
    · rw [show (LiveServer.World.perform ch (.createStream s) w).1 = .ok s' from hok] at h
      cases h
  | updateStreamStatus id status extra =>
    refine hwrite fun hnone => ?_
    rw [show (LiveServer.World.perform ch (.updateStreamStatus id status extra) w).1 = none from hnone] at h
    cases h
  | updateStreamPushAuth id token pushURL =>
    refine hwrite fun hnone => ?_
    rw [show (LiveServer.World.perform ch (.updateStreamPushAuth id token pushURL) w).1 = none from hnone] at h
    cases h
  | deleteStream id =>
    refine hwrite fun hnone => ?_
    rw [show (LiveServer.World.perform ch (.deleteStream id) w).1 = none from hnone] at h
    cases h
  | updateTaskStatus id status errMsg =>
    refine hwrite fun hnone => ?_
    rw [show (LiveServer.World.perform ch (.updateTaskStatus id status errMsg) w).1 = none from hnone] at h
    cases h
  | assignTask id agentID =>
    refine hwrite fun hnone => ?_
    rw [show (LiveServer.World.perform ch (.assignTask id agentID) w).1 = none from hnone] at h
    cases h
  | _ => simp [LiveServer.World.perform, LiveServer.World.answer]

/-! ### The functions that write -/

/-- How many statements an event is. -/
def writes (e : Prog.Event LiveServer.Op LiveServer.Op.Res) : Nat := (wrote e).toNat

section
variable {α : Type} {total : α → Nat} {p : Server α}

/-- A program of reads whose results all tell `n`. -/
theorem tallies_reads {n : Nat} (h : p.Every fun o => isRead o = true) (hret : p.Returns fun a => total a = n) :
    p.Tallies writes total n := by
  refine h.tallies (fun o r ho => ?_) hret
  show (wrote _).toNat = 0
  rw [wrote_of_isRead ho]
  rfl

theorem tallies_reads_bind {β : Type} {f : α → Server β} {total : β → Nat} {n : Nat}
    (h : p.Every fun o => isRead o = true) (hf : ∀ a, (f a).Tallies writes total n) :
    (p >>= f).Tallies writes total n := by
  refine h.tallies_bind (fun o r ho => ?_) hf
  show (wrote _).toNat = 0
  rw [wrote_of_isRead ho]
  rfl

end

namespace Gateway
variable (s : StreamService)

theorem tallies_createStream (inp : Inputs) (req : CreateStreamRequest) :
    (s.createStream inp req).Tallies writes (fun r => r.isOk.toNat) 0 := by
  unfold StreamService.createStream
  split
  · exact rfl
  · refine Prog.tallies_op_bind.mpr ?_
    rintro (e | stream)
    · exact rfl
    · refine tallies_reads ?_ ?_
      · simp only [StreamService.cacheStatus, StreamService.cachePlayURLs]
        split <;> simp [isRead]
      · apply Prog.returns_of_rest
        intro _
        apply Prog.returns_of_rest
        intro _
        rfl

theorem tallies_deleteStream (id : Str) :
    (s.deleteStream id).Tallies writes (fun r => r.isNone.toNat) 0 := by
  have hrest : (do
      if s.cache then
        let _ ← cache.deleteStreamCache id
      db.deleteStream id : Server (Option GoError)).Tallies writes (fun r => r.isNone.toNat) 0 := by
    have hdelete : (db.deleteStream id).Tallies writes (fun r => r.isNone.toNat) 0 := by
      rintro (_ | e) <;> exact rfl
    split
    · exact fun _ => hdelete
    · exact hdelete
  refine Prog.tallies_op_bind.mpr ?_
  rintro (e | stream)
  · exact rfl
  · dsimp only
    split
    · refine tallies_reads_bind ?_ fun _ => hrest
      exact StreamService.every_stopPublishing stream (fun _ => rfl) fun _ => rfl
    · exact hrest

theorem tallies_refreshPushToken (inp : Inputs) (id : Str) :
    (s.refreshPushToken inp id).Tallies writes (fun r => r.isOk.toNat) 0 := by
  refine Prog.tallies_op_bind.mpr ?_
  rintro (e | stream)
  · exact rfl
  · dsimp only
    split
    · exact rfl
    · refine Prog.tallies_op_bind.mpr ?_
      rintro (_ | e) <;> exact rfl

theorem returns_announce (now : Time) (stream : Stream) : (s.announce now stream).Returns fun r => r = none := by
  unfold StreamService.announce
  split
  · exact fun _ _ _ _ => rfl
  · exact fun _ _ => rfl

theorem tallies_onPublish (now : Time) (key token : Str) :
    (s.onPublish now key token).Tallies writes (fun r => r.isNone.toNat) 0 := by
  refine Prog.tallies_op_bind.mpr ?_
  rintro (e | stream)
  · exact fun _ => rfl
  · simp only [StreamService.validatePushToken]
    cases validatePublishToken stream.pushToken token with
    | some e => exact fun _ => rfl
    | none =>
      simp only [Prog.pure_eq, Prog.done_bind]
      split
      · exact fun _ => rfl
      · refine Prog.tallies_op_bind.mpr ?_
        rintro (_ | e)
        · refine tallies_reads (s.every_announce (fun _ => rfl) (fun _ _ => rfl) (fun _ _ _ => rfl) stream) ?_
          exact (returns_announce s now stream).mono fun r hr => by rw [hr]; rfl
        · exact rfl

theorem tallies_updateTask (id status errorMsg : Str) :
    (AgentHandler.updateTask id status errorMsg).Tallies writes Bool.toNat 0 := by
  refine Prog.tallies_op_bind.mpr ?_
  rintro (_ | e)
  · dsimp only
    split
    · refine Prog.tallies_op_bind.mpr ?_
      rintro (e | task)
      · exact rfl
      · exact fun _ => rfl
    · exact rfl
  · exact rfl

/-! ### The endpoints -/

/-- The endpoints that change a single row. -/
def changing : List Endpoint := [.createStream, .deleteStream, .refreshToken, .updateTask]

variable {g : Gateway} (req : Request) (param : Str)

theorem tallies_stream {p : Server StreamAnswer} (h : p.Tallies writes (fun a => (decide (a.status = 200)).toNat) 0) :
    (Answer.stream <$> p).Tallies writes (fun a => (decide (a.status = 200)).toNat) 0 :=
  Prog.tallies_map _ h fun _ => rfl

/-- An answer 200 is one statement, any other none. -/
theorem handle_writes {e : Endpoint} (he : e ∈ changing) :
    (g.handle req param e).Tallies writes (fun a => (decide (a.status = 200)).toNat) 0 := by
  simp only [changing, List.mem_cons, List.not_mem_nil, or_false] at he
  rcases he with rfl | rfl | rfl | rfl
  · apply tallies_stream
    unfold StreamHandler.create
    split
    · exact rfl
    · refine Prog.tallies_bind (tallies_createStream _ _ _) ?_
      rintro (e | stream) <;> exact rfl
  · apply tallies_stream
    refine tallies_reads_bind (g.svc.every_getStream rfl rfl) ?_
    rintro (e | stream)
    · show 0 = (decide ((StreamAnswer.failure e _).status = 200)).toNat
      unfold StreamAnswer.failure
      split <;> rfl
    · refine Prog.tallies_bind (tallies_deleteStream _ _) ?_
      rintro (_ | e) <;> exact rfl
  · apply tallies_stream
    refine Prog.tallies_bind (tallies_refreshPushToken _ _ _) ?_
    rintro (e | stream) <;> exact rfl
  · have hanswer : (AgentHandler.serveUpdateTask g.bindTaskUpdate param req.body).Tallies writes
        (fun a => (decide (a.status = 200)).toNat) 0 := by
      unfold AgentHandler.serveUpdateTask
      split
      · exact rfl
      · refine Prog.tallies_bind (tallies_updateTask _ _ _) ?_
        rintro (_ | _) <;> exact rfl
    exact Prog.tallies_map _ hanswer fun _ => rfl

/-- The endpoints that write nothing. -/
theorem isRead_of_permitted {e : Endpoint} {o : LiveServer.Op} (h : Permitted e param o) :
    isRead o = true ∨ e ∈ changing ∨ e = .publish ∨ e = .unpublish ∨ e = .tasks := by
  cases o with
  | createStream s =>
    have he : e = .createStream := h
    simp [changing, he]
  | updateStreamStatus id status extra =>
    rcases h with ⟨rfl, _⟩ | ⟨rfl, _⟩ <;> simp
  | updateStreamPushAuth id token pushURL => simp [changing, h.1]
  | deleteStream id => simp [changing, h.1]
  | updateTaskStatus id status errMsg =>
    rcases h with ⟨rfl, _⟩ | ⟨rfl, _⟩ <;> simp [changing]
  | assignTask id agentID =>
    have he : e = .tasks := h
    simp [he]
  | _ => exact .inl rfl

/-- Whoever has written answers 200. -/
theorem handle_commits (e : Endpoint) :
    (g.handle req param e).Commits (fun e => wrote e = true) fun a => a.status = 200 := by
  have hpos (e : Prog.Event LiveServer.Op LiveServer.Op.Res) (he : wrote e = true) : 0 < writes e := by
    simp [writes, he]
  by_cases he : e ∈ changing
  · have h := (handle_writes (g := g) req param he).commits hpos
    simpa using h
  · by_cases hother : e = .publish ∨ e = .unpublish ∨ e = .tasks
    · rcases hother with rfl | rfl | rfl
      · refine Prog.commits_map _ (Prog.commits_map _ (A := fun r => r.status = 200) ?_ (B := fun a => a.status = 200)
          fun _ h => h) fun _ h => h
        unfold CallbackHandler.publish
        split
        · trivial
        · refine Prog.commits_bind ((tallies_onPublish _ _ _ _).commits hpos) ?_ ?_
          · rintro (_ | e) h
            · exact rfl
            · cases h
          · rintro (_ | e)
            · trivial
            · exact fun _ => ⟨(fun h => absurd h Bool.false_ne_true), trivial⟩
      · apply Prog.Returns.commits
        refine (handle_answers req param .unpublish).mono fun a ha => ?_
        cases ha
        rfl
      · refine Prog.commits_map _ (A := fun a => a.status = 200) ?_ fun _ h => h
        refine Prog.commits_bind (A := fun r => r.isSome = true) ?_ ?_ ?_
        · refine Prog.commits_op_bind.mpr fun r => ⟨(fun h => absurd h Bool.false_ne_true), ?_⟩
          cases r with
          | error e => trivial
          | ok tasks =>
            apply Prog.Returns.commits
            apply Prog.returns_of_rest
            intro _
            exact rfl
        · rintro (_ | tasks) h
          · cases h
          · exact rfl
        · rintro (_ | tasks) <;> trivial
    · refine (g.handle_permitted req param e).commits fun o r h hw => ?_
      rcases isRead_of_permitted param h with hread | hchange | hrest
      · rw [wrote_of_isRead hread] at hw
        cases hw
      · exact he hchange
      · exact hother hrest

/-! ### With routing and middleware -/

theorem serveRoute_writes {r : Route} (hr : r.endpoint ∈ changing) (params : List Str) :
    (g.serveRoute req r params).Tallies writes (fun a => (decide (a.status = 200)).toNat) 0 := by
  unfold serveRoute
  split
  · split
    · rename_i refusal hauth
      obtain ⟨msg, rfl⟩ := jwtAuth_error hauth
      exact rfl
    · exact handle_writes req _ hr
  · exact handle_writes req _ hr

theorem serveRoute_commits (r : Route) (params : List Str) :
    (g.serveRoute req r params).Commits (fun e => wrote e = true) fun a => a.status = 200 := by
  unfold serveRoute
  split
  · split
    · trivial
    · exact handle_commits req _ _
  · exact handle_commits req _ _

theorem body_commits : (g.body (.request req)).Commits (fun e => wroteApi e = true)
    fun reply => ∀ a, reply = some a → a.status = 200 := by
  refine Prog.commits_map _ (A := fun a => a.status = 200) ?_ fun a ha b hb => Option.some.inj hb ▸ ha
  rcases g.serve_cases req with ⟨_, _, h⟩ | ⟨_, _, h⟩ | ⟨_, _, h⟩ | ⟨r, params, _, h⟩
  · rw [h]
    trivial
  · rw [h]
    exact fun _ => ⟨(fun h => absurd h Bool.false_ne_true), trivial⟩
  · rw [h]
    trivial
  · rw [h]
    refine Prog.commits_bind (Prog.commits_lift (fun o r h => h) (serveRoute_commits req r params)) ?_ ?_
    · exact fun a ha _ => ha
    · exact fun a _ => ⟨(fun h => absurd h Bool.false_ne_true), trivial⟩

theorem body_writes {r : Route} {params : List Str} (hroute : g.router.find req.method req.path = .route r params)
    (hr : r.endpoint ∈ changing) : (g.body (.request req)).Tallies (fun e => (wroteApi e).toNat)
      (fun reply => (reply.any fun a => a.status = 200).toNat) 0 := by
  have hserve : (g.serve req).Tallies (fun e => (wroteApi e).toNat)
      (fun a => (decide (a.status = 200)).toNat) 0 := by
    rw [g.serve_route hroute]
    have hbase : (base (g.serveRoute req r params)).Tallies (fun e => (wroteApi e).toNat)
        (fun a => (decide (a.status = 200)).toNat) 0 := by
      refine Prog.tallies_lift ?_ (serveRoute_writes req hr params)
      intro o res
      rfl
    exact Prog.tallies_bind hbase fun a _ => rfl
  exact Prog.tallies_map _ hserve fun _ => rfl

end Gateway

section
variable {g : Gateway} {w : World} {ts : List ApiTransition} {i : Nat} {req : Request} {a : Answer}

/-- **A failed request has changed nothing**: whatever else was going on, no step of a
request that is answered with anything but 200 has changed the database. -/
theorem failed_changes_nothing (h : g.machine.Trace (.start w) ts)
    (hth : (Machine.final (.start w) ts).threads[i]? = some ⟨.request req, .done (some a)⟩)
    (hfail : a.status ≠ 200) {t : ApiTransition} (ht : t ∈ ts) {call : Call} {o : Op} {ch : Choice}
    (hp : t.performed = some ⟨i, call, o, ch⟩) :
    t.after.world.base.db = t.before.world.base.db := by
  have hwrote := h.commits rfl hth (g.body_commits req) (fun hall => hfail (hall a rfl)) ht hp
  obtain ⟨k, r, w', hs⟩ := (h.valid ht).steps hp
  have hworld : t.after.world = (World.perform ch o t.before.world).2 := hs.world_after
  rw [hworld]
  cases o with
  | base o => exact perform_db_of_wrote (Bool.eq_false_iff.mpr hwrote)
  | _ => rfl

/-- **A request that changes a row changes it once**: creating and deleting a stream,
replacing its push credentials and reporting on a task take exactly one statement if the
answer is 200, and none otherwise. -/
theorem changing_writes_once (h : g.machine.Trace (.start w) ts)
    (hth : (Machine.final (.start w) ts).threads[i]? = some ⟨.request req, .done (some a)⟩)
    {r : Route} {params : List Str} (hroute : g.router.find req.method req.path = .route r params)
    (hr : r.endpoint ∈ Gateway.changing) :
    (g.machine.events i ts).countP wroteApi = if a.status = 200 then 1 else 0 := by
  have hsum := h.tallied rfl hth (Gateway.body_writes req hroute hr)
  rw [sum_toNat] at hsum
  rw [hsum]
  by_cases hok : a.status = 200
  · simp [hok]
  · simp [hok]

end

/-- A stream is to be created, and the database is down. -/
theorem failed_changes_nothing_create : ∃ ts t a, Gateway.sample.machine.Trace (.start .empty) ts ∧ t ∈ ts ∧
    finished 0 (fun _ b => b = a) (Machine.final (.start .empty) ts) = true ∧ a.status = 500 ∧
    t.performed.any (·.index = 0) = true ∧ t.after.world.base.db = t.before.world.base.db := by
  obtain ⟨ts, htr, hP⟩ := Machine.exists_trace Gateway.sample.machine (.start .empty)
    [.spawn (.request { sampleRequest .post "/api/streams" with authorization := sampleBearer }),
      .step 0 { fault := true }, .step 0 {}]
    (fun ts => finished 0 (fun _ a => a.status = 500) (Machine.final (.start .empty) ts) &&
      ts.any fun t => t.performed.any (·.index = 0))
    (by decide +kernel)
  rw [Bool.and_eq_true] at hP
  obtain ⟨hfin, hany⟩ := hP
  obtain ⟨req, a, hth, hstatus⟩ := finished_spec hfin
  obtain ⟨t, ht, hperf⟩ := List.any_eq_true.mp hany
  obtain ⟨⟨j, call, o, ch⟩, hp, hj⟩ := (Option.any_eq_true _ _).mp hperf
  have hstatus : a.status = 500 := of_decide_eq_true hstatus
  have hj : j = 0 := of_decide_eq_true hj
  subst hj
  refine ⟨ts, t, a, htr, ht, ?_, hstatus, hperf, failed_changes_nothing htr hth (by rw [hstatus]; decide) ht hp⟩
  simp [finished, hth]

/-- The same with a database that works. -/
theorem changing_writes_once_create : ∃ ts, Gateway.sample.machine.Trace (.start .empty) ts ∧
    (Gateway.sample.machine.events 0 ts).countP wroteApi = 1 := by
  let req := { sampleRequest .post "/api/streams" with authorization := sampleBearer }
  obtain ⟨ts, htr, hP⟩ := Machine.exists_trace Gateway.sample.machine (.start .empty)
    [.spawn (.request req), .step 0 { id := sampleID }, .step 0 {}, .step 0 {}, .step 0 {}]
    (fun ts => finished 0 (fun r a => r.method = .post ∧ r.path = lit "/api/streams" ∧ a.status = 200)
      (Machine.final (.start .empty) ts))
    (by decide +kernel)
  obtain ⟨req', a, hth, hP⟩ := finished_spec hP
  obtain ⟨hmethod, hpath, hstatus⟩ := of_decide_eq_true hP
  have hroute : Gateway.sample.router.find req'.method req'.path =
      .route ⟨.post, lit "/api/streams", .createStream⟩ [] := by
    rw [hmethod, hpath]
    decide
  refine ⟨ts, htr, ?_⟩
  rw [changing_writes_once htr hth hroute (by decide), if_pos hstatus]

end LiveServer.Api
