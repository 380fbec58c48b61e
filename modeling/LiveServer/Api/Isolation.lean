import LiveServer.Api.Kicks
import LiveServer.Api.Records

/-! Streams do not get in each other's way.

Entries in Redis and gauges are kept by stream id. Whatever runs beside each other, those of
one stream are changed only by whoever was concerned with that stream: the request that
created it, one that deletes it by that name, a callback for its key, or a job that found it.
So no request puts a key of its own choice into Redis: there are keys for streams that the
database gave ids to, and for names that SRS listed to the polling. -/
namespace LiveServer
open Concurrent

/-- The stream for which a call writes entries or gauges. -/
def Op.stream : Op → Option Str
  | .setStreamStatus id _ => some id
  | .setPlayURLs id _ => some id
  | .incrViewers id => some id
  | .decrViewers id => some id
  | .resetViewers id => some id
  | .setViewers id _ => some id
  | .deleteStreamCache id => some id
  | .set _ id _ => some id
  | .deleteLabelValues _ id => some id
  | _ => none

/-- A call for another stream leaves the entries as they are by then, and the gauges. -/
theorem perform_elsewhere {o : Op} {id : Str} (ho : o.stream ≠ some id) (ch : Choice) (w : World) :
    (World.perform ch o w).2.redis.entries id = (w.redis.expire ch.expired).entries id ∧
      ∀ g, (World.perform ch o w).2.metrics.gauge g id = w.metrics.gauge g id := by
  constructor
  · cases (World.perform_redis ch o w).entries id with
    | kept h => exact h
    | _ => exact absurd rfl ho
  · intro g
    rw [World.perform_metrics]
    cases o with
    | set g' id' v => exact if_neg fun h => ho (congrArg some h.2.symm)
    | deleteLabelValues g' id' => exact if_neg fun h => ho (congrArg some h.2.symm)
    | _ => rfl

/-- The keys of a stream. -/
def keysOf (id : Str) : List Str := [statusKey id, playURLsKey id, viewersKey id]

theorem CacheChange.mem_keys_of_new {r r' : Redis} {o : Op} (h : CacheChange r r' o) {k : Str} (hold : r k = none)
    (hnew : r' k ≠ none) : k ∈ o.keys := by
  by_contra hk
  rw [h.other hk] at hnew
  exact hnew hold

/-- A key that was not there is put there for a stream. -/
theorem CacheChange.caches_of_new {r r' : Redis} {o : Op} (h : CacheChange r r' o) {k : Str} (hold : r k = none)
    (hnew : r' k ≠ none) : ∃ id, o.caches = some id ∧ k ∈ keysOf id := by
  have hk := h.mem_keys_of_new hold hnew
  have hdel {keys : List Str} (hr : r' = r.del keys) : False := by
    rcases r.del_le keys k with hn | heq
    · exact hnew (hr ▸ hn)
    · exact hnew (hr ▸ heq.trans hold)
  cases h with
  | same hr => exact absurd (hr ▸ hold) hnew
  | @status id d _ => exact ⟨id, rfl, List.mem_singleton.mp hk ▸ by simp [keysOf]⟩
  | @playURLs id d _ => exact ⟨id, rfl, List.mem_singleton.mp hk ▸ by simp [keysOf]⟩
  | @incr id n _ => exact ⟨id, rfl, List.mem_singleton.mp hk ▸ by simp [keysOf]⟩
  | @decr id n hr =>
    rcases Redis.decrViewers_ok hr with rfl | ⟨e, m, v, hentry, _⟩
    · exact absurd hold hnew
    · rw [List.mem_singleton.mp hk] at hold
      cases hold.symm.trans hentry
  | reset hr => exact (hdel hr).elim
  | @viewers id n _ => exact ⟨id, rfl, List.mem_singleton.mp hk ▸ by simp [keysOf]⟩
  | delete hr => exact (hdel hr).elim

/-- Whoever puts a key there writes for the stream, and not to clean up. -/
theorem Op.stream_of_caches {o : Op} {id : Str} (h : o.caches = some id) :
    o.stream = some id ∧ ∀ name, o ≠ .deleteStreamCache name := by
  cases o <;> simp_all [Op.caches, Op.stream]

/-! ### The service -/

/-- A call for no other stream. -/
def Op.OnlyFor (id : Str) (o : Op) : Prop := ∀ id', o.stream = some id' → id' = id

/-- A call for this stream, but the cleanup that a delete makes under the name it was given. -/
def Op.WritesFor (id : Str) (o : Op) : Prop := o.stream = some id ∧ ∀ name, o ≠ .deleteStreamCache name

namespace StreamService
variable (s : StreamService)

theorem onlyFor_cache (stream : Stream) :
    (do s.cacheStatus stream; s.cachePlayURLs stream; return .ok stream : Server (Except GoError Stream)).Every
      (Op.OnlyFor stream.id) := by
  unfold cacheStatus cachePlayURLs
  split <;> simp [Op.OnlyFor, Op.stream]

theorem onlyFor_announce (now : Time) (stream : Stream) :
    (s.announce now stream).Every (Op.OnlyFor stream.id) := by
  unfold announce
  split <;> simp [Op.OnlyFor, Op.stream]

theorem onlyFor_retire (now : Time) (stream : Stream) :
    (s.retire now stream).Every (Op.OnlyFor stream.id) := by
  unfold retire
  split <;> split <;> simp [Op.OnlyFor, Op.stream]

end StreamService

section
variable {s : StreamService} {id : Str} {G : Prog.Event Op Op.Res → Prop}

/-- What works for one stream only is guarded by what named it. -/
theorem guards_onlyFor {p : Server α} {stream : Str} {e : Prog.Event Op Op.Res}
    (hp : p.Every (Op.OnlyFor stream)) (he : stream = id → G e) : G e ∨ p.Guards (Op.WritesFor id) G := by
  apply Prog.Every.guards_or
  refine Prog.Every.mono ?_ hp
  intro o ho hw
  exact he (ho id hw.1).symm

/-- Calls for no stream. -/
theorem not_writesFor {o : Op} (h : o.stream = none) : ¬ o.WritesFor id := by
  rintro ⟨hid, _⟩
  rw [h] at hid
  cases hid

theorem writesFor_createStream {inp : Inputs} {req : CreateStreamRequest}
    (hG : ∀ x stream, stream.id = id → G ⟨.createStream x, .ok stream⟩) :
    (s.createStream inp req).Guards (Op.WritesFor id) G := by
  unfold StreamService.createStream
  split
  · trivial
  · refine Prog.guards_op_bind.mpr ⟨not_writesFor rfl, ?_⟩
    rintro (e | stream)
    · exact .inr trivial
    · exact guards_onlyFor (s.onlyFor_cache stream) (hG _ stream)

section
variable {key : Str} (hG : ∀ row : Stream, row.id = id → G ⟨.getStreamByKey key, .ok row⟩)
include hG

theorem writesFor_onPublish {now : Time} {token : Str} : (s.onPublish now key token).Guards (Op.WritesFor id) G := by
  have hrefuse : ¬ (Op.inc .authFailuresTotal (lit "publish")).WritesFor id := not_writesFor rfl
  refine Prog.guards_op_bind.mpr ⟨not_writesFor rfl, ?_⟩
  rintro (e | stream)
  · exact .inr ⟨hrefuse, fun _ => .inr trivial⟩
  · -- everything after the update is for the row that was read
    apply (guards_onlyFor (s.onlyFor_announce now stream) (hG stream)).imp_right
    intro hannounce
    simp only [StreamService.validatePushToken]
    cases validatePublishToken stream.pushToken token with
    | some e => exact ⟨hrefuse, fun _ => .inr trivial⟩
    | none =>
      simp only [Prog.pure_eq, Prog.done_bind]
      split
      · exact ⟨hrefuse, fun _ => .inr trivial⟩
      · refine Prog.guards_op_bind.mpr ⟨not_writesFor rfl, ?_⟩
        rintro (_ | e)
        · exact .inr hannounce
        · exact .inr trivial

theorem writesFor_onUnpublish {now : Time} : (s.onUnpublish now key).Guards (Op.WritesFor id) G := by
  refine Prog.guards_op_bind.mpr ⟨not_writesFor rfl, ?_⟩
  rintro (e | stream)
  · exact .inr trivial
  · apply (guards_onlyFor (s.onlyFor_retire now stream) (hG stream)).imp_right
    intro hretire
    refine Prog.guards_op_bind.mpr ⟨not_writesFor rfl, ?_⟩
    rintro (_ | e)
    · exact .inr hretire
    · exact .inr trivial

theorem writesFor_countViewer {count : Str → Server (Except GoError Int)}
    (hcount : ∀ x, (count x).Every (Op.OnlyFor x)) : (s.countViewer count key).Guards (Op.WritesFor id) G := by
  unfold StreamService.countViewer
  split
  · refine Prog.guards_op_bind.mpr ⟨not_writesFor rfl, ?_⟩
    rintro (e | stream)
    · exact .inr trivial
    · refine guards_onlyFor (Prog.every_bind (hcount stream.id) ?_) (hG stream)
      rintro (e | n)
      · trivial
      · exact ⟨by simp [Op.OnlyFor, Op.stream], fun _ => trivial⟩
  · trivial

end

/-- The gauges are restored for streams that were listed. -/
theorem writesFor_reconcile {cacheClient : Bool} {clock : Str → Time}
    (hG : ∀ rows row, row ∈ rows → row.id = id → G ⟨.listStreams (some .publishing), .ok rows⟩) :
    (reconcileStreamMetrics cacheClient clock).Guards (Op.WritesFor id) G := by
  refine Prog.guards_op_bind.mpr ⟨not_writesFor rfl, ?_⟩
  rintro (e | rows)
  · exact .inr trivial
  · have hone {p : Server Unit} {row : Stream} (hrow : row ∈ rows) (hp : p.Every (Op.OnlyFor row.id)) :
        p.Every fun o => o.WritesFor id → G ⟨.listStreams (some .publishing), .ok rows⟩ := by
      refine Prog.Every.mono ?_ hp
      intro o ho hw
      exact hG rows row hrow (ho id hw.1).symm
    apply Prog.Every.guards_or
    refine Prog.every_bind (Prog.every_forEach_mem ?_) ?_
    · intro row hrow
      apply hone hrow
      unfold restoreStream
      split <;> simp [Op.OnlyFor, Op.stream]
    · intro _
      split
      · refine Prog.every_forEach_mem ?_
        intro row hrow
        apply hone hrow
        refine Prog.every_op_bind.mpr ⟨by simp [Op.OnlyFor, Op.stream], ?_⟩
        rintro (e | n)
        · trivial
        · dsimp only
          split <;> simp [Op.OnlyFor, Op.stream]
      · trivial

/-- A name with a count is that of a client. -/
theorem counted_of_mem {clients : List SRSClient} {name : Str} (h : name ∈ (countViewers clients).keys) :
    ∃ c ∈ clients, c.stream = name ∧ c.type ≠ lit "RTMP publisher" := by
  have hpos := ((countViewers clients).mem name).mp h
  unfold countViewers at hpos
  rw [Loops.Counter.value_foldl_inc (fun c : SRSClient => c.stream ≠ [] && c.type ≠ lit "RTMP publisher")
    (·.stream)] at hpos
  have hpos : 0 < clients.countP fun c =>
      (c.stream ≠ [] && c.type ≠ lit "RTMP publisher") && c.stream = name := by
    simpa [Loops.Counter.empty] using hpos
  obtain ⟨c, hc, hcount⟩ := List.countP_pos_iff.mp hpos
  simp only [Bool.and_eq_true, decide_eq_true_eq] at hcount
  exact ⟨c, hc, hcount.2, hcount.1.2⟩

/-- Viewers are polled for streams that were listed. -/
theorem writesFor_pollViewers {order : Loops.MapOrder Str}
    (hG : ∀ clients c, c ∈ clients → c.stream = id → c.type ≠ lit "RTMP publisher" →
      G ⟨.listAllClients, .ok clients⟩) :
    (pollViewers order).Guards (Op.WritesFor id) G := by
  refine Prog.guards_op_bind.mpr ⟨not_writesFor rfl, ?_⟩
  rintro (e | clients)
  · exact .inr trivial
  · apply Prog.Every.guards_or
    refine Prog.every_forEach_mem ?_
    intro name hname
    refine ⟨?_, fun _ => trivial⟩
    rintro ⟨hid, _⟩
    cases hid
    obtain ⟨c, hc, hstream, htype⟩ := counted_of_mem (order.mem_visit.mp hname)
    exact hG clients c hc hstream htype

end

namespace Api

/-- The key a callback is about. -/
def Gateway.callbackKey (g : Gateway) (req : Request) : Option Str :=
  (g.bindCallback req.body).map fun cb => (parsePushAuth cb.stream cb.param).1

/-- A request has come upon a stream: it has created it, or its callback names its key. -/
def Gateway.Found (g : Gateway) (req : Request) (id : Str) (e : Prog.Event LiveServer.Op LiveServer.Op.Res) : Prop :=
  (∃ x stream, e = ⟨.createStream x, .ok stream⟩ ∧ stream.id = id) ∨
  ∃ key row, g.callbackKey req = some key ∧ e = ⟨.getStreamByKey key, .ok row⟩ ∧ row.id = id

namespace Gateway
variable {g : Gateway} {req : Request} {id : Str}

theorem found_of_key {cb : SrsCallback} (hcb : g.bindCallback req.body = some cb) (row : Stream) (hid : row.id = id) :
    g.Found req id ⟨.getStreamByKey (parsePushAuth cb.stream cb.param).1, .ok row⟩ :=
  .inr ⟨_, row, by rw [callbackKey, hcb]; rfl, rfl, hid⟩

/-- Every handler has come upon a stream before it writes anything for it. -/
theorem handle_found (param : Str) (e : Endpoint) :
    (g.handle req param e).Guards (LiveServer.Op.WritesFor id) (g.Found req id) := by
  have hdone : ¬ (LiveServer.Op.inc .srsCallbackErrorsTotal (lit "on_publish")).WritesFor id := not_writesFor rfl
  cases e with
  | createStream =>
    apply Prog.guards_map
    unfold StreamHandler.create
    split
    · trivial
    · refine Prog.guards_bind (writesFor_createStream fun x stream hid => .inl ⟨x, stream, rfl, hid⟩) ?_
      rintro (e | stream) <;> trivial
  | publish =>
    refine Prog.guards_map _ (Prog.guards_map _ ?_)
    unfold CallbackHandler.publish
    split
    · trivial
    · rename_i cb hcb
      refine Prog.guards_bind (writesFor_onPublish (found_of_key hcb)) ?_
      rintro (_ | e)
      · trivial
      · exact ⟨hdone, fun _ => .inr trivial⟩
  | unpublish =>
    refine Prog.guards_map _ (Prog.guards_map _ ?_)
    unfold CallbackHandler.unpublish
    split
    · trivial
    · rename_i cb hcb
      exact Prog.guards_bind (writesFor_onUnpublish (found_of_key hcb)) fun _ => trivial
  | play =>
    refine Prog.guards_map _ (Prog.guards_map _ ?_)
    unfold CallbackHandler.play
    split
    · trivial
    · rename_i cb hcb
      refine Prog.guards_bind (writesFor_countViewer (found_of_key hcb) ?_) fun _ => trivial
      intro x
      exact ⟨by simp [LiveServer.Op.OnlyFor, LiveServer.Op.stream], fun _ => trivial⟩
  | stop =>
    refine Prog.guards_map _ (Prog.guards_map _ ?_)
    unfold CallbackHandler.stop
    split
    · trivial
    · rename_i cb hcb
      refine Prog.guards_bind (writesFor_countViewer (found_of_key hcb) ?_) fun _ => trivial
      intro x
      exact ⟨by simp [LiveServer.Op.OnlyFor, LiveServer.Op.stream], fun _ => trivial⟩
  | _ =>
    -- the other endpoints write for no stream, by the table of what they may do
    apply Prog.Every.guards
    refine Prog.Every.mono ?_ (g.handle_permitted req param _)
    rintro o ho ⟨hid, hname⟩
    cases o <;> simp [LiveServer.Op.stream, Permitted] at hid ho hname

end Gateway

/-- How the call at an index has come to write for a stream. -/
inductive Concerned (g : Gateway) (id : Str) (a : List ApiTransition) (i : Nat) : Call → Prop
  /-- It has created the stream. -/
  | created {req : Request} {u : ApiTransition} {x : Stream} {ch : Choice} : u ∈ a →
      u.performed = some ⟨i, .request req, .base (.createStream x), ch⟩ → g.Authenticated req →
      id ∉ u.before.world.base.db.issued → (u.after.world.base.db.streamAt id).isSome → Concerned g id a i (.request req)
  /-- It deletes the stream of this name. -/
  | deletes {req : Request} {r : Route} {params : List Str} : g.router.find req.method req.path = .route r params →
      r.endpoint = .deleteStream → params.headD [] = id → g.Authenticated req → Concerned g id a i (.request req)
  /-- It is a callback, and has found the stream by its key. -/
  | callback {req : Request} {u : ApiTransition} {key : Str} {ch : Choice} {row : Stream} : u ∈ a →
      u.performed = some ⟨i, .request req, .base (.getStreamByKey key), ch⟩ → g.callbackKey req = some key →
      u.before.world.base.db.streamOf key = some row → row.id = id → Concerned g id a i (.request req)
  /-- It has listed the published streams, and found the stream among them. -/
  | restores {clock : Str → Time} {u : ApiTransition} {ch : Choice} {row : Stream} : u ∈ a →
      u.performed = some ⟨i, .reconcile clock, .base (.listStreams (some .publishing)), ch⟩ →
      row ∈ u.before.world.base.db.streams.rows → row.status = .publishing → row.id = id →
      Concerned g id a i (.reconcile clock)
  /-- It has found a client of a stream of this name. -/
  | polls {order : Loops.MapOrder Str} {u : ApiTransition} {ch : Choice} {c : SRSClient} : u ∈ a →
      u.performed = some ⟨i, .pollViewers order, .base .listAllClients, ch⟩ → c ∈ ch.clients → c.stream = id →
      c.type ≠ lit "RTMP publisher" → Concerned g id a i (.pollViewers order)

section
variable {g : Gateway} {w : World} {a b : List ApiTransition} {t : ApiTransition} {i : Nat} {req : Request}
  {id : Str} {o : LiveServer.Op} {ch : Choice}

theorem concerned_of_found (h : g.machine.Trace (.start w) (a ++ t :: b))
    (hp : t.performed = some ⟨i, .request req, .base o, ch⟩) (ho : o.WritesFor id) :
    Concerned g id a i (.request req) := by
  have ht : t ∈ a ++ t :: b := List.mem_append_right a List.mem_cons_self
  obtain ⟨k, res, w', hs⟩ := (h.valid ht).steps hp
  obtain ⟨r, params, hroute, _, _⟩ := Gateway.allowed_of_steps h ht hs
  obtain ⟨u, hu, o₁, ch₁, hp₁, hfound⟩ := h.guarded rfl hp
    (Gateway.body_guards hroute (Gateway.handle_found _ r.endpoint)) ⟨o, rfl, ho⟩
  obtain ⟨o₁, rfl, hfound⟩ := hfound.cases
  have hut : u ∈ a ++ t :: b := List.mem_append_left _ hu
  obtain ⟨k₁, res₁, w₁, hs₁⟩ := (h.valid hut).steps hp₁
  rcases hfound with ⟨x, stream, heq, hid⟩ | ⟨key, row, hkey, heq, hid⟩
  · obtain ⟨rfl, hres⟩ := Prog.Event.mk.inj heq
    have hcreated := LiveServer.World.perform_createStream_ok (eq_of_heq hres)
    obtain ⟨rfl, row, _, hrow, hins⟩ := DB.createStream_ok hcreated
    have hid : row.id = id := hrow.trans hid
    obtain ⟨r₁, params₁, _, hperm, hauth⟩ := Gateway.allowed_of_steps h hut hs₁
    refine .created hu hp₁ (hauth (by rw [show r₁.endpoint = .createStream from hperm]; rfl)) (hid ▸ hins.fresh) ?_
    rw [Gateway.base_after hs₁, ← hid, hins.streamAt, if_pos rfl]
    rfl
  · obtain ⟨rfl, hres⟩ := Prog.Event.mk.inj heq
    exact .callback hu hp₁ hkey (LiveServer.World.perform_getStreamByKey_ok (eq_of_heq hres)) hid

theorem concerned_of_listed {clock : Str → Time} (h : g.machine.Trace (.start w) (a ++ t :: b))
    (hp : t.performed = some ⟨i, .reconcile clock, .base o, ch⟩) (ho : o.WritesFor id) :
    Concerned g id a i (.reconcile clock) := by
  have hbody : (g.body (.reconcile clock)).Guards (fun o => ∃ o', o = .base o' ∧ o'.WritesFor id)
      (OfBase fun e => ∃ rows row, e = ⟨.listStreams (some .publishing), .ok rows⟩ ∧ row ∈ rows ∧ row.id = id) := by
    refine Prog.guards_map _ (guards_base (writesFor_reconcile ?_))
    intro rows row hrow hid
    exact ⟨rows, row, rfl, hrow, hid⟩
  obtain ⟨u, hu, o₁, ch₁, hp₁, hlisted⟩ := h.guarded rfl hp hbody ⟨o, rfl, ho⟩
  obtain ⟨o₁, rfl, rows, row, heq, hrow, hid⟩ := hlisted.cases
  obtain ⟨rfl, hres⟩ := Prog.Event.mk.inj heq
  rw [LiveServer.World.perform_listStreams_ok (eq_of_heq hres)] at hrow
  obtain ⟨hmem, hstatus⟩ := DB.mem_listStreams.mp hrow
  exact .restores hu hp₁ hmem hstatus hid

theorem concerned_of_polled {order : Loops.MapOrder Str} (h : g.machine.Trace (.start w) (a ++ t :: b))
    (hp : t.performed = some ⟨i, .pollViewers order, .base o, ch⟩) (ho : o.WritesFor id) :
    Concerned g id a i (.pollViewers order) := by
  have hbody : (g.body (.pollViewers order)).Guards (fun o => ∃ o', o = .base o' ∧ o'.WritesFor id)
      (OfBase fun e => ∃ clients c, e = ⟨.listAllClients, .ok clients⟩ ∧ c ∈ clients ∧ c.stream = id ∧
        c.type ≠ lit "RTMP publisher") := by
    show (if g.svc.cache && g.polling then _ else _ : Program _).Guards _ _
    split
    · refine Prog.guards_map _ (guards_base (writesFor_pollViewers ?_))
      intro clients c hc hstream htype
      exact ⟨clients, c, rfl, hc, hstream, htype⟩
    · trivial
  obtain ⟨u, hu, o₁, ch₁, hp₁, hlisted⟩ := h.guarded rfl hp hbody ⟨o, rfl, ho⟩
  obtain ⟨o₁, rfl, clients, c, heq, hc, hstream, htype⟩ := hlisted.cases
  obtain ⟨rfl, hres⟩ := Prog.Event.mk.inj heq
  rw [LiveServer.World.perform_listAllClients_ok (eq_of_heq hres)] at hc
  exact .polls hu hp₁ hc hstream htype

/-- Whoever writes for a stream is concerned with it. -/
theorem concerned_of_stream {call : Call} (h : g.machine.Trace (.start w) (a ++ t :: b))
    (hp : t.performed = some ⟨i, call, .base o, ch⟩) (ho : o.stream = some id) : Concerned g id a i call := by
  have ht : t ∈ a ++ t :: b := List.mem_append_right a List.mem_cons_self
  obtain ⟨k, res, w', hs⟩ := (h.valid ht).steps hp
  have hallowed := Gateway.allowed_of_steps h ht hs
  by_cases hname : ∀ name, o ≠ .deleteStreamCache name
  · cases call with
    | request req => exact concerned_of_found h hp ⟨ho, hname⟩
    | reconcile clock => exact concerned_of_listed h hp ⟨ho, hname⟩
    | pollViewers order => exact concerned_of_polled h hp ⟨ho, hname⟩
    | updateFFmpegProcesses => exact hallowed.elim
  · obtain ⟨name, rfl⟩ : ∃ name, o = .deleteStreamCache name := by
      simpa using hname
    cases ho
    cases call with
    | request req =>
      obtain ⟨r, params, hroute, ⟨hend, hparam⟩, hauth⟩ := hallowed
      exact .deletes hroute hend hparam.symm (hauth (by rw [hend]; rfl))
    | _ => exact hallowed.elim

/-- **Streams are isolated**: in every interleaving of requests and jobs, a call that changes
an entry or a gauge of a stream, other than by coming after its expiry, is concerned with that
stream. -/
theorem streams_isolated {call : Call} (h : g.machine.Trace (.start w) (a ++ t :: b))
    (hp : t.performed = some ⟨i, call, .base o, ch⟩)
    (hchange : t.after.world.base.redis.entries id ≠ (t.before.world.base.redis.expire ch.expired).entries id ∨
      ∃ v, t.after.world.base.metrics.gauge v id ≠ t.before.world.base.metrics.gauge v id) :
    Concerned g id a i call := by
  obtain ⟨k, res, w', hs⟩ := (h.valid (List.mem_append_right a List.mem_cons_self)).steps hp
  apply concerned_of_stream h hp
  by_contra hother
  obtain ⟨hentries, hgauges⟩ := perform_elsewhere hother ch t.before.world.base
  rw [Gateway.base_after hs] at hchange
  rcases hchange with hne | ⟨v, hne⟩
  · exact hne hentries
  · exact hne (hgauges v)

/-! ### The keys of Redis -/

/-- SRS lists a viewer of a stream of this name to the polling. -/
def Polled (name : Str) (u : ApiTransition) : Prop :=
  ∃ i order ch c, u.performed = some ⟨i, .pollViewers order, .base .listAllClients, ch⟩ ∧ c ∈ ch.clients ∧
    c.stream = name ∧ c.type ≠ lit "RTMP publisher"

/-- A key of a stream that has its id from the database, or that counts the viewers of a name
that was listed. -/
def Owned (k : Str) (ts : List ApiTransition) (db : DB) : Prop :=
  (∃ id ∈ db.issued, k ∈ keysOf id) ∨ ∃ name, k = viewersKey name ∧ ∃ u ∈ ts, Polled name u

theorem Owned.mono {k : Str} {ts ts' : List ApiTransition} {db db' : DB} (h : Owned k ts db) (hts : ts ⊆ ts')
    (hdb : db.issued ⊆ db'.issued) : Owned k ts' db' := by
  rcases h with ⟨id, hid, hk⟩ | ⟨name, hk, u, hu, hpolled⟩
  · exact .inl ⟨id, hdb hid, hk⟩
  · exact .inr ⟨name, hk, u, hts hu, hpolled⟩

/-- A stream that somebody is concerned with was given its id by the database, unless it is
being deleted or SRS has named it. -/
theorem Concerned.issued {call : Call} (hc : Concerned g id a i call) (h : g.machine.Trace (.start w) a) :
    id ∈ (Machine.final (.start w) a).world.base.db.issued ∨
    (∃ req r params, call = .request req ∧ g.router.find req.method req.path = .route r params ∧
      r.endpoint = .deleteStream) ∨
    ∃ order, call = .pollViewers order ∧ ∃ u ∈ a, Polled id u := by
  have hbefore {u : ApiTransition} (hu : u ∈ a) (hid : id ∈ u.before.world.base.db.issued) :
      id ∈ (Machine.final (.start w) a).world.base.db.issued := by
    obtain ⟨a₁, a₂, rfl⟩ := List.append_of_mem hu
    obtain ⟨_, hrest⟩ := (Machine.trace_append a₁ (u :: a₂)).mp h
    rw [Machine.final_append]
    exact (Gateway.trace_preserved hrest).issued (hrest.1 ▸ hid)
  have hafter {u : ApiTransition} (hu : u ∈ a) (hid : id ∈ u.after.world.base.db.issued) :
      id ∈ (Machine.final (.start w) a).world.base.db.issued := by
    obtain ⟨a₁, a₂, rfl⟩ := List.append_of_mem hu
    obtain ⟨_, _, _, hrest⟩ := Machine.Trace.split h
    rw [Machine.final_append]
    exact (Gateway.trace_preserved hrest).issued hid
  cases hc with
  | created hu _ _ _ hrow =>
    obtain ⟨row, hrow⟩ := Option.isSome_iff_exists.mp hrow
    exact .inl (hafter hu (DB.issued_of_streamAt hrow))
  | deletes hroute hend _ _ => exact .inr (.inl ⟨_, _, _, rfl, hroute, hend⟩)
  | callback hu _ _ hrow hid =>
    exact .inl (hbefore hu (DB.issued_of_streamAt (hid ▸ DB.streamAt_of_streamOf hrow)))
  | restores hu _ hrow _ hid => exact .inl (hbefore hu (hid ▸ DB.stream_issued _ _ hrow))
  | polls hu hp hmem hstream htype => exact .inr (.inr ⟨_, rfl, _, hu, _, _, _, _, hp, hmem, hstream, htype⟩)

/-- A key that a step puts there. -/
theorem owned_of_new {call : Call} (h : g.machine.Trace (.start w) (a ++ [t]))
    (hp : t.performed = some ⟨i, call, .base o, ch⟩) {k : Str} (hold : t.before.world.base.redis k = none)
    (hnew : t.after.world.base.redis k ≠ none) : Owned k a t.before.world.base.db := by
  have ht : t ∈ a ++ [t] := List.mem_append_right a List.mem_cons_self
  obtain ⟨ha, hbefore, hv, _⟩ := Machine.Trace.split h
  obtain ⟨_, _, _, hs⟩ := hv.steps hp
  have hallowed := Gateway.allowed_of_steps h ht hs
  have hchange := LiveServer.World.perform_redis ch o t.before.world.base
  rw [Gateway.base_after hs] at hnew
  have hexp : t.before.world.base.redis.expire ch.expired k = none := by
    unfold Redis.expire
    rw [hold]
  obtain ⟨id, hcaches, hk⟩ := hchange.caches_of_new hexp hnew
  have hconcerned := concerned_of_stream h hp (LiveServer.Op.stream_of_caches hcaches).1
  rw [hbefore]
  rcases hconcerned.issued ha with hid | ⟨req, r, params, rfl, hroute, hend⟩ | ⟨order, rfl, u, hu, hpolled⟩
  · exact .inl ⟨id, hid, hk⟩
  · -- whoever deletes a stream puts nothing there
    obtain ⟨r', params', hroute', hperm, _⟩ := hallowed
    cases hroute.symm.trans hroute'
    rw [hend] at hperm
    cases o <;> simp [LiveServer.Op.caches, Permitted] at hcaches hperm
  · have hkeys := hchange.mem_keys_of_new hexp hnew
    cases o with
    | setViewers name n =>
      cases hcaches
      exact .inr ⟨id, List.mem_singleton.mp hkeys, u, hu, hpolled⟩
    | listAllClients => cases hkeys
    | _ => exact hallowed.elim

/-- **Nobody chooses the keys of Redis**: in every run a key that was not there at the start is
that of a stream that the database gave its id to, or counts the viewers of a name that SRS
has listed to the polling. -/
theorem redis_keys_owned {ts : List ApiTransition} (h : g.machine.Trace (.start w) ts) {k : Str}
    (hold : w.base.redis k = none) (hk : (Machine.final (.start w) ts).world.base.redis k ≠ none) :
    Owned k ts (Machine.final (.start w) ts).world.base.db := by
  induction ts using List.reverseRecOn with
  | nil => exact absurd hold hk
  | append_singleton a t ih =>
    obtain ⟨ha, hbefore, hv, hafter⟩ := Machine.Trace.split h
    have hfinal : Machine.final (.start w) (a ++ [t]) = t.after := by
      rw [Machine.final_append]
      rfl
    rw [hfinal] at hk ⊢
    have hissued : t.before.world.base.db.issued ⊆ t.after.world.base.db.issued :=
      (Gateway.trace_preserved (show g.machine.Trace t.before [t] from ⟨rfl, hv, trivial⟩)).issued
    suffices hown : Owned k a t.before.world.base.db from hown.mono (List.subset_append_left a [t]) hissued
    by_cases hthere : t.before.world.base.redis k = none
    · rcases hv.cases with ⟨call, hs⟩ | ⟨i, ch, call, o, k', r, w', hs⟩
      · rw [hs.after] at hk
        exact absurd hthere hk
      · cases o with
        | base o => exact owned_of_new h hs.performed hthere hk
        | _ =>
          rw [hs.world_after] at hk
          exact absurd hthere hk
    · rw [hbefore] at hthere ⊢
      exact ih ha hthere

end

/-- The status of the sample stream is put into Redis by the request that creates it. -/
theorem streams_isolated_created : ∃ a t i call, Gateway.sample.machine.Trace (.start .empty) (a ++ [t]) ∧
    t.after.world.base.redis (statusKey sampleID) ≠ none ∧ Concerned Gateway.sample sampleID a i call := by
  obtain ⟨ts, htr, hP⟩ := Machine.exists_trace Gateway.sample.machine (.start .empty)
    [.spawn (.request { sampleRequest .post "/api/streams" with authorization := sampleBearer }),
      .step 0 { id := sampleID }, .step 0 {}]
    (fun ts => ts.getLast?.any fun t => (t.after.world.base.redis (statusKey sampleID)).isSome &&
      (t.before.world.base.redis (statusKey sampleID)).isNone && t.performed.any fun p =>
        p.op = .base (.setStreamStatus sampleID { status := .created, bitrate := [], viewers := 0, startedAt := [] }))
    (by decide +kernel)
  obtain ⟨t, hlast, hsets⟩ := (Option.any_eq_true _ _).mp hP
  obtain ⟨a, rfl⟩ := List.getLast?_eq_some_iff.mp hlast
  rw [Bool.and_eq_true, Bool.and_eq_true] at hsets
  obtain ⟨⟨hafter, hbefore⟩, hset⟩ := hsets
  obtain ⟨⟨i, call, o, ch⟩, hp, ho⟩ := (Option.any_eq_true _ _).mp hset
  have ho : o = .base (.setStreamStatus sampleID { status := .created, bitrate := [], viewers := 0, startedAt := [] }) :=
    of_decide_eq_true ho
  subst ho
  have hne := Option.isSome_iff_ne_none.mp hafter
  refine ⟨a, t, i, call, htr, hne, streams_isolated htr hp (.inl ?_)⟩
  intro heq
  refine hne ((congrArg Redis.Entries.status heq).trans ?_)
  show Redis.expire _ _ _ = none
  unfold Redis.expire
  rw [Option.isNone_iff_eq_none.mp hbefore]

/-- The keys that are there once the sample stream is created. -/
theorem redis_keys_owned_created : ∃ ts, Gateway.sample.machine.Trace (.start .empty) ts ∧
    Owned (playURLsKey sampleID) ts (Machine.final (.start .empty) ts).world.base.db := by
  obtain ⟨ts, htr, hfin⟩ := Machine.exists_trace_serve Gateway.sample.machine (.start .empty)
    [(.request { sampleRequest .post "/api/streams" with authorization := sampleBearer },
      fun _ => { id := sampleID })]
  have hkey : (Machine.final (.start .empty) ts).world.base.redis (playURLsKey sampleID) ≠ none := by
    rw [hfin]
    decide +kernel
  exact ⟨ts, htr, redis_keys_owned htr rfl hkey⟩

end Api
end LiveServer
