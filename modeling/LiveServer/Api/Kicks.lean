import LiveServer.Api.Footprint
import LiveServer.Concurrent.Serial

/-! Whom the server disconnects.

Deleting and stopping a stream disconnects its publisher through the API of SRS. Between the
statement that reads the row and the two requests to SRS anything can happen, and yet nobody
is disconnected but a client that SRS has named as the publisher of the key in the row, for
a row that was read as publishing. -/
namespace LiveServer.Api
open Concurrent Text Relational

/-- SRS names the client with this id as a publisher. -/
def Named (clientID : Str) (e : Prog.Event LiveServer.Op LiveServer.Op.Res) : Prop :=
  ∃ key client, e = ⟨.findPublishingClient key, .ok (some client)⟩ ∧ client.id = clientID

/-- The row behind a path parameter is read as publishing, with this key. -/
def ReadLive (param key : Str) (e : Prog.Event LiveServer.Op LiveServer.Op.Res) : Prop :=
  ∃ row, e = ⟨.getStreamByID param, .ok row⟩ ∧ row.status = .publishing ∧ row.streamKey = key

section
variable {clientID key id : Str}

theorem guards_kick_stopPublishing (stream : Stream) :
    (StreamService.stopPublishing stream).Guards (fun o => o = .kickClient clientID) (Named clientID) := by
  refine Prog.guards_op_bind.mpr ⟨LiveServer.Op.noConfusion, ?_⟩
  rintro (e | _ | client)
  · exact .inr trivial
  · exact .inr trivial
  · by_cases hid : client.id = clientID
    · exact .inl ⟨_, client, rfl, hid⟩
    · refine .inr ⟨?_, fun _ => .inr trivial⟩
      intro heq
      exact hid (LiveServer.Op.kickClient.inj heq)

/-- A stream is asked for by its own key only. -/
theorem every_stopPublishing_key {stream : Stream} (hkey : stream.streamKey ≠ key) :
    (StreamService.stopPublishing stream).Every fun o => o ≠ .findPublishingClient key := by
  refine Prog.every_op_bind.mpr ⟨fun heq => hkey (LiveServer.Op.findPublishingClient.inj heq), ?_⟩
  rintro (e | _ | client)
  · trivial
  · trivial
  · exact ⟨LiveServer.Op.noConfusion, fun _ => trivial⟩

section
variable {A : LiveServer.Op → Prop} {G : Prog.Event LiveServer.Op LiveServer.Op.Res → Prop}
  (hread : ¬ A (.getStreamByID id))
  (hstop : ∀ stream : Stream, stream.status = .publishing →
    G ⟨.getStreamByID id, .ok stream⟩ ∨ (StreamService.stopPublishing stream).Guards A G)
include hread hstop

theorem guards_deleteStream (s : StreamService) (hcleanup : ¬ A (.deleteStreamCache id))
    (hdelete : ¬ A (.deleteStream id)) : (s.deleteStream id).Guards A G := by
  have hrest : (do
      if s.cache then
        let _ ← cache.deleteStreamCache id
      db.deleteStream id : Server (Option GoError)).Guards A G := by
    apply Prog.Every.guards
    split <;> simp [hcleanup, hdelete]
  refine Prog.guards_op_bind.mpr ⟨hread, ?_⟩
  rintro (e | stream)
  · exact .inr trivial
  · dsimp only
    split
    · rename_i hlive
      exact (hstop stream hlive).imp_right fun h => Prog.guards_bind h fun _ => hrest
    · exact .inr hrest

theorem guards_stopStream : (StreamService.stopStream id).Guards A G := by
  refine Prog.guards_op_bind.mpr ⟨hread, ?_⟩
  rintro (e | stream)
  · exact .inr trivial
  · dsimp only
    split
    · rename_i hlive
      exact (hstop stream hlive).imp_right fun h => Prog.guards_bind h fun _ => trivial
    · exact .inr trivial

end

/-- The row that is read either is live under the key, or nobody is looked for under it. -/
theorem readLive_or_guards (stream : Stream) (hlive : stream.status = .publishing) :
    ReadLive id key ⟨.getStreamByID id, .ok stream⟩ ∨
      (StreamService.stopPublishing stream).Guards (fun o => o = .findPublishingClient key) (ReadLive id key) := by
  by_cases hkey : stream.streamKey = key
  · exact .inl ⟨stream, rfl, hlive, hkey⟩
  · exact .inr (every_stopPublishing_key hkey).guards

end

/-- Whom SRS names is one of its clients. -/
theorem perform_findPublishingClient_ok {ch : Choice} {key : Str} {client : SRSClient} {w : LiveServer.World}
    (h : (LiveServer.World.perform ch (.findPublishingClient key) w).1 = .ok (some client)) :
    client ∈ ch.clients ∧ client.stream = key ∧ client.type = lit "RTMP publisher" := by
  have hfind : ch.clients.find? (fun c => c.stream = key && c.type = lit "RTMP publisher") = some client :=
    Except.ok.inj (LiveServer.World.read_ok h)
  have hpred := List.find?_some hfind
  rw [Bool.and_eq_true, decide_eq_true_eq, decide_eq_true_eq] at hpred
  exact ⟨List.mem_of_find?_eq_some hfind, hpred⟩

/-! ### The endpoints -/

/-- The endpoints that disconnect a publisher. -/
def Endpoint.disconnects (e : Endpoint) : Prop := e = .deleteStream ∨ e = .stopStream

/-- The same of an event of the server. -/
def OfBase (G : Prog.Event LiveServer.Op LiveServer.Op.Res → Prop) : Prog.Event Op Op.Res → Prop
  | ⟨.base o, r⟩ => G ⟨o, r⟩
  | _ => False

theorem OfBase.cases {G : Prog.Event LiveServer.Op LiveServer.Op.Res → Prop} {o : Op} {w : World} {ch : Choice}
    (h : OfBase G ⟨o, (World.perform ch o w).1⟩) :
    ∃ o', o = .base o' ∧ G ⟨o', (LiveServer.World.perform ch o' w.base).1⟩ := by
  cases o with
  | base o' => exact ⟨o', rfl, h⟩
  | _ => exact h.elim

/-- What guards a call in a program of the service guards it in the server. -/
theorem guards_base {A : LiveServer.Op → Prop} {G : Prog.Event LiveServer.Op LiveServer.Op.Res → Prop} {p : Server α}
    (h : p.Guards A G) : (base p).Guards (fun o => ∃ o', o = .base o' ∧ A o') (OfBase G) := by
  refine Prog.guards_lift ?_ (fun _ _ h => h) h
  rintro o ⟨o', heq, ho'⟩
  cases heq
  exact ho'

namespace Gateway
variable {g : Gateway} {req : Request} {e : Endpoint}

theorem handle_guards {A : LiveServer.Op → Prop} {G : Prog.Event LiveServer.Op LiveServer.Op.Res → Prop} {param : Str}
    (he : e.disconnects) (hcached : ¬ A (.getStreamStatus param)) (hread : ¬ A (.getStreamByID param))
    (hstop : ∀ stream : Stream, stream.status = .publishing →
      G ⟨.getStreamByID param, .ok stream⟩ ∨ (StreamService.stopPublishing stream).Guards A G)
    (hcleanup : ¬ A (.deleteStreamCache param)) (hdelete : ¬ A (.deleteStream param)) :
    (g.handle req param e).Guards A G := by
  rcases he with rfl | rfl
  · refine Prog.guards_map _ (Prog.guards_bind (g.svc.every_getStream hcached hread).guards ?_)
    rintro (err | stream)
    · trivial
    · refine Prog.guards_bind (guards_deleteStream hread hstop g.svc hcleanup hdelete) ?_
      rintro (_ | err) <;> trivial
  · refine Prog.guards_map _ (Prog.guards_bind (guards_stopStream hread hstop) ?_)
    rintro (_ | err) <;> trivial

/-- What guards a call in the handler guards it in the request. -/
theorem body_guards {A : LiveServer.Op → Prop} {G : Prog.Event LiveServer.Op LiveServer.Op.Res → Prop}
    {r : Route} {params : List Str} (hroute : g.router.find req.method req.path = .route r params)
    (h : (g.handle req (params.headD []) r.endpoint).Guards A G) :
    (g.body (.request req)).Guards (fun o => ∃ o', o = .base o' ∧ A o') (OfBase G) := by
  apply Prog.guards_map
  rw [g.serve_route hroute]
  refine Prog.guards_bind (guards_base (?_ : (g.serveRoute req r params).Guards A G)) ?_
  · unfold serveRoute
    split
    · split
      · trivial
      · exact h
    · exact h
  · intro a
    refine ⟨?_, fun _ => .inr trivial⟩
    rintro ⟨o', heq, _⟩
    cases heq

end Gateway

/-- **Only publishers are disconnected**, in every interleaving: a request that disconnects a
client is an authenticated one to delete or to stop a stream. It has asked SRS before for the
publisher of a key and the client was listed as that; and before that it has itself read the
row of its stream, with that key, as publishing. -/
theorem kicks_publishers_only {g : Gateway} {w : World} {a b : List ApiTransition} {t : ApiTransition}
    (h : g.machine.Trace (.start w) (a ++ t :: b)) {i : Nat} {call : Call} {clientID : Str} {ch : Choice}
    (hp : t.performed = some ⟨i, call, .base (.kickClient clientID), ch⟩) :
    ∃ req r params, call = .request req ∧ g.router.find req.method req.path = .route r params ∧
      r.endpoint.disconnects ∧ g.Authenticated req ∧
      ∃ a₁ found a₂, a = a₁ ++ found :: a₂ ∧
        ∃ key ch' client, found.performed = some ⟨i, call, .base (.findPublishingClient key), ch'⟩ ∧
          client ∈ ch'.clients ∧ client.stream = key ∧ client.type = lit "RTMP publisher" ∧ client.id = clientID ∧
        ∃ read ∈ a₁, ∃ ch'' row,
          read.performed = some ⟨i, call, .base (.getStreamByID (params.headD [])), ch''⟩ ∧
          (LiveServer.World.perform ch'' (.getStreamByID (params.headD [])) read.before.world.base).1 = .ok row ∧
          uuidIn (params.headD []) = some row.id ∧ read.before.world.base.db.streamAt row.id = some row ∧
          row.status = .publishing ∧ row.streamKey = key := by
  have ht : t ∈ a ++ t :: b := List.mem_append_right a List.mem_cons_self
  obtain ⟨k, res, w', hs⟩ := (h.valid ht).steps hp
  have hallowed := Gateway.allowed_of_steps h ht hs
  cases call with
  | request req =>
    obtain ⟨r, params, hroute, hend, hauth⟩ := hallowed
    have hguarded : r.endpoint.guarded = true := by
      rcases hend with he | he <;> rw [he] <;> rfl
    refine ⟨req, r, params, rfl, hroute, hend, hauth hguarded, ?_⟩
    -- SRS has named the client
    obtain ⟨found, hfound, o₁, ch₁, hp₁, hnamed⟩ := h.guarded rfl hp (Gateway.body_guards hroute
      (Gateway.handle_guards (A := fun o => o = .kickClient clientID) hend LiveServer.Op.noConfusion
        LiveServer.Op.noConfusion (fun stream _ => .inr (guards_kick_stopPublishing stream))
        LiveServer.Op.noConfusion LiveServer.Op.noConfusion)) ⟨_, rfl, rfl⟩
    obtain ⟨a₁, a₂, rfl⟩ := List.append_of_mem hfound
    refine ⟨a₁, found, a₂, rfl, ?_⟩
    obtain ⟨o₁, rfl, key, client, heq, hid⟩ := hnamed.cases
    obtain ⟨rfl, hres⟩ := Prog.Event.mk.inj heq
    obtain ⟨hmem, hstream, htype⟩ := perform_findPublishingClient_ok (eq_of_heq hres)
    refine ⟨key, ch₁, client, hp₁, hmem, hstream, htype, hid, ?_⟩
    -- and before that the row was read
    rw [List.append_assoc, List.cons_append] at h
    obtain ⟨read, hread, o₂, ch₂, hp₂, hlive⟩ := h.guarded rfl hp₁ (Gateway.body_guards hroute
      (Gateway.handle_guards (A := fun o => o = .findPublishingClient key) hend LiveServer.Op.noConfusion
        LiveServer.Op.noConfusion readLive_or_guards LiveServer.Op.noConfusion LiveServer.Op.noConfusion))
      ⟨_, rfl, rfl⟩
    obtain ⟨o₂, rfl, row, heq, hstatus, hkey⟩ := hlive.cases
    obtain ⟨rfl, hres⟩ := Prog.Event.mk.inj heq
    obtain ⟨hu, hat⟩ := LiveServer.World.perform_getStreamByID_ok (eq_of_heq hres)
    exact ⟨read, hread, ch₂, row, hp₂, eq_of_heq hres, hu, hat, hstatus, hkey⟩
  | _ => exact hallowed.elim

/-- The sample stream is created, published and stopped, and SRS lists a viewer and the
publisher. -/
theorem kicks_publishers_only_stop : ∃ a t, Gateway.sample.machine.Trace (.start .empty) (a ++ [t]) ∧
    t.performed.any (·.op = .base (.kickClient (lit "7"))) = true ∧
    ∃ found ∈ a, ∃ i call key ch client, found.performed = some ⟨i, call, .base (.findPublishingClient key), ch⟩ ∧
      client ∈ ch.clients ∧ client.stream = key ∧ client.id = lit "7" ∧
      ∃ read ∈ a, ∃ id ch row, read.performed = some ⟨i, call, .base (.getStreamByID id), ch⟩ ∧
        read.before.world.base.db.streamAt row.id = some row ∧ row.status = .publishing := by
  obtain ⟨ts, htr, hP⟩ := Machine.exists_trace Gateway.sample.machine (.start .empty)
    ([.spawn (.request { sampleRequest .post "/api/streams" with authorization := sampleBearer }),
      .step 0 { id := sampleID }, .step 0 {}, .step 0 {}, .step 0 {},
      .spawn (.request { sampleRequest .post "/api/callback/publish" with
        body := sampleKey.val ++ lit "?token=" ++ sampleToken 1 }),
      .step 1 {}, .step 1 {}, .step 1 {}, .step 1 {}, .step 1 {}, .step 1 {}, .step 1 {},
      .spawn (.request { sampleRequest .post "" with
        path := lit "/api/streams/" ++ sampleID ++ lit "/stop", authorization := sampleBearer }),
      .step 2 {},
      .step 2 { clients := [⟨lit "6", sampleKey.val, lit "Play"⟩, ⟨lit "7", sampleKey.val, lit "RTMP publisher"⟩] },
      .step 2 {}])
    (fun ts => ts.getLast?.any fun t => t.performed.any (·.op = .base (.kickClient (lit "7"))))
    (by decide +kernel)
  obtain ⟨t, hlast, hkick⟩ := (Option.any_eq_true _ _).mp hP
  obtain ⟨a, rfl⟩ := List.getLast?_eq_some_iff.mp hlast
  obtain ⟨⟨i, call, o, ch⟩, hp, ho⟩ := (Option.any_eq_true _ _).mp hkick
  have ho : o = .base (.kickClient (lit "7")) := of_decide_eq_true ho
  subst ho
  obtain ⟨req, r, params, _, _, _, _, a₁, found, a₂, rfl, key, ch', client, hfound, hmem, hstream, _, hid,
    read, hread, ch'', row, hp', _, _, hat, hlive, _⟩ := kicks_publishers_only htr hp
  exact ⟨_, t, htr, hkick, found, List.mem_append_right a₁ List.mem_cons_self, i, call, key, ch', client, hfound,
    hmem, hstream, hid, read, List.mem_append_left _ hread, _, ch'', row, hp', hat, hlive⟩

end LiveServer.Api
