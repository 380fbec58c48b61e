import LiveServer.Api.Authority
import LiveServer.Concurrent.Serial
import Mathlib.Data.List.Induction

/-! Who can publish.

The hook for publishers is open to everyone, and what it lets through hangs on a token in a
row. So the question is where that token comes from. Only two routes write one, both behind
the JWT middleware, and they write what the random source gave them; whatever else happens in
between, the token that lets a publisher in is the one that was given out last. -/
namespace LiveServer.Api
open Concurrent Text Relational

/-- The stream has this push token. -/
def HasToken (id token : Str) (db : DB) : Prop := ∃ row, db.streamAt id = some row ∧ row.pushToken = token

/-- An authenticated request gives a stream the token that it has generated: one that creates a
stream, or one that asks for new credentials of this one. -/
def Mints (g : Gateway) (id token : Str) (u : ApiTransition) : Prop :=
  ∃ i req o ch r params, u.performed = some ⟨i, .request req, .base o, ch⟩ ∧
    g.router.find req.method req.path = .route r params ∧ g.Authenticated req ∧
    (r.endpoint = .createStream ∨ r.endpoint = .refreshToken ∧ uuidIn (params.headD []) = some id) ∧
    generatePublishToken req.inputs.random = .ok token ∧ HasToken id token u.after.world.base.db

/-- The stream has had the token since it was given out in the run, or from the start. -/
def Current (g : Gateway) (id token : Str) (w : World) (ts : List ApiTransition) : Prop :=
  (HasToken id token w.base.db ∧ ∀ x ∈ ts, HasToken id token x.after.world.base.db) ∨
    ∃ a u b, ts = a ++ u :: b ∧ Mints g id token u ∧ ∀ x ∈ b, HasToken id token x.after.world.base.db

/-! ### Which tokens are written -/

/-- A token that is written was generated for the request. -/
def Generated (req : Request) : LiveServer.Op → Prop
  | .createStream s => generatePublishToken req.inputs.random = .ok s.pushToken
  | .updateStreamPushAuth _ token _ => generatePublishToken req.inputs.random = .ok token
  | _ => True

theorem generated_refreshPushToken (s : StreamService) (req : Request) (id : Str) :
    (s.refreshPushToken req.inputs id).Every (Generated req) := by
  refine Prog.every_op_bind.mpr ⟨trivial, ?_⟩
  intro r
  cases r with
  | error e => trivial
  | ok stream =>
    dsimp only
    cases ht : generatePublishToken req.inputs.random with
    | error e => trivial
    | ok token =>
      refine Prog.every_op_bind.mpr ⟨ht, ?_⟩
      intro r
      cases r <;> trivial

namespace Gateway
variable (g : Gateway)

theorem handle_generated (req : Request) (param : Str) (e : Endpoint) :
    (g.handle req param e).Every (Generated req) := by
  by_cases hcreate : e = .createStream
  · subst hcreate
    apply Prog.every_map
    unfold StreamHandler.create
    split
    · trivial
    · refine Prog.every_bind (g.svc.every_createStream (fun _ ht => ht) (fun _ _ => trivial) fun _ _ => trivial) ?_
      intro r
      cases r <;> trivial
  · by_cases hrefresh : e = .refreshToken
    · subst hrefresh
      refine Prog.every_map _ (Prog.every_bind (generated_refreshPushToken g.svc req param) ?_)
      intro r
      cases r <;> trivial
    · -- no other endpoint writes one
      refine Prog.Every.mono ?_ (g.handle_permitted req param e)
      intro o ho
      cases o with
      | createStream s => exact absurd ho hcreate
      | updateStreamPushAuth id token url => exact absurd ho.1 hrefresh
      | _ => trivial

/-- The same of a call. -/
def GeneratedBy : Call → Op → Prop
  | .request req, .base o => Generated req o
  | _, _ => True

theorem body_generated (call : Call) : (g.body call).Every (GeneratedBy call) := by
  cases call with
  | request req =>
    apply Prog.every_map
    rcases g.serve_cases req with ⟨_, _, h⟩ | ⟨_, _, h⟩ | ⟨_, _, h⟩ | ⟨r, params, _, h⟩
    · rw [h]
      trivial
    · rw [h]
      exact ⟨trivial, fun _ => trivial⟩
    · rw [h]
      trivial
    · rw [h]
      refine Prog.every_bind (Prog.every_lift ?_) fun _ => ⟨trivial, fun _ => trivial⟩
      unfold serveRoute
      split
      · split
        · trivial
        · exact g.handle_generated req _ _
      · exact g.handle_generated req _ _
  | _ => exact Prog.Every.mono (fun _ _ => trivial) (g.body_allowed _)

end Gateway

section
variable {g : Gateway} {w : World} {ts : List ApiTransition} {t : ApiTransition} {id token : Str}

/-- The statements that give a stream a token. -/
theorem writes_token {o : LiveServer.Op} {res : o.Res} {db db' : DB} (hchange : RowChange id db db' o res)
    (hold : ¬ HasToken id token db) (hnew : HasToken id token db') :
    (∃ s, o = .createStream s ∧ s.pushToken = token) ∨
      ∃ u url, o = .updateStreamPushAuth u token url ∧ uuidIn u = some id := by
  obtain ⟨row, hrow, htok⟩ := hnew
  cases hchange with
  | kept hkept => exact absurd ⟨row, hkept.symm.trans hrow, htok⟩ hold
  | created hs' hcol _ _ hat =>
    left
    refine ⟨_, rfl, ?_⟩
    obtain ⟨_, _, _, _, _, _, _, hcols⟩ := DB.columns_spec hcol
    cases hat.symm.trans hrow
    rw [← htok, hcols, hs']
  | status _ hat =>
    rw [hat] at hrow
    obtain ⟨row₀, hrow₀, rfl⟩ := Option.map_eq_some_iff.mp hrow
    exact absurd ⟨row₀, hrow₀, htok⟩ hold
  | @pushAuth u tok url hu hat =>
    right
    rw [hat] at hrow
    obtain ⟨row₀, _, rfl⟩ := Option.map_eq_some_iff.mp hrow
    obtain rfl : tok = token := htok
    exact ⟨u, url, rfl, hu⟩
  | deleted _ hat => cases hat.symm.trans hrow

/-- A step after which a stream has a token it did not have has given it out. -/
theorem mints_of_new (h : g.machine.Trace (.start w) ts) (ht : t ∈ ts)
    (hold : ¬ HasToken id token t.before.world.base.db) (hnew : HasToken id token t.after.world.base.db) :
    Mints g id token t := by
  have hdb : t.after.world.base.db ≠ t.before.world.base.db := fun heq => hold (heq ▸ hnew)
  obtain ⟨i, req, o, ch, r, params, hp, hroute, hperm, hauth, hworld⟩ := Gateway.request_of_change h ht hdb
  have hgen : Generated req o := h.performed_every rfl g.body_generated ht hp
  have hwritten := writes_token ((LiveServer.World.perform_streams ch o t.before.world.base).row id) hold
    (hworld ▸ hnew)
  rcases hwritten with ⟨s, rfl, hs⟩ | ⟨u, url, rfl, hu⟩
  · have hend : r.endpoint = .createStream := hperm
    exact ⟨i, req, _, ch, r, params, hp, hroute, hauth (by rw [hend]; rfl), .inl hend, hs ▸ hgen, hnew⟩
  · obtain ⟨hend, hparam⟩ := hperm
    exact ⟨i, req, _, ch, r, params, hp, hroute, hauth (by rw [hend]; rfl), .inr ⟨hend, hparam ▸ hu⟩, hgen, hnew⟩

/-- A token that a stream has is its current one. -/
theorem current_of_hasToken (h : g.machine.Trace (.start w) ts)
    (hhas : HasToken id token (Machine.final (.start w) ts).world.base.db) : Current g id token w ts := by
  induction ts using List.reverseRecOn with
  | nil => exact .inl ⟨hhas, fun x hx => absurd hx List.not_mem_nil⟩
  | append_singleton a t ih =>
    obtain ⟨ha, hbefore, hv, _⟩ := Machine.Trace.split h
    have hfinal : Machine.final (.start w) (a ++ [t]) = t.after := by
      rw [Machine.final_append]
      rfl
    rw [hfinal] at hhas
    by_cases hold : HasToken id token t.before.world.base.db
    · rw [hbefore] at hold
      rcases ih ha hold with ⟨hstart, hall⟩ | ⟨a₁, u, b, rfl, hmints, hall⟩
      · refine .inl ⟨hstart, ?_⟩
        intro x hx
        rcases List.mem_append.mp hx with hx | hx
        · exact hall x hx
        · cases List.mem_singleton.mp hx
          exact hhas
      · refine .inr ⟨a₁, u, b ++ [t], by simp, hmints, ?_⟩
        intro x hx
        rcases List.mem_append.mp hx with hx | hx
        · exact hall x hx
        · cases List.mem_singleton.mp hx
          exact hhas
    · exact .inr ⟨a, t, [], rfl, mints_of_new h (by simp) hold hhas, fun x hx => absurd hx List.not_mem_nil⟩

end

/-! ### What lets a publisher in -/

/-- The row behind a key is read with this token. -/
def Checked (key token : Str) (e : Prog.Event LiveServer.Op LiveServer.Op.Res) : Prop :=
  ∃ row, e = ⟨.getStreamByKey key, .ok row⟩ ∧ row.pushToken = token ∧ token ≠ []

theorem onPublish_checked (s : StreamService) (now : Time) (key token : Str) :
    (s.onPublish now key token).Requires (· = none) (Checked key token) := by
  refine Prog.requires_op_bind.mpr ?_
  intro r
  cases r with
  | error e =>
    right
    simp [Prog.Requires]
  | ok row =>
    cases hval : validatePublishToken row.pushToken token with
    | none =>
      obtain ⟨htok, hne⟩ := validatePublishToken_none.mp hval
      exact .inl ⟨row, rfl, htok, hne⟩
    | some e =>
      right
      simp [StreamService.validatePushToken, hval, Prog.Requires]

namespace Gateway
variable {g : Gateway} {req : Request} {r : Route} {params : List Str} {cb : SrsCallback}

/-- The handler lets nobody in whose token it has not checked. -/
theorem handle_checked (hbind : g.bindCallback req.body = some cb) (param : Str) :
    (g.handle req param .publish).Requires (fun a => a.status = 200)
      (Checked (parsePushAuth cb.stream cb.param).1 (parsePushAuth cb.stream cb.param).2.1) := by
  refine Prog.requires_map _ (Prog.requires_map _ ?_)
  show (CallbackHandler.publish g.bindCallback g.svc req.now req.body).Requires (fun r => r.status = 200) _
  unfold CallbackHandler.publish
  rw [hbind]
  apply (onPublish_checked g.svc req.now _ _).bind
  intro e he
  cases e with
  | none => exact absurd rfl he
  | some e => exact fun _ => .inr (show (403 : Nat) ≠ 200 by decide)

/-- A request to the hook that is answered with 200 has checked a token. -/
theorem body_checked (hroute : g.router.find req.method req.path = .route r params) (hend : r.endpoint = .publish)
    (hbind : g.bindCallback req.body = some cb) :
    (g.body (.request req)).Requires (fun a => ∃ answer, a = some answer ∧ answer.status = 200)
      (fun e => ∃ o res, e = ⟨.base o, res⟩ ∧
        Checked (parsePushAuth cb.stream cb.param).1 (parsePushAuth cb.stream cb.param).2.1 ⟨o, res⟩) := by
  have hserve : (g.serveRoute req r params).Requires (fun a => a.status = 200)
      (Checked (parsePushAuth cb.stream cb.param).1 (parsePushAuth cb.stream cb.param).2.1) := by
    unfold serveRoute
    rw [hend]
    exact handle_checked hbind (params.headD [])
  refine Prog.requires_map _ ?_
  rw [g.serve_route hroute]
  refine Prog.Requires.bind (Prog.requires_lift (fun o res h => ⟨o, res, rfl, h⟩) hserve) ?_
  intro a ha _
  right
  intro hok
  obtain ⟨answer, heq, hstatus⟩ := hok
  exact ha (Option.some.inj heq ▸ hstatus)

end Gateway

/-- **Publishing takes a token that was given out**, in every interleaving of requests and jobs: a
publisher that is let in has presented the token that the stream of its key had at one moment,
and that was its token since an authenticated request generated it, or from the start. -/
theorem publish_token_given_out {g : Gateway} {w : World} {ts : List ApiTransition}
    (h : g.machine.Trace (.start w) ts) {i : Nat} {req : Request} {answer : Answer} {r : Route} {params : List Str}
    {cb : SrsCallback}
    (hth : (Machine.final (.start w) ts).threads[i]? = some ⟨.request req, .done (some answer)⟩)
    (hroute : g.router.find req.method req.path = .route r params) (hend : r.endpoint = .publish)
    (hbind : g.bindCallback req.body = some cb) (hok : answer.status = 200) :
    ∃ a t b row ch, ts = a ++ t :: b ∧
      t.performed = some ⟨i, .request req, .base (.getStreamByKey (parsePushAuth cb.stream cb.param).1), ch⟩ ∧
      t.before.world.base.db.streamOf (parsePushAuth cb.stream cb.param).1 = some row ∧
      (parsePushAuth cb.stream cb.param).2.1 ≠ [] ∧
      Current g row.id (parsePushAuth cb.stream cb.param).2.1 w a := by
  obtain ⟨t, ht, o, ch, res, hp, hres, o', res', heq, row, hread, htok, hne⟩ :=
    h.performed_of_returned (Nat.zero_le i) hth (Gateway.body_checked hroute hend hbind) ⟨answer, rfl, hok⟩
  cases hread
  cases heq
  have hrow : t.before.world.base.db.streamOf (parsePushAuth cb.stream cb.param).1 = some row :=
    LiveServer.World.perform_getStreamByKey_ok hres
  obtain ⟨a, b, rfl⟩ := List.append_of_mem ht
  obtain ⟨ha, hbefore, _, _⟩ := Machine.Trace.split h
  refine ⟨a, t, b, row, ch, rfl, hp, hrow, hne, current_of_hasToken ha ?_⟩
  rw [← hbefore]
  exact ⟨row, DB.streamAt_of_streamOf hrow, htok⟩

/-- The sample stream is created and then published with its token. -/
theorem publish_token_given_out_created : ∃ a u b id, Gateway.sample.machine.Trace (.start .empty) (a ++ u :: b) ∧
    Mints Gateway.sample id (sampleToken 1) u := by
  let hook : Request := { sampleRequest .post "/api/callback/publish" with
    body := sampleKey.val ++ lit "?token=" ++ sampleToken 1 }
  obtain ⟨ts, htr, hfin⟩ := Machine.exists_trace_serve Gateway.sample.machine (.start .empty)
    [(.request { sampleRequest .post "/api/streams" with authorization := sampleBearer }, fun _ => { id := sampleID }),
      (.request hook, fun _ => {})]
  have hdone : finished 1 (fun _ a => a.status = 200) (Machine.final (.start .empty) ts) = true := by
    rw [hfin]
    decide +kernel
  obtain ⟨req, answer, hth, hok⟩ := finished_spec hdone
  have hreq : req = hook := by
    rw [hfin] at hth
    exact (Call.request.inj (Thread.mk.inj (Option.some.inj hth)).1).symm
  have hok : answer.status = 200 := of_decide_eq_true hok
  rw [hreq] at hth
  have hroute : Gateway.sample.router.find hook.method hook.path =
      .route ⟨.post, lit "/api/callback/publish", .publish⟩ [] := by
    decide +kernel
  have hbind : Gateway.sample.bindCallback hook.body = some { stream := hook.body } := rfl
  obtain ⟨a, t, b, row, ch, rfl, _, _, _, hcurrent⟩ := publish_token_given_out htr hth hroute rfl hbind hok
  have htoken : (parsePushAuth hook.body []).2.1 = sampleToken 1 := by
    decide +kernel
  rw [htoken] at hcurrent
  rcases hcurrent with ⟨⟨row₀, hrow₀, _⟩, _⟩ | ⟨a₁, u, b₁, rfl, hmints, _⟩
  · cases hrow₀
  · refine ⟨a₁, u, b₁ ++ t :: b, row.id, ?_, hmints⟩
    rw [List.append_assoc] at htr
    exact htr

end LiveServer.Api
