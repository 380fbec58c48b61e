import LiveServer.Alone
import LiveServer.Handler.Callback

/-! The publish hook.

SRS admits a publisher when the hook answers 200 with code 0. A body that does not
decode gets that answer by design; any other gets it only for a stream that exists,
with its current token, that is not publishing and that is publishing when the call
returns, whatever the database and Redis do meanwhile. Everything else is 403. -/
namespace LiveServer
open Concurrent

/-- The callback names an existing stream that is not publishing, with its token. -/
structure Admissible (w : World) (cb : SrsCallback) (row : Stream) : Prop where
  named : w.db.streamOf (parsePushAuth cb.stream cb.param).1 = some row
  token : row.pushToken = (parsePushAuth cb.stream cb.param).2.1
  configured : row.pushToken ≠ []
  idle : row.status ≠ .publishing

/-- The stream is publishing. -/
def Publishing (w : World) (id : Str) : Prop :=
  ∃ row, w.db.streamAt id = some row ∧ row.status = .publishing

section
variable {shouldBindJSON : Str → Option SrsCallback} {s : StreamService} {w w' : World}

/-- A call that writes nothing starts no admissible stream. -/
theorem not_publishing_of_faded {cb : SrsCallback} {row : Stream} (h : Faded w w')
    (hadm : Admissible w cb row) : ¬ Publishing w' row.id := by
  intro hpub
  obtain ⟨row', hrow', hst⟩ := hpub
  rw [h.db, DB.streamAt_of_streamOf hadm.named] at hrow'
  cases hrow'
  exact hadm.idle hst

/-- A status update of a row that is there leaves it with the status. -/
theorem publishing_of_update {row : Stream} {extra : StatusExtra}
    (hrow : w.db.streamAt row.id = some row)
    (h : w.db.updateStreamStatus row.id .publishing extra = .ok w'.db) : Publishing w' row.id := by
  obtain ⟨u, hu, hupd⟩ := DB.updateStreamStatus_ok h
  have hid : row.id = u := Option.some.inj ((DB.uuidIn_streamAt hrow).symm.trans hu)
  refine ⟨row.withStatus .publishing extra, ?_, rfl⟩
  rw [hupd.streamAt, if_pos hid, ← hid, hrow]
  rfl

/-- What the hook answers to a body that decodes. -/
theorem publish_decoded {ok : Op → Choice → Prop} {now : Time} {body : Str} {cb : SrsCallback}
    (hbody : shouldBindJSON body = some cb) :
    (CallbackHandler.publish shouldBindJSON s now body).wp World.perform ok (fun resp w' =>
      (resp = .allow ∧ ∃ row, Admissible w cb row ∧ Publishing w' row.id) ∨
      (resp = .unauthorized ∧ ∀ row, Admissible w cb row → ¬ Publishing w' row.id)) w := by
  unfold CallbackHandler.publish
  rw [hbody]
  refine Prog.wp_bind (Prog.wp_mono (fun err w₁ hout => ?_) (StreamService.alone_onPublish now _ _))
  cases hout with
  | rejected h₁ _ =>
    refine wp_quiet rfl fun _ w₂ h₂ => .inr ⟨rfl, fun row hadm => ?_⟩
    exact not_publishing_of_faded (h₁.trans h₂) hadm
  | accepted hrow hval hst hupd _ _ _ =>
    obtain ⟨htoken, hne⟩ := validatePublishToken_none.mp hval
    refine .inl ⟨rfl, _, ⟨hrow, htoken, htoken ▸ hne, hst⟩, ?_⟩
    exact publishing_of_update (DB.streamAt_of_streamOf hrow) hupd

end

/-- **The publish hook never fails open** for a body that decodes, and is 403 wherever it
does not allow. -/
theorem publish_allows_iff (shouldBindJSON : Str → Option SrsCallback) (s : StreamService) (now : Time)
    (body : Str) (ch : Nat → Choice) (w : World) :
    (((CallbackHandler.publish shouldBindJSON s now body).exec World.perform ch w).1 = .allow ↔
      shouldBindJSON body = none ∨
      ∃ cb row, shouldBindJSON body = some cb ∧ Admissible w cb row ∧
        Publishing ((CallbackHandler.publish shouldBindJSON s now body).exec World.perform ch w).2 row.id) ∧
    (((CallbackHandler.publish shouldBindJSON s now body).exec World.perform ch w).1 ≠ .allow →
      ((CallbackHandler.publish shouldBindJSON s now body).exec World.perform ch w).1 = .unauthorized) := by
  have hrun : Prog.Runs World.perform (fun _ _ => True) _ w _ _ :=
    Prog.exec_runs (CallbackHandler.publish shouldBindJSON s now body) ch w fun _ _ => trivial
  cases hbody : shouldBindJSON body with
  | none =>
    have hallow : ((CallbackHandler.publish shouldBindJSON s now body).exec World.perform ch w).1 =
        .allow := by
      unfold CallbackHandler.publish
      rw [hbody]
      rfl
    rw [hallow]
    simp
  | some cb =>
    rcases hrun.wp (publish_decoded hbody) with ⟨hresp, row, hadm, hpub⟩ | ⟨hresp, hnone⟩
    · rw [hresp]
      refine ⟨iff_of_true rfl (.inr ⟨cb, row, rfl, hadm, hpub⟩), fun h => absurd rfl h⟩
    · rw [hresp]
      refine ⟨iff_of_false (by decide) fun h => ?_, fun _ => rfl⟩
      rcases h with h | ⟨cb', row, hcb, hadm, hpub⟩
      · cases h
      · cases hcb
        exact hnone row hadm hpub

/-- An empty body is allowed on a server without streams, by a decoder that refuses only
that. -/
theorem empty_body_allowed :
    ((CallbackHandler.publish (fun body => if body = [] then none else some { stream := body })
        .sample 0 []).exec World.perform (fun _ => {}) .empty).1 = .allow ∧
      ∀ key, World.empty.db.streamOf key = none :=
  ⟨rfl, fun _ => rfl⟩

end LiveServer
