import LiveServer.Recorded

/-! A publish that is turned down changes nothing.

`OnPublish` has five ways out with an error, one of them in a helper. Which one it takes is
settled by what the lookup of the stream key gave, until the status is written; behind that
write there is no way out with an error. The calls may fail in any combination: `ch n` is
what the request meets at its `n`-th call, the lookup being call 0 and the write call 1. -/
namespace LiveServer
open Concurrent

/-- What the lookup of a key gives. -/
def lookupKey (ch : Choice) (w : World) (key : Str) : Except GoError Stream :=
  if ch.fault then .error .backend else w.db.getStreamByKey key

/-- Why a publisher is turned down: its key is unknown, its token is bad or missing, or the
stream is published already. -/
def refusal (lookup : Except GoError Stream) (token : Str) : Option GoError :=
  match lookup with
  | .error _ => some (.text "unknown stream key")
  | .ok row =>
    match validatePublishToken row.pushToken token with
    | some err => some err
    | none =>
      if row.status = .publishing then some (.text "stream is already publishing") else none

/-- The keys whose TTL does not run out while the request is served. -/
def Lasting (ch : Nat → Choice) (k : Str) : Prop := ∀ n, k ∉ (ch n).expired

namespace StreamService

section
variable (s : StreamService) (now : Time) {key token : Str} {ch : Nat → Choice} {w : World}

/-- Turned down: the failure is counted, and that is all. -/
theorem exec_onPublish_refused {e : GoError} (h : refusal (lookupKey (ch 0) w key) token = some e) :
    (s.onPublish now key token).exec World.perform ch w =
      (some e, (World.perform (ch 1) (.inc .authFailuresTotal (lit "publish"))
        (w.expire (ch 0).expired)).2) := by
  show (match lookupKey (ch 0) w key with
    | .error _ => _
    | .ok stream => _ : Server (Option GoError)).exec World.perform (fun n => ch (n + 1))
      (w.expire (ch 0).expired) = _
  cases hl : lookupKey (ch 0) w key with
  | error err =>
    rw [hl] at h
    cases h
    rfl
  | ok row =>
    rw [hl] at h
    simp only [refusal] at h
    simp only [validatePushToken]
    cases hval : validatePublishToken row.pushToken token with
    | some err =>
      rw [hval] at h
      cases h
      rfl
    | none =>
      rw [hval] at h
      by_cases hst : row.status = .publishing
      · simp only [hst, if_true] at h
        cases h
        simp only [hst, if_true]
        rfl
      · simp only [hst, if_false] at h
        cases h

/-- Let in: what the write does decides. -/
theorem exec_onPublish_admitted (h : refusal (lookupKey (ch 0) w key) token = none) :
    ∃ row db', w.db.streamOf key = some row ∧
      w.db.updateStreamStatus row.id .publishing
        { startedAt := some (some now), endedAt := some none } = .ok db' ∧
      (s.onPublish now key token).exec World.perform ch w =
        if (ch 1).fault then (some .backend, (w.expire (ch 0).expired).expire (ch 1).expired)
        else (s.announce now row).exec World.perform (fun n => ch (n + 2))
          { (w.expire (ch 0).expired).expire (ch 1).expired with db := db' } := by
  cases hl : lookupKey (ch 0) w key with
  | error err =>
    rw [hl] at h
    cases h
  | ok row =>
    rw [hl] at h
    simp only [refusal] at h
    cases hval : validatePublishToken row.pushToken token with
    | some err =>
      rw [hval] at h
      cases h
    | none =>
      rw [hval] at h
      have hst : row.status ≠ .publishing := by
        intro hst
        simp only [hst, if_true] at h
        cases h
      have hrow : w.db.streamOf key = some row := by
        unfold lookupKey at hl
        split at hl
        · cases hl
        · exact DB.getStreamByKey_ok.mp hl
      have huuid := DB.uuidIn_streamAt (DB.streamAt_of_streamOf hrow)
      obtain ⟨db', hdb⟩ : ∃ db', w.db.updateStreamStatus row.id .publishing
          { startedAt := some (some now), endedAt := some none } = .ok db' := by
        unfold DB.updateStreamStatus
        rw [huuid]
        exact ⟨_, rfl⟩
      refine ⟨row, db', hrow, hdb, ?_⟩
      show (match lookupKey (ch 0) w key with
        | .error _ => _
        | .ok stream => _ : Server (Option GoError)).exec World.perform (fun n => ch (n + 1))
          (w.expire (ch 0).expired) = _
      rw [hl]
      simp only [validatePushToken, hval, Prog.pure_eq, Prog.done_bind, hst, if_false]
      have hwrite : World.perform (ch 1) (.updateStreamStatus row.id .publishing
            { startedAt := some (some now), endedAt := some none }) (w.expire (ch 0).expired) =
          if (ch 1).fault then (some .backend, (w.expire (ch 0).expired).expire (ch 1).expired)
          else (none, { (w.expire (ch 0).expired).expire (ch 1).expired with db := db' }) := by
        simp only [World.perform, World.answer, World.write, World.expire_db, hdb]
      have hcall (o : Op) (f : o.Res → Server (Option GoError)) :
          (Prog.op o >>= f).exec World.perform (fun n => ch (n + 1)) (w.expire (ch 0).expired) =
            (f (World.perform (ch 1) o (w.expire (ch 0).expired)).1).exec World.perform
              (fun n => ch (n + 2)) (World.perform (ch 1) o (w.expire (ch 0).expired)).2 := rfl
      rw [db.updateStreamStatus, hcall, hwrite]
      by_cases hf : (ch 1).fault = true
      · rw [if_pos hf, if_pos hf]
        rfl
      · rw [if_neg hf, if_neg hf]
        rfl

/-- What follows the write leaves the database alone, and all keys but the status of the stream. -/
theorem exec_announce (row : Stream) (ch : Nat → Choice) (w : World) :
    let r := (s.announce now row).exec World.perform ch w
    r.1 = none ∧ r.2.db = w.db ∧
      (∀ k, Lasting ch k → k ≠ statusKey row.id → r.2.redis k = w.redis k) ∧
      r.2.metrics = (w.metrics.set .liveStreamsActive row.id (.count 1)).set .liveStreamBitrateKbps
        row.id (parseBitrateKbps row.bitrate) := by
  intro r
  have hdb : (s.announce now row).Every fun o => o.isStill = true ∨ o.isQuiet = true := by
    unfold announce
    by_cases hcache : s.cache = true
    · simp [hcache, Op.isStill, Op.isQuiet]
    · simp [hcache, Op.isStill, Op.isQuiet]
  have hkeys (k : Str) (hk : k ≠ statusKey row.id) : (s.announce now row).Every fun o => k ∉ o.keys := by
    unfold announce
    by_cases hcache : s.cache = true
    · simp [hcache, Op.keys, hk]
    · simp [hcache, Op.keys]
  refine ⟨?_, ?_, ?_, ?_⟩
  · show ((s.announce now row).exec World.perform ch w).1 = none
    unfold announce
    by_cases hcache : s.cache = true
    · simp only [hcache, if_true]
      rfl
    · simp only [hcache]
      rfl
  · apply Prog.exec_view World.db _ hdb
    intro n o w ho
    rcases ho with ho | ho
    · exact (perform_still ho (ch n) w).db
    · exact (perform_faded ho (ch n) w).db
  · intro k hlast hk
    apply Prog.exec_view (fun w : World => w.redis k) _ (hkeys k hk)
    intro n o w ho
    exact World.perform_redis_other (hlast n) ho w
  · show ((s.announce now row).exec World.perform ch w).2.metrics = _
    unfold announce
    by_cases hcache : s.cache = true
    · simp only [hcache, if_true, cache.getViewers, cache.setStreamStatus, metrics.set, Prog.op_bind,
        Prog.pure_eq, Prog.exec, World.perform_metrics, Op.records]
    · simp only [hcache]
      rfl

end
end StreamService

/-- **A publish that is turned down changes nothing**: whichever calls fail, an error leaves
the database, Redis and the gauges as they were, and one authentication failure is counted
exactly if the key is unknown, the token bad or missing or the stream published already; the
only other error is that of the status update. A publisher that is let in changes its own
row, status key and two gauges, and no counter. -/
theorem rejected_publish_changes_nothing (s : StreamService) (now : Time) (key token : Str)
    (ch : Nat → Choice) (w : World) :
    let r := (s.onPublish now key token).exec World.perform ch w
    let reason := refusal (lookupKey (ch 0) w key) token
    (∀ e, r.1 = some e → r.2.db = w.db ∧ (∀ k, Lasting ch k → r.2.redis k = w.redis k) ∧
      r.2.metrics.gauge = w.metrics.gauge ∧
      (reason = some e ∧
          r.2.metrics.counter = (w.metrics.inc .authFailuresTotal (lit "publish")).counter ∨
        reason = none ∧ (ch 1).fault = true ∧ r.2.metrics.counter = w.metrics.counter)) ∧
    (r.1 = none → reason = none ∧ r.2.metrics.counter = w.metrics.counter ∧
      ∃ row, w.db.streamOf key = some row ∧ r.2.db.tasks = w.db.tasks ∧
        (∀ id, id ≠ row.id → r.2.db.streamAt id = w.db.streamAt id) ∧
        (∀ k, Lasting ch k → k ≠ statusKey row.id → r.2.redis k = w.redis k) ∧
        ∀ g label, ¬ (label = row.id ∧ (g = .liveStreamsActive ∨ g = .liveStreamBitrateKbps)) →
          r.2.metrics.gauge g label = w.metrics.gauge g label) := by
  intro r reason
  cases hreason : reason with
  | some e =>
    have hr : r = _ := StreamService.exec_onPublish_refused s now hreason
    rw [hr]
    constructor
    · intro e' he
      cases he
      refine ⟨rfl, ?_, rfl, .inl ⟨rfl, rfl⟩⟩
      intro k hlast
      exact (World.perform_redis_other (hlast 1) (List.not_mem_nil) _).trans
        (Redis.expire_of_not_mem (hlast 0))
    · intro hnone
      cases hnone
  | none =>
    obtain ⟨row, db', hrow, hdb, hr⟩ := StreamService.exec_onPublish_admitted s now hreason
    have hr : r = _ := hr
    obtain ⟨u, hu, hupd⟩ := DB.updateStreamStatus_ok hdb
    have hid : u = row.id :=
      Option.some.inj (hu.symm.trans (DB.uuidIn_streamAt (DB.streamAt_of_streamOf hrow)))
    subst hid
    -- up to the write, only keys that expire are lost
    have hbefore (k : Str) (hlast : Lasting ch k) :
        ((w.expire (ch 0).expired).expire (ch 1).expired).redis k = w.redis k :=
      (Redis.expire_of_not_mem (hlast 1)).trans (Redis.expire_of_not_mem (hlast 0))
    by_cases hf : (ch 1).fault = true
    · rw [if_pos hf] at hr
      rw [hr]
      constructor
      · intro e _
        exact ⟨rfl, hbefore, rfl, .inr ⟨rfl, hf, rfl⟩⟩
      · intro hnone
        cases hnone
    · rw [if_neg hf] at hr
      obtain ⟨hnone, hdb', hredis, hmetrics⟩ := StreamService.exec_announce s now row
        (fun n => ch (n + 2)) { (w.expire (ch 0).expired).expire (ch 1).expired with db := db' }
      rw [← hr] at hnone hdb' hredis hmetrics
      constructor
      · intro e he
        rw [hnone] at he
        cases he
      · intro _
        refine ⟨rfl, by rw [hmetrics]; rfl, row, hrow, by rw [hdb']; exact hupd.tasks, ?_, ?_, ?_⟩
        · intro id hne
          rw [hdb', hupd.streamAt, if_neg hne]
        · intro k hlast hk
          exact (hredis k (fun n => hlast (n + 2)) hk).trans (hbefore k hlast)
        · intro g label hother
          rw [hmetrics]
          show (if g = .liveStreamBitrateKbps ∧ label = row.id then _
            else if g = .liveStreamsActive ∧ label = row.id then _ else w.metrics.gauge g label) = _
          rw [if_neg, if_neg]
          · intro h
            exact hother ⟨h.2, .inl h.1⟩
          · intro h
            exact hother ⟨h.2, .inr h.1⟩

end LiveServer
