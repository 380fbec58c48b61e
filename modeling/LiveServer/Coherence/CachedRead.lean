import LiveServer.Coherence.Sequential

/-! Reading a stream through the cache.

`GetStream` answers from the status entry when there is one, and the entry holds
little of the row: the answer has id and status and nothing else. Since no row is
without a stream key, the two readings agree exactly when no status is cached. -/
namespace LiveServer
open Concurrent

namespace StreamService

/-- What `GetStream` answers when nothing fails. -/
def readStream (s : StreamService) (id : Str) (w : World) : Except GoError Stream :=
  ((s.getStream id).exec World.perform (fun _ => {}) w).1

/-- The same service started without Redis. -/
def withoutCache (s : StreamService) : StreamService := { s with cache := false }

end StreamService

/-- Rows have stream keys, and a status key holds a status. -/
structure Formed (w : World) : Prop where
  keyed : StreamService.Keyed w.db
  status : ∀ id e, (w.redis.entries id).status = some e → ∃ d, e.value = .status d

section
variable {s : StreamService} {ok : Op → Choice → Prop} {serves : Call → Prop} {w : World}

theorem formed_empty : Formed .empty := ⟨StreamService.keyed_empty, fun _ _ h => (by cases h)⟩

theorem Formed.expire (h : Formed w) (keys : List Str) : Formed (w.expire keys) where
  keyed := h.keyed
  status id e he := h.status id e (((w.redis.expire_le keys).entries id).status e he)

theorem Formed.perform {call : Call} {o : Op} (h : Formed w) (ch : Choice) (hmay : s.May call o) :
    Formed (World.perform ch o w).2 where
  keyed := h.keyed.change hmay (World.perform_streams ch o w)
  status id e he := by
    have hexp := h.expire ch.expired
    have hch := (World.perform_redis ch o w).entries id
    by_cases ho : ∃ d, o = .setStreamStatus id d
    · obtain ⟨d, rfl⟩ := ho
      cases hch with
      | kept hk =>
        rw [hk] at he
        exact hexp.status id e he
      | status hset =>
        rw [hset] at he
        cases he
        exact ⟨d, rfl⟩
    · exact hexp.status id e (hch.status_of (fun d hd => ho ⟨d, hd⟩) he)

theorem Reachable.formed (h : Reachable s ok serves w) : Formed w := by
  induction h with
  | start => exact formed_empty
  | @call call _ _ _ _ _ hrun ih =>
    exact hrun.invariant (s.body_may call) (fun _ ch _ hmay hw => hw.perform ch hmay) ih
  | expire keys _ ih => exact ih.expire keys

namespace StreamService

theorem readStream_withoutCache (id : Str) (w : World) :
    s.withoutCache.readStream id w = w.db.getStreamByID id := rfl

/-- The status entry decides which store answers. -/
theorem readStream_eq (hcache : s.cache = true) (id : Str) (w : World) :
    s.readStream id w = match w.redis.getStreamStatus id with
      | .ok (some cached) => .ok { id := id, status := cached.status }
      | _ => w.db.getStreamByID id := by
  have hread : (World.perform {} (.getStreamStatus id) w).1 = w.redis.getStreamStatus id := by
    show (w.redis.expire []).getStreamStatus id = _
    rw [Redis.expire_nil]
  unfold readStream getStream
  rw [if_pos hcache]
  simp only [cache.getStreamStatus, Prog.op_bind, Prog.exec, hread]
  cases w.redis.getStreamStatus id with
  | error e => rfl
  | ok cached =>
    cases cached with
    | none => rfl
    | some d => rfl

end StreamService

/-- **The cached read** is the database's exactly when no status is cached. -/
theorem readStream_eq_iff (hcache : s.cache = true) (h : Reachable s ok serves w) (id : Str) :
    s.readStream id w = s.withoutCache.readStream id w ↔ w.redis (statusKey id) = none := by
  rw [StreamService.readStream_withoutCache, StreamService.readStream_eq hcache, Redis.getStreamStatus]
  cases hentry : w.redis (statusKey id) with
  | none => simp
  | some e =>
    obtain ⟨d, hd⟩ := h.formed.status id e hentry
    obtain ⟨_, volatile⟩ := e
    subst hd
    refine iff_of_false (fun heq => ?_) nofun
    -- the answer has no stream key, the row has one
    obtain ⟨_, hrow⟩ := DB.getStreamByID_ok heq.symm
    have hlen := (h.formed.keyed _ _ hrow).1
    cases hlen

/-- A created stream whose entry has expired. -/
theorem readStream_eq_iff_expired :
    StreamService.sample.readStream sampleID
        ((sampleServe (.createStream (.sample 1) {}) .empty).expire [statusKey sampleID]) =
      StreamService.sample.withoutCache.readStream sampleID
        ((sampleServe (.createStream (.sample 1) {}) .empty).expire [statusKey sampleID]) := by
  have hcreated := reachable_sampleServe
    (.start : Reachable .sample noFaults (fun _ => True) .empty) (.createStream (.sample 1) {}) trivial
    fun _ _ h => h
  exact (readStream_eq_iff rfl (.expire [statusKey sampleID] hcreated) sampleID).mpr (by decide)

/-- Right after it is created a stream is read without its key and its URLs. -/
theorem readStream_differs :
    ∃ w, Reachable .sample noFaults (fun _ => True) w ∧
      StreamService.sample.readStream sampleID w = .ok { id := sampleID, status := .created } ∧
      ∃ row, StreamService.sample.withoutCache.readStream sampleID w = .ok row ∧
        row.streamKey = sampleKey.val ∧ row.hlsURL ≠ [] := by
  have hcreated := reachable_sampleServe
    (.start : Reachable .sample noFaults (fun _ => True) .empty) (.createStream (.sample 1) {}) trivial
    fun _ _ h => h
  refine ⟨_, hcreated, by decide, _, rfl, by decide, by decide⟩

end
end LiveServer
