import LiveServer.Alone

/-! The viewer counter of one stream.

Three commands move it: `INCR` for a viewer that comes, the script that decrements but
not below zero for one that leaves, and the deletion of its key when the stream goes
off. `Steady` says that a stream is there with a count, `CounterChange` what a command
with its answer makes of the count, and `perform_steady` that there is nothing else. -/
namespace LiveServer
open Relational

/-- The stream with the key has its row, and its counter shows `n`; no TTL is on it. -/
structure Steady (key id : Str) (n : Nat) (w : World) : Prop where
  row : ∃ row, w.db.streamAt id = some row ∧ row.streamKey = key
  counter : w.redis (viewersKey id) = some ⟨.int n, false⟩ ∨ n = 0 ∧ w.redis (viewersKey id) = none

/-- A command that moves the counter. -/
def Op.counts (id : Str) : Op → Bool
  | .incrViewers u => u = id
  | .decrViewers u => u = id
  | .resetViewers u => u = id
  | _ => false

/-- The stream is neither deleted nor polled. -/
def Op.Spares (id : Str) : Op → Prop
  | .deleteStream u => uuidIn u ≠ some id
  | .deleteStreamCache u => u ≠ id
  | .setViewers u _ => u ≠ id
  | _ => True

/-- What a command with its answer makes of the count; `fault` if Redis fails. -/
inductive CounterChange (id : Str) (n : Nat) (fault : Bool) : (o : Op) → o.Res → Nat → Prop
  | other {o : Op} {r : o.Res} : o.counts id = false → CounterChange id n fault o r n
  | incr : CounterChange id n fault (.incrViewers id) (.ok (n + 1)) (n + 1)
  | incrFailed {e : GoError} : fault = true ∨ (n : Int) = Text.maxInt64 →
      CounterChange id n fault (.incrViewers id) (.error e) n
  | decr : CounterChange id n fault (.decrViewers id) (.ok (n - 1 : Nat)) (n - 1)
  | decrFailed {e : GoError} : fault = true → CounterChange id n fault (.decrViewers id) (.error e) n
  | reset : CounterChange id n fault (.resetViewers id) none 0
  | resetFailed {e : GoError} : fault = true → CounterChange id n fault (.resetViewers id) (some e) n

section
variable {key id : Str} {n : Nat} {w : World} {ch : Choice} {o : Op}

theorem Steady.getViewers (h : Steady key id n w) : w.redis.getViewers id = .ok n := by
  unfold Redis.getViewers
  rcases h.counter with hc | ⟨rfl, hc⟩
  · rw [hc]
  · rw [hc]
    rfl

/-- The row is found by the key, and by no other. -/
theorem Steady.streamOf (h : Steady key id n w) :
    ∃ row, w.db.streamOf key = some row ∧ row.id = id := by
  obtain ⟨row, hat, rfl⟩ := h.row
  exact ⟨row, DB.streamOf_of_streamAt hat, (DB.streamAt_eq_some.mp hat).2⟩

theorem Steady.key_of_streamOf (h : Steady key id n w) {k : Str} {row : Stream}
    (hrow : w.db.streamOf k = some row) (hid : row.id = id) : k = key := by
  obtain ⟨row', hat, rfl⟩ := h.row
  have hat' := DB.streamAt_of_streamOf hrow
  rw [hid, hat] at hat'
  cases hat'
  exact (DB.streamOf_eq_some.mp hrow).2.symm

theorem Steady.expire (h : Steady key id n w) (keys : List Str) : Steady key id n (w.expire keys) where
  row := h.row
  counter := by
    rcases h.counter with hc | ⟨hn, hc⟩
    · exact .inl (Redis.expire_lasting hc keys)
    · refine .inr ⟨hn, ?_⟩
      show w.redis.expire keys (viewersKey id) = none
      unfold Redis.expire
      rw [hc]

/-! ### One command -/

/-- The row keeps its key as long as it is not deleted. -/
theorem row_perform (ho : o.Spares id)
    (h : ∃ row, w.db.streamAt id = some row ∧ row.streamKey = key) :
    ∃ row, (World.perform ch o w).2.db.streamAt id = some row ∧ row.streamKey = key := by
  obtain ⟨row, hat, hkey⟩ := h
  have hchange := World.perform_streams ch o w
  generalize (World.perform ch o w).1 = r at hchange
  cases hchange.row id with
  | kept hrow => exact ⟨row, hrow.trans hat, hkey⟩
  | created _ _ _ hfresh _ => exact absurd (DB.issued_of_streamAt hat) hfresh
  | status _ hrow =>
    rw [hat] at hrow
    exact ⟨_, hrow, hkey⟩
  | pushAuth _ hrow =>
    rw [hat] at hrow
    exact ⟨_, hrow, hkey⟩
  | deleted hu _ => exact absurd hu ho

/-- Other commands leave the counter. -/
theorem viewers_perform (ho : o.Spares id) (hc : o.counts id = false) :
    (World.perform ch o w).2.redis (viewersKey id) = w.redis.expire ch.expired (viewersKey id) := by
  have hchange := (World.perform_redis ch o w).entries id
  show ((World.perform ch o w).2.redis.entries id).viewers =
    ((w.redis.expire ch.expired).entries id).viewers
  cases hchange with
  | kept he => rw [he]
  | status he => rw [he]
  | playURLs he => rw [he]
  | incr _ => simp [Op.counts] at hc
  | decr _ _ => simp [Op.counts] at hc
  | reset _ => simp [Op.counts] at hc
  | viewers _ => exact absurd rfl ho
  | cleared _ => exact absurd rfl ho

theorem incrViewers_counter {r : Redis}
    (hr : r (viewersKey id) = some ⟨.int n, false⟩ ∨ n = 0 ∧ r (viewersKey id) = none) :
    (n : Int) = Text.maxInt64 ∧ r.incrViewers id = .error .backend ∨
      r.incrViewers id = .ok (n + 1, r.set (viewersKey id) ⟨.int (n + 1), false⟩) := by
  unfold Redis.incrViewers
  rcases hr with hc | ⟨rfl, hc⟩
  · rw [hc]
    by_cases hmax : (n : Int) = Text.maxInt64
    · exact .inl ⟨hmax, if_pos hmax⟩
    · exact .inr (if_neg hmax)
  · rw [hc]
    exact .inr rfl

theorem decrViewers_counter {r : Redis}
    (hr : r (viewersKey id) = some ⟨.int n, false⟩ ∨ n = 0 ∧ r (viewersKey id) = none) :
    ∃ r', r.decrViewers id = .ok ((n - 1 : Nat), r') ∧
      (r' (viewersKey id) = some ⟨.int (n - 1 : Nat), false⟩ ∨ n - 1 = 0 ∧ r' (viewersKey id) = none) := by
  unfold Redis.decrViewers
  rcases hr with hc | ⟨rfl, hc⟩
  · rw [hc]
    by_cases hpos : 0 < n
    · have hpred : (n : Int) - 1 = (n - 1 : Nat) := by omega
      refine ⟨r.set (viewersKey id) ⟨.int (n - 1 : Nat), false⟩, ?_, .inl (by simp [Redis.set])⟩
      simp only [Int.natCast_pos, hpos, if_true, hpred]
    · obtain rfl : n = 0 := by omega
      exact ⟨r, rfl, .inl hc⟩
  · rw [hc]
    exact ⟨r, rfl, .inr ⟨rfl, hc⟩⟩

theorem incrViewers_steady (h : Steady key id n w) :
    ∃ n', CounterChange id n ch.fault (.incrViewers id) (World.perform ch (.incrViewers id) w).1 n' ∧
      Steady key id n' (World.perform ch (.incrViewers id) w).2 := by
  have hw := h.expire ch.expired
  simp only [World.perform, World.answer, World.cacheCount]
  split
  · exact ⟨n, .incrFailed (.inl ‹_›), hw⟩
  · rcases incrViewers_counter hw.counter with ⟨hmax, hi⟩ | hi
    · rw [hi]
      exact ⟨n, .incrFailed (.inr hmax), hw⟩
    · rw [hi]
      exact ⟨n + 1, .incr, hw.row, .inl (by simp [Redis.set])⟩

theorem decrViewers_steady (h : Steady key id n w) :
    ∃ n', CounterChange id n ch.fault (.decrViewers id) (World.perform ch (.decrViewers id) w).1 n' ∧
      Steady key id n' (World.perform ch (.decrViewers id) w).2 := by
  have hw := h.expire ch.expired
  simp only [World.perform, World.answer, World.cacheCount]
  split
  · exact ⟨n, .decrFailed ‹_›, hw⟩
  · obtain ⟨r', hd, hc⟩ := decrViewers_counter hw.counter
    rw [hd]
    exact ⟨n - 1, .decr, hw.row, hc⟩

theorem resetViewers_steady (h : Steady key id n w) :
    ∃ n', CounterChange id n ch.fault (.resetViewers id) (World.perform ch (.resetViewers id) w).1 n' ∧
      Steady key id n' (World.perform ch (.resetViewers id) w).2 := by
  have hw := h.expire ch.expired
  simp only [World.perform, World.answer, World.cacheWrite]
  split
  · exact ⟨n, .resetFailed ‹_›, hw⟩
  · exact ⟨0, .reset, hw.row, .inr ⟨rfl, by simp [Redis.resetViewers, Redis.del]⟩⟩

/-- **What a command makes of a stream and its count**, unless it deletes the stream. -/
theorem perform_steady (ch : Choice) (ho : o.Spares id) (h : Steady key id n w) :
    ∃ n', CounterChange id n ch.fault o (World.perform ch o w).1 n' ∧
      Steady key id n' (World.perform ch o w).2 := by
  by_cases hc : o.counts id = false
  · refine ⟨n, .other hc, row_perform ho h.row, ?_⟩
    rw [viewers_perform ho hc]
    exact (h.expire ch.expired).counter
  · cases o with
    | incrViewers u =>
      obtain rfl : u = id := by simpa [Op.counts] using hc
      exact incrViewers_steady h
    | decrViewers u =>
      obtain rfl : u = id := by simpa [Op.counts] using hc
      exact decrViewers_steady h
    | resetViewers u =>
      obtain rfl : u = id := by simpa [Op.counts] using hc
      exact resetViewers_steady h
    | _ => exact absurd rfl hc

/-- A lookup by the key finds the stream, unless the database fails. -/
theorem lookup_steady (hf : ch.fault = false) (h : Steady key id n w) :
    ∃ row, (World.perform ch (.getStreamByKey key) w).1 = .ok row ∧ row.id = id := by
  obtain ⟨row, hof, hid⟩ := h.streamOf
  refine ⟨row, ?_, hid⟩
  simp [World.perform, World.answer, World.read, hf, DB.getStreamByKey_ok.mpr hof]

end

/-- The sample stream has no viewers. -/
theorem steady_sampleStream : Steady sampleKey.val sampleID 0 sampleStream := by
  obtain ⟨row, hrow, hkey⟩ := (Option.any_eq_true _ _).mp
    (by decide : (sampleStream.db.streamAt sampleID).any (·.streamKey = sampleKey.val) = true)
  exact ⟨⟨row, hrow, of_decide_eq_true hkey⟩, .inr ⟨rfl, by decide⟩⟩

end LiveServer
