import LiveServer.Footprint

/-! Status and timestamps of a row.

The status column and the two timestamps are written by three statements only: the
insert, the update of `OnPublish` and the update of `OnUnpublish`. Each of them leaves
a row whose timestamps fit its status whatever they were before, so it does not
matter how old the row is that a call has read. -/
namespace LiveServer
open Concurrent

/-- The timestamps of a row fit its status. -/
structure Stamped (row : Stream) : Prop where
  status : row.status = .created ∨ row.status = .publishing ∨ row.status = .ended
  created : row.status = .created → row.startedAt = none ∧ row.endedAt = none
  publishing : row.status = .publishing → row.startedAt.isSome = true ∧ row.endedAt = none
  ended : row.status = .ended ↔ row.endedAt.isSome = true

/-- A statement that writes the status writes the timestamps that go with it. -/
def Op.Stamps : Op → Prop
  | .createStream x => x.status = .created ∧ x.startedAt = none ∧ x.endedAt = none
  | .updateStreamStatus _ status extra =>
    (status = .publishing ∧ ∃ now, extra = { startedAt := some (some now), endedAt := some none }) ∨
    (status = .ended ∧ ∃ now, extra = { endedAt := some (some now) })
  | _ => True

/-! ### The three statements -/

theorem stamped_columns {x row : Stream} (hcol : x.columns = some row)
    (hx : Op.Stamps (.createStream x)) : Stamped row := by
  obtain ⟨hst, hstart, hend⟩ := hx
  obtain ⟨_, _, _, _, _, _, _, rfl⟩ := DB.columns_spec hcol
  constructor <;> simp [hst, hstart, hend]

theorem stamped_withStatus {u : Str} {status : Status} {extra : StatusExtra}
    (h : Op.Stamps (.updateStreamStatus u status extra)) (row : Stream) :
    Stamped (row.withStatus status extra) := by
  rcases h with ⟨rfl, now, rfl⟩ | ⟨rfl, now, rfl⟩
  · constructor <;> simp [Stream.withStatus]
  · constructor <;> simp [Stream.withStatus]

/-- A new token changes none of the three columns. -/
theorem Stamped.withPushAuth {row : Stream} (h : Stamped row) (token pushURL : Str) :
    Stamped (row.withPushAuth token pushURL) :=
  ⟨h.status, h.created, h.publishing, h.ended⟩

section
variable {s : StreamService} {t : ServerTransition}

/-! ### The requests -/

theorem body_stamps (call : Call) : (s.body call).Every Op.Stamps := by
  cases call with
  | createStream inp req =>
    exact Prog.every_map _ (s.every_createStream (fun _ _ => ⟨rfl, rfl, rfl⟩) (fun _ _ => trivial)
      fun _ _ => trivial)
  | onPublish client now key token =>
    exact Prog.every_map _ (s.every_onPublish trivial trivial (fun _ => .inl ⟨rfl, now, rfl⟩)
      (fun _ => trivial) (fun _ _ => trivial) fun _ _ _ => trivial)
  | onUnpublish client now key =>
    exact Prog.every_map _ (s.every_onUnpublish trivial (fun _ => .inr ⟨rfl, now, rfl⟩)
      (fun _ _ => trivial) (fun _ => trivial) (fun _ _ => trivial) fun _ _ => trivial)
  | _ =>
    refine (s.body_may _).mono fun o ho => ?_
    cases ho <;> trivial

/-! ### Every run -/

def RowsStamped (db : DB) : Prop := ∀ id row, db.streamAt id = some row → Stamped row

theorem rowsStamped_step (hv : s.machine.Valid t)
    (hops : ∀ th ∈ t.before.threads, th.rest.Every Op.Stamps) (h : RowsStamped t.before.world.db) :
    RowsStamped t.after.world.db := by
  apply hv.world (I := fun w => RowsStamped w.db) h
  intro i ch call o k r w hs id row hrow
  have hop : o.Stamps := (hops _ hs.mem).1
  have hchange := (StreamService.steps_streams hs).row id
  clear hs
  cases hchange with
  | kept hat => exact h id row (hat ▸ hrow)
  | created hs' hcol _ _ hat =>
    cases hrow.symm.trans hat
    subst hs'
    exact stamped_columns hcol hop
  | status _ hat =>
    rw [hat] at hrow
    obtain ⟨old, _, rfl⟩ := Option.map_eq_some_iff.mp hrow
    exact stamped_withStatus hop old
  | pushAuth _ hat =>
    rw [hat] at hrow
    obtain ⟨old, hold, rfl⟩ := Option.map_eq_some_iff.mp hrow
    exact (h id old hold).withPushAuth _ _
  | deleted _ hat =>
    rw [hat] at hrow
    cases hrow

/-- **Status and timestamps agree** in every row after every run, whatever is interleaved
and whatever fails. -/
theorem rows_stamped {w : World} {ts : List ServerTransition}
    (hw : ∀ row ∈ w.db.streams.rows, Stamped row) (h : s.machine.Trace (.start w) ts) :
    ∀ row ∈ (Machine.final (.start w) ts).world.db.streams.rows, Stamped row := by
  have hstart : RowsStamped w.db := fun id row hrow => hw row (DB.streamAt_eq_some.mp hrow).1
  have hinv := h.invariant (G := fun _ => True)
    (I := fun c => (∀ th ∈ c.threads, th.rest.Every Op.Stamps) ∧ RowsStamped c.world.db)
    (fun t hv _ hc => ⟨Machine.threads_step (H := fun _ p => p.Every Op.Stamps) body_stamps
      (fun _ _ _ r hp => hp.2 r) hv hc.1, rowsStamped_step hv hc.1 hc.2⟩)
    (fun _ _ => trivial) ⟨fun _ hth => absurd hth List.not_mem_nil, hstart⟩
  intro row hrow
  exact hinv.2 row.id row (DB.streamAt_eq_some.mpr ⟨hrow, rfl⟩)

end

/-- A stream that is created, published and ended, beside a publisher that comes late. -/
theorem rows_stamped_run :
    ∃ ts row, StreamService.sample.machine.Trace (.start .empty) ts ∧
      row ∈ (Machine.final (.start .empty) ts).world.db.streams.rows ∧ row.status = .publishing ∧
      Stamped row := by
  obtain ⟨ts, htr, hP⟩ := Machine.exists_trace StreamService.sample.machine (.start .empty)
    (sampleCreated ++ [.spawn (.onPublish 1 5 sampleKey.val (sampleToken 1)), .step 1 {},
      .spawn (.onUnpublish 1 7 sampleKey.val), .step 2 {}, .step 2 {}, .step 1 {}])
    (fun ts => ((Machine.final (.start .empty) ts).world.db.streamAt sampleID).any
      (·.status = .publishing)) (by decide)
  obtain ⟨row, hrow, hst⟩ := (Option.any_eq_true _ _).mp hP
  have hmem := (DB.streamAt_eq_some.mp hrow).1
  exact ⟨ts, row, htr, hmem, of_decide_eq_true hst,
    rows_stamped (fun _ h => absurd h List.not_mem_nil) htr row hmem⟩

end LiveServer
