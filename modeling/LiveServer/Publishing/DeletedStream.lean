import LiveServer.Publishing.SinglePublisher

/-! No publisher for a deleted stream.

An update whose row is gone changes nothing and reports no error, so `OnPublish`
returns nil when the stream is deleted between its read and its update, and goes on
to show the stream as publishing in the cache and in the gauge. It cannot happen
when no delete runs between the two: then every accepted update finds its row, and
none is accepted once the row is deleted, since ids are not given twice. -/
namespace LiveServer
open Concurrent Relational

/-- The stream's row is deleted. -/
def deletes (id : Str) (t : ServerTransition) : Bool :=
  match t.performed with
  | some ⟨_, _, .deleteStream u, ch⟩ =>
    uuidIn u = some id && (World.perform ch (.deleteStream u) t.before.world).1 = none &&
      (t.before.world.db.streamAt id).isSome
  | _ => false

/-- A call is about to mark the stream as publishing. -/
def aboutToPublish (id : Str) (p : Server Reply) : Bool :=
  match p.pending with
  | some (.updateStreamStatus u .publishing _) => uuidIn u = some id
  | _ => false

/-- A row is deleted only while no `OnPublish` is between its read of that row and its
update. -/
def deleteWaits (t : ServerTransition) : Bool :=
  match t.performed with
  | some ⟨_, _, .deleteStream u, ch⟩ =>
    (uuidIn u).all fun id =>
      ch.fault || (t.before.world.db.streamAt id).isNone ||
        t.before.threads.all fun th => !aboutToPublish id th.rest
  | _ => true

def Op.isStatusUpdate : Op → Bool
  | .updateStreamStatus .. => true
  | _ => false

/-- A status update comes right after the read of its row. -/
def ReadFirst (e : Prog.Event Op Op.Res) (p : Server α) : Prop :=
  ∀ u status extra, p.pending = some (.updateStreamStatus u status extra) →
    ∃ key row, e = ⟨.getStreamByKey key, .ok row⟩ ∧ u = row.id

/-- A status update names its stream as the database does. -/
def Canonical (p : Server α) : Prop :=
  ∀ u status extra, p.pending = some (.updateStreamStatus u status extra) → uuidIn u = some u

/-- Whoever is about to update a status has just read the row. -/
theorem canonical_step {Call Reply : Type} {M : Machine World Op Op.Res Choice Call Reply}
    {t : Transition World Op Op.Res Choice Call Reply} (hM : M.perform = World.perform)
    (hbody : ∀ call, Canonical (M.body call)) (hv : M.Valid t)
    (hread : ∀ th ∈ t.before.threads, th.rest.After ReadFirst)
    (h : ∀ th ∈ t.before.threads, Canonical th.rest) : ∀ th ∈ t.after.threads, Canonical th.rest := by
  intro th hth u status extra hp
  rcases hv.cases with ⟨call, hs⟩ | ⟨i, ch, call, o, k, r, w, hs⟩
  · rcases hs.mem_after.mp hth with hth | rfl
    · exact h th hth u status extra hp
    · exact hbody call u status extra hp
  · rcases hs.mem_after hth with rfl | hth
    · obtain ⟨key, row, he, rfl⟩ := (hread _ hs.mem r).1 u status extra hp
      have hans := hs.answer
      rw [hM] at hans
      clear hs hp hth
      cases he
      exact DB.uuidIn_streamAt (DB.streamAt_of_streamOf
        (World.perform_getStreamByKey_ok (congrArg Prod.fst hans)))
    · exact h th hth u status extra hp

section
variable {s : StreamService} {t : ServerTransition} {id : Str}

theorem aboutToPublish_eq_true {p : Server Reply} :
    aboutToPublish id p = true ↔
      ∃ u extra, p.pending = some (.updateStreamStatus u .publishing extra) ∧ uuidIn u = some id := by
  unfold aboutToPublish
  constructor
  · intro h
    split at h
    · rename_i u extra hp
      exact ⟨u, extra, hp, by simpa using h⟩
    · cases h
  · intro h
    obtain ⟨u, extra, hp, hu⟩ := h
    rw [hp]
    simpa using hu

/-- A program without status updates has nothing to show. -/
theorem readFirst_tail {p : Server α} (h : p.Every (·.isStatusUpdate = false))
    (e : Prog.Event Op Op.Res) : ReadFirst e p ∧ p.After ReadFirst := by
  refine h.tail (fun e p hp u status extra hpend => ?_) e
  have hnot := hp.pending hpend
  cases hnot

theorem readFirst_onPublish (now : Time) (key token : Str) :
    (s.onPublish now key token).After ReadFirst := by
  refine Prog.after_op_bind.mpr fun r => ?_
  cases r with
  | error e => exact readFirst_tail (by simp [Op.isStatusUpdate]) _
  | ok stream =>
    simp only [StreamService.validatePushToken]
    cases validatePublishToken stream.pushToken token with
    | some e => exact readFirst_tail (by simp [Op.isStatusUpdate]) _
    | none =>
      simp only [Prog.pure_eq, Prog.done_bind]
      split
      · exact readFirst_tail (by simp [Op.isStatusUpdate]) _
      · refine ⟨fun u status extra hp => ?_, Prog.after_op_bind.mpr fun r => ?_⟩
        · cases hp
          exact ⟨key, stream, rfl, rfl⟩
        · refine readFirst_tail ?_ _
          cases r with
          | some e => trivial
          | none =>
            dsimp only
            split <;> simp [Op.isStatusUpdate]

theorem readFirst_onUnpublish (now : Time) (key : Str) : (s.onUnpublish now key).After ReadFirst := by
  refine Prog.after_op_bind.mpr fun r => ?_
  cases r with
  | error e => exact readFirst_tail (by simp) _
  | ok stream =>
    refine ⟨fun u status extra hp => ?_, Prog.after_op_bind.mpr fun r => ?_⟩
    · cases hp
      exact ⟨key, stream, rfl, rfl⟩
    · refine readFirst_tail ?_ _
      cases r with
      | some e => trivial
      | none =>
        dsimp only
        split <;> cases stream.startedAt <;> simp [Op.isStatusUpdate]

theorem readFirst_map {p : Server α} (f : α → Reply) (h : p.After ReadFirst) :
    (f <$> p).After ReadFirst := by
  refine h.map f fun e q hq u status extra hp => hq u status extra ?_
  rwa [Prog.pending_map] at hp

theorem body_readFirst (call : Call) : (s.body call).After ReadFirst := by
  cases call with
  | onPublish client now key token => exact readFirst_map _ (readFirst_onPublish now key token)
  | onUnpublish client now key => exact readFirst_map _ (readFirst_onUnpublish now key)
  | _ =>
    refine (s.body_may _).after fun e p _ hp u status extra hpend => ?_
    have hmay := hp.pending hpend
    cases hmay

/-! ### The row is there -/

/-- Whoever is about to mark the stream as publishing will find its row. -/
def RowAwaits (id : Str) (c : ServerConfig) : Prop :=
  ∀ th ∈ c.threads, aboutToPublish id th.rest = true → ∃ r, c.world.db.streamAt id = some r

/-- A new call has not read anything yet. -/
theorem aboutToPublish_body (call : Call) : aboutToPublish id (s.body call) = false := by
  rw [Bool.eq_false_iff]
  intro hnot
  obtain ⟨u, extra, hp, _⟩ := aboutToPublish_eq_true.mp hnot
  have hmay := (s.body_may call).pending hp
  cases hmay
  cases hp

theorem deletes_cases (h : deletes id t = true) :
    ∃ i call u ch, t.performed = some ⟨i, call, .deleteStream u, ch⟩ ∧ uuidIn u = some id ∧
      (World.perform ch (.deleteStream u) t.before.world).1 = none ∧
      ∃ row, t.before.world.db.streamAt id = some row := by
  unfold deletes at h
  split at h
  · rename_i i call u ch hp
    simp only [Bool.and_eq_true, decide_eq_true_eq, Option.isSome_iff_exists] at h
    exact ⟨i, call, u, ch, hp, h.1.1, h.1.2, h.2⟩
  · cases h

theorem deletes_of_performed {i : Nat} {call : Call} {u : Str} {ch : Choice} {row : Stream}
    (hp : t.performed = some ⟨i, call, .deleteStream u, ch⟩) (hu : uuidIn u = some id)
    (hres : (World.perform ch (.deleteStream u) t.before.world).1 = none)
    (hrow : t.before.world.db.streamAt id = some row) : deletes id t = true := by
  simp [deletes, hp, hu, hres, hrow]

/-- While a row is deleted nobody is about to mark its stream. -/
theorem not_aboutToPublish (hwait : deleteWaits t = true) (hdel : deletes id t = true)
    {th : Thread Op Op.Res Call Reply} (hth : th ∈ t.before.threads) :
    aboutToPublish id th.rest = false := by
  obtain ⟨i, call, u, ch, hp, hu, hres, row, hrow⟩ := deletes_cases hdel
  have hfault : ch.fault = false := World.write_none hres
  unfold deleteWaits at hwait
  rw [hp] at hwait
  simp only [hu, Option.all_some, hfault, hrow, Option.isNone_some, Bool.false_or, List.all_eq_true,
    Bool.not_eq_true'] at hwait
  exact hwait th hth

section
variable {i : Nat} {ch : Choice} {call : Call} {o : Op} {k : o.Res → Server Reply} {r : o.Res}
  {w : World}

/-- A row stays until it is deleted. -/
theorem row_survives (hs : s.machine.Steps t i ch call o k r w) (hdel : deletes id t = false)
    {row : Stream} (hrow : t.before.world.db.streamAt id = some row) :
    ∃ row', w.db.streamAt id = some row' := by
  have hperf := hs.performed
  have hans := StreamService.steps_perform hs
  have hchange := (StreamService.steps_streams hs).row id
  clear hs
  cases hchange with
  | kept hat => exact ⟨row, hat.trans hrow⟩
  | created _ _ _ _ hat => exact ⟨_, hat⟩
  | status _ hat =>
    rw [hrow] at hat
    exact ⟨_, hat⟩
  | pushAuth _ hat =>
    rw [hrow] at hat
    exact ⟨_, hat⟩
  | deleted hu _ =>
    have hdeletes := deletes_of_performed hperf hu (by rw [hans]) hrow
    rw [hdeletes] at hdel
    cases hdel

/-- The call that has just read the row of a stream it will mark. -/
theorem row_read (hs : s.machine.Steps t i ch call o k r w) (hread : (Prog.call o k).After ReadFirst)
    (habout : aboutToPublish id (k r) = true) : ∃ row, w.db.streamAt id = some row := by
  obtain ⟨u, extra, hp, hu⟩ := aboutToPublish_eq_true.mp habout
  obtain ⟨key, row, he, rfl⟩ := (hread r).1 u .publishing extra hp
  have hans := StreamService.steps_perform hs
  have hchange := (StreamService.steps_streams hs).row row.id
  clear hs hread habout hp
  cases he
  have hrow := DB.streamAt_of_streamOf (World.perform_getStreamByKey_ok (congrArg Prod.fst hans))
  have hid : id = row.id := Option.some.inj (hu.symm.trans (DB.uuidIn_streamAt hrow))
  subst hid
  cases hchange with
  | kept hat => exact ⟨row, hat.trans hrow⟩

end

theorem rowAwaits_step (hv : s.machine.Valid t) (hread : ∀ th ∈ t.before.threads, th.rest.After ReadFirst)
    (hwait : deleteWaits t = true) (h : RowAwaits id t.before) : RowAwaits id t.after := by
  intro th hth habout
  rcases hv.cases with ⟨call, hs⟩ | ⟨i, ch, call, o, k, r, w, hs⟩
  · rw [hs.after]
    rcases hs.mem_after.mp hth with hth | rfl
    · exact h th hth habout
    · have hnew := (aboutToPublish_body call).symm.trans habout
      cases hnew
  · rw [hs.after]
    rcases hs.mem_after hth with rfl | hth
    · exact row_read hs (hread _ hs.mem) habout
    · -- another call is waiting, so this step is no delete
      obtain ⟨row, hrow⟩ := h th hth habout
      refine row_survives hs ?_ hrow
      rw [Bool.eq_false_iff]
      intro hdel
      rw [not_aboutToPublish hwait hdel hth] at habout
      cases habout

/-- An accepted update finds its row. -/
theorem row_of_accepts (hv : s.machine.Valid t) (hl : s.Lawful t.before) (h : RowAwaits id t.before)
    (hacc : accepts id t = true) : ∃ r, t.before.world.db.streamAt id = some r := by
  obtain ⟨i, client, now, key, token, u, status, extra, ch, hp, hu, _⟩ := accepts_cases hacc
  obtain ⟨k, r, w, hs⟩ := hv.steps hp
  have hmay := hl.may hs
  have hmem := hs.mem
  clear hs
  cases hmay
  exact h _ hmem (aboutToPublish_eq_true.mpr ⟨u, extra, rfl, hu⟩)

/-! ### A deleted row stays deleted -/

def Gone (id : Str) (db : DB) : Prop := id ∈ db.issued ∧ db.streamAt id = none

theorem gone_of_deletes (hv : s.machine.Valid t) (hdel : deletes id t = true) :
    Gone id t.after.world.db := by
  obtain ⟨i, call, u, ch, hp, hu, hres, row, hrow⟩ := deletes_cases hdel
  obtain ⟨k, r, w, hs⟩ := hv.steps hp
  have hdb := World.perform_deleteStream_none hres
  rw [StreamService.steps_perform hs] at hdb
  obtain ⟨v, hv', hd⟩ := DB.deleteStream_ok hdb
  cases hu.symm.trans hv'
  rw [hs.after]
  exact ⟨by rw [hd.issued]; exact DB.issued_of_streamAt hrow, by rw [hd.streamAt, if_pos rfl]⟩

theorem gone_step (hv : s.machine.Valid t) (h : Gone id t.before.world.db) :
    Gone id t.after.world.db := by
  apply hv.world (I := fun w => Gone id w.db) h
  intro i ch call o k r w hs
  have hchange := StreamService.steps_streams hs
  clear hs
  have hnone := h.2
  refine ⟨hchange.issued h.1, ?_⟩
  cases hchange.row id with
  | kept hat => exact hat.trans hnone
  | created _ _ _ hfresh _ => exact absurd h.1 hfresh
  | status _ hat => simpa [hnone] using hat
  | pushAuth _ hat => simpa [hnone] using hat
  | deleted _ hat => exact hat

/-! ### Whole runs -/

variable {ts : List ServerTransition} {w : World}

/-- What holds of every configuration when deletes wait. -/
structure DeletesWaited (s : StreamService) (c : ServerConfig) : Prop where
  lawful : s.Lawful c
  readFirst : ∀ th ∈ c.threads, th.rest.After ReadFirst
  row : ∀ id, RowAwaits id c

theorem DeletesWaited.step (hv : s.machine.Valid t) (hwait : deleteWaits t = true)
    (h : DeletesWaited s t.before) : DeletesWaited s t.after where
  lawful := h.lawful.step hv
  readFirst := Machine.after_step body_readFirst hv h.readFirst
  row id := rowAwaits_step hv h.readFirst hwait (h.row id)

theorem deletesWaited_start (s : StreamService) (w : World) : DeletesWaited s (.start w) where
  lawful := StreamService.lawful_start w
  readFirst _ h := absurd h List.not_mem_nil
  row _ _ h := absurd h List.not_mem_nil

theorem row_of_accepts_mem (h : s.machine.Trace (.start w) ts) (hwaits : ∀ t ∈ ts, deleteWaits t = true)
    (ht : t ∈ ts) (hacc : accepts id t = true) : ∃ r, t.before.world.db.streamAt id = some r := by
  have hbefore := h.invariant_before (I := DeletesWaited s) (G := fun t => deleteWaits t = true)
    (fun _ hv hwait hc => hc.step hv hwait) hwaits (deletesWaited_start s w) ht
  exact row_of_accepts (h.valid ht) hbefore.lawful (hbefore.row id) hacc

/-- **No publisher for a deleted stream**: where deletes wait, every accepted update
finds its row, so does the one of every call that returned nil, and no call is
accepted for a stream after its row is deleted. -/
theorem no_publisher_for_deleted (h : s.machine.Trace (.start w) ts)
    (hwaits : ∀ t ∈ ts, deleteWaits t = true) :
    (∀ t ∈ ts, ∀ id, accepts id t = true → ∃ r, t.before.world.db.streamAt id = some r) ∧
    (∀ i client now key token, (Machine.final (.start w) ts).threads[i]? =
        some ⟨.onPublish client now key token, .done (.error none)⟩ →
      ∃ t ∈ ts, ∃ id r, accepts id t = true ∧ t.performed.map Performed.index = some i ∧
        t.before.world.db.streamAt id = some r) ∧
    (∀ a t b id, ts = a ++ t :: b → deletes id t = true → ∀ t' ∈ b, accepts id t' = false) := by
  refine ⟨fun t ht id hacc => row_of_accepts_mem h hwaits ht hacc, ?_, ?_⟩
  · intro i client now key token hth
    obtain ⟨t, ht, id, hacc, hi⟩ := accepts_of_returned h hth
    obtain ⟨r, hr⟩ := row_of_accepts_mem h hwaits ht hacc
    exact ⟨t, ht, id, r, hacc, hi, hr⟩
  · intro a t b id hts hdel t' ht'
    subst hts
    obtain ⟨_, _, hv, hb⟩ := Machine.Trace.split h
    have hgone : Gone id t'.before.world.db :=
      hb.invariant_before (I := fun c => Gone id c.world.db) (G := fun _ => True)
        (fun _ hv _ hg => gone_step hv hg) (fun _ _ => trivial) (gone_of_deletes hv hdel) ht'
    rw [Bool.eq_false_iff]
    intro hacc
    obtain ⟨r, hr⟩ := row_of_accepts_mem h hwaits
      (List.mem_append_right a (List.mem_cons_of_mem t ht')) hacc
    rw [hgone.2] at hr
    cases hr

end

/-- A stream that is published and then deleted. -/
theorem no_publisher_for_deleted_run :
    ∃ ts, StreamService.sample.machine.Trace (.start .empty) ts ∧
      (∀ t ∈ ts, deleteWaits t = true) ∧ (∃ t ∈ ts, deletes sampleID t = true) ∧
      ∀ t ∈ ts, accepts sampleID t = true → ∃ r, t.before.world.db.streamAt sampleID = some r := by
  obtain ⟨ts, htr, hP⟩ := Machine.exists_trace StreamService.sample.machine (.start .empty)
    (sampleCreated ++ [.spawn (.onPublish 1 0 sampleKey.val (sampleToken 1)), .step 1 {}, .step 1 {},
      .spawn (.deleteStream sampleID), .step 2 {}, .step 2 {}, .step 2 {}, .step 2 {}])
    (fun ts => (∀ t ∈ ts, deleteWaits t = true) ∧ ∃ t ∈ ts, deletes sampleID t = true) (by decide)
  simp only [decide_eq_true_eq] at hP
  exact ⟨ts, htr, hP.1, hP.2, fun t ht => (no_publisher_for_deleted htr hP.1).1 t ht sampleID⟩

/-- A delete between the read and the update: the call returns nil for a row that is
gone, and cache and gauge show the deleted stream as publishing. -/
theorem publisher_for_deleted :
    ∃ ts, StreamService.sample.machine.Trace (.start .empty) ts ∧
      (∃ t ∈ ts, accepts sampleID t = true ∧ t.before.world.db.streamAt sampleID = none) ∧
      (Machine.final (.start .empty) ts).returned 1 = some (.error none) ∧
      (Machine.final (.start .empty) ts).world.db.streamAt sampleID = none ∧
      (Machine.final (.start .empty) ts).world.redis.getStreamStatus sampleID =
        .ok (some { status := .publishing, bitrate := [], viewers := 0, startedAt := [] }) ∧
      (Machine.final (.start .empty) ts).world.metrics.gauge .liveStreamsActive sampleID =
        some (.count 1) := by
  obtain ⟨ts, htr, hP⟩ := Machine.exists_trace StreamService.sample.machine (.start .empty)
    (sampleCreated ++ [.spawn (.onPublish 1 0 sampleKey.val (sampleToken 1)), .step 1 {},
      .spawn (.deleteStream sampleID), .step 2 {}, .step 2 {}, .step 2 {},
      .step 1 {}, .step 1 {}, .step 1 {}, .step 1 {}, .step 1 {}])
    (fun ts =>
      (∃ t ∈ ts, accepts sampleID t = true ∧ t.before.world.db.streamAt sampleID = none) ∧
      (Machine.final (.start .empty) ts).returned 1 = some (.error none) ∧
      (Machine.final (.start .empty) ts).world.db.streamAt sampleID = none ∧
      (Machine.final (.start .empty) ts).world.redis.getStreamStatus sampleID =
        .ok (some { status := .publishing, bitrate := [], viewers := 0, startedAt := [] }) ∧
      (Machine.final (.start .empty) ts).world.metrics.gauge .liveStreamsActive sampleID =
        some (.count 1)) (by decide)
  simp only [decide_eq_true_eq] at hP
  exact ⟨ts, htr, hP⟩

end LiveServer
