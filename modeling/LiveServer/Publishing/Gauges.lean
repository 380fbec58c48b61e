import LiveServer.Background
import LiveServer.Recorded

/-! The gauges of live streams against the table of streams.

A stream gets its two gauges when its row becomes publishing and loses them when
`OnUnpublish` ends it; a start of the server gives them to every row that is publishing.
`DeleteStream` is the one way out of the status that does not take the gauges along: the
`OnUnpublish` of the publisher it kicked finds no row any more. -/
namespace LiveServer
open Concurrent Relational

/-- The gauges of a live stream. -/
structure Shown (m : Metrics) (x : Str) : Prop where
  active : m.gauge .liveStreamsActive x = some (.count 1)
  bitrate : (m.gauge .liveStreamBitrateKbps x).isSome = true

/-- A stream without them. -/
structure Dark (m : Metrics) (x : Str) : Prop where
  active : m.gauge .liveStreamsActive x = none
  bitrate : m.gauge .liveStreamBitrateKbps x = none

/-- The gauges say of a stream what the table says. -/
def Mirrored (x : Str) (w : World) : Prop :=
  Live w.db x ∧ Shown w.metrics x ∨ ¬ Live w.db x ∧ Dark w.metrics x

/-- The two gauges of a stream are the same. -/
structure SameGauges (m m' : Metrics) (x : Str) : Prop where
  active : m'.gauge .liveStreamsActive x = m.gauge .liveStreamsActive x
  bitrate : m'.gauge .liveStreamBitrateKbps x = m.gauge .liveStreamBitrateKbps x

section
variable {m m' : Metrics} {w w' : World} {x : Str} {db db' : DB} {s : StreamService}
  {ok : Op → Choice → Prop}

theorem SameGauges.refl (m : Metrics) (x : Str) : SameGauges m m x := ⟨rfl, rfl⟩

theorem SameGauges.shown (h : SameGauges m m' x) (hm : Shown m x) : Shown m' x :=
  ⟨h.active.trans hm.active, h.bitrate ▸ hm.bitrate⟩

theorem SameGauges.dark (h : SameGauges m m' x) (hm : Dark m x) : Dark m' x :=
  ⟨h.active.trans hm.active, h.bitrate.trans hm.bitrate⟩

theorem Live.of_streamAt (h : db'.streamAt x = db.streamAt x) : Live db' x ↔ Live db x := by
  unfold Live
  rw [h]

/-- Where neither the row nor the gauges change. -/
theorem Mirrored.kept (h : Mirrored x w) (hlive : Live w'.db x ↔ Live w.db x)
    (hgauges : SameGauges w.metrics w'.metrics x) : Mirrored x w' := by
  rcases h with ⟨hl, hm⟩ | ⟨hl, hm⟩
  · exact .inl ⟨hlive.mpr hl, hgauges.shown hm⟩
  · exact .inr ⟨mt hlive.mp hl, hgauges.dark hm⟩

theorem Mirrored.still (h : Mirrored x w) (hstill : Still w w') : Mirrored x w' := by
  apply h.kept
  · rw [hstill.db]
  · rw [hstill.metrics]
    exact .refl _ _

/-! ### Calls that have no part in it -/

/-- A call that neither moves a row into or out of the status nor touches the gauges. -/
def Op.Gentle : Op → Prop
  | .createStream x => x.status = .created
  | .updateStreamStatus .. => False
  | .deleteStream _ => False
  | .set g _ _ => g ≠ .liveStreamsActive ∧ g ≠ .liveStreamBitrateKbps
  | .deleteLabelValues .. => False
  | _ => True

theorem gentle_gauges {o : Op} (ho : o.Gentle) (m : Metrics) (x : Str) : SameGauges m (o.records m) x := by
  cases o with
  | set g label v =>
    obtain ⟨hactive, hbitrate⟩ := ho
    constructor
    · simp [Op.records, Metrics.set, Ne.symm hactive]
    · simp [Op.records, Metrics.set, Ne.symm hbitrate]
  | deleteLabelValues _ _ => cases ho
  | inc _ _ => exact ⟨rfl, rfl⟩
  | _ => exact .refl _ _

theorem gentle_live {o : Op} (ho : o.Gentle) (ch : Choice) (w : World) (x : Str) :
    Live (World.perform ch o w).2.db x ↔ Live w.db x := by
  have hchange := (World.perform_streams ch o w).row x
  generalize (World.perform ch o w).1 = r at hchange
  cases hchange with
  | kept hat => exact Live.of_streamAt hat
  | created hs hcol _ hfresh hat =>
    have hold : ¬ Live w.db x := fun ⟨_, hrow, _⟩ => hfresh (DB.issued_of_streamAt hrow)
    obtain ⟨_, _, _, _, _, _, _, rfl⟩ := DB.columns_spec hcol
    subst hs
    refine iff_of_false ?_ hold
    rintro ⟨row, hrow, hst⟩
    cases hat.symm.trans hrow
    cases ho.symm.trans hst
  | status _ _ => cases ho
  | pushAuth _ hat =>
    unfold Live
    rw [hat]
    simp [Stream.withPushAuth]
  | deleted _ _ => cases ho

theorem gentle_step {o : Op} (ho : o.Gentle) (ch : Choice) (h : Mirrored x w) :
    Mirrored x (World.perform ch o w).2 := by
  apply h.kept (gentle_live ho ch w x)
  rw [World.perform_metrics]
  exact gentle_gauges ho w.metrics x

theorem wp_gentle {p : Server β} (hp : p.Every Op.Gentle) (h : Mirrored x w) :
    p.wp World.perform ok (fun _ w' => Mirrored x w') w := by
  induction p generalizing w with
  | done a => exact h
  | call o k ih => exact fun ch _ => ih _ (hp.2 _) (gentle_step hp.1 ch h)

/-! ### The requests that have -/

/-- A statement on the status of another row. -/
theorem live_updated {y : Str} {status : Status} {extra : StatusExtra} (hne : x ≠ y)
    (h : db.Updated db' y (Stream.withStatus status extra)) : Live db' x ↔ Live db x := by
  apply Live.of_streamAt
  rw [h.streamAt, if_neg hne]

theorem live_updated_self {row : Stream} {status : Status} {extra : StatusExtra}
    (hrow : db.streamAt row.id = some row)
    (h : db.Updated db' row.id (Stream.withStatus status extra)) :
    Live db' row.id ↔ status = .publishing := by
  unfold Live
  rw [h.streamAt, if_pos rfl, hrow]
  simp [Stream.withStatus]

/-- The row an update by the id of a row is about. -/
theorem updated_row {row : Stream} {status : Status} {extra : StatusExtra}
    (hrow : db.streamAt row.id = some row) (h : db.updateStreamStatus row.id status extra = .ok db') :
    db.Updated db' row.id (Stream.withStatus status extra) := by
  obtain ⟨u, hu, hupd⟩ := DB.updateStreamStatus_ok h
  cases (DB.uuidIn_streamAt hrow).symm.trans hu
  exact hupd

theorem mirrored_onPublish {key token : Str} {r : Option GoError}
    (h : PublishRecords ok w key token r w') (hw : Mirrored x w) : Mirrored x w' := by
  cases h with
  | refused hdb hm =>
    refine hw.kept (by rw [hdb]) ?_
    rw [hm]
    exact ⟨rfl, rfl⟩
  | failed _ hstill => exact hw.still hstill
  | @accepted row _ _ hkey hupd hm =>
    have hrow := DB.streamAt_of_streamOf hkey
    have hupd := updated_row hrow hupd
    by_cases hx : x = row.id
    · subst hx
      refine .inl ⟨(live_updated_self hrow hupd).mpr rfl, ?_⟩
      rw [hm]
      constructor <;> simp [Metrics.set]
    · refine hw.kept (live_updated hx hupd) ?_
      rw [hm]
      constructor <;> simp [Metrics.set, hx]

theorem mirrored_onUnpublish {now : Time} {key : Str} (h : UnpublishRecords ok w now key w')
    (hw : Mirrored x w) : Mirrored x w' := by
  cases h with
  | ignored hstill _ => exact hw.still hstill
  | @ended row _ _ hkey hupd hm =>
    have hrow := DB.streamAt_of_streamOf hkey
    have hupd := updated_row hrow hupd
    by_cases hx : x = row.id
    · subst hx
      have hoff : ¬ Live w'.db row.id := by
        intro hlive
        cases (live_updated_self hrow hupd).mp hlive
      refine .inr ⟨hoff, ?_⟩
      rw [hm]
      constructor <;> simp [endedMetrics, Metrics.deleteLabelValues]
    · refine hw.kept (live_updated hx hupd) ?_
      rw [hm]
      unfold endedMetrics
      cases row.startedAt <;> constructor <;> simp [Metrics.deleteLabelValues, Metrics.set, hx]

/-- The stream a request is to delete is not live. -/
def deletesIdle (db : DB) : Call → Prop
  | .deleteStream id => ∀ u, uuidIn id = some u → ¬ Live db u
  | _ => True

theorem mirrored_deleteStream {id : Str} {r : Option GoError}
    (h : Prog.Runs World.perform ok (s.deleteStream id) w r w') (hidle : deletesIdle w.db (.deleteStream id))
    (hw : Mirrored x w) : Mirrored x w' := by
  have hsilent : (s.deleteStream id).Every fun o => ∀ m, o.records m = m :=
    s.every_deleteStream (fun _ => rfl) (fun _ _ => rfl) (fun _ _ => rfl) (fun _ => rfl) fun _ => rfl
  have hm : w'.metrics = w.metrics := by
    apply h.invariant (I := fun w' => w'.metrics = w.metrics) hsilent _ rfl
    intro o ch w₁ ho hw₁
    rw [World.perform_metrics, ho, hw₁]
  refine hw.kept ?_ (hm ▸ .refl _ _)
  cases h.wp (StreamService.alone_deleteStream id) with
  | kept hfaded => rw [hfaded.db]
  | cleaned _ _ hdb _ =>
    rcases hdb with hdb | hdb
    · rw [hdb]
    · obtain ⟨u, hu, hdel⟩ := DB.deleteStream_ok hdb
      by_cases hx : x = u
      · subst hx
        refine iff_of_false ?_ (hidle x hu)
        rintro ⟨row, hrow, _⟩
        rw [hdel.streamAt, if_pos rfl] at hrow
        cases hrow
      · apply Live.of_streamAt
        rw [hdel.streamAt, if_neg hx]

/-! ### A start of the server -/

/-- While the gauges are being restored: shown if the loop has been there, dark if it is
still to come or has no reason to. -/
structure Restoring (x : Str) (db : DB) (rest : List Stream) (w : World) : Prop where
  same : w.db = db
  live : ∀ row ∈ rest, Live db row.id
  gauges : Live db x ∧ Shown w.metrics x ∨
    Dark w.metrics x ∧ (Live db x → ∃ row ∈ rest, row.id = x)

theorem restoring_next {row : Stream} {rest : List Stream} {clock : Time}
    (h : Restoring x db (row :: rest) w) :
    (restoreStream clock row).wp World.perform ok (fun _ w' => Restoring x db rest w') w := by
  have hrest : ∀ r ∈ rest, Live db r.id := fun r hr => h.live r (List.mem_cons_of_mem row hr)
  have hlive := h.live row List.mem_cons_self
  -- the loop has been at this row: its gauges are set, the others are as they were
  have hdone (w' : World) (hdb : w'.db = w.db) (hself : Shown w'.metrics row.id)
      (hother : x ≠ row.id → SameGauges w.metrics w'.metrics x) : Restoring x db rest w' := by
    refine ⟨hdb.trans h.same, hrest, ?_⟩
    by_cases hx : x = row.id
    · subst hx
      exact .inl ⟨hlive, hself⟩
    · rcases h.gauges with ⟨hl, hm⟩ | ⟨hm, htodo⟩
      · exact .inl ⟨hl, (hother hx).shown hm⟩
      · refine .inr ⟨(hother hx).dark hm, fun hl => ?_⟩
        obtain ⟨r, hr, hid⟩ := htodo hl
        rcases List.mem_cons.mp hr with rfl | hr
        · exact absurd hid.symm hx
        · exact ⟨r, hr, hid⟩
  refine wp_record rfl fun _ w₁ hdb₁ hm₁ => wp_record rfl fun _ w₂ hdb₂ hm₂ => ?_
  have hdb : w₂.db = w.db := hdb₂.trans hdb₁
  rw [hm₁] at hm₂
  cases row.startedAt with
  | none =>
    refine hdone w₂ hdb ?_ fun hx => ?_
    · rw [hm₂]
      constructor <;> simp [Op.records, Metrics.set]
    · rw [hm₂]
      constructor <;> simp [Op.records, Metrics.set, hx]
  | some startedAt =>
    intro ch _
    have hm := World.perform_metrics ch
      (.set .streamPublishDuration row.id (.seconds (clock - startedAt))) w₂
    rw [hm₂] at hm
    refine hdone _ hdb ?_ fun hx => ?_
    · rw [hm]
      constructor <;> simp [Op.records, Metrics.set]
    · rw [hm]
      constructor <;> simp [Op.records, Metrics.set, hx]

theorem gentle_restoreViewers (row : Stream) : (restoreViewers row).Every Op.Gentle := by
  apply Prog.every_op_bind.mpr
  refine ⟨trivial, fun r => ?_⟩
  cases r with
  | error e => trivial
  | ok count =>
    dsimp only
    split <;> simp [Op.Gentle]

/-- A start of the server, on whatever the table holds. -/
theorem wp_reconcile {cacheClient : Bool} {clock : Str → Time} (hw : w.metrics = .empty) :
    (reconcileStreamMetrics cacheClient clock).wp World.perform noFaults (fun _ w' => Mirrored x w') w := by
  refine still_listStreams (fun _ _ hup _ => absurd up_noFaults hup) fun w₁ hstill => ?_
  have hstart : Restoring x w.db (w.db.listStreams (some .publishing)) w₁ := by
    refine ⟨hstill.db, fun row hrow => ?_, .inr ⟨?_, fun ⟨row, hrow, hst⟩ => ?_⟩⟩
    · obtain ⟨hmem, hst⟩ := DB.mem_listStreams.mp hrow
      exact ⟨row, DB.streamAt_eq_some.mpr ⟨hmem, rfl⟩, hst⟩
    · rw [hstill.metrics, hw]
      exact ⟨rfl, rfl⟩
    · obtain ⟨hmem, hid⟩ := DB.streamAt_eq_some.mp hrow
      exact ⟨row, DB.mem_listStreams.mpr ⟨hmem, hst⟩, hid⟩
  refine Prog.wp_bind (Prog.wp_mono (fun _ w₂ hdone => ?_) (Prog.wp_forEach (Restoring x w.db)
    (fun row rest w₂ h => restoring_next h) hstart))
  have hmirrored : Mirrored x w₂ := by
    unfold Mirrored
    rw [hdone.same]
    rcases hdone.gauges with hshown | ⟨hdark, htodo⟩
    · exact .inl hshown
    · refine .inr ⟨fun hlive => ?_, hdark⟩
      obtain ⟨_, hrow, _⟩ := htodo hlive
      cases hrow
  split
  · exact Prog.wp_forEach (fun _ w => Mirrored x w)
      (fun row rest w h => wp_gentle (gentle_restoreViewers row) h) hmirrored
  · exact hmirrored

/-! ### Whole runs -/

/-- The requests that make, end or remove live streams. -/
def onStreams : Call → Prop
  | .createStream .. | .onPublish .. | .onUnpublish .. | .stopStream _ | .deleteStream _ => True
  | _ => False

/-- The states of a server that starts on any database and serves these requests one after
the other, nothing failing, with any number of restarts in between. A start empties the
metrics and restores them. -/
inductive GaugeRun (s : StreamService) (allowed : DB → Call → Prop) : World → Prop
  | start {w w' : World} {clock : Str → Time} :
      Prog.Runs World.perform noFaults (reconcileStreamMetrics s.cache clock)
        { w with metrics := .empty } () w' → GaugeRun s allowed w'
  | restart {w w' : World} {clock : Str → Time} : GaugeRun s allowed w →
      Prog.Runs World.perform noFaults (reconcileStreamMetrics s.cache clock)
        { w with metrics := .empty } () w' → GaugeRun s allowed w'
  | call {call : Call} {w w' : World} {reply : Reply} : GaugeRun s allowed w → onStreams call →
      allowed w.db call → Prog.Runs World.perform noFaults (s.body call) w reply w' →
      GaugeRun s allowed w'

theorem mirrored_call {call : Call} {reply : Reply} (hcall : onStreams call)
    (hidle : deletesIdle w.db call) (h : Prog.Runs World.perform noFaults (s.body call) w reply w')
    (hw : Mirrored x w) : Mirrored x w' := by
  cases call with
  | createStream inp req =>
    obtain ⟨_, _, h⟩ := h.of_map
    exact h.wp (wp_gentle (s.every_createStream (fun _ _ => rfl) (fun _ _ => trivial) fun _ _ => trivial) hw)
  | stopStream id =>
    obtain ⟨_, _, h⟩ := h.of_map
    exact h.wp (wp_gentle (StreamService.every_stopStream trivial (fun _ => trivial) fun _ => trivial) hw)
  | onPublish client now key token =>
    obtain ⟨_, _, h⟩ := h.of_map
    exact mirrored_onPublish (h.wp (StreamService.records_onPublish now key token)) hw
  | onUnpublish client now key =>
    obtain ⟨_, _, h⟩ := h.of_map
    exact mirrored_onUnpublish (h.wp (StreamService.records_onUnpublish now key)) hw
  | deleteStream id =>
    obtain ⟨_, _, h⟩ := h.of_map
    exact mirrored_deleteStream h hidle hw
  | _ => cases hcall

/-- **The gauges of live streams mirror the table of streams** in every state of a run in
which no live stream is deleted. -/
theorem gauges_mirror_table (h : GaugeRun s deletesIdle w) (x : Str) :
    ((w.metrics.gauge .liveStreamsActive x).isSome = true ↔
      ∃ row, w.db.streamAt x = some row ∧ row.status = .publishing) ∧
    ((w.metrics.gauge .liveStreamBitrateKbps x).isSome = true ↔
      ∃ row, w.db.streamAt x = some row ∧ row.status = .publishing) ∧
    ∀ v, w.metrics.gauge .liveStreamsActive x = some v → v = .count 1 := by
  have hmirrored : Mirrored x w := by
    induction h with
    | start h => exact h.wp (wp_reconcile rfl)
    | restart _ h _ => exact h.wp (wp_reconcile rfl)
    | call _ hcall hidle h ih => exact mirrored_call hcall hidle h ih
  rcases hmirrored with ⟨hlive, hm⟩ | ⟨hlive, hm⟩
  · have hlive : (∃ row, w.db.streamAt x = some row ∧ row.status = .publishing) := hlive
    simp [hm.active, hm.bitrate, hlive]
  · have hlive : ¬ (∃ row, w.db.streamAt x = some row ∧ row.status = .publishing) := hlive
    simp only [hm.active, hm.bitrate, hlive]
    simp

end

/-! ### A stream that is deleted while it is on -/

/-- A start of the sample server. -/
def sampleStart (w : World) : World :=
  ((reconcileStreamMetrics true fun _ => 0).exec World.perform (fun _ => {})
    { w with metrics := .empty }).2

section
variable {allowed : DB → Call → Prop} {w : World}

theorem sampleStart_runs (w : World) :
    Prog.Runs World.perform noFaults (reconcileStreamMetrics StreamService.sample.cache fun _ => 0)
      { w with metrics := .empty } () (sampleStart w) :=
  Prog.exec_runs _ _ _ fun _ _ => rfl

theorem gaugeRun_sampleServe (h : GaugeRun .sample allowed w) (call : Call) (hcall : onStreams call)
    (hallowed : allowed w.db call) : GaugeRun .sample allowed (sampleServe call w) :=
  .call h hcall hallowed (Prog.exec_runs _ _ _ fun _ _ => rfl)

end

/-- A stream that is published, and a restart of the server while it is on. -/
theorem gauges_mirror_table_restart :
    ∃ w, GaugeRun .sample deletesIdle w ∧
      (w.metrics.gauge .liveStreamsActive sampleID).isSome = true := by
  have hstart : GaugeRun .sample deletesIdle (sampleStart .empty) := .start (sampleStart_runs .empty)
  have hcreated := gaugeRun_sampleServe hstart (.createStream (.sample 1) {}) trivial trivial
  have hpublished := gaugeRun_sampleServe hcreated (.onPublish 1 5 sampleKey.val (sampleToken 1))
    trivial trivial
  have hrestarted : GaugeRun .sample deletesIdle (sampleStart _) :=
    .restart hpublished (sampleStart_runs _)
  obtain ⟨row, hrow, hst⟩ := (Option.any_eq_true _ _).mp (by decide :
    ((sampleStart (sampleServe (.onPublish 1 5 sampleKey.val (sampleToken 1))
      (sampleServe (.createStream (.sample 1) {}) (sampleStart .empty)))).db.streamAt sampleID).any
        (·.status = .publishing) = true)
  exact ⟨_, hrestarted, (gauges_mirror_table hrestarted sampleID).1.mpr
    ⟨row, hrow, of_decide_eq_true hst⟩⟩

/-- Deleting a stream that is on leaves its gauges behind, also after the late
`OnUnpublish` of its publisher. -/
theorem gauges_left_behind :
    ∃ w, GaugeRun .sample (fun _ _ => True) w ∧ w.db.streamAt sampleID = none ∧
      w.metrics.gauge .liveStreamsActive sampleID = some (.count 1) := by
  have hstart : GaugeRun .sample (fun _ _ => True) (sampleStart .empty) := .start (sampleStart_runs .empty)
  have hcreated := gaugeRun_sampleServe hstart (.createStream (.sample 1) {}) trivial trivial
  have hpublished := gaugeRun_sampleServe hcreated (.onPublish 1 5 sampleKey.val (sampleToken 1))
    trivial trivial
  have hdeleted := gaugeRun_sampleServe hpublished (.deleteStream sampleID) trivial trivial
  have hended := gaugeRun_sampleServe hdeleted (.onUnpublish 1 9 sampleKey.val) trivial trivial
  exact ⟨_, hended, by decide, by decide⟩

end LiveServer
