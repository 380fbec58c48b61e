import LiveServer.Alone

/-! Requests served alone: the table of streams and the metrics.

`Alone.lean` says what a request does to the stores; here it is said together with what
the request records in the metrics, exactly. -/
namespace LiveServer
open Concurrent Relational

/-- Neither the database nor the metrics have changed. -/
structure Still (w w' : World) : Prop where
  db : w'.db = w.db
  metrics : w'.metrics = w.metrics

theorem Still.refl (w : World) : Still w w := ⟨rfl, rfl⟩

theorem Still.trans {w w' w'' : World} (h : Still w w') (h' : Still w' w'') : Still w w'' :=
  ⟨h'.db.trans h.db, h'.metrics.trans h.metrics⟩

/-- Calls that write neither the database nor the metrics. -/
def Op.isStill : Op → Bool
  | .getStreamByID _ | .getStreamByKey _ | .listStreams _ | .getPendingTasks _ | .getTaskByID _
  | .setStreamStatus .. | .getStreamStatus _ | .setPlayURLs .. | .incrViewers _ | .decrViewers _
  | .resetViewers _ | .getViewers _ | .setViewers .. | .deleteStreamCache _ | .findPublishingClient _
  | .listAllClients | .kickClient _ => true
  | _ => false

theorem perform_still {o : Op} (h : o.isStill = true) (ch : Choice) (w : World) :
    Still w (World.perform ch o w).2 := by
  constructor
  · cases o with
    | createStream _ => cases h
    | updateStreamStatus _ _ _ => cases h
    | updateStreamPushAuth _ _ _ => cases h
    | deleteStream _ => cases h
    | updateTaskStatus _ _ _ => cases h
    | assignTask _ _ => cases h
    | _ => simp [World.perform, World.answer]
  · rw [World.perform_metrics]
    cases o with
    | set _ _ _ => cases h
    | deleteLabelValues _ _ => cases h
    | inc _ _ => cases h
    | _ => rfl

section
variable {ok : Op → Choice → Prop} {Q : β → World → Prop} {w : World}

/-! ### Rules -/

theorem wp_still {o : Op} (ho : o.isStill = true) {f : o.Res → Server β}
    (h : ∀ r w', Still w w' → (f r).wp World.perform ok Q w') :
    (Prog.op o >>= f).wp World.perform ok Q w :=
  fun ch _ => h _ _ (perform_still ho ch w)

theorem still_getStreamByKey {key : Str} {f : Except GoError Stream → Server β}
    (herr : ∀ e w', (Up ok → w.db.streamOf key = none) → Still w w' →
      (f (.error e)).wp World.perform ok Q w')
    (hok : ∀ row w', w.db.streamOf key = some row → Still w w' →
      (f (.ok row)).wp World.perform ok Q w') :
    (db.getStreamByKey key >>= f).wp World.perform ok Q w := by
  intro ch hch
  have hstill : Still w (World.perform ch (.getStreamByKey key) w).2 := perform_still rfl ch w
  cases hr : (World.perform ch (.getStreamByKey key) w).1 with
  | error e => exact herr e _ (fun hup => World.perform_getStreamByKey_error (hup _ _ hch) hr) hstill
  | ok row => exact hok row _ (World.perform_getStreamByKey_ok hr) hstill

theorem still_updateStreamStatus {id : Str} {status : Status} {extra : StatusExtra}
    {f : Option GoError → Server β}
    (herr : ∀ e w', (Up ok → uuidIn id = none) → Still w w' → (f (some e)).wp World.perform ok Q w')
    (hok : ∀ w', w.db.updateStreamStatus id status extra = .ok w'.db → w'.metrics = w.metrics →
      (f none).wp World.perform ok Q w') :
    (db.updateStreamStatus id status extra >>= f).wp World.perform ok Q w := by
  intro ch hch
  have hmetrics := World.perform_metrics ch (.updateStreamStatus id status extra) w
  rcases World.write_db (w.expire ch.expired) ch (w.db.updateStreamStatus id status extra) with
    ⟨hne, hdb⟩ | ⟨hnone, hdb⟩
  · obtain ⟨e, he⟩ := Option.ne_none_iff_exists'.mp hne
    have he : (World.perform ch (.updateStreamStatus id status extra) w).1 = some e := he
    have hwhy (hup : Up ok) : uuidIn id = none :=
      World.perform_updateStreamStatus_some (hup _ _ hch) he
    exact he ▸ herr e _ hwhy ⟨hdb, hmetrics⟩
  · exact (show (World.perform ch (.updateStreamStatus id status extra) w).1 = none from hnone) ▸
      hok _ hdb hmetrics

theorem still_listStreams {status : Option Status} {f : Except GoError (List Stream) → Server β}
    (herr : ∀ e w', ¬ Up ok → Still w w' → (f (.error e)).wp World.perform ok Q w')
    (hok : ∀ w', Still w w' → (f (.ok (w.db.listStreams status))).wp World.perform ok Q w') :
    (db.listStreams status >>= f).wp World.perform ok Q w := by
  intro ch hch
  have hstill : Still w (World.perform ch (.listStreams status) w).2 := perform_still rfl ch w
  cases hr : (World.perform ch (.listStreams status) w).1 with
  | error e =>
    refine herr e _ (fun hup => ?_) hstill
    simp only [World.perform, World.answer, World.read, hup _ _ hch] at hr
    cases hr
  | ok streams =>
    have hall : w.db.listStreams status = streams := Except.ok.inj (World.read_ok hr)
    exact hall ▸ hok _ hstill

/-- A record in the metrics. -/
theorem wp_record {o : Op} (ho : o.isQuiet = true) {f : o.Res → Server β}
    (h : ∀ r w', w'.db = w.db → w'.metrics = o.records w.metrics → (f r).wp World.perform ok Q w') :
    (Prog.op o >>= f).wp World.perform ok Q w :=
  fun ch _ => h _ _ (perform_faded ho ch w).db (World.perform_metrics ch o w)

end

/-! ### Requests -/

section
variable (ok : Op → Choice → Prop) (w : World)

/-- `OnPublish` counts a refusal, or fails to write, or writes the row and sets its gauges. -/
inductive PublishRecords (key token : Str) : Option GoError → World → Prop
  | refused {e : GoError} {w' : World} : w'.db = w.db →
      w'.metrics = w.metrics.inc .authFailuresTotal (lit "publish") →
      PublishRecords key token (some e) w'
  | failed {e : GoError} {w' : World} : ¬ Up ok → Still w w' → PublishRecords key token (some e) w'
  | accepted {row : Stream} {extra : StatusExtra} {w' : World} : w.db.streamOf key = some row →
      w.db.updateStreamStatus row.id .publishing extra = .ok w'.db →
      w'.metrics = (w.metrics.set .liveStreamsActive row.id (.count 1)).set .liveStreamBitrateKbps
        row.id (parseBitrateKbps row.bitrate) →
      PublishRecords key token none w'

/-- The metrics when the stream of a row has ended. -/
def endedMetrics (m : Metrics) (now : Time) (row : Stream) : Metrics :=
  let m := match row.startedAt with
    | none => m
    | some startedAt => m.set .streamPublishDuration row.id (.seconds (now - startedAt))
  ((m.deleteLabelValues .liveStreamsActive row.id).deleteLabelValues .liveViewersTotal
    row.id).deleteLabelValues .liveStreamBitrateKbps row.id

/-- `OnUnpublish` finds no row or fails to write, or ends the stream and drops its gauges. -/
inductive UnpublishRecords (now : Time) (key : Str) : World → Prop
  | ignored {w' : World} : Still w w' → (Up ok → w.db.streamOf key = none) → UnpublishRecords now key w'
  | ended {row : Stream} {extra : StatusExtra} {w' : World} : w.db.streamOf key = some row →
      w.db.updateStreamStatus row.id .ended extra = .ok w'.db →
      w'.metrics = endedMetrics w.metrics now row → UnpublishRecords now key w'

end

namespace StreamService
variable {s : StreamService} {ok : Op → Choice → Prop} {w : World}

theorem records_onPublish (now : Time) (key token : Str) :
    (s.onPublish now key token).wp World.perform ok (PublishRecords ok w key token) w := by
  have hrefuse {w₁ : World} (h₁ : Still w w₁) (e : GoError) : (do
      metrics.inc .authFailuresTotal (lit "publish")
      return some e : Server (Option GoError)).wp World.perform ok (PublishRecords ok w key token) w₁ := by
    refine wp_record rfl fun _ w₂ hdb hm => .refused (hdb.trans h₁.db) ?_
    rw [hm, h₁.metrics]
    rfl
  refine still_getStreamByKey (fun e w₁ _ h₁ => ?_) fun row w₁ hrow h₁ => ?_
  · exact hrefuse h₁ _
  · simp only [validatePushToken]
    cases validatePublishToken row.pushToken token with
    | some e => exact hrefuse h₁ e
    | none =>
      simp only [Prog.pure_eq, Prog.done_bind]
      split
      · exact hrefuse h₁ _
      · refine still_updateStreamStatus (fun e w₂ hbad h₂ => ?_) fun w₂ hupd hm₂ => ?_
        · refine .failed (fun hup => ?_) (h₁.trans h₂)
          exact absurd (hbad hup) (DB.uuidIn_of_streamOf hrow)
        · rw [h₁.db] at hupd
          -- what is left writes the status to Redis, if there is one, and the gauges
          have hgauges (w₃ : World) (h₃ : Still w₂ w₃) : (do
              metrics.set .liveStreamsActive row.id (.count 1)
              metrics.set .liveStreamBitrateKbps row.id (parseBitrateKbps row.bitrate)
              return none : Server (Option GoError)).wp World.perform ok
                (PublishRecords ok w key token) w₃ := by
            refine wp_record rfl fun _ w₄ hdb₄ hm₄ => wp_record rfl fun _ w₅ hdb₅ hm₅ => ?_
            refine .accepted hrow (by rw [hupd, hdb₅, hdb₄, h₃.db]) ?_
            rw [hm₅, hm₄, h₃.metrics, hm₂, h₁.metrics]
            rfl
          by_cases hcache : s.cache = true
          · simp only [hcache, if_true]
            exact wp_still rfl fun _ w₃ h₃ => wp_still rfl fun _ w₄ h₄ => hgauges w₄ (h₃.trans h₄)
          · simp only [hcache]
            exact hgauges w₂ (.refl w₂)

theorem records_onUnpublish (now : Time) (key : Str) :
    (s.onUnpublish now key).wp World.perform ok (fun _ => UnpublishRecords ok w now key) w := by
  refine still_getStreamByKey (fun e w₁ hnone h₁ => .ignored h₁ hnone) fun row w₁ hrow h₁ => ?_
  refine still_updateStreamStatus (fun e w₂ hbad h₂ => ?_) fun w₂ hupd hm₂ => ?_
  · refine .ignored (h₁.trans h₂) fun hup => ?_
    exact absurd (hbad hup) (DB.uuidIn_of_streamOf hrow)
  rw [h₁.db] at hupd
  have hstill (w₃ : World) (h₃ : Still w₂ w₃) : (do
      match row.startedAt with
      | none => pure ()
      | some startedAt =>
        metrics.set .streamPublishDuration row.id (.seconds (now - startedAt))
      metrics.deleteLabelValues .liveStreamsActive row.id
      metrics.deleteLabelValues .liveViewersTotal row.id
      metrics.deleteLabelValues .liveStreamBitrateKbps row.id
      return none : Server (Option GoError)).wp World.perform ok
        (fun _ => UnpublishRecords ok w now key) w₃ := by
    have hdb : w.db.updateStreamStatus row.id .ended { endedAt := some (some now) } = .ok w₃.db := by
      rw [hupd, h₃.db]
    have hm : w₃.metrics = w.metrics := by rw [h₃.metrics, hm₂, h₁.metrics]
    cases hstart : row.startedAt with
    | none =>
      refine wp_record rfl fun _ w₄ hdb₄ hm₄ => wp_record rfl fun _ w₅ hdb₅ hm₅ =>
        wp_record rfl fun _ w₆ hdb₆ hm₆ => .ended hrow (by rw [hdb, hdb₆, hdb₅, hdb₄]) ?_
      rw [hm₆, hm₅, hm₄, hm]
      simp only [endedMetrics, hstart, Op.records]
    | some startedAt =>
      refine wp_record rfl fun _ w₄ hdb₄ hm₄ => wp_record rfl fun _ w₅ hdb₅ hm₅ =>
        wp_record rfl fun _ w₆ hdb₆ hm₆ => wp_record rfl fun _ w₇ hdb₇ hm₇ =>
          .ended hrow (by rw [hdb, hdb₇, hdb₆, hdb₅, hdb₄]) ?_
      rw [hm₇, hm₆, hm₅, hm₄, hm]
      simp only [endedMetrics, hstart, Op.records]
  by_cases hcache : s.cache = true
  · simp only [hcache, if_true]
    exact wp_still rfl fun _ w₃ h₃ => wp_still rfl fun _ w₄ h₄ => hstill w₄ (h₃.trans h₄)
  · simp only [hcache]
    exact hstill w₂ (.refl w₂)

end StreamService
end LiveServer
