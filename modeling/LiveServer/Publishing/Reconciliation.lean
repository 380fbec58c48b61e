import LiveServer.Alone
import LiveServer.Background
import LiveServer.Publishing.DeletedStream

/-! Startup reconciliation beside the callbacks.

`reconcileStreamMetrics` runs in its own goroutine while SRS callbacks are served already. It
lists the publishing rows once and sets their gauges one after the other, so a stream that ends
in between gets its series back after `OnUnpublish` has deleted it; and two callbacks of one
stream can overtake each other in the same way. When every gauge is written while the row still
says what the gauge will show, a wrong series is one that some call is about to correct, or one
that the listing is still to find. -/
namespace LiveServer
open Concurrent Relational

/-- What runs when the server has started. -/
inductive StartupCall where
  | reconcileStreamMetrics (clock : Str → Time)
  | onPublish (now : Time) (streamKey token : Str)
  | onUnpublish (now : Time) (streamKey : Str)

namespace StreamService
variable (s : StreamService)

def startupBody : StartupCall → Server (Option GoError)
  | .reconcileStreamMetrics clock => (fun _ => none) <$> LiveServer.reconcileStreamMetrics s.cache clock
  | .onPublish now streamKey token => s.onPublish now streamKey token
  | .onUnpublish now streamKey => s.onUnpublish now streamKey

def startup : Machine World Op Op.Res Choice StartupCall (Option GoError) := ⟨World.perform, s.startupBody⟩

/-- The server has come up on these stores: no metric has a value, and the reconciliation is
under way. -/
def started (db : DB) (redis : Redis) (clock : Str → Time) :
    Config World Op Op.Res StartupCall (Option GoError) :=
  ⟨⟨db, redis, .empty⟩,
    [⟨.reconcileStreamMetrics clock, s.startupBody (.reconcileStreamMetrics clock)⟩]⟩

end StreamService

abbrev StartupConfig := Config World Op Op.Res StartupCall (Option GoError)
abbrev StartupTransition := Transition World Op Op.Res Choice StartupCall (Option GoError)

/-- The gauges that only live streams have. -/
def GaugeVec.ofLive : GaugeVec → Bool
  | .liveStreamsActive | .liveStreamBitrateKbps => true
  | _ => false

/-- The stream a call gives such a series to, or takes it from. -/
def Op.shows : Op → Option (Str × Bool)
  | .set g x _ => if g.ofLive then some (x, true) else none
  | .deleteLabelValues g x => if g.ofLive then some (x, false) else none
  | _ => none

/-- A gauge is written while the row says what it will show, and the listing does not fail. -/
def upToDate (t : StartupTransition) : Bool :=
  match t.performed with
  | none => true
  | some p =>
    (p.op.shows.all fun shown => decide (Live t.before.world.db shown.1) = shown.2) &&
      match p.op with
      | .listStreams _ => !p.choice.fault
      | _ => true

/-- The call that makes the series right for a stream that is live, or is not. -/
def Corrects (g : GaugeVec) (x : Str) : Bool → Op → Prop
  | true, o => ∃ v, o = .set g x v
  | false, o => o = .deleteLabelValues g x

/-! ### What the programs owe -/

/-- Calls after which a gauge has to be written. -/
def Op.obliges : Op → Bool
  | .updateStreamStatus .. | .listStreams _ => true
  | _ => false

/-- After a status update the gauges of the stream are owed, after the listing those of every
row that was listed. -/
structure Obliged (e : Prog.Event Op Op.Res) (p : Server α) : Prop where
  update : ∀ u status extra, e = ⟨.updateStreamStatus u status extra, none⟩ → ∀ g, g.ofLive = true →
    p.Owes (Corrects g u (status = .publishing))
  listing : ∀ rows, e = ⟨.listStreams (some .publishing), .ok rows⟩ → ∀ row ∈ rows, ∀ g, g.ofLive = true →
    p.Owes (Corrects g row.id true)

section
variable {s : StreamService}

theorem obliged_other {e : Prog.Event Op Op.Res} {p : Server α} (h : e.op.obliges = false) : Obliged e p := by
  constructor
  · intro u status extra he
    subst he
    cases h
  · intro rows he
    subst he
    cases h

/-- After an update that failed. -/
theorem obliged_failed {u : Str} {status : Status} {extra : StatusExtra} {e : GoError} {p : Server α} :
    Obliged ⟨.updateStreamStatus u status extra, some e⟩ p := by
  constructor
  · intro u' status' extra' he
    cases he
  · intro rows he
    cases he

/-- After one that did not. -/
theorem obliged_updated {u : Str} {status : Status} {extra : StatusExtra} {p : Server α}
    (h : ∀ g, g.ofLive = true → p.Owes (Corrects g u (status = .publishing))) :
    Obliged ⟨.updateStreamStatus u status extra, none⟩ p := by
  constructor
  · intro u' status' extra' he
    cases he
    exact h
  · intro rows he
    cases he

theorem owes_announce (now : Time) (stream : Stream) {g : GaugeVec} (hg : g.ofLive = true) :
    (s.announce now stream).Owes (Corrects g stream.id true) := by
  unfold StreamService.announce
  cases g with
  | liveStreamsActive => split <;> simp [Prog.Owes, Corrects]
  | liveStreamBitrateKbps => split <;> simp [Prog.Owes, Corrects]
  | liveViewersTotal => cases hg
  | streamPublishDuration => cases hg

theorem owes_retire (now : Time) (stream : Stream) {g : GaugeVec} (hg : g.ofLive = true) :
    (s.retire now stream).Owes (Corrects g stream.id false) := by
  unfold StreamService.retire
  cases g with
  | liveStreamsActive => cases stream.startedAt <;> by_cases hcache : s.cache = true <;>
      simp [hcache, Prog.Owes, Corrects]
  | liveStreamBitrateKbps => cases stream.startedAt <;> by_cases hcache : s.cache = true <;>
      simp [hcache, Prog.Owes, Corrects]
  | liveViewersTotal => cases hg
  | streamPublishDuration => cases hg

theorem obliged_onPublish (now : Time) (key token : Str) : (s.onPublish now key token).After Obliged := by
  apply s.after_onPublish (P := fun o => o.obliges = false) (fun _ _ => obliged_other) rfl rfl
    (fun _ => rfl) (fun _ _ => rfl) (fun _ _ _ => rfl)
  · intro id extra e
    exact obliged_failed
  · intro stream extra
    exact obliged_updated fun g hg => owes_announce now stream hg

theorem obliged_onUnpublish (now : Time) (key : Str) : (s.onUnpublish now key).After Obliged := by
  apply s.after_onUnpublish (P := fun o => o.obliges = false) (fun _ _ => obliged_other) rfl
    (fun _ _ => rfl) (fun _ => rfl) (fun _ _ => rfl) (fun _ _ => rfl)
  · intro id extra e
    exact obliged_failed
  · intro stream extra
    exact obliged_updated fun g hg => owes_retire now stream hg

/-- The calls of the reconciliation after its listing. -/
theorem every_restoring {P : Op → Prop} (hset : ∀ g x v, P (.set g x v)) (hviewers : ∀ x, P (.getViewers x))
    (cacheClient : Bool) (clock : Str → Time) (publishing : List Stream) :
    (do
      Prog.forEach (fun row => restoreStream (clock row.id) row) publishing
      if cacheClient then
        Prog.forEach restoreViewers publishing : Server Unit).Every P := by
  apply Prog.every_bind
  · apply Prog.every_forEach
    intro row
    unfold restoreStream
    cases row.startedAt <;> simp [hset]
  · intro _
    split
    · apply Prog.every_forEach
      intro row
      apply Prog.every_op_bind.mpr
      refine ⟨hviewers _, ?_⟩
      rintro (e | count)
      · trivial
      · dsimp only
        split <;> simp [hset]
    · trivial

theorem every_reconcile {P : Op → Prop} (hlist : P (.listStreams (some .publishing)))
    (hset : ∀ g x v, P (.set g x v)) (hviewers : ∀ x, P (.getViewers x)) (cacheClient : Bool)
    (clock : Str → Time) : (reconcileStreamMetrics cacheClient clock).Every P := by
  apply Prog.every_op_bind.mpr
  refine ⟨hlist, ?_⟩
  rintro (e | publishing)
  · trivial
  · exact every_restoring hset hviewers cacheClient clock publishing

theorem owes_restoreStream (now : Time) (row : Stream) {g : GaugeVec} (hg : g.ofLive = true) :
    (restoreStream now row).Owes (Corrects g row.id true) := by
  unfold restoreStream
  cases g with
  | liveStreamsActive => simp [Prog.Owes, Corrects]
  | liveStreamBitrateKbps => simp [Prog.Owes, Corrects]
  | liveViewersTotal => cases hg
  | streamPublishDuration => cases hg

theorem obliged_reconcile (cacheClient : Bool) (clock : Str → Time) :
    (reconcileStreamMetrics cacheClient clock).After Obliged := by
  apply Prog.after_op_bind.mpr
  intro r
  cases r with
  | error e =>
    refine ⟨⟨?_, ?_⟩, trivial⟩
    · intro u status extra he
      cases he
    · intro rows he
      cases he
  | ok publishing =>
    have htail := every_restoring (P := fun o => o.obliges = false) (fun _ _ _ => rfl) (fun _ => rfl)
      cacheClient clock publishing
    refine ⟨⟨?_, ?_⟩, htail.after fun _ _ he _ => obliged_other he⟩
    · intro u status extra he
      cases he
    · intro rows he row hrow g hg
      cases he
      exact Prog.owes_bind (Prog.owes_forEach hrow (owes_restoreStream _ row hg))

theorem startupBody_obliged (call : StartupCall) : (s.startupBody call).After Obliged := by
  cases call with
  | reconcileStreamMetrics clock =>
    apply (obliged_reconcile s.cache clock).map
    intro e p hp
    constructor
    · intro u status extra he g hg
      exact Prog.owes_map _ (hp.update u status extra he g hg)
    · intro rows he row hrow g hg
      exact Prog.owes_map _ (hp.listing rows he row hrow g hg)
  | onPublish now key token => exact obliged_onPublish now key token
  | onUnpublish now key => exact obliged_onUnpublish now key

/-! ### What the calls leave alone -/

/-- Calls that neither make nor delete the row of a stream. -/
def Op.keepsRows : Op → Bool
  | .createStream _ | .deleteStream _ => false
  | _ => true

theorem startupBody_keepsRows (call : StartupCall) : (s.startupBody call).Every (·.keepsRows = true) := by
  cases call with
  | reconcileStreamMetrics clock =>
    apply Prog.every_map
    exact every_reconcile (P := fun o => o.keepsRows = true) rfl (fun _ _ _ => rfl) (fun _ => rfl) s.cache clock
  | onPublish now key token =>
    exact s.every_onPublish rfl rfl (fun _ => rfl) (fun _ => rfl) (fun _ _ => rfl) fun _ _ _ => rfl
  | onUnpublish now key =>
    exact s.every_onUnpublish rfl (fun _ => rfl) (fun _ _ => rfl) (fun _ => rfl) (fun _ _ => rfl) fun _ _ => rfl

theorem startupBody_readFirst (call : StartupCall) : (s.startupBody call).After ReadFirst := by
  cases call with
  | reconcileStreamMetrics clock =>
    have hnone := every_reconcile (P := fun o => o.isStatusUpdate = false) rfl (fun _ _ _ => rfl)
      (fun _ => rfl) s.cache clock
    exact (readFirst_tail (Prog.every_map _ hnone) ⟨.listAllClients, .ok []⟩).2
  | onPublish now key token => exact readFirst_onPublish now key token
  | onUnpublish now key => exact readFirst_onUnpublish now key

theorem startupBody_canonical (call : StartupCall) : Canonical (s.startupBody call) := by
  intro u status extra hp
  cases call with
  | reconcileStreamMetrics clock => cases hp
  | onPublish now key token => cases hp
  | onUnpublish now key => cases hp

/-- A call that is no status update leaves a stream live or not. -/
theorem live_kept {db db' : DB} {o : Op} {r : o.Res} {x : Str} (h : RowChange x db db' o r)
    (hrows : o.keepsRows = true) (ho : o.isStatusUpdate = false) : decide (Live db' x) = decide (Live db x) := by
  simp only [decide_live]
  cases h with
  | kept hat => rw [hat]
  | created => cases hrows
  | status => cases ho
  | pushAuth _ hat =>
    rw [hat, Option.any_map]
    rfl
  | deleted => cases hrows

/-! ### The gauges -/

variable {o : Op} {g : GaugeVec} {x : Str} {b : Bool} {m : Metrics}

theorem Corrects.shows (h : Corrects g x b o) (hg : g.ofLive = true) : o.shows = some (x, b) := by
  cases b with
  | true =>
    obtain ⟨v, rfl⟩ := h
    exact if_pos hg
  | false =>
    subst h
    exact if_pos hg

theorem Corrects.gauge (h : Corrects g x b o) : ((o.records m).gauge g x).isSome = b := by
  cases b with
  | true =>
    obtain ⟨v, rfl⟩ := h
    simp [Op.records, Metrics.set]
  | false =>
    subst h
    simp [Op.records, Metrics.deleteLabelValues]

theorem Corrects.not_update (h : Corrects g x b o) : o.isStatusUpdate = false := by
  cases b with
  | true =>
    obtain ⟨v, rfl⟩ := h
    rfl
  | false =>
    subst h
    rfl

theorem gauge_kept (h : ∀ b, ¬ Corrects g x b o) : (o.records m).gauge g x = m.gauge g x := by
  cases o with
  | set g' x' v =>
    have hne : ¬ (g = g' ∧ x = x') := by
      rintro ⟨rfl, rfl⟩
      exact h true ⟨v, rfl⟩
    exact if_neg hne
  | deleteLabelValues g' x' =>
    have hne : ¬ (g = g' ∧ x = x') := by
      rintro ⟨rfl, rfl⟩
      exact h false rfl
    exact if_neg hne
  | _ => rfl

end

/-! ### The invariant -/

/-- What the threads keep to. -/
structure Underway (c : StartupConfig) : Prop where
  keepsRows : ∀ th ∈ c.threads, th.rest.Every (·.keepsRows = true)
  readFirst : ∀ th ∈ c.threads, th.rest.After ReadFirst
  canonical : ∀ th ∈ c.threads, Canonical th.rest
  obliged : ∀ th ∈ c.threads, th.rest.After Obliged

/-- The series is right, or a call is about to make it right, or the stream is live and the
listing is still to come. -/
def InHand (c : StartupConfig) (g : GaugeVec) (x : Str) : Prop :=
  (c.world.metrics.gauge g x).isSome = decide (Live c.world.db x) ∨
  (∃ th ∈ c.threads, th.rest.Owes (Corrects g x (decide (Live c.world.db x)))) ∨
  decide (Live c.world.db x) = true ∧ ∃ th ∈ c.threads, th.rest.pending = some (.listStreams (some .publishing))

section
variable {s : StreamService} {t : StartupTransition} {g : GaugeVec} {x : Str}

theorem Underway.step (hv : s.startup.Valid t) (h : Underway t.before) : Underway t.after where
  keepsRows := Machine.threads_step 
    (H := fun _ p => p.Every fun o => Op.keepsRows o = true) startupBody_keepsRows
    (fun _ _ _ r hc => hc.2 r) hv h.keepsRows
  readFirst := Machine.after_step startupBody_readFirst hv h.readFirst
  canonical := canonical_step rfl startupBody_canonical hv h.readFirst h.canonical
  obliged := Machine.after_step startupBody_obliged hv h.obliged

theorem InHand.spawns {call : StartupCall} (hv : s.startup.Valid t) (hs : s.startup.Spawns t call)
    (h : InHand t.before g x) : InHand t.after g x := by
  have hworld : t.after.world = t.before.world := by rw [hs.after]
  unfold InHand
  rw [hworld]
  rcases h with h | h | ⟨hlive, th, hth, hp⟩
  · exact .inl h
  · refine .inr (.inl (hv.owes ?_ h))
    intro i call' o ch hperf
    rw [hs.performed] at hperf
    cases hperf
  · exact .inr (.inr ⟨hlive, th, hs.mem_after.mpr (.inl hth), hp⟩)

section
variable {i : Nat} {ch : Choice} {call : StartupCall} {o : Op} {k : o.Res → Server (Option GoError)}
  {r : o.Res} {w : World}

theorem startup_streams (hs : s.startup.Steps t i ch call o k r w) (x : Str) :
    RowChange x t.before.world.db w.db o r := by
  have h := World.perform_streams ch o t.before.world
  rw [show World.perform ch o t.before.world = (r, w) from hs.answer] at h
  exact h.row x

theorem startup_metrics (hs : s.startup.Steps t i ch call o k r w) :
    w.metrics = o.records t.before.world.metrics := by
  have h := World.perform_metrics ch o t.before.world
  rwa [show World.perform ch o t.before.world = (r, w) from hs.answer] at h

/-- A gauge that is written is right. -/
theorem right_of_corrects (hs : s.startup.Steps t i ch call o k r w) (hu : Underway t.before)
    (ht : upToDate t = true) (hg : g.ofLive = true) {b : Bool} (h : Corrects g x b o) :
    (w.metrics.gauge g x).isSome = decide (Live w.db x) := by
  have hlive : decide (Live t.before.world.db x) = b := by
    unfold upToDate at ht
    rw [hs.performed] at ht
    simp only [h.shows hg, Option.all_some, Bool.and_eq_true, decide_eq_true_eq] at ht
    exact ht.1
  rw [live_kept (startup_streams hs x) (hu.keepsRows _ hs.mem).1 h.not_update, hlive, startup_metrics hs]
  exact h.gauge

/-- The listing finds every live stream, so its gauges are owed then. -/
theorem owes_of_listing (hs : s.startup.Steps t i ch call o k r w) (hu : Underway t.before)
    (ht : upToDate t = true) (hg : g.ofLive = true) (ho : o = .listStreams (some .publishing))
    (hlive : decide (Live t.before.world.db x) = true) : (k r).Owes (Corrects g x true) := by
  subst ho
  have hfault : ch.fault = false := by
    unfold upToDate at ht
    rw [hs.performed] at ht
    simpa [Op.shows] using ht
  have hr : r = .ok (t.before.world.db.listStreams (some .publishing)) := by
    have hans : World.perform ch (.listStreams (some .publishing)) t.before.world = (r, w) := hs.answer
    have hread : (World.perform ch (.listStreams (some .publishing)) t.before.world).1 =
        .ok (t.before.world.db.listStreams (some .publishing)) := by
      simp [World.perform, World.answer, World.read, hfault]
    exact (congrArg Prod.fst hans).symm.trans hread
  obtain ⟨row, hrow, hst⟩ := of_decide_eq_true hlive
  obtain ⟨hmem, hid⟩ := DB.streamAt_eq_some.mp hrow
  rw [← hid]
  exact ((hu.obliged _ hs.mem) r).1.listing _ (by rw [hr]) row
    (DB.mem_listStreams.mpr ⟨hmem, hst⟩) g hg

/-- Where the stream stays live or not, and its series is not written. -/
theorem InHand.kept (hv : s.startup.Valid t) (hs : s.startup.Steps t i ch call o k r w)
    (hu : Underway t.before) (ht : upToDate t = true) (hg : g.ofLive = true)
    (hlive : decide (Live w.db x) = decide (Live t.before.world.db x)) (hnot : ∀ b, ¬ Corrects g x b o)
    (h : InHand t.before g x) : InHand t.after g x := by
  have hworld : t.after.world = w := by rw [hs.after]
  unfold InHand
  rw [hworld, hlive]
  rcases h with h | h | ⟨hl, th, hth, hp⟩
  · left
    rw [startup_metrics hs, gauge_kept hnot]
    exact h
  · refine .inr (.inl (hv.owes ?_ h))
    intro j call' o' ch' hperf
    rw [hs.performed] at hperf
    cases hperf
    exact hnot _
  · rcases hs.mem_before hth with rfl | hth
    · -- this is the listing
      have ho : o = .listStreams (some .publishing) := Option.some.inj hp
      refine .inr (.inl ⟨_, hs.moved, ?_⟩)
      rw [hl]
      exact owes_of_listing hs hu ht hg ho hl
    · exact .inr (.inr ⟨hl, th, hth, hp⟩)

/-- A status update that finds its row makes the stream live or not, and owes its gauges. -/
theorem InHand.steps (hv : s.startup.Valid t) (hs : s.startup.Steps t i ch call o k r w)
    (hu : Underway t.before) (ht : upToDate t = true) (hg : g.ofLive = true) (h : InHand t.before g x) :
    InHand t.after g x := by
  have hworld : t.after.world = w := by rw [hs.after]
  by_cases hcor : ∃ b, Corrects g x b o
  · obtain ⟨b, hb⟩ := hcor
    left
    rw [hworld]
    exact right_of_corrects hs hu ht hg hb
  · have hnot (b : Bool) (hb : Corrects g x b o) : False := hcor ⟨b, hb⟩
    by_cases ho : o.isStatusUpdate = true
    · have hkept (hlive : decide (Live w.db x) = decide (Live t.before.world.db x)) : InHand t.after g x :=
        h.kept hv hs hu ht hg hlive hnot
      have hchange := startup_streams hs x
      have hcanon := hu.canonical _ hs.mem
      have howes := hu.obliged _ hs.mem
      have hmoved := hs.moved
      clear hs
      cases hchange with
      | kept hat =>
        apply hkept
        simp only [decide_live]
        rw [hat]
      | created => cases ho
      | pushAuth => cases ho
      | deleted => cases ho
      | @status u st extra hux hat =>
        cases hux.symm.trans (hcanon u st extra rfl)
        cases hrow : t.before.world.db.streamAt x with
        | none =>
          apply hkept
          simp only [decide_live]
          rw [hat, hrow]
          rfl
        | some row =>
          have hlive : decide (Live w.db x) = decide (st = .publishing) := by
            simp only [decide_live]
            rw [hat, hrow]
            rfl
          right
          left
          rw [hworld, hlive]
          exact ⟨_, hmoved, (howes none).1.update x st extra rfl g hg⟩
    · apply h.kept hv hs hu ht hg _ hnot
      exact live_kept (startup_streams hs x) (hu.keepsRows _ hs.mem).1 (Bool.eq_false_iff.mpr ho)

end

theorem InHand.step (hv : s.startup.Valid t) (hu : Underway t.before) (ht : upToDate t = true)
    (hg : g.ofLive = true) (h : InHand t.before g x) : InHand t.after g x := by
  rcases hv.cases with ⟨call, hs⟩ | ⟨i, ch, call, o, k, r, w, hs⟩
  · exact h.spawns hv hs
  · exact h.steps hv hs hu ht hg

/-! ### Whole runs -/

variable {db : DB} {redis : Redis} {clock : Str → Time} {ts : List StartupTransition}

theorem underway_started (s : StreamService) (db : DB) (redis : Redis) (clock : Str → Time) :
    Underway (s.started db redis clock) := by
  constructor
  all_goals
    intro th hth
    rw [List.mem_singleton.mp hth]
  · exact startupBody_keepsRows (s := s) (.reconcileStreamMetrics clock)
  · exact startupBody_readFirst (s := s) (.reconcileStreamMetrics clock)
  · exact startupBody_canonical (s := s) (.reconcileStreamMetrics clock)
  · exact startupBody_obliged (s := s) (.reconcileStreamMetrics clock)

/-- A stream that is live is one the listing will find. -/
theorem inHand_started (s : StreamService) (db : DB) (redis : Redis) (clock : Str → Time)
    (g : GaugeVec) (x : Str) : InHand (s.started db redis clock) g x := by
  cases hlive : decide (Live db x) with
  | true => exact .inr (.inr ⟨hlive, _, List.mem_singleton_self _, rfl⟩)
  | false => exact .inl hlive.symm

/-- Once nobody is in flight nothing is owed and nothing is still to be listed. -/
theorem InHand.right {c : StartupConfig} (h : InHand c g x) (hq : c.Quiescent) :
    (c.world.metrics.gauge g x).isSome = decide (Live c.world.db x) := by
  rcases h with h | ⟨th, hth, howes⟩ | ⟨_, th, hth, hp⟩
  · exact h
  · exact absurd (hq th hth) howes.pending
  · rw [hq th hth] at hp
    cases hp

end

/-- **Reconciliation brings no stream back** in a run of the startup whose gauges are written
while the rows say what they show and whose listing does not fail: once all calls have
returned, the gauges of live streams have a series exactly for the rows that are publishing. -/
theorem reconciled_of_upToDate {s : StreamService} {db : DB} {redis : Redis} {clock : Str → Time}
    {ts : List StartupTransition} (h : s.startup.Trace (s.started db redis clock) ts)
    (hok : ∀ t ∈ ts, upToDate t = true) (hq : (Machine.final (s.started db redis clock) ts).Quiescent)
    (x : Str) :
    let w := (Machine.final (s.started db redis clock) ts).world
    ((w.metrics.gauge .liveStreamsActive x).isSome = true ↔
      ∃ row, w.db.streamAt x = some row ∧ row.status = .publishing) ∧
    ((w.metrics.gauge .liveStreamBitrateKbps x).isSome = true ↔
      ∃ row, w.db.streamAt x = some row ∧ row.status = .publishing) := by
  intro w
  have hinv := h.invariant (I := fun c => Underway c ∧ ∀ g x, GaugeVec.ofLive g = true → InHand c g x)
    (G := fun t => upToDate t = true)
    (fun t hv ht hc => ⟨hc.1.step hv, fun g x hg => (hc.2 g x hg).step hv hc.1 ht hg⟩) hok
    ⟨underway_started s db redis clock, fun g x _ => inHand_started s db redis clock g x⟩
  have hright (g : GaugeVec) (hg : g.ofLive = true) :
      (w.metrics.gauge g x).isSome = decide (Live w.db x) := (hinv.2 g x hg).right hq
  rw [hright .liveStreamsActive rfl, hright .liveStreamBitrateKbps rfl, decide_eq_true_eq]
  exact ⟨Iff.rfl, Iff.rfl⟩

/-- A server that has come up while the sample stream is live. -/
def sampleStarted : StartupConfig :=
  StreamService.sample.started sampleLive.db sampleLive.redis fun _ => 7

/-- The stream ends after its gauges have been restored. -/
theorem reconciled_of_upToDate_run :
    ∃ ts, StreamService.sample.startup.Trace sampleStarted ts ∧ ts.length = 14 ∧
      let w := (Machine.final sampleStarted ts).world
      (w.db.streamAt sampleID).map Stream.status = some .ended ∧
        (w.metrics.gauge .liveStreamsActive sampleID).isSome ≠ true := by
  obtain ⟨ts, htr, hP⟩ := Machine.exists_trace StreamService.sample.startup sampleStarted
    [.step 0 {}, .spawn (.onUnpublish 9 sampleKey.val), .step 1 {}, .step 0 {}, .step 0 {}, .step 1 {},
      .step 1 {}, .step 1 {}, .step 0 {}, .step 1 {}, .step 1 {}, .step 0 {}, .step 1 {}, .step 1 {}]
    (fun ts => ts.length = 14 ∧ (∀ t ∈ ts, upToDate t = true) ∧
      (∀ th ∈ (Machine.final sampleStarted ts).threads, th.rest.pending = none) ∧
      ((Machine.final sampleStarted ts).world.db.streamAt sampleID).map Stream.status = some .ended)
    (by decide)
  simp only [decide_eq_true_eq] at hP
  obtain ⟨hlen, hok, hq, hended⟩ := hP
  refine ⟨ts, htr, hlen, hended, ?_⟩
  intro hsome
  obtain ⟨row, hrow, hst⟩ := (reconciled_of_upToDate htr hok hq sampleID).1.mp hsome
  have hstatus : some row.status = some .ended :=
    (congrArg (Option.map Stream.status) hrow).symm.trans hended
  rw [hst] at hstatus
  cases hstatus

/-- The stream ends between the listing and its gauges: its series come back. -/
theorem ended_stream_restored :
    ∃ ts, StreamService.sample.startup.Trace sampleStarted ts ∧
      (Machine.final sampleStarted ts).Quiescent ∧
      let w := (Machine.final sampleStarted ts).world
      (w.db.streamAt sampleID).map Stream.status = some .ended ∧
        (w.metrics.gauge .liveStreamsActive sampleID).isSome = true ∧
        (w.metrics.gauge .liveStreamBitrateKbps sampleID).isSome = true := by
  obtain ⟨ts, htr, hP⟩ := Machine.exists_trace StreamService.sample.startup sampleStarted
    [.step 0 {}, .spawn (.onUnpublish 9 sampleKey.val), .step 1 {}, .step 1 {}, .step 1 {}, .step 1 {},
      .step 1 {}, .step 1 {}, .step 1 {}, .step 1 {}, .step 0 {}, .step 0 {}, .step 0 {}, .step 0 {}]
    (fun ts => (∀ th ∈ (Machine.final sampleStarted ts).threads, th.rest.pending = none) ∧
      ((Machine.final sampleStarted ts).world.db.streamAt sampleID).map Stream.status = some .ended ∧
      ((Machine.final sampleStarted ts).world.metrics.gauge .liveStreamsActive sampleID).isSome = true ∧
      ((Machine.final sampleStarted ts).world.metrics.gauge .liveStreamBitrateKbps sampleID).isSome = true)
    (by decide)
  simp only [decide_eq_true_eq] at hP
  exact ⟨ts, htr, hP⟩

end LiveServer
