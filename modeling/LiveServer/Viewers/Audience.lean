import LiveServer.Viewers.Counter
import Mathlib.Data.Finset.Card

/-! Viewers of successive sessions.

Beside the world a run keeps who is watching: the viewers that came since the counter was
last reset, and the late ones, that came before it and have not left yet. The counter
cannot tell them apart. It is the number of the first as long as a late viewer leaves
only while none of them is there, when the script leaves the counter at zero. -/
namespace LiveServer
open Concurrent

/-- A callback about one stream, from a publisher or a viewer. -/
inductive Callback where
  | publish (client : Nat) (now : Time) (token : Str)
  | unpublish (client : Nat) (now : Time)
  | play (viewer : Nat)
  | stop (viewer : Nat)

def Callback.call (key : Str) : Callback → Call
  | .publish client now token => .onPublish client now key token
  | .unpublish client now => .onUnpublish client now key
  | .play _ => .onPlay key
  | .stop _ => .onStop key

/-- A world with the viewers that are there. -/
structure Audience where
  world : World
  /-- Came since the last reset. -/
  present : Finset Nat
  /-- Came before it. -/
  late : Finset Nat

namespace Audience

/-- A viewer comes before it leaves, and leaves once. `INCR` does not overflow. -/
def Permits (id : Str) (c : Audience) : Callback → Prop
  | .play viewer => viewer ∉ c.present ∪ c.late ∧ c.world.redis.getViewers id ≠ .ok Text.maxInt64
  | .stop viewer => viewer ∈ c.present ∪ c.late
  | _ => True

def after (c : Audience) (w : World) : Callback → Audience
  | .publish .. => { c with world := w }
  | .unpublish .. => ⟨w, ∅, c.present ∪ c.late⟩
  | .play viewer => ⟨w, insert viewer c.present, c.late⟩
  | .stop viewer => ⟨w, c.present.erase viewer, c.late.erase viewer⟩

/-- A late viewer leaves only while no other is there. -/
def InTime (c : Audience) : Callback → Prop
  | .stop viewer => viewer ∈ c.present ∨ c.present = ∅
  | _ => True

end Audience

/-- Callbacks about a stream one after another, nothing failing, from a count of zero. -/
inductive AudienceRun (s : StreamService) (key id : Str) (allowed : Audience → Callback → Prop) :
    Audience → Prop
  | start {w : World} : Steady key id 0 w → AudienceRun s key id allowed ⟨w, ∅, ∅⟩
  | callback {c : Audience} {cb : Callback} {reply : Reply} {w : World} :
      AudienceRun s key id allowed c → c.Permits id cb → allowed c cb →
      Prog.Runs World.perform noFaults (s.body (cb.call key)) c.world reply w →
      AudienceRun s key id allowed (c.after w cb)

section
variable {s : StreamService} {key id : Str} {n : Nat} {w : World} {α β : Type}
  {ok : Op → Choice → Prop} {Q : β → World → Prop}

/-- A command on a stream with a count. -/
theorem wp_steady {o : Op} {f : o.Res → Server β} (ho : o.Spares id) (h : Steady key id n w)
    (hnext : ∀ ch r n' w', ok o ch → World.perform ch o w = (r, w') → CounterChange id n ch.fault o r n' →
      Steady key id n' w' → (f r).wp World.perform ok Q w') :
    (Prog.op o >>= f).wp World.perform ok Q w := by
  intro ch hch
  obtain ⟨n', hchange, hsteady⟩ := perform_steady ch ho h
  exact hnext ch _ n' _ hch rfl hchange hsteady

/-- A program that does not count. -/
theorem wp_idle {p : Server β} (hp : p.Every fun o => o.Spares id ∧ o.counts id = false)
    (h : Steady key id n w) : p.wp World.perform ok (fun _ w' => Steady key id n w') w := by
  induction p generalizing w with
  | done a => exact h
  | call o k ih =>
    refine wp_steady hp.1.1 h fun ch r n' w' _ _ hchange hsteady => ?_
    have hn : n' = n := by
      cases hchange with
      | other _ => rfl
      | _ => exact absurd hp.1.2 (by simp [Op.counts])
    exact ih r (hp.2 r) (hn ▸ hsteady)

/-- The lookup at the start of a callback. -/
theorem wp_lookup {f : Except GoError Stream → Server β} (h : Steady key id n w)
    (hnext : ∀ row w', row.id = id → Steady key id n w' → (f (.ok row)).wp World.perform noFaults Q w') :
    (db.getStreamByKey key >>= f).wp World.perform noFaults Q w := by
  refine wp_steady trivial h fun ch r n' w' hch hans hchange hsteady => ?_
  obtain ⟨row, hrow, hid⟩ := lookup_steady hch h
  rw [hans] at hrow
  cases hrow
  cases hchange with
  | other _ => exact hnext row w' hid hsteady

theorem steady_onPublish {now : Time} {token : Str} (h : Steady key id n w) :
    (s.onPublish now key token).wp World.perform ok (fun _ w' => Steady key id n w') w := by
  refine wp_idle ((s.may_onPublish 0 now key token).mono fun o ho => ?_) h
  cases ho <;> exact ⟨trivial, rfl⟩

theorem steady_onUnpublish (hcache : s.cache = true) {now : Time} (h : Steady key id n w) :
    (s.onUnpublish now key).wp World.perform noFaults (fun _ w' => Steady key id 0 w') w := by
  refine wp_lookup h fun row w₁ hid h₁ => ?_
  subst hid
  refine wp_steady trivial h₁ fun ch r n' w₂ hch hans hchange h₂ => ?_
  cases hchange with
  | other _ =>
    cases r with
    | some e =>
      have huuid := World.perform_updateStreamStatus_some hch (by rw [hans])
      obtain ⟨row', hat, _⟩ := h₁.row
      rw [DB.uuidIn_streamAt hat] at huuid
      cases huuid
    | none =>
      simp only [hcache, if_true]
      refine wp_steady trivial h₂ fun ch r n' w₃ hch _ hchange h₃ => ?_
      cases hchange with
      | other _ =>
        refine wp_steady trivial h₃ fun ch r n' w₄ hch _ hchange h₄ => ?_
        cases hchange with
        | other hno => simp [Op.counts] at hno
        | resetFailed hf => cases hf.symm.trans hch
        | reset =>
          refine wp_idle ?_ h₄
          cases row.startedAt <;> simp [Op.Spares, Op.counts]

/-- `OnPlay` counts one more, where there is room for it. -/
theorem steady_onPlay (hcache : s.cache = true) (hroom : (n : Int) ≠ Text.maxInt64)
    (h : Steady key id n w) :
    (s.onPlay key).wp World.perform noFaults (fun _ w' => Steady key id (n + 1) w') w := by
  unfold StreamService.onPlay StreamService.countViewer
  rw [if_pos hcache]
  refine wp_lookup h fun row w₁ hid h₁ => ?_
  subst hid
  refine wp_steady trivial h₁ fun ch r n' w₂ hch _ hchange h₂ => ?_
  cases hchange with
  | other hno => simp [Op.counts] at hno
  | incrFailed hwhy =>
    rcases hwhy with hf | hmax
    · cases hf.symm.trans hch
    · exact absurd hmax hroom
  | incr => exact wp_idle (by simp [Op.Spares, Op.counts]) h₂

/-- `OnStop` counts one less, unless there is none. -/
theorem steady_onStop (hcache : s.cache = true) (h : Steady key id n w) :
    (s.onStop key).wp World.perform noFaults (fun _ w' => Steady key id (n - 1) w') w := by
  unfold StreamService.onStop StreamService.countViewer
  rw [if_pos hcache]
  refine wp_lookup h fun row w₁ hid h₁ => ?_
  subst hid
  refine wp_steady trivial h₁ fun ch r n' w₂ hch _ hchange h₂ => ?_
  cases hchange with
  | other hno => simp [Op.counts] at hno
  | decrFailed hf => cases hf.symm.trans hch
  | decr => exact wp_idle (by simp [Op.Spares, Op.counts]) h₂

/-- **The counter is the number of viewers that came since the last reset and are still
there**, in every state of a run in which late viewers leave in time. -/
theorem counter_eq_present {c : Audience} (hcache : s.cache = true)
    (h : AudienceRun s key id Audience.InTime c) : c.world.redis.getViewers id = .ok c.present.card := by
  suffices hsteady : Steady key id c.present.card c.world from hsteady.getViewers
  induction h with
  | start h => exact h
  | @callback c cb reply w _ hpermits htime hrun ih =>
    cases cb with
    | publish client now token =>
      obtain ⟨_, _, hrun⟩ := hrun.of_map
      exact hrun.wp (steady_onPublish ih)
    | unpublish client now =>
      obtain ⟨_, _, hrun⟩ := hrun.of_map
      exact hrun.wp (steady_onUnpublish hcache ih)
    | play viewer =>
      obtain ⟨_, _, hrun⟩ := hrun.of_map
      have hnew : viewer ∉ c.present := fun hin => hpermits.1 (Finset.mem_union_left _ hin)
      have hroom : ((c.present.card : Nat) : Int) ≠ Text.maxInt64 := by
        intro hmax
        apply hpermits.2
        rw [ih.getViewers, hmax]
      show Steady key id (insert viewer c.present).card w
      rw [Finset.card_insert_of_notMem hnew]
      exact hrun.wp (steady_onPlay hcache hroom ih)
    | stop viewer =>
      obtain ⟨_, _, hrun⟩ := hrun.of_map
      have hleft := hrun.wp (steady_onStop hcache ih)
      show Steady key id (c.present.erase viewer).card w
      rcases htime with hin | hempty
      · rw [Finset.card_erase_of_mem hin]
        exact hleft
      · rw [hempty] at hleft ⊢
        exact hleft

end

/-! ### A viewer that leaves late -/

/-- The sample server has served a callback. -/
def Audience.serve (cb : Callback) (c : Audience) : Audience :=
  c.after (sampleServe (cb.call sampleKey.val) c.world) cb

section
variable {allowed : Audience → Callback → Prop} {c : Audience}

theorem audienceRun_sample : AudienceRun .sample sampleKey.val sampleID allowed ⟨sampleStream, ∅, ∅⟩ :=
  .start steady_sampleStream

theorem audienceRun_serve (h : AudienceRun .sample sampleKey.val sampleID allowed c) (cb : Callback)
    (hpermits : c.Permits sampleID cb) (hallowed : allowed c cb) :
    AudienceRun .sample sampleKey.val sampleID allowed (c.serve cb) :=
  .callback h hpermits hallowed (Prog.exec_runs _ _ _ fun _ _ => rfl)

end

/-- A viewer stays when the stream goes off, leaves while nobody else is there, and another
one comes. -/
theorem counter_eq_present_late :
    ∃ c, AudienceRun .sample sampleKey.val sampleID Audience.InTime c ∧
      c.world.redis.getViewers sampleID = .ok 1 := by
  have hstart : AudienceRun .sample sampleKey.val sampleID Audience.InTime _ := audienceRun_sample
  have hfirst := audienceRun_serve hstart (.publish 1 5 (sampleToken 1)) trivial trivial
  have hcame := audienceRun_serve hfirst (.play 1) ⟨by decide, by decide⟩ trivial
  have hoff := audienceRun_serve hcame (.unpublish 1 9) trivial trivial
  have hleft := audienceRun_serve hoff (.stop 1) (by decide : 1 ∈ _) (.inr rfl)
  have hnext := audienceRun_serve hleft (.play 2) ⟨by decide, by decide⟩ trivial
  exact ⟨_, hnext, counter_eq_present rfl hnext⟩

/-- One leaves after another has come: the counter says that nobody is there. -/
theorem counter_of_late_stop :
    ∃ c, AudienceRun .sample sampleKey.val sampleID (fun _ _ => True) c ∧
      c.world.redis.getViewers sampleID = .ok 0 ∧ c.present.card = 1 := by
  have hstart : AudienceRun .sample sampleKey.val sampleID (fun _ _ => True) _ := audienceRun_sample
  have hfirst := audienceRun_serve hstart (.publish 1 5 (sampleToken 1)) trivial trivial
  have hcame := audienceRun_serve hfirst (.play 1) ⟨by decide, by decide⟩ trivial
  have hoff := audienceRun_serve hcame (.unpublish 1 9) trivial trivial
  have hon := audienceRun_serve hoff (.publish 2 10 (sampleToken 1)) trivial trivial
  have hnext := audienceRun_serve hon (.play 2) ⟨by decide, by decide⟩ trivial
  have hleft := audienceRun_serve hnext (.stop 1) (by decide : 1 ∈ _) trivial
  exact ⟨_, hleft, by decide, by decide⟩

end LiveServer
