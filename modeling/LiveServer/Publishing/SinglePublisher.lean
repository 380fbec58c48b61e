import LiveServer.Footprint

/-! One publisher at a time.

`OnPublish` reads the row, looks at its status and later updates it by id alone, so
two callbacks that both read before either writes are both accepted. The update is
safe when the status it checked still holds at the moment it runs: in a run where
every accepting update finds its row and finds it not publishing, any stretch
without an `on_unpublish` write has at most one. -/
namespace LiveServer
open Concurrent Relational

/-- An `OnPublish` call is accepted for the stream: its status update reports no
error, after which nothing can make it fail. -/
def accepts (id : Str) (t : ServerTransition) : Bool :=
  match t.performed with
  | some ⟨_, .onPublish .., .updateStreamStatus u status extra, ch⟩ =>
    uuidIn u = some id &&
      (World.perform ch (.updateStreamStatus u status extra) t.before.world).1 = none
  | _ => false

/-- The status write of an `OnUnpublish` call for the stream. -/
def ends (id : Str) (t : ServerTransition) : Bool :=
  match t.performed with
  | some ⟨_, .onUnpublish .., .updateStreamStatus u status extra, ch⟩ =>
    uuidIn u = some id &&
      (World.perform ch (.updateStreamStatus u status extra) t.before.world).1 = none
  | _ => false

/-- Between two `on_unpublish` writes at most one call is accepted. -/
def SinglePublisher (id : Str) (ts : List ServerTransition) : Prop :=
  ∀ a seg b, ts = a ++ seg ++ b → (∀ t ∈ seg, ends id t = false) → seg.countP (accepts id) ≤ 1

/-- What `OnPublish` checked still holds when its update runs, unless the database fails. -/
def checkHolds (id : Str) (t : ServerTransition) : Bool :=
  match t.performed with
  | some ⟨_, .onPublish .., .updateStreamStatus u _ _, ch⟩ =>
    uuidIn u ≠ some id || ch.fault ||
      (t.before.world.db.streamAt id).any (·.status ≠ .publishing)
  | _ => true

/-- The stream is publishing, or deleted: no update of it passes `checkHolds`. -/
def Held (id : Str) (db : DB) : Prop :=
  id ∈ db.issued ∧ ∀ r, db.streamAt id = some r → r.status = .publishing

section
variable {s : StreamService} {t : ServerTransition} {id : Str}

theorem accepts_cases (h : accepts id t = true) :
    ∃ i client now key token u status extra ch,
      t.performed = some ⟨i, .onPublish client now key token, .updateStreamStatus u status extra, ch⟩ ∧
      uuidIn u = some id ∧
      (World.perform ch (.updateStreamStatus u status extra) t.before.world).1 = none := by
  unfold accepts at h
  split at h
  · rename_i hp
    simp only [Bool.and_eq_true, decide_eq_true_eq] at h
    exact ⟨_, _, _, _, _, _, _, _, _, hp, h⟩
  · cases h

/-- An accepted update finds the row it was checked for. -/
theorem row_of_checkHolds (h : checkHolds id t = true) (hacc : accepts id t = true) :
    ∃ r, t.before.world.db.streamAt id = some r ∧ r.status ≠ .publishing := by
  obtain ⟨i, client, now, key, token, u, status, extra, ch, hp, hu, hres⟩ := accepts_cases hacc
  have hfault : ch.fault = false := World.write_none hres
  unfold checkHolds at h
  rw [hp] at h
  simpa [hu, hfault, Option.any_eq_true] using h

theorem accepts_of_performed (id : Str) {i client : Nat} {now : Time} {key token u : Str}
    {status : Status} {extra : StatusExtra} {ch : Choice}
    (hp : t.performed = some ⟨i, .onPublish client now key token, .updateStreamStatus u status extra, ch⟩) :
    accepts id t = true ↔ uuidIn u = some id ∧
      (World.perform ch (.updateStreamStatus u status extra) t.before.world).1 = none := by
  simp [accepts, hp]

theorem ends_of_performed (id : Str) {i client : Nat} {now : Time} {key u : Str}
    {status : Status} {extra : StatusExtra} {ch : Choice}
    (hp : t.performed = some ⟨i, .onUnpublish client now key, .updateStreamStatus u status extra, ch⟩) :
    ends id t = true ↔ uuidIn u = some id ∧
      (World.perform ch (.updateStreamStatus u status extra) t.before.world).1 = none := by
  simp [ends, hp]

/-- A stream that is held stays so until an `on_unpublish` write. -/
theorem held_step (hv : s.machine.Valid t) (hl : s.Lawful t.before) (hend : ends id t = false)
    (h : Held id t.before.world.db) : Held id t.after.world.db := by
  apply hv.world (I := fun w => Held id w.db) h
  intro i ch call o k r w hs
  have hmay := hl.may hs
  have hperf := hs.performed
  have hans := StreamService.steps_perform hs
  have hchange := StreamService.steps_streams hs
  clear hs
  refine ⟨hchange.issued h.1, fun r hr => ?_⟩
  cases hchange.row id with
  | kept hat => exact h.2 r (hat ▸ hr)
  | created _ _ _ hfresh _ => exact absurd h.1 hfresh
  | status hu hat =>
    rw [hat] at hr
    obtain ⟨r₀, _, rfl⟩ := Option.map_eq_some_iff.mp hr
    cases hmay with
    | publish => rfl
    | unpublish =>
      have hends := (ends_of_performed id hperf).mpr ⟨hu, by rw [hans]⟩
      rw [hends] at hend
      cases hend
  | pushAuth _ hat =>
    rw [hat] at hr
    obtain ⟨r₀, hr₀, rfl⟩ := Option.map_eq_some_iff.mp hr
    exact h.2 r₀ hr₀
  | deleted _ hat =>
    rw [hat] at hr
    cases hr

/-- An accepted update of a row that was there leaves the stream held. -/
theorem held_of_accepts (hv : s.machine.Valid t) (hl : s.Lawful t.before) {r₀ : Stream}
    (hr₀ : t.before.world.db.streamAt id = some r₀) (h : accepts id t = true) :
    Held id t.after.world.db := by
  obtain ⟨i, client, now, key, token, u, st, extra, ch, hp, hu, hres⟩ := accepts_cases h
  obtain ⟨k, r, w, hs⟩ := hv.steps hp
  have hst : st = .publishing := by
    cases hl.may hs
    rfl
  have hw := World.perform_updateStreamStatus_none hres
  rw [StreamService.steps_perform hs] at hw
  obtain ⟨v, hv', hupd⟩ := DB.updateStreamStatus_ok hw
  cases hu.symm.trans hv'
  rw [hs.after]
  refine ⟨by rw [hupd.issued]; exact DB.issued_of_streamAt hr₀, fun r hr => ?_⟩
  rw [hupd.streamAt, if_pos rfl, hr₀] at hr
  cases hr
  exact hst

/-- `OnPublish` returns nil only after a status update without error. -/
theorem onPublish_requires (client : Nat) (now : Time) (key token : Str) :
    (s.body (.onPublish client now key token)).Requires (· = .error none)
      (fun e => ∃ u extra, e = ⟨.updateStreamStatus u .publishing extra, none⟩) := by
  refine Prog.requires_map _ (Prog.requires_op_bind.mpr ?_)
  rintro (e | stream)
  · right
    simp [Prog.Requires]
  · right
    simp only [StreamService.validatePushToken]
    cases validatePublishToken stream.pushToken token with
    | some e => simp [Prog.Requires]
    | none =>
      simp only [Prog.pure_eq, Prog.done_bind]
      split
      · simp [Prog.Requires]
      · refine Prog.requires_op_bind.mpr ?_
        rintro (_ | e)
        · exact .inl ⟨_, _, rfl⟩
        · right
          simp

variable {c : ServerConfig} {ts : List ServerTransition}

/-- While a stream is held no further call is accepted. -/
theorem countP_accepts_of_held (h : s.machine.Trace c ts) (hl : s.Lawful c)
    (hends : ∀ t ∈ ts, ends id t = false) (hchecks : ∀ t ∈ ts, checkHolds id t = true)
    (hheld : Held id c.world.db) : ts.countP (accepts id) = 0 := by
  induction ts generalizing c with
  | nil => rfl
  | cons t rest ih =>
    obtain ⟨rfl, hv, hrest⟩ := h
    have hnot : accepts id t = false := by
      rw [Bool.eq_false_iff]
      intro hacc
      obtain ⟨r, hr, hst⟩ := row_of_checkHolds (hchecks t List.mem_cons_self) hacc
      exact hst (hheld.2 r hr)
    rw [List.countP_cons, hnot, ih hrest (hl.step hv) (fun u hu => hends u (List.mem_cons_of_mem t hu))
      (fun u hu => hchecks u (List.mem_cons_of_mem t hu))
      (held_step hv hl (hends t List.mem_cons_self) hheld)]
    simp

/-- In a stretch without an `on_unpublish` write at most one call is accepted. -/
theorem countP_accepts_le_one (h : s.machine.Trace c ts) (hl : s.Lawful c)
    (hends : ∀ t ∈ ts, ends id t = false) (hchecks : ∀ t ∈ ts, checkHolds id t = true) :
    ts.countP (accepts id) ≤ 1 := by
  induction ts generalizing c with
  | nil => exact Nat.zero_le 1
  | cons t rest ih =>
    obtain ⟨rfl, hv, hrest⟩ := h
    have hends' : ∀ u ∈ rest, ends id u = false := fun u hu => hends u (List.mem_cons_of_mem t hu)
    have hchecks' : ∀ u ∈ rest, checkHolds id u = true := fun u hu => hchecks u (List.mem_cons_of_mem t hu)
    rw [List.countP_cons]
    by_cases hacc : accepts id t = true
    · -- the first accepted call: from here on the stream is held
      obtain ⟨r, hr, _⟩ := row_of_checkHolds (hchecks t List.mem_cons_self) hacc
      rw [countP_accepts_of_held hrest (hl.step hv) hends' hchecks' (held_of_accepts hv hl hr hacc)]
      simp [hacc]
    · rw [if_neg hacc]
      exact ih hrest (hl.step hv) hends' hchecks'

/-- A call that returned nil was accepted in the run, for some stream. -/
theorem accepts_of_returned {i client : Nat} {now : Time} {key token : Str} {w : World}
    (h : s.machine.Trace (.start w) ts)
    (hth : (Machine.final (.start w) ts).threads[i]? =
      some ⟨.onPublish client now key token, .done (.error none)⟩) :
    ∃ t ∈ ts, ∃ id, accepts id t = true ∧ t.performed.map Performed.index = some i := by
  obtain ⟨t, ht, o, ch, r, hp, hr, u, extra, he⟩ :=
    h.performed_of_returned (Nat.zero_le i) hth (onPublish_requires client now key token) rfl
  cases he
  obtain ⟨id, hu, _⟩ := DB.updateStreamStatus_ok (World.perform_updateStreamStatus_none hr)
  exact ⟨t, ht, id, (accepts_of_performed id hp).mpr ⟨hu, hr⟩, by rw [hp]; rfl⟩

/-- **Single publisher**: where every accepting update finds what was checked, calls
that return nil are accepted in the run, and at most one between two `on_unpublish`
writes. -/
theorem single_publisher {w : World} (h : s.machine.Trace (.start w) ts)
    (hchecks : ∀ t ∈ ts, checkHolds id t = true) :
    SinglePublisher id ts ∧
      ∀ i client now key token, (Machine.final (.start w) ts).threads[i]? =
          some ⟨.onPublish client now key token, .done (.error none)⟩ →
        ∃ t ∈ ts, ∃ id', accepts id' t = true ∧ t.performed.map Performed.index = some i := by
  refine ⟨fun a seg b hts hends => ?_, fun i client now key token hth => accepts_of_returned h hth⟩
  subst hts
  obtain ⟨hpre, _⟩ := (Machine.trace_append (a ++ seg) b).mp h
  obtain ⟨ha, hseg⟩ := (Machine.trace_append a seg).mp hpre
  refine countP_accepts_le_one hseg ((StreamService.lawful_start w).final ha) hends fun t ht => ?_
  exact hchecks t (List.mem_append_left _ (List.mem_append_right _ ht))

end

/-- A callback passes the check, a second one that comes while the first is still caching does
not, and after an `on_unpublish` a third one does. -/
theorem single_publisher_sample :
    ∃ ts, StreamService.sample.machine.Trace (.start .empty) ts ∧
      (∀ t ∈ ts, checkHolds sampleID t = true) ∧ ts.countP (accepts sampleID) = 2 ∧
      ts.countP (ends sampleID) = 1 ∧
      (Machine.final (.start .empty) ts).returned 1 = some (.error none) ∧
      (Machine.final (.start .empty) ts).returned 2 = some (.error (some (.text "stream is already publishing"))) ∧
      (Machine.final (.start .empty) ts).returned 4 = some (.error none) ∧
      SinglePublisher sampleID ts := by
  obtain ⟨ts, htr, hP⟩ := Machine.exists_trace StreamService.sample.machine (.start .empty)
    (sampleCreated ++ [.spawn (.onPublish 1 0 sampleKey.val (sampleToken 1)),
      .spawn (.onPublish 2 0 sampleKey.val (sampleToken 1)), .step 1 {}, .step 1 {}, .step 2 {}, .step 2 {},
      .step 1 {}, .step 1 {}, .step 1 {}, .step 1 {},
      .spawn (.onUnpublish 1 0 sampleKey.val), .step 3 {}, .step 3 {}, .step 3 {}, .step 3 {}, .step 3 {}, .step 3 {},
      .step 3 {}, .step 3 {},
      .spawn (.onPublish 4 0 sampleKey.val (sampleToken 1)), .step 4 {},
      .step 4 {}, .step 4 {}, .step 4 {}, .step 4 {}, .step 4 {}])
    (fun ts => (∀ t ∈ ts, checkHolds sampleID t = true) ∧ ts.countP (accepts sampleID) = 2 ∧
      ts.countP (ends sampleID) = 1 ∧
      (Machine.final (.start .empty) ts).returned 1 = some (.error none) ∧
      (Machine.final (.start .empty) ts).returned 2 = some (.error (some (.text "stream is already publishing"))) ∧
      (Machine.final (.start .empty) ts).returned 4 = some (.error none)) (by decide +kernel)
  simp only [decide_eq_true_eq] at hP
  obtain ⟨hchecks, haccepted, hended, hfirst, hsecond, hthird⟩ := hP
  exact ⟨ts, htr, hchecks, haccepted, hended, hfirst, hsecond, hthird, (single_publisher htr hchecks).1⟩

/-- Two callbacks that both read the row before either writes both return nil. -/
theorem two_publishers :
    ∃ ts, StreamService.sample.machine.Trace (.start .empty) ts ∧ ¬ SinglePublisher sampleID ts ∧
      (Machine.final (.start .empty) ts).returned 1 = some (.error none) ∧
      (Machine.final (.start .empty) ts).returned 2 = some (.error none) := by
  obtain ⟨ts, htr, hP⟩ := Machine.exists_trace StreamService.sample.machine (.start .empty)
    (sampleCreated ++ [.spawn (.onPublish 1 0 sampleKey.val (sampleToken 1)),
      .spawn (.onPublish 2 0 sampleKey.val (sampleToken 1)),
      .step 1 {}, .step 2 {}, .step 1 {}, .step 2 {},
      .step 1 {}, .step 1 {}, .step 1 {}, .step 1 {}, .step 2 {}, .step 2 {}, .step 2 {}, .step 2 {}])
    (fun ts => (∀ t ∈ ts, ends sampleID t = false) ∧ ts.countP (accepts sampleID) = 2 ∧
      (Machine.final (.start .empty) ts).returned 1 = some (.error none) ∧
      (Machine.final (.start .empty) ts).returned 2 = some (.error none)) (by decide)
  simp only [decide_eq_true_eq] at hP
  obtain ⟨hends, hcount, h1, h2⟩ := hP
  refine ⟨ts, htr, fun h => ?_, h1, h2⟩
  have := h [] ts [] (by simp) hends
  omega

end LiveServer
