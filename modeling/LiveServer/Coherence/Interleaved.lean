import LiveServer.Publishing.DeletedStream

/-! Cache and database under interleaving.

Every operation writes the database first and Redis in a later step (`DeleteStream`
the other way round), so another call can come between the two: a cache write that
is overtaken leaves a stale status, one that comes after a delete leaves the keys of
a stream that is gone. When every cache write runs while its row still says what it
writes, and outside the gap of a delete, no entry is wrong for longer than until the
call that made it wrong has written its own: `CacheInv`. Once no call is in flight
nothing is owed, and the stores agree. -/
namespace LiveServer
open Concurrent Relational

/-- Cached statuses are the rows' and every key has a row. -/
structure Coherent (w : World) : Prop where
  status : ∀ id e, w.redis (statusKey id) = some e →
    ∃ d row, e.value = .status d ∧ w.db.streamAt id = some row ∧ d.status = row.status
  row : ∀ id, w.redis.entries id ≠ .empty → ∃ row, w.db.streamAt id = some row

/-- A call is between its cleanup of the stream's keys and its delete of the row. -/
def aboutToDelete (id : Str) (p : Server Reply) : Bool :=
  match p.pending with
  | some (.deleteStream u) => uuidIn u = some id
  | _ => false

/-- The stream has its row and no delete of it is under way. -/
def settled (id : Str) (c : ServerConfig) : Bool :=
  (c.world.db.streamAt id).isSome && c.threads.all fun th => !aboutToDelete id th.rest

/-- A cache write runs while its stream is settled, a status write while the row has
that status, and a cleanup names the stream as the database does. -/
def timely (t : ServerTransition) : Bool :=
  match t.performed with
  | none => true
  | some p =>
    (p.op.caches.all fun id => settled id t.before) &&
      match p.op with
      | .setStreamStatus id d => (t.before.world.db.streamAt id).all (·.status = d.status)
      | .deleteStreamCache id => uuidIn id = some id
      | _ => true

/-- Neither backend fails. -/
def faultless (t : ServerTransition) : Bool :=
  match t.performed with
  | some p => !p.choice.fault
  | none => true

/-- A write of that status to the cache. -/
def WritesStatus (id : Str) (status : Status) (o : Op) : Prop :=
  ∃ d, o = .setStreamStatus id d ∧ d.status = status

/-! ### What the programs do around their writes -/

/-- After a status update its cache write is owed. -/
def Owed (e : Prog.Event Op Op.Res) (p : Server α) : Prop :=
  ∀ u status extra, e = ⟨.updateStreamStatus u status extra, none⟩ → p.Owes (WritesStatus u status)

def Op.isDelete : Op → Bool
  | .deleteStream _ => true
  | _ => false

/-- A row is deleted right after its keys. -/
def CleanFirst (e : Prog.Event Op Op.Res) (p : Server α) : Prop :=
  ∀ u, p.pending = some (.deleteStream u) → ∃ r, e = ⟨.deleteStreamCache u, r⟩

section
variable {s : StreamService} {t : ServerTransition} {id : Str}

theorem owed_other {e : Prog.Event Op Op.Res} {p : Server α} (he : e.op.isStatusUpdate = false) :
    Owed e p := by
  intro u status extra heq
  cases heq
  cases he

theorem owed_onPublish (hcache : s.cache = true) (now : Time) (key token : Str) :
    (s.onPublish now key token).After Owed := by
  apply s.after_onPublish (P := fun o => o.isStatusUpdate = false) (fun _ _ => owed_other) rfl rfl
    (fun _ => rfl) (fun _ _ => rfl) (fun _ _ _ => rfl)
  · intro id extra e u status extra' he
    cases he
  · intro stream extra u status extra' he
    cases he
    unfold StreamService.announce
    rw [if_pos hcache]
    -- the viewer count is read first, then the status is written
    exact .inr fun n => .inl ⟨_, rfl, rfl⟩

theorem owed_onUnpublish (hcache : s.cache = true) (now : Time) (key : Str) :
    (s.onUnpublish now key).After Owed := by
  apply s.after_onUnpublish (P := fun o => o.isStatusUpdate = false) (fun _ _ => owed_other) rfl
    (fun _ _ => rfl) (fun _ => rfl) (fun _ _ => rfl) (fun _ _ => rfl)
  · intro id extra e u status extra' he
    cases he
  · intro stream extra u status extra' he
    cases he
    unfold StreamService.retire
    rw [if_pos hcache]
    exact .inl ⟨_, rfl, rfl⟩

theorem owed_map {p : Server α} (f : α → Reply) (h : p.After Owed) : (f <$> p).After Owed :=
  h.map f fun _ _ hq u status extra he => Prog.owes_map f (hq u status extra he)

theorem body_owed (hcache : s.cache = true) (call : Call) : (s.body call).After Owed := by
  cases call with
  | onPublish client now key token => exact owed_map _ (owed_onPublish hcache now key token)
  | onUnpublish client now key => exact owed_map _ (owed_onUnpublish hcache now key)
  | _ =>
    refine (s.body_may _).after fun e p he _ u status extra heq => ?_
    cases heq
    cases he

/-- A program that is not about to delete. -/
theorem cleanFirst_tail {p : Server α} (h : p.Every (·.isDelete = false)) (e : Prog.Event Op Op.Res) :
    CleanFirst e p ∧ p.After CleanFirst := by
  refine h.tail (fun e p hp u hpend => ?_) e
  have hnot := hp.pending hpend
  cases hnot

/-- The end of `DeleteStream`. -/
theorem cleanFirst_cleanup (id : Str) (e : Prog.Event Op Op.Res) :
    CleanFirst e (cache.deleteStreamCache id >>= fun _ => db.deleteStream id) ∧
      (cache.deleteStreamCache id >>= fun _ => db.deleteStream id).After CleanFirst := by
  refine ⟨fun u hp => (by cases hp), Prog.after_op_bind.mpr fun r => ⟨fun u hp => ?_, fun r => ?_⟩⟩
  · cases hp
    exact ⟨r, rfl⟩
  · exact ⟨fun u hp => (by cases hp), trivial⟩

theorem cleanFirst_deleteStream (hcache : s.cache = true) (id : Str) :
    (s.deleteStream id).After CleanFirst := by
  refine Prog.after_op_bind.mpr fun r => ?_
  cases r with
  | error e => exact cleanFirst_tail (by simp) _
  | ok stream =>
    simp only [hcache, if_true]
    split
    · simp only [StreamService.stopPublishing]
      refine ⟨fun u hp => (by cases hp), Prog.after_op_bind.mpr fun r => ?_⟩
      rcases r with e | _ | client
      · exact cleanFirst_cleanup id _
      · exact cleanFirst_cleanup id _
      · exact ⟨fun u hp => (by cases hp), Prog.after_op_bind.mpr fun r => cleanFirst_cleanup id _⟩
    · exact cleanFirst_cleanup id _

theorem body_cleanFirst (hcache : s.cache = true) (call : Call) : (s.body call).After CleanFirst := by
  cases call with
  | deleteStream id =>
    refine (cleanFirst_deleteStream hcache id).map _ fun e q hq u hp => hq u ?_
    rwa [Prog.pending_map] at hp
  | _ =>
    refine (s.body_may _).after fun e p _ hp u hpend => ?_
    have hmay := hp.pending hpend
    cases hmay

/-! ### The invariant -/

/-- What the threads of a run keep to. -/
structure Obedient (s : StreamService) (c : ServerConfig) : Prop where
  lawful : s.Lawful c
  readFirst : ∀ th ∈ c.threads, th.rest.After ReadFirst
  owed : ∀ th ∈ c.threads, th.rest.After Owed
  cleanFirst : ∀ th ∈ c.threads, th.rest.After CleanFirst
  /-- A status update names its stream as the database does. -/
  canonical : ∀ th ∈ c.threads, ∀ u status extra,
    th.rest.pending = some (.updateStreamStatus u status extra) → uuidIn u = some u

/-- A cached status is the row's, or the row's is about to be cached; every key has a
row; and a stream about to be deleted has no keys. -/
structure CacheInv (c : ServerConfig) : Prop where
  status : ∀ id e, (c.world.redis.entries id).status = some e →
    ∃ d row, e.value = .status d ∧ c.world.db.streamAt id = some row ∧
      (d.status = row.status ∨ ∃ th ∈ c.threads, th.rest.Owes (WritesStatus id row.status))
  row : ∀ id, c.world.redis.entries id ≠ .empty → ∃ row, c.world.db.streamAt id = some row
  cleaned : ∀ id, ∀ th ∈ c.threads, aboutToDelete id th.rest = true → c.world.redis.entries id = .empty

theorem aboutToDelete_eq_true {p : Server Reply} :
    aboutToDelete id p = true ↔ ∃ u, p.pending = some (.deleteStream u) ∧ uuidIn u = some id := by
  unfold aboutToDelete
  constructor
  · intro h
    split at h
    · rename_i u hp
      exact ⟨u, hp, by simpa using h⟩
    · cases h
  · intro h
    obtain ⟨u, hp, hu⟩ := h
    rw [hp]
    simpa using hu

theorem aboutToDelete_body (call : Call) : aboutToDelete id (s.body call) = false := by
  rw [Bool.eq_false_iff]
  intro hnot
  obtain ⟨u, hp, _⟩ := aboutToDelete_eq_true.mp hnot
  have hmay := (s.body_may call).pending hp
  cases hmay
  cases hp

theorem Obedient.step (hcache : s.cache = true) (hv : s.machine.Valid t) (h : Obedient s t.before) :
    Obedient s t.after where
  lawful := h.lawful.step hv
  readFirst := Machine.after_step body_readFirst hv h.readFirst
  owed := Machine.after_step (body_owed hcache) hv h.owed
  cleanFirst := Machine.after_step (body_cleanFirst hcache) hv h.cleanFirst
  canonical := by
    apply canonical_step rfl _ hv h.readFirst h.canonical
    intro call u status extra hp
    have hmay := (s.body_may call).pending hp
    cases hmay <;> cases hp

section
variable {i : Nat} {ch : Choice} {call : Call} {o : Op} {k : o.Res → Server Reply} {r : o.Res}
  {w : World}

/-- What a timely write knows of its stream. -/
theorem settled_of_timely (hs : s.machine.Steps t i ch call o k r w) (ht : timely t = true)
    (ho : o.caches = some id) :
    (∃ row, t.before.world.db.streamAt id = some row) ∧
      ∀ th ∈ t.before.threads, aboutToDelete id th.rest = false := by
  unfold timely at ht
  rw [hs.performed] at ht
  simp only [ho, Option.all_some, Bool.and_eq_true] at ht
  simpa [settled, Option.isSome_iff_exists] using ht.1

/-- A stream with keys is not deleted by this step. -/
theorem CacheInv.not_deletes (hi : CacheInv t.before) (hs : s.machine.Steps t i ch call o k r w)
    (hne : t.before.world.redis.entries id ≠ .empty) : deletes id t = false := by
  rw [Bool.eq_false_iff]
  intro hdel
  obtain ⟨i', call', u, ch', hp, hu, _, _⟩ := deletes_cases hdel
  rw [hs.performed] at hp
  cases hp
  exact hne (hi.cleaned id _ hs.mem (aboutToDelete_eq_true.mpr ⟨u, rfl, hu⟩))

theorem not_deletes_of_caches (hs : s.machine.Steps t i ch call o k r w) (ho : o.caches = some id) :
    deletes id t = false := by
  rw [Bool.eq_false_iff]
  intro hdel
  obtain ⟨i', call', u, ch', hp, _, _, _⟩ := deletes_cases hdel
  rw [hs.performed] at hp
  cases hp
  cases ho

theorem CacheInv.row_step (hi : CacheInv t.before) (hs : s.machine.Steps t i ch call o k r w)
    (ht : timely t = true) (hne : w.redis.entries id ≠ .empty) : ∃ row, w.db.streamAt id = some row := by
  by_cases ho : o.caches = some id
  · obtain ⟨⟨row, hrow⟩, _⟩ := settled_of_timely hs ht ho
    exact row_survives hs (not_deletes_of_caches hs ho) hrow
  · -- nothing new is cached, so the stream had keys before
    have hold : t.before.world.redis.entries id ≠ .empty := by
      intro hempty
      have hexp := (Redis.expire_le _ ch.expired).empty hempty
      exact hne (((StreamService.steps_redis hs).entries id).empty ho hexp)
    obtain ⟨row, hrow⟩ := hi.row id hold
    exact row_survives hs (hi.not_deletes hs hold) hrow

theorem CacheInv.cleaned_step (ho : Obedient s t.before) (hi : CacheInv t.before)
    (hs : s.machine.Steps t i ch call o k r w) (hf : ch.fault = false) (ht : timely t = true)
    {th : Thread Op Op.Res Call Reply} (hth : th ∈ t.after.threads)
    (habout : aboutToDelete id th.rest = true) : w.redis.entries id = .empty := by
  rcases hs.mem_after hth with rfl | hth
  · -- the call has just removed the keys
    obtain ⟨u, hp, hu⟩ := aboutToDelete_eq_true.mp habout
    obtain ⟨r', he⟩ := (ho.cleanFirst _ hs.mem r).1 u hp
    have hans := StreamService.steps_perform hs
    have hperf := hs.performed
    clear hs hp hth habout
    cases he
    unfold timely at ht
    rw [hperf] at ht
    simp only [Op.caches, Option.all_none, Bool.true_and, decide_eq_true_eq] at ht
    cases hu.symm.trans ht
    have hempty := World.perform_deleteStreamCache (w := t.before.world) hf id
    rwa [hans] at hempty
  · have hempty := hi.cleaned id th hth habout
    by_cases hc : o.caches = some id
    · obtain ⟨_, hnone⟩ := settled_of_timely hs ht hc
      rw [hnone th hth] at habout
      cases habout
    · exact ((StreamService.steps_redis hs).entries id).empty hc ((Redis.expire_le _ _).empty hempty)

theorem CacheInv.status_step (ho : Obedient s t.before) (hi : CacheInv t.before)
    (hv : s.machine.Valid t) (hs : s.machine.Steps t i ch call o k r w) (hf : ch.fault = false)
    (ht : timely t = true) {e : Entry} (he : (w.redis.entries id).status = some e) :
    ∃ d row, e.value = .status d ∧ w.db.streamAt id = some row ∧
      (d.status = row.status ∨ ∃ th ∈ t.after.threads, th.rest.Owes (WritesStatus id row.status)) := by
  by_cases hd : ∃ d, o = .setStreamStatus id d
  · -- the entry is the one just written
    obtain ⟨d, rfl⟩ := hd
    have hset := World.perform_setStreamStatus (w := t.before.world) hf id d
    rw [StreamService.steps_perform hs] at hset
    obtain ⟨⟨row, hrow⟩, _⟩ := settled_of_timely hs ht rfl
    cases hset.symm.trans he
    unfold timely at ht
    rw [hs.performed] at ht
    simp only [hrow, Option.all_some, Bool.and_eq_true, decide_eq_true_eq] at ht
    cases (StreamService.steps_streams hs).row id with
    | kept hat => exact ⟨d, row, rfl, hat.trans hrow, .inl ht.2.symm⟩
  · have hold : (t.before.world.redis.entries id).status = some e :=
      (Redis.expire_le _ _).some (((StreamService.steps_redis hs).entries id).status_of
        (fun d hod => hd ⟨d, hod⟩) he)
    obtain ⟨d, row, hval, hrow, hdisj⟩ := hi.status id e hold
    have hne : t.before.world.redis.entries id ≠ .empty := by
      intro hempty
      rw [hempty] at hold
      cases hold
    have howes (st : Status) (h : ∃ th ∈ t.before.threads, th.rest.Owes (WritesStatus id st)) :
        ∃ th ∈ t.after.threads, th.rest.Owes (WritesStatus id st) := by
      refine hv.owes (fun j call' o' ch' hp hgoal => ?_) h
      rw [hs.performed] at hp
      cases hp
      obtain ⟨d', hod, _⟩ := hgoal
      exact hd ⟨d', hod⟩
    have hnd := hi.not_deletes hs hne
    have hperf := hs.performed
    have hans := StreamService.steps_perform hs
    have hmoved := hs.moved
    have howed := ho.owed _ hs.mem
    have hcanon := ho.canonical _ hs.mem
    have hchange := (StreamService.steps_streams hs).row id
    clear hs he
    cases hchange with
    | kept hat => exact ⟨d, row, hval, hat.trans hrow, hdisj.imp_right (howes row.status)⟩
    | created _ _ _ hfresh _ => exact absurd (DB.issued_of_streamAt hrow) hfresh
    | @status u st extra hu hat =>
      -- the row has a new status, and the call that gave it owes the cache write
      rw [hrow] at hat
      cases hu.symm.trans (hcanon u st extra rfl)
      exact ⟨d, _, hval, hat, .inr ⟨_, hmoved, (howed none).1 id st extra rfl⟩⟩
    | pushAuth _ hat =>
      rw [hrow] at hat
      exact ⟨d, _, hval, hat, hdisj.imp_right (howes row.status)⟩
    | deleted hu _ =>
      rw [deletes_of_performed hperf hu (by rw [hans]) hrow] at hnd
      cases hnd

end

theorem CacheInv.step (ho : Obedient s t.before) (hi : CacheInv t.before) (hv : s.machine.Valid t)
    (hf : faultless t = true) (ht : timely t = true) : CacheInv t.after := by
  rcases hv.cases with ⟨call, hs⟩ | ⟨i, ch, call, o, k, r, w, hs⟩
  · refine ⟨fun id e he => ?_, fun id hne => ?_, fun id th hth habout => ?_⟩
    · rw [hs.after] at he
      obtain ⟨d, row, hval, hrow, hdisj⟩ := hi.status id e he
      refine ⟨d, row, hval, by rw [hs.after]; exact hrow, hdisj.imp_right ?_⟩
      intro howes
      refine hv.owes (fun j call' o' ch' hp => ?_) howes
      rw [hs.performed] at hp
      cases hp
    · rw [hs.after] at hne ⊢
      exact hi.row id hne
    · rw [hs.after]
      rcases hs.mem_after.mp hth with hth | rfl
      · exact hi.cleaned id th hth habout
      · have hnew := (aboutToDelete_body call).symm.trans habout
        cases hnew
  · have hfault : ch.fault = false := by
      unfold faultless at hf
      rw [hs.performed] at hf
      simpa using hf
    refine ⟨fun id e he => ?_, fun id hne => ?_, fun id th hth habout => ?_⟩
    · rw [hs.after] at he
      have hst := CacheInv.status_step ho hi hv hs hfault ht he
      rwa [hs.after] at hst ⊢
    · rw [hs.after] at hne ⊢
      exact hi.row_step hs ht hne
    · rw [hs.after]
      exact CacheInv.cleaned_step ho hi hs hfault ht hth habout

/-! ### Whole runs -/

variable {ts : List ServerTransition} {w : World}

theorem obedient_start (s : StreamService) (w : World) : Obedient s (.start w) where
  lawful := StreamService.lawful_start w
  readFirst _ h := absurd h List.not_mem_nil
  owed _ h := absurd h List.not_mem_nil
  cleanFirst _ h := absurd h List.not_mem_nil
  canonical _ h := absurd h List.not_mem_nil

theorem Coherent.cacheInv (h : Coherent w) : CacheInv (.start w) where
  status id e he := by
    obtain ⟨d, row, hval, hrow, hst⟩ := h.status id e he
    exact ⟨d, row, hval, hrow, .inl hst⟩
  row := h.row
  cleaned _ _ hth := absurd hth List.not_mem_nil

/-- Once nobody is in flight nothing is owed. -/
theorem CacheInv.coherent {c : ServerConfig} (h : CacheInv c) (hq : c.Quiescent) : Coherent c.world where
  status id e he := by
    obtain ⟨d, row, hval, hrow, hst | ⟨th, hth, howes⟩⟩ := h.status id e he
    · exact ⟨d, row, hval, hrow, hst⟩
    · exact absurd (hq th hth) howes.pending
  row := h.row

/-- **Coherence under concurrency**: in every run without failures whose cache writes
are timely, cache and database agree whenever no call is in flight. -/
theorem coherent_of_timely (hcache : s.cache = true) (hw : Coherent w)
    (h : s.machine.Trace (.start w) ts) (hfault : ∀ t ∈ ts, faultless t = true)
    (htimely : ∀ t ∈ ts, timely t = true) (hq : (Machine.final (.start w) ts).Quiescent) :
    Coherent (Machine.final (.start w) ts).world := by
  have hinv := h.invariant (I := fun c => Obedient s c ∧ CacheInv c)
    (G := fun t => faultless t = true ∧ timely t = true)
    (fun t hv hg hc => ⟨hc.1.step hcache hv, hc.2.step hc.1 hv hg.1 hg.2⟩)
    (fun t ht => ⟨hfault t ht, htimely t ht⟩) ⟨obedient_start s w, hw.cacheInv⟩
  exact hinv.2.coherent hq

end

theorem coherent_empty : Coherent .empty where
  status _ _ h := by cases h
  row _ h := absurd rfl h

instance (c : ServerConfig) : Decidable c.Quiescent := inferInstanceAs (Decidable (∀ _ ∈ _, _))

/-- A stream is published while viewers come and go and somebody asks for it; the calls take
turns, and the stream is live in both stores at the end. -/
theorem coherent_of_timely_run :
    ∃ ts, StreamService.sample.machine.Trace (.start .empty) ts ∧
      ((Machine.final (.start .empty) ts).world.db.streamAt sampleID).map Stream.status = some .publishing ∧
      (Machine.final (.start .empty) ts).world.redis (statusKey sampleID) ≠ none ∧
      Coherent (Machine.final (.start .empty) ts).world := by
  obtain ⟨ts, htr, hP⟩ := Machine.exists_trace StreamService.sample.machine (.start .empty)
    (sampleCreated ++
      [.spawn (.onPublish 1 0 sampleKey.val (sampleToken 1)), .spawn (.onPlay sampleKey.val),
        .step 1 {}, .step 2 {}, .step 1 {}, .step 2 {}, .spawn (.onStop sampleKey.val), .step 1 {}, .step 3 {},
        .spawn (.getStream sampleID), .step 4 {}, .step 1 {}, .step 3 {}, .step 2 {}, .step 1 {}, .step 3 {},
        .step 1 {}])
    (fun ts => ((Machine.final (.start .empty) ts).world.db.streamAt sampleID).map Stream.status =
        some .publishing ∧
      (Machine.final (.start .empty) ts).world.redis (statusKey sampleID) ≠ none ∧
      (∀ t ∈ ts, faultless t = true) ∧ (∀ t ∈ ts, timely t = true) ∧
      (Machine.final (.start .empty) ts).Quiescent) (by decide +kernel)
  simp only [decide_eq_true_eq] at hP
  obtain ⟨hrow, hcached, hfault, htimely, hq⟩ := hP
  exact ⟨ts, htr, hrow, hcached, coherent_of_timely rfl coherent_empty htr hfault htimely hq⟩

/-- An `OnUnpublish` that overtakes the cache write of an `OnPublish` leaves a cached
status the row does not have; one that updates a row deleted since it read it leaves
a key of a stream that is gone. -/
theorem incoherent :
    (∃ ts, StreamService.sample.machine.Trace (.start .empty) ts ∧ (∀ t ∈ ts, faultless t = true) ∧
      (Machine.final (.start .empty) ts).Quiescent ∧
      ¬ ∀ id e, (Machine.final (.start .empty) ts).world.redis (statusKey id) = some e →
        ∃ d row, e.value = .status d ∧
          (Machine.final (.start .empty) ts).world.db.streamAt id = some row ∧ d.status = row.status) ∧
    (∃ ts, StreamService.sample.machine.Trace (.start .empty) ts ∧ (∀ t ∈ ts, faultless t = true) ∧
      (Machine.final (.start .empty) ts).Quiescent ∧
      ((Machine.final (.start .empty) ts).world.redis (statusKey sampleID)).isSome = true ∧
      (Machine.final (.start .empty) ts).world.db.streamAt sampleID = none) := by
  constructor
  · obtain ⟨ts, htr, hP⟩ := Machine.exists_trace StreamService.sample.machine (.start .empty)
      (sampleCreated ++
        [.spawn (.onPublish 1 0 sampleKey.val (sampleToken 1)), .spawn (.onUnpublish 1 0 sampleKey.val),
          .step 1 {}, .step 1 {}, .step 2 {}, .step 2 {}, .step 2 {}, .step 2 {}, .step 2 {}, .step 2 {},
          .step 2 {}, .step 2 {}, .step 1 {}, .step 1 {}, .step 1 {}, .step 1 {}])
      (fun ts => (∀ t ∈ ts, faultless t = true) ∧ (Machine.final (.start .empty) ts).Quiescent ∧
        (Machine.final (.start .empty) ts).world.redis (statusKey sampleID) =
          some ⟨.status { status := .publishing, bitrate := [], viewers := 0, startedAt := [] }, true⟩ ∧
        ((Machine.final (.start .empty) ts).world.db.streamAt sampleID).map Stream.status =
          some .ended) (by decide)
    simp only [decide_eq_true_eq] at hP
    obtain ⟨hfault, hq, hcached, hrow⟩ := hP
    refine ⟨ts, htr, hfault, hq, fun h => ?_⟩
    obtain ⟨d, row, hd, hat, hst⟩ := h sampleID _ hcached
    cases hd
    rw [hat] at hrow
    have hended : row.status = .ended := Option.some.inj hrow
    rw [hended] at hst
    cases hst
  · obtain ⟨ts, htr, hP⟩ := Machine.exists_trace StreamService.sample.machine (.start .empty)
      (sampleCreated ++
        [.spawn (.onUnpublish 1 0 sampleKey.val), .step 1 {}, .spawn (.deleteStream sampleID),
          .step 2 {}, .step 2 {}, .step 2 {},
          .step 1 {}, .step 1 {}, .step 1 {}, .step 1 {}, .step 1 {}, .step 1 {}])
      (fun ts => (∀ t ∈ ts, faultless t = true) ∧ (Machine.final (.start .empty) ts).Quiescent ∧
        ((Machine.final (.start .empty) ts).world.redis (statusKey sampleID)).isSome = true ∧
        (Machine.final (.start .empty) ts).world.db.streamAt sampleID = none) (by decide)
    simp only [decide_eq_true_eq] at hP
    exact ⟨ts, htr, hP⟩

end LiveServer
