import LiveServer.Viewers.Counter
import Mathlib.Data.Finset.Card

/-! The viewer counter under interleaving.

A viewer is its `OnPlay` call, and `own` gives for an `OnStop` call the viewer that
leaves. Whatever the order of their steps and whichever of them fail, the counter is at
most the number of viewers whose `INCR` has run and whose decrement has not: an `INCR`
is the first and only one of its call, and no `OnStop` of that viewer has started. The
counter falls short of them after a reset, and where an `OnStop` takes one off for a
viewer whose `OnPlay` failed to count it; otherwise it is their number. -/
namespace LiveServer
open Concurrent Relational

/-- The viewer whose `INCR` runs in a transition. -/
def joins (id : Str) (t : ServerTransition) : Option Nat :=
  match t.performed with
  | some ⟨i, .onPlay _, .incrViewers u, ch⟩ =>
    if u = id ∧ (World.perform ch (.incrViewers u) t.before.world).1.isOk then some i else none
  | _ => none

/-- The `OnStop` call whose decrement runs in a transition. -/
def leaves (id : Str) (t : ServerTransition) : Option Nat :=
  match t.performed with
  | some ⟨i, .onStop _, .decrViewers u, ch⟩ =>
    if u = id ∧ (World.perform ch (.decrViewers u) t.before.world).1.isOk then some i else none
  | _ => none

/-- The viewers whose `INCR` has run and whose decrement has not. -/
def inside (own : Nat → Nat) (id : Str) (ts : List ServerTransition) : Finset Nat :=
  (ts.filterMap (joins id)).toFinset \ ((ts.filterMap (leaves id)).map own).toFinset

/-- A call of `OnStop` for the stream. -/
def isStop (key : Str) (th : Thread Op Op.Res Call Reply) : Bool :=
  match th.call with
  | .onStop k => k = key
  | _ => false

/-- A call of `OnPlay` for the stream that has finished. -/
def hasPlayed (key : Str) (th : Thread Op Op.Res Call Reply) : Bool :=
  match th with
  | ⟨.onPlay k, .done _⟩ => k = key
  | _ => false

/-- An `OnStop` call starts after its viewer's `OnPlay` call has finished, and no other is
that viewer's. -/
def departs (own : Nat → Nat) (key : Str) (t : ServerTransition) : Bool :=
  match t.spawned with
  | some (.onStop k) =>
    k ≠ key ||
      ((t.before.threads[own t.before.threads.length]?).any (hasPlayed key) &&
        (List.range t.before.threads.length).all fun j =>
          (t.before.threads[j]?).all fun th => !isStop key th || own j ≠ own t.before.threads.length)
  | _ => true

/-- No call deletes the stream. -/
def keeps (id : Str) (t : ServerTransition) : Bool :=
  match t.spawned with
  | some (.deleteStream u) => uuidIn u ≠ some id
  | _ => true

/-- A step of an `OnUnpublish` call. -/
def unpublishes (key : Str) (t : ServerTransition) : Bool :=
  match t.performed with
  | some ⟨_, .onUnpublish _ _ k, _, _⟩ => k = key
  | _ => false

/-- The lookup or the `INCR` of an `OnPlay` call fails. -/
def playFails (key : Str) (t : ServerTransition) : Bool :=
  match t.performed with
  | some ⟨_, .onPlay k, .getStreamByKey u, ch⟩ =>
    k = key && !(World.perform ch (.getStreamByKey u) t.before.world).1.isOk
  | some ⟨_, .onPlay k, .incrViewers u, ch⟩ =>
    k = key && !(World.perform ch (.incrViewers u) t.before.world).1.isOk
  | _ => false

/-! ### What the callbacks do around the counter -/

/-- The key a call looks up before it counts. -/
def Call.counterKey : Call → Option Str
  | .onPlay key => some key
  | .onStop key => some key
  | .onUnpublish _ _ key => some key
  | _ => none

section
variable {s : StreamService} {key id : Str}

/-- A call that counts on the stream has looked it up. -/
def Looked (id k : Str) (e : Prog.Event Op Op.Res) : Prop :=
  ∃ row, e = ⟨.getStreamByKey k, .ok row⟩ ∧ row.id = id

theorem guards_countViewer {count : Str → Server (Except GoError Int)} (k : Str)
    (hcount : ∀ u, u ≠ id → (count u).Every fun o => ¬ o.counts id = true) :
    (s.countViewer count k).Guards (fun o => o.counts id = true) (Looked id k) := by
  unfold StreamService.countViewer
  split
  · refine Prog.guards_op_bind.mpr ⟨by simp [Op.counts], fun r => ?_⟩
    cases r with
    | error e => exact .inr trivial
    | ok row =>
      by_cases hid : row.id = id
      · exact .inl ⟨row, rfl, hid⟩
      · refine .inr (Prog.Every.guards (Prog.every_bind (hcount row.id hid) ?_))
        rintro (e | n)
        · trivial
        · simp [Op.counts]
  · trivial

theorem guards_onUnpublish (now : Time) (k : Str) :
    (s.onUnpublish now k).Guards (fun o => o.counts id = true) (Looked id k) := by
  refine Prog.guards_op_bind.mpr ⟨by simp [Op.counts], fun r => ?_⟩
  cases r with
  | error e => exact .inr trivial
  | ok row =>
    by_cases hid : row.id = id
    · exact .inl ⟨row, rfl, hid⟩
    · refine .inr (Prog.Every.guards (Prog.every_op_bind.mpr ⟨by simp [Op.counts], ?_⟩))
      rintro (_ | e)
      · dsimp only
        split <;> cases row.startedAt <;> simp [Op.counts, hid]
      · trivial

theorem body_guards (call : Call) :
    (∃ k, call.counterKey = some k ∧
      (s.body call).Guards (fun o => o.counts id = true) (Looked id k)) ∨
    (s.body call).Every fun o => ¬ o.counts id = true := by
  cases call with
  | onPlay k =>
    refine .inl ⟨k, rfl, Prog.guards_map _ (guards_countViewer k fun u hu => ?_)⟩
    simp [Op.counts, hu]
  | onStop k =>
    refine .inl ⟨k, rfl, Prog.guards_map _ (guards_countViewer k fun u hu => ?_)⟩
    simp [Op.counts, hu]
  | onUnpublish client now k => exact .inl ⟨k, rfl, Prog.guards_map _ (guards_onUnpublish now k)⟩
  | _ =>
    refine .inr ((s.body_may _).mono fun o ho => ?_)
    cases ho <;> simp [Op.counts]

/-- A viewer is counted once. -/
theorem once_countViewer {count : Str → Server (Except GoError Int)} (k : Str)
    (hcount : ∀ u, (count u).Once fun o => o.counts id = true) :
    (s.countViewer count k).Once fun o => o.counts id = true := by
  unfold StreamService.countViewer
  split
  · apply Prog.once_op_bind (by simp [Op.counts])
    rintro (e | row)
    · trivial
    · apply Prog.once_bind (hcount row.id)
      rintro (e | n) <;> simp [Op.counts]
  · trivial

theorem once_onPlay (id k : Str) : (s.body (.onPlay k)).Once fun o => o.counts id = true :=
  Prog.once_map _ (once_countViewer k fun _ => Prog.once_op _)

theorem once_onStop (id k : Str) : (s.body (.onStop k)).Once fun o => o.counts id = true :=
  Prog.once_map _ (once_countViewer k fun _ => Prog.once_op _)

/-- An `OnPlay` that has finished has counted its viewer, or something went wrong. -/
theorem onPlay_requires (hcache : s.cache = true) (id k : Str) :
    (s.body (.onPlay k)).Requires (fun _ => True) fun e =>
      (∃ err, e = ⟨.getStreamByKey k, .error err⟩) ∨
      (∃ row, e = ⟨.getStreamByKey k, .ok row⟩ ∧ row.id ≠ id) ∨
      ∃ r, e = ⟨.incrViewers id, r⟩ := by
  apply Prog.requires_map
  unfold StreamService.onPlay StreamService.countViewer
  rw [if_pos hcache]
  apply Prog.requires_op_bind.mpr
  rintro (e | row)
  · exact .inl (.inl ⟨e, rfl⟩)
  · by_cases hid : row.id = id
    · right
      subst hid
      exact Prog.requires_op_bind.mpr fun r => .inl (.inr (.inr ⟨r, rfl⟩))
    · exact .inl (.inr (.inl ⟨row, rfl, hid⟩))

/-! ### What holds in every configuration -/

/-- The stream is there with its count, and no call in flight deletes it. -/
structure Watched (s : StreamService) (key id : Str) (c : ServerConfig) : Prop where
  lawful : s.Lawful c
  steady : ∃ n, Steady key id n c.world
  kept : ∀ th ∈ c.threads, ∀ u, th.call = .deleteStream u → uuidIn u ≠ some id

/-- Every `OnStop` has its own viewer, whose `OnPlay` has finished. -/
structure Attended (own : Nat → Nat) (key : Str) (c : ServerConfig) : Prop where
  finished : ∀ j th, c.threads[j]? = some th → th.call = .onStop key →
    ∃ reply, c.threads[own j]? = some ⟨.onPlay key, .done reply⟩
  once : ∀ i j th th', c.threads[i]? = some th → c.threads[j]? = some th' →
    th.call = .onStop key → th'.call = .onStop key → own i = own j → i = j

variable {t : ServerTransition} {own : Nat → Nat}

theorem departs_spec (h : departs own key t = true) (ht : t.spawned = some (.onStop key)) :
    (∃ reply, t.before.threads[own t.before.threads.length]? = some ⟨.onPlay key, .done reply⟩) ∧
    ∀ j th, t.before.threads[j]? = some th → th.call = .onStop key →
      own j ≠ own t.before.threads.length := by
  unfold departs at h
  rw [ht] at h
  simp only [ne_eq, not_true_eq_false, decide_false, Bool.false_or, Bool.and_eq_true, Option.any_eq_true,
    List.all_eq_true, List.mem_range, Option.all_eq_true] at h
  obtain ⟨⟨⟨call, rest⟩, hth, hplayed⟩, hothers⟩ := h
  constructor
  · unfold hasPlayed at hplayed
    split at hplayed
    · rename_i k reply heq
      cases heq
      obtain rfl : k = key := of_decide_eq_true hplayed
      exact ⟨reply, hth⟩
    · cases hplayed
  · intro j th hj hcall
    have hother := hothers j (List.getElem?_eq_some_iff.mp hj).1 th hj
    simpa [isStop, hcall] using hother

theorem keeps_spec (h : keeps id t = true) {u : Str} (ht : t.spawned = some (.deleteStream u)) :
    uuidIn u ≠ some id := by
  unfold keeps at h
  rw [ht] at h
  exact of_decide_eq_true h

theorem Watched.spares {i : Nat} {ch : Choice} {call : Call} {o : Op} {k : o.Res → Server Reply}
    {r : o.Res} {w : World} (h : Watched s key id t.before)
    (hs : s.machine.Steps t i ch call o k r w) : o.Spares id := by
  have hcall := h.kept _ hs.mem
  have hmay := h.lawful.may hs
  obtain ⟨n, hn⟩ := h.steady
  obtain ⟨row, hat, _⟩ := hn.row
  clear hs
  cases hmay with
  | delete => exact hcall _ rfl
  | cleanup =>
    rintro rfl
    exact hcall _ rfl (DB.uuidIn_streamAt hat)
  | _ => trivial

theorem Watched.step (hv : s.machine.Valid t) (hk : keeps id t = true) (h : Watched s key id t.before) :
    Watched s key id t.after where
  lawful := h.lawful.step hv
  steady := by
    apply hv.world (I := fun w => ∃ n, Steady key id n w) h.steady
    intro i ch call o k r w hs
    obtain ⟨n, hn⟩ := h.steady
    obtain ⟨n', _, hn'⟩ := perform_steady ch (h.spares hs) hn
    rw [StreamService.steps_perform hs] at hn'
    exact ⟨n', hn'⟩
  kept := by
    intro th hth u hu
    rcases hv.cases with ⟨call, hs⟩ | ⟨i, ch, call, o, k, r, w, hs⟩
    · rcases hs.mem_after.mp hth with hth | rfl
      · exact h.kept th hth u hu
      · exact keeps_spec hk (hs.spawned.trans (congrArg some hu))
    · rcases hs.mem_after hth with rfl | hth
      · exact h.kept _ hs.mem u hu
      · exact h.kept th hth u hu

theorem Attended.spawn {call : Call} (hs : s.machine.Spawns t call) (hl : departs own key t = true)
    (h : Attended own key t.before) : Attended own key t.after where
  finished := by
    intro j th hth hcall
    rw [hs.threads_after] at hth
    split at hth
    · rename_i hj
      cases hth
      obtain ⟨⟨reply, hown⟩, _⟩ := departs_spec hl (hs.spawned.trans (congrArg some hcall))
      exact ⟨reply, hj ▸ hs.thread_after hown⟩
    · obtain ⟨reply, hown⟩ := h.finished j th hth hcall
      exact ⟨reply, hs.thread_after hown⟩
  once := by
    intro i j th th' hi hj hcall hcall' hown
    rw [hs.threads_after] at hi hj
    split at hi <;> split at hj
    · rename_i hi' hj'
      exact hi'.trans hj'.symm
    · rename_i hi' _
      cases hi
      exact absurd (hi' ▸ hown.symm) ((departs_spec hl (hs.spawned.trans (congrArg some hcall))).2 j th' hj hcall')
    · rename_i _ hj'
      cases hj
      exact absurd (hj' ▸ hown) ((departs_spec hl (hs.spawned.trans (congrArg some hcall'))).2 i th hi hcall)
    · exact h.once i j th th' hi hj hcall hcall' hown

theorem Attended.next {i : Nat} {ch : Choice} {call : Call} {o : Op} {k : o.Res → Server Reply}
    {r : o.Res} {w : World} (hs : s.machine.Steps t i ch call o k r w) (h : Attended own key t.before) :
    Attended own key t.after := by
  constructor
  · intro j th hth hcall
    obtain ⟨th₀, hth₀, hcall₀⟩ := hs.thread_before hth
    obtain ⟨reply, hown⟩ := h.finished j th₀ hth₀ (hcall₀.trans hcall)
    refine ⟨reply, ?_⟩
    -- the thread that moved had not finished
    rw [hs.threads_after, if_neg, hown]
    intro hi
    rw [hi, hs.thread] at hown
    cases hown
  · intro i j th th' hi hj hcall hcall' hown
    obtain ⟨th₀, hth₀, hcall₀⟩ := hs.thread_before hi
    obtain ⟨th₁, hth₁, hcall₁⟩ := hs.thread_before hj
    exact h.once i j th₀ th₁ hth₀ hth₁ (hcall₀.trans hcall) (hcall₁.trans hcall') hown

theorem Attended.step (hv : s.machine.Valid t) (hl : departs own key t = true) (h : Attended own key t.before) :
    Attended own key t.after := by
  rcases hv.cases with ⟨call, hs⟩ | ⟨i, ch, call, o, k, r, w, hs⟩
  · exact h.spawn hs hl
  · exact h.next hs

/-! ### Whole runs -/

/-- A run on a stream that is there and not deleted, counted from zero, in which a viewer
leaves after it came, and once. -/
structure Viewing (s : StreamService) (own : Nat → Nat) (key id : Str) (w : World)
    (ts : List ServerTransition) : Prop where
  trace : s.machine.Trace (.start w) ts
  zero : Steady key id 0 w
  kept : ∀ t ∈ ts, keeps id t = true
  departed : ∀ t ∈ ts, departs own key t = true

variable {w : World} {ts : List ServerTransition} {i : Nat}

theorem watched_start (h : Steady key id 0 w) : Watched s key id (.start w) where
  lawful := s.lawful_start w
  steady := ⟨0, h⟩
  kept _ hth := absurd hth List.not_mem_nil

theorem Viewing.watched_before (h : Viewing s own key id w ts) (ht : t ∈ ts) :
    Watched s key id t.before :=
  h.trace.invariant_before (fun _ hv hk hw => hw.step hv hk) h.kept (watched_start h.zero) ht

theorem Viewing.attended (h : Viewing s own key id w ts) :
    Attended own key (Machine.final (.start w) ts) := by
  apply h.trace.invariant (fun _ hv hl ha => ha.step hv hl) h.departed
  constructor
  · exact fun _ _ hth => absurd hth (by simp [Config.start])
  · exact fun _ _ _ _ hth => absurd hth (by simp [Config.start])

/-- A lookup finds the stream by its key and by no other. -/
theorem Viewing.lookup (h : Viewing s own key id w ts) (ht : t ∈ ts) {k : Str} {ch : Choice} {row : Stream}
    (hans : (World.perform ch (.getStreamByKey k) t.before.world).1 = .ok row) :
    row.id = id ↔ k = key := by
  have hof := World.perform_getStreamByKey_ok hans
  obtain ⟨n, hn⟩ := (h.watched_before ht).steady
  constructor
  · exact hn.key_of_streamOf hof
  · rintro rfl
    obtain ⟨row', hof', hid⟩ := hn.streamOf
    cases hof.symm.trans hof'
    exact hid

/-- Who is about to count on the stream was called for it. -/
theorem Viewing.counterKey (h : Viewing s own key id w ts) {th : Thread Op Op.Res Call Reply}
    (hth : (Machine.final (.start w) ts).threads[i]? = some th) {o : Op} (hp : th.rest.pending = some o)
    (ho : o.counts id = true) : th.call.counterKey = some key := by
  have hpath := h.trace.path_of_spawned (Nat.zero_le i) hth
  rcases body_guards th.call with ⟨k, hk, hguards⟩ | hnone
  · obtain ⟨e, he, row, rfl, hid⟩ := hpath.guards hguards hp ho
    obtain ⟨t, ht, call, ch, _, hans⟩ := Machine.performed_of_event he
    rw [hk, (h.lookup ht hans).mp hid]
  · exact absurd ho ((hpath.every hnone).pending hp)

/-! ### Who is inside -/

theorem of_counted {r : Except GoError Int} {u : Str} {j : Nat}
    (h : (if u = id ∧ r.isOk then some j else none) = some i) : u = id ∧ j = i ∧ ∃ n, r = .ok n := by
  split at h
  · rename_i hok
    cases h
    cases r with
    | error e => simp at hok
    | ok n => exact ⟨hok.1, rfl, n, rfl⟩
  · cases h

theorem joins_eq_some (h : joins id t = some i) :
    ∃ k ch n, t.performed = some ⟨i, .onPlay k, .incrViewers id, ch⟩ ∧
      (World.perform ch (.incrViewers id) t.before.world).1 = .ok n := by
  unfold joins at h
  split at h
  · rename_i j k u ch hp
    obtain ⟨rfl, rfl, n, hr⟩ := of_counted h
    exact ⟨k, ch, n, hp, hr⟩
  · cases h

theorem leaves_eq_some (h : leaves id t = some i) :
    ∃ k ch n, t.performed = some ⟨i, .onStop k, .decrViewers id, ch⟩ ∧
      (World.perform ch (.decrViewers id) t.before.world).1 = .ok n := by
  unfold leaves at h
  split at h
  · rename_i j k u ch hp
    obtain ⟨rfl, rfl, n, hr⟩ := of_counted h
    exact ⟨k, ch, n, hp, hr⟩
  · cases h

/-- Whoever does not count neither comes nor goes. -/
theorem joins_leaves_none {call : Call} {o : Op} {ch : Choice} (hp : t.performed = some ⟨i, call, o, ch⟩)
    (ho : o.counts id = false) : joins id t = none ∧ leaves id t = none := by
  have hnot {j : Nat} {call' : Call} {o' : Op} {ch' : Choice}
      (hp' : t.performed = some ⟨j, call', o', ch'⟩) : o'.counts id = false := by
    rw [hp] at hp'
    cases hp'
    exact ho
  constructor
  · apply Option.eq_none_iff_forall_ne_some.mpr
    intro j hj
    obtain ⟨_, _, _, hp', _⟩ := joins_eq_some hj
    simpa [Op.counts] using hnot hp'
  · apply Option.eq_none_iff_forall_ne_some.mpr
    intro j hl
    obtain ⟨_, _, _, hp', _⟩ := leaves_eq_some hl
    simpa [Op.counts] using hnot hp'

theorem inside_same (hj : joins id t = none) (hl : leaves id t = none) :
    inside own id (ts ++ [t]) = inside own id ts := by
  simp [inside, List.filterMap_append, hj, hl]

theorem inside_joins (hj : joins id t = some i) (hl : leaves id t = none)
    (hnew : i ∉ ts.filterMap (joins id)) (hstays : i ∉ (ts.filterMap (leaves id)).map own) :
    (inside own id (ts ++ [t])).card = (inside own id ts).card + 1 := by
  have hinsert : inside own id (ts ++ [t]) = insert i (inside own id ts) := by
    ext x
    simp only [inside, List.filterMap_append, Finset.mem_sdiff, List.mem_toFinset, Finset.mem_insert]
    simp only [List.filterMap_cons, List.filterMap_nil, hj, hl, List.append_nil, List.mem_append,
      List.mem_singleton]
    constructor
    · rintro ⟨hx | hx, hout⟩
      · exact .inr ⟨hx, hout⟩
      · exact .inl hx
    · rintro (rfl | ⟨hx, hout⟩)
      · exact ⟨.inr rfl, hstays⟩
      · exact ⟨.inl hx, hout⟩
  rw [hinsert, Finset.card_insert_of_notMem]
  simp [inside, hnew]

theorem inside_leaves (hj : joins id t = none) (hl : leaves id t = some i) :
    inside own id (ts ++ [t]) = (inside own id ts).erase (own i) := by
  ext x
  simp only [inside, List.filterMap_append, Finset.mem_sdiff, List.mem_toFinset, Finset.mem_erase,
    List.map_append]
  simp only [List.filterMap_cons, List.filterMap_nil, hj, hl, List.append_nil, List.mem_append,
    List.map_cons, List.map_nil, List.mem_singleton]
  tauto

/-- What has happened by some point of a run. -/
theorem Viewing.of_append {a b : List ServerTransition} (h : Viewing s own key id w (a ++ b)) :
    Viewing s own key id w a where
  trace := ((Machine.trace_append a b).mp h.trace).1
  zero := h.zero
  kept t ht := h.kept t (List.mem_append_left b ht)
  departed t ht := h.departed t (List.mem_append_left b ht)

/-- The call of a decrement that has run. -/
theorem Viewing.left (h : Viewing s own key id w ts) (hin : i ∈ ts.filterMap (leaves id)) :
    (∃ th, (Machine.final (.start w) ts).threads[i]? = some th ∧ th.call = .onStop key) ∧
      ∃ e ∈ s.machine.events i ts, e.op.counts id = true := by
  obtain ⟨t, ht, hl⟩ := List.mem_filterMap.mp hin
  obtain ⟨k, ch, n, hp, _⟩ := leaves_eq_some hl
  constructor
  · obtain ⟨th, hth, hcall⟩ := h.trace.thread_of_performed ht hp
    refine ⟨th, hth, hcall.trans ?_⟩
    -- at the moment of its decrement it is about to count on the stream
    obtain ⟨a, b, rfl⟩ := List.append_of_mem ht
    obtain ⟨_, hbefore, hv, _⟩ := Machine.Trace.split h.trace
    obtain ⟨_, _, _, hs⟩ := hv.steps hp
    have hkey := h.of_append.counterKey (hbefore ▸ hs.thread) rfl (by simp [Op.counts])
    cases hkey
    rfl
  · exact ⟨_, Machine.mem_events_of_performed ht hp, by simp [Op.counts]⟩

/-- A viewer whose `INCR` is about to run is new, and is not leaving. -/
theorem Viewing.comes (h : Viewing s own key id w ts) {k : Str} {f : Except GoError Int → Server Reply}
    (hth : (Machine.final (.start w) ts).threads[i]? = some ⟨.onPlay k, .call (.incrViewers id) f⟩) :
    i ∉ ts.filterMap (joins id) ∧ i ∉ (ts.filterMap (leaves id)).map own := by
  have hpath := h.trace.path_of_spawned (Nat.zero_le i) hth
  constructor
  · intro hin
    obtain ⟨t, ht, hj⟩ := List.mem_filterMap.mp hin
    obtain ⟨k', ch, n, hp, _⟩ := joins_eq_some hj
    exact hpath.once (once_onPlay id k) rfl (by simp [Op.counts]) _
      (Machine.mem_events_of_performed ht hp) (by simp [Op.counts])
  · intro hin
    obtain ⟨j, hj, rfl⟩ := List.mem_map.mp hin
    obtain ⟨⟨th, hthj, hcall⟩, _⟩ := h.left hj
    obtain ⟨reply, hdone⟩ := h.attended.finished j th hthj hcall
    rw [hth] at hdone
    cases hdone

/-- A viewer whose decrement is about to run is inside, if no `OnPlay` has failed. -/
theorem Viewing.goes (h : Viewing s own key id w ts) {k : Str} {f : Except GoError Int → Server Reply}
    (hth : (Machine.final (.start w) ts).threads[i]? = some ⟨.onStop k, .call (.decrViewers id) f⟩)
    (hplay : ∀ t ∈ ts, playFails key t = false) : own i ∈ inside own id ts := by
  have hpath := h.trace.path_of_spawned (Nat.zero_le i) hth
  have hkey := h.counterKey hth rfl (by simp [Op.counts])
  cases hkey
  have hcache : s.cache = true := by
    by_contra hoff
    have hnone : (s.body (.onStop key)).Every fun _ => False := by
      apply Prog.every_map
      unfold StreamService.onStop StreamService.countViewer
      rw [if_neg hoff]
      trivial
    exact (hpath.every hnone).1
  obtain ⟨reply, hown⟩ := h.attended.finished i _ hth rfl
  have hjoined : own i ∈ ts.filterMap (joins id) := by
    obtain ⟨t, ht, o, ch, r, hp, hans, hG⟩ := h.trace.performed_of_returned (Nat.zero_le _) hown
      (onPlay_requires hcache id key) trivial
    have hnofail := hplay t ht
    unfold playFails at hnofail
    rw [hp] at hnofail
    have hans : (World.perform ch o t.before.world).1 = r := hans
    rcases hG with ⟨err, he⟩ | ⟨row, he, hid⟩ | ⟨r', he⟩
    · cases he
      simp [hans] at hnofail
    · cases he
      exact absurd ((h.lookup ht hans).mpr rfl) hid
    · cases he
      cases r' with
      | error e => simp [hans] at hnofail
      | ok n =>
        refine List.mem_filterMap.mpr ⟨t, ht, ?_⟩
        unfold joins
        rw [hp]
        simp [hans]
  have hstays : own i ∉ (ts.filterMap (leaves id)).map own := by
    intro hin
    obtain ⟨j, hj, hsame⟩ := List.mem_map.mp hin
    obtain ⟨⟨th, hthj, hcall⟩, e, he, hcounts⟩ := h.left hj
    obtain rfl : j = i := h.attended.once j i th _ hthj hth hcall rfl hsame
    exact hpath.once (once_onStop id key) rfl (by simp [Op.counts]) e he hcounts
  simp only [inside, Finset.mem_sdiff, List.mem_toFinset]
  exact ⟨hjoined, hstays⟩

/-- What a command makes of the counter and of who is inside. -/
theorem Viewing.next {n n' : Nat} {call : Call} {o : Op} {ch : Choice} {f : o.Res → Server Reply}
    {r : o.Res} (h : Viewing s own key id w ts) (hmay : s.May call o)
    (hth : (Machine.final (.start w) ts).threads[i]? = some ⟨call, .call o f⟩)
    (hp : t.performed = some ⟨i, call, o, ch⟩) (hans : (World.perform ch o t.before.world).1 = r)
    (hchange : CounterChange id n ch.fault o r n') (hle : n ≤ (inside own id ts).card) :
    n' ≤ (inside own id (ts ++ [t])).card ∧
      (unpublishes key t = false → (∀ u ∈ ts, playFails key u = false) → n = (inside own id ts).card →
        n' = (inside own id (ts ++ [t])).card) := by
  -- whoever neither comes nor goes
  have hsame (hj : joins id t = none) (hl : leaves id t = none) :
      n ≤ (inside own id (ts ++ [t])).card ∧
        (unpublishes key t = false → (∀ u ∈ ts, playFails key u = false) → n = (inside own id ts).card →
          n = (inside own id (ts ++ [t])).card) := by
    rw [inside_same hj hl]
    exact ⟨hle, fun _ _ heq => heq⟩
  cases hchange with
  | other hno =>
    obtain ⟨hj, hl⟩ := joins_leaves_none hp hno
    exact hsame hj hl
  | incr =>
    cases hmay with
    | play =>
      have hj : joins id t = some i := by simp [joins, hp, hans]
      have hl : leaves id t = none := by simp [leaves, hp]
      obtain ⟨hnew, hstays⟩ := h.comes hth
      rw [inside_joins hj hl hnew hstays]
      exact ⟨Nat.succ_le_succ hle, fun _ _ heq => congrArg (· + 1) heq⟩
  | incrFailed _ =>
    cases hmay with
    | play =>
      exact hsame (by simp [joins, hp, hans]) (by simp [leaves, hp])
  | decr =>
    cases hmay with
    | stop =>
      have hj : joins id t = none := by simp [joins, hp]
      have hl : leaves id t = some i := by simp [leaves, hp, hans]
      rw [inside_leaves hj hl]
      constructor
      · exact (Nat.sub_le_sub_right hle 1).trans Finset.pred_card_le_card_erase
      · intro _ hplay heq
        rw [Finset.card_erase_of_mem (h.goes hth hplay), heq]
  | decrFailed _ =>
    cases hmay with
    | stop =>
      exact hsame (by simp [joins, hp]) (by simp [leaves, hp, hans])
  | reset =>
    refine ⟨Nat.zero_le _, fun hun => ?_⟩
    cases hmay with
    | unpublishViewers =>
      have hkey := h.counterKey hth rfl (by simp [Op.counts])
      cases hkey
      simp [unpublishes, hp] at hun
  | resetFailed _ =>
    cases hmay with
    | unpublishViewers =>
      exact hsame (by simp [joins, hp]) (by simp [leaves, hp])

/-- The counter after a run: never above the number of viewers inside, and that number if
nothing has reset it and every `OnPlay` has counted. -/
theorem Viewing.counted (h : Viewing s own key id w ts) :
    ∃ n, Steady key id n (Machine.final (.start w) ts).world ∧ n ≤ (inside own id ts).card ∧
      ((∀ t ∈ ts, unpublishes key t = false) → (∀ t ∈ ts, playFails key t = false) →
        n = (inside own id ts).card) := by
  induction ts using List.reverseRecOn with
  | nil => exact ⟨0, h.zero, Nat.zero_le _, fun _ _ => rfl⟩
  | append_singleton ts t ih =>
    obtain ⟨n, hn, hle, heq⟩ := ih h.of_append
    obtain ⟨_, hbefore, hv, _⟩ := Machine.Trace.split h.trace
    have hquiet {P : ServerTransition → Prop} (hP : ∀ u ∈ ts ++ [t], P u) : (∀ u ∈ ts, P u) ∧ P t :=
      ⟨fun u hu => hP u (List.mem_append_left _ hu), hP t (by simp)⟩
    rw [Machine.final_append]
    show ∃ n, Steady key id n t.after.world ∧ _
    rw [← hbefore] at hn
    rcases hv.cases with ⟨call, hs⟩ | ⟨i, ch, call, o, k, r, w', hs⟩
    · have hnone : t.performed = none := hs.performed
      rw [inside_same (by simp [joins, hnone]) (by simp [leaves, hnone]), hs.after]
      exact ⟨n, hn, hle, fun hu hp => heq (hquiet hu).1 (hquiet hp).1⟩
    · have hw := h.watched_before (t := t) (by simp)
      obtain ⟨n', hchange, hn'⟩ := perform_steady ch (hw.spares hs) hn
      rw [StreamService.steps_perform hs] at hchange hn'
      obtain ⟨hle', heq'⟩ := h.of_append.next (hw.lawful.may hs) (hbefore ▸ hs.thread) hs.performed
        (congrArg Prod.fst (StreamService.steps_perform hs)) hchange hle
      refine ⟨n', ?_, hle', fun hu hp => ?_⟩
      · rw [hs.after]
        exact hn'
      · exact heq' (hquiet hu).2 (hquiet hp).1 (heq (hquiet hu).1 (hquiet hp).1)

/-- **The viewer counter is never negative and never over-counts**, at any point of any
interleaving and whatever fails. It is the number of viewers whose `INCR` has run and
whose decrement has not, as long as no `OnUnpublish` has run and no `OnPlay` has failed. -/
theorem counter_le_inside (h : Viewing s own key id w ts) :
    ∃ n : Int, (Machine.final (.start w) ts).world.redis.getViewers id = .ok n ∧ 0 ≤ n ∧
      n ≤ (inside own id ts).card ∧
      ((∀ t ∈ ts, unpublishes key t = false) → (∀ t ∈ ts, playFails key t = false) →
        n = (inside own id ts).card) := by
  obtain ⟨n, hn, hle, heq⟩ := h.counted
  refine ⟨n, hn.getViewers, Int.natCast_nonneg n, Int.ofNat_le.mpr hle, fun hu hp => ?_⟩
  rw [heq hu hp]

end

/-! ### A viewer that was not counted -/

/-- Two viewers come, the first of them leaves. -/
def samplePlays (first : Choice) : List (Action Choice Call) :=
  [.spawn (.onPlay sampleKey.val), .spawn (.onPlay sampleKey.val), .step 0 {}, .step 1 {}, .step 1 {},
    .step 0 first] ++ (if first.fault then [] else [.step 0 {}]) ++
    [.spawn (.onStop sampleKey.val), .step 2 {}, .step 2 {}]

/-- Call 2 is of viewer 0. -/
def sampleOwn (j : Nat) : Nat := j - 2

def sampleViewing (ts : List ServerTransition) : Bool :=
  ts.all (keeps sampleID) && ts.all (departs sampleOwn sampleKey.val)

theorem viewing_sample {ts : List ServerTransition}
    (htr : StreamService.sample.machine.Trace (.start sampleStream) ts) (h : sampleViewing ts = true) :
    Viewing .sample sampleOwn sampleKey.val sampleID sampleStream ts := by
  simp only [sampleViewing, Bool.and_eq_true, List.all_eq_true] at h
  exact ⟨htr, steady_sampleStream, h.1, h.2⟩

/-- Both are counted, one is left. -/
theorem counter_le_inside_two :
    ∃ ts, Viewing .sample sampleOwn sampleKey.val sampleID sampleStream ts ∧
      (Machine.final (.start sampleStream) ts).world.redis.getViewers sampleID = .ok 1 := by
  obtain ⟨ts, htr, hP⟩ := Machine.exists_trace StreamService.sample.machine (.start sampleStream)
    (samplePlays {}) (fun ts => sampleViewing ts && ts.all (fun t => unpublishes sampleKey.val t = false) &&
      ts.all (fun t => playFails sampleKey.val t = false) && (inside sampleOwn sampleID ts).card = 1)
    (by decide)
  simp only [Bool.and_eq_true, List.all_eq_true, decide_eq_true_eq] at hP
  obtain ⟨⟨⟨hview, hun⟩, hplay⟩, hcard⟩ := hP
  have hviewing := viewing_sample htr hview
  obtain ⟨n, hn, _, _, heq⟩ := counter_le_inside hviewing
  refine ⟨ts, hviewing, ?_⟩
  rw [hn, heq hun hplay, hcard]
  rfl

/-- The `INCR` of the first fails, and its `OnStop` takes the second off the counter. -/
theorem counter_below_inside :
    ∃ ts, Viewing .sample sampleOwn sampleKey.val sampleID sampleStream ts ∧
      (∀ t ∈ ts, unpublishes sampleKey.val t = false) ∧
      (Machine.final (.start sampleStream) ts).world.redis.getViewers sampleID = .ok 0 ∧
      (inside sampleOwn sampleID ts).card = 1 := by
  obtain ⟨ts, htr, hP⟩ := Machine.exists_trace StreamService.sample.machine (.start sampleStream)
    (samplePlays { fault := true }) (fun ts => sampleViewing ts &&
      ts.all (fun t => unpublishes sampleKey.val t = false) &&
      (Machine.final (.start sampleStream) ts).world.redis.getViewers sampleID = .ok 0 &&
      (inside sampleOwn sampleID ts).card = 1)
    (by decide)
  simp only [Bool.and_eq_true, List.all_eq_true, decide_eq_true_eq] at hP
  obtain ⟨⟨⟨hview, hun⟩, hzero⟩, hcard⟩ := hP
  exact ⟨ts, viewing_sample htr hview, hun, hzero, hcard⟩

end LiveServer
