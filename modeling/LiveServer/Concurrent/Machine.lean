import LiveServer.Concurrent.Prog

/-! Programs run beside each other.

A `Machine` is a set of calls, the program each one runs, and what one operation
does to the shared world. A configuration is the world and every call ever made
with what is left of its program; finished calls stay, so a call keeps its index
for the whole run and its result can be read at the end. A step makes a new call
or lets one call perform its next operation. Nothing is said about which: a trace
is any sequence of steps, so a theorem about every trace covers every interleaving
of any number of calls.

Each step is kept as a `Transition` with the configurations around it. What a
proof needs of a step is `Valid.cases`; invariants are `Trace.invariant`; and
`Trace.path` says that the events of one call in any trace are a run of that
call's own program, whatever happened between them. -/
namespace LiveServer.Concurrent

/-- Calls, their programs, and the effect of one operation. -/
structure Machine (World Op : Type) (Res : Op → Type) (Choice Call Reply : Type) where
  perform : Choice → (o : Op) → World → Res o × World
  body : Call → Prog Op Res Reply

/-- A call and what is left of its program. -/
structure Thread (Op : Type) (Res : Op → Type) (Call Reply : Type) where
  call : Call
  rest : Prog Op Res Reply

structure Config (World Op : Type) (Res : Op → Type) (Call Reply : Type) where
  world : World
  threads : List (Thread Op Res Call Reply)

/-- A new call, or the next operation of the call at an index. -/
inductive Action (Choice Call : Type) where
  | spawn (call : Call)
  | step (i : Nat) (ch : Choice)

structure Transition (World Op : Type) (Res : Op → Type) (Choice Call Reply : Type) where
  before : Config World Op Res Call Reply
  action : Action Choice Call
  after : Config World Op Res Call Reply

/-- The operation a transition performs, and for which call. -/
structure Performed (Op Choice Call : Type) where
  index : Nat
  call : Call
  op : Op
  choice : Choice

section
variable {World Op : Type} {Res : Op → Type} {Choice Call Reply : Type}

/-- No call has been made. -/
def Config.start (w : World) : Config World Op Res Call Reply := ⟨w, []⟩

/-- What the call at an index has returned. -/
def Config.returned (c : Config World Op Res Call Reply) (i : Nat) : Option Reply :=
  match c.threads[i]? with
  | some ⟨_, .done a⟩ => some a
  | _ => none

/-- No call is in flight. -/
def Config.Quiescent (c : Config World Op Res Call Reply) : Prop :=
  ∀ th ∈ c.threads, th.rest.pending = none

def Transition.performed (t : Transition World Op Res Choice Call Reply) :
    Option (Performed Op Choice Call) :=
  match t.action with
  | .spawn _ => none
  | .step i ch =>
    match t.before.threads[i]? with
    | some ⟨call, .call o _⟩ => some ⟨i, call, o, ch⟩
    | _ => none

/-- The call a transition makes. -/
def Transition.spawned (t : Transition World Op Res Choice Call Reply) : Option Call :=
  match t.action with
  | .spawn call => some call
  | .step _ _ => none

namespace Machine
variable (M : Machine World Op Res Choice Call Reply)

def next (c : Config World Op Res Call Reply) :
    Action Choice Call → Option (Config World Op Res Call Reply)
  | .spawn call => some ⟨c.world, c.threads ++ [⟨call, M.body call⟩]⟩
  | .step i ch =>
    match c.threads[i]? with
    | some ⟨call, .call o k⟩ =>
      some ⟨(M.perform ch o c.world).2, c.threads.set i ⟨call, k (M.perform ch o c.world).1⟩⟩
    | _ => none

def Valid (t : Transition World Op Res Choice Call Reply) : Prop :=
  M.next t.before t.action = some t.after

/-- A transition that makes the call `call`. -/
structure Spawns (t : Transition World Op Res Choice Call Reply) (call : Call) : Prop where
  action : t.action = .spawn call
  after : t.after = ⟨t.before.world, t.before.threads ++ [⟨call, M.body call⟩]⟩

/-- A transition in which the call at `i` performs `o`, gets `r` and goes on with `k`,
leaving the world `w`. -/
structure Steps (t : Transition World Op Res Choice Call Reply) (i : Nat) (ch : Choice) (call : Call)
    (o : Op) (k : Res o → Prog Op Res Reply) (r : Res o) (w : World) : Prop where
  action : t.action = .step i ch
  thread : t.before.threads[i]? = some ⟨call, .call o k⟩
  answer : M.perform ch o t.before.world = (r, w)
  after : t.after = ⟨w, t.before.threads.set i ⟨call, k r⟩⟩

variable {M} {t : Transition World Op Res Choice Call Reply}

/-- Everything a step can do. -/
theorem Valid.cases (h : M.Valid t) :
    (∃ call, M.Spawns t call) ∨ ∃ i ch call o k r w, M.Steps t i ch call o k r w := by
  obtain ⟨before, action, after⟩ := t
  cases action with
  | spawn call =>
    left
    exact ⟨call, rfl, (Option.some.inj h).symm⟩
  | step i ch =>
    right
    unfold Valid next at h
    dsimp only at h
    split at h
    · rename_i call o k hth
      exact ⟨i, ch, call, o, k, _, _, rfl, hth, rfl, (Option.some.inj h).symm⟩
    · cases h

theorem Spawns.performed {call : Call} (h : M.Spawns t call) : t.performed = none := by
  unfold Transition.performed
  rw [h.action]

theorem Spawns.spawned {call : Call} (h : M.Spawns t call) : t.spawned = some call := by
  unfold Transition.spawned
  rw [h.action]

section
variable {i : Nat} {ch : Choice} {call : Call} {o : Op} {k : Res o → Prog Op Res Reply} {r : Res o}
  {w : World}

theorem Steps.performed (h : M.Steps t i ch call o k r w) : t.performed = some ⟨i, call, o, ch⟩ := by
  unfold Transition.performed
  rw [h.action]
  dsimp only
  rw [h.thread]

theorem Steps.world_after (h : M.Steps t i ch call o k r w) :
    t.after.world = (M.perform ch o t.before.world).2 := by
  rw [h.after, h.answer]

theorem Steps.mem (h : M.Steps t i ch call o k r w) :
    (⟨call, .call o k⟩ : Thread Op Res Call Reply) ∈ t.before.threads :=
  List.mem_of_getElem? h.thread

/-- A thread after a step is the one that moved or one that was there before. -/
theorem Steps.mem_after (h : M.Steps t i ch call o k r w) {th : Thread Op Res Call Reply}
    (hth : th ∈ t.after.threads) : th = ⟨call, k r⟩ ∨ th ∈ t.before.threads := by
  rw [h.after] at hth
  rcases List.mem_or_eq_of_mem_set hth with hth | hth
  · exact .inr hth
  · exact .inl hth

/-- The same with its index: the others keep theirs. -/
theorem Steps.mem_after_index (h : M.Steps t i ch call o k r w) {th : Thread Op Res Call Reply}
    (hth : th ∈ t.after.threads) :
    th = ⟨call, k r⟩ ∨ ∃ j, j ≠ i ∧ t.before.threads[j]? = some th := by
  obtain ⟨j, hj⟩ := List.mem_iff_getElem?.mp hth
  rw [h.after] at hj
  by_cases hij : i = j
  · subst hij
    rw [List.getElem?_set_self (List.getElem?_eq_some_iff.mp h.thread).1] at hj
    exact .inl (Option.some.inj hj).symm
  · rw [List.getElem?_set_ne hij] at hj
    exact .inr ⟨j, Ne.symm hij, hj⟩

theorem Steps.threads_after (h : M.Steps t i ch call o k r w) (j : Nat) :
    t.after.threads[j]? = if j = i then some ⟨call, k r⟩ else t.before.threads[j]? := by
  rw [h.after]
  by_cases hij : i = j
  · subst hij
    rw [if_pos rfl, List.getElem?_set_self (List.getElem?_eq_some_iff.mp h.thread).1]
  · rw [if_neg (Ne.symm hij), List.getElem?_set_ne hij]

/-- Who is at an index after a step was there before it. -/
theorem Steps.thread_before (h : M.Steps t i ch call o k r w) {j : Nat} {th : Thread Op Res Call Reply}
    (hth : t.after.threads[j]? = some th) :
    ∃ th₀, t.before.threads[j]? = some th₀ ∧ th₀.call = th.call := by
  rw [h.threads_after] at hth
  split at hth
  · rename_i hj
    cases hth
    exact ⟨⟨call, .call o k⟩, hj ▸ h.thread, rfl⟩
  · exact ⟨th, hth, rfl⟩

/-- A step leaves the calls as they are. -/
theorem Steps.calls (h : M.Steps t i ch call o k r w) :
    t.after.threads.map Thread.call = t.before.threads.map Thread.call := by
  rw [h.after]
  refine List.ext_getElem? fun j => ?_
  rw [List.getElem?_map, List.getElem?_map]
  by_cases hij : i = j
  · subst hij
    rw [List.getElem?_set_self (List.getElem?_eq_some_iff.mp h.thread).1, h.thread]
    rfl
  · rw [List.getElem?_set_ne hij]

/-- The thread that moved is there after the step. -/
theorem Steps.moved (h : M.Steps t i ch call o k r w) :
    (⟨call, k r⟩ : Thread Op Res Call Reply) ∈ t.after.threads := by
  rw [h.after]
  exact List.mem_set (List.getElem?_eq_some_iff.mp h.thread).1 _

/-- A thread before a step is the one that moves or is there after it. -/
theorem Steps.mem_before (h : M.Steps t i ch call o k r w) {th : Thread Op Res Call Reply}
    (hth : th ∈ t.before.threads) : th = ⟨call, .call o k⟩ ∨ th ∈ t.after.threads := by
  rw [h.after]
  obtain ⟨j, hj⟩ := List.mem_iff_getElem?.mp hth
  by_cases hij : i = j
  · subst hij
    rw [h.thread] at hj
    exact .inl (Option.some.inj hj).symm
  · right
    apply List.mem_iff_getElem?.mpr
    exact ⟨j, by rw [List.getElem?_set_ne hij]; exact hj⟩

end

/-- A transition with a performed operation is a step of that call. -/
theorem Valid.steps (h : M.Valid t) {i : Nat} {call : Call} {o : Op} {ch : Choice}
    (hp : t.performed = some ⟨i, call, o, ch⟩) : ∃ k r w, M.Steps t i ch call o k r w := by
  rcases h.cases with ⟨call, hs⟩ | ⟨i, ch, call, o, k, r, w, hs⟩
  · rw [hs.performed] at hp
    cases hp
  · rw [hs.performed] at hp
    cases hp
    exact ⟨k, r, w, hs⟩

/-- A new call leaves the world alone, so what the steps keep of it is kept. -/
theorem Valid.world {I : World → Prop} (h : M.Valid t) (hbefore : I t.before.world)
    (hstep : ∀ {i ch call o k r w}, M.Steps t i ch call o k r w → I w) : I t.after.world := by
  rcases h.cases with ⟨call, hs⟩ | ⟨i, ch, call, o, k, r, w, hs⟩
  · rw [hs.after]
    exact hbefore
  · rw [hs.after]
    exact hstep hs

/-- What some call owes it still owes after a step that does not perform it. -/
theorem Valid.owes (h : M.Valid t) {goal : Op → Prop}
    (hdo : ∀ i call o ch, t.performed = some ⟨i, call, o, ch⟩ → ¬ goal o)
    (howes : ∃ th ∈ t.before.threads, th.rest.Owes goal) :
    ∃ th ∈ t.after.threads, th.rest.Owes goal := by
  obtain ⟨th, hth, howe⟩ := howes
  rcases h.cases with ⟨call, hs⟩ | ⟨i, ch, call, o, k, r, w, hs⟩
  · refine ⟨th, ?_, howe⟩
    rw [hs.after]
    exact List.mem_append_left _ hth
  · rcases hs.mem_before hth with rfl | hth
    · exact ⟨_, hs.moved, howe.next (hdo i call o ch hs.performed) r⟩
    · exact ⟨th, hth, howe⟩

theorem Spawns.mem_after {call : Call} (h : M.Spawns t call) {th : Thread Op Res Call Reply} :
    th ∈ t.after.threads ↔ th ∈ t.before.threads ∨ th = ⟨call, M.body call⟩ := by
  rw [h.after]
  simp

theorem Spawns.threads_after {call : Call} (h : M.Spawns t call) (j : Nat) :
    t.after.threads[j]? =
      if j = t.before.threads.length then some ⟨call, M.body call⟩ else t.before.threads[j]? := by
  rw [h.after]
  by_cases hj : j = t.before.threads.length
  · subst hj
    simp
  · rw [if_neg hj]
    rcases Nat.lt_or_gt_of_ne hj with hlt | hgt
    · exact List.getElem?_append_left hlt
    · rw [List.getElem?_eq_none (by simp; omega), List.getElem?_eq_none (by omega)]

/-- Who was there before a new call is at its place still. -/
theorem Spawns.thread_after {call : Call} (h : M.Spawns t call) {j : Nat} {th : Thread Op Res Call Reply}
    (hth : t.before.threads[j]? = some th) : t.after.threads[j]? = some th := by
  rw [h.threads_after, if_neg, hth]
  rintro rfl
  simp at hth

theorem Spawns.calls {call : Call} (h : M.Spawns t call) :
    t.after.threads.map Thread.call = t.before.threads.map Thread.call ++ [call] := by
  rw [h.after, List.map_append]
  rfl

/-! ### Traces -/

variable (M)

/-- `ts` is a run from `c`. -/
def Trace : Config World Op Res Call Reply → List (Transition World Op Res Choice Call Reply) → Prop
  | _, [] => True
  | c, t :: ts => t.before = c ∧ M.Valid t ∧ Trace t.after ts

/-- Where a run from `c` ends. -/
def final (c : Config World Op Res Call Reply) :
    List (Transition World Op Res Choice Call Reply) → Config World Op Res Call Reply
  | [] => c
  | t :: ts => final t.after ts

/-- The run that takes the given actions, if each of them is possible. -/
def run (c : Config World Op Res Call Reply) :
    List (Action Choice Call) → Option (List (Transition World Op Res Choice Call Reply))
  | [] => some []
  | a :: rest =>
    match M.next c a with
    | none => none
    | some c' => (run c' rest).map (⟨c, a, c'⟩ :: ·)

variable {M}
variable {c : Config World Op Res Call Reply} {ts : List (Transition World Op Res Choice Call Reply)}

theorem run_trace {as : List (Action Choice Call)} (h : M.run c as = some ts) : M.Trace c ts := by
  induction as generalizing c ts with
  | nil =>
    cases h
    trivial
  | cons a rest ih =>
    unfold run at h
    split at h
    · cases h
    · rename_i c' hc'
      obtain ⟨rest', hrest, rfl⟩ := Option.map_eq_some_iff.mp h
      exact ⟨rfl, hc', ih hrest⟩

/-- A schedule that leads to what is looked for is a run that does. -/
theorem exists_trace (M : Machine World Op Res Choice Call Reply) (c : Config World Op Res Call Reply)
    (as : List (Action Choice Call)) (P : List (Transition World Op Res Choice Call Reply) → Bool)
    (h : (M.run c as).any P = true) : ∃ ts, M.Trace c ts ∧ P ts = true := by
  obtain ⟨ts, hts, hP⟩ := (Option.any_eq_true _ _).mp h
  exact ⟨ts, run_trace hts, hP⟩

theorem final_append (c : Config World Op Res Call Reply)
    (a b : List (Transition World Op Res Choice Call Reply)) :
    final c (a ++ b) = final (final c a) b := by
  induction a generalizing c with
  | nil => rfl
  | cons t rest ih => exact ih _

theorem trace_append (a b : List (Transition World Op Res Choice Call Reply)) :
    M.Trace c (a ++ b) ↔ M.Trace c a ∧ M.Trace (final c a) b := by
  induction a generalizing c with
  | nil => simp [Trace, final]
  | cons t rest ih => simp [Trace, final, ih, and_assoc]

/-- What every step keeps holds at the end of every run. -/
theorem Trace.invariant {I : Config World Op Res Call Reply → Prop}
    {G : Transition World Op Res Choice Call Reply → Prop}
    (step : ∀ t, M.Valid t → G t → I t.before → I t.after)
    (h : M.Trace c ts) (hok : ∀ t ∈ ts, G t) (hc : I c) : I (final c ts) := by
  induction ts generalizing c with
  | nil => exact hc
  | cons t rest ih =>
    obtain ⟨rfl, hv, hrest⟩ := h
    exact ih hrest (fun u hu => hok u (List.mem_cons_of_mem t hu))
      (step t hv (hok t List.mem_cons_self) hc)

/-- A transition of a run and what comes before and after it. -/
theorem Trace.split {t : Transition World Op Res Choice Call Reply} {a b : List _}
    (h : M.Trace c (a ++ t :: b)) :
    M.Trace c a ∧ t.before = final c a ∧ M.Valid t ∧ M.Trace t.after b := by
  obtain ⟨ha, hb, hv, ht⟩ := (trace_append a (t :: b)).mp h
  exact ⟨ha, hb, hv, ht⟩

theorem Trace.valid {t : Transition World Op Res Choice Call Reply} (h : M.Trace c ts) (ht : t ∈ ts) :
    M.Valid t := by
  obtain ⟨a, b, rfl⟩ := List.append_of_mem ht
  exact (Trace.split h).2.2.1

/-- What every step keeps holds before every step of every run. -/
theorem Trace.invariant_before {I : Config World Op Res Call Reply → Prop}
    {G : Transition World Op Res Choice Call Reply → Prop}
    (step : ∀ t, M.Valid t → G t → I t.before → I t.after)
    (h : M.Trace c ts) (hok : ∀ t ∈ ts, G t) (hc : I c)
    {t : Transition World Op Res Choice Call Reply} (ht : t ∈ ts) : I t.before := by
  obtain ⟨a, b, rfl⟩ := List.append_of_mem ht
  obtain ⟨ha, hb, _, _⟩ := Trace.split h
  rw [hb]
  exact Trace.invariant step ha (fun u hu => hok u (List.mem_append_left _ hu)) hc

/-- A property that bodies have and that performing an operation keeps, every thread
has. -/
theorem threads_step {H : Call → Prog Op Res Reply → Prop} (hbody : ∀ call, H call (M.body call))
    (hnext : ∀ call o k r, H call (.call o k) → H call (k r)) (hv : M.Valid t)
    (h : ∀ th ∈ t.before.threads, H th.call th.rest) :
    ∀ th ∈ t.after.threads, H th.call th.rest := by
  intro th hth
  rcases hv.cases with ⟨call, hs⟩ | ⟨i, ch, call, o, k, r, w, hs⟩
  · rcases hs.mem_after.mp hth with hth | rfl
    · exact h th hth
    · exact hbody call
  · rcases hs.mem_after hth with rfl | hth
    · exact hnext _ _ _ _ (h _ hs.mem)
    · exact h th hth

/-- What bodies do around each of their operations, every thread does. -/
theorem after_step {Q : Prog.Event Op Res → Prog Op Res Reply → Prop}
    (hbody : ∀ call, (M.body call).After Q) (hv : M.Valid t)
    (h : ∀ th ∈ t.before.threads, th.rest.After Q) : ∀ th ∈ t.after.threads, th.rest.After Q :=
  threads_step (H := fun _ p => p.After Q) hbody (fun _ _ _ r hc => (hc r).2) hv h

/-! ### The events of one call -/

variable (M)

/-- The event of the call at `i` in a transition, if that call moves. -/
def event (i : Nat) (t : Transition World Op Res Choice Call Reply) : Option (Prog.Event Op Res) :=
  match t.performed with
  | none => none
  | some p => if p.index = i then some ⟨p.op, (M.perform p.choice p.op t.before.world).1⟩ else none

def events (i : Nat) (ts : List (Transition World Op Res Choice Call Reply)) :
    List (Prog.Event Op Res) :=
  ts.filterMap (M.event i)

variable {M}

/-- The transition behind an event. -/
theorem mem_events {i : Nat} {e : Prog.Event Op Res} (h : e ∈ M.events i ts) :
    ∃ t ∈ ts, ∃ p, t.performed = some p ∧ p.index = i ∧
      ((⟨p.op, (M.perform p.choice p.op t.before.world).1⟩ : Prog.Event Op Res) = e) := by
  obtain ⟨t, ht, he⟩ := List.mem_filterMap.mp h
  refine ⟨t, ht, ?_⟩
  unfold event at he
  split at he
  · cases he
  · rename_i p hp
    split at he
    · rename_i hi
      exact ⟨p, hp, hi, Option.some.inj he⟩
    · cases he

/-- The same, with the operation and its answer. -/
theorem performed_of_event {i : Nat} {o : Op} {r : Res o} (h : ⟨o, r⟩ ∈ M.events i ts) :
    ∃ t ∈ ts, ∃ call ch, t.performed = some ⟨i, call, o, ch⟩ ∧ (M.perform ch o t.before.world).1 = r := by
  obtain ⟨t, ht, ⟨j, call, o', ch⟩, hp, hj, he⟩ := mem_events h
  dsimp only at hj he
  subst hj
  obtain ⟨rfl, hr⟩ := Prog.Event.mk.inj he
  exact ⟨t, ht, call, ch, hp, eq_of_heq hr⟩

/-- The event behind a transition. -/
theorem mem_events_of_performed {p : Performed Op Choice Call} (ht : t ∈ ts) (hp : t.performed = some p) :
    ⟨p.op, (M.perform p.choice p.op t.before.world).1⟩ ∈ M.events p.index ts := by
  refine List.mem_filterMap.mpr ⟨t, ht, ?_⟩
  unfold event
  rw [hp]
  exact if_pos rfl

private theorem path_step {i : Nat} {th : Thread Op Res Call Reply} (hv : M.Valid t)
    (hth : t.before.threads[i]? = some th) :
    ∃ th', t.after.threads[i]? = some th' ∧ th'.call = th.call ∧
      ∀ es q, Prog.Path th'.rest es q → Prog.Path th.rest ((M.event i t).toList ++ es) q := by
  have hi : i < t.before.threads.length := (List.getElem?_eq_some_iff.mp hth).1
  rcases hv.cases with ⟨call, hs⟩ | ⟨j, ch, call, o, k, r, w, hs⟩
  · refine ⟨th, ?_, rfl, fun es q hq => ?_⟩
    · rw [hs.after]
      exact (List.getElem?_append_left hi).trans hth
    · simpa [event, hs.performed] using hq
  · by_cases hij : j = i
    · subst hij
      rw [hs.thread] at hth
      cases hth
      refine ⟨⟨call, k r⟩, ?_, rfl, fun es q hq => ?_⟩
      · rw [hs.after]
        exact List.getElem?_set_self hi
      · simpa [event, hs.performed, hs.answer] using Prog.Path.cons hq
    · refine ⟨th, ?_, rfl, fun es q hq => ?_⟩
      · rw [hs.after]
        exact (List.getElem?_set_ne hij).trans hth
      · simpa [event, hs.performed, hij] using hq

private theorem event_of_length {i : Nat} (hi : t.before.threads.length ≤ i) : M.event i t = none := by
  unfold event
  cases hp : t.performed with
  | none => rfl
  | some p =>
    have hlt : p.index < t.before.threads.length := by
      unfold Transition.performed at hp
      split at hp
      · cases hp
      · split at hp
        · rename_i hth
          cases hp
          exact (List.getElem?_eq_some_iff.mp hth).1
        · cases hp
    dsimp only
    rw [if_neg (by omega)]

/-- From a configuration on, a call's events are a run of what was left of it. -/
theorem Trace.path {i : Nat} {th : Thread Op Res Call Reply} (h : M.Trace c ts)
    (hth : c.threads[i]? = some th) :
    ∃ th', (final c ts).threads[i]? = some th' ∧ th'.call = th.call ∧
      Prog.Path th.rest (M.events i ts) th'.rest := by
  induction ts generalizing c th with
  | nil => exact ⟨th, hth, rfl, .nil⟩
  | cons t rest ih =>
    obtain ⟨rfl, hv, hrest⟩ := h
    obtain ⟨th₁, hth₁, hcall₁, hpath⟩ := path_step hv hth
    obtain ⟨th', hth', hcall', hp⟩ := ih hrest hth₁
    refine ⟨th', hth', hcall'.trans hcall₁, ?_⟩
    have := hpath _ _ hp
    unfold events at this ⊢
    rw [List.filterMap_cons]
    cases he : M.event i t with
    | none => simpa [he] using this
    | some e => simpa [he] using this

/-- **The events of a call are a run of its program**, whatever other calls do
between them. -/
theorem Trace.path_of_spawned {i : Nat} {th : Thread Op Res Call Reply} (h : M.Trace c ts)
    (hi : c.threads.length ≤ i) (hth : (final c ts).threads[i]? = some th) :
    Prog.Path (M.body th.call) (M.events i ts) th.rest := by
  induction ts generalizing c with
  | nil => exact absurd (List.getElem?_eq_some_iff.mp hth).1 (Nat.not_lt.mpr hi)
  | cons t rest ih =>
    obtain ⟨rfl, hv, hrest⟩ := h
    have hnone : M.event i t = none := event_of_length hi
    have hev : M.events i (t :: rest) = M.events i rest := by
      simp [events, hnone]
    rw [hev]
    by_cases hafter : t.after.threads.length ≤ i
    · exact ih hrest hafter hth
    · rcases hv.cases with ⟨call, hs⟩ | ⟨j, ch, call, o, k, r, w, hs⟩
      · have hlen : i = t.before.threads.length := by
          rw [hs.after] at hafter
          simp only [List.length_append, List.length_cons, List.length_nil] at hafter
          omega
        have hnew : t.after.threads[i]? = some ⟨call, M.body call⟩ := by
          rw [hs.after, hlen]
          simp
        obtain ⟨th', hth', hcall, hp⟩ := Trace.path hrest hnew
        have heq : th' = th := Option.some.inj (hth'.symm.trans hth)
        subst heq
        rw [hcall]
        exact hp
      · rw [hs.after] at hafter
        simp only [List.length_set] at hafter
        omega

/-- Whoever moves at an index is found there at the end. -/
theorem Trace.thread_of_performed {i : Nat} {call : Call} {o : Op} {ch : Choice} (h : M.Trace c ts)
    (ht : t ∈ ts) (hp : t.performed = some ⟨i, call, o, ch⟩) :
    ∃ th, (final c ts).threads[i]? = some th ∧ th.call = call := by
  obtain ⟨a, b, rfl⟩ := List.append_of_mem ht
  obtain ⟨_, _, hv, hb⟩ := Trace.split h
  obtain ⟨k, r, w, hs⟩ := hv.steps hp
  have hfin : final c (a ++ t :: b) = final t.before (t :: b) := by
    rw [final_append]
    rfl
  obtain ⟨th, hth, hcall, _⟩ := Trace.path
    (show M.Trace t.before (t :: b) from ⟨rfl, hv, hb⟩) hs.thread
  rw [hfin]
  exact ⟨th, hth, hcall⟩

/-- A call keeps its index: whoever moves at `i` is who is found there at the end. -/
theorem Trace.call_of_performed {i : Nat} {call : Call} {o : Op} {ch : Choice}
    {th : Thread Op Res Call Reply} (h : M.Trace c ts) (ht : t ∈ ts)
    (hp : t.performed = some ⟨i, call, o, ch⟩) (hth : (final c ts).threads[i]? = some th) :
    th.call = call := by
  obtain ⟨th', hth', hcall⟩ := h.thread_of_performed ht hp
  cases hth.symm.trans hth'
  exact hcall

/-- Whatever a run performs is what the program of the call can do. -/
theorem Trace.performed_every {P : Call → Op → Prop} (h : M.Trace c ts) (hstart : c.threads = [])
    (hbody : ∀ call, (M.body call).Every (P call)) (ht : t ∈ ts) {i : Nat} {call : Call} {o : Op} {ch : Choice}
    (hp : t.performed = some ⟨i, call, o, ch⟩) : P call o := by
  obtain ⟨a, b, rfl⟩ := List.append_of_mem ht
  obtain ⟨ha, hbefore, hv, _⟩ := Trace.split h
  obtain ⟨k, r, w, hs⟩ := hv.steps hp
  have hth := hs.thread
  rw [hbefore] at hth
  exact ((Trace.path_of_spawned ha (by simp [hstart]) hth).every (hbody call)).1

/-- A call that performs an operation has performed what guards it before. -/
theorem Trace.guarded {A : Op → Prop} {G : Prog.Event Op Res → Prop}
    {a b : List (Transition World Op Res Choice Call Reply)} (h : M.Trace c (a ++ t :: b))
    (hstart : c.threads = []) {i : Nat} {call : Call} {o : Op} {ch : Choice}
    (hp : t.performed = some ⟨i, call, o, ch⟩) (hbody : (M.body call).Guards A G) (ho : A o) :
    ∃ u ∈ a, ∃ o' ch', u.performed = some ⟨i, call, o', ch'⟩ ∧
      G ⟨o', (M.perform ch' o' u.before.world).1⟩ := by
  obtain ⟨ha, hbefore, hv, _⟩ := Trace.split h
  obtain ⟨k, r, w, hs⟩ := hv.steps hp
  have hth := hs.thread
  rw [hbefore] at hth
  obtain ⟨e, he, hG⟩ := (Trace.path_of_spawned ha (by simp [hstart]) hth).guards hbody rfl ho
  obtain ⟨u, hu, ⟨j, call', o', ch'⟩, hpu, hj, heq⟩ := mem_events he
  dsimp only at hj heq
  subst hj
  have hcall := Trace.call_of_performed ha hu hpu hth
  dsimp only at hcall
  subst hcall
  exact ⟨u, hu, o', ch', hpu, heq ▸ hG⟩

/-- A call that has returned a result has performed what the result requires. -/
theorem Trace.performed_of_returned {i : Nat} {call : Call} {a : Reply} {A : Reply → Prop}
    {G : Prog.Event Op Res → Prop} (h : M.Trace c ts) (hi : c.threads.length ≤ i)
    (hth : (final c ts).threads[i]? = some ⟨call, .done a⟩) (hreq : (M.body call).Requires A G)
    (ha : A a) :
    ∃ t ∈ ts, ∃ o ch r, t.performed = some ⟨i, call, o, ch⟩ ∧
      (M.perform ch o t.before.world).1 = r ∧ G ⟨o, r⟩ := by
  obtain ⟨e, he, hG⟩ := (Trace.path_of_spawned h hi hth).requires hreq rfl ha
  obtain ⟨t, ht, ⟨j, call', o, ch⟩, hp, hj, heq⟩ := mem_events he
  dsimp only at hj heq
  subst hj
  have hcall := Trace.call_of_performed h ht hp hth
  dsimp only at hcall
  subst hcall
  exact ⟨t, ht, o, ch, _, hp, rfl, heq ▸ hG⟩

end Machine
end
end LiveServer.Concurrent
