import LiveServer.Concurrent.Machine
import Mathlib.Algebra.GroupWithZero.Nat
import Mathlib.Algebra.Order.BigOperators.Group.List
import Mathlib.Algebra.Order.Group.Nat

/-! What programs end with, and what they have counted by then.

`Returns` bounds the results of a program, `Commits` those it can still have once it has
done something, and `Tallies` says that a program has counted as much as its result tells.
Each has a rule for the machine: whatever the other calls do in between, the replies of a
run are among those of the bodies (`Trace.returns`), a call that did something ends as its
program commits it to (`Trace.commits`), and what the calls of a run have counted together
is the sum of what their replies tell (`Trace.tally_le`, `Trace.tally_eq`). -/
namespace LiveServer.Concurrent

namespace Prog
variable {Op : Type} {Res : Op → Type} {α β : Type}

/-! ### Results -/

/-- Every result the program can end with is in `A`. -/
def Returns (A : α → Prop) : Prog Op Res α → Prop
  | .done a => A a
  | .call _ k => ∀ r, (k r).Returns A

theorem Returns.mono {A A' : α → Prop} (hA : ∀ a, A a → A' a) {p : Prog Op Res α} (h : p.Returns A) :
    p.Returns A' := by
  induction p with
  | done a => exact hA a h
  | call o k ih => exact fun r => ih r (h r)

theorem returns_of_forall {A : α → Prop} (h : ∀ a, A a) (p : Prog Op Res α) : p.Returns A := by
  induction p with
  | done a => exact h a
  | call o k ih => exact ih

theorem returns_bind {A : α → Prop} {B : β → Prop} {x : Prog Op Res α} {f : α → Prog Op Res β}
    (hx : x.Returns A) (hf : ∀ a, A a → (f a).Returns B) : (x >>= f).Returns B := by
  induction x with
  | done a => exact hf a hx
  | call o k ih => exact fun r => ih r (hx r)

/-- What the second part returns, the whole does. -/
theorem returns_of_rest {B : β → Prop} (x : Prog Op Res α) {f : α → Prog Op Res β}
    (hf : ∀ a, (f a).Returns B) : (x >>= f).Returns B := by
  induction x with
  | done a => exact hf a
  | call o k ih => exact ih

theorem returns_map {A : α → Prop} {B : β → Prop} (f : α → β) {p : Prog Op Res α} (h : p.Returns A)
    (hf : ∀ a, A a → B (f a)) : (f <$> p).Returns B :=
  returns_bind h hf

/-! ### Commitments -/

/-- Once the program has met an event in `W` it ends in `A`. -/
def Commits (W : Event Op Res → Prop) (A : α → Prop) : Prog Op Res α → Prop :=
  After fun e p => W e → p.Returns A

section
variable {W : Event Op Res → Prop} {A : α → Prop} {B : β → Prop}

/-- A program that can do nothing of the kind. -/
theorem Every.commits {P : Op → Prop} (hW : ∀ o r, P o → ¬ W ⟨o, r⟩) {p : Prog Op Res α} (h : p.Every P) :
    p.Commits W A :=
  h.after fun e _ he _ hw => absurd hw (hW e.op e.res he)

/-- A program that ends in `A` anyway. -/
theorem Returns.commits {p : Prog Op Res α} (h : p.Returns A) : p.Commits W A := by
  induction p with
  | done a => trivial
  | call o k ih => exact fun r => ⟨fun _ => h r, ih r (h r)⟩

theorem commits_op_bind {o : Op} {f : Res o → Prog Op Res β} :
    (op o >>= f).Commits W B ↔ ∀ r, (W ⟨o, r⟩ → (f r).Returns B) ∧ (f r).Commits W B := Iff.rfl

theorem commits_bind {x : Prog Op Res α} {f : α → Prog Op Res β} (hx : x.Commits W A)
    (hret : ∀ a, A a → (f a).Returns B) (hf : ∀ a, (f a).Commits W B) : (x >>= f).Commits W B := by
  induction x with
  | done a => exact hf a
  | call o k ih => exact fun r => ⟨fun hw => returns_bind ((hx r).1 hw) hret, ih r (hx r).2⟩

theorem commits_map (f : α → β) {p : Prog Op Res α} (h : p.Commits W A) (hf : ∀ a, A a → B (f a)) :
    (f <$> p).Commits W B :=
  commits_bind h hf fun _ => trivial

theorem Path.returns {p q : Prog Op Res α} {es : List (Event Op Res)} (h : Path p es q)
    (hp : p.Returns A) : q.Returns A := by
  induction h with
  | nil => exact hp
  | cons _ ih => exact ih (hp _)

/-- A program that has ended outside `A` has met no event in `W`. -/
theorem Path.commits {p q : Prog Op Res α} {es : List (Event Op Res)} (h : Path p es q)
    (hp : p.Commits W A) {a : α} (hq : q = .done a) (ha : ¬ A a) : ∀ e ∈ es, ¬ W e := by
  induction h with
  | nil => exact fun e he => absurd he List.not_mem_nil
  | @cons o k r es q hrest ih =>
    intro e he hw
    rcases List.mem_cons.mp he with rfl | he
    · have hret := hrest.returns ((hp r).1 hw)
      rw [hq] at hret
      exact ha hret
    · exact ih (hp r).2 hq e he hw

end

/-! ### Counts -/

/-- With `n` counted so far, the program has counted as much as its result tells when it
ends. -/
def Tallies (weight : Event Op Res → Nat) (total : α → Nat) : Nat → Prog Op Res α → Prop
  | n, .done a => n = total a
  | n, .call o k => ∀ r, (k r).Tallies weight total (n + weight ⟨o, r⟩)

section
variable {weight : Event Op Res → Nat} {total : α → Nat} {total' : β → Nat}

theorem tallies_op_bind {o : Op} {f : Res o → Prog Op Res β} {n : Nat} :
    (op o >>= f).Tallies weight total' n ↔ ∀ r, (f r).Tallies weight total' (n + weight ⟨o, r⟩) := Iff.rfl

theorem tallies_bind {x : Prog Op Res α} {f : α → Prog Op Res β} {n : Nat} (hx : x.Tallies weight total n)
    (hf : ∀ a, (f a).Tallies weight total' (total a)) : (x >>= f).Tallies weight total' n := by
  induction x generalizing n with
  | done a =>
    have hn : n = total a := hx
    rw [hn]
    exact hf a
  | call o k ih => exact fun r => ih r (hx r)

theorem tallies_map (f : α → β) {p : Prog Op Res α} {n : Nat} (h : p.Tallies weight total n)
    (hf : ∀ a, total' (f a) = total a) : (f <$> p).Tallies weight total' n :=
  tallies_bind h fun a => (hf a).symm

/-- A program that counts nothing. -/
theorem Every.tallies {P : Op → Prop} (hP : ∀ o r, P o → weight ⟨o, r⟩ = 0) {p : Prog Op Res α}
    (h : p.Every P) {n : Nat} (hret : p.Returns fun a => total a = n) : p.Tallies weight total n := by
  induction p with
  | done a =>
    show n = total a
    exact (show total a = n from hret).symm
  | call o k ih =>
    intro r
    rw [hP o r h.1]
    exact ih r (h.2 r) (hret r)

/-- The same, followed by a program that does. -/
theorem Every.tallies_bind {P : Op → Prop} (hP : ∀ o r, P o → weight ⟨o, r⟩ = 0) {x : Prog Op Res α}
    (hx : x.Every P) {f : α → Prog Op Res β} {n : Nat} (hf : ∀ a, (f a).Tallies weight total' n) :
    (x >>= f).Tallies weight total' n := by
  induction x with
  | done a => exact hf a
  | call o k ih =>
    intro r
    rw [hP o r hx.1]
    exact ih r (hx.2 r)

theorem Tallies.returns {p : Prog Op Res α} {n : Nat} (h : p.Tallies weight total n) :
    p.Returns fun a => n ≤ total a := by
  induction p generalizing n with
  | done a => exact Nat.le_of_eq h
  | call o k ih => exact fun r => (ih r (h r)).mono fun a ha => Nat.le_trans (Nat.le_add_right n _) ha

/-- Where only one kind of result tells anything, counting commits to it. -/
theorem Tallies.commits {W : Event Op Res → Prop} {P : α → Bool} {p : Prog Op Res α} {n : Nat}
    (hW : ∀ e, W e → 0 < weight e) (h : p.Tallies weight (fun a => (P a).toNat) n) :
    p.Commits W fun a => P a = true := by
  induction p generalizing n with
  | done a => trivial
  | call o k ih =>
    intro r
    refine ⟨fun hw => (h r).returns.mono fun a ha => ?_, ih r (h r)⟩
    have hpos := hW _ hw
    cases hP : P a with
    | true => rfl
    | false =>
      simp only [hP, Bool.toNat_false] at ha
      omega

/-- A program that has ended has met as many as its result tells. -/
theorem Path.tallies {p q : Prog Op Res α} {es : List (Event Op Res)} (h : Path p es q) {n : Nat}
    (hp : p.Tallies weight total n) {a : α} (hq : q = .done a) : n + (es.map weight).sum = total a := by
  induction h generalizing n with
  | nil =>
    rw [hq] at hp
    exact hp
  | cons _ ih =>
    rw [List.map_cons, List.sum_cons, ← Nat.add_assoc]
    exact ih (hp _) hq

end
end Prog

/-! ### Runs -/

section
variable {World Op : Type} {Res : Op → Type} {Choice Call Reply : Type}

/-- What the reply of a call tells, once there is one. -/
def Thread.tally (total : Call → Reply → Nat) (th : Thread Op Res Call Reply) : Nat :=
  match th.rest with
  | .done a => total th.call a
  | .call _ _ => 0

/-- What the replies of a configuration tell, together. -/
def Config.tally (total : Call → Reply → Nat) (c : Config World Op Res Call Reply) : Nat :=
  (c.threads.map (Thread.tally total)).sum

/-- The call has ended, with a reply that `P` picks. -/
def Thread.ended (P : Call → Reply → Bool) (th : Thread Op Res Call Reply) : Bool :=
  match th.rest with
  | .done a => P th.call a
  | .call _ _ => false

theorem sum_toNat {α : Type} (P : α → Bool) (l : List α) : (l.map fun a => (P a).toNat).sum = l.countP P := by
  induction l with
  | nil => rfl
  | cons a rest ih =>
    rw [List.map_cons, List.sum_cons, ih, List.countP_cons, Nat.add_comm]
    cases P a <;> rfl

/-- Where each reply tells one or nothing, the replies that tell one. -/
theorem Config.tally_eq_countP (P : Call → Reply → Bool) (c : Config World Op Res Call Reply) :
    c.tally (fun call a => (P call a).toNat) = c.threads.countP (Thread.ended P) := by
  have hth : Thread.tally (fun call a => (P call a).toNat) =
      fun th : Thread Op Res Call Reply => (th.ended P).toNat := by
    funext th
    obtain ⟨call, p⟩ := th
    cases p with
    | done a => rfl
    | call o k => rfl
  show (c.threads.map _).sum = _
  rw [hth, sum_toNat]

/-- A call that has not ended may have counted something already, one that has ended has
counted what its reply tells. -/
theorem Thread.tally_spec {weight : Prog.Event Op Res → Nat} {total : Call → Reply → Nat}
    {th : Thread Op Res Call Reply} {n : Nat} (h : th.rest.Tallies weight (total th.call) n) :
    th.tally total ≤ n ∧ (th.rest.pending = none → th.tally total = n) := by
  obtain ⟨call, p⟩ := th
  cases p with
  | done a =>
    have hn : n = total call a := h
    rw [hn]
    exact ⟨Nat.le_refl _, fun _ => rfl⟩
  | call o k =>
    refine ⟨Nat.zero_le n, ?_⟩
    intro hp
    cases hp

namespace Machine
variable {M : Machine World Op Res Choice Call Reply} {c : Config World Op Res Call Reply}
  {ts : List (Transition World Op Res Choice Call Reply)} {t : Transition World Op Res Choice Call Reply}

/-- A reply is one the body can end with. -/
theorem Trace.returns {A : Call → Reply → Prop} (h : M.Trace c ts) (hstart : c.threads = [])
    (hbody : ∀ call, (M.body call).Returns (A call)) {i : Nat} {call : Call} {a : Reply}
    (hth : (final c ts).threads[i]? = some ⟨call, .done a⟩) : A call a :=
  (Trace.path_of_spawned h (by simp [hstart]) hth).returns (hbody call)

/-- A call that has ended outside `A` has done nothing that commits it to `A`. -/
theorem Trace.commits {W : Prog.Event Op Res → Prop} {A : Reply → Prop} (h : M.Trace c ts)
    (hstart : c.threads = []) {i : Nat} {call : Call} {a : Reply}
    (hth : (final c ts).threads[i]? = some ⟨call, .done a⟩) (hbody : (M.body call).Commits W A)
    (ha : ¬ A a) {o : Op} {ch : Choice} {call' : Call} (ht : t ∈ ts)
    (hp : t.performed = some ⟨i, call', o, ch⟩) : ¬ W ⟨o, (M.perform ch o t.before.world).1⟩ :=
  (Trace.path_of_spawned h (by simp [hstart]) hth).commits hbody rfl ha _
    (mem_events_of_performed ht hp)

/-- A call that has ended has met as many as its reply tells. -/
theorem Trace.tallied {weight : Prog.Event Op Res → Nat} {total : Reply → Nat} (h : M.Trace c ts)
    (hstart : c.threads = []) {i : Nat} {call : Call} {a : Reply}
    (hth : (final c ts).threads[i]? = some ⟨call, .done a⟩) (hbody : (M.body call).Tallies weight total 0) :
    ((M.events i ts).map weight).sum = total a := by
  have hpath := Trace.path_of_spawned h (by simp [hstart]) hth
  rw [← hpath.tallies hbody rfl, Nat.zero_add]

/-- Each call with what it has counted so far. -/
structure Counted (weight : Prog.Event Op Res → Nat) (total : Call → Reply → Nat) (n : Nat)
    (c : Config World Op Res Call Reply) (g : List (Thread Op Res Call Reply × Nat)) : Prop where
  threads : g.map Prod.fst = c.threads
  counts : ∀ x ∈ g, x.1.rest.Tallies weight (total x.1.call) x.2
  sum : (g.map Prod.snd).sum = n

section
variable {weight : Prog.Event Op Res → Nat} {total : Call → Reply → Nat} {count : World → Nat} {base : Nat}
  {n : Nat} {g : List (Thread Op Res Call Reply × Nat)}

theorem Counted.spawn {call : Call} (h : Counted weight total n t.before g) (hs : M.Spawns t call)
    (hbody : (M.body call).Tallies weight (total call) 0) :
    Counted weight total n t.after (g ++ [(⟨call, M.body call⟩, 0)]) where
  threads := by
    rw [hs.after, List.map_append, h.threads]
    rfl
  counts x hx := by
    rcases List.mem_append.mp hx with hx | hx
    · exact h.counts x hx
    · rw [List.mem_singleton.mp hx]
      exact hbody
  sum := by
    rw [List.map_append, List.sum_append, h.sum]
    rfl

theorem Counted.step {i : Nat} {ch : Choice} {call : Call} {o : Op} {k : Res o → Prog Op Res Reply}
    {r : Res o} {w : World} (h : Counted weight total n t.before g) (hs : M.Steps t i ch call o k r w) :
    ∃ g', Counted weight total (n + weight ⟨o, r⟩) t.after g' := by
  have hthread := hs.thread
  rw [← h.threads, List.getElem?_map] at hthread
  obtain ⟨⟨th, m⟩, hg, hth⟩ := Option.map_eq_some_iff.mp hthread
  have hth : th = ⟨call, .call o k⟩ := hth
  obtain ⟨hi, hget⟩ := List.getElem?_eq_some_iff.mp hg
  have htally : (Prog.call o k).Tallies weight (total call) m := by
    have := h.counts _ (List.mem_of_getElem? hg)
    rwa [hth] at this
  -- only the pair at `i` changes
  obtain ⟨before, behind, hsplit, _, hset⟩ :=
    @List.exists_of_set _ i (⟨call, k r⟩, m + weight ⟨o, r⟩) g hi
  rw [hget] at hsplit
  refine ⟨g.set i (⟨call, k r⟩, m + weight ⟨o, r⟩), ?_, ?_, ?_⟩
  · rw [List.map_set, h.threads, hs.after]
  · intro x hx
    rcases List.mem_or_eq_of_mem_set hx with hx | rfl
    · exact h.counts x hx
    · exact htally r
  · have hsum := h.sum
    rw [hsplit] at hsum
    rw [hset]
    simp only [List.map_append, List.map_cons, List.sum_append, List.sum_cons] at hsum ⊢
    omega

theorem Counted.run (h : M.Trace c ts) (hstart : c.threads = [])
    (hbody : ∀ call, (M.body call).Tallies weight (total call) 0)
    (hcount : ∀ ch o w, count (M.perform ch o w).2 = count w + weight ⟨o, (M.perform ch o w).1⟩) :
    ∃ n g, Counted weight total n (final c ts) g ∧ count (final c ts).world = count c.world + n := by
  refine h.invariant (G := fun _ => True) (I := fun c' => ∃ n g, Counted weight total n c' g ∧
    count c'.world = count c.world + n) ?_ (fun _ _ => trivial) ⟨0, [], ⟨by simp [hstart], nofun, rfl⟩, rfl⟩
  intro t hv _ ⟨n, g, hg, hn⟩
  rcases hv.cases with ⟨call, hs⟩ | ⟨i, ch, call, o, k, r, w, hs⟩
  · refine ⟨n, _, hg.spawn hs (hbody call), ?_⟩
    rw [hs.after]
    exact hn
  · obtain ⟨g', hg'⟩ := hg.step hs
    refine ⟨_, g', hg', ?_⟩
    have hperf := hcount ch o t.before.world
    rw [hs.answer] at hperf
    rw [hs.after, hperf, hn, Nat.add_assoc]

theorem Counted.tally_le (h : Counted weight total n c g) : c.tally total ≤ n := by
  show (c.threads.map _).sum ≤ n
  rw [← h.threads, ← h.sum, List.map_map]
  exact List.sum_le_sum fun x hx => (Thread.tally_spec (h.counts x hx)).1

theorem Counted.tally_eq (h : Counted weight total n c g) (hquiet : c.Quiescent) : c.tally total = n := by
  have hdone (x : Thread Op Res Call Reply × Nat) (hx : x ∈ g) : x.1.rest.pending = none := by
    apply hquiet
    rw [← h.threads]
    exact List.mem_map_of_mem hx
  show (c.threads.map _).sum = n
  rw [← h.threads, ← h.sum, List.map_map]
  exact congrArg List.sum (List.map_congr_left fun x hx => (Thread.tally_spec (h.counts x hx)).2 (hdone x hx))

/-- **Counting along a run**: what the calls have counted is at least what their replies
tell, -/
theorem Trace.tally_le (h : M.Trace c ts) (hstart : c.threads = [])
    (hbody : ∀ call, (M.body call).Tallies weight (total call) 0)
    (hcount : ∀ ch o w, count (M.perform ch o w).2 = count w + weight ⟨o, (M.perform ch o w).1⟩) :
    count c.world + (final c ts).tally total ≤ count (final c ts).world := by
  obtain ⟨n, g, hg, hn⟩ := Counted.run h hstart hbody hcount
  have := hg.tally_le
  omega

/-- and exactly that when no call is in flight. -/
theorem Trace.tally_eq (h : M.Trace c ts) (hstart : c.threads = [])
    (hbody : ∀ call, (M.body call).Tallies weight (total call) 0)
    (hcount : ∀ ch o w, count (M.perform ch o w).2 = count w + weight ⟨o, (M.perform ch o w).1⟩)
    (hquiet : (final c ts).Quiescent) :
    count (final c ts).world = count c.world + (final c ts).tally total := by
  obtain ⟨n, g, hg, hn⟩ := Counted.run h hstart hbody hcount
  rw [hn, hg.tally_eq hquiet]

end
end Machine
end
end LiveServer.Concurrent
