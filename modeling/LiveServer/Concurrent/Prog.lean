import Mathlib.Data.List.Basic

/-! Programs of atomic operations.

A `Prog` is what a request handler is to everything around it: a tree of calls to
shared services, each one atomic, with the handler's own computation between them
folded into the continuations. The tree is the only description of the handler;
it is read in two ways. Run alone (`exec`) it is an ordinary function of the world
and of what the services choose to answer. Run beside others
(`Concurrent/Machine.lean`) each call is one step.

The predicates below are what proofs about either reading use: the operations a
program can perform (`Every`), what holds after each (`After`), what it does once
(`Once`), what it still has to do (`Owes`), what a result takes (`Requires`) or an
operation (`Guards`), the calls it has made so far (`Path`), and what it establishes
when it runs alone (`wp`). -/
namespace LiveServer.Concurrent

/-- A program: a result, or one operation and what to do with its answer. -/
inductive Prog (Op : Type) (Res : Op → Type) (α : Type) where
  | done (a : α)
  | call (o : Op) (k : Res o → Prog Op Res α)

namespace Prog
variable {Op : Type} {Res : Op → Type} {α β : Type}

def bind : Prog Op Res α → (α → Prog Op Res β) → Prog Op Res β
  | .done a, f => f a
  | .call o k, f => .call o fun r => (k r).bind f

instance : Monad (Prog Op Res) where
  pure := .done
  bind := bind

/-- The program that makes one call and returns its answer. -/
def op (o : Op) : Prog Op Res (Res o) := .call o .done

@[simp] theorem pure_eq (a : α) : (pure a : Prog Op Res α) = .done a := rfl

@[simp] theorem done_bind (a : α) (f : α → Prog Op Res β) : (Prog.done a >>= f) = f a := rfl

@[simp] theorem call_bind (o : Op) (k : Res o → Prog Op Res α) (f : α → Prog Op Res β) :
    (Prog.call o k >>= f) = .call o fun r => k r >>= f := rfl

@[simp] theorem op_bind (o : Op) (f : Res o → Prog Op Res β) : (op o >>= f) = .call o f := rfl

theorem bind_assoc {γ : Type} (x : Prog Op Res α) (f : α → Prog Op Res β) (g : β → Prog Op Res γ) :
    x >>= f >>= g = x >>= fun a => f a >>= g := by
  induction x with
  | done a => rfl
  | call o k ih =>
    show Prog.call o _ = Prog.call o _
    congr 1
    funext r
    exact ih r

theorem bind_pure (x : Prog Op Res α) : (x >>= fun a => pure a) = x := by
  induction x with
  | done a => rfl
  | call o k ih =>
    show Prog.call o _ = Prog.call o _
    congr 1
    funext r
    exact ih r

theorem map_bind {γ : Type} (f : β → γ) (x : Prog Op Res α) (k : α → Prog Op Res β) :
    f <$> (x >>= k) = x >>= fun a => f <$> k a :=
  bind_assoc x k _

/-! ### What a program can do -/

/-- The operation a program is about to perform. -/
def pending : Prog Op Res α → Option Op
  | .done _ => none
  | .call o _ => some o

/-- Every operation the program can perform satisfies `P`. -/
def Every (P : Op → Prop) : Prog Op Res α → Prop
  | .done _ => True
  | .call o k => P o ∧ ∀ r, (k r).Every P

@[simp] theorem every_done (P : Op → Prop) (a : α) : (.done a : Prog Op Res α).Every P := trivial

@[simp] theorem every_call (P : Op → Prop) (o : Op) (k : Res o → Prog Op Res α) :
    (Prog.call o k).Every P ↔ P o ∧ ∀ r, (k r).Every P := Iff.rfl

theorem Every.mono {P P' : Op → Prop} (hP : ∀ o, P o → P' o) {p : Prog Op Res α} (h : p.Every P) :
    p.Every P' := by
  induction p with
  | done a => trivial
  | call o k ih => exact ⟨hP o h.1, fun r => ih r (h.2 r)⟩

theorem every_bind {P : Op → Prop} {x : Prog Op Res α} {f : α → Prog Op Res β} (hx : x.Every P)
    (hf : ∀ a, (f a).Every P) : (x >>= f).Every P := by
  induction x with
  | done a => exact hf a
  | call o k ih => exact ⟨hx.1, fun r => ih r (hx.2 r)⟩

@[simp] theorem every_op (P : Op → Prop) (o : Op) : (op o : Prog Op Res (Res o)).Every P ↔ P o :=
  ⟨fun h => h.1, fun h => ⟨h, fun _ => trivial⟩⟩

theorem every_op_bind {P : Op → Prop} {o : Op} {f : Res o → Prog Op Res β} :
    (op o >>= f).Every P ↔ P o ∧ ∀ r, (f r).Every P := Iff.rfl

theorem every_map {P : Op → Prop} {x : Prog Op Res α} (f : α → β) (hx : x.Every P) :
    (f <$> x).Every P :=
  every_bind hx fun _ => trivial

theorem Every.pending {P : Op → Prop} {p : Prog Op Res α} {o : Op} (h : p.Every P)
    (ho : p.pending = some o) : P o := by
  cases p with
  | done a => cases ho
  | call o' k =>
    cases ho
    exact h.1

/-- One operation and its answer. -/
structure Event (Op : Type) (Res : Op → Type) where
  op : Op
  res : Res op

/-- Whenever the program has performed an operation, `Q` holds of the event and of
what is left. -/
def After (Q : Event Op Res → Prog Op Res α → Prop) : Prog Op Res α → Prop
  | .done _ => True
  | .call o k => ∀ r, Q ⟨o, r⟩ (k r) ∧ (k r).After Q

theorem after_op_bind {Q : Event Op Res → Prog Op Res β → Prop} {o : Op}
    {f : Res o → Prog Op Res β} :
    (op o >>= f).After Q ↔ ∀ r, Q ⟨o, r⟩ (f r) ∧ (f r).After Q := Iff.rfl

@[simp] theorem pending_map (f : α → β) (p : Prog Op Res α) : (f <$> p).pending = p.pending := by
  cases p with
  | done a => rfl
  | call o k => rfl

theorem After.map {Q : Event Op Res → Prog Op Res α → Prop} {Q' : Event Op Res → Prog Op Res β → Prop}
    {p : Prog Op Res α} (h : p.After Q) (f : α → β) (hQ : ∀ e q, Q e q → Q' e (f <$> q)) :
    (f <$> p).After Q' := by
  induction p with
  | done a => trivial
  | call o k ih => exact fun r => ⟨hQ _ _ (h r).1, ih r (h r).2⟩

/-- A program none of whose operations is of interest to `Q`. -/
theorem Every.after {P : Op → Prop} {Q : Event Op Res → Prog Op Res α → Prop}
    (hQ : ∀ e p, P e.op → p.Every P → Q e p) {p : Prog Op Res α} (h : p.Every P) : p.After Q := by
  induction p with
  | done a => trivial
  | call o k ih => exact fun r => ⟨hQ ⟨o, r⟩ (k r) h.1 (h.2 r), ih r (h.2 r)⟩

/-- The rest of such a program, after whatever event. -/
theorem Every.tail {P : Op → Prop} {Q : Event Op Res → Prog Op Res α → Prop}
    (hQ : ∀ e p, p.Every P → Q e p) {p : Prog Op Res α} (h : p.Every P) (e : Event Op Res) :
    Q e p ∧ p.After Q :=
  ⟨hQ e p h, h.after fun e p _ hp => hQ e p hp⟩

/-- On every way to its end the program performs an operation satisfying `goal`. -/
def Owes (goal : Op → Prop) : Prog Op Res α → Prop
  | .done _ => False
  | .call o k => goal o ∨ ∀ r, (k r).Owes goal

/-- What is owed stays owed until it is performed. -/
theorem Owes.next {goal : Op → Prop} {o : Op} {k : Res o → Prog Op Res α}
    (h : (Prog.call o k).Owes goal) (ho : ¬ goal o) (r : Res o) : (k r).Owes goal :=
  (h.resolve_left ho) r

theorem Owes.pending {goal : Op → Prop} {p : Prog Op Res α} (h : p.Owes goal) : p.pending ≠ none := by
  cases p with
  | done a => exact h.elim
  | call o k => exact nofun

theorem owes_bind {goal : Op → Prop} {x : Prog Op Res α} {f : α → Prog Op Res β} (h : x.Owes goal) :
    (x >>= f).Owes goal := by
  induction x with
  | done a => exact h.elim
  | call o k ih => exact h.imp id fun hk r => ih r (hk r)

/-- What is owed at the end is owed from the start. -/
theorem owes_of_rest {goal : Op → Prop} (x : Prog Op Res α) {f : α → Prog Op Res β}
    (h : ∀ a, (f a).Owes goal) : (x >>= f).Owes goal := by
  induction x with
  | done a => exact h a
  | call o k ih => exact .inr fun r => ih r

theorem owes_map {goal : Op → Prop} (f : α → β) {p : Prog Op Res α} (h : p.Owes goal) :
    (f <$> p).Owes goal := owes_bind h

/-- Every way to a result in `A` goes through an event in `G`. -/
def Requires (A : α → Prop) (G : Event Op Res → Prop) : Prog Op Res α → Prop
  | .done a => ¬ A a
  | .call o k => ∀ r, G ⟨o, r⟩ ∨ (k r).Requires A G

@[simp] theorem requires_done (A : α → Prop) (G : Event Op Res → Prop) (a : α) :
    (.done a : Prog Op Res α).Requires A G ↔ ¬ A a := Iff.rfl

theorem requires_op_bind {A : β → Prop} {G : Event Op Res → Prop} {o : Op}
    {f : Res o → Prog Op Res β} :
    (op o >>= f).Requires A G ↔ ∀ r, G ⟨o, r⟩ ∨ (f r).Requires A G := Iff.rfl

theorem requires_map {A : β → Prop} {G : Event Op Res → Prop} {x : Prog Op Res α} (f : α → β)
    (hx : x.Requires (fun a => A (f a)) G) : (f <$> x).Requires A G := by
  induction x with
  | done a => exact hx
  | call o k ih => exact fun r => (hx r).imp id (ih r)

/-- A result of the whole that takes one of the first part requires what that does. -/
theorem Requires.bind {A : α → Prop} {B : β → Prop} {G : Event Op Res → Prop} {x : Prog Op Res α}
    {f : α → Prog Op Res β} (hx : x.Requires A G) (hf : ∀ a, ¬ A a → (f a).Requires B G) :
    (x >>= f).Requires B G := by
  induction x with
  | done a => exact hf a hx
  | call o k ih => exact fun r => (hx r).imp id (ih r)

/-- What the second part requires, the whole does. -/
theorem requires_bind {A : β → Prop} {G : Event Op Res → Prop} (x : Prog Op Res α)
    {f : α → Prog Op Res β} (hf : ∀ a, (f a).Requires A G) : (x >>= f).Requires A G := by
  induction x with
  | done a => exact hf a
  | call o k ih => exact fun r => .inr (ih r)

/-- Every way to an operation in `A` goes through an event in `G`. -/
def Guards (A : Op → Prop) (G : Event Op Res → Prop) : Prog Op Res α → Prop
  | .done _ => True
  | .call o k => ¬ A o ∧ ∀ r, G ⟨o, r⟩ ∨ (k r).Guards A G

theorem guards_op_bind {A : Op → Prop} {G : Event Op Res → Prop} {o : Op} {f : Res o → Prog Op Res β} :
    (op o >>= f).Guards A G ↔ ¬ A o ∧ ∀ r, G ⟨o, r⟩ ∨ (f r).Guards A G := Iff.rfl

theorem Every.guards {A : Op → Prop} {G : Event Op Res → Prop} {p : Prog Op Res α}
    (h : p.Every fun o => ¬ A o) : p.Guards A G := by
  induction p with
  | done a => trivial
  | call o k ih => exact ⟨h.1, fun r => .inr (ih r (h.2 r))⟩

/-- A program that is about to do something in `A` only if `B` holds. -/
theorem Every.guards_or {A : Op → Prop} {G : Event Op Res → Prop} {B : Prop} {p : Prog Op Res α}
    (h : p.Every fun o => A o → B) : B ∨ p.Guards A G := by
  by_cases hB : B
  · exact .inl hB
  · right
    apply Every.guards
    refine Every.mono ?_ h
    intro o ho ha
    exact hB (ho ha)

theorem guards_bind {A : Op → Prop} {G : Event Op Res → Prop} {x : Prog Op Res α} {f : α → Prog Op Res β}
    (hx : x.Guards A G) (hf : ∀ a, (f a).Guards A G) : (x >>= f).Guards A G := by
  induction x with
  | done a => exact hf a
  | call o k ih => exact ⟨hx.1, fun r => (hx.2 r).imp id (ih r)⟩

theorem guards_map {A : Op → Prop} {G : Event Op Res → Prop} (f : α → β) {p : Prog Op Res α}
    (h : p.Guards A G) : (f <$> p).Guards A G := by
  induction p with
  | done a => trivial
  | call o k ih => exact ⟨h.1, fun r => (h.2 r).imp id (ih r)⟩

/-- After an operation in `A` there is no other one. -/
def Once (A : Op → Prop) : Prog Op Res α → Prop :=
  After fun e p => A e.op → p.Every fun o => ¬ A o

theorem Every.once {A : Op → Prop} {p : Prog Op Res α} (h : p.Every fun o => ¬ A o) : p.Once A := by
  apply Every.after (P := fun o => ¬ A o) _ h
  intro e q he hq ha
  exact absurd ha he

theorem once_op_bind {A : Op → Prop} {o : Op} {f : Res o → Prog Op Res β} (ho : ¬ A o)
    (hf : ∀ r, (f r).Once A) : (op o >>= f).Once A :=
  fun r => ⟨fun ha => absurd ha ho, hf r⟩

theorem once_op {A : Op → Prop} (o : Op) : (op o : Prog Op Res (Res o)).Once A :=
  fun _ => ⟨fun _ => trivial, trivial⟩

theorem once_bind {A : Op → Prop} {x : Prog Op Res α} {f : α → Prog Op Res β} (hx : x.Once A)
    (hf : ∀ a, (f a).Every fun o => ¬ A o) : (x >>= f).Once A := by
  induction x with
  | done a => exact (hf a).once
  | call o k ih => exact fun r => ⟨fun ha => every_bind ((hx r).1 ha) hf, ih r (hx r).2⟩

theorem once_map {A : Op → Prop} (f : α → β) {p : Prog Op Res α} (h : p.Once A) : (f <$> p).Once A :=
  After.map h f fun _ _ hq ha => every_map f (hq ha)

/-- A loop over a list. -/
def forEach (body : α → Prog Op Res Unit) : List α → Prog Op Res Unit
  | [] => .done ()
  | a :: rest => body a >>= fun _ => forEach body rest

theorem every_forEach {P : Op → Prop} {body : α → Prog Op Res Unit} (h : ∀ a, (body a).Every P)
    (l : List α) : (forEach body l).Every P := by
  induction l with
  | nil => trivial
  | cons a rest ih => exact every_bind (h a) fun _ => ih

theorem every_forEach_mem {P : Op → Prop} {body : α → Prog Op Res Unit} {l : List α}
    (h : ∀ a ∈ l, (body a).Every P) : (forEach body l).Every P := by
  induction l with
  | nil => trivial
  | cons a rest ih =>
    exact every_bind (h a List.mem_cons_self) fun _ => ih fun b hb => h b (List.mem_cons_of_mem a hb)

/-- A loop owes what it owes at one of its elements. -/
theorem owes_forEach {goal : Op → Prop} {body : α → Prog Op Res Unit} {l : List α} {a : α} (ha : a ∈ l)
    (h : (body a).Owes goal) : (forEach body l).Owes goal := by
  induction l with
  | nil => cases ha
  | cons b rest ih =>
    rcases List.mem_cons.mp ha with rfl | ha
    · exact owes_bind h
    · exact owes_of_rest _ fun _ => ih ha

/-! ### What a program has done -/

/-- `q` is left of `p` after the events `es`. -/
inductive Path : Prog Op Res α → List (Event Op Res) → Prog Op Res α → Prop
  | nil {p : Prog Op Res α} : Path p [] p
  | cons {o : Op} {k : Res o → Prog Op Res α} {r : Res o} {es : List (Event Op Res)}
      {q : Prog Op Res α} : Path (k r) es q → Path (.call o k) (⟨o, r⟩ :: es) q

theorem Path.append {p q q' : Prog Op Res α} {es es' : List (Event Op Res)} (h : Path p es q)
    (h' : Path q es' q') : Path p (es ++ es') q' := by
  induction h with
  | nil => exact h'
  | cons _ ih => exact .cons (ih h')

theorem Path.every {P : Op → Prop} {p q : Prog Op Res α} {es : List (Event Op Res)} (h : Path p es q)
    (hp : p.Every P) : q.Every P := by
  induction h with
  | nil => exact hp
  | cons _ ih => exact ih (hp.2 _)

theorem Path.guards {A : Op → Prop} {G : Event Op Res → Prop} {p q : Prog Op Res α}
    {es : List (Event Op Res)} (h : Path p es q) (hp : p.Guards A G) {o : Op} (hq : q.pending = some o)
    (ho : A o) : ∃ e ∈ es, G e := by
  induction h with
  | @nil p =>
    cases p with
    | done a => cases hq
    | call o' k =>
      cases hq
      exact absurd ho hp.1
  | @cons o' k r es q _ ih =>
    rcases hp.2 r with hG | hrest
    · exact ⟨⟨o', r⟩, List.mem_cons_self, hG⟩
    · obtain ⟨e, he, hG⟩ := ih hrest hq
      exact ⟨e, List.mem_cons_of_mem _ he, hG⟩

/-- What is about to happen for the first and only time has not happened. -/
theorem Path.once {A : Op → Prop} {p q : Prog Op Res α} {es : List (Event Op Res)} (h : Path p es q)
    (hp : p.Once A) {o : Op} (hq : q.pending = some o) (ho : A o) : ∀ e ∈ es, ¬ A e.op := by
  induction h with
  | nil => exact fun _ he => absurd he List.not_mem_nil
  | @cons o' k r es q hrest ih =>
    intro e he ha
    rcases List.mem_cons.mp he with rfl | he
    · exact (hrest.every ((hp r).1 ha)).pending hq ho
    · exact ih (hp r).2 hq e he ha

theorem Path.requires {A : α → Prop} {G : Event Op Res → Prop} {p q : Prog Op Res α}
    {es : List (Event Op Res)} (h : Path p es q) (hp : p.Requires A G) {a : α} (hq : q = .done a)
    (ha : A a) : ∃ e ∈ es, G e := by
  induction h with
  | nil =>
    subst hq
    exact absurd ha hp
  | @cons o k r es q _ ih =>
    rcases hp r with hG | hrest
    · exact ⟨⟨o, r⟩, List.mem_cons_self, hG⟩
    · obtain ⟨e, he, hG⟩ := ih hrest hq
      exact ⟨e, List.mem_cons_of_mem _ he, hG⟩

/-! ### Running alone -/

section
variable {World Choice : Type} (perform : Choice → (o : Op) → World → Res o × World)

/-- The program run with nothing beside it; `ch n` is how the services behave at
its `n`-th operation. -/
def exec : Prog Op Res α → (Nat → Choice) → World → α × World
  | .done a, _, w => (a, w)
  | .call o k, ch, w =>
    (k (perform (ch 0) o w).1).exec (fun n => ch (n + 1)) (perform (ch 0) o w).2

variable (ok : Op → Choice → Prop)

/-- Run alone from `w` the program can end with `a` in `w'`, the services behaving as
allowed. -/
inductive Runs : Prog Op Res α → World → α → World → Prop
  | done {a : α} {w : World} : Runs (.done a) w a w
  | call {o : Op} {k : Res o → Prog Op Res α} {ch : Choice} {w w' : World} {a : α} : ok o ch →
      Runs (k (perform ch o w).1) (perform ch o w).2 a w' → Runs (.call o k) w a w'

/-- `Q` holds of the result and the world after it, whatever the services do. -/
def wp (Q : α → World → Prop) : Prog Op Res α → World → Prop
  | .done a, w => Q a w
  | .call o k, w => ∀ ch, ok o ch → (k (perform ch o w).1).wp Q (perform ch o w).2

variable {perform ok}

theorem exec_runs (p : Prog Op Res α) (ch : Nat → Choice) (w : World) (hch : ∀ n o, ok o (ch n)) :
    Runs perform ok p w (p.exec perform ch w).1 (p.exec perform ch w).2 := by
  induction p generalizing ch w with
  | done a => exact .done
  | call o k ih => exact .call (hch 0 o) (ih _ _ _ fun n => hch (n + 1))

/-- What no operation of a program changes, the program does not. -/
theorem exec_view {P : Op → Prop} (view : World → β) {ch : Nat → Choice}
    (hstep : ∀ n o w, P o → view (perform (ch n) o w).2 = view w) {p : Prog Op Res α} (hp : p.Every P)
    (w : World) : view (p.exec perform ch w).2 = view w := by
  induction p generalizing ch w with
  | done a => rfl
  | call o k ih =>
    show view ((k (perform (ch 0) o w).1).exec perform (fun n => ch (n + 1)) (perform (ch 0) o w).2).2 = _
    rw [ih _ (fun n => hstep (n + 1)) (hp.2 _), hstep 0 o w hp.1]

/-- What is proved of a program holds of all its runs. -/
theorem Runs.wp {Q : α → World → Prop} {p : Prog Op Res α} {w w' : World} {a : α}
    (h : Runs perform ok p w a w') (hp : p.wp perform ok Q w) : Q a w' := by
  induction h with
  | done => exact hp
  | call hok _ ih => exact ih (hp _ hok)

/-- The services may behave more freely than they did. -/
theorem Runs.mono {ok' : Op → Choice → Prop} (hok : ∀ o ch, ok o ch → ok' o ch) {p : Prog Op Res α}
    {w w' : World} {a : α} (h : Runs perform ok p w a w') : Runs perform ok' p w a w' := by
  induction h with
  | done => exact .done
  | call hch _ ih => exact .call (hok _ _ hch) ih

/-- What every operation of a program keeps, the program keeps. -/
theorem Runs.invariant {P : Op → Prop} {I : World → Prop} {p : Prog Op Res α} {w w' : World} {a : α}
    (h : Runs perform ok p w a w') (hp : p.Every P)
    (hstep : ∀ o ch w, P o → I w → I (perform ch o w).2) (hw : I w) : I w' := by
  induction h with
  | done => exact hw
  | call _ _ ih => exact ih (hp.2 _) (hstep _ _ _ hp.1 hw)

/-- What holds whatever happens. -/
theorem wp_of_forall {Q : α → World → Prop} (h : ∀ a w, Q a w) (p : Prog Op Res α) (w : World) :
    p.wp perform ok Q w := by
  induction p generalizing w with
  | done a => exact h a w
  | call o k ih => exact fun ch _ => ih _ _

theorem wp_mono {Q Q' : α → World → Prop} (hQ : ∀ a w, Q a w → Q' a w) {p : Prog Op Res α} {w : World}
    (h : p.wp perform ok Q w) : p.wp perform ok Q' w := by
  induction p generalizing w with
  | done a => exact hQ _ _ h
  | call o k ih => exact fun ch hch => ih _ (h ch hch)

theorem wp_bind {Q : β → World → Prop} {p : Prog Op Res α} {f : α → Prog Op Res β} {w : World}
    (h : p.wp perform ok (fun a w' => (f a).wp perform ok Q w') w) :
    (p >>= f).wp perform ok Q w := by
  induction p generalizing w with
  | done a => exact h
  | call o k ih => exact fun ch hch => ih _ (h ch hch)

/-- A loop keeps an invariant that speaks of what is still to come. -/
theorem wp_forEach {body : α → Prog Op Res Unit} (I : List α → World → Prop)
    (hbody : ∀ a rest w, I (a :: rest) w → (body a).wp perform ok (fun _ w' => I rest w') w)
    {l : List α} {w : World} (h : I l w) : (forEach body l).wp perform ok (fun _ w' => I [] w') w := by
  induction l generalizing w with
  | nil => exact h
  | cons a rest ih => exact wp_bind (wp_mono (fun _ _ h => ih h) (hbody a rest w h))

/-- A run of a mapped program is a run of the program. -/
theorem Runs.of_map {f : α → β} {p : Prog Op Res α} {w w' : World} {b : β}
    (h : Runs perform ok (f <$> p) w b w') : ∃ a, b = f a ∧ Runs perform ok p w a w' := by
  induction p generalizing w with
  | done a =>
    cases h
    exact ⟨a, rfl, .done⟩
  | call o k ih =>
    cases h with
    | call hok hrest =>
      obtain ⟨a, ha, hrun⟩ := ih _ hrest
      exact ⟨a, ha, .call hok hrun⟩

end
end Prog
end LiveServer.Concurrent
