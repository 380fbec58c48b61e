import LiveServer.Concurrent.Interface

/-! Servers on top of servers.

A machine may be written in terms of the calls of another one: a `Plan` is a program of own
operations and of whole calls, and `expand` puts the program of each call in its place. Own
operations must leave alone what the two worlds have in common, and the operations of the
calls must do the same to it in both (`Delegation`).

Then every run of the upper machine has a run of the lower one beside it
(`Delegation.trace`). A call of the upper machine has at most one call of the lower one in
flight, which is a thread of its own there: it is made when the plan comes to it, and what
the plan is answered is what that thread returns. -/
namespace LiveServer.Concurrent

/-- What a plan asks for: an operation of its own, or a call of the machine below. -/
inductive Order (Own Call : Type) where
  | own (o : Own)
  | delegate (call : Call)

@[reducible] def Order.Res {Own Call : Type} (Res : Own → Type) (Reply : Type) : Order Own Call → Type
  | .own o => Res o
  | .delegate _ => Reply

/-- A program of own operations and calls. -/
abbrev Plan (Own : Type) (Res : Own → Type) (Call Reply α : Type) :=
  Prog (Order Own Call) (Order.Res Res Reply) α

section
variable {World World' Op Op' : Type} {Res : Op → Type} {Res' : Op' → Type}
  {Choice Call Call' Reply Reply' α β : Type}

namespace Plan

/-- The plan with the program of each call in its place. -/
def expand (body : Call → Prog Op Res Reply) (ι : Op → Op') (back : (o : Op) → Res' (ι o) → Res o) :
    Plan Op' Res' Call Reply α → Prog Op' Res' α
  | .done a => .done a
  | .call (.own o) k => .call o fun r => expand body ι back (k r)
  | .call (.delegate call) k => (body call).lift ι back >>= fun a => expand body ι back (k a)

variable {body : Call → Prog Op Res Reply} {ι : Op → Op'} {back : (o : Op) → Res' (ι o) → Res o}

theorem expand_bind (P : Plan Op' Res' Call Reply α) (f : α → Plan Op' Res' Call Reply β) :
    expand body ι back (P >>= f) = expand body ι back P >>= fun a => expand body ι back (f a) := by
  induction P with
  | done a => rfl
  | call o k ih =>
    cases o with
    | own o =>
      show Prog.call o _ = Prog.call o _
      congr 1
      funext r
      exact ih r
    | delegate call =>
      show (body call).lift ι back >>= (fun a => expand body ι back (k a >>= f)) =
        (body call).lift ι back >>= (fun a => expand body ι back (k a)) >>= _
      rw [Prog.bind_assoc]
      congr 1
      funext a
      exact ih a

/-- A program of own operations. -/
theorem expand_own (p : Prog Op' Res' α) :
    expand body ι back (p.lift (fun o => (.own o : Order Op' Call)) fun _ r => r) = p := by
  induction p with
  | done a => rfl
  | call o k ih =>
    show Prog.call o _ = Prog.call o _
    congr 1
    funext r
    exact ih r

/-- The own operations of a plan are allowed. -/
def Keeps (own : Op' → Prop) : Order Op' Call → Prop
  | .own o => own o
  | .delegate _ => True

end Plan

/-- What a machine owes another one that it delegates to. -/
structure Delegation (N : Machine World' Op' Res' Choice Call' Reply') (M : Machine World Op Res Choice Call Reply) where
  ι : Op → Op'
  back : (o : Op) → Res' (ι o) → Res o
  plan : Call' → Plan Op' Res' Call Reply Reply'
  /-- What the worlds have in common. -/
  agree : World' → World → Prop
  own : Op' → Prop
  body : ∀ call, N.body call = (plan call).expand M.body ι back
  keeps : ∀ call, (plan call).Every (Plan.Keeps own)
  owned : ∀ ch o w' w, own o → agree w' w → agree (N.perform ch o w').2 w
  delegated : ∀ ch o w' w, agree w' w → ∃ ch', back o (N.perform ch (ι o) w').1 = (M.perform ch' o w).1 ∧
    agree (N.perform ch (ι o) w').2 (M.perform ch' o w).2

namespace Delegation
variable {N : Machine World' Op' Res' Choice Call' Reply'} {M : Machine World Op Res Choice Call Reply}
  (D : Delegation N M)

/-- The calls among the events of a plan have returned what the plan was answered. -/
def Answered (c : Config World Op Res Call Reply) (es : List (Prog.Event (Order Op' Call) (Order.Res Res' Reply))) :
    Prop :=
  ∀ (call : Call) (a : Reply), ⟨.delegate call, a⟩ ∈ es → ∃ j : Nat, c.threads[j]? = some ⟨call, .done a⟩

/-- What is left of a call of the upper machine when `P` is left of its plan: the plan comes
to an operation of its own or to its end, or the thread at an index below is under way. -/
inductive Standing (c : Config World Op Res Call Reply) :
    Option Nat → Prog Op' Res' Reply' → Plan Op' Res' Call Reply Reply' → Prop
  | idle {p : Prog Op' Res' Reply'} {P : Plan Op' Res' Call Reply Reply'} :
      (∀ call, P.pending ≠ some (.delegate call)) → p = P.expand M.body D.ι D.back → Standing c none p P
  | busy {j : Nat} {call : Call} {o : Op} {k₀ : Res o → Prog Op Res Reply} {p : Prog Op' Res' Reply'}
      {k : Reply → Plan Op' Res' Call Reply Reply'} : c.threads[j]? = some ⟨call, .call o k₀⟩ →
      p = (Prog.call o k₀).lift D.ι D.back >>= (fun a => (k a).expand M.body D.ι D.back) →
      Standing c (some j) p (.call (.delegate call) k)

/-- The two machines side by side; `σ` has the thread below that a call waits for. -/
structure Beside (c' : Config World' Op' Res' Call' Reply') (c : Config World Op Res Call Reply)
    (σ : Nat → Option Nat) : Prop where
  agree : D.agree c'.world c.world
  apart : ∀ i i' j, σ i = some j → σ i' = some j → i = i'
  bound : ∀ i j, σ i = some j → j < c.threads.length
  threads : ∀ i call p, c'.threads[i]? = some ⟨call, p⟩ →
    ∃ es P, Prog.Path (D.plan call) es P ∧ Answered c es ∧ D.Standing c (σ i) p P

variable {D}

theorem Answered.mono {c c₁ : Config World Op Res Call Reply}
    {es : List (Prog.Event (Order Op' Call) (Order.Res Res' Reply))} (h : Answered c es)
    (hc : ∀ (j : Nat) call a, c.threads[j]? = some ⟨call, .done a⟩ → c₁.threads[j]? = some ⟨call, .done a⟩) :
    Answered c₁ es := by
  intro call a he
  obtain ⟨j, hj⟩ := h call a he
  exact ⟨j, hc j call a hj⟩

theorem Answered.append {c : Config World Op Res Call Reply}
    {es es' : List (Prog.Event (Order Op' Call) (Order.Res Res' Reply))} (h : Answered c es)
    (h' : Answered c es') : Answered c (es ++ es') := by
  intro call a he
  rcases List.mem_append.mp he with he | he
  · exact h call a he
  · exact h' call a he

theorem Answered.own {c : Config World Op Res Call Reply}
    {es : List (Prog.Event (Order Op' Call) (Order.Res Res' Reply))} (h : Answered c es) (o : Op') (r : Res' o) :
    Answered c (es ++ [⟨.own o, r⟩]) := by
  apply h.append
  intro call a he
  cases List.mem_singleton.mp he

theorem Answered.delegate {c : Config World Op Res Call Reply}
    {es : List (Prog.Event (Order Op' Call) (Order.Res Res' Reply))} (h : Answered c es) {j : Nat} {call : Call}
    {a : Reply} (hj : c.threads[j]? = some ⟨call, .done a⟩) : Answered c (es ++ [⟨.delegate call, a⟩]) := by
  apply h.append
  intro call' a' he
  cases List.mem_singleton.mp he
  exact ⟨j, hj⟩

theorem Standing.lt {c : Config World Op Res Call Reply} {s : Option Nat} {p : Prog Op' Res' Reply'}
    {P : Plan Op' Res' Call Reply Reply'} (h : D.Standing c s p P) {j : Nat} (hj : s = some j) :
    j < c.threads.length := by
  cases h with
  | idle _ _ => cases hj
  | busy hth _ =>
    cases hj
    exact (List.getElem?_eq_some_iff.mp hth).1

/-- Of a plan that is to be gone on with, the calls that need no operation are made and
answered, and the first that needs one is made. -/
theorem exists_standing (P : Plan Op' Res' Call Reply Reply') (c : Config World Op Res Call Reply) :
    ∃ ts es P' s, M.Trace c ts ∧ (Machine.final c ts).world = c.world ∧
      (∀ (j : Nat) th, c.threads[j]? = some th → (Machine.final c ts).threads[j]? = some th) ∧
      Prog.Path P es P' ∧ Answered (Machine.final c ts) es ∧
      D.Standing (Machine.final c ts) s (P.expand M.body D.ι D.back) P' ∧
      ∀ j : Nat, s = some j → c.threads.length ≤ j := by
  induction P generalizing c with
  | done a =>
    exact ⟨[], [], .done a, none, trivial, rfl, fun _ _ hj => hj, .nil, nofun,
      .idle nofun rfl, nofun⟩
  | call o k ih =>
    cases o with
    | own o =>
      exact ⟨[], [], _, none, trivial, rfl, fun _ _ hj => hj, .nil, nofun, .idle nofun rfl, nofun⟩
    | delegate call =>
      let c₁ : Config World Op Res Call Reply := ⟨c.world, c.threads ++ [⟨call, M.body call⟩]⟩
      have hspawn : M.Valid ⟨c, .spawn call, c₁⟩ := rfl
      have hold : ∀ (j : Nat) th, c.threads[j]? = some th → c₁.threads[j]? = some th := by
        intro j th hj
        show (c.threads ++ [_])[j]? = some th
        rw [List.getElem?_append_left (List.getElem?_eq_some_iff.mp hj).1]
        exact hj
      have hnew : c₁.threads[c.threads.length]? = some ⟨call, M.body call⟩ := by
        show (c.threads ++ [_])[c.threads.length]? = _
        simp
      cases hbody : M.body call with
      | done a =>
        obtain ⟨ts, es, P', s, htr, hworld, hkeep, hpath, hans, hst, hfresh⟩ := ih a c₁
        refine ⟨⟨c, .spawn call, c₁⟩ :: ts, ⟨.delegate call, a⟩ :: es, P', s, ⟨rfl, hspawn, htr⟩, hworld,
          fun j th hj => hkeep j th (hold j th hj), .cons hpath, ?_, ?_, ?_⟩
        · intro call' a' he
          rcases List.mem_cons.mp he with heq | he
          · cases heq
            refine ⟨c.threads.length, hkeep _ _ ?_⟩
            rw [hnew, hbody]
          · exact hans call' a' he
        · have hexp : Plan.expand M.body D.ι D.back (.call (.delegate call) k) =
              (M.body call).lift D.ι D.back >>= fun a => Plan.expand M.body D.ι D.back (k a) := rfl
          rw [hexp, hbody]
          exact hst
        · intro j hj
          have hle := hfresh j hj
          have hlen : c₁.threads.length = c.threads.length + 1 := List.length_append
          omega
      | call o k₀ =>
        rw [hbody] at hnew
        refine ⟨[⟨c, .spawn call, c₁⟩], [], .call (.delegate call) k, some c.threads.length,
          ⟨rfl, hspawn, trivial⟩, rfl, hold, .nil, nofun, .busy hnew ?_, ?_⟩
        · rw [← hbody]
          rfl
        · intro j hj
          cases hj
          exact Nat.le_refl _

/-- One call of the upper machine has moved, or is new. Below, threads are as they were but for
the one it waits for. -/
theorem Beside.replace {c' c'₁ : Config World' Op' Res' Call' Reply'} {c c₁ : Config World Op Res Call Reply}
    {σ : Nat → Option Nat} (h : D.Beside c' c σ) {i : Nat} {call : Call'} {p : Prog Op' Res' Reply'}
    {s : Option Nat} (hagree : D.agree c'₁.world c₁.world)
    (hthreads : ∀ i' : Nat, c'₁.threads[i']? = if i' = i then some ⟨call, p⟩ else c'.threads[i']?)
    (hkeep : ∀ (j : Nat) th, c.threads[j]? = some th → σ i ≠ some j ∨ th.rest.pending = none →
      c₁.threads[j]? = some th)
    (hnew : ∀ j, s = some j → σ i = some j ∨ c.threads.length ≤ j)
    (hstand : ∃ es P, Prog.Path (D.plan call) es P ∧ Answered c₁ es ∧ D.Standing c₁ s p P) :
    D.Beside c'₁ c₁ (Function.update σ i s) where
  agree := hagree
  apart := by
    have hother : ∀ i' j, i' ≠ i → σ i' = some j → s ≠ some j := by
      intro i' j hne hj hs
      rcases hnew j hs with hi | hle
      · exact hne (h.apart i' i j hj hi)
      · exact absurd (h.bound i' j hj) (Nat.not_lt.mpr hle)
    intro i₁ i₂ j h₁ h₂
    by_cases hi₁ : i₁ = i
    · subst hi₁
      by_cases hi₂ : i₂ = i₁
      · exact hi₂.symm
      · rw [Function.update_self] at h₁
        rw [Function.update_of_ne hi₂] at h₂
        exact absurd h₁ (hother i₂ j hi₂ h₂)
    · rw [Function.update_of_ne hi₁] at h₁
      by_cases hi₂ : i₂ = i
      · subst hi₂
        rw [Function.update_self] at h₂
        exact absurd h₂ (hother i₁ j hi₁ h₁)
      · rw [Function.update_of_ne hi₂] at h₂
        exact h.apart i₁ i₂ j h₁ h₂
  bound := by
    intro i' j hj
    by_cases hi : i' = i
    · rw [hi, Function.update_self] at hj
      obtain ⟨es, P, _, _, hst⟩ := hstand
      exact hst.lt hj
    · rw [Function.update_of_ne hi] at hj
      have hth := hkeep j _ (List.getElem?_eq_getElem (h.bound i' j hj))
        (.inl fun hi' => hi (h.apart i' i j hj hi'))
      exact (List.getElem?_eq_some_iff.mp hth).1
  threads := by
    intro i' call' p' hth
    rw [hthreads] at hth
    by_cases hi : i' = i
    · rw [if_pos hi] at hth
      cases hth
      rw [hi, Function.update_self]
      exact hstand
    · rw [if_neg hi] at hth
      rw [Function.update_of_ne hi]
      obtain ⟨es, P, hpath, hans, hst⟩ := h.threads i' call' p' hth
      refine ⟨es, P, hpath, hans.mono fun j call a hj => hkeep j _ hj (.inr rfl), ?_⟩
      generalize hσ : σ i' = s' at hst
      cases hst with
      | idle hown hp => exact .idle hown hp
      | @busy j _ _ _ _ _ hj hp =>
        refine .busy (hkeep j _ hj (.inl ?_)) hp
        intro hi'
        exact hi (h.apart i' i j hσ hi')

section
variable {t : Transition World' Op' Res' Choice Call' Reply'} {c : Config World Op Res Call Reply}
  {σ : Nat → Option Nat}

/-- A new call of the upper machine. -/
theorem Beside.spawn {call : Call'} (h : D.Beside t.before c σ) (hs : N.Spawns t call) :
    ∃ ts σ', M.Trace c ts ∧ D.Beside t.after (Machine.final c ts) σ' := by
  obtain ⟨ts, es, P, s, htr, hworld, hkeep, hpath, hans, hst, hfresh⟩ := exists_standing (D := D) (D.plan call) c
  rw [← D.body] at hst
  refine ⟨ts, _, htr, h.replace ?_ hs.threads_after (fun j th hj _ => hkeep j th hj)
    (fun j hj => .inr (hfresh j hj)) ⟨es, P, hpath, hans, hst⟩⟩
  rw [hworld, hs.after]
  exact h.agree

variable {i : Nat} {ch : Choice} {call : Call'} {o : Op'} {k : Res' o → Prog Op' Res' Reply'} {r : Res' o}
  {w : World'}

/-- After a step the plan is gone on with: the threads below are as they were but for the one
that was waited for, and that has an answer. -/
theorem Beside.resume (h : D.Beside t.before c σ) (hs : N.Steps t i ch call o k r w)
    {c₁ : Config World Op Res Call Reply} (hagree : D.agree w c₁.world)
    (hlen : c.threads.length ≤ c₁.threads.length)
    (hkeep : ∀ (j : Nat) th, c.threads[j]? = some th → σ i ≠ some j ∨ th.rest.pending = none →
      c₁.threads[j]? = some th)
    {es : List (Prog.Event (Order Op' Call) (Order.Res Res' Reply))} {P : Plan Op' Res' Call Reply Reply'}
    (hpath : Prog.Path (D.plan call) es P) (hans : Answered c₁ es) (hk : k r = P.expand M.body D.ι D.back) :
    ∃ ts σ', M.Trace c₁ ts ∧ D.Beside t.after (Machine.final c₁ ts) σ' := by
  obtain ⟨ts, es', P', s, htr, hworld, hkeep', hpath', hans', hst, hfresh⟩ := exists_standing (D := D) P c₁
  rw [← hk] at hst
  refine ⟨ts, _, htr, h.replace ?_ hs.threads_after (fun j th hj hwait => hkeep' j th (hkeep j th hj hwait)) ?_
    ⟨es ++ es', P', hpath.append hpath', ?_, hst⟩⟩
  · rw [hworld, hs.after]
    exact hagree
  · intro j hj
    exact .inr (Nat.le_trans hlen (hfresh j hj))
  · exact (hans.mono fun j call a hj => hkeep' j _ hj).append hans'

/-- A step of the upper machine. -/
theorem Beside.step (h : D.Beside t.before c σ) (hs : N.Steps t i ch call o k r w) :
    ∃ ts σ', M.Trace c ts ∧ D.Beside t.after (Machine.final c ts) σ' := by
  obtain ⟨es, P, hpath, hans, hst⟩ := h.threads i call _ hs.thread
  have hr : (N.perform ch o t.before.world).1 = r := congrArg Prod.fst hs.answer
  have hw : (N.perform ch o t.before.world).2 = w := congrArg Prod.snd hs.answer
  generalize hσ : σ i = s at hst
  cases hst with
  | idle hidle hp =>
    -- an operation of the plan's own: nothing moves below
    cases P with
    | done a => cases hp
    | call o' k' =>
      cases o' with
      | delegate call' => exact absurd rfl (hidle call')
      | own o' =>
        cases hp
        have hown : D.own o := (hpath.every (D.keeps call)).1
        have hagree := D.owned ch o _ _ hown h.agree
        rw [hw] at hagree
        have hnext : Prog.Path (.call (.own o) k') [⟨.own o, r⟩] (k' r) := .cons .nil
        exact h.resume hs hagree (Nat.le_refl _) (fun j th hj _ => hj) (hpath.append hnext) (hans.own o r) rfl
  | @busy j call' o₀ k₀ _ k' hj hp =>
    -- the thread below takes the step
    cases hp
    obtain ⟨ch', hback, hagree⟩ := D.delegated ch o₀ _ _ h.agree
    rw [hr] at hback
    rw [hw] at hagree
    let th : Thread Op Res Call Reply := ⟨call', k₀ (M.perform ch' o₀ c.world).1⟩
    let c₁ : Config World Op Res Call Reply := ⟨(M.perform ch' o₀ c.world).2, c.threads.set j th⟩
    have hstep : M.Valid ⟨c, .step j ch', c₁⟩ := by
      show M.next c (.step j ch') = some c₁
      simp only [Machine.next, hj]
      rfl
    have hlt : j < c.threads.length := (List.getElem?_eq_some_iff.mp hj).1
    have hmoved : c₁.threads[j]? = some th := List.getElem?_set_self hlt
    have hkeep : ∀ (j' : Nat) th', c.threads[j']? = some th' → σ i ≠ some j' ∨ th'.rest.pending = none →
        c₁.threads[j']? = some th' := by
      intro j' th' hj' hwait
      have hne : j ≠ j' := by
        intro heq
        subst heq
        rcases hwait with hwait | hdone
        · exact hwait hσ
        · cases hj.symm.trans hj'
          cases hdone
      exact (List.getElem?_set_ne hne).trans hj'
    have hans₁ : Answered c₁ es := hans.mono fun j' call a hj' => hkeep j' _ hj' (.inr rfl)
    cases hq : k₀ (M.perform ch' o₀ c.world).1 with
    | done a =>
      -- it has returned, and the plan goes on with what it has returned
      have hdone : c₁.threads[j]? = some ⟨call', .done a⟩ := by
        rw [hmoved, ← hq]
      have hnext : Prog.Path (.call (.delegate call') k') [⟨.delegate call', a⟩] (k' a) := .cons .nil
      have hlen : c.threads.length ≤ c₁.threads.length := Nat.le_of_eq List.length_set.symm
      have hk : (k₀ (D.back o₀ r)).lift D.ι D.back >>= (fun a => (k' a).expand M.body D.ι D.back) =
          (k' a).expand M.body D.ι D.back := by
        rw [hback, hq]
        rfl
      obtain ⟨ts, σ', htr, hbeside⟩ :=
        h.resume hs hagree hlen hkeep (hpath.append hnext) (hans₁.delegate hdone) hk
      exact ⟨_ :: ts, σ', ⟨rfl, hstep, htr⟩, hbeside⟩
    | call o₁ k₁ =>
      have hwaits : c₁.threads[j]? = some ⟨call', .call o₁ k₁⟩ := by
        rw [hmoved, ← hq]
      refine ⟨[⟨c, .step j ch', c₁⟩], _, ⟨rfl, hstep, trivial⟩, h.replace ?_ hs.threads_after hkeep
        (fun j' hj' => .inl (hσ.trans hj')) ⟨es, _, hpath, hans₁, .busy hwaits ?_⟩⟩
      · rw [hs.after]
        exact hagree
      · show (k₀ (D.back o₀ r)).lift D.ι D.back >>= _ = _
        rw [hback, hq]

end

/-- A run of the upper machine. -/
theorem Beside.run {c' : Config World' Op' Res' Call' Reply'} {c : Config World Op Res Call Reply}
    {σ : Nat → Option Nat} (h : D.Beside c' c σ) {ts' : List (Transition World' Op' Res' Choice Call' Reply')}
    (htr : N.Trace c' ts') : ∃ ts σ', M.Trace c ts ∧ D.Beside (Machine.final c' ts') (Machine.final c ts) σ' := by
  induction ts' generalizing c' c σ with
  | nil => exact ⟨[], σ, trivial, h⟩
  | cons t rest ih =>
    obtain ⟨rfl, hv, hrest⟩ := htr
    have hone : ∃ ts σ', M.Trace c ts ∧ D.Beside t.after (Machine.final c ts) σ' := by
      rcases hv.cases with ⟨call, hs⟩ | ⟨i, ch, call, o, k, r, w, hs⟩
      · exact h.spawn hs
      · exact h.step hs
    obtain ⟨ts₁, σ₁, htr₁, h₁⟩ := hone
    obtain ⟨ts₂, σ₂, htr₂, h₂⟩ := ih h₁ hrest
    refine ⟨ts₁ ++ ts₂, σ₂, (Machine.trace_append ts₁ ts₂).mpr ⟨htr₁, htr₂⟩, ?_⟩
    rw [Machine.final_append]
    exact h₂

/-- A call that has returned has come to the end of its plan. -/
theorem Beside.returned {c' : Config World' Op' Res' Call' Reply'} {c : Config World Op Res Call Reply}
    {σ : Nat → Option Nat} (h : D.Beside c' c σ) {i : Nat} {call : Call'} {a : Reply'}
    (hth : c'.threads[i]? = some ⟨call, .done a⟩) :
    ∃ es, Prog.Path (D.plan call) es (.done a) ∧ Answered c es := by
  obtain ⟨es, P, hpath, hans, hst⟩ := h.threads i call _ hth
  generalize σ i = s at hst
  cases hst with
  | idle hidle hp =>
    cases P with
    | done b =>
      cases hp
      exact ⟨es, hpath, hans⟩
    | call o k =>
      cases o with
      | own o => cases hp
      | delegate call' => exact absurd rfl (hidle call')
  | busy _ hp => cases hp

/-- **A run of the upper machine is a run of the lower one**, as far as the worlds have
something in common, and what a call has returned there comes from what calls have returned
here. -/
theorem trace {w' : World'} {w : World} (hw : D.agree w' w)
    {ts' : List (Transition World' Op' Res' Choice Call' Reply')} (h : N.Trace (.start w') ts') :
    ∃ ts, M.Trace (.start w) ts ∧
      D.agree (Machine.final (.start w') ts').world (Machine.final (.start w) ts).world ∧
      ∀ (i : Nat) call a, (Machine.final (.start w') ts').threads[i]? = some ⟨call, .done a⟩ →
        ∃ es, Prog.Path (D.plan call) es (.done a) ∧ Answered (Machine.final (.start w) ts) es := by
  have hstart : D.Beside (.start w') (.start w) fun _ => none :=
    ⟨hw, nofun, nofun, nofun⟩
  obtain ⟨ts, σ, htr, hbeside⟩ := hstart.run h
  exact ⟨ts, htr, hbeside.agree, fun i call a hth => hbeside.returned hth⟩

end Delegation
end
end LiveServer.Concurrent
