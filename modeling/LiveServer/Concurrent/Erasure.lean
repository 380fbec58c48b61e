import LiveServer.Concurrent.Machine

/-! Leaving operations out.

`Erases` relates a program to one that makes some of its calls only: a call is dropped, whatever
its answer, or kept with its answer. If dropped calls do not change what two worlds have in
common, and kept calls are answered alike and keep it, then every run of a machine of such
programs is, with the dropped steps left out, a run of the machine of the others
(`Trace.erase`). Calls that drop everything they do may be left where they are (`free`). -/
namespace LiveServer.Concurrent

namespace Prog
variable {Op : Type} {Res : Op → Type} {α β : Type}

/-- The second program is the first without some of its calls. -/
inductive Erases (drop keep : Op → Prop) : Prog Op Res α → Prog Op Res α → Prop
  | done {a : α} : Erases drop keep (.done a) (.done a)
  | drop {o : Op} {k : Res o → Prog Op Res α} {q : Prog Op Res α} : drop o →
      (∀ r, Erases drop keep (k r) q) → Erases drop keep (.call o k) q
  | keep {o : Op} {k k' : Res o → Prog Op Res α} : keep o →
      (∀ r, Erases drop keep (k r) (k' r)) → Erases drop keep (.call o k) (.call o k')

variable {drop keep : Op → Prop}

theorem Every.erases {p : Prog Op Res α} (h : p.Every keep) : Erases drop keep p p := by
  induction p with
  | done a => exact .done
  | call o k ih => exact .keep h.1 fun r => ih r (h.2 r)

/-- A program that drops everything and has no result to show. -/
theorem Every.erases_done {p : Prog Op Res Unit} (h : p.Every drop) : Erases drop keep p (.done ()) := by
  induction p with
  | done a => exact .done
  | call o k ih => exact .drop h.1 fun r => ih r (h.2 r)

theorem Erases.bind {x y : Prog Op Res α} {f g : α → Prog Op Res β} (hx : Erases drop keep x y)
    (hf : ∀ a, Erases drop keep (f a) (g a)) : Erases drop keep (x >>= f) (y >>= g) := by
  induction hx with
  | done => exact hf _
  | drop ho _ ih => exact .drop ho ih
  | keep ho _ ih => exact .keep ho ih

theorem Erases.map (f : α → β) {x y : Prog Op Res α} (hx : Erases drop keep x y) :
    Erases drop keep (f <$> x) (f <$> y) :=
  hx.bind fun _ => .done

theorem erases_op_bind {o : Op} (ho : keep o) {f g : Res o → Prog Op Res β}
    (hf : ∀ r, Erases drop keep (f r) (g r)) : Erases drop keep (op o >>= f) (op o >>= g) :=
  .keep ho hf

end Prog

section
variable {World World' Op : Type} {Res : Op → Type} {Choice Call Reply : Type}
  {M : Machine World Op Res Choice Call Reply} {N : Machine World' Op Res Choice Call Reply}
  {drop keep : Op → Prop} {free : Call → Prop} {R : World → World' → Prop}

/-- What is left of a call, and of its counterpart. -/
def Follows (drop keep : Op → Prop) (free : Call → Prop) (call : Call) (p q : Prog Op Res Reply) : Prop :=
  Prog.Erases drop keep p q ∨ (free call ∧ p.Every drop)

/-- The second configuration has the same calls and what the worlds have in common. -/
structure Erased (R : World → World' → Prop) (drop keep : Op → Prop) (free : Call → Prop)
    (c : Config World Op Res Call Reply) (c' : Config World' Op Res Call Reply) : Prop where
  world : R c.world c'.world
  length : c'.threads.length = c.threads.length
  threads : ∀ (i : Nat) (call : Call) (p : Prog Op Res Reply), c.threads[i]? = some ⟨call, p⟩ →
    ∃ q, c'.threads[i]? = some ⟨call, q⟩ ∧ Follows drop keep free call p q

/-- A call that has returned has returned the same there, unless it is free. -/
theorem Erased.returned {c : Config World Op Res Call Reply} {c' : Config World' Op Res Call Reply}
    (h : Erased R drop keep free c c') {i : Nat} {call : Call} {a : Reply} (hfree : ¬ free call)
    (hth : c.threads[i]? = some ⟨call, .done a⟩) : c'.threads[i]? = some ⟨call, .done a⟩ := by
  obtain ⟨q, hq, herase | hlag⟩ := h.threads i call _ hth
  · cases herase
    exact hq
  · exact absurd hlag.1 hfree

theorem Erased.calls {c : Config World Op Res Call Reply} {c' : Config World' Op Res Call Reply}
    (h : Erased R drop keep free c c') : c'.threads.map Thread.call = c.threads.map Thread.call := by
  apply List.ext_getElem?
  intro i
  rw [List.getElem?_map, List.getElem?_map]
  cases hth : c.threads[i]? with
  | none =>
    have hnone : c'.threads[i]? = none := by
      rw [List.getElem?_eq_none_iff] at hth ⊢
      rw [h.length]
      exact hth
    rw [hnone]
  | some th =>
    obtain ⟨q, hq, _⟩ := h.threads i th.call th.rest hth
    rw [hq]
    rfl

/-- What the two machines owe each other. -/
structure Erasure (M : Machine World Op Res Choice Call Reply) (N : Machine World' Op Res Choice Call Reply)
    (R : World → World' → Prop) (drop keep : Op → Prop) (free : Call → Prop) : Prop where
  dropped : ∀ ch o w w', drop o → R w w' → R (M.perform ch o w).2 w'
  kept : ∀ ch o w w', keep o → R w w' → (N.perform ch o w').1 = (M.perform ch o w).1 ∧
    R (M.perform ch o w).2 (N.perform ch o w').2
  body : ∀ call, Follows drop keep free call (M.body call) (N.body call)

section
variable {t : Transition World Op Res Choice Call Reply} {c' : Config World' Op Res Call Reply}
  {call : Call}

/-- A new call is made there as well. -/
theorem Erased.spawn (hc : Erased R drop keep free t.before c') (h : Erasure M N R drop keep free)
    (hs : M.Spawns t call) :
    Erased R drop keep free t.after ⟨c'.world, c'.threads ++ [⟨call, N.body call⟩]⟩ where
  world := by
    rw [hs.after]
    exact hc.world
  length := by
    rw [hs.after]
    simp [hc.length]
  threads i call₁ p hth := by
    rw [hs.threads_after] at hth
    split at hth
    · rename_i hi
      cases hth
      refine ⟨N.body call, ?_, h.body call⟩
      rw [hi, ← hc.length]
      simp
    · obtain ⟨q, hq, hfollow⟩ := hc.threads i call₁ p hth
      refine ⟨q, ?_, hfollow⟩
      rw [List.getElem?_append_left (List.getElem?_eq_some_iff.mp hq).1]
      exact hq

variable {i : Nat} {ch : Choice} {o : Op} {k : Res o → Prog Op Res Reply} {r : Res o} {w : World}

/-- A step that is left out. -/
theorem Erased.skip (hc : Erased R drop keep free t.before c') (hs : M.Steps t i ch call o k r w)
    (hR : R w c'.world) {q : Prog Op Res Reply} (hq : c'.threads[i]? = some ⟨call, q⟩)
    (hfollow : Follows drop keep free call (k r) q) : Erased R drop keep free t.after c' where
  world := by
    rw [hs.after]
    exact hR
  length := by
    rw [hs.after, List.length_set]
    exact hc.length
  threads j call₁ p hth := by
    rw [hs.threads_after] at hth
    split at hth
    · rename_i hj
      cases hth
      exact ⟨q, hj ▸ hq, hfollow⟩
    · exact hc.threads j call₁ p hth

/-- A step that is taken there as well. -/
theorem Erased.step (hc : Erased R drop keep free t.before c') (hs : M.Steps t i ch call o k r w)
    {w' : World'} (hR : R w w') {q₀ q : Prog Op Res Reply} (hq : c'.threads[i]? = some ⟨call, q₀⟩)
    (hfollow : Follows drop keep free call (k r) q) :
    Erased R drop keep free t.after ⟨w', c'.threads.set i ⟨call, q⟩⟩ where
  world := by
    rw [hs.after]
    exact hR
  length := by
    rw [hs.after, List.length_set, List.length_set]
    exact hc.length
  threads j call₁ p hth := by
    rw [hs.threads_after] at hth
    split at hth
    · rename_i hj
      cases hth
      refine ⟨q, ?_, hfollow⟩
      rw [hj]
      exact List.getElem?_set_self (List.getElem?_eq_some_iff.mp hq).1
    · rename_i hj
      obtain ⟨q₁, hq₁, hfollow₁⟩ := hc.threads j call₁ p hth
      refine ⟨q₁, ?_, hfollow₁⟩
      rw [List.getElem?_set_ne (Ne.symm hj)]
      exact hq₁

end

namespace Machine

/-- What a step is without what is dropped: nothing, or a step. -/
theorem Valid.erase (h : Erasure M N R drop keep free) {t : Transition World Op Res Choice Call Reply}
    (hv : M.Valid t) {c' : Config World' Op Res Call Reply} (hc : Erased R drop keep free t.before c') :
    ∃ ts, N.Trace c' ts ∧ Erased R drop keep free t.after (final c' ts) := by
  rcases hv.cases with ⟨call, hs⟩ | ⟨i, ch, call, o, k, r, w, hs⟩
  · have hnext : N.Valid ⟨c', .spawn call, ⟨c'.world, c'.threads ++ [⟨call, N.body call⟩]⟩⟩ := rfl
    exact ⟨[_], ⟨rfl, hnext, trivial⟩, hc.spawn h hs⟩
  · have hr : (M.perform ch o t.before.world).1 = r := congrArg Prod.fst hs.answer
    have hw : (M.perform ch o t.before.world).2 = w := congrArg Prod.snd hs.answer
    have hskip {q : Prog Op Res Reply} (ho : drop o) (hq : c'.threads[i]? = some ⟨call, q⟩)
        (hfollow : Follows drop keep free call (k r) q) : Erased R drop keep free t.after c' :=
      hc.skip hs (hw ▸ h.dropped ch o _ _ ho hc.world) hq hfollow
    obtain ⟨q, hq, herase | ⟨hfree, hdrop⟩⟩ := hc.threads i call _ hs.thread
    · cases herase with
      | drop ho hk => exact ⟨[], trivial, hskip ho hq (.inl (hk r))⟩
      | @keep _ _ k' ho hk =>
        obtain ⟨hans, hR⟩ := h.kept ch o _ _ ho hc.world
        rw [hw] at hR
        refine ⟨[⟨c', .step i ch, _⟩], ⟨rfl, ?_, trivial⟩, hc.step hs hR hq (.inl (hk r))⟩
        show N.next c' (.step i ch) = _
        unfold next
        dsimp only
        rw [hq]
        dsimp only
        rw [hans, hr]
    · exact ⟨[], trivial, hskip hdrop.1 hq (.inr ⟨hfree, hdrop.2 r⟩)⟩

/-- **A run without what is dropped is a run.** -/
theorem Trace.erase (h : Erasure M N R drop keep free) {c : Config World Op Res Call Reply}
    {ts : List (Transition World Op Res Choice Call Reply)} (htr : M.Trace c ts)
    {c' : Config World' Op Res Call Reply} (hc : Erased R drop keep free c c') :
    ∃ ts', N.Trace c' ts' ∧ Erased R drop keep free (final c ts) (final c' ts') := by
  induction ts generalizing c c' with
  | nil => exact ⟨[], trivial, hc⟩
  | cons t rest ih =>
    obtain ⟨rfl, hv, hrest⟩ := htr
    obtain ⟨ts₁, htr₁, hc₁⟩ := hv.erase h hc
    obtain ⟨ts₂, htr₂, hc₂⟩ := ih hrest hc₁
    refine ⟨ts₁ ++ ts₂, (trace_append ts₁ ts₂).mpr ⟨htr₁, htr₂⟩, ?_⟩
    rw [final_append]
    exact hc₂

end Machine
end
end LiveServer.Concurrent
