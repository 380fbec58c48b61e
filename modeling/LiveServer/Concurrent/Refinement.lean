import LiveServer.Concurrent.Machine

/-! Machines with more in their world.

A machine refines another if it runs the same programs and each operation is answered and
leaves the world as it does there, seen through a view of the finer world; what is left to
chance there may be decided by that world here. Every run of the finer machine is then, seen
through the view, a run of the coarser one: what holds of all runs of that holds here. -/
namespace LiveServer.Concurrent

variable {World World' Op : Type} {Res : Op → Type} {Choice Choice' Call Reply : Type}

/-- `N` does what `M` does. -/
structure Refinement (N : Machine World' Op Res Choice' Call Reply) (M : Machine World Op Res Choice Call Reply) where
  view : World' → World
  choose : Choice' → World' → Choice
  body : N.body = M.body
  perform : ∀ ch o w, M.perform (choose ch w) o (view w) = ((N.perform ch o w).1, view (N.perform ch o w).2)

namespace Refinement
variable {N : Machine World' Op Res Choice' Call Reply} {M : Machine World Op Res Choice Call Reply}
  (R : Refinement N M)

def config (c : Config World' Op Res Call Reply) : Config World Op Res Call Reply := ⟨R.view c.world, c.threads⟩

def action (w : World') : Action Choice' Call → Action Choice Call
  | .spawn call => .spawn call
  | .step i ch => .step i (R.choose ch w)

def transition (t : Transition World' Op Res Choice' Call Reply) : Transition World Op Res Choice Call Reply :=
  ⟨R.config t.before, R.action t.before.world t.action, R.config t.after⟩

/-- A step is a step. -/
theorem valid {t : Transition World' Op Res Choice' Call Reply} (h : N.Valid t) : M.Valid (R.transition t) := by
  show M.next (R.config t.before) (R.action t.before.world t.action) = some (R.config t.after)
  rcases h.cases with ⟨call, hs⟩ | ⟨i, ch, call, o, k, r, w, hs⟩
  · rw [hs.action, hs.after, R.body]
    rfl
  · have hthread : (R.config t.before).threads[i]? = some ⟨call, .call o k⟩ := hs.thread
    have hanswer : M.perform (R.choose ch t.before.world) o (R.config t.before).world = (r, R.view w) := by
      show M.perform (R.choose ch t.before.world) o (R.view t.before.world) = _
      rw [R.perform, hs.answer]
    rw [hs.action, hs.after]
    show M.next (R.config t.before) (.step i (R.choose ch t.before.world)) = _
    simp only [Machine.next, hthread, hanswer]
    rfl

/-- **A run is a run.** -/
theorem trace {c : Config World' Op Res Call Reply} {ts : List (Transition World' Op Res Choice' Call Reply)}
    (h : N.Trace c ts) : M.Trace (R.config c) (ts.map R.transition) := by
  induction ts generalizing c with
  | nil => trivial
  | cons t rest ih =>
    obtain ⟨rfl, hv, hrest⟩ := h
    exact ⟨rfl, R.valid hv, ih hrest⟩

end Refinement
end LiveServer.Concurrent
