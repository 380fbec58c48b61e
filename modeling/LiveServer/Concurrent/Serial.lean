import LiveServer.Concurrent.Machine

/-! Calls one after another.

A machine that makes its calls one at a time is one way to run it: `serve` computes what the
calls return and leave behind, and `exists_trace_serve` finds the run that does. Programs
run alone (`exec`) and programs run beside others meet here. -/
namespace LiveServer.Concurrent.Machine
variable {World Op : Type} {Res : Op → Type} {Choice Call Reply : Type}

/-- The finished calls and the world they leave; each call comes with how the services
behave while it runs. -/
def serve (M : Machine World Op Res Choice Call Reply) :
    World → List (Call × (Nat → Choice)) → List (Thread Op Res Call Reply) × World
  | w, [] => ([], w)
  | w, (call, ch) :: rest =>
    let out := (M.body call).exec M.perform ch w
    (⟨call, .done out.1⟩ :: (M.serve out.2 rest).1, (M.serve out.2 rest).2)

variable {M : Machine World Op Res Choice Call Reply}

/-- What is left of a call can run to its end with nothing beside it. -/
theorem exists_trace_exec (before : List (Thread Op Res Call Reply)) (call : Call) (p : Prog Op Res Reply)
    (ch : Nat → Choice) (w : World) :
    ∃ ts, M.Trace ⟨w, before ++ [⟨call, p⟩]⟩ ts ∧ final ⟨w, before ++ [⟨call, p⟩]⟩ ts =
      ⟨(p.exec M.perform ch w).2, before ++ [⟨call, .done (p.exec M.perform ch w).1⟩]⟩ := by
  induction p generalizing ch w with
  | done a => exact ⟨[], trivial, rfl⟩
  | call o k ih =>
    obtain ⟨ts, htr, hfin⟩ := ih (M.perform (ch 0) o w).1 (fun n => ch (n + 1)) (M.perform (ch 0) o w).2
    have hnext : M.next ⟨w, before ++ [⟨call, .call o k⟩]⟩ (.step before.length (ch 0)) =
        some ⟨(M.perform (ch 0) o w).2, before ++ [⟨call, k (M.perform (ch 0) o w).1⟩]⟩ := by
      simp [next]
    exact ⟨⟨_, .step before.length (ch 0), _⟩ :: ts, ⟨rfl, hnext, htr⟩, hfin⟩

/-- **Serving calls one after another is a run.** -/
theorem exists_trace_serve (M : Machine World Op Res Choice Call Reply) (c : Config World Op Res Call Reply)
    (calls : List (Call × (Nat → Choice))) :
    ∃ ts, M.Trace c ts ∧
      final c ts = ⟨(M.serve c.world calls).2, c.threads ++ (M.serve c.world calls).1⟩ := by
  induction calls generalizing c with
  | nil => exact ⟨[], trivial, by simp [final, serve]⟩
  | cons first rest ih =>
    obtain ⟨call, ch⟩ := first
    obtain ⟨ts, htr, hfin⟩ := exists_trace_exec (M := M) c.threads call (M.body call) ch c.world
    obtain ⟨ts', htr', hfin'⟩ := ih ⟨((M.body call).exec M.perform ch c.world).2,
      c.threads ++ [⟨call, .done ((M.body call).exec M.perform ch c.world).1⟩]⟩
    refine ⟨⟨c, .spawn call, ⟨c.world, c.threads ++ [⟨call, M.body call⟩]⟩⟩ :: (ts ++ ts'), ?_, ?_⟩
    · refine ⟨rfl, rfl, (trace_append ts ts').mpr ⟨htr, ?_⟩⟩
      rw [hfin]
      exact htr'
    · show final ⟨c.world, c.threads ++ [⟨call, M.body call⟩]⟩ (ts ++ ts') = _
      rw [final_append, hfin, hfin', List.append_assoc]
      rfl

theorem serve_pending {w : World} {calls : List (Call × (Nat → Choice))} {th : Thread Op Res Call Reply}
    (h : th ∈ (M.serve w calls).1) : th.rest.pending = none := by
  induction calls generalizing w with
  | nil => cases h
  | cons first rest ih =>
    rcases List.mem_cons.mp h with rfl | h
    · rfl
    · exact ih h

end LiveServer.Concurrent.Machine
