import LiveServer.Concurrent.Prog

/-! Two runs side by side.

Two programs run in lockstep from two worlds when they make the same calls, one after
the other, and the services behave the same in both; what they are answered may differ.
`Q` is to hold of the two results and the two worlds at the end. This is how a program
is compared with itself on worlds that differ where it must not look. -/
namespace LiveServer.Concurrent.Prog

section
variable {Op : Type} {Res : Op → Type} {α β World Choice : Type}
  (perform : Choice → (o : Op) → World → Res o × World)

inductive Lockstep (Q : α → α → World → World → Prop) :
    Prog Op Res α → Prog Op Res α → World → World → Prop
  | done {a b : α} {w w' : World} : Q a b w w' → Lockstep Q (.done a) (.done b) w w'
  | call {o : Op} {k k' : Res o → Prog Op Res α} {w w' : World} :
      (∀ ch, Lockstep Q (k (perform ch o w).1) (k' (perform ch o w').1) (perform ch o w).2
        (perform ch o w').2) → Lockstep Q (.call o k) (.call o k') w w'

variable {perform}
variable {Q : α → α → World → World → Prop} {p q : Prog Op Res α} {w w' : World}

/-- What lockstep promises of two runs. -/
theorem Lockstep.exec (h : Lockstep perform Q p q w w') (ch : Nat → Choice) :
    Q (p.exec perform ch w).1 (q.exec perform ch w').1 (p.exec perform ch w).2
      (q.exec perform ch w').2 := by
  induction h generalizing ch with
  | done hQ => exact hQ
  | call _ ih => exact ih (ch 0) fun n => ch (n + 1)

theorem Lockstep.bind {Q' : β → β → World → World → Prop} {f g : α → Prog Op Res β}
    (h : Lockstep perform Q p q w w')
    (hnext : ∀ a b w w', Q a b w w' → Lockstep perform Q' (f a) (g b) w w') :
    Lockstep perform Q' (p >>= f) (q >>= g) w w' := by
  induction h with
  | done hQ => exact hnext _ _ _ _ hQ
  | call _ ih => exact .call ih

theorem Lockstep.map {Q' : β → β → World → World → Prop} (f : α → β)
    (h : Lockstep perform Q p q w w') (hQ : ∀ a b w w', Q a b w w' → Q' (f a) (f b) w w') :
    Lockstep perform Q' (f <$> p) (f <$> q) w w' :=
  h.bind fun a b w w' hab => .done (hQ a b w w' hab)

theorem lockstep_op_bind {o : Op} {f g : Res o → Prog Op Res α}
    (h : ∀ ch, Lockstep perform Q (f (perform ch o w).1) (g (perform ch o w').1) (perform ch o w).2
      (perform ch o w').2) : Lockstep perform Q (op o >>= f) (op o >>= g) w w' :=
  .call h

/-- A program whose calls are answered alike. -/
theorem lockstep_every {P : Op → Prop} {R : World → World → Prop}
    (hstep : ∀ o ch w w', P o → R w w' →
      (perform ch o w).1 = (perform ch o w').1 ∧ R (perform ch o w).2 (perform ch o w').2)
    (hp : p.Every P) (h : R w w') :
    Lockstep perform (fun a b w w' => a = b ∧ R w w') p p w w' := by
  induction p generalizing w w' with
  | done a => exact .done ⟨rfl, h⟩
  | call o k ih =>
    refine .call fun ch => ?_
    obtain ⟨hans, hR⟩ := hstep o ch w w' hp.1 h
    rw [hans]
    exact ih _ (hp.2 _) hR

end
end LiveServer.Concurrent.Prog
