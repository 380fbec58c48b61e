import LiveServer.Concurrent.Tally

/-! Programs over a larger interface.

Where a server offers more operations than one of its parts uses, `lift` runs the programs
of the part there. What a program does, ends with, commits to, guards and counts is the same
in the larger interface. -/
namespace LiveServer.Concurrent.Prog
variable {Op Op' : Type} {Res : Op → Type} {Res' : Op' → Type} {α β : Type}

/-- The program with each operation at its place in the larger interface. -/
def lift (ι : Op → Op') (back : (o : Op) → Res' (ι o) → Res o) : Prog Op Res α → Prog Op' Res' α
  | .done a => .done a
  | .call o k => .call (ι o) fun r => (k (back o r)).lift ι back

variable {ι : Op → Op'} {back : (o : Op) → Res' (ι o) → Res o} {p : Prog Op Res α}

theorem lift_bind (x : Prog Op Res α) (f : α → Prog Op Res β) :
    (x >>= f).lift ι back = x.lift ι back >>= fun a => (f a).lift ι back := by
  induction x with
  | done a => rfl
  | call o k ih =>
    show Prog.call (ι o) _ = Prog.call (ι o) _
    congr 1
    funext r
    exact ih (back o r)

theorem every_lift {P : Op' → Prop} (h : p.Every fun o => P (ι o)) : (p.lift ι back).Every P := by
  induction p with
  | done a => trivial
  | call o k ih => exact ⟨h.1, fun r => ih _ (h.2 _)⟩

theorem returns_lift {A : α → Prop} (h : p.Returns A) : (p.lift ι back).Returns A := by
  induction p with
  | done a => exact h
  | call o k ih => exact fun r => ih _ (h _)

theorem commits_lift {W : Event Op Res → Prop} {W' : Event Op' Res' → Prop} {A : α → Prop}
    (hW : ∀ o r, W' ⟨ι o, r⟩ → W ⟨o, back o r⟩) (h : p.Commits W A) : (p.lift ι back).Commits W' A := by
  induction p with
  | done a => trivial
  | call o k ih => exact fun r => ⟨fun hw => returns_lift ((h _).1 (hW o r hw)), ih _ (h _).2⟩

theorem requires_lift {A : α → Prop} {G : Event Op Res → Prop} {G' : Event Op' Res' → Prop}
    (hG : ∀ o r, G ⟨o, back o r⟩ → G' ⟨ι o, r⟩) (h : p.Requires A G) : (p.lift ι back).Requires A G' := by
  induction p with
  | done a => exact h
  | call o k ih => exact fun r => (h (back o r)).imp (hG o r) (ih _)

theorem guards_lift {A : Op → Prop} {A' : Op' → Prop} {G : Event Op Res → Prop} {G' : Event Op' Res' → Prop}
    (hA : ∀ o, A' (ι o) → A o) (hG : ∀ o r, G ⟨o, back o r⟩ → G' ⟨ι o, r⟩) (h : p.Guards A G) :
    (p.lift ι back).Guards A' G' := by
  induction p with
  | done a => trivial
  | call o k ih =>
    refine ⟨fun ha => h.1 (hA o ha), fun r => ?_⟩
    exact (h.2 (back o r)).imp (hG o r) (ih _)

theorem tallies_lift {weight : Event Op Res → Nat} {weight' : Event Op' Res' → Nat} {total : α → Nat}
    (hweight : ∀ o r, weight' ⟨ι o, r⟩ = weight ⟨o, back o r⟩) {n : Nat} (h : p.Tallies weight total n) :
    (p.lift ι back).Tallies weight' total n := by
  induction p generalizing n with
  | done a => exact h
  | call o k ih =>
    intro r
    rw [hweight]
    exact ih _ (h _)

end LiveServer.Concurrent.Prog
