import LiveServer.PushTest
import LiveServer.Text.Shell

/-! What a shell makes of the printed command.

An argument in quotes is read back as it is, whatever it is. One without quotes is read back
unless it has a backslash or a backquote or begins with `~` or `#`, for which `shellJoin`
does not quote. -/
namespace LiveServer.PushTest
open Text Shell Lexer

/-- The argument is quoted, or a shell finds nothing special in it. -/
def Survives (a : Str) : Prop :=
  IsQuoted a ∨ (92 ∉ a ∧ 96 ∉ a ∧ a.head? ≠ some 126 ∧ a.head? ≠ some 35)

instance (a : Str) : Decidable (Survives a) := inferInstanceAs (Decidable (_ ∨ _))

section
variable {ws : List Str} {w a : Str}

/-! ### One argument -/

/-- Between quotes every byte stands for itself, and `'\''` for a quote. -/
theorem run_escaped : (within ws w .single).run (replaceAll a 39 (lit "'\\''")) =
    some (within ws (w ++ a) .single) := by
  induction a generalizing w with
  | nil => simp [replaceAll]
  | cons b a ih =>
    have hcons : replaceAll (b :: a) 39 (lit "'\\''") =
        (if b = 39 then lit "'\\''" else [b]) ++ replaceAll a 39 (lit "'\\''") := List.flatMap_cons ..
    have hbyte : (within ws w .single).run (if b = 39 then lit "'\\''" else [b]) =
        some (within ws (w ++ [b]) .single) := by
      by_cases hb : b = 39
      · subst hb
        show some (within ws (w ++ [] ++ [39] ++ []) .single) = _
        simp
      · have hstep : (within ws w .single).step b = some (within ws (w ++ [b]) .single) := if_neg hb
        rw [if_neg hb, run_cons, hstep]
        rfl
    rw [hcons, run_append, hbyte]
    show (within ws (w ++ [b]) .single).run _ = _
    rw [ih, List.append_assoc]
    rfl

theorem run_quoted : (between ws).run (lit "'" ++ replaceAll a 39 (lit "'\\''") ++ lit "'") =
    some (within ws a .plain) := by
  have hopen : (between ws).run (lit "'") = some (within ws [] .single) := rfl
  have hclose : (within ws a .single).run (lit "'") = some (within ws (a ++ []) .plain) := rfl
  rw [run_append, run_append, hopen, Option.bind_some, run_escaped, Option.bind_some, List.nil_append,
    hclose, List.append_nil]

/-- What is not quoted has no byte that is special, but for those `shellJoin` does not know. -/
theorem isUnquoted_of_not_isQuoted (h : ¬ IsQuoted a) : a ≠ [] ∧ ∀ b ∈ a, IsUnquoted b := by
  have hspecial : special.all (fun b => b ∈ quotedBytes || b == 92 || b == 96) = true := by decide
  unfold IsQuoted at h
  rw [not_or, Bool.not_eq_true, containsAny_eq_false] at h
  refine ⟨h.1, fun b hb => ?_⟩
  by_cases hord : IsOrdinary b
  · exact .inl hord
  · have hcases := List.all_eq_true.mp hspecial b (not_not.mp hord)
    simpa [IsUnquoted, hord, h.2 b hb] using hcases

theorem run_quote (h : Survives a) : (between ws).run (quote a) = some (within ws a .plain) := by
  unfold quote
  split
  · exact run_quoted
  · rename_i hplain
    obtain ⟨hne, hbytes⟩ := isUnquoted_of_not_isQuoted hplain
    obtain ⟨hbackslash, hbackquote, htilde, hhash⟩ := h.resolve_left hplain
    obtain ⟨b, s, rfl⟩ := List.exists_cons_of_ne_nil hne
    apply run_word
    · intro c hc
      rcases hbytes c hc with hord | rfl | rfl
      · exact hord
      · exact absurd hc hbackslash
      · exact absurd hc hbackquote
    · exact ⟨fun hb => htilde (hb ▸ rfl), fun hb => hhash (hb ▸ rfl)⟩

/-! ### All of them -/

/-- What is printed behind an argument. -/
def behind : List Str → Str
  | [] => []
  | b :: args => 32 :: shellJoin (b :: args)

theorem shellJoin_cons (a : Str) (args : List Str) : shellJoin (a :: args) = quote a ++ behind args := by
  cases args with
  | nil => exact (List.append_nil _).symm
  | cons b args => exact List.append_assoc ..

/-- Behind any words, the arguments are read back exactly if each of them survives. -/
theorem rest_shellJoin_iff (args : List Str) :
    (between ws).rest (shellJoin args) = some (ws ++ args) ↔ ∀ a ∈ args, Survives a := by
  induction args generalizing ws with
  | nil => exact ⟨fun _ _ ha => absurd ha List.not_mem_nil, fun _ => rfl⟩
  | cons a args ih =>
    rw [shellJoin_cons, List.forall_mem_cons]
    by_cases ha : Survives a
    · rw [rest_append, run_quote ha, Option.bind_some]
      cases args with
      | nil => exact ⟨fun _ => ⟨ha, fun _ hb => absurd hb List.not_mem_nil⟩, fun _ => rfl⟩
      | cons b args =>
        have hnext : (within ws a .plain).rest (behind (b :: args)) =
            (between (ws ++ [a])).rest (shellJoin (b :: args)) := rfl
        have happend : ws ++ a :: b :: args = (ws ++ [a]) ++ b :: args := by simp
        rw [hnext, happend, ih]
        exact ⟨fun h => ⟨ha, h⟩, fun h => h.2⟩
    · refine ⟨fun h => absurd ?_ ha, fun h => absurd h.1 ha⟩
      right
      have hplain : ¬ IsQuoted a := fun hq => ha (.inl hq)
      obtain ⟨hne, hbytes⟩ := isUnquoted_of_not_isQuoted hplain
      unfold quote at h
      rw [if_neg hplain] at h
      apply ordinary_of_rest hne hbytes _ h
      cases args with
      | nil => exact .inl rfl
      | cons b args => exact .inr rfl

end

/-- A shell reads the arguments back from what `shellJoin` prints exactly if none is left
without quotes that has a backslash or a backquote or begins with `~` or `#`. -/
theorem shellJoin_undone_iff (args : List Str) :
    split (shellJoin args) = some args ↔ ∀ a ∈ args, Survives a :=
  rest_shellJoin_iff args

/-- The same for the printed command, when the name of the binary has nothing special. -/
theorem split_command_iff {b : UInt8} {s : Str} (hname : ∀ c ∈ b :: s, IsOrdinary c)
    (hfirst : b ≠ 126 ∧ b ≠ 35) (args : List Str) :
    split ((b :: s) ++ lit " " ++ shellJoin args) = some ((b :: s) :: args) ↔ ∀ a ∈ args, Survives a := by
  have hbinary : (between []).run (b :: s ++ lit " ") = some (between [b :: s]) := by
    rw [run_append, run_word hname hfirst]
    rfl
  unfold split
  rw [rest_append, hbinary]
  exact rest_shellJoin_iff args

/-- A path with backslashes is printed as it is and loses them; a backquote and a tilde are
expanded, and behind a `#` there is nothing. -/
theorem shellJoin_loses_backslash :
    split (shellJoin [lit "-i", lit "C:\\clips\\a.mp4"]) = some [lit "-i", lit "C:clipsa.mp4"] ∧
      split (shellJoin [lit "-i", lit "C:\\clips\\a.mp4"]) ≠ some [lit "-i", lit "C:\\clips\\a.mp4"] ∧
      split (shellJoin [lit "-i", lit "`id`"]) = none ∧
      split (shellJoin [lit "-i", lit "~/a.mp4"]) = none ∧
      split (shellJoin [lit "-i", lit "#1.mp4", lit "-an"]) = some [lit "-i"] := by
  decide

end LiveServer.PushTest
