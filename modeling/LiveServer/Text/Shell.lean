import LiveServer.Text.Bytes

/-! How a POSIX shell reads the arguments of a command.

The text is read byte by byte. Blanks outside quotes end a word, single quotes keep
everything up to the next one, a backslash keeps the byte behind it, and double quotes
keep all but the few bytes that stay special in them. `split` gives the words only where
the text alone decides them: not where a substitution, a tilde or a pattern is expanded,
where an operator or a newline ends the command, or where the text ends within quotes or
right behind a backslash. -/
namespace LiveServer.Text.Shell

/-- What the next byte means. -/
inductive Mode where
  | plain
  /-- Behind a backslash. -/
  | escape
  | single
  | double
  /-- Behind a backslash in double quotes. -/
  | doubleEscape
  | comment
  deriving DecidableEq, Repr

/-- The words that are complete and the one that has been begun. -/
structure Lexer where
  words : List Str
  word : Option Str
  mode : Mode
  deriving DecidableEq, Repr

/-- What begins a substitution. -/
def substitutes : Str := lit "`$"

/-- What ends a command or redirects it. -/
def operators : Str := lit "|&;<>()\n"

/-- What makes a word a pattern for file names. -/
def patterns : Str := lit "*?["

namespace Lexer

/-- Between two words, the given ones being complete. -/
def between (words : List Str) : Lexer := ⟨words, none, .plain⟩

/-- Within a word. -/
def within (words : List Str) (word : Str) (mode : Mode) : Lexer := ⟨words, some word, mode⟩

/-- The word goes on, perhaps with nothing yet. -/
def goOn (l : Lexer) (bytes : Str) (mode : Mode) : Lexer :=
  within l.words (l.word.getD [] ++ bytes) mode

/-- The word that has been begun is complete. -/
def done (l : Lexer) : List Str := l.words ++ l.word.toList

def stepPlain (l : Lexer) (b : UInt8) : Option Lexer :=
  if b = 32 ∨ b = 9 then some (between l.done)
  else if b = 39 then some (l.goOn [] .single)
  else if b = 34 then some (l.goOn [] .double)
  else if b = 92 then some { l with mode := .escape }
  else if b ∈ substitutes ∨ b ∈ operators ∨ b ∈ patterns then none
  else if l.word = none ∧ b = 126 then none
  else if l.word = none ∧ b = 35 then some { l with mode := .comment }
  else some (l.goOn [b] .plain)

def step (l : Lexer) (b : UInt8) : Option Lexer :=
  match l.mode with
  | .plain => l.stepPlain b
  -- a backslash before a newline continues the line
  | .escape => if b = 10 then some { l with mode := .plain } else some (l.goOn [b] .plain)
  | .single => if b = 39 then some (l.goOn [] .plain) else some (l.goOn [b] .single)
  | .double =>
    if b = 34 then some (l.goOn [] .plain)
    else if b = 92 then some { l with mode := .doubleEscape }
    else if b ∈ substitutes then none
    else some (l.goOn [b] .double)
  | .doubleEscape =>
    if b = 10 then some { l with mode := .double }
    else if b ∈ substitutes ∨ b = 34 ∨ b = 92 then some (l.goOn [b] .double)
    else some (l.goOn [92, b] .double)
  | .comment => if b = 10 then none else some l

def run (l : Lexer) (s : Str) : Option Lexer := s.foldlM step l

def finish (l : Lexer) : Option (List Str) :=
  match l.mode with
  | .plain | .comment => some l.done
  | _ => none

/-- The words when `s` is read from here to its end. -/
def rest (l : Lexer) (s : Str) : Option (List Str) := (l.run s).bind finish

end Lexer

/-- The arguments that a text stands for. -/
def split (s : Str) : Option (List Str) := (Lexer.between []).rest s

/-! ### Reading on -/

namespace Lexer
variable {l : Lexer} {ws : List Str} {w s t : Str} {b : UInt8}

@[simp] theorem run_nil (l : Lexer) : l.run [] = some l := rfl

theorem run_cons (l : Lexer) (b : UInt8) (s : Str) : l.run (b :: s) = (l.step b).bind (·.run s) := rfl

theorem run_append (l : Lexer) (s t : Str) : l.run (s ++ t) = (l.run s).bind (·.run t) := by
  unfold run
  rw [List.foldlM_append]
  rfl

theorem rest_append (l : Lexer) (s t : Str) : l.rest (s ++ t) = (l.run s).bind (·.rest t) := by
  show (l.run (s ++ t)).bind finish = _
  rw [run_append, Option.bind_assoc]
  rfl

theorem rest_cons (l : Lexer) (b : UInt8) (s : Str) : l.rest (b :: s) = (l.step b).bind (·.rest s) := by
  show (l.run (b :: s)).bind finish = _
  rw [run_cons, Option.bind_assoc]
  rfl

/-- The bytes that are special within a word. -/
def special : Str := lit " \t'\"\\`$|&;<>()\n*?["

def IsOrdinary (b : UInt8) : Prop := b ∉ special

instance (b : UInt8) : Decidable (IsOrdinary b) := inferInstanceAs (Decidable (¬ _))

theorem stepPlain_ordinary (hb : IsOrdinary b) (hstart : l.word = none → b ≠ 126 ∧ b ≠ 35) :
    l.stepPlain b = some (l.goOn [b] .plain) := by
  have hne (c : UInt8) (hc : c ∈ special) : b ≠ c := fun h => hb (h ▸ hc)
  have hspecial : ¬ (b ∈ substitutes ∨ b ∈ operators ∨ b ∈ patterns) := by
    intro h
    apply hb
    rcases h with h | h | h
    · exact (by decide : substitutes ⊆ special) h
    · exact (by decide : operators ⊆ special) h
    · exact (by decide : patterns ⊆ special) h
  unfold stepPlain
  rw [if_neg (by simp [hne 32 (by decide), hne 9 (by decide)]), if_neg (hne 39 (by decide)),
    if_neg (hne 34 (by decide)), if_neg (hne 92 (by decide)), if_neg hspecial,
    if_neg fun h => (hstart h.1).1 h.2, if_neg fun h => (hstart h.1).2 h.2]

/-- Ordinary bytes within a word are its own. -/
theorem run_ordinary (h : ∀ b ∈ s, IsOrdinary b) :
    (within ws w .plain).run s = some (within ws (w ++ s) .plain) := by
  induction s generalizing w with
  | nil => simp
  | cons b s ih =>
    have hstep : (within ws w .plain).step b = some (within ws (w ++ [b]) .plain) :=
      stepPlain_ordinary (h b List.mem_cons_self) fun hnone => by cases hnone
    rw [run_cons, hstep]
    show (within ws (w ++ [b]) .plain).run s = _
    rw [ih fun c hc => h c (List.mem_cons_of_mem b hc), List.append_assoc]
    rfl

/-- Ordinary bytes make a word, unless the first one is special there. -/
theorem run_word (hs : ∀ c ∈ b :: s, IsOrdinary c) (hb : b ≠ 126 ∧ b ≠ 35) :
    (between ws).run (b :: s) = some (within ws (b :: s) .plain) := by
  have hstep : (between ws).step b = some (within ws [b] .plain) :=
    stepPlain_ordinary (hs b List.mem_cons_self) fun _ => hb
  rw [run_cons, hstep]
  exact run_ordinary fun c hc => hs c (List.mem_cons_of_mem b hc)

/-! ### What is read stays -/

/-- One byte ends the word, adds to it, or only changes what the next byte means. -/
inductive Moved (l : Lexer) : Lexer → Prop
  | ended : Moved l (between l.done)
  | added (bytes : Str) (mode : Mode) : Moved l (l.goOn bytes mode)
  | turned (mode : Mode) : Moved l { l with mode := mode }

theorem moved_stepPlain {l' : Lexer} (h : l.stepPlain b = some l') : Moved l l' := by
  unfold stepPlain at h
  split at h
  · cases h
    exact .ended
  split at h
  · cases h
    exact .added [] .single
  split at h
  · cases h
    exact .added [] .double
  split at h
  · cases h
    exact .turned .escape
  split at h
  · cases h
  split at h
  · cases h
  split at h
  · cases h
    exact .turned .comment
  · cases h
    exact .added [b] .plain

theorem moved_step {l' : Lexer} (h : l.step b = some l') : Moved l l' := by
  unfold step at h
  cases hmode : l.mode <;> rw [hmode] at h <;> dsimp only at h
  case plain => exact moved_stepPlain h
  case escape =>
    split at h
    · cases h
      exact .turned .plain
    · cases h
      exact .added [b] .plain
  case single =>
    split at h
    · cases h
      exact .added [] .plain
    · cases h
      exact .added [b] .single
  case double =>
    split at h
    · cases h
      exact .added [] .plain
    split at h
    · cases h
      exact .turned .doubleEscape
    split at h
    · cases h
    · cases h
      exact .added [b] .double
  case doubleEscape =>
    split at h
    · cases h
      exact .turned .double
    split at h
    · cases h
      exact .added [b] .double
    · cases h
      exact .added [92, b] .double
  case comment =>
    split at h
    · cases h
    · cases h
      exact .turned l.mode

/-- The words `R` begin with the complete ones, and the next goes on from the one begun. -/
def Begins (l : Lexer) (R : List Str) : Prop :=
  ∃ more, R = l.words ++ more ∧ ∀ w, l.word = some w → ∃ x ws, more = (w ++ x) :: ws

theorem begins_done (l : Lexer) (ws : List Str) : l.Begins (l.done ++ ws) := by
  refine ⟨l.word.toList ++ ws, List.append_assoc .., ?_⟩
  intro w hw
  exact ⟨[], ws, by simp [hw]⟩

theorem Begins.of_step {l' : Lexer} {R : List Str} (hstep : l.step b = some l') (h : l'.Begins R) :
    l.Begins R := by
  obtain ⟨more, rfl, hmore⟩ := h
  cases moved_step hstep with
  | ended => exact l.begins_done more
  | added bytes mode =>
    obtain ⟨x, ws, rfl⟩ := hmore _ rfl
    refine ⟨_, rfl, ?_⟩
    intro w hw
    exact ⟨bytes ++ x, ws, by simp [hw]⟩
  | turned mode => exact ⟨more, rfl, hmore⟩

/-- Whatever is read later, the complete words stay, and so does what there is of the next. -/
theorem begins_of_rest {R : List Str} (h : l.rest s = some R) : l.Begins R := by
  induction s generalizing l with
  | nil =>
    have hR : R = l.done := by
      unfold rest finish at h
      simp only [run_nil, Option.bind_some] at h
      split at h
      · exact (Option.some.inj h).symm
      · exact (Option.some.inj h).symm
      · cases h
    have hbegins := l.begins_done []
    rwa [List.append_nil, ← hR] at hbegins
  | cons b s ih =>
    rw [rest_cons] at h
    obtain ⟨l', hstep, h⟩ := Option.bind_eq_some_iff.mp h
    exact Begins.of_step hstep (ih h)

/-! ### Words without quotes -/

/-- Bytes that are ordinary, or a backslash or a backquote. -/
def IsUnquoted (b : UInt8) : Prop := IsOrdinary b ∨ b = 92 ∨ b = 96

/-- A word gets no longer than the text it is read from. It stays shorter if a backslash is
read, and a backquote is read only behind one. -/
theorem run_unquoted {m : Mode} {l' : Lexer} (hm : m = .plain ∨ m = .escape) (hs : ∀ b ∈ s, IsUnquoted b)
    (h : (within ws w m).run s = some l') :
    ∃ u m', l' = within ws (w ++ u) m' ∧ (m' = .plain ∨ m' = .escape) ∧ u.length ≤ s.length ∧
      (m = .plain → m' = .escape ∨ 92 ∈ s ∨ 96 ∈ s → u.length < s.length) := by
  induction s generalizing w m with
  | nil =>
    refine ⟨[], m, ?_, hm, Nat.le_refl _, ?_⟩
    · simpa using h.symm
    · intro hplain hlost
      subst hplain
      simp at hlost
  | cons b s ih =>
    have hrest (c : UInt8) (hc : c ∈ s) : IsUnquoted c := hs c (List.mem_cons_of_mem b hc)
    rw [run_cons] at h
    rcases hm with rfl | rfl
    · rcases hs b List.mem_cons_self with hb | rfl | rfl
      · have hstep : (within ws w .plain).step b = some (within ws (w ++ [b]) .plain) :=
          stepPlain_ordinary hb fun hnone => by cases hnone
        rw [hstep] at h
        obtain ⟨u, m', rfl, hm', hle, hlt⟩ := ih (.inl rfl) hrest h
        refine ⟨b :: u, m', by simp, hm', Nat.succ_le_succ hle, ?_⟩
        intro _ hlost
        apply Nat.succ_lt_succ
        apply hlt rfl
        have h92 : (92 : UInt8) ≠ b := fun heq => hb (heq ▸ by decide)
        have h96 : (96 : UInt8) ≠ b := fun heq => hb (heq ▸ by decide)
        simpa [h92, h96] using hlost
      · obtain ⟨u, m', rfl, hm', hle, _⟩ := ih (m := .escape) (.inr rfl) hrest h
        exact ⟨u, m', rfl, hm', Nat.le_succ_of_le hle, fun _ _ => Nat.lt_succ_of_le hle⟩
      · cases h
    · have hb : b ≠ 10 := by
        rcases hs b List.mem_cons_self with hb | rfl | rfl
        · exact fun heq => hb (heq ▸ by decide)
        · decide
        · decide
      have hstep : (within ws w .escape).step b = some (within ws (w ++ [b]) .plain) := if_neg hb
      rw [hstep] at h
      obtain ⟨u, m', rfl, hm', hle, _⟩ := ih (.inl rfl) hrest h
      exact ⟨b :: u, m', by simp, hm', Nat.succ_le_succ hle, fun hplain => by cases hplain⟩

/-- Only blanks, a tilde and a comment know whether a word has been begun. -/
theorem rest_within_nil (hb : b ∉ lit " \t~#") (hs : s.head? ≠ some 10) :
    (between ws).rest (b :: s) = (within ws [] .plain).rest (b :: s) := by
  have hne (c : UInt8) (hc : c ∈ lit " \t~#") : b ≠ c := fun h => hb (h ▸ hc)
  by_cases h92 : b = 92
  · subst h92
    cases s with
    | nil => rfl
    | cons c s =>
      have hc : c ≠ 10 := fun h => hs (h ▸ rfl)
      have hstep (o : Option Str) : step ⟨ws, o, .escape⟩ c = some (within ws (o.getD [] ++ [c]) .plain) :=
        if_neg hc
      show rest ⟨ws, none, .escape⟩ (c :: s) = rest ⟨ws, some [], .escape⟩ (c :: s)
      rw [rest_cons, rest_cons, hstep, hstep]
      rfl
  · have hstep : (between ws).step b = (within ws [] .plain).step b := by
      show stepPlain _ b = stepPlain _ b
      simp [stepPlain, h92, hne 32 (by decide), hne 9 (by decide), hne 126 (by decide),
        hne 35 (by decide), goOn, between, within]
    rw [rest_cons, rest_cons, hstep]

/-- In a comment nothing is read. -/
theorem rest_comment {R : List Str} (h : (Lexer.mk ws none .comment).rest s = some R) : R = ws := by
  induction s with
  | nil => simpa [rest, finish, done] using h.symm
  | cons b s ih =>
    by_cases hb : b = 10
    · subst hb
      cases h
    · have hstep : (Lexer.mk ws none .comment).step b = some ⟨ws, none, .comment⟩ := if_neg hb
      rw [rest_cons, hstep] at h
      exact ih h

/-- A word that ends here is the next word. -/
theorem word_of_rest {u a : Str} {more : List Str} (ht : t = [] ∨ t.head? = some 32)
    (h : (within ws u .plain).rest t = some (ws ++ a :: more)) : u = a := by
  rcases ht with rfl | ht
  · have hR : ws ++ [u] = ws ++ a :: more := Option.some.inj h
    exact (List.cons.inj (List.append_cancel_left hR)).1
  · obtain ⟨t', rfl⟩ := List.head?_eq_some_iff.mp ht
    obtain ⟨more', hR, -⟩ := begins_of_rest (l := between (ws ++ [u])) (s := t') h
    have hR : ws ++ a :: more = ws ++ u :: more' := by simpa [between] using hR
    exact (List.cons.inj (List.append_cancel_left hR)).1.symm

/-- A backslash at the end of a word takes the blank behind it. -/
theorem blank_of_rest {u a : Str} {more : List Str} (ht : t = [] ∨ t.head? = some 32)
    (h : (within ws u .escape).rest t = some (ws ++ a :: more)) : 32 ∈ a := by
  rcases ht with rfl | ht
  · cases h
  · obtain ⟨t', rfl⟩ := List.head?_eq_some_iff.mp ht
    obtain ⟨more', hR, hword⟩ := begins_of_rest (l := within ws (u ++ [32]) .plain) (s := t') h
    obtain ⟨x, ws', rfl⟩ := hword (u ++ [32]) rfl
    rw [(List.cons.inj (List.append_cancel_left hR)).1]
    simp

/-- A text without quotes that is read as itself has nothing special in it. -/
theorem ordinary_of_rest {a : Str} {more : List Str} (hne : a ≠ []) (ha : ∀ b ∈ a, IsUnquoted b)
    (ht : t = [] ∨ t.head? = some 32) (h : (between ws).rest (a ++ t) = some (ws ++ a :: more)) :
    92 ∉ a ∧ 96 ∉ a ∧ a.head? ≠ some 126 ∧ a.head? ≠ some 35 := by
  obtain ⟨b, s, rfl⟩ := List.exists_cons_of_ne_nil hne
  have hblank (c : UInt8) (hc : c ∈ lit " \t\n") : c ∉ b :: s := by
    intro hmem
    rcases ha c hmem with hord | rfl | rfl
    · exact hord ((by decide : lit " \t\n" ⊆ special) hc)
    · exact absurd hc (by decide)
    · exact absurd hc (by decide)
  have htilde : b ≠ 126 := by
    intro hb
    subst hb
    cases h
  have hcomment : b ≠ 35 := by
    intro hb
    subst hb
    have hws : ws ++ (35 :: s) :: more = ws := rest_comment (s := s ++ t) h
    simp at hws
  have hfirst : b ∉ lit " \t~#" := by
    have hne (c : UInt8) (hc : c ∈ lit " \t\n") : b ≠ c := fun hb => hblank c hc (hb ▸ List.mem_cons_self)
    show b ∉ [32, 9, 126, 35]
    simp [hne 32 (by decide), hne 9 (by decide), htilde, hcomment]
  have hnext : (s ++ t).head? ≠ some 10 := by
    cases s with
    | nil =>
      rcases ht with rfl | ht
      · decide
      · rw [List.nil_append, ht]
        decide
    | cons c s =>
      intro hc
      apply hblank 10 (by decide)
      simp [(Option.some.inj hc)]
  rw [List.cons_append, rest_within_nil hfirst hnext, ← List.cons_append, rest_append] at h
  obtain ⟨l', hrun, h⟩ := Option.bind_eq_some_iff.mp h
  obtain ⟨u, m', rfl, hm', -, hlt⟩ := run_unquoted (.inl rfl) ha hrun
  rcases hm' with rfl | rfl
  · -- the word is the text itself, so nothing was lost on the way
    have hu : u = b :: s := word_of_rest ht h
    have hkept : ¬ (92 ∈ b :: s ∨ 96 ∈ b :: s) := by
      intro hmem
      have hshort := hlt rfl (.inr hmem)
      rw [hu] at hshort
      exact absurd hshort (Nat.lt_irrefl _)
    rw [not_or] at hkept
    exact ⟨hkept.1, hkept.2, fun hb => htilde (Option.some.inj hb), fun hb => hcomment (Option.some.inj hb)⟩
  · exact absurd (blank_of_rest ht h) (hblank 32 (by decide))

end Lexer
end LiveServer.Text.Shell
