import LiveServer.Text.Query

/-! Lines and blanks, as `bufio` and `strings` see them, and path segments of a URL. -/
namespace LiveServer.Text

/-- `strings.TrimRight` for a single byte. -/
def trimRight (b : UInt8) (s : Str) : Str := (s.reverse.dropWhile (· = b)).reverse

/-! ### Blanks -/

/-- The encodings of the characters that `unicode.IsSpace` accepts. -/
def spaces : List Str :=
  [[9], [10], [11], [12], [13], [32], [0xC2, 0x85], [0xC2, 0xA0], [0xE1, 0x9A, 0x80],
   [0xE2, 0x80, 0x80], [0xE2, 0x80, 0x81], [0xE2, 0x80, 0x82], [0xE2, 0x80, 0x83],
   [0xE2, 0x80, 0x84], [0xE2, 0x80, 0x85], [0xE2, 0x80, 0x86], [0xE2, 0x80, 0x87],
   [0xE2, 0x80, 0x88], [0xE2, 0x80, 0x89], [0xE2, 0x80, 0x8A], [0xE2, 0x80, 0xA8],
   [0xE2, 0x80, 0xA9], [0xE2, 0x80, 0xAF], [0xE2, 0x81, 0x9F], [0xE3, 0x80, 0x80]]

/-- Drops words of a list from the front for as long as one stands there. `skip` counts
the bytes that are left of the word found last. -/
def dropWords (words : List Str) : Nat → Str → Str
  | _, [] => []
  | skip + 1, _ :: rest => dropWords words skip rest
  | 0, b :: rest =>
    match words.find? (·.isPrefixOf (b :: rest)) with
    | none => b :: rest
    | some word => dropWords words (word.length - 1) rest

/-- `strings.TrimSpace`. No encoding is the end of another, so the back is trimmed like
the front of the reversed text. -/
def trimSpace (s : Str) : Str :=
  (dropWords (spaces.map List.reverse) 0 (dropWords spaces 0 s).reverse).reverse

section
variable {words : List Str}

/-- No word is empty or stands at the front of another: what stands at the front of a text
is one word only. -/
def IsCode (words : List Str) : Prop := ∀ u ∈ words, u ≠ [] ∧ ∀ v ∈ words, u <+: v → u = v

instance (words : List Str) : Decidable (IsCode words) := inferInstanceAs (Decidable (∀ u ∈ words, _))

theorem dropWords_skip (u s : Str) : dropWords words u.length (u ++ s) = dropWords words 0 s := by
  induction u with
  | nil => rfl
  | cons b rest ih => exact ih

theorem dropWords_append (hcode : IsCode words) {u : Str} (hu : u ∈ words) (s : Str) :
    dropWords words 0 (u ++ s) = dropWords words 0 s := by
  cases u with
  | nil => exact absurd rfl (hcode [] hu).1
  | cons b rest =>
    have hfind : words.find? (·.isPrefixOf (b :: rest ++ s)) = some (b :: rest) := by
      cases hf : words.find? (·.isPrefixOf (b :: rest ++ s)) with
      | none =>
        have hnot := List.find?_eq_none.mp hf _ hu
        exact absurd (List.isPrefixOf_iff_prefix.mpr (List.prefix_append _ s)) hnot
      | some v =>
        have hfront : v.isPrefixOf (b :: rest ++ s) = true := by simpa using List.find?_some hf
        have hv := List.isPrefixOf_iff_prefix.mp hfront
        have hvw := List.mem_of_find?_eq_some hf
        -- both stand at the front, so one stands at the front of the other
        rcases List.prefix_or_prefix_of_prefix hv (List.prefix_append _ s) with h | h
        · rw [(hcode v hvw).2 _ hu h]
        · rw [(hcode _ hu).2 _ hvw h]
    show (match words.find? (·.isPrefixOf (b :: rest ++ s)) with
      | none => b :: (rest ++ s)
      | some word => dropWords words (word.length - 1) (rest ++ s)) = _
    rw [hfind]
    exact dropWords_skip rest s

theorem dropWords_flatten (hcode : IsCode words) {us : List Str} (hus : ∀ u ∈ us, u ∈ words) (s : Str) :
    dropWords words 0 (us.flatten ++ s) = dropWords words 0 s := by
  induction us with
  | nil => rfl
  | cons u rest ih =>
    rw [List.flatten_cons, List.append_assoc, dropWords_append hcode (hus u List.mem_cons_self)]
    exact ih fun v hv => hus v (List.mem_cons_of_mem u hv)

theorem dropWords_none {s : Str} (h : ∀ u ∈ words, ¬ u <+: s) : dropWords words 0 s = s := by
  cases s with
  | nil => rfl
  | cons b rest =>
    have hfind : words.find? (·.isPrefixOf (b :: rest)) = none := by
      apply List.find?_eq_none.mpr
      intro u hu hp
      exact h u hu (List.isPrefixOf_iff_prefix.mp hp)
    show (match words.find? (·.isPrefixOf (b :: rest)) with
      | none => b :: rest
      | some word => dropWords words (word.length - 1) rest) = _
    rw [hfind]

/-- What is dropped are words, and none stands at the front of what is left. -/
theorem exists_dropWords (hcode : IsCode words) (s : Str) :
    ∃ us : List Str, (∀ u ∈ us, u ∈ words) ∧ s = us.flatten ++ dropWords words 0 s ∧
      ∀ u ∈ words, ¬ u <+: dropWords words 0 s := by
  induction hn : s.length using Nat.strongRecOn generalizing s with
  | ind n ih =>
    by_cases h : ∃ u ∈ words, u <+: s
    · obtain ⟨u, hu, t, rfl⟩ := h
      have hlen : 0 < u.length := List.length_pos_iff.mpr (hcode u hu).1
      rw [List.length_append] at hn
      obtain ⟨us, hus, heq, hnone⟩ := ih t.length (by omega) t rfl
      rw [dropWords_append hcode hu]
      refine ⟨u :: us, ?_, ?_, hnone⟩
      · intro v hv
        rcases List.mem_cons.mp hv with rfl | hv
        · exact hu
        · exact hus v hv
      · rw [List.flatten_cons, List.append_assoc, ← heq]
    · have hnone : ∀ u ∈ words, ¬ u <+: s := fun u hu hp => h ⟨u, hu, hp⟩
      rw [dropWords_none hnone]
      exact ⟨[], nofun, rfl, hnone⟩

end

theorem isCode_spaces : IsCode spaces := by decide

theorem isCode_reversed : IsCode (spaces.map List.reverse) := by decide

/-- `core` stands in `s` with only blanks around it, and has none at either end itself. -/
structure Surrounded (s core : Str) : Prop where
  split : ∃ lead trail : List Str, (∀ u ∈ lead, u ∈ spaces) ∧ (∀ u ∈ trail, u ∈ spaces) ∧
    s = lead.flatten ++ core ++ trail.flatten
  front : ∀ u ∈ spaces, ¬ u <+: core
  back : ∀ u ∈ spaces, ¬ u <:+ core

/-- No byte of a blank after its first is the first byte of one. -/
theorem spaces_apart : ∀ u ∈ spaces, ∀ b ∈ u.tail, ∀ v ∈ spaces, v.head? ≠ some b := by
  have hall : (spaces.all fun u => u.tail.all fun b => spaces.all fun v => v.head? ≠ some b) = true := by
    decide
  simpa using hall

/-- A word at the front of a text that blanks end is at the front of what they end. -/
theorem front_of_blanks {core : Str} (hcore : core ≠ []) {trail : List Str}
    (htrail : ∀ u ∈ trail, u ∈ spaces) {u : Str} (hu : u ∈ spaces)
    (h : u <+: core ++ trail.flatten) : u <+: core := by
  rcases List.prefix_or_prefix_of_prefix h (List.prefix_append core _) with hp | ⟨v, rfl⟩
  · exact hp
  · cases v with
    | nil => exact ⟨[], by rw [List.append_nil, List.append_nil]⟩
    | cons b v =>
      exfalso
      -- the word would go on with a byte that begins a blank
      obtain ⟨t, ht⟩ := h
      rw [List.append_assoc, List.append_cancel_left_eq] at ht
      cases trail with
      | nil => cases ht
      | cons x rest =>
        have hx := htrail x List.mem_cons_self
        cases x with
        | nil => exact (isCode_spaces [] hx).1 rfl
        | cons c x =>
          have hbc : b = c := (List.cons.inj ht).1
          apply spaces_apart _ hu b _ _ hx
          · rw [hbc]
            rfl
          · rw [List.tail_append_of_ne_nil hcore]
            exact List.mem_append_right _ List.mem_cons_self

theorem Surrounded.trimSpace {s core : Str} (h : Surrounded s core) : trimSpace s = core := by
  obtain ⟨⟨lead, trail, hlead, htrail, rfl⟩, hfront, hback⟩ := h
  have hdrop : dropWords spaces 0 (lead.flatten ++ core ++ trail.flatten) =
      if core = [] then [] else core ++ trail.flatten := by
    rw [List.append_assoc, dropWords_flatten isCode_spaces hlead]
    split
    · rename_i hcore
      subst hcore
      rw [List.nil_append, ← List.append_nil trail.flatten, dropWords_flatten isCode_spaces htrail]
      rfl
    · rename_i hcore
      exact dropWords_none fun u hu hp => hfront u hu (front_of_blanks hcore htrail hu hp)
  unfold Text.trimSpace
  rw [hdrop]
  split
  · rename_i hcore
    rw [hcore]
    rfl
  · have hrev : (core ++ trail.flatten).reverse = ((trail.map List.reverse).reverse).flatten ++ core.reverse := by
      rw [List.reverse_append, List.reverse_flatten]
    rw [hrev, dropWords_flatten isCode_reversed, dropWords_none, List.reverse_reverse]
    · intro u hu hp
      obtain ⟨v, hv, rfl⟩ := List.mem_map.mp hu
      exact hback v hv (List.reverse_prefix.mp hp)
    · intro u hu
      obtain ⟨v, hv, rfl⟩ := List.mem_map.mp (List.mem_reverse.mp hu)
      exact List.mem_map_of_mem (htrail v hv)

/-- `strings.TrimSpace` leaves what stands between the blanks. -/
theorem surrounded_trimSpace (s : Str) : Surrounded s (trimSpace s) := by
  obtain ⟨lead, hlead, hs, hfront⟩ := exists_dropWords isCode_spaces s
  obtain ⟨back, hwords, hrest, hback⟩ := exists_dropWords isCode_reversed (dropWords spaces 0 s).reverse
  have hmid : dropWords spaces 0 s = trimSpace s ++ (back.map List.reverse).reverse.flatten := by
    rw [← List.reverse_flatten]
    unfold trimSpace
    rw [← List.reverse_append, ← hrest, List.reverse_reverse]
  constructor
  · refine ⟨lead, (back.map List.reverse).reverse, hlead, ?_, ?_⟩
    · intro u hu
      obtain ⟨v, hv, rfl⟩ := List.mem_map.mp (List.mem_reverse.mp hu)
      obtain ⟨x, hx, rfl⟩ := List.mem_map.mp (hwords v hv)
      rw [List.reverse_reverse]
      exact hx
    · rw [List.append_assoc, ← hmid]
      exact hs
  · intro u hu hp
    apply hfront u hu
    rw [hmid]
    exact hp.trans (List.prefix_append _ _)
  · intro u hu hp
    apply hback u.reverse (List.mem_map_of_mem hu)
    have hp := List.reverse_prefix.mpr hp
    unfold trimSpace at hp
    rwa [List.reverse_reverse] at hp

/-- A carriage return at the end is one more blank. -/
theorem Surrounded.carriageReturn {s core : Str} (h : Surrounded s core) : Surrounded (s ++ [13]) core := by
  obtain ⟨⟨lead, trail, hlead, htrail, rfl⟩, hfront, hback⟩ := h
  refine ⟨⟨lead, trail ++ [[13]], hlead, ?_, ?_⟩, hfront, hback⟩
  · intro u hu
    rcases List.mem_append.mp hu with hu | hu
    · exact htrail u hu
    · rw [List.mem_singleton.mp hu]
      decide
  · simp

theorem trimSpace_trimSuffix (s : Str) : trimSpace (trimSuffix s [13]) = trimSpace s := by
  unfold trimSuffix
  split
  · rename_i h
    obtain ⟨t, rfl⟩ := List.isSuffixOf_iff_suffix.mp h
    rw [List.length_append, Nat.add_sub_cancel, List.take_left]
    exact (surrounded_trimSpace t).carriageReturn.trimSpace.symm
  · rfl

/-! ### Lines -/

/-- `bufio.MaxScanTokenSize`: a line must end, or the text must, before the buffer is full. -/
def maxScanTokenSize : Nat := 65536

/-- The lines of a text without their ends; `none` where a line does not fit the buffer. -/
def scanLines (s : Str) : Option (List Str) :=
  let raw := pieces 10 s
  -- what follows the last line feed is a line only if there is something
  let raw := if raw.getLast? = some [] then raw.dropLast else raw
  if raw.all (·.length < maxScanTokenSize) then some (raw.map fun line => trimSuffix line [13])
  else none

/-- The scanner gives up at a line that does not fit, and else has all lines but perhaps an
empty one at the end. -/
theorem scanLines_spec (s : Str) :
    (scanLines s = none ∧ ∃ line ∈ pieces 10 s, maxScanTokenSize ≤ line.length) ∨
    ∃ lines, scanLines s = some lines ∧ (∀ line ∈ pieces 10 s, line.length < maxScanTokenSize) ∧
      ∀ core, core ≠ [] → (core ∈ lines.map trimSpace ↔ core ∈ (pieces 10 s).map trimSpace) := by
  unfold scanLines
  dsimp only
  generalize hraw : (if (pieces 10 s).getLast? = some [] then (pieces 10 s).dropLast
    else pieces 10 s) = raw
  have hmem : ∀ line, line ∈ pieces 10 s → line ∈ raw ∨ line = [] := by
    intro line hline
    rw [← hraw]
    split
    · rename_i hlast
      rw [← List.dropLast_append_getLast? [] hlast] at hline
      rcases List.mem_append.mp hline with h | h
      · exact .inl h
      · exact .inr (List.mem_singleton.mp h)
    · exact .inl hline
  have hsub : raw ⊆ pieces 10 s := by
    rw [← hraw]
    split
    · exact List.dropLast_subset _
    · exact List.Subset.refl _
  by_cases hall : raw.all (·.length < maxScanTokenSize) = true
  · refine .inr ⟨_, if_pos hall, ?_, ?_⟩
    · intro line hline
      rcases hmem line hline with h | rfl
      · simpa using List.all_eq_true.mp hall line h
      · decide
    · intro core hcore
      rw [List.map_map, show trimSpace ∘ (fun line => trimSuffix line [13]) = trimSpace from
        funext trimSpace_trimSuffix]
      constructor
      · exact fun h => List.map_subset _ hsub h
      · intro h
        obtain ⟨line, hline, rfl⟩ := List.mem_map.mp h
        rcases hmem line hline with h | rfl
        · exact List.mem_map_of_mem h
        · exact absurd (by decide) hcore
  · refine .inl ⟨if_neg hall, ?_⟩
    simp only [List.all_eq_true, decide_eq_true_eq, not_forall, Nat.not_lt] at hall
    obtain ⟨line, hline, hlong⟩ := hall
    exact ⟨line, hsub hline, hlong⟩

/-- A line that ends is split off. -/
theorem scanLines_append {t : Str} (ht : 10 ∉ t) (hfits : t.length < maxScanTokenSize) (u : Str) :
    scanLines (t ++ 10 :: u) = (scanLines u).map (trimSuffix t [13] :: ·) := by
  have hne : pieces 10 u ≠ [] := pieces_ne_nil 10 u
  have hlast : (t :: pieces 10 u).getLast? = (pieces 10 u).getLast? := by
    rw [List.getLast?_cons, List.getLast?_eq_some_getLast hne]
    rfl
  unfold scanLines
  simp only [pieces_append ht, hlast]
  by_cases hend : (pieces 10 u).getLast? = some []
  · rw [if_pos hend, if_pos hend, List.dropLast_cons_of_ne_nil hne]
    by_cases hall : (pieces 10 u).dropLast.all (·.length < maxScanTokenSize) = true
    · simp [hfits, hall]
    · simp [hall]
  · rw [if_neg hend, if_neg hend]
    by_cases hall : (pieces 10 u).all (·.length < maxScanTokenSize) = true
    · simp [hfits, hall]
    · simp [hall]

/-- What follows the last line feed is a line if there is anything. -/
theorem scanLines_last {t : Str} (ht : 10 ∉ t) (hfits : t.length < maxScanTokenSize) :
    scanLines t = some (if t = [] then [] else [trimSuffix t [13]]) := by
  unfold scanLines
  rw [pieces_absent ht]
  by_cases h : t = []
  · subst h
    rfl
  · simp [h, hfits]

/-- A line of a text, with what it is when trimmed and how it ends. -/
structure Line where
  text : Str
  core : Str
  ending : Str
  around : Surrounded text core
  single : 10 ∉ text
  ends : ending = [10] ∨ ending = [13, 10]

namespace Line

/-- Any bytes without a line feed are a line. -/
def ofText (text ending : Str) (single : 10 ∉ text) (ends : ending = [10] ∨ ending = [13, 10]) : Line :=
  ⟨text, trimSpace text, ending, surrounded_trimSpace text, single, ends⟩

/-- The text of some lines; the end of the last one is there or not. -/
def join (closed : Bool) : List Line → Str
  | [] => []
  | [l] => if closed then l.text ++ l.ending else l.text
  | l :: l' :: rest => l.text ++ l.ending ++ join closed (l' :: rest)

/-- The line as far as the line feed is what trims to its core. -/
theorem body (l : Line) : ∃ body, l.text ++ l.ending = body ++ [10] ∧ 10 ∉ body ∧
    trimSpace (trimSuffix body [13]) = l.core := by
  rcases l.ends with h | h
  · refine ⟨l.text, by rw [h], l.single, ?_⟩
    rw [trimSpace_trimSuffix]
    exact l.around.trimSpace
  · refine ⟨l.text ++ [13], by rw [h, List.append_assoc]; rfl, ?_, ?_⟩
    · intro hmem
      rcases List.mem_append.mp hmem with hmem | hmem
      · exact l.single hmem
      · exact absurd hmem (by decide)
    · rw [trimSpace_trimSuffix]
      exact l.around.carriageReturn.trimSpace

/-- The line fits the buffer of the scanner. -/
def Fits (l : Line) : Prop := (l.text ++ l.ending).length < maxScanTokenSize

instance (l : Line) : Decidable l.Fits := inferInstanceAs (Decidable (_ < _))

theorem scanLines_ended (l : Line) (hfits : l.Fits) (u : Str) :
    ∃ got, scanLines (l.text ++ l.ending ++ u) = (scanLines u).map (got :: ·) ∧
      trimSpace got = l.core := by
  obtain ⟨body, heq, hbody, hcore⟩ := l.body
  refine ⟨trimSuffix body [13], ?_, hcore⟩
  unfold Fits at hfits
  rw [heq, List.length_append] at hfits
  rw [heq, List.append_assoc]
  apply scanLines_append hbody
  omega

/-- The lines of a text are found again; only an empty one at its end is lost. -/
theorem scanLines_join (closed : Bool) {lines : List Line} (hfits : ∀ l ∈ lines, l.Fits) :
    ∃ got, scanLines (join closed lines) = some got ∧
      (got.map trimSpace).filter (· ≠ []) = (lines.map Line.core).filter (· ≠ []) := by
  induction lines with
  | nil => exact ⟨[], rfl, rfl⟩
  | cons l rest ih =>
    have hl : l.Fits := hfits l List.mem_cons_self
    cases rest with
    | nil =>
      cases closed with
      | true =>
        obtain ⟨got, hscan, hcore⟩ := l.scanLines_ended hl []
        rw [List.append_nil] at hscan
        refine ⟨[got], hscan, ?_⟩
        rw [List.map_cons, hcore]
        rfl
      | false =>
        have hlen : l.text.length < maxScanTokenSize := by
          unfold Fits at hl
          rw [List.length_append] at hl
          omega
        refine ⟨if l.text = [] then [] else [trimSuffix l.text [13]], scanLines_last l.single hlen, ?_⟩
        by_cases htext : l.text = []
        · have hcore : l.core = [] := by
            rw [← l.around.trimSpace, htext]
            rfl
          rw [if_pos htext, List.map_cons, hcore]
          rfl
        · rw [if_neg htext, List.map_cons, trimSpace_trimSuffix, l.around.trimSpace]
          rfl
    | cons l' rest =>
      obtain ⟨got, hscan, hcores⟩ := ih fun x hx => hfits x (List.mem_cons_of_mem l hx)
      obtain ⟨first, hfirst, hcore⟩ := l.scanLines_ended hl (join closed (l' :: rest))
      refine ⟨first :: got, ?_, ?_⟩
      · rw [hscan] at hfirst
        exact hfirst
      · rw [List.map_cons, List.map_cons, hcore, List.filter_cons, List.filter_cons, hcores]

end Line

/-! ### Path segments -/

def upperHexDigit (n : Nat) : UInt8 := if n < 10 then UInt8.ofNat (48 + n) else UInt8.ofNat (55 + n)

/-- The bytes that stand for themselves in a path segment: letters, digits and `-_.~$&+=:@`. -/
def isSegmentByte (b : UInt8) : Bool :=
  (97 ≤ b && b ≤ 122) || (65 ≤ b && b ≤ 90) || (48 ≤ b && b ≤ 57) ||
    (lit "-_.~$&+=:@").contains b

/-- `url.PathEscape`. -/
def pathEscape (s : Str) : Str :=
  s.flatMap fun b =>
    if isSegmentByte b then [b]
    else [37, upperHexDigit (b.toNat / 16), upperHexDigit (b.toNat % 16)]

end LiveServer.Text
