import Mathlib.Data.Bool.AllAny
import LiveServer.Text.Bytes

/-! Query strings, as `net/url` reads them.

A query is settings separated by `&`, each a name and a value around the first
`=`, both percent-encoded with `+` for a blank. A setting with a raw semicolon or
a bad escape is left out and makes the whole query an error; the settings that
could be read are kept all the same. -/
namespace LiveServer.Text

/-- `url.QueryUnescape`. -/
def queryUnescape : Str → Option Str
  | [] => some []
  | 37 :: a :: b :: rest =>
    match unhex a, unhex b with
    | some x, some y => (queryUnescape rest).map (UInt8.ofNat (16 * x + y) :: ·)
    | _, _ => none
  | 37 :: _ => none
  | 43 :: rest => (queryUnescape rest).map (32 :: ·)
  | b :: rest => (queryUnescape rest).map (b :: ·)

/-- The parts of a string between separators. -/
def pieces (sep : UInt8) : Str → List Str
  | [] => [[]]
  | b :: rest =>
    if b = sep then [] :: pieces sep rest
    else match pieces sep rest with
      | [] => [[b]]
      | p :: ps => (b :: p) :: ps

/-- One setting: `.ok none` for an empty one, an error for one that is not valid. -/
def setting (piece : Str) : Except Unit (Option (Str × Str)) :=
  if 59 ∈ piece then .error ()
  else if piece.isEmpty then .ok none
  else match queryUnescape (cut 61 piece).1, queryUnescape (cut 61 piece).2 with
    | some k, some v => .ok (some (k, v))
    | _, _ => .error ()

/-- `url.ParseQuery`: the settings in order, and whether there was an error. -/
def parseQuery (query : Str) : List (Str × Str) × Bool :=
  let settings := (pieces 38 query).map setting
  (settings.filterMap fun s => s.toOption.join, settings.any fun s => s.toOption.isNone)

/-- `url.Values.Get`: the first value of a name, empty if there is none. -/
def getValue (values : List (Str × Str)) (name : Str) : Str :=
  match values.find? (·.1 = name) with
  | some v => v.2
  | none => []

theorem getValue_cons_self (name value : Str) (rest : List (Str × Str)) :
    getValue ((name, value) :: rest) name = value := by
  unfold getValue
  rw [List.find?_cons_of_pos (by simp)]

theorem getValue_cons_ne {name name' : Str} (h : name' ≠ name) (value : Str) (rest : List (Str × Str)) :
    getValue ((name', value) :: rest) name = getValue rest name := by
  unfold getValue
  rw [List.find?_cons_of_neg (by simp [h])]

/-! ### Plain values -/

/-- A byte that stands for itself in a query. -/
def IsPlain (b : UInt8) : Prop := b ≠ 37 ∧ b ≠ 38 ∧ b ≠ 43 ∧ b ≠ 59 ∧ b ≠ 61

instance (b : UInt8) : Decidable (IsPlain b) := inferInstanceAs (Decidable (_ ∧ _))

theorem IsLowerHex.isPlain {b : UInt8} (h : IsLowerHex b) : IsPlain b := by
  refine ⟨?_, ?_, ?_, ?_, ?_⟩ <;> rintro rfl <;> exact absurd h (by decide)

/-- The unreserved characters of a URI: letters, digits and `-._~`. -/
def IsUnreserved (b : UInt8) : Prop :=
  (97 ≤ b ∧ b ≤ 122) ∨ (65 ≤ b ∧ b ≤ 90) ∨ (48 ≤ b ∧ b ≤ 57) ∨ b = 45 ∨ b = 46 ∨ b = 95 ∨ b = 126

instance (b : UInt8) : Decidable (IsUnreserved b) := inferInstanceAs (Decidable (_ ∨ _))

theorem IsUnreserved.isPlain {b : UInt8} (h : IsUnreserved b) : IsPlain b := by
  refine ⟨?_, ?_, ?_, ?_, ?_⟩ <;> rintro rfl <;> exact absurd h (by decide)

theorem queryUnescape_plain {s : Str} (h : ∀ b ∈ s, IsPlain b) : queryUnescape s = some s := by
  induction s with
  | nil => rfl
  | cons b rest ih =>
    have hb := h b List.mem_cons_self
    have hrest := ih fun c hc => h c (List.mem_cons_of_mem b hc)
    unfold queryUnescape
    split
    · rename_i heq
      cases heq
    · rename_i heq
      exact absurd (List.cons.inj heq).1 hb.1
    · rename_i heq
      exact absurd (List.cons.inj heq).1 hb.1
    · rename_i heq
      exact absurd (List.cons.inj heq).1 hb.2.2.1
    · rename_i heq
      cases heq
      rw [hrest]
      rfl

theorem pieces_absent {sep : UInt8} {s : Str} (h : sep ∉ s) : pieces sep s = [s] := by
  induction s with
  | nil => rfl
  | cons b rest ih =>
    rw [List.mem_cons, not_or] at h
    unfold pieces
    rw [if_neg (Ne.symm h.1), ih h.2]

theorem pieces_ne_nil (sep : UInt8) (s : Str) : pieces sep s ≠ [] := by
  cases s with
  | nil => exact nofun
  | cons b rest =>
    unfold pieces
    split
    · exact nofun
    · split <;> exact nofun

/-- What stands before the first separator is the first part. -/
theorem pieces_append {sep : UInt8} {s : Str} (h : sep ∉ s) (t : Str) :
    pieces sep (s ++ sep :: t) = s :: pieces sep t := by
  induction s with
  | nil => simp [pieces]
  | cons b rest ih =>
    rw [List.mem_cons, not_or] at h
    rw [List.cons_append, pieces, if_neg (Ne.symm h.1), ih h.2]

/-- No byte is lost but the separators. -/
theorem exists_mem_pieces {sep b : UInt8} (hb : b ≠ sep) {s : Str} (h : b ∈ s) :
    ∃ p ∈ pieces sep s, b ∈ p := by
  induction s with
  | nil => cases h
  | cons c rest ih =>
    unfold pieces
    rcases List.mem_cons.mp h with rfl | h
    · rw [if_neg hb]
      cases pieces sep rest with
      | nil => exact ⟨[b], List.mem_cons_self, List.mem_cons_self⟩
      | cons p ps => exact ⟨b :: p, List.mem_cons_self, List.mem_cons_self⟩
    · obtain ⟨p, hp, hbp⟩ := ih h
      split
      · exact ⟨p, List.mem_cons_of_mem _ hp, hbp⟩
      · cases hps : pieces sep rest with
        | nil =>
          rw [hps] at hp
          cases hp
        | cons q qs =>
          rw [hps] at hp
          rcases List.mem_cons.mp hp with rfl | hp
          · exact ⟨c :: p, List.mem_cons_self, List.mem_cons_of_mem c hbp⟩
          · exact ⟨p, List.mem_cons_of_mem _ hp, hbp⟩

/-- A semicolon makes a query an error. -/
theorem parseQuery_semicolon {query : Str} (h : 59 ∈ query) : (parseQuery query).2 = true := by
  obtain ⟨p, hp, hsemi⟩ := exists_mem_pieces (show (59 : UInt8) ≠ 38 by decide) h
  apply List.any_eq_true.mpr
  refine ⟨setting p, List.mem_map_of_mem hp, ?_⟩
  unfold setting
  rw [if_pos hsemi]
  rfl

section
variable {name value : Str}

/-- No separator is part of a setting with a plain name and a plain value. -/
theorem setting_bytes (hn : ∀ b ∈ name, IsPlain b) (hv : ∀ b ∈ value, IsPlain b) :
    ∀ b ∈ name ++ 61 :: value, b ≠ 38 ∧ b ≠ 59 := by
  intro b hb
  rcases List.mem_append.mp hb with hb | hb
  · exact ⟨(hn b hb).2.1, (hn b hb).2.2.2.1⟩
  · rcases List.mem_cons.mp hb with rfl | hb
    · decide
    · exact ⟨(hv b hb).2.1, (hv b hb).2.2.2.1⟩

theorem setting_plain (hn : ∀ b ∈ name, IsPlain b) (hv : ∀ b ∈ value, IsPlain b) :
    setting (name ++ 61 :: value) = .ok (some (name, value)) := by
  have hcut : cut 61 (name ++ 61 :: value) = (name, value) :=
    cut_append (fun h => (hn _ h).2.2.2.2 rfl) value
  unfold setting
  rw [if_neg fun h => (setting_bytes hn hv _ h).2 rfl, if_neg (by simp), hcut]
  dsimp only
  rw [queryUnescape_plain hn, queryUnescape_plain hv]

/-- A query that is one setting with a plain name and a plain value. -/
theorem parseQuery_single (hn : ∀ b ∈ name, IsPlain b) (hv : ∀ b ∈ value, IsPlain b) :
    parseQuery (name ++ 61 :: value) = ([(name, value)], false) := by
  unfold parseQuery
  rw [pieces_absent fun h => (setting_bytes hn hv _ h).1 rfl]
  simp [setting_plain hn hv, Except.toOption]

/-- One that goes on behind it. -/
theorem parseQuery_append (hn : ∀ b ∈ name, IsPlain b) (hv : ∀ b ∈ value, IsPlain b) (query : Str) :
    parseQuery (name ++ 61 :: value ++ 38 :: query) =
      ((name, value) :: (parseQuery query).1, (parseQuery query).2) := by
  unfold parseQuery
  rw [pieces_append fun h => (setting_bytes hn hv _ h).1 rfl]
  simp [setting_plain hn hv, Except.toOption]

end

/-- The query of a URL: what stands behind the first question mark, without the fragment. -/
def rawQuery (url : Str) : Str := (cut 63 (cut 35 url).1).2

theorem cut_absent {sep : UInt8} {s : Str} (h : sep ∉ s) : cut sep s = (s, []) := by
  induction s with
  | nil => rfl
  | cons b rest ih =>
    rw [List.mem_cons, not_or] at h
    rw [cut, if_neg (Ne.symm h.1), ih h.2]

theorem cut_of_mem {sep : UInt8} {s : Str} (h : sep ∈ s) : s = (cut sep s).1 ++ sep :: (cut sep s).2 := by
  induction s with
  | nil => cases h
  | cons b rest ih =>
    by_cases hb : b = sep
    · subst hb
      simp [cut]
    · have hrest : sep ∈ rest := (List.mem_cons.mp h).resolve_left (Ne.symm hb)
      simp only [cut, if_neg hb, List.cons_append, List.cons.injEq, true_and]
      exact ih hrest

theorem rawQuery_append {path query : Str} (hpath : 63 ∉ path ∧ 35 ∉ path) (hquery : 35 ∉ query) :
    rawQuery (path ++ 63 :: query) = query := by
  have hfragment : (35 : UInt8) ∉ path ++ 63 :: query := by
    intro h
    rcases List.mem_append.mp h with h | h
    · exact hpath.2 h
    · rcases List.mem_cons.mp h with h | h
      · exact absurd h (by decide)
      · exact hquery h
  unfold rawQuery
  rw [cut_absent hfragment, cut_append hpath.1]

end LiveServer.Text
