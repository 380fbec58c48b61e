import LiveServer.Text.Bytes

/-! Searching, joining and replacing, as `strings` does. Sets of bytes are ASCII here, so
that a character of one is one byte. -/
namespace LiveServer.Text

/-- `strings.IndexAny`: where a byte of `chars` first occurs. -/
def indexAny (s chars : Str) : Option Nat := s.findIdx? (· ∈ chars)

/-- `strings.ContainsAny`. -/
def containsAny (s chars : Str) : Bool := s.any (· ∈ chars)

/-- `strings.ReplaceAll` of a single byte. -/
def replaceAll (s : Str) (old : UInt8) (new : Str) : Str := s.flatMap fun b => if b = old then new else [b]

/-- `strings.Join`. -/
def join (sep : Str) : List Str → Str
  | [] => []
  | [s] => s
  | s :: t :: rest => s ++ sep ++ join sep (t :: rest)

theorem containsAny_eq_false {s chars : Str} : containsAny s chars = false ↔ ∀ b ∈ s, b ∉ chars := by
  simp [containsAny]

/-! ### Suffixes -/

theorem trimSuffix_append (s p : Str) : trimSuffix (s ++ p) p = s := by
  unfold trimSuffix
  rw [if_pos (List.isSuffixOf_iff_suffix.mpr (List.suffix_append s p)), List.length_append,
    Nat.add_sub_cancel, List.take_left]

theorem trimSuffix_absent {s : Str} {c : UInt8} (h : c ∉ s) : trimSuffix s [c] = s := by
  apply if_neg
  intro hsuffix
  exact h ((List.isSuffixOf_iff_suffix.mp hsuffix).mem (List.mem_singleton_self c))

/-! ### The first occurrence of a word -/

section
variable {s sub : Str} {i : Nat}

theorem index_some (h : index s sub = some i) :
    ∃ x y, s = x ++ sub ++ y ∧ x.length = i ∧ ∀ x' y', s = x' ++ sub ++ y' → i ≤ x'.length := by
  induction s generalizing i with
  | nil =>
    unfold index at h
    split at h
    · rename_i he
      cases h
      exact ⟨[], [], by simpa using List.isEmpty_iff.mp he, rfl, fun _ _ _ => Nat.zero_le _⟩
    · cases h
  | cons b rest ih =>
    unfold index at h
    split at h
    · rename_i hp
      cases h
      obtain ⟨y, hy⟩ := List.isPrefixOf_iff_prefix.mp hp
      exact ⟨[], y, by simp [hy], rfl, fun _ _ _ => Nat.zero_le _⟩
    · rename_i hp
      obtain ⟨j, hj, rfl⟩ := Option.map_eq_some_iff.mp h
      obtain ⟨x, y, hrest, hlen, hfirst⟩ := ih hj
      refine ⟨b :: x, y, by simp [hrest], by simp [hlen], ?_⟩
      intro x' y' hs
      cases x' with
      | nil => exact absurd (List.isPrefixOf_iff_prefix.mpr ⟨y', hs.symm⟩) hp
      | cons c x' => exact Nat.succ_le_succ (hfirst x' y' (List.cons.inj hs).2)

theorem index_none (h : index s sub = none) (x y : Str) : s ≠ x ++ sub ++ y := by
  induction s generalizing x with
  | nil =>
    intro hs
    obtain ⟨hx, _⟩ := List.append_eq_nil_iff.mp hs.symm
    obtain ⟨_, rfl⟩ := List.append_eq_nil_iff.mp hx
    cases h
  | cons b rest ih =>
    intro hs
    unfold index at h
    split at h
    · cases h
    · rename_i hp
      cases x with
      | nil => exact hp (List.isPrefixOf_iff_prefix.mpr ⟨y, hs.symm⟩)
      | cons c x => exact ih (Option.map_eq_none_iff.mp h) x (List.cons.inj hs).2

/-- Where a word occurs, with no earlier occurrence. -/
theorem index_of_first {x y : Str} (hs : s = x ++ sub ++ y)
    (hfirst : ∀ x' y', s = x' ++ sub ++ y' → x.length ≤ x'.length) : index s sub = some x.length := by
  cases h : index s sub with
  | none => exact absurd hs (index_none h x y)
  | some i =>
    obtain ⟨x', y', hs', rfl, hfirst'⟩ := index_some h
    rw [Nat.le_antisymm (hfirst' x y hs) (hfirst x' y' hs')]

/-- Behind a byte that the word does not have, a word begins or ends before it. -/
theorem occurrence_split {p x y t : Str} {c : UInt8} (hc : c ∉ sub) (h : p ++ c :: t = x ++ sub ++ y) :
    (∃ z, p = x ++ sub ++ z) ∨ p.length < x.length := by
  by_cases hlen : (x ++ sub).length ≤ p.length
  · obtain ⟨z, hz⟩ := List.prefix_of_prefix_length_le (List.prefix_append (x ++ sub) y)
      (h ▸ List.prefix_append p (c :: t)) hlen
    exact .inl ⟨z, hz.symm⟩
  · right
    by_contra hx
    apply hc
    -- `c` is the byte at `p.length`, which falls within the word
    rw [List.length_append] at hlen
    have hget : (x ++ sub ++ y)[p.length]? = some c := by
      rw [← h, List.getElem?_append_right (Nat.le_refl _), Nat.sub_self]
      rfl
    rw [List.append_assoc, List.getElem?_append_right (by omega),
      List.getElem?_append_left (by omega)] at hget
    exact List.mem_of_getElem? hget

end

/-! ### The first byte of a set -/

theorem indexAny_append {s chars : Str} (h : ∀ b ∈ s, b ∉ chars) (t : Str) :
    indexAny (s ++ t) chars = (indexAny t chars).map (· + s.length) := by
  unfold indexAny
  have hs : s.findIdx? (· ∈ chars) = none := by simpa using h
  rw [List.findIdx?_append, hs]
  rfl

/-- What stands from that byte on. -/
theorem drop_indexAny (s chars : Str) :
    s.dropWhile (· ∉ chars) = match indexAny s chars with
      | none => []
      | some n => s.drop n := by
  unfold indexAny
  induction s with
  | nil => rfl
  | cons b rest ih =>
    by_cases hb : b ∈ chars
    · simp [List.findIdx?_cons, hb]
    · simp only [List.findIdx?_cons, hb, decide_false, List.dropWhile_cons, not_false_eq_true,
        decide_true, if_true, Bool.false_eq_true, if_false, ih]
      cases rest.findIdx? (· ∈ chars) with
      | none => rfl
      | some n => rfl

end LiveServer.Text
