import Mathlib.Data.List.Pairwise

/-! Tables with uniqueness constraints.

A table is a list of rows no two of which clash, each within the types of its
columns: `Apart` is what the unique indexes ask of any two rows, `Good` what the
columns ask of each. The operations are the statements a program sends:
an `INSERT` that is refused on a clash, an `UPDATE … WHERE` of columns no index
covers, a `DELETE … WHERE`, and the `SELECT`s. A condition that holds of at most
one row (`Identifies`) picks out *the* row, and the lemmas on `find` say what each
statement does to it. -/
namespace LiveServer.Relational

structure Table (Row : Type) (Apart : Row → Row → Prop) (Good : Row → Prop) where
  rows : List Row
  apart : rows.Pairwise Apart
  good : ∀ r ∈ rows, Good r

namespace Table
variable {Row : Type} {Apart : Row → Row → Prop} {Good : Row → Prop}

def empty : Table Row Apart Good := ⟨[], .nil, fun _ h => absurd h List.not_mem_nil⟩

/-- A condition no two rows of a table satisfy. -/
def Identifies (Apart : Row → Row → Prop) (p : Row → Bool) : Prop :=
  ∀ a b, Apart a b → p a = true → p b = true → False

/-- A change of columns that no unique index covers, to values they can hold. -/
structure Harmless (Apart : Row → Row → Prop) (Good : Row → Prop) (f : Row → Row) : Prop where
  apart : ∀ a b, Apart a b → Apart (f a) b ∧ Apart a (f b)
  good : ∀ a, Good a → Good (f a)

def find (t : Table Row Apart Good) (p : Row → Bool) : Option Row := t.rows.find? p

def select (t : Table Row Apart Good) (p : Row → Bool) : List Row := t.rows.filter p

/-- `none` when a value does not fit its column or the new row clashes with one
that is there. -/
def insert [DecidableRel Apart] [DecidablePred Good] (t : Table Row Apart Good) (r : Row) :
    Option (Table Row Apart Good) :=
  if h : (∀ x ∈ t.rows, Apart x r) ∧ Good r then
    some
      { rows := t.rows ++ [r]
        apart := List.pairwise_append.mpr ⟨t.apart, List.pairwise_singleton _ _,
          fun x hx _ hy => List.mem_singleton.mp hy ▸ h.1 x hx⟩
        good := fun x hx => (List.mem_append.mp hx).elim (t.good x)
          fun hx => List.mem_singleton.mp hx ▸ h.2 }
  else none

def update (t : Table Row Apart Good) (p : Row → Bool) (f : Row → Row) (hf : Harmless Apart Good f) :
    Table Row Apart Good where
  rows := t.rows.map fun r => if p r then f r else r
  apart := by
    refine List.Pairwise.map _ (fun a b hab => ?_) t.apart
    split <;> split
    · exact (hf.apart _ _ (hf.apart a b hab).1).2
    · exact (hf.apart a b hab).1
    · exact (hf.apart a b hab).2
    · exact hab
  good := by
    intro x hx
    obtain ⟨r, hr, rfl⟩ := List.mem_map.mp hx
    split
    · exact hf.good r (t.good r hr)
    · exact t.good r hr

def delete (t : Table Row Apart Good) (p : Row → Bool) : Table Row Apart Good where
  rows := t.rows.filter fun r => !p r
  apart := t.apart.filter _
  good := fun r hr => t.good r ((List.mem_filter.mp hr).1)

/-! ### Membership -/

theorem mem_insert [DecidableRel Apart] [DecidablePred Good] {t t' : Table Row Apart Good} {r x : Row}
    (h : t.insert r = some t') : x ∈ t'.rows ↔ x ∈ t.rows ∨ x = r := by
  unfold insert at h
  split at h
  · cases h
    simp
  · cases h

theorem insert_apart [DecidableRel Apart] [DecidablePred Good] {t t' : Table Row Apart Good} {r : Row}
    (h : t.insert r = some t') : ∀ x ∈ t.rows, Apart x r := by
  unfold insert at h
  split at h
  · rename_i hr
    exact hr.1
  · cases h

theorem mem_update {t : Table Row Apart Good} {p : Row → Bool} {f : Row → Row}
    {hf : Harmless Apart Good f} {x : Row} :
    x ∈ (t.update p f hf).rows ↔ ∃ r ∈ t.rows, (if p r then f r else r) = x := by
  simp [update]

/-- Columns that an update leaves alone. -/
theorem map_update {β : Type} {t : Table Row Apart Good} {p : Row → Bool} {f : Row → Row}
    (hf : Harmless Apart Good f) {view : Row → β} (h : ∀ r, view (f r) = view r) :
    (t.update p f hf).rows.map view = t.rows.map view := by
  show (t.rows.map _).map view = _
  rw [List.map_map]
  apply List.map_congr_left
  intro r _
  show view (if p r then f r else r) = view r
  split
  · exact h r
  · rfl

theorem mem_delete {t : Table Row Apart Good} {p : Row → Bool} {x : Row} :
    x ∈ (t.delete p).rows ↔ x ∈ t.rows ∧ p x = false := by
  simp [delete]

/-! ### The row a condition identifies -/

theorem mem_of_find {t : Table Row Apart Good} {p : Row → Bool} {r : Row} (h : t.find p = some r) :
    r ∈ t.rows ∧ p r = true :=
  ⟨List.mem_of_find?_eq_some h, List.find?_some h⟩

/-- At most one row satisfies an identifying condition. -/
theorem Identifies.unique [Std.Symm Apart] {t : Table Row Apart Good} {p : Row → Bool}
    (hp : Identifies Apart p) {a b : Row} (ha : a ∈ t.rows) (hb : b ∈ t.rows) (hpa : p a = true)
    (hpb : p b = true) : a = b := by
  by_contra hne
  exact hp a b (t.apart.forall ha hb hne) hpa hpb

theorem find_eq_some [Std.Symm Apart] {t : Table Row Apart Good} {p : Row → Bool}
    (hp : Identifies Apart p) {r : Row} : t.find p = some r ↔ r ∈ t.rows ∧ p r = true := by
  constructor
  · exact mem_of_find
  · rintro ⟨hr, hpr⟩
    cases hf : t.find p with
    | none => exact absurd hpr (List.find?_eq_none.mp hf r hr)
    | some x =>
      obtain ⟨hx, hpx⟩ := mem_of_find hf
      rw [hp.unique hx hr hpx hpr]

theorem find_eq_none {t : Table Row Apart Good} {p : Row → Bool} :
    t.find p = none ↔ ∀ r ∈ t.rows, p r = false := by
  simp [find]

theorem find_insert [DecidableRel Apart] [DecidablePred Good] {t t' : Table Row Apart Good} {r : Row} {p : Row → Bool}
    (h : t.insert r = some t') : t'.find p = (t.find p).or (if p r then some r else none) := by
  unfold insert at h
  split at h
  · cases h
    simp only [find, List.find?_append, List.find?_cons, List.find?_nil]
    cases p r <;> rfl
  · cases h

/-- A condition on columns an update leaves alone finds the same row, updated. -/
theorem find_update {t : Table Row Apart Good} {p q : Row → Bool} {f : Row → Row}
    {hf : Harmless Apart Good f} (hq : ∀ r, q (f r) = q r) :
    (t.update p f hf).find q = (t.find q).map fun r => if p r then f r else r := by
  simp only [find, update, List.find?_map]
  congr 2
  funext r
  simp only [Function.comp_apply]
  split
  · exact hq r
  · rfl

/-- An update of the row with a key leaves every other row alone. -/
theorem find_update_key {K : Type} [DecidableEq K] {t : Table Row Apart Good} {key : Row → K}
    {f : Row → Row} (hf : Harmless Apart Good f) (hkey : ∀ r, key (f r) = key r) (u v : K) :
    (t.update (fun r => decide (key r = u)) f hf).find (fun r => decide (key r = v)) =
      if v = u then (t.find fun r => decide (key r = u)).map f
      else t.find fun r => decide (key r = v) := by
  have hq : ∀ r, decide (key (f r) = v) = decide (key r = v) := fun r => by rw [hkey]
  rw [find_update hq]
  cases hr : t.find fun r => decide (key r = v) with
  | none =>
    by_cases hv : v = u
    · subst hv
      simp [hr]
    · simp [hv]
  | some r =>
    have hrv : key r = v := by simpa using (mem_of_find hr).2
    by_cases hv : v = u
    · subst hv
      simp [hr, hrv]
    · simp [hv, hrv]

theorem find_delete [Std.Symm Apart] {t : Table Row Apart Good} {p q : Row → Bool}
    (hq : Identifies Apart q) : (t.delete p).find q = (t.find q).filter fun r => !p r := by
  cases hf : t.find q with
  | none =>
    refine find_eq_none.mpr fun r hr => ?_
    exact find_eq_none.mp hf r (mem_delete.mp hr).1
  | some x =>
    obtain ⟨hx, hqx⟩ := mem_of_find hf
    cases hpx : p x with
    | false =>
      simp only [Option.filter_some, hpx, Bool.not_false, if_true]
      exact (find_eq_some hq).mpr ⟨mem_delete.mpr ⟨hx, hpx⟩, hqx⟩
    | true =>
      simp only [Option.filter_some, hpx, Bool.not_true, Bool.false_eq_true, if_false]
      refine find_eq_none.mpr fun r hr => ?_
      obtain ⟨hr, hpr⟩ := mem_delete.mp hr
      by_contra hqr
      rw [hq.unique hx hr hqx (by simpa using hqr), hpr] at hpx
      cases hpx

end Table
end LiveServer.Relational
