import Mathlib.Algebra.GroupWithZero.Nat
import Mathlib.Data.List.Dedup
import Mathlib.Logic.Function.Iterate

/-! Loops over the keys of a map.

A map is visited in an order nobody promises: `MapOrder` is any such order. What
comes out of a loop does not depend on it when the body changes only what belongs to
the key it is at: seen from one key, the body runs there and nowhere else. -/
namespace LiveServer.Loops
variable {κ σ β : Type}

/-- An order in which the keys of a map are visited: any rearrangement of them. -/
structure MapOrder (κ : Type) where
  visit : List κ → List κ
  perm : ∀ keys, (visit keys).Perm keys

namespace MapOrder

/-- The order the keys were found in. -/
def asFound : MapOrder κ := ⟨id, fun _ => .refl _⟩

@[simp] theorem mem_visit (order : MapOrder κ) {keys : List κ} {k : κ} :
    k ∈ order.visit keys ↔ k ∈ keys :=
  (order.perm keys).mem_iff

theorem nodup_visit (order : MapOrder κ) {keys : List κ} (h : keys.Nodup) :
    (order.visit keys).Nodup :=
  (order.perm keys).nodup_iff.mpr h

end MapOrder

section
variable [DecidableEq κ] (view : κ → σ → β) (body : σ → κ → σ) (f : κ → β → β)

/-- A loop, seen from one key: the body has run as often as the key is visited. -/
theorem foldl_view (own : ∀ s k, view k (body s k) = f k (view k s))
    (other : ∀ s k k', k' ≠ k → view k' (body s k) = view k' s) (keys : List κ) (s : σ) (k : κ) :
    view k (keys.foldl body s) = (f k)^[keys.count k] (view k s) := by
  induction keys generalizing s with
  | nil => rfl
  | cons key rest ih =>
    rw [List.foldl_cons, ih]
    by_cases hk : key = k
    · subst hk
      rw [own, List.count_cons_self, Function.iterate_succ_apply]
    · rw [other s key k (Ne.symm hk), List.count_cons_of_ne hk]

/-- The keys of a map are visited once. -/
theorem foldl_view_of_nodup (own : ∀ s k, view k (body s k) = f k (view k s))
    (other : ∀ s k k', k' ≠ k → view k' (body s k) = view k' s) {keys : List κ}
    (hkeys : keys.Nodup) (s : σ) (k : κ) [Decidable (k ∈ keys)] :
    view k (keys.foldl body s) = if k ∈ keys then f k (view k s) else view k s := by
  rw [foldl_view view body f own other]
  by_cases hk : k ∈ keys
  · rw [List.count_eq_one_of_mem hkeys hk, if_pos hk, Function.iterate_one]
  · rw [List.count_eq_zero_of_not_mem hk, if_neg hk, Function.iterate_zero_apply]

/-- A body that does nothing the second time may be run as often as one likes. -/
theorem foldl_view_of_idempotent (own : ∀ s k, view k (body s k) = f k (view k s))
    (other : ∀ s k k', k' ≠ k → view k' (body s k) = view k' s)
    (idem : ∀ k x, f k (f k x) = f k x) (keys : List κ) (s : σ) (k : κ) [Decidable (k ∈ keys)] :
    view k (keys.foldl body s) = if k ∈ keys then f k (view k s) else view k s := by
  have hiter : ∀ n, (f k)^[n + 1] (view k s) = f k (view k s) := by
    intro n
    induction n with
    | zero => rfl
    | succ n ih => rw [Function.iterate_succ_apply', ih, idem]
  rw [foldl_view view body f own other]
  by_cases hk : k ∈ keys
  · obtain ⟨n, hn⟩ := Nat.exists_eq_succ_of_ne_zero
      (Nat.pos_iff_ne_zero.mp (List.count_pos_iff.mpr hk))
    rw [hn, hiter, if_pos hk]
  · rw [List.count_eq_zero_of_not_mem hk, if_neg hk, Function.iterate_zero_apply]

end

/-! ### Counting in a map -/

/-- A map of counters. A key is in it once it has been counted. -/
structure Counter (κ : Type) where
  keys : List κ
  value : κ → Nat
  nodup : keys.Nodup
  mem : ∀ k, k ∈ keys ↔ 0 < value k

namespace Counter

def empty : Counter κ := ⟨[], fun _ => 0, List.nodup_nil, fun k => by simp⟩

variable [DecidableEq κ]

/-- `m[k]++`. -/
def inc (m : Counter κ) (k : κ) : Counter κ where
  keys := if k ∈ m.keys then m.keys else k :: m.keys
  value := Function.update m.value k (m.value k + 1)
  nodup := by
    split
    · exact m.nodup
    · exact List.nodup_cons.mpr ⟨‹_›, m.nodup⟩
  mem k' := by
    by_cases hk : k' = k
    · subst hk
      simp only [Function.update_self, Nat.succ_pos, iff_true]
      split
      · assumption
      · exact List.mem_cons_self
    · rw [Function.update_of_ne hk, ← m.mem k']
      split
      · rfl
      · simp [hk]

/-- Counting the elements of a list that are of interest, each at its key. -/
theorem value_foldl_inc (p : σ → Bool) (key : σ → κ) (l : List σ) (m : Counter κ) (k : κ) :
    (l.foldl (fun m a => if p a then m.inc (key a) else m) m).value k =
      m.value k + l.countP fun a => p a && key a = k := by
  induction l generalizing m with
  | nil => rfl
  | cons a rest ih =>
    rw [List.foldl_cons, ih, List.countP_cons]
    by_cases hp : p a = true
    · by_cases hk : key a = k
      · subst hk
        simp only [hp, if_true, inc, Function.update_self, Bool.true_and, decide_true]
        omega
      · simp [hp, inc, Function.update_of_ne (Ne.symm hk), hk]
    · simp [hp]

/-- What has been counted, over all keys. -/
def total (m : Counter κ) : Nat := (m.keys.map m.value).sum

/-- Beside the key that is counted nothing changes. -/
theorem map_value_inc (m : Counter κ) {k : κ} {keys : List κ} (hk : k ∉ keys) :
    keys.map (m.inc k).value = keys.map m.value := by
  apply List.map_congr_left
  intro k' hk'
  have hne : k' ≠ k := fun h => hk (h ▸ hk')
  show Function.update m.value k (m.value k + 1) k' = m.value k'
  exact Function.update_of_ne hne _ _

theorem total_inc (m : Counter κ) (k : κ) : (m.inc k).total = m.total + 1 := by
  have hown : (m.inc k).value k = m.value k + 1 := Function.update_self ..
  by_cases hk : k ∈ m.keys
  · have hkeys : (m.inc k).keys = m.keys := if_pos hk
    -- the key stands in one place, and both sums are taken there first
    have hperm := List.perm_cons_erase hk
    have hsum (f : κ → Nat) : (m.keys.map f).sum = f k + ((m.keys.erase k).map f).sum :=
      (hperm.map f).sum_nat
    have herase : k ∉ m.keys.erase k := m.nodup.not_mem_erase
    unfold total
    rw [hkeys, hsum, hsum, hown, map_value_inc m herase]
    omega
  · have hkeys : (m.inc k).keys = k :: m.keys := if_neg hk
    have hzero : m.value k = 0 := Nat.eq_zero_of_not_pos fun h => hk ((m.mem k).mpr h)
    unfold total
    rw [hkeys, List.map_cons, List.sum_cons, hown, map_value_inc m hk]
    omega

/-- Each element of interest is counted once. -/
theorem total_foldl_inc (p : σ → Bool) (key : σ → κ) (l : List σ) (m : Counter κ) :
    (l.foldl (fun m a => if p a then m.inc (key a) else m) m).total = m.total + l.countP p := by
  induction l generalizing m with
  | nil => rfl
  | cons a rest ih =>
    rw [List.foldl_cons, ih, List.countP_cons]
    by_cases hp : p a = true
    · rw [if_pos hp, if_pos hp, total_inc]
      omega
    · rw [if_neg hp, if_neg hp]
      rfl

end Counter
end LiveServer.Loops
