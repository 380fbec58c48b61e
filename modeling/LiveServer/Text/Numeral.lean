import Mathlib.Algebra.Order.Field.Rat
import Mathlib.Tactic.NormNum.Basic
import LiveServer.Text.Lines

/-! Numerals: scanned by `fmt`, and what they denote. -/
namespace LiveServer.Text

def IsDigit (b : UInt8) : Prop := 48 ≤ b ∧ b ≤ 57

instance (b : UInt8) : Decidable (IsDigit b) := inferInstanceAs (Decidable (_ ∧ _))

/-- The result of an operation on `int`, which has 64 bits and wraps around. -/
def wrapInt64 (n : Int) : Int := n.bmod (2 ^ 64)

/-- `fmt.Sscanf` of a `%d`: blanks that are no newlines, a sign, and as many digits as
there are. What comes behind them is not looked at. -/
def sscanfInt (s : Str) : Option Int :=
  let rest := dropWords spaces 0 s
  if 10 ∈ s.take (s.length - rest.length) then none
  else
    let body : Str × Str := match rest with
      | 43 :: tail => ([43], tail)
      | 45 :: tail => ([45], tail)
      | _ => ([], rest)
    let digits := body.2.takeWhile fun b => decide (IsDigit b)
    if digits = [] then none else parseInt (body.1 ++ digits)

/-- The number that digits stand for. -/
def digitsValue (s : Str) : Nat := s.foldl (fun n b => n * 10 + (b.toNat - 48)) 0

/-- A decimal numeral: digits, and perhaps a fractional part. -/
structure Decimal where
  whole : Str
  fraction : Option Str
  whole_ne : whole ≠ []
  whole_digits : ∀ b ∈ whole, IsDigit b
  fraction_digits : ∀ b ∈ fraction.getD [], IsDigit b

namespace Decimal

/-- What comes behind the whole part. -/
def tail (d : Decimal) : Str :=
  match d.fraction with
  | none => []
  | some f => 46 :: f

def text (d : Decimal) : Str := d.whole ++ d.tail

/-- The whole part as a number. -/
def floor (d : Decimal) : Nat := digitsValue d.whole

/-- The digits of the fractional part as a number. -/
def decimals (d : Decimal) : Nat := digitsValue (d.fraction.getD [])

def value (d : Decimal) : Rat := d.floor + d.decimals / 10 ^ (d.fraction.getD []).length

end Decimal

theorem isInt64_natCast {n : Nat} : IsInt64 n ↔ n < 2 ^ 63 := by
  unfold IsInt64 maxInt64
  omega

theorem wrapInt64_of_lt {n : Int} (h0 : 0 ≤ n) (h : n < 2 ^ 63) : wrapInt64 n = n :=
  Int.bmod_eq_of_le (by omega) (by omega)

/-- The upper half of what 64 bits can hold reads as negative. -/
theorem wrapInt64_neg {n : Int} (h : 2 ^ 63 ≤ n) (h' : n < 2 ^ 64) : wrapInt64 n < 0 := by
  unfold wrapInt64
  rw [Int.bmod_def]
  omega

/-! ### Digits -/

theorem parseDigits_digits {s : Str} (h : ∀ b ∈ s, IsDigit b) : parseDigits s 0 = some (digitsValue s) := by
  have hacc (acc : Nat) : parseDigits s acc = some (s.foldl (fun n b => n * 10 + (b.toNat - 48)) acc) := by
    induction s generalizing acc with
    | nil => rfl
    | cons b rest ih =>
      have hb : 48 ≤ b ∧ b ≤ 57 := h b List.mem_cons_self
      rw [parseDigits, if_pos hb, ih fun c hc => h c (List.mem_cons_of_mem b hc)]
      rfl
  exact hacc 0

/-- Only digits are read. -/
theorem digits_of_parseDigits {s : Str} {acc n : Nat} (h : parseDigits s acc = some n) :
    ∀ b ∈ s, IsDigit b := by
  induction s generalizing acc with
  | nil => exact fun _ hb => absurd hb List.not_mem_nil
  | cons c rest ih =>
    unfold parseDigits at h
    split at h
    · rename_i hc
      intro b hb
      rcases List.mem_cons.mp hb with rfl | hb
      · exact hc
      · exact ih h b hb
    · cases h

theorem parseDigits_formatInt (n : Nat) : parseDigits (formatInt n) 0 = some n :=
  parseDigits_toDigits n

/-- A negative number is printed with its sign. -/
theorem formatInt_neg {n : Int} (hn : n < 0) : ∃ s, formatInt n = 45 :: s := by
  unfold formatInt
  rw [if_pos hn]
  exact ⟨_, rfl⟩

theorem digitsValue_formatInt (n : Nat) : digitsValue (formatInt n) = n := by
  have hdigits := digits_of_parseDigits (parseDigits_formatInt n)
  exact Option.some.inj ((parseDigits_digits hdigits).symm.trans (parseDigits_formatInt n))

/-! ### Numerals -/

namespace Decimal

/-- A number as it is printed. -/
def ofNat (n : Nat) : Decimal where
  whole := formatInt n
  fraction := none
  whole_ne := by
    intro hnil
    exact Nat.toDigits_ne_nil (List.map_eq_nil_iff.mp hnil)
  whole_digits := digits_of_parseDigits (parseDigits_formatInt n)
  fraction_digits := by simp

variable (d : Decimal)

/-- A numeral has digits and a point, nothing else. -/
theorem not_mem_text {c : UInt8} (hc : ¬ IsDigit c) (hdot : c ≠ 46) : c ∉ d.text := by
  unfold text tail
  intro hmem
  rcases List.mem_append.mp hmem with hmem | hmem
  · exact hc (d.whole_digits c hmem)
  · have hdigits := d.fraction_digits
    cases hfraction : d.fraction with
    | none =>
      rw [hfraction] at hmem
      cases hmem
    | some f =>
      rw [hfraction] at hmem hdigits
      rcases List.mem_cons.mp hmem with h | h
      · exact hdot h
      · exact hc (hdigits c h)

theorem dot_not_mem_whole : 46 ∉ d.whole := by
  intro h
  exact absurd (d.whole_digits 46 h) (by decide)

theorem cut_text : cut 46 d.text = (d.whole, d.fraction.getD []) := by
  unfold text tail
  cases d.fraction with
  | none =>
    rw [List.append_nil]
    exact cut_absent d.dot_not_mem_whole
  | some f => exact cut_append d.dot_not_mem_whole f

/-- The text of a numeral decides its value, and its whole part. -/
theorem value_of_text {d d' : Decimal} (h : d.text = d'.text) : d.value = d'.value ∧ d.floor = d'.floor := by
  have hcut := d.cut_text
  rw [h, d'.cut_text] at hcut
  obtain ⟨hwhole, hfraction⟩ := Prod.mk.inj hcut
  unfold value floor decimals
  rw [hwhole, hfraction]
  exact ⟨rfl, rfl⟩

theorem floor_ofNat (n : Nat) : (ofNat n).floor = n := digitsValue_formatInt n

theorem value_eq_floor : d.value = d.floor ↔ d.decimals = 0 := by
  have hpow : (10 : Rat) ^ (d.fraction.getD []).length ≠ 0 := pow_ne_zero _ (by norm_num)
  rw [value, add_eq_left, div_eq_zero_iff, Nat.cast_eq_zero]
  exact or_iff_left hpow

theorem value_ofNat (n : Nat) : (ofNat n).value = n := by
  rw [(ofNat n).value_eq_floor.mpr rfl, floor_ofNat]

/-- A numeral begins with a digit, which is neither a blank nor a sign. -/
theorem text_head : ∃ b s, d.text = b :: s ∧ IsDigit b := by
  obtain ⟨b, s, hs⟩ := List.exists_cons_of_ne_nil d.whole_ne
  exact ⟨b, s ++ d.tail, by rw [text, hs]; rfl, d.whole_digits b (hs ▸ List.mem_cons_self)⟩

theorem takeWhile_text : d.text.takeWhile (fun b => decide (IsDigit b)) = d.whole := by
  unfold text tail
  rw [List.takeWhile_append_of_pos (by simpa using d.whole_digits)]
  cases d.fraction with
  | none => simp
  | some f => simp [(by decide : ¬ IsDigit 46)]

theorem dropWords_text : dropWords spaces 0 d.text = d.text := by
  apply dropWords_none
  intro u hu hprefix
  have hblank : spaces.all (fun u => u.head?.any fun c => !decide (IsDigit c)) = true := by decide
  obtain ⟨b, s, hs, hb⟩ := d.text_head
  cases u with
  | nil => exact absurd (List.all_eq_true.mp hblank [] hu) (by decide)
  | cons c u =>
    rw [hs] at hprefix
    have hc := List.all_eq_true.mp hblank (c :: u) hu
    rw [(List.cons_prefix_cons.mp hprefix).1] at hc
    simp [hb] at hc

/-- What `Sscanf` reads of a numeral is its whole part. -/
theorem sscanfInt_text : sscanfInt d.text = if IsInt64 d.floor then some (d.floor : Int) else none := by
  obtain ⟨b, s, hs, hb⟩ := d.text_head
  unfold sscanfInt
  extract_lets rest body digits
  have hrest : rest = d.text := d.dropWords_text
  have hbody : body = ([], d.text) := by
    unfold body
    rw [hrest, hs]
    split
    · rename_i heq
      rw [(List.cons.inj heq).1] at hb
      exact absurd hb (by decide)
    · rename_i heq
      rw [(List.cons.inj heq).1] at hb
      exact absurd hb (by decide)
    · rfl
  have hdigits : digits = d.whole := by
    unfold digits
    rw [hbody]
    exact d.takeWhile_text
  rw [if_neg (by simp [hrest]), hdigits, if_neg d.whole_ne, hbody]
  exact parseInt_digits d.whole_ne (parseDigits_digits d.whole_digits)

end Decimal

end LiveServer.Text
