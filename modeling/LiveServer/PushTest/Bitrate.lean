import Mathlib.Data.Bool.AllAny
import LiveServer.PushTest

/-! The size of ffmpeg's rate buffer.

`bitrateBufSize` reads the whole part of the bitrate as an `int` and doubles that. A bitrate
whose whole part is zero or does not fit an `int` is given back as it is; of any other the
double is right if there is nothing behind the point and it does not leave the range of
`int`. -/
namespace LiveServer.PushTest
open Text

/-- A bitrate in kbit/s: a numeral and `k` or `K`. -/
structure Rate where
  numeral : Decimal
  unit : UInt8
  unit_eq : unit = 107 ∨ unit = 75

namespace Rate

def text (r : Rate) : Str := r.numeral.text ++ [r.unit]

def kbps (r : Rate) : Rat := r.numeral.value

/-- A whole number of kbit/s, as the tool prints it. -/
def ofNat (n : Nat) : Rate := ⟨.ofNat n, 107, .inl rfl⟩

theorem text_ofNat (n : Nat) : (ofNat n).text = formatInt n ++ lit "k" := by
  show formatInt n ++ [] ++ [107] = _
  rw [List.append_nil]
  rfl

/-- The text of a bitrate decides its numeral. -/
theorem numeral_of_text {r r' : Rate} (h : r.text = r'.text) : r.numeral.text = r'.numeral.text :=
  (List.append_inj' h rfl).1

variable (r : Rate)

/-- A bitrate begins with a digit. -/
theorem text_ne_cons {c : UInt8} (hc : ¬ IsDigit c) (s : Str) : r.text ≠ c :: s := by
  intro h
  obtain ⟨b, t, ht, hb⟩ := r.numeral.text_head
  rw [text, ht] at h
  rw [(List.cons.inj h).1] at hb
  exact hc hb

/-! ### What the tool makes of it -/

theorem trimSuffix_text : trimSuffix (trimSuffix r.text (lit "k")) (lit "K") = r.numeral.text := by
  have hlower : (107 : UInt8) ∉ r.numeral.text := r.numeral.not_mem_text (by decide) (by decide)
  have hupper : (75 : UInt8) ∉ r.numeral.text := r.numeral.not_mem_text (by decide) (by decide)
  unfold text
  rcases r.unit_eq with h | h
  · rw [h]
    show trimSuffix (trimSuffix (r.numeral.text ++ [107]) [107]) [75] = _
    rw [trimSuffix_append, trimSuffix_absent hupper]
  · rw [h]
    show trimSuffix (trimSuffix (r.numeral.text ++ [75]) [107]) [75] = _
    have habsent : (107 : UInt8) ∉ r.numeral.text ++ [75] := by simpa using hlower
    rw [trimSuffix_absent habsent, trimSuffix_append]

/-- The whole part is doubled if there is one that fits. -/
theorem bitrateBufSize_text : bitrateBufSize r.text =
    if IsInt64 r.numeral.floor ∧ 0 < r.numeral.floor then
      formatInt (wrapInt64 (r.numeral.floor * 2)) ++ lit "k"
    else r.text := by
  have hunit : ((lit "k").isSuffixOf r.text || (lit "K").isSuffixOf r.text) = true := by
    rw [Bool.or_eq_true, List.isSuffixOf_iff_suffix, List.isSuffixOf_iff_suffix]
    rcases r.unit_eq with h | h
    · exact .inl ⟨r.numeral.text, by rw [text, h]; rfl⟩
    · exact .inr ⟨r.numeral.text, by rw [text, h]; rfl⟩
  unfold bitrateBufSize
  rw [if_pos hunit, r.trimSuffix_text, r.numeral.sscanfInt_text]
  by_cases hfits : IsInt64 r.numeral.floor
  · simp [hfits]
  · simp [hfits]

/-- The double of a whole part that leaves room for it. -/
theorem bitrateBufSize_of_lt (hpos : 0 < r.numeral.floor) (hroom : r.numeral.floor < 2 ^ 62) :
    bitrateBufSize r.text = (ofNat (2 * r.numeral.floor)).text := by
  have hfits : IsInt64 r.numeral.floor := isInt64_natCast.mpr (by omega)
  rw [r.bitrateBufSize_text, if_pos ⟨hfits, hpos⟩, wrapInt64_of_lt (by omega) (by omega), text_ofNat,
    Int.mul_comm]
  rfl

theorem kbps_ofNat (n : Nat) : (ofNat n).kbps = n := Decimal.value_ofNat n

/-- That double is never the bitrate itself, and is its double if nothing was cut off. -/
theorem doubled_iff (hpos : 0 < r.numeral.floor) :
    ((ofNat (2 * r.numeral.floor)).text = r.text ∨
        ∃ r' : Rate, (ofNat (2 * r.numeral.floor)).text = r'.text ∧ r'.kbps = 2 * r.kbps) ↔
      r.numeral.decimals = 0 := by
  rw [← r.numeral.value_eq_floor]
  constructor
  · intro h
    rcases h with h | ⟨r', h, hdouble⟩
    · have hfloor := (Decimal.value_of_text (numeral_of_text h)).2
      rw [ofNat, Decimal.floor_ofNat] at hfloor
      omega
    · have hkbps : (ofNat (2 * r.numeral.floor)).kbps = r'.kbps :=
        (Decimal.value_of_text (numeral_of_text h)).1
      rw [kbps_ofNat, hdouble, Nat.cast_mul, Nat.cast_ofNat] at hkbps
      exact (mul_left_cancel₀ two_ne_zero hkbps).symm
  · intro h
    refine .inr ⟨ofNat (2 * r.numeral.floor), rfl, ?_⟩
    rw [kbps_ofNat, kbps, h, Nat.cast_mul, Nat.cast_ofNat]

/-- A larger one wraps around to a negative number. -/
theorem bitrateBufSize_of_ge (hroom : 2 ^ 62 ≤ r.numeral.floor) (hfits : r.numeral.floor < 2 ^ 63) :
    ∃ s, bitrateBufSize r.text = 45 :: s := by
  have hneg : wrapInt64 (r.numeral.floor * 2) < 0 := wrapInt64_neg (by omega) (by omega)
  obtain ⟨s, hs⟩ := formatInt_neg hneg
  rw [r.bitrateBufSize_text, if_pos ⟨isInt64_natCast.mpr hfits, by omega⟩, hs]
  exact ⟨s ++ lit "k", rfl⟩

end Rate

/-- The buffer is given back as it was or twice as large exactly if the whole part of the
bitrate is zero or no `int`, or is below 2^62 with nothing behind the point. -/
theorem bitrateBufSize_doubles_iff (r : Rate) :
    (bitrateBufSize r.text = r.text ∨
        ∃ r' : Rate, bitrateBufSize r.text = r'.text ∧ r'.kbps = 2 * r.kbps) ↔
      r.numeral.floor = 0 ∨ 2 ^ 63 ≤ r.numeral.floor ∨
        (r.numeral.floor < 2 ^ 62 ∧ r.numeral.decimals = 0) := by
  by_cases hzero : r.numeral.floor = 0
  · have hkept : bitrateBufSize r.text = r.text := by
      rw [r.bitrateBufSize_text, if_neg fun h => absurd hzero (Nat.ne_of_gt h.2)]
    exact ⟨fun _ => .inl hzero, fun _ => .inl hkept⟩
  by_cases hlarge : 2 ^ 63 ≤ r.numeral.floor
  · have hkept : bitrateBufSize r.text = r.text := by
      rw [r.bitrateBufSize_text, if_neg]
      intro h
      exact absurd (isInt64_natCast.mp h.1) (Nat.not_lt.mpr hlarge)
    exact ⟨fun _ => .inr (.inl hlarge), fun _ => .inl hkept⟩
  by_cases hroom : r.numeral.floor < 2 ^ 62
  · have hpos : 0 < r.numeral.floor := Nat.pos_of_ne_zero hzero
    simp only [hzero, hlarge, hroom, false_or, true_and]
    rw [r.bitrateBufSize_of_lt hpos hroom]
    exact r.doubled_iff hpos
  · obtain ⟨s, hs⟩ := r.bitrateBufSize_of_ge (by omega) (by omega)
    simp only [hzero, hlarge, hroom, false_or, false_and, iff_false]
    rw [hs]
    intro h
    rcases h with h | ⟨r', h, -⟩
    · exact r.text_ne_cons (by decide) s h.symm
    · exact r'.text_ne_cons (by decide) s h.symm

/-- The bitrate `1.5k`. -/
def fractionalRate : Rate where
  numeral :=
    { whole := lit "1"
      fraction := some (lit "5")
      whole_ne := by decide
      whole_digits := List.all_iff_forall_prop.mp (by decide)
      fraction_digits := List.all_iff_forall_prop.mp (by decide) }
  unit := 107
  unit_eq := .inl rfl

/-- What stands behind the point is cut off before the doubling; and 2^62 comes out
negative. -/
theorem bitrateBufSize_truncates :
    fractionalRate.text = lit "1.5k" ∧ bitrateBufSize (lit "1.5k") = lit "2k" ∧
      ¬ (bitrateBufSize fractionalRate.text = fractionalRate.text ∨
        ∃ r' : Rate, bitrateBufSize fractionalRate.text = r'.text ∧ r'.kbps = 2 * fractionalRate.kbps) ∧
      bitrateBufSize (lit "4611686018427387904k") = lit "-9223372036854775808k" := by
  refine ⟨by decide, by decide, ?_, by decide⟩
  rw [fractionalRate.bitrateBufSize_of_lt (by decide) (by decide), fractionalRate.doubled_iff (by decide)]
  decide

end LiveServer.PushTest
