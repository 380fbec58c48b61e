import Mathlib.Data.List.Basic

/-! Strings as the server's language has them: byte sequences.

The functions are those of its standard library that the server calls, on bytes
as there; a literal stands for its UTF-8 encoding. -/
namespace LiveServer

/-- A string: any bytes. -/
abbrev Str := List UInt8

instance : LawfulBEq Str := inferInstance

/-- The bytes of a literal. -/
def lit (s : String) : Str := s.toByteArray.data.toList

namespace Text

/-- `strings.TrimPrefix`. -/
def trimPrefix (s p : Str) : Str := if p.isPrefixOf s then s.drop p.length else s

/-- `strings.TrimSuffix`. -/
def trimSuffix (s p : Str) : Str := if p.isSuffixOf s then s.take (s.length - p.length) else s

/-- `strings.Index`: where `sub` first occurs, `none` for -1. -/
def index (s sub : Str) : Option Nat :=
  match s with
  | [] => if sub.isEmpty then some 0 else none
  | b :: rest => if sub.isPrefixOf (b :: rest) then some 0 else (index rest sub).map (· + 1)

/-- `strings.Cut` at a byte: what stands before its first occurrence and after it. -/
def cut (sep : UInt8) : Str → Str × Str
  | [] => ([], [])
  | b :: rest => if b = sep then ([], rest) else ((cut sep rest).1.cons b, (cut sep rest).2)

theorem cut_append {sep : UInt8} {s : Str} (h : sep ∉ s) (t : Str) :
    cut sep (s ++ sep :: t) = (s, t) := by
  induction s with
  | nil => simp [cut]
  | cons b rest ih =>
    rw [List.mem_cons, not_or] at h
    simp only [List.cons_append, cut, if_neg (Ne.symm h.1), ih h.2]

/-- The first occurrence of a word whose first byte occurs nowhere before it. -/
theorem index_append {b : UInt8} {w s : Str} (h : b ∉ s) (t : Str) :
    index (s ++ (b :: w) ++ t) (b :: w) = some s.length := by
  induction s with
  | nil =>
    have hp : (b :: w).isPrefixOf ((b :: w) ++ t) = true := by simp
    simp only [List.nil_append, List.cons_append, index, List.length_nil] at hp ⊢
    rw [if_pos hp]
  | cons c rest ih =>
    rw [List.mem_cons, not_or] at h
    have hp : (b :: w).isPrefixOf (c :: (rest ++ (b :: w) ++ t)) = false := by
      simp [List.isPrefixOf, h.1]
    simp only [List.cons_append, index, List.length_cons] at hp ih ⊢
    rw [hp, ih h.2]
    rfl

/-- A word whose first byte is not there. -/
theorem index_absent {b : UInt8} {s : Str} (h : b ∉ s) (w : Str) : index s (b :: w) = none := by
  induction s with
  | nil => rfl
  | cons c rest ih =>
    rw [List.mem_cons, not_or] at h
    have hp : (b :: w).isPrefixOf (c :: rest) = false := by simp [List.isPrefixOf, h.1]
    rw [index, hp, ih h.2]
    rfl

/-- A word whose first byte is there once, with something else behind it. -/
theorem index_other {b : UInt8} {w s t : Str} (hs : b ∉ s) (ht : b ∉ t) (hw : ¬ w <+: t) :
    index (s ++ b :: t) (b :: w) = none := by
  induction s with
  | nil =>
    have hp : ¬ (b :: w).isPrefixOf (b :: t) = true := by
      intro hp
      exact hw (List.cons_prefix_cons.mp (List.isPrefixOf_iff_prefix.mp hp)).2
    rw [List.nil_append, index, if_neg hp, index_absent ht]
    rfl
  | cons c rest ih =>
    rw [List.mem_cons, not_or] at hs
    have hp : (b :: w).isPrefixOf (c :: (rest ++ b :: t)) = false := by simp [List.isPrefixOf, hs.1]
    rw [List.cons_append, index, hp, ih hs.2]
    rfl

/-! ### Hexadecimal and decimal -/

def hexDigit (n : Nat) : UInt8 := if n < 10 then UInt8.ofNat (48 + n) else UInt8.ofNat (87 + n)

/-- `hex.EncodeToString`: two lower-case digits a byte. -/
def hexEncode (bs : List UInt8) : Str :=
  bs.flatMap fun b => [hexDigit (b.toNat / 16), hexDigit (b.toNat % 16)]

/-- The value of a hexadecimal digit of either case. -/
def unhex (b : UInt8) : Option Nat :=
  if 48 ≤ b ∧ b ≤ 57 then some (b.toNat - 48)
  else if 97 ≤ b ∧ b ≤ 102 then some (b.toNat - 87)
  else if 65 ≤ b ∧ b ≤ 70 then some (b.toNat - 55)
  else none

def IsLowerHex (b : UInt8) : Prop := (48 ≤ b ∧ b ≤ 57) ∨ (97 ≤ b ∧ b ≤ 102)

instance (b : UInt8) : Decidable (IsLowerHex b) := inferInstanceAs (Decidable (_ ∨ _))

theorem hexDigit_isLowerHex : ∀ n < 16, IsLowerHex (hexDigit n) := by decide

theorem hexEncode_length (bs : List UInt8) : (hexEncode bs).length = 2 * bs.length := by
  induction bs with
  | nil => rfl
  | cons b rest ih =>
    simp only [hexEncode, List.flatMap_cons, List.length_append, List.length_cons, List.length_nil]
      at ih ⊢
    omega

theorem hexEncode_isLowerHex (bs : List UInt8) : ∀ b ∈ hexEncode bs, IsLowerHex b := by
  intro b hb
  obtain ⟨c, _, hc⟩ := List.mem_flatMap.mp hb
  have hlt := c.toNat_lt
  rcases List.mem_cons.mp hc with rfl | hc
  · exact hexDigit_isLowerHex _ (by omega)
  · rw [List.mem_singleton.mp hc]
    exact hexDigit_isLowerHex _ (Nat.mod_lt _ (by decide))

theorem hexDigit_inj : ∀ m < 16, ∀ n < 16, hexDigit m = hexDigit n → m = n := by decide

theorem hexEncode_inj {as bs : List UInt8} (h : hexEncode as = hexEncode bs) : as = bs := by
  induction as generalizing bs with
  | nil =>
    cases bs with
    | nil => rfl
    | cons b rest => cases h
  | cons a as ih =>
    cases bs with
    | nil => cases h
    | cons b bs =>
      simp only [hexEncode, List.flatMap_cons, List.cons_append, List.nil_append,
        List.cons.injEq] at h ih
      obtain ⟨hhigh, hlow, hrest⟩ := h
      have ha := a.toNat_lt
      have hb := b.toNat_lt
      have hhigh := hexDigit_inj _ (by omega) _ (by omega) hhigh
      have hlow := hexDigit_inj _ (by omega) _ (by omega) hlow
      have hab : a = b := UInt8.toNat_inj.mp (by omega)
      rw [hab, ih hrest]

/-- `strconv.FormatInt(n, 10)`, and `%d`. -/
def formatInt (n : Int) : Str :=
  let digits := (Nat.toDigits 10 n.natAbs).map fun c => UInt8.ofNat c.toNat
  if n < 0 then 45 :: digits else digits

/-- The digits of an unsigned decimal numeral, `none` on any other byte. -/
def parseDigits : Str → Nat → Option Nat
  | [], acc => some acc
  | b :: rest, acc => if 48 ≤ b ∧ b ≤ 57 then parseDigits rest (acc * 10 + (b.toNat - 48)) else none

/-- Reading decimal digits, as the library does on characters. -/
theorem parseDigits_map {cs : List Char} (h : ∀ c ∈ cs, c.isDigit = true) (acc : Nat) :
    parseDigits (cs.map fun c => UInt8.ofNat c.toNat) acc = some (Nat.ofDigitChars 10 cs acc) := by
  induction cs generalizing acc with
  | nil => rfl
  | cons c cs ih =>
    have hc : 48 ≤ c.toNat ∧ c.toNat ≤ 57 := Char.isDigit_iff_toNat.mp (h c List.mem_cons_self)
    have hval : (UInt8.ofNat c.toNat).toNat = c.toNat := by
      rw [UInt8.toNat_ofNat']
      omega
    have hdigit : 48 ≤ UInt8.ofNat c.toNat ∧ UInt8.ofNat c.toNat ≤ 57 := by
      simp only [UInt8.le_iff_toNat_le, hval]
      exact hc
    rw [List.map_cons, parseDigits, if_pos hdigit, ih fun d hd => h d (List.mem_cons_of_mem c hd),
      Nat.ofDigitChars_cons, hval, Nat.mul_comm]
    rfl

theorem parseDigits_toDigits (n : Nat) :
    parseDigits ((Nat.toDigits 10 n).map fun c => UInt8.ofNat c.toNat) 0 = some n := by
  rw [parseDigits_map fun c hc => Nat.isDigit_of_mem_toDigits (by decide) (by decide) hc,
    Nat.ofDigitChars_toDigits (by decide) (by decide)]

/-- A byte that is no digit does not begin the digits of a number. -/
theorem digits_ne_cons (n : Nat) {b : UInt8} (hb : ¬ (48 ≤ b ∧ b ≤ 57)) (rest : Str) :
    (Nat.toDigits 10 n).map (fun c => UInt8.ofNat c.toNat) ≠ b :: rest := by
  intro h
  have hparse := parseDigits_toDigits n
  rw [h, parseDigits, if_neg hb] at hparse
  cases hparse

theorem formatInt_inj {m n : Int} (h : formatInt m = formatInt n) : m = n := by
  have habs {a b : Nat} (hab : (Nat.toDigits 10 a).map (fun c => UInt8.ofNat c.toNat) =
      (Nat.toDigits 10 b).map fun c => UInt8.ofNat c.toNat) : a = b := by
    have ha := parseDigits_toDigits a
    rw [hab, parseDigits_toDigits] at ha
    exact (Option.some.inj ha).symm
  unfold formatInt at h
  by_cases hm : m < 0 <;> by_cases hn : n < 0 <;> simp only [hm, hn, if_true, if_false] at h
  · have hab := habs (List.cons.inj h).2
    omega
  · exact absurd h.symm (digits_ne_cons _ (by decide) _)
  · exact absurd h (digits_ne_cons _ (by decide) _)
  · have hab := habs h
    omega

/-- The largest `int64`. -/
def maxInt64 : Int := 9223372036854775807

/-- `strconv.ParseInt(s, 10, 64)`: an optional sign and digits, within range. -/
def parseInt (s : Str) : Option Int :=
  let body := match s with
    | 43 :: rest => (false, rest)
    | 45 :: rest => (true, rest)
    | _ => (false, s)
  if body.2.isEmpty then none
  else match parseDigits body.2 0 with
    | none => none
    | some n =>
      let v : Int := if body.1 then -n else n
      if -maxInt64 - 1 ≤ v ∧ v ≤ maxInt64 then some v else none

/-- What is printed is digits, perhaps behind a sign. -/
theorem mem_formatInt {n : Int} {b : UInt8} (h : b ∈ formatInt n) : (48 ≤ b ∧ b ≤ 57) ∨ b = 45 := by
  have hdigits : b ∈ (Nat.toDigits 10 n.natAbs).map (fun c => UInt8.ofNat c.toNat) →
      48 ≤ b ∧ b ≤ 57 := by
    intro hb
    obtain ⟨c, hc, rfl⟩ := List.mem_map.mp hb
    have hc : 48 ≤ c.toNat ∧ c.toNat ≤ 57 :=
      Char.isDigit_iff_toNat.mp (Nat.isDigit_of_mem_toDigits (by decide) (by decide) hc)
    have hval : (UInt8.ofNat c.toNat).toNat = c.toNat := by
      rw [UInt8.toNat_ofNat']
      omega
    simp only [UInt8.le_iff_toNat_le, hval]
    exact hc
  unfold formatInt at h
  split at h
  · rcases List.mem_cons.mp h with rfl | h
    · exact .inr rfl
    · exact .inl (hdigits h)
  · exact .inl (hdigits h)

/-- A number that an `int64` can hold. -/
def IsInt64 (n : Int) : Prop := -maxInt64 - 1 ≤ n ∧ n ≤ maxInt64

instance (n : Int) : Decidable (IsInt64 n) := inferInstanceAs (Decidable (_ ∧ _))

/-- Digits without a sign, read if the number fits. -/
theorem parseInt_digits {s : Str} {m : Nat} (hne : s ≠ []) (hs : parseDigits s 0 = some m) :
    parseInt s = if IsInt64 m then some (m : Int) else none := by
  unfold parseInt
  extract_lets body
  have hbody : body = (false, s) := by
    unfold body
    split
    · rename_i hs
      cases hs
    · rename_i hs
      cases hs
    · rfl
  rw [hbody]
  simp only [List.isEmpty_iff, hne, hs, if_false, Bool.false_eq_true]
  rfl

/-- What is printed is read back. -/
theorem parseInt_formatInt {n : Int} (h : IsInt64 n) : parseInt (formatInt n) = some n := by
  have hne : (Nat.toDigits 10 n.natAbs).map (fun c => UInt8.ofNat c.toNat) ≠ [] := by
    intro hnil
    exact Nat.toDigits_ne_nil (List.map_eq_nil_iff.mp hnil)
  have hdigits := parseDigits_toDigits n.natAbs
  unfold formatInt
  by_cases hn : n < 0
  · have habs : -(n.natAbs : Int) = n := by omega
    unfold parseInt
    simp only [hn, if_true, List.isEmpty_iff, hne, if_false, hdigits, habs]
    exact if_pos h
  · have habs : (n.natAbs : Int) = n := by omega
    simp only [hn, if_false]
    rw [parseInt_digits hne hdigits, habs, if_pos h]

/-! ### UTF-8 -/

/-- Of a character with this first byte: how many bytes follow, and the bounds of the next. -/
def utf8Lead (b : UInt8) : Option (Nat × UInt8 × UInt8) :=
  if b < 0x80 then some (0, 0, 0)
  else if 0xC2 ≤ b ∧ b ≤ 0xDF then some (1, 0x80, 0xBF)
  else if b = 0xE0 then some (2, 0xA0, 0xBF)
  else if b = 0xED then some (2, 0x80, 0x9F)
  else if 0xE1 ≤ b ∧ b ≤ 0xEF then some (2, 0x80, 0xBF)
  else if b = 0xF0 then some (3, 0x90, 0xBF)
  else if b = 0xF4 then some (3, 0x80, 0x8F)
  else if 0xF1 ≤ b ∧ b ≤ 0xF3 then some (3, 0x80, 0xBF)
  else none

/-- The rest of a text within a character that has some bytes to go. -/
def utf8Rest : Nat → UInt8 → UInt8 → Str → Bool
  | 0, _, _, [] => true
  | _ + 1, _, _, [] => false
  | 0, _, _, b :: rest =>
    match utf8Lead b with
    | none => false
    | some (n, lo, hi) => utf8Rest n lo hi rest
  | n + 1, lo, hi, b :: rest => lo ≤ b && b ≤ hi && utf8Rest n 0x80 0xBF rest

/-- `utf8.ValidString`. -/
def validUTF8 (s : Str) : Bool := utf8Rest 0 0 0 s

example : validUTF8 (lit "/caf\u00e9") = true ∧ validUTF8 [47, 0xFF] = false := by decide

end Text
end LiveServer
