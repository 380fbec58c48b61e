import LiveServer.Text.Bytes

/-! Column types of PostgreSQL that change what a statement stores or matches.

A `uuid` column compares values, not texts: `uuidIn` reads any of the spellings the
server accepts (either case, optional braces, a hyphen allowed after any two
bytes) and gives the one spelling it prints. A `varchar(n)` column refuses a longer
text unless the excess is blanks, which it cuts off. -/
namespace LiveServer.Relational
open Text

/-- Upper-case letters of a hexadecimal numeral to lower case. -/
def lowerHex (b : UInt8) : UInt8 := if 65 ≤ b ∧ b ≤ 70 then b + 32 else b

/-- The digits of the last `n` of sixteen bytes, and what follows them. -/
def uuidDigits : Nat → Str → Option (Str × Str)
  | 0, s => some ([], s)
  | n + 1, a :: b :: s =>
    if (unhex a).isSome ∧ (unhex b).isSome then
      -- a hyphen may follow every second byte but the last
      let s' := if s.head? = some 45 ∧ n % 2 = 0 ∧ 0 < n then s.tail else s
      (uuidDigits n s').map fun d => (lowerHex a :: lowerHex b :: d.1, d.2)
    else none
  | _, _ => none

/-- Thirty-two digits as `uuid_out` prints them. -/
def uuidOut (d : Str) : Str :=
  d.take 8 ++ 45 :: ((d.drop 8).take 4 ++ 45 :: ((d.drop 12).take 4 ++ 45 ::
    ((d.drop 16).take 4 ++ 45 :: d.drop 20)))

/-- The printed form of the `uuid` a text denotes, `none` for invalid input. -/
def uuidIn (s : Str) : Option Str :=
  let braces := s.head? == some 123
  match uuidDigits 16 (if braces then s.tail else s) with
  | none => none
  | some (d, rest) => if rest = (if braces then [125] else []) then some (uuidOut d) else none

/-- The first `n` characters of a UTF-8 text, and the rest. -/
def splitRunes : Nat → Str → Str × Str
  | _, [] => ([], [])
  | n, b :: rest =>
    -- a continuation byte belongs to the character before it
    if 128 ≤ b ∧ b < 192 then (b :: (splitRunes n rest).1, (splitRunes n rest).2)
    else match n with
      | 0 => ([], b :: rest)
      | n + 1 => (b :: (splitRunes n rest).1, (splitRunes n rest).2)

/-- What a `varchar(n)` column stores for a text, `none` when it is too long. A text with a NUL
byte or with invalid UTF-8, which PostgreSQL refuses whatever its length, is not refused here:
that refusal is one of the failures a statement may have at any time. -/
def varchar (n : Nat) (s : Str) : Option Str :=
  if (splitRunes n s).2.all (· = 32) then some (splitRunes n s).1 else none

theorem splitRunes_short {n : Nat} {s : Str} (h : s.length ≤ n) : splitRunes n s = (s, []) := by
  induction s generalizing n with
  | nil => cases n <;> rfl
  | cons b rest ih =>
    simp only [List.length_cons] at h
    unfold splitRunes
    split
    · rw [ih (by omega)]
    · cases n with
      | zero => omega
      | succ n =>
        dsimp only
        rw [ih (by omega)]

/-- A text with no more bytes than the column has characters is stored as it is. -/
theorem varchar_short {n : Nat} {s : Str} (h : s.length ≤ n) : varchar n s = some s := by
  simp [varchar, splitRunes_short h]

theorem splitRunes_append (n : Nat) (s : Str) : (splitRunes n s).1 ++ (splitRunes n s).2 = s := by
  induction s generalizing n with
  | nil => cases n <;> rfl
  | cons b rest ih =>
    unfold splitRunes
    split
    · exact congrArg (b :: ·) (ih n)
    · cases n with
      | zero => rfl
      | succ n => exact congrArg (b :: ·) (ih n)

theorem splitRunes_uncut {n : Nat} {s : Str} (h : (splitRunes n s).1.length < n) :
    (splitRunes n s).2 = [] := by
  induction s generalizing n with
  | nil => cases n <;> rfl
  | cons b rest ih =>
    unfold splitRunes at h ⊢
    split at h
    · rename_i hb
      rw [if_pos hb]
      exact ih (Nat.lt_of_succ_lt h)
    · rename_i hb
      rw [if_neg hb]
      cases n with
      | zero => exact absurd h (Nat.not_lt_zero _)
      | succ n => exact ih (Nat.lt_of_succ_lt_succ h)

/-- What does not fill the column was not cut. -/
theorem varchar_uncut {n : Nat} {s t : Str} (h : varchar n s = some t) (ht : t.length < n) : t = s := by
  unfold varchar at h
  split at h
  · cases h
    have happ := splitRunes_append n s
    rwa [splitRunes_uncut ht, List.append_nil] at happ
  · cases h

end LiveServer.Relational
