import LiveServer.Model

/-! Publish tokens and play signatures.

What the random sources and the hash give is left open: a call to `rand.Read` or
`uuid.New` is an input of whoever makes it, and HMAC-SHA256 is a parameter. -/
namespace LiveServer
open Text

/-- What `rand.Read` puts into a buffer of 32 bytes. -/
def Random32 : Type := { bs : List UInt8 // bs.length = 32 }

/-- The text of a UUID: 36 characters, hexadecimal digits and hyphens. -/
def IsUUIDText (s : Str) : Prop := s.length = 36 ∧ ∀ b ∈ s, (unhex b).isSome ∨ b = 45

instance (s : Str) : Decidable (IsUUIDText s) := @instDecidableAnd _ _ _ (List.decidableBAll _ s)

/-- What `uuid.New().String()` gives. -/
def UUIDText : Type := { s : Str // IsUUIDText s }

/-- A long-lived random token for publishers; `none` is a failing random source. -/
def generatePublishToken : Option Random32 → Except GoError Str
  | none => .error (.wrap "generate publish token" .backend)
  | some buf => .ok (hexEncode buf.val)

/-- Verifies a provided publish token against the stored token. -/
def validatePublishToken (expected provided : Str) : Option GoError :=
  if expected = [] then some (.text "publish token is not configured")
  else if provided = [] then some (.text "publish token is required")
  else if expected ≠ provided then some (.text "invalid publish token")
  else none

def generateSign (hmacSHA256 : Str → Str → Str) (streamKey : Str) (expire : Int) (secret : Str) :
    Str :=
  hexEncode (hmacSHA256 secret (streamKey ++ formatInt expire))

def validateSign (hmacSHA256 : Str → Str → Str) (streamKey : Str) (expire : Int) (sign secret : Str) :
    Option GoError :=
  if sign ≠ generateSign hmacSHA256 streamKey expire secret then some (.text "invalid signature")
  else none

/-- The claims of an administrator's token. -/
structure AdminClaims where
  username : Str
  role : Str
  exp : Int

/-- A JWT for the administrator; signing it is the JWT library's `SignedString`. -/
def generateAdminToken (signedString : AdminClaims → Str → Except GoError Str) (now : Time)
    (username secret : Str) (expiry : Time) : Except GoError Str :=
  match signedString ⟨username, lit "admin", Time.unix (now + expiry)⟩ secret with
  | .error err => .error (.wrap "sign token" err)
  | .ok signed => .ok signed

section
variable {signedString : AdminClaims → Str → Except GoError Str} {now expiry : Time} {username secret : Str}

theorem generateAdminToken_ok {token : Str}
    (h : signedString ⟨username, lit "admin", Time.unix (now + expiry)⟩ secret = .ok token) :
    generateAdminToken signedString now username secret expiry = .ok token := by
  unfold generateAdminToken
  rw [h]

theorem generateAdminToken_error {err : GoError}
    (h : signedString ⟨username, lit "admin", Time.unix (now + expiry)⟩ secret = .error err) :
    generateAdminToken signedString now username secret expiry = .error (.wrap "sign token" err) := by
  unfold generateAdminToken
  rw [h]

end

/-- A token is accepted only if it is the stored one, and not empty. -/
theorem validatePublishToken_none {expected provided : Str} :
    validatePublishToken expected provided = none ↔ expected = provided ∧ provided ≠ [] := by
  unfold validatePublishToken
  split
  · rename_i he
    subst he
    simp only [reduceCtorEq, ne_eq, false_iff, not_and, not_not]
    exact fun h => h.symm
  · split
    · rename_i hp
      simp [hp]
    · rename_i hp
      split
      · rename_i hne
        simp only [reduceCtorEq, false_iff, not_and]
        exact fun h => absurd h hne
      · rename_i heq
        simp only [ne_eq, not_not] at heq
        exact iff_of_true rfl ⟨heq, hp⟩

/-- 64 lower-case hexadecimal digits. -/
def IsToken (token : Str) : Prop := token.length = 64 ∧ ∀ b ∈ token, IsLowerHex b

theorem IsToken.ne_nil {token : Str} (h : IsToken token) : token ≠ [] := by
  intro hnil
  have hlen := h.1
  rw [hnil] at hlen
  cases hlen

/-- What a generated token looks like. -/
theorem generatePublishToken_ok {r : Option Random32} {token : Str}
    (h : generatePublishToken r = .ok token) : IsToken token := by
  cases r with
  | none => cases h
  | some buf =>
    cases h
    refine ⟨?_, hexEncode_isLowerHex _⟩
    rw [hexEncode_length, buf.property]

end LiveServer
