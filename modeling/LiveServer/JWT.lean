import LiveServer.Auth

/-! Tokens of the administrator: JSON web tokens.

Signing a token and reading one is the JWT library's work, and the library is a parameter:
`Library` is what the server calls of it, `Library.Keeps` what is relied on. The server's own
part is `keyFunc`, which hands out the key to HMACs only. -/
namespace LiveServer.JWT
open Text

/-- The method a token names: one of the HMACs, or another by its name. -/
inductive SigningMethod where
  | hmac
  | other (alg : String)
  deriving DecidableEq, Repr

/-- The claims the server writes or reads; dates are in seconds. -/
structure MapClaims where
  username : Option Str := none
  role : Option Str := none
  exp : Option Int := none
  deriving DecidableEq, Repr

structure Token where
  claims : MapClaims
  valid : Bool
  deriving DecidableEq, Repr

structure Library where
  /-- `NewWithClaims(SigningMethodHS256, claims).SignedString(key)`. -/
  signedString : MapClaims → Str → Except GoError Str
  /-- `Parse(tokenString, keyFunc)` at a time, where `keyFunc` sees the method of the token. -/
  parse : Time → Str → (SigningMethod → Except GoError Str) → Except GoError Token

/-- The key for a token of this method. -/
def keyFunc (secret : Str) : SigningMethod → Except GoError Str
  | .hmac => .ok secret
  | .other alg => .error (.text s!"unexpected signing method: {alg}")

/-- Parses and validates a token; the claims on success. -/
def validateToken (lib : Library) (now : Time) (tokenString secret : Str) : Except GoError MapClaims :=
  match lib.parse now tokenString (keyFunc secret) with
  | .error err => .error (.wrap "parse token" err)
  | .ok token => if token.valid then .ok token.claims else .error (.text "invalid token")

/-- The claims of an administrator, as the token carries them. -/
def adminClaims (claims : AdminClaims) : MapClaims where
  username := some claims.username
  role := some claims.role
  exp := some claims.exp

/-! ### What is relied on -/

/-- The part of a token that is signed: all before its last full stop. -/
def signedText (token : Str) : Str := (cut 46 token.reverse).2.reverse

/-- A date that is kept when it is written down: zero seconds are read as no date, and a
number as a float, which is exact below 2^53. -/
def Datable (exp : Int) : Prop := 0 < exp ∧ exp < 9007199254740992

instance (exp : Int) : Decidable (Datable exp) := inferInstanceAs (Decidable (_ ∧ _))

/-- A token signed with a key is good under that key until the date of its claims, and no
token with the same signed text is from then on. -/
structure Library.Keeps (lib : Library) (secret : Str) : Prop where
  accepts : ∀ {claims : MapClaims} {exp : Int} {token : Str} {now : Time} {key : SigningMethod → Except GoError Str},
    lib.signedString claims secret = .ok token → claims.exp = some exp → Datable exp →
    key .hmac = .ok secret → now < exp * 1000000000 → ∃ read, lib.parse now token key = .ok ⟨read, true⟩
  expires : ∀ {claims : MapClaims} {exp : Int} {token other : Str} {now : Time}
      {key : SigningMethod → Except GoError Str},
    lib.signedString claims secret = .ok token → claims.exp = some exp → Datable exp →
    key .hmac = .ok secret → signedText other = signedText token → exp * 1000000000 ≤ now →
    ∃ err, lib.parse now other key = .error err

section
variable {lib : Library} {secret token other : Str} {claims : MapClaims} {exp : Int} {now : Time}

/-- What is validated with the text of a signed token is within its date. -/
theorem Library.Keeps.within (h : lib.Keeps secret) (hsigned : lib.signedString claims secret = .ok token)
    (hexp : claims.exp = some exp) (hdate : Datable exp) (htext : signedText other = signedText token)
    {read : MapClaims} (hvalid : validateToken lib now other secret = .ok read) : now < exp * 1000000000 := by
  by_contra hnow
  have hkey : keyFunc secret .hmac = .ok secret := rfl
  obtain ⟨err, hparse⟩ := h.expires hsigned hexp hdate hkey htext (Int.not_lt.mp hnow)
  unfold validateToken at hvalid
  rw [hparse] at hvalid
  cases hvalid

end
end LiveServer.JWT
