import LiveServer.Handler.Callback
import LiveServer.JWT

/-! The middleware in front of the endpoints for streams: bearer tokens. -/
namespace LiveServer
open Text

/-- An ASCII letter in lower case. -/
def lower (b : UInt8) : UInt8 := if 65 ≤ b ∧ b ≤ 90 then b + 32 else b

/-- `strings.EqualFold` with a text whose letters fold to ASCII only. -/
def equalFold (s t : Str) : Bool := s.map lower = t.map lower

/-- An answer of the middleware, which ends the request. -/
def Response.unauthenticated (msg : String) : Response := { status := 401, code := 1005, msg := some msg }

/-- Validates the bearer token of the `Authorization` header; without one the header is
empty. The claims go into the context of the request. -/
def jwtAuth (lib : JWT.Library) (secret : Str) (now : Time) (authHeader : Str) :
    Except Response JWT.MapClaims :=
  if authHeader = [] then .error (.unauthenticated "missing authorization header")
  -- `strings.SplitN(authHeader, " ", 2)` gives one part where there is no blank
  else if 32 ∉ authHeader ∨ !equalFold (cut 32 authHeader).1 (lit "Bearer") then
    .error (.unauthenticated "invalid authorization format, expected Bearer <token>")
  else match JWT.validateToken lib now (cut 32 authHeader).2 secret with
    | .error _ => .error (.unauthenticated "invalid or expired token")
    | .ok claims => .ok claims

/-- The header is a scheme and a token. -/
structure IsBearer (authHeader scheme token : Str) : Prop where
  header : authHeader = scheme ++ 32 :: token
  scheme : equalFold scheme (lit "Bearer") = true

/-- The scheme has no blank in it. -/
theorem IsBearer.notMem {authHeader scheme token : Str} (h : IsBearer authHeader scheme token) : 32 ∉ scheme := by
  intro hmem
  have hlower : lower 32 ∈ (lit "Bearer").map lower := by
    have := List.mem_map_of_mem (f := lower) hmem
    rwa [of_decide_eq_true h.scheme] at this
  exact absurd hlower (by decide)

/-- Who is let through: a bearer of a token that is valid under the server's key. -/
theorem jwtAuth_ok {lib : JWT.Library} {secret authHeader : Str} {now : Time} {claims : JWT.MapClaims} :
    jwtAuth lib secret now authHeader = .ok claims ↔
      ∃ scheme tokenString, IsBearer authHeader scheme tokenString ∧
        JWT.validateToken lib now tokenString secret = .ok claims := by
  constructor
  · intro h
    unfold jwtAuth at h
    split at h
    · cases h
    · split at h
      · cases h
      · rename_i hformat
        rw [not_or, not_not] at hformat
        obtain ⟨hblank, hscheme⟩ := hformat
        simp only [Bool.not_eq_true, Bool.not_eq_false'] at hscheme
        split at h
        · cases h
        · rename_i c hvalid
          cases h
          exact ⟨_, _, ⟨cut_of_mem hblank, hscheme⟩, hvalid⟩
  · rintro ⟨scheme, tokenString, hbearer, hvalid⟩
    have hcut : cut 32 authHeader = (scheme, tokenString) := by
      rw [hbearer.header]
      exact cut_append hbearer.notMem _
    have hne : authHeader ≠ [] := by
      rw [hbearer.header]
      exact List.append_ne_nil_of_right_ne_nil _ (List.cons_ne_nil _ _)
    have hformat : ¬ (32 ∉ authHeader ∨ (!equalFold (cut 32 authHeader).1 (lit "Bearer")) = true) := by
      rw [not_or, not_not, hcut, hbearer.header, hbearer.scheme]
      simp
    unfold jwtAuth
    rw [if_neg hne, if_neg hformat, hcut]
    dsimp only
    rw [hvalid]

end LiveServer
