import LiveServer.Api.Footprint
import LiveServer.Concurrent.Serial

/-! What each endpoint answers.

`Answers` lists the answers of each endpoint, `serve_answers` says that the list is complete
for any behaviour of the services. What clients and SRS rely on is read off the list: how
status and code go together, and who gets a token. -/
namespace LiveServer.Api
open Concurrent Text

namespace Gateway
variable (g : Gateway)

/-- The claims of a login. -/
def sessionClaims (login : Request) : AdminClaims :=
  ⟨g.authCfg.adminUsername, lit "admin", Time.unix (login.now + g.authCfg.adminExpiry)⟩

/-- The token a login is answered with. -/
def sessionToken (login : Request) : Except GoError Str :=
  g.jwt.signedString (JWT.adminClaims (g.sessionClaims login)) g.authCfg.jwtSecret

/-- The answers of an endpoint to a request. -/
inductive Answers (req : Request) : Endpoint → Answer → Prop
  | health : Answers req .health (.open (.success (.health "ok")))
  | playback {id key res br hls flv : Str} {st : Status} :
      Answers req .playback (.open (.success (.playback id key st res br hls flv)))
  | unknownKey : Answers req .playback (.open (.error 404 codeNotFound "stream not found"))
  | loginInvalid : g.bindLogin req.body = none →
      Answers req .login (.open (.error 400 codeInvalidParam "username and password are required"))
  | loginRefused {l : LoginReq} : g.bindLogin req.body = some l →
      l.username ≠ g.authCfg.adminUsername ∨ l.password ≠ g.authCfg.adminPassword →
      Answers req .login (.open (.error 401 1005 "invalid credentials"))
  | loginUnsigned {err : GoError} : g.sessionToken req = .error err →
      Answers req .login (.open (.error 500 codeInternal "failed to generate token"))
  | loggedIn {token : Str} : g.bindLogin req.body = some ⟨g.authCfg.adminUsername, g.authCfg.adminPassword⟩ →
      g.sessionToken req = .ok token →
      Answers req .login (.open (.success (.token token (Int.tdiv g.authCfg.adminExpiry 1000000000))))
  | playAllowed : Answers req .playAuth (.open Response.allow.answer)
  | playRefused {msg : String} :
      Answers req .playAuth (.open (Response.answer { status := 403, code := 1005, msg := some msg }))
  | createInvalid {msg : String} : g.bindCreate req.body = .error msg →
      Answers req .createStream (.stream (.error 400 codeInvalidParam ("invalid request: " ++ msg)))
  | createFailed : Answers req .createStream (.stream (.error 500 codeInternal "failed to create stream"))
  | created {row : Stream} : Answers req .createStream (.stream (.success (.stream row)))
  | listFailed : Answers req .listStreams (.stream (.error 500 codeInternal "failed to list streams"))
  | listed {rows : List Stream} : Answers req .listStreams (.stream (.success (.streams rows)))
  | getFailed {err : GoError} : Answers req .getStream (.stream (.failure err "failed to get stream"))
  | got {row : Stream} : Answers req .getStream (.stream (.success (.stream row)))
  | deleteUnknown {err : GoError} : Answers req .deleteStream (.stream (.failure err "failed to get stream"))
  | deleteFailed : Answers req .deleteStream (.stream (.error 500 codeInternal "failed to delete stream"))
  | deleted : Answers req .deleteStream (.stream (.success .null))
  | startUnknown : Answers req .startStream (.stream (.error 404 codeNotFound "stream not found"))
  | startConflict {msg : String} : Answers req .startStream (.stream (.error 409 codeConflict msg))
  | started {key pushURL : Str} : Answers req .startStream (.stream (.success (.push "ready" key pushURL)))
  | stopFailed {err : GoError} : Answers req .stopStream (.stream (.failure err "failed to stop stream"))
  | stopped : Answers req .stopStream (.stream (.success (.status "stop_requested")))
  | refreshFailed :
      Answers req .refreshToken (.stream (.error 500 codeInternal "failed to refresh push token"))
  | refreshed {row : Stream} : Answers req .refreshToken (.stream (.success (.stream row)))
  | published : Answers req .publish (.open Response.allow.answer)
  | publishRefused : Answers req .publish (.open Response.unauthorized.answer)
  | unpublished : Answers req .unpublish (.open Response.allow.answer)
  | played : Answers req .play (.open Response.allow.answer)
  | left : Answers req .stop (.open Response.allow.answer)
  | tasksFailed : Answers req .tasks (.open (.error 500 codeInternal "failed to fetch tasks"))
  | tasks {rows : List AgentTask} : Answers req .tasks (.open (.success (.tasks rows)))
  | updateInvalid {msg : String} : g.bindTaskUpdate req.body = .error msg →
      Answers req .updateTask (.open (.error 400 codeInvalidParam ("invalid request: " ++ msg)))
  | updateFailed : Answers req .updateTask (.open (.error 500 codeInternal "failed to update task"))
  | updated : Answers req .updateTask (.open (.success .null))
  | heartbeatInvalid {msg : String} : g.bindHeartbeat req.body = .error msg →
      Answers req .heartbeat (.open (.error 400 codeInvalidParam ("invalid request: " ++ msg)))
  | heartbeat {agent : Str} : Answers req .heartbeat (.open (.success (.agent agent)))

variable {g}

theorem returns_playAuth (s : StreamService) (now : Time) (key sign expire : Str) :
    (AuthHandler.playAuth s now key sign expire).Returns fun r =>
      r = .allow ∨ ∃ msg, r = { status := 403, code := 1005, msg := some msg } := by
  have hreject (msg : String) : (AuthHandler.rejectPlay msg).Returns fun r =>
      r = .allow ∨ ∃ msg, r = { status := 403, code := 1005, msg := some msg } :=
    fun _ => .inr ⟨msg, rfl⟩
  unfold AuthHandler.playAuth
  split
  · exact hreject _
  · split
    · exact hreject _
    · split
      · exact hreject _
      · split
        · exact hreject _
        · exact .inl rfl

theorem returns_login (req : Request) :
    (AuthHandler.login g.authCfg g.bindLogin g.handlers.signedString req.now req.body).Returns fun a =>
      g.Answers req .login (.open a) := by
  unfold AuthHandler.login
  split
  · rename_i hbind
    exact .loginInvalid hbind
  · rename_i l hbind
    split
    · rename_i hwrong
      exact fun _ => .loginRefused hbind hwrong
    · rename_i hright
      rw [not_or, not_not, not_not] at hright
      obtain ⟨username, password⟩ := l
      obtain ⟨hu, hp⟩ := hright
      dsimp only at hu hp
      subst hu hp
      cases hsigned : g.sessionToken req with
      | error err =>
        have hsign : g.handlers.signedString (g.sessionClaims req) g.authCfg.jwtSecret = .error err := hsigned
        dsimp only
        rw [generateAdminToken_error hsign]
        exact .loginUnsigned hsigned
      | ok token =>
        have hsign : g.handlers.signedString (g.sessionClaims req) g.authCfg.jwtSecret = .ok token := hsigned
        dsimp only
        rw [generateAdminToken_ok hsign]
        exact .loggedIn hbind hsigned

/-- **The list is complete.** -/
theorem handle_answers (req : Request) (param : Str) (e : Endpoint) :
    (g.handle req param e).Returns (g.Answers req e) := by
  have hcallback {e : Endpoint} {p : Server Response} (hp : p.Returns fun r => r = .allow)
      (hallow : g.Answers req e (.open Response.allow.answer)) :
      (Answer.open <$> Response.answer <$> p).Returns (g.Answers req e) :=
    Prog.returns_map _ (Prog.returns_map _ hp (B := fun a => a = Response.allow.answer)
      fun _ h => congrArg Response.answer h) fun _ h => h ▸ hallow
  cases e with
  | health => exact .health
  | playback =>
    refine Prog.returns_map _ (Prog.returns_of_rest _ (B := fun a => g.Answers req .playback (.open a)) ?_)
      fun _ h => h
    rintro (e | stream)
    · exact .unknownKey
    · exact .playback
  | login => exact Prog.returns_map _ (returns_login req) fun _ h => h
  | playAuth =>
    refine Prog.returns_map _ (Prog.returns_map _ (returns_playAuth _ _ _ _ _)
      (B := fun a => g.Answers req .playAuth (.open a)) ?_) fun _ h => h
    rintro r (rfl | ⟨msg, rfl⟩)
    · exact .playAllowed
    · exact .playRefused
  | createStream =>
    refine Prog.returns_map _ (A := fun a => g.Answers req .createStream (.stream a)) ?_ fun _ h => h
    unfold StreamHandler.create
    split
    · rename_i hbind
      exact .createInvalid hbind
    · apply Prog.returns_of_rest
      rintro (e | stream)
      · exact .createFailed
      · exact .created
  | listStreams =>
    refine Prog.returns_map _ (Prog.returns_of_rest _ (B := fun a => g.Answers req .listStreams (.stream a)) ?_)
      fun _ h => h
    rintro (e | streams)
    · exact .listFailed
    · exact .listed
  | getStream =>
    refine Prog.returns_map _ (Prog.returns_of_rest _ (B := fun a => g.Answers req .getStream (.stream a)) ?_)
      fun _ h => h
    rintro (e | stream)
    · exact .getFailed
    · exact .got
  | deleteStream =>
    refine Prog.returns_map _ (Prog.returns_of_rest _ (B := fun a => g.Answers req .deleteStream (.stream a)) ?_)
      fun _ h => h
    rintro (e | stream)
    · exact .deleteUnknown
    · apply Prog.returns_of_rest
      rintro (_ | e)
      · exact .deleted
      · exact .deleteFailed
  | startStream =>
    refine Prog.returns_map _ (Prog.returns_of_rest _ (B := fun a => g.Answers req .startStream (.stream a)) ?_)
      fun _ h => h
    rintro (e | stream)
    · dsimp only
      split
      · exact .startUnknown
      · exact .startConflict
    · exact .started
  | stopStream =>
    refine Prog.returns_map _ (Prog.returns_of_rest _ (B := fun a => g.Answers req .stopStream (.stream a)) ?_)
      fun _ h => h
    rintro (_ | e)
    · exact .stopped
    · exact .stopFailed
  | refreshToken =>
    refine Prog.returns_map _ (Prog.returns_of_rest _ (B := fun a => g.Answers req .refreshToken (.stream a)) ?_)
      fun _ h => h
    rintro (e | stream)
    · exact .refreshFailed
    · exact .refreshed
  | publish =>
    refine Prog.returns_map _ (Prog.returns_map _ (A := fun r => r = .allow ∨ r = .unauthorized) ?_
      (B := fun a => g.Answers req .publish (.open a)) ?_) fun _ h => h
    · unfold CallbackHandler.publish
      split
      · exact .inl rfl
      · apply Prog.returns_of_rest
        rintro (_ | e)
        · exact .inl rfl
        · exact fun _ => .inr rfl
    · rintro r (rfl | rfl)
      · exact .published
      · exact .publishRefused
  | unpublish =>
    refine hcallback ?_ .unpublished
    unfold CallbackHandler.unpublish
    split
    · rfl
    · exact Prog.returns_of_rest _ fun _ => rfl
  | play =>
    refine hcallback ?_ .played
    unfold CallbackHandler.play
    split
    · rfl
    · exact Prog.returns_of_rest _ fun _ => rfl
  | stop =>
    refine hcallback ?_ .left
    unfold CallbackHandler.stop
    split
    · rfl
    · exact Prog.returns_of_rest _ fun _ => rfl
  | tasks =>
    refine Prog.returns_map _ (Prog.returns_of_rest _ (B := fun a => g.Answers req .tasks (.open a)) ?_)
      fun _ h => h
    rintro (_ | tasks)
    · exact .tasksFailed
    · exact .tasks
  | updateTask =>
    refine Prog.returns_map _ (A := fun a => g.Answers req .updateTask (.open a)) ?_ fun _ h => h
    show (AgentHandler.serveUpdateTask g.bindTaskUpdate param req.body).Returns _
    unfold AgentHandler.serveUpdateTask
    split
    · rename_i hbind
      exact .updateInvalid hbind
    · apply Prog.returns_of_rest
      rintro (_ | _)
      · exact .updateFailed
      · exact .updated
  | heartbeat =>
    refine Prog.returns_map _ (A := fun a => g.Answers req .heartbeat (.open a)) ?_ fun _ h => h
    show (AgentHandler.heartbeat g.bindHeartbeat req.body).Returns _
    unfold AgentHandler.heartbeat
    split
    · rename_i hbind
      exact .heartbeatInvalid hbind
    · exact .heartbeat

/-! ### With routing and middleware -/

variable (g) in
/-- The answers to a request. -/
inductive Served (req : Request) : Answer → Prop
  | noRoute : g.router.find req.method req.path = .noRoute → req.isLabel = true → Served req (.plain 404)
  | panic : g.router.find req.method req.path = .noRoute → req.isLabel = false → Served req (.plain 500)
  | redirect {status : Nat} : g.router.find req.method req.path = .redirect status → Served req (.plain status)
  | refused {r : Route} {params : List Str} {msg : String} : g.router.find req.method req.path = .route r params →
      r.endpoint.guarded = true → ¬ g.Authenticated req → Served req (.refused (.unauthenticated msg))
  | answered {r : Route} {params : List Str} {a : Answer} : g.router.find req.method req.path = .route r params →
      (r.endpoint.guarded = true → g.Authenticated req) → g.Answers req r.endpoint a → Served req a

/-- The middleware has one kind of refusal. -/
theorem jwtAuth_error {lib : JWT.Library} {secret authHeader : Str} {now : Time} {r : Response}
    (h : jwtAuth lib secret now authHeader = .error r) : ∃ msg, r = .unauthenticated msg := by
  unfold jwtAuth at h
  split at h
  · exact ⟨_, (Except.error.inj h).symm⟩
  · split at h
    · exact ⟨_, (Except.error.inj h).symm⟩
    · split at h
      · exact ⟨_, (Except.error.inj h).symm⟩
      · cases h

end Gateway

/-! ### Status and code -/

/-- The code in the JSON of an answer; plain text has none. -/
def Answer.code : Answer → Option Nat
  | .open a => some a.code
  | .stream a => some a.code
  | .refused r => some r.code
  | .plain _ => none

def Answer.hasData : Answer → Bool
  | .open a => a.data.isSome
  | .stream a => a.data.isSome
  | .refused _ => false
  | .plain _ => false

/-- The code that goes with a status. -/
def codeOf : Nat → Option Nat
  | 200 => some 0
  | 400 => some codeInvalidParam
  | 401 => some 1005
  | 403 => some 1005
  | 404 => some codeNotFound
  | 409 => some codeConflict
  | 500 => some codeInternal
  | _ => none

/-- JSON with the code of its status, and data with status 200 only. -/
structure Answer.Coherent (a : Answer) : Prop where
  code : a.code = codeOf a.status
  data : a.hasData = true → a.status = 200

theorem coherent_failure (err : GoError) (msg : String) :
    (Answer.stream (.failure err msg)).Coherent ∧ (StreamAnswer.failure err msg).status ≠ 401 := by
  unfold StreamAnswer.failure
  split
  · exact ⟨⟨rfl, by simp [Answer.hasData, StreamAnswer.error]⟩, by simp [StreamAnswer.error]⟩
  · exact ⟨⟨rfl, by simp [Answer.hasData, StreamAnswer.error]⟩, by simp [StreamAnswer.error]⟩

theorem Gateway.Answers.coherent {g : Gateway} {req : Request} {e : Endpoint} {a : Answer}
    (h : g.Answers req e a) : a.Coherent := by
  cases h with
  | getFailed => exact (coherent_failure _ _).1
  | deleteUnknown => exact (coherent_failure _ _).1
  | stopFailed => exact (coherent_failure _ _).1
  | _ => exact ⟨rfl, by simp [Answer.hasData, Answer.status, LiveServer.Answer.success, LiveServer.Answer.error,
      StreamAnswer.success, StreamAnswer.error, Response.answer]⟩

end LiveServer.Api
