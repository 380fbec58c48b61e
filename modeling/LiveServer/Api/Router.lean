import LiveServer.Text.Query

/-! The routes of the API.

`routes` is the table that `main` registers. What gin makes of a method and a path is a
parameter, `Router`, of which only this is used: it returns what is registered, and its
redirects are those for a slash at the end of a path. `Router.sample` is a router of that
kind to run: a template is matched segment by segment, and a segment that starts with a
colon stands for any text that is not empty. -/
namespace LiveServer.Api
open Text

inductive Method where
  | get
  | post
  | put
  | delete
  /-- Any other, of which there is no route. -/
  | other (name : Str)
  deriving DecidableEq, Repr

def Method.name : Method → Str
  | .get => lit "GET"
  | .post => lit "POST"
  | .put => lit "PUT"
  | .delete => lit "DELETE"
  | .other name => name

inductive Endpoint where
  | health
  | playback
  | login
  | playAuth
  | createStream
  | listStreams
  | getStream
  | deleteStream
  | startStream
  | stopStream
  | refreshToken
  | publish
  | unpublish
  | play
  | stop
  | tasks
  | updateTask
  | heartbeat
  deriving DecidableEq, Repr

structure Route where
  method : Method
  template : Str
  endpoint : Endpoint
  deriving DecidableEq, Repr

def routes : List Route :=
  [⟨.get, lit "/api/health", .health⟩,
   ⟨.get, lit "/api/playback/:stream_key", .playback⟩,
   ⟨.post, lit "/api/auth/login", .login⟩,
   ⟨.get, lit "/api/auth/play", .playAuth⟩,
   ⟨.post, lit "/api/streams", .createStream⟩,
   ⟨.get, lit "/api/streams", .listStreams⟩,
   ⟨.get, lit "/api/streams/:id", .getStream⟩,
   ⟨.delete, lit "/api/streams/:id", .deleteStream⟩,
   ⟨.post, lit "/api/streams/:id/start", .startStream⟩,
   ⟨.post, lit "/api/streams/:id/stop", .stopStream⟩,
   ⟨.post, lit "/api/streams/:id/refresh-token", .refreshToken⟩,
   ⟨.post, lit "/api/callback/publish", .publish⟩,
   ⟨.post, lit "/api/callback/unpublish", .unpublish⟩,
   ⟨.post, lit "/api/callback/play", .play⟩,
   ⟨.post, lit "/api/callback/stop", .stop⟩,
   ⟨.get, lit "/api/agent/tasks", .tasks⟩,
   ⟨.put, lit "/api/agent/tasks/:id", .updateTask⟩,
   ⟨.post, lit "/api/agent/heartbeat", .heartbeat⟩]

/-- The group of routes with the JWT middleware. -/
def Endpoint.guarded : Endpoint → Bool
  | .createStream | .listStreams | .getStream | .deleteStream | .startStream | .stopStream
  | .refreshToken => true
  | _ => false

/-! ### Matching, for the sample -/

def isParam (segment : Str) : Bool := segment.head? = some 58

/-- The values of the parameters, if the segments match. -/
def matchSegments : List Str → List Str → Option (List Str)
  | [], [] => some []
  | t :: ts, s :: ss =>
    if isParam t then
      if s = [] then none else (matchSegments ts ss).map (s :: ·)
    else if t = s then matchSegments ts ss
    else none
  | _, _ => none

def Route.accepts (r : Route) (method : Method) (path : Str) : Option (List Str) :=
  if r.method = method then matchSegments (pieces 47 r.template) (pieces 47 path) else none

/-- Where a request goes. -/
inductive Target where
  | route (r : Route) (params : List Str)
  | redirect (status : Nat)
  | noRoute
  deriving DecidableEq, Repr

/-- The route of a request with its parameters. -/
def lookup (method : Method) (path : Str) : Option (Route × List Str) :=
  routes.findSome? fun r => (r.accepts method path).map (r, ·)

def route (method : Method) (path : Str) : Target :=
  match lookup method path with
  | some (r, params) => .route r params
  | none =>
    if 1 < path.length ∧ path.getLast? = some 47 ∧ (lookup method path.dropLast).isSome then
      .redirect (if method = .get then 301 else 307)
    else .noRoute

/-! ### The router -/

/-- The router is gin's: it returns routes of the table under their method, and redirects
where a slash at the end is all that is missing or too much. -/
structure Router where
  find : Method → Str → Target
  registered : ∀ {method : Method} {path : Str} {r : Route} {params : List Str},
    find method path = .route r params → r ∈ routes ∧ r.method = method
  redirected : ∀ {method : Method} {path : Str} {status : Nat},
    find method path = .redirect status → status = if method = .get then 301 else 307

/-- A router that matches segment by segment. -/
def Router.sample : Router where
  find := route
  registered := by
    intro method path r params h
    unfold route at h
    split at h
    · rename_i r' ps hlookup
      cases h
      obtain ⟨x, hx, hmap⟩ := List.exists_of_findSome?_eq_some hlookup
      obtain ⟨qs, hqs, heq⟩ := Option.map_eq_some_iff.mp hmap
      cases heq
      unfold Route.accepts at hqs
      split at hqs
      · exact ⟨hx, ‹_›⟩
      · cases hqs
    · split at h <;> cases h
  redirected := by
    intro method path status h
    unfold route at h
    split at h
    · cases h
    · split at h
      · exact (Target.redirect.inj h).symm
      · cases h

/-- What the table has is UTF-8. -/
theorem validUTF8_routes : ∀ r ∈ routes, validUTF8 r.method.name = true ∧ validUTF8 r.template = true := by
  decide

end LiveServer.Api
