import LiveServer.Api.Answers

/-! What the counters count.

Three counters are for failures, and each goes with one status of one endpoint; one counts
the requests by method, route and status. A request counts before it answers, so a counter
may be ahead of the answers but never behind, and once no request is in flight the two are
equal: no failure is lost or counted twice, whatever is interleaved. -/
namespace LiveServer.Api
open Concurrent Text

/-- A counter and what it counts: the answers of an endpoint with a status. -/
structure Failure where
  vec : CounterVec
  label : Str
  endpoint : Endpoint
  status : Nat
  deriving DecidableEq

def failures : List Failure :=
  [⟨.authFailuresTotal, lit "admin", .login, 401⟩,
   ⟨.authFailuresTotal, lit "play", .playAuth, 403⟩,
   ⟨.srsCallbackErrorsTotal, lit "on_publish", .publish, 403⟩]

namespace Failure
variable (f : Failure)

/-- A call of the service that counts one. -/
def weight : Prog.Event LiveServer.Op LiveServer.Op.Res → Nat
  | ⟨.inc vec label, _⟩ => if vec = f.vec ∧ label = f.label then 1 else 0
  | _ => 0

/-- The same among all calls of the server. -/
def weightApi : Prog.Event Op Op.Res → Nat
  | ⟨.base o, r⟩ => f.weight ⟨o, r⟩
  | _ => 0

/-- The reply is one that is counted. -/
def tells (g : Gateway) : Call → Option Answer → Bool
  | .request req, some a =>
    match g.router.find req.method req.path with
    | .route r _ => r.endpoint = f.endpoint ∧ a.status = f.status
    | _ => false
  | _, _ => false

def read (w : World) : Nat := w.base.metrics.counter f.vec f.label

theorem read_perform (ch : Choice) (o : Op) (w : World) :
    f.read (World.perform ch o w).2 = f.read w + f.weightApi ⟨o, (World.perform ch o w).1⟩ := by
  cases o with
  | base o =>
    show (LiveServer.World.perform ch o w.base).2.metrics.counter f.vec f.label = _
    rw [LiveServer.World.perform_metrics]
    cases o with
    | inc vec label =>
      show (if f.vec = vec ∧ f.label = label then _ else _) = _ + (if vec = f.vec ∧ label = f.label then 1 else 0)
      by_cases h : f.vec = vec ∧ f.label = label
      · rw [if_pos h, if_pos ⟨h.1.symm, h.2.symm⟩]
        rfl
      · rw [if_neg h, if_neg fun h' => h ⟨h'.1.symm, h'.2.symm⟩]
        rfl
    | _ => rfl
  | countRunningFFmpegTasks => rfl
  | setFFmpegProcessesRunning n => rfl
  | incHTTPRequestsTotal m p s => rfl

variable {f}

/-- An endpoint that is not its own counts nothing. -/
theorem weight_permitted (hf : f ∈ failures) {e : Endpoint} (he : e ≠ f.endpoint) {param : Str} {o : LiveServer.Op}
    (r : o.Res) (h : Permitted e param o) : f.weight ⟨o, r⟩ = 0 := by
  cases o with
  | inc vec label =>
    refine if_neg ?_
    rintro ⟨rfl, rfl⟩
    simp only [failures, List.mem_cons, List.not_mem_nil, or_false] at hf
    rcases hf with rfl | rfl | rfl
    · rcases h with ⟨rfl, _⟩ | ⟨_, hl⟩ | ⟨_, hl⟩
      · exact he rfl
      · exact absurd hl (by decide)
      · exact absurd hl (by decide)
    · rcases h with ⟨_, hl⟩ | ⟨rfl, _⟩ | ⟨_, hl⟩
      · exact absurd hl (by decide)
      · exact he rfl
      · exact absurd hl (by decide)
    · exact he h.1
  | _ => rfl

end Failure

/-! ### The endpoints that count -/

section
variable {weight : Prog.Event LiveServer.Op LiveServer.Op.Res → Nat}

theorem tallies_rejectPlay (hone : ∀ r, weight ⟨.inc .authFailuresTotal (lit "play"), r⟩ = 1) (msg : String) :
    (AuthHandler.rejectPlay msg).Tallies weight (fun r => (decide (r.status = 403)).toNat) 0 := by
  intro r
  show 0 + weight _ = 1
  rw [hone]

theorem tallies_playAuth (hone : ∀ r, weight ⟨.inc .authFailuresTotal (lit "play"), r⟩ = 1) (s : StreamService)
    (now : Time) (key sign expire : Str) :
    (AuthHandler.playAuth s now key sign expire).Tallies weight
      (fun r => (decide (r.status = 403)).toNat) 0 := by
  have hreject (msg : String) := tallies_rejectPlay hone msg
  unfold AuthHandler.playAuth
  split
  · exact hreject _
  · split
    · exact hreject _
    · split
      · exact hreject _
      · split
        · exact hreject _
        · exact rfl

theorem tallies_login (hone : ∀ r, weight ⟨.inc .authFailuresTotal (lit "admin"), r⟩ = 1) (g : Gateway)
    (now : Time) (body : Str) :
    (AuthHandler.login g.authCfg g.bindLogin g.handlers.signedString now body).Tallies weight
      (fun a => (decide (a.status = 401)).toNat) 0 := by
  unfold AuthHandler.login
  split
  · exact rfl
  · split
    · intro r
      show 0 + weight _ = 1
      rw [hone]
    · split <;> exact rfl

theorem tallies_publish (hone : ∀ r, weight ⟨.inc .srsCallbackErrorsTotal (lit "on_publish"), r⟩ = 1)
    (hnone : ∀ o r, o ≠ .inc .srsCallbackErrorsTotal (lit "on_publish") → weight ⟨o, r⟩ = 0)
    (bind : Str → Option SrsCallback) (s : StreamService) (now : Time) (body : Str) :
    (CallbackHandler.publish bind s now body).Tallies weight (fun r => (decide (r.status = 403)).toNat) 0 := by
  unfold CallbackHandler.publish
  split
  · exact rfl
  · rename_i cb _
    -- nothing in the service counts what the handler counts
    have hquiet : (s.onPublish now (parsePushAuth cb.stream cb.param).1
        (parsePushAuth cb.stream cb.param).2.1).Every fun o =>
          o ≠ .inc .srsCallbackErrorsTotal (lit "on_publish") :=
      s.every_onPublish (by simp) (by decide) (by simp) (by simp) (by simp) (by simp)
    refine hquiet.tallies_bind hnone ?_
    rintro (_ | e)
    · exact rfl
    · intro r
      show 0 + weight _ = 1
      rw [hone]

/-- What an endpoint for SRS and Nginx counts, the answer tells. -/
theorem tallies_open {p : Server Response} {status : Nat}
    (h : p.Tallies weight (fun r => (decide (r.status = status)).toNat) 0) :
    (Answer.open <$> Response.answer <$> p).Tallies weight (fun a => (decide (a.status = status)).toNat) 0 := by
  have hanswer : (Response.answer <$> p).Tallies weight (fun a => (decide (a.status = status)).toNat) 0 :=
    Prog.tallies_map _ h fun _ => rfl
  exact Prog.tallies_map _ hanswer fun _ => rfl

end

namespace Gateway
variable {g : Gateway} {f : Failure}

/-- A handler counts what its answer tells. -/
theorem handle_tallies (hf : f ∈ failures) (req : Request) (param : Str) (e : Endpoint) :
    (g.handle req param e).Tallies f.weight (fun a => (decide (e = f.endpoint ∧ a.status = f.status)).toNat) 0 := by
  by_cases he : e = f.endpoint
  · subst he
    simp only [true_and]
    simp only [failures, List.mem_cons, List.not_mem_nil, or_false] at hf
    rcases hf with rfl | rfl | rfl
    · exact Prog.tallies_map _ (tallies_login (fun _ => rfl) g _ _) fun _ => rfl
    · exact tallies_open (tallies_playAuth (fun _ => rfl) _ _ _ _ _)
    · refine tallies_open (tallies_publish (fun _ => rfl) ?_ _ _ _ _)
      intro o r ho
      cases o with
      | inc vec label => exact if_neg fun h => ho (by rw [h.1, h.2])
      | _ => rfl
  · refine (g.handle_permitted req param e).tallies (fun o r h => f.weight_permitted hf he r h) ?_
    exact Prog.returns_of_forall (fun a => by simp [he]) _

theorem serveRoute_tallies (hf : f ∈ failures) (req : Request) (r : Route) (params : List Str) :
    (g.serveRoute req r params).Tallies f.weight
      (fun a => (decide (r.endpoint = f.endpoint ∧ a.status = f.status)).toNat) 0 := by
  unfold serveRoute
  split
  · rename_i hguard
    split
    · -- none of the endpoints is behind the middleware
      have hne : r.endpoint ≠ f.endpoint := by
        intro he
        rw [he] at hguard
        simp only [failures, List.mem_cons, List.not_mem_nil, or_false] at hf
        rcases hf with rfl | rfl | rfl <;> exact absurd hguard (by decide)
      show 0 = Bool.toNat _
      simp [hne]
    · exact handle_tallies hf req _ _
  · exact handle_tallies hf req _ _

/-- So does a request, whose own count is another one, -/
theorem serve_tallies (hf : f ∈ failures) (req : Request) :
    (g.serve req).Tallies f.weightApi (fun a => (f.tells g (.request req) (some a)).toNat) 0 := by
  rcases g.serve_cases req with ⟨_, hroute, h⟩ | ⟨hroute, _, h⟩ | ⟨hroute, _, h⟩ | ⟨r, params, hroute, h⟩
  · rw [h]
    show 0 = Bool.toNat (f.tells g _ _)
    simp [Failure.tells, hroute]
  · rw [h]
    intro r
    show 0 = Bool.toNat (f.tells g _ _)
    simp [Failure.tells, hroute]
  · rw [h]
    show 0 = Bool.toNat (f.tells g _ _)
    simp [Failure.tells, hroute]
  · rw [h]
    have htells (a : Answer) : f.tells g (.request req) (some a) =
        decide (r.endpoint = f.endpoint ∧ a.status = f.status) := by
      simp [Failure.tells, hroute]
    have hbase : (base (g.serveRoute req r params)).Tallies f.weightApi
        (fun a => (f.tells g (.request req) (some a)).toNat) 0 := by
      simp only [htells]
      refine Prog.tallies_lift ?_ (serveRoute_tallies hf req r params)
      intro o res
      rfl
    exact Prog.tallies_bind hbase fun a _ => rfl

/-- and so does every call of the server. -/
theorem body_tallies (hf : f ∈ failures) (call : Call) :
    (g.body call).Tallies f.weightApi (fun a => (f.tells g call a).toNat) 0 := by
  have hnone (hcall : ∀ a, f.tells g call a = false) (hallowed : ∀ o r, g.Allowed call o → f.weightApi ⟨o, r⟩ = 0) :
      (g.body call).Tallies f.weightApi (fun a => (f.tells g call a).toNat) 0 :=
    (g.body_allowed call).tallies hallowed (Prog.returns_of_forall (fun a => by rw [hcall]; rfl) _)
  cases call with
  | request req => exact Prog.tallies_map _ (serve_tallies hf req) fun _ => rfl
  | _ =>
    refine hnone (fun a => rfl) ?_
    intro o r h
    cases o with
    | base o =>
      cases o with
      | inc vec label => exact h.elim
      | _ => rfl
    | _ => rfl

end Gateway

/-- **Failures are counted exactly once**: along every run, of whatever requests and jobs
interleaved, each counter has gone up by at least the number of failures that were answered,
and by exactly that number when nothing is in flight. -/
theorem failures_counted {g : Gateway} {w : World} {ts : List ApiTransition}
    (h : g.machine.Trace (.start w) ts) {f : Failure} (hf : f ∈ failures) :
    let answered := (Machine.final (.start w) ts).threads.countP (Thread.ended (f.tells g))
    f.read w + answered ≤ f.read (Machine.final (.start w) ts).world ∧
      ((Machine.final (.start w) ts).Quiescent →
        f.read (Machine.final (.start w) ts).world = f.read w + answered) := by
  dsimp only
  rw [← Config.tally_eq_countP]
  constructor
  · exact h.tally_le rfl (Gateway.body_tallies hf) f.read_perform
  · intro hquiet
    exact h.tally_eq rfl (Gateway.body_tallies hf) f.read_perform hquiet

/-- Three logins, the second of which succeeds. -/
theorem failures_counted_logins : ∃ ts, Gateway.sample.machine.Trace (.start .empty) ts ∧
    (Machine.final (.start .empty) ts).Quiescent ∧
    (Machine.final (.start .empty) ts).world.base.metrics.counter .authFailuresTotal (lit "admin") = 2 := by
  let login (password : String) : Call × (Nat → Choice) :=
    (.request { sampleRequest .post "/api/auth/login" with body := lit password }, fun _ => {})
  obtain ⟨ts, htr, hfin⟩ := Machine.exists_trace_serve Gateway.sample.machine (.start .empty)
    [login "a", login "pw", login "b"]
  have hquiet : (Machine.final (.start .empty) ts).Quiescent := by
    rw [hfin]
    intro th hth
    exact Machine.serve_pending hth
  refine ⟨ts, htr, hquiet, ?_⟩
  have hcount := (failures_counted htr (f := ⟨.authFailuresTotal, lit "admin", .login, 401⟩) (by decide)).2 hquiet
  refine hcount.trans ?_
  rw [hfin]
  decide +kernel

/-! ### Requests -/

/-- What a request is counted under: its route, or its path where it has none and the path
can be a label. -/
def Gateway.label (g : Gateway) (req : Request) : Option Str :=
  match g.router.find req.method req.path with
  | .route r _ => some r.template
  | .noRoute => if req.isLabel then some req.path else none
  | .redirect _ => none

def requestCount (method path : Str) (status : Nat) (w : World) : Nat := w.httpRequestsTotal method path status

/-- A call that counts a request under the three labels. -/
def requestWeight (method path : Str) (status : Nat) : Prog.Event Op Op.Res → Nat
  | ⟨.incHTTPRequestsTotal m p s, _⟩ => if method = m ∧ path = p ∧ status = s then 1 else 0
  | _ => 0

/-- The call is a request with an answer that belongs there. -/
def belongs (g : Gateway) (method path : Str) (status : Nat) : Call → Option Answer → Bool
  | .request req, some a => req.method.name = method ∧ g.label req = some path ∧ a.status = status
  | _, _ => false

section
variable {g : Gateway} {method path : Str} {status : Nat}

theorem requestCount_perform (ch : Choice) (o : Op) (w : World) :
    requestCount method path status (World.perform ch o w).2 = requestCount method path status w +
      requestWeight method path status ⟨o, (World.perform ch o w).1⟩ := by
  cases o with
  | incHTTPRequestsTotal m p s =>
    show (if method = m ∧ path = p ∧ status = s then _ else _) = _ +
      (if method = m ∧ path = p ∧ status = s then 1 else 0)
    split <;> rfl
  | _ => rfl

/-- The step that counts a request. -/
theorem counts_request (req : Request) {label : Str} (hlabel : g.label req = some label) (a : Answer) :
    (do incHTTPRequestsTotal req.method.name label a.status; return a : Program Answer).Tallies
      (requestWeight method path status)
      (fun a => (belongs g method path status (.request req) (some a)).toNat) 0 := by
  intro r
  show 0 + (if method = req.method.name ∧ path = label ∧ status = a.status then 1 else 0) =
    (decide (req.method.name = method ∧ g.label req = some path ∧ a.status = status)).toNat
  simp only [hlabel, Option.some.injEq, Nat.zero_add]
  by_cases h : method = req.method.name ∧ path = label ∧ status = a.status
  · rw [if_pos h, decide_eq_true ⟨h.1.symm, h.2.1.symm, h.2.2.symm⟩]
    rfl
  · rw [if_neg h, decide_eq_false fun h' => h ⟨h'.1.symm, h'.2.1.symm, h'.2.2.symm⟩]
    rfl

theorem serve_counts (req : Request) :
    (g.serve req).Tallies (requestWeight method path status)
      (fun a => (belongs g method path status (.request req) (some a)).toNat) 0 := by
  rcases g.serve_cases req with
    ⟨_, hroute, h⟩ | ⟨hroute, hlabel, h⟩ | ⟨hroute, hlabel, h⟩ | ⟨r, params, hroute, h⟩
  · rw [h]
    show 0 = Bool.toNat (belongs g _ _ _ _ _)
    simp [belongs, Gateway.label, hroute]
  · rw [h]
    exact counts_request req (by simp [Gateway.label, hroute, hlabel]) (.plain 404)
  · rw [h]
    show 0 = Bool.toNat (belongs g _ _ _ _ _)
    simp [belongs, Gateway.label, hroute, hlabel]
  · rw [h]
    have hbase : (base (g.serveRoute req r params)).Every fun o => ∃ o', o = .base o' :=
      Prog.every_lift ((g.serveRoute_permitted req r params).mono fun o _ => ⟨o, rfl⟩)
    refine hbase.tallies_bind ?_ fun a => counts_request req (by simp [Gateway.label, hroute]) a
    rintro _ res ⟨o, rfl⟩
    rfl

theorem body_counts (call : Call) :
    (g.body call).Tallies (requestWeight method path status)
      (fun a => (belongs g method path status call a).toNat) 0 := by
  cases call with
  | request req => exact Prog.tallies_map _ (serve_counts req) fun _ => rfl
  | _ =>
    refine (g.body_allowed _).tallies ?_ (Prog.returns_of_forall (fun a => rfl) _)
    intro o r h
    cases o with
    | incHTTPRequestsTotal m p s => exact h.elim
    | _ => rfl

end

/-- **Requests are counted exactly once**, under method, route and status: along every run at
least those that were answered, and exactly those when nothing is in flight. What the router
redirects is not counted, nor is a path without a route that is not UTF-8. -/
theorem requests_counted {g : Gateway} {w : World} {ts : List ApiTransition}
    (h : g.machine.Trace (.start w) ts) (method path : Str) (status : Nat) :
    let answered := (Machine.final (.start w) ts).threads.countP (Thread.ended (belongs g method path status))
    requestCount method path status w + answered ≤
        requestCount method path status (Machine.final (.start w) ts).world ∧
      ((Machine.final (.start w) ts).Quiescent →
        requestCount method path status (Machine.final (.start w) ts).world =
          requestCount method path status w + answered) := by
  dsimp only
  rw [← Config.tally_eq_countP]
  constructor
  · exact h.tally_le rfl body_counts requestCount_perform
  · intro hquiet
    exact h.tally_eq rfl body_counts requestCount_perform hquiet

/-- A health check, one with a slash too much, a path that is nowhere, and one that is no
text. -/
theorem requests_counted_paths : ∃ ts, Gateway.sample.machine.Trace (.start .empty) ts ∧
    requestCount (lit "GET") (lit "/api/health") 200 (Machine.final (.start .empty) ts).world = 1 ∧
    requestCount (lit "GET") (lit "/api/nowhere") 404 (Machine.final (.start .empty) ts).world = 1 := by
  let get (path : String) : Call × (Nat → Choice) := (.request (sampleRequest .get path), fun _ => {})
  obtain ⟨ts, htr, hfin⟩ := Machine.exists_trace_serve Gateway.sample.machine (.start .empty)
    [get "/api/health", get "/api/health/", get "/api/nowhere",
      (.request { sampleRequest .get "" with path := [47, 255] }, fun _ => {})]
  have hquiet : (Machine.final (.start .empty) ts).Quiescent := by
    rw [hfin]
    intro th hth
    exact Machine.serve_pending hth
  refine ⟨ts, htr, ((requests_counted htr _ _ _).2 hquiet).trans ?_, ((requests_counted htr _ _ _).2 hquiet).trans ?_⟩
  · rw [hfin]
    decide +kernel
  · rw [hfin]
    decide +kernel

end LiveServer.Api
