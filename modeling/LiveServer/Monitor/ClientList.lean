import LiveServer.Adapter.SRS
import LiveServer.Monitor.Check
import LiveServer.Viewers.Polling

/-! Three readings of the clients of SRS.

The server looks for the publisher of a stream and counts viewers, the monitor collects
the streams that have a publisher. Each goes through the same list with a loop of its own:
a first match, a set, a count per key. -/
namespace LiveServer
open Loops

/-- The publishers among the clients of a stream. -/
def publishersOf (clients : List SRSClient) (stream : Str) : Nat :=
  clients.countP fun c => c.stream = stream && c.type = lit "RTMP publisher"

section
variable {clients : List SRSClient} {k : Str}

/-- A stream has a publisher where the search finds one. -/
theorem isSome_publisher :
    (World.publisher clients k).isSome ↔ ∃ c ∈ clients, c.stream = k ∧ c.type = lit "RTMP publisher" := by
  unfold World.publisher
  rw [List.find?_isSome]
  simp

/-- What is found is the first one there is. -/
theorem publisher_eq_some {c : SRSClient} (h : World.publisher clients k = some c) :
    (c.stream = k ∧ c.type = lit "RTMP publisher") ∧ ∃ before after, clients = before ++ c :: after ∧
      ∀ c' ∈ before, ¬ (c'.stream = k ∧ c'.type = lit "RTMP publisher") := by
  obtain ⟨hc, before, after, hclients, hbefore⟩ := List.find?_eq_some_iff_append.mp h
  constructor
  · simpa using hc
  · refine ⟨before, after, hclients, ?_⟩
    intro c' hc' ⟨hs, ht⟩
    have hnot := hbefore c' hc'
    simp [hs, ht] at hnot

/-- A client of a stream is a publisher or a viewer of it. -/
theorem viewersOf_add_publishersOf :
    viewersOf clients k + publishersOf clients k = clients.countP (·.stream = k) := by
  unfold viewersOf publishersOf
  induction clients with
  | nil => rfl
  | cons c rest ih =>
    simp only [List.countP_cons]
    rw [← ih]
    by_cases hs : c.stream = k
    · by_cases ht : c.type = lit "RTMP publisher"
      · simp only [hs, ht, decide_true, Bool.and_true, if_true, ne_eq, not_true_eq_false, decide_false,
          Bool.and_false, Bool.false_eq_true, if_false]
        omega
      · simp only [hs, ht, decide_true, decide_false, Bool.and_false, Bool.false_eq_true, if_false,
          ne_eq, not_false_eq_true, Bool.and_true, if_true]
        omega
    · simp [hs]

/-- All viewers and all publishers are all clients of a stream. -/
theorem total_countViewers :
    (countViewers clients).total +
        clients.countP (fun c => c.stream ≠ [] && c.type = lit "RTMP publisher") =
      clients.countP (·.stream ≠ []) := by
  unfold countViewers
  rw [Counter.total_foldl_inc (fun c : SRSClient => c.stream ≠ [] && c.type ≠ lit "RTMP publisher")
    (·.stream)]
  show 0 + _ + _ = _
  rw [Nat.zero_add]
  induction clients with
  | nil => rfl
  | cons c rest ih =>
    simp only [List.countP_cons]
    rw [← ih]
    by_cases ht : c.type = lit "RTMP publisher"
    · simp only [ht, decide_true, ne_eq, not_true_eq_false, decide_false, Bool.and_false, Bool.and_true,
        Bool.false_eq_true, if_false]
      omega
    · simp only [ht, decide_false, Bool.and_false, Bool.false_eq_true, if_false, ne_eq,
        not_false_eq_true, decide_true, Bool.and_true]
      omega

end

/-- **The readings agree**: of one list of clients, whichever request it came with, the
monitor's streams are those for which the server finds a publisher, each once and the first
in the list, and viewers and publishers together are the clients. -/
theorem client_list_readings_agree (cfg : Monitor.Config) (order : MapOrder Str)
    (obs : Monitor.Observation) (clients : List SRSClient) (status serverStatus : Nat) (text : String)
    (hstatus : status < 400)
    (hobs : obs.clients (Text.trimRight 47 cfg.srsAPI ++ lit "/api/v1/clients") =
      some ⟨status, some (0, some clients)⟩) :
    let resp : SRSAPI.Response (List SRSClient) := ⟨serverStatus, text, true, some (0, some clients)⟩
    ∃ keys, Monitor.publishingStreamKeys cfg order obs = .ok keys ∧ keys.Nodup ∧
      (∀ k, k ≠ [] → ∃ found, SRSAPI.findPublishingClient k (some resp) = .ok found ∧
        (found.isSome ↔ k ∈ keys) ∧
        ∀ c, found = some c → (c.stream = k ∧ c.type = lit "RTMP publisher") ∧
          ∃ before after, clients = before ++ c :: after ∧
            ∀ c' ∈ before, ¬ (c'.stream = k ∧ c'.type = lit "RTMP publisher")) ∧
      SRSAPI.listAllClients (some resp) = .ok clients ∧
      (∀ k, k ≠ [] → (countViewers clients).value k + publishersOf clients k =
        clients.countP (·.stream = k)) ∧
      (countViewers clients).total +
          clients.countP (fun c => c.stream ≠ [] && c.type = lit "RTMP publisher") =
        clients.countP (·.stream ≠ []) := by
  intro resp
  obtain ⟨hnodup, hmem⟩ := Monitor.streams_spec cfg order obs
  have hkeys : Monitor.publishingStreamKeys cfg order obs = .ok (obs.streams cfg order) := by
    unfold Monitor.Observation.streams Monitor.publishingStreamKeys
    rw [hobs]
    simp [Nat.not_le.mpr hstatus]
  refine ⟨obs.streams cfg order, hkeys, hnodup, ?_, SRSAPI.listAllClients_decoded .., ?_,
    total_countViewers⟩
  · intro k hk
    refine ⟨World.publisher clients k, SRSAPI.findPublishingClient_decoded .., ?_, ?_⟩
    · rw [hmem k, isSome_publisher]
      unfold Monitor.Observation.Publishes
      rw [hobs]
      constructor
      · intro ⟨c, hc, hs, ht⟩
        exact ⟨status, clients, rfl, hstatus, hk, c, hc, ht, hs⟩
      · intro ⟨_, clients', heq, _, _, c, hc, ht, hs⟩
        cases heq
        exact ⟨c, hc, hs, ht⟩
    · intro c hc
      exact publisher_eq_some hc
  · intro k hk
    rw [countViewers_value hk]
    exact viewersOf_add_publishersOf

/-- A publisher of each of two streams, a second one, viewers and a client without a stream. -/
def sampleClients : List SRSClient :=
  [⟨lit "1", lit "b", lit "RTMP player"⟩, ⟨lit "2", lit "a", lit "RTMP publisher"⟩,
   ⟨lit "3", [], lit "RTMP publisher"⟩, ⟨lit "4", lit "a", lit "RTMP publisher"⟩,
   ⟨lit "5", lit "b", lit "RTMP publisher"⟩, ⟨lit "6", lit "a", lit "RTMP player"⟩]

theorem client_list_readings_agree_sample :
    ∃ keys, Monitor.publishingStreamKeys ⟨[], [], [], [], fun _ _ => none, fun _ => none⟩ .asFound
        { health := fun _ => none, dial := fun _ => false, playlist := fun _ _ => none,
          segment := fun _ _ => none, clients := fun _ => some ⟨200, some (0, some sampleClients)⟩ } =
        .ok keys ∧ keys.Nodup ∧ (lit "a" ∈ keys) ∧
      (countViewers sampleClients).value (lit "a") + publishersOf sampleClients (lit "a") = 3 := by
  obtain ⟨keys, hkeys, hnodup, hfound, _, hcount, _⟩ := client_list_readings_agree
    ⟨[], [], [], [], fun _ _ => none, fun _ => none⟩ .asFound
    { health := fun _ => none, dial := fun _ => false, playlist := fun _ _ => none,
      segment := fun _ _ => none, clients := fun _ => some ⟨200, some (0, some sampleClients)⟩ }
    sampleClients 200 200 "" (by decide) rfl
  obtain ⟨found, hfind, hiff, _⟩ := hfound (lit "a") (by decide)
  have hsome : found = some ⟨lit "2", lit "a", lit "RTMP publisher"⟩ := by
    cases hfind
    decide
  refine ⟨keys, hkeys, hnodup, hiff.mp (by rw [hsome]; rfl), ?_⟩
  rw [hcount (lit "a") (by decide)]
  decide

end LiveServer
