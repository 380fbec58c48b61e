import LiveServer.Monitor.Grammar

/-! What the series of the monitor say about a stream after a check.

A stream whose gauges are not all 0 or absent is in the set of seen streams, so it is
cleared by the first check that does not find it publishing: no series calls a stream
healthy that is not on. But a reset writes zeros and never removes a series, and a
failed check leaves the segment count and the target duration as they were: what two
monitors show after the same check is the same only where they agreed on these. -/
namespace LiveServer.Monitor
open Loops

section
variable {cfg : Config} {obs : Observation} {order : MapOrder Str} {m : State} {k : Str}

/-! ### Only seen streams have something to say -/

/-- No series of the stream says anything but 0. -/
def Series.Quiet (x : Series) : Prop := ∀ g, x.gauge g = none ∨ x.gauge g = some (.count 0)

theorem quiet_cleared : Series.cleared.Quiet := fun _ => .inr rfl

/-- A stream in the set has all four series; what is not in the set is quiet. -/
structure Series.Settled (x : Series) : Prop where
  shown : x.seen → ∀ g, x.gauge g ≠ none
  quiet : ¬ x.seen → x.Quiet

theorem settled_cleared : Series.cleared.Settled := ⟨False.elim, fun _ => quiet_cleared⟩

theorem settled_checked {x : Series} (hx : x.Settled) : (x.checked cfg obs k).Settled := by
  cases hfetch : fetchPlaylist cfg obs k with
  | error e =>
    simp only [Series.checked, hfetch]
    constructor
    · intro hseen g
      cases g with
      | playlistUp => exact Option.some_ne_none _
      | latestSegmentUp => exact Option.some_ne_none _
      | playlistSegments => exact hx.shown hseen _
      | playlistTargetDuration => exact hx.shown hseen _
    · intro hseen g
      cases g with
      | playlistUp => exact .inr rfl
      | latestSegmentUp => exact .inr rfl
      | playlistSegments => exact hx.quiet hseen _
      | playlistTargetDuration => exact hx.quiet hseen _
  | ok p =>
    simp only [Series.checked, hfetch]
    constructor
    · intro _ g
      cases g <;> exact Option.some_ne_none _
    · exact fun hseen => absurd trivial hseen

theorem settled_checkOnce (h : (m.series k).Settled) :
    ((m.checkOnce cfg order obs).series k).Settled := by
  rw [series_checkOnce]
  split
  · exact settled_checked h
  · split
    · exact settled_cleared
    · exact h

theorem settled_run (cfg : Config) (h : History) (k : Str) : ((h.run cfg).series k).Settled := by
  have hfold : ∀ m : State, (m.series k).Settled →
      ((h.foldl (fun m check => m.checkOnce cfg check.1 check.2) m).series k).Settled := by
    induction h with
    | nil => exact fun m hm => hm
    | cons check rest ih =>
      intro m hm
      exact ih _ (settled_checkOnce hm)
  exact hfold .initial ⟨fun hseen => absurd hseen List.not_mem_nil, fun _ _ => .inl rfl⟩

/-! ### A playlist that is up -/

/-- The request for the playlist of a stream is answered with success, the body is read to
its end, the scanner can hold each of its lines, and one of them names a media segment. -/
structure Fetched.Healthy (resp : Fetched) : Prop where
  status : 200 ≤ resp.status ∧ resp.status < 400
  complete : resp.complete = true
  lines : ∀ line ∈ Text.pieces 10 resp.body, line.length < Text.maxScanTokenSize
  media : ∃ line ∈ Text.pieces 10 resp.body, isMedia (Text.trimSpace line) = true

def Observation.HasPlaylist (cfg : Config) (obs : Observation) (k : Str) : Prop :=
  ∃ resp, obs.playlist k (playlistURL cfg k) = some resp ∧ resp.Healthy

theorem isMedia_ne_nil {core : Str} (h : isMedia core = true) : core ≠ [] := by
  intro hnil
  rw [hnil] at h
  exact absurd h (by decide)

/-- The loop over the lines counts no segment exactly if no line names one. -/
theorem segments_eq_zero (parseFloat : Str → Option UInt64) (lines : List Str) :
    (lines.foldl (Playlist.read parseFloat) {}).segments = 0 ↔
      ∀ core ∈ lines.map Text.trimSpace, ¬ isMedia core = true := by
  rw [foldl_read]
  show 0 + _ = 0 ↔ _
  rw [Nat.zero_add, List.length_eq_zero_iff, List.filter_eq_nil_iff]

/-- What is parsed without an error is a playlist with all its lines and a segment. -/
theorem parsePlaylist_none (parseFloat : Str → Option UInt64) (resp : Fetched) :
    (parsePlaylist parseFloat resp).2 = none ↔ resp.complete = true ∧
      (∀ line ∈ Text.pieces 10 resp.body, line.length < Text.maxScanTokenSize) ∧
      ∃ line ∈ Text.pieces 10 resp.body, isMedia (Text.trimSpace line) = true := by
  unfold parsePlaylist
  rcases Text.scanLines_spec resp.body with ⟨hscan, line, hline, hlong⟩ | ⟨lines, hscan, hfits, hcores⟩
  · rw [hscan]
    constructor
    · intro h
      cases h
    · intro h
      exact absurd (h.2.1 line hline) (Nat.not_lt.mpr hlong)
  · rw [hscan]
    -- the lines that were scanned name a segment where those of the body do
    have hmedia : (∃ core ∈ lines.map Text.trimSpace, isMedia core = true) ↔
        ∃ line ∈ Text.pieces 10 resp.body, isMedia (Text.trimSpace line) = true := by
      constructor
      · intro ⟨core, hcore, hm⟩
        obtain ⟨line, hline, rfl⟩ := List.mem_map.mp ((hcores core (isMedia_ne_nil hm)).mp hcore)
        exact ⟨line, hline, hm⟩
      · intro ⟨line, hline, hm⟩
        exact ⟨_, (hcores _ (isMedia_ne_nil hm)).mpr (List.mem_map_of_mem hline), hm⟩
    cases hcomplete : resp.complete with
    | false => simp
    | true =>
      by_cases hzero : (lines.foldl (Playlist.read parseFloat) {}).segments = 0
      · have hnone := (segments_eq_zero parseFloat lines).mp hzero
        simp only [Bool.not_true, Bool.false_eq_true, if_false, hzero, if_true]
        constructor
        · intro h
          cases h
        · intro h
          obtain ⟨core, hcore, hm⟩ := hmedia.mpr h.2.2
          exact absurd hm (hnone core hcore)
      · have hsome := mt (segments_eq_zero parseFloat lines).mpr hzero
        simp only [not_forall, not_not] at hsome
        obtain ⟨core, hcore, hm⟩ := hsome
        simp only [Bool.not_true, Bool.false_eq_true, if_false, hzero, true_iff, true_and]
        exact ⟨hfits, hmedia.mp ⟨core, hcore, hm⟩⟩

theorem isOk_fetchPlaylist (cfg : Config) (obs : Observation) (k : Str) :
    (fetchPlaylist cfg obs k).isOk = true ↔ obs.HasPlaylist cfg k := by
  unfold fetchPlaylist Observation.HasPlaylist
  cases obs.playlist k (playlistURL cfg k) with
  | none => simp
  | some resp =>
    have hparsed := parsePlaylist_none cfg.parseFloat resp
    have hhealthy : (∃ r, some resp = some r ∧ r.Healthy) ↔
        (200 ≤ resp.status ∧ resp.status < 400) ∧ (parsePlaylist cfg.parseFloat resp).2 = none := by
      rw [hparsed]
      constructor
      · intro ⟨r, heq, hr⟩
        cases heq
        exact ⟨hr.status, hr.complete, hr.lines, hr.media⟩
      · intro ⟨hstatus, hcomplete, hlines, hmedia⟩
        exact ⟨resp, rfl, hstatus, hcomplete, hlines, hmedia⟩
    rw [hhealthy]
    dsimp only
    by_cases hstatus : resp.status < 200 ∨ 400 ≤ resp.status
    · rw [if_pos hstatus, isOk_error]
      constructor
      · intro h
        cases h
      · intro h
        omega
    · rw [if_neg hstatus]
      obtain ⟨p, err⟩ := parsePlaylist cfg.parseFloat resp
      cases err with
      | some e => simp
      | none =>
        simp only [isOk_ok, and_true, true_iff]
        omega

/-- **A stream that is not publishing is never reported healthy**: after a check its four
series are absent or 0. For a publishing stream the playlist is up if in this check its
playlist was fetched and holds a segment, and down if not. -/
theorem healthy_only_publishing (cfg : Config) (h : History) (order : MapOrder Str)
    (obs : Observation) (k : Str) :
    (¬ obs.Publishes cfg k → ∀ g,
      ((h.run cfg).checkOnce cfg order obs).hls g k = none ∨
      ((h.run cfg).checkOnce cfg order obs).hls g k = some (.count 0)) ∧
    (obs.Publishes cfg k → obs.HasPlaylist cfg k →
      ((h.run cfg).checkOnce cfg order obs).hls .playlistUp k = some (.count 1)) ∧
    (obs.Publishes cfg k → ¬ obs.HasPlaylist cfg k →
      ((h.run cfg).checkOnce cfg order obs).hls .playlistUp k = some (.count 0)) := by
  simp only [State.hls_eq_series, ← isOk_fetchPlaylist]
  refine ⟨?_, ?_, ?_⟩
  · intro hpub
    rw [series_checkOnce_of_not_publishes hpub]
    split
    · exact quiet_cleared
    · exact (settled_run cfg h k).quiet ‹_›
  · intro hpub hok
    rw [series_checkOnce_of_publishes hpub]
    cases hfetch : fetchPlaylist cfg obs k with
    | error e =>
      rw [hfetch] at hok
      cases hok
    | ok p => simp [Series.checked, hfetch]
  · intro hpub hok
    rw [series_checkOnce_of_publishes hpub]
    cases hfetch : fetchPlaylist cfg obs k with
    | error e => simp [Series.checked, hfetch]
    | ok p =>
      rw [hfetch] at hok
      exact absurd rfl hok

/-! ### What the latest check decides -/

/-- A check of a stream that is not publishing leaves its series where they were, at 0. -/
theorem hls_of_not_publishes (h : History) (hpub : ¬ obs.Publishes cfg k) (g : HLSVec) :
    ((h.run cfg).checkOnce cfg order obs).hls g k = ((h.run cfg).hls g k).map fun _ => .count 0 := by
  have hsettled := settled_run cfg h k
  simp only [State.hls_eq_series, series_checkOnce_of_not_publishes hpub]
  by_cases hseen : k ∈ (h.run cfg).seen
  · obtain ⟨v, hv⟩ := Option.ne_none_iff_exists'.mp (hsettled.shown hseen g)
    rw [if_pos hseen, hv]
    rfl
  · rw [if_neg hseen]
    rcases hsettled.quiet hseen g with hnone | hzero
    · rw [hnone]
      rfl
    · rw [hzero]
      rfl

/-- What a check passes over is the same in two monitors: which streams have a series
although they are not publishing, and the segment count and the target duration of a
stream whose playlist cannot be had. -/
def SameRest (cfg : Config) (obs : Observation) (m₁ m₂ : State) : Prop :=
  ∀ k, (¬ obs.Publishes cfg k → ∀ g, m₁.hls g k = none ↔ m₂.hls g k = none) ∧
    (obs.Publishes cfg k → (fetchPlaylist cfg obs k).isOk = false →
      m₁.hls .playlistSegments k = m₂.hls .playlistSegments k ∧
      m₁.hls .playlistTargetDuration k = m₂.hls .playlistTargetDuration k)

/-- **The series after a check depend on that check alone** exactly where the two monitors
agree on what it passes over: then, whatever their histories, they show the same series
with the same values. -/
theorem latest_check_decides (cfg : Config) (h₁ h₂ : History) (obs : Observation)
    (order₁ order₂ : MapOrder Str) :
    (∀ g k, ((h₁.run cfg).checkOnce cfg order₁ obs).hls g k =
      ((h₂.run cfg).checkOnce cfg order₂ obs).hls g k) ↔
    SameRest cfg obs (h₁.run cfg) (h₂.run cfg) := by
  rw [forall_comm]
  refine forall_congr' fun k => ?_
  by_cases hpub : obs.Publishes cfg k
  · simp only [State.hls_eq_series, series_checkOnce_of_publishes hpub, hpub, not_true_eq_false,
      false_implies, true_and, true_implies]
    cases hfetch : fetchPlaylist cfg obs k with
    | error e =>
      simp only [Series.checked, hfetch, isOk_error, true_implies]
      constructor
      · exact fun hsame => ⟨hsame .playlistSegments, hsame .playlistTargetDuration⟩
      · rintro ⟨hseg, htarget⟩ g
        cases g <;> first | rfl | assumption
    | ok p => simp [Series.checked, hfetch]
  · simp only [hls_of_not_publishes _ hpub, hpub, not_false_eq_true, true_implies, false_implies,
      and_true]
    refine forall_congr' fun g => ?_
    cases (h₁.run cfg).hls g k <;> cases (h₂.run cfg).hls g k <;> simp

end

/-! ### Two monitors -/

def Config.sample : Config where
  resolve _ ref := some ref
  parseFloat _ := none

/-- SRS lists these streams as published, and each of them has one segment. -/
def Observation.sample (streams : List Str) : Observation where
  health _ := none
  dial _ := false
  clients _ := some ⟨200, some (0, some (streams.map fun key => ⟨[], key, lit "RTMP publisher"⟩))⟩
  playlist _ _ := some { status := 200, body := lit "#EXTM3U\na.ts\n" }
  segment _ _ := some 200

/-- SRS lists `a` and `b`; the playlist of `b` is not there. -/
def Observation.half : Observation :=
  { Observation.sample [lit "a", lit "b"] with
    playlist := fun k _ => some
      (if k = lit "b" then { status := 404, body := lit "#EXTM3U\nb.ts\n" }
       else { status := 200, body := lit "#EXTM3U\na.ts\n" }) }

/-- Of two publishing streams one is up and one down; of one that was on before, the series
stay, at 0. -/
theorem healthy_only_publishing_half :
    let m := History.run .sample [(.asFound, .sample [lit "b", lit "c"]), (.asFound, .half)]
    m.hls .playlistUp (lit "a") = some (.count 1) ∧ m.hls .playlistUp (lit "b") = some (.count 0) ∧
      ∀ g, m.hls g (lit "c") = none ∨ m.hls g (lit "c") = some (.count 0) := by
  intro m
  have hlists (k : Str) (hk : k = lit "a" ∨ k = lit "b") : Observation.half.Publishes .sample k := by
    refine ⟨200, _, rfl, by decide, ?_, ⟨[], k, lit "RTMP publisher"⟩, ?_, rfl, rfl⟩
    · rcases hk with rfl | rfl <;> decide
    · rcases hk with rfl | rfl <;> decide
  have hup : Observation.half.HasPlaylist .sample (lit "a") :=
    ⟨_, rfl, by decide, rfl, by decide, by decide⟩
  have hdown : ¬ Observation.half.HasPlaylist .sample (lit "b") := by
    intro ⟨resp, hresp, hhealthy⟩
    cases hresp
    exact absurd hhealthy.status.2 (by decide)
  have hoff : ¬ Observation.half.Publishes .sample (lit "c") := by
    intro ⟨status, clients, hclients, _, _, c, hc, _, hk⟩
    cases hclients
    have hnone : ∀ c ∈ [lit "a", lit "b"].map fun key => (⟨[], key, lit "RTMP publisher"⟩ : SRSClient),
        c.stream ≠ lit "c" := by decide
    exact hnone c hc hk
  have hchecked := healthy_only_publishing .sample [(.asFound, .sample [lit "b", lit "c"])] .asFound .half
  exact ⟨(hchecked (lit "a")).2.1 (hlists _ (.inl rfl)) hup,
    (hchecked (lit "b")).2.2 (hlists _ (.inr rfl)) hdown, (hchecked (lit "c")).1 hoff⟩

/-- A stream that has stopped publishing leaves a playlist that is down behind, where a
monitor that never saw it shows nothing. -/
theorem latest_check_leftover :
    ∃ (h₁ h₂ : History) (obs : Observation) (g : HLSVec) (k : Str),
      ((h₁.run .sample).checkOnce .sample .asFound obs).hls g k ≠
        ((h₂.run .sample).checkOnce .sample .asFound obs).hls g k :=
  ⟨[(.asFound, .sample [lit "a"])], [], .sample [], .playlistUp, lit "a", by decide⟩

end LiveServer.Monitor
