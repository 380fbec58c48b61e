import LiveServer.Monitor.Check

/-! The playlist grammar.

A playlist is a text of lines. A line that is not blank when trimmed and no comment names a
media segment; a comment may give the target duration. `parsePlaylist` is a loop over the
lines with three accumulators: here it is what the lines say, however they end and whatever
blanks stand around them. -/
namespace LiveServer.Monitor
open Text

/-- A line that names a media segment, trimmed. -/
def isMedia (core : Str) : Bool := core ≠ [] && !(lit "#").isPrefixOf core

/-- The target duration a line gives, if its value parses. -/
def targetDurationValue (parseFloat : Str → Option UInt64) (core : Str) : Option Sample :=
  if (lit "#EXT-X-TARGETDURATION:").isPrefixOf core then
    (parseFloat (trimPrefix core (lit "#EXT-X-TARGETDURATION:"))).map .ofFloat
  else none

/-- A blank line, or a comment that is no target duration. -/
def isIdle (core : Str) : Bool :=
  core = [] || ((lit "#").isPrefixOf core && !(lit "#EXT-X-TARGETDURATION:").isPrefixOf core)

section
variable {parseFloat : Str → Option UInt64}

/-- What the accumulators hold after lines with these texts, from what they held before. -/
def Playlist.after (parseFloat : Str → Option UInt64) (p : Playlist) (cores : List Str) : Playlist where
  segments := p.segments + (cores.filter isMedia).length
  targetDuration :=
    (cores.filterMap (targetDurationValue parseFloat)).getLast?.getD p.targetDuration
  latestSegment := (cores.filter isMedia).getLast?.getD p.latestSegment

theorem Playlist.after_cons (p : Playlist) (core : Str) (cores : List Str) :
    p.after parseFloat (core :: cores) =
      (p.after parseFloat [core]).after parseFloat cores := by
  simp only [Playlist.after, Playlist.mk.injEq]
  refine ⟨?_, ?_, ?_⟩
  · rw [List.filter_cons, List.filter_cons]
    split
    · simp only [List.length_cons, List.filter_nil, List.length_nil]
      omega
    · rfl
  · rw [List.filterMap_cons, List.filterMap_cons]
    cases targetDurationValue parseFloat core with
    | none => rfl
    | some v =>
      simp only [List.getLast?_cons, List.filterMap_nil, List.getLast?_nil, Option.getD_none,
        Option.getD_some]
  · rw [List.filter_cons, List.filter_cons]
    split
    · simp only [List.getLast?_cons, List.filter_nil, List.getLast?_nil, Option.getD_none, Option.getD_some]
    · rfl

/-- A target duration is a comment. -/
theorem comment_of_targetDuration {core : Str} (h : (lit "#EXT-X-TARGETDURATION:").isPrefixOf core = true) :
    (lit "#").isPrefixOf core = true := by
  obtain ⟨t, rfl⟩ := List.isPrefixOf_iff_prefix.mp h
  rfl

/-- One line does to the accumulators what it says. -/
theorem Playlist.read_eq_after (p : Playlist) (text : Str) :
    p.read parseFloat text = p.after parseFloat [trimSpace text] := by
  unfold Playlist.read Playlist.after
  generalize trimSpace text = core
  by_cases hblank : core = []
  · subst hblank
    rfl
  · by_cases htarget : (lit "#EXT-X-TARGETDURATION:").isPrefixOf core = true
    · have hmedia : isMedia core = false := by
        simp [isMedia, comment_of_targetDuration htarget]
      cases hparses : parseFloat (trimPrefix core (lit "#EXT-X-TARGETDURATION:")) with
      | none => simp [hblank, htarget, hmedia, hparses, targetDurationValue]
      | some f => simp [hblank, htarget, hmedia, hparses, targetDurationValue]
    · by_cases hcomment : (lit "#").isPrefixOf core = true
      · have hmedia : isMedia core = false := by simp [isMedia, hcomment]
        simp [hblank, htarget, hcomment, hmedia, targetDurationValue]
      · have hmedia : isMedia core = true := by simp [isMedia, hcomment, hblank]
        simp [hblank, htarget, hcomment, hmedia, targetDurationValue]

/-- The loop, line by line. -/
theorem foldl_read (p : Playlist) (texts : List Str) :
    texts.foldl (Playlist.read parseFloat) p = p.after parseFloat (texts.map trimSpace) := by
  induction texts generalizing p with
  | nil => rfl
  | cons text rest ih =>
    rw [List.foldl_cons, ih, Playlist.read_eq_after, List.map_cons, ← Playlist.after_cons]

/-- Lines that are idle say nothing, wherever they stand. -/
theorem Playlist.after_congr (p : Playlist) {cores cores' : List Str}
    (h : cores.filter (!isIdle ·) = cores'.filter (!isIdle ·)) :
    p.after parseFloat cores = p.after parseFloat cores' := by
  have hmedia (l : List Str) : l.filter isMedia = (l.filter (!isIdle ·)).filter isMedia := by
    rw [List.filter_filter]
    congr 1
    funext core
    by_cases hm : isMedia core = true
    · have hidle : isIdle core = false := by
        simp only [isMedia, Bool.and_eq_true, decide_eq_true_eq, Bool.not_eq_true'] at hm
        simp [isIdle, hm]
      simp [hm, hidle]
    · simp [hm]
  have hvalue (l : List Str) : l.filterMap (targetDurationValue parseFloat) =
      (l.filter (!isIdle ·)).filterMap (targetDurationValue parseFloat) := by
    rw [List.filterMap_filter]
    congr 1
    funext core
    by_cases hidle : isIdle core = true
    · have htarget : ¬ (lit "#EXT-X-TARGETDURATION:").isPrefixOf core = true := by
        intro ht
        simp only [isIdle, ht, Bool.not_true, Bool.and_false, Bool.or_false, decide_eq_true_eq] at hidle
        rw [hidle] at ht
        exact absurd ht (by decide)
      simp [hidle, targetDurationValue, htarget]
    · simp [hidle]
  unfold Playlist.after
  rw [hmedia cores, hmedia cores', hvalue cores, hvalue cores', h]

/-- What is parsed of the text of some lines. -/
theorem parsePlaylist_join (status : Nat) (closed : Bool) {lines : List Line}
    (hfits : ∀ l ∈ lines, l.Fits) :
    parsePlaylist parseFloat ⟨status, Line.join closed lines, true⟩ =
      let p := Playlist.after parseFloat {} (lines.map Line.core)
      if p.segments = 0 then
        ({ targetDuration := p.targetDuration }, some (.text "playlist contains no media segments"))
      else (p, none) := by
  obtain ⟨got, hscan, hcores⟩ := Line.scanLines_join closed hfits
  have hidle (l : List Str) : l.filter (!isIdle ·) = (l.filter (· ≠ [])).filter (!isIdle ·) := by
    rw [List.filter_filter]
    congr 1
    funext core
    by_cases hblank : core = []
    · simp [isIdle, hblank]
    · simp [hblank]
  have hafter : Playlist.after parseFloat {} (got.map trimSpace) =
      Playlist.after parseFloat {} (lines.map Line.core) := by
    apply Playlist.after_congr
    rw [hidle, hidle (lines.map Line.core), hcores]
  unfold parsePlaylist
  simp only [hscan, foldl_read, hafter, Bool.not_true, Bool.false_eq_true, if_false]

end

/-- **The playlist grammar**: for all lines, with any ends and any blanks around them, the
loop returns the number of media lines, the last of them and the last target duration that
parses; it fails exactly if there is no media line; and lines that are blank or other
comments make no difference. -/
theorem parsePlaylist_grammar (parseFloat : Str → Option UInt64) (status : Nat) (closed : Bool)
    (lines : List Line) (hfits : ∀ l ∈ lines, l.Fits) :
    let media := (lines.map Line.core).filter isMedia
    let durations := (lines.map Line.core).filterMap (targetDurationValue parseFloat)
    let r := parsePlaylist parseFloat ⟨status, Line.join closed lines, true⟩
    r.1.segments = media.length ∧ r.1.latestSegment = media.getLast?.getD [] ∧
      r.1.targetDuration = durations.getLast?.getD (.count 0) ∧
      (r.2 ≠ none ↔ media = []) ∧
      (r.2 ≠ none → r.1.segments = 0 ∧ r.1.latestSegment = []) ∧
      ∀ before inserted after closed', lines = before ++ after →
        (∀ l ∈ inserted, l.Fits ∧ isIdle l.core = true) →
        parsePlaylist parseFloat ⟨status, Line.join closed' (before ++ inserted ++ after), true⟩ = r := by
  intro media durations r
  have hafter : Playlist.after parseFloat {} (lines.map Line.core) =
      ⟨media.length, durations.getLast?.getD (.count 0), media.getLast?.getD []⟩ := by
    show Playlist.mk (0 + media.length) _ _ = _
    rw [Nat.zero_add]
  have hr : r = if media.length = 0 then
        ({ targetDuration := durations.getLast?.getD (.count 0) },
          some (.text "playlist contains no media segments"))
      else (⟨media.length, durations.getLast?.getD (.count 0), media.getLast?.getD []⟩, none) := by
    show parsePlaylist parseFloat ⟨status, Line.join closed lines, true⟩ = _
    rw [parsePlaylist_join status closed hfits, hafter]
  have hinsert : ∀ before inserted after closed', lines = before ++ after →
      (∀ l ∈ inserted, l.Fits ∧ isIdle l.core = true) →
      parsePlaylist parseFloat ⟨status, Line.join closed' (before ++ inserted ++ after), true⟩ = r := by
    intro before inserted after closed' hlines hinserted
    subst hlines
    have hall : ∀ l ∈ before ++ inserted ++ after, l.Fits := by
      intro l hl
      rcases List.mem_append.mp hl with hl | hl
      · rcases List.mem_append.mp hl with hl | hl
        · exact hfits l (List.mem_append_left _ hl)
        · exact (hinserted l hl).1
      · exact hfits l (List.mem_append_right _ hl)
    have hidle : (inserted.map Line.core).filter (!isIdle ·) = [] := by
      apply List.filter_eq_nil_iff.mpr
      intro core hcore
      obtain ⟨l, hl, rfl⟩ := List.mem_map.mp hcore
      rw [(hinserted l hl).2]
      decide
    have hsame : Playlist.after parseFloat {} ((before ++ inserted ++ after).map Line.core) =
        Playlist.after parseFloat {} ((before ++ after).map Line.core) := by
      apply Playlist.after_congr
      simp only [List.map_append, List.filter_append, hidle, List.append_nil]
    rw [parsePlaylist_join status closed' hall, hsame]
    exact (parsePlaylist_join status closed hfits).symm
  by_cases hmedia : media = []
  · have hempty : r = ({ targetDuration := durations.getLast?.getD (.count 0) },
        some (.text "playlist contains no media segments")) := by
      rw [hr, hmedia]
      rfl
    rw [hempty] at hinsert ⊢
    rw [hmedia]
    exact ⟨rfl, rfl, rfl, ⟨fun _ => rfl, fun _ => nofun⟩, fun _ => ⟨rfl, rfl⟩, hinsert⟩
  · have hfull : r = (⟨media.length, durations.getLast?.getD (.count 0),
        media.getLast?.getD []⟩, none) := by
      rw [hr, if_neg fun h => hmedia (List.length_eq_zero_iff.mp h)]
    rw [hfull] at hinsert ⊢
    exact ⟨rfl, rfl, rfl, ⟨fun h => absurd rfl h, fun h => absurd h hmedia⟩, fun h => absurd rfl h, hinsert⟩

/-- A header, a target duration and two segments, with both ends and blanks around some. -/
def samplePlaylist : List Line :=
  [.ofText (lit "#EXTM3U") [13, 10] (by decide) (by decide),
   .ofText (lit " #EXT-X-TARGETDURATION:4 ") [10] (by decide) (by decide),
   .ofText (lit "\tseg-1.ts") [13, 10] (by decide) (by decide),
   .ofText (lit "") [10] (by decide) (by decide),
   .ofText (lit "seg-2.ts  ") [10] (by decide) (by decide)]

theorem parsePlaylist_grammar_sample :
    let parseFloat := fun v => if v = lit "4" then some 0x4010000000000000 else none
    let r := parsePlaylist parseFloat ⟨200, Line.join false samplePlaylist, true⟩
    r.1.segments = 2 ∧ r.1.latestSegment = lit "seg-2.ts" ∧
      r.1.targetDuration = .float 0x4010000000000000 ∧ r.2 = none := by
  intro parseFloat r
  obtain ⟨hsegments, hlatest, hduration, herror, _⟩ :=
    parsePlaylist_grammar parseFloat 200 false samplePlaylist (by decide)
  refine ⟨hsegments, hlatest, hduration, ?_⟩
  by_contra h
  exact absurd (herror.mp h) (by decide)

end LiveServer.Monitor
