import Mathlib.Data.List.TakeWhile
import LiveServer.PushTest
import LiveServer.Text.Query

/-! What the printed URL tells about the token.

`redactURL` looks for the text `token=`, not for the parameter. What it replaces begins at
the first such text and ends at the next `&`, so the token is covered if there is no earlier
`token=`, and also if there is one with no `&` between the two. Otherwise the token is
printed as it is. A run without `-print-command` prints the URL in no other way: what it prints
depends on the token exactly where that line does (`run_hides_token`). -/
namespace LiveServer.PushTest
open Concurrent Text

/-- A URL around the value of its only query parameter named `token`. -/
structure PushURL where
  /-- Scheme, host and path. -/
  base : Str
  /-- The parameters before the token. -/
  before : List Str
  /-- The parameters behind it. -/
  after : List Str
  fragment : Option Str
  base_ends : 63 ∉ base ∧ 35 ∉ base
  params : ∀ p ∈ before ++ after, 38 ∉ p ∧ 35 ∉ p
  single : ∀ p ∈ before ++ after, (cut 61 p).1 ≠ lit "token"

namespace PushURL

/-- What stands before the parameter. -/
def front (u : PushURL) : Str := u.base ++ lit "?" ++ u.before.flatMap (· ++ lit "&")

/-- What stands behind its value. -/
def back (u : PushURL) : Str :=
  u.after.flatMap (lit "&" ++ ·) ++ match u.fragment with
    | none => []
    | some f => lit "#" ++ f

def text (u : PushURL) (token : Str) : Str := u.front ++ lit "token=" ++ token ++ u.back

/-- No `&` stands between an earlier `token=` and the parameter. -/
def Covered (u : PushURL) : Prop := ∀ x y, u.front = x ++ lit "token=" ++ y → 38 ∉ y

end PushURL

/-- Bytes that a value cannot have. -/
def IsValue (token : Str) : Prop := 38 ∉ token ∧ 35 ∉ token

instance (token : Str) : Decidable (IsValue token) := inferInstanceAs (Decidable (_ ∧ _))

/-! ### From the first occurrence on -/

/-- `redactURL` replaces what stands behind the first `token=` up to the next `&` or `#`. -/
theorem redactURL_first {x y : Str}
    (h : index (x ++ lit "token=" ++ y) (lit "token=") = some x.length) :
    redactURL (x ++ lit "token=" ++ y) = x ++ lit "token=***" ++ y.dropWhile (· ∉ lit "&#") := by
  have hname : ∀ b ∈ lit "token=", b ∉ lit "&#" := List.all_iff_forall_prop.mp (by decide)
  have hdrop : (x ++ lit "token=" ++ y).drop x.length = lit "token=" ++ y := by
    rw [List.append_assoc, List.drop_left]
  have htake : (x ++ lit "token=" ++ y).take (x.length + 6) = x ++ lit "token=" :=
    List.take_left' (by rw [List.length_append]; rfl)
  have hmark : lit "token=***" = lit "token=" ++ lit "***" := rfl
  unfold redactURL
  rw [h]
  dsimp only
  rw [hdrop, htake, indexAny_append hname, drop_indexAny, hmark]
  cases indexAny y (lit "&#") with
  | none => simp
  | some n =>
    have hrest : (x ++ lit "token=" ++ y).drop (x.length + (n + 6)) = y.drop n := by
      have hlen : x.length + (n + 6) = (x ++ lit "token=").length + n := by
        rw [List.length_append, Nat.add_assoc, Nat.add_comm n 6]
        rfl
      rw [hlen, List.drop_append]
      simp
    show x ++ lit "token=" ++ lit "***" ++ (x ++ lit "token=" ++ y).drop (x.length + (n + 6)) = _
    rw [hrest, List.append_assoc x]

theorem IsValue.append {s t : Str} (hs : IsValue s) (ht : IsValue t) : IsValue (s ++ t) := by
  unfold IsValue
  simp only [List.mem_append, not_or]
  exact ⟨⟨hs.1, ht.1⟩, hs.2, ht.2⟩

namespace PushURL
variable (u : PushURL) {token : Str}

/-- The parameter stands behind a `?` or a `&`. -/
theorem front_eq : ∃ p c, u.front = p ++ [c] ∧ c ∉ lit "token=" := by
  unfold front
  rcases List.eq_nil_or_concat u.before with hnil | ⟨ps, p, hps⟩
  · refine ⟨u.base, 63, ?_, by decide⟩
    rw [hnil, List.flatMap_nil, List.append_nil]
    rfl
  · refine ⟨u.base ++ lit "?" ++ ps.flatMap (· ++ lit "&") ++ p, 38, ?_, by decide⟩
    rw [hps, List.concat_eq_append, List.flatMap_append, List.flatMap_singleton]
    simp only [List.append_assoc]
    rfl

theorem hash_not_mem_front : 35 ∉ u.front := by
  unfold front
  simp only [List.mem_append, List.mem_flatMap, not_or, not_exists, not_and]
  refine ⟨⟨u.base_ends.2, by decide⟩, ?_⟩
  intro p hp
  exact ⟨(u.params p (List.mem_append_left _ hp)).2, by decide⟩

/-- What stands behind the value begins with a `&` or a `#`. -/
theorem dropWhile_back {s : Str} (hs : IsValue s) : (s ++ u.back).dropWhile (· ∉ lit "&#") = u.back := by
  have hdropped : ∀ b ∈ s, decide (b ∉ lit "&#") = true := by
    intro b hb
    rw [decide_eq_true_eq]
    intro hmem
    rcases List.mem_pair.mp hmem with rfl | rfl
    · exact hs.1 hb
    · exact hs.2 hb
  rw [List.dropWhile_append_of_pos hdropped]
  unfold back
  cases u.after with
  | nil =>
    cases u.fragment with
    | none => rfl
    | some f => rfl
  | cons p ps => rfl

/-- An occurrence of `token=` in the text lies in the front or not before the parameter. -/
theorem occurrence {x y : Str} (h : u.text token = x ++ lit "token=" ++ y) :
    (∃ z, u.front = x ++ lit "token=" ++ z) ∨ u.front.length ≤ x.length := by
  obtain ⟨p, c, hfront, hc⟩ := u.front_eq
  have hsplit : p ++ c :: (lit "token=" ++ token ++ u.back) = x ++ lit "token=" ++ y := by
    rw [← h, text, hfront]
    simp
  rcases occurrence_split hc hsplit with ⟨z, hz⟩ | hlen
  · exact .inl ⟨z ++ [c], by rw [hfront, hz, List.append_assoc]⟩
  · right
    rw [hfront, List.length_append]
    exact hlen

/-- Without an earlier `token=` it is the value that is replaced. -/
theorem redactURL_only (hnone : index u.front (lit "token=") = none) (htoken : IsValue token) :
    redactURL (u.text token) = u.front ++ lit "token=***" ++ u.back := by
  have htext : u.text token = u.front ++ lit "token=" ++ (token ++ u.back) := List.append_assoc ..
  have hfirst : index (u.text token) (lit "token=") = some u.front.length := by
    apply index_of_first htext
    intro x y h
    rcases u.occurrence h with ⟨z, hz⟩ | hlen
    · exact absurd hz (index_none hnone x z)
    · exact hlen
  rw [htext] at hfirst ⊢
  rw [redactURL_first hfirst, u.dropWhile_back htoken]

/-- With one it is what stands behind that, up to a `&` or the end of the value. -/
theorem redactURL_earlier {x y : Str} (hfront : u.front = x ++ lit "token=" ++ y)
    (hfirst : ∀ x' y', u.front = x' ++ lit "token=" ++ y' → x.length ≤ x'.length) :
    redactURL (u.text token) = x ++ lit "token=***" ++
      (y ++ (lit "token=" ++ token ++ u.back)).dropWhile (· ∉ lit "&#") := by
  have htext : u.text token = x ++ lit "token=" ++ (y ++ (lit "token=" ++ token ++ u.back)) := by
    rw [text, hfront]
    simp only [List.append_assoc]
  have hindex : index (u.text token) (lit "token=") = some x.length := by
    apply index_of_first htext
    intro x' y' h
    rcases u.occurrence h with ⟨z, hz⟩ | hlen
    · exact hfirst x' z hz
    · rw [hfront, List.append_assoc, List.length_append] at hlen
      omega
  rw [htext] at hindex ⊢
  exact redactURL_first hindex

/-- Only the first occurrence matters: a `&` behind a later one is also behind the first. -/
theorem covered_iff {x y : Str} (hfront : u.front = x ++ lit "token=" ++ y)
    (hfirst : ∀ x' y', u.front = x' ++ lit "token=" ++ y' → x.length ≤ x'.length) :
    u.Covered ↔ 38 ∉ y := by
  refine ⟨fun h => h x y hfront, fun hy x' y' hfront' hmem => hy ?_⟩
  have hle := hfirst x' y' hfront'
  have hlen := congrArg List.length (hfront.symm.trans hfront')
  simp only [List.length_append] at hlen
  have hsuffix : y' <:+ y := List.suffix_of_suffix_length_le ⟨_, hfront'.symm⟩ ⟨_, hfront.symm⟩ (by omega)
  exact hsuffix.mem hmem

/-- A part that ends at a `&` leaves all behind it. -/
theorem dropWhile_amp {y : Str} (hy : 38 ∈ y) (t : Str) :
    (y ++ t).dropWhile (· ∉ lit "&#") = y.dropWhile (· ∉ lit "&#") ++ t := by
  have hne : ¬ (y.dropWhile (· ∉ lit "&#")).isEmpty = true := by
    rw [List.isEmpty_iff, List.dropWhile_eq_nil_iff]
    intro h
    exact absurd (h 38 hy) (by decide)
  rw [List.dropWhile_append, if_neg hne]

theorem covered_of_index (h : index u.front (lit "token=") = none) : u.Covered := by
  intro x y heq
  exact absurd heq (index_none h x y)

/-- The token decides what is printed, or has no part in it. -/
theorem redactURL_eq_iff {token' : Str} (htoken : IsValue token) (htoken' : IsValue token') :
    redactURL (u.text token) = redactURL (u.text token') ↔ token = token' ∨ u.Covered := by
  cases hindex : index u.front (lit "token=") with
  | none =>
    rw [u.redactURL_only hindex htoken, u.redactURL_only hindex htoken']
    exact ⟨fun _ => .inr (u.covered_of_index hindex), fun _ => rfl⟩
  | some i =>
    obtain ⟨x, y, hfront, rfl, hfirst⟩ := index_some hindex
    rw [u.redactURL_earlier hfront hfirst, u.redactURL_earlier hfront hfirst,
      u.covered_iff hfront hfirst]
    by_cases hy : 38 ∈ y
    · -- the replaced part ends before the parameter
      rw [dropWhile_amp hy, dropWhile_amp hy, List.append_cancel_left_eq, List.append_cancel_left_eq,
        List.append_cancel_right_eq, List.append_cancel_left_eq]
      exact ⟨.inl, fun h => h.resolve_right (not_not_intro hy)⟩
    · -- it goes on to the end of the value
      have hhash : 35 ∉ y := by
        intro hmem
        apply u.hash_not_mem_front
        rw [hfront]
        exact List.mem_append_right _ hmem
      have hdrop {t : Str} (ht : IsValue t) :
          (y ++ (lit "token=" ++ t ++ u.back)).dropWhile (· ∉ lit "&#") = u.back := by
        have hname : IsValue (lit "token=") := by decide
        rw [← List.append_assoc]
        exact u.dropWhile_back (.append ⟨hy, hhash⟩ (hname.append ht))
      rw [hdrop htoken, hdrop htoken']
      exact ⟨fun _ => .inr hy, fun _ => rfl⟩

end PushURL

/-! ### The line with the URL -/

/-- The line that tells where the tool pushes to does not depend on the token exactly if no
`&` stands between an earlier `token=` and the parameter. -/
theorem pushing_to_hides_token_iff {d : Durations} {cfg cfg' : Config} {u : PushURL} {token token' : Str}
    (htoken : IsValue token) (htoken' : IsValue token')
    (hcfg : resolvePushURL cfg = some (u.text token))
    (hcfg' : resolvePushURL cfg' = some (u.text token')) :
    (redactURL (u.text token) = redactURL (u.text token') ↔ token = token' ∨ u.Covered) ∧
      ((push d cfg).pending = (push d cfg').pending ↔ token = token' ∨ u.Covered) := by
  have hredact := u.redactURL_eq_iff htoken htoken'
  have hline {c : Config} {t : Str} (hc : resolvePushURL c = some (u.text t)) :
      (push d c).pending = some (.printf (lit "pushing to " ++ redactURL (u.text t) ++ lit "\n")) := by
    unfold push
    rw [hc]
    rfl
  refine ⟨hredact, ?_⟩
  rw [hline hcfg, hline hcfg', Option.some.injEq, Call.printf.injEq, List.append_cancel_right_eq,
    List.append_cancel_left_eq]
  exact hredact

/-- What flags make of the stream key `cam`. -/
def cameraURL : PushURL where
  base := lit "rtmp://127.0.0.1:1935/live/cam"
  before := []
  after := []
  fragment := none
  base_ends := by decide
  params := by decide
  single := by decide

theorem pushing_to_hides_token_camera :
    (redactURL (cameraURL.text (lit "s3cret")) = redactURL (cameraURL.text (lit "other")) ↔
      lit "s3cret" = lit "other" ∨ cameraURL.Covered) ∧
    ((push ⟨fun _ => [], fun _ => []⟩ { streamKey := lit "cam", token := lit "s3cret" }).pending =
        (push ⟨fun _ => [], fun _ => []⟩ { streamKey := lit "cam", token := lit "other" }).pending ↔
      lit "s3cret" = lit "other" ∨ cameraURL.Covered) :=
  pushing_to_hides_token_iff (by decide) (by decide) (by decide) (by decide)

/-- The same with a parameter whose name ends in `token`. -/
def taggedURL : PushURL where
  base := lit "rtmp://127.0.0.1:1935/live/cam"
  before := [lit "mytoken=1"]
  after := []
  fragment := none
  base_ends := by decide
  params := by decide
  single := by decide

/-- That parameter is replaced in place of the token. -/
theorem pushing_to_shows_token :
    resolvePushURL { pushURL := taggedURL.text (lit "s3cret") } = some (taggedURL.text (lit "s3cret")) ∧
      resolvePushURL { pushURL := taggedURL.text (lit "other") } = some (taggedURL.text (lit "other")) ∧
      IsValue (lit "s3cret") ∧ IsValue (lit "other") ∧
      redactURL (taggedURL.text (lit "s3cret")) =
        lit "rtmp://127.0.0.1:1935/live/cam?mytoken=***&token=s3cret" ∧
      redactURL (taggedURL.text (lit "other")) =
        lit "rtmp://127.0.0.1:1935/live/cam?mytoken=***&token=other" := by
  decide

/-! ### Whole runs -/

/-- What the host answers to the next call. -/
structure Host where
  found : Option GoError := none
  ended : Option GoError × Bool := (none, false)

/-- The host answers, and what is printed is kept. -/
def perform (host : Host) : (c : Call) → List Str → c.Res × List Str
  | .printf text, out => ((), out ++ [text])
  | .lookPath _, out => (host.found, out)
  | .cmdRun .., out => (host.ended, out)

/-- Two programs that differ at most in the arguments of the commands they run. -/
inductive SameButArgs {α : Type} : Tool α → Tool α → Prop
  | done (a : α) : SameButArgs (.done a) (.done a)
  | call (c : Call) {k k' : c.Res → Tool α} :
      (∀ r, SameButArgs (k r) (k' r)) → SameButArgs (.call c k) (.call c k')
  | cmdRun (name : Str) (args args' : List Str) {k k' : Option GoError × Bool → Tool α} :
      (∀ r, SameButArgs (k r) (k' r)) → SameButArgs (.call (.cmdRun name args) k) (.call (.cmdRun name args') k')

section
variable {α β : Type} {p p' : Tool α}

theorem SameButArgs.refl (p : Tool α) : SameButArgs p p := by
  induction p with
  | done a => exact .done a
  | call c k ih => exact .call c ih

theorem SameButArgs.bind (h : SameButArgs p p') {f f' : α → Tool β} (hf : ∀ a, SameButArgs (f a) (f' a)) :
    SameButArgs (p >>= f) (p' >>= f') := by
  induction h with
  | done a => exact hf a
  | call c _ ih => exact .call c ih
  | cmdRun name args args' _ ih => exact .cmdRun name args args' ih

/-- They print the same and end the same, if the host answers the same. -/
theorem SameButArgs.exec (h : SameButArgs p p') (host : Nat → Host) (out : List Str) :
    p.exec perform host out = p'.exec perform host out := by
  induction h generalizing host out with
  | done a => rfl
  | call c _ ih => exact ih _ _ _
  | cmdRun name args args' _ ih => exact ih _ _ _

/-- What is printed stays. -/
theorem exec_printed (p : Tool α) (host : Nat → Host) (out : List Str) :
    out <+: (p.exec perform host out).2 := by
  induction p generalizing host out with
  | done a => exact List.prefix_rfl
  | call c k ih =>
    refine List.IsPrefix.trans ?_ (ih _ _ _)
    cases c with
    | printf text => exact List.prefix_append out [text]
    | lookPath file => exact List.prefix_rfl
    | cmdRun name args => exact List.prefix_rfl

end

/-- Flags that differ at most in where to push to. -/
def Config.SameButTarget (cfg cfg' : Config) : Prop :=
  ∃ pushURL rtmpBase streamKey token,
    cfg' = { cfg with pushURL := pushURL, rtmpBase := rtmpBase, streamKey := streamKey, token := token }

section
variable {d : Durations} {cfg cfg' : Config} {raw raw' : Str}

theorem sameButArgs_runFFmpeg (ffmpeg : Str) (args args' : List Str) :
    SameButArgs (runFFmpeg ffmpeg args false) (runFFmpeg ffmpeg args' false) := by
  refine .call (.lookPath ffmpeg) fun found => ?_
  cases found with
  | some err => exact .done _
  | none =>
    refine .cmdRun ffmpeg args args' fun ended => ?_
    obtain ⟨err, interrupted⟩ := ended
    cases err with
    | none => exact .done _
    | some err =>
      cases interrupted with
      | true => exact .done _
      | false => exact .done _

theorem sameButArgs_push (hffmpeg : cfg.ffmpeg = cfg'.ffmpeg) (hprint : cfg.printCommand = false)
    (hprint' : cfg'.printCommand = false) (hurl : resolvePushURL cfg = some raw)
    (hurl' : resolvePushURL cfg' = some raw') (hredact : redactURL raw = redactURL raw') :
    SameButArgs (push d cfg) (push d cfg') := by
  unfold push
  rw [hurl, hurl']
  dsimp only
  rw [hredact, hprint, hprint', hffmpeg]
  exact .call _ fun _ => .call _ fun _ => sameButArgs_runFFmpeg _ _ _

/-- A run that pushes prints the URL first. -/
theorem push_prints (hurl : resolvePushURL cfg = some raw) (host : Nat → Host) :
    [lit "pushing to " ++ redactURL raw ++ lit "\n"] <+: ((push d cfg).exec perform host []).2 := by
  unfold push
  rw [hurl]
  exact exec_printed _ _ _

theorem sameButArgs_generateAndPush (hsame : cfg.SameButTarget cfg') (hprint : cfg.printCommand = false)
    (hurl : resolvePushURL cfg = some raw) (hurl' : resolvePushURL cfg' = some raw')
    (hredact : redactURL raw = redactURL raw') :
    SameButArgs (generateAndPush d cfg) (generateAndPush d cfg') := by
  obtain ⟨pushURL, rtmpBase, streamKey, token, rfl⟩ := hsame
  unfold generateAndPush
  dsimp only
  split
  · -- the file is made without the URL
    refine SameButArgs.bind (.refl _) fun err => ?_
    cases err with
    | some err => exact .done _
    | none => exact sameButArgs_push rfl hprint hprint hurl hurl' hredact
  · exact sameButArgs_push rfl hprint hprint hurl hurl' hredact

theorem sameButArgs_run (hsame : cfg.SameButTarget cfg') (hprint : cfg.printCommand = false)
    (hurl : resolvePushURL cfg = some raw) (hurl' : resolvePushURL cfg' = some raw')
    (hredact : redactURL raw = redactURL raw') : SameButArgs (run d cfg) (run d cfg') := by
  obtain ⟨pushURL, rtmpBase, streamKey, token, rfl⟩ := hsame
  unfold run
  dsimp only
  split
  · exact .refl _
  · split
    · exact sameButArgs_generateAndPush ⟨pushURL, rtmpBase, streamKey, token, rfl⟩ hprint hurl hurl' hredact
    · exact sameButArgs_generateAndPush ⟨pushURL, rtmpBase, streamKey, token, rfl⟩ hprint hurl hurl' hredact

theorem generateAndPush_prints (hurl : resolvePushURL cfg = some raw) (hmake : cfg.makeMP4 = [])
    (host : Nat → Host) :
    [lit "pushing to " ++ redactURL raw ++ lit "\n"] <+:
      ((generateAndPush d cfg).exec perform host []).2 := by
  unfold generateAndPush
  rw [if_neg (not_not_intro hmake)]
  exact push_prints hurl host

/-- A run that makes no file first prints where it pushes to. -/
theorem run_prints (hfps : 0 < cfg.fps) (hmake : cfg.makeMP4 = []) (hurl : resolvePushURL cfg = some raw)
    (host : Nat → Host) :
    [lit "pushing to " ++ redactURL raw ++ lit "\n"] <+: ((run d cfg).exec perform host []).2 := by
  unfold run
  rw [if_neg (Int.not_le.mpr hfps)]
  split
  · have hset : resolvePushURL { cfg with gop := wrapInt64 (cfg.fps * 2) } = some raw := hurl
    exact generateAndPush_prints hset hmake host
  · exact generateAndPush_prints hurl hmake host

end

/-- **A run hides the token where its line does**: take flags that differ at most in where to
push to, without `-print-command`, and URLs that differ in the token. If the token is covered,
the tool prints the same with both and ends the same, whatever its host answers. If it is not,
then what a run prints that gets to push tells the tokens apart. -/
theorem run_hides_token {d : Durations} {cfg cfg' : Config} (hsame : cfg.SameButTarget cfg')
    (hprint : cfg.printCommand = false) {u : PushURL} {token token' : Str} (htoken : IsValue token)
    (htoken' : IsValue token') (hcfg : resolvePushURL cfg = some (u.text token))
    (hcfg' : resolvePushURL cfg' = some (u.text token')) (host : Nat → Host) :
    (u.Covered → (run d cfg).exec perform host [] = (run d cfg').exec perform host []) ∧
    (0 < cfg.fps → cfg.makeMP4 = [] →
      ((run d cfg).exec perform host []).2 = ((run d cfg').exec perform host []).2 →
      token = token' ∨ u.Covered) := by
  have hredact := u.redactURL_eq_iff htoken htoken'
  constructor
  · intro hcovered
    exact (sameButArgs_run hsame hprint hcfg hcfg' (hredact.mpr (.inr hcovered))).exec host []
  · intro hfps hmake heq
    have hflags' : 0 < cfg'.fps ∧ cfg'.makeMP4 = [] := by
      obtain ⟨_, _, _, _, rfl⟩ := hsame
      exact ⟨hfps, hmake⟩
    obtain ⟨rest, hrest⟩ := run_prints (d := d) hfps hmake hcfg host
    obtain ⟨rest', hrest'⟩ := run_prints (d := d) hflags'.1 hflags'.2 hcfg' host
    -- the first lines are the same
    have hline := (List.cons.inj ((hrest.trans heq).trans hrest'.symm)).1
    apply hredact.mp
    exact List.append_cancel_left (List.append_cancel_right hline)

/-- Flags for the camera that have a file made first. -/
def cameraFlags (token : Str) : Config := { streamKey := lit "cam", token := token, makeMP4 := lit "t.mp4" }

theorem run_hides_token_camera :
    let printed (token : Str) (host : Nat → Host) :=
      (run ⟨fun _ => [], fun _ => []⟩ (cameraFlags token)).exec perform host []
    (∀ host, printed (lit "s3cret") host = printed (lit "other") host) ∧
      (printed (lit "s3cret") fun _ => {}).2.length = 3 := by
  have hurl : resolvePushURL (cameraFlags (lit "s3cret")) = some (cameraURL.text (lit "s3cret")) := by decide
  have hurl' : resolvePushURL (cameraFlags (lit "other")) = some (cameraURL.text (lit "other")) := by decide
  have hsame : (cameraFlags (lit "s3cret")).SameButTarget (cameraFlags (lit "other")) :=
    ⟨[], _, lit "cam", lit "other", rfl⟩
  constructor
  · intro host
    exact (run_hides_token hsame rfl (by decide) (by decide) hurl hurl' host).1
      (cameraURL.covered_of_index (by decide))
  · decide

end LiveServer.PushTest
