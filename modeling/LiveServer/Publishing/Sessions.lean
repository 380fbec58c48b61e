import LiveServer.Alone
import Mathlib.Data.List.Count

/-! The status of a stream and the sessions on it.

Beside the world a run keeps what the server cannot see: which accepted publishers
have not left yet, and which stream keys have been given. SRS reports the end of a
session once, after it was accepted; `uuid.New` gives no key twice. When requests
come one after another and nothing fails, a row says *publishing* exactly while one
session on its key is live. -/
namespace LiveServer
open Concurrent

/-- A client that was let in to publish on a key. -/
structure Session where
  client : Nat
  key : Str
  deriving DecidableEq

/-- A world with the sessions that are live in it and the keys given so far. -/
structure Sessions where
  world : World
  live : List Session
  keys : List Str

namespace Sessions

def start : Sessions := ⟨.empty, [], []⟩

/-- The live sessions on a key. -/
def count (c : Sessions) (key : Str) : Nat := c.live.countP (·.key = key)

/-- A new stream gets a new key, and only a live session ends. -/
def Permits (c : Sessions) : Call → Prop
  | .createStream inp _ => inp.key.val ∉ c.keys
  | .onUnpublish client _ key => ⟨client, key⟩ ∈ c.live
  | .getTasks _ => False
  | .updateTask .. => False
  | _ => True

/-- An accepted publish starts a session, its end removes it. -/
def after (c : Sessions) (call : Call) (reply : Reply) (w : World) : Sessions :=
  match call with
  | .createStream inp _ => { c with world := w, keys := inp.key.val :: c.keys }
  | .onPublish client _ key _ =>
    { c with world := w, live := if reply = .error none then ⟨client, key⟩ :: c.live else c.live }
  | .onUnpublish client _ key => { c with world := w, live := c.live.erase ⟨client, key⟩ }
  | _ => { c with world := w }

end Sessions

/-- Requests one after another, nothing failing, entries expiring at any time. -/
inductive SessionRun (s : StreamService) : Sessions → Prop
  | start : SessionRun s .start
  | call {c : Sessions} {call : Call} {reply : Reply} {w : World} : SessionRun s c → c.Permits call →
      Prog.Runs World.perform noFaults (s.body call) c.world reply w →
      SessionRun s (c.after call reply w)
  | expire {c : Sessions} (keys : List Str) : SessionRun s c →
      SessionRun s { c with world := c.world.expire keys }

/-- What a row has to do with the sessions on its key. -/
structure Sessions.Follows (c : Sessions) (r : Stream) : Prop where
  key : r.streamKey ∈ c.keys
  token : r.pushToken ≠ []
  status : (r.status = .publishing ∧ c.count r.streamKey = 1) ∨
    ((r.status = .created ∨ r.status = .ended) ∧ c.count r.streamKey = 0)

structure Tracked (c : Sessions) : Prop where
  row : ∀ r ∈ c.world.db.streams.rows, c.Follows r
  session : ∀ x ∈ c.live, x.key ∈ c.keys

section
variable {s : StreamService} {c : Sessions} {w : World} {r row : Stream} {key : Str} {client : Nat}

/-! ### One row -/

/-- Of the rows of a table only one has the key. -/
theorem eq_or_apart {db : DB} (hrow : db.streamOf key = some row) (hr : r ∈ db.streams.rows) :
    r = row ∨ (r.id ≠ row.id ∧ r.streamKey ≠ key) := by
  by_cases hid : r.id = row.id
  · have hat := DB.streamAt_eq_some.mpr ⟨hr, hid⟩
    exact .inl (Option.some.inj (hat.symm.trans (DB.streamAt_of_streamOf hrow)))
  · refine .inr ⟨hid, fun hkey => hid ?_⟩
    have hof := DB.streamOf_eq_some.mpr ⟨hr, hkey⟩
    rw [Option.some.inj (hof.symm.trans hrow)]

/-- An update of the row with a key leaves the rows with other keys. -/
theorem rows_of_updated {db db' : DB} {f : Stream → Stream} {P : Stream → Prop}
    (hrow : db.streamOf key = some row) (hupd : db.Updated db' row.id f) (hself : P (f row))
    (hother : ∀ r ∈ db.streams.rows, r.streamKey ≠ key → P r) : ∀ r ∈ db'.streams.rows, P r := by
  intro x hx
  obtain ⟨r, hr, rfl⟩ := (hupd.mem x).mp hx
  rcases eq_or_apart hrow hr with rfl | ⟨hid, hkey⟩
  · rw [if_pos rfl]
    exact hself
  · rw [if_neg hid]
    exact hother r hr hkey

/-- A row follows the sessions on its own key only. -/
theorem Sessions.Follows.of_count {c' : Sessions} (h : c.Follows r) (hkeys : c.keys ⊆ c'.keys)
    (hcount : c'.count r.streamKey = c.count r.streamKey) : c'.Follows r where
  key := hkeys h.key
  token := h.token
  status := by
    rw [hcount]
    exact h.status

theorem Sessions.Follows.publishing_iff (h : c.Follows r) :
    r.status = .publishing ↔ c.count r.streamKey = 1 := by
  rcases h.status with ⟨hst, hc⟩ | ⟨hst, hc⟩
  · exact iff_of_true hst hc
  · refine iff_of_false ?_ (by omega)
    rcases hst with hst | hst <;> rw [hst] <;> decide

theorem Sessions.Follows.idle_iff (h : c.Follows r) :
    (r.status = .created ∨ r.status = .ended) ↔ c.count r.streamKey = 0 := by
  rcases h.status with ⟨hst, hc⟩ | ⟨hst, hc⟩
  · refine iff_of_false ?_ (by omega)
    rw [hst]
    decide
  · exact iff_of_true hst hc

/-- A row that is not publishing has no session. -/
theorem Sessions.Follows.count_eq_zero (h : c.Follows r) (hst : r.status ≠ .publishing) :
    c.count r.streamKey = 0 := by
  rcases h.status with ⟨hst', _⟩ | ⟨_, hc⟩
  · exact absurd hst' hst
  · exact hc

/-- The end of a session does not count on other keys. -/
theorem Sessions.count_erase (c : Sessions) (client : Nat) {k : Str} (hne : k ≠ key) :
    List.countP (·.key = k) (c.live.erase ⟨client, key⟩) = c.count k := by
  rw [List.countP_erase, if_neg fun hc => hne (of_decide_eq_true hc.2).symm]
  rfl

/-! ### What each outcome keeps -/

theorem tracked_start : Tracked .start where
  row _ h := absurd h List.not_mem_nil
  session _ h := absurd h List.not_mem_nil

theorem Tracked.same (h : Tracked c) (hdb : w.db = c.world.db) : Tracked { c with world := w } where
  row r hr := (h.row r (hdb ▸ hr)).of_count (fun _ h => h) rfl
  session := h.session

/-- Giving a key away disturbs no row. -/
theorem Tracked.given (h : Tracked c) (key : Str) : Tracked { c with keys := key :: c.keys } where
  row r hr := (h.row r hr).of_count (List.subset_cons_self _ _) rfl
  session x hx := List.mem_cons_of_mem _ (h.session x hx)

theorem Tracked.create (h : Tracked c) {inp : Inputs} {req : CreateStreamRequest} {token id : Str}
    {now : Time} {stream : Stream} (hfresh : inp.key.val ∉ c.keys)
    (htok : generatePublishToken inp.random = .ok token)
    (hc : c.world.db.createStream (s.newStream inp req token) id now = .ok (stream, w.db)) :
    Tracked { c with world := w, keys := inp.key.val :: c.keys } where
  row r hr := by
    obtain ⟨hs', row, hcol, _, hins⟩ := DB.createStream_ok hc
    rcases (hins.mem r).mp hr with hr | rfl
    · exact (h.row r hr).of_count (List.subset_cons_self _ _) rfl
    · have hnew := s.newStream_opened hs' hcol
      refine ⟨?_, ?_, .inr ⟨.inl hnew.status, ?_⟩⟩
      · rw [hnew.streamKey]
        exact List.mem_cons_self
      · rw [hnew.pushToken]
        exact (generatePublishToken_ok htok).ne_nil
      · -- no session is on a key that was never given
        refine List.countP_eq_zero.mpr fun x hx hxkey => hfresh ?_
        have hmem := h.session x hx
        rwa [of_decide_eq_true hxkey, hnew.streamKey] at hmem
  session x hx := List.mem_cons_of_mem _ (h.session x hx)

theorem Tracked.publish (h : Tracked c) {extra : StatusExtra}
    (hrow : c.world.db.streamOf key = some row) (hst : row.status ≠ .publishing)
    (hupd : c.world.db.Updated w.db row.id (Stream.withStatus .publishing extra)) :
    Tracked { c with world := w, live := ⟨client, key⟩ :: c.live } := by
  obtain ⟨hmem, rfl⟩ := DB.streamOf_eq_some.mp hrow
  have hold := h.row row hmem
  refine ⟨rows_of_updated hrow hupd ?_ fun r hr hne => ?_, fun x hx => ?_⟩
  · refine ⟨hold.key, hold.token, .inl ⟨rfl, ?_⟩⟩
    have hzero := hold.count_eq_zero hst
    show List.countP (·.key = row.streamKey) (_ :: c.live) = 1
    rw [List.countP_cons_of_pos (by simp)]
    exact congrArg (· + 1) hzero
  · refine (h.row r hr).of_count (fun _ h => h) ?_
    exact List.countP_cons_of_neg (by simpa using Ne.symm hne)
  · rcases List.mem_cons.mp hx with rfl | hx
    · exact hold.key
    · exact h.session x hx

theorem Tracked.unpublish (h : Tracked c) {extra : StatusExtra} (hlive : ⟨client, key⟩ ∈ c.live)
    (hrow : c.world.db.streamOf key = some row)
    (hupd : c.world.db.Updated w.db row.id (Stream.withStatus .ended extra)) :
    Tracked { c with world := w, live := c.live.erase ⟨client, key⟩ } := by
  obtain ⟨hmem, rfl⟩ := DB.streamOf_eq_some.mp hrow
  have hold := h.row row hmem
  refine ⟨rows_of_updated hrow hupd ?_ fun r hr hne => ?_, fun x hx => ?_⟩
  · refine ⟨hold.key, hold.token, .inr ⟨.inr rfl, ?_⟩⟩
    -- the session that ends is the only one
    have hpos : 0 < c.count row.streamKey := List.countP_pos_iff.mpr ⟨_, hlive, by simp⟩
    have hone : c.count row.streamKey ≤ 1 := by
      rcases hold.status with ⟨_, hc⟩ | ⟨_, hc⟩ <;> omega
    show List.countP (·.key = row.streamKey) (c.live.erase ⟨client, row.streamKey⟩) = 0
    rw [List.countP_erase, if_pos ⟨hlive, by simp⟩]
    exact Nat.sub_eq_zero_of_le hone
  · exact (h.row r hr).of_count (fun _ h => h) (c.count_erase client hne)
  · exact h.session x (List.mem_of_mem_erase hx)

/-- The end of a session on a stream that is gone. -/
theorem Tracked.left (h : Tracked c) (hdb : w.db = c.world.db) (hnone : c.world.db.streamOf key = none) :
    Tracked { c with world := w, live := c.live.erase ⟨client, key⟩ } where
  row r hr := by
    have hr : r ∈ c.world.db.streams.rows := hdb ▸ hr
    have hne : r.streamKey ≠ key := by
      intro hkey
      have hof := DB.streamOf_eq_some.mpr ⟨hr, hkey⟩
      exact absurd (hof.symm.trans hnone) nofun
    exact (h.row r hr).of_count (fun _ h => h) (c.count_erase client hne)
  session x hx := h.session x (List.mem_of_mem_erase hx)

theorem Tracked.refresh (h : Tracked c) {u token pushURL : Str} (htok : token ≠ [])
    (hupd : c.world.db.Updated w.db u (Stream.withPushAuth token pushURL)) :
    Tracked { c with world := w } where
  row x hx := by
    obtain ⟨r, hr, rfl⟩ := (hupd.mem x).mp hx
    have hold := h.row r hr
    split
    · exact ⟨hold.key, htok, hold.status⟩
    · exact hold.of_count (fun _ h => h) rfl
  session := h.session

theorem Tracked.delete (h : Tracked c) {u : Str} (hdel : c.world.db.Deleted w.db u) :
    Tracked { c with world := w } where
  row r hr := (h.row r ((hdel.mem r).mp hr).1).of_count (fun _ h => h) rfl
  session := h.session

/-! ### Whole runs -/

/-- One request keeps rows and sessions together. -/
theorem Tracked.call (h : Tracked c) {call : Call} {reply : Reply} (hcall : c.Permits call)
    (hrun : Prog.Runs World.perform noFaults (s.body call) c.world reply w) :
    Tracked (c.after call reply w) := by
  cases call with
  | createStream inp req =>
    obtain ⟨_, _, hrun⟩ := Prog.Runs.of_map hrun
    cases hrun.wp (StreamService.alone_createStream inp req) with
    | failed hf => exact (h.same hf.db).given inp.key.val
    | created htok hc => exact h.create hcall htok hc
  | getStream id => exact h.same (body_quiet (fun o ho => by cases ho <;> rfl) hrun).db
  | deleteStream id =>
    obtain ⟨_, _, hrun⟩ := Prog.Runs.of_map hrun
    cases hrun.wp (StreamService.alone_deleteStream id) with
    | kept hf => exact h.same hf.db
    | cleaned _ _ hdb =>
      rcases hdb with hdb | hdel
      · exact h.same hdb
      · obtain ⟨u, _, hdel⟩ := DB.deleteStream_ok hdel
        exact h.delete hdel
  | startStream id => exact h.same (body_quiet (fun o ho => by cases ho <;> rfl) hrun).db
  | stopStream id => exact h.same (body_quiet (fun o ho => by cases ho <;> rfl) hrun).db
  | refreshPushToken inp id =>
    obtain ⟨_, _, hrun⟩ := Prog.Runs.of_map hrun
    cases hrun.wp (StreamService.alone_refreshPushToken inp id) with
    | kept hf => exact h.same hf.db
    | refreshed _ _ htok hupd =>
      obtain ⟨u, _, hupd⟩ := DB.updateStreamPushAuth_ok hupd
      exact h.refresh ((generatePublishToken_ok htok).ne_nil) hupd
  | onPublish client now key token =>
    obtain ⟨_, rfl, hpub⟩ := Prog.Runs.of_map hrun
    cases hpub.wp (StreamService.alone_onPublish now key token) with
    | rejected hf => exact h.same hf.db
    | accepted hrow _ hst hupd =>
      obtain ⟨u, hu, hupd⟩ := DB.updateStreamStatus_ok hupd
      cases (DB.uuidIn_streamAt (DB.streamAt_of_streamOf hrow)).symm.trans hu
      exact h.publish hrow hst hupd
  | onUnpublish client now key =>
    obtain ⟨_, _, hrun⟩ := Prog.Runs.of_map hrun
    cases hrun.wp (StreamService.alone_onUnpublish now key) with
    | ignored hf hnone => exact h.left hf.db (hnone up_noFaults)
    | ended hrow hupd =>
      obtain ⟨u, hu, hupd⟩ := DB.updateStreamStatus_ok hupd
      cases (DB.uuidIn_streamAt (DB.streamAt_of_streamOf hrow)).symm.trans hu
      exact h.unpublish hcall hrow hupd
  | onPlay key =>
    obtain ⟨_, _, hrun⟩ := Prog.Runs.of_map hrun
    cases hrun.wp (StreamService.alone_onPlay key) with
    | kept hf => exact h.same hf.db
    | counted _ hdb => exact h.same hdb
  | onStop key =>
    obtain ⟨_, _, hrun⟩ := Prog.Runs.of_map hrun
    cases hrun.wp (StreamService.alone_onStop key) with
    | kept hf => exact h.same hf.db
    | counted _ hdb => exact h.same hdb
  | getTasks agentID => exact hcall.elim
  | updateTask id status errorMsg => exact hcall.elim

theorem SessionRun.tracked (h : SessionRun s c) : Tracked c := by
  induction h with
  | start => exact tracked_start
  | call _ hcall hrun ih => exact ih.call hcall hrun
  | expire keys _ ih => exact ih.same rfl

/-- A publisher with the right token is let in exactly when no session is live. -/
theorem Sessions.Follows.accepts_iff (h : c.Follows row) (hrow : c.world.db.streamOf row.streamKey = some row)
    {now : Time} {token : Str} {e : Option GoError}
    (hrun : Prog.Runs World.perform noFaults (s.onPublish now row.streamKey token) c.world e w) :
    (e = none → c.count row.streamKey = 0) ∧
      (token = row.pushToken → c.count row.streamKey = 0 → e = none) := by
  cases hrun.wp (StreamService.alone_onPublish now row.streamKey token) with
  | rejected _ hwhy =>
    refine ⟨nofun, fun htok hzero => ?_⟩
    rcases hwhy up_noFaults row hrow with hval | hst
    · have hgood := validatePublishToken_none.mpr ⟨htok.symm, htok ▸ h.token⟩
      exact absurd hgood hval
    · have hone := h.publishing_iff.mp hst
      omega
  | accepted hrow' _ hst =>
    cases hrow.symm.trans hrow'
    exact ⟨fun _ => h.count_eq_zero hst, fun _ _ => rfl⟩

/-- **Status tracks the session**: a row is publishing while exactly one session on its
key is live, created or ended while there is none; and a publisher is let in only
when there is none, with the right token always. -/
theorem status_tracks_session (h : SessionRun s c) (id : Str) (row : Stream)
    (hrow : c.world.db.streamAt id = some row) :
    (row.status = .publishing ↔ c.count row.streamKey = 1) ∧
    ((row.status = .created ∨ row.status = .ended) ↔ c.count row.streamKey = 0) ∧
    ∀ client now token reply w,
      Prog.Runs World.perform noFaults (s.body (.onPublish client now row.streamKey token)) c.world reply w →
      (reply = .error none → c.count row.streamKey = 0) ∧
        (token = row.pushToken → c.count row.streamKey = 0 → reply = .error none) := by
  have hfollows := h.tracked.row row (DB.streamAt_eq_some.mp hrow).1
  refine ⟨hfollows.publishing_iff, hfollows.idle_iff, fun client now token reply w hrun => ?_⟩
  obtain ⟨e, rfl, hpub⟩ := Prog.Runs.of_map hrun
  obtain ⟨hacc, hlet⟩ := hfollows.accepts_iff (DB.streamOf_of_streamAt hrow) hpub
  exact ⟨fun he => hacc (by cases he; rfl), fun htok hzero => congrArg _ (hlet htok hzero)⟩

end

/-- One request of the sample server, nothing failing. -/
def Sessions.serve (c : Sessions) (call : Call) : Sessions :=
  let r := (StreamService.sample.body call).exec World.perform (fun _ => { id := sampleID }) c.world
  c.after call r.1 r.2

theorem SessionRun.serve {c : Sessions} (h : SessionRun .sample c) (call : Call) (hcall : c.Permits call) :
    SessionRun .sample (c.serve call) :=
  .call h hcall (Prog.exec_runs _ _ _ fun _ _ => rfl)

/-- A stream that is published, left and published again is publishing, with one session. -/
theorem status_tracks_session_run :
    ∃ c row, SessionRun .sample c ∧ c.world.db.streamAt sampleID = some row ∧
      row.status = .publishing ∧ c.count row.streamKey = 1 := by
  have hcreated := SessionRun.start.serve (.createStream (.sample 1) {})
    (show sampleKey.val ∉ ([] : List Str) from List.not_mem_nil)
  have hpublished := hcreated.serve (.onPublish 1 0 sampleKey.val (sampleToken 1)) trivial
  have hleft := hpublished.serve (.onUnpublish 1 0 sampleKey.val)
    (show (⟨1, sampleKey.val⟩ : Session) ∈ _ by decide)
  have hagain := hleft.serve (.onPublish 2 0 sampleKey.val (sampleToken 1)) trivial
  generalize hc : Sessions.serve _ (.onPublish 2 0 sampleKey.val (sampleToken 1)) = c at hagain
  have hstatus : (c.world.db.streamAt sampleID).map Stream.status = some .publishing := by
    rw [← hc]
    decide
  obtain ⟨row, hrow, hst⟩ := Option.map_eq_some_iff.mp hstatus
  exact ⟨c, row, hagain, hrow, hst, (status_tracks_session hagain sampleID row hrow).1.mp hst⟩

end LiveServer
