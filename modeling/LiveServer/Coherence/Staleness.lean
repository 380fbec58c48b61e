import LiveServer.Concurrent.Refinement
import LiveServer.Footprint
import Mathlib.Data.List.Induction

/-! How old a cached status can be.

Elsewhere an entry with a TTL may be gone at any moment. Here Redis has a clock: time passes
between calls, a `SET` with a TTL dates its key, and the keys whose date has passed are gone.
The server with the clock refines the one without (`refinesUntimed`). What `GetStream` answers
is then the row as it was during the call, or a status that was put into Redis no longer ago
than the TTL, by a call whose `INSERT` or `UPDATE` of that status the database had accepted. An
`UPDATE` is accepted also when the row is gone by then: such a status is cached for a stream
that does not exist. -/
namespace LiveServer
open Concurrent Relational

/-! ### Redis with its clock -/

/-- The world, what the clock of Redis shows, and when the keys with a TTL run out. -/
structure Clocked where
  world : World
  now : Time
  deadlines : List (Str × Time)

/-- What is left to the outside, and the time since the call before. Which keys have expired
is not left to it. -/
structure Moment where
  choice : Choice := {}
  elapsed : Nat := 0

namespace Clocked

def clock (w : Clocked) (m : Moment) : Time := w.now + m.elapsed

/-- The keys whose date has passed. -/
def due (w : Clocked) (m : Moment) : List Str := (w.deadlines.filter (·.2 < w.clock m)).map Prod.fst

def choice (m : Moment) (w : Clocked) : Choice := { m.choice with expired := w.due m }

end Clocked

def forget (keys : List Str) (deadlines : List (Str × Time)) : List (Str × Time) :=
  deadlines.filter (·.1 ∉ keys)

/-- What a call that succeeds does to the dates: a `SET` with a TTL gives one, a `SET` without
and a `DEL` take it, `INCR` and `DECR` leave it. -/
def Op.redates (ttl now : Time) (o : Op) (deadlines : List (Str × Time)) : List (Str × Time) :=
  match o with
  | .setStreamStatus id _ => (statusKey id, now + ttl) :: forget [statusKey id] deadlines
  | .setPlayURLs id _ => (playURLsKey id, now + ttl) :: forget [playURLsKey id] deadlines
  | .resetViewers id => forget [viewersKey id] deadlines
  | .setViewers id _ => forget [viewersKey id] deadlines
  | .deleteStreamCache id => forget [statusKey id, playURLsKey id, viewersKey id] deadlines
  | _ => deadlines

/-- One call, at its time. -/
def Clocked.perform (ttl : Time) (m : Moment) (o : Op) (w : Clocked) : o.Res × Clocked :=
  let done := World.perform (w.choice m) o w.world
  let left := w.deadlines.filter (w.clock m ≤ ·.2)
  (done.1,
    { world := done.2
      now := w.clock m
      deadlines := if m.choice.fault then left else o.redates ttl (w.clock m) left })

namespace StreamService

/-- The server, with the TTL of `cache_ttl`. -/
def timed (s : StreamService) (ttl : Time) : Machine Clocked Op Op.Res Moment Call Reply :=
  ⟨Clocked.perform ttl, s.body⟩

/-- A run with the clock is a run in which keys expire when their date has passed. -/
def refinesUntimed (s : StreamService) (ttl : Time) : Refinement (s.timed ttl) s.machine where
  view := Clocked.world
  choose m w := w.choice m
  body := rfl
  perform _ _ _ := rfl

end StreamService

abbrev TimedTransition := Transition Clocked Op Op.Res Moment Call Reply

/-! ### Dates -/

section
variable {ttl now : Time} {o : Op} {k : Str} {date : Time} {deadlines : List (Str × Time)} {w : Clocked}
  {m : Moment}

theorem mem_forget {keys : List Str} (hk : k ∉ keys) (h : (k, date) ∈ deadlines) :
    (k, date) ∈ forget keys deadlines :=
  List.mem_filter.mpr ⟨h, decide_eq_true hk⟩

/-- A call leaves the dates of the keys it does not write. -/
theorem Op.mem_redates (hk : k ∉ o.keys) (h : (k, date) ∈ deadlines) :
    (k, date) ∈ o.redates ttl now deadlines := by
  cases o with
  | setStreamStatus id d => exact List.mem_cons_of_mem _ (mem_forget hk h)
  | setPlayURLs id d => exact List.mem_cons_of_mem _ (mem_forget hk h)
  | resetViewers id => exact mem_forget hk h
  | setViewers id n => exact mem_forget hk h
  | deleteStreamCache id => exact mem_forget hk h
  | _ => exact h

/-- An entry with a TTL that is still there is not due. -/
theorem Clocked.le_of_entry {e : Entry} (hentry : w.world.redis.expire (w.due m) k = some e)
    (hvolatile : e.volatile = true) (hdate : (k, date) ∈ w.deadlines) : w.clock m ≤ date := by
  by_contra hlt
  have hdue : k ∈ w.due m :=
    List.mem_map.mpr ⟨(k, date), List.mem_filter.mpr ⟨hdate, decide_eq_true (Int.not_le.mp hlt)⟩, rfl⟩
  exact Redis.not_mem_of_expire hentry hvolatile hdue

/-- What a call leaves alone, with its date. -/
theorem Clocked.kept {e : Entry} (hk : ¬ (k ∈ o.keys ∧ m.choice.fault = false))
    (hentry : (Clocked.perform ttl m o w).2.world.redis k = some e) :
    w.world.redis.expire (w.due m) k = some e ∧
      ∀ date, (k, date) ∈ w.deadlines → w.clock m ≤ date →
        (k, date) ∈ (Clocked.perform ttl m o w).2.deadlines := by
  have hleft (date : Time) (hdate : (k, date) ∈ w.deadlines) (hle : w.clock m ≤ date) :
      (k, date) ∈ w.deadlines.filter (w.clock m ≤ ·.2) :=
    List.mem_filter.mpr ⟨hdate, decide_eq_true hle⟩
  cases hf : m.choice.fault with
  | true =>
    have hredis : (World.perform (w.choice m) o w.world).2.redis = w.world.redis.expire (w.due m) :=
      World.perform_redis_fault (show (w.choice m).fault = true from hf) o w.world
    refine ⟨hredis ▸ hentry, ?_⟩
    intro date hdate hle
    show (k, date) ∈ (if m.choice.fault then _ else _)
    rw [if_pos hf]
    exact hleft date hdate hle
  | false =>
    have hk : k ∉ o.keys := fun hmem => hk ⟨hmem, hf⟩
    have hredis := (World.perform_redis (w.choice m) o w.world).other hk
    refine ⟨hredis.symm.trans hentry, ?_⟩
    intro date hdate hle
    show (k, date) ∈ (if m.choice.fault then _ else _)
    rw [if_neg (by simp [hf])]
    exact Op.mem_redates hk (hleft date hdate hle)

/-- A status key is written with a status only by `SetStreamStatus`, which dates it. -/
theorem Clocked.written {id : Str} {d : StreamStatusData} {v : Bool} (hk : statusKey id ∈ o.keys)
    (hf : m.choice.fault = false)
    (hentry : (Clocked.perform ttl m o w).2.world.redis (statusKey id) = some ⟨.status d, v⟩) :
    o = .setStreamStatus id d ∧ v = true ∧
      (statusKey id, w.clock m + ttl) ∈ (Clocked.perform ttl m o w).2.deadlines := by
  have hf : (w.choice m).fault = false := hf
  cases o with
  | setStreamStatus id' d' =>
    cases statusKey_inj.mp (List.mem_singleton.mp hk)
    have hset := World.perform_setStreamStatus (w := w.world) hf id d'
    cases Option.some.inj (hset.symm.trans hentry)
    refine ⟨rfl, rfl, ?_⟩
    show _ ∈ (if m.choice.fault then _ else _)
    rw [if_neg (show ¬ m.choice.fault = true from Bool.eq_false_iff.mp hf)]
    exact List.mem_cons_self
  | deleteStreamCache id' =>
    have hid : id = id' := by simpa [Op.keys] using hk
    subst hid
    have hdel := congrArg Redis.Entries.status (World.perform_deleteStreamCache (w := w.world) hf id)
    cases hdel.symm.trans hentry
  | _ => simp [Op.keys] at hk

end

/-! ### Where an entry comes from -/

/-- A status is put into Redis. -/
def writes (id : Str) (d : StreamStatusData) (t : TimedTransition) : Prop :=
  ∃ i call m, t.performed = some ⟨i, call, .setStreamStatus id d, m⟩ ∧ m.choice.fault = false

/-- A key is written, or deleted. -/
def rewrites (k : Str) (t : TimedTransition) : Prop :=
  ∃ i call o m, t.performed = some ⟨i, call, o, m⟩ ∧ k ∈ o.keys ∧ m.choice.fault = false

/-- Redis as a server with this TTL leaves it: a cached status has a date. -/
def Fresh (ttl : Time) (w : Clocked) : Prop :=
  ∀ id d v, w.world.redis (statusKey id) = some ⟨.status d, v⟩ →
    v = true ∧ ∃ date, (statusKey id, date) ∈ w.deadlines ∧ date ≤ w.now + ttl

/-- The last write of a cached status that runs out at `date`: in the run, or before it. -/
inductive Origin (ttl : Time) (w : Clocked) (id : Str) (d : StreamStatusData) (ts : List TimedTransition)
    (date : Time) : Prop
  | written {a b : List TimedTransition} {u : TimedTransition} : ts = a ++ u :: b → writes id d u →
      (∀ x ∈ b, ¬ rewrites (statusKey id) x) → date = u.after.world.now + ttl → Origin ttl w id d ts date
  | before : w.world.redis (statusKey id) = some ⟨.status d, true⟩ →
      (∀ x ∈ ts, ¬ rewrites (statusKey id) x) → date ≤ w.now + ttl → Origin ttl w id d ts date

section
variable {s : StreamService} {ttl : Time} {w : Clocked} {id : Str} {d : StreamStatusData}
  {ts : List TimedTransition}

theorem Origin.step {date : Time} (h : Origin ttl w id d ts date) {t : TimedTransition}
    (ht : ¬ rewrites (statusKey id) t) : Origin ttl w id d (ts ++ [t]) date := by
  have hlast {l : List TimedTransition} (hl : ∀ x ∈ l, ¬ rewrites (statusKey id) x) :
      ∀ x ∈ l ++ [t], ¬ rewrites (statusKey id) x := by
    intro x hx
    rcases List.mem_append.mp hx with hx | hx
    · exact hl x hx
    · exact List.mem_singleton.mp hx ▸ ht
  cases h with
  | written heq hw hb hdate => exact .written (by rw [heq, List.append_assoc]; rfl) hw (hlast hb) hdate
  | before hw hts hdate => exact .before hw (hlast hts) hdate

/-- **Every cached status has its origin.** -/
theorem entry_origin (hw : Fresh ttl w) (h : (s.timed ttl).Trace (.start w) ts) {v : Bool}
    (hentry : (Machine.final (.start w) ts).world.world.redis (statusKey id) = some ⟨.status d, v⟩) :
    v = true ∧ ∃ date, (statusKey id, date) ∈ (Machine.final (.start w) ts).world.deadlines ∧
      Origin ttl w id d ts date := by
  induction ts using List.reverseRecOn generalizing d v with
  | nil =>
    obtain ⟨rfl, date, hmem, hle⟩ := hw id d v hentry
    exact ⟨rfl, date, hmem, .before hentry (fun _ hx => absurd hx List.not_mem_nil) hle⟩
  | append_singleton a t ih =>
    obtain ⟨ha, hbefore, hv, _⟩ := Machine.Trace.split h
    rw [Machine.final_append] at hentry ⊢
    have hentry : t.after.world.world.redis (statusKey id) = some ⟨.status d, v⟩ := hentry
    show v = true ∧ ∃ date, (statusKey id, date) ∈ t.after.world.deadlines ∧ _
    rcases hv.cases with ⟨call, hs⟩ | ⟨i, m, call, o, k, r, w', hs⟩
    · -- a new call does nothing yet
      have hidle : ¬ rewrites (statusKey id) t := by
        rintro ⟨i, c, o, m, hp, _⟩
        rw [hs.performed] at hp
        cases hp
      rw [hs.after] at hentry ⊢
      rw [hbefore] at hentry ⊢
      obtain ⟨hvol, date, hmem, horigin⟩ := ih ha hentry
      exact ⟨hvol, date, hmem, horigin.step hidle⟩
    · have hafter : t.after.world = (Clocked.perform ttl m o t.before.world).2 := hs.world_after
      rw [hafter] at hentry ⊢
      by_cases hwrite : statusKey id ∈ o.keys ∧ m.choice.fault = false
      · -- the key is written: with this status, since it is not deleted
        obtain ⟨rfl, rfl, hdate⟩ := Clocked.written hwrite.1 hwrite.2 hentry
        refine ⟨rfl, _, hdate, .written rfl ⟨i, call, m, hs.performed, hwrite.2⟩ ?_ ?_⟩
        · intro x hx
          exact absurd hx List.not_mem_nil
        · rw [hafter]
          rfl
      · obtain ⟨hleft, hdates⟩ := Clocked.kept hwrite hentry
        have hold := (Redis.expire_le _ _).some hleft
        rw [hbefore] at hold
        obtain ⟨rfl, date, hmem, horigin⟩ := ih ha hold
        rw [← hbefore] at hmem
        refine ⟨rfl, date, hdates date hmem (Clocked.le_of_entry hleft rfl hmem), horigin.step ?_⟩
        rintro ⟨i', call', o', m', hp, hkey, hf⟩
        rw [hs.performed] at hp
        cases hp
        exact hwrite ⟨hkey, hf⟩

/-- A cached status that is read is no older than the TTL. -/
theorem read_origin (hw : Fresh ttl w) {a b : List TimedTransition} {t : TimedTransition}
    (h : (s.timed ttl).Trace (.start w) (a ++ t :: b)) {i : Nat} {call : Call} {m : Moment}
    (hp : t.performed = some ⟨i, call, .getStreamStatus id, m⟩)
    (hread : (Clocked.perform ttl m (.getStreamStatus id) t.before.world).1 = .ok (some d)) :
    ∃ date, t.after.world.now ≤ date ∧ Origin ttl w id d a date := by
  obtain ⟨ha, hbefore, hv, _⟩ := Machine.Trace.split h
  obtain ⟨k, r, w', hs⟩ := hv.steps hp
  have hnow : t.after.world.now = t.before.world.clock m := by
    rw [hs.world_after]
    rfl
  obtain ⟨v, hleft⟩ : ∃ v, t.before.world.world.redis.expire (t.before.world.due m) (statusKey id) =
      some ⟨.status d, v⟩ := World.perform_getStreamStatus_ok hread
  have hold := (Redis.expire_le _ _).some hleft
  rw [hbefore] at hold
  obtain ⟨rfl, date, hmem, horigin⟩ := entry_origin hw ha hold
  rw [← hbefore] at hmem
  exact ⟨date, hnow ▸ Clocked.le_of_entry hleft rfl hmem, horigin⟩

/-! ### Who writes a status -/

/-- The database has taken a status for a row. -/
def Recorded (id : Str) (status : Status) (e : Prog.Event Op Op.Res) : Prop :=
  (∃ x stream, e = ⟨.createStream x, .ok stream⟩ ∧ stream.id = id ∧ stream.status = status) ∨
  ∃ extra, e = ⟨.updateStreamStatus id status extra, none⟩

/-- A step in which the database accepts a status of a stream from the call at an index: the
`INSERT` that gives the stream its id, or an `UPDATE`, which may find no row. -/
inductive Accepts (ttl : Time) (id : Str) (status : Status) (j : Nat) (call : Call) (v : TimedTransition) : Prop
  | insert {x stream : Stream} {m : Moment} : v.performed = some ⟨j, call, .createStream x, m⟩ →
      (Clocked.perform ttl m (.createStream x) v.before.world).1 = .ok stream → stream.id = id →
      stream.status = status → Accepts ttl id status j call v
  | update {extra : StatusExtra} {m : Moment} :
      v.performed = some ⟨j, call, .updateStreamStatus id status extra, m⟩ →
      (Clocked.perform ttl m (.updateStreamStatus id status extra) v.before.world).1 = none →
      Accepts ttl id status j call v

theorem Recorded.accepts {status : Status} {j : Nat} {call : Call} {v : TimedTransition} {o : Op} {m : Moment}
    (hp : v.performed = some ⟨j, call, o, m⟩)
    (h : Recorded id status ⟨o, (Clocked.perform ttl m o v.before.world).1⟩) :
    Accepts ttl id status j call v := by
  rcases h with ⟨x, stream, heq, hid, hstatus⟩ | ⟨extra, heq⟩
  · obtain ⟨rfl, hres⟩ := Prog.Event.mk.inj heq
    exact .insert hp (eq_of_heq hres) hid hstatus
  · obtain ⟨rfl, hres⟩ := Prog.Event.mk.inj heq
    exact .update hp (eq_of_heq hres)

/-- The row, if there is one, has the status then. -/
theorem Recorded.row {status : Status} {ch : Choice} {o : Op} {w : World}
    (h : Recorded id status ⟨o, (World.perform ch o w).1⟩) {row : Stream}
    (hrow : (World.perform ch o w).2.db.streamAt id = some row) : row.status = status := by
  rcases h with ⟨x, stream, heq, rfl, rfl⟩ | ⟨extra, heq⟩
  · obtain ⟨rfl, hres⟩ := Prog.Event.mk.inj heq
    obtain ⟨rfl, row', hcols, hid, hins⟩ := DB.createStream_ok (World.perform_createStream_ok (eq_of_heq hres))
    have hat := hins.streamAt row'.id
    rw [if_pos rfl, hid] at hat
    cases hat.symm.trans hrow
    obtain ⟨_, _, _, _, _, _, _, rfl⟩ := DB.columns_spec hcols
    rfl
  · obtain ⟨rfl, hres⟩ := Prog.Event.mk.inj heq
    obtain ⟨u, hu, hupd⟩ := DB.updateStreamStatus_ok (World.perform_updateStreamStatus_none (eq_of_heq hres))
    have hid := DB.uuidIn_streamAt hrow
    cases hu.symm.trans hid
    rw [hupd.streamAt, if_pos rfl] at hrow
    obtain ⟨row₀, _, rfl⟩ := Option.map_eq_some_iff.mp hrow
    rfl

/-- A call that caches no status but this one, for this stream. -/
def CachesOnly (id : Str) (status : Status) (o : Op) : Prop :=
  ∀ id' d, o = .setStreamStatus id' d → id' = id ∧ d.status = status

/-- What is cached after it is recorded is guarded by that. -/
theorem guards_recorded {p : Server α} {stream : Str} {status : Status} {e : Prog.Event Op Op.Res}
    (hp : p.Every (CachesOnly stream status)) (he : Recorded stream status e) (id : Str) (d : StreamStatusData) :
    Recorded id d.status e ∨ p.Guards (· = .setStreamStatus id d) (Recorded id d.status) := by
  apply Prog.Every.guards_or
  refine Prog.Every.mono ?_ hp
  intro o ho hset
  obtain ⟨rfl, hstatus⟩ := ho id d hset
  exact hstatus ▸ he

namespace StreamService

theorem cachesOnly_announce (s : StreamService) (now : Time) (stream : Stream) :
    (s.announce now stream).Every (CachesOnly stream.id .publishing) := by
  unfold announce
  split <;> simp [CachesOnly]

theorem cachesOnly_retire (s : StreamService) (now : Time) (stream : Stream) :
    (s.retire now stream).Every (CachesOnly stream.id .ended) := by
  unfold retire
  split <;> split <;> simp [CachesOnly]

theorem cachesOnly_cache (s : StreamService) (stream : Stream) :
    (do s.cacheStatus stream; s.cachePlayURLs stream; return .ok stream : Server (Except GoError Stream)).Every
      (CachesOnly stream.id stream.status) := by
  unfold cacheStatus cachePlayURLs
  split <;> simp [CachesOnly]

end StreamService

/-- A status is cached once the database has taken it. -/
theorem body_records (id : Str) (d : StreamStatusData) (call : Call) :
    (s.body call).Guards (· = .setStreamStatus id d) (Recorded id d.status) := by
  cases call with
  | createStream inp req =>
    apply Prog.guards_map
    unfold StreamService.createStream
    split
    · trivial
    · refine Prog.guards_op_bind.mpr ⟨Op.noConfusion, ?_⟩
      rintro (e | stream)
      · exact .inr trivial
      · exact guards_recorded (s.cachesOnly_cache stream) (.inl ⟨_, stream, rfl, rfl, rfl⟩) id d
  | onPublish client now key token =>
    apply Prog.guards_map
    refine Prog.guards_op_bind.mpr ⟨Op.noConfusion, ?_⟩
    rintro (e | stream)
    · exact .inr ⟨Op.noConfusion, fun _ => .inr trivial⟩
    · right
      simp only [StreamService.validatePushToken]
      cases validatePublishToken stream.pushToken token with
      | some e => exact ⟨Op.noConfusion, fun _ => .inr trivial⟩
      | none =>
        simp only [Prog.pure_eq, Prog.done_bind]
        split
        · exact ⟨Op.noConfusion, fun _ => .inr trivial⟩
        · refine Prog.guards_op_bind.mpr ⟨Op.noConfusion, ?_⟩
          rintro (_ | e)
          · exact guards_recorded (s.cachesOnly_announce now stream) (.inr ⟨_, rfl⟩) id d
          · exact .inr trivial
  | onUnpublish client now key =>
    apply Prog.guards_map
    refine Prog.guards_op_bind.mpr ⟨Op.noConfusion, ?_⟩
    rintro (e | stream)
    · exact .inr trivial
    · refine .inr (Prog.guards_op_bind.mpr ⟨Op.noConfusion, ?_⟩)
      rintro (_ | e)
      · exact guards_recorded (s.cachesOnly_retire now stream) (.inr ⟨_, rfl⟩) id d
      · exact .inr trivial
  | _ =>
    apply Prog.Every.guards
    refine (s.body_may _).mono fun o ho => ?_
    rintro rfl
    cases ho

/-! ### What GetStream answers -/

/-- What an answer of `GetStream` comes from. -/
def Reads (id : Str) (stream : Stream) (e : Prog.Event Op Op.Res) : Prop :=
  e = ⟨.getStreamByID id, .ok stream⟩ ∨
  ∃ d, e = ⟨.getStreamStatus id, .ok (some d)⟩ ∧ stream = { id := id, status := d.status }

theorem getStream_reads (id : Str) (stream : Stream) :
    (s.body (.getStream id)).Requires (· = .stream (.ok stream)) (Reads id stream) := by
  have hdb : (db.getStreamByID id).Requires (fun r => Reply.stream r = .stream (.ok stream)) (Reads id stream) := by
    intro r
    by_cases hr : r = .ok stream
    · exact .inl (.inl (hr ▸ rfl))
    · exact .inr fun heq => hr (Reply.stream.inj heq)
  apply Prog.requires_map
  unfold StreamService.getStream
  split
  · refine Prog.requires_op_bind.mpr ?_
    rintro (e | _ | d)
    · exact .inr hdb
    · exact .inr hdb
    · by_cases hr : stream = { id := id, status := d.status }
      · exact .inl (.inr ⟨d, rfl, hr⟩)
      · exact .inr fun heq => hr (Except.ok.inj (Reply.stream.inj heq)).symm
  · exact hdb

/-- **How old an answer of `GetStream` can be**, in every interleaving and with any failures:
it is the row as the call has read it, or the status that was last put into Redis for the
stream, and that at most the TTL before the call looked, by a call from which the database had
accepted that status for the stream before; the row, if there was one, had it then. What was in
Redis when the server started counts from the start. A run with the clock is a run of the
server all the same. -/
theorem getStream_no_older_than_ttl (hw : Fresh ttl w) (h : (s.timed ttl).Trace (.start w) ts) {i : Nat}
    {stream : Stream}
    (hth : (Machine.final (.start w) ts).threads[i]? = some ⟨.getStream id, .done (.stream (.ok stream))⟩) :
    s.machine.Trace (.start w.world) (ts.map (s.refinesUntimed ttl).transition) ∧
    ((∃ t ∈ ts, ∃ m, t.performed = some ⟨i, .getStream id, .getStreamByID id, m⟩ ∧
      t.before.world.world.db.getStreamByID id = .ok stream) ∨
    ∃ a t b d, ts = a ++ t :: b ∧ (∃ m, t.performed = some ⟨i, .getStream id, .getStreamStatus id, m⟩) ∧
      stream = { id := id, status := d.status } ∧
      ((∃ a₁ u a₂, a = a₁ ++ u :: a₂ ∧ (∀ x ∈ a₂, ¬ rewrites (statusKey id) x) ∧
          t.after.world.now ≤ u.after.world.now + ttl ∧
          ∃ j call m, u.performed = some ⟨j, call, .setStreamStatus id d, m⟩ ∧ m.choice.fault = false ∧
            ∃ v ∈ a₁, Accepts ttl id d.status j call v ∧
              ∀ row, v.after.world.world.db.streamAt id = some row → row.status = d.status) ∨
        (∀ x ∈ a, ¬ rewrites (statusKey id) x) ∧ t.after.world.now ≤ w.now + ttl ∧
          w.world.redis (statusKey id) = some ⟨.status d, true⟩)) := by
  refine ⟨(s.refinesUntimed ttl).trace h, ?_⟩
  obtain ⟨t, ht, o, m, r, hp, hr, hreads⟩ := h.performed_of_returned (Nat.zero_le i) hth
    (getStream_reads id stream) rfl
  rcases hreads with heq | ⟨d, heq, hstream⟩
  · left
    obtain ⟨rfl, hres⟩ := Prog.Event.mk.inj heq
    refine ⟨t, ht, m, hp, ?_⟩
    exact World.read_ok (w := t.before.world.world) (hr.trans (eq_of_heq hres))
  · right
    obtain ⟨rfl, hres⟩ := Prog.Event.mk.inj heq
    obtain ⟨a, b, rfl⟩ := List.append_of_mem ht
    obtain ⟨date, hdate, horigin⟩ := read_origin hw h hp (hr.trans (eq_of_heq hres))
    refine ⟨a, t, b, d, rfl, ⟨m, hp⟩, hstream, ?_⟩
    cases horigin with
    | before hentry hkept hle => exact .inr ⟨hkept, Int.le_trans hdate hle, hentry⟩
    | @written a₁ a₂ u ha hwrites hkept hle =>
      left
      obtain ⟨j, call, mu, hpu, hf⟩ := hwrites
      refine ⟨a₁, u, a₂, ha, hkept, hle ▸ hdate, j, call, mu, hpu, hf, ?_⟩
      rw [ha, List.append_assoc] at h
      obtain ⟨v, hv, o', m', hpv, hrec⟩ := h.guarded rfl hpu (body_records id d call) rfl
      obtain ⟨_, _, _, hsv⟩ := (h.valid (List.mem_append_left _ hv)).steps hpv
      refine ⟨v, hv, hrec.accepts hpv, ?_⟩
      intro row hrow
      rw [hsv.world_after] at hrow
      exact hrec.row hrow

end

/-- The call at an index is a `GetStream` that has found this. -/
def found (i : Nat) (id : Str) (stream : Stream) (c : Config Clocked Op Op.Res Call Reply) : Bool :=
  match c.threads[i]? with
  | some ⟨.getStream id', .done (.stream (.ok stream'))⟩ => id' = id && stream' = stream
  | _ => false

theorem found_spec {i : Nat} {id : Str} {stream : Stream} {c : Config Clocked Op Op.Res Call Reply}
    (h : found i id stream c = true) :
    c.threads[i]? = some ⟨.getStream id, .done (.stream (.ok stream))⟩ := by
  unfold found at h
  split at h
  · rename_i hth
    simp only [Bool.and_eq_true, decide_eq_true_eq] at h
    rw [hth, h.1, h.2]
  · cases h

/-- A stream is created, and read from the cache half a minute later. -/
theorem getStream_no_older_than_ttl_cached :
    ∃ a t b, (StreamService.sample.timed 60000000000).Trace (.start ⟨.empty, 0, []⟩) (a ++ t :: b) ∧
      ∃ u ∈ a, t.after.world.now ≤ u.after.world.now + 60000000000 ∧
        ∃ v ∈ a, ∃ j call, Accepts 60000000000 sampleID .created j call v := by
  let w : Clocked := ⟨.empty, 0, []⟩
  obtain ⟨ts, htr, hP⟩ := Machine.exists_trace (StreamService.sample.timed 60000000000) (.start w)
    [.spawn (.createStream (.sample 1) {}), .step 0 ⟨{ id := sampleID }, 0⟩, .step 0 {}, .step 0 {},
      .spawn (.getStream sampleID), .step 1 ⟨{}, 30000000000⟩]
    (fun ts => (ts.all fun t => t.performed.all (·.op ≠ .getStreamByID sampleID)) &&
      found 1 sampleID { id := sampleID, status := .created } (Machine.final (.start w) ts))
    (by decide +kernel)
  obtain ⟨hread, hfound⟩ := (Bool.and_eq_true _ _).mp hP
  have hfresh : Fresh 60000000000 w := by
    intro id d v hentry
    cases hentry
  obtain ⟨_, ⟨t, ht, m, hp, _⟩ | ⟨a, t, b, d, rfl, _, hstream, hcached⟩⟩ :=
    getStream_no_older_than_ttl hfresh htr (found_spec hfound)
  · have hno := List.all_eq_true.mp hread t ht
    rw [hp] at hno
    simp at hno
  · rcases hcached with ⟨a₁, u, a₂, rfl, _, hle, j, call, _, _, _, v, hv, haccepts, _⟩ | ⟨_, _, hentry⟩
    · rw [← show Status.created = d.status from congrArg Stream.status hstream] at haccepts
      exact ⟨_, t, b, htr, u, List.mem_append_right a₁ List.mem_cons_self, hle, v,
        List.mem_append_left _ hv, j, call, haccepts⟩
    · cases hentry

end LiveServer
