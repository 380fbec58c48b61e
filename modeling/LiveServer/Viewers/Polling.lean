import LiveServer.Alone
import LiveServer.Background

/-! Viewer counts by polling.

A tick groups the clients of SRS by the name of their stream, which is the stream key,
and writes each count under that name. Everything that reads a count asks for it by the
stream's id. So a tick reaches the counter of a row only through clients whose stream is
called like the row's id, and a stream without viewers keeps the count it had. -/
namespace LiveServer
open Concurrent Loops

/-- The clients of a stream that are no publishers. -/
def viewersOf (clients : List SRSClient) (stream : Str) : Nat :=
  clients.countP fun c => c.stream = stream && c.type ≠ lit "RTMP publisher"

/-- Nothing fails, and SRS answers with these clients. -/
def tickOf (clients : List SRSClient) (o : Op) (ch : Choice) : Prop :=
  ch.fault = false ∧ (o = .listAllClients → ch.clients = clients)

/-- The tick gives the row the count of its stream: through clients that are named like the
row, or because that count is there already, and stays if keys expire. -/
def Reached (r : Redis) (clients : List SRSClient) (row : Stream) : Prop :=
  if viewersOf clients row.id = 0 then
    ∀ keys, (r.expire keys).getViewers row.id = .ok (viewersOf clients row.streamKey)
  else viewersOf clients row.id = viewersOf clients row.streamKey

section
variable {clients : List SRSClient} {w w' : World} {x : Str}

theorem countViewers_value (hx : x ≠ []) : (countViewers clients).value x = viewersOf clients x := by
  unfold countViewers viewersOf
  rw [Counter.value_foldl_inc (fun c : SRSClient => c.stream ≠ [] && c.type ≠ lit "RTMP publisher")
    (·.stream)]
  show 0 + _ = _
  rw [Nat.zero_add]
  congr 1
  funext c
  by_cases hc : c.stream = x
  · simp [hc, hx]
  · simp [hc]

/-- What the loop over the counts makes of one counter; `P` is what is known of the entry
as long as the loop does not write it. -/
structure Written (m : Counter Str) (P : Option Entry → Prop) (x : Str) (rest : List Str) (w : World) :
    Prop where
  keys : ∀ k ∈ rest, k ∈ m.keys
  done : x ∈ m.keys → x ∉ rest → w.redis (viewersKey x) = some ⟨.int (m.value x), false⟩
  other : x ∉ m.keys → P (w.redis (viewersKey x))

/-- Reading a counter is reading its entry. -/
theorem getViewers_congr {r r' : Redis} (h : r (viewersKey x) = r' (viewersKey x)) :
    r.getViewers x = r'.getViewers x := by
  unfold Redis.getViewers
  rw [h]

theorem perform_setViewers {ch : Choice} (hf : ch.fault = false) (k y : Str) (n : Int) :
    (World.perform ch (.setViewers k n) w).2.redis (viewersKey y) =
      if y = k then some ⟨.int n, false⟩ else w.redis.expire ch.expired (viewersKey y) := by
  simp [World.perform, World.answer, World.cacheWrite, World.expire, hf, Redis.setViewers, Redis.set]

theorem perform_listAllClients {ch : Choice} (hch : tickOf clients .listAllClients ch) :
    (World.perform ch .listAllClients w).1 = .ok clients := by
  simp [World.perform, World.answer, World.read, hch.1, hch.2 rfl]

theorem written_next {m : Counter Str} {P : Option Entry → Prop} {k : Str} {rest : List Str}
    {ch : Choice} (hf : ch.fault = false)
    (hP : ∀ r : Redis, P (r (viewersKey x)) → P (r.expire ch.expired (viewersKey x)))
    (h : Written m P x (k :: rest) w) :
    Written m P x rest (World.perform ch (.setViewers k (m.value k)) w).2 := by
  constructor
  · exact fun y hy => h.keys y (List.mem_cons_of_mem k hy)
  · intro hx hrest
    rw [perform_setViewers hf]
    by_cases hk : x = k
    · rw [if_pos hk, hk]
    · rw [if_neg hk]
      exact Redis.expire_lasting (h.done hx (by simp [hk, hrest])) _
  · intro hx
    have hk : x ≠ k := fun hk => hx (hk ▸ h.keys k List.mem_cons_self)
    rw [perform_setViewers hf, if_neg hk]
    exact hP w.redis (h.other hx)

theorem wp_pollViewers (order : MapOrder Str) {ok : Op → Choice → Prop} {P : Option Entry → Prop}
    (hok : ∀ o ch, ok o ch → tickOf clients o ch)
    (hstart : ∀ ch, ok .listAllClients ch → P (w.redis.expire ch.expired (viewersKey x)))
    (hP : ∀ o ch (r : Redis), ok o ch → P (r (viewersKey x)) → P (r.expire ch.expired (viewersKey x))) :
    (pollViewers order).wp World.perform ok
      (fun _ w' => Written (countViewers clients) P x [] w') w := by
  intro ch hch
  have hredis : (World.perform ch .listAllClients w).2.redis = w.redis.expire ch.expired := rfl
  rw [perform_listAllClients (hok _ _ hch)]
  generalize (World.perform ch .listAllClients w).2 = w₁ at hredis ⊢
  refine Prog.wp_forEach (Written (countViewers clients) P x) ?_ ⟨?_, ?_, ?_⟩
  · intro k rest w₂ h ch hch
    exact written_next (hok _ _ hch).1 (fun r => hP _ ch r hch) h
  · exact fun k hk => order.mem_visit.mp hk
  · exact fun hx hno => absurd (order.mem_visit.mpr hx) hno
  · intro _
    rw [hredis]
    exact hstart ch hch

/-- In every tick: what is not written may expire, and no more. -/
theorem written_of_runs (order : MapOrder Str) (x : Str)
    (h : Prog.Runs World.perform (tickOf clients) (pollViewers order) w () w') :
    Written (countViewers clients) (fun e => ∃ keys, e = w.redis.expire keys (viewersKey x)) x [] w' := by
  refine h.wp (wp_pollViewers order (fun _ _ hch => hch) ?_ ?_)
  · exact fun ch _ => ⟨ch.expired, rfl⟩
  · rintro o ch r _ ⟨keys, hr⟩
    refine ⟨keys ++ ch.expired, ?_⟩
    rw [← Redis.expire_expire]
    exact Redis.expire_congr hr _

/-- There are ticks, and one in which given keys expire. -/
theorem exists_tick (order : MapOrder Str) (clients : List SRSClient) (w : World) (x : Str)
    (keys : List Str) :
    ∃ w', Prog.Runs World.perform (tickOf clients) (pollViewers order) w () w' ∧
      Written (countViewers clients) (· = w.redis.expire keys (viewersKey x)) x [] w' := by
  have hrun : Prog.Runs World.perform (fun o ch => tickOf clients o ch ∧ ch.expired = keys)
      (pollViewers order) w () _ :=
    Prog.exec_runs _ (fun _ => { clients := clients, expired := keys }) _ fun _ _ => ⟨⟨rfl, fun _ => rfl⟩, rfl⟩
  refine ⟨_, hrun.mono fun _ _ hch => hch.1, hrun.wp (wp_pollViewers order (fun _ _ hch => hch.1) ?_ ?_)⟩
  · rintro ch ⟨_, rfl⟩
    rfl
  · rintro o ch r ⟨_, rfl⟩ hr
    rw [Redis.expire_congr hr, Redis.expire_expire, Redis.expire_self]

/-- **A tick gives a row the number of its viewers** exactly if it reaches it, whatever Redis
held and whoever is connected. -/
theorem polled_counts {row : Stream} (hrow : row ∈ w.db.streams.rows) (clients : List SRSClient)
    (order : MapOrder Str) :
    (∀ w', Prog.Runs World.perform (tickOf clients) (pollViewers order) w () w' →
      w'.redis.getViewers row.id = .ok (viewersOf clients row.streamKey)) ↔
    Reached w.redis clients row := by
  have hid : row.id ≠ [] := by
    intro hnil
    have hstored := w.db.streams.good row hrow
    rw [Stream.Stored, hnil] at hstored
    cases hstored
  have hvalue : (countViewers clients).value row.id = viewersOf clients row.id := countViewers_value hid
  have hmem := (countViewers clients).mem row.id
  rw [hvalue] at hmem
  unfold Reached
  split
  · rename_i hzero
    have hout : row.id ∉ (countViewers clients).keys := fun hin => absurd (hmem.mp hin) (by omega)
    constructor
    · intro hall keys
      obtain ⟨w', hrun, hwritten⟩ := exists_tick order clients w row.id keys
      rw [← hall w' hrun]
      exact getViewers_congr (hwritten.other hout).symm
    · intro hold w' hrun
      obtain ⟨keys, hat⟩ := (written_of_runs order row.id hrun).other hout
      rw [← hold keys]
      exact getViewers_congr hat
  · rename_i hpos
    have hin : row.id ∈ (countViewers clients).keys := hmem.mpr (by omega)
    have hset (w' : World)
        (hrun : Prog.Runs World.perform (tickOf clients) (pollViewers order) w () w') :
        w'.redis.getViewers row.id = .ok (viewersOf clients row.id) := by
      have hdone := (written_of_runs order row.id hrun).done hin List.not_mem_nil
      simp only [Redis.getViewers, hdone, hvalue]
    constructor
    · intro hall
      obtain ⟨w', hrun, _⟩ := exists_tick order clients w row.id []
      have hcount := hall w' hrun
      rw [hset w' hrun] at hcount
      exact_mod_cast Except.ok.inj hcount
    · intro hsame w' hrun
      rw [hset w' hrun, hsame]

end

/-! ### A stream with a viewer -/

/-- One tick with these clients. -/
def sampleTick (clients : List SRSClient) (w : World) : World :=
  ((pollViewers .asFound).exec World.perform (fun _ => { clients := clients }) w).2

theorem sampleTick_runs (clients : List SRSClient) (w : World) :
    Prog.Runs World.perform (tickOf clients) (pollViewers .asFound) w () (sampleTick clients w) :=
  Prog.exec_runs _ _ _ fun _ _ => ⟨rfl, fun _ => rfl⟩

def sampleViewer (stream : Str) : SRSClient := ⟨lit "v", stream, lit "RTMP play"⟩

/-- The row is reached if a client watches a stream that is called like its id. -/
theorem polled_counts_named :
    (sampleTick [sampleViewer sampleID, sampleViewer sampleKey.val] sampleStream).redis.getViewers
      sampleID = .ok 1 := by
  obtain ⟨row, hat, hkey⟩ := (Option.any_eq_true _ _).mp
    (by decide : (sampleStream.db.streamAt sampleID).any (·.streamKey = sampleKey.val) = true)
  obtain ⟨hrow, hid⟩ := DB.streamAt_eq_some.mp hat
  have hreached : Reached sampleStream.redis [sampleViewer sampleID, sampleViewer sampleKey.val] row := by
    unfold Reached
    rw [hid, of_decide_eq_true hkey, if_neg (by decide)]
    decide
  have hcount := (polled_counts hrow _ .asFound).mpr hreached _ (sampleTick_runs _ _)
  rw [hid, of_decide_eq_true hkey] at hcount
  exact hcount

/-- One viewer of a stream is listed, and the counter that is read for it stays 0; the
viewer leaves, and the counter stays where the callbacks had put it. -/
theorem polled_counts_missed :
    (∃ w clients w', Prog.Runs World.perform (tickOf clients) (pollViewers .asFound) w () w' ∧
      ∃ row ∈ w.db.streams.rows,
        w'.redis.getViewers row.id = .ok 0 ∧ viewersOf clients row.streamKey = 1) ∧
    (∃ w clients w', Prog.Runs World.perform (tickOf clients) (pollViewers .asFound) w () w' ∧
      ∃ row ∈ w.db.streams.rows,
        w'.redis.getViewers row.id = .ok 1 ∧ viewersOf clients row.streamKey = 0) := by
  refine ⟨⟨sampleStream, [sampleViewer sampleKey.val], _, sampleTick_runs _ _, ?_⟩,
    ⟨sampleServe (.onPlay sampleKey.val) sampleStream, [], _, sampleTick_runs _ _, ?_⟩⟩
  all_goals decide

end LiveServer
