import LiveServer.Model

/-! Redis, and the server's helpers on it.

Redis is one key space. The helpers derive every key from a stream id as it is
given to them; `statusKey_inj` and its kin say that keys of different ids or of
different kinds never meet, and the lemmas after them what each helper does to
each kind of entry. Values are kept as the data they encode. An entry written with
a TTL is `volatile`: it may be gone at any later moment. -/
namespace LiveServer

/-- The cached stream status snapshot. -/
structure StreamStatusData where
  status : Status
  bitrate : Str
  viewers : Int
  startedAt : Str
  deriving DecidableEq, Repr

/-- Cached play URLs. -/
structure PlayURLData where
  hlsURL : Str
  flvURL : Str
  webRTCURL : Str
  deriving DecidableEq, Repr

inductive RedisValue where
  | status (d : StreamStatusData)
  | playURLs (d : PlayURLData)
  | int (n : Int)
  deriving DecidableEq, Repr

structure Entry where
  value : RedisValue
  volatile : Bool
  deriving DecidableEq, Repr

abbrev Redis := Str → Option Entry

def statusKey (streamID : Str) : Str := lit "stream:" ++ streamID ++ lit ":status"
def playURLsKey (streamID : Str) : Str := lit "stream:" ++ streamID ++ lit ":play_urls"
def viewersKey (streamID : Str) : Str := lit "stream:" ++ streamID ++ lit ":viewers"
def blacklistKey (tokenHash : Str) : Str := lit "blacklist:token:" ++ tokenHash

/-- A truncated SHA256 hex digest of the token; the digest itself is a parameter. -/
def tokenHash (sha256 : Str → List UInt8) (token : Str) : Str := Text.hexEncode ((sha256 token).take 8)

namespace Redis

def empty : Redis := fun _ => none

def set (r : Redis) (key : Str) (e : Entry) : Redis := fun k => if k = key then some e else r k

def del (r : Redis) (keys : List Str) : Redis := fun k => if k ∈ keys then none else r k

/-- Keys whose TTL has run out. -/
def expire (r : Redis) (keys : List Str) : Redis := fun k =>
  match r k with
  | some e => if k ∈ keys && e.volatile then none else some e
  | none => none

/-! ### Status cache -/

def setStreamStatus (r : Redis) (streamID : Str) (data : StreamStatusData) : Redis :=
  r.set (statusKey streamID) ⟨.status data, true⟩

/-- `none` inside `ok` when there is no entry; an entry of another shape does not
decode. -/
def getStreamStatus (r : Redis) (streamID : Str) : Except GoError (Option StreamStatusData) :=
  match r (statusKey streamID) with
  | none => .ok none
  | some ⟨.status d, _⟩ => .ok (some d)
  | some _ => .error .backend

/-! ### Play URL cache -/

def setPlayURLs (r : Redis) (streamID : Str) (data : PlayURLData) : Redis :=
  r.set (playURLsKey streamID) ⟨.playURLs data, true⟩

/-- Like `getStreamStatus`. -/
def getPlayURLs (r : Redis) (streamID : Str) : Except GoError (Option PlayURLData) :=
  match r (playURLsKey streamID) with
  | none => .ok none
  | some ⟨.playURLs d, _⟩ => .ok (some d)
  | some _ => .error .backend

/-! ### Viewer counting -/

/-- `INCR`: an error on a value that is no integer or would overflow. -/
def incrViewers (r : Redis) (streamID : Str) : Except GoError (Int × Redis) :=
  match r (viewersKey streamID) with
  | none => .ok (1, r.set (viewersKey streamID) ⟨.int 1, false⟩)
  | some ⟨.int n, v⟩ =>
    if n = Text.maxInt64 then .error .backend
    else .ok (n + 1, r.set (viewersKey streamID) ⟨.int (n + 1), v⟩)
  | some _ => .error .backend

/-- The script `luaDecrSafe`: decrements a positive counter, never below zero. Numbers of Lua
are doubles, so the reply is this one for counts up to 2^53; above that Redis rounds the reply,
though not the counter. -/
def decrViewers (r : Redis) (streamID : Str) : Except GoError (Int × Redis) :=
  match r (viewersKey streamID) with
  | none => .ok (0, r)
  | some ⟨.int n, v⟩ =>
    if 0 < n then .ok (n - 1, r.set (viewersKey streamID) ⟨.int (n - 1), v⟩) else .ok (0, r)
  | some _ => .error .backend

def resetViewers (r : Redis) (streamID : Str) : Redis := r.del [viewersKey streamID]

def getViewers (r : Redis) (streamID : Str) : Except GoError Int :=
  match r (viewersKey streamID) with
  | none => .ok 0
  | some ⟨.int n, _⟩ => .ok n
  | some _ => .error .backend

/-- `SET` without a TTL. -/
def setViewers (r : Redis) (streamID : Str) (count : Int) : Redis :=
  r.set (viewersKey streamID) ⟨.int count, false⟩

/-! ### Token blacklist -/

/-- `EXISTS`. -/
def isTokenBlacklisted (r : Redis) (sha256 : Str → List UInt8) (token : Str) : Bool :=
  (r (blacklistKey (tokenHash sha256 token))).isSome

/-! ### Cleanup -/

def deleteStreamCache (r : Redis) (streamID : Str) : Redis :=
  r.del [statusKey streamID, playURLsKey streamID, viewersKey streamID]

end Redis

/-! ### Keys never meet -/

/-- Two ids framed by the same texts give the same key only if they are equal. -/
theorem framed_inj (p s : Str) {a b : Str} : p ++ a ++ s = p ++ b ++ s ↔ a = b := by
  simp

@[simp] theorem statusKey_inj {a b : Str} : statusKey a = statusKey b ↔ a = b := framed_inj _ _
@[simp] theorem playURLsKey_inj {a b : Str} : playURLsKey a = playURLsKey b ↔ a = b :=
  framed_inj _ _
@[simp] theorem viewersKey_inj {a b : Str} : viewersKey a = viewersKey b ↔ a = b := framed_inj _ _

/-- Keys with different endings differ, whatever the ids: the endings disagree
within their last two bytes. -/
private theorem ending_ne {p a b s t : Str} {x y z : UInt8} (h : x ≠ y) :
    p ++ a ++ (s ++ [x, z]) ≠ p ++ b ++ (t ++ [y, z]) := by
  intro he
  have := congrArg List.reverse he
  simp only [List.reverse_append, List.reverse_cons, List.reverse_nil, List.nil_append,
    List.cons_append, List.cons.injEq] at this
  exact h this.2.1

@[simp] theorem statusKey_ne_playURLsKey (a b : Str) : statusKey a ≠ playURLsKey b :=
  ending_ne (s := lit ":stat") (t := lit ":play_ur") (x := 117) (y := 108) (z := 115) (by decide)

@[simp] theorem statusKey_ne_viewersKey (a b : Str) : statusKey a ≠ viewersKey b :=
  ending_ne (s := lit ":stat") (t := lit ":viewe") (x := 117) (y := 114) (z := 115) (by decide)

@[simp] theorem playURLsKey_ne_viewersKey (a b : Str) : playURLsKey a ≠ viewersKey b :=
  ending_ne (s := lit ":play_ur") (t := lit ":viewe") (x := 108) (y := 114) (z := 115) (by decide)

@[simp] theorem playURLsKey_ne_statusKey (a b : Str) : playURLsKey a ≠ statusKey b :=
  (statusKey_ne_playURLsKey b a).symm

@[simp] theorem viewersKey_ne_statusKey (a b : Str) : viewersKey a ≠ statusKey b :=
  (statusKey_ne_viewersKey b a).symm

@[simp] theorem viewersKey_ne_playURLsKey (a b : Str) : viewersKey a ≠ playURLsKey b :=
  (playURLsKey_ne_viewersKey b a).symm

@[simp] theorem blacklistKey_inj {h h' : Str} : blacklistKey h = blacklistKey h' ↔ h = h' := by
  simp [blacklistKey]

/-- The key of a stream begins with another byte than that of a token. -/
private theorem beginning_ne {a s h : Str} : lit "stream:" ++ a ++ s ≠ blacklistKey h := by
  intro he
  exact absurd (List.cons.inj he).1 (by decide : (115 : UInt8) ≠ 98)

@[simp] theorem statusKey_ne_blacklistKey (a h : Str) : statusKey a ≠ blacklistKey h := beginning_ne

@[simp] theorem playURLsKey_ne_blacklistKey (a h : Str) : playURLsKey a ≠ blacklistKey h := beginning_ne

@[simp] theorem viewersKey_ne_blacklistKey (a h : Str) : viewersKey a ≠ blacklistKey h := beginning_ne

namespace Redis

/-- The three entries of a stream id. -/
structure Entries where
  status : Option Entry
  playURLs : Option Entry
  viewers : Option Entry

/-- No entry. -/
def Entries.empty : Entries := ⟨none, none, none⟩

def entries (r : Redis) (id : Str) : Entries := ⟨r (statusKey id), r (playURLsKey id), r (viewersKey id)⟩

variable (r : Redis) (id id' : Str)

theorem entries_setStreamStatus (d : StreamStatusData) :
    (r.setStreamStatus id d).entries id' =
      if id' = id then { r.entries id' with status := some ⟨.status d, true⟩ } else r.entries id' := by
  by_cases h : id' = id
  · simp [setStreamStatus, set, entries, h]
  · simp [setStreamStatus, set, entries, h]

theorem entries_setPlayURLs (d : PlayURLData) :
    (r.setPlayURLs id d).entries id' =
      if id' = id then { r.entries id' with playURLs := some ⟨.playURLs d, true⟩ }
      else r.entries id' := by
  by_cases h : id' = id
  · simp [setPlayURLs, set, entries, h]
  · simp [setPlayURLs, set, entries, h]

theorem entries_setViewers (e : Entry) :
    Redis.entries (r.set (viewersKey id) e) id' =
      if id' = id then { r.entries id' with viewers := some e } else r.entries id' := by
  by_cases h : id' = id
  · simp [set, entries, h]
  · simp [set, entries, h]

theorem entries_resetViewers :
    (r.resetViewers id).entries id' =
      if id' = id then { r.entries id' with viewers := none } else r.entries id' := by
  by_cases h : id' = id
  · simp [resetViewers, del, entries, h]
  · simp [resetViewers, del, entries, h]

theorem entries_deleteStreamCache :
    (r.deleteStreamCache id).entries id' = if id' = id then .empty else r.entries id' := by
  by_cases h : id' = id
  · simp [deleteStreamCache, del, entries, Entries.empty, h]
  · simp [deleteStreamCache, del, entries, h]

variable {r id}

/-- A count that succeeds sets the counter. -/
theorem incrViewers_ok {r' : Redis} {n : Int} (h : r.incrViewers id = .ok (n, r')) :
    ∃ m v, r' = r.set (viewersKey id) ⟨.int m, v⟩ := by
  unfold incrViewers at h
  split at h
  · cases h
    exact ⟨1, false, rfl⟩
  · split at h
    · cases h
    · cases h
      exact ⟨_, _, rfl⟩
  · cases h

/-- A decrement leaves Redis as it was or sets a counter that was there. -/
theorem decrViewers_ok {r' : Redis} {n : Int} (h : r.decrViewers id = .ok (n, r')) :
    r' = r ∨ ∃ e m v, (r.entries id).viewers = some e ∧ r' = r.set (viewersKey id) ⟨.int m, v⟩ := by
  unfold decrViewers at h
  split at h
  · cases h
    exact .inl rfl
  · rename_i m v hold
    split at h
    · cases h
      exact .inr ⟨_, _, v, hold, rfl⟩
    · cases h
      exact .inl rfl
  · cases h

variable (r)

/-- Nothing in `r` that is not in `r'`: some entries may be gone. -/
def Le (r r' : Redis) : Prop := ∀ k, r k = none ∨ r k = r' k

theorem Le.refl : Le r r := fun _ => .inr rfl

variable {r}

theorem Le.trans {r' r'' : Redis} (h : Le r r') (h' : Le r' r'') : Le r r'' := by
  intro k
  rcases h k with hk | hk
  · exact .inl hk
  · rcases h' k with hk' | hk'
    · exact .inl (hk.trans hk')
    · exact .inr (hk.trans hk')

theorem Le.set {r' : Redis} (h : Le r r') (key : Str) (e : Entry) :
    Le (Redis.set r key e) (Redis.set r' key e) := by
  intro k
  unfold Redis.set
  split
  · exact .inr rfl
  · exact h k

theorem Le.del {r' : Redis} (h : Le r r') (keys : List Str) : Le (Redis.del r keys) (Redis.del r' keys) := by
  intro k
  unfold Redis.del
  split
  · exact .inl rfl
  · exact h k

theorem del_le (r : Redis) (keys : List Str) : Le (Redis.del r keys) r := by
  intro k
  unfold Redis.del
  split
  · exact .inl rfl
  · exact .inr rfl

/-- Expiry drops entries and changes none. -/
theorem expire_le (r : Redis) (keys : List Str) : Le (r.expire keys) r := by
  intro k
  unfold expire
  cases r k with
  | none => exact .inl rfl
  | some e =>
    dsimp only
    split
    · exact .inl rfl
    · exact .inr rfl

theorem expire_of_not_mem {r : Redis} {keys : List Str} {k : Str} (h : k ∉ keys) :
    r.expire keys k = r k := by
  unfold expire
  cases r k with
  | none => rfl
  | some e => simp [h]

@[simp] theorem expire_nil (r : Redis) : r.expire [] = r := by
  funext k
  exact expire_of_not_mem List.not_mem_nil

/-- What expires in two goes. -/
theorem expire_expire (r : Redis) (a b : List Str) : (r.expire a).expire b = r.expire (a ++ b) := by
  funext k
  unfold expire
  cases r k with
  | none => rfl
  | some e => by_cases ha : k ∈ a <;> cases hv : e.volatile <;> simp [ha, hv]

theorem expire_self (r : Redis) (keys : List Str) : r.expire (keys ++ keys) = r.expire keys := by
  funext k
  unfold expire
  simp

theorem expire_congr {r' : Redis} {k : Str} (h : r k = r' k) (keys : List Str) :
    r.expire keys k = r'.expire keys k := by
  unfold expire
  rw [h]

/-- An entry without a TTL does not expire. -/
theorem expire_lasting {v : RedisValue} {k : Str} (h : r k = Option.some ⟨v, false⟩) (keys : List Str) :
    r.expire keys k = Option.some ⟨v, false⟩ := by
  unfold expire
  rw [h]
  simp

/-- An entry with a TTL that is left has not expired. -/
theorem not_mem_of_expire {e : Entry} {k : Str} {keys : List Str} (h : r.expire keys k = Option.some e)
    (hvolatile : e.volatile = true) : k ∉ keys := by
  intro hk
  have hold : r k = Option.some e := (r.expire_le keys k).elim (fun hn => absurd (hn.symm.trans h) nofun)
    fun heq => heq.symm.trans h
  unfold expire at h
  rw [hold] at h
  simp [hk, hvolatile] at h

theorem getStreamStatus_ok {id : Str} {d : StreamStatusData} (h : r.getStreamStatus id = .ok (Option.some d)) :
    ∃ v, r (statusKey id) = Option.some ⟨.status d, v⟩ := by
  unfold getStreamStatus at h
  split at h
  · cases h
  · rename_i hentry
    cases h
    exact ⟨_, hentry⟩
  · cases h

/-- The same of the entries of a stream. -/
structure Entries.Le (a b : Entries) : Prop where
  status : ∀ e, a.status = some e → b.status = some e
  playURLs : ∀ e, a.playURLs = some e → b.playURLs = some e
  viewers : ∀ e, a.viewers = some e → b.viewers = some e

theorem Le.some {r' : Redis} (h : Le r r') {k : Str} {e : Entry} (hk : r k = some e) : r' k = some e := by
  rcases h k with hn | he
  · exact absurd (hn.symm.trans hk) nofun
  · exact he.symm.trans hk

theorem Le.entries {r' : Redis} (h : Le r r') (id : Str) : (r.entries id).Le (r'.entries id) :=
  ⟨fun _ he => h.some he, fun _ he => h.some he, fun _ he => h.some he⟩

/-- A stream without entries gets none. -/
theorem Le.empty {r' : Redis} (h : Le r r') (hr : r'.entries id = .empty) : r.entries id = .empty := by
  have hnone (k : Str) (hk : r' k = none) : r k = none := (h k).elim (·) (·.trans hk)
  simp only [Redis.entries, Entries.empty, Entries.mk.injEq] at hr ⊢
  exact ⟨hnone _ hr.1, hnone _ hr.2.1, hnone _ hr.2.2⟩

end Redis
end LiveServer
