import LiveServer.Effects

/-! Streams do not meet in Redis.

Ids come from the URL path as they are, so they may hold colons and the endings of the keys.
A key is still decided by its kind and its id (`EntryKind.key_inj`), and none is the key of a
token. Every write of the cache therefore leaves what is read of other streams, what is
known of tokens, and the entries of its own stream of another kind. -/
namespace LiveServer

/-- The kinds of entries of a stream. -/
inductive EntryKind where
  | status
  | playURLs
  | viewers
  deriving DecidableEq

namespace EntryKind

def key : EntryKind → Str → Str
  | .status => statusKey
  | .playURLs => playURLsKey
  | .viewers => viewersKey

theorem key_inj {k k' : EntryKind} {a b : Str} : k.key a = k'.key b ↔ k = k' ∧ a = b := by
  cases k <;> cases k' <;> simp [key]

theorem key_ne_blacklistKey (k : EntryKind) (a h : Str) : k.key a ≠ blacklistKey h := by
  cases k with
  | status => exact statusKey_ne_blacklistKey a h
  | playURLs => exact playURLsKey_ne_blacklistKey a h
  | viewers => exact viewersKey_ne_blacklistKey a h

end EntryKind

/-- The operations that write to the cache, whatever stream they are on. -/
inductive CacheWrite where
  | setStreamStatus (data : StreamStatusData)
  | setPlayURLs (data : PlayURLData)
  | incrViewers
  | decrViewers
  | resetViewers
  | setViewers (count : Int)
  | deleteStreamCache

namespace CacheWrite

def on (c : CacheWrite) (streamID : Str) : Op :=
  match c with
  | .setStreamStatus data => .setStreamStatus streamID data
  | .setPlayURLs data => .setPlayURLs streamID data
  | .incrViewers => .incrViewers streamID
  | .decrViewers => .decrViewers streamID
  | .resetViewers => .resetViewers streamID
  | .setViewers count => .setViewers streamID count
  | .deleteStreamCache => .deleteStreamCache streamID

/-- The kinds of entries it writes. -/
def kinds : CacheWrite → List EntryKind
  | .setStreamStatus _ => [.status]
  | .setPlayURLs _ => [.playURLs]
  | .incrViewers => [.viewers]
  | .decrViewers => [.viewers]
  | .resetViewers => [.viewers]
  | .setViewers _ => [.viewers]
  | .deleteStreamCache => [.status, .playURLs, .viewers]

theorem keys_on (c : CacheWrite) (a : Str) : (c.on a).keys = c.kinds.map (·.key a) := by
  cases c <;> rfl

/-- All but the deletion write one kind only. -/
theorem kinds_singleton {c : CacheWrite} (hc : c ≠ .deleteStreamCache) : ∃ k, c.kinds = [k] := by
  cases c with
  | deleteStreamCache => exact absurd rfl hc
  | setStreamStatus _ => exact ⟨.status, rfl⟩
  | setPlayURLs _ => exact ⟨.playURLs, rfl⟩
  | incrViewers => exact ⟨.viewers, rfl⟩
  | decrViewers => exact ⟨.viewers, rfl⟩
  | resetViewers => exact ⟨.viewers, rfl⟩
  | setViewers _ => exact ⟨.viewers, rfl⟩

section
variable (c : CacheWrite) (a : Str) (w : World) (ch : Choice)

/-- A write leaves every key that is not of its kinds and of its stream. -/
theorem perform_other {k : Str} (hk : ∀ kind ∈ c.kinds, k ≠ kind.key a) :
    (World.perform ch (c.on a) w).2.redis k = w.redis.expire ch.expired k := by
  apply (World.perform_redis ch (c.on a) w).other
  rw [c.keys_on]
  intro hmem
  obtain ⟨kind, hkind, rfl⟩ := List.mem_map.mp hmem
  exact hk kind hkind rfl

theorem perform_entry {kind : EntryKind} {b : Str} (h : kind ∈ c.kinds → a ≠ b) :
    (World.perform ch (c.on a) w).2.redis (kind.key b) = w.redis.expire ch.expired (kind.key b) := by
  apply c.perform_other
  intro kind' hkind' heq
  obtain ⟨rfl, rfl⟩ := EntryKind.key_inj.mp heq
  exact h hkind' rfl

theorem perform_blacklist (hash : Str) :
    (World.perform ch (c.on a) w).2.redis (blacklistKey hash) =
      w.redis.expire ch.expired (blacklistKey hash) := by
  apply c.perform_other
  intro kind _ heq
  exact kind.key_ne_blacklistKey a hash heq.symm

end
end CacheWrite

namespace Redis
variable {r r' : Redis} {id : Str}

/-- The entries of a stream decide what is read of it. -/
theorem reads_of_entries (h : ∀ kind : EntryKind, r' (kind.key id) = r (kind.key id)) :
    r'.getStreamStatus id = r.getStreamStatus id ∧ r'.getPlayURLs id = r.getPlayURLs id ∧
      r'.getViewers id = r.getViewers id := by
  have hstatus : r' (statusKey id) = r (statusKey id) := h .status
  have hplayURLs : r' (playURLsKey id) = r (playURLsKey id) := h .playURLs
  have hviewers : r' (viewersKey id) = r (viewersKey id) := h .viewers
  unfold getStreamStatus getPlayURLs getViewers
  rw [hstatus, hplayURLs, hviewers]
  exact ⟨rfl, rfl, rfl⟩

end Redis

/-- The keys of different ids, kinds and tokens are different. So a write to the cache on one
stream, whether it succeeds or fails, leaves what is read of every other stream and whether
any token is on the blacklist; and unless it deletes, it leaves the entries of the two other
kinds of its own stream. Entries that have expired by then are gone without it. -/
theorem cache_keys_apart (sha256 : Str → List UInt8) :
    (Function.Injective statusKey ∧ Function.Injective playURLsKey ∧ Function.Injective viewersKey ∧
      Function.Injective blacklistKey) ∧
    (∀ a b h, statusKey a ≠ playURLsKey b ∧ statusKey a ≠ viewersKey b ∧ playURLsKey a ≠ viewersKey b ∧
      statusKey a ≠ blacklistKey h ∧ playURLsKey a ≠ blacklistKey h ∧ viewersKey a ≠ blacklistKey h) ∧
    ∀ (c : CacheWrite) (a : Str) (w : World) (ch : Choice) (r r' : Redis),
      r = w.redis.expire ch.expired → r' = (World.perform ch (c.on a) w).2.redis →
      (∀ b, a ≠ b → r'.getStreamStatus b = r.getStreamStatus b ∧ r'.getPlayURLs b = r.getPlayURLs b ∧
        r'.getViewers b = r.getViewers b) ∧
      (∀ token, r'.isTokenBlacklisted sha256 token = r.isTokenBlacklisted sha256 token) ∧
      (c ≠ .deleteStreamCache → ∃ kind, c.kinds = [kind] ∧
        ∀ other, other ≠ kind → r' (other.key a) = r (other.key a)) := by
  refine ⟨⟨fun a b h => ?_, fun a b h => ?_, fun a b h => ?_, fun a b h => ?_⟩, ?_, ?_⟩
  · exact statusKey_inj.mp h
  · exact playURLsKey_inj.mp h
  · exact viewersKey_inj.mp h
  · exact blacklistKey_inj.mp h
  · intro a b h
    exact ⟨statusKey_ne_playURLsKey a b, statusKey_ne_viewersKey a b, playURLsKey_ne_viewersKey a b,
      statusKey_ne_blacklistKey a h, playURLsKey_ne_blacklistKey a h, viewersKey_ne_blacklistKey a h⟩
  · intro c a w ch r r' hr hr'
    subst hr hr'
    refine ⟨fun b hab => ?_, fun token => ?_, fun hc => ?_⟩
    · exact Redis.reads_of_entries fun kind => c.perform_entry a w ch fun _ => hab
    · unfold Redis.isTokenBlacklisted
      rw [c.perform_blacklist]
    · obtain ⟨kind, hkind⟩ := CacheWrite.kinds_singleton hc
      refine ⟨kind, hkind, fun other hother => ?_⟩
      apply c.perform_entry
      intro hmem
      rw [hkind] at hmem
      exact absurd (List.mem_singleton.mp hmem) hother

end LiveServer
