import LiveServer.Handler.Auth
import LiveServer.Alone

/-! What a play signature authorises.

The signed message is the stream key with the expiry in decimal written right behind
it. Nothing marks the boundary, so a digit may move over it: the signature for a key
that ends in `5` and an expiry is the signature for the key without its last character
and the expiry with a `5` before it. A request is safe exactly if no URL was generated for
another pair with its message; among keys of one length, as UUIDs are, there is none. -/
namespace LiveServer
open Concurrent Text

section
variable {s : StreamService} {streamKey sign expireStr : Str} {now : Time}

theorem validateSign_none {hmacSHA256 : Str → Str → Str} {expire : Int} {secret : Str} :
    validateSign hmacSHA256 streamKey expire sign secret = none ↔
      sign = generateSign hmacSHA256 streamKey expire secret := by
  unfold validateSign
  split <;> simp_all

/-- The message decides the pair where neither key extends the other. -/
theorem message_inj {k k' : Str} {e e' : Int} (hfree : k <+: k' ∨ k' <+: k → k = k')
    (h : k ++ formatInt e = k' ++ formatInt e') : k = k' ∧ e = e' := by
  have hk : k = k' := by
    apply hfree
    apply List.prefix_or_prefix_of_prefix
    · exact List.prefix_append k (formatInt e)
    · rw [h]
      exact List.prefix_append k' (formatInt e')
  subst hk
  exact ⟨rfl, formatInt_inj (List.append_cancel_left h)⟩

/-- A request that is answered 200 carries the signature of its key and its expiry. -/
theorem playAuth_allows {ok : Op → Choice → Prop} {w w' : World} {resp : Response}
    (h : Prog.Runs World.perform ok (AuthHandler.playAuth s now streamKey sign expireStr) w resp w')
    (hstatus : resp.status = 200) :
    ∃ expire, parseInt expireStr = some expire ∧ streamKey ≠ [] ∧
      sign = generateSign s.hmacSHA256 streamKey expire s.playSecret := by
  have hreject (msg : String) : (AuthHandler.rejectPlay msg).wp World.perform ok
      (fun r _ => r.status ≠ 200) w := fun _ _ => (by decide : (403 : Nat) ≠ 200)
  unfold AuthHandler.playAuth at h
  split at h
  · exact absurd hstatus (h.wp (hreject _))
  · rename_i hgiven
    cases hparse : parseInt expireStr with
    | none =>
      rw [hparse] at h
      exact absurd hstatus (h.wp (hreject _))
    | some expire =>
      rw [hparse] at h
      dsimp only at h
      split at h
      · exact absurd hstatus (h.wp (hreject _))
      · cases hval : validateSign s.hmacSHA256 streamKey expire sign s.playSecret with
        | some e =>
          rw [hval] at h
          exact absurd hstatus (h.wp (hreject _))
        | none => exact ⟨expire, rfl, fun hnil => hgiven (.inl hnil), validateSign_none.mp hval⟩

/-- And one that carries it in time is answered 200. -/
theorem playAuth_of_signed {expire : Int} (hkey : streamKey ≠ []) (hsign : sign ≠ [])
    (hparse : parseInt expireStr = some expire) (hlater : now.unix < expire)
    (hgen : sign = generateSign s.hmacSHA256 streamKey expire s.playSecret) :
    AuthHandler.playAuth s now streamKey sign expireStr = .done .allow := by
  have hexpire : expireStr ≠ [] := by
    rintro rfl
    cases hparse
  unfold AuthHandler.playAuth
  rw [if_neg (by simp [hkey, hsign, hexpire]), hparse]
  dsimp only
  rw [if_neg (by omega), validateSign_none.mpr hgen]
  rfl

/-- If a URL was generated for a pair with the message of this key and this expiry, one was
generated for this pair. -/
def Unmistaken (issued : Set (Str × Int)) (streamKey expireStr : Str) : Prop :=
  streamKey ≠ [] → ∀ expire, parseInt expireStr = some expire →
    (∃ p ∈ issued, p.1 ++ formatInt p.2 = streamKey ++ formatInt expire) →
    (streamKey, expire) ∈ issued

/-- There is no mistake among keys that do not extend one another, as UUIDs do not. -/
theorem unmistaken_of_apart {issued : Set (Str × Int)}
    (hfree : ∀ p ∈ issued, streamKey <+: p.1 ∨ p.1 <+: streamKey → streamKey = p.1) :
    Unmistaken issued streamKey expireStr := by
  rintro _ expire _ ⟨p, hp, hmessage⟩
  obtain ⟨hkey, hexpire⟩ := message_inj (hfree p hp) hmessage.symm
  rw [hkey, hexpire]
  exact hp

/-- **A play signature authorises only what was signed**, exactly where the message is not
taken for another one's: `issued` are the pairs for which play URLs were generated, and
there is no other valid signature. -/
theorem play_authorises_issued (issued : Set (Str × Int))
    (hinj : Function.Injective (s.hmacSHA256 s.playSecret))
    (hfull : ∀ m, s.hmacSHA256 s.playSecret m ≠ []) (streamKey expireStr : Str) :
    (∀ (sign : Str) (now : Time) (w w' : World) (resp : Response),
      ((∃ m, sign = hexEncode (s.hmacSHA256 s.playSecret m)) →
        ∃ p ∈ issued, sign = generateSign s.hmacSHA256 p.1 p.2 s.playSecret) →
      Prog.Runs World.perform (fun _ _ => True) (AuthHandler.playAuth s now streamKey sign expireStr)
        w resp w' → resp.status = 200 →
      ∃ expire, parseInt expireStr = some expire ∧ (streamKey, expire) ∈ issued) ↔
    Unmistaken issued streamKey expireStr := by
  constructor
  · rintro hall hkey expire hparse ⟨p, hp, hmessage⟩
    have hsign : generateSign s.hmacSHA256 p.1 p.2 s.playSecret ≠ [] := by
      intro hnil
      have hempty : hexEncode (s.hmacSHA256 s.playSecret (p.1 ++ formatInt p.2)) = hexEncode [] := hnil
      exact hfull _ (hexEncode_inj hempty)
    -- the signature of the other pair, a second before this expiry
    have hgen : generateSign s.hmacSHA256 p.1 p.2 s.playSecret =
        generateSign s.hmacSHA256 streamKey expire s.playSecret := by
      unfold generateSign
      rw [hmessage]
    have hlater : Time.unix ((expire - 1) * 1000000000) < expire := by
      unfold Time.unix
      omega
    obtain ⟨expire', hparse', hissued⟩ := hall _ ((expire - 1) * 1000000000) .empty .empty .allow
      (fun _ => ⟨p, hp, rfl⟩) (playAuth_of_signed hkey hsign hparse hlater hgen ▸ Prog.Runs.done) rfl
    cases hparse.symm.trans hparse'
    exact hissued
  · intro hun sign now w w' resp hknown hrun hstatus
    obtain ⟨expire, hparse, hkey, hsign⟩ := playAuth_allows hrun hstatus
    obtain ⟨p, hp, hpsign⟩ := hknown ⟨_, hsign⟩
    have hmessage : streamKey ++ formatInt expire = p.1 ++ formatInt p.2 :=
      hinj (hexEncode_inj (hsign.symm.trans hpsign))
    exact ⟨expire, hparse, hun hkey expire hparse ⟨p, hp, hmessage.symm⟩⟩

end

/-! ### A digit that moves -/

/-- The pair of one play URL. -/
def samplePair : Str × Int := (sampleKey.val, 2000000000)

/-- HMAC-SHA256 of the pair's message under the sample secret. -/
def samplePairDigest : Str :=
  [238, 146, 88, 94, 208, 36, 220, 164, 164, 161, 38, 22, 9, 171, 238, 242, 34, 83, 29, 99, 36, 159,
    97, 86, 195, 163, 250, 182, 102, 182, 7, 20]

/-- A hash that gives other messages back, behind a byte. -/
def sampleHash (_secret m : Str) : Str :=
  if m = samplePair.1 ++ formatInt samplePair.2 then samplePairDigest else 0 :: m

theorem sampleHash_inj (secret : Str) : Function.Injective (sampleHash secret) := by
  intro a b h
  unfold sampleHash samplePairDigest at h
  split at h <;> split at h
  · rename_i ha hb
    rw [ha, hb]
  · cases h
  · cases h
  · exact (List.cons.inj h).2

theorem sampleHash_ne_nil (secret m : Str) : sampleHash secret m ≠ [] := by
  unfold sampleHash
  split
  · decide
  · exact List.cons_ne_nil _ _

def StreamService.signing : StreamService := { StreamService.sample with hmacSHA256 := sampleHash }

def samplePairSign : Str := hexEncode samplePairDigest

theorem samplePairSign_eq : samplePairSign = generateSign StreamService.signing.hmacSHA256 samplePair.1
    samplePair.2 StreamService.signing.playSecret := by
  decide

theorem play_authorises_issued_sample :
    ∃ expire, parseInt (lit "2000000000") = some expire ∧
      (sampleKey.val, expire) ∈ ({samplePair} : Set (Str × Int)) := by
  have hrun : Prog.Runs World.perform (fun _ _ => True)
      (AuthHandler.playAuth .signing 0 sampleKey.val samplePairSign (lit "2000000000")) .empty .allow
      .empty := Prog.exec_runs _ (fun _ => ({} : Choice)) _ fun _ _ => trivial
  refine (play_authorises_issued (s := .signing) {samplePair} (sampleHash_inj (lit "secret"))
    (sampleHash_ne_nil (lit "secret")) _ _).mpr (unmistaken_of_apart ?_) samplePairSign 0 _ _ _
    (fun _ => ⟨samplePair, rfl, samplePairSign_eq⟩) hrun rfl
  rintro p rfl _
  rfl

/-- The key of that URL ends in 5. The same signature is accepted for the key without its
last character, until far later. -/
theorem play_signature_moved :
    ∃ (s : StreamService) (issued : Set (Str × Int)) (streamKey sign expireStr : Str),
      Function.Injective (s.hmacSHA256 s.playSecret) ∧
      (∃ p ∈ issued, sign = generateSign s.hmacSHA256 p.1 p.2 s.playSecret) ∧
      ((AuthHandler.playAuth s 0 streamKey sign expireStr).exec World.perform (fun _ => {})
        .empty).1.status = 200 ∧
      ¬ ∃ expire, parseInt expireStr = some expire ∧ (streamKey, expire) ∈ issued := by
  refine ⟨.signing, {samplePair}, sampleKey.val.dropLast, samplePairSign, lit "52000000000",
    sampleHash_inj (lit "secret"), ⟨samplePair, rfl, samplePairSign_eq⟩, by decide, ?_⟩
  rintro ⟨expire, _, hmem⟩
  have hlen : sampleKey.val.dropLast.length = sampleKey.val.length :=
    congrArg (fun p => p.1.length) (Set.mem_singleton_iff.mp hmem)
  exact absurd hlen (by decide)

end LiveServer
