import LiveServer.Playback.Signature

/-! Play URLs there and back.

A play URL carries a signature and an expiry in its query. Handed to the authorisation of
Nginx with the key of the stream they open it until the expiry, and with any other key or
expiry never. The expiry is printed in decimal and read as an `int64`. -/
namespace LiveServer
open Concurrent Text

/-- The bytes that `hex.EncodeToString` and `%d` print stand for themselves in a query. -/
theorem plain_of_formatInt {n : Int} : ∀ b ∈ formatInt n, IsPlain b := by
  intro b hb
  have hb := mem_formatInt hb
  refine ⟨?_, ?_, ?_, ?_, ?_⟩ <;> (intro h; subst h; exact absurd hb (by decide))

theorem plain_of_hexEncode {bs : List UInt8} : ∀ b ∈ hexEncode bs, IsPlain b :=
  fun b hb => (hexEncode_isLowerHex bs b hb).isPlain

/-- The query of a play URL. -/
def playQuery (sign expire : Str) : Str := lit "sign" ++ 61 :: sign ++ 38 :: (lit "expire" ++ 61 :: expire)

theorem parseQuery_playQuery {sign expire : Str} (hsign : ∀ b ∈ sign, IsPlain b) (hexpire : ∀ b ∈ expire, IsPlain b) :
    parseQuery (playQuery sign expire) = ([(lit "sign", sign), (lit "expire", expire)], false) := by
  unfold playQuery
  have hnames : ∀ b ∈ lit "sign" ++ lit "expire", IsPlain b := List.all_iff_forall_prop.mp (by decide)
  rw [parseQuery_append (fun b hb => hnames b (List.mem_append_left _ hb)) hsign,
    parseQuery_single (fun b hb => hnames b (List.mem_append_right _ hb)) hexpire]

/-- There is no fragment behind it. -/
theorem no_fragment_playQuery {bs : List UInt8} {n : Int} : 35 ∉ playQuery (hexEncode bs) (formatInt n) := by
  unfold playQuery
  simp only [List.mem_append, List.mem_cons, not_or]
  refine ⟨⟨by decide, by decide, ?_⟩, by decide, by decide, by decide, ?_⟩
  · intro h
    exact absurd (hexEncode_isLowerHex bs 35 h) (by decide)
  · intro h
    exact absurd (mem_formatInt h) (by decide)

section
variable {s : StreamService} {streamKey : Str} {now : Time}

/-- The URL is the address of the stream, a question mark and the query. -/
theorem generatePlayURL_eq (s : StreamService) (now : Time) (streamKey ext : Str) :
    s.generatePlayURL now streamKey ext = s.nginxBase ++ lit "/" ++ streamKey ++ lit "." ++ ext ++
      63 :: playQuery
        (generateSign s.hmacSHA256 streamKey (Time.unix (now + s.playExpiry)) s.playSecret)
        (formatInt (Time.unix (now + s.playExpiry))) := by
  have hsign : lit "?sign=" = 63 :: (lit "sign" ++ [61]) := by decide
  have hexpire : lit "&expire=" = 38 :: (lit "expire" ++ [61]) := by decide
  simp only [StreamService.generatePlayURL, playQuery, hsign, hexpire, List.append_assoc,
    List.cons_append, List.nil_append]

/-- A request that is turned down is answered 403, whatever the services do. -/
theorem rejectPlay_status (msg : String) (ch : Nat → Choice) (w : World) :
    ((AuthHandler.rejectPlay msg).exec World.perform ch w).1.status = 403 := rfl

/-- The authorisation of a pair with a signature that is not its own. -/
theorem playAuth_forbids {sign : Str} {e : Int} (he : IsInt64 e)
    (hsign : sign ≠ generateSign s.hmacSHA256 streamKey e s.playSecret) (ch : Nat → Choice) (w : World) :
    ((AuthHandler.playAuth s now streamKey sign (formatInt e)).exec World.perform ch w).1.status =
      403 := by
  have hval : validateSign s.hmacSHA256 streamKey e sign s.playSecret = some (.text "invalid signature") :=
    if_pos hsign
  unfold AuthHandler.playAuth
  rw [parseInt_formatInt he]
  split
  · exact rejectPlay_status _ ch w
  · dsimp only
    split
    · exact rejectPlay_status _ ch w
    · rw [hval]
      exact rejectPlay_status _ ch w

/-- The authorisation of a pair with its own. -/
theorem playAuth_signed {e : Int} (he : IsInt64 e) (hkey : streamKey ≠ [])
    (hfull : ∀ m, s.hmacSHA256 s.playSecret m ≠ []) (ch : Nat → Choice) (w : World) :
    ((AuthHandler.playAuth s now streamKey (generateSign s.hmacSHA256 streamKey e s.playSecret)
      (formatInt e)).exec World.perform ch w).1.status = if now.unix < e then 200 else 403 := by
  have hsign : generateSign s.hmacSHA256 streamKey e s.playSecret ≠ [] := by
    intro hnil
    have hempty : hexEncode (s.hmacSHA256 s.playSecret (streamKey ++ formatInt e)) = hexEncode [] := hnil
    exact hfull _ (hexEncode_inj hempty)
  by_cases hlater : now.unix < e
  · rw [playAuth_of_signed hkey hsign (parseInt_formatInt he) hlater rfl, if_pos hlater]
    rfl
  · unfold AuthHandler.playAuth
    rw [parseInt_formatInt he, if_neg hlater]
    split
    · exact rejectPlay_status _ ch w
    · dsimp only
      rw [if_pos (by omega)]
      exact rejectPlay_status _ ch w

/-- Nothing in a UUID ends the path of a URL. -/
theorem IsUUIDText.no_delimiter (h : IsUUIDText streamKey) : 63 ∉ streamKey ∧ 35 ∉ streamKey := by
  constructor
  · intro hmem
    exact absurd (h.2 63 hmem) (by decide)
  · intro hmem
    exact absurd (h.2 35 hmem) (by decide)

end

/-- **Play URLs there and back**: the query of a generated URL, which is the URL's query
wherever base and extension hold no delimiter, opens the stream until its expiry; and its
signature opens nothing for another key of that length or another expiry. -/
theorem play_url_round_trip (s : StreamService) (t₀ : Time) (k ext : Str) (hkey : IsUUIDText k)
    (hinj : Function.Injective (s.hmacSHA256 s.playSecret))
    (hfull : ∀ m, s.hmacSHA256 s.playSecret m ≠ [])
    (he : IsInt64 (Time.unix (t₀ + s.playExpiry))) :
    let e := Time.unix (t₀ + s.playExpiry)
    ∃ query, s.generatePlayURL t₀ k ext =
        s.nginxBase ++ lit "/" ++ k ++ lit "." ++ ext ++ lit "?" ++ query ∧
      ((63 ∉ s.nginxBase ∧ 35 ∉ s.nginxBase) → (63 ∉ ext ∧ 35 ∉ ext) →
        rawQuery (s.generatePlayURL t₀ k ext) = query) ∧
      (parseQuery query).2 = false ∧
      let sign := getValue (parseQuery query).1 (lit "sign")
      let expire := getValue (parseQuery query).1 (lit "expire")
      (∀ t ch w, ((AuthHandler.playAuth s t k sign expire).exec World.perform ch w).1.status =
        if t.unix < e then 200 else 403) ∧
      ∀ (k' : Str) (e' : Int), k'.length = 36 → IsInt64 e' → (k', e') ≠ (k, e) →
        ∀ t ch w, ((AuthHandler.playAuth s t k' sign (formatInt e')).exec World.perform ch w).1.status =
          403 := by
  intro e
  have hurl := generatePlayURL_eq s t₀ k ext
  have hquery : parseQuery (playQuery (generateSign s.hmacSHA256 k e s.playSecret) (formatInt e)) =
      ([(lit "sign", generateSign s.hmacSHA256 k e s.playSecret), (lit "expire", formatInt e)], false) :=
    parseQuery_playQuery plain_of_hexEncode plain_of_formatInt
  have hne : k ≠ [] := by
    intro hnil
    have hlen := hkey.1
    rw [hnil] at hlen
    cases hlen
  refine ⟨playQuery (generateSign s.hmacSHA256 k e s.playSecret) (formatInt e), ?_, ?_, ?_, ?_⟩
  · rw [hurl, List.append_assoc _ (lit "?")]
    rfl
  · intro hbase hext
    rw [hurl]
    apply rawQuery_append
    · constructor
      · simp only [List.mem_append, not_or]
        exact ⟨⟨⟨⟨hbase.1, by decide⟩, hkey.no_delimiter.1⟩, by decide⟩, hext.1⟩
      · simp only [List.mem_append, not_or]
        exact ⟨⟨⟨⟨hbase.2, by decide⟩, hkey.no_delimiter.2⟩, by decide⟩, hext.2⟩
    · exact no_fragment_playQuery
  · rw [hquery]
  · simp only [hquery, getValue_cons_self, getValue_cons_ne (show lit "sign" ≠ lit "expire" by decide)]
    constructor
    · intro t ch w
      exact playAuth_signed he hne hfull ch w
    · intro k' e' hlen he' hother t ch w
      apply playAuth_forbids he'
      intro hsign
      -- one signature for two messages, of which the keys have one length
      have hmessage : k ++ formatInt e = k' ++ formatInt e' := hinj (hexEncode_inj hsign)
      have hkeys : k <+: k' ∨ k' <+: k → k = k' := by
        intro h
        have hk : k.length = k'.length := hkey.1.trans hlen.symm
        rcases h with h | h
        · exact h.eq_of_length hk
        · exact (h.eq_of_length hk.symm).symm
      obtain ⟨hk, hexp⟩ := message_inj hkeys hmessage
      apply hother
      rw [hk, hexp]

/-- The play URL of the sample pair opens its stream until it expires. -/
theorem play_url_round_trip_sample :
    ∃ query, rawQuery (StreamService.signing.generatePlayURL 2000000000000000000 sampleKey.val (lit "m3u8")) =
        query ∧
      getValue (parseQuery query).1 (lit "sign") = samplePairSign ∧
      let play (t : Time) (expire : Str) := ((AuthHandler.playAuth .signing t sampleKey.val
        (getValue (parseQuery query).1 (lit "sign")) expire).exec World.perform (fun _ => {})
        .empty).1.status
      play 1999999999999999999 (getValue (parseQuery query).1 (lit "expire")) = 200 ∧
        play 2000000000000000000 (getValue (parseQuery query).1 (lit "expire")) = 403 ∧
        play 0 (formatInt 2000000001) = 403 := by
  obtain ⟨query, _, hraw, _, hopens, hforbids⟩ := play_url_round_trip .signing 2000000000000000000
    sampleKey.val (lit "m3u8") sampleKey.property (sampleHash_inj (lit "secret"))
    (sampleHash_ne_nil (lit "secret")) (by decide)
  have hraw := hraw (by decide) (by decide)
  refine ⟨query, hraw, ?_, hopens 1999999999999999999 _ _, hopens 2000000000000000000 _ _, ?_⟩
  · rw [← hraw]
    decide +kernel
  · exact hforbids sampleKey.val 2000000001 (by decide) (by decide) (by decide) 0 _ _

end LiveServer
