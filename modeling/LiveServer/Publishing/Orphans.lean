import LiveServer.Adapter.SRS
import LiveServer.Recorded

/-! Deleting a stream that is being published.

`DeleteStream` kicks the publisher before it deletes the row, as far as it can: the errors of
both requests to SRS are only logged, a row whose status is not *publishing* is deleted without
asking, and of several publishers only the first one listed is kicked. Once the row is gone
nothing stops a publisher that is left. Here SRS is part of the state: its clients stay as they
are unless one is kicked, and its answers go through the adapter. -/
namespace LiveServer
open Concurrent Relational

/-- The server's world and the clients connected to SRS. -/
structure Site where
  world : World
  clients : List SRSClient

/-- What a call meets: the choices of the stores, and the answers of SRS. -/
structure Encounter where
  choice : Choice := {}
  /-- The answer to the list of clients, without the clients. -/
  listing : Option (SRSAPI.Response Unit) := some ⟨200, "", true, some (0, some ())⟩
  kick : Option (SRSAPI.Response Unit) := some ⟨200, "", true, some (0, none)⟩
  /-- A kick that was not answered, or not readably, has disconnected the client. -/
  cut : Bool := false

namespace Encounter
variable (en : Encounter)

/-- The clients are listed. -/
def lists : Bool := en.listing.any fun resp => resp.complete && resp.body = some (0, some ())

/-- The kick is not answered with an error. -/
def accepts : Bool := en.kick.any fun resp => resp.status < 400 && resp.body.all (·.1 = 0)

/-- The client that was to be kicked is disconnected. -/
def disconnects : Bool :=
  match en.kick with
  | none => en.cut
  | some resp => resp.status < 400 && match resp.body with
    | none => en.cut
    | some (code, _) => code = 0

/-- The list of clients as SRS answers it. -/
def clientList (clients : List SRSClient) : Option (SRSAPI.Response (List SRSClient)) :=
  en.listing.map (SRSAPI.Response.map fun _ => clients)

/-- A call to SRS fails as the adapter has it. -/
def choiceFor (clients : List SRSClient) : Op → Choice
  | .findPublishingClient key =>
    { en.choice with
      fault := !(SRSAPI.findPublishingClient key (en.clientList clients)).isOk
      clients := clients }
  | .listAllClients =>
    { en.choice with
      fault := !(SRSAPI.listAllClients (en.clientList clients)).isOk
      clients := clients }
  | .kickClient _ => { en.choice with fault := (SRSAPI.kickClient en.kick).isSome }
  | _ => en.choice

/-- The clients after a call. -/
def leaves (clients : List SRSClient) : Op → List SRSClient
  | .kickClient id => if en.disconnects then clients.filter (·.id ≠ id) else clients
  | _ => clients

end Encounter

def Site.perform (en : Encounter) (o : Op) (x : Site) : o.Res × Site :=
  let r := World.perform (en.choiceFor x.clients o) o x.world
  (r.1, ⟨r.2, en.leaves x.clients o⟩)

/-- A publisher of the stream. -/
def Publishes (key : Str) (c : SRSClient) : Bool := c.stream = key && c.type = lit "RTMP publisher"

/-! ### The answers of SRS -/

section
variable {en : Encounter}

theorem listAllClients_listed (h : en.lists = true) (clients : List SRSClient) :
    SRSAPI.listAllClients (en.clientList clients) = .ok clients := by
  obtain ⟨_, listing, _, _⟩ := en
  rcases listing with _ | ⟨status, text, complete, body⟩
  · cases h
  · obtain ⟨hcomplete, hbody⟩ : complete = true ∧ body = some (0, some ()) := by
      simpa [Encounter.lists] using h
    subst hcomplete hbody
    rfl

theorem listAllClients_failed (h : en.lists = false) (clients : List SRSClient) :
    ∃ e, SRSAPI.listAllClients (en.clientList clients) = .error e := by
  obtain ⟨_, listing, _, _⟩ := en
  rcases listing with _ | ⟨status, text, complete, body⟩
  · exact ⟨_, rfl⟩
  · cases complete with
    | false => exact ⟨_, rfl⟩
    | true =>
      rcases body with _ | ⟨code, data⟩
      · exact ⟨_, rfl⟩
      · by_cases hcode : code = 0
        · subst hcode
          rcases data with _ | ⟨⟩
          · exact ⟨_, rfl⟩
          · cases h
        · exact ⟨_, if_pos hcode⟩

theorem findPublishingClient_listed (h : en.lists = true) (clients : List SRSClient) (key : Str) :
    SRSAPI.findPublishingClient key (en.clientList clients) = .ok (World.publisher clients key) := by
  unfold SRSAPI.findPublishingClient
  rw [listAllClients_listed h]
  rfl

theorem findPublishingClient_failed (h : en.lists = false) (clients : List SRSClient) (key : Str) :
    ∃ e, SRSAPI.findPublishingClient key (en.clientList clients) = .error e := by
  obtain ⟨e, he⟩ := listAllClients_failed h clients
  unfold SRSAPI.findPublishingClient
  rw [he]
  exact ⟨e, rfl⟩

theorem kickClient_eq_none_iff : SRSAPI.kickClient en.kick = none ↔ en.accepts = true := by
  unfold Encounter.accepts
  rcases en.kick with _ | ⟨status, text, complete, body⟩
  · simp [SRSAPI.kickClient]
  · by_cases hstatus : 400 ≤ status
    · simp [SRSAPI.kickClient, hstatus]
    · rcases body with _ | ⟨code, data⟩
      · simp [SRSAPI.kickClient, hstatus, Nat.lt_of_not_le hstatus]
      · simp [SRSAPI.kickClient, hstatus, Nat.lt_of_not_le hstatus]

end

/-! ### A deletion -/

section
variable {s : StreamService} {outcome : Op → Encounter} {x x' : Site} {id : Str} {row : Stream}

/-- The run of the server is one of its own world, whatever SRS does. -/
theorem Site.runs_world {ok : Op → Encounter → Prop} {p : Server α} {a : α}
    (h : Prog.Runs Site.perform ok p x a x') :
    Prog.Runs World.perform (fun _ _ => True) p x.world a x'.world := by
  induction h with
  | done => exact .done
  | call _ _ ih => exact .call trivial ih

/-- The end of a deletion, the keys and then the row, wherever its calls are performed. -/
theorem wp_cleanup {W C : Type} {perform : C → (o : Op) → W → o.Res × W} {ok : Op → C → Prop}
    {Q : Option GoError → W → Prop} (I : W → Prop)
    (hkeys : ∀ ch w, I w → I (perform ch (.deleteStreamCache id) w).2)
    (hdelete : ∀ w, I w → (db.deleteStream id).wp perform ok Q w) {w : W} (hw : I w) : (do
      if s.cache then
        let _ ← cache.deleteStreamCache id
      db.deleteStream id : Server (Option GoError)).wp perform ok Q w := by
  by_cases hcache : s.cache = true
  · simp only [hcache, if_true]
    intro ch _
    exact hdelete _ (hkeys ch w hw)
  · simp only [hcache]
    exact hdelete w hw

/-- A deletion that returns an error has deleted nothing. -/
theorem wp_deleteStream_error {ok : Op → Choice → Prop} (w : World) (id : Str) :
    (s.deleteStream id).wp World.perform ok (fun r w' => r ≠ none → w'.db = w.db) w := by
  apply wp_getStreamByID
  · intro e w₁ h₁ _
    exact h₁.db
  · intro row w₁ _ _ h₁
    have hkeys (ch : Choice) (w₂ : World) (h₂ : w₂.db = w.db) :
        (World.perform ch (.deleteStreamCache id) w₂).2.db = w.db := (perform_still rfl ch w₂).db.trans h₂
    have hdelete (w₂ : World) (h₂ : w₂.db = w.db) : (db.deleteStream id).wp World.perform ok
        (fun r w' => r ≠ none → w'.db = w.db) w₂ := by
      apply wp_deleteStream
      · intro e w₃ h₃ _
        exact h₃.db.trans h₂
      · intro w₃ _ _ hne
        exact absurd rfl hne
    dsimp only
    split
    · apply Prog.wp_bind
      apply Prog.wp_mono _ (wp_all_quiet (StreamService.every_stopPublishing row (fun _ => rfl) fun _ => rfl))
      intro _ w₂ h₂
      exact wp_cleanup _ hkeys hdelete (h₂.db.trans h₁.db)
    · exact wp_cleanup _ hkeys hdelete h₁.db

/-- The clients when the publisher has been dealt with. -/
def afterStop (outcome : Op → Encounter) (clients : List SRSClient) (row : Stream) : List SRSClient :=
  if row.status = .publishing ∧ (outcome (.findPublishingClient row.streamKey)).lists = true then
    match World.publisher clients row.streamKey with
    | none => clients
    | some c => (outcome (.kickClient c.id)).leaves clients (.kickClient c.id)
  else clients

theorem perform_find (en : Encounter) (key : Str) (x : Site) :
    (Site.perform en (.findPublishingClient key) x).1 =
      if en.lists then .ok (World.publisher x.clients key) else .error .backend := by
  cases hlists : en.lists with
  | true => simp [Site.perform, World.perform, World.answer, World.read, Encounter.choiceFor,
      findPublishingClient_listed hlists]
  | false =>
    obtain ⟨e, he⟩ := findPublishingClient_failed hlists x.clients key
    simp [Site.perform, World.perform, World.answer, World.read, Encounter.choiceFor, he]

/-- The search for the publisher. -/
theorem wp_find_site {key : Str} {f : Except GoError (Option SRSClient) → Server β} {Q : β → Site → Prop}
    (herr : (outcome (.findPublishingClient key)).lists = false → ∀ e x', x'.clients = x.clients →
      (f (.error e)).wp Site.perform (fun o en => en = outcome o) Q x')
    (hok : (outcome (.findPublishingClient key)).lists = true → ∀ x', x'.clients = x.clients →
      (f (.ok (World.publisher x.clients key))).wp Site.perform (fun o en => en = outcome o) Q x') :
    (srs.findPublishingClient key >>= f).wp Site.perform (fun o en => en = outcome o) Q x := by
  intro en hen
  have hfind := perform_find en key x
  rw [hen] at hfind
  subst hen
  cases hlists : (outcome (.findPublishingClient key)).lists with
  | false =>
    rw [hlists] at hfind
    exact hfind ▸ herr hlists .backend _ rfl
  | true =>
    rw [hlists] at hfind
    exact hfind ▸ hok hlists _ rfl

theorem wp_getStreamByID_site {f : Except GoError Stream → Server β} {Q : β → Site → Prop}
    (herr : (outcome (.getStreamByID id)).choice.fault = true ∨
        (∃ e, x.world.db.getStreamByID id = .error e) → ∀ e x', x'.clients = x.clients →
      (f (.error e)).wp Site.perform (fun o en => en = outcome o) Q x')
    (hok : (outcome (.getStreamByID id)).choice.fault = false → ∀ row x',
      x.world.db.getStreamByID id = .ok row → x'.clients = x.clients →
      (f (.ok row)).wp Site.perform (fun o en => en = outcome o) Q x') :
    (db.getStreamByID id >>= f).wp Site.perform (fun o en => en = outcome o) Q x := by
  intro en hen
  have hread : (Site.perform en (.getStreamByID id) x).1 =
      if en.choice.fault then .error .backend else x.world.db.getStreamByID id := rfl
  rw [hen] at hread
  subst hen
  cases hfault : (outcome (.getStreamByID id)).choice.fault with
  | true =>
    rw [hfault] at hread
    exact hread ▸ herr (.inl hfault) .backend _ rfl
  | false =>
    rw [hfault] at hread
    cases hrow : x.world.db.getStreamByID id with
    | error e =>
      rw [hrow] at hread
      exact hread ▸ herr (.inr ⟨e, hrow⟩) e _ rfl
    | ok row =>
      rw [hrow] at hread
      exact hread ▸ hok hfault row _ hrow rfl

/-- The DELETE of a row that was found. -/
theorem wp_delete_site {Q : Option GoError → Site → Prop} (hrow : ∃ u, uuidIn id = some u)
    (h : ∀ r x', (r = none ↔ (outcome (.deleteStream id)).choice.fault = false) →
      x'.clients = x.clients → Q r x') :
    (db.deleteStream id).wp Site.perform (fun o en => en = outcome o) Q x := by
  obtain ⟨u, hu⟩ := hrow
  intro en hen
  subst hen
  apply h
  · cases hfault : (outcome (.deleteStream id)).choice.fault with
    | true => simp [Site.perform, World.perform, World.answer, World.write, Encounter.choiceFor, hfault]
    | false =>
      simp [Site.perform, World.perform, World.answer, World.write, Encounter.choiceFor, hfault,
        DB.deleteStream, hu]
  · rfl

theorem wp_stopPublishing_site (hpub : row.status = .publishing) :
    (StreamService.stopPublishing row).wp Site.perform (fun o en => en = outcome o)
      (fun _ x' => x'.clients = afterStop outcome x.clients row) x := by
  unfold afterStop
  apply wp_find_site
  · intro hlists e x₁ h₁
    rw [if_neg (by simp [hlists])]
    exact h₁
  · intro hlists x₁ h₁
    rw [if_pos ⟨hpub, hlists⟩]
    cases World.publisher x.clients row.streamKey with
    | none => exact h₁
    | some c =>
      intro en hen
      subst hen
      show (outcome (.kickClient c.id)).leaves x₁.clients (.kickClient c.id) = _
      rw [h₁]

/-- What the deletion of a row returns, and the clients it leaves. -/
structure Deletes (outcome : Op → Encounter) (x : Site) (id : Str) (row : Stream) (r : Option GoError)
    (x' : Site) : Prop where
  result : r = none ↔ (outcome (.getStreamByID id)).choice.fault = false ∧
    (outcome (.deleteStream id)).choice.fault = false
  clients : r = none → x'.clients = afterStop outcome x.clients row

theorem wp_deleteStream_site (s : StreamService) (hrow : x.world.db.getStreamByID id = .ok row) :
    (s.deleteStream id).wp Site.perform (fun o en => en = outcome o) (Deletes outcome x id row) x := by
  apply wp_getStreamByID_site
  · intro hwhy e x₁ _
    rcases hwhy with hfault | ⟨e', he'⟩
    · exact ⟨by simp [hfault], nofun⟩
    · rw [hrow] at he'
      cases he'
  · intro hread row' x₁ hrow' h₁
    rw [hrow] at hrow'
    cases hrow'
    have hdelete (x₂ : Site) (h₂ : x₂.clients = afterStop outcome x.clients row) :
        (db.deleteStream id).wp Site.perform (fun o en => en = outcome o) (Deletes outcome x id row) x₂ := by
      apply wp_delete_site ⟨row.id, (DB.getStreamByID_ok hrow).1⟩
      intro r x₃ hr h₃
      exact ⟨by simp [hr, hread], fun _ => h₃.trans h₂⟩
    have hkeys (en : Encounter) (x₂ : Site) (h₂ : x₂.clients = afterStop outcome x.clients row) :
        (Site.perform en (.deleteStreamCache id) x₂).2.clients = afterStop outcome x.clients row := h₂
    dsimp only
    split
    · rename_i hpub
      apply Prog.wp_bind
      apply Prog.wp_mono _ (wp_stopPublishing_site hpub)
      intro _ x₂ h₂
      rw [h₁] at h₂
      exact wp_cleanup _ hkeys hdelete h₂
    · rename_i hpub
      apply wp_cleanup _ hkeys hdelete
      rw [h₁, afterStop, if_neg fun h => hpub h.1]

/-! ### Who is left -/

/-- SRS could not be asked for the publisher of the row, or did not kick it. -/
def Unstopped (outcome : Op → Encounter) (clients : List SRSClient) (row : Stream) : Prop :=
  let found := SRSAPI.findPublishingClient row.streamKey
    ((outcome (.findPublishingClient row.streamKey)).clientList clients)
  row.status = .publishing ∧
    ((∃ e, found = .error e) ∨
      ∃ c, found = .ok (some c) ∧ SRSAPI.kickClient (outcome (.kickClient c.id)).kick ≠ none)

/-- If the deletion of the row with this id returns nil, no publisher of it is connected; if
one is, or could not be found out or kicked, it returns an error and the row is kept. -/
def NeverOrphans (outcome : Op → Encounter) (id : Str) (x : Site) (r : Option GoError) (x' : Site) : Prop :=
  ∀ row, x.world.db.getStreamByID id = .ok row →
    (r = none → ∀ c ∈ x'.clients, Publishes row.streamKey c = false) ∧
    ((∃ c ∈ x'.clients, Publishes row.streamKey c = true) ∨ Unstopped outcome x.clients row →
      r ≠ none ∧ x'.world.db.getStreamByID id = .ok row)

/-- Nobody publishes the stream; or its status says that somebody does, SRS lists its clients
and disconnects the first publisher, and every publisher of the stream has the id of that one. -/
def Stoppable (outcome : Op → Encounter) (clients : List SRSClient) (row : Stream) : Prop :=
  if row.status = .publishing then
    (outcome (.findPublishingClient row.streamKey)).lists = true ∧
      ∀ c, World.publisher clients row.streamKey = some c →
        (outcome (.kickClient c.id)).accepts = true ∧ (outcome (.kickClient c.id)).disconnects = true ∧
          ∀ c' ∈ clients, Publishes row.streamKey c' = true → c'.id = c.id
  else ∀ c ∈ clients, Publishes row.streamKey c = false

theorem unstopped_iff {clients : List SRSClient} (hpub : row.status = .publishing) :
    ¬ Unstopped outcome clients row ↔
      (outcome (.findPublishingClient row.streamKey)).lists = true ∧
        ∀ c, World.publisher clients row.streamKey = some c →
          (outcome (.kickClient c.id)).accepts = true := by
  unfold Unstopped
  cases hlists : (outcome (.findPublishingClient row.streamKey)).lists with
  | false =>
    have hfailed := findPublishingClient_failed hlists clients row.streamKey
    simp [hpub, hfailed]
  | true =>
    rw [findPublishingClient_listed hlists]
    simp [hpub, kickClient_eq_none_iff]

/-- The publisher that is listed first is one. -/
theorem publisher_some {clients : List SRSClient} {key : Str} {c : SRSClient}
    (h : World.publisher clients key = some c) : c ∈ clients ∧ Publishes key c = true :=
  ⟨List.mem_of_find?_eq_some h, List.find?_some (p := Publishes key) h⟩

theorem publisher_none {clients : List SRSClient} {key : Str} (h : World.publisher clients key = none) :
    ∀ c ∈ clients, Publishes key c = false := by
  intro c hc
  exact Bool.eq_false_iff.mpr (List.find?_eq_none.mp h c hc)

/-- After a kick of a publisher no other is left exactly if it is disconnected and all of them
have its id. -/
theorem leaves_none_iff {en : Encounter} {clients : List SRSClient} {key : Str} {c : SRSClient}
    (hc : c ∈ clients) (hpub : Publishes key c = true) :
    (∀ c' ∈ en.leaves clients (.kickClient c.id), Publishes key c' = false) ↔
      en.disconnects = true ∧ ∀ c' ∈ clients, Publishes key c' = true → c'.id = c.id := by
  unfold Encounter.leaves
  cases en.disconnects with
  | false =>
    constructor
    · intro h
      have hnot := h c hc
      rw [hpub] at hnot
      cases hnot
    · rintro ⟨h, _⟩
      cases h
  | true =>
    constructor
    · intro h
      refine ⟨rfl, ?_⟩
      intro c' hc' hpub'
      by_contra hne
      have hnot := h c' (List.mem_filter.mpr ⟨hc', decide_eq_true hne⟩)
      rw [hpub'] at hnot
      cases hnot
    · rintro ⟨_, hids⟩ c' hc'
      obtain ⟨hmem, hne⟩ := List.mem_filter.mp hc'
      apply Bool.eq_false_iff.mpr
      intro hpub'
      exact of_decide_eq_true hne (hids c' hmem hpub')

/-- When a deletion got through, all is as it should be exactly if the row was stoppable. -/
theorem stoppable_iff {clients : List SRSClient} :
    ((∀ c ∈ afterStop outcome clients row, Publishes row.streamKey c = false) ∧
      ¬ Unstopped outcome clients row) ↔ Stoppable outcome clients row := by
  unfold Stoppable
  split
  · rename_i hpub
    rw [unstopped_iff hpub, afterStop]
    cases hlists : (outcome (.findPublishingClient row.streamKey)).lists with
    | false => simp
    | true =>
      rw [if_pos ⟨hpub, rfl⟩]
      cases hfound : World.publisher clients row.streamKey with
      | none => simpa using publisher_none hfound
      | some c =>
        obtain ⟨hc, hpublishes⟩ := publisher_some hfound
        dsimp only
        rw [leaves_none_iff hc hpublishes]
        simp only [Option.some.injEq, forall_eq', true_and]
        exact and_comm
  · rename_i hpub
    rw [afterStop, if_neg fun h => hpub h.1]
    simp [Unstopped, hpub]

end

/-- **Deleting a stream orphans its publisher** unless the deletion fails in the database or the
stream is stoppable: nobody publishes it, or its status says so, SRS answers both requests and all
its publishers have one id. -/
theorem deletion_never_orphans_iff {s : StreamService} {outcome : Op → Encounter} {id : Str}
    {x x' : Site} {r : Option GoError}
    (h : Prog.Runs Site.perform (fun o en => en = outcome o) (s.deleteStream id) x r x') :
    NeverOrphans outcome id x r x' ↔
      ∀ row, x.world.db.getStreamByID id = .ok row →
        (outcome (.getStreamByID id)).choice.fault = true ∨
        (outcome (.deleteStream id)).choice.fault = true ∨ Stoppable outcome x.clients row := by
  apply forall_congr'
  intro row
  apply imp_congr_right
  intro hrow
  have hdel := h.wp (wp_deleteStream_site s hrow)
  have hkept := (Site.runs_world h).wp (wp_deleteStream_error x.world id)
  cases r with
  | some e =>
    constructor
    · intro _
      by_contra hfault
      simp only [not_or, Bool.not_eq_true] at hfault
      cases hdel.result.mpr ⟨hfault.1, hfault.2.1⟩
    · intro _
      refine ⟨nofun, fun _ => ⟨nofun, ?_⟩⟩
      rw [hkept nofun]
      exact hrow
  | none =>
    obtain ⟨hread, hdelete⟩ := hdel.result.mp rfl
    rw [hdel.clients rfl, hread, hdelete, ← stoppable_iff]
    constructor
    · rintro ⟨hnone, hleft⟩
      exact .inr (.inr ⟨hnone rfl, fun hun => (hleft (.inr hun)).1 rfl⟩)
    · rintro (hfault | hfault | ⟨hnone, hstopped⟩)
      · cases hfault
      · cases hfault
      · refine ⟨fun _ => hnone, ?_⟩
        rintro (⟨c, hc, hpublishes⟩ | hun)
        · rw [hnone c hc] at hpublishes
          cases hpublishes
        · exact absurd hun hstopped

/-! ### Deletions of a stream -/

def samplePublisher (id : String) : SRSClient := ⟨lit id, sampleKey.val, lit "RTMP publisher"⟩

/-- The row of the sample stream, live. -/
def sampleLiveRow : Stream := (sampleLive.db.streamAt sampleID).get (by decide)

/-- A deletion of the sample stream, all calls of which meet the same. -/
def sampleDeletion (en : Encounter) (x : Site) : Option GoError × Site :=
  (StreamService.sample.deleteStream sampleID).exec Site.perform (fun _ => en) x

/-- The one publisher of a live stream is kicked. -/
theorem deletion_never_orphans_sample :
    let site : Site := ⟨sampleLive, [samplePublisher "a"]⟩
    (sampleDeletion {} site).1 = none ∧
      ∀ c ∈ (sampleDeletion {} site).2.clients, Publishes sampleKey.val c = false := by
  intro site
  have hrun : Prog.Runs Site.perform (fun _ en => en = {}) (StreamService.sample.deleteStream sampleID)
      site (sampleDeletion {} site).1 (sampleDeletion {} site).2 := Prog.exec_runs _ _ _ fun _ _ => rfl
  have hrow : site.world.db.getStreamByID sampleID = .ok sampleLiveRow := by decide
  have hstoppable : Stoppable (fun _ => {}) site.clients sampleLiveRow := by
    rw [Stoppable, if_pos (by decide)]
    refine ⟨by decide, ?_⟩
    intro c hc
    have hfirst : World.publisher site.clients sampleLiveRow.streamKey = some (samplePublisher "a") := by
      decide
    cases hfirst.symm.trans hc
    exact ⟨by decide, by decide, by decide⟩
  have hsafe := (deletion_never_orphans_iff hrun).mpr (by
    intro row h
    cases hrow.symm.trans h
    exact .inr (.inr hstoppable))
  exact ⟨by decide, (hsafe sampleLiveRow hrow).1 (by decide)⟩

/-- A publisher is left, and the row is gone without an error: when the kick is refused, when
the status of the row lags behind, and when a second client publishes the stream. -/
theorem publisher_orphaned :
    let refused : Encounter := { kick := some ⟨500, "", true, none⟩ }
    ∀ run ∈ [(refused, (⟨sampleLive, [samplePublisher "a"]⟩ : Site)),
        ({}, ⟨sampleStream, [samplePublisher "a"]⟩),
        ({}, ⟨sampleLive, [samplePublisher "b", samplePublisher "a"]⟩)],
      (sampleDeletion run.1 run.2).1 = none ∧
        samplePublisher "a" ∈ (sampleDeletion run.1 run.2).2.clients ∧
        Publishes sampleKey.val (samplePublisher "a") = true ∧
        (sampleDeletion run.1 run.2).2.world.db.streamAt sampleID = none := by
  decide

end LiveServer
