import LiveServer.Footprint
import LiveServer.Handler.Callback

/-! What a publisher is given, and what it is worth.

A row keeps its push token and, in another column, the push URL made of its key and
that token. The two are written together, by `CreateStream` from the key it has just
made and by `RefreshPushToken` from the key it has read, so they fit however refreshes
overlap: a row's key never changes. The URL comes back from SRS in the fields of a
callback and is read as the key and the token it was made of. Random tokens do not
repeat, and each is written once; so a token that was replaced is never valid again. -/
namespace LiveServer
open Concurrent Relational Text

/-! ### The URL and the callback -/

/-- How SRS hands over the query of a push URL: in the param field, with or without
the question mark, or left at the stream name. -/
inductive Carries (key token : Str) : Str → Str → Prop
  | param : Carries key token key (lit "?token=" ++ token)
  | bareParam : Carries key token key (lit "token=" ++ token)
  | name : Carries key token (key ++ lit "?token=" ++ token) []

section
variable {key token : Str}

theorem IsUUIDText.no_question (h : IsUUIDText key) : (63 : UInt8) ∉ key := by
  intro hmem
  have hbyte := h.2 63 hmem
  revert hbyte
  decide

theorem parseTokenParams_bare (h : IsToken token) :
    parseTokenParams (lit "token=" ++ token) = (token, 0) := by
  have htrim : trimPrefix (lit "token=" ++ token) (lit "?") = lit "token" ++ 61 :: token := rfl
  have hname : (lit "token").all (fun b => decide (IsPlain b)) = true := by decide
  have hquery : parseQuery (lit "token" ++ 61 :: token) = ([(lit "token", token)], false) :=
    parseQuery_single (fun b hb => of_decide_eq_true (List.all_eq_true.mp hname b hb))
      fun b hb => (h.2 b hb).isPlain
  simp only [parseTokenParams, htrim, hquery]
  rfl

theorem parseTokenParams_question (h : IsToken token) :
    parseTokenParams (lit "?token=" ++ token) = (token, 0) :=
  parseTokenParams_bare h

/-- A token in the param field. -/
theorem parsePushAuth_param {stream param : Str} {expire : Int} (hparam : param ≠ [])
    (h : parseTokenParams param = (token, expire)) (htoken : token ≠ []) :
    parsePushAuth stream param = (stream, token, expire) := by
  unfold parsePushAuth
  rw [if_neg hparam, h]
  exact if_pos htoken

/-- A token at the stream name. -/
theorem parsePushAuth_name {stream : Str} {idx : Nat} {expire : Int}
    (hindex : index stream (lit "?token=") = some idx)
    (h : parseTokenParams (stream.drop (idx + 1)) = (token, expire)) (htoken : token ≠ []) :
    parsePushAuth stream [] = (stream.take idx, token, expire) := by
  unfold parsePushAuth
  rw [if_pos rfl, hindex]
  simp only [h]
  exact if_pos htoken

/-- **The round trip**: whichever way it is carried, the query of a push URL is read as
its key and its token. -/
theorem parsePushAuth_carries (hkey : IsUUIDText key) (htoken : IsToken token) {stream param : Str}
    (h : Carries key token stream param) : parsePushAuth stream param = (key, token, 0) := by
  cases h with
  | param => exact parsePushAuth_param (nofun) (parseTokenParams_question htoken) htoken.ne_nil
  | bareParam => exact parsePushAuth_param (nofun) (parseTokenParams_bare htoken) htoken.ne_nil
  | name =>
    have hindex : index (key ++ lit "?token=" ++ token) (lit "?token=") = some key.length :=
      index_append hkey.no_question token
    have hrest : (key ++ lit "?token=" ++ token).drop (key.length + 1) = lit "token=" ++ token := by
      rw [List.append_assoc, ← List.drop_drop, List.drop_left]
      rfl
    have hread := parseTokenParams_bare htoken
    rw [← hrest] at hread
    rw [parsePushAuth_name hindex hread htoken.ne_nil, List.append_assoc, List.take_left]

end

/-! ### Tokens and who writes them -/

/-- The token a request generates. -/
def Call.token : Call → Option Str
  | .createStream inp _ => (generatePublishToken inp.random).toOption
  | .refreshPushToken inp _ => (generatePublishToken inp.random).toOption
  | _ => none

/-- A generated token differs from all before it. -/
def freshToken (t : ServerTransition) : Bool :=
  match t.spawned with
  | some call => call.token.all fun token => t.before.threads.all fun th => th.call.token ≠ some token
  | none => true

def Op.writesToken : Op → Bool
  | .createStream _ => true
  | .updateStreamPushAuth .. => true
  | _ => false

/-- A request writes one token, and makes the URL from the key it has just read. -/
structure Careful (s : StreamService) (e : Prog.Event Op Op.Res) (p : Server α) : Prop where
  once : e.op.writesToken = true → p.Every (·.writesToken = false)
  read : ∀ u token pushURL, p.pending = some (.updateStreamPushAuth u token pushURL) →
    ∃ row, e = ⟨.getStreamByID u, .ok row⟩ ∧ pushURL = s.pushURL row.streamKey token

section
variable {s : StreamService} {t : ServerTransition} {c : ServerConfig}

/-- A program that writes no token. -/
theorem careful_tail {p : Server α} (h : p.Every (·.writesToken = false)) (e : Prog.Event Op Op.Res) :
    Careful s e p ∧ p.After (Careful s) := by
  refine h.tail (fun e p hp => ⟨fun _ => hp, fun u token pushURL hpend => ?_⟩) e
  have hnot := hp.pending hpend
  cases hnot

theorem careful_createStream (inp : Inputs) (req : CreateStreamRequest) :
    (s.createStream inp req).After (Careful s) := by
  unfold StreamService.createStream
  cases generatePublishToken inp.random with
  | error e => trivial
  | ok token =>
    refine Prog.after_op_bind.mpr fun r => careful_tail ?_ _
    cases r with
    | error e => trivial
    | ok stream =>
      simp only [StreamService.cacheStatus, StreamService.cachePlayURLs]
      split <;> simp [Op.writesToken]

theorem careful_refreshPushToken (inp : Inputs) (id : Str) :
    (s.refreshPushToken inp id).After (Careful s) := by
  refine Prog.after_op_bind.mpr fun r => ?_
  cases r with
  | error e => exact careful_tail (Prog.every_done _ _) _
  | ok row =>
    dsimp only
    cases generatePublishToken inp.random with
    | error e => exact careful_tail (Prog.every_done _ _) _
    | ok token =>
      refine ⟨⟨fun h => (by cases h), fun u token pushURL hpend => ?_⟩,
        Prog.after_op_bind.mpr fun r => careful_tail ?_ _⟩
      · cases hpend
        exact ⟨row, rfl, rfl⟩
      · cases r <;> trivial

theorem careful_map {p : Server α} (f : α → Reply) (h : p.After (Careful s)) :
    (f <$> p).After (Careful s) := by
  refine h.map f fun e q hq => ⟨fun ho => Prog.every_map f (hq.once ho), fun u token pushURL hpend => ?_⟩
  rw [Prog.pending_map] at hpend
  exact hq.read u token pushURL hpend

theorem body_careful (call : Call) : (s.body call).After (Careful s) := by
  have hother (h : ∀ o, s.May call o → o.writesToken = false) : (s.body call).After (Careful s) := by
    refine ((s.body_may call).mono h).after fun e p _ hp => ?_
    exact (careful_tail hp e).1
  cases call with
  | createStream inp req => exact careful_map _ (careful_createStream inp req)
  | refreshPushToken inp id => exact careful_map _ (careful_refreshPushToken inp id)
  | _ =>
    refine hother fun o ho => ?_
    cases ho <;> rfl

theorem token_createStream {inp : Inputs} {req : CreateStreamRequest} {token : Str}
    (h : generatePublishToken inp.random = .ok token) :
    (Call.createStream inp req).token = some token := by
  rw [Call.token, h]
  rfl

theorem token_refreshPushToken {inp : Inputs} {id token : Str}
    (h : generatePublishToken inp.random = .ok token) :
    (Call.refreshPushToken inp id).token = some token := by
  rw [Call.token, h]
  rfl

/-! ### A token is written once -/

/-- No two requests have generated the same token. -/
def Distinct (c : ServerConfig) : Prop :=
  (c.threads.map Thread.call).Pairwise fun a b => ∀ token, a.token = some token → b.token ≠ some token

/-- The token was generated, and nobody is going to write it. -/
structure Spent (token : Str) (c : ServerConfig) : Prop where
  generated : ∃ th ∈ c.threads, th.call.token = some token
  written : ∀ th ∈ c.threads, th.call.token = some token → th.rest.Every (·.writesToken = false)

theorem freshToken_spawns (hfresh : freshToken t = true) {call : Call} (hs : s.machine.Spawns t call)
    {th : Thread Op Op.Res Call Reply} (hth : th ∈ t.before.threads) {token : Str}
    (htok : call.token = some token) : th.call.token ≠ some token := by
  unfold freshToken at hfresh
  rw [hs.spawned] at hfresh
  simp only [htok, Option.all_some, List.all_eq_true, decide_eq_true_eq] at hfresh
  exact hfresh th hth

theorem distinct_step (hv : s.machine.Valid t) (hfresh : freshToken t = true) (h : Distinct t.before) :
    Distinct t.after := by
  rcases hv.cases with ⟨call, hs⟩ | ⟨i, ch, call, o, k, r, w, hs⟩
  · unfold Distinct
    rw [hs.calls]
    refine List.pairwise_append.mpr ⟨h, List.pairwise_singleton _ _, fun a ha b hb token hta htb => ?_⟩
    obtain ⟨th, hth, rfl⟩ := List.mem_map.mp ha
    rw [List.mem_singleton.mp hb] at htb
    exact freshToken_spawns hfresh hs hth htb hta
  · unfold Distinct
    rw [hs.calls]
    exact h

/-- Requests at different places have different tokens. -/
theorem Distinct.ne (h : Distinct c) {i j : Nat} (hij : j ≠ i) {a b : Thread Op Op.Res Call Reply}
    (ha : c.threads[i]? = some a) (hb : c.threads[j]? = some b) {token : Str}
    (hta : a.call.token = some token) : b.call.token ≠ some token := by
  obtain ⟨hi, rfl⟩ := List.getElem?_eq_some_iff.mp ha
  obtain ⟨hj, rfl⟩ := List.getElem?_eq_some_iff.mp hb
  have hpair := List.pairwise_iff_getElem.mp h
  rcases Nat.lt_or_gt_of_ne hij with hlt | hlt
  · intro htb
    have hne := hpair j i (by simpa using hj) (by simpa using hi) hlt token (by simpa using htb)
    exact hne (by simpa using hta)
  · have hne := hpair i j (by simpa using hi) (by simpa using hj) hlt token (by simpa using hta)
    simpa using hne

theorem Spent.step {token : Str} (h : Spent token t.before) (hv : s.machine.Valid t)
    (hfresh : freshToken t = true) : Spent token t.after := by
  obtain ⟨th₀, hth₀, htok₀⟩ := h.generated
  rcases hv.cases with ⟨call, hs⟩ | ⟨i, ch, call, o, k, r, w, hs⟩
  · refine ⟨⟨th₀, hs.mem_after.mpr (.inl hth₀), htok₀⟩, fun th hth htok => ?_⟩
    rcases hs.mem_after.mp hth with hth | rfl
    · exact h.written th hth htok
    · exact absurd htok₀ (freshToken_spawns hfresh hs hth₀ htok)
  · constructor
    · rcases hs.mem_before hth₀ with rfl | hth
      · exact ⟨_, hs.moved, htok₀⟩
      · exact ⟨th₀, hth, htok₀⟩
    · intro th hth htok
      rcases hs.mem_after hth with rfl | hth
      · exact (h.written _ hs.mem htok).2 r
      · exact h.written th hth htok

section
variable {i : Nat} {ch : Choice} {call : Call} {o : Op} {k : o.Res → Server Reply} {r : o.Res}
  {w : World}

/-- A request that writes its token has then spent it. -/
theorem spent_of_write (hs : s.machine.Steps t i ch call o k r w) (hd : Distinct t.before)
    (hcare : (Prog.call o k).After (Careful s)) (ho : o.writesToken = true) {token : Str}
    (htok : call.token = some token) : Spent token t.after := by
  refine ⟨⟨_, hs.moved, htok⟩, fun th hth hth_tok => ?_⟩
  rcases hs.mem_after_index hth with rfl | ⟨j, hji, hj⟩
  · exact (hcare r).1.once ho
  · exact absurd hth_tok (hd.ne hji hs.thread hj htok)

/-- A spent token is not what a step writes. -/
theorem Spent.not_written {token : Str} (h : Spent token t.before)
    (hs : s.machine.Steps t i ch call o k r w) (htok : call.token = some token) :
    o.writesToken = false :=
  (h.written _ hs.mem htok).1

end

/-! ### The URL fits the row -/

/-- A URL about to be written is made of the key of the row it goes to. -/
def Aimed (s : StreamService) (c : ServerConfig) : Prop :=
  ∀ th ∈ c.threads, ∀ u token pushURL,
    th.rest.pending = some (.updateStreamPushAuth u token pushURL) →
    ∃ id key, uuidIn u = some id ∧ id ∈ c.world.db.issued ∧ pushURL = s.pushURL key token ∧
      ∀ row, c.world.db.streamAt id = some row → row.streamKey = key

theorem aimed_step (hv : s.machine.Valid t)
    (hcare : ∀ th ∈ t.before.threads, th.rest.After (Careful s)) (h : Aimed s t.before) :
    Aimed s t.after := by
  intro th hth u token pushURL hpend
  rcases hv.cases with ⟨call, hs⟩ | ⟨i, ch, call, o, k, r, w, hs⟩
  · rw [hs.after]
    rcases hs.mem_after.mp hth with hth | rfl
    · exact h th hth u token pushURL hpend
    · -- a refresh begins with its read
      have hmay := (s.body_may call).pending hpend
      cases hmay
      cases hpend
  · have hchange := StreamService.steps_streams hs
    rw [hs.after]
    rcases hs.mem_after hth with rfl | hth
    · obtain ⟨row, he, rfl⟩ := (hcare _ hs.mem r).1.read u token pushURL hpend
      have hans := StreamService.steps_perform hs
      clear hs hpend hth
      cases he
      obtain ⟨hu, hrow⟩ := World.perform_getStreamByID_ok (congrArg Prod.fst hans)
      have hissued := DB.issued_of_streamAt hrow
      refine ⟨row.id, row.streamKey, hu, hchange.issued hissued, rfl, fun row' hrow' => ?_⟩
      obtain ⟨row₀, hrow₀, hkey⟩ := hchange.key_kept hissued hrow'
      cases hrow.symm.trans hrow₀
      exact hkey.symm
    · obtain ⟨id, key, hu, hissued, hurl, hkey⟩ := h th hth u token pushURL hpend
      refine ⟨id, key, hu, hchange.issued hissued, hurl, fun row' hrow' => ?_⟩
      obtain ⟨row₀, hrow₀, hkey₀⟩ := hchange.key_kept hissued hrow'
      rw [← hkey₀]
      exact hkey row₀ hrow₀

/-- Token and URL of a row. -/
structure Credited (s : StreamService) (c : ServerConfig) (row : Stream) : Prop where
  token : IsToken row.pushToken
  pushURL : row.pushURL = s.pushURL row.streamKey row.pushToken
  spent : Spent row.pushToken c

/-- What holds of every configuration when tokens are fresh. -/
structure Credentials (s : StreamService) (c : ServerConfig) : Prop where
  lawful : s.Lawful c
  careful : ∀ th ∈ c.threads, th.rest.After (Careful s)
  distinct : Distinct c
  keyed : StreamService.Keyed c.world.db
  aimed : Aimed s c
  row : ∀ id row, c.world.db.streamAt id = some row → Credited s c row

theorem credited_step (hv : s.machine.Valid t) (hfresh : freshToken t = true)
    (h : Credentials s t.before) (id : Str) (row : Stream) (hrow : t.after.world.db.streamAt id = some row) :
    Credited s t.after row := by
  have hold (row₀ : Stream) (hrow₀ : t.before.world.db.streamAt id = some row₀) :
      Spent row₀.pushToken t.after := (h.row id row₀ hrow₀).spent.step hv hfresh
  rcases hv.cases with ⟨call, hs⟩ | ⟨i, ch, call, o, k, r, w, hs⟩
  · rw [hs.after] at hrow
    have hrow₀ := h.row id row hrow
    exact ⟨hrow₀.token, hrow₀.pushURL, hold row hrow⟩
  have hmay := h.lawful.may hs
  have hspent {token : Str} (ho : o.writesToken = true) (htok : call.token = some token) :
      Spent token t.after := spent_of_write hs h.distinct (h.careful _ hs.mem) ho htok
  have haimed := h.aimed _ hs.mem
  have hchange := StreamService.steps_streams hs
  rw [hs.after] at hrow
  clear hs
  cases hchange.row id with
  | kept hat =>
    have hrow : t.before.world.db.streamAt id = some row := hat ▸ hrow
    have hrow₀ := h.row id row hrow
    exact ⟨hrow₀.token, hrow₀.pushURL, hold row hrow⟩
  | created hs' hcol _ _ hat =>
    cases hrow.symm.trans hat
    cases hmay with
    | create htok =>
      have hnew := s.newStream_opened hs' hcol
      refine ⟨?_, ?_, ?_⟩
      · rw [hnew.pushToken]
        exact generatePublishToken_ok htok
      · rw [hnew.pushURL, hnew.streamKey, hnew.pushToken]
      · rw [hnew.pushToken]
        exact hspent rfl (token_createStream htok)
  | status _ hat =>
    rw [hat] at hrow
    obtain ⟨row₀, hrow₀, rfl⟩ := Option.map_eq_some_iff.mp hrow
    exact ⟨(h.row id row₀ hrow₀).token, (h.row id row₀ hrow₀).pushURL, hold row₀ hrow₀⟩
  | pushAuth hu hat =>
    rw [hat] at hrow
    obtain ⟨row₀, hrow₀, rfl⟩ := Option.map_eq_some_iff.mp hrow
    cases hmay with
    | refresh htok =>
      obtain ⟨v, key, hv', _, hurl, hkey⟩ := haimed _ _ _ rfl
      cases hu.symm.trans hv'
      refine ⟨generatePublishToken_ok htok, ?_, hspent rfl (token_refreshPushToken htok)⟩
      have hkey₀ := hkey row₀ hrow₀
      subst hkey₀
      exact hurl
  | deleted _ hat =>
    rw [hat] at hrow
    cases hrow

theorem Credentials.step (hv : s.machine.Valid t) (hfresh : freshToken t = true)
    (h : Credentials s t.before) : Credentials s t.after where
  lawful := h.lawful.step hv
  careful := Machine.after_step body_careful hv h.careful
  distinct := distinct_step hv hfresh h.distinct
  keyed := hv.world (I := fun w => StreamService.Keyed w.db) h.keyed fun hs =>
    h.keyed.change (h.lawful.may hs) (StreamService.steps_streams hs)
  aimed := aimed_step hv h.careful h.aimed
  row := credited_step hv hfresh h

theorem credentials_start {w : World} (hw : ∀ id, w.db.streamAt id = none) :
    Credentials s (.start w) where
  lawful := StreamService.lawful_start w
  careful _ h := absurd h List.not_mem_nil
  distinct := List.Pairwise.nil
  keyed id _ h := absurd ((hw id).symm.trans h) nofun
  aimed _ h := absurd h List.not_mem_nil
  row id _ h := absurd ((hw id).symm.trans h) nofun

/-! ### A replaced token stays replaced -/

/-- The token is not the stream's, and will not be. -/
structure Retired (id token : Str) (c : ServerConfig) : Prop where
  issued : id ∈ c.world.db.issued
  spent : Spent token c
  replaced : ∀ row, c.world.db.streamAt id = some row → row.pushToken ≠ token

theorem issued_step (hv : s.machine.Valid t) {id : Str} (h : id ∈ t.before.world.db.issued) :
    id ∈ t.after.world.db.issued :=
  hv.world (I := fun w => id ∈ w.db.issued) h fun hs => (StreamService.steps_streams hs).issued h

theorem Retired.step {id token : Str} (hv : s.machine.Valid t) (hfresh : freshToken t = true)
    (hl : s.Lawful t.before) (h : Retired id token t.before) : Retired id token t.after := by
  refine ⟨issued_step hv h.issued, h.spent.step hv hfresh, ?_⟩
  apply hv.world (I := fun w => ∀ row, w.db.streamAt id = some row → row.pushToken ≠ token) h.replaced
  intro i ch call o k r w hs row hrow
  have hmay := hl.may hs
  have hother (htok : call.token = some token) : o.writesToken = false := h.spent.not_written hs htok
  have hchange := StreamService.steps_streams hs
  clear hs
  cases hchange.row id with
  | kept hat => exact h.replaced row (hat ▸ hrow)
  | created _ _ _ hfresh _ => exact absurd h.issued hfresh
  | status _ hat =>
    rw [hat] at hrow
    obtain ⟨row₀, hrow₀, rfl⟩ := Option.map_eq_some_iff.mp hrow
    exact h.replaced row₀ hrow₀
  | pushAuth _ hat =>
    rw [hat] at hrow
    obtain ⟨row₀, _, rfl⟩ := Option.map_eq_some_iff.mp hrow
    cases hmay with
    | refresh htok =>
      intro htoken
      subst htoken
      have hnot := hother (token_refreshPushToken htok)
      cases hnot
  | deleted _ hat =>
    rw [hat] at hrow
    cases hrow

/-! ### Whole runs -/

section
variable {w : World} {ts : List ServerTransition}

theorem Credentials.final {c : ServerConfig} (h : Credentials s c) (htr : s.machine.Trace c ts)
    (hfresh : ∀ t ∈ ts, freshToken t = true) : Credentials s (Machine.final c ts) :=
  htr.invariant (G := fun t => freshToken t = true) (fun _ hv hf hc => hc.step hv hf) hfresh h

/-- A token that was a stream's and was replaced is not the stream's again. -/
theorem token_not_restored {c : ServerConfig} {a b d : List ServerTransition} (hc : Credentials s c)
    (htr : s.machine.Trace c (a ++ b ++ d)) (hfresh : ∀ t ∈ a ++ b ++ d, freshToken t = true) {id : Str}
    {r₀ r₁ row : Stream} (h₀ : (Machine.final c a).world.db.streamAt id = some r₀)
    (h₁ : (Machine.final c (a ++ b)).world.db.streamAt id = some r₁) (hne : r₁.pushToken ≠ r₀.pushToken)
    (hrow : (Machine.final c (a ++ b ++ d)).world.db.streamAt id = some row) :
    row.pushToken ≠ r₀.pushToken := by
  obtain ⟨hab, hd⟩ := (Machine.trace_append (a ++ b) d).mp htr
  obtain ⟨ha, hb⟩ := (Machine.trace_append a b).mp hab
  have hfab (t : ServerTransition) (ht : t ∈ a ++ b) := hfresh t (List.mem_append_left d ht)
  have hca := hc.final ha fun t ht => hfab t (List.mem_append_left b ht)
  have hcab := hc.final hab hfab
  rw [Machine.final_append] at h₁ hcab
  -- the token is spent from the moment it is the stream's
  have hspent : Spent r₀.pushToken (Machine.final (Machine.final c a) b) :=
    hb.invariant (I := Spent r₀.pushToken) (G := fun t => freshToken t = true)
      (fun _ hv hf hs => hs.step hv hf) (fun t ht => hfab t (List.mem_append_right a ht))
      (hca.row id r₀ h₀).spent
  have hretired : Retired id r₀.pushToken (Machine.final (Machine.final c a) b) := by
    refine ⟨DB.issued_of_streamAt h₁, hspent, fun row hrow => ?_⟩
    cases h₁.symm.trans hrow
    exact hne
  rw [Machine.final_append, Machine.final_append] at hrow
  rw [Machine.final_append] at hd
  have hend := hd.invariant (I := fun c => s.Lawful c ∧ Retired id r₀.pushToken c)
    (G := fun t => freshToken t = true) (fun _ hv hf h => ⟨h.1.step hv, h.2.step hv hf h.1⟩)
    (fun t ht => hfresh t (List.mem_append_right (a ++ b) ht)) ⟨hcab.lawful, hretired⟩
  exact hend.2.replaced row hrow

/-- A refresh whose update the database accepts and which finds the row puts the token there
that it has generated, and that is another one than the row had. -/
theorem refresh_replaces (hc : Credentials s t.before) (hv : s.machine.Valid t) {i : Nat} {inp : Inputs}
    {u v token pushURL : Str} {ch : Choice}
    (hp : t.performed = some ⟨i, .refreshPushToken inp u, .updateStreamPushAuth v token pushURL, ch⟩)
    (hok : (World.perform ch (.updateStreamPushAuth v token pushURL) t.before.world).1 = none) {id : Str}
    (hid : uuidIn u = some id) {r₀ : Stream} (h₀ : t.before.world.db.streamAt id = some r₀) :
    ∃ r₁, t.after.world.db.streamAt id = some r₁ ∧ generatePublishToken inp.random = .ok r₁.pushToken ∧
      r₁.pushToken ≠ r₀.pushToken := by
  obtain ⟨k, r, w, hs⟩ := hv.steps hp
  have hspent := (hc.row id r₀ h₀).spent
  have hnot (htok : (Call.refreshPushToken inp u).token = some r₀.pushToken) := hspent.not_written hs htok
  have hmay := hc.lawful.may hs
  have hdb := World.perform_updateStreamPushAuth_none hok
  rw [StreamService.steps_perform hs] at hdb
  rw [hs.after]
  clear hs
  cases hmay with
  | refresh htok =>
    obtain ⟨v, hv, hupd⟩ := DB.updateStreamPushAuth_ok hdb
    cases hid.symm.trans hv
    refine ⟨r₀.withPushAuth token pushURL, ?_, htok, ?_⟩
    · rw [hupd.streamAt, if_pos rfl, h₀]
      rfl
    · rintro rfl
      cases hnot (token_refreshPushToken htok)

theorem validatePushToken_eq {row : Stream} (h : row.pushToken ≠ []) :
    StreamService.validatePushToken row row.pushToken = pure none := by
  unfold StreamService.validatePushToken
  rw [validatePublishToken_none.mpr ⟨rfl, h⟩]

theorem validatePushToken_ne {row : Stream} {token : Str} (h : row.pushToken ≠ token) :
    ∃ err, StreamService.validatePushToken row token = do
      metrics.inc .authFailuresTotal (lit "publish")
      return some err := by
  have hbad : validatePublishToken row.pushToken token ≠ none := fun hnone =>
    h (validatePublishToken_none.mp hnone).1
  obtain ⟨err, herr⟩ := Option.ne_none_iff_exists'.mp hbad
  refine ⟨err, ?_⟩
  unfold StreamService.validatePushToken
  rw [herr]

/-- **Push URLs and tokens.** In every run, whatever is interleaved and whatever fails, the
URL of a row is made of its key and its token; each way SRS can hand it over gives them
back, and they are accepted; and a token the row had and lost is rejected. A refresh makes the
row lose its token: where the database accepts its update and the row is there, the row then
has the token that the refresh generated, and the one before is rejected from then on. -/
theorem push_credentials (hw : ∀ id, w.db.streamAt id = none) (h : s.machine.Trace (.start w) ts)
    (hfresh : ∀ t ∈ ts, freshToken t = true) (id : Str) (row : Stream)
    (hrow : (Machine.final (.start w) ts).world.db.streamAt id = some row) :
    row.pushURL = s.rtmpBase ++ lit "/" ++ row.streamKey ++ lit "?token=" ++ row.pushToken ∧
    (∀ stream param, Carries row.streamKey row.pushToken stream param →
      parsePushAuth stream param = (row.streamKey, row.pushToken, 0) ∧
      StreamService.validatePushToken row (parsePushAuth stream param).2.1 = pure none) ∧
    (∀ a b d r₀ r₁, ts = a ++ b ++ d →
      (Machine.final (.start w) a).world.db.streamAt id = some r₀ →
      (Machine.final (.start w) (a ++ b)).world.db.streamAt id = some r₁ →
      r₁.pushToken ≠ r₀.pushToken →
      ∃ err, StreamService.validatePushToken row r₀.pushToken = do
        metrics.inc .authFailuresTotal (lit "publish")
        return some err) ∧
    ∀ a t d i inp u v token pushURL ch r₀, ts = a ++ t :: d →
      t.performed = some ⟨i, .refreshPushToken inp u, .updateStreamPushAuth v token pushURL, ch⟩ →
      (World.perform ch (.updateStreamPushAuth v token pushURL) t.before.world).1 = none →
      uuidIn u = some id → t.before.world.db.streamAt id = some r₀ →
      (∃ r₁, t.after.world.db.streamAt id = some r₁ ∧
        generatePublishToken inp.random = .ok r₁.pushToken) ∧
      ∃ err, StreamService.validatePushToken row r₀.pushToken = do
        metrics.inc .authFailuresTotal (lit "publish")
        return some err := by
  have hstart : Credentials s (.start w) := credentials_start hw
  have hend := hstart.final h hfresh
  have hcred := hend.row id row hrow
  refine ⟨hcred.pushURL, fun stream param hcarries => ?_, fun a b d r₀ r₁ hts h₀ h₁ hne => ?_, ?_⟩
  · have hparse := parsePushAuth_carries (hend.keyed id row hrow) hcred.token hcarries
    rw [hparse]
    exact ⟨rfl, validatePushToken_eq hcred.token.ne_nil⟩
  · subst hts
    exact validatePushToken_ne (token_not_restored hstart h hfresh h₀ h₁ hne hrow)
  · intro a t d i inp u v token pushURL ch r₀ hts hp hok hid h₀
    subst hts
    obtain ⟨ha, hbefore, hv, _⟩ := Machine.Trace.split h
    have hct : Credentials s t.before :=
      hbefore ▸ hstart.final ha fun t' ht' => hfresh t' (List.mem_append_left _ ht')
    obtain ⟨r₁, h₁, hgenerated, hne⟩ := refresh_replaces hct hv hp hok hid h₀
    refine ⟨⟨r₁, h₁, hgenerated⟩, ?_⟩
    rw [List.append_cons] at h hfresh hrow
    rw [hbefore] at h₀
    have h₁ : (Machine.final (.start w) (a ++ [t])).world.db.streamAt id = some r₁ := by
      rw [Machine.final_append]
      exact h₁
    exact validatePushToken_ne (token_not_restored hstart h hfresh h₀ h₁ hne hrow)

end

end

/-- Two refreshes of one stream that overlap: the later update wins, the URL is its. -/
theorem push_credentials_refreshed :
    ∃ ts row, StreamService.sample.machine.Trace (.start .empty) ts ∧
      (Machine.final (.start .empty) ts).world.db.streamAt sampleID = some row ∧
      row.pushToken = sampleToken 2 ∧
      row.pushURL = lit "rtmp://localhost:1935/live" ++ lit "/" ++ row.streamKey ++ lit "?token=" ++
        row.pushToken := by
  obtain ⟨ts, htr, hP⟩ := Machine.exists_trace StreamService.sample.machine (.start .empty)
    (sampleCreated ++ [.spawn (.refreshPushToken (.sample 2) sampleID),
      .spawn (.refreshPushToken (.sample 3) sampleID), .step 1 {}, .step 2 {}, .step 2 {}, .step 1 {}])
    (fun ts => (∀ t ∈ ts, freshToken t = true) ∧
      ((Machine.final (.start .empty) ts).world.db.streamAt sampleID).map Stream.pushToken =
        some (sampleToken 2)) (by decide)
  simp only [decide_eq_true_eq] at hP
  obtain ⟨hfresh, htoken⟩ := hP
  obtain ⟨row, hrow, htok⟩ := Option.map_eq_some_iff.mp htoken
  exact ⟨ts, row, htr, hrow, htok, (push_credentials (fun _ => rfl) htr hfresh sampleID row hrow).1⟩

end LiveServer
