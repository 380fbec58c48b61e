import LiveServer.Publishing.Credentials

/-! Publish credentials and what carries them.

A publisher's query names its token among other settings. SRS hands it over in the param
field of a callback, or left at the stream name, or in both. The parser looks into the param
field first and returns the stream name as it is when it finds a token there; at the stream
name it looks for the token in the first place only; and `net/url` takes a semicolon for an
error. What is left is where key and token are recovered. -/
namespace LiveServer
open Text

/-- A setting of a query. -/
structure Setting where
  name : Str
  value : Str
  unreserved : ∀ b ∈ name ++ value, IsUnreserved b

/-- What stands between two settings. -/
inductive Separator where
  | ampersand
  | semicolon
  deriving DecidableEq

def Separator.byte : Separator → UInt8
  | .ampersand => 38
  | .semicolon => 59

namespace Setting

def text (x : Setting) : Str := x.name ++ 61 :: x.value

def pair (x : Setting) : Str × Str := (x.name, x.value)

/-- The text of settings in a row. -/
def join (first : Setting) : List (Separator × Setting) → Str
  | [] => first.text
  | (sep, x) :: rest => first.text ++ sep.byte :: join x rest

section
variable (x : Setting)

theorem plain_name : ∀ b ∈ x.name, IsPlain b :=
  fun b hb => (x.unreserved b (List.mem_append_left _ hb)).isPlain

theorem plain_value : ∀ b ∈ x.value, IsPlain b :=
  fun b hb => (x.unreserved b (List.mem_append_right _ hb)).isPlain

theorem no_question_text : 63 ∉ x.text := by
  intro h
  rcases List.mem_append.mp h with h | h
  · exact absurd (x.unreserved 63 (List.mem_append_left _ h)) (by decide)
  · rcases List.mem_cons.mp h with h | h
    · exact absurd h (by decide)
    · exact absurd (x.unreserved 63 (List.mem_append_right _ h)) (by decide)

theorem no_question_join (rest : List (Separator × Setting)) : 63 ∉ join x rest := by
  induction rest generalizing x with
  | nil => exact x.no_question_text
  | cons next rest ih =>
    intro h
    rcases List.mem_append.mp h with h | h
    · exact x.no_question_text h
    · rcases List.mem_cons.mp h with h | h
      · cases hsep : next.1 <;> simp [hsep, Separator.byte] at h
      · exact ih next.2 h

/-- Settings between ampersands are read as they are. -/
theorem parseQuery_join {rest : List (Separator × Setting)} (h : ∀ y ∈ rest, y.1 = .ampersand) :
    parseQuery (join x rest) = ((x :: rest.map Prod.snd).map pair, false) := by
  induction rest generalizing x with
  | nil => exact parseQuery_single x.plain_name x.plain_value
  | cons next rest ih =>
    obtain ⟨sep, y⟩ := next
    have hsep : sep = .ampersand := h _ List.mem_cons_self
    subst hsep
    show parseQuery (x.name ++ 61 :: x.value ++ 38 :: join y rest) = _
    rw [parseQuery_append x.plain_name x.plain_value, ih y fun z hz => h z (List.mem_cons_of_mem _ hz)]
    rfl

theorem semicolon_mem_join {rest : List (Separator × Setting)} (h : ∃ y ∈ rest, y.1 = .semicolon) :
    59 ∈ join x rest := by
  induction rest generalizing x with
  | nil =>
    obtain ⟨y, hy, _⟩ := h
    cases hy
  | cons next rest ih =>
    obtain ⟨y, hy, hsep⟩ := h
    apply List.mem_append_right
    rcases List.mem_cons.mp hy with rfl | hy
    · rw [hsep]
      exact List.mem_cons_self
    · exact List.mem_cons_of_mem _ (ih next.2 ⟨y, hy, hsep⟩)

/-- The text begins with a name and an equals sign. -/
theorem join_eq (rest : List (Separator × Setting)) :
    ∃ t, join x rest = x.name ++ 61 :: t := by
  cases rest with
  | nil => exact ⟨x.value, rfl⟩
  | cons next rest =>
    refine ⟨x.value ++ next.1.byte :: join next.2 rest, ?_⟩
    show x.name ++ 61 :: x.value ++ _ = _
    rw [List.append_assoc]
    rfl

/-- It begins with the name of a token only if that is the first name. -/
theorem token_prefix_join (rest : List (Separator × Setting)) :
    lit "token=" <+: join x rest ↔ x.name = lit "token" := by
  obtain ⟨t, ht⟩ := x.join_eq rest
  have hlit : lit "token=" = lit "token" ++ [61] := by decide
  have habsent : (61 : UInt8) ∉ x.name := fun h => (x.plain_name 61 h).2.2.2.2 rfl
  rw [ht]
  constructor
  · intro ⟨u, hu⟩
    -- both names end at the first equals sign
    have hcut := congrArg (cut 61) hu
    rw [hlit, List.append_assoc, cut_append habsent] at hcut
    have htoken : cut 61 (lit "token" ++ ([61] ++ u)) = (lit "token", u) := cut_append (by decide) u
    rw [htoken] at hcut
    exact (congrArg Prod.fst hcut).symm
  · intro hname
    rw [hname, hlit]
    exact ⟨t, by rw [List.append_assoc]; rfl⟩

end
end Setting

/-- A query with one token among its settings. -/
structure TokenQuery (token : Str) where
  first : Setting
  rest : List (Separator × Setting)
  single : ((first :: rest.map Prod.snd).map Setting.pair).filter (·.1 = lit "token") =
    [(lit "token", token)]

/-- Where SRS puts the query; the param field has it with or without a question mark. -/
inductive Carrier where
  | param (question : Bool)
  | stream
  | both (question : Bool)

/-- The param field with a query. -/
def paramField (question : Bool) (query : Str) : Str := if question then 63 :: query else query

/-- The fields of the callback. -/
def Carrier.callback (key query : Str) : Carrier → SrsCallback
  | .param question => ⟨key, paramField question query⟩
  | .stream => ⟨key ++ 63 :: query, []⟩
  | .both question => ⟨key ++ 63 :: query, paramField question query⟩

namespace TokenQuery
variable {token : Str} (q : TokenQuery token)

def text : Str := Setting.join q.first q.rest

/-- Only ampersands stand between the settings. -/
def Ampersands : Prop := ∀ x ∈ q.rest, x.1 = .ampersand

instance : Decidable q.Ampersands := List.decidableBAll _ _

theorem getValue_token :
    getValue ((q.first :: q.rest.map Prod.snd).map Setting.pair) (lit "token") = token := by
  unfold getValue
  rw [← List.head?_filter, q.single]
  rfl

/-- What is read from the query, however it is handed over. -/
theorem parseTokenParams_text (question : Bool) :
    (parseTokenParams (paramField question q.text)).1 = if q.Ampersands then token else [] := by
  have hquestion : 63 ∉ q.text := q.first.no_question_join q.rest
  have htrim : trimPrefix (paramField question q.text) (lit "?") = q.text := by
    cases question with
    | true => rfl
    | false =>
      unfold trimPrefix
      rw [if_neg]
      · rfl
      · intro hp
        obtain ⟨t, ht⟩ := List.isPrefixOf_iff_prefix.mp hp
        apply hquestion
        show 63 ∈ paramField false q.text
        rw [← ht]
        exact List.mem_cons_self
  simp only [parseTokenParams, htrim]
  by_cases h : q.Ampersands
  · have hquery : parseQuery q.text = _ := q.first.parseQuery_join h
    rw [if_pos h, hquery]
    exact q.getValue_token
  · have hsemi : (parseQuery q.text).2 = true := by
      apply parseQuery_semicolon
      apply q.first.semicolon_mem_join
      by_contra hnone
      apply h
      intro x hx
      cases hsep : x.1 with
      | ampersand => rfl
      | semicolon => exact absurd ⟨x, hx, hsep⟩ hnone
    rw [if_neg h, hsemi]
    rfl

theorem paramField_ne_nil (question : Bool) : paramField question q.text ≠ [] := by
  obtain ⟨t, ht⟩ := q.first.join_eq q.rest
  cases question with
  | true => exact List.cons_ne_nil _ _
  | false =>
    show Setting.join q.first q.rest ≠ []
    rw [ht]
    simp

end TokenQuery

/-- The parser returns key and token of the publisher. -/
def Recovers (key token : Str) (cb : SrsCallback) : Prop :=
  (parsePushAuth cb.stream cb.param).1 = key ∧ (parsePushAuth cb.stream cb.param).2.1 = token

instance (key token : Str) (cb : SrsCallback) : Decidable (Recovers key token cb) :=
  inferInstanceAs (Decidable (_ ∧ _))

/-- The ways a query gets through: between ampersands, in the param field alone, or at the
stream name alone with the token in the first place. -/
def GetsThrough {token : Str} (q : TokenQuery token) : Carrier → Prop
  | .param _ => q.Ampersands
  | .stream => q.Ampersands ∧ q.first.name = lit "token"
  | .both _ => False

section
variable {key token : Str}

/-- A name with a query behind it is not the key. -/
theorem key_ne_query (query : Str) : key ++ 63 :: query ≠ key := by
  intro h
  have hlen := congrArg List.length h
  rw [List.length_append, List.length_cons] at hlen
  omega

/-- A param field without a token: what is at the stream name decides. -/
theorem parsePushAuth_stream (hkey : 63 ∉ key) (q : TokenQuery token) (param : Str)
    (hparam : param = [] ∨ (parseTokenParams param).1 = []) :
    (parsePushAuth (key ++ 63 :: q.text) param).1 =
        (if q.first.name = lit "token" then key else key ++ 63 :: q.text) ∧
      (parsePushAuth (key ++ 63 :: q.text) param).2.1 =
        if q.first.name = lit "token" ∧ q.Ampersands then token else [] := by
  have hfirst : (if param = [] then ([], 0) else parseTokenParams param : Str × Int).1 = [] := by
    split
    · rfl
    · exact hparam.resolve_left ‹_›
  have hquery : (parseTokenParams q.text).1 = if q.Ampersands then token else [] :=
    q.parseTokenParams_text false
  have hlit : lit "?token=" = 63 :: lit "token=" := by decide
  by_cases hname : q.first.name = lit "token"
  · obtain ⟨t, ht⟩ := (q.first.token_prefix_join q.rest).mpr hname
    have hindex : index (key ++ 63 :: q.text) (lit "?token=") = some key.length := by
      show index (key ++ 63 :: Setting.join q.first q.rest) _ = _
      rw [← ht, hlit]
      have hfound := index_append (w := lit "token=") hkey t
      rw [List.append_assoc] at hfound
      exact hfound
    have hdrop : (key ++ 63 :: q.text).drop (key.length + 1) = q.text := by
      rw [← List.drop_drop, List.drop_left]
      rfl
    unfold parsePushAuth
    simp only [hfirst, ne_eq, not_true_eq_false, if_false, hindex, hdrop, List.take_left, hname,
      true_and, if_true]
    rw [← hquery]
    by_cases hsecond : (parseTokenParams q.text).1 = []
    · simp only [hsecond, not_true_eq_false, if_false, and_self]
    · simp only [hsecond, not_false_eq_true, if_true, and_self]
  · have hindex : index (key ++ 63 :: q.text) (lit "?token=") = none := by
      rw [hlit]
      apply index_other hkey (q.first.no_question_join q.rest)
      rw [q.first.token_prefix_join q.rest]
      exact hname
    unfold parsePushAuth
    simp only [hfirst, ne_eq, not_true_eq_false, if_false, hindex, hname, false_and, and_self]

end

/-- **Recovered credentials**: key and token come back exactly where the query gets through. -/
theorem parsePushAuth_recovers_iff {key token : Str} (hkey : 63 ∉ key) (htoken : token ≠ [])
    (q : TokenQuery token) (carrier : Carrier) :
    Recovers key token (carrier.callback key q.text) ↔ GetsThrough q carrier := by
  cases carrier with
  | param question =>
    have hread := q.parseTokenParams_text question
    show (parsePushAuth key (paramField question q.text)).1 = key ∧
      (parsePushAuth key (paramField question q.text)).2.1 = token ↔ q.Ampersands
    by_cases h : q.Ampersands
    · rw [if_pos h] at hread
      rw [parsePushAuth_param (q.paramField_ne_nil question) (Prod.ext hread rfl) htoken]
      exact iff_of_true ⟨rfl, rfl⟩ h
    · rw [if_neg h] at hread
      have hindex : index key (lit "?token=") = none := index_absent hkey (lit "token=")
      have hnone : (parsePushAuth key (paramField question q.text)).2.1 = [] := by
        unfold parsePushAuth
        simp only [q.paramField_ne_nil question, hread, hindex, if_false, ne_eq, not_true_eq_false]
      rw [hnone]
      exact iff_of_false (fun hr => htoken hr.2.symm) h
  | stream =>
    have hread := parsePushAuth_stream hkey q [] (.inl rfl)
    show (parsePushAuth (key ++ 63 :: q.text) []).1 = key ∧
      (parsePushAuth (key ++ 63 :: q.text) []).2.1 = token ↔ q.Ampersands ∧ q.first.name = lit "token"
    rw [hread.1, hread.2]
    by_cases hname : q.first.name = lit "token"
    · by_cases h : q.Ampersands
      · rw [if_pos hname, if_pos ⟨hname, h⟩]
        exact iff_of_true ⟨rfl, rfl⟩ ⟨h, hname⟩
      · rw [if_neg (show ¬ (q.first.name = lit "token" ∧ q.Ampersands) from fun hr => h hr.2)]
        exact iff_of_false (fun hr => htoken hr.2.symm) fun hr => h hr.1
    · rw [if_neg hname]
      exact iff_of_false (fun hr => key_ne_query _ hr.1) fun hr => hname hr.2
  | both question =>
    have hread := q.parseTokenParams_text question
    apply iff_of_false _ not_false
    intro ⟨hstream, htok⟩
    have hstream : (parsePushAuth (key ++ 63 :: q.text) (paramField question q.text)).1 = key := hstream
    have htok : (parsePushAuth (key ++ 63 :: q.text) (paramField question q.text)).2.1 = token := htok
    by_cases h : q.Ampersands
    · rw [if_pos h] at hread
      rw [parsePushAuth_param (q.paramField_ne_nil question) (Prod.ext hread rfl) htoken] at hstream
      exact key_ne_query _ hstream
    · rw [if_neg h] at hread
      rw [(parsePushAuth_stream hkey q _ (.inr hread)).2, if_neg fun hr => h hr.2] at htok
      exact htoken htok.symm

/-- A token and the name of a virtual host, in either order. -/
def sampleSettings : Setting × Setting :=
  (⟨lit "token", lit "abc", List.all_iff_forall_prop.mp (by decide)⟩,
    ⟨lit "vhost", lit "live", List.all_iff_forall_prop.mp (by decide)⟩)

/-- The token in the first place. -/
def sampleQuery (sep : Separator) : TokenQuery (lit "abc") where
  first := sampleSettings.1
  rest := [(sep, sampleSettings.2)]
  single := by cases sep <;> decide

/-- The token in the second place. -/
def sampleLateQuery (sep : Separator) : TokenQuery (lit "abc") where
  first := sampleSettings.2
  rest := [(sep, sampleSettings.1)]
  single := by cases sep <;> decide

theorem parsePushAuth_recovers_sample :
    Recovers (lit "key") (lit "abc")
        ((Carrier.param true).callback (lit "key") (sampleLateQuery .ampersand).text) ∧
      Recovers (lit "key") (lit "abc")
        (Carrier.stream.callback (lit "key") (sampleQuery .ampersand).text) := by
  constructor
  · exact (parsePushAuth_recovers_iff (by decide) (by decide) (sampleLateQuery .ampersand)
      (.param true)).mpr (by decide : (sampleLateQuery .ampersand).Ampersands)
  · exact (parsePushAuth_recovers_iff (by decide) (by decide) (sampleQuery .ampersand) .stream).mpr
      ⟨by decide, rfl⟩

/-- A token behind another setting of the stream name is not found and stays in the key; with
the query in both places the token is found and the key keeps its query; and a semicolon
loses the token. -/
theorem credentials_lost :
    ¬ Recovers (lit "key") (lit "abc")
        (Carrier.stream.callback (lit "key") (sampleLateQuery .ampersand).text) ∧
      ¬ Recovers (lit "key") (lit "abc")
        ((Carrier.both true).callback (lit "key") (sampleQuery .ampersand).text) ∧
      ¬ Recovers (lit "key") (lit "abc")
        ((Carrier.param false).callback (lit "key") (sampleQuery .semicolon).text) := by
  decide

end LiveServer
