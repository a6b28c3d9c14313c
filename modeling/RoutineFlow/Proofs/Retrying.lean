import RoutineFlow.Proofs.Keyed
import RoutineFlow.Service.Assistant

/-!
How an assistant is asked: one request after the other, until one of them fails or its reply uses the tool, as often as the
settings allow. Each request repeats the conversation so far and adds to it.
-/

namespace RoutineFlow.Assistant

/-- The block hands something in. -/
def Block.UsesTool (b : Block) : Prop :=
  b.type = some (.str "tool_use") ∧ b.name = some (.str toolName)

/-- A use of any tool comes with its name and a mapping. -/
def Block.Proper (b : Block) : Prop :=
  b.type = some (.str "tool_use") → (∃ name, b.name = some name) ∧ ∃ entries, b.input = some (.map entries)

namespace Reply

def Proper : Reply → Prop
  | .failure _ => True
  | .blocks parts => ∀ b ∈ parts, b.Proper

inductive Open : Reply → Prop
  | blocks {parts : List Block} (hunused : ∀ b ∈ parts, ¬ b.UsesTool) : Open (.blocks parts)

/-- The reply is a failure, or its first block that uses the tool hands in a value. -/
inductive Settles : Reply → Except ServiceFailure Value → Prop
  | failure (text : String) : Settles (.failure text) (.error (.declined s!"Anthropic API request failed: {text}"))
  | blocks {before after : List Block} {b : Block} {v : Value} (hunused : ∀ b ∈ before, ¬ b.UsesTool)
      (hused : b.UsesTool) (hinput : b.input = some v) : Settles (.blocks (before ++ b :: after)) (.ok v)

end Reply

namespace Client

def reply (c : Client) (i : Nat) : Reply :=
  c.replies.getD i (.failure c.afterwards)

/-- The client when it has received these requests as well. -/
def after (c : Client) (sent : List Value) : Client :=
  ⟨c.replies.drop sent.length, c.afterwards, c.received ++ sent⟩

variable {c : Client}

theorem send_eq (c : Client) (request : Value) : c.send request = (c.reply 0, c.after [request]) := by
  unfold send reply after
  cases c.replies <;> rfl

theorem reply_after (sent : List Value) (i : Nat) : (c.after sent).reply i = c.reply (sent.length + i) := by
  simp [reply, after, List.getD]

theorem proper_reply (h : ∀ r ∈ c.replies, r.Proper) (i : Nat) : (c.reply i).Proper := by
  unfold reply
  rw [List.getD_eq_getElem?_getD]
  cases hget : c.replies[i]? with
  | none => exact trivial
  | some r => exact h r (List.mem_of_getElem? hget)

theorem proper_after (h : ∀ r ∈ c.replies, r.Proper) (sent : List Value) : ∀ r ∈ (c.after sent).replies, r.Proper :=
  fun r hr => h r (List.mem_of_mem_drop hr)

end Client

theorem toolInput_cons_of_uses {b : Block} (hused : b.UsesTool) {entries : Environment}
    (hinput : b.input = some (.map entries)) (rest : List Block) :
    toolInput (b :: rest) = .ok (some (.map entries)) := by
  obtain ⟨htype, hname⟩ := hused
  simp only [toolInput, htype, hname, hinput]
  rfl

theorem toolInput_cons_of_not_uses {b : Block} (hunused : ¬ b.UsesTool) (hproper : b.Proper) (rest : List Block) :
    toolInput (b :: rest) = toolInput rest := by
  rw [toolInput]
  split
  · rename_i htype
    obtain ⟨⟨name, hname⟩, -⟩ := hproper htype
    simp only [hname]
    split
    · rename_i htext
      have htext : name.text? = some toolName := eq_of_beq htext
      cases name with
      | str text =>
        obtain rfl := Option.some.inj htext
        exact absurd ⟨htype, hname⟩ hunused
      | _ => cases htext
    · rfl
  · rfl

theorem toolInput_spec {parts : List Block} (h : ∀ b ∈ parts, b.Proper) :
    (toolInput parts = .ok none ∧ ∀ b ∈ parts, ¬ b.UsesTool) ∨
      ∃ before b after v, parts = before ++ b :: after ∧ (∀ b ∈ before, ¬ b.UsesTool) ∧ b.UsesTool ∧
        b.input = some v ∧ toolInput parts = .ok (some v) := by
  induction parts with
  | nil => exact .inl ⟨rfl, by simp⟩
  | cons b rest ih =>
    obtain ⟨hproper, hrest⟩ := List.forall_mem_cons.mp h
    by_cases hused : b.UsesTool
    · obtain ⟨-, entries, hinput⟩ := hproper hused.1
      exact .inr ⟨[], b, rest, _, rfl, by simp, hused, hinput, toolInput_cons_of_uses hused hinput rest⟩
    · rw [toolInput_cons_of_not_uses hused hproper]
      obtain ⟨hnone, hunused⟩ | ⟨before, b', after, v, rfl, hunused, hfirst⟩ := ih hrest
      · exact .inl ⟨hnone, List.forall_mem_cons.mpr ⟨hused, hunused⟩⟩
      · exact .inr ⟨b :: before, b', after, v, rfl, List.forall_mem_cons.mpr ⟨hused, hunused⟩, hfirst⟩

/-- The messages of the request of the given number. -/
def conversation (userMessage : String) : Nat → List Value
  | 0 => [message "user" userMessage]
  | i + 1 => conversation userMessage i ++ retryMessages (i + 1)

/-- The requests are all in vain, or the last one settles what the result is. -/
inductive Ending (s : Settings) (c : Client) (allowed : Nat) : Nat → Except ServiceFailure Value → Prop
  | exhausted (hopen : ∀ i < allowed, (c.reply i).Open) :
      Ending s c allowed allowed
        (.error (.declined s!"Claude did not provide outputs after {s.maxRetries + 1} attempt(s)"))
  | settled {last : Nat} {result : Except ServiceFailure Value} (hlast : last < allowed)
      (hopen : ∀ i < last, (c.reply i).Open) (hsettles : (c.reply last).Settles result) :
      Ending s c allowed (last + 1) result

variable {s : Settings} {c : Client} {devMessage tool : Value} {userMessage : String}

theorem Ending.cons {sent : Value} {allowed count : Nat} {result : Except ServiceFailure Value} (hfirst : (c.reply 0).Open)
    (h : Ending s (c.after [sent]) allowed count result) : Ending s c (allowed + 1) (count + 1) result := by
  have hopen {n : Nat} (hn : ∀ i < n, ((c.after [sent]).reply i).Open) : ∀ i < n + 1, (c.reply i).Open := by
    intro i hi
    cases i with
    | zero => exact hfirst
    | succ i =>
      have hi := hn i (Nat.lt_of_succ_lt_succ hi)
      rwa [Client.reply_after, List.length_singleton, Nat.add_comm] at hi
  cases h with
  | exhausted hrest => exact .exhausted (hopen hrest)
  | settled hlast hrest hsettles =>
    rw [Client.reply_after, List.length_singleton, Nat.add_comm] at hsettles
    exact .settled (Nat.succ_lt_succ hlast) (hopen hrest) hsettles

/-- What one request leads to, whatever was received before: the result, or another request. -/
theorem ask_succ (hproper : (c.reply 0).Proper) (left attempt : Nat) (messages : List Value) :
    let request := envelope s devMessage messages tool
    (∃ result, (c.reply 0).Settles result ∧ ∀ received,
      ask s devMessage tool (left + 1) attempt messages { c with received := received } =
        (result, { c.after [request] with received := received ++ [request] })) ∨
    ((c.reply 0).Open ∧ ∀ received,
      ask s devMessage tool (left + 1) attempt messages { c with received := received } =
        ask s devMessage tool left (attempt + 1) (messages ++ retryMessages (attempt + 1))
          { c.after [request] with received := received ++ [request] }) := by
  have hsend (received : List Value) : ({ c with received := received } : Client).reply 0 = c.reply 0 := rfl
  simp only [ask, Client.send_eq, hsend]
  cases hreply : c.reply 0 with
  | failure text => exact .inl ⟨_, .failure text, fun _ => rfl⟩
  | blocks parts =>
    rw [hreply] at hproper
    obtain ⟨hnone, hunused⟩ | ⟨before, b, after, v, rfl, hunused, hused, hinput, hsome⟩ := toolInput_spec hproper
    · simp only [hnone]
      exact .inr ⟨.blocks hunused, fun _ => rfl⟩
    · simp only [hsome]
      exact .inl ⟨_, .blocks hunused hused hinput, fun _ => rfl⟩

def requests (s : Settings) (devMessage tool : Value) (userMessage : String) (attempt count : Nat) : List Value :=
  (List.range' attempt count).map fun i => envelope s devMessage (conversation userMessage i) tool

theorem ask_exchange (hproper : ∀ r ∈ c.replies, r.Proper) (left attempt : Nat) :
    ∃ count result, Ending s c left count result ∧ ∀ received,
      ask s devMessage tool left attempt (conversation userMessage attempt) { c with received := received } =
        (result, ⟨c.replies.drop count, c.afterwards,
          received ++ requests s devMessage tool userMessage attempt count⟩) := by
  -- on the requests left: one that leaves the matter open is put in front of what the next client is asked
  induction left generalizing attempt c with
  | zero => exact ⟨0, _, .exhausted (by simp), fun received => by simp [ask, requests]⟩
  | succ left ih =>
    have hfirst := Client.proper_reply hproper 0
    obtain ⟨result, hsettles, hask⟩ | ⟨hopen, hask⟩ :=
      @ask_succ s c devMessage tool hfirst left attempt (conversation userMessage attempt)
    · exact ⟨1, result, .settled (Nat.zero_lt_succ left) (by simp) hsettles, hask⟩
    · obtain ⟨count, result, hending, hrest⟩ := ih (Client.proper_after hproper
        [envelope s devMessage (conversation userMessage attempt) tool]) (attempt + 1)
      refine ⟨count + 1, result, hending.cons hopen, fun received => ?_⟩
      rw [hask, ← conversation, hrest]
      simp [requests, Client.after, List.range'_succ]

theorem length_conversation (userMessage : String) (i : Nat) : (conversation userMessage i).length = 2 * i + 1 := by
  induction i with
  | zero => rfl
  | succ i ih =>
    rw [conversation, List.length_append, ih]
    rfl

theorem conversation_extends (userMessage : String) {i j : Nat} (h : i ≤ j) :
    conversation userMessage i <+: conversation userMessage j := by
  induction h with
  | refl => exact List.prefix_rfl
  | step _ ih => exact ih.trans (List.prefix_append _ _)

theorem conversation_getElem? (userMessage : String) {i j : Nat} (h : j < i) :
    (conversation userMessage i)[2 * j + 1]? = (retryMessages (j + 1))[0]? ∧
      (conversation userMessage i)[2 * j + 2]? = (retryMessages (j + 1))[1]? := by
  have hlength := length_conversation userMessage j
  have hadded (k : Nat) (hk : k < 2) : (conversation userMessage i)[2 * j + 1 + k]? = (retryMessages (j + 1))[k]? := by
    obtain ⟨rest, hrest⟩ := conversation_extends userMessage (Nat.succ_le_of_lt h)
    rw [← hrest, conversation, List.append_assoc, ← hlength, List.getElem?_append_right (Nat.le_add_right _ _),
      Nat.add_sub_cancel_left, List.getElem?_append_left hk]
  exact ⟨hadded 0 (by decide), hadded 1 (by decide)⟩

theorem roles_conversation (userMessage : String) {i j : Nat} (h : j ≤ 2 * i) :
    ∃ content, (conversation userMessage i)[j]? =
      some (message (if j % 2 = 0 then "user" else "assistant") content) := by
  obtain rfl | ⟨k, hk, rfl | rfl⟩ : j = 0 ∨ ∃ k < i, j = 2 * k + 1 ∨ j = 2 * k + 2 := by
    obtain rfl | hj := Nat.eq_zero_or_pos j
    · exact .inl rfl
    · exact .inr ⟨(j - 1) / 2, by omega, by omega⟩
  · obtain ⟨rest, hrest⟩ := conversation_extends userMessage (Nat.zero_le i)
    rw [← hrest]
    exact ⟨userMessage, rfl⟩
  · rw [(conversation_getElem? userMessage hk).1, if_neg (by omega)]
    exact ⟨_, rfl⟩
  · rw [(conversation_getElem? userMessage hk).2, if_pos (by omega)]
    exact ⟨_, rfl⟩

def messagesOf (request : Value) : List Value :=
  match request.field? "messages" with
  | some (.list messages) => messages
  | _ => []

theorem messagesOf_envelope (messages : List Value) : messagesOf (envelope s devMessage messages tool) = messages := rfl

theorem field?_envelope (messages messages' : List Value) {key : String} (hkey : key ≠ "messages") :
    (envelope s devMessage messages tool).field? key = (envelope s devMessage messages' tool).field? key := by
  have hneq : (key == "messages") = false := beq_eq_false_iff_ne.mpr hkey
  simp only [envelope, Value.field?, Value.record, Environment.ofNamed, List.map_append, List.map_cons, List.cons_append,
    Mapping.get?_cons, Key.beq_text, hneq]
  rfl

/-- Requests of one conversation: each has two messages more than the one before, in turns and the last by the user. -/
structure Dialogue (userMessage : String) (sent : List Value) : Prop where
  length : ∀ i (h : i < sent.length), (messagesOf sent[i]).length = 2 * i + 1
  roles : ∀ i (h : i < sent.length), ∀ j ≤ 2 * i, ∃ content,
    (messagesOf sent[i])[j]? = some (message (if j % 2 = 0 then "user" else "assistant") content)
  first : ∀ i (h : i < sent.length), (messagesOf sent[i])[0]? = some (message "user" userMessage)
  retries : ∀ i (h : i < sent.length), ∀ j < i, (messagesOf sent[i])[2 * j + 2]? =
    some (message "user" (s!"You must use the '{toolName}' tool to provide the result. " ++ s!"(Retry attempt {j + 1})"))
  grows : ∀ i (h : i + 1 < sent.length), messagesOf sent[i] <+: messagesOf sent[i + 1] ∧
    messagesOf sent[i] ≠ messagesOf sent[i + 1]
  others : ∀ a ∈ sent, ∀ b ∈ sent, ∀ key : String, key ≠ "messages" → a.field? key = b.field? key

theorem messagesOf_requests {count i : Nat} (h : i < (requests s devMessage tool userMessage 0 count).length) :
    messagesOf (requests s devMessage tool userMessage 0 count)[i] = conversation userMessage i := by
  simp [requests, messagesOf_envelope]

theorem dialogue_requests (s : Settings) (devMessage tool : Value) (userMessage : String) (count : Nat) :
    Dialogue userMessage (requests s devMessage tool userMessage 0 count) where
  length i h := by rw [messagesOf_requests, length_conversation]
  roles i h j hj := by
    rw [messagesOf_requests]
    exact roles_conversation userMessage hj
  first i h := by
    obtain ⟨rest, hrest⟩ := conversation_extends userMessage (Nat.zero_le i)
    rw [messagesOf_requests, ← hrest]
    rfl
  retries i h j hj := by
    rw [messagesOf_requests, (conversation_getElem? userMessage hj).2]
    rfl
  grows i h := by
    rw [messagesOf_requests, messagesOf_requests]
    refine ⟨conversation_extends userMessage (Nat.le_succ i), fun hsame => ?_⟩
    have hlength := congrArg List.length hsame
    rw [length_conversation, length_conversation] at hlength
    omega
  others a ha b hb key hkey := by
    obtain ⟨i, -, rfl⟩ := List.mem_map.mp ha
    obtain ⟨j, -, rfl⟩ := List.mem_map.mp hb
    exact field?_envelope _ _ hkey

theorem exists_properties {outputs : Mapping String Value} (h : ∀ entry ∈ outputs, ∃ tag, entry.2 = .str tag) :
    ∃ members, TypeTag.properties outputs = .ok members := by
  induction outputs with
  | nil => exact ⟨[], rfl⟩
  | cons entry outputs ih =>
    obtain ⟨⟨tag, htag⟩, hrest⟩ := List.forall_mem_cons.mp h
    obtain ⟨members, hmembers⟩ := ih hrest
    obtain ⟨name, v⟩ := entry
    obtain rfl : v = .str tag := htag
    exact ⟨(name, TypeTag.schema tag) :: members, by simp only [TypeTag.properties, hmembers]; rfl⟩

theorem exists_tool {outputs : Mapping String Value} (h : ∀ entry ∈ outputs, ∃ tag, entry.2 = .str tag) :
    ∃ v, Assistant.tool outputs = .ok v := by
  obtain ⟨members, hmembers⟩ := exists_properties h
  simp only [Assistant.tool, TypeTag.outputSchema, hmembers]
  exact ⟨_, rfl⟩

/-- An assistant is asked until a request fails or the reply to it uses the tool, as often as the settings allow, by requests
of one conversation that are the same but for their messages. What was received before has no part in it. -/
theorem answer_exchange (s : Settings) (c : Client) (request : Request)
    (htags : ∀ entry ∈ request.outputs, ∃ tag, entry.2 = .str tag) (hproper : ∀ r ∈ c.replies, r.Proper) :
    ∃ tool sent result, Assistant.tool request.outputs = .ok tool ∧
      Ending s c (s.maxRetries + 1).toNat sent.length result ∧
      (∀ received, answer s { c with received := received } request =
        (result, ⟨c.replies.drop sent.length, c.afterwards, received ++ sent⟩)) ∧
      (∀ one ∈ sent, one = envelope s request.devMessage (messagesOf one) tool) ∧
      Dialogue request.userMessage sent := by
  obtain ⟨tool, htool⟩ := exists_tool htags
  obtain ⟨count, result, hending, hask⟩ := @ask_exchange s c request.devMessage tool request.userMessage hproper
    (s.maxRetries + 1).toNat 0
  have hcount : (requests s request.devMessage tool request.userMessage 0 count).length = count := by
    simp [requests]
  refine ⟨tool, requests s request.devMessage tool request.userMessage 0 count, result, htool, ?_, ?_, ?_,
    dialogue_requests s request.devMessage tool request.userMessage count⟩
  · rwa [hcount]
  · intro received
    rw [hcount, ← hask received, answer, htool]
    rfl
  · intro one hone
    obtain ⟨i, -, rfl⟩ := List.mem_map.mp hone
    rw [messagesOf_envelope]

/-- The first reply talks and uses another tool, the second one hands in the product, and nobody asks for the third. -/
def multiplier : Client where
  replies := [
    .blocks [⟨some (.str "text"), none, none⟩, ⟨some (.str "tool_use"), some (.str "search"), some (.record [])⟩],
    .blocks [⟨some (.str "tool_use"), some (.str toolName), some (.record [("product", .int 42)])⟩],
    .failure "overloaded"]
  afterwards := "closed"
  received := []

def multiplication : Request :=
  ⟨.str "Be brief.", "What is 6 times 7?", [("product", .str "number")]⟩

theorem multiplication_exchange : ∃ sent, sent.length = 2 ∧
    (∀ received, answer .default { multiplier with received := received } multiplication =
      (.ok (.record [("product", .int 42)]), ⟨[.failure "overloaded"], "closed", received ++ sent⟩)) ∧
    Dialogue "What is 6 times 7?" sent := by
  have htags : ∀ entry ∈ multiplication.outputs, ∃ tag, entry.2 = .str tag :=
    List.forall_mem_singleton.mpr ⟨"number", rfl⟩
  have hproper : ∀ r ∈ multiplier.replies, r.Proper := by
    simp [multiplier, Reply.Proper, Block.Proper, Value.record]
  obtain ⟨tool, sent, result, -, -, hanswer, -, hdialogue⟩ :=
    answer_exchange .default multiplier multiplication htags hproper
  have hlength : sent.length = 2 := by
    have hrun : (answer .default multiplier multiplication).2.received.length = 2 := by rfl
    have hreceived := congrArg (fun r => r.2.received.length) (hanswer [])
    exact hreceived.symm.trans hrun
  have hresult : result = .ok (.record [("product", .int 42)]) := by
    have hrun : (answer .default multiplier multiplication).1 = .ok (.record [("product", .int 42)]) := by rfl
    exact (congrArg (·.1) (hanswer [])).symm.trans hrun
  rw [hlength, hresult] at hanswer
  exact ⟨sent, hlength, hanswer, hdialogue⟩

end RoutineFlow.Assistant
