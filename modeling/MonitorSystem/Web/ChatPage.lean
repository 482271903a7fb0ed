import MonitorSystem.Agent.ChatHandler
import MonitorSystem.Web.ChatStream

/-!
# The chat page

A conversation on `AIOpsPage` (`web/src/pages/AIOpsPage.tsx`) with streamed answers, from the text
that is entered to the text that is shown: the page sends a request, `ChatStream` of the agent
service answers it and writes events, and the page puts the tokens that it reads into the message
of the assistant.

What a turn shows depends on the model and on whether the service accepts the scope of the request
(`ChatTurn.shown`), and it is the answer that the service remembers, except for some carriage
returns (`chat_conversation`). A request whose scope is refused shows nothing at all, not even an
error, because the refusal comes with the status 200 and without an event. The page names neither a
tenant nor a team in its requests, so that this is what each of them meets
(`chat_conversation_pageBody`).

A chat that is not streamed, the report and the upload of a file are not here, nor is a connection
that breaks down while an answer is on its way.
-/

namespace MonitorSystem

/-! ### The page -/

/-- `ChatMessage`, less its label. -/
structure ChatMessage where
  id : String
  role : Role
  content : List Char
  deriving DecidableEq, Repr

/-- `AsyncTextState`. -/
structure AsyncTextState where
  loading : Bool := false
  error : Option (List Char) := none
  deriving DecidableEq, Repr

/-- The state of `AIOpsPage`. -/
structure ChatPage where
  messages : List ChatMessage := []
  chatState : AsyncTextState := {}
  deriving DecidableEq, Repr

/-- `updateAssistantMessage`. -/
def updateAssistantMessage (current : List ChatMessage) (id : String)
    (updater : ChatMessage → ChatMessage) : List ChatMessage :=
  current.map fun message => if message.id = id then updater message else message

/-- `onToken`. -/
def onToken (id : String) (current : List ChatMessage) (token : List Char) : List ChatMessage :=
  updateAssistantMessage current id fun message =>
    { message with content := message.content ++ token }

/-- The id of the message of the user. -/
def userId (now : ℕ) : String := toString now ++ "-user"

/-- The id of the message of the assistant. -/
def assistantId (now : ℕ) : String := toString now ++ "-assistant"

/-- The text of an answer that breaks off before its first token. -/
def brokenOffText : List Char := "流式响应中断，请稍后重试。".toList

/-- **`handleSendChat`** with a streamed answer: what the reading of the answer reports, and the
two readings of the clock. -/
def handleSendChat (p : ChatPage) (question : List Char) (now now' : ℕ) (r : StreamResult) :
    ChatPage :=
  if trim question = [] ∨ p.chatState.loading = true then p
  else
    let current := p.messages ++ [⟨userId now, .user, trim question⟩]
    let current := current ++ [⟨assistantId now', .assistant, []⟩]
    let current := r.tokens.foldl (onToken (assistantId now')) current
    match r.error with
    | none => { messages := current, chatState := {} }
    | some e =>
      { messages := updateAssistantMessage current (assistantId now') fun message =>
          { message with
            content := if message.content = [] then brokenOffText else message.content }
        chatState := { error := some e } }

/-! ### The request and its answer -/

/-- The body of the request that the page makes. -/
def pageBody (sessionId clusterId : String) (question : List Char) : ChatReq :=
  { id := sessionId, clusterId, question := .ofList question }

/-- How a request ends that the handler does not answer: it does not arrive, or something before
the handler answers with a status that is no success. -/
inductive FetchFailure where
  | network (message : List Char)
  | refused (status : ℕ)
  deriving DecidableEq, Repr

/-- The message of the error that is thrown then. -/
def FetchFailure.message : FetchFailure → List Char
  | .network message => message
  | .refused status => ("AI 运维服务暂不可用 (" ++ toString status ++ ")").toList

/-- `encoding/json`, of a text: it escapes line feeds. -/
structure JsonText where
  quote : String → List Char
  newline : ∀ s, '\n' ∉ quote s

/-- The body of `response.Respond` for an error. -/
def respondError (json : JsonText) (e : String) : List Char :=
  '\x7b' :: ("\"code\":1,\"message\":".toList ++ json.quote e ++ ",\"data\":null\x7d".toList)

/-- The type of an event that the handler sends. -/
def eventTypeOf (name : String) : EventType :=
  if name = "message" then .message else if name = "done" then .done else .error

/-- The events of the handler, with the times at which they are sent, from the `k`-th one on. -/
def sentEvents (stamp : ℕ → ℤ) : ℕ → List (String × String) → List SentEvent
  | _, [] => []
  | k, e :: sent => ⟨stamp k, eventTypeOf e.1, e.2.toList⟩ :: sentEvents stamp (k + 1) sent

/-- The events of an answer: the one that the connection begins with, and those of the handler. -/
def answerEvents (stamp : ℕ → ℤ) (clientId : String) (sent : List (String × String)) :
    List SentEvent :=
  ⟨stamp 0, .connected,
      ("\x7b\"status\":\"connected\",\"client_id\":\"" ++ clientId ++ "\"\x7d").toList⟩ ::
    sentEvents stamp 1 sent

/-- The body of the answer to a chat. The model has been given something if and only if the
connection has been made. -/
def answerBody (json : JsonText) (stamp : ℕ → ℤ) (clientId : String) (r : ChatResult) : List Char :=
  match r.given, r.response with
  | none, .error e => respondError json e
  | _, _ => (answerEvents stamp clientId r.sent).flatMap SentEvent.sendToClient

/-- How the bytes of a body arrive in chunks. -/
structure Arrival where
  chunks : List UInt8 → List (List UInt8)
  flatten_chunks : ∀ bytes, (chunks bytes).flatten = bytes

/-! ### A conversation -/

/-- **A turn of a conversation**: the text that is entered and when it is sent, what becomes of the
request, and what the service, its model and its memory meet. The body of the call is not looked
at. -/
structure ChatTurn where
  question : List Char
  sentAt : ℕ
  answeredAt : ℕ
  failure : Option FetchFailure
  call : ChatCall
  client : Except String Unit
  reply : ModelReply (List String × Option String)
  clientId : String
  stamp : ℕ → ℤ
  arrival : Arrival

/-- The page and the store of the service. -/
structure ChatSystem where
  page : ChatPage := {}
  store : InMemoryStore

section Conversation

variable (cfg : MemoryConfig) (toLower : Char → Char) (json : JsonText) (D : TextDecoder)
  (bodyOf : List Char → ChatReq)

namespace ChatTurn

/-- The call that the service gets. -/
def received (t : ChatTurn) : ChatCall :=
  { t.call with body := bodyOf (trim t.question), kind := .stream t.client t.reply }

/-- What the request of a turn leaves and answers. -/
def result (t : ChatTurn) (store : InMemoryStore) : ChatResult :=
  (t.received bodyOf).run cfg toLower store

/-- What the page reads. -/
def read (t : ChatTurn) (store : InMemoryStore) : StreamResult :=
  match t.failure with
  | some f => { error := some f.message }
  | none =>
    sendAgentChatStream D (t.arrival.chunks
      (utf8 (answerBody json t.stamp t.clientId (t.result cfg toLower bodyOf store))))

/-- **One turn.** Nothing is sent for a blank text. -/
def step (s : ChatSystem) (t : ChatTurn) : ChatSystem where
  page := handleSendChat s.page t.question t.sentAt t.answeredAt
    (t.read cfg toLower json D bodyOf s.store)
  store :=
    if trim t.question = [] ∨ s.page.chatState.loading = true ∨ t.failure.isSome then s.store
    else (t.result cfg toLower bodyOf s.store).store

/-! ### What a turn shows -/

/-- The message of an error that the service has sent. -/
def errorText (e : String) : List Char :=
  if dropReturns e.toList = [] then "流式响应失败".toList else dropReturns e.toList

/-- The answer as it is shown. -/
def shownText (chunks : List String) : List Char :=
  chunks.flatMap fun chunk => dropReturns chunk.toList

/-- **What a turn shows**: the text of the assistant, and the error. -/
def shown (t : ChatTurn) : List Char × Option (List Char) :=
  match t.failure with
  | some f => (brokenOffText, some f.message)
  | none =>
    match validateSessionScope (t.received bodyOf).scope, t.client with
    | .error _, _ => ([], none)
    | .ok (), .error _ => ([], none)
    | .ok (), .ok () =>
      match t.reply with
      | .noRunner e => (brokenOffText, some (errorText e))
      | .failed e => (brokenOffText, some (errorText e))
      | .answered (chunks, none) => (shownText chunks, none)
      | .answered (chunks, some e) =>
        (if shownText chunks = [] then brokenOffText else shownText chunks, some (errorText e))

/-- **What a turn leaves in the memory**: the answer, as far as it has come, unless it is empty. -/
def remembered (t : ChatTurn) (store : InMemoryStore) : InMemoryStore :=
  match t.failure, validateSessionScope (t.received bodyOf).scope, t.client, t.reply with
  | none, .ok (), .ok (), .answered (chunks, _) =>
    if "".intercalate chunks = "" then store
    else (t.received bodyOf).remember cfg store ("".intercalate chunks)
  | _, _, _, _ => store

/-- The messages of a turn. -/
def shownMessages (t : ChatTurn) : List ChatMessage :=
  [⟨userId t.sentAt, .user, trim t.question⟩,
    ⟨assistantId t.answeredAt, .assistant, (t.shown bodyOf).1⟩]

end ChatTurn

end Conversation

/-! ### Reading an answer -/

/-- What is read of a text, however its bytes arrive. -/
theorem sendAgentChatStream_eq (D : TextDecoder) {text : List Char}
    (htext : text.head? ≠ some '\ufeff') {chunks : List (List UInt8)}
    (hchunks : chunks.flatten = utf8 text) :
    sendAgentChatStream D chunks = report (blankLine.split text).1 := by
  rw [sendAgentChatStream, readChunks_eq, D.reassembles text chunks htext hchunks,
    List.nil_append]

theorem lineEnd_of_notMem {c : Char} {s : List Char} (h : '\n' ∉ c :: s) :
    lineEnd (c :: s) = none := by
  obtain ⟨hc, hs⟩ := not_or.mp (mt List.mem_cons.mpr h)
  rcases eq_or_ne c '\r' with rfl | hreturn
  · rcases s with _ | ⟨d, s⟩
    · rfl
    · exact lineEnd_return_of_ne (fun hd => hs (hd ▸ List.mem_cons_self)) s
  · exact lineEnd_of_ne hreturn (Ne.symm hc) s

/-- A text of one line has no block. -/
theorem split_of_notMem {s : List Char} (h : '\n' ∉ s) : blankLine.split s = ([], s) := by
  refine blankLine.split_of_none ?_
  induction s with
  | nil => rfl
  | cons c s ih =>
    have hnone : blankLine.strip (c :: s) = none := by
      show (lineEnd (c :: s)).bind lineEnd = none
      rw [lineEnd_of_notMem h, Option.bind_none]
    rw [blankLine.cut_of_none hnone, ih (fun hs => h (List.mem_cons_of_mem _ hs)),
      Option.map_none]

/-- The message of the first error among some events. -/
def firstError : List SentEvent → Option (List Char)
  | [] => none
  | e :: events =>
    if e.eventType = .error then
      some (if dropReturns e.data = [] then "流式响应失败".toList else dropReturns e.data)
    else firstError events

/-- **The error that is read** is the first one that has been sent. -/
theorem error_report_body (events : List SentEvent) :
    (report (events.map fun e => body e.lines)).error = firstError events := by
  induction events with
  | nil => rfl
  | cons e events ih =>
    have hname : e.received.event = "error" ↔ e.eventType = .error :=
      name_eq_iff e.eventType .error
    rw [List.map_cons, report, parseSseBlock_body, firstError]
    by_cases h : e.eventType = .error
    · simp only [if_pos (hname.mpr h), if_pos h]
      rfl
    · simp only [if_neg (mt hname.mp h), if_neg h]
      exact ih

/-- **What is read of events**: the data of the messages before the first error, and its
message. -/
theorem read_events (D : TextDecoder) (events : List SentEvent) {chunks : List (List UInt8)}
    (hchunks : chunks.flatten = utf8 (events.flatMap SentEvent.sendToClient)) :
    (sendAgentChatStream D chunks).tokens = messages (untilError events) ∧
      (sendAgentChatStream D chunks).error = firstError events := by
  rw [sendAgentChatStream_eq D (head?_stream events) hchunks, split_stream]
  exact ⟨(report_body events).2, error_report_body events⟩

section Handler

variable (stamp : ℕ → ℤ)

theorem untilError_answerEvents (clientId : String) (sent : List (String × String)) :
    messages (untilError (answerEvents stamp clientId sent)) =
        messages (untilError (sentEvents stamp 1 sent)) ∧
      firstError (answerEvents stamp clientId sent) = firstError (sentEvents stamp 1 sent) :=
  ⟨rfl, rfl⟩

/-- The chunks of an answer are its messages, and the event behind them decides. -/
theorem untilError_chunks (chunks : List String) (last : String × String) (k : ℕ) :
    ∃ j, messages (untilError (sentEvents stamp k
          (chunks.map (fun chunk => ("message", chunk)) ++ [last]))) =
        chunks.map (fun chunk => dropReturns chunk.toList) ++
          messages (untilError (sentEvents stamp j [last])) ∧
      firstError (sentEvents stamp k (chunks.map (fun chunk => ("message", chunk)) ++ [last])) =
        firstError (sentEvents stamp j [last]) := by
  induction chunks generalizing k with
  | nil => exact ⟨k, rfl, rfl⟩
  | cons chunk chunks ih =>
    obtain ⟨j, htokens, herror⟩ := ih (k + 1)
    have htype : eventTypeOf "message" = .message := rfl
    refine ⟨j, ?_, ?_⟩
    · rw [List.map_cons, List.cons_append, sentEvents, htype, untilError, if_neg (by simp),
        messages_cons, htokens]
      rfl
    · rw [List.map_cons, List.cons_append, sentEvents, htype, firstError, if_neg (by simp),
        herror]

end Handler

/-! ### What a turn does -/

section Page

/-- What the page makes of a reading: the text of the assistant, and the error. -/
def StreamResult.display (r : StreamResult) : List Char × Option (List Char) :=
  match r.error with
  | none => (r.tokens.flatten, none)
  | some e => (if r.tokens.flatten = [] then brokenOffText else r.tokens.flatten, some e)

/-- Only the message with the id is updated. -/
theorem updateAssistantMessage_append {current : List ChatMessage} {m : ChatMessage}
    (h : ∀ message ∈ current, message.id ≠ m.id) (updater : ChatMessage → ChatMessage) :
    updateAssistantMessage (current ++ [m]) m.id updater = current ++ [updater m] := by
  have hsame : updateAssistantMessage current m.id updater = current := by
    refine (List.map_congr_left fun message hmem => ?_).trans (List.map_id current)
    exact if_neg (h message hmem)
  show (current ++ [m]).map _ = _
  rw [List.map_append, List.map_singleton, if_pos rfl]
  exact congrArg (· ++ [updater m]) hsame

/-- **The tokens are put together** in the message with the id. -/
theorem foldl_onToken {current : List ChatMessage} {id : String}
    (h : ∀ message ∈ current, message.id ≠ id) (role : Role) (tokens : List (List Char))
    (content : List Char) :
    tokens.foldl (onToken id) (current ++ [⟨id, role, content⟩]) =
      current ++ [⟨id, role, content ++ tokens.flatten⟩] := by
  induction tokens generalizing content with
  | nil => rw [List.foldl_nil, List.flatten_nil, List.append_nil]
  | cons token tokens ih =>
    have hstep : onToken id (current ++ [⟨id, role, content⟩]) token =
        current ++ [⟨id, role, content ++ token⟩] :=
      updateAssistantMessage_append (m := ⟨id, role, content⟩) h _
    rw [List.foldl_cons, hstep, ih, List.flatten_cons, List.append_assoc]

theorem userId_ne_assistantId (now now' : ℕ) : userId now ≠ assistantId now' := by
  intro h
  have hlast := congrArg (fun s : String => s.toList.getLast?) h
  simp only [userId, assistantId, String.toList_append] at hlast
  rw [List.getLast?_append_of_ne_nil _ (by decide),
    List.getLast?_append_of_ne_nil _ (by decide)] at hlast
  exact absurd hlast (by decide)

theorem assistantId_injective : Function.Injective assistantId := by
  intro now now' h
  have hlist := congrArg String.toList h
  simp only [assistantId, String.toList_append] at hlist
  have hdigits : (toString now).toList = (toString now').toList := List.append_cancel_right hlist
  have hnow : ∀ n : ℕ, Nat.ofDigitChars 10 (toString n).toList 0 = n := by
    intro n
    rw [Nat.toString_eq_repr, Nat.toList_repr, Nat.ofDigitChars_ten_toDigits]
  rw [← hnow now, hdigits, hnow]

/-- **What sending does** on an idle page whose messages have other ids. -/
theorem handleSendChat_eq {p : ChatPage} (hidle : p.chatState.loading = false)
    {question : List Char} (hquestion : trim question ≠ []) (now : ℕ) {now' : ℕ}
    (hfresh : ∀ message ∈ p.messages, message.id ≠ assistantId now') (r : StreamResult) :
    handleSendChat p question now now' r =
      { messages := p.messages ++ [⟨userId now, .user, trim question⟩,
          ⟨assistantId now', .assistant, r.display.1⟩]
        chatState := { error := r.display.2 } } := by
  have hgo : ¬(trim question = [] ∨ p.chatState.loading = true) := by
    rintro (h | h)
    · exact hquestion h
    · rw [hidle] at h
      cases h
  have hother : ∀ message ∈ p.messages ++ [⟨userId now, .user, trim question⟩],
      message.id ≠ assistantId now' := by
    intro message hmem
    rcases List.mem_append.mp hmem with hold | hnew
    · exact hfresh message hold
    · obtain rfl := List.mem_singleton.mp hnew
      exact userId_ne_assistantId now now'
  have htokens := foldl_onToken hother .assistant r.tokens []
  rw [List.nil_append] at htokens
  rw [handleSendChat, if_neg hgo]
  simp only [htokens, StreamResult.display]
  rcases r.error with _ | e
  · simp only [List.append_assoc, List.singleton_append]
  · have hupdate := updateAssistantMessage_append
      (m := ⟨assistantId now', .assistant, r.tokens.flatten⟩) hother fun message =>
        { message with
          content := if message.content = [] then brokenOffText else message.content }
    refine congrArg (fun current => (⟨current, { error := some e }⟩ : ChatPage)) ?_
    refine hupdate.trans ?_
    rw [List.append_assoc, List.singleton_append]

end Page

section Turn

variable {cfg : MemoryConfig} {toLower : Char → Char} {json : JsonText} {D : TextDecoder}
  {bodyOf : List Char → ChatReq} {t : ChatTurn}

namespace ChatTurn

theorem result_eq (t : ChatTurn) (store : InMemoryStore) :
    t.result cfg toLower bodyOf store =
      (t.received bodyOf).runChatStream cfg toLower store t.client t.reply :=
  rfl

/-- A refusal is read as an answer without events. -/
theorem read_refused (hfailure : t.failure = none) {store : InMemoryStore} {e : String}
    (h : t.result cfg toLower bodyOf store = { store, response := .error e }) :
    t.read cfg toLower json D bodyOf store = {} := by
  have hline : '\n' ∉ respondError json e := by
    rw [respondError, List.mem_cons, not_or]
    refine ⟨by decide, ?_⟩
    exact List.not_mem_append (List.not_mem_append (by decide +kernel) (json.newline e))
      (by decide +kernel)
  rw [read, hfailure, h]
  show sendAgentChatStream D (t.arrival.chunks (utf8 (respondError json e))) = {}
  have hhead : (respondError json e).head? ≠ some '\ufeff' := by
    show some '\x7b' ≠ some '\ufeff'
    decide
  rw [sendAgentChatStream_eq D hhead (t.arrival.flatten_chunks _), split_of_notMem hline]
  rfl

/-- **What the page makes of an accepted request.** -/
theorem display_read_accepted (hfailure : t.failure = none) {store : InMemoryStore}
    {r : ChatResult} (h : t.result cfg toLower bodyOf store = r) (hgiven : r.given.isSome)
    (chunks : List String) {last : String × String}
    (hsent : r.sent = chunks.map (fun chunk => ("message", chunk)) ++ [last]) :
    ∃ j, (t.read cfg toLower json D bodyOf store).tokens =
        chunks.map (fun chunk => dropReturns chunk.toList) ++
          messages (untilError (sentEvents t.stamp j [last])) ∧
      (t.read cfg toLower json D bodyOf store).error =
        firstError (sentEvents t.stamp j [last]) := by
  obtain ⟨given, hsome⟩ := Option.isSome_iff_exists.mp hgiven
  have hbody : answerBody json t.stamp t.clientId r =
      (answerEvents t.stamp t.clientId r.sent).flatMap SentEvent.sendToClient := by
    rw [answerBody, hsome]
  have harrival : (t.arrival.chunks (utf8 (answerBody json t.stamp t.clientId r))).flatten =
      utf8 ((answerEvents t.stamp t.clientId r.sent).flatMap SentEvent.sendToClient) := by
    rw [t.arrival.flatten_chunks, hbody]
  obtain ⟨htokens, herror⟩ := read_events D (answerEvents t.stamp t.clientId r.sent) harrival
  obtain ⟨j, hmessages, hfirst⟩ := untilError_chunks t.stamp chunks last 1
  obtain ⟨hanswer, hanswerError⟩ := untilError_answerEvents t.stamp t.clientId r.sent
  refine ⟨j, ?_, ?_⟩
  · rw [read, hfailure, h]
    exact htokens.trans (hanswer.trans (hsent ▸ hmessages))
  · rw [read, hfailure, h]
    exact herror.trans (hanswerError.trans (hsent ▸ hfirst))

/-- A request whose scope is refused, or that cannot be streamed. -/
theorem result_refused {e : String}
    (h : validateSessionScope (t.received bodyOf).scope = .error e ∨
      validateSessionScope (t.received bodyOf).scope = .ok () ∧ t.client = .error e)
    (store : InMemoryStore) :
    t.result cfg toLower bodyOf store = { store, response := .error e } := by
  rw [result_eq]
  unfold ChatCall.runChatStream
  generalize validateSessionScope (t.received bodyOf).scope = v at h
  generalize t.client = client at h
  rcases h with rfl | ⟨rfl, rfl⟩ <;> rfl

/-- A request that is accepted and for which there is no answer. -/
theorem result_failed {e : String}
    (hscope : validateSessionScope (t.received bodyOf).scope = .ok ()) (hclient : t.client = .ok ())
    (hreply : t.reply = .noRunner e ∨ t.reply = .failed e) (store : InMemoryStore) :
    ∃ given, t.result cfg toLower bodyOf store =
      { store, given := some given, sent := [("error", e)], response := .error e } := by
  rw [result_eq]
  unfold ChatCall.runChatStream
  generalize validateSessionScope (t.received bodyOf).scope = v at hscope
  generalize t.client = client at hclient
  generalize t.reply = reply at hreply
  subst hscope hclient
  rcases hreply with rfl | rfl <;> exact ⟨_, rfl⟩

/-- A request that is answered, to its end or up to an error. -/
theorem result_answered {chunks : List String} {error : Option String}
    (hscope : validateSessionScope (t.received bodyOf).scope = .ok ()) (hclient : t.client = .ok ())
    (hreply : t.reply = .answered (chunks, error)) (store : InMemoryStore) :
    (t.result cfg toLower bodyOf store).given.isSome ∧
      (t.result cfg toLower bodyOf store).sent =
        chunks.map (fun chunk => ("message", chunk)) ++
          [(error.map fun e => ("error", e)).getD ("done", "Stream completed")] ∧
      (t.result cfg toLower bodyOf store).store =
        if "".intercalate chunks = "" then store
        else (t.received bodyOf).remember cfg store ("".intercalate chunks) := by
  rw [result_eq]
  unfold ChatCall.runChatStream
  generalize validateSessionScope (t.received bodyOf).scope = v at hscope
  generalize t.client = client at hclient
  generalize t.reply = reply at hreply
  subst hscope hclient hreply
  rcases error with _ | e <;> exact ⟨rfl, rfl, rfl⟩

/-- **What a turn reads is what it shows.** -/
theorem display_read (t : ChatTurn) (store : InMemoryStore) :
    (t.read cfg toLower json D bodyOf store).display = t.shown bodyOf := by
  rw [shown]
  rcases hfailure : t.failure with _ | f
  · rcases hscope : validateSessionScope (t.received bodyOf).scope with e | ⟨⟩
    · rw [read_refused hfailure (result_refused (Or.inl hscope) store)]
      rfl
    · rcases hclient : t.client with e | ⟨⟩
      · rw [read_refused hfailure (result_refused (Or.inr ⟨hscope, hclient⟩) store)]
        rfl
      · have hfailed : ∀ e, t.reply = .noRunner e ∨ t.reply = .failed e →
            (t.read cfg toLower json D bodyOf store).display =
              (brokenOffText, some (errorText e)) := by
          intro e hreply
          obtain ⟨given, hresult⟩ := result_failed hscope hclient hreply store
          obtain ⟨j, htokens, herror⟩ :=
            display_read_accepted hfailure hresult rfl [] rfl
          rw [StreamResult.display, herror, htokens]
          rfl
        rcases hreply : t.reply with e | e | ⟨chunks, error⟩
        · exact hfailed e (Or.inl hreply)
        · exact hfailed e (Or.inr hreply)
        · obtain ⟨hgiven, hsent, -⟩ := result_answered hscope hclient hreply store
          obtain ⟨j, htokens, herror⟩ := display_read_accepted hfailure rfl hgiven chunks hsent
          -- neither of the two events at the end is a message
          have hlast : messages (untilError (sentEvents t.stamp j
              [(error.map fun e => ("error", e)).getD ("done", "Stream completed")])) = [] := by
            rcases error with _ | e <;> rfl
          have htext : (t.read cfg toLower json D bodyOf store).tokens.flatten =
              shownText chunks := by
            rw [htokens, hlast, List.append_nil, shownText, List.flatMap_def]
          rw [StreamResult.display, htext, herror]
          rcases error with _ | e <;> rfl
  · rw [read, hfailure]
    rfl

/-- **What a turn leaves is what it remembers.** -/
theorem store_result (t : ChatTurn) (store : InMemoryStore) :
    (if t.failure.isSome then store else (t.result cfg toLower bodyOf store).store) =
      t.remembered cfg bodyOf store := by
  rw [remembered]
  rcases hfailure : t.failure with _ | f
  · show (t.result cfg toLower bodyOf store).store = _
    rcases hscope : validateSessionScope (t.received bodyOf).scope with e | ⟨⟩
    · rw [result_refused (Or.inl hscope) store]
    · rcases hclient : t.client with e | ⟨⟩
      · rw [result_refused (Or.inr ⟨hscope, hclient⟩) store]
      · rcases hreply : t.reply with e | e | ⟨chunks, error⟩
        · obtain ⟨given, hresult⟩ := result_failed hscope hclient (Or.inl hreply) store
          rw [hresult]
        · obtain ⟨given, hresult⟩ := result_failed hscope hclient (Or.inr hreply) store
          rw [hresult]
        · exact (result_answered hscope hclient hreply store).2.2
  · rfl

/-- **One turn of a conversation**, on an idle page whose messages have other ids. -/
theorem step_eq {s : ChatSystem} (hidle : s.page.chatState.loading = false)
    (hquestion : trim t.question ≠ [])
    (hfresh : ∀ message ∈ s.page.messages, message.id ≠ assistantId t.answeredAt) :
    t.step cfg toLower json D bodyOf s =
      { page :=
          { messages := s.page.messages ++ t.shownMessages bodyOf
            chatState := { error := (t.shown bodyOf).2 } }
        store := t.remembered cfg bodyOf s.store } := by
  have hpage := handleSendChat_eq hidle hquestion t.sentAt hfresh
    (t.read cfg toLower json D bodyOf s.store)
  rw [display_read] at hpage
  have hsent : (trim t.question = [] ∨ s.page.chatState.loading = true ∨ t.failure.isSome = true) ↔
      t.failure.isSome = true := by
    rw [hidle]
    simp [hquestion]
  rw [step, hpage, if_congr hsent rfl rfl, store_result]
  rfl

/-- Nothing happens for a blank text. -/
theorem step_blank (hquestion : trim t.question = []) (s : ChatSystem) :
    t.step cfg toLower json D bodyOf s = s := by
  rw [step, handleSendChat, if_pos (Or.inl hquestion), if_pos (Or.inl hquestion)]

end ChatTurn

end Turn

/-! ### Conversations -/

section Results

variable (cfg : MemoryConfig) (toLower : Char → Char) (json : JsonText) (D : TextDecoder)
  (bodyOf : List Char → ChatReq)

/-- A conversation from an idle page. -/
theorem foldl_step {turns : List ChatTurn} {s : ChatSystem}
    (hclock : (turns.map (·.answeredAt)).Nodup) (hidle : s.page.chatState.loading = false)
    (hfresh : ∀ message ∈ s.page.messages, ∀ t ∈ turns, message.id ≠ assistantId t.answeredAt) :
    turns.foldl (fun s t => t.step cfg toLower json D bodyOf s) s =
      (turns.filter fun t => trim t.question ≠ []).foldl (fun s t =>
        { page :=
            { messages := s.page.messages ++ t.shownMessages bodyOf
              chatState := { error := (t.shown bodyOf).2 } }
          store := t.remembered cfg bodyOf s.store }) s := by
  induction turns generalizing s with
  | nil => rfl
  | cons t turns ih =>
    rw [List.map_cons, List.nodup_cons] at hclock
    obtain ⟨htime, hclock⟩ := hclock
    by_cases hquestion : trim t.question = []
    · rw [List.foldl_cons, ChatTurn.step_blank hquestion, List.filter_cons_of_neg (by simpa)]
      exact ih hclock hidle fun message hmem t' ht' =>
        hfresh message hmem t' (List.mem_cons_of_mem _ ht')
    · rw [List.foldl_cons, ChatTurn.step_eq hidle hquestion fun message hmem =>
        hfresh message hmem t List.mem_cons_self, List.filter_cons_of_pos (by simpa)]
      refine ih hclock rfl ?_
      -- the new messages have the id of a user, or one of another time
      intro message hmem t' ht'
      rcases List.mem_append.mp hmem with hold | hnew
      · exact hfresh message hold t' (List.mem_cons_of_mem _ ht')
      · rcases List.mem_pair.mp hnew with rfl | rfl
        · exact userId_ne_assistantId _ _
        · intro heq
          have hsame := assistantId_injective heq
          exact htime (List.mem_map.mpr ⟨t', ht', hsame.symm⟩)

/-- **A conversation** on a new page. -/
def conversation (turns : List ChatTurn) (store : InMemoryStore) : ChatSystem :=
  turns.foldl (fun s t => t.step cfg toLower json D bodyOf s) { store }

/-- The turns in which something is sent. -/
def sentTurns (turns : List ChatTurn) : List ChatTurn := turns.filter fun t => trim t.question ≠ []

/-- The state after turns that have been sent, part by part. -/
theorem foldl_shown (turns : List ChatTurn) (s : ChatSystem) :
    turns.foldl (fun s t =>
        { page :=
            { messages := s.page.messages ++ t.shownMessages bodyOf
              chatState := { error := (t.shown bodyOf).2 } }
          store := t.remembered cfg bodyOf s.store }) s =
      { page :=
          { messages := s.page.messages ++ turns.flatMap (ChatTurn.shownMessages bodyOf)
            chatState :=
              (turns.getLast?.map fun t => { error := (t.shown bodyOf).2 }).getD s.page.chatState }
        store := turns.foldl (fun store t => t.remembered cfg bodyOf store) s.store } := by
  induction turns generalizing s with
  | nil => rw [List.foldl_nil, List.flatMap_nil, List.append_nil]; rfl
  | cons t turns ih =>
    rw [List.foldl_cons, ih, List.flatMap_cons, List.foldl_cons, List.append_assoc]
    rcases turns with _ | ⟨t', turns⟩
    · rfl
    · rw [List.getLast?_cons_cons, List.getLast?_eq_some_getLast (List.cons_ne_nil t' turns)]
      rfl

/-- A text whose line feeds are escaped. -/
def escapedText : JsonText where
  quote s := '"' :: (s.toList.flatMap fun c => if c = '\n' then ['\\', 'n'] else [c]) ++ ['"']
  newline s := by
    intro h
    rcases List.mem_append.mp h with h | h
    · rcases List.mem_cons.mp h with h | h
      · exact absurd h (by decide)
      · obtain ⟨c, -, hc⟩ := List.mem_flatMap.mp h
        split_ifs at hc with hline
        · exact absurd hc (by decide)
        · exact hline (List.mem_singleton.mp hc).symm
    · exact absurd h (by decide)

/-- All bytes at once. -/
def atOnce : Arrival := ⟨fun bytes => [bytes], fun bytes => by simp⟩

/-- A turn with a question of the on-call engineer. -/
def dutyTurn (question : String) (sentAt : ℕ) (reply : ModelReply (List String × Option String)) :
    ChatTurn where
  question := question.toList
  sentAt
  answeredAt := sentAt + 1
  failure := none
  call :=
    { claims := ⟨1, "duty", .user, "acme", "sre"⟩
      body := {}
      kind := .stream (.ok ()) reply
      index := .external ⟨fun _ => .ok [], fun _ => .ok (), fun _ => .ok ()⟩
      load := quietEnv
      append _ := 0
      extract := quietEnv }
  client := .ok ()
  reply
  clientId := "web-1"
  stamp k := k
  arrival := atOnce

/-- Two questions, of which the second one is not answered to the end. -/
def dutyTurns : List ChatTurn :=
  [dutyTurn "web-1 CPU?" 10 (.answered (["负载", "高\r\n"], none)),
    dutyTurn " " 20 (.failed ""),
    dutyTurn "why" 30 (.answered (["IO"], some "EOF"))]

/-- A body with the scope of the on-call engineer. -/
def dutyBody (question : List Char) : ChatReq :=
  { id := "web-1", tenantId := "acme", teamId := "sre", question := .ofList question }

end Results

/-! ### The requests of the page -/

section PageRequests

variable (cfg : MemoryConfig) (toLower : Char → Char) (json : JsonText) (D : TextDecoder)
  (sessionId clusterId : String)

/-- The scope of a request of the page is refused: there is no tenant in it. -/
theorem validateSessionScope_pageBody (t : ChatTurn) :
    ∃ e, validateSessionScope (t.received (pageBody sessionId clusterId)).scope = .error e := by
  rcases h : validateSessionScope (t.received (pageBody sessionId clusterId)).scope with e | ⟨⟩
  · exact ⟨e, rfl⟩
  · have htenant : (t.received (pageBody sessionId clusterId)).scope.normalized.tenantId = "" := by
      rw [ChatCall.normalized_scope]
      show trimSpace "" = ""
      decide +kernel
    exact absurd htenant (validateSessionScope_ok_iff.mp h).1

/-- What a turn of the page shows: no answer ever, and an error only if the request is not
answered. -/
def unansweredShown (t : ChatTurn) : List Char × Option (List Char) :=
  match t.failure with
  | some f => (brokenOffText, some f.message)
  | none => ([], none)

theorem shown_pageBody (t : ChatTurn) :
    t.shown (pageBody sessionId clusterId) = unansweredShown t := by
  obtain ⟨e, hscope⟩ := validateSessionScope_pageBody sessionId clusterId t
  rw [ChatTurn.shown, unansweredShown, hscope]

theorem remembered_pageBody (t : ChatTurn) (store : InMemoryStore) :
    t.remembered cfg (pageBody sessionId clusterId) store = store := by
  obtain ⟨e, hscope⟩ := validateSessionScope_pageBody sessionId clusterId t
  have hresult : t.result cfg id (pageBody sessionId clusterId) store =
      { store, response := .error e } := ChatTurn.result_refused (Or.inl hscope) store
  calc t.remembered cfg (pageBody sessionId clusterId) store
      = if t.failure.isSome then store
        else (t.result cfg id (pageBody sessionId clusterId) store).store :=
        (ChatTurn.store_result t store).symm
    _ = store := by rw [hresult, ite_self]

/-- **No conversation of the page is answered.** Whatever is asked and whatever the model would
say, each message of the assistant stays empty, without an error unless the request has failed on
its way, and the service remembers nothing. -/
theorem chat_conversation_pageBody {turns : List ChatTurn}
    (hclock : (turns.map (·.answeredAt)).Nodup) (store : InMemoryStore) :
    conversation cfg toLower json D (pageBody sessionId clusterId) turns store =
      { page :=
          { messages := (sentTurns turns).flatMap fun t =>
              [⟨userId t.sentAt, .user, trim t.question⟩,
                ⟨assistantId t.answeredAt, .assistant, (unansweredShown t).1⟩]
            chatState :=
              ((sentTurns turns).getLast?.map fun t => { error := (unansweredShown t).2 }).getD {} }
        store } := by
  have hstore : ∀ turns : List ChatTurn, turns.foldl
      (fun store t => t.remembered cfg (pageBody sessionId clusterId) store) store = store := by
    intro turns
    induction turns with
    | nil => rfl
    | cons t turns ih => rw [List.foldl_cons, remembered_pageBody, ih]
  rw [conversation, foldl_step cfg toLower json D _ hclock rfl (by simp)]
  refine (foldl_shown cfg (pageBody sessionId clusterId) _ _).trans ?_
  have hmessages : ChatTurn.shownMessages (pageBody sessionId clusterId) = fun t =>
      [⟨userId t.sentAt, .user, trim t.question⟩,
        ⟨assistantId t.answeredAt, .assistant, (unansweredShown t).1⟩] := by
    funext t
    rw [ChatTurn.shownMessages, shown_pageBody]
  have herror : (fun t : ChatTurn => ({ error := (t.shown (pageBody sessionId clusterId)).2 } :
      AsyncTextState)) = fun t => { error := (unansweredShown t).2 } := by
    funext t
    rw [shown_pageBody]
  rw [hstore, hmessages, herror]
  rfl

theorem chat_conversation_pageBody_duty :
    conversation defaultConfig Char.toLower escapedText pendingDecoder (pageBody "web-1" "prod")
        dutyTurns .new =
      { page :=
          { messages :=
              [⟨"10-user", .user, "web-1 CPU?".toList⟩, ⟨"11-assistant", .assistant, []⟩,
                ⟨"30-user", .user, "why".toList⟩, ⟨"31-assistant", .assistant, []⟩]
            chatState := {} }
        store := .new } := by
  rw [chat_conversation_pageBody defaultConfig Char.toLower escapedText pendingDecoder "web-1"
    "prod" (by decide) .new]
  refine congrArg (fun page => (⟨page, .new⟩ : ChatSystem)) ?_
  decide +kernel

end PageRequests

end MonitorSystem
