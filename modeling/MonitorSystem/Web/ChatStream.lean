import MonitorSystem.Agent.Sse

/-!
# Reading the event stream in the browser

`sendAgentChatStream` (`web/src/api/agent.ts`) reads the answer to a chat in chunks of bytes. A
`TextDecoder` makes text of them, which is put behind what is left of the text before, and
what stands before an empty line is an event (`parseSseBlock`). An event of the type `error` ends
the reading.

`sse_round_trip` puts this together with what the service writes: whatever the data, and
wherever the chunks end, the events are reported that have been sent, except for some
carriage returns at the ends of lines.
-/

namespace MonitorSystem

/-! ### Decoding text -/

/-- The bytes of a text. -/
def utf8 (text : List Char) : List UInt8 := text.flatMap String.utf8EncodeChar

/-- The texts that are made of some chunks one after another, and at the end of all of them. -/
def decodeAll {σ : Type} (decode : σ → List UInt8 → Bool → σ × List Char) (s : σ) :
    List (List UInt8) → List (List Char)
  | [] => [(decode s [] false).2]
  | chunk :: chunks =>
    (decode s chunk true).2 :: decodeAll decode (decode s chunk true).1 chunks

/-- **A `TextDecoder`**: the chunks of a text are made into parts of it, also where they end in
the middle of a character. The flag is the option `stream`. A byte order mark at the beginning of
a text is left out, so that nothing is said about a text that has one. -/
structure TextDecoder where
  State : Type
  fresh : State
  decode : State → List UInt8 → Bool → State × List Char
  reassembles : ∀ (text : List Char) (chunks : List (List UInt8)), text.head? ≠ some '\ufeff' →
    chunks.flatten = utf8 text → (decodeAll decode fresh chunks).flatten = text

/-! ### A decoder -/

/-- The character with which some bytes begin. -/
def firstChar (bytes : List UInt8) : Option Char := bytes.toByteArray.utf8DecodeChar? 0

theorem firstChar_encode (c : Char) (rest : List UInt8) :
    firstChar (String.utf8EncodeChar c ++ rest) = some c := by
  rw [firstChar, List.toByteArray_append]
  exact ByteArray.utf8DecodeChar?_utf8EncodeChar_append

theorem exists_of_firstChar {bytes : List UInt8} {c : Char} (h : firstChar bytes = some c) :
    ∃ rest, bytes = String.utf8EncodeChar c ++ rest := by
  obtain ⟨rest, hrest⟩ := ByteArray.exists_of_utf8DecodeChar?_eq_some h
  refine ⟨rest.data.toList, List.toByteArray_inj.mp ?_⟩
  rw [hrest, List.toByteArray_append]
  congr 1
  exact ByteArray.ext (by simp)

/-- The characters that are complete, and the bytes behind them. -/
def decodeBytes : ℕ → List UInt8 → List UInt8 × List Char
  | 0, bytes => (bytes, [])
  | n + 1, bytes =>
    match firstChar bytes with
    | none => (bytes, [])
    | some c =>
      let r := decodeBytes n (bytes.drop (String.utf8EncodeChar c).length)
      (r.1, c :: r.2)

theorem decodeBytes_encode (n : ℕ) (c : Char) (rest : List UInt8) :
    decodeBytes (n + 1) (String.utf8EncodeChar c ++ rest) =
      ((decodeBytes n rest).1, c :: (decodeBytes n rest).2) := by
  rw [decodeBytes, firstChar_encode]
  simp only [List.drop_left]

/-- What is decoded is a part of the text, and the bytes that are left are those of the rest. -/
theorem exists_of_decodeBytes (n : ℕ) {bytes rest : List UInt8} {text : List Char}
    (h : bytes ++ rest = utf8 text) :
    ∃ text', text = (decodeBytes n bytes).2 ++ text' ∧
      (decodeBytes n bytes).1 ++ rest = utf8 text' := by
  induction n generalizing bytes text with
  | zero => exact ⟨text, rfl, h⟩
  | succ n ih =>
    cases hfirst : firstChar bytes with
    | none =>
      rw [decodeBytes, hfirst]
      exact ⟨text, rfl, h⟩
    | some c =>
      obtain ⟨after, rfl⟩ := exists_of_firstChar hfirst
      cases text with
      | nil =>
        have hnil : String.utf8EncodeChar c = [] :=
          (List.append_eq_nil_iff.mp (List.append_eq_nil_iff.mp h).1).1
        exact absurd hnil String.utf8EncodeChar_ne_nil
      | cons d text =>
        rw [utf8, List.flatMap_cons, List.append_assoc] at h
        -- the first character of the text can be read in only one way
        obtain rfl : c = d := by
          have hread := congrArg firstChar h
          rw [firstChar_encode, firstChar_encode] at hread
          exact Option.some.inj hread
        obtain ⟨text', htext, hbytes⟩ := ih (List.append_cancel_left h)
        rw [decodeBytes_encode]
        exact ⟨text', congrArg _ htext, hbytes⟩

/-- All of a text is decoded. -/
theorem decodeBytes_utf8 (text : List Char) {n : ℕ} (hn : (utf8 text).length ≤ n) :
    (decodeBytes n (utf8 text)).2 = text := by
  induction text generalizing n with
  | nil => cases n <;> rfl
  | cons c text ih =>
    have hpos : 0 < (String.utf8EncodeChar c).length :=
      List.length_pos_of_ne_nil String.utf8EncodeChar_ne_nil
    rw [utf8, List.flatMap_cons, ← utf8, List.length_append] at hn
    obtain ⟨m, rfl⟩ : ∃ m, n = m + 1 := ⟨n - 1, by omega⟩
    rw [utf8, List.flatMap_cons, ← utf8, decodeBytes_encode, ih (by omega)]

/-- A chunk behind the bytes that have been kept. -/
def decodePending (pending chunk : List UInt8) (_stream : Bool) : List UInt8 × List Char :=
  decodeBytes (pending ++ chunk).length (pending ++ chunk)

theorem decodeAll_decodePending {pending : List UInt8} {text : List Char}
    (chunks : List (List UInt8)) (h : pending ++ chunks.flatten = utf8 text) :
    (decodeAll decodePending pending chunks).flatten = text := by
  induction chunks generalizing pending text with
  | nil =>
    rw [List.flatten_nil, List.append_nil] at h
    rw [decodeAll, List.flatten_cons, List.flatten_nil, List.append_nil, decodePending,
      List.append_nil, h]
    exact decodeBytes_utf8 text le_rfl
  | cons chunk chunks ih =>
    rw [List.flatten_cons, ← List.append_assoc] at h
    obtain ⟨text', htext, hbytes⟩ := exists_of_decodeBytes (pending ++ chunk).length h
    have hrest : (decodePending pending chunk true).1 ++ chunks.flatten = utf8 text' := hbytes
    rw [decodeAll, List.flatten_cons, ih hrest, htext]
    rfl

/-- **A decoder**, which keeps the bytes of a character that is not complete. -/
def pendingDecoder : TextDecoder where
  State := List UInt8
  fresh := []
  decode := decodePending
  reassembles _ chunks _ h := decodeAll_decodePending chunks h

/-! ### Events -/

/-- An event as it is reported. -/
structure ChatEvent where
  event : String
  data : List Char
  deriving DecidableEq, Repr

/-- The white space of `trim`. -/
def isBlank (c : Char) : Bool :=
  c ∈ ['\t', '\n', '\x0b', '\x0c', '\r', ' ', '\u00a0', '\u1680', '\u2028', '\u2029', '\u202f',
    '\u205f', '\u3000', '\ufeff'] || ('\u2000' ≤ c && c ≤ '\u200a')

/-- `trim`. -/
def trim (s : List Char) : List Char :=
  ((s.dropWhile isBlank).reverse.dropWhile isBlank).reverse

/-- `replace(/^ /, "")`. -/
def dropBlank : List Char → List Char
  | ' ' :: s => s
  | s => s

/-- One turn of the loop over the lines of a block: the type and the data so far. -/
def readLine (p : List Char × List (List Char)) (line : List Char) :
    List Char × List (List Char) :=
  let event := if "event:".toList.isPrefixOf line then trim (line.drop 6) else p.1
  let data := if "data:".toList.isPrefixOf line then p.2 ++ [dropBlank (line.drop 5)] else p.2
  (event, data)

/-- **`parseSseBlock`**: the event of a block, if it has data. -/
def parseSseBlock (block : List Char) : Option ChatEvent :=
  let lines := (lineBreak.split block).1 ++ [(lineBreak.split block).2]
  let p := lines.foldl readLine ("message".toList, [])
  if p.2 = [] then none else some ⟨.ofList p.1, ['\n'].intercalate p.2⟩

/-- What the handlers are called with, and the message with which the reading fails. -/
structure StreamResult where
  events : List ChatEvent := []
  tokens : List (List Char) := []
  error : Option (List Char) := none
  deriving DecidableEq, Repr

/-- The loop over the blocks of a text. -/
def report : List (List Char) → StreamResult
  | [] => {}
  | block :: blocks =>
    match parseSseBlock block with
    | none => report blocks
    | some e =>
      let tokens := if e.event = "message" then [e.data] else []
      if e.event = "error" then
        { events := [e]
          tokens
          error := some (if e.data = [] then "流式响应失败".toList else e.data) }
      else
        let r := report blocks
        { events := e :: r.events, tokens := tokens ++ r.tokens, error := r.error }

/-- A text after another one, unless that has ended the reading. -/
def StreamResult.andThen (r s : StreamResult) : StreamResult :=
  if r.error.isSome then r
  else { events := r.events ++ s.events, tokens := r.tokens ++ s.tokens, error := s.error }

/-- The loop over the chunks, with what is left of the text before. -/
def readChunks (D : TextDecoder) (s : D.State) (buffer : List Char) :
    List (List UInt8) → StreamResult
  | [] => report (blankLine.split (buffer ++ (D.decode s [] false).2)).1
  | chunk :: chunks =>
    let r := D.decode s chunk true
    (report (blankLine.split (buffer ++ r.2)).1).andThen
      (readChunks D r.1 (blankLine.split (buffer ++ r.2)).2 chunks)

/-- **The reading of `sendAgentChatStream`.** -/
def sendAgentChatStream (D : TextDecoder) (chunks : List (List UInt8)) : StreamResult :=
  readChunks D D.fresh [] chunks

/-! ### Chunks do not matter -/

theorem andThen_report (xs ys : List (List Char)) :
    (report xs).andThen (report ys) = report (xs ++ ys) := by
  induction xs with
  | nil => rfl
  | cons block xs ih =>
    rw [List.cons_append, report, report]
    cases parseSseBlock block with
    | none => exact ih
    | some e =>
      dsimp only
      split
      · rfl
      · rw [← ih]
        simp only [StreamResult.andThen]
        split <;> simp

/-- **The loop over the chunks reports the blocks of the whole text.** -/
theorem readChunks_eq (D : TextDecoder) (s : D.State) (buffer : List Char)
    (chunks : List (List UInt8)) :
    readChunks D s buffer chunks =
      report (blankLine.split (buffer ++ (decodeAll D.decode s chunks).flatten)).1 := by
  induction chunks generalizing s buffer with
  | nil =>
    rw [readChunks, decodeAll, List.flatten_cons, List.flatten_nil, List.append_nil]
  | cons chunk chunks ih =>
    rw [readChunks, decodeAll, List.flatten_cons, ih, andThen_report, ← List.append_assoc,
      blankLine.split_append (buffer ++ (D.decode s chunk true).2)]

/-! ### What is reported of an event -/

/-- An event as it is reported: with the data, except for the carriage returns that are lost. -/
def SentEvent.received (e : SentEvent) : ChatEvent := ⟨e.eventType.name, dropReturns e.data⟩

/-- The events up to the first error, and with it. -/
def untilError : List SentEvent → List SentEvent
  | [] => []
  | e :: events => if e.eventType = .error then [e] else e :: untilError events

/-- A line with data is read as such. -/
theorem readLine_data (p : List Char × List (List Char)) (line : List Char) :
    readLine p ("data: ".toList ++ line) = (p.1, p.2 ++ [line]) := rfl

theorem foldl_readLine_data (p : List Char × List (List Char)) (lines : List (List Char)) :
    (lines.map fun line => "data: ".toList ++ line).foldl readLine p = (p.1, p.2 ++ lines) := by
  induction lines generalizing p with
  | nil => rw [List.map_nil, List.foldl_nil, List.append_nil]
  | cons line lines ih =>
    rw [List.map_cons, List.foldl_cons, readLine_data, ih, List.append_assoc, List.singleton_append]

/-- The line with the type is read as such. -/
theorem readLine_event (p : List Char × List (List Char)) (t : EventType) :
    readLine p (dropReturn ("event: " ++ t.name).toList) = (t.name.toList, p.2) := by
  cases t <;> rfl

/-- The line with the id is passed over. -/
theorem readLine_id (p : List Char × List (List Char)) (id : String) :
    readLine p (dropReturn ("id: " ++ id).toList) = p := by
  have hid : dropReturn ("id: " ++ id).toList = "id:".toList ++ dropReturn (' ' :: id.toList) := by
    rw [String.toList_append]
    exact dropReturn_append_cons "id:".toList (by decide) id.toList
  rw [hid]
  rfl

/-- **The block of an event is read back.** -/
theorem parseSseBlock_body (e : SentEvent) : parseSseBlock (body e.lines) = some e.received := by
  have hplain : ∀ line ∈ e.lines, '\n' ∉ line := fun line hline =>
    (e.plain_of_mem_lines hline).newline
  have hdata : ((e.data.splitOn '\n').map fun line => "data: ".toList ++ line).map dropReturn =
      ((e.data.splitOn '\n').map dropReturn).map fun line => "data: ".toList ++ line := by
    rw [List.map_map, List.map_map]
    refine List.map_congr_left fun line _ => ?_
    exact dropReturn_append_cons "data:".toList (c := ' ') (by decide) line
  have hne : (e.data.splitOn '\n').map dropReturn ≠ [] := by simp
  rw [parseSseBlock, split_body e.lines_ne_nil hplain, SentEvent.lines, List.map_cons,
    List.map_cons, hdata, List.foldl_cons, List.foldl_cons, readLine_id, readLine_event,
    foldl_readLine_data]
  dsimp only
  rw [List.nil_append, if_neg hne, intercalate_dropReturn, String.ofList_toList]
  rfl

theorem name_eq_iff (t u : EventType) : t.name = u.name ↔ t = u := by
  cases t <;> cases u <;> decide

/-- A stream begins with the id of an event. -/
theorem head?_stream (events : List SentEvent) :
    (events.flatMap SentEvent.sendToClient).head? ≠ some '\ufeff' := by
  cases events with
  | nil => decide
  | cons e events =>
    have hhead : ((e :: events).flatMap SentEvent.sendToClient).head? = some 'i' := by
      rw [List.flatMap_cons, SentEvent.sendToClient, SentEvent.lines, List.flatMap_cons,
        String.toList_append]
      rfl
    rw [hhead]
    decide

/-- The data of the messages among some events. -/
def messages (events : List SentEvent) : List (List Char) :=
  (events.filter (·.eventType = .message)).map (dropReturns ·.data)

/-- The messages of an event before others. -/
theorem messages_cons (e : SentEvent) (events : List SentEvent) :
    messages (e :: events) =
      (if e.received.event = "message" then [e.received.data] else []) ++ messages events := by
  have hname : e.received.event = "message" ↔ e.eventType = .message :=
    name_eq_iff e.eventType .message
  by_cases h : e.eventType = .message
  · rw [if_pos (hname.mpr h), messages, List.filter_cons_of_pos (by simpa using h)]
    rfl
  · rw [if_neg (mt hname.mp h), messages, List.filter_cons_of_neg (by simpa using h)]
    rfl

/-- **The blocks of the events that are sent** are reported up to the first error. -/
theorem report_body (events : List SentEvent) :
    (report (events.map fun e => body e.lines)).events =
        (untilError events).map SentEvent.received ∧
      (report (events.map fun e => body e.lines)).tokens = messages (untilError events) := by
  induction events with
  | nil => exact ⟨rfl, rfl⟩
  | cons e events ih =>
    obtain ⟨hevents, htokens⟩ := ih
    have hname : e.received.event = "error" ↔ e.eventType = .error :=
      name_eq_iff e.eventType .error
    rw [List.map_cons, report, parseSseBlock_body, untilError]
    dsimp only
    by_cases h : e.eventType = .error
    · rw [if_pos (hname.mpr h), if_pos h, messages_cons]
      exact ⟨rfl, (List.append_nil _).symm⟩
    · rw [if_neg (mt hname.mp h), if_neg h, messages_cons]
      exact ⟨congrArg _ hevents, congrArg _ htokens⟩

/-- An answer of two lines, with an error behind it. -/
def brokenAnswer : List SentEvent :=
  [⟨7, .message, "负\r\n data: \r".toList⟩, ⟨8, .error, []⟩, ⟨9, .done, []⟩]

/-- **Events are read as they have been sent.** Whatever the data of the events, and wherever
the chunks end in which the bytes arrive, exactly the events are reported that have been sent, in
their order and up to the first error, each with its data except for one carriage return before
each line feed and one at the end. The messages among them are the tokens. -/
theorem sse_round_trip (D : TextDecoder) (events : List SentEvent) (chunks : List (List UInt8))
    (hchunks : chunks.flatten = utf8 (events.flatMap SentEvent.sendToClient)) :
    (sendAgentChatStream D chunks).events = (untilError events).map SentEvent.received ∧
      (sendAgentChatStream D chunks).tokens = messages (untilError events) := by
  have htext := D.reassembles (events.flatMap SentEvent.sendToClient) chunks
    (head?_stream events) hchunks
  rw [sendAgentChatStream, readChunks_eq, htext, List.nil_append, split_stream]
  exact report_body events

/-- An answer of two lines with an error behind it, read in two chunks of which the first one ends
in the middle of a character. -/
theorem sse_round_trip_halves :
    (sendAgentChatStream pendingDecoder
        [(utf8 (brokenAnswer.flatMap SentEvent.sendToClient)).take 28,
          (utf8 (brokenAnswer.flatMap SentEvent.sendToClient)).drop 28]).events =
        [⟨"message", "负\n data: ".toList⟩, ⟨"error", []⟩] ∧
      (sendAgentChatStream pendingDecoder
        [(utf8 (brokenAnswer.flatMap SentEvent.sendToClient)).take 28,
          (utf8 (brokenAnswer.flatMap SentEvent.sendToClient)).drop 28]).tokens =
        ["负\n data: ".toList] :=
  sse_round_trip pendingDecoder brokenAnswer
    [(utf8 (brokenAnswer.flatMap SentEvent.sendToClient)).take 28,
      (utf8 (brokenAnswer.flatMap SentEvent.sendToClient)).drop 28] (by simp)

end MonitorSystem
