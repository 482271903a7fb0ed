import MonitorSystem.Agent.Patterns
import Mathlib.Data.Rat.Defs

/-!
# The extraction of memories by a model

`LLMExtractor.Extract` sends the messages of a session to a model and takes memories from its
answer (`agent_service/internal/session/memory/llm_extractor.go`, with the filters of
`extractor.go`). A message is tested as it stands and sent in another form: without a request to
remember it in front and without the spaces around it.

The patterns of the filters have no anchor, and none of their matches begins or ends with a space
(`begins_and_ends`). What is sent is a part of what was tested, so that no pattern is found in it
either, and none is found in what is returned (`extract_harmless`).

What `encoding/json` and `time.Parse` make of a text are parameters, as is the model.
-/

namespace MonitorSystem

open Pattern

/-! ### Messages and candidates -/

/-- `schema.RoleType`. -/
inductive RoleType where
  | assistant
  | user
  | system
  | tool
  deriving DecidableEq, Repr

/-- `schema.Message`, less what the extraction does not read. -/
structure SchemaMessage where
  role : RoleType
  content : String
  deriving DecidableEq, Repr

/-- `schema.UserMessage`. -/
def userMessage (content : String) : SchemaMessage := ⟨.user, content⟩

/-- `llmCandidate`: a candidate as the model writes it. -/
structure LlmCandidate where
  type : String := ""
  content : String := ""
  scopeLevel : String := ""
  confidence : ℚ := 0
  reason : String := ""
  expiresAt : String := ""
  sensitivity : String := ""
  shouldStore : Bool := false
  deriving DecidableEq, Repr

/-- `MemoryCandidate`. -/
structure MemoryCandidate where
  type : String
  content : String
  scopeLevel : ScopeLevel
  confidence : ℚ
  reason : String
  expiresAt : Option ℤ
  sensitivity : String
  shouldStore : Bool
  deriving DecidableEq, Repr

/-- The conversion `ScopeLevel(s)`. -/
def scopeLevelOfText (s : String) : ScopeLevel :=
  if s = "global" then .global
  else if s = "tenant" then .tenant
  else if s = "team" then .team
  else if s = "cluster" then .cluster
  else .other s

/-! ### The filters -/

/-- `volatilePatterns`. -/
def volatilePatterns : List Pattern :=
  [words ["当前", "现在", "刚刚", "临时", "这次", "本次", "实时"],
    seq (plus Char.isDigit) (seq (alt (seq (one fun c => c = '.') (plus Char.isDigit)) empty)
      (seq (many space) (literals ["%", "ms", "s", "秒", "分钟", "qps", "tps"])))]

/-- The words of which `looksDurable` wants one. -/
def durableTriggers : List String :=
  ["记住", "以后", "长期", "固定", "偏好", "约定", "确认", "总是", "默认", "集群", "哨兵", "拓扑", "流程"]

/-- `looksDurable`. -/
def looksDurable (content : String) : Bool :=
  if (trimSpace content).toList.length < 8 then false
  else durableTriggers.any fun trigger => containsText (trimSpace content) trigger

/-- `isSafeCandidate`. -/
def isSafeCandidate (candidate : MemoryCandidate) : Bool :=
  if !isSafeLongTermContent candidate.content then false
  else if equalFold candidate.sensitivity "high" then false
  else volatilePatterns.all fun p => !p.matchString candidate.content

/-- `isSafeMessageForExtraction`. -/
def isSafeMessageForExtraction : Option SchemaMessage → Bool
  | none => false
  | some msg =>
    if trimSpace msg.content = "" then false
    else if msg.role ≠ .user then false
    else if !looksDurable (trimSpace msg.content) then false
    else if !isSafeLongTermContent (trimSpace msg.content) then false
    else volatilePatterns.all fun p => !p.matchString (trimSpace msg.content)

/-- `normalizeMemoryContent`. -/
def normalizeMemoryContent (content : String) : String :=
  trimSpace (["请记住：", "请记住:", "记住：", "记住:"].foldl trimPrefix (trimSpace content))

/-- `filterMessagesForExtraction`. -/
def filterMessagesForExtraction (messages : List (Option SchemaMessage)) :
    List (Option SchemaMessage) :=
  messages.filterMap fun msg =>
    if isSafeMessageForExtraction msg then
      msg.map fun m => some (userMessage (normalizeMemoryContent m.content))
    else none

/-! ### The prompt and the answer -/

/-- The lines of the prompt before the conversation. -/
def extractorHeader (scope : MemoryScope) : List String :=
  ["你是 agent_service 的长期记忆抽取器。只输出 JSON，不要输出解释。",
    "只保存稳定、可复用、非敏感的信息：偏好、环境约定、集群拓扑、已确认事故结论、团队流程。",
    "禁止保存：密码、token、一次性排障中间状态、未确认猜测、实时指标值。",
    "输入内容已经过本地安全过滤；如果候选仍包含敏感信息或不稳定信息，必须 should_store=false。",
    "JSON schema: \x7b\"candidates\":[\x7b\"type\":\"preference|cluster_knowledge|" ++
      "incident_note|team_note\",\"content\":\"...\",\"scope_level\":\"team|cluster\"," ++
      "\"confidence\":0.0,\"reason\":\"...\",\"expires_at\":null," ++
      "\"sensitivity\":\"low|medium|high\",\"should_store\":true\x7d]\x7d。",
    "当前作用域: tenant=" ++ scope.tenantId ++ " team=" ++ scope.teamId ++ " cluster=" ++
      scope.clusterId ++ " user=" ++ scope.userId ++ " session=" ++ scope.sessionId,
    "对话内容:"]

/-- The line of a message in the prompt. -/
def promptLine (msg : SchemaMessage) : String :=
  (if msg.role = .user then "user" else "assistant") ++ ": " ++ msg.content

/-- `buildExtractorPrompt`. -/
def buildExtractorPrompt (scope : MemoryScope) (messages : List (Option SchemaMessage)) : String :=
  "\n".intercalate (extractorHeader scope ++ messages.filterMap fun msg =>
    (msg.filter fun m => trimSpace m.content ≠ "").map promptLine)

/-- The place of the last character of a kind. -/
def lastIdx? (p : Char → Bool) (l : List Char) : Option ℕ :=
  (l.reverse.findIdx? p).map fun i => l.length - 1 - i

/-- `extractJSONObject`. -/
def extractJSONObject (raw : String) : String :=
  let l := (trimSpace raw).toList
  match l.findIdx? (· = '\x7b'), lastIdx? (· = '\x7d') l with
  | some start, some stop =>
    if start ≤ stop then .ofList ((l.take (stop + 1)).drop start) else trimSpace raw
  | _, _ => trimSpace raw

/-- What the libraries make of the texts of an answer. -/
structure Decoding where
  unmarshal : String → Except String (List LlmCandidate)
  parseTime : String → Option ℤ

/-- The candidate that the model has written. -/
def candidateOf (decoding : Decoding) (item : LlmCandidate) : MemoryCandidate where
  type := trimSpace item.type
  content := trimSpace item.content
  scopeLevel := scopeLevelOfText (trimSpace item.scopeLevel)
  confidence := item.confidence
  reason := trimSpace item.reason
  expiresAt :=
    if trimSpace item.expiresAt ≠ "" then decoding.parseTime (trimSpace item.expiresAt) else none
  sensitivity := trimSpace item.sensitivity
  shouldStore := item.shouldStore

/-- The candidates of an answer that may be kept. -/
def acceptedCandidates (decoding : Decoding) (items : List LlmCandidate) : List MemoryCandidate :=
  (items.map (candidateOf decoding)).filter fun c => c.shouldStore && isSafeCandidate c

/-- **`Extract`**: the prompts that are sent to the model, and the result. The model is nil if the
extractor has none. -/
def extract (model : Option (String → Except String String)) (decoding : Decoding)
    (scope : MemoryScope) (messages : List (Option SchemaMessage)) :
    List String × Except String (List MemoryCandidate) :=
  match model with
  | none => ([], .error "LLM 记忆抽取器未配置")
  | some generate =>
    let safeMessages := filterMessagesForExtraction messages
    if safeMessages = [] then ([], .ok [])
    else
      let prompt := buildExtractorPrompt scope safeMessages
      ([prompt], do
        let raw ← generate prompt
        let items ← decoding.unmarshal (extractJSONObject raw)
        .ok (acceptedCandidates decoding items))

/-! ### What the filters let through -/

/-- **No pattern of the filters is in the text.** -/
def Harmless (content : String) : Prop :=
  ∀ p ∈ sensitivePatterns ++ volatilePatterns, p.matchString content = false

theorem Harmless.of_part {s t : String} (h : Harmless t) (hpart : s.toList <:+: t.toList) :
    Harmless s := by
  intro p hp
  rw [← Bool.not_eq_true]
  intro hs
  have ht := matchString_of_part hpart hs
  rw [h p hp] at ht
  cases ht

theorem nonspace_of_isDigit {c : Char} (h : c.isDigit) : nonspace c := by
  obtain ⟨hlow, hhigh⟩ := Bool.and_eq_true_iff.mp h
  have hrange : 48 ≤ c.toNat ∧ c.toNat ≤ 57 :=
    ⟨UInt32.le_iff_toNat_le.mp (of_decide_eq_true hlow),
      UInt32.le_iff_toNat_le.mp (of_decide_eq_true hhigh)⟩
  exact nonspace_of_range (by omega) (by omega)

theorem nonspace_of_isLower {c : Char} (h : c.isLower) : nonspace c := by
  obtain ⟨hlow, hhigh⟩ := Bool.and_eq_true_iff.mp h
  have hrange : 97 ≤ c.toNat ∧ c.toNat ≤ 122 :=
    ⟨UInt32.le_iff_toNat_le.mp (of_decide_eq_true hlow),
      UInt32.le_iff_toNat_le.mp (of_decide_eq_true hhigh)⟩
  exact nonspace_of_range (by omega) (by omega)

theorem nonspace_of_isAlnumFold {c : Char} (h : isAlnumFold c) : nonspace c := by
  rw [nonspace, ← isSpace_foldChar]
  rcases Bool.or_eq_true_iff.mp h with h | h
  · exact nonspace_of_isLower h
  · exact nonspace_of_isDigit h

/-- A letter, a digit or one of some other characters. -/
theorem nonspace_of_isAlnumFold_or (others : List Char) (hothers : others.all nonspace)
    (c : Char) (h : isAlnumFold c || decide (c ∈ others)) : nonspace c := by
  rcases Bool.or_eq_true_iff.mp h with h | h
  · exact nonspace_of_isAlnumFold h
  · exact List.all_eq_true.mp hothers c (of_decide_eq_true h)

/-- **The matches of the patterns neither begin nor end with a space.** -/
theorem begins_and_ends :
    ∀ p ∈ sensitivePatterns ++ volatilePatterns, Begins nonspace p ∧ Ends nonspace p := by
  have hmarks : ∀ marks : List Char, marks.all nonspace →
      Ends nonspace (one fun c => c ∈ marks) := fun marks hmarks =>
    ends_one fun c hc => List.all_eq_true.mp hmarks c (of_decide_eq_true hc)
  refine List.forall_mem_append.mpr ⟨List.forall_mem_cons.mpr ⟨?_, List.forall_mem_cons.mpr ⟨?_,
    List.forall_mem_cons.mpr ⟨?_, List.forall_mem_singleton.mpr ?_⟩⟩⟩,
    List.forall_mem_cons.mpr ⟨?_, List.forall_mem_singleton.mpr ?_⟩⟩
  · exact ⟨(solid_words (by decide)).begins.seq, (hmarks [':', '='] (by decide)).seq.seq⟩
  · exact ⟨(solid_word (by decide)).begins.seq,
      (ends_plus (nonspace_of_isAlnumFold_or ['.', '_', '-'] (by decide))).seq.seq⟩
  · exact ⟨(solid_word (by decide)).begins.seq,
      (ends_plus (nonspace_of_isAlnumFold_or ['_', '-'] (by decide))).seq⟩
  · exact ⟨(solid_words (by decide)).begins.seq, (hmarks [':', '：'] (by decide)).seq.seq⟩
  · exact ⟨(solid_words (by decide)).begins, (solid_words (by decide)).ends⟩
  · exact ⟨(begins_one (r := Char.isDigit) fun c => nonspace_of_isDigit).seq.seq,
      (solid_literals (by decide)).ends.seq.seq.seq⟩

/-- The spaces around a text play no part. -/
theorem harmless_trimSpace_iff {s : String} : Harmless (trimSpace s) ↔ Harmless s := by
  refine forall₂_congr fun p hp => ?_
  rw [matchString_trimSpace (begins_and_ends p hp).1 (begins_and_ends p hp).2]

/-- What `isSafeLongTermContent` and the test for volatile texts accept together. -/
theorem harmless_of_safe {content : String} (hsafe : isSafeLongTermContent content)
    (hvolatile : volatilePatterns.all fun p => !p.matchString content) : Harmless content := by
  intro p hp
  rcases List.mem_append.mp hp with hsensitive | hmem
  · rw [← matchString_trimSpace (begins_and_ends p hp).1 (begins_and_ends p hp).2]
    simpa using List.all_eq_true.mp (Bool.and_eq_true_iff.mp hsafe).2 p hsensitive
  · simpa using List.all_eq_true.mp hvolatile p hmem

/-- **What the filter of the messages accepts.** -/
theorem harmless_of_isSafeMessage {m : SchemaMessage} (h : isSafeMessageForExtraction (some m)) :
    m.role = .user ∧ Harmless m.content := by
  simp only [isSafeMessageForExtraction] at h
  split at h
  · cases h
  split at h
  · cases h
  next hrole =>
  split at h
  · cases h
  split at h
  · cases h
  next hsafe =>
  rw [Bool.not_eq_true', Bool.not_eq_false] at hsafe
  exact ⟨not_not.mp hrole, harmless_trimSpace_iff.mp (harmless_of_safe hsafe h)⟩

/-- **What the filter of the candidates accepts.** -/
theorem harmless_of_isSafeCandidate {c : MemoryCandidate} (h : isSafeCandidate c) :
    equalFold c.sensitivity "high" = false ∧ Harmless c.content := by
  unfold isSafeCandidate at h
  split at h
  · cases h
  next hsafe =>
  split at h
  · cases h
  next hhigh =>
  rw [Bool.not_eq_true', Bool.not_eq_false] at hsafe
  exact ⟨Bool.not_eq_true _ ▸ hhigh, harmless_of_safe hsafe h⟩

/-! ### What is sent is a part of what was tested -/

theorem trimPrefix_part (s pre : String) : (trimPrefix s pre).toList <:+: s.toList := by
  unfold trimPrefix
  split
  · rw [String.toList_ofList]
    exact (List.drop_suffix _ _).isInfix
  · exact List.infix_rfl

theorem normalizeMemoryContent_part (content : String) :
    (normalizeMemoryContent content).toList <:+: content.toList := by
  have hfold : ∀ (prefixes : List String) (s : String),
      (prefixes.foldl trimPrefix s).toList <:+: s.toList := by
    intro prefixes
    induction prefixes with
    | nil => exact fun s => List.infix_rfl
    | cons pre prefixes ih => exact fun s => (ih _).trans (trimPrefix_part s pre)
  exact (trimSpace_part _).trans ((hfold _ _).trans (trimSpace_part _))

/-- **What is left of the messages.** -/
theorem mem_filterMessages {messages : List (Option SchemaMessage)} {msg : Option SchemaMessage}
    (h : msg ∈ filterMessagesForExtraction messages) :
    ∃ m, some m ∈ messages ∧ m.role = .user ∧ Harmless m.content ∧
      msg = some (userMessage (normalizeMemoryContent m.content)) := by
  obtain ⟨original, hmem, hmsg⟩ := List.mem_filterMap.mp h
  split at hmsg
  · next hsafe =>
    obtain ⟨m, rfl, rfl⟩ := Option.map_eq_some_iff.mp hmsg
    exact ⟨m, hmem, (harmless_of_isSafeMessage hsafe).1, (harmless_of_isSafeMessage hsafe).2, rfl⟩
  · cases hmsg

/-- **The conversation in a prompt** consists of lines of the user, with harmless contents. -/
theorem buildExtractorPrompt_filtered (scope : MemoryScope)
    (messages : List (Option SchemaMessage)) :
    ∃ contents : List String,
      buildExtractorPrompt scope (filterMessagesForExtraction messages) =
          "\n".intercalate (extractorHeader scope ++ contents.map fun c => "user: " ++ c) ∧
        ∀ c ∈ contents, Harmless c ∧ ∃ m, some m ∈ messages ∧ m.role = .user ∧
          Harmless m.content ∧ c = normalizeMemoryContent m.content := by
  have hlines : ∀ l : List (Option SchemaMessage),
      (∀ msg ∈ l, ∃ m, some m ∈ messages ∧ m.role = .user ∧ Harmless m.content ∧
        msg = some (userMessage (normalizeMemoryContent m.content))) →
      ∃ contents : List String,
        (l.filterMap fun msg => (msg.filter fun m => trimSpace m.content ≠ "").map promptLine) =
            contents.map (fun c => "user: " ++ c) ∧
          ∀ c ∈ contents, Harmless c ∧ ∃ m, some m ∈ messages ∧ m.role = .user ∧
            Harmless m.content ∧ c = normalizeMemoryContent m.content := by
    intro l hl
    induction l with
    | nil => exact ⟨[], rfl, by simp⟩
    | cons msg l ih =>
      obtain ⟨hmsg, hl⟩ := List.forall_mem_cons.mp hl
      obtain ⟨contents, heq, hcontents⟩ := ih hl
      obtain ⟨m, hm, hrole, hharmless, rfl⟩ := hmsg
      by_cases hblank : trimSpace (normalizeMemoryContent m.content) = ""
      · refine ⟨contents, ?_, hcontents⟩
        simpa [userMessage, hblank] using heq
      · refine ⟨normalizeMemoryContent m.content :: contents, ?_, List.forall_mem_cons.mpr
          ⟨⟨hharmless.of_part (normalizeMemoryContent_part _), m, hm, hrole, hharmless, rfl⟩,
            hcontents⟩⟩
        simpa [userMessage, hblank, promptLine] using heq
  obtain ⟨contents, heq, hcontents⟩ := hlines _ fun msg hmsg => mem_filterMessages hmsg
  exact ⟨contents, by rw [buildExtractorPrompt, heq], hcontents⟩

theorem mem_acceptedCandidates {decoding : Decoding} {items : List LlmCandidate}
    {c : MemoryCandidate} (h : c ∈ acceptedCandidates decoding items) :
    c.shouldStore = true ∧ equalFold c.sensitivity "high" = false ∧ Harmless c.content := by
  obtain ⟨-, hc⟩ := List.mem_filter.mp h
  obtain ⟨hstore, hsafe⟩ := Bool.and_eq_true_iff.mp hc
  exact ⟨hstore, harmless_of_isSafeCandidate hsafe⟩

/-- **What a call of `Extract` may come to**: without a model, or without a message that may be
sent, nothing is sent; otherwise one prompt is, and the candidates are those of the answer. -/
theorem extract_cases (model : Option (String → Except String String)) (decoding : Decoding)
    (scope : MemoryScope) (messages : List (Option SchemaMessage)) :
    ((extract model decoding scope messages).1 = [] ∧
        ∀ candidates, (extract model decoding scope messages).2 = .ok candidates →
          candidates = []) ∨
      (extract model decoding scope messages).1 =
          [buildExtractorPrompt scope (filterMessagesForExtraction messages)] ∧
        ∀ candidates, (extract model decoding scope messages).2 = .ok candidates →
          ∃ items, candidates = acceptedCandidates decoding items := by
  unfold extract
  cases model with
  | none => exact .inl ⟨rfl, fun candidates h => by cases h⟩
  | some generate =>
    simp only
    split
    · exact .inl ⟨rfl, fun candidates h => (Except.ok.inj h).symm⟩
    · refine .inr ⟨rfl, fun candidates h => ?_⟩
      cases hraw : generate (buildExtractorPrompt scope (filterMessagesForExtraction messages)) with
      | error e =>
        rw [hraw] at h
        cases h
      | ok raw =>
        rw [hraw] at h
        cases hitems : decoding.unmarshal (extractJSONObject raw) with
        | error e =>
          change (decoding.unmarshal (extractJSONObject raw) >>= _) = _ at h
          rw [hitems] at h
          cases h
        | ok items =>
          change (decoding.unmarshal (extractJSONObject raw) >>= _) = _ at h
          rw [hitems] at h
          exact ⟨items, (Except.ok.inj h).symm⟩

/-- **What `Extract` sends and what it returns is harmless**, for all messages, every model and
every answer. A prompt carries, after its fixed lines, contents of messages of users only, in which
no pattern is found, neither before nor after they are rewritten; and a candidate that is returned
is to be stored, is not of high sensitivity, and no pattern is found in its content. -/
theorem extract_harmless (model : Option (String → Except String String)) (decoding : Decoding)
    (scope : MemoryScope) (messages : List (Option SchemaMessage)) :
    (∀ prompt ∈ (extract model decoding scope messages).1, ∃ contents : List String,
        prompt = "\n".intercalate (extractorHeader scope ++ contents.map fun c => "user: " ++ c) ∧
          ∀ c ∈ contents, Harmless c ∧ ∃ m, some m ∈ messages ∧ m.role = .user ∧
            Harmless m.content ∧ c = normalizeMemoryContent m.content) ∧
      ∀ candidates, (extract model decoding scope messages).2 = .ok candidates →
        ∀ c ∈ candidates, c.shouldStore = true ∧ equalFold c.sensitivity "high" = false ∧
          Harmless c.content := by
  rcases extract_cases model decoding scope messages with ⟨hsent, hresult⟩ | ⟨hsent, hresult⟩
  · rw [hsent]
    refine ⟨by simp, fun candidates h c hc => ?_⟩
    rw [hresult candidates h] at hc
    cases hc
  · rw [hsent]
    refine ⟨?_, fun candidates h c hc => ?_⟩
    · rintro prompt hprompt
      obtain rfl := List.mem_singleton.mp hprompt
      exact buildExtractorPrompt_filtered scope messages
    · obtain ⟨items, rfl⟩ := hresult candidates h
      exact mem_acceptedCandidates hc

end MonitorSystem
