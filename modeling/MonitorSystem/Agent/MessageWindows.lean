import MonitorSystem.Agent.ChatHandler
import MonitorSystem.Agent.Turns
import MonitorSystem.Library.Windows

/-!
# The windows of a session

`AppendTurn` keeps the last messages of a session, as many as the policy's `RecentWindow`, and
then makes a summary of the last ones of those it has kept, as many as its `SummaryWindow`
(`agent_service/internal/session/memory/in_memory.go`). `LoadContext` returns the last messages
once more cut to `RecentWindow`.

The recent messages are therefore the last ones of all that were ever appended
(`recentMessages_run`), however often the session has been cut. The summary is not made of the
last messages of all, but of those that the other window has left: it is what its own settings
say exactly where the other window is not the narrower one, or where this cannot be seen
(`summary_window_iff`). With the settings of `DefaultConfig` it is the narrower one.
-/

namespace MonitorSystem

open InMemoryStore Turns

/-! ### Calls on one session among others -/

namespace ManagerCall

/-- The scope of the session that a call works on. -/
def sessionScope : ManagerCall → Option MemoryScope
  | .loadContext scope _ | .appendTurn scope _ _ | .summarizeSession scope
  | .extractDurableMemories scope => some scope
  | .setPolicy _ _ _ | .listMemories _ | .deleteMemories _ | .retryDeletingMemories _ => none

/-- The messages that a call appends to the session of a scope. -/
def appends (o : MemoryScope) : ManagerCall → List Message
  | .appendTurn scope u a => if scope.sessionKey = o.sessionKey then turnMessages u a else []
  | _ => []

end ManagerCall

/-- The messages that some calls append to the session of a scope. -/
def appendedMessages (o : MemoryScope) (calls : List (ManagerCall × Env)) : List Message :=
  calls.flatMap fun c => c.1.appends o

namespace InMemoryStore

/-- The messages of the session of a scope. -/
def messagesOf (store : InMemoryStore) (o : MemoryScope) : List Message :=
  ((store.sessions o.sessionKey).map (·.messages)).getD []

/-- Its summary. -/
def summaryOf (store : InMemoryStore) (o : MemoryScope) : String :=
  ((store.sessions o.sessionKey).map (·.summary)).getD ""

end InMemoryStore

/-- The policy of a scope. -/
def policyOf (cfg : MemoryConfig) (o : MemoryScope) (store : InMemoryStore) : EffectivePolicy :=
  resolvePolicy store.getPolicy cfg o.normalized

/-- **A turn of the session of a scope under a policy**, which ends without an error, **or a call
on a session with another key**, or one on no session at all. -/
def Interleaves (cfg : MemoryConfig) (o : MemoryScope) (policy : EffectivePolicy)
    (store : InMemoryStore) (call : ManagerCall × Env) : Prop :=
  (∃ scope u a, call.1 = .appendTurn scope u a ∧ scope.sessionKey = o.sessionKey ∧
      (appendTurn cfg store scope u a call.2.now).2 = .ok () ∧ policyOf cfg scope store = policy) ∨
    ∀ scope ∈ call.1.sessionScope, scope.sessionKey ≠ o.sessionKey

section Steps

variable {cfg : MemoryConfig} {o : MemoryScope} {s t : InMemoryStore}

theorem sessionAt_messages (now : ℤ) : (s.sessionAt o now).messages = s.messagesOf o := by
  unfold sessionAt messagesOf
  cases s.sessions o.sessionKey <;> rfl

theorem sessionAt_summary (now : ℤ) : (s.sessionAt o now).summary = s.summaryOf o := by
  unfold sessionAt summaryOf
  cases s.sessions o.sessionKey <;> rfl

theorem sessions_markLongTermStatus {id : String} {status : LongTermStatus} {now : ℤ}
    (h : s.markLongTermStatus id status now = .ok t) : t.sessions = s.sessions := by
  unfold markLongTermStatus at h
  split at h
  · cases h
  · obtain rfl := Except.ok.inj h
    rfl

theorem sessions_deleteMemories (selector : MemorySelector) (env : Env) :
    (deleteMemories s selector env).1.sessions = s.sessions :=
  deleteMemories_induct (P := fun u => u.sessions = s.sessions)
    (fun _ _ _ _ _ _ _ hu hmark => (sessions_markLongTermStatus hmark).trans hu)
    (fun _ k event hu => (putMemories_recordEvent env k event).sessions.trans hu) rfl

theorem sessions_retryDeletingMemories (selector : MemorySelector) (env : Env) :
    (retryDeletingMemories s selector env).1.sessions = s.sessions := by
  unfold retryDeletingMemories
  split
  · rfl
  · split
    · rfl
    · split
      · rfl
      · exact markDeleted_induct (P := fun u => u.sessions = s.sessions)
          (fun _ _ _ _ _ hu hmark => (sessions_markLongTermStatus hmark).trans hu)
          (fun _ k event hu => (putMemories_recordEvent env k event).sessions.trans hu) _ _ _ rfl

theorem sessions_extractDurableMemories (scope : MemoryScope) (env : Env) :
    (extractDurableMemories cfg s scope env).1.sessions = s.sessions := by
  cases hv : validateSessionScope scope with
  | error e =>
    unfold extractDurableMemories
    rw [validateSessionScope_normalized, hv]
  | ok _ => exact (putMemories_extract cfg s hv env).sessions

/-- **What a call on another session, or on none, leaves alone.** -/
theorem sessions_step_other {call : ManagerCall × Env}
    (hother : ∀ scope ∈ call.1.sessionScope, scope.sessionKey ≠ o.sessionKey)
    (hstep : ManagerCall.step cfg s call = some t) :
    t.sessions o.sessionKey = s.sessions o.sessionKey := by
  obtain ⟨call, env⟩ := call
  cases call with
  | loadContext scope query =>
    obtain rfl := Option.some.inj hstep
    rfl
  | appendTurn scope u a =>
    have hne := hother scope rfl
    obtain rfl := Option.some.inj hstep
    cases hv : validateSessionScope scope with
    | error e => rw [appendTurn_refused hv]
    | ok _ =>
      obtain ⟨store', heq, hchanged⟩ := appendTurn_eq cfg s hv u a env.now
      rw [heq, hchanged.sessions, Function.update_of_ne hne.symm]
  | summarizeSession scope =>
    have hne := hother scope rfl
    obtain rfl := Option.some.inj hstep
    cases hv : validateSessionScope scope with
    | error e => rw [summarizeSession_refused hv]
    | ok _ =>
      obtain ⟨store', heq, ⟨rfl, -⟩ | ⟨session, -, hchanged⟩⟩ :=
        summarizeSession_eq cfg s hv env.now
      · rw [heq]
      · rw [heq, hchanged.sessions, Function.update_of_ne hne.symm]
  | extractDurableMemories scope =>
    obtain rfl := Option.some.inj hstep
    rw [sessions_extractDurableMemories]
  | setPolicy level scope policy =>
    obtain rfl := Option.some.inj hstep
    unfold setMemoryPolicy
    split <;> rfl
  | listMemories selector =>
    obtain rfl := Option.some.inj hstep
    rfl
  | deleteMemories selector =>
    obtain rfl := Option.some.inj hstep
    rw [sessions_deleteMemories]
  | retryDeletingMemories selector =>
    obtain rfl := Option.some.inj hstep
    rw [sessions_retryDeletingMemories]

theorem appends_of_other {call : ManagerCall}
    (hother : ∀ scope ∈ call.sessionScope, scope.sessionKey ≠ o.sessionKey) :
    call.appends o = [] := by
  cases call with
  | appendTurn scope u a =>
    have hne : scope.sessionKey ≠ o.sessionKey := hother scope rfl
    simp only [ManagerCall.appends, if_neg hne]
  | _ => rfl

/-- **What a turn of the session does.** -/
theorem changedSession_step_own {scope : MemoryScope} {u a : String} {env : Env}
    (hok : (appendTurn cfg s scope u a env.now).2 = .ok ())
    (hstep : ManagerCall.step cfg s (.appendTurn scope u a, env) = some t) :
    ChangedSession s t scope.sessionKey
      (turned (policyOf cfg scope s) (s.sessionAt scope (env.now 0)) u a env.now) := by
  obtain rfl := Option.some.inj hstep
  cases hv : validateSessionScope scope with
  | error e =>
    rw [appendTurn_refused hv] at hok
    cases hok
  | ok _ =>
    obtain ⟨store', heq, hchanged⟩ := appendTurn_eq cfg s hv u a env.now
    rw [heq]
    exact hchanged

end Steps

/-! ### What a turn leaves in the session -/

section Turn

variable {policy : EffectivePolicy} {session : SessionMemory} {u a : String} {now : ℕ → ℤ}

/-- Trimming is a window, if there is a limit. -/
theorem trimMessages_eq_rtake {α : Type} {limit : ℤ} (h : 0 < limit) (messages : List α) :
    trimMessages messages limit = messages.rtake limit.toNat := by
  unfold trimMessages
  split
  · next hall =>
    exact (Windows.rtake_of_length_le (by omega)).symm
  · rfl

theorem turned_messages (h : policy.Positive) : (turned policy session u a now).messages =
    (session.messages ++ turnMessages u a).rtake policy.recentWindow.toNat := by
  rw [turned, summarizedSession_messages]
  exact trimMessages_eq_rtake h.recentWindow _

/-- The summary that a turn leaves is one of the messages that it leaves. -/
theorem turned_summary (h : policy.Positive) :
    (turned policy session u a now).summary =
      if (turned policy session u a now).messages.rtake policy.summaryWindow.toNat = [] then
        session.summary
      else summaryText policy
        ((turned policy session u a now).messages.rtake policy.summaryWindow.toNat) := by
  rw [turned, summarizedSession_messages, summarizedSession, summarized,
    trimMessages_eq_rtake h.summaryWindow]
  split <;> rfl

/-- What is appended is neither blank nor has it spaces around it. -/
theorem trimSpace_of_mem_turnMessages {m : Message} (hm : m ∈ turnMessages u a) :
    trimSpace m.content = m.content ∧ m.content ≠ "" := by
  have hpart : ∀ {s : String} {role : Role},
      m ∈ (if trimSpace s ≠ "" then [⟨role, trimSpace s⟩] else [] : List Message) →
        trimSpace m.content = m.content ∧ m.content ≠ "" := by
    intro s role hmem
    split at hmem
    · next hne =>
      obtain rfl := List.mem_singleton.mp hmem
      exact ⟨trimSpace_trimSpace s, hne⟩
    · cases hmem
  rcases List.mem_append.mp hm with hm | hm
  · exact hpart hm
  · exact hpart hm

end Turn

/-! ### The recent messages -/

section Recent

variable {cfg : MemoryConfig} {o : MemoryScope} {policy : EffectivePolicy} {s t : InMemoryStore}
  {calls : List (ManagerCall × Env)}

theorem policyOf_positive (cfg : MemoryConfig) (o : MemoryScope) (s : InMemoryStore) :
    (policyOf cfg o s).Positive :=
  resolvePolicy_positive _ _ _

/-- **One call on the way**: a turn replaces the session by the one with its messages, and every
other call leaves it alone. -/
theorem interleaves_cases {call : ManagerCall × Env} (hcall : Interleaves cfg o policy s call)
    (hstep : ManagerCall.step cfg s call = some t) :
    (∃ session u a now, session.messages = s.messagesOf o ∧ session.summary = s.summaryOf o ∧
        policy.Positive ∧ call.1.appends o = turnMessages u a ∧
        t.messagesOf o = (turned policy session u a now).messages ∧
        t.summaryOf o = (turned policy session u a now).summary) ∨
      call.1.appends o = [] ∧ t.messagesOf o = s.messagesOf o ∧ t.summaryOf o = s.summaryOf o := by
  rcases hcall with ⟨scope, u, a, hcall, hkey, hok, rfl⟩ | hother
  · obtain ⟨call, env⟩ := call
    obtain rfl : call = .appendTurn scope u a := hcall
    have hchanged := changedSession_step_own hok hstep
    rw [hkey] at hchanged
    refine .inl ⟨s.sessionAt scope (env.now 0), u, a, env.now, ?_, ?_, policyOf_positive _ _ _,
      ?_, ?_, ?_⟩
    · rw [sessionAt_messages, messagesOf, hkey, messagesOf]
    · rw [sessionAt_summary, summaryOf, hkey, summaryOf]
    · simp only [ManagerCall.appends, if_pos hkey]
    · rw [messagesOf, hchanged.sessions, Function.update_self, Option.map_some, Option.getD_some]
    · rw [summaryOf, hchanged.sessions, Function.update_self, Option.map_some, Option.getD_some]
  · have hkept := sessions_step_other hother hstep
    refine .inr ⟨appends_of_other hother, ?_, ?_⟩
    · rw [messagesOf, hkept, messagesOf]
    · rw [summaryOf, hkept, summaryOf]

/-- **The session ends with the last messages of all that were appended**, after every run. -/
theorem rtake_messagesOf_run
    (hcalls : Runs.Along (ManagerCall.step cfg) (Interleaves cfg o policy) s calls)
    (hrun : Runs.run (ManagerCall.step cfg) s calls = some t) :
    (t.messagesOf o).rtake policy.recentWindow.toNat =
      (s.messagesOf o ++ appendedMessages o calls).rtake policy.recentWindow.toNat := by
  refine Runs.run_written (w := fun c : ManagerCall × Env => c.1.appends o)
    (P := fun l u => (u.messagesOf o).rtake policy.recentWindow.toNat =
      l.rtake policy.recentWindow.toNat) (fun l u call v hu hcall hstep => ?_) rfl hcalls hrun
  rcases interleaves_cases hcall hstep with
    ⟨session, u', a, now, hmessages, -, hpositive, happends, hv, -⟩ | ⟨happends, hv, -⟩
  · rw [hv, turned_messages hpositive, Windows.rtake_rtake, Nat.min_self, hmessages, happends,
      ← Windows.rtake_rtake_append, hu, Windows.rtake_rtake_append]
  · rw [hv, happends, List.append_nil, hu]

theorem contextWith_recentMessages (now : ℤ) (longTerm : List LongTermMemory) :
    (contextWith cfg s o now longTerm).recentMessages =
      (s.messagesOf o).rtake (policyOf cfg o s).recentWindow.toNat := by
  have hwindow := (policyOf_positive cfg o s).recentWindow
  unfold policyOf at hwindow
  simp only [contextWith, policyOf, sessionAt_messages, trimMessages_eq_rtake hwindow]

theorem except_map_const {α β γ : Type} {f : β → γ} {g : α → β} {c : γ} (h : ∀ a, f (g a) = c)
    {result : Except String α} : (result.map g).map f = result.map fun _ => c := by
  cases result with
  | error e => rfl
  | ok a => exact congrArg Except.ok (h a)

/-- **The recent messages of a context are the last ones of all that were appended.** For every
run of turns of one session under one policy among calls on sessions with other keys, from any
store: `LoadContext` fails only where its recall does, and returns the last messages of what the
session held at the beginning and of what was appended since. -/
theorem recentMessages_run (cfg : MemoryConfig) (h : validateSessionScope o = .ok ())
    (hcalls : Runs.Along (ManagerCall.step cfg) (Interleaves cfg o policy) s calls)
    (hrun : Runs.run (ManagerCall.step cfg) s calls = some t) (hpolicy : policyOf cfg o t = policy)
    (query : String) (env : Env) :
    (loadContext cfg t o query env).map (·.recentMessages) =
      (recalled cfg t o query env).map fun _ =>
        (s.messagesOf o ++ appendedMessages o calls).rtake policy.recentWindow.toNat := by
  rw [loadContext_eq cfg t h, ← rtake_messagesOf_run hcalls hrun, ← hpolicy]
  exact except_map_const fun longTerm => contextWith_recentMessages _ longTerm

/-! ### Turns of one session alone -/

/-- Some turns of one session. -/
def turnCalls (o : MemoryScope) (env : Env) (turns : List (String × String)) :
    List (ManagerCall × Env) :=
  turns.map fun turn => (.appendTurn o turn.1 turn.2, env)

theorem appendedMessages_turnCalls (o : MemoryScope) (env : Env) (turns : List (String × String)) :
    appendedMessages o (turnCalls o env turns) =
      turns.flatMap fun turn => turnMessages turn.1 turn.2 := by
  rw [appendedMessages, turnCalls, List.flatMap_map]
  simp only [ManagerCall.appends, if_true]

/-- **Turns leave the policies as they are**, so they are made under one policy. -/
theorem along_turnCalls (cfg : MemoryConfig) (h : validateSessionScope o = .ok ()) (env : Env)
    (s : InMemoryStore) (turns : List (String × String)) :
    Runs.Along (ManagerCall.step cfg) (Interleaves cfg o (policyOf cfg o s)) s
        (turnCalls o env turns) ∧
      ∃ t, Runs.run (ManagerCall.step cfg) s (turnCalls o env turns) = some t ∧
        policyOf cfg o t = policyOf cfg o s := by
  induction turns generalizing s with
  | nil => exact ⟨Runs.along_nil, s, rfl, rfl⟩
  | cons turn turns ih =>
    obtain ⟨store', heq, hchanged⟩ := appendTurn_eq cfg s h turn.1 turn.2 env.now
    have hstep : ManagerCall.step cfg s (.appendTurn o turn.1 turn.2, env) = some store' := by
      simp only [ManagerCall.step, heq]
    have hpolicy : policyOf cfg o store' = policyOf cfg o s := by
      have hget : store'.getPolicy = s.getPolicy := by
        unfold getPolicy
        rw [hchanged.policies]
      rw [policyOf, policyOf, hget]
    obtain ⟨halong, t, hrun, ht⟩ := ih store'
    rw [hpolicy] at halong ht
    refine ⟨Runs.along_cons.mpr ⟨.inl ⟨o, _, _, rfl, rfl, congrArg Prod.snd heq, rfl⟩, ?_⟩, t,
      Runs.run_cons_iff.mpr ⟨store', hstep, hrun⟩, ht⟩
    intro u hu
    obtain rfl : store' = u := Option.some.inj (hstep.symm.trans hu)
    exact halong

/-- Four turns, with a blank message and spaces around another one. -/
def fourTurns : List (String × String) :=
  [("cpu?", "idle"), ("disk?", " "), (" net? ", "1 MB/s"), ("load?", "0.3")]

/-- The oldest message is gone. -/
theorem recentMessages_fourTurns :
    ∃ t, Runs.run (ManagerCall.step {}) .new (turnCalls chatScope quietEnv fourTurns) = some t ∧
      ∀ query, (loadContext {} t chatScope query quietEnv).map (·.recentMessages) =
        (recalled {} t chatScope query quietEnv).map fun _ =>
          [⟨.assistant, "idle"⟩, ⟨.user, "disk?"⟩, ⟨.user, "net?"⟩, ⟨.assistant, "1 MB/s"⟩,
            ⟨.user, "load?"⟩, ⟨.assistant, "0.3"⟩] := by
  have hvalid : validateSessionScope chatScope = .ok () :=
    validateSessionScope_ok_iff.mpr (by decide)
  obtain ⟨halong, t, hrun, hpolicy⟩ := along_turnCalls {} hvalid quietEnv .new fourTurns
  refine ⟨t, hrun, fun query => ?_⟩
  rw [recentMessages_run {} hvalid halong hrun hpolicy query quietEnv, appendedMessages_turnCalls]
  rfl

end Recent

/-! ### The summary -/

/-- The lines of some messages. -/
def printed (messages : List Message) : List Char :=
  ("\n".intercalate (messages.map summaryLine)).toList

/-- **The summary that the settings of a policy describe**: the last letters of the lines of the
last messages. -/
def windowSummary (policy : EffectivePolicy) (messages : List Message) : String :=
  .ofList ((printed (messages.rtake policy.summaryWindow.toNat)).rtake policy.tokenBudget.toNat)

section Summary

variable {cfg : MemoryConfig} {o : MemoryScope} {policy : EffectivePolicy} {s t : InMemoryStore}
  {calls : List (ManagerCall × Env)} {messages : List Message}

theorem printed_eq (messages : List Message) :
    printed messages = ['\n'].intercalate (messages.map fun m => (summaryLine m).toList) := by
  rw [printed, String.toList_intercalate, List.map_map]
  rfl

theorem summaryLine_ne_nil (m : Message) : (summaryLine m).toList ≠ [] := by
  obtain ⟨role, content⟩ := m
  cases role <;> simp [summaryLine]

/-- The summary of messages that are not blank. -/
theorem summaryText_eq (h : 0 < policy.tokenBudget)
    (hmessages : ∀ m ∈ messages, trimSpace m.content ≠ "") :
    summaryText policy messages =
      .ofList ((printed messages).rtake policy.tokenBudget.toNat) := by
  have hfilter : (messages.filter fun m => trimSpace m.content ≠ "") = messages :=
    List.filter_eq_self.mpr fun m hm => decide_eq_true (hmessages m hm)
  rw [summaryText, hfilter, printed]
  generalize "\n".intercalate (messages.map summaryLine) = text
  split
  · rfl
  · rw [Windows.rtake_of_length_le (by omega), String.ofList_toList]

/-- The session after some messages were appended: its messages, and the summary made of them. -/
structure Summarized (policy : EffectivePolicy) (o : MemoryScope) (messages : List Message)
    (u : InMemoryStore) : Prop where
  nonblank : ∀ m ∈ messages, trimSpace m.content ≠ ""
  messages_eq : u.messagesOf o = messages.rtake policy.recentWindow.toNat
  summary_eq : u.summaryOf o = windowSummary policy (messages.rtake policy.recentWindow.toNat)

theorem windowSummary_nil (policy : EffectivePolicy) : windowSummary policy [] = "" := by
  unfold windowSummary printed
  simp [List.rtake_nil]

theorem Summarized.step (hs : Summarized policy o messages s) {call : ManagerCall × Env}
    (hcall : Interleaves cfg o policy s call) (hstep : ManagerCall.step cfg s call = some t) :
    Summarized policy o (messages ++ call.1.appends o) t := by
  rcases interleaves_cases hcall hstep with
    ⟨session, u, a, now, hmessages, hsummary, hpositive, happends, htmessages, htsummary⟩ |
      ⟨happends, htmessages, htsummary⟩
  · rw [happends]
    have hnonblank : ∀ m ∈ messages ++ turnMessages u a, trimSpace m.content ≠ "" := by
      intro m hm
      rcases List.mem_append.mp hm with hm | hm
      · exact hs.nonblank m hm
      · obtain ⟨htrim, hne⟩ := trimSpace_of_mem_turnMessages hm
        rwa [htrim]
    have hkept : (turned policy session u a now).messages =
        (messages ++ turnMessages u a).rtake policy.recentWindow.toNat := by
      rw [turned_messages hpositive, hmessages, hs.messages_eq, Windows.rtake_rtake_append]
    refine ⟨hnonblank, htmessages.trans hkept, ?_⟩
    rw [htsummary, turned_summary hpositive, hkept]
    split
    · next hnone =>
      -- nothing has been appended so far
      have hempty : messages ++ turnMessages u a = [] := by
        have hlength := congrArg List.length hnone
        rw [Windows.length_rtake, Windows.length_rtake, List.length_nil] at hlength
        have := hpositive.recentWindow
        have := hpositive.summaryWindow
        exact List.length_eq_zero_iff.mp (by omega)
      rw [hempty, hsummary, hs.summary_eq, (List.append_eq_nil_iff.mp hempty).1]
    · rw [windowSummary, summaryText_eq hpositive.tokenBudget]
      exact fun m hm => hnonblank m
        ((Windows.rtake_suffix _ _).subset ((Windows.rtake_suffix _ _).subset hm))
  · rw [happends, List.append_nil]
    exact ⟨hs.nonblank, htmessages.trans hs.messages_eq, htsummary.trans hs.summary_eq⟩

/-- **The session at the end of a run** that begins without it. -/
theorem summarized_run (hnew : s.sessions o.sessionKey = none)
    (hcalls : Runs.Along (ManagerCall.step cfg) (Interleaves cfg o policy) s calls)
    (hrun : Runs.run (ManagerCall.step cfg) s calls = some t) :
    Summarized policy o (appendedMessages o calls) t := by
  have hinit : Summarized policy o [] s := by
    refine ⟨by simp, ?_, ?_⟩
    · rw [messagesOf, hnew, List.rtake_nil]
      rfl
    · rw [summaryOf, hnew, List.rtake_nil, windowSummary_nil]
      rfl
  exact Runs.run_written (w := fun c : ManagerCall × Env => c.1.appends o)
    (fun l u call v hu hcall hstep => hu.step hcall hstep) hinit hcalls hrun

/-- **When the summary of the kept messages is that of all.** -/
theorem windowSummary_rtake_iff (n : ℕ) :
    windowSummary policy (messages.rtake n) = windowSummary policy messages ↔
      policy.summaryWindow.toNat ≤ n ∨ messages.length ≤ n ∨
        policy.tokenBudget.toNat ≤ (printed (messages.rtake n)).length := by
  have hmap : ∀ k, (messages.rtake k).map (fun m => (summaryLine m).toList) =
      (messages.map fun m => (summaryLine m).toList).rtake k := by
    intro k
    rw [List.rtake, List.rtake, List.map_drop, List.length_map]
  have hne : ∀ y ∈ messages.map fun m => (summaryLine m).toList, y ≠ [] := by
    intro y hy
    obtain ⟨m, -, rfl⟩ := List.mem_map.mp hy
    exact summaryLine_ne_nil m
  have hlength : messages.length = (messages.map fun m => (summaryLine m).toList).length :=
    (List.length_map _).symm
  rw [windowSummary, windowSummary, String.ofList_inj, eq_comm, Windows.rtake_rtake, printed_eq,
    printed_eq, printed_eq, hmap, hmap, hmap, hlength]
  exact Windows.rtake_intercalate_rtake_iff hne

/-- **When the summary is what its settings say.** After every run of turns of one session under
one policy among calls on sessions with other keys, from a store without the session, the summary
is the last letters of the lines of the last messages of all that were appended exactly if the
recent window is not the narrower one of the two, or has not cut a message off yet, or if it
alone has as many letters as a summary may have. -/
theorem summary_window_iff (cfg : MemoryConfig) (hnew : s.sessions o.sessionKey = none)
    (hcalls : Runs.Along (ManagerCall.step cfg) (Interleaves cfg o policy) s calls)
    (hrun : Runs.run (ManagerCall.step cfg) s calls = some t) :
    t.summaryOf o = windowSummary policy (appendedMessages o calls) ↔
      policy.summaryWindow.toNat ≤ policy.recentWindow.toNat ∨
        (appendedMessages o calls).length ≤ policy.recentWindow.toNat ∨
        policy.tokenBudget.toNat ≤
          (printed ((appendedMessages o calls).rtake policy.recentWindow.toNat)).length := by
  rw [(summarized_run hnew hcalls hrun).summary_eq]
  exact windowSummary_rtake_iff _

/-- Three turns of the four: nothing has been cut off yet. -/
theorem summary_threeTurns :
    ∃ t, Runs.run (ManagerCall.step {}) .new
        (turnCalls chatScope quietEnv (fourTurns.take 3)) = some t ∧
      t.summaryOf chatScope = windowSummary (policyOf {} chatScope .new)
        (appendedMessages chatScope (turnCalls chatScope quietEnv (fourTurns.take 3))) := by
  have hvalid : validateSessionScope chatScope = .ok () :=
    validateSessionScope_ok_iff.mpr (by decide)
  obtain ⟨halong, t, hrun, -⟩ := along_turnCalls {} hvalid quietEnv .new (fourTurns.take 3)
  exact ⟨t, hrun, (summary_window_iff {} rfl halong hrun).mpr (by decide)⟩

/-- **The summary of `DefaultConfig` leaves messages out.** Its window is of twelve messages, there
have been seven, and the first one of them is not in the summary. -/
theorem summary_fourTurns_ne :
    ∃ t, Runs.run (ManagerCall.step {}) .new (turnCalls chatScope quietEnv fourTurns) = some t ∧
      t.summaryOf chatScope ≠ windowSummary (policyOf {} chatScope .new)
        (appendedMessages chatScope (turnCalls chatScope quietEnv fourTurns)) := by
  have hvalid : validateSessionScope chatScope = .ok () :=
    validateSessionScope_ok_iff.mpr (by decide)
  obtain ⟨halong, t, hrun, -⟩ := along_turnCalls {} hvalid quietEnv .new fourTurns
  refine ⟨t, hrun, ?_⟩
  rw [(summarized_run rfl halong hrun).summary_eq, Ne, windowSummary_rtake_iff]
  decide

end Summary

end MonitorSystem
