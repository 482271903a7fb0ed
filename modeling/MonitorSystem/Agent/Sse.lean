import MonitorSystem.Library.Framing
import MonitorSystem.Library.Segments
import MonitorSystem.Library.SqlExact

/-!
# The event stream of the agent service

`SendToClient` (`agent_service/internal/sse/sse.go`) writes an event as a block of lines, with an
empty line behind it: a line with an id, one with the type of the event and one for each line of
its data. The lines may hold carriage returns, which the reader of the stream may take for a part
of a line end.

This module has the blocks that are written and the texts that are read back from them:
`body` is what stands before the empty line, and of a line that ends with a carriage return
the last one is lost (`dropReturn`).
-/

namespace MonitorSystem

/-! ### Writing -/

/-- The types of the events that the service sends. -/
inductive EventType where
  | connected
  | message
  | done
  | error
  deriving DecidableEq, Repr

/-- The name of a type. -/
def EventType.name : EventType → String
  | .connected => "connected"
  | .message => "message"
  | .done => "done"
  | .error => "error"

/-- One call of `SendToClient`, with the time in nanoseconds at which it is made. -/
structure SentEvent where
  unixNano : ℤ
  eventType : EventType
  data : List Char
  deriving DecidableEq, Repr

namespace SentEvent

variable (e : SentEvent)

/-- The lines of an event. -/
def lines : List (List Char) :=
  ("id: " ++ toString e.unixNano).toList :: ("event: " ++ e.eventType.name).toList ::
    (e.data.splitOn '\n').map fun line => "data: ".toList ++ line

/-- **`SendToClient`**: what is written for an event. -/
def sendToClient : List Char := (e.lines.flatMap fun line => line ++ ['\n']) ++ ['\n']

end SentEvent

/-! ### Line ends -/

/-- The end of a line, `/\r?\n/`, at the beginning of a text: what is left of it. -/
def lineEnd : List Char → Option (List Char)
  | '\r' :: '\n' :: s => some s
  | '\n' :: s => some s
  | _ => none

/-- Two of them, `/\r?\n\r?\n/`. -/
def blockEnd (s : List Char) : Option (List Char) := (lineEnd s).bind lineEnd

theorem lineEnd_newline (s : List Char) : lineEnd ('\n' :: s) = some s := rfl

theorem lineEnd_return (s : List Char) : lineEnd ('\r' :: '\n' :: s) = some s := rfl

/-- An ordinary character ends no line. -/
theorem lineEnd_of_ne {c : Char} (hreturn : c ≠ '\r') (hnewline : c ≠ '\n') (s : List Char) :
    lineEnd (c :: s) = none := by
  unfold lineEnd
  split
  · next h => exact absurd (List.cons.inj h).1 hreturn
  · next h => exact absurd (List.cons.inj h).1 hnewline
  · rfl

/-- A carriage return before anything else than a line feed ends no line. -/
theorem lineEnd_return_of_ne {c : Char} (hc : c ≠ '\n') (s : List Char) :
    lineEnd ('\r' :: c :: s) = none := by
  unfold lineEnd
  split
  · next h => exact absurd (List.cons.inj (List.cons.inj h).2).1 hc
  · next h => exact absurd (List.cons.inj h).1 (by decide)
  · rfl

theorem length_of_lineEnd {s r : List Char} (h : lineEnd s = some r) : r.length < s.length := by
  unfold lineEnd at h
  split at h
  · obtain rfl := Option.some.inj h
    simp only [List.length_cons]
    omega
  · obtain rfl := Option.some.inj h
    simp
  · cases h

theorem length_of_blockEnd {s r : List Char} (h : blockEnd s = some r) : r.length < s.length := by
  obtain ⟨t, ht, hr⟩ := Option.bind_eq_some_iff.mp h
  exact Nat.lt_trans (length_of_lineEnd hr) (length_of_lineEnd ht)

/-- A text in which a line ends is not changed by more text behind it. -/
theorem lineEnd_append {s r : List Char} (h : lineEnd s = some r) (t : List Char) :
    lineEnd (s ++ t) = some (r ++ t) := by
  unfold lineEnd at h
  split at h
  · obtain rfl := Option.some.inj h
    rfl
  · obtain rfl := Option.some.inj h
    rfl
  · cases h

theorem blockEnd_append {s r : List Char} (h : blockEnd s = some r) (t : List Char) :
    blockEnd (s ++ t) = some (r ++ t) := by
  obtain ⟨u, hu, hr⟩ := Option.bind_eq_some_iff.mp h
  rw [blockEnd, lineEnd_append hu, Option.bind_some, lineEnd_append hr]

/-- An ordinary character ends no block. -/
theorem blockEnd_of_ne {c : Char} (hreturn : c ≠ '\r') (hnewline : c ≠ '\n') (s : List Char) :
    blockEnd (c :: s) = none := by
  rw [blockEnd, lineEnd_of_ne hreturn hnewline, Option.bind_none]

/-! ### Lines without their carriage returns -/

/-- A line without a carriage return at its end. -/
def dropReturn : List Char → List Char
  | [] => []
  | ['\r'] => []
  | c :: s => c :: dropReturn s

theorem dropReturn_cons_of_ne {c : Char} (hc : c ≠ '\r') (s : List Char) :
    dropReturn (c :: s) = c :: dropReturn s := by
  rw [dropReturn]
  exact fun h => absurd h hc

theorem dropReturn_cons_cons (c d : Char) (s : List Char) :
    dropReturn (c :: d :: s) = c :: dropReturn (d :: s) := by
  rw [dropReturn]
  simp

/-- Nothing is lost of what stands before an ordinary character. -/
theorem dropReturn_append_cons (s : List Char) {c : Char} (hc : c ≠ '\r') (t : List Char) :
    dropReturn (s ++ c :: t) = s ++ c :: dropReturn t := by
  induction s with
  | nil => exact dropReturn_cons_of_ne hc t
  | cons d s ih =>
    rw [List.cons_append, List.cons_append, ← ih]
    cases s <;> exact dropReturn_cons_cons _ _ _

theorem notMem_dropReturn {c : Char} {s : List Char} (h : c ∉ s) : c ∉ dropReturn s := by
  fun_induction dropReturn s with
  | case1 => exact h
  | case2 => simp
  | case3 d s hne ih =>
    obtain ⟨hd, hs⟩ := not_or.mp (mt List.mem_cons.mpr h)
    exact fun hmem => (List.mem_cons.mp hmem).elim hd (ih hs)

/-- **What stands in a block**: its lines, the last one without its carriage return. -/
def body : List (List Char) → List Char
  | [] => []
  | [line] => dropReturn line
  | line :: lines => line ++ '\n' :: body lines

/-! ### Delimiters -/

open Framing

/-- Where a block ends later on, what begins no line end begins none with more text behind it. -/
theorem lineEnd_append_of_none {s : List Char} {x : List Char × List Char}
    (hnone : lineEnd s = none) (hcut : cutWith blockEnd s = some x) (t : List Char) :
    lineEnd (s ++ t) = none := by
  cases s with
  | nil => cases hcut
  | cons c s =>
    by_cases hnewline : c = '\n'
    · subst hnewline
      cases hnone
    by_cases hreturn : c = '\r'
    · subst hreturn
      cases s with
      | nil => cases hcut
      | cons d s =>
        by_cases hd : d = '\n'
        · subst hd
          cases hnone
        · exact lineEnd_return_of_ne hd (s ++ t)
    · exact lineEnd_of_ne hreturn hnewline (s ++ t)

/-- Where a block ends later on, what begins no block end begins none with more text behind
it. -/
theorem blockEnd_append_of_none {c : Char} {s : List Char} {x : List Char × List Char}
    (hnone : blockEnd (c :: s) = none) (hcut : cutWith blockEnd s = some x) (t : List Char) :
    blockEnd (c :: s ++ t) = none := by
  by_cases hnewline : c = '\n'
  · subst hnewline
    exact lineEnd_append_of_none (s := s) hnone hcut t
  by_cases hreturn : c = '\r'
  · subst hreturn
    cases s with
    | nil => cases hcut
    | cons d s =>
      by_cases hd : d = '\n'
      · subst hd
        have hline : lineEnd s = none := hnone
        have hrest : blockEnd ('\n' :: s) = none := hline
        rw [cutWith_of_none hrest] at hcut
        obtain ⟨y, hy, -⟩ := Option.map_eq_some_iff.mp hcut
        exact lineEnd_append_of_none hline hy t
      · have hline : lineEnd ('\r' :: d :: s ++ t) = none := lineEnd_return_of_ne hd (s ++ t)
        rw [blockEnd, hline, Option.bind_none]
  · exact blockEnd_of_ne hreturn hnewline (s ++ t)

/-- The same for the end of a line. -/
theorem lineEnd_append_cons_of_none {c : Char} {s : List Char} {x : List Char × List Char}
    (hnone : lineEnd (c :: s) = none) (hcut : cutWith lineEnd s = some x) (t : List Char) :
    lineEnd (c :: s ++ t) = none := by
  by_cases hnewline : c = '\n'
  · subst hnewline
    cases hnone
  by_cases hreturn : c = '\r'
  · subst hreturn
    cases s with
    | nil => cases hcut
    | cons d s =>
      by_cases hd : d = '\n'
      · subst hd
        cases hnone
      · exact lineEnd_return_of_ne hd (s ++ t)
  · exact lineEnd_of_ne hreturn hnewline (s ++ t)

/-- **The end of a block**, `/\r?\n\r?\n/`. -/
def blankLine : Delimiter Char where
  strip := blockEnd
  shorter := length_of_blockEnd
  stable t h := cutWith_stable blockEnd (fun t h => blockEnd_append h t)
    (fun t hnone hcut => blockEnd_append_of_none hnone hcut t) t h

/-- The end of a line, `/\r?\n/`. -/
def lineBreak : Delimiter Char where
  strip := lineEnd
  shorter := length_of_lineEnd
  stable t h := cutWith_stable lineEnd (fun t h => lineEnd_append h t)
    (fun t hnone hcut => lineEnd_append_cons_of_none hnone hcut t) t h

/-- A line that can stand in a block. -/
structure Plain (line : List Char) : Prop where
  newline : '\n' ∉ line
  head : ∃ c s, line = c :: s ∧ c ≠ '\r' ∧ c ≠ '\n'

/-- A line ends where it ends. -/
theorem cut_line {line : List Char} (h : '\n' ∉ line) (t : List Char) :
    lineBreak.cut (line ++ '\n' :: t) = some (dropReturn line, t) := by
  induction line with
  | nil => exact lineBreak.cut_of_strip (lineEnd_newline t)
  | cons c line ih =>
    obtain ⟨hc, hline⟩ := not_or.mp (mt List.mem_cons.mpr h)
    have hpass : lineEnd (c :: (line ++ '\n' :: t)) = none →
        lineBreak.cut (c :: line ++ '\n' :: t) = some (c :: dropReturn line, t) := fun hnone => by
      rw [List.cons_append, lineBreak.cut_of_none hnone, ih hline, Option.map_some]
    by_cases hreturn : c = '\r'
    · subst hreturn
      cases line with
      | nil => exact lineBreak.cut_of_strip (lineEnd_return t)
      | cons d line =>
        rw [dropReturn_cons_cons]
        exact hpass (lineEnd_return_of_ne (fun hd => hline (hd ▸ List.mem_cons_self)) _)
    · rw [dropReturn_cons_of_ne hreturn]
      exact hpass (lineEnd_of_ne hreturn (Ne.symm hc) _)

/-- A text without a line feed has no line end. -/
theorem cut_of_notMem {s : List Char} (h : '\n' ∉ s) : lineBreak.cut s = none := by
  induction s with
  | nil => rfl
  | cons c s ih =>
    obtain ⟨hc, hs⟩ := not_or.mp (mt List.mem_cons.mpr h)
    have hnone : lineEnd (c :: s) = none := by
      by_cases hreturn : c = '\r'
      · subst hreturn
        cases s with
        | nil => rfl
        | cons d s => exact lineEnd_return_of_ne (fun hd => hs (hd ▸ List.mem_cons_self)) s
      · exact lineEnd_of_ne hreturn (Ne.symm hc) s
    rw [lineBreak.cut_of_none hnone, ih hs, Option.map_none]

/-- **The lines of a block are read back**, each without its carriage return. -/
theorem split_body {lines : List (List Char)} (hne : lines ≠ [])
    (h : ∀ line ∈ lines, '\n' ∉ line) :
    (lineBreak.split (body lines)).1 ++ [(lineBreak.split (body lines)).2] =
      lines.map dropReturn := by
  induction lines with
  | nil => exact absurd rfl hne
  | cons line lines ih =>
    obtain ⟨hline, hlines⟩ := List.forall_mem_cons.mp h
    cases lines with
    | nil => rw [body, lineBreak.split_of_none (cut_of_notMem (notMem_dropReturn hline))]; rfl
    | cons next lines =>
      rw [body, lineBreak.split_of_cut (cut_line hline _)]
      · rw [List.map_cons, ← ih (List.cons_ne_nil _ _) hlines]
        rfl
      · simp

/-- **Behind a line another one begins**, and not the end of the block. -/
theorem cut_block_cons {line : List Char} (h : '\n' ∉ line) {c : Char} (hreturn : c ≠ '\r')
    (hnewline : c ≠ '\n') (t : List Char) :
    blankLine.cut (line ++ '\n' :: c :: t) =
      (blankLine.cut (c :: t)).map fun x => (line ++ '\n' :: x.1, x.2) := by
  have hnext : lineEnd (c :: t) = none := lineEnd_of_ne hreturn hnewline t
  induction line with
  | nil =>
    have hnone : blankLine.strip ('\n' :: c :: t) = none := hnext
    rw [List.nil_append, blankLine.cut_of_none hnone]
    rfl
  | cons d line ih =>
    obtain ⟨hd, hline⟩ := not_or.mp (mt List.mem_cons.mpr h)
    have hnone : blockEnd (d :: (line ++ '\n' :: c :: t)) = none := by
      by_cases hdr : d = '\r'
      · subst hdr
        cases line with
        | nil => exact hnext
        | cons e line =>
          have he : e ≠ '\n' := fun he => hline (he ▸ List.mem_cons_self)
          rw [List.cons_append, blockEnd, lineEnd_return_of_ne he, Option.bind_none]
      · exact blockEnd_of_ne hdr (Ne.symm hd) _
    rw [List.cons_append, blankLine.cut_of_none hnone, ih hline, Option.map_map]
    rfl

/-- The last line ends where the block ends. -/
theorem cut_block_last {line : List Char} (h : '\n' ∉ line) (t : List Char) :
    blankLine.cut (line ++ '\n' :: '\n' :: t) = some (dropReturn line, t) := by
  induction line with
  | nil => exact blankLine.cut_of_strip (r := t) rfl
  | cons c line ih =>
    obtain ⟨hc, hline⟩ := not_or.mp (mt List.mem_cons.mpr h)
    have hpass : blockEnd (c :: (line ++ '\n' :: '\n' :: t)) = none →
        blankLine.cut (c :: line ++ '\n' :: '\n' :: t) = some (c :: dropReturn line, t) :=
      fun hnone => by
        rw [List.cons_append, blankLine.cut_of_none hnone, ih hline, Option.map_some]
    by_cases hreturn : c = '\r'
    · subst hreturn
      cases line with
      | nil => exact blankLine.cut_of_strip (r := t) rfl
      | cons d line =>
        have hd : d ≠ '\n' := fun hd => hline (hd ▸ List.mem_cons_self)
        rw [dropReturn_cons_cons]
        refine hpass ?_
        rw [List.cons_append, blockEnd, lineEnd_return_of_ne hd, Option.bind_none]
    · rw [dropReturn_cons_of_ne hreturn]
      exact hpass (blockEnd_of_ne hreturn (Ne.symm hc) _)

/-- **The block of some lines is read back from the text that is written for them.** -/
theorem cut_block {lines : List (List Char)} (hne : lines ≠ [])
    (h : ∀ line ∈ lines, Plain line) (t : List Char) :
    blankLine.cut ((lines.flatMap fun line => line ++ ['\n']) ++ ['\n'] ++ t) =
      some (body lines, t) := by
  induction lines with
  | nil => exact absurd rfl hne
  | cons line lines ih =>
    obtain ⟨hline, hlines⟩ := List.forall_mem_cons.mp h
    cases lines with
    | nil =>
      have hlast := cut_block_last hline.newline t
      simpa [body] using hlast
    | cons next lines =>
      have hrest := ih (List.cons_ne_nil _ _) hlines
      obtain ⟨c, s, rfl, hreturn, hnewline⟩ := (hlines next List.mem_cons_self).head
      obtain ⟨t', ht'⟩ : ∃ t', (((c :: s) :: lines).flatMap fun line => line ++ ['\n']) ++ ['\n'] ++
          t = c :: t' := ⟨_, rfl⟩
      have htext : ((line :: (c :: s) :: lines).flatMap fun line => line ++ ['\n']) ++ ['\n'] ++ t =
          line ++ '\n' :: (c :: t') := by
        rw [← ht', List.flatMap_cons]
        simp
      rw [htext, cut_block_cons hline.newline hreturn hnewline, ← ht', hrest]
      rfl

/-! ### The stream -/

/-- A line feed begins a new piece. -/
theorem splitOn_newline (s : List Char) :
    ('\n' :: s).splitOn '\n' = [] :: s.splitOn '\n' := by
  rw [List.splitOn_cons_eq_if_modifyHead, if_pos (by decide)]

/-- Another character belongs to the first piece. -/
theorem exists_splitOn_cons {c : Char} (hc : c ≠ '\n') (s : List Char) :
    ∃ piece pieces, s.splitOn '\n' = piece :: pieces ∧
      (c :: s).splitOn '\n' = (c :: piece) :: pieces := by
  obtain ⟨piece, pieces, h⟩ := List.exists_cons_of_ne_nil (List.splitOn_ne_nil '\n' s)
  refine ⟨piece, pieces, h, ?_⟩
  rw [List.splitOn_cons_eq_if_modifyHead, if_neg (by simpa using hc), h, List.modifyHead_cons]

theorem notMem_of_mem_splitOn {s line : List Char} (h : line ∈ s.splitOn '\n') : '\n' ∉ line := by
  induction s generalizing line with
  | nil =>
    obtain rfl : line = [] := by simpa using h
    exact List.not_mem_nil
  | cons c s ih =>
    by_cases hc : c = '\n'
    · subst hc
      rw [splitOn_newline] at h
      rcases List.mem_cons.mp h with rfl | h
      · exact List.not_mem_nil
      · exact ih h
    · obtain ⟨piece, pieces, hs, hcs⟩ := exists_splitOn_cons hc s
      rw [hs] at ih
      rw [hcs] at h
      rcases List.mem_cons.mp h with rfl | h
      · exact fun hmem => (List.mem_cons.mp hmem).elim (fun heq => hc heq.symm)
          (ih List.mem_cons_self)
      · exact ih (List.mem_cons_of_mem _ h)

namespace SentEvent

variable (e : SentEvent)

theorem lines_ne_nil : e.lines ≠ [] := List.cons_ne_nil _ _

theorem plain_of_mem_lines {line : List Char} (h : line ∈ e.lines) : Plain line := by
  simp only [lines, List.mem_cons, List.mem_map] at h
  rcases h with rfl | rfl | ⟨piece, hpiece, rfl⟩
  · refine ⟨fun hmem => ?_, 'i', _, String.toList_append, by decide, by decide⟩
    rw [String.toList_append, List.mem_append] at hmem
    rcases hmem with hmem | hmem
    · revert hmem
      decide
    · rcases Sql.isDigit_or_of_mem_repr hmem with h | h <;> cases h
  · rw [String.toList_append]
    refine ⟨?_, 'e', _, rfl, by decide, by decide⟩
    cases e.eventType <;> decide
  · refine ⟨fun hmem => ?_, 'd', _, rfl, by decide, by decide⟩
    rcases List.mem_append.mp hmem with hmem | hmem
    · revert hmem
      decide
    · exact notMem_of_mem_splitOn hpiece hmem

end SentEvent

/-- **The blocks of a stream are those of its events.** -/
theorem split_stream (events : List SentEvent) :
    blankLine.split (events.flatMap SentEvent.sendToClient) =
      (events.map fun e => body e.lines, []) := by
  induction events with
  | nil => exact blankLine.split_of_none rfl
  | cons e events ih =>
    have hcut : blankLine.cut (e.sendToClient ++ events.flatMap SentEvent.sendToClient) =
        some (body e.lines, events.flatMap SentEvent.sendToClient) :=
      cut_block e.lines_ne_nil (fun line => e.plain_of_mem_lines) _
    rw [List.flatMap_cons, blankLine.split_of_cut hcut, ih, List.map_cons]

/-- The data without the carriage returns that are lost: one before each line feed, and one at
the end. -/
def dropReturns : List Char → List Char
  | [] => []
  | '\r' :: '\n' :: s => '\n' :: dropReturns s
  | ['\r'] => []
  | c :: s => c :: dropReturns s

/-- **The lines of the data, put together again.** -/
theorem intercalate_dropReturn (data : List Char) :
    ['\n'].intercalate ((data.splitOn '\n').map dropReturn) = dropReturns data := by
  have hne : ∀ s : List Char, (s.splitOn '\n').map dropReturn ≠ [] := fun s => by simp
  fun_induction dropReturns data with
  | case1 => rfl
  | case2 s ih =>
    have hsplit : ('\r' :: '\n' :: s).splitOn '\n' = ['\r'] :: s.splitOn '\n' := by
      obtain ⟨piece, pieces, hs, hcs⟩ := exists_splitOn_cons (c := '\r') (by decide) ('\n' :: s)
      rw [splitOn_newline] at hs
      obtain ⟨rfl, rfl⟩ := List.cons.inj hs
      exact hcs
    rw [hsplit, List.map_cons, Segments.intercalate_cons _ (hne s), ih]
    rfl
  | case3 => decide
  | case4 c s hnewline hend ih =>
    by_cases hc : c = '\n'
    · subst hc
      rw [splitOn_newline, List.map_cons, Segments.intercalate_cons _ (hne s), ih]
      rfl
    · obtain ⟨piece, pieces, hs, hcs⟩ := exists_splitOn_cons hc s
      -- the character is kept, for a carriage return would stand before another character
      have hkeep : dropReturn (c :: piece) = c :: dropReturn piece := by
        cases piece with
        | cons d piece => exact dropReturn_cons_cons c d piece
        | nil =>
          refine dropReturn_cons_of_ne (fun hreturn => ?_) []
          cases s with
          | nil => exact hend hreturn rfl
          | cons d s =>
            by_cases hd : d = '\n'
            · exact hnewline s hreturn (hd ▸ rfl)
            · obtain ⟨piece', pieces', -, hds⟩ := exists_splitOn_cons hd s
              exact absurd (List.cons.inj (hs.symm.trans hds)).1 (by simp)
      rw [hcs, List.map_cons, hkeep, ← ih, hs, List.map_cons]
      cases pieces with
      | nil => rfl
      | cons next pieces =>
        rw [Segments.intercalate_cons _ (by simp), Segments.intercalate_cons _ (by simp),
          List.cons_append]

end MonitorSystem
