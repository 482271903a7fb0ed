import MonitorSystem.Manager.PoolGuards

/-!
# Closing idle connections

A health pass closes the connections that have been idle for longer than `idleTtl_`, down to
`minSize_` of them. It never removes the entries, and the next pass opens a connection for
every entry that has none, so what one pass closes the next one opens again: with more
entries than `minSize_` the number of open connections does not settle (`settles_iff`).

Only three things about an idle entry matter to a pass in which every connect and ping
succeeds: whether it will be reconnected and, if not, when it was used last. A list of these
marks is the abstract state (`Entry.mark`); `Marks.pass` says what a pass makes of it, and
`exists_healthPass` that the pool does just that.
-/

namespace MonitorSystem

open Handles (Server)

/-! ### The marks of the entries -/

/-- What a pass sees of an idle entry: when it was used last, or nothing if it is going to be
reconnected. -/
def Entry.mark (b : Backend) (e : Entry) : Option ℤ :=
  if e.conn.isSome ∧ (b = .mysql → e.healthy) then some e.lastUsed else none

namespace Marks

variable (c : PoolConfig) (now : ℤ)

/-- How many of some connections have been idle for too long. -/
def stale (ls : List ℤ) : ℕ := ls.countP fun l => c.idleTtl < now - l

/-- The last loop of a pass, all entries being open: those closed lose their mark. -/
def reap : ℕ → List ℤ → List (Option ℤ)
  | _, [] => []
  | opened, l :: ls =>
    if opened ≤ c.minSize then (l :: ls).map some
    else if c.idleTtl < now - l then none :: reap (opened - 1) ls
    else some l :: reap opened ls

/-- A pass: every entry is opened, those without a mark anew, and then some are closed. -/
def pass (ms : List (Option ℤ)) : List (Option ℤ) :=
  reap c now ms.length (ms.map (·.getD now))

/-- How many entries are open. -/
def opened (ms : List (Option ℤ)) : ℕ := ms.countP (·.isSome)

variable {c now}

theorem stale_cons_of_lt {l : ℤ} (h : c.idleTtl < now - l) (ls : List ℤ) :
    stale c now (l :: ls) = stale c now ls + 1 := by
  simp [stale, h]

theorem stale_cons_of_not_lt {l : ℤ} (h : ¬c.idleTtl < now - l) (ls : List ℤ) :
    stale c now (l :: ls) = stale c now ls := by
  rw [stale, List.countP_cons_of_neg (by simpa using h)]
  rfl

@[simp] theorem opened_cons_none (ms : List (Option ℤ)) : opened (none :: ms) = opened ms := by
  simp [opened]

@[simp] theorem opened_cons_some (l : ℤ) (ms : List (Option ℤ)) :
    opened (some l :: ms) = opened ms + 1 := by
  simp [opened]

theorem opened_map_some (ls : List ℤ) : opened (ls.map some) = ls.length := by
  simp [opened, List.countP_map, Function.comp_def]

/-- How many a pass closes: those idle for too long, but not below `minSize_`. -/
theorem opened_reap (c : PoolConfig) (now : ℤ) (n : ℕ) (ls : List ℤ) :
    opened (reap c now n ls) + min (stale c now ls) (n - c.minSize) = ls.length := by
  induction ls generalizing n with
  | nil => simp [reap, opened, stale]
  | cons l ls ih =>
    simp only [reap]
    split
    · next hle =>
      rw [opened_map_some, Nat.sub_eq_zero_of_le hle, Nat.min_zero, Nat.add_zero]
    · split
      · next hstale =>
        have htail := ih (n - 1)
        rw [stale_cons_of_lt hstale, opened_cons_none, List.length_cons]
        omega
      · next hfresh =>
        have htail := ih n
        rw [stale_cons_of_not_lt hfresh, opened_cons_some, List.length_cons]
        omega

theorem length_reap (n : ℕ) (ls : List ℤ) : (reap c now n ls).length = ls.length := by
  induction ls generalizing n with
  | nil => rfl
  | cons l ls ih =>
    simp only [reap]
    split
    · simp
    · split <;> simp [ih]

/-- What was closed is opened again at the next pass; at the same time, it is not idle for too
long then. -/
theorem stale_reap (httl : 0 ≤ c.idleTtl) (now : ℤ) (n : ℕ) (ls : List ℤ) :
    stale c now ((reap c now n ls).map (·.getD now)) + min (stale c now ls) (n - c.minSize) =
      stale c now ls := by
  have hnow : ¬c.idleTtl < now - now := by omega
  induction ls generalizing n with
  | nil => simp [reap, stale]
  | cons l ls ih =>
    simp only [reap]
    split
    · next hle => simp [Function.comp_def, Nat.sub_eq_zero_of_le hle]
    · split
      · next hstale =>
        have htail := ih (n - 1)
        rw [List.map_cons, Option.getD_none, stale_cons_of_not_lt hnow, stale_cons_of_lt hstale]
        omega
      · next hfresh =>
        have htail := ih n
        rw [List.map_cons, Option.getD_some, stale_cons_of_not_lt hfresh,
          stale_cons_of_not_lt hfresh]
        omega

/-- A mark that is left is one that was there. -/
theorem mem_of_mem_reap {n : ℕ} {ls : List ℤ} {l : ℤ} (h : some l ∈ reap c now n ls) :
    l ∈ ls := by
  induction ls generalizing n with
  | nil => simp [reap] at h
  | cons k ls ih =>
    simp only [reap] at h
    split at h
    · simpa using h
    · split at h
      · rcases List.mem_cons.mp h with h | h
        · cases h
        · exact List.mem_cons_of_mem k (ih h)
      · rcases List.mem_cons.mp h with h | h
        · obtain rfl := Option.some.inj h
          exact List.mem_cons_self
        · exact List.mem_cons_of_mem k (ih h)

/-- Every mark is at most `now`. -/
def Upto (now : ℤ) (ms : List (Option ℤ)) : Prop := ∀ l, some l ∈ ms → l ≤ now

theorem Upto.pass {ms : List (Option ℤ)} (h : Upto now ms) : Upto now (pass c now ms) := by
  intro l hl
  obtain ⟨m, hm, rfl⟩ := List.mem_map.mp (mem_of_mem_reap hl)
  cases m with
  | none => exact le_rfl
  | some l => exact h l hm

theorem Upto.mono {ms : List (Option ℤ)} {later : ℤ} (h : Upto now ms) (hle : now ≤ later) :
    Upto later ms := fun l hl => (h l hl).trans hle

@[simp] theorem length_pass (ms : List (Option ℤ)) : (pass c now ms).length = ms.length := by
  rw [pass, length_reap, List.length_map]

/-- **What a pass leaves open.** -/
theorem opened_pass (c : PoolConfig) (now : ℤ) (ms : List (Option ℤ)) :
    opened (pass c now ms) + min (stale c now (ms.map (·.getD now))) (ms.length - c.minSize) =
      ms.length := by
  simpa [pass] using opened_reap c now ms.length (ms.map (·.getD now))

/-! ### Several passes -/

/-- The marks after passes at these times. -/
def passes (c : PoolConfig) (ms : List (Option ℤ)) (times : List ℤ) : List (Option ℤ) :=
  times.foldl (fun ms now => pass c now ms) ms

/-- How many connections are open after each of the passes. -/
def counts (c : PoolConfig) : List (Option ℤ) → List ℤ → List ℕ
  | _, [] => []
  | ms, now :: times => opened (pass c now ms) :: counts c (pass c now ms) times

theorem counts_append (ms : List (Option ℤ)) (times times' : List ℤ) :
    counts c ms (times ++ times') = counts c ms times ++ counts c (passes c ms times) times' := by
  induction times generalizing ms with
  | nil => rfl
  | cons now times ih => simp [counts, passes, ih]

theorem length_passes (ms : List (Option ℤ)) (times : List ℤ) :
    (passes c ms times).length = ms.length := by
  induction times generalizing ms with
  | nil => rfl
  | cons now times ih => exact (ih (pass c now ms)).trans (length_pass ms)

theorem Upto.passes_replicate {ms : List (Option ℤ)} (h : Upto now ms) (k : ℕ) :
    Upto now (passes c ms (List.replicate k now)) := by
  induction k generalizing ms with
  | zero => exact h
  | succ k ih => exact ih h.pass

/-- If all marks are at the clock or before, and `idleTtl_` is negative, every connection has
been idle for too long. -/
theorem stale_of_neg (httl : c.idleTtl < 0) {ms : List (Option ℤ)} (h : Upto now ms) :
    stale c now (ms.map (·.getD now)) = ms.length := by
  rw [← List.length_map (f := (·.getD now)), stale, List.countP_eq_length]
  intro l hl
  obtain ⟨m, hm, rfl⟩ := List.mem_map.mp hl
  have hle : m.getD now ≤ now := by
    cases m with
    | none => exact le_rfl
    | some l => exact h l hm
  simp only [decide_eq_true_eq]
  omega

/-- If every mark is beyond `idleTtl_`, what has been idle for too long is what is open. -/
theorem stale_of_beyond (httl : 0 ≤ c.idleTtl) {ms : List (Option ℤ)}
    (h : ∀ l, some l ∈ ms → c.idleTtl < now - l) :
    stale c now (ms.map (·.getD now)) = opened ms := by
  induction ms with
  | nil => rfl
  | cons m ms ih =>
    have htail := ih fun l hl => h l (List.mem_cons_of_mem m hl)
    cases m with
    | none =>
      rw [List.map_cons, Option.getD_none, stale_cons_of_not_lt (by omega), htail,
        opened_cons_none]
    | some l =>
      rw [List.map_cons, Option.getD_some, stale_cons_of_lt (h l List.mem_cons_self), htail,
        opened_cons_some]

/-- **Passes at one time open everything**: those that the first of them closes are opened by
the next, and are no longer idle for too long. -/
theorem exists_all_open (httl : 0 ≤ c.idleTtl) (ms : List (Option ℤ))
    (hmin : c.minSize < ms.length) (now : ℤ) :
    ∃ k pre, counts c ms (List.replicate (k + 1) now) = pre ++ [ms.length] ∧
      opened (passes c ms (List.replicate (k + 1) now)) = ms.length := by
  -- by induction on how many have been idle for too long
  induction hm : stale c now (ms.map (·.getD now)) using Nat.strong_induction_on
    generalizing ms with
  | _ m ih =>
    have hopened := opened_pass c now ms
    rcases Nat.eq_zero_or_pos m with rfl | hpos
    · have hall : opened (pass c now ms) = ms.length := by
        rw [hm, Nat.zero_min, Nat.add_zero] at hopened
        exact hopened
      exact ⟨0, [], by simp [counts, hall], by simpa [passes] using hall⟩
    · have hstale := stale_reap httl now ms.length (ms.map (·.getD now))
      rw [hm] at hstale
      have hless : stale c now ((pass c now ms).map (·.getD now)) < m := by
        unfold pass
        omega
      have hmin' : c.minSize < (pass c now ms).length := by simpa using hmin
      obtain ⟨k, pre, hcounts, hlast⟩ := ih _ hless _ hmin' rfl
      rw [length_pass] at hcounts hlast
      refine ⟨k + 1, opened (pass c now ms) :: pre, ?_, hlast⟩
      rw [List.replicate_succ, counts, hcounts]
      rfl

end Marks

/-! ### What it is to settle -/

/-- **Numbers that settle**: once a number is lower than the one before it, those after it
are not higher, and where it is down to `minSize` none of them is above that again. -/
def Settles (minSize : ℕ) : List ℕ → Prop
  | m :: n :: rest =>
    (n < m → (n :: rest).Pairwise (· ≥ ·) ∧ (n ≤ minSize → ∀ k ∈ rest, k ≤ minSize)) ∧
      Settles minSize (n :: rest)
  | _ => True

theorem Settles.tail {minSize n : ℕ} {rest : List ℕ} (h : Settles minSize (n :: rest)) :
    Settles minSize rest := by
  cases rest with
  | nil => trivial
  | cons m rest => exact h.2

/-- A number that was lowered and comes back is the end of it. -/
theorem not_settles (minSize : ℕ) (before : List ℕ) {m n k : ℕ} {after : List ℕ} (hlow : n < m)
    (hk : k ∈ after) (hback : n < k) : ¬Settles minSize (before ++ m :: n :: after) := by
  induction before with
  | nil =>
    intro h
    have hle := (List.pairwise_cons.mp (h.1 hlow).1).1 k hk
    omega
  | cons x before ih => exact fun h => ih h.tail

theorem pairwise_of_const {n : ℕ} {rest : List ℕ} (h : ∀ k ∈ rest, k = n) :
    rest.Pairwise (· ≥ ·) := by
  rw [List.eq_replicate_of_mem h]
  exact List.pairwise_replicate.mpr (Or.inr le_rfl)

/-- Numbers that drop at most once and stay the same from then on do settle. -/
theorem settles_cons_of_const {minSize m n : ℕ} {rest : List ℕ} (h : ∀ k ∈ rest, k = n) :
    Settles minSize (m :: rest) := by
  induction rest generalizing m with
  | nil => trivial
  | cons k rest ih =>
    have hrest : ∀ x ∈ rest, x = n := fun x hx => h x (List.mem_cons_of_mem k hx)
    obtain rfl : k = n := h k List.mem_cons_self
    exact ⟨fun _ => ⟨pairwise_of_const h, fun hk x hx => (hrest x hx).le.trans hk⟩, ih hrest⟩

theorem settles_cons_cons_of_const {minSize m l n : ℕ} (hnl : n ≤ l) {rest : List ℕ}
    (h : ∀ k ∈ rest, k = n) : Settles minSize (m :: l :: rest) := by
  refine ⟨fun _ => ⟨List.pairwise_cons.mpr ⟨fun x hx => ?_, pairwise_of_const h⟩, ?_⟩,
    settles_cons_of_const h⟩
  · exact (h x hx).le.trans hnl
  · exact fun hl x hx => ((h x hx).le.trans hnl).trans hl

/-- Passes at these times, each at least `gap` after the one before and the first at least
`gap` after `last`. -/
def Spaced (gap : ℤ) : ℤ → List ℤ → Prop
  | _, [] => True
  | last, now :: times => last + gap ≤ now ∧ Spaced gap now times

instance decidableSpaced (gap : ℤ) :
    (last : ℤ) → (times : List ℤ) → Decidable (Spaced gap last times)
  | _, [] => isTrue trivial
  | _, now :: times =>
    have := decidableSpaced gap now times
    inferInstanceAs (Decidable (_ ∧ _))

namespace Marks

variable {c : PoolConfig} {last : ℤ} {ms : List (Option ℤ)}

/-- With no more entries than `minSize_`, nothing is ever closed. -/
theorem counts_of_le (h : ms.length ≤ c.minSize) (times : List ℤ) :
    ∀ k ∈ counts c ms times, k = ms.length := by
  induction times generalizing ms with
  | nil => simp [counts]
  | cons now times ih =>
    intro k hk
    rcases List.mem_cons.mp hk with rfl | hk
    · have hopened := opened_pass c now ms
      rw [Nat.sub_eq_zero_of_le h, Nat.min_zero, Nat.add_zero] at hopened
      exact hopened
    · simpa using ih (by simpa using h) k hk

/-- With a negative idle time, every pass closes what it may. -/
theorem counts_of_neg (httl : c.idleTtl < 0) (h : Upto last ms) {gap : ℤ} (hgap : 0 ≤ gap)
    {times : List ℤ} (htimes : Spaced gap last times) :
    ∀ k ∈ counts c ms times, k = ms.length - (ms.length - c.minSize) := by
  induction times generalizing ms last with
  | nil => simp [counts]
  | cons now times ih =>
    have hnow : Upto now ms := h.mono (by have := htimes.1; omega)
    intro k hk
    rcases List.mem_cons.mp hk with rfl | hk
    · have hopened := opened_pass c now ms
      rw [stale_of_neg httl hnow] at hopened
      omega
    · simpa using ih hnow.pass htimes.2 k hk

theorem spaced_replicate_append (k : ℕ) (last : ℤ) {times : List ℤ} (h : Spaced 0 last times) :
    Spaced 0 last (List.replicate k last ++ times) := by
  induction k with
  | zero => exact h
  | succ k ih => exact ⟨by omega, ih⟩

/-- **With more entries than `minSize_` the numbers do not settle**: passes at one time open
everything, a pass beyond `idleTtl_` closes down to `minSize_`, and passes at that time open
everything again. -/
theorem exists_not_settles (httl : 0 ≤ c.idleTtl) (hmin : c.minSize < ms.length)
    (h : Upto last ms) (m : ℕ) :
    ∃ times, Spaced 0 last times ∧ ¬Settles c.minSize (m :: counts c ms times) := by
  obtain ⟨k, pre, hcounts, hopen⟩ := exists_all_open httl ms hmin last
  have hupto := h.passes_replicate (c := c) (k + 1)
  have hlen := length_passes (c := c) ms (List.replicate (k + 1) last)
  generalize hms : passes c ms (List.replicate (k + 1) last) = full at hopen hupto hlen
  -- everything is open, and idle for too long at a later time
  have hbeyond : ∀ l, some l ∈ full → c.idleTtl < last + c.idleTtl + 1 - l := fun l hl => by
    have := hupto l hl
    omega
  have hlow : opened (pass c (last + c.idleTtl + 1) full) = c.minSize := by
    have hopened := opened_pass c (last + c.idleTtl + 1) full
    rw [stale_of_beyond httl hbeyond, hopen, hlen] at hopened
    omega
  have hmin' : c.minSize < (pass c (last + c.idleTtl + 1) full).length := by
    simpa [hlen] using hmin
  obtain ⟨k', pre', hcounts', -⟩ := exists_all_open httl _ hmin' (last + c.idleTtl + 1)
  refine ⟨List.replicate (k + 1) last ++
    (last + c.idleTtl + 1) :: List.replicate (k' + 1) (last + c.idleTtl + 1), ?_, ?_⟩
  · have hagain : Spaced 0 (last + c.idleTtl + 1)
        (List.replicate (k' + 1) (last + c.idleTtl + 1) ++ []) :=
      spaced_replicate_append _ _ trivial
    rw [List.append_nil] at hagain
    exact spaced_replicate_append _ _ (And.intro (by omega) hagain)
  · rw [counts_append, hcounts, hms, counts, hcounts', hlow, length_pass, hlen]
    have hback : ms.length ∈ pre' ++ [ms.length] := by simp
    simpa using not_settles c.minSize (m :: pre) hmin hback hmin

/-! ### Passes that are far apart -/

/-- The numbers after passes that are more than `idleTtl_` apart: each closes all that the one
before it left open, if it may. -/
def swings (n minSize : ℕ) : ℕ → ℕ → List ℕ
  | _, 0 => []
  | u, k + 1 => (n - min u (n - minSize)) :: swings n minSize (n - min u (n - minSize)) k

theorem counts_of_spaced (httl : 0 ≤ c.idleTtl) (h : Upto last ms) {times : List ℤ}
    (htimes : Spaced (c.idleTtl + 1) last times) :
    counts c ms times = swings ms.length c.minSize (opened ms) times.length := by
  induction times generalizing ms last with
  | nil => rfl
  | cons now times ih =>
    have hnow := htimes.1
    have hbeyond : ∀ l, some l ∈ ms → c.idleTtl < now - l := fun l hl => by
      have := h l hl
      omega
    have hopened := opened_pass c now ms
    rw [stale_of_beyond httl hbeyond] at hopened
    have hval : opened (pass c now ms) =
        ms.length - min (opened ms) (ms.length - c.minSize) := by omega
    have hupto : Upto now (pass c now ms) := (h.mono (by omega)).pass
    have htail := ih hupto htimes.2
    rw [length_pass, hval] at htail
    rw [counts, htail, hval]
    rfl

theorem eq_of_mem_swings {n minSize v k x : ℕ} (hv : n - min v (n - minSize) = v)
    (hx : x ∈ swings n minSize v k) : x = v := by
  induction k with
  | zero => cases hx
  | succ k ih =>
    rw [swings, hv] at hx
    rcases List.mem_cons.mp hx with rfl | hx
    · rfl
    · exact ih hx

/-- Passes that are far apart settle with at most twice `minSize_` entries, or when exactly
half of them are open. -/
theorem settles_swings {n minSize u : ℕ} (hu : u ≤ n) (h : n ≤ 2 * minSize ∨ 2 * u = n)
    (m k : ℕ) : Settles minSize (m :: swings n minSize u k) := by
  cases k with
  | zero => trivial
  | succ k =>
    -- the second pass reaches a number that stays
    refine settles_cons_cons_of_const (n := n - min (n - min u (n - minSize)) (n - minSize))
      (by omega) fun x hx => ?_
    cases k with
    | zero => cases hx
    | succ k =>
      rcases List.mem_cons.mp hx with rfl | hx
      · rfl
      · exact eq_of_mem_swings (by omega) hx

/-- From the second pass on, the numbers go to and fro between `b` and `n - b`, and they come
to the smaller of the two from above. -/
theorem exists_swings_four {n minSize u : ℕ} (hu : u ≤ n) (h : 2 * minSize < n)
    (hhalf : 2 * u ≠ n) : ∃ a b, swings n minSize u 4 = [a, b, n - b, b] ∧ b ≤ n ∧
      2 * b ≠ n ∧ (2 * b < n → b < a) := by
  generalize ha : n - min u (n - minSize) = a
  generalize hb : n - min a (n - minSize) = b
  have hback : n - min b (n - minSize) = n - b := by omega
  have hforth : n - min (n - b) (n - minSize) = b := by omega
  refine ⟨a, b, ?_, by omega, by omega, by omega⟩
  simp only [swings, ha, hb, hback, hforth]

theorem not_settles_swings {n minSize u : ℕ} (hu : u ≤ n) (h : 2 * minSize < n) (hhalf : 2 * u ≠ n)
    (m : ℕ) : ¬Settles minSize (m :: swings n minSize u 4) := by
  obtain ⟨a, b, hswings, hb, hne, habove⟩ := exists_swings_four hu h hhalf
  rw [hswings]
  rcases lt_or_gt_of_ne hne with hlow | hhigh
  · exact not_settles minSize [m] (habove hlow) (k := n - b) List.mem_cons_self (by omega)
  · exact not_settles minSize [m, a] (k := b) (by omega) List.mem_cons_self (by omega)

end Marks

/-! ### A pass of the pool is a pass over the marks -/

section Simulation

variable {b : Backend} {c : PoolConfig} {now : ℤ}

/-- An idle entry that is open and healthy, last used at `l`. -/
structure Entry.OpenSince (e : Entry) (l : ℤ) : Prop where
  idle : e.inUse = false
  isSome : e.conn.isSome = true
  healthy : e.healthy = true
  lastUsed_eq : e.lastUsed = l

/-- An idle entry with this mark, which is open exactly if there is one. -/
structure Entry.Marked (b : Backend) (e : Entry) (m : Option ℤ) : Prop where
  idle : e.inUse = false
  isSome_eq : e.conn.isSome = m.isSome
  mark_eq : e.mark b = m

theorem Entry.OpenSince.marked {e : Entry} {l : ℤ} (h : e.OpenSince l) :
    e.Marked b (some l) :=
  ⟨h.idle, h.isSome, by simp [Entry.mark, h.isSome, h.healthy, h.lastUsed_eq]⟩

theorem openSince_checkEntry {index : ℕ} {e : Entry} (h : e.inUse = false) (v : Server) :
    (checkEntry b .ok now index e v).1.OpenSince ((e.mark b).getD now) := by
  have hidle : ¬e.inUse = true := by simp [h]
  cases b with
  | mysql =>
    rw [checkEntry, if_neg hidle]
    split
    · next hbad =>
      have hmark : e.mark .mysql = none := by
        rcases hbad with hbad | hbad
        · simp [Entry.mark, Bool.not_eq_true' _ ▸ hbad]
        · simp [Entry.mark, hbad]
      rw [hmark]
      exact ⟨h, rfl, rfl, rfl⟩
    · next hgood =>
      simp only [not_or, Bool.not_eq_true, Bool.not_eq_false'] at hgood
      have hconn := Option.isSome_iff_ne_none.mpr hgood.2
      have hmark : e.mark .mysql = some e.lastUsed := by simp [Entry.mark, hconn, hgood.1]
      rw [hmark]
      exact ⟨h, hconn, hgood.1, rfl⟩
  | redis =>
    rw [checkEntry, if_neg hidle]
    split
    · next hbad =>
      have hmark : e.mark .redis = none := by simp [Entry.mark, hbad]
      rw [hmark]
      exact ⟨h, rfl, rfl, rfl⟩
    · next hgood =>
      have hconn := Option.isSome_iff_ne_none.mpr hgood
      have hmark : e.mark .redis = some e.lastUsed := by simp [Entry.mark, hconn]
      rw [hmark]
      exact ⟨h, hconn, rfl, rfl⟩

theorem openSince_checkEntries {es : List Entry} (h : ∀ e ∈ es, e.inUse = false) (index : ℕ)
    (v : Server) :
    List.Forall₂ Entry.OpenSince (checkEntries b .ok now index es v).1
      ((es.map (·.mark b)).map (·.getD now)) := by
  induction es generalizing index v with
  | nil => exact List.Forall₂.nil
  | cons e es ih =>
    exact List.Forall₂.cons (openSince_checkEntry (h e List.mem_cons_self) v)
      (ih (fun d hd => h d (List.mem_cons_of_mem e hd)) _ _)

theorem marked_reapEntries {es : List Entry} {ls : List ℤ}
    (h : List.Forall₂ Entry.OpenSince es ls) (n : ℕ) (v : Server) :
    List.Forall₂ (Entry.Marked b) (reapEntries c now n es v).1 (Marks.reap c now n ls) := by
  induction h generalizing n v with
  | nil => exact List.Forall₂.nil
  | @cons e l es ls he hes ih =>
    simp only [reapEntries, Marks.reap]
    split
    · rw [List.map_cons]
      refine List.Forall₂.cons he.marked (List.forall₂_map_right_iff.mpr ?_)
      exact hes.imp fun _ _ h => h.marked
    · have hcond : (!e.inUse ∧ e.conn.isSome ∧ c.idleTtl < now - e.lastUsed) ↔
          c.idleTtl < now - l := by
        simp [he.idle, he.isSome, he.lastUsed_eq]
      by_cases hstale : c.idleTtl < now - l
      · rw [if_pos (hcond.mpr hstale), if_pos hstale]
        exact List.Forall₂.cons ⟨rfl, rfl, rfl⟩ (ih _ _)
      · rw [if_neg (fun h => hstale (hcond.mp h)), if_neg hstale]
        exact List.Forall₂.cons he.marked (ih _ _)

theorem openConnections_eq_length {es : List Entry} {ls : List ℤ}
    (h : List.Forall₂ Entry.OpenSince es ls) : openConnections es = es.length := by
  induction h with
  | nil => rfl
  | cons he _ ih => simpa [openConnections, he.isSome] using ih

theorem map_mark_eq {es : List Entry} {ms : List (Option ℤ)}
    (h : List.Forall₂ (Entry.Marked b) es ms) : es.map (·.mark b) = ms := by
  induction h with
  | nil => rfl
  | cons he _ ih => rw [List.map_cons, he.mark_eq, ih]

theorem openConnections_eq_opened {es : List Entry} {ms : List (Option ℤ)}
    (h : List.Forall₂ (Entry.Marked b) es ms) : openConnections es = Marks.opened ms := by
  induction h with
  | nil => rfl
  | cons he _ ih =>
    simp only [openConnections, Marks.opened, List.countP_cons, he.isSome_eq] at ih ⊢
    rw [ih]

theorem idle_of_marked {es : List Entry} {ms : List (Option ℤ)}
    (h : List.Forall₂ (Entry.Marked b) es ms) : ∀ e ∈ es, e.inUse = false := by
  induction h with
  | nil => simp
  | cons he _ ih =>
    intro d hd
    rcases List.mem_cons.mp hd with rfl | hd
    · exact he.idle
    · exact ih d hd

namespace ConnectionPool

variable {s : ConnectionPool}

/-- What is kept from pass to pass: the pool runs and none of its entries is in use. -/
structure Idle (s : ConnectionPool) : Prop where
  running : s.running = true
  idle : ∀ e ∈ s.entries, e.inUse = false

/-- The marks of the entries of a pool. -/
def marks (b : Backend) (s : ConnectionPool) : List (Option ℤ) := s.entries.map (·.mark b)

/-- **A pass of an idle pool is a pass over its marks**, every connect and ping
succeeding. -/
theorem exists_healthPass (h : s.Idle) (b : Backend) (c : PoolConfig) (now : ℤ) :
    ∃ t, s.step b c (.healthPass .ok now) = some t ∧ t.Idle ∧
      t.marks b = Marks.pass c now (s.marks b) ∧
      openConnections t.entries = Marks.opened (Marks.pass c now (s.marks b)) := by
  have hround : List.Forall₂ (Entry.Marked b) (healthRound b c .ok now s.entries s.server).1
      (Marks.pass c now (s.marks b)) := by
    have hcheck : List.Forall₂ Entry.OpenSince (checkEntries b .ok now 0 s.entries s.server).1
        ((s.marks b).map (·.getD now)) := openSince_checkEntries h.idle 0 s.server
    have hlen : openConnections (checkEntries b .ok now 0 s.entries s.server).1 =
        (s.marks b).length := by
      rw [openConnections_eq_length hcheck, hcheck.length_eq, List.length_map]
    simp only [healthRound]
    rw [hlen]
    exact marked_reapEntries hcheck _ _
  refine ⟨{ s with
    entries := (healthRound b c .ok now s.entries s.server).1
    server := (healthRound b c .ok now s.entries s.server).2 }, ?_, ?_⟩
  · simp [step, h.running]
  · exact ⟨⟨h.running, idle_of_marked hround⟩, map_mark_eq hround,
      openConnections_eq_opened hround⟩

/-- How many connections are open before and after each of some passes in which every connect
and ping succeeds. -/
def openCounts (b : Backend) (c : PoolConfig) : ConnectionPool → List ℤ → List ℕ
  | s, [] => [openConnections s.entries]
  | s, now :: times =>
    openConnections s.entries ::
      match s.step b c (.healthPass .ok now) with
      | none => []
      | some t => openCounts b c t times

theorem openCounts_eq (h : s.Idle) (b : Backend) (c : PoolConfig) (times : List ℤ) :
    s.openCounts b c times =
      openConnections s.entries :: Marks.counts c (s.marks b) times := by
  induction times generalizing s with
  | nil => rfl
  | cons now times ih =>
    obtain ⟨t, hstep, ht, hmarks, hopen⟩ := exists_healthPass h b c now
    rw [openCounts, hstep]
    dsimp only
    rw [ih ht, hmarks, hopen]
    rfl

theorem upto_marks {b : Backend} {last : ℤ} (h : ∀ e ∈ s.entries, e.lastUsed ≤ last) :
    Marks.Upto last (s.marks b) := by
  intro l hl
  obtain ⟨e, he, hmark⟩ := List.mem_map.mp hl
  unfold Entry.mark at hmark
  split at hmark
  · obtain rfl := Option.some.inj hmark
    exact h e he
  · cases hmark

/-- Some time is at or after every use. -/
theorem exists_lastUsed_le (es : List Entry) : ∃ last, ∀ e ∈ es, e.lastUsed ≤ last := by
  induction es with
  | nil => exact ⟨0, by simp⟩
  | cons e es ih =>
    obtain ⟨last, hlast⟩ := ih
    refine ⟨max e.lastUsed last, fun d hd => ?_⟩
    rcases List.mem_cons.mp hd with rfl | hd
    · exact le_max_left _ _
    · exact (hlast d hd).trans (le_max_right _ _)

/-- The entries that a pass does not reconnect. -/
def usable (b : Backend) (s : ConnectionPool) : ℕ := Marks.opened (s.marks b)

/-- The passes with these gaps settle, whenever they begin. -/
def PassesSettle (b : Backend) (c : PoolConfig) (gap : ℤ) (s : ConnectionPool) : Prop :=
  ∀ last times, (∀ e ∈ s.entries, e.lastUsed ≤ last) → Spaced gap last times →
    Settles c.minSize (s.openCounts b c times)

theorem passesSettle_of_le (h : s.Idle) {b : Backend} {c : PoolConfig}
    (hle : s.entries.length ≤ c.minSize) (gap : ℤ) : s.PassesSettle b c gap := by
  intro last times _ _
  rw [openCounts_eq h]
  exact settles_cons_of_const (Marks.counts_of_le (by simpa [marks] using hle) times)

theorem passesSettle_of_neg (h : s.Idle) {b : Backend} {c : PoolConfig} (httl : c.idleTtl < 0)
    {gap : ℤ} (hgap : 0 ≤ gap) : s.PassesSettle b c gap := by
  intro last times hlast htimes
  rw [openCounts_eq h]
  exact settles_cons_of_const (Marks.counts_of_neg httl (upto_marks hlast) hgap htimes)

/-- **Whether the passes settle**, for an idle pool of either kind. Passes at any times do so
exactly if the pool has no more entries than `minSize_`; passes that are all more than
`idleTtl_` apart, exactly if it has no more than twice as many, or if half of them are
reconnected in turn. -/
theorem settles_iff (b : Backend) (c : PoolConfig) (s : ConnectionPool) (h : s.Idle) :
    (s.PassesSettle b c 0 ↔ s.entries.length ≤ c.minSize ∨ c.idleTtl < 0) ∧
      (s.PassesSettle b c (max 0 (c.idleTtl + 1)) ↔
        s.entries.length ≤ 2 * c.minSize ∨ 2 * s.usable b = s.entries.length ∨
          c.idleTtl < 0) := by
  have hlen : (s.marks b).length = s.entries.length := List.length_map _
  obtain ⟨last, hlast⟩ := exists_lastUsed_le s.entries
  have hupto : Marks.Upto last (s.marks b) := upto_marks hlast
  refine ⟨⟨fun hs => ?_, ?_⟩, ⟨fun hs => ?_, ?_⟩⟩
  · by_contra hcon
    rw [not_or, not_le, not_lt] at hcon
    obtain ⟨times, htimes, hnot⟩ := Marks.exists_not_settles hcon.2 (hlen ▸ hcon.1) hupto
      (openConnections s.entries)
    exact hnot (openCounts_eq h b c times ▸ hs last times hlast htimes)
  · rintro (hle | httl)
    · exact passesSettle_of_le h hle 0
    · exact passesSettle_of_neg h httl le_rfl
  · by_contra hcon
    rw [not_or, not_or, not_le, not_lt] at hcon
    obtain ⟨hmany, hhalf, httl⟩ := hcon
    rw [max_eq_right (by omega)] at hs
    -- four passes, each just beyond `idleTtl_`
    have htimes : Spaced (c.idleTtl + 1) last
        [last + (c.idleTtl + 1), last + 2 * (c.idleTtl + 1), last + 3 * (c.idleTtl + 1),
          last + 4 * (c.idleTtl + 1)] := by
      refine ⟨?_, ?_, ?_, ?_, trivial⟩ <;> omega
    have hsettles := hs last _ hlast htimes
    rw [openCounts_eq h, Marks.counts_of_spaced httl hupto htimes, hlen] at hsettles
    refine Marks.not_settles_swings ?_ hmany hhalf _ hsettles
    exact hlen ▸ List.countP_le_length
  · intro hcases
    by_cases httl : c.idleTtl < 0
    · exact passesSettle_of_neg h httl (le_max_left _ _)
    · intro last times hlast htimes
      rw [max_eq_right (by omega)] at htimes
      rw [openCounts_eq h, Marks.counts_of_spaced (by omega) (upto_marks hlast) htimes, hlen]
      refine Marks.settles_swings (hlen ▸ List.countP_le_length) ?_ _ _
      rcases hcases with hcases | hcases | hcases
      · exact Or.inl hcases
      · exact Or.inr hcases
      · exact absurd hcases httl

/-- A pool of two, both of which are kept. -/
theorem settles_iff_two :
    ∃ s, Runs.run (step .redis (.make 2 2 60)) {} [.start .ok] = some s ∧
      s.PassesSettle .redis (.make 2 2 60) 0 :=
  ⟨_, rfl, ((settles_iff .redis (.make 2 2 60) _ ⟨rfl, by decide⟩).1).mpr (Or.inl (by decide))⟩

/-- Three connections of a pool that keeps one are given back and left alone. The passes,
all of them more than `idleTtl_` apart, leave one of them open, then two, then one, then
two. -/
theorem passes_reopen :
    (∃ s, Runs.run (step .mysql (.make 1 3 60)) {}
        [.start .ok, .acquire .ok false, .acquire .ok false, .acquire .ok false,
          .release 0 false 0, .release 1 false 0, .release 2 false 0] = some s ∧
      s.Idle ∧ (∀ e ∈ s.entries, e.lastUsed ≤ 0) ∧ Spaced 61 0 [61, 122, 183, 244] ∧
      s.openCounts .mysql (.make 1 3 60) [61, 122, 183, 244] = [3, 1, 2, 1, 2] ∧
      ¬Settles 1 [3, 1, 2, 1, 2]) ∧
    (∃ s, Runs.run (step .redis (.make 1 3 60)) {}
        [.start .ok, .acquire .ok false, .acquire .ok false, .acquire .ok false,
          .release 0 false 0, .release 1 false 0, .release 2 false 0] = some s ∧
      s.Idle ∧ (∀ e ∈ s.entries, e.lastUsed ≤ 0) ∧ Spaced 61 0 [61, 122, 183, 244] ∧
      s.openCounts .redis (.make 1 3 60) [61, 122, 183, 244] = [3, 1, 2, 1, 2] ∧
      ¬Settles 1 [3, 1, 2, 1, 2]) := by
  have htimes : Spaced 61 0 [61, 122, 183, 244] := by decide
  have hnot : ¬Settles 1 [3, 1, 2, 1, 2] :=
    not_settles 1 [] (m := 3) (n := 1) (k := 2) (by decide) (by decide) (by decide)
  exact ⟨⟨_, rfl, ⟨rfl, by decide⟩, by decide, htimes, by decide, hnot⟩,
    ⟨_, rfl, ⟨rfl, by decide⟩, by decide, htimes, by decide, hnot⟩⟩

end ConnectionPool

end Simulation

end MonitorSystem
