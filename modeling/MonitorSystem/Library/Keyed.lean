import Mathlib.Data.List.Basic
import Mathlib.Logic.Function.Basic
import MonitorSystem.Library.Successive

/-!
# Processes whose state is kept by key

A process that keeps one state for each key, and whose step on an item reads and
writes only the state of the item's key. The outputs for the items of some keys are
then those of the run on these items alone (`Keyed.run_filter`): what happens under
other keys cannot be seen. Where the state is nothing but a sample of the last item of its key,
each output is computed against the item of the same key before it (`Keyed.run_successive`).
-/

namespace Keyed

variable {κ σ ι ο : Type*} [DecidableEq κ] (key : ι → κ) (f : σ → ι → σ × ο)

/-- One step: the state of the item's key is replaced, and there is an output. -/
def step (m : κ → σ) (i : ι) : (κ → σ) × ο :=
  (Function.update m (key i) (f (m (key i)) i).1, (f (m (key i)) i).2)

/-- The run on a list of items: the final state, and each item with its output. -/
def run (m : κ → σ) : List ι → (κ → σ) × List (ι × ο)
  | [] => (m, [])
  | i :: is =>
    let r := run (step key f m i).1 is
    (r.1, (i, (step key f m i).2) :: r.2)

variable {key f}

/-- The outputs of a run on items of the keys `p` depend on the states of these keys
only. -/
theorem run_congr {p : κ → Prop} {l : List ι} (hl : ∀ i ∈ l, p (key i)) {m n : κ → σ}
    (h : ∀ k, p k → m k = n k) :
    (run key f m l).2 = (run key f n l).2 ∧
      ∀ k, p k → (run key f m l).1 k = (run key f n l).1 k := by
  induction l generalizing m n with
  | nil => exact ⟨rfl, h⟩
  | cons i l ih =>
    have hi : m (key i) = n (key i) := h _ (hl i List.mem_cons_self)
    have hstep : ∀ k, p k → (step key f m i).1 k = (step key f n i).1 k := by
      intro k hk
      rcases eq_or_ne k (key i) with rfl | hne
      · simp [step, hi]
      · simp [step, hne, h k hk]
    have hval : (step key f m i).2 = (step key f n i).2 := by simp [step, hi]
    obtain ⟨hout, hstate⟩ := ih (fun j hj => hl j (List.mem_cons_of_mem i hj)) hstep
    exact ⟨by simp only [run, hout, hval], hstate⟩

/-- **Other keys cannot be seen**: restricting a run to the items of some keys gives
the run on these items. -/
theorem run_filter (p : κ → Bool) (m : κ → σ) (is : List ι) :
    (run key f m is).2.filter (fun o => p (key o.1)) =
      (run key f m (is.filter fun i => p (key i))).2 ∧
    ∀ k, p k = true → (run key f m is).1 k = (run key f m (is.filter fun i => p (key i))).1 k := by
  induction is generalizing m with
  | nil => exact ⟨rfl, fun _ _ => rfl⟩
  | cons i is ih =>
    obtain ⟨hout, hstate⟩ := ih (step key f m i).1
    by_cases hp : p (key i) = true
    · simp only [run, List.filter_cons, hp, if_true, hout]
      exact ⟨trivial, hstate⟩
    · -- the skipped item changes only the state of its own key
      have hskip : ∀ k, p k = true → (step key f m i).1 k = m k := by
        intro k hk
        have hne : k ≠ key i := fun he => hp (he ▸ hk)
        simp [step, hne]
      obtain ⟨hout', hstate'⟩ := run_congr (f := f) (p := fun k => p k = true)
        (l := is.filter fun i => p (key i)) (fun j hj => (List.mem_filter.mp hj).2) hskip
      simp only [run, List.filter_cons, hp, hout]
      exact ⟨hout', fun k hk => (hstate k hk).trans (hstate' k hk)⟩

/-- Each output is made of its item and of some state. -/
theorem exists_of_mem_run {m : κ → σ} {is : List ι} {o : ι × ο} (h : o ∈ (run key f m is).2) :
    o.1 ∈ is ∧ ∃ s, o.2 = (f s o.1).2 := by
  induction is generalizing m with
  | nil => cases h
  | cons i is ih =>
    rcases List.mem_cons.mp h with rfl | h
    · exact ⟨List.mem_cons_self, _, rfl⟩
    · obtain ⟨hmem, hout⟩ := ih h
      exact ⟨List.mem_cons_of_mem i hmem, hout⟩

/-- What is made of the only item of a key. -/
theorem run_single {k : κ} {m : κ → σ} {is : List ι} {i : ι} (hi : key i = k)
    (h : is.filter (fun i => key i = k) = [i]) :
    (run key f m is).2.filter (fun o => key o.1 = k) = [(i, (f (m k) i).2)] ∧
      (run key f m is).1 k = (f (m k) i).1 := by
  obtain ⟨hout, hstate⟩ := @run_filter κ σ ι ο _ key f (fun j => decide (j = k)) m is
  rw [h] at hout hstate
  subst hi
  refine ⟨hout, (hstate (key i) (decide_eq_true rfl)).trans ?_⟩
  exact Function.update_self ..

/-- Where an output shows which key its item has, the outputs of a key can be told. -/
theorem filter_run {k : κ} {q : ο → Prop} [DecidablePred q] (hq : ∀ s i, q (f s i).2 ↔ key i = k)
    (m : κ → σ) (is : List ι) :
    ((run key f m is).2.map (·.2)).filter (fun o => q o) =
      ((run key f m is).2.filter fun o => key o.1 = k).map (·.2) := by
  have hkey : ∀ o ∈ (run key f m is).2, decide (q o.2) = decide (key o.1 = k) := by
    intro o ho
    obtain ⟨-, s, hmade⟩ := exists_of_mem_run ho
    rw [hmade]
    exact decide_eq_decide.mpr (hq s o.1)
  rw [List.filter_map]
  exact congrArg (List.map (·.2)) (List.filter_congr hkey)

/-- The same as `run_single`, where the output shows which key its item has. -/
theorem run_single_shown {k : κ} {m : κ → σ} {is : List ι} {i : ι} {q : ο → Prop}
    [DecidablePred q] (hq : ∀ s i, q (f s i).2 ↔ key i = k) (hi : key i = k)
    (h : is.filter (fun i => key i = k) = [i]) :
    ((run key f m is).2.map (·.2)).filter (fun o => q o) = [(f (m k) i).2] ∧
      (run key f m is).1 k = (f (m k) i).1 := by
  obtain ⟨hout, hstate⟩ := run_single (f := f) (m := m) hi h
  rw [filter_run hq, hout]
  exact ⟨rfl, hstate⟩

/-- **What is remembered of a key is its last item**: the outputs of the key are made of its items
alone, each of them against the sample of the one before. -/
theorem run_successive {sample : ι → σ} (hf : ∀ s i, (f s i).1 = sample i) {k : κ}
    {q : ο → Prop} [DecidablePred q] (hq : ∀ s i, q (f s i).2 ↔ key i = k) (m : κ → σ)
    (is : List ι) :
    ((run key f m is).2.map (·.2)).filter (fun o => q o) =
        Successive.run sample (fun i s => (f s i).2) (m k) (is.filter fun i => key i = k) ∧
      (run key f m is).1 k = Successive.final sample (m k) (is.filter fun i => key i = k) := by
  induction is generalizing m with
  | nil => exact ⟨rfl, rfl⟩
  | cons i is ih =>
    obtain ⟨hout, hstate⟩ := ih (step key f m i).1
    have hstep : (step key f m i).1 = Function.update m (key i) (sample i) :=
      congrArg (Function.update m (key i)) (hf _ i)
    rw [hstep] at hout hstate
    rw [run, hstep, List.map_cons, List.filter_cons, List.filter_cons]
    by_cases h : key i = k
    · subst h
      rw [Function.update_self] at hout hstate
      have hshown : q (step key f m i).2 := (hq _ i).mpr rfl
      rw [if_pos (decide_eq_true hshown), if_pos (decide_eq_true rfl), hout, hstate]
      exact ⟨rfl, rfl⟩
    · rw [Function.update_of_ne (Ne.symm h)] at hout hstate
      have hhidden : ¬q (step key f m i).2 := fun hshown => h ((hq _ i).mp hshown)
      rw [if_neg (by simpa using hhidden), if_neg (by simpa using h)]
      exact ⟨hout, hstate⟩

end Keyed
