import Mathlib.Algebra.BigOperators.Group.List.Basic
import Mathlib.Algebra.Group.Basic
import Mathlib.Data.List.Chain

/-!
# What is computed against the item before

A process that remembers of each item a sample, and makes an output of the next item and of
this sample. What it makes of a list (`Successive.run`) is, but for the first output, a
function of two successive items (`Successive.steps_run`). Where each of these outputs accounts
for what a quantity has gained between the two items, all of them account for what it has
gained in the whole (`Successive.sum_steps`).
-/

namespace Successive

variable {ι τ ο : Type*} (sample : ι → τ) (out : ι → τ → ο)

/-- The outputs for a list of items, the first of them against a given sample. -/
def run (last : τ) : List ι → List ο
  | [] => []
  | i :: is => out i last :: run (sample i) is

/-- The sample that is remembered after a list of items. -/
def final (last : τ) : List ι → τ
  | [] => last
  | i :: is => final (sample i) is

/-- Two successive items, each time with the output for the second of them. -/
def steps (is : List ι) (os : List ο) : List (ι × ι × ο) := is.zip (is.tail.zip os.tail)

variable {sample out}

@[simp] theorem run_nil (last : τ) : run sample out last [] = [] := rfl

@[simp] theorem final_nil (last : τ) : final sample last [] = last := rfl

@[simp] theorem run_append (last : τ) (is js : List ι) :
    run sample out last (is ++ js) =
      run sample out last is ++ run sample out (final sample last is) js := by
  induction is generalizing last with
  | nil => rfl
  | cons i is ih => rw [List.cons_append, run, run, final, ih, List.cons_append]

@[simp] theorem length_run (last : τ) (is : List ι) :
    (run sample out last is).length = is.length := by
  induction is generalizing last with
  | nil => rfl
  | cons i is ih => rw [run, List.length_cons, List.length_cons, ih]

theorem run_map {κ : Type*} (g : κ → ι) (last : τ) (ks : List κ) :
    run sample out last (ks.map g) = run (fun k => sample (g k)) (fun k => out (g k)) last ks := by
  induction ks generalizing last with
  | nil => rfl
  | cons k ks ih => rw [List.map_cons, run, run, ih]

theorem final_map {κ : Type*} (g : κ → ι) (last : τ) (ks : List κ) :
    final sample last (ks.map g) = final (fun k => sample (g k)) last ks := by
  induction ks generalizing last with
  | nil => rfl
  | cons k ks ih => exact ih (sample (g k))

/-- **An output is one of its item and of the sample of the item before.** -/
theorem getElem?_run (last : τ) (is : List ι) (k : ℕ) :
    (run sample out last is)[k]? = is[k]?.map fun i => out i (final sample last (is.take k)) := by
  induction is generalizing last k with
  | nil => rfl
  | cons i is ih =>
    cases k with
    | zero => rfl
    | succ k => exact ih (sample i) k

/-- What is remembered is the sample of the last item, if there is one. -/
theorem final_eq (last : τ) (is : List ι) :
    final sample last is = is.getLast?.elim last sample := by
  induction is generalizing last with
  | nil => rfl
  | cons i is ih =>
    rw [final, ih, List.getLast?_cons]
    cases is.getLast? <;> rfl

theorem mem_run {o : ο} {last : τ} {is : List ι} (h : o ∈ run sample out last is) :
    ∃ i ∈ is, ∃ t, o = out i t := by
  induction is generalizing last with
  | nil => cases h
  | cons i is ih =>
    rcases List.mem_cons.mp h with rfl | h
    · exact ⟨i, List.mem_cons_self, last, rfl⟩
    · obtain ⟨j, hj, hout⟩ := ih h
      exact ⟨j, List.mem_cons_of_mem i hj, hout⟩

/-- **But for the first one, an output is one of two successive items.** -/
theorem steps_run (last : τ) (is : List ι) :
    steps is (run sample out last is) =
      (is.zip is.tail).map fun i => (i.1, i.2, out i.2 (sample i.1)) := by
  have hcons : ∀ (i : ι) (is : List ι), (i :: is).zip (is.zip (run sample out (sample i) is)) =
      ((i :: is).zip is).map fun i => (i.1, i.2, out i.2 (sample i.1)) := by
    intro i is
    induction is generalizing i with
    | nil => rfl
    | cons j is ih =>
      rw [run, List.zip_cons_cons, List.zip_cons_cons, List.zip_cons_cons, List.map_cons, ih j]
  cases is with
  | nil => rfl
  | cons i is => exact hcons i is

theorem mem_steps_run {last : τ} {is : List ι} {i j : ι} {o : ο}
    (h : (i, j, o) ∈ steps is (run sample out last is)) :
    i ∈ is ∧ j ∈ is ∧ o = out j (sample i) := by
  rw [steps_run] at h
  obtain ⟨⟨i', j'⟩, hmem, heq⟩ := List.mem_map.mp h
  obtain ⟨rfl, rfl, rfl⟩ := by simpa using heq
  obtain ⟨hi, hj⟩ := List.of_mem_zip hmem
  exact ⟨hi, List.mem_of_mem_tail hj, rfl⟩

/-- **The outputs account for what a quantity gains from the first item to the last one** if
each of them accounts for what it gains from one item to the next. -/
theorem sum_steps {M : Type*} [AddCommGroup M] {r : ι → ι → Prop} {gain : ι × ι × ο → M}
    (quantity : ι → M) {last : τ} {is : List ι} (hne : is ≠ []) (hr : is.IsChain r)
    (h : ∀ i ∈ is, ∀ j ∈ is, r i j → gain (i, j, out j (sample i)) = quantity j - quantity i) :
    ((steps is (run sample out last is)).map gain).sum =
      quantity (is.getLast hne) - quantity (is.head hne) := by
  rw [steps_run, List.map_map]
  induction is with
  | nil => exact absurd rfl hne
  | cons i is ih =>
    cases is with
    | nil => simp
    | cons j is =>
      obtain ⟨hij, hchain⟩ := List.isChain_cons_cons.mp hr
      have hrest := ih (List.cons_ne_nil _ _) hchain fun a ha b hb =>
        h a (List.mem_cons_of_mem i ha) b (List.mem_cons_of_mem i hb)
      have hfirst := h i List.mem_cons_self j (List.mem_cons_of_mem i List.mem_cons_self) hij
      rw [List.tail_cons, List.zip_cons_cons, List.map_cons, List.sum_cons]
      rw [List.tail_cons] at hrest
      rw [hrest, Function.comp_apply, hfirst, List.getLast_cons (List.cons_ne_nil _ _),
        List.head_cons, List.head_cons, sub_add_sub_cancel']

end Successive
