import Mathlib.Data.List.Basic
import Mathlib.Logic.Function.Basic
import Mathlib.Order.Basic

/-!
# Words that one program writes and another one reads

A writer stores words in a memory, one after the other, and a reader loads them, one after the
other, while the writer goes on. A load or a store of a single word is atomic, and nothing else
is: what the reader puts together of several words need not have been in the memory at any one
moment.

The reader does not disturb the writer. An interleaving of the two is therefore given by how many
stores have been made before each load, and all that is to be known of it is that these numbers
do not decrease. `SharedWords.memory` is the memory after some stores.

* `SharedWords.memory_le` – if no store lowers its word (`SharedWords.Rising`), a later load of a
  word gives no less than an earlier one;
* `SharedWords.rising_rounds` – a writer that stores its words in rounds, none of which is below
  the one before, lowers no word;
* `SharedWords.memory_rounds_le` – what is loaded of such a writer is at most what its last round
  stores.
-/

namespace SharedWords

variable {ι V : Type*} [DecidableEq ι]

/-- **The memory after the first `k` stores.** -/
def memory (init : ι → V) (writes : List (ι × V)) (k : ℕ) : ι → V :=
  (writes.take k).foldl (fun m w => Function.update m w.1 w.2) init

variable {init : ι → V} {w : ι × V} {writes writes' : List (ι × V)} {k l : ℕ}

@[simp] theorem memory_zero : memory init writes 0 = init := rfl

@[simp] theorem memory_nil : memory init [] k = init := by
  rw [memory, List.take_nil, List.foldl_nil]

@[simp] theorem memory_cons_succ :
    memory init (w :: writes) (k + 1) = memory (Function.update init w.1 w.2) writes k := rfl

/-- The memory after all stores. -/
def final (init : ι → V) (writes : List (ι × V)) : ι → V := memory init writes writes.length

@[simp] theorem final_nil : final init [] = init := rfl

@[simp] theorem final_cons :
    final init (w :: writes) = final (Function.update init w.1 w.2) writes := rfl

theorem final_append : final init (writes ++ writes') = final (final init writes) writes' := by
  induction writes generalizing init with
  | nil => rfl
  | cons w writes ih => rw [List.cons_append, final_cons, ih, final_cons]

/-- Further stores change nothing once all have been made. -/
theorem memory_of_length_le (h : writes.length ≤ k) : memory init writes k = final init writes := by
  rw [final, memory, memory, List.take_of_length_le h, List.take_length]

/-! ### Stores that lower no word -/

section Rising

variable [Preorder V]

/-- **No store lowers its word.** -/
def Rising : (ι → V) → List (ι × V) → Prop
  | _, [] => True
  | m, w :: writes => m w.1 ≤ w.2 ∧ Rising (Function.update m w.1 w.2) writes

theorem rising_append :
    Rising init (writes ++ writes') ↔
      Rising init writes ∧ Rising (final init writes) writes' := by
  induction writes generalizing init with
  | nil => simp only [List.nil_append, Rising, true_and, final_nil]
  | cons w writes ih => simp only [List.cons_append, Rising, ih, final_cons, and_assoc]

/-- A store that does not lower its word lowers no word. -/
theorem le_update {i : ι} {v : V} (h : init i ≤ v) (j : ι) : init j ≤ Function.update init i v j := by
  rcases eq_or_ne j i with rfl | hne
  · rwa [Function.update_self]
  · rw [Function.update_of_ne hne]

/-- **A later load gives no less.** -/
theorem memory_le (h : Rising init writes) (hkl : k ≤ l) (i : ι) :
    memory init writes k i ≤ memory init writes l i := by
  induction writes generalizing init k l with
  | nil => rw [memory_nil, memory_nil]
  | cons w writes ih =>
    cases l with
    | zero =>
      obtain rfl := Nat.le_zero.mp hkl
      exact le_rfl
    | succ l =>
      cases k with
      | zero => exact (le_update h.1 i).trans (ih h.2 (Nat.zero_le l))
      | succ k => exact ih h.2 (Nat.le_of_succ_le_succ hkl)

/-- What is loaded is at most what is there in the end. -/
theorem memory_le_final (h : Rising init writes) (k : ℕ) (i : ι) :
    memory init writes k i ≤ final init writes i := by
  rcases Nat.le_total k writes.length with hk | hk
  · exact memory_le h hk i
  · rw [memory_of_length_le hk]

end Rising

/-! ### Rounds -/

/-- A round: the words of some cells, in order. -/
def round (cells : List ι) (f : ι → V) : List (ι × V) := cells.map fun i => (i, f i)

/-- One round after the other. -/
def rounds (cells : List ι) (fs : List (ι → V)) : List (ι × V) := fs.flatMap (round cells)

variable {cells : List ι} {f : ι → V} {fs : List (ι → V)}

/-- A round leaves its words in the cells, and the rest as it was. -/
theorem final_round_apply (i : ι) :
    final init (round cells f) i = if i ∈ cells then f i else init i := by
  induction cells generalizing init with
  | nil => rfl
  | cons j cells ih =>
    show final (Function.update init j (f j)) (round cells f) i = _
    rw [ih]
    rcases eq_or_ne i j with rfl | hne
    · rw [Function.update_self, if_pos List.mem_cons_self, ite_self]
    · simp only [Function.update_of_ne hne, List.mem_cons, or_iff_right hne]

section Rising

variable [Preorder V]

theorem rising_round (h : ∀ i ∈ cells, init i ≤ f i) : Rising init (round cells f) := by
  induction cells generalizing init with
  | nil => exact trivial
  | cons j cells ih =>
    obtain ⟨hj, hrest⟩ := List.forall_mem_cons.mp h
    refine ⟨hj, ih fun i hi => ?_⟩
    rcases eq_or_ne i j with rfl | hne
    · exact (Function.update_self i (f i) init).le
    · exact (Function.update_of_ne hne (f j) init).le.trans (hrest i hi)

/-- **A writer whose rounds are none of them below the one before lowers no word.** -/
theorem rising_rounds (h : (init :: fs).Pairwise fun f g => ∀ i ∈ cells, f i ≤ g i) :
    Rising init (rounds cells fs) := by
  induction fs generalizing init with
  | nil => exact trivial
  | cons f fs ih =>
    obtain ⟨hinit, hfs⟩ := List.pairwise_cons.mp h
    obtain ⟨hf, hrest⟩ := List.pairwise_cons.mp hfs
    rw [rounds, List.flatMap_cons, rising_append]
    refine ⟨rising_round (hinit f List.mem_cons_self), ih ?_⟩
    -- after the round, the memory is the round on its cells
    refine List.pairwise_cons.mpr ⟨fun g hg i hi => ?_, hrest⟩
    rw [final_round_apply, if_pos hi]
    exact hf g hg i hi

/-- **What is loaded is at most what the last round stores.** -/
theorem memory_rounds_le (h : (init :: fs).Pairwise fun f g => ∀ i ∈ cells, f i ≤ g i) (k : ℕ)
    {i : ι} (hi : i ∈ cells) :
    memory init (rounds cells fs) k i ≤ (init :: fs).getLast (List.cons_ne_nil _ _) i := by
  refine (memory_le_final (rising_rounds h) k i).trans ?_
  clear h
  induction fs generalizing init with
  | nil => exact le_rfl
  | cons f fs ih =>
    rw [rounds, List.flatMap_cons, final_append, List.getLast_cons_cons]
    cases fs with
    | nil =>
      show final init (round cells f) i ≤ f i
      rw [final_round_apply, if_pos hi]
    | cons g gs => exact ih

end Rising

end SharedWords
