import Mathlib.Logic.Basic
import Mathlib.Data.List.Basic

/-!
# Unwinding

Many parties act on one state, and one of them looks at it. Which actions concern the
observer is given by `own`, and what it sees of a state by `view`. If an action that does
not concern it leaves what it sees unchanged, and one that does changes it in a way that
depends on what it sees only, then after any sequence of actions it sees what it would see
if the others had done nothing (`Unwinding.view_run`). Where the actions of the others are
harmless in certain states only, the same holds of the sequences that are taken through
these states (`Unwinding.view_run_along`).
-/

namespace Unwinding

variable {σ ι β : Type*}

/-- The state after a sequence of actions. -/
def run (step : σ → ι → σ) (s : σ) (is : List ι) : σ := is.foldl step s

@[simp] theorem run_nil (step : σ → ι → σ) (s : σ) : run step s [] = s := rfl

@[simp] theorem run_cons (step : σ → ι → σ) (s : σ) (i : ι) (is : List ι) :
    run step s (i :: is) = run step (step s i) is := rfl

/-- Every action of a sequence is taken in a state where `G` allows it. -/
def Along (step : σ → ι → σ) (G : σ → ι → Prop) : σ → List ι → Prop
  | _, [] => True
  | s, i :: is => G s i ∧ Along step G (step s i) is

theorem along_of_forall {step : σ → ι → σ} {G : σ → ι → Prop} {is : List ι}
    (h : ∀ s, ∀ i ∈ is, G s i) (s : σ) : Along step G s is := by
  induction is generalizing s with
  | nil => exact trivial
  | cons i is ih =>
    exact ⟨h s i List.mem_cons_self, ih (fun s j hj => h s j (List.mem_cons_of_mem i hj)) _⟩

theorem along_append {step : σ → ι → σ} {G : σ → ι → Prop} {s : σ} {is js : List ι} :
    Along step G s (is ++ js) ↔ Along step G s is ∧ Along step G (run step s is) js := by
  induction is generalizing s with
  | nil => exact ⟨fun h => ⟨trivial, h⟩, fun h => h.2⟩
  | cons i is ih => simp only [List.cons_append, Along, ih, run_cons, and_assoc]

/-- **The unwinding rule**, where the actions of the others are harmless in the states that
`G` allows. -/
theorem view_run_along {step : σ → ι → σ} {view : σ → β} {own : ι → Bool} {G : σ → ι → Prop}
    {is : List ι}
    (hother : ∀ s, ∀ i ∈ is, G s i → own i = false → view (step s i) = view s)
    (hown : ∀ s t, ∀ i ∈ is, own i = true → view s = view t → view (step s i) = view (step t i))
    {s t : σ} (hG : Along step G s is) (h : view s = view t) :
    view (run step s is) = view (run step t (is.filter own)) := by
  induction is generalizing s t with
  | nil => exact h
  | cons i is ih =>
    have hrest := @ih (fun s j hj => hother s j (List.mem_cons_of_mem i hj))
      (fun s t j hj => hown s t j (List.mem_cons_of_mem i hj))
    cases hi : own i with
    | true =>
      rw [List.filter_cons_of_pos hi]
      exact hrest hG.2 (hown s t i List.mem_cons_self hi h)
    | false =>
      rw [List.filter_cons_of_neg (by simp [hi])]
      exact hrest hG.2 ((hother s i List.mem_cons_self hG.1 hi).trans h)

/-- **The unwinding rule.** -/
theorem view_run {step : σ → ι → σ} {view : σ → β} {own : ι → Bool} {is : List ι}
    (hother : ∀ s, ∀ i ∈ is, own i = false → view (step s i) = view s)
    (hown : ∀ s t, ∀ i ∈ is, own i = true → view s = view t → view (step s i) = view (step t i))
    {s t : σ} (h : view s = view t) :
    view (run step s is) = view (run step t (is.filter own)) :=
  view_run_along (G := fun _ _ => True) (fun s i hi _ => hother s i hi) hown
    (along_of_forall (fun _ _ _ => trivial) s) h

end Unwinding
