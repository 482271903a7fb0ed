import Mathlib.Data.List.Induction
import Mathlib.Logic.Function.Basic

/-!
# Maps that are swept

Values are put under keys, and from time to time a sweep takes out those that are stale by then.
What is found under a key after any sequence of the two is the value that was put there last, unless
a sweep after that has found it stale (`Sweeping.after_eq_some_iff`). Which values are stale at
which time is a parameter; nothing is asked of it, in particular not that what is stale stays so.
-/

namespace Sweeping

variable {κ β τ : Type*} [DecidableEq κ] {stale : β → τ → Bool}

/-- A value is put under a key, or a sweep is made. -/
inductive Event (κ β τ : Type*) where
  | put (k : κ) (v : β)
  | sweep (now : τ)

/-- What an event makes of a map. -/
def step (stale : β → τ → Bool) (m : κ → Option β) : Event κ β τ → κ → Option β
  | .put k v => Function.update m k (some v)
  | .sweep now => fun k => (m k).filter fun v => !stale v now

/-- The map after some events. -/
def after (stale : β → τ → Bool) (es : List (Event κ β τ)) : κ → Option β :=
  es.foldl (step stale) fun _ => none

/-- **The value of a key**: the one that was put there last, which no sweep since then has found
stale. -/
def Current (stale : β → τ → Bool) (es : List (Event κ β τ)) (k : κ) (v : β) : Prop :=
  ∃ before later, es = before ++ .put k v :: later ∧ (∀ v', .put k v' ∉ later) ∧
    ∀ now, .sweep now ∈ later → stale v now = false

omit [DecidableEq κ] in
/-- One more event. -/
theorem current_append_singleton {es : List (Event κ β τ)} {e : Event κ β τ} {k : κ} {v : β} :
    Current stale (es ++ [e]) k v ↔ e = .put k v ∨
      Current stale es k v ∧ (∀ v', e ≠ .put k v') ∧ ∀ now, e = .sweep now → stale v now = false := by
  constructor
  · rintro ⟨before, later, heq, hput, hsweep⟩
    rcases List.eq_nil_or_concat later with rfl | ⟨later, e', rfl⟩
    · obtain ⟨-, he⟩ := List.append_inj' heq rfl
      exact Or.inl (List.cons.inj he).1
    · rw [List.concat_eq_append] at heq hput hsweep
      rw [← List.cons_append, ← List.append_assoc] at heq
      obtain ⟨rfl, he⟩ := List.append_inj' heq rfl
      obtain rfl := (List.cons.inj he).1
      refine Or.inr ⟨⟨before, later, rfl, fun v' h => ?_, fun now h => ?_⟩, fun v' h => ?_,
        fun now h => ?_⟩
      · exact hput v' (List.mem_append_left _ h)
      · exact hsweep now (List.mem_append_left _ h)
      · exact hput v' (h ▸ List.mem_append_right _ List.mem_cons_self)
      · exact hsweep now (h ▸ List.mem_append_right _ List.mem_cons_self)
  · rintro (rfl | ⟨⟨before, later, rfl, hput, hsweep⟩, hne, hfresh⟩)
    · exact ⟨es, [], rfl, by rintro v' ⟨⟩, by rintro now ⟨⟩⟩
    · refine ⟨before, later ++ [e], by simp, fun v' h => ?_, fun now h => ?_⟩
      · rcases List.mem_append.mp h with h | h
        · exact hput v' h
        · exact hne v' (List.mem_singleton.mp h).symm
      · rcases List.mem_append.mp h with h | h
        · exact hsweep now h
        · exact hfresh now (List.mem_singleton.mp h).symm

/-- **What is found under a key** is what was put there last, if no sweep has found it stale. -/
theorem after_eq_some_iff {es : List (Event κ β τ)} {k : κ} {v : β} :
    after stale es k = some v ↔ Current stale es k v := by
  induction es using List.reverseRecOn generalizing v with
  | nil =>
    constructor
    · rintro ⟨⟩
    · rintro ⟨before, later, heq, -⟩
      simp at heq
  | append_singleton es e ih =>
    have hafter : after stale (es ++ [e]) = step stale (after stale es) e := by
      simp [after, List.foldl_append]
    rw [hafter, current_append_singleton, ← ih]
    cases e with
    | put k' v' =>
      rcases eq_or_ne k k' with rfl | hne
      · rw [step, Function.update_self]
        constructor
        · intro h
          exact Or.inl (by rw [Option.some.inj h])
        · rintro (h | ⟨-, h, -⟩)
          · rw [(Event.put.inj h).2]
          · exact absurd rfl (h v')
      · rw [step, Function.update_of_ne hne]
        constructor
        · intro h
          refine Or.inr ⟨h, fun w hput => ?_, by rintro now ⟨⟩⟩
          exact hne (Event.put.inj hput).1.symm
        · rintro (h | ⟨h, -⟩)
          · exact absurd (Event.put.inj h).1.symm hne
          · exact h
    | sweep now =>
      simp only [step, Option.filter_eq_some_iff, Bool.not_eq_true']
      constructor
      · rintro ⟨h, hfresh⟩
        refine Or.inr ⟨h, by rintro v' ⟨⟩, ?_⟩
        rintro now' ⟨⟩
        exact hfresh
      · rintro (⟨⟨⟩⟩ | ⟨h, -, hfresh⟩)
        exact ⟨h, hfresh now rfl⟩

end Sweeping
