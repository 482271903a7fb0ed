import Mathlib.Data.List.Induction

/-!
# Overrides in layers

Values are set one after the other, each of them under some key of some layer, and a reader goes
through the layers that concern it: the last value that has been set for a layer counts, and of
the layers the last one for which there is a value (`Overrides.read_eq`). Which value is read is
then a matter of which settings concern the reader in each layer (`Overrides.deciding`), and not
of how they are kept.
-/

namespace Overrides

variable {ι σ π Λ ε : Type*}

/-! ### The last setting -/

/-- **The last setting counts**, if a setting is read by those whom it concerns and changes nothing
for the others. -/
theorem get_foldl (get : σ → Option π) {set : σ → ι → σ} {concerns : ι → Bool} {val : ι → π}
    {is : List ι} (hset : ∀ i ∈ is, ∀ s, get (set s i) = if concerns i then some (val i) else get s)
    (s : σ) : get (is.foldl set s) = ((is.filter concerns).getLast?.map val).or (get s) := by
  induction is generalizing s with
  | nil => rfl
  | cons i is ih =>
    obtain ⟨hi, his⟩ := List.forall_mem_cons.mp hset
    rw [List.foldl_cons, ih his, hi]
    cases hlast : (is.filter concerns).getLast? with
    | none =>
      have hnil : is.filter concerns = [] := List.getLast?_eq_none_iff.mp hlast
      by_cases h : concerns i = true
      · simp [h, hnil]
      · simp [h, hnil]
    | some j =>
      by_cases h : concerns i = true
      · simp [h, List.getLast?_cons, hlast]
      · simp [h, hlast]

/-! ### The last layer -/

/-- One layer after the other, each of them in the place of what was before if there is a value
for it. -/
def read (get : Λ → Option π) (apply : ε → π → ε) (init : ε) (layers : List Λ) : ε :=
  layers.foldl (fun e l => match get l with
    | none => e
    | some p => apply e p) init

/-- **The last layer with a value counts**, if a value replaces everything. -/
theorem read_eq {get : Λ → Option π} {apply : ε → π → ε} {init : ε} {layers : List Λ}
    (happly : ∀ l ∈ layers, ∀ p ∈ get l, ∀ e, apply e p = apply init p) :
    read get apply init layers = ((layers.reverse.findSome? get).map (apply init)).getD init := by
  induction layers using List.reverseRecOn with
  | nil => rfl
  | append_singleton layers l ih =>
    have hlayers := ih fun l' hl' => happly l' (List.mem_append_left _ hl')
    rw [read] at hlayers ⊢
    rw [List.foldl_append, List.reverse_append, List.reverse_singleton, List.singleton_append,
      List.findSome?_cons, hlayers]
    cases hget : get l with
    | none => simp [hget]
    | some p => simp [hget, happly l (by simp) p hget]

/-! ### The setting that decides -/

/-- **The setting that decides**, with its layer: the last one of the last layer in which one
concerns the reader. -/
def deciding (concerns : Λ → ι → Bool) (layers : List Λ) (is : List ι) : Option (Λ × ι) :=
  layers.reverse.findSome? fun l => (is.filter (concerns l)).getLast?.map (l, ·)

variable {concerns concerns' : Λ → ι → Bool} {layers : List Λ} {is : List ι} {i : ι} {l : Λ}

/-- **What is read is what the deciding setting sets**, if a value replaces everything. -/
theorem read_deciding {val : ι → π} {apply : ε → π → ε} {init : ε}
    (happly : ∀ i ∈ is, ∀ e, apply e (val i) = apply init (val i)) :
    read (fun l => (is.filter (concerns l)).getLast?.map val) apply init layers =
      ((deciding concerns layers is).map fun d => apply init (val d.2)).getD init := by
  rw [read_eq, deciding, List.map_findSome?]
  · rw [List.map_findSome?]
    simp only [Function.comp_def, Option.map_map]
  · intro l _ p hp e
    obtain ⟨i, hi, rfl⟩ := Option.map_eq_some_iff.mp hp
    exact happly i (List.mem_filter.mp (List.mem_of_getLast? hi)).1 e

theorem getLast?_filter_of_imp {p q : ι → Bool} (himp : ∀ j, q j = true → p j = true)
    (h : (is.filter p).getLast? = some i) (hi : q i = true) :
    (is.filter q).getLast? = some i := by
  obtain ⟨before, hbefore⟩ := List.getLast?_eq_some_iff.mp h
  have hfilter : is.filter q = (is.filter p).filter q := by
    rw [List.filter_filter]
    refine List.filter_congr fun j _ => ?_
    cases hq : q j with
    | false => rfl
    | true => simp [himp j hq]
  rw [hfilter, hbefore, List.filter_append, List.filter_cons_of_pos hi]
  exact List.getLast?_concat

/-- Where no setting concerns a reader, none concerns a reader whom fewer settings concern. -/
theorem deciding_eq_none_of_imp
    (himp : ∀ l ∈ layers, ∀ j, concerns' l j = true → concerns l j = true)
    (h : deciding concerns layers is = none) : deciding concerns' layers is = none := by
  rw [deciding, List.findSome?_eq_none_iff] at h ⊢
  intro l hl
  have hnone := h l hl
  rw [Option.map_eq_none_iff, List.getLast?_eq_none_iff, List.filter_eq_nil_iff] at hnone ⊢
  exact fun j hj hcon => hnone j hj (himp l (List.mem_reverse.mp hl) j hcon)

/-- **A setting that decides, decides also for a reader whom fewer settings concern** if it is one
of these. -/
theorem deciding_of_imp (himp : ∀ l ∈ layers, ∀ j, concerns' l j = true → concerns l j = true)
    (h : deciding concerns layers is = some (l, i)) (hi : concerns' l i = true) :
    deciding concerns' layers is = some (l, i) := by
  have hlayers : ∀ l ∈ layers.reverse, ∀ j, concerns' l j = true → concerns l j = true :=
    fun l hl => himp l (List.mem_reverse.mp hl)
  unfold deciding at h ⊢
  generalize layers.reverse = ls at h hlayers ⊢
  induction ls with
  | nil => cases h
  | cons k ls ih =>
    rw [List.findSome?_cons] at h ⊢
    cases hlast : (is.filter (concerns k)).getLast? with
    | none =>
      have hnone : (is.filter (concerns' k)).getLast? = none := by
        rw [List.getLast?_eq_none_iff, List.filter_eq_nil_iff] at hlast ⊢
        exact fun j hj hcon => hlast j hj (hlayers k List.mem_cons_self j hcon)
      rw [hlast] at h
      rw [hnone]
      exact ih h fun k' hk' => hlayers k' (List.mem_cons_of_mem k hk')
    | some j =>
      rw [hlast] at h
      obtain ⟨rfl, rfl⟩ := Prod.mk.inj (Option.some.inj h)
      rw [getLast?_filter_of_imp (hlayers k List.mem_cons_self) hlast hi]
      rfl

end Overrides
