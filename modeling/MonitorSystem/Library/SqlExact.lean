import Mathlib.Algebra.Order.Ring.Rat
import Mathlib.Data.Finset.Card
import Mathlib.Data.List.TakeWhile
import MonitorSystem.Library.Lists
import MonitorSystem.Library.Paging
import MonitorSystem.Library.Sql

/-!
# Servers that compare and carry values exactly

`Sql.Dialect` leaves open what a server makes of numbers. An `ExactDialect` is a server of
which more is known: numbers are compared as rational numbers, a comparison with `NULL` is
not true, texts that stand for times are in a total order, and what a client reads from the
text of a number is that number again.

`Arranged` and `cut` take the listing of a statement apart: an arrangement of the rows in the
order that is asked for, and the page of it. With a text in the column of the order in every
row, an arrangement is a `Paging.Listing`.

`ExactDialect.reference` is such a server. It writes a number that is not an integer as a
fraction.
-/

namespace Sql

/-- The number that a value is. -/
def Value.rat? : Value → Option ℚ
  | .int n => some n
  | .num q => some q
  | _ => none

@[simp] theorem Value.rat?_int (n : ℤ) : (Value.int n).rat? = some (n : ℚ) := rfl

@[simp] theorem Value.rat?_num (q : ℚ) : (Value.num q).rat? = some q := rfl

/-- **A server that compares and carries values exactly.** -/
structure ExactDialect extends Dialect where
  /-- The number that a client reads from a text. -/
  read : String → ℚ
  eq_rat : ∀ {a b : Value} {q r : ℚ}, a.rat? = some q → b.rat? = some r → eq a b = decide (q = r)
  lt_rat : ∀ {a b : Value} {q r : ℚ}, a.rat? = some q → b.rat? = some r → lt a b = decide (q < r)
  eq_null : ∀ v : Value, eq .null v = false
  lt_null : ∀ v : Value, lt .null v = false
  null_lt : ∀ v : Value, lt v .null = false
  abs_rat : ∀ {a : Value} {q : ℚ}, a.rat? = some q → (abs a).rat? = some |q|
  abs_null : abs .null = .null
  text_asymm : ∀ a b : String, lt (.text a) (.text b) = true → lt (.text b) (.text a) = false
  text_split : ∀ a b c : String, lt (.text a) (.text c) = true →
    lt (.text a) (.text b) = true ∨ lt (.text b) (.text c) = true
  text_total : ∀ a b : String, a ≠ b → lt (.text a) (.text b) = true ∨ lt (.text b) (.text a) = true
  max_text : ∀ texts : List String, texts ≠ [] →
    ∃ m ∈ texts, max (texts.map .text) = .text m ∧ ∀ t ∈ texts, lt (.text m) (.text t) = false
  fetch_null : fetch .null = ""
  fetch_text : ∀ s : String, fetch (.text s) = s
  fetch_int : ∀ n : ℤ, fetch (.int n) = toString n
  fetch_rat : ∀ {a : Value} {q : ℚ}, a.rat? = some q → fetch a ≠ ""
  read_fetch : ∀ {a : Value} {q : ℚ}, a.rat? = some q → read (fetch a) = q

/-! ### Arrangements and pages -/

section Arranged

variable (d : Dialect)

/-- An arrangement of rows in the order that is asked for. -/
structure Arranged (rows : List Row) (orderBy : String) (dir : Direction) (l : List Row) :
    Prop where
  perm : l.Perm rows
  sorted : l.Pairwise (inOrder d (·.get orderBy) dir)

instance {α : Type*} (value : α → Value) (dir : Direction) : DecidableRel (inOrder d value dir) :=
  fun _ _ =>
    match dir with
    | .asc => inferInstanceAs (Decidable (_ = false))
    | .desc => inferInstanceAs (Decidable (_ = false))

/-- The page of an arrangement. -/
def cut (paged : Bool) (rest : List Value) (l : List Row) : List Row :=
  if paged then (l.drop (d.rows (nth rest 1))).take (d.rows (nth rest 0)) else l

/-- The texts in which a row is fetched. -/
def Row.texts (columns : List String) (r : Row) : List String :=
  columns.map fun c => d.fetch (r.get c)

theorem listed_iff {rows : List Row} {columns : List String} {orderBy : String} {dir : Direction}
    {paged : Bool} {rest : List Value} {result : List (List String)} :
    Listed d rows columns orderBy dir paged rest result ↔
      ∃ l, Arranged d rows orderBy dir l ∧
        result = (cut d paged rest l).map (Row.texts d columns) :=
  ⟨fun ⟨l, hperm, hsorted, hresult⟩ => ⟨l, ⟨hperm, hsorted⟩, hresult⟩,
    fun ⟨l, ⟨hperm, hsorted⟩, hresult⟩ => ⟨l, hperm, hsorted, hresult⟩⟩

theorem cut_page {p k : ℕ} {rest : List Value} (hlimit : nth rest 0 = .int p)
    (hoffset : nth rest 1 = .int (k * p : ℕ)) (l : List Row) :
    cut d true rest l = Paging.page p k l := by
  rw [cut, if_pos rfl, hlimit, hoffset, d.rows_int, d.rows_int, Paging.page]

end Arranged

/-! ### The order of times -/

/-- The text that a value is, or nothing. -/
def Value.asText : Value → String
  | .text s => s
  | _ => ""

/-- The text in a column. -/
def Row.text (r : Row) (column : String) : String := (r.get column).asText

theorem Row.get_eq_text {r : Row} {column : String} (h : ∃ s, r.get column = .text s) :
    r.get column = .text (r.text column) := by
  obtain ⟨s, hs⟩ := h
  rw [Row.text, hs, Value.asText]

namespace ExactDialect

variable (d : ExactDialect)

/-- Which of two rows comes first by the text in a column, in descending order. -/
def later (column : String) (a b : Row) : Prop :=
  d.lt (.text (b.text column)) (.text (a.text column)) = true

instance (column : String) : DecidableRel (d.later column) :=
  fun _ _ => inferInstanceAs (Decidable (_ = true))

theorem weakOrder_later (column : String) : Paging.WeakOrder (d.later column) where
  asymm a b h := by
    have := d.text_asymm _ _ h
    simp [later, this]
  split a b c h := (d.text_split _ (b.text column) _ h).symm

/-- **With texts in the column of the order, an arrangement is a listing.** -/
theorem arranged_iff {column : String} {rows l : List Row}
    (h : ∀ r ∈ rows, ∃ s, r.get column = .text s) :
    Arranged d.toDialect rows column .desc l ↔ Paging.Listing (d.later column) rows l := by
  have hiff : l.Perm rows → (l.Pairwise (inOrder d.toDialect (·.get column) .desc) ↔
      l.Pairwise fun a b => ¬ d.later column b a) := by
    intro hperm
    refine List.Pairwise.iff_of_mem fun {a b} ha hb => ?_
    simp only [inOrder, later, Row.get_eq_text (h a (hperm.mem_iff.mp ha)),
      Row.get_eq_text (h b (hperm.mem_iff.mp hb)), Bool.not_eq_true]
  exact ⟨fun ⟨hperm, hsorted⟩ => ⟨hperm, (hiff hperm).mp hsorted⟩,
    fun ⟨hperm, hsorted⟩ => ⟨hperm, (hiff hperm).mpr hsorted⟩⟩

end ExactDialect

/-! ### The latest rows of each group -/

/-- The texts of some columns are there. -/
def Texts (columns : List String) (r : Row) : Prop := ∀ c ∈ columns, ∃ s, r.get c = .text s

/-- **A row of which its group has none later.** -/
def Latest (d : Dialect) (key : List String) (time : String) (rows : List Row) (r : Row) : Prop :=
  r ∈ rows ∧ ∀ m ∈ rows, key.map m.get = key.map r.get → d.lt (r.get time) (m.get time) = false

instance (d : Dialect) (key : List String) (time : String) (rows : List Row) :
    DecidablePred (Latest d key time rows) :=
  fun _ => inferInstanceAs (Decidable (_ ∧ ∀ m ∈ _, _ → _))

theorem eq_iff_of_texts (d : Dialect) {a b : Value} (ha : ∃ s, a = .text s)
    (hb : ∃ s, b = .text s) : d.eq a b = true ↔ a = b := by
  obtain ⟨s, rfl⟩ := ha
  obtain ⟨t, rfl⟩ := hb
  simp [d.eq_text]

/-- A join on texts is a join on the same key and the same time. -/
theorem joins_iff (d : Dialect) {key : List String} {time : String} {r m : Row} {t : Value}
    (hr : Texts key r) (hm : Texts key m) (hrt : ∃ s, r.get time = .text s)
    (ht : ∃ s, t = .text s) :
    joins d key time r (key.map m.get, t) = true ↔
      key.map r.get = key.map m.get ∧ r.get time = t := by
  unfold joins
  rw [Bool.and_eq_true, eq_iff_of_texts d hrt ht, List.zip_map', List.all_map, List.all_eq_true,
    List.map_inj_left]
  refine and_congr_left fun _ => forall₂_congr fun c hc => ?_
  exact eq_iff_of_texts d (hr c hc) (hm c hc)

namespace ExactDialect

variable (d : ExactDialect)

/-- The latest time of the group of a row. -/
theorem exists_max (key : List String) {time : String} {rows : List Row} {r : Row}
    (htime : ∀ m ∈ rows, ∃ s, m.get time = .text s) (hr : r ∈ rows) :
    ∃ m ∈ rows, key.map m.get = key.map r.get ∧
      d.max ((rows.filter fun m => key.map m.get = key.map r.get).map (·.get time)) = m.get time ∧
      ∀ m' ∈ rows, key.map m'.get = key.map r.get → d.lt (m.get time) (m'.get time) = false := by
  have htexts : (rows.filter fun m => key.map m.get = key.map r.get).map (·.get time) =
      ((rows.filter fun m => key.map m.get = key.map r.get).map (·.text time)).map .text := by
    rw [List.map_map]
    exact List.map_congr_left fun m hm => Row.get_eq_text (htime m (List.mem_of_mem_filter hm))
  have hself : r ∈ rows.filter fun m => key.map m.get = key.map r.get :=
    List.mem_filter.mpr ⟨hr, decide_eq_true rfl⟩
  obtain ⟨t, ht, hmax, hle⟩ := d.max_text
    ((rows.filter fun m => key.map m.get = key.map r.get).map (·.text time))
    (List.ne_nil_of_mem (List.mem_map_of_mem hself))
  obtain ⟨m, hm, rfl⟩ := List.mem_map.mp ht
  obtain ⟨hmem, hkey⟩ := List.mem_filter.mp hm
  refine ⟨m, hmem, of_decide_eq_true hkey, ?_, fun m' hm' hkey' => ?_⟩
  · rw [htexts, hmax, Row.get_eq_text (htime m hmem)]
  · rw [Row.get_eq_text (htime m hmem), Row.get_eq_text (htime m' hm')]
    exact hle _ (List.mem_map_of_mem (List.mem_filter.mpr ⟨hm', decide_eq_true hkey'⟩))

/-- The rows with the latest time of their group are its latest rows. -/
theorem get_eq_max_iff {key : List String} {time : String} {rows : List Row} {r : Row}
    (htime : ∀ m ∈ rows, ∃ s, m.get time = .text s) (hr : r ∈ rows) :
    r.get time = d.max ((rows.filter fun m => key.map m.get = key.map r.get).map (·.get time)) ↔
      Latest d.toDialect key time rows r := by
  obtain ⟨m, hm, hkey, hmax, hle⟩ := d.exists_max key htime hr
  rw [hmax]
  constructor
  · intro h
    exact ⟨hr, fun m' hm' hkey' => h ▸ hle m' hm' hkey'⟩
  · rintro ⟨-, hlatest⟩
    have hrm := hlatest m hm hkey
    have hmr := hle r hr rfl
    rw [Row.get_eq_text (htime m hm), Row.get_eq_text (htime r hr)] at hrm hmr ⊢
    by_contra hne
    rcases d.text_total _ _ (fun h => hne (congrArg _ h)) with h | h
    · rw [hrm] at h
      cases h
    · rw [hmr] at h
      cases h

section Join

variable {key : List String} {time : String} {table rows : List Row}

/-- A row is joined with its own group, if it is one of the latest. -/
theorem joins_group_iff (hkey : ∀ r ∈ table, Texts key r)
    (htime : ∀ r ∈ table, ∃ s, r.get time = .text s) (hsub : ∀ m ∈ rows, m ∈ table)
    (hclosed : ∀ r ∈ table, ∀ m ∈ rows, key.map m.get = key.map r.get → r ∈ rows) {r m : Row}
    (hr : r ∈ table) (hm : m ∈ rows) :
    joins d.toDialect key time r (key.map m.get,
        d.max ((rows.filter fun x => key.map x.get = key.map m.get).map (·.get time))) = true ↔
      key.map m.get = key.map r.get ∧ Latest d.toDialect key time rows r := by
  have htime' : ∀ m ∈ rows, ∃ s, m.get time = .text s := fun m hm => htime m (hsub m hm)
  obtain ⟨x, hx, -, hmax, -⟩ := d.exists_max key htime' hm
  rw [joins_iff d.toDialect (hkey r hr) (hkey m (hsub m hm)) (htime r hr)
    (hmax ▸ htime' x hx), eq_comm (a := key.map r.get)]
  refine and_congr_right fun hkeys => ?_
  rw [← d.get_eq_max_iff htime' (hclosed r hr m hm hkeys), hkeys]

/-- **The join with the latest time of each group lists the latest rows, each once**, where the
rows of a group are either all there or all missing. -/
theorem joined_eq_filter (hkey : ∀ r ∈ table, Texts key r)
    (htime : ∀ r ∈ table, ∃ s, r.get time = .text s) (hsub : ∀ m ∈ rows, m ∈ table)
    (hclosed : ∀ r ∈ table, ∀ m ∈ rows, key.map m.get = key.map r.get → r ∈ rows) :
    joined d.toDialect key time table (groups d.toDialect key time rows) =
      table.filter (Latest d.toDialect key time rows) := by
  have hone : ∀ r ∈ table, (((groups d.toDialect key time rows).filter
      (joins d.toDialect key time r)).map fun _ => r) =
        if Latest d.toDialect key time rows r then [r] else [] := by
    intro r hr
    have hfilter : ((rows.map fun x => key.map x.get).dedup.filter fun k =>
        joins d.toDialect key time r (k,
          d.max ((rows.filter fun x => key.map x.get = k).map (·.get time)))) =
        (rows.map fun x => key.map x.get).dedup.filter fun k =>
          k = key.map r.get ∧ Latest d.toDialect key time rows r := by
      refine List.filter_congr fun k hk => ?_
      obtain ⟨m, hm, rfl⟩ := List.mem_map.mp (List.mem_dedup.mp hk)
      rw [Bool.eq_iff_iff, decide_eq_true_eq]
      exact d.joins_group_iff hkey htime hsub hclosed hr hm
    rw [groups, List.filter_map, List.map_map]
    refine (congrArg (List.map _) hfilter).trans ?_
    split
    · next hlatest =>
      have hmem : key.map r.get ∈ (rows.map fun x => key.map x.get).dedup :=
        List.mem_dedup.mpr (List.mem_map_of_mem hlatest.1)
      simp only [hlatest, and_true]
      rw [List.filter_eq, List.count_eq_one_of_mem (List.nodup_dedup _) hmem]
      rfl
    · next hlatest => simp [hlatest]
  rw [joined, List.flatMap_congr hone, Lists.flatMap_ite]

end Join

end ExactDialect

/-! ### Distinct values -/

/-- **Counting distinct values**: a function keeps the number of different elements if and only
if it keeps them apart. -/
theorem length_dedup_map_iff {α β : Type*} [DecidableEq α] [DecidableEq β] (f : α → β)
    (l : List α) :
    (l.map f).dedup.length = l.dedup.length ↔ ∀ a ∈ l, ∀ b ∈ l, f a = f b → a = b := by
  have himage : (l.map f).toFinset = l.toFinset.image f := by
    ext b
    simp
  rw [← List.card_toFinset, ← List.card_toFinset, himage, Finset.card_image_iff]
  simp only [Set.InjOn, Finset.mem_coe, List.mem_toFinset]

/-! ### A server of this kind -/

/-- A number as a text: an integer, or a fraction. -/
def ratText (q : ℚ) : String :=
  if q.den = 1 then toString q.num else toString q.num ++ "/" ++ toString q.den

/-- The integer in decimal digits, perhaps after a sign. -/
def intOf : List Char → ℤ
  | '-' :: digits => -(Nat.ofDigitChars 10 digits 0 : ℤ)
  | digits => Nat.ofDigitChars 10 digits 0

/-- The number that is written as an integer or a fraction. -/
def ratOf (s : String) : ℚ :=
  let num := s.toList.takeWhile (· ≠ '/')
  match s.toList.dropWhile (· ≠ '/') with
  | [] => intOf num
  | _ :: den => (intOf num : ℚ) / (intOf den : ℚ)

theorem toList_toString_nat (n : ℕ) : (toString n).toList = Nat.toDigits 10 n := by
  rw [Nat.toString_eq_repr, Nat.toList_repr]

theorem intOf_toDigits (n : ℕ) : intOf (Nat.toDigits 10 n) = n := by
  unfold intOf
  split
  · next digits h =>
    -- a sign is not a digit
    have : '-'.isDigit :=
      Nat.isDigit_of_mem_toDigits (b := 10) (n := n) (by decide) (by decide) (by rw [h]; simp)
    cases this
  · rw [Nat.ofDigitChars_ten_toDigits]

theorem toList_neg_repr (n : ℕ) : ("-" ++ n.repr).toList = '-' :: Nat.toDigits 10 n := by
  rw [String.toList_append, Nat.toList_repr]
  rfl

theorem intOf_repr (n : ℤ) : intOf n.repr.toList = n := by
  rw [Int.repr_eq_if]
  split
  · next h => rw [Nat.toList_repr, intOf_toDigits, Int.toNat_of_nonneg h]
  · next h =>
    rw [toList_neg_repr, intOf, Nat.ofDigitChars_ten_toDigits]
    omega

/-- A number is written with digits and a sign. -/
theorem isDigit_or_of_mem_repr {n : ℤ} {c : Char} (h : c ∈ n.repr.toList) :
    c.isDigit = true ∨ c = '-' := by
  have hdigits : ∀ m : ℕ, c ∈ Nat.toDigits 10 m → c.isDigit = true := fun m hm =>
    Nat.isDigit_of_mem_toDigits (by decide) (by decide) hm
  rw [Int.repr_eq_if] at h
  split at h
  · rw [Nat.toList_repr] at h
    exact .inl (hdigits _ h)
  · rw [String.toList_append, Nat.toList_repr, List.mem_append] at h
    rcases h with h | h
    · exact .inr (List.mem_singleton.mp h)
    · exact .inl (hdigits _ h)

/-- No digit and no sign is a slash. -/
theorem ne_slash_of_mem_repr {n : ℤ} {c : Char} (h : c ∈ n.repr.toList) : c ≠ '/' := by
  rintro rfl
  rcases isDigit_or_of_mem_repr h with h | h <;> cases h

/-- **A number is read back from its text.** -/
theorem ratOf_ratText (q : ℚ) : ratOf (ratText q) = q := by
  have hnum : ∀ c ∈ q.num.repr.toList, decide (c ≠ '/') = true := fun c hc => by
    simpa using ne_slash_of_mem_repr hc
  by_cases hden : q.den = 1
  · rw [ratText, if_pos hden, ratOf, Int.toString_eq_repr,
      List.takeWhile_eq_self_iff.mpr hnum, List.dropWhile_eq_nil_iff.mpr hnum]
    simp only [intOf_repr]
    exact (Rat.den_eq_one_iff q).mp hden
  · have hlist : (toString q.num ++ "/" ++ toString q.den).toList =
        q.num.repr.toList ++ '/' :: Nat.toDigits 10 q.den := by
      rw [String.toList_append, String.toList_append, Int.toString_eq_repr, Nat.toString_eq_repr,
        Nat.toList_repr]
      simp
    rw [ratText, if_neg hden, ratOf, hlist,
      List.takeWhile_append_of_pos hnum, List.dropWhile_append_of_pos hnum]
    simp [intOf_repr, intOf_toDigits, Rat.num_div_den]

theorem ratText_intCast (n : ℤ) : ratText n = toString n := by simp [ratText]

theorem repr_ne_empty (n : ℤ) : n.repr ≠ "" := by
  rw [Int.repr_eq_if]
  split
  · exact Nat.repr_ne_empty
  · simp

theorem ratText_ne_empty (q : ℚ) : ratText q ≠ "" := by
  unfold ratText
  split
  · exact repr_ne_empty q.num
  · simp

/-- The greatest of some texts. -/
def maxText : List String → String → String
  | [], m => m
  | t :: ts, m => maxText ts (if m < t then t else m)

theorem maxText_spec (ts : List String) (m : String) :
    maxText ts m ∈ m :: ts ∧ ∀ t ∈ m :: ts, ¬ maxText ts m < t := by
  induction ts generalizing m with
  | nil =>
    refine ⟨List.mem_singleton_self m, fun t ht => ?_⟩
    rw [List.mem_singleton.mp ht]
    exact String.lt_irrefl m
  | cons t ts ih =>
    obtain ⟨hmem, hmax⟩ := ih (if m < t then t else m)
    rw [maxText]
    -- what is passed on is at least both of the two it is chosen from
    have hle : (if m < t then t else m) ≤ maxText ts (if m < t then t else m) :=
      String.not_lt.mp (hmax _ List.mem_cons_self)
    have hm : m ≤ if m < t then t else m := by
      split
      · next h => exact String.not_lt.mp (String.lt_asymm h)
      · exact String.le_refl m
    have ht : t ≤ if m < t then t else m := by
      split
      · exact String.le_refl t
      · next h => exact String.not_lt.mp h
    refine ⟨?_, fun x hx => ?_⟩
    · rcases List.mem_cons.mp hmem with h | h
      · rw [h]
        split <;> simp
      · exact List.mem_cons_of_mem _ (List.mem_cons_of_mem _ h)
    · rw [List.mem_cons, List.mem_cons] at hx
      rcases hx with rfl | rfl | hx
      · exact String.not_lt.mpr (String.le_trans hm hle)
      · exact String.not_lt.mpr (String.le_trans ht hle)
      · exact hmax x (List.mem_cons_of_mem _ hx)

/-- **A server that compares and carries values exactly.** -/
def ExactDialect.reference : ExactDialect where
  eq a b :=
    match a, b with
    | .text s, .text t => s = t
    | a, b =>
      match a.rat?, b.rat? with
      | some q, some r => q = r
      | _, _ => false
  lt a b :=
    match a, b with
    | .text s, .text t => s < t
    | a, b =>
      match a.rat?, b.rat? with
      | some q, some r => q < r
      | _, _ => false
  abs v := (v.rat?.map fun q => Value.num |q|).getD v
  bucket _ _ t := t
  avg vs := vs.headD .null
  max vs :=
    match vs with
    | [] => .null
    | v :: vs => .text (maxText (vs.map Value.asText) v.asText)
  rows
    | .int n => n.toNat
    | _ => 0
  fetch
    | .text s => s
    | v => (v.rat?.map ratText).getD ""
  read := ratOf
  eq_text a b := rfl
  rows_int n := Int.toNat_natCast n
  eq_rat {a b q r} ha hb := by cases a <;> cases b <;> simp_all [Value.rat?]
  lt_rat {a b q r} ha hb := by cases a <;> cases b <;> simp_all [Value.rat?]
  eq_null v := by cases v <;> rfl
  lt_null v := by cases v <;> rfl
  null_lt v := by cases v <;> rfl
  abs_rat {a q} ha := by simp [ha]
  abs_null := rfl
  text_asymm a b h := by simpa using String.lt_asymm (of_decide_eq_true h)
  text_split a b c h := by
    by_contra hcon
    simp only [not_or, decide_eq_true_eq, String.not_lt] at hcon h
    exact String.not_le.mpr h (String.le_trans hcon.2 hcon.1)
  text_total a b h := by
    by_contra hcon
    simp only [not_or, decide_eq_true_eq, String.not_lt] at hcon
    exact h (String.le_antisymm hcon.2 hcon.1)
  max_text texts h := by
    cases texts with
    | nil => exact absurd rfl h
    | cons t ts =>
      obtain ⟨hmem, hmax⟩ := maxText_spec ts t
      refine ⟨maxText ts t, hmem, ?_, fun x hx => decide_eq_false (hmax x hx)⟩
      simp [Value.asText, Function.comp_def]
  fetch_null := rfl
  fetch_text _ := rfl
  fetch_int n := ratText_intCast n
  fetch_rat {a q} ha := by cases a <;> simp_all [Value.rat?, ratText_ne_empty]
  read_fetch {a q} ha := by cases a <;> simp_all [Value.rat?, ratOf_ratText]

end Sql
