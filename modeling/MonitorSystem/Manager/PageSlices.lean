import MonitorSystem.Library.Paging
import MonitorSystem.Manager.AnomalyRecords

/-!
# The slice of a page

Where a page begins is computed as a product of two `int`s, which the client chooses. The
operations that page in the database bind it to `OFFSET` (`pageOffset`), and
`queryAnomalyRecords` (`manager/src/QueryManager.cpp`) cuts the page out of its sorted records
itself, with a sum of two `int`s for the end (`anomalyPage`).

`pages_exact_iff` says for which pages all of this is exact. The product has to fit into an
`int`; and unless the page begins behind the last record, its end has to fit as well.
-/

namespace MonitorSystem

open Oracle Sql

/-! ### The page of the anomalies -/

section Slice

variable {α : Type} {records : List α}

/-- The elements from one iterator of a vector up to another; nothing where these are not two
positions of the vector, in this order. -/
def between (records : List α) (first last : ℤ) : Option (List α) :=
  if 0 ≤ first ∧ first ≤ last ∧ last ≤ records.length then
    some ((records.drop first.toNat).take (last - first).toNat)
  else none

/-- **The end of `queryAnomalyRecords`**: the page that is cut out of the sorted records. -/
def anomalyPage (records : List α) (page pageSize : ℤ) : Option (List α) :=
  let offset := pageOffset page pageSize
  if toInt32 records.length ≤ offset then some []
  else between records offset (min (toInt32 (offset + pageSize)) (toInt32 records.length))

theorem between_eq_some {first last : ℤ} {l : List α} (h : between records first last = some l) :
    0 ≤ first ∧ first ≤ last ∧ last ≤ records.length ∧ (l.length : ℤ) = last - first := by
  unfold between at h
  split at h
  · next hpositions =>
    obtain rfl := Option.some.inj h
    obtain ⟨hfirst, hle, hlast⟩ := hpositions
    refine ⟨hfirst, hle, hlast, ?_⟩
    rw [List.length_take, List.length_drop]
    omega
  · cases h

/-- The elements between two positions. -/
theorem between_eq {first count : ℕ} {last : ℤ} (hle : first ≤ last)
    (hlast : last ≤ records.length) (hcount : last = min (first + count : ℤ) records.length) :
    between records first last = some ((records.drop first).take count) := by
  rw [between, if_pos ⟨by omega, hle, hlast⟩, Int.toNat_natCast]
  congr 1
  refine List.take_eq_take_iff.mpr ?_
  rw [List.length_drop]
  omega

/-- An `int` that has gone beyond its range once. -/
theorem toInt32_of_overflow {n : ℤ} (h : 2 ^ 31 ≤ n ∧ n < 2 ^ 32) : toInt32 n = n - 2 ^ 32 := by
  rw [toInt32, Int.bmod_def]
  split <;> omega

theorem toInt32_le {n : ℕ} : toInt32 n ≤ n := by
  rcases lt_or_ge n (2 ^ 31) with h | h
  · rw [toInt32_eq (by omega)]
  · have := (toInt32_range n).2
    omega

/-- **When the page of the anomalies is the slice that is asked for**, if its beginning is
exact. -/
theorem anomalyPage_eq_iff (page pageSize : ℕ) (hpage : 1 ≤ page)
    (hsize : 1 ≤ pageSize ∧ pageSize < 2 ^ 31) (records : List α)
    (hoffset : pageOffset page pageSize = ((page - 1) * pageSize : ℕ)) :
    anomalyPage records page pageSize = some (Paging.page pageSize (page - 1) records) ↔
      records.length ≤ (page - 1) * pageSize ∨
        (page * pageSize < 2 ^ 31 ∧
          (records.length < 2 ^ 31 ∨ (page * pageSize : ℕ) ≤ toInt32 records.length)) := by
  have hlt : ((page - 1) * pageSize : ℕ) < (2 ^ 31 : ℤ) := hoffset ▸ (toInt32_range _).2
  have hend : page * pageSize = (page - 1) * pageSize + pageSize := by
    rw [← Nat.succ_mul, Nat.succ_eq_add_one, Nat.sub_add_cancel hpage]
  have hsizeLe := toInt32_le (n := records.length)
  simp only [anomalyPage, hoffset, Paging.page, hend]
  generalize (page - 1) * pageSize = offset at *
  by_cases hbehind : toInt32 records.length ≤ offset
  · -- nothing is handed out
    rw [if_pos hbehind, Option.some.injEq, eq_comm, List.take_eq_nil_iff, List.drop_eq_nil_iff]
    constructor
    · exact fun h => .inl (h.resolve_left (by omega))
    · rintro (h | ⟨hfits, hcount | hcount⟩)
      · exact .inr h
      · rw [toInt32_eq (by omega)] at hbehind
        exact .inr (by omega)
      · omega
  · rw [if_neg hbehind]
    by_cases hfits : offset + pageSize < 2 ^ 31
    · rw [toInt32_eq (n := offset + pageSize) (by omega)]
      by_cases hcount : records.length < 2 ^ 31 ∨
          ((offset + pageSize : ℕ) : ℤ) ≤ toInt32 records.length
      · -- the end is that of the page or of the records
        refine iff_of_true ?_ (.inr ⟨hfits, hcount⟩)
        refine between_eq (by omega) (by omega) ?_
        rcases hcount with hcount | hcount
        · rw [toInt32_eq (by omega)]
        · omega
      · -- the number of records is taken for a smaller one
        refine iff_of_false (fun h => ?_) (by omega)
        have hlength := (between_eq_some h).2.2.2
        rw [List.length_take, List.length_drop] at hlength
        omega
    · -- the end is before the beginning
      rw [toInt32_of_overflow (n := offset + pageSize) (by omega)]
      have hnone : between records offset
          (min ((offset : ℤ) + pageSize - 2 ^ 32) (toInt32 records.length)) = none :=
        if_neg (by omega)
      rw [hnone]
      refine iff_of_false (Option.some_ne_none _).symm ?_
      omega

end Slice

/-! ### The offset of the other operations -/

/-- What a statement binds to its `OFFSET`, if it has one. -/
def BindsOffset (offset : ℤ) (p : Prepared) : Prop :=
  ∀ v, (Place.offset, v) ∈ p.stmt.places.zip p.params → v = intParam offset

/-- A call for a page that is cut out in the database. -/
def Rpc.AsksPage (page pageSize : ℤ) : Rpc → Prop
  | .performance r | .netDetail r | .diskDetail r | .memDetail r | .softIrqDetail r
  | .mysqlDetail r | .redisDetail r => r.page = page ∧ r.pageSize = pageSize
  | .scoreRank r => r.page = page ∧ r.pageSize = pageSize
  | _ => False

/-- **The paging of the service is exact**: the statements of the paged calls bind the
position at which the page begins, and the page of the anomalies is the slice of the records
from there on, cut out within the vector. -/
structure PagingExact (page pageSize : ℕ) (records : List AnomalyRecord) : Prop where
  slice : anomalyPage records page pageSize = some (Paging.page pageSize (page - 1) records)
  offset : ∀ (s : QueryService) (rpc : Rpc), rpc.AsksPage page pageSize →
    Asks (BindsOffset ((page - 1) * pageSize : ℕ)) (s.call rpc)

/-- A statement of a request binds the offset of the request. -/
theorem bindsOffset_of_bound {req : Request} {p : Prepared} (h : p.Bound req) :
    BindsOffset req.offset p := by
  intro v hv
  obtain ⟨i, hi⟩ := List.mem_iff_getElem?.mp hv
  obtain ⟨hplace, hparam⟩ := List.getElem?_zip_eq_some.mp hi
  have hbound := congrArg (fun l => l[i]?) h
  simp only [List.getElem?_map, hplace, hparam, Option.map_some, Request.value_offset] at hbound
  exact (Option.some.inj (Option.some.inj hbound)).symm

theorem offset_of_asksPage {p : Platform} {page pageSize : ℕ} (hpage : 1 ≤ page)
    (hsize : 1 ≤ pageSize) {rpc : Rpc} (h : rpc.AsksPage page pageSize) :
    (rpc.request p).offset = pageOffset page pageSize := by
  have hnormal : pageOffset (normalPage page) (normalPageSize pageSize) =
      pageOffset page pageSize := by
    rw [normalPage, normalPageSize, if_neg (by omega), if_neg (by omega)]
  cases rpc with
  | latestScore _ | trend _ | anomaly _ => exact h.elim
  | scoreRank r | performance r | netDetail r | diskDetail r | memDetail r | softIrqDetail r
  | mysqlDetail r | redisDetail r =>
    obtain ⟨hp, hs⟩ := h
    rw [← hnormal, ← hp, ← hs]
    rfl

/-- A call for a page of the ranking. -/
def rankCall (page pageSize : ℤ) : Rpc :=
  .scoreRank { page, pageSize, scope := ⟨"acme", "ops", ""⟩ }

/-- A service with a connection. -/
def readyService : QueryService := ⟨true, ⟨.exact, .acquired⟩⟩

/-- The ranking is asked for with an `OFFSET`. -/
theorem mem_log_rankCall (page pageSize : ℤ) :
    scoreRankStmt ⟨"acme", "ops", ""⟩ .desc (normalPageSize (normalPageSize pageSize))
        (pageOffset (normalPage (normalPage page)) (normalPageSize (normalPageSize pageSize))) ∈
      (readyService.call (rankCall page pageSize) fun _ => .ok []).1 := by
  have hlog : (readyService.call (rankCall page pageSize) fun _ => .ok []).1 =
      [scoreRankCountStmt ⟨"acme", "ops", ""⟩, scoreRankStmt ⟨"acme", "ops", ""⟩ .desc
        (normalPageSize (normalPageSize pageSize))
        (pageOffset (normalPage (normalPage page)) (normalPageSize (normalPageSize pageSize)))] :=
    rfl
  rw [hlog]
  exact List.mem_cons_of_mem _ List.mem_cons_self

theorem offset_eq_of_bindsOffset {scope : QueryScope} {order : SortOrder} {pageSize offset n : ℤ}
    (h : BindsOffset n (scoreRankStmt scope order pageSize offset)) : offset = n := by
  have hmem : (Place.offset, intParam offset) ∈
      (scoreRankStmt scope order pageSize offset).stmt.places.zip
        (scoreRankStmt scope order pageSize offset).params := by
    by_cases hcluster : scope.clusterId = "" <;>
      simp [scoreRankStmt, Stmt.places, scopePredicate, appendScopeParams, equals, hcluster]
  have := h _ hmem
  simpa [intParam] using this

/-- Where the product fits, the beginning of the page is exact. -/
theorem pageOffset_eq_iff {page : ℕ} (pageSize : ℕ) (hpage : 1 ≤ page) :
    pageOffset page pageSize = ((page - 1) * pageSize : ℕ) ↔ (page - 1) * pageSize < 2 ^ 31 := by
  have hproduct : pageOffset page pageSize = toInt32 ((page - 1) * pageSize : ℕ) := by
    rw [pageOffset, toInt32, ← Int.natCast_one, ← Int.natCast_sub hpage, ← Int.natCast_mul]
  have hlt := (toInt32_range ((page - 1) * pageSize : ℕ)).2
  rw [hproduct]
  constructor
  · intro h
    omega
  · exact fun h => toInt32_eq (by omega)

/-- **For which pages the paging is exact**, among all that a client can ask for. -/
theorem pagingExact_iff (page pageSize : ℕ) (hpage : 1 ≤ page ∧ page < 2 ^ 31)
    (hsize : 1 ≤ pageSize ∧ pageSize < 2 ^ 31) (records : List AnomalyRecord) :
    PagingExact page pageSize records ↔
      (page - 1) * pageSize < 2 ^ 31 ∧
        (records.length ≤ (page - 1) * pageSize ∨
          (page * pageSize < 2 ^ 31 ∧
            (records.length < 2 ^ 31 ∨ (page * pageSize : ℕ) ≤ toInt32 records.length))) := by
  rw [← pageOffset_eq_iff pageSize hpage.1]
  constructor
  · rintro ⟨hslice, hasks⟩
    have hnormal : pageOffset (normalPage (normalPage page))
        (normalPageSize (normalPageSize pageSize)) = pageOffset page pageSize := by
      simp only [normalPage_normalPage, normalPageSize_normalPageSize]
      rw [normalPage, normalPageSize, if_neg (by omega), if_neg (by omega)]
    have hoffset := offset_eq_of_bindsOffset
      (hasks readyService (rankCall page pageSize) ⟨rfl, rfl⟩ _ _ (mem_log_rankCall page pageSize))
    rw [hnormal] at hoffset
    exact ⟨hoffset, (anomalyPage_eq_iff page pageSize hpage.1 hsize records hoffset).mp hslice⟩
  · rintro ⟨hoffset, hend⟩
    refine ⟨(anomalyPage_eq_iff page pageSize hpage.1 hsize records hoffset).mpr hend,
      fun s rpc hrpc answer p hp => ?_⟩
    rw [← hoffset, ← offset_of_asksPage (p := s.manager.platform) hpage.1 hsize.1 hrpc]
    exact bindsOffset_of_bound (s.asks_call rpc answer p hp).1

/-- The second page of two out of three records. -/
theorem pagingExact_second :
    PagingExact 2 2 (List.replicate 3
      ⟨"web-01", 0, "CPU_HIGH", "WARNING", 85, .finite 80, "cpu_percent"⟩) :=
  (pagingExact_iff 2 2 ⟨by decide, by decide⟩ ⟨by decide, by decide⟩ _).mpr
    ⟨by decide, .inr ⟨by decide, .inl (by decide)⟩⟩

/-- **The third page of `2 ^ 30` records begins before the first record**: its offset is
negative, and the iterators leave the vector. -/
theorem third_page_before_records :
    pageOffset 3 1073741824 = -2147483648 ∧
      anomalyPage ([] : List AnomalyRecord) 3 1073741824 = none ∧
      ¬ PagingExact 3 1073741824 [] := by
  have hnone : anomalyPage ([] : List AnomalyRecord) 3 1073741824 = none := by decide
  refine ⟨by decide, hnone, fun h => ?_⟩
  have hslice := h.slice
  rw [show ((3 : ℕ) : ℤ) = 3 from rfl, show ((1073741824 : ℕ) : ℤ) = 1073741824 from rfl,
    hnone] at hslice
  cases hslice

end MonitorSystem
