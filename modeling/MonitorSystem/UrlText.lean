import MonitorSystem.Agent.AnomalyFanOut
import MonitorSystem.Library.Percent
import Mathlib.Data.List.Nodup

/-!
# Texts in a URL

What Go's `net/url` makes of the texts of a request: `url.PathEscape` for a segment of a path,
`Values.Encode` for a query, and `url.ParseQuery` on the other side. A URL is the list of its
bytes, since an escape stands for one byte of a text.

The values that are encoded keep one value for each of their keys (`UrlValues`), which is what
`Values.Set` leaves. Parsing what has been encoded gives the values back
(`UrlValues.parseQuery_encode`), whatever texts they are.
-/

namespace MonitorSystem

open Percent

/-! ### The bytes of a text -/

/-- The bytes of a text. -/
def textBytes (s : String) : List UInt8 := s.toList.flatMap String.utf8EncodeChar

/-- The text that some bytes are, if they are one. -/
def bytesText (bs : List UInt8) : Option String :=
  bs.toByteArray.utf8Decode?.map fun cs => .ofList cs.toList

@[simp] theorem bytesText_textBytes (s : String) : bytesText (textBytes s) = some s := by
  have hdecode : (textBytes s).toByteArray.utf8Decode? = some s.toList.toArray :=
    List.utf8Decode?_utf8Encode
  rw [bytesText, hdecode, Option.map_some, String.ofList_toList]

theorem textBytes_append (s t : String) : textBytes (s ++ t) = textBytes s ++ textBytes t := by
  rw [textBytes, String.toList_append, List.flatMap_append]
  rfl

/-- Only an ASCII character has bytes below 128, and it is its own byte. -/
theorem toNat_of_mem_utf8EncodeChar {c : Char} {b : UInt8} (h : b ∈ String.utf8EncodeChar c)
    (hb : b.toNat < 128) : c.toNat = b.toNat := by
  rw [String.utf8EncodeChar] at h
  simp only [Char.toNat]
  split_ifs at h with h1 h2 h3 <;> simp only [List.mem_cons, List.not_mem_nil, or_false] at h
  · subst h
    rw [UInt8.toNat_ofNat', Nat.mod_eq_of_lt (by omega)]
  -- the other encodings are made of bytes from 128 on
  · rcases h with rfl | rfl <;> rw [UInt8.toNat_ofNat'] at hb <;> omega
  · rcases h with rfl | rfl | rfl <;> rw [UInt8.toNat_ofNat'] at hb <;> omega
  · rcases h with rfl | rfl | rfl | rfl <;> rw [UInt8.toNat_ofNat'] at hb <;> omega

/-- The byte of an ASCII character is in a text if and only if the character is. -/
theorem ofNat_toNat_mem_textBytes {c : Char} (hc : c.toNat < 128) {s : String} :
    UInt8.ofNat c.toNat ∈ textBytes s ↔ c ∈ s.toList := by
  have hbyte : (UInt8.ofNat c.toNat).toNat = c.toNat := by
    rw [UInt8.toNat_ofNat', Nat.mod_eq_of_lt (by omega)]
  constructor
  · intro h
    obtain ⟨d, hd, hmem⟩ := List.mem_flatMap.mp h
    have hcode : d.toNat = c.toNat :=
      (toNat_of_mem_utf8EncodeChar hmem (by omega)).trans hbyte
    rw [← Char.ofNat_toNat c, ← hcode, Char.ofNat_toNat]
    exact hd
  · intro h
    refine List.mem_flatMap.mpr ⟨c, h, ?_⟩
    have hsmall : c.val.toNat ≤ 0x7f := Nat.le_of_lt_succ hc
    rw [String.utf8EncodeChar, if_pos hsmall]
    exact List.mem_singleton_self _

/-! ### Escapes -/

/-- The bytes that are never escaped: letters, digits and four signs. -/
def unreserved (b : UInt8) : Bool :=
  97 ≤ b && b ≤ 122 || 65 ≤ b && b ≤ 90 || 48 ≤ b && b ≤ 57 ||
    -- - _ . ~
    b ∈ [45, 95, 46, 126]

/-- The bytes that stand for themselves in a segment of a path. -/
def keptInSegment (b : UInt8) : Bool :=
  unreserved b ||
    -- $ & + : = @
    b ∈ [36, 38, 43, 58, 61, 64]

/-- `url.PathEscape`. -/
def pathEscape (s : String) : List UInt8 := escape keptInSegment false (textBytes s)

theorem escapes_segment : Escapes keptInSegment false :=
  ⟨by decide, by rintro ⟨⟩⟩

theorem queryEscapes_unreserved : QueryEscapes unreserved :=
  ⟨⟨by decide, fun _ => by decide⟩, by decide, by decide, by decide⟩

/-! ### Values -/

/-- `url.Values` with one value for each key, in the order in which they have been set. -/
structure UrlValues where
  entries : List (String × String)
  nodup : (entries.map (·.1)).Nodup

namespace UrlValues

/-- No values. -/
def empty : UrlValues := ⟨[], List.nodup_nil⟩

/-- `Values.Set`. -/
def set (v : UrlValues) (key value : String) : UrlValues where
  entries := v.entries.filter (·.1 ≠ key) ++ [(key, value)]
  nodup := by
    rw [List.map_append, List.nodup_append']
    refine ⟨v.nodup.sublist (List.filter_sublist.map _), List.nodup_singleton _, ?_⟩
    intro k hk hkey
    obtain ⟨p, hp, rfl⟩ := List.mem_map.mp hk
    have hne : p.1 ≠ key := of_decide_eq_true (List.mem_filter.mp hp).2
    exact hne (List.mem_singleton.mp hkey)

end UrlValues

/-- The values that a list of pairs gives to a key. -/
def valuesOf (ps : List (String × String)) : Values := fun key =>
  (ps.filter (·.1 = key)).map (·.2)

theorem valuesOf_append (ps qs : List (String × String)) (key : String) :
    valuesOf (ps ++ qs) key = valuesOf ps key ++ valuesOf qs key := by
  rw [valuesOf, List.filter_append, List.map_append]
  rfl

/-- The order of the pairs does not matter where each key has one of them. -/
theorem valuesOf_perm {ps qs : List (String × String)} (h : ps.Perm qs)
    (hnodup : (ps.map (·.1)).Nodup) : valuesOf ps = valuesOf qs := by
  funext key
  have hperm : (valuesOf ps key).Perm (valuesOf qs key) := (h.filter _).map _
  have hshort : (valuesOf ps key).length ≤ 1 := by
    rw [valuesOf, List.length_map]
    have hcount : (ps.map (·.1)).count key ≤ 1 := List.nodup_iff_count_le_one.mp hnodup key
    rw [List.count, List.countP_map, List.countP_eq_length_filter] at hcount
    refine le_trans (le_of_eq (congrArg List.length (List.filter_congr fun p _ => ?_))) hcount
    rfl
  rcases hps : valuesOf ps key with _ | ⟨value, _ | ⟨other, rest⟩⟩
  · rw [hps] at hperm
    exact (List.nil_perm.mp hperm).symm
  · rw [hps] at hperm
    exact (List.perm_singleton.mp hperm.symm).symm
  · rw [hps] at hshort
    exact absurd hshort (by simp)

namespace UrlValues

/-- The values of the keys. -/
def values (v : UrlValues) : Values := valuesOf v.entries

@[simp] theorem values_empty : empty.values = fun _ => [] := rfl

@[simp] theorem values_set (v : UrlValues) (key value : String) :
    (v.set key value).values = Function.update v.values key [value] := by
  funext k
  rw [values, set, valuesOf_append]
  by_cases hk : k = key
  · subst hk
    have hnone : valuesOf (v.entries.filter (·.1 ≠ k)) k = [] := by
      rw [valuesOf, List.filter_filter, List.map_eq_nil_iff, List.filter_eq_nil_iff]
      intro p _
      simp
    rw [hnone, Function.update_self]
    simp [valuesOf]
  · have hkeep : valuesOf (v.entries.filter (·.1 ≠ key)) k = valuesOf v.entries k := by
      rw [valuesOf, List.filter_filter]
      refine congrArg _ (List.filter_congr fun p _ => ?_)
      rcases eq_or_ne p.1 k with hp | hp
      · simp [hp, hk]
      · simp [hp]
    rw [hkeep, Function.update_of_ne hk]
    simp [valuesOf, values, Ne.symm hk]

/-- The pairs in the order of their keys. -/
def sorted (v : UrlValues) : List (String × String) :=
  v.entries.mergeSort fun p q => p.1 ≤ q.1

theorem valuesOf_sorted (v : UrlValues) : valuesOf v.sorted = v.values :=
  (valuesOf_perm (List.mergeSort_perm v.entries _).symm v.nodup).symm

/-- `Values.Encode`. -/
def encode (v : UrlValues) : List UInt8 :=
  queryText unreserved (v.sorted.map fun p => (textBytes p.1, textBytes p.2))

end UrlValues

/-- A key and its value, if they are texts. -/
def pairTexts (p : List UInt8 × List UInt8) : Option (String × String) := do
  let key ← bytesText p.1
  let value ← bytesText p.2
  some (key, value)

/-- `url.ParseQuery`, of a query whose keys and values are texts. -/
def parseQuery (bs : List UInt8) : Option Values :=
  ((readQuery bs).mapM pairTexts).map valuesOf

theorem mapM_pairTexts (ps : List (String × String)) :
    (ps.map fun p => (textBytes p.1, textBytes p.2)).mapM pairTexts = some ps := by
  induction ps with
  | nil => rfl
  | cons p ps ih =>
    have hp : pairTexts (textBytes p.1, textBytes p.2) = some p := by
      simp [pairTexts]
    rw [List.map_cons, List.mapM_cons, hp, ih]
    rfl

/-- **Encoded values are parsed again**, whatever characters are in them. -/
theorem UrlValues.parseQuery_encode (v : UrlValues) : parseQuery v.encode = some v.values := by
  rw [parseQuery, encode, readQuery_queryText queryEscapes_unreserved, mapM_pairTexts,
    Option.map_some, valuesOf_sorted]

end MonitorSystem
