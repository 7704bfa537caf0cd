import Docweave.Model.Directives
import Docweave.Proofs.Model.Effect
import Docweave.Records.Sort
import Mathlib.Control.Monad.Basic
import Mathlib.Data.List.Pairwise

set_option autoImplicit false

/-! # Records in the order of their keys

Sorting puts the keys of records in order and leaves records with equal keys in the order in which they
stood, in both directions (`SortedBy`). There is only one such list, so sorting downwards is sorting
upwards seen from the other end, and sorting what is sorted changes nothing. `sortRecords_sortedBy` says
this of every key that is accepted, and that any other key leaves the records as they are. -/

namespace Docweave

/-! ## Keys in order -/

/-- The key `a` may stand in front of `b`. -/
def KeysInOrder (descending : Bool) (a b : String) : Prop := if descending then b ≤ a else a ≤ b

namespace KeysInOrder

variable {descending : Bool} {a b c : String}

theorem refl (descending : Bool) (a : String) : KeysInOrder descending a a := by
  cases descending with
  | false | true => exact String.le_refl a

theorem antisymm (hab : KeysInOrder descending a b) (hba : KeysInOrder descending b a) : a = b := by
  cases descending with
  | false => exact String.le_antisymm hab hba
  | true => exact String.le_antisymm hba hab

theorem trans (hab : KeysInOrder descending a b) (hbc : KeysInOrder descending b c) :
    KeysInOrder descending a c := by
  cases descending with
  | false => exact String.le_trans hab hbc
  | true => exact String.le_trans hbc hab

theorem total (descending : Bool) (a b : String) :
    KeysInOrder descending a b ∨ KeysInOrder descending b a := by
  cases descending with
  | false => exact String.le_total a b
  | true => exact String.le_total b a

end KeysInOrder

theorem keyLe_iff {descending : Bool} {a b : String × Element} :
    keyLe descending a b = true ↔ KeysInOrder descending a.1 b.1 := by
  cases descending with
  | false | true => exact decide_eq_true_iff

/-! ## Sorted records -/

/-- The list `sorted` holds `records` in the order of a key. -/
structure SortedBy (key : Element → String) (descending : Bool) (records sorted : List Element) :
    Prop where
  /-- No record is lost, and none is made up. -/
  perm : sorted.Perm records
  /-- No key stands in front of one that should come first. -/
  inOrder : sorted.Pairwise fun a b => KeysInOrder descending (key a) (key b)
  /-- The records with one key come in the order in which they stood. -/
  stable : ∀ k, (sorted.filter fun r => key r == k) = records.filter fun r => key r == k

section Unique

variable {key : Element → String} {descending : Bool}

/-- The first key may stand in front of all others. -/
theorem keysInOrder_head_of_mem {x : Element} {a : List Element}
    (h : (x :: a).Pairwise fun r s => KeysInOrder descending (key r) (key s)) {y : Element}
    (hy : y ∈ x :: a) : KeysInOrder descending (key x) (key y) := by
  rcases List.mem_cons.1 hy with rfl | hy
  · exact .refl descending _
  · exact List.rel_of_pairwise_cons h hy

theorem mem_iff_of_filter_key_eq {a b : List Element}
    (h : ∀ k, (a.filter fun r => key r == k) = b.filter fun r => key r == k) {r : Element} :
    r ∈ a ↔ r ∈ b := by
  have hfilter : (r ∈ a.filter fun s => key s == key r) ↔ r ∈ b.filter fun s => key s == key r := by
    rw [h]
  simpa using hfilter

/-- Records in the order of their keys are known from the records with each single key. -/
theorem eq_of_filter_key_eq {a b : List Element}
    (ha : a.Pairwise fun r s => KeysInOrder descending (key r) (key s))
    (hb : b.Pairwise fun r s => KeysInOrder descending (key r) (key s))
    (h : ∀ k, (a.filter fun r => key r == k) = b.filter fun r => key r == k) : a = b := by
  induction a generalizing b with
  | nil =>
    cases b with
    | nil => rfl
    | cons y b => simpa using (mem_iff_of_filter_key_eq h).2 (List.mem_cons_self (a := y))
  | cons x a ih =>
    cases b with
    | nil => simpa using (mem_iff_of_filter_key_eq h).1 (List.mem_cons_self (a := x))
    | cons y b =>
      have hxy : key x = key y :=
        (keysInOrder_head_of_mem ha ((mem_iff_of_filter_key_eq h).2 List.mem_cons_self)).antisymm
          (keysInOrder_head_of_mem hb ((mem_iff_of_filter_key_eq h).1 List.mem_cons_self))
      -- both lists start with the first record that has this key
      have hhead := h (key x)
      simp only [List.filter_cons, hxy, beq_self_eq_true, if_true] at hhead
      obtain rfl : x = y := (List.cons.inj hhead).1
      have htail (k : String) :
          (a.filter fun r => key r == k) = b.filter fun r => key r == k := by
        have hk := h k
        simp only [List.filter_cons] at hk
        split at hk
        · exact (List.cons.inj hk).2
        · exact hk
      rw [ih ha.of_cons hb.of_cons htail]

end Unique

namespace SortedBy

variable {key : Element → String} {descending : Bool} {records sorted : List Element}

/-- Records can be sorted in one way only. -/
theorem unique (h : SortedBy key descending records sorted) {other : List Element}
    (ho : SortedBy key descending records other) : sorted = other :=
  eq_of_filter_key_eq h.inOrder ho.inOrder fun k => (h.stable k).trans (ho.stable k).symm

/-- What is sorted is in order already. -/
theorem self (h : SortedBy key descending records sorted) : SortedBy key descending sorted sorted :=
  ⟨.refl _, h.inOrder, fun _ => rfl⟩

/-- Seen from the other end, records that are sorted upwards are sorted downwards. -/
theorem reverse (h : SortedBy key false records.reverse sorted) :
    SortedBy key true records sorted.reverse where
  perm := (sorted.reverse_perm.trans h.perm).trans records.reverse_perm
  inOrder := List.pairwise_reverse.2 h.inOrder
  stable k := by
    rw [List.filter_reverse, h.stable k, List.filter_reverse, List.reverse_reverse]

end SortedBy

/-! ## Sorting -/

/-- Records sorted by the keys that are put beside them. -/
theorem map_mergeSort_keyLe (key : Element → String) (descending : Bool) (records : List Element) :
    ((records.map fun r => (key r, r)).mergeSort (keyLe descending)).map (·.2) =
      records.mergeSort fun a b => keyLe descending (key a, a) (key b, b) := by
  rw [← List.map_mergeSort (r := fun a b => keyLe descending (key a, a) (key b, b))
    fun _ _ _ _ => rfl, List.map_map]
  exact List.map_id _

theorem sortedBy_mergeSort (key : Element → String) (descending : Bool) (records : List Element) :
    SortedBy key descending records
      (records.mergeSort fun a b => keyLe descending (key a, a) (key b, b)) := by
  have htrans (a b c : Element) (hab : keyLe descending (key a, a) (key b, b) = true)
      (hbc : keyLe descending (key b, b) (key c, c) = true) :
      keyLe descending (key a, a) (key c, c) = true :=
    keyLe_iff.2 ((keyLe_iff.1 hab).trans (keyLe_iff.1 hbc))
  have htotal (a b : Element) :
      (keyLe descending (key a, a) (key b, b) || keyLe descending (key b, b) (key a, a)) = true := by
    rw [Bool.or_eq_true, keyLe_iff, keyLe_iff]
    exact KeysInOrder.total descending _ _
  have hperm := records.mergeSort_perm fun a b => keyLe descending (key a, a) (key b, b)
  refine ⟨hperm, (List.pairwise_mergeSort htrans htotal records).imp keyLe_iff.1, fun k => ?_⟩
  -- the records with one key are in order as they stand, so they stay a part of the sorted list
  have hsame : (records.filter fun r => key r == k).Pairwise fun a b =>
      keyLe descending (key a, a) (key b, b) = true := by
    refine List.pairwise_of_forall_mem_list fun a ha b hb => ?_
    have hka : key a = k := by simpa using (List.mem_filter.1 ha).2
    have hkb : key b = k := by simpa using (List.mem_filter.1 hb).2
    rw [keyLe_iff, hka, hkb]
    exact .refl descending k
  have hsub := (List.sublist_mergeSort htrans htotal hsame List.filter_sublist).filter
    fun r => key r == k
  simp only [List.filter_filter, Bool.and_self] at hsub
  exact (hsub.eq_of_length ((hperm.filter _).length_eq.symm)).symm

section Accepted

variable {key : String} {path : ElementPath} (h : ElementPath.descendant key = .ok path)
  (descending : Bool)

include h

/-- A key that is accepted sorts any records. -/
theorem exists_sortedBy (records : List Element) :
    ∃ sorted, sortRecords key descending records = .ok sorted ∧
      SortedBy (sortKey path) descending records sorted := by
  refine ⟨_, ?_, sortedBy_mergeSort (sortKey path) descending records⟩
  unfold sortRecords
  split
  · next hlen =>
    -- fewer than two records are sorted as they stand
    match records, hlen with
    | [], _ => rw [List.mergeSort_nil]
    | [_], _ => rw [List.mergeSort_singleton]
  · rw [h, ← map_mergeSort_keyLe]
    rfl

/-- Sorting gives the one list that is sorted. -/
theorem sortRecords_eq_ok {records sorted : List Element}
    (hs : SortedBy (sortKey path) descending records sorted) :
    sortRecords key descending records = .ok sorted := by
  obtain ⟨found, hfound, hsorted⟩ := exists_sortedBy h descending records
  rw [hfound, hsorted.unique hs]

end Accepted

section Refused

variable {key : String} {error : PathError} (h : ElementPath.descendant key = .error error)
  (descending : Bool) (records : List Element)

include h

theorem sortRecords_of_error :
    sortRecords key descending records =
      if records.length < 2 then .ok records else .error error := by
  unfold sortRecords
  rw [h]
  rfl

theorem outcome_sortByKey_of_error (s : Session) :
    (Eval.outcome (sortByKey (some key) descending records) s).1 = .ok records := by
  unfold sortByKey
  simp only [sortRecords_of_error h]
  by_cases hlen : records.length < 2
  · simp only [if_pos hlen]
    rfl
  · simp only [if_neg hlen]
    rfl

end Refused

/-- A key that is accepted sorts any records, and leaves sorted ones as they are; downwards it sorts as
upwards, seen from the other end. A key that is not accepted is refused, unless there are fewer than
two records, and a directive keeps the records as they were. -/
theorem sortRecords_sortedBy (key : String) (records : List Element) :
    (∀ path, ElementPath.descendant key = .ok path →
      (∀ descending, ∃ sorted, sortRecords key descending records = .ok sorted ∧
        SortedBy (sortKey path) descending records sorted ∧
        sortRecords key descending sorted = .ok sorted) ∧
      ∃ ascending, sortRecords key false records.reverse = .ok ascending ∧
        sortRecords key true records = .ok ascending.reverse) ∧
    ∀ error, ElementPath.descendant key = .error error → ∀ descending,
      sortRecords key descending records =
          (if records.length < 2 then .ok records else .error error) ∧
        ∀ s, (Eval.outcome (sortByKey (some key) descending records) s).1 = .ok records := by
  refine ⟨fun path h => ⟨fun descending => ?_, ?_⟩, fun error h descending => ?_⟩
  · obtain ⟨sorted, hsort, hsorted⟩ := exists_sortedBy h descending records
    exact ⟨sorted, hsort, hsorted, sortRecords_eq_ok h descending hsorted.self⟩
  · obtain ⟨ascending, hsort, hsorted⟩ := exists_sortedBy h false records.reverse
    exact ⟨ascending, hsort, sortRecords_eq_ok h true hsorted.reverse⟩
  · exact ⟨sortRecords_of_error h descending records, outcome_sortByKey_of_error h descending records⟩

/-- Records of which two have keys that differ in case only, and one has no key. -/
def mixedRecords : List Element :=
  [.ofChildren "e" [.ofText "k" "b"], .ofTag "e", .ofChildren "e" [.ofText "k" "a"],
    .ofChildren "e" [.ofText "k" "B"]]

/-- A key that is a name sorts them downwards, and one that is none leaves them as they are. -/
theorem sortRecords_sortedBy_mixedRecords :
    (∃ path sorted, ElementPath.descendant "k" = .ok path ∧
      sortRecords "k" true mixedRecords = .ok sorted ∧
      SortedBy (sortKey path) true mixedRecords sorted ∧
      mixedRecords.map (sortKey path) = ["b", "", "a", "b"]) ∧
    ∃ error, ElementPath.descendant "k k" = .error error ∧
      ∀ s, (Eval.outcome (sortByKey (some "k k") true mixedRecords) s).1 = .ok mixedRecords := by
  have hname : ElementPath.descendant "k" =
      .ok ⟨".//k", [⟨.itself, .any, []⟩, ⟨.descendant, .tagged "k", []⟩]⟩ := by decide +kernel
  have hnone : ElementPath.descendant "k k" = .error (.invalidName ".//k k" "k k") := by decide +kernel
  obtain ⟨sorted, hsort, hsorted, -⟩ :=
    ((sortRecords_sortedBy "k" mixedRecords).1 _ hname).1 true
  exact ⟨⟨_, sorted, hname, hsort, hsorted, by decide +kernel⟩,
    _, hnone, ((sortRecords_sortedBy "k k" mixedRecords).2 _ hnone true).2⟩

end Docweave
