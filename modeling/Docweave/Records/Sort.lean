import Docweave.Path.Parser
import Docweave.Path.Select
import Docweave.Text.Lowercase

set_option autoImplicit false

/-! # Sorting records

Records are sorted by the text of the first element below them that has a given name, in lower case.
Records with equal keys keep their order in both directions. -/

namespace Docweave

/-- What a record is sorted by: the text at the path in lower case, empty if there is none. -/
def sortKey (path : ElementPath) (record : Element) : String :=
  Text.lowercase ((path.firstText? record).getD "")

/-- A record with its key may stand in front of another one. -/
def keyLe (descending : Bool) (a b : String × Element) : Bool :=
  if descending then decide (b.1 ≤ a.1) else decide (a.1 ≤ b.1)

/-- The records in the order of their keys. Fewer than two need no key, so that a malformed one goes
unnoticed. -/
def sortRecords (key : String) (descending : Bool) (records : List Element) :
    Except PathError (List Element) :=
  if records.length < 2 then .ok records
  else (ElementPath.descendant key).map fun path =>
    ((records.map fun r => (sortKey path r, r)).mergeSort (keyLe descending)).map (·.2)

/-- Sorting loses no record and makes up none. -/
theorem perm_of_sortRecords {key : String} {descending : Bool} {records sorted : List Element}
    (h : sortRecords key descending records = .ok sorted) : sorted.Perm records := by
  unfold sortRecords at h
  split at h
  · cases h
    exact .refl _
  · cases hpath : ElementPath.descendant key with
    | error error =>
      rw [hpath] at h
      cases h
    | ok path =>
      rw [hpath] at h
      cases h
      have hkeyed := List.mergeSort_perm (records.map fun r => (sortKey path r, r)) (keyLe descending)
      have hrecords : (records.map fun r => (sortKey path r, r)).map (·.2) = records := by
        rw [List.map_map]
        exact List.map_id records
      exact (hkeyed.map (·.2)).trans (.of_eq hrecords)

end Docweave
