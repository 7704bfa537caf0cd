import Docweave.Text.Search

set_option autoImplicit false

/-! # File paths

A path is text with slashes. Joining and taking the parent work on the text and never look at the
disk, so nothing is simplified that need not be. -/

namespace Docweave

open Docweave.Text

/-- A path to a file or a directory. -/
structure FilePath where
  /-- The path as it is written. -/
  text : String
deriving DecidableEq, Repr

namespace FilePath

/-- The path starts at the root of the disk. -/
def isAbsolute (path : FilePath) : Bool := path.text.toList.head? == some '/'

/-- A path followed from a base. An absolute path does not need the base. -/
def join (base path : FilePath) : FilePath :=
  if path.isAbsolute || base.text.isEmpty then path
  else if base.text.toList.getLast? = some '/' then ⟨base.text ++ path.text⟩
  else ⟨base.text ++ "/" ++ path.text⟩

/-- The parts between slashes. -/
def segments (path : FilePath) : List String :=
  (splitOn '/' path.text.toList).map String.ofList

/-- Parts without those at the end that lead nowhere: empty ones, and dots that are not the start of a
relative path. The parts are given last first. -/
def dropIdle (absolute : Bool) : List String → List String
  | [] => []
  | part :: before =>
    if part.isEmpty || (part = "." && (absolute || !before.isEmpty)) then dropIdle absolute before
    else part :: before

/-- The path without its last part, if it has one. -/
def parent? (path : FilePath) : Option FilePath :=
  let absolute := path.isAbsolute
  let parts := if absolute then path.segments.drop 1 else path.segments
  match dropIdle absolute parts.reverse with
  | [] => none
  | _ :: before =>
    let kept := "/".intercalate (dropIdle absolute before).reverse
    some ⟨if absolute then "/" ++ kept else kept⟩

end FilePath

/-- The part of a file name after its last dot. A dot in front does not count. -/
def nameExtension? (name : String) : Option String :=
  let letters := name.toList.reverse
  let after := letters.takeWhile (· != '.')
  match letters.dropWhile (· != '.') with
  | '.' :: _ :: _ => some (.ofList after.reverse)
  | _ => none

/-- A name has an extension if it ends in a dot and the extension, with something in front of the dot. -/
theorem nameExtension?_eq_some_iff {name extension : String} (h : '.' ∉ extension.toList) :
    nameExtension? name = some extension ↔ ∃ stem, stem ≠ "" ∧ name = stem ++ "." ++ extension := by
  have hdot : ".".toList = ['.'] := rfl
  unfold nameExtension?
  dsimp only
  constructor
  · intro hname
    split at hname
    · next c before hdrop =>
      obtain rfl := Option.some.inj hname
      refine ⟨.ofList (c :: before).reverse, ?_, ?_⟩
      · exact fun hstem => absurd (congrArg String.toList hstem) (by simp)
      · have hletters := List.takeWhile_append_dropWhile (p := (· != '.')) (l := name.toList.reverse)
        rw [hdrop] at hletters
        refine String.toList_inj.1 ((List.reverse_eq_iff.1 hletters.symm).trans ?_)
        simp [hdot]
    · cases hname
  · rintro ⟨stem, hstem, rfl⟩
    have hreverse : (stem ++ "." ++ extension).toList.reverse =
        extension.toList.reverse ++ '.' :: stem.toList.reverse := by
      simp [hdot]
    have hafter : ∀ c ∈ extension.toList.reverse, (c != '.') = true := fun c hc =>
      bne_iff_ne.2 fun hc' => h (List.mem_reverse.1 (hc' ▸ hc))
    rw [hreverse, List.takeWhile_append_of_pos hafter, List.dropWhile_append_of_pos hafter,
      List.takeWhile_cons_of_neg (by simp), List.dropWhile_cons_of_neg (by simp), List.append_nil,
      List.reverse_reverse, String.ofList_toList]
    cases hletters : stem.toList.reverse with
    | nil => exact absurd (String.toList_eq_nil_iff.1 (List.reverse_eq_nil_iff.1 hletters)) hstem
    | cons c before => rfl

end Docweave
