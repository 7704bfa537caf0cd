import Docweave.Files.Tree
import Docweave.Text.Blank

set_option autoImplicit false

/-! # Categories of tests

The tests below a directory fall into categories, one for each directory that holds some. Categories
are asked for by name; a name stands for the categories below it too. -/

namespace Docweave

open Docweave.Text

/-- How the names of test files end. -/
def testSuffix : String := ".test.xdra"

/-- Tests that lie in the same directory. -/
structure Category where
  /-- The path of the directory from where the search started; empty for the start itself. -/
  name : String
  /-- The files of the tests. -/
  tests : List FoundFile

namespace Category

/-! ## Finding tests -/

/-- The file holds a test. -/
def holdsTest (file : FoundFile) : Bool := testSuffix.toList.isSuffixOf file.name.toList

/-- The name of the category that a file belongs to. -/
def nameOf (file : FoundFile) : String :=
  .ofList (("/".intercalate file.within).toList.map fun c => if c = '\\' then '/' else c)

/-- Files by category, in the order of the names; the files of one category stay in order. -/
def group (files : List FoundFile) : List Category :=
  let names := ((files.map nameOf).eraseDups).mergeSort fun a b => decide (a ≤ b)
  names.map fun name => ⟨name, files.filter (nameOf · == name)⟩

/-- The tests below a directory. -/
def below (files : Disk) (directory : FilePath) : List Category :=
  match files.filesIn true directory with
  | .error _ => []
  | .ok found => group (found.filter holdsTest)

/-- The name for display. -/
def label (category : Category) : String :=
  if category.name.isEmpty then "(root)" else category.name

/-! ## Asking for categories -/

/-- A name that is asked for, without slashes at its ends. -/
def requestName (request : String) : String :=
  .ofList (dropEndWhile (· = '/') (request.toList.dropWhile (· = '/')))

/-- A request is its name with nothing but slashes around it, and the name has none at its ends. -/
theorem exists_eq_append_requestName (request : String) :
    ∃ before after, (∀ c ∈ before ++ after, c = '/') ∧
      request.toList = before ++ ((requestName request).toList ++ after) ∧
      (requestName request).toList.head? ≠ some '/' ∧
      (requestName request).toList.getLast? ≠ some '/' := by
  let rest := request.toList.dropWhile (· = '/')
  let after := (rest.reverse.takeWhile (· = '/')).reverse
  have hname : (requestName request).toList = dropEndWhile (· = '/') rest := String.toList_ofList
  have hrest : (requestName request).toList ++ after = rest := by
    rw [hname, dropEndWhile_append_reverse_takeWhile]
  have hslash {s : List Char} {c : Char} (hc : c ∈ s.takeWhile (· = '/')) : c = '/' :=
    of_decide_eq_true (List.all_eq_true.1 List.all_takeWhile c hc)
  refine ⟨request.toList.takeWhile (· = '/'), after, fun c hc => ?_, ?_, fun hhead => ?_, fun hlast => ?_⟩
  · rcases List.mem_append.1 hc with hc | hc
    · exact hslash hc
    · exact hslash (List.mem_reverse.1 hc)
  · rw [hrest, List.takeWhile_append_dropWhile]
  · have hnot := List.head?_dropWhile_not (· = '/') request.toList
    rw [show request.toList.dropWhile (· = '/') = rest from rfl, ← hrest, List.head?_append, hhead,
      Option.some_or] at hnot
    exact absurd hnot (by decide)
  · rw [hname] at hlast
    exact absurd (eq_false_of_mem_getLast?_dropEndWhile hlast) (by decide)

/-- The request stands for the category: it gives its name, or that of a directory above it. -/
def answers (request : String) (category : Category) : Bool :=
  category.name == requestName request ||
    (requestName request ++ "/").toList.isPrefixOf category.name.toList

/-- What is told about a request that adds no category. -/
def idleWarning (all : List Category) (request : String) : String :=
  "warning: category '" ++ requestName request ++ "' not found (available: " ++
    ", ".intercalate (all.map label) ++ ")"

/-- A category among others that are in the order of their names. It takes the place of one with its
name. -/
def put (category : Category) : List Category → List Category
  | [] => [category]
  | first :: rest =>
    if category.name < first.name then category :: first :: rest
    else if category.name = first.name then category :: rest
    else first :: put category rest

/-- The categories that a request stands for, put among those that are selected. -/
def putAnswers (request : String) (selected : List Category) : List Category → List Category
  | [] => selected
  | category :: rest =>
    putAnswers request (if answers request category then put category selected else selected) rest

/-- What comes of requests. -/
structure Selection where
  /-- The categories that are selected. -/
  categories : List Category
  /-- What is told, in order. -/
  warnings : List String

/-- Requests one after the other, each adding to the categories that are selected already. One after
which there are as many as before is told about. -/
def selectFrom (all selected : List Category) : List String → Selection
  | [] => ⟨selected, []⟩
  | request :: rest =>
    let grown := putAnswers request selected all
    let last := selectFrom all grown rest
    if grown.length = selected.length then
      { last with warnings := idleWarning all request :: last.warnings }
    else last

/-- The categories that requests select; all if there are no requests. -/
def select (all : List Category) (requests : List String) : Selection :=
  if requests.isEmpty then ⟨all, []⟩ else selectFrom all [] requests

end Category

end Docweave
