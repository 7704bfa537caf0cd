import Docweave.CommandLine.Program
import Docweave.Proofs.Conformance.Requests
import Docweave.Proofs.Files.Gathered

set_option autoImplicit false

/-! # The tests that are run

The tests below a directory are grouped by category, and the requests pick categories.
`TestRequest.exists_runsTests_perform` says that in the end each test that is asked for is run once, and
no other; that the exit code is zero if there was one and all of them pass; and that the tally counts
them all. -/

namespace Docweave

open List (Forall₂)

/-! ## Groups -/

theorem nodup_eraseDups {α : Type} [BEq α] [LawfulBEq α] (l : List α) : l.eraseDups.Nodup := by
  cases l with
  | nil => exact List.nodup_nil
  | cons a l =>
    rw [List.eraseDups_cons, List.nodup_cons, List.mem_eraseDups]
    exact ⟨by simp, nodup_eraseDups _⟩
termination_by l.length
decreasing_by exact Nat.lt_succ_of_le (List.length_filter_le _ _)

theorem eq_singleton_of_mem_iff {α : Type} {l : List α} (hl : l.Nodup) {a : α}
    (h : ∀ b, b ∈ l ↔ b = a) : l = [a] :=
  List.perm_singleton.1 <| (List.perm_ext_iff_of_nodup hl (List.nodup_singleton a)).2 fun b => by
    rw [h, List.mem_singleton]

namespace Category

/-- The name of the category of the test that names lead to: the directories above it. -/
def ofPlace (place : List String) : String :=
  .ofList (("/".intercalate place.dropLast).toList.map fun c => if c = '\\' then '/' else c)

theorem nameOf_eq (file : FoundFile) : nameOf file = ofPlace file.place := by
  rw [ofPlace, FoundFile.place, List.dropLast_concat]
  rfl

theorem mem_group_iff {files : List FoundFile} {category : Category} :
    category ∈ group files ↔
      ∃ file ∈ files, category = ⟨nameOf file, files.filter (nameOf · == nameOf file)⟩ := by
  simp only [group, List.mem_map, List.mem_mergeSort, List.mem_eraseDups]
  constructor
  · rintro ⟨_, ⟨file, hfile, rfl⟩, rfl⟩
    exact ⟨file, hfile, rfl⟩
  · rintro ⟨file, hfile, rfl⟩
    exact ⟨_, ⟨file, hfile, rfl⟩, rfl⟩

theorem inOrder_group (files : List FoundFile) : InOrder (group files) := by
  have hnames : ((files.map nameOf).eraseDups.map id).Nodup := by
    rw [List.map_id]
    exact nodup_eraseDups _
  exact List.pairwise_map.2 (pairwise_mergeSort_lt id hnames)

/-- Every group has a file. -/
theorem tests_ne_nil {files : List FoundFile} {category : Category} (h : category ∈ group files) :
    category.tests ≠ [] := by
  obtain ⟨file, hfile, rfl⟩ := mem_group_iff.1 h
  exact List.ne_nil_of_mem (List.mem_filter.2 ⟨hfile, beq_self_eq_true _⟩)

/-! ## Files of the selected groups -/

theorem mem_select_group_iff {files : List FoundFile} {requests : List String} {category : Category} :
    category ∈ (select (group files) requests).categories ↔
      category ∈ group files ∧ IsAskedFor requests category.name := by
  rw [categories_select (inOrder_group files), List.mem_filter, decide_eq_true_iff]

/-- The files of the categories that are selected among the groups of some files. -/
def selectedFiles (files : List FoundFile) (requests : List String) : List FoundFile :=
  (select (group files) requests).categories.flatMap tests

theorem mem_selectedFiles_iff {files : List FoundFile} {requests : List String} {file : FoundFile} :
    file ∈ selectedFiles files requests ↔ file ∈ files ∧ IsAskedFor requests (nameOf file) := by
  rw [selectedFiles, List.mem_flatMap]
  constructor
  · rintro ⟨category, hcategory, hfile⟩
    obtain ⟨hgroup, hasked⟩ := mem_select_group_iff.1 hcategory
    obtain ⟨other, -, rfl⟩ := mem_group_iff.1 hgroup
    obtain ⟨hmem, hname⟩ := List.mem_filter.1 hfile
    exact ⟨hmem, eq_of_beq hname ▸ hasked⟩
  · rintro ⟨hfile, hasked⟩
    exact ⟨_, mem_select_group_iff.2 ⟨mem_group_iff.2 ⟨file, hfile, rfl⟩, hasked⟩,
      List.mem_filter.2 ⟨hfile, beq_self_eq_true _⟩⟩

/-- Files of different groups have different categories. -/
theorem nodup_selectedFiles {files : List FoundFile} (h : (files.map FoundFile.place).Nodup)
    (requests : List String) : ((selectedFiles files requests).map FoundFile.place).Nodup := by
  have hselect : (select (group files) requests).categories.Sublist (group files) := by
    rw [categories_select (inOrder_group files)]
    exact List.filter_sublist
  have hnames : (select (group files) requests).categories.Pairwise (name · ≠ name ·) :=
    (List.pairwise_map.1 (inOrder_group files).nodup_names).sublist hselect
  rw [selectedFiles, List.map_flatMap, List.Nodup, List.pairwise_flatMap]
  constructor
  · intro category hcategory
    obtain ⟨file, -, rfl⟩ := mem_group_iff.1 (hselect.subset hcategory)
    exact h.sublist (List.filter_sublist.map _)
  · refine hnames.imp_of_mem fun {a b} ha hb hne place hplace other hother heq => hne ?_
    obtain ⟨first, -, rfl⟩ := mem_group_iff.1 (hselect.subset ha)
    obtain ⟨second, -, rfl⟩ := mem_group_iff.1 (hselect.subset hb)
    obtain ⟨file, hfile, rfl⟩ := List.mem_map.1 hplace
    obtain ⟨file', hfile', rfl⟩ := List.mem_map.1 hother
    have hname := eq_of_beq (List.mem_filter.1 hfile).2
    have hname' := eq_of_beq (List.mem_filter.1 hfile').2
    dsimp only
    rw [← hname, ← hname', nameOf_eq, nameOf_eq, heq]

end Category

/-! ## Runs -/

theorem runTestFiles_cons (world : Surroundings) (file : FoundFile) (rest : List FoundFile) :
    runTestFiles world (file :: rest) =
      let first := runTestFile world file.path file.name
      let others := runTestFiles first.2 rest
      (first.1 :: others.1, others.2) := rfl

theorem runTestFiles_append (world : Surroundings) (first second : List FoundFile) :
    runTestFiles world (first ++ second) =
      ((runTestFiles world first).1 ++ (runTestFiles (runTestFiles world first).2 second).1,
        (runTestFiles (runTestFiles world first).2 second).2) := by
  induction first generalizing world with
  | nil => rfl
  | cons file first ih =>
    rw [List.cons_append, runTestFiles_cons, runTestFiles_cons]
    dsimp only
    rw [ih]
    rfl

/-- Group by group, the tests are run as one list. -/
theorem runCategories_eq (world : Surroundings) (categories : List Category) :
    (runCategories world categories).1.flatMap CategoryResult.results =
        (runTestFiles world (categories.flatMap Category.tests)).1 ∧
      (runCategories world categories).2 =
        (runTestFiles world (categories.flatMap Category.tests)).2 := by
  induction categories generalizing world with
  | nil => exact ⟨rfl, rfl⟩
  | cons category rest ih =>
    obtain ⟨hresults, hworld⟩ := ih (runTestFiles world category.tests).2
    rw [List.flatMap_cons, runTestFiles_append]
    constructor
    · rw [← hresults]
      rfl
    · rw [← hworld]
      rfl

/-- The tests at places below a directory are run one after the other, each in the world that the one
before it leaves. -/
inductive RunsTests (directory : FilePath) :
    Surroundings → List (List String) → List TestResult → Surroundings → Prop where
  | nil (world : Surroundings) : RunsTests directory world [] [] world
  | cons {world next after : Surroundings} {place : List String} {name : String}
      {result : TestResult} {places : List (List String)} {results : List TestResult}
      (hname : place.getLast? = some name)
      (hresult : runTestFile world (directory.descend place) name = (result, next))
      (hrest : RunsTests directory next places results after) :
      RunsTests directory world (place :: places) (result :: results) after

theorem RunsTests.length_eq {directory : FilePath} {world after : Surroundings}
    {places : List (List String)} {results : List TestResult}
    (h : RunsTests directory world places results after) : results.length = places.length := by
  induction h with
  | nil world => rfl
  | cons hname hresult hrest ih => rw [List.length_cons, List.length_cons, ih]

/-- The only test that is run gives the only result. -/
theorem RunsTests.results_eq_singleton {directory : FilePath} {world after : Surroundings}
    {place : List String} {name : String} {results : List TestResult}
    (h : RunsTests directory world [place] results after) (hname : place.getLast? = some name) :
    results = [(runTestFile world (directory.descend place) name).1] := by
  cases h with
  | cons hlast hresult hrest =>
    cases hrest
    cases hname.symm.trans hlast
    rw [hresult]

theorem runsTests_runTestFiles {node : FileNode} {directory : FilePath} {files : List FoundFile}
    (h : ∀ file ∈ files, file.IsAt node directory [] file.place) (world : Surroundings) :
    RunsTests directory world (files.map FoundFile.place) (runTestFiles world files).1
      (runTestFiles world files).2 := by
  induction files generalizing world with
  | nil => exact .nil world
  | cons file rest ih =>
    obtain ⟨hfile, hrest⟩ := List.forall_mem_cons.1 h
    refine .cons List.getLast?_concat ?_ (ih hrest _)
    rw [← hfile.path_eq]
    rfl

/-! ## Tallies -/

theorem failedCount_eq_zero_iff {results : List TestResult} :
    failedCount results = 0 ↔ ∀ result ∈ results, result.passed := by
  rw [failedCount, List.countP_eq_zero]
  simp

/-- The last line tells how many tests pass and how many fail. -/
theorem tally_eq (plain : Bool) (results : List TestResult) :
    ∃ verdict more, tally plain results = ["", "test result: " ++ verdict ++ ". " ++
      toString (passedCount results) ++ " passed, " ++ toString (failedCount results) ++ " failed" ++
      more] := by
  rw [tally]
  split
  · next h =>
    have hzero : " passed, 0 failed" = " passed, " ++ toString 0 ++ " failed" := rfl
    refine ⟨Paint.green.apply plain "ok", "", ?_⟩
    rw [h, hzero]
    simp only [String.append_assoc, String.append_empty]
  · have hopen : " failed (of " = " failed" ++ " (of " := rfl
    refine ⟨Paint.red.apply plain "FAILED", " (of " ++ toString results.length ++ ")", ?_⟩
    rw [hopen]
    simp only [String.append_assoc]

/-! ## The tests of a directory -/

namespace FileNode

/-- The names lead to a test below a node, and its category is asked for. -/
structure IsRequestedTest (node : FileNode) (requests : List String) (place : List String) : Prop where
  isSome_contentAt? : (node.contentAt? place).isSome
  isTest : ∃ name, place.getLast? = some name ∧ testSuffix.toList <:+ name.toList
  isAskedFor : Category.IsAskedFor requests (Category.ofPlace place)

/-- The test files below a node. -/
def testFiles (path : FilePath) (node : FileNode) : List FoundFile :=
  (node.filesBelow true path).filter Category.holdsTest

variable {node : FileNode} (h : node.IsWellNamed) {path : FilePath}

include h

theorem IsWellNamed.mem_testFiles_iff {file : FoundFile} :
    file ∈ node.testFiles path ↔
      file.IsAt node path [] file.place ∧ testSuffix.toList <:+ file.name.toList := by
  rw [testFiles, List.mem_filter, h.mem_filesBelow_iff, Category.holdsTest,
    List.isSuffixOf_iff_suffix]
  simp

theorem IsWellNamed.nodup_testFiles : ((node.testFiles path).map FoundFile.place).Nodup := by
  have hplaces := (h.lists_filesBelow path).pairwise
  refine (hplaces.imp fun hlex heq => ?_).sublist (List.filter_sublist.map _)
  subst heq
  exact irrefl _ hlex

theorem IsWellNamed.mem_places_iff (requests : List String) (place : List String) :
    place ∈ (Category.selectedFiles (node.testFiles path) requests).map FoundFile.place ↔
      node.IsRequestedTest requests place := by
  rw [List.mem_map]
  constructor
  · rintro ⟨file, hfile, rfl⟩
    obtain ⟨hmem, hasked⟩ := Category.mem_selectedFiles_iff.1 hfile
    obtain ⟨hat, hsuffix⟩ := h.mem_testFiles_iff.1 hmem
    refine ⟨?_, ⟨file.name, List.getLast?_concat, hsuffix⟩, Category.nameOf_eq file ▸ hasked⟩
    rw [hat.contentAt?_eq]
    rfl
  · rintro ⟨hcontent, ⟨name, hname, hsuffix⟩, hasked⟩
    obtain ⟨content, hcontent⟩ := Option.isSome_iff_exists.1 hcontent
    let file : FoundFile := ⟨path.descend place, place.dropLast, name, content⟩
    have hplace : file.place = place := List.dropLast_append_getLast? name hname
    refine ⟨file, Category.mem_selectedFiles_iff.2 ⟨h.mem_testFiles_iff.2 ⟨?_, hsuffix⟩, ?_⟩, hplace⟩
    · rw [hplace]
      exact ⟨hplace, rfl, hcontent⟩
    · rwa [Category.nameOf_eq, hplace]

end FileNode

/-- Where no test is selected nothing is run, and the exit code says so; else the outcome is that of the
run of the selected tests. -/
theorem testDirectory_cases {world : Surroundings} {path : FilePath} {node : FileNode}
    (hopen : world.files.open? path = .ok node) (log : Log) (plain : Bool) (requests : List String) :
    (Category.selectedFiles (node.testFiles path) requests = [] ∧
      (testDirectory world log plain path requests).exitCode = 1 ∧
      (testDirectory world log plain path requests).world = world) ∨
    (Category.selectedFiles (node.testFiles path) requests ≠ [] ∧
      ∃ told, testDirectory world log plain path requests =
        let ran := runTestFiles world (Category.selectedFiles (node.testFiles path) requests)
        .ofResults ran.2 plain told ran.1) := by
  have hbelow : Category.below world.files path = Category.group (node.testFiles path) := by
    rw [Category.below, Disk.filesIn_eq_map, hopen]
    rfl
  rw [testDirectory, hbelow, Category.selectedFiles]
  split
  · next hgroup =>
    have hselect : (Category.select [] requests).categories = [] := by
      rw [Category.categories_select List.Pairwise.nil, List.filter_nil]
    rw [hgroup, hselect]
    exact .inl ⟨rfl, rfl, rfl⟩
  · next hgroup =>
    dsimp only
    split
    · next hselect =>
      rw [hselect]
      exact .inl ⟨rfl, rfl, rfl⟩
    · next hselect =>
      refine .inr ⟨fun hnil => hselect ?_, ?_⟩
      · rw [List.flatMap_eq_nil_iff] at hnil
        refine List.eq_nil_iff_forall_not_mem.2 fun category hcategory => ?_
        exact Category.tests_ne_nil (Category.mem_select_group_iff.1 hcategory).1 (hnil category hcategory)
      · obtain ⟨hresults, hworld⟩ :=
          runCategories_eq world
            (Category.select (Category.group (node.testFiles path)) requests).categories
        rw [← hresults, ← hworld]
        exact ⟨_, rfl⟩

/-- Where there are tests, the warnings about the requests are told before anything else. -/
theorem exists_messages_testDirectory {world : Surroundings} {path : FilePath}
    (h : Category.below world.files path ≠ []) (log : Log) (plain : Bool) (requests : List String) :
    ∃ told, (testDirectory world log plain path requests).messages =
      asLines (Category.select (Category.below world.files path) requests).warnings ++ told := by
  unfold testDirectory
  split
  · next hnil => exact absurd hnil h
  · dsimp only
    split
    · exact ⟨_, rfl⟩
    · exact ⟨_, List.append_assoc _ _ _⟩

theorem TestRequest.perform_eq_testDirectory {request : TestRequest} {world : Surroundings}
    {entries : List (String × FileNode)}
    (hopen : world.files.open? ⟨request.path⟩ = .ok (.directory entries))
    (hrun : request.listCategories = false) (log : Log) :
    request.perform log world =
      testDirectory world log request.plain ⟨request.path⟩ request.categories := by
  have hfile : world.files.isFile ⟨request.path⟩ = false := by
    rw [Disk.isFile, hopen]
  rw [TestRequest.perform, hrun, hfile]
  rfl

section OfResults

variable (world : Surroundings) (plain : Bool) (told : List String) (results : List TestResult)

/-- The exit code of a run of tests is zero if none of them fails. -/
theorem exitCode_ofResults_eq_zero_iff :
    (Outcome.ofResults world plain told results).exitCode = 0 ↔ ∀ result ∈ results, result.passed := by
  rw [← failedCount_eq_zero_iff, Outcome.ofResults, Outcome.telling]
  by_cases hzero : failedCount results = 0 <;> simp [hzero]

/-- The last message of a run of tests counts them. -/
theorem exists_messages_ofResults :
    ∃ before verdict more, (Outcome.ofResults world plain told results).messages =
      before ++ ["test result: " ++ verdict ++ ". " ++ toString (passedCount results) ++ " passed, " ++
        toString (failedCount results) ++ " failed" ++ more ++ "\n"] := by
  obtain ⟨verdict, more, htally⟩ := tally_eq plain results
  refine ⟨told ++ asLines (complaints results ++ [""]), verdict, more, ?_⟩
  rw [Outcome.ofResults, Outcome.telling, htally]
  simp [asLines]

end OfResults

/-- Of the tests below a directory, each one that is asked for is run once, and no other. The exit code
is zero if there is one and all of them pass, and the last line counts them all. -/
theorem TestRequest.exists_runsTests_perform {request : TestRequest} {world : Surroundings}
    {entries : List (String × FileNode)} (hnames : world.files.IsWellNamed)
    (hopen : world.files.open? ⟨request.path⟩ = .ok (.directory entries))
    (hrun : request.listCategories = false) (log : Log) :
    ∃ places results after, places.Nodup ∧
      (∀ place, place ∈ places ↔
        FileNode.IsRequestedTest (.directory entries) request.categories place) ∧
      RunsTests ⟨request.path⟩ world places results after ∧
      (request.perform log world).world = after ∧
      ((request.perform log world).exitCode = 0 ↔ places ≠ [] ∧ ∀ result ∈ results, result.passed) ∧
      passedCount results + failedCount results = places.length ∧
      (places ≠ [] → ∃ told verdict more, (request.perform log world).messages =
        told ++ ["test result: " ++ verdict ++ ". " ++ toString (passedCount results) ++ " passed, " ++
          toString (failedCount results) ++ " failed" ++ more ++ "\n"]) := by
  have hnode := hnames.opened _ _ hopen
  let node : FileNode := .directory entries
  let files := Category.selectedFiles (node.testFiles ⟨request.path⟩) request.categories
  let ran := runTestFiles world files
  have hruns : RunsTests ⟨request.path⟩ world (files.map FoundFile.place) ran.1 ran.2 :=
    runsTests_runTestFiles (fun file hmem =>
      (hnode.mem_testFiles_iff.1 (Category.mem_selectedFiles_iff.1 hmem).1).1) world
  have hcount : passedCount ran.1 + failedCount ran.1 = (files.map FoundFile.place).length := by
    rw [passedCount_add_failedCount, hruns.length_eq]
  refine ⟨files.map FoundFile.place, ran.1, ran.2, Category.nodup_selectedFiles hnode.nodup_testFiles _,
    hnode.mem_places_iff _, hruns, ?_⟩
  rw [TestRequest.perform_eq_testDirectory hopen hrun, Ne, List.map_eq_nil_iff]
  rcases testDirectory_cases hopen log request.plain request.categories with
    ⟨hnil, hcode, hworld⟩ | ⟨hne, told, houtcome⟩
  · -- nothing is run, and the exit code tells this from a run in which all tests pass
    have hnil : files = [] := hnil
    have hran : ran = ([], world) := by
      rw [show ran = runTestFiles world files from rfl, hnil]
      rfl
    refine ⟨?_, ?_, hcount, fun hne => absurd hnil hne⟩
    · rw [hworld, hran]
    · rw [hcode]
      exact iff_of_false Nat.one_ne_zero fun hand => hand.1 hnil
  · have houtcome : testDirectory world log request.plain ⟨request.path⟩ request.categories =
        .ofResults ran.2 request.plain told ran.1 := houtcome
    rw [houtcome, exitCode_ofResults_eq_zero_iff]
    exact ⟨rfl, (and_iff_right hne).symm, hcount, fun _ => exists_messages_ofResults _ _ _ _⟩

/-- A test that passes. -/
def greeting : String :=
  "---\nexpect_output = \"<page>Hi\\n</page>\"\n---\n" ++
    "<x:model xmlns:x='xdra'><page><x:literal>Hi</x:literal></page></x:model>"

/-- A test that is no text next to a file that is no test, and a test that passes, in two directories. -/
def suite : FileNode :=
  .directory [("a", .directory [("c.test.xdra", .file .binary), ("c.xml", .file (.text "<c/>"))]),
    ("b", .directory [("d.test.xdra", .file (.text greeting))])]

/-- A world with nothing but the two tests. -/
def suiteWorld : Surroundings := ⟨.around suite, .text ""⟩

theorem isWellNamed_suiteWorld : suiteWorld.files.IsWellNamed :=
  Disk.isWellNamed_around (by simp [suite])

theorem open?_suiteWorld : suiteWorld.files.open? ⟨"."⟩ = .ok suite := by
  rw [Disk.open?_eq_follow (by decide)]
  rfl

theorem readText_suiteWorld :
    suiteWorld.files.readText ⟨"./a/c.test.xdra"⟩ = .error .notText ∧
      suiteWorld.files.readText ⟨"./b/d.test.xdra"⟩ = .ok greeting := by
  rw [Disk.readText, Disk.open?_eq_follow (by decide), Disk.readText, Disk.open?_eq_follow (by decide)]
  exact ⟨rfl, rfl⟩

theorem failure_runTestFile_suiteWorld :
    (runTestFile suiteWorld ⟨"./a/c.test.xdra"⟩ "c.test.xdra").1.failure = some (.unreadable .notText) ∧
      (runTestFile suiteWorld ⟨"./b/d.test.xdra"⟩ "d.test.xdra").1.failure = none := by
  rw [runTestFile, runTestFile, readText_suiteWorld.1, readText_suiteWorld.2]
  exact ⟨rfl, by decide +kernel⟩

theorem isRequestedTest_suite_iff {requests : List String} {place : List String} :
    suite.IsRequestedTest requests place ↔
      Category.IsAskedFor requests "a" ∧ place = ["a", "c.test.xdra"] ∨
      Category.IsAskedFor requests "b" ∧ place = ["b", "d.test.xdra"] := by
  have hsuite : suite.IsWellNamed := isWellNamed_suiteWorld.opened _ _ open?_suiteWorld
  rw [← @FileNode.IsWellNamed.mem_places_iff suite hsuite ⟨"."⟩, List.mem_map, @eq_comm _ place,
    @eq_comm _ place]
  -- members only, as the sorting of the entries does not compute in a proof
  simp only [Category.mem_selectedFiles_iff, FileNode.testFiles, FileNode.filesBelow, suite,
    inNameOrder, walkEntries, FileNode.walk, List.mem_filter, List.mem_flatMap, List.mem_mergeSort]
  simp [or_and_right, exists_or, FoundFile.place, Category.holdsTest, Category.nameOf, testSuffix,
    List.suffix_cons_iff]

/-- What is asked of the suite with names of categories. -/
def suiteRequest (categories : List String) : TestRequest := ⟨".", categories, false, true⟩

/-- The test that is no text is asked for twice, and one below it that there is not; it fails, and the
other one passes. -/
theorem TestRequest.exists_runsTests_perform_suite :
    suiteWorld.files.IsWellNamed ∧ suiteWorld.files.open? ⟨"."⟩ = .ok suite ∧
      (∃ result after, RunsTests ⟨"."⟩ suiteWorld [["a", "c.test.xdra"]] [result] after ∧
        result.failure = some (.unreadable .notText) ∧
        ((suiteRequest ["/a/", "a", "a/b"]).perform (.choose [] false) suiteWorld).exitCode ≠ 0) ∧
      ∃ result after, RunsTests ⟨"."⟩ suiteWorld [["b", "d.test.xdra"]] [result] after ∧
        result.failure = none ∧
        ((suiteRequest ["b"]).perform (.choose [] false) suiteWorld).exitCode = 0 := by
  -- a request for one test runs this test, and its exit code is the verdict on it
  have hone (categories place : List String)
      (honly : ∀ other, suite.IsRequestedTest categories other ↔ other = place) :
      ∃ results after, RunsTests ⟨"."⟩ suiteWorld [place] results after ∧
        (((suiteRequest categories).perform (.choose [] false) suiteWorld).exitCode = 0 ↔
          ∀ result ∈ results, result.passed) := by
    obtain ⟨places, results, after, hnodup, hmem, hruns, -, hcode, -, -⟩ :=
      @TestRequest.exists_runsTests_perform (suiteRequest categories) suiteWorld _
        isWellNamed_suiteWorld open?_suiteWorld rfl (.choose [] false)
    obtain rfl : places = [place] :=
      eq_singleton_of_mem_iff hnodup fun other => (hmem other).trans (honly other)
    exact ⟨results, after, hruns, hcode.trans (and_iff_right (List.cons_ne_nil _ _))⟩
  obtain ⟨hfailure, hnone⟩ := failure_runTestFile_suiteWorld
  refine ⟨isWellNamed_suiteWorld, open?_suiteWorld, ?_, ?_⟩
  · have ha : Category.IsAskedFor ["/a/", "a", "a/b"] "a" := by decide +kernel
    have hb : ¬ Category.IsAskedFor ["/a/", "a", "a/b"] "b" := by decide +kernel
    obtain ⟨results, after, hruns, hcode⟩ := hone ["/a/", "a", "a/b"] ["a", "c.test.xdra"] fun other =>
      isRequestedTest_suite_iff.trans (by simp only [ha, hb, true_and, false_and, or_false])
    obtain rfl : results = [(runTestFile suiteWorld ⟨"./a/c.test.xdra"⟩ "c.test.xdra").1] :=
      hruns.results_eq_singleton rfl
    refine ⟨_, after, hruns, hfailure, fun hzero => ?_⟩
    have hpassed := hcode.1 hzero _ (List.mem_singleton_self _)
    rw [TestResult.passed, hfailure] at hpassed
    cases hpassed
  · have ha : ¬ Category.IsAskedFor ["b"] "a" := by decide +kernel
    have hb : Category.IsAskedFor ["b"] "b" := by decide +kernel
    obtain ⟨results, after, hruns, hcode⟩ := hone ["b"] ["b", "d.test.xdra"] fun other =>
      isRequestedTest_suite_iff.trans (by simp only [ha, hb, true_and, false_and, false_or])
    obtain rfl : results = [(runTestFile suiteWorld ⟨"./b/d.test.xdra"⟩ "d.test.xdra").1] :=
      hruns.results_eq_singleton rfl
    refine ⟨_, after, hruns, hnone, hcode.2 fun result hresult => ?_⟩
    rw [List.mem_singleton.1 hresult, TestResult.passed, hnone]
    rfl

end Docweave
