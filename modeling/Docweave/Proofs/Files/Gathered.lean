import Docweave.Loader
import Docweave.Proofs.Files.Walk
import Docweave.Proofs.Xml.RoundTrip
import Mathlib.Data.List.Forall2
import Mathlib.Data.List.Sort

set_option autoImplicit false

/-! # The documents of a directory

The sources of a directory are the files with the extension of documents, in the order of the names that
lead to them. `loadFiles_gathers` says that a loading gives one document for each of them, in this
order, or else names the first that gives none. -/

namespace Docweave

open List (Forall₂)

/-! ## Sources -/

/-- A file is taken for a document if its name ends in the extension, with something in front of it. -/
theorem FoundFile.isDocument_iff {found : FoundFile} :
    found.isDocument = true ↔ ∃ stem, stem ≠ "" ∧ found.name = stem ++ ".xml" := by
  have hdotted (stem : String) : stem ++ "." ++ "xml" = stem ++ ".xml" := String.append_assoc
  rw [isDocument, beq_iff_eq, nameExtension?_eq_some_iff (by decide)]
  simp only [hdotted]

namespace FileNode

/-- The names lead to a source below a node: to a file with the extension of documents, which lies in
the node itself unless those of the directories below count as well. -/
structure IsSource (deep : Bool) (node : FileNode) (place : List String) : Prop where
  isSome_contentAt? : (node.contentAt? place).isSome
  isDocument : ∃ stem, stem ≠ "" ∧ place.getLast? = some (stem ++ ".xml")
  inScope : deep = true ∨ place.length = 1

/-- The places are those of the sources, in the order of the names and so each of them once. -/
structure SourcesInOrder (deep : Bool) (node : FileNode) (places : List (List String)) : Prop where
  mem_iff : ∀ place, place ∈ places ↔ node.IsSource deep place
  pairwise : places.Pairwise (List.Lex (· < ·))

theorem SourcesInOrder.unique {deep : Bool} {node : FileNode} {places others : List (List String)}
    (h : node.SourcesInOrder deep places) (hothers : node.SourcesInOrder deep others) :
    places = others :=
  h.pairwise.eq_of_mem_iff hothers.pairwise fun place =>
    (h.mem_iff place).trans (hothers.mem_iff place).symm

/-- There is a text at the place that is a document. -/
def Offers (node : FileNode) (place : List String) (document : Element) : Prop :=
  ∃ text, node.contentAt? place = some (.text text) ∧ Element.parse 0 text = .ok document

/-- What there is at the place is no text, or no document. -/
def Spoils (node : FileNode) (place : List String) (problem : SourceProblem) : Prop :=
  (node.contentAt? place = some .binary ∧ problem = .unreadable .notText) ∨
    ∃ text error, node.contentAt? place = some (.text text) ∧ Element.parse 0 text = .error error ∧
      problem = .malformed error

/-- The failure names the first of the places where there is no document, and says why there is none. -/
def StopsAt (node : FileNode) (path : FilePath) (places : List (List String)) (failure : Failure) :
    Prop :=
  ∃ before place after problem, places = before ++ place :: after ∧
    (∀ earlier ∈ before, ∃ document, node.Offers earlier document) ∧ node.Spoils place problem ∧
    failure = .sourceLoad (path.descend place).text problem

theorem Offers.unique {node : FileNode} {place : List String} {document other : Element}
    (h : node.Offers place document) (hother : node.Offers place other) : document = other := by
  obtain ⟨text, hcontent, hparse⟩ := h
  obtain ⟨otherText, hotherContent, hotherParse⟩ := hother
  cases hcontent.symm.trans hotherContent
  exact Except.ok.inj (hparse.symm.trans hotherParse)

theorem Spoils.not_offers {node : FileNode} {place : List String} {problem : SourceProblem}
    (h : node.Spoils place problem) (document : Element) : ¬ node.Offers place document := by
  rintro ⟨text, hcontent, hparse⟩
  rcases h with ⟨hbinary, -⟩ | ⟨otherText, error, hother, herror, -⟩
  · cases hcontent.symm.trans hbinary
  · cases hcontent.symm.trans hother
    cases hparse.symm.trans herror

/-! ## The files that are loaded -/

/-- The files below a node that are taken for documents. -/
def sourceFiles (deep : Bool) (path : FilePath) (node : FileNode) : List FoundFile :=
  (node.filesBelow deep path).filter FoundFile.isDocument

variable {node : FileNode} (h : node.IsWellNamed) {deep : Bool} {path : FilePath}

include h

theorem IsWellNamed.mem_filesBelow_iff {found : FoundFile} :
    found ∈ node.filesBelow deep path ↔
      found.IsAt node path [] found.place ∧ (deep = true ∨ found.place.length = 1) := by
  have hdeep : found ∈ node.filesBelow true path ↔ found.IsAt node path [] found.place := by
    rw [(h.lists_filesBelow path).mem_iff]
    constructor
    · rintro ⟨rest, hrest⟩
      rwa [show found.place = rest from hrest.place_eq]
    · exact fun hfound => ⟨_, hfound⟩
  cases deep with
  | true => simp [hdeep]
  | false => simp [h.filesBelow_false path, hdeep, FoundFile.place]

/-- Without the directories below, the sources are those that one name leads to. -/
theorem IsWellNamed.map_place_sourceFiles_false :
    (node.sourceFiles false path).map FoundFile.place =
      ((node.sourceFiles true path).map FoundFile.place).filter fun place => place.length == 1 := by
  rw [List.filter_map, sourceFiles, sourceFiles, h.filesBelow_false, List.filter_comm]
  congr 2
  funext found
  cases hwithin : found.within with
  | nil => simp [FoundFile.place, hwithin]
  | cons part rest => simp [FoundFile.place, hwithin]

theorem IsWellNamed.isAt_of_mem_sourceFiles {found : FoundFile}
    (hfound : found ∈ node.sourceFiles deep path) : found.IsAt node path [] found.place :=
  (h.mem_filesBelow_iff.1 (List.mem_of_mem_filter hfound)).1

theorem IsWellNamed.pairwise_sourceFiles :
    ((node.sourceFiles deep path).map FoundFile.place).Pairwise (List.Lex (· < ·)) := by
  refine (h.lists_filesBelow path).pairwise.sublist (.map _ (List.filter_sublist.trans ?_))
  cases deep with
  | true => exact .refl _
  | false =>
    rw [h.filesBelow_false]
    exact List.filter_sublist

theorem IsWellNamed.sourcesInOrder (deep : Bool) (path : FilePath) :
    node.SourcesInOrder deep ((node.sourceFiles deep path).map FoundFile.place) := by
  refine ⟨fun place => ?_, h.pairwise_sourceFiles⟩
  rw [List.mem_map]
  constructor
  · rintro ⟨found, hfound, rfl⟩
    obtain ⟨hmem, hdocument⟩ := List.mem_filter.1 hfound
    obtain ⟨hat, hscope⟩ := h.mem_filesBelow_iff.1 hmem
    obtain ⟨stem, hstem, hname⟩ := FoundFile.isDocument_iff.1 hdocument
    refine ⟨?_, ⟨stem, hstem, hname ▸ List.getLast?_concat⟩, hscope⟩
    rw [hat.contentAt?_eq]
    rfl
  · rintro ⟨hcontent, ⟨stem, hstem, hname⟩, hscope⟩
    obtain ⟨content, hcontent⟩ := Option.isSome_iff_exists.1 hcontent
    let found : FoundFile := ⟨path.descend place, place.dropLast, stem ++ ".xml", content⟩
    have hplace : found.place = place := List.dropLast_append_getLast? _ hname
    have hdocument : found.isDocument := FoundFile.isDocument_iff.2 ⟨stem, hstem, rfl⟩
    refine ⟨found, List.mem_filter.2 ⟨h.mem_filesBelow_iff.2 ?_, hdocument⟩, hplace⟩
    rw [hplace]
    exact ⟨⟨hplace, rfl, hcontent⟩, hscope⟩

end FileNode

/-! ## The course of a loading -/

section Aggregate

variable {node : FileNode} {path : FilePath}

theorem FoundFile.IsAt.document_cases {found : FoundFile}
    (h : found.IsAt node path [] found.place) :
    (∃ document, node.Offers found.place document ∧ found.document = .ok document) ∨
    ∃ problem, node.Spoils found.place problem ∧
      found.document = .error (.sourceLoad (path.descend found.place).text problem) := by
  have hcontent := h.contentAt?_eq
  rw [FoundFile.document, h.path_eq]
  cases hread : found.content with
  | binary =>
    rw [hread] at hcontent
    exact .inr ⟨_, .inl ⟨hcontent, rfl⟩, rfl⟩
  | text text =>
    rw [hread] at hcontent
    dsimp only [FileContent.read]
    rw [readSource]
    cases hparse : Element.parse 0 text with
    | ok document => exact .inl ⟨document, ⟨text, hcontent, hparse⟩, rfl⟩
    | error error => exact .inr ⟨_, .inr ⟨text, error, hcontent, hparse, rfl⟩, rfl⟩

/-- Files are read up to the first that gives no document. -/
theorem aggregate_cases (root : Element) (notices : List Notice) {files : List FoundFile}
    (hfiles : ∀ found ∈ files, found.IsAt node path [] found.place) :
    (∃ documents, Forall₂ node.Offers (files.map FoundFile.place) documents ∧
      (aggregate root notices files).result =
        .ok { root with children := root.children ++ documents }) ∨
    ∃ failure, node.StopsAt path (files.map FoundFile.place) failure ∧
      (aggregate root notices files).result = .error failure := by
  induction files generalizing root notices with
  | nil =>
    obtain ⟨name, attributes, text, tail, children⟩ := root
    exact .inl ⟨[], .nil, by rw [aggregate, List.append_nil]⟩
  | cons found rest ih =>
    obtain ⟨hfound, hrest⟩ := List.forall_mem_cons.1 hfiles
    rw [aggregate, List.map_cons]
    rcases hfound.document_cases with
      ⟨document, hoffers, hdocument⟩ | ⟨problem, hspoils, hdocument⟩
    · rw [hdocument]
      dsimp only
      rcases ih (root.append document) _ hrest with
        ⟨documents, hall, hresult⟩ | ⟨failure, hstops, hresult⟩
      · refine .inl ⟨document :: documents, .cons hoffers hall, ?_⟩
        rw [hresult, Element.append, List.append_assoc, List.singleton_append]
      · -- the loading stops where it stops in the rest, with one place more before it
        obtain ⟨before, place, after, problem, hplaces, hbefore, hspoils, rfl⟩ := hstops
        refine .inr ⟨_, ⟨found.place :: before, place, after, problem, ?_, ?_, hspoils, rfl⟩, hresult⟩
        · rw [hplaces, List.cons_append]
        · exact List.forall_mem_cons.2 ⟨⟨document, hoffers⟩, hbefore⟩
    · rw [hdocument]
      exact .inr ⟨_, ⟨[], found.place, _, problem, rfl, nofun, hspoils, rfl⟩, rfl⟩

end Aggregate

/-! ## Loading a directory -/

theorem exists_of_forall₂ {α β : Type} {R : α → β → Prop} {as : List α} {bs : List β}
    (h : Forall₂ R as bs) {a : α} (ha : a ∈ as) : ∃ b, R a b := by
  induction h with
  | nil => cases ha
  | cons hab hrest ih =>
    rcases List.mem_cons.1 ha with rfl | hmem
    · exact ⟨_, hab⟩
    · exact ih hmem

/-- The partners of those that pass a test are found by the test on the pairs. -/
theorem forall₂_filter_zip {α β : Type} {R : α → β → Prop} {as : List α} {bs : List β}
    (h : Forall₂ R as bs) (p : α → Bool) :
    Forall₂ R (as.filter p) (((as.zip bs).filter fun pair => p pair.1).map (·.2)) := by
  induction h with
  | nil => exact .nil
  | @cons a b as bs hab hrest ih =>
    rw [List.zip_cons_cons, List.filter_cons, List.filter_cons]
    cases hp : p a with
    | true => exact .cons hab ih
    | false => exact ih

section LoadFiles

variable {world : Surroundings} {directory : FilePath} {root : String} {node : FileNode}
  {deep : Bool}

theorem loadFiles_eq_of_error {problem : FileProblem}
    (hopen : world.files.open? directory = .error problem) :
    (loadFiles world directory root deep).result =
      .error (.sourceLoad directory.text (.unwalkable directory problem)) := by
  rw [loadFiles, Disk.filesIn_eq_map, hopen]
  rfl

theorem loadFiles_eq_of_ok (hopen : world.files.open? directory = .ok node) :
    loadFiles world directory root deep =
      aggregate (.ofTag root) [] (node.sourceFiles deep directory) := by
  rw [loadFiles, Disk.filesIn_eq_map, hopen]
  rfl

/-- A loading that finds its directory brings all documents, or stops at the first that is none. -/
theorem loadFiles_cases (root : String) (deep : Bool) (h : node.IsWellNamed)
    (hopen : world.files.open? directory = .ok node) :
    (∃ documents,
      Forall₂ node.Offers ((node.sourceFiles deep directory).map FoundFile.place) documents ∧
      (loadFiles world directory root deep).result = .ok (.ofChildren root documents)) ∨
    ∃ failure, node.StopsAt directory ((node.sourceFiles deep directory).map FoundFile.place) failure ∧
      (loadFiles world directory root deep).result = .error failure := by
  rw [loadFiles_eq_of_ok hopen]
  exact aggregate_cases (.ofTag root) [] fun found => h.isAt_of_mem_sourceFiles

theorem loadFiles_eq_ok (h : world.files.IsWellNamed) {tree : Element}
    (hresult : (loadFiles world directory root deep).result = .ok tree) :
    ∃ node documents, world.files.open? directory = .ok node ∧ node.IsWellNamed ∧
      Forall₂ node.Offers ((node.sourceFiles deep directory).map FoundFile.place) documents ∧
      tree = .ofChildren root documents := by
  cases hopen : world.files.open? directory with
  | error problem =>
    rw [loadFiles_eq_of_error hopen] at hresult
    cases hresult
  | ok node =>
    have hnode := h.opened directory node hopen
    rcases loadFiles_cases root deep hnode hopen with
      ⟨documents, hall, hok⟩ | ⟨failure, -, herror⟩
    · exact ⟨node, documents, rfl, hnode, hall, Except.ok.inj (hresult.symm.trans hok)⟩
    · cases hresult.symm.trans herror

theorem isOk_loadFiles_iff (h : world.files.IsWellNamed) :
    (loadFiles world directory root deep).result.isOk ↔
      ∃ node, world.files.open? directory = .ok node ∧
        ∀ place, node.IsSource deep place → ∃ document, node.Offers place document := by
  rw [isOk_iff_exists]
  constructor
  · rintro ⟨tree, hresult⟩
    obtain ⟨node, documents, hopen, hnode, hall, -⟩ := loadFiles_eq_ok h hresult
    refine ⟨node, hopen, fun place hsource => ?_⟩
    exact exists_of_forall₂ hall (((hnode.sourcesInOrder deep directory).mem_iff place).2 hsource)
  · rintro ⟨node, hopen, hsources⟩
    have hnode := h.opened directory node hopen
    rcases loadFiles_cases root deep hnode hopen with
      ⟨documents, -, hok⟩ | ⟨failure, hstops, -⟩
    · exact ⟨_, hok⟩
    · -- the place that a failure names is one of the sources
      obtain ⟨before, place, after, problem, hplaces, -, hspoils, -⟩ := hstops
      have hsource : node.IsSource deep place := by
        rw [← (hnode.sourcesInOrder deep directory).mem_iff, hplaces]
        simp
      obtain ⟨document, hoffers⟩ := hsources place hsource
      exact absurd hoffers (hspoils.not_offers document)

end LoadFiles

/-- A loading of a directory succeeds if the directory can be walked and each of its sources is a
document. These are then the children of the root, in the order of the sources; without the directories
below, those that lie in the directory itself. A loading that fails names the directory, or the first
source that is no document. -/
theorem loadFiles_gathers (world : Surroundings) (directory : FilePath) (root : String)
    (h : world.files.IsWellNamed) :
    (∀ deep, (loadFiles world directory root deep).result.isOk ↔
      ∃ node, world.files.open? directory = .ok node ∧
        ∀ place, node.IsSource deep place → ∃ document, node.Offers place document) ∧
    (∀ deep tree, (loadFiles world directory root deep).result = .ok tree →
      ∃ node places documents, world.files.open? directory = .ok node ∧
        node.SourcesInOrder deep places ∧ Forall₂ node.Offers places documents ∧
        tree = .ofChildren root documents) ∧
    (∀ full flat, (loadFiles world directory root true).result = .ok full →
      (loadFiles world directory root false).result = .ok flat →
      ∃ node places, world.files.open? directory = .ok node ∧ node.SourcesInOrder true places ∧
        Forall₂ node.Offers places full.children ∧
        flat.children =
          ((places.zip full.children).filter fun pair => pair.1.length == 1).map (·.2)) ∧
    ∀ deep failure, (loadFiles world directory root deep).result = .error failure →
      (∃ problem, world.files.open? directory = .error problem ∧
        failure = .sourceLoad directory.text (.unwalkable directory problem)) ∨
      ∃ node places, world.files.open? directory = .ok node ∧ node.SourcesInOrder deep places ∧
        node.StopsAt directory places failure := by
  refine ⟨fun deep => isOk_loadFiles_iff h, ?_, ?_, ?_⟩
  · intro deep tree hresult
    obtain ⟨node, documents, hopen, hnode, hall, htree⟩ := loadFiles_eq_ok h hresult
    exact ⟨node, _, documents, hopen, hnode.sourcesInOrder _ _, hall, htree⟩
  · intro full flat hfull hflat
    obtain ⟨node, documents, hopen, hnode, hall, rfl⟩ := loadFiles_eq_ok h hfull
    obtain ⟨other, shallow, hother, -, hshallow, rfl⟩ := loadFiles_eq_ok h hflat
    cases hopen.symm.trans hother
    refine ⟨node, _, hopen, hnode.sourcesInOrder _ _, hall, ?_⟩
    -- a place offers one document only, so that the two loadings agree where both look
    rw [hnode.map_place_sourceFiles_false] at hshallow
    have hunique : Relator.RightUnique node.Offers := fun _ _ _ => FileNode.Offers.unique
    exact List.right_unique_forall₂' hunique hshallow
      (forall₂_filter_zip hall fun place => place.length == 1)
  · intro deep failure hresult
    cases hopen : world.files.open? directory with
    | error problem =>
      rw [loadFiles_eq_of_error hopen] at hresult
      exact .inl ⟨problem, rfl, (Except.error.inj hresult).symm⟩
    | ok node =>
      have hnode := h.opened directory node hopen
      rcases loadFiles_cases root deep hnode hopen with
        ⟨documents, -, hok⟩ | ⟨failure', hstops, herror⟩
      · cases hresult.symm.trans hok
      · cases hresult.symm.trans herror
        exact .inr ⟨node, _, rfl, hnode.sourcesInOrder _ _, hstops⟩

/-- A directory that holds a document, another directory with a document, and files that are none. -/
def folder : FileNode :=
  .directory [("b.xml", .file (.text "<b/>")), ("a", .directory [("c.xml", .file (.text "<c/>"))]),
    ("notes.txt", .file .binary), (".xml", .file .binary)]

/-- A disk with the folder beside the current directory. -/
def shelf : Disk := ⟨.directory [("books", folder), ("work", .directory [])], ["work"]⟩

theorem isWellNamed_shelf : shelf.IsWellNamed := by
  simp [Disk.IsWellNamed, shelf, folder]

theorem open?_shelf : shelf.open? ⟨"/books"⟩ = .ok folder := by
  rw [Disk.open?_eq_follow (by decide)]
  rfl

/-- The folder has two sources, that in the directory below it first. -/
theorem sourcesInOrder_folder : folder.SourcesInOrder true [["a", "c.xml"], ["b.xml"]] := by
  have hfolder : folder.IsWellNamed := isWellNamed_shelf.opened _ _ open?_shelf
  have hb : nameExtension? "b.xml" = some "xml" := by decide +kernel
  have hc : nameExtension? "c.xml" = some "xml" := by decide +kernel
  have hnotes : nameExtension? "notes.txt" = some "txt" := by decide +kernel
  have hhidden : nameExtension? ".xml" = none := by decide +kernel
  refine ⟨fun place => ?_, ?_⟩
  · rw [← (hfolder.sourcesInOrder true ⟨"/books"⟩).mem_iff, List.mem_cons, List.mem_singleton,
      @eq_comm _ place, @eq_comm _ place, or_comm]
    simp only [folder, FileNode.sourceFiles, FileNode.filesBelow, inNameOrder, walkEntries, FileNode.walk,
      FoundFile.isDocument, FoundFile.place, List.mem_map, List.mem_filter, List.mem_flatMap,
      List.mem_mergeSort]
    simp [or_and_right, exists_or, hb, hc, hnotes, hhidden]
  · exact .cons (fun place hplace => List.mem_singleton.1 hplace ▸ .rel (by decide))
      (List.pairwise_singleton _ _)

theorem offers_folder :
    Forall₂ folder.Offers [["a", "c.xml"], ["b.xml"]] [.ofTag "c", .ofTag "b"] := by
  have hc : Element.parse 0 "<c/>" = .ok (.ofTag "c") :=
    Element.eq_ok_of_leafParts rfl (by decide +kernel)
  have hb : Element.parse 0 "<b/>" = .ok (.ofTag "b") :=
    Element.eq_ok_of_leafParts rfl (by decide +kernel)
  exact .cons ⟨_, rfl, hc⟩ (.cons ⟨_, rfl, hb⟩ .nil)

/-- With the directories below there are two documents, without them there is one. -/
theorem loadFiles_gathers_folder :
    shelf.IsWellNamed ∧ ∃ full flat,
      (loadFiles ⟨shelf, .text ""⟩ ⟨"/books"⟩ "books" true).result = .ok full ∧
      (loadFiles ⟨shelf, .text ""⟩ ⟨"/books"⟩ "books" false).result = .ok flat ∧
      folder.SourcesInOrder true [["a", "c.xml"], ["b.xml"]] ∧
      Forall₂ folder.Offers [["a", "c.xml"], ["b.xml"]] full.children ∧
      full.children = [.ofTag "c", .ofTag "b"] ∧ flat.children = [.ofTag "b"] := by
  obtain ⟨hiff, -, hboth, -⟩ :=
    loadFiles_gathers ⟨shelf, .text ""⟩ ⟨"/books"⟩ "books" isWellNamed_shelf
  have hok (deep : Bool) := (hiff deep).2 ⟨folder, open?_shelf, fun place hsource =>
    exists_of_forall₂ offers_folder ((sourcesInOrder_folder.mem_iff place).2
      ⟨hsource.isSome_contentAt?, hsource.isDocument, .inl rfl⟩)⟩
  obtain ⟨full, hfull⟩ := isOk_iff_exists.1 (hok true)
  obtain ⟨flat, hflat⟩ := isOk_iff_exists.1 (hok false)
  obtain ⟨node, places, hnode, hplaces, hdocuments, hchildren⟩ := hboth full flat hfull hflat
  cases open?_shelf.symm.trans hnode
  obtain rfl := hplaces.unique sourcesInOrder_folder
  have hunique : Relator.RightUnique folder.Offers := fun _ _ _ => FileNode.Offers.unique
  have hfullChildren := List.right_unique_forall₂' hunique hdocuments offers_folder
  refine ⟨isWellNamed_shelf, full, flat, hfull, hflat, hplaces, hdocuments, hfullChildren, ?_⟩
  rw [hchildren, hfullChildren]
  rfl

end Docweave
