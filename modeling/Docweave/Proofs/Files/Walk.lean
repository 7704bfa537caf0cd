import Docweave.Files.Tree
import Docweave.Proofs.Gives
import Mathlib.Data.List.Lex

set_option autoImplicit false

/-! # The files that a walk meets

A file is found by the names that lead to it. `IsWellNamed.lists_filesBelow` says that a deep walk
meets each file below its directory, once, in the order of these names: an entry with all that lies
below it comes before the entries with later names. `IsWellNamed.filesBelow_false` says that a walk
that is not deep meets those of the files that lie in the directory itself. -/

namespace Docweave

/-! ## One entry for each name -/

/-- No directory of the tree has two entries of one name. -/
inductive FileNode.IsWellNamed : FileNode → Prop where
  | file (content : FileContent) : IsWellNamed (.file content)
  | directory {entries : List (String × FileNode)} (hnames : (entries.map (·.1)).Nodup)
      (hnodes : ∀ entry ∈ entries, entry.2.IsWellNamed) : IsWellNamed (.directory entries)

attribute [simp] FileNode.IsWellNamed.file

@[simp] theorem FileNode.isWellNamed_directory_iff {entries : List (String × FileNode)} :
    (directory entries).IsWellNamed ↔
      (entries.map (·.1)).Nodup ∧ ∀ entry ∈ entries, entry.2.IsWellNamed := by
  constructor
  · intro h
    cases h with
    | directory hnames hnodes => exact ⟨hnames, hnodes⟩
  · rintro ⟨hnames, hnodes⟩
    exact .directory hnames hnodes

theorem entryNamed?_eq_some_iff {name : String} {node : FileNode}
    {entries : List (String × FileNode)} (hnames : (entries.map (·.1)).Nodup) :
    entryNamed? name entries = some node ↔ (name, node) ∈ entries := by
  induction entries with
  | nil => simp [entryNamed?]
  | cons entry rest ih =>
    obtain ⟨first, firstNode⟩ := entry
    rw [List.map_cons, List.nodup_cons] at hnames
    obtain ⟨hfirst, hrest⟩ := hnames
    by_cases hname : first = name
    · subst hname
      have hother : (first, node) ∉ rest := by
        intro hmem
        exact hfirst (List.mem_map.2 ⟨_, hmem, rfl⟩)
      simp [entryNamed?, hother, eq_comm]
    · have hne : ¬ name = first := fun h => hname h.symm
      simpa [entryNamed?, hname, hne] using ih hrest

theorem mem_putFile {name : String} {node : FileNode} {entries : List (String × FileNode)}
    {entry : String × FileNode} (h : entry ∈ putFile name node entries) :
    entry = (name, node) ∨ entry ∈ entries := by
  induction entries with
  | nil => exact .inl (List.mem_singleton.1 h)
  | cons first rest ih =>
    rw [putFile] at h
    split at h
    · exact (List.mem_cons.1 h).imp_right (List.mem_cons_of_mem first)
    · rcases List.mem_cons.1 h with rfl | hrest
      · exact .inr List.mem_cons_self
      · exact (ih hrest).imp_right (List.mem_cons_of_mem first)

/-- A node that is put among others takes the place of the one with its name. -/
theorem nodup_names_putFile {name : String} {node : FileNode} {entries : List (String × FileNode)}
    (hnames : (entries.map (·.1)).Nodup) : ((putFile name node entries).map (·.1)).Nodup := by
  induction entries with
  | nil => exact List.pairwise_singleton _ name
  | cons first rest ih =>
    rw [List.map_cons, List.nodup_cons] at hnames
    obtain ⟨hfirst, hrest⟩ := hnames
    rw [putFile]
    split
    · next hname =>
      rw [List.map_cons, List.nodup_cons]
      exact ⟨hname ▸ hfirst, hrest⟩
    · next hname =>
      rw [List.map_cons, List.nodup_cons]
      refine ⟨fun hmem => ?_, ih hrest⟩
      obtain ⟨entry, hentry, heq⟩ := List.mem_map.1 hmem
      rcases mem_putFile hentry with rfl | hold
      · exact hname heq.symm
      · exact hfirst (List.mem_map.2 ⟨entry, hold, heq⟩)

namespace FileNode

theorem IsWellNamed.entryNamed {entries : List (String × FileNode)}
    (h : IsWellNamed (.directory entries)) {name : String} {node : FileNode}
    (hentry : entryNamed? name entries = some node) : node.IsWellNamed := by
  cases h with
  | directory hnames hnodes => exact hnodes _ ((entryNamed?_eq_some_iff hnames).1 hentry)

theorem IsWellNamed.empty : IsWellNamed (.directory []) := .directory List.nodup_nil nofun

theorem IsWellNamed.putFile {entries : List (String × FileNode)}
    (h : IsWellNamed (.directory entries)) (name : String) {node : FileNode}
    (hnode : node.IsWellNamed) : IsWellNamed (.directory (putFile name node entries)) := by
  cases h with
  | directory hnames hnodes =>
    refine .directory (nodup_names_putFile hnames) fun entry hentry => ?_
    rcases mem_putFile hentry with rfl | hold
    · exact hnode
    · exact hnodes entry hold

/-- Planting keeps the names apart, so that a tree that is made that way from nothing is well named. -/
theorem IsWellNamed.plant {node planted : FileNode} (h : node.IsWellNamed)
    (hplanted : planted.IsWellNamed) (parts : List String) :
    (node.plant parts planted).IsWellNamed := by
  induction parts generalizing node with
  | nil =>
    cases node with
    | file | directory => exact hplanted
  | cons part rest ih =>
    cases node with
    | file content => exact IsWellNamed.empty.putFile part (ih .empty)
    | directory entries =>
      refine h.putFile part (ih ?_)
      cases hentry : entryNamed? part entries with
      | none => exact .empty
      | some below => exact h.entryNamed hentry

end FileNode

/-- Where a cursor stands the tree is well named, and so it is above. -/
structure FileCursor.IsWellNamed (cursor : FileCursor) : Prop where
  here : cursor.here.IsWellNamed
  above : ∀ level ∈ cursor.above, (FileNode.directory level.2).IsWellNamed

theorem FileCursor.IsWellNamed.step {cursor : FileCursor} (h : cursor.IsWellNamed) (name : String) :
    Gives (cursor.step name) FileCursor.IsWellNamed := by
  obtain ⟨here, above⟩ := cursor
  have hwhole := h
  obtain ⟨hhere, habove⟩ := h
  unfold FileCursor.step
  cases here with
  | file content => exact gives_error _
  | directory entries =>
    dsimp only at hhere habove ⊢
    split
    · exact gives_ok hwhole
    · split
      · split
        · next siblings above =>
          obtain ⟨hsiblings, hrest⟩ := List.forall_mem_cons.1 habove
          exact gives_ok ⟨hsiblings, hrest⟩
        · exact gives_ok hwhole
      · split
        · exact gives_error _
        · split
          · next node hentry =>
            exact gives_ok ⟨hhere.entryNamed hentry, List.forall_mem_cons.2 ⟨hhere, habove⟩⟩
          · exact gives_error _

theorem FileNode.IsWellNamed.rebuild {node : FileNode} (h : node.IsWellNamed)
    {above : List (String × List (String × FileNode))}
    (habove : ∀ level ∈ above, IsWellNamed (.directory level.2)) :
    (FileCursor.rebuild node above).IsWellNamed := by
  induction above generalizing node with
  | nil => exact h
  | cons level rest ih =>
    obtain ⟨hlevel, hrest⟩ := List.forall_mem_cons.1 habove
    exact ih (hlevel.putFile level.1 h) hrest

namespace Disk

/-- No directory on the disk has two entries of one name. -/
def IsWellNamed (disk : Disk) : Prop := disk.root.IsWellNamed

variable {disk : Disk}

theorem IsWellNamed.follow (h : disk.IsWellNamed) (absolute : Bool) (parts : List String) :
    Gives (disk.follow absolute parts) FileCursor.IsWellNamed := by
  unfold Disk.follow
  have hstart : FileCursor.IsWellNamed ⟨disk.root, []⟩ := ⟨h, nofun⟩
  generalize (if absolute then parts else disk.current ++ parts) = parts
  generalize (⟨disk.root, []⟩ : FileCursor) = cursor at hstart ⊢
  induction parts generalizing cursor with
  | nil => exact gives_ok hstart
  | cons part rest ih =>
    rw [List.foldlM_cons]
    exact gives_bind (hstart.step part) fun next hnext => ih next hnext

/-- Whatever a path leads to on a well-named disk is well named. -/
theorem IsWellNamed.opened (h : disk.IsWellNamed) (path : FilePath) :
    Gives (disk.open? path) FileNode.IsWellNamed := by
  unfold Disk.open?
  split
  · exact gives_error _
  · exact gives_map (h.follow _ _) fun cursor hcursor => hcursor.here

/-- A file that is written takes the place of the one with its name. -/
theorem IsWellNamed.writeText (h : disk.IsWellNamed) (path : FilePath) (data : String) :
    Gives (disk.writeText path data) IsWellNamed := by
  unfold Disk.writeText
  split
  · exact gives_error _
  · exact gives_error _
  · refine gives_bind (h.follow _ _) fun cursor hcursor => ?_
    split
    · exact gives_bind (gives_true _) fun _ _ => gives_error _
    · split
      · exact gives_error _
      · next entries hhere =>
        have hmade (name : String) : FileNode.IsWellNamed
            (.directory (Docweave.putFile name (.file (.text data)) entries)) :=
          FileNode.IsWellNamed.putFile (hhere ▸ hcursor.here) name (.file _)
        split
        · exact gives_error _
        · split
          · exact gives_error _
          · split
            · exact gives_error _
            · exact gives_ok ((hmade _).rebuild hcursor.above)

/-- A well-named node makes a well-named disk. -/
theorem isWellNamed_around {node : FileNode} (h : node.IsWellNamed) : (around node).IsWellNamed := by
  refine .directory (List.pairwise_singleton _ _) fun entry hentry => ?_
  obtain rfl := List.mem_singleton.1 hentry
  exact h

end Disk

/-- The path with names behind it. -/
def FilePath.descend (path : FilePath) (names : List String) : FilePath :=
  names.foldl (fun path name => path.join ⟨name⟩) path

/-- The file is the one that the names `rest` lead to from a node at a path and a place. -/
structure FoundFile.IsAt (node : FileNode) (path : FilePath) (place rest : List String)
    (found : FoundFile) : Prop where
  place_eq : found.place = place ++ rest
  path_eq : found.path = path.descend rest
  contentAt?_eq : node.contentAt? rest = some found.content

/-- The files are those below a node at a path and a place, in the order of their places. -/
structure FileNode.Lists (node : FileNode) (path : FilePath) (place : List String)
    (files : List FoundFile) : Prop where
  mem_iff : ∀ found, found ∈ files ↔ ∃ rest, found.IsAt node path place rest
  pairwise : (files.map FoundFile.place).Pairwise (List.Lex (· < ·))

/-! ## Names in order -/

/-- Things of different names are sorted by their names. -/
theorem pairwise_mergeSort_lt {α : Type} (name : α → String) {l : List α} (h : (l.map name).Nodup) :
    (l.mergeSort fun a b => decide (name a ≤ name b)).Pairwise (name · < name ·) := by
  have htrans (a b c : α) (hab : decide (name a ≤ name b)) (hbc : decide (name b ≤ name c)) :
      decide (name a ≤ name c) := by
    rw [decide_eq_true_iff] at hab hbc ⊢
    exact String.le_trans hab hbc
  have htotal (a b : α) : decide (name a ≤ name b) || decide (name b ≤ name a) := by
    rw [Bool.or_eq_true, decide_eq_true_iff, decide_eq_true_iff]
    exact String.le_total (name a) (name b)
  have hle := (List.pairwise_mergeSort htrans htotal l).imp of_decide_eq_true
  have hne : (l.mergeSort fun a b => decide (name a ≤ name b)).Pairwise (name · ≠ name ·) := by
    have hperm := (List.mergeSort_perm l fun a b => decide (name a ≤ name b)).map name
    exact List.pairwise_map.1 (hperm.nodup_iff.2 h)
  exact hle.imp₂ (fun a b hab hne => Std.lt_of_le_of_ne hab hne) hne

/-- The entries of a directory in the order of their names. -/
def sortedEntries (entries : List (String × FileNode)) : List (String × FileNode) :=
  entries.mergeSort fun a b => decide (a.1 ≤ b.1)

theorem mem_sortedEntries_iff {entries : List (String × FileNode)} {entry : String × FileNode} :
    entry ∈ sortedEntries entries ↔ entry ∈ entries := List.mem_mergeSort

theorem pairwise_sortedEntries {entries : List (String × FileNode)}
    (hnames : (entries.map (·.1)).Nodup) : (sortedEntries entries).Pairwise (·.1 < ·.1) :=
  pairwise_mergeSort_lt Prod.fst hnames

theorem walkEntries_eq_map (deep : Bool) (path : FilePath) (within : List String)
    (entries : List (String × FileNode)) :
    walkEntries deep path within entries =
      entries.map fun entry => (entry.1, entry.2.walk deep (path.join ⟨entry.1⟩) within entry.1) := by
  induction entries with
  | nil => rw [walkEntries, List.map_nil]
  | cons entry rest ih => rw [walkEntries, ih, List.map_cons]

/-- The files of the entries of a directory, in the order of the entries. -/
theorem inNameOrder_walkEntries (deep : Bool) (path : FilePath) (within : List String)
    (entries : List (String × FileNode)) :
    inNameOrder (walkEntries deep path within entries) =
      (sortedEntries entries).flatMap fun entry =>
        entry.2.walk deep (path.join ⟨entry.1⟩) within entry.1 := by
  rw [walkEntries_eq_map, inNameOrder, ← List.map_mergeSort (r := fun a b => decide (a.1 ≤ b.1)),
    List.flatMap_map]
  · rfl
  · intro a _ b _
    rfl

/-! ## A deep walk -/

section Directory

variable {entries : List (String × FileNode)} (hnames : (entries.map (·.1)).Nodup) {path : FilePath}
  {place : List String}

include hnames

/-- The first of the names that lead to a file below a directory is that of an entry. -/
theorem FoundFile.isAt_directory_iff {rest : List String} {found : FoundFile} :
    found.IsAt (.directory entries) path place rest ↔
      ∃ entry ∈ entries, ∃ below, rest = entry.1 :: below ∧
        found.IsAt entry.2 (path.join ⟨entry.1⟩) (place ++ [entry.1]) below := by
  constructor
  · rintro ⟨hplace, hpath, hcontent⟩
    cases rest with
    | nil => cases hcontent
    | cons name below =>
      obtain ⟨node, hnode, hbelow⟩ := Option.bind_eq_some_iff.1 hcontent
      refine ⟨(name, node), (entryNamed?_eq_some_iff hnames).1 hnode, below, rfl, ?_, hpath, hbelow⟩
      rw [hplace, List.append_assoc, List.singleton_append]
  · rintro ⟨⟨name, node⟩, hentry, below, rfl, hplace, hpath, hcontent⟩
    refine ⟨?_, hpath, ?_⟩
    · rw [hplace, List.append_assoc, List.singleton_append]
    · rw [FileNode.contentAt?, (entryNamed?_eq_some_iff hnames).2 hentry]
      exact hcontent

/-- What is known of the entries of a directory gives what is known of the directory. -/
theorem FileNode.Lists.directory {files : String × FileNode → List FoundFile}
    (hfiles : ∀ entry ∈ entries,
      entry.2.Lists (path.join ⟨entry.1⟩) (place ++ [entry.1]) (files entry)) :
    Lists (.directory entries) path place ((sortedEntries entries).flatMap files) := by
  constructor
  · intro found
    rw [List.mem_flatMap]
    constructor
    · rintro ⟨entry, hentry, hfound⟩
      rw [mem_sortedEntries_iff] at hentry
      obtain ⟨below, hbelow⟩ := ((hfiles entry hentry).mem_iff found).1 hfound
      exact ⟨_, (FoundFile.isAt_directory_iff hnames).2 ⟨entry, hentry, below, rfl, hbelow⟩⟩
    · rintro ⟨rest, hrest⟩
      obtain ⟨entry, hentry, below, -, hbelow⟩ := (FoundFile.isAt_directory_iff hnames).1 hrest
      exact ⟨entry, mem_sortedEntries_iff.2 hentry,
        ((hfiles entry hentry).mem_iff found).2 ⟨below, hbelow⟩⟩
  · rw [List.map_flatMap, List.pairwise_flatMap]
    constructor
    · intro entry hentry
      exact (hfiles entry (mem_sortedEntries_iff.1 hentry)).pairwise
    · -- files of different entries differ first in the names of the entries
      refine (pairwise_sortedEntries hnames).imp_of_mem fun {a b} ha hb hlt x hx y hy => ?_
      obtain ⟨found, hfound, rfl⟩ := List.mem_map.1 hx
      obtain ⟨other, hother, rfl⟩ := List.mem_map.1 hy
      obtain ⟨rest, hrest⟩ := ((hfiles a (mem_sortedEntries_iff.1 ha)).mem_iff found).1 hfound
      obtain ⟨more, hmore⟩ := ((hfiles b (mem_sortedEntries_iff.1 hb)).mem_iff other).1 hother
      rw [hrest.place_eq, hmore.place_eq, List.append_assoc, List.append_assoc]
      exact .append_left _ (.rel hlt) place

end Directory

/-- A file is what its own name leads to. -/
theorem FileNode.lists_file (content : FileContent) (path : FilePath) (within : List String)
    (name : String) :
    Lists (.file content) path (within ++ [name]) [⟨path, within, name, content⟩] := by
  constructor
  · intro found
    rw [List.mem_singleton]
    constructor
    · rintro rfl
      exact ⟨[], by rw [List.append_nil]; rfl, rfl, rfl⟩
    · rintro ⟨rest, hplace, hpath, hcontent⟩
      cases rest with
      | cons name rest => cases hcontent
      | nil =>
        obtain ⟨foundPath, foundWithin, foundName, foundContent⟩ := found
        rw [List.append_nil] at hplace
        obtain ⟨hwithin, hname⟩ := List.append_inj' hplace rfl
        cases hcontent
        cases hname
        rw [show foundPath = path from hpath, show foundWithin = within from hwithin]
  · exact List.pairwise_singleton _ _

theorem FileNode.IsWellNamed.lists_walk {node : FileNode} (h : node.IsWellNamed) (path : FilePath)
    (within : List String) (name : String) :
    node.Lists path (within ++ [name]) (node.walk true path within name) := by
  induction h generalizing path within name with
  | file content => exact FileNode.lists_file content path within name
  | directory hnames hnodes ih =>
    rw [FileNode.walk, if_pos rfl, inNameOrder_walkEntries]
    exact .directory hnames fun entry hentry => ih entry hentry _ _ _

/-! ## All files and those of one level -/

/-- The files in a directory itself are those of a deep walk that no other directory leads to. -/
theorem inNameOrder_walkEntries_false {entries : List (String × FileNode)}
    (hnodes : ∀ entry ∈ entries, entry.2.IsWellNamed) (path : FilePath) (within : List String) :
    inNameOrder (walkEntries false path within entries) =
      (inNameOrder (walkEntries true path within entries)).filter
        fun found => found.within == within := by
  rw [inNameOrder_walkEntries, inNameOrder_walkEntries, List.filter_flatMap]
  refine List.flatMap_congr fun entry hentry => ?_
  obtain ⟨name, node⟩ := entry
  cases node with
  | file content => simp [FileNode.walk]
  | directory below =>
    have hlists : FileNode.Lists _ _ _ _ :=
      (hnodes _ (mem_sortedEntries_iff.1 hentry)).lists_walk (path.join ⟨name⟩) within name
    rw [FileNode.walk, if_neg Bool.false_ne_true]
    refine (List.filter_eq_nil_iff.2 fun found hfound hwithin => ?_).symm
    obtain ⟨rest, hplace, -, hcontent⟩ := (hlists.mem_iff found).1 hfound
    rw [FoundFile.place, eq_of_beq hwithin, List.append_assoc] at hplace
    -- a name more leads to a file below the directory
    cases rest with
    | nil => cases hcontent
    | cons part rest => simpa using congrArg List.length hplace

namespace FileNode

/-- The files that a walk from a node meets. -/
def filesBelow (deep : Bool) (path : FilePath) : FileNode → List FoundFile
  | .file _ => []
  | .directory entries => inNameOrder (walkEntries deep path [] entries)

variable {node : FileNode} (h : node.IsWellNamed) (path : FilePath)

include h

/-- A deep walk meets each file below its node once, in the order of the names that lead there. -/
theorem IsWellNamed.lists_filesBelow : node.Lists path [] (node.filesBelow true path) := by
  cases h with
  | file content =>
    refine ⟨fun found => ?_, .nil⟩
    constructor
    · exact nofun
    · rintro ⟨rest, hplace, -, hcontent⟩
      cases rest with
      | nil => exact absurd hplace (List.append_ne_nil_of_right_ne_nil _ (List.cons_ne_nil _ _))
      | cons part rest => cases hcontent
  | directory hnames hnodes =>
    rw [filesBelow, inNameOrder_walkEntries]
    exact .directory hnames fun entry hentry => (hnodes entry hentry).lists_walk _ _ _

theorem IsWellNamed.filesBelow_false :
    node.filesBelow false path =
      (node.filesBelow true path).filter fun found => found.within == [] := by
  cases h with
  | file content => rfl
  | directory hnames hnodes => exact inNameOrder_walkEntries_false hnodes path []

end FileNode

theorem Disk.filesIn_eq_map (disk : Disk) (deep : Bool) (path : FilePath) :
    disk.filesIn deep path = (disk.open? path).map (FileNode.filesBelow deep path) := rfl

end Docweave
