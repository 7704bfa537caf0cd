import Docweave.Proofs.Script.Changes
import Mathlib.Data.List.Forall2
import Mathlib.Data.List.Nodup
import Mathlib.Data.List.Range

set_option autoImplicit false

/-! # Where the records of a script come from

A script drops records and changes their order, adds some, and rewrites parts of all that are there.
`records_of_execute` says that it makes up no record and doubles none: each record in the end is one of
the bound tree or the one that an `append` of the script adds, and no two of them are the same one. It
is still what it was, but for the attributes and the children that the script names. -/

namespace Docweave

/-! ## What statements name -/

namespace Command

/-- The name of the attribute that the command sets. -/
def attribute? : Command → Option String
  | setAttr name _ => some name
  | _ => none

/-- The tag of the children that the command gives a text or removes. -/
def tag? : Command → Option String
  | setText tag _ | remove tag => some tag
  | _ => none

end Command

namespace Script

/-- The names of the attributes that the script sets. -/
def attributesSet (script : Script) : List String :=
  script.statements.filterMap (·.command.attribute?)

/-- The tags of the children that the script gives a text or removes. -/
def tagsChanged (script : Script) : List String := script.statements.filterMap (·.command.tag?)

end Script

/-! ## What a record keeps -/

namespace Element

/-- Name, text and tail stay, and so do, in their order, the attributes with other names than the given
ones and the children with other tags. -/
structure KeepsBut (names tags : List String) (before after : Element) : Prop where
  name : after.name = before.name
  text : after.text = before.text
  tail : after.tail = before.tail
  attributes : after.attributes.filter (·.name ∉ names) = before.attributes.filter (·.name ∉ names)
  children : after.children.filter (·.name.localPart ∉ tags) =
    before.children.filter (·.name.localPart ∉ tags)

variable {names tags : List String} {before after later : Element}

theorem KeepsBut.refl (names tags : List String) (record : Element) :
    record.KeepsBut names tags record := ⟨rfl, rfl, rfl, rfl, rfl⟩

theorem KeepsBut.trans (h : before.KeepsBut names tags after) (h' : after.KeepsBut names tags later) :
    before.KeepsBut names tags later where
  name := h'.name.trans h.name
  text := h'.text.trans h.text
  tail := h'.tail.trans h.tail
  attributes := h'.attributes.trans h.attributes
  children := h'.children.trans h.children

end Element

/-- Setting an attribute leaves those with other names as they are. -/
theorem filter_setAttribute {names : List String} {name : String} (h : name ∈ names) (value : String)
    (as : List Attribute) :
    (setAttribute name value as).filter (·.name ∉ names) = as.filter (·.name ∉ names) := by
  induction as with
  | nil => simp [setAttribute, h]
  | cons a rest ih =>
    rw [setAttribute]
    by_cases ha : a.name = name
    · rw [if_pos ha]
      simp [ha, h]
    · rw [if_neg ha, List.filter_cons, List.filter_cons, ih]

/-- Giving a child a text leaves those with other tags as they are. -/
theorem filter_setChildText {tags : List String} {tag : String} (h : tag ∈ tags) (value : String)
    (children : List Element) :
    (setChildText tag value children).filter (·.name.localPart ∉ tags) =
      children.filter (·.name.localPart ∉ tags) := by
  induction children with
  | nil => simp [setChildText, Element.ofText, Element.ofTag, QName.plain, h]
  | cons child rest ih =>
    rw [setChildText]
    by_cases hc : child.name.localPart = tag
    · rw [if_pos hc]
      simp [hc, h]
    · rw [if_neg hc, List.filter_cons, List.filter_cons, ih]

/-- So does removing children. -/
theorem filter_remove {tags : List String} {tag : String} (h : tag ∈ tags) (children : List Element) :
    (children.filter (·.name.localPart != tag)).filter (·.name.localPart ∉ tags) =
      children.filter (·.name.localPart ∉ tags) := by
  rw [List.filter_filter]
  refine List.filter_congr fun child _ => ?_
  by_cases hc : child.name.localPart = tag
  · simp [hc, h]
  · simp [hc]

/-! ## What a command makes of the records -/

/-- The command selects some of the records, in any order, or adds one at the end, or rewrites each of
them but for what it does not name. -/
inductive Command.Makes (names tags : List String) (command : Command) (records : List Element) :
    List Element → Prop where
  | selected {left : List Element} (h : left.Subperm records) : Makes names tags command records left
  | added {record : Element} (h : command.addition? = some record) :
      Makes names tags command records (records ++ [record])
  | rewritten {rewrite : Element → Element}
      (h : ∀ record : Element, record.KeepsBut names tags (rewrite record)) :
      Makes names tags command records (records.map rewrite)

/-- A rewritten record is what it was but for what the command names. -/
theorem Command.keepsBut_of_rewrite? {names tags : List String} {command : Command}
    (hnames : ∀ name, command.attribute? = some name → name ∈ names)
    (htags : ∀ tag, command.tag? = some tag → tag ∈ tags) {rewrite : Element → Element}
    (h : command.rewrite? = some rewrite) (record : Element) :
    record.KeepsBut names tags (rewrite record) := by
  cases command with
  | setText tag value =>
    cases h
    exact ⟨rfl, rfl, rfl, rfl, filter_setChildText (htags tag rfl) value record.children⟩
  | setAttr name value =>
    cases h
    exact ⟨rfl, rfl, rfl, filter_setAttribute (hnames name rfl) value record.attributes, rfl⟩
  | remove tag =>
    cases h
    exact ⟨rfl, rfl, rfl, rfl, filter_remove (htags tag rfl) record.children⟩
  | append | sort | reverse | keep | drop | limit | skip | emit | print | require => cases h

theorem Command.Changes.makes {names tags : List String} {command : Command}
    (hnames : ∀ name, command.attribute? = some name → name ∈ names)
    (htags : ∀ tag, command.tag? = some tag → tag ∈ tags) {records left : List Element}
    (h : command.Changes records left) : command.Makes names tags records left := by
  cases h with
  | selected hleft => exact .selected hleft
  | added hrecord => exact .added hrecord
  | rewritten hrewrite => exact .rewritten (keepsBut_of_rewrite? hnames htags hrewrite)

/-! ## Origins -/

/-- Where a record of a script comes from. -/
inductive Origin where
  /-- It is a record of the bound tree, given by its position. -/
  | bound (position : Nat)
  /-- It was added by a statement of the script, given by its position. -/
  | added (statement : Nat)
deriving DecidableEq

namespace Origin

/-- The record as it is at its origin. -/
def record? (script : Script) (tree : Element) : Origin → Option Element
  | bound position => tree.children[position]?
  | added statement => script.statements[statement]?.bind (·.command.addition?)

/-- The record is there when the first `count` statements were carried out. -/
def IsBefore (count : Nat) : Origin → Prop
  | bound _ => True
  | added statement => statement < count

theorem IsBefore.succ {count : Nat} {origin : Origin} (h : origin.IsBefore count) :
    origin.IsBefore (count + 1) := by
  cases origin with
  | bound position => trivial
  | added statement => exact Nat.lt_succ_of_lt h

end Origin

/-- The record was once at the origin, and the script has since then only changed what it names. -/
def Script.Descends (script : Script) (tree : Element) (origin : Origin) (record : Element) : Prop :=
  ∃ start, origin.record? script tree = some start ∧
    start.KeepsBut script.attributesSet script.tagsChanged record

/-- After the first `count` statements the records have origins, no two of them the same. -/
def Script.Traces (script : Script) (tree : Element) (count : Nat) (records : List Element) : Prop :=
  ∃ origins : List Origin, origins.Nodup ∧ (∀ origin ∈ origins, origin.IsBefore count) ∧
    List.Forall₂ (script.Descends tree) origins records

/-- What is related to a list is so in its parts. -/
theorem exists_sublist_of_forall₂ {α β : Type} {R : α → β → Prop} {as : List α} {bs part : List β}
    (h : List.Forall₂ R as bs) (hpart : part.Sublist bs) :
    ∃ sources : List α, sources.Sublist as ∧ List.Forall₂ R sources part := by
  induction hpart generalizing as with
  | slnil => exact ⟨[], List.nil_sublist _, .nil⟩
  | cons b _ ih =>
    cases h with
    | cons hab hrest =>
      obtain ⟨sources, hsub, hsources⟩ := ih hrest
      exact ⟨sources, hsub.cons _, hsources⟩
  | cons_cons b _ ih =>
    cases h with
    | cons hab hrest =>
      obtain ⟨sources, hsub, hsources⟩ := ih hrest
      exact ⟨_ :: sources, hsub.cons_cons _, .cons hab hsources⟩

namespace Script.Traces

variable {script : Script} {tree : Element} {count : Nat} {records left : List Element}

/-- At the start each record is at its own position. -/
theorem start (script : Script) (tree : Element) : script.Traces tree 0 tree.children := by
  refine ⟨(List.range tree.children.length).map .bound, ?_, ?_, ?_⟩
  · exact List.nodup_range.map fun i j h => by cases h; rfl
  · intro origin hmem
    obtain ⟨position, _, rfl⟩ := List.mem_map.1 hmem
    trivial
  · refine List.forall₂_iff_get.2 ⟨by simp, fun i hi hi' => ?_⟩
    refine ⟨tree.children[i], ?_, .refl _ _ _⟩
    simp [Origin.record?]

/-- A command that the script has next takes the origins along. -/
theorem step (h : script.Traces tree count records) {statement : Statement}
    (hnext : script.statements[count]? = some statement)
    (hmakes : statement.command.Makes script.attributesSet script.tagsChanged records left) :
    script.Traces tree (count + 1) left := by
  obtain ⟨origins, hnodup, hbefore, hdescends⟩ := h
  cases hmakes with
  | selected hleft =>
    obtain ⟨part, hperm, hpart⟩ := hleft
    obtain ⟨chosen, hsub, hchosen⟩ := exists_sublist_of_forall₂ hdescends hpart
    obtain ⟨ordered, hordered, hleft⟩ :
        (Relation.Comp List.Perm (List.Forall₂ (script.Descends tree))) chosen left := by
      rw [← List.forall₂_comp_perm_eq_perm_comp_forall₂]
      exact ⟨part, hchosen, hperm⟩
    refine ⟨ordered, hordered.nodup_iff.1 (hnodup.sublist hsub), fun origin hmem => ?_, hleft⟩
    exact (hbefore origin (hsub.subset (hordered.symm.subset hmem))).succ
  | added hrecord =>
    refine ⟨origins ++ [.added count], ?_, ?_, ?_⟩
    · -- the statement has added no record before
      have hnew : Origin.added count ∉ origins := fun hmem => Nat.lt_irrefl count (hbefore _ hmem)
      exact hnodup.append (List.nodup_singleton _) (List.disjoint_singleton.2 hnew)
    · intro origin hmem
      rcases List.mem_append.1 hmem with hmem | hmem
      · exact (hbefore origin hmem).succ
      · rw [List.mem_singleton.1 hmem]
        exact Nat.lt_succ_self count
    · refine List.rel_append hdescends (.cons ⟨_, ?_, .refl _ _ _⟩ .nil)
      rw [Origin.record?, hnext]
      exact hrecord
  | rewritten hrewrite =>
    refine ⟨origins, hnodup, fun origin hmem => (hbefore origin hmem).succ, ?_⟩
    refine List.forall₂_map_right_iff.2 (hdescends.imp fun origin record hrecord => ?_)
    obtain ⟨start, hstart, hkeeps⟩ := hrecord
    exact ⟨start, hstart, hkeeps.trans (hrewrite record)⟩

end Script.Traces

/-! ## Whole scripts -/

namespace Script

variable {script : Script} {tree : Element}

/-- Statements that succeed one after the other take the origins along, and leave the root. -/
theorem traces_of_applyAll {done rest : List Statement} (hsplit : script.statements = done ++ rest)
    {output left : ScriptOutput} (h : script.Traces tree done.length output.tree.children)
    (hrun : output.applyAll rest = .ok left) :
    left.tree = output.tree.withChildren left.tree.children ∧
      script.Traces tree script.statements.length left.tree.children := by
  induction rest generalizing done output with
  | nil =>
    cases hrun
    rw [List.append_nil] at hsplit
    exact ⟨(Element.withChildren_children _).symm, hsplit ▸ h⟩
  | cons statement rest ih =>
    obtain ⟨next, hstep, hrest⟩ := ScriptOutput.applyAll_cons_eq_ok_iff.1 hrun
    have hmem : statement ∈ script.statements := by simp [hsplit]
    have hnext : script.statements[done.length]? = some statement := by simp [hsplit]
    have hnames : ∀ name, statement.command.attribute? = some name → name ∈ script.attributesSet :=
      fun name hname => List.mem_filterMap.2 ⟨statement, hmem, hname⟩
    have htags : ∀ tag, statement.command.tag? = some tag → tag ∈ script.tagsChanged :=
      fun tag htag => List.mem_filterMap.2 ⟨statement, hmem, htag⟩
    obtain ⟨hroot, hchanges⟩ := ScriptOutput.changes_of_apply hstep
    have hsplit' : script.statements = (done ++ [statement]) ++ rest := by simp [hsplit]
    have htraces : script.Traces tree (done ++ [statement]).length next.tree.children := by
      rw [List.length_append]
      exact h.step hnext (hchanges.makes hnames htags)
    obtain ⟨hroot', htraces'⟩ := ih hsplit' htraces hrest
    refine ⟨?_, htraces'⟩
    rw [hroot', hroot]
    rfl

/-- A script that succeeds leaves the root but for the records. Each record that it leaves comes from one
of the bound tree or from an `append`, no two from the same, and keeps its name, its text, its tail, the
attributes that the script does not set, and the children with tags that the script does not name. -/
theorem records_of_execute {left : ScriptOutput} (h : script.execute tree = .ok left) :
    (left.tree.name = tree.name ∧ left.tree.attributes = tree.attributes ∧
        left.tree.text = tree.text ∧ left.tree.tail = tree.tail) ∧
      ∃ origins : List Origin, origins.Nodup ∧
        List.Forall₂ (script.Descends tree) origins left.tree.children := by
  have hstart : script.Traces tree ([] : List Statement).length tree.children := .start script tree
  obtain ⟨hroot, origins, hnodup, -, hdescends⟩ := traces_of_applyAll (List.nil_append _).symm hstart h
  refine ⟨?_, origins, hnodup, hdescends⟩
  rw [hroot]
  exact ⟨rfl, rfl, rfl, rfl⟩

/-- A script that adds a record, puts it in front, drops the last one and sets an attribute. -/
def turning : Script :=
  ⟨[⟨.append (.ofTag "new"), ⟨0, 13⟩⟩, ⟨.reverse, ⟨14, 21⟩⟩, ⟨.limit 2, ⟨22, 29⟩⟩,
    ⟨.setAttr "rank" "1", ⟨30, 43⟩⟩]⟩

/-- Two records to be turned around. -/
def twoItems : Element := .ofChildren "root" [.ofText "item" "a", .ofText "item" "b"]

theorem records_of_execute_turning :
    ∃ left, turning.execute twoItems = .ok left ∧
      left.tree.children.map (·.name.localPart) = ["new", "item"] ∧
      left.tree.name = twoItems.name ∧
      ∃ origins : List Origin, origins.Nodup ∧
        List.Forall₂ (turning.Descends twoItems) origins left.tree.children := by
  have hrun : turning.execute twoItems = .ok _ := rfl
  obtain ⟨⟨hname, -⟩, horigins⟩ := records_of_execute hrun
  exact ⟨_, hrun, rfl, hname, horigins⟩

end Script

end Docweave
