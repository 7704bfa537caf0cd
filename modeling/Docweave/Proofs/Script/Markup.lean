import Docweave.Proofs.Script.Changes
import Docweave.Proofs.Script.Checked
import Docweave.Proofs.Xml.ReadBack
import Mathlib.Data.List.Nodup

set_option autoImplicit false

/-! # The markup of what a script leaves

`set` and `attr` take their words as they stand, and a fragment loses the declarations of its namespaces,
so that a script can make records whose markup no reader takes. A command fits into markup if the names
and characters that it writes can be read again, and no name of its fragment is in a namespace: just these
commands leave every tree that its markup stands for such a tree, and so do the scripts made of them. -/

namespace Docweave

open Xml

/-! ## Records that are rewritten -/

theorem mem_setAttribute {a : Attribute} {name value : String} {attributes : List Attribute}
    (h : a ∈ setAttribute name value attributes) : a = ⟨name, value⟩ ∨ a ∈ attributes := by
  induction attributes with
  | nil => exact .inl (List.mem_singleton.1 h)
  | cons first rest ih =>
    rw [setAttribute] at h
    split at h
    · exact (List.mem_cons.1 h).imp_right (List.mem_cons_of_mem first)
    · rcases List.mem_cons.1 h with rfl | h
      · exact .inr List.mem_cons_self
      · exact (ih h).imp_right (List.mem_cons_of_mem first)

theorem map_name_setAttribute_of_notMem {name value : String} {attributes : List Attribute}
    (h : name ∉ attributes.map (·.name)) :
    (setAttribute name value attributes).map (·.name) = attributes.map (·.name) ++ [name] := by
  induction attributes with
  | nil => rfl
  | cons a rest ih =>
    rw [List.map_cons, List.mem_cons, not_or] at h
    rw [setAttribute, if_neg (Ne.symm h.1), List.map_cons, ih h.2, List.map_cons, List.cons_append]

/-- No attribute is given twice after one was set. -/
theorem nodup_names_setAttribute {attributes : List Attribute}
    (h : (attributes.map (·.name)).Nodup) (name value : String) :
    ((setAttribute name value attributes).map (·.name)).Nodup := by
  by_cases hmem : name ∈ attributes.map (·.name)
  · rwa [map_name_setAttribute_of_mem hmem]
  · rw [map_name_setAttribute_of_notMem hmem]
    exact h.append (List.nodup_singleton name) (List.disjoint_singleton.2 hmem)

namespace Element

variable {e : Element}

theorem isWritable_ofText {tag value : String} (htag : IsLocalName tag.toList)
    (hvalue : IsAllowed value.toList) : (ofText tag value).Everywhere IsWritable :=
  everywhere_iff.2 ⟨⟨rfl, htag, nofun, .nil, hvalue, .nil⟩, fun _ h => absurd h List.not_mem_nil⟩

theorem IsWritable.withChildren (h : e.IsWritable) (children : List Element) :
    (e.withChildren children).IsWritable :=
  ⟨h.plain, h.name, h.attributes, h.distinct, h.text, h.tail⟩

theorem IsWritable.setAttr (h : e.IsWritable) {name value : String}
    (ha : Attribute.IsWritable ⟨name, value⟩) : (e.setAttr name value).IsWritable := by
  refine ⟨h.plain, h.name, fun a hmem => ?_, nodup_names_setAttribute h.distinct name value, h.text,
    h.tail⟩
  rcases mem_setAttribute hmem with rfl | hmem
  · exact ha
  · exact h.attributes a hmem

theorem everywhere_isWritable_setChildText {tag value : String} (htag : IsLocalName tag.toList)
    (hvalue : IsAllowed value.toList) {children : List Element}
    (h : ∀ child ∈ children, child.Everywhere IsWritable) :
    ∀ child ∈ setChildText tag value children, child.Everywhere IsWritable := by
  induction children with
  | nil => exact List.forall_mem_singleton.2 (isWritable_ofText htag hvalue)
  | cons first rest ih =>
    obtain ⟨hfirst, hrest⟩ := List.forall_mem_cons.1 h
    rw [setChildText]
    split
    · obtain ⟨hself, hbelow⟩ := everywhere_iff.1 hfirst
      have hset : Everywhere IsWritable { first with text := some value } := everywhere_iff.2
        ⟨⟨hself.plain, hself.name, hself.attributes, hself.distinct, hvalue, hself.tail⟩, hbelow⟩
      exact List.forall_mem_cons.2 ⟨hset, hrest⟩
    · exact List.forall_mem_cons.2 ⟨hfirst, ih hrest⟩

end Element

/-! ## Commands that fit into markup -/

namespace Command

/-- The names and characters that the command writes are those of markup: the fragment has no name in a
namespace, a tag and the name of an attribute are names without a prefix, the latter declares no
namespace, and a value is made of characters of documents. -/
def IsFit : Command → Prop
  | append record => record.Everywhere Element.IsNamespaceFree
  | setText tag value => IsLocalName tag.toList ∧ IsAllowed value.toList
  | setAttr name value => Attribute.IsWritable ⟨name, value⟩
  | _ => True

instance : DecidablePred IsFit
  | append record => inferInstanceAs (Decidable (record.Everywhere Element.IsNamespaceFree))
  | setText tag value =>
    inferInstanceAs (Decidable (IsLocalName tag.toList ∧ IsAllowed value.toList))
  | setAttr name value => inferInstanceAs (Decidable (Attribute.IsWritable ⟨name, value⟩))
  | sort _ _ | reverse | keep _ | drop _ | limit _ | skip _ | remove _ | emit _ | print _
  | require _ => isTrue trivial

/-- A record that is added can be written, as it was read. -/
theorem IsFit.addition {command : Command} (hfit : command.IsFit) (hchecked : command.IsChecked)
    {record : Element} (h : command.addition? = some record) : record.Everywhere Element.IsWritable := by
  cases command with
  | append added =>
    cases h
    obtain ⟨text, hread⟩ := hchecked
    exact fun node hmem => (Element.everywhere_of_parse hread).1 node hmem (hfit node hmem)
  | _ => cases h

/-- A record that is rewritten can still be written. -/
theorem IsFit.rewrite {command : Command} (hfit : command.IsFit) {rewrite : Element → Element}
    (h : command.rewrite? = some rewrite) {record : Element}
    (hrecord : record.Everywhere Element.IsWritable) :
    (rewrite record).Everywhere Element.IsWritable := by
  obtain ⟨hself, hchildren⟩ := Element.everywhere_iff.1 hrecord
  cases command with
  | setText tag value =>
    cases h
    exact Element.everywhere_iff.2 ⟨hself.withChildren _,
      Element.everywhere_isWritable_setChildText hfit.1 hfit.2 hchildren⟩
  | setAttr name value =>
    cases h
    exact Element.everywhere_iff.2 ⟨hself.setAttr hfit, hchildren⟩
  | remove tag =>
    cases h
    exact Element.everywhere_iff.2 ⟨hself.withChildren _, fun child hmem =>
      hchildren child (List.mem_of_mem_filter hmem)⟩
  | _ => cases h

/-- So can all records after the command. -/
theorem Changes.everywhere_isWritable {command : Command} {records left : List Element}
    (h : command.Changes records left) (hfit : command.IsFit) (hchecked : command.IsChecked)
    (hrecords : ∀ record ∈ records, record.Everywhere Element.IsWritable) :
    ∀ record ∈ left, record.Everywhere Element.IsWritable := by
  cases h with
  | selected hleft => exact fun record hmem => hrecords record (hleft.subset hmem)
  | added hrecord =>
    intro record hmem
    rcases List.mem_append.1 hmem with hmem | hmem
    · exact hrecords record hmem
    · rw [List.mem_singleton.1 hmem]
      exact hfit.addition hchecked hrecord
  | rewritten hrewrite =>
    intro record hmem
    obtain ⟨before, hbefore, rfl⟩ := List.mem_map.1 hmem
    exact hfit.rewrite hrewrite (hrecords before hbefore)

end Command

namespace ScriptOutput

variable {output left : ScriptOutput}

theorem isReadBack_of_apply {command : Command} (hfit : command.IsFit) (hchecked : command.IsChecked)
    (htree : output.tree.IsReadBack) (h : output.apply command = .ok left) : left.tree.IsReadBack := by
  obtain ⟨hroot, hchanges⟩ := changes_of_apply h
  obtain ⟨hwritable, hrecords⟩ := Element.isReadBack_iff.1 htree
  refine Element.isReadBack_iff.2 ⟨?_, hchanges.everywhere_isWritable hfit hchecked hrecords⟩
  rw [hroot]
  exact hwritable.withChildren _

theorem isReadBack_of_applyAll {statements : List Statement}
    (hfit : ∀ statement ∈ statements, statement.command.IsFit)
    (hchecked : ∀ statement ∈ statements, statement.command.IsChecked)
    (htree : output.tree.IsReadBack) (h : output.applyAll statements = .ok left) :
    left.tree.IsReadBack := by
  induction statements generalizing output with
  | nil =>
    cases h
    exact htree
  | cons first rest ih =>
    obtain ⟨hfitFirst, hfitRest⟩ := List.forall_mem_cons.1 hfit
    obtain ⟨hcheckedFirst, hcheckedRest⟩ := List.forall_mem_cons.1 hchecked
    obtain ⟨next, hstep, hrest⟩ := applyAll_cons_eq_ok_iff.1 h
    exact ih hfitRest hcheckedRest (isReadBack_of_apply hfitFirst hcheckedFirst htree hstep) hrest

end ScriptOutput

/-! ## No other commands fit -/

/-- A tree with one empty record. -/
def oneRecord : Element := .ofChildren "root" [.ofTag "r"]

theorem isReadBack_oneRecord : oneRecord.IsReadBack :=
  Element.isReadBack_of_everywhere (by decide) rfl

/-- A command that does not fit into markup spoils a tree with one empty record. -/
theorem Command.isFit_of_oneRecord {command : Command}
    (hkeeps : ∀ after : ScriptOutput, ScriptOutput.apply ⟨oneRecord, ""⟩ command = .ok after →
      after.tree.IsReadBack) : command.IsFit := by
  have hrecords {after : ScriptOutput} (h : ScriptOutput.apply ⟨oneRecord, ""⟩ command = .ok after) :=
    (Element.isReadBack_iff.1 (hkeeps after h)).2
  cases command with
  | append record =>
    have hrecord := hrecords rfl record (List.mem_append_right _ List.mem_cons_self)
    exact fun node hmem => (hrecord node hmem).isNamespaceFree
  | setText tag value =>
    have hrecord := hrecords rfl _ List.mem_cons_self
    have hchild := (Element.everywhere_iff.1 hrecord).2 (.ofText tag value) List.mem_cons_self
    have hself := (Element.everywhere_iff.1 hchild).1
    exact ⟨hself.name, hself.text⟩
  | setAttr name value =>
    have hrecord := hrecords rfl _ List.mem_cons_self
    exact (Element.everywhere_iff.1 hrecord).1.attributes ⟨name, value⟩ List.mem_cons_self
  | _ => trivial

/-! ## Scripts -/

namespace Script

/-- A script that was read leaves a tree that its markup stands for such a tree, if all its commands fit
into markup. Each of the commands keeps every such tree such a tree just if it fits. -/
theorem isReadBack_of_execute {file : Nat} {source : List Char} {script : Script}
    (hread : Script.parseText file source = .ok script) :
    ((∀ statement ∈ script.statements, statement.command.IsFit) →
        ∀ (tree : Element) (output : ScriptOutput), tree.IsReadBack →
          script.execute tree = .ok output → output.tree.IsReadBack) ∧
      ∀ statement ∈ script.statements, (statement.command.IsFit ↔
        ∀ before after : ScriptOutput, before.tree.IsReadBack →
          before.apply statement.command = .ok after → after.tree.IsReadBack) := by
  have hchecked : ∀ statement ∈ script.statements, statement.command.IsChecked :=
    gives_mapError _ (isChecked_of_parse source) script hread
  refine ⟨fun hfit tree output htree hrun =>
    ScriptOutput.isReadBack_of_applyAll hfit hchecked htree hrun, fun statement hmem => ⟨?_, ?_⟩⟩
  · intro hfit before after htree hstep
    exact ScriptOutput.isReadBack_of_apply hfit (hchecked statement hmem) htree hstep
  · exact fun hkeeps => Command.isFit_of_oneRecord fun after hstep =>
      hkeeps _ after isReadBack_oneRecord hstep

/-- A script of each kind of statement that writes something. -/
def rewritingSource : List Char :=
  "append <r><name>new</name></r>\nset name \"A & B\"\nattr id \"7\"\nremove note".toList

/-- A record with a note. -/
def notedRecord : Element := .ofChildren "root" [.ofChildren "r" [.ofText "note" "x"]]

theorem isReadBack_of_execute_notedRecord :
    ∃ script output, Script.parseText 0 rewritingSource = .ok script ∧
      (∀ statement ∈ script.statements, statement.command.IsFit) ∧ notedRecord.IsReadBack ∧
      script.execute notedRecord = .ok output ∧
      output.tree.toXml = "<root><r id=\"7\"><name>A &amp; B</name></r>" ++
        "<r id=\"7\"><name>A &amp; B</name></r></root>" ∧
      output.tree.IsReadBack := by
  have hruns : ((Script.parseText 0 rewritingSource).toOption.bind fun script =>
      (script.execute notedRecord).toOption.map fun output =>
        (decide (∀ statement ∈ script.statements, statement.command.IsFit), output.tree.toXml)) =
      some (true, "<root><r id=\"7\"><name>A &amp; B</name></r>" ++
        "<r id=\"7\"><name>A &amp; B</name></r></root>") := by decide +kernel
  have hnoted : notedRecord.IsReadBack := Element.isReadBack_of_everywhere (by decide) rfl
  cases hread : Script.parseText 0 rewritingSource with
  | error error =>
    rw [hread] at hruns
    cases hruns
  | ok script =>
    cases hrun : script.execute notedRecord with
    | error failure => simp [hread, hrun, Except.toOption] at hruns
    | ok output =>
      simp only [hread, hrun, Except.toOption, Option.bind_some, Option.map_some, Option.some.injEq,
        Prod.mk.injEq, decide_eq_true_eq] at hruns
      obtain ⟨hfit, hxml⟩ := hruns
      exact ⟨script, output, rfl, hfit, hnoted, hrun, hxml,
        (isReadBack_of_execute hread).1 hfit _ _ hnoted hrun⟩

/-- The script is read and succeeds on the tree, in which no name is in a namespace and whose markup is
read, but the markup of what it leaves is refused. -/
def spoils (source : String) (tree : Element) : Bool :=
  decide (tree.Everywhere Element.IsNamespaceFree) && (Element.parse 0 tree.toXml).isOk &&
    match Script.parseText 0 source.toList with
    | .error _ => false
    | .ok script =>
      match script.execute tree with
      | .error _ => false
      | .ok output => !(Element.parse 0 output.tree.toXml).isOk

/-- A record whose markup is read as two: `<r /><s />`. -/
def doubleRecord : Element := .ofChildren "root" [.ofTag "r /><s"]

/-- A script for each condition that a command can break. The last script breaks none, but the markup of
its tree stands for another tree. -/
def spoilingRuns : List (String × Element) :=
  [("set 1st \"v\"", oneRecord), ("set a:b \"v\"", oneRecord), ("set t \"\u0001\"", oneRecord),
    ("attr 1st \"v\"", oneRecord), ("attr a:b \"v\"", oneRecord), ("attr k \"\u0001\"", oneRecord),
    ("attr xmlns \"http://www.w3.org/2000/xmlns/\"", oneRecord),
    ("append <p:x xmlns:p=\"u\"/>", oneRecord), ("set t \"v\"", doubleRecord)]

theorem spoils_of_mem : ∀ run ∈ spoilingRuns, spoils run.1 run.2 = true := by decide +kernel

/-- A name that a script writes need not be one. -/
theorem not_isReadBack_of_execute :
    ¬ ∀ (file : Nat) (source : List Char) (script : Script) (tree : Element) (output : ScriptOutput),
      Script.parseText file source = .ok script → tree.Everywhere Element.IsNamespaceFree →
        (∃ read, Element.parse file tree.toXml = .ok read) → script.execute tree = .ok output →
          ∃ read, Element.parse file output.tree.toXml = .ok read := by
  intro h
  have hspoils := spoils_of_mem ("set 1st \"v\"", oneRecord) List.mem_cons_self
  unfold spoils at hspoils
  simp only [Bool.and_eq_true, decide_eq_true_eq] at hspoils
  obtain ⟨⟨hfree, haccepted⟩, hrefused⟩ := hspoils
  split at hrefused
  · cases hrefused
  · next script hread =>
    split at hrefused
    · cases hrefused
    · next output hrun =>
      cases htree : Element.parse 0 oneRecord.toXml with
      | error error =>
        rw [htree] at haccepted
        cases haccepted
      | ok tree =>
        obtain ⟨read, hagain⟩ := h 0 _ script oneRecord output hread hfree ⟨tree, htree⟩ hrun
        rw [hagain] at hrefused
        cases hrefused

end Script

end Docweave
