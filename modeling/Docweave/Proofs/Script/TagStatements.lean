import Docweave.Proofs.Path.Namespaced
import Docweave.Proofs.Script.OneLine
import Docweave.Proofs.Script.Provenance
import Docweave.Proofs.Script.Words

set_option autoImplicit false

/-! # Statements about a tag

A child of a record can be given a text, or removed, by its tag, and a path can look for the children
with a tag. A path leaves the prefix of a tag out, and the two statements do not: they take a tag with
a prefix for a local part that has a colon in it. `execute_tagScripts` says that on a tag without a
prefix the statements and the path mean the same children, and that with a prefix the path finds after
the statements what it found before. -/

namespace Docweave

open Docweave.Text

/-! ## The path to the children with a tag -/

section Child

variable {localPart : String} {tag : String}

theorem notMem_marks_of_writtenAs (h : (NameTest.tagged localPart).WrittenAs tag.toList) :
    ∀ c ∈ tag.toList, c ∉ ['\x7b', '[', ']', '/'] := by
  generalize tag.toList = name at h ⊢
  cases h with
  | tagged hbase => exact notMem_marks_of_isPathName hbase
  | prefixed hlead hbase =>
    intro c hc
    rcases List.mem_append.1 hc with hc | hc
    · exact notMem_marks_of_isPathName hlead c hc
    · rcases List.mem_cons.1 hc with rfl | hc
      · decide
      · exact notMem_marks_of_isPathName hbase c hc

namespace ElementPath

/-- A tag is the path to the children that have it. -/
theorem parse_tag (h : (NameTest.tagged localPart).WrittenAs tag.toList) :
    parse tag = .ok ⟨tag, [⟨.child, .tagged localPart, []⟩]⟩ := by
  have hmarks := notMem_marks_of_writtenAs h
  have hopen : '[' ∉ tag.toList := fun hmem => hmarks _ hmem (by decide)
  obtain ⟨c, rest, hname, -⟩ := h.exists_cons
  have hfinal : dropFinal '/' tag.toList = tag.toList :=
    dropFinal_eq_self fun hlast => hmarks _ (List.mem_of_getLast? hlast) (by decide)
  have hstep : readStep tag false tag.toList = .ok ⟨.child, .tagged localPart, []⟩ := by
    obtain ⟨htake, hdrop⟩ := takeWhile_bracket hopen
    refine readStep_eq_ok_iff.2 ⟨[], by rw [hdrop, readPredicates], .inr ⟨_, ?_, rfl⟩⟩
    rw [htake]
    exact h
  refine parse_eq_ok_iff.2 ⟨c, rest, [tag.toList], [⟨.child, .tagged localPart, []⟩], ?_, ?_, ?_, ?_, rfl⟩
  · rw [h.isTrimmed.trim_eq, hname]
  · rintro rfl
    exact hmarks '/' (hname ▸ List.mem_cons_self) (by decide)
  · rw [← hname, hfinal]
    exact splitSegments?_of_forall hmarks
  · exact (readSteps_cons_eq_ok_iff h.ne_nil).2 ⟨_, [], hstep, rfl, rfl⟩

/-- The path from a record to the children that have a tag. -/
theorem parse_childPath (h : (NameTest.tagged localPart).WrittenAs tag.toList) :
    parse ("./" ++ tag) =
      .ok ⟨"./" ++ tag, [⟨.itself, .any, []⟩, ⟨.child, .tagged localPart, []⟩]⟩ := by
  have hself : parse "." = .ok ⟨".", [⟨.itself, .any, []⟩]⟩ := by decide +kernel
  have htrim : trim ".".toList = ".".toList := by decide
  have hslash : ".".toList.getLast? ≠ some '/' := by decide
  have hmark : "./" = "." ++ "/" := by decide
  have hjoined := parse_joined hself (parse_tag h) htrim h.isTrimmed.trim_eq hslash
  rw [← hmark] at hjoined
  exact hjoined

/-- The path finds the children with the local part, in order. -/
theorem select_childPath (text : String) (record : Element) :
    (ElementPath.mk text [⟨.itself, .any, []⟩, ⟨.child, .tagged localPart, []⟩]).select record =
      record.children.filter (·.name.localPart == localPart) := by
  have hchildren (ascent : List Nat) (first : Nat) (es : List Element) :
      (locateChildren ascent first es).map (·.element) = es := by
    induction es generalizing first with
    | nil => rfl
    | cons e rest ih => rw [locateChildren, List.map_cons, ih]
  have hlocate : (ElementPath.mk text
      [⟨.itself, .any, []⟩, ⟨.child, .tagged localPart, []⟩]).locate record =
        (Located.root record).children.filter
          ((fun e : Element => e.name.localPart == localPart) ∘ Located.element) := by
    simp [locate, Step.select, Step.groups, Axis.groups, NameTest.accepts, Function.comp_def]
  rw [select, hlocate, ← List.filter_map]
  exact congrArg _ (hchildren [] 0 record.children)

end ElementPath

end Child

/-! ## The children with a tag -/

/-- Of the children with the tag the first one is given the text; where there is none, one is added. -/
theorem filter_setChildText_self (tag value : String) (children : List Element) :
    (setChildText tag value children).filter (·.name.localPart == tag) =
      match children.filter (·.name.localPart == tag) with
      | [] => [.ofText tag value]
      | first :: rest => { first with text := some value } :: rest := by
  induction children with
  | nil => simp [setChildText, Element.ofText, Element.ofTag, QName.plain]
  | cons child rest ih =>
    rw [setChildText]
    by_cases hc : child.name.localPart = tag
    · simp [hc]
    · rw [if_neg hc]
      simp only [List.filter_cons, beq_eq_false_iff_ne.2 hc, Bool.false_eq_true, if_false, ih]

/-- No child with the tag is left. -/
theorem filter_remove_self (tag : String) (children : List Element) :
    (children.filter (·.name.localPart != tag)).filter (·.name.localPart == tag) = [] := by
  rw [List.filter_filter, List.filter_eq_nil_iff]
  intro child _
  simp

section Others

variable {tag localPart : String} (h : tag ≠ localPart)

include h

/-- Children with one tag are among those without another one. -/
theorem filter_eq_filter_filter (children : List Element) :
    children.filter (·.name.localPart == localPart) =
      (children.filter (·.name.localPart ∉ [tag])).filter (·.name.localPart == localPart) := by
  rw [List.filter_filter]
  refine List.filter_congr fun child _ => ?_
  by_cases hc : child.name.localPart = localPart
  · simp [hc, Ne.symm h]
  · simp [hc]

theorem filter_setChildText_of_ne (value : String) (children : List Element) :
    (setChildText tag value children).filter (·.name.localPart == localPart) =
      children.filter (·.name.localPart == localPart) := by
  rw [filter_eq_filter_filter h, filter_setChildText (List.mem_singleton_self tag),
    ← filter_eq_filter_filter h]

theorem filter_remove_of_ne (children : List Element) :
    (children.filter (·.name.localPart != tag)).filter (·.name.localPart == localPart) =
      children.filter (·.name.localPart == localPart) := by
  rw [filter_eq_filter_filter h, filter_remove (List.mem_singleton_self tag),
    ← filter_eq_filter_filter h]

end Others

/-! ## The two scripts -/

/-- The script that gives the children with a tag a text. -/
def setScript (tag value : String) : List Char :=
  "set".toList ++ ' ' :: (tag.toList ++ ' ' :: stringLiteral value.toList)

/-- The script that removes the children with a tag. -/
def removeScript (tag : String) : List Char := "remove".toList ++ ' ' :: tag.toList

namespace Script

variable {localPart tag : String} (h : (NameTest.tagged localPart).WrittenAs tag.toList)

include h

theorem isUnbroken_tag : IsUnbroken tag.toList := by
  have hbrace : tag.toList.head? ≠ some '\x7b' := by
    intro hhead
    exact notMem_marks_of_writtenAs h _ (List.mem_of_mem_head? hhead) (by decide)
  intro c hc
  rcases h.isPathNameChar_of_mem hbrace hc with rfl | rfl | hchar
  · decide
  · decide
  · exact isBlank_of_isPathNameChar hchar

/-- The script is read as the one command on the tag, with the text as it was before it was escaped. -/
theorem parse_setScript (value : String) :
    ∃ span, parse (setScript tag value) = .ok ⟨[⟨.setText tag value, span⟩]⟩ := by
  have hunbroken := isUnbroken_tag h
  have hends : IsTrimmed (tag.toList ++ ' ' :: stringLiteral value.toList) := by
    constructor
    · rw [List.head?_append_of_ne_nil _ h.ne_nil]
      exact h.isTrimmed.head
    · have hliteral : stringLiteral value.toList ≠ [] := List.cons_ne_nil _ _
      rw [List.append_cons, List.getLast?_append_of_ne_nil _ hliteral, getLast?_stringLiteral]
      rintro c ⟨⟩
      decide
  have hline : '\n' ∉ tag.toList ++ ' ' :: stringLiteral value.toList := by
    rw [List.mem_append, List.mem_cons, not_or, not_or]
    exact ⟨fun hmem => absurd (hunbroken _ hmem) (by decide), by decide,
      newline_notMem_stringLiteral _⟩
  have hwords : readWords (tag.toList ++ ' ' :: stringLiteral value.toList) =
      .ok [.bare tag, .quoted value] := by
    rw [readWords_bare_append h.ne_nil hunbroken h.head?_ne_quote (by decide),
      readWords_stringLiteral, String.ofList_toList, String.ofList_toList]
    rfl
  have hne : trim (tag.toList ++ ' ' :: stringLiteral value.toList) ≠ [] := by
    simp [hends.trim_eq]
  rw [← hends.trim_eq] at hwords
  exact ⟨_, (parse_oneLine_eq_ok_iff (by decide) (by decide) hne hline).2 ⟨_, _, hwords, rfl, rfl⟩⟩

theorem parse_removeScript :
    ∃ span, parse (removeScript tag) = .ok ⟨[⟨.remove tag, span⟩]⟩ := by
  have hunbroken := isUnbroken_tag h
  have htrim := h.isTrimmed.trim_eq
  have hline : '\n' ∉ tag.toList := fun hmem => absurd (hunbroken _ hmem) (by decide)
  have hne : trim tag.toList ≠ [] := by
    rw [htrim]
    exact h.ne_nil
  have hwords := readWords_bare h.ne_nil hunbroken h.head?_ne_quote
  rw [String.ofList_toList, ← htrim] at hwords
  exact ⟨_, (parse_oneLine_eq_ok_iff (by decide) (by decide) hne hline).2 ⟨_, _, hwords, rfl, rfl⟩⟩

/-- The statements leave each record but for its children, and they are as the commands make them. -/
theorem execute_setScript (value : String) (tree : Element) :
    ∃ script output, parse (setScript tag value) = .ok script ∧ script.execute tree = .ok output ∧
      output.tree.children = tree.children.map fun record =>
        record.withChildren (setChildText tag value record.children) := by
  obtain ⟨span, hscript⟩ := parse_setScript h value
  exact ⟨_, _, hscript, rfl, rfl⟩

theorem execute_removeScript (tree : Element) :
    ∃ script output, parse (removeScript tag) = .ok script ∧ script.execute tree = .ok output ∧
      output.tree.children = tree.children.map fun record =>
        record.withChildren (record.children.filter (·.name.localPart != tag)) := by
  obtain ⟨span, hscript⟩ := parse_removeScript h
  exact ⟨_, _, hscript, rfl, rfl⟩

end Script

/-! ## What the path finds afterwards -/

/-- The path now finds the text first, and one element more than before only if it found none. -/
def ElementPath.IsSetIn (path : ElementPath) (value : String) (before after : Element) : Prop :=
  path.firstText? after = some value ∧
    (path.select after).length = max 1 (path.select before).length

namespace Script

variable {localPart tag : String}

/-- A tag without a prefix is its local part. On such a tag the two statements do what they say: in each
record the path then finds the text first, with an element added just where it found none, or finds
nothing. With a prefix in the tag the path finds in each record what it found before. -/
theorem execute_tagScripts (h : (NameTest.tagged localPart).WrittenAs tag.toList) (value : String)
    (tree : Element) :
    ∃ path setting removing set removed,
      ElementPath.parse ("./" ++ tag) = .ok path ∧
      parse (setScript tag value) = .ok setting ∧ setting.execute tree = .ok set ∧
      parse (removeScript tag) = .ok removing ∧ removing.execute tree = .ok removed ∧
      (tag = localPart →
        List.Forall₂ (path.IsSetIn value) tree.children set.tree.children ∧
        List.Forall₂ (fun _ after => path.select after = []) tree.children removed.tree.children) ∧
      (tag ≠ localPart →
        List.Forall₂ (fun before after => path.select after = path.select before)
          tree.children set.tree.children ∧
        List.Forall₂ (fun before after => path.select after = path.select before)
          tree.children removed.tree.children) := by
  obtain ⟨setting, set, hsetting, hset, hsetChildren⟩ := execute_setScript h value tree
  obtain ⟨removing, removed, hremoving, hremoved, hremovedChildren⟩ := execute_removeScript h tree
  refine ⟨_, setting, removing, set, removed, ElementPath.parse_childPath h, hsetting, hset, hremoving,
    hremoved, fun heq => ⟨?_, ?_⟩, fun hne => ⟨?_, ?_⟩⟩
  · rw [hsetChildren, List.forall₂_map_right_iff, List.forall₂_same]
    intro record _
    subst heq
    have hselect := filter_setChildText_self tag value record.children
    rw [ElementPath.IsSetIn, ElementPath.firstText?, ElementPath.first?, ElementPath.select_childPath,
      ElementPath.select_childPath, Element.children_withChildren, hselect]
    cases record.children.filter (·.name.localPart == tag) with
    | nil => exact ⟨rfl, rfl⟩
    | cons first rest =>
      refine ⟨rfl, ?_⟩
      rw [List.length_cons, List.length_cons]
      omega
  · rw [hremovedChildren, List.forall₂_map_right_iff, List.forall₂_same]
    intro record _
    subst heq
    rw [ElementPath.select_childPath, Element.children_withChildren, filter_remove_self]
  · rw [hsetChildren, List.forall₂_map_right_iff, List.forall₂_same]
    intro record _
    rw [ElementPath.select_childPath, ElementPath.select_childPath, Element.children_withChildren,
      filter_setChildText_of_ne hne]
  · rw [hremovedChildren, List.forall₂_map_right_iff, List.forall₂_same]
    intro record _
    rw [ElementPath.select_childPath, ElementPath.select_childPath, Element.children_withChildren,
      filter_remove_of_ne hne]

/-- A tree with one record, and in it `<p:x>` with the text `old`. -/
def prefixedChild : Element :=
  .ofChildren "root" [.ofChildren "r" [⟨⟨some "u", some "p", "x"⟩, [], some "old", none, []⟩]]

/-- Without a prefix in the tag the child is found and changed, or removed. -/
theorem execute_tagScripts_plain :
    (NameTest.tagged "x").WrittenAs "x".toList ∧
      ∃ path setting removing set removed, ElementPath.parse ("./" ++ "x") = .ok path ∧
        parse (setScript "x" "new") = .ok setting ∧ setting.execute prefixedChild = .ok set ∧
        parse (removeScript "x") = .ok removing ∧ removing.execute prefixedChild = .ok removed ∧
        List.Forall₂ (path.IsSetIn "new") prefixedChild.children set.tree.children ∧
        List.Forall₂ (fun _ after => path.select after = [])
          prefixedChild.children removed.tree.children := by
  have h : (NameTest.tagged "x").WrittenAs "x".toList := readNameTest?_eq_some_iff.1 (by decide)
  obtain ⟨path, setting, removing, set, removed, hpath, hsetting, hset, hremoving, hremoved, hplain, -⟩ :=
    execute_tagScripts h "new" prefixedChild
  exact ⟨h, path, setting, removing, set, removed, hpath, hsetting, hset, hremoving, hremoved, hplain rfl⟩

/-- With the prefix in the tag the path finds the text that was there, and not the one that was set. -/
theorem not_execute_tagScripts :
    ¬ ∀ (localPart tag value : String) (tree : Element),
      (NameTest.tagged localPart).WrittenAs tag.toList →
        ∃ path script output, ElementPath.parse ("./" ++ tag) = .ok path ∧
          parse (setScript tag value) = .ok script ∧ script.execute tree = .ok output ∧
          List.Forall₂ (path.IsSetIn value) tree.children output.tree.children := by
  intro hall
  have h : (NameTest.tagged "x").WrittenAs "p:x".toList := readNameTest?_eq_some_iff.1 (by decide)
  obtain ⟨path, script, output, hpath, hscript, houtput, hset⟩ := hall "x" "p:x" "new" prefixedChild h
  obtain ⟨script', output', hscript', houtput', hchildren⟩ := execute_setScript h "new" prefixedChild
  rw [ElementPath.parse_childPath h] at hpath
  cases hpath
  cases hscript.symm.trans hscript'
  cases houtput.symm.trans houtput'
  rw [hchildren] at hset
  cases hset with
  | cons hrecord hrest => exact absurd hrecord.1 (by decide)

end Script

end Docweave
