import Docweave.Proofs.Text.Marks
import Docweave.Proofs.Xml.StartTags

set_option autoImplicit false

/-! # Names as they are written and as they are shown

The element tree does not keep the prefix that a name was written with: it shows a name with the prefix
of the first declaration of its namespace. `isShownBy_of_parse` says of every element and every
attribute of a text when this is the name as it was written: just if the declaration of its prefix is
that first one. -/

namespace Docweave.Xml

open Docweave.Text

/-! ## Declarations -/

/-- A declaration as the reader keeps it. What is always declared is left out, and no prefix is empty. -/
structure Binding.IsProper (b : Binding) : Prop where
  uri : b.uri ≠ xmlUri
  lead : b.lead ≠ some "xml"
  nonempty : b.lead ≠ some ""

namespace Scope

theorem mem_inside {own outer : Scope} {b : Binding} (h : b ∈ inside own outer) :
    b ∈ own ∨ b ∈ outer := by
  have hfold : ∀ (outer scope : Scope),
      b ∈ outer.foldl (fun scope c => if declares scope c.lead then scope else scope ++ [c]) scope →
        b ∈ scope ∨ b ∈ outer := by
    intro outer
    induction outer with
    | nil => exact fun scope h => .inl h
    | cons c rest ih =>
      intro scope h
      rcases ih _ h with h | h
      · dsimp only at h
        split at h
        · exact .inl h
        · rcases List.mem_append.1 h with h | h
          · exact .inl h
          · exact .inr (List.mem_singleton.1 h ▸ List.mem_cons_self)
      · exact .inr (List.mem_cons_of_mem c h)
  unfold inside at h
  split at h
  · exact .inr h
  · exact hfold outer own h

/-- The declaration that holds for a prefix, or for names without one, is the first of its namespace. -/
def IsFirst (scope : Scope) (lead : Option String) : Prop :=
  ∀ b ∈ scope.find? (·.lead == lead), scope.find? (·.uri == b.uri) = some b

variable {scope : Scope} {lead : Option String}

theorem isFirst_of_uriOf?_eq_none (h : scope.uriOf? lead = none) : scope.IsFirst lead := by
  intro b hb
  rw [uriOf?, Option.mem_def.1 hb] at h
  cases h

/-- A namespace is shown with a prefix just if the declaration of the prefix is its first. -/
theorem isFirst_iff (hproper : ∀ b ∈ scope, b.IsProper) {uri : String}
    (h : scope.uriOf? lead = some uri) : scope.IsFirst lead ↔ scope.leadOf? uri = lead := by
  obtain ⟨b, hb, rfl⟩ := Option.map_eq_some_iff.1 h
  have hlead : b.lead = lead := by simpa using List.find?_some hb
  have hmem := List.mem_of_find?_eq_some hb
  obtain ⟨first, hfirst⟩ : ∃ first, scope.find? (·.uri == b.uri) = some first :=
    Option.isSome_iff_exists.1 (List.find?_isSome.2 ⟨b, hmem, beq_self_eq_true b.uri⟩)
  have huri : first.uri = b.uri := by simpa using List.find?_some hfirst
  rw [leadOf?, if_neg (hproper b hmem).uri, hfirst, Option.bind_some]
  constructor
  · intro hall
    have heq := hall b hb
    rw [hfirst] at heq
    cases heq
    exact hlead
  · rintro hfirstLead c hc
    obtain rfl : b = c := Option.some.inj (hb.symm.trans hc)
    have hsame : first = b := by
      cases first
      cases b
      cases huri
      cases hfirstLead.trans hlead.symm
      rfl
    rw [hfirst, hsame]

end Scope

/-! ## Prefixes -/

/-- The prefix of a name, if there is a colon in it. -/
def prefixOf? (name : List Char) : Option String :=
  (splitAtFirst? (· == ':') name).map fun parts => .ofList parts.1

/-- The names with one local part differ in their prefixes. -/
theorem display_inj {uri uri' lead lead' : Option String} {base : String} :
    QName.display ⟨uri, lead, base⟩ = QName.display ⟨uri', lead', base⟩ ↔ lead = lead' := by
  have hlonger (l : String) : base ≠ l ++ ":" ++ base := by
    intro h
    have hlength := congrArg String.length h
    simp only [String.length_append] at hlength
    have hcolon : (":" : String).length = 1 := rfl
    omega
  cases lead with
  | none =>
    cases lead' with
    | none => simp [QName.display]
    | some l' => simpa only [QName.display, reduceCtorEq, iff_false] using hlonger l'
  | some l =>
    cases lead' with
    | none => simpa only [QName.display, reduceCtorEq, iff_false] using (hlonger l).symm
    | some l' => simp [QName.display]

/-- What is read as a name is its prefix and its local part. -/
theorem nameAt_eq_display {s rest : List Char} {name : WrittenName}
    (h : readQName s = .ok (name, rest)) :
    nameAt s = (QName.display ⟨none, prefixOf? (nameAt s), name.base⟩).toList ∧
      name.lead = (prefixOf? (nameAt s)).getD "" := by
  rcases nameAt_of_readQName h with ⟨hbase, rfl⟩ | ⟨lead, base, hname, hlead, hbase, rfl⟩
  · have hnone : prefixOf? (nameAt s) = none := by
      rw [prefixOf?, splitAtFirst?_eq_none_iff.2 hbase.noColon]
      rfl
    rw [hnone]
    exact ⟨String.toList_ofList.symm, rfl⟩
  · have hfree : ':' ∉ lead := by
      rcases hlead with rfl | hlead
      · exact List.not_mem_nil
      · exact hlead.noColon
    have hsome : prefixOf? (nameAt s) = some (.ofList lead) := by
      rw [prefixOf?, hname, splitAtFirst?_mark hfree]
      rfl
    rw [hsome, hname]
    refine ⟨?_, rfl⟩
    simp [QName.display, String.toList_append]

/-- An empty prefix is read like none. -/
theorem prefixOf?_cases {s rest : List Char} {name : WrittenName}
    (h : readQName s = .ok (name, rest)) :
    (name.lead = "" ∧ prefixOf? (nameAt s) = none) ∨
      (name.lead = "" ∧ prefixOf? (nameAt s) = some "") ∨
      (name.lead ≠ "" ∧ prefixOf? (nameAt s) = some name.lead) := by
  have hlead := (nameAt_eq_display h).2
  cases hwritten : prefixOf? (nameAt s) with
  | none =>
    rw [hwritten] at hlead
    exact .inl ⟨hlead, rfl⟩
  | some lead =>
    rw [hwritten] at hlead
    obtain rfl : name.lead = lead := hlead
    by_cases hempty : name.lead = ""
    · exact .inr (.inl ⟨hempty, congrArg some hempty⟩)
    · exact .inr (.inr ⟨hempty, rfl⟩)

/-- A name is shown as it is written just if it is shown with its own prefix. -/
theorem display_eq_nameAt_iff {s rest : List Char} {name : WrittenName}
    (h : readQName s = .ok (name, rest)) (lead : Option String) :
    (QName.display ⟨none, lead, name.base⟩).toList = nameAt s ↔ lead = prefixOf? (nameAt s) := by
  conv => lhs; rhs; rw [(nameAt_eq_display h).1]
  rw [String.toList_inj, display_inj]

/-! ## What the reader knows of a start tag -/

/-- The names of a start tag are those in the text, and its declarations are proper ones. -/
structure StartTag.IsAnchored (tag : StartTag) : Prop where
  name : ∃ rest, readQName tag.start = .ok (tag.name, rest)
  attributes : ∀ a ∈ tag.attributes, ∃ rest, readQName a.start = .ok (a.name, rest)
  declared : ∀ b ∈ tag.declared, b.IsProper

namespace StartTag.IsAnchored

variable {tag tagged : StartTag}

theorem declare (h : tag.IsAnchored) {b : Binding} (hb : b.IsProper) :
    StartTag.IsAnchored { tag with declared := tag.declared ++ [b] } := by
  refine ⟨h.name, h.attributes, fun c hc => ?_⟩
  rcases List.mem_append.1 hc with hc | hc
  · exact h.declared c hc
  · exact List.mem_singleton.1 hc ▸ hb

theorem declareLead (h : tag.IsAnchored) {lead uri : String} {start : List Char} (hlead : lead ≠ "")
    (hdeclare : tag.declareLead lead uri start = .ok tagged) : tagged.IsAnchored := by
  unfold StartTag.declareLead at hdeclare
  split at hdeclare
  · cases hdeclare
  split at hdeclare
  · cases hdeclare
  · next hxml =>
    split at hdeclare
    · cases hdeclare
    split at hdeclare
    · cases hdeclare
    split at hdeclare
    · cases hdeclare
      exact h
    · next huri =>
      cases hdeclare
      refine h.declare ⟨huri, ?_, fun heq => hlead (Option.some.inj heq)⟩
      rintro ⟨⟩
      simp [huri] at hxml

theorem declareDefault (h : tag.IsAnchored) {uri : String} {start : List Char}
    (hdeclare : tag.declareDefault uri start = .ok tagged) : tagged.IsAnchored := by
  unfold StartTag.declareDefault at hdeclare
  split at hdeclare
  · cases hdeclare
  · next huri =>
    split at hdeclare
    · cases hdeclare
    · cases hdeclare
      exact h.declare ⟨huri, nofun, nofun⟩

theorem add (h : tag.IsAnchored) {a : RawAttribute} {s rest : List Char}
    (ha : readAttribute s = .ok (a, rest)) (hadd : tag.add a = .ok tagged) : tagged.IsAnchored := by
  obtain ⟨⟨name, after⟩, hname, ha⟩ := bind_eq_ok_iff.1 ha
  obtain ⟨after, -, ha⟩ := bind_eq_ok_iff.1 ha
  obtain ⟨⟨raw, after⟩, -, ha⟩ := bind_eq_ok_iff.1 ha
  cases ha
  obtain ⟨value, -, hadd⟩ := bind_eq_ok_iff.1 hadd
  split at hadd
  · have hbase := isLocalName_of_readQName hname
    refine h.declareLead ?_ hadd
    rintro hempty
    rw [hempty] at hbase
    exact absurd hbase.starts (by decide)
  · split at hadd
    · exact h.declareDefault hadd
    · cases hadd
      refine ⟨h.name, fun b hb => ?_, h.declared⟩
      rcases List.mem_append.1 hb with hb | hb
      · exact h.attributes b hb
      · rw [List.mem_singleton.1 hb]
        exact ⟨_, hname⟩

theorem of_readTagRest (h : tag.IsAnchored) {s rest : List Char}
    (hread : readTagRest tag s = .ok (some tagged, rest)) : tagged.IsAnchored := by
  fun_induction readTagRest tag s with
  | case1 => cases hread
  | case2 => cases hread
  | case3 =>
    obtain ⟨after, -, heq⟩ := map_eq_ok_iff.1 hread
    cases heq
    exact ⟨h.name, h.attributes, h.declared⟩
  | case4 =>
    cases hread
    exact h
  | case5 => cases hread
  | case6 => cases hread
  | case7 tag s _ _ c more _ _ heq _ a after ha next hadd ih => exact ih (h.add ha hadd) hread
  | case8 => cases hread

theorem of_readStartTag {s rest : List Char} (h : readStartTag s = .ok (some tag, rest)) :
    tag.IsAnchored := by
  obtain ⟨⟨name, after⟩, hname, h⟩ := bind_eq_ok_iff.1 h
  dsimp only at h
  split at h
  · cases h
  · have hempty : StartTag.IsAnchored ⟨name, s, [], [], false⟩ :=
      ⟨⟨after, hname⟩, fun _ ha => absurd ha List.not_mem_nil, fun _ hb => absurd hb List.not_mem_nil⟩
    exact hempty.of_readTagRest h

end StartTag.IsAnchored

namespace PlacedTag

/-- The names of the tag are those in the text, and the declarations that hold at it are proper. -/
structure IsAnchored (placed : PlacedTag) : Prop where
  tag : placed.tag.IsAnchored
  scope : ∀ b ∈ placed.scope, b.IsProper

theorem isAnchored_of_mem_placeTags {scopes : List Scope} {ts : List Token}
    (hscopes : ∀ scope ∈ scopes, ∀ b ∈ scope, b.IsProper)
    (hts : ∀ tag, .start (some tag) ∈ ts → tag.IsAnchored) :
    ∀ placed ∈ placeTags scopes ts, placed.IsAnchored := by
  fun_induction placeTags scopes ts with
  | case1 => exact fun _ h => absurd h List.not_mem_nil
  | case2 scopes tag rest placed ih =>
    have htag := hts tag List.mem_cons_self
    have houter : ∀ b ∈ scopes.headD [], b.IsProper := by
      cases scopes with
      | nil => exact fun _ h => absurd h List.not_mem_nil
      | cons scope _ => exact hscopes scope List.mem_cons_self
    have hplaced : placed.IsAnchored :=
      ⟨htag, fun b hb => (Scope.mem_inside hb).elim (htag.declared b) (houter b)⟩
    refine List.forall_mem_cons.2 ⟨hplaced, ih ?_ fun t ht => hts t (List.mem_cons_of_mem _ ht)⟩
    split
    · exact hscopes
    · exact List.forall_mem_cons.2 ⟨hplaced.scope, hscopes⟩
  | case3 scopes name start rest ih =>
    exact ih (fun scope h => hscopes scope (List.mem_of_mem_tail h))
      fun t ht => hts t (List.mem_cons_of_mem _ ht)
  | case4 | case5 | case6 | case7 =>
    rename_i ih
    exact ih hscopes fun t ht => hts t (List.mem_cons_of_mem _ ht)

theorem isAnchored_of_mem_startTags {s : List Char} :
    ∀ placed ∈ startTags s, placed.IsAnchored := by
  unfold startTags
  split
  · refine isAnchored_of_mem_placeTags (fun _ h => absurd h List.not_mem_nil) fun tag htag => ?_
    obtain ⟨t, rest, hread⟩ := exists_readStartTag_of_mem_tokens htag
    exact .of_readStartTag hread
  · exact fun _ h => absurd h List.not_mem_nil

end PlacedTag

/-! ## How names are shown -/

/-- A name can be told from its namespace: it is not written with an empty prefix, and where it stands
the declaration that it is in is the first of the namespace. -/
def Scope.Keeps (scope : Scope) (name : List Char) : Prop :=
  prefixOf? name ≠ some "" ∧ scope.IsFirst (prefixOf? name)

/-- An attribute in a namespace is shown as it is written just if the prefix of the namespace is its own.
Where that is the default one, its URI is written out in braces, which no name has in it. -/
theorem attributeName_eq_nameAt_iff (scope : Scope) {s rest : List Char} {name : WrittenName}
    (hread : readQName s = .ok (name, rest)) (hwritten : prefixOf? (nameAt s) ≠ none) (uri : String) :
    (attributeName scope ⟨some uri, name.base⟩).toList = nameAt s ↔
      scope.leadOf? uri = prefixOf? (nameAt s) := by
  cases hlead : scope.leadOf? uri with
  | some lead =>
    have hname : attributeName scope ⟨some uri, name.base⟩ =
        QName.display ⟨none, some lead, name.base⟩ := by
      simp only [attributeName, hlead, QName.display]
    rw [hname, display_eq_nameAt_iff hread]
  | none =>
    refine iff_of_false (fun h => ?_) hwritten.symm
    have hbrace : '\x7b' ∈ nameAt s := by
      rw [← h]
      simp [attributeName, hlead]
    exact absurd (List.all_eq_true.1 List.all_takeWhile _ hbrace) (by decide)

section Shown

variable {scope : Scope} (hproper : ∀ b ∈ scope, b.IsProper)

include hproper

/-- No namespace is shown with an empty prefix. -/
theorem leadOf?_ne_empty (uri : String) : scope.leadOf? uri ≠ some "" := by
  unfold Scope.leadOf?
  split
  · simp
  · intro h
    obtain ⟨b, hb, hlead⟩ := Option.bind_eq_some_iff.1 h
    exact (hproper b (List.mem_of_find?_eq_some hb)).nonempty hlead

/-- The prefix `xml` is declared nowhere. -/
theorem isFirst_xml : scope.IsFirst (some "xml") := by
  intro b hb
  have hlead : b.lead = some "xml" := by simpa using List.find?_some hb
  exact absurd hlead (hproper b (List.mem_of_find?_eq_some hb)).lead

/-- In a declared namespace. -/
theorem keeps_iff {name : List Char} {lead uri : String} (hname : prefixOf? name = some lead)
    (hlead : lead ≠ "") (huri : scope.uriOf? (some lead) = some uri) :
    scope.Keeps name ↔ scope.leadOf? uri = prefixOf? name := by
  rw [Scope.Keeps, hname, Scope.isFirst_iff hproper huri]
  exact and_iff_right fun h => hlead (Option.some.inj h)

/-- An element is shown with the name in its start tag just if the name can be told from its
namespace. -/
theorem display_elementName_iff {tag : StartTag} (htag : tag.IsAnchored) {uri : Option String}
    (huri : elementUri scope tag = .ok uri) :
    (elementName scope ⟨uri, tag.name.base⟩).display.toList = nameAt tag.start ↔
      scope.Keeps (nameAt tag.start) := by
  obtain ⟨rest, hread⟩ := htag.name
  have hshown : (elementName scope ⟨uri, tag.name.base⟩).display =
      QName.display ⟨none, uri.bind (scope.leadOf? ·), tag.name.base⟩ := by
    cases uri with
    | none => rfl
    | some uri => rfl
  rw [hshown, display_eq_nameAt_iff hread]
  unfold elementUri at huri
  rcases prefixOf?_cases hread with ⟨hlead, hwritten⟩ | ⟨hlead, hwritten⟩ | ⟨hlead, hwritten⟩
  · rw [hlead, if_pos (by decide)] at huri
    cases huri
    rw [Scope.Keeps, hwritten]
    cases huri : scope.uriOf? none with
    | none => simp [Scope.isFirst_of_uriOf?_eq_none huri]
    | some uri => simp [Scope.isFirst_iff hproper huri]
  · rw [Scope.Keeps, hwritten]
    refine iff_of_false (fun h => ?_) fun h => h.1 rfl
    obtain ⟨uri, -, hshow⟩ := Option.bind_eq_some_iff.1 h
    exact leadOf?_ne_empty hproper uri hshow
  · rw [if_neg fun h => hlead (String.isEmpty_iff.1 h)] at huri
    split at huri
    · next found hdeclared =>
      cases huri
      exact (keeps_iff hproper hwritten hlead hdeclared).symm
    · cases huri

/-- An attribute is shown with its name as it is written if there is no prefix in it, and otherwise just
if the name can be told from its namespace. -/
theorem attributeName_iff {a : TagAttribute} {rest : List Char}
    (hread : readQName a.start = .ok (a.name, rest)) {uri : Option String}
    (huri : attributeUri scope a = .ok uri) :
    (attributeName scope ⟨uri, a.name.base⟩).toList = nameAt a.start ↔
      prefixOf? (nameAt a.start) = none ∨ scope.Keeps (nameAt a.start) := by
  have hplain := display_eq_nameAt_iff hread none
  unfold attributeUri at huri
  rcases prefixOf?_cases hread with ⟨hlead, hwritten⟩ | ⟨hlead, hwritten⟩ | ⟨hlead, hwritten⟩
  · rw [hlead, if_pos (by decide)] at huri
    cases huri
    exact iff_of_true (hplain.2 hwritten.symm) (.inl hwritten)
  · rw [hlead, if_pos (by decide)] at huri
    cases huri
    refine iff_of_false (fun h => ?_) ?_
    · rw [hwritten] at hplain
      cases hplain.1 h
    · rw [Scope.Keeps, hwritten]
      simp
  · rw [if_neg fun h => hlead (String.isEmpty_iff.1 h)] at huri
    have hne : prefixOf? (nameAt a.start) ≠ none := by
      rw [hwritten]
      exact Option.some_ne_none _
    rw [or_iff_right hne]
    split at huri
    · next hxml =>
      cases huri
      rw [attributeName_eq_nameAt_iff scope hread hne, Scope.Keeps, hwritten, hxml]
      exact iff_of_true (if_pos rfl) ⟨by simp, isFirst_xml hproper⟩
    · split at huri
      · next found hdeclared =>
        cases huri
        rw [attributeName_eq_nameAt_iff scope hread hne, keeps_iff hproper hwritten hlead hdeclared]
      · cases huri

end Shown

/-! ## Whole documents -/

/-- The attributes of a tag are resolved one by one. -/
theorem exists_eq_of_resolveAttributes {scope : Scope} {resolved got : List NodeAttribute}
    {attributes : List TagAttribute}
    (h : resolveAttributes scope resolved attributes = .ok got) :
    ∃ new, got = resolved ++ new ∧
      List.Forall₂ (fun a node => attributeUri scope a = .ok node.name.uri ∧
        node.name.localPart = a.name.base) attributes new := by
  induction attributes generalizing resolved with
  | nil =>
    cases h
    exact ⟨[], (List.append_nil _).symm, .nil⟩
  | cons a rest ih =>
    rw [resolveAttributes] at h
    split at h
    · cases h
    · next uri huri =>
      simp only at h
      split at h
      · cases h
      · obtain ⟨new, rfl, hnew⟩ := ih h
        exact ⟨_ :: new, List.append_assoc _ _ _, .cons ⟨huri, rfl⟩ hnew⟩

/-- An element is shown with the name in its start tag, and its attributes with the names there, just if
these can be told from their namespaces. -/
structure PlacedTag.IsShownBy (placed : PlacedTag) (name : QName) (attributes : List Attribute) :
    Prop where
  name : name.display.toList = nameAt placed.tag.start ↔ placed.scope.Keeps (nameAt placed.tag.start)
  attributes : List.Forall₂ (fun written a => a.name.toList = nameAt written.start ↔
    prefixOf? (nameAt written.start) = none ∨ placed.scope.Keeps (nameAt written.start))
    placed.tag.attributes attributes

/-- What a start tag resolves to is shown as the declarations that hold at it say. -/
theorem PlacedTag.IsAnchored.isShownBy {placed : PlacedTag} (h : placed.IsAnchored)
    {head : ElementHead} (hhead : placed.Resolves head) :
    placed.IsShownBy head.shown.1 head.shown.2 := by
  obtain ⟨attributes, hattributes, hrest⟩ := bind_eq_ok_iff.1 hhead
  obtain ⟨uri, huri, hrest⟩ := bind_eq_ok_iff.1 hrest
  cases hrest
  refine ⟨display_elementName_iff h.scope h.tag huri, ?_⟩
  obtain ⟨new, rfl, hnew⟩ := exists_eq_of_resolveAttributes hattributes
  have hread := (List.forall₂_and_left _ _).2 ⟨h.tag.attributes, hnew⟩
  refine List.forall₂_map_right_iff.2 (hread.imp fun a node ⟨⟨rest, hname⟩, hresolved, hbase⟩ => ?_)
  have hiff := attributeName_iff h.scope hname hresolved
  rw [← hbase] at hiff
  exact hiff

/-- The elements of a text that is read are those of its start tags, in order. An element is shown with
the name in its start tag just if that is not written with an empty prefix and the declaration that
holds for its prefix, or for names without one, is the first of its namespace. An attribute is shown
with the name in the tag under the same condition, and always if that has no prefix. -/
theorem isShownBy_of_parse {s : List Char} {e : Element} (h : parse s = .ok e) :
    List.Forall₂ (fun placed node => placed.IsShownBy node.name node.attributes) (startTags s)
      (e :: e.descendants) := by
  unfold parse at h
  split at h
  · next document hdocument =>
    cases h
    have hresolves := (List.forall₂_and_left _ _).2
      ⟨PlacedTag.isAnchored_of_mem_startTags, resolves_of_readDocument hdocument⟩
    have hheads : List.Forall₂ (fun placed shown => placed.IsShownBy shown.1 shown.2) (startTags s)
        (document.heads.map ElementHead.shown) :=
      List.forall₂_map_right_iff.2
        (hresolves.imp fun placed head ⟨hanchored, hhead⟩ => hanchored.isShownBy hhead)
    rw [← map_shown_toElement] at hheads
    exact List.forall₂_map_right_iff.1 hheads
  · cases h

/-- A document with a default namespace and a prefix for another one. -/
def twoNamespaces : List Char := "<a xmlns='u' xmlns:p='v'><p:b p:x='1' y='2'/></a>".toList

theorem isShownBy_of_parse_twoNamespaces :
    ∃ e, parse twoNamespaces = .ok e ∧
      (startTags twoNamespaces).map (fun placed => nameAt placed.tag.start) = [['a'], ['p', ':', 'b']] ∧
      List.Forall₂ (fun placed node => placed.IsShownBy node.name node.attributes)
        (startTags twoNamespaces) (e :: e.descendants) := by
  have hread : (parse twoNamespaces).isOk = true := by decide +kernel
  cases hparse : parse twoNamespaces with
  | error error =>
    rw [hparse] at hread
    cases hread
  | ok e => exact ⟨e, rfl, by decide +kernel, isShownBy_of_parse hparse⟩

/-- A document with a prefix for its default namespace. -/
def doubleNamespace : List Char := "<a xmlns='u' xmlns:p='u'><p:b/></a>".toList

/-- Of two declarations of a namespace the first one is looked up, also where the second one was
written. -/
theorem not_isShownBy_of_parse :
    ¬ ∀ (s : List Char) (e : Element), parse s = .ok e →
      List.Forall₂ (fun placed node => nameAt placed.tag.start = node.name.display.toList) (startTags s)
        (e :: e.descendants) := by
  intro h
  have hwritten : (startTags doubleNamespace).map (fun placed => nameAt placed.tag.start) =
      [['a'], ['p', ':', 'b']] := by
    decide +kernel
  have hshown : (parse doubleNamespace).toOption.map
      (fun e => (e :: e.descendants).map (·.name.display.toList)) = some [['a'], ['b']] := by
    decide +kernel
  cases hparse : parse doubleNamespace with
  | error error =>
    rw [hparse] at hshown
    cases hshown
  | ok e =>
    rw [hparse] at hshown
    have hsame := List.forall₂_map_left_iff.2 (List.forall₂_map_right_iff.2 (h _ e hparse))
    rw [List.forall₂_eq_eq_eq, hwritten] at hsame
    exact absurd (hsame.trans (Option.some.inj hshown)) (by decide)

end Docweave.Xml
