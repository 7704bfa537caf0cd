import Docweave.Proofs.Gives
import Docweave.Proofs.Xml.TagMarkup

set_option autoImplicit false

/-! # What the reader delivers

Whatever text the reader accepts, the document that it makes is sound: names are local names, no two
attributes of an element have the same name, none declares a namespace, and texts and values hold only
characters that may stand in a document. So a tree that was read can be written again
(`everywhere_of_parse`), as long as no name in it is in a namespace. -/

namespace Docweave

open Xml Text

theorem gives_stopAt {α : Type} {P : α → Prop} (problem : Problem) (rest : List Char) :
    Gives (stopAt problem rest : Except Fault α) P := nofun

/-! ## Characters -/

theorem gives_readUntil (mark s : List Char) :
    Gives (readUntil mark s) fun got => IsAllowed got.1 := by
  induction s with
  | nil => exact gives_ok .nil
  | cons c rest ih =>
    rw [readUntil]
    split
    · exact gives_ok .nil
    · split
      · next hc => exact gives_map ih fun got hgot => .cons hc hgot
      · exact gives_stopAt _ _

theorem gives_readThrough (finish : String) (s : List Char) :
    Gives (readThrough finish s) fun got => IsAllowed got.1 :=
  gives_bind (gives_readUntil _ s) fun _ hdata =>
    gives_bind (gives_true _) fun _ _ => gives_ok hdata

theorem isAllowed_of_dropWhile_eq_nil {s : List Char} (h : s.dropWhile isXmlChar = []) :
    IsAllowed s := by
  have hall : s = s.takeWhile isXmlChar := by
    have hparts := List.takeWhile_append_dropWhile (p := isXmlChar) (l := s)
    rw [h, List.append_nil] at hparts
    exact hparts.symm
  intro c hc
  rw [hall] at hc
  exact List.all_eq_true.1 List.all_takeWhile c hc

theorem gives_readValue (s : List Char) : Gives (readValue s) fun got => IsAllowed got.1 := by
  unfold readValue
  split
  · exact gives_error _
  · split
    · simp only
      split
      · exact gives_error _
      · split
        · next hall =>
          exact gives_map (gives_true _) fun _ _ => isAllowed_of_dropWhile_eq_nil hall
        · exact gives_stopAt _ _
    · exact gives_stopAt _ _

/-! ### References -/

theorem isXmlChar_of_numberedChar? {base : Nat} {digits : List Char} {c : Char}
    (h : numberedChar? base digits = some c) : isXmlChar c = true := by
  unfold numberedChar? at h
  simp only at h
  split at h
  · cases h
  · obtain ⟨hallowed, heq⟩ := Option.ite_none_right_eq_some.1 h
    cases heq
    exact hallowed

theorem isXmlChar_of_entityChar? {name : List Char} {c : Char} (h : entityChar? name = some c) :
    isXmlChar c = true := by
  unfold entityChar? at h
  split at h
  iterate 5
    cases h
    decide
  cases h

/-- A reference that is read is a part of the text, and the character that it names may stand in a
document. -/
theorem readReferent?_eq_some {s rest : List Char} {referent : Referent}
    (h : readReferent? s = some (referent, rest)) :
    rest <:+ s ∧ ∀ c, referent = .char c → isXmlChar c = true := by
  unfold readReferent? at h
  split at h
  · next digits =>
    obtain ⟨d, hd, heq⟩ := Option.map_eq_some_iff.1 h
    cases heq
    refine ⟨((List.dropWhile_suffix _).trans (List.suffix_cons _ _)).trans (List.suffix_cons _ _), ?_⟩
    rintro c ⟨⟩
    exact isXmlChar_of_numberedChar? hd
  · next digits _ =>
    obtain ⟨d, hd, heq⟩ := Option.map_eq_some_iff.1 h
    cases heq
    refine ⟨(List.dropWhile_suffix _).trans (List.suffix_cons _ _), ?_⟩
    rintro c ⟨⟩
    exact isXmlChar_of_numberedChar? hd
  · split at h
    · next name after hname =>
      cases h
      have hrest : rest = s.dropWhile isNameChar := by
        unfold Xml.readName at hname
        split at hname
        · cases hname
          rfl
        · cases hname
      refine ⟨hrest ▸ List.dropWhile_suffix _, fun c hc => ?_⟩
      cases hentity : entityChar? name with
      | none =>
        rw [hentity] at hc
        cases hc
      | some d =>
        rw [hentity] at hc
        cases hc
        exact isXmlChar_of_entityChar? hentity
    · cases h

theorem readReference?_eq_some {s rest : List Char} {referent : Referent}
    (h : readReference? s = some (referent, rest)) :
    rest <:+ s ∧ ∀ c, referent = .char c → isXmlChar c = true := by
  unfold readReference? at h
  split at h
  · next heq =>
    cases h
    obtain ⟨hsuffix, hchar⟩ := readReferent?_eq_some heq
    exact ⟨(List.suffix_cons _ _).trans hsuffix, hchar⟩
  · cases h

/-! ### Values and character data -/

/-- The character that a piece stands for. -/
def Xml.Piece.char : Xml.Piece → Char
  | .literal c => c
  | .referred c => c

/-- Every piece stands for a character that may stand in a document. -/
def AreAllowed (ps : List Xml.Piece) : Prop := ∀ p ∈ ps, isXmlChar p.char = true

theorem gives_pieces (after : List Char) {s : List Char} (hs : IsAllowed s) :
    Gives (pieces after s) AreAllowed := by
  fun_induction pieces after s with
  | case1 => exact gives_ok fun p hp => absurd hp List.not_mem_nil
  | case2 rest c tail hread ih =>
    obtain ⟨hsuffix, hchar⟩ := readReference?_eq_some hread
    have htail : IsAllowed tail := fun d hd => hs d (List.mem_cons_of_mem _ (hsuffix.subset hd))
    exact gives_map (ih htail) fun ps hps => List.forall_mem_cons.2 ⟨hchar c rfl, hps⟩
  | case3 => exact gives_stopAt _ _
  | case4 => exact gives_stopAt _ _
  | case5 c rest _ ih =>
    obtain ⟨hc, hrest⟩ := List.forall_mem_cons.1 hs
    exact gives_map (ih hrest) fun ps hps => List.forall_mem_cons.2 ⟨hc, hps⟩

theorem isAllowed_valueOf {ps : List Xml.Piece} (h : AreAllowed ps) : IsAllowed (valueOf ps) := by
  fun_induction valueOf ps with
  | case1 => exact .nil
  | case2 rest ih => exact .cons (by decide) (ih fun p hp => h p (by simp [hp]))
  | case3 c rest _ ih =>
    obtain ⟨hc, hrest⟩ := List.forall_mem_cons.1 h
    refine .cons ?_ (ih hrest)
    split
    · decide
    · exact hc
  | case4 c rest ih =>
    obtain ⟨hc, hrest⟩ := List.forall_mem_cons.1 h
    exact .cons hc (ih hrest)

theorem isAllowed_characterDataOf {written : List Char} {ps : List Xml.Piece} (afterReference : Bool)
    (hwritten : IsAllowed written) (h : AreAllowed ps) :
    IsAllowed (characterDataOf written afterReference ps) := by
  have hfeed : isXmlChar '\n' = true := by decide
  fun_induction characterDataOf written afterReference ps with
  | case1 written => exact fun c hc => hwritten c (List.mem_reverse.1 hc)
  | case2 _ _ c _ ih =>
    obtain ⟨hc, hrest⟩ := List.forall_mem_cons.1 h
    exact ih (.cons hc hwritten) hrest
  | case3 _ c _ ih =>
    obtain ⟨hc, hrest⟩ := List.forall_mem_cons.1 h
    exact ih (.cons hc hwritten) hrest
  | case4 _ _ _ _ _ _ _ _ ih =>
    exact ih (.cons hfeed (.cons hfeed hwritten.of_cons)) (List.forall_mem_cons.1 h).2
  | case5 _ _ _ _ _ _ _ ih =>
    exact ih (.cons hfeed hwritten.of_cons) (List.forall_mem_cons.1 h).2
  | case6 _ c _ _ _ _ _ _ _ ih =>
    obtain ⟨hc, hrest⟩ := List.forall_mem_cons.1 h
    exact ih (.cons hc (.cons hfeed hwritten.of_cons)) hrest
  | case7 _ _ c _ _ final _ ih =>
    obtain ⟨hc, hrest⟩ := List.forall_mem_cons.1 h
    refine ih (.cons ?_ hwritten) hrest
    split
    · exact hfeed
    · exact hc

theorem gives_normalizeValue (after : List Char) {s : List Char} (hs : IsAllowed s) :
    Gives (normalizeValue after s) fun value => IsAllowed value.toList :=
  gives_map (gives_pieces after hs) fun ps hps => by
    rw [String.toList_ofList]
    exact isAllowed_valueOf hps

theorem gives_normalizeCharacterData (after : List Char) {s : List Char} (hs : IsAllowed s) :
    Gives (normalizeCharacterData after s) fun data => IsAllowed data.toList :=
  gives_map (gives_pieces after hs) fun ps hps => by
    rw [String.toList_ofList]
    exact isAllowed_characterDataOf false .nil hps

theorem mem_replaceFrom {old new : List Char} {c : Char} (skip : Nat) {s : List Char}
    (h : c ∈ replaceFrom old new skip s) : c ∈ new ∨ c ∈ s := by
  fun_induction replaceFrom old new skip s with
  | case1 => exact absurd h List.not_mem_nil
  | case2 _ _ _ ih => exact (ih h).imp_right (List.mem_cons_of_mem _)
  | case3 d rest _ ih =>
    rcases List.mem_append.1 h with hnew | hlater
    · exact .inl hnew
    · exact (ih hlater).imp_right (List.mem_cons_of_mem _)
  | case4 d rest _ ih =>
    rcases List.mem_cons.1 h with rfl | hlater
    · exact .inr List.mem_cons_self
    · exact (ih hlater).imp_right (List.mem_cons_of_mem _)

theorem isAllowed_normalizeNewlines {s : List Char} (hs : IsAllowed s) :
    IsAllowed (normalizeNewlines s) := by
  intro c hc
  obtain ⟨d, hd, rfl⟩ := List.mem_map.1 hc
  split
  · decide
  · rcases mem_replaceFrom 0 hd with hfeed | hmem
    · rw [List.mem_singleton.1 hfeed]
      decide
    · exact hs d hmem

/-! ## Start tags -/

/-- A start tag as it is read, before names are resolved: without their prefixes its attributes could be
written. -/
structure Xml.StartTag.IsSound (tag : StartTag) : Prop where
  name : IsLocalName tag.name.base.toList
  attributes : ∀ a ∈ tag.attributes, Attribute.IsWritable ⟨a.name.base, a.value⟩

theorem gives_readQName (s : List Char) :
    Gives (readQName s) fun got => IsLocalName got.1.base.toList :=
  fun _ h => isLocalName_of_readQName h

theorem gives_readAttribute (s : List Char) :
    Gives (readAttribute s) fun got => IsLocalName got.1.name.base.toList ∧ IsAllowed got.1.raw :=
  gives_bind (gives_readQName s) fun _ hname =>
    gives_bind (gives_true _) fun _ _ =>
      gives_bind (gives_readValue _) fun _ hraw => gives_ok ⟨hname, hraw⟩

theorem gives_declareLead {tag : StartTag} (h : tag.IsSound) (lead uri : String)
    (start : List Char) : Gives (tag.declareLead lead uri start) StartTag.IsSound := by
  unfold StartTag.declareLead
  iterate 4
    split
    · exact gives_stopAt _ _
  split
  · exact gives_ok h
  · exact gives_ok ⟨h.name, h.attributes⟩

theorem gives_declareDefault {tag : StartTag} (h : tag.IsSound) (uri : String)
    (start : List Char) : Gives (tag.declareDefault uri start) StartTag.IsSound := by
  unfold StartTag.declareDefault
  iterate 2
    split
    · exact gives_stopAt _ _
  exact gives_ok ⟨h.name, h.attributes⟩

theorem gives_add {tag : StartTag} (h : tag.IsSound) {a : RawAttribute}
    (hname : IsLocalName a.name.base.toList) (hraw : IsAllowed a.raw) :
    Gives (tag.add a) StartTag.IsSound := by
  refine gives_bind (gives_normalizeValue a.after hraw) fun value hvalue => ?_
  split
  · exact gives_declareLead h _ _ _
  · split
    · exact gives_declareDefault h _ _
    · next hdeclares =>
      refine gives_ok ⟨h.name, fun b hb => ?_⟩
      rcases List.mem_append.1 hb with hb | hb
      · exact h.attributes b hb
      · rw [List.mem_singleton.1 hb]
        exact ⟨hname, hdeclares, hvalue⟩

theorem gives_readTagRest {tag : StartTag} (h : tag.IsSound) (s : List Char) :
    Gives (readTagRest tag s) fun got => ∀ t ∈ got.1, t.IsSound := by
  fun_induction readTagRest tag s with
  | case1 => exact gives_ok fun _ h => absurd h (Option.not_mem_none _)
  | case2 => exact gives_error _
  | case3 tag =>
    refine gives_map (gives_true _) fun _ _ t ht => ?_
    cases ht
    exact ⟨h.name, h.attributes⟩
  | case4 tag =>
    refine gives_ok fun t ht => ?_
    cases ht
    exact h
  | case5 => exact gives_error _
  | case6 => exact gives_error _
  | case7 tag s _ _ c more _ _ heq _ a after hread tagged hadd ih =>
    obtain ⟨hname, hraw⟩ := gives_readAttribute _ _ hread
    exact ih (gives_add h hname hraw _ hadd)
  | case8 => exact gives_stopAt _ _

theorem gives_readStartTag (s : List Char) :
    Gives (readStartTag s) fun got => ∀ t ∈ got.1, t.IsSound := by
  refine gives_bind (gives_readQName s) ?_
  rintro ⟨name, rest⟩ hname
  dsimp only
  split
  · exact gives_stopAt _ _
  · exact gives_readTagRest ⟨hname, fun _ h => absurd h List.not_mem_nil⟩ _

/-! ## Nodes -/

/-- A start tag with its names resolved: in no namespace its attributes could be written, and no two of
them have the same name in the same namespace. -/
structure Xml.ElementHead.IsSound (head : ElementHead) : Prop where
  name : IsLocalName head.name.localPart.toList
  attributes : ∀ a ∈ head.attributes, Attribute.IsWritable ⟨a.name.localPart, a.value⟩
  distinct : (head.attributes.map (·.name)).Nodup

/-- A node as the reader delivers it: an element is sound with everything in it. -/
inductive Xml.Node.IsSound : Node → Prop where
  | element {head : ElementHead} {content : List Node} (hhead : head.IsSound)
      (hcontent : ∀ node ∈ content, node.IsSound) : IsSound (.element head content)
  | text {data : String} (h : IsAllowed data.toList) : IsSound (.text data)
  | comment (data : String) : IsSound (.comment data)
  | instruction (target data : String) : IsSound (.instruction target data)

theorem gives_resolveAttributes (scope : Scope) {resolved : List NodeAttribute}
    {attributes : List TagAttribute}
    (hattributes : ∀ a ∈ attributes, Attribute.IsWritable ⟨a.name.base, a.value⟩)
    (hresolved : ∀ a ∈ resolved, Attribute.IsWritable ⟨a.name.localPart, a.value⟩)
    (hdistinct : (resolved.map (·.name)).Nodup) :
    Gives (resolveAttributes scope resolved attributes) fun got =>
      (∀ a ∈ got, Attribute.IsWritable ⟨a.name.localPart, a.value⟩) ∧
        (got.map (·.name)).Nodup := by
  induction attributes generalizing resolved with
  | nil => exact gives_ok ⟨hresolved, hdistinct⟩
  | cons a rest ih =>
    obtain ⟨ha, hrest⟩ := List.forall_mem_cons.1 hattributes
    rw [resolveAttributes]
    split
    · exact gives_error _
    · next uri _ =>
      simp only
      split
      · exact gives_stopAt _ _
      · next hnew =>
        refine ih hrest ?_ ?_
        · intro b hb
          rcases List.mem_append.1 hb with hb | hb
          · exact hresolved b hb
          · rw [List.mem_singleton.1 hb]
            exact ha
        · rw [List.map_append]
          refine List.nodup_append.2 ⟨hdistinct, by simp, ?_⟩
          rintro name hmem other hother rfl
          obtain ⟨r, hr, hname⟩ := List.mem_map.1 hmem
          rw [List.map_singleton, List.mem_singleton] at hother
          exact hnew (List.any_eq_true.2 ⟨r, hr, beq_iff_eq.2 (hname.trans hother)⟩)

theorem gives_resolve {tag : StartTag} (h : tag.IsSound) (outer : Scope) :
    Gives (tag.resolve outer) ElementHead.IsSound :=
  gives_bind (gives_resolveAttributes _ h.attributes (fun _ hb => absurd hb List.not_mem_nil) .nil)
    fun _ hgot => gives_bind (gives_true _) fun _ _ => gives_ok ⟨h.name, hgot.1, hgot.2⟩

/-- What a token says is sound. -/
def Xml.Token.IsSound : Token → Prop
  | .start tag => ∀ t ∈ tag, t.IsSound
  | .text data => IsAllowed data.toList
  | _ => True

theorem gives_readCdata (s : List Char) : Gives (readCdata s) fun got => got.1.IsSound :=
  gives_bind (gives_readThrough _ s) fun _ hdata => gives_ok <| by
    rw [Token.IsSound, String.toList_ofList]
    exact isAllowed_normalizeNewlines hdata

theorem gives_readText (s : List Char) : Gives (readText s) fun got => got.1.IsSound := by
  refine gives_bind (gives_readUntil _ s) ?_
  rintro ⟨raw, rest⟩ hraw
  dsimp only
  split
  · exact gives_stopAt _ _
  · exact gives_bind (gives_normalizeCharacterData _ hraw) fun _ hdata => gives_ok hdata

theorem gives_readComment (s : List Char) : Gives (readComment s) fun got => got.1.IsSound := by
  refine gives_bind (gives_true _) ?_
  rintro ⟨data, rest⟩ -
  dsimp only
  split
  · exact gives_stopAt _ _
  · exact gives_ok trivial

theorem gives_readInstruction (s : List Char) :
    Gives (readInstruction s) fun got => got.1.IsSound := by
  unfold readInstruction
  split
  · exact gives_stopAt _ _
  · exact gives_bind (gives_true _) fun _ _ => gives_bind (gives_true _) fun _ _ => gives_ok trivial

theorem gives_readEndTag (s : List Char) : Gives (readEndTag s) fun got => got.1.IsSound :=
  gives_bind (gives_true _) fun _ _ => gives_bind (gives_true _) fun _ _ => gives_ok trivial

theorem gives_readToken (c : Char) (rest : List Char) :
    Gives (readToken c rest) fun got => got.1.IsSound := by
  unfold readToken
  split
  · split
    · exact gives_stopAt _ _
    · exact gives_readComment _
    · exact gives_readCdata _
    · exact gives_stopAt _ _
    · exact gives_readInstruction _
    · exact gives_readEndTag _
    · exact gives_map (gives_readStartTag _) fun _ hgot => hgot
  · exact gives_readText _

/-! ## Documents -/

/-- An element that is still open, as far as it was read. -/
structure Xml.OpenElement.IsSound (e : OpenElement) : Prop where
  head : e.head.IsSound
  content : ∀ node ∈ e.content, node.IsSound

/-- A document as the reader delivers it. -/
structure Xml.Document.IsSound (document : Document) : Prop where
  head : document.head.IsSound
  content : ∀ node ∈ document.content, node.IsSound

theorem Xml.OpenElement.IsSound.push {e : OpenElement} (h : e.IsSound) {node : Node}
    (hnode : node.IsSound) : (e.push node).IsSound := by
  refine ⟨h.head, ?_⟩
  unfold OpenElement.push
  have hcontent := h.content
  split
  · next more data before heq =>
    rw [heq] at hcontent
    obtain ⟨hdata, hbefore⟩ := List.forall_mem_cons.1 hcontent
    cases hnode with
    | text hmore =>
      cases hdata with
      | text hdata =>
        refine List.forall_mem_cons.2 ⟨.text ?_, hbefore⟩
        rw [String.toList_append]
        exact fun c hc => (List.mem_append.1 hc).elim (hdata c) (hmore c)
  · exact List.forall_mem_cons.2 ⟨hnode, hcontent⟩

theorem Xml.OpenElement.IsSound.close {e : OpenElement} (h : e.IsSound) : e.close.IsSound :=
  .element h.head fun node hnode => h.content node (List.mem_reverse.1 hnode)

theorem isSound_of_resolve {c : Char} {rest tail : List Char} {tag : StartTag}
    {outer : Scope} {head : ElementHead} (htoken : readToken c rest = .ok (.start (some tag), tail))
    (hhead : tag.resolve outer = .ok head) : head.IsSound :=
  gives_resolve (gives_readToken c rest _ htoken tag rfl) outer head hhead

theorem gives_readContent {current : OpenElement} {outer : List OpenElement}
    (hcurrent : current.IsSound) (houter : ∀ e ∈ outer, e.IsSound) (s : List Char) :
    Gives (readContent current outer s) fun got => got.1.IsSound := by
  fun_induction readContent current outer s with
  | case1 => exact gives_error _
  | case2 => exact gives_error _
  | case3 _ _ _ _ _ _ ih => exact ih hcurrent houter
  | case4 => exact gives_error _
  | case5 _ _ _ _ _ _ htoken _ hhead _ ih =>
    have hsound := isSound_of_resolve htoken hhead
    exact ih (hcurrent.push (.element hsound fun _ h => absurd h List.not_mem_nil)) houter
  | case6 _ _ _ _ _ _ htoken _ hhead _ ih =>
    have hsound := isSound_of_resolve htoken hhead
    exact ih ⟨hsound, fun _ h => absurd h List.not_mem_nil⟩ (List.forall_mem_cons.2 ⟨hcurrent, houter⟩)
  | case7 current =>
    exact gives_ok ⟨hcurrent.head, fun node h => hcurrent.content node (List.mem_reverse.1 h)⟩
  | case8 _ _ _ _ _ _ _ _ ih =>
    obtain ⟨hparent, houter⟩ := List.forall_mem_cons.1 houter
    exact ih (hparent.push hcurrent.close) houter
  | case9 => exact gives_stopAt _ _
  | case10 _ _ c rest _ _ htoken ih =>
    exact ih (hcurrent.push (.text (gives_readToken c rest _ htoken))) houter
  | case11 _ _ _ _ _ _ _ ih => exact ih (hcurrent.push (.comment _)) houter
  | case12 _ _ _ _ _ _ _ _ ih => exact ih (hcurrent.push (.instruction _ _)) houter

theorem gives_readRoot (s : List Char) :
    Gives (readRoot s) fun got => ∀ document ∈ got.1, document.IsSound := by
  refine gives_bind (gives_readStartTag s) ?_
  rintro ⟨tag, rest⟩ htag
  cases tag with
  | none => exact gives_ok fun _ h => absurd h (Option.not_mem_none _)
  | some tag =>
    refine gives_bind (gives_resolve (htag tag rfl) []) fun head hhead => ?_
    have hempty : ∀ node ∈ ([] : List Node), node.IsSound := fun _ h => absurd h List.not_mem_nil
    split
    · refine gives_ok fun document h => ?_
      cases h
      exact ⟨hhead, hempty⟩
    · refine gives_bind (gives_readContent ⟨hhead, hempty⟩ (fun _ h => absurd h List.not_mem_nil) rest)
        fun got hgot => gives_ok fun document h => ?_
      cases h
      exact hgot

/-- After the root there may be nothing else. -/
theorem gives_afterRoot {root : Option Document} (hroot : ∀ document ∈ root, document.IsSound)
    (rest : List Char) :
    Gives (do
      let rest ← skipMisc rest
      if rest.isEmpty then
        match root with
        | some root => return root
        | none => .error ⟨.noRoot, 0⟩
      else stopAt .unknownToken rest) Document.IsSound := by
  refine gives_bind (gives_true _) fun _ _ => ?_
  split
  · cases root with
    | none => exact gives_error _
    | some document => exact gives_ok (hroot document rfl)
  · exact gives_stopAt _ _

theorem gives_readDocument (s : List Char) : Gives (readDocument s) Document.IsSound := by
  refine gives_bind (gives_true _) fun _ _ => gives_bind (gives_true _) fun rest _ => ?_
  split
  · exact gives_error _
  · dsimp only
    split
    · exact gives_bind (gives_readRoot _) fun got hgot => gives_afterRoot hgot got.2
    · exact gives_bind (gives_ok fun _ h => absurd h (Option.not_mem_none _)) fun got hgot => gives_afterRoot hgot got.2

end Docweave
