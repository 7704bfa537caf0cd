import Docweave.Proofs.Gives
import Docweave.Proofs.Xml.DocumentMarkup
import Mathlib.Data.List.Forall2

set_option autoImplicit false

/-! # The start tags of a document

The start tags of a text are those among its tokens; each stands in the scope of the start tags that
are not yet closed (`startTags`). The reader makes an element of each, in this order
(`resolves_of_readDocument`), and a walk through the element tree meets the elements in this order
again (`map_shown_toElement`). -/

namespace Docweave.Xml

open Docweave.Text

/-! ## Tokens -/

/-- The tokens of a text, up to a place where there is none. -/
def tokens (s : List Char) : List Token :=
  match s with
  | [] => []
  | c :: rest =>
    match _h : readToken c rest with
    | .error _ => []
    | .ok (token, tail) => token :: tokens tail
termination_by s.length
decreasing_by
  have := length_of_readToken _h
  simp only [List.length_cons]; omega

theorem tokens_cons_eq {c : Char} {rest tail : List Char} {token : Token}
    (h : readToken c rest = .ok (token, tail)) : tokens (c :: rest) = token :: tokens tail := by
  rw [tokens]
  split
  · next heq => rw [h] at heq; cases heq
  · next heq => rw [h] at heq; cases heq; rfl

theorem exists_eq_of_readComment {s rest : List Char} {token : Token}
    (h : readComment s = .ok (token, rest)) : ∃ data, token = .comment data := by
  obtain ⟨⟨data, after⟩, -, h⟩ := bind_eq_ok_iff.1 h
  dsimp only at h
  split at h
  · cases h
  · cases h
    exact ⟨_, rfl⟩

theorem exists_eq_of_readInstruction {s rest : List Char} {token : Token}
    (h : readInstruction s = .ok (token, rest)) : ∃ target data, token = .instruction target data := by
  unfold readInstruction at h
  split at h
  · cases h
  · obtain ⟨⟨target, after⟩, -, h⟩ := bind_eq_ok_iff.1 h
    obtain ⟨⟨data, after⟩, -, h⟩ := bind_eq_ok_iff.1 h
    cases h
    exact ⟨_, _, rfl⟩

/-- Only a start tag is taken for one. -/
theorem readStartTag_of_readToken {c : Char} {rest tail : List Char} {tag : Option StartTag}
    (h : readToken c rest = .ok (.start tag, tail)) : readStartTag rest = .ok (tag, tail) := by
  unfold readToken at h
  split at h
  · split at h
    · cases h
    · obtain ⟨data, heq⟩ := exists_eq_of_readComment h
      cases heq
    · obtain ⟨data, -, h⟩ := bind_eq_ok_iff.1 h
      cases h
    · cases h
    · obtain ⟨target, data, heq⟩ := exists_eq_of_readInstruction h
      cases heq
    · obtain ⟨name, -, h⟩ := bind_eq_ok_iff.1 h
      obtain ⟨after, -, h⟩ := bind_eq_ok_iff.1 h
      cases h
    · obtain ⟨⟨got, after⟩, hread, heq⟩ := map_eq_ok_iff.1 h
      cases heq
      exact hread
  · obtain ⟨⟨raw, after⟩, -, h⟩ := bind_eq_ok_iff.1 h
    dsimp only at h
    split at h
    · cases h
    · obtain ⟨data, -, h⟩ := bind_eq_ok_iff.1 h
      cases h

/-- A start tag among the tokens stands somewhere in the text. -/
theorem exists_readStartTag_of_mem_tokens {tag : StartTag} {s : List Char}
    (h : .start (some tag) ∈ tokens s) : ∃ t rest, readStartTag t = .ok (some tag, rest) := by
  fun_induction tokens s with
  | case1 => exact absurd h List.not_mem_nil
  | case2 => exact absurd h List.not_mem_nil
  | case3 c text token tail hread ih =>
    rcases List.mem_cons.1 h with rfl | h
    · exact ⟨text, tail, readStartTag_of_readToken hread⟩
    · exact ih h

/-! ## Start tags and where they stand -/

/-- A start tag and the declarations that hold around it. -/
structure PlacedTag where
  /-- The start tag. -/
  tag : StartTag
  /-- The declarations that hold where the element stands. -/
  outer : Scope

namespace PlacedTag

/-- The declarations that hold at the element and inside it. -/
def scope (placed : PlacedTag) : Scope := Scope.inside placed.tag.declared placed.outer

/-- The reader takes the tag for a start tag of such an element. -/
def Resolves (placed : PlacedTag) (head : ElementHead) : Prop :=
  placed.tag.resolve placed.outer = .ok head

end PlacedTag

/-- The start tags among tokens that stand inside elements with the given scopes, innermost first. -/
def placeTags (scopes : List Scope) : List Token → List PlacedTag
  | [] => []
  | .start (some tag) :: rest =>
    let placed : PlacedTag := ⟨tag, scopes.headD []⟩
    placed :: placeTags (if tag.closed then scopes else placed.scope :: scopes) rest
  | .stop _ _ :: rest => placeTags scopes.tail rest
  | .start none :: rest | .text _ :: rest | .comment _ :: rest | .instruction _ _ :: rest =>
    placeTags scopes rest

/-- The start tags of a text, in the order in which they stand there. -/
def startTags (s : List Char) : List PlacedTag :=
  match skipPrologue s with
  | .ok rest => placeTags [] (tokens rest)
  | .error _ => []

/-! ## Elements of a document -/

mutual

/-- The heads of the elements of a node, in document order. -/
def Node.heads : Node → List ElementHead
  | .element head content => head :: headsOf content
  | .text _ | .comment _ | .instruction _ _ => []

/-- The heads of the elements of some nodes, in document order. -/
def headsOf : List Node → List ElementHead
  | [] => []
  | node :: rest => node.heads ++ headsOf rest

end

/-- The heads of the elements of a document, in document order. -/
def Document.heads (document : Document) : List ElementHead :=
  document.head :: headsOf document.content

theorem headsOf_append (before after : List Node) :
    headsOf (before ++ after) = headsOf before ++ headsOf after := by
  induction before with
  | nil => rfl
  | cons node rest ih => rw [List.cons_append, headsOf, headsOf, ih, List.append_assoc]

namespace OpenElement

/-- The heads of an open element and of the elements read so far in it. -/
def heads (e : OpenElement) : List ElementHead := e.head :: headsOf e.content.reverse

theorem heads_push (e : OpenElement) (node : Node) : (e.push node).heads = e.heads ++ node.heads := by
  unfold push heads
  split
  · next more data before heq =>
    simp [heq, headsOf_append, headsOf, Node.heads]
  · simp [headsOf_append, headsOf]

theorem heads_close (e : OpenElement) : e.close.heads = e.heads := by
  rw [close, Node.heads, heads]

end OpenElement

/-- The heads read so far, where the given elements are not closed, the innermost first. -/
def headsRead (unclosed : List OpenElement) : List ElementHead :=
  unclosed.reverse.flatMap OpenElement.heads

theorem headsRead_cons (e : OpenElement) (outer : List OpenElement) :
    headsRead (e :: outer) = headsRead outer ++ e.heads := by
  simp [headsRead]

theorem headsRead_push (e : OpenElement) (node : Node) (outer : List OpenElement) :
    headsRead (e.push node :: outer) = headsRead (e :: outer) ++ node.heads := by
  rw [headsRead_cons, headsRead_cons, e.heads_push, List.append_assoc]

/-- An element that is closed goes on being one of those read. -/
theorem headsRead_close (e parent : OpenElement) (outer : List OpenElement) :
    headsRead (parent.push e.close :: outer) = headsRead (e :: parent :: outer) := by
  rw [headsRead_push, e.heads_close, headsRead_cons e]

/-! ## Reading -/

theorem scope_of_resolve {tag : StartTag} {outer : Scope} {head : ElementHead}
    (h : tag.resolve outer = .ok head) : head.scope = Scope.inside tag.declared outer := by
  obtain ⟨attributes, -, h⟩ := bind_eq_ok_iff.1 h
  obtain ⟨uri, -, h⟩ := bind_eq_ok_iff.1 h
  cases h
  rfl

/-- From `s` up to the end of the root there are the start tags of the elements of `document` that are
not among those read so far. -/
def ReadsOn (unclosed : List OpenElement) (s : List Char) (document : Document) (rest : List Char) :
    Prop :=
  ∃ placed new, document.heads = headsRead unclosed ++ new ∧
    List.Forall₂ PlacedTag.Resolves placed new ∧
    placeTags (unclosed.map (·.head.scope)) (tokens s) = placed ++ placeTags [] (tokens rest)

namespace ReadsOn

variable {unclosed later : List OpenElement} {s tail rest : List Char} {document : Document}

/-- A token that starts no element. -/
theorem of_eq (h : ReadsOn later tail document rest) (hheads : headsRead later = headsRead unclosed)
    (htags : placeTags (unclosed.map (·.head.scope)) (tokens s) =
      placeTags (later.map (·.head.scope)) (tokens tail)) : ReadsOn unclosed s document rest := by
  obtain ⟨placed, new, hdocument, hnew, hplaced⟩ := h
  exact ⟨placed, new, hheads ▸ hdocument, hnew, htags.trans hplaced⟩

/-- A start tag. -/
theorem of_cons (h : ReadsOn later tail document rest) {placed : PlacedTag} {head : ElementHead}
    (hhead : placed.Resolves head) (hheads : headsRead later = headsRead unclosed ++ [head])
    (htags : placeTags (unclosed.map (·.head.scope)) (tokens s) =
      placed :: placeTags (later.map (·.head.scope)) (tokens tail)) :
    ReadsOn unclosed s document rest := by
  obtain ⟨others, new, hdocument, hnew, hplaced⟩ := h
  refine ⟨placed :: others, head :: new, ?_, .cons hhead hnew, ?_⟩
  · rw [hdocument, hheads, List.append_assoc, List.singleton_append]
  · rw [htags, hplaced, List.cons_append]

end ReadsOn

theorem readsOn_of_readContent {current : OpenElement} {outer : List OpenElement}
    {s rest : List Char} {document : Document}
    (h : readContent current outer s = .ok (document, rest)) :
    ReadsOn (current :: outer) s document rest := by
  fun_induction readContent current outer s with
  | case1 => cases h
  | case2 => cases h
  | case3 current outer c text tail htoken ih =>
    refine (ih h).of_eq rfl ?_
    rw [tokens_cons_eq htoken, placeTags]
  | case4 => cases h
  | case5 current outer c text tag tail htoken head hhead hclosed ih =>
    have hplaced : PlacedTag.Resolves ⟨tag, current.head.scope⟩ head := hhead
    refine (ih h).of_cons hplaced ?_ ?_
    · rw [headsRead_push, Node.heads, headsOf]
    · rw [tokens_cons_eq htoken, placeTags, if_pos hclosed]
      rfl
  | case6 current outer c text tag tail htoken head hhead hopen ih =>
    have hplaced : PlacedTag.Resolves ⟨tag, current.head.scope⟩ head := hhead
    refine (ih h).of_cons hplaced ?_ ?_
    · rw [headsRead_cons]
      rfl
    · rw [tokens_cons_eq htoken, placeTags, if_neg hopen]
      simp only [List.map_cons, scope_of_resolve hhead]
      rfl
  | case7 current c text start tail htoken =>
    cases h
    refine ⟨[], [], ?_, .nil, ?_⟩
    · rw [List.append_nil, headsRead_cons]
      rfl
    · rw [tokens_cons_eq htoken, placeTags]
      rfl
  | case8 current c text start tail parent outer htoken ih =>
    refine (ih h).of_eq (headsRead_close current parent outer) ?_
    rw [tokens_cons_eq htoken, placeTags]
    rfl
  | case9 => cases h
  | case10 | case11 | case12 =>
    rename_i htoken ih
    refine (ih h).of_eq ?_ ?_
    · rw [headsRead_push, Node.heads, List.append_nil]
    · rw [tokens_cons_eq htoken, placeTags]
      rfl

/-! ## Around the root -/

/-- Blanks start no element. -/
theorem placeTags_skipSpaces (scopes : List Scope) {s : List Char}
    (hrest : ∀ c ∈ (skipSpaces s).head?, c = '<') :
    placeTags scopes (tokens s) = placeTags scopes (tokens (skipSpaces s)) := by
  have hparts : s.takeWhile isSpace ++ skipSpaces s = s := List.takeWhile_append_dropWhile
  cases hblanks : s.takeWhile isSpace with
  | nil =>
    rw [hblanks, List.nil_append] at hparts
    rw [hparts]
  | cons c blanks =>
    have hspaces : ∀ d ∈ c :: blanks, isSpace d = true :=
      hblanks ▸ List.all_eq_true.1 List.all_takeWhile
    have hspace (d : Char) (hd : d ∈ c :: blanks) :
        isXmlChar d = true ∧ escapeTextChar d = [d] ∧ d ≠ '<' := by
      have hd := hspaces d hd
      simp only [isSpace, Bool.or_eq_true, beq_iff_eq] at hd
      rcases hd with ((rfl | rfl) | rfl) | rfl
      all_goals decide
    -- blanks are escaped as they are, so they are read like any text
    have hescape : escapeText (c :: blanks) = c :: blanks := by
      rw [escapeText, List.flatMap_congr fun d hd => (hspace d hd).2.1, List.flatMap_singleton']
    have hread := readText_escapeText (fun d hd => (hspace d hd).1) hrest
    rw [hescape, List.cons_append] at hread
    have htoken : readToken c (blanks ++ skipSpaces s) = readText (c :: (blanks ++ skipSpaces s)) :=
      if_neg (hspace c List.mem_cons_self).2.2
    rw [hblanks, List.cons_append] at hparts
    rw [← hparts, tokens_cons_eq (htoken.trans hread), placeTags, hparts]

/-- Neither do comments and processing instructions. -/
theorem placeTags_skipMisc (scopes : List Scope) {s rest : List Char} (h : skipMisc s = .ok rest)
    (hrest : ∀ c ∈ rest.head?, c = '<') :
    placeTags scopes (tokens s) = placeTags scopes (tokens rest) := by
  have hmark {s more : List Char} (hskip : skipSpaces s = '<' :: more) :
      placeTags scopes (tokens s) = placeTags scopes (tokens ('<' :: more)) := by
    rw [← hskip]
    refine placeTags_skipSpaces scopes ?_
    rw [hskip]
    exact fun c hc => (Option.some.inj hc).symm
  fun_induction skipMisc s with
  | case1 => cases h
  | case2 s tail hskip token later hread ih =>
    have htoken : readToken '<' ('!' :: '-' :: '-' :: tail) = .ok (token, later) := hread
    obtain ⟨data, rfl⟩ := exists_eq_of_readComment hread
    rw [hmark hskip, tokens_cons_eq htoken, placeTags, ih h]
  | case3 => cases h
  | case4 s tail hskip token later hread ih =>
    have htoken : readToken '<' ('?' :: tail) = .ok (token, later) := hread
    obtain ⟨target, data, rfl⟩ := exists_eq_of_readInstruction hread
    rw [hmark hskip, tokens_cons_eq htoken, placeTags, ih h]
  | case5 s hno hno' =>
    cases h
    exact placeTags_skipSpaces scopes hrest

/-! ## The whole document -/

/-- From the root on the start tags are those of the elements of the document. -/
theorem resolves_of_readRoot {s rest : List Char} {document : Document}
    (h : readRoot s = .ok (some document, rest)) :
    ∃ placed, List.Forall₂ PlacedTag.Resolves placed document.heads ∧
      placeTags [] (tokens ('<' :: s)) = placed ++ placeTags [] (tokens rest) := by
  obtain ⟨⟨tag, after⟩, htag, hroot⟩ := bind_eq_ok_iff.1 h
  cases tag with
  | none => cases hroot
  | some tag =>
    obtain ⟨head, hhead, hroot⟩ := bind_eq_ok_iff.1 hroot
    have hplaced : PlacedTag.Resolves ⟨tag, []⟩ head := hhead
    have htoken : readToken '<' s = .ok (.start (some tag), after) := by
      obtain ⟨name, hname, -⟩ := bind_eq_ok_iff.1 htag
      obtain ⟨c, more, rfl, hc⟩ := exists_cons_of_readQName hname
      rw [readToken_of_isNameStart hc, htag]
      rfl
    rw [tokens_cons_eq htoken, placeTags]
    by_cases hclosed : tag.closed = true
    · rw [if_pos hclosed] at hroot
      cases hroot
      exact ⟨[⟨tag, []⟩], .cons hplaced .nil, by rw [if_pos hclosed]; rfl⟩
    · rw [if_neg hclosed] at hroot
      obtain ⟨⟨root, tail⟩, hcontent, hroot⟩ := bind_eq_ok_iff.1 hroot
      cases hroot
      obtain ⟨placed, new, hheads, hnew, htags⟩ := readsOn_of_readContent hcontent
      refine ⟨⟨tag, []⟩ :: placed, ?_, ?_⟩
      · rw [hheads]
        exact .cons hplaced hnew
      · rw [if_neg hclosed]
        simp only [List.map_cons, List.map_nil, scope_of_resolve hhead] at htags
        exact congrArg _ htags

/-- Behind the root there is no element. -/
theorem document_of_afterRoot {root : Option Document} {rest : List Char} {document : Document}
    (h : (do
      let rest ← skipMisc rest
      if rest.isEmpty then
        match root with
        | some root => return root
        | none => .error ⟨.noRoot, 0⟩
      else stopAt .unknownToken rest) = (.ok document : Except Fault Document)) :
    root = some document ∧ placeTags [] (tokens rest) = [] := by
  obtain ⟨final, hfinal, h⟩ := bind_eq_ok_iff.1 h
  cases final with
  | nil =>
    cases root with
    | none => cases h
    | some root =>
      cases h
      refine ⟨rfl, ?_⟩
      rw [placeTags_skipMisc [] hfinal fun c hc => absurd hc (Option.not_mem_none c), tokens]
      rfl
  | cons c final => cases h

/-- The reader makes the elements of a document of the start tags of the text, in their order. -/
theorem resolves_of_readDocument {s : List Char} {document : Document}
    (h : readDocument s = .ok document) :
    List.Forall₂ PlacedTag.Resolves (startTags s) document.heads := by
  obtain ⟨start, hstart, h⟩ := bind_eq_ok_iff.1 h
  obtain ⟨rest, hrest, h⟩ := bind_eq_ok_iff.1 h
  rw [startTags, hstart]
  dsimp only at h ⊢
  split at h
  · cases h
  · split at h
    · next tail _ =>
      obtain ⟨⟨root, after⟩, hroot, h⟩ := bind_eq_ok_iff.1 h
      obtain ⟨rfl, hafter⟩ := document_of_afterRoot h
      obtain ⟨placed, hplaced, htags⟩ := resolves_of_readRoot hroot
      rw [placeTags_skipMisc [] hrest fun c hc => (Option.some.inj hc).symm, htags, hafter,
        List.append_nil]
      exact hplaced
    · obtain ⟨⟨root, after⟩, hroot, h⟩ := bind_eq_ok_iff.1 h
      cases hroot
      obtain ⟨final, -, h⟩ := bind_eq_ok_iff.1 h
      split at h
      all_goals cases h

/-! ## The element tree -/

/-- What a head gives an element to be shown with: its name and its attributes. -/
def ElementHead.shown (head : ElementHead) : QName × List Attribute :=
  (elementName head.scope head.name, head.attributeList)

/-- The name and the attributes of an element. -/
def shown (e : Element) : QName × List Attribute := (e.name, e.attributes)

mutual

/-- In front of what stands behind it, a node adds its elements in document order. -/
theorem map_shown_before (after : Inside) : (node : Node) →
    (Element.preorder (node.before after).children).map shown =
      node.heads.map ElementHead.shown ++ (Element.preorder after.children).map shown
  | .element head content => by
    rw [Node.before, Element.preorder, Element.descendants, List.cons_append, List.map_cons,
      List.map_append, map_shown_insideOf content, Node.heads]
    rfl
  | .text _ | .comment _ | .instruction _ _ => by rw [Node.before, Node.heads]; rfl

theorem map_shown_insideOf : (nodes : List Node) →
    (Element.preorder (insideOf nodes).children).map shown =
      (headsOf nodes).map ElementHead.shown
  | [] => rfl
  | node :: rest => by
    rw [insideOf, map_shown_before (insideOf rest) node, map_shown_insideOf rest, headsOf,
      List.map_append]

end

/-- A walk through the element tree of a document meets the elements in their order. -/
theorem map_shown_toElement (document : Document) :
    (document.toElement :: document.toElement.descendants).map shown =
      document.heads.map ElementHead.shown := by
  rw [List.map_cons, Element.descendants_eq]
  exact congrArg _ (map_shown_insideOf document.content)

end Docweave.Xml
