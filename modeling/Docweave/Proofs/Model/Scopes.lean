import Docweave.Proofs.Model.Scenes

set_option autoImplicit false

/-! # Which sources can be seen

A run only adds to the global sources, and the trees that it adds are those of the source directives
among its scenes, in order, but for those that belong to a query (`globals_run`). A record directive
sees the global sources and those of the innermost query around it, as far as they were declared since
that query was entered (`sources_at_getNode`).

Both follow from an account of the sources, kept from scene to scene: `Account` says what the scenes so
far have made of the sources, seen from a place in the run. -/

namespace Docweave

open Eval

/-! ## Trees that sources bring in -/

namespace Scene

/-- The tree that a source directive brings in when it is evaluated at a scene. -/
def tree? (loader : Loader) (scene : Scene) : Option Element :=
  match scene.moment with
  | .enters node _ _ session =>
    if node.element.kind = .source then
      match sourceResult loader scene.options node.element session with
      | .ok tree => tree
      | .error _ => none
    else none
  | .leaves _ => none

/-- The scene is about a child of a query, and the sources of queries are confined to them. -/
def isLocal (policy : LocalSources) (scene : Scene) : Bool :=
  policy == .confined && scene.around.atQuery

/-- The tree that a source directive adds to the global sources. -/
def globalTree? (loader : Loader) (policy : LocalSources) (scene : Scene) : Option Element :=
  if scene.isLocal policy then none else scene.tree? loader

/-- The tree that a source directive brings in as a child of a query. -/
def childTree? (loader : Loader) (query : Trail) (scene : Scene) : Option Element :=
  if scene.around.places = query.places then scene.tree? loader else none

variable {loader : Loader} {scene : Scene}

theorem isLocal_iff {policy : LocalSources} :
    scene.isLocal policy ↔ policy = .confined ∧ scene.around.atQuery := by
  simp [isLocal]

theorem globalTree?_of_none (h : scene.tree? loader = none) (policy : LocalSources) :
    scene.globalTree? loader policy = none := by
  unfold globalTree?
  rw [h]
  split <;> rfl

theorem filterMap_globalTree?_of_none (h : scene.tree? loader = none) (policy : LocalSources) :
    [scene].filterMap (globalTree? loader policy) = [] := by
  rw [List.filterMap_cons, globalTree?_of_none h, List.filterMap_nil]

theorem childTree?_of_none (h : scene.tree? loader = none) (query : Trail) :
    scene.childTree? loader query = none := by
  unfold childTree?
  rw [h]
  split <;> rfl

/-- What stands deeper is no child. -/
theorem childTree?_of_length_lt {query : Trail} (h : query.length < scene.around.length) :
    scene.childTree? loader query = none :=
  if_neg (Trail.places_ne h)

theorem tree?_of_ne_source {options : Options} {around : Trail} {node : Located}
    {record : Option Element} {place : SourcePlace} {session : Session}
    (hk : node.element.kind ≠ .source) :
    Scene.tree? loader ⟨options, around, .enters node record place session⟩ = none := if_neg hk

end Scene

/-! ## Local sources -/

/-- A query was entered, and since then neither entered again nor left. -/
def Underway (before : List Scene) (query : Trail) (since : List Scene) : Prop :=
  ∃ earlier options around node record place session,
    before = earlier ++ ⟨options, around, .enters node record place session⟩ :: since ∧
      node :: around = query ∧ ∀ scene ∈ since, scene.trail.places ≠ query.places

/-- The local sources after some scenes: inside a query the trees that its children have brought in
since it was entered, in order, and outside of queries what was there before. -/
def LocalTrees (loader : Loader) (outside : List Element) (before : List Scene) :
    Option Trail → List Element → Prop
  | none, locals => locals = outside
  | some query, locals =>
    ∃ since, Underway before query since ∧ locals = since.filterMap (Scene.childTree? loader query)

namespace LocalTrees

variable {loader : Loader} {outside locals : List Element} {before : List Scene}

/-- Inside a query that was just entered there are no local sources. -/
theorem entered (options : Options) (around : Trail) (node : Located) (record : Option Element)
    (place : SourcePlace) (session : Session) :
    LocalTrees loader outside (before ++ [⟨options, around, .enters node record place session⟩])
      (some (node :: around)) [] :=
  ⟨[], ⟨before, options, around, node, record, place, session, rfl, rfl, by simp⟩, rfl⟩

/-- Scenes that neither enter nor leave the query only add what its children bring in. -/
theorem append {query : Trail} (h : LocalTrees loader outside before (some query) locals)
    {more : List Scene} (hmore : ∀ scene ∈ more, scene.trail.places ≠ query.places) :
    LocalTrees loader outside (before ++ more) (some query)
      (locals ++ more.filterMap (Scene.childTree? loader query)) := by
  obtain ⟨since, ⟨earlier, options, around, node, record, place, session, rfl, hquery, hsince⟩, rfl⟩ := h
  refine ⟨since ++ more, ⟨earlier, options, around, node, record, place, session, ?_, hquery, ?_⟩, ?_⟩
  · rw [List.append_assoc, List.cons_append]
  · intro scene hmem
    rcases List.mem_append.1 hmem with hold | hnew
    · exact hsince scene hold
    · exact hmore scene hnew
  · rw [List.filterMap_append]

/-- Scenes below a place that bring in nothing there leave the local sources seen from it as they
were. -/
theorem of_none {around : Trail} (h : LocalTrees loader outside before around.query? locals)
    {more : List Scene} (hinside : ∀ scene ∈ more, around <:+ scene.around)
    (hnone : ∀ query, around.query? = some query → ∀ scene ∈ more,
      scene.childTree? loader query = none) :
    LocalTrees loader outside (before ++ more) around.query? locals := by
  cases hquery : around.query? with
  | none =>
    rw [hquery] at h
    exact h
  | some query =>
    rw [hquery] at h
    have hlength : query.length ≤ around.length := Trail.length_le_of_query? hquery
    have hmore := h.append fun scene hmem =>
      Trail.places_ne (Nat.lt_succ_of_le (hlength.trans (hinside scene hmem).length_le))
    have hempty : more.filterMap (Scene.childTree? loader query) = [] :=
      List.filterMap_eq_nil_iff.2 (hnone query hquery)
    rwa [hempty, List.append_nil] at hmore

theorem concat_of_none {around : Trail} (h : LocalTrees loader outside before around.query? locals)
    {scene : Scene} (haround : scene.around = around)
    (hnone : ∀ query, around.query? = some query → scene.childTree? loader query = none) :
    LocalTrees loader outside (before ++ [scene]) around.query? locals := by
  refine h.of_none ?_ ?_
  · intro scene' hmem
    obtain rfl := List.mem_singleton.1 hmem
    exact haround ▸ List.suffix_rfl
  · intro query hquery scene' hmem
    rw [List.mem_singleton.1 hmem]
    exact hnone query hquery

/-- A child of the query adds the tree that it brings in. -/
theorem concat_of_some {query : Trail} (h : LocalTrees loader outside before (some query) locals)
    {scene : Scene} {tree : Element} (haround : scene.around = query)
    (htree : scene.tree? loader = some tree) :
    LocalTrees loader outside (before ++ [scene]) (some query) (locals ++ [tree]) := by
  have htrail : ∀ scene' ∈ [scene], scene'.trail.places ≠ query.places := by
    intro scene' hmem
    rw [List.mem_singleton.1 hmem, Scene.trail, haround]
    exact Trail.places_ne (Nat.lt_succ_self _)
  have hchild : scene.childTree? loader query = some tree := by
    rw [Scene.childTree?, haround, if_pos rfl, htree]
  have hmore := h.append htrail
  rwa [List.filterMap_cons, hchild] at hmore

end LocalTrees

/-! ## The account of the sources -/

/-- The sources of a session are those at the start and what some scenes have added, as it is seen
from a place in the run. -/
structure Account (loader : Loader) (policy : LocalSources) (start : Sources) (before : List Scene)
    (around : Trail) (s : Session) : Prop where
  globals : s.sources.globals =
    start.globals ++ before.filterMap (Scene.globalTree? loader policy)
  locals : policy = .confined →
    LocalTrees loader start.locals before around.query? s.sources.locals

/-- The account holds when a node begins. -/
def Scene.Accounted (loader : Loader) (policy : LocalSources) (start : Sources) (before : List Scene)
    (scene : Scene) : Prop :=
  match scene.moment with
  | .enters _ _ _ session => Account loader policy start before scene.around session
  | .leaves _ => True

/-- Scenes that follow some others inside a place of the run lead from one account to another. -/
structure Passes (loader : Loader) (policy : LocalSources) (start : Sources) (around : Trail)
    (before scenes : List Scene) (s' : Session) : Prop where
  each : AtEach (fun before scene => before ++ [scene]) (Scene.Accounted loader policy start) before
    scenes
  inside : ∀ scene ∈ scenes, around <:+ scene.around
  ends : Account loader policy start (before ++ scenes) around s'

section Account

variable {loader : Loader} {policy : LocalSources} {start : Sources} {before : List Scene}
  {around : Trail} {s s' : Session}

theorem foldl_concat {α : Type} (before more : List α) :
    more.foldl (fun before a => before ++ [a]) before = before ++ more := by
  induction more generalizing before with
  | nil => simp
  | cons a rest ih => rw [List.foldl_cons, ih, List.append_assoc, List.singleton_append]

namespace Account

/-- An account is about the sources only. -/
theorem of_sources (h : Account loader policy start before around s) (hs : s'.sources = s.sources) :
    Account loader policy start before around s' := by
  constructor
  · rw [hs]
    exact h.globals
  · rw [hs]
    exact h.locals

/-- Seen from a node that is no query the sources are as they are around it. -/
theorem cons_iff {node : Located} (hk : node.element.kind ≠ .query) :
    Account loader policy start before (node :: around) s ↔
      Account loader policy start before around s := by
  have hquery : Trail.query? (node :: around) = around.query? := Trail.query?_of_ne_query hk
  constructor
  · rintro ⟨hglobals, hlocals⟩
    rw [hquery] at hlocals
    exact ⟨hglobals, hlocals⟩
  · rintro ⟨hglobals, hlocals⟩
    refine ⟨hglobals, ?_⟩
    rw [hquery]
    exact hlocals

/-- A scene that brings in nothing leaves the account as it was. -/
theorem concat_of_none (h : Account loader policy start before around s) {scene : Scene}
    (haround : scene.around = around) (hnone : scene.tree? loader = none)
    (hs : s'.sources = s.sources) :
    Account loader policy start (before ++ [scene]) around s' := by
  have hglobal := Scene.filterMap_globalTree?_of_none hnone policy
  constructor
  · rw [hs, h.globals, List.filterMap_append, hglobal, List.append_nil]
  · intro hpolicy
    rw [hs]
    exact (h.locals hpolicy).concat_of_none haround fun query _ => Scene.childTree?_of_none hnone query

/-- A tree that a child of a query brings in joins the local sources. -/
theorem concat_of_isLocal (h : Account loader policy start before around s) {scene : Scene}
    {tree : Element} (haround : scene.around = around) (htree : scene.tree? loader = some tree)
    (hlocal : scene.isLocal policy)
    (hs : s'.sources = { s.sources with locals := s.sources.locals ++ [tree] }) :
    Account loader policy start (before ++ [scene]) around s' := by
  have hglobal : scene.globalTree? loader policy = none := if_pos hlocal
  have hat : around.atQuery := haround ▸ (Scene.isLocal_iff.1 hlocal).2
  constructor
  · rw [hs, List.filterMap_append, List.filterMap_cons, hglobal, List.filterMap_nil, List.append_nil]
    exact h.globals
  · intro hpolicy
    have hlocals := h.locals hpolicy
    rw [Trail.query?_of_atQuery hat] at hlocals ⊢
    rw [hs]
    exact hlocals.concat_of_some haround htree

/-- What is inside a node at a place adds nothing to the local sources that are seen from the place. -/
theorem append_of_inside (h : Account loader policy start before around s) {node : Located}
    {more : List Scene} (hinside : ∀ scene ∈ more, node :: around <:+ scene.around)
    (hglobals : s'.sources.globals =
      start.globals ++ (before ++ more).filterMap (Scene.globalTree? loader policy))
    (hlocals : s'.sources.locals = s.sources.locals) :
    Account loader policy start (before ++ more) around s' := by
  refine ⟨hglobals, fun hpolicy => ?_⟩
  rw [hlocals]
  refine (h.locals hpolicy).of_none ?_ ?_
  · intro scene hmem
    exact (List.suffix_cons node around).trans (hinside scene hmem)
  · intro query hquery scene hmem
    have hlength : query.length ≤ around.length := Trail.length_le_of_query? hquery
    exact Scene.childTree?_of_length_lt (Nat.lt_of_le_of_lt hlength (hinside scene hmem).length_le)

/-- Any other tree that is brought in joins the global sources. -/
theorem concat_of_not_isLocal (h : Account loader policy start before around s) {scene : Scene}
    {tree : Element} (haround : scene.around = around) (htree : scene.tree? loader = some tree)
    (hlocal : ¬ scene.isLocal policy)
    (hs : s'.sources = { s.sources with globals := s.sources.globals ++ [tree] }) :
    Account loader policy start (before ++ [scene]) around s' := by
  have hglobal : scene.globalTree? loader policy = some tree := by
    rw [Scene.globalTree?, if_neg hlocal, htree]
  constructor
  · rw [hs, List.filterMap_append, List.filterMap_cons, hglobal, List.filterMap_nil,
      ← List.append_assoc, ← h.globals]
  · intro hpolicy
    have hat : ¬ around.atQuery := fun hat => hlocal (Scene.isLocal_iff.2 ⟨hpolicy, haround ▸ hat⟩)
    rw [hs]
    refine (h.locals hpolicy).concat_of_none haround fun query hquery => ?_
    -- the source stands deeper in the query than its children
    exact Scene.childTree?_of_length_lt (haround ▸ Trail.length_lt_of_query? hquery hat)

end Account

end Account

/-! ## Nodes -/

theorem Sources.register_eq (sources : Sources) (policy : LocalSources) (place : SourcePlace)
    (tree : Element) :
    sources.register policy place tree =
      if policy = .confined ∧ place = .inQuery then
        { sources with locals := sources.locals ++ [tree] }
      else { sources with globals := sources.globals ++ [tree] } := by
  cases place <;> cases policy <;> rfl

/-- Directives that are no sources leave the sources alone. -/
theorem ancillary_sources (loader : Loader) :
    Ancillary loader fun _ s s' => s'.sources = s.sources where
  refl _ := ⟨fun _ => rfl⟩
  trans _ := ⟨fun _ _ _ h h' => h'.trans h⟩
  told _ _ _ _ := rfl
  ran _ _ _ _ := rfl
  wrote _ _ _ := rfl

section Nodes

variable {setting : Setting} {start : Sources} {before : List Scene} {around : Trail} {node : Located}
  {record : Option Element} {place : SourcePlace} {s₀ : Session}
  (h : Account setting.loader setting.options.localSources start before around s₀)

include h

theorem Account.source (hk : node.element.kind = .source)
    (hplace : place = .inQuery ↔ around.atQuery) :
    Account setting.loader setting.options.localSources start
      (before ++ [⟨setting.options, around, .enters node record place s₀⟩]) around
      (outcome (evalSource setting place node.element) (s₀.enterNode node.element)).2 := by
  have hsources := (registers_evalSource setting place node.element (s₀.enterNode node.element)).sources
  have hresult : sourceResult setting.loader setting.options node.element (s₀.enterNode node.element) =
      sourceResult setting.loader setting.options node.element s₀ := rfl
  have htree : Scene.tree? setting.loader
      ⟨setting.options, around, .enters node record place s₀⟩ =
        match sourceResult setting.loader setting.options node.element s₀ with
        | .ok tree => tree
        | .error _ => none := if_pos hk
  rw [hresult] at hsources
  cases hout : sourceResult setting.loader setting.options node.element s₀ with
  | error failure =>
    rw [hout] at hsources htree
    exact h.concat_of_none rfl htree hsources
  | ok tree =>
    rw [hout] at hsources htree
    cases tree with
    | none => exact h.concat_of_none rfl htree hsources
    | some tree =>
      rw [Sources.after, Sources.register_eq] at hsources
      have hscene : Scene.isLocal setting.options.localSources
            ⟨setting.options, around, .enters node record place s₀⟩ ↔
          setting.options.localSources = .confined ∧ place = .inQuery := by
        rw [Scene.isLocal_iff, hplace]
      by_cases hlocal : setting.options.localSources = .confined ∧ place = .inQuery
      · rw [if_pos hlocal] at hsources
        exact h.concat_of_isLocal rfl htree (hscene.2 hlocal) hsources
      · rw [if_neg hlocal] at hsources
        exact h.concat_of_not_isLocal rfl htree (fun hl => hlocal (hscene.1 hl)) hsources

/-- The account at the beginning of the content of a node. -/
theorem Account.opened (hk : node.element.kind ≠ .model)
    (hplace : place = .inQuery ↔ around.atQuery) :
    Account setting.loader setting.options.localSources start
      (before ++ [⟨setting.options, around, .enters node record place s₀⟩]) (node :: around)
      (s₀.opened setting record place node.element) := by
  by_cases hsource : node.element.kind = .source
  · have hopened : s₀.opened setting record place node.element =
        (outcome (evalSource setting place node.element) (s₀.enterNode node.element)).2 := by
      unfold Session.opened
      rw [hsource]
    rw [hopened]
    exact (Account.cons_iff (by simp [hsource])).2 (Account.source h hsource hplace)
  have hnone := @Scene.tree?_of_ne_source setting.loader setting.options around node record place s₀
    hsource
  by_cases hquery : node.element.kind = .query
  · have hopened : s₀.opened setting record place node.element =
        ((s₀.enterNode node.element).told node.element.queryNotices).enterQuery
          node.element.queryPath := by
      unfold Session.opened
      rw [hquery]
    rw [hopened]
    constructor
    · exact (h.concat_of_none rfl hnone rfl).globals
    · intro _
      rw [Trail.query?_of_query hquery]
      exact LocalTrees.entered setting.options around node record place s₀
  · have hsources : (s₀.opened setting record place node.element).sources = s₀.sources := by
      unfold Session.opened
      cases hkind : node.element.kind with
      | source => exact absurd hkind hsource
      | query => exact absurd hkind hquery
      | model => exact absurd hkind hk
      | getNode => exact (ancillary_sources setting.loader).leads_recordsFor place node.element _
      | getContent =>
        exact (ancillary_sources setting.loader).leads_evalGetContent place node.element record _
      | action | literal | passThrough => rfl
    exact (Account.cons_iff hquery).2 (h.concat_of_none rfl hnone hsources)

/-- The account after a node, from the one after its content. -/
theorem Account.closed {content : List Scene} {s₂ : Session}
    (hcontent : Account setting.loader setting.options.localSources start
      (before ++ ⟨setting.options, around, .enters node record place s₀⟩ :: content) (node :: around) s₂)
    (hinside : ∀ scene ∈ content, node :: around <:+ scene.around) :
    Account setting.loader setting.options.localSources start
      (before ++ ⟨setting.options, around, .enters node record place s₀⟩ ::
        (content ++ [⟨setting.options, around, .leaves node⟩])) around
      (s₀.closed node.element s₂) := by
  have hleaves : Scene.tree? setting.loader ⟨setting.options, around, .leaves node⟩ = none := rfl
  have happend : before ++ ⟨setting.options, around, .enters node record place s₀⟩ ::
        (content ++ [⟨setting.options, around, .leaves node⟩]) =
      before ++ ⟨setting.options, around, .enters node record place s₀⟩ :: content ++
        [⟨setting.options, around, .leaves node⟩] := by
    rw [List.append_assoc, List.cons_append]
  rw [happend]
  by_cases hquery : node.element.kind = .query
  · -- what the query has declared is gone, and what was declared around it is there again
    have hclosed : s₀.closed node.element s₂ = s₀.leaveQuery s₂ := by
      unfold Session.closed
      rw [hquery]
    have hbegun : Account setting.loader setting.options.localSources start
        (before ++ [⟨setting.options, around, .enters node record place s₀⟩]) around s₀ :=
      h.concat_of_none rfl (Scene.tree?_of_ne_source (by simp [hquery])) rfl
    rw [List.append_cons] at hcontent
    have hended : Account setting.loader setting.options.localSources start
        (before ++ [⟨setting.options, around, .enters node record place s₀⟩] ++ content) around
        (s₀.leaveQuery s₂) := hbegun.append_of_inside hinside hcontent.globals rfl
    rw [hclosed, List.append_cons before]
    exact hended.concat_of_none rfl hleaves rfl
  · have hsources : (s₀.closed node.element s₂).sources = s₂.sources := by
      unfold Session.closed
      cases hkind : node.element.kind with
      | query => exact absurd hkind hquery
      | model | source | action | getNode | getContent | literal | passThrough => rfl
    exact ((Account.cons_iff hquery).1 hcontent).concat_of_none rfl hleaves hsources

end Nodes

/-! ## Runs -/

section Runs

variable {loader : Loader} {policy : LocalSources} {start : Sources} {before scenes more : List Scene}
  {around : Trail} {s s' s'' : Session}

namespace Passes

theorem nil (h : Account loader policy start before around s) :
    Passes loader policy start around before [] s :=
  ⟨trivial, by simp, by rwa [List.append_nil]⟩

theorem append (h : Passes loader policy start around before scenes s')
    (hmore : Passes loader policy start around (before ++ scenes) more s'') :
    Passes loader policy start around before (scenes ++ more) s'' where
  each := h.each.append (by rw [foldl_concat]; exact hmore.each)
  inside := by
    intro scene hmem
    rcases List.mem_append.1 hmem with hmem | hmem
    · exact h.inside scene hmem
    · exact hmore.inside scene hmem
  ends := by
    rw [← List.append_assoc]
    exact hmore.ends

/-- What is inside a node that is no query is inside the place where the node stands. -/
theorem outward {node : Located} (hk : node.element.kind ≠ .query)
    (h : Passes loader policy start (node :: around) before scenes s') :
    Passes loader policy start around before scenes s' where
  each := h.each
  inside := fun scene hmem => (List.suffix_cons node around).trans (h.inside scene hmem)
  ends := (Account.cons_iff hk).1 h.ends

end Passes

end Runs

section Models

variable {setting : Setting} {start : Sources} {model : Element} {outer : Trail}
  {scenes : Trail → Options → Element → Session → List Scene}
  (hnested : ∀ {around : Trail} {before : List Scene} (node : Element) {s : Session},
    Account setting.loader setting.options.localSources start before around s →
      Passes setting.loader setting.options.localSources start around before
        (nestedCourse setting.options (scenes around) node s)
        (outcome (evalNestedModel setting node) s).2)

include hnested

/-- What is done before the content of a node passes to the account at the beginning of the content. -/
theorem passes_opened {around : Trail} {before : List Scene} {node : Located}
    {record : Option Element} {place : SourcePlace} {s₀ : Session}
    (h : Account setting.loader setting.options.localSources start before around s₀)
    (hplace : place = .inQuery ↔ around.atQuery) :
    Passes setting.loader setting.options.localSources start (node :: around)
      (before ++ [⟨setting.options, around, .enters node record place s₀⟩])
      (Scene.nested scenes ⟨setting.options, around, .enters node record place s₀⟩)
      (s₀.opened setting record place node.element) := by
  unfold Scene.nested
  simp only
  by_cases hk : node.element.kind = .model
  · have hbegun : Account setting.loader setting.options.localSources start
        (before ++ [⟨setting.options, around, .enters node record place s₀⟩]) around
        (s₀.enterNode node.element) :=
      h.concat_of_none rfl (Scene.tree?_of_ne_source (by simp [hk])) rfl
    have hopened : s₀.opened setting record place node.element =
        (outcome (evalNestedModel setting node.element) (s₀.enterNode node.element)).2 := by
      unfold Session.opened
      rw [hk]
    rw [if_pos hk, hopened]
    exact hnested node.element ((Account.cons_iff (by simp [hk])).2 hbegun)
  · rw [if_neg hk]
    exact .nil (h.opened hk hplace)

/-- A node passes from the account at its beginning to the one at its end, if its content does. -/
theorem passes_node {around : Trail} {before content : List Scene} {node : Located}
    {record : Option Element} {place : SourcePlace} {s₀ s₂ : Session}
    (h : Account setting.loader setting.options.localSources start before around s₀)
    (hplace : place = .inQuery ↔ around.atQuery)
    (hcontent : ∀ before', Account setting.loader setting.options.localSources start before'
        (node :: around) (s₀.opened setting record place node.element) →
      Passes setting.loader setting.options.localSources start (node :: around) before' content s₂) :
    Passes setting.loader setting.options.localSources start around before
      (Scene.unfolded scenes ⟨setting.options, around, .enters node record place s₀⟩ ++
        (content ++ [⟨setting.options, around, .leaves node⟩])) (s₀.closed node.element s₂) := by
  have hopened := @passes_opened setting start scenes hnested around before node record place s₀ h hplace
  have hcourse := hopened.append (hcontent _ hopened.ends)
  have hends := hcourse.ends
  rw [List.append_assoc, List.singleton_append] at hends
  rw [Scene.unfolded, List.cons_append, ← List.append_assoc]
  refine ⟨⟨h, hcourse.each.append ⟨trivial, trivial⟩⟩, ?_, h.closed hends hcourse.inside⟩
  intro scene hmem
  rcases List.mem_cons.1 hmem with rfl | hmem
  · exact List.suffix_rfl
  · rcases List.mem_append.1 hmem with hmem | hmem
    · exact (List.suffix_cons node around).trans (hcourse.inside scene hmem)
    · obtain rfl := List.mem_singleton.1 hmem
      exact List.suffix_rfl

/-- Children of a node pass from one account to another as the evaluation goes. -/
theorem Follows.passes {deep : Bool} {place : SourcePlace} {ascent : List Nat} {s s' : Session}
    {moments : List Moment} (h : Follows setting model deep place ascent s moments s')
    (hplace : place = .inQuery ↔ Trail.atQuery (model.trailTo ascent ++ outer)) {before : List Scene}
    (hs : Account setting.loader setting.options.localSources start before
      (model.trailTo ascent ++ outer) s) :
    Passes setting.loader setting.options.localSources start (model.trailTo ascent ++ outer) before
      (moments.flatMap fun m => (Scene.of setting.options model outer m).unfolded scenes) s' := by
  induction h generalizing before with
  | nil => exact .nil hs
  | @node deep place ascent i node record s s₀ s₂ s' content rest hat hbegins _ _ ihcontent ihrest =>
    have htrail : model.trailTo (i :: ascent) ++ outer =
        ⟨i :: ascent, node⟩ :: (model.trailTo ascent ++ outer) := by
      rw [Element.trailTo_cons hat, List.cons_append]
    have hs₀ : Account setting.loader setting.options.localSources start before
        (model.trailTo ascent ++ outer) s₀ := by
      refine hs.of_sources ?_
      rw [← hbegins]
      unfold Session.enterChild
      split <;> rfl
    have hchild : node.kind.contentPlace = .inQuery ↔
        Trail.atQuery (model.trailTo (i :: ascent) ++ outer) := by
      rw [htrail]
      show _ ↔ (node.kind == .query) = true
      cases node.kind <;> decide
    have hnode := @passes_node setting start scenes hnested _ before _ ⟨i :: ascent, node⟩ record place
      s₀ s₂ hs₀ hplace fun before' hbefore' => htrail ▸ ihcontent hchild (htrail ▸ hbefore')
    have hleft : ((s₀.closed node s₂).leaveChild deep node).sources = (s₀.closed node s₂).sources := by
      unfold Session.leaveChild
      split <;> rfl
    have hrest := ihrest hplace (hnode.ends.of_sources hleft)
    have hleaves : (Scene.of setting.options model outer (.leaves ⟨i :: ascent, node⟩)).unfolded scenes =
        [⟨setting.options, model.trailTo ascent ++ outer, .leaves ⟨i :: ascent, node⟩⟩] := rfl
    have hwhole := hnode.append hrest
    rw [List.append_assoc, List.append_assoc] at hwhole
    rw [List.flatMap_cons, List.flatMap_append, List.flatMap_cons, hleaves]
    exact hwhole

/-- A model passes from one account to another. -/
theorem passes_evalModel {before : List Scene} {s : Session}
    (hs : Account setting.loader setting.options.localSources start before outer s) :
    Passes setting.loader setting.options.localSources start outer before
      ((courseModel setting model s).flatMap fun m =>
        (Scene.of setting.options model outer m).unfolded scenes)
      (outcome (evalModel setting model) s).2 := by
  by_cases hk : model.kind = .model
  · have hquery : (Located.root model).element.kind ≠ .query := by simp [Located.root, hk]
    have hplace : SourcePlace.anywhere = .inQuery ↔ Trail.atQuery (model.trailTo [] ++ outer) := by
      show _ ↔ (model.kind == .query) = true
      rw [hk]
      decide
    obtain ⟨s', hfollows, hwritten⟩ := @exists_follows_evalModel setting model s
    have hpasses := (hfollows.passes hnested hplace ((Account.cons_iff hquery).2 hs)).outward hquery
    refine ⟨hpasses.each, hpasses.inside, hpasses.ends.of_sources ?_⟩
    rcases hwritten with hend | ⟨output, hend⟩
    · rw [hend]
    · rw [hend]
      exact (ancillary_sources setting.loader).leads_writeOutput .anywhere setting.options model output s'
  · have hcourse : courseModel setting model s = [] := if_neg hk
    have heval : evalModel setting model = throw (.invalidRoot model.name.display) := if_neg hk
    rw [hcourse, heval]
    exact .nil hs

end Models

/-- A nested model passes from one account to another, if every model that is run there does. -/
theorem passes_evalNestedModel {setting : Setting} {run : Options → Element → Eval String}
    {start : Sources} {around : Trail} {scenes : Options → Element → Session → List Scene}
    (hrun : setting.nested = some run)
    (hmodel : ∀ {options : Options} {before : List Scene} {s : Session} (model : Element),
      Account setting.loader options.localSources start before around s →
        Passes setting.loader options.localSources start around before (scenes options model s)
          (outcome (run options model) s).2)
    {before : List Scene} (node : Element) {s : Session}
    (hs : Account setting.loader setting.options.localSources start before around s) :
    Passes setting.loader setting.options.localSources start around before
      (nestedCourse setting.options scenes node s) (outcome (evalNestedModel setting node) s).2 := by
  unfold nestedCourse
  cases hm : nestedModel? setting.options s.world.files node with
  | none =>
    obtain ⟨notices, _, htold⟩ := exists_told_of_nestedModel?_eq_none hrun hm
    rw [htold]
    exact .nil (hs.of_sources rfl)
  | some nested =>
    obtain ⟨options, model⟩ := nested
    obtain ⟨baseDir, rfl⟩ := exists_baseDir_of_nestedModel? hm
    have hbegun : Account setting.loader setting.options.localSources start before around s.enterModel :=
      hs.of_sources rfl
    have hpasses := @hmodel { setting.options with baseDir := baseDir } _ _ model hbegun
    -- what is put back after the nested model leaves the sources
    refine ⟨hpasses.each, hpasses.inside, hpasses.ends.of_sources ?_⟩
    obtain ⟨notices, -, htold⟩ := exists_told_evalNestedModel hrun hm
    rw [htold]
    rfl

/-- The scenes of a model pass from one account to another. -/
theorem passes_evalModelAt (loader : Loader) (levels : Nat) {start : Sources} {outer : Trail}
    {options : Options} {before : List Scene} {s : Session} (model : Element)
    (hs : Account loader options.localSources start before outer s) :
    Passes loader options.localSources start outer before (scenesAt loader levels outer options model s)
      (outcome (evalModelAt loader levels options model) s).2 := by
  induction levels generalizing outer options before s model with
  | zero =>
    rw [evalModelAt_eq]
    refine @passes_evalModel (settingAt loader 0 options) start model outer _ ?_ before s hs
    intro around before node s hs
    rw [evalNestedModel_of_none rfl, outcome_throw]
    unfold nestedCourse
    cases nestedModel? (settingAt loader 0 options).options s.world.files node with
    | none => exact .nil hs
    | some nested => exact .nil hs
  | succ levels ih =>
    rw [evalModelAt_eq]
    refine @passes_evalModel (settingAt loader (levels + 1) options) start model outer _ ?_ before s hs
    intro around before node s hs
    exact passes_evalNestedModel rfl (fun model hs => ih model hs) node hs

namespace Interpreter

theorem passes_run (interpreter : Interpreter) (model : Element) :
    Passes interpreter.loader interpreter.options.localSources interpreter.session.sources [] []
      (interpreter.scenes model) (interpreter.run model).2.session :=
  passes_evalModelAt interpreter.loader interpreter.options.maxNesting model
    ⟨(List.append_nil _).symm, fun _ => rfl⟩

/-- A run adds to the global sources, in order, the trees of the source directives that it evaluates,
but for those of the children of queries if these are confined, and does nothing else to them, whether
it fails or not. -/
theorem globals_run (interpreter : Interpreter) (model : Element) :
    (interpreter.run model).2.session.sources.globals =
      interpreter.session.sources.globals ++ (interpreter.scenes model).filterMap
        (Scene.globalTree? interpreter.loader interpreter.options.localSources) :=
  (interpreter.passes_run model).ends.globals

end Interpreter

/-! ## Records -/

/-- The records that a directive renders, drawn from some trees; nothing if its path leads nowhere. -/
def recordsAmong (trees : List Element) (node : Element) : Eval (Option (String × List Element)) := do
  let path := (node.attr? AttrName.path).getD (← get).context.queryPath
  if path.isEmpty then
    tell .getNodeWithoutPath
    return none
  else match ElementPath.parse path with
    | .error error => do
      tell (.getNodeBadPath error)
      return none
    | .ok compiled => do
      let found := trees.flatMap compiled.select
      tell (.recordsFound path found.length)
      return some (← transform found)

theorem outcome_recordsFor_visible (node : Element) (s : Session) :
    outcome (recordsFor node) s = outcome (recordsAmong s.sources.visible node) s := by
  unfold recordsFor recordsWith recordsAmong
  rw [outcome_bind, outcome_bind, outcome_get]
  simp only
  split
  · rfl
  · cases ElementPath.parse ((node.attr? AttrName.path).getD s.context.queryPath) with
    | error error => rfl
    | ok compiled => rfl

namespace Interpreter

/-- A record directive sees the global sources, and of the local ones just those that the children of
the innermost query around it have brought in since that query was entered; outside of queries it sees
no local ones. Its records are drawn from these sources. -/
theorem sources_at_getNode {interpreter : Interpreter} (h : interpreter.Reachable)
    (hpolicy : interpreter.options.localSources = .confined) {model : Element}
    {before after : List Scene} {options : Options} {around : Trail} {node : Located}
    {record : Option Element} {place : SourcePlace} {session : Session}
    (hscenes : interpreter.scenes model =
      before ++ ⟨options, around, .enters node record place session⟩ :: after)
    (hkind : node.element.kind = .getNode) :
    session.sources.globals = interpreter.session.sources.globals ++
        before.filterMap (Scene.globalTree? interpreter.loader .confined) ∧
      LocalTrees interpreter.loader [] before around.query? session.sources.locals ∧
      ∀ setting, outcome (evalNode setting record place node.element) session =
        outcome (recordsAmong (session.sources.globals ++ session.sources.locals) node.element >>=
            renderRecords node.element fun found => evalEach setting deepen (some found) .anywhere
              node.element.children)
          (session.enterNode node.element) := by
  have heach := (interpreter.passes_run model).each
  rw [hscenes] at heach
  have haccounted := heach.at_split
  rw [foldl_concat, List.nil_append, hpolicy] at haccounted
  obtain ⟨hglobals, hlocals⟩ : Account interpreter.loader .confined interpreter.session.sources before
    around session := haccounted
  have hseen := hlocals rfl
  rw [h.atRest.locals] at hseen
  refine ⟨hglobals, hseen, fun setting => ?_⟩
  rw [outcome_evalNode]
  unfold evalDirective
  rw [hkind]
  simp only
  rw [evalGetNode_eq, outcome_bind, outcome_bind, outcome_recordsFor_visible]
  rfl

/-- A loader that names the root of a source after its location. -/
def echoLoader : Loader where
  files _ _ root _ := ⟨.ok (.ofTag root), [], false⟩
  location _ location _ _ := ⟨.ok (.ofTag location), [], false⟩

/-- A source in a query in a query with a source and a record directive. -/
def nestedQueries : Element :=
  let source (location : String) :=
    directive .source [⟨AttrName.type, "url"⟩, ⟨AttrName.path, location⟩] []
  directive .model [] [directive .query [⟨AttrName.path, "./a"⟩]
    [source "outer", directive .query [⟨AttrName.path, "./b"⟩] [source "inner"],
      directive .getNode [] []]]

/-- After the inner query only the source of the outer one is seen. -/
theorem sources_at_getNode_after_query :
    let interpreter := create .standard echoLoader .empty
    ∃ before options around node record place session after,
      interpreter.scenes nestedQueries =
          before ++ ⟨options, around, .enters node record place session⟩ :: after ∧
        LocalTrees echoLoader [] before around.query? session.sources.locals ∧
        session.sources.locals = [.ofTag "outer"] := by
  intro interpreter
  obtain ⟨before, options, around, record, place, session, after, hscenes, hlocals⟩ :
      ∃ before options around record place session after,
        interpreter.scenes nestedQueries =
            before ++ ⟨options, around, .enters ⟨[2, 0], directive .getNode [] []⟩ record place session⟩ ::
              after ∧
          session.sources.locals = [.ofTag "outer"] :=
    ⟨[_, _, _, _, _, _, _], _, _, _, _, _, _, rfl, rfl⟩
  have hreachable : interpreter.Reachable := ⟨_, _, _, [], rfl⟩
  have hsees := sources_at_getNode hreachable rfl hscenes rfl
  exact ⟨before, options, around, _, record, place, session, after, hscenes, hsees.2.1, hlocals⟩

end Interpreter

end Docweave
