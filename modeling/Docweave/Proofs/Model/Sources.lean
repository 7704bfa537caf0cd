import Docweave.Proofs.Model.Course
import Docweave.Proofs.Model.Failures
import Docweave.Proofs.Xml.RoundTrip

set_option autoImplicit false

/-! # What source directives bring in

A source directive brings in one tree, or nothing, or it fails. `sourceResult` says which of these it
is, and the laws beside it say what the directive then makes of the session.

A directive that is left out, a source or a nested model, leaves no trace but notices:
`outcome_evalNode_of_leftOut` says so for every cause. -/

namespace Docweave

open Eval

/-! ## Sessions that only differ in what was told and read -/

/-- The later session has the sources, the context, the scripts and the files of the earlier one. -/
structure Session.Undisturbed (s s' : Session) : Prop where
  sources : s'.sources = s.sources
  context : s'.context = s.context
  runner : s'.runner = s.runner
  files : s'.world.files = s.world.files

/-- The session after something was loaded. -/
def Session.loaded (loading : Loading) (s : Session) : Session :=
  if loading.drained then
    { s.told loading.notices with world := { s.world with input := .text "" } }
  else s.told loading.notices

theorem undisturbed_told (notices : List Notice) (s : Session) : s.Undisturbed (s.told notices) :=
  ⟨rfl, rfl, rfl, rfl⟩

theorem undisturbed_loaded (loading : Loading) (s : Session) : s.Undisturbed (s.loaded loading) := by
  unfold Session.loaded
  split
  · exact ⟨rfl, rfl, rfl, rfl⟩
  · exact undisturbed_told _ s

/-! ## Results of source directives -/

/-- What a loader brings in: a failure that only costs the source its effect is none. -/
def Loading.tree? (loading : Loading) : Except Failure (Option Element) :=
  match loading.result with
  | .ok tree => .ok (some tree)
  | .error failure => if failure.isRecoverable then .ok none else .error failure

/-- The kind of a source directive. -/
def Element.sourceKind? (node : Element) : Option SourceKind :=
  (node.attr? AttrName.type).bind SourceKind.ofWord?

/-- What a source directive brings in when it is evaluated in a session: a tree, or nothing if it is
left out, or a failure that ends the evaluation. -/
def sourceResult (loader : Loader) (options : Options) (node : Element) (s : Session) :
    Except Failure (Option Element) :=
  match node.sourceKind?, node.attr? AttrName.path, node.attr? AttrName.name with
  | some .files, some path, some name =>
    (loader.files s.world (options.baseDir.join ⟨path⟩) name
      (isFlagSet (node.attr? AttrName.recursive))).tree?
  | some .url, some path, name =>
    (loader.location s.world path options.baseDir (name.getD unnamedSource)).tree?
  | some .custom, _, some name =>
    (s.runner.run node.textOrEmpty (.ofTag name)).1.map fun output => some output.tree
  | _, _, _ => .ok none

/-- The sources after a directive that brings in something. -/
def Sources.after (sources : Sources) (policy : LocalSources) (place : SourcePlace) :
    Except Failure (Option Element) → Sources
  | .ok (some tree) => sources.register policy place tree
  | _ => sources

/-- An action ends as a result says, and registers the tree that it brings in, and no other one. -/
structure Registers (setting : Setting) (place : SourcePlace) (act : Eval Unit) (s : Session)
    (result : Except Failure (Option Element)) : Prop where
  ends : (outcome act s).1 = result.map fun _ => ()
  sources : (outcome act s).2.sources = s.sources.after setting.options.localSources place result

section Loading

variable (setting : Setting) (place : SourcePlace) (load : Surroundings → Loading) (s : Session)

theorem outcome_loadSource :
    outcome (loadSource setting place load) s =
      match (load s.world).result with
      | .ok tree => outcome (registerSource setting place tree) (s.loaded (load s.world))
      | .error failure =>
        if failure.isRecoverable then
          (.ok (), (s.loaded (load s.world)).told [.sourceSkipped failure])
        else (.error failure, s.loaded (load s.world)) := by
  unfold loadSource Session.loaded
  simp only [outcome_bind, outcome_get, outcome_tellAll]
  cases (load s.world).result with
  | ok tree =>
    by_cases hd : (load s.world).drained
    · simp only [if_pos hd]
      rfl
    · simp only [if_neg hd]
  | error failure =>
    by_cases hd : (load s.world).drained
    · simp only [if_pos hd]
      split <;> rfl
    · simp only [if_neg hd]
      split <;> rfl

/-- A source that is not loaded leaves everything as it was. -/
theorem outcome_loadSource_of_none (h : (load s.world).tree? = .ok none) :
    ∃ s', outcome (loadSource setting place load) s = (.ok (), s') ∧ s.Undisturbed s' := by
  have hloaded := undisturbed_loaded (load s.world) s
  rw [outcome_loadSource]
  unfold Loading.tree? at h
  cases hresult : (load s.world).result with
  | ok tree => simp [hresult] at h
  | error failure =>
    by_cases hf : failure.isRecoverable
    · simp only [if_pos hf]
      exact ⟨_, rfl, hloaded.sources, hloaded.context, hloaded.runner, hloaded.files⟩
    · simp [hresult, hf] at h

theorem registers_loadSource :
    Registers setting place (loadSource setting place load) s (load s.world).tree? := by
  have hloaded := (undisturbed_loaded (load s.world) s).sources
  have hout := outcome_loadSource setting place load s
  unfold Loading.tree?
  cases hresult : (load s.world).result with
  | ok tree =>
    simp only [hresult] at hout
    refine ⟨by rw [hout]; rfl, ?_⟩
    rw [hout]
    show (s.loaded (load s.world)).sources.register setting.options.localSources place tree = _
    rw [hloaded]
    rfl
  | error failure =>
    simp only [hresult] at hout
    by_cases hf : failure.isRecoverable
    · rw [if_pos hf] at hout
      simp only [if_pos hf]
      exact ⟨by rw [hout]; rfl, by rw [hout]; exact hloaded⟩
    · rw [if_neg hf] at hout
      simp only [if_neg hf]
      exact ⟨by rw [hout]; rfl, by rw [hout]; exact hloaded⟩

end Loading

section Directives

variable (setting : Setting) (place : SourcePlace) (node : Element) (s : Session)

theorem registers_customSource (name : String) :
    Registers setting place (do
        let output ← runScript node.textOrEmpty (.ofTag name)
        if !output.text.isEmpty then tell (.sourceTextDropped name)
        registerSource setting place output.tree) s
      ((s.runner.run node.textOrEmpty (.ofTag name)).1.map fun output => some output.tree) := by
  cases hrun : s.runner.run node.textOrEmpty (.ofTag name) with
  | mk result runner =>
    have hscript : outcome (runScript node.textOrEmpty (.ofTag name)) s =
        (result, { s.told (s.runner.compileNotices node.textOrEmpty) with runner := runner }) := by
      unfold runScript
      simp only [outcome_bind, outcome_get, outcome_tellAll, outcome_onRunner, Session.told, hrun]
    cases result with
    | error failure => constructor <;> rw [outcome_bind, hscript] <;> rfl
    | ok output =>
      by_cases ht : !output.text.isEmpty
      · constructor <;> rw [outcome_bind, hscript] <;> simp only [if_pos ht] <;> rfl
      · constructor <;> rw [outcome_bind, hscript] <;> simp only [if_neg ht] <;> rfl

theorem registers_evalSource :
    Registers setting place (evalSource setting place node) s
      (sourceResult setting.loader setting.options node s) := by
  unfold evalSource sourceResult Element.sourceKind?
  simp only
  cases (node.attr? AttrName.type).bind SourceKind.ofWord? with
  | none => exact ⟨rfl, rfl⟩
  | some kind =>
    cases kind with
    | files =>
      cases node.attr? AttrName.path with
      | none => exact ⟨rfl, rfl⟩
      | some path =>
        cases node.attr? AttrName.name with
        | none => exact ⟨rfl, rfl⟩
        | some name => exact registers_loadSource setting place _ s
    | url =>
      cases node.attr? AttrName.path with
      | none => exact ⟨rfl, rfl⟩
      | some path => exact registers_loadSource setting place _ s
    | custom =>
      cases node.attr? AttrName.name with
      | none => cases node.attr? AttrName.path <;> exact ⟨rfl, rfl⟩
      | some name =>
        have hcustom := registers_customSource setting place node s name
        cases node.attr? AttrName.path <;> exact hcustom

/-- A source directive that brings in nothing leaves everything as it was. -/
theorem outcome_evalSource_of_none
    (h : sourceResult setting.loader setting.options node s = .ok none) :
    ∃ s', outcome (evalSource setting place node) s = (.ok (), s') ∧ s.Undisturbed s' := by
  have htold : ∀ notice, ∃ s', outcome (tell notice) s = (.ok (), s') ∧ s.Undisturbed s' :=
    fun notice => ⟨_, rfl, undisturbed_told [notice] s⟩
  unfold sourceResult Element.sourceKind? at h
  unfold evalSource
  simp only
  cases hkind : (node.attr? AttrName.type).bind SourceKind.ofWord? with
  | none => exact htold _
  | some kind =>
    cases kind with
    | files =>
      cases hpath : node.attr? AttrName.path with
      | none => exact htold _
      | some path =>
        cases hname : node.attr? AttrName.name with
        | none => exact htold _
        | some name =>
          simp only [hkind, hpath, hname] at h
          exact outcome_loadSource_of_none setting place _ s h
    | url =>
      cases hpath : node.attr? AttrName.path with
      | none => exact htold _
      | some path =>
        simp only [hkind, hpath] at h
        exact outcome_loadSource_of_none setting place _ s h
    | custom =>
      cases hname : node.attr? AttrName.name with
      | none => exact htold _
      | some name =>
        -- a script that runs gives a tree, and the failures of scripts are not skipped
        simp only [hkind, hname] at h
        cases hrun : (s.runner.run node.textOrEmpty (.ofTag name)).1 with
        | error failure => simp [hrun, Except.map] at h
        | ok output => simp [hrun, Except.map] at h

end Directives

/-! ## Directives that are left out -/

/-- The cause for which a source is left out. -/
inductive SourceLeftOut (loader : Loader) (options : Options) (world : Surroundings) (node : Element) :
    Prop
  /-- The type is missing or unknown. -/
  | unknown (hkind : node.sourceKind? = none)
  | filesIncomplete (hkind : node.sourceKind? = some .files)
    (hmissing : node.attr? AttrName.path = none ∨ node.attr? AttrName.name = none)
  | urlIncomplete (hkind : node.sourceKind? = some .url) (hmissing : node.attr? AttrName.path = none)
  | customIncomplete (hkind : node.sourceKind? = some .custom)
    (hmissing : node.attr? AttrName.name = none)
  /-- The loader fails in a way that only costs the source its effect. -/
  | filesNotLoaded {path name : String} {failure : Failure}
    (hkind : node.sourceKind? = some .files) (hpath : node.attr? AttrName.path = some path)
    (hname : node.attr? AttrName.name = some name)
    (hload : (loader.files world (options.baseDir.join ⟨path⟩) name
      (isFlagSet (node.attr? AttrName.recursive))).result = .error failure)
    (hrecoverable : failure.isRecoverable)
  | urlNotLoaded {path : String} {failure : Failure}
    (hkind : node.sourceKind? = some .url) (hpath : node.attr? AttrName.path = some path)
    (hload : (loader.location world path options.baseDir
      ((node.attr? AttrName.name).getD unnamedSource)).result = .error failure)
    (hrecoverable : failure.isRecoverable)

/-- The cause for which a nested model is left out. -/
inductive ModelLeftOut (options : Options) (files : Disk) (node : Element) : Prop
  /-- The file cannot be read. -/
  | unreadable {path : String} {problem : FileProblem} (hpath : node.attr? AttrName.path = some path)
    (hread : files.readText (options.baseDir.join ⟨path⟩) = .error problem)
  /-- The file holds no document. -/
  | malformed {path text : String} {error : ParseError} (hpath : node.attr? AttrName.path = some path)
    (hread : files.readText (options.baseDir.join ⟨path⟩) = .ok text)
    (hparse : Element.parse 0 text = .error error)
  /-- The root of the document is no model. -/
  | otherRoot {path text : String} {root : Element} (hpath : node.attr? AttrName.path = some path)
    (hread : files.readText (options.baseDir.join ⟨path⟩) = .ok text)
    (hparse : Element.parse 0 text = .ok root) (hroot : root.kind ≠ .model)
  /-- There is neither a path nor a child. -/
  | empty (hpath : node.attr? AttrName.path = none) (hleaf : node.isLeaf)

/-- The directive is left out where models may be nested to the given number of levels. -/
def LeftOut (loader : Loader) (levels : Nat) (options : Options) (world : Surroundings)
    (node : Element) : Prop :=
  node.kind = .source ∧ SourceLeftOut loader options world node ∨
    node.kind = .model ∧ 0 < levels ∧ ModelLeftOut options world.files node

section LeftOut

variable {loader : Loader} {options : Options} {node : Element} {s : Session}

theorem sourceResult_of_leftOut (h : SourceLeftOut loader options s.world node) :
    sourceResult loader options node s = .ok none := by
  cases h with
  | unknown hkind => simp only [sourceResult, hkind]
  | filesIncomplete hkind hmissing =>
    rcases hmissing with hnone | hnone
    · simp only [sourceResult, hkind, hnone]
    · cases hpath : node.attr? AttrName.path <;> simp only [sourceResult, hkind, hpath, hnone]
  | urlIncomplete hkind hmissing => simp only [sourceResult, hkind, hmissing]
  | customIncomplete hkind hmissing => simp only [sourceResult, hkind, hmissing]
  | filesNotLoaded hkind hpath hname hload hrecoverable =>
    simp only [sourceResult, hkind, hpath, hname, Loading.tree?, hload, if_pos hrecoverable]
  | urlNotLoaded hkind hpath hload hrecoverable =>
    simp only [sourceResult, hkind, hpath, Loading.tree?, hload, if_pos hrecoverable]

/-- After a failure that only costs the directive its effect the session is as the failure has left
it. -/
theorem outcome_recover_of_error {notice : Failure → Notice} {act : Eval String} {failure : Failure}
    {s' : Session} (h : outcome act s = (.error failure, s')) (hf : failure.isRecoverable) :
    outcome (recover notice act) s = (.ok "", s'.told [notice failure]) := by
  unfold recover
  rw [outcome_tryCatch, h]
  simp only [if_pos hf]
  rfl

theorem outcome_evalNestedModel_of_loadModel {levels : Nat} {path : String} {failure : Failure}
    (hpath : node.attr? AttrName.path = some path)
    (hload : loadModel s.world.files (options.baseDir.join ⟨path⟩) = .error failure) :
    outcome (evalNestedModel (settingAt loader (levels + 1) options) node) s =
      (.ok "", s.told [.nestedModelSkipped failure]) := by
  unfold evalNestedModel settingAt
  simp only [hpath]
  refine outcome_recover_of_error ?_ (isRecoverable_of_loadModel hload)
  rw [outcome_bind, outcome_get]
  simp only [hload]
  rfl

theorem outcome_evalNestedModel_of_root {levels : Nat} {path : String} {root : Element}
    (hpath : node.attr? AttrName.path = some path)
    (hload : loadModel s.world.files (options.baseDir.join ⟨path⟩) = .ok root)
    (hroot : root.kind ≠ .model) :
    outcome (evalNestedModel (settingAt loader (levels + 1) options) node) s =
      (.ok "", s.told [.nestedModelSkipped (.invalidRoot root.name.display)]) := by
  unfold evalNestedModel settingAt
  simp only [hpath]
  refine outcome_recover_of_error ?_ rfl
  rw [outcome_bind, outcome_get]
  simp only [hload, evalModelAt_of_ne_model loader levels _ hroot]
  rfl

theorem outcome_evalNestedModel_of_leftOut {levels : Nat}
    (h : ModelLeftOut options s.world.files node) :
    ∃ notices, outcome (evalNestedModel (settingAt loader (levels + 1) options) node) s =
      (.ok "", s.told notices) := by
  cases h with
  | @unreadable path problem hpath hread =>
    have hload : loadModel s.world.files (options.baseDir.join ⟨path⟩) =
        .error (.modelLoad (options.baseDir.join ⟨path⟩).text problem) := by
      simp only [loadModel, hread]
    exact ⟨_, outcome_evalNestedModel_of_loadModel hpath hload⟩
  | @malformed path text error hpath hread hparse =>
    have hload : loadModel s.world.files (options.baseDir.join ⟨path⟩) =
        .error (.modelParse (options.baseDir.join ⟨path⟩).text error) := by
      simp only [loadModel, hread, hparse, Except.mapError]
    exact ⟨_, outcome_evalNestedModel_of_loadModel hpath hload⟩
  | @otherRoot path text root hpath hread hparse hroot =>
    have hload : loadModel s.world.files (options.baseDir.join ⟨path⟩) = .ok root := by
      simp only [loadModel, hread, hparse, Except.mapError]
    exact ⟨_, outcome_evalNestedModel_of_root hpath hload hroot⟩
  | empty hpath hleaf =>
    refine ⟨[.nestedModelEmpty], ?_⟩
    unfold evalNestedModel settingAt
    simp only [hpath, if_pos hleaf]
    rfl

/-- A source or a nested model that is left out gives an empty output and leaves everything as it was:
the sources, the context, the scripts with all their counts, and the files. -/
theorem outcome_evalNode_of_leftOut {levels : Nat} (h : LeftOut loader levels options s.world node)
    (record : Option Element) (place : SourcePlace) :
    ∃ s', outcome (evalNode (settingAt loader levels options) record place node) s = (.ok "", s') ∧
      s.Undisturbed s' := by
  rw [outcome_evalNode]
  unfold evalDirective
  rcases h with ⟨hk, hsource⟩ | ⟨hk, hlevels, hmodel⟩
  · -- what is told at the beginning makes no difference for the source
    have hresult : sourceResult loader options node (s.enterNode node) = .ok none :=
      sourceResult_of_leftOut hsource
    obtain ⟨s', hout, hs⟩ := outcome_evalSource_of_none (settingAt loader levels options) place node
      (s.enterNode node) hresult
    refine ⟨s', ?_, hs.sources, hs.context, hs.runner, hs.files⟩
    rw [hk]
    simp only
    rw [outcome_bind, hout]
    rfl
  · obtain ⟨below, rfl⟩ := Nat.exists_eq_add_one.2 hlevels
    obtain ⟨notices, hout⟩ := @outcome_evalNestedModel_of_leftOut loader options node
      (s.enterNode node) below hmodel
    rw [hk]
    exact ⟨_, hout, rfl, rfl, rfl, rfl⟩

/-- The directory holds a document that is no model. -/
theorem outcome_evalNode_of_leftOut_page :
    let node := directive .model [⟨AttrName.path, "page.xml"⟩] []
    let s : Session := .initial ⟨.around (.directory [("page.xml", .file (.text "<page/>"))]), .text ""⟩
    LeftOut .aggregator 1 .standard s.world node ∧
      ∃ s', outcome (evalNode (settingAt .aggregator 1 .standard) none .anywhere node) s =
        (.ok "", s') ∧ s.Undisturbed s' := by
  intro node s
  have hjoin : Options.standard.baseDir.join ⟨"page.xml"⟩ = ⟨"./page.xml"⟩ := by decide +kernel
  have hread : s.world.files.readText (Options.standard.baseDir.join ⟨"page.xml"⟩) =
      .ok "<page/>" := by
    rw [hjoin]
    rw [Disk.readText, Disk.open?_eq_follow (by decide)]
    rfl
  have hparse : Element.parse 0 "<page/>" = .ok (.ofTag "page") :=
    Element.eq_ok_of_leafParts rfl (by decide +kernel)
  have hleft : LeftOut .aggregator 1 .standard s.world node :=
    .inr ⟨rfl, Nat.one_pos, .otherRoot rfl hread hparse (by decide)⟩
  exact ⟨hleft, outcome_evalNode_of_leftOut hleft none .anywhere⟩

end LeftOut

end Docweave
