import Docweave.Model.Session
import Docweave.Tree.Printer

set_option autoImplicit false

/-! # What each directive does

The directives one by one. Where a directive has content, the evaluation of the content is handed in
as an action, so that each rule stands on its own. -/

namespace Docweave

open Docweave.Text Eval

/-! ## Sources -/

/-- Where a source is declared. -/
inductive SourcePlace where
  /-- Anywhere but directly inside a query. -/
  | anywhere
  /-- Directly inside a query. -/
  | inQuery
deriving DecidableEq, Repr

/-- What holds throughout one model. -/
structure Setting where
  /-- The options. -/
  options : Options
  /-- How sources are loaded. -/
  loader : Loader
  /-- How a nested model is run with options of its own; nothing if models are nested too deep. -/
  nested : Option (Options → Element → Eval String)

/-- The root of a source from one document that has no name. -/
def unnamedSource : String := "source"

/-- The sources with one more, among those that its declaration belongs to. -/
def Sources.register (sources : Sources) (policy : LocalSources) (place : SourcePlace) (tree : Element) :
    Sources :=
  match place, policy with
  | .inQuery, .confined => { sources with locals := sources.locals ++ [tree] }
  | _, _ => { sources with globals := sources.globals ++ [tree] }

/-- A tree becomes a source. -/
def registerSource (setting : Setting) (place : SourcePlace) (tree : Element) : Eval Unit :=
  modify fun s =>
    { s with sources := s.sources.register setting.options.localSources place tree }

/-- A loaded tree becomes a source. A source that cannot be loaded is left out. -/
def loadSource (setting : Setting) (place : SourcePlace) (load : Surroundings → Loading) : Eval Unit := do
  let world := (← get).world
  let loading := load world
  tellAll loading.notices
  if loading.drained then modify fun s => { s with world := { s.world with input := .text "" } }
  match loading.result with
  | .ok tree => registerSource setting place tree
  | .error failure =>
    if failure.isRecoverable then tell (.sourceSkipped failure) else throw failure

/-- A source is registered, if it says what is needed for its kind. -/
def evalSource (setting : Setting) (place : SourcePlace) (node : Element) : Eval Unit :=
  let base := setting.options.baseDir
  let declared := node.attr? AttrName.type
  match declared.bind SourceKind.ofWord? with
  | none => tell (.unknownSourceKind declared)
  | some .files =>
    match node.attr? AttrName.path, node.attr? AttrName.name with
    | some path, some name =>
      loadSource setting place fun world =>
        setting.loader.files world (base.join ⟨path⟩) name (isFlagSet (node.attr? AttrName.recursive))
    | _, _ => tell .filesSourceIncomplete
  | some .url =>
    match node.attr? AttrName.path with
    | some path =>
      loadSource setting place fun world =>
        setting.loader.location world path base ((node.attr? AttrName.name).getD unnamedSource)
    | none => tell .urlSourceWithoutPath
  | some .custom =>
    match node.attr? AttrName.name with
    | some name => do
      let output ← runScript node.textOrEmpty (.ofTag name)
      if !output.text.isEmpty then tell (.sourceTextDropped name)
      registerSource setting place output.tree
    | none => tell .customSourceWithoutName

/-! ## Queries and actions -/

/-- The only type of query. -/
def fetchQuery : String := "fetch"

/-- The content of a query sees its path, and no local sources but its own. -/
def evalQuery (node : Element) (body : Eval String) : Eval String := do
  let path ← match node.attr? AttrName.path with
    | some path => pure (String.ofList (dropFinal '/' path.toList))
    | none => do
      tell .queryWithoutPath
      pure ""
  match node.attr? AttrName.type with
  | some declared => if declared != fetchQuery then tell (.unknownQueryKind declared)
  | none => pure ()
  within
    (fun s =>
      { s with
        context := { s.context with queryPath := path }
        sources := { s.sources with locals := [] } })
    (fun outer s =>
      { s with
        context := { s.context with queryPath := outer.context.queryPath }
        sources := { s.sources with locals := outer.sources.locals } })
    body

/-- The context with the transform of an action. -/
def Context.beginAction (context : Context) (action : Option ActionKind) (key : Option String) :
    Context :=
  { context with action := action, key := key }

/-- The context without a transform. -/
def Context.endAction (context : Context) : Context := { context with action := none, key := none }

/-- The content of an action has its transform, and nothing after it has one. -/
def evalAction (node : Element) (body : Eval String) : Eval String := do
  let action ← match node.attr? AttrName.type with
    | none => pure none
    | some declared =>
      match ActionKind.ofWord? declared with
      | some action => pure (some action)
      | none => do
        tell (.unknownActionKind declared)
        pure none
  within
    (fun s =>
      { s with
        context := s.context.beginAction action (node.attr? AttrName.key)
        runner :=
          if action = some .custom then s.runner.prime node.textOrEmpty else s.runner })
    (fun _ s => { s with context := s.context.endAction, runner := s.runner.clearPrimed })
    body

/-! ## Records -/

/-- The root that the records of a script are bound under. -/
def recordRoot : String := "root"

/-- The records after a sort of the current action, which needs a key that is a name. -/
def sortByKey (key : Option String) (descending : Bool) (records : List Element) :
    Eval (List Element) :=
  match key with
  | none => do
    tell .sortWithoutKey
    return records
  | some key =>
    match sortRecords key descending records with
    | .ok sorted => return sorted
    | .error error => do
      tell (.cannotSort key error)
      return records

/-- The records after the current action, and the text that its script emits. -/
def transform (records : List Element) : Eval (String × List Element) := do
  let context := (← get).context
  match context.action with
  | none => return ("", records)
  | some .sort => return ("", ← sortByKey context.key false records)
  | some .reverseSort => return ("", ← sortByKey context.key true records)
  | some .custom => do
    let output ← runPrimed (.ofChildren recordRoot records)
    return (output.text, output.tree.children)

/-- The records at the path of a directive, or of the query around it, each rendered by the content
of the directive or, if it has none, as it is. -/
def evalGetNode (node : Element) (render : Element → Eval String) : Eval String := do
  let path := (node.attr? AttrName.path).getD (← get).context.queryPath
  if path.isEmpty then
    tell .getNodeWithoutPath
    return ""
  else match ElementPath.parse path with
    | .error error => do
      tell (.getNodeBadPath error)
      return ""
    | .ok compiled => do
      let found := (← get).sources.visible.flatMap compiled.select
      tell (.recordsFound path found.length)
      let (text, records) ← transform found
      if node.isLeaf then return text ++ String.join (records.map Element.toXml)
      else return text ++ String.join (← records.mapM render)

/-- The text at a path in the current record. -/
def evalGetContent (node : Element) (record : Option Element) : Eval String :=
  match node.attr? AttrName.path, record with
  | none, _ => do
    tell .getContentWithoutPath
    return ""
  | some path, none => do
    tell (.getContentWithoutRecord path)
    return ""
  | some path, some record =>
    match ElementPath.parse path with
    | .ok compiled => return (compiled.firstText? record).getD ""
    | .error error => do
      tell (.getContentBadPath error)
      return ""

/-! ## Copied text and elements -/

/-- The text of a literal and its children as they are. -/
def literalText (node : Element) : String :=
  node.textOrEmpty ++ String.join (node.children.map Element.toXml)

/-- A text several times over. -/
def repeatText (s : String) (n : Nat) : String := String.join (List.replicate n s)

/-- An element with its own tags around its content. From the second level on, each tag starts a line
of its own. -/
def evalPassThrough (options : Options) (node : Element) (body : Eval String) : Eval String := do
  let depth := (← get).context.depth
  let indent := repeatText options.indent (depth - 1)
  let opening := (if depth > 1 then "\n" else "") ++ indent
  if node.isLeaf then return opening ++ .ofList (node.startTag .closes)
  else
    let content ← body
    return opening ++ .ofList (node.startTag .opens) ++ content ++ "\n" ++ indent ++
      .ofList node.endTag

/-- A child of a model, a query or a record directive: an element that is copied goes one level
deeper. -/
def deepen (node : Element) (act : Eval String) : Eval String :=
  if node.kind = .passThrough then
    within
      (fun s => { s with context := { s.context with depth := s.context.depth + 1 } })
      (fun _ s => { s with context := { s.context with depth := s.context.depth - 1 } })
      act
  else act

/-- The output of a directive starts a line of its own inside a copied element. -/
def startsLine (kind : DirectiveKind) : Bool :=
  kind == .getNode || kind == .getContent || kind == .model

/-- A child of a copied element. -/
def onOwnLine (node : Element) (act : Eval String) : Eval String := do
  let data ← act
  return if !data.isEmpty && startsLine node.kind then "\n" ++ data else data

/-! ## Models -/

/-- A nested model sees the sources around it, but has a context and scripts of its own. -/
def apart (act : Eval String) : Eval String :=
  within (fun s => { s with context := .initial, runner := .fresh })
    (fun outer s => { s with context := outer.context, runner := outer.runner }) act

/-- A nested model: the one in the file that its path names, or else its own content. One that
cannot be read is left out. -/
def evalNestedModel (setting : Setting) (node : Element) : Eval String :=
  let options := setting.options
  match setting.nested with
  | none => throw (.nestingTooDeep options.maxNesting)
  | some run =>
    match node.attr? AttrName.path with
    | some path =>
      recover .nestedModelSkipped do
        let resolved := options.baseDir.join ⟨path⟩
        match loadModel (← get).world.files resolved with
        | .error failure => throw failure
        | .ok model =>
          apart (run { options with baseDir := resolved.parent?.getD options.baseDir } model)
    | none =>
      if node.isLeaf then do
        tell .nestedModelEmpty
        return ""
      else recover .nestedModelSkipped (apart (run options node))

/-- The output of a model goes to the file that the model names, if outputs are wanted. -/
def writeOutput (options : Options) (model : Element) (output : String) : Eval Unit :=
  match model.attr? AttrName.output with
  | none => pure ()
  | some target =>
    let path := options.baseDir.join ⟨target⟩
    if options.writeOutput then do
      match (← get).world.files.writeText path output with
      | .error problem => throw (.io problem)
      | .ok files =>
        modify fun s => { s with world := { s.world with files := files } }
        tell (.wroteOutput path)
    else tell (.keptOutput path)

end Docweave
