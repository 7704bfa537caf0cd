import Docweave.Model.Directives

set_option autoImplicit false

/-! # Evaluating a model

The elements of a model are evaluated in document order, and their outputs joined. Within one model
the evaluation follows the tree; for nested models it goes down one level of those that are left. -/

namespace Docweave

open Eval

mutual

/-- The output of an element of a model, for a record if there is one. -/
def evalNode (setting : Setting) (record : Option Element) (place : SourcePlace) : Element → Eval String
  | node@⟨_, _, _, _, children⟩ => do
    tell (.evaluating node.name.display node.kind)
    match node.kind with
    | .source => do
      evalSource setting place node
      return ""
    | .query => evalQuery node (evalEach setting deepen record .inQuery children)
    | .action => evalAction node (evalEach setting (fun _ act => act) record .anywhere children)
    | .getNode =>
      evalGetNode node fun found => evalEach setting deepen (some found) .anywhere children
    | .getContent => evalGetContent node record
    | .literal => return literalText node
    | .model => evalNestedModel setting node
    | .passThrough =>
      evalPassThrough setting.options node (evalEach setting onOwnLine record .anywhere children)

/-- The outputs of elements one after the other, each evaluated as `frame` says. -/
def evalEach (setting : Setting) (frame : Element → Eval String → Eval String)
    (record : Option Element) (place : SourcePlace) : List Element → Eval String
  | [] => return ""
  | node :: rest => do
    let output ← frame node (evalNode setting record place node)
    let more ← evalEach setting frame record place rest
    return output ++ more

end

/-- The output of a model. -/
def evalModel (setting : Setting) (model : Element) : Eval String :=
  if model.kind = .model then do
    let output ← evalEach setting deepen none .anywhere model.children
    writeOutput setting.options model output
    return output
  else throw (.invalidRoot model.name.display)

/-- The output of a model in which others may be nested to the given number of levels. -/
def evalModelAt (loader : Loader) : Nat → Options → Element → Eval String
  | 0, options, model => evalModel ⟨options, loader, none⟩ model
  | levels + 1, options, model =>
    evalModel ⟨options, loader, some (evalModelAt loader levels)⟩ model

end Docweave
