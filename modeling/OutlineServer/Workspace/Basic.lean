import OutlineServer.Token.Legend
import OutlineServer.Token.Strategy
import OutlineServer.Workspace.Results

/-!
# The workspace

A workspace joins the store of results with the classifier and the legend chosen for tokens.
Opening a document and changing it are the same event: its whole text is scanned anew, and the
latest scan counts.
-/
namespace OutlineServer

structure Workspace where
  results : Results := {}
  classifier : TokenClassifier := .standard .declared
  legend : Legend := .standard

inductive WorkspaceError where
  | store (cause : StoreError)
  | unknownClassifier (name : Text)
deriving DecidableEq

namespace WorkspaceError

def message : WorkspaceError → Text
  | store cause => cause.message
  | unknownClassifier name => ("No token classifier named: " : Text) ++ name

end WorkspaceError

namespace ClassifierRegistry

def select (r : ClassifierRegistry) (name : Text) : Except WorkspaceError TokenClassifier :=
  match r.get? name with
  | some classifier => .ok classifier
  | none => .error (.unknownClassifier name)

end ClassifierRegistry

namespace Workspace

/-- A workspace from the names of its choices; the scope is looked at before the classifier. -/
def ofNames (registry : ClassifierRegistry) (strategy scope : Text) (legend : Legend) :
    Except WorkspaceError Workspace := do
  let results ← (Results.ofScopeName scope).mapError WorkspaceError.store
  let classifier ← ClassifierRegistry.select registry strategy
  return { results, classifier, legend }

def update (w : Workspace) (document text : Text) : Outline × Workspace :=
  let outline := Outline.scan text
  (outline, { w with results := w.results.record document outline })

def symbols (w : Workspace) (document : Text) : List Symbol := w.results.get document

def completions (w : Workspace) (document : Option Text) : List Completion :=
  w.results.completions document

/-- The tokens of a text, which need not be a document of the workspace. -/
def tokens (w : Workspace) (text : Text) : List TokenSpan := w.classifier.classify text

end Workspace

end OutlineServer
