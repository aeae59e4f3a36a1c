import OutlineServer.ArrivalMap
import OutlineServer.Outline.Scan

/-!
# The latest results per document

The store keeps the symbols of each document's last scan, and completions either per document or
in one slot that every document shares, where the last scan of any document wins.  Documents are
listed in the order in which their symbols were first stored; nothing is ever dropped.
-/
namespace OutlineServer

inductive CompletionScope where
  | everywhere
  | perDocument
deriving DecidableEq

namespace CompletionScope

def name : CompletionScope → Text
  | everywhere => "global"
  | perDocument => "document"

def all : List CompletionScope := [everywhere, perDocument]

def named? (name : Text) : Option CompletionScope := all.find? (fun s => s.name = name)

end CompletionScope

inductive StoreError where
  | unknownScope (name : Text)
  /-- Completions per document were given for no document. -/
  | documentRequired
deriving DecidableEq

namespace StoreError

def message : StoreError → Text
  | unknownScope name =>
    ("Unknown completion scope '" : Text) ++ name ++ ("'; expected one of " : Text)
      ++ Text.join ", " (CompletionScope.all.map CompletionScope.name) ++ ("." : Text)
  | documentRequired => "doc_id is required when completion scope is 'document'."

end StoreError

structure Results where
  scope : CompletionScope := .everywhere
  trees : ArrivalMap (List Symbol) := .empty
  sharedCompletions : List Completion := []
  documentCompletions : ArrivalMap (List Completion) := .empty

namespace Results

def ofScopeName (name : Text) : Except StoreError Results :=
  match CompletionScope.named? name with
  | some scope => .ok { scope }
  | none => .error (.unknownScope name)

/-- Stores the symbols of a document in place of earlier ones. -/
def put (r : Results) (document : Text) (symbols : List Symbol) : Results :=
  { r with trees := r.trees.insert document symbols }

def get (r : Results) (document : Text) : List Symbol := (r.trees.get? document).getD []

def putCompletions (r : Results) (document : Text) (completions : List Completion) : Results :=
  match r.scope with
  | .everywhere => { r with sharedCompletions := completions }
  | .perDocument =>
    { r with documentCompletions := r.documentCompletions.insert document completions }

/-- Replaces completions; only shared ones can do without a document. -/
def setCompletions (r : Results) (completions : List Completion) (document : Option Text) :
    Except StoreError Results :=
  match r.scope, document with
  | .everywhere, _ => .ok { r with sharedCompletions := completions }
  | .perDocument, some document => .ok (r.putCompletions document completions)
  | .perDocument, none => .error .documentRequired

/-- The completions to offer; the document matters only when each has its own. -/
def completions (r : Results) (document : Option Text) : List Completion :=
  match r.scope, document with
  | .everywhere, _ => r.sharedCompletions
  | .perDocument, some document => (r.documentCompletions.get? document).getD []
  | .perDocument, none => []

def record (r : Results) (document : Text) (outline : Outline) : Results :=
  (r.put document outline.symbols).putCompletions document outline.completions

/-- The documents in the order in which they were first stored. -/
def documents (r : Results) : List Text := r.trees.keys

end Results

end OutlineServer
