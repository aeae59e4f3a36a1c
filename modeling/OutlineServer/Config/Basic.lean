import OutlineServer.Config.Path
import OutlineServer.Limits
import OutlineServer.Text.Utf8
import OutlineServer.Toml.Document
import OutlineServer.Token.Strategy
import OutlineServer.Workspace.Results

/-!
# Configuration

A setting is taken from the overrides given at the start, else from the settings file of the
workspace, else from the defaults.  Every value that is given must be valid, also one that is
overridden: first the sections of the file, then its fields, then the overrides, each in a fixed
order, and the first fault is the one reported.
-/
namespace OutlineServer

structure Config where
  root : AbsolutePath
  dataDir : AbsolutePath
  limits : Limits := {}
  strategy : TokenStrategy := .declared
  scope : CompletionScope := .everywhere
deriving DecidableEq

/-- The settings given at the start; null stands for a setting that is not given. -/
structure Overrides where
  dataDir : Option Text := none
  documentBytes : Json := .null
  responseBytes : Json := .null
  strategy : Json := .null
  scope : Json := .null

namespace Overrides

/-- The overrides with a data directory for the case that they name none. -/
def withDataDir (o : Overrides) (dataDir : Option Text) : Overrides :=
  { o with dataDir := o.dataDir <|> dataDir }

end Overrides

inductive ConfigError where
  | notATable (name : Text)
  | notPositive (field : Text)
  | aboveCap (field : Text) (cap : Int)
  | notAChoice (field : Text) (choices : List Text)
deriving DecidableEq

namespace ConfigError

def message : ConfigError → Text
  | notATable name =>
    ("Config section '" : Text) ++ name ++ ("' must be a table." : Text)
  | notPositive field =>
    ("Config field '" : Text) ++ field ++ ("' must be a positive integer." : Text)
  | aboveCap field cap =>
    ("Config field '" : Text) ++ field ++ ("' must be <= " : Text) ++ Text.ofInt cap
      ++ ("." : Text)
  | notAChoice field choices =>
    ("Config field '" : Text) ++ field ++ ("' must be one of " : Text)
      ++ Text.join ", " choices ++ ("." : Text)

end ConfigError

namespace Config

def documentBytesCap : Int := 8 * 1024 * 1024

def responseBytesCap : Int := 4 * 1024 * 1024

def fileName : Text := "dgl_analyzer.toml"

def dataDirName : Text := ".dgl_analyzer"

def ofRoot (root : AbsolutePath) : Config where
  root
  dataDir := root.child dataDirName

/-! ## Single settings -/

/-- A section of the settings file; one that is absent is empty. -/
def table (file : Fields) (name : Text) : Except ConfigError Fields :=
  match Keyed.get? name file with
  | none => .ok []
  | some (.obj fields) => .ok fields
  | some _ => .error (.notATable name)

/-- A limit between one and its cap, or the one in force when none is given. -/
def limit (value : Option Json) (field : Text) (current cap : Int) : Except ConfigError Int :=
  match value.getD .null with
  | .null => .ok current
  | .int n =>
    if n < 1 then .error (.notPositive field)
    else if cap < n then .error (.aboveCap field cap)
    else .ok n
  | _ => .error (.notPositive field)

def choice {α : Type} (value : Option Json) (field : Text) (current : α) (all : List α)
    (name : α → Text) : Except ConfigError α :=
  let invalid : ConfigError := .notAChoice field (all.map name)
  match value.getD .null with
  | .null => .ok current
  | .str given =>
    match all.find? (fun a => name a = given) with
    | some a => .ok a
    | none => .error invalid
  | _ => .error invalid

/-! ## Merging -/

/-- The four settings of one source, by the names that errors give them. -/
structure Source where
  documentBytes : Option Json × Text
  responseBytes : Option Json × Text
  strategy : Option Json × Text
  scope : Option Json × Text

def apply (config : Config) (source : Source) : Except ConfigError Config := do
  let documentBytes ← limit source.documentBytes.1 source.documentBytes.2
    config.limits.documentBytes documentBytesCap
  let responseBytes ← limit source.responseBytes.1 source.responseBytes.2
    config.limits.responseBytes responseBytesCap
  let strategy ← choice source.strategy.1 source.strategy.2
    config.strategy TokenStrategy.all TokenStrategy.name
  let scope ← choice source.scope.1 source.scope.2
    config.scope CompletionScope.all CompletionScope.name
  return { config with limits := { documentBytes, responseBytes }, strategy, scope }

def fileSource (file : Fields) : Except ConfigError Source := do
  let limits ← table file "limits"
  let tokens ← table file "tokens"
  let completions ← table file "completions"
  return {
    documentBytes := (Keyed.get? "max_document_bytes" limits, "limits.max_document_bytes")
    responseBytes :=
      (Keyed.get? "max_total_bytes_per_response" limits, "limits.max_total_bytes_per_response")
    strategy := (Keyed.get? "strategy" tokens, "tokens.strategy")
    scope := (Keyed.get? "scope" completions, "completions.scope") }

def overrideSource (o : Overrides) : Source where
  documentBytes := (some o.documentBytes, "overrides.max_document_bytes")
  responseBytes := (some o.responseBytes, "overrides.max_total_bytes_per_response")
  strategy := (some o.strategy, "overrides.token_strategy")
  scope := (some o.scope, "overrides.completion_scope")

/-- Applies a settings file and then the overrides.  A relative data directory is one of
`directory`. -/
def merge (directory : AbsolutePath) (base : Config) (file : Fields) (overrides : Overrides) :
    Except ConfigError Config := do
  let config ← base.apply (← fileSource file)
  let config ← config.apply (overrideSource overrides)
  return { config with
    dataDir := (overrides.dataDir.map directory.resolve).getD config.dataDir }

/-! ## Loading -/

inductive LoadError where
  /-- The settings file is not UTF-8. -/
  | undecodable
  /-- The settings file is not TOML. -/
  | malformed
  | invalid (cause : ConfigError)
deriving DecidableEq

def LoadError.message : LoadError → Text
  | .undecodable => fileName ++ (" is not valid UTF-8." : Text)
  | .malformed => fileName ++ (" is not valid TOML." : Text)
  | .invalid cause => cause.message

/-- The top-level table of a settings file, empty when there is no file. -/
def readFile (file : Option (List UInt8)) : Except LoadError Fields :=
  match file with
  | none => .ok []
  | some octets =>
    match Utf8.decode? octets with
    | none => .error .undecodable
    | some text =>
      match Toml.read? text with
      | none => .error .malformed
      | some fields => .ok fields

/-- The configuration of the workspace at `root`, whose settings file holds `file`. -/
def load (directory root : AbsolutePath) (file : Option (List UInt8)) (overrides : Overrides) :
    Except LoadError Config := do
  let fields ← readFile file
  (merge directory (ofRoot root) fields overrides).mapError LoadError.invalid

/-! ## The public view -/

def toJson (c : Config) : Json :=
  .object [
    ("workspace_root", .str c.root.toText),
    ("data_dir", .str c.dataDir.toText),
    ("limits", .object [
      ("max_document_bytes", .int c.limits.documentBytes),
      ("max_total_bytes_per_response", .int c.limits.responseBytes)]),
    ("tokens", .object [("strategy", .str c.strategy.name)]),
    ("completions", .object [("scope", .str c.scope.name)])]

end Config

end OutlineServer
