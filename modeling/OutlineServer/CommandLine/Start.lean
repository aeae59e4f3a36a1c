import OutlineServer.CommandLine.Parse
import OutlineServer.Config.Surroundings

/-!
# Starting from the command line

The command line is read, the paths in it are made sure of, and the configuration is loaded; the first
that goes wrong is reported.
-/
namespace OutlineServer.CommandLine

inductive StartError where
  | usage (cause : UsageError)
  | emptyPath (cause : EmptyPath)
  | load (cause : Config.LoadError)
deriving DecidableEq

def ofLoaded : Except Config.LoadError Config → Except StartError (Option Config)
  | .ok config => .ok (some config)
  | .error e => .error (.load e)

/-- The overrides with their data directory as it is seen from everywhere. -/
def Launch.resolvedOverrides {m : Type → Type} (launch : Launch) (s : Surroundings m) : Overrides :=
  { launch.overrides with dataDir := launch.overrides.dataDir.map s.resolved }

/-- The configuration of the server that a command line asks for, if it does not ask for help. -/
def start {m : Type → Type} [Monad m] (s : Surroundings m) (arguments : List Text) :
    m (Except StartError (Option Config)) :=
  match parse arguments with
  | .error e => pure (.error (.usage e))
  | .ok .showHelp => pure (.ok none)
  | .ok (.run settings) =>
    match settings.launch with
    | .error e => pure (.error (.emptyPath e))
    | .ok launch => ofLoaded <$> s.config launch.workspaceRoot none (launch.resolvedOverrides s)

end OutlineServer.CommandLine
