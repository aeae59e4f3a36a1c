import OutlineServer.Config.Basic

/-!
# Where a server is started

A start is made in a directory and reads one file, the settings file in the root of the workspace.  The
data directory may be named beside the overrides; it counts when they name none.
-/
namespace OutlineServer

/-- What a start finds: the current directory, and the files as some program reads them. -/
structure Surroundings (m : Type → Type) where
  directory : AbsolutePath
  /-- The octets of a file, if it exists. -/
  octets? : AbsolutePath → m (Option (List UInt8))

namespace Surroundings

variable {m : Type → Type}

def resolved (s : Surroundings m) (path : Text) : Text := (s.directory.resolve path).toText

def config [Monad m] (s : Surroundings m) (root : Text) (dataDir : Option Text) (o : Overrides) :
    m (Except Config.LoadError Config) := do
  let root := s.directory.resolve root
  let file ← s.octets? (root.child Config.fileName)
  return Config.load s.directory root file (o.withDataDir (dataDir.map s.resolved))

end Surroundings

end OutlineServer
