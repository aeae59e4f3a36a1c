import OutlineServer.ArrivalMap

/-!
# The registry of tools

Tools are registered once under their name and listed in order of registration.  A name that is
taken is refused.
-/
namespace OutlineServer

inductive RegistryError where
  | alreadyRegistered (name : Text)
  | unknownTool (name : Text)
deriving DecidableEq

namespace RegistryError

def message : RegistryError → Text
  | alreadyRegistered name => ("Tool already registered: " : Text) ++ name
  | unknownTool name => ("Unknown tool: " : Text) ++ name

end RegistryError

structure ToolRegistry (α : Type) where
  tools : ArrivalMap α := .empty

namespace ToolRegistry

variable {α : Type}

def names (r : ToolRegistry α) : List Text := r.tools.keys

def contains (r : ToolRegistry α) (name : Text) : Bool := r.tools.contains name

def register (r : ToolRegistry α) (name : Text) (tool : α) :
    Except RegistryError (ToolRegistry α) :=
  if r.contains name then .error (.alreadyRegistered name) else .ok ⟨r.tools.insert name tool⟩

def find (r : ToolRegistry α) (name : Text) : Except RegistryError α :=
  match r.tools.get? name with
  | some tool => .ok tool
  | none => .error (.unknownTool name)

end ToolRegistry

end OutlineServer
