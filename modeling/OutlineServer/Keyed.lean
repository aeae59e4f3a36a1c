import OutlineServer.Text.Basic

/-!
# Lists sorted by key

A finite map written as a list of entries in increasing order of their keys, each key once.  The
form is unique, so two maps with the same entries are equal as lists.  `Keyed.insert` keeps it; a
later entry replaces an earlier one of the same key.
-/
namespace OutlineServer

/-- Entries in increasing order of their keys. -/
abbrev Keyed (α : Type) := List (Text × α)

namespace Keyed

variable {α : Type}

/-- Adds an entry, in place of one with the same key. -/
def insert (key : Text) (value : α) : Keyed α → Keyed α
  | [] => [(key, value)]
  | (k, v) :: rest =>
    if key < k then (key, value) :: (k, v) :: rest
    else if key = k then (key, value) :: rest
    else (k, v) :: insert key value rest

def get? (key : Text) : Keyed α → Option α
  | [] => none
  | (k, v) :: rest => if key = k then some v else get? key rest

def keys (entries : Keyed α) : List Text := entries.map Prod.fst

/-- The entries added one after the other, so that the last of a key stays. -/
def ofList (entries : List (Text × α)) : Keyed α :=
  entries.foldl (fun done (key, value) => insert key value done) []

end Keyed

end OutlineServer
