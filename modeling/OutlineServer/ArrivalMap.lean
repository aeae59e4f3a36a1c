import OutlineServer.Text.Basic

/-!
# Maps in order of arrival

A map from names to values that lists its names in the order in which each was first put in.
Putting a value under a name that is present replaces the value and keeps the name's place.  The
map is read through `get?` and `keys`: `get?_insert` and `keys_insert` say what an insertion does
to both.
-/
namespace OutlineServer

structure ArrivalMap (α : Type) where
  entries : List (Text × α) := []
  nodup : (entries.map Prod.fst).Nodup := by simp

namespace ArrivalMap

variable {α : Type}

def keys (m : ArrivalMap α) : List Text := m.entries.map Prod.fst

def find? (key : Text) : List (Text × α) → Option α
  | [] => none
  | (k, v) :: rest => if key = k then some v else find? key rest

def get? (m : ArrivalMap α) (key : Text) : Option α := find? key m.entries

/-- Puts a value in the place of the entry of its name, or at the end when there is none. -/
def put (key : Text) (value : α) : List (Text × α) → List (Text × α)
  | [] => [(key, value)]
  | (k, v) :: rest => if key = k then (k, value) :: rest else (k, v) :: put key value rest

theorem keys_put (key : Text) (value : α) (entries : List (Text × α)) :
    (put key value entries).map Prod.fst =
      if key ∈ entries.map Prod.fst then entries.map Prod.fst
      else entries.map Prod.fst ++ [key] := by
  induction entries with
  | nil => simp [put]
  | cons entry rest ih =>
    obtain ⟨k, v⟩ := entry
    by_cases h : key = k
    · simp [put, h]
    · simp only [put, h, if_false, List.map_cons, List.mem_cons, false_or, ih]
      split <;> simp

theorem nodup_put (key : Text) (value : α) {entries : List (Text × α)}
    (h : (entries.map Prod.fst).Nodup) : ((put key value entries).map Prod.fst).Nodup := by
  rw [keys_put]
  split
  · exact h
  · next absent =>
    rw [List.nodup_append]
    refine ⟨h, by simp, ?_⟩
    intro a ha b hb
    rw [List.mem_singleton] at hb
    subst hb
    exact fun eq => absent (eq ▸ ha)

def insert (m : ArrivalMap α) (key : Text) (value : α) : ArrivalMap α where
  entries := put key value m.entries
  nodup := nodup_put key value m.nodup

def empty : ArrivalMap α := {}

def contains (m : ArrivalMap α) (key : Text) : Bool := (m.get? key).isSome

def ofList (entries : List (Text × α)) : ArrivalMap α :=
  entries.foldl (fun m (key, value) => m.insert key value) empty

theorem find?_put (key other : Text) (value : α) (entries : List (Text × α)) :
    find? other (put key value entries) =
      if other = key then some value else find? other entries := by
  induction entries with
  | nil => simp [put, find?]
  | cons entry rest ih =>
    obtain ⟨k, v⟩ := entry
    by_cases h : key = k <;> by_cases h' : other = k <;> by_cases h'' : other = key <;>
      simp_all [put, find?]

theorem get?_insert (m : ArrivalMap α) (key other : Text) (value : α) :
    (m.insert key value).get? other = if other = key then some value else m.get? other :=
  find?_put key other value m.entries

theorem keys_insert (m : ArrivalMap α) (key : Text) (value : α) :
    (m.insert key value).keys = if key ∈ m.keys then m.keys else m.keys ++ [key] :=
  keys_put key value m.entries

end ArrivalMap

end OutlineServer
