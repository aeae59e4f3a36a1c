import OutlineServer.Text.Split

/-!
# Absolute paths

A path is resolved by its text alone: a relative path continues from the directory it is relative
to, empty segments and `.` go nowhere, and `..` leaves the last segment entered, or stays at the
root.  The segments that are left are names (`AbsolutePath.IsName`), and a path carries the proof.
-/
namespace OutlineServer

namespace AbsolutePath

def separator : CodePoint := '/'

/-- A segment that is entered: it is not empty, goes nowhere else and is of one piece. -/
structure IsName (segment : Text) : Prop where
  ne_nil : segment ≠ []
  ne_dot : segment ≠ "."
  ne_dots : segment ≠ ".."
  unsplit : separator ∉ segment

instance : DecidablePred IsName := fun segment =>
  decidable_of_iff
    (segment ≠ [] ∧ segment ≠ Text.ofString "." ∧ segment ≠ Text.ofString ".." ∧ separator ∉ segment)
    ⟨fun ⟨hnil, hdot, hdots, hsplit⟩ => ⟨hnil, hdot, hdots, hsplit⟩,
      fun h => ⟨h.ne_nil, h.ne_dot, h.ne_dots, h.unsplit⟩⟩

end AbsolutePath

/-- An absolute path as its segments from the root. -/
structure AbsolutePath where
  segments : List Text
  names : ∀ segment ∈ segments, AbsolutePath.IsName segment := by decide
deriving DecidableEq

namespace AbsolutePath

/-! ## Resolving -/

/-- One step from a place given by its segments, last first. -/
def enter (place : List Text) (segment : Text) : List Text :=
  if segment = [] ∨ segment = Text.ofString "." then place
  else if segment = Text.ofString ".." then place.tail
  else segment :: place

theorem isName_of_mem_enter {place : List Text} {segment name : Text}
    (hplace : ∀ name ∈ place, IsName name) (hsegment : separator ∉ segment)
    (h : name ∈ enter place segment) : IsName name := by
  unfold enter at h
  split at h
  · exact hplace name h
  · rename_i hstays
    rw [not_or] at hstays
    split at h
    · exact hplace name (List.mem_of_mem_tail h)
    · rename_i hleaves
      rcases List.mem_cons.1 h with rfl | h
      · exact ⟨hstays.1, hstays.2, hleaves, hsegment⟩
      · exact hplace name h

theorem isName_of_mem_foldl {name : Text} : ∀ {segments place : List Text},
    (∀ name ∈ place, IsName name) → (∀ segment ∈ segments, separator ∉ segment) →
    name ∈ segments.foldl enter place → IsName name
  | [], _, hplace, _, h => hplace name h
  | segment :: segments, place, hplace, hsegments, h => by
    obtain ⟨hsegment, hsegments⟩ := List.forall_mem_cons.1 hsegments
    exact isName_of_mem_foldl (fun _ hname => isName_of_mem_enter hplace hsegment hname) hsegments h

/-- Where the reading of a path starts, last segment first. -/
def startOf (directory : AbsolutePath) (path : Text) : List Text :=
  if path.head? = some separator then [] else directory.segments.reverse

/-- The place that a path names, seen from `directory`. -/
def resolve (directory : AbsolutePath) (path : Text) : AbsolutePath where
  segments := ((path.splitOn separator).foldl enter (directory.startOf path)).reverse
  names := by
    intro name hname
    refine isName_of_mem_foldl ?_ (fun _ => Text.not_mem_of_mem_splitOn) (List.mem_reverse.1 hname)
    intro name hstart
    unfold startOf at hstart
    split at hstart
    · cases hstart
    · exact directory.names name (List.mem_reverse.1 hstart)

def root : AbsolutePath := { segments := [] }

def child (directory : AbsolutePath) (name : Text) (hname : IsName name := by decide) :
    AbsolutePath where
  segments := directory.segments ++ [name]
  names := by
    intro segment hsegment
    rcases List.mem_append.1 hsegment with hsegment | hsegment
    · exact directory.names segment hsegment
    · exact List.mem_singleton.1 hsegment ▸ hname

def toText (path : AbsolutePath) : Text :=
  match path.segments with
  | [] => [separator]
  | segments => segments.flatMap (separator :: ·)

end AbsolutePath

end OutlineServer
