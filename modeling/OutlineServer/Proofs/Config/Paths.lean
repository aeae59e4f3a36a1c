import OutlineServer.Config.Path

/-!
# The text of a path

The segments of a path are names, which enter a place and stay there.  So the text of a path names it
from everywhere (`resolve_toText`), and to resolve again changes nothing.
-/
namespace OutlineServer.AbsolutePath

theorem enter_of_isName {segment : Text} (h : IsName segment) (place : List Text) :
    enter place segment = segment :: place := by
  unfold enter
  rw [if_neg (by simp [h.ne_nil, h.ne_dot]), if_neg h.ne_dots]

theorem foldl_enter_names : ∀ {names : List Text}, (∀ name ∈ names, IsName name) →
    ∀ place : List Text, names.foldl enter place = names.reverse ++ place
  | [], _, _ => rfl
  | name :: names, h, place => by
    obtain ⟨hname, hnames⟩ := List.forall_mem_cons.1 h
    rw [List.foldl_cons, enter_of_isName hname, foldl_enter_names hnames, List.reverse_cons,
      List.append_assoc, List.singleton_append]

/-- **The text of a path names the path**, wherever it is resolved. -/
theorem resolve_toText (path directory : AbsolutePath) : directory.resolve path.toText = path := by
  obtain ⟨segments, hnames⟩ := path
  cases segments with
  | nil => rfl
  | cons first rest =>
    have hsplit : (toText ⟨first :: rest, hnames⟩).splitOn separator = [] :: first :: rest :=
      Text.splitOn_flatMap (fun segment hsegment => (hnames segment hsegment).unsplit)
    have hhead : (toText ⟨first :: rest, hnames⟩).head? = some separator := rfl
    have hfold : ([] :: first :: rest).foldl enter [] = (first :: rest).reverse ++ [] :=
      foldl_enter_names hnames []
    simp only [resolve, startOf, if_pos hhead, hsplit, hfold, List.append_nil, List.reverse_reverse]

end OutlineServer.AbsolutePath
