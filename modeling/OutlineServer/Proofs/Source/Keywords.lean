import OutlineServer.Outline.Symbol
import OutlineServer.Proofs.Source.Names

/-!
# What the keyword before a name tells

Between the keyword of a declaration and its name there is nothing that belongs to a word, so the
last word character before the name is the last letter of the keyword (`letterBefore_of_namesAfter`).
The keywords of functions, of variables and of constants end in different letters.  Hence a name
that stands at one place of a line is declared in one way only (`kind_of_namesAfter`).

The variables of a line are found from left to right, and each declaration ends with its name, so
the names come from left to right too (`pairwise_variableNames`).
-/
namespace OutlineServer

def SymbolKind.keywords : SymbolKind → List Text
  | func => [Source.functionKeyword]
  | var => [Source.variableKeyword]
  | const => Source.constantKeywords

namespace Source

/-! ## The letter before a name -/

def letterBefore? (line : Text) (column : Nat) : Option CodePoint :=
  (line.take column).reverse.find? CodePoint.isWord

theorem keyword_ends_word (kind : SymbolKind) :
    ∀ keyword ∈ kind.keywords, keyword.getLast?.any CodePoint.isWord = true := by
  cases kind <;> decide +kernel

theorem kind_of_getLast? {kind other : SymbolKind} {keyword keyword' : Text}
    (h : keyword ∈ kind.keywords) (h' : keyword' ∈ other.keywords)
    (heq : keyword.getLast? = keyword'.getLast?) : kind = other := by
  have hall : ∀ keyword ∈ kind.keywords, ∀ keyword' ∈ other.keywords,
      keyword.getLast? = keyword'.getLast? → kind = other := by
    cases kind <;> cases other <;> decide
  exact hall keyword h keyword' h' heq

theorem letterBefore_of_namesAfter {keyword line : Text} {column : Nat} {name : Excerpt}
    (hkeyword : keyword.getLast?.any CodePoint.isWord = true)
    (h : NamesAfter keyword column (line.drop column) name) :
    letterBefore? line name.start = keyword.getLast? := by
  obtain ⟨filling, rest, hsplit, -, hnoWord, -, hstart⟩ := h
  obtain ⟨last, hlast, hword⟩ := (Option.any_eq_true _ _).1 hkeyword
  obtain ⟨front, rfl⟩ := List.getLast?_eq_some_iff.1 hlast
  have hcolumn : name.start = column + (front ++ [last] ++ filling).length := by
    rw [hstart, Nat.add_assoc, ← List.length_append]
  have htake : line.take name.start = line.take column ++ (front ++ [last] ++ filling) := by
    rw [hcolumn, List.take_add, hsplit, List.take_left]
  have hnone : filling.reverse.find? CodePoint.isWord = none := by
    rw [List.find?_eq_none]
    intro c hc
    simp [hnoWord c (List.mem_reverse.1 hc)]
  unfold letterBefore?
  rw [htake, hlast]
  simp [hnone, hword]

/-- **A name that stands at one place of a line is declared in one way.** -/
theorem kind_of_namesAfter {line : Text} {name name' : Excerpt} {kind other : SymbolKind}
    {keyword keyword' : Text} {column column' : Nat} (hkeyword : keyword ∈ kind.keywords)
    (h : NamesAfter keyword column (line.drop column) name) (hkeyword' : keyword' ∈ other.keywords)
    (h' : NamesAfter keyword' column' (line.drop column') name')
    (hstart : name.start = name'.start) : kind = other := by
  refine kind_of_getLast? hkeyword hkeyword' ?_
  rw [← letterBefore_of_namesAfter (keyword_ends_word kind keyword hkeyword) h,
    ← letterBefore_of_namesAfter (keyword_ends_word other keyword' hkeyword') h', hstart]

/-! ## The order of names -/

theorem whole_of_variableAt? {column : Nat} {before : Option CodePoint} {t : Text}
    {d : Declaration} (h : variableAt? column before t = some d) :
    d.whole = ⟨column, t.take (d.name.stop - column)⟩ := by
  unfold variableAt? at h
  simp only [bind, Option.bind_eq_some_iff, Option.guard_eq_some'] at h
  obtain ⟨_, -, rest, -, _, -, name, -, hd⟩ := h
  cases hd
  simp only [Excerpt.stop, Nat.add_assoc, Nat.add_sub_cancel_left]

theorem name_within_variableAt? {column : Nat} {before : Option CodePoint} {t : Text}
    {d : Declaration} (h : variableAt? column before t = some d) :
    column < d.name.start ∧ d.name.start ≤ column + d.size := by
  obtain ⟨filling, rest, hsplit, hne, -, -, hstart⟩ := namesAfter_of_variableAt? h
  have hpos := List.length_pos_iff.2 hne
  have hlength := congrArg List.length hsplit
  simp only [List.length_append] at hlength
  unfold Declaration.size
  rw [whole_of_variableAt? h, List.length_take, Excerpt.stop]
  omega

theorem pairwise_variableNames (line : Text) :
    (variableDeclarations line).Pairwise (fun d d' => d.name.start < d'.name.start) := by
  refine (pairwise_occurrences variableAt? Declaration.size line).imp ?_
  rintro d d' ⟨i, j, hi, hj, -, hle⟩
  have hd := name_within_variableAt? hi
  have hd' := name_within_variableAt? hj
  omega

end Source

end OutlineServer
