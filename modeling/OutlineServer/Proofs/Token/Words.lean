import Mathlib.Data.List.Basic
import OutlineServer.Proofs.Source.Names
import OutlineServer.Token.Declared

/-!
# The words of a line

A word is found wherever one begins, because the columns inside a word have a word character before
them and nothing begins there (`mem_words`).  The names that declarations capture are words of their
line: what stands before a name is in no word, and a name is taken as far as it goes
(`mem_words_of_namesAfter`).
-/
namespace OutlineServer.Token

theorem wordAt?_eq_some {column : Nat} {before : Option CodePoint} {t : Text} {e : Excerpt} :
    wordAt? column before t = some e ↔
      Source.wordMayStart before = true ∧ t.takeWhile CodePoint.isWord ≠ []
        ∧ e = ⟨column, t.takeWhile CodePoint.isWord⟩ := by
  unfold wordAt?
  simp only [bind, Option.bind_eq_some_iff, Option.guard_eq_some']
  constructor
  · rintro ⟨_, hstart, h⟩
    split at h
    · cases h
    · rename_i hne
      cases h
      exact ⟨hstart, hne, rfl⟩
  · rintro ⟨hstart, hne, rfl⟩
    refine ⟨(), hstart, ?_⟩
    split
    · rename_i hnil
      exact absurd hnil hne
    · rfl

theorem recognisedAt?_wordAt?_eq_some {line : Text} {column : Nat} {e : Excerpt} :
    recognisedAt? wordAt? line column = some e ↔
      Source.wordMayStart (line.take column).getLast? = true
        ∧ (line.drop column).takeWhile CodePoint.isWord ≠ []
        ∧ e = ⟨column, (line.drop column).takeWhile CodePoint.isWord⟩ :=
  wordAt?_eq_some

/-- **No word begins inside a word or directly behind it**: the character before such a column is one
of the word. -/
theorem not_wordMayStart_inside {line : Text} {start column : Nat} (hlt : start < column)
    (hin : column ≤ start + ((line.drop start).takeWhile CodePoint.isWord).length) :
    Source.wordMayStart (line.take column).getLast? = false := by
  generalize hword : (line.drop start).takeWhile CodePoint.isWord = word at hin
  have hsplit : line.drop start = word ++ (line.drop start).dropWhile CodePoint.isWord := by
    rw [← hword, List.takeWhile_append_dropWhile]
  have htake : line.take column = line.take start ++ word.take (column - start) := by
    obtain ⟨n, rfl⟩ := Nat.exists_eq_add_of_lt hlt
    rw [Nat.add_assoc, List.take_add, hsplit, List.take_append_of_le_length (by omega),
      Nat.add_sub_cancel_left]
  have hne : word.take (column - start) ≠ [] := by
    rw [← List.length_pos_iff, List.length_take]
    omega
  obtain ⟨front, last, hlast⟩ := (List.eq_nil_or_concat' _).resolve_left hne
  have hmem : last ∈ word := List.mem_of_mem_take (i := column - start) (by rw [hlast]; simp)
  have hisWord : last.isWord = true := by
    rw [← hword] at hmem
    exact List.mem_takeWhile_imp hmem
  rw [htake, hlast, ← List.append_assoc, List.getLast?_concat]
  simp [Source.wordMayStart, hisWord]

theorem mem_words {line : Text} {e : Excerpt} :
    e ∈ words line ↔ recognisedAt? wordAt? line e.start = some e := by
  constructor
  · intro h
    obtain ⟨column, -, hat⟩ := mem_occurrences h
    have hstart : e.start = column := by rw [(recognisedAt?_wordAt?_eq_some.1 hat).2.2]
    rwa [hstart]
  · intro h
    obtain ⟨hstart, hne, heq⟩ := recognisedAt?_wordAt?_eq_some.1 h
    have hlt : e.start < line.length := by
      by_contra hge
      rw [List.drop_eq_nil_of_le (Nat.not_lt.1 hge)] at hne
      exact hne rfl
    rcases mem_occurrences_or_covered (fun e : Excerpt => e.text.length) hlt h with hmem | hcovered
    · exact hmem
    · obtain ⟨earlier, start, hbefore, hin, hat⟩ := hcovered
      rw [(recognisedAt?_wordAt?_eq_some.1 hat).2.2] at hin
      rw [not_wordMayStart_inside hbefore hin.le] at hstart
      cases hstart

theorem words_apart {line : Text} {e e' : Excerpt} (h : e ∈ words line) (h' : e' ∈ words line)
    (hlt : e.start < e'.start) : e.stop < e'.start := by
  obtain ⟨-, -, heq⟩ := recognisedAt?_wordAt?_eq_some.1 (mem_words.1 h)
  obtain ⟨hstart, -, -⟩ := recognisedAt?_wordAt?_eq_some.1 (mem_words.1 h')
  by_contra hle
  have hin : e'.start ≤ e.start + ((line.drop e.start).takeWhile CodePoint.isWord).length := by
    rw [heq] at hle
    simpa [Excerpt.stop] using hle
  rw [not_wordMayStart_inside hlt hin] at hstart
  cases hstart

/-! ## Names of declarations -/

theorem identifier?_eq_some {t name : Text} (h : Source.identifier? t = some name) :
    t.takeWhile CodePoint.isWord = name ∧ name ≠ [] := by
  unfold Source.identifier? at h
  split at h
  · cases h
  · rename_i c rest heq
    split at h
    · cases h
    · cases h
      exact ⟨heq, List.cons_ne_nil _ _⟩

theorem mem_words_of_namesAfter {keyword line : Text} {column : Nat} {name : Excerpt}
    (h : Source.NamesAfter keyword column (line.drop column) name) : name ∈ words line := by
  obtain ⟨filling, rest, hsplit, hne, hnoWord, hname, hstart⟩ := h
  obtain ⟨hword, hname⟩ := identifier?_eq_some hname
  obtain ⟨front, last, rfl⟩ := (List.eq_nil_or_concat' filling).resolve_left hne
  have hlast : last.isWord = false := hnoWord last (by simp)
  have hcolumn : name.start = column + (keyword ++ (front ++ [last])).length := by
    rw [hstart, Nat.add_assoc, ← List.length_append]
  have hdrop : line.drop name.start = rest := by
    rw [hcolumn, ← List.drop_drop, hsplit, List.drop_left]
  have htake : line.take name.start = line.take column ++ (keyword ++ (front ++ [last])) := by
    rw [hcolumn, List.take_add, hsplit, List.take_left]
  rw [mem_words, recognisedAt?_wordAt?_eq_some, hdrop, htake, hword]
  refine ⟨?_, hname, rfl⟩
  rw [← List.append_assoc, ← List.append_assoc, List.getLast?_concat]
  simp [Source.wordMayStart, hlast]

theorem mem_words_of_functionHeads {line : Text} {d : Declaration}
    (h : d ∈ Source.functionHeads line) : d.name ∈ words line := by
  obtain ⟨column, -, hat⟩ := mem_occurrences h
  exact mem_words_of_namesAfter (Source.namesAfter_of_functionHeadAt? hat)

theorem mem_words_of_variableDeclarations {line : Text} {d : Declaration}
    (h : d ∈ Source.variableDeclarations line) : d.name ∈ words line := by
  obtain ⟨column, -, hat⟩ := mem_occurrences h
  exact mem_words_of_namesAfter (Source.namesAfter_of_variableAt? hat)

theorem mem_words_of_constantDeclarations {line : Text} {d : ConstantDeclaration}
    (h : d ∈ Source.constantDeclarations line) : d.name ∈ words line := by
  obtain ⟨column, -, hat⟩ := mem_occurrences h
  obtain ⟨keyword, -, hname⟩ := Source.namesAfter_of_constantAt? hat
  exact mem_words_of_namesAfter hname

end OutlineServer.Token
