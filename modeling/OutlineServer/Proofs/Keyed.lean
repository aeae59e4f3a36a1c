import OutlineServer.Keyed

/-!
# The canonical form of a map

Inserting keeps entries in increasing order of their keys, so a map made from entries is sorted
(`sorted_ofList`), and making a map from sorted entries changes nothing (`ofList_of_sorted`).  Every
entry of a map is one of those it was made from (`mem_ofList`), the last of its key (`get?_ofList`).
-/
namespace OutlineServer

namespace CodePoint

instance : Std.Irrefl (· < · : CodePoint → CodePoint → Prop) := ⟨fun a => Nat.lt_irrefl a.val⟩

instance : Trans (· < · : CodePoint → CodePoint → Prop) (· < ·) (· < ·) := ⟨Nat.lt_trans⟩

instance : Std.Trichotomous (· < · : CodePoint → CodePoint → Prop) :=
  ⟨fun _ _ hab hba => ext_val (Nat.le_antisymm (Nat.not_lt.1 hba) (Nat.not_lt.1 hab))⟩

end CodePoint

namespace Keyed

variable {α : Type}

def IsSorted (entries : Keyed α) : Prop := entries.Pairwise (fun a b => a.1 < b.1)

theorem mem_insert {key : Text} {value : α} {entry : Text × α} : ∀ {entries : Keyed α},
    entry ∈ insert key value entries → entry = (key, value) ∨ entry ∈ entries
  | [], h => .inl (List.mem_singleton.1 h)
  | (k, v) :: rest, h => by
    unfold insert at h
    split at h
    · exact List.mem_cons.1 h
    · split at h
      · rcases List.mem_cons.1 h with h | h
        · exact .inl h
        · exact .inr (List.mem_cons_of_mem _ h)
      · rcases List.mem_cons.1 h with h | h
        · exact .inr (h ▸ List.mem_cons_self)
        · rcases mem_insert h with h | h
          · exact .inl h
          · exact .inr (List.mem_cons_of_mem _ h)

theorem sorted_insert (key : Text) (value : α) : ∀ {entries : Keyed α}, entries.IsSorted →
    IsSorted (insert key value entries)
  | [], _ => List.pairwise_singleton _ _
  | (k, v) :: rest, h => by
    obtain ⟨hfirst, hrest⟩ := List.pairwise_cons.1 h
    unfold insert
    split
    · rename_i hlt
      refine List.pairwise_cons.2 ⟨?_, h⟩
      intro entry hentry
      rcases List.mem_cons.1 hentry with rfl | hentry
      · exact hlt
      · exact List.lt_trans hlt (hfirst entry hentry)
    · split
      · rename_i heq
        subst heq
        exact List.pairwise_cons.2 ⟨hfirst, hrest⟩
      · rename_i hle hne
        have hlt : k < key := List.not_le.1 (fun hkey => hne (List.le_antisymm hkey hle))
        refine List.pairwise_cons.2 ⟨?_, sorted_insert key value hrest⟩
        intro entry hentry
        rcases mem_insert hentry with rfl | hentry
        · exact hlt
        · exact hfirst entry hentry

theorem sorted_foldl : ∀ (entries : List (Text × α)) {done : Keyed α}, done.IsSorted →
    IsSorted (entries.foldl (fun done (key, value) => insert key value done) done)
  | [], _, h => h
  | (key, value) :: rest, _, h => sorted_foldl rest (sorted_insert key value h)

theorem sorted_ofList (entries : List (Text × α)) : (ofList entries).IsSorted :=
  sorted_foldl entries List.Pairwise.nil

theorem mem_foldl {entry : Text × α} : ∀ (entries : List (Text × α)) {done : Keyed α},
    entry ∈ entries.foldl (fun done (key, value) => insert key value done) done →
    entry ∈ entries ∨ entry ∈ done
  | [], _, h => .inr h
  | (key, value) :: rest, done, h => by
    rcases mem_foldl rest h with h | h
    · exact .inl (List.mem_cons_of_mem _ h)
    · rcases mem_insert h with rfl | h
      · exact .inl List.mem_cons_self
      · exact .inr h

theorem mem_ofList {entry : Text × α} {entries : List (Text × α)} (h : entry ∈ ofList entries) :
    entry ∈ entries :=
  (mem_foldl entries h).resolve_right List.not_mem_nil

theorem mem_of_get? {key : Text} {value : α} : ∀ {entries : Keyed α},
    get? key entries = some value → (key, value) ∈ entries
  | [], h => by cases h
  | (k, v) :: rest, h => by
    unfold get? at h
    split at h
    · rename_i hkey
      cases h
      rw [hkey]
      exact List.mem_cons_self
    · exact List.mem_cons_of_mem _ (mem_of_get? h)

theorem insert_of_last {key : Text} {value : α} : ∀ {entries : Keyed α},
    (∀ entry ∈ entries, entry.1 < key) → insert key value entries = entries ++ [(key, value)]
  | [], _ => rfl
  | (k, v) :: rest, h => by
    have hlt : k < key := h _ List.mem_cons_self
    have hne : key ≠ k := by
      rintro rfl
      exact List.lt_irrefl _ hlt
    have hle : ¬ key < k := fun hgt => List.lt_irrefl _ (List.lt_trans hlt hgt)
    rw [insert, if_neg hle, if_neg hne,
      insert_of_last (fun entry hentry => h entry (List.mem_cons_of_mem _ hentry)),
      List.cons_append]

theorem foldl_insert_of_sorted : ∀ (entries : List (Text × α)) {done : Keyed α},
    IsSorted (done ++ entries) →
    entries.foldl (fun done (key, value) => insert key value done) done = done ++ entries
  | [], done, _ => (List.append_nil done).symm
  | (key, value) :: rest, done, h => by
    have hlast : ∀ entry ∈ done, entry.1 < key := fun entry hentry =>
      (List.pairwise_append.1 h).2.2 entry hentry _ List.mem_cons_self
    rw [List.append_cons] at h ⊢
    rw [← insert_of_last hlast] at h ⊢
    exact foldl_insert_of_sorted rest h

/-- **Sorted entries are the map made from them.** -/
theorem ofList_of_sorted {entries : Keyed α} (h : entries.IsSorted) : ofList entries = entries :=
  foldl_insert_of_sorted entries h

/-! ## Looking up -/

theorem get?_insert (key other : Text) (value : α) : ∀ entries : Keyed α,
    get? other (insert key value entries) = if other = key then some value else get? other entries
  | [] => rfl
  | (k, v) :: rest => by
    unfold insert
    split
    · rfl
    · split
      · rename_i heq
        subst heq
        by_cases hother : other = key <;> simp [get?, hother]
      · rename_i hne
        rw [get?, get?_insert key other value rest]
        by_cases hk : other = k
        · have hother : other ≠ key := fun h => hne (h ▸ hk)
          simp [get?, hk ▸ hother, hk]
        · simp [get?, hk]

theorem get?_foldl (key : Text) : ∀ (entries : List (Text × α)) (done : Keyed α),
    get? key (entries.foldl (fun done (key, value) => insert key value done) done)
      = ((entries.filter (fun e => e.1 = key)).getLast?.map Prod.snd).or (get? key done)
  | [], done => rfl
  | (k, v) :: rest, done => by
    rw [List.foldl_cons, get?_foldl key rest, get?_insert]
    by_cases hk : k = key
    · subst hk
      rw [List.filter_cons_of_pos (by simp), List.getLast?_cons]
      cases (rest.filter (fun e => e.1 = k)).getLast? <;> simp
    · rw [List.filter_cons_of_neg (by simpa using hk), if_neg (Ne.symm hk)]

/-- **The last entry of a key stays.** -/
theorem get?_ofList (key : Text) (entries : List (Text × α)) :
    get? key (ofList entries)
      = (entries.filter (fun e => e.1 = key)).getLast?.map Prod.snd := by
  unfold ofList
  rw [get?_foldl]
  exact Option.or_none

theorem get?_append_of_ne {key : Text} : ∀ {front : Keyed α}, (∀ entry ∈ front, entry.1 ≠ key) →
    ∀ back : Keyed α, get? key (front ++ back) = get? key back
  | [], _, _ => rfl
  | (k, v) :: front, h, back => by
    obtain ⟨hk, hfront⟩ := List.forall_mem_cons.1 h
    rw [List.cons_append, get?, if_neg (Ne.symm hk), get?_append_of_ne hfront]

end Keyed

end OutlineServer
