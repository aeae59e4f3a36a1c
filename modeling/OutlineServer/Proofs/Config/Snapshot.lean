import OutlineServer.Proofs.Config.Merge
import OutlineServer.Proofs.Config.Paths
import OutlineServer.Proofs.Keyed

/-!
# The public view of a configuration

A file and the overrides give the same four settings, under the same rules.  Whether a merge succeeds
and to what is decided one setting at a time (`merge_eq_ok_iff`): both values that are given must be
admitted, and the override comes before the file.  So an override may as well stand in the file
(`merge_moveToFile`), and the public view, read as a file, gives the configuration that it shows.
-/
namespace OutlineServer.Config

/-! ## Settings -/

/-- What a file and the overrides can both give. -/
inductive Setting where
  | documentBytes
  | responseBytes
  | strategy
  | scope
deriving DecidableEq

namespace Setting

def table : Setting → Text
  | documentBytes | responseBytes => "limits"
  | strategy => "tokens"
  | scope => "completions"

def field : Setting → Text
  | documentBytes => "max_document_bytes"
  | responseBytes => "max_total_bytes_per_response"
  | strategy => "strategy"
  | scope => "scope"

def rule : Setting → Rule
  | documentBytes => .limit (8 * 1024 * 1024)
  | responseBytes => .limit (4 * 1024 * 1024)
  | strategy => .choice ["annotation", "declarations"]
  | scope => .choice ["global", "document"]

def default : Setting → Json
  | documentBytes | responseBytes => .int (1024 * 1024)
  | strategy => .str "declarations"
  | scope => .str "global"

def override (o : Overrides) : Setting → Json
  | documentBytes => o.documentBytes
  | responseBytes => o.responseBytes
  | strategy => o.strategy
  | scope => o.scope

def value (config : Config) : Setting → Json
  | documentBytes => .int config.limits.documentBytes
  | responseBytes => .int config.limits.responseBytes
  | strategy => .str config.strategy.name
  | scope => .str config.scope.name

/-- A value that is given, which null is not. -/
def given? : Json → Option Json
  | .null => none
  | value => some value

/-- The setting may be merged from the file and the overrides, and comes out with this value. -/
structure Decides (s : Setting) (file : Fields) (o : Overrides) (value : Json) : Prop where
  table : Rule.table.Admits (Keyed.get? s.table file)
  inFile : s.rule.Admits (fieldOf file s.table s.field)
  inOverrides : s.rule.Admits (some (s.override o))
  value_eq : value
    = (given? (s.override o) <|> (fieldOf file s.table s.field).bind given?).getD s.default

theorem bind_given_of_limit {cap : Int} {value : Option Json} (h : (Rule.limit cap).Admits value) :
    value.bind given? = (value.bind Json.int?).map .int := by
  rcases h with rfl | rfl | ⟨n, rfl, -⟩ <;> rfl

theorem bind_given_of_choice {names : List Text} {value : Option Json}
    (h : (Rule.choice names).Admits value) :
    value.bind given? = (value.bind Json.str?).map .str := by
  rcases h with rfl | rfl | ⟨name, -, rfl⟩ <;> rfl

theorem getD_map_orElse {α β : Type} (f : α → β) (first second : Option α) (default : α) :
    f ((first <|> second).getD default) = (first.map f <|> second.map f).getD (f default) := by
  cases first <;> cases second <;> rfl

theorem eq_some_of_given {v : Option Json} {value : Json} (h : v.bind given? = some value) :
    v = some value ∧ given? value = some value := by
  obtain ⟨given, rfl, hgiven⟩ := Option.bind_eq_some_iff.1 h
  have heq : given = value := by
    cases given with
    | null => cases hgiven
    | _ => exact Option.some.inj hgiven
  exact ⟨congrArg some heq, heq ▸ hgiven⟩

theorem admits_default (s : Setting) :
    s.rule.Admits (some s.default) ∧ given? s.default = some s.default := by
  cases s with
  | documentBytes | responseBytes => exact ⟨.inr (.inr ⟨_, rfl, by decide, by decide⟩), rfl⟩
  | strategy => exact ⟨.inr (.inr ⟨"declarations", .tail _ (.head _), rfl⟩), rfl⟩
  | scope => exact ⟨.inr (.inr ⟨"global", .head _, rfl⟩), rfl⟩

theorem Decides.admits {s : Setting} {file : Fields} {o : Overrides} {value : Json}
    (h : s.Decides file o value) : s.rule.Admits (some value) ∧ given? value = some value := by
  have hvalue := h.value_eq
  cases hoverride : given? (s.override o) with
  | some given =>
    rw [hoverride] at hvalue
    obtain rfl : value = given := hvalue
    obtain ⟨heq, hgiven⟩ := eq_some_of_given (v := some (s.override o)) hoverride
    exact ⟨heq ▸ h.inOverrides, hgiven⟩
  | none =>
    cases hfile : (fieldOf file s.table s.field).bind given? with
    | some written =>
      rw [hoverride, hfile] at hvalue
      obtain rfl : value = written := hvalue
      obtain ⟨heq, hgiven⟩ := eq_some_of_given hfile
      exact ⟨heq ▸ h.inFile, hgiven⟩
    | none =>
      rw [hoverride, hfile] at hvalue
      obtain rfl : value = s.default := hvalue
      exact s.admits_default

end Setting

/-! ## Merging, one setting at a time -/

theorem passes_checks_iff (file : Fields) (o : Overrides) :
    (∀ c ∈ checks file o, c.Passes) ↔ ∀ s : Setting, Rule.table.Admits (Keyed.get? s.table file)
      ∧ s.rule.Admits (fieldOf file s.table s.field) ∧ s.rule.Admits (some (s.override o)) := by
  simp only [checks, sectionChecks, fileChecks, overrideChecks, List.cons_append, List.nil_append,
    List.forall_mem_cons, List.not_mem_nil]
  constructor
  · rintro ⟨hlimits, htokens, hcompletions, hdocument, hresponse, hstrategy, hscope, hdocument',
      hresponse', hstrategy', hscope', -⟩ s
    cases s with
    | documentBytes => exact ⟨hlimits, hdocument, hdocument'⟩
    | responseBytes => exact ⟨hlimits, hresponse, hresponse'⟩
    | strategy => exact ⟨htokens, hstrategy, hstrategy'⟩
    | scope => exact ⟨hcompletions, hscope, hscope'⟩
  · intro h
    obtain ⟨hlimits, hdocument, hdocument'⟩ := h .documentBytes
    obtain ⟨-, hresponse, hresponse'⟩ := h .responseBytes
    obtain ⟨htokens, hstrategy, hstrategy'⟩ := h .strategy
    obtain ⟨hcompletions, hscope, hscope'⟩ := h .scope
    exact ⟨hlimits, htokens, hcompletions, hdocument, hresponse, hstrategy, hscope, hdocument',
      hresponse', hstrategy', hscope', by simp⟩

theorem Merged.decides {directory root : AbsolutePath} {file : Fields} {o : Overrides}
    {config : Config} (h : Merged directory root file o config)
    (hchecks : ∀ c ∈ checks file o, c.Passes) (s : Setting) : s.Decides file o (s.value config) := by
  obtain ⟨htable, hfile, hoverride⟩ := (passes_checks_iff file o).1 hchecks s
  refine ⟨htable, hfile, hoverride, ?_⟩
  have hgiven : Setting.given? (s.override o) = (some (s.override o)).bind Setting.given? := rfl
  rw [hgiven]
  cases s with
  | documentBytes =>
    rw [Setting.bind_given_of_limit hfile, Setting.bind_given_of_limit hoverride]
    exact (congrArg Json.int h.documentBytes).trans (Setting.getD_map_orElse ..)
  | responseBytes =>
    rw [Setting.bind_given_of_limit hfile, Setting.bind_given_of_limit hoverride]
    exact (congrArg Json.int h.responseBytes).trans (Setting.getD_map_orElse ..)
  | strategy =>
    rw [Setting.bind_given_of_choice hfile, Setting.bind_given_of_choice hoverride]
    exact (congrArg Json.str h.strategy).trans (Setting.getD_map_orElse ..)
  | scope =>
    rw [Setting.bind_given_of_choice hfile, Setting.bind_given_of_choice hoverride]
    exact (congrArg Json.str h.scope).trans (Setting.getD_map_orElse ..)

theorem strategy_eq_of_name {a b : TokenStrategy} (h : a.name = b.name) : a = b := by
  cases a <;> cases b <;> first | rfl | exact absurd h (by decide)

theorem scope_eq_of_name {a b : CompletionScope} (h : a.name = b.name) : a = b := by
  cases a <;> cases b <;> first | rfl | exact absurd h (by decide)

theorem ext_of_settings {a b : Config} (hroot : a.root = b.root) (hdataDir : a.dataDir = b.dataDir)
    (hsettings : ∀ s : Setting, s.value a = s.value b) : a = b := by
  have hdocument := Json.int.inj (hsettings .documentBytes)
  have hresponse := Json.int.inj (hsettings .responseBytes)
  have hstrategy := strategy_eq_of_name (Json.str.inj (hsettings .strategy))
  have hscope := scope_eq_of_name (Json.str.inj (hsettings .scope))
  obtain ⟨_, _, ⟨_, _⟩, _, _⟩ := a
  obtain ⟨_, _, ⟨_, _⟩, _, _⟩ := b
  cases hroot
  cases hdataDir
  cases hdocument
  cases hresponse
  cases hstrategy
  cases hscope
  rfl

/-- **Settings are merged one at a time.** -/
theorem merge_eq_ok_iff {directory root : AbsolutePath} {file : Fields} {o : Overrides}
    {config : Config} :
    merge directory (ofRoot root) file o = .ok config ↔ config.root = root
      ∧ config.dataDir = (o.dataDir.map directory.resolve).getD (root.child ".dgl_analyzer")
      ∧ ∀ s : Setting, s.Decides file o (s.value config) := by
  have hmakes := makes_merge directory root file o
  constructor
  · intro h
    rw [h] at hmakes
    obtain ⟨hchecks, hmerged⟩ := hmakes
    exact ⟨hmerged.root, hmerged.dataDir, hmerged.decides hchecks⟩
  · rintro ⟨hroot, hdataDir, hsettings⟩
    have hchecks : ∀ c ∈ checks file o, c.Passes := (passes_checks_iff file o).2 (fun s =>
      ⟨(hsettings s).table, (hsettings s).inFile, (hsettings s).inOverrides⟩)
    cases hresult : merge directory (ofRoot root) file o with
    | error e =>
      rw [hresult] at hmakes
      obtain ⟨c, ⟨before, after, hsplit, -, hc⟩, -⟩ := hmakes
      exact absurd (hchecks c (by simp [hsplit])) hc
    | ok result =>
      rw [hresult] at hmakes
      obtain ⟨-, hmerged⟩ := hmakes
      refine congrArg Except.ok (ext_of_settings (hmerged.root.trans hroot.symm)
        (hmerged.dataDir.trans hdataDir.symm) (fun s => ?_))
      exact (hmerged.decides hchecks s).value_eq.trans (hsettings s).value_eq.symm

/-! ## From the overrides to the file -/

def withField (file : Fields) (table field : Text) (value : Json) : Fields :=
  let fields := ((Keyed.get? table file).bind Json.obj?).getD []
  Keyed.insert table (.obj (Keyed.insert field value fields)) file

def without (o : Overrides) : Setting → Overrides
  | .documentBytes => { o with documentBytes := .null }
  | .responseBytes => { o with responseBytes := .null }
  | .strategy => { o with strategy := .null }
  | .scope => { o with scope := .null }

/-- Moves an override to its place in the file, if there is one. -/
def moveToFile (sources : Fields × Overrides) (s : Setting) : Fields × Overrides :=
  match Setting.given? (s.override sources.2) with
  | none => sources
  | some value => (withField sources.1 s.table s.field value, without sources.2 s)

theorem fieldOf_withField (file : Fields) (table field : Text) (value : Json)
    (otherTable otherField : Text) :
    fieldOf (withField file table field value) otherTable otherField
      = if otherTable = table ∧ otherField = field then some value
        else fieldOf file otherTable otherField := by
  unfold fieldOf withField
  rw [Keyed.get?_insert]
  by_cases htable : otherTable = table
  · subst htable
    rw [if_pos rfl, Option.bind_some, Json.get?, Keyed.get?_insert]
    by_cases hfield : otherField = field
    · rw [if_pos hfield, if_pos ⟨rfl, hfield⟩]
    · rw [if_neg hfield, if_neg (fun h => hfield h.2)]
      cases Keyed.get? otherTable file with
      | none => rfl
      | some content => cases content <;> rfl
  · rw [if_neg htable, if_neg (fun h => htable h.1)]

theorem Setting.eq_of_field {s other : Setting} (h : other.field = s.field) : other = s := by
  cases s <;> cases other <;> first | rfl | exact absurd h (by decide)

theorem override_without (o : Overrides) (s other : Setting) :
    other.override (without o s) = if other = s then .null else other.override o := by
  cases s <;> cases other <;> rfl

theorem dataDir_without (o : Overrides) (s : Setting) : (without o s).dataDir = o.dataDir := by
  cases s <;> rfl

theorem decides_moved {file : Fields} {o : Overrides} {s other : Setting} {moved value : Json}
    (hmoved : Setting.given? (s.override o) = some moved)
    (hadmits : s.rule.Admits (some (s.override o))) (h : other.Decides file o value) :
    other.Decides (withField file s.table s.field moved) (without o s) value := by
  have htable : Rule.table.Admits
      (Keyed.get? other.table (withField file s.table s.field moved)) := by
    unfold withField
    rw [Keyed.get?_insert]
    split
    · exact .inr ⟨_, rfl⟩
    · exact h.table
  by_cases heq : other = s
  · subst heq
    obtain ⟨hoverride, hgiven⟩ := Setting.eq_some_of_given (v := some (other.override o)) hmoved
    have hfile : fieldOf (withField file other.table other.field moved) other.table other.field
        = some moved := by
      rw [fieldOf_withField, if_pos ⟨rfl, rfl⟩]
    have hnull : other.override (without o other) = .null := by
      rw [override_without, if_pos rfl]
    refine ⟨htable, ?_, ?_, ?_⟩
    · rw [hfile, ← hoverride]
      exact hadmits
    · rw [hnull]
      cases other <;> exact .inr (.inl rfl)
    · rw [hnull, hfile, h.value_eq, hmoved, Option.bind_some, hgiven]
      rfl
  · have hfile : fieldOf (withField file s.table s.field moved) other.table other.field
        = fieldOf file other.table other.field := by
      rw [fieldOf_withField, if_neg (fun hplace => heq (Setting.eq_of_field hplace.2))]
    have hoverride : other.override (without o s) = other.override o := by
      rw [override_without, if_neg heq]
    refine ⟨htable, hfile ▸ h.inFile, hoverride ▸ h.inOverrides, ?_⟩
    rw [hfile, hoverride]
    exact h.value_eq

/-- Moving one override changes nothing. -/
theorem merge_moveToFile {directory root : AbsolutePath} {sources : Fields × Overrides}
    {config : Config} (h : merge directory (ofRoot root) sources.1 sources.2 = .ok config)
    (s : Setting) : merge directory (ofRoot root) (moveToFile sources s).1 (moveToFile sources s).2
      = .ok config := by
  unfold moveToFile
  split
  · exact h
  · rename_i moved hmoved
    obtain ⟨hroot, hdataDir, hsettings⟩ := merge_eq_ok_iff.1 h
    refine merge_eq_ok_iff.2 ⟨hroot, ?_, fun other => ?_⟩
    · rw [dataDir_without]
      exact hdataDir
    · exact decides_moved hmoved (hsettings s).inOverrides (hsettings other)

theorem merge_foldl_moveToFile {directory root : AbsolutePath} {config : Config} :
    ∀ (settings : List Setting) {sources : Fields × Overrides},
      merge directory (ofRoot root) sources.1 sources.2 = .ok config →
      merge directory (ofRoot root) (settings.foldl moveToFile sources).1
        (settings.foldl moveToFile sources).2 = .ok config
  | [], _, h => h
  | s :: settings, _, h => merge_foldl_moveToFile settings (merge_moveToFile h s)

/-! ## The public view as a file -/

theorem exists_toJson_eq (config : Config) : ∃ fields, config.toJson = .obj fields
    ∧ ∀ s : Setting, Rule.table.Admits (Keyed.get? s.table fields)
      ∧ fieldOf fields s.table s.field = some (s.value config) := by
  unfold toJson Json.object
  refine ⟨_, rfl, fun s => ?_⟩
  cases s <;> exact ⟨.inr ⟨_, rfl⟩, rfl⟩

/-- **A configuration is merged again from its public view, and from the file alone.**  The public view,
read as a file, and the data directory it shows give the configuration.  So do the file and the
overrides when any of the overrides are moved to the file, where they replace what stands there. -/
theorem merge_toJson {directory : AbsolutePath} {root : Text} {file : Fields} {o : Overrides}
    {config : Config}
    (h : merge directory (ofRoot (directory.resolve root)) file o = .ok config) :
    (∃ fields, config.toJson = .obj fields
      ∧ merge directory (ofRoot (directory.resolve root)) fields
        { dataDir := some config.dataDir.toText } = .ok config)
    ∧ ∀ settings : List Setting,
      merge directory (ofRoot (directory.resolve root)) (settings.foldl moveToFile (file, o)).1
        (settings.foldl moveToFile (file, o)).2 = .ok config := by
  refine ⟨?_, fun settings => merge_foldl_moveToFile settings h⟩
  obtain ⟨hroot, hdataDir, hsettings⟩ := merge_eq_ok_iff.1 h
  obtain ⟨fields, hfields, hplaces⟩ := exists_toJson_eq config
  refine ⟨fields, hfields, merge_eq_ok_iff.2 ⟨hroot, ?_, fun s => ?_⟩⟩
  · exact (config.dataDir.resolve_toText directory).symm
  · obtain ⟨htable, hfield⟩ := hplaces s
    obtain ⟨hadmits, hgiven⟩ := (hsettings s).admits
    have hnull : s.override { dataDir := some config.dataDir.toText } = .null := by
      cases s <;> rfl
    refine ⟨htable, hfield ▸ hadmits, ?_, ?_⟩
    · rw [hnull]
      cases s <;> exact .inr (.inl rfl)
    · rw [hnull, hfield, Option.bind_some, hgiven]
      rfl

/-- A workspace in which the document limit and the strategy are overridden.  The overrides may stand in
the file instead, and the data directory may be given as the public view shows it. -/
theorem merge_toJson_of_overrides :
    let directory := AbsolutePath.root.resolve "/tmp/work"
    let config : Config := {
      root := directory
      dataDir := AbsolutePath.root.resolve "/tmp/data/x"
      limits := { documentBytes := 7, responseBytes := 9 }
      strategy := .bracketed }
    let limits (documentBytes : Int) : Text × Json := ("limits", .obj [
      ("max_document_bytes", .int documentBytes), ("max_total_bytes_per_response", .int 9)])
    merge directory (ofRoot (directory.resolve "a/..")) [limits 5]
        { dataDir := some "../data//./x", documentBytes := .int 7, strategy := .str "annotation" }
      = .ok config
    ∧ merge directory (ofRoot (directory.resolve "a/.."))
        [limits 7, ("tokens", .obj [("strategy", .str "annotation")])]
        { dataDir := some "../data//./x" } = .ok config
    ∧ ∃ fields, config.toJson = .obj fields
      ∧ merge directory (ofRoot (directory.resolve "a/..")) fields { dataDir := some "/tmp/data/x" }
        = .ok config := by
  intro directory config limits
  have hmerge : merge directory (ofRoot (directory.resolve "a/..")) [limits 5]
      { dataDir := some "../data//./x", documentBytes := .int 7, strategy := .str "annotation" }
      = .ok config := rfl
  obtain ⟨hview, hmoved⟩ := merge_toJson hmerge
  exact ⟨hmerge, hmoved [.strategy, .documentBytes], hview⟩

end OutlineServer.Config
