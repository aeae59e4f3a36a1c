import OutlineServer.Server.Basic

/-!
# Merging settings

To merge settings is to make eleven checks, each of a value under a name: the three sections of the
file, its four fields and the four overrides (`checks`).  A merge makes them in this order, stops at the
first that does not pass and reports its name, and takes from each value what it takes regardless of
the others.  `Makes` says so of one part of a merge, and is put together along the steps of a merge
(`makes_bind`); so what is left to look at are the three kinds of checks, one at a time.
-/
namespace OutlineServer.Config

/-! ## Checks -/

inductive Rule where
  | table
  | limit (cap : Int)
  | choice (names : List Text)

/-- A field may also be given as null, which is not to give it; a section may not. -/
def Rule.Admits : Rule → Option Json → Prop
  | table, value => value = none ∨ ∃ fields, value = some (.obj fields)
  | limit cap, value =>
    value = none ∨ value = some .null ∨ ∃ n : Int, value = some (.int n) ∧ 1 ≤ n ∧ n ≤ cap
  | choice names, value =>
    value = none ∨ value = some .null ∨ ∃ name ∈ names, value = some (.str name)

structure Check where
  name : Text
  rule : Rule
  value : Option Json

namespace Check

def Passes (c : Check) : Prop := c.rule.Admits c.value

def heading (c : Check) : Text :=
  (match c.rule with
    | .table => ("Config section '" : Text)
    | _ => ("Config field '" : Text)) ++ c.name ++ ("' must be " : Text)

end Check

def fieldOf (file : Fields) (table field : Text) : Option Json :=
  (Keyed.get? table file).bind (Json.get? field)

def sectionChecks (file : Fields) : List Check := [
  ⟨"limits", .table, Keyed.get? "limits" file⟩,
  ⟨"tokens", .table, Keyed.get? "tokens" file⟩,
  ⟨"completions", .table, Keyed.get? "completions" file⟩]

def fileChecks (file : Fields) : List Check := [
  ⟨"limits.max_document_bytes", .limit (8 * 1024 * 1024),
    fieldOf file "limits" "max_document_bytes"⟩,
  ⟨"limits.max_total_bytes_per_response", .limit (4 * 1024 * 1024),
    fieldOf file "limits" "max_total_bytes_per_response"⟩,
  ⟨"tokens.strategy", .choice ["annotation", "declarations"], fieldOf file "tokens" "strategy"⟩,
  ⟨"completions.scope", .choice ["global", "document"], fieldOf file "completions" "scope"⟩]

def overrideChecks (o : Overrides) : List Check := [
  ⟨"overrides.max_document_bytes", .limit (8 * 1024 * 1024), some o.documentBytes⟩,
  ⟨"overrides.max_total_bytes_per_response", .limit (4 * 1024 * 1024), some o.responseBytes⟩,
  ⟨"overrides.token_strategy", .choice ["annotation", "declarations"], some o.strategy⟩,
  ⟨"overrides.completion_scope", .choice ["global", "document"], some o.scope⟩]

def checks (file : Fields) (o : Overrides) : List Check :=
  sectionChecks file ++ (fileChecks file ++ overrideChecks o)

/-- The check is the first in the list that does not pass. -/
def FirstFault (c : Check) (checks : List Check) : Prop :=
  ∃ before after, checks = before ++ c :: after ∧ (∀ b ∈ before, b.Passes) ∧ ¬ c.Passes

/-- The computation makes these checks.  When they all pass it has a result with this property, and
otherwise it reports the first fault. -/
def Makes {α : Type} (checks : List Check) (run : Except ConfigError α) (P : α → Prop) : Prop :=
  match run with
  | .ok a => (∀ c ∈ checks, c.Passes) ∧ P a
  | .error e => ∃ c, FirstFault c checks ∧ c.heading <+: e.message

section Makes

variable {α β : Type}

theorem makes_pure {a : α} {P : α → Prop} (h : P a) : Makes [] (pure a) P :=
  ⟨by simp, h⟩

theorem makes_bind {first rest : List Check} {x : Except ConfigError α}
    {f : α → Except ConfigError β} {P : α → Prop} {Q : β → Prop} (hx : Makes first x P)
    (hf : ∀ a, P a → Makes rest (f a) Q) : Makes (first ++ rest) (x >>= f) Q := by
  cases x with
  | error e =>
    obtain ⟨c, ⟨before, after, rfl, hbefore, hc⟩, hname⟩ := hx
    exact ⟨c, ⟨before, after ++ rest, by simp, hbefore, hc⟩, hname⟩
  | ok a =>
    obtain ⟨hfirst, ha⟩ := hx
    have hrest := hf a ha
    show Makes (first ++ rest) (f a) Q
    cases hresult : f a with
    | error e =>
      rw [hresult] at hrest
      obtain ⟨c, ⟨before, after, rfl, hbefore, hc⟩, hname⟩ := hrest
      exact ⟨c, ⟨first ++ before, after, by simp, List.forall_mem_append.2 ⟨hfirst, hbefore⟩, hc⟩,
        hname⟩
    | ok b =>
      rw [hresult] at hrest
      exact ⟨List.forall_mem_append.2 ⟨hfirst, hrest.1⟩, hrest.2⟩

theorem makes_ok {c : Check} {a : α} {P : α → Prop} (hc : c.Passes) (ha : P a) :
    Makes [c] (.ok a) P :=
  ⟨List.forall_mem_singleton.2 hc, ha⟩

theorem makes_error {c : Check} {e : ConfigError} {P : α → Prop} (hc : ¬ c.Passes)
    (he : c.heading <+: e.message) : Makes [c] (.error e) P :=
  ⟨c, ⟨[], [], rfl, by simp, hc⟩, he⟩

end Makes

/-! ## Single settings -/

theorem makes_table (file : Fields) (name : Text) :
    Makes [⟨name, .table, Keyed.get? name file⟩] (table file name)
      (fun fields => ∀ key, Keyed.get? key fields = fieldOf file name key) := by
  unfold table fieldOf
  cases hget : Keyed.get? name file with
  | none => exact makes_ok (.inl rfl) (fun _ => rfl)
  | some value =>
    cases value with
    | obj fields => exact makes_ok (.inr ⟨fields, rfl⟩) (fun _ => rfl)
    | _ =>
      refine makes_error (by simp [Check.Passes, Rule.Admits]) ⟨"a table.", ?_⟩
      simp [Check.heading, ConfigError.message, Text.ofString]

theorem makes_limit (value : Option Json) (field : Text) {current cap : Int} (hone : 1 ≤ current)
    (hcap : current ≤ cap) : Makes [⟨field, .limit cap, value⟩] (limit value field current cap)
      (fun n => n = (value.bind Json.int?).getD current ∧ 1 ≤ n ∧ n ≤ cap) := by
  have hnot : (⟨field, .limit cap, value⟩ : Check).heading
      <+: (ConfigError.notPositive field).message := by
    refine ⟨"a positive integer.", ?_⟩
    simp [Check.heading, ConfigError.message, Text.ofString]
  have habove : (⟨field, .limit cap, value⟩ : Check).heading
      <+: (ConfigError.aboveCap field cap).message := by
    refine ⟨("<= " : Text) ++ Text.ofInt cap ++ ("." : Text), ?_⟩
    simp [Check.heading, ConfigError.message, Text.ofString]
  unfold limit
  rcases value with - | value
  · exact makes_ok (.inl rfl) ⟨rfl, hone, hcap⟩
  cases value with
  | null => exact makes_ok (.inr (.inl rfl)) ⟨rfl, hone, hcap⟩
  | int n =>
    have hpasses : (⟨field, .limit cap, some (.int n)⟩ : Check).Passes ↔ 1 ≤ n ∧ n ≤ cap := by
      simp [Check.Passes, Rule.Admits]
    dsimp only [Option.getD_some]
    split
    · refine makes_error ?_ hnot
      rw [hpasses]
      omega
    split
    · refine makes_error ?_ habove
      rw [hpasses]
      omega
    · exact makes_ok (hpasses.2 ⟨by omega, by omega⟩) ⟨rfl, by omega, by omega⟩
  | _ => exact makes_error (by simp [Check.Passes, Rule.Admits]) hnot

theorem makes_choice {α : Type} (value : Option Json) (field : Text) (current : α) (all : List α)
    (name : α → Text) : Makes [⟨field, .choice (all.map name), value⟩]
      (choice value field current all name)
      (fun a => name a = (value.bind Json.str?).getD (name current)) := by
  have hnot : (⟨field, .choice (all.map name), value⟩ : Check).heading
      <+: (ConfigError.notAChoice field (all.map name)).message := by
    refine ⟨("one of " : Text) ++ Text.join ", " (all.map name) ++ ("." : Text), ?_⟩
    simp [Check.heading, ConfigError.message, Text.ofString]
  unfold choice
  rcases value with - | value
  · exact makes_ok (.inl rfl) rfl
  cases value with
  | null => exact makes_ok (.inr (.inl rfl)) rfl
  | str given =>
    dsimp only [Option.getD_some]
    split
    · rename_i a hfind
      have hname : name a = given := by simpa using List.find?_some hfind
      have hmem : given ∈ all.map name :=
        List.mem_map.2 ⟨a, List.mem_of_find?_eq_some hfind, hname⟩
      exact makes_ok (.inr (.inr ⟨given, hmem, rfl⟩)) hname
    · rename_i hfind
      refine makes_error ?_ hnot
      simp only [Check.Passes, Rule.Admits, reduceCtorEq, Option.some.injEq, Json.str.injEq,
        false_or, exists_eq_right', List.mem_map]
      rintro ⟨a, ha, hname⟩
      simpa [hname] using List.find?_eq_none.1 hfind a ha
  | _ => exact makes_error (by simp [Check.Passes, Rule.Admits]) hnot

/-! ## The settings of a source -/

structure Bounded (config : Config) : Prop where
  documentBytes : 1 ≤ config.limits.documentBytes ∧ config.limits.documentBytes ≤ 8 * 1024 * 1024
  responseBytes : 1 ≤ config.limits.responseBytes ∧ config.limits.responseBytes ≤ 4 * 1024 * 1024

/-- The result has the settings of the source that are given, and else those of the configuration. -/
structure Applied (config : Config) (source : Source) (result : Config) : Prop where
  root : result.root = config.root
  dataDir : result.dataDir = config.dataDir
  documentBytes : result.limits.documentBytes
    = (source.documentBytes.1.bind Json.int?).getD config.limits.documentBytes
  responseBytes : result.limits.responseBytes
    = (source.responseBytes.1.bind Json.int?).getD config.limits.responseBytes
  strategy : result.strategy.name = (source.strategy.1.bind Json.str?).getD config.strategy.name
  scope : result.scope.name = (source.scope.1.bind Json.str?).getD config.scope.name
  bounded : result.Bounded

def sourceChecks (source : Source) : List Check := [
  ⟨source.documentBytes.2, .limit (8 * 1024 * 1024), source.documentBytes.1⟩,
  ⟨source.responseBytes.2, .limit (4 * 1024 * 1024), source.responseBytes.1⟩,
  ⟨source.strategy.2, .choice ["annotation", "declarations"], source.strategy.1⟩,
  ⟨source.scope.2, .choice ["global", "document"], source.scope.1⟩]

theorem makes_apply {config : Config} (h : config.Bounded) (source : Source) :
    Makes (sourceChecks source) (config.apply source) (Applied config source) := by
  unfold apply
  refine makes_bind (makes_limit _ _ h.documentBytes.1 h.documentBytes.2)
    (fun documentBytes hdocument => ?_)
  refine makes_bind (makes_limit _ _ h.responseBytes.1 h.responseBytes.2)
    (fun responseBytes hresponse => ?_)
  refine makes_bind (makes_choice _ _ config.strategy TokenStrategy.all TokenStrategy.name)
    (fun strategy hstrategy => ?_)
  refine makes_bind (makes_choice _ _ config.scope CompletionScope.all CompletionScope.name)
    (fun scope hscope => makes_pure ?_)
  exact ⟨rfl, rfl, hdocument.1, hresponse.1, hstrategy, hscope, hdocument.2, hresponse.2⟩

theorem makes_fileSource (file : Fields) :
    Makes (sectionChecks file) (fileSource file)
      (fun source => sourceChecks source = fileChecks file
        ∧ source.documentBytes.1 = fieldOf file "limits" "max_document_bytes"
        ∧ source.responseBytes.1 = fieldOf file "limits" "max_total_bytes_per_response"
        ∧ source.strategy.1 = fieldOf file "tokens" "strategy"
        ∧ source.scope.1 = fieldOf file "completions" "scope") := by
  unfold fileSource
  refine makes_bind (makes_table file "limits") (fun limits hlimits => ?_)
  refine makes_bind (makes_table file "tokens") (fun tokens htokens => ?_)
  refine makes_bind (makes_table file "completions") (fun completions hcompletions => makes_pure ?_)
  simp [sourceChecks, fileChecks, hlimits, htokens, hcompletions]

/-! ## Merging -/

/-- Every setting is the override if it is given, else the value in the file if it is given, else the
default. -/
structure Merged (directory workspaceRoot : AbsolutePath) (file : Fields) (o : Overrides)
    (config : Config) : Prop where
  root : config.root = workspaceRoot
  dataDir : config.dataDir
    = (o.dataDir.map directory.resolve).getD (workspaceRoot.child ".dgl_analyzer")
  documentBytes : config.limits.documentBytes = (o.documentBytes.int?
    <|> (fieldOf file "limits" "max_document_bytes").bind Json.int?).getD (1024 * 1024)
  responseBytes : config.limits.responseBytes = (o.responseBytes.int?
    <|> (fieldOf file "limits" "max_total_bytes_per_response").bind Json.int?).getD (1024 * 1024)
  strategy : config.strategy.name = (o.strategy.str?
    <|> (fieldOf file "tokens" "strategy").bind Json.str?).getD "declarations"
  scope : config.scope.name = (o.scope.str?
    <|> (fieldOf file "completions" "scope").bind Json.str?).getD "global"
  bounded : config.Bounded

theorem getD_getD {α : Type} (first second : Option α) (default : α) :
    first.getD (second.getD default) = (first <|> second).getD default := by
  cases first <;> rfl

theorem bounded_ofRoot (root : AbsolutePath) : (ofRoot root).Bounded := by
  constructor <;> simp [ofRoot]

/-- **A merge makes the eleven checks in their order**, and merges the settings. -/
theorem makes_merge (directory root : AbsolutePath) (file : Fields) (o : Overrides) :
    Makes (checks file o) (merge directory (ofRoot root) file o)
      (Merged directory root file o) := by
  unfold merge checks
  refine makes_bind (makes_fileSource file) (fun source hsource => ?_)
  obtain ⟨hchecks, hdocument, hresponse, hstrategy, hscope⟩ := hsource
  rw [← hchecks]
  refine makes_bind (makes_apply (bounded_ofRoot root) source) (fun config hconfig => ?_)
  rw [← List.append_nil (overrideChecks o)]
  refine makes_bind (makes_apply hconfig.bounded (overrideSource o))
    (fun result hresult => makes_pure ?_)
  refine ⟨hresult.root.trans hconfig.root, ?_, ?_, ?_, ?_, ?_,
    ⟨hresult.bounded.documentBytes, hresult.bounded.responseBytes⟩⟩
  · rw [hresult.dataDir, hconfig.dataDir]
    rfl
  · rw [hresult.documentBytes, hconfig.documentBytes, hdocument]
    exact getD_getD _ _ _
  · rw [hresult.responseBytes, hconfig.responseBytes, hresponse]
    exact getD_getD _ _ _
  · rw [hresult.strategy, hconfig.strategy, hstrategy]
    exact getD_getD _ _ _
  · rw [hresult.scope, hconfig.scope, hscope]
    exact getD_getD _ _ _

/-! ## Starting from a configuration -/

/-- A server can be made from a configuration: its names are known, no tool is registered twice, and
the server reports the strategy and the scope of the configuration. -/
structure Startable (config : Config) : Prop where
  workspace : ∀ found clock,
    Workspace.ofNames ClassifierRegistry.standard config.strategy.name config.scope.name .standard
      = .ok (Server.start config found clock).workspace
  tools : Tool.all.foldlM
      (fun (registry : ToolRegistry Tool) tool => registry.register tool.name tool) {}
    = .ok Tool.registry
  status : ∀ found clock log arguments, ∃ report,
    Tool.status.call config (Server.start config found clock).workspace log arguments
      = .ok (report, (Server.start config found clock).workspace)
    ∧ report.get? "token_strategy" = some (.str config.strategy.name)
    ∧ report.get? "completion_scope" = some (.str config.scope.name)

theorem startable (config : Config) : config.Startable where
  workspace found clock := by
    cases hstrategy : config.strategy <;> cases hscope : config.scope <;>
      simp only [Server.start, hstrategy, hscope] <;> rfl
  tools := by rfl
  status found clock log arguments := ⟨_, rfl, rfl, rfl⟩

/-- **Which settings can be merged, to what, and what is reported of others.**  Whatever the root, the
file and the overrides, a merge succeeds exactly when all checks pass, also the checks of values that
are overridden.  What comes out has the settings in their order of precedence, with the limits in
their bounds, and a server can be made from it.  When a merge does not succeed, its message begins with
the name of the first check that does not pass. -/
theorem merge_makes_checks (directory root : AbsolutePath) (file : Fields) (o : Overrides) :
    ((∃ config, merge directory (ofRoot root) file o = .ok config)
      ↔ ∀ c ∈ checks file o, c.Passes)
    ∧ (∀ config, merge directory (ofRoot root) file o = .ok config →
      Merged directory root file o config ∧ config.Startable)
    ∧ ∀ e, merge directory (ofRoot root) file o = .error e →
      ∃ c, FirstFault c (checks file o) ∧ c.heading <+: e.message := by
  have hmerge := makes_merge directory root file o
  cases hresult : merge directory (ofRoot root) file o with
  | ok config =>
    rw [hresult] at hmerge
    refine ⟨iff_of_true ⟨config, rfl⟩ hmerge.1, ?_, ?_⟩
    · rintro _ ⟨⟩
      exact ⟨hmerge.2, startable config⟩
    · rintro _ ⟨⟩
  | error e =>
    rw [hresult] at hmerge
    obtain ⟨c, hfault, hheading⟩ := hmerge
    refine ⟨iff_of_false (by rintro ⟨_, ⟨⟩⟩) ?_, ?_, ?_⟩
    · obtain ⟨before, after, hchecks, -, hc⟩ := hfault
      exact fun hall => hc (hall c (by simp [hchecks]))
    · rintro _ ⟨⟩
    · rintro _ ⟨⟩
      exact ⟨c, hfault, hheading⟩

end OutlineServer.Config
