import OutlineServer.CommandLine.Start
import OutlineServer.Proofs.CommandLine.Assignments
import OutlineServer.Proofs.Config.Snapshot

/-!
# Ways to name the data directory

The data directory of a server may be named beside the overrides, among them, or on the command line.
On the way it is resolved once or twice, which comes to the same (`load_resolved`), and the other
overrides come along, so that all ways lead to one configuration.  Overrides that are of the types of
the options can be written on the command line (`arguments`), and are read there as they are
(`launch_assignments`).

Only a path that is two hyphens does not get through the command line, where it leaves its option
empty: the start is refused.
-/
namespace OutlineServer

/-- The overrides are values that the options of the command line take. -/
structure Overrides.Writable (o : Overrides) : Prop where
  documentBytes : o.documentBytes = .null ∨ ∃ n : Int, o.documentBytes = .int n
  responseBytes : o.responseBytes = .null ∨ ∃ n : Int, o.responseBytes = .int n
  strategy : o.strategy = .null ∨ ∃ strategy : TokenStrategy, o.strategy = .str strategy.name
  scope : o.scope = .null ∨ ∃ scope : CompletionScope, o.scope = .str scope.name

namespace CommandLine

/-! ## Overrides as arguments -/

def assignments (root dataDir : Text) (o : Overrides) : List Assignment :=
  [.workspaceRoot root, .dataDir dataDir]
    ++ (o.documentBytes.int?.map .documentBytes).toList
    ++ (o.responseBytes.int?.map .responseBytes).toList
    ++ ((o.strategy.str?.bind TokenStrategy.named?).map .tokenStrategy).toList
    ++ ((o.scope.str?.bind CompletionScope.named?).map .completionScope).toList

def arguments (root dataDir : Text) (o : Overrides) : List Text :=
  (assignments root dataDir o).map Assignment.argument

example : arguments "w" "a=b" { documentBytes := .int 7, scope := .str "document" }
    = ["--workspace-root=w", "--data-dir=a=b", "--max-document-bytes=7",
      "--completion-scope=document"] := by rfl

theorem nodup_assignments (root dataDir : Text) (o : Overrides) :
    ((assignments root dataDir o).map Assignment.option).Nodup := by
  unfold assignments
  cases o.documentBytes.int? <;> cases o.responseBytes.int? <;>
    cases o.strategy.str?.bind TokenStrategy.named? <;>
    cases o.scope.str?.bind CompletionScope.named? <;> simp [Assignment.option]

theorem foldl_put_assignments (root dataDir : Text) (o : Overrides) :
    (assignments root dataDir o).foldl Settings.put {} = {
      workspaceRoot := givenPath root
      dataDir := some (givenPath dataDir)
      documentBytes := o.documentBytes.int?.map .value
      responseBytes := o.responseBytes.int?.map .value
      strategy := (o.strategy.str?.bind TokenStrategy.named?).map .value
      scope := (o.scope.str?.bind CompletionScope.named?).map .value } := by
  unfold assignments
  cases o.documentBytes.int? <;> cases o.responseBytes.int? <;>
    cases o.strategy.str?.bind TokenStrategy.named? <;>
    cases o.scope.str?.bind CompletionScope.named? <;> rfl

theorem override_number {value : Json} (h : value = .null ∨ ∃ n : Int, value = .int n) :
    override .int (value.int?.map .value) = value := by
  rcases h with rfl | ⟨n, rfl⟩ <;> rfl

theorem override_choice {α : Type} {name : α → Text} {named? : Text → Option α}
    (hnamed : ∀ a, named? (name a) = some a) {value : Json}
    (h : value = .null ∨ ∃ a, value = .str (name a)) :
    override (fun a => .str (name a)) ((value.str?.bind named?).map .value) = value := by
  rcases h with rfl | ⟨a, rfl⟩
  · rfl
  · rw [Json.str?, Option.bind_some, hnamed]
    rfl

theorem path_givenPath (option : CommandOption) (t : Text) :
    path option (givenPath t) = if t = "--" then .error ⟨option⟩ else .ok t := by
  have htext : ("--" : Text) = [hyphen, hyphen] := rfl
  rw [htext, givenPath]
  split <;> rfl

/-- **Overrides that are written as arguments are read as they are.** -/
theorem launch_assignments (root dataDir : Text) {o : Overrides} (h : o.Writable) :
    ((assignments root dataDir o).foldl Settings.put {}).launch =
      if dataDir = "--" then .error ⟨.dataDir⟩
      else if root = "--" then .error ⟨.workspaceRoot⟩
      else .ok { workspaceRoot := root, overrides := { o with dataDir := some dataDir } } := by
  rw [foldl_put_assignments, Settings.launch]
  simp only [Option.mapM_some, path_givenPath, override_number h.documentBytes,
    override_number h.responseBytes, override_choice TokenStrategy.named?_name h.strategy,
    override_choice CompletionScope.named?_name h.scope]
  split
  · rfl
  · split <;> rfl

end CommandLine

/-! ## Resolving again -/

namespace Config

/-- **To resolve the data directory again changes nothing.** -/
theorem load_resolved (directory root : AbsolutePath) (file : Option (List UInt8)) (dataDir : Text)
    (o : Overrides) :
    load directory root file { o with dataDir := some (directory.resolve dataDir).toText }
      = load directory root file { o with dataDir := some dataDir } := by
  have hagain := (directory.resolve dataDir).resolve_toText directory
  simp only [load, merge, overrideSource, Option.map_some, hagain]

theorem mapError_eq_ok {ε ε' α : Type} {x : Except ε α} {f : ε → ε'} {a : α} :
    x.mapError f = .ok a ↔ x = .ok a := by
  cases x <;> simp [Except.mapError]

theorem load_eq_ok_iff {directory root : AbsolutePath} {file : Option (List UInt8)} {o : Overrides}
    {config : Config} : load directory root file o = .ok config
      ↔ ∃ fields, readFile file = .ok fields ∧ merge directory (ofRoot root) fields o = .ok config := by
  unfold load
  cases readFile file with
  | error e => exact iff_of_false nofun (by rintro ⟨_, ⟨⟩, _⟩)
  | ok fields =>
    change (merge directory (ofRoot root) fields o).mapError LoadError.invalid = .ok config ↔ _
    rw [mapError_eq_ok]
    simp only [Except.ok.injEq, exists_eq_left']

theorem overrides_of_load {directory root : AbsolutePath} {file : Option (List UInt8)}
    {dataDir : Text} {o : Overrides} {config : Config}
    (h : load directory root file { o with dataDir := some dataDir } = .ok config) :
    config.dataDir = directory.resolve dataDir
      ∧ ∀ (s : Setting) (value : Json), Setting.given? (s.override o) = some value →
        s.value config = value := by
  obtain ⟨fields, -, hmerge⟩ := load_eq_ok_iff.1 h
  obtain ⟨-, hdataDir, hsettings⟩ := merge_eq_ok_iff.1 hmerge
  refine ⟨hdataDir, fun s value hgiven => ?_⟩
  have hsame : s.override { o with dataDir := some dataDir } = s.override o := by
    cases s <;> rfl
  have hvalue := (hsettings s).value_eq
  rw [hsame, hgiven] at hvalue
  exact hvalue

end Config

/-! ## The ways -/

namespace Surroundings

variable {m : Type → Type} [Monad m]

theorem config_of_none (s : Surroundings m) (root dataDir : Text) {o : Overrides}
    (ho : o.dataDir = none) :
    s.config root (some dataDir) o
      = s.config root none { o with dataDir := some (s.resolved dataDir) } := by
  unfold config Overrides.withDataDir
  rw [ho]
  rfl

theorem config_of_some (s : Surroundings m) (root : Text) (dataDir : Option Text) {o : Overrides}
    {named : Text} (ho : o.dataDir = some named) : s.config root dataDir o = s.config root none o := by
  unfold config Overrides.withDataDir
  rw [ho]
  rfl

theorem config_resolved (s : Surroundings m) (root dataDir : Text) (o : Overrides) :
    s.config root none { o with dataDir := some (s.resolved dataDir) }
      = s.config root none { o with dataDir := some dataDir } := by
  refine congrArg (s.octets? _ >>= ·) (funext fun file => congrArg pure ?_)
  exact Config.load_resolved s.directory _ file dataDir o

/-- **The command line starts what the overrides say**, in whatever order they are written, unless one of
the paths is two hyphens. -/
theorem start_arguments (s : Surroundings m) (root dataDir : Text) {o : Overrides}
    (ho : o.dataDir = none) (h : o.Writable) {argv : List Text}
    (hperm : argv.Perm (CommandLine.arguments root dataDir o)) :
    CommandLine.start s argv =
      if dataDir = "--" then pure (.error (.emptyPath ⟨.dataDir⟩))
      else if root = "--" then pure (.error (.emptyPath ⟨.workspaceRoot⟩))
      else CommandLine.ofLoaded <$> s.config root (some dataDir) o := by
  have harranged : Relation.Comp (· = List.map CommandLine.Assignment.argument ·) List.Perm argv
      (CommandLine.assignments root dataDir o) := by
    rw [List.eq_map_comp_perm]
    exact hperm
  obtain ⟨l, rfl, hl⟩ := harranged
  have honce := (hl.map CommandLine.Assignment.option).nodup_iff.2
    (CommandLine.nodup_assignments root dataDir o)
  unfold CommandLine.start
  simp only [CommandLine.parse_arguments, CommandLine.foldl_put_perm hl honce,
    CommandLine.launch_assignments root dataDir h, config_of_none s root dataDir ho]
  split_ifs <;> rfl

end Surroundings

/-- **All ways to name the data directory agree, and no override is dropped.**  To name the directory
beside overrides that name none is to name it among them; what is loaded then has this directory and
every override that is given.  The command line, with both paths and the overrides written as
arguments in any order, starts from the same configuration or fails for the same reason, unless one of
the paths is two hyphens, when it never starts.  Beside overrides that name a data directory, another
one has no effect. -/
theorem data_directory_routes {m : Type → Type} [Monad m] (s : Surroundings m)
    (root dataDir : Text) (o : Overrides) :
    (o.dataDir = none →
      s.config root (some dataDir) o = s.config root none { o with dataDir := some dataDir }
      ∧ (∀ file config, Config.load s.directory (s.directory.resolve root) file
          { o with dataDir := some dataDir } = .ok config →
        config.dataDir = s.directory.resolve dataDir
        ∧ ∀ (setting : Config.Setting) (value : Json),
          Config.Setting.given? (setting.override o) = some value → setting.value config = value)
      ∧ (o.Writable → ∀ argv : List Text, argv.Perm (CommandLine.arguments root dataDir o) →
        CommandLine.start s argv =
          if dataDir = "--" then pure (.error (.emptyPath ⟨.dataDir⟩))
          else if root = "--" then pure (.error (.emptyPath ⟨.workspaceRoot⟩))
          else CommandLine.ofLoaded <$> s.config root (some dataDir) o))
    ∧ ((∃ named, o.dataDir = some named) →
      s.config root (some dataDir) o = s.config root none o) := by
  refine ⟨fun ho => ⟨?_, ?_, ?_⟩, ?_⟩
  · rw [s.config_of_none root dataDir ho]
    exact s.config_resolved root dataDir o
  · exact fun file config hload => Config.overrides_of_load hload
  · exact fun hwritable argv hperm => s.start_arguments root dataDir ho hwritable hperm
  · rintro ⟨named, ho⟩
    exact s.config_of_some root (some dataDir) ho

def plainDirectory : Surroundings Id where
  directory := AbsolutePath.root.resolve "/tmp/work"
  octets? _ := none

/-- Three ways to one configuration. -/
theorem data_directory_routes_to_sibling :
    let o : Overrides := { responseBytes := .int 9, strategy := .str "annotation" }
    let config : Config := {
      root := AbsolutePath.root.resolve "/tmp/work/sub"
      dataDir := AbsolutePath.root.resolve "/tmp/data/x"
      limits := { responseBytes := 9 }
      strategy := .bracketed }
    plainDirectory.config "sub/." (some "../data//./x") o = Except.ok config
    ∧ plainDirectory.config "sub/." none { o with dataDir := some "../data//./x" }
      = Except.ok config
    ∧ CommandLine.start plainDirectory ["--token-strategy=annotation",
        "--max-total-bytes-per-response=9", "--data-dir=../data//./x", "--workspace-root=sub/."]
      = Except.ok (some config) := by
  intro o config
  have hwritable : o.Writable :=
    ⟨.inl rfl, .inr ⟨9, rfl⟩, .inr ⟨.bracketed, rfl⟩, .inl rfl⟩
  have hconfig : plainDirectory.config "sub/." (some "../data//./x") o = Except.ok config := rfl
  obtain ⟨hamong, -, hline⟩ :=
    (data_directory_routes plainDirectory "sub/." "../data//./x" o).1 rfl
  refine ⟨hconfig, hamong.symm.trans hconfig, ?_⟩
  refine (hline hwritable _ (List.reverse_perm _)).trans ?_
  rw [hconfig]
  rfl

/-- The command line does not start what the overrides say when the data directory is two hyphens. -/
theorem hyphens_not_started :
    ¬ ∀ (s : Surroundings Id) (root dataDir : Text) (o : Overrides),
      o.dataDir = none → o.Writable → ∀ config : Config,
      CommandLine.start s (CommandLine.arguments root dataDir o) = Except.ok (some config)
        ↔ s.config root (some dataDir) o = Except.ok config := by
  intro h
  have hagree := h ⟨AbsolutePath.root, fun _ => none⟩ "." "--" {} rfl
    ⟨.inl rfl, .inl rfl, .inl rfl, .inl rfl⟩
    { Config.ofRoot AbsolutePath.root with dataDir := { segments := ["--"] } }
  have hstart := hagree.2 rfl
  cases hstart

end OutlineServer
