import Mathlib.Data.List.Nodup
import Mathlib.Data.List.Perm.Basic
import OutlineServer.CommandLine.Parse
import OutlineServer.Proofs.CommandLine.WholeNumbers

/-!
# Options with their values

An option may be given with its value in one argument, `--option=value`.  Such arguments are taken for
what they are whatever stands in the value (`roleOf_argument`), a value is read as the one that was
written (`set_value`), and so to read a command line of them is to put the values into the settings one
after the other (`parse_arguments`).  Options that are given once each may stand in any order
(`foldl_put_perm`).
-/
namespace OutlineServer

theorem TokenStrategy.named?_name (strategy : TokenStrategy) :
    TokenStrategy.named? strategy.name = some strategy := by
  cases strategy <;> rfl

theorem CompletionScope.named?_name (scope : CompletionScope) :
    CompletionScope.named? scope.name = some scope := by
  cases scope <;> rfl

namespace CommandLine

inductive Assignment where
  | workspaceRoot (path : Text)
  | dataDir (path : Text)
  | documentBytes (n : Int)
  | responseBytes (n : Int)
  | tokenStrategy (strategy : TokenStrategy)
  | completionScope (scope : CompletionScope)
deriving DecidableEq

def givenPath (path : Text) : Given Text :=
  if path = [hyphen, hyphen] then .empty else .value path

namespace Assignment

def option : Assignment → CommandOption
  | workspaceRoot _ => .workspaceRoot
  | dataDir _ => .dataDir
  | documentBytes _ => .documentBytes
  | responseBytes _ => .responseBytes
  | tokenStrategy _ => .tokenStrategy
  | completionScope _ => .completionScope

def value : Assignment → Text
  | workspaceRoot path | dataDir path => path
  | documentBytes n | responseBytes n => Text.ofInt n
  | tokenStrategy strategy => strategy.name
  | completionScope scope => scope.name

def argument (a : Assignment) : Text := a.option.name ++ equalsSign :: a.value

def occurrence (a : Assignment) : Occurrence where
  option := a.option
  flag := a.option.name
  attached := some a.value

end Assignment

example : (Assignment.documentBytes (-7)).argument = "--max-document-bytes=-7" := by decide

def Settings.put (s : Settings) : Assignment → Settings
  | .workspaceRoot path => { s with workspaceRoot := givenPath path }
  | .dataDir path => { s with dataDir := some (givenPath path) }
  | .documentBytes n => { s with documentBytes := some (.value n) }
  | .responseBytes n => { s with responseBytes := some (.value n) }
  | .tokenStrategy strategy => { s with strategy := some (.value strategy) }
  | .completionScope scope => { s with scope := some (.value scope) }

/-! ## Roles -/

theorem splitAtSign_append {flag : Text} (h : equalsSign ∉ flag) (value : Text) :
    splitAtSign (flag ++ equalsSign :: value) = (flag, some value) := by
  have hflag : ∀ c ∈ flag, decide (c ≠ equalsSign) = true := by
    intro c hc
    exact decide_eq_true (fun heq => h (heq ▸ hc))
  dsimp only [splitAtSign]
  rw [List.takeWhile_append_of_pos hflag, List.dropWhile_append_of_pos hflag,
    List.takeWhile_cons_of_neg (by simp), List.dropWhile_cons_of_neg (by simp), List.append_nil]
  rfl

theorem mem_all (option : CommandOption) : option ∈ CommandOption.all := by
  cases option <;> decide

theorem option_ne_help (a : Assignment) : a.option ≠ .help := by
  cases a <;> exact nofun

theorem name_spec {option : CommandOption} (h : option ≠ .help) :
    equalsSign ∉ option.name ∧ option.name.head? = some hyphen
      ∧ wholeFlag? option.name = some { option, flag := option.name } := by
  have hall : ∀ option ∈ CommandOption.all, option ≠ .help → equalsSign ∉ option.name
      ∧ option.name.head? = some hyphen
      ∧ wholeFlag? option.name = some { option, flag := option.name } := by decide
  exact hall option (mem_all option) h

theorem wholeFlag?_eq_none {argument : Text} (h : equalsSign ∈ argument) :
    wholeFlag? argument = none := by
  have hflags : ∀ entry ∈ flagTable, equalsSign ∉ entry.1 := by decide
  have hfind : flagTable.find? (fun entry => entry.1 = argument) = none := by
    refine List.find?_eq_none.2 (fun entry hentry heq => ?_)
    exact hflags entry hentry (of_decide_eq_true heq ▸ h)
  rw [wholeFlag?, hfind, Option.map_none]

theorem equalsSign_mem_argument (a : Assignment) : equalsSign ∈ a.argument :=
  List.mem_append_right _ List.mem_cons_self

/-- **An option with its value is taken for that**, whatever the value. -/
theorem roleOf_argument (a : Assignment) : roleOf a.argument = .ok (.occurrence a.occurrence) := by
  obtain ⟨hplain, hhead, hflag⟩ := name_spec (option_ne_help a)
  have hsign := equalsSign_mem_argument a
  have hoption : ¬ (a.argument.head? ≠ some hyphen ∨ a.argument = [hyphen]) := by
    refine not_or.2 ⟨not_not.2 ?_, fun heq => ?_⟩
    · rw [Assignment.argument, List.head?_append, hhead]
      rfl
    · rw [heq] at hsign
      exact absurd hsign (by decide)
  have hwhole : wholeWithValue? a.argument = some a.occurrence := by
    rw [wholeWithValue?, Assignment.argument, splitAtSign_append hplain]
    simp only [hflag, Option.map_some, Assignment.occurrence]
  rw [roleOf, if_neg hoption, wholeFlag?_eq_none hsign, hwhole]
  rfl

theorem roles_arguments : ∀ l : List Assignment, roles (l.map Assignment.argument)
    = .ok (l.map (fun a => (a.argument, .occurrence a.occurrence)))
  | [] => rfl
  | a :: l => by
    have hne : a.argument ≠ [hyphen, hyphen] := by
      intro heq
      have hsign := equalsSign_mem_argument a
      rw [heq] at hsign
      exact absurd hsign (by decide)
    rw [List.map_cons, roles, if_neg hne, roleOf_argument, roles_arguments l]
    rfl

/-! ## Values -/

theorem given_of_ne {α : Type} {text : Text} {read : Text → Except UsageError α} {a : α}
    (hread : read text = .ok a) (hne : text ≠ [hyphen, hyphen]) :
    given text read = .ok (.value a) := by
  rw [given, if_neg hne, hread]
  rfl

theorem given_path (path : Text) : given path .ok = .ok (givenPath path) := by
  unfold given givenPath
  split <;> rfl

theorem given_number (option : CommandOption) (n : Int) :
    given (Text.ofInt n) (number option) = .ok (.value n) := by
  have hinteger := integer?_ofInt n
  refine given_of_ne (by rw [number, hinteger]) (fun heq => ?_)
  have hnone : integer? [hyphen, hyphen] = none := by decide
  rw [heq, hnone] at hinteger
  cases hinteger

theorem given_choice {α : Type} (option : CommandOption) {all : List α} {name : α → Text} {a : α}
    (hfind : all.find? (fun b => name b = name a) = some a) (hne : name a ≠ [hyphen, hyphen]) :
    given (name a) (fun t => choice option t all name) = .ok (.value a) :=
  given_of_ne (by rw [choice, hfind]) hne

theorem set_value (s : Settings) (a : Assignment) : s.set a.option a.value = .ok (s.put a) := by
  cases a with
  | workspaceRoot path | dataDir path =>
    simp only [Assignment.option, Assignment.value, Settings.set, given_path]
    rfl
  | documentBytes n | responseBytes n =>
    simp only [Assignment.option, Assignment.value, Settings.set, given_number]
    rfl
  | tokenStrategy strategy =>
    have hread := given_choice .tokenStrategy strategy.named?_name (by cases strategy <;> decide)
    simp only [Assignment.option, Assignment.value, Settings.set, hread]
    rfl
  | completionScope scope =>
    have hread := given_choice .completionScope scope.named?_name (by cases scope <;> decide)
    simp only [Assignment.option, Assignment.value, Settings.set, hread]
    rfl

/-! ## The whole line -/

theorem follow_arguments : ∀ (l : List Assignment) (s : Settings),
    follow s [] (l.map (fun a => (a.argument, .occurrence a.occurrence)))
      = .ok (.run (l.foldl Settings.put s))
  | [], _ => rfl
  | a :: l, s => by
    have hstep : ∀ rest, follow s [] ((a.argument, .occurrence a.occurrence) :: rest)
        = follow (s.put a) [] rest := by
      intro rest
      simp only [follow, Assignment.occurrence, if_neg (option_ne_help a), set_value]
    rw [List.map_cons, hstep]
    exact follow_arguments l (s.put a)

/-- **To read options with their values is to put the values into the settings.** -/
theorem parse_arguments (l : List Assignment) :
    parse (l.map Assignment.argument) = .ok (.run (l.foldl Settings.put {})) := by
  rw [parse, roles_arguments]
  exact follow_arguments l {}

theorem put_comm (s : Settings) {a b : Assignment} (h : a.option ≠ b.option) :
    (s.put a).put b = (s.put b).put a := by
  cases a <;> cases b <;> first | rfl | exact absurd rfl h

/-- **Options that are given once each may stand in any order.** -/
theorem foldl_put_perm {l l' : List Assignment} (hperm : l.Perm l')
    (honce : (l.map Assignment.option).Nodup) (s : Settings) :
    l.foldl Settings.put s = l'.foldl Settings.put s := by
  refine hperm.foldl_eq' (fun a ha b hb s => ?_) s
  by_cases hsame : a.option = b.option
  · rw [List.inj_on_of_nodup_map honce ha hb hsame]
  · exact put_comm s hsame

end CommandLine

end OutlineServer
