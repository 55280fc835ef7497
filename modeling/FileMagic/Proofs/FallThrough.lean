import FileMagic.CommandLine
import FileMagic.Pattern.Engine
import FileMagic.Proofs.Except

/-! # Databases one after the other

The rules of two databases in a row match as the first database does, unless nothing in it
matches; then they match as the second one does (`matching_append`). What is said counts for
nothing here: rules that match and describe to nothing have matched. So the contributors of a
registry are asked in the order of their registration, and a user's rules before those that come
with the engine. -/

namespace FileMagic

namespace Database

variable {s : Stream}

/-- What the first has to answer, a failure included, unless nothing in it matches. -/
def fallThrough {ε α : Type} (first second : Except ε (Option α)) : Except ε (Option α) :=
  match first with
  | .ok none => second
  | answer => answer

theorem fallThrough_assoc {ε α : Type} (x y z : Except ε (Option α)) :
    fallThrough (fallThrough x y) z = fallThrough x (fallThrough y z) := by
  cases x with
  | error e => rfl
  | ok o => cases o <;> rfl

theorem fallThrough_none {ε α : Type} (x : Except ε (Option α)) :
    fallThrough x (.ok none) = x := by
  cases x with
  | error e => rfl
  | ok o => cases o <;> rfl

theorem fallThrough_of_ne {ε α : Type} {x : Except ε (Option α)} (h : x ≠ .ok none)
    (y : Except ε (Option α)) : fallThrough x y = x := by
  cases x with
  | error e => rfl
  | ok o =>
    cases o with
    | none => exact absurd rfl h
    | some a => rfl

def empty : Database := ⟨[]⟩

/-- They match every stream, and describe it, alike. -/
def Agrees (a b : Database) : Prop := ∀ s, a.matching s = b.matching s ∧ a.probe s = b.probe s

theorem agrees_of_matching {a b : Database} (h : ∀ s, a.matching s = b.matching s) :
    Agrees a b :=
  fun s => ⟨h s, by rw [probe, probe, h s]⟩

theorem firstMatch_append (rules more : List Rule) :
    firstMatch s (rules ++ more) = fallThrough (firstMatch s rules) (firstMatch s more) := by
  induction rules with
  | nil => rfl
  | cons r rest ih =>
    rw [List.cons_append, firstMatch, firstMatch]
    cases r.walk s with
    | error e => rfl
    | ok o =>
      cases o with
      | none => exact ih
      | some messages => rfl

theorem matching_append (a b : Database) (s : Stream) :
    (a ++ b).matching s = fallThrough (a.matching s) (b.matching s) :=
  firstMatch_append a.rules b.rules

theorem append_assoc_agrees (a b c : Database) : Agrees (a ++ b ++ c) (a ++ (b ++ c)) := by
  refine agrees_of_matching fun s => ?_
  simp only [matching_append, fallThrough_assoc]

theorem empty_append_agrees (a : Database) : Agrees (empty ++ a) a :=
  agrees_of_matching fun s => matching_append empty a s

theorem append_empty_agrees (a : Database) : Agrees (a ++ empty) a := by
  refine agrees_of_matching fun s => ?_
  rw [matching_append]
  exact fallThrough_none _

/-- The description is that of the first of two databases in which something matches. -/
theorem probe_append (a b : Database) (s : Stream) :
    (a ++ b).probe s = match a.matching s with
      | .ok none => b.probe s
      | answer => answer.map describe := by
  rw [probe, matching_append]
  cases a.matching s with
  | error e => rfl
  | ok o => cases o <;> rfl

/-- Something is said even where the messages describe to nothing. -/
theorem describe_some (messages : List Text) :
    describe (some messages) = if Description.ofMessages messages = [] then "data".toList
      else Description.ofMessages messages := by
  simp only [describe, List.isEmpty_iff]
  rfl

end Database

namespace Registry
open Database

variable {s : Stream}

theorem build_of_contributors {r : Registry} {before after : List (Text × List Rule)}
    (h : r.contributors = before ++ after) :
    r.build = (Registry.mk before).build ++ (Registry.mk after).build := by
  rw [build, h, List.flatMap_append]
  rfl

theorem matching_build_of_none {contributors : List (Text × List Rule)}
    (h : ∀ c ∈ contributors, (Database.mk c.2).matching s = .ok none) :
    (Registry.mk contributors).build.matching s = .ok none := by
  induction contributors with
  | nil => rfl
  | cons c rest ih =>
    obtain ⟨hc, hrest⟩ := List.forall_mem_cons.mp h
    have hsplit : (Registry.mk (c :: rest)).build =
        Database.mk c.2 ++ (Registry.mk rest).build := rfl
    rw [hsplit, matching_append, hc]
    exact ih hrest

/-- The first contributor in whose rules something matches answers for all. -/
theorem matching_build_of_first {r : Registry} {before after : List (Text × List Rule)}
    {name : Text} {rules : List Rule} (hr : r.contributors = before ++ (name, rules) :: after)
    (hbefore : ∀ c ∈ before, (Database.mk c.2).matching s = .ok none)
    (hrules : (Database.mk rules).matching s ≠ .ok none) :
    r.build.matching s = (Database.mk rules).matching s := by
  have hsplit : (Registry.mk ((name, rules) :: after)).build =
      Database.mk rules ++ (Registry.mk after).build := rfl
  rw [build_of_contributors hr, matching_append, matching_build_of_none hbefore, hsplit,
    matching_append]
  exact fallThrough_of_ne hrules _

/-- A contributor comes after those that are there. -/
theorem build_register {r r' : Registry} {name : Text} {rules : List Rule}
    (h : r.register name rules = .ok r') : r'.build = r.build ++ Database.mk rules := by
  rw [register] at h
  split at h
  · cases h
  · cases h
    rw [build_of_contributors rfl]
    simp only [build, List.flatMap_cons, List.flatMap_nil, List.append_nil]

end Registry

namespace CommandLine
open Database

theorem answer_injective {path d d' : Text} (h : answer path d = answer path d') : d = d' :=
  List.append_cancel_left (List.append_cancel_right h)

section
variable [RegexEngine]

/-- One file is asked for, which is there, and the user's rules compile. -/
structure Invocation.Loads (i : Invocation) (path : Text) (rules : List Rule) (s : Stream) :
    Prop where
  arguments : i.arguments = [path]
  rules : ∃ rulesPath file, i.rulesPath = some rulesPath ∧ rulesPath ≠ [] ∧
    i.file rulesPath = .ok file ∧ RuleText.compileFile file.content = .ok rules
  stream : Stream.ofSource (.path "path".toList path (i.file path)) = .ok s

variable {i : Invocation} {path : Text} {rules : List Rule} {s : Stream}

theorem Invocation.Loads.userRules_eq (h : i.Loads path rules s) : userRules i = .ok rules := by
  obtain ⟨rulesPath, file, hpath, hne, hfile, hrules⟩ := h.rules
  rw [userRules, hpath]
  cases rulesPath with
  | nil => exact absurd rfl hne
  | cons c rest => simp only [hfile, hrules]

theorem Invocation.Loads.describe_eq (h : i.Loads path rules s) :
    CommandLine.describe i path =
      ((Database.mk rules ++ Builtin.database).probe s).mapError .probe := by
  simp only [CommandLine.describe, h.userRules_eq, h.stream]
  cases (Database.mk rules ++ Builtin.database).probe s <;> rfl

/-- A description is printed exactly when there is one. -/
theorem run_prints_iff (h : i.arguments = [path]) {d : Text} :
    run i = .ok ⟨0, answer path d, []⟩ ↔ CommandLine.describe i path = .ok d := by
  simp only [run, h]
  cases CommandLine.describe i path with
  | ok d' =>
    simp only [Except.ok.injEq, Result.mk.injEq, true_and, and_true]
    exact ⟨answer_injective, congrArg (answer path)⟩
  | error failure =>
    simp only [reduceCtorEq, iff_false]
    split
    · simp
    · nofun

/-- The description that is printed is that of the user's rules as soon as one of them matches,
and that of the rules that come with the engine when none does. -/
theorem Invocation.Loads.run_prints_iff (h : i.Loads path rules s) (d : Text) :
    run i = .ok ⟨0, answer path d, []⟩ ↔
      (∃ messages, (Database.mk rules).matching s = .ok (some messages) ∧
        d = if Description.ofMessages messages = [] then "data".toList
          else Description.ofMessages messages) ∨
      (Database.mk rules).matching s = .ok none ∧ Builtin.database.probe s = .ok d := by
  rw [CommandLine.run_prints_iff h.arguments, h.describe_eq, mapError_eq_ok_iff, probe_append]
  cases (Database.mk rules).matching s with
  | error e => simp [Except.map]
  | ok o =>
    cases o with
    | none => simp
    | some messages =>
      constructor
      · intro hd
        cases hd
        exact .inl ⟨messages, rfl, describe_some messages⟩
      · intro hd
        rcases hd with ⟨messages', heq, rfl⟩ | ⟨hnone, -⟩
        · cases heq
          exact congrArg Except.ok (describe_some messages)
        · cases hnone

end

end CommandLine

open Database CommandLine

/-- Of databases in a row, of the contributors of a registry and of the rules on the command line,
the first in which something matches decides. -/
theorem matching_falls_through [RegexEngine] :
    (∀ (a b : Database) (s : Stream),
      (a ++ b).matching s = fallThrough (a.matching s) (b.matching s)) ∧
    (∀ a b c : Database, Agrees (a ++ b ++ c) (a ++ (b ++ c))) ∧
    (∀ a : Database, Agrees (empty ++ a) a ∧ Agrees (a ++ empty) a) ∧
    (∀ (r : Registry) (s : Stream),
      ((∀ c ∈ r.contributors, (Database.mk c.2).matching s = .ok none) →
        r.build.matching s = .ok none) ∧
      (∀ before name rules after, r.contributors = before ++ (name, rules) :: after →
        (∀ c ∈ before, (Database.mk c.2).matching s = .ok none) →
        (Database.mk rules).matching s ≠ .ok none →
        r.build.matching s = (Database.mk rules).matching s) ∧
      (∀ name rules r', r.register name rules = .ok r' →
        r'.build.matching s = fallThrough (r.build.matching s) ((Database.mk rules).matching s))) ∧
    (∀ (i : Invocation) (path : Text) (rules : List Rule) (s : Stream), i.Loads path rules s →
      ∀ d, run i = .ok ⟨0, answer path d, []⟩ ↔
        (∃ messages, (Database.mk rules).matching s = .ok (some messages) ∧
          d = if Description.ofMessages messages = [] then "data".toList
            else Description.ofMessages messages) ∨
        (Database.mk rules).matching s = .ok none ∧ Builtin.database.probe s = .ok d) := by
  refine ⟨matching_append, append_assoc_agrees, fun a => ?_, fun r s => ⟨?_, ?_, ?_⟩, ?_⟩
  · exact ⟨empty_append_agrees a, append_empty_agrees a⟩
  · exact Registry.matching_build_of_none
  · intro before name rules after hr hbefore hrules
    exact Registry.matching_build_of_first hr hbefore hrules
  · intro name rules r' hr
    rw [Registry.build_register hr, matching_append]
  · intro i path rules s h d
    exact h.run_prints_iff d

/-- A rule that has nothing to say still keeps the rules after it from being asked, those of the
engine included. -/
theorem matching_falls_through_silent :
    ∃ (one silent : List Rule) (r : Registry) (i : Invocation) (s : Stream),
      (Registry.mk [("one".toList, one)]).build.matching s = .ok none ∧
      (Registry.mk [("one".toList, one)]).register "silent".toList silent = .ok r ∧
      r.build.matching s = (Database.mk silent).matching s ∧
      r.build.matching s = fallThrough (.ok none) ((Database.mk silent).matching s) ∧
      (Database.mk silent).matching s = .ok (some [[]]) ∧
      i.Loads "elf".toList silent s ∧ s.content = [0x7f, 0x45, 0x4c, 0x46] ∧
      run i = .ok ⟨0, answer "elf".toList "data".toList, []⟩ := by
  let one : List Rule :=
    [⟨.integer ⟨.fixed 0, .byte, true, .native, .equal, some 1⟩, "one".toList, []⟩]
  let silent : List Rule := [⟨.integer ⟨.fixed 0, .byte, true, .native, .any, none⟩, [], []⟩]
  let r : Registry := ⟨[("one".toList, one), ("silent".toList, silent)]⟩
  let rulesText : Text := "0 byte x".toList
  let content : Bytes := [0x7f, 0x45, 0x4c, 0x46]
  let i : Invocation := ⟨"magicfile".toList, ["elf".toList], some "rules".toList, fun path =>
    .ok (.ofBytes 4096 (if path = "rules".toList then rulesText.utf8 else content))⟩
  let s : Stream := ⟨"path".toList, .file 4096, content, true⟩
  have hone : (Database.mk one).matching s = .ok none := rfl
  have hsilent : (Database.mk silent).matching s = .ok (some [[]]) := rfl
  have hones : ∀ c ∈ [("one".toList, one)], (Database.mk c.2).matching s = .ok none := by
    intro c hc
    cases List.mem_singleton.mp hc
    exact hone
  have hloads : i.Loads "elf".toList silent s :=
    ⟨rfl, ⟨"rules".toList, .ofBytes 4096 rulesText.utf8, rfl, by decide, rfl, rfl⟩, rfl⟩
  obtain ⟨-, -, -, hregistry, hrun⟩ := matching_falls_through
  obtain ⟨hnone, -, hregister⟩ := hregistry ⟨[("one".toList, one)]⟩ s
  obtain ⟨-, hfirst, -⟩ := hregistry r s
  have hbuild := hnone hones
  refine ⟨one, silent, r, i, s, hbuild, rfl, ?_, ?_, hsilent, hloads, rfl, ?_⟩
  · refine hfirst [("one".toList, one)] "silent".toList silent [] rfl hones ?_
    rw [hsilent]
    nofun
  · rw [hregister "silent".toList silent r rfl, hbuild]
  · exact (hrun i "elf".toList silent s hloads "data".toList).mpr (.inl ⟨[[]], hsilent, rfl⟩)

end FileMagic
