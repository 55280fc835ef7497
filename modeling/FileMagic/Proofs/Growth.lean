import FileMagic.Proofs.Compile

/-! # Compiling in one pass

A forest can also be put together while the lines are read: each rule goes below the last rule
of the level above it, which is on the last branch of the forest so far, and a rule deeper than
that branch has no parent. `compileLines_eq_grow` says that this gives what compiling gives,
reports included. The invariant is that the last branch is as long as the next rule may be
deep, so that attaching a rule adds its entry to the end of the listing. -/

namespace FileMagic.Forest

mutual

/-- The length of the last branch from a rule down. -/
def branchFrom : Rule → Nat
  | ⟨_, _, children⟩ => branch children + 1

/-- How many rules are on the last branch of a forest. -/
def branch : List Rule → Nat
  | [] => 0
  | [r] => branchFrom r
  | _ :: r :: rest => branch (r :: rest)

end

mutual

/-- Attaches a rule so many levels below the children of another one. -/
def attachBelow (new : Rule) (depth : Nat) : Rule → Rule
  | ⟨test, message, children⟩ => ⟨test, message, attach new depth children⟩

/-- Attaches a rule at a depth of a forest, to the last branch. -/
def attach (new : Rule) (depth : Nat) : List Rule → List Rule
  | [] => [new]
  | [r] =>
    match depth with
    | 0 => [r, new]
    | depth + 1 => [attachBelow new depth r]
  | r :: r' :: rest => r :: attach new depth (r' :: rest)

end

/-- A forest with one more entry. -/
def grow (rules : List Rule) (e : Entry) : List Rule := attach ⟨e.test, e.message, []⟩ e.depth rules

mutual

theorem entriesAt_attachBelow (test : Test) (message : Text) {depth : Nat} (top : Nat) :
    ∀ r : Rule, depth + 1 ≤ branchFrom r →
      entriesAt top (attachBelow ⟨test, message, []⟩ depth r) =
        entriesAt top r ++ [⟨top + (depth + 1), test, message⟩]
  | ⟨_, _, children⟩, h => by
    have hc := entriesBelow_attach test message (top + 1) children
      (Nat.le_of_succ_le_succ h)
    rw [attachBelow, entriesAt, hc, entriesAt, List.cons_append, Nat.add_assoc, Nat.add_comm 1]

/-- What is attached comes last in the listing. -/
theorem entriesBelow_attach (test : Test) (message : Text) {depth : Nat} (top : Nat) :
    ∀ rules : List Rule, depth ≤ branch rules →
      entriesBelow top (attach ⟨test, message, []⟩ depth rules) =
        entriesBelow top rules ++ [⟨top + depth, test, message⟩]
  | [], h => by
    cases Nat.le_zero.mp h
    rfl
  | [r], h => by
    cases depth with
    | zero => simp [attach, entriesBelow, entriesAt]
    | succ depth =>
      rw [attach, entriesBelow, entriesAt_attachBelow test message top r h]
      simp [entriesBelow]
  | r :: r' :: rest, h => by
    have hr := entriesBelow_attach test message top (r' :: rest) h
    rw [attach, entriesBelow.eq_2, hr, entriesBelow.eq_2 top r, List.append_assoc]

end

mutual

theorem branchFrom_attachBelow (test : Test) (message : Text) {depth : Nat} :
    ∀ r : Rule, depth + 1 ≤ branchFrom r →
      branchFrom (attachBelow ⟨test, message, []⟩ depth r) = depth + 2
  | ⟨_, _, children⟩, h => by
    rw [attachBelow, branchFrom, branch_attach test message children (Nat.le_of_succ_le_succ h)]

/-- What is attached ends the last branch. -/
theorem branch_attach (test : Test) (message : Text) {depth : Nat} :
    ∀ rules : List Rule, depth ≤ branch rules →
      branch (attach ⟨test, message, []⟩ depth rules) = depth + 1
  | [], h => by
    cases Nat.le_zero.mp h
    rfl
  | [r], h => by
    cases depth with
    | zero => rfl
    | succ depth => exact branchFrom_attachBelow test message r h
  | r :: r' :: rest, h => by
    have hr := branch_attach test message (r' :: rest) h
    rw [attach]
    cases ha : attach ⟨test, message, []⟩ depth (r' :: rest) with
    | nil => rw [ha] at hr; cases hr
    | cons a as => rw [branch, ← ha, hr]

end

theorem toEntries_grow {rules : List Rule} {e : Entry} (h : e.depth ≤ branch rules) :
    toEntries (grow rules e) = toEntries rules ++ [e] := by
  rw [toEntries, grow, entriesBelow_attach e.test e.message 0 rules h, Nat.zero_add]
  rfl

/-- Entries that nest below the last branch come after those of the forest, in order. -/
theorem toEntries_foldl_grow {rules : List Rule} {entries : List Entry}
    (hn : Nested (branch rules) entries) :
    toEntries (entries.foldl grow rules) = toEntries rules ++ entries := by
  induction entries generalizing rules with
  | nil => simp
  | cons e rest ih =>
    have hb : branch (grow rules e) = e.depth + 1 := branch_attach _ _ rules hn.1
    rw [List.foldl_cons, ih (hb ▸ hn.2), toEntries_grow hn.1, List.append_assoc]
    rfl

end FileMagic.Forest

namespace FileMagic.RuleText
open Forest

variable [RegexEngine]

/-- Compiles lines, numbered from `number` on, into a forest that is already there. -/
def growLines (number : Nat) (rules : List Rule) : List Text → Except SourceFault (List Rule)
  | [] => .ok rules
  | line :: rest =>
    let line := line.chomp
    if isSkipped line then growLines (number + 1) rules rest
    else match readLine line.strip with
      | .error f => .error ⟨number, line, .fault f⟩
      | .ok e =>
        if branch rules < e.depth then .error ⟨number, line, .orphan (e.depth - 1)⟩
        else growLines (number + 1) (grow rules e) rest

theorem growLines_eq (number : Nat) (rules : List Rule) (lines : List Text) :
    growLines number rules lines =
      (readEntries number (branch rules) lines).map fun entries => entries.foldl grow rules := by
  induction lines generalizing number rules with
  | nil => rfl
  | cons line rest ih =>
    rw [growLines, readEntries]
    cases hs : isSkipped line.chomp with
    | true => simpa using ih (number + 1) rules
    | false =>
      simp only [Bool.false_eq_true, if_false]
      cases hl : readLine line.chomp.strip with
      | error f => rfl
      | ok e =>
        by_cases hd : branch rules < e.depth
        · simp only [if_pos hd]; rfl
        · have hb : branch (grow rules e) = e.depth + 1 :=
            branch_attach _ _ rules (Nat.le_of_not_lt hd)
          simp only [if_neg hd, ih, hb]
          cases readEntries (number + 1) (e.depth + 1) rest <;> rfl

/-- Putting the forest together line by line makes no difference. -/
theorem compileLines_eq_grow (lines : List Text) : compileLines lines = growLines 1 [] lines := by
  rw [growLines_eq, compileLines, branch]
  cases h : readEntries 1 0 lines with
  | error fault => rfl
  | ok entries =>
    have hn := (readEntries_ok_iff.mp h).2
    have hg : toEntries (entries.foldl grow []) = [] ++ entries := toEntries_foldl_grow hn
    exact congrArg Except.ok (toEntries_eq_iff.mp hg).2

end FileMagic.RuleText
