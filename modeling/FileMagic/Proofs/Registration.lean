import FileMagic.Workshop
import Mathlib.Data.List.Induction

/-! # What a registry has registered

A name is registered once, and the first time counts. What stands in a registry after any requests
is told by these requests alone: the names in the order in which they were first offered, each with
the rules that came with it then (`contributors_after`, of which a step keeps or extends both sides
in the same way). So a request that is refused could as well not have been made, and a database
holds the rules of the requests before it, whatever comes after. -/

namespace FileMagic

namespace Request

/-- The contributor that a request offers. -/
def offer? : Request → Option (Text × List Rule)
  | .register name rules => some (name, rules)
  | .build => none

end Request

namespace Workshop

variable {w : Workshop} {name : Text} {rules : List Rule} {before later : List Request}

/-- The contributors that requests offer, whether they are registered or refused. -/
def offers (requests : List Request) : List (Text × List Rule) :=
  requests.filterMap Request.offer?

/-- The names of contributors, each where it comes first. -/
def firstNames (contributors : List (Text × List Rule)) : List Text :=
  (contributors.map (·.1)).eraseDups

/-- The rules that come first with a name. -/
def firstRules (contributors : List (Text × List Rule)) (name : Text) : List Rule :=
  (contributors.lookup name).getD []

/-- The contributors of each name that come first. -/
def firsts (contributors : List (Text × List Rule)) : List (Text × List Rule) :=
  (firstNames contributors).map fun name => (name, firstRules contributors name)

/-- One of the requests has registered the name, and with success. -/
def HasRegistered (requests : List Request) (name : Text) : Prop :=
  ∃ earlier rules between, requests = earlier ++ .register name rules :: between ∧
    ((fresh.after earlier).step (.register name rules)).1 = .registered

/-! ## Steps -/

theorem step_of_mem (h : name ∈ w.registry.names) (rules : List Rule) :
    w.step (.register name rules) = (.refused ⟨name⟩, w) := by
  have hregister : w.registry.register name rules = .error ⟨name⟩ :=
    if_pos (List.contains_iff_mem.mpr h)
  rw [step, hregister]

theorem step_of_not_mem (h : name ∉ w.registry.names) (rules : List Rule) :
    w.step (.register name rules) =
      (.registered, { w with registry := ⟨w.registry.contributors ++ [(name, rules)]⟩ }) := by
  have hregister : w.registry.register name rules =
      .ok ⟨w.registry.contributors ++ [(name, rules)]⟩ :=
    if_neg (mt List.contains_iff_mem.mp h)
  rw [step, hregister]

theorem after_append (w : Workshop) (before later : List Request) :
    w.after (before ++ later) = (w.after before).after later :=
  List.foldl_append

/-- What has been built stays. -/
theorem databases_prefix (w : Workshop) (later : List Request) :
    w.databases <+: (w.after later).databases := by
  induction later generalizing w with
  | nil => exact List.prefix_refl _
  | cons r rest ih =>
    refine List.IsPrefix.trans ?_ (ih (w.step r).2)
    cases r with
    | register name rules =>
      by_cases h : name ∈ w.registry.names
      · simp only [step_of_mem h, List.prefix_rfl]
      · simp only [step_of_not_mem h, List.prefix_rfl]
    | build => exact List.prefix_append _ _

/-! ## The first contributors -/

theorem mem_firstNames {contributors : List (Text × List Rule)} :
    name ∈ firstNames contributors ↔ ∃ rules, (name, rules) ∈ contributors := by
  simp [firstNames, List.mem_eraseDups]

theorem isSome_lookup_iff {contributors : List (Text × List Rule)} :
    (contributors.lookup name).isSome = true ↔ name ∈ firstNames contributors := by
  rw [mem_firstNames, List.lookup_isSome_iff]
  constructor
  · rintro ⟨⟨name', rules⟩, hmem, heq⟩
    exact ⟨rules, eq_of_beq heq ▸ hmem⟩
  · rintro ⟨rules, hmem⟩
    exact ⟨_, hmem, beq_self_eq_true name⟩

/-- Those that come first still do when another one follows. -/
theorem firstRules_concat {contributors : List (Text × List Rule)}
    (h : name ∈ firstNames contributors) (c : Text × List Rule) :
    firstRules (contributors ++ [c]) name = firstRules contributors name := by
  obtain ⟨rules, hrules⟩ := Option.isSome_iff_exists.mp (isSome_lookup_iff.mpr h)
  rw [firstRules, firstRules, List.lookup_append, hrules, Option.some_or]

theorem firstNames_concat (contributors : List (Text × List Rule)) (c : Text × List Rule) :
    firstNames (contributors ++ [c]) = if c.1 ∈ firstNames contributors then firstNames contributors
      else firstNames contributors ++ [c.1] := by
  simp only [firstNames, List.map_append, List.map_cons, List.map_nil, List.eraseDups_append,
    List.mem_eraseDups]
  split
  · next h => simp [List.removeAll, h]
  · next h => simp [List.removeAll, h, List.eraseDups_cons]

/-- A name that is there already changes nothing. -/
theorem firsts_concat_of_mem {contributors : List (Text × List Rule)}
    (h : name ∈ firstNames contributors) (rules : List Rule) :
    firsts (contributors ++ [(name, rules)]) = firsts contributors := by
  rw [firsts, firstNames_concat, if_pos h]
  exact List.map_congr_left fun name' hmem => by rw [firstRules_concat hmem]

theorem firsts_concat_of_not_mem {contributors : List (Text × List Rule)}
    (h : name ∉ firstNames contributors) (rules : List Rule) :
    firsts (contributors ++ [(name, rules)]) = firsts contributors ++ [(name, rules)] := by
  have hlookup : contributors.lookup name = none :=
    Option.not_isSome_iff_eq_none.mp (mt isSome_lookup_iff.mp h)
  have hown : firstRules (contributors ++ [(name, rules)]) name = rules := by
    simp [firstRules, List.lookup_append, hlookup]
  rw [firsts, firstNames_concat, if_neg h, List.map_append, List.map_singleton, hown]
  refine congrArg (· ++ [(name, rules)]) (List.map_congr_left fun name' hmem => ?_)
  rw [firstRules_concat hmem]

theorem map_fst_firsts (contributors : List (Text × List Rule)) :
    (firsts contributors).map (·.1) = firstNames contributors := by
  rw [firsts, List.map_map]
  exact List.map_id _

/-! ## Runs -/

theorem offers_build (before : List Request) : offers (before ++ [.build]) = offers before :=
  List.filterMap_append.trans (List.append_nil _)

theorem offers_register (before : List Request) (name : Text) (rules : List Rule) :
    offers (before ++ [.register name rules]) = offers before ++ [(name, rules)] :=
  List.filterMap_append

theorem contributors_after (requests : List Request) :
    (fresh.after requests).registry.contributors = firsts (offers requests) := by
  induction requests using List.reverseRecOn with
  | nil => rfl
  | append_singleton before r ih =>
    have hnames : (fresh.after before).registry.names = firstNames (offers before) := by
      rw [Registry.names, ih, map_fst_firsts]
    rw [after_append]
    change ((fresh.after before).step r).2.registry.contributors = _
    cases r with
    | build =>
      rw [offers_build]
      exact ih
    | register name rules =>
      rw [offers_register]
      by_cases h : name ∈ firstNames (offers before)
      · rw [step_of_mem (hnames ▸ h), firsts_concat_of_mem h]
        exact ih
      · rw [step_of_not_mem (hnames ▸ h), firsts_concat_of_not_mem h, ih]

theorem names_after (requests : List Request) :
    (fresh.after requests).registry.names = firstNames (offers requests) := by
  rw [Registry.names, contributors_after, map_fst_firsts]

theorem build_after (requests : List Request) : (fresh.after requests).registry.build =
    ⟨(firstNames (offers requests)).flatMap (firstRules (offers requests))⟩ := by
  rw [Registry.build, contributors_after, firsts, List.flatMap_map]

/-- A name that has been offered has been registered, when it was offered first. -/
theorem hasRegistered_iff {requests : List Request} :
    HasRegistered requests name ↔ name ∈ (fresh.after requests).registry.names := by
  rw [names_after]
  constructor
  · rintro ⟨earlier, rules, between, rfl, -⟩
    exact mem_firstNames.mpr ⟨rules, List.mem_filterMap.mpr ⟨.register name rules, by simp, rfl⟩⟩
  · intro hmem
    induction requests using List.reverseRecOn with
    | nil => simp [offers, mem_firstNames] at hmem
    | append_singleton before r ih =>
      by_cases hbefore : name ∈ firstNames (offers before)
      · obtain ⟨earlier, rules, between, rfl, hreply⟩ := ih hbefore
        exact ⟨earlier, rules, between ++ [r], by simp, hreply⟩
      · cases r with
        | build => exact absurd (offers_build before ▸ hmem) hbefore
        | register name' rules =>
          rw [offers_register, firstNames_concat] at hmem
          split at hmem
          · exact absurd hmem hbefore
          · obtain rfl := List.mem_singleton.mp ((List.mem_append.mp hmem).resolve_left hbefore)
            refine ⟨before, rules, [], rfl, ?_⟩
            rw [step_of_not_mem (names_after before ▸ hbefore)]

/-- A refused request leaves nothing behind. -/
theorem after_of_hasRegistered (h : HasRegistered before name) (rules : List Rule)
    (later : List Request) :
    fresh.after (before ++ .register name rules :: later) = fresh.after (before ++ later) ∧
      (fresh.after before).replies (.register name rules :: later) =
        .refused ⟨name⟩ :: (fresh.after before).replies later := by
  have hstep := step_of_mem (hasRegistered_iff.mp h) rules
  constructor
  · rw [after_append, after_append]
    exact congrArg (fun answer => after answer.2 later) hstep
  · rw [replies, hstep]

/-- A database keeps its place among those that have been built, and its rules. -/
theorem databases_after_build (before later : List Request) :
    (fresh.after (before ++ .build :: later)).databases[(fresh.after before).databases.length]? =
      some (fresh.after before).registry.build := by
  rw [after_append]
  obtain ⟨more, hmore⟩ := databases_prefix ((fresh.after before).step .build).2 later
  have hbuilt : ((fresh.after before).step .build).2.databases =
      (fresh.after before).databases ++ [(fresh.after before).registry.build] := rfl
  change (after ((fresh.after before).step .build).2 later).databases[_]? = _
  rw [← hmore, hbuilt, List.append_assoc, List.getElem?_append_right (Nat.le_refl _), Nat.sub_self]
  rfl

/-- A name is refused exactly when it has been registered, which then changes nothing. The names are
those that were offered, in the order in which each came first, and a database holds the rules that
came with them then, also after other requests. -/
theorem registers_once (before : List Request) :
    (fresh.after before).registry.names = firstNames (offers before) ∧
    (∀ name rules,
      (((fresh.after before).step (.register name rules)).1 = .refused ⟨name⟩ ↔
        HasRegistered before name) ∧
      (((fresh.after before).step (.register name rules)).1 = .registered ↔
        ¬ HasRegistered before name)) ∧
    (∀ name rules later, HasRegistered before name →
      fresh.after (before ++ .register name rules :: later) = fresh.after (before ++ later) ∧
      (fresh.after before).replies (.register name rules :: later) =
        .refused ⟨name⟩ :: (fresh.after before).replies later) ∧
    ((fresh.after before).step .build).1 =
      .built ⟨(firstNames (offers before)).flatMap (firstRules (offers before))⟩ ∧
    ∀ later,
      (fresh.after (before ++ .build :: later)).databases[(fresh.after before).databases.length]? =
        some ⟨(firstNames (offers before)).flatMap (firstRules (offers before))⟩ := by
  refine ⟨names_after before, fun name rules => ?_, fun name rules later h => ?_, ?_, ?_⟩
  · rw [hasRegistered_iff]
    by_cases h : name ∈ (fresh.after before).registry.names
    · simp [step_of_mem h, h]
    · simp [step_of_not_mem h, h]
  · exact after_of_hasRegistered h rules later
  · exact congrArg Reply.built (build_after before)
  · intro later
    rw [databases_after_build, build_after]

/-- A name that comes again with other rules, between two databases. -/
theorem registers_once_again :
    ∃ (one two : Rule) (before later : List Request),
      before = [.register "elf".toList [one], .build] ∧
      later = [.register "png".toList [two, one], .build] ∧ HasRegistered before "elf".toList ∧
      ((fresh.after before).step (.register "elf".toList [two])).1 = .refused ⟨"elf".toList⟩ ∧
      (fresh.after (before ++ .register "elf".toList [two] :: later)).registry.names =
        ["elf".toList, "png".toList] ∧
      (fresh.after (before ++ .register "elf".toList [two] :: later)).databases =
        [⟨[one]⟩, ⟨[one, two, one]⟩] := by
  let one : Rule := ⟨.fallback (.fixed 0), "one".toList, []⟩
  let two : Rule := ⟨.fallback (.fixed 0), "two".toList, []⟩
  let before : List Request := [.register "elf".toList [one], .build]
  let later : List Request := [.register "png".toList [two, one], .build]
  have hregistered : HasRegistered before "elf".toList := ⟨[], [one], [.build], rfl, rfl⟩
  obtain ⟨-, hreply, hrefused, -⟩ := registers_once before
  obtain ⟨hafter, -⟩ := hrefused "elf".toList [two] later hregistered
  refine ⟨one, two, before, later, rfl, rfl, hregistered, ?_, ?_, ?_⟩
  · exact (hreply "elf".toList [two]).1.mpr hregistered
  · rw [hafter]
    rfl
  · rw [hafter]
    rfl

end Workshop
end FileMagic
