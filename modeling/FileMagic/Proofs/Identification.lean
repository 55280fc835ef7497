import FileMagic.Builtin.Registry
import FileMagic.Pattern.Engine
import FileMagic.Proofs.Calm
import FileMagic.Proofs.Label
import FileMagic.Proofs.Recompile

/-! # What the rules that come with the engine say

The top-level rules ask for signatures, and each says what it has found before anything else.
None of the rules ever strains, as their texts alone show. So every content has a description,
and the first signature that it carries decides how the description starts
(`probe_identifies`). -/

namespace FileMagic

namespace Database

variable {s : Stream} {r : Rule} {offset : Nat} {octets : Bytes} {label : Text}

/-- The description that rules give of content. -/
def Describes (s : Stream) (rules : List Rule) (description : Text) : Prop :=
  ∃ messages, firstMatch s rules = .ok messages ∧ describe messages = description

/-- The first rule decides when its signature is found, and the others when it is not. -/
theorem describes_cons {P Q : Text → Prop} {rest : List Rule} (hs : s.InMemory)
    (h : r.leads offset octets label = true) (ho : (offset : Int) < Stream.positionLimit)
    (hsize : (octets.length : Int) < Stream.positionLimit)
    (hp : ∀ below, Rule.walkChildren s false r.children = .ok below →
      P (describe (some (label :: below))))
    (hq : ∀ t, Describes s rest t → Q t) :
    ∀ t, Describes s (r :: rest) t →
      if Stream.Found s.content offset octets then P t else Q t := by
  intro t ht
  obtain ⟨messages, hok, rfl⟩ := ht
  rw [firstMatch, Rule.walk_of_leads hs h ho hsize] at hok
  by_cases hfound : Stream.Found s.content offset octets
  · rw [if_pos hfound] at hok ⊢
    obtain ⟨own, hown, hok⟩ := bind_eq_ok_iff.mp hok
    obtain ⟨below, hbelow, rfl⟩ := map_eq_ok_iff.mp hown
    cases hok
    exact hp below hbelow
  · rw [if_neg hfound] at hok ⊢
    exact hq _ ⟨messages, hok, rfl⟩

end Database

namespace Builtin

/-- What the top-level rules ask for and say. An image has one more signature, an empty archive
nothing more to look at. -/
def leadsAsListed : List Rule → Bool
  | [elf, png, zip, empty, kernel, scripts] =>
    elf.leads 0 [0x7f, 0x45, 0x4c, 0x46] "ELF".toList &&
      png.leads 0 [0x89, 0x50, 0x4e, 0x47] [] &&
      (match png.children with
        | [image] => image.leads 4 [0x0d, 0x0a, 0x1a, 0x0a] "PNG image data".toList
        | _ => false) &&
      zip.leads 0 [0x50, 0x4b, 0x03, 0x04] "Zip archive data".toList &&
      empty.leads 0 [0x50, 0x4b, 0x05, 0x06] "Zip archive data (empty)".toList &&
      empty.children.isEmpty &&
      kernel.leads 514 [0x48, 0x64, 0x72, 0x53] "Linux kernel".toList &&
      scripts.leads 0 [0x23, 0x21] "script text".toList
  | _ => false

/-- The expressions of the rules. With a flag the case of letters does not matter. -/
def expressions : List (Bool × Text) :=
  [(false, "python[0-9.]*".toList), (false, "(ba|z|k|da)?sh\\b".toList), (false, "perl".toList),
    (true, "^\\[content_types\\]\\.xml".toList)]

/-- The engine accepts the expressions of the rules. -/
def Accepted [RegexEngine] : Prop :=
  ∀ x ∈ expressions, (RegexEngine.compile? x.1 x.2.utf8).isSome = true

/-- The lines compile, with no other expressions than these, for an engine that accepts all. -/
def expressesListed (lines : List Text) : Bool :=
  match @RuleText.compileLines .lenient lines with
  | .ok rules => (Forest.toEntries rules).all fun e =>
      e.test.expression?.all fun x => (expressions.map fun y => (y.1, y.2.utf8)).contains x
  | .error _ => false

theorem checked_lenient : ((contributors.all fun c => expressesListed c.2) &&
    leadsAsListed (@database .lenient).rules &&
      (Forest.toEntries (@database .lenient).rules).all Entry.isCalm) = true := by
  decide +kernel

theorem contributors_checked : ∀ c ∈ contributors, expressesListed c.2 = true :=
  List.all_eq_true.mp (Bool.and_eq_true_iff.mp (Bool.and_eq_true_iff.mp checked_lenient).1).1

theorem database_checked : leadsAsListed (@database .lenient).rules = true ∧
    (Forest.toEntries (@database .lenient).rules).all Entry.isCalm = true :=
  ⟨(Bool.and_eq_true_iff.mp (Bool.and_eq_true_iff.mp checked_lenient).1).2,
    (Bool.and_eq_true_iff.mp checked_lenient).2⟩

section
variable [RegexEngine]

theorem rulesOf_recompile (ha : Accepted) {lines : List Text} (h : expressesListed lines = true) :
    rulesOf lines = (@rulesOf .lenient lines).map Rule.recompile := by
  unfold expressesListed at h
  split at h
  · next rules hlenient =>
    have haccepted : ∀ e ∈ Forest.toEntries rules, e.test.IsAccepted := by
      intro e he x hx
      have hlisted := List.all_eq_true.mp h e he
      rw [Option.mem_def.mp hx] at hlisted
      obtain ⟨y, hy, rfl⟩ := List.mem_map.mp (List.contains_iff_mem.mp hlisted)
      exact ha y hy
    simp only [rulesOf, RuleText.compileLines_recompile hlenient haccepted, hlenient]
  · cases h

/-- The rules are those of any engine, but for their expressions. -/
theorem database_recompile (ha : Accepted) :
    database.rules = (@database .lenient).rules.map Rule.recompile := by
  have hrules : ∀ c ∈ contributors, rulesOf c.2 = (@rulesOf .lenient c.2).map Rule.recompile :=
    fun c hc => rulesOf_recompile ha (contributors_checked c hc)
  simp only [database, registry, Registry.build, List.flatMap_map, List.map_flatMap]
  exact congrArg List.flatten (List.map_congr_left hrules)

theorem leads_recompile (r : Rule) (offset : Nat) (octets : Bytes) (label : Text) :
    r.recompile.leads offset octets label = r.leads offset octets label := by
  obtain ⟨test, message, children⟩ := r
  cases test <;> rfl

theorem leadsAsListed_recompile {rules : List Rule} (h : leadsAsListed rules = true) :
    leadsAsListed (rules.map Rule.recompile) = true := by
  unfold leadsAsListed at h
  split at h
  · next elf png zip empty kernel scripts =>
    simp only [leadsAsListed, List.map_cons, List.map_nil, leads_recompile,
      Rule.children_recompile, List.isEmpty_map]
    cases hchildren : png.children with
    | nil => simp [hchildren] at h
    | cons image rest =>
      cases rest with
      | nil => simpa only [hchildren, List.map_cons, List.map_nil, leads_recompile] using h
      | cons next rest => simp [hchildren] at h
  · cases h

theorem isCalm_recompile (e : Entry) : e.recompile.isCalm = e.isCalm := by
  obtain ⟨depth, test, message⟩ := e
  cases test <;> rfl

end

/-- How a description identifies content. -/
def Identifies (content : Bytes) (description : Text) : Prop :=
  if Stream.Found content 0 [0x7f, 0x45, 0x4c, 0x46] then "ELF".toList <+: description
  else if Stream.Found content 0 [0x89, 0x50, 0x4e, 0x47] then
    if Stream.Found content 4 [0x0d, 0x0a, 0x1a, 0x0a] then
      "PNG image data".toList <+: description
    else description = "data".toList
  else if Stream.Found content 0 [0x50, 0x4b, 0x03, 0x04] then
    "Zip archive data".toList <+: description
  else if Stream.Found content 0 [0x50, 0x4b, 0x05, 0x06] then
    description = "Zip archive data (empty)".toList
  else if Stream.Found content 514 [0x48, 0x64, 0x72, 0x53] then
    "Linux kernel".toList <+: description
  else if Stream.Found content 0 [0x23, 0x21] then "script text".toList <+: description
  else description = "data".toList

variable {s : Stream}

/-- An image says what it is when its header follows, and nothing at all otherwise. -/
theorem below_of_header (hs : s.InMemory) {png : Rule} {below : List Text}
    (himage : (match png.children with
      | [image] => image.leads 4 [0x0d, 0x0a, 0x1a, 0x0a] "PNG image data".toList
      | _ => false) = true)
    (hbelow : Rule.walkChildren s false png.children = .ok below) :
    if Stream.Found s.content 4 [0x0d, 0x0a, 0x1a, 0x0a] then
      ∃ more, below = "PNG image data".toList :: more
    else below = [] := by
  split at himage
  · next image heq =>
    rw [heq, Rule.walkChildren_of_leads hs himage (by decide) (by decide)] at hbelow
    split
    · next hfound =>
      rw [if_pos hfound] at hbelow
      obtain ⟨more, -, rfl⟩ := map_eq_ok_iff.mp hbelow
      exact ⟨more, rfl⟩
    · next hfound =>
      rw [if_neg hfound] at hbelow
      cases hbelow
      rfl
  · cases himage

theorem describes_identifies (hs : s.InMemory) {rules : List Rule}
    (hlead : leadsAsListed rules = true) :
    ∀ t, Database.Describes s rules t → Identifies s.content t := by
  have helf : Description.IsLabel "ELF".toList := by decide +kernel
  have himage : Description.IsLabel "PNG image data".toList := by decide +kernel
  have hzip : Description.IsLabel "Zip archive data".toList := by decide +kernel
  have hempty : Description.IsLabel "Zip archive data (empty)".toList := by decide +kernel
  have hkernel : Description.IsLabel "Linux kernel".toList := by decide +kernel
  have hscript : Description.IsLabel "script text".toList := by decide +kernel
  unfold leadsAsListed at hlead
  split at hlead
  · next elf png zip empty kernel scripts =>
    simp only [Bool.and_eq_true] at hlead
    obtain ⟨⟨⟨⟨⟨⟨⟨lelf, lpng⟩, limage⟩, lzip⟩, lempty⟩, lnone⟩, lkernel⟩, lscripts⟩ := hlead
    unfold Identifies
    refine Database.describes_cons hs lelf (by decide) (by decide)
      (fun below _ => helf.prefix_describe below) ?_
    refine Database.describes_cons hs lpng (by decide) (by decide) (fun below hbelow => ?_) ?_
    · have hheader := below_of_header hs limage hbelow
      rw [Description.describe_nil_cons]
      by_cases hfound : Stream.Found s.content 4 [0x0d, 0x0a, 0x1a, 0x0a]
      · rw [if_pos hfound] at hheader ⊢
        obtain ⟨more, rfl⟩ := hheader
        exact himage.prefix_describe more
      · rw [if_neg hfound] at hheader ⊢
        rw [hheader]
        rfl
    refine Database.describes_cons hs lzip (by decide) (by decide)
      (fun below _ => hzip.prefix_describe below) ?_
    refine Database.describes_cons hs lempty (by decide) (by decide) (fun below hbelow => ?_) ?_
    · rw [List.isEmpty_iff.mp lnone] at hbelow
      cases hbelow
      exact hempty.describe_singleton
    refine Database.describes_cons hs lkernel (by decide) (by decide)
      (fun below _ => hkernel.prefix_describe below) ?_
    refine Database.describes_cons hs lscripts (by decide) (by decide)
      (fun below _ => hscript.prefix_describe below) ?_
    intro t h
    obtain ⟨messages, hok, rfl⟩ := h
    cases hok
    rfl
  · cases hlead

/-- Every content that can be in memory has a description, which starts as its first signature
says. -/
theorem probe_identifies [RegexEngine] (ha : Accepted) (content : Bytes)
    (hl : (content.length : Int) < Stream.positionLimit) :
    ∃ description, database.probe (.ofBytes content) = .ok description ∧
      Identifies content description := by
  have hs := Stream.inMemory_ofBytes hl
  obtain ⟨hlead, hcalm⟩ := database_checked
  have hcalm' : (Forest.toEntries database.rules).all Entry.isCalm = true := by
    rw [database_recompile ha, Forest.toEntries_recompile, List.all_map]
    simpa only [Function.comp_def, isCalm_recompile] using hcalm
  have hlead' := database_recompile ha ▸ leadsAsListed_recompile hlead
  obtain ⟨messages, hmatching⟩ := Scan.matching_isOk hs hcalm'
  refine ⟨Database.describe messages, ?_, ?_⟩
  · rw [Database.probe, hmatching]
    rfl
  · exact describes_identifies hs hlead' _ ⟨messages, hmatching, rfl⟩

/-- The signature of an image without the header that has to follow, for an engine of patterns. -/
theorem probe_identifies_bare_image :
    Accepted ∧ (([0x89, 0x50, 0x4e, 0x47] : Bytes).length : Int) < Stream.positionLimit ∧
      database.probe (.ofBytes [0x89, 0x50, 0x4e, 0x47]) = .ok "data".toList := by
  have hl : (([0x89, 0x50, 0x4e, 0x47] : Bytes).length : Int) < Stream.positionLimit := by decide
  have ha : Accepted := by
    have hall : (expressions.all fun x => (RegexEngine.compile? x.1 x.2.utf8).isSome) = true := by
      decide +kernel
    exact List.all_eq_true.mp hall
  obtain ⟨t, hprobe, ht⟩ := probe_identifies ha _ hl
  rw [Identifies, if_neg (by decide), if_pos (by decide), if_neg (by decide)] at ht
  rw [ht] at hprobe
  exact ⟨ha, hl, hprobe⟩

end Builtin
end FileMagic
