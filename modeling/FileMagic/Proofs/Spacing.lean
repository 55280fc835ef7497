import FileMagic.Proofs.FallThrough
import FileMagic.Proofs.Glue
import Mathlib.Data.List.Induction

/-! # How a description is put together

Empty messages count for nothing. Each of the others adds its body, which is the message without the
mark, and before it a space if it is not marked and something has been said by then: not by the
message before it, but by any (`joined_eq_assembled`). Blanks are cut off once, from the ends of the
whole (`Text.StripsTo`). So a description that is given is never empty and never ends in a blank,
and it is the last resort where no rule matches or the messages come to nothing
(`description_of_bodies`). -/

namespace FileMagic

namespace Text

/-- The one without the blanks that the other has at its ends. -/
structure StripsTo (whole t : Text) : Prop where
  split : ∃ before after, whole = before ++ t ++ after ∧ (∀ c ∈ before, isBlank c = true) ∧
    ∀ c ∈ after, isBlank c = true
  first : t.head?.any isBlank = false
  last : t.getLast?.any isBlank = false

theorem head?_dropWhile_isBlank (t : Text) : (t.dropWhile isBlank).head?.any isBlank = false := by
  have hhead := List.head?_dropWhile_not isBlank t
  cases hc : (t.dropWhile isBlank).head? with
  | none => rfl
  | some c =>
    rw [hc] at hhead
    exact hhead

theorem dropWhile_isBlank_append (t : Text) : ∃ before, t = before ++ t.dropWhile isBlank ∧
    ∀ c ∈ before, isBlank c = true :=
  ⟨t.takeWhile isBlank, List.takeWhile_append_dropWhile.symm,
    List.all_eq_true.mp (List.all_takeWhile ..)⟩

theorem stripsTo_strip (t : Text) : t.StripsTo (strip t) := by
  obtain ⟨before, hbefore, hblank⟩ := dropWhile_isBlank_append t
  obtain ⟨after, hafter, hblank'⟩ := dropWhile_isBlank_append (t.dropWhile isBlank).reverse
  have hend : t.dropWhile isBlank = strip t ++ after.reverse := by
    have hreverse := congrArg List.reverse hafter
    rwa [List.reverse_reverse, List.reverse_append] at hreverse
  refine ⟨⟨before, after.reverse, ?_, hblank, ?_⟩, ?_, ?_⟩
  · rw [List.append_assoc, ← hend, ← hbefore]
  · intro c hc
    exact hblank' c (List.mem_reverse.mp hc)
  · -- what is left is the beginning of what starts with no blank
    have hfirst := head?_dropWhile_isBlank t
    rw [hend] at hfirst
    cases hs : strip t with
    | nil => rfl
    | cons c rest =>
      rw [hs] at hfirst
      exact hfirst
  · rw [strip, dropEnd, List.getLast?_reverse]
    exact head?_dropWhile_isBlank _

end Text

namespace Description

/-- What a message adds: all of it but the mark. -/
def body (m : Text) : Text := if mark <+: m then m.drop mark.length else m

/-- The body of a message behind other messages, with the space before it. -/
def spaced (before : List Text) (m : Text) : Text :=
  if ¬ mark <+: m ∧ ∃ b ∈ before, body b ≠ [] then ' ' :: body m else body m

/-- The messages that are not empty. -/
def said (messages : List Text) : List Text := messages.filter (· ≠ [])

/-- The bodies in their order, with the spaces between them. -/
def assembled (messages : List Text) : Text :=
  ((said messages).mapIdx fun i m => spaced ((said messages).take i) m).flatten

theorem append_nil_right (d : Text) : append d [] = d := rfl

theorem append_eq_nil_iff {d m : Text} : append d m = [] ↔ d = [] ∧ body m = [] := by
  by_cases hm : m = []
  · subst hm
    rw [append_nil_right]
    exact (and_iff_left (show body [] = [] from rfl)).symm
  · unfold body
    by_cases hmark : mark <+: m
    · rw [append_of_marked hmark, if_pos hmark, List.append_eq_nil_iff]
    · rw [append_of_unmarked hm hmark, if_neg hmark]
      simp [hm]

/-- Nothing has been said as long as all bodies are empty. -/
theorem joined_eq_nil_iff {messages : List Text} :
    joined messages = [] ↔ ∀ m ∈ messages, body m = [] := by
  induction messages using List.reverseRecOn with
  | nil => simp [joined]
  | append_singleton before m ih =>
    rw [joined_concat, append_eq_nil_iff, ih]
    simp [or_imp, forall_and]

theorem append_eq_spaced (before : List Text) {m : Text} (hm : m ≠ []) :
    append (joined before) m = joined before ++ spaced before m := by
  unfold spaced
  by_cases hmark : mark <+: m
  · rw [if_neg (fun h => h.1 hmark), append_of_marked hmark, body, if_pos hmark]
  · rw [append_of_unmarked hm hmark, body, if_neg hmark, List.append_assoc]
    by_cases hsaid : joined before = []
    · have hnone : ¬ ∃ b ∈ before, body b ≠ [] := by
        rintro ⟨b, hb, hne⟩
        exact hne (joined_eq_nil_iff.mp hsaid b hb)
      rw [if_neg (fun h => hnone h.2), hsaid]
      rfl
    · have hsome : ∃ b ∈ before, body b ≠ [] := by
        rw [joined_eq_nil_iff] at hsaid
        simpa using hsaid
      rw [if_pos ⟨hmark, hsome⟩, gap, if_neg (by simpa using hsaid)]
      rfl

theorem joined_said (messages : List Text) : joined (said messages) = joined messages := by
  have general : ∀ d, (said messages).foldl append d = messages.foldl append d := by
    induction messages with
    | nil => exact fun _ => rfl
    | cons m rest ih =>
      intro d
      by_cases hm : m = []
      · subst hm
        exact ih d
      · rw [said, List.filter_cons_of_pos (by simpa using hm)]
        exact ih (append d m)
  exact general []

/-- Every message comes behind all those before it. -/
theorem joined_eq_flatten {messages : List Text} (h : ∀ m ∈ messages, m ≠ []) :
    joined messages = (messages.mapIdx fun i m => spaced (messages.take i) m).flatten := by
  induction messages using List.reverseRecOn with
  | nil => rfl
  | append_singleton before m ih =>
    have hbefore : ∀ b ∈ before, b ≠ [] := fun b hb => h b (List.mem_append_left _ hb)
    have hm : m ≠ [] := h m (List.mem_append_right _ (List.mem_singleton_self m))
    have htake : (before.mapIdx fun i b => spaced ((before ++ [m]).take i) b) =
        before.mapIdx fun i b => spaced (before.take i) b := by
      rw [List.mapIdx_eq_mapIdx_iff]
      intro i hi
      rw [List.take_append_of_le_length (Nat.le_of_lt hi)]
    rw [joined_concat, append_eq_spaced before hm, ih hbefore, List.mapIdx_concat, htake,
      List.take_left, List.flatten_append, List.flatten_singleton]

theorem joined_eq_assembled (messages : List Text) : joined messages = assembled messages := by
  rw [← joined_said, assembled]
  refine joined_eq_flatten fun m hm => ?_
  simpa using (List.mem_filter.mp hm).2

theorem ofMessages_said (messages : List Text) : ofMessages (said messages) = ofMessages messages :=
  congrArg Text.strip (joined_said messages)

end Description

namespace Database

variable {s : Stream} {rules : List Rule}

theorem firstMatch_eq_none_iff :
    firstMatch s rules = .ok none ↔ ∀ r ∈ rules, r.walk s = .ok none := by
  induction rules with
  | nil => exact iff_of_true rfl nofun
  | cons r rest ih =>
    rw [firstMatch, List.forall_mem_cons, ← ih]
    cases r.walk s with
    | error e => simp
    | ok outcome =>
      cases outcome with
      | none => exact (and_iff_right rfl).symm
      | some messages => simp

theorem firstMatch_eq_some_iff {messages : List Text} :
    firstMatch s rules = .ok (some messages) ↔ ∃ before r after, rules = before ++ r :: after ∧
      (∀ b ∈ before, b.walk s = .ok none) ∧ r.walk s = .ok (some messages) := by
  constructor
  · intro h
    induction rules with
    | nil => cases h
    | cons r rest ih =>
      obtain ⟨outcome, houtcome, h⟩ := bind_eq_ok_iff.mp h
      cases outcome with
      | none =>
        obtain ⟨before, r', after, rfl, hbefore, hr'⟩ := ih h
        exact ⟨r :: before, r', after, rfl, List.forall_mem_cons.mpr ⟨houtcome, hbefore⟩, hr'⟩
      | some own =>
        cases h
        exact ⟨[], r, rest, rfl, nofun, houtcome⟩
  · rintro ⟨before, r, after, rfl, hbefore, hr⟩
    induction before with
    | nil =>
      rw [List.nil_append, firstMatch, hr]
      rfl
    | cons b before ih =>
      obtain ⟨hb, hbefore⟩ := List.forall_mem_cons.mp hbefore
      rw [List.cons_append, firstMatch, hb]
      exact ih hbefore

/-- Descriptions come about in two ways. -/
theorem probe_eq_ok_iff {d : Database} {t : Text} : d.probe s = .ok t ↔
    (∀ r ∈ d.rules, r.walk s = .ok none) ∧ t = "data".toList ∨
    ∃ before r after messages, d.rules = before ++ r :: after ∧
      (∀ b ∈ before, b.walk s = .ok none) ∧ r.walk s = .ok (some messages) ∧
      t = if Description.ofMessages messages = [] then "data".toList
        else Description.ofMessages messages := by
  rw [probe, map_eq_ok_iff, ← firstMatch_eq_none_iff]
  constructor
  · rintro ⟨outcome, houtcome, rfl⟩
    cases outcome with
    | none => exact .inl ⟨houtcome, rfl⟩
    | some messages =>
      obtain ⟨before, r, after, hrules, hbefore, hr⟩ := firstMatch_eq_some_iff.mp houtcome
      exact .inr ⟨before, r, after, messages, hrules, hbefore, hr, describe_some messages⟩
  · rintro (⟨hnone, rfl⟩ | ⟨before, r, after, messages, hrules, hbefore, hr, rfl⟩)
    · exact ⟨none, hnone, rfl⟩
    · exact ⟨some messages, firstMatch_eq_some_iff.mpr ⟨before, r, after, hrules, hbefore, hr⟩,
        describe_some messages⟩

/-- No description is empty or has a blank at its ends. -/
theorem describe_ends (messages : Option (List Text)) : describe messages ≠ [] ∧
    (describe messages).head?.any isBlank = false ∧
    (describe messages).getLast?.any isBlank = false := by
  have hfallback : "data".toList ≠ [] ∧ "data".toList.head?.any isBlank = false ∧
      "data".toList.getLast?.any isBlank = false := by decide
  cases messages with
  | none => exact hfallback
  | some messages =>
    rw [describe_some]
    split
    · exact hfallback
    · next hne =>
      have hstrip := Text.stripsTo_strip (Description.joined messages)
      exact ⟨hne, hstrip.first, hstrip.last⟩

open Description in
/-- A description is what the bodies of the messages come to, without the blanks at its ends; empty
messages make no difference. What is given of content is such a description, or the last resort. -/
theorem description_of_bodies :
    (∀ messages, (assembled messages).StripsTo (ofMessages messages)) ∧
    (∀ messages more, said more = said messages → ofMessages more = ofMessages messages) ∧
    ∀ (d : Database) (s : Stream) (t : Text),
      (d.probe s = .ok t → t ≠ [] ∧ t.head?.any isBlank = false ∧
        t.getLast?.any isBlank = false) ∧
      (d.probe s = .ok t ↔
        (∀ r ∈ d.rules, r.walk s = .ok none) ∧ t = "data".toList ∨
        ∃ before r after messages, d.rules = before ++ r :: after ∧
          (∀ b ∈ before, b.walk s = .ok none) ∧ r.walk s = .ok (some messages) ∧
          t = if ofMessages messages = [] then "data".toList else ofMessages messages) := by
  refine ⟨fun messages => ?_, fun messages more hsaid => ?_, fun d s t => ⟨?_, probe_eq_ok_iff⟩⟩
  · rw [← joined_eq_assembled]
    exact Text.stripsTo_strip (joined messages)
  · rw [← ofMessages_said more, hsaid, ofMessages_said]
  · intro h
    obtain ⟨messages, -, rfl⟩ := map_eq_ok_iff.mp h
    exact describe_ends messages

open Description in
/-- A bare mark and a blank come to nothing, and an empty message changes nothing. -/
theorem description_of_bodies_bare_mark :
    let messages := ["", "\\bA", "\\b", "", "B", " "].map String.toList
    let more := ["\\bA", "\\b", "B", " "].map String.toList
    let r : Rule := ⟨.integer (.make (.fixed 0) .byte true .native .any none), "\\b".toList, []⟩
    let d : Database := ⟨[r]⟩
    let s : Stream := .ofBytes [0]
    said more = said messages ∧ assembled messages = "A B  ".toList ∧
      ofMessages messages = "A B".toList ∧ ofMessages more = "A B".toList ∧
      r.walk s = .ok (some ["\\b".toList]) ∧ d.probe s = .ok "data".toList ∧
      "data".toList ≠ [] := by
  intro messages more r d s
  have hsaid : said more = said messages := by decide
  have hmessages : ofMessages messages = "A B".toList := by rfl
  have hwalk : r.walk s = .ok (some ["\\b".toList]) := by rfl
  obtain ⟨-, hmore, hprobe⟩ := description_of_bodies
  obtain ⟨hends, hiff⟩ := hprobe d s "data".toList
  have hdata : d.probe s = .ok "data".toList :=
    hiff.mpr (.inr ⟨[], r, [], ["\\b".toList], rfl, nofun, hwalk, rfl⟩)
  exact ⟨hsaid, by decide, hmessages, (hmore messages more hsaid).trans hmessages, hwalk, hdata,
    (hends hdata).1⟩

end Database
end FileMagic
