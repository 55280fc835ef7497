import FileMagic.Proofs.Rendering
import FileMagic.Proofs.Signature
import FileMagic.Database

/-! # What the first message decides

A description starts with its first message, if that is a label: a text that is not empty, is
not attached to anything, and has no blank at its ends. A rule that asks for a signature and
has a label leads to descriptions that start with it, whatever the rules below it add. -/

namespace FileMagic

namespace Description

/-- A message with which a description can start as it is. -/
structure IsLabel (m : Text) : Prop where
  ne_nil : m ≠ []
  unmarked : mark.isPrefixOf m = false
  first : m.head?.any isBlank = false
  last : m.getLast?.any isBlank = false

instance (m : Text) : Decidable (IsLabel m) :=
  decidable_of_iff (m ≠ [] ∧ mark.isPrefixOf m = false ∧ m.head?.any isBlank = false ∧
    m.getLast?.any isBlank = false)
    ⟨fun ⟨a, b, c, d⟩ => ⟨a, b, c, d⟩, fun h => ⟨h.ne_nil, h.unmarked, h.first, h.last⟩⟩

theorem prefix_append (d m : Text) : d <+: append d m := by
  unfold append
  split
  · exact List.prefix_rfl
  · split
    · exact List.prefix_append d _
    · split
      · next hempty =>
        rw [List.isEmpty_iff.mp hempty]
        exact List.nil_prefix
      · rw [List.append_assoc]
        exact List.prefix_append d _

theorem prefix_foldl (messages : List Text) (d : Text) : d <+: messages.foldl append d := by
  induction messages generalizing d with
  | nil => exact List.prefix_rfl
  | cons m rest ih => exact (prefix_append d m).trans (ih (append d m))

theorem IsLabel.append_nil {m : Text} (h : IsLabel m) : append [] m = m := by
  have hne := h.ne_nil
  simp [append, h.unmarked, hne]

theorem IsLabel.strip_append {m : Text} (h : IsLabel m) (rest : Text) :
    Text.strip (m ++ rest) = m ++ Text.dropEnd isBlank rest := by
  rw [Text.strip, Text.dropWhile_append_of_head h.ne_nil h.first,
    Text.dropEnd_append_of_getLast h.ne_nil h.last]

theorem IsLabel.ofMessages_singleton {m : Text} (h : IsLabel m) : ofMessages [m] = m := by
  have hstrip := h.strip_append []
  rw [List.append_nil] at hstrip
  rw [ofMessages, List.foldl_cons, h.append_nil, List.foldl_nil, hstrip]
  exact List.append_nil m

/-- A description starts with any label that its messages, put together, start with. -/
theorem IsLabel.prefix_describe_of_foldl {m : Text} (h : IsLabel m) {messages : List Text}
    (hm : m <+: messages.foldl append []) : m <+: Database.describe (some messages) := by
  obtain ⟨more, hmore⟩ := hm
  have hp : m <+: ofMessages messages := by
    rw [ofMessages, ← hmore, h.strip_append]
    exact List.prefix_append m _
  have hne : (ofMessages messages).isEmpty = false := by
    rw [Bool.eq_false_iff, Ne, List.isEmpty_iff]
    intro hnil
    rw [hnil] at hp
    exact h.ne_nil (List.prefix_nil.mp hp)
  simpa [Database.describe, hne] using hp

/-- A description starts with its first message. -/
theorem IsLabel.prefix_describe {m : Text} (h : IsLabel m) (rest : List Text) :
    m <+: Database.describe (some (m :: rest)) := by
  refine h.prefix_describe_of_foldl ?_
  rw [List.foldl_cons, h.append_nil]
  exact prefix_foldl rest m

theorem IsLabel.describe_singleton {m : Text} (h : IsLabel m) :
    Database.describe (some [m]) = m := by
  have hne : m.isEmpty = false := by simp [h.ne_nil]
  rw [Database.describe, h.ofMessages_singleton]
  simp [hne]

/-- Nothing said at first makes no difference. -/
theorem describe_nil_cons (messages : List Text) :
    Database.describe (some ([] :: messages)) = Database.describe (some messages) := rfl

end Description

namespace Test

theorem mem_operators_of_asks {t : Test} {offset : Nat} {octets : Bytes}
    (h : t.asks offset octets = true) : t.operator ∈ t.operators := by
  unfold asks at h
  split at h
  · exact List.mem_cons_self
  · exact List.mem_cons_self
  · cases h

end Test

namespace Rule

variable {s : Stream}

/-- A rule that matches reports its message before what is below it. -/
theorem walk_of_evaluate {r : Rule} {m : Text}
    (h : r.test.evaluate s r.message = .ok (some m)) :
    r.walk s = (walkChildren s false r.children).map fun below => some (m :: below) := by
  obtain ⟨test, message, children⟩ := r
  rw [walk, h, ok_bind]
  cases walkChildren s false children <;> rfl

theorem walk_of_no_match {r : Rule} (h : r.test.evaluate s r.message = .ok none) :
    r.walk s = .ok none := by
  obtain ⟨test, message, children⟩ := r
  rw [walk, h]
  rfl

/-- What siblings report is what those after one that does not match do. -/
theorem walkChildren_cons_none {r : Rule} (h : r.walk s = .ok none) (matched : Bool)
    (rest : List Rule) : walkChildren s matched (r :: rest) = walkChildren s matched rest := by
  obtain ⟨test, message, children⟩ := r
  rw [walkChildren, h]
  split <;> rfl

/-- What siblings report starts with what the first of them that matches does. -/
theorem walkChildren_cons_some {r : Rule} {own : List Text} {matched : Bool}
    (hdue : (r.test.isFallback && matched) = false) (h : r.walk s = .ok (some own))
    (rest : List Rule) :
    walkChildren s matched (r :: rest) = (walkChildren s true rest).map (own ++ ·) := by
  obtain ⟨test, message, children⟩ := r
  rw [walkChildren, if_neg (Bool.eq_false_iff.mp hdue), h, ok_bind]
  cases walkChildren s true rest <;> rfl

theorem walkChildren_singleton {r : Rule} {own : List Text} (h : r.walk s = .ok (some own)) :
    walkChildren s false [r] = .ok own := by
  rw [walkChildren_cons_some (Bool.and_false _) h, walkChildren]
  exact congrArg Except.ok (List.append_nil own)

/-- The rule says `label` of content with these octets at this offset. -/
def leads (offset : Nat) (octets : Bytes) (label : Text) (r : Rule) : Bool :=
  r.test.asks offset octets && r.message = label && !label.contains '%'

theorem evaluate_of_leads (hs : s.InMemory) {r : Rule} {offset : Nat} {octets : Bytes}
    {label : Text} (h : r.leads offset octets label = true)
    (ho : (offset : Int) < Stream.positionLimit)
    (hsize : (octets.length : Int) < Stream.positionLimit) :
    r.test.evaluate s r.message =
      .ok (if Stream.Found s.content offset octets then some label else none) := by
  simp only [leads, Bool.and_eq_true, decide_eq_true_eq, Bool.not_eq_true'] at h
  obtain ⟨⟨hasks, rfl⟩, hplain⟩ := h
  have hmem : '%' ∉ r.message := by simpa using hplain
  have haccepted := List.contains_iff_mem.mpr (Test.mem_operators_of_asks hasks)
  rw [Test.evaluate, Test.checkOperator, if_pos haccepted, ok_bind,
    Test.hit_of_asks hs hasks ho hsize, ok_bind]
  by_cases hfound : Stream.Found s.content offset octets
  · simp only [if_pos hfound, Template.render_of_not_mem hmem]
    rfl
  · simp only [if_neg hfound]
    rfl

theorem walk_of_leads (hs : s.InMemory) {r : Rule} {offset : Nat} {octets : Bytes}
    {label : Text} (h : r.leads offset octets label = true)
    (ho : (offset : Int) < Stream.positionLimit)
    (hsize : (octets.length : Int) < Stream.positionLimit) :
    r.walk s = if Stream.Found s.content offset octets then
      (walkChildren s false r.children).map fun below => some (label :: below)
    else .ok none := by
  have heval := evaluate_of_leads hs h ho hsize
  by_cases hfound : Stream.Found s.content offset octets
  · rw [if_pos hfound] at heval ⊢
    exact walk_of_evaluate heval
  · rw [if_neg hfound] at heval ⊢
    exact walk_of_no_match heval

/-- A single rule below another one, which leads somewhere. -/
theorem walkChildren_of_leads (hs : s.InMemory) {r : Rule} {offset : Nat} {octets : Bytes}
    {label : Text} (h : r.leads offset octets label = true)
    (ho : (offset : Int) < Stream.positionLimit)
    (hsize : (octets.length : Int) < Stream.positionLimit) :
    walkChildren s false [r] = if Stream.Found s.content offset octets then
      (walkChildren s false r.children).map fun below => label :: below
    else .ok [] := by
  have hwalk := walk_of_leads hs h ho hsize
  obtain ⟨test, message, children⟩ := r
  rw [walkChildren, Bool.and_false, if_neg Bool.false_ne_true, hwalk]
  by_cases hfound : Stream.Found s.content offset octets
  · simp only [if_pos hfound]
    cases walkChildren s false children with
    | error f => rfl
    | ok below => simp [Except.map, walkChildren]
  · simp only [if_neg hfound]
    rfl

end Rule
end FileMagic
