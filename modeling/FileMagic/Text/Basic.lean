/-! Texts are lists of characters and file contents lists of octets: everything the
engine does with either is list recursion. -/

-- Powers of natural numbers and integers are those of the core library, whatever is imported.
attribute [default_instance 20000, instance (2000)] instPowNat

namespace FileMagic

abbrev Text := List Char
abbrev Bytes := List UInt8

namespace Text

/-- The part before the longest ending made of characters satisfying `p`. -/
def dropEnd (p : Char → Bool) (t : Text) : Text :=
  (t.reverse.dropWhile p).reverse

/-- The parts of a text before and after its first `sep`; the second is empty
when there is none. -/
def cut (sep : Char) : Text → Text × Text
  | [] => ([], [])
  | c :: rest =>
    if c = sep then ([], rest)
    else (c :: (cut sep rest).1, (cut sep rest).2)

def join (sep : Text) : List Text → Text
  | [] => []
  | [t] => t
  | t :: rest => t ++ sep ++ join sep rest

/-- A run of characters ends where the next one does not belong to it. -/
theorem takeWhile_run {p : Char → Bool} {run rest : Text} (h : ∀ c ∈ run, p c = true)
    (hstop : rest.head?.any p = false) : (run ++ rest).takeWhile p = run := by
  rw [List.takeWhile_append_of_pos h]
  cases rest with
  | nil => exact List.append_nil run
  | cons c rest => rw [List.takeWhile_cons_of_neg (by simpa using hstop), List.append_nil]

theorem dropWhile_run {p : Char → Bool} {run rest : Text} (h : ∀ c ∈ run, p c = true)
    (hstop : rest.head?.any p = false) : (run ++ rest).dropWhile p = rest := by
  rw [List.dropWhile_append_of_pos h]
  cases rest with
  | nil => rfl
  | cons c rest => exact List.dropWhile_cons_of_neg (by simpa using hstop)

theorem dropWhile_append_of_head {p : Char → Bool} {m : Text} (hm : m ≠ [])
    (hfirst : m.head?.any p = false) (rest : Text) : (m ++ rest).dropWhile p = m ++ rest := by
  cases m with
  | nil => exact absurd rfl hm
  | cons c m =>
    have hc : p c = false := hfirst
    rw [List.cons_append, List.dropWhile_cons_of_neg (by simp [hc])]

/-- What is cut is the longest ending of such characters. -/
theorem dropEnd_eq_iff {p : Char → Bool} {t u : Text} : dropEnd p t = u ↔
    ∃ ending, t = u ++ ending ∧ (∀ c ∈ ending, p c = true) ∧ u.getLast?.any p = false := by
  constructor
  · rintro rfl
    refine ⟨(t.reverse.takeWhile p).reverse, ?_, fun c hc => ?_, ?_⟩
    · rw [dropEnd, ← List.reverse_append, List.takeWhile_append_dropWhile, List.reverse_reverse]
    · exact List.all_eq_true.mp List.all_takeWhile c (List.mem_reverse.mp hc)
    · have hstop := List.head?_dropWhile_not p t.reverse
      rw [dropEnd, List.getLast?_reverse]
      cases hhead : (t.reverse.dropWhile p).head? with
      | none => rfl
      | some c =>
        rw [hhead] at hstop
        exact hstop
  · rintro ⟨ending, rfl, hending, hlast⟩
    have hall : ∀ c ∈ ending.reverse, p c = true := fun c hc => hending c (List.mem_reverse.mp hc)
    rw [dropEnd, List.reverse_append, dropWhile_run hall (List.head?_reverse ▸ hlast),
      List.reverse_reverse]

/-- What ends in a character that stays is not cut. -/
theorem dropEnd_append_of_getLast {p : Char → Bool} {m : Text} (hm : m ≠ [])
    (hlast : m.getLast?.any p = false) (rest : Text) :
    dropEnd p (m ++ rest) = m ++ dropEnd p rest := by
  have hhead : m.reverse.head?.any p = false := by rwa [List.head?_reverse]
  have hstay := dropWhile_append_of_head (by simpa using hm) hhead []
  rw [List.append_nil] at hstay
  rw [dropEnd, dropEnd, List.reverse_append, List.dropWhile_append]
  split
  · next hempty =>
    rw [List.isEmpty_iff] at hempty
    rw [hstay, hempty, List.reverse_reverse, List.reverse_nil, List.append_nil]
  · rw [List.reverse_append, List.reverse_reverse]

end Text
end FileMagic
