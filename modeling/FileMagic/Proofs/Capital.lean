import FileMagic.Text.Upper

/-! # Capital letters

A text in upper case is its own upper case (`Text.upper_upper`). The characters that have another
upper case and those that are one are listed from the tables, and the two lists are compared by
the numbers that have a bit for each of their characters. -/

namespace FileMagic

/-- The number with a one at each of these places. -/
def placesToBits (places : List Nat) : Nat := places.foldr (fun n bits => 2 ^ n ||| bits) 0

theorem testBit_placesToBits (places : List Nat) (n : Nat) :
    (placesToBits places).testBit n = decide (n ∈ places) := by
  induction places with
  | nil => exact Nat.zero_testBit n
  | cons m rest ih =>
    rw [placesToBits, List.foldr_cons, Nat.testBit_or, Nat.testBit_two_pow]
    rw [placesToBits] at ih
    simp [ih, eq_comm]

theorem disjoint_of_placesToBits {l l' : List Nat} (h : placesToBits l &&& placesToBits l' = 0)
    {n : Nat} (hn : n ∈ l) : n ∉ l' := by
  intro hn'
  have hbit : (placesToBits l &&& placesToBits l').testBit n = true := by
    rw [Nat.testBit_and, testBit_placesToBits, testBit_placesToBits]
    simp [hn, hn']
  rw [h, Nat.zero_testBit] at hbit
  cases hbit

namespace UpperRun

/-- The characters of a run. -/
def members (r : UpperRun) : List Nat :=
  List.range' r.first ((r.last - r.first) / r.step + 1) r.step

def image (r : UpperRun) (n : Nat) : Char := Char.ofNat (n + r.shift).toNat

theorem mem_members {r : UpperRun} {n : Nat} (h : r.covers n) : n ∈ r.members := by
  simp only [covers, Bool.and_eq_true, decide_eq_true_eq] at h
  obtain ⟨⟨hfirst, hlast⟩, hstep⟩ := h
  refine List.mem_range'.mpr ⟨(n - r.first) / r.step, ?_, ?_⟩
  · have hdiv : (n - r.first) / r.step ≤ (last r - first r) / r.step :=
      Nat.div_le_div_right (Nat.sub_le_sub_right hlast _)
    exact Nat.lt_succ_of_le hdiv
  · have hsum := Nat.div_add_mod (n - r.first) r.step
    omega

end UpperRun

def smallLetters : List Nat := List.range' 97 26

/-- The characters that could have another upper case. -/
def movedCharacters : List Nat :=
  smallLetters ++ upperExpansions.map (·.1) ++ upperRuns.flatMap UpperRun.members

/-- The characters that they have for their upper case. -/
def capitals : List Char :=
  smallLetters.map (fun n => Char.ofNat (n - 32)) ++ upperExpansions.flatMap (·.2.map Char.ofNat) ++
    upperRuns.flatMap fun r => r.members.map r.image

theorem not_mem_movedCharacters {c : Char} (h : c ∈ capitals) : c.toNat ∉ movedCharacters := by
  have hbits : placesToBits (capitals.map Char.toNat) &&& placesToBits movedCharacters = 0 := by
    decide +kernel
  exact disjoint_of_placesToBits hbits (List.mem_map_of_mem h)

theorem mem_smallLetters {c : Char} (h : 'a' ≤ c ∧ c ≤ 'z') : c.toNat ∈ smallLetters := by
  obtain ⟨ha, hz⟩ := h
  have hlow : 97 ≤ c.toNat := ha
  have hhigh : c.toNat ≤ 122 := hz
  exact List.mem_range'_1.mpr ⟨hlow, by omega⟩

theorem upperChar_eq_or_capital (c : Char) :
    upperChar c = [c] ∨ c.toNat ∈ movedCharacters ∧ ∀ d ∈ upperChar c, d ∈ capitals := by
  unfold upperChar movedCharacters capitals
  split
  · split
    · rename_i hsmall
      have hmem := mem_smallLetters (by simpa using hsmall)
      refine .inr ⟨List.mem_append_left _ (List.mem_append_left _ hmem), ?_⟩
      simp only [List.forall_mem_singleton]
      exact List.mem_append_left _ (List.mem_append_left _ (List.mem_map_of_mem hmem))
    · exact .inl rfl
  · split
    · rename_i n cs hfind
      have hmem := List.mem_of_find?_eq_some hfind
      have hkey : n = c.toNat := by simpa using List.find?_some hfind
      refine .inr ⟨List.mem_append_left _ (List.mem_append_right _ ?_), fun d hd => ?_⟩
      · exact hkey ▸ List.mem_map_of_mem hmem
      · exact List.mem_append_left _ (List.mem_append_right _ (List.mem_flatMap_of_mem hmem hd))
    · split
      · rename_i r hfind
        have hmem := List.mem_of_find?_eq_some hfind
        have hcovers : r.covers c.toNat := by simpa using List.find?_some hfind
        have hmember := UpperRun.mem_members hcovers
        refine .inr ⟨List.mem_append_right _ (List.mem_flatMap_of_mem hmem hmember), ?_⟩
        simp only [List.forall_mem_singleton]
        exact List.mem_append_right _ (List.mem_flatMap_of_mem hmem (List.mem_map_of_mem hmember))
      · exact .inl rfl

theorem upperChar_of_mem_upperChar {c d : Char} (h : d ∈ upperChar c) : upperChar d = [d] := by
  rcases upperChar_eq_or_capital c with hc | ⟨-, hc⟩
  · rw [hc] at h
    rw [List.mem_singleton.mp h, hc]
  · rcases upperChar_eq_or_capital d with hd | ⟨hd, -⟩
    · exact hd
    · exact absurd hd (not_mem_movedCharacters (hc d h))

theorem Text.upper_upper (t : Text) : t.upper.upper = t.upper := by
  have hfixed : ∀ d ∈ t.upper, upperChar d = [d] := by
    intro d hd
    obtain ⟨c, -, hc⟩ := List.mem_flatMap.mp hd
    exact upperChar_of_mem_upperChar hc
  generalize t.upper = u at hfixed
  induction u with
  | nil => rfl
  | cons d rest ih =>
    obtain ⟨hd, hrest⟩ := List.forall_mem_cons.mp hfixed
    rw [upper, List.flatMap_cons, hd]
    exact congrArg (d :: ·) (ih hrest)

end FileMagic
