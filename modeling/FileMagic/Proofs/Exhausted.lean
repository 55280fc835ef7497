import FileMagic.Proofs.Concatenation

/-! # Rendering where there is nothing to read

A position before the start of the content or behind its end is as good as none: texts are empty
there, integers are left out, and no conversion moves on, so that none of those behind it gets to
the content either (`renderPieces_of_nothing`). A short read leads to such a position: the octets
that are left are consumed, and what follows in the template renders as it does without a position
(`render_without_content`). -/

namespace FileMagic

namespace Conversion

/-- What a conversion gives of nothing. -/
def ofNothing (c : Conversion) : Except ProbeFault Text :=
  match c.kind with
  | .percent => .ok ['%']
  | .text => c.formatText []
  | _ => .ok []

end Conversion

namespace Template

variable {s : Stream} {p : Int}

theorem renderConversion_without_position (s : Stream) (c : Conversion) :
    renderConversion s none none c = c.ofNothing.map (·, none) := by
  rw [renderConversion, Conversion.ofNothing]
  cases c.kind with
  | text =>
    rw [renderText]
    cases c.formatText [] <;> rfl
  | _ => rfl

theorem renderConversion_of_nothing (hs : s.InMemory) (hp : p < Stream.positionLimit)
    (h : s.rest p = []) (c : Conversion) :
    renderConversion s none (some p) c = c.ofNothing.map (·, some p) := by
  have hinteger : renderInteger s (some p) c = .ok ([], some p) := by
    rw [renderInteger_short hs hp (by rw [h]; decide), Conversion.integerLength, h]
    simp
  have hread : readText s p = .ok ([], p) := by
    rw [readText_eq hs hp, Conversion.textLength, h]
    exact congrArg (fun q : Int => Except.ok (([] : Text), q)) (Int.add_zero p)
  have htext : renderText s none (some p) c = (c.formatText []).map (·, some p) := by
    simp only [renderText, hread, ProbeFault.ofRead_ok, ok_bind]
    cases c.formatText [] <;> rfl
  rw [renderConversion, Conversion.ofNothing]
  cases c.kind with
  | percent => rfl
  | text => exact htext
  | decimal signed => exact hinteger
  | hexadecimal capital => exact hinteger

/-- Where there is nothing, neither the content nor the position matters. -/
theorem renderPieces_of_nothing (hs : s.InMemory) (hp : p < Stream.positionLimit)
    (h : s.rest p = []) (s' : Stream) (pieces : List Piece) :
    renderPieces s none (some p) pieces = renderPieces s' none none pieces := by
  induction pieces with
  | nil => rfl
  | cons piece rest ih =>
    cases piece with
    | char c => rw [renderPieces, renderPieces, ih]
    | conversion c =>
      rw [renderPieces, renderPieces, renderConversion_of_nothing hs hp h,
        renderConversion_without_position]
      cases c.ofNothing with
      | error f => rfl
      | ok out => simp only [Except.map, ok_bind, ih]

theorem rest_eq_nil_iff : s.rest p = [] ↔ p < 0 ∨ s.content.length ≤ p := by
  by_cases hneg : p < 0
  · exact iff_of_true (List.length_eq_zero_iff.mp (Stream.length_rest_of_neg hneg)) (.inl hneg)
  · rw [Stream.rest_of_nonneg (Int.not_lt.mp hneg), List.drop_eq_nil_iff]
    omega

/-- The position behind what the parts consume. -/
def reached (s : Stream) : Int → List Part → Int
  | p, [] => p
  | p, part :: rest => reached s (p + part.consumed s p) rest

theorem reached_lt (hs : s.InMemory) (hp : p < Stream.positionLimit) (parts : List Part) :
    reached s p parts < Stream.positionLimit := by
  induction parts generalizing p with
  | nil => exact hp
  | cons part rest ih => exact ih (part.advance_lt hs hp)

theorem eachAlone_append (s : Stream) (p : Int) (before after : List Part) :
    eachAlone s p (before ++ after) = (do
      let out ← eachAlone s p before
      let more ← eachAlone s (reached s p before) after
      pure (out ++ more)) := by
  induction before generalizing p with
  | nil => exact (bind_pure (eachAlone s p after)).symm
  | cons part rest ih =>
    rw [List.cons_append, eachAlone, ih, eachAlone, reached]
    cases part.alone s p with
    | error f => rfl
    | ok out =>
      simp only [ok_bind]
      cases eachAlone s (p + part.consumed s p) rest with
      | error f => rfl
      | ok more =>
        simp only [ok_bind, pure_eq_ok]
        cases eachAlone s (reached s (p + part.consumed s p) rest) after with
        | error f => rfl
        | ok tail => simp

/-- Behind a short read there is nothing left. -/
theorem rest_of_short {c : Specifier} (h : c.letter ≠ '%' ∧ c.letter ≠ 's')
    (hshort : (s.rest p).length < 4) : s.rest (p + c.consumed s p) = [] := by
  have hall : c.consumed s p = (s.rest p).length := by
    rw [Specifier.consumed, if_neg h.1, if_neg h.2]
    omega
  rw [hall, Stream.rest_add (Nat.le_refl _), List.drop_length]

theorem Leftmost.left {before after : List Part} (h : Leftmost (before ++ after)) :
    Leftmost before := by
  induction before with
  | nil => trivial
  | cons part rest ih =>
    cases part with
    | char c =>
      refine ⟨fun s hs => h.1 s ?_, ih h.2⟩
      have hmore : c :: textOf rest <+: c :: textOf (rest ++ after) := by
        rw [textOf, textOf, List.flatMap_append]
        exact List.prefix_append (c :: rest.flatMap Part.text) _
      exact hs.trans hmore
    | conversion s => exact ih h

theorem Leftmost.right {before after : List Part} (h : Leftmost (before ++ after)) :
    Leftmost after := by
  induction before with
  | nil => exact h
  | cons part rest ih => exact ih h.tail

/-- With nothing to read, rendering gives the same whatever the content is and for whatever reason
there is nothing; and what is behind an integer that is not whole renders as if there was
nothing. -/
theorem render_without_content {content : Bytes}
    (hl : (content.length : Int) < Stream.positionLimit) (other : Bytes) {p : Int}
    (hp : p < Stream.positionLimit) (template : Text) :
    (p < 0 ∨ content.length ≤ p → render (.ofBytes content) (some p) template none =
      render (.ofBytes other) none template none) ∧
    ∀ {before : List Part} {c : Specifier} {after : List Part},
      Splits template (before ++ .conversion c :: after) → c.letter ≠ '%' ∧ c.letter ≠ 's' →
      reached (.ofBytes content) p before < 0 ∨
        content.length < reached (.ofBytes content) p before + 4 →
      render (.ofBytes content) (some p) template none = (do
        let first ← render (.ofBytes content) (some p) (textOf before) none
        let rest ← render (.ofBytes other) none (textOf after) none
        pure (first ++ rest)) := by
  have hs := Stream.inMemory_ofBytes hl
  refine ⟨fun h => ?_, fun {before c after} h hletter hshort => ?_⟩
  · exact renderPieces_of_nothing hs hp (rest_eq_nil_iff.mpr h) _ _
  · have hq := reached_lt hs hp before
    have hbefore : Splits (textOf before) before := ⟨rfl, h.leftmost.left⟩
    have hafter : Splits (textOf after) after := ⟨rfl, h.leftmost.right.tail⟩
    have hlen : ((Stream.ofBytes content).rest (reached (.ofBytes content) p before)).length < 4 :=
      length_rest_lt_four_iff.mpr hshort
    -- the integer consumes what is left of it, so the parts behind it start where nothing is
    have hnone := rest_of_short hletter hlen
    have hnext := (Part.conversion c).advance_lt hs hq
    have hbehind : eachAlone (.ofBytes content)
        (reached (.ofBytes content) p before + c.consumed (.ofBytes content)
          (reached (.ofBytes content) p before)) after =
          render (.ofBytes other) none (textOf after) none :=
      (hafter.render_eq hs hnext).symm.trans (renderPieces_of_nothing hs hnext hnone _ _)
    rw [h.render_eq hs hp, eachAlone_append, hbefore.render_eq hs hp, eachAlone, Part.alone,
      render_short hs hq hletter hlen, ok_bind, Part.consumed, hbehind]
    simp

/-- Behind the end and before the start of the content a text is empty and an integer left out, and
so is a text behind an integer of which two octets are there. -/
theorem render_without_content_padded :
    let content : Bytes := [0x41, 0x42, 0x43]
    (content.length : Int) < Stream.positionLimit ∧
      (∀ p ∈ [(-2 : Int), 3], render (.ofBytes content) (some p) "%d:%2s".toList none =
        render (.ofBytes [0x58]) none "%d:%2s".toList none) ∧
      (∃ parts c after, Splits "%s%d:%2s".toList (parts ++ .conversion c :: after) ∧
        reached (.ofBytes [0x41, 0, 0x42]) 0 parts = 2) ∧
      render (.ofBytes [0x41, 0, 0x42]) (some 0) "%s%d:%2s".toList none =
        .ok "A:  ".toList := by
  intro content
  have hl : (content.length : Int) < Stream.positionLimit := by decide
  have hl' : (([0x41, 0, 0x42] : Bytes).length : Int) < Stream.positionLimit := by decide
  let text : Specifier := .plain [] [] [] 's' (by decide)
  let integer : Specifier := .plain [] [] [] 'd' (by decide)
  let padded : Specifier := .plain [] ['2'] [] 's' (by decide)
  have hsplits : Splits "%s%d:%2s".toList
      ([.conversion text] ++ .conversion integer :: [.char ':', .conversion padded]) :=
    ⟨by decide, by decide⟩
  have hreached : reached (.ofBytes [0x41, 0, 0x42]) 0 [.conversion text] = 2 := by decide
  refine ⟨hl, fun p hp => ?_, ⟨_, _, _, hsplits, hreached⟩, ?_⟩
  · have hbounds : p < Stream.positionLimit ∧ (p < 0 ∨ (content.length : Int) ≤ p) := by
      revert p
      decide
    exact (render_without_content hl [0x58] hbounds.1 _).1 hbounds.2
  · have hshort : reached (.ofBytes [0x41, 0, 0x42]) 0 [.conversion text] < 0 ∨
        (([0x41, 0, 0x42] : Bytes).length : Int) <
          reached (.ofBytes [0x41, 0, 0x42]) 0 [.conversion text] + 4 := by
      rw [hreached]
      decide
    rw [(render_without_content hl' [0x58] (by decide) _).2 hsplits (by decide) hshort]
    rfl

end Template
end FileMagic
