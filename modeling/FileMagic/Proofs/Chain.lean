import FileMagic.Offset
import FileMagic.Proofs.Except
import Mathlib.Logic.Relation

/-! # Chains of offsets

A chain resolves its stages one after the other, each from where the one before it leads, so that
two lists of stages in a row lead on from where the first leads (`resolveStages_append`), and
nowhere when the first leads nowhere. What is nested does not matter: an offset resolves as the
chain of the displacements and pointers in it, its `leaves` (`resolve_leaves`). Nor does it matter
to which stage a displacement belongs. It can be taken out of a pointer and put behind it, and one
that stands before a stage can be moved into it, at any place in an offset (`Recast`). None of this
supposes that the stream can be read: where one side fails, the other fails alike. -/

namespace FileMagic.Offset

/-- The way on from where an offset leads; there is none from nowhere. -/
def onward (next : Int → Except ReadFault (Option Int)) :
    Option Int → Except ReadFault (Option Int)
  | none => .ok none
  | some position => next position

variable {s : Stream} {r : Int}

theorem bind_onward_assoc (x : Except ReadFault (Option Int))
    (f g : Int → Except ReadFault (Option Int)) :
    (x >>= onward f) >>= onward g = x >>= onward fun position => f position >>= onward g := by
  cases x with
  | error e => rfl
  | ok found =>
    cases found with
    | none => rfl
    | some position => rfl

theorem resolveStages_nil (s : Stream) (r : Int) : resolveStages s r [] = .ok (some r) := by
  rw [resolveStages]

theorem resolveStages_cons (s : Stream) (r : Int) (o : Offset) (rest : List Offset) :
    resolveStages s r (o :: rest) = o.resolve s r >>= onward (resolveStages s · rest) := by
  rw [resolveStages]
  refine congrArg (o.resolve s r >>= ·) (funext fun found => ?_)
  cases found with
  | none => rfl
  | some position => rfl

theorem resolve_chain (s : Stream) (r : Int) (first : Offset) (rest : List Offset) :
    (chain first rest).resolve s r = resolveStages s r (first :: rest) := by
  rw [resolve, resolveStages]

theorem resolveStages_append (s : Stream) (r : Int) (before after : List Offset) :
    resolveStages s r (before ++ after) =
      resolveStages s r before >>= onward (resolveStages s · after) := by
  induction before generalizing r with
  | nil => rw [resolveStages_nil, ok_bind, onward, List.nil_append]
  | cons o rest ih =>
    rw [List.cons_append, resolveStages_cons, resolveStages_cons, bind_onward_assoc]
    simp only [ih]

theorem resolveStages_singleton (s : Stream) (r : Int) (o : Offset) :
    resolveStages s r [o] = o.resolve s r := by
  rw [resolveStages_cons]
  cases o.resolve s r with
  | error e => rfl
  | ok found =>
    cases found with
    | none => rfl
    | some position => exact resolveStages_nil s position

/-! ## Nested chains -/

mutual

/-- The displacements and pointers of an offset, in the order in which they are resolved. -/
def leaves : Offset → List Offset
  | .fixed value => [.fixed value]
  | .indirect value width endianness signed delta =>
    [.indirect value width endianness signed delta]
  | .chain first rest => leaves first ++ leavesOfStages rest

def leavesOfStages : List Offset → List Offset
  | [] => []
  | o :: rest => leaves o ++ leavesOfStages rest

end

/-- A displacement or a pointer. -/
def IsLeaf : Offset → Prop
  | .fixed _ | .indirect .. => True
  | .chain .. => False

mutual

theorem isLeaf_of_mem_leaves : ∀ {o leaf : Offset}, leaf ∈ o.leaves → leaf.IsLeaf
  | .fixed _, _, h => by
    rw [leaves, List.mem_singleton] at h
    rw [h]
    trivial
  | .indirect .., _, h => by
    rw [leaves, List.mem_singleton] at h
    rw [h]
    trivial
  | .chain first rest, _, h => by
    rw [leaves, List.mem_append] at h
    exact h.elim isLeaf_of_mem_leaves isLeaf_of_mem_leavesOfStages

theorem isLeaf_of_mem_leavesOfStages :
    ∀ {stages : List Offset} {leaf : Offset}, leaf ∈ leavesOfStages stages → leaf.IsLeaf
  | [], _, h => by
    rw [leavesOfStages] at h
    cases h
  | o :: rest, _, h => by
    rw [leavesOfStages, List.mem_append] at h
    exact h.elim isLeaf_of_mem_leaves isLeaf_of_mem_leavesOfStages

end

theorem leaves_ne_nil : ∀ o : Offset, o.leaves ≠ []
  | .fixed _ => by simp [leaves]
  | .indirect .. => by simp [leaves]
  | .chain first rest => by simp [leaves, leaves_ne_nil first]

mutual

/-- An offset resolves as its leaves in a row. -/
theorem resolve_leaves (s : Stream) (r : Int) :
    ∀ o : Offset, o.resolve s r = resolveStages s r o.leaves
  | .fixed v => by rw [leaves, resolveStages_singleton]
  | .indirect .. => by rw [leaves, resolveStages_singleton]
  | .chain first rest => by
    rw [resolve_chain, resolveStages_cons, leaves, resolveStages_append, ← resolve_leaves s r first]
    simp only [resolveStages_leaves s _ rest]

theorem resolveStages_leaves (s : Stream) (r : Int) :
    ∀ stages : List Offset, resolveStages s r stages = resolveStages s r (leavesOfStages stages)
  | [] => by rw [leavesOfStages]
  | o :: rest => by
    rw [resolveStages_cons, leavesOfStages, resolveStages_append, ← resolve_leaves s r o]
    simp only [resolveStages_leaves s _ rest]

end

/-! ## Displacements that change their stage -/

mutual

/-- One displacement of an offset, at any place in it, is given to another stage. -/
inductive Recast : Offset → Offset → Prop
  /-- A pointer leaves the displacement of its target to a stage of its own. -/
  | target (value : Int) (width : Width) (endianness : Endianness) (signed : Bool) (delta : Int) :
    Recast (.indirect value width endianness signed delta)
      (.chain (.indirect value width endianness signed 0) [.fixed delta])
  | stages {first first' : Offset} {rest rest' : List Offset} :
    RecastStages (first :: rest) (first' :: rest') →
      Recast (.chain first rest) (.chain first' rest')

inductive RecastStages : List Offset → List Offset → Prop
  | target (value : Int) (width : Width) (endianness : Endianness) (signed : Bool) (delta : Int)
      (rest : List Offset) :
    RecastStages (.indirect value width endianness signed delta :: rest)
      (.indirect value width endianness signed 0 :: .fixed delta :: rest)
  /-- A displacement takes in the one before it. -/
  | fixed (before value : Int) (rest : List Offset) :
    RecastStages (.fixed before :: .fixed value :: rest) (.fixed (before + value) :: rest)
  /-- A pointer takes in the displacement before it. -/
  | indirect (before value : Int) (width : Width) (endianness : Endianness) (signed : Bool)
      (delta : Int) (rest : List Offset) :
    RecastStages (.fixed before :: .indirect value width endianness signed delta :: rest)
      (.indirect (before + value) width endianness signed delta :: rest)
  | stage {o o' : Offset} (rest : List Offset) :
    Recast o o' → RecastStages (o :: rest) (o' :: rest)
  | behind (o : Offset) {rest rest' : List Offset} :
    RecastStages rest rest' → RecastStages (o :: rest) (o :: rest')

end

theorem resolve_target (s : Stream) (r value : Int) (width : Width) (endianness : Endianness)
    (signed : Bool) (delta : Int) :
    (indirect value width endianness signed delta).resolve s r =
      (indirect value width endianness signed 0).resolve s r >>=
        onward ((fixed delta).resolve s) := by
  rw [resolve, resolve]
  cases s.readAt (some (r + value)) width.octets with
  | error e => rfl
  | ok raw =>
    simp only [ok_bind, pure_eq_ok]
    split
    · rfl
    · simp only [Int.add_zero, ok_bind, onward, resolve]

theorem resolve_behind_fixed (s : Stream) (r before value : Int) (width : Width)
    (endianness : Endianness) (signed : Bool) (delta : Int) :
    (indirect value width endianness signed delta).resolve s (r + before) =
      (indirect (before + value) width endianness signed delta).resolve s r := by
  rw [resolve, resolve, Int.add_assoc]

mutual

theorem Recast.resolve_eq (s : Stream) (r : Int) :
    ∀ {o o' : Offset}, Recast o o' → o.resolve s r = o'.resolve s r
  | _, _, .target value width endianness signed delta => by
    rw [resolve_chain, resolveStages_cons, resolve_target]
    simp only [resolveStages_singleton]
  | _, _, .stages h => by rw [resolve_chain, resolve_chain, h.resolveStages_eq s r]

theorem RecastStages.resolveStages_eq (s : Stream) (r : Int) :
    ∀ {xs ys : List Offset}, RecastStages xs ys → resolveStages s r xs = resolveStages s r ys
  | _, _, .target value width endianness signed delta rest => by
    rw [resolveStages_cons, resolveStages_cons, resolve_target, bind_onward_assoc]
    simp only [resolveStages_cons]
  | _, _, .fixed before value rest => by
    simp only [resolveStages_cons, resolve, ok_bind, onward, Int.add_assoc]
  | _, _, .indirect before value width endianness signed delta rest => by
    simp only [resolveStages_cons]
    rw [← resolve_behind_fixed]
    rfl
  | _, _, .stage rest h => by rw [resolveStages_cons, resolveStages_cons, h.resolve_eq s r]
  | _, _, .behind o h => by
    rw [resolveStages_cons, resolveStages_cons]
    exact congrArg (o.resolve s r >>= onward ·) (funext fun q => h.resolveStages_eq s q)

end

/-- However often displacements change their stage, the offset leads to the same position. -/
theorem resolve_eq_of_recast {o o' : Offset} (h : Relation.EqvGen Recast o o') (s : Stream)
    (r : Int) : o.resolve s r = o'.resolve s r := by
  induction h with
  | rel _ _ hstep => exact hstep.resolve_eq s r
  | refl _ => rfl
  | symm _ _ _ ih => exact ih.symm
  | trans _ _ _ _ _ first second => exact first.trans second

theorem chained_eq {stages : List Offset} (h : stages ≠ []) : ∃ o, chained stages = .ok o ∧
    ∀ s r, o.resolve s r = resolveStages s r stages := by
  obtain ⟨first, rest, rfl⟩ := List.exists_cons_of_ne_nil h
  exact ⟨_, rfl, fun s r => resolve_chain s r first rest⟩

/-- Chains in a row are one chain, and nested ones are no more than their leaves in a row; which
stage has a displacement does not matter. -/
theorem chained_composes :
    (∀ before after : List Offset, before ≠ [] → after ≠ [] → ∃ a b c,
      chained before = .ok a ∧ chained after = .ok b ∧ chained (before ++ after) = .ok c ∧
      ∀ s r, (a.resolve s r = .ok none → c.resolve s r = .ok none) ∧
        (∀ q, a.resolve s r = .ok (some q) → c.resolve s r = b.resolve s q) ∧
        ∀ fault, a.resolve s r = .error fault → c.resolve s r = .error fault) ∧
    (∀ o : Offset, ∃ flat, chained o.leaves = .ok flat ∧ (∀ leaf ∈ o.leaves, leaf.IsLeaf) ∧
      ∀ s r, o.resolve s r = flat.resolve s r) ∧
    ∀ o o' : Offset, Relation.EqvGen Recast o o' → ∀ s r, o.resolve s r = o'.resolve s r := by
  refine ⟨fun before after hbefore hafter => ?_, fun o => ?_, fun o o' h => resolve_eq_of_recast h⟩
  · obtain ⟨a, ha, haresolve⟩ := chained_eq hbefore
    obtain ⟨b, hb, hbresolve⟩ := chained_eq hafter
    obtain ⟨c, hc, hcresolve⟩ := chained_eq (List.append_ne_nil_of_left_ne_nil hbefore after)
    refine ⟨a, b, c, ha, hb, hc, fun s r => ?_⟩
    have hwhole : c.resolve s r = a.resolve s r >>= onward (b.resolve s) := by
      rw [hcresolve, resolveStages_append, haresolve]
      simp only [hbresolve]
    refine ⟨fun h => ?_, fun q h => ?_, fun fault h => ?_⟩
    · rw [hwhole, h]
      rfl
    · rw [hwhole, h]
      rfl
    · rw [hwhole, h]
      rfl
  · obtain ⟨flat, hflat, hresolve⟩ := chained_eq o.leaves_ne_nil
    exact ⟨flat, hflat, fun leaf => isLeaf_of_mem_leaves,
      fun s r => (resolve_leaves s r o).trans (hresolve s r).symm⟩

/-- A pointer leads to another one, signed and displaced, with its octets all there, one of them
missing, and nothing there at all. -/
theorem chained_composes_behind_pointer :
    let pointer : Offset := .indirect 0 .byte .little false 0
    let second : Offset := .chain (.fixed 1) [.indirect 1 .short .big true 3]
    let content : Bytes := [1, 7, 7, 0xff, 0xfe]
    (∃ c, chained ([pointer] ++ [second]) = .ok c ∧
      c.resolve (.ofBytes content) 0 = .ok (some 1) ∧
      c.resolve (.ofBytes (content.take 4)) 0 = .ok none ∧
      c.resolve (.ofBytes []) 0 = .ok none) ∧
    Relation.EqvGen Recast second
      (.chain (.chain (.indirect 2 .short .big true 0) [.fixed 3]) []) ∧
    second.resolve (.ofBytes content) 1 = .ok (some 1) := by
  intro pointer second content
  obtain ⟨happend, -, hrecast⟩ := chained_composes
  have hsame : Relation.EqvGen Recast second
      (.chain (.chain (.indirect 2 .short .big true 0) [.fixed 3]) []) :=
    .trans _ _ _ (.rel _ _ (.stages (.indirect 1 1 .short .big true 3 [])))
      (.rel _ _ (.stages (.stage [] (.target 2 .short .big true 3))))
  obtain ⟨a, b, c, ha, hb, hc, hresolve⟩ :=
    happend [pointer] [second] (List.cons_ne_nil _ _) (List.cons_ne_nil _ _)
  cases ha
  cases hb
  have htarget : target .short .big true [0xff, 0xfe] = -2 := by decide +kernel
  have hsecond : second.resolve (.ofBytes content) 1 = .ok (some 1) := by
    have hread : (Stream.ofBytes content).readAt (some 3) 2 = .ok [0xff, 0xfe] := rfl
    rw [hrecast _ _ hsame]
    simp [resolve, resolveStages, Width.octets, hread, htarget]
  refine ⟨⟨c, hc, ?_, ?_, ?_⟩, hsame, hsecond⟩
  · rw [(hresolve (.ofBytes content) 0).2.1 1 rfl, resolve, hsecond]
    rfl
  · rw [(hresolve (.ofBytes (content.take 4)) 0).2.1 1 rfl]
    rfl
  · exact (hresolve (.ofBytes []) 0).1 rfl

end FileMagic.Offset
