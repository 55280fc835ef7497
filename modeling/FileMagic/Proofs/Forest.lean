import FileMagic.Rule

/-! # A forest and its listing say the same

The entries of a forest, in the order of a walk from the root down, nest: the first is at the
top and every other one at most one level below the one before it. Reading such a list back
with `ofEntries` gives the forest, and every list that nests is the listing of exactly one
forest. A tree that is grafted has the trees after it as children as long as they are deeper;
that these are all exactly one level deeper is the invariant (`Descending`) of the
construction from the right. -/

namespace FileMagic.Forest

/-- The first entry is at most `limit` deep, every other one at most one level below the one
before it. -/
def Nested : Nat → List Entry → Prop
  | _, [] => True
  | limit, e :: rest => e.depth ≤ limit ∧ Nested (e.depth + 1) rest

theorem Nested.mono {limit limit' : Nat} (h : limit ≤ limit') {entries : List Entry}
    (hn : Nested limit entries) : Nested limit' entries := by
  cases entries with
  | nil => trivial
  | cons e rest => exact ⟨Nat.le_trans hn.1 h, hn.2⟩

/-- Trees whose roots come no deeper than the root before. -/
def Descending : Nat → List (Nat × Rule) → Prop
  | _, [] => True
  | limit, t :: rest => t.1 ≤ limit ∧ Descending t.1 rest

/-- The listing of trees that stand at the depths given with them. -/
def listing (trees : List (Nat × Rule)) : List Entry := trees.flatMap fun t => entriesAt t.1 t.2

theorem Descending.depth_le {limit : Nat} {trees : List (Nat × Rule)}
    (hd : Descending limit trees) : ∀ t ∈ trees, t.1 ≤ limit := by
  induction trees generalizing limit with
  | nil => intro t ht; cases ht
  | cons u rest ih =>
    intro t ht
    rcases List.mem_cons.mp ht with rfl | ht
    · exact hd.1
    · exact Nat.le_trans (ih hd.2 t ht) hd.1

/-- Cutting off the trees deeper than `depth` leaves trees that are not. -/
theorem Descending.dropWhile {limit depth : Nat} {trees : List (Nat × Rule)}
    (hd : Descending limit trees) :
    Descending depth (trees.dropWhile fun t => depth < t.1) := by
  induction trees generalizing limit with
  | nil => trivial
  | cons t rest ih =>
    by_cases ht : depth < t.1
    · rw [List.dropWhile_cons_of_pos (by simpa using ht)]
      exact ih hd.2
    · rw [List.dropWhile_cons_of_neg (by simpa using ht)]
      exact ⟨Nat.le_of_not_lt ht, hd.2⟩

theorem descending_graft {e : Entry} {limit : Nat} {trees : List (Nat × Rule)}
    (he : e.depth ≤ limit) (hd : Descending (e.depth + 1) trees) :
    Descending limit (graft e trees) :=
  ⟨he, hd.dropWhile⟩

/-- Trees that all stand at one depth are listed as siblings there. -/
theorem entriesBelow_of_depth {depth : Nat} {trees : List (Nat × Rule)}
    (h : ∀ t ∈ trees, t.1 = depth) :
    entriesBelow depth (trees.map (·.2)) = listing trees := by
  induction trees with
  | nil => rfl
  | cons t rest ih =>
    have ht : t.1 = depth := h t (by simp)
    have hr := ih fun u hu => h u (List.mem_cons_of_mem _ hu)
    simp only [List.map_cons, entriesBelow, hr, listing, List.flatMap_cons, ht]

theorem listing_graft {e : Entry} {trees : List (Nat × Rule)}
    (hd : Descending (e.depth + 1) trees) : listing (graft e trees) = e :: listing trees := by
  have hdeep : ∀ t ∈ trees.takeWhile (fun t => e.depth < t.1), t.1 = e.depth + 1 := by
    intro t ht
    have hle := hd.depth_le t ((List.takeWhile_sublist _).subset ht)
    have hlt : e.depth < t.1 := by simpa using List.all_eq_true.mp List.all_takeWhile t ht
    omega
  have hsplit : listing trees = listing (trees.takeWhile fun t => e.depth < t.1) ++
      listing (trees.dropWhile fun t => e.depth < t.1) := by
    rw [listing, listing, listing, ← List.flatMap_append, List.takeWhile_append_dropWhile]
  rw [hsplit, graft, listing, List.flatMap_cons, entriesAt, entriesBelow_of_depth hdeep]
  rfl

theorem descending_foldr {limit : Nat} {entries : List Entry} (hn : Nested limit entries) :
    Descending limit (entries.foldr graft []) := by
  induction entries generalizing limit with
  | nil => trivial
  | cons e rest ih => exact descending_graft hn.1 (ih hn.2)

theorem listing_foldr {limit : Nat} {entries : List Entry} (hn : Nested limit entries) :
    listing (entries.foldr graft []) = entries := by
  induction entries generalizing limit with
  | nil => rfl
  | cons e rest ih =>
    rw [List.foldr_cons, listing_graft (descending_foldr hn.2), ih hn.2]

/-- Nothing is lost, added, moved or attached elsewhere: the listing of what has been put
together is what it has been put together from. -/
theorem toEntries_ofEntries {entries : List Entry} (hn : Nested 0 entries) :
    toEntries (ofEntries entries) = entries := by
  have htop : ∀ t ∈ entries.foldr graft [], t.1 = 0 := fun t ht =>
    Nat.le_zero.mp ((descending_foldr hn).depth_le t ht)
  rw [toEntries, ofEntries, entriesBelow_of_depth htop, listing_foldr hn]

/-- Trees that come next and are no deeper are not taken for children. -/
theorem takeWhile_deeper {depth : Nat} (rules : List Rule) {rest : List (Nat × Rule)}
    (h : ∀ t ∈ rest.head?, t.1 ≤ depth) :
    (rules.map (depth + 1, ·) ++ rest).takeWhile (fun t => depth < t.1) =
        rules.map (depth + 1, ·) ∧
      (rules.map (depth + 1, ·) ++ rest).dropWhile (fun t => depth < t.1) = rest := by
  have hstop : rest.takeWhile (fun t => depth < t.1) = [] ∧
      rest.dropWhile (fun t => depth < t.1) = rest := by
    cases rest with
    | nil => exact ⟨rfl, rfl⟩
    | cons t rest =>
      have ht : t.1 ≤ depth := h t rfl
      simp [ht]
  constructor
  · rw [List.takeWhile_append_of_pos (by simp), hstop.1, List.append_nil]
  · rw [List.dropWhile_append_of_pos (by simp), hstop.2]

mutual

/-- Reading back the listing of a tree that stands before others which are no deeper. -/
theorem foldr_entriesAt (depth : Nat) (rest : List (Nat × Rule))
    (h : ∀ t ∈ rest.head?, t.1 ≤ depth) :
    ∀ r : Rule, (entriesAt depth r).foldr graft rest = (depth, r) :: rest
  | ⟨test, message, children⟩ => by
    have hdeep : ∀ t ∈ rest.head?, t.1 ≤ depth + 1 := fun t ht =>
      Nat.le_succ_of_le (h t ht)
    obtain ⟨ht, hd⟩ := takeWhile_deeper children h
    rw [entriesAt, List.foldr_cons, foldr_entriesBelow (depth + 1) rest hdeep children, graft,
      ht, hd]
    simp [Function.comp_def]

theorem foldr_entriesBelow (depth : Nat) (rest : List (Nat × Rule))
    (h : ∀ t ∈ rest.head?, t.1 ≤ depth) :
    ∀ rules : List Rule,
      (entriesBelow depth rules).foldr graft rest = rules.map (depth, ·) ++ rest
  | [] => rfl
  | r :: rules => by
    have hnext : ∀ t ∈ (rules.map (depth, ·) ++ rest).head?, t.1 ≤ depth := by
      cases rules with
      | nil => exact h
      | cons r' rules => intro t ht; cases ht; exact Nat.le_refl depth
    rw [entriesBelow, List.foldr_append, foldr_entriesBelow depth rest h rules,
      foldr_entriesAt depth _ hnext r]
    rfl

end

theorem ofEntries_toEntries (rules : List Rule) : ofEntries (toEntries rules) = rules := by
  rw [ofEntries, toEntries, foldr_entriesBelow 0 [] (by simp) rules]
  simp [Function.comp_def]

/-- A forest is determined by its listing. -/
theorem toEntries_injective {rules rules' : List Rule} (h : toEntries rules = toEntries rules') :
    rules = rules' := by
  rw [← ofEntries_toEntries rules, h, ofEntries_toEntries]

mutual

/-- Listings nest, and so does what may follow them. -/
theorem nested_entriesAt {depth limit : Nat} {rest : List Entry}
    (hrest : ∀ l, depth ≤ l → Nested l rest) (hl : depth ≤ limit) :
    ∀ r : Rule, Nested limit (entriesAt depth r ++ rest)
  | ⟨_, _, children⟩ =>
    ⟨hl, nested_entriesBelow (fun l hl => hrest l (Nat.le_of_succ_le hl)) (Nat.le_refl _)
      children⟩

theorem nested_entriesBelow {depth limit : Nat} {rest : List Entry}
    (hrest : ∀ l, depth ≤ l → Nested l rest) (hl : depth ≤ limit) :
    ∀ rules : List Rule, Nested limit (entriesBelow depth rules ++ rest)
  | [] => hrest limit hl
  | r :: rules => by
    rw [entriesBelow, List.append_assoc]
    exact nested_entriesAt (fun l hl => nested_entriesBelow hrest hl rules) hl r

end

theorem nested_toEntries (rules : List Rule) : Nested 0 (toEntries rules) := by
  have hnil : ∀ l, 0 ≤ l → Nested l [] := fun _ _ => trivial
  have h := nested_entriesBelow hnil (Nat.le_refl 0) rules
  rwa [List.append_nil] at h

/-- A list that nests is the listing of one forest, the one put together from it. -/
theorem toEntries_eq_iff {rules : List Rule} {entries : List Entry} :
    toEntries rules = entries ↔ Nested 0 entries ∧ ofEntries entries = rules := by
  constructor
  · intro h
    subst h
    exact ⟨nested_toEntries rules, ofEntries_toEntries rules⟩
  · intro h
    obtain ⟨hn, rfl⟩ := h
    exact toEntries_ofEntries hn

end FileMagic.Forest
