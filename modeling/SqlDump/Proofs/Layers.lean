import SqlDump.Proofs.Sorting

/-!
# The sort layer by layer

The rank of a resolved table tells how deep references go from it. A pass of the sort places the
tables of one rank, as they stand in the graph, so that the resolved tables come out sorted by rank
and stably.
-/

namespace SqlDump.Graph

/-! ## 1. Ranks -/

/-- Zero over nothing, else one more than the largest. -/
def above (ranks : List Nat) : Nat :=
  match ranks.max? with
  | none => 0
  | some largest => largest + 1

theorem above_le_iff {ranks : List Nat} {bound : Nat} :
    above ranks ≤ bound ↔ ∀ rank ∈ ranks, rank < bound := by
  unfold above
  cases h : ranks.max? with
  | none =>
    obtain rfl := List.max?_eq_none_iff.mp h
    simp
  | some largest =>
    obtain ⟨hmem, hle⟩ := List.max?_eq_some_iff.mp h
    show largest < bound ↔ _
    constructor
    · intro hbound rank hrank
      exact (hle rank hrank).trans_lt hbound
    · intro hbound
      exact hbound largest hmem

/-- What a table refers to, itself apart. -/
def others (table : Text) (references : List Text) : List Text := references.filter (· ≠ table)

theorem mem_others {table reference : Text} {references : List Text} :
    reference ∈ others table references ↔ reference ∈ references ∧ reference ≠ table := by
  simp [others]

/-- Ranks of the resolved tables: a table that refers to no other one has rank zero, and any other
one more than the largest among those it refers to. -/
def IsRank (graph : Graph) (rank : Text → Nat) : Prop :=
  ∀ table references, (table, references) ∈ graph → table ∉ graph.sort.unresolved →
    rank table = above ((others table references).map rank)

/-- How deep references go from a table, followed at most `n` times. -/
def depth (graph : Graph) : Nat → Text → Nat
  | 0, _ => 0
  | n + 1, table => above ((others table ((graph.get? table).getD [])).map (depth graph n))

section

variable {graph : Graph} {placed : List Text} {remaining : Graph}

-- Below the place of a table there is nothing to follow further.
theorem depth_eq_depth (finished : Finished graph placed remaining) {n m : Nat} {table : Text}
    (h : table ∈ placed) (hn : placed.idxOf table < n) (hm : placed.idxOf table < m) :
    graph.depth n table = graph.depth m table := by
  induction n generalizing m table with
  | zero => omega
  | succ n ih =>
    cases m with
    | zero => omega
    | succ m =>
      rw [depth, depth]
      refine congrArg above (List.map_congr_left fun reference hreference => ?_)
      obtain ⟨hmem, hne⟩ := mem_others.mp hreference
      cases hget : graph.get? table with
      | none =>
        rw [hget] at hmem
        cases hmem
      | some references =>
        rw [hget] at hmem
        obtain ⟨hplaced, hlt⟩ :=
          finished.idxOf_lt h ⟨references, Ordered.mem_of_get? hget, hmem, hne⟩
        exact ih hplaced (by omega) (by omega)

/-- There are ranks. -/
theorem exists_isRank (unique : graph.keys.Nodup) : ∃ rank, IsRank graph rank := by
  obtain ⟨placed, remaining, finished, hsort⟩ := sort_finished unique
  have hunresolved : graph.sort.unresolved = Ordered.keys remaining := by rw [hsort]
  have hlength : placed.length ≤ graph.length := by
    have := finished.perm.length_eq
    rw [List.length_append, Ordered.keys, Ordered.keys, List.length_map, List.length_map] at this
    omega
  refine ⟨graph.depth (graph.length + 1), fun table references hentry hresolved => ?_⟩
  rw [hunresolved] at hresolved
  have hplaced : table ∈ placed :=
    (finished.mem_placed_iff unique).mpr ⟨List.mem_map_of_mem hentry, hresolved⟩
  rw [depth, Ordered.get?_of_mem unique hentry, Option.getD_some]
  refine congrArg above (List.map_congr_left fun reference hreference => ?_)
  obtain ⟨hmem, hne⟩ := mem_others.mp hreference
  obtain ⟨hreference, -⟩ := finished.idxOf_lt hplaced ⟨references, hentry, hmem, hne⟩
  have hlt := List.idxOf_lt_length_of_mem hreference
  exact depth_eq_depth finished hreference (by omega) (by omega)

end

/-! ## 2. The layer that a pass places -/

/-- The tables that the sort resolves, in the order of the graph. -/
def resolved (graph : Graph) : List Text := graph.keys.filter (· ∉ graph.sort.unresolved)

theorem mem_resolved {graph : Graph} {table : Text} :
    table ∈ graph.resolved ↔ table ∈ graph.keys ∧ table ∉ graph.sort.unresolved := by
  simp [resolved]

/-- The resolved tables of one rank. -/
def layer (graph : Graph) (rank : Text → Nat) (r : Nat) : List Text :=
  graph.resolved.filter (rank · = r)

theorem mem_layer {graph : Graph} {rank : Text → Nat} {r : Nat} {table : Text} :
    table ∈ graph.layer rank r ↔ table ∈ graph.resolved ∧ rank table = r := by
  simp [layer]

/-- The sort after some passes: each has placed a layer, and the rest remains as it was. -/
structure Layered (graph : Graph) (rank : Text → Nat) (passes : Nat) (placed : List Text)
    (remaining : Graph) : Prop where
  placed_eq : placed = (List.range passes).flatMap (graph.layer rank)
  remaining_eq : remaining = graph.filter (·.1 ∉ placed)

section

variable {graph : Graph} {rank : Text → Nat} {passes : Nat} {placed : List Text} {remaining : Graph}

-- Tables are resolved together with what they refer to.
theorem resolved_iff (unique : graph.keys.Nodup) {table : Text} {references : List Text}
    (hentry : (table, references) ∈ graph) :
    table ∈ graph.resolved ↔ ∀ reference ∈ others table references, reference ∈ graph.resolved := by
  obtain ⟨hleast, -⟩ := isLeast_resolved unique
  constructor
  · intro hresolved reference hreference
    obtain ⟨placed, remaining, finished, hsort⟩ := sort_finished unique
    rw [mem_resolved, hsort, ← finished.mem_placed_iff unique] at hresolved ⊢
    obtain ⟨hmem, hne⟩ := mem_others.mp hreference
    exact (finished.idxOf_lt hresolved ⟨references, hentry, hmem, hne⟩).1
  · intro h
    refine mem_resolved.mpr (hleast table references hentry fun reference hmem hne => ?_)
    exact mem_resolved.mp (h reference (mem_others.mpr ⟨hmem, hne⟩))

theorem Layered.mem_placed (layered : Layered graph rank passes placed remaining) {table : Text} :
    table ∈ placed ↔ table ∈ graph.resolved ∧ rank table < passes := by
  rw [layered.placed_eq, List.mem_flatMap]
  constructor
  · rintro ⟨r, hr, h⟩
    obtain ⟨hresolved, rfl⟩ := mem_layer.mp h
    exact ⟨hresolved, List.mem_range.mp hr⟩
  · rintro ⟨hresolved, hlt⟩
    exact ⟨rank table, List.mem_range.mpr hlt, mem_layer.mpr ⟨hresolved, rfl⟩⟩

/-- A table that remains is ready in the pass of its rank. -/
theorem Layered.isReady_iff (unique : graph.keys.Nodup) (isRank : IsRank graph rank)
    (layered : Layered graph rank passes placed remaining) {table : Text} {references : List Text}
    (hentry : (table, references) ∈ graph) (hnew : table ∉ placed) :
    isReady placed (table, references) = true ↔ table ∈ graph.layer rank passes := by
  have hready : isReady placed (table, references) = true ↔
      ∀ reference ∈ others table references,
        reference ∈ graph.resolved ∧ rank reference < passes := by
    rw [Graph.isReady_iff]
    simp only [mem_others, and_imp, ← layered.mem_placed]
  rw [hready, mem_layer]
  constructor
  · intro h
    have hresolved := (resolved_iff unique hentry).mpr fun reference hmem => (h reference hmem).1
    have hle : rank table ≤ passes := by
      rw [isRank table references hentry (mem_resolved.mp hresolved).2, above_le_iff,
        List.forall_mem_map]
      exact fun reference hmem => (h reference hmem).2
    have hge : ¬ rank table < passes := fun hlt => hnew (layered.mem_placed.mpr ⟨hresolved, hlt⟩)
    exact ⟨hresolved, by omega⟩
  · rintro ⟨hresolved, hrank⟩ reference hmem
    refine ⟨(resolved_iff unique hentry).mp hresolved reference hmem, ?_⟩
    have hle := isRank table references hentry (mem_resolved.mp hresolved).2
    rw [hrank] at hle
    exact above_le_iff.mp hle.ge _ (List.mem_map_of_mem hmem)

theorem keys_filter (graph : Graph) (p : Text → Bool) :
    Ordered.keys (graph.filter fun entry => p entry.1) = graph.keys.filter p := by
  rw [Ordered.keys, Ordered.keys, List.filter_map]
  rfl

theorem filter_mem_layer (graph : Graph) (rank : Text → Nat) (r : Nat) :
    graph.keys.filter (· ∈ graph.layer rank r) = graph.layer rank r := by
  conv_rhs => rw [layer, resolved, List.filter_filter]
  refine List.filter_congr fun table htable => ?_
  simp [mem_layer, mem_resolved, htable, Bool.and_comm]

/-- A pass places the next layer. -/
theorem Layered.pass (unique : graph.keys.Nodup) (isRank : IsRank graph rank)
    (layered : Layered graph rank passes placed remaining) :
    Layered graph rank (passes + 1) (placed ++ Ordered.keys (remaining.filter (isReady placed)))
      (remaining.filter (!isReady placed ·)) := by
  have hready : ∀ entry ∈ graph, entry.1 ∉ placed →
      isReady placed entry = decide (entry.1 ∈ graph.layer rank passes) := by
    intro entry hentry hnew
    rw [Bool.eq_iff_iff, decide_eq_true_iff]
    exact layered.isReady_iff unique isRank hentry hnew
  have hlayer : Ordered.keys (remaining.filter (isReady placed)) = graph.layer rank passes := by
    rw [← filter_mem_layer, ← keys_filter, layered.remaining_eq, List.filter_filter]
    refine congrArg Ordered.keys (List.filter_congr fun entry hentry => ?_)
    by_cases hplaced : entry.1 ∈ placed
    · have hlt := (layered.mem_placed.mp hplaced).2
      simp [hplaced, mem_layer, hlt.ne]
    · simp [hplaced, hready entry hentry hplaced]
  rw [hlayer]
  refine ⟨?_, ?_⟩
  · rw [List.range_succ, List.flatMap_append, List.flatMap_singleton, ← layered.placed_eq]
  · rw [layered.remaining_eq, List.filter_filter]
    refine List.filter_congr fun entry hentry => ?_
    by_cases hplaced : entry.1 ∈ placed
    · simp [hplaced]
    · simp [hplaced, hready entry hentry hplaced]

/-- The order is one layer behind the other, and then what is unresolved. -/
theorem exists_order_eq_layers (unique : graph.keys.Nodup) (isRank : IsRank graph rank) :
    ∃ passes, (∀ table ∈ graph.resolved, rank table < passes) ∧
      graph.sort.order =
        (List.range passes).flatMap (graph.layer rank) ++ graph.sort.unresolved := by
  have hstart : Layered graph rank 0 [] graph := ⟨rfl, by simp⟩
  obtain ⟨done, rest, ⟨passes, layered⟩, -, hsort⟩ := exists_sortFrom
    (P := fun placed remaining => ∃ passes, Layered graph rank passes placed remaining)
    (fun _ _ ⟨passes, layered⟩ => ⟨passes + 1, layered.pass unique isRank⟩) (graph.length + 1) []
    graph (Nat.lt_succ_self _) ⟨0, hstart⟩
  have hsort : graph.sort = _ := hsort
  refine ⟨passes, fun table hresolved => ?_, ?_⟩
  · obtain ⟨hkey, hnew⟩ := mem_resolved.mp hresolved
    refine (layered.mem_placed.mp ?_).2
    by_contra hplaced
    refine hnew ?_
    rw [hsort, layered.remaining_eq, keys_filter graph (· ∉ done)]
    exact List.mem_filter.mpr ⟨hkey, by simpa using hplaced⟩
  · rw [← layered.placed_eq, hsort]

end

/-! ## 3. Layers and stable sorting -/

section

variable {α : Type} (f : α → Nat)

-- What ties stays in its order.
theorem filter_mergeSort (xs : List α) (r : Nat) :
    (xs.mergeSort fun a b => f a ≤ f b).filter (f · = r) = xs.filter (f · = r) := by
  have htie : (xs.filter (f · = r)).Pairwise fun a b => decide (f a ≤ f b) = true := by
    refine List.pairwise_of_forall_mem_list fun a ha b hb => ?_
    have ha := (List.mem_filter.mp ha).2
    have hb := (List.mem_filter.mp hb).2
    simp only [decide_eq_true_eq] at ha hb ⊢
    omega
  have hsub := (List.sublist_mergeSort (by grind) (by grind) htie List.filter_sublist).filter (f · = r)
  rw [List.filter_filter] at hsub
  simp only [Bool.and_self] at hsub
  exact (hsub.eq_of_length ((List.mergeSort_perm xs _).filter _).length_eq.symm).symm

theorem filter_append_filter {xs : List α} {n : Nat} (sorted : xs.Pairwise (f · ≤ f ·))
    (bound : ∀ x ∈ xs, f x ≤ n) : xs.filter (f · < n) ++ xs.filter (f · = n) = xs := by
  induction xs with
  | nil => rfl
  | cons x xs ih =>
    obtain ⟨hle, sorted⟩ := List.pairwise_cons.mp sorted
    obtain ⟨hx, bound⟩ := List.forall_mem_cons.mp bound
    rcases hx.lt_or_eq with hlt | heq
    · rw [List.filter_cons_of_pos (by simpa using hlt), List.filter_cons_of_neg (by simpa using hlt.ne),
        List.cons_append, ih sorted bound]
    · -- everything behind an element of the last layer is in it too
      have hall : ∀ y ∈ xs, f y = n := fun y hy => (bound y hy).antisymm (heq ▸ hle y hy)
      rw [List.filter_eq_nil_iff.mpr, List.nil_append, List.filter_eq_self.mpr]
      · simpa [heq] using hall
      · simpa [heq] using fun y hy => (hall y hy).ge

/-- A sorted list is its layers one behind the other. -/
theorem flatMap_filter {xs : List α} {n : Nat} (sorted : xs.Pairwise (f · ≤ f ·))
    (bound : ∀ x ∈ xs, f x < n) : ((List.range n).flatMap fun r => xs.filter (f · = r)) = xs := by
  induction n generalizing xs with
  | zero =>
    have hnil : xs = [] := List.eq_nil_iff_forall_not_mem.mpr fun x hx => Nat.not_lt_zero _ (bound x hx)
    rw [hnil]
    rfl
  | succ n ih =>
    have hfirst : ((List.range n).flatMap fun r => xs.filter (f · = r)) = xs.filter (f · < n) := by
      rw [← ih (sorted.filter _) fun x hx => by simpa using (List.mem_filter.mp hx).2]
      refine List.flatMap_congr fun r hr => ?_
      rw [List.filter_filter]
      refine List.filter_congr fun x _ => ?_
      have := List.mem_range.mp hr
      grind
    rw [List.range_succ, List.flatMap_append, List.flatMap_singleton, hfirst]
    exact filter_append_filter f sorted fun x hx => Nat.le_of_lt_succ (bound x hx)

theorem mergeSort_eq_flatMap {xs : List α} {n : Nat} (bound : ∀ x ∈ xs, f x < n) :
    (xs.mergeSort fun a b => f a ≤ f b) = (List.range n).flatMap fun r => xs.filter (f · = r) := by
  have sorted : (xs.mergeSort fun a b => f a ≤ f b).Pairwise (f · ≤ f ·) := by
    simpa using @List.pairwise_mergeSort α (fun a b => f a ≤ f b) (by grind) (by grind) xs
  rw [← flatMap_filter f sorted fun x hx => bound x ((List.mergeSort_perm xs _).mem_iff.mp hx)]
  exact List.flatMap_congr fun r _ => filter_mergeSort f xs r

end

/-! ## 4. The order of the sort -/

theorem unresolved_eq_filter {graph : Graph} (unique : graph.keys.Nodup) :
    graph.sort.unresolved = graph.keys.filter (· ∈ graph.sort.unresolved) := by
  obtain ⟨placed, remaining, finished, hsort⟩ := sort_finished unique
  have hsub : graph.sort.unresolved.Sublist graph.keys := by
    rw [hsort]
    exact finished.sublist.map _
  have hkept := hsub.filter (· ∈ graph.sort.unresolved)
  rw [List.filter_eq_self.mpr (by simp)] at hkept
  refine hkept.eq_of_length (List.Perm.length_eq ?_)
  refine (List.perm_ext_iff_of_nodup (hsub.nodup unique) (unique.filter _)).mpr fun table => ?_
  rw [List.mem_filter, decide_eq_true_iff]
  exact ⟨fun h => ⟨hsub.subset h, h⟩, And.right⟩

/-- **The sort is layered and stable.** Resolved tables have ranks. The order has them sorted by
rank, tables of one rank as they stand in the graph, and then the unresolved tables, also as they
stand in the graph. -/
theorem sort_layered (graph : Graph) (unique : graph.keys.Nodup) :
    (∃ rank, IsRank graph rank) ∧
    (∀ rank, IsRank graph rank → graph.sort.order =
      (graph.resolved.mergeSort fun a b => rank a ≤ rank b) ++ graph.sort.unresolved) ∧
    graph.sort.unresolved = graph.keys.filter (· ∈ graph.sort.unresolved) := by
  refine ⟨exists_isRank unique, fun rank isRank => ?_, unresolved_eq_filter unique⟩
  obtain ⟨passes, bound, horder⟩ := exists_order_eq_layers unique isRank
  rw [horder, mergeSort_eq_flatMap rank bound]
  rfl

/-- A table that refers to itself and one that refers to nothing, a chain of two behind them, and two
tables that refer to each other. -/
theorem sort_layered_mixed :
    let graph : Graph :=
      [(['c'], [['b'], ['a']]), (['x'], [['y']]), (['b'], [['z'], ['b']]), (['z'], [['z']]),
        (['y'], [['x']]), (['a'], [])]
    let rank : Text → Nat := fun table =>
      if table = ['c'] then 2 else if table = ['b'] then 1 else 0
    graph.keys.Nodup ∧ IsRank graph rank ∧
      graph.sort.order = (graph.resolved.mergeSort fun a b => rank a ≤ rank b) ++ [['x'], ['y']] ∧
      graph.resolved = [['c'], ['b'], ['z'], ['a']] ∧
      graph.sort.order = [['z'], ['a'], ['b'], ['c'], ['x'], ['y']] := by
  intro graph rank
  have unique : graph.keys.Nodup := by decide
  have isRank : IsRank graph rank := by
    have hall : ∀ entry ∈ graph, entry.1 ∉ graph.sort.unresolved →
        rank entry.1 = above ((others entry.1 entry.2).map rank) := by decide
    exact fun table references hentry => hall (table, references) hentry
  exact ⟨unique, isRank, (sort_layered graph unique).2.1 rank isRank, by decide, by decide⟩

end SqlDump.Graph
