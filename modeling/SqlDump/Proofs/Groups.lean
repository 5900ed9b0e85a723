import SqlDump.Proofs.Pieces
import SqlDump.Proofs.Unquoted

/-!
# Groups

A group starts at a parenthesis and ends where its parentheses outside quotes are balanced for the
first time. The reader of groups finds that end, or there is none. Behind its first parenthesis a
group is deeper than the place at which it starts, so a scan that meets it at no negative depth cuts
nothing in it, whatever stands before it and behind it.
-/

namespace SqlDump.Nesting

open Quoting (Unquotes unquoted unquotes_iff)

/-! ## 1. Parentheses outside quotes -/

/-- Balanced parentheses outside quotes: all are closed, and none before it is opened. -/
structure Paired (s : Text) : Prop where
  front : ∀ p t, p <+: s → Unquotes p t → t.count ')' ≤ t.count '('
  total : ∀ t, Unquotes s t → t.count ')' = t.count '('

/-- A text with balanced parentheses, none of whose beginnings has balanced ones but the empty one
and itself. -/
structure IsGroup (g : Text) : Prop where
  paired : Paired g
  first : ∀ p, p <+: g → p ≠ [] → p ≠ g → ¬ Paired p

/-- How many parentheses a text opens outside quotes. -/
def opened (s : Text) : Nat := (unquoted .outside s).count '('

/-- How many parentheses a text closes outside quotes. -/
def closed (s : Text) : Nat := (unquoted .outside s).count ')'

theorem paired_iff {s : Text} :
    Paired s ↔ (∀ p, p <+: s → closed p ≤ opened p) ∧ closed s = opened s := by
  constructor
  · intro h
    exact ⟨fun p hp => h.front p _ hp (unquotes_iff.mpr rfl), h.total _ (unquotes_iff.mpr rfl)⟩
  · rintro ⟨hfront, htotal⟩
    refine ⟨fun p t hp ht => ?_, fun t ht => ?_⟩
    · rw [ht.eq]
      exact hfront p hp
    · rw [ht.eq]
      exact htotal

theorem depth_mark {c : Char} (h : isQuoteMark c = true) (d : Int) : depth .outside d c = d := by
  have hopen : c ≠ '(' := by
    rintro rfl
    cases h
  have hclose : c ≠ ')' := by
    rintro rfl
    cases h
  simp [depth, hopen, hclose]

theorem depth_outside (d : Int) (c : Char) :
    depth .outside d c = d + [c].count '(' - [c].count ')' := by
  by_cases hopen : c = '('
  · simp [depth, Quoting.isOutside, hopen]
  · by_cases hclose : c = ')'
    · simp [depth, Quoting.isOutside, hclose]
    · simp [depth, hopen, hclose]

theorem reach_eq (q : Quoting) (d : Int) (s : Text) : reach true (q, d) s =
    (q.after s, d + (unquoted q s).count '(' - (unquoted q s).count ')') := by
  induction s generalizing q d with
  | nil =>
    refine Prod.ext rfl ?_
    show d = d + (0 : Nat) - (0 : Nat)
    omega
  | cons c s ih =>
    have hstep : reach true (q, d) (c :: s) = reach true (q.step c, depth q d c) s := rfl
    rw [hstep, ih]
    refine Prod.ext rfl ?_
    dsimp only
    cases q with
    | inside mark escaped =>
      rw [Quoting.unquoted_inside]
      rfl
    | outside =>
      cases hc : isQuoteMark c with
      | true => rw [Quoting.unquoted_mark hc, Quoting.step_mark hc, depth_mark hc]
      | false =>
        rw [Quoting.unquoted_plain hc, Quoting.step_plain hc, depth_outside,
          show c :: unquoted .outside s = [c] ++ unquoted .outside s from rfl, List.count_append,
          List.count_append]
        omega

/-- A scan outside quotes gets as much deeper as a text opens more parentheses than it closes. -/
theorem depth_reach (d : Int) (s : Text) :
    (reach true (.outside, d) s).2 = d + opened s - closed s := by
  rw [reach_eq]
  rfl

theorem opened_cons (s : Text) : opened ('(' :: s) = opened s + 1 := by
  rw [opened, Quoting.unquoted_plain (by decide), List.count_cons_self]
  rfl

theorem closed_cons (s : Text) : closed ('(' :: s) = closed s := by
  rw [closed, Quoting.unquoted_plain (by decide), List.count_cons_of_ne (by decide)]
  rfl

namespace IsGroup

variable {g : Text}

/-- Inside a group a parenthesis is open. -/
theorem deep (h : IsGroup g) {p : Text} (hp : p <+: g) (hne : p ≠ []) (hpg : p ≠ g) :
    closed p < opened p := by
  obtain ⟨hfront, -⟩ := paired_iff.mp h.paired
  refine lt_of_le_of_ne (hfront p hp) fun htotal => h.first p hp hne hpg ?_
  exact paired_iff.mpr ⟨fun p' hp' => hfront p' (hp'.trans hp), htotal⟩

/-- A text starts with one group at most. -/
theorem unique (h : IsGroup g) (hne : g ≠ []) {g' s : Text} (h' : IsGroup g') (hne' : g' ≠ [])
    (hg : g <+: s) (hg' : g' <+: s) : g = g' := by
  by_contra hdiff
  rcases List.prefix_or_prefix_of_prefix hg hg' with hp | hp
  · exact h'.first g hp hne hdiff h.paired
  · exact h.first g' hp hne' (Ne.symm hdiff) h'.paired

end IsGroup

/-! ## 2. Where a group is closed -/

-- Inside a group, a scan is as deep as the reader of groups counts.
theorem advance_of_stride {q q' : Quoting} {d d' : Nat} {c : Char}
    (h : stride false (q, d) c = some (q', d')) (e : Int) :
    advance true (q, d + e) c = (q', d' + e) := by
  rcases stride_cases h with ⟨mark, escaped, rfl, rfl, rfl⟩ | ⟨rfl, rfl, rfl, rfl⟩ |
    ⟨rfl, hclose, -, rfl, rfl⟩
  · rfl
  · refine Prod.ext rfl ?_
    show ((d' + 1 : Nat) : Int) + e - 1 = d' + e
    omega
  · refine Prod.ext rfl ?_
    show depth .outside (d + e) c = ((if c = '(' then d + 1 else d : Nat) : Int) + e
    unfold depth
    rw [if_pos (show Quoting.outside.isOutside = true from rfl), if_neg hclose]
    split_ifs <;> omega

-- The scan may start at any depth, which the reader does not count.
theorem reach_of_walk {q q' : Quoting} {d d' : Nat} {s : Text}
    (h : walk false (q, d) s = some (q', d')) (e : Int) :
    reach true (q, d + e) s = (q', d' + e) := by
  induction s generalizing q d with
  | nil =>
    cases h
    rfl
  | cons c s ih =>
    rw [walk_cons] at h
    obtain ⟨⟨q₁, d₁⟩, hnext, h⟩ := Option.bind_eq_some_iff.mp h
    rw [reach, List.foldl_cons, advance_of_stride hnext]
    exact ih h

-- What can be walked through opens at least as much as it closes.
theorem closed_le_of_walk {s : Text} {place : Place} (h : walk false start s = some place) :
    closed s ≤ opened s := by
  have hdepth := depth_reach 0 s
  have hreach := reach_of_walk h 0
  rw [show ((0 : Nat) : Int) + 0 = 0 from rfl] at hreach
  rw [hreach] at hdepth
  dsimp only at hdepth
  omega

theorem exists_walk_of_prefix {p : Place} {s t : Text} (h : (walk false p s).isSome)
    (ht : t <+: s) : ∃ place, walk false p t = some place := by
  obtain ⟨r, rfl⟩ := ht
  rw [walk_append] at h
  cases ht : walk false p t with
  | none =>
    rw [ht] at h
    cases h
  | some place => exact ⟨place, rfl⟩

theorem walk_of_closing?_eq_none {q : Quoting} {d : Nat} {s : Text} (h : closing? q d s = none) :
    (walk false (q, d) s).isSome := by
  induction s generalizing q d with
  | nil => rfl
  | cons c s ih =>
    cases hnext : stride false (q, d) c with
    | none =>
      obtain ⟨rfl, rfl, rfl⟩ := stride_eq_none hnext
      rw [closing?_zero] at h
      cases h
    | some next =>
      rw [closing?_cons_of hnext, Option.map_eq_none_iff] at h
      rw [walk_cons_of hnext]
      exact ih h

theorem closed_eq_opened {u : Text} (h : Balanced u) :
    closed ('(' :: u ++ [')']) = opened ('(' :: u ++ [')']) := by
  have hreach : reach true (.outside, 0) ('(' :: u ++ [')']) = (.outside, 0) := by
    show reach true (.outside, 1) (u ++ [')']) = _
    rw [reach_append, show reach true (.outside, 1) u = (.outside, 1) from reach_of_walk h 1]
    rfl
  have hdepth := depth_reach 0 ('(' :: u ++ [')'])
  rw [hreach] at hdepth
  dsimp only at hdepth
  omega

-- A beginning of a group that is not all of it leaves the first parenthesis open.
theorem closed_lt_opened {u p : Text} (h : Balanced u) (hp : p <+: '(' :: u ++ [')'])
    (hne : p ≠ []) (hpg : p ≠ '(' :: u ++ [')']) : closed p < opened p := by
  obtain rfl | ⟨p', rfl, hp'⟩ := List.prefix_cons_iff.mp hp
  · exact absurd rfl hne
  obtain rfl | hp' := List.prefix_concat_iff.mp hp'
  · exact absurd rfl hpg
  obtain ⟨place, hplace⟩ := exists_walk_of_prefix (Option.isSome_of_eq_some h) hp'
  rw [opened_cons, closed_cons]
  exact Nat.lt_succ_of_le (closed_le_of_walk hplace)

/-- Content with parentheses around it is a group. -/
theorem isGroup_of_balanced {u : Text} (h : Balanced u) : IsGroup ('(' :: u ++ [')']) := by
  constructor
  case paired =>
    refine paired_iff.mpr ⟨fun p hp => ?_, closed_eq_opened h⟩
    by_cases hne : p = []
    · exact hne ▸ Nat.le_refl 0
    by_cases hpg : p = '(' :: u ++ [')']
    · exact hpg ▸ (closed_eq_opened h).le
    · exact (closed_lt_opened h hp hne hpg).le
  case first =>
    intro p hp hne hpg hpaired
    exact (closed_lt_opened h hp hne hpg).ne (paired_iff.mp hpaired).2

/-- The reader of groups finds the group at the front, if there is one. -/
theorem group?_of_isGroup {g s : Text} (h : IsGroup g) (hne : g ≠ []) (hg : g <+: '(' :: s) :
    ∃ u r, group? ('(' :: s) = some (u, r) ∧ g = '(' :: u ++ [')'] := by
  cases hgroup : group? ('(' :: s) with
  | none =>
    obtain rfl | ⟨p, rfl, hp⟩ := List.prefix_cons_iff.mp hg
    · exact absurd rfl hne
    obtain ⟨place, hplace⟩ := exists_walk_of_prefix (walk_of_closing?_eq_none hgroup) hp
    have htotal := (paired_iff.mp h.paired).2
    have hle := closed_le_of_walk hplace
    rw [opened_cons, closed_cons] at htotal
    omega
  | some found =>
    obtain ⟨u, r⟩ := found
    obtain ⟨rfl, hu⟩ := walk_of_closing? hgroup
    refine ⟨u, r, rfl, h.unique hne (isGroup_of_balanced hu) (by simp) hg ?_⟩
    exact ⟨r, by simp⟩

/-! ## 3. Indices -/

/-- The index of the parenthesis that closes the one at an index. -/
def closingIndex? (text : Text) (i : Nat) : Option Nat :=
  (group? (text.drop i)).map fun found => i + found.1.length + 1

/-- From one index of a text up to another, both included. -/
def stretch (text : Text) (i j : Nat) : Text := (text.drop i).take (j + 1 - i)

theorem stretch_of_closingIndex? {text : Text} {i j : Nat} (h : closingIndex? text i = some j) :
    i ≤ j ∧ j < text.length ∧ ∃ u, Balanced u ∧ stretch text i j = '(' :: u ++ [')'] := by
  obtain ⟨⟨u, r⟩, hgroup, hj⟩ := Option.map_eq_some_iff.mp h
  have hj : i + u.length + 1 = j := hj
  unfold group? at hgroup
  split at hgroup
  · rename_i s hs
    obtain ⟨rfl, hu⟩ := walk_of_closing? hgroup
    have hlength := congrArg List.length hs
    rw [List.length_drop, List.length_cons, List.length_append, List.length_cons] at hlength
    refine ⟨by omega, by omega, u, hu, ?_⟩
    rw [stretch, hs, show j + 1 - i = ('(' :: u ++ [')']).length by simp; omega,
      show '(' :: (u ++ ')' :: r) = ('(' :: u ++ [')']) ++ r by simp, List.take_left]
  · cases hgroup

theorem closingIndex?_eq_some_iff {text : Text} {i j : Nat} (h : text[i]? = some '(') :
    closingIndex? text i = some j ↔ i ≤ j ∧ j < text.length ∧ IsGroup (stretch text i j) := by
  constructor
  · intro hclosing
    obtain ⟨hij, hj, u, hu, hstretch⟩ := stretch_of_closingIndex? hclosing
    exact ⟨hij, hj, hstretch ▸ isGroup_of_balanced hu⟩
  · rintro ⟨hij, hj, hgroup⟩
    obtain ⟨hi, hchar⟩ := List.getElem?_eq_some_iff.mp h
    obtain ⟨s, hs⟩ : ∃ s, text.drop i = '(' :: s :=
      ⟨_, by rw [List.drop_eq_getElem_cons hi, hchar]⟩
    have hlength : (stretch text i j).length = j + 1 - i := by
      rw [stretch, List.length_take, List.length_drop]
      omega
    have hne : stretch text i j ≠ [] := by
      intro hnil
      rw [hnil, List.length_nil] at hlength
      omega
    have hfront : stretch text i j <+: '(' :: s := hs ▸ List.take_prefix (j + 1 - i) (text.drop i)
    obtain ⟨u, r, hfound, hstretch⟩ := group?_of_isGroup hgroup hne hfront
    rw [hstretch, List.length_append, List.length_cons, List.length_singleton] at hlength
    rw [closingIndex?, hs, hfound]
    exact congrArg some (show i + u.length + 1 = j by omega)

/-! ## 4. Cuts -/

variable {sep : Char} {nested : Bool} {p : Depth}

/-- Whether pieces of a text end at an index, at which a separator stands then. -/
def CutsAt (sep : Char) (nested : Bool) (s : Text) (n : Nat) : Prop :=
  ∃ front back, rawPieces sep nested .outside 0 s = front ++ back ∧ front ≠ [] ∧ back ≠ [] ∧
    (Text.join [sep] front).length = n

theorem join_append {front back : List Text} (hfront : front ≠ []) (hback : back ≠ []) :
    Text.join [sep] (front ++ back) = Text.join [sep] front ++ sep :: Text.join [sep] back := by
  induction front with
  | nil => exact absurd rfl hfront
  | cons first front ih =>
    cases front with
    | nil =>
      rw [List.singleton_append, join_cons hback]
      exact congrArg (· ++ _) List.intercalate_singleton.symm
    | cons second front =>
      rw [List.cons_append, join_cons (by simp), ih (List.cons_ne_nil _ _),
        join_cons (List.cons_ne_nil _ _), List.append_assoc]
      rfl

-- Pieces end where a separator stands at a place at which it cuts.
theorem atTop_of_cutsAt (h : Separates sep nested) {s : Text} {n : Nat}
    (hn : CutsAt sep nested s n) : ∃ u v, s = u ++ sep :: v ∧ u.length = n ∧
      AtTop (reach nested (.outside, 0) u) := by
  obtain ⟨front, back, hraw, hfront, hback, hlength⟩ := hn
  refine ⟨_, Text.join [sep] back, ?_, hlength, atTop_of_rawPieces h hraw hfront hback⟩
  have hjoin : Text.join [sep] (rawPieces sep nested .outside 0 s) = s :=
    join_rawPieces (p := (.outside, 0)) h s
  rw [← join_append hfront hback, ← hraw, hjoin]

/-- A text is cut nowhere if no separator in it stands at a place at which it cuts. -/
theorem uncut_of (h : Separates sep nested) {s : Text}
    (hs : ∀ u v, s = u ++ sep :: v → ¬ AtTop (reach nested p u)) : Uncut sep nested p s := by
  induction s generalizing p with
  | nil => rfl
  | cons c s ih =>
    refine (uncut_cons c s).mpr ⟨?_, ih fun u v e => hs (c :: u) v (congrArg (c :: ·) e)⟩
    rw [← Bool.not_eq_true, h.cutsAt_iff]
    rintro ⟨htop, rfl⟩
    exact hs [] s rfl htop

-- The last piece of a text goes on with the first of what follows it.
theorem rawPieces_resume (h : Separates sep nested) (s t : Text) : ∃ front last,
    rawPieces sep nested p.1 p.2 s = front ++ [last] ∧ rawPieces sep nested p.1 p.2 (s ++ t) =
      front ++ prepend last (rawPieces sep nested (reach nested p s).1 (reach nested p s).2 t) := by
  induction s generalizing p with
  | nil =>
    refine ⟨[], [], rfl, ?_⟩
    show rawPieces sep nested p.1 p.2 t = prepend [] (rawPieces sep nested p.1 p.2 t)
    cases hraw : rawPieces sep nested p.1 p.2 t with
    | nil => exact absurd hraw (rawPieces_ne_nil _ _ _)
    | cons first rest => rfl
  | cons c s ih =>
    rw [List.cons_append, rawPieces_eq, rawPieces_eq]
    split
    · rename_i hcut
      obtain ⟨⟨hq, -⟩, rfl⟩ := h.cutsAt_iff.mp hcut
      obtain ⟨front, last, hs, hall⟩ := @ih p
      rw [h.reach hq, hs, hall]
      exact ⟨[] :: front, last, rfl, rfl⟩
    · obtain ⟨front, last, hs, hall⟩ := @ih (advance nested p c)
      rw [hs, hall]
      cases front with
      | nil =>
        refine ⟨[], c :: last, rfl, ?_⟩
        rw [List.nil_append, List.nil_append, prepend_prepend]
        rfl
      | cons first front => exact ⟨(c :: first) :: front, last, rfl, rfl⟩

/-! ## 5. Groups in pieces -/

/-- What starts and ends with no blank stays in a text that is trimmed. -/
theorem infix_trim {c d : Char} (hc : isBlank c = false) (hd : isBlank d = false) {u s : Text}
    (h : c :: u ++ [d] <:+: s) : c :: u ++ [d] <:+: Text.trim s := by
  obtain ⟨x, y, hs⟩ := h
  obtain ⟨lead, tail, htrim, hlead, htail⟩ := Text.exists_trim s
  -- the blanks in front end before it
  obtain ⟨a, ha⟩ : ∃ a, Text.trim s ++ tail = a ++ (c :: u ++ [d] ++ y) := by
    have hboth : x ++ (c :: u ++ [d] ++ y) = lead ++ (Text.trim s ++ tail) := by
      rw [← List.append_assoc, hs, ← List.append_assoc, ← htrim]
    rcases List.append_eq_append_iff.mp hboth with ⟨b, rfl, hb⟩ | ⟨b, rfl, hb⟩
    · cases b with
      | nil => exact ⟨[], hb.symm⟩
      | cons e b =>
        obtain rfl := List.head_eq_of_cons_eq hb
        rw [hlead c (by simp)] at hc
        cases hc
    · exact ⟨b, hb⟩
  -- and those behind start after it
  rw [← List.append_assoc] at ha
  rcases List.append_eq_append_iff.mp ha with ⟨b, hb, rfl⟩ | ⟨b, hb, -⟩
  · rcases List.eq_nil_or_concat b with rfl | ⟨b, e, rfl⟩
    · exact ⟨a, [], by rw [List.append_nil] at hb ⊢; exact hb⟩
    · rw [List.concat_eq_append, ← List.append_assoc, ← List.append_assoc] at hb
      obtain rfl := (List.cons.inj (List.append_inj' hb rfl).2).1
      rw [htail d (by simp)] at hd
      cases hd
  · exact ⟨a, b, hb.symm⟩

-- A piece that is not blank is a part, without the blanks around it.
theorem trim_mem_pieces {piece s : Text} (h : piece ∈ rawPieces sep nested .outside 0 s)
    (hne : Text.trim piece ≠ []) : Text.trim piece ∈ pieces sep nested s := by
  have hmem := List.mem_map_of_mem (f := Text.trim) h
  rcases @map_trim_rawPieces sep nested s with ⟨hall, -⟩ | hall
  · exact hall ▸ hmem
  · rw [hall] at hmem
    exact (List.mem_append.mp hmem).resolve_right fun hlast => hne (List.mem_singleton.mp hlast)

/-- A text that cuts at commas leave whole: alone, and behind what leaves a scan outside quotes and
at no negative depth, whatever follows. -/
structure StaysWhole (g : Text) : Prop where
  alone : pieces ',' true g = [g]
  within : ∀ front back, (reach true (.outside, 0) front).1 = .outside →
    0 ≤ (reach true (.outside, 0) front).2 →
    (∀ n, CutsAt ',' true (front ++ g ++ back) n → n < front.length ∨ front.length + g.length ≤ n) ∧
      ∃ part ∈ pieces ',' true (front ++ g ++ back), g <:+: part

namespace IsGroup

variable {d : Int} {u : Text}

/-- A scan that comes to a group at no negative depth comes to no place in it at which it is cut. -/
theorem not_atTop {v w : Text} (h : IsGroup ('(' :: u)) (hd : 0 ≤ d)
    (hu : '(' :: u = v ++ ',' :: w) : ¬ AtTop (reach true (.outside, d) v) := by
  rintro ⟨-, hdepth⟩
  have hne : v ≠ [] := by
    rintro rfl
    cases hu
  have hdeep := h.deep ⟨_, hu.symm⟩ hne (by simp [hu])
  rw [depth_reach] at hdepth
  omega

theorem not_cutsAt (h : IsGroup ('(' :: u)) (hd : 0 ≤ d) {front : Text}
    (hfront : reach true (.outside, 0) front = (.outside, d)) {back : Text} {n : Nat}
    (hn : CutsAt ',' true (front ++ '(' :: u ++ back) n) :
    n < front.length ∨ front.length + ('(' :: u).length ≤ n := by
  obtain ⟨v, w, hvw, rfl, htop⟩ := atTop_of_cutsAt separates_comma hn
  by_contra hinside
  rw [not_or, Nat.not_lt, Nat.not_le] at hinside
  rw [List.append_assoc] at hvw
  -- the cut is in the group, behind a beginning of it
  obtain ⟨v, rfl⟩ : front <+: v :=
    List.prefix_of_prefix_length_le ⟨_, hvw⟩ ⟨_, rfl⟩ hinside.1
  rw [List.append_assoc, List.append_cancel_left_eq] at hvw
  rw [List.length_append] at hinside
  rcases List.append_eq_append_iff.mp hvw with ⟨x, hx, -⟩ | ⟨x, hx, hxw⟩
  · have := congrArg List.length hx
    rw [List.length_append] at this
    omega
  · cases x with
    | nil =>
      have := congrArg List.length hx
      rw [List.append_nil] at this
      omega
    | cons c x =>
      obtain ⟨rfl, -⟩ := List.cons.inj hxw
      rw [reach_append, hfront] at htop
      exact h.not_atTop hd hx htop

/-- The piece that holds the first parenthesis of a group holds all of it. -/
theorem exists_piece (h : IsGroup ('(' :: u)) (hd : 0 ≤ d) {front : Text}
    (hfront : reach true (.outside, 0) front = (.outside, d)) (back : Text) :
    ∃ piece ∈ rawPieces ',' true .outside 0 (front ++ '(' :: u ++ back), '(' :: u <:+: piece := by
  obtain ⟨pieces, last, -, hall⟩ :=
    rawPieces_resume (p := (.outside, 0)) separates_comma front ('(' :: u ++ back)
  obtain ⟨pieces', last', hgroup, hrest⟩ :=
    rawPieces_resume (p := (.outside, d)) separates_comma ('(' :: u) back
  -- the group itself is one piece
  have hone : rawPieces ',' true .outside d ('(' :: u) = [] ++ ['(' :: u] :=
    uncut_of (p := (.outside, d)) separates_comma fun v w hu => h.not_atTop hd hu
  obtain ⟨rfl, hlast⟩ := List.append_inj' (hgroup.symm.trans hone) rfl
  obtain rfl := (List.cons.inj hlast).1
  rw [hfront] at hall
  rw [List.append_assoc, hall, hrest, List.nil_append, prepend_prepend]
  cases rawPieces ',' true (reach true (.outside, d) ('(' :: u)).1
      (reach true (.outside, d) ('(' :: u)).2 back with
  | nil => exact ⟨last ++ '(' :: u, by simp [prepend], last, [], by simp⟩
  | cons first rest => exact ⟨last ++ '(' :: u ++ first, by simp [prepend], last, first, rfl⟩

/-- Cuts at commas leave groups whole. -/
theorem staysWhole (h : IsGroup ('(' :: u ++ [')'])) : StaysWhole ('(' :: u ++ [')']) := by
  constructor
  case alone =>
    refine pieces_of_rawPieces (uncut_of (p := (.outside, 0)) separates_comma fun v w hu =>
      h.not_atTop (Int.le_refl 0) hu) fun part hpart => ?_
    obtain rfl := List.mem_singleton.mp hpart
    refine ⟨?_, List.cons_ne_nil _ _⟩
    rw [Text.trim, List.cons_append, Text.trimLeft_cons (by decide), ← List.cons_append,
      Text.trimRight_concat (by decide)]
  case within =>
    intro front back hquote hdepth
    have hfront : reach true (.outside, 0) front = (.outside, (reach true (.outside, 0) front).2) :=
      Prod.ext hquote rfl
    refine ⟨fun n => h.not_cutsAt hdepth hfront, ?_⟩
    obtain ⟨piece, hpiece, hin⟩ := h.exists_piece hdepth hfront back
    have hin' := infix_trim (c := '(') (d := ')') (by decide) (by decide) hin
    exact ⟨Text.trim piece, trim_mem_pieces hpiece fun hnil => by simp [hnil] at hin', hin'⟩

end IsGroup

/-- **The scanners agree on groups.** A parenthesis is closed at the one index up to which the
parentheses outside quotes are balanced for the first time, and is not closed if there is no such
index. What stands from the one index to the other is left whole by the cuts at commas: alone, and
in every text that leads a scan to it outside quotes and at no negative depth. -/
theorem scanners_agree (text : Text) (i : Nat) (h : text[i]? = some '(') :
    (∀ j, closingIndex? text i = some j ↔
      i ≤ j ∧ j < text.length ∧ IsGroup (stretch text i j)) ∧
    (closingIndex? text i = none ↔
      ∀ j, i ≤ j → j < text.length → ¬ IsGroup (stretch text i j)) ∧
    ∀ j, closingIndex? text i = some j → StaysWhole (stretch text i j) := by
  refine ⟨fun j => closingIndex?_eq_some_iff h, ?_, fun j hj => ?_⟩
  · rw [Option.eq_none_iff_forall_ne_some]
    refine forall_congr' fun j => ?_
    rw [Ne, closingIndex?_eq_some_iff h]
    tauto
  · obtain ⟨-, -, u, hu, hstretch⟩ := stretch_of_closingIndex? hj
    rw [hstretch]
    exact (isGroup_of_balanced hu).staysWhole

/-- Parentheses and commas in quotes, a backslash that escapes nothing, and a parenthesis that is
open before the group. -/
theorem scanners_agree_quoted :
    let text : Text := "k (a, '),', `\\`, (b)) c"
    let group : Text := "(a, '),', `\\`, (b))"
    let front : Text := "f(x), (y, \"(\", "
    text[2]? = some '(' ∧ closingIndex? text 2 = some 20 ∧ stretch text 2 20 = group ∧
      IsGroup group ∧ pieces ',' true group = [group] ∧
      reach true (.outside, 0) front = (.outside, 1) ∧
      ∀ n, CutsAt ',' true (front ++ group ++ ", z)".toList) n → n < 15 ∨ 34 ≤ n := by
  intro text group front
  have hopen : text[2]? = some '(' := by decide +kernel
  have hclosing : closingIndex? text 2 = some 20 := by decide +kernel
  have hgroup : stretch text 2 20 = group := by decide +kernel
  have hfront : reach true (.outside, 0) front = (.outside, 1) := by decide +kernel
  obtain ⟨hexact, -, hwhole⟩ := scanners_agree text 2 hopen
  have hwhole := hgroup ▸ hwhole 20 hclosing
  refine ⟨hopen, hclosing, hgroup, hgroup ▸ ((hexact 20).mp hclosing).2.2, hwhole.alone, hfront, ?_⟩
  exact (hwhole.within front ", z)" (by rw [hfront]) (by rw [hfront]; decide)).1

end SqlDump.Nesting
