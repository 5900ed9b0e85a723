import SqlDump.Proofs.Cuts
import SqlDump.Proofs.Walks

/-!
# Pieces that are cut again

A scan is cut at the separators outside quotes whose depth is zero or below. A piece starts at no
greater depth than a text of its own does, so alone it is cut nowhere. Pieces that are put together
again lead a scan through the same places, blanks and blank pieces aside, so they are the pieces of
what they make up. Nothing has to be closed or balanced for that.
-/

namespace SqlDump.Nesting

open Quoting (Stands)

/-! ## 1. Scans -/

/-- A place among quotes and parentheses, which may be outside all of them. -/
abbrev Depth := Quoting × Int

/-- The place behind a character, parentheses counting if they nest. -/
def advance (nested : Bool) (p : Depth) (c : Char) : Depth :=
  (p.1.step c, if nested then depth p.1 p.2 c else p.2)

def reach (nested : Bool) (p : Depth) (s : Text) : Depth := s.foldl (advance nested) p

/-- A place at which a separator cuts. -/
def AtTop (p : Depth) : Prop := p.1 = .outside ∧ p.2 ≤ 0

/-- A character that separates and is nothing else to a scan. -/
structure Separates (sep : Char) (nested : Bool) : Prop where
  solid : isBlank sep = false
  unquoted : isQuoteMark sep = false
  unnested : nested = true → sep ≠ '(' ∧ sep ≠ ')'

variable {sep : Char} {nested : Bool} {p : Depth}

theorem reach_append (s t : Text) : reach nested p (s ++ t) = reach nested (reach nested p s) t :=
  List.foldl_append

theorem advance_blank {c : Char} (h : isBlank c = true) (d : Int) :
    advance nested (.outside, d) c = (.outside, d) := by
  have hstep : Quoting.outside.step c = .outside := by
    simp [Quoting.step, Quoting.not_isQuoteMark_of_isBlank h]
  rw [advance, depth_of_isBlank _ _ h, ite_self, hstep]

theorem reach_blank {s : Text} (h : ∀ c ∈ s, isBlank c = true) (d : Int) :
    reach nested (.outside, d) s = (.outside, d) := by
  induction s with
  | nil => rfl
  | cons c s ih =>
    have hadvance := @advance_blank nested c (h c List.mem_cons_self) d
    rw [reach, List.foldl_cons, hadvance]
    exact ih fun c hc => h c (List.mem_cons_of_mem _ hc)

theorem stands_reach (hp : Stands false p.1) (s : Text) : Stands false (reach nested p s).1 := by
  induction s generalizing p with
  | nil => exact hp
  | cons c s ih => exact ih hp.step

-- A scan that blanks take outside quotes was outside before.
theorem outside_of_blank {q : Quoting} (hq : Stands false q) {c : Char} (hc : isBlank c = true)
    (h : q.step c = .outside) : q = .outside := by
  cases q with
  | outside => rfl
  | inside mark escaped =>
    obtain ⟨hmark, -⟩ := hq
    cases escaped with
    | true => cases h
    | false =>
      have hne : c ≠ mark := by
        rintro rfl
        rw [Quoting.not_isQuoteMark_of_isBlank hc] at hmark
        cases hmark
      rw [Quoting.step, if_neg hne] at h
      split at h <;> cases h

theorem outside_of_reach_blank (hp : Stands false p.1) {s : Text} (hs : ∀ c ∈ s, isBlank c = true)
    {d : Int} (h : reach nested p s = (.outside, d)) : p = (.outside, d) := by
  induction s generalizing p with
  | nil => exact h
  | cons c s ih =>
    obtain ⟨hc, hs⟩ := List.forall_mem_cons.mp hs
    have hadvance : advance nested p c = (.outside, d) := ih hp.step hs h
    obtain ⟨q, e⟩ := p
    obtain rfl := outside_of_blank hp hc (congrArg Prod.fst hadvance)
    rw [advance_blank hc] at hadvance
    exact hadvance

theorem reach_trim {d d' : Int} {s : Text} (h : reach nested (.outside, d) s = (.outside, d')) :
    reach nested (.outside, d) (Text.trim s) = (.outside, d') := by
  obtain ⟨lead, tail, hs, hlead, htail⟩ := Text.exists_trim s
  rw [hs, List.append_assoc, reach_append, reach_blank hlead, reach_append] at h
  exact outside_of_reach_blank (stands_reach (p := (.outside, d)) trivial _) htail h

theorem separates_comma : Separates ',' true := ⟨by decide, by decide, fun _ => by decide⟩

theorem separates_semicolon : Separates ';' false := ⟨by decide, by decide, nofun⟩

theorem Separates.cutsAt_iff (h : Separates sep nested) {c : Char} :
    cutsAt sep nested p.1 p.2 c = true ↔ AtTop p ∧ c = sep := by
  obtain ⟨q, d⟩ := p
  constructor
  · intro hcut
    cases q with
    | inside mark escaped => cases hcut
    | outside =>
      simp only [cutsAt, Bool.and_eq_true, decide_eq_true_eq] at hcut
      exact ⟨⟨rfl, hcut.2⟩, hcut.1.2⟩
  · rintro ⟨⟨hq, hd⟩, rfl⟩
    obtain rfl : q = .outside := hq
    have hopen : (nested && (decide (c = '(') || decide (c = ')'))) = false := by
      cases nested with
      | false => rfl
      | true => simpa using h.unnested rfl
    simp only [cutsAt, Quoting.isOutside, h.unquoted, hopen]
    simpa using hd

-- A separator outside quotes leads nowhere.
theorem Separates.advance (h : Separates sep nested) (hp : p.1 = .outside) :
    Nesting.advance nested p sep = p := by
  obtain ⟨q, d⟩ := p
  obtain rfl : q = .outside := hp
  have hdepth : (if nested then depth .outside d sep else d) = d := by
    cases nested with
    | false => rfl
    | true => simp [depth, (h.unnested rfl).1, (h.unnested rfl).2]
  show (Quoting.outside.step sep, _) = _
  rw [hdepth, Quoting.step, h.unquoted, if_neg (by decide)]

theorem Separates.reach (h : Separates sep nested) (hp : p.1 = .outside) (s : Text) :
    Nesting.reach nested p (sep :: s) = Nesting.reach nested p s := by
  rw [Nesting.reach, List.foldl_cons, h.advance hp]
  rfl

/-! ## 2. Where a scan is cut -/

-- A separator cuts, and every other character goes to the piece that is open.
theorem rawPieces_eq (c : Char) (s : Text) : rawPieces sep nested p.1 p.2 (c :: s) =
    if cutsAt sep nested p.1 p.2 c then [] :: rawPieces sep nested p.1 p.2 s
    else prepend [c] (rawPieces sep nested (advance nested p c).1 (advance nested p c).2 s) := by
  rw [rawPieces, extend_eq]
  rfl

theorem prepend_append (s : Text) {front : List Text} (h : front ≠ []) (back : List Text) :
    prepend s (front ++ back) = prepend s front ++ back := by
  cases front with
  | nil => exact absurd rfl h
  | cons first front => rfl

theorem join_prepend (s : Text) (ps : List Text) :
    Text.join [sep] (prepend s ps) = s ++ Text.join [sep] ps := by
  cases ps with
  | nil => simp [prepend, Text.join]
  | cons first rest =>
    cases rest with
    | nil => simp [prepend, Text.join]
    | cons second rest => rw [prepend, join_cons_cons, join_cons_cons, List.append_assoc]

theorem join_cons {rest : List Text} (h : rest ≠ []) (first : Text) :
    Text.join [sep] (first :: rest) = first ++ sep :: Text.join [sep] rest := by
  cases rest with
  | nil => exact absurd rfl h
  | cons second rest => exact join_cons_cons ..

/-- The pieces make up the text. -/
theorem join_rawPieces (h : Separates sep nested) (s : Text) :
    Text.join [sep] (rawPieces sep nested p.1 p.2 s) = s := by
  induction s generalizing p with
  | nil => rfl
  | cons c s ih =>
    rw [rawPieces_eq]
    split
    · rename_i hcut
      rw [join_cons (rawPieces_ne_nil _ _ _), ih, (h.cutsAt_iff.mp hcut).2]
      rfl
    · rw [join_prepend, ih]
      rfl

-- The pieces of a text that continues behind a cut.
theorem rawPieces_separated (h : Separates sep nested) {s : Text} (hs : AtTop (reach nested p s))
    (t : Text) : rawPieces sep nested p.1 p.2 (s ++ sep :: t) = rawPieces sep nested p.1 p.2 s ++
      rawPieces sep nested (reach nested p s).1 (reach nested p s).2 t := by
  induction s generalizing p with
  | nil =>
    have hcut : cutsAt sep nested p.1 p.2 sep = true := h.cutsAt_iff.mpr ⟨hs, rfl⟩
    rw [List.nil_append, rawPieces_eq, if_pos hcut]
    rfl
  | cons c s ih =>
    rw [List.cons_append, rawPieces_eq, rawPieces_eq]
    split
    · rename_i hcut
      obtain ⟨⟨hq, -⟩, rfl⟩ := h.cutsAt_iff.mp hcut
      rw [h.reach hq] at hs ⊢
      rw [ih hs]
      rfl
    · rw [ih (p := advance nested p c) hs, prepend_append _ (rawPieces_ne_nil _ _ _)]
      rfl

-- Where pieces end, the scan stands at a place at which a separator cuts.
theorem atTop_of_rawPieces (h : Separates sep nested) {s : Text} {front back : List Text}
    (hs : rawPieces sep nested p.1 p.2 s = front ++ back) (hfront : front ≠ []) (hback : back ≠ []) :
    AtTop (reach nested p (Text.join [sep] front)) := by
  induction s generalizing p front with
  | nil =>
    have hlength := congrArg List.length hs
    rw [rawPieces, List.length_append, List.length_singleton] at hlength
    have := List.length_pos_iff.mpr hfront
    have := List.length_pos_iff.mpr hback
    omega
  | cons c s ih =>
    obtain ⟨first, front, rfl⟩ := List.exists_cons_of_ne_nil hfront
    rw [rawPieces_eq] at hs
    split at hs
    · rename_i hcut
      obtain ⟨htop, rfl⟩ := h.cutsAt_iff.mp hcut
      obtain ⟨rfl, hrest⟩ := List.cons.inj hs
      cases front with
      | nil => exact htop
      | cons second front =>
        rw [join_cons (List.cons_ne_nil _ _), List.nil_append, h.reach htop.1]
        exact ih hrest (List.cons_ne_nil _ _)
    · cases hraw : rawPieces sep nested (advance nested p c).1 (advance nested p c).2 s with
      | nil => exact absurd hraw (rawPieces_ne_nil _ _ _)
      | cons piece pieces =>
        rw [hraw] at hs
        obtain ⟨rfl, rfl⟩ := List.cons.inj hs
        have hjoin : Text.join [sep] (([c] ++ piece) :: front) =
            c :: Text.join [sep] (piece :: front) := join_prepend [c] (piece :: front)
        rw [hjoin]
        exact @ih (advance nested p c) (piece :: front) hraw (List.cons_ne_nil _ _)

/-! ## 3. Texts that are not cut -/

/-- Whether a scan from a place on is cut nowhere in a text. -/
def Uncut (sep : Char) (nested : Bool) (p : Depth) (s : Text) : Prop :=
  rawPieces sep nested p.1 p.2 s = [s]

theorem uncut_cons (c : Char) (s : Text) : Uncut sep nested p (c :: s) ↔
    cutsAt sep nested p.1 p.2 c = false ∧ Uncut sep nested (advance nested p c) s := by
  unfold Uncut
  rw [rawPieces_eq]
  constructor
  · intro h
    split at h
    · exact absurd (List.cons.inj h).2 (rawPieces_ne_nil _ _ _)
    · rename_i hcut
      refine ⟨Bool.not_eq_true _ ▸ hcut, ?_⟩
      cases hraw : rawPieces sep nested (advance nested p c).1 (advance nested p c).2 s with
      | nil => exact absurd hraw (rawPieces_ne_nil _ _ _)
      | cons piece pieces =>
        rw [hraw] at h
        obtain ⟨hpiece, rfl⟩ := List.cons.inj h
        obtain ⟨-, rfl⟩ := List.cons.inj hpiece
        rfl
  · rintro ⟨hcut, h⟩
    rw [hcut, if_neg (by decide), h]
    rfl

theorem uncut_append (s t : Text) : Uncut sep nested p (s ++ t) ↔
    Uncut sep nested p s ∧ Uncut sep nested (reach nested p s) t := by
  induction s generalizing p with
  | nil => exact ⟨fun h => ⟨rfl, h⟩, fun h => h.2⟩
  | cons c s ih =>
    rw [List.cons_append, uncut_cons, uncut_cons, ih, and_assoc]
    rfl

-- The deeper a scan starts, the less it is cut.
theorem Uncut.deepen (h : Separates sep nested) {q : Quoting} {d e : Int} {s : Text} (hd : d ≤ e)
    (hs : Uncut sep nested (q, d) s) : Uncut sep nested (q, e) s := by
  induction s generalizing q d e with
  | nil => rfl
  | cons c s ih =>
    obtain ⟨hcut, hs⟩ := (uncut_cons c s).mp hs
    refine (uncut_cons c s).mpr ⟨?_, ih ?_ hs⟩
    · rw [← Bool.not_eq_true, h.cutsAt_iff] at hcut ⊢
      rintro ⟨⟨hq, he⟩, hc⟩
      exact hcut ⟨⟨hq, Int.le_trans hd he⟩, hc⟩
    · show (if nested then depth q d c else d) ≤ if nested then depth q e c else e
      unfold depth
      split_ifs <;> omega

theorem Uncut.trim {d : Int} {s : Text} (hs : Uncut sep nested (.outside, d) s) :
    Uncut sep nested (.outside, d) (Text.trim s) := by
  obtain ⟨lead, tail, htrim, hlead, -⟩ := Text.exists_trim s
  rw [htrim, List.append_assoc, uncut_append, uncut_append, reach_blank hlead] at hs
  exact hs.2.1

/-! ## 4. Pieces one after another -/

/-- Texts that are cut nowhere but between them, if a separator is put there and a scan starts outside
quotes at a depth. -/
def Chained (sep : Char) (nested : Bool) : Int → List Text → Prop
  | _, [] => True
  | d, piece :: pieces => Uncut sep nested (.outside, d) piece ∧ (pieces = [] ∨
      ∃ d' ≤ 0, reach nested (.outside, d) piece = (.outside, d') ∧ Chained sep nested d' pieces)

/-- The pieces of a text are chained, but the first starts where the text does. -/
theorem chained_rawPieces (h : Separates sep nested) (s : Text) : ∃ piece pieces,
    rawPieces sep nested p.1 p.2 s = piece :: pieces ∧ Uncut sep nested p piece ∧ (pieces = [] ∨
      ∃ d ≤ 0, reach nested p piece = (.outside, d) ∧ Chained sep nested d pieces) := by
  induction s generalizing p with
  | nil => exact ⟨[], [], rfl, rfl, Or.inl rfl⟩
  | cons c s ih =>
    rw [rawPieces_eq]
    split
    · rename_i hcut
      obtain ⟨⟨hq, hd⟩, -⟩ := h.cutsAt_iff.mp hcut
      obtain ⟨q, d⟩ := p
      obtain rfl : q = .outside := hq
      obtain ⟨piece, pieces, hraw, hpiece, hpieces⟩ := @ih (.outside, d)
      refine ⟨[], _, rfl, rfl, Or.inr ⟨d, hd, rfl, ?_⟩⟩
      rw [hraw]
      exact ⟨hpiece, hpieces⟩
    · rename_i hcut
      obtain ⟨piece, pieces, hraw, hpiece, hpieces⟩ := @ih (advance nested p c)
      rw [hraw]
      exact ⟨c :: piece, pieces, rfl, (uncut_cons c piece).mpr ⟨Bool.not_eq_true _ ▸ hcut, hpiece⟩,
        hpieces⟩

namespace Chained

variable {d : Int} {pieces : List Text}

/-- Pieces stay chained without the blanks around them and without the blank ones. -/
theorem trim (h : Chained sep nested d pieces) :
    Chained sep nested d ((pieces.map Text.trim).filter (!·.isEmpty)) := by
  induction pieces generalizing d with
  | nil => trivial
  | cons piece pieces ih =>
    obtain ⟨hpiece, hrest⟩ := h
    have hrest : pieces = [] ∨ ∃ d' ≤ 0,
        reach nested (.outside, d) (Text.trim piece) = (.outside, d') ∧
          Chained sep nested d' ((pieces.map Text.trim).filter (!·.isEmpty)) :=
      hrest.imp_right fun ⟨d', hd', hreach, hchained⟩ => ⟨d', hd', reach_trim hreach, ih hchained⟩
    by_cases hempty : Text.trim piece = []
    · rw [List.map_cons, List.filter_cons_of_neg (by simp [hempty])]
      rcases hrest with rfl | ⟨d', -, hreach, hchained⟩
      · trivial
      · -- a blank piece leads nowhere
        rw [hempty] at hreach
        cases hreach
        exact hchained
    · rw [List.map_cons, List.filter_cons_of_pos (by simpa using hempty)]
      exact ⟨hpiece.trim, hrest.imp_left fun h => by rw [h]; rfl⟩

/-- Each piece is a text of its own that is not cut. -/
theorem uncut (hsep : Separates sep nested) (hd : d ≤ 0) (h : Chained sep nested d pieces) :
    ∀ piece ∈ pieces, Uncut sep nested (.outside, 0) piece := by
  induction pieces generalizing d with
  | nil => exact fun _ hmem => (List.not_mem_nil hmem).elim
  | cons piece pieces ih =>
    obtain ⟨hpiece, hrest⟩ := h
    refine List.forall_mem_cons.mpr ⟨hpiece.deepen hsep hd, ?_⟩
    rcases hrest with rfl | ⟨d', hd', -, hchained⟩
    · exact fun _ hmem => (List.not_mem_nil hmem).elim
    · exact ih hd' hchained

/-- Put together, the pieces are cut between them. -/
theorem rawPieces_join (hsep : Separates sep nested) (h : Chained sep nested d pieces)
    (hne : pieces ≠ []) : rawPieces sep nested .outside d (Text.join [sep] pieces) = pieces := by
  induction pieces generalizing d with
  | nil => exact absurd rfl hne
  | cons piece pieces ih =>
    obtain ⟨hpiece, hrest⟩ := h
    cases pieces with
    | nil =>
      rw [Text.join, List.intercalate_singleton]
      exact hpiece
    | cons next pieces =>
      obtain hnil | ⟨d', hd', hreach, hchained⟩ := hrest
      · cases hnil
      have htop : AtTop (reach nested (.outside, d) piece) := by
        rw [hreach]
        exact ⟨rfl, hd'⟩
      have hcut := @rawPieces_separated sep nested (.outside, d) hsep piece htop
        (Text.join [sep] (next :: pieces))
      rw [hreach, show rawPieces sep nested .outside d piece = [piece] from hpiece,
        ih hchained (List.cons_ne_nil _ _)] at hcut
      rw [join_cons (List.cons_ne_nil _ _)]
      exact hcut

end Chained

/-! ## 5. Splitting and putting together -/

theorem pieces_of_rawPieces {s : Text} {parts : List Text}
    (h : rawPieces sep nested .outside 0 s = parts)
    (hparts : ∀ part ∈ parts, Text.trim part = part ∧ part ≠ []) : pieces sep nested s = parts := by
  have htrim : parts.map Text.trim = parts := by
    rw [List.map_congr_left fun part hpart => (hparts part hpart).1, List.map_id']
  unfold pieces
  dsimp only
  rw [h, htrim, if_neg]
  intro hlast
  exact (hparts [] (List.mem_of_getLast? hlast)).2 rfl

/-- A split that loses nothing of a text but blanks around pieces and a blank last piece. It cuts at
every separator that stands where one cuts, and at no other character. Splitting a piece again, or
the pieces that are not empty put together, gives them back. -/
structure Faithful (sep : Char) (nested : Bool) (s : Text) : Prop where
  raw : ∃ raw : List Text, Text.join [sep] raw = s ∧
    (∀ u v, s = u ++ sep :: v → ((∃ front back, raw = front ++ back ∧ front ≠ [] ∧ back ≠ [] ∧
      Text.join [sep] front = u) ↔ AtTop (reach nested (.outside, 0) u))) ∧
    (raw.map Text.trim = pieces sep nested s ∧ (pieces sep nested s).getLast? ≠ some [] ∨
      raw.map Text.trim = pieces sep nested s ++ [[]])
  part : ∀ part ∈ pieces sep nested s, part ≠ [] → pieces sep nested part = [part]
  parts : pieces sep nested (Text.join [sep] ((pieces sep nested s).filter (!·.isEmpty))) =
    (pieces sep nested s).filter (!·.isEmpty)

-- A part of the result is a trimmed piece.
theorem exists_of_mem_pieces {s part : Text} (h : part ∈ pieces sep nested s) :
    ∃ piece ∈ rawPieces sep nested .outside 0 s, Text.trim piece = part := by
  unfold pieces at h
  dsimp only at h
  split at h
  · exact List.mem_map.mp (List.dropLast_subset _ h)
  · exact List.mem_map.mp h

-- Only a blank last piece is left out, and it always is.
theorem map_trim_rawPieces (s : Text) :
    (rawPieces sep nested .outside 0 s).map Text.trim = pieces sep nested s ∧
        (pieces sep nested s).getLast? ≠ some [] ∨
      (rawPieces sep nested .outside 0 s).map Text.trim = pieces sep nested s ++ [[]] := by
  unfold pieces
  dsimp only
  generalize (rawPieces sep nested .outside 0 s).map Text.trim = parts
  split
  · rename_i hlast
    obtain ⟨front, rfl⟩ := List.getLast?_eq_some_iff.mp hlast
    exact Or.inr (by rw [List.dropLast_concat])
  · rename_i hlast
    exact Or.inl ⟨rfl, hlast⟩

-- The separators between the pieces are those that stand where one cuts.
theorem exists_split_iff (h : Separates sep nested) (u v : Text) :
    (∃ front back, rawPieces sep nested .outside 0 (u ++ sep :: v) = front ++ back ∧ front ≠ [] ∧
      back ≠ [] ∧ Text.join [sep] front = u) ↔ AtTop (reach nested (.outside, 0) u) := by
  constructor
  · rintro ⟨front, back, hraw, hfront, hback, rfl⟩
    exact atTop_of_rawPieces (p := (.outside, 0)) h hraw hfront hback
  · intro htop
    exact ⟨_, _, rawPieces_separated (p := (.outside, 0)) h htop v, rawPieces_ne_nil _ _ _,
      rawPieces_ne_nil _ _ _, join_rawPieces (p := (.outside, 0)) h u⟩

theorem Separates.faithful (h : Separates sep nested) (s : Text) : Faithful sep nested s := by
  obtain ⟨piece, rest, hraw, hchained⟩ := chained_rawPieces (p := (.outside, 0)) h s
  have hall : Chained sep nested 0 (piece :: rest) := hchained
  have hparts : (pieces sep nested s).filter (!·.isEmpty) =
      ((piece :: rest).map Text.trim).filter (!·.isEmpty) := by
    rw [filter_pieces, show rawPieces sep nested .outside 0 s = piece :: rest from hraw]
  constructor
  case raw =>
    refine ⟨rawPieces sep nested .outside 0 s, join_rawPieces (p := (.outside, 0)) h s, ?_,
      map_trim_rawPieces s⟩
    rintro u v rfl
    exact exists_split_iff h u v
  case part =>
    intro part hpart hne
    obtain ⟨raw, hmem, rfl⟩ := exists_of_mem_pieces hpart
    rw [show rawPieces sep nested .outside 0 s = piece :: rest from hraw] at hmem
    refine pieces_of_rawPieces (hall.uncut h (Int.le_refl 0) raw hmem).trim ?_
    intro part hpart
    obtain rfl := List.mem_singleton.mp hpart
    exact ⟨Text.trim_trim raw, hne⟩
  case parts =>
    rw [hparts]
    by_cases hnone : ((piece :: rest).map Text.trim).filter (!·.isEmpty) = []
    · rw [hnone]
      rfl
    · refine pieces_of_rawPieces (hall.trim.rawPieces_join h hnone) ?_
      intro part hpart
      obtain ⟨hpart, hne⟩ := List.mem_filter.mp hpart
      obtain ⟨raw, -, rfl⟩ := List.mem_map.mp hpart
      exact ⟨Text.trim_trim raw, by simpa using hne⟩

/-- **Faithful splits.** A text is split faithfully at the commas outside quotes and parentheses, and
at the semicolons outside quotes, also if it closes a quote or a parenthesis that it does not open, or
leaves one open. -/
theorem pieces_faithful (s : Text) : Faithful ',' true s ∧ Faithful ';' false s :=
  ⟨separates_comma.faithful s, separates_semicolon.faithful s⟩

/-- A parenthesis that is closed too often, an empty part, and a quote that is left open. -/
theorem pieces_faithful_open :
    let s : Text := ")a , (b, 'c' ,, (d, \"e, \\"
    pieces ',' true s = [")a".toList, "(b".toList, "'c'".toList, [], "(d, \"e, \\".toList] ∧
      pieces ',' true "(d, \"e, \\" = ["(d, \"e, \\".toList] ∧
      pieces ',' true ")a,(b,'c',(d, \"e, \\" =
        [")a".toList, "(b".toList, "'c'".toList, "(d, \"e, \\".toList] := by
  intro s
  have hs : pieces ',' true s =
      [")a".toList, "(b".toList, "'c'".toList, [], "(d, \"e, \\".toList] := by
    decide +kernel
  obtain ⟨-, hpart, hparts⟩ := (pieces_faithful s).1
  rw [hs] at hpart hparts
  exact ⟨hs, hpart _ (by decide +kernel) (by decide +kernel), hparts⟩

end SqlDump.Nesting
