import SqlDump.Proofs.BlankReaders
import SqlDump.Syntax.Nesting

/-!
# Groups and runs of blanks

No blank opens or closes anything, and none is a separator. So a text whose runs of blanks are made
one space has the groups and the pieces of the text itself, collapsed.
-/

namespace SqlDump

open Text (collapse collapseAfter)

/-! ## 1. Quotes -/

namespace Quoting

/-- Whether a scan that has just passed a blank, or has not, may stand here: marks are quote marks,
and a blank leaves nothing escaped. -/
def Stands (after : Bool) : Quoting → Prop
  | outside => True
  | inside mark escaped => isQuoteMark mark = true ∧ (after = true → escaped = false)

theorem not_isQuoteMark_of_isBlank {c : Char} (h : isBlank c = true) : isQuoteMark c = false := by
  by_contra hc
  rw [Bool.not_eq_false] at hc
  simp only [isQuoteMark, Bool.or_eq_true, decide_eq_true_eq] at hc
  rcases hc with (rfl | rfl) | rfl <;> exact absurd h (by decide)

variable {q : Quoting} {c : Char}

theorem Stands.step_blank {after : Bool} (h : Stands after q) (hc : isBlank c = true) :
    Stands true (q.step c) ∧ q.step ' ' = q.step c ∧ (after = true → q.step c = q) := by
  have hquote := not_isQuoteMark_of_isBlank hc
  cases q with
  | outside =>
    have hstep : step outside c = outside := by simp [step, hquote]
    exact ⟨by rw [hstep]; trivial, by rw [hstep]; rfl, fun _ => hstep⟩
  | inside mark escaped =>
    obtain ⟨hmark, hescaped⟩ := h
    cases escaped with
    | true => exact ⟨⟨hmark, fun _ => rfl⟩, rfl, fun e => absurd (hescaped e) (by decide)⟩
    | false =>
      have hstep : ∀ d, isBlank d = true → step (inside mark false) d = inside mark false := by
        intro d hd
        have hbackslash : d ≠ '\\' := by
          rintro rfl
          exact absurd hd (by decide)
        have hne : d ≠ mark := by
          rintro rfl
          rw [not_isQuoteMark_of_isBlank hd] at hmark
          cases hmark
        simp [step, hbackslash, hne]
      rw [hstep c hc, hstep ' ' (by decide)]
      exact ⟨⟨hmark, fun _ => rfl⟩, rfl, fun _ => rfl⟩

theorem Stands.step {after : Bool} (h : Stands after q) : Stands false (q.step c) := by
  cases q with
  | outside =>
    show Stands false (if isQuoteMark c then inside c false else outside)
    split
    · rename_i hc
      exact ⟨hc, fun e => absurd e (by decide)⟩
    · trivial
  | inside mark escaped =>
    obtain ⟨hmark, -⟩ := h
    cases escaped with
    | true => exact ⟨hmark, fun _ => rfl⟩
    | false =>
      show Stands false (if c = '\\' ∧ mark ≠ '\x60' then inside mark true
        else if c = mark then outside else inside mark false)
      split
      · exact ⟨hmark, fun e => absurd e (by decide)⟩
      · split
        · trivial
        · exact ⟨hmark, fun _ => rfl⟩

end Quoting

/-! ## 2. Groups -/

namespace Nesting

open Quoting (Stands)

/-- Puts a character before the content of a group. -/
def before (c : Char) (p : Text × Text) : Text × Text := (c :: p.1, p.2)

theorem closing?_zero (s : Text) : closing? .outside 0 (')' :: s) = some ([], s) := by
  rw [closing?.eq_def]
  rfl

theorem closing?_succ (d : Nat) (s : Text) :
    closing? .outside (d + 1) (')' :: s) = (closing? .outside d s).map (before ')') := by
  rw [closing?.eq_def]
  rfl

theorem closing?_cons {q : Quoting} {c : Char} (h : (q.isOutside && decide (c = ')')) = false)
    (d : Nat) (s : Text) : closing? q d (c :: s) =
      (closing? (q.step c) (if q.isOutside && c = '(' then d + 1 else d) s).map (before c) := by
  rw [closing?.eq_def]
  show (if (q.isOutside && decide (c = ')')) = true then _ else _) = _
  rw [if_neg (by simp [h])]
  rfl

theorem map_before {after after' : Bool} {c e : Char} (x : Option (Text × Text))
    (h : ∀ u, e :: collapseAfter after' u = collapseAfter after (c :: u)) :
    (x.map (Prod.map (collapseAfter after') collapse)).map (before e) =
      (x.map (before c)).map (Prod.map (collapseAfter after) collapse) := by
  cases x with
  | none => rfl
  | some p => exact congrArg (fun u => some (u, collapse p.2)) (h p.1)

theorem closing?_collapseAfter {q : Quoting} {after : Bool} (h : Stands after q) (d : Nat)
    (s : Text) : closing? q d (collapseAfter after s) =
      (closing? q d s).map (Prod.map (collapseAfter after) collapse) := by
  induction s generalizing q d after with
  | nil => rfl
  | cons c s ih =>
    cases hc : isBlank c with
    | false =>
      have hcons : ∀ u : Text, c :: collapseAfter false u = collapseAfter after (c :: u) := fun u =>
        (Text.collapseAfter_cons hc after u).symm
      rw [← hcons s]
      cases hclose : (q.isOutside && decide (c = ')')) with
      | false => rw [closing?_cons hclose, closing?_cons hclose, ih h.step, map_before _ hcons]
      | true =>
        obtain ⟨hq, rfl⟩ : q.isOutside = true ∧ c = ')' := by simpa using hclose
        cases q with
        | inside mark escaped => cases hq
        | outside =>
          cases d with
          | zero => rw [closing?_zero, closing?_zero]; rfl
          | succ d => rw [closing?_succ, closing?_succ, @ih .outside false trivial, map_before _ hcons]
    | true =>
      obtain ⟨hq, hspace, hsame⟩ := h.step_blank hc
      have hopen : ∀ e, isBlank e = true → (q.isOutside && decide (e = '(')) = false := by
        intro e he
        simp [ne_of_isBlank he (show isBlank '(' = false by decide)]
      have hclose : ∀ e, isBlank e = true → (q.isOutside && decide (e = ')')) = false := by
        intro e he
        simp [ne_of_isBlank he (show isBlank ')' = false by decide)]
      rw [closing?_cons (hclose c hc), hopen c hc, if_neg (by decide)]
      cases after with
      | true =>
        -- the blank is dropped, and it leaves the scan where it stood
        rw [Text.collapseAfter_cons_blank hc, hsame rfl, ih h]
        cases closing? q d s with
        | none => rfl
        | some p => exact congrArg (fun u => some (u, _)) (Text.collapseAfter_cons_blank hc p.1).symm
      | false =>
        have hcons : ∀ u : Text, ' ' :: collapseAfter true u = collapseAfter false (c :: u) :=
          fun u => (Text.collapse_cons_blank hc u).symm
        rw [← hcons s, closing?_cons (hclose ' ' (by decide)), hopen ' ' (by decide),
          if_neg (by decide), hspace, ih hq, map_before _ hcons]

theorem group?_collapse (s : Text) : group? (collapse s) = (group? s).map collapseBoth := by
  cases s with
  | nil => rfl
  | cons c s =>
    by_cases hc : c = '('
    · subst hc
      rw [Text.collapse_cons (by decide)]
      exact @closing?_collapseAfter .outside false trivial 0 s
    · have hno : ∀ d (t : Text), d ≠ '(' → group? (d :: t) = none := by
        intro d t hd
        unfold group?
        split
        · rename_i e
          exact absurd (List.cons.inj e).1 hd
        · rfl
      rw [hno c s hc]
      cases h : isBlank c with
      | false => rw [Text.collapse_cons h, hno c _ hc]; rfl
      | true => rw [Text.collapse_cons_blank h, hno ' ' _ (by decide)]; rfl

/-! ## 3. Pieces -/

/-- Collapsed pieces, of which the first may follow a blank. -/
def collapsePieces (after : Bool) : List Text → List Text
  | [] => []
  | p :: ps => collapseAfter after p :: ps.map collapse

variable {sep : Char} {nested : Bool}

theorem rawPieces_ne_nil (q : Quoting) (d : Int) (s : Text) : rawPieces sep nested q d s ≠ [] := by
  cases s with
  | nil => exact List.cons_ne_nil _ _
  | cons c s =>
    rw [rawPieces]
    split
    · exact List.cons_ne_nil _ _
    · cases rawPieces sep nested (q.step c) (if nested then depth q d c else d) s <;>
        exact List.cons_ne_nil _ _

-- A blank last piece is dropped by the pieces, and by leaving out all blank ones as well.
theorem filter_pieces (s : Text) : (pieces sep nested s).filter (!·.isEmpty) =
    ((rawPieces sep nested .outside 0 s).map Text.trim).filter (!·.isEmpty) := by
  unfold pieces
  dsimp only
  generalize (rawPieces sep nested .outside 0 s).map Text.trim = parts
  split
  · rename_i hlast
    obtain ⟨front, hfront⟩ := List.getLast?_eq_some_iff.mp hlast
    rw [hfront, List.dropLast_concat, List.filter_append]
    simp
  · rfl

theorem cutsAt_of_isBlank (hsep : isBlank sep = false) (q : Quoting) (d : Int) {c : Char}
    (hc : isBlank c = true) : cutsAt sep nested q d c = false := by
  simp [cutsAt, ne_of_isBlank hc hsep]

theorem depth_of_isBlank (q : Quoting) (d : Int) {c : Char} (hc : isBlank c = true) :
    depth q d c = d := by
  simp [depth, ne_of_isBlank hc (show isBlank '(' = false by decide),
    ne_of_isBlank hc (show isBlank ')' = false by decide)]

theorem extend_collapsePieces {after after' : Bool} {c e : Char} (ps : List Text)
    (h : ∀ u, e :: collapseAfter after' u = collapseAfter after (c :: u)) :
    extend e (collapsePieces after' ps) = collapsePieces after (extend c ps) := by
  cases ps with
  | nil => exact congrArg (fun u => [u]) (h [])
  | cons p ps => exact congrArg (· :: ps.map collapse) (h p)

theorem rawPieces_collapseAfter (hsep : isBlank sep = false) {q : Quoting} {after : Bool}
    (h : Stands after q) (d : Int) (s : Text) :
    rawPieces sep nested q d (collapseAfter after s) =
      collapsePieces after (rawPieces sep nested q d s) := by
  induction s generalizing q d after with
  | nil => rfl
  | cons c s ih =>
    cases hc : isBlank c with
    | false =>
      have hcons : ∀ u : Text, c :: collapseAfter false u = collapseAfter after (c :: u) := fun u =>
        (Text.collapseAfter_cons hc after u).symm
      rw [← hcons s, rawPieces, rawPieces]
      split
      · have hq : Stands false q := by
          cases q with
          | outside => trivial
          | inside mark escaped => exact ⟨h.1, fun e => absurd e (by decide)⟩
        rw [ih hq]
        cases rawPieces sep nested q d s <;> rfl
      · rw [ih h.step, extend_collapsePieces _ hcons]
    | true =>
      obtain ⟨hq, hspace, hsame⟩ := h.step_blank hc
      have hskip : ∀ e t, isBlank e = true → rawPieces sep nested q d (e :: t) =
          extend e (rawPieces sep nested (q.step e) d t) := by
        intro e t he
        rw [rawPieces, cutsAt_of_isBlank hsep q d he, if_neg (by decide),
          depth_of_isBlank q d he, ite_self]
      rw [hskip c s hc]
      cases after with
      | true =>
        -- the blank is dropped, and it leaves the scan where it stood
        rw [Text.collapseAfter_cons_blank hc, hsame rfl, ih h]
        cases hps : rawPieces sep nested q d s with
        | nil => exact absurd hps (rawPieces_ne_nil q d s)
        | cons p ps => exact congrArg (· :: ps.map collapse) (Text.collapseAfter_cons_blank hc p).symm
      | false =>
        have hcons : ∀ u : Text, ' ' :: collapseAfter true u = collapseAfter false (c :: u) :=
          fun u => (Text.collapse_cons_blank hc u).symm
        rw [← hcons s, hskip ' ' _ (by decide), hspace, ih hq, extend_collapsePieces _ hcons]

theorem pieces_collapse (hsep : isBlank sep = false) (s : Text) :
    pieces sep nested (collapse s) = (pieces sep nested s).map collapse := by
  have hraw := @rawPieces_collapseAfter sep nested hsep .outside false trivial 0 s
  have htrim : (rawPieces sep nested .outside 0 (collapse s)).map Text.trim =
      ((rawPieces sep nested .outside 0 s).map Text.trim).map collapse := by
    rw [show collapse s = collapseAfter false s from rfl, hraw]
    cases rawPieces sep nested .outside 0 s with
    | nil => rfl
    | cons p ps =>
      rw [collapsePieces, List.map_cons, List.map_cons, List.map_cons, Text.trim_collapseAfter,
        List.map_map, List.map_map]
      congr 1
      exact List.map_congr_left fun p _ => Text.trim_collapseAfter false p
  unfold pieces
  dsimp only
  rw [htrim, List.getLast?_map]
  generalize (rawPieces sep nested .outside 0 s).map Text.trim = parts
  have hlast : parts.getLast?.map collapse = some [] ↔ parts.getLast? = some [] := by
    rw [Option.map_eq_some_iff]
    exact ⟨fun ⟨u, hu, e⟩ => Text.collapse_eq_nil.mp e ▸ hu, fun h => ⟨[], h, rfl⟩⟩
  by_cases h : parts.getLast? = some []
  · rw [if_pos (hlast.mpr h), if_pos h, List.map_dropLast]
  · rw [if_neg (mt hlast.mp h), if_neg h]

end Nesting

end SqlDump
