import SqlDump.Proofs.BlankGroups
import SqlDump.Proofs.Pieces

/-!
# What follows the cuts

A text is cut at its commas outside quotes and parentheses. A scan that starts deeper cuts at no more
of them, so pieces that are put together again with commas between them are cut between the pieces at
most.
-/

namespace SqlDump

/-! ## 1. The word at the front -/

namespace Text

/-- The word that a text starts with, behind blanks. -/
def firstWord (s : Text) : Text := (trimLeft s).takeWhile isWord

theorem firstWord_cons_blank {c : Char} (h : isBlank c = true) (s : Text) :
    firstWord (c :: s) = firstWord s := by
  rw [firstWord, trimLeft_cons_blank h, firstWord]

-- A word ends in front of what starts with no word character and leads up to none.
theorem firstWord_append {x : Text} (hx : x.takeWhile isWord = []) (hfirst : firstWord x = [])
    (s : Text) : firstWord (s ++ x) = firstWord s := by
  induction s with
  | nil => exact hfirst
  | cons c s ih =>
    cases hc : isBlank c with
    | true => rw [List.cons_append, firstWord_cons_blank hc, firstWord_cons_blank hc, ih]
    | false =>
      rw [List.cons_append, firstWord, firstWord, trimLeft_cons hc, trimLeft_cons hc,
        ← List.cons_append, List.takeWhile_append]
      split
      · rw [hx, List.append_nil]
        rename_i hlength
        exact ((List.takeWhile_prefix isWord).eq_of_length hlength).symm
      · rfl

theorem firstWord_append_comma (s t : Text) : firstWord (s ++ ',' :: t) = firstWord s :=
  firstWord_append (List.takeWhile_cons_of_neg (by decide +kernel))
    (by
      rw [firstWord, trimLeft_cons (by decide)]
      exact List.takeWhile_cons_of_neg (by decide +kernel)) s

theorem firstWord_append_blank {x : Text} (hx : ∀ c ∈ x, isBlank c = true) (s : Text) :
    firstWord (s ++ x) = firstWord s := by
  refine firstWord_append ?_ ?_ s
  · cases x with
    | nil => rfl
    | cons c x =>
      exact List.takeWhile_cons_of_neg (by simp [not_isWord_of_isBlank (hx c List.mem_cons_self)])
  · rw [firstWord, trimLeft, List.dropWhile_eq_nil_iff.mpr hx]
    rfl

theorem firstWord_trim (s : Text) : firstWord (trim s) = firstWord s := by
  obtain ⟨lead, tail, hs, hlead, htail⟩ := exists_trim s
  have hblank : ∀ t, firstWord (lead ++ t) = firstWord t := by
    intro t
    rw [firstWord, trimLeft, List.dropWhile_append_of_pos hlead]
    rfl
  calc firstWord (trim s) = firstWord (lead ++ (trim s ++ tail)) := by
        rw [hblank, firstWord_append_blank htail]
    _ = firstWord s := by rw [← List.append_assoc, ← hs]

end Text

namespace Nesting

open Quoting (Stands)
open Text (firstWord)

/-! ## 2. Scans that start anywhere -/

def pass (p : Depth) (c : Char) : Depth := (p.1.step c, depth p.1 p.2 c)

def scan (p : Depth) (s : Text) : Depth := s.foldl pass p

/-- What follows each comma that a text is cut at. -/
def rests (p : Depth) : Text → List Text
  | [] => []
  | c :: s => if cutsAt ',' true p.1 p.2 c then s :: rests (pass p c) s else rests (pass p c) s

variable {p : Depth}

theorem cutsAt_iff {q : Quoting} {d : Int} {c : Char} :
    cutsAt ',' true q d c = true ↔ q = .outside ∧ c = ',' ∧ d ≤ 0 := by
  rw [separates_comma.cutsAt_iff (p := (q, d)), AtTop, and_assoc, and_comm (a := d ≤ 0)]

theorem pass_comma (d : Int) : pass (.outside, d) ',' = (.outside, d) := rfl

theorem rests_append (s t : Text) :
    rests p (s ++ t) = (rests p s).map (· ++ t) ++ rests (scan p s) t := by
  induction s generalizing p with
  | nil => rfl
  | cons c s ih =>
    rw [List.cons_append, rests, rests, ih]
    split <;> rfl

-- The deeper a scan starts, the fewer commas it is cut at.
theorem rests_subset {q : Quoting} {d e : Int} (h : d ≤ e) (s : Text) :
    rests (q, e) s ⊆ rests (q, d) s := by
  induction s generalizing q d e with
  | nil => exact List.Subset.refl _
  | cons c s ih =>
    have hdepth : depth q d c ≤ depth q e c := by
      unfold depth
      split
      · split
        · omega
        · split <;> omega
      · exact h
    have hrest : rests (pass (q, e) c) s ⊆ rests (pass (q, d) c) s := ih hdepth
    rw [rests, rests]
    by_cases hcut : cutsAt ',' true q e c = true
    · obtain ⟨hq, hc, he⟩ := cutsAt_iff.mp hcut
      rw [if_pos hcut, if_pos (cutsAt_iff.mpr ⟨hq, hc, by omega⟩)]
      exact List.cons_subset_cons s hrest
    · rw [if_neg hcut]
      split
      · exact List.Subset.trans hrest (List.subset_cons_self s _)
      · exact hrest

theorem rawPieces_cons (c : Char) (s : Text) : rawPieces ',' true p.1 p.2 (c :: s) =
    if cutsAt ',' true p.1 p.2 c then [] :: rawPieces ',' true p.1 p.2 s
    else extend c (rawPieces ',' true (pass p c).1 (pass p c).2 s) := rfl

-- The first piece goes up to the first comma that is cut at.
theorem first_rawPieces (s : Text) : ∃ piece pieces,
    rawPieces ',' true p.1 p.2 s = piece :: pieces ∧ (s = piece ∨ ∃ t, s = piece ++ ',' :: t) := by
  induction s generalizing p with
  | nil => exact ⟨[], [], rfl, Or.inl rfl⟩
  | cons c s ih =>
    rw [rawPieces_cons]
    split
    · rename_i hcut
      exact ⟨[], _, rfl, Or.inr ⟨s, by rw [(cutsAt_iff.mp hcut).2.1]; rfl⟩⟩
    · obtain ⟨piece, pieces, hraw, hpiece⟩ := @ih (pass p c)
      rw [hraw]
      refine ⟨c :: piece, pieces, rfl, ?_⟩
      rcases hpiece with rfl | ⟨t, rfl⟩
      · exact Or.inl rfl
      · exact Or.inr ⟨t, rfl⟩

/-- Each piece but the first starts with the word that starts what follows its cut. -/
theorem firstWord_rawPieces (s : Text) :
    (rawPieces ',' true p.1 p.2 s).tail.map firstWord = (rests p s).map firstWord := by
  induction s generalizing p with
  | nil => rfl
  | cons c s ih =>
    rw [rawPieces_cons, rests]
    split
    · rename_i hcut
      obtain ⟨hq, rfl, -⟩ := cutsAt_iff.mp hcut
      have hpass : pass p ',' = p := by
        obtain ⟨q, d⟩ := p
        obtain rfl : q = .outside := hq
        rfl
      obtain ⟨piece, pieces, hraw, hpiece⟩ := @first_rawPieces p s
      have hfirst : firstWord piece = firstWord s := by
        rcases hpiece with rfl | ⟨t, rfl⟩
        · rfl
        · exact (Text.firstWord_append_comma piece t).symm
      have hrest := @ih p
      rw [hraw] at hrest ⊢
      rw [hpass, List.tail_cons, List.map_cons, List.map_cons, hfirst, ← hrest]
      rfl
    · rw [← @ih (pass p c)]
      obtain ⟨piece, pieces, hraw, -⟩ := @first_rawPieces (pass p c) s
      rw [hraw]
      rfl

/-! ## 3. Pieces put together -/

/-- Pieces that are cut nowhere but where commas stand between them, from a depth on. -/
def Apart : Int → List Text → Prop
  | _, [] => True
  | d, piece :: pieces => rests (.outside, d) piece = [] ∧
      (pieces = [] ∨ ∃ d' ≤ 0, scan (.outside, d) piece = (.outside, d') ∧ Apart d' pieces)

theorem pass_blank {c : Char} (h : isBlank c = true) (d : Int) :
    pass (.outside, d) c = (.outside, d) :=
  @advance_blank true c h d

theorem rests_cons_blank {c : Char} (h : isBlank c = true) (d : Int) (s : Text) :
    rests (.outside, d) (c :: s) = rests (.outside, d) s := by
  rw [rests, cutsAt_of_isBlank (by decide) _ _ h, if_neg (by decide), pass_blank h]

theorem rests_blank {lead : Text} (h : ∀ c ∈ lead, isBlank c = true) (d : Int) (s : Text) :
    rests (.outside, d) (lead ++ s) = rests (.outside, d) s := by
  induction lead with
  | nil => rfl
  | cons c lead ih =>
    obtain ⟨hc, hlead⟩ := List.forall_mem_cons.mp h
    rw [List.cons_append, rests_cons_blank hc, ih hlead]

theorem rests_eq_nil_iff {s : Text} : rests p s = [] ↔ Uncut ',' true p s := by
  induction s generalizing p with
  | nil => exact ⟨fun _ => rfl, fun _ => rfl⟩
  | cons c s ih =>
    rw [uncut_cons, ← ih, rests]
    cases cutsAt ',' true p.1 p.2 c with
    | true => exact ⟨nofun, nofun⟩
    | false => exact ⟨fun h => ⟨rfl, h⟩, fun h => h.2⟩

theorem apart_iff {d : Int} {pieces : List Text} : Apart d pieces ↔ Chained ',' true d pieces := by
  induction pieces generalizing d with
  | nil => exact Iff.rfl
  | cons piece pieces ih =>
    rw [Apart, Chained, rests_eq_nil_iff]
    simp only [ih]
    rfl

namespace Apart

variable {d : Int} {pieces : List Text}

theorem left {more : List Text} (h : Apart d (pieces ++ more)) : Apart d pieces := by
  induction pieces generalizing d with
  | nil => trivial
  | cons piece pieces ih =>
    refine ⟨h.1, ?_⟩
    rcases h.2 with hnil | ⟨d', hd', hscan, hapart⟩
    · exact Or.inl (List.append_eq_nil_iff.mp hnil).1
    · exact Or.inr ⟨d', hd', hscan, ih hapart⟩

theorem right {more : List Text} (hd : d ≤ 0) (h : Apart d (pieces ++ more)) :
    ∃ d' ≤ 0, Apart d' more := by
  induction pieces generalizing d with
  | nil => exact ⟨d, hd, h⟩
  | cons piece pieces ih =>
    rcases h.2 with hnil | ⟨d', hd', -, hapart⟩
    · rw [(List.append_eq_nil_iff.mp hnil).2]
      exact ⟨d, hd, trivial⟩
    · exact ih hd' hapart

/-- Put together, pieces that are apart are cut in front of pieces at most. -/
theorem rests_join (h : Apart d pieces) {r : Text}
    (hr : r ∈ rests (.outside, d) (Text.join ", " pieces)) :
    ∃ more, more ≠ [] ∧ more <:+ pieces.tail ∧ r = ' ' :: Text.join ", " more := by
  induction pieces generalizing d with
  | nil => cases hr
  | cons piece pieces ih =>
    obtain ⟨hpiece, hrest⟩ := h
    cases pieces with
    | nil =>
      rw [Text.join, List.intercalate_singleton, hpiece] at hr
      cases hr
    | cons next pieces =>
      obtain hnil | ⟨d', hd', hscan, hapart⟩ := hrest
      · cases hnil
      have hjoin : Text.join ", " (piece :: next :: pieces) =
          piece ++ ',' :: ' ' :: Text.join ", " (next :: pieces) := join_cons_cons ..
      have hcut : rests (.outside, d') (',' :: ' ' :: Text.join ", " (next :: pieces)) =
          (' ' :: Text.join ", " (next :: pieces)) ::
            rests (.outside, d') (Text.join ", " (next :: pieces)) := by
        rw [rests, if_pos (cutsAt_iff.mpr ⟨rfl, rfl, hd'⟩), pass_comma,
          rests_cons_blank (by decide)]
      rw [hjoin, rests_append, hpiece, hscan, List.map_nil, List.nil_append, hcut] at hr
      rcases List.mem_cons.mp hr with rfl | hr
      · exact ⟨next :: pieces, List.cons_ne_nil _ _, List.suffix_rfl, rfl⟩
      · obtain ⟨more, hmore, hsuffix, rfl⟩ := ih hapart hr
        exact ⟨more, hmore, hsuffix.trans (List.tail_suffix _), rfl⟩

end Apart

/-- Neighbouring pieces of a text, put together, are cut in front of pieces at most. -/
theorem rests_join_neighbours {s : Text} {group : List Text}
    (hgroup : group <:+: (pieces ',' true s).filter (!·.isEmpty)) {r : Text}
    (hr : r ∈ rests (.outside, 0) (Text.join ", " group)) :
    ∃ more, more ≠ [] ∧ more <:+ group.tail ∧ r = ' ' :: Text.join ", " more := by
  obtain ⟨piece, rest, hraw, hchained⟩ := chained_rawPieces (p := (.outside, 0)) separates_comma s
  have hall : Chained ',' true 0 (piece :: rest) := hchained
  have hapart : Apart 0 ((pieces ',' true s).filter (!·.isEmpty)) := by
    rw [filter_pieces, show rawPieces ',' true .outside 0 s = _ from hraw]
    exact apart_iff.mpr hall.trim
  obtain ⟨front, back, hparts⟩ := hgroup
  rw [← hparts] at hapart
  obtain ⟨d, hd, hgroup⟩ := hapart.left.right (Int.le_refl 0)
  exact hgroup.rests_join (rests_subset hd _ hr)

end Nesting

end SqlDump
