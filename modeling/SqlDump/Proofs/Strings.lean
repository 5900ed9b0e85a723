import SqlDump.Proofs.Cleaning

/-!
# Quoted strings

The quoted strings of a text, with their marks. They depend on nothing but the text without the
blanks outside quotes, so cleaning a text keeps its strings if it touches no other blanks. That is
so if no line outside quotes is a comment and every string is left alone by cleaning.
-/

namespace SqlDump.Quoting

open Text (EndsSolid isComment Tidy)

/-! ## 1. Strings -/

/-- The quoted strings of a text, as written, if the scan stands at `q` before it: the first may be
the rest of one that is open already, and the last may still be open behind the text. -/
def stringsFrom : Quoting → Text → List Text
  | q, [] => if q = outside then [] else [[]]
  | q, c :: s =>
    if q.step c = outside then (if q = outside then [] else [[c]]) ++ stringsFrom outside s
    else Nesting.extend c (stringsFrom (q.step c) s)

/-- The quoted strings of a text, as written. -/
def strings (s : Text) : List Text := stringsFrom outside s

theorem step_plain {c : Char} (h : isQuoteMark c = false) : step outside c = outside := by
  simp [step, h]

theorem step_mark {c : Char} (h : isQuoteMark c = true) : step outside c = inside c false := by
  simp [step, h]

theorem stringsFrom_open {q : Quoting} (hq : q ≠ outside) (s : Text) :
    ∃ first more, stringsFrom q s = first :: more ∧ first <+: s := by
  induction s generalizing q with
  | nil => exact ⟨[], [], if_neg hq, List.nil_prefix⟩
  | cons c s ih =>
    rw [stringsFrom]
    split
    · exact ⟨[c], _, rfl, ⟨s, rfl⟩⟩
    · rename_i hstep
      obtain ⟨first, more, hs, hfirst⟩ := ih hstep
      exact ⟨c :: first, more, by rw [hs]; rfl, List.cons_prefix_cons.mpr ⟨rfl, hfirst⟩⟩

/-- The strings of a text stand in it. -/
theorem infix_of_mem_stringsFrom {q : Quoting} {s l : Text} (h : l ∈ stringsFrom q s) :
    l <:+: s := by
  have cons : ∀ {c : Char} {s : Text}, l <:+: s → l <:+: c :: s := fun h =>
    h.trans (List.suffix_cons _ _).isInfix
  induction s generalizing q with
  | nil =>
    rw [stringsFrom] at h
    split at h
    · cases h
    · exact List.mem_singleton.mp h ▸ List.infix_refl _
  | cons c s ih =>
    rw [stringsFrom] at h
    split at h
    · rcases List.mem_append.mp h with h | h
      · split at h
        · cases h
        · exact List.mem_singleton.mp h ▸ ⟨[], s, rfl⟩
      · exact cons (ih h)
    · rename_i hstep
      obtain ⟨first, more, hs, hfirst⟩ := stringsFrom_open hstep s
      rw [hs] at h
      rcases List.mem_cons.mp h with rfl | h
      · exact (List.cons_prefix_cons.mpr ⟨rfl, hfirst⟩).isInfix
      · exact cons (ih (hs ▸ List.mem_cons_of_mem _ h))

theorem stringsFrom_plain {plain : Text} (h : ∀ c ∈ plain, isQuoteMark c = false) (s : Text) :
    stringsFrom outside (plain ++ s) = stringsFrom outside s := by
  induction plain with
  | nil => rfl
  | cons c plain ih =>
    obtain ⟨hc, hplain⟩ := List.forall_mem_cons.mp h
    rw [List.cons_append, stringsFrom, if_pos (step_plain hc), ih hplain]
    rfl

/-! ## 2. One string after another -/

/-- What closes an open string, and nothing before it does. -/
def Closes (q : Quoting) (u : Text) (c : Char) : Prop :=
  (∀ v, v <+: u → q.after v ≠ outside) ∧ (q.after u).step c = outside

/-- A string from its first mark to the one that closes it. -/
inductive Whole : Text → Prop
  | intro {mark : Char} {u : Text} : isQuoteMark mark = true → Closes (inside mark false) u mark →
      Whole (mark :: (u ++ [mark]))

-- A character closes a string, or leaves it open with the same mark.
theorem step_inside (mark : Char) (escaped : Bool) (c : Char) :
    step (inside mark escaped) c = outside ∧ c = mark ∨
      ∃ e, step (inside mark escaped) c = inside mark e := by
  cases escaped with
  | true => exact Or.inr ⟨false, rfl⟩
  | false =>
    rw [step]
    split_ifs with hescape hclose
    · exact Or.inr ⟨true, rfl⟩
    · exact Or.inl ⟨rfl, hclose⟩
    · exact Or.inr ⟨false, rfl⟩

theorem exists_closes {mark : Char} {escaped : Bool} {s : Text}
    (h : (inside mark escaped).after s = outside) :
    ∃ u rest, s = u ++ mark :: rest ∧ Closes (inside mark escaped) u mark := by
  induction s generalizing escaped with
  | nil => cases h
  | cons c s ih =>
    have hstep := step_inside mark escaped c
    rcases hstep with ⟨hclose, rfl⟩ | ⟨e, he⟩
    · refine ⟨[], s, rfl, fun v hv => ?_, hclose⟩
      rw [List.prefix_nil.mp hv]
      exact Quoting.noConfusion
    · have hafter : (inside mark e).after s = outside := by
        rw [← he]
        exact h
      obtain ⟨u, rest, rfl, hopen, hclose⟩ := ih hafter
      refine ⟨c :: u, rest, rfl, fun v hv => ?_, ?_⟩
      · cases v with
        | nil => exact Quoting.noConfusion
        | cons d v =>
          obtain ⟨rfl, hprefix⟩ := List.cons_prefix_cons.mp hv
          show (step (inside mark escaped) d).after v ≠ outside
          rw [he]
          exact hopen v hprefix
      · show ((step (inside mark escaped) c).after u).step mark = outside
        rw [he]
        exact hclose

theorem stringsFrom_closes {q : Quoting} {u : Text} {c : Char} (h : Closes q u c) (rest : Text) :
    stringsFrom q (u ++ c :: rest) = (u ++ [c]) :: stringsFrom outside rest := by
  induction u generalizing q with
  | nil =>
    have hq : q ≠ outside := h.1 [] (List.prefix_refl _)
    rw [List.nil_append, stringsFrom, if_pos (show q.step c = outside from h.2), if_neg hq]
    rfl
  | cons d u ih =>
    have hstep : q.step d ≠ outside := h.1 [d] (List.cons_prefix_cons.mpr ⟨rfl, List.nil_prefix⟩)
    have hnext : Closes (q.step d) u c :=
      ⟨fun v hv => h.1 (d :: v) (List.cons_prefix_cons.mpr ⟨rfl, hv⟩), h.2⟩
    rw [List.cons_append, stringsFrom, if_neg hstep, ih hnext]
    rfl

theorem Whole.strings_append {l : Text} (h : Whole l) (rest : Text) :
    stringsFrom outside (l ++ rest) = l :: stringsFrom outside rest := by
  cases h with
  | @intro mark u hmark hu =>
    have hopen : step outside mark ≠ outside := by
      rw [step_mark hmark]
      exact Quoting.noConfusion
    have htext : mark :: (u ++ [mark]) ++ rest = mark :: (u ++ mark :: rest) := by simp
    rw [htext, stringsFrom, if_neg hopen, step_mark hmark, stringsFrom_closes hu]
    rfl

theorem Whole.after {l : Text} (h : Whole l) : outside.after l = outside := by
  cases h with
  | @intro mark u hmark hu =>
    show (step outside mark).after (u ++ [mark]) = outside
    rw [step_mark hmark, after_append]
    exact hu.2

theorem after_plain {plain : Text} (h : ∀ c ∈ plain, isQuoteMark c = false) :
    outside.after plain = outside := by
  induction plain with
  | nil => rfl
  | cons c plain ih =>
    obtain ⟨hc, hplain⟩ := List.forall_mem_cons.mp h
    show (step outside c).after plain = outside
    rw [step_plain hc]
    exact ih hplain

/-- A text string by string: text without marks, and before it strings with such text in front of
them, unless a quote stays open. -/
theorem byStrings {motive : Text → Prop}
    (unclosed : ∀ s, outside.after s ≠ outside → motive s)
    (last : ∀ plain, (∀ c ∈ plain, isQuoteMark c = false) → motive plain)
    (step : ∀ plain l rest, (∀ c ∈ plain, isQuoteMark c = false) → Whole l → motive rest →
      motive (plain ++ (l ++ rest))) (s : Text) : motive s := by
  induction hlength : s.length using Nat.strong_induction_on generalizing s with
  | _ n ih =>
    by_cases closed : outside.after s = outside
    case neg => exact unclosed s closed
    cases hrest : s.dropWhile (!isQuoteMark ·) with
    | nil => exact last s fun c hc => by simpa using List.dropWhile_eq_nil_iff.mp hrest c hc
    | cons mark t =>
      obtain ⟨plain, rfl, hall, hopens⟩ := Text.dropWhile_eq_cons_iff.mp hrest
      have hplain : ∀ c ∈ plain, isQuoteMark c = false := fun c hc => by simpa using hall c hc
      have hmark : isQuoteMark mark = true := by simpa using hopens
      rw [after_append, after_plain hplain] at closed
      have hopen : (inside mark false).after t = outside := by
        rw [← step_mark hmark]
        exact closed
      obtain ⟨u, rest, rfl, hu⟩ := exists_closes hopen
      have htext : mark :: (u ++ mark :: rest) = mark :: (u ++ [mark]) ++ rest := by simp
      rw [htext] at hlength ⊢
      refine step _ _ _ hplain (.intro hmark hu) (ih rest.length ?_ rest rfl)
      rw [← hlength, List.length_append, List.length_append, List.length_cons]
      omega

-- Behind a character that is no mark, a string goes on up to the mark that closes it.
theorem Whole.exists_concat {x y : Text} {c : Char} (h : Whole (x ++ c :: y))
    (hc : isQuoteMark c = false) : ∃ v mark, y = v ++ [mark] ∧ isQuoteMark mark = true := by
  generalize hl : x ++ c :: y = l at h
  cases h with
  | @intro mark u hmark hu =>
    rcases List.eq_nil_or_concat y with rfl | ⟨v, e, rfl⟩
    · rw [← List.cons_append] at hl
      obtain ⟨-, he⟩ := List.append_inj' hl rfl
      rw [← (List.cons.inj he).1, hc] at hmark
      cases hmark
    · have hend : (mark :: u) ++ [mark] = (x ++ c :: v) ++ [e] := by
        rw [List.cons_append, ← hl]
        simp
      obtain ⟨-, he⟩ := List.append_inj' hend rfl
      exact ⟨v, e, List.concat_eq_append, (List.cons.inj he).1 ▸ hmark⟩

-- What stands inside a string is in one of the strings, and that string ends behind it in a mark.
theorem exists_mem_strings {s before behind : Text} {c : Char} (hs : s = before ++ c :: behind)
    (closed : outside.after s = outside) (inner : outside.after before ≠ outside)
    (hc : isQuoteMark c = false) : ∃ front u v mark tail, before = front ++ u ∧
      behind = v ++ [mark] ++ tail ∧ isQuoteMark mark = true ∧
      u ++ c :: (v ++ [mark]) ∈ strings s := by
  induction s using byStrings generalizing before with
  | unclosed s h => exact absurd closed h
  | last plain hplain =>
    exact absurd (after_plain fun d hd => hplain d (hs ▸ List.mem_append_left _ hd)) inner
  | step plain l rest hplain hl ih =>
    have hstrings : strings (plain ++ (l ++ rest)) = l :: strings rest := by
      rw [strings, stringsFrom_plain hplain, hl.strings_append]
      rfl
    have hskip : ∀ y, outside.after (plain ++ (l ++ y)) = outside.after y := fun y => by
      rw [after_append, after_plain hplain, after_append, hl.after]
    rw [hstrings]
    rcases List.append_eq_append_iff.mp hs with ⟨x, rfl, hx⟩ | ⟨x, rfl, -⟩
    case inr => exact absurd (after_plain fun d hd => hplain d (List.mem_append_left x hd)) inner
    rcases List.append_eq_append_iff.mp hx with ⟨y, rfl, hy⟩ | ⟨y, hl', hy⟩
    · -- the character stands behind the first string
      rw [hskip] at inner closed
      obtain ⟨front, u, v, mark, tail, rfl, rfl, hmark, hmem⟩ := ih hy closed inner
      exact ⟨plain ++ (l ++ front), u, v, mark, tail, by simp, rfl, hmark,
        List.mem_cons_of_mem _ hmem⟩
    · cases y with
      | nil =>
        rw [List.append_nil] at hl'
        have := hskip []
        rw [List.append_nil, hl'] at this
        exact absurd this inner
      | cons d y =>
        obtain ⟨rfl, rfl⟩ := List.cons.inj hy
        obtain ⟨v, mark, rfl, hmark⟩ := Whole.exists_concat (hl' ▸ hl) hc
        exact ⟨plain, x, v, mark, rest, rfl, rfl, hmark, hl' ▸ List.mem_cons_self⟩

/-! ## 3. Blanks outside quotes -/

/-- The text without the blanks outside quotes, if the scan stands at `q` before it. -/
def dense : Quoting → Text → Text
  | _, [] => []
  | q, c :: s =>
    if q = outside ∧ isBlank c = true then dense outside s else c :: dense (q.step c) s

theorem dense_cons_blank {c : Char} (hc : isBlank c = true) (s : Text) :
    dense outside (c :: s) = dense outside s :=
  if_pos ⟨rfl, hc⟩

theorem dense_append (q : Quoting) (s t : Text) :
    dense q (s ++ t) = dense q s ++ dense (q.after s) t := by
  induction s generalizing q with
  | nil => rfl
  | cons c s ih =>
    rw [List.cons_append, dense, dense]
    split
    · rename_i h
      obtain ⟨rfl, hc⟩ := h
      have hafter : outside.after (c :: s) = outside.after s := congrArg (after · s) (step_blank hc)
      rw [ih, hafter]
    · rw [ih]
      rfl

theorem dense_blank {s : Text} (h : ∀ c ∈ s, isBlank c = true) : dense outside s = [] := by
  induction s with
  | nil => rfl
  | cons c s ih =>
    obtain ⟨hc, hs⟩ := List.forall_mem_cons.mp h
    rw [dense_cons_blank hc, ih hs]

theorem blank_of_dense {s : Text} (h : dense outside s = []) : ∀ c ∈ s, isBlank c = true := by
  induction s with
  | nil => exact fun _ hc => (List.not_mem_nil hc).elim
  | cons c s ih =>
    rw [dense] at h
    split at h
    · rename_i hc
      exact List.forall_mem_cons.mpr ⟨hc.2, ih h⟩
    · cases h

theorem after_dense (q : Quoting) (s : Text) : q.after (dense q s) = q.after s := by
  induction s generalizing q with
  | nil => rfl
  | cons c s ih =>
    rw [dense]
    split
    · rename_i h
      obtain ⟨rfl, hc⟩ := h
      rw [ih]
      exact congrArg (after · s) (step_blank hc).symm
    · exact ih (q.step c)

theorem stringsFrom_dense (q : Quoting) (s : Text) :
    stringsFrom q (dense q s) = stringsFrom q s := by
  induction s generalizing q with
  | nil => rfl
  | cons c s ih =>
    rw [dense]
    split
    · rename_i h
      obtain ⟨rfl, hc⟩ := h
      rw [ih, stringsFrom, if_pos (step_blank hc)]
      rfl
    · rw [stringsFrom, stringsFrom, ih]
      split
      · rename_i hstep
        rw [← hstep, ih]
      · rfl

theorem uncut_cons {q : Quoting} {c : Char} {s : Text} :
    q.Uncut (c :: s) ↔ (q = outside → c ≠ ';') ∧ (q.step c).Uncut s := by
  refine ⟨fun h => ⟨fun hq hc => ?_, fun before after e => ?_⟩, fun h => h.2.cons h.1⟩
  · exact h [] s (by rw [hc]; rfl) hq
  · exact h (c :: before) after (by rw [e]; rfl)

instance decidableUncut : (q : Quoting) → (s : Text) → Decidable (q.Uncut s)
  | _, [] => isTrue fun before after e => by simp at e
  | q, c :: s =>
    have := decidableUncut (q.step c) s
    decidable_of_iff _ uncut_cons.symm

theorem uncut_dense (q : Quoting) (s : Text) : q.Uncut (dense q s) ↔ q.Uncut s := by
  induction s generalizing q with
  | nil => rfl
  | cons c s ih =>
    rw [dense]
    split
    · rename_i h
      obtain ⟨rfl, hc⟩ := h
      rw [ih, uncut_cons, step_blank hc]
      exact (and_iff_right fun _ => Segment.ne_semicolon_of_isBlank hc).symm
    · rw [uncut_cons, uncut_cons, ih]

theorem Stands.after {q : Quoting} (h : Stands false q) (s : Text) : Stands false (q.after s) := by
  induction s generalizing q with
  | nil => exact h
  | cons c s ih => exact ih h.step

-- No blank closes a quote.
theorem Stands.of_after_blank {q : Quoting} (h : Stands false q) {s : Text}
    (hs : ∀ c ∈ s, isBlank c = true) (hout : q.after s = outside) : q = outside := by
  induction s generalizing q with
  | nil => exact hout
  | cons c s ih =>
    obtain ⟨hc, hs⟩ := List.forall_mem_cons.mp hs
    have hstep : q.step c = outside := ih h.step hs hout
    cases q with
    | outside => rfl
    | inside mark escaped =>
      rcases step_inside mark escaped c with ⟨-, rfl⟩ | ⟨e, he⟩
      · have hmark : isQuoteMark c = true := h.1
        rw [not_isQuoteMark_of_isBlank hc] at hmark
        cases hmark
      · rw [he] at hstep
        cases hstep

theorem dense_trimRight {q : Quoting} (hq : Stands false q) {s : Text}
    (closed : q.after s = outside) :
    dense q (Text.trimRight s) = dense q s ∧ q.after (Text.trimRight s) = outside := by
  obtain ⟨tail, hs, htail⟩ := Text.exists_trimRight s
  rw [hs, after_append] at closed
  have hout := (hq.after (Text.trimRight s)).of_after_blank htail closed
  refine ⟨?_, hout⟩
  conv_rhs => rw [hs, dense_append, hout, dense_blank htail, List.append_nil]

theorem dense_trim {s : Text} (closed : outside.after s = outside) :
    dense outside (Text.trim s) = dense outside s := by
  obtain ⟨lead, hs, hlead⟩ := Text.exists_trimLeft s
  rw [hs, after_append, after_blank hlead] at closed
  rw [Text.trim, (dense_trimRight (q := outside) trivial closed).1]
  conv_rhs => rw [hs, dense_append, after_blank hlead, dense_blank hlead, List.nil_append]

theorem after_trim {s : Text} (closed : outside.after s = outside) :
    outside.after (Text.trim s) = outside := by
  rw [← after_dense, dense_trim closed, after_dense, closed]

/-! ## 4. Strings of a clean text -/

/-- Whether cleaning a text, if the scan stands at `q` before it, touches no line and no break but
outside quotes. -/
def Spared (q : Quoting) (s : Text) : Prop := ∀ before c behind, s = before ++ c :: behind →
  isLineBreak c = true → isComment behind = false ∧
    (q.after before ≠ outside → c = '\n' ∧ EndsSolid before)

theorem Spared.rest {q : Quoting} {line rest : Text} {c : Char} (h : Spared q (line ++ c :: rest))
    (hc : isLineBreak c = true) : Spared (q.after (line ++ [c])) rest := by
  intro before d behind hrest hd
  obtain ⟨hcomment, hinner⟩ := h (line ++ c :: before) d behind (by simp [hrest]) hd
  refine ⟨hcomment, fun hin => ?_⟩
  rw [List.append_cons, after_append] at hinner
  obtain ⟨hfeed, hsolid⟩ := hinner hin
  refine ⟨hfeed, hsolid.of_append ?_⟩
  rintro rfl
  rw [List.append_nil, Text.endsSolid_concat, Text.isBlank_of_isLineBreak hc] at hsolid
  cases hsolid

theorem dense_ne_nil {q : Quoting} (hq : q ≠ outside) {s : Text} (hs : s ≠ []) :
    dense q s ≠ [] := by
  obtain ⟨c, s, rfl⟩ := List.exists_cons_of_ne_nil hs
  rw [dense, if_neg fun h => hq h.1]
  exact List.cons_ne_nil _ _

theorem allBlank_of_unclean {line : Text} (h : ¬ Text.isClean line = true)
    (hcomment : isComment line = false) : ∀ c ∈ line, isBlank c = true := by
  have hblank : Text.allBlank line = true := by
    by_contra hblank
    exact h (Text.isClean_iff.mpr ⟨by simpa using hblank, hcomment⟩)
  exact List.all_eq_true.mp hblank

section Break

variable {q : Quoting} {line rest : Text}

-- Outside quotes a break and the blanks around it are blanks, whether the line stays or goes.
theorem dense_break {c : Char} (hq : Stands false q) (hline : ∀ d ∈ line, isLineBreak d = false)
    (hc : isLineBreak c = true) (hcomment : isComment line = false) (hout : q.after line = outside)
    (hrest : dense outside (cleanText rest) = dense outside rest) :
    dense q (cleanText (line ++ c :: rest)) = dense q (line ++ c :: rest) := by
  have hdense : dense q (line ++ c :: rest) = dense q line ++ dense outside rest := by
    rw [dense_append, hout, dense_cons_blank (Text.isBlank_of_isLineBreak hc)]
  rw [Text.cleanText_break hline hc, hdense, ← hrest]
  split
  · obtain ⟨htrim, hafter⟩ := dense_trimRight hq hout
    rw [dense_append, htrim, hafter]
    cases hlines : Text.cleanLines rest with
    | nil =>
      rw [show cleanText rest = Text.join "\n" (Text.cleanLines rest) from rfl, hlines]
      rfl
    | cons first more =>
      rw [Text.begun_cons, dense_cons_blank (by decide), ← hlines]
      rfl
  · rename_i hunclean
    have hblank := allBlank_of_unclean hunclean hcomment
    rw [hq.of_after_blank hblank hout, dense_blank hblank, List.nil_append]

-- Inside a string the line is clean and its line feed stays.
theorem dense_feed (hline : ∀ d ∈ line, isLineBreak d = false) (hsolid : EndsSolid line)
    (hcomment : isComment line = false) (hin : q.after (line ++ ['\n']) ≠ outside)
    (closed : (q.after (line ++ ['\n'])).after rest = outside)
    (hrest : dense (q.after (line ++ ['\n'])) (cleanText rest) =
      dense (q.after (line ++ ['\n'])) rest) :
    dense q (cleanText (line ++ '\n' :: rest)) = dense q (line ++ '\n' :: rest) := by
  have hclean : Text.isClean line = true := Text.isClean_iff.mpr ⟨hsolid.not_allBlank, hcomment⟩
  have hne : Text.cleanLines rest ≠ [] := by
    intro hnil
    rw [show cleanText rest = Text.join "\n" (Text.cleanLines rest) from rfl, hnil] at hrest
    refine dense_ne_nil hin (s := rest) ?_ hrest.symm
    rintro rfl
    exact hin closed
  obtain ⟨first, more, hlines⟩ := List.exists_cons_of_ne_nil hne
  rw [Text.cleanText_break hline (by decide), if_pos hclean, hsolid.trimRight, hlines,
    Text.begun_cons, ← hlines]
  calc dense q (line ++ '\n' :: cleanText rest)
      = dense q (line ++ ['\n']) ++ dense (q.after (line ++ ['\n'])) (cleanText rest) := by
        rw [List.append_cons, dense_append]
    _ = dense q (line ++ '\n' :: rest) := by
        rw [hrest, ← dense_append, ← List.append_cons]

end Break

/-- Cleaning touches blanks outside quotes only. -/
theorem dense_cleanText {q : Quoting} (hq : Stands false q) {s : Text}
    (closed : q.after s = outside) (hcomment : isComment s = false) (spared : Spared q s) :
    dense q (cleanText s) = dense q s := by
  induction s using Text.byLines generalizing q with
  | last line hline =>
    rw [Text.cleanText_line hline]
    split
    · exact (dense_trimRight hq closed).1
    · rename_i hunclean
      have hblank := allBlank_of_unclean hunclean hcomment
      rw [hq.of_after_blank hblank closed, dense_blank hblank]
      rfl
  | step line c rest hline hc ih =>
    obtain ⟨hrest, hinner⟩ := spared line c rest rfl hc
    have hline' : isComment line = false := by
      by_contra h
      rw [Bool.not_eq_false] at h
      rw [Text.isComment_append h] at hcomment
      cases hcomment
    rw [List.append_cons, after_append] at closed
    have hself := ih (hq.after _) closed hrest (spared.rest hc)
    have hbreak := Text.isBlank_of_isLineBreak hc
    by_cases hout : q.after line = outside
    · have hstep : q.after (line ++ [c]) = outside := by
        rw [after_append, hout]
        exact step_blank hbreak
      rw [hstep] at hself
      exact dense_break hq hline hc hline' hout hself
    · obtain ⟨rfl, hsolid⟩ := hinner hout
      have hopen : q.after (line ++ ['\n']) ≠ outside := by
        rw [after_append]
        exact fun h => hout ((hq.after line).of_after_blank (List.forall_mem_singleton.mpr hbreak) h)
      exact dense_feed hline hsolid hline' hopen closed hself

end SqlDump.Quoting
