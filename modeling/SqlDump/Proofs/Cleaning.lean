import SqlDump.Proofs.Seams

/-!
# What cleaning leaves of a text

A text is cleaned line by line. What is left is tidy: line feeds are its only breaks, and each of
them stands behind a character that is no blank and before no comment. A tidy text that ends in no
blank and starts with no comment is left alone.
-/

namespace SqlDump.Text

/-! ## 1. Line by line -/

theorem isBlank_of_isLineBreak {c : Char} (h : isLineBreak c = true) : isBlank c = true := by
  simp only [isLineBreak, Bool.or_eq_true, Bool.and_eq_true, decide_eq_true_eq] at h
  unfold isBlank blankRanges inRanges
  grind [inRanges]

theorem not_isLineBreak_of_solid {c : Char} (h : isBlank c = false) : isLineBreak c = false := by
  by_contra hc
  rw [Bool.not_eq_false] at hc
  rw [isBlank_of_isLineBreak hc] at h
  cases h

/-- Lines one after another: the last one, and before it lines that end at a break. -/
theorem byLines {motive : Text → Prop}
    (last : ∀ line, (∀ d ∈ line, isLineBreak d = false) → motive line)
    (step : ∀ line c rest, (∀ d ∈ line, isLineBreak d = false) → isLineBreak c = true →
      motive rest → motive (line ++ c :: rest)) (s : Text) : motive s := by
  suffices h : ∀ line, (∀ d ∈ line, isLineBreak d = false) → motive (line ++ s) by
    exact h [] fun _ hd => (List.not_mem_nil hd).elim
  induction s with
  | nil => exact fun line hline => (List.append_nil line).symm ▸ last line hline
  | cons c s ih =>
    intro line hline
    cases hc : isLineBreak c with
    | true => exact step line c s hline hc (ih [] fun _ hd => (List.not_mem_nil hd).elim)
    | false =>
      rw [List.append_cons]
      refine ih (line ++ [c]) fun d hd => ?_
      rcases List.mem_append.mp hd with hd | hd
      · exact hline d hd
      · exact List.mem_singleton.mp hd ▸ hc

theorem lines_line_break {line ls : Text} {c : Char} {rest : List Text}
    (hline : ∀ d ∈ line, isLineBreak d = false) (h : lines (c :: ls) = [] :: rest) :
    lines (line ++ c :: ls) = line :: rest := by
  induction line with
  | nil => exact h
  | cons d line ih =>
    obtain ⟨hd, hline⟩ := List.forall_mem_cons.mp hline
    rw [List.cons_append, lines_cons hd, ih hline]
    rfl

theorem lines_line {line : Text} (hne : line ≠ []) (hline : ∀ d ∈ line, isLineBreak d = false) :
    lines line = [line] := by
  induction line with
  | nil => exact absurd rfl hne
  | cons d line ih =>
    obtain ⟨hd, hline⟩ := List.forall_mem_cons.mp hline
    rw [lines_cons hd]
    cases line with
    | nil => rfl
    | cons e line =>
      rw [ih (List.cons_ne_nil _ _) hline]
      rfl

theorem cleanLines_line {line : Text} (hline : ∀ d ∈ line, isLineBreak d = false) :
    cleanLines line = if isClean line then [trimRight line] else [] := by
  by_cases hne : line = []
  · subst hne
    rfl
  · rw [cleanLines, lines_line hne hline, List.filter_singleton]
    cases isClean line <;> rfl

/-- Clean lines come from the lines one by one; the break between two lines adds none. -/
theorem cleanLines_break {line : Text} {c : Char} (hline : ∀ d ∈ line, isLineBreak d = false)
    (hc : isLineBreak c = true) (rest : Text) :
    cleanLines (line ++ c :: rest) = cleanLines line ++ cleanLines rest := by
  -- of a carriage return and a line feed, the line feed breaks an empty line, which is not clean
  obtain ⟨ls, hls, hclean⟩ : ∃ ls, lines (c :: rest) = [] :: ls ∧
      ls.filter isClean = (lines rest).filter isClean := by
    by_cases hreturn : c = '\r' ∧ ∃ rest', rest = '\n' :: rest'
    · obtain ⟨rfl, rest', rfl⟩ := hreturn
      refine ⟨lines rest', rfl, ?_⟩
      rw [lines_feed]
      rfl
    · exact ⟨lines rest, lines_cons_break hc fun hcr r' hr => hreturn ⟨hcr, r', hr⟩, rfl⟩
  have hall : cleanLines (line ++ c :: rest) = ((line :: ls).filter isClean).map trimRight := by
    rw [cleanLines, lines_line_break hline hls]
  rw [hall, cleanLines_line hline, List.filter_cons]
  cases isClean line with
  | true => exact congrArg (trimRight line :: ·) (congrArg (List.map trimRight) hclean)
  | false => exact congrArg (List.map trimRight) hclean

theorem cleanText_line {line : Text} (hline : ∀ d ∈ line, isLineBreak d = false) :
    cleanText line = if isClean line then trimRight line else [] := by
  rw [show cleanText line = join "\n" (cleanLines line) from rfl, cleanLines_line hline]
  cases isClean line
  · rfl
  · exact List.intercalate_singleton

theorem cleanText_break {line : Text} {c : Char} (hline : ∀ d ∈ line, isLineBreak d = false)
    (hc : isLineBreak c = true) (rest : Text) : cleanText (line ++ c :: rest) =
      if isClean line then trimRight line ++ begun (cleanLines rest) else cleanText rest := by
  rw [show cleanText (line ++ c :: rest) = join "\n" (cleanLines (line ++ c :: rest)) from rfl,
    cleanLines_break hline hc, cleanLines_line hline]
  cases isClean line
  · rfl
  · exact join_cons_begun _ _

/-! ## 2. Comments -/

/-- Whether a comment stands at the front, past blanks. -/
def isComment (s : Text) : Bool := startsWith "--" (trimLeft s)

theorem isClean_iff {line : Text} :
    isClean line = true ↔ allBlank line = false ∧ isComment line = false := by
  simp [isClean, isComment]

theorem isComment_iff {s : Text} : isComment s = true ↔
    ∃ lead rest, s = lead ++ '-' :: '-' :: rest ∧ ∀ c ∈ lead, isBlank c = true := by
  constructor
  · intro h
    obtain ⟨rest, hrest⟩ := Option.isSome_iff_exists.mp h
    obtain ⟨lead, hs, hlead⟩ := exists_trimLeft s
    refine ⟨lead, rest, ?_, hlead⟩
    rw [append_of_after? hrest] at hs
    exact hs
  · rintro ⟨lead, rest, rfl, hlead⟩
    have htrim : trimLeft (lead ++ '-' :: '-' :: rest) = "--".toList ++ rest := by
      rw [trimLeft, List.dropWhile_append_of_pos hlead, List.dropWhile_cons_of_neg (by decide)]
      rfl
    rw [isComment, startsWith, htrim, after?_append]
    rfl

theorem isComment_append {s : Text} (h : isComment s = true) (t : Text) :
    isComment (s ++ t) = true := by
  obtain ⟨lead, rest, rfl, hlead⟩ := isComment_iff.mp h
  exact isComment_iff.mpr ⟨lead, rest ++ t, by simp, hlead⟩

/-- A text that is no comment does not become one if no second dash goes on with it. -/
theorem not_isComment_append {s t : Text} (hs : allBlank s = false) (h : isComment s = false)
    (hdash : ∀ front r, s = front ++ ['-'] → t ≠ '-' :: r) : isComment (s ++ t) = false := by
  by_contra hcomment
  rw [Bool.not_eq_false] at hcomment
  obtain ⟨lead, rest, hst, hlead⟩ := isComment_iff.mp hcomment
  have hblank : ¬ ∀ c ∈ s, isBlank c = true := by
    rw [allBlank, List.all_eq_false] at hs
    obtain ⟨c, hc, hblank⟩ := hs
    exact fun hall => hblank (hall c hc)
  rcases List.append_eq_append_iff.mp hst with ⟨x, rfl, hx⟩ | ⟨x, rfl, hx⟩
  · -- both dashes stand in what goes on with blanks
    exact hblank fun c hc => hlead c (List.mem_append_left x hc)
  · match x with
    | [] => exact hblank fun c hc => hlead c (by simpa using hc)
    | [d] =>
      obtain ⟨hd, ht⟩ := List.cons.inj hx
      exact hdash lead rest (hd ▸ rfl) ht.symm
    | d :: e :: x =>
      obtain ⟨hd, hx⟩ := List.cons.inj hx
      obtain ⟨he, -⟩ := List.cons.inj hx
      rw [← hd, ← he, isComment_iff.mpr ⟨lead, x, rfl, hlead⟩] at h
      cases h

theorem not_isComment_concat {s : Text} (h : isComment s = false) {c : Char} (hc : c ≠ '-') :
    isComment (s ++ [c]) = false := by
  by_contra hcomment
  rw [Bool.not_eq_false] at hcomment
  obtain ⟨lead, rest, hs, hlead⟩ := isComment_iff.mp hcomment
  rcases List.eq_nil_or_concat rest with rfl | ⟨r, d, rfl⟩
  · rw [List.append_cons lead '-' ['-']] at hs
    exact hc (List.cons.inj (List.append_inj' hs rfl).2).1
  · have hend : s ++ [c] = lead ++ '-' :: '-' :: r ++ [d] := by simp [hs]
    rw [(List.append_inj' hend rfl).1, isComment_iff.mpr ⟨lead, r, rfl, hlead⟩] at h
    cases h

theorem not_isComment_cons {c : Char} (hblank : isBlank c = false) (hc : c ≠ '-') (s : Text) :
    isComment (c :: s) = false := by
  rw [isComment, trimLeft_cons hblank]
  exact congrArg Option.isSome (if_neg (Ne.symm hc))

/-! ## 3. Tidy texts -/

/-- Whether the last character is no blank. -/
def EndsSolid (s : Text) : Prop := ∃ front d, s = front ++ [d] ∧ isBlank d = false

theorem endsSolid_concat {s : Text} {d : Char} : EndsSolid (s ++ [d]) ↔ isBlank d = false := by
  constructor
  · rintro ⟨front, e, he, hblank⟩
    rw [(List.cons.inj (List.append_inj' he rfl).2).1]
    exact hblank
  · exact fun h => ⟨s, d, rfl, h⟩

theorem EndsSolid.append {s : Text} (h : EndsSolid s) (front : Text) : EndsSolid (front ++ s) := by
  obtain ⟨u, d, rfl, hd⟩ := h
  exact ⟨front ++ u, d, by simp, hd⟩

theorem EndsSolid.of_append {s t : Text} (h : EndsSolid (s ++ t)) (ht : t ≠ []) : EndsSolid t := by
  obtain ⟨v, e, rfl⟩ := List.eq_nil_or_concat t |>.resolve_left ht
  rw [List.concat_eq_append] at h ⊢
  rw [← List.append_assoc] at h
  exact endsSolid_concat.mpr (endsSolid_concat.mp h)

theorem EndsSolid.trimRight {s : Text} (h : EndsSolid s) : trimRight s = s := by
  obtain ⟨u, d, rfl, hd⟩ := h
  exact trimRight_concat hd u

theorem EndsSolid.not_allBlank {s : Text} (h : EndsSolid s) : allBlank s = false := by
  obtain ⟨u, d, rfl, hd⟩ := h
  simp [allBlank, hd]

theorem endsSolid_trimRight {s : Text} (h : allBlank s = false) : EndsSolid (trimRight s) := by
  have hne : s.rdropWhile isBlank ≠ [] := by
    intro hnil
    rw [allBlank, List.all_eq_false] at h
    obtain ⟨c, hc, hblank⟩ := h
    exact hblank (List.rdropWhile_eq_nil_iff.mp hnil c hc)
  obtain ⟨u, d, hu⟩ := List.eq_nil_or_concat (s.rdropWhile isBlank) |>.resolve_left hne
  have hlast := List.rdropWhile_last_not isBlank s hne
  rw [List.concat_eq_append] at hu
  have hd : (s.rdropWhile isBlank).getLast hne = d := by
    rw [List.getLast_congr hne (by simp) hu]
    exact List.getLast_concat
  exact ⟨u, d, hu, by simpa [hd] using hlast⟩

/-- Line feeds are the only breaks, each behind a character that is no blank and before no
comment. -/
def Tidy (s : Text) : Prop := ∀ before c behind, s = before ++ c :: behind →
  isLineBreak c = true → c = '\n' ∧ EndsSolid before ∧ isComment behind = false

theorem tidy_line {line : Text} (hline : ∀ d ∈ line, isLineBreak d = false) : Tidy line := by
  rintro before c behind rfl hc
  rw [hline c (by simp)] at hc
  cases hc

theorem Tidy.line_append {line s : Text} (h : Tidy s) (hline : ∀ d ∈ line, isLineBreak d = false)
    (hsolid : EndsSolid line) (hs : isComment s = false) : Tidy (line ++ '\n' :: s) := by
  intro before c behind e hc
  rcases List.append_eq_append_iff.mp e with ⟨x, rfl, hx⟩ | ⟨x, rfl, hx⟩
  · cases x with
    | nil =>
      obtain ⟨rfl, rfl⟩ := List.cons.inj hx
      exact ⟨rfl, by rwa [List.append_nil], hs⟩
    | cons d x =>
      obtain ⟨rfl, hs⟩ := List.cons.inj hx
      obtain ⟨hfeed, hbefore, hbehind⟩ := h x c behind hs hc
      exact ⟨hfeed, (hbefore.append ['\n']).append line, hbehind⟩
  · cases x with
    | nil =>
      obtain ⟨rfl, rfl⟩ := List.cons.inj hx
      exact ⟨rfl, by rwa [List.append_nil] at hsolid, hs⟩
    | cons d x =>
      obtain ⟨rfl, -⟩ := List.cons.inj hx
      rw [hline c (by simp)] at hc
      cases hc

/-- What starts with no break inside a tidy text is tidy. -/
theorem Tidy.middle {front s tail : Text} (h : Tidy (front ++ s ++ tail))
    (hs : ∀ c r, s = c :: r → isLineBreak c = false) : Tidy s := by
  intro before c behind e hc
  obtain ⟨hfeed, hbefore, hbehind⟩ := h (front ++ before) c (behind ++ tail) (by simp [e]) hc
  refine ⟨hfeed, hbefore.of_append ?_, ?_⟩
  · rintro rfl
    rw [hs c behind e] at hc
    cases hc
  · by_contra hcomment
    rw [Bool.not_eq_false] at hcomment
    rw [isComment_append hcomment] at hbehind
    cases hbehind

theorem Tidy.concat {s : Text} (h : Tidy s) {d : Char} (hbreak : isLineBreak d = false)
    (hd : d ≠ '-') : Tidy (s ++ [d]) := by
  intro before c behind e hc
  rcases List.eq_nil_or_concat behind with rfl | ⟨r, x, rfl⟩
  · rw [← (List.cons.inj (List.append_inj' e rfl).2).1, hbreak] at hc
    cases hc
  · have hend : s ++ [d] = before ++ c :: r ++ [x] := by simp [e]
    obtain ⟨rfl, hx⟩ := List.append_inj' hend rfl
    obtain ⟨hfeed, hbefore, hcomment⟩ := h before c r rfl hc
    rw [List.concat_eq_append, ← (List.cons.inj hx).1]
    exact ⟨hfeed, hbefore, not_isComment_concat hcomment hd⟩

-- The line breaks of a line's rest are those of the line.
theorem not_isLineBreak_trimRight {line : Text} (hline : ∀ d ∈ line, isLineBreak d = false) :
    ∀ d ∈ trimRight line, isLineBreak d = false := by
  obtain ⟨tail, hs, -⟩ := exists_trimRight line
  intro d hd
  exact hline d (hs ▸ List.mem_append_left tail hd)

theorem not_isComment_trimRight {line : Text} (h : isComment line = false) :
    isComment (trimRight line) = false := by
  obtain ⟨tail, hs, -⟩ := exists_trimRight line
  by_contra hcomment
  rw [Bool.not_eq_false] at hcomment
  rw [hs, isComment_append hcomment] at h
  cases h

theorem begun_eq (lines : List Text) :
    begun lines = [] ∨ begun lines = '\n' :: join "\n" lines := by
  cases lines with
  | nil => exact Or.inl rfl
  | cons line lines => exact Or.inr (begun_cons line lines)

theorem not_isComment_cleanText (s : Text) : isComment (cleanText s) = false := by
  induction s using byLines with
  | last line hline =>
    rw [cleanText_line hline]
    split
    · rename_i hclean
      exact not_isComment_trimRight (isClean_iff.mp hclean).2
    · rfl
  | step line c rest hline hc ih =>
    rw [cleanText_break hline hc]
    split
    · rename_i hclean
      obtain ⟨hblank, hcomment⟩ := isClean_iff.mp hclean
      refine not_isComment_append (endsSolid_trimRight hblank).not_allBlank
        (not_isComment_trimRight hcomment) fun _ r _ hr => ?_
      rcases begun_eq (cleanLines rest) with h | h <;> rw [h] at hr <;> cases hr
    · exact ih

/-- Cleaning leaves a tidy text. -/
theorem tidy_cleanText (s : Text) : Tidy (cleanText s) := by
  induction s using byLines with
  | last line hline =>
    rw [cleanText_line hline]
    split
    · exact tidy_line (not_isLineBreak_trimRight hline)
    · exact tidy_line fun _ hd => (List.not_mem_nil hd).elim
  | step line c rest hline hc ih =>
    rw [cleanText_break hline hc]
    split
    · rename_i hclean
      have hline := not_isLineBreak_trimRight hline
      rcases begun_eq (cleanLines rest) with h | h <;> rw [h]
      · exact (List.append_nil _).symm ▸ tidy_line hline
      · exact ih.line_append hline (endsSolid_trimRight (isClean_iff.mp hclean).1)
          (not_isComment_cleanText rest)
    · exact ih

/-- Cleaning leaves a tidy text alone. -/
theorem cleanText_eq_self {s : Text} (tidy : Tidy s) (hcomment : isComment s = false)
    (hsolid : EndsSolid s) : cleanText s = s := by
  induction s using byLines with
  | last line hline =>
    rw [cleanText_line hline, if_pos (isClean_iff.mpr ⟨hsolid.not_allBlank, hcomment⟩),
      hsolid.trimRight]
  | step line c rest hline hc ih =>
    obtain ⟨rfl, hend, hrest⟩ := tidy line c rest rfl hc
    have hclean : isClean line = true := by
      refine isClean_iff.mpr ⟨hend.not_allBlank, ?_⟩
      by_contra h
      rw [Bool.not_eq_false] at h
      rw [isComment_append h] at hcomment
      cases hcomment
    have hfeed : ¬ EndsSolid (line ++ ['\n']) := fun h =>
      absurd (endsSolid_concat.mp h) (by decide)
    have hne : rest ≠ [] := by
      rintro rfl
      exact hfeed hsolid
    rw [List.append_cons] at hsolid tidy
    have tidy' : Tidy rest := by
      have whole : Tidy (line ++ ['\n'] ++ rest ++ []) := by rwa [List.append_nil]
      refine whole.middle ?_
      rintro c r rfl
      by_contra hc
      rw [Bool.not_eq_false] at hc
      exact hfeed (tidy _ c r rfl hc).2.1
    have hself := ih tidy' hrest (hsolid.of_append hne)
    rw [cleanText_break hline hc, if_pos hclean, hend.trimRight]
    cases hlines : cleanLines rest with
    | nil =>
      rw [show cleanText rest = join "\n" (cleanLines rest) from rfl, hlines] at hself
      exact absurd hself.symm hne
    | cons first more =>
      rw [begun_cons, ← hlines]
      exact congrArg (line ++ '\n' :: ·) hself

end SqlDump.Text
