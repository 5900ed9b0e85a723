import SqlDump.Proofs.Regions

/-!
# Texts put together

A semicolon on a line of its own between two texts ends what is open at the end of the first, unless
that is a region or a quote. Then the texts put together have the statements of the first and those
of the second: cleaning, finding segments and cutting them do not look across the seam.
-/

namespace SqlDump

/-! ## 1. Lines -/

namespace Text

theorem lines_cons_break {c : Char} {r : Text} (hc : isLineBreak c = true)
    (h : c = '\r' → ∀ r', r ≠ '\n' :: r') : lines (c :: r) = [] :: lines r := by
  rw [lines.eq_3 c r fun r' hc' hr => h hc' r' hr, if_pos hc]

theorem lines_cons {c : Char} (hc : isLineBreak c = false) (r : Text) :
    lines (c :: r) = Nesting.extend c (lines r) := by
  have hreturn : ∀ r', c = '\r' → r = '\n' :: r' → False := by
    rintro r' rfl -
    exact absurd hc (by decide)
  rw [lines.eq_3 c r hreturn, if_neg (by simp [hc])]
  cases lines r <;> rfl

theorem lines_feed (t : Text) : lines ('\n' :: t) = [] :: lines t :=
  lines_cons_break (by decide) fun h => absurd h (by decide)

theorem lines_ne_nil {s : Text} (h : s ≠ []) : lines s ≠ [] := by
  fun_induction lines s with
  | case1 => exact absurd rfl h
  | _ => exact List.cons_ne_nil _ _

/-- Behind a text a line feed ends its last line, or an empty one. -/
theorem lines_append (s t : Text) : ∃ between, (between = [] ∨ between = [[]]) ∧
    lines (s ++ '\n' :: t) = lines s ++ (between ++ lines t) := by
  fun_induction lines s with
  | case1 => exact ⟨[[]], Or.inr rfl, lines_feed t⟩
  | case2 r ih =>
    obtain ⟨between, hbetween, h⟩ := ih
    exact ⟨between, hbetween, congrArg ([] :: ·) h⟩
  | case3 c r hreturn hc ih =>
    cases r with
    | nil =>
      -- a carriage return makes one break with the line feed
      by_cases hcr : c = '\r'
      · subst hcr
        exact ⟨[], Or.inl rfl, rfl⟩
      · refine ⟨[[]], Or.inr rfl, ?_⟩
        rw [List.singleton_append, lines_cons_break hc fun h => absurd h hcr, lines_feed]
        rfl
    | cons d r =>
      obtain ⟨between, hbetween, h⟩ := ih
      refine ⟨between, hbetween, ?_⟩
      rw [List.cons_append, lines_cons_break hc, h]
      · rfl
      · exact fun hcr r' hr => hreturn r hcr (congrArg (· :: r) (List.head_eq_of_cons_eq hr))
  | case4 c r hreturn hc hr ih =>
    obtain rfl : r = [] := by
      by_contra hne
      exact lines_ne_nil hne hr
    refine ⟨[], Or.inl rfl, ?_⟩
    rw [List.singleton_append, lines_cons (by simpa using hc), lines_feed]
    rfl
  | case5 c r hreturn hc l ls hr ih =>
    obtain ⟨between, hbetween, h⟩ := ih
    refine ⟨between, hbetween, ?_⟩
    rw [List.cons_append, lines_cons (by simpa using hc), h, hr]
    rfl

def isClean (line : Text) : Bool := !allBlank line && !startsWith "--" (trimLeft line)

/-- The lines that a clean text is made of. -/
def cleanLines (text : Text) : List Text := ((lines text).filter isClean).map trimRight

theorem cleanLines_append (s t : Text) :
    cleanLines (s ++ '\n' :: t) = cleanLines s ++ cleanLines t := by
  obtain ⟨between, hbetween, h⟩ := lines_append s t
  have hclean : between.filter isClean = [] := by
    rcases hbetween with rfl | rfl <;> rfl
  rw [cleanLines, h, List.filter_append, List.filter_append, hclean, List.nil_append,
    List.map_append]
  rfl

theorem cleanLines_seam (s t : Text) :
    cleanLines (s ++ "\n;\n" ++ t) = cleanLines s ++ [';'] :: cleanLines t := by
  have htext : (s ++ "\n;\n" ++ t : Text) = s ++ '\n' :: ([';'] ++ '\n' :: t) := by simp
  rw [htext, cleanLines_append, cleanLines_append]
  rfl

theorem not_mem_lines {s line : Text} (h : line ∈ lines s) : '\n' ∉ line := by
  fun_induction lines s generalizing line with
  | case1 => cases h
  | case2 r ih | case3 c r hreturn hc ih =>
    rcases List.mem_cons.mp h with rfl | h
    · exact List.not_mem_nil
    · exact ih h
  | case4 c r hreturn hc hr ih =>
    rw [List.mem_singleton.mp h, List.mem_singleton]
    rintro rfl
    exact hc rfl
  | case5 c r hreturn hc l ls hr ih =>
    rw [hr] at ih
    rcases List.mem_cons.mp h with rfl | h
    · rw [List.mem_cons, not_or]
      refine ⟨?_, ih List.mem_cons_self⟩
      rintro rfl
      exact hc rfl
    · exact ih (List.mem_cons_of_mem _ h)

theorem not_mem_cleanLines {s line : Text} (h : line ∈ cleanLines s) : '\n' ∉ line := by
  obtain ⟨l, hl, rfl⟩ := List.mem_map.mp h
  intro hfeed
  refine not_mem_lines (List.mem_filter.mp hl).1 ?_
  rw [trimRight, List.mem_reverse] at hfeed
  exact List.mem_reverse.mp ((List.dropWhile_sublist _).mem hfeed)

theorem feeds_line {line : Text} (h : '\n' ∉ line) : feeds line = [line] := by
  induction line with
  | nil => rfl
  | cons c line ih =>
    rw [List.mem_cons, not_or] at h
    rw [feeds, if_neg (Ne.symm h.1), ih h.2]

theorem feeds_append {line : Text} (h : '\n' ∉ line) (s : Text) :
    feeds (line ++ '\n' :: s) = line :: feeds s := by
  induction line with
  | nil => exact if_pos rfl
  | cons c line ih =>
    rw [List.mem_cons, not_or] at h
    rw [List.cons_append, feeds, if_neg (Ne.symm h.1), ih h.2]

theorem feeds_join {line : Text} {lines : List Text} (h : ∀ l ∈ line :: lines, '\n' ∉ l) :
    feeds (join "\n" (line :: lines)) = line :: lines := by
  induction lines generalizing line with
  | nil =>
    rw [join, List.intercalate_singleton]
    exact feeds_line (h line List.mem_cons_self)
  | cons next lines ih =>
    obtain ⟨hline, hlines⟩ := List.forall_mem_cons.mp h
    rw [join_cons_begun, begun_cons, feeds_append hline, ih hlines]

theorem feeds_cleanText {sql : Text} (h : cleanLines sql ≠ []) :
    feeds (cleanText sql) = cleanLines sql := by
  rw [show cleanText sql = join "\n" (cleanLines sql) from rfl]
  cases hlines : cleanLines sql with
  | nil => exact absurd hlines h
  | cons line lines => exact feeds_join fun l hl => not_mem_cleanLines (hlines ▸ hl)

end Text

/-! ## 2. Segments -/

namespace Segment

/-- The delimiter behind lines that are read with a delimiter. -/
def delimiterAfter (delimiter : Option Text) (lines : List Text) : Option Text :=
  lines.foldl (fun delimiter line => (turn? delimiter line).getD delimiter) delimiter

theorem exists_ofLines (delimiter : Option Text) (lines : List Text) :
    ∃ first rest, ofLines delimiter lines = ⟨delimiter, first⟩ :: rest := by
  rcases ofLines_cases delimiter lines with ⟨-, h⟩ | ⟨front, _, _, _, -, -, -, h⟩
  · exact ⟨lines, [], h⟩
  · exact ⟨front, _, h⟩

/-- Where two lists of lines are put together, the last segment of the first list goes on with the
first segment of the second. -/
theorem ofLines_append (delimiter : Option Text) (lines more : List Text) :
    ∃ front last first rest,
      ofLines delimiter lines = front ++ [⟨delimiterAfter delimiter lines, last⟩] ∧
      ofLines (delimiterAfter delimiter lines) more =
        ⟨delimiterAfter delimiter lines, first⟩ :: rest ∧
      ofLines delimiter (lines ++ more) =
        front ++ ⟨delimiterAfter delimiter lines, last ++ first⟩ :: rest := by
  induction lines generalizing delimiter with
  | nil =>
    obtain ⟨first, rest, h⟩ := exists_ofLines delimiter more
    exact ⟨[], [], first, rest, rfl, h, h⟩
  | cons line lines ih =>
    rw [List.cons_append, ofLines_cons, ofLines_cons, delimiterAfter, List.foldl_cons,
      ← delimiterAfter]
    cases turn? delimiter line with
    | some next =>
      obtain ⟨front, last, first, rest, hlines, hmore, hall⟩ := ih next
      refine ⟨⟨delimiter, []⟩ :: front, last, first, rest, ?_, hmore, ?_⟩
      · exact congrArg (_ :: ·) hlines
      · exact congrArg (_ :: ·) hall
    | none =>
      obtain ⟨front, last, first, rest, hlines, hmore, hall⟩ := ih delimiter
      rw [Option.getD_none]
      dsimp only
      rw [hlines, hall]
      cases front with
      | nil => exact ⟨[], line :: last, first, rest, rfl, hmore, rfl⟩
      | cons s front => exact ⟨extend line (s :: front), last, first, rest, rfl, hmore, rfl⟩

/-- A line that ends no segment, between two lists of lines outside regions, makes one segment of the
last of the first list and the first of the second. -/
theorem ofLines_seam {lines : List Text} (h : delimiterAfter none lines = none) (line : Text)
    (hline : turn? none line = none) (more : List Text) :
    ∃ front last first rest, ofLines none lines = front ++ [⟨none, last⟩] ∧
      ofLines none more = ⟨none, first⟩ :: rest ∧
      ofLines none (lines ++ line :: more) = front ++ ⟨none, last ++ line :: first⟩ :: rest := by
  obtain ⟨front, last, seam, rest, hlines, hmore, hall⟩ := ofLines_append none lines (line :: more)
  obtain ⟨first, rest', hfirst⟩ := exists_ofLines none more
  rw [h] at hlines hmore hall
  rw [ofLines_cons, hline, hfirst] at hmore
  cases hmore
  exact ⟨front, last, first, rest, hlines, hfirst, hall⟩

/-- The tokens that lines declare, in order. -/
def declared (lines : List Text) : List Text := lines.filterMap Delimiter.declared?

-- No region is open behind lines whose last directive, if there is one, declares the semicolon.
theorem delimiterAfter_eq_none {lines : List Text}
    (h : ∀ token, (declared lines).getLast? = some token → token = [';']) :
    delimiterAfter none lines = none := by
  induction lines using List.reverseRecOn with
  | nil => rfl
  | append_singleton lines line ih =>
    rw [declared, List.filterMap_append, ← declared] at h
    rw [delimiterAfter, List.foldl_concat, ← delimiterAfter]
    cases hline : Delimiter.declared? line with
    | none =>
      rw [List.filterMap_cons_none hline, List.filterMap_nil, List.append_nil] at h
      rw [ih h, turn?, hline]
      rfl
    | some token =>
      rw [List.filterMap_cons_some hline, List.filterMap_nil, List.getLast?_concat] at h
      rw [turn?, hline, Option.bind_some, if_pos (h token rfl)]
      cases delimiterAfter none lines <;> rfl

theorem delimiterAfter_cleanLines {sql : Text}
    (closed : ∀ token, (declared (Text.feeds (cleanText sql))).getLast? = some token →
      token = [';']) : delimiterAfter none (Text.cleanLines sql) = none := by
  by_cases hlines : Text.cleanLines sql = []
  · rw [hlines]
    rfl
  · exact delimiterAfter_eq_none (Text.feeds_cleanText hlines ▸ closed)

/-- The clean lines fall into the same segments as the clean text. -/
theorem split_eq_cleanLines (account : Account) (sql : Text) : Statement.split account sql =
    ((ofLines none (Text.cleanLines sql)).mapM (read account)).map List.flatten := by
  rw [split_eq, split]
  by_cases hlines : Text.cleanLines sql = []
  · rw [show cleanText sql = Text.join "\n" (Text.cleanLines sql) from rfl, hlines]
    rfl
  · rw [Text.feeds_cleanText hlines]

/-- What follows the last region of a text, or stands in it if it is open. -/
def lastText (text : Text) : Text := ((split text).getLast?.map Segment.text).getD []

theorem lastText_cleanText {sql : Text} {front : List Segment} {delimiter : Option Text}
    {last : List Text} (h : ofLines none (Text.cleanLines sql) = front ++ [⟨delimiter, last⟩]) :
    lastText (cleanText sql) = Text.join "\n" last := by
  by_cases hlines : Text.cleanLines sql = []
  · have hlast : last = [] := by
      have := congrArg List.getLast? (hlines ▸ h)
      rw [List.getLast?_concat] at this
      exact (congrArg Segment.lines (Option.some.inj this)).symm
    rw [hlast, show cleanText sql = Text.join "\n" (Text.cleanLines sql) from rfl, hlines]
    rfl
  · rw [lastText, split, Text.feeds_cleanText hlines, h, List.getLast?_concat]
    rfl

/-! ## 3. Pieces -/

open Quoting (outside)

-- A character behind a text that cannot be cut at it is behind its last piece.
theorem plainPieces_concat {c : Char} (hc : c ≠ ';') (q : Quoting) (s : Text) :
    ∃ front last, plainPieces q s = front ++ [last] ∧
      plainPieces q (s ++ [c]) = front ++ [last ++ [c]] := by
  induction s generalizing q with
  | nil =>
    refine ⟨[], [], rfl, ?_⟩
    rw [List.nil_append, plainPieces_cons, if_neg fun h => hc h.2]
    rfl
  | cons d s ih =>
    rw [List.cons_append, plainPieces_cons, plainPieces_cons]
    split
    · obtain ⟨front, last, hs, hconcat⟩ := ih q
      rw [hs, hconcat]
      exact ⟨[] :: front, last, rfl, rfl⟩
    · obtain ⟨front, last, hs, hconcat⟩ := ih (q.step d)
      rw [hs, hconcat]
      cases front with
      | nil => exact ⟨[], d :: last, rfl, rfl⟩
      | cons piece front => exact ⟨(d :: piece) :: front, last, rfl, rfl⟩

theorem ne_semicolon_of_isBlank {c : Char} (h : isBlank c = true) : c ≠ ';' :=
  ne_of_isBlank h (by decide)

theorem texts_concat_blank {c : Char} (h : isBlank c = true) (s : Text) :
    texts none (s ++ [c]) = texts none s := by
  obtain ⟨front, last, hs, hconcat⟩ := plainPieces_concat (ne_semicolon_of_isBlank h) outside s
  rw [texts, texts, cut, cut, hs, hconcat, List.map_append, List.map_append, List.map_singleton,
    List.map_singleton, Text.trim_concat_blank h]

theorem texts_cons_blank {c : Char} (h : isBlank c = true) (s : Text) :
    texts none (c :: s) = texts none s := by
  have hpieces : plainPieces outside (c :: s) = Nesting.extend c (plainPieces outside s) := by
    rw [plainPieces_cons, if_neg fun hc => ne_semicolon_of_isBlank h hc.2, Quoting.step_blank h]
  rw [texts, texts, cut, cut, hpieces]
  cases hs : plainPieces outside s with
  | nil => exact absurd hs (Nesting.rawPieces_ne_nil _ _ _)
  | cons first rest =>
    have htrim : Text.trim (c :: first) = Text.trim first := by
      rw [Text.trim, Text.trimLeft_cons_blank h, Text.trim]
    rw [Nesting.extend, List.map_cons, List.map_cons, htrim]

theorem texts_begun (lines : List Text) :
    texts none (Text.begun lines) = texts none (Text.join "\n" lines) := by
  cases lines with
  | nil => rfl
  | cons line lines => rw [Text.begun_cons, texts_cons_blank (c := '\n') (by decide)]

theorem texts_ended (lines : List Text) :
    texts none (Text.ended lines) = texts none (Text.join "\n" lines) := by
  cases lines with
  | nil => rfl
  | cons line lines =>
    rw [Text.ended_eq (List.cons_ne_nil _ _), texts_concat_blank (c := '\n') (by decide)]

variable {lines : List Text}

theorem after_ended (h : outside.after (Text.join "\n" lines) = outside) :
    outside.after (Text.ended lines) = outside := by
  cases lines with
  | nil => rfl
  | cons line lines =>
    rw [Text.ended_eq (List.cons_ne_nil _ _), Quoting.after_append, h]
    exact Quoting.step_blank (c := '\n') (by decide)

/-- A semicolon on a line of its own ends a statement if the lines before it leave no quote open. -/
theorem texts_append (h : outside.after (Text.join "\n" lines) = outside) (more : List Text) :
    texts none (Text.join "\n" (lines ++ [';'] :: more)) =
      texts none (Text.join "\n" lines) ++ texts none (Text.join "\n" more) := by
  rw [← texts_ended lines, ← texts_begun more, Text.join_append_cons, List.singleton_append, texts,
    cut, plainPieces_append (after_ended h), List.map_append, List.filter_append]
  rfl

/-- Where a text has the texts of two others, it has their statements. -/
theorem read_split (account : Account) {lines first last : List Text}
    (h : texts none (Text.join "\n" lines) =
      texts none (Text.join "\n" first) ++ texts none (Text.join "\n" last)) :
    read account ⟨none, lines⟩ = do
      return (← read account ⟨none, first⟩) ++ (← read account ⟨none, last⟩) := by
  rw [read_plain, read_plain, read_plain, h, List.mapM_append]

/-- Then so have the segments around them, one after the other. -/
theorem mapM_split (account : Account) {lines first last : List Text}
    (h : texts none (Text.join "\n" lines) =
      texts none (Text.join "\n" first) ++ texts none (Text.join "\n" last))
    (front rest : List Segment) :
    ((front ++ mk none lines :: rest).mapM (read account)).map List.flatten = do
      return (← ((front ++ [mk none first]).mapM (read account)).map List.flatten) ++
        (← ((mk none last :: rest).mapM (read account)).map List.flatten) := by
  rw [List.mapM_append, List.mapM_append, List.mapM_cons, List.mapM_cons, List.mapM_cons,
    List.mapM_nil, read_split account h]
  cases front.mapM (read account) with
  | error e => rfl
  | ok fronts =>
    cases read account ⟨none, first⟩ with
    | error e => rfl
    | ok firsts =>
      cases read account ⟨none, last⟩ with
      | error e => rfl
      | ok lasts =>
        cases rest.mapM (read account) with
        | error e => rfl
        | ok rests =>
          refine congrArg Except.ok ?_
          simp

-- One segment after the other, those before the seam first.
theorem mapM_seam (account : Account) (h : outside.after (Text.join "\n" lines) = outside)
    (more : List Text) (front rest : List Segment) :
    ((front ++ mk none (lines ++ [';'] :: more) :: rest).mapM (read account)).map List.flatten = do
      return (← ((front ++ [mk none lines]).mapM (read account)).map List.flatten) ++
        (← ((mk none more :: rest).mapM (read account)).map List.flatten) :=
  mapM_split account (texts_append h more) front rest

end Segment

/-! ## 4. Statements -/

namespace Statement

/-- **Splitting is compositional.** Between two texts, the first of which leaves neither a region
nor a quote open, stands a semicolon on a line of its own. Then the statements, given to any account,
are those of the first text followed by those of the second, and what cannot be read in one of them
cannot be read in both together. -/
theorem split_append (account : Account) (first second : Text)
    (closed : ∀ token, (Segment.declared (Text.feeds (cleanText first))).getLast? = some token →
      token = [';'])
    (unquoted : Quoting.outside.after (Segment.lastText (cleanText first)) = .outside) :
    split account (first ++ "\n;\n" ++ second) = do
      return (← split account first) ++ (← split account second) := by
  -- the semicolon's line falls into the segment that goes on across the seam
  obtain ⟨front, last, next, rest, hfirst, hsecond, hall⟩ := Segment.ofLines_seam
    (Segment.delimiterAfter_cleanLines closed) [';'] rfl (Text.cleanLines second)
  rw [Segment.lastText_cleanText hfirst] at unquoted
  rw [Segment.split_eq_cleanLines, Segment.split_eq_cleanLines, Segment.split_eq_cleanLines,
    Text.cleanLines_seam, hall, hfirst, hsecond]
  exact Segment.mapM_seam account unquoted next front rest

/-- A region and quoted semicolons before the seam, a comment behind it. -/
theorem split_append_region :
    let first : Text := "DELIMITER ;;\nCREATE DEFINER=`a`@`b` TRIGGER t; END ;;\nDELIMITER ;" ++
      "\nSET x = ';'"
    let second : Text := "-- y\nDROP TABLE z"
    (Segment.declared (Text.feeds (cleanText first))).getLast? = some [';'] ∧
      Quoting.outside.after (Segment.lastText (cleanText first)) = .outside ∧
      split ⟨"u", "h"⟩ (first ++ "\n;\n" ++ second) = do
        return (← split ⟨"u", "h"⟩ first) ++ (← split ⟨"u", "h"⟩ second) := by
  intro first second
  have closed : (Segment.declared (Text.feeds (cleanText first))).getLast? = some [';'] := by
    decide +kernel
  have unquoted : Quoting.outside.after (Segment.lastText (cleanText first)) = .outside := by
    decide +kernel
  exact ⟨closed, unquoted, split_append ⟨"u", "h"⟩ first second
    (fun token h => Option.some.inj (h.symm.trans closed)) unquoted⟩

end Statement

end SqlDump
