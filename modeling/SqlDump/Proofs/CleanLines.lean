import SqlDump.Dump
import SqlDump.Proofs.Cleaning

/-!
# Clean texts cleaned again

Breaks tell the lines of a text. Cleaning keeps the lines that are neither blank nor comments,
without the blanks at their ends. What is kept of a line holds no break, and between two lines there
is only the line feed that is put there, so a clean text has these lines. They are clean themselves,
and cleaning them again changes nothing.
-/

namespace SqlDump

namespace Text

/-! ## 1. Lines and breaks -/

/-- A text and the lines between its breaks. A carriage return and a line feed make one break, and
a break at the end opens no further line. -/
inductive Breaks : Text → List Text → Prop
  | nil : Breaks [] []
  | last {line : Text} (hne : line ≠ []) (hline : ∀ c ∈ line, isLineBreak c = false) :
    Breaks line [line]
  | pair {line rest : Text} {ls : List Text} (hline : ∀ c ∈ line, isLineBreak c = false)
    (hrest : Breaks rest ls) : Breaks (line ++ '\r' :: '\n' :: rest) (line :: ls)
  | single {line rest : Text} {c : Char} {ls : List Text}
    (hline : ∀ c ∈ line, isLineBreak c = false) (hc : isLineBreak c = true)
    (hpair : ¬ (c = '\r' ∧ rest.head? = some '\n')) (hrest : Breaks rest ls) :
    Breaks (line ++ c :: rest) (line :: ls)

namespace Breaks

variable {s : Text} {ls : List Text}

theorem unbroken (h : Breaks s ls) : ∀ line ∈ ls, ∀ c ∈ line, isLineBreak c = false := by
  induction h with
  | nil => exact fun _ hmem => (List.not_mem_nil hmem).elim
  | last hne hline => exact List.forall_mem_singleton.mpr hline
  | pair hline _ ih | single hline _ _ _ ih => exact List.forall_mem_cons.mpr ⟨hline, ih⟩

theorem cons (h : Breaks s ls) {c : Char} (hc : isLineBreak c = false) :
    Breaks (c :: s) (Nesting.extend c ls) := by
  have hcons : ∀ line : Text, (∀ d ∈ line, isLineBreak d = false) →
      ∀ d ∈ c :: line, isLineBreak d = false :=
    fun line hline => List.forall_mem_cons.mpr ⟨hc, hline⟩
  cases h with
  | nil => exact last (List.cons_ne_nil c []) (hcons [] fun _ hmem => (List.not_mem_nil hmem).elim)
  | last hne hline => exact last (List.cons_ne_nil c _) (hcons _ hline)
  | pair hline hrest => exact pair (hcons _ hline) hrest
  | single hline hbreak hpair hrest => exact single (hcons _ hline) hbreak hpair hrest

theorem lines_eq (h : Breaks s ls) : lines s = ls := by
  induction h with
  | nil => rfl
  | last hne hline => exact lines_line hne hline
  | pair hline _ ih => exact lines_line_break hline (congrArg ([] :: ·) ih)
  | single hline hc hpair _ ih =>
    refine lines_line_break hline ?_
    rw [lines_cons_break hc fun hcr r' hr => hpair ⟨hcr, by rw [hr]; rfl⟩, ih]

end Breaks

theorem breaks_lines (s : Text) : Breaks s (lines s) := by
  have hempty : ∀ c ∈ ([] : Text), isLineBreak c = false := fun _ hmem =>
    (List.not_mem_nil hmem).elim
  fun_induction lines s with
  | case1 => exact Breaks.nil
  | case2 r ih => exact Breaks.pair hempty ih
  | case3 c r hreturn hc ih =>
    refine Breaks.single hempty hc ?_ ih
    rintro ⟨hcr, hr⟩
    obtain ⟨r', hr⟩ := List.head?_eq_some_iff.mp hr
    exact hreturn r' hcr hr
  | case4 c r _ hc hr ih => exact hr ▸ ih |>.cons (by simpa using hc)
  | case5 c r _ hc l ls hr ih => exact hr ▸ ih |>.cons (by simpa using hc)

/-- A text breaks into its lines, and into no others. -/
theorem breaks_iff {s : Text} {ls : List Text} : Breaks s ls ↔ ls = lines s :=
  ⟨fun h => h.lines_eq.symm, fun h => h ▸ breaks_lines s⟩

/-! ## 2. The lines of a clean text -/

/-- Lines that are not empty, with line feeds between them, break into these lines. -/
theorem breaks_join {ls : List Text} (hne : ∀ line ∈ ls, line ≠ [])
    (hls : ∀ line ∈ ls, ∀ c ∈ line, isLineBreak c = false) : Breaks (join "\n" ls) ls := by
  induction ls with
  | nil => exact Breaks.nil
  | cons line ls ih =>
    obtain ⟨hfirst, hne⟩ := List.forall_mem_cons.mp hne
    obtain ⟨hline, hls⟩ := List.forall_mem_cons.mp hls
    cases ls with
    | nil =>
      rw [join, List.intercalate_singleton]
      exact Breaks.last hfirst hline
    | cons next ls =>
      rw [join_cons_begun, begun_cons]
      exact Breaks.single hline (by decide) (fun h => absurd h.1 (by decide)) (ih hne hls)

-- A clean line without the blanks at its end is clean.
theorem isClean_trimRight {line : Text} (h : isClean line = true) :
    isClean (trimRight line) = true := by
  obtain ⟨hblank, hcomment⟩ := isClean_iff.mp h
  exact isClean_iff.mpr
    ⟨(endsSolid_trimRight hblank).not_allBlank, not_isComment_trimRight hcomment⟩

/-- What a clean text is made of is kept, is trimmed already, and holds no break. -/
theorem of_mem_cleanLines {s line : Text} (h : line ∈ cleanLines s) :
    isClean line = true ∧ EndsSolid line ∧ ∀ c ∈ line, isLineBreak c = false := by
  obtain ⟨l, hl, rfl⟩ := List.mem_map.mp h
  obtain ⟨hlines, hclean⟩ := List.mem_filter.mp hl
  exact ⟨isClean_trimRight hclean, endsSolid_trimRight (isClean_iff.mp hclean).1,
    not_isLineBreak_trimRight ((breaks_lines s).unbroken l hlines)⟩

theorem breaks_cleanText (s : Text) : Breaks (cleanText s) (cleanLines s) := by
  refine breaks_join (fun line hline => ?_) fun line hline => (of_mem_cleanLines hline).2.2
  obtain ⟨-, ⟨front, d, rfl, -⟩, -⟩ := of_mem_cleanLines hline
  simp

/-- A clean text is made of the same clean lines. -/
theorem cleanLines_cleanText (s : Text) : cleanLines (cleanText s) = cleanLines s := by
  have hall : ∀ line ∈ cleanLines s, isClean line = true := fun line hline =>
    (of_mem_cleanLines hline).1
  have htrim : ∀ line ∈ cleanLines s, trimRight line = line := fun line hline =>
    (of_mem_cleanLines hline).2.1.trimRight
  rw [cleanLines, (breaks_cleanText s).lines_eq, List.filter_eq_self.mpr hall,
    List.map_congr_left htrim, List.map_id']

theorem cleanText_cleanText (s : Text) : cleanText (cleanText s) = cleanText s :=
  congrArg (join "\n") (cleanLines_cleanText s)

/-! ## 3. Statements and dumps -/

/-- **Cleaning once is enough.** A clean text is left alone. Its lines are those of the text that
are neither blank nor comments, in their order and without the blanks at their ends. It has the same
statements, in regions and outside, and the same dump, given to any account. -/
theorem cleanText_once (text : Text) :
    cleanText (cleanText text) = cleanText text ∧
    (∃ ls, (∀ l, Breaks text l ↔ l = ls) ∧ ∀ l, Breaks (cleanText text) l ↔
      l = (ls.filter fun line => !allBlank line && !isComment line).map trimRight) ∧
    ∀ account : Account, Statement.split account (cleanText text) = Statement.split account text ∧
      Statement.inRegions account (cleanText text) = Statement.inRegions account text ∧
      Dump.parse account (cleanText text) = Dump.parse account text := by
  have hclean := cleanText_cleanText text
  have hsplit : ∀ account : Account,
      Statement.split account (cleanText text) = Statement.split account text := by
    intro account
    rw [Statement.split, hclean]
    rfl
  refine ⟨hclean, ⟨lines text, fun l => breaks_iff, fun l => ?_⟩,
    fun account => ⟨hsplit account, ?_, ?_⟩⟩
  · rw [breaks_iff, (breaks_cleanText text).lines_eq]
    rfl
  · rw [Statement.inRegions, hclean]
    rfl
  · rw [Dump.parse, hsplit account]
    rfl

/-- Four kinds of breaks, a comment, an empty line, and a separator that breaks nothing. -/
theorem cleanText_once_breaks :
    let text : Text := "a \r\n\t-- b\x1c\x0b c\u2028  d\x1f"
    let clean : Text := "a\n c\n  d"
    Breaks text ["a ".toList, "\t-- b".toList, [], " c".toList, "  d\x1f".toList] ∧
      cleanText text = clean ∧ cleanText clean = clean ∧
      Breaks clean ["a".toList, " c".toList, "  d".toList] := by
  intro text clean
  have hclean : cleanText text = clean := by decide +kernel
  obtain ⟨hagain, ⟨ls, hls, hlines⟩, -⟩ := cleanText_once text
  rw [hclean] at hagain hlines
  have hbreaks : Breaks text ["a ".toList, "\t-- b".toList, [], " c".toList, "  d\x1f".toList] :=
    breaks_iff.mpr (by decide +kernel)
  refine ⟨hbreaks, hclean, hagain, (hlines _).mpr ?_⟩
  rw [← (hls _).mp hbreaks]
  decide +kernel

end Text

end SqlDump
