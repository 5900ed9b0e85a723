import SqlDump.Proofs.PlainTexts

/-!
# Strings through the splitter

An INSERT statement that a semicolon ends is split off as one statement. The lines of its strings
are cleaned like all others, so the strings come through exactly if cleaning leaves each of them
alone.
-/

namespace SqlDump

/-! ## 1. Strings of a closed text -/

namespace Quoting

open Text (EndsSolid isComment)

theorem not_isBlank_of_isQuoteMark {c : Char} (h : isQuoteMark c = true) : isBlank c = false := by
  by_contra hc
  rw [Bool.not_eq_false] at hc
  rw [not_isQuoteMark_of_isBlank hc] at h
  cases h

theorem Whole.starts {l : Text} (h : Whole l) :
    ∃ mark r, l = mark :: r ∧ isQuoteMark mark = true := by
  obtain ⟨hmark, -⟩ := h
  exact ⟨_, _, rfl, hmark⟩

theorem Whole.endsSolid {l : Text} (h : Whole l) : EndsSolid l := by
  cases h with
  | @intro mark u hmark _ =>
    exact ⟨mark :: u, mark, rfl, not_isBlank_of_isQuoteMark hmark⟩

theorem Whole.not_isComment {l : Text} (h : Whole l) : isComment l = false := by
  obtain ⟨mark, r, rfl, hmark⟩ := h.starts
  refine Text.not_isComment_cons (not_isBlank_of_isQuoteMark hmark) ?_ r
  rintro rfl
  exact absurd hmark (by decide)

theorem whole_of_mem_strings {s l : Text} (closed : outside.after s = outside)
    (h : l ∈ strings s) : Whole l := by
  induction s using byStrings with
  | unclosed s hopen => exact absurd closed hopen
  | last plain hplain =>
    have hnone := stringsFrom_plain hplain []
    rw [List.append_nil] at hnone
    rw [strings, hnone] at h
    cases h
  | step plain first rest hplain hfirst ih =>
    rw [after_append, after_plain hplain, after_append, hfirst.after] at closed
    rw [strings, stringsFrom_plain hplain, hfirst.strings_append] at h
    rcases List.mem_cons.mp h with rfl | h
    · exact hfirst
    · exact ih closed h

/-- Whether no line that starts outside quotes, behind a break, is a comment. -/
def Uncommented (q : Quoting) (s : Text) : Prop := ∀ before c line, s = before ++ c :: line →
  isLineBreak c = true → q.after before = outside → isComment line = false

theorem uncommented_cons {q : Quoting} {c : Char} {s : Text} : Uncommented q (c :: s) ↔
    (isLineBreak c = true → q = outside → isComment s = false) ∧ Uncommented (q.step c) s := by
  refine ⟨fun h => ⟨h [] c s rfl, fun before d line hs => h (c :: before) d line (hs ▸ rfl)⟩, ?_⟩
  rintro ⟨hfirst, hrest⟩ before d line hs hd hout
  cases before with
  | nil =>
    obtain ⟨rfl, rfl⟩ := List.cons.inj hs
    exact hfirst hd hout
  | cons e before =>
    obtain ⟨rfl, hrest'⟩ := List.cons.inj hs
    exact hrest before d line hrest' hd hout

instance decidableUncommented : (q : Quoting) → (s : Text) → Decidable (q.Uncommented s)
  | _, [] => isTrue fun before c line e => by simp at e
  | q, c :: s =>
    have := decidableUncommented (q.step c) s
    decidable_of_iff _ uncommented_cons.symm

/-- Cleaning touches no string if it leaves each of them alone. -/
theorem spared_of_strings {s : Text} (closed : outside.after s = outside)
    (uncommented : outside.Uncommented s) (kept : ∀ l ∈ strings s, cleanText l = l) :
    Spared outside s := by
  intro before c behind hs hc
  by_cases hout : outside.after before = outside
  · exact ⟨uncommented before c behind hs hc hout, fun h => absurd hout h⟩
  have hplain : isQuoteMark c = false := not_isQuoteMark_of_isBlank (Text.isBlank_of_isLineBreak hc)
  obtain ⟨front, u, v, mark, tail, rfl, rfl, hmark, hmem⟩ := exists_mem_strings hs closed hout hplain
  obtain ⟨hfeed, hsolid, hcomment⟩ :=
    (kept _ hmem ▸ Text.tidy_cleanText _) u c (v ++ [mark]) rfl hc
  refine ⟨Text.not_isComment_append ?_ hcomment fun w r hw _ => ?_,
    fun _ => ⟨hfeed, hsolid.append front⟩⟩
  · exact EndsSolid.not_allBlank ⟨v, mark, rfl, not_isBlank_of_isQuoteMark hmark⟩
  · rw [(List.cons.inj (List.append_inj' hw rfl).2).1] at hmark
    exact absurd hmark (by decide)

end Quoting

/-! ## 2. The keyword of a statement -/

namespace Text

theorem word_trimRight (s : Text) : (trimRight s).takeWhile isWord = s.takeWhile isWord := by
  obtain ⟨tail, hs, htail⟩ := exists_trimRight s
  conv_rhs => rw [hs]
  refine (takeWhile_append_stop ?_ _).symm
  rintro c r rfl
  exact not_isWord_of_isBlank (htail c List.mem_cons_self)

theorem isClean_of_word {line : Text} (h : line.takeWhile isWord ≠ []) : isClean line = true := by
  cases line with
  | nil => exact absurd rfl h
  | cons c line =>
    have hc : isWord c = true := by
      by_contra hc
      exact h (List.takeWhile_cons_of_neg hc)
    have hsolid := not_isBlank_of_isWord hc
    refine isClean_iff.mpr ⟨by simp [allBlank, hsolid], not_isComment_cons hsolid ?_ line⟩
    rintro rfl
    exact absurd hc (by decide)

theorem trim_of_word {s : Text} (h : s.takeWhile isWord ≠ []) : trim s = trimRight s := by
  cases s with
  | nil => exact absurd rfl h
  | cons c s =>
    have hc : isWord c = true := by
      by_contra hc
      exact h (List.takeWhile_cons_of_neg hc)
    rw [trim, trimLeft_cons (not_isBlank_of_isWord hc)]

/-- Cleaning keeps the word that a text starts with. -/
theorem word_cleanText {s : Text} (h : s.takeWhile isWord ≠ []) :
    (cleanText s).takeWhile isWord = s.takeWhile isWord := by
  induction s using byLines with
  | last line hline => rw [cleanText_line hline, if_pos (isClean_of_word h), word_trimRight]
  | step line c rest hline hc _ =>
    have hstop : ∀ d r, c :: rest = d :: r → isWord d = false := by
      rintro d r ⟨⟩
      exact not_isWord_of_isBlank (isBlank_of_isLineBreak hc)
    rw [takeWhile_append_stop hstop] at h ⊢
    rw [cleanText_break hline hc, if_pos (isClean_of_word h), takeWhile_append_stop, word_trimRight]
    intro d r hd
    rcases begun_eq (cleanLines rest) with h | h <;> rw [h] at hd <;> cases hd
    decide

end Text

/-! ## 3. One statement -/

namespace Quoting

theorem stringsFrom_append {q : Quoting} {s : Text} (closed : q.after s = outside) (t : Text) :
    stringsFrom q (s ++ t) = stringsFrom q s ++ stringsFrom outside t := by
  induction s generalizing q with
  | nil =>
    obtain rfl : q = outside := closed
    rfl
  | cons c s ih =>
    rw [List.cons_append, stringsFrom, stringsFrom]
    split
    · rename_i hstep
      rw [ih (hstep ▸ closed), List.append_assoc]
    · rename_i hstep
      obtain ⟨first, more, hs, -⟩ := stringsFrom_open hstep s
      rw [ih closed, hs]
      rfl

end Quoting

namespace Statement

open Quoting (outside strings)
open Segment (texts)

theorem classify_insert {text : Text} (h : Text.upper (text.takeWhile isWord) = "INSERT") :
    classify text = .ok (ofKind .insert text) :=
  if_pos h

section Kept

variable {q : Text} (closed : outside.after q = outside) (uncommented : outside.Uncommented q)
  (kept : ∀ l ∈ strings q, cleanText l = l)

include closed uncommented kept

theorem spared_of_kept : Quoting.Spared outside (q ++ [';']) := by
  have hclosed : outside.after (q ++ [';']) = outside := by
    rw [Quoting.after_append, closed]
    rfl
  have hstrings : strings (q ++ [';']) = strings q := by
    rw [strings, Quoting.stringsFrom_append closed]
    exact List.append_nil _
  refine Quoting.spared_of_strings hclosed (fun before c line hs hc hout => ?_) (hstrings ▸ kept)
  rcases List.eq_nil_or_concat line with rfl | ⟨line, d, rfl⟩
  · rw [← (List.cons.inj (List.append_inj' hs rfl).2).1] at hc
    exact absurd hc (by decide)
  · have hq : q ++ [';'] = before ++ c :: line ++ [d] := by simp [hs]
    obtain ⟨rfl, hd⟩ := List.append_inj' hq rfl
    rw [List.concat_eq_append, ← (List.cons.inj hd).1]
    exact Text.not_isComment_concat (uncommented before c line rfl hc hout) (by decide)

theorem dense_cleanText_kept (word : q.takeWhile isWord ≠ []) :
    outside.dense (cleanText (q ++ [';'])) = outside.dense q ++ [';'] := by
  have hclosed : outside.after (q ++ [';']) = outside := by
    rw [Quoting.after_append, closed]
    rfl
  have hcomment : Text.isComment (q ++ [';']) = false :=
    Text.not_isComment_concat (Text.isClean_iff.mp (Text.isClean_of_word word)).2 (by decide)
  rw [Quoting.dense_cleanText (q := outside) trivial hclosed hcomment
    (spared_of_kept closed uncommented kept), Quoting.dense_append, closed]
  rfl

-- The texts before and after cleaning have their first semicolon at the same place.
theorem exists_cleanText_kept (word : q.takeWhile isWord ≠ []) (uncut : outside.Uncut q) :
    ∃ u v, cleanText (q ++ [';']) = u ++ ';' :: v ∧ outside.Uncut u ∧ outside.after u = outside ∧
      outside.dense u = outside.dense q ∧ outside.dense v = [] := by
  have hdense := dense_cleanText_kept closed uncommented kept word
  have hend : outside.after (outside.dense q) = outside := by rw [Quoting.after_dense, closed]
  rcases Segment.plainPieces_cases outside (cleanText (q ++ [';'])) with
    ⟨huncut, -⟩ | ⟨u, v, hs, hu, hout, -⟩
  · exact absurd hend ((Quoting.uncut_dense _ _).mpr huncut _ _ hdense)
  · rw [hs, Quoting.dense_append, hout] at hdense
    obtain ⟨hdu, hdv⟩ := Quoting.Uncut.unique ((Quoting.uncut_dense _ _).mpr hu)
      ((Quoting.uncut_dense _ _).mpr uncut) (by rw [Quoting.after_dense, hout]) hend hdense
    exact ⟨u, v, hs, hu, hout, hdu, hdv⟩

end Kept

-- Cleaning keeps the first word, and a semicolon ends it.
theorem takeWhile_of_cleanText {q u v : Text} (word : q.takeWhile isWord ≠ [])
    (hs : cleanText (q ++ [';']) = u ++ ';' :: v) : u.takeWhile isWord = q.takeWhile isWord := by
  have hstop : ∀ r c t, ';' :: r = c :: t → isWord c = false := by
    rintro r c t ⟨⟩
    decide
  have hq : (q ++ [';']).takeWhile isWord = q.takeWhile isWord :=
    Text.takeWhile_append_stop (hstop []) q
  have hclean := Text.word_cleanText (s := q ++ [';']) (hq.symm ▸ word)
  rw [hs, Text.takeWhile_append_stop (hstop v), hq] at hclean
  exact hclean

/-- Strings that cleaning leaves alone come through. -/
theorem texts_of_kept {q : Text} (word : q.takeWhile isWord ≠ [])
    (closed : outside.after q = outside) (uncut : outside.Uncut q)
    (uncommented : outside.Uncommented q)
    (kept : ∀ l ∈ strings q, cleanText l = l) :
    ∃ text, texts none (cleanText (q ++ [';'])) = [text] ∧
      text.takeWhile isWord = q.takeWhile isWord ∧ strings text = strings q := by
  obtain ⟨u, v, hs, hu, hout, hdu, hdv⟩ := exists_cleanText_kept closed uncommented kept word uncut
  have hword := takeWhile_of_cleanText word hs
  have htrim : (Text.trim u).takeWhile isWord = q.takeWhile isWord := by
    rw [Text.trim_of_word (hword ▸ word), Text.word_trimRight, hword]
  refine ⟨Text.trim u, ?_, htrim, ?_⟩
  · have hne : (Text.trim u).isEmpty = false := by
      cases htext : Text.trim u with
      | nil => exact absurd (htext ▸ htrim).symm word
      | cons c r => rfl
    rw [hs, Segment.texts_semicolon hout, Segment.texts_of_uncut hu,
      Segment.texts_blank (Quoting.blank_of_dense hdv), List.filter_cons_of_pos (by rw [hne]; rfl)]
    rfl
  · rw [strings, ← Quoting.stringsFrom_dense, Quoting.dense_trim hout, hdu,
      Quoting.stringsFrom_dense]
    rfl

/-- **String data through the splitter.** An INSERT statement whose quotes are closed, with no
semicolon and no comment line outside them and no directive, is split off as one statement with the
same strings exactly if cleaning leaves every one of its strings alone: if no line of a string is
blank, starts with two dashes or ends in blanks, and line feeds are the only breaks in it. -/
theorem split_insert_strings (account : Account) (q : Text)
    (insert : Text.upper (q.takeWhile isWord) = "INSERT")
    (closed : outside.after q = outside) (uncut : outside.Uncut q)
    (uncommented : outside.Uncommented q)
    (undeclared : Segment.declared (Text.feeds (cleanText q)) = []) :
    (∃ s, split account (q ++ ";") = .ok [s] ∧ s.kind = .insert ∧ strings s.text = strings q) ↔
      ∀ l ∈ strings q, cleanText l = l := by
  have word : q.takeWhile isWord ≠ [] := by
    intro hnil
    rw [hnil] at insert
    exact absurd insert (by decide)
  have hsplit : split account (q ++ ";") =
      (texts none (cleanText (q ++ [';']))).mapM (Segment.classify none) :=
    Segment.split_of_quiet account
      (Segment.quiet_concat fun _ => Segment.declared?_of_undeclared undeclared)
  rw [hsplit]
  constructor
  · rintro ⟨s, hs, -, hstrings⟩ l hl
    -- a string of the statement stands in the clean text, so it is as tidy
    have hmem : s.text ∈ texts none (cleanText (q ++ [';'])) := by
      rw [← Segment.texts_of_mapM hs]
      exact List.mem_singleton_self _
    obtain ⟨front, tail, hstands⟩ :=
      (Quoting.infix_of_mem_stringsFrom (hstrings ▸ hl)).trans (Segment.infix_of_mem_texts hmem)
    have whole := Quoting.whole_of_mem_strings closed hl
    refine Text.cleanText_eq_self ?_ whole.not_isComment whole.endsSolid
    refine Text.Tidy.middle (hstands ▸ Text.tidy_cleanText _) fun c r e => ?_
    obtain ⟨mark, r', rfl, hmark⟩ := whole.starts
    rw [← (List.cons.inj e).1]
    exact Text.not_isLineBreak_of_solid (Quoting.not_isBlank_of_isQuoteMark hmark)
  · intro kept
    obtain ⟨text, htexts, hword, hstrings⟩ := texts_of_kept word closed uncut uncommented kept
    refine ⟨ofKind .insert text, ?_, rfl, hstrings⟩
    have hclassify : Segment.classify none text = .ok (ofKind .insert text) :=
      classify_insert (hword ▸ insert)
    rw [htexts, List.mapM_cons, hclassify]
    rfl

/-- A string over two lines comes through with its semicolon; with a blank before the break it does
not. -/
theorem split_insert_strings_lines :
    let kept : Text := "INSERT INTO t VALUES ('a;\nb')"
    let cut : Text := "INSERT INTO t VALUES ('a \nb')"
    (∃ s, split {} (kept ++ ";") = .ok [s] ∧ s.kind = .insert ∧ strings s.text = strings kept) ∧
      ¬ ∃ s, split {} (cut ++ ";") = .ok [s] ∧ s.kind = .insert ∧ strings s.text = strings cut := by
  intro kept cut
  exact ⟨(split_insert_strings {} kept (by decide +kernel) (by decide +kernel) (by decide +kernel)
      (by decide +kernel) (by decide +kernel)).mpr (by decide +kernel),
    fun h => absurd ((split_insert_strings {} cut (by decide +kernel) (by decide +kernel)
      (by decide +kernel) (by decide +kernel) (by decide +kernel)).mp h) (by decide +kernel)⟩

end Statement

end SqlDump
