import SqlDump.Proofs.PlainTexts

/-!
# Comments behind statements

A comment on a line of its own is cleaned away. One that stands on the line of the semicolon before
it stays: it is the beginning of the statement behind that semicolon, which therefore is of no kind
that an import runs.
-/

namespace SqlDump

/-! ## 1. The last line -/

namespace Text

/-- What stands behind the last break. -/
def lastLine (s : Text) : Text := s.rtakeWhile (!isLineBreak ·)

theorem lastLine_line {line : Text} (hline : ∀ d ∈ line, isLineBreak d = false) :
    lastLine line = line :=
  List.rtakeWhile_eq_self_iff.mpr fun d hd => by simp [hline d hd]

theorem lastLine_break {c : Char} (hc : isLineBreak c = true) (line rest : Text) :
    lastLine (line ++ c :: rest) = lastLine rest := by
  have hreverse : (line ++ c :: rest).reverse = rest.reverse ++ c :: line.reverse := by simp
  rw [lastLine, List.rtakeWhile, hreverse, takeWhile_append_stop]
  · rfl
  · rintro d r ⟨⟩
    rw [hc]
    rfl

theorem unbroken_append {lead line : Text} (hlead : lead.all (!isLineBreak ·) = true)
    (hline : ∀ d ∈ line, isLineBreak d = false) : ∀ d ∈ lead ++ line, isLineBreak d = false :=
  List.forall_mem_append.mpr ⟨fun d hd => by simpa using List.all_eq_true.mp hlead d hd, hline⟩

/-- What goes on with a line that is no comment stays on it, up to the blanks at its end. -/
theorem cleanLines_trailing {s t : Text} {d : Char} (hd : isBlank d = false)
    (hcomment : isComment (lastLine (s ++ [d])) = false)
    (ht : ∀ e ∈ t, isLineBreak e = false) (hdash : ∀ r, t ≠ '-' :: r)
    (hblank : allBlank t = false) :
    ∃ front u, cleanLines (s ++ [d]) = front ++ [u ++ [d]] ∧
      cleanLines (s ++ [d] ++ t) = front ++ [u ++ [d] ++ trimRight t] := by
  induction s using byLines with
  | last line hline =>
    have hbreaks : ∀ e ∈ line ++ [d], isLineBreak e = false := by
      intro e he
      rcases List.mem_append.mp he with he | he
      · exact hline e he
      · rw [List.mem_singleton.mp he]
        exact not_isLineBreak_of_solid hd
    have hbreaks' : ∀ e ∈ line ++ [d] ++ t, isLineBreak e = false := fun e he =>
      (List.mem_append.mp he).elim (hbreaks e) (ht e)
    rw [lastLine_line hbreaks] at hcomment
    have hsolid : EndsSolid (line ++ [d]) := endsSolid_concat.mpr hd
    have hclean : isClean (line ++ [d] ++ t) = true := by
      refine isClean_iff.mpr ⟨?_, not_isComment_append hsolid.not_allBlank hcomment
        fun _ r _ => hdash r⟩
      rw [allBlank, List.all_append, Bool.and_eq_false_iff]
      exact Or.inl hsolid.not_allBlank
    have htrim : trimRight (line ++ [d] ++ t) = line ++ [d] ++ trimRight t := by
      refine rdropWhile_append ?_
      obtain ⟨u, e, hu, -⟩ := endsSolid_trimRight hblank
      intro hnil
      rw [show trimRight t = t.rdropWhile isBlank from rfl, hnil] at hu
      simp at hu
    refine ⟨[], line, ?_, ?_⟩
    · rw [cleanLines_line hbreaks,
        if_pos (isClean_iff.mpr ⟨hsolid.not_allBlank, hcomment⟩), hsolid.trimRight]
      rfl
    · rw [cleanLines_line hbreaks', if_pos hclean, htrim]
      rfl
  | step line c rest hline hc ih =>
    rw [List.append_assoc, List.cons_append, lastLine_break hc] at hcomment
    obtain ⟨front, u, hs, hall⟩ := ih hcomment
    refine ⟨cleanLines line ++ front, u, ?_, ?_⟩
    · rw [List.append_assoc, List.cons_append, cleanLines_break hline hc, hs, List.append_assoc]
    · have htext : line ++ c :: rest ++ [d] ++ t = line ++ c :: (rest ++ [d] ++ t) := by simp
      rw [htext, cleanLines_break hline hc, hall]
      exact (List.append_assoc ..).symm

end Text

/-! ## 2. Lines that declare nothing -/

namespace Delimiter

/-- A line with more behind a semicolon and a blank is no directive. -/
theorem not_declared_trailing (s : Text) {c : Char} (hc : isBlank c = false) (r : Text) :
    declared? (s ++ [';'] ++ ' ' :: c :: r) = none := by
  by_contra h
  obtain ⟨token, h⟩ := Option.ne_none_iff_exists'.mp h
  obtain ⟨front, tail, hline, hfront, -, hsolid, htail⟩ := declared?_eq_some.mp h
  -- the semicolon stands in the token, so the blank does not, and the character behind it cannot
  have hend : front ++ (token ++ tail) = s ++ (';' :: ' ' :: c :: r) := by simp [← hline]
  obtain ⟨x, rfl, hx⟩ : ∃ x, s = front ++ x ∧ token ++ tail = x ++ ';' :: ' ' :: c :: r := by
    rcases List.append_eq_append_iff.mp hend with ⟨x, hs, hx⟩ | ⟨x, rfl, hx⟩
    · exact ⟨x, hs, hx⟩
    · cases x with
      | nil => exact ⟨[], by simp, hx.symm⟩
      | cons d x =>
        rw [← (List.cons.inj hx).1] at hfront
        exact absurd (by simp) hfront.not_mem
  have hsplit : token ++ tail = (x ++ [';', ' ']) ++ c :: r := by simp [hx]
  rcases List.append_eq_append_iff.mp hsplit with ⟨y, -, hy⟩ | ⟨y, rfl, -⟩
  · have htab := htail c (by simp [hy])
    rw [isBlank_of_isTab htab] at hc
    cases hc
  · exact absurd (hsolid ' ' (by simp)) (by decide)

theorem not_declared_dash (r : Text) : declared? ('-' :: r) = none := rfl

end Delimiter

/-! ## 3. The statement that has ended -/

namespace Segment

open Quoting (outside)

/-- A text that ends with a semicolon outside quotes and regions, on a line that is no comment. -/
structure Ended (s : Text) : Prop where
  semicolon : s.getLast? = some ';'
  uncommented : Text.isComment (Text.lastLine s) = false
  closed : ∀ token, (declared (Text.feeds (cleanText s))).getLast? = some token → token = [';']
  unquoted : ∃ body, lastText (cleanText s) = body ++ ";" ∧ outside.after body = outside

/-- The line of the last semicolon is one of the last segment, whatever goes on with it. -/
theorem exists_last_line {front : List Text} {line body : Text}
    (closed : delimiterAfter none (front ++ [line]) = none) {sql : Text}
    (hclean : Text.cleanLines sql = front ++ [line])
    (hlast : lastText (cleanText sql) = body ++ [';']) :
    ∃ segments last, ofLines none (front ++ [line]) = segments ++ [⟨none, last ++ [line]⟩] ∧
      Text.join "\n" (last ++ [line]) = body ++ [';'] ∧ turn? none line = none ∧
      ∀ line' more, turn? none line' = none → ∃ first rest,
        ofLines none more = ⟨none, first⟩ :: rest ∧
        ofLines none (front ++ line' :: more) =
          segments ++ ⟨none, last ++ line' :: first⟩ :: rest := by
  cases hturn : turn? (delimiterAfter none front) line with
  | some next =>
    -- behind a directive the last segment is empty
    obtain ⟨segments, last, first, rest, -, hline, hall⟩ := ofLines_append none front [line]
    rw [ofLines_cons, hturn] at hline
    obtain ⟨-, rfl⟩ := List.cons.inj hline
    rw [← hclean, List.append_cons] at hall
    rw [lastText_cleanText hall] at hlast
    exact absurd hlast.symm (List.append_ne_nil_of_right_ne_nil _ (List.cons_ne_nil _ _))
  | none =>
    have hfront : delimiterAfter none front = none := by
      have hstay : delimiterAfter none (front ++ [line]) =
          (turn? (delimiterAfter none front) line).getD (delimiterAfter none front) :=
        List.foldl_concat ..
      rw [closed, hturn, Option.getD_none] at hstay
      exact hstay.symm
    rw [hfront] at hturn
    obtain ⟨segments, last, -, -, hlines, -, -⟩ := ofLines_seam hfront line hturn []
    have seam : ∀ line' more, turn? none line' = none → ∃ first rest,
        ofLines none more = ⟨none, first⟩ :: rest ∧ ofLines none (front ++ line' :: more) =
          segments ++ ⟨none, last ++ line' :: first⟩ :: rest := by
      intro line' more hline'
      obtain ⟨segments', last', first, rest, hlines', hmore, hall⟩ :=
        ofLines_seam hfront line' hline' more
      obtain ⟨rfl, hsame⟩ := List.append_inj' (hlines'.symm.trans hlines) rfl
      obtain rfl : last' = last := congrArg Segment.lines (List.cons.inj hsame).1
      exact ⟨first, rest, hmore, hall⟩
    obtain ⟨first, rest, hnil, hall⟩ := seam line [] hturn
    cases hnil
    refine ⟨segments, last, hall, ?_, hturn, seam⟩
    rw [← lastText_cleanText (hclean ▸ hall), hlast]

variable {first : Text} {last : List Text} {line body : Text}

-- What stands behind the last semicolon is read by itself.
theorem texts_behind (hbody : Text.join "\n" (last ++ [line]) = body ++ [';'])
    (unquoted : outside.after body = outside) (y : Text) (more : List Text) :
    texts none (Text.join "\n" (last ++ (line ++ y) :: more)) =
      texts none (Text.join "\n" (last ++ [line])) ++ texts none (y ++ Text.begun more) := by
  have hlast : Text.join "\n" (last ++ [line]) = Text.ended last ++ line := by
    rw [Text.join_append_cons]
    exact congrArg (Text.ended last ++ ·) (List.append_nil line)
  have htext : Text.join "\n" (last ++ (line ++ y) :: more) =
      body ++ ';' :: (y ++ Text.begun more) := by
    rw [Text.join_append_cons, List.append_assoc, ← List.append_assoc, ← hlast, hbody]
    simp
  rw [htext, hbody, texts_semicolon unquoted, texts_semicolon unquoted]
  exact congrArg (· ++ _) (List.append_nil _).symm

end Segment

/-! ## 4. A comment behind it -/

namespace Text

theorem trimRight_dashes (s : Text) :
    ∃ r, trimRight ('-' :: '-' :: s) = '-' :: '-' :: r :=
  ⟨_, rdropWhile_append_cons (by decide) ['-'] s⟩

end Text

namespace Segment

open Quoting (outside)

theorem texts_dashes (s : Text) :
    ∃ r rest, texts none ('-' :: '-' :: s) = ('-' :: '-' :: r) :: rest := by
  have hpieces : plainPieces outside ('-' :: '-' :: s) =
      Nesting.extend '-' (Nesting.extend '-' (plainPieces outside s)) := by
    rw [plainPieces_cons, if_neg fun h => absurd h.2 (by decide),
      show outside.step '-' = outside from rfl,
      plainPieces_cons, if_neg fun h => absurd h.2 (by decide)]
    rfl
  cases hs : plainPieces outside s with
  | nil => exact absurd hs (Nesting.rawPieces_ne_nil _ _ _)
  | cons piece pieces =>
    obtain ⟨r, hr⟩ := Text.trimRight_dashes piece
    have htrim : Text.trim ('-' :: '-' :: piece) = '-' :: '-' :: r := hr
    refine ⟨r, (pieces.map Text.trim).filter (!·.isEmpty), ?_⟩
    rw [texts, cut, hpieces, hs]
    show ((Text.trim ('-' :: '-' :: piece) :: pieces.map Text.trim).filter _) = _
    rw [htrim]
    rfl

theorem classify_dash (r : Text) :
    classify none ('-' :: r) = .ok { kind := .misc, text := '-' :: r } :=
  rfl

-- A comment that is not cleaned away is a line like any other.
theorem ofLines_dashes (r : Text) (lines : List Text) : ∃ next rest,
    ofLines none lines = ⟨none, next⟩ :: rest ∧
    ofLines none (('-' :: '-' :: r) :: lines) = ⟨none, ('-' :: '-' :: r) :: next⟩ :: rest := by
  obtain ⟨next, rest, h⟩ := exists_ofLines none lines
  refine ⟨next, rest, h, ?_⟩
  rw [ofLines_cons, turn?, Delimiter.not_declared_dash, h]
  rfl

/-- A segment that starts with a comment has a first statement of no kind, and other statements than
without the comment: those are made up of less. -/
theorem read_dashes {account : Account} {r : Text} {lines : List Text} {found : List Statement}
    (h : read account ⟨none, ('-' :: '-' :: r) :: lines⟩ = .ok found) :
    (∃ s more, found = s :: more ∧ s.kind = .misc ∧ Text.startsWith "--" s.text = true) ∧
      read account ⟨none, lines⟩ ≠ .ok found := by
  rw [read_plain, Text.join_cons_begun] at h
  constructor
  · obtain ⟨t, rest, htexts⟩ := texts_dashes (r ++ Text.begun lines)
    rw [show ('-' :: '-' :: r) ++ Text.begun lines = '-' :: '-' :: (r ++ Text.begun lines) from rfl,
      htexts] at h
    obtain ⟨s, more, hs, -, rfl⟩ := List.forall₂_cons_left_iff.mp (Outcome.mapM_eq_ok.mp h)
    obtain rfl := Except.ok.inj ((classify_dash _).symm.trans hs)
    exact ⟨_, more, rfl, rfl, rfl⟩
  · intro hlines
    rw [read_plain] at hlines
    have htexts := (texts_of_mapM h).symm.trans (texts_of_mapM hlines)
    have hcore := congrArg (List.flatMap Text.core) htexts
    rw [core_texts, core_texts, Text.core_append, Text.core_begun] at hcore
    exact absurd (List.append_cancel_right (hcore.trans (List.nil_append _).symm))
      (List.cons_ne_nil _ _)

/-- **Behind the last semicolon.** What stands there is split by itself: on a line of its own it is
what the text behind the break is split into; on the semicolon's line it is the first line of what
follows, though it is a comment. -/
theorem Ended.split_behind (account : Account) {first : Text} (h : Ended first) {comment : Text}
    (hcomment : ∀ c ∈ comment, isLineBreak c = false) (second : Text) :
    Statement.split account (first ++ "\n" ++ second) = (do
      return (← Statement.split account first) ++ (← Statement.split account second)) ∧
    Statement.split account (first ++ " -- " ++ comment ++ "\n" ++ second) = do
      return (← Statement.split account first) ++
        (← ((ofLines none (Text.trimRight ("-- " ++ comment) :: Text.cleanLines second)).mapM
          (read account)).map List.flatten) := by
  obtain ⟨start, rfl⟩ := List.getLast?_eq_some_iff.mp h.semicolon
  obtain ⟨body, hlast, unquoted⟩ := h.unquoted
  obtain ⟨r, hr⟩ := Text.trimRight_dashes (' ' :: comment)
  have htrim : Text.trimRight (' ' :: '-' :: '-' :: ' ' :: comment) = ' ' :: '-' :: '-' :: r := by
    rw [← hr]
    show ([' '] ++ '-' :: '-' :: ' ' :: comment).rdropWhile isBlank = [' '] ++ _
    exact Text.rdropWhile_append fun hnil => List.cons_ne_nil _ _ (hr.symm.trans hnil)
  have hbreaks : ∀ c ∈ ' ' :: '-' :: '-' :: ' ' :: comment, isLineBreak c = false :=
    Text.unbroken_append (by decide : [' ', '-', '-', ' '].all (!isLineBreak ·) = true) hcomment
  obtain ⟨front, u, hclean, hall⟩ := Text.cleanLines_trailing (d := ';') (by decide) h.uncommented
    hbreaks (fun r e => absurd (List.cons.inj e).1 (by decide)) rfl
  rw [htrim] at hall
  have closed := delimiterAfter_cleanLines h.closed
  rw [hclean] at closed
  obtain ⟨segments, last, hfirst, hbody, hquiet, seam⟩ := exists_last_line closed hclean hlast
  constructor
  · obtain ⟨next, rest, hmore, hofs⟩ := seam (u ++ [';']) (Text.cleanLines second) hquiet
    have htexts := texts_behind hbody unquoted [] next
    rw [List.append_nil, List.nil_append, texts_begun] at htexts
    have htext : start ++ [';'] ++ "\n" ++ second = start ++ [';'] ++ '\n' :: second := by simp
    rw [split_eq_cleanLines, split_eq_cleanLines, split_eq_cleanLines, htext,
      Text.cleanLines_append, hclean, List.append_assoc, List.singleton_append, hofs, hfirst, hmore]
    exact mapM_split account htexts segments rest
  · have hquiet' : turn? none (u ++ [';'] ++ ' ' :: '-' :: '-' :: r) = none := by
      rw [turn?, Delimiter.not_declared_trailing u (by decide)]
      rfl
    obtain ⟨next, rest, hmore, hofs⟩ := seam _ (Text.cleanLines second) hquiet'
    have htexts := texts_behind hbody unquoted (' ' :: '-' :: '-' :: r) next
    rw [List.cons_append, texts_cons_blank (by decide), ← Text.join_cons_begun] at htexts
    have htext : start ++ [';'] ++ " -- " ++ comment ++ "\n" ++ second =
        start ++ [';'] ++ ' ' :: '-' :: '-' :: ' ' :: comment ++ '\n' :: second := by simp
    obtain ⟨next', rest', hmore', hbehind⟩ := ofLines_dashes r (Text.cleanLines second)
    obtain ⟨hnext, rfl⟩ := List.cons.inj (hmore'.symm.trans hmore)
    obtain rfl : next' = next := congrArg Segment.lines hnext
    rw [split_eq_cleanLines, split_eq_cleanLines, htext, Text.cleanLines_append, hall,
      List.append_assoc, List.singleton_append, hofs, hclean, hfirst,
      show Text.trimRight ("-- " ++ comment) = '-' :: '-' :: r from hr, hbehind]
    exact mapM_split account htexts segments _

end Segment

namespace Statement

/-- **Comments behind statements.** On a line of its own a comment changes nothing. Behind a
semicolon that ends a statement, on its line, it stays: the statements before it are the same, but
then stands one of no kind that begins with the comment, and the statements are never those of the
text without it. -/
theorem split_comment (account : Account) (first comment second : Text)
    (hcomment : ∀ c ∈ comment, isLineBreak c = false) :
    split account (first ++ "\n-- " ++ comment ++ "\n" ++ second) =
      split account (first ++ "\n" ++ second) ∧
    (Segment.Ended first →
      split account (first ++ "\n" ++ second) = (do
        return (← split account first) ++ (← split account second)) ∧
      ∀ statements,
        split account (first ++ " -- " ++ comment ++ "\n" ++ second) = .ok statements →
        (∃ before s behind, split account first = .ok before ∧
          statements = before ++ s :: behind ∧ s.kind = .misc ∧
          Text.startsWith "--" s.text = true) ∧
        split account (first ++ "\n" ++ second) ≠ .ok statements) := by
  constructor
  · have htext : first ++ "\n-- " ++ comment ++ "\n" ++ second =
        first ++ '\n' :: ('-' :: '-' :: ' ' :: comment ++ '\n' :: second) := by simp
    have hplain : first ++ "\n" ++ second = first ++ '\n' :: second := by simp
    have hbreaks : ∀ c ∈ '-' :: '-' :: ' ' :: comment, isLineBreak c = false :=
      Text.unbroken_append (by decide : ['-', '-', ' '].all (!isLineBreak ·) = true) hcomment
    rw [Segment.split_eq_cleanLines, Segment.split_eq_cleanLines, htext, hplain,
      Text.cleanLines_append, Text.cleanLines_append, Text.cleanLines_append,
      Text.cleanLines_line hbreaks]
    rfl
  · intro ended
    obtain ⟨hplain, htrailing⟩ := ended.split_behind account hcomment second
    refine ⟨hplain, fun statements hstatements => ?_⟩
    rw [htrailing] at hstatements
    obtain ⟨before, hbefore, hstatements⟩ := Outcome.bind_eq_ok.mp hstatements
    obtain ⟨behind, hbehind, hstatements⟩ := Outcome.bind_eq_ok.mp hstatements
    obtain rfl := Except.ok.inj hstatements
    -- the comment begins the first text of what is behind it
    obtain ⟨r, hr⟩ := Text.trimRight_dashes (' ' :: comment)
    obtain ⟨next, rest, hnext, hcommented⟩ := Segment.ofLines_dashes r (Text.cleanLines second)
    rw [show Text.trimRight ("-- " ++ comment) = '-' :: '-' :: r from hr, hcommented] at hbehind
    obtain ⟨groups, hgroups, rfl⟩ := Outcome.map_eq_ok.mp hbehind
    obtain ⟨found, others, hfound, hothers, rfl⟩ :=
      List.forall₂_cons_left_iff.mp (Outcome.mapM_eq_ok.mp hgroups)
    obtain ⟨⟨s, more, rfl, hkind, hstarts⟩, hother⟩ := Segment.read_dashes hfound
    refine ⟨⟨before, s, more ++ others.flatten, hbefore, rfl, hkind, hstarts⟩, fun hsame => ?_⟩
    rw [hplain, hbefore, Segment.split_eq_cleanLines, hnext] at hsame
    obtain ⟨_, hpure, hsame⟩ := Outcome.bind_eq_ok.mp hsame
    obtain rfl := Except.ok.inj hpure
    obtain ⟨behind, hbehind, hsame⟩ := Outcome.bind_eq_ok.mp hsame
    obtain rfl := List.append_cancel_left (Except.ok.inj hsame)
    obtain ⟨groups, hgroups, hflat⟩ := Outcome.map_eq_ok.mp hbehind
    obtain ⟨found', others', hfound', hothers', rfl⟩ :=
      List.forall₂_cons_left_iff.mp (Outcome.mapM_eq_ok.mp hgroups)
    obtain rfl : others' = others := Except.ok.inj
      ((Outcome.mapM_eq_ok.mpr hothers').symm.trans (Outcome.mapM_eq_ok.mpr hothers))
    exact hother (List.append_cancel_right hflat ▸ hfound')

/-- A comment behind a semicolon hides the INSERT on the next line. -/
theorem split_comment_insert :
    let first : Text := "DROP TABLE a;"
    let comment : Text := "x"
    let second : Text := "INSERT INTO t VALUES (1);"
    Segment.Ended first ∧
      split {} (first ++ "\n-- " ++ comment ++ "\n" ++ second) =
        split {} (first ++ "\n" ++ second) ∧
      ∃ before s behind,
        split {} (first ++ " -- " ++ comment ++ "\n" ++ second) = .ok (before ++ s :: behind) ∧
        split {} first = .ok before ∧ s.kind = .misc ∧ Text.startsWith "--" s.text = true ∧
        split {} (first ++ "\n" ++ second) ≠ .ok (before ++ s :: behind) := by
  intro first comment second
  have ended : Segment.Ended first :=
    ⟨by decide +kernel, by decide +kernel, by decide +kernel, "DROP TABLE a", by decide +kernel,
      by decide +kernel⟩
  have hcomment : ∀ c ∈ comment, isLineBreak c = false := by
    intro c hc
    rw [List.mem_singleton.mp hc]
    decide
  obtain ⟨hown, hbehind⟩ := split_comment {} first comment second hcomment
  obtain ⟨statements, hsplit, -⟩ := Outcome.exists_ok
    (x := split {} (first ++ " -- " ++ comment ++ "\n" ++ second)) (f := List.length) (b := 2)
    (by decide +kernel)
  obtain ⟨⟨before, s, behind, hbefore, rfl, hkind, hstarts⟩, hother⟩ :=
    (hbehind ended).2 statements hsplit
  exact ⟨ended, hown, before, s, behind, hsplit, hbefore, hkind, hstarts, hother⟩

end Statement

end SqlDump
