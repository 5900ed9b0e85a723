import Mathlib.Data.List.Flatten
import SqlDump.Plan
import SqlDump.Proofs.PlainTexts

/-!
# Plans as scripts

A plan is printed with a semicolon behind each statement and without delimiters of its own. Splitting
the script gives the plan back exactly if each statement is one that can be printed so. Every loss
shows in the characters that are neither blanks nor semicolons: comment lines, directives and the
delimiters of regions have some, and nothing else that is lost does.
-/

namespace SqlDump

/-! ## 1. What cleaning loses -/

namespace Text

theorem core_trimRight (s : Text) : core (trimRight s) = core s :=
  congrArg (List.filter (· != ';')) (solid_trimRight s)

theorem core_cleanText_sublist (s : Text) : (core (cleanText s)).Sublist (core s) := by
  induction s using byLines with
  | last line hline =>
    rw [cleanText_line hline]
    split
    · rw [core_trimRight]
    · exact List.nil_sublist _
  | step line c rest hline hc ih =>
    have hrest : (core (cleanText rest)).Sublist (core (c :: rest)) :=
      ih.trans (core_append [c] rest ▸ List.sublist_append_right _ _)
    rw [cleanText_break hline hc, core_append]
    split
    · rw [core_append, core_begun, core_trimRight]
      exact List.Sublist.append_left hrest _
    · exact hrest.trans (List.sublist_append_right _ _)

theorem core_ne_nil_of_isComment {s : Text} (h : isComment s = true) : core s ≠ [] := by
  obtain ⟨lead, rest, rfl, -⟩ := isComment_iff.mp h
  rw [core_append]
  exact List.append_ne_nil_of_right_ne_nil _ (List.cons_ne_nil _ _)

theorem isComment_blank_append {s : Text} (hs : ∀ c ∈ s, isBlank c = true) (t : Text) :
    isComment (s ++ t) = isComment t := by
  rw [isComment, isComment, trimLeft, List.dropWhile_append_of_pos hs]
  rfl

/-- A text that loses nothing by cleaning but blanks and semicolons loses blanks only, and is no
comment. -/
theorem solid_cleanText {s : Text} (h : core (cleanText s) = core s) :
    solid (cleanText s) = solid s ∧ isComment s = false := by
  induction s using byLines with
  | last line hline =>
    rw [cleanText_line hline] at h ⊢
    split at h
    · rename_i hclean
      rw [if_pos hclean]
      exact ⟨solid_trimRight line, (isClean_iff.mp hclean).2⟩
    · rename_i hunclean
      have hcomment : isComment line = false := by
        by_contra hcomment
        exact core_ne_nil_of_isComment (by simpa using hcomment) h.symm
      have hblank := Quoting.allBlank_of_unclean hunclean hcomment
      rw [if_neg hunclean, solid_blank hblank]
      exact ⟨rfl, hcomment⟩
  | step line c rest hline hc ih =>
    have hblank := isBlank_of_isLineBreak hc
    have hcore : core (line ++ c :: rest) = core line ++ core rest := by
      rw [core_append, core, core, solid_cons_blank hblank]
      rfl
    rw [cleanText_break hline hc, hcore] at h
    rw [cleanText_break hline hc, solid_append line, solid_cons_blank hblank]
    split at h
    · rename_i hclean
      rw [core_append, core_trimRight, core_begun] at h
      obtain ⟨hsolid, -⟩ := ih (List.append_cancel_left h)
      obtain ⟨hline', hcomment⟩ := isClean_iff.mp hclean
      rw [if_pos hclean, solid_append, solid_trimRight, solid_begun, ← solid_join]
      refine ⟨congrArg (solid line ++ ·) hsolid, not_isComment_append hline' hcomment ?_⟩
      rintro _ r - ⟨⟩
      exact absurd hc (by decide)
    · rename_i hunclean
      have hlength := (core_cleanText_sublist rest).length_le
      rw [h, List.length_append] at hlength
      have hnil : core line = [] := List.eq_nil_of_length_eq_zero (by omega)
      have hcomment : isComment line = false := by
        by_contra hcomment
        exact core_ne_nil_of_isComment (by simpa using hcomment) hnil
      have hall := Quoting.allBlank_of_unclean hunclean hcomment
      rw [hnil, List.nil_append] at h
      obtain ⟨hsolid, hrest⟩ := ih h
      rw [if_neg hunclean, solid_blank hall, isComment_blank_append hall]
      refine ⟨hsolid, ?_⟩
      rw [isComment, trimLeft_cons_blank hblank]
      exact hrest

theorem starts_of_trim {s : Text} (htrim : trim s = s) (hne : s ≠ []) :
    ∃ c r, s = c :: r ∧ isBlank c = false := by
  obtain ⟨c, r, rfl⟩ := List.exists_cons_of_ne_nil hne
  have hleft := trimLeft_trim (c :: r)
  rw [htrim] at hleft
  exact ⟨c, r, rfl, not_isBlank_of_trimLeft hleft⟩

theorem endsSolid_of_trim {s : Text} (htrim : trim s = s) (hne : s ≠ []) : EndsSolid s := by
  obtain ⟨c, r, rfl, hc⟩ := starts_of_trim htrim hne
  exact htrim ▸ (trim_cons hc r).2

end Text

/-! ## 2. What segments lose -/

namespace Segment

open Quoting (outside)

theorem core_texts_sublist {delimiter : Option Text} (hd : delimiter ≠ some []) (s : Text) :
    ((texts delimiter s).flatMap Text.core).Sublist (Text.core s) := by
  rw [texts, core_trimmed]
  induction hlength : s.length using Nat.strong_induction_on generalizing s with
  | _ n ih =>
    rcases cut_cases hd s with ⟨-, hcut⟩ | ⟨u, v, hs, -, -, hcut⟩
    · rw [hcut, List.flatMap_singleton]
    · have hend : ending delimiter ≠ [] := by
        cases delimiter with
        | none => exact List.cons_ne_nil _ _
        | some d => exact fun e => hd (congrArg some e)
      have hshorter : v.length < n := by
        have := List.length_pos_iff.mpr hend
        rw [← hlength, hs, List.length_append, List.length_append]
        omega
      rw [hcut, List.flatMap_cons, hs, Text.core_append, Text.core_append]
      exact ((List.sublist_append_left _ _)).append (ih _ hshorter v rfl)

theorem core_ne_nil_of_declared {line token : Text} (h : Delimiter.declared? line = some token) :
    Text.core line ≠ [] := by
  obtain ⟨front, tail, rfl, ⟨lead, word, gap, rfl, -, hword, -⟩, -⟩ :=
    Delimiter.declared?_eq_some.mp h
  obtain ⟨⟨c, r, rfl, hc⟩, hmem, -⟩ := Delimiter.keyword_announces hword
  have hne : c ≠ ';' := fun e => hmem (e ▸ List.mem_cons_self)
  have hcore : c ∈ Text.core (lead ++ (c :: r ++ gap) ++ (token ++ tail)) := by
    simp [Text.core, Text.solid, hc, hne]
  exact List.ne_nil_of_mem hcore

/-- Segments lose nothing but blanks and semicolons only if no line turns to another delimiter. -/
theorem core_textsOf {delimiter : Option Text} (hd : delimiter ≠ some []) (lines : List Text) :
    ((textsOf delimiter lines).flatMap Text.core).Sublist (lines.flatMap Text.core) ∧
      ((textsOf delimiter lines).flatMap Text.core = lines.flatMap Text.core →
        ∀ line ∈ lines, turn? delimiter line = none) := by
  induction hlength : lines.length using Nat.strong_induction_on generalizing delimiter lines with
  | _ n ih =>
    rcases ofLines_cases delimiter lines with
      ⟨hquiet, hof⟩ | ⟨front, line, next, rest, rfl, -, hline, hof⟩
    · refine ⟨?_, fun _ => hquiet⟩
      rw [textsOf, hof, List.flatMap_singleton, ← Text.core_join lines]
      exact core_texts_sublist hd _
    · have hshorter : rest.length < n := by
        rw [← hlength, List.length_append, List.length_cons]
        omega
      have hfront := core_texts_sublist hd (Text.join "\n" front)
      have hrest := (ih _ hshorter (turn?_ne_nil hline) rest rfl).1
      have htexts : textsOf delimiter (front ++ line :: rest) =
          texts delimiter (Text.join "\n" front) ++ textsOf next rest := by
        rw [textsOf, hof]
        rfl
      rw [Text.core_join] at hfront
      rw [htexts, List.flatMap_append, List.flatMap_append, List.flatMap_cons]
      refine ⟨hfront.append (hrest.trans (List.sublist_append_right _ _)), fun hsame => ?_⟩
      -- the line itself is lost
      obtain ⟨token, hdeclared, -⟩ := declared_of_turn? hline
      have hpos := List.length_pos_iff.mpr (core_ne_nil_of_declared hdeclared)
      have hsize := congrArg List.length hsame
      have hfront := hfront.length_le
      have hrest := hrest.length_le
      simp only [List.length_append] at hsize
      omega

/-- Where each text of a clean text stands once with a semicolon, each closes its quotes. -/
theorem closed_of_texts {parts : List Text} {s : Text} (htexts : texts none s = parts)
    (hsolid : Text.solid s = parts.flatMap fun part => Text.solid part ++ [';']) :
    ∀ part ∈ parts, outside.after part = outside := by
  induction parts generalizing s with
  | nil => exact fun _ h => (List.not_mem_nil h).elim
  | cons part parts ih =>
    have hwhole := texts_whole (htexts ▸ List.mem_cons_self : part ∈ texts none s)
    rw [List.flatMap_cons, List.append_assoc] at hsolid
    rcases plainPieces_cases outside s with ⟨huncut, -⟩ | ⟨u, v, rfl, huncut, hout, -⟩
    · -- one text more than the semicolons behind texts allow
      rw [texts_of_uncut huncut] at htexts
      have hmem : part ∈ [Text.trim s] := List.mem_of_mem_filter (htexts ▸ List.mem_cons_self)
      rw [← Text.solid_trim s, ← List.mem_singleton.mp hmem] at hsolid
      have hlength := congrArg List.length hsolid
      simp at hlength
    rw [texts_semicolon hout, texts_of_uncut huncut] at htexts
    rw [Text.solid_append, ← Text.solid_trim u] at hsolid
    cases hu : Text.trim u with
    | nil =>
      -- a semicolon with no text before it, though every one of them has its own
      obtain ⟨c, r, rfl, hc⟩ := Text.starts_of_trim hwhole.2.1 hwhole.1
      have hfirst : Text.solid (c :: r) = c :: Text.solid r := List.filter_cons_of_pos (by simp [hc])
      rw [hu, hfirst] at hsolid
      exact absurd (List.cons.inj hsolid).1.symm ((Quoting.uncut_cons.mp hwhole.2.2).1 rfl)
    | cons c r =>
      rw [hu] at htexts hsolid
      obtain ⟨hpart, htexts⟩ := List.cons.inj htexts
      rw [← hpart] at hsolid ⊢
      have hrest := List.cons.inj (List.append_cancel_left hsolid)
      refine List.forall_mem_cons.mpr ⟨hu ▸ Quoting.after_trim hout, ih htexts hrest.2⟩

end Segment

/-! ## 3. Scripts -/

namespace Text

theorem join_append {front : List Text} (h : front ≠ []) (rest : List Text) :
    join "\n" (front ++ rest) = join "\n" front ++ begun rest := by
  obtain ⟨line, front, rfl⟩ := List.exists_cons_of_ne_nil h
  rw [List.cons_append, join_cons_begun, join_cons_begun, begun, List.flatMap_append,
    List.append_assoc]
  rfl

end Text

namespace Plan

theorem script_cons_cons (s next : Text) (plan : List Text) :
    script (s :: next :: plan) = s ++ [';'] ++ '\n' :: '\n' :: script (next :: plan) := by
  rw [script, if_neg (by simp), Text.join, List.intercalate_cons_cons, ← Text.join, script,
    if_neg (by simp)]
  simp

/-- The statements of a script are cleaned one by one, each with its semicolon. -/
theorem cleanLines_script (plan : List Text) :
    Text.cleanLines (script plan) = plan.flatMap fun s => Text.cleanLines (s ++ [';']) := by
  induction plan with
  | nil => rfl
  | cons s plan ih =>
    cases plan with
    | nil =>
      rw [List.flatMap_singleton, script, if_neg (by simp), Text.join, List.intercalate_singleton]
      rfl
    | cons next plan =>
      have hfeed : ∀ t, Text.cleanLines ('\n' :: t) = Text.cleanLines t :=
        fun t => Text.cleanLines_append [] t
      rw [script_cons_cons, Text.cleanLines_append, hfeed, ih]
      rfl

end Plan

/-! ## 4. Statements that can be printed -/

/-- What a statement has to be like for a script to hold it: nothing of it is cleaned away, it is
not empty and no blanks stand around it, its quotes are closed and no semicolon stands outside them,
none of its lines declares another delimiter, and what it creates is known. -/
structure Printable (s : Text) : Prop where
  clean : cleanText s = s
  trimmed : Text.trim s = s
  nonempty : s ≠ []
  closed : Quoting.outside.after s = .outside
  uncut : Quoting.outside.Uncut s
  quiet : ∀ line ∈ Text.feeds (s ++ ";"), ∀ token,
    Delimiter.declared? line = some token → token = [';']
  known : ∃ statement, Statement.classify s = .ok statement

theorem cleanText_concat {s : Text} (clean : cleanText s = s) :
    cleanText (s ++ [';']) = s ++ [';'] :=
  Text.cleanText_eq_self
    (Text.Tidy.concat (clean ▸ Text.tidy_cleanText s) (by decide) (by decide))
    (Text.not_isComment_concat (clean ▸ Text.not_isComment_cleanText s) (by decide))
    (Text.endsSolid_concat.mpr (by decide))

theorem Text.cleanLines_semicolon_ne_nil {s front : Text}
    (h : cleanText (s ++ [';']) = front ++ [';']) : cleanLines (s ++ [';']) ≠ [] := by
  intro hnil
  rw [show cleanText (s ++ [';']) = join "\n" (cleanLines (s ++ [';'])) from rfl, hnil] at h
  simp [join] at h

-- The lines of a statement that is clean are its clean lines.
theorem feeds_concat {s : Text} (clean : cleanText s = s) :
    Text.feeds (s ++ [';']) = Text.cleanLines (s ++ [';']) := by
  conv_lhs => rw [← cleanText_concat clean]
  exact Text.feeds_cleanText (Text.cleanLines_semicolon_ne_nil (cleanText_concat clean))

theorem turn?_eq_none_iff {line : Text} : Segment.turn? none line = none ↔
    ∀ token, Delimiter.declared? line = some token → token = [';'] := by
  rw [Segment.turn?]
  cases Delimiter.declared? line with
  | none => simp
  | some token => by_cases h : token = [';'] <;> simp [h]

namespace Plan

-- What is left of a statement and its semicolon is followed by what is left of the other statements.
theorem cleanText_script_cons {s front : Text} (h : cleanText (s ++ [';']) = front ++ [';'])
    (plan : List Text) : cleanText (script (s :: plan)) =
      front ++ ';' :: Text.begun (Text.cleanLines (script plan)) := by
  rw [show cleanText (script (s :: plan)) = Text.join "\n" (Text.cleanLines _) from rfl,
    cleanLines_script, List.flatMap_cons, ← cleanLines_script,
    Text.join_append (Text.cleanLines_semicolon_ne_nil h),
    show Text.join "\n" (Text.cleanLines (s ++ [';'])) = _ from h, List.append_assoc]
  rfl

/-- Statements that can be printed are read back. -/
theorem texts_script {plan : List Text} (h : ∀ s ∈ plan, Printable s) :
    Segment.texts none (cleanText (script plan)) = plan := by
  induction plan with
  | nil => rfl
  | cons s plan ih =>
    obtain ⟨hs, hplan⟩ := List.forall_mem_cons.mp h
    have hsingle : [s].filter (!·.isEmpty) = [s] :=
      List.filter_cons_of_pos (by simpa using hs.nonempty)
    rw [cleanText_script_cons (cleanText_concat hs.clean), Segment.texts_semicolon hs.closed, Segment.texts_of_uncut hs.uncut,
      Segment.texts_begun, hs.trimmed, hsingle]
    exact congrArg (s :: ·) (ih hplan)

-- Where a part of each of some lists makes up as much as the lists, it is all of each.
theorem eq_of_flatMap_sublist {α β : Type} {f g : α → List β} {l : List α}
    (h : ∀ a ∈ l, (f a).Sublist (g a)) (hall : (l.flatMap g).length ≤ (l.flatMap f).length) :
    ∀ a ∈ l, f a = g a := by
  induction l with
  | nil => exact fun _ h => (List.not_mem_nil h).elim
  | cons a l ih =>
    obtain ⟨ha, hl⟩ := List.forall_mem_cons.mp h
    have hfirst := ha.length_le
    have hrest := (List.Sublist.flatMap_right l hl).length_le
    rw [List.flatMap_cons, List.flatMap_cons, List.length_append, List.length_append] at hall
    exact List.forall_mem_cons.mpr ⟨ha.eq_of_length (by omega), ih hl (by omega)⟩

theorem core_semicolon (s : Text) : Text.core (s ++ [';']) = Text.core s := by
  rw [Text.core_append]
  exact List.append_nil _

/-- If a script is read back, nothing but blanks and semicolons is lost of any statement, and no line
turns to another delimiter. -/
theorem kept_of_texts {plan : List Text}
    (h : Segment.textsOf none (Text.cleanLines (script plan)) = plan) :
    (∀ s ∈ plan, Text.core (cleanText (s ++ [';'])) = Text.core (s ++ [';'])) ∧
      ∀ line ∈ Text.cleanLines (script plan), Segment.turn? none line = none := by
  obtain ⟨hsegments, hquiet⟩ :=
    Segment.core_textsOf (Option.some_ne_none []).symm (Text.cleanLines (script plan))
  have hlines : (Text.cleanLines (script plan)).flatMap Text.core =
      plan.flatMap fun s => Text.core (cleanText (s ++ [';'])) := by
    rw [cleanLines_script, List.flatMap_assoc]
    exact List.flatMap_congr fun s _ => (Text.core_join _).symm
  have hcleaned : ∀ s ∈ plan, (Text.core (cleanText (s ++ [';']))).Sublist (Text.core s) :=
    fun s _ => core_semicolon s ▸ Text.core_cleanText_sublist _
  rw [h, hlines] at hsegments hquiet
  refine ⟨fun s hs => ?_, hquiet
    (hsegments.antisymm (List.Sublist.flatMap_right plan hcleaned))⟩
  rw [core_semicolon]
  exact eq_of_flatMap_sublist hcleaned hsegments.length_le s hs

theorem solid_script {plan : List Text}
    (h : ∀ s ∈ plan, Text.core (cleanText (s ++ [';'])) = Text.core (s ++ [';'])) :
    Text.solid (cleanText (script plan)) = plan.flatMap fun s => Text.solid s ++ [';'] := by
  rw [show cleanText (script plan) = Text.join "\n" (Text.cleanLines (script plan)) from rfl,
    Text.solid_join, cleanLines_script, List.flatMap_assoc]
  refine List.flatMap_congr fun s hs => ?_
  rw [← Text.solid_join]
  exact (Text.solid_cleanText (h s hs)).1.trans (Text.solid_append s [';'])

/-- Statements that are read back can be printed. -/
theorem printable_of_split {plan : List Text} {statements : List Statement}
    (hsplit : Statement.split {} (script plan) = .ok statements)
    (htexts : statements.map (·.text) = plan) : ∀ s ∈ plan, Printable s := by
  have hread := (Segment.texts_of_split hsplit).symm.trans htexts
  rw [Segment.textsOf_feeds] at hread
  obtain ⟨hkept, hquiet⟩ := kept_of_texts hread
  have hplan : Segment.texts none (cleanText (script plan)) = plan :=
    (Segment.textsOf_of_quiet hquiet).symm.trans hread
  rw [Segment.split_of_quiet {} hquiet, hplan] at hsplit
  intro s hs
  obtain ⟨hne, htrim, huncut⟩ := Segment.texts_whole (hplan ▸ hs)
  have clean : cleanText s = s := by
    obtain ⟨front, tail, hstands⟩ := Segment.infix_of_mem_texts (hplan ▸ hs)
    refine Text.cleanText_eq_self ?_ ?_ (Text.endsSolid_of_trim htrim hne)
    · refine Text.Tidy.middle (hstands ▸ Text.tidy_cleanText (script plan)) fun c r e => ?_
      obtain ⟨d, r', hs', hd⟩ := Text.starts_of_trim htrim hne
      rw [(List.cons.inj (e.symm.trans hs')).1]
      exact Text.not_isLineBreak_of_solid hd
    · by_contra hcomment
      rw [Bool.not_eq_false] at hcomment
      have := (Text.solid_cleanText (hkept s hs)).2
      rw [Text.isComment_append hcomment] at this
      cases this
  refine ⟨clean, htrim, hne, Segment.closed_of_texts hplan (solid_script hkept) s hs, huncut,
    fun line hline => turn?_eq_none_iff.mp (hquiet line ?_),
    Outcome.exists_mapM_iff.mp ⟨_, hsplit⟩ s hs⟩
  rw [cleanLines_script]
  exact List.mem_flatMap.mpr ⟨s, hs, feeds_concat clean ▸ hline⟩

/-- **Scripts.** Splitting the script of a plan gives its statements back, one by one, exactly if
each of them can be printed. -/
theorem split_script (dump : Dump) (mode : InsertMode) (dropFirst : Bool) :
    (∃ statements, Statement.split {} (script (build dump mode dropFirst)) = .ok statements ∧
      statements.map (·.text) = build dump mode dropFirst) ↔
      ∀ s ∈ build dump mode dropFirst, Printable s := by
  constructor
  · rintro ⟨statements, hsplit, htexts⟩
    exact printable_of_split hsplit htexts
  · intro h
    have hquiet : ∀ line ∈ Text.cleanLines (script (build dump mode dropFirst)),
        Segment.turn? none line = none := by
      intro line hline
      rw [cleanLines_script] at hline
      obtain ⟨s, hs, hline⟩ := List.mem_flatMap.mp hline
      exact turn?_eq_none_iff.mpr ((h s hs).quiet line (feeds_concat (h s hs).clean ▸ hline))
    obtain ⟨statements, hstatements⟩ : ∃ statements,
        (build dump mode dropFirst).mapM (Segment.classify none) = .ok statements :=
      Outcome.exists_mapM_iff.mpr fun s hs => (h s hs).known
    refine ⟨statements, ?_, Segment.texts_of_mapM hstatements⟩
    rw [Segment.split_of_quiet {} hquiet, texts_script h]
    exact hstatements

/-- The body of a trigger holds a semicolon, and the script has no delimiter but the semicolon. -/
theorem split_script_trigger :
    let sql : Text := "DELIMITER $$\nCREATE TRIGGER t BEFORE INSERT ON a FOR EACH ROW " ++
      "BEGIN SET @x = 1; END$$\nDELIMITER ;"
    ∃ dump, Dump.parse {} sql = .ok dump ∧
      ¬ ∃ statements, Statement.split {} (script (build dump .multi true)) = .ok statements ∧
        statements.map (·.text) = build dump .multi true := by
  intro sql
  obtain ⟨dump, hdump, h⟩ := Outcome.exists_ok (x := Dump.parse {} sql)
    (f := fun dump => (build dump .multi true,
      (Statement.split {} (script (build dump .multi true))).toOption.map (·.map (·.text))))
    (b := (["CREATE TRIGGER t BEFORE INSERT ON a FOR EACH ROW BEGIN SET @x = 1; END".toList],
      some ["CREATE TRIGGER t BEFORE INSERT ON a FOR EACH ROW BEGIN SET @x = 1".toList,
        "END".toList])) (by decide +kernel)
  refine ⟨dump, hdump, ?_⟩
  rintro ⟨statements, hsplit, htexts⟩
  obtain ⟨hplan, hfound⟩ := Prod.mk.inj h
  rw [hsplit] at hfound
  have hlength := congrArg List.length ((Option.some.inj hfound).symm.trans (htexts.trans hplan))
  exact absurd hlength (by decide)

end Plan

end SqlDump
