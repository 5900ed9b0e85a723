import Mathlib.Data.Option.Basic
import SqlDump.Proofs.Strings

/-!
# Texts outside regions

A directive is the keyword and a token, with tabs and spaces around them. A text without one is
split at the semicolons outside quotes and nowhere else, and what is split off stands in it.
-/

namespace SqlDump

/-! ## 1. Directives -/

namespace Delimiter

theorem isBlank_of_isTab {c : Char} (h : isTab c = true) : isBlank c = true := by
  simp only [isTab, Bool.or_eq_true, decide_eq_true_eq] at h
  rcases h with rfl | rfl <;> decide

/-- The keyword of a directive, with tabs and spaces before it and at least one of them behind
it. -/
def Announces (front : Text) : Prop := ∃ lead word gap, front = lead ++ (word ++ gap) ∧
  (∀ c ∈ lead, isTab c = true) ∧ keyword? "DELIMITER" word = some [] ∧
  gap ≠ [] ∧ ∀ c ∈ gap, isTab c = true

-- The keyword's letters are neither blanks nor semicolons, and it is read whatever follows.
theorem keyword_announces {word : Text} (h : keyword? "DELIMITER" word = some []) :
    (∃ c r, word = c :: r ∧ isBlank c = false) ∧ ';' ∉ word ∧
      ∀ r, keyword? "DELIMITER" (word ++ r) = some r := by
  have hspelled : spelledIn (fun c => !isBlank c && c ≠ ';') "DELIMITER" = true := by
    decide +kernel
  obtain ⟨u, hu, hlength, hall, happend⟩ := exists_of_spelled hspelled h
  rw [List.append_nil] at hu
  subst hu
  refine ⟨?_, fun hc => absurd (hall _ hc) (by decide), happend⟩
  cases word with
  | nil => cases hlength
  | cons c r =>
    have hc := hall c List.mem_cons_self
    rw [Bool.and_eq_true, Bool.not_eq_true'] at hc
    exact ⟨c, r, rfl, hc.1⟩

theorem Announces.not_mem {front : Text} (h : Announces front) : ';' ∉ front := by
  have tabs : ∀ {s : Text}, (∀ c ∈ s, isTab c = true) → ';' ∉ s := fun hs hc =>
    absurd (hs _ hc) (by decide)
  obtain ⟨lead, word, gap, rfl, hlead, hword, -, hgap⟩ := h
  rw [List.mem_append, List.mem_append]
  rintro (hc | hc | hc)
  · exact tabs hlead hc
  · exact (keyword_announces hword).2.1 hc
  · exact tabs hgap hc

theorem not_isTab {c : Char} (h : isBlank c = false) : isTab c = false := by
  by_contra htab
  rw [Bool.not_eq_false] at htab
  rw [isBlank_of_isTab htab] at h
  cases h

-- Tabs and spaces end where something solid starts.
theorem dropWhile_isTab {lead s : Text} {c : Char} (hlead : ∀ d ∈ lead, isTab d = true)
    (hc : isBlank c = false) : (lead ++ c :: s).dropWhile isTab = c :: s :=
  Text.dropWhile_append_eq (fun _ _ e => (List.cons.inj e).1 ▸ not_isTab hc) hlead

theorem Announces.of_keyword? {line r : Text}
    (hr : keyword? "DELIMITER" (line.dropWhile isTab) = some r)
    (hgap : r.head?.any isTab = true) :
    ∃ front, line = front ++ r.dropWhile isTab ∧ Announces front := by
  obtain ⟨word, hline, -, -, hword⟩ := exists_of_keyword? hr
  refine ⟨line.takeWhile isTab ++ (word ++ r.takeWhile isTab), ?_, _, word, _, rfl,
    fun c => List.mem_takeWhile_imp, by simpa using hword [], ?_, fun c => List.mem_takeWhile_imp⟩
  · rw [List.append_assoc, List.append_assoc, List.takeWhile_append_dropWhile, ← hline,
      List.takeWhile_append_dropWhile]
  · cases r with
    | nil => cases hgap
    | cons c r =>
      have hc : isTab c = true := hgap
      rw [List.takeWhile_cons_of_pos hc]
      exact List.cons_ne_nil _ _

-- The keyword is read behind the tabs and spaces before it, and what follows it is the token's.
theorem Announces.read {front : Text} (h : Announces front) {c : Char} (hc : isBlank c = false)
    (token : Text) : ∃ r, keyword? "DELIMITER" ((front ++ c :: token).dropWhile isTab) = some r ∧
      r.head?.any isTab = true ∧ r.dropWhile isTab = c :: token := by
  obtain ⟨lead, word, gap, rfl, hlead, hword, hne, hgap⟩ := h
  obtain ⟨⟨k, w, rfl, hk⟩, -, hread⟩ := keyword_announces hword
  obtain ⟨g, gap, rfl⟩ := List.exists_cons_of_ne_nil hne
  refine ⟨g :: gap ++ c :: token, ?_, hgap g List.mem_cons_self, dropWhile_isTab hgap hc⟩
  rw [List.append_assoc, List.append_assoc, List.cons_append, dropWhile_isTab hlead hk]
  exact hread _

/-- A line declares a token behind the keyword, with nothing but tabs and spaces behind it. -/
theorem declared?_eq_some {line token : Text} : declared? line = some token ↔
    ∃ front tail, line = front ++ (token ++ tail) ∧ Announces front ∧ token ≠ [] ∧
      (∀ c ∈ token, isBlank c = false) ∧ ∀ c ∈ tail, isTab c = true := by
  constructor
  · intro h
    obtain ⟨r, hr, h⟩ := Option.bind_eq_some_iff.mp h
    obtain ⟨_, hgap, h⟩ := Option.bind_eq_some_iff.mp h
    obtain ⟨⟨found, tail⟩, hrun, h⟩ := Option.bind_eq_some_iff.mp h
    obtain ⟨_, htail, e⟩ := Option.bind_eq_some_iff.mp h
    obtain rfl := Option.some.inj e
    obtain ⟨front, hline, hfront⟩ := Announces.of_keyword? hr ((Option.guard_eq_some' _).mp hgap)
    obtain ⟨hrest, hne, hsolid, -⟩ := Text.run?_eq_some_iff.mp hrun
    exact ⟨front, tail, hrest ▸ hline, hfront, hne, fun c hc => by simpa using hsolid c hc,
      List.all_eq_true.mp ((Option.guard_eq_some' _).mp htail)⟩
  · rintro ⟨front, tail, rfl, hfront, hne, hsolid, htail⟩
    have hrun : Text.run? (!isBlank ·) (token ++ tail) = some (token, tail) := by
      refine Text.run?_eq_some_iff.mpr ⟨rfl, hne, fun c hc => by rw [hsolid c hc]; rfl, fun c hc => ?_⟩
      rw [isBlank_of_isTab (htail c (List.mem_of_mem_head? hc))]
      rfl
    obtain ⟨t, token, rfl⟩ := List.exists_cons_of_ne_nil hne
    obtain ⟨r, hr, hgap, hrest⟩ := hfront.read (hsolid t List.mem_cons_self) (token ++ tail)
    refine Option.bind_eq_some_iff.mpr ⟨r, hr, ?_⟩
    refine Option.bind_eq_some_iff.mpr ⟨(), (Option.guard_eq_some' _).mpr hgap, ?_⟩
    refine Option.bind_eq_some_iff.mpr ⟨(t :: token, tail), by rw [hrest]; exact hrun, ?_⟩
    refine Option.bind_eq_some_iff.mpr ⟨(), (Option.guard_eq_some' _).mpr ?_, rfl⟩
    exact List.all_eq_true.mpr htail

/-- Behind a line that declares no token, a semicolon declares itself at most. -/
theorem declared?_concat {line token : Text} (h : declared? (line ++ [';']) = some token) :
    token = [';'] ∨ Text.EndsSolid line ∧ ∃ t, declared? line = some t := by
  obtain ⟨front, tail, hline, hfront, htoken, hsolid, htail⟩ := declared?_eq_some.mp h
  have hnil : tail = [] := by
    rcases List.eq_nil_or_concat tail with rfl | ⟨u, c, rfl⟩
    · rfl
    · rw [List.concat_eq_append] at hline htail
      have hend : line ++ [';'] = front ++ (token ++ u) ++ [c] := by simp [hline]
      have hc : isTab c = true := htail c (by simp)
      rw [← (List.cons.inj (List.append_inj' hend rfl).2).1] at hc
      exact absurd hc (by decide)
  subst hnil
  obtain ⟨t, c, rfl⟩ := List.eq_nil_or_concat token |>.resolve_left htoken
  rw [List.concat_eq_append] at hline hsolid ⊢
  have hend : line ++ [';'] = front ++ t ++ [c] := by simp [hline]
  obtain ⟨rfl, hc⟩ := List.append_inj' hend rfl
  obtain rfl := (List.cons.inj hc).1
  rcases List.eq_nil_or_concat t with rfl | ⟨u, d, rfl⟩
  · exact Or.inl rfl
  · rw [List.concat_eq_append] at hsolid ⊢
    have hsolid' : ∀ c ∈ u ++ [d], isBlank c = false := fun c hc =>
      hsolid c (List.mem_append_left _ hc)
    have hd : Text.EndsSolid (u ++ [d]) := Text.endsSolid_concat.mpr (hsolid' d (by simp))
    refine Or.inr ⟨hd.append front, u ++ [d], declared?_eq_some.mpr ⟨front, [], ?_, hfront, ?_,
      hsolid', fun _ hc => (List.not_mem_nil hc).elim⟩⟩
    · simp
    · simp

end Delimiter

/-! ## 2. Texts without directives -/

namespace Segment

open Quoting (outside Uncut)

/-- Lines none of which turns to another delimiter make up one segment. -/
theorem ofLines_of_quiet {delimiter : Option Text} {lines : List Text}
    (h : ∀ line ∈ lines, turn? delimiter line = none) :
    ofLines delimiter lines = [⟨delimiter, lines⟩] := by
  rcases ofLines_cases delimiter lines with ⟨-, hof⟩ | ⟨front, line, next, rest, rfl, -, hline, -⟩
  · exact hof
  · rw [h line (by simp)] at hline
    cases hline

theorem split_of_quiet (account : Account) {sql : Text}
    (h : ∀ line ∈ Text.cleanLines sql, turn? none line = none) : Statement.split account sql =
      (texts none (cleanText sql)).mapM (classify none) := by
  rw [split_eq_cleanLines, ofLines_of_quiet h, List.mapM_cons, List.mapM_nil, read_plain]
  show Except.map _ (do let statements ← (texts none (cleanText sql)).mapM _; _) = _
  cases (texts none (cleanText sql)).mapM (classify none) with
  | error e => rfl
  | ok statements => exact congrArg Except.ok (by simp)

theorem textsOf_feeds (sql : Text) :
    textsOf none (Text.feeds (cleanText sql)) = textsOf none (Text.cleanLines sql) := by
  by_cases hlines : Text.cleanLines sql = []
  · rw [show cleanText sql = Text.join "\n" (Text.cleanLines sql) from rfl, hlines]
    rfl
  · rw [Text.feeds_cleanText hlines]

theorem textsOf_of_quiet {delimiter : Option Text} {lines : List Text}
    (h : ∀ line ∈ lines, turn? delimiter line = none) :
    textsOf delimiter lines = texts delimiter (Text.join "\n" lines) := by
  rw [textsOf, ofLines_of_quiet h, List.flatMap_singleton]
  rfl

theorem declared?_of_undeclared {sql line : Text}
    (h : declared (Text.feeds (cleanText sql)) = []) (hline : line ∈ Text.cleanLines sql) :
    Delimiter.declared? line = none := by
  rw [Text.feeds_cleanText (List.ne_nil_of_mem hline)] at h
  exact List.filterMap_eq_nil_iff.mp h line hline

/-- A semicolon behind a text without directives makes none that turns to another delimiter. -/
theorem quiet_concat {sql : Text}
    (h : ∀ line ∈ Text.cleanLines sql, Delimiter.declared? line = none) :
    ∀ line ∈ Text.cleanLines (sql ++ [';']), turn? none line = none := by
  have quiet : ∀ line, Delimiter.declared? line = none → turn? none line = none := fun line h => by
    rw [turn?, h]
    rfl
  induction sql using Text.byLines with
  | last line hline =>
    have hbreaks : ∀ d ∈ line ++ [';'], isLineBreak d = false :=
      List.forall_mem_append.mpr ⟨hline, List.forall_mem_singleton.mpr (by decide)⟩
    rw [Text.cleanLines_line hbreaks, Text.trimRight_concat (by decide)]
    intro line' hmem
    split at hmem
    case isFalse => exact (List.not_mem_nil hmem).elim
    rename_i hclean
    rw [List.mem_singleton.mp hmem]
    cases hdeclared : Delimiter.declared? (line ++ [';']) with
    | none => exact quiet _ hdeclared
    | some token =>
      rcases Delimiter.declared?_concat hdeclared with rfl | ⟨hsolid, t, ht⟩
      · rw [turn?, hdeclared]
        rfl
      · have hcomment : Text.isComment line = false := by
          by_contra hcomment
          rw [Bool.not_eq_false] at hcomment
          have := (Text.isClean_iff.mp hclean).2
          rw [Text.isComment_append hcomment] at this
          cases this
        have hmem : line ∈ Text.cleanLines line := by
          rw [Text.cleanLines_line hline,
            if_pos (Text.isClean_iff.mpr ⟨hsolid.not_allBlank, hcomment⟩), hsolid.trimRight]
          exact List.mem_singleton_self line
        rw [h line hmem] at ht
        cases ht
  | step line c rest hline hc ih =>
    rw [Text.cleanLines_break hline hc] at h
    rw [List.append_assoc, List.cons_append, Text.cleanLines_break hline hc]
    intro line' hmem
    rcases List.mem_append.mp hmem with hmem | hmem
    · exact quiet _ (h line' (List.mem_append_left _ hmem))
    · exact ih (fun l hl => h l (List.mem_append_right _ hl)) line' hmem

/-! ## 3. Pieces -/

theorem plainPieces_of_uncut {q : Quoting} {s : Text} (h : q.Uncut s) : plainPieces q s = [s] := by
  rcases plainPieces_cases q s with ⟨-, hs⟩ | ⟨u, v, rfl, -, hout, -⟩
  · exact hs
  · exact absurd hout (h u v rfl)

/-- The statements before a semicolon outside quotes, and those behind it. -/
theorem texts_semicolon {s : Text} (closed : outside.after s = outside) (rest : Text) :
    texts none (s ++ ';' :: rest) = texts none s ++ texts none rest := by
  rw [texts, cut, plainPieces_append closed, List.map_append, List.filter_append]
  rfl

theorem texts_of_uncut {s : Text} (h : outside.Uncut s) :
    texts none s = [Text.trim s].filter (!·.isEmpty) := by
  rw [texts, cut, plainPieces_of_uncut h]
  rfl

theorem texts_blank {s : Text} (h : ∀ c ∈ s, isBlank c = true) : texts none s = [] := by
  induction s with
  | nil => rfl
  | cons c s ih =>
    obtain ⟨hc, hs⟩ := List.forall_mem_cons.mp h
    rw [texts_cons_blank hc, ih hs]

/-- A piece stands in the text, and no semicolon outside quotes stands in the piece. -/
theorem of_mem_plainPieces {s piece : Text} (h : piece ∈ plainPieces outside s) :
    piece <:+: s ∧ outside.Uncut piece := by
  induction hlength : s.length using Nat.strong_induction_on generalizing s with
  | _ n ih =>
    rcases plainPieces_cases outside s with ⟨huncut, hs⟩ | ⟨u, v, rfl, huncut, -, hs⟩
    · rw [hs] at h
      obtain rfl := List.mem_singleton.mp h
      exact ⟨List.infix_rfl, huncut⟩
    · rw [hs] at h
      rcases List.mem_cons.mp h with rfl | h
      · exact ⟨⟨[], ';' :: v, rfl⟩, huncut⟩
      · have hshorter : v.length < n := by
          rw [← hlength, List.length_append, List.length_cons]
          omega
        obtain ⟨⟨before, behind, hv⟩, hpiece⟩ := ih _ hshorter h rfl
        exact ⟨⟨u ++ ';' :: before, behind, by simp [← hv]⟩, hpiece⟩

/-- A statement's text is not empty, has no blanks around it, and is not to be split further. -/
theorem texts_whole {s t : Text} (h : t ∈ texts none s) :
    t ≠ [] ∧ Text.trim t = t ∧ outside.Uncut t := by
  obtain ⟨hmem, hne⟩ := List.mem_filter.mp h
  obtain ⟨piece, hpiece, rfl⟩ := List.mem_map.mp hmem
  obtain ⟨lead, tail, htrim, hlead, -⟩ := Text.exists_trim piece
  refine ⟨by simpa using hne, Text.trim_trim piece, ?_⟩
  have hmiddle := Quoting.Uncut.middle (htrim ▸ (of_mem_plainPieces hpiece).2)
  rwa [Quoting.after_blank hlead] at hmiddle

/-- A statement's text stands in the text it is split off. -/
theorem infix_of_mem_texts {s t : Text} (h : t ∈ texts none s) : t <:+: s := by
  obtain ⟨piece, hpiece, rfl⟩ := List.mem_map.mp (List.mem_of_mem_filter h)
  obtain ⟨lead, tail, htrim, -⟩ := Text.exists_trim piece
  exact List.IsInfix.trans ⟨lead, tail, htrim.symm⟩ (of_mem_plainPieces hpiece).1

end Segment

/-- The first semicolon outside quotes is one place. -/
theorem Quoting.Uncut.unique {q : Quoting} {u v r t : Text} (hu : q.Uncut u) (hv : q.Uncut v)
    (hu' : q.after u = outside) (hv' : q.after v = outside) (h : u ++ ';' :: r = v ++ ';' :: t) :
    u = v ∧ r = t := by
  rcases List.append_eq_append_iff.mp h with ⟨x, rfl, hx⟩ | ⟨x, rfl, hx⟩
  · cases x with
    | nil => exact ⟨(List.append_nil u).symm, (List.cons.inj hx).2⟩
    | cons c x => exact absurd hu' (hv u x (by rw [(List.cons.inj hx).1]))
  · cases x with
    | nil => exact ⟨List.append_nil v, (List.cons.inj hx).2.symm⟩
    | cons c x => exact absurd hv' (hu v x (by rw [(List.cons.inj hx).1]))

/-! ## 4. What is neither blank nor semicolon -/

namespace Text

/-- The characters of a text that are no blanks. -/
def solid (s : Text) : Text := s.filter (!isBlank ·)

/-- The characters of a text that are neither blanks nor semicolons. -/
def core (s : Text) : Text := (solid s).filter (· != ';')

theorem solid_append (s t : Text) : solid (s ++ t) = solid s ++ solid t := List.filter_append s t

theorem core_append (s t : Text) : core (s ++ t) = core s ++ core t := by
  rw [core, solid_append, List.filter_append]
  rfl

theorem solid_blank {s : Text} (h : ∀ c ∈ s, isBlank c = true) : solid s = [] := by
  refine List.filter_eq_nil_iff.mpr fun c hc => ?_
  rw [h c hc]
  exact Bool.false_ne_true

theorem solid_cons_blank {c : Char} (hc : isBlank c = true) (s : Text) : solid (c :: s) = solid s :=
  List.filter_cons_of_neg (by simp [hc])

theorem solid_trim (s : Text) : solid (trim s) = solid s := by
  obtain ⟨lead, tail, hs, hlead, htail⟩ := exists_trim s
  conv_rhs => rw [hs, solid_append, solid_append, solid_blank hlead, solid_blank htail]
  rw [List.nil_append, List.append_nil]

theorem solid_trimRight (s : Text) : solid (trimRight s) = solid s := by
  obtain ⟨tail, hs, htail⟩ := exists_trimRight s
  conv_rhs => rw [hs, solid_append, solid_blank htail, List.append_nil]

theorem solid_begun (lines : List Text) : solid (begun lines) = lines.flatMap solid := by
  induction lines with
  | nil => rfl
  | cons line lines ih =>
    rw [List.flatMap_cons, ← ih]
    exact solid_append line (begun lines)

theorem solid_join (lines : List Text) : solid (join "\n" lines) = lines.flatMap solid := by
  cases lines with
  | nil => rfl
  | cons line lines => rw [join_cons_begun, solid_append, solid_begun, List.flatMap_cons]

theorem core_join (lines : List Text) : core (join "\n" lines) = lines.flatMap core := by
  rw [core, solid_join, List.filter_flatMap]
  rfl

theorem core_begun (lines : List Text) : core (begun lines) = core (join "\n" lines) := by
  rw [core, solid_begun, ← solid_join]
  rfl

end Text

namespace Segment

theorem core_plainPieces (q : Quoting) (s : Text) :
    (plainPieces q s).flatMap Text.core = Text.core s := by
  induction s generalizing q with
  | nil => rfl
  | cons c s ih =>
    rw [plainPieces_cons]
    split
    · rename_i hc
      rw [List.flatMap_cons, ih, hc.2]
      rfl
    · have htail := ih (q.step c)
      cases hs : plainPieces (q.step c) s with
      | nil => exact absurd hs (Nesting.rawPieces_ne_nil _ _ _)
      | cons first rest =>
        rw [hs, List.flatMap_cons] at htail
        rw [Nesting.extend, List.flatMap_cons, ← List.singleton_append, Text.core_append,
          List.append_assoc, htail, ← Text.core_append, List.singleton_append]

/-- Trimming pieces and leaving blank ones out loses nothing else. -/
theorem core_trimmed (parts : List Text) :
    ((parts.map Text.trim).filter (!·.isEmpty)).flatMap Text.core = parts.flatMap Text.core := by
  induction parts with
  | nil => rfl
  | cons part parts ih =>
    have htrim : Text.core (Text.trim part) = Text.core part :=
      congrArg (List.filter (· != ';')) (Text.solid_trim part)
    rw [List.map_cons, List.flatMap_cons, ← ih, ← htrim]
    cases Text.trim part with
    | nil => rfl
    | cons c r => rfl

/-- Statements keep all of a text but blanks and semicolons. -/
theorem core_texts (s : Text) : (texts none s).flatMap Text.core = Text.core s :=
  (core_trimmed _).trans (core_plainPieces .outside s)

end Segment

end SqlDump
