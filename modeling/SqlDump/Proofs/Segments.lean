import SqlDump.Proofs.BlankGroups
import SqlDump.Proofs.Cuts
import SqlDump.Proofs.Outcome
import SqlDump.Statement

/-!
# Segments of a clean text

A line that turns to another delimiter ends a segment. The text of a segment is cut where its
statements end: outside regions at semicolons outside quotes, in a region at its delimiter.
-/

namespace SqlDump

/-! ## 1. Semicolons outside quotes -/

namespace Quoting

/-- Whether no semicolon of the text is outside quotes, if the scan stands at `q` before it. -/
def Uncut (q : Quoting) (s : Text) : Prop :=
  ∀ before after, s = before ++ ';' :: after → q.after before ≠ outside

theorem after_append (q : Quoting) (s t : Text) : q.after (s ++ t) = (q.after s).after t :=
  List.foldl_append

theorem step_blank {c : Char} (h : isBlank c = true) : step outside c = outside := by
  simp [step, not_isQuoteMark_of_isBlank h]

theorem after_blank {s : Text} (h : ∀ c ∈ s, isBlank c = true) : after outside s = outside := by
  induction s with
  | nil => rfl
  | cons c s ih =>
    show after (step outside c) s = outside
    rw [step_blank (h c List.mem_cons_self)]
    exact ih fun d hd => h d (List.mem_cons_of_mem _ hd)

-- What stands in a text without such semicolons is without them where the scan comes to it.
theorem Uncut.middle {q : Quoting} {lead s tail : Text} (h : q.Uncut (lead ++ s ++ tail)) :
    (q.after lead).Uncut s := by
  rintro before after rfl hout
  refine h (lead ++ before) (after ++ tail) (by simp) ?_
  rw [after_append]
  exact hout

theorem Uncut.cons {q : Quoting} {c : Char} {s : Text} (hc : q = outside → c ≠ ';')
    (h : (q.step c).Uncut s) : q.Uncut (c :: s) := by
  intro before after e
  cases before with
  | nil => exact fun hq => hc hq (List.head_eq_of_cons_eq e)
  | cons d before =>
    obtain ⟨rfl, hs⟩ := List.cons.inj e
    exact h before after hs

end Quoting

namespace Segment

open Nesting (rawPieces)
open Quoting (outside Uncut)

/-- The pieces of a text between the semicolons outside quotes, as they stand. -/
def plainPieces (q : Quoting) (s : Text) : List Text := rawPieces ';' false q 0 s

theorem plainPieces_cons (q : Quoting) (c : Char) (s : Text) : plainPieces q (c :: s) =
    if q = outside ∧ c = ';' then [] :: plainPieces q s
    else Nesting.extend c (plainPieces (q.step c) s) := by
  have hcut : Nesting.cutsAt ';' false q 0 c = true ↔ q = outside ∧ c = ';' := by
    cases q with
    | inside mark escaped => simp [Nesting.cutsAt, Quoting.isOutside]
    | outside =>
      simp only [Nesting.cutsAt, Quoting.isOutside, Bool.and_eq_true, decide_eq_true_eq]
      constructor
      · exact fun h => ⟨trivial, h.1.2⟩
      · rintro ⟨-, rfl⟩
        decide
  rw [plainPieces, rawPieces, if_congr hcut rfl rfl]
  rfl

/-- A text has no semicolon to be cut at, or a first piece that ends at one. -/
theorem plainPieces_cases (q : Quoting) (s : Text) : q.Uncut s ∧ plainPieces q s = [s] ∨
    ∃ u v, s = u ++ ';' :: v ∧ q.Uncut u ∧ q.after u = outside ∧
      plainPieces q s = u :: plainPieces outside v := by
  induction s generalizing q with
  | nil => exact Or.inl ⟨fun before after e => by simp at e, rfl⟩
  | cons c s ih =>
    rw [plainPieces_cons]
    by_cases hc : q = outside ∧ c = ';'
    · rw [if_pos hc]
      obtain ⟨rfl, rfl⟩ := hc
      exact Or.inr ⟨[], s, rfl, fun before after e => by simp at e, rfl, rfl⟩
    · rw [if_neg hc]
      have hc' : q = outside → c ≠ ';' := fun hq e => hc ⟨hq, e⟩
      rcases ih (q.step c) with ⟨huncut, hs⟩ | ⟨u, v, rfl, huncut, hout, hs⟩
      · exact Or.inl ⟨huncut.cons hc', by rw [hs]; rfl⟩
      · exact Or.inr ⟨c :: u, v, rfl, huncut.cons hc', hout, by rw [hs]; rfl⟩

theorem plainPieces_append {q : Quoting} {s : Text} (h : q.after s = outside) (t : Text) :
    plainPieces q (s ++ ';' :: t) = plainPieces q s ++ plainPieces outside t := by
  induction s generalizing q with
  | nil =>
    rw [List.nil_append, plainPieces_cons, if_pos ⟨h, rfl⟩, show q = outside from h]
    rfl
  | cons c s ih =>
    rw [List.cons_append, plainPieces_cons, plainPieces_cons]
    split
    · rename_i hc
      obtain ⟨rfl, rfl⟩ := hc
      rw [ih (q := outside) h, List.cons_append]
    · rw [ih h]
      cases hs : plainPieces (q.step c) s with
      | nil => exact absurd hs (Nesting.rawPieces_ne_nil _ _ _)
      | cons first rest => rfl

/-! ## 2. The texts of a segment -/

/-- The pieces of a segment's text, as they stand. -/
def cut : Option Text → Text → List Text
  | none, s => plainPieces outside s
  | some delimiter, s => Text.splitOn delimiter s

/-- The trimmed pieces that are not blank. -/
def texts (delimiter : Option Text) (s : Text) : List Text :=
  ((cut delimiter s).map Text.trim).filter (!·.isEmpty)

/-- What ends a statement. -/
def ending (delimiter : Option Text) : Text := delimiter.getD [';']

/-- Whether a text holds nothing that ends a statement, if the scan stands outside quotes before
it. -/
def Undivided : Option Text → Text → Prop
  | none, s => outside.Uncut s
  | some delimiter, s => ¬ delimiter <:+: s

theorem Undivided.middle {delimiter : Option Text} {lead s tail : Text}
    (hlead : ∀ c ∈ lead, isBlank c = true) (h : Undivided delimiter (lead ++ s ++ tail)) :
    Undivided delimiter s := by
  cases delimiter with
  | none =>
    have := Quoting.Uncut.middle h
    rwa [Quoting.after_blank hlead] at this
  | some d => exact fun hs => h (hs.trans ⟨lead, tail, rfl⟩)

/-- A text is one piece, or has a first piece that ends where a statement can end. -/
theorem cut_cases {delimiter : Option Text} (hd : delimiter ≠ some []) (s : Text) :
    Undivided delimiter s ∧ cut delimiter s = [s] ∨
      ∃ u v, s = u ++ ending delimiter ++ v ∧ Undivided delimiter u ∧
        (delimiter = none → outside.after u = outside) ∧
        cut delimiter s = u :: cut delimiter v := by
  cases delimiter with
  | none =>
    refine (plainPieces_cases outside s).imp id ?_
    rintro ⟨u, v, rfl, huncut, hout, hs⟩
    exact ⟨u, v, (List.append_cons u ';' v).symm ▸ rfl, huncut, fun _ => hout, hs⟩
  | some d =>
    have hd : d ≠ [] := fun e => hd (congrArg some e)
    refine (Text.splitOn_cases hd s).imp ?_ ?_
    · exact fun ⟨hs, hcut⟩ => ⟨Text.not_infix_of_cut? hs, hcut⟩
    · rintro ⟨u, v, hs, hu, hcut⟩
      exact ⟨u, v, hs, Text.not_infix_of_cut? hu, fun e => (Option.some_ne_none d e).elim, hcut⟩

/-! ## 3. Lines that end a segment -/

/-- The delimiter from behind the line on, if the line ends a segment. Outside regions a line that
declares the semicolon does not. -/
def turn? (delimiter : Option Text) (line : Text) : Option (Option Text) :=
  (Delimiter.declared? line).bind fun token =>
    if token = [';'] then delimiter.map fun _ => none else some (some token)

theorem declared_of_turn?_eq_none {delimiter : Option Text} {line : Text}
    (h : turn? delimiter line = none) : Delimiter.declared? line = none ∨
      delimiter = none ∧ Delimiter.declared? line = some [';'] := by
  cases hline : Delimiter.declared? line with
  | none => exact Or.inl rfl
  | some token =>
    rw [turn?, hline, Option.bind_some] at h
    split at h
    · rename_i htoken
      exact Or.inr ⟨Option.map_eq_none_iff.mp h, congrArg some htoken⟩
    · cases h

theorem declared_of_turn? {delimiter next : Option Text} {line : Text}
    (h : turn? delimiter line = some next) : ∃ token, Delimiter.declared? line = some token ∧
      (token ≠ [';'] ∧ next = some token ∨ token = [';'] ∧ delimiter ≠ none ∧ next = none) := by
  obtain ⟨token, hline, h⟩ := Option.bind_eq_some_iff.mp h
  refine ⟨token, hline, ?_⟩
  split at h
  · rename_i htoken
    obtain ⟨d, hd, e⟩ := Option.map_eq_some_iff.mp h
    exact Or.inr ⟨htoken, by rw [hd]; exact Option.some_ne_none d, e.symm⟩
  · rename_i htoken
    exact Or.inl ⟨htoken, (Option.some.inj h).symm⟩

-- A delimiter has a character at least.
theorem turn?_ne_nil {delimiter next : Option Text} {line : Text}
    (h : turn? delimiter line = some next) : next ≠ some [] := by
  obtain ⟨token, hline, ⟨-, rfl⟩ | ⟨-, -, rfl⟩⟩ := declared_of_turn? h
  · rintro e
    obtain rfl := Option.some.inj e
    unfold Delimiter.declared? at hline
    obtain ⟨r, -, hline⟩ := Option.bind_eq_some_iff.mp hline
    obtain ⟨-, -, hline⟩ := Option.bind_eq_some_iff.mp hline
    obtain ⟨⟨token, r'⟩, hrun, hline⟩ := Option.bind_eq_some_iff.mp hline
    obtain ⟨-, -, e⟩ := Option.bind_eq_some_iff.mp hline
    exact (Text.mem_run hrun).1 (Option.some.inj e)
  · exact (Option.some_ne_none _).symm

theorem ofLines_cons (delimiter : Option Text) (line : Text) (lines : List Text) :
    ofLines delimiter (line :: lines) =
      match turn? delimiter line with
      | none => extend line (ofLines delimiter lines)
      | some next => ⟨delimiter, []⟩ :: ofLines next lines := by
  rw [ofLines.eq_def, turn?]
  dsimp only
  cases Delimiter.declared? line with
  | none => rfl
  | some token =>
    by_cases h : token = [';']
    · cases delimiter <;> simp [h]
    · simp [h]

/-- The lines make up one segment, or a first one ends at a line that turns to another delimiter. -/
theorem ofLines_cases (delimiter : Option Text) (lines : List Text) :
    (∀ line ∈ lines, turn? delimiter line = none) ∧ ofLines delimiter lines = [⟨delimiter, lines⟩] ∨
      ∃ front line next rest, lines = front ++ line :: rest ∧
        (∀ line ∈ front, turn? delimiter line = none) ∧ turn? delimiter line = some next ∧
        ofLines delimiter lines = ⟨delimiter, front⟩ :: ofLines next rest := by
  induction lines with
  | nil => exact Or.inl ⟨fun _ h => (List.not_mem_nil h).elim, rfl⟩
  | cons line lines ih =>
    rw [ofLines_cons]
    cases hline : turn? delimiter line with
    | some next =>
      exact Or.inr ⟨[], line, next, lines, rfl, fun _ h => (List.not_mem_nil h).elim, hline, rfl⟩
    | none =>
      rcases ih with ⟨hlines, hof⟩ | ⟨front, last, next, rest, rfl, hfront, hlast, hof⟩
      · exact Or.inl ⟨List.forall_mem_cons.mpr ⟨hline, hlines⟩, by rw [hof]; rfl⟩
      · exact Or.inr ⟨line :: front, last, next, rest, rfl,
          List.forall_mem_cons.mpr ⟨hline, hfront⟩, hlast, by rw [hof]; rfl⟩

/-! ## 4. The statements of a segment -/

/-- The statements of a segment whose texts are not empty. -/
def read (account : Account) (segment : Segment) : Except ReadError (List Statement) :=
  (Statement.ofSegment account segment).map (·.filter (!·.text.isEmpty))

/-- The statement that a text of a segment is, given to no account. -/
def classify : Option Text → Text → Except ReadError Statement
  | none, s => Statement.classify s
  | some _, s => Statement.classifyRoutine s

theorem objectKind_cases (word : Text) : (∃ kind, Statement.objectKind word = .ok kind) ∨
    Statement.objectKind word = .error (.unknownObject word) := by
  unfold Statement.objectKind
  split
  · rename_i kind _
    exact Or.inl ⟨kind, rfl⟩
  · exact Or.inr rfl

/-- A statement keeps the text it is read from, and nothing but a word for an object is refused. -/
theorem classify_cases (delimiter : Option Text) (s : Text) :
    (∃ statement, classify delimiter s = .ok statement ∧ statement.text = s) ∨
      ∃ word, classify delimiter s = .error (.unknownObject word) := by
  cases delimiter with
  | none =>
    unfold classify Statement.classify
    dsimp only
    repeat' split
    case h_1 word _ =>
      rcases objectKind_cases word with ⟨kind, h⟩ | h <;> rw [h]
      exacts [Or.inl ⟨_, rfl, rfl⟩, Or.inr ⟨word, rfl⟩]
    all_goals exact Or.inl ⟨_, rfl, rfl⟩
  | some d =>
    unfold classify Statement.classifyRoutine
    dsimp only
    split
    · exact Or.inl ⟨_, rfl, rfl⟩
    · split
      · rename_i word _
        rcases objectKind_cases word with ⟨kind, h⟩ | h <;> rw [h]
        · exact Or.inl ⟨_, rfl, rfl⟩
        · exact Or.inr ⟨word, rfl⟩
      · exact Or.inl ⟨_, rfl, rfl⟩

theorem classify_nil (delimiter : Option Text) :
    classify delimiter [] = .ok { kind := .misc, text := [] } := by
  cases delimiter
  · rfl
  · rfl

-- Texts that are empty may be left out before or after they are read.
theorem mapM_classify (delimiter : Option Text) (parts : List Text) :
    (parts.mapM (classify delimiter)).map (·.filter (!·.text.isEmpty)) =
      (parts.filter (!·.isEmpty)).mapM (classify delimiter) := by
  induction parts with
  | nil => rfl
  | cons part parts ih =>
    rw [List.mapM_cons]
    cases part with
    | nil =>
      rw [classify_nil, List.filter_cons_of_neg (by decide), ← ih]
      cases parts.mapM (classify delimiter) <;> rfl
    | cons c part =>
      rw [List.filter_cons_of_pos rfl, List.mapM_cons, ← ih]
      rcases classify_cases delimiter (c :: part) with ⟨statement, h, ht⟩ | ⟨word, h⟩
      · rw [h]
        cases parts.mapM (classify delimiter) with
        | error e => rfl
        | ok statements =>
          exact congrArg Except.ok (List.filter_cons_of_pos (by rw [ht]; rfl))
      · rw [h]
        rfl

theorem filter_fragments (delimiter s : Text) :
    (Statement.fragments delimiter s).filter (!·.isEmpty) = Statement.fragments delimiter s := by
  rw [Statement.fragments, List.filter_filter]
  simp

/-- Outside regions an account changes nothing. -/
theorem read_plain (account : Account) (lines : List Text) :
    read account ⟨none, lines⟩ = (texts none (Text.join "\n" lines)).mapM (classify none) := by
  rw [texts, cut, plainPieces, ← Nesting.filter_pieces, ← mapM_classify]
  rfl

/-- Without an account the statements of a segment are its texts. -/
theorem read_unassigned (segment : Segment) :
    read {} segment = (texts segment.delimiter segment.text).mapM (classify segment.delimiter) := by
  obtain ⟨delimiter, lines⟩ := segment
  cases delimiter with
  | none => exact read_plain {} lines
  | some d =>
    show _ = (Statement.fragments d (Text.join "\n" lines)).mapM (classify (some d))
    rw [← filter_fragments, ← mapM_classify]
    rfl

-- What every member's computation leaves behind, the members' computations leave behind.
theorem mapM_map {ε α β γ : Type} (f : α → Except ε β) (g : β → γ) (l : List α) :
    l.mapM (fun a => (f a).map g) = (l.mapM f).map (List.map g) := by
  induction l with
  | nil => rfl
  | cons a l ih =>
    rw [List.mapM_cons, List.mapM_cons, ih]
    cases f a with
    | error e => rfl
    | ok b => cases l.mapM f <;> rfl

/-- A dump is split segment by segment. -/
theorem split_eq (account : Account) (sql : Text) : Statement.split account sql =
    ((split (cleanText sql)).mapM (read account)).map List.flatten := by
  unfold Statement.split
  rw [show read account = fun segment => (Statement.ofSegment account segment).map
    (List.filter (!·.text.isEmpty)) from rfl, mapM_map]
  cases (split (cleanText sql)).mapM (Statement.ofSegment account) with
  | error e => rfl
  | ok statements => exact congrArg Except.ok List.filter_flatten

/-- The texts of all segments of lines, the first of which has the delimiter. -/
def textsOf (delimiter : Option Text) (lines : List Text) : List Text :=
  (ofLines delimiter lines).flatMap fun s => texts s.delimiter s.text

-- Statements have the texts that they are read from.
theorem texts_of_mapM {delimiter : Option Text} {parts : List Text} {statements : List Statement}
    (h : parts.mapM (classify delimiter) = .ok statements) : statements.map (·.text) = parts := by
  rw [← List.map_id parts]
  refine Outcome.map_of_mapM (fun s statement hs => ?_) h
  rcases classify_cases delimiter s with ⟨other, hother, ht⟩ | ⟨word, hword⟩
  · obtain rfl := Except.ok.inj (hs.symm.trans hother)
    exact ht
  · cases hs.symm.trans hword

theorem texts_of_read {segment : Segment} {statements : List Statement}
    (h : read {} segment = .ok statements) :
    statements.map (·.text) = texts segment.delimiter segment.text :=
  texts_of_mapM (read_unassigned segment ▸ h)

theorem texts_of_split {sql : Text} {statements : List Statement}
    (h : Statement.split {} sql = .ok statements) :
    statements.map (·.text) = textsOf none (Text.feeds (cleanText sql)) := by
  rw [split_eq] at h
  cases hgroups : (split (cleanText sql)).mapM (read {}) with
  | error e =>
    rw [hgroups] at h
    cases h
  | ok groups =>
    rw [hgroups] at h
    cases h
    rw [List.map_flatten, Outcome.map_of_mapM (fun _ _ h => texts_of_read h) hgroups]
    rfl

theorem unknown_of_split {sql : Text} {e : ReadError} (h : Statement.split {} sql = .error e) :
    ∃ word, e = .unknownObject word := by
  rw [split_eq] at h
  cases hgroups : (split (cleanText sql)).mapM (read {}) with
  | error e' =>
    rw [hgroups] at h
    cases h
    obtain ⟨segment, -, hread⟩ := Outcome.exists_of_mapM_eq_error hgroups
    rw [read_unassigned] at hread
    obtain ⟨s, -, hs⟩ := Outcome.exists_of_mapM_eq_error hread
    rcases classify_cases segment.delimiter s with ⟨statement, hok, -⟩ | ⟨word, herror⟩
    · cases hs.symm.trans hok
    · exact ⟨word, Except.error.inj (hs.symm.trans herror)⟩
  | ok groups =>
    rw [hgroups] at h
    cases h

-- A statement is read from a text outside regions or from one in a region.
theorem classify_of_ofSegment {account : Account} {segment : Segment} {statements : List Statement}
    (h : Statement.ofSegment account segment = .ok statements) {s : Statement}
    (hs : s ∈ statements) : ∃ delimiter text, classify delimiter text = .ok s := by
  unfold Statement.ofSegment at h
  split at h
  · obtain ⟨text, -, htext⟩ := Outcome.exists_of_mapM_eq_ok h hs
    exact ⟨none, text, htext⟩
  · rename_i delimiter _
    obtain ⟨fragment, -, hfragment⟩ := Outcome.exists_of_mapM_eq_ok h hs
    obtain ⟨text, -, htext⟩ := Outcome.bind_eq_ok.mp hfragment
    exact ⟨some delimiter, text, htext⟩

theorem read_of_split {account : Account} {sql : Text} {statements : List Statement}
    (h : Statement.split account sql = .ok statements) {s : Statement} (hs : s ∈ statements) :
    ∃ delimiter text, classify delimiter text = .ok s := by
  obtain ⟨found, hfound, h⟩ := Outcome.bind_eq_ok.mp h
  cases h
  obtain ⟨read, hread, hs⟩ := List.mem_flatten.mp (List.mem_of_mem_filter hs)
  obtain ⟨segment, -, hsegment⟩ := Outcome.exists_of_mapM_eq_ok hfound hread
  exact classify_of_ofSegment hsegment hs

end Segment

end SqlDump
