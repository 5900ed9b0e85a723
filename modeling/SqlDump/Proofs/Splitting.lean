import SqlDump.Proofs.Regions

/-!
# What splitting leaves of a text

A clean text is read part by part, each where such a part may stand: the texts of statements, and
between them blanks, what ends a statement, and the lines that turn to another delimiter. The parts
make up the text, so splitting loses nothing of it.
-/

namespace SqlDump

open Segment (texts Undivided ending turn?)

/-! ## 1. Parts and places -/

/-- A part of a clean text. -/
inductive Part where
  | statement (text : Text)
  | blank (c : Char)
  | semicolon
  | delimiter (token : Text)
  | directive (line : Text)

namespace Part

def text : Part → Text
  | statement text => text
  | blank c => [c]
  | semicolon => [';']
  | delimiter token => token
  | directive line => line

def statement? : Part → Option Text
  | statement text => some text
  | _ => none

/-- The texts of parts, one after another. -/
def join (parts : List Part) : Text := parts.flatMap text

/-- The texts of the statements among parts. -/
def statements (parts : List Part) : List Text := parts.filterMap statement?

/-- What ends a statement of a segment. -/
def ending : Option Text → Part
  | none => semicolon
  | some token => delimiter token

/-- The directives among parts, the first of which starts at `n`. -/
def directives : Nat → List Part → List Directive
  | _, [] => []
  | n, directive line :: parts =>
    ⟨n, n + line.length, (Delimiter.declared? line).getD []⟩ :: directives (n + line.length) parts
  | n, part :: parts => directives (n + part.text.length) parts

theorem directives_append (n : Nat) (parts rest : List Part) : directives n (parts ++ rest) =
    directives n parts ++ directives (n + (join parts).length) rest := by
  induction parts generalizing n with
  | nil => rfl
  | cons part parts ih =>
    have hlength : n + (join (part :: parts)).length =
        n + part.text.length + (join parts).length := by
      rw [join, List.flatMap_cons, List.length_append, Nat.add_assoc]
      rfl
    rw [hlength, List.cons_append]
    cases part with
    | directive line =>
      rw [directives, directives, ih]
      rfl
    | _ =>
      rw [directives, directives, ih]
      all_goals exact fun line e => Part.noConfusion e

end Part

/-- Where the reading of a clean text stands: outside regions at a place among quotes, or in a
region. -/
inductive Place where
  | plain (q : Quoting)
  | region (delimiter : Text)

namespace Place

/-- Where a segment starts. -/
def start : Option Text → Place
  | none => plain .outside
  | some delimiter => region delimiter

/-- The place behind a text that turns to no other delimiter. -/
def after : Place → Text → Place
  | plain q, s => plain (q.after s)
  | region delimiter, _ => region delimiter

/-- A part that may stand at a place, and the place behind it. -/
inductive Step : Place → Part → Place → Prop where
  | blank {p c} : isBlank c = true → Step p (.blank c) (p.after [c])
  | statement {delimiter s} : s ≠ [] → Text.trim s = s → Undivided delimiter s →
      Step (start delimiter) (.statement s) ((start delimiter).after s)
  | semicolon : Step (plain .outside) .semicolon (plain .outside)
  | delimiter {token} : Step (region token) (.delimiter token) (region token)
  | opening {p line token} : Delimiter.declared? line = some token → token ≠ [';'] →
      Step p (.directive line) (region token)
  | closing {token line} : Delimiter.declared? line = some [';'] →
      Step (region token) (.directive line) (plain .outside)

/-- Parts that may stand one after another from a place on, and the place behind them. -/
inductive Reads : Place → List Part → Place → Prop where
  | nil {p} : Reads p [] p
  | cons {p part p' parts p''} : Step p part p' → Reads p' parts p'' → Reads p (part :: parts) p''

theorem Reads.append {p p' p'' : Place} {parts more : List Part} (h : Reads p parts p')
    (hmore : Reads p' more p'') : Reads p (parts ++ more) p'' := by
  induction h with
  | nil => exact hmore
  | cons step _ ih => exact .cons step (ih hmore)

theorem after_append (p : Place) (s t : Text) : p.after (s ++ t) = (p.after s).after t := by
  cases p with
  | plain q => exact congrArg plain (q.after_append s t)
  | region delimiter => rfl

theorem start_after_blank (delimiter : Option Text) {s : Text} (h : ∀ c ∈ s, isBlank c = true) :
    (start delimiter).after s = start delimiter := by
  cases delimiter with
  | none => exact congrArg plain (Quoting.after_blank h)
  | some delimiter => rfl

end Place

/-! ## 2. Parts of a segment -/

open Place (Step Reads start)

/-- From one place to another some parts, the first of which starts at `n`, make up a text. They
hold the texts of statements and the directives that are given. -/
def Covers (n : Nat) (p : Place) (s : Text) (found : List Text) (marks : List Directive)
    (p' : Place) : Prop :=
  ∃ parts, Part.join parts = s ∧ Part.statements parts = found ∧
    Part.directives n parts = marks ∧ Reads p parts p'

namespace Covers

variable {n : Nat} {p p' p'' : Place} {s t : Text} {found more : List Text}
  {marks others : List Directive}

theorem nil : Covers n p [] [] [] p := ⟨[], rfl, rfl, rfl, .nil⟩

theorem append (h : Covers n p s found marks p')
    (hrest : Covers (n + s.length) p' t more others p'') :
    Covers n p (s ++ t) (found ++ more) (marks ++ others) p'' := by
  obtain ⟨parts, rfl, rfl, rfl, reads⟩ := h
  obtain ⟨rest, rfl, rfl, rfl, readsRest⟩ := hrest
  exact ⟨parts ++ rest, List.flatMap_append, List.filterMap_append,
    Part.directives_append n parts rest, reads.append readsRest⟩

theorem single {part : Part} (h : Step p part p') :
    Covers n p part.text part.statement?.toList (Part.directives n [part]) p' :=
  ⟨[part], List.flatMap_singleton _ _, by cases part <;> rfl, rfl, .cons h .nil⟩

theorem blanks (h : ∀ c ∈ s, isBlank c = true) : Covers n p s [] [] (p.after s) := by
  induction s generalizing n p with
  | nil => cases p <;> exact nil
  | cons c s ih =>
    obtain ⟨hc, hs⟩ := List.forall_mem_cons.mp h
    rw [show p.after (c :: s) = (p.after [c]).after s from p.after_append [c] s]
    exact (single (.blank hc)).append (ih hs)

variable {delimiter : Option Text}

/-- A piece is a statement between blanks, or is blank. -/
theorem piece (h : Undivided delimiter s) : Covers n (start delimiter) s
    ([Text.trim s].filter (!·.isEmpty)) [] ((start delimiter).after s) := by
  -- the blanks before a statement leave the scan outside quotes, those behind it need not
  obtain ⟨lead, tail, hs, hlead, htail⟩ := Text.exists_trim s
  have trimmed : ∀ n, Covers n (start delimiter) (Text.trim s)
      ([Text.trim s].filter (!·.isEmpty)) [] ((start delimiter).after (Text.trim s)) := by
    intro n
    cases hne : (Text.trim s).isEmpty with
    | true =>
      rw [List.isEmpty_iff.mp hne]
      exact blanks fun _ hc => (List.not_mem_nil hc).elim
    | false =>
      rw [List.filter_cons_of_pos (by rw [hne]; rfl)]
      exact single (.statement (List.isEmpty_eq_false_iff.mp hne) (Text.trim_trim s)
        (Undivided.middle hlead (hs ▸ h)))
  have before : Covers n (start delimiter) lead [] [] (start delimiter) := by
    have := blanks (n := n) (p := start delimiter) hlead
    rwa [Place.start_after_blank delimiter hlead] at this
  have all := (before.append (trimmed _)).append (blanks htail)
  rw [← hs, List.append_nil, List.nil_append] at all
  have hafter : (start delimiter).after s = ((start delimiter).after (Text.trim s)).after tail := by
    conv_lhs => rw [hs, Place.after_append, Place.after_append, Place.start_after_blank _ hlead]
  rw [hafter]
  exact all

/-- A text of a segment is read to its end, without leaving the region it may be in. -/
theorem segment (hd : delimiter ≠ some []) (n : Nat) (s : Text) :
    ∃ p', Covers n (start delimiter) s (texts delimiter s) [] p' ∧
      ∀ d, delimiter = some d → p' = .region d := by
  induction hlength : s.length using Nat.strong_induction_on generalizing n s with
  | _ length ih =>
    rcases Segment.cut_cases hd s with ⟨hs, hcut⟩ | ⟨u, v, hs, hu, hout, hcut⟩
    · refine ⟨(start delimiter).after s, ?_, fun d e => by rw [e]; rfl⟩
      rw [texts, hcut]
      exact piece hs
    · have hnonempty : ending delimiter ≠ [] := by
        cases delimiter with
        | none => exact List.cons_ne_nil _ _
        | some d => exact fun e => hd (congrArg some e)
      have hshorter : v.length < length := by
        have := List.length_pos_iff.mpr hnonempty
        rw [← hlength, hs, List.length_append, List.length_append]
        omega
      have hstay : (start delimiter).after u = start delimiter := by
        cases delimiter with
        | none => exact congrArg Place.plain (hout rfl)
        | some d => rfl
      have first : Covers n (start delimiter) u ([Text.trim u].filter (!·.isEmpty)) []
          (start delimiter) := by
        have := piece (n := n) hu
        rwa [hstay] at this
      have between : Covers (n + u.length) (start delimiter) (ending delimiter) [] []
          (start delimiter) := by
        cases delimiter with
        | none => exact single .semicolon
        | some d => exact single .delimiter
      -- what ends the piece leaves the scan where the segment started
      obtain ⟨p', rest, hp'⟩ := ih v.length hshorter (n + (u ++ ending delimiter).length) v rfl
      have all := (first.append between).append rest
      rw [← hs, List.append_nil, List.nil_append] at all
      refine ⟨p', ?_, hp'⟩
      rw [texts, hcut, List.map_cons, ← List.singleton_append, List.filter_append]
      exact all

-- The lines of a segment, each with its line feed.
theorem ended (hd : delimiter ≠ some []) (n : Nat) (lines : List Text) :
    ∃ p', Covers n (start delimiter) (Text.ended lines) (texts delimiter (Text.join "\n" lines)) []
      p' ∧ ∀ d, delimiter = some d → p' = .region d := by
  cases lines with
  | nil => exact ⟨start delimiter, by cases delimiter <;> exact nil, fun d e => by rw [e]; rfl⟩
  | cons line lines =>
    obtain ⟨p', first, hp'⟩ := segment hd n (Text.join "\n" (line :: lines))
    have all : Covers n (start delimiter) (Text.join "\n" (line :: lines) ++ ['\n'])
        (texts delimiter (Text.join "\n" (line :: lines)) ++ []) [] (p'.after ['\n']) :=
      first.append (single (.blank (by decide)))
    rw [List.append_nil, ← Text.ended_eq (List.cons_ne_nil _ _)] at all
    exact ⟨_, all, fun d e => by rw [hp' d e]; rfl⟩

end Covers

/-! ## 3. Parts of all segments -/

/-- Lines can be read from where a segment starts at `n`, up to their last segment. -/
def Readable (n : Nat) (delimiter : Option Text) (lines : List Text) : Prop :=
  ∃ marks p',
    Covers n (start delimiter) (Text.join "\n" lines) (Segment.textsOf delimiter lines) marks p' ∧
    Counts delimiter marks (Directive.ofLines n lines)

-- Lines behind a directive, each with its line feed before it.
theorem Readable.begun {delimiter : Option Text} {n : Nat} {lines : List Text}
    (h : Readable (n + 1) delimiter lines) : ∃ marks p',
      Covers n (start delimiter) (Text.begun lines) (Segment.textsOf delimiter lines) marks p' ∧
      Counts delimiter marks (Directive.ofLines (n + 1) lines) := by
  cases lines with
  | nil =>
    refine ⟨[], start delimiter, ?_, .quiet (fun _ h => (List.not_mem_nil h).elim) 0⟩
    cases delimiter <;> exact .nil
  | cons line lines =>
    obtain ⟨marks, p', covers, counts⟩ := h
    have hblank : ∀ c ∈ ['\n'], isBlank c = true := by
      intro c hc
      rw [List.mem_singleton.mp hc]
      decide
    have feed : Covers n (start delimiter) ['\n'] [] [] (start delimiter) := by
      have := Covers.blanks (n := n) (p := start delimiter) hblank
      rwa [Place.start_after_blank delimiter hblank] at this
    rw [Text.begun_cons]
    exact ⟨marks, p', feed.append covers, counts⟩

-- A line that turns to another delimiter.
theorem Covers.turn {delimiter next : Option Text} {line : Text}
    (h : turn? delimiter line = some next) {p : Place}
    (hp : ∀ d, delimiter = some d → p = .region d) (n : Nat) :
    ∃ token, Delimiter.declared? line = some token ∧
      Covers n p line [] [⟨n, n + line.length, token⟩] (start next) := by
  obtain ⟨token, hline, hnext⟩ := Segment.declared_of_turn? h
  have covers : ∀ {p'}, Step p (.directive line) p' →
      Covers n p line [] [⟨n, n + line.length, token⟩] p' := by
    intro p' step
    have := single (n := n) step
    rwa [Part.directives, hline] at this
  refine ⟨token, hline, ?_⟩
  rcases hnext with ⟨hopening, rfl⟩ | ⟨rfl, hregion, rfl⟩
  · exact covers (.opening hline hopening)
  · obtain ⟨d, hd⟩ := Option.ne_none_iff_exists'.mp hregion
    rw [hp d hd] at covers ⊢
    exact covers (.closing hline)

/-- **Lines read part by part.** The parts hold the texts of all segments, and the directives that
open and close the regions. -/
theorem readable {delimiter : Option Text} (hd : delimiter ≠ some []) (n : Nat)
    (lines : List Text) : Readable n delimiter lines := by
  induction hlength : lines.length using Nat.strong_induction_on generalizing n delimiter lines with
  | _ length ih =>
    rcases Segment.ofLines_cases delimiter lines with
      ⟨hquiet, hof⟩ | ⟨front, line, next, rest, hlines, hfront, hline, hof⟩
    · obtain ⟨p', all, -⟩ := Covers.segment hd n (Text.join "\n" lines)
      refine ⟨[], p', ?_, .quiet hquiet n⟩
      rw [Segment.textsOf, hof, List.flatMap_singleton]
      exact all
    · have hshorter : rest.length < length := by
        rw [← hlength, hlines, List.length_append, List.length_cons]
        omega
      -- the directive stands behind the lines of its segment, and the rest behind its line feed
      obtain ⟨m, hm⟩ : ∃ m, m = n + (Text.ended front).length := ⟨_, rfl⟩
      obtain ⟨p, first, hp⟩ := Covers.ended hd n front
      obtain ⟨token, hdeclared, directive⟩ := Covers.turn hline hp m
      obtain ⟨marks, p', others, counts⟩ :=
        (ih rest.length hshorter (Segment.turn?_ne_nil hline) (m + line.length + 1) rest rfl).begun
      refine ⟨⟨m, m + line.length, token⟩ :: marks, p', ?_, ?_⟩
      · rw [Segment.textsOf, hof, List.flatMap_cons, hlines, Text.join_append_cons]
        exact first.append (hm ▸ directive.append others)
      · rw [hlines, Directive.ofLines_append, Directive.ofLines, hdeclared, ← hm]
        exact counts.turn hfront hline hdeclared

/-! ## 4. Splitting -/

namespace Statement

/-- **Splitting conserves the text.** A clean text is made up of the texts of its statements and,
between them, of blanks, of semicolons outside quotes and regions, of the delimiters of the regions
they stand in, and of directives, each a line of its own. No statement is empty, has blanks around
it or holds what would have ended it. The directives open and close the regions of the text, which
follow one another inside it. Splitting fails only at a word for an unknown object. -/
theorem split_conserves (sql : Text) :
    (∃ parts place, Part.join parts = cleanText sql ∧
      Reads (.plain .outside) parts place ∧
      (∀ statements, split {} sql = .ok statements →
        statements.map (·.text) = Part.statements parts) ∧
      (Part.directives 0 parts).Sublist (Directive.ofLines 0 (Text.feeds (cleanText sql))) ∧
      Region.ofDirectives (cleanText sql).length (Part.directives 0 parts) =
        Region.ofText (cleanText sql)) ∧
    (Region.ofText (cleanText sql)).Pairwise (·.stop ≤ ·.start) ∧
    (∀ r ∈ Region.ofText (cleanText sql), r.start < r.stop ∧ r.stop ≤ (cleanText sql).length) ∧
    ∀ e, split {} sql = .error e → ∃ word, e = .unknownObject word := by
  obtain ⟨marks, place, ⟨parts, hjoin, hstatements, rfl, reads⟩, counts⟩ :=
    readable (Option.some_ne_none []).symm 0 (Text.feeds (cleanText sql))
  rw [Text.join_feeds] at hjoin
  refine ⟨⟨parts, place, hjoin, reads, fun statements h => ?_, counts.sublist, counts.regions _⟩,
    (Region.ordered_ofText _).1, (Region.ordered_ofText _).2, fun e => Segment.unknown_of_split⟩
  rw [Segment.texts_of_split h, hstatements]

/-- A semicolon in quotes, and one in a region whose delimiter is another. -/
theorem split_conserves_region :
    let sql : Text := "INSERT INTO a VALUES ('x;');\nDELIMITER ;;\nCREATE TRIGGER t; END ;;" ++
      "\nDELIMITER ;\nDROP TABLE a"
    ∃ statements parts place, split {} sql = .ok statements ∧ Part.join parts = cleanText sql ∧
      Reads (.plain .outside) parts place ∧
      Part.statements parts = ["INSERT INTO a VALUES ('x;')".toList, "CREATE TRIGGER t; END".toList,
        "DROP TABLE a".toList] ∧
      Region.ofDirectives (cleanText sql).length (Part.directives 0 parts) =
        [⟨29, 78, [';', ';']⟩] ∧ 29 < 78 ∧ 78 ≤ (cleanText sql).length := by
  intro sql
  obtain ⟨statements, hsplit, htexts⟩ := Outcome.exists_ok (x := split {} sql)
    (f := fun statements => statements.map (·.text))
    (b := ["INSERT INTO a VALUES ('x;')".toList, "CREATE TRIGGER t; END".toList,
      "DROP TABLE a".toList]) (by decide +kernel)
  have hregion : Region.ofText (cleanText sql) = [⟨29, 78, [';', ';']⟩] := by decide +kernel
  obtain ⟨⟨parts, place, hjoin, hreads, hfound, -, hregions⟩, -, hinside, -⟩ := split_conserves sql
  exact ⟨statements, parts, place, hsplit, hjoin, hreads,
    (hfound statements hsplit).symm.trans htexts, hregions.trans hregion,
    hinside _ (hregion ▸ List.mem_singleton_self _)⟩

end Statement

end SqlDump
