import SqlDump.Proofs.RowStatements

/-!
# The rows of an INSERT statement

The rows of a statement are the groups that stand one after another behind VALUES, with blanks and
commas before each. A statement whose rows are all closed becomes one statement for each row, which
holds that row and what follows the rows, and which stays as it is when it is taken apart again.
-/

namespace SqlDump

open Text (collapse)

/-! ## 1. Groups -/

namespace Nesting

/-- A group, from its parenthesis to the one that closes it. -/
def Grouped (g : Text) : Prop := ∃ u, Balanced u ∧ g = '(' :: u ++ [')']

instance (s : Text) : Decidable (Balanced s) :=
  inferInstanceAs (Decidable (walk false start s = some start))

theorem group?_append {u : Text} (hu : Balanced u) (r : Text) :
    group? ('(' :: u ++ [')'] ++ r) = some (u, r) := by
  have htext : '(' :: u ++ [')'] ++ r = '(' :: (u ++ ')' :: r) := by simp
  rw [htext]
  exact closing?_of_walk hu r

-- Where no group stands at the front, none is read.
theorem group?_eq_none {s : Text} (h : ∀ g, Grouped g → ¬ g <+: s) : group? s = none := by
  by_contra hread
  obtain ⟨⟨u, r⟩, hread⟩ := Option.ne_none_iff_exists'.mp hread
  unfold group? at hread
  split at hread
  · rename_i s
    obtain ⟨rfl, hu⟩ := walk_of_closing? hread
    exact h _ ⟨u, hu, rfl⟩ ⟨r, by simp⟩
  · cases hread

end Nesting

/-! ## 2. Rows one after another -/

namespace Insert

open Nesting (Grouped)

/-- What may stand between two rows. -/
def isSeparator (c : Char) : Bool := isBlank c || c = ','

/-- What stands behind the last row: neither a separator at the front nor a row. -/
structure Behind (tail : Text) : Prop where
  noSeparator : ∀ c ∈ tail.head?, isSeparator c = false
  noRow : ∀ row, Grouped row → ¬ row <+: tail

theorem Behind.of_head {tail : Text} (h : ∀ c ∈ tail.head?, isSeparator c = false ∧ c ≠ '(') :
    Behind tail := by
  refine ⟨fun c hc => (h c hc).1, ?_⟩
  rintro _ ⟨u, -, rfl⟩ ⟨r, rfl⟩
  exact (h '(' rfl).2 rfl

/-- The rows that a text holds, each behind a gap of separators, and what stands behind them. -/
inductive Laid : List Text → Text → Text → Prop
  | done {gap tail : Text} : (∀ c ∈ gap, isSeparator c = true) → Behind tail →
      Laid [] tail (gap ++ tail)
  | row {gap row rest tail : Text} {rows : List Text} : (∀ c ∈ gap, isSeparator c = true) →
      Grouped row → Laid rows tail rest → Laid (row :: rows) tail (gap ++ (row ++ rest))

theorem exists_laid (s : Text) : ∃ rows tail, Laid rows tail s := by
  have hgap : ∀ c ∈ s.takeWhile isSeparator, isSeparator c = true := fun c hc =>
    List.mem_takeWhile_imp hc
  have hs := List.takeWhile_append_dropWhile (p := isSeparator) (l := s)
  by_cases hrow : ∃ row, Grouped row ∧ row <+: s.dropWhile isSeparator
  · obtain ⟨row, hgroup, rest, hrest⟩ := hrow
    have hshort : rest.length < s.length := by
      obtain ⟨u, -, rfl⟩ := hgroup
      rw [← hs, ← hrest]
      simp
      omega
    obtain ⟨rows, tail, hlaid⟩ := exists_laid rest
    rw [← hs, ← hrest]
    exact ⟨row :: rows, tail, .row hgap hgroup hlaid⟩
  · have hbehind : Behind (s.dropWhile isSeparator) := by
      refine ⟨fun c hc => ?_, fun row hgroup hprefix => hrow ⟨row, hgroup, hprefix⟩⟩
      have hhead := List.head?_dropWhile_not (p := isSeparator) (l := s)
      rw [Option.mem_def.mp hc] at hhead
      simpa using hhead
    rw [← hs]
    exact ⟨[], _, .done hgap hbehind⟩
termination_by s.length

theorem Laid.suffix {rows : List Text} {tail s : Text} (h : Laid rows tail s) : tail <:+ s := by
  induction h with
  | done => exact List.suffix_append ..
  | row _ _ _ ih => exact ih.trans ((List.suffix_append ..).trans (List.suffix_append ..))

theorem Laid.behind {rows : List Text} {tail s : Text} (h : Laid rows tail s) : Behind tail := by
  induction h with
  | done _ hbehind => exact hbehind
  | row _ _ _ ih => exact ih

theorem Laid.group {rows : List Text} {row tail s : Text} (h : Laid rows tail s) (hrow : row ∈ rows) :
    Grouped row := by
  induction h with
  | done => cases hrow
  | row _ hgroup _ ih =>
    rcases List.mem_cons.mp hrow with rfl | hrow
    · exact hgroup
    · exact ih hrow

theorem dropWhile_separators {gap t : Text} (hgap : ∀ c ∈ gap, isSeparator c = true)
    (ht : ∀ c ∈ t.head?, isSeparator c = false) : (gap ++ t).dropWhile isSeparator = t :=
  Text.dropWhile_append_eq (fun c r e => ht c (by rw [e]; rfl)) hgap

/-- One round: the group behind the separators and the rows behind it, or nothing more. -/
theorem rows?_succ (n : Nat) (s : Text) : rows? (n + 1) s =
    if (s.dropWhile isSeparator).head? = some '(' then
      (Nesting.group? (s.dropWhile isSeparator)).bind fun group =>
        (rows? n group.2).map fun found => (("(" ++ group.1 ++ ")") :: found.1, found.2)
    else some ([], s.dropWhile isSeparator) := by
  rw [rows?]
  split
  · rename_i r heq
    rw [show s.dropWhile isSeparator = '(' :: r from heq, if_pos List.head?_cons]
    cases Nesting.group? ('(' :: r) with
    | none => rfl
    | some group => cases hfound : rows? n group.2 <;> simp [hfound]
  · rename_i hopen
    rw [if_neg]
    · rfl
    · intro hhead
      obtain ⟨r, hr⟩ := List.head?_eq_some_iff.mp hhead
      exact hopen r hr

/-- The rows that are read are those that stand there, unless the next one is never closed. -/
theorem rows?_of_laid {rows : List Text} {tail s : Text} (h : Laid rows tail s) {n : Nat}
    (hn : s.length ≤ n) :
    rows? n s = if tail.head? = some '(' then none else some (rows, tail) := by
  induction h generalizing n with
  | @done gap tail hgap hbehind =>
    cases n with
    | zero =>
      obtain ⟨rfl, rfl⟩ := List.append_eq_nil_iff.mp (List.eq_nil_of_length_eq_zero (Nat.le_zero.mp hn))
      rfl
    | succ n =>
      rw [rows?_succ, dropWhile_separators hgap hbehind.noSeparator,
        Nesting.group?_eq_none hbehind.noRow, Option.bind_none]
  | @row gap row rest tail rows hgap hgroup hlaid ih =>
    obtain ⟨u, hu, rfl⟩ := hgroup
    have htext : '(' :: u ++ [')'] ++ rest = '(' :: (u ++ ')' :: rest) := by simp
    obtain ⟨n, rfl⟩ : ∃ m, n = m + 1 := ⟨n - 1, by simp at hn; omega⟩
    have hrest : rest.length ≤ n := by
      simp at hn
      omega
    have hread := Nesting.group?_append hu rest
    rw [htext] at hread
    rw [rows?_succ, dropWhile_separators hgap (by rw [htext]; rintro c ⟨⟩; decide), htext,
      if_pos List.head?_cons, hread, Option.bind_some, ih hrest]
    split
    · rfl
    · rfl

/-! ## 3. One statement for each row -/

theorem singles_of_none {text : Text} (h : head? (Alter.content text) = none) :
    singles text = [text] := by
  unfold singles
  dsimp only
  rw [show head? (Text.trim (Text.dropTrailing ';' (Text.trim text))) = none from h]
  rfl

-- Behind a header the rows decide.
theorem singles_of_head? {text rest : Text} {head : Head}
    (hhead : head? (Alter.content text) = some (head, rest)) : singles text =
      ((rows? (rest.length + 1) rest).map fun found => if found.1 = [] then [text] else
        found.1.map fun row => single head row (Text.trim found.2)).getD [text] := by
  obtain ⟨raw, r, -, -, hfronted⟩ := fronted_of_head? hhead
  unfold singles
  dsimp only
  rw [show head? (Text.trim (Text.dropTrailing ';' (Text.trim text))) = _ from hhead,
    Option.bind_eq_bind, Option.bind_some]
  dsimp only
  cases rows? (rest.length + 1) rest with
  | none => rfl
  | some found =>
    obtain ⟨rows, tail⟩ := found
    cases rows with
    | nil => rfl
    | cons row rows => exact List.map_congr_left fun row _ => hfronted.join row (Text.trim tail)

/-- The statements of a statement whose rows are all closed, and there is one. -/
theorem singles_of_laid {text rest tail : Text} {head : Head} {rows : List Text}
    (hhead : head? (Alter.content text) = some (head, rest)) (hlaid : Laid rows tail rest) :
    singles text = if tail.head? = some '(' ∨ rows = [] then [text] else
      rows.map fun row => single head row (Text.trim tail) := by
  rw [singles_of_head? hhead, rows?_of_laid hlaid (Nat.le_succ _)]
  by_cases htail : tail.head? = some '('
  · rw [if_pos htail, if_pos (Or.inl htail)]
    rfl
  · rw [if_neg htail, Option.map_some, Option.getD_some]
    by_cases hrows : rows = []
    · rw [if_pos hrows, if_pos (Or.inr hrows)]
    · rw [if_neg hrows, if_neg (by simp [htail, hrows])]

namespace Fronted

variable {head : Head} {raw row tail : Text}

theorem row_flush (hrow : Grouped row) (t : Text) : Flush (row ++ t) := by
  obtain ⟨u, -, rfl⟩ := hrow
  exact .cons (by decide) _

/-- In front of a row, what was read there is read again, its blanks made single. -/
theorem head?_single (h : Fronted head raw) (hrow : Grouped row) (tail : Text) :
    head? (single head row tail) = some ({ target := Text.spaced head.target, columns := head.columns },
      row ++ Text.behind tail) := by
  obtain ⟨r, rest, hlisted⟩ := h.listed
  have hne : row ≠ [] := by
    obtain ⟨u, -, rfl⟩ := hrow
    exact List.cons_ne_nil _ _
  have hspace : Text.behind row ++ Text.behind tail = ' ' :: (row ++ Text.behind tail) := by
    rw [Text.behind_of_ne_nil hne]
    rfl
  have hvalues := valuesBehind?_valued hlisted (row_flush hrow (Text.behind tail))
  rw [← hspace] at hvalues
  obtain ⟨hinto, hname⟩ := h.reads (Text.behind row ++ Text.behind tail)
  obtain ⟨shorter, hreadings, -⟩ := Identifier.qualifiedReadings_eq_cons hname
  rw [head?_eq, single, hinto, Option.bind_some, hreadings, List.findSome?_cons, headBehind?_eq,
    hvalues]
  simp

theorem single_spaced (h : Fronted head raw) (row tail : Text) :
    single { target := Text.spaced head.target, columns := head.columns } row tail =
      single head row tail := by
  have hspaced : Fronted { target := Text.spaced head.target, columns := head.columns }
      (collapse raw) := by
    obtain ⟨r, rest, hlisted⟩ := h.listed
    exact ⟨h.named.collapse, h.insertInto?_spaced, r, rest, hlisted⟩
  have htwice : Text.spaced (Text.spaced head.target) = Text.spaced head.target := by
    rw [show Text.spaced (Text.spaced head.target) = _ from hspaced.spaced, h.spaced,
      Text.collapse_collapse]
  unfold single
  dsimp only
  rw [htwice]

end Fronted

theorem Laid.only {row tail : Text} (hrow : Grouped row) (htail : Behind tail) :
    Laid [row] tail (row ++ Text.behind tail) := by
  by_cases hempty : tail = []
  · subst hempty
    exact @Laid.row [] row [] [] [] (by simp) hrow (@Laid.done [] [] (by simp) htail)
  · rw [Text.behind_of_ne_nil hempty]
    exact @Laid.row [] row (' ' :: tail) tail [] (by simp) hrow
      (@Laid.done [' '] tail (List.forall_mem_singleton.mpr rfl) htail)

theorem Behind.flush {tail : Text} (h : Behind tail) : Flush tail := by
  cases tail with
  | nil => rfl
  | cons c tail =>
    have hc := h.noSeparator c rfl
    rw [isSeparator, Bool.or_eq_false_iff] at hc
    exact .cons hc.1 tail

/-- A text ends in neither a blank nor a semicolon. -/
def EndsPlain (s : Text) : Prop := ∀ c ∈ s.getLast?, isBlank c = false ∧ c ≠ ';'

-- What stands at the end of a statement ends as the statement does.
theorem EndsPlain.of_suffix {text tail : Text} (hend : (Text.trim text).getLast? ≠ some ';')
    (htail : tail <:+ Text.trim text) : EndsPlain tail := by
  intro c hc
  have hlast : (Text.trim text).getLast? = some c := by
    obtain ⟨front, hfront⟩ := htail
    rw [← hfront, List.getLast?_append, Option.mem_def.mp hc]
    rfl
  have hne : Text.trim text ≠ [] := by
    intro hnil
    rw [hnil] at hlast
    cases hlast
  have hc : (Text.trim text).getLast hne = c :=
    Option.some.inj ((List.getLast?_eq_some_getLast hne).symm.trans hlast)
  have hblank := List.rdropWhile_last_not isBlank (Text.trimLeft text) hne
  refine ⟨?_, fun hsemicolon => hend (hsemicolon ▸ hlast)⟩
  rw [← hc]
  exact Bool.not_eq_true _ ▸ hblank

theorem EndsPlain.trim {s : Text} (h : EndsPlain s) (hs : Flush s) : Text.trim s = s := by
  rw [Text.trim, hs]
  refine List.rdropWhile_eq_self_iff.mpr fun hne => ?_
  simp [(h _ (List.getLast?_eq_some_getLast hne)).1]

theorem EndsPlain.single {row tail : Text} (hrow : Grouped row) (htail : EndsPlain tail) (head : Head) :
    EndsPlain (Insert.single head row tail) := by
  have hsplit : Insert.single head row tail =
      Text.spaced head.target ++ valued head.columns (Text.behind row) ++ Text.behind tail := by
    simp [Insert.single, valued]
  intro c hc
  rw [hsplit] at hc
  by_cases hempty : tail = []
  · obtain ⟨u, -, rfl⟩ := hrow
    have hlast : Text.spaced head.target ++ valued head.columns (Text.behind ('(' :: u ++ [')'])) ++
        Text.behind tail =
          (Text.spaced head.target ++ valued head.columns (' ' :: '(' :: u)) ++ [')'] := by
      simp [valued, Text.behind, hempty]
    rw [hlast, List.getLast?_concat] at hc
    cases hc
    decide
  · rw [Text.behind_of_ne_nil hempty, List.getLast?_append_of_ne_nil _ (List.cons_ne_nil _ _),
      ← List.singleton_append, List.getLast?_append_of_ne_nil _ hempty] at hc
    exact htail c hc

theorem Fronted.content_single {head : Head} {raw row tail : Text} (h : Fronted head raw)
    (hrow : Grouped row) (htail : EndsPlain tail) :
    Alter.content (single head row tail) = single head row tail := by
  obtain ⟨c, t, hstart⟩ := List.exists_cons_of_ne_nil h.spaced_ne_nil
  have hblank : isBlank c = false :=
    Text.not_isBlank_of_trimLeft ((flush_of_insertInto? h.insertInto?_spaced).trans hstart)
  have hfirst : single head row tail =
      c :: (t ++ valued head.columns (Text.behind row ++ Text.behind tail)) := by
    rw [Insert.single, hstart]
    rfl
  have hne : single head row tail ≠ [] := hfirst ▸ List.cons_ne_nil _ _
  have hlast := List.dropLast_append_getLast hne
  obtain ⟨hplain, hsemicolon⟩ :=
    EndsPlain.single hrow htail head _ (List.getLast?_eq_some_getLast hne)
  exact Alter.content_eq_self ⟨c, _, hfirst, hblank⟩ ⟨_, _, hlast.symm, hplain, hsemicolon⟩

/-- A statement with one row stays as it is. -/
theorem Fronted.singles_single {head : Head} {raw row tail : Text} (h : Fronted head raw)
    (hrow : Grouped row) (hbehind : Behind tail) (hopen : tail.head? ≠ some '(')
    (htail : EndsPlain tail) : singles (single head row tail) = [single head row tail] := by
  have hhead := h.head?_single hrow tail
  rw [← h.content_single hrow htail] at hhead
  rw [singles_of_laid hhead (.only hrow hbehind), if_neg (by simp [hopen]), List.map_singleton,
    htail.trim hbehind.flush, h.single_spaced]

theorem suffix_of_valuesBehind? {r rest : Text} {columns : Option Text}
    (h : valuesBehind? r = some (columns, rest)) : rest <:+ r := by
  have hvalues : ∀ {s rest : Text}, values? s = some rest → rest <:+ s := by
    intro s rest h
    obtain ⟨t, ht, heq⟩ := Option.bind_eq_some_iff.mp h
    cases heq
    obtain ⟨u, rfl, -⟩ := exists_of_keyword? ht
    refine (List.dropWhile_suffix isBlank).trans (List.IsSuffix.trans ?_ (List.suffix_append u t))
    cases hs : keyword? "S" t with
    | none => exact List.suffix_rfl
    | some t' =>
      obtain ⟨v, rfl, -⟩ := exists_of_keyword? hs
      exact List.suffix_append v t'
  have htrim : ∀ s, Text.trimLeft s <:+ s := fun s => List.dropWhile_suffix isBlank
  unfold valuesBehind? at h
  split at h
  · rename_i columns' t hlist
    obtain ⟨found, hfound, heq⟩ := Option.map_eq_some_iff.mp h
    cases heq
    obtain ⟨u, -, -, hs⟩ := columnList?_eq_some.mp hlist
    have ht : t <:+ Text.trimLeft r := hs ▸ List.suffix_append ..
    exact (hvalues hfound).trans ((htrim t).trans (ht.trans (htrim r)))
  · obtain ⟨found, hfound, heq⟩ := Option.map_eq_some_iff.mp h
    cases heq
    exact (hvalues hfound).trans (htrim r)

theorem content_eq_trim {text : Text} (hend : (Text.trim text).getLast? ≠ some ';') :
    Alter.content text = Text.trim text := by
  have hdrop : Text.dropTrailing ';' (Text.trim text) = Text.trim text := by
    refine List.rdropWhile_eq_self_iff.mpr fun hne hlast => hend ?_
    rw [List.getLast?_eq_some_getLast hne, of_decide_eq_true hlast]
  rw [Alter.content, hdrop, Text.trim_trim]

/-- A statement that ends in no semicolon, with rows behind VALUES: its rows stand one after another
there, and it becomes one statement for each of them. Each statement says what the first one says in
front of its rows, holds its row as the only one, ends as the first one does and stays as it is. If a
row is not closed, nothing changes. -/
theorem singles_rows {text rest : Text} {head : Head}
    (hend : (Text.trim text).getLast? ≠ some ';')
    (hhead : head? (Text.trim text) = some (head, rest)) :
    rest <:+ Text.trim text ∧ (∃ rows tail, Laid rows tail rest) ∧
      ∀ rows tail, Laid rows tail rest →
        (tail.head? = some '(' → singles text = [text]) ∧
        (tail.head? ≠ some '(' → rows ≠ [] →
          singles text = rows.map (fun row => single head row tail) ∧
          ∀ row ∈ rows,
            head? (single head row tail) =
              some ({ target := Text.spaced head.target, columns := head.columns },
                row ++ Text.behind tail) ∧
            Laid [row] tail (row ++ Text.behind tail) ∧
            singles (single head row tail) = [single head row tail]) := by
  obtain ⟨raw, r, hquery, hvalues, hfronted⟩ := fronted_of_head? hhead
  have hsuffix : rest <:+ Text.trim text :=
    hquery ▸ (suffix_of_valuesBehind? hvalues).trans (List.suffix_append ..)
  have hcontent := content_eq_trim hend
  refine ⟨hsuffix, exists_laid rest, fun rows tail hlaid => ⟨fun hopen => ?_, fun hopen hrows => ?_⟩⟩
  · rw [singles_of_laid (hcontent ▸ hhead) hlaid, if_pos (Or.inl hopen)]
  · have hbehind := hlaid.behind
    have hplain : EndsPlain tail := .of_suffix hend (hlaid.suffix.trans hsuffix)
    refine ⟨?_, fun row hrow => ?_⟩
    · rw [singles_of_laid (hcontent ▸ hhead) hlaid, if_neg (by simp [hopen, hrows]),
        hplain.trim hbehind.flush]
    · have hgroup := hlaid.group hrow
      exact ⟨hfronted.head?_single hgroup tail, .only hgroup hbehind,
        hfronted.singles_single hgroup hbehind hopen hplain⟩

/-- Rows with parentheses and quotes in their strings, and a clause behind them. -/
theorem singles_rows_quoted :
    let text : Text := "INSERT INTO t  (a) VALUES ('it''s (\\'x'),(f(\")\")) ON x"
    let head : Head := { target := "INSERT INTO t", columns := some "(a)" }
    let rows : List Text := ["('it''s (\\'x')", "(f(\")\"))"]
    singles text = rows.map (fun row => single head row "ON x") ∧
      ∀ row ∈ rows, singles (single head row "ON x") = [single head row "ON x"] := by
  intro text head rows
  let rest : Text := "('it''s (\\'x'),(f(\")\")) ON x"
  have hend : (Text.trim text).getLast? ≠ some ';' := by decide +kernel
  have hhead : head? (Text.trim text) = some (head, rest) := by decide +kernel
  have hlaid : Laid rows "ON x" rest :=
    @Laid.row [] _ _ _ _ (by simp) ⟨"'it''s (\\'x'", by decide +kernel, rfl⟩
      (@Laid.row [','] _ _ _ _ (List.forall_mem_singleton.mpr rfl) ⟨"f(\")\")", by decide +kernel, rfl⟩
        (@Laid.done [' '] _ (List.forall_mem_singleton.mpr rfl)
          (.of_head (by rintro _ ⟨⟩; exact ⟨rfl, by decide⟩))))
  obtain ⟨hsingles, hrows⟩ := ((singles_rows hend hhead).2.2 rows _ hlaid).2 (by decide) (by decide)
  exact ⟨hsingles, fun row hrow => (hrows row hrow).2.2⟩

end Insert

end SqlDump
