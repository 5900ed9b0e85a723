import SqlDump.Proofs.InsertRows

/-!
# The targets of the statements for single rows

The statements made of one INSERT statement name its table and list its columns as it does if VALUES
stands behind the whole of the name, but every run of blanks in the name is one space. If VALUES
stands only behind a part of the name, that part is the table they name.
-/

namespace SqlDump

namespace Insert

open Identifier (CutShort)
open Text (collapse)

/-! ## 1. VALUES behind a name that is cut short -/

theorem keyword?_of_nameChars {w v t r : Text} (hw : spelledIn isNameChar w = true)
    (ht : Identifier.NoNameChar t) (h : keyword? w (v ++ t) = some r) :
    ∃ v', r = v' ++ t ∧ v' <:+ v := by
  obtain ⟨u, hu, -, hall, -⟩ := exists_of_spelled hw h
  rcases List.append_eq_append_iff.mp hu with ⟨x, hx, hr⟩ | ⟨x, rfl, hr⟩
  · cases x with
    | nil =>
      rw [List.append_nil] at hx
      exact ⟨[], hr.symm, List.nil_suffix⟩
    | cons c x =>
      have hc := ht c _ hr
      rw [hall c (hx ▸ by simp)] at hc
      cases hc
  · exact ⟨x, hr, List.suffix_append u x⟩

theorem rows_eq_nil {rows : List Text} {tail s : Text} (h : Laid rows tail s)
    (hs : (s.dropWhile isSeparator).head? ≠ some '(') : rows = [] := by
  cases h with
  | done => rfl
  | row hgap hgroup _ =>
    obtain ⟨u, -, rfl⟩ := hgroup
    rw [dropWhile_separators hgap (by rintro c ⟨⟩; decide)] at hs
    exact absurd rfl hs

-- VALUES that goes on with a name ends within it, or at its end.
theorem rest_of_nameChars {v t rest : Text} {columns : Option Text} (hv : v ≠ [])
    (hall : ∀ c ∈ v, isNameChar c = true) (ht : Identifier.NoNameChar t)
    (h : valuesBehind? (v ++ t) = some (columns, rest)) :
    ∃ v', v' <:+ v ∧ rest = Text.trimLeft (v' ++ t) := by
  have hflush : Text.trimLeft (v ++ t) = v ++ t := by
    obtain ⟨c, v, rfl⟩ := List.exists_cons_of_ne_nil hv
    exact Text.trimLeft_cons (not_isBlank_of_isNameChar (hall c List.mem_cons_self)) _
  have hnone : columnList? (v ++ t) = none := by
    obtain ⟨c, v, rfl⟩ := List.exists_cons_of_ne_nil hv
    rw [List.cons_append]
    unfold columnList?
    split
    · rename_i heq
      have hc := hall c List.mem_cons_self
      rw [(List.cons.inj heq).1] at hc
      cases hc
    · rfl
  unfold valuesBehind? at h
  rw [hflush, hnone] at h
  obtain ⟨found, hfound, heq⟩ := Option.map_eq_some_iff.mp h
  cases heq
  obtain ⟨r, hvalue, hrest⟩ := Option.bind_eq_some_iff.mp hfound
  cases hrest
  obtain ⟨v₁, rfl, hsuffix⟩ := keyword?_of_nameChars (by decide +kernel) ht hvalue
  cases hs : keyword? "S" (v₁ ++ t) with
  | none => exact ⟨v₁, hsuffix, rfl⟩
  | some r =>
    obtain ⟨v₂, rfl, hsuffix'⟩ := keyword?_of_nameChars (by decide +kernel) ht hs
    exact ⟨v₂, hsuffix'.trans hsuffix, rfl⟩

-- Between the rest of a schema and its dot stand no rows.
theorem rows_eq_nil_of_dot {v t u rest tail : Text} {columns : Option Text} {rows : List Text}
    (hall : ∀ c ∈ v, isNameChar c = true) (hdot : Text.trimLeft t = '.' :: u)
    (h : valuesBehind? (v ++ t) = some (columns, rest)) (hlaid : Laid rows tail rest) : rows = [] := by
  refine rows_eq_nil hlaid ?_
  have hstop : Identifier.NoNameChar t := by
    rintro c s rfl
    cases hblank : isBlank c with
    | true => exact not_isNameChar_of_isBlank hblank
    | false =>
      rw [Text.trimLeft_cons hblank] at hdot
      rw [(List.cons.inj hdot).1]
      decide
  by_cases hv : v = []
  · subst hv
    rw [List.nil_append, valuesBehind?, hdot] at h
    cases h
  · obtain ⟨v', hsuffix, rfl⟩ := rest_of_nameChars hv hall hstop h
    cases v' with
    | nil =>
      rw [List.nil_append, hdot, List.dropWhile_cons_of_neg (by decide)]
      simp
    | cons c v' =>
      have hc := hall c (hsuffix.subset List.mem_cons_self)
      have hblank := not_isBlank_of_isNameChar hc
      have hne : ∀ d, isNameChar d = false → c ≠ d := by
        rintro d hd rfl
        rw [hd] at hc
        cases hc
      rw [List.cons_append, Text.trimLeft_cons hblank, List.dropWhile_cons_of_neg]
      · simpa using hne '(' (by decide)
      · simp [isSeparator, hblank, hne ',' (by decide)]

/-- Where rows stand behind a name that is cut short, its last identifier is what is cut. -/
theorem exists_of_cutShort {raw r rest tail : Text} {q : Text × Text} {rows : List Text}
    {columns : Option Text} (hcut : CutShort raw r q)
    (h : valuesBehind? q.2 = some (columns, rest)) (hlaid : Laid rows tail rest) (hrows : rows ≠ []) :
    ∃ b v, v ≠ [] ∧ (∀ c ∈ b, isNameChar c = true) ∧ Identifier.bare raw = b ++ v ∧
      Identifier.bare q.1 = b := by
  cases hcut with
  | schema hall hdot => exact absurd (rows_eq_nil_of_dot hall hdot h hlaid) hrows
  | @name front b v hschema hb hv hall hstop hraw =>
    have hleft : ∀ c ∈ b, isNameChar c = true := fun c hc => hall c (List.mem_append_left _ hc)
    have hne : b ++ v ≠ [] := by simp [hb]
    refine ⟨b, v, hv, hleft, ?_, ?_⟩
    · rw [hraw, hschema.bare (.bare hne hall), Identifier.bare_eq_self hne hall]
    · rw [hschema.bare (.bare hb hleft), Identifier.bare_eq_self hb hleft]

/-! ## 2. What the statements are made of -/

/-- A statement stays as it is, or there is one statement for each of its rows. -/
theorem singles_cases (text : Text) : singles text = [text] ∨
    ∃ head rest rows tail, head? (Alter.content text) = some (head, rest) ∧ Laid rows tail rest ∧
      rows ≠ [] ∧ singles text = rows.map fun row => single head row (Text.trim tail) := by
  cases hhead : head? (Alter.content text) with
  | none => exact Or.inl (singles_of_none hhead)
  | some found =>
    obtain ⟨head, rest⟩ := found
    obtain ⟨rows, tail, hlaid⟩ := exists_laid rest
    have hsingles := singles_of_laid hhead hlaid
    by_cases hsame : tail.head? = some '(' ∨ rows = []
    · rw [if_pos hsame] at hsingles
      exact Or.inl hsingles
    · rw [if_neg hsame] at hsingles
      exact Or.inr ⟨head, rest, rows, tail, rfl, hlaid, fun hrows => hsame (Or.inr hrows), hsingles⟩

-- A statement's name is read in front of an ending as it is without it.
theorem nameIn_of_content {text s raw r : Text} (hinto : insertInto? (Alter.content text) = some s)
    (hname : Identifier.qualified? s = some (raw, r)) :
    Kind.insert.nameIn text = some (Identifier.bare raw) := by
  obtain ⟨x, hx, htrim⟩ := Alter.trim_eq_content_append text
  obtain ⟨u, hu, hfront⟩ := front_of_insertInto? hinto
  obtain ⟨hraw, hs⟩ := Identifier.Qualified.of_read? hname
  have hflush : Flush (s ++ x) := by
    rw [hs, List.append_assoc]
    exact CreateTable.flush_of_qualified hraw _
  unfold Kind.nameIn Kind.rawName?
  rw [htrim, hu, List.append_assoc]
  dsimp only
  rw [hfront _ hflush, Option.bind_eq_bind, Option.bind_some, Identifier.qualified?_append hx, hname]
  rfl

/-- The rows stand behind the whole of the name, or else behind a name that is cut short. -/
theorem whole_or_cutShort {text rest : Text} {head : Head}
    (hhead : head? (Alter.content text) = some (head, rest)) :
    ∃ s raw r, insertInto? (Alter.content text) = some s ∧
      Identifier.qualified? s = some (raw, r) ∧
      ((Whole text ∧ valuesBehind? r = some (head.columns, rest) ∧ Fronted head raw) ∨
        (¬ Whole text ∧ ∃ q, CutShort raw r q ∧ valuesBehind? q.2 = some (head.columns, rest) ∧
          Fronted head q.1)) := by
  have hfound := hhead
  rw [head?_eq] at hfound
  obtain ⟨s, hinto, hfound⟩ := Option.bind_eq_some_iff.mp hfound
  cases hname : Identifier.qualified? s with
  | none =>
    rw [Identifier.qualifiedReadings_eq_nil hname] at hfound
    cases hfound
  | some found =>
    obtain ⟨raw, r⟩ := found
    obtain ⟨shorter, hreadings, hshorter⟩ := Identifier.qualifiedReadings_eq_cons hname
    refine ⟨s, raw, r, hinto, hname, ?_⟩
    have hwhole : Whole text ↔
        head? (Alter.content text) = headBehind? (Alter.content text) (raw, r) := by
      unfold Whole
      rw [hinto, Option.bind_some, hname, Option.bind_some]
    rw [hreadings, List.findSome?_cons] at hfound
    cases hbehind : headBehind? (Alter.content text) (raw, r) with
    | some found =>
      rw [hbehind] at hfound
      cases hfound
      obtain ⟨hraw, rfl⟩ := Identifier.Qualified.of_read? hname
      exact Or.inl ⟨hwhole.mpr (hhead.trans hbehind.symm),
        (fronted_of_headBehind? hinto hraw hbehind).2⟩
    | none =>
      rw [hbehind] at hfound
      obtain ⟨q, hmem, hread⟩ := List.exists_of_findSome?_eq_some hfound
      obtain ⟨hraw, rfl⟩ :=
        Identifier.Qualified.of_mem_readings (hreadings ▸ List.mem_cons_of_mem _ hmem)
      refine Or.inr ⟨fun h => ?_, q, hshorter q hmem, (fronted_of_headBehind? hinto hraw hread).2⟩
      rw [hwhole.mp h, hbehind] at hhead
      cases hhead

/-- The statements made of one that names a table name a table as well: the same, with single blanks
in its name, if the rows stand behind the whole of the name, and another one if they do not. -/
theorem exists_nameIn_of_mem_singles {text name single : Text}
    (hname : Kind.insert.nameIn text = some name) (hsingle : single ∈ singles text) :
    single = text ∨ ∃ found, Kind.insert.nameIn single = some found ∧
      (Whole text → found = collapse name) ∧ (¬ Whole text → found ≠ name) := by
  rcases singles_cases text with hsame | ⟨head, rest, rows, tail, hhead, hlaid, hrows, hsingles⟩
  · rw [hsame] at hsingle
    exact Or.inl (List.mem_singleton.mp hsingle)
  · rw [hsingles] at hsingle
    obtain ⟨row, -, rfl⟩ := List.mem_map.mp hsingle
    obtain ⟨s, raw, r, hinto, hqualified, hread⟩ := whole_or_cutShort hhead
    obtain rfl := Option.some.inj ((nameIn_of_content hinto hqualified).symm.trans hname)
    rcases hread with ⟨hwhole, -, hfronted⟩ | ⟨hpart, q, hcut, hvalues, hfronted⟩
    · exact Or.inr ⟨_, hfronted.nameIn_single _ _, fun _ => rfl, fun hpart => absurd hwhole hpart⟩
    · obtain ⟨b, v, hv, hall, hraw, hbare⟩ := exists_of_cutShort hcut hvalues hlaid hrows
      refine Or.inr ⟨_, hfronted.nameIn_single _ _, fun hwhole => absurd hwhole hpart, fun _ => ?_⟩
      have hsolid : collapse b = b :=
        Text.collapse_eq_self fun c hc => not_isBlank_of_isNameChar (hall c hc)
      rw [hbare, hsolid, hraw]
      simpa using hv

/-! ## 3. The columns -/

/-- What stands behind the name of the table. -/
def behindName? (text : Text) : Option Text :=
  ((insertInto? (Alter.content text)).bind Identifier.qualified?).map (·.2)

/-- The columns that a statement lists behind the name of its table. -/
def listedColumns (text : Text) : Option Text :=
  (behindName? text).bind fun r => (columnList? (Text.trimLeft r)).map (·.1)

/-- VALUES stands behind the name of the table, or behind the columns that are listed there. -/
def ListsRows (text : Text) : Prop := ∃ r ∈ behindName? text, (valuesBehind? r).isSome = true

theorem columnList?_of_valuesBehind? {r rest : Text} {columns : Option Text}
    (h : valuesBehind? r = some (columns, rest)) :
    (columnList? (Text.trimLeft r)).map (·.1) = columns := by
  unfold valuesBehind? at h
  split at h
  · rename_i hlist
    obtain ⟨_, -, heq⟩ := Option.map_eq_some_iff.mp h
    rw [hlist]
    exact (Prod.mk.inj heq).1
  · rename_i hlist
    obtain ⟨_, -, heq⟩ := Option.map_eq_some_iff.mp h
    rw [hlist]
    exact (Prod.mk.inj heq).1

theorem Fronted.content {head : Head} {raw : Text} (h : Fronted head raw) (t : Text) :
    ∃ t', Alter.content (Text.spaced head.target ++ valued head.columns t) =
      Text.spaced head.target ++ valued head.columns t' := by
  have hvalued : ∀ s, Text.spaced head.target ++ valued head.columns s =
      (Text.spaced head.target ++ (Text.behind (head.columns.getD []) ++ " VALUE".toList)) ++
        'S' :: s := by
    intro s
    simp [valued]
  have hdrop : ∀ s, Text.dropTrailing ';' (Text.spaced head.target ++ valued head.columns s) =
      Text.spaced head.target ++ valued head.columns (s.rdropWhile (· = ';')) := by
    intro s
    rw [hvalued, hvalued]
    exact Text.rdropWhile_append_cons (by decide) _ s
  exact ⟨_, by rw [Alter.content, h.trim, hdrop, h.trim]⟩

theorem Fronted.listed_single {head : Head} {raw : Text} (h : Fronted head raw) (row tail : Text) :
    listedColumns (Insert.single head row tail) = head.columns := by
  obtain ⟨t, ht⟩ := h.content (Text.behind row ++ Text.behind tail)
  obtain ⟨hinto, hname⟩ := h.reads t
  obtain ⟨r, rest, hlisted⟩ := h.listed
  unfold listedColumns behindName?
  rw [Insert.single, ht, hinto, Option.bind_some, hname, Option.map_some, Option.bind_some]
  rcases columns_of_valuesBehind? hlisted with hnone | ⟨u, hu, hsome⟩
  · rw [hnone]
    rfl
  · rw [hsome]
    have hlist : columnList? (Text.trimLeft (valued (some ('(' :: u ++ [')'])) t)) =
        some ('(' :: u ++ [')'], " VALUES".toList ++ t) :=
      columnList?_eq_some.mpr ⟨u, hu, rfl, rfl⟩
    rw [hlist]
    rfl

/-- **The targets of INSERT statements.** If VALUES stands behind the whole of the table's name, or
nowhere, each statement made of an INSERT statement lists the same columns, and names the same table
if no two blanks stand together in its name; without VALUES behind the name nothing is changed. If
VALUES stands behind a part of the name only, each statement names another table, or nothing is
changed. -/
theorem singles_target {text name : Text} (hname : Kind.insert.nameIn text = some name) :
    (Whole text → ¬ ListsRows text → singles text = [text]) ∧
      ∀ single ∈ singles text,
        (Kind.insert.nameIn single = some name ↔
          single = text ∨ Whole text ∧ collapse name = name) ∧
        (Whole text → listedColumns single = listedColumns text) := by
  refine ⟨fun hwhole hno => ?_, fun single hsingle => ⟨⟨fun h => ?_, ?_⟩, fun hwhole => ?_⟩⟩
  · rcases singles_cases text with hsame | ⟨head, rest, rows, tail, hhead, -⟩
    · exact hsame
    · obtain ⟨s, raw, r, hinto, hqualified, ⟨-, hvalues, -⟩ | ⟨hpart, -⟩⟩ := whole_or_cutShort hhead
      · refine absurd ⟨r, ?_, by rw [hvalues]; rfl⟩ hno
        rw [behindName?, hinto, Option.bind_some, hqualified]
        rfl
      · exact absurd hwhole hpart
  · rcases exists_nameIn_of_mem_singles hname hsingle with hsame | ⟨found, hfound, hwhole, hpart⟩
    · exact Or.inl hsame
    · obtain rfl := Option.some.inj (hfound.symm.trans h)
      by_cases hread : Whole text
      · exact Or.inr ⟨hread, (hwhole hread).symm⟩
      · exact absurd rfl (hpart hread)
  · rintro (rfl | ⟨hwhole, hcollapse⟩)
    · exact hname
    · rcases exists_nameIn_of_mem_singles hname hsingle with rfl | ⟨found, hfound, hkept, -⟩
      · exact hname
      · rw [hfound, hkept hwhole, hcollapse]
  · rcases singles_cases text with hsame | ⟨head, rest, rows, tail, hhead, -, -, hsingles⟩
    · rw [hsame] at hsingle
      rw [List.mem_singleton.mp hsingle]
    · rw [hsingles] at hsingle
      obtain ⟨row, -, rfl⟩ := List.mem_map.mp hsingle
      obtain ⟨s, raw, r, hinto, hqualified, ⟨-, hvalues, hfronted⟩ | ⟨hpart, -⟩⟩ :=
        whole_or_cutShort hhead
      · rw [hfronted.listed_single, listedColumns, behindName?, hinto, Option.bind_some, hqualified]
        exact (columnList?_of_valuesBehind? hvalues).symm
      · exact absurd hwhole hpart

/-- A name behind a schema is kept with its columns; a name that ends in VALUES is not. -/
theorem singles_target_cut :
    let kept : Text := "INSERT INTO s.t (a) VALUES (1), (2)"
    let cut : Text := "INSERT INTO tvalues (a) SELECT 1"
    (∀ single ∈ singles kept,
      Kind.insert.nameIn single = some "t" ∧ listedColumns single = some "(a)") ∧
      ∀ single ∈ singles cut, Kind.insert.nameIn single ≠ some "tvalues" := by
  intro kept cut
  have hkept := (@singles_target kept "t" (by decide +kernel)).2
  have hcut := (@singles_target cut "tvalues" (by decide +kernel)).2
  have hwhole : Whole kept := by decide +kernel
  have hcolumns : listedColumns kept = some "(a)" := by decide +kernel
  have hpart : ¬ Whole cut := by decide +kernel
  have hchanged : cut ∉ singles cut := by decide +kernel
  refine ⟨fun single hsingle => ⟨?_, ?_⟩, fun single hsingle hname => ?_⟩
  · exact (hkept single hsingle).1.mpr (Or.inr ⟨hwhole, by decide⟩)
  · rw [(hkept single hsingle).2 hwhole, hcolumns]
  · rcases (hcut single hsingle).1.mp hname with rfl | ⟨hwhole, -⟩
    · exact hchanged hsingle
    · exact hpart hwhole

end Insert

end SqlDump
