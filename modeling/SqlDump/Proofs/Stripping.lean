import SqlDump.Proofs.Counters
import SqlDump.Proofs.Marks

/-!
# Tables without their keys, and the keys added again

A CREATE TABLE statement gives a table its columns and marks them with the keys of its body, in
order. Without the keys that move, the statement gives the same columns, and the ALTER statements
mark them with the keys, names collapsed. So the table comes out the same exactly if every column
gets the same marks either way.
-/

namespace SqlDump

open Outcome

/-! ## 1. What a statement says about keys -/

namespace CreateTable

/-- The changes that the key lines among the parts say, in order. -/
def keyChanges (parts : List Text) : List Change :=
  (parts.filter isKeyLine).filterMap Clause.lineChange?

/-- The changes of the same lines once some have moved: those that stay, then those that are added,
their names collapsed. -/
def lateChanges (parts : List Text) : List Change :=
  keyChanges (parts.filter (!isRelocated ·)) ++
    (moved parts).filterMap fun line => (Clause.lineChange? line).map Change.blurred

end CreateTable

namespace Clause

theorem definition?_readKey? {s : Text} {change : Change} (h : readKey? s = some (some change)) :
    change.definition? = none := by
  unfold readKey? at h
  rcases orElse_eq_some.mp h with h | ⟨-, h⟩
  · obtain ⟨r, -, hr⟩ := Option.map_eq_some_iff.mp h
    obtain ⟨p, -, rfl⟩ := Option.map_eq_some_iff.mp hr
    rfl
  rcases orElse_eq_some.mp h with h | ⟨-, h⟩
  · obtain ⟨p, -, hp⟩ := Option.map_eq_some_iff.mp h
    exact definition?_foreignChange _ _ _ hp
  · obtain ⟨p, -, hp⟩ := Option.map_eq_some_iff.mp h
    exact definition?_keyChange _ _ _ _ hp

-- A key line defines no column.
theorem definition?_lineChange? {line : Text} {change : Change} (h : lineChange? line = some change) :
    change.definition? = none := by
  unfold lineChange? at h
  exact definition?_readKey? (Option.join_eq_some_iff.mp h)

end Clause

theorem Change.definition?_blurred (change : Change) : change.blurred.definition? = change.definition? := by
  cases change <;> rfl

namespace CreateTable

theorem definition?_keyChanges {parts : List Text} {change : Change}
    (h : change ∈ keyChanges parts) : change.definition? = none := by
  obtain ⟨line, -, hline⟩ := List.mem_filterMap.mp h
  exact Clause.definition?_lineChange? hline

theorem definition?_lateChanges {parts : List Text} {change : Change}
    (h : change ∈ lateChanges parts) : change.definition? = none := by
  rcases List.mem_append.mp h with h | h
  · exact definition?_keyChanges h
  · obtain ⟨line, -, hline⟩ := List.mem_filterMap.mp h
    obtain ⟨change, hchange, rfl⟩ := Option.map_eq_some_iff.mp hline
    rw [Change.definition?_blurred]
    exact Clause.definition?_lineChange? hchange

end CreateTable

namespace Table

open CreateTable

theorem foldl_applyRead (clauses : List Text) (f : Text → Option Clause) (table : Table) :
    (clauses.map f).foldl applyRead table =
      (clauses.filterMap fun line => (f line).map (·.change)).foldl apply table := by
  induction clauses generalizing table with
  | nil => rfl
  | cons line lines ih =>
    rw [List.map_cons, List.foldl_cons, ih, List.filterMap_cons]
    cases f line <;> rfl

-- The model of a statement: its columns, and the changes of its key lines in order.
theorem ofCreate_eq (name query : Text) {columns : Ordered Column}
    (h : columnsOf (columnTexts query) = .ok columns) : ofCreate name query =
      .ok ((keyChanges (parts query)).foldl apply { name, columns }) := by
  have hclauses : (keyLines query).mapM Clause.parse = .ok ((keyLines query).map fun line =>
      (Clause.lineChange? line).map fun change => { table := none, change }) := by
    rw [mapM_eq_ok, List.forall₂_map_right_iff]
    refine List.forall₂_same.mpr fun line hline => ?_
    exact Clause.parse_line (startsLine_of_isKeyLine (List.mem_filter.mp hline).2)
  refine ofCreate_eq_ok.mpr ⟨columns, _, h, hclauses, ?_⟩
  have hsame : (fun line => ((Clause.lineChange? line).map fun change =>
      ({ table := none, change } : Clause)).map (·.change)) = Clause.lineChange? := by
    funext line
    cases Clause.lineChange? line <;> rfl
  rw [foldl_applyRead, hsame]
  rfl

end Table

/-! ## 2. Columns -/

namespace CreateTable

-- Columns of different names are told in the order of the parts.
theorem columnTexts_of_nodup {query : Text}
    (distinct : (Ordered.keys ((parts query).filterMap columnText?)).Nodup) :
    columnTexts query = (parts query).filterMap columnText? :=
  @Ordered.foldl_set_of_nodup _ _ [] distinct

theorem filterMap_stay (parts : List Text) :
    (parts.filter (!isRelocated ·)).filterMap columnText? = parts.filterMap columnText? := by
  induction parts with
  | nil => rfl
  | cons part parts ih =>
    by_cases h : isRelocated part = true
    · have hnone : columnText? part = none := by
        unfold columnText?
        rw [isKeyLine_of_isRelocated h]
        rfl
      rw [List.filter_cons_of_neg (by simp [h]), ih, List.filterMap_cons, hnone]
    · rw [List.filter_cons_of_pos (by simpa using h), List.filterMap_cons, List.filterMap_cons, ih]

end CreateTable

namespace Table

open CreateTable

theorem columnsOf_append {texts more : Ordered Text} {columns : Ordered Column} :
    columnsOf (texts ++ more) = .ok columns ↔ ∃ first rest, columnsOf texts = .ok first ∧
      columnsOf more = .ok rest ∧ columns = first ++ rest := by
  induction texts generalizing columns with
  | nil =>
    constructor
    · intro h
      exact ⟨[], columns, rfl, h, rfl⟩
    · rintro ⟨first, rest, hfirst, hrest, rfl⟩
      rw [columnsOf_nil.mp hfirst]
      exact hrest
  | cons entry texts ih =>
    obtain ⟨name, text⟩ := entry
    rw [List.cons_append, columnsOf_cons]
    constructor
    · rintro ⟨column, later, hcolumn, hlater, rfl⟩
      obtain ⟨first, rest, hfirst, hrest, rfl⟩ := ih.mp hlater
      exact ⟨_, rest, columnsOf_cons.mpr ⟨column, first, hcolumn, hfirst, rfl⟩, hrest,
        (List.append_assoc _ _ _).symm⟩
    · rintro ⟨first, rest, hfirst, hrest, rfl⟩
      obtain ⟨column, later, hcolumn, hlater, rfl⟩ := columnsOf_cons.mp hfirst
      exact ⟨column, _, hcolumn, ih.mpr ⟨later, rest, hlater, hrest, rfl⟩, List.append_assoc _ _ _⟩

end Table

/-! ## 3. Statements for keys -/

namespace Model

open CreateTable

theorem apply_single {name : Text} (table : Table) (change : Change) :
    Model.apply [(name, table)] { table := some name, change } = [(name, table.apply change)] := by
  have hhas : Ordered.has [(name, table)] name = true := by
    simp [Ordered.has, Ordered.get?]
  unfold Model.apply
  dsimp only
  rw [hhas, if_pos rfl, Ordered.update, if_pos rfl]

theorem applyAlters_cons_some {name alter : Text} {table : Table} {change : Change}
    (h : Clause.parse alter = .ok (some { table := some name, change })) (alters : List Text) :
    applyAlters [(name, table)] (alter :: alters) =
      applyAlters [(name, table.apply change)] alters := by
  unfold applyAlters
  rw [List.foldlM_cons, h]
  show List.foldlM _ (Model.apply [(name, table)] { table := some name, change }) alters = _
  rw [apply_single]

theorem applyAlters_cons_none {model : Model} {alter : Text}
    (h : Clause.parse alter = .ok none) (alters : List Text) :
    applyAlters model (alter :: alters) = applyAlters model alters := by
  unfold applyAlters
  rw [List.foldlM_cons, h]
  rfl

-- Statements made of key lines make the changes that the lines say, names collapsed.
theorem applyAlters_additions {raw : Text} (hraw : Identifier.Qualified raw) {lines : List Text}
    (hlines : ∀ line ∈ lines, StartsLine line ∧ Text.endsBlank false line = false ∧
      Clause.isMovable line = true) (table : Table) (alters : List Text) :
    applyAlters [(Identifier.bare raw, table)] (lines.map (addition raw) ++ alters) =
      applyAlters [(Identifier.bare raw, (lines.filterMap fun line =>
        (Clause.lineChange? line).map Change.blurred).foldl Table.apply table)] alters := by
  induction lines generalizing table with
  | nil => rfl
  | cons line lines ih =>
    have hrest := ih fun line hline => hlines line (List.mem_cons_of_mem _ hline)
    obtain ⟨hstarts, hends, hmovable⟩ := hlines line List.mem_cons_self
    have hparse : Clause.parse (addition raw line) = _ :=
      Clause.parse_added hraw hstarts hends hmovable
    rw [List.map_cons, List.cons_append, List.filterMap_cons]
    cases hline : Clause.lineChange? line with
    | none =>
      rw [hline] at hparse
      rw [applyAlters_cons_none hparse, hrest]
      rfl
    | some change =>
      rw [hline] at hparse
      rw [applyAlters_cons_some hparse, hrest]
      rfl

end Model

/-! ## 4. The column that counts up -/

theorem Column.keyless_of_parse {text : Text} {column : Column}
    (h : Column.parse text = .ok (some column)) :
    column.unique = [] ∧ column.index = [] ∧ column.foreign = [] := by
  unfold Column.parse at h
  split at h
  · cases h
  · obtain ⟨size, -, h⟩ := bind_eq_ok.mp h
    cases h
    exact ⟨rfl, rfl, rfl⟩

-- Defined again, a column has the marks that it got, whatever it was defined as before.
theorem Column.redefine_marked {column rest : Column} {text text' : Text}
    (hcolumn : Column.parse text = .ok (some column)) (hrest : Column.parse text' = .ok (some rest))
    (hprimary : rest.primary = true → column.primary = true) (m : Marks) :
    (rest.marked m).redefine column = column.marked m := by
  obtain ⟨hunique, hindex, hforeign⟩ := keyless_of_parse hcolumn
  obtain ⟨hunique', hindex', hforeign'⟩ := keyless_of_parse hrest
  have hboth : (rest.primary || m.primary || column.primary) = (column.primary || m.primary) := by
    cases h : rest.primary with
    | false => rw [Bool.false_or, Bool.or_comm]
    | true => rw [hprimary h, Bool.or_true, Bool.true_or]
  unfold Column.marked Column.redefine
  dsimp only
  rw [hboth, hunique, hindex, hforeign, hunique', hindex', hforeign']

namespace Table

theorem markAll_append_cons (marks : Text → Marks) (first rest : Ordered Column) (name : Text)
    (column : Column) : markAll marks (first ++ (name, column) :: rest) =
      markAll marks first ++ (name, column.marked (marks name)) :: markAll marks rest := by
  simp [markAll]

-- A column that is there is defined again where it stands.
theorem define_markAll {marks : Text → Marks} {first more : Ordered Column} {name : Text}
    {column rest : Column} {text text' : Text} (table : Text) (hname : name ∉ first.keys)
    (hcolumn : Column.parse text = .ok (some column)) (hrest : Column.parse text' = .ok (some rest))
    (hprimary : rest.primary = true → column.primary = true) :
    define { name := table, columns := markAll marks (first ++ (name, rest) :: more) } name column =
      { name := table, columns := markAll marks (first ++ (name, column) :: more) } := by
  have hhas : Ordered.has (markAll marks (first ++ (name, rest) :: more)) name = true := by
    rw [Ordered.has_eq_true_iff, keys_markAll]
    simp [Ordered.keys]
  have hname' : name ∉ Ordered.keys (markAll marks first) := by rwa [keys_markAll]
  unfold define
  dsimp only
  rw [hhas, if_pos rfl, markAll_append_cons, Ordered.update_append_cons hname',
    Column.redefine_marked hcolumn hrest hprimary, ← markAll_append_cons]

end Table

/-! ## 5. Both ways to a table -/

namespace CreateTable

open Nesting

theorem nodup_keys_columnsOf {query : Text} {columns : Ordered Column}
    (h : Table.columnsOf (columnTexts query) = .ok columns) : columns.keys.Nodup :=
  (Table.keys_columnsOf h).nodup (nodup_keys_columnTexts query)

theorem nameIn_of_layout? {query name : Text} {l : Layout} (h : layout? (Text.trim query) = some l)
    (named : Kind.createTable.nameIn query = some name) : Identifier.bare l.rawName = name := by
  obtain ⟨⟨raw, r⟩, hread, h⟩ := Option.bind_eq_some_iff.mp h
  obtain ⟨found, -, h⟩ := Option.bind_eq_some_iff.mp h
  cases h
  unfold Kind.nameIn at named
  rw [show Kind.createTable.rawName? (Text.trim query) = some (raw, r) from hread] at named
  exact Option.some.inj named

-- A key line of a body starts with one of the words and has no blanks at its ends.
theorem startsLine_of_mem {body line : Text} (hbody : Balanced body)
    (hline : line ∈ moved (bodyParts body)) :
    StartsLine line ∧ Text.endsBlank false line = false := by
  obtain ⟨hmem, hrelocated⟩ := List.mem_filter.mp hline
  have hstarts := startsLine_of_isKeyLine (isKeyLine_of_isRelocated hrelocated)
  obtain ⟨-, htrim, -⟩ := part_of_mem hbody hmem
  obtain ⟨c, t, hcons, hc, -⟩ := hstarts.cons
  obtain ⟨-, u, d, hlast, hd⟩ := Text.trim_cons hc t
  rw [← hcons, htrim] at hlast
  refine ⟨hstarts, ?_⟩
  rw [hlast, Text.endsBlank_concat]
  exact hd

-- The parts that stay, trimmed again.
theorem trim_stay {body : Text} (hbody : Balanced body) {stay : List Text}
    (hstay : ∀ part ∈ stay, part ∈ bodyParts body) :
    (stay.map Text.trim).filter (!·.isEmpty) = stay := by
  have hmap : stay.map Text.trim = stay := by
    conv_rhs => rw [← List.map_id stay]
    exact List.map_congr_left fun part hpart => (part_of_mem hbody (hstay part hpart)).2.1
  rw [hmap, List.filter_eq_self]
  intro part hpart
  simpa using (part_of_mem hbody (hstay part hpart)).2.2

-- The parts that stay are parts, the counter's among them if it is one.
theorem whole_released {body : Text} (hbody : Balanced body)
    (hcounter : ∀ counter, (released (bodyParts body)).2 = some counter → Whole counter.part) :
    ∀ part ∈ (released (bodyParts body)).1, Whole part := by
  intro part hpart
  have hstay : ∀ p, p ∈ (bodyParts body).filter (!isRelocated ·) → Whole p := fun p hp =>
    (part_of_mem hbody (List.mem_filter.mp hp).1).1
  cases h : (released (bodyParts body)).2 with
  | none =>
    rw [released, releaseCounter_eq_of_none h] at hpart
    exact hstay part hpart
  | some counter =>
    obtain ⟨front, p, back, hparts, hreleased, -, -⟩ := releaseCounter_eq_of_some h
    rw [released, hreleased] at hpart
    rw [hparts] at hstay
    rcases List.mem_append.mp hpart with hpart | hpart
    · exact hstay part (List.mem_append_left _ hpart)
    · rcases List.mem_cons.mp hpart with rfl | hpart
      · exact hcounter counter h
      · exact hstay part (List.mem_append_right _ (List.mem_cons_of_mem _ hpart))

variable {query name : Text} {l : Layout} {columns : Ordered Column}

-- Without a column that counts up, the statement that is left has the same columns.
theorem relocated_of_none (hparts : parts query = bodyParts l.body) (hbody : Balanced l.body)
    (distinct : (Ordered.keys ((parts query).filterMap columnText?)).Nodup)
    (hcolumns : Table.columnsOf (columnTexts query) = .ok columns)
    (hcounter : (released (bodyParts l.body)).2 = none)
    (hleft : parts (relocateKeys query).query =
      ((released (bodyParts l.body)).1.map Text.trim).filter (!·.isEmpty)) :
    Table.ofCreate name (relocateKeys query).query =
      .ok ((keyChanges ((bodyParts l.body).filter (!isRelocated ·))).foldl Table.apply
        { name, columns }) := by
  have hstay : parts (relocateKeys query).query = (bodyParts l.body).filter (!isRelocated ·) := by
    rw [hleft, released, releaseCounter_eq_of_none hcounter]
    exact trim_stay hbody fun part hpart => (List.mem_filter.mp hpart).1
  have htexts : (parts (relocateKeys query).query).filterMap columnText? =
      (parts query).filterMap columnText? := by
    rw [hstay, filterMap_stay, hparts]
  have hsame : columnTexts (relocateKeys query).query = columnTexts query := by
    rw [columnTexts_of_nodup distinct, ← htexts]
    exact columnTexts_of_nodup (by rwa [htexts])
  rw [Table.ofCreate_eq name _ (by rw [hsame]; exact hcolumns), hstay]

-- With one, only its part is another: what is left of it.
theorem parts_of_some {counter : Counter} (hbody : Balanced l.body)
    (hcounter : (released (bodyParts l.body)).2 = some counter) (hne : Text.trim counter.part ≠ [])
    (hleft : parts (relocateKeys query).query =
      ((released (bodyParts l.body)).1.map Text.trim).filter (!·.isEmpty)) :
    ∃ front part back, (bodyParts l.body).filter (!isRelocated ·) = front ++ part :: back ∧
      parts (relocateKeys query).query = front ++ Text.trim counter.part :: back ∧
        isKeyLine part = false ∧ counter? part = some counter := by
  obtain ⟨front, part, back, hstay, hreleased, hkey, hpart⟩ := releaseCounter_eq_of_some hcounter
  have hmem : ∀ p, p ∈ front ++ back → p ∈ bodyParts l.body := by
    intro p hp
    have hp' : p ∈ (bodyParts l.body).filter (!isRelocated ·) := by
      rw [hstay]
      rcases List.mem_append.mp hp with hp | hp
      · exact List.mem_append_left _ hp
      · exact List.mem_append_right _ (List.mem_cons_of_mem _ hp)
    exact (List.mem_filter.mp hp').1
  have hfront := trim_stay hbody fun p hp => hmem p (List.mem_append_left _ hp)
  have hback := trim_stay hbody fun p hp => hmem p (List.mem_append_right _ hp)
  refine ⟨front, part, back, hstay, ?_, hkey, hpart⟩
  rw [hleft, released, hreleased, List.map_append, List.filter_append, hfront, List.map_cons,
    List.filter_cons_of_pos (by simpa using hne), hback]

theorem isKeyLine_of_columnText? {part name text : Text} (h : columnText? part = some (name, text)) :
    isKeyLine part = false := by
  unfold columnText? at h
  split at h
  · cases h
  · rename_i hkey
    simpa using hkey

-- A part that is no key line says nothing about keys.
theorem keyChanges_skip {front back : List Text} {part : Text} (h : isKeyLine part = false) :
    keyChanges (front ++ part :: back) = keyChanges (front ++ back) := by
  rw [keyChanges, keyChanges, List.filter_append, List.filter_cons_of_neg (by simp [h]),
    ← List.filter_append]

-- The column stands where it stood, defined by what is left of its part.
theorem relocated_of_some {counter : Counter} {column rest : Column}
    (hparts : parts query = bodyParts l.body) (hbody : Balanced l.body)
    (distinct : (Ordered.keys ((parts query).filterMap columnText?)).Nodup)
    (hcolumns : Table.columnsOf (columnTexts query) = .ok columns)
    (hcounter : (released (bodyParts l.body)).2 = some counter)
    (hreads : counter.ReadsBack column rest)
    (hleft : parts (relocateKeys query).query =
      ((released (bodyParts l.body)).1.map Text.trim).filter (!·.isEmpty)) :
    ∃ first more part, counter? part = some counter ∧
      columns = first ++ (Identifier.bare counter.name, column) :: more ∧
      Table.ofCreate name (relocateKeys query).query =
        .ok ((keyChanges ((bodyParts l.body).filter (!isRelocated ·))).foldl Table.apply
          { name, columns := first ++ (Identifier.bare counter.name, rest) :: more }) := by
  obtain ⟨text, hleftText, hrest⟩ := hreads.left
  have hne : Text.trim counter.part ≠ [] := by
    intro hnil
    rw [hnil] at hleftText
    cases hleftText
  obtain ⟨front, part, back, hstay, hnewParts, hkey, hpart⟩ :=
    parts_of_some hbody hcounter hne hleft
  have hold : (parts query).filterMap columnText? = front.filterMap columnText? ++
      (Identifier.bare counter.name, counter.definition) :: back.filterMap columnText? := by
    rw [hparts, ← filterMap_stay, hstay, List.filterMap_append, List.filterMap_cons,
      columnText?_of_counter? hkey hpart]
  have hnew : (parts (relocateKeys query).query).filterMap columnText? =
      front.filterMap columnText? ++
        (Identifier.bare counter.name, text) :: back.filterMap columnText? := by
    rw [hnewParts, List.filterMap_append, List.filterMap_cons, hleftText]
  have hdistinct : (Ordered.keys ((parts (relocateKeys query).query).filterMap columnText?)).Nodup := by
    rw [hold] at distinct
    rw [hnew]
    simpa [Ordered.keys] using distinct
  -- both lists of texts differ in one place, and so do the columns read from them
  rw [columnTexts_of_nodup distinct, hold] at hcolumns
  obtain ⟨first, tail, hfirst, htail, rfl⟩ := Table.columnsOf_append.mp hcolumns
  obtain ⟨defined, more, hdefined, hmore, rfl⟩ := Table.columnsOf_cons.mp htail
  rw [hreads.defined] at hdefined
  obtain rfl := Except.ok.inj hdefined
  have hcolumns' : Table.columnsOf (columnTexts (relocateKeys query).query) =
      .ok (first ++ (Identifier.bare counter.name, rest) :: more) := by
    rw [columnTexts_of_nodup hdistinct, hnew]
    exact Table.columnsOf_append.mpr ⟨first, _, hfirst,
      Table.columnsOf_cons.mpr ⟨some rest, more, hrest, hmore, rfl⟩, rfl⟩
  refine ⟨first, more, part, hpart, rfl, ?_⟩
  rw [Table.ofCreate_eq name _ hcolumns', hnewParts, hstay,
    keyChanges_skip (isKeyLine_of_columnText? hleftText), keyChanges_skip hkey]

theorem parts_of_some_layout (h : layout? (Text.trim query) = some l) :
    parts query = bodyParts l.body := by
  unfold parts
  rw [h]

/-- The table that the columns make with the lines that stay and those that are added. -/
def lateTable (name : Text) (parts : List Text) (columns : Ordered Column) : Table where
  name := name
  columns := Table.markAll (Change.allMarks (lateChanges parts)) columns

-- The lines that stay are read in the statement that is left, the others from the statements after
-- it.
theorem applyAlters_moved {columns : Ordered Column} (hunique : columns.keys.Nodup)
    (hlayout : layout? (Text.trim query) = some l)
    (movable : ∀ line ∈ moved (bodyParts l.body), Clause.isMovable line = true)
    (alters : List Text) :
    Model.applyAlters [(Identifier.bare l.rawName,
        (keyChanges ((bodyParts l.body).filter (!isRelocated ·))).foldl Table.apply
          { name, columns })] ((moved (bodyParts l.body)).map (addition l.rawName) ++ alters) =
      Model.applyAlters [(Identifier.bare l.rawName, lateTable name (bodyParts l.body) columns)]
        alters := by
  obtain ⟨front, gap, -, hframe, -, hbody, -⟩ := frame_of_layout? hlayout
  have hlines : ∀ line ∈ moved (bodyParts l.body), StartsLine line ∧
      Text.endsBlank false line = false ∧ Clause.isMovable line = true := by
    intro line hline
    obtain ⟨hstarts, hends⟩ := startsLine_of_mem hbody hline
    exact ⟨hstarts, hends, movable line hline⟩
  have hmarks : (lateChanges (bodyParts l.body)).foldl Table.apply { name, columns } =
      lateTable name (bodyParts l.body) columns :=
    @Table.foldl_apply_eq_markAll { name, columns } hunique _ fun _ => definition?_lateChanges
  rw [Model.applyAlters_additions hframe.named hlines, ← hmarks, lateChanges, List.foldl_append]

-- The last statement puts the counter's column back.
theorem applyAlters_restart {counter : Counter} {column rest : Column} {part start : Text}
    {first more : Ordered Column} {parts : List Text} (hraw : Identifier.Qualified l.rawName)
    (hpart : counter? part = some counter) (hreads : counter.ReadsBack column rest)
    (hstart : Column.Start start)
    (hunique : (Ordered.keys (first ++ (Identifier.bare counter.name, column) :: more)).Nodup) :
    Model.applyAlters [(Identifier.bare l.rawName,
        lateTable name parts (first ++ (Identifier.bare counter.name, rest) :: more))]
        [restart l.rawName start counter] =
      .ok [(Identifier.bare l.rawName,
        lateTable name parts (first ++ (Identifier.bare counter.name, column) :: more))] := by
  obtain ⟨text, -, hrest⟩ := hreads.left
  have hfirst : Identifier.bare counter.name ∉ Ordered.keys first := by
    intro hmem
    rw [Ordered.keys, List.map_append] at hunique
    exact (List.nodup_append.mp hunique).2.2 _ hmem _ List.mem_cons_self rfl
  have hdefine := @Table.define_markAll (Change.allMarks (lateChanges parts)) first
    more _ _ _ _ _ name hfirst hreads.defined hrest hreads.primary
  rw [Model.applyAlters_cons_some (Clause.parse_restart hraw hpart hreads hstart)]
  show Except.ok [(_, Table.define _ _ _)] = _
  exact congrArg (fun table => Except.ok [(_, table)]) hdefine

-- A statement without a body has no columns and no keys, and stays as it is.
theorem relocated_of_no_layout (hlayout : layout? (Text.trim query) = none)
    (hcolumns : Table.columnsOf (columnTexts query) = .ok columns) :
    Table.ofCreate name (relocateKeys query).query = .ok (lateTable name (parts query) columns) ∧
      (relocateKeys query).alters = [] := by
  have hparts : parts query = [] := by
    unfold parts
    rw [hlayout]
  have htrim : parts (Text.trim query) = parts query := by
    unfold parts
    rw [Text.trim_trim]
  have hcolumns' : Table.columnsOf (columnTexts (Text.trim query)) = .ok columns := by
    unfold columnTexts at hcolumns ⊢
    rw [htrim]
    exact hcolumns
  have hnothing : lateTable name [] columns = { name, columns } := by
    rw [lateTable, show Change.allMarks (lateChanges []) = fun _ => {} from rfl, Table.markAll_empty]
  rw [relocateKeys_of_none hlayout, hparts, hnothing]
  refine ⟨?_, rfl⟩
  rw [Table.ofCreate_eq name _ hcolumns', htrim, hparts]
  rfl

/-- The statement without its keys, and after it the ALTER statements, give the columns of the table
with the marks of the lines that stay and, behind them, of those that are added. -/
theorem relocated_model (named : Kind.createTable.nameIn query = some name)
    (distinct : (Ordered.keys ((parts query).filterMap columnText?)).Nodup)
    (hcolumns : Table.columnsOf (columnTexts query) = .ok columns)
    (movable : ∀ line ∈ moved (parts query), Clause.isMovable line = true)
    (reads : ∀ counter, (released (parts query)).2 = some counter →
      ∃ column rest, counter.ReadsBack column rest) :
    ∃ left, Table.ofCreate name (relocateKeys query).query = .ok left ∧
      Model.applyAlters [(name, left)] (relocateKeys query).alters =
        .ok [(name, lateTable name (parts query) columns)] := by
  cases hlayout : layout? (Text.trim query) with
  | none =>
    obtain ⟨hleft, halters⟩ := @relocated_of_no_layout query name _ hlayout hcolumns
    rw [halters]
    exact ⟨_, hleft, rfl⟩
  | some l =>
    obtain ⟨front, gap, -, hframe, -, hbody, -⟩ := frame_of_layout? hlayout
    have hname := nameIn_of_layout? hlayout named
    have hparts := parts_of_some_layout hlayout
    have hunique := nodup_keys_columnsOf hcolumns
    rw [hparts] at movable reads
    obtain ⟨start, hstart, halters, hleft⟩ := relocateKeys_of_layout hlayout
    have hleft := hleft (whole_released hbody fun counter hcounter => by
      obtain ⟨column, rest, hreads⟩ := reads counter hcounter
      exact hreads.whole)
    rw [halters, hparts, ← hname]
    cases hcounter : (released (bodyParts l.body)).2 with
    | none =>
      refine ⟨_, relocated_of_none hparts hbody distinct hcolumns hcounter hleft, ?_⟩
      exact applyAlters_moved hunique hlayout movable []
    | some counter =>
      obtain ⟨column, rest, hreads⟩ := reads counter hcounter
      obtain ⟨first, more, part, hpart, rfl, hcreate⟩ :=
        @relocated_of_some query (Identifier.bare l.rawName) l _ _ _ _ hparts hbody distinct
          hcolumns hcounter hreads hleft
      have hunique' : (Ordered.keys (first ++ (Identifier.bare counter.name, rest) :: more)).Nodup := by
        simpa [Ordered.keys] using hunique
      refine ⟨_, hcreate, ?_⟩
      rw [applyAlters_moved hunique' hlayout movable]
      exact applyAlters_restart hframe.named hpart hreads hstart hunique

/-! ## 6. When both ways lead to the same table -/

/-- Whether the keys mark the columns alike, those that stay being read first and the names of those
that move being collapsed. -/
def SameMarks (parts : List Text) (columns : Ordered Column) : Prop :=
  ∀ entry ∈ columns, entry.2.marked (Change.allMarks (lateChanges parts) entry.1) =
    entry.2.marked (Change.allMarks (keyChanges parts) entry.1)

instance (parts : List Text) (columns : Ordered Column) : Decidable (SameMarks parts columns) :=
  inferInstanceAs (Decidable (∀ entry ∈ columns, _ = _))

theorem definitions_markAll (marks : Text → Marks) (columns : Ordered Column) :
    (Table.markAll marks columns).map (fun entry => (entry.1, entry.2.toDefinition)) =
      columns.map fun entry => (entry.1, entry.2.toDefinition) := by
  rw [Table.markAll, List.map_map]
  rfl

-- The table of a statement has its columns, with the marks of its key lines.
theorem ofCreate_eq_markAll {table : Table} (direct : Table.ofCreate name query = .ok table)
    (hcolumns : Table.columnsOf (columnTexts query) = .ok columns) : table =
      Table.mk name (Table.markAll (Change.allMarks (keyChanges (parts query))) columns) := by
  have hcreate := Table.ofCreate_eq name query hcolumns
  rw [direct] at hcreate
  rw [Except.ok.inj hcreate]
  exact @Table.foldl_apply_eq_markAll { name, columns } (nodup_keys_columnsOf hcolumns) _
    fun _ => definition?_keyChanges

/-- Whether all key lines that say something move, and none of their names has a run of blanks. -/
def MovesWhole (parts : List Text) : Prop :=
  (∀ line ∈ parts, isKeyLine line = true → isRelocated line = false →
    Clause.lineChange? line = none) ∧
  ∀ line ∈ moved parts, (Clause.lineChange? line).map Change.blurred = Clause.lineChange? line

-- Nothing changes then, neither in the order of the keys nor in their names.
theorem MovesWhole.lateChanges {parts : List Text} (h : MovesWhole parts) :
    lateChanges parts = keyChanges parts := by
  obtain ⟨silent, collapsed⟩ := h
  have hstay : keyChanges (parts.filter (!isRelocated ·)) = [] := by
    rw [keyChanges, List.filterMap_eq_nil_iff]
    intro line hline
    obtain ⟨hmem, hkey⟩ := List.mem_filter.mp hline
    obtain ⟨hmem, hstays⟩ := List.mem_filter.mp hmem
    exact silent line hmem hkey (by simpa using hstays)
  have hmoved : (moved parts).filterMap (fun line => (Clause.lineChange? line).map Change.blurred) =
      (moved parts).filterMap Clause.lineChange? :=
    List.filterMap_congr fun line hline => collapsed line hline
  have hall : (moved parts).filterMap Clause.lineChange? = keyChanges parts := by
    clear hstay hmoved collapsed
    induction parts with
    | nil => rfl
    | cons line parts ih =>
      have hrest := ih fun line hline => silent line (List.mem_cons_of_mem _ hline)
      unfold moved keyChanges at hrest ⊢
      by_cases hmoves : isRelocated line = true
      · rw [List.filter_cons_of_pos hmoves, List.filter_cons_of_pos (isKeyLine_of_isRelocated hmoves),
          List.filterMap_cons, List.filterMap_cons, hrest]
      · rw [List.filter_cons_of_neg hmoves, hrest]
        by_cases hkey : isKeyLine line = true
        · -- a line that stays, and says nothing
          have hnone := silent line List.mem_cons_self hkey (by simpa using hmoves)
          rw [List.filter_cons_of_pos hkey, List.filterMap_cons, hnone]
        · rw [List.filter_cons_of_neg hkey]
  rw [CreateTable.lateChanges, hstay, List.nil_append, hmoved, hall]

theorem MovesWhole.sameMarks {parts : List Text} (h : MovesWhole parts) (columns : Ordered Column) :
    SameMarks parts columns := by
  intro entry _
  rw [h.lateChanges]

/-- A statement without its keys, and the ALTER statements after it, make a table with the columns
and the definitions of the statement, and make the same table exactly if the keys mark the columns
alike. They do if no key stays behind and no name has a run of blanks. -/
theorem relocateKeys_model_iff {table : Table}
    (named : Kind.createTable.nameIn query = some name)
    (distinct : (Ordered.keys ((parts query).filterMap columnText?)).Nodup)
    (direct : Table.ofCreate name query = .ok table)
    (movable : ∀ line ∈ moved (parts query), Clause.isMovable line = true)
    (reads : ∀ counter, (released (parts query)).2 = some counter →
      ∃ column rest, counter.ReadsBack column rest) :
    ∃ columns left late, Table.columnsOf (columnTexts query) = .ok columns ∧
      Table.ofCreate name (relocateKeys query).query = .ok left ∧
      Model.applyAlters [(name, left)] (relocateKeys query).alters = .ok [(name, late)] ∧
      late.columns.map (fun entry => (entry.1, entry.2.toDefinition)) =
        table.columns.map (fun entry => (entry.1, entry.2.toDefinition)) ∧
      (late = table ↔ SameMarks (parts query) columns) ∧
      (MovesWhole (parts query) → late = table) := by
  obtain ⟨columns, -, hcolumns, -⟩ := Table.ofCreate_eq_ok.mp direct
  obtain ⟨left, hleft, hlate⟩ := relocated_model named distinct hcolumns movable reads
  have htable := ofCreate_eq_markAll direct hcolumns
  have hsame : lateTable name (parts query) columns = table ↔ SameMarks (parts query) columns := by
    rw [htable, lateTable, Table.mk.injEq, Table.markAll, Table.markAll, List.map_inj_left]
    constructor
    · intro h entry hentry
      exact congrArg Prod.snd (h.2 entry hentry)
    · intro h
      exact ⟨rfl, fun entry hentry => congrArg (Prod.mk entry.1) (h entry hentry)⟩
  refine ⟨columns, left, _, hcolumns, hleft, hlate, ?_, hsame, fun h => hsame.mpr (h.sameMarks columns)⟩
  rw [htable]
  exact (definitions_markAll _ columns).trans (definitions_markAll _ columns).symm

/-- A table whose key named `k  1` comes back as `k 1`, and whose numbers go on from 5, and one whose
key comes back as it was. -/
theorem relocateKeys_model_iff_blanks :
    let query : Text := "CREATE TABLE `t` (`id` int AUTO_INCREMENT, `b` int NOT NULL,
      PRIMARY KEY (`id`), KEY `k  1` (`b`)) AUTO_INCREMENT=5;"
    let plain : Text := "CREATE TABLE `t` (`b` int NOT NULL, KEY `k` (`b`))"
    (∃ table left late, Table.ofCreate ['t'] query = .ok table ∧
      Table.ofCreate ['t'] (relocateKeys query).query = .ok left ∧
      Model.applyAlters [(['t'], left)] (relocateKeys query).alters = .ok [(['t'], late)] ∧
      late ≠ table) ∧
    ∃ table left, Table.ofCreate ['t'] plain = .ok table ∧
      Table.ofCreate ['t'] (relocateKeys plain).query = .ok left ∧
      Model.applyAlters [(['t'], left)] (relocateKeys plain).alters = .ok [(['t'], table)] := by
  intro query plain
  obtain ⟨table, direct, -⟩ := exists_ok (x := Table.ofCreate ['t'] query) (f := fun _ => ())
    (b := ()) (by decide +kernel)
  obtain ⟨marked, hmarked, hsame⟩ := exists_ok (x := Table.columnsOf (columnTexts query))
    (f := fun columns => decide (SameMarks (parts query) columns)) (b := false) (by decide +kernel)
  have reads : ∀ counter, (released (parts query)).2 = some counter →
      ∃ column rest, counter.ReadsBack column rest := by
    intro counter hcounter
    have hfound : (released (parts query)).2 = some
        { name := "`id`", definition := "int AUTO_INCREMENT", part := "`id` int" } := by
      decide +kernel
    obtain rfl := Option.some.inj (hcounter.symm.trans hfound)
    obtain ⟨read, hread, hparts⟩ := exists_ok
      (x := do return (← Column.parse "int AUTO_INCREMENT", ← Column.parse "int"))
      (f := fun (column, rest) => (column.map (·.autoIncrement), rest.map (·.primary)))
      (b := (some true, some false)) (by decide +kernel)
    obtain ⟨column, hcolumn, hread⟩ := bind_eq_ok.mp hread
    obtain ⟨rest, hrest, hread⟩ := bind_eq_ok.mp hread
    cases hread
    obtain ⟨hcounts, hprimary⟩ := Prod.mk.inj hparts
    obtain ⟨column, rfl, hcolumnCounts⟩ := Option.map_eq_some_iff.mp hcounts
    obtain ⟨rest, rfl, hrestPrimary⟩ := Option.map_eq_some_iff.mp hprimary
    refine ⟨column, rest, by decide, hcolumn, ⟨"int", by decide +kernel, hrest⟩, hcolumnCounts, ?_,
      by decide, by decide +kernel⟩
    intro h
    rw [hrestPrimary] at h
    cases h
  obtain ⟨columns, left, late, hcolumns, hleft, hlate, -, hiff, -⟩ :=
    relocateKeys_model_iff (by decide +kernel) (by decide +kernel) direct (by decide +kernel) reads
  rw [hmarked] at hcolumns
  cases hcolumns
  rw [decide_eq_false_iff_not] at hsame
  refine ⟨⟨table, left, late, direct, hleft, hlate, fun h => hsame (hiff.mp h)⟩, ?_⟩
  obtain ⟨table, direct, -⟩ := exists_ok (x := Table.ofCreate ['t'] plain) (f := fun _ => ())
    (b := ()) (by decide +kernel)
  have hnone : (released (parts plain)).2 = none := by decide +kernel
  obtain ⟨-, left, late, -, hleft, hlate, -, -, hwhole⟩ := relocateKeys_model_iff
    (by decide +kernel) (by decide +kernel) direct (by decide +kernel) fun counter hcounter => by
      rw [hnone] at hcounter
      cases hcounter
  obtain rfl := hwhole ⟨by decide +kernel, by decide +kernel⟩
  exact ⟨late, left, direct, hleft, hlate⟩

end CreateTable

end SqlDump
