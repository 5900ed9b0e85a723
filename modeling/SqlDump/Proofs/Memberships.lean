import SqlDump.Comparison
import SqlDump.Proofs.Blanks

/-!
# The keys of a column in its line

What a line says of a column's keys, one text for each key the column belongs to. As long as no name
holds a backquote, the text of a key is told from whatever follows it.
-/

namespace SqlDump

open Text

/-- A key that a column belongs to. -/
inductive Membership where
  | primary
  | unique (key : Key)
  | index (key : Key)
  | foreign (key : ForeignKey)

/-! ## 1. Names without marks -/

/-- The characters that open or close something in a line. -/
def marks : List Char := ['\x27', '\x22', '\x60', '(', ')']

/-- A name that opens and closes nothing. -/
def Text.Legible (name : Text) : Prop := ∀ c ∈ name, c ∉ marks

instance (name : Text) : Decidable name.Legible :=
  List.decidableBAll (· ∉ marks) name

structure Key.Legible (key : Key) : Prop where
  name : key.name.Legible
  columns : ∀ column ∈ key.columns, Text.Legible column

structure ForeignKey.Legible (key : ForeignKey) : Prop where
  name : key.name.Legible
  column : key.column.Legible
  refTable : key.refTable.Legible
  refColumn : key.refColumn.Legible

instance (key : Key) : Decidable key.Legible :=
  decidable_of_iff (key.name.Legible ∧ ∀ column ∈ key.columns, Text.Legible column)
    ⟨fun h => ⟨h.1, h.2⟩, fun h => ⟨h.name, h.columns⟩⟩

instance (key : ForeignKey) : Decidable key.Legible :=
  decidable_of_iff (key.name.Legible ∧ key.column.Legible ∧ key.refTable.Legible ∧
      key.refColumn.Legible)
    ⟨fun h => ⟨h.1, h.2.1, h.2.2.1, h.2.2.2⟩, fun h => ⟨h.name, h.column, h.refTable, h.refColumn⟩⟩

/-- A key with each run of blanks in its names made one space. -/
def Key.blurred (key : Key) : Key :=
  { name := collapse key.name, columns := key.columns.map collapse }

def ForeignKey.blurred (key : ForeignKey) : ForeignKey :=
  { name := collapse key.name, column := collapse key.column,
    refTable := collapse key.refTable, refColumn := collapse key.refColumn }

theorem Text.Legible.collapse {name : Text} (h : name.Legible) : (Text.collapse name).Legible := by
  intro c hc hmark
  have hsolid : (marks.all (!isBlank ·)) = true := by decide
  have hblank : isBlank c = false := by simpa using List.all_eq_true.mp hsolid c hmark
  exact h c ((mem_collapse hblank).mp hc) hmark

theorem Key.Legible.blurred {key : Key} (h : key.Legible) : key.blurred.Legible where
  name := h.name.collapse
  columns := by
    intro column hcolumn
    obtain ⟨name, hname, rfl⟩ := List.mem_map.mp hcolumn
    exact (h.columns name hname).collapse

theorem ForeignKey.Legible.blurred {key : ForeignKey} (h : key.Legible) : key.blurred.Legible :=
  ⟨h.name.collapse, h.column.collapse, h.refTable.collapse, h.refColumn.collapse⟩

namespace Membership

def text : Membership → Text
  | primary => "PRIMARY KEY;"
  | unique key => Column.uniqueText key
  | index key => Column.indexText key
  | foreign key => Column.foreignText key

def Legible : Membership → Prop
  | primary => True
  | unique key => key.Legible
  | index key => key.Legible
  | foreign key => key.Legible

instance (m : Membership) : Decidable m.Legible :=
  match m with
  | primary => isTrue trivial
  | unique key => inferInstanceAs (Decidable key.Legible)
  | index key => inferInstanceAs (Decidable key.Legible)
  | foreign key => inferInstanceAs (Decidable key.Legible)

def blurred : Membership → Membership
  | primary => primary
  | unique key => unique key.blurred
  | index key => index key.blurred
  | foreign key => foreign key.blurred

theorem Legible.blurred {m : Membership} (h : m.Legible) : m.blurred.Legible := by
  cases m with
  | primary => trivial
  | unique key => exact Key.Legible.blurred h
  | index key => exact Key.Legible.blurred h
  | foreign key => exact ForeignKey.Legible.blurred h

end Membership

namespace Column

def memberships (column : Column) : List Membership :=
  (if column.primary then [.primary] else []) ++ column.unique.map .unique ++
    column.index.map .index ++ column.foreign.map .foreign

theorem keyTexts_eq (column : Column) : keyTexts column = column.memberships.map Membership.text := by
  unfold keyTexts memberships
  simp only [List.map_append, List.map_map]
  cases column.primary <;> rfl

/-! ## 2. Lists of columns -/

/-- The columns of a list behind the first one. -/
def columnsRest : List Text → Text
  | [] => [')']
  | column :: columns => ',' :: '\x60' :: column ++ '\x60' :: columnsRest columns

theorem columnList_cons (column : Text) (columns : List Text) :
    columnList (column :: columns) = '(' :: '\x60' :: column ++ '\x60' :: columnsRest columns := by
  have key : ∀ (first : Text) (rest : List Text),
      join "," (first :: rest.map fun column => "`" ++ column ++ "`") ++ [')'] =
        first ++ columnsRest rest := by
    intro first rest
    induction rest generalizing first with
    | nil => simp [join, columnsRest]
    | cons next rest ih =>
      rw [List.map_cons, join, List.intercalate_cons_cons, ← join, List.append_assoc, ih]
      simp [columnsRest]
  have h := key ("`" ++ column ++ "`") columns
  show '(' :: join "," ((column :: columns).map fun column => "`" ++ column ++ "`") ++ [')'] = _
  rw [List.map_cons, List.cons_append, h]
  simp

theorem collapse_columnsRest (columns : List Text) (s : Text) :
    collapse (columnsRest columns ++ s) = columnsRest (columns.map collapse) ++ collapse s := by
  induction columns with
  | nil => exact collapse_cons (by decide) s
  | cons column columns ih =>
    simp only [columnsRest, List.map_cons, List.cons_append, List.append_assoc]
    rw [collapse_cons (by decide), collapse_cons (by decide), collapse_append_cons _ (by decide), ih]

theorem collapse_columnList (columns : List Text) (s : Text) :
    collapse (columnList columns ++ s) = columnList (columns.map collapse) ++ collapse s := by
  cases columns with
  | nil =>
    show collapse ('(' :: ')' :: s) = '(' :: ')' :: collapse s
    rw [collapse_cons (by decide), collapse_cons (by decide)]
  | cons column columns =>
    rw [columnList_cons, List.map_cons, columnList_cons]
    simp only [List.cons_append, List.append_assoc]
    rw [collapse_cons (by decide), collapse_cons (by decide), collapse_append_cons _ (by decide),
      collapse_columnsRest]

theorem backquote_notMem {name : Text} (h : name.Legible) : '\x60' ∉ name :=
  fun hmem => h _ hmem (by decide)

-- A name ends at the first backquote.
theorem name_unique {a b s t : Text} (ha : a.Legible) (hb : b.Legible)
    (h : a ++ '\x60' :: s = b ++ '\x60' :: t) : a = b ∧ s = t := by
  induction a generalizing b with
  | nil =>
    cases b with
    | nil => exact ⟨rfl, (List.cons.inj h).2⟩
    | cons c b =>
      obtain ⟨rfl, -⟩ := List.cons.inj h
      exact absurd List.mem_cons_self (backquote_notMem hb)
  | cons c a ih =>
    cases b with
    | nil =>
      obtain ⟨rfl, -⟩ := List.cons.inj h
      exact absurd List.mem_cons_self (backquote_notMem ha)
    | cons d b =>
      obtain ⟨rfl, hrest⟩ := List.cons.inj h
      obtain ⟨rfl, rfl⟩ := ih (fun c hc => ha c (List.mem_cons_of_mem _ hc))
        (fun c hc => hb c (List.mem_cons_of_mem _ hc)) hrest
      exact ⟨rfl, rfl⟩

theorem columnsRest_unique {a b : List Text} (ha : ∀ name ∈ a, Text.Legible name)
    (hb : ∀ name ∈ b, Text.Legible name) {s t : Text} (h : columnsRest a ++ s = columnsRest b ++ t) :
    a = b ∧ s = t := by
  induction a generalizing b with
  | nil =>
    cases b with
    | nil => exact ⟨rfl, (List.cons.inj h).2⟩
    | cons name b => exact absurd (List.cons.inj h).1 (by decide)
  | cons name a ih =>
    cases b with
    | nil => exact absurd (List.cons.inj h).1 (by decide)
    | cons other b =>
      simp only [columnsRest, List.cons_append, List.append_assoc, List.cons.injEq, true_and] at h
      obtain ⟨rfl, hrest⟩ := name_unique (ha _ List.mem_cons_self) (hb _ List.mem_cons_self) h
      obtain ⟨rfl, rfl⟩ := ih (fun n hn => ha n (List.mem_cons_of_mem _ hn))
        (fun n hn => hb n (List.mem_cons_of_mem _ hn)) hrest
      exact ⟨rfl, rfl⟩

theorem columnList_unique {a b : List Text} (ha : ∀ name ∈ a, Text.Legible name)
    (hb : ∀ name ∈ b, Text.Legible name) {s t : Text} (h : columnList a ++ s = columnList b ++ t) :
    a = b ∧ s = t := by
  cases a with
  | nil =>
    cases b with
    | nil => exact ⟨rfl, List.append_cancel_left h⟩
    | cons name b =>
      rw [columnList_cons] at h
      exact absurd (List.cons.inj (List.cons.inj h).2).1 (by decide)
  | cons name a =>
    cases b with
    | nil =>
      rw [columnList_cons] at h
      exact absurd (List.cons.inj (List.cons.inj h).2).1 (by decide)
    | cons other b =>
      rw [columnList_cons, columnList_cons] at h
      simp only [List.cons_append, List.append_assoc, List.cons.injEq, true_and] at h
      obtain ⟨rfl, hrest⟩ := name_unique (ha _ List.mem_cons_self) (hb _ List.mem_cons_self) h
      obtain ⟨rfl, rfl⟩ := columnsRest_unique (fun n hn => ha n (List.mem_cons_of_mem _ hn))
        (fun n hn => hb n (List.mem_cons_of_mem _ hn)) hrest
      exact ⟨rfl, rfl⟩

end Column

/-! ## 3. Texts of keys -/

namespace Membership

open Column

theorem text_unique (key : Key) (s : Text) : uniqueText key ++ s =
    "UNIQUE KEY `".toList ++ (key.name ++ '\x60' :: (columnList key.columns ++ ';' :: s)) := by
  have assoc : ∀ a b c d e : Text,
      a ++ b ++ c ++ d ++ e ++ s = a ++ (b ++ (c ++ (d ++ (e ++ s)))) :=
    fun a b c d e => by simp only [List.append_assoc]
  unfold uniqueText
  exact assoc _ _ ['\x60'] _ [';']

theorem text_index (key : Key) (s : Text) : indexText key ++ s =
    "KEY `".toList ++ (key.name ++ '\x60' :: (columnList key.columns ++ ';' :: s)) := by
  have assoc : ∀ a b c d e : Text,
      a ++ b ++ c ++ d ++ e ++ s = a ++ (b ++ (c ++ (d ++ (e ++ s)))) :=
    fun a b c d e => by simp only [List.append_assoc]
  unfold indexText
  exact assoc _ _ ['\x60'] _ [';']

theorem text_foreign (key : ForeignKey) (s : Text) : foreignText key ++ s =
    "CONSTRAINT `".toList ++ (key.name ++ '\x60' :: (" FOREIGN KEY (`".toList ++
      (key.column ++ '\x60' :: (") REFERENCES `".toList ++ (key.refTable ++ '\x60' ::
        (" (`".toList ++ (key.refColumn ++ '\x60' :: ')' :: ';' :: s))))))) := by
  have assoc : ∀ a b c d e f g h i : Text, a ++ b ++ c ++ d ++ e ++ f ++ g ++ h ++ i ++ s =
      a ++ (b ++ (c ++ (d ++ (e ++ (f ++ (g ++ (h ++ (i ++ s)))))))) :=
    fun a b c d e f g h i => by simp only [List.append_assoc]
  unfold foreignText
  exact assoc _ _ ('\x60' :: " FOREIGN KEY (`".toList) _ ('\x60' :: ") REFERENCES `".toList) _
    ('\x60' :: " (`".toList) _ ['\x60', ')', ';']

theorem collapse_text (m : Membership) (s : Text) :
    collapse (m.text ++ s) = m.blurred.text ++ collapse s := by
  have hquoted : ∀ (lead name rest : Text), endsBlank false lead = false →
      collapse lead = lead → collapse (lead ++ (name ++ '\x60' :: rest)) =
        lead ++ (collapse name ++ '\x60' :: collapse rest) := by
    intro lead name rest hends hlead
    rw [collapse_append hends, hlead, collapse_append_cons _ (by decide)]
  cases m with
  | primary =>
    show collapse ("PRIMARY KEY;".toList ++ s) = "PRIMARY KEY;".toList ++ collapse s
    rw [collapse_append (by decide)]
    rfl
  | unique key =>
    show collapse (uniqueText key ++ s) = uniqueText key.blurred ++ collapse s
    rw [text_unique, text_unique, hquoted _ _ _ (by decide) rfl, collapse_columnList,
      collapse_cons (by decide)]
    rfl
  | index key =>
    show collapse (indexText key ++ s) = indexText key.blurred ++ collapse s
    rw [text_index, text_index, hquoted _ _ _ (by decide) rfl, collapse_columnList,
      collapse_cons (by decide)]
    rfl
  | foreign key =>
    show collapse (foreignText key ++ s) = foreignText key.blurred ++ collapse s
    rw [text_foreign, text_foreign, hquoted _ _ _ (by decide) rfl,
      hquoted _ _ _ (by decide) rfl, hquoted _ _ _ (by decide) rfl, hquoted _ _ _ (by decide) rfl,
      collapse_cons (by decide), collapse_cons (by decide)]
    rfl

theorem text_starts (m : Membership) : ∃ c s, m.text = c :: s ∧ isBlank c = false := by
  cases m with
  | primary => exact ⟨'P', "RIMARY KEY;".toList, rfl, by decide⟩
  | unique key => exact ⟨'U', _, rfl, by decide⟩
  | index key => exact ⟨'K', _, rfl, by decide⟩
  | foreign key => exact ⟨'C', _, rfl, by decide⟩

theorem text_ends (m : Membership) : ∃ w, m.text = w ++ [';'] := by
  cases m with
  | primary => exact ⟨"PRIMARY KEY".toList, rfl⟩
  | unique key => exact ⟨_, rfl⟩
  | index key => exact ⟨_, rfl⟩
  | foreign key =>
    have assoc : ∀ s : Text, s ++ ['\x60', ')', ';'] = (s ++ ['\x60', ')']) ++ [';'] :=
      fun s => by simp only [List.append_assoc, List.cons_append, List.nil_append]
    exact ⟨_, assoc _⟩

theorem unique_key {a b : Key} (ha : a.Legible) (hb : b.Legible) {lead s t : Text}
    (h : lead ++ (a.name ++ '\x60' :: (columnList a.columns ++ ';' :: s)) =
      lead ++ (b.name ++ '\x60' :: (columnList b.columns ++ ';' :: t))) : a = b ∧ s = t := by
  obtain ⟨hname, h⟩ := name_unique ha.name hb.name (List.append_cancel_left h)
  obtain ⟨hcolumns, hend⟩ := columnList_unique ha.columns hb.columns h
  obtain ⟨-, hs⟩ := List.cons.inj hend
  cases a
  cases b
  exact ⟨by simp_all, hs⟩

theorem unique_foreign {a b : ForeignKey} (ha : a.Legible) (hb : b.Legible) {s t : Text}
    (h : foreignText a ++ s = foreignText b ++ t) : a = b ∧ s = t := by
  rw [text_foreign, text_foreign] at h
  obtain ⟨hname, h⟩ := name_unique ha.name hb.name (List.append_cancel_left h)
  obtain ⟨hcolumn, h⟩ := name_unique ha.column hb.column (List.append_cancel_left h)
  obtain ⟨htable, h⟩ := name_unique ha.refTable hb.refTable (List.append_cancel_left h)
  obtain ⟨hrefColumn, hend⟩ := name_unique ha.refColumn hb.refColumn (List.append_cancel_left h)
  cases a
  cases b
  exact ⟨by simp_all, (List.cons.inj (List.cons.inj hend).2).2⟩

/-- The text of a key is told from whatever follows it. -/
theorem unique_text {m n : Membership} (hm : m.Legible) (hn : n.Legible) {s t : Text}
    (h : m.text ++ s = n.text ++ t) : m = n ∧ s = t := by
  have hfirst := congrArg List.head? h
  cases m with
  | primary =>
    cases n with
    | primary => exact ⟨rfl, List.append_cancel_left h⟩
    | _ => exact absurd (Option.some.inj hfirst) (by decide)
  | unique a =>
    cases n with
    | unique b =>
      change uniqueText a ++ s = uniqueText b ++ t at h
      rw [text_unique, text_unique] at h
      obtain ⟨rfl, hs⟩ := unique_key hm hn h
      exact ⟨rfl, hs⟩
    | _ => exact absurd (Option.some.inj hfirst) (by decide)
  | index a =>
    cases n with
    | index b =>
      change indexText a ++ s = indexText b ++ t at h
      rw [text_index, text_index] at h
      obtain ⟨rfl, hs⟩ := unique_key hm hn h
      exact ⟨rfl, hs⟩
    | _ => exact absurd (Option.some.inj hfirst) (by decide)
  | foreign a =>
    cases n with
    | foreign b =>
      obtain ⟨rfl, hs⟩ := unique_foreign hm hn h
      exact ⟨rfl, hs⟩
    | _ => exact absurd (Option.some.inj hfirst) (by decide)

end Membership

end SqlDump
