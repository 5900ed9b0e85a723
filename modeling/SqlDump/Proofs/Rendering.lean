import SqlDump.Proofs.Definitions
import SqlDump.Proofs.Memberships

/-!
# What a column's line tells

The line of a column that was read from a dump tells the whole column up to runs of blanks, as long
as the names in its keys open and close nothing. The line is read back from the left: the type, then
what stands behind it, then the default, which ends where no token goes on, then the keys.
-/

namespace SqlDump

open Text

/-! ## 1. Texts that close nothing -/

/-- Text that opens no string, closes no group that it does not open, and closes its names. -/
structure Quiet (s : Text) : Prop where
  single : s.count '\x27' = 0
  double : s.count '\x22' = 0
  groups : ∀ u v, s = u ++ v → u.count ')' ≤ u.count '('
  names : s.count '\x60' % 2 = 0

namespace Quiet

theorem count_eq_zero {s : Text} (h : s.Legible) {c : Char} (hc : c ∈ marks) : s.count c = 0 :=
  List.count_eq_zero.mpr fun hmem => h c hmem hc

theorem of_legible {s : Text} (h : s.Legible) : Quiet s where
  single := count_eq_zero h (by decide)
  double := count_eq_zero h (by decide)
  groups := by
    rintro u v rfl
    have hclose : u.count ')' = 0 :=
      count_eq_zero (fun c hc => h c (List.mem_append_left v hc)) (by decide)
    omega
  names := by rw [count_eq_zero h (by decide)]

theorem append {s t : Text} (hs : Quiet s) (ht : Quiet t) : Quiet (s ++ t) where
  single := by rw [List.count_append, hs.single, ht.single]
  double := by rw [List.count_append, hs.double, ht.double]
  groups := by
    intro u v h
    rcases List.append_eq_append_iff.mp h with ⟨w, rfl, hw⟩ | ⟨w, hw, -⟩
    · have hfront := hs.groups s [] (List.append_nil s).symm
      have hback := ht.groups w v hw
      rw [List.count_append, List.count_append]
      omega
    · exact hs.groups u w hw
  names := by
    have := hs.names
    have := ht.names
    rw [List.count_append]
    omega

theorem quoted {name : Text} (h : name.Legible) : Quiet ('\x60' :: name ++ ['\x60']) where
  single := by simp [count_eq_zero h (c := '\x27') (by decide)]
  double := by simp [count_eq_zero h (c := '\x22') (by decide)]
  groups := by
    intro u v huv
    have hclose := congrArg (List.count ')') huv
    have hname : name.count ')' = 0 := count_eq_zero h (by decide)
    simp [hname] at hclose
    omega
  names := by simp [count_eq_zero h (c := '\x60') (by decide)]

theorem group {s : Text} (h : Quiet s) : Quiet ('(' :: s ++ [')']) where
  single := by simp [h.single]
  double := by simp [h.double]
  groups := by
    intro u v huv
    cases u with
    | nil => simp
    | cons c u =>
      obtain ⟨rfl, hrest⟩ := List.cons.inj huv
      rw [List.count_cons_self, List.count_cons_of_ne (by decide)]
      rcases List.append_eq_append_iff.mp hrest with ⟨w, rfl, hw⟩ | ⟨w, hw, -⟩
      · have hfront := h.groups s [] (List.append_nil s).symm
        have hlast := congrArg (List.count ')') hw
        rw [List.count_append] at hlast
        simp at hlast
        rw [List.count_append, List.count_append]
        omega
      · have hfront := h.groups u w hw
        omega
  names := by
    have := h.names
    simpa using this

theorem join {parts : List Text} (h : ∀ part ∈ parts, Quiet part) :
    Quiet (Text.join "," parts) := by
  induction parts with
  | nil => exact of_legible fun c hc => by cases hc
  | cons part parts ih =>
    have rest := ih fun other hother => h other (List.mem_cons_of_mem _ hother)
    cases parts with
    | nil =>
      rw [Text.join, List.intercalate_singleton]
      exact h part List.mem_cons_self
    | cons next parts =>
      rw [Text.join, List.intercalate_cons_cons]
      have hcomma : Quiet [','] := of_legible (by decide)
      exact ((h part List.mem_cons_self).append hcomma).append rest

theorem columnList {columns : List Text} (h : ∀ column ∈ columns, Text.Legible column) :
    Quiet (Column.columnList columns) := by
  refine group (join fun part hpart => ?_)
  obtain ⟨column, hcolumn, rfl⟩ := List.mem_map.mp hpart
  exact quoted (h column hcolumn)

-- A name between backquotes, what stands before it and what stands behind it.
theorem named {lead name s : Text} (hlead : Quiet lead) (hname : name.Legible) (h : Quiet s) :
    Quiet (lead ++ '\x60' :: (name ++ '\x60' :: s)) := by
  have hall := (hlead.append (quoted hname)).append h
  simpa using hall

end Quiet

theorem Membership.quiet {m : Membership} (h : m.Legible) : Quiet m.text := by
  have hsemicolon : Quiet [';'] := .of_legible (by decide)
  rw [← List.append_nil m.text]
  cases m with
  | primary => exact .of_legible (by decide)
  | unique key =>
    have hlead : Quiet "UNIQUE KEY ".toList := .of_legible (by decide)
    show Quiet (Column.uniqueText key ++ [])
    rw [text_unique]
    exact .named hlead h.name ((Quiet.columnList h.columns).append hsemicolon)
  | index key =>
    have hlead : Quiet "KEY ".toList := .of_legible (by decide)
    show Quiet (Column.indexText key ++ [])
    rw [text_index]
    exact .named hlead h.name ((Quiet.columnList h.columns).append hsemicolon)
  | foreign key =>
    have hlead : Quiet "CONSTRAINT ".toList := .of_legible (by decide)
    have hforeign : Quiet " FOREIGN KEY ".toList := .of_legible (by decide)
    have hreferences : Quiet " REFERENCES ".toList := .of_legible (by decide)
    have hspace : Quiet [' '] := .of_legible (by decide)
    have hall := hlead.named h.name (hforeign.append ((Quiet.group (.quoted h.column)).append
      (hreferences.named h.refTable (hspace.append
        ((Quiet.group (.quoted h.refColumn)).append hsemicolon)))))
    show Quiet (Column.foreignText key ++ [])
    rw [text_foreign]
    change Quiet ("CONSTRAINT ".toList ++ '\x60' :: (key.name ++ '\x60' :: (" FOREIGN KEY ".toList ++
      '(' :: '\x60' :: (key.column ++ '\x60' :: ')' :: (" REFERENCES ".toList ++ '\x60' ::
        (key.refTable ++ '\x60' :: ' ' :: '(' :: '\x60' ::
          (key.refColumn ++ ['\x60', ')', ';'])))))))
    revert hall
    generalize "CONSTRAINT ".toList = lead
    generalize " FOREIGN KEY ".toList = foreignWord
    generalize " REFERENCES ".toList = referencesWord
    intro hall
    simpa using hall

/-! ## 2. A line piece by piece -/

/-- Whether a column can be null, behind its type. -/
def nullText (nullable : Bool) : Text :=
  if nullable then " NULL".toList else " NOT NULL".toList

def defaultText : Option Text → Text
  | none => []
  | some value => " DEFAULT ".toList ++ value

def countText (counts : Bool) : Text := if counts then " AUTO_INCREMENT".toList else []

def keysText (keys : List Membership) : Text := keys.flatMap fun m => ' ' :: m.text

namespace Column

/-- What stands behind the default of a column. -/
def rest (column : Column) : Text :=
  countText column.autoIncrement ++ ';' :: keysText column.memberships

/-- What a line says behind the column's name, blanks as they are. -/
def plain (column : Column) : Text :=
  column.type ++ (nullText column.nullable ++ (defaultText column.default ++ column.rest))

/-- A column with each run of blanks in its texts made one space. -/
def blurred (column : Column) : Column :=
  { column with
    type := collapse column.type
    default := column.default.map collapse
    unique := column.unique.map Key.blurred
    index := column.index.map Key.blurred
    foreign := column.foreign.map ForeignKey.blurred }

/-- A column whose keys have legible names. -/
def Legible (column : Column) : Prop := ∀ m ∈ column.memberships, m.Legible

instance (column : Column) : Decidable column.Legible :=
  inferInstanceAs (Decidable (∀ m ∈ column.memberships, m.Legible))

theorem memberships_blurred (column : Column) :
    column.blurred.memberships = column.memberships.map Membership.blurred := by
  obtain ⟨definition, primary, unique, index, foreign⟩ := column
  simp only [memberships, blurred, List.map_append, List.map_map]
  cases primary <;> rfl

theorem Legible.blurred {column : Column} (h : column.Legible) : column.blurred.Legible := by
  intro m hm
  rw [memberships_blurred] at hm
  obtain ⟨n, hn, rfl⟩ := List.mem_map.mp hm
  exact (h n hn).blurred

theorem quiet_rest {column : Column} (h : column.Legible) : Quiet column.rest := by
  have hcount : Quiet (countText column.autoIncrement) := by
    cases column.autoIncrement with
    | false => exact .of_legible fun c hc => by cases hc
    | true => exact .of_legible (by decide)
  have hkeys : ∀ keys : List Membership, (∀ m ∈ keys, m.Legible) → Quiet (keysText keys) := by
    intro keys hkeys
    induction keys with
    | nil => exact .of_legible fun c hc => by cases hc
    | cons m keys ih =>
      have hspace : Quiet [' '] := .of_legible (by decide)
      exact (hspace.append (Membership.quiet (hkeys m List.mem_cons_self))).append
        (ih fun n hn => hkeys n (List.mem_cons_of_mem _ hn))
  have hsemicolon : Quiet [';'] := .of_legible (by decide)
  exact hcount.append (hsemicolon.append (hkeys _ h))

theorem rest_starts (column : Column) : ∃ c s, column.rest = c :: s ∧ Token.isStop c = true := by
  unfold rest
  cases column.autoIncrement with
  | false => exact ⟨';', _, rfl, by decide⟩
  | true => exact ⟨' ', _, rfl, by decide⟩

/-! ## 3. Reading a line back -/

-- Text in front of a text without closing marks closes something only if both together do.
theorem not_closing {s t : Text} (h : Quiet (s ++ t)) (ht : Quiet t) : ¬ Token.Closing s := by
  rintro (hclosing | hclosing | hclosing | hclosing)
  · have := List.count_pos_iff.mpr hclosing
    have := h.single
    rw [List.count_append] at this
    omega
  · have := List.count_pos_iff.mpr hclosing
    have := h.double
    rw [List.count_append] at this
    omega
  · have := h.groups s t rfl
    omega
  · have := h.names
    have := ht.names
    rw [List.count_append] at *
    omega

-- A default ends where no token goes on.
theorem default_unique {v w s t : Text} (hv : Token.Delimited v) (hw : Token.Delimited w)
    (hs : Quiet s) (ht : Quiet t) (hs' : ∃ c r, s = c :: r ∧ Token.isStop c = true)
    (ht' : ∃ c r, t = c :: r ∧ Token.isStop c = true) (h : v ++ s = w ++ t) : v = w ∧ s = t := by
  have key : ∀ {v x s t : Text}, Token.Delimited v → Token.Delimited (v ++ x) → Quiet s → Quiet t →
      (∃ c r, s = c :: r ∧ Token.isStop c = true) → s = x ++ t → x = [] := by
    intro v x s t hv hx hs ht hs' hst
    cases x with
    | nil => rfl
    | cons c x =>
      obtain ⟨d, r, hd, hstop⟩ := hs'
      rw [hd] at hst
      obtain ⟨rfl, -⟩ := List.cons.inj hst
      obtain ⟨a, u, rfl, -⟩ := hv.starts
      have hclosing := hx.closing (a :: u) d x (List.cons_ne_nil _ _) rfl hstop
      rw [← hd] at hst
      exact absurd hclosing (not_closing (hst ▸ hs) ht)
  rcases List.append_eq_append_iff.mp h with ⟨x, rfl, hx⟩ | ⟨x, rfl, hx⟩
  · obtain rfl := key hv hw hs ht hs' hx
    exact ⟨(List.append_nil v).symm, hx⟩
  · obtain rfl := key hw hv ht hs ht' hx
    exact ⟨List.append_nil w, hx.symm⟩

theorem word_unique {a b : Text} (ha : ∀ c ∈ a, isBreak c = false) (hb : ∀ c ∈ b, isBreak c = false)
    {c d : Char} (hc : isBreak c = true) (hd : isBreak d = true) {s t : Text}
    (h : a ++ c :: s = b ++ d :: t) : a = b ∧ c = d ∧ s = t := by
  induction a generalizing b with
  | nil =>
    cases b with
    | nil => exact ⟨rfl, List.cons.inj h⟩
    | cons e b =>
      obtain ⟨rfl, -⟩ := List.cons.inj h
      rw [hb _ List.mem_cons_self] at hc
      cases hc
  | cons e a ih =>
    cases b with
    | nil =>
      obtain ⟨rfl, -⟩ := List.cons.inj h
      rw [ha _ List.mem_cons_self] at hd
      cases hd
    | cons f b =>
      obtain ⟨rfl, hrest⟩ := List.cons.inj h
      obtain ⟨rfl, hcd⟩ := ih (fun c hc => ha c (List.mem_cons_of_mem _ hc))
        (fun c hc => hb c (List.mem_cons_of_mem _ hc)) hrest
      exact ⟨rfl, hcd⟩

theorem null_unique {m n : Bool} {s t : Text} (h : nullText m ++ s = nullText n ++ t) :
    m = n ∧ s = t := by
  have hthird := congrArg (·[2]?) h
  cases m with
  | false =>
    cases n with
    | false => exact ⟨rfl, List.append_cancel_left h⟩
    | true => exact absurd (Option.some.inj hthird) (by decide)
  | true =>
    cases n with
    | false => exact absurd (Option.some.inj hthird) (by decide)
    | true => exact ⟨rfl, List.append_cancel_left h⟩

/-- What a type says behind its arguments. -/
def unsignedText (unsigned : Bool) : Text := (if unsigned then " unsigned" else "").toList

theorem unsigned_unique {u v m n : Bool} {s t : Text}
    (h : unsignedText u ++ (nullText m ++ s) = unsignedText v ++ (nullText n ++ t)) :
    u = v ∧ m = n ∧ s = t := by
  have hnull : ∀ (m : Bool) (s : Text), (nullText m ++ s)[1]? = some 'N' := by
    intro m s
    cases m <;> rfl
  have hsecond := congrArg (·[1]?) h
  cases u with
  | false =>
    cases v with
    | false => exact ⟨rfl, null_unique h⟩
    | true =>
      have hne := (hnull m s).symm.trans hsecond
      exact absurd (Option.some.inj hne) (by decide)
  | true =>
    cases v with
    | false =>
      have hne := hsecond.trans (hnull n t)
      exact absurd (Option.some.inj hne) (by decide)
    | true => exact ⟨rfl, null_unique (List.append_cancel_left h)⟩

/-- The arguments of a type in their parentheses. -/
def argumentText : Option Text → Text
  | some arguments => '(' :: (arguments ++ [')'])
  | none => []

theorem typeText_eq (datatype : Text) (arguments : Option Text) (unsigned : Bool) :
    typeText datatype arguments unsigned =
      datatype ++ (argumentText arguments ++ unsignedText unsigned) := by
  cases arguments with
  | none =>
    show datatype ++ [] ++ unsignedText unsigned = _
    rw [List.append_nil]
    rfl
  | some arguments =>
    show datatype ++ (['('] ++ arguments ++ [')']) ++ unsignedText unsigned = _
    simp [argumentText]

theorem type_unique {a b : Text} {x y : Option Text} {u v m n : Bool} {s t : Text}
    (ha : ∀ c ∈ a, isBreak c = false) (hb : ∀ c ∈ b, isBreak c = false)
    (hx : ∀ w, x = some w → Enclosed none w) (hy : ∀ w, y = some w → Enclosed none w)
    (h : typeText a x u ++ (nullText m ++ s) = typeText b y v ++ (nullText n ++ t)) :
    a = b ∧ x = y ∧ u = v ∧ m = n ∧ s = t := by
  have behind : ∀ (u m : Bool) (s : Text), ∃ r, unsignedText u ++ (nullText m ++ s) = ' ' :: r := by
    intro u m s
    cases u <;> cases m <;> exact ⟨_, rfl⟩
  obtain ⟨r, hr⟩ := behind u m s
  obtain ⟨q, hq⟩ := behind v n t
  rw [typeText_eq, typeText_eq] at h
  simp only [List.append_assoc] at h
  cases x with
  | none =>
    cases y with
    | none =>
      have hword := h
      simp only [argumentText, List.nil_append] at hword h
      rw [hr, hq] at hword
      obtain ⟨rfl, -, -⟩ := word_unique ha hb (by decide) (by decide) hword
      exact ⟨rfl, rfl, unsigned_unique (List.append_cancel_left h)⟩
    | some w =>
      simp only [argumentText, List.nil_append, List.cons_append] at h
      rw [hr] at h
      obtain ⟨-, hfirst, -⟩ := word_unique ha hb (by decide) (by decide) h
      exact absurd hfirst (by decide)
  | some w =>
    cases y with
    | none =>
      simp only [argumentText, List.nil_append, List.cons_append] at h
      rw [hq] at h
      obtain ⟨-, hfirst, -⟩ := word_unique ha hb (by decide) (by decide) h
      exact absurd hfirst (by decide)
    | some z =>
      simp only [argumentText, List.cons_append, List.append_assoc, List.nil_append] at h
      obtain ⟨rfl, -, harguments⟩ := word_unique ha hb (by decide) (by decide) h
      obtain ⟨rfl, hrest⟩ := (hx w rfl).unique (hy z rfl) harguments
      exact ⟨rfl, rfl, unsigned_unique hrest⟩

theorem keysText_unique {keys others : List Membership} (hkeys : ∀ m ∈ keys, m.Legible)
    (hothers : ∀ m ∈ others, m.Legible) (h : keysText keys = keysText others) : keys = others := by
  induction keys generalizing others with
  | nil =>
    cases others with
    | nil => rfl
    | cons n others => cases h
  | cons m keys ih =>
    cases others with
    | nil => cases h
    | cons n others =>
      have h : m.text ++ keysText keys = n.text ++ keysText others := (List.cons.inj h).2
      obtain ⟨rfl, hrest⟩ := Membership.unique_text (hkeys m List.mem_cons_self)
        (hothers n List.mem_cons_self) h
      rw [ih (fun m hm => hkeys m (List.mem_cons_of_mem _ hm))
        (fun m hm => hothers m (List.mem_cons_of_mem _ hm)) hrest]

theorem rest_unique {a b : Column} (ha : a.Legible) (hb : b.Legible) (h : a.rest = b.rest) :
    a.autoIncrement = b.autoIncrement ∧ a.memberships = b.memberships := by
  unfold rest at h
  have hfirst := congrArg List.head? h
  cases hcount : a.autoIncrement <;> cases hcount' : b.autoIncrement <;>
    rw [hcount, hcount'] at h hfirst
  · exact ⟨rfl, keysText_unique ha hb (List.cons.inj h).2⟩
  · exact absurd (Option.some.inj hfirst) (by decide)
  · exact absurd (Option.some.inj hfirst) (by decide)
  · exact ⟨rfl, keysText_unique ha hb (List.cons.inj (List.append_cancel_left h)).2⟩

theorem memberships_injective {a b : Column} (h : a.memberships = b.memberships) :
    a.primary = b.primary ∧ a.unique = b.unique ∧ a.index = b.index ∧ a.foreign = b.foreign := by
  have hprimary : ∀ c : Column, (c.memberships.any fun | .primary => true | _ => false) = c.primary := by
    intro c
    unfold memberships
    cases hc : c.primary <;> simp
  have hunique : ∀ c : Column,
      (c.memberships.filterMap fun | .unique key => some key | _ => none) = c.unique := by
    intro c
    unfold memberships
    cases hc : c.primary <;> simp [List.filterMap_map]
  have hindex : ∀ c : Column,
      (c.memberships.filterMap fun | .index key => some key | _ => none) = c.index := by
    intro c
    unfold memberships
    cases hc : c.primary <;> simp [List.filterMap_map]
  have hforeign : ∀ c : Column,
      (c.memberships.filterMap fun | .foreign key => some key | _ => none) = c.foreign := by
    intro c
    unfold memberships
    cases hc : c.primary <;> simp [List.filterMap_map]
  refine ⟨?_, ?_, ?_, ?_⟩
  · rw [← hprimary a, ← hprimary b, h]
  · rw [← hunique a, ← hunique b, h]
  · rw [← hindex a, ← hindex b, h]
  · rw [← hforeign a, ← hforeign b, h]

theorem default_toList : " DEFAULT ".toList = ' ' :: 'D' :: "EFAULT ".toList := rfl

-- No rest is taken for a default.
theorem default_ne_rest (column : Column) (value : Text) :
    defaultText (some value) ≠ column.rest := by
  unfold rest defaultText
  rw [default_toList]
  intro h
  cases hcounts : column.autoIncrement with
  | false =>
    rw [hcounts] at h
    exact absurd (List.cons.inj h).1 (by decide)
  | true =>
    rw [hcounts] at h
    exact absurd (List.cons.inj (List.cons.inj h).2).1 (by decide)

theorem default_rest_unique {a b : Column}
    (ha : ∀ value, a.default = some value → Token.Delimited value)
    (hb : ∀ value, b.default = some value → Token.Delimited value) (ha' : a.Legible)
    (hb' : b.Legible) (h : defaultText a.default ++ a.rest = defaultText b.default ++ b.rest) :
    a.default = b.default ∧ a.rest = b.rest := by
  have assoc : ∀ value s : Text, defaultText (some value) ++ s = defaultText (some (value ++ s)) :=
    fun value s => List.append_assoc _ _ _
  cases hv : a.default with
  | none =>
    cases hw : b.default with
    | none =>
      rw [hv, hw] at h
      exact ⟨rfl, h⟩
    | some w =>
      rw [hv, hw, assoc] at h
      exact absurd h.symm (default_ne_rest a _)
  | some v =>
    cases hw : b.default with
    | none =>
      rw [hv, hw, assoc] at h
      exact absurd h (default_ne_rest b _)
    | some w =>
      rw [hv, hw, assoc, assoc] at h
      obtain ⟨rfl, hrest⟩ := default_unique (ha v hv) (hb w hw) (quiet_rest ha') (quiet_rest hb')
        a.rest_starts b.rest_starts (List.append_cancel_left h)
      exact ⟨rfl, hrest⟩

/-- A column is known from what its line says. -/
theorem plain_injective {a b : Column} (ha : a.Shaped) (hb : b.Shaped) (ha' : a.Legible)
    (hb' : b.Legible) (h : a.plain = b.plain) : a = b := by
  obtain ⟨x, htype, hx, hsize⟩ := ha.type
  obtain ⟨y, htype', hy, hsize'⟩ := hb.type
  unfold plain at h
  rw [htype, htype'] at h
  obtain ⟨hdatatype, rfl, hunsigned, hnullable, hdefault⟩ := type_unique ha.word hb.word hx hy h
  obtain ⟨hvalue, hrest⟩ := default_rest_unique ha.default hb.default ha' hb' hdefault
  obtain ⟨hcounts, hkeys⟩ := rest_unique ha' hb' hrest
  obtain ⟨hprimary, hunique, hindex, hforeign⟩ := memberships_injective hkeys
  have hlength := ha.length
  have hlength' := hb.length
  obtain ⟨⟨type, datatype, size, length, unsigned, nullable, default, counts⟩, primary, unique,
    index, foreign⟩ := a
  obtain ⟨⟨type', datatype', size', length', unsigned', nullable', default', counts'⟩, primary',
    unique', index', foreign'⟩ := b
  dsimp only at *
  subst hdatatype hunsigned hnullable hcounts hprimary hunique hindex hforeign
  obtain rfl : size = size' := by rw [hsize, hsize']
  rw [htype, htype', hlength, hlength', hvalue]

/-! ## 4. Lines with single spaces -/

theorem blurred_shaped {column : Column} (h : column.Shaped) : column.blurred.Shaped where
  type := by
    obtain ⟨x, htype, hx, hsize⟩ := h.type
    refine ⟨x.map collapse, ?_, ?_, ?_⟩
    · show collapse column.type = typeText column.datatype (x.map collapse) column.unsigned
      have hword : ∀ c ∈ column.datatype, isBlank c = false := fun c hc =>
        (Bool.or_eq_false_iff.mp (h.word c hc)).1
      have hunsigned : collapse (unsignedText column.unsigned) = unsignedText column.unsigned := by
        cases column.unsigned <;> rfl
      rw [htype, typeText_eq, typeText_eq, collapse_append (endsBlank_of_solid hword),
        collapse_eq_self hword]
      cases x with
      | none => exact congrArg (column.datatype ++ ·) hunsigned
      | some a =>
        simp only [argumentText, Option.map_some, List.cons_append, List.append_assoc,
          List.nil_append]
        rw [collapse_cons (by decide), collapse_append_cons _ (by decide), hunsigned]
    · intro a ha
      obtain ⟨b, rfl, rfl⟩ := Option.map_eq_some_iff.mp ha
      exact (hx b rfl).collapseAfter solidMark_none false
    · show column.size = _
      rw [hsize]
      cases x with
      | none => rfl
      | some a =>
        show _ = natOfDigits ((collapse a).takeWhile isDigit)
        rw [takeWhile_collapse fun c hc => not_isBlank_of_isDigit hc]
        rfl
  named := h.named
  word := h.word
  length := h.length
  default := by
    intro value hvalue
    obtain ⟨v, hv, rfl⟩ := Option.map_eq_some_iff.mp hvalue
    exact (h.default v hv).collapse

/-- What a line says in front of the type. -/
def lead (table name : Text) : Text :=
  "`".toList ++ table ++ "`.`".toList ++ name ++ "` ".toList

theorem join_cons (first : Text) (parts : List Text) :
    Text.join " " (first :: parts) = first ++ parts.flatMap (' ' :: ·) := by
  induction parts generalizing first with
  | nil => simp [Text.join]
  | cons next parts ih =>
    rw [Text.join, List.intercalate_cons_cons, ← Text.join, ih, List.flatMap_cons,
      List.append_assoc]
    rfl

theorem join_eq_plain (table name : Text) (column : Column) :
    Text.join " " (declaration table name column :: keyTexts column) =
      lead table name ++ column.plain := by
  have hkeys : (keyTexts column).flatMap (' ' :: ·) = keysText column.memberships := by
    rw [keyTexts_eq, List.flatMap_map]
    rfl
  have hdeclaration : declaration table name column = lead table name ++ column.type ++
      nullText column.nullable ++ defaultText column.default ++ countText column.autoIncrement ++
        [';'] := by
    have hnull : ∀ nullable : Bool,
        ' ' :: (if nullable then "NULL".toList else "NOT NULL".toList) = nullText nullable := by
      intro nullable
      cases nullable <;> rfl
    have hdefault : ∀ default : Option Text,
        (default.toList.map fun value => "DEFAULT ".toList ++ value).flatMap (' ' :: ·) =
          defaultText default := by
      intro default
      cases default with
      | none => rfl
      | some value => exact List.append_nil _
    have hcount : ∀ counts : Bool,
        (if counts then ["AUTO_INCREMENT".toList] else []).flatMap (' ' :: ·) = countText counts := by
      intro counts
      cases counts <;> rfl
    unfold declaration
    dsimp only
    rw [List.cons_append, List.cons_append, join_cons, List.flatMap_append, List.flatMap_append,
      hdefault, hcount, List.flatMap_singleton, hnull]
    show lead table name ++ column.type ++ _ ++ [';'] = _
    simp only [List.append_assoc]
  rw [join_cons, hkeys, hdeclaration]
  simp only [plain, rest, List.append_assoc, List.cons_append, List.nil_append]

theorem collapse_keysText (keys : List Membership) :
    collapse (keysText keys) = keysText (keys.map Membership.blurred) := by
  induction keys with
  | nil => rfl
  | cons m keys ih =>
    obtain ⟨c, s, htext, hc⟩ := m.text_starts
    show collapse (' ' :: (m.text ++ keysText keys)) = ' ' :: (m.blurred.text ++ _)
    rw [collapse_cons_blank (by decide), htext, List.cons_append, collapseAfter_cons hc,
      ← collapse_cons hc, ← List.cons_append, ← htext, Membership.collapse_text, ih]
    rfl

theorem endsBlank_keysText (keys : List Membership) : endsBlank false (keysText keys) = false := by
  induction keys with
  | nil => rfl
  | cons m keys ih =>
    obtain ⟨w, htext⟩ := m.text_ends
    show endsBlank false (' ' :: m.text ++ keysText keys) = false
    rw [endsBlank_append, htext, ← List.cons_append, endsBlank_concat]
    exact ih

theorem endsBlank_plain (column : Column) : endsBlank false column.plain = false := by
  have hsplit : column.plain = (column.type ++ nullText column.nullable ++
      defaultText column.default ++ countText column.autoIncrement ++ [';']) ++
        keysText column.memberships := by
    simp only [plain, rest, List.append_assoc, List.cons_append, List.nil_append]
  rw [hsplit, endsBlank_append, endsBlank_concat]
  exact endsBlank_keysText _

theorem type_starts {column : Column} (h : column.Shaped) :
    ∃ c s, column.type = c :: s ∧ isBlank c = false := by
  obtain ⟨x, htype, -, -⟩ := h.type
  obtain ⟨c, s, hname⟩ := List.exists_cons_of_ne_nil h.named
  refine ⟨c, s ++ (argumentText x ++ unsignedText column.unsigned), ?_, ?_⟩
  · rw [htype, typeText_eq, hname]
    rfl
  · have hc := h.word c (hname ▸ List.mem_cons_self)
    exact (Bool.or_eq_false_iff.mp hc).1

theorem endsBlank_type {column : Column} (h : column.Shaped) :
    endsBlank false column.type = false := by
  obtain ⟨x, htype, -, -⟩ := h.type
  have hword : endsBlank false column.datatype = false :=
    endsBlank_of_solid fun c hc => (Bool.or_eq_false_iff.mp (h.word c hc)).1
  have hunsigned : ∀ s, endsBlank false s = false →
      endsBlank false (s ++ unsignedText column.unsigned) = false := by
    intro s hs
    rw [endsBlank_append, hs]
    cases column.unsigned <;> decide
  rw [htype, typeText_eq, ← List.append_assoc]
  refine hunsigned _ ?_
  cases x with
  | none =>
    rw [argumentText, List.append_nil]
    exact hword
  | some a =>
    show endsBlank false (column.datatype ++ ('(' :: a ++ [')'])) = false
    rw [← List.append_assoc, endsBlank_concat]
    decide

theorem collapse_plain {column : Column} (h : column.Shaped) :
    collapse column.plain = column.blurred.plain := by
  have hnull : collapse (nullText column.nullable) = nullText column.nullable ∧
      endsBlank false (nullText column.nullable) = false := by
    cases column.nullable <;> exact ⟨rfl, by decide⟩
  have hcount : collapse (countText column.autoIncrement) = countText column.autoIncrement := by
    cases column.autoIncrement <;> rfl
  have hrest : collapse column.rest = column.blurred.rest := by
    unfold rest
    rw [collapse_append_cons _ (by decide), hcount, collapse_keysText, memberships_blurred]
    rfl
  have hdefault : collapse (defaultText column.default ++ column.rest) =
      defaultText column.blurred.default ++ column.blurred.rest := by
    show _ = defaultText (column.default.map collapse) ++ _
    cases hv : column.default with
    | none => exact hrest
    | some value =>
      have hdelimited := h.default value hv
      show collapse (" DEFAULT ".toList ++ value ++ column.rest) =
        " DEFAULT ".toList ++ collapse value ++ column.blurred.rest
      have hends : endsBlank false (" DEFAULT ".toList ++ value) = false := by
        obtain ⟨c, s, rfl, -⟩ := hdelimited.starts
        rw [endsBlank_append, endsBlank_of_ne_nil _ (List.cons_ne_nil c s)]
        exact hdelimited.ends
      rw [collapse_append hends, collapse_append_of_starts _ hdelimited.starts, hrest]
      rfl
  show collapse (column.type ++ _) = collapse column.type ++ (nullText column.nullable ++ _)
  rw [collapse_append (endsBlank_type h), collapse_append hnull.2, hnull.1, hdefault]

-- The line of a column, its blanks collapsed piece by piece.
theorem render_eq {column : Column} (h : column.Shaped) (table name : Text) :
    render table name column = collapse (lead table name) ++ column.blurred.plain := by
  have hends : endsBlank false (lead table name ++ column.plain) = false := by
    obtain ⟨c, s, htype, -⟩ := type_starts h
    have hne : column.plain ≠ [] := by
      rw [plain, htype]
      exact List.cons_ne_nil _ _
    rw [endsBlank_append, endsBlank_of_ne_nil _ hne]
    exact endsBlank_plain column
  have hstarts : ∃ c s, column.plain = c :: s ∧ isBlank c = false := by
    obtain ⟨c, s, htype, hc⟩ := type_starts h
    exact ⟨c, _, by rw [plain, htype]; rfl, hc⟩
  rw [render, join_eq_plain, spaced_eq_collapseAfter hends, ← collapse_plain h,
    ← collapse_append_of_starts _ hstarts]
  exact collapseAfter_cons (by decide) true _

/-- Two columns that were read are shown alike exactly if they differ in runs of blanks only. -/
theorem render_eq_render_iff {a b : Column} (ha : a.Shaped) (hb : b.Shaped) (ha' : a.Legible)
    (hb' : b.Legible) (table name : Text) :
    render table name a = render table name b ↔ a.blurred = b.blurred := by
  rw [render_eq ha, render_eq hb, List.append_cancel_left_eq]
  constructor
  · exact plain_injective (blurred_shaped ha) (blurred_shaped hb) ha'.blurred hb'.blurred
  · intro h
    rw [h]

end Column

end SqlDump
