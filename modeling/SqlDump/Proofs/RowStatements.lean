import SqlDump.Proofs.Headers
import SqlDump.Proofs.Layouts
import SqlDump.Proofs.Readings
import SqlDump.Statement.Insert

/-!
# INSERT statements row by row

The statements that an INSERT statement is split into name its table as it does, with every run of
blanks in the name made one space, as long as the rows stand behind the whole of the name.
-/

namespace SqlDump

open Text (collapse)

/-! ## 1. What stands in front of the name -/

section

variable {ws : List Text} {w : Text}

-- Of words that clash, the one that stands at the front is found.
theorem anyKeyword?_of_mem (apart : ws.Pairwise fun v w => clash w v = true) (hw : w ∈ ws)
    {s r : Text} (h : keyword? w s = some r) : anyKeyword? ws s = some r := by
  induction ws with
  | nil => cases hw
  | cons v ws ih =>
    obtain ⟨hclash, apart⟩ := List.pairwise_cons.mp apart
    unfold anyKeyword?
    rw [List.findSome?_cons]
    rcases List.mem_cons.mp hw with rfl | hw
    · rw [h]
    · rw [keyword?_of_clash (hclash w hw) (by rw [h]; rfl)]
      exact ih apart hw

/-- Words are passed over to the keyword behind them, whatever follows it, if as many may be dropped
as the text has characters. -/
def PassedOver (ws : List Text) (w u : Text) : Prop := ∀ t, Flush t →
  CreateTable.Starts (ws ++ [w]) (u ++ t) ∧
    ∀ m, u.length ≤ m → (keyword? w (skipWords ws m (u ++ t)) >>= gap?) = some t

theorem PassedOver.of_keyword (apart : (ws ++ [w]).Pairwise fun v w => clash w v = true)
    {s r : Text} (h : (keyword? w s >>= gap?) = some r) : ∃ u, s = u ++ r ∧ PassedOver ws w u := by
  obtain ⟨u, rfl, hu⟩ := front_of_keywordGap? h
  refine ⟨u, rfl, fun t ht => ?_⟩
  have hread := hu t ht
  obtain ⟨x, hx, -⟩ := Option.bind_eq_some_iff.mp hread
  have hlast := (List.pairwise_append.mp apart).2.2
  have hnone : anyKeyword? ws (u ++ t) = none := List.findSome?_eq_none_iff.mpr fun v hv =>
    keyword?_of_clash (hlast v hv w (List.mem_singleton_self w)) (by rw [hx]; rfl)
  refine ⟨⟨w, by simp, by rw [hx]; rfl⟩, fun m _ => ?_⟩
  rw [skipWords_of_none hnone]
  exact hread

theorem PassedOver.of_word (apart : (ws ++ [w]).Pairwise fun v w => clash w v = true)
    (hsolid : (ws ++ [w]).all (fun w => w.head?.any isSolid) = true) {v : Text} (hv : v ∈ ws)
    {s u' r : Text} (passed : PassedOver ws w u') (h : (keyword? v s >>= gap?) = some (u' ++ r)) :
    ∃ u, s = u ++ r ∧ PassedOver ws w u := by
  obtain ⟨u, rfl, hu⟩ := front_of_keywordGap? h
  have hne : u ≠ [] := by
    rintro rfl
    obtain ⟨x, hx, hgap⟩ := Option.bind_eq_some_iff.mp (hu [] rfl)
    cases v <;> cases hx
    cases hgap
  refine ⟨u ++ u', (List.append_assoc u u' r).symm, fun t ht => ?_⟩
  obtain ⟨hstarts, hnext⟩ := passed t ht
  obtain ⟨b, hb, hgap⟩ := Option.bind_eq_some_iff.mp (hu _ (hstarts.flush hsolid))
  rw [List.append_assoc]
  refine ⟨⟨v, by simp [hv], by rw [hb]; rfl⟩, fun m hm => ?_⟩
  -- the word and its gap use up one step and one character at least
  have hpos := List.length_pos_iff.mpr hne
  rw [List.length_append] at hm
  obtain ⟨m, rfl⟩ := Nat.exists_eq_add_of_lt (show 0 < m by omega)
  have hskip : (anyKeyword? ws (u ++ (u' ++ t)) >>= gap?) = some (u' ++ t) := by
    rw [anyKeyword?_of_mem (List.pairwise_append.mp apart).1 hv hb]
    exact hgap
  rw [Nat.zero_add, skipWords, hskip]
  exact hnext m (by omega)

theorem front_of_skipWords (apart : (ws ++ [w]).Pairwise fun v w => clash w v = true)
    (hsolid : (ws ++ [w]).all (fun w => w.head?.any isSolid) = true) {n : Nat} {s r : Text}
    (h : (keyword? w (skipWords ws n s) >>= gap?) = some r) :
    ∃ u, s = u ++ r ∧ PassedOver ws w u := by
  induction n generalizing s with
  | zero => exact PassedOver.of_keyword apart h
  | succ n ih =>
    rw [skipWords] at h
    cases hskip : anyKeyword? ws s >>= gap? with
    | none =>
      rw [hskip] at h
      exact PassedOver.of_keyword apart h
    | some r' =>
      rw [hskip] at h
      obtain ⟨u', rfl, passed⟩ := ih h
      obtain ⟨a, hany, hgap⟩ := Option.bind_eq_some_iff.mp hskip
      obtain ⟨v, hv, hread⟩ := List.exists_of_findSome?_eq_some hany
      exact passed.of_word apart hsolid hv (by rw [hread]; exact hgap)

end

theorem front_of_insertInto? {s r : Text} (h : insertInto? s = some r) :
    ∃ u, s = u ++ r ∧ ∀ t, Flush t → insertInto? (u ++ t) = some t := by
  obtain ⟨a, hinsert, hinto⟩ := Option.bind_eq_some_iff.mp h
  obtain ⟨u', rfl, hu'⟩ := front_of_skipWords (by decide) (by decide +kernel) hinto
  obtain ⟨u, rfl, hu⟩ := front_of_keywordGap? hinsert
  refine ⟨u ++ u', (List.append_assoc u u' r).symm, fun t ht => ?_⟩
  obtain ⟨hstarts, hnext⟩ := hu' t ht
  unfold insertInto?
  rw [List.append_assoc, hu _ (hstarts.flush (by decide +kernel))]
  exact hnext _ (by simp)

theorem length_lt_of_gap? {s r : Text} (h : gap? s = some r) : r.length < s.length := by
  obtain ⟨rfl, c, t, rfl, hc⟩ := gap?_eq_some h
  rw [Text.trimLeft_cons_blank hc, List.length_cons, Nat.lt_succ_iff]
  exact (List.dropWhile_sublist isBlank).length_le

/-- Once every character may be looked at, the words passed over in a collapsed text are those in
the text. -/
theorem skipWords_collapse {ws : List Text} (hws : ws.all (·.all isSolid) = true) {n m : Nat}
    {s : Text} (hn : s.length ≤ n) (hm : (collapse s).length ≤ m) :
    skipWords ws m (collapse s) = collapse (skipWords ws n s) := by
  have hstay : ∀ {s : Text}, (anyKeyword? ws s >>= gap?) = none → ∀ k, skipWords ws k s = s := by
    intro s h k
    cases k with
    | zero => rfl
    | succ k => rw [skipWords, h]
  have hread : ∀ s : Text, (anyKeyword? ws (collapse s) >>= gap?) =
      (anyKeyword? ws s >>= gap?).map collapse := by
    intro s
    rw [anyKeyword?_collapse hws]
    exact bind_of_map gap?_collapse
  have hshort : ∀ {s r : Text}, (anyKeyword? ws s >>= gap?) = some r → r.length < s.length := by
    intro s r h
    obtain ⟨a, hany, hgap⟩ := Option.bind_eq_some_iff.mp h
    obtain ⟨w, -, hword⟩ := List.exists_of_findSome?_eq_some hany
    obtain ⟨u, rfl, -⟩ := exists_of_keyword? hword
    have := length_lt_of_gap? hgap
    rw [List.length_append]
    omega
  induction n generalizing m s with
  | zero =>
    obtain rfl := List.eq_nil_of_length_eq_zero (Nat.le_zero.mp hn)
    cases hskip : anyKeyword? ws ([] : Text) >>= gap? with
    | none => exact hstay hskip m
    | some r => exact absurd (hshort hskip) (Nat.not_lt_zero _)
  | succ n ih =>
    have hcollapsed := hread s
    cases hskip : anyKeyword? ws s >>= gap? with
    | none =>
      rw [hskip] at hcollapsed
      rw [hstay hskip, hstay hcollapsed]
    | some r =>
      rw [hskip] at hcollapsed
      have hlength := hshort hskip
      have hlength' := hshort hcollapsed
      obtain ⟨m, rfl⟩ := Nat.exists_eq_add_of_lt (show 0 < m by omega)
      rw [Nat.zero_add] at hm ⊢
      rw [skipWords, skipWords, hskip, hcollapsed]
      exact ih (by omega) (by omega)

theorem insertInto?_collapse (s : Text) :
    insertInto? (collapse s) = (insertInto? s).map collapse := by
  unfold insertInto?
  rw [keywordGap?_collapse (by decide +kernel)]
  refine bind_of_map fun r => ?_
  dsimp only
  rw [skipWords_collapse (by decide +kernel) (Nat.le_refl _) (Nat.le_refl _)]
  exact keywordGap?_collapse (by decide +kernel) _

/-! ## 2. Statements put together -/

namespace Text

/-- A part behind a space, unless it is empty. -/
def behind (part : Text) : Text := if part.isEmpty then [] else ' ' :: part

theorem behind_of_ne_nil {part : Text} (h : part ≠ []) : behind part = ' ' :: part := by
  cases part with
  | nil => exact absurd rfl h
  | cons c part => rfl

-- Joined by spaces, the parts that are not empty stand behind a space each.
theorem join_filter {front : Text} (hfront : front ≠ []) (parts : List Text) :
    join " " ((front :: parts).filter (!·.isEmpty)) = front ++ parts.flatMap behind := by
  have hkept : (front :: parts).filter (!·.isEmpty) = front :: parts.filter (!·.isEmpty) :=
    List.filter_cons_of_pos (by simpa using hfront)
  rw [hkept]
  clear hkept
  induction parts generalizing front with
  | nil =>
    change join " " [front] = front ++ []
    rw [join, List.intercalate_singleton, List.append_nil]
  | cons part parts ih =>
    by_cases hpart : part = []
    · subst hpart
      exact ih hfront
    · have hkept : (part :: parts).filter (!·.isEmpty) = part :: parts.filter (!·.isEmpty) :=
        List.filter_cons_of_pos (by simpa using hpart)
      rw [hkept, Nesting.join_cons_cons, ih hpart, List.flatMap_cons, behind_of_ne_nil hpart]
      rfl

end Text

namespace Insert

/-- What a statement says before its rows, if they stand behind the name in a reading of it. -/
def headBehind? (query : Text) : Text × Text → Option (Head × Text)
  | (_, r) =>
    let (columns, t) :=
      match columnList? (Text.trimLeft r) with
      | some (columns, t) => (some columns, t)
      | none => (none, r)
    (values? (Text.trimLeft t)).map fun rows =>
      ({ target := query.take (query.length - r.length), columns }, rows)

theorem head?_eq (query : Text) : head? query =
    (insertInto? query).bind fun s => (Identifier.qualifiedReadings s).findSome? (headBehind? query) :=
  rfl

/-- The rows of a statement, if it has any, stand behind the whole of the table's name. -/
def Whole (text : Text) : Prop :=
  head? (Alter.content text) =
    ((insertInto? (Alter.content text)).bind Identifier.qualified?).bind
      (headBehind? (Alter.content text))

instance (text : Text) : Decidable (Whole text) := inferInstanceAs (Decidable (_ = _))

theorem flush_of_insertInto? {s r : Text} (h : insertInto? s = some r) : Flush s := by
  obtain ⟨a, hinsert, -⟩ := Option.bind_eq_some_iff.mp h
  obtain ⟨b, hb, -⟩ := Option.bind_eq_some_iff.mp hinsert
  exact @CreateTable.Starts.flush ["INSERT"] s ⟨_, List.mem_singleton_self _, by rw [hb]; rfl⟩
    (by decide +kernel)

/-- The columns and the rows that stand behind a name, if VALUES stands there. -/
def valuesBehind? (r : Text) : Option (Option Text × Text) :=
  match columnList? (Text.trimLeft r) with
  | some (columns, t) => (values? (Text.trimLeft t)).map (some columns, ·)
  | none => (values? (Text.trimLeft r)).map (none, ·)

theorem headBehind?_eq (query raw r : Text) : headBehind? query (raw, r) =
    (valuesBehind? r).map fun p =>
      ({ target := query.take (query.length - r.length), columns := p.1 }, p.2) := by
  unfold headBehind? valuesBehind?
  dsimp only
  cases columnList? (Text.trimLeft r) with
  | none =>
    rw [Option.map_map]
    rfl
  | some found =>
    rw [Option.map_map]
    rfl

theorem columnList?_eq_some {s columns t : Text} : columnList? s = some (columns, t) ↔
    ∃ u, (∀ c ∈ u, c ≠ '(' ∧ c ≠ ')') ∧ columns = '(' :: u ++ [')'] ∧ s = columns ++ t := by
  constructor
  · intro h
    unfold columnList? at h
    split at h
    · rename_i s
      split at h
      · rename_i r hr
        cases h
        have hs := List.takeWhile_append_dropWhile (p := fun c => decide (c ≠ '(' ∧ c ≠ ')')) (l := s)
        refine ⟨_, fun c hc => ?_, rfl, ?_⟩
        · simpa using List.mem_takeWhile_imp hc
        · rw [hr] at hs
          simpa using hs.symm
      · cases h
    · cases h
  · rintro ⟨u, hu, rfl, rfl⟩
    have hall : ∀ c ∈ u, decide (c ≠ '(' ∧ c ≠ ')') = true := fun c hc => decide_eq_true (hu c hc)
    have htext : '(' :: u ++ [')'] ++ t = '(' :: (u ++ ')' :: t) := by simp
    rw [htext, columnList?, List.dropWhile_append_of_pos hall, List.takeWhile_append_of_pos hall,
      List.dropWhile_cons_of_neg (by simp), List.takeWhile_cons_of_neg (by simp), List.append_nil]
    rfl

/-- What a statement for one row says behind its name, down to VALUES. -/
def valued (columns : Option Text) (t : Text) : Text :=
  Text.behind (columns.getD []) ++ (" VALUES".toList ++ t)

-- The columns that were read stand in parentheses.
theorem columns_of_valuesBehind? {r rest : Text} {columns : Option Text}
    (h : valuesBehind? r = some (columns, rest)) : columns = none ∨
      ∃ u, (∀ c ∈ u, c ≠ '(' ∧ c ≠ ')') ∧ columns = some ('(' :: u ++ [')']) := by
  unfold valuesBehind? at h
  split at h
  · rename_i hlist
    obtain ⟨_, -, heq⟩ := Option.map_eq_some_iff.mp h
    obtain ⟨u, hu, hfound, -⟩ := columnList?_eq_some.mp hlist
    exact Or.inr ⟨u, hu, by rw [← hfound]; exact (Prod.mk.inj heq).1.symm⟩
  · obtain ⟨_, -, heq⟩ := Option.map_eq_some_iff.mp h
    exact Or.inl (Prod.mk.inj heq).1.symm

theorem valued_eq {r rest : Text} {columns : Option Text}
    (h : valuesBehind? r = some (columns, rest)) (t : Text) :
    ∃ c s, valued columns t = ' ' :: c :: s ∧ (c = '(' ∨ c = 'V') := by
  rcases columns_of_valuesBehind? h with rfl | ⟨u, -, rfl⟩
  · exact ⟨'V', _, rfl, Or.inr rfl⟩
  · exact ⟨'(', _, rfl, Or.inl rfl⟩

/-- The columns and VALUES are read again in front of a row. -/
theorem valuesBehind?_valued {r rest t : Text} {columns : Option Text}
    (h : valuesBehind? r = some (columns, rest)) (ht : Flush t) :
    valuesBehind? (valued columns (' ' :: t)) = some (columns, t) := by
  have hvalues : values? (Text.trimLeft (" VALUES".toList ++ ' ' :: t)) = some t := by
    change some (Text.trimLeft (' ' :: t)) = some t
    rw [Text.trimLeft_cons_blank (by decide), ht]
  unfold valuesBehind?
  rcases columns_of_valuesBehind? h with rfl | ⟨u, hu, rfl⟩
  · have hnone : columnList? (Text.trimLeft (valued none (' ' :: t))) = none := rfl
    rw [hnone]
    change (values? _).map _ = _
    rw [show valued none (' ' :: t) = " VALUES".toList ++ ' ' :: t from rfl, hvalues]
    rfl
  · have hlist : columnList? (Text.trimLeft (valued (some ('(' :: u ++ [')'])) (' ' :: t))) =
        some ('(' :: u ++ [')'], " VALUES".toList ++ ' ' :: t) :=
      columnList?_eq_some.mpr ⟨u, hu, rfl, rfl⟩
    rw [hlist]
    change (values? _).map _ = _
    rw [hvalues]
    rfl

/-- The statement for one row. -/
def single (head : Head) (row tail : Text) : Text :=
  Text.spaced head.target ++ valued head.columns (Text.behind row ++ Text.behind tail)

/-- What was read before the rows: the name as written, at the end of the target, and the columns
behind it. -/
structure Fronted (head : Head) (raw : Text) : Prop where
  named : Identifier.Qualified raw
  target : insertInto? head.target = some raw
  listed : ∃ r rest, valuesBehind? r = some (head.columns, rest)

theorem fronted_of_headBehind? {query raw r rest : Text} {head : Head}
    (hinto : insertInto? query = some (raw ++ r)) (hraw : Identifier.Qualified raw)
    (hhead : headBehind? query (raw, r) = some (head, rest)) :
    query = head.target ++ r ∧ valuesBehind? r = some (head.columns, rest) ∧ Fronted head raw := by
  rw [headBehind?_eq] at hhead
  obtain ⟨⟨columns, rest'⟩, hvalues, heq⟩ := Option.map_eq_some_iff.mp hhead
  cases heq
  obtain ⟨u, rfl, hfront⟩ := front_of_insertInto? hinto
  have htarget : (u ++ (raw ++ r)).take ((u ++ (raw ++ r)).length - r.length) = u ++ raw := by
    rw [← List.append_assoc, List.length_append, Nat.add_sub_cancel, List.take_left]
  have hread : insertInto? (u ++ raw) = some raw := by
    have hflush := CreateTable.flush_of_qualified hraw []
    rw [List.append_nil] at hflush
    exact hfront raw hflush
  rw [htarget]
  exact ⟨(List.append_assoc u raw r).symm, hvalues, hraw, hread, r, _, hvalues⟩

theorem fronted_of_head? {query rest : Text} {head : Head} (h : head? query = some (head, rest)) :
    ∃ raw r, query = head.target ++ r ∧ valuesBehind? r = some (head.columns, rest) ∧
      Fronted head raw := by
  rw [head?_eq] at h
  obtain ⟨s, hinto, h⟩ := Option.bind_eq_some_iff.mp h
  obtain ⟨⟨raw, r⟩, hmem, hbehind⟩ := List.exists_of_findSome?_eq_some h
  obtain ⟨hraw, rfl⟩ := Identifier.Qualified.of_mem_readings hmem
  exact ⟨raw, r, fronted_of_headBehind? hinto hraw hbehind⟩

namespace Fronted

variable {head : Head} {raw : Text}

theorem spaced (h : Fronted head raw) : Text.spaced head.target = collapse head.target := by
  obtain ⟨u, hu, -⟩ := front_of_insertInto? h.target
  obtain ⟨v, d, hraw, hd⟩ := h.named.ends
  have hends : Text.endsBlank false head.target = false := by
    rw [hu, hraw, ← List.append_assoc, Text.endsBlank_concat]
    exact hd
  rw [Text.spaced_eq_collapseAfter hends, Text.collapseAfter_true, flush_of_insertInto? h.target]

theorem insertInto?_spaced (h : Fronted head raw) :
    insertInto? (Text.spaced head.target) = some (collapse raw) := by
  rw [h.spaced, insertInto?_collapse, h.target]
  rfl

theorem spaced_ne_nil (h : Fronted head raw) : Text.spaced head.target ≠ [] := by
  intro hnil
  have hread := h.insertInto?_spaced
  rw [hnil] at hread
  cases hread

-- A statement is put together as `single` writes it.
theorem join (h : Fronted head raw) (row tail : Text) :
    Text.join " " (([Text.spaced head.target, head.columns.getD [], "VALUES", row, tail] :
      List Text).filter (!·.isEmpty)) = single head row tail := by
  rw [Text.join_filter h.spaced_ne_nil]
  change _ ++ (Text.behind (head.columns.getD []) ++ (" VALUES".toList ++
    (Text.behind row ++ (Text.behind tail ++ [])))) = _
  rw [List.append_nil]
  rfl

/-- The name is read again, its blanks made single, whatever follows VALUES. -/
theorem reads (h : Fronted head raw) (t : Text) :
    insertInto? (Text.spaced head.target ++ valued head.columns t) =
        some (collapse raw ++ valued head.columns t) ∧
      Identifier.qualified? (collapse raw ++ valued head.columns t) =
        some (collapse raw, valued head.columns t) := by
  obtain ⟨u, hu, hfront⟩ := front_of_insertInto? h.insertInto?_spaced
  obtain ⟨r, rest, hlisted⟩ := h.listed
  obtain ⟨c, s, hvalued, hc⟩ := valued_eq hlisted t
  have hblank : isBlank c = false := by rcases hc with rfl | rfl <;> decide
  have hdot : c ≠ '.' := by rcases hc with rfl | rfl <;> decide
  have hstops : Identifier.StopsName (valued head.columns t) := by
    rw [hvalued]
    refine ⟨.cons (by decide) _, Identifier.dot?_eq_none fun r hr => ?_⟩
    rw [List.dropWhile_cons_of_pos (by decide), List.dropWhile_cons_of_neg (by simp [hblank])] at hr
    exact hdot (List.cons.inj hr).1
  refine ⟨?_, h.named.collapse.read hstops⟩
  rw [hu, List.append_assoc]
  exact hfront _ (CreateTable.flush_of_qualified h.named.collapse _)

theorem trim (h : Fronted head raw) (t : Text) :
    Text.trim (Text.spaced head.target ++ valued head.columns t) =
      Text.spaced head.target ++ valued head.columns (t.rdropWhile isBlank) := by
  have hvalued : ∀ s, Text.spaced head.target ++ valued head.columns s =
      (Text.spaced head.target ++ (Text.behind (head.columns.getD []) ++ " VALUE".toList)) ++ 'S' :: s := by
    intro s
    simp [valued]
  rw [Text.trim, flush_of_insertInto? (h.reads t).1, hvalued, hvalued]
  exact Text.rdropWhile_append_cons (by decide) _ t

/-- What is put together for a row has the name as it was read, its blanks made single. -/
theorem nameIn_single (h : Fronted head raw) (row tail : Text) :
    Kind.insert.nameIn (single head row tail) = some (collapse (Identifier.bare raw)) := by
  rw [Kind.nameIn, single, h.trim, ← Identifier.bare_collapse]
  unfold Kind.rawName?
  dsimp only
  rw [(h.reads _).1, Option.bind_eq_bind, Option.bind_some, (h.reads _).2]
  rfl

end Fronted

end Insert

end SqlDump
