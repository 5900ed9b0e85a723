import SqlDump.Dependency
import SqlDump.Proofs.Headers
import SqlDump.Proofs.OwnStatements
import SqlDump.Proofs.PlanOrder

/-!
# Foreign keys of the graph and of the model

The graph looks for foreign keys anywhere in a statement, the model reads the one change that the
statement makes. Both see the same table. They see the same foreign key if it is written plainly,
without IF NOT EXISTS and without a closing parenthesis among its columns, and if the rest of the
statement, its literals and names included, mentions no foreign key to another table.
-/

namespace SqlDump

open Outcome

/-! ## 1. What readers leave -/

theorem suffix_of_keyword? {w s r : Text} (h : keyword? w s = some r) : r <:+ s := by
  obtain ⟨u, rfl, -⟩ := exists_of_keyword? h
  exact List.suffix_append u r

theorem suffix_of_gap? {s r : Text} (h : gap? s = some r) : r <:+ s := by
  rw [(gap?_eq_some h).1]
  exact List.dropWhile_suffix isBlank

theorem suffix_of_keywordGap? {w s r : Text} (h : (keyword? w s >>= gap?) = some r) : r <:+ s := by
  obtain ⟨t, ht, hr⟩ := Option.bind_eq_some_iff.mp h
  exact (suffix_of_gap? hr).trans (suffix_of_keyword? ht)

theorem suffix_of_phrase? {ws : List Text} {s r : Text} (h : phrase? ws s = some r) : r <:+ s := by
  induction ws generalizing s with
  | nil =>
    cases h
    exact List.suffix_rfl
  | cons w ws ih =>
    cases ws with
    | nil => exact suffix_of_keyword? h
    | cons v ws =>
      rw [phrase?_cons_cons] at h
      obtain ⟨t, ht, hr⟩ := Option.bind_eq_some_iff.mp h
      exact (ih hr).trans (suffix_of_keywordGap? ht)

theorem skipPhrase_suffix (ws : List Text) (s : Text) : skipPhrase ws s <:+ s := by
  unfold skipPhrase
  cases h : phrase? ws s >>= gap? with
  | none => exact List.suffix_rfl
  | some r =>
    obtain ⟨t, ht, hr⟩ := Option.bind_eq_some_iff.mp h
    exact (suffix_of_gap? hr).trans (suffix_of_phrase? ht)

theorem skipWords_suffix (ws : List Text) (n : Nat) (s : Text) : skipWords ws n s <:+ s := by
  induction n generalizing s with
  | zero => exact List.suffix_rfl
  | succ n ih =>
    rw [skipWords]
    split
    · rename_i r hr
      obtain ⟨t, ht, hr⟩ := Option.bind_eq_some_iff.mp hr
      obtain ⟨w, -, hw⟩ := List.exists_of_findSome?_eq_some ht
      exact (ih r).trans ((suffix_of_gap? hr).trans (suffix_of_keyword? hw))
    · exact List.suffix_rfl

theorem Identifier.suffix_of_read? {s u r : Text} (h : read? s = some (u, r)) : r <:+ s :=
  ⟨u, (Name.of_read? h).2.symm⟩

theorem Identifier.suffix_of_qualified? {s raw r : Text} (h : qualified? s = some (raw, r)) :
    r <:+ s :=
  ⟨raw, (Qualified.of_read? h).2.symm⟩

theorem suffix_of_alteredTable? {s raw r : Text} (h : alteredTable? s = some (raw, r)) :
    r <:+ s := by
  obtain ⟨a, ha, h⟩ := Option.bind_eq_some_iff.mp h
  obtain ⟨b, hb, hname⟩ := Option.bind_eq_some_iff.mp h
  exact (Identifier.suffix_of_qualified? hname).trans ((suffix_of_keywordGap? hb).trans
    ((skipWords_suffix _ _ a).trans (suffix_of_keywordGap? ha)))

theorem suffix_of_mem_constraintReadings {s : Text} {reading : Option Text × Text}
    (h : reading ∈ constraintReadings s) : reading.2 <:+ s := by
  unfold constraintReadings at h
  split at h
  · cases h
  · rename_i r hr
    have hr := suffix_of_keywordGap? hr
    rcases List.mem_append.mp h with h | h
    · split at h
      · rename_i named hnamed
        rw [List.mem_singleton.mp h]
        obtain ⟨⟨name, t⟩, hname, hnamed⟩ := Option.bind_eq_some_iff.mp hnamed
        obtain ⟨t', hgap, e⟩ := Option.bind_eq_some_iff.mp hnamed
        cases e
        exact (suffix_of_gap? hgap).trans ((Identifier.suffix_of_read? hname).trans hr)
      · cases h
    · rw [List.mem_singleton.mp h]
      exact hr

theorem Clause.suffix_of_mem_constrained {s : Text} {reading : Option Text × Text}
    (h : reading ∈ constrained s) : reading.2 <:+ s := by
  have hadd := skipPhrase_suffix ["ADD"] s
  rcases List.mem_append.mp h with h | h
  · exact (suffix_of_mem_constraintReadings h).trans hadd
  · rw [List.mem_singleton.mp h]
    exact hadd

/-- The changes of a statement end where it ends, but for blanks and semicolons. -/
theorem Alter.split_suffix (text : Text) : ∃ x, Ending x ∧ (split text).2 ++ x <:+ text := by
  obtain ⟨x, hx, htrim⟩ := trimLeft_eq_content_append text
  have hbody : (split text).2 <:+ content text := by
    cases h : alteredTable? (content text) with
    | none =>
      rw [split_of_none h]
    | some p =>
      rw [split_of_some h]
      exact (List.dropWhile_suffix isBlank).trans (suffix_of_alteredTable? h)
  obtain ⟨front, hfront⟩ := hbody
  have htrimmed : Text.trimLeft text <:+ text := List.dropWhile_suffix isBlank
  refine ⟨x, hx, List.IsSuffix.trans ⟨front, ?_⟩ htrimmed⟩
  rw [htrim, ← List.append_assoc, hfront]

/-! ## 2. A foreign key where it stands -/

theorem Text.trimLeft_append {s : Text} (h : trimLeft s ≠ []) (x : Text) :
    trimLeft (s ++ x) = trimLeft s ++ x := by
  obtain ⟨c, r, hs⟩ := List.exists_cons_of_ne_nil h
  rw [hs]
  exact (Token.span_append hs x).2

namespace Alter

/-- What stands behind the parenthesis that opens the columns of a key, and behind the name that may
come first. -/
def opened? (s : Text) : Option Text :=
  (do let (_, r) ← Identifier.read? s; Text.after? "(" (Text.trimLeft r)) <|> Text.after? "(" s

theorem opened?_eq_some {s r : Text} : opened? s = some r ↔
    (∃ u t, Identifier.read? s = some (u, t) ∧ Text.trimLeft t = '(' :: r) ∨ s = '(' :: r := by
  have hnamed : ((Identifier.read? s).bind fun p => Text.after? "(" (Text.trimLeft p.2)) = some r ↔
      ∃ u t, Identifier.read? s = some (u, t) ∧ Text.trimLeft t = '(' :: r := by
    rw [Option.bind_eq_some_iff]
    simp only [Prod.exists]
    exact exists_congr fun u => exists_congr fun t => and_congr_right fun _ =>
      Text.after?_singleton
  show (((Identifier.read? s).bind fun p => Text.after? "(" (Text.trimLeft p.2)) <|> _) = _ ↔ _
  rw [orElse_eq_some, hnamed]
  constructor
  · rintro (h | ⟨-, h⟩)
    · exact Or.inl h
    · exact Or.inr (Text.after?_singleton.mp h)
  · rintro (h | rfl)
    · exact Or.inl h
    · exact Or.inr ⟨rfl, Text.after?_singleton.mpr rfl⟩

/-- A foreign key is read past its keywords, the parentheses around its columns and REFERENCES. -/
theorem foreignReference?_eq_some {s raw r : Text} : foreignReference? s = some (raw, r) ↔
    ∃ a b c d, phrase? ["FOREIGN", "KEY"] s = some a ∧ opened? (Text.trimLeft a) = some b ∧
      b.dropWhile (· ≠ ')') = ')' :: c ∧
      (keyword? "REFERENCES" (Text.trimLeft c) >>= gap?) = some d ∧
      Identifier.qualified? d = some (raw, r) := by
  show ((phrase? ["FOREIGN", "KEY"] s).bind fun a => (opened? (Text.trimLeft a)).bind fun b =>
    (Text.after? ")" (b.dropWhile (· ≠ ')'))).bind fun c =>
      (keyword? "REFERENCES" (Text.trimLeft c) >>= gap?).bind Identifier.qualified?) = _ ↔ _
  simp only [Option.bind_eq_some_iff]
  constructor
  · rintro ⟨a, ha, b, hb, c, hc, d, hd, hname⟩
    exact ⟨a, b, c, d, ha, hb, Text.after?_singleton.mp hc, hd, hname⟩
  · rintro ⟨a, b, c, d, ha, hb, hc, hd, hname⟩
    exact ⟨a, ha, b, hb, c, Text.after?_singleton.mpr hc, d, hd, hname⟩

theorem suffix_of_foreignReference? {s raw r : Text} (h : foreignReference? s = some (raw, r)) :
    r <:+ s := by
  obtain ⟨a, b, c, d, ha, hb, hc, hd, hname⟩ := foreignReference?_eq_some.mp h
  have hb : b <:+ a := by
    rcases opened?_eq_some.mp hb with ⟨u, t, hread, ht⟩ | h
    · exact (Text.suffix_of_dropWhile ht).trans
        ((Identifier.suffix_of_read? hread).trans (List.dropWhile_suffix isBlank))
    · exact Text.suffix_of_dropWhile h
  have hd : d <:+ c := (suffix_of_keywordGap? hd).trans (List.dropWhile_suffix isBlank)
  exact (Identifier.suffix_of_qualified? hname).trans
    (hd.trans ((Text.suffix_of_dropWhile hc).trans (hb.trans (suffix_of_phrase? ha))))

/-- A foreign key is read in front of an ending as it is without it. -/
theorem foreignReference?_ending {s raw r x : Text} (hx : Ending x)
    (h : foreignReference? s = some (raw, r)) :
    foreignReference? (s ++ x) = some (raw, r ++ x) := by
  obtain ⟨a, b, c, d, ha, hb, hc, hd, hname⟩ := foreignReference?_eq_some.mp h
  obtain ⟨e, he, hgap⟩ := Option.bind_eq_some_iff.mp hd
  have hopens : Text.trimLeft a ≠ [] := by
    intro e
    rw [e] at hb
    cases hb
  have hrefers : Text.trimLeft c ≠ [] := by
    intro e
    rw [e] at he
    cases he
  have hd' : d ≠ [] := by
    rintro rfl
    cases hname
  refine foreignReference?_eq_some.mpr ⟨a ++ x, b ++ x, c ++ x, d ++ x, ?_, ?_, ?_, ?_, ?_⟩
  · exact phrase?_append (by decide) ha x
  · rw [Text.trimLeft_append hopens, opened?_eq_some]
    rcases opened?_eq_some.mp hb with ⟨u, t, hread, ht⟩ | h
    · refine Or.inl ⟨u, t ++ x, by rw [Identifier.read?_append hx, hread]; rfl, ?_⟩
      rw [Text.trimLeft_append (by rw [ht]; exact List.cons_ne_nil _ _), ht]
      rfl
    · rw [h]
      exact Or.inr rfl
  · exact (Token.span_append hc x).2
  · rw [Text.trimLeft_append hrefers, keyword?_of_append he]
    exact gap?_append hgap hd' x
  · rw [Identifier.qualified?_append hx, hname]
    rfl

end Alter

/-! ## 3. The foreign key that a statement adds -/

/-- The tables that a change refers to. -/
def Change.referred : Change → List Text
  | .foreignKey _ _ (some reference) => [reference.table]
  | _ => []

theorem Change.referred_cases (change : Change) :
    change.referred = [] ∨ ∃ table, change.referred = [table] := by
  unfold referred
  split
  · exact Or.inr ⟨_, rfl⟩
  · exact Or.inl rfl

def Change.isForeign : Change → Bool
  | .foreignKey _ _ _ => true
  | _ => false

theorem Change.isForeign_of_referred {change : Change} (h : change.referred ≠ []) :
    change.isForeign = true := by
  cases change with
  | foreignKey => rfl
  | _ => exact absurd rfl h

namespace Clause

/-- Whether IF NOT EXISTS follows the keywords of a foreign key. -/
def isGuarded (s : Text) : Bool :=
  ((phrase? ["FOREIGN", "KEY"] s).bind fun r =>
    phrase? ["IF", "NOT", "EXISTS"] (Text.trimLeft r)).isSome

/-- Whether a foreign key that is added, if there is one, is written as it can be found anywhere:
without IF NOT EXISTS, and without a closing parenthesis among its columns. -/
def isPlainKey (body : Text) : Bool :=
  (constrained body).all (fun (_, r) => !isGuarded r) &&
    ((foreignKey? body).bind fun (_, r) => Nesting.group? r).all fun (columns, _) =>
      columns.all (· ≠ ')')

theorem foreignKey?_of_readChange {s : Text} {change : Change}
    (h : readChange s = .ok (some change)) (hforeign : change.isForeign = true) :
    ∃ name r, foreignKey? s = some (name, r) ∧ foreignChange name r = some change := by
  have hcolumn : ∀ {text : Text} {make : Column → Change}, (∀ column, (make column).isForeign = false) →
      (do return (← Column.parse text).map make) ≠ Except.ok (some change) := by
    intro text make hmake h
    obtain ⟨column, -, h⟩ := bind_eq_ok.mp h
    obtain ⟨column, -, rfl⟩ := Option.map_eq_some_iff.mp (Except.ok.inj h)
    rw [hmake column] at hforeign
    cases hforeign
  unfold readChange at h
  split at h
  · obtain ⟨p, -, rfl⟩ := Option.map_eq_some_iff.mp (Except.ok.inj h)
    cases hforeign
  split at h
  · exact absurd h (hcolumn fun _ => rfl)
  split at h
  · rename_i name r hkey
    exact ⟨name, r, hkey, Except.ok.inj h⟩
  split at h
  · rename_i isUnique name r _
    obtain ⟨p, -, h⟩ := Option.bind_eq_some_iff.mp (Except.ok.inj h)
    obtain ⟨first, -, h⟩ := Option.bind_eq_some_iff.mp h
    cases isUnique <;> cases h <;> cases hforeign
  split at h
  · split at h
    · cases h
    · exact absurd h (hcolumn fun _ => rfl)
  · cases h

-- The columns are read from the parenthesis on behind which they are found.
theorem opened?_of_columns {s t : Text}
    (h : ((do let (_, r) ← Identifier.read? s; atGroup? (Text.trimLeft r)) <|> atGroup? s) =
      some t) :
    ∃ b, t = '(' :: b ∧ Alter.opened? s = some b := by
  have hgroup : ∀ {u : Text}, atGroup? u = some t → ∃ b, t = '(' :: b ∧ u = '(' :: b := by
    intro u h
    unfold atGroup? at h
    split at h
    · rename_i hstarts
      cases h
      obtain ⟨b, hb⟩ := Option.isSome_iff_exists.mp hstarts
      exact ⟨b, Text.after?_singleton.mp hb, Text.after?_singleton.mp hb⟩
    · cases h
  rcases orElse_eq_some.mp h with h | ⟨-, h⟩
  · obtain ⟨⟨u, r⟩, hread, h⟩ := Option.bind_eq_some_iff.mp h
    obtain ⟨b, rfl, hb⟩ := hgroup h
    exact ⟨b, rfl, Alter.opened?_eq_some.mpr (Or.inl ⟨u, r, hread, hb⟩)⟩
  · obtain ⟨b, rfl, hb⟩ := hgroup h
    exact ⟨b, rfl, Alter.opened?_eq_some.mpr (Or.inr hb)⟩

theorem exists_of_foreignKey? {body s : Text} {name : Option Text}
    (h : foreignKey? body = some (name, s))
    (hplain : ∀ reading ∈ constrained body, isGuarded reading.2 = false) :
    ∃ t a b, t <:+ body ∧ phrase? ["FOREIGN", "KEY"] t = some a ∧
      Alter.opened? (Text.trimLeft a) = some b ∧ s = '(' :: b := by
  obtain ⟨⟨_, t⟩, hmem, h⟩ := List.exists_of_findSome?_eq_some h
  obtain ⟨a, ha, h⟩ := Option.bind_eq_some_iff.mp h
  obtain ⟨columns, hcolumns, h⟩ := Option.bind_eq_some_iff.mp h
  cases h
  have hphrase : phrase? ["IF", "NOT", "EXISTS"] (Text.trimLeft a) = none := by
    have hguard := hplain _ hmem
    rw [isGuarded, ha, Option.isSome_eq_false_iff] at hguard
    exact Option.isNone_iff_eq_none.mp hguard
  have hskip : skipPhrase ["IF", "NOT", "EXISTS"] (Text.trimLeft a) = Text.trimLeft a := by
    rw [skipPhrase, hphrase]
    rfl
  dsimp only at hcolumns
  rw [hskip] at hcolumns
  obtain ⟨u, hu, hcolumns⟩ := List.exists_of_findSome?_eq_some hcolumns
  obtain rfl : u = Text.trimLeft a := by simpa using hu
  obtain ⟨b, rfl, hb⟩ := opened?_of_columns hcolumns
  exact ⟨t, a, b, suffix_of_mem_constrained hmem, ha, hb, rfl⟩

theorem exists_of_foreignChange {name : Option Text} {s : Text} {change : Change}
    (h : foreignChange name s = some change) : ∃ columns rest d raw r,
      Nesting.group? s = some (columns, rest) ∧
      (keyword? "REFERENCES" (Text.trimLeft rest) >>= gap?) = some d ∧
      Identifier.qualified? d = some (raw, r) ∧ change.referred = [Identifier.bare raw] := by
  obtain ⟨⟨columns, rest⟩, hgroup, h⟩ := Option.bind_eq_some_iff.mp h
  obtain ⟨⟨raw, _⟩, hrefers, h⟩ := Option.bind_eq_some_iff.mp h
  obtain ⟨_, -, h⟩ := Option.bind_eq_some_iff.mp h
  cases h
  obtain ⟨d, hd, hrefers⟩ := Option.bind_eq_some_iff.mp hrefers
  obtain ⟨⟨raw, r⟩, hname, hrefers⟩ := Option.bind_eq_some_iff.mp hrefers
  obtain ⟨_, -, hrefers⟩ := Option.bind_eq_some_iff.mp hrefers
  cases hrefers
  exact ⟨columns, rest, d, raw, r, hgroup, hd, hname, rfl⟩

/-- A foreign key that is added plainly can be read where it stands. -/
theorem exists_foreignReference {body table : Text} {change : Change}
    (h : readChange body = .ok (some change)) (hplain : isPlainKey body = true)
    (htable : table ∈ change.referred) :
    ∃ t raw r, t <:+ body ∧ Alter.foreignReference? t = some (raw, r) ∧
      Identifier.bare raw = table := by
  obtain ⟨name, s, hkey, hchange⟩ := foreignKey?_of_readChange h
    (Change.isForeign_of_referred (List.ne_nil_of_mem htable))
  obtain ⟨columns, rest, d, raw, r, hgroup, hd, hname, hreferred⟩ := exists_of_foreignChange hchange
  rw [hreferred, List.mem_singleton] at htable
  rw [isPlainKey, Bool.and_eq_true, hkey] at hplain
  obtain ⟨hguard, hcolumns⟩ := hplain
  change (Nesting.group? s).all _ = true at hcolumns
  rw [hgroup] at hcolumns
  obtain ⟨t, a, b, ht, ha, hb, rfl⟩ := exists_of_foreignKey? hkey fun reading hmem => by
    simpa using List.all_eq_true.mp hguard reading hmem
  have hclose : b.dropWhile (· ≠ ')') = ')' :: rest := by
    obtain ⟨rfl, -⟩ := Nesting.walk_of_closing? hgroup
    rw [List.dropWhile_append_of_pos (List.all_eq_true.mp hcolumns)]
    rfl
  have hread : Alter.foreignReference? t = some (raw, r) :=
    Alter.foreignReference?_eq_some.mpr ⟨a, b, rest, d, ha, hb, hclose, hd, hname⟩
  exact ⟨t, raw, r, ht, hread, htable.symm⟩

end Clause

/-! ## 4. Foreign keys anywhere -/

theorem Text.distinct_eq_singleton {parts : List Text} {part : Text} (hne : parts ≠ [])
    (hall : ∀ p ∈ parts, p = part) : distinct parts = [part] := by
  obtain ⟨first, rest, rfl⟩ := List.exists_cons_of_ne_nil hne
  obtain rfl := hall first List.mem_cons_self
  have hrest : ∀ p ∈ rest, p = first := fun p hp => hall p (List.mem_cons_of_mem _ hp)
  clear hall hne
  show rest.foldl _ [first] = [first]
  induction rest with
  | nil => rfl
  | cons p rest ih =>
    obtain rfl := hrest p List.mem_cons_self
    rw [List.foldl_cons, if_pos (by simp)]
    exact ih fun q hq => hrest q (List.mem_cons_of_mem _ hq)

namespace Alter

/-- The tables of all foreign keys that can be read somewhere in a text, in literals and names too,
and inside one another. -/
def mentioned (text : Text) : List Text :=
  text.tails.filterMap fun s => (foreignReference? s).map fun (raw, _) => Identifier.bare raw

theorem mem_mentioned {text table : Text} : table ∈ mentioned text ↔
    ∃ s raw r, s <:+ text ∧ foreignReference? s = some (raw, r) ∧ Identifier.bare raw = table := by
  simp [mentioned, List.mem_filterMap]

theorem mentioned_subset {s text : Text} (h : s <:+ text) : mentioned s ⊆ mentioned text := by
  intro table htable
  obtain ⟨t, raw, r, ht, hread, hname⟩ := mem_mentioned.mp htable
  exact mem_mentioned.mpr ⟨t, raw, r, ht.trans h, hread, hname⟩

theorem foreignReferences_subset (n : Nat) (s : Text) : foreignReferences n s ⊆ mentioned s := by
  induction n generalizing s with
  | zero => exact List.nil_subset _
  | succ n ih =>
    rw [foreignReferences]
    split
    · rename_i raw r hfind
      obtain ⟨t, hs, hread⟩ := Text.exists_of_search hfind
      have ht : t <:+ s := hs ▸ List.suffix_append _ t
      refine List.cons_subset.mpr ⟨mem_mentioned.mpr ⟨t, raw, r, ht, hread, rfl⟩, ?_⟩
      exact List.Subset.trans (ih r)
        (mentioned_subset ((suffix_of_foreignReference? hread).trans ht))
    · exact List.nil_subset _

/-- A statement has no references exactly if no foreign key can be read in it. -/
theorem references_eq_nil_iff {text : Text} : (references text).2 = [] ↔ mentioned text = [] := by
  have hdistinct : (references text).2 = [] ↔ foreignReferences text.length text = [] := by
    simp only [List.eq_nil_iff_forall_not_mem, references, Text.mem_distinct]
  rw [hdistinct]
  constructor
  · intro h
    refine List.eq_nil_iff_forall_not_mem.mpr fun table htable => ?_
    obtain ⟨s, raw, r, hs, hread, -⟩ := mem_mentioned.mp htable
    cases text with
    | nil =>
      rw [List.suffix_nil.mp hs] at hread
      cases hread
    | cons c text =>
      rw [List.length_cons, foreignReferences] at h
      split at h
      · cases h
      · rename_i hnone
        rw [Text.search_eq_none hnone hs] at hread
        cases hread
  · intro h
    exact List.subset_nil.mp (h ▸ foreignReferences_subset _ text)

/-- A statement has one reference if every foreign key that can be read in it is to one table. -/
theorem references_eq_singleton {text table : Text} (hmem : table ∈ mentioned text)
    (hall : mentioned text ⊆ [table]) : (references text).2 = [table] := by
  have hne : (references text).2 ≠ [] := by
    rw [Ne, references_eq_nil_iff]
    exact List.ne_nil_of_mem hmem
  refine Text.distinct_eq_singleton (fun e => hne (congrArg Text.distinct e)) fun other hother => ?_
  exact List.mem_singleton.mp (hall (foreignReferences_subset _ text hother))

end Alter

/-! ## 5. The table of a statement -/

namespace Clause

-- ALTER itself starts nothing that is understood as a change.
theorem readChange_of_alter {s : Text} (h : (keyword? "ALTER" s).isSome = true) :
    readChange s = .ok none := by
  have hother : ∀ {w : Text}, clash "ALTER" w = true → keyword? w s = none := fun hw =>
    keyword?_of_clash hw h
  have hphrase : ∀ w v : Text, clash "ALTER" w = true → phrase? [w, v] s = none := by
    intro w v hw
    rw [phrase?_cons_cons, hother hw]
    rfl
  have hconstrained : constrained s = [(none, s)] := by
    have hadd : skipPhrase ["ADD"] s = s := by
      rw [skipPhrase, phrase?, hother (by decide)]
      rfl
    unfold constrained constraintReadings
    dsimp only
    rw [hadd, hother (by decide)]
    rfl
  have hprimary : primaryKey? s = none := by
    rw [primaryKey?, hconstrained, List.findSome?_singleton]
    dsimp only
    rw [hphrase _ _ (by decide)]
    rfl
  have hforeign : foreignKey? s = none := by
    rw [foreignKey?, hconstrained, List.findSome?_singleton]
    dsimp only
    rw [hphrase _ _ (by decide)]
    rfl
  have hkey : key? s = none := by
    have hrests : keyRests s = [] := by
      refine List.eq_nil_iff_forall_not_mem.mpr fun r hr => ?_
      obtain ⟨w, hw, hsome⟩ := mem_keyRests hr
      have hclash : (["UNIQUE", "KEY", "INDEX", "FULLTEXT", "SPATIAL"] : List Text).all
          (clash "ALTER") = true := by decide
      rw [hother (List.all_eq_true.mp hclash w hw)] at hsome
      cases hsome
    have hkeywords : keyKeywords s = [] := congrArg (List.map (spellsUnique s, ·)) hrests
    rw [key?, hconstrained, List.findSome?_singleton]
    dsimp only
    rw [hkeywords]
    rfl
  unfold readChange
  rw [hprimary, columnBehind?_of_keyword _ (hother (by decide)), hforeign, hkey,
    columnBehind?_of_keyword _ (hother (by decide))]

/-- A statement names the table of the clause that it is read as. -/
theorem nameIn_of_parse {text : Text} {clause : Clause} (h : parse text = .ok (some clause)) :
    Kind.alter.nameIn text = clause.table := by
  obtain ⟨htable, hchange⟩ := parse_eq_ok h
  rw [htable]
  cases hheader : (Alter.split text).1 with
  | some raw => exact Alter.nameIn_of_split hheader
  | none =>
    have hnone : alteredTable? (Alter.content text) = none := by
      cases hread : alteredTable? (Alter.content text) with
      | none => rfl
      | some p =>
        rw [Alter.split_of_some hread] at hheader
        cases hheader
    rw [Alter.split_of_none hnone] at hchange
    -- a text without a header does not start with ALTER, semicolons or not
    have hword : keyword? "ALTER" (Text.trim text) = none := by
      by_contra hsome
      have hkeyword := (Alter.content_of_keyword (s := Text.trim text) (w := "ALTER") (by decide)
        (by decide) (Option.isSome_iff_ne_none.mpr hsome)).2
      rw [Alter.content, Text.trim_trim] at hkeyword
      rw [Alter.content, readChange_of_alter hkeyword] at hchange
      cases hchange
    rw [Kind.nameIn, Kind.rawName?, alteredTable?, hword]
    rfl

end Clause

/-! ## 6. The graph and the model -/

namespace Alter

/-- **The graph and the model see the same foreign keys.** A statement that is read as a clause
names the clause's table, and it refers to just what the clause refers to if a foreign key that it
adds is written plainly and no foreign key to another table can be read anywhere in it. It refers to
nothing exactly if no foreign key can be read in it, whatever the clause is. -/
theorem references_of_parse {text : Text} {clause : Clause}
    (h : Clause.parse text = .ok (some clause)) :
    (references text).1 = clause.table ∧
      (Clause.isPlainKey (split text).2 = true → mentioned text ⊆ clause.change.referred →
        (references text).2 = clause.change.referred) ∧
      ((references text).2 = [] ↔ mentioned text = []) := by
  refine ⟨Clause.nameIn_of_parse h, fun hplain hmentioned => ?_, references_eq_nil_iff⟩
  rcases clause.change.referred_cases with hnone | ⟨table, hkey⟩
  · rw [hnone] at hmentioned ⊢
    exact references_eq_nil_iff.mpr (List.subset_nil.mp hmentioned)
  · obtain ⟨-, hchange⟩ := Clause.parse_eq_ok h
    have htable : table ∈ clause.change.referred := by
      rw [hkey]
      exact List.mem_singleton_self table
    obtain ⟨t, raw, r, ht, hread, hname⟩ := Clause.exists_foreignReference hchange hplain htable
    obtain ⟨front, hfront⟩ := ht
    obtain ⟨x, hx, hsuffix⟩ := split_suffix text
    have hmem : table ∈ mentioned text := by
      refine mem_mentioned.mpr ⟨t ++ x, raw, r ++ x, ?_, foreignReference?_ending hx hread, hname⟩
      refine List.IsSuffix.trans ⟨front, ?_⟩ hsuffix
      rw [← List.append_assoc, hfront]
    rw [hkey] at hmentioned ⊢
    exact references_eq_singleton hmem hmentioned

/-- A key over two columns, with names for the constraint and for its index. -/
theorem references_of_parse_constraint :
    let text : Text := "ALTER TABLE s.t ADD CONSTRAINT f FOREIGN KEY i (a, b) REFERENCES `p` (c, d);"
    let clause : Clause := {
      table := some ['t']
      change := .foreignKey (some ['f']) [['a'], ['b']]
        (some { table := ['p'], columns := [['c'], ['d']] }) }
    Clause.parse text = .ok (some clause) ∧ Clause.isPlainKey (split text).2 = true ∧
      mentioned text ⊆ clause.change.referred ∧ references text = (some ['t'], [['p']]) := by
  intro text clause
  have h : Clause.parse text = .ok (some clause) := by decide +kernel
  have hplain : Clause.isPlainKey (split text).2 = true := by decide +kernel
  have hmentioned : mentioned text ⊆ clause.change.referred := by decide +kernel
  obtain ⟨htable, hkeys, -⟩ := references_of_parse h
  exact ⟨h, hplain, hmentioned, Prod.ext htable (hkeys hplain hmentioned)⟩

-- A guarded key is not found, and a literal is taken for a key.
example :
    let guarded : Text := "ALTER TABLE t ADD FOREIGN KEY IF NOT EXISTS (a) REFERENCES b (c)"
    let quoting : Text := "ALTER TABLE t ADD a text DEFAULT 'FOREIGN KEY (x) REFERENCES y'"
    (Clause.read? guarded).map (·.change.referred) = some [['b']] ∧
      (references guarded).2 = [] ∧
      (Clause.read? quoting).map (·.change.referred) = some [] ∧
      (references quoting).2 = [['y']] := by
  decide +kernel

end Alter

end SqlDump
