import SqlDump.Proofs.ForeignKeys

/-!
# Statements that add foreign keys

A plan runs the statements that mention a foreign key behind the others. Among them are all that add
one. A statement that adds none is among them exactly if the words FOREIGN KEY stand somewhere in it,
in a name or in a literal for example.
-/

namespace SqlDump.Alter

open Outcome (exists_ok)

theorem mentionsForeignKey_of_parse {text : Text} {clause : Clause}
    (h : Clause.parse text = .ok (some clause)) (hforeign : clause.change.isForeign = true) :
    MentionsForeignKey text := by
  obtain ⟨-, hchange⟩ := Clause.parse_eq_ok h
  obtain ⟨name, r, hkey, -⟩ := Clause.foreignKey?_of_readChange hchange hforeign
  obtain ⟨⟨_, t⟩, hmem, hread⟩ := List.exists_of_findSome?_eq_some hkey
  obtain ⟨a, hphrase, -⟩ := Option.bind_eq_some_iff.mp hread
  obtain ⟨x, -, hsuffix⟩ := split_suffix text
  have hbody : (split text).2 <:+: text := (List.prefix_append _ x).isInfix.trans hsuffix.isInfix
  exact (mentionsForeignKey_of_phrase? hphrase).mono
    ((Clause.suffix_of_mem_constrained hmem).isInfix.trans hbody)

/-- **The statements of foreign keys.** Separating statements keeps each of them once and their
order. Of the statements that are understood, those that add a foreign key are with the foreign keys,
and another one is with them exactly if the words FOREIGN KEY stand in it. -/
theorem separateForeign_by_words (alters : List Text) :
    (separateForeign alters).1.Sublist alters ∧ (separateForeign alters).2.Sublist alters ∧
      ((separateForeign alters).1 ++ (separateForeign alters).2).Perm alters ∧
      ∀ text ∈ alters, ∀ clause, Clause.parse text = .ok (some clause) →
        (clause.change.isForeign = true →
          text ∈ (separateForeign alters).2 ∧ text ∉ (separateForeign alters).1) ∧
        (clause.change.isForeign = false →
          (text ∈ (separateForeign alters).2 ↔ MentionsForeignKey text) ∧
          (text ∈ (separateForeign alters).1 ↔ ¬ MentionsForeignKey text)) := by
  refine ⟨List.filter_sublist, List.filter_sublist, ?_, fun text htext clause hparse => ?_⟩
  · exact List.perm_append_comm.trans (List.filter_append_perm mentionsForeignKey alters)
  have hforeign : text ∈ (separateForeign alters).2 ↔ MentionsForeignKey text :=
    mem_separateForeign.2.trans (and_iff_right htext)
  have hkeys : text ∈ (separateForeign alters).1 ↔ ¬ MentionsForeignKey text :=
    mem_separateForeign.1.trans (and_iff_right htext)
  refine ⟨fun hkind => ?_, fun _ => ⟨hforeign, hkeys⟩⟩
  have hmentions := mentionsForeignKey_of_parse hparse hkind
  exact ⟨hforeign.mpr hmentions, fun h => hkeys.mp h hmentions⟩

/-- A key, a foreign key, and a column whose default mentions one. -/
theorem separateForeign_by_words_default :
    let key : Text := "ALTER TABLE t ADD KEY k (a)"
    let reference : Text := "ALTER TABLE t ADD FOREIGN KEY (a) REFERENCES p (b)"
    let column : Text := "ALTER TABLE t ADD c text DEFAULT 'foreign key'"
    let (keys, foreign) := separateForeign [column, reference, key]
    (reference ∈ foreign ∧ reference ∉ keys) ∧ key ∈ keys ∧ column ∈ foreign := by
  intro key reference column
  obtain ⟨-, -, -, told⟩ := separateForeign_by_words [column, reference, key]
  have hread : ∀ {text : Text} {kind : Bool},
      ((Clause.parse text).toOption.map fun found => found.map (·.change.isForeign)) =
        some (some kind) →
      ∃ clause, Clause.parse text = .ok (some clause) ∧ clause.change.isForeign = kind := by
    intro text kind h
    obtain ⟨found, hparse, hmap⟩ := exists_ok h
    obtain ⟨clause, rfl, hkind⟩ := Option.map_eq_some_iff.mp hmap
    exact ⟨clause, hparse, hkind⟩
  obtain ⟨_, hkey, hkey'⟩ := @hread key false (by decide +kernel)
  obtain ⟨_, hreference, hreference'⟩ := @hread reference true (by decide +kernel)
  obtain ⟨_, hcolumn, hcolumn'⟩ := @hread column false (by decide +kernel)
  have hno : ¬ MentionsForeignKey key := fun h =>
    absurd (mentionsForeignKey_iff.mpr h) (by decide +kernel)
  have hyes : MentionsForeignKey column := mentionsForeignKey_iff.mp (by decide +kernel)
  exact ⟨(told reference (by simp) _ hreference).1 hreference',
    ((told key (by simp) _ hkey).2 hkey').2.mpr hno,
    ((told column (by simp) _ hcolumn).2 hcolumn').1.mpr hyes⟩

end SqlDump.Alter
