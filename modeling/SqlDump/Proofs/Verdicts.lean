import SqlDump.Proofs.Comparing
import SqlDump.Proofs.Rendering

/-!
# The two verdicts of a comparison

A comparison says whether two models are the same, and its flags say whether any difference is told.
The first verdict goes by the models themselves, the second by how their columns are shown. Two
models can differ without a difference to tell: a table without columns is shown by no line, and a
line has one space where a default or a name has several blanks.
-/

namespace SqlDump.Model

open Outcome

/-- Two models that show every column alike. -/
def ShownAlike (source target : Model) : Prop :=
  ∀ table column, source.shown table column = target.shown table column

/-- Two models whose columns differ in runs of blanks only, tables without columns left aside. -/
def BlurredAlike (source target : Model) : Prop :=
  ∀ table column, (source.column? table column).map Column.blurred =
    (target.column? table column).map Column.blurred

/-- A model whose keys have legible names. -/
def Legible (model : Model) : Prop :=
  ∀ entry ∈ model, ∀ column ∈ entry.2.columns, column.2.Legible

instance (model : Model) : Decidable model.Legible :=
  inferInstanceAs (Decidable (∀ entry ∈ model, ∀ column ∈ entry.2.columns, column.2.Legible))

variable {source target : Model}

theorem mem_of_column? {model : Model} {table name : Text} {column : Column}
    (h : model.column? table name = some column) :
    ∃ entry ∈ model, (name, column) ∈ entry.2.columns := by
  obtain ⟨found, hfound, hcolumn⟩ := Option.bind_eq_some_iff.mp h
  exact ⟨(table, found), Ordered.mem_of_get? hfound, Ordered.mem_of_get? hcolumn⟩

/-- Columns of legible models are shown alike exactly if they differ in runs of blanks only. -/
theorem shownAlike_iff_blurredAlike (hs : Sound Definition.Shaped source)
    (ht : Sound Definition.Shaped target) (hs' : source.Legible) (ht' : target.Legible) :
    ShownAlike source target ↔ BlurredAlike source target := by
  refine forall₂_congr fun table column => ?_
  unfold shown
  cases ha : source.column? table column with
  | none => cases target.column? table column <;> simp
  | some a =>
    cases hb : target.column? table column with
    | none => simp
    | some b =>
      obtain ⟨entry, hentry, hcolumn⟩ := mem_of_column? ha
      obtain ⟨entry', hentry', hcolumn'⟩ := mem_of_column? hb
      have hrender := Column.render_eq_render_iff ((hs.sound entry hentry).holds _ hcolumn)
        ((ht.sound entry' hentry').holds _ hcolumn') (hs' entry hentry _ hcolumn)
        (ht' entry' hentry' _ hcolumn') table column
      simpa using hrender

/-- Whether two dumps are the same and whether a difference is told between them. The verdicts agree
on two dumps exactly if dumps that show every column alike are the same. -/
theorem compare_verdicts {account account' : Account} {sql sql' : Text}
    (hs : ofSql account sql = .ok source) (ht : ofSql account' sql' = .ok target) :
    ((compare source target).same = true ↔ Agree source target) ∧
    ((compare source target).flags = 0 ↔ (compare source target).diff.getD [] = []) ∧
    ((compare source target).flags = 0 ↔ ShownAlike source target) ∧
    (source.Legible → target.Legible →
      ((compare source target).flags = 0 ↔ BlurredAlike source target)) ∧
    (((compare source target).same = true ↔ (compare source target).flags = 0) ↔
      (ShownAlike source target → Agree source target)) := by
  have hsound := Sound.ofSql Definition.shaped_of_parse hs
  have hsound' := Sound.ofSql Definition.shaped_of_parse ht
  have hsame := compare_same_iff hsound hsound'
  have hdiff := compare_flags_eq_zero_iff hsound hsound'
  have hflags : (compare source target).flags = 0 ↔ ShownAlike source target :=
    hdiff.trans (compare_diff_eq_nil_iff hsound hsound')
  refine ⟨hsame, hdiff, hflags, fun hlegible hlegible' =>
    hflags.trans (shownAlike_iff_blurredAlike hsound hsound' hlegible hlegible'), ?_⟩
  have hagree : Agree source target → ShownAlike source target := by
    intro agree table column
    rw [shown, shown, (agree table).2]
  rw [hsame, hflags]
  exact ⟨fun h => h.mpr, fun h => ⟨hagree, h⟩⟩

/-- Two dumps that differ in a default, by the number of blanks in it, and in a table without
columns. No difference is told. -/
theorem compare_verdicts_blanks :
    let sql : Text := "CREATE TABLE `t` (`a` varchar(9) DEFAULT 'x  y', KEY `k` (`a`));
      ALTER TABLE `u` ADD PRIMARY KEY (`a`);"
    let sql' : Text := "CREATE TABLE `t` (`a` varchar(9) DEFAULT 'x y', KEY `k` (`a`));"
    ∃ source target, ofSql {} sql = .ok source ∧ ofSql {} sql' = .ok target ∧
      source.Legible ∧ target.Legible ∧ BlurredAlike source target ∧ ¬ Agree source target ∧
      (compare source target).same = false ∧ (compare source target).flags = 0 := by
  intro sql sql'
  obtain ⟨⟨source, target⟩, hread, hparts⟩ := exists_ok
    (x := do return (← ofSql {} sql, ← ofSql {} sql'))
    (f := fun (s, t) => (decide s.Legible, decide t.Legible, (compare s t).same, (compare s t).flags))
    (b := (true, true, false, 0)) (by decide +kernel)
  obtain ⟨source, hs, hread⟩ := bind_eq_ok.mp hread
  obtain ⟨target, ht, hread⟩ := bind_eq_ok.mp hread
  cases hread
  simp only [Prod.mk.injEq, decide_eq_true_eq] at hparts
  obtain ⟨hlegible, hlegible', hsame, hflags⟩ := hparts
  have verdicts := compare_verdicts hs ht
  refine ⟨source, target, hs, ht, hlegible, hlegible',
    (verdicts.2.2.2.1 hlegible hlegible').mp hflags, ?_, hsame, hflags⟩
  rw [← verdicts.1, hsame]
  exact Bool.false_ne_true

end SqlDump.Model
