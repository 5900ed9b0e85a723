import SqlDump.Dump
import SqlDump.Proofs.Outcome

/-!
# What reading a dump collects

Reading adds one statement after another to a dump that starts empty, and orders the tables at the
end. Whatever one addition keeps therefore holds of every dump that is read.
-/

namespace SqlDump

open Outcome

namespace Ordered

theorem nodup_keys_push {β : Type} {m : Ordered (List β)} (unique : m.keys.Nodup) (name : Text)
    (b : β) : (m.push name b).keys.Nodup :=
  nodup_keys_set unique _ _

end Ordered

namespace Dump

theorem parse_eq_ok {account : Account} {sql : Text} {dump : Dump}
    (read : parse account sql = .ok dump) :
    ∃ statements collected, Statement.split account sql = .ok statements ∧
      statements.foldlM (add account) {} = .ok collected ∧ dump = finish collected := by
  unfold parse at read
  obtain ⟨statements, hsplit, read⟩ := bind_eq_ok.mp read
  obtain ⟨collected, hadd, read⟩ := bind_eq_ok.mp read
  exact ⟨statements, collected, hsplit, hadd, (Except.ok.inj read).symm⟩

-- What every addition keeps, reading keeps up to the ordering of tables.
theorem collected_of_add {P : Dump → Prop} {account : Account}
    (start : P {}) (step : ∀ dump statement next, P dump → add account dump statement = .ok next →
      P next) {statements : List Statement} {collected : Dump}
    (run : statements.foldlM (add account) {} = .ok collected) : P collected :=
  foldlM_preserves step statements {} collected start run

/-- Tables and rows are kept once for each name. -/
structure Keyed (dump : Dump) : Prop where
  tables : dump.tables.keys.Nodup
  inserts : dump.inserts.keys.Nodup

theorem Keyed.add {account : Account} {dump next : Dump} {statement : Statement}
    (keyed : Keyed dump) (run : Dump.add account dump statement = .ok next) : Keyed next := by
  unfold Dump.add at run
  dsimp only at run
  split at run
  case h_1 =>
    cases run
    split
    · exact ⟨keyed.tables, keyed.inserts⟩
    · exact ⟨keyed.tables, Ordered.nodup_keys_push keyed.inserts _ _⟩
  case h_4 =>
    split at run <;> cases run
    · exact ⟨keyed.tables, keyed.inserts⟩
    · exact ⟨Ordered.nodup_keys_push keyed.tables _ _, keyed.inserts⟩
  all_goals
    first
    | cases run
      exact ⟨keyed.tables, keyed.inserts⟩
    | obtain ⟨text, -, run⟩ := bind_eq_ok.mp run
      cases run
      exact ⟨keyed.tables, keyed.inserts⟩

theorem Keyed.of_parse {account : Account} {sql : Text} {dump : Dump}
    (read : parse account sql = .ok dump) : Keyed dump := by
  obtain ⟨statements, collected, -, run, rfl⟩ := parse_eq_ok read
  have keyed : Keyed collected :=
    collected_of_add ⟨List.nodup_nil, List.nodup_nil⟩ (fun _ _ _ h => h.add) run
  exact ⟨keyed.tables, keyed.inserts⟩

/-- The order of a dump that was read is that of the graph of its statements. -/
theorem order_of_parse {account : Account} {sql : Text} {dump : Dump}
    (read : parse account sql = .ok dump) :
    dump.order = (Graph.ofAlters dump.alters dump.tables.keys).sort.order ∧
      dump.unresolved = (Graph.ofAlters dump.alters dump.tables.keys).sort.unresolved := by
  obtain ⟨statements, collected, -, -, rfl⟩ := parse_eq_ok read
  exact ⟨rfl, rfl⟩

end Dump

end SqlDump
