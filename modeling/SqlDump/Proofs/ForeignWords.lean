import SqlDump.Alter.Header
import SqlDump.Proofs.Cuts
import SqlDump.Proofs.Keywords

/-!
# The words of foreign keys

A statement counts as one about foreign keys where the words FOREIGN KEY stand somewhere in it. Here
this is said of its text alone, and the statements of a dump are told apart by it.
-/

namespace SqlDump

/-- Characters that spell a keyword. -/
def Spells (w u : Text) : Prop := List.Forall₂ (fun k c => isLetter k c = true) w u

theorem keyword?_eq_some_iff {w s r : Text} :
    keyword? w s = some r ↔ ∃ u, Spells w u ∧ s = u ++ r := by
  induction w generalizing s with
  | nil =>
    constructor
    · intro h
      exact ⟨[], .nil, Option.some.inj h⟩
    · rintro ⟨u, hu, rfl⟩
      cases hu
      rfl
  | cons k w ih =>
    constructor
    · intro h
      cases s with
      | nil => cases h
      | cons c s =>
        rw [keyword?] at h
        split at h
        · rename_i hc
          obtain ⟨u, hu, rfl⟩ := ih.mp h
          exact ⟨c :: u, .cons hc hu, rfl⟩
        · cases h
    · rintro ⟨u, hu, rfl⟩
      cases hu with
      | cons hc hu =>
        rw [List.cons_append, keyword?, if_pos hc]
        exact ih.mpr ⟨_, hu, rfl⟩

/-- The words FOREIGN and KEY stand somewhere in a text, with blanks between them. -/
def MentionsForeignKey (text : Text) : Prop := ∃ front foreign gap key rest,
  text = front ++ (foreign ++ (gap ++ (key ++ rest))) ∧ Spells "FOREIGN" foreign ∧
    gap ≠ [] ∧ (∀ c ∈ gap, isBlank c = true) ∧ Spells "KEY" key

theorem MentionsForeignKey.mono {s text : Text} (h : MentionsForeignKey s) (hs : s <:+: text) :
    MentionsForeignKey text := by
  obtain ⟨before, after, rfl⟩ := hs
  obtain ⟨front, foreign, gap, key, rest, rfl, hwords⟩ := h
  exact ⟨before ++ front, foreign, gap, key, rest ++ after, by simp, hwords⟩

theorem mentionsForeignKey_of_phrase? {s r : Text} (h : phrase? ["FOREIGN", "KEY"] s = some r) :
    MentionsForeignKey s := by
  rw [phrase?_cons_cons] at h
  obtain ⟨b, hb, hkey⟩ := Option.bind_eq_some_iff.mp h
  obtain ⟨a, hforeign, hgap⟩ := Option.bind_eq_some_iff.mp hb
  obtain ⟨foreign, hspells, rfl⟩ := keyword?_eq_some_iff.mp hforeign
  obtain ⟨key, hspells', rfl⟩ := keyword?_eq_some_iff.mp hkey
  obtain ⟨hrest, c, t, rfl, hc⟩ := gap?_eq_some hgap
  refine ⟨[], foreign, (c :: t).takeWhile isBlank, key, r, ?_, hspells, ?_, fun d hd =>
    List.mem_takeWhile_imp hd, hspells'⟩
  · rw [hrest, Text.trimLeft, List.takeWhile_append_dropWhile, List.nil_append]
  · rw [List.takeWhile_cons_of_pos hc]
    exact List.cons_ne_nil _ _

theorem exists_phrase?_of_mentions {text : Text} (h : MentionsForeignKey text) :
    ∃ s r, s <:+ text ∧ phrase? ["FOREIGN", "KEY"] s = some r := by
  obtain ⟨front, foreign, gap, key, rest, rfl, hforeign, hgap, hblank, hkey⟩ := h
  refine ⟨foreign ++ (gap ++ (key ++ rest)), rest, List.suffix_append .., ?_⟩
  obtain ⟨c, gap, rfl⟩ := List.exists_cons_of_ne_nil hgap
  obtain ⟨hc, hgap⟩ := List.forall_mem_cons.mp hblank
  have hflush : Text.trimLeft (key ++ rest) = key ++ rest := by
    cases hkey with
    | cons hletter _ => exact Text.trimLeft_cons (not_isBlank_of_isLetter (by decide +kernel) hletter) _
  have hread : gap? (c :: gap ++ (key ++ rest)) = some (key ++ rest) := by
    rw [List.cons_append, gap?, if_pos hc, Text.trimLeft, List.dropWhile_append_of_pos hgap]
    exact congrArg some hflush
  rw [phrase?_cons_cons, keyword?_eq_some_iff.mpr ⟨foreign, hforeign, rfl⟩]
  change (gap? (c :: gap ++ (key ++ rest))).bind (keyword? "KEY") = some rest
  rw [hread, Option.bind_some]
  exact keyword?_eq_some_iff.mpr ⟨key, hkey, rfl⟩

namespace Alter

/-- A statement is found to mention a foreign key exactly if the words stand in it. -/
theorem mentionsForeignKey_iff {text : Text} :
    mentionsForeignKey text = true ↔ MentionsForeignKey text := by
  constructor
  · intro h
    obtain ⟨⟨u, r⟩, hfind⟩ := Option.isSome_iff_exists.mp h
    obtain ⟨s, rfl, hphrase⟩ := Text.exists_of_search hfind
    exact (mentionsForeignKey_of_phrase? hphrase).mono (List.suffix_append u s).isInfix
  · intro h
    obtain ⟨s, r, hs, hphrase⟩ := exists_phrase?_of_mentions h
    by_contra hnone
    rw [mentionsForeignKey, Option.not_isSome_iff_eq_none] at hnone
    rw [Text.search_eq_none hnone hs] at hphrase
    cases hphrase

/-- Separating statements tells them apart by the words, and loses none. -/
theorem mem_separateForeign {alters : List Text} {text : Text} :
    (text ∈ (separateForeign alters).1 ↔ text ∈ alters ∧ ¬ MentionsForeignKey text) ∧
      (text ∈ (separateForeign alters).2 ↔ text ∈ alters ∧ MentionsForeignKey text) := by
  rw [separateForeign, List.mem_filter, List.mem_filter, Bool.not_eq_true', ← Bool.not_eq_true,
    mentionsForeignKey_iff]
  exact ⟨Iff.rfl, Iff.rfl⟩

end Alter

end SqlDump
