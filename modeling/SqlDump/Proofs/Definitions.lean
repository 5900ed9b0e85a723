import SqlDump.Proofs.Arguments
import SqlDump.Proofs.Models
import SqlDump.Proofs.Tokens

/-!
# Definitions that were read

What a definition read from a text looks like: the type as it is shown tells its parts, and the size
and the length follow from them. So a definition is known from its type, whether it can be null, its
default and whether it counts up.
-/

namespace SqlDump

open Outcome Column

/-- A definition whose type, size and default are as they are read from a text. -/
structure Definition.Shaped (definition : Definition) : Prop where
  type : ∃ arguments, definition.type =
      typeText definition.datatype arguments definition.unsigned ∧
    (∀ a, arguments = some a → Enclosed none a) ∧
    definition.size = natOfDigits ((arguments.getD []).takeWhile isDigit)
  named : definition.datatype ≠ []
  word : ∀ c ∈ definition.datatype, isBreak c = false
  length : definition.length =
    if characterTypes.contains definition.datatype then definition.size else 0
  default : ∀ value, definition.default = some value → Token.Delimited value

/-! ## 1. Defaults -/

theorem Column.default_qualifier {q : Qualifiers} {token : Text} {following : Option Text}
    {value : Text} (h : (qualifier q token following).1.default = some value) :
    q.default = some value ∨ value = ("NULL" : Text) ∨ following = some value := by
  unfold qualifier at h
  dsimp only at h
  split at h
  · exact Or.inl h
  split at h
  · exact Or.inl h
  split at h
  · exact Or.inl h
  split at h
  · exact Or.inl h
  split at h
  · exact Or.inl h
  split at h
  · dsimp only at h
    split at h
    · exact Or.inr (Or.inl (Option.some.inj h).symm)
    · exact Or.inr (Or.inr h)
  split at h
  · exact Or.inl h
  split at h
  · exact Or.inl h
  split at h
  · exact Or.inl h
  · exact Or.inl h

-- A default is NULL or one of the tokens.
theorem Column.default_qualifiers {q : Qualifiers} {skip : Nat} {tokens : List Text} {value : Text}
    (h : (qualifiers q skip tokens).default = some value) :
    q.default = some value ∨ value = ("NULL" : Text) ∨ value ∈ tokens := by
  fun_induction qualifiers q skip tokens with
  | case1 => exact Or.inl h
  | case2 q skip token tokens ih =>
    exact (ih h).imp id (Or.imp id (List.mem_cons_of_mem _))
  | case3 => exact Or.inl h
  | case4 q token tokens _ next skip hq ih =>
    rcases ih h with h | h | h
    · have hfirst : (qualifier q token tokens.head?).1.default = some value := by
        rw [hq]
        exact h
      rcases default_qualifier hfirst with h | h | h
      · exact Or.inl h
      · exact Or.inr (Or.inl h)
      · exact Or.inr (Or.inr (List.mem_cons_of_mem _ (List.mem_of_mem_head? h)))
    · exact Or.inr (Or.inl h)
    · exact Or.inr (Or.inr (List.mem_cons_of_mem _ h))

/-! ## 2. Types -/

theorem Column.Enclosed.of_arguments {s a r : Text} (h : arguments? s = some (a, r)) :
    Enclosed none a := by
  unfold arguments? at h
  split at h
  · exact (Enclosed.of_read h).1
  · cases h

theorem Column.type?_eq_some {s name rest : Text} {arguments : Option Text}
    (h : type? s = some (name, arguments, rest)) :
    name ≠ [] ∧ (∀ c ∈ name, isWord c = true) ∧ ∀ a, arguments = some a → Enclosed none a := by
  unfold type? at h
  split at h
  · cases h
  · rename_i c r _
    split at h
    · rename_i hc
      have hword : ∀ d ∈ c :: r.takeWhile isWord, isWord d = true := by
        intro d hd
        rcases List.mem_cons.mp hd with rfl | hd
        · simp [isWord, Char.isAlphanum, hc]
        · exact List.mem_takeWhile_imp hd
      dsimp only at h
      split at h
      · rename_i a t ha
        cases h
        refine ⟨List.cons_ne_nil _ _, hword, ?_⟩
        intro b hb
        cases hb
        exact Enclosed.of_arguments ha
      · cases h
        exact ⟨List.cons_ne_nil _ _, hword, fun a ha => by cases ha⟩
    · cases h

/-- Every definition that is read is shaped. -/
theorem Definition.shaped_of_parse : Definition.Readable Definition.Shaped := by
  intro text column h
  unfold Column.parse at h
  split at h
  · cases h
  · rename_i name arguments rest htype
    obtain ⟨size, hsize, h⟩ := bind_eq_ok.mp h
    cases h
    obtain ⟨hname, hword, henclosed⟩ := type?_eq_some htype
    refine ⟨⟨arguments.map tidyArguments, rfl, ?_, ?_⟩, ?_, ?_, rfl, ?_⟩
    · intro a ha
      obtain ⟨b, rfl, rfl⟩ := Option.map_eq_some_iff.mp ha
      exact (henclosed b rfl).tidy
    · unfold Column.sizeOf at hsize
      dsimp only at hsize
      split at hsize
      · cases hsize
      · exact (Except.ok.inj hsize).symm
    · exact lowerAfter_ne_nil hname
    · exact not_isBreak_lowerAfter fun c hc => not_isBreak_of_isWord (hword c hc)
    · intro value hvalue
      rcases default_qualifiers hvalue with hvalue | rfl | hvalue
      · cases hvalue
      · have hword : ("ULL".toList.all (!Token.isStop ·)) = true := by decide
        exact .of_solid (by decide) fun c hc => by simpa using List.all_eq_true.mp hword c hc
      · exact Token.delimited_of_mem_all hvalue

end SqlDump
