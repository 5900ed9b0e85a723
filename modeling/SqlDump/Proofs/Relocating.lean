import SqlDump.Proofs.AlterTexts
import SqlDump.Proofs.Layouts
import SqlDump.Proofs.Tails

/-!
# Statements without their keys

What is left of a CREATE TABLE statement has the columns that stay for its parts, and the ALTER
statements add the keys that moved and make the counter count again.
-/

namespace SqlDump.CreateTable

open Nesting

/-! ## 1. What moves and what stays -/

/-- The keys that move into ALTER statements. -/
def moved (parts : List Text) : List Text := parts.filter isRelocated

/-- The parts that stay, without the AUTO_INCREMENT of the counter that is found among them. -/
def released (parts : List Text) : List Text × Option Counter :=
  releaseCounter (parts.filter (!isRelocated ·))

/-- The statement that adds a key. -/
def addition (raw line : Text) : Text := Alter.statement raw ("ADD " ++ Text.spaced line)

/-- The statement that makes a column count. -/
def restart (raw start : Text) (counter : Counter) : Text :=
  Alter.statement raw ("MODIFY " ++ counter.name ++ " " ++ counter.definition ++ start)

theorem releaseCounter_eq_of_none {parts : List Text} (h : (releaseCounter parts).2 = none) :
    (releaseCounter parts).1 = parts := by
  induction parts with
  | nil => rfl
  | cons part rest ih =>
    unfold releaseCounter at h ⊢
    dsimp only at h ⊢
    split at h
    · rename_i hkey
      rw [if_pos hkey]
      exact congrArg (part :: ·) (ih h)
    · rename_i hkey
      rw [if_neg hkey]
      split at h
      · exact congrArg (part :: ·) (ih h)
      · split at h
        · rename_i hdeclares
          rw [if_pos hdeclares]
        · cases h

theorem isDigit_of_firstStartValue? {options number : Text}
    (h : firstStartValue? options = some number) : ∀ c ∈ number, isDigit c = true := by
  unfold firstStartValue? at h
  obtain ⟨⟨u, n, r⟩, hfound, rfl⟩ := Option.map_eq_some_iff.mp h
  obtain ⟨t, -, hstart⟩ := Text.exists_of_search hfound
  split at hstart
  · obtain ⟨x, -, hstart⟩ := Option.bind_eq_some_iff.mp hstart
    obtain ⟨y, -, hstart⟩ := Option.bind_eq_some_iff.mp hstart
    exact (Text.mem_run hstart).2
  · cases hstart

/-! ## 2. The statement that is left -/

theorem trimRight_header {front raw gap : Text} (h : Frame front raw)
    (hgap : ∀ c ∈ gap, isBlank c = true) : Text.trimRight (front ++ gap) = front := by
  obtain ⟨u, c, rfl, hc⟩ := h.ends
  show (u ++ [c] ++ gap).rdropWhile isBlank = _
  have hnil : gap.rdropWhile isBlank = [] := by
    rw [List.rdropWhile_eq_nil_iff]
    exact hgap
  rw [List.append_assoc, List.singleton_append, Text.rdropWhile_append_cons hc, hnil]

-- Semicolons and blanks behind a statement are table options of it.
theorem layout?_stripped {text : Text} {l : Layout} (h : layout? (Text.trim text) = some l) :
    ∃ options, layout? (Text.trimRight (Text.dropTrailing ';' (Text.trim text))) =
      some { l with options } := by
  obtain ⟨front, gap, htext, hframe, hgap, hbody, hheader⟩ := frame_of_layout? h
  have hsplit : ∀ x, Frame.query front gap l.body x =
      (front ++ (gap ++ '(' :: l.body)) ++ ')' :: x := by
    intro x
    simp [Frame.query]
  have hquery : Text.trimRight (Text.dropTrailing ';' (Text.trim text)) =
      Frame.query front gap l.body ((l.options.rdropWhile (· = ';')).rdropWhile isBlank) := by
    show ((Text.trim text).rdropWhile (· = ';')).rdropWhile isBlank = _
    rw [htext, hsplit, Text.rdropWhile_append_cons (by decide),
      Text.rdropWhile_append_cons (by decide), hsplit]
  rw [hquery, hframe.layout? hgap hbody]
  exact ⟨_, by rw [hheader]⟩

-- A statement without a body has none without the semicolons either.
theorem layout?_of_stripped {text : Text} {l : Layout}
    (h : layout? (Text.trimRight (Text.dropTrailing ';' (Text.trim text))) = some l) :
    ∃ options, layout? (Text.trim text) = some { l with options } := by
  obtain ⟨front, gap, hquery, hframe, hgap, hbody, hheader⟩ := frame_of_layout? h
  have hprefix : Text.trimRight (Text.dropTrailing ';' (Text.trim text)) <+: Text.trim text :=
    (List.rdropWhile_prefix isBlank _).trans (List.rdropWhile_prefix (· = ';') _)
  obtain ⟨x, hx⟩ := hprefix
  have htext : Text.trim text = Frame.query front gap l.body (l.options ++ x) := by
    rw [← hx, hquery]
    simp [Frame.query]
  rw [htext, hframe.layout? hgap hbody]
  exact ⟨_, by rw [hheader]⟩

theorem relocateKeys_of_none {text : Text} (h : layout? (Text.trim text) = none) :
    relocateKeys text = { query := Text.trim text } := by
  have hnone : layout? (Text.trimRight (Text.dropTrailing ';' (Text.trim text))) = none := by
    cases hstripped : layout? (Text.trimRight (Text.dropTrailing ';' (Text.trim text))) with
    | none => rfl
    | some l =>
      obtain ⟨options, hlayout⟩ := layout?_of_stripped hstripped
      rw [h] at hlayout
      cases hlayout
  unfold relocateKeys
  dsimp only
  rw [hnone]

theorem parts_of_layout? {query : Text} {l : Layout} (h : layout? query = some l) :
    parts query = bodyParts l.body := by
  obtain ⟨front, gap, hquery, hframe, hgap, hbody, -⟩ := frame_of_layout? h
  rw [hquery]
  exact hframe.parts hgap hbody _

-- Laid out again, a statement has the same front, and the columns for its body.
theorem relaid_eq {query : Text} {l : Layout} (h : layout? query = some l) :
    ∃ front, Frame front l.rawName ∧ ∀ (columns : List Text) (options : Text),
      Text.trimRight l.header ++ " (\n  " ++ Text.join ",\n  " columns ++ "\n)" ++ options =
        Frame.query front [' '] (laid columns) options := by
  obtain ⟨front, gap, -, hframe, hgap, -, hheader⟩ := frame_of_layout? h
  refine ⟨front, hframe, fun columns options => ?_⟩
  have hopen : " (\n  ".toList = [' '] ++ '(' :: "\n  ".toList := rfl
  have hclose : "\n)".toList = "\n".toList ++ [')'] := rfl
  rw [hheader, trimRight_header hframe hgap, hopen, hclose, Frame.query, laid]
  generalize Text.join ",\n  " columns = joined
  generalize "\n  ".toList = lead
  generalize "\n".toList = last
  simp

-- Its parts are the columns then.
theorem parts_relaid {query : Text} {l : Layout} (h : layout? query = some l) {columns : List Text}
    (hcolumns : ∀ part ∈ columns, Whole part) (options : Text) :
    parts (Text.trimRight l.header ++ " (\n  " ++ Text.join ",\n  " columns ++ "\n)" ++ options) =
      (columns.map Text.trim).filter (!·.isEmpty) := by
  obtain ⟨front, hframe, htext⟩ := relaid_eq h
  have hgap : ∀ c ∈ [' '], isBlank c = true := by
    intro c hc
    rw [List.mem_singleton.mp hc]
    decide
  rw [htext, hframe.parts hgap (balanced_laid hcolumns), bodyParts_laid hcolumns]

-- If nothing moves and no column counts up, the parts stay as they are.
theorem released_eq_self {body : Text} (hbody : Balanced body)
    (hmoved : moved (bodyParts body) = []) (hcounter : (released (bodyParts body)).2 = none) :
    bodyParts body = ((released (bodyParts body)).1.map Text.trim).filter (!·.isEmpty) := by
  have hstay : (bodyParts body).filter (!isRelocated ·) = bodyParts body := by
    rw [List.filter_eq_self]
    intro part hpart
    have := List.filter_eq_nil_iff.mp hmoved part hpart
    simpa using this
  have htrim : (bodyParts body).map Text.trim = bodyParts body := by
    conv_rhs => rw [← List.map_id (bodyParts body)]
    exact List.map_congr_left fun part hpart => (part_of_mem hbody hpart).2.1
  rw [released, releaseCounter_eq_of_none hcounter, hstay, htrim]
  symm
  rw [List.filter_eq_self]
  intro part hpart
  simpa using (part_of_mem hbody hpart).2.2

theorem start_of_number (number : Option Text) :
    (∀ n, number = some n → ∀ c ∈ n, isDigit c = true) →
      Column.Start (match number with
        | some number => ", AUTO_INCREMENT=" ++ number
        | none => []) := by
  intro h
  cases number with
  | none => exact .none
  | some number => exact .number (h number rfl)

/-- What a statement with a body is taken apart to. -/
theorem relocateKeys_of_layout {text : Text} {l : Layout} (h : layout? (Text.trim text) = some l) :
    ∃ start, Column.Start start ∧
      (relocateKeys text).alters = (moved (bodyParts l.body)).map (addition l.rawName) ++
        (released (bodyParts l.body)).2.toList.map (restart l.rawName start) ∧
      ((∀ part ∈ (released (bodyParts l.body)).1, Whole part) → parts (relocateKeys text).query =
        ((released (bodyParts l.body)).1.map Text.trim).filter (!·.isEmpty)) := by
  obtain ⟨options, hquery⟩ := layout?_stripped h
  obtain ⟨front, gap, -, -, -, hbody, -⟩ := frame_of_layout? h
  have hnumber : ∀ n, ((released (bodyParts l.body)).2.bind fun _ => firstStartValue? (Text.trim options)) =
      some n → ∀ c ∈ n, isDigit c = true := by
    intro n hn
    obtain ⟨counter, -, hn⟩ := Option.bind_eq_some_iff.mp hn
    exact isDigit_of_firstStartValue? hn
  refine ⟨_, start_of_number _ hnumber, ?_⟩
  unfold relocateKeys
  dsimp only
  rw [hquery]
  dsimp only
  split
  · -- no ALTER statement: the text is left alone
    rename_i hempty
    have hnil := List.isEmpty_iff.mp hempty
    obtain ⟨hmoved, hcounter⟩ := List.append_eq_nil_iff.mp hnil
    refine ⟨hnil.symm, fun _ => ?_⟩
    rw [parts_of_layout? hquery]
    refine released_eq_self hbody (List.map_eq_nil_iff.mp hmoved) ?_
    exact Option.toList_eq_nil_iff.mp (List.map_eq_nil_iff.mp hcounter)
  · refine ⟨rfl, fun hwhole => ?_⟩
    exact parts_relaid hquery hwhole _

end SqlDump.CreateTable
