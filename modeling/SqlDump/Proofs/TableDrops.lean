import SqlDump.Proofs.LeavingOut
import SqlDump.Proofs.PlanContents
import SqlDump.Proofs.Relocating
import SqlDump.Proofs.Segments

/-!
# Tables that imports drop

A statement that drops tables starts with DROP. Of a dump's statements beside its own DROP statements
none does, whatever is moved out of it, added to it or put into it. So a plan that leaves those out
drops tables only where it clears the places of the dump's views.
-/

namespace SqlDump

open Outcome

/-! ## 1. What a statement drops -/

/-- The names at the front of a text, a comma between neighbours. At most `n` are read. -/
def nameList : Nat → Text → List Text
  | 0, _ => []
  | n + 1, s =>
    match Identifier.qualified? s with
    | none => []
    | some (raw, r) =>
      Identifier.bare raw ::
        match Text.after? "," (Text.trimLeft r) with
        | some r => nameList n (Text.trimLeft r)
        | none => []

/-- What stands after DROP TABLE and its options. -/
def droppedNames? (statement : Text) : Option Text := do
  let r ← keyword? "DROP" (Text.trimLeft statement) >>= gap?
  let r ← keyword? "TABLE" (skipPhrase ["TEMPORARY"] r) >>= gap?
  pure (skipPhrase ["IF", "EXISTS"] r)

/-- The tables that a statement drops. -/
def droppedTables (statement : Text) : List Text :=
  match droppedNames? statement with
  | some names => nameList names.length names
  | none => []

/-- The first character that is no blank. -/
def Text.first? (s : Text) : Option Char := s.find? (!isBlank ·)

theorem Text.first?_trimLeft (s : Text) : (Text.trimLeft s).first? = s.first? := by
  have hnone : (s.takeWhile isBlank).find? (!isBlank ·) = none := by
    rw [List.find?_eq_none]
    intro c hc
    simp [List.mem_takeWhile_imp hc]
  unfold first? trimLeft
  conv_rhs => rw [← List.takeWhile_append_dropWhile (p := isBlank) (l := s), List.find?_append]
  rw [hnone]
  rfl

theorem Text.first?_cons {c : Char} (hc : isBlank c = false) (s : Text) :
    Text.first? (c :: s) = some c := by
  rw [first?, List.find?_cons, hc]
  rfl

-- A text in capitals starts with no form of another letter than the first of them.
theorem Text.exists_of_upper {k : Char} {w s : Text} (h : upper (s.takeWhile isWord) = k :: w) :
    ∃ c t, s = c :: t ∧ isWord c = true ∧ ∀ {l : Char},
      ((letterForms l).all fun c => (capital c).head?.any (· ≠ k)) = true → isLetter l c = false := by
  cases s with
  | nil => cases h
  | cons c s =>
    cases hword : isWord c with
    | false =>
      rw [List.takeWhile_cons_of_neg (by rw [hword]; decide)] at h
      cases h
    | true =>
      refine ⟨c, s, rfl, hword, fun {l} hl => ?_⟩
      rw [List.takeWhile_cons_of_pos hword, upper, List.flatMap_cons] at h
      rw [Bool.eq_false_iff]
      intro hletter
      have hother := List.all_eq_true.mp hl c (mem_letterForms hletter)
      cases hcapital : capital c with
      | nil =>
        rw [hcapital] at hother
        cases hother
      | cons d u =>
        rw [hcapital] at h hother
        have hne : d ≠ k := by simpa using hother
        exact hne (List.cons.inj h).1

/-- The first character of the text that is no blank is no D. -/
def KeepsTables (s : Text) : Prop := ∀ c ∈ s.first?, isLetter 'D' c = false

instance (s : Text) : Decidable (KeepsTables s) :=
  decidable_of_iff ((s.first?.all fun c => !isLetter 'D' c) = true) (by
    unfold KeepsTables
    cases s.first? <;> simp)

namespace KeepsTables

variable {s t : Text}

theorem droppedTables (h : KeepsTables s) : droppedTables s = [] := by
  have hnone : keyword? "DROP" (Text.trimLeft s) = none := by
    rw [KeepsTables, ← Text.first?_trimLeft] at h
    cases hs : Text.trimLeft s with
    | nil => rfl
    | cons c r =>
      rw [hs, Text.first?_cons (Text.not_isBlank_of_trimLeft hs)] at h
      have hc := h c rfl
      change keyword? ('D' :: _) (c :: r) = none
      rw [keyword?, if_neg (by rw [hc]; decide)]
  rw [SqlDump.droppedTables, droppedNames?, hnone]
  rfl

theorem of_begins (h : KeepsTables s) (hbegins : t <+: s) : KeepsTables t := by
  obtain ⟨r, rfl⟩ := hbegins
  intro c hc
  refine h c ?_
  rw [Text.first?, List.find?_append, ← Text.first?, Option.mem_def.mp hc]
  rfl

theorem append (h : KeepsTables s) (hs : s.first?.isSome = true) (t : Text) :
    KeepsTables (s ++ t) := by
  obtain ⟨c, hc⟩ := Option.isSome_iff_exists.mp hs
  intro d hd
  rw [Text.first?, List.find?_append, ← Text.first?, hc] at hd
  exact h d (hc.trans hd)

theorem join (h : KeepsTables s) (hs : s.first?.isSome = true) (sep : Text) (rest : List Text) :
    KeepsTables (Text.join sep (s :: rest)) := by
  cases rest with
  | nil =>
    rw [Text.join, List.intercalate_singleton]
    exact h
  | cons next rest =>
    rw [Nesting.join_cons_cons]
    exact h.append hs _

theorem trim (h : KeepsTables s) : KeepsTables (Text.trim s) := by
  have hleft : KeepsTables (Text.trimLeft s) := by
    rw [KeepsTables, Text.first?_trimLeft]
    exact h
  exact hleft.of_begins (List.rdropWhile_prefix isBlank _)

/-- What is left without semicolons and blanks at the end starts with the same character. -/
theorem stripped (h : KeepsTables s) :
    KeepsTables (Text.trimRight (Text.dropTrailing ';' (Text.trim s))) :=
  h.trim.of_begins ((List.rdropWhile_prefix isBlank _).trans (List.rdropWhile_prefix (· = ';') _))

-- Other letters than D have no form of it.
theorem of_keyword {k : Char} {w : Text}
    (hk : ((letterForms k).all fun c => !isBlank c && !isLetter 'D' c) = true)
    (h : (keyword? (k :: w) s).isSome = true) : KeepsTables s ∧ s.first?.isSome = true := by
  obtain ⟨c, t, rfl, hform⟩ := exists_cons_of_spelled hk h
  rw [Bool.and_eq_true, Bool.not_eq_true', Bool.not_eq_true'] at hform
  obtain ⟨hblank, hletter⟩ := hform
  rw [KeepsTables, Text.first?_cons hblank]
  exact ⟨fun d hd => Option.some.inj hd ▸ hletter, rfl⟩

theorem of_upper {k : Char} {w : Text}
    (hk : ((letterForms 'D').all fun c => (Text.capital c).head?.any (· ≠ k)) = true)
    (h : Text.upper (s.takeWhile isWord) = k :: w) : KeepsTables s := by
  obtain ⟨c, t, rfl, hword, hother⟩ := Text.exists_of_upper h
  rw [KeepsTables, Text.first?_cons (not_isBlank_of_isWord hword)]
  exact fun d hd => Option.some.inj hd ▸ hother hk

end KeepsTables

/-! ## 2. Statements of a dump -/

namespace Statement

/-- A statement that is no DROP statement, if a plan can hold it. -/
def Keeps (s : Statement) : Prop := s.kind = .drop ∨ s.kind = .misc ∨ KeepsTables s.text

theorem Keeps.text {s : Statement} (h : s.Keeps) (hdrop : s.kind ≠ .drop) (hmisc : s.kind ≠ .misc) :
    KeepsTables s.text :=
  (h.resolve_left hdrop).resolve_left hmisc

theorem keeps_of_classify {text : Text} {s : Statement} (h : classify text = .ok s) : s.Keeps := by
  unfold classify at h
  dsimp only at h
  split at h
  · rename_i hinsert
    cases h
    exact Or.inr (Or.inr (.of_upper (by decide) hinsert))
  split at h
  · rename_i halter
    cases h
    exact Or.inr (Or.inr (.of_upper (by decide) halter))
  split at h
  · cases h
    exact Or.inl rfl
  split at h
  · rename_i hcreate
    split at h
    · rename_i word _
      rcases Segment.objectKind_cases word with ⟨kind, hkind⟩ | hkind <;> rw [hkind] at h <;> cases h
      exact Or.inr (Or.inr (.of_upper (by decide) hcreate))
    · cases h
      exact Or.inr (Or.inl rfl)
  · cases h
    exact Or.inr (Or.inl rfl)

-- A comment that only some versions read starts with a slash.
theorem keeps_of_skipVersion {text : Text}
    (h : (keyword? "CREATE" (skipVersion text)).isSome = true) : KeepsTables text := by
  unfold skipVersion at h
  split at h
  · rename_i r hcomment
    rw [Text.append_of_after? hcomment]
    intro c hc
    cases hc
    decide
  · exact (KeepsTables.of_keyword (by decide) h).1

theorem keeps_of_classifyRoutine {text : Text} {s : Statement}
    (h : classifyRoutine text = .ok s) : s.Keeps := by
  unfold classifyRoutine at h
  split at h
  · cases h
    exact Or.inr (Or.inl rfl)
  split at h
  · rename_i word hword
    obtain ⟨kind, -, h⟩ := bind_eq_ok.mp h
    cases h
    refine Or.inr (Or.inr ?_)
    obtain ⟨r, hcreate, -⟩ := Option.bind_eq_some_iff.mp hword
    exact keeps_of_skipVersion (CreateTable.isSome_of_word? (Option.isSome_of_mem hcreate))
  · cases h
    exact Or.inr (Or.inl rfl)

theorem keeps_of_split {account : Account} {sql : Text} {statements : List Statement}
    (h : split account sql = .ok statements) : ∀ s ∈ statements, s.Keeps := by
  intro s hs
  obtain ⟨delimiter, text, htext⟩ := Segment.read_of_split h hs
  cases delimiter with
  | none => exact keeps_of_classify htext
  | some _ => exact keeps_of_classifyRoutine htext

end Statement

/-! ## 3. What is made of statements -/

theorem KeepsTables.assign {account : Account} {text given : Text} (h : KeepsTables text)
    (hassign : Definer.assign account text = .ok given) : KeepsTables given := by
  unfold Definer.assign at hassign
  split at hassign
  · cases hassign
    exact h
  split at hassign
  · cases hassign
  split at hassign
  · cases hassign
    exact h
  · rename_i before r hclause
    cases hassign
    -- a clause starts with a D, so something else stands in front of it
    obtain ⟨t, rfl, hfound⟩ := Text.exists_of_search hclause
    obtain ⟨x, hx, -⟩ := Option.bind_eq_some_iff.mp hfound
    have hbefore : before.first?.isSome = true := by
      rw [Option.isSome_iff_ne_none]
      intro hnone
      have hd := h 'D' (by
        rw [Text.append_of_after? hx, Text.first?, List.find?_append, ← Text.first?, hnone]
        rfl)
      cases hd
    rw [List.append_assoc]
    exact (h.of_begins (List.prefix_append _ _)).append hbefore _

/-- An ALTER statement that is put together. -/
theorem keeps_alter (s : Text) : KeepsTables ("ALTER TABLE " ++ s) :=
  KeepsTables.append (by decide) (by decide) s

theorem Alter.exists_of_mem_singles {text single : Text} (h : single ∈ Alter.singles text) :
    single = text ∨ ∃ rest, single = "ALTER TABLE " ++ rest := by
  unfold Alter.singles at h
  split at h
  · exact Or.inl (List.mem_singleton.mp h)
  · dsimp only at h
    split at h
    · exact Or.inl (List.mem_singleton.mp h)
    · obtain ⟨change, -, rfl⟩ := List.mem_map.mp h
      rw [List.append_assoc, List.append_assoc]
      exact Or.inr ⟨_, rfl⟩

theorem CreateTable.exists_of_mem_alters {text : Text} :
    ∀ alter ∈ (CreateTable.relocateKeys text).alters, ∃ rest, alter = "ALTER TABLE " ++ rest := by
  unfold CreateTable.relocateKeys
  dsimp only
  split
  · exact fun _ h => (List.not_mem_nil h).elim
  · refine iteInduction (motive := fun (relocated : CreateTable.Relocated) =>
      ∀ alter ∈ relocated.alters, ∃ rest, alter = "ALTER TABLE " ++ rest)
      (fun _ _ h => (List.not_mem_nil h).elim) fun _ alter halter => ?_
    rcases List.mem_append.mp halter with halter | halter
    · obtain ⟨part, -, rfl⟩ := List.mem_map.mp halter
      rw [List.append_assoc, List.append_assoc]
      exact ⟨_, rfl⟩
    · obtain ⟨counter, -, rfl⟩ := List.mem_map.mp halter
      rw [List.append_assoc, List.append_assoc]
      exact ⟨_, rfl⟩

theorem KeepsTables.alterSingles {text : Text} (h : KeepsTables text) :
    ∀ single ∈ Alter.singles text, KeepsTables single := by
  intro single hsingle
  rcases Alter.exists_of_mem_singles hsingle with rfl | ⟨rest, rfl⟩
  · exact h
  · exact keeps_alter rest

theorem KeepsTables.relocateKeys {text : Text} (h : KeepsTables text) :
    KeepsTables (CreateTable.relocateKeys text).query ∧
      ∀ alter ∈ (CreateTable.relocateKeys text).alters, KeepsTables alter := by
  refine ⟨?_, fun alter halter => ?_⟩
  · unfold CreateTable.relocateKeys
    dsimp only
    split
    · exact h.trim
    · rename_i l hlayout
      refine iteInduction (motive := fun (relocated : CreateTable.Relocated) =>
        KeepsTables relocated.query) (fun _ => h.stripped) fun _ => ?_
      obtain ⟨front, gap, hquery, hframe, hgap, -, hheader⟩ := CreateTable.frame_of_layout? hlayout
      have hfront : KeepsTables front := h.stripped.of_begins (hquery ▸ List.prefix_append _ _)
      obtain ⟨u, c, hu, hc⟩ := hframe.ends
      have hfirst : front.first?.isSome = true := by
        rw [hu, Text.first?, List.find?_append, List.find?_singleton]
        simp [hc]
      rw [hheader, CreateTable.trimRight_header hframe hgap]
      simp only [List.append_assoc]
      exact hfront.append hfirst _
  · obtain ⟨rest, rfl⟩ := CreateTable.exists_of_mem_alters alter halter
    exact keeps_alter rest

-- A text of words starts with the first of them.
theorem spaced_starts (s : Text) : Text.spaced s = [] ∨
    ∃ c t, Text.spaced s = c :: t ∧ s.first? = some c ∧ isBlank c = false := by
  induction s with
  | nil => exact Or.inl rfl
  | cons c s ih =>
    cases hc : isBlank c with
    | true =>
      have hfirst : Text.first? (c :: s) = Text.first? s := by
        rw [Text.first?, List.find?_cons, hc]
        rfl
      rw [Text.spaced, Text.words_cons_blank hc, hfirst]
      exact ih
    | false =>
      right
      obtain ⟨w, ws, hwords⟩ : ∃ w ws, Text.words (c :: s) = (c :: w) :: ws := by
        unfold Text.words
        rw [if_neg (by rw [hc]; decide)]
        split
        · exact ⟨[], [], rfl⟩
        · split
          · exact ⟨[], _, rfl⟩
          · split
            · exact ⟨[], [], rfl⟩
            · exact ⟨_, _, rfl⟩
      rw [Text.spaced, hwords, Text.first?_cons hc]
      cases ws with
      | nil => exact ⟨c, w, List.intercalate_singleton .., rfl, hc⟩
      | cons next ws => exact ⟨c, _, Nesting.join_cons_cons .., rfl, hc⟩

/-- A part of a text that may be missing and otherwise starts with no D. -/
def KeepsTables.Part (s : Text) : Prop := s = [] ∨ KeepsTables s ∧ s.first?.isSome = true

theorem KeepsTables.Part.spaced {s : Text} (h : KeepsTables s) : Part (Text.spaced s) := by
  rcases spaced_starts s with hnil | ⟨c, t, hspaced, hfirst, hc⟩
  · exact Or.inl hnil
  · rw [hspaced]
    refine Or.inr ?_
    rw [KeepsTables, Text.first?_cons hc, ← hfirst]
    exact ⟨h, hfirst ▸ rfl⟩

theorem KeepsTables.Part.join (sep : Text) {solid : Text} {front rest : List Text}
    (hfront : ∀ part ∈ front, Part part) (hsolid : KeepsTables solid)
    (hfirst : solid.first?.isSome = true) :
    KeepsTables (Text.join sep ((front ++ solid :: rest).filter (!·.isEmpty))) := by
  induction front with
  | nil =>
    cases solid with
    | nil => cases hfirst
    | cons c s => exact hsolid.join hfirst sep _
  | cons part front ih =>
    obtain ⟨hpart, hrest⟩ := List.forall_mem_cons.mp hfront
    rcases hpart with rfl | ⟨hpart, hstarts⟩
    · exact ih hrest
    · cases part with
      | nil => cases hstarts
      | cons c s => exact hpart.join hstarts sep _

theorem keeps_columnList {s columns r : Text} (h : Insert.columnList? s = some (columns, r)) :
    KeepsTables.Part columns := by
  unfold Insert.columnList? at h
  split at h
  · split at h
    · cases h
      exact Or.inr ⟨fun c hc => by cases hc; decide, rfl⟩
    · cases h
  · cases h

theorem keeps_insertHead {query rows : Text} {head : Insert.Head} (h : KeepsTables query)
    (hread : Insert.head? query = some (head, rows)) :
    KeepsTables head.target ∧ KeepsTables.Part (head.columns.getD []) := by
  obtain ⟨s, -, hread⟩ := Option.bind_eq_some_iff.mp hread
  obtain ⟨⟨raw, r⟩, -, hread⟩ := List.exists_of_findSome?_eq_some hread
  dsimp only at hread
  split at hread
  · rename_i columns t hcolumns
    obtain ⟨_, -, hhead⟩ := Option.map_eq_some_iff.mp hread
    cases hhead
    exact ⟨h.of_begins (List.take_prefix _ _), keeps_columnList hcolumns⟩
  · obtain ⟨_, -, hhead⟩ := Option.map_eq_some_iff.mp hread
    cases hhead
    exact ⟨h.of_begins (List.take_prefix _ _), Or.inl rfl⟩

theorem KeepsTables.insertSingles {text : Text} (h : KeepsTables text) :
    ∀ single ∈ Insert.singles text, KeepsTables single := by
  unfold Insert.singles
  dsimp only
  split
  · simpa using h
  · simpa using h
  · rename_i head rows tail hread
    obtain ⟨⟨head', s⟩, hhead, hrows⟩ := Option.bind_eq_some_iff.mp hread
    obtain ⟨⟨rows', tail'⟩, -, hpure⟩ := Option.bind_eq_some_iff.mp hrows
    cases hpure
    have hquery := (h.trim.of_begins (List.rdropWhile_prefix (· = ';') _)).trim
    obtain ⟨htarget, hcolumns⟩ := keeps_insertHead hquery hhead
    intro single hsingle
    obtain ⟨row, -, rfl⟩ := List.mem_map.mp hsingle
    have hfront : ∀ part ∈ [Text.spaced head'.target, head'.columns.getD []],
        KeepsTables.Part part := by
      simpa using ⟨.spaced htarget, hcolumns⟩
    have hvalues : KeepsTables "VALUES" := by decide
    exact KeepsTables.Part.join " ".toList hfront hvalues (by decide)

theorem KeepsTables.createIfNotExists {query : Text} (h : KeepsTables query) :
    KeepsTables (Plan.createIfNotExists query) := by
  unfold Plan.createIfNotExists
  split
  · exact KeepsTables.append (by decide) (by decide) _
  · exact h

/-! ## 4. Dumps and plans -/

/-- Nothing in a dump but its own DROP statements drops tables. -/
structure Dump.Keeping (dump : Dump) : Prop where
  functions : ∀ query ∈ dump.functions, KeepsTables query
  procedures : ∀ query ∈ dump.procedures, KeepsTables query
  triggers : ∀ query ∈ dump.triggers, KeepsTables query
  tables : ∀ table, ∀ query ∈ (dump.tables.get? table).getD [], KeepsTables query
  alters : ∀ alter ∈ dump.alters, KeepsTables alter
  views : ∀ query ∈ dump.views, KeepsTables query
  inserts : ∀ table, ∀ query ∈ (dump.inserts.get? table).getD [], KeepsTables query

namespace Dump.Keeping

variable {account : Account} {dump dump' : Dump}

theorem forall_mem_push {m : Ordered (List Text)} {name q : Text} {P : Text → Prop}
    (h : ∀ table, ∀ query ∈ (m.get? table).getD [], P query) (hq : P q) :
    ∀ table, ∀ query ∈ ((m.push name q).get? table).getD [], P query := by
  intro table query hquery
  rw [getD_push] at hquery
  rcases List.mem_append.mp hquery with hquery | hquery
  · exact h table query hquery
  · split at hquery
    · exact List.mem_singleton.mp hquery ▸ hq
    · cases hquery

theorem mem_of_mem_filter {m : Ordered (List Text)} {p : Text → Bool} {name query : Text}
    (h : query ∈ (Ordered.get? (m.filter fun entry => p entry.1) name).getD []) :
    p name = true ∧ query ∈ (m.get? name).getD [] := by
  rw [Ordered.get?_filter] at h
  split at h
  · exact ⟨‹_›, h⟩
  · cases h

theorem forall_mem_filter {m : Ordered (List Text)} {P : Text → Prop}
    (h : ∀ table, ∀ query ∈ (m.get? table).getD [], P query) (p : Text → Bool) :
    ∀ table, ∀ query ∈ (Ordered.get? (m.filter fun entry => p entry.1) table).getD [], P query :=
  fun table query hquery => h table query (mem_of_mem_filter hquery).2

theorem forall_mem_concat {l : List Text} {q : Text} (h : ∀ query ∈ l, KeepsTables query)
    (hq : KeepsTables q) : ∀ query ∈ l ++ [q], KeepsTables query :=
  List.forall_mem_append.mpr ⟨h, List.forall_mem_singleton.mpr hq⟩

theorem add {s : Statement} (h : dump.Keeping) (hs : s.Keeps)
    (hadd : Dump.add account dump s = .ok dump') : dump'.Keeping := by
  obtain ⟨kind, name, text⟩ := s
  unfold Dump.add at hadd
  cases kind with
  | drop | misc =>
    cases hadd
    exact { h with }
  | insert =>
    have htext : KeepsTables text := hs.text nofun nofun
    dsimp only at hadd
    split at hadd <;> cases hadd
    · exact { h with }
    · exact { h with inserts := forall_mem_push h.inserts htext }
  | alter =>
    have htext : KeepsTables text := hs.text nofun nofun
    cases hadd
    exact { h with alters := List.forall_mem_append.mpr ⟨h.alters, htext.alterSingles⟩ }
  | createTable =>
    have htext : KeepsTables text := hs.text nofun nofun
    obtain ⟨hquery, halters⟩ := htext.relocateKeys
    dsimp only at hadd
    split at hadd <;> cases hadd
    · exact { h with }
    · exact { h with
        tables := forall_mem_push h.tables hquery
        alters := List.forall_mem_append.mpr ⟨h.alters, halters⟩ }
  | createView =>
    have htext : KeepsTables text := hs.text nofun nofun
    obtain ⟨given, hgiven, hadd⟩ := bind_eq_ok.mp hadd
    cases hadd
    exact { h with views := forall_mem_concat h.views (htext.assign hgiven) }
  | createFunction =>
    have htext : KeepsTables text := hs.text nofun nofun
    obtain ⟨given, hgiven, hadd⟩ := bind_eq_ok.mp hadd
    cases hadd
    exact { h with functions := forall_mem_concat h.functions (htext.assign hgiven) }
  | createProcedure =>
    have htext : KeepsTables text := hs.text nofun nofun
    obtain ⟨given, hgiven, hadd⟩ := bind_eq_ok.mp hadd
    cases hadd
    exact { h with procedures := forall_mem_concat h.procedures (htext.assign hgiven) }
  | createTrigger =>
    have htext : KeepsTables text := hs.text nofun nofun
    obtain ⟨given, hgiven, hadd⟩ := bind_eq_ok.mp hadd
    cases hadd
    exact { h with triggers := forall_mem_concat h.triggers (htext.assign hgiven) }

theorem foldlM_add {statements : List Statement} (hstatements : ∀ s ∈ statements, s.Keeps)
    (h : dump.Keeping) (hfold : statements.foldlM (Dump.add account) dump = .ok dump') :
    dump'.Keeping := by
  induction statements generalizing dump with
  | nil =>
    cases hfold
    exact h
  | cons s statements ih =>
    obtain ⟨hs, hrest⟩ := List.forall_mem_cons.mp hstatements
    rw [List.foldlM_cons] at hfold
    obtain ⟨next, hadd, hfold⟩ := bind_eq_ok.mp hfold
    exact ih hrest (h.add hs hadd) hfold

theorem of_parse {sql : Text} (h : Dump.parse account sql = .ok dump) : dump.Keeping := by
  obtain ⟨statements, hsplit, h⟩ := bind_eq_ok.mp h
  obtain ⟨collected, hfold, h⟩ := bind_eq_ok.mp h
  cases h
  have hempty : Keeping {} := by
    constructor <;> exact fun _ => nofun
  exact { foldlM_add (Statement.keeps_of_split hsplit) hempty hfold with }

theorem excludeExisting (h : dump.Keeping) (existing : Ordered (List Text)) (routines : List Text) :
    (Plan.excludeExisting dump existing routines).Keeping := by
  rw [Plan.excludeExisting_eq]
  exact {
    functions := fun query hquery => h.functions query (List.mem_of_mem_filter hquery)
    procedures := fun query hquery => h.procedures query (List.mem_of_mem_filter hquery)
    triggers := fun query hquery => h.triggers query (List.mem_of_mem_filter hquery)
    views := h.views
    alters := by
      refine List.forall_mem_append.mpr ⟨fun alter halter => ?_, h.alters⟩
      obtain ⟨table, -, halter⟩ := List.mem_flatMap.mp halter
      obtain ⟨column, -, rfl⟩ := List.mem_map.mp halter
      simp only [List.append_assoc]
      exact KeepsTables.append (by decide) (by decide) _
    tables := forall_mem_filter h.tables (!(Plan.present dump existing).contains ·)
    inserts := forall_mem_filter h.inserts (!(Plan.present dump existing).contains ·) }

end Dump.Keeping

theorem Dump.ne_nil_of_mem_views {account : Account} {sql : Text} {dump : Dump}
    (h : Dump.parse account sql = .ok dump) {view : Text} (hview : view ∈ dump.names.views) :
    view ≠ [] := by
  obtain ⟨statements, -, h⟩ := bind_eq_ok.mp h
  obtain ⟨collected, -, h⟩ := bind_eq_ok.mp h
  cases h
  have hfilled := (List.mem_filter.mp hview).2
  rintro rfl
  cases hfilled

namespace Plan

/-- The statement that clears the place of a view. -/
def placeholderDrop (view : Text) : Text := "DROP TABLE IF EXISTS `" ++ view ++ "`"

theorem drops_views (views : List Text) : drops views [] [] = views.map placeholderDrop := by
  rw [drops, List.map_nil, List.map_nil, List.append_nil, List.append_nil]
  rfl

theorem keeps_of_mem_creates {dump : Dump} (h : dump.Keeping) {table statement : Text}
    (hmem : statement ∈ createsOf dump false table) : KeepsTables statement := by
  obtain ⟨query, hquery, rfl⟩ := List.mem_map.mp hmem
  exact (h.tables table query hquery).createIfNotExists

theorem keeps_of_mem_inserts {dump : Dump} (h : dump.Keeping) {mode : InsertMode}
    {table statement : Text} (hmem : statement ∈ insertsOf dump mode table) :
    KeepsTables statement := by
  cases mode with
  | none => cases hmem
  | multi => exact h.inserts table statement hmem
  | single =>
    obtain ⟨query, hquery, hmem⟩ := List.mem_flatMap.mp hmem
    exact (h.inserts table query hquery).insertSingles statement hmem

/-- A plan without the dump's own DROP statements drops tables only in the places of views. -/
theorem mem_build_keeping {dump : Dump} (h : dump.Keeping) {mode : InsertMode} {statement : Text}
    (hmem : statement ∈ build dump mode false) :
    KeepsTables statement ∨ ∃ view ∈ dump.names.views, statement = placeholderDrop view := by
  rw [build_eq] at hmem
  simp only [opening, closing, drops_views, List.mem_append, List.mem_flatMap, List.mem_map,
    Bool.false_eq_true, if_false, List.not_mem_nil, false_or] at hmem
  rcases hmem with
    ((((⟨table, -, hcreate⟩ | hfunction | hprocedure) | hkey) | hforeign) |
      (htrigger | ⟨view, hview, rfl⟩) | hview) | ⟨table, -, hinsert⟩
  · exact Or.inl (keeps_of_mem_creates h hcreate)
  · exact Or.inl (h.functions statement hfunction)
  · exact Or.inl (h.procedures statement hprocedure)
  · exact Or.inl (h.alters statement (List.mem_of_mem_filter hkey))
  · exact Or.inl (h.alters statement (List.mem_of_mem_filter hforeign))
  · exact Or.inl (h.triggers statement htrigger)
  · exact Or.inr ⟨view, hview, rfl⟩
  · exact Or.inl (h.views statement hview)
  · exact Or.inl (keeps_of_mem_inserts h hinsert)

theorem placeholderDrop_mem_build {dump : Dump} {mode : InsertMode} {view : Text}
    (hview : view ∈ dump.names.views) : placeholderDrop view ∈ build dump mode false := by
  rw [build_eq, closing, drops_views]
  simp only [List.mem_append, List.mem_map]
  exact Or.inl (Or.inr (Or.inl (Or.inr ⟨view, hview, rfl⟩)))

end Plan

/-- The place of a view is cleared of a table of the same name. -/
theorem droppedTables_placeholderDrop {view : Text} (hne : view ≠ [])
    (hmarks : ∀ c ∈ view, isNameMark c = false) :
    droppedTables (Plan.placeholderDrop view) = [view] := by
  have hfree : '\x60' ∉ view := fun hmem => absurd (hmarks _ hmem) (by decide)
  have hname : Identifier.Qualified ('\x60' :: view ++ ['\x60']) :=
    .plain (.quoted (by decide) hne hfree)
  have hread := hname.read ⟨.nil, rfl⟩
  rw [List.append_nil] at hread
  have hnames : droppedNames? (Plan.placeholderDrop view) =
      some ('\x60' :: view ++ ['\x60']) := rfl
  rw [droppedTables, hnames]
  dsimp only
  rw [List.cons_append, List.length_cons, nameList, ← List.cons_append, hread]
  dsimp only
  rw [Identifier.bare_quoted (by decide) hne hmarks]
  rfl

end SqlDump
