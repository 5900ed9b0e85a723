import SqlDump.Proofs.NamedTables

/-!
# Statements that leave an existing table alone

A plan that drops nothing gives each CREATE TABLE statement the head IF NOT EXISTS. Blanks behind a
statement change neither its name nor its body, and with the new head the name and the body are read
where they were read before. Only a statement that had the head and no name behind it is named by
the first word of the head, which is then written in capitals.
-/

namespace SqlDump

open Outcome

/-! ## 1. Blanks behind a statement -/

namespace Nesting

theorem closing?_eq_none {x : Text} (hx : ')' ∉ x) (q : Quoting) (d : Nat) :
    closing? q d x = none := by
  induction x generalizing q d with
  | nil => rfl
  | cons c x ih =>
    rw [List.mem_cons, not_or] at hx
    rw [closing?_cons (by simp [Ne.symm hx.1]), ih hx.2]
    rfl

-- What closes no group neither closes one that is open nor changes where it is closed.
theorem closing?_append {x : Text} (hx : ')' ∉ x) (q : Quoting) (d : Nat) (s : Text) :
    closing? q d (s ++ x) = (closing? q d s).map fun p => (p.1, p.2 ++ x) := by
  induction s generalizing q d with
  | nil => exact closing?_eq_none hx q d
  | cons c s ih =>
    rw [List.cons_append]
    cases hclose : q.isOutside && decide (c = ')') with
    | false =>
      rw [closing?_cons hclose, closing?_cons hclose, ih, Option.map_map, Option.map_map]
      rfl
    | true =>
      obtain ⟨hout, hc⟩ := Bool.and_eq_true_iff.mp hclose
      obtain rfl : c = ')' := of_decide_eq_true hc
      cases q with
      | inside mark escaped => cases hout
      | outside =>
        cases d with
        | zero => rw [closing?_zero, closing?_zero, Option.map_some]
        | succ d =>
          rw [closing?_succ, closing?_succ, ih, Option.map_map, Option.map_map]
          rfl

theorem group?_eq_none_of_ne {s : Text} (h : ∀ r, s ≠ '(' :: r) : group? s = none := by
  unfold group?
  split
  · exact absurd rfl (h _)
  · rfl

theorem group?_append_blank {x : Text} (hx : ∀ c ∈ x, isBlank c = true) (s : Text) :
    group? (s ++ x) = (group? s).map fun p => (p.1, p.2 ++ x) := by
  have hopen : '(' ∉ x := fun h => absurd (hx _ h) (by decide)
  have hclose : ')' ∉ x := fun h => absurd (hx _ h) (by decide)
  cases s with
  | nil =>
    refine group?_eq_none_of_ne fun r hr => hopen ?_
    rw [show x = '(' :: r from hr]
    exact List.mem_cons_self
  | cons c s =>
    by_cases hc : c = '('
    · subst hc
      exact closing?_append hclose .outside 0 s
    · have hnone : ∀ t, group? (c :: t) = none := fun t =>
        group?_eq_none_of_ne fun r hr => hc (List.cons.inj hr).1
      rw [List.cons_append, hnone, hnone]
      rfl

end Nesting

/-- Whether a reader takes the same front off a text, whatever stands behind that, as long as it
starts with no blank. -/
def TakesFront (f : Text → Option Text) : Prop :=
  ∀ s r, f s = some r → Flush r ∧ ∃ u, s = u ++ r ∧ ∀ t, Flush t → f (u ++ t) = some t

namespace TakesFront

variable {f : Text → Option Text} {x : Text}

theorem phraseGap {ws : List Text} (hws : ∀ w ∈ ws, w ≠ []) :
    TakesFront fun s => phrase? ws s >>= gap? := by
  intro s r h
  obtain ⟨_, -, hgap⟩ := Option.bind_eq_some_iff.mp h
  exact ⟨flush_of_gap? hgap, front_of_phraseGap? hws h⟩

theorem createTable : TakesFront createTable? := by
  intro s r h
  obtain ⟨_, -, hr⟩ := Option.bind_eq_some_iff.mp h
  obtain ⟨_, -, hgap⟩ := Option.bind_eq_some_iff.mp hr
  exact ⟨flush_of_gap? hgap, CreateTable.front_of_createTable? h⟩

theorem append (front : TakesFront f) {s r : Text} (h : f s = some r) (hr : r ≠ []) :
    f (s ++ x) = some (r ++ x) := by
  obtain ⟨hflush, u, rfl, hu⟩ := front s r h
  obtain ⟨c, t, rfl⟩ := List.exists_cons_of_ne_nil hr
  rw [List.append_assoc]
  exact hu _ (.cons (Text.not_isBlank_of_trimLeft hflush) (t ++ x))

-- What is left starts with no blank, so it does not start in the blanks behind the text.
theorem of_append (front : TakesFront f) (hx : ∀ c ∈ x, isBlank c = true) {s r : Text}
    (h : f (s ++ x) = some r) (hr : r ≠ []) : ∃ r', r' ≠ [] ∧ r = r' ++ x ∧ f s = some r' := by
  obtain ⟨hflush, u, hu, hread⟩ := front _ _ h
  obtain ⟨c, t, rfl⟩ := List.exists_cons_of_ne_nil hr
  have hc := Text.not_isBlank_of_trimLeft hflush
  rcases List.append_eq_append_iff.mp hu with ⟨y, -, rfl⟩ | ⟨y, rfl, hy⟩
  · have := hx c (List.mem_append_right y List.mem_cons_self)
    rw [hc] at this
    cases this
  · cases y with
    | nil =>
      obtain rfl : c :: t = x := hy
      have := hx c List.mem_cons_self
      rw [hc] at this
      cases this
    | cons d y =>
      obtain ⟨rfl, -⟩ := List.cons.inj hy
      exact ⟨c :: y, List.cons_ne_nil _ _, hy, hread _ (.cons hc y)⟩

/-- What is read behind a front does not depend on blanks behind the text. -/
theorem bind_append (front : TakesFront f) (hx : ∀ c ∈ x, isBlank c = true)
    {g : Text → Option (Text × Text)} (hnil : g [] = none)
    (hg : ∀ s, g (s ++ x) = (g s).map fun p => (p.1, p.2 ++ x)) (s : Text) :
    (f (s ++ x) >>= g) = (f s >>= g).map fun p => (p.1, p.2 ++ x) := by
  cases hs : f s with
  | some r =>
    by_cases hr : r = []
    · subst hr
      have hread : (f (s ++ x) >>= g) = none := by
        cases hread : f (s ++ x) with
        | none => rfl
        | some r' =>
          by_cases hr' : r' = []
          · subst hr'
            exact hnil
          · obtain ⟨r'', hne, -, h⟩ := front.of_append hx hread hr'
            exact absurd (Option.some.inj (h.symm.trans hs)) hne
      rw [hread]
      show none = (g []).map _
      rw [hnil]
      rfl
    · rw [front.append hs hr]
      exact hg r
  | none =>
    cases hread : f (s ++ x) with
    | none => rfl
    | some r =>
      by_cases hr : r = []
      · subst hr
        exact hnil
      · obtain ⟨r', -, -, h⟩ := front.of_append hx hread hr
        rw [hs] at h
        cases h

end TakesFront

namespace CreateTable

variable {x : Text}

theorem nameBehind?_append {ws : List Text} (hws : ∀ w ∈ ws, w ≠ [])
    (hx : ∀ c ∈ x, isBlank c = true) (s : Text) :
    nameBehind? ws (s ++ x) = (nameBehind? ws s).map fun p => (p.1, p.2 ++ x) := by
  have hread := Identifier.qualified?_append (.of_isBlank hx)
  have hbehind := (TakesFront.phraseGap hws).bind_append hx rfl hread s
  unfold nameBehind?
  rw [hbehind, hread]
  cases phrase? ws s >>= gap? >>= Identifier.qualified? <;> rfl

/-- The name of a table is read in front of blanks as it is without them. -/
theorem createdTable?_append (hx : ∀ c ∈ x, isBlank c = true) (s : Text) :
    createdTable? (s ++ x) = (createdTable? s).map fun p => (p.1, p.2 ++ x) :=
  TakesFront.createTable.bind_append hx (by decide)
    (nameBehind?_append (by simp) hx) s

/-! ## 2. What a statement defines -/

/-- The parts of the body directly behind a name, if there is one. -/
def bodyBehind (s : Text) : List Text :=
  match Nesting.group? (Text.trimLeft s) with
  | some (body, _) => bodyParts body
  | none => []

theorem bodyBehind_append (hx : ∀ c ∈ x, isBlank c = true) (s : Text) :
    bodyBehind (s ++ x) = bodyBehind s := by
  unfold bodyBehind
  cases hs : Text.trimLeft s with
  | nil =>
    have hblank := List.dropWhile_eq_nil_iff.mp hs
    have htrim : Text.trimLeft (s ++ x) = [] :=
      List.dropWhile_eq_nil_iff.mpr (List.forall_mem_append.mpr ⟨hblank, hx⟩)
    rw [htrim]
  | cons c t =>
    rw [show Text.trimLeft (s ++ x) = c :: t ++ x from (Token.span_append hs x).2,
      Nesting.group?_append_blank hx]
    cases Nesting.group? (c :: t) <;> rfl

theorem exists_trim_append (query : Text) :
    ∃ x, (∀ c ∈ x, isBlank c = true) ∧ Text.trimLeft query = Text.trim query ++ x := by
  obtain ⟨x, hquery, hx⟩ := Text.exists_trimRight (Text.trimLeft query)
  exact ⟨x, hx, hquery⟩

/-- The name of a statement and the parts of its body are what is read from its beginning on. -/
theorem nameIn_eq (query : Text) : Kind.createTable.nameIn query =
    (createdTable? (Text.trimLeft query)).map fun p => Identifier.bare p.1 := by
  obtain ⟨x, hx, hquery⟩ := exists_trim_append query
  rw [hquery, createdTable?_append hx, Option.map_map]
  rfl

theorem parts_eq (query : Text) : parts query =
    match createdTable? (Text.trimLeft query) with
    | some (_, rest) => bodyBehind rest
    | none => [] := by
  obtain ⟨x, hx, hquery⟩ := exists_trim_append query
  rw [hquery, createdTable?_append hx]
  unfold parts layout?
  cases createdTable? (Text.trim query) with
  | none => rfl
  | some p =>
    obtain ⟨raw, rest⟩ := p
    show _ = bodyBehind (rest ++ x)
    rw [bodyBehind_append hx, bodyBehind]
    dsimp only
    rw [Option.bind_eq_bind, Option.bind_some]
    cases Nesting.group? (Text.trimLeft rest) <;> rfl

end CreateTable

/-! ## 3. The head IF NOT EXISTS -/

namespace Plan

/-- The head that leaves an existing table alone. -/
def keepingHead : Text := "CREATE TABLE IF NOT EXISTS "

/-- What follows the words IF NOT EXISTS and the gap behind them, if a statement has them. -/
def behindHead? (query : Text) : Option Text := do
  let r ← createTable? (Text.trimLeft query)
  phrase? ["IF", "NOT", "EXISTS"] r >>= gap?

/-- Whether no name follows the words IF NOT EXISTS of a statement. -/
def IsNameless (query : Text) : Prop :=
  (behindHead? query).any (fun t => (Identifier.qualified? t).isNone) = true

instance (query : Text) : Decidable (IsNameless query) := inferInstanceAs (Decidable (_ = true))

theorem flush_of_createTable? {s r : Text} (h : createTable? s = some r) : Flush r :=
  (TakesFront.createTable s r h).1

theorem flush_skipPhrase {r : Text} (hr : Flush r) {ws : List Text} (hws : ∀ w ∈ ws, w ≠ []) :
    Flush (skipPhrase ws r) := by
  unfold skipPhrase
  cases h : phrase? ws r >>= gap? with
  | none => exact hr
  | some t => exact (TakesFront.phraseGap hws r t h).1

theorem exists_of_skipPhrase {ws : List Text} (hws : ∀ w ∈ ws, w ≠ []) (r : Text) :
    ∃ w, r = w ++ skipPhrase ws r ∧ skipPhrase ws w = [] := by
  unfold skipPhrase
  cases h : phrase? ws r >>= gap? with
  | none =>
    refine ⟨[], rfl, ?_⟩
    cases hnil : phrase? ws [] >>= gap? with
    | none => rfl
    | some t =>
      obtain ⟨w, hw, -⟩ := front_of_phraseGap? hws hnil
      exact (List.append_eq_nil_iff.mp hw.symm).2
  | some t =>
    obtain ⟨w, rfl, hread⟩ := front_of_phraseGap? hws h
    have hend := hread [] rfl
    rw [List.append_nil] at hend
    exact ⟨w, rfl, by rw [hend]; rfl⟩

section

variable {query name s t r raw rest : Text}

theorem createIfNotExists_eq (h : createTable? (Text.trimLeft query) = some r) :
    createIfNotExists query = keepingHead ++ skipPhrase ["IF", "NOT", "EXISTS"] r := by
  unfold createIfNotExists
  rw [h]
  rfl

theorem skipPhrase_keepingHead (ht : Flush t) :
    skipPhrase ["IF", "NOT", "EXISTS"] ("IF NOT EXISTS " ++ t) = t := ht

theorem createIfNotExists_keepingHead (ht : Flush t) :
    createIfNotExists (keepingHead ++ t) = keepingHead ++ t := by
  have hcreate : createTable? (Text.trimLeft (keepingHead ++ t)) =
      some (("IF NOT EXISTS " : Text) ++ t) := rfl
  rw [createIfNotExists_eq hcreate, skipPhrase_keepingHead ht]

/-- Behind the head a name is looked for first, and else the first word of it is the name. -/
theorem createdTable?_keepingHead (ht : Flush t) : createdTable? (keepingHead ++ t) =
    some ((Identifier.qualified? t).getD (("IF" : Text), (" NOT EXISTS " : Text) ++ t)) := by
  have hcreate : createTable? (keepingHead ++ t) = some (("IF NOT EXISTS " : Text) ++ t) := rfl
  have hphrase : (phrase? ["IF", "NOT", "EXISTS"] ("IF NOT EXISTS " ++ t) >>= gap?) = some t :=
    congrArg some ht
  have hfirst : Identifier.qualified? ("IF NOT EXISTS " ++ t) =
      some (("IF" : Text), (" NOT EXISTS " : Text) ++ t) := rfl
  unfold createdTable? nameBehind?
  rw [hcreate]
  show ((phrase? ["IF", "NOT", "EXISTS"] ("IF NOT EXISTS " ++ t) >>= gap? >>=
    Identifier.qualified?) <|> Identifier.qualified? ("IF NOT EXISTS " ++ t)) = _
  rw [hphrase, hfirst]
  show (Identifier.qualified? t <|> _) = _
  cases Identifier.qualified? t <;> rfl

-- A text with the phrase IF NOT EXISTS at its front is named by the first word of it.
theorem keyword?_of_phrase (hphrase : (phrase? ["IF", "NOT", "EXISTS"] s >>= gap?) = some t)
    (hraw : Identifier.qualified? s = some (raw, rest)) :
    keyword? "IF" (Identifier.bare raw) = some [] := by
  rw [phrase?_cons_cons] at hphrase
  obtain ⟨x, hphrase, -⟩ := Option.bind_eq_some_iff.mp hphrase
  obtain ⟨b, hif, hnot⟩ := Option.bind_eq_some_iff.mp hphrase
  obtain ⟨a, hif, hgap⟩ := Option.bind_eq_some_iff.mp hif
  obtain ⟨u, rfl, hlength, hall, hread⟩ :=
    exists_of_spelled (show spelledIn isNameChar ['I', 'F'] = true by decide +kernel) hif
  obtain ⟨hb, c, v, hcv, hc⟩ := gap?_eq_some hgap
  have hne : u ≠ [] := by
    rintro rfl
    cases hlength
  have hstop : Identifier.NoNameChar a := by
    rw [hcv]
    exact .cons (not_isNameChar_of_isBlank hc) v
  have hdot : Identifier.dotted? a = none := by
    rw [Identifier.dotted?, Identifier.dot?_eq_none]
    · rfl
    · intro r hr
      rw [hb.trans hr] at hnot
      cases hnot
  rw [Identifier.Name.read_plain (.bare hne hall) hstop hdot] at hraw
  cases hraw
  have hempty := hread []
  rw [List.append_nil] at hempty
  rw [Identifier.bare_eq_self hne hall]
  exact hempty

-- In front of a body a name is not taken for the phrase.
theorem bodyBehind_of_phrase (hphrase : (phrase? ["IF", "NOT", "EXISTS"] s >>= gap?) = some t)
    (hraw : Identifier.qualified? s = some (raw, rest)) : CreateTable.bodyBehind rest = [] := by
  obtain ⟨hqualified, rfl⟩ := Identifier.Qualified.of_read? hraw
  have hgroup : Nesting.group? (Text.trimLeft rest) = none := by
    refine Nesting.group?_eq_none_of_ne fun r hr => ?_
    rw [CreateTable.phrase?_of_qualified hqualified ⟨r, hr⟩] at hphrase
    cases hphrase
  rw [CreateTable.bodyBehind, hgroup]

theorem trimLeft_createIfNotExists (h : createdTable? (Text.trimLeft query) = some (raw, rest)) :
    Text.trimLeft (createIfNotExists query) = createIfNotExists query := by
  obtain ⟨r, hcreate, -⟩ := Option.bind_eq_some_iff.mp h
  rw [createIfNotExists_eq hcreate]
  rfl

/-- With the head a statement is read as before, unless no name follows its own words IF NOT EXISTS:
then the first of these is its name, it has no body, and the name is put in capitals. -/
theorem createdTable?_createIfNotExists
    (h : createdTable? (Text.trimLeft query) = some (raw, rest)) :
    (¬ IsNameless query ∧ createdTable? (createIfNotExists query) = some (raw, rest)) ∨
      IsNameless query ∧ keyword? "IF" (Identifier.bare raw) = some [] ∧
        CreateTable.bodyBehind rest = [] ∧
        ∃ t, createdTable? (createIfNotExists query) =
          some (("IF" : Text), (" NOT EXISTS " : Text) ++ t) := by
  obtain ⟨r, hcreate, hname⟩ := Option.bind_eq_some_iff.mp h
  have hr := flush_of_createTable? hcreate
  have hbehind : behindHead? query = (phrase? ["IF", "NOT", "EXISTS"] r >>= gap?) := by
    rw [behindHead?, hcreate]
    rfl
  rw [createIfNotExists_eq hcreate, createdTable?_keepingHead (flush_skipPhrase hr (by simp)),
    IsNameless, hbehind, skipPhrase]
  cases hphrase : phrase? ["IF", "NOT", "EXISTS"] r >>= gap? with
  | none =>
    rw [nameBehind?, hphrase] at hname
    rw [Option.getD_none, show Identifier.qualified? r = some (raw, rest) from hname]
    exact Or.inl ⟨by simp, rfl⟩
  | some t =>
    rw [nameBehind?, hphrase] at hname
    rw [Option.getD_some, Option.any_some]
    rcases orElse_eq_some.mp hname with hname | ⟨hnone, hname⟩
    · rw [show Identifier.qualified? t = some (raw, rest) from hname]
      exact Or.inl ⟨by simp, rfl⟩
    · rw [show Identifier.qualified? t = none from hnone]
      exact Or.inr ⟨rfl, keyword?_of_phrase hphrase hname, bodyBehind_of_phrase hphrase hname, t, rfl⟩

/-- The name of a statement stays, but for that. -/
theorem nameIn_createIfNotExists (h : Kind.createTable.nameIn query = some name) :
    (¬ IsNameless query ∧ Kind.createTable.nameIn (createIfNotExists query) = some name) ∨
      IsNameless query ∧ keyword? "IF" name = some [] ∧
        Kind.createTable.nameIn (createIfNotExists query) = some ("IF" : Text) := by
  rw [CreateTable.nameIn_eq, Option.map_eq_some_iff] at h
  obtain ⟨⟨raw, rest⟩, hread, rfl⟩ := h
  rw [CreateTable.nameIn_eq, trimLeft_createIfNotExists hread]
  rcases createdTable?_createIfNotExists hread with ⟨hnamed, hsame⟩ | ⟨hnameless, hif, -, t, hfirst⟩
  · rw [hsame]
    exact Or.inl ⟨hnamed, rfl⟩
  · rw [hfirst]
    exact Or.inr ⟨hnameless, hif, rfl⟩

theorem nameIn_createIfNotExists_iff (h : Kind.createTable.nameIn query = some name) :
    Kind.createTable.nameIn (createIfNotExists query) = some name ↔
      (IsNameless query → name = "IF") := by
  rcases nameIn_createIfNotExists h with ⟨hnamed, hsame⟩ | ⟨hnameless, -, hfirst⟩
  · exact ⟨fun _ hnameless => absurd hnameless hnamed, fun _ => hsame⟩
  · constructor
    · intro hsame _
      exact Option.some.inj (hsame.symm.trans hfirst)
    · intro hif
      rw [hif hnameless]
      exact hfirst

/-- The parts of the body stay. -/
theorem parts_createIfNotExists (h : Kind.createTable.nameIn query = some name) :
    CreateTable.parts (createIfNotExists query) = CreateTable.parts query := by
  rw [CreateTable.nameIn_eq, Option.map_eq_some_iff] at h
  obtain ⟨⟨raw, rest⟩, hread, rfl⟩ := h
  rw [CreateTable.parts_eq, CreateTable.parts_eq, trimLeft_createIfNotExists hread, hread]
  rcases createdTable?_createIfNotExists hread with ⟨-, hsame⟩ | ⟨-, -, hbody, t, hfirst⟩
  · rw [hsame]
  · rw [hfirst]
    exact hbody.symm

/-- The head takes the place of a header, and what follows stays. -/
theorem exists_header (h : createTable? (Text.trimLeft query) = some r) :
    ∃ header rest, Text.trimLeft query = header ++ rest ∧
      createIfNotExists query = keepingHead ++ rest ∧ createIfNotExists header = keepingHead := by
  obtain ⟨hr, u, hu, hfront⟩ := TakesFront.createTable _ _ h
  obtain ⟨w, hw, hskip⟩ := @exists_of_skipPhrase ["IF", "NOT", "EXISTS"] (by simp) r
  have hheader : Text.trimLeft query = u ++ w ++ skipPhrase ["IF", "NOT", "EXISTS"] r := by
    rw [List.append_assoc, ← hw]
    exact hu
  have hflush : Flush (u ++ w) :=
    Flush.of_begins (Text.trimLeft_trimLeft query) ⟨_, hheader.symm⟩
  have hcreate : createTable? (Text.trimLeft (u ++ w)) = some w := by
    rw [hflush]
    exact hfront w (hr.of_begins ⟨_, hw.symm⟩)
  refine ⟨u ++ w, _, hheader, createIfNotExists_eq h, ?_⟩
  rw [createIfNotExists_eq hcreate, hskip, List.append_nil]

end

theorem creates_keeping (dump : Dump) :
    creates dump false = (creates dump true).map createIfNotExists := by
  rw [creates, creates, List.map_map]
  rfl

/-- **The head IF NOT EXISTS.** A statement that leaves an existing table alone differs from the
statement of the dump in its header only. It has the same columns, keys and model, and is left as it
is when it is given the head again; its name is the same too, unless no name follows the words IF NOT
EXISTS of the statement. The plan of a dump that drops what exists and the plan that does not differ
in the drops and in these headers. -/
theorem createIfNotExists_defines (query : Text) (account : Account) (sql : Text)
    (mode : InsertMode) :
    (∀ name, Kind.createTable.nameIn query = some name →
      let created := createIfNotExists query
      (∃ header rest, Text.trimLeft query = header ++ rest ∧ created = keepingHead ++ rest ∧
        createIfNotExists header = keepingHead) ∧
      (Kind.createTable.nameIn created = some name ↔ (IsNameless query → name = "IF")) ∧
      (IsNameless query → keyword? "IF" name = some [] ∧
        Kind.createTable.nameIn created = some ("IF" : Text)) ∧
      CreateTable.columnTexts created = CreateTable.columnTexts query ∧
      CreateTable.keyLines created = CreateTable.keyLines query ∧
      (∀ table, Table.ofCreate table created = Table.ofCreate table query) ∧
      createIfNotExists created = created) ∧
    ∀ dump, Dump.parse account sql = .ok dump → ∃ rest,
      build dump mode true = dump.drops ++ creates dump true ++ rest ∧
      build dump mode false = (creates dump true).map createIfNotExists ++ rest ∧
      ∀ query ∈ creates dump true, ∃ name ∈ dump.order,
        Kind.createTable.nameIn query = some name ∧ Text.trim query = query := by
  refine ⟨fun name h => ?_, fun dump read => ?_⟩
  · intro created
    obtain ⟨p, hread, -⟩ := Option.map_eq_some_iff.mp (CreateTable.nameIn_eq query ▸ h)
    obtain ⟨r, hcreate, -⟩ := Option.bind_eq_some_iff.mp hread
    have hparts : CreateTable.parts created = CreateTable.parts query := parts_createIfNotExists h
    have hcolumns : CreateTable.columnTexts created = CreateTable.columnTexts query := by
      rw [CreateTable.columnTexts, hparts, CreateTable.columnTexts]
    have hkeys : CreateTable.keyLines created = CreateTable.keyLines query := by
      rw [CreateTable.keyLines, hparts, CreateTable.keyLines]
    refine ⟨exists_header hcreate, nameIn_createIfNotExists_iff h, fun hnameless => ?_, hcolumns,
      hkeys, fun table => ?_, ?_⟩
    · exact ((nameIn_createIfNotExists h).resolve_left fun hnamed => hnamed.1 hnameless).2
    · rw [Table.ofCreate, hcolumns, hkeys, Table.ofCreate]
    · show createIfNotExists (createIfNotExists query) = createIfNotExists query
      rw [createIfNotExists_eq hcreate]
      exact createIfNotExists_keepingHead (flush_skipPhrase (flush_of_createTable? hcreate) (by simp))
  · refine ⟨dump.functions ++ dump.procedures ++ keyAlters dump ++ foreignAlters dump ++
      closing dump ++ inserts dump mode, ?_, ?_, fun query hquery => ?_⟩
    · rw [build_eq, ← creates_eq, ← inserts_eq]
      simp only [opening, if_true, List.append_assoc]
    · rw [build_eq, ← creates_eq, ← inserts_eq, creates_keeping]
      simp [opening]
    · obtain ⟨own, hown, rfl⟩ := List.mem_map.mp hquery
      obtain ⟨name, hname, hown⟩ := List.mem_flatMap.mp hown
      exact ⟨name, hname, Dump.nameIn_of_parse read hown⟩

/-- A table behind the words IF NOT EXISTS, one named by the first of these words, and a dump that
drops its table. -/
theorem createIfNotExists_defines_nameless :
    let query : Text := "create or replace table\n  IF NOT EXISTS `t` (a int, KEY (a))"
    let nameless : Text := "CREATE TABLE if not exists (a int)"
    let sql : Text := "DROP TABLE t; CREATE TABLE t (a int); INSERT INTO t VALUES (1)"
    (Kind.createTable.nameIn (createIfNotExists query) = some ['t'] ∧
      CreateTable.keyLines (createIfNotExists query) = [("KEY (a)" : Text)]) ∧
    (Kind.createTable.nameIn nameless = some ['i', 'f'] ∧
      Kind.createTable.nameIn (createIfNotExists nameless) = some ['I', 'F']) ∧
    ∃ dump rest, Dump.parse {} sql = .ok dump ∧ creates dump true ≠ [] ∧ dump.drops ≠ [] ∧
      build dump .multi true = dump.drops ++ creates dump true ++ rest ∧
      build dump .multi false = (creates dump true).map createIfNotExists ++ rest := by
  intro query nameless sql
  have hquery : Kind.createTable.nameIn query = some ['t'] := by decide +kernel
  have hnameless : Kind.createTable.nameIn nameless = some ['i', 'f'] := by decide +kernel
  obtain ⟨dump, read, hdump⟩ := exists_ok (x := Dump.parse {} sql)
    (f := fun dump => (decide (creates dump true ≠ []), decide (dump.drops ≠ [])))
    (b := (true, true)) (by decide +kernel)
  obtain ⟨hcreates, hdrops⟩ := Prod.mk.inj hdump
  obtain ⟨-, hname, -, -, hkeys, -, -⟩ := (createIfNotExists_defines query {} sql .multi).1 _ hquery
  obtain ⟨-, -, hfirst, -⟩ := (createIfNotExists_defines nameless {} sql .multi).1 _ hnameless
  obtain ⟨rest, hdropping, hkeeping, -⟩ := (createIfNotExists_defines query {} sql .multi).2 _ read
  refine ⟨⟨hname.mpr fun h => absurd h (by decide +kernel), ?_⟩,
    ⟨hnameless, (hfirst (by decide +kernel)).2⟩, dump, rest, read, of_decide_eq_true hcreates,
    of_decide_eq_true hdrops, hdropping, hkeeping⟩
  rw [hkeys]
  decide +kernel

end Plan

end SqlDump
