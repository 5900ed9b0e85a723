import SqlDump.Proofs.Masking
import SqlDump.Proofs.NamedTables

/-!
# Divided bodies

The parts of a body are divided into the keys that move and the parts that stay. Those that stay are
the parts of the body that is laid out with them, also when one of them has lost an AUTO_INCREMENT: no
scan is led anywhere by the word and the blanks in front of it.
-/

namespace SqlDump

/-! ## 1. Words in scans -/

namespace Quoting

-- What is no backslash leaves nothing escaped.
theorem Stands.step_unescaped {q : Quoting} (h : Stands true q) {c : Char} (hc : c ≠ '\\') :
    Stands true (q.step c) := by
  cases q with
  | outside =>
    show Stands true (if isQuoteMark c then inside c false else outside)
    split
    · rename_i hmark
      exact ⟨hmark, fun _ => rfl⟩
    · trivial
  | inside mark escaped =>
    obtain ⟨hmark, hescaped⟩ := h
    cases hescaped rfl
    show Stands true (if c = '\\' ∧ mark ≠ '\x60' then inside mark true
      else if c = mark then outside else inside mark false)
    rw [if_neg fun hescapes => hc hescapes.1]
    split
    · trivial
    · exact ⟨hmark, fun _ => rfl⟩

end Quoting

namespace Nesting

open Quoting (Stands)

variable {parts : Bool} {p p' : Place}

/-- A character that means nothing to quotes, parentheses and commas. -/
structure Neutral (c : Char) : Prop where
  quote : isQuoteMark c = false
  backslash : c ≠ '\\'
  opening : c ≠ '('
  closing : c ≠ ')'
  comma : c ≠ ','

theorem neutral_of_isBlank {c : Char} (h : isBlank c = true) : Neutral c :=
  have hne : ∀ e, isBlank e = false → c ≠ e := fun _ he => ne_of_isBlank h he
  ⟨Quoting.not_isQuoteMark_of_isBlank h, hne _ (by decide), hne _ (by decide), hne _ (by decide),
    hne _ (by decide)⟩

theorem neutral_of_isWord {c : Char} (h : isWord c = true) : Neutral c := by
  have hne : ∀ e, isWord e = false → c ≠ e := by
    rintro e he rfl
    rw [h] at he
    cases he
  refine ⟨?_, hne _ (by decide), hne _ (by decide), hne _ (by decide), hne _ (by decide)⟩
  simp [isQuoteMark, hne '\x27' (by decide), hne '\x22' (by decide), hne '\x60' (by decide)]

theorem stride_neutral {c : Char} (hc : Neutral c) (hp : Stands true p.1) :
    stride parts p c = some p := by
  obtain ⟨q, d⟩ := p
  cases q with
  | outside =>
    unfold stride
    dsimp only
    rw [if_neg hc.closing, if_neg (by simp [hc.comma]), if_neg hc.opening]
    simp [Quoting.step, hc.quote]
  | inside mark escaped =>
    obtain ⟨hmark, hescaped⟩ := hp
    cases hescaped rfl
    have hne : c ≠ mark := by
      rintro rfl
      rw [hc.quote] at hmark
      cases hmark
    unfold stride
    dsimp only
    unfold Quoting.step
    dsimp only
    rw [if_neg fun hescapes => hc.backslash hescapes.1, if_neg hne]

theorem walk_neutral {s : Text} (hs : ∀ c ∈ s, Neutral c) (hp : Stands true p.1) :
    walk parts p s = some p := by
  induction s with
  | nil => rfl
  | cons c s ih =>
    obtain ⟨hc, hs⟩ := List.forall_mem_cons.mp hs
    rw [walk_cons_of (stride_neutral hc hp)]
    exact ih hs

-- Without backslashes a scan stands where nothing is escaped.
theorem stands_of_walk_unescaped {s : Text} (hs : '\\' ∉ s) (hp : Stands true p.1)
    (h : walk parts p s = some p') : Stands true p'.1 := by
  induction s generalizing p with
  | nil => exact Option.some.inj h ▸ hp
  | cons c s ih =>
    rw [List.mem_cons, not_or] at hs
    rw [walk_cons] at h
    obtain ⟨next, hnext, h⟩ := Option.bind_eq_some_iff.mp h
    refine ih hs.2 ?_ h
    rw [step_of_stride hnext]
    exact hp.step_unescaped (Ne.symm hs.1)

/-- A part is one without neutral characters as well. -/
theorem Whole.without {front u back : Text} (h : Whole (front ++ (u ++ back))) (hfront : '\\' ∉ front)
    (hu : ∀ c ∈ u, Neutral c) : Whole (front ++ back) := by
  unfold Whole at h ⊢
  rw [walk_append] at h ⊢
  obtain ⟨p, hp, h⟩ := Option.bind_eq_some_iff.mp h
  have hstands : Stands true p.1 := stands_of_walk_unescaped hfront (show Stands true .outside from trivial) hp
  rw [walk_append, walk_neutral hu hstands] at h
  rw [hp]
  exact h

theorem subset_of_mem_rawPieces {sep : Char} {nested : Bool} {q : Quoting} {d : Int} {s piece : Text}
    (h : piece ∈ rawPieces sep nested q d s) : piece ⊆ s := by
  induction s generalizing q d piece with
  | nil =>
    rw [List.mem_singleton.mp h]
    exact List.Subset.refl _
  | cons c s ih =>
    rw [rawPieces] at h
    split at h
    · rcases List.mem_cons.mp h with rfl | h
      · exact List.nil_subset _
      · exact List.subset_cons_of_subset c (ih h)
    · obtain ⟨first, rest, hraw⟩ := List.exists_cons_of_ne_nil
        (rawPieces_ne_nil (q.step c) (if nested then depth q d c else d) s)
      rw [hraw] at h
      rcases List.mem_cons.mp h with rfl | h
      · exact List.cons_subset_cons c (ih (hraw ▸ List.mem_cons_self))
      · exact List.subset_cons_of_subset c (ih (hraw ▸ List.mem_cons_of_mem first h))

end Nesting

/-! ## 2. Parts without a word -/

open Nesting

theorem LosesWord.whole {part left : Text} (h : LosesWord part left) (hpart : Whole part)
    (hplain : '\\' ∉ part) : Whole left := by
  obtain ⟨gap, hgap, front, word, back, rfl, rfl, hword, -⟩ := h
  obtain ⟨-, hall⟩ := isWord_of_autoIncrement (r := []) (by rwa [List.append_nil])
  rw [← List.append_assoc gap] at hpart
  refine hpart.without (fun hmem => hplain (List.mem_append_left _ hmem)) fun c hc => ?_
  rcases List.mem_append.mp hc with hc | hc
  · exact neutral_of_isBlank (hgap c hc)
  · exact neutral_of_isWord (hall c hc)

-- The name of a column is left at least.
theorem LosesWord.trim_ne_nil {part left name text : Text} (h : LosesWord part left)
    (htrim : Text.trim part = part) (hnamed : namedText? part = some (name, text)) :
    Text.trim left ≠ [] := by
  intro hnil
  obtain ⟨gap, hgap, front, word, back, rfl, rfl, hword, -⟩ := h
  obtain ⟨-, hall⟩ := isWord_of_autoIncrement (r := []) (by rwa [List.append_nil])
  obtain ⟨lead, tail, hblank, hlead, htail⟩ := Text.exists_trim (front ++ back)
  rw [hnil, List.append_nil] at hblank
  have hfront : ∀ c ∈ front ++ back, isBlank c = true := by
    rw [hblank]
    exact List.forall_mem_append.mpr ⟨hlead, htail⟩
  obtain ⟨hfront, hback⟩ := List.forall_mem_append.mp hfront
  -- without blanks around it the part is the word, which has none in it
  rw [Text.trim_blank_append hfront, Text.trim_blank_append hgap, Text.trim_append_blank hback] at htrim
  obtain ⟨⟨u, r⟩, hread, hrest⟩ := Option.bind_eq_some_iff.mp hnamed
  obtain ⟨t, hgap', -⟩ := Option.bind_eq_some_iff.mp hrest
  obtain ⟨-, c, t, rfl, hc⟩ := gap?_eq_some hgap'
  obtain ⟨-, hpart⟩ := Identifier.Name.of_read? hread
  obtain ⟨lead, tail, hsplit, -⟩ := Text.exists_trim word
  have hmem : c ∈ word := by
    rw [hsplit, htrim, hpart]
    simp
  rw [not_isBlank_of_isWord (hall c hmem)] at hc
  cases hc

namespace CreateTable

/-! ## 3. Bodies laid out -/

/-- Whether a body has exactly these parts between its commas, blanks around them aside. None of them
is empty, and a body without parts is blank. -/
def Holds (body : Text) (parts : List Text) : Prop :=
  [] ∉ parts ∧ if parts = [] then ∀ c ∈ body, isBlank c = true
    else (rawPieces ',' true .outside 0 body).map Text.trim = parts

/-- Whether a statement has a body of these parts behind the name of its table. -/
def Creates (query raw : Text) (parts : List Text) : Prop :=
  ∃ l, layout? query = some l ∧ l.rawName = raw ∧ Holds l.body parts

theorem holds_laid {columns : List Text} (hwhole : ∀ part ∈ columns, Whole part)
    (hne : [] ∉ columns.map Text.trim) : Holds (laid columns) (columns.map Text.trim) := by
  refine ⟨hne, ?_⟩
  cases columns with
  | nil =>
    rw [List.map_nil, if_pos rfl]
    exact fun c hc => List.all_eq_true.mp (show (laid []).all isBlank = true by decide) c hc
  | cons part columns =>
    have hlead : ∀ c ∈ "\n  ".toList, isBlank c = true := fun c hc =>
      List.all_eq_true.mp (show "\n  ".toList.all isBlank = true by decide) c hc
    rw [if_neg (by simp)]
    unfold laid
    rw [List.append_assoc]
    exact trim_rawPieces hwhole (List.cons_ne_nil _ _) hlead

theorem creates_laid {front raw options : Text} {columns : List Text} (hframe : Frame front raw)
    (hwhole : ∀ part ∈ columns, Whole part) (hne : [] ∉ columns.map Text.trim) :
    Creates (Frame.query front [' '] (laid columns) options) raw (columns.map Text.trim) := by
  have hgap : ∀ c ∈ [' '], isBlank c = true := by simpa using by decide
  exact ⟨_, hframe.layout? hgap (balanced_laid hwhole) options, rfl, holds_laid hwhole hne⟩

-- A statement without anything to move is left alone, and another one is laid out again.
theorem query_of_layout {text : Text} {l : Layout} (h : layout? (Text.trim text) = some l) :
    ((relocateKeys text).alters = [] →
      (relocateKeys text).query = Text.trimRight (Text.dropTrailing ';' (Text.trim text))) ∧
    ((relocateKeys text).alters ≠ [] → ∃ front options, Frame front l.rawName ∧
      (relocateKeys text).query =
        Frame.query front [' '] (laid (released (bodyParts l.body)).1) options) := by
  obtain ⟨options, hstripped⟩ := layout?_stripped h
  obtain ⟨front, hframe, hrelaid⟩ := relaid_eq hstripped
  unfold relocateKeys
  dsimp only
  rw [hstripped]
  dsimp only
  split
  · exact ⟨fun _ => rfl, fun hne => absurd rfl hne⟩
  · rename_i hmoves
    refine ⟨fun hnil => absurd (List.isEmpty_iff.mpr hnil) hmoves, fun _ => ?_⟩
    exact ⟨front, _, hframe, hrelaid _ _⟩

/-! ## 4. What moves and what is left -/

/-- A statement that defines the column of a part as the part does. -/
def Redefines (raw part statement : Text) : Prop :=
  ∃ name text start, namedText? part = some (name, text) ∧ Column.Start start ∧ statement =
    Alter.statement raw ("MODIFY " ++ Identifier.quote name ++ " " ++ Text.trim text ++ start)

/-- What a statement is left with when these parts stay, and what is stated behind its keys: nothing, or
that a column counts up. The part of this column has lost the word, and in the last case a literal too. -/
inductive Leaves (query raw : Text) (stay : List Text) : List Text → Prop
  | all (h : Creates query raw stay) : Leaves query raw stay []
  | word {before after : List Text} {part left statement : Text}
      (hstay : stay = before ++ part :: after) (hstatement : Redefines raw part statement)
      (hleft : LosesWord part left) (h : Creates query raw (before ++ Text.trim left :: after)) :
      Leaves query raw stay [statement]
  | literal {before after : List Text} {part left statement front options : Text}
      (hstay : stay = before ++ part :: after) (hstatement : Redefines raw part statement)
      (hleft : LosesLiteral part left) (hword : ¬ LosesWord part left)
      (h : query = Frame.query front [' '] (laid (before ++ left :: after)) options) :
      Leaves query raw stay [statement]

theorem redefines_restart {raw part start : Text} {counter : Counter}
    (hcounter : counter? part = some counter) (hstart : Column.Start start) :
    Redefines raw part (restart raw start counter) := by
  obtain ⟨name, text, hnamed, hname, hdefinition⟩ := exists_of_counter? hcounter
  refine ⟨name, text, start, hnamed, hstart, ?_⟩
  rw [restart, hname, hdefinition]

-- The parts that stay are left, the first one that counts up without its word.
theorem leaves_releaseCounter {stay : List Text} {front raw start options : Text}
    (hstay : ∀ part ∈ stay, Whole part ∧ Text.trim part = part ∧ part ≠ [])
    (hplain : ∀ part ∈ stay, '\\' ∉ part) (hframe : Frame front raw) (hstart : Column.Start start) :
    Leaves (Frame.query front [' '] (laid (releaseCounter stay).1) options) raw stay
      ((releaseCounter stay).2.toList.map (restart raw start)) := by
  have hmap : ∀ parts, parts ⊆ stay → parts.map Text.trim = parts := fun parts hsub =>
    (List.map_congr_left fun part hpart => (hstay part (hsub hpart)).2.1).trans (List.map_id parts)
  have hne : [] ∉ stay := fun hmem => (hstay [] hmem).2.2 rfl
  cases hcounter : (releaseCounter stay).2 with
  | none =>
    have hcreates := @creates_laid front raw options stay hframe fun part hpart => (hstay part hpart).1
    rw [hmap stay (List.Subset.refl _)] at hcreates
    rw [releaseCounter_eq_of_none hcounter]
    exact .all (hcreates hne)
  | some counter =>
    obtain ⟨before, part, after, rfl, hcolumns, -, hfound⟩ := releaseCounter_eq_of_some hcounter
    rw [hcolumns]
    rcases loses_of_counter? hfound with hleft | hleft
    · obtain ⟨hwhole, htrim, -⟩ := hstay part (by simp)
      obtain ⟨name, text, hnamed, -⟩ := exists_of_counter? hfound
      have hcolumn := hleft.trim_ne_nil htrim hnamed
      refine .word rfl (redefines_restart hfound hstart) hleft ?_
      have htrimmed : (before ++ counter.part :: after).map Text.trim =
          before ++ Text.trim counter.part :: after := by
        rw [List.map_append, List.map_cons, hmap before (by simp), hmap after (by simp)]
      rw [← htrimmed]
      refine creates_laid hframe (fun p hp => ?_) ?_
      · rcases List.mem_append.mp hp with hp | hp
        · exact (hstay p (List.mem_append_left _ hp)).1
        · rcases List.mem_cons.mp hp with rfl | hp
          · exact hleft.whole hwhole (hplain part (by simp))
          · exact (hstay p (List.mem_append_right _ (List.mem_cons_of_mem _ hp))).1
      · rw [htrimmed]
        simp only [List.mem_append, List.mem_cons, not_or] at hne ⊢
        exact ⟨hne.1, Ne.symm hcolumn, hne.2.2⟩
    · exact .literal rfl (redefines_restart hfound hstart) hleft hleft.not_losesWord rfl

theorem plain_of_mem {body part : Text} (hplain : '\\' ∉ body) (h : part ∈ bodyParts body) :
    '\\' ∉ part := by
  rw [bodyParts_eq] at h
  obtain ⟨piece, hpiece, rfl⟩ := List.mem_map.mp (List.mem_filter.mp h).1
  exact fun hmem => hplain (subset_of_mem_rawPieces hpiece (Text.mem_of_mem_trim hmem))

/-- The keys of a body are added by the first statements, in order, with the same words. The other parts
are left, in order, and at most one statement follows the keys: it defines one column again. Where that
column has lost no literal, what is left is a body of the parts that stay. The table keeps its name, and
a statement without anything to move loses only semicolons and blanks behind it. -/
theorem divides_relocateKeys {text : Text} {l : Layout} (hplain : '\\' ∉ text)
    (h : layout? (Text.trim text) = some l) : ∃ lines more : List Text,
      (relocateKeys text).alters =
        lines.map (fun line => Alter.statement l.rawName ("ADD " ++ line)) ++ more ∧
      lines.map Text.words = ((bodyParts l.body).filter isRelocated).map Text.words ∧
      ((relocateKeys text).alters ≠ [] → Leaves (relocateKeys text).query l.rawName
        ((bodyParts l.body).filter (!isRelocated ·)) more) ∧
      ((relocateKeys text).alters = [] →
        (relocateKeys text).query = Text.trimRight (Text.dropTrailing ';' (Text.trim text))) ∧
      Kind.createTable.nameIn (relocateKeys text).query = Kind.createTable.nameIn text := by
  obtain ⟨start, hstart, halters, -⟩ := relocateKeys_of_layout h
  obtain ⟨hsame, hrelaid⟩ := query_of_layout h
  obtain ⟨front, gap, htext, hframe, hgap, hbody, -⟩ := frame_of_layout? h
  have hbackslash : '\\' ∉ l.body := fun hmem =>
    hplain (Text.mem_of_mem_trim (by rw [htext, Frame.query]; simp [hmem]))
  refine ⟨(moved (bodyParts l.body)).map Text.spaced,
    (released (bodyParts l.body)).2.toList.map (restart l.rawName start), ?_, ?_, ?_, hsame, ?_⟩
  · rw [halters, List.map_map]
    rfl
  · rw [List.map_map]
    exact List.map_congr_left fun line _ => Text.words_spaced line
  · intro hne
    obtain ⟨front, options, hframe, hquery⟩ := hrelaid hne
    rw [hquery]
    refine leaves_releaseCounter (fun part hpart => ?_) (fun part hpart => ?_) hframe hstart
    · exact part_of_mem hbody (List.mem_filter.mp hpart).1
    · exact plain_of_mem hbackslash (List.mem_filter.mp hpart).1
  · have hname := @nameIn_frame _ _ _ l.options hframe hgap l.body
    rw [← htext, Kind.nameIn, Text.trim_trim] at hname
    exact (nameIn_relocateKeys hname).1.trans hname.symm

/-- A column that counts up, and its key. -/
theorem divides_relocateKeys_counting :
    let text : Text := "CREATE TABLE `t` (`a` int NOT NULL AUTO_INCREMENT, KEY `k` (`a`))"
    let column : Text := "`a` int NOT NULL AUTO_INCREMENT"
    ∃ left, LosesWord column left ∧ Creates (relocateKeys text).query "`t`" [Text.trim left] := by
  intro text column
  have hlayout : layout? (Text.trim text) = some
      { rawName := "`t`", header := "CREATE TABLE `t` ", options := [],
        body := "`a` int NOT NULL AUTO_INCREMENT, KEY `k` (`a`)" } := by decide +kernel
  have hstay : (bodyParts "`a` int NOT NULL AUTO_INCREMENT, KEY `k` (`a`)").filter (!isRelocated ·) =
      [column] := by decide +kernel
  have hmoved : ((bodyParts "`a` int NOT NULL AUTO_INCREMENT, KEY `k` (`a`)").filter
      isRelocated).length = 1 := by decide +kernel
  have hcount : (relocateKeys text).alters.length = 2 := by decide +kernel
  obtain ⟨lines, more, halters, hlines, hleaves, -⟩ :=
    divides_relocateKeys (show '\\' ∉ text by decide +kernel) hlayout
  have hleaves := hleaves fun hnil => by simp [hnil] at hcount
  have hkeys := congrArg List.length hlines
  rw [List.length_map, List.length_map, hmoved] at hkeys
  rw [halters, List.length_append, List.length_map, hkeys] at hcount
  dsimp only at hleaves
  rw [hstay] at hleaves
  have hone : ∀ {before after : List Text} {part : Text}, [column] = before ++ part :: after →
      before = [] ∧ part = column ∧ after = [] := by
    intro before after part h
    rcases List.append_eq_singleton_iff.mp h.symm with ⟨hbefore, hrest⟩ | ⟨-, hrest⟩
    · exact ⟨hbefore, List.cons.inj hrest⟩
    · cases hrest
  cases hleaves with
  | all => cases hcount
  | word hcolumn _ hleft h =>
    obtain ⟨rfl, rfl, rfl⟩ := hone hcolumn
    exact ⟨_, hleft, h⟩
  | literal hcolumn _ hleft =>
    -- the column has no literal
    obtain ⟨-, rfl, -⟩ := hone hcolumn
    obtain ⟨gap, ⟨u, mark, tail, rfl, hmark, -⟩, front, word, back, hpart, -⟩ := hleft
    have hmem : mark ∈ column := by
      rw [hpart]
      simp
    rcases hmark with rfl | rfl <;> exact absurd hmem (by decide +kernel)

end CreateTable

end SqlDump
