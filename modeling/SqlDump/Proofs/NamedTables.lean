import SqlDump.Proofs.OwnStatements
import SqlDump.Proofs.TableDrops

/-!
# Statements that create tables and statements that fill them

What a statement is sorted by is not what its name is read by. Still no statement that is sorted in
as anything else creates a table or fills one, and the statement of a plan that creates a table names
the table that it did in the dump.
-/

namespace SqlDump

open Outcome

/-! ## 1. The word for what is created -/

namespace Statement

/-- The word for what is created, looked for behind `before`. -/
def objectSearch? (before : Option Char) (s : Text) : Option Text :=
  (Text.search (fun c => c = '(' || c = ';') (fun before t =>
    if wordStarts before then
      (anyWord? objectWords t).map fun r => Text.upper (t.take (t.length - r.length))
    else none) before s).map Prod.snd

theorem objectWord?_eq (s : Text) :
    objectWord? s = (word? "CREATE" s).bind (objectSearch? (some 'E')) := by
  unfold objectWord? createdWord? objectSearch?
  cases word? "CREATE" s with
  | none => rfl
  | some r =>
    show (Text.search _ _ _ r >>= fun p => pure p.2) = (Text.search _ _ _ r).map Prod.snd
    cases Text.search _ _ _ r <;> rfl

theorem objectSearch?_cons {before : Option Char} {c : Char} {s : Text}
    (hnone : wordStarts before = false ∨ anyWord? objectWords (c :: s) = none)
    (hc : isBlank c = true ∨ isWord c = true) :
    objectSearch? before (c :: s) = objectSearch? (some c) s := by
  have hstop : (decide (c = '(') || decide (c = ';')) = false := by
    rw [Bool.or_eq_false_iff, decide_eq_false_iff_not, decide_eq_false_iff_not]
    constructor <;> rintro rfl <;> rcases hc with h | h <;> exact absurd h (by decide)
  have hread : (if wordStarts before then (anyWord? objectWords (c :: s)).map fun r =>
      Text.upper ((c :: s).take ((c :: s).length - r.length)) else none) = none := by
    rcases hnone with h | h <;> rw [h] <;> simp
  unfold objectSearch?
  rw [Text.search, hread]
  dsimp only
  rw [hstop, if_neg (by decide), Option.map_map]
  rfl

-- No object is a word that starts with a blank.
theorem anyWord?_blank {c : Char} (hc : isBlank c = true) (s : Text) :
    anyWord? objectWords (c :: s) = none := by
  have hforms : objectWords.all (fun w => w.head?.any fun k =>
      (letterForms k).all (!isBlank ·)) = true := by decide +kernel
  refine List.findSome?_eq_none_iff.mpr fun w hw => ?_
  have hword := List.all_eq_true.mp hforms w hw
  cases w with
  | nil => cases hword
  | cons k w =>
    have hletter : isLetter k c = false := by
      rw [Bool.eq_false_iff]
      intro hk
      have := List.all_eq_true.mp hword c (mem_letterForms hk)
      rw [hc] at this
      cases this
    rw [word?, keyword?, hletter]
    rfl

theorem objectSearch?_blanks {gap : Text} (hgap : ∀ c ∈ gap, isBlank c = true) {c : Char}
    (hc : isBlank c = true) (before : Option Char) (s : Text) : ∃ e, isBlank e = true ∧
      objectSearch? before (c :: gap ++ s) = objectSearch? (some e) s := by
  induction gap generalizing before c with
  | nil => exact ⟨c, hc, objectSearch?_cons (Or.inr (anyWord?_blank hc _)) (Or.inl hc)⟩
  | cons d gap ih =>
    obtain ⟨hd, hgap⟩ := List.forall_mem_cons.mp hgap
    obtain ⟨e, he, hsearch⟩ := ih hgap hd (some c)
    exact ⟨e, he, (objectSearch?_cons (Or.inr (anyWord?_blank hc _)) (Or.inl hc)).trans hsearch⟩

theorem objectSearch?_gap {s r : Text} (h : gap? s = some r) (before : Option Char) :
    ∃ e, isBlank e = true ∧ objectSearch? before s = objectSearch? (some e) r := by
  obtain ⟨hr, c, t, rfl, hc⟩ := gap?_eq_some h
  rw [Text.trimLeft_cons_blank hc] at hr
  have hs : c :: t = c :: t.takeWhile isBlank ++ r := by
    rw [hr, List.cons_append, Text.trimLeft, List.takeWhile_append_dropWhile]
  rw [hs]
  exact objectSearch?_blanks (fun _ => List.mem_takeWhile_imp) hc before r

-- Within a word no other word starts.
theorem objectSearch?_word {u : Text} (hu : ∀ c ∈ u, isWord c = true) {d : Char}
    (hd : isWord d = true) (s : Text) : ∃ e, isWord e = true ∧
      objectSearch? (some d) (u ++ s) = objectSearch? (some e) s := by
  induction u generalizing d with
  | nil => exact ⟨d, hd, rfl⟩
  | cons c u ih =>
    obtain ⟨hc, hu⟩ := List.forall_mem_cons.mp hu
    obtain ⟨e, he, hsearch⟩ := ih hu hc
    have hinner : wordStarts (some d) = false := by simp [wordStarts, hd]
    exact ⟨e, he, (objectSearch?_cons (Or.inl hinner) (Or.inr hc)).trans hsearch⟩

/-- A word of letters that is taken for no object. -/
def Passable (w : Text) : Prop :=
  w ≠ [] ∧ spelledIn isWord w = true ∧ objectWords.all (clash w ·) = true

instance (w : Text) : Decidable (Passable w) := inferInstanceAs (Decidable (_ ∧ _ ∧ _))

theorem objectSearch?_keyword {w : Text} (hw : Passable w) {s a b : Text}
    (hkeyword : keyword? w s = some a) (hgap : gap? a = some b) (before : Option Char) :
    ∃ e, isBlank e = true ∧ objectSearch? before s = objectSearch? (some e) b := by
  obtain ⟨hne, hw, hclash⟩ := hw
  obtain ⟨u, rfl, hlength, hall, -⟩ := exists_of_spelled hw hkeyword
  have hnone : anyWord? objectWords (u ++ a) = none := by
    refine List.findSome?_eq_none_iff.mpr fun v hv => ?_
    rw [word?, keyword?_of_clash (List.all_eq_true.mp hclash v hv) (by rw [hkeyword]; rfl)]
    rfl
  cases u with
  | nil => exact absurd (List.length_eq_zero_iff.mp hlength.symm) hne
  | cons c u =>
    obtain ⟨hc, hu⟩ := List.forall_mem_cons.mp hall
    obtain ⟨d, hd, hword⟩ := objectSearch?_word hu hc a
    obtain ⟨e, he, hblank⟩ := objectSearch?_gap hgap (some d)
    refine ⟨e, he, ?_⟩
    rw [List.cons_append] at hnone ⊢
    rw [objectSearch?_cons (Or.inr hnone) (Or.inr hc), hword, hblank]

-- Passable words are passed over with the gaps behind them.
theorem objectSearch?_phrase {ws : List Text} (hws : ∀ w ∈ ws, Passable w) (hne : ws ≠ [])
    {s r : Text} (h : (phrase? ws s >>= gap?) = some r) (before : Option Char) :
    ∃ e, isBlank e = true ∧ objectSearch? before s = objectSearch? (some e) r := by
  induction ws generalizing s before with
  | nil => exact absurd rfl hne
  | cons w ws ih =>
    obtain ⟨hw, hws⟩ := List.forall_mem_cons.mp hws
    cases ws with
    | nil =>
      obtain ⟨a, hkeyword, hgap⟩ := Option.bind_eq_some_iff.mp h
      exact objectSearch?_keyword hw hkeyword hgap before
    | cons v ws =>
      rw [phrase?_cons_cons] at h
      obtain ⟨a, h, hgap⟩ := Option.bind_eq_some_iff.mp h
      obtain ⟨b, hfirst, hrest⟩ := Option.bind_eq_some_iff.mp h
      obtain ⟨c, hkeyword, hgap'⟩ := Option.bind_eq_some_iff.mp hfirst
      obtain ⟨e, -, hsearch⟩ := objectSearch?_keyword hw hkeyword hgap' before
      have hphrase : (phrase? (v :: ws) b >>= gap?) = some r := by
        rw [hrest]
        exact hgap
      obtain ⟨e', he', hsearch'⟩ := ih hws (List.cons_ne_nil v ws) hphrase (some e)
      exact ⟨e', he', hsearch.trans hsearch'⟩

theorem objectSearch?_skipPhrase {ws : List Text} (hws : ∀ w ∈ ws, Passable w) (hne : ws ≠ [])
    {d : Char} (hd : isBlank d = true) (s : Text) : ∃ e, isBlank e = true ∧
      objectSearch? (some d) s = objectSearch? (some e) (skipPhrase ws s) := by
  unfold skipPhrase
  cases h : phrase? ws s >>= gap? with
  | none => exact ⟨d, hd, rfl⟩
  | some r => exact objectSearch?_phrase hws hne h (some d)

-- Letters without further forms are spelled in capitals as their keyword is.
theorem upper_of_keyword? {w s r : Text}
    (hw : (w.all fun k => (letterForms k).all fun c => Text.capital c = [k]) = true)
    (h : keyword? w s = some r) : Text.upper (s.take (s.length - r.length)) = w := by
  induction w generalizing s with
  | nil =>
    cases h
    rw [Nat.sub_self]
    rfl
  | cons k w ih =>
    rw [List.all_cons, Bool.and_eq_true] at hw
    cases s with
    | nil => cases h
    | cons c s =>
      rw [keyword?] at h
      split at h
      · rename_i hk
        obtain ⟨u, rfl, -⟩ := exists_of_keyword? h
        have hcapital := of_decide_eq_true (List.all_eq_true.mp hw.1 c (mem_letterForms hk))
        have hlength : (c :: (u ++ r)).length - r.length = (u ++ r).length - r.length + 1 := by
          simp
          omega
        have hrest := ih hw.2 h
        rw [hlength, List.take_succ_cons, Text.upper, List.flatMap_cons, hcapital]
        exact congrArg (k :: ·) hrest
      · cases h

theorem objectSearch?_table {before : Option Char} (hbefore : wordStarts before = true) {s a r : Text}
    (hkeyword : keyword? "TABLE" s = some a) (hgap : gap? a = some r) :
    objectSearch? before s = some ("TABLE" : Text) := by
  have hends := wordEnds_of_gap? hgap
  have hword : anyWord? objectWords s = some a := by
    unfold anyWord? objectWords
    rw [List.findSome?_cons, word?, hkeyword, Option.filter_some, hends]
    rfl
  have hupper : Text.upper (s.take (s.length - a.length)) = "TABLE" :=
    upper_of_keyword? (by decide) hkeyword
  unfold objectSearch?
  cases s with
  | nil => cases hkeyword
  | cons c s =>
    rw [Text.search, hbefore, if_pos rfl, hword, Option.map_some, hupper]
    rfl

/-- What creates a table says so first. -/
theorem objectWord?_of_createTable? {s r : Text} (h : createTable? s = some r) :
    objectWord? s = some ("TABLE" : Text) := by
  obtain ⟨b, hcreate, h⟩ := Option.bind_eq_some_iff.mp h
  obtain ⟨a, hcreate, hgap⟩ := Option.bind_eq_some_iff.mp hcreate
  obtain ⟨d, htable, hgap'⟩ := Option.bind_eq_some_iff.mp h
  have hends := wordEnds_of_gap? hgap
  have hor : ∀ w ∈ (["OR", "REPLACE"] : List Text), Passable w := by
    decide +kernel
  have htemporary : ∀ w ∈ (["TEMPORARY"] : List Text), Passable w := by
    decide +kernel
  obtain ⟨e, he, hsearch⟩ := objectSearch?_gap hgap (some 'E')
  obtain ⟨e', he', hsearch'⟩ := objectSearch?_skipPhrase hor (by decide) he b
  obtain ⟨e'', he'', hsearch''⟩ := objectSearch?_skipPhrase htemporary (by decide) he'
    (skipPhrase ["OR", "REPLACE"] b)
  have hstarts : wordStarts (some e'') = true := by
    rw [wordStarts, not_isWord_of_isBlank he'']
    rfl
  rw [objectWord?_eq, word?, hcreate, Option.filter_some, hends, if_pos rfl, Option.bind_some,
    hsearch, hsearch', hsearch'', objectSearch?_table hstarts htable hgap']

end Statement

/-! ## 2. Statements that neither create a table nor fill one -/

namespace Kind

/-- Neither a statement that creates a table nor one that fills a table. -/
structure Aside (s : Text) : Prop where
  createTable : Kind.createTable.nameIn s = none
  insert : Kind.insert.nameIn s = none

variable {c : Char} {t : Text}

-- The first character tells whether a statement can create a table, and whether it can fill one.
theorem nameIn_createTable_cons (hblank : isBlank c = false) (hc : isLetter 'C' c = false) :
    Kind.createTable.nameIn (c :: t) = none := by
  obtain ⟨⟨v, hv⟩, -⟩ := Text.trim_cons hblank t
  have hnone : createdTable? (c :: v) = none := by
    show ((if isLetter 'C' c then _ else none) >>= gap? >>= _ >>= _) = none
    rw [hc]
    rfl
  unfold nameIn rawName?
  rw [hv]
  dsimp only
  rw [hnone]
  rfl

theorem nameIn_insert_cons (hblank : isBlank c = false) (hc : isLetter 'I' c = false) :
    Kind.insert.nameIn (c :: t) = none := by
  obtain ⟨⟨v, hv⟩, -⟩ := Text.trim_cons hblank t
  have hnone : insertInto? (c :: v) = none := by
    show ((if isLetter 'I' c then _ else none) >>= gap? >>= _) = none
    rw [hc]
    rfl
  unfold nameIn rawName?
  rw [hv]
  dsimp only
  rw [hnone]
  rfl

-- No text both creates a table and fills one.
theorem nameIn_insert_of_createTable {s name : Text} (h : Kind.createTable.nameIn s = some name) :
    Kind.insert.nameIn s = none := by
  rw [Kind.nameIn, Option.map_eq_none_iff]
  obtain ⟨found, hfound, -⟩ := Option.map_eq_some_iff.mp h
  obtain ⟨r, hcreate, -⟩ := Option.bind_eq_some_iff.mp hfound
  obtain ⟨a, hgap, -⟩ := Option.bind_eq_some_iff.mp hcreate
  obtain ⟨b, hcreate, -⟩ := Option.bind_eq_some_iff.mp hgap
  have hnone : keyword? "INSERT" (Text.trim s) = none :=
    keyword?_of_clash (w := "CREATE") (by decide) (by rw [hcreate]; rfl)
  show (insertInto? (Text.trim s)).bind _ = none
  rw [insertInto?, hnone]
  rfl

theorem aside_cons (hblank : isBlank c = false) (hcreate : isLetter 'C' c = false)
    (hinsert : isLetter 'I' c = false) : Aside (c :: t) :=
  ⟨nameIn_createTable_cons hblank hcreate, nameIn_insert_cons hblank hinsert⟩

end Kind

namespace Statement

theorem nameIn_of_objectWord? {text : Text} (flush : Flush text)
    (h : objectWord? text ≠ some ("TABLE" : Text)) : Kind.createTable.nameIn text = none := by
  rw [Kind.nameIn, Option.map_eq_none_iff]
  by_contra hname
  obtain ⟨found, hfound⟩ := Option.ne_none_iff_exists'.mp hname
  obtain ⟨r, hcreate, hnamed⟩ := Option.bind_eq_some_iff.mp hfound
  obtain ⟨u, htext, hfront⟩ := CreateTable.front_of_createTable? hcreate
  obtain ⟨x, hx, -⟩ := Text.exists_trimRight text
  have htrim : Text.trim text = Text.trimRight text := congrArg Text.trimRight flush
  have hflush : Flush (r ++ x) := by
    obtain ⟨_, -, hr⟩ := Option.bind_eq_some_iff.mp hcreate
    obtain ⟨_, -, hgap⟩ := Option.bind_eq_some_iff.mp hr
    have hr := flush_of_gap? hgap
    cases r with
    | nil => cases hnamed
    | cons c r => exact .cons (Text.not_isBlank_of_trimLeft hr) _
  have hwhole : text = u ++ (r ++ x) := by
    rw [← List.append_assoc, ← htext, htrim]
    exact hx
  exact h (objectWord?_of_createTable? (hwhole ▸ hfront _ hflush))

/-- A statement that fills a table is named by its text, and one that alters a table or creates
anything but tables is one that neither creates a table nor fills one. -/
structure ToldApart (s : Statement) : Prop where
  insert : s.kind = .insert → s.name = Kind.insert.nameIn s.text
  aside : s.kind ∈ [.alter, .createView, .createFunction, .createProcedure, .createTrigger] →
    Kind.Aside s.text

theorem toldApart_of_classify {text : Text} {s : Statement} (h : classify text = .ok s) :
    s.ToldApart := by
  unfold classify at h
  dsimp only at h
  split at h
  · cases h
    exact ⟨fun _ => rfl, by simp [ofKind]⟩
  split at h
  · rename_i hupper
    obtain ⟨c, t, rfl, hword, hother⟩ := Text.exists_of_upper hupper
    cases h
    exact ⟨nofun, fun _ => Kind.aside_cons (not_isBlank_of_isWord hword) (hother (by decide))
      (hother (by decide))⟩
  split at h
  · cases h
    exact ⟨nofun, by simp [ofKind]⟩
  split at h
  · rename_i hupper
    split at h
    · rename_i word hobject
      obtain ⟨kind, hkind, rfl⟩ := map_eq_ok.mp h
      refine ⟨fun heq => absurd heq (objectKind_eq_ok hkind).2.1, fun hmem => ?_⟩
      obtain ⟨c, t, rfl, hword, hother⟩ := Text.exists_of_upper hupper
      have hblank := not_isBlank_of_isWord hword
      refine ⟨nameIn_of_objectWord? (.cons hblank t) ?_,
        Kind.nameIn_insert_cons hblank (hother (by decide))⟩
      rw [show (ofKind kind (c :: t)).text = c :: t from rfl, hobject]
      rintro ⟨⟩
      cases hkind
      simp [ofKind] at hmem
    · cases h
      exact ⟨nofun, by simp⟩
  · cases h
    exact ⟨nofun, by simp⟩

theorem toldApart_of_classifyRoutine {text : Text} {s : Statement}
    (h : classifyRoutine text = .ok s) : s.ToldApart := by
  unfold classifyRoutine at h
  split at h
  · cases h
    exact ⟨nofun, by simp⟩
  rename_i hobject
  split at h
  · rename_i word hword
    obtain ⟨kind, hkind, h⟩ := bind_eq_ok.mp h
    cases h
    have haside : Kind.Aside text := by
      obtain ⟨r, hcreate, -⟩ := Option.bind_eq_some_iff.mp hword
      unfold skipVersion at hcreate
      split at hcreate
      · rename_i rest hcomment
        rw [Text.append_of_after? hcomment]
        exact Kind.aside_cons (by decide) (by decide) (by decide)
      · have hkeyword := CreateTable.isSome_of_word? (Option.isSome_of_mem hcreate)
        obtain ⟨c, t, rfl, hc⟩ := exists_cons_of_spelled (k := 'C')
          (p := fun c => !isBlank c && !isLetter 'I' c) (by decide +kernel) hkeyword
        rw [Bool.and_eq_true, Bool.not_eq_true', Bool.not_eq_true'] at hc
        exact ⟨nameIn_of_objectWord? (.cons hc.1 t) fun h => hobject (Or.inl h),
          Kind.nameIn_insert_cons hc.1 hc.2⟩
    exact ⟨fun heq => absurd heq (objectKind_eq_ok hkind).2.1, fun _ => haside⟩
  · cases h
    exact ⟨nofun, by simp⟩

theorem toldApart_of_split {account : Account} {sql : Text} {statements : List Statement}
    (h : split account sql = .ok statements) : ∀ s ∈ statements, s.ToldApart := by
  intro s hs
  obtain ⟨delimiter, text, htext⟩ := Segment.read_of_split h hs
  cases delimiter with
  | none => exact toldApart_of_classify htext
  | some _ => exact toldApart_of_classifyRoutine htext

end Statement

/-! ## 3. The names of tables that a plan creates -/

namespace CreateTable

theorem rdropWhile_trim (s : Text) : (Text.trim s).rdropWhile isBlank = Text.trim s :=
  List.rdropWhile_idempotent isBlank (Text.trimLeft s)

theorem rdropWhile_optionText {options : Text} (h : options.rdropWhile isBlank = options) :
    (if options.isEmpty then [] else " ".toList ++ options).rdropWhile isBlank =
      if options.isEmpty then [] else " ".toList ++ options := by
  cases options with
  | nil => rfl
  | cons c options =>
    have hne : (c :: options).rdropWhile isBlank ≠ [] := by
      rw [h]
      exact List.cons_ne_nil _ _
    rw [List.isEmpty_cons, if_neg (by decide)]
    exact (Text.rdropWhile_append hne).trans (congrArg _ h)

theorem nameIn_frame {front raw gap options : Text} (hframe : Frame front raw)
    (hgap : ∀ c ∈ gap, isBlank c = true) (body : Text) :
    Kind.createTable.nameIn (Frame.query front gap body options) = some (Identifier.bare raw) := by
  have hopens : Opens (gap ++ '(' :: (body ++ ')' :: options.rdropWhile isBlank)) :=
    ⟨_, trimLeft_blank_append hgap (by decide)⟩
  unfold Kind.nameIn Kind.rawName?
  rw [hframe.trim]
  dsimp only
  rw [Frame.query, hframe.read _ hopens]
  rfl

/-- Without its keys a statement creates the same table, and has no blanks at its ends. -/
theorem nameIn_relocateKeys {text name : Text} (h : Kind.createTable.nameIn text = some name) :
    Kind.createTable.nameIn (relocateKeys text).query = some name ∧
      Text.trim (relocateKeys text).query = (relocateKeys text).query := by
  cases hlayout : layout? (Text.trim text) with
  | none =>
    rw [relocateKeys_of_none hlayout]
    refine ⟨?_, Text.trim_trim text⟩
    rw [Kind.nameIn, Text.trim_trim]
    exact h
  | some l =>
    obtain rfl := nameIn_of_layout? hlayout h
    obtain ⟨options, hstripped⟩ := layout?_stripped hlayout
    unfold relocateKeys
    dsimp only
    rw [hstripped]
    dsimp only
    split
    · obtain ⟨front, gap, hquery, hframe, hgap, -, -⟩ := frame_of_layout? hstripped
      have htrim : Text.trim (Frame.query front gap l.body options) =
          Frame.query front gap l.body options := by
        rw [← hquery]
        have hflush : Flush (Text.trimRight (Text.dropTrailing ';' (Text.trim text))) :=
          Flush.of_begins (Text.trimLeft_trim text)
            ((List.rdropWhile_prefix isBlank _).trans (List.rdropWhile_prefix (· = ';') _))
        rw [Text.trim, hflush]
        exact List.rdropWhile_idempotent isBlank _
      rw [show Text.trimRight (Text.dropTrailing ';' (Text.trim text)) = _ from hquery]
      exact ⟨nameIn_frame hframe hgap l.body, htrim⟩
    · obtain ⟨front, hframe, hrelaid⟩ := relaid_eq hstripped
      have hgap : ∀ c ∈ [' '], isBlank c = true := by simpa using by decide
      refine ⟨?_, ?_⟩
      · rw [hrelaid]
        exact nameIn_frame hframe hgap _
      · rw [hrelaid, hframe.trim, rdropWhile_optionText]
        split
        · exact rdropWhile_trim _
        · exact rdropWhile_trim _

end CreateTable

/-- What creates a table of a dump names that table, and has no blanks at its ends. -/
theorem Dump.nameIn_of_parse {account : Account} {sql : Text} {dump : Dump}
    (read : parse account sql = .ok dump) {name query : Text}
    (h : query ∈ (dump.tables.get? name).getD []) :
    Kind.createTable.nameIn query = some name ∧ Text.trim query = query := by
  obtain ⟨statements, -, split, -, -⟩ := parse_eq_ok read
  rw [(agrees_of_parse split read).tables, (Collects.foldl_put statements).tables] at h
  obtain ⟨s, hs, h⟩ := List.mem_flatMap.mp h
  obtain ⟨htable, rfl⟩ := Statement.mem_creating.mp h
  obtain ⟨hkind, hname⟩ := Statement.of_tableOf? htable
  rw [Statement.name_of_split split hs (Or.inl hkind), hkind] at hname
  exact CreateTable.nameIn_relocateKeys hname

end SqlDump
