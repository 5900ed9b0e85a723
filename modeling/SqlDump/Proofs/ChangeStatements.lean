import Mathlib.Data.List.SplitBy
import SqlDump.Proofs.Headers
import SqlDump.Proofs.Rests

/-!
# ALTER statements change by change

The changes of a statement are its parts between commas, each put together with the options behind
it. The statement for a change names the same table, a column that is added or modified is read in it
as it is read in the change, and it has no second change.
-/

namespace SqlDump.Alter

open Nesting (rests scan)
open Text (firstWord)

/-! ## 1. The words of changes -/

-- A word is read off the word characters at the front.
theorem word?_takeWhile {w : Text} (hw : spelledIn isWord w = true) (s : Text) :
    (word? w (s.takeWhile isWord)).isSome = (word? w s).isSome := by
  have hs := List.takeWhile_append_dropWhile (p := isWord) (l := s)
  have hends : wordEnds (s.dropWhile isWord) = true := by
    cases hrest : s.dropWhile isWord with
    | nil => rfl
    | cons c rest =>
      have hc := Text.not_of_dropWhile hrest
      simpa [wordEnds] using hc
  have hword : ∀ t, (word? w t).isSome = true ↔ ∃ r, keyword? w t = some r ∧ wordEnds r = true := by
    intro t
    rw [Option.isSome_iff_exists]
    exact exists_congr fun r => Option.filter_eq_some_iff
  rw [Bool.eq_iff_iff, hword, hword]
  constructor
  · rintro ⟨r, hr, hrest⟩
    obtain ⟨u, hu, -⟩ := exists_of_keyword? hr
    cases r with
    | nil =>
      have hread := keyword?_of_append hr (s.dropWhile isWord)
      rw [hs] at hread
      exact ⟨_, hread, hends⟩
    | cons c r =>
      have hc : isWord c = true := List.mem_takeWhile_imp (hu ▸ by simp : c ∈ s.takeWhile isWord)
      rw [wordEnds, hc] at hrest
      cases hrest
  · rintro ⟨r, hr, hrest⟩
    obtain ⟨u, rfl, -, hu, hread⟩ := exists_of_spelled hw hr
    have htake : (u ++ r).takeWhile isWord = u := by
      refine Text.takeWhile_append_eq ?_ hu
      rintro c r rfl
      simpa [wordEnds] using hrest
    have hread := hread []
    rw [List.append_nil] at hread
    exact ⟨[], by rw [htake, hread], rfl⟩

theorem startsChange_takeWhile (s : Text) : startsChange (s.takeWhile isWord) = startsChange s := by
  have hwords : changeWords.all (spelledIn isWord) = true := by decide +kernel
  have hany : ∀ t, startsChange t = changeWords.any fun w => (word? w t).isSome := fun t =>
    List.isSome_findSome?
  rw [hany, hany, Bool.eq_iff_iff, List.any_eq_true, List.any_eq_true]
  refine exists_congr fun w => and_congr_right fun hw => ?_
  rw [word?_takeWhile (List.all_eq_true.mp hwords w hw)]

theorem startsChange_append_comma (s t : Text) : startsChange (s ++ ',' :: t) = startsChange s := by
  have hword : (s ++ ',' :: t).takeWhile isWord = s.takeWhile isWord :=
    Text.takeWhile_append_stop (by rintro c r ⟨⟩; decide +kernel) s
  rw [← startsChange_takeWhile, hword, startsChange_takeWhile]

/-! ## 2. Groups of parts -/

/-- The parts of a statement between commas. -/
def fragments (body : Text) : List Text := (Nesting.pieces ',' true body).filter (!·.isEmpty)

/-- Each part that starts a change together with the options behind it. -/
def groups (body : Text) : List (List Text) :=
  (fragments body).splitBy fun _ part => !startsChange part

-- In a group, only the first part starts a change.
theorem isChain_iff {first : Text} {rest : List Text} :
    (first :: rest).IsChain (fun _ part => (!startsChange part) = true) ↔
      ∀ part ∈ rest, startsChange part = false := by
  induction rest generalizing first with
  | nil => simp
  | cons part rest ih =>
    rw [List.isChain_cons_cons, ih, List.forall_mem_cons, Bool.not_eq_true']

theorem join_concat {current : List Text} (hne : current ≠ []) (part : Text) :
    Text.join ", " (current ++ [part]) = Text.join ", " current ++ ", " ++ part := by
  induction current with
  | nil => exact absurd rfl hne
  | cons first rest ih =>
    cases rest with
    | nil =>
      rw [List.singleton_append, Nesting.join_cons_cons, Text.join, Text.join,
        List.intercalate_singleton, List.intercalate_singleton, List.append_assoc]
    | cons second rest =>
      have hrest := ih (List.cons_ne_nil _ _)
      rw [List.cons_append, List.cons_append, Nesting.join_cons_cons, Nesting.join_cons_cons,
        ← List.cons_append, hrest]
      simp

theorem gather_eq_splitBy {current : List Text} (hne : current ≠ [])
    (hoptions : current.IsChain fun _ part => (!startsChange part) = true) (parts : List Text) :
    gather (Text.join ", " current) parts =
      ((current ++ parts).splitBy fun _ part => !startsChange part).map (Text.join ", ") := by
  induction parts generalizing current with
  | nil =>
    rw [List.append_nil, List.splitBy_of_isChain hne hoptions]
    rfl
  | cons part parts ih =>
    rw [gather]
    split
    · rename_i hstarts
      rw [List.splitBy_append_cons _ (by simp [hstarts]), List.splitBy_of_isChain hne hoptions]
      have hpart := @ih [part] (List.cons_ne_nil _ _) (List.isChain_singleton part)
      rw [Text.join, List.intercalate_singleton] at hpart
      rw [hpart]
      rfl
    · rename_i hstarts
      have hmore : (current ++ [part]).IsChain fun _ part => (!startsChange part) = true := by
        obtain ⟨first, rest, rfl⟩ := List.exists_cons_of_ne_nil hne
        rw [isChain_iff] at hoptions
        rw [List.cons_append, isChain_iff, List.forall_mem_append, List.forall_mem_singleton]
        exact ⟨hoptions, by simpa using hstarts⟩
      have hconcat := @ih (current ++ [part]) (by simp) hmore
      rw [join_concat hne] at hconcat
      rw [List.append_cons]
      exact hconcat

theorem changes_eq (body : Text) : changes body = (groups body).map (Text.join ", ") := by
  unfold changes groups fragments
  cases (Nesting.pieces ',' true body).filter (!·.isEmpty) with
  | nil => rfl
  | cons part parts =>
    have hgather := @gather_eq_splitBy [part] (List.cons_ne_nil _ _) (List.isChain_singleton part) parts
    rw [Text.join, List.intercalate_singleton] at hgather
    exact hgather

theorem startsChange_join {first : Text} {rest : List Text} :
    startsChange (Text.join ", " (first :: rest)) = startsChange first := by
  cases rest with
  | nil => rw [Text.join, List.intercalate_singleton]
  | cons second rest =>
    rw [Nesting.join_cons_cons]
    exact startsChange_append_comma first _

/-! ## 3. One change -/

theorem startsChange_trim (s : Text) : startsChange (Text.trim s) = startsChange (firstWord s) := by
  rw [← Text.firstWord_trim, firstWord, Text.trimLeft_trim, startsChange_takeWhile]

/-- Where no cut is followed by a change, there is one change at most. -/
theorem length_changes {body : Text}
    (h : ∀ r ∈ rests (.outside, 0) body, startsChange (firstWord r) = false) :
    (changes body).length ≤ 1 := by
  obtain ⟨piece, pieces, hraw, -⟩ := @Nesting.first_rawPieces (.outside, 0) body
  have hwords := @Nesting.firstWord_rawPieces (.outside, 0) body
  rw [hraw, List.tail_cons] at hwords
  have hoptions : ∀ part ∈ pieces.map Text.trim, startsChange part = false := by
    intro part hpart
    obtain ⟨q, hq, rfl⟩ := List.mem_map.mp hpart
    obtain ⟨r, hr, hword⟩ := List.mem_map.mp (hwords ▸ List.mem_map_of_mem hq)
    rw [startsChange_trim, ← hword]
    exact h r hr
  have hfragments : fragments body = ((piece :: pieces).map Text.trim).filter (!·.isEmpty) := by
    rw [fragments, Nesting.filter_pieces]
    exact congrArg (fun parts => (parts.map Text.trim).filter (!·.isEmpty)) hraw
  rw [changes_eq, List.length_map, groups]
  cases hparts : fragments body with
  | nil => exact Nat.zero_le 1
  | cons first rest =>
    have hsublist : (first :: rest).Sublist ((piece :: pieces).map Text.trim) := by
      rw [← hparts, hfragments]
      exact List.filter_sublist
    have hrest : ∀ part ∈ rest, startsChange part = false := fun part hpart =>
      hoptions part (hsublist.tail.mem hpart)
    rw [List.splitBy_of_isChain (List.cons_ne_nil _ _) (isChain_iff.mpr hrest)]
    exact Nat.le_refl 1

theorem singles_of_none {text : Text} (h : (split text).1 = none) : singles text = [text] := by
  unfold singles
  split
  · rfl
  · rename_i hsplit
    rw [hsplit] at h
    cases h

theorem singles_of_length {text : Text} (h : (changes (split text).2).length ≤ 1) :
    singles text = [text] := by
  unfold singles
  split
  · rfl
  · rename_i hsplit
    rw [hsplit] at h
    exact if_pos ((List.countP_le_length).trans h)

/-- The dotted name that the first change of a statement goes on with, if the statement's name has no
schema, ends somewhere inside quotes for the scan that looks for commas. -/
def leavesOpen (text : Text) : Bool :=
  match split text with
  | (none, _) => false
  | (some raw, body) => (Identifier.read? raw).any (·.2.isEmpty) &&
      (changes body).head?.any fun change =>
        (Identifier.dotted? (' ' :: change)).any fun name =>
          decide (scan (.outside, 0) name.1 ≠ (.outside, 0))

theorem append_of_dotted? {s name r : Text} (h : Identifier.dotted? s = some (name, r)) :
    s = name ++ r := by
  obtain ⟨⟨d, t⟩, hdot, h⟩ := Option.bind_eq_some_iff.mp h
  obtain ⟨⟨b, r'⟩, hread, h⟩ := Option.bind_eq_some_iff.mp h
  cases h
  obtain ⟨-, -, -, rfl, -⟩ := Identifier.exists_of_dot? hdot
  obtain ⟨-, rfl⟩ := Identifier.Name.of_read? hread
  rw [List.append_assoc]

/-- A change that is read behind a quoted name starts behind what more of the name is read. -/
theorem exists_of_quote {raw change found r : Text} (hraw : Identifier.Qualified raw)
    (hname : (Identifier.read? raw).any (·.2.isEmpty) = true →
      ∀ name r, Identifier.dotted? (' ' :: change) = some (name, r) →
        scan (.outside, 0) name = (.outside, 0))
    (h : Identifier.qualified? (Identifier.quote raw ++ ' ' :: change) = some (found, r)) :
    ∃ name, scan (.outside, 0) name = (.outside, 0) ∧ ' ' :: change = name ++ r := by
  have hstop : Identifier.NoNameChar (' ' :: change) := .cons (by decide) change
  by_cases hplain : (Identifier.read? raw).any (·.2.isEmpty) = true
  · cases hdotted : Identifier.dotted? (' ' :: change) with
    | none =>
      rw [quote_reads hraw hstop fun _ => hdotted] at h
      cases h
      exact ⟨[], rfl, rfl⟩
    | some found' =>
      obtain ⟨name, rest⟩ := found'
      have hraw : Identifier.Name raw := by
        cases hread : Identifier.read? raw with
        | none =>
          rw [hread] at hplain
          cases hplain
        | some p =>
          obtain ⟨hu, hp⟩ := Identifier.Name.of_read? (r := p.2) hread
          rw [hread] at hplain
          rw [hp, List.isEmpty_iff.mp hplain, List.append_nil]
          exact hu
      rw [Identifier.qualified?_eq, hraw.quote.1.read hstop, Option.bind_some] at h
      dsimp only at h
      rw [hdotted] at h
      cases h
      exact ⟨name, hname hplain name _ hdotted, append_of_dotted? hdotted⟩
  · rw [quote_reads hraw hstop fun h => absurd h hplain] at h
    cases h
    exact ⟨[], rfl, rfl⟩

/-- What is read behind the name of a statement that is put together: the change up to its ending, but
for what more of a name is read at its front. -/
theorem exists_of_statement {raw change found : Text} (hraw : Identifier.Qualified raw)
    (hname : (Identifier.read? raw).any (·.2.isEmpty) = true →
      ∀ name r, Identifier.dotted? (' ' :: change) = some (name, r) →
        scan (.outside, 0) name = (.outside, 0))
    (h : (split (statement raw change)).1 = some found) :
    ∃ name lead x, scan (.outside, 0) name = (.outside, 0) ∧ (∀ c ∈ lead, isBlank c = true) ∧
      Ending x ∧ ' ' :: change = name ++ (lead ++ ((split (statement raw change)).2 ++ x)) := by
  obtain ⟨r, hread⟩ := alteredTable?_of_split h
  obtain ⟨x, hx, hcontent⟩ := trimLeft_eq_content_append (statement raw change)
  have hflush : Text.trimLeft (statement raw change) = statement raw change := by
    rw [statement_eq]
    rfl
  have hqualified : Identifier.qualified? (Identifier.quote raw ++ ' ' :: change) =
      some (found, r ++ x) := by
    rw [← alteredTable?_eq_qualified? hraw.quote.1.starts, ← statement_eq, ← hflush, hcontent]
    exact alteredTable?_ending hx hread
  obtain ⟨name, hscan, hchange⟩ := exists_of_quote hraw hname hqualified
  obtain ⟨lead, hr, hlead⟩ := Text.exists_trimLeft r
  refine ⟨name, lead, x, hscan, hlead, hx, ?_⟩
  rw [split_of_some hread, ← List.append_assoc lead, ← hr, hchange]

theorem firstWord_append_ending {x : Text} (hx : Ending x) (s : Text) :
    firstWord (s ++ x) = firstWord s := by
  have hword : ∀ {x : Text}, Ending x → x.takeWhile isWord = [] := by
    intro x hx
    cases x with
    | nil => rfl
    | cons c x =>
      refine List.takeWhile_cons_of_neg ?_
      rcases hx c List.mem_cons_self with hc | rfl
      · simp [not_isWord_of_isBlank hc]
      · decide +kernel
  exact Text.firstWord_append (hword hx) (hword (hx.dropWhile isBlank)) s

/-- A statement that is put together for a change has no second change, if none follows a cut of the
change and the scan is back outside quotes behind what more of a name is read. -/
theorem singles_statement {raw change : Text} (hraw : Identifier.Qualified raw)
    (hname : (Identifier.read? raw).any (·.2.isEmpty) = true →
      ∀ name r, Identifier.dotted? (' ' :: change) = some (name, r) →
        scan (.outside, 0) name = (.outside, 0))
    (hrests : ∀ r ∈ rests (.outside, 0) change, startsChange (firstWord r) = false) :
    singles (statement raw change) = [statement raw change] := by
  cases hsplit : (split (statement raw change)).1 with
  | none => exact singles_of_none hsplit
  | some found =>
    obtain ⟨name, lead, x, hscan, hlead, hx, hchange⟩ := exists_of_statement hraw hname hsplit
    refine singles_of_length (length_changes fun r hr => ?_)
    have hmem : r ++ x ∈ rests (.outside, 0) change := by
      rw [← Nesting.rests_cons_blank (by decide : isBlank ' ' = true), hchange,
        Nesting.rests_append, hscan, Nesting.rests_blank hlead, Nesting.rests_append]
      exact List.mem_append_right _ (List.mem_append_left _ (List.mem_map_of_mem hr))
    rw [← firstWord_append_ending hx]
    exact hrests _ hmem

/-! ## 4. Groups put together -/

/-- A statement stays as it is, or there is one statement for each group of its parts. -/
theorem singles_cases (text : Text) : singles text = [text] ∨
    ∃ raw body, split text = (some raw, body) ∧
      singles text = (groups body).map fun group => statement raw (Text.join ", " group) := by
  unfold singles
  split
  · exact Or.inl rfl
  · rename_i raw body hsplit
    dsimp only
    split
    · exact Or.inl rfl
    · refine Or.inr ⟨raw, body, hsplit, ?_⟩
      rw [changes_eq, List.map_map]
      rfl

theorem startsChange_of_mem_tail {body : Text} {group : List Text}
    (h : group ∈ (groups body).tail) : startsChange (Text.join ", " group) = true := by
  have hchain := List.isChain_getLast_head_splitBy (fun _ part => !startsChange part) (fragments body)
  change (groups body).IsChain _ at hchain
  cases hgroups : groups body with
  | nil =>
    rw [hgroups] at h
    cases h
  | cons first rest =>
    rw [hgroups] at h hchain
    rw [List.tail_cons] at h
    clear hgroups
    induction rest generalizing first with
    | nil => cases h
    | cons second rest ih =>
      obtain ⟨⟨-, hsecond, hstarts⟩, hchain⟩ := List.isChain_cons_cons.mp hchain
      rcases List.mem_cons.mp h with rfl | h
      · obtain ⟨part, parts, rfl⟩ := List.exists_cons_of_ne_nil hsecond
        rw [startsChange_join]
        simpa using hstarts
      · exact ih second hchain h

theorem stands_of_mem_groups {body : Text} {group : List Text} (h : group ∈ groups body) :
    group <:+: fragments body := by
  obtain ⟨front, back, hgroups⟩ := List.append_of_mem h
  have hflatten := List.flatten_splitBy (fun _ part => !startsChange part) (fragments body)
  change (groups body).flatten = _ at hflatten
  rw [hgroups, List.flatten_append, List.flatten_cons] at hflatten
  exact ⟨front.flatten, back.flatten, by rw [← hflatten, List.append_assoc]⟩

-- Within a group, what follows a cut starts with an option.
theorem startsChange_rests {body r : Text} {group : List Text} (hgroup : group ∈ groups body)
    (hr : r ∈ rests (.outside, 0) (Text.join ", " group)) : startsChange (firstWord r) = false := by
  have hstands := stands_of_mem_groups hgroup
  obtain ⟨more, hmore, hsuffix, rfl⟩ := Nesting.rests_join_neighbours hstands hr
  obtain ⟨part, parts, rfl⟩ := List.exists_cons_of_ne_nil hmore
  have hpart : part ∈ group.tail := hsuffix.subset List.mem_cons_self
  have hword : firstWord (' ' :: Text.join ", " (part :: parts)) = firstWord part := by
    rw [Text.firstWord_cons_blank (by decide)]
    cases parts with
    | nil => rw [Text.join, List.intercalate_singleton]
    | cons next parts =>
      rw [Nesting.join_cons_cons]
      exact Text.firstWord_append_comma part _
  have htrim : Text.trim part = part := by
    have hmem : part ∈ fragments body := hstands.subset (List.mem_of_mem_tail hpart)
    rw [fragments, Nesting.filter_pieces] at hmem
    obtain ⟨piece, -, rfl⟩ := List.mem_map.mp (List.mem_of_mem_filter hmem)
    exact Text.trim_trim piece
  rw [hword, ← startsChange_trim, htrim]
  obtain ⟨first, rest, rfl⟩ := List.exists_cons_of_ne_nil (List.ne_nil_of_mem_splitBy hgroup)
  exact isChain_iff.mp (List.isChain_of_mem_splitBy hgroup) part hpart

/-! ## 5. What the changes mean -/

/-- A change that adds or modifies something means in its statement what it means alone. -/
theorem parse_of_startsAddOrModify {raw change : Text} (hraw : Identifier.Qualified raw)
    (h : startsAddOrModify change = true) :
    Clause.parse (statement raw change) = (Clause.parse change).map (Option.map fun clause =>
      { clause with table := some (Identifier.bare raw) }) := by
  obtain ⟨r, hr⟩ := Option.isSome_iff_exists.mp h
  obtain ⟨w, hw, hword⟩ := List.exists_of_findSome?_eq_some hr
  have hkeyword := CreateTable.isSome_of_word? (show (word? w change).isSome = true by rw [hword]; rfl)
  have hall : (["ADD", "MODIFY"] : List Text).all (fun w => isSolidWord w && clash w "ALTER" &&
      w.head?.any fun k => (letterForms k).all fun c => !isBlank c && decide (c ≠ '.')) = true := by
    decide
  have hfits := List.all_eq_true.mp hall w hw
  rw [Bool.and_eq_true, Bool.and_eq_true] at hfits
  obtain ⟨⟨hsolid, hclash⟩, hdot⟩ := hfits
  have hne : w ≠ [] := by
    rintro rfl
    cases hdot
  have hcontent := (content_of_keyword hsolid hne hkeyword).2
  have hnone : alteredTable? (content change) = none := by
    rw [alteredTable?, keyword?_of_clash hclash hcontent]
    rfl
  unfold Clause.parse
  rw [split_statement hraw hsolid hdot hkeyword, split_of_none hnone]
  dsimp only
  rw [Option.map_some, hraw.quote.2]
  cases Clause.readChange (content change) with
  | error e => rfl
  | ok found => cases found <;> rfl

-- A statement goes on with its name inside quotes only if it is the first one.
theorem scan_of_dotted? {text raw body name r : Text} {group : List Text}
    (hsplit : split text = (some raw, body)) (hgroup : group ∈ groups body)
    (hopen : leavesOpen text = true → (groups body).head? ≠ some group)
    (hplain : (Identifier.read? raw).any (·.2.isEmpty) = true)
    (hdotted : Identifier.dotted? (' ' :: Text.join ", " group) = some (name, r)) :
    scan (.outside, 0) name = (.outside, 0) := by
  cases hgroups : groups body with
  | nil =>
    rw [hgroups] at hgroup
    cases hgroup
  | cons first rest =>
    rw [hgroups] at hgroup hopen
    rcases List.mem_cons.mp hgroup with rfl | hgroup
    · have hclosed : leavesOpen text = false := by
        by_contra hleaves
        exact hopen (by simpa using hleaves) rfl
      rw [leavesOpen, hsplit] at hclosed
      dsimp only at hclosed
      rw [hplain, changes_eq, hgroups, Bool.true_and, List.map_cons, List.head?_cons,
        Option.any_some, hdotted, Option.any_some] at hclosed
      simpa using hclosed
    · -- the other groups start with a word
      have htail : group ∈ (groups body).tail := by rw [hgroups]; exact hgroup
      have hstarts := startsChange_of_mem_tail htail
      rw [Identifier.dotted?, (StartsChange.of_part hstarts).stopsName.noDot] at hdotted
      cases hdotted

/-- **ALTER statements change by change.** A statement that is taken apart becomes a statement with
the same name for each group of its parts, all parts being in a group in their order, and each group
but the first starting with the word of a change. A group that adds or modifies something means in its
statement what it means alone, for the table that is named. None of the statements is taken apart any
further, unless the first one goes on with the name and leaves the scan inside quotes there. -/
theorem singles_changes (text : Text) :
    (1 < (singles text).length → ∃ raw body, split text = (some raw, body) ∧
      Kind.alter.nameIn text = some (Identifier.bare raw) ∧
      (groups body).flatten = fragments body ∧ (∀ group ∈ groups body, group ≠ []) ∧
      (∀ group ∈ (groups body).tail, startsChange (Text.join ", " group) = true) ∧
      singles text = (groups body).map (fun group => statement raw (Text.join ", " group)) ∧
      ∀ group ∈ groups body, startsAddOrModify (Text.join ", " group) = true →
        Clause.parse (statement raw (Text.join ", " group)) =
          (Clause.parse (Text.join ", " group)).map (Option.map fun clause =>
            { clause with table := Kind.alter.nameIn text })) ∧
    ∀ single ∈ singles text, (leavesOpen text = true → (singles text).head? ≠ some single) →
      singles single = [single] := by
  rcases singles_cases text with hsame | ⟨raw, body, hsplit, hsingles⟩
  · refine ⟨fun hlength => ?_, fun single hsingle _ => ?_⟩
    · rw [hsame] at hlength
      exact absurd hlength (Nat.lt_irrefl 1)
    · rw [hsame] at hsingle
      rw [List.mem_singleton.mp hsingle, hsame]
  have htable : (split text).1 = some raw := by rw [hsplit]
  have hraw := qualified_of_split htable
  refine ⟨fun _ => ⟨raw, body, hsplit, nameIn_of_split htable, List.flatten_splitBy ..,
    fun group hgroup => List.ne_nil_of_mem_splitBy hgroup, fun group => startsChange_of_mem_tail,
    hsingles, fun group _ hstarts => ?_⟩, fun single hsingle hopen => ?_⟩
  · rw [nameIn_of_split htable]
    exact parse_of_startsAddOrModify hraw hstarts
  rw [hsingles] at hsingle
  obtain ⟨group, hgroup, rfl⟩ := List.mem_map.mp hsingle
  refine singles_statement hraw (fun hplain name r => scan_of_dotted? hsplit hgroup ?_ hplain)
    fun r => startsChange_rests hgroup
  intro hleaves hfirst
  refine hopen hleaves ?_
  rw [hsingles, List.head?_map, hfirst]
  rfl

/-- An option stays with the change in front of it. -/
theorem singles_changes_options :
    let text : Text := "ALTER TABLE s.t ADD a int, COMMENT 'x, y', MODIFY b int"
    leavesOpen text = false ∧
      singles text = ["ALTER TABLE s.t ADD a int, COMMENT 'x, y'",
        "ALTER TABLE s.t MODIFY b int"] ∧
      (∀ single ∈ singles text, singles single = [single]) ∧
      ∃ raw body, split text = (some raw, body) ∧ Kind.alter.nameIn text = some ['t'] ∧
        (groups body).flatten = fragments body := by
  intro text
  have hclosed : leavesOpen text = false := by decide +kernel
  have hsingles : singles text = ["ALTER TABLE s.t ADD a int, COMMENT 'x, y'",
      "ALTER TABLE s.t MODIFY b int"] := by decide +kernel
  obtain ⟨happart, hagain⟩ := singles_changes text
  obtain ⟨raw, body, hsplit, -, hflatten, -⟩ := happart (by rw [hsingles]; decide)
  refine ⟨hclosed, hsingles, fun single hsingle => hagain single hsingle fun hopen => ?_, raw, body,
    hsplit, by decide +kernel, hflatten⟩
  rw [hclosed] at hopen
  cases hopen

-- A name that goes on in quotes, and that the scan for commas reads otherwise, leaves a second change.
example : let first : Text := "ALTER TABLE `t` .\"a\\\" ADD b int, ADD c int\""
    (singles "ALTER TABLE t , .\"a\\\" ADD b int, ADD c int\", ADD d int, ADD e int").head? =
      some first ∧ (singles first).length = 2 := by
  decide +kernel

end SqlDump.Alter
