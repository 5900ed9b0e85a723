import SqlDump.Proofs.Scripts

/-!
# Routines put into a region

A region that holds routines, each with the delimiter right behind it, has those routines for its
statements, whatever semicolons and quotes they hold. A routine is refused if the word for what it
creates has a dotted capital I: that letter counts as an I where the word is looked for, but the
capitals of the word are none of the known words.
-/

namespace SqlDump

/-! ## 1. A token behind a clean text -/

namespace Text

theorem Tidy.append_token {s token : Text} (h : Tidy s) (hs : EndsSolid s)
    (hsolid : ∀ c ∈ token, isBlank c = false) (hdash : ∀ r, token ≠ '-' :: r) :
    Tidy (s ++ token) := by
  intro before c behind e hc
  have unbroken : c ∉ token := fun hmem => by
    rw [not_isLineBreak_of_solid (hsolid c hmem)] at hc
    cases hc
  rcases List.append_eq_append_iff.mp e with ⟨x, -, hx⟩ | ⟨x, rfl, hx⟩
  · exact absurd (hx ▸ by simp) unbroken
  · cases x with
    | nil => exact absurd (by rw [← List.nil_append token, ← hx]; simp) unbroken
    | cons d x =>
      obtain ⟨rfl, rfl⟩ := List.cons.inj hx
      obtain ⟨hfeed, hbefore, hcomment⟩ := h before c x rfl hc
      -- a break ends no text whose last character is no blank
      have hx : x ≠ [] := by
        rintro rfl
        have hsolid := endsSolid_concat.mp hs
        rw [isBlank_of_isLineBreak hc] at hsolid
        cases hsolid
      have hend : EndsSolid x := (List.append_cons before c x ▸ hs).of_append hx
      exact ⟨hfeed, hbefore, not_isComment_append hend.not_allBlank hcomment fun _ r _ => hdash r⟩

/-- Behind a clean text a token of a region leaves the text clean. -/
theorem cleanText_append_token {s token : Text} (hclean : cleanText s = s) (hs : EndsSolid s)
    (hne : token ≠ []) (hsolid : ∀ c ∈ token, isBlank c = false)
    (hdash : ∀ r, token ≠ '-' :: r) : cleanText (s ++ token) = s ++ token := by
  refine cleanText_eq_self (Tidy.append_token (hclean ▸ tidy_cleanText s) hs hsolid hdash) ?_ ?_
  · exact not_isComment_append hs.not_allBlank (hclean ▸ not_isComment_cleanText s)
      fun _ r _ => hdash r
  · obtain ⟨u, d, rfl⟩ := List.eq_nil_or_concat token |>.resolve_left hne
    rw [List.concat_eq_append] at hsolid ⊢
    exact EndsSolid.append ⟨u, d, rfl, hsolid d (by simp)⟩ s

end Text

/-! ## 2. The words for routines -/

namespace Statement

/-- The words for routines. -/
def routineWords : List Text := ["PROCEDURE", "FUNCTION", "TRIGGER"]

/-- Whether a text is to be told a routine by a word with a dotted capital I. -/
def Misspelled (text : Text) : Prop :=
  objectWord? text ≠ some "TABLE" ∧ objectWord? text ≠ some "VIEW" ∧
    ∃ word, createdWord? (fun _ => false) routineWords (skipVersion text) = some word ∧
      '\u0130' ∈ word

/-- A keyword is spelled in capitals as it is, unless a dotted capital I stands in it. -/
theorem upper_of_spelling {w u : Text}
    (hw : (w.all fun k => (letterForms k).all fun c =>
      Text.capital c = [k] || Text.capital c = ['\u0130']) = true)
    (h : keyword? w u = some []) : Text.upper u = w ∨ '\u0130' ∈ Text.upper u := by
  induction w generalizing u with
  | nil =>
    cases h
    exact Or.inl rfl
  | cons k w ih =>
    rw [List.all_cons, Bool.and_eq_true] at hw
    cases u with
    | nil => cases h
    | cons c u =>
      rw [keyword?] at h
      split at h
      · rename_i hk
        have hform := List.all_eq_true.mp hw.1 c (mem_letterForms hk)
        rw [Bool.or_eq_true, decide_eq_true_eq, decide_eq_true_eq] at hform
        rw [Text.upper, List.flatMap_cons, ← Text.upper, List.mem_append]
        rcases hform with hc | hc
        · rcases ih hw.2 h with hu | hu
          · exact Or.inl (by rw [hc, hu]; rfl)
          · exact Or.inr (Or.inr hu)
        · exact Or.inr (Or.inl (by simp [hc]))
      · cases h

-- What is found behind CREATE is one of the words, in capitals.
theorem exists_of_createdWord? {stop : Char → Bool} {words : List Text} {s word : Text}
    (h : createdWord? stop words s = some word) :
    ∃ w ∈ words, ∃ u, u <:+: s ∧ keyword? w u = some [] ∧ Text.upper u = word := by
  obtain ⟨r, hr, h⟩ := Option.bind_eq_some_iff.mp h
  obtain ⟨⟨before, found⟩, hsearch, h⟩ := Option.bind_eq_some_iff.mp h
  cases h
  obtain ⟨create, hs, -⟩ := exists_of_keyword? (Option.filter_eq_some_iff.mp hr).1
  obtain ⟨t, ht, hfound⟩ := Text.exists_of_search hsearch
  split at hfound
  · obtain ⟨rest, hany, hupper⟩ := Option.map_eq_some_iff.mp hfound
    obtain ⟨w, hw, hread⟩ := List.exists_of_findSome?_eq_some hany
    obtain ⟨u, rfl, -, -, hu⟩ := exists_of_keyword? (Option.filter_eq_some_iff.mp hread).1
    rw [List.length_append, Nat.add_sub_cancel, List.take_left] at hupper
    exact ⟨w, hw, u, ⟨create ++ before, rest, by simp [hs, ht]⟩, by simpa using hu [], hupper⟩
  · cases hfound

theorem skipVersion_suffix (s : Text) : skipVersion s <:+ s := by
  unfold skipVersion
  split
  · rename_i r hr
    exact ((List.dropWhile_suffix _).trans (List.dropWhile_suffix _)).trans
      ⟨"/*!".toList, (Text.append_of_after? hr).symm⟩
  · exact List.suffix_rfl

/-- The dotted capital I is the capital of no other letter of a word for a routine. -/
theorem Misspelled.mem {text : Text} (h : Misspelled text) : '\u0130' ∈ text := by
  have hforms : routineWords.all (fun w => w.all fun k => (letterForms k).all fun c =>
      c = '\u0130' || '\u0130' ∉ Text.capital c) = true := by decide +kernel
  obtain ⟨-, -, word, hword, hmem⟩ := h
  obtain ⟨w, hw, u, hu, hread, rfl⟩ := exists_of_createdWord? hword
  obtain ⟨c, hc, hcapital⟩ := List.mem_flatMap.mp hmem
  obtain ⟨u', hu', -, hletters, -⟩ := exists_of_keyword? hread
  obtain ⟨k, hk, hletter⟩ := hletters c (by simpa [hu'] using hc)
  have hform := List.all_eq_true.mp (List.all_eq_true.mp (List.all_eq_true.mp hforms w hw) k hk) c
    (mem_letterForms hletter)
  obtain rfl : c = '\u0130' := by simpa [hcapital] using hform
  exact (skipVersion_suffix text).subset (hu.subset hc)

theorem objectKind_of_mem {word : Text} (h : '\u0130' ∈ word) :
    objectKind word = .error (.unknownObject word) := by
  unfold objectKind
  split
  · rename_i kind hfound
    have hmem := Ordered.mem_of_get? hfound
    simp only [List.mem_cons, List.not_mem_nil, or_false, Prod.mk.injEq] at hmem
    rcases hmem with ⟨rfl, -⟩ | ⟨rfl, -⟩ | ⟨rfl, -⟩ | ⟨rfl, -⟩ | ⟨rfl, -⟩ <;>
      exact absurd h (by decide)
  · rfl

/-- A word for a routine is known if no dotted capital I stands in it. -/
theorem objectKind_of_createdWord? {stop : Char → Bool} {s word : Text}
    (h : createdWord? stop routineWords s = some word) (hplain : '\u0130' ∉ word) :
    ∃ kind, objectKind word = .ok kind := by
  have hforms : routineWords.all (fun w => w.all fun k => (letterForms k).all fun c =>
      Text.capital c = [k] || Text.capital c = ['\u0130']) = true := by decide +kernel
  obtain ⟨w, hw, u, -, hu, rfl⟩ := exists_of_createdWord? h
  obtain rfl := (upper_of_spelling (List.all_eq_true.mp hforms w hw) hu).resolve_right hplain
  have hknown : ∀ w ∈ routineWords, ∃ kind, objectKind w = .ok kind := by
    simp only [routineWords, List.forall_mem_cons]
    exact ⟨⟨_, rfl⟩, ⟨_, rfl⟩, ⟨_, rfl⟩, fun _ h => (List.not_mem_nil h).elim⟩
  exact hknown _ hw

/-- A text in a region is told what it is, unless it is misspelled. -/
theorem classifyRoutine_cases (text : Text) :
    (∃ statement, ¬ Misspelled text ∧ classifyRoutine text = .ok statement) ∨
      ∃ word, Misspelled text ∧ '\u0130' ∈ word ∧
        classifyRoutine text = .error (.unknownObject word) := by
  unfold classifyRoutine
  split
  · rename_i h
    exact Or.inl ⟨_, fun hbad => h.elim hbad.1 hbad.2.1, rfl⟩
  rename_i hother
  rw [not_or] at hother
  split
  · rename_i word hword
    by_cases hmem : '\u0130' ∈ word
    · rw [objectKind_of_mem hmem]
      exact Or.inr ⟨word, ⟨hother.1, hother.2, word, hword, hmem⟩, hmem, rfl⟩
    · obtain ⟨kind, hkind⟩ := objectKind_of_createdWord? hword hmem
      rw [hkind]
      refine Or.inl ⟨_, ?_, rfl⟩
      rintro ⟨-, -, word', hword', hmem'⟩
      obtain rfl := Option.some.inj (hword.symm.trans hword')
      exact hmem hmem'
  · rename_i hnone
    refine Or.inl ⟨_, ?_, rfl⟩
    rintro ⟨-, -, word, hword, -⟩
    cases hnone.symm.trans hword

end Statement

/-! ## 3. A region of routines -/

/-- What can be declared as the delimiter of a region and starts no comment. -/
structure Delimiter.IsToken (token : Text) : Prop where
  nonempty : token ≠ []
  solid : ∀ c ∈ token, isBlank c = false
  other : token ≠ [';']
  dash : ∀ r, token ≠ '-' :: r

/-- A clean text without blanks around it that ends where the token first stands, no line of the two
declaring a delimiter. -/
structure Delimiter.Ends (token text : Text) : Prop where
  nonempty : text ≠ []
  trimmed : Text.trim text = text
  clean : cleanText text = text
  quiet : ∀ line ∈ Text.feeds (text ++ token), declared? line = none
  first : Text.cut? token (text ++ token) = some (text, [])

/-- A region with the texts, each with the token right behind it. -/
def regionScript (token : Text) (routines : List Text) : Text :=
  "DELIMITER " ++ token ++ ['\n'] ++ (routines.flatMap fun r => r ++ token ++ ['\n']) ++
    "DELIMITER ;"

namespace Segment

variable {token : Text} {routines : List Text}

/-- The lines of the texts, each with the token right behind it. -/
def regionLines (token : Text) (routines : List Text) : List Text :=
  routines.flatMap fun r => Text.feeds (r ++ token)

theorem cleanLines_append_token (htoken : Delimiter.IsToken token) {r : Text}
    (hr : Delimiter.Ends token r) : Text.cleanLines (r ++ token) = Text.feeds (r ++ token) := by
  have hclean := Text.cleanText_append_token hr.clean
    (Text.endsSolid_of_trim hr.trimmed hr.nonempty) htoken.nonempty htoken.solid htoken.dash
  have hne : Text.cleanLines (r ++ token) ≠ [] := by
    intro hnil
    rw [show cleanText (r ++ token) = Text.join "\n" (Text.cleanLines (r ++ token)) from rfl,
      hnil] at hclean
    exact hr.nonempty (List.append_eq_nil_iff.mp hclean.symm).1
  rw [← Text.feeds_cleanText hne, hclean]

theorem cleanLines_opening (htoken : Delimiter.IsToken token) :
    Text.cleanLines ("DELIMITER " ++ token) = [("DELIMITER " ++ token : Text)] := by
  have hline : ∀ d ∈ ("DELIMITER " ++ token : Text), isLineBreak d = false := by
    intro d hd
    rcases List.mem_append.mp hd with hd | hd
    · have hkeyword : "DELIMITER ".toList.all (!isLineBreak ·) = true := by decide +kernel
      simpa using List.all_eq_true.mp hkeyword d hd
    · exact Text.not_isLineBreak_of_solid (htoken.solid d hd)
  obtain ⟨u, d, hu⟩ := List.eq_nil_or_concat token |>.resolve_left htoken.nonempty
  have hsolid : Text.EndsSolid ("DELIMITER " ++ token) :=
    Text.EndsSolid.append ⟨u, d, by rw [hu, List.concat_eq_append],
      htoken.solid d (by simp [hu])⟩ _
  have hcomment : Text.isComment ("DELIMITER " ++ token) = false :=
    Text.not_isComment_cons (by decide) (by decide) _
  rw [Text.cleanLines_line hline, if_pos (Text.isClean_iff.mpr ⟨hsolid.not_allBlank, hcomment⟩),
    hsolid.trimRight]

theorem cleanLines_routines (htoken : Delimiter.IsToken token)
    (h : ∀ r ∈ routines, Delimiter.Ends token r) (rest : Text) :
    Text.cleanLines ((routines.flatMap fun r => r ++ token ++ ['\n']) ++ rest) =
      regionLines token routines ++ Text.cleanLines rest := by
  induction routines with
  | nil => rfl
  | cons r routines ih =>
    obtain ⟨hr, hrest⟩ := List.forall_mem_cons.mp h
    rw [List.flatMap_cons, List.append_assoc, List.append_assoc, List.singleton_append,
      Text.cleanLines_append, ih hrest, cleanLines_append_token htoken hr]
    exact (List.append_assoc _ _ _).symm

theorem cleanLines_regionScript (htoken : Delimiter.IsToken token)
    (h : ∀ r ∈ routines, Delimiter.Ends token r) :
    Text.cleanLines (regionScript token routines) =
      ("DELIMITER " ++ token) :: (regionLines token routines ++ ["DELIMITER ;".toList]) := by
  have seam : ∀ a b c : Text, a ++ ['\n'] ++ b ++ c = a ++ '\n' :: (b ++ c) := by simp
  have hclosing : Text.cleanLines "DELIMITER ;" = ["DELIMITER ;".toList] := by decide +kernel
  unfold regionScript
  rw [seam, Text.cleanLines_append, cleanLines_opening htoken, cleanLines_routines htoken h,
    hclosing]
  exact List.singleton_append

theorem declared?_opening (htoken : Delimiter.IsToken token) :
    Delimiter.declared? ("DELIMITER " ++ token) = some token :=
  Delimiter.declared?_eq_some.mpr ⟨"DELIMITER ".toList, [], by rw [List.append_nil],
    ⟨[], "DELIMITER".toList, [' '], rfl, fun _ h => (List.not_mem_nil h).elim, by decide +kernel,
      List.cons_ne_nil _ _, List.forall_mem_singleton.mpr (by decide)⟩,
    htoken.nonempty, htoken.solid, fun _ h => (List.not_mem_nil h).elim⟩

theorem ofLines_append_turn {delimiter next : Option Text} {front rest : List Text} {line : Text}
    (hfront : ∀ l ∈ front, turn? delimiter l = none) (hline : turn? delimiter line = some next) :
    ofLines delimiter (front ++ line :: rest) = ⟨delimiter, front⟩ :: ofLines next rest := by
  induction front with
  | nil => rw [List.nil_append, ofLines_cons, hline]
  | cons first front ih =>
    obtain ⟨hfirst, hfront⟩ := List.forall_mem_cons.mp hfront
    rw [List.cons_append, ofLines_cons, hfirst, ih hfront]
    rfl

/-- The region stands between two segments without lines. -/
theorem ofLines_regionScript (htoken : Delimiter.IsToken token)
    (h : ∀ r ∈ routines, Delimiter.Ends token r) :
    ofLines none (Text.cleanLines (regionScript token routines)) =
      [⟨none, []⟩, ⟨some token, regionLines token routines⟩, ⟨none, []⟩] := by
  have hopening : turn? none ("DELIMITER " ++ token) = some (some token) := by
    rw [turn?, declared?_opening htoken, Option.bind_some, if_neg htoken.other]
  have hquiet : ∀ line ∈ regionLines token routines, turn? (some token) line = none := by
    intro line hline
    obtain ⟨r, hr, hline⟩ := List.mem_flatMap.mp hline
    rw [turn?, (h r hr).quiet line hline]
    rfl
  have hclosing : turn? (some token) "DELIMITER ;".toList = some none := by
    rw [turn?, show Delimiter.declared? "DELIMITER ;".toList = some [';'] by decide +kernel]
    rfl
  rw [cleanLines_regionScript htoken h, ofLines_cons, hopening]
  exact congrArg (_ :: ·) (ofLines_append_turn hquiet hclosing)

theorem texts_cut {token s u v : Text} (hne : token ≠ []) (h : Text.cut? token s = some (u, v)) :
    texts (some token) s = ([Text.trim u].filter (!·.isEmpty)) ++ texts (some token) v := by
  rw [texts, cut, Text.splitOn_of_cut? hne h, List.map_cons, List.filter_cons]
  cases hu : (Text.trim u).isEmpty <;> simp [texts, cut, hu]

theorem texts_nil (token : Text) : texts (some token) [] = [] := by
  rw [texts, cut, Text.splitOn]
  rfl

/-- A text in front of the token is a statement, whatever blanks stand before it. -/
theorem texts_ends (htoken : Delimiter.IsToken token) {lead r : Text}
    (hlead : ∀ c ∈ lead, isBlank c = true) (hr : Delimiter.Ends token r) (rest : Text) :
    texts (some token) (lead ++ (r ++ token ++ rest)) = r :: texts (some token) rest := by
  have hcut : Text.cut? token (lead ++ (r ++ token ++ rest)) = some (lead ++ r, rest) := by
    induction lead with
    | nil => exact Text.cut?_append hr.first rest
    | cons c lead ih =>
      obtain ⟨hc, hlead⟩ := List.forall_mem_cons.mp hlead
      obtain ⟨d, more, htoken'⟩ := List.exists_cons_of_ne_nil htoken.nonempty
      have hd : d ≠ c := by
        rintro rfl
        rw [htoken.solid d (htoken' ▸ List.mem_cons_self)] at hc
        cases hc
      have hafter : Text.after? token (c :: (lead ++ (r ++ token ++ rest))) = none := by
        rw [htoken', Text.after?, if_neg hd]
      rw [List.cons_append, Text.cut?, hafter, ih hlead]
      rfl
  rw [texts_cut htoken.nonempty hcut, Text.trim_blank_append hlead, hr.trimmed]
  cases hr' : r with
  | nil => exact absurd hr' hr.nonempty
  | cons c r => rfl

theorem texts_begun_regionLines (htoken : Delimiter.IsToken token)
    (h : ∀ r ∈ routines, Delimiter.Ends token r) :
    texts (some token) (Text.begun (regionLines token routines)) = routines := by
  induction routines with
  | nil => exact texts_nil token
  | cons r routines ih =>
    obtain ⟨hr, hrest⟩ := List.forall_mem_cons.mp h
    have hbegun : Text.begun (regionLines token (r :: routines)) =
        ['\n'] ++ (r ++ token ++ Text.begun (regionLines token routines)) := by
      rw [regionLines, List.flatMap_cons, Text.begun, List.flatMap_append, ← Text.begun,
        ← Text.begun]
      obtain ⟨line, lines, hlines⟩ := List.exists_cons_of_ne_nil (Text.feeds_ne_nil (r ++ token))
      rw [hlines, Text.begun_cons, ← hlines, Text.join_feeds]
      rfl
    rw [hbegun, texts_ends htoken (List.forall_mem_singleton.mpr (by decide)) hr, ih hrest]

theorem texts_regionLines (htoken : Delimiter.IsToken token)
    (h : ∀ r ∈ routines, Delimiter.Ends token r) :
    texts (some token) (Text.join "\n" (regionLines token routines)) = routines := by
  cases routines with
  | nil => exact texts_nil token
  | cons r routines =>
    obtain ⟨hr, hrest⟩ := List.forall_mem_cons.mp h
    have hjoin : Text.join "\n" (regionLines token (r :: routines)) =
        [] ++ (r ++ token ++ Text.begun (regionLines token routines)) := by
      rw [regionLines, List.flatMap_cons, Text.join_append (Text.feeds_ne_nil _), Text.join_feeds]
      rfl
    rw [hjoin, texts_ends htoken (fun _ h => (List.not_mem_nil h).elim) hr,
      texts_begun_regionLines htoken hrest]

end Segment

/-! ## 4. Splitting -/

namespace Statement

variable {token : Text} {routines : List Text}

theorem read_region (htoken : Delimiter.IsToken token)
    (h : ∀ r ∈ routines, Delimiter.Ends token r) :
    Segment.read {} ⟨some token, Segment.regionLines token routines⟩ =
      routines.mapM classifyRoutine := by
  rw [Segment.read_unassigned]
  exact congrArg (List.mapM (Segment.classify (some token)))
    (Segment.texts_regionLines htoken h)

theorem split_regionScript_eq (htoken : Delimiter.IsToken token)
    (h : ∀ r ∈ routines, Delimiter.Ends token r) :
    split {} (regionScript token routines) = routines.mapM classifyRoutine := by
  have hempty : Segment.read {} ⟨none, []⟩ = .ok [] := rfl
  rw [Segment.split_eq_cleanLines, Segment.ofLines_regionScript htoken h, List.mapM_cons, hempty,
    List.mapM_cons, read_region htoken h, List.mapM_cons, hempty, List.mapM_nil]
  cases routines.mapM classifyRoutine with
  | error e => rfl
  | ok statements => exact congrArg Except.ok (by simp)

theorem inRegions_regionScript_eq (htoken : Delimiter.IsToken token)
    (h : ∀ r ∈ routines, Delimiter.Ends token r) :
    inRegions {} (regionScript token routines) = routines.mapM classifyRoutine := by
  have hne : Text.cleanLines (regionScript token routines) ≠ [] := by
    rw [Segment.cleanLines_regionScript htoken h]
    exact List.cons_ne_nil _ _
  have hregion : Segment.split (cleanText (regionScript token routines)) =
      [⟨none, []⟩, ⟨some token, Segment.regionLines token routines⟩, ⟨none, []⟩] := by
    rw [Segment.split, Text.feeds_cleanText hne, Segment.ofLines_regionScript htoken h]
  have hsegment : ofSegment {} ⟨some token, Segment.regionLines token routines⟩ =
      routines.mapM classifyRoutine :=
    congrArg (List.mapM classifyRoutine) (Segment.texts_regionLines htoken h)
  rw [inRegions, hregion]
  show (do let statements ← List.mapM (ofSegment {}) [_]; return statements.flatten) = _
  rw [List.mapM_cons, hsegment, List.mapM_nil]
  cases routines.mapM classifyRoutine with
  | error e => rfl
  | ok statements => exact congrArg Except.ok (by simp)

/-! ## 5. Routines are read back -/

/-- **A region is split into the routines put into it**, whatever semicolons and quotes, closed or
not, they hold, and the statements in regions are the same ones. Only a routine whose word for what
it creates has a dotted capital I is refused, and then all of the text is. -/
theorem split_regionScript (htoken : Delimiter.IsToken token)
    (h : ∀ r ∈ routines, Delimiter.Ends token r) :
    inRegions {} (regionScript token routines) = split {} (regionScript token routines) ∧
    ((∀ r ∈ routines, ¬ Misspelled r) → ∃ statements,
      split {} (regionScript token routines) = .ok statements ∧
      statements.map (·.text) = routines) ∧
    ((∃ r ∈ routines, Misspelled r) → ∃ word, '\u0130' ∈ word ∧
      split {} (regionScript token routines) = .error (.unknownObject word)) := by
  rw [inRegions_regionScript_eq htoken h, split_regionScript_eq htoken h]
  refine ⟨rfl, fun hspelled => ?_, fun ⟨r, hr, hbad⟩ => ?_⟩
  · have each : ∀ r ∈ routines, ∃ statement, classifyRoutine r = .ok statement := by
      intro r hr
      rcases classifyRoutine_cases r with ⟨statement, -, hok⟩ | ⟨_, hbad, -⟩
      · exact ⟨statement, hok⟩
      · exact absurd hbad (hspelled r hr)
    obtain ⟨statements, hstatements⟩ := Outcome.exists_mapM_iff.mpr each
    exact ⟨statements, hstatements, @Segment.texts_of_mapM (some token) _ _ hstatements⟩
  · cases hall : routines.mapM classifyRoutine with
    | ok statements =>
      obtain ⟨statement, hok⟩ := Outcome.exists_mapM_iff.mp ⟨statements, hall⟩ r hr
      rcases classifyRoutine_cases r with ⟨_, hspelled, -⟩ | ⟨word, -, -, herror⟩
      · exact absurd hbad hspelled
      · cases hok.symm.trans herror
    | error e =>
      obtain ⟨other, -, hother⟩ := Outcome.exists_of_mapM_eq_error hall
      rcases classifyRoutine_cases other with ⟨_, -, hok⟩ | ⟨word, -, hword, herror⟩
      · cases hother.symm.trans hok
      · exact ⟨word, hword, congrArg Except.error (Except.error.inj (hother.symm.trans herror))⟩

/-- An unclosed quote and semicolons before the delimiter, and a routine of one line. -/
theorem split_regionScript_quote :
    let first : Text := "CREATE TRIGGER t BEFORE INSERT ON a FOR EACH ROW BEGIN\n  SET @x = ';\nEND"
    let second : Text := "CREATE FUNCTION f() RETURNS int RETURN 1;"
    Delimiter.IsToken "//" ∧ (∀ r ∈ [first, second], Delimiter.Ends "//" r) ∧
      ∃ statements, split {} (regionScript "//" [first, second]) = .ok statements ∧
        inRegions {} (regionScript "//" [first, second]) = .ok statements ∧
        statements.map (·.text) = [first, second] := by
  intro first second
  have htoken : Delimiter.IsToken "//" := ⟨by decide,
    List.forall_mem_cons.mpr ⟨by decide, List.forall_mem_singleton.mpr (by decide)⟩, by decide, fun _ => nofun⟩
  have hends : ∀ r ∈ [first, second], Delimiter.Ends "//" r := by
    intro r hr
    rcases List.mem_pair.mp hr with rfl | rfl
    · exact ⟨by decide, by decide +kernel, by decide +kernel, by decide +kernel, by decide +kernel⟩
    · exact ⟨by decide, by decide +kernel, by decide +kernel, by decide +kernel, by decide +kernel⟩
  have hspelled : ∀ r ∈ [first, second], ¬ Misspelled r := by
    intro r hr hbad
    rcases List.mem_pair.mp hr with rfl | rfl
    · exact absurd hbad.mem (by decide)
    · exact absurd hbad.mem (by decide)
  obtain ⟨hregions, hsplit, -⟩ := split_regionScript htoken hends
  obtain ⟨statements, hstatements, htexts⟩ := hsplit hspelled
  exact ⟨htoken, hends, statements, hstatements, hregions.trans hstatements, htexts⟩

end Statement

end SqlDump
