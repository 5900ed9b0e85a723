import SqlDump.Proofs.Blanks
import SqlDump.Proofs.Keywords
import SqlDump.Proofs.Names
import SqlDump.Statement.Constraint

/-!
# Readers and runs of blanks

What a reader takes off a text whose runs of blanks are made one space is what it takes off the text
itself, its blanks treated alike. So it is with keywords and the gaps between them, and with names.
-/

namespace SqlDump

open Text (collapse collapseAfter endsBlank)

/-! ## 1. Readers in a row -/

section

variable {α β γ δ : Type} {a : α → β} {b : γ → δ} {f : α → Option γ} {g : β → Option δ}

theorem bind_of_map {x : Option α} (h : ∀ v, g (a v) = (f v).map b) :
    (x.map a).bind g = (x.bind f).map b := by
  cases x with
  | none => rfl
  | some v => exact h v

theorem orElse_of_map {x y : Option α} : (x.map a <|> y.map a) = (x <|> y).map a := by
  cases x <;> rfl

theorem findSome?_of_map {l : List α} (h : ∀ v ∈ l, g (a v) = (f v).map b) :
    (l.map a).findSome? g = (l.findSome? f).map b := by
  induction l with
  | nil => rfl
  | cons v l ih =>
    rw [List.map_cons, List.findSome?_cons, List.findSome?_cons, h v List.mem_cons_self]
    cases f v with
    | none => exact ih fun w hw => h w (List.mem_cons_of_mem _ hw)
    | some c => rfl

theorem filterMap_of_map {l : List α} (h : ∀ v ∈ l, g (a v) = (f v).map b) :
    (l.map a).filterMap g = (l.filterMap f).map b := by
  induction l with
  | nil => rfl
  | cons v l ih =>
    have rest := ih fun w hw => h w (List.mem_cons_of_mem _ hw)
    rw [List.map_cons, List.filterMap_cons, List.filterMap_cons, h v List.mem_cons_self]
    cases f v with
    | none => exact rest
    | some c => exact congrArg (b c :: ·) rest

theorem filter_of_map {x : Option Text} {p : Text → Bool} (h : ∀ s, p (collapse s) = p s) :
    (x.map collapse).filter p = (x.filter p).map collapse := by
  cases x with
  | none => rfl
  | some s =>
    rw [Option.map_some, Option.filter_some, Option.filter_some, h]
    cases p s <;> rfl

end

/-! ## 2. Ends and stretches of texts -/

namespace Text

theorem trimLeft_collapseAfter (after : Bool) (s : Text) :
    trimLeft (collapseAfter after s) = collapse (trimLeft s) := by
  induction s generalizing after with
  | nil => rfl
  | cons c s ih =>
    cases h : isBlank c with
    | false => rw [collapseAfter_cons h, trimLeft_cons h, trimLeft_cons h, collapse_cons h]
    | true =>
      rw [trimLeft_cons_blank h]
      cases after with
      | true => rw [collapseAfter_cons_blank h, ih]
      | false =>
        show trimLeft (collapse (c :: s)) = _
        rw [collapse_cons_blank h, trimLeft_cons_blank (by decide), ih]

theorem trimLeft_collapse (s : Text) : trimLeft (collapse s) = collapse (trimLeft s) :=
  trimLeft_collapseAfter false s

theorem collapse_eq_nil {s : Text} : collapse s = [] ↔ s = [] := by
  cases s with
  | nil => simp
  | cons c s =>
    cases h : isBlank c with
    | false => simp [collapse_cons h]
    | true => simp [collapse_cons_blank h]

-- A stretch that takes blanks with it, up to the first character that ends it.
theorem takeWhile_collapseAfter {p : Char → Bool} (hp : ∀ c, isBlank c = true → p c = true)
    (after : Bool) (s : Text) :
    (collapseAfter after s).takeWhile p = collapseAfter after (s.takeWhile p) := by
  induction s generalizing after with
  | nil => rfl
  | cons c s ih =>
    cases h : isBlank c with
    | false =>
      rw [collapseAfter_cons h, List.takeWhile_cons, List.takeWhile_cons]
      cases p c with
      | false => rfl
      | true =>
        rw [if_pos rfl, if_pos rfl, collapseAfter_cons h, collapse, ih]
        rfl
    | true =>
      rw [List.takeWhile_cons_of_pos (hp c h)]
      cases after with
      | true => rw [collapseAfter_cons_blank h, collapseAfter_cons_blank h, ih]
      | false =>
        show (collapse (c :: s)).takeWhile p = collapse (c :: _)
        rw [collapse_cons_blank h, collapse_cons_blank h,
          List.takeWhile_cons_of_pos (hp ' ' (by decide)), ih]

-- What such a stretch leaves starts with no blank.
theorem dropWhile_collapseAfter {p : Char → Bool} (hp : ∀ c, isBlank c = true → p c = true)
    (after : Bool) (s : Text) :
    (collapseAfter after s).dropWhile p = collapse (s.dropWhile p) := by
  induction s generalizing after with
  | nil => rfl
  | cons c s ih =>
    cases h : isBlank c with
    | false =>
      rw [collapseAfter_cons h, List.dropWhile_cons, List.dropWhile_cons]
      cases p c with
      | false => exact (collapse_cons h s).symm
      | true => exact ih false
    | true =>
      rw [List.dropWhile_cons_of_pos (hp c h)]
      cases after with
      | true => rw [collapseAfter_cons_blank h, ih]
      | false =>
        show (collapse (c :: s)).dropWhile p = _
        rw [collapse_cons_blank h, List.dropWhile_cons_of_pos (hp ' ' (by decide)), ih]

-- What a run of characters that are no blanks leaves.
theorem dropWhile_collapse {p : Char → Bool} (hp : ∀ c, p c = true → isBlank c = false) (s : Text) :
    (collapse s).dropWhile p = collapse (s.dropWhile p) := by
  have hspace : p ' ' = false := by
    by_contra h
    exact absurd (hp ' ' (by simpa using h)) (by decide)
  induction s with
  | nil => rfl
  | cons c s ih =>
    cases h : isBlank c with
    | false =>
      rw [collapse_cons h, List.dropWhile_cons, List.dropWhile_cons]
      cases p c with
      | false => exact (collapse_cons h s).symm
      | true => exact ih
    | true =>
      have hpc : ¬ p c = true := fun hpc => by simp [hp c hpc] at h
      rw [List.dropWhile_cons_of_neg hpc, collapse_cons_blank h,
        List.dropWhile_cons_of_neg (by simp [hspace])]

theorem run?_collapse {p : Char → Bool} (hp : ∀ c, p c = true → isBlank c = false) (s : Text) :
    run? p (collapse s) = (run? p s).map (Prod.map collapse collapse) := by
  have hsolid : collapse (s.takeWhile p) = s.takeWhile p :=
    collapse_eq_self fun c hc => hp c (List.mem_takeWhile_imp hc)
  unfold run?
  rw [takeWhile_collapse hp, dropWhile_collapse hp]
  cases h : s.takeWhile p with
  | nil => rfl
  | cons c u =>
    rw [h] at hsolid
    show some (c :: u, _) = some (collapse (c :: u), _)
    rw [hsolid]

theorem runs_collapse {p : Char → Bool} (hp : ∀ c, p c = true → isBlank c = false) (s : Text) :
    runs p (collapse s) = (runs p s).map (Prod.map collapse collapse) := by
  induction s with
  | nil => rfl
  | cons c s ih =>
    cases h : isBlank c with
    | false =>
      rw [collapse_cons h, runs, runs]
      cases p c with
      | false => rfl
      | true =>
        rw [if_pos rfl, if_pos rfl, ih, List.map_append, List.map_map, List.map_map]
        congr 1
        · refine List.map_congr_left fun found _ => ?_
          show (c :: collapse found.1, _) = (collapse (c :: found.1), _)
          rw [collapse_cons h]
        · show [([c], collapse s)] = [(collapse [c], collapse s)]
          rw [collapse_cons h]
          rfl
    | true =>
      have hpc : ∀ d, isBlank d = true → ¬ p d = true := fun d hd hpd => by simp [hp d hpd] at hd
      rw [collapse_cons_blank h, runs, runs, if_neg (hpc ' ' (by decide)), if_neg (hpc c h)]
      rfl

/-! ## 3. Right ends -/

theorem collapse_concat (s : Text) (c : Char) :
    collapse (s ++ [c]) = collapse s ++
      if isBlank c then if endsBlank false s then [] else [' '] else [c] := by
  rw [collapse, collapseAfter_append]
  rfl

theorem exists_concat_of_endsBlank {s : Text} (h : endsBlank false s = true) :
    ∃ t, collapse s = t ++ [' '] := by
  induction s using List.reverseRecOn with
  | nil => cases h
  | append_singleton s c ih =>
    rw [endsBlank_concat] at h
    rw [collapse_concat, if_pos h]
    split
    · rename_i hs
      rw [List.append_nil]
      exact ih hs
    · exact ⟨collapse s, rfl⟩

theorem rdropWhile_collapse {p : Char → Bool} (hp : ∀ c, p c = true → isBlank c = false)
    (s : Text) : (collapse s).rdropWhile p = collapse (s.rdropWhile p) := by
  induction s using List.reverseRecOn with
  | nil => rfl
  | append_singleton s c ih =>
    by_cases hc : p c = true
    · rw [collapse_concat, hp c hc, if_neg (by decide), List.rdropWhile_concat_pos p _ _ hc,
        List.rdropWhile_concat_pos p _ _ hc]
      exact ih
    · rw [List.rdropWhile_concat_neg p _ _ hc]
      cases h : isBlank c with
      | false =>
        rw [collapse_concat, h, if_neg (by decide), List.rdropWhile_concat_neg p _ _ hc]
      | true =>
        have hspace : ¬ p ' ' = true := fun hc => absurd (hp ' ' hc) (by decide)
        obtain ⟨t, ht⟩ := exists_concat_of_endsBlank (s := s ++ [c])
          (by rw [endsBlank_concat, h])
        rw [ht, List.rdropWhile_concat_neg p _ _ hspace]

theorem trimRight_collapse (s : Text) : trimRight (collapse s) = collapse (trimRight s) := by
  induction s using List.reverseRecOn with
  | nil => rfl
  | append_singleton s c ih =>
    rw [collapse_concat]
    cases h : isBlank c with
    | false =>
      rw [if_neg (by decide), trimRight_concat h, trimRight_concat h, collapse_concat, h,
        if_neg (by decide)]
    | true =>
      rw [trimRight_concat_blank h, if_pos rfl, ← ih]
      split
      · rw [List.append_nil]
      · exact trimRight_concat_blank (by decide) _

theorem trim_collapseAfter (after : Bool) (s : Text) :
    trim (collapseAfter after s) = collapse (trim s) := by
  rw [trim, trimLeft_collapseAfter, trimRight_collapse]
  rfl

theorem dropTrailing_collapse {c : Char} (hc : isBlank c = false) (s : Text) :
    dropTrailing c (collapse s) = collapse (dropTrailing c s) :=
  rdropWhile_collapse (p := (· = c)) (fun d hd => by rw [of_decide_eq_true hd]; exact hc) s

end Text

/-! ## 4. Keywords -/

theorem keyword?_collapse {w : Text} (hw : w.all isSolid = true) (s : Text) :
    keyword? w (collapse s) = (keyword? w s).map collapse := by
  induction w generalizing s with
  | nil => rfl
  | cons k w ih =>
    rw [List.all_cons, Bool.and_eq_true] at hw
    obtain ⟨hk, hw⟩ := hw
    cases s with
    | nil => rfl
    | cons c s =>
      cases h : isBlank c with
      | false =>
        rw [Text.collapse_cons h, keyword?, keyword?]
        cases isLetter k c with
        | false => rfl
        | true => exact ih hw s
      | true =>
        rw [Text.collapse_cons_blank h, keyword?, keyword?,
          not_isLetter_of_isBlank hk (show isBlank ' ' = true by decide),
          not_isLetter_of_isBlank hk h]
        rfl

theorem gap?_collapse (s : Text) : gap? (collapse s) = (gap? s).map collapse := by
  cases s with
  | nil => rfl
  | cons c s =>
    cases h : isBlank c with
    | false => rw [Text.collapse_cons h, gap?, gap?, h]; rfl
    | true =>
      rw [Text.collapse_cons_blank h, gap?, gap?, h, if_pos (by decide), if_pos rfl,
        Text.trimLeft_collapseAfter]
      rfl

theorem keywordGap?_collapse {w : Text} (hw : w.all isSolid = true) (s : Text) :
    (keyword? w (collapse s) >>= gap?) = (keyword? w s >>= gap?).map collapse := by
  rw [keyword?_collapse hw]
  exact bind_of_map gap?_collapse

theorem phrase?_collapse {ws : List Text} (hws : ws.all (·.all isSolid) = true) (s : Text) :
    phrase? ws (collapse s) = (phrase? ws s).map collapse := by
  induction ws generalizing s with
  | nil => rfl
  | cons w ws ih =>
    rw [List.all_cons, Bool.and_eq_true] at hws
    cases ws with
    | nil => exact keyword?_collapse hws.1 s
    | cons v ws =>
      rw [phrase?, keywordGap?_collapse hws.1]
      · exact bind_of_map (ih hws.2)
      · exact List.cons_ne_nil v ws

theorem phraseGap?_collapse {ws : List Text} (hws : ws.all (·.all isSolid) = true) (s : Text) :
    (phrase? ws (collapse s) >>= gap?) = (phrase? ws s >>= gap?).map collapse := by
  rw [phrase?_collapse hws]
  exact bind_of_map gap?_collapse

theorem skipPhrase_collapse {ws : List Text} (hws : ws.all (·.all isSolid) = true) (s : Text) :
    skipPhrase ws (collapse s) = collapse (skipPhrase ws s) := by
  unfold skipPhrase
  rw [phraseGap?_collapse hws]
  cases phrase? ws s >>= gap? <;> rfl

theorem anyKeyword?_collapse {ws : List Text} (hws : ws.all (·.all isSolid) = true) (s : Text) :
    anyKeyword? ws (collapse s) = (anyKeyword? ws s).map collapse := by
  have := @findSome?_of_map Text Text Text Text id collapse (keyword? · s)
    (keyword? · (collapse s)) ws
    fun w hw => keyword?_collapse (List.all_eq_true.mp hws w hw) s
  rwa [List.map_id] at this

theorem wordEnds_collapse (s : Text) : wordEnds (collapse s) = wordEnds s := by
  cases s with
  | nil => rfl
  | cons c s =>
    cases h : isBlank c with
    | false => rw [Text.collapse_cons h]; rfl
    | true =>
      rw [Text.collapse_cons_blank h, wordEnds, wordEnds, not_isWord_of_isBlank h]
      decide

theorem word?_collapse {w : Text} (hw : w.all isSolid = true) (s : Text) :
    word? w (collapse s) = (word? w s).map collapse := by
  unfold word?
  rw [keyword?_collapse hw]
  exact filter_of_map wordEnds_collapse

/-! ## 5. Names -/

/-- Both parts of what a reader takes off, with their blanks collapsed. -/
abbrev collapseBoth : Text × Text → Text × Text := Prod.map collapse collapse

namespace Identifier

theorem isNameMark_of_isBlank {c : Char} (h : isBlank c = true) : isNameMark c = false := by
  by_contra hc
  rw [Bool.not_eq_false] at hc
  rcases Bool.or_eq_true_iff.mp hc with hc | hc <;> rw [of_decide_eq_true hc] at h <;>
    exact absurd h (by decide)

theorem not_isBlank_of_isNameMark {c : Char} (h : isNameMark c = true) : isBlank c = false := by
  by_contra hc
  rw [isNameMark_of_isBlank (by simpa using hc)] at h
  cases h

theorem quoted?_collapse {mark : Char} (hmark : isBlank mark = false) (s : Text) :
    quoted? mark (collapse s) = (quoted? mark s).map collapseBoth := by
  have hstretch : ∀ c, isBlank c = true → decide (c ≠ mark) = true := by
    intro c hc
    rw [decide_eq_true_iff]
    rintro rfl
    rw [hc] at hmark
    cases hmark
  unfold quoted?
  rw [collapse, Text.takeWhile_collapseAfter hstretch, Text.dropWhile_collapseAfter hstretch]
  cases hname : s.takeWhile (· ≠ mark) with
  | nil => rfl
  | cons c u =>
    cases hrest : s.dropWhile (· ≠ mark) with
    | nil =>
      obtain ⟨d, v, hd⟩ := List.exists_cons_of_ne_nil
        (mt Text.collapse_eq_nil.mp (List.cons_ne_nil c u))
      rw [show collapseAfter false (c :: u) = d :: v from hd]
      rfl
    | cons m r =>
      have hm : m = mark := by simpa using Text.not_of_dropWhile hrest
      obtain ⟨d, v, hd⟩ := List.exists_cons_of_ne_nil
        (mt Text.collapse_eq_nil.mp (List.cons_ne_nil c u))
      have hraw : collapse (mark :: c :: u ++ [mark]) = mark :: d :: v ++ [mark] := by
        rw [← hd, Text.collapse_append_cons _ hmark, Text.collapse_cons hmark]
        rfl
      rw [show collapseAfter false (c :: u) = d :: v from hd, hm, Text.collapse_cons hmark]
      show some (mark :: d :: v ++ [mark], collapse r) = some (collapse _, collapse r)
      rw [hraw]

theorem read?_of_isBlank {c : Char} (h : isBlank c = true) (s : Text) : read? (c :: s) = none := by
  rw [read?, isNameMark_of_isBlank h]
  show Text.run? isNameChar (c :: s) = none
  rw [Text.run?, List.takeWhile_cons_of_neg (by simp [not_isNameChar_of_isBlank h])]

theorem read?_collapse (s : Text) : read? (collapse s) = (read? s).map collapseBoth := by
  cases s with
  | nil => rfl
  | cons c s =>
    cases h : isBlank c with
    | false =>
      rw [Text.collapse_cons h, read?, read?]
      cases hc : isNameMark c with
      | true => exact quoted?_collapse h s
      | false =>
        have := Text.run?_collapse (fun _ => not_isBlank_of_isNameChar) (c :: s)
        rwa [Text.collapse_cons h] at this
    | true =>
      rw [Text.collapse_cons_blank h, read?_of_isBlank (by decide), read?_of_isBlank h]
      rfl

theorem readings_collapse (s : Text) : readings (collapse s) = (readings s).map collapseBoth := by
  cases s with
  | nil => rfl
  | cons c s =>
    have hruns := Text.runs_collapse (fun _ => not_isBlank_of_isNameChar) (c :: s)
    cases h : isBlank c with
    | false =>
      rw [Text.collapse_cons h] at hruns ⊢
      rw [readings, readings]
      cases hc : isNameMark c with
      | true =>
        show (quoted? c (collapse s)).toList = ((quoted? c s).toList).map _
        rw [quoted?_collapse h]
        cases quoted? c s <;> rfl
      | false => exact hruns
    | true =>
      rw [Text.collapse_cons_blank h] at hruns ⊢
      rw [readings, readings, isNameMark_of_isBlank h, isNameMark_of_isBlank (by decide)]
      exact hruns

theorem Name.endsBlank {u : Text} (h : Name u) : endsBlank false u = false := by
  obtain ⟨v, c, rfl, hc⟩ := h.ends
  rw [Text.endsBlank_concat]
  exact hc

theorem dot?_collapse (s : Text) : dot? (collapse s) = (dot? s).map collapseBoth := by
  have hstretch : ∀ c, isBlank c = true → isBlank c = true := fun _ h => h
  have htake : ∀ t : Text, (collapse t).takeWhile isBlank = collapse (t.takeWhile isBlank) :=
    Text.takeWhile_collapseAfter hstretch false
  have hdrop : ∀ t : Text, (collapse t).dropWhile isBlank = collapse (t.dropWhile isBlank) :=
    Text.dropWhile_collapseAfter hstretch false
  by_cases h : ∃ r, s.dropWhile isBlank = '.' :: r
  · obtain ⟨r, hr⟩ := h
    have hr' : (collapse s).dropWhile isBlank = '.' :: collapse r := by
      rw [hdrop, hr, Text.collapse_cons (by decide)]
    rw [dot?_of_dropWhile hr, dot?_of_dropWhile hr', htake, htake, hdrop]
    show _ = some (collapse (_ ++ '.' :: _), _)
    rw [Text.collapse_append_cons _ (by decide)]
  · have hno : ∀ r, s.dropWhile isBlank ≠ '.' :: r := fun r hr => h ⟨r, hr⟩
    have hno' : ∀ r, (collapse s).dropWhile isBlank ≠ '.' :: r := by
      intro r hr
      rw [hdrop] at hr
      cases hs : s.dropWhile isBlank with
      | nil => simp [hs] at hr
      | cons c t =>
        have hc : isBlank c = false := Text.not_isBlank_of_trimLeft hs
        rw [hs, Text.collapse_cons hc] at hr
        exact hno t (by rw [hs, (List.cons.inj hr).1])
    rw [dot?_eq_none hno, dot?_eq_none hno']
    rfl

theorem dotted?_collapse (s : Text) : dotted? (collapse s) = (dotted? s).map collapseBoth := by
  unfold dotted?
  rw [dot?_collapse]
  refine bind_of_map fun (d, t) => ?_
  show ((read? (collapse t)).bind fun q => some (collapse d ++ q.1, q.2)) = _
  rw [read?_collapse]
  cases hread : read? t with
  | none => rfl
  | some found =>
    show some (collapse d ++ collapse found.1, collapse found.2) =
      some (collapse (d ++ found.1), collapse found.2)
    rw [Text.collapse_append_of_starts d (Name.of_read? hread).1.starts]

theorem qualified?_collapse (s : Text) :
    qualified? (collapse s) = (qualified? s).map collapseBoth := by
  rw [qualified?_eq, qualified?_eq, read?_collapse]
  cases hread : read? s with
  | none => rfl
  | some first =>
    have hends := (Name.of_read? hread).1.endsBlank
    rw [Option.map_some, Option.bind_some, Option.bind_some]
    dsimp only [collapseBoth]
    rw [Prod.map_snd, Prod.map_fst, dotted?_collapse]
    cases dotted? first.2 with
    | none => rfl
    | some q =>
      show some (collapse first.1 ++ collapse q.1, collapse q.2) =
        some (collapse (first.1 ++ q.1), collapse q.2)
      rw [Text.collapse_append hends]

/-- Once every character may be looked at, the names found in a collapsed text are those found in
the text. -/
theorem scan_collapseAfter {n m : Nat} (after : Bool) (s : Text) (hn : s.length ≤ n)
    (hm : (collapseAfter after s).length ≤ m) :
    scan m (collapseAfter after s) = (scan n s).map collapse := by
  induction n generalizing m after s with
  | zero =>
    obtain rfl : s = [] := List.eq_nil_of_length_eq_zero (by omega)
    cases m <;> rfl
  | succ n ih =>
    cases s with
    | nil => cases m <;> rfl
    | cons c s =>
      rw [List.length_cons] at hn
      cases h : isBlank c with
      | true =>
        rw [scan, read?_of_isBlank h]
        cases after with
        | true =>
          rw [Text.collapseAfter_cons_blank h] at hm ⊢
          exact ih true s (by omega) hm
        | false =>
          change (collapse (c :: s)).length ≤ m at hm
          show scan m (collapse (c :: s)) = _
          rw [Text.collapse_cons_blank h] at hm ⊢
          cases m with
          | zero => simp at hm
          | succ m =>
            rw [scan, read?_of_isBlank (by decide)]
            exact ih true s (by omega) (by simpa using hm)
      | false =>
        rw [Text.collapseAfter_cons h] at hm ⊢
        have hread := read?_collapse (c :: s)
        rw [Text.collapse_cons h] at hread
        cases m with
        | zero => simp at hm
        | succ m =>
          rw [List.length_cons] at hm
          rw [scan, scan, hread]
          cases hfirst : read? (c :: s) with
          | none => exact ih false s (by omega) (by change (collapse s).length ≤ m; omega)
          | some found =>
            obtain ⟨u, r⟩ := found
            rw [hfirst] at hread
            have hlength : r.length < s.length + 1 := length_lt_of_read? hfirst
            have hlength' : (collapse r).length < (collapse s).length + 1 := length_lt_of_read? hread
            have hrest : (collapseAfter false r).length ≤ m := by
              change (collapse s).length + 1 ≤ m + 1 at hm
              change (collapse r).length ≤ m
              omega
            exact congrArg (collapse u :: ·) (ih false r (by omega) hrest)

theorem bare_collapse (name : Text) : bare (collapse name) = collapse (bare name) := by
  have hscan := scan_collapseAfter false name (Nat.le_refl _) (Nat.le_refl _)
  unfold bare
  rw [show scan (collapse name).length (collapse name) = _ from hscan, List.getLast?_map]
  cases (scan name.length name).getLast? with
  | none => exact Text.trim_collapseAfter false name
  | some u =>
    show ((((collapse u).dropWhile isNameMark).reverse.dropWhile isNameMark).reverse) = _
    rw [Text.dropWhile_collapse fun _ => not_isBlank_of_isNameMark]
    exact Text.rdropWhile_collapse (fun _ => not_isBlank_of_isNameMark) _

end Identifier

theorem constraintReadings_collapse (s : Text) : constraintReadings (collapse s) =
    (constraintReadings s).map (Prod.map (Option.map collapse) collapse) := by
  unfold constraintReadings
  rw [keywordGap?_collapse (by decide)]
  cases keyword? "CONSTRAINT" s >>= gap? with
  | none => rfl
  | some r =>
    simp only [Option.map_some, Option.bind_eq_bind, Identifier.read?_collapse, List.map_append]
    cases Identifier.read? r with
    | none => rfl
    | some p =>
      obtain ⟨name, t⟩ := p
      simp only [Option.map_some, Option.bind_some, Prod.map, gap?_collapse]
      cases gap? t <;> rfl

end SqlDump
