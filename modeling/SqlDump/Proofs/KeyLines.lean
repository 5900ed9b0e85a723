import SqlDump.Proofs.BlankGroups
import SqlDump.Proofs.Models

/-!
# Keys and runs of blanks

A key that is read from a text whose runs of blanks are made one space is the key that is read from
the text itself, with the names collapsed. One spelling is left out: IF NOT EXISTS with several
blanks behind it and then the word USING, which is passed over for the blanks' sake only.
-/

namespace SqlDump

open Text (collapse collapseAfter)

/-! ## 1. Changes with collapsed names -/

/-- A reference with every run of blanks in a name made one space. -/
def Reference.blurred (reference : Reference) : Reference :=
  { table := collapse reference.table, columns := reference.columns.map collapse }

/-- A key with every run of blanks in a name made one space. -/
def Change.blurred : Change → Change
  | .primaryKey columns => .primaryKey (columns.map collapse)
  | .unique name columns => .unique (name.map collapse) (columns.map collapse)
  | .index name columns => .index (name.map collapse) (columns.map collapse)
  | .foreignKey name columns reference =>
    .foreignKey (name.map collapse) (columns.map collapse) (reference.map Reference.blurred)
  | change => change

namespace Clause

/-- A name, if there is one, and a text behind it, collapsed. -/
abbrev collapseNamed : Option Text × Text → Option Text × Text :=
  Prod.map (Option.map collapse) collapse

theorem keyColumns_collapse (content : Text) :
    keyColumns (collapse content) = (keyColumns content).map collapse := by
  unfold keyColumns
  rw [Nesting.pieces_collapse (by decide)]
  refine filterMap_of_map fun part _ => ?_
  rw [Identifier.read?_collapse]
  cases Identifier.read? part with
  | none => rfl
  | some found => exact congrArg some (Identifier.bare_collapse found.1)

theorem startsWith_collapse (s : Text) :
    Text.startsWith "(" (collapse s) = Text.startsWith "(" s := by
  have hstart : ∀ c (t : Text), Text.startsWith "(" (c :: t) = decide ('(' = c) := by
    intro c t
    show (Text.after? ['('] (c :: t)).isSome = _
    rw [Text.after?]
    by_cases h : '(' = c
    · rw [if_pos h, decide_eq_true h]
      rfl
    · rw [if_neg h, decide_eq_false h]
      rfl
  cases s with
  | nil => rfl
  | cons c s =>
    cases h : isBlank c with
    | false => rw [Text.collapse_cons h, hstart, hstart]
    | true =>
      have hne := ne_of_isBlank h (show isBlank '(' = false by decide)
      rw [Text.collapse_cons_blank h, hstart, hstart]
      simp [hne.symm]

theorem atGroup?_collapse (s : Text) : atGroup? (collapse s) = (atGroup? s).map collapse := by
  unfold atGroup?
  rw [startsWith_collapse]
  cases Text.startsWith "(" s <;> rfl

theorem atGroup?_trimLeft_collapse (s : Text) :
    atGroup? (Text.trimLeft (collapse s)) = (atGroup? (Text.trimLeft s)).map collapse := by
  rw [Text.trimLeft_collapse, atGroup?_collapse]

theorem constrained_collapse (s : Text) :
    constrained (collapse s) = (constrained s).map collapseNamed := by
  unfold constrained
  dsimp only
  rw [skipPhrase_collapse (by decide), constraintReadings_collapse, List.map_append]
  rfl

theorem primaryKey?_collapse (s : Text) :
    primaryKey? (collapse s) = (primaryKey? s).map collapse := by
  have hblanks : ∀ c, isBlank c = true → decide (c ≠ '(') = true := by
    intro c hc
    rw [decide_eq_true_iff]
    exact ne_of_isBlank hc (by decide)
  unfold primaryKey?
  rw [constrained_collapse]
  refine findSome?_of_map fun (name, r) _ => ?_
  show ((phrase? ["PRIMARY", "KEY"] (collapse r)).filter wordEnds).bind _ = _
  rw [phrase?_collapse (by decide), filter_of_map wordEnds_collapse]
  refine bind_of_map fun r => ?_
  rw [collapse, Text.dropWhile_collapseAfter hblanks]
  exact atGroup?_collapse _

theorem foreignColumns_collapse (s : Text) :
    ((do let (_, r) ← Identifier.read? (collapse s); atGroup? (Text.trimLeft r)) <|>
      atGroup? (collapse s)) =
    ((do let (_, r) ← Identifier.read? s; atGroup? (Text.trimLeft r)) <|> atGroup? s).map
      collapse := by
  have hnamed : ((Identifier.read? (collapse s)).bind fun p => atGroup? (Text.trimLeft p.2)) =
      ((Identifier.read? s).bind fun p => atGroup? (Text.trimLeft p.2)).map collapse := by
    rw [Identifier.read?_collapse]
    exact bind_of_map fun p => atGroup?_trimLeft_collapse p.2
  show (((Identifier.read? (collapse s)).bind fun p => atGroup? (Text.trimLeft p.2)) <|> _) = _
  rw [hnamed, atGroup?_collapse]
  exact orElse_of_map

theorem foreignKey?_collapse (s : Text) :
    foreignKey? (collapse s) = (foreignKey? s).map collapseNamed := by
  unfold foreignKey?
  rw [constrained_collapse]
  refine findSome?_of_map fun (name, r) _ => ?_
  show (phrase? ["FOREIGN", "KEY"] (collapse r)).bind _ = _
  rw [phrase?_collapse (by decide)]
  refine bind_of_map fun r => ?_
  dsimp only
  rw [Text.trimLeft_collapse, skipPhrase_collapse (by decide)]
  have hstarts := @findSome?_of_map _ _ _ _ collapse collapse
    (fun r => (do let (_, r) ← Identifier.read? r; atGroup? (Text.trimLeft r)) <|> atGroup? r)
    (fun r => (do let (_, r) ← Identifier.read? r; atGroup? (Text.trimLeft r)) <|> atGroup? r)
    [skipPhrase ["IF", "NOT", "EXISTS"] (Text.trimLeft r), Text.trimLeft r]
    fun r _ => foreignColumns_collapse r
  rw [List.map_cons, List.map_cons, List.map_nil] at hstarts
  show Option.bind _ _ = _
  rw [hstarts]
  exact bind_of_map fun columns => rfl

theorem references?_collapse (s : Text) :
    references? (collapse s) = (references? s).map collapseBoth := by
  unfold references?
  rw [Text.trimLeft_collapse, keywordGap?_collapse (by decide)]
  refine bind_of_map fun r => ?_
  show (Identifier.qualified? (collapse r)).bind _ = _
  rw [Identifier.qualified?_collapse]
  refine bind_of_map fun (raw, r) => ?_
  show (atGroup? (Text.trimLeft (collapse r))).bind _ = _
  rw [atGroup?_trimLeft_collapse]
  exact bind_of_map fun columns => rfl

/-! ## 2. Keys that are none of the above -/

theorem keyReadings_collapse {word : Text} (hword : word.all isSolid = true) (s : Text) :
    keyReadings word (collapse s) = (keyReadings word s).map collapse := by
  unfold keyReadings
  rw [keyword?_collapse hword]
  cases keyword? word s with
  | none => rfl
  | some r =>
    show (gap? (collapse r) >>= anyKeyword? ["KEY", "INDEX"]).toList ++ _ = _
    rw [gap?_collapse]
    have hbind : ((gap? r).map collapse).bind (anyKeyword? ["KEY", "INDEX"]) =
        ((gap? r).bind (anyKeyword? ["KEY", "INDEX"])).map collapse :=
      bind_of_map (anyKeyword?_collapse (by decide))
    show (((gap? r).map collapse).bind (anyKeyword? ["KEY", "INDEX"])).toList ++ _ = _
    rw [hbind, List.map_append]
    show _ = (((gap? r).bind (anyKeyword? ["KEY", "INDEX"])).toList).map collapse ++ _
    cases (gap? r).bind (anyKeyword? ["KEY", "INDEX"]) <;> rfl

/-- What can follow the keywords of a key. -/
def keyRests (s : Text) : List Text :=
  (keyReadings "UNIQUE" s ++ (keyword? "KEY" s).toList ++ (keyword? "INDEX" s).toList ++
    keyReadings "FULLTEXT" s ++ keyReadings "SPATIAL" s).filter wordEnds

theorem keyRests_collapse (s : Text) : keyRests (collapse s) = (keyRests s).map collapse := by
  have hoption : ∀ x : Option Text, (x.map collapse).toList = x.toList.map collapse := by
    intro x
    cases x <;> rfl
  unfold keyRests
  rw [keyReadings_collapse (by decide), keyReadings_collapse (by decide),
    keyReadings_collapse (by decide), keyword?_collapse (by decide), keyword?_collapse (by decide),
    hoption, hoption, ← List.map_append, ← List.map_append, ← List.map_append, ← List.map_append]
  generalize keyReadings "UNIQUE" s ++ (keyword? "KEY" s).toList ++ (keyword? "INDEX" s).toList ++
    keyReadings "FULLTEXT" s ++ keyReadings "SPATIAL" s = rests
  rw [List.filter_map]
  congr 1
  exact List.filter_congr fun r _ => wordEnds_collapse r

theorem mem_keyRests {s r : Text} (h : r ∈ keyRests s) :
    ∃ w ∈ ["UNIQUE".toList, "KEY".toList, "INDEX".toList, "FULLTEXT".toList, "SPATIAL".toList],
      (keyword? w s).isSome = true := by
  have hreadings : ∀ w : Text, r ∈ keyReadings w s → (keyword? w s).isSome = true := by
    intro w hr
    unfold keyReadings at hr
    split at hr
    · cases hr
    · rename_i hw
      rw [hw]
      rfl
  have hkeyword : ∀ w : Text, r ∈ (keyword? w s).toList → (keyword? w s).isSome = true := by
    intro w hr
    rw [Option.mem_toList] at hr
    rw [hr]
    rfl
  have h := (List.mem_filter.mp h).1
  simp only [List.mem_append] at h
  rcases h with (((h | h) | h) | h) | h
  · exact ⟨_, by simp, hreadings _ h⟩
  · exact ⟨_, by simp, hkeyword _ h⟩
  · exact ⟨_, by simp, hkeyword _ h⟩
  · exact ⟨_, by simp, hreadings _ h⟩
  · exact ⟨_, by simp, hreadings _ h⟩

/-- Whether the letters of UNIQUE stand at the front. -/
def spellsUnique (s : Text) : Bool := Text.startsWith "UNIQUE" (Text.upper (s.take 6))

theorem spellsUnique_of_letter {k c : Char} (hk : k = 'K' ∨ k = 'I') (h : isLetter k c = true)
    (s : Text) : spellsUnique (c :: s) = false := by
  have hall : (letterForms 'K' ++ letterForms 'I').all
      (fun c => (Text.capital c).head?.any (· ≠ 'U')) = true := by decide +kernel
  have hmem : c ∈ letterForms 'K' ++ letterForms 'I' := by
    have := mem_letterForms h
    rcases hk with rfl | rfl
    · exact List.mem_append_left _ this
    · exact List.mem_append_right _ this
  have hc := List.all_eq_true.mp hall c hmem
  rw [spellsUnique, List.take_succ_cons, Text.upper, List.flatMap_cons]
  cases hcapital : Text.capital c with
  | nil => simp [hcapital] at hc
  | cons d v =>
    have hd : 'U' ≠ d := by
      rintro rfl
      simp [hcapital] at hc
    show (Text.after? ('U' :: "NIQUE".toList) (d :: _)).isSome = false
    rw [Text.after?, if_neg hd]
    rfl

theorem spellsUnique_collapse {s : Text} (h : keyRests s ≠ []) :
    spellsUnique (collapse s) = spellsUnique s := by
  obtain ⟨r, hr⟩ := List.exists_mem_of_ne_nil _ h
  obtain ⟨w, hw, hfits⟩ := mem_keyRests hr
  obtain ⟨t, ht⟩ := Option.isSome_iff_exists.mp hfits
  have hlong : 6 ≤ w.length ∧ w.all isSolid = true → spellsUnique (collapse s) = spellsUnique s := by
    rintro ⟨hlength, hsolid⟩
    obtain ⟨u, rfl, hu, hletters, -⟩ := exists_of_keyword? ht
    have hblank : ∀ c ∈ u, isBlank c = false := by
      intro c hc
      obtain ⟨k, hk, hkc⟩ := hletters c hc
      exact not_isBlank_of_isLetter (List.all_eq_true.mp hsolid k hk) hkc
    unfold spellsUnique
    rw [Text.collapse_append (Text.endsBlank_of_solid hblank), Text.collapse_eq_self hblank,
      List.take_append_of_le_length (by omega), List.take_append_of_le_length (by omega)]
  have hshort : ∀ k v, w = k :: v → k = 'K' ∨ k = 'I' → isSolid k = true →
      spellsUnique (collapse s) = spellsUnique s := by
    intro k v hkv hk hsolid
    cases s with
    | nil => rfl
    | cons c s =>
      rw [hkv, keyword?] at ht
      split at ht
      · rename_i hc
        rw [Text.collapse_cons (not_isBlank_of_isLetter hsolid hc), spellsUnique_of_letter hk hc,
          spellsUnique_of_letter hk hc]
      · cases ht
  rw [List.mem_cons, List.mem_cons, List.mem_cons, List.mem_cons, List.mem_singleton] at hw
  rcases hw with rfl | rfl | rfl | rfl | rfl
  · exact hlong (by decide)
  · exact hshort 'K' _ rfl (Or.inl rfl) (by decide)
  · exact hshort 'I' _ rfl (Or.inr rfl) (by decide)
  · exact hlong (by decide)
  · exact hlong (by decide)

theorem keyKeywords_collapse (s : Text) :
    keyKeywords (collapse s) = (keyKeywords s).map (Prod.map id collapse) := by
  show (keyRests (collapse s)).map (spellsUnique (collapse s), ·) =
    ((keyRests s).map (spellsUnique s, ·)).map (Prod.map id collapse)
  rw [keyRests_collapse, List.map_map, List.map_map]
  by_cases h : keyRests s = []
  · rw [h]
    rfl
  · rw [spellsUnique_collapse h]
    rfl

theorem keyBody?_collapse (s : Text) : keyBody? (collapse s) = (keyBody? s).map collapse := by
  have hmethod : ∀ t : Text, ((keyword? "USING" (collapse t) >>= gap?).bind fun r =>
        (Text.run? isWord r).bind fun p => atGroup? (Text.trimLeft p.2)) =
      ((keyword? "USING" t >>= gap?).bind fun r =>
        (Text.run? isWord r).bind fun p => atGroup? (Text.trimLeft p.2)).map collapse := by
    intro t
    rw [keywordGap?_collapse (by decide)]
    refine bind_of_map fun r => ?_
    rw [Text.run?_collapse fun _ => not_isBlank_of_isWord]
    exact bind_of_map fun p => atGroup?_trimLeft_collapse p.2
  unfold keyBody?
  dsimp only
  rw [Text.trimLeft_collapse, atGroup?_collapse]
  exact (congrArg (· <|> (atGroup? (Text.trimLeft s)).map collapse) (hmethod _)).trans orElse_of_map

theorem keyName?_collapse (s : Text) : keyName? (collapse s) = (keyName? s).map collapseNamed := by
  unfold keyName?
  rw [word?_collapse (by decide), Option.isSome_map]
  split
  · rfl
  · rw [Identifier.readings_collapse, keyBody?_collapse]
    have hnamed := @findSome?_of_map _ _ _ _ collapseBoth collapseNamed
      (fun p => (keyBody? p.2).map (some p.1, ·)) (fun p => (keyBody? p.2).map (some p.1, ·))
      (Identifier.readings s) fun p _ => by
        show (keyBody? (collapse p.2)).map _ = _
        rw [keyBody?_collapse]
        cases keyBody? p.2 <;> rfl
    show ((((Identifier.readings s).map collapseBoth).findSome?
      fun p => (keyBody? p.2).map (some p.1, ·)) <|> _) = _
    rw [hnamed]
    have hbare : ((keyBody? s).map collapse).map (fun r => ((none : Option Text), r)) =
        ((keyBody? s).map fun r => (none, r)).map collapseNamed := by
      cases keyBody? s <;> rfl
    rw [hbare]
    exact orElse_of_map

/-- Whether several blanks stand at the front and the word USING behind them. -/
def farUsing : Text → Bool
  | c :: d :: r => isBlank c && isBlank d && (word? "USING" (Text.trimLeft r)).isSome
  | _ => false

theorem keyName?_of_isBlank {c : Char} (h : isBlank c = true) {s : Text}
    (hword : (word? "USING" (Text.trimLeft s)).isSome = false)
    (hnone : keyName? (Text.trimLeft s) = none) : keyName? (c :: s) = none := by
  have hbody : keyBody? (Text.trimLeft s) = none := by
    unfold keyName? at hnone
    rw [hword, if_neg (by decide)] at hnone
    cases hbody : keyBody? (Text.trimLeft s) with
    | none => rfl
    | some r =>
      rw [hbody] at hnone
      cases h : (Identifier.readings (Text.trimLeft s)).findSome? fun p =>
          (keyBody? p.2).map (some p.1, ·) <;> simp [h] at hnone
  have hreadings : Identifier.readings (c :: s) = [] := by
    rw [Identifier.readings, Identifier.isNameMark_of_isBlank h]
    show Text.runs isNameChar (c :: s) = []
    rw [Text.runs, if_neg (by simp [not_isNameChar_of_isBlank h])]
  have hsame : keyBody? (c :: s) = keyBody? (Text.trimLeft s) := by
    unfold keyBody?
    rw [Text.trimLeft_cons_blank h, Text.trimLeft_trimLeft]
  unfold keyName?
  rw [hreadings, hsame, hbody]
  split <;> rfl

-- Only in front of USING does it matter that a gap may be cut short.
theorem findSome?_gapEnds {s : Text} (h : farUsing s = false) :
    (gapEnds s).findSome? keyName? = (gap? s).toList.findSome? keyName? := by
  unfold gapEnds
  split
  · rename_i c d r
    split
    · rename_i hblanks
      rw [Bool.and_eq_true] at hblanks
      have hgap : gap? (c :: d :: r) = some (Text.trimLeft r) := by
        rw [gap?, if_pos hblanks.1, Text.trimLeft_cons_blank hblanks.2]
      have hword : (word? "USING" (Text.trimLeft r)).isSome = false := by
        rw [farUsing, hblanks.1, hblanks.2] at h
        exact h
      rw [hgap, Text.trimLeft_cons_blank hblanks.1, Text.trimLeft_cons_blank hblanks.2]
      show List.findSome? keyName? [Text.trimLeft r, d :: r] = [Text.trimLeft r].findSome? keyName?
      cases hnone : keyName? (Text.trimLeft r) with
      | none =>
        have hlast := keyName?_of_isBlank hblanks.2 hword hnone
        simp only [List.findSome?_cons, hnone, hlast]
      | some found =>
        simp only [List.findSome?_cons, hnone]
    · rfl
  · rfl

theorem gapEnds_collapse (s : Text) : gapEnds (collapse s) = (gap? (collapse s)).toList := by
  unfold gapEnds
  split
  · rename_i c d r hs
    split
    · rename_i hblanks
      rw [Bool.and_eq_true] at hblanks
      cases s with
      | nil => cases hs
      | cons e s =>
        cases he : isBlank e with
        | false =>
          rw [Text.collapse_cons he] at hs
          rw [(List.cons.inj hs).1, hblanks.1] at he
          cases he
        | true =>
          rw [Text.collapse_cons_blank he, Text.collapseAfter_true] at hs
          have hd : d :: r = collapse (Text.trimLeft s) := (List.cons.inj hs).2.symm
          cases ht : Text.trimLeft s with
          | nil => rw [ht] at hd; cases hd
          | cons f t =>
            have hf := Text.not_isBlank_of_trimLeft ht
            rw [ht, Text.collapse_cons hf] at hd
            rw [(List.cons.inj hd).1, hf] at hblanks
            cases hblanks.2
    · rfl
  · rfl

/-- Whether a text says IF NOT EXISTS behind the keywords of a key, and then USING, which several
blanks set apart. -/
def skipsUsing (s : Text) : Bool :=
  (constrained s).any fun (_, r) => (keyKeywords r).any fun (_, r) =>
    (phrase? ["IF", "NOT", "EXISTS"] (Text.trimLeft r)).any farUsing

/-- The name and the columns of a key behind its keywords. -/
def namedKey? (s : Text) : Option (Option Text × Text) :=
  let t := Text.trimLeft s
  ((phrase? ["IF", "NOT", "EXISTS"] t).toList.flatMap gapEnds ++ [t, s]).findSome? keyName?

theorem namedKey?_collapse {s : Text}
    (h : (phrase? ["IF", "NOT", "EXISTS"] (Text.trimLeft s)).any farUsing = false) :
    namedKey? (collapse s) = (namedKey? s).map collapseNamed := by
  have hlast : [collapse (Text.trimLeft s), collapse s].findSome? keyName? =
      ([Text.trimLeft s, s].findSome? keyName?).map collapseNamed :=
    @findSome?_of_map _ _ _ _ collapse collapseNamed keyName? keyName? [Text.trimLeft s, s]
      fun t _ => keyName?_collapse t
  have hfirst : ((phrase? ["IF", "NOT", "EXISTS"] (collapse (Text.trimLeft s))).toList.flatMap
        gapEnds).findSome? keyName? =
      (((phrase? ["IF", "NOT", "EXISTS"] (Text.trimLeft s)).toList.flatMap
        gapEnds).findSome? keyName?).map collapseNamed := by
    rw [phrase?_collapse (by decide)]
    cases hphrase : phrase? ["IF", "NOT", "EXISTS"] (Text.trimLeft s) with
    | none => rfl
    | some t =>
      have hfar : farUsing t = false := by
        rw [hphrase] at h
        exact h
      show ((gapEnds (collapse t) ++ []).findSome? keyName?) =
        ((gapEnds t ++ []).findSome? keyName?).map collapseNamed
      rw [List.append_nil, List.append_nil, findSome?_gapEnds hfar, gapEnds_collapse, gap?_collapse]
      cases gap? t with
      | none => rfl
      | some r =>
        show List.findSome? keyName? [collapse r] = (List.findSome? keyName? [r]).map collapseNamed
        exact @findSome?_of_map _ _ _ _ collapse collapseNamed keyName? keyName? [r]
          fun t _ => keyName?_collapse t
  unfold namedKey?
  dsimp only
  rw [Text.trimLeft_collapse, List.findSome?_append, List.findSome?_append, hfirst, hlast]
  exact Option.map_or.symm

theorem key?_collapse {s : Text} (h : skipsUsing s = false) : key? (collapse s) =
    (key? s).map (Prod.map id collapseNamed) := by
  unfold key?
  rw [constrained_collapse]
  refine findSome?_of_map fun (name, r) hr => ?_
  dsimp only [Prod.map]
  rw [keyKeywords_collapse]
  refine findSome?_of_map fun (isUnique, t) ht => ?_
  have hfar : (phrase? ["IF", "NOT", "EXISTS"] (Text.trimLeft t)).any farUsing = false := by
    have hr' := List.any_eq_false.mp h _ hr
    rw [Bool.not_eq_true] at hr'
    have ht' := List.any_eq_false.mp hr' _ ht
    rwa [Bool.not_eq_true] at ht'
  show (namedKey? (collapse t)).map (isUnique, ·) =
    ((namedKey? t).map (isUnique, ·)).map (Prod.map id collapseNamed)
  rw [namedKey?_collapse hfar]
  cases namedKey? t <;> rfl

/-! ## 3. What a text says as a key -/

theorem foreignChange_collapse (name : Option Text) (s : Text) :
    foreignChange (name.map collapse) (collapse s) = (foreignChange name s).map Change.blurred := by
  unfold foreignChange
  rw [Nesting.group?_collapse]
  refine bind_of_map fun (columns, r) => ?_
  show (references? (collapse r)).bind _ = _
  rw [references?_collapse]
  refine bind_of_map fun (table, r) => ?_
  show (Nesting.group? (collapse r)).bind _ = _
  rw [Nesting.group?_collapse]
  refine bind_of_map fun (refColumns, t) => ?_
  have hname : ((name.map collapse).map Identifier.bare).getD [] =
      collapse ((name.map Identifier.bare).getD []) := by
    cases name with
    | none => rfl
    | some name => exact Identifier.bare_collapse name
  show some (Change.foreignKey (some (((name.map collapse).map Identifier.bare).getD []))
      (keyColumns (collapse columns))
      (some { table := Identifier.bare (collapse table),
              columns := keyColumns (collapse refColumns) })) = some (Change.blurred _)
  rw [hname, keyColumns_collapse, keyColumns_collapse, Identifier.bare_collapse]
  rfl

theorem keyChange_collapse (isUnique : Bool) (name : Option Text) (s : Text) :
    keyChange isUnique (name.map collapse) (collapse s) =
      (keyChange isUnique name s).map Change.blurred := by
  unfold keyChange
  rw [Nesting.group?_collapse]
  refine bind_of_map fun (content, r) => ?_
  show ((keyColumns (collapse content)).head?).bind _ = _
  rw [keyColumns_collapse, List.head?_map]
  refine bind_of_map fun first => ?_
  have hname : ((name.map collapse).map Identifier.bare).getD (collapse first) =
      collapse ((name.map Identifier.bare).getD first) := by
    cases name with
    | none => rfl
    | some name => exact Identifier.bare_collapse name
  rw [hname]
  cases isUnique <;> rfl

def primaryChange (s : Text) : Option Change :=
  (Nesting.group? s).map fun p => .primaryKey (keyColumns p.1)

theorem primaryChange_collapse (s : Text) :
    primaryChange (collapse s) = (primaryChange s).map Change.blurred := by
  unfold primaryChange
  rw [Nesting.group?_collapse]
  cases Nesting.group? s with
  | none => rfl
  | some p => exact congrArg (fun l => some (Change.primaryKey l)) (keyColumns_collapse p.1)

/-- What a text says as a key, if it has the shape of one. -/
def readKey? (s : Text) : Option (Option Change) :=
  (primaryKey? s).map primaryChange <|> (foreignKey? s).map (fun p => foreignChange p.1 p.2) <|>
    (key? s).map fun p => keyChange p.1 p.2.1 p.2.2

theorem readKey?_collapse {s : Text} (h : skipsUsing s = false) :
    readKey? (collapse s) = (readKey? s).map (Option.map Change.blurred) := by
  have hprimary : (primaryKey? (collapse s)).map primaryChange =
      ((primaryKey? s).map primaryChange).map (Option.map Change.blurred) := by
    rw [primaryKey?_collapse]
    cases primaryKey? s with
    | none => rfl
    | some r => exact congrArg some (primaryChange_collapse r)
  have hforeign : (foreignKey? (collapse s)).map (fun p => foreignChange p.1 p.2) =
      ((foreignKey? s).map fun p => foreignChange p.1 p.2).map (Option.map Change.blurred) := by
    rw [foreignKey?_collapse]
    cases foreignKey? s with
    | none => rfl
    | some p => exact congrArg some (foreignChange_collapse p.1 p.2)
  have hkey : (key? (collapse s)).map (fun p => keyChange p.1 p.2.1 p.2.2) =
      ((key? s).map fun p => keyChange p.1 p.2.1 p.2.2).map (Option.map Change.blurred) := by
    rw [key?_collapse h]
    cases key? s with
    | none => rfl
    | some p => exact congrArg some (keyChange_collapse p.1 p.2.1 p.2.2)
  unfold readKey?
  rw [hprimary, hforeign, hkey, orElse_of_map, orElse_of_map]

/-- A text that has the shape of a key is read as one, if it does not start with MODIFY. -/
theorem readChange_of_readKey? {s : Text} {change : Option Change}
    (hmodify : columnBehind? "MODIFY" ["IF", "EXISTS"] s = none) (h : readKey? s = some change) :
    readChange s = .ok change := by
  unfold readKey? at h
  unfold readChange
  rcases Outcome.orElse_eq_some.mp h with h | ⟨hprimary, h⟩
  · obtain ⟨r, hr, rfl⟩ := Option.map_eq_some_iff.mp h
    rw [hr]
    rfl
  rw [Option.map_eq_none_iff] at hprimary
  rw [hprimary, hmodify]
  rcases Outcome.orElse_eq_some.mp h with h | ⟨hforeign, h⟩
  · obtain ⟨p, hp, rfl⟩ := Option.map_eq_some_iff.mp h
    rw [hp]
  rw [Option.map_eq_none_iff] at hforeign
  rw [hforeign]
  obtain ⟨p, hp, rfl⟩ := Option.map_eq_some_iff.mp h
  rw [hp]

theorem readChange_of_readKey?_eq_none {s : Text}
    (hmodify : columnBehind? "MODIFY" ["IF", "EXISTS"] s = none) (h : readKey? s = none)
    (hadd : ∀ raw text, columnBehind? "ADD" ["IF", "NOT", "EXISTS"] s = some (raw, text) →
      isReserved raw = true) : readChange s = .ok none := by
  unfold readKey? at h
  obtain ⟨hprimary, h⟩ := Outcome.orElse_eq_none.mp h
  obtain ⟨hforeign, hkey⟩ := Outcome.orElse_eq_none.mp h
  rw [Option.map_eq_none_iff] at hprimary hforeign hkey
  unfold readChange
  rw [hprimary, hmodify, hforeign, hkey]
  cases hcolumn : columnBehind? "ADD" ["IF", "NOT", "EXISTS"] s with
  | none => rfl
  | some p =>
    show (if isReserved p.1 then _ else _) = _
    rw [if_pos (hadd p.1 p.2 hcolumn)]

end Clause

end SqlDump
