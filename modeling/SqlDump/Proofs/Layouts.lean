import SqlDump.Proofs.Names
import SqlDump.Proofs.Outcome
import SqlDump.Proofs.Walks
import SqlDump.Statement.CreateTable

/-!
# Layouts of CREATE TABLE statements

A statement is taken apart at the parentheses of its body, and what stands behind the body does not
matter to its parts. A statement put together from the same header and other parts has these parts.
-/

namespace SqlDump.CreateTable

open Nesting

/-! ## 1. The parts of a body -/

theorem bodyParts_eq (body : Text) : bodyParts body =
    ((rawPieces ',' true .outside 0 body).map Text.trim).filter (!·.isEmpty) := filter_pieces body

-- The parts of a statement's body are not empty and have no blanks around them.
theorem part_of_mem {body part : Text} (h : Balanced body) (hpart : part ∈ bodyParts body) :
    Whole part ∧ Text.trim part = part ∧ part ≠ [] := by
  rw [bodyParts_eq] at hpart
  obtain ⟨hmem, hne⟩ := List.mem_filter.mp hpart
  obtain ⟨piece, hpiece, rfl⟩ := List.mem_map.mp hmem
  exact ⟨(h.whole_of_mem hpiece).trim, Text.trim_trim piece, by simpa using hne⟩

theorem bodyParts_laid {parts : List Text} (h : ∀ part ∈ parts, Whole part) :
    bodyParts (laid parts) = (parts.map Text.trim).filter (!·.isEmpty) := by
  rw [bodyParts_eq]
  cases parts with
  | nil => rfl
  | cons part parts =>
    have hlead : ∀ c ∈ "\n  ".toList, isBlank c = true := by
      intro c hc
      exact List.all_eq_true.mp (show "\n  ".toList.all isBlank = true by decide) c hc
    unfold laid
    rw [List.append_assoc, trim_rawPieces h (List.cons_ne_nil _ _) hlead]

/-! ## 2. Headers -/

/-- What starts with a parenthesis, behind blanks or at once. -/
def Opens (t : Text) : Prop := ∃ r, Text.trimLeft t = '(' :: r

/-- Whether one of the words stands at the front. -/
def Starts (ws : List Text) (t : Text) : Prop := ∃ w ∈ ws, (keyword? w t).isSome = true

theorem Starts.flush {ws : List Text} {t : Text} (h : Starts ws t)
    (hws : ws.all (fun w => w.head?.any isSolid) = true) : Flush t := by
  obtain ⟨w, hw, ht⟩ := h
  have hsolid := List.all_eq_true.mp hws w hw
  cases w with
  | nil => cases hsolid
  | cons k w =>
    cases t with
    | nil => cases ht
    | cons c t =>
      rw [keyword?] at ht
      split at ht
      · rename_i hc
        exact .cons (not_isBlank_of_isLetter hsolid hc) t
      · cases ht

theorem isSome_of_phraseGap? {w : Text} {ws : List Text} {s r : Text}
    (h : (phrase? (w :: ws) s >>= gap?) = some r) : (keyword? w s).isSome = true := by
  obtain ⟨x, hx, -⟩ := Option.bind_eq_some_iff.mp h
  cases ws with
  | nil =>
    rw [phrase?] at hx
    rw [hx]
    rfl
  | cons v ws =>
    rw [phrase?_cons_cons] at hx
    obtain ⟨y, hy, -⟩ := Option.bind_eq_some_iff.mp hx
    obtain ⟨z, hz, -⟩ := Option.bind_eq_some_iff.mp hy
    rw [hz]
    rfl

-- A phrase is passed over, or not there, whatever follows, as long as this starts with a word that
-- is none of the phrase's.
theorem front_of_skipPhrase {w : Text} {ws next : List Text} (hws : ∀ v ∈ w :: ws, v ≠ [])
    (hclash : next.all (clash · w) = true) (hsolid : next.all (fun w => w.head?.any isSolid) = true)
    {s : Text} (h : Starts next (skipPhrase (w :: ws) s)) :
    ∃ u, s = u ++ skipPhrase (w :: ws) s ∧ Starts (w :: next) s ∧ ∀ t, Starts next t →
      skipPhrase (w :: ws) (u ++ t) = t ∧ Starts (w :: next) (u ++ t) := by
  have hmore : ∀ t, Starts next t → Starts (w :: next) t := fun t ⟨v, hv, ht⟩ =>
    ⟨v, List.mem_cons_of_mem _ hv, ht⟩
  cases hphrase : phrase? (w :: ws) s >>= gap? with
  | some r =>
    have hskip : ∀ {t x : Text}, (phrase? (w :: ws) t >>= gap?) = some x →
        skipPhrase (w :: ws) t = x := by
      intro t x ht
      rw [skipPhrase, ht]
      rfl
    obtain ⟨u, hs, hu⟩ := front_of_phraseGap? hws hphrase
    rw [hskip hphrase]
    refine ⟨u, hs, ⟨w, List.mem_cons_self, isSome_of_phraseGap? hphrase⟩, fun t ht => ?_⟩
    have hread := hu t (ht.flush hsolid)
    exact ⟨hskip hread, w, List.mem_cons_self, isSome_of_phraseGap? hread⟩
  | none =>
    have hstay : ∀ t, Starts next t → skipPhrase (w :: ws) t = t := by
      rintro t ⟨v, hv, ht⟩
      have hnone := keyword?_of_clash (List.all_eq_true.mp hclash v hv) ht
      rw [skipPhrase]
      cases hread : phrase? (w :: ws) t >>= gap? with
      | none => rfl
      | some x =>
        have := isSome_of_phraseGap? hread
        rw [hnone] at this
        cases this
    have hs : skipPhrase (w :: ws) s = s := by
      rw [skipPhrase, hphrase]
      rfl
    rw [hs] at h ⊢
    exact ⟨[], rfl, hmore s h, fun t ht => ⟨hstay t ht, hmore t ht⟩⟩

theorem front_of_createTable? {s r : Text} (h : createTable? s = some r) :
    ∃ u, s = u ++ r ∧ ∀ t, Flush t → createTable? (u ++ t) = some t := by
  unfold createTable? at h
  obtain ⟨r₀, h₀, hrest⟩ := Option.bind_eq_some_iff.mp h
  dsimp only at hrest
  have hstarts : ∀ {t x : Text}, (keyword? "TABLE" t >>= gap?) = some x → Starts ["TABLE"] t := by
    intro t x ht
    obtain ⟨y, hy, -⟩ := Option.bind_eq_some_iff.mp ht
    exact ⟨"TABLE", by simp, by rw [hy]; rfl⟩
  obtain ⟨u₃, h₃, hu₃⟩ := front_of_keywordGap? hrest
  obtain ⟨u₂, h₂, hnext₂, hu₂⟩ := front_of_skipPhrase (w := "TEMPORARY") (by simp) (by decide)
    (by decide) (hstarts hrest)
  obtain ⟨u₁, h₁, -, hu₁⟩ := @front_of_skipPhrase "OR" ["REPLACE"] _ (by simp)
    (by decide) (by decide) _ hnext₂
  obtain ⟨u₀, h₀', hu₀⟩ := front_of_keywordGap? h₀
  refine ⟨u₀ ++ (u₁ ++ (u₂ ++ u₃)), ?_, fun t ht => ?_⟩
  · rw [h₀', h₁, h₂, h₃]
    simp
  · have h₃' := hu₃ t ht
    have h₂' := hu₂ _ (hstarts h₃')
    have h₁' := hu₁ _ h₂'.2
    have hflush : Flush (u₁ ++ (u₂ ++ (u₃ ++ t))) := h₁'.2.flush (by decide)
    have htext : u₀ ++ (u₁ ++ (u₂ ++ u₃)) ++ t = u₀ ++ (u₁ ++ (u₂ ++ (u₃ ++ t))) := by simp
    unfold createTable?
    rw [htext, hu₀ _ hflush]
    show (keyword? "TABLE" (skipPhrase ["TEMPORARY"] (skipPhrase ["OR", "REPLACE"] _)) >>= gap?) = _
    rw [h₁'.1, h₂'.1, h₃']

theorem Opens.not_isNameChar {t : Text} (h : Opens t) : Identifier.NoNameChar t := by
  rintro c r rfl
  obtain ⟨r', hr⟩ := h
  cases hc : isBlank c with
  | true => exact not_isNameChar_of_isBlank hc
  | false =>
    rw [Text.trimLeft_cons hc] at hr
    rw [(List.cons.inj hr).1]
    decide

theorem Opens.stopsName {t : Text} (h : Opens t) : Identifier.StopsName t := by
  refine ⟨h.not_isNameChar, Identifier.dot?_eq_none fun r hr => ?_⟩
  obtain ⟨r', hr'⟩ := h
  rw [← Text.trimLeft, hr'] at hr
  exact absurd (List.cons.inj hr).1 (by decide)

-- A name is taken for the words IF NOT EXISTS only in front of the second of them.
theorem phrase?_of_name {a rest : Text} (ha : Identifier.Name a)
    (hrest : Identifier.NoNameChar rest) {c : Char} {r : Text} (htrim : Text.trimLeft rest = c :: r)
    (hc : isLetter 'N' c = false) : phrase? ["IF", "NOT", "EXISTS"] (a ++ rest) = none := by
  rw [phrase?_cons_cons]
  cases hgap : keyword? "IF" (a ++ rest) >>= gap? with
  | none => rfl
  | some x =>
    obtain ⟨y, hy, hx⟩ := Option.bind_eq_some_iff.mp hgap
    obtain ⟨hx, d, y', hyd, hd⟩ := gap?_eq_some hx
    have hsame : y = rest := by
      cases ha with
      | @quoted mark u hmark =>
        have hnone : isLetter 'I' mark = false := by
          rcases Bool.or_eq_true_iff.mp hmark with h | h <;> rw [of_decide_eq_true h] <;> decide
        change keyword? ['I', 'F'] (mark :: (u ++ [mark] ++ rest)) = some y at hy
        rw [keyword?, hnone] at hy
        cases hy
      | bare hu hall =>
        obtain ⟨u, hsplit, -, hall', -⟩ :=
          exists_of_spelled (show spelledIn isNameChar ['I', 'F'] = true by decide +kernel) hy
        have hblank : Identifier.NoNameChar y := by
          rw [hyd]
          exact .cons (not_isNameChar_of_isBlank hd) _
        have hspan := Identifier.span_of_noNameChar hall hrest
        rw [hsplit, (Identifier.span_of_noNameChar hall' hblank).2] at hspan
        exact hspan.2
    rw [hx, hsame, htrim, Option.bind_some, phrase?_cons_cons]
    show ((keyword? ('N' :: ['O', 'T']) (c :: r) >>= gap?).bind _) = none
    rw [keyword?, hc]
    rfl

-- A table's name is not taken for the words IF NOT EXISTS.
theorem phrase?_of_qualified {raw t : Text} (hraw : Identifier.Qualified raw) (ht : Opens t) :
    phrase? ["IF", "NOT", "EXISTS"] (raw ++ t) = none := by
  cases hraw with
  | plain ha =>
    obtain ⟨r, hr⟩ := ht
    exact phrase?_of_name ha (Opens.not_isNameChar ⟨r, hr⟩) hr (by decide)
  | @dotted a b u v ha hu hv hb =>
    have htrim : Text.trimLeft (u ++ '.' :: (v ++ (b ++ t))) = '.' :: (v ++ (b ++ t)) := by
      rw [Text.trimLeft, List.dropWhile_append_of_pos hu, List.dropWhile_cons_of_neg (by decide)]
    have htext : a ++ ((u ++ '.' :: v) ++ b) ++ t = a ++ (u ++ '.' :: (v ++ (b ++ t))) := by simp
    rw [htext]
    exact phrase?_of_name ha (Identifier.noNameChar_of_dot hu _) htrim (by decide)

theorem flush_of_qualified {raw : Text} (hraw : Identifier.Qualified raw) (t : Text) :
    Flush (raw ++ t) := by
  obtain ⟨c, r, rfl, hc⟩ := hraw.starts
  exact .cons hc _

/-- The name of a table and what stands in front of it do not depend on the body. -/
theorem front_of_createdTable? {s raw r : Text} (h : createdTable? s = some (raw, r)) :
    ∃ u, s = u ++ raw ++ r ∧ Identifier.Qualified raw ∧
      ∀ t, Opens t → createdTable? (u ++ raw ++ t) = some (raw, t) := by
  obtain ⟨x, hx, hname⟩ := Option.bind_eq_some_iff.mp h
  obtain ⟨u, rfl, hu⟩ := front_of_createTable? hx
  have hcreated : ∀ y, Flush y → createdTable? (u ++ y) = nameBehind? ["IF", "NOT", "EXISTS"] y := by
    intro y hy
    unfold createdTable?
    rw [hu y hy]
    rfl
  unfold nameBehind? at hname
  rcases Outcome.orElse_eq_some.mp hname with hname | ⟨hnone, hname⟩
  · obtain ⟨y, hy, hread⟩ := Option.bind_eq_some_iff.mp hname
    obtain ⟨hraw, rfl⟩ := Identifier.Qualified.of_read? hread
    obtain ⟨v, rfl, hv⟩ := @front_of_phraseGap? ["IF", "NOT", "EXISTS"] (by simp) _ _ hy
    refine ⟨u ++ v, by simp, hraw, fun t ht => ?_⟩
    have hphrase := hv (raw ++ t) (flush_of_qualified hraw t)
    have hflush : Flush (v ++ (raw ++ t)) := by
      have := isSome_of_phraseGap? hphrase
      exact @Starts.flush ["IF"] _ ⟨"IF", by simp, this⟩ (by decide)
    rw [List.append_assoc, List.append_assoc, hcreated _ hflush, nameBehind?, hphrase]
    show (Identifier.qualified? (raw ++ t) <|> _) = _
    rw [hraw.read ht.stopsName]
    rfl
  · obtain ⟨hraw, rfl⟩ := Identifier.Qualified.of_read? hname
    refine ⟨u, by simp, hraw, fun t ht => ?_⟩
    rw [List.append_assoc, hcreated _ (flush_of_qualified hraw t), nameBehind?,
      phrase?_of_qualified hraw ht]
    exact hraw.read ht.stopsName

/-! ## 3. Bodies -/

/-- What stands in front of a body, behind which any body can stand. -/
structure Frame (front raw : Text) : Prop where
  named : Identifier.Qualified raw
  flush : Flush front
  ends : ∃ u c, front = u ++ [c] ∧ isBlank c = false
  read : ∀ t, Opens t → createdTable? (front ++ t) = some (raw, t)

theorem starts_of_createdTable? {s : Text} {found : Text × Text} (h : createdTable? s = some found) :
    Starts ["CREATE"] s := by
  obtain ⟨x, hx, -⟩ := Option.bind_eq_some_iff.mp h
  obtain ⟨y, hy, -⟩ := Option.bind_eq_some_iff.mp hx
  obtain ⟨z, hz, -⟩ := Option.bind_eq_some_iff.mp hy
  exact ⟨"CREATE", by simp, by rw [hz]; rfl⟩

theorem frame_of_createdTable? {s raw r : Text} (h : createdTable? s = some (raw, r)) :
    ∃ front, s = front ++ r ∧ Frame front raw := by
  obtain ⟨u, hs, hraw, hread⟩ := front_of_createdTable? h
  obtain ⟨v, d, hv, hd⟩ := hraw.ends
  refine ⟨u ++ raw, hs, hraw, ?_, ⟨u ++ v, d, by rw [hv, List.append_assoc], hd⟩, hread⟩
  have hopen := starts_of_createdTable? (hread ['('] ⟨[], rfl⟩)
  have hflush : Flush (u ++ raw ++ ['(']) := hopen.flush (by decide)
  cases hfront : u ++ raw with
  | nil => rfl
  | cons c t =>
    rw [hfront] at hflush
    exact .cons (Text.not_isBlank_of_trimLeft hflush) t

theorem trimLeft_blank_append {gap t : Text} (hgap : ∀ c ∈ gap, isBlank c = true) {c : Char}
    (hc : isBlank c = false) : Text.trimLeft (gap ++ c :: t) = c :: t := by
  rw [Text.trimLeft, List.dropWhile_append_of_pos hgap]
  exact Text.trimLeft_cons hc t

/-- A statement with a body, cut at the parentheses. -/
def Frame.query (front gap body options : Text) : Text :=
  front ++ (gap ++ '(' :: (body ++ ')' :: options))

variable {front raw gap body : Text}

theorem Frame.layout? (h : Frame front raw) (hgap : ∀ c ∈ gap, isBlank c = true)
    (hbody : Balanced body) (options : Text) : layout? (Frame.query front gap body options) =
      some { rawName := raw, header := front ++ gap, body, options } := by
  have htrim : Text.trimLeft (gap ++ '(' :: (body ++ ')' :: options)) =
      '(' :: (body ++ ')' :: options) := trimLeft_blank_append hgap (by decide)
  have hgroup : group? ('(' :: (body ++ ')' :: options)) = some (body, options) :=
    closing?_of_walk hbody options
  have htake : (Frame.query front gap body options).take
      ((Frame.query front gap body options).length - ('(' :: (body ++ ')' :: options)).length) =
        front ++ gap := by
    unfold Frame.query
    rw [← List.append_assoc, List.length_append, Nat.add_sub_cancel, List.take_left]
  unfold CreateTable.layout?
  rw [Frame.query, h.read _ ⟨_, htrim⟩, ← Frame.query]
  show (group? (Text.trimLeft (gap ++ _))).bind _ = _
  rw [htrim, hgroup]
  show some (Layout.mk raw ((Frame.query front gap body options).take _) body options) = _
  rw [htake]

theorem frame_of_layout? {s : Text} {l : Layout} (h : layout? s = some l) :
    ∃ front gap, s = Frame.query front gap l.body l.options ∧ Frame front l.rawName ∧
      (∀ c ∈ gap, isBlank c = true) ∧ Balanced l.body ∧ l.header = front ++ gap := by
  unfold CreateTable.layout? at h
  obtain ⟨⟨raw, r⟩, hread, h⟩ := Option.bind_eq_some_iff.mp h
  obtain ⟨⟨body, options⟩, hgroup, h⟩ := Option.bind_eq_some_iff.mp h
  cases h
  obtain ⟨front, rfl, hframe⟩ := frame_of_createdTable? hread
  dsimp only at hgroup ⊢
  unfold group? at hgroup
  split at hgroup
  · rename_i t ht
    obtain ⟨rfl, hbody⟩ := walk_of_closing? hgroup
    have hr : r = r.takeWhile isBlank ++ '(' :: (body ++ ')' :: options) := by
      rw [← ht]
      exact List.takeWhile_append_dropWhile.symm
    have hgap : ∀ c ∈ r.takeWhile isBlank, isBlank c = true := fun c hc => List.mem_takeWhile_imp hc
    refine ⟨front, r.takeWhile isBlank, congrArg (front ++ ·) hr, hframe, hgap, hbody, ?_⟩
    generalize r.takeWhile isBlank = gap at hr
    rw [ht, hr, ← List.append_assoc, List.length_append, Nat.add_sub_cancel, List.take_left]
  · cases hgroup

-- Only blanks behind the table options are trimmed off a statement with a body.
theorem Frame.trim (h : Frame front raw) (gap body options : Text) :
    Text.trim (Frame.query front gap body options) =
      Frame.query front gap body (options.rdropWhile isBlank) := by
  have hleft : Text.trimLeft (Frame.query front gap body options) =
      Frame.query front gap body options := by
    obtain ⟨u, c, hfront, -⟩ := h.ends
    cases hcons : front with
    | nil => simp [hcons] at hfront
    | cons d t =>
      have hd := h.flush
      rw [hcons] at hd
      exact Text.trimLeft_cons (Text.not_isBlank_of_trimLeft hd) _
  have hsplit : ∀ x, Frame.query front gap body x = (front ++ (gap ++ '(' :: body)) ++ ')' :: x := by
    intro x
    simp [Frame.query]
  rw [Text.trim, hleft]
  show (Frame.query front gap body options).rdropWhile isBlank = _
  rw [hsplit, hsplit, Text.rdropWhile_append_cons (by decide)]

/-- The blanks around a statement and the table options do not matter to its parts. -/
theorem Frame.parts (h : Frame front raw) (hgap : ∀ c ∈ gap, isBlank c = true)
    (hbody : Balanced body) (options : Text) :
    parts (Frame.query front gap body options) = bodyParts body := by
  unfold CreateTable.parts
  rw [h.trim, h.layout? hgap hbody]

end SqlDump.CreateTable
