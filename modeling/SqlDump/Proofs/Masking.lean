import SqlDump.Proofs.Counters
import SqlDump.Proofs.PlainTexts

/-!
# What goes with the AUTO_INCREMENT of a column

The place of an AUTO_INCREMENT is looked for in the masked definition, where literals are blanks, and
the blanks in front of it are taken off with it. So a literal in front of it goes too.
-/

namespace SqlDump

/-! ## 1. Masked texts -/

/-- The marks of literals. -/
def IsLiteralMark (c : Char) : Prop := c = '\x27' ∨ c = '\x22'

namespace Literal

/-- Blanks for literals, beside the text; `inside` tells whether they start inside a literal. -/
inductive Masked : Bool → Text → Text → Prop
  | nil : Masked false [] []
  | plain {c : Char} {m s : Text} (h : Masked false m s) : Masked false (c :: m) (c :: s)
  | opens {c : Char} {m s : Text} (hc : IsLiteralMark c) (h : Masked true m s) :
      Masked false (' ' :: m) (c :: s)
  | inner {c : Char} {m s : Text} (h : Masked true m s) : Masked true (' ' :: m) (c :: s)
  | closes {c : Char} {m s : Text} (hc : IsLiteralMark c) (h : Masked false m s) :
      Masked true (' ' :: m) (c :: s)

theorem masked_literal {mark : Char} (hmark : IsLiteralMark mark) (w : Text) {m s : Text}
    (h : Masked false m s) :
    Masked false (List.replicate (mark :: (w ++ [mark])).length ' ' ++ m)
      (mark :: (w ++ [mark]) ++ s) := by
  refine .opens hmark ?_
  induction w with
  | nil => exact .closes hmark h
  | cons c w ih => exact .inner ih

theorem masked_maskWithin {n : Nat} {s : Text} (hn : s.length ≤ n) :
    Masked false (maskWithin n s) s := by
  induction n generalizing s with
  | zero =>
    rw [List.length_eq_zero_iff.mp (Nat.le_zero.mp hn)]
    exact .nil
  | succ n ih =>
    cases s with
    | nil => exact .nil
    | cons c s =>
      rw [maskWithin]
      split
      · rename_i u r hread
        split at hread
        case isFalse => cases hread
        rename_i hmark
        have hsplits := read?_splits hread
        obtain ⟨w, rfl⟩ := Token.exists_of_literal hread
        have hlength := congrArg List.length hsplits
        simp only [List.length_cons, List.length_append, List.length_nil] at hlength hn
        rw [hsplits]
        exact masked_literal (by simpa [IsLiteralMark] using hmark) w (ih (by omega))
      · exact .plain (ih (Nat.le_of_succ_le_succ hn))

theorem masked_mask (s : Text) : Masked false (mask s) s := masked_maskWithin le_rfl

/-- Text that ends with a literal, blanks behind it aside. -/
def BehindLiteral (s : Text) : Prop :=
  ∃ u mark tail, s = u ++ mark :: tail ∧ IsLiteralMark mark ∧ ∀ c ∈ tail, isBlank c = true

theorem BehindLiteral.cons {s : Text} (h : BehindLiteral s) (c : Char) : BehindLiteral (c :: s) := by
  obtain ⟨u, mark, tail, rfl, h⟩ := h
  exact ⟨c :: u, mark, tail, rfl, h⟩

theorem not_behindLiteral_nil : ¬ BehindLiteral [] := by
  rintro ⟨u, mark, tail, hu, -⟩
  simp at hu

namespace Masked

variable {inside : Bool} {a m s : Text} {c : Char}

-- Behind blanks of the masked text the text has blanks too, or a literal.
theorem gap (h : Masked inside (a ++ c :: m) s) (ha : ∀ d ∈ a, isBlank d = true)
    (hc : isBlank c = false) : ∃ u v, s = u ++ c :: v ∧ Masked false m v ∧
      (u = [] → a = []) ∧ (inside = false ∧ (∀ d ∈ u, isBlank d = true) ∨ BehindLiteral u) := by
  induction a generalizing inside s with
  | nil =>
    cases h with
    | plain h =>
      exact ⟨[], _, rfl, h, fun _ => rfl, Or.inl ⟨rfl, fun _ hd => (List.not_mem_nil hd).elim⟩⟩
    | opens => cases hc
    | inner => cases hc
    | closes => cases hc
  | cons e a ih =>
    obtain ⟨he, hrest⟩ := List.forall_mem_cons.mp ha
    cases h with
    | plain h =>
      obtain ⟨u, v, rfl, hv, -, hu⟩ := ih h hrest
      refine ⟨e :: u, v, rfl, hv, nofun, hu.imp (fun hu => ⟨rfl, ?_⟩) (·.cons e)⟩
      exact List.forall_mem_cons.mpr ⟨he, hu.2⟩
    | @opens d _ _ hd h =>
      obtain ⟨u, v, rfl, hv, -, hu⟩ := ih h hrest
      exact ⟨d :: u, v, rfl, hv, nofun, Or.inr ((hu.resolve_left nofun).cons d)⟩
    | @inner d _ _ h =>
      obtain ⟨u, v, rfl, hv, -, hu⟩ := ih h hrest
      exact ⟨d :: u, v, rfl, hv, nofun, Or.inr ((hu.resolve_left nofun).cons d)⟩
    | @closes d _ _ hd h =>
      obtain ⟨u, v, rfl, hv, -, hu⟩ := ih h hrest
      refine ⟨d :: u, v, rfl, hv, nofun, Or.inr ?_⟩
      rcases hu with ⟨-, hu⟩ | hu
      · exact ⟨[], d, u, rfl, hd, hu⟩
      · exact hu.cons d

-- A word of the masked text stands in the text.
theorem word (h : Masked false (a ++ m) s) (ha : ∀ d ∈ a, isBlank d = false) :
    ∃ v, s = a ++ v ∧ Masked false m v := by
  induction a generalizing s with
  | nil => exact ⟨s, rfl, h⟩
  | cons e a ih =>
    obtain ⟨he, ha⟩ := List.forall_mem_cons.mp ha
    cases h with
    | plain h =>
      obtain ⟨v, rfl, hv⟩ := ih h ha
      exact ⟨v, rfl, hv⟩
    | opens => cases he

-- A text is cut where the masked text is. Outside literals, a word can start there if one can in the
-- masked text: the mark of a literal is in no word.
theorem split (h : Masked inside (a ++ m) s) : ∃ u v inside', s = u ++ v ∧ u.length = a.length ∧
    Masked inside' m v ∧
      (inside' = false → wordStarts a.getLast? = true → wordStarts u.getLast? = true) := by
  induction a using List.reverseRecOn generalizing m with
  | nil => exact ⟨[], s, inside, rfl, rfl, h, fun _ _ => rfl⟩
  | append_singleton a e ih =>
    rw [List.append_assoc] at h
    obtain ⟨u, v, inside', rfl, hlength, hv, -⟩ := ih h
    have hstep : ∃ d v' inside', v = d :: v' ∧ Masked inside' m v' ∧
        (inside' = false → d = e ∨ IsLiteralMark d) := by
      cases hv with
      | plain hv => exact ⟨_, _, false, rfl, hv, fun _ => Or.inl rfl⟩
      | opens hd hv => exact ⟨_, _, true, rfl, hv, nofun⟩
      | inner hv => exact ⟨_, _, true, rfl, hv, nofun⟩
      | closes hd hv => exact ⟨_, _, false, rfl, hv, fun _ => Or.inr hd⟩
    obtain ⟨d, v, inside', rfl, hv, hd⟩ := hstep
    refine ⟨u ++ [d], v, inside', by simp, by simp [hlength], hv, fun hinside hstarts => ?_⟩
    rw [List.getLast?_concat] at hstarts ⊢
    rcases hd hinside with rfl | rfl | rfl
    · exact hstarts
    · decide
    · decide

theorem length_eq (h : Masked inside m s) : m.length = s.length := by
  induction h with
  | nil => rfl
  | plain _ ih => exact congrArg (· + 1) ih
  | opens _ _ ih => exact congrArg (· + 1) ih
  | inner _ ih => exact congrArg (· + 1) ih
  | closes _ _ ih => exact congrArg (· + 1) ih

theorem wordEnds (h : Masked false m s) (hm : wordEnds m = true) : SqlDump.wordEnds s = true := by
  cases h with
  | nil => rfl
  | plain h => exact hm
  | opens hc h => rcases hc with rfl | rfl <;> rfl

end Masked

end Literal

/-! ## 2. The place of an AUTO_INCREMENT -/

/-- What is left of a text without an AUTO_INCREMENT and what stands directly in front of it. -/
def TakenOff (gap text left : Text) : Prop :=
  ∃ front word back, text = front ++ (gap ++ (word ++ back)) ∧ left = front ++ back ∧
    keyword? "AUTO_INCREMENT" word = some [] ∧
      wordStarts (front ++ gap).getLast? = true ∧ wordEnds back = true

/-- The text loses an AUTO_INCREMENT and blanks in front of it. -/
def LosesWord (text left : Text) : Prop :=
  ∃ gap, (∀ c ∈ gap, isBlank c = true) ∧ TakenOff gap text left

/-- The text loses an AUTO_INCREMENT and the literal in front of it. -/
def LosesLiteral (text left : Text) : Prop :=
  ∃ gap, Literal.BehindLiteral gap ∧ TakenOff gap text left

theorem isWord_of_autoIncrement {word r : Text} (h : keyword? "AUTO_INCREMENT" (word ++ r) = some r) :
    word.length = 14 ∧ ∀ c ∈ word, isWord c = true := by
  obtain ⟨u, hsplit, hlength, hall, -⟩ :=
    exists_of_spelled (show spelledIn isWord "AUTO_INCREMENT" = true by decide +kernel) h
  obtain rfl := List.append_cancel_right hsplit
  exact ⟨hlength, hall⟩

theorem TakenOff.length_solid {gap text left : Text} (h : TakenOff gap text left) :
    (Text.solid text).length = (Text.solid left).length + (Text.solid gap).length + 14 := by
  obtain ⟨front, word, back, rfl, rfl, hword, -⟩ := h
  obtain ⟨hlength, hall⟩ := isWord_of_autoIncrement (r := []) (by rwa [List.append_nil])
  have hsolid : Text.solid word = word :=
    List.filter_eq_self.mpr fun c hc => by rw [not_isBlank_of_isWord (hall c hc)]; rfl
  simp only [Text.solid_append, hsolid, List.length_append, hlength]
  omega

/-- What loses a literal loses more than a word and blanks. -/
theorem LosesLiteral.not_losesWord {text left : Text} (h : LosesLiteral text left) :
    ¬ LosesWord text left := by
  rintro ⟨blanks, hblanks, hword⟩
  obtain ⟨gap, ⟨u, mark, tail, rfl, hmark, -⟩, hliteral⟩ := h
  have hless := hword.length_solid
  have hmore := hliteral.length_solid
  have hsolid : Text.solid [mark] = [mark] := by rcases hmark with rfl | rfl <;> rfl
  rw [Text.solid_blank hblanks] at hless
  rw [← List.singleton_append, Text.solid_append, Text.solid_append, hsolid] at hmore
  simp only [List.length_append, List.length_cons, List.length_nil] at hless hmore
  omega

-- No word ends where a literal does, or where blanks do.
theorem wordStarts_of_gap {front gap : Text} (hne : gap ≠ [])
    (h : (∀ c ∈ gap, isBlank c = true) ∨ Literal.BehindLiteral gap) :
    wordStarts (front ++ gap).getLast? = true := by
  have hlast : ∃ c, gap.getLast? = some c ∧ isWord c = false := by
    have hblank : ∀ tail : Text, tail ≠ [] → (∀ c ∈ tail, isBlank c = true) →
        ∃ c, tail.getLast? = some c ∧ isWord c = false := fun tail htail hall =>
      ⟨_, List.getLast?_eq_getLast_of_ne_nil htail,
        not_isWord_of_isBlank (hall _ (List.getLast_mem htail))⟩
    rcases h with h | ⟨u, mark, tail, rfl, hmark, htail⟩
    · exact hblank gap hne h
    · rcases eq_or_ne tail [] with rfl | hnil
      · exact ⟨mark, List.getLast?_concat, by rcases hmark with rfl | rfl <;> rfl⟩
      · obtain ⟨c, hc, hword⟩ := hblank tail hnil htail
        refine ⟨c, ?_, hword⟩
        rw [← hc, ← List.singleton_append, ← List.append_assoc, List.getLast?_append_of_ne_nil _ hnil]
  obtain ⟨c, hc, hword⟩ := hlast
  rw [List.getLast?_append_of_ne_nil _ hne, hc]
  show (!isWord c) = true
  rw [hword]
  rfl

namespace CreateTable

-- The blanks in front of the word and the word, in the masked text.
theorem exists_of_autoIncrement? {masked before r : Text}
    (h : autoIncrement? masked = some (before, r)) : ∃ gap word,
      masked = before ++ (gap ++ (word ++ r)) ∧ (∀ c ∈ gap, isBlank c = true) ∧
        keyword? "AUTO_INCREMENT" word = some [] ∧
          (gap = [] → wordStarts before.getLast? = true) ∧ wordEnds r = true := by
  obtain ⟨t, rfl, hfound⟩ := Text.exists_of_search h
  rw [Option.or_none] at hfound
  dsimp only at hfound
  split at hfound
  case isFalse => cases hfound
  rename_i hplace
  obtain ⟨x, hword, hfound⟩ := Option.bind_eq_some_iff.mp hfound
  split at hfound
  · cases hfound
  cases hfound
  obtain ⟨hkeyword, hends⟩ := Option.filter_eq_some_iff.mp hword
  obtain ⟨word, ht, -, -, hread⟩ := exists_of_keyword? hkeyword
  obtain ⟨gap, hgap, hblank⟩ := Text.exists_trimLeft t
  have hwhole := hread []
  rw [List.append_nil] at hwhole
  refine ⟨gap, word, by rw [← ht, ← hgap], hblank, hwhole, ?_, hends⟩
  rintro rfl
  rw [List.nil_append] at hgap
  simpa [← hgap] using hplace

/-- A counter's part is the column's without the word, and without the blanks or the literal in front
of it. -/
theorem loses_of_counter? {part : Text} {counter : Counter} (h : counter? part = some counter) :
    LosesWord part counter.part ∨ LosesLiteral part counter.part := by
  obtain ⟨named, -, h⟩ := Option.bind_eq_some_iff.mp h
  obtain ⟨⟨before, r⟩, hfound, h⟩ := Option.bind_eq_some_iff.mp h
  cases h
  obtain ⟨blanks, word, hmask, hblanks, hkeyword, hplace, hends⟩ := exists_of_autoIncrement? hfound
  obtain ⟨hlength, hall⟩ := isWord_of_autoIncrement (r := []) (by rwa [List.append_nil])
  have hmasked := Literal.masked_mask part
  rw [hmask] at hmasked
  obtain ⟨front, v, inside, rfl, hfront, hv, hstarts⟩ := hmasked.split
  cases word with
  | nil => cases hlength
  | cons c word =>
    have hsolid : ∀ d ∈ c :: word, isBlank d = false := fun d hd => not_isBlank_of_isWord (hall d hd)
    obtain ⟨hc, hword⟩ := List.forall_mem_cons.mp hsolid
    obtain ⟨gap, v, rfl, hv, hnil, hgap⟩ := hv.gap hblanks hc
    obtain ⟨back, rfl, hback⟩ := hv.word hword
    have htext : front ++ (gap ++ c :: (word ++ back)) = front ++ (gap ++ c :: word) ++ back := by simp
    have htaken : TakenOff gap (front ++ (gap ++ c :: (word ++ back)))
        ((front ++ (gap ++ c :: (word ++ back))).take before.length ++
          (front ++ (gap ++ c :: (word ++ back))).drop
            ((front ++ (gap ++ c :: (word ++ back))).length - r.length)) := by
      refine ⟨front, c :: word, back, rfl, ?_, hkeyword, ?_, hback.wordEnds hends⟩
      · rw [← hfront, hback.length_eq, List.take_left, htext, List.length_append, Nat.add_sub_cancel,
          List.drop_left]
      · rcases eq_or_ne gap [] with rfl | hne
        · rw [List.append_nil]
          obtain ⟨rfl, -⟩ := hgap.resolve_right Literal.not_behindLiteral_nil
          exact hstarts rfl (hplace (hnil rfl))
        · exact wordStarts_of_gap hne (hgap.imp (·.2) id)
    exact hgap.imp (fun hgap => ⟨gap, hgap.2, htaken⟩) fun hgap => ⟨gap, hgap, htaken⟩

end CreateTable

end SqlDump
