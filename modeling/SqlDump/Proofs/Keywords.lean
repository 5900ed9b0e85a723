import SqlDump.Proofs.Characters
import SqlDump.Proofs.Trimming
import SqlDump.Syntax.Keyword

/-!
# Keywords and the gaps behind them

What spells a keyword, what a keyword reads off a text whatever follows, and which keywords cannot
stand at the same place.
-/

namespace SqlDump

/-! ## 1. Letters -/

/-- Whether a letter and its small form are no blanks. -/
def isSolid (k : Char) : Bool := !isBlank k && !isBlank k.toLower

theorem not_isBlank_of_isLetter {k c : Char} (hk : isSolid k = true) (h : isLetter k c = true) :
    isBlank c = false := by
  simp only [isSolid, Bool.and_eq_true, Bool.not_eq_true'] at hk
  simp only [isLetter, Bool.or_eq_true, Bool.and_eq_true, decide_eq_true_eq] at h
  rcases h with (((rfl | rfl) | ⟨-, rfl | rfl⟩) | ⟨-, rfl⟩) | ⟨-, rfl⟩
  · exact hk.1
  · exact hk.2
  all_goals decide

theorem not_isLetter_of_isBlank {k c : Char} (hk : isSolid k = true) (h : isBlank c = true) :
    isLetter k c = false := by
  by_contra hc
  rw [Bool.not_eq_false] at hc
  rw [not_isBlank_of_isLetter hk hc] at h
  cases h

/-- The characters that spell a letter. -/
def letterForms (k : Char) : List Char :=
  [k, k.toLower] ++ (if k = 'I' then ['\u0131', '\u0130'] else []) ++
    (if k = 'S' then ['\u017f'] else []) ++ if k = 'K' then ['\u212a'] else []

theorem mem_letterForms {k c : Char} (h : isLetter k c = true) : c ∈ letterForms k := by
  simp only [isLetter, Bool.or_eq_true, Bool.and_eq_true, decide_eq_true_eq] at h
  rcases h with (((rfl | rfl) | ⟨rfl, h⟩) | ⟨rfl, rfl⟩) | ⟨rfl, rfl⟩
  · simp [letterForms]
  · simp [letterForms]
  · rcases h with rfl | rfl <;> decide
  · decide
  · decide

/-! ## 2. Keywords read off a text -/

-- What fits a keyword has a character for each of its letters, whatever follows.
theorem exists_of_keyword? {w s r : Text} (h : keyword? w s = some r) :
    ∃ u, s = u ++ r ∧ u.length = w.length ∧ (∀ c ∈ u, ∃ k ∈ w, isLetter k c = true) ∧
      ∀ t, keyword? w (u ++ t) = some t := by
  induction w generalizing s with
  | nil =>
    cases h
    exact ⟨[], rfl, rfl, fun _ hc => (List.not_mem_nil hc).elim, fun _ => rfl⟩
  | cons k w ih =>
    cases s with
    | nil => cases h
    | cons c s =>
      rw [keyword?] at h
      split at h
      · rename_i hc
        obtain ⟨u, rfl, hlength, hletters, hu⟩ := ih h
        refine ⟨c :: u, rfl, congrArg (· + 1) hlength, ?_, fun t => ?_⟩
        · intro d hd
          rcases List.mem_cons.mp hd with rfl | hd
          · exact ⟨k, List.mem_cons_self, hc⟩
          · obtain ⟨l, hl, hd⟩ := hletters d hd
            exact ⟨l, List.mem_cons_of_mem _ hl, hd⟩
        · rw [List.cons_append, keyword?, if_pos hc]
          exact hu t
      · cases h

theorem keyword?_append (w t : Text) : keyword? w (w ++ t) = some t := by
  induction w with
  | nil => rfl
  | cons k w ih =>
    rw [List.cons_append, keyword?, if_pos (by simp [isLetter])]
    exact ih

/-- Whether a keyword is only spelled with characters of a kind. -/
def spelledIn (p : Char → Bool) (w : Text) : Bool := w.all fun k => (letterForms k).all p

theorem exists_of_spelled {p : Char → Bool} {w : Text} (hw : spelledIn p w = true) {s r : Text}
    (h : keyword? w s = some r) : ∃ u, s = u ++ r ∧ u.length = w.length ∧ (∀ c ∈ u, p c = true) ∧
      ∀ t, keyword? w (u ++ t) = some t := by
  obtain ⟨u, hs, hlength, hletters, hu⟩ := exists_of_keyword? h
  refine ⟨u, hs, hlength, fun c hc => ?_, hu⟩
  obtain ⟨k, hk, hletter⟩ := hletters c hc
  exact List.all_eq_true.mp (List.all_eq_true.mp hw k hk) c (mem_letterForms hletter)

-- A keyword that stands at the front is spelled from there.
theorem exists_cons_of_spelled {p : Char → Bool} {k : Char} {w s : Text}
    (hk : (letterForms k).all p = true) (h : (keyword? (k :: w) s).isSome = true) :
    ∃ c t, s = c :: t ∧ p c = true := by
  cases s with
  | nil => cases h
  | cons c t =>
    rw [keyword?] at h
    split at h
    · rename_i hc
      exact ⟨c, t, rfl, List.all_eq_true.mp hk c (mem_letterForms hc)⟩
    · cases h

/-- Whether two keywords have letters at one place that no character spells both of. -/
def clash (w v : Text) : Bool :=
  (w.zip v).any fun (k, l) => (letterForms k).all fun c => !(letterForms l).contains c

theorem keyword?_of_clash {w v s : Text} (h : clash w v = true)
    (hw : (keyword? w s).isSome = true) : keyword? v s = none := by
  induction w generalizing v s with
  | nil => cases h
  | cons k w ih =>
    cases v with
    | nil => cases h
    | cons l v =>
      cases s with
      | nil => rfl
      | cons c s =>
        rw [keyword?] at hw ⊢
        split at hw
        · rename_i hk
          split
          · rename_i hl
            have happart : ¬ (letterForms k).all (fun c => !(letterForms l).contains c) = true := by
              intro hall
              have := List.all_eq_true.mp hall c (mem_letterForms hk)
              rw [Bool.not_eq_true', List.contains_eq_mem, decide_eq_false_iff_not] at this
              exact this (mem_letterForms hl)
            rw [clash, List.zip_cons_cons, List.any_cons, Bool.or_eq_true] at h
            exact ih (h.resolve_left happart) hw
          · rfl
        · cases hw

theorem gap?_cons {t : Text} (h : ∃ c r, t = c :: r ∧ isBlank c = false) :
    gap? (' ' :: t) = some t := by
  obtain ⟨c, r, rfl, hc⟩ := h
  rw [gap?, if_pos (by decide), Text.trimLeft_cons hc]

theorem skipWords_of_none {ws : List Text} {s : Text} (h : anyKeyword? ws s = none) (n : Nat) :
    skipWords ws n s = s := by
  cases n with
  | zero => rfl
  | succ n =>
    rw [skipWords, h]
    rfl

/-! ## 3. Keywords at the front of a text that loses its end -/

/-- Whether a keyword has no letter among the characters. -/
def Spares (w : Text) (q : Char → Bool) : Prop := ∀ k ∈ w, ∀ c ∈ letterForms k, q c = false

theorem keyword?_concat {w s : Text} {q : Char → Bool} {c : Char} (hw : Spares w q)
    (hc : q c = true) (h : (keyword? w (s ++ [c])).isSome = true) :
    (keyword? w s).isSome = true := by
  induction w generalizing s with
  | nil => rfl
  | cons k w ih =>
    cases s with
    | nil =>
      rw [List.nil_append, keyword?] at h
      split at h
      · rename_i hk
        rw [hw k List.mem_cons_self c (mem_letterForms hk)] at hc
        cases hc
      · cases h
    | cons d s =>
      rw [List.cons_append, keyword?] at h
      rw [keyword?]
      split at h
      · rename_i hk
        rw [if_pos hk]
        exact ih (fun l hl => hw l (List.mem_cons_of_mem _ hl)) h
      · cases h

theorem keyword?_rdropWhile {w s : Text} {q : Char → Bool} (hw : Spares w q)
    (h : (keyword? w s).isSome = true) : (keyword? w (s.rdropWhile q)).isSome = true := by
  induction s using List.reverseRecOn with
  | nil => exact h
  | append_singleton s c ih =>
    by_cases hc : q c = true
    · rw [List.rdropWhile_concat_pos q _ _ hc]
      exact ih (keyword?_concat hw hc h)
    · rw [List.rdropWhile_concat_neg q _ _ hc]
      exact h

/-- Whether neither a blank nor a semicolon spells a letter of the keyword. -/
def isSolidWord (w : Text) : Bool :=
  w.all fun k => (letterForms k).all fun c => !isBlank c && decide (c ≠ ';')

theorem spares_of_isSolidWord {w : Text} (h : isSolidWord w = true) :
    Spares w isBlank ∧ Spares w (· = ';') := by
  have hall : ∀ k ∈ w, ∀ c ∈ letterForms k, isBlank c = false ∧ c ≠ ';' := by
    intro k hk c hc
    have := List.all_eq_true.mp (List.all_eq_true.mp h k hk) c hc
    rwa [Bool.and_eq_true, Bool.not_eq_true', decide_eq_true_iff] at this
  exact ⟨fun k hk c hc => (hall k hk c hc).1,
    fun k hk c hc => decide_eq_false (hall k hk c hc).2⟩

/-! ## 4. Fronts that are read whatever follows -/

/-- No blank stands at the front. -/
def Flush (t : Text) : Prop := Text.trimLeft t = t

theorem Flush.cons {c : Char} (h : isBlank c = false) (t : Text) : Flush (c :: t) :=
  Text.trimLeft_cons h t

theorem gap?_eq_some {s r : Text} (h : gap? s = some r) :
    r = Text.trimLeft s ∧ ∃ c t, s = c :: t ∧ isBlank c = true := by
  cases s with
  | nil => cases h
  | cons c s =>
    rw [gap?] at h
    split at h
    · rename_i hc
      cases h
      exact ⟨(Text.trimLeft_cons_blank hc s).symm, c, s, rfl, hc⟩
    · cases h

theorem front_of_gap? {s r : Text} (h : gap? s = some r) :
    ∃ u, s = u ++ r ∧ ∀ t, Flush t → gap? (u ++ t) = some t := by
  cases s with
  | nil => cases h
  | cons c s =>
    rw [gap?] at h
    split at h
    · rename_i hc
      cases h
      have hblank : ∀ d ∈ s.takeWhile isBlank, isBlank d = true := fun d hd =>
        List.mem_takeWhile_imp hd
      refine ⟨c :: s.takeWhile isBlank, ?_, fun t ht => ?_⟩
      · exact congrArg (c :: ·) List.takeWhile_append_dropWhile.symm
      · rw [List.cons_append, gap?, if_pos hc, Text.trimLeft, List.dropWhile_append_of_pos hblank]
        exact congrArg some ht
    · cases h

theorem wordEnds_of_gap? {s r : Text} (h : gap? s = some r) : wordEnds s = true := by
  obtain ⟨-, c, t, rfl, hc⟩ := gap?_eq_some h
  rw [wordEnds, not_isWord_of_isBlank hc]
  rfl

theorem flush_of_gap? {s r : Text} (h : gap? s = some r) : Flush r := by
  rw [(gap?_eq_some h).1]
  exact Text.trimLeft_trimLeft s

theorem front_of_keywordGap? {w s r : Text} (h : (keyword? w s >>= gap?) = some r) :
    ∃ u, s = u ++ r ∧ ∀ t, Flush t → (keyword? w (u ++ t) >>= gap?) = some t := by
  obtain ⟨x, hx, hgap⟩ := Option.bind_eq_some_iff.mp h
  obtain ⟨u, rfl, -, -, hu⟩ := exists_of_keyword? hx
  obtain ⟨v, rfl, hv⟩ := front_of_gap? hgap
  refine ⟨u ++ v, (List.append_assoc u v r).symm, fun t ht => ?_⟩
  rw [List.append_assoc, hu]
  exact hv t ht

theorem phrase?_cons_cons (w v : Text) (ws : List Text) (s : Text) :
    phrase? (w :: v :: ws) s = (keyword? w s >>= gap?).bind (phrase? (v :: ws)) := by
  rw [phrase?]
  · rfl
  · exact List.cons_ne_nil v ws

/-- A phrase and the gap behind it are read so, whatever follows them. -/
theorem front_of_phraseGap? {ws : List Text} (hws : ∀ w ∈ ws, w ≠ []) {s r : Text}
    (h : (phrase? ws s >>= gap?) = some r) :
    ∃ u, s = u ++ r ∧ ∀ t, Flush t → (phrase? ws (u ++ t) >>= gap?) = some t := by
  induction ws generalizing s with
  | nil => exact front_of_gap? h
  | cons w ws ih =>
    cases ws with
    | nil => exact front_of_keywordGap? h
    | cons v ws =>
      rw [phrase?_cons_cons] at h
      obtain ⟨y, hy, hgap⟩ := Option.bind_eq_some_iff.mp h
      obtain ⟨x, hx, hy⟩ := Option.bind_eq_some_iff.mp hy
      have hflush : Flush x := by
        obtain ⟨z, -, hz⟩ := Option.bind_eq_some_iff.mp hx
        exact flush_of_gap? hz
      obtain ⟨u, rfl, hu⟩ := ih (fun w hw => hws w (List.mem_cons_of_mem _ hw))
        (s := x) (by rw [hy]; exact hgap)
      obtain ⟨u', rfl, hu'⟩ := front_of_keywordGap? hx
      refine ⟨u' ++ u, (List.append_assoc u' u r).symm, fun t ht => ?_⟩
      have hnext : Flush (u ++ t) := by
        cases u with
        | nil =>
          -- the next keyword has a letter at least, so it reads nothing off an empty text
          have hempty := hu [] rfl
          obtain ⟨k, v', hv⟩ := List.exists_cons_of_ne_nil (hws v (by simp))
          obtain ⟨z, hz, -⟩ := Option.bind_eq_some_iff.mp hempty
          rw [hv] at hz
          cases ws with
          | nil => cases hz
          | cons => rw [phrase?_cons_cons] at hz; cases hz
        | cons c u =>
          have hc : isBlank c = false := by
            cases hc : isBlank c with
            | false => rfl
            | true =>
              exfalso
              have hlength := congrArg List.length hflush
              rw [List.cons_append, Text.trimLeft_cons_blank hc] at hlength
              have hle := List.length_dropWhile_le isBlank (u ++ r)
              change (Text.trimLeft (u ++ r)).length ≤ _ at hle
              rw [List.length_cons] at hlength
              omega
          exact Flush.cons hc _
      rw [List.append_assoc, phrase?_cons_cons, hu' _ hnext]
      exact hu t ht

end SqlDump
