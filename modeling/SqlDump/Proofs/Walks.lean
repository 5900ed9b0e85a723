import SqlDump.Proofs.BlankGroups

/-!
# Parts of a body

A scan goes from one place among quotes and parentheses to another. The content of a group takes it
back to where it started, and so does each part of the content between two top-level commas; parts
put together again, with commas between them, are the parts of what they make up.
-/

namespace SqlDump.Nesting

open Quoting (Stands)

/-! ## 1. Where a scan gets -/

/-- A place among quotes and parentheses. -/
abbrev Place := Quoting × Nat

abbrev start : Place := (.outside, 0)

/-- The place behind a character. A scan may not leave the group it is in, and with `parts` it stays
in one part of it. -/
def stride (parts : Bool) : Place → Char → Option Place
  | (.inside mark escaped, d), c => some ((Quoting.inside mark escaped).step c, d)
  | (.outside, d), c =>
    if c = ')' then if d = 0 then none else some (.outside, d - 1)
    else if parts && c = ',' && d = 0 then none
    else some (Quoting.outside.step c, if c = '(' then d + 1 else d)

def walk (parts : Bool) (p : Place) (s : Text) : Option Place := s.foldlM (stride parts) p

/-- The content of a group. -/
def Balanced (s : Text) : Prop := walk false start s = some start

/-- A part of the content of a group. -/
def Whole (s : Text) : Prop := walk true start s = some start

instance (s : Text) : Decidable (Whole s) :=
  inferInstanceAs (Decidable (walk true start s = some start))

variable {parts : Bool} {p : Place}

theorem walk_cons (c : Char) (s : Text) :
    walk parts p (c :: s) = (stride parts p c).bind fun p => walk parts p s :=
  List.foldlM_cons

theorem walk_append (s t : Text) :
    walk parts p (s ++ t) = (walk parts p s).bind fun p => walk parts p t :=
  List.foldlM_append

theorem walk_cons_of {p' : Place} {c : Char} (h : stride parts p c = some p') (s : Text) :
    walk parts p (c :: s) = walk parts p' s := by
  rw [walk_cons, h]
  rfl

theorem stride_of_parts {p' : Place} {c : Char} (h : stride true p c = some p') :
    stride false p c = some p' := by
  obtain ⟨q, d⟩ := p
  cases q with
  | inside mark escaped => exact h
  | outside =>
    unfold stride at h ⊢
    dsimp only at h ⊢
    split at h
    · rename_i hc
      rw [if_pos hc]
      exact h
    · rename_i hc
      rw [if_neg hc, if_neg (by simp)]
      split at h
      · cases h
      · exact h

-- A part of a group's content is content of a group.
theorem walk_of_parts {p' : Place} {s : Text} (h : walk true p s = some p') :
    walk false p s = some p' := by
  induction s generalizing p with
  | nil => exact h
  | cons c s ih =>
    rw [walk_cons] at h
    obtain ⟨next, hnext, h⟩ := Option.bind_eq_some_iff.mp h
    rw [walk_cons_of (stride_of_parts hnext)]
    exact ih h

theorem Whole.balanced {s : Text} (h : Whole s) : Balanced s := walk_of_parts h

theorem Balanced.append {s t : Text} (hs : Balanced s) (ht : Balanced t) : Balanced (s ++ t) := by
  unfold Balanced at hs ht ⊢
  rw [walk_append, hs]
  exact ht

theorem Whole.append {s t : Text} (hs : Whole s) (ht : Whole t) : Whole (s ++ t) := by
  unfold Whole at hs ht ⊢
  rw [walk_append, hs]
  exact ht

-- A step stays in its string, leaves a group, or stays in its part.
theorem stride_cases {q q' : Quoting} {d d' : Nat} {c : Char}
    (h : stride parts (q, d) c = some (q', d')) :
    (∃ mark escaped, q = .inside mark escaped ∧ q' = q.step c ∧ d' = d) ∨
    (q = .outside ∧ c = ')' ∧ d = d' + 1 ∧ q' = .outside) ∨
    (q = .outside ∧ c ≠ ')' ∧ ¬ (parts && c = ',' && d = 0) = true ∧ q' = q.step c ∧
      d' = if c = '(' then d + 1 else d) := by
  cases q with
  | inside mark escaped =>
    cases h
    exact Or.inl ⟨mark, escaped, rfl, rfl, rfl⟩
  | outside =>
    unfold stride at h
    dsimp only at h
    split at h
    · rename_i hc
      cases d with
      | zero => cases h
      | succ d =>
        cases h
        exact Or.inr (Or.inl ⟨rfl, hc, rfl, rfl⟩)
    · rename_i hc
      split at h
      · cases h
      · rename_i hcut
        cases h
        exact Or.inr (Or.inr ⟨rfl, hc, hcut, rfl, rfl⟩)

-- A blank outside quotes leads nowhere.
theorem stride_blank {c : Char} (h : isBlank c = true) (d : Nat) :
    stride parts (.outside, d) c = some (.outside, d) := by
  have hne : ∀ e, isBlank e = false → ¬ c = e := fun e he => ne_of_isBlank h he
  have hquote := Quoting.not_isQuoteMark_of_isBlank h
  unfold stride
  dsimp only
  rw [if_neg (hne ')' (by decide)), if_neg (by simp [hne ',' (by decide)]),
    if_neg (hne '(' (by decide))]
  simp [Quoting.step, hquote]

theorem whole_of_blank {s : Text} (h : ∀ c ∈ s, isBlank c = true) : Whole s := by
  induction s with
  | nil => rfl
  | cons c s ih =>
    rw [Whole, walk_cons_of (stride_blank (h c List.mem_cons_self) 0)]
    exact ih fun d hd => h d (List.mem_cons_of_mem _ hd)

/-! ## 2. The content of a group -/

-- Up to its closing parenthesis, a group is content that leads out of it.
theorem closing?_cons_of {q q' : Quoting} {d d' : Nat} {c : Char}
    (h : stride false (q, d) c = some (q', d')) (s : Text) :
    closing? q d (c :: s) = (closing? q' d' s).map (before c) := by
  rcases stride_cases h with ⟨mark, escaped, rfl, rfl, rfl⟩ | ⟨rfl, rfl, rfl, rfl⟩ |
    ⟨rfl, hclose, -, rfl, rfl⟩
  · exact closing?_cons rfl d' s
  · exact closing?_succ d' s
  · rw [closing?_cons (by simp [hclose])]
    simp [Quoting.isOutside]

theorem closing?_of_walk {q : Quoting} {d : Nat} {u : Text}
    (h : walk false (q, d) u = some start) (r : Text) :
    closing? q d (u ++ ')' :: r) = some (u, r) := by
  induction u generalizing q d with
  | nil =>
    cases h
    exact closing?_zero r
  | cons c u ih =>
    rw [walk_cons] at h
    obtain ⟨⟨q', d'⟩, hnext, h⟩ := Option.bind_eq_some_iff.mp h
    rw [List.cons_append, closing?_cons_of hnext, ih h]
    rfl

-- Only the parenthesis that closes a group leads out of it.
theorem stride_eq_none {q : Quoting} {d : Nat} {c : Char} (h : stride false (q, d) c = none) :
    q = .outside ∧ d = 0 ∧ c = ')' := by
  cases q with
  | inside mark escaped => cases h
  | outside =>
    unfold stride at h
    dsimp only at h
    split at h
    · rename_i hc
      cases d with
      | zero => exact ⟨rfl, rfl, hc⟩
      | succ d => cases h
    · rw [if_neg (by simp)] at h
      cases h

theorem walk_of_closing? {q : Quoting} {d : Nat} {s u r : Text}
    (h : closing? q d s = some (u, r)) : s = u ++ ')' :: r ∧ walk false (q, d) u = some start := by
  induction s generalizing q d u with
  | nil => cases h
  | cons c s ih =>
    cases hnext : stride false (q, d) c with
    | none =>
      obtain ⟨rfl, rfl, rfl⟩ := stride_eq_none hnext
      rw [closing?_zero] at h
      cases h
      exact ⟨rfl, rfl⟩
    | some next =>
      obtain ⟨q', d'⟩ := next
      rw [closing?_cons_of hnext] at h
      obtain ⟨⟨v, t⟩, hv, e⟩ := Option.map_eq_some_iff.mp h
      cases e
      obtain ⟨rfl, hwalk⟩ := ih hv
      exact ⟨rfl, by rw [walk_cons_of hnext]; exact hwalk⟩

/-! ## 3. Parts and their pieces -/

/-- Puts a text before the first piece. -/
def prepend (s : Text) : List Text → List Text
  | [] => [s]
  | p :: ps => (s ++ p) :: ps

theorem extend_eq (c : Char) (ps : List Text) : extend c ps = prepend [c] ps := by
  cases ps <;> rfl

theorem prepend_prepend (s t : Text) (ps : List Text) :
    prepend s (prepend t ps) = prepend (s ++ t) ps := by
  cases ps with
  | nil => rfl
  | cons p ps => exact congrArg (· :: ps) (List.append_assoc s t p).symm

-- In a part no cut is made.
theorem rawPieces_cons_of {q q' : Quoting} {d d' : Nat} {c : Char}
    (h : stride true (q, d) c = some (q', d')) (s : Text) :
    rawPieces ',' true q d (c :: s) = prepend [c] (rawPieces ',' true q' d' s) := by
  have hstep : cutsAt ',' true q d c = false → depth q d c = d' → q.step c = q' →
      rawPieces ',' true q d (c :: s) = prepend [c] (rawPieces ',' true q' d' s) := by
    intro hcut hdepth hq
    rw [rawPieces, hcut, if_neg (by decide), if_pos rfl, hdepth, hq, extend_eq]
  rcases stride_cases h with ⟨mark, escaped, rfl, rfl, rfl⟩ | ⟨rfl, rfl, rfl, rfl⟩ |
    ⟨rfl, hclose, hcomma, rfl, rfl⟩
  · exact hstep rfl rfl rfl
  · refine hstep rfl ?_ rfl
    show ((d' + 1 : Nat) : Int) - 1 = d'
    omega
  · refine hstep ?_ ?_ rfl
    · by_contra hcut
      simp [cutsAt, Quoting.isOutside] at hcut
      simp [hcut] at hcomma
    · by_cases hopen : c = '('
      · simp [depth, Quoting.isOutside, hopen]
      · simp [depth, Quoting.isOutside, hopen, hclose]

theorem rawPieces_append {p' : Place} {s : Text} (h : walk true p s = some p') (t : Text) :
    rawPieces ',' true p.1 p.2 (s ++ t) = prepend s (rawPieces ',' true p'.1 p'.2 t) := by
  induction s generalizing p with
  | nil =>
    rw [Option.some.inj h]
    cases hraw : rawPieces ',' true p'.1 p'.2 t with
    | nil => exact absurd hraw (rawPieces_ne_nil _ _ t)
    | cons piece pieces => exact hraw
  | cons c s ih =>
    rw [walk_cons] at h
    obtain ⟨next, hnext, h⟩ := Option.bind_eq_some_iff.mp h
    rw [List.cons_append, rawPieces_cons_of hnext, ih h, prepend_prepend]
    rfl

-- What ends a part and no group is a comma at the top level, where a scan stands as at the start.
theorem stride_eq_none_of_parts {p' : Place} {c : Char} (hpart : stride true p c = none)
    (hnext : stride false p c = some p') : p = start ∧ c = ',' ∧ p' = start := by
  obtain ⟨q, d⟩ := p
  obtain ⟨q', d'⟩ := p'
  rcases stride_cases hnext with ⟨mark, escaped, rfl, rfl, rfl⟩ | ⟨rfl, rfl, rfl, rfl⟩ |
    ⟨rfl, hclose, -, rfl, rfl⟩
  · cases hpart
  · cases hpart
  · unfold stride at hpart
    dsimp only at hpart
    rw [if_neg hclose] at hpart
    split at hpart
    · rename_i hc
      obtain ⟨rfl, rfl⟩ : c = ',' ∧ d = 0 := by simpa using hc
      exact ⟨rfl, rfl, rfl⟩
    · cases hpart

/-- The pieces of a group's content lead back to where the group starts. -/
theorem walk_of_rawPieces {p : Place} {s : Text} (h : walk false p s = some start) :
    ∃ first rest, rawPieces ',' true p.1 p.2 s = first :: rest ∧ walk true p first = some start ∧
      ∀ piece ∈ rest, Whole piece := by
  induction s generalizing p with
  | nil => exact ⟨[], [], rfl, by rw [Option.some.inj h]; rfl, fun _ hmem => by cases hmem⟩
  | cons c s ih =>
    rw [walk_cons] at h
    obtain ⟨next, hnext, h⟩ := Option.bind_eq_some_iff.mp h
    obtain ⟨first, rest, hraw, hfirst, hrest⟩ := ih h
    cases hpart : stride true p c with
    | some next' =>
      have hsame : next' = next := Option.some.inj ((stride_of_parts hpart).symm.trans hnext)
      subst hsame
      refine ⟨c :: first, rest, ?_, by rw [walk_cons_of hpart]; exact hfirst, hrest⟩
      rw [rawPieces_cons_of hpart, hraw]
      rfl
    | none =>
      obtain ⟨rfl, rfl, rfl⟩ := stride_eq_none_of_parts hpart hnext
      refine ⟨[], first :: rest, ?_, rfl, ?_⟩
      · rw [rawPieces, if_pos rfl]
        exact congrArg ([] :: ·) hraw
      · intro piece hmem
        rcases List.mem_cons.mp hmem with rfl | hmem
        · exact hfirst
        · exact hrest piece hmem

theorem Balanced.whole_of_mem {s piece : Text} (h : Balanced s)
    (hpiece : piece ∈ rawPieces ',' true .outside 0 s) : Whole piece := by
  obtain ⟨first, rest, hraw, hfirst, hrest⟩ := walk_of_rawPieces h
  rw [show rawPieces ',' true .outside 0 s = first :: rest from hraw] at hpiece
  rcases List.mem_cons.mp hpiece with rfl | hmem
  · exact hfirst
  · exact hrest piece hmem

/-! ## 4. Parts without the blanks around them -/

theorem Whole.trimLeft {s : Text} (h : Whole s) : Whole (Text.trimLeft s) := by
  induction s with
  | nil => exact h
  | cons c s ih =>
    cases hc : isBlank c with
    | false => rwa [Text.trimLeft_cons hc]
    | true =>
      rw [Text.trimLeft_cons_blank hc]
      rw [Whole, walk_cons_of (stride_blank hc 0)] at h
      exact ih h

theorem step_of_stride {p' : Place} {c : Char} (h : stride parts p c = some p') :
    p'.1 = p.1.step c := by
  rcases stride_cases h with ⟨mark, escaped, -, hstep, -⟩ | ⟨hq, rfl, -, hq'⟩ | ⟨-, -, -, hstep, -⟩
  · exact hstep
  · rw [hq, hq']
    rfl
  · exact hstep

-- Wherever a scan gets to from outside quotes, the marks are quote marks.
theorem stands_of_walk {p' : Place} {s : Text} (hp : Stands false p.1)
    (h : walk parts p s = some p') : Stands false p'.1 := by
  induction s generalizing p with
  | nil => exact Option.some.inj h ▸ hp
  | cons c s ih =>
    rw [walk_cons] at h
    obtain ⟨next, hnext, h⟩ := Option.bind_eq_some_iff.mp h
    refine ih ?_ h
    rw [step_of_stride hnext]
    exact hp.step

theorem Whole.of_concat_blank {s : Text} {c : Char} (hc : isBlank c = true)
    (h : Whole (s ++ [c])) : Whole s := by
  rw [Whole, walk_append] at h
  obtain ⟨⟨q, d⟩, hs, h⟩ := Option.bind_eq_some_iff.mp h
  have hstands := @stands_of_walk true start (q, d) s trivial hs
  rw [walk_cons] at h
  obtain ⟨next, hnext, h⟩ := Option.bind_eq_some_iff.mp h
  obtain rfl := Option.some.inj h
  cases q with
  | outside =>
    rw [stride_blank hc] at hnext
    rw [Whole, hs]
    exact hnext
  | inside mark escaped =>
    obtain ⟨hmark, -⟩ := hstands
    have hq : (Quoting.inside mark escaped).step c = .outside :=
      congrArg Prod.fst (Option.some.inj hnext)
    cases escaped with
    | true => cases hq
    | false =>
      have hne : c ≠ mark := by
        rintro rfl
        rw [Quoting.not_isQuoteMark_of_isBlank hc] at hmark
        cases hmark
      unfold Quoting.step at hq
      dsimp only at hq
      rw [if_neg hne] at hq
      split at hq <;> cases hq

theorem Whole.trim {s : Text} (h : Whole s) : Whole (Text.trim s) := by
  have key : ∀ t : Text, Whole t → Whole (Text.trimRight t) := by
    intro t
    induction t using List.reverseRecOn with
    | nil => exact id
    | append_singleton t c ih =>
      intro ht
      cases hc : isBlank c with
      | false => rwa [Text.trimRight_concat hc]
      | true =>
        rw [Text.trimRight_concat_blank hc]
        exact ih (ht.of_concat_blank hc)
  exact key _ h.trimLeft

/-! ## 5. Parts put together -/

/-- Parts laid out one to a line. -/
def laid (parts : List Text) : Text := "\n  " ++ Text.join ",\n  " parts ++ "\n"

theorem join_cons_cons (sep first second : Text) (rest : List Text) :
    Text.join sep (first :: second :: rest) = first ++ (sep ++ Text.join sep (second :: rest)) := by
  rw [Text.join, List.intercalate_cons_cons, List.append_assoc]
  rfl

theorem balanced_join {parts : List Text} (h : ∀ part ∈ parts, Whole part) :
    Balanced (Text.join ",\n  " parts) := by
  induction parts with
  | nil => rfl
  | cons first rest ih =>
    have hfirst := (h first List.mem_cons_self).balanced
    cases rest with
    | nil =>
      show Balanced (Text.join ",\n  " [first])
      rw [Text.join, List.intercalate_singleton]
      exact hfirst
    | cons second rest =>
      have hrest := ih fun part hpart => h part (List.mem_cons_of_mem _ hpart)
      have hsep : Balanced ",\n  ".toList := rfl
      rw [join_cons_cons]
      exact hfirst.append (hsep.append hrest)

theorem balanced_laid {parts : List Text} (h : ∀ part ∈ parts, Whole part) :
    Balanced (laid parts) := by
  have hlead : Balanced "\n  ".toList := rfl
  have hlast : Balanced "\n".toList := rfl
  exact (hlead.append (balanced_join h)).append hlast

theorem rawPieces_whole {s : Text} (h : Whole s) : rawPieces ',' true .outside 0 s = [s] := by
  have := @rawPieces_append start start s h []
  rw [List.append_nil] at this
  rw [show rawPieces ',' true .outside 0 s = _ from this]
  show [s ++ []] = [s]
  rw [List.append_nil]

theorem rawPieces_comma {s : Text} (h : Whole s) (t : Text) :
    rawPieces ',' true .outside 0 (s ++ ',' :: t) = s :: rawPieces ',' true .outside 0 t := by
  have hraw := @rawPieces_append start start s h (',' :: t)
  have hcut : rawPieces ',' true .outside 0 (',' :: t) = [] :: rawPieces ',' true .outside 0 t := by
    rw [rawPieces]
    exact if_pos rfl
  rw [show rawPieces ',' true .outside 0 (s ++ ',' :: t) = _ from hraw]
  show prepend s (rawPieces ',' true .outside 0 (',' :: t)) = _
  rw [hcut]
  show (s ++ []) :: _ = _
  rw [List.append_nil]

/-- Laid out, the parts are the pieces between commas again, with blanks around them. -/
theorem trim_rawPieces {parts : List Text} (h : ∀ part ∈ parts, Whole part) (hne : parts ≠ [])
    {lead : Text} (hlead : ∀ c ∈ lead, isBlank c = true) :
    (rawPieces ',' true .outside 0 (lead ++ (Text.join ",\n  " parts ++ "\n".toList))).map Text.trim =
      parts.map Text.trim := by
  have hlast : ∀ c ∈ "\n".toList, isBlank c = true := by
    intro c hc
    rw [List.mem_singleton.mp hc]
    decide
  have hsep : ∀ c ∈ "\n  ".toList, isBlank c = true := by
    intro c hc
    exact List.all_eq_true.mp (show "\n  ".toList.all isBlank = true by decide) c hc
  induction parts generalizing lead with
  | nil => exact absurd rfl hne
  | cons first rest ih =>
    have hfirst := h first List.mem_cons_self
    cases rest with
    | nil =>
      have hwhole := (whole_of_blank hlead).append (hfirst.append (whole_of_blank hlast))
      rw [Text.join, List.intercalate_singleton, rawPieces_whole hwhole]
      show [Text.trim (lead ++ (first ++ "\n".toList))] = [Text.trim first]
      rw [Text.trim_blank_append hlead, Text.trim_append_blank hlast]
    | cons second rest =>
      have hrest := ih (fun part hpart => h part (List.mem_cons_of_mem _ hpart))
        (List.cons_ne_nil _ _) hsep
      have htext : lead ++ (Text.join ",\n  " (first :: second :: rest) ++ "\n".toList) =
          (lead ++ first) ++ ',' :: ("\n  ".toList ++
            (Text.join ",\n  " (second :: rest) ++ "\n".toList)) := by
        rw [join_cons_cons]
        simp
      rw [htext, rawPieces_comma ((whole_of_blank hlead).append hfirst), List.map_cons, hrest,
        Text.trim_blank_append hlead]
      rfl

end SqlDump.Nesting
