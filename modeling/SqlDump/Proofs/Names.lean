import Mathlib.Data.List.DropRight
import SqlDump.Proofs.Characters
import SqlDump.Proofs.Runs
import SqlDump.Syntax.Identifier

/-!
# Names as they are written

The two shapes of a name and the shape of a qualified one, beside the readers. A name is read back
in front of whatever does not go on with it, and quotes put around it do not change what it names.
-/

namespace SqlDump.Identifier

/-! ## 1. Names -/

theorem not_isNameMark_of_isNameChar {c : Char} (h : isNameChar c = true) :
    isNameMark c = false := by
  by_contra hc
  rw [Bool.not_eq_false] at hc
  rcases Bool.or_eq_true_iff.mp hc with hc | hc <;> rw [of_decide_eq_true hc] at h <;>
    exact absurd h (by decide)

/-- A name as written: in quotes, or made of name characters. -/
inductive Name : Text → Prop
  | quoted {mark : Char} {u : Text} : isNameMark mark = true → u ≠ [] → mark ∉ u →
      Name (mark :: u ++ [mark])
  | bare {u : Text} : u ≠ [] → (∀ c ∈ u, isNameChar c = true) → Name u

theorem Name.of_read? {s u r : Text} (h : read? s = some (u, r)) : Name u ∧ s = u ++ r := by
  cases s with
  | nil => cases h
  | cons c s =>
    rw [Identifier.read?] at h
    split at h
    · rename_i hc
      unfold quoted? at h
      split at h
      · rename_i d v m r hname hrest
        cases h
        have hm : m = c := by simpa using Text.not_of_dropWhile hrest
        have hs := List.takeWhile_append_dropWhile (p := (· ≠ c)) (l := s)
        rw [hname, hrest, hm] at hs
        refine ⟨.quoted hc (List.cons_ne_nil d v) ?_, ?_⟩
        · rw [← hname]
          intro hmem
          have := List.mem_takeWhile_imp hmem
          simp at this
        · rw [← hs]
          simp
      · cases h
    · obtain ⟨hne, hall⟩ := Text.mem_run h
      exact ⟨.bare hne hall, Text.append_of_run? h⟩

theorem Name.ne_nil {u : Text} (h : Name u) : u ≠ [] := by
  cases h with
  | quoted => exact List.cons_ne_nil _ _
  | bare hu => exact hu

-- A name takes at least one character off the text.
theorem length_lt_of_read? {s u r : Text} (h : read? s = some (u, r)) : r.length < s.length := by
  obtain ⟨hname, rfl⟩ := Name.of_read? h
  have hpos := List.length_pos_iff.mpr hname.ne_nil
  rw [List.length_append]
  omega

theorem Name.starts {u : Text} (h : Name u) : ∃ c v, u = c :: v ∧ isBlank c = false := by
  cases h with
  | @quoted mark u hmark =>
    refine ⟨mark, u ++ [mark], rfl, ?_⟩
    rcases Bool.or_eq_true_iff.mp hmark with h | h <;> rw [of_decide_eq_true h] <;> decide
  | bare hu hall =>
    obtain ⟨c, v, rfl⟩ := List.exists_cons_of_ne_nil hu
    exact ⟨c, v, rfl, not_isBlank_of_isNameChar (hall c List.mem_cons_self)⟩

theorem Name.ends {u : Text} (h : Name u) : ∃ v c, u = v ++ [c] ∧ isBlank c = false := by
  cases h with
  | @quoted mark u hmark =>
    refine ⟨mark :: u, mark, rfl, ?_⟩
    rcases Bool.or_eq_true_iff.mp hmark with h | h <;> rw [of_decide_eq_true h] <;> decide
  | bare hu hall =>
    obtain ⟨v, c, rfl⟩ := List.eq_nil_or_concat u |>.resolve_left hu
    rw [List.concat_eq_append] at hall ⊢
    exact ⟨v, c, rfl, not_isBlank_of_isNameChar (hall c (by simp))⟩

/-- No name character stands at the front. -/
def NoNameChar (t : Text) : Prop := ∀ c r, t = c :: r → isNameChar c = false

theorem NoNameChar.nil : NoNameChar [] := fun _ _ h => by cases h

theorem NoNameChar.cons {c : Char} (h : isNameChar c = false) (r : Text) : NoNameChar (c :: r) := by
  intro d t hdt
  exact (List.cons.inj hdt).1 ▸ h

theorem span_of_noNameChar {u t : Text} (hall : ∀ c ∈ u, isNameChar c = true)
    (ht : NoNameChar t) : (u ++ t).takeWhile isNameChar = u ∧ (u ++ t).dropWhile isNameChar = t :=
  ⟨Text.takeWhile_append_eq ht hall, Text.dropWhile_append_eq ht hall⟩

theorem Name.read {u t : Text} (h : Name u) (ht : NoNameChar t) :
    Identifier.read? (u ++ t) = some (u, t) := by
  cases h with
  | @quoted mark u hmark hu hfree =>
    have hall : ∀ c ∈ u, decide (c ≠ mark) = true := by
      intro c hc
      rw [decide_eq_true_iff]
      rintro rfl
      exact hfree hc
    have htake : (u ++ mark :: t).takeWhile (· ≠ mark) = u := by
      rw [List.takeWhile_append_of_pos hall, List.takeWhile_cons_of_neg (by simp), List.append_nil]
    have hdrop : (u ++ mark :: t).dropWhile (· ≠ mark) = mark :: t := by
      rw [List.dropWhile_append_of_pos hall, List.dropWhile_cons_of_neg (by simp)]
    obtain ⟨c, v, rfl⟩ := List.exists_cons_of_ne_nil hu
    have htext : mark :: (c :: v) ++ [mark] ++ t = mark :: ((c :: v) ++ mark :: t) := by simp
    rw [htext, Identifier.read?, if_pos hmark, quoted?, htake, hdrop]
  | bare hu hall =>
    obtain ⟨c, v, rfl⟩ := List.exists_cons_of_ne_nil hu
    have hspan := span_of_noNameChar hall ht
    have hc := hall c List.mem_cons_self
    rw [List.cons_append, Identifier.read?, not_isNameMark_of_isNameChar hc]
    show Text.run? isNameChar (c :: v ++ t) = _
    rw [Text.run?, hspan.1, hspan.2]

/-! ## 2. Qualified names -/

/-- A name as written, with or without a schema. -/
inductive Qualified : Text → Prop
  | plain {a : Text} : Name a → Qualified a
  | dotted {a b u v : Text} : Name a → (∀ c ∈ u, isBlank c = true) → (∀ c ∈ v, isBlank c = true) →
      Name b → Qualified (a ++ ((u ++ '.' :: v) ++ b))

/-- What may stand behind a name without going on with it. -/
structure StopsName (t : Text) : Prop where
  noNameChar : NoNameChar t
  noDot : dot? t = none

theorem dot?_of_dropWhile {s r : Text} (h : s.dropWhile isBlank = '.' :: r) :
    dot? s = some (s.takeWhile isBlank ++ '.' :: r.takeWhile isBlank, r.dropWhile isBlank) := by
  rw [dot?, h]
  rfl

theorem dot?_eq_none {s : Text} (h : ∀ r, s.dropWhile isBlank ≠ '.' :: r) : dot? s = none := by
  unfold dot?
  split
  · rename_i r hr
    exact absurd hr (h r)
  · rfl

theorem exists_of_dot? {s d r : Text} (h : dot? s = some (d, r)) :
    ∃ u v, d = u ++ '.' :: v ∧ s = d ++ r ∧ (∀ c ∈ u, isBlank c = true) ∧
      ∀ c ∈ v, isBlank c = true := by
  unfold dot? at h
  split at h
  · rename_i t ht
    cases h
    refine ⟨_, _, rfl, ?_, fun c hc => List.mem_takeWhile_imp hc,
      fun c hc => List.mem_takeWhile_imp hc⟩
    have hs := List.takeWhile_append_dropWhile (p := isBlank) (l := s)
    have hrest := List.takeWhile_append_dropWhile (p := isBlank) (l := t)
    rw [ht] at hs
    rw [List.append_assoc, List.cons_append, hrest]
    exact hs.symm
  · cases h

/-- A dot and the name behind it. -/
def dotted? (s : Text) : Option (Text × Text) :=
  (dot? s).bind fun p => (read? p.2).bind fun q => some (p.1 ++ q.1, q.2)

theorem qualified?_eq (s : Text) : qualified? s = (read? s).bind fun p =>
    match dotted? p.2 with
    | some q => some (p.1 ++ q.1, q.2)
    | none => some p := by
  unfold qualified?
  cases read? s with
  | none => rfl
  | some p =>
    obtain ⟨a, t⟩ := p
    simp only [Option.bind_eq_bind, Option.bind_some, dotted?]
    cases dot? t with
    | none => rfl
    | some d =>
      rw [Option.bind_some, Option.bind_some]
      cases read? d.2 <;> rfl

theorem Qualified.of_read? {s raw r : Text} (h : qualified? s = some (raw, r)) :
    Qualified raw ∧ s = raw ++ r := by
  rw [qualified?_eq] at h
  obtain ⟨⟨a, t⟩, ha, hrest⟩ := Option.bind_eq_some_iff.mp h
  obtain ⟨hname, rfl⟩ := Name.of_read? ha
  split at hrest
  · rename_i q hq
    cases hrest
    obtain ⟨⟨d, t'⟩, hd, hq⟩ := Option.bind_eq_some_iff.mp hq
    obtain ⟨⟨b, t''⟩, hb, hq⟩ := Option.bind_eq_some_iff.mp hq
    cases hq
    obtain ⟨u, v, rfl, rfl, hu, hv⟩ := exists_of_dot? hd
    obtain ⟨hname', rfl⟩ := Name.of_read? hb
    exact ⟨.dotted hname hu hv hname', by simp⟩
  · cases hrest
    exact ⟨.plain hname, rfl⟩

-- What a dot and the blanks around it start with goes on with no name.
theorem noNameChar_of_dot {u : Text} (hu : ∀ c ∈ u, isBlank c = true) (t : Text) :
    NoNameChar (u ++ '.' :: t) := by
  cases u with
  | nil => exact .cons (by decide) _
  | cons c u => exact .cons (not_isNameChar_of_isBlank (hu c List.mem_cons_self)) _

theorem dot?_append {u v t : Text} (hu : ∀ c ∈ u, isBlank c = true) (hv : ∀ c ∈ v, isBlank c = true)
    (ht : ∃ c r, t = c :: r ∧ isBlank c = false) :
    dot? ((u ++ '.' :: v) ++ t) = some (u ++ '.' :: v, t) := by
  obtain ⟨c, r, rfl, hc⟩ := ht
  have hc : ¬ isBlank c = true := by simp [hc]
  have htext : (u ++ '.' :: v) ++ c :: r = u ++ '.' :: (v ++ c :: r) := by simp
  have hdrop : (u ++ '.' :: (v ++ c :: r)).dropWhile isBlank = '.' :: (v ++ c :: r) := by
    rw [List.dropWhile_append_of_pos hu, List.dropWhile_cons_of_neg (by decide)]
  have htake : (u ++ '.' :: (v ++ c :: r)).takeWhile isBlank = u := by
    rw [List.takeWhile_append_of_pos hu, List.takeWhile_cons_of_neg (by decide), List.append_nil]
  rw [htext, dot?_of_dropWhile hdrop, htake, List.takeWhile_append_of_pos hv,
    List.dropWhile_append_of_pos hv, List.takeWhile_cons_of_neg hc, List.dropWhile_cons_of_neg hc,
    List.append_nil]

theorem Name.read_dotted {a b u v t : Text} (ha : Name a) (hu : ∀ c ∈ u, isBlank c = true)
    (hv : ∀ c ∈ v, isBlank c = true) (hb : Name b) (ht : NoNameChar t) :
    qualified? (a ++ ((u ++ '.' :: v) ++ b) ++ t) = some (a ++ ((u ++ '.' :: v) ++ b), t) := by
  have hnext : NoNameChar ((u ++ '.' :: v) ++ (b ++ t)) := by
    rw [List.append_assoc]
    exact noNameChar_of_dot hu _
  have hstarts : ∃ c r, b ++ t = c :: r ∧ isBlank c = false := by
    obtain ⟨c, r, rfl, hc⟩ := hb.starts
    exact ⟨c, r ++ t, rfl, hc⟩
  rw [qualified?_eq, List.append_assoc, List.append_assoc, ha.read hnext, Option.bind_some, dotted?,
    dot?_append hu hv hstarts, Option.bind_some, hb.read ht]
  rfl

theorem Name.read_plain {a t : Text} (ha : Name a) (ht : NoNameChar t) (hdot : dotted? t = none) :
    qualified? (a ++ t) = some (a, t) := by
  rw [qualified?_eq, ha.read ht, Option.bind_some, hdot]

theorem Qualified.read {raw t : Text} (h : Qualified raw) (ht : StopsName t) :
    qualified? (raw ++ t) = some (raw, t) := by
  cases h with
  | plain ha => exact ha.read_plain ht.noNameChar (by rw [dotted?, ht.noDot]; rfl)
  | dotted ha hu hv hb => exact ha.read_dotted hu hv hb ht.noNameChar

/-! ## 3. Quotes put around a name -/

theorem scan_name {u : Text} (h : Name u) : scan u.length u = [u] := by
  have hread := h.read .nil
  rw [List.append_nil] at hread
  obtain ⟨c, v, rfl, -⟩ := h.starts
  rw [List.length_cons, scan, hread]
  cases v.length <;> rfl

/-- No quote mark stands at either end of the text. -/
structure Unmarked (u : Text) : Prop where
  left : u.dropWhile isNameMark = u
  right : u.reverse.dropWhile isNameMark = u.reverse

theorem Unmarked.of_forall {u : Text} (h : ∀ c ∈ u, isNameMark c = false) : Unmarked u := by
  have hleft : ∀ v : Text, (∀ c ∈ v, isNameMark c = false) → v.dropWhile isNameMark = v := by
    intro v hv
    cases v with
    | nil => rfl
    | cons c v => exact List.dropWhile_cons_of_neg (by simp [hv c List.mem_cons_self])
  exact ⟨hleft u h, hleft u.reverse fun c hc => h c (List.mem_reverse.mp hc)⟩

-- What is read as a name is freed of the marks at its ends.
theorem unmarked_bare {raw : Text} (h : (read? raw).isSome = true) : Unmarked (bare raw) := by
  obtain ⟨⟨u, r⟩, hread⟩ := Option.isSome_iff_exists.mp h
  have hlast : (scan raw.length raw).getLast? ≠ none := by
    cases raw with
    | nil => cases hread
    | cons c s =>
      rw [List.length_cons, scan, hread]
      simp
  unfold bare
  split
  · rename_i hnone
    exact absurd hnone hlast
  · rename_i v _
    refine ⟨?_, ?_⟩
    · show ((v.dropWhile isNameMark).rdropWhile isNameMark).dropWhile isNameMark =
        (v.dropWhile isNameMark).rdropWhile isNameMark
      obtain ⟨x, hx⟩ := List.rdropWhile_prefix isNameMark (v.dropWhile isNameMark)
      cases hw : (v.dropWhile isNameMark).rdropWhile isNameMark with
      | nil => rfl
      | cons c w =>
        have hhead := List.head?_dropWhile_not (p := isNameMark) (l := v)
        rw [← hx, hw] at hhead
        exact List.dropWhile_cons_of_neg (by simpa using hhead)
    · rw [List.reverse_reverse]
      exact List.dropWhile_idempotent isNameMark _

-- The quotes around a name are taken off it.
theorem Unmarked.bare_quoted {mark : Char} (hmark : isNameMark mark = true) {u : Text} (hu : u ≠ [])
    (hfree : mark ∉ u) (unmarked : Unmarked u) : bare (mark :: u ++ [mark]) = u := by
  have happend : ∀ {v : Text}, v ≠ [] → v.dropWhile isNameMark = v →
      ∀ t, (v ++ t).dropWhile isNameMark = v ++ t := by
    intro v hv hleft t
    obtain ⟨c, w, rfl⟩ := List.exists_cons_of_ne_nil hv
    have hc : ¬ isNameMark c = true := by
      intro hc
      rw [List.dropWhile_cons_of_pos hc] at hleft
      have := (List.dropWhile_sublist (l := w) isNameMark).length_le
      rw [hleft, List.length_cons] at this
      omega
    exact List.dropWhile_cons_of_neg hc
  unfold bare
  rw [scan_name (.quoted hmark hu hfree)]
  show ((((mark :: (u ++ [mark])).dropWhile isNameMark).reverse).dropWhile isNameMark).reverse = u
  rw [List.dropWhile_cons_of_pos hmark, happend hu unmarked.left, List.reverse_append]
  show ((mark :: u.reverse).dropWhile isNameMark).reverse = u
  rw [List.dropWhile_cons_of_pos hmark, unmarked.right, List.reverse_reverse]

theorem bare_quoted {mark : Char} (hmark : isNameMark mark = true) {u : Text} (hu : u ≠ [])
    (h : ∀ c ∈ u, isNameMark c = false) : bare (mark :: u ++ [mark]) = u := by
  refine Unmarked.bare_quoted hmark hu ?_ (.of_forall h)
  intro hmem
  rw [h _ hmem] at hmark
  cases hmark

theorem bare_eq_self {u : Text} (hu : u ≠ []) (h : ∀ c ∈ u, isNameChar c = true) : bare u = u := by
  obtain ⟨hleft, hright⟩ := Unmarked.of_forall fun c hc => not_isNameMark_of_isNameChar (h c hc)
  unfold bare
  rw [scan_name (.bare hu h)]
  show (((u.dropWhile isNameMark).reverse).dropWhile isNameMark).reverse = u
  rw [hleft, hright, List.reverse_reverse]

-- Backquotes around a name of name characters are taken off it.
theorem bare_backquoted {u : Text} (hu : u ≠ []) (h : ∀ c ∈ u, isNameChar c = true) :
    bare ('\x60' :: u ++ ['\x60']) = bare u := by
  rw [bare_quoted (by decide) hu fun c hc => not_isNameMark_of_isNameChar (h c hc), bare_eq_self hu h]

theorem Qualified.starts {raw : Text} (h : Qualified raw) :
    ∃ c v, raw = c :: v ∧ isBlank c = false := by
  cases h with
  | plain ha => exact ha.starts
  | dotted ha =>
    obtain ⟨c, v, rfl, hc⟩ := ha.starts
    exact ⟨c, _, rfl, hc⟩

theorem Qualified.ends {raw : Text} (h : Qualified raw) :
    ∃ v c, raw = v ++ [c] ∧ isBlank c = false := by
  cases h with
  | plain ha => exact ha.ends
  | @dotted a b u v _ _ _ hb =>
    obtain ⟨w, c, rfl, hc⟩ := hb.ends
    exact ⟨a ++ ((u ++ '.' :: v) ++ w), c, by simp, hc⟩

theorem Qualified.trim {raw : Text} (h : Qualified raw) : Text.trim raw = raw := by
  obtain ⟨c, v, hraw, hc⟩ := h.starts
  have hleft : Text.trimLeft raw = raw := by
    rw [hraw, Text.trimLeft, List.dropWhile_cons_of_neg (by simp [hc])]
  obtain ⟨w, d, hraw', hd⟩ := h.ends
  rw [Text.trim, hleft, hraw', Text.trimRight, List.reverse_append, List.reverse_singleton,
    List.singleton_append, List.dropWhile_cons_of_neg (by simp [hd]), List.reverse_cons,
    List.reverse_reverse]

theorem quote_cons (c : Char) (s : Text) (h : Text.trim (c :: s) = c :: s) :
    quote (c :: s) = if isNameMark c || (c :: s).any (· = '.') then c :: s
      else '\x60' :: (c :: s) ++ ['\x60'] := by
  rw [quote, h]
  rfl

-- A name without a schema is quoted in any case.
theorem Name.quote {u : Text} (h : Name u) : Name (Identifier.quote u) ∧
    (∃ c v, Identifier.quote u = c :: v ∧ isNameMark c = true) ∧
      Identifier.bare (Identifier.quote u) = Identifier.bare u := by
  have htrim := (Qualified.plain h).trim
  obtain ⟨c, s, hcons, -⟩ := h.starts
  rw [hcons] at htrim ⊢
  rw [quote_cons c s htrim, ← hcons]
  cases h with
  | @quoted mark v hmark hv hfree =>
    rw [(List.cons.inj hcons).1.symm, hmark, Bool.true_or, if_pos rfl]
    exact ⟨.quoted hmark hv hfree, ⟨mark, v ++ [mark], rfl, hmark⟩, rfl⟩
  | bare hne hall =>
    have hc : isNameMark c = false :=
      not_isNameMark_of_isNameChar (hall c (hcons ▸ List.mem_cons_self))
    have hdot : (u.any (· = '.')) = false := by
      rw [List.any_eq_false]
      intro d hd
      have hne : d ≠ '.' := by
        rintro rfl
        exact absurd (hall _ hd) (by decide)
      simpa using hne
    have hfree : '\x60' ∉ u := by
      intro hmem
      exact absurd (hall _ hmem) (by decide)
    rw [hc, hdot, Bool.false_or, if_neg (by decide)]
    exact ⟨.quoted (by decide) hne hfree, ⟨'\x60', u ++ ['\x60'], rfl, by decide⟩,
      bare_backquoted hne hall⟩

-- A name with a schema is not quoted.
theorem Name.quote_dotted {a b u v : Text} (ha : Name a) (hu : ∀ c ∈ u, isBlank c = true)
    (hv : ∀ c ∈ v, isBlank c = true) (hb : Name b) :
    Identifier.quote (a ++ ((u ++ '.' :: v) ++ b)) = a ++ ((u ++ '.' :: v) ++ b) := by
  have hraw := Qualified.dotted ha hu hv hb
  obtain ⟨c, s, hcons, -⟩ := hraw.starts
  have hdot : ((a ++ ((u ++ '.' :: v) ++ b)).any (· = '.')) = true := by simp
  have htrim := hraw.trim
  rw [hcons] at htrim hdot ⊢
  rw [quote_cons c s htrim, hdot, Bool.or_true, if_pos rfl]

/-- A name between quotes is written as a name, and names the same. -/
theorem Qualified.quote {raw : Text} (h : Qualified raw) :
    Qualified (Identifier.quote raw) ∧ bare (Identifier.quote raw) = bare raw := by
  cases h with
  | plain ha => exact ⟨.plain ha.quote.1, ha.quote.2.2⟩
  | dotted ha hu hv hb =>
    rw [ha.quote_dotted hu hv hb]
    exact ⟨.dotted ha hu hv hb, rfl⟩

end SqlDump.Identifier
