import SqlDump.Proofs.BlankReaders

/-!
# Every reading of a name

A name without quotes can be read to its end or be cut short. What is read first goes as far as the
name does; any other reading stops within the schema or in front of its dot, or within the last
identifier, which is what the name says.
-/

namespace SqlDump

open Text (collapse)

/-! ## 1. Identifiers -/

namespace Identifier

theorem Name.of_mem_readings {s u r : Text} (h : (u, r) ∈ readings s) : Name u ∧ s = u ++ r := by
  cases s with
  | nil => cases h
  | cons c s =>
    rw [readings] at h
    split at h
    · rename_i hmark
      refine Name.of_read? ?_
      rw [read?, if_pos hmark]
      exact Option.mem_toList.mp h
    · obtain ⟨hne, hall, hs⟩ := Text.mem_runs h
      exact ⟨.bare hne hall, hs⟩

/-- A name is read as far as it goes first, and then cut short if it has no quotes. -/
theorem readings_eq_cons {s u r : Text} (h : read? s = some (u, r)) :
    ∃ shorter, readings s = (u, r) :: shorter ∧ ∀ q ∈ shorter, (∀ c ∈ u, isNameChar c = true) ∧
      NoNameChar r ∧ ∃ v, v ≠ [] ∧ u = q.1 ++ v ∧ q.2 = v ++ r := by
  cases s with
  | nil => cases h
  | cons c s =>
    rw [read?] at h
    rw [readings]
    by_cases hc : isNameMark c = true
    · rw [if_pos hc] at h ⊢
      rw [h]
      exact ⟨[], rfl, fun q hq => (List.not_mem_nil hq).elim⟩
    · rw [if_neg hc] at h ⊢
      obtain ⟨shorter, hruns, hshorter⟩ := Text.runs_eq_cons h
      obtain ⟨-, -, hall, hstop⟩ := Text.run?_eq_some_iff.mp h
      exact ⟨shorter, hruns, fun q hq => ⟨hall, fun d t e => hstop d (by rw [e]; rfl), hshorter q hq⟩⟩

theorem readings_eq_nil {s : Text} (h : read? s = none) : readings s = [] := by
  cases s with
  | nil => rfl
  | cons c s =>
    rw [read?] at h
    rw [readings]
    by_cases hc : isNameMark c = true
    · rw [if_pos hc] at h ⊢
      rw [h]
      rfl
    · rw [if_neg hc] at h ⊢
      exact Text.runs_eq_nil h

/-! ## 2. The name behind a schema -/

/-- What may stand before the last identifier of a name: nothing, or a schema and a dot. -/
inductive Schema : Text → Prop
  | none : Schema []
  | dotted {a u v : Text} : Name a → (∀ c ∈ u, isBlank c = true) → (∀ c ∈ v, isBlank c = true) →
      Schema (a ++ (u ++ '.' :: v))

theorem scan_skip {u : Text} (hu : ∀ c ∈ u, isBlank c = true ∨ c = '.') (n : Nat) (s : Text) :
    scan (u.length + n) (u ++ s) = scan n s := by
  induction u with
  | nil => rw [List.length_nil, Nat.zero_add, List.nil_append]
  | cons c u ih =>
    have hnone : read? (c :: (u ++ s)) = none := by
      rcases hu c List.mem_cons_self with hc | rfl
      · exact read?_of_isBlank hc _
      · rfl
    rw [List.length_cons, Nat.add_right_comm, List.cons_append, scan, hnone]
    exact ih fun d hd => hu d (List.mem_cons_of_mem _ hd)

theorem scan_name_append {a t : Text} (ha : Name a) (ht : NoNameChar t) (n : Nat) :
    scan (n + 1) (a ++ t) = a :: scan n t := by
  have hread := ha.read ht
  obtain ⟨c, a, rfl, -⟩ := ha.starts
  rw [List.cons_append] at hread ⊢
  rw [scan, hread]

-- A schema in front of a name does not count.
theorem Schema.bare {front b : Text} (h : Schema front) (hb : Name b) :
    bare (front ++ b) = bare b := by
  cases h with
  | none => rfl
  | @dotted a u v ha hu hv =>
    have hskip : ∀ c ∈ u ++ '.' :: v, isBlank c = true ∨ c = '.' := by
      intro c hc
      rcases List.mem_append.mp hc with hc | hc
      · exact Or.inl (hu c hc)
      · rcases List.mem_cons.mp hc with hc | hc
        · exact Or.inr hc
        · exact Or.inl (hv c hc)
    have hstop : NoNameChar (u ++ '.' :: v ++ b) := by
      rw [List.append_assoc]
      exact noNameChar_of_dot hu _
    -- one step reads the schema, one for each character passes the dot, and one reads the name
    obtain ⟨n, hn⟩ : ∃ n,
        (a ++ (u ++ '.' :: v) ++ b).length = (u ++ '.' :: v).length + (n + 1) + 1 := by
      have hpos := List.length_pos_iff.mpr ha.ne_nil
      have hpos' := List.length_pos_iff.mpr hb.ne_nil
      refine ⟨a.length + b.length - 2, ?_⟩
      rw [List.length_append, List.length_append]
      omega
    have hscan : scan (a ++ (u ++ '.' :: v) ++ b).length (a ++ (u ++ '.' :: v) ++ b) = [a, b] := by
      have hlast := scan_name_append hb .nil n
      rw [List.append_nil] at hlast
      rw [hn, List.append_assoc, scan_name_append ha hstop, scan_skip hskip, hlast]
      cases n <;> rfl
    unfold Identifier.bare
    rw [hscan, scan_name hb]
    rfl

/-! ## 3. Qualified names -/

theorem Qualified.of_mem_readings {s raw r : Text} (h : (raw, r) ∈ qualifiedReadings s) :
    Qualified raw ∧ s = raw ++ r := by
  obtain ⟨⟨a, t⟩, ha, hread⟩ := List.mem_flatMap.mp h
  obtain ⟨hname, hs⟩ := Name.of_mem_readings ha
  rw [hs]
  rcases List.mem_append.mp hread with hread | hread
  · split at hread
    · rename_i d r' hdot
      obtain ⟨⟨b, r''⟩, hb, heq⟩ := List.mem_map.mp hread
      cases heq
      obtain ⟨u, v, rfl, rfl, hu, hv⟩ := exists_of_dot? hdot
      obtain ⟨hname', rfl⟩ := Name.of_mem_readings hb
      rw [List.append_assoc]
      exact ⟨.dotted hname hu hv hname', by simp⟩
    · cases hread
  · cases List.mem_singleton.mp hread
    exact ⟨.plain hname, rfl⟩

-- A qualified name keeps its shape when its runs of blanks are made one space.
theorem Qualified.collapse {raw : Text} (h : Qualified raw) : Qualified (collapse raw) := by
  have hread := h.read ⟨.nil, rfl⟩
  rw [List.append_nil] at hread
  have hcollapsed := qualified?_collapse raw
  rw [hread] at hcollapsed
  exact (Qualified.of_read? hcollapsed).1

/-- Every reading of a dot and the name behind it. -/
def dottedReadings (s : Text) : List (Text × Text) :=
  match dot? s with
  | some (d, r) => (readings r).map fun q => (d ++ q.1, q.2)
  | none => []

theorem qualifiedReadings_eq (s : Text) : qualifiedReadings s = (readings s).flatMap fun p =>
    (dottedReadings p.2).map (fun q => (p.1 ++ q.1, q.2)) ++ [p] := by
  unfold qualifiedReadings
  refine congrArg (fun f => (readings s).flatMap f) (funext fun p => ?_)
  obtain ⟨a, t⟩ := p
  unfold dottedReadings
  dsimp only
  cases dot? t with
  | none => rfl
  | some found => simp [Function.comp_def]

theorem dottedReadings_eq_nil {s : Text} (h : dotted? s = none) : dottedReadings s = [] := by
  unfold dottedReadings
  unfold dotted? at h
  cases hdot : dot? s with
  | none => rfl
  | some found =>
    rw [hdot, Option.bind_some] at h
    cases hread : read? found.2 with
    | none =>
      dsimp only
      rw [readings_eq_nil hread]
      rfl
    | some b =>
      rw [hread] at h
      cases h

-- Within an identifier there is no dot to go on with.
theorem dottedReadings_nameChars {v r : Text} (hv : v ≠ []) (hall : ∀ c ∈ v, isNameChar c = true) :
    dottedReadings (v ++ r) = [] := by
  obtain ⟨c, v, rfl⟩ := List.exists_cons_of_ne_nil hv
  have hc : isNameChar c = true := hall c List.mem_cons_self
  refine dottedReadings_eq_nil ?_
  rw [dotted?, dot?_eq_none]
  · rfl
  · intro u hu
    rw [List.cons_append, List.dropWhile_cons_of_neg (by simp [not_isBlank_of_isNameChar hc])] at hu
    obtain rfl := (List.cons.inj hu).1
    cases hc

theorem qualifiedReadings_eq_nil {s : Text} (h : qualified? s = none) : qualifiedReadings s = [] := by
  rw [qualified?_eq] at h
  have hread : read? s = none := by
    by_contra hread
    obtain ⟨p, hp⟩ := Option.ne_none_iff_exists'.mp hread
    rw [hp, Option.bind_some] at h
    split at h
    · cases h
    · cases h
  rw [qualifiedReadings_eq, readings_eq_nil hread]
  rfl

/-- The readings that cut a name short: in front of the dot or within the schema, or within the last
identifier. `raw` is the whole name, and `r` follows it. -/
inductive CutShort (raw r : Text) : Text × Text → Prop
  | schema {a v t u : Text} : (∀ c ∈ v, isNameChar c = true) → t.dropWhile isBlank = '.' :: u →
      CutShort raw r (a, v ++ t)
  | name {front b v : Text} : Schema front → b ≠ [] → v ≠ [] → (∀ c ∈ b ++ v, isNameChar c = true) →
      NoNameChar r → raw = front ++ (b ++ v) → CutShort raw r (front ++ b, v ++ r)

theorem dottedReadings_eq_cons {a s : Text} (ha : Name a) {p : Text × Text}
    (h : dotted? s = some p) : ∃ shorter, dottedReadings s = p :: shorter ∧
      (∃ u, s.dropWhile isBlank = '.' :: u) ∧
      ∀ q ∈ shorter, CutShort (a ++ p.1) p.2 (a ++ q.1, q.2) := by
  obtain ⟨⟨d, t⟩, hdot, h⟩ := Option.bind_eq_some_iff.mp h
  obtain ⟨⟨b, r⟩, hread, h⟩ := Option.bind_eq_some_iff.mp h
  cases h
  obtain ⟨shorter, hreadings, hshorter⟩ := readings_eq_cons hread
  obtain ⟨u, v, rfl, rfl, hu, hv⟩ := exists_of_dot? hdot
  refine ⟨shorter.map fun q => (u ++ '.' :: v ++ q.1, q.2), ?_, ?_, fun q hq => ?_⟩
  · unfold dottedReadings
    rw [hdot]
    dsimp only
    rw [hreadings]
    rfl
  · refine ⟨v ++ t, ?_⟩
    rw [List.append_assoc, List.dropWhile_append_of_pos hu]
    exact List.dropWhile_cons_of_neg (by decide)
  · obtain ⟨q', hq', rfl⟩ := List.mem_map.mp hq
    obtain ⟨hall, hstop, x, hx, rfl, hrest⟩ := hshorter q' hq'
    have hne : q'.1 ≠ [] := (Name.of_mem_readings (hreadings ▸ List.mem_cons_of_mem _ hq')).1.ne_nil
    have hcut := @CutShort.name (a ++ (u ++ '.' :: v ++ (q'.1 ++ x))) r (a ++ (u ++ '.' :: v)) q'.1 x
      (.dotted ha hu hv) hne hx hall hstop (by simp)
    have hfront : a ++ (u ++ '.' :: v) ++ q'.1 = a ++ (u ++ '.' :: v ++ q'.1) :=
      List.append_assoc ..
    rw [hfront] at hcut
    dsimp only
    rw [hrest]
    exact hcut

/-- A name is read as far as it goes first, and then cut short. -/
theorem qualifiedReadings_eq_cons {s raw r : Text} (h : qualified? s = some (raw, r)) :
    ∃ shorter, qualifiedReadings s = (raw, r) :: shorter ∧ ∀ q ∈ shorter, CutShort raw r q := by
  rw [qualified?_eq] at h
  obtain ⟨⟨a, t⟩, ha, hrest⟩ := Option.bind_eq_some_iff.mp h
  obtain ⟨hname, hs⟩ := Name.of_read? ha
  obtain ⟨more, hmore, hcut⟩ := readings_eq_cons ha
  have hplain : ∀ q ∈ more, dottedReadings q.2 = [] := by
    intro q hq
    obtain ⟨hall, -, v, hv, hcut, hq⟩ := hcut q hq
    rw [hq]
    exact dottedReadings_nameChars hv fun c hc => hall c (hcut ▸ List.mem_append_right _ hc)
  have hmoreReadings : (more.flatMap fun p =>
      (dottedReadings p.2).map (fun q => (p.1 ++ q.1, q.2)) ++ [p]) = more := by
    have hsame : ∀ p ∈ more, (dottedReadings p.2).map (fun q => (p.1 ++ q.1, q.2)) ++ [p] = [p] := by
      intro p hp
      rw [hplain p hp]
      rfl
    rw [List.flatMap_congr hsame]
    exact List.flatMap_singleton' more
  rw [qualifiedReadings_eq, hmore, List.flatMap_cons, hmoreReadings]
  dsimp only at hrest ⊢
  cases hdotted : dotted? t with
  | none =>
    rw [hdotted] at hrest
    cases hrest
    rw [dottedReadings_eq_nil hdotted]
    refine ⟨more, rfl, fun q hq => ?_⟩
    obtain ⟨hall, hstop, v, hv, rfl, hr⟩ := hcut q hq
    have hne : q.1 ≠ [] := (Name.of_mem_readings (hmore ▸ List.mem_cons_of_mem _ hq)).1.ne_nil
    have hname := @CutShort.name (q.1 ++ v) r [] q.1 v .none hne hv hall hstop rfl
    rw [← hr] at hname
    exact hname
  | some p =>
    rw [hdotted] at hrest
    cases hrest
    obtain ⟨shorter, hreadings, ⟨u, hu⟩, hshorter⟩ := dottedReadings_eq_cons hname hdotted
    rw [hreadings]
    refine ⟨shorter.map (fun q => (a ++ q.1, q.2)) ++ [(a, t)] ++ more, rfl, fun q hq => ?_⟩
    rcases List.mem_append.mp hq with hq | hq
    · rcases List.mem_append.mp hq with hq | hq
      · obtain ⟨q', hq', rfl⟩ := List.mem_map.mp hq
        exact hshorter q' hq'
      · rw [List.mem_singleton.mp hq]
        exact .schema (v := []) (fun _ hc => (List.not_mem_nil hc).elim) hu
    · obtain ⟨hall, -, v, -, rfl, hr⟩ := hcut q hq
      have hschema := @CutShort.schema (q.1 ++ v ++ p.1) p.2 q.1 v t u
        (fun c hc => hall c (List.mem_append_right _ hc)) hu
      rw [← hr] at hschema
      exact hschema

end Identifier

end SqlDump
