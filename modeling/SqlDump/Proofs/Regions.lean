import SqlDump.Proofs.Segments

/-!
# Regions of a text

The directives of a text stand on lines of their own, so their places in it are known from the
lengths of the lines before them. A region goes from the directive that opens it up to the next
one. The regions of a text follow one another and stay inside it. Directives that declare the
semicolon outside regions do not count.
-/

namespace SqlDump

open Segment (turn?)

/-! ## 1. Lines put together -/

namespace Text

/-- The lines, each with its line feed behind it. -/
def ended (lines : List Text) : Text := lines.flatMap (· ++ ['\n'])

/-- The lines, each with its line feed before it. -/
def begun (lines : List Text) : Text := lines.flatMap ('\n' :: ·)

theorem join_cons_begun (line : Text) (lines : List Text) :
    join "\n" (line :: lines) = line ++ begun lines := by
  induction lines generalizing line with
  | nil => simp [join, begun]
  | cons next lines ih =>
    rw [join, List.intercalate_cons_cons, ← join, ih]
    simp [begun]

theorem begun_cons (line : Text) (lines : List Text) :
    begun (line :: lines) = '\n' :: join "\n" (line :: lines) := by
  rw [join_cons_begun]
  rfl

theorem ended_eq {lines : List Text} (h : lines ≠ []) :
    ended lines = join "\n" lines ++ ['\n'] := by
  induction lines with
  | nil => exact absurd rfl h
  | cons line lines ih =>
    cases lines with
    | nil => simp [join, ended]
    | cons next lines =>
      have hnext := ih (List.cons_ne_nil _ _)
      rw [join, List.intercalate_cons_cons, ← join, List.append_assoc, ← hnext]
      simp [ended]

theorem join_append_cons (front : List Text) (line : Text) (rest : List Text) :
    join "\n" (front ++ line :: rest) = ended front ++ (line ++ begun rest) := by
  induction front with
  | nil => exact join_cons_begun line rest
  | cons first front ih =>
    cases hfront : front ++ line :: rest with
    | nil => simp at hfront
    | cons next lines =>
      rw [List.cons_append, hfront, join, List.intercalate_cons_cons, ← join, ← hfront, ih]
      simp [ended]

theorem feeds_ne_nil (s : Text) : feeds s ≠ [] := by
  cases s with
  | nil => exact List.cons_ne_nil _ _
  | cons c s =>
    rw [feeds]
    split
    · exact List.cons_ne_nil _ _
    · split <;> exact List.cons_ne_nil _ _

theorem join_feeds (s : Text) : join "\n" (feeds s) = s := by
  induction s with
  | nil => rfl
  | cons c s ih =>
    rw [feeds]
    cases hs : feeds s with
    | nil => exact absurd hs (feeds_ne_nil s)
    | cons line lines =>
      rw [hs, join_cons_begun] at ih
      split
      · rename_i hc
        rw [join_cons_begun, begun_cons, join_cons_begun, ih, hc]
        rfl
      · rw [join_cons_begun, List.cons_append, ih]

end Text

/-! ## 2. Directives -/

/-- A line that declares a delimiter, from `start` up to `stop` in the text. -/
structure Directive where
  start : Nat
  stop : Nat
  token : Text
  deriving DecidableEq

namespace Directive

/-- The directives among lines, the first of which starts at `n`. -/
def ofLines : Nat → List Text → List Directive
  | _, [] => []
  | n, line :: lines =>
    match Delimiter.declared? line with
    | some token => ⟨n, n + line.length, token⟩ :: ofLines (n + line.length + 1) lines
    | none => ofLines (n + line.length + 1) lines

theorem ended_length (line : Text) (lines : List Text) :
    (Text.ended (line :: lines)).length = line.length + 1 + (Text.ended lines).length := by
  rw [Text.ended, List.flatMap_cons, List.length_append, List.length_append]
  rfl

theorem ofLines_append (n : Nat) (front rest : List Text) : ofLines n (front ++ rest) =
    ofLines n front ++ ofLines (n + (Text.ended front).length) rest := by
  induction front generalizing n with
  | nil => rfl
  | cons line front ih =>
    rw [ended_length, ← Nat.add_assoc, ← Nat.add_assoc, List.cons_append, ofLines, ofLines, ih]
    cases Delimiter.declared? line <;> rfl

theorem length_pos_of_declared? {line token : Text} (h : Delimiter.declared? line = some token) :
    0 < line.length := by
  cases line with
  | nil => cases h
  | cons c line => exact Nat.succ_pos _

-- A directive lies among the lines, and the next one starts behind it.
theorem ofLines_cons_cases (n : Nat) (line : Text) (lines : List Text) :
    ofLines n (line :: lines) = ofLines (n + line.length + 1) lines ∨
      ∃ token, 0 < line.length ∧ ofLines n (line :: lines) =
        ⟨n, n + line.length, token⟩ :: ofLines (n + line.length + 1) lines := by
  rw [ofLines]
  cases h : Delimiter.declared? line with
  | none => exact Or.inl rfl
  | some token => exact Or.inr ⟨token, length_pos_of_declared? h, rfl⟩

theorem mem_ofLines {n : Nat} {lines : List Text} {d : Directive} (h : d ∈ ofLines n lines) :
    n ≤ d.start ∧ d.start < d.stop ∧ d.stop < n + (Text.ended lines).length := by
  induction lines generalizing n with
  | nil => cases h
  | cons line lines ih =>
    rw [ended_length]
    rcases ofLines_cons_cases n line lines with hlines | ⟨token, hpos, hlines⟩ <;> rw [hlines] at h
    · have := ih h
      omega
    · rcases List.mem_cons.mp h with rfl | h
      · dsimp only
        omega
      · have := ih h
        omega

theorem pairwise_ofLines (n : Nat) (lines : List Text) :
    (ofLines n lines).Pairwise (·.stop < ·.start) := by
  induction lines generalizing n with
  | nil => exact List.Pairwise.nil
  | cons line lines ih =>
    rcases ofLines_cons_cases n line lines with hlines | ⟨token, hpos, hlines⟩ <;> rw [hlines]
    · exact ih _
    · refine List.pairwise_cons.mpr ⟨fun d hd => ?_, ih _⟩
      have := mem_ofLines hd
      dsimp only
      omega

end Directive

/-! ## 3. Regions -/

/-- A stretch of a text that has a delimiter of its own, with the directives at its ends. -/
structure Region where
  start : Nat
  stop : Nat
  delimiter : Text
  deriving DecidableEq

namespace Region

/-- Where a region ends that is open before the directives: at the first of them, which belongs to
the region if it declares the semicolon, or with the text. -/
def stopAt (size : Nat) : List Directive → Nat
  | [] => size
  | d :: _ => if d.token = [';'] then d.stop else d.start

/-- The regions that the directives of a text open. -/
def ofDirectives (size : Nat) : List Directive → List Region
  | [] => []
  | d :: ds =>
    if d.token = [';'] then ofDirectives size ds
    else ⟨d.start, stopAt size ds, d.token⟩ :: ofDirectives size ds

/-- The regions of a text, in order. -/
def ofText (text : Text) : List Region :=
  ofDirectives text.length (Directive.ofLines 0 (Text.feeds text))

variable {size : Nat} {ds : List Directive}

theorem exists_of_mem {r : Region} (h : r ∈ ofDirectives size ds) :
    ∃ d ∈ ds, r.start = d.start := by
  induction ds with
  | nil => cases h
  | cons d ds ih =>
    have hds : r ∈ ofDirectives size ds → ∃ d' ∈ d :: ds, r.start = d'.start := fun h =>
      let ⟨d', hd', e⟩ := ih h
      ⟨d', List.mem_cons_of_mem _ hd', e⟩
    rw [ofDirectives] at h
    split at h
    · exact hds h
    · rcases List.mem_cons.mp h with rfl | h
      · exact ⟨d, List.mem_cons_self, rfl⟩
      · exact hds h

-- An open region ends before the next one starts.
theorem stopAt_le {r : Region} (ordered : ds.Pairwise (·.stop < ·.start))
    (proper : ∀ d ∈ ds, d.start < d.stop) (h : r ∈ ofDirectives size ds) :
    stopAt size ds ≤ r.start := by
  cases ds with
  | nil => cases h
  | cons d ds =>
    have hlater := (List.pairwise_cons.mp ordered).1
    have hd := proper d List.mem_cons_self
    rw [ofDirectives] at h
    rw [stopAt]
    split at h
    · obtain ⟨d', hd', e⟩ := exists_of_mem h
      have := hlater d' hd'
      rename_i hclosing
      rw [if_pos hclosing]
      omega
    · rename_i hopening
      rw [if_neg hopening]
      rcases List.mem_cons.mp h with rfl | h
      · exact Nat.le_refl _
      · obtain ⟨d', hd', e⟩ := exists_of_mem h
        have := hlater d' hd'
        omega

theorem pairwise_ofDirectives (ordered : ds.Pairwise (·.stop < ·.start))
    (proper : ∀ d ∈ ds, d.start < d.stop) :
    (ofDirectives size ds).Pairwise (·.stop ≤ ·.start) := by
  induction ds with
  | nil => exact List.Pairwise.nil
  | cons d ds ih =>
    have hrest := (List.pairwise_cons.mp ordered).2
    have hproper := fun d hd => proper d (List.mem_cons_of_mem _ hd)
    rw [ofDirectives]
    split
    · exact ih hrest hproper
    · exact List.pairwise_cons.mpr ⟨fun r hr => stopAt_le hrest hproper hr, ih hrest hproper⟩

theorem bounds_of_mem {r : Region} (ordered : ds.Pairwise (·.stop < ·.start))
    (proper : ∀ d ∈ ds, d.start < d.stop ∧ d.stop ≤ size) (h : r ∈ ofDirectives size ds) :
    r.start < r.stop ∧ r.stop ≤ size := by
  induction ds with
  | nil => cases h
  | cons d ds ih =>
    obtain ⟨hlater, hrest⟩ := List.pairwise_cons.mp ordered
    have hproper := fun d hd => proper d (List.mem_cons_of_mem _ hd)
    have hd := proper d List.mem_cons_self
    rw [ofDirectives] at h
    split at h
    · exact ih hrest hproper h
    · rcases List.mem_cons.mp h with rfl | h
      · cases ds with
        | nil => exact ⟨by simp only [stopAt]; omega, Nat.le_refl size⟩
        | cons next ds =>
          have hafter := hlater next List.mem_cons_self
          have hnext := hproper next List.mem_cons_self
          dsimp only [stopAt]
          split <;> omega
      · exact ih hrest hproper h

/-- The regions of a text follow one another inside it. -/
theorem ordered_ofText (text : Text) : (ofText text).Pairwise (·.stop ≤ ·.start) ∧
    ∀ r ∈ ofText text, r.start < r.stop ∧ r.stop ≤ text.length := by
  have ordered := Directive.pairwise_ofLines 0 (Text.feeds text)
  have proper : ∀ d ∈ Directive.ofLines 0 (Text.feeds text),
      d.start < d.stop ∧ d.stop ≤ text.length := by
    intro d hd
    have := Directive.mem_ofLines hd
    rw [Text.ended_eq (Text.feeds_ne_nil text), Text.join_feeds, List.length_append,
      List.length_singleton] at this
    omega
  exact ⟨pairwise_ofDirectives ordered fun d hd => (proper d hd).1,
    fun r hr => bounds_of_mem ordered proper hr⟩

end Region

/-! ## 4. Directives that count -/

/-- Some of the directives on lines are all that count: the regions are theirs, and where the lines
start in a region the next directive is among them. -/
structure Counts (delimiter : Option Text) (found declared : List Directive) : Prop where
  sublist : found.Sublist declared
  regions : ∀ size, Region.ofDirectives size found = Region.ofDirectives size declared
  head : delimiter ≠ none → found.head? = declared.head?

theorem Region.stopAt_congr {ds es : List Directive} (h : ds.head? = es.head?) (size : Nat) :
    stopAt size ds = stopAt size es := by
  cases ds <;> cases es <;> cases h <;> rfl

theorem Region.ofDirectives_closing {ds : List Directive} (h : ∀ d ∈ ds, d.token = [';'])
    (es : List Directive) (size : Nat) : ofDirectives size (ds ++ es) = ofDirectives size es := by
  induction ds with
  | nil => rfl
  | cons d ds ih =>
    rw [List.cons_append, ofDirectives, if_pos (h d List.mem_cons_self)]
    exact ih fun d hd => h d (List.mem_cons_of_mem _ hd)

-- Lines that end no segment declare nothing but semicolons, and in a region nothing at all.
theorem Directive.token_of_turn? {delimiter : Option Text} {lines : List Text}
    (h : ∀ line ∈ lines, turn? delimiter line = none) (n : Nat) :
    (∀ d ∈ ofLines n lines, d.token = [';']) ∧ (delimiter ≠ none → ofLines n lines = []) := by
  induction lines generalizing n with
  | nil => exact ⟨fun _ hd => (List.not_mem_nil hd).elim, fun _ => rfl⟩
  | cons line lines ih =>
    obtain ⟨hline, hlines⟩ := List.forall_mem_cons.mp h
    obtain ⟨htokens, hnone⟩ := ih hlines (n + line.length + 1)
    rw [ofLines]
    rcases Segment.declared_of_turn?_eq_none hline with hdeclared | ⟨rfl, hdeclared⟩ <;>
      rw [hdeclared]
    · exact ⟨htokens, hnone⟩
    · exact ⟨List.forall_mem_cons.mpr ⟨rfl, htokens⟩, fun h => absurd rfl h⟩

namespace Counts

variable {delimiter next : Option Text} {found declared : List Directive}

theorem quiet {lines : List Text} (h : ∀ line ∈ lines, turn? delimiter line = none) (n : Nat) :
    Counts delimiter [] (Directive.ofLines n lines) := by
  obtain ⟨htokens, hnone⟩ := Directive.token_of_turn? h n
  refine ⟨List.nil_sublist _, fun size => ?_, fun hd => by rw [hnone hd]⟩
  have := Region.ofDirectives_closing htokens [] size
  rw [List.append_nil] at this
  exact this.symm

theorem turn {front : List Text} {line : Text}
    (hfront : ∀ line ∈ front, turn? delimiter line = none)
    (hline : turn? delimiter line = some next) {n : Nat} {d : Directive}
    (h : Counts next found declared) (hd : Delimiter.declared? line = some d.token) :
    Counts delimiter (d :: found) (Directive.ofLines n front ++ d :: declared) := by
  obtain ⟨htokens, hnone⟩ := Directive.token_of_turn? hfront n
  refine ⟨?_, fun size => ?_, fun hdelimiter => by rw [hnone hdelimiter]; rfl⟩
  · exact (h.sublist.cons_cons d).trans (List.sublist_append_right _ _)
  · rw [Region.ofDirectives_closing htokens, Region.ofDirectives, Region.ofDirectives,
      h.regions size]
    obtain ⟨token, htoken, hnext⟩ := Segment.declared_of_turn? hline
    obtain rfl := Option.some.inj (hd.symm.trans htoken)
    rcases hnext with ⟨hopening, rfl⟩ | ⟨hclosing, -, rfl⟩
    · rw [if_neg hopening, if_neg hopening,
        Region.stopAt_congr (h.head (Option.some_ne_none _)) size]
    · rw [if_pos hclosing, if_pos hclosing]

end Counts

end SqlDump
