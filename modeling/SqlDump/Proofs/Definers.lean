import Mathlib.Data.List.Infix
import SqlDump.Proofs.PlanContents
import SqlDump.Proofs.Segments

/-!
# The account in a DEFINER clause

An account is put into the first clause of a query, in backquotes. The clause it makes is read back
as one, and where the keyword stands nowhere before it no other clause comes first, so putting the
account in twice is putting it in once. A dump puts it into the routines of regions twice.
-/

namespace SqlDump

open Outcome

/-- Whether an account can be written between backquotes: both sides are given, and neither has a
backquote or a backslash. -/
structure Account.Plain (account : Account) : Prop where
  user_ne_nil : account.user ≠ []
  host_ne_nil : account.host ≠ []
  user : ∀ c ∈ account.user, c ≠ '\\' ∧ c ≠ '\x60'
  host : ∀ c ∈ account.host, c ≠ '\\' ∧ c ≠ '\x60'

/-! ## 1. Templates without escapes -/

namespace Template

theorem partsFrom_of_plain {s : Text} (h : ∀ c ∈ s, c ≠ '\\') {n : Nat} (hn : s.length ≤ n)
    (template : Text) (position : Nat) :
    partsFrom template n position s = .ok (s.map .literal) := by
  induction s generalizing n position with
  | nil => cases n <;> rfl
  | cons c s ih =>
    obtain ⟨hc, hs⟩ := List.forall_mem_cons.mp h
    cases n with
    | zero => cases hn
    | succ n =>
      rw [partsFrom, if_neg hc, ih hs (Nat.le_of_succ_le_succ hn)]
      rfl

theorem fill_literal (replaced s : Text) : fill replaced (s.map .literal) = s := by
  rw [fill, List.flatMap_map]
  exact List.flatMap_singleton' s

end Template

namespace Definer

variable {account : Account} {query before clause after : Text}

theorem template_plain (plain : account.Plain) : ∀ c ∈ template account, c ≠ '\\' := by
  have fixed : ∀ word ∈ ["DEFINER=\x60".toList, "\x60@\x60".toList, ['\x60']], '\\' ∉ word := by
    decide
  unfold template
  intro c hc
  simp only [List.mem_append] at hc
  rcases hc with (((hc | hc) | hc) | hc) | hc
  · exact ne_of_mem_of_not_mem hc (fixed _ (by simp))
  · exact (plain.user c hc).1
  · exact ne_of_mem_of_not_mem hc (fixed _ (by simp))
  · exact (plain.host c hc).1
  · exact ne_of_mem_of_not_mem hc (fixed _ (by simp))

theorem parts_template (plain : account.Plain) :
    Template.parts (template account) = .ok ((template account).map .literal) :=
  Template.partsFrom_of_plain (template_plain plain) le_rfl _ 0

/-! ## 2. Clauses -/

/-- What may stand in the host of an account without quotes. -/
def isHostChar (c : Char) : Bool := isNameChar c || c = '.' || c = '%' || c = '-'

/-- A side of an account as it is written before `rest`: between two marks, or the longest run of
the characters of `bare`. -/
inductive Side (bare : Char → Bool) : Text → Text → Prop
  | quoted {mark : Char} {name : Text} (mark_cases : mark = '\x60' ∨ mark = '\x27')
    (unmarked : mark ∉ name) (rest : Text) : Side bare (mark :: (name ++ [mark])) rest
  | bare {name rest : Text} (nonempty : name ≠ []) (all : ∀ c ∈ name, bare c = true)
    (longest : ∀ c ∈ rest.head?, bare c = false) : Side bare name rest

/-- A clause as it is written before `after`. -/
def IsClause (clause after : Text) : Prop :=
  ∃ gap gap' user host : Text, clause = "DEFINER" ++ gap ++ "=" ++ gap' ++ user ++ "@" ++ host ∧
    (∀ c ∈ gap ++ gap', isBlank c = true) ∧ Side isNameChar user ("@" ++ (host ++ after)) ∧
    Side isHostChar host after

theorem side?_eq_some_iff {bare : Char → Bool} (hbare : bare '\x60' = false ∧ bare '\x27' = false)
    {s r : Text} : side? bare s = some r ↔ ∃ written, s = written ++ r ∧ Side bare written r := by
  constructor
  · intro h
    cases s with
    | nil => cases h
    | cons c s =>
      rw [side?] at h
      split at h
      · rename_i hmark
        split at h
        · rename_i d r' hdrop
          cases h
          obtain ⟨name, rfl, hname, hd⟩ := Text.dropWhile_eq_cons_iff.mp hdrop
          obtain rfl : d = c := by simpa using hd
          refine ⟨d :: (name ++ [d]), by simp, .quoted (by simpa using hmark) ?_ _⟩
          exact fun hmem => by simpa using hname d hmem
        · cases h
      · obtain ⟨⟨u, r'⟩, hrun, e⟩ := Option.map_eq_some_iff.mp h
        cases e
        obtain ⟨hs, hne, hall, hlongest⟩ := Text.run?_eq_some_iff.mp hrun
        exact ⟨u, hs, .bare hne hall hlongest⟩
  · rintro ⟨written, rfl, hside⟩
    cases hside with
    | @quoted mark name hmark hname =>
      have hdrop : (name ++ [mark] ++ r).dropWhile (· ≠ mark) = mark :: r := by
        refine Text.dropWhile_eq_cons_iff.mpr ⟨name, by simp, fun c hc => ?_, by simp⟩
        exact decide_eq_true fun e => hname (e ▸ hc)
      rw [List.cons_append, side?, if_pos (by simpa using hmark), hdrop]
    | bare hne hall hlongest =>
      have hrun := Text.run?_eq_some_iff.mpr ⟨rfl, hne, hall, hlongest⟩
      obtain ⟨c, u, rfl⟩ := List.exists_cons_of_ne_nil hne
      have hc := hall c List.mem_cons_self
      have hmark : ¬ (c = '\x60' || c = '\x27') = true := by
        simp only [Bool.or_eq_true, decide_eq_true_eq]
        rintro (rfl | rfl)
        · exact absurd hc (by simp [hbare.1])
        · exact absurd hc (by simp [hbare.2])
      rw [List.cons_append, side?, if_neg hmark, ← List.cons_append, hrun]
      rfl

-- A side does not start with a blank.
theorem Side.trimLeft {bare : Char → Bool} (hbare : ∀ c, bare c = true → isBlank c = false)
    {written rest : Text} (h : Side bare written rest) {gap : Text}
    (hgap : ∀ c ∈ gap, isBlank c = true) (t : Text) :
    Text.trimLeft (gap ++ (written ++ t)) = written ++ t := by
  rw [Text.trimLeft, List.dropWhile_append_of_pos hgap]
  cases h with
  | quoted hmark =>
    refine Text.trimLeft_cons ?_ _
    rcases hmark with rfl | rfl <;> decide
  | bare hne hall =>
    obtain ⟨c, u, rfl⟩ := List.exists_cons_of_ne_nil hne
    exact Text.trimLeft_cons (hbare c (hall c List.mem_cons_self)) _

theorem clause?_eq_some_iff {s r : Text} :
    clause? s = some r ↔ ∃ clause, s = clause ++ r ∧ IsClause clause r := by
  have hname : isNameChar '\x60' = false ∧ isNameChar '\x27' = false := by decide
  have hhost : isHostChar '\x60' = false ∧ isHostChar '\x27' = false := by decide
  unfold clause?
  constructor
  · intro h
    obtain ⟨r₁, h₁, h⟩ := Option.bind_eq_some_iff.mp h
    obtain ⟨r₂, h₂, h⟩ := Option.bind_eq_some_iff.mp h
    obtain ⟨r₃, h₃, h⟩ := Option.bind_eq_some_iff.mp h
    obtain ⟨r₄, h₄, h⟩ := Option.bind_eq_some_iff.mp h
    obtain ⟨gap, hr₁, hgap⟩ := Text.exists_trimLeft r₁
    obtain ⟨gap', hr₂, hgap'⟩ := Text.exists_trimLeft r₂
    obtain ⟨user, hr₃, huser⟩ := (side?_eq_some_iff hname).mp h₃
    obtain ⟨host, hr₄, hhost⟩ := (@side?_eq_some_iff isHostChar hhost _ _).mp h
    have hat := Text.append_of_after? h₄
    refine ⟨"DEFINER" ++ gap ++ "=" ++ gap' ++ user ++ "@" ++ host, ?_, gap, gap', user, host, rfl,
      List.forall_mem_append.mpr ⟨hgap, hgap'⟩, ?_, hhost⟩
    · rw [Text.append_of_after? h₁, hr₁, Text.append_of_after? h₂, hr₂, hr₃, hat, hr₄]
      simp only [List.append_assoc]
    · rwa [← hr₄, ← hat]
  · rintro ⟨clause, rfl, gap, gap', user, host, rfl, hgaps, huser, hhost'⟩
    obtain ⟨hgap, hgap'⟩ := List.forall_mem_append.mp hgaps
    have heq : Text.trimLeft (gap ++ ("=" ++ (gap' ++ (user ++ ("@" ++ (host ++ r)))))) =
        "=" ++ (gap' ++ (user ++ ("@" ++ (host ++ r)))) := by
      rw [Text.trimLeft, List.dropWhile_append_of_pos hgap]
      exact Text.trimLeft_cons (by decide) _
    simp only [List.append_assoc]
    simp only [Option.bind_eq_bind]
    rw [Text.after?_append, Option.bind_some, heq, Text.after?_append, Option.bind_some,
      huser.trimLeft (fun _ => not_isBlank_of_isNameChar) hgap',
      (side?_eq_some_iff hname).mpr ⟨user, rfl, huser⟩, Option.bind_some, Text.after?_append,
      Option.bind_some]
    exact (side?_eq_some_iff hhost).mpr ⟨host, rfl, hhost'⟩

/-- The first clause of a query, between what stands before it and behind it. -/
structure FirstClause (query before clause after : Text) : Prop where
  stands : query = before ++ clause ++ after
  isClause : IsClause clause after
  first : ∀ lead other rest, query = lead ++ other ++ rest → IsClause other rest →
    before.length ≤ lead.length

/-- Whether a query has no clause. -/
def Clauseless (query : Text) : Prop :=
  ∀ before clause after, query = before ++ clause ++ after → ¬ IsClause clause after

/-- Whether the keyword does not stand before the first clause of a query. -/
def Settled (query : Text) : Prop :=
  ∀ before clause after, FirstClause query before clause after → ¬ "DEFINER".toList <:+: before

theorem find_eq_some_iff : Text.find (fun _ => clause?) query = some (before, after) ↔
    ∃ clause, FirstClause query before clause after := by
  unfold Text.find
  rw [Text.search_eq_some_iff]
  constructor
  · rintro ⟨t, rfl, ht, hfirst⟩
    obtain ⟨clause, rfl, hclause⟩ := clause?_eq_some_iff.mp ht
    refine ⟨clause, (List.append_assoc ..).symm, hclause, fun lead other rest e hother => ?_⟩
    rw [List.append_assoc] at e
    rcases List.append_eq_append_iff.mp e with ⟨w, rfl, -⟩ | ⟨w, rfl, hw⟩
    · simp
    · by_contra hlonger
      have hne : w ≠ [] := by
        rintro rfl
        simp at hlonger
      have := hfirst lead w rfl hne
      rw [← hw, clause?_eq_some_iff.mpr ⟨other, rfl, hother⟩] at this
      cases this
  · rintro ⟨clause, rfl, hclause, hfirst⟩
    refine ⟨clause ++ after, List.append_assoc .., clause?_eq_some_iff.mpr ⟨clause, rfl, hclause⟩,
      fun v w e hw => ?_⟩
    cases hfound : clause? (w ++ (clause ++ after)) with
    | none => rfl
    | some r =>
      obtain ⟨other, hother, hisClause⟩ := clause?_eq_some_iff.mp hfound
      have hle := hfirst v other r (by rw [e, List.append_assoc, List.append_assoc, hother,
        List.append_assoc]) hisClause
      have := List.length_pos_iff.mpr hw
      rw [e, List.length_append] at hle
      omega

theorem find_eq_none_iff : Text.find (fun _ => clause?) query = none ↔ Clauseless query := by
  constructor
  · rintro h before clause after rfl hclause
    have hnone := Text.search_eq_none h (t := clause ++ after) ⟨before, (List.append_assoc ..).symm⟩
    rw [clause?_eq_some_iff.mpr ⟨clause, rfl, hclause⟩] at hnone
    cases hnone
  · intro h
    cases hfound : Text.find (fun _ => clause?) query with
    | none => rfl
    | some found =>
      obtain ⟨clause, hfirst⟩ := find_eq_some_iff.mp hfound
      exact absurd hfirst.isClause (h _ _ _ hfirst.stands)

theorem settled_iff : Settled query ↔
    ∀ found ∈ Text.find (fun _ => clause?) query, Text.cut? "DEFINER" found.1 = none := by
  constructor
  · rintro settled ⟨before, after⟩ hfound
    obtain ⟨clause, hfirst⟩ := find_eq_some_iff.mp hfound
    cases hcut : Text.cut? "DEFINER" before with
    | none => rfl
    | some ends =>
      exact absurd ⟨ends.1, ends.2, (Text.append_of_cut? hcut).symm⟩ (settled _ _ _ hfirst)
  · intro h before clause after hfirst
    exact Text.not_infix_of_cut? (h _ (find_eq_some_iff.mpr ⟨clause, hfirst⟩))

instance (query : Text) : Decidable (Settled query) := decidable_of_iff _ settled_iff.symm

/-! ## 3. Putting an account in -/

/-- The query with a plain account in its first clause. -/
def rewritten (account : Account) (query : Text) : Text :=
  match Text.find (fun _ => clause?) query with
  | none => query
  | some (before, after) => before ++ template account ++ after

theorem assign_eq (plain : account.Plain) (query : Text) :
    assign account query = .ok (rewritten account query) := by
  have hgiven : ¬ (account.user.isEmpty || account.host.isEmpty) = true := by
    simp [plain.user_ne_nil, plain.host_ne_nil]
  rw [assign, if_neg hgiven, parts_template plain, rewritten]
  cases Text.find (fun _ => clause?) query with
  | none => rfl
  | some found =>
    dsimp only
    rw [Template.fill_literal]

theorem rewritten_of_firstClause (h : FirstClause query before clause after) (account : Account) :
    rewritten account query = before ++ template account ++ after := by
  rw [rewritten, find_eq_some_iff.mpr ⟨clause, h⟩]

theorem rewritten_of_clauseless (h : Clauseless query) (account : Account) :
    rewritten account query = query := by
  rw [rewritten, find_eq_none_iff.mpr h]

/-- The clause with a plain account in it is a clause, whatever stands behind it. -/
theorem isClause_template (plain : account.Plain) (after : Text) :
    IsClause (template account) after := by
  refine ⟨[], [], '\x60' :: (account.user ++ ['\x60']), '\x60' :: (account.host ++ ['\x60']), ?_,
    fun _ h => (List.not_mem_nil h).elim,
    .quoted (Or.inl rfl) (fun h => (plain.user _ h).2 rfl) _,
    .quoted (Or.inl rfl) (fun h => (plain.host _ h).2 rfl) _⟩
  unfold template
  simp

-- No end of the keyword is a beginning of it, but itself.
theorem keyword_unbordered : ∀ s ∈ "DEFINER".toList.tails, s <+: "DEFINER".toList →
    s = [] ∨ s = "DEFINER".toList := by
  decide

theorem keyword_prefix {w x y : Text} (hw : w ≠ [])
    (h : w ++ ("DEFINER" ++ x) = "DEFINER" ++ y) : "DEFINER".toList <+: w := by
  rcases List.append_eq_append_iff.mp h with ⟨s, hs, hx⟩ | ⟨s, rfl, -⟩
  · have hfront : s <+: "DEFINER".toList := by
      refine List.prefix_of_prefix_length_le ⟨y, hx.symm⟩ (List.prefix_append _ x) ?_
      rw [hs, List.length_append]
      omega
    have htail : s ∈ "DEFINER".toList.tails := (List.mem_tails s _).mpr ⟨w, hs.symm⟩
    rcases keyword_unbordered s htail hfront with rfl | rfl
    · exact ⟨[], by rw [hs, List.append_nil, List.append_nil]⟩
    · exact absurd (List.append_left_eq_self.mp hs.symm) hw
  · exact List.prefix_append _ s

theorem keyword_of_isClause (h : IsClause clause after) : ∃ t, clause = "DEFINER" ++ t := by
  obtain ⟨gap, gap', user, host, rfl, -⟩ := h
  exact ⟨gap ++ ("=" ++ (gap' ++ (user ++ ("@" ++ host)))), by simp only [List.append_assoc]⟩

/-- What is put in for the first clause is the first clause again. -/
theorem FirstClause.rewritten (h : FirstClause query before clause after) (settled : Settled query)
    (plain : account.Plain) :
    FirstClause (before ++ template account ++ after) before (template account) after := by
  refine ⟨rfl, isClause_template plain after, fun lead other rest e hother => ?_⟩
  by_contra hlonger
  rw [List.append_assoc, List.append_assoc] at e
  rcases List.append_eq_append_iff.mp e with ⟨w, rfl, -⟩ | ⟨w, rfl, hw⟩
  · simp at hlonger
  · have hne : w ≠ [] := by
      rintro rfl
      simp at hlonger
    obtain ⟨t, rfl⟩ := keyword_of_isClause hother
    obtain ⟨x, hx⟩ := keyword_of_isClause (isClause_template plain after)
    rw [hx, List.append_assoc, List.append_assoc] at hw
    have hfront := keyword_prefix hne hw.symm
    exact settled _ _ _ h (hfront.isInfix.trans (List.suffix_append lead w).isInfix)

theorem rewritten_rewritten (settled : Settled query) (plain : account.Plain) :
    rewritten account (rewritten account query) = rewritten account query := by
  cases hfound : Text.find (fun _ => clause?) query with
  | none =>
    have hnone := find_eq_none_iff.mp hfound
    rw [rewritten_of_clauseless hnone, rewritten_of_clauseless hnone]
  | some found =>
    obtain ⟨clause, hfirst⟩ := find_eq_some_iff.mp hfound
    rw [rewritten_of_firstClause hfirst,
      rewritten_of_firstClause (hfirst.rewritten settled plain)]

end Definer

/-! ## 4. Statements that are given to an account -/

namespace Statement

open Definer (rewritten)

variable {account : Account}

/-- A statement as a dump keeps it: a view or a routine is given to the account. -/
def given (account : Account) (s : Statement) : Statement :=
  if s.kind = .createView ∨ isRoutine s.kind = true then
    { s with text := rewritten account s.text }
  else s

theorem textAs_given {kind : Kind} (h : isRoutine kind = true) (account : Account) (s : Statement) :
    (s.given account).textAs kind = (s.textAs kind).map (rewritten account) := by
  unfold given
  by_cases hs : s.kind = kind
  · rw [if_pos (Or.inr (hs ▸ h)), textAs, textAs, if_pos hs, if_pos hs]
    rfl
  · rw [textAs, textAs, if_neg hs]
    split <;> rfl

/-- A routine has a text. -/
theorem textAs_of_empty {kind : Kind} (h : isRoutine kind = true) {delimiter : Option Text}
    {text : Text} {s : Statement} (hs : Segment.classify delimiter text = .ok s)
    (hempty : s.text = []) : s.textAs kind = [] := by
  rcases Segment.classify_cases delimiter text with ⟨other, hother, htext⟩ | ⟨word, hword⟩
  · obtain rfl := Except.ok.inj (hs.symm.trans hother)
    obtain rfl : text = [] := htext.symm.trans hempty
    obtain rfl := Except.ok.inj (hs.symm.trans (Segment.classify_nil delimiter))
    refine if_neg ?_
    rintro rfl
    cases h
  · cases hs.symm.trans hword

end Statement

namespace Dump

open Definer (assign_eq rewritten)

variable {account : Account}

/-- With a plain account a dump is collected as without one, from statements given to it. -/
theorem add_of_plain (plain : account.Plain) (dump : Dump) (s : Statement) :
    add account dump s = .ok (dump.put (s.given account)) := by
  obtain ⟨kind, name, text⟩ := s
  have hassign := assign_eq plain text
  rcases name with _ | (_ | ⟨c, name⟩) <;> cases kind <;>
    simp [add, put, Statement.given, Statement.isRoutine, Statement.textAs, Statement.altered,
      Statement.leftOut, Statement.isLeftOut, Statement.tableOf?, Statement.named?,
      Option.filter_some, hassign]

theorem foldlM_add_of_plain (plain : account.Plain) (statements : List Statement) (dump : Dump) :
    statements.foldlM (add account) dump =
      .ok ((statements.map (·.given account)).foldl put dump) := by
  induction statements generalizing dump with
  | nil => rfl
  | cons s statements ih =>
    rw [List.foldlM_cons, add_of_plain plain, List.map_cons, List.foldl_cons, ← ih]
    rfl

theorem parse_of_plain (plain : account.Plain) (sql : Text) :
    parse account sql = (Statement.split account sql).map fun statements =>
      finish ((statements.map (·.given account)).foldl put {}) := by
  unfold parse
  cases Statement.split account sql with
  | error e => rfl
  | ok statements =>
    show (statements.foldlM (add account) {} >>= fun dump => pure (finish dump)) = _
    rw [foldlM_add_of_plain plain]
    rfl

/-- The routines of a kind that a dump holds. -/
def routines (dump : Dump) : Kind → List Text
  | .createFunction => dump.functions
  | .createProcedure => dump.procedures
  | .createTrigger => dump.triggers
  | _ => []

theorem routines_finish (dump : Dump) (kind : Kind) :
    dump.finish.routines kind = dump.routines kind := by
  cases kind <;> rfl

theorem Collects.routines {statements : List Statement} {dump : Dump}
    (h : dump.Collects statements) {kind : Kind} (hkind : Statement.isRoutine kind = true) :
    dump.routines kind = statements.flatMap (Statement.textAs kind) := by
  cases kind with
  | createFunction => exact h.functions
  | createProcedure => exact h.procedures
  | createTrigger => exact h.triggers
  | _ => cases hkind

end Dump

/-! ## 5. Routines in regions -/

namespace Definer

variable {account : Account}

/-- What a segment adds to the routines of a kind. Those of a region have been given to the account
when they were read. -/
def routinesFrom (account : Account) (kind : Kind) (part : Segment × List Statement) : List Text :=
  if part.1.delimiter.isSome then part.2.flatMap (Statement.textAs kind)
  else (part.2.flatMap (Statement.textAs kind)).map (rewritten account)

/-- Whether in every fragment of the regions the keyword does not stand before the first clause. -/
def SettledRegions (sql : Text) : Prop :=
  ∀ segment ∈ Segment.split (cleanText sql), ∀ delimiter ∈ segment.delimiter,
    ∀ fragment ∈ Statement.fragments delimiter segment.text, Settled fragment

instance (sql : Text) : Decidable (SettledRegions sql) := by
  unfold SettledRegions
  infer_instance

-- The second time the account is put into a statement of a region, nothing is changed.
theorem rewritten_of_region (plain : account.Plain) {segment : Segment}
    {statements : List Statement} (h : Statement.ofSegment account segment = .ok statements)
    {delimiter : Text} (hdelimiter : segment.delimiter = some delimiter)
    (settled : ∀ fragment ∈ Statement.fragments delimiter segment.text, Settled fragment)
    {s : Statement} (hs : s ∈ statements) : rewritten account s.text = s.text := by
  rw [Statement.ofSegment, hdelimiter] at h
  obtain ⟨fragment, hmem, hfragment⟩ := exists_of_mapM_eq_ok h hs
  rw [assign_eq plain] at hfragment
  have hclassify : Segment.classify (some delimiter) (rewritten account fragment) = .ok s := hfragment
  rcases Segment.classify_cases (some delimiter) (rewritten account fragment) with
    ⟨other, hother, htext⟩ | ⟨word, hword⟩
  · obtain rfl := Except.ok.inj (hclassify.symm.trans hother)
    rw [htext, rewritten_rewritten (settled fragment hmem) plain]
  · cases hclassify.symm.trans hword

/-- A segment adds its routines to a dump. -/
theorem routinesFrom_eq (plain : account.Plain) {kind : Kind}
    (hkind : Statement.isRoutine kind = true) {segment : Segment} {statements : List Statement}
    (h : Statement.ofSegment account segment = .ok statements)
    (settled : ∀ delimiter ∈ segment.delimiter,
      ∀ fragment ∈ Statement.fragments delimiter segment.text, Settled fragment) :
    (statements.filter (!·.text.isEmpty)).flatMap (fun s => (s.given account).textAs kind) =
      routinesFrom account kind (segment, statements) := by
  have hgiven : (statements.filter (!·.text.isEmpty)).flatMap
      (fun s => (s.given account).textAs kind) =
        (statements.flatMap (Statement.textAs kind)).map (rewritten account) := by
    rw [List.map_flatMap, flatMap_filter_of_nil]
    · exact List.flatMap_congr fun s _ => Statement.textAs_given hkind account s
    · intro s hs hempty
      obtain ⟨delimiter, text, htext⟩ := Segment.classify_of_ofSegment h hs
      rw [Statement.textAs_given hkind, Statement.textAs_of_empty hkind htext (by simpa using hempty)]
      rfl
  rw [hgiven, routinesFrom]
  split
  · rename_i hregion
    obtain ⟨delimiter, hdelimiter⟩ := Option.isSome_iff_exists.mp hregion
    refine (List.map_congr_left fun text htext => ?_).trans (List.map_id _)
    obtain ⟨s, hs, htext⟩ := List.mem_flatMap.mp htext
    unfold Statement.textAs at htext
    split at htext
    · rw [List.mem_singleton.mp htext]
      exact rewritten_of_region plain h hdelimiter (settled delimiter hdelimiter) hs
    · cases htext
  · rfl

-- The statements of a dump, segment by segment.
theorem exists_parts_of_split {sql : Text} {statements : List Statement}
    (h : Statement.split account sql = .ok statements) :
    ∃ parts : List (Segment × List Statement),
      parts.map Prod.fst = Segment.split (cleanText sql) ∧
      (∀ part ∈ parts, Statement.ofSegment account part.1 = .ok part.2) ∧
      statements = parts.flatMap fun part => part.2.filter (!·.text.isEmpty) := by
  obtain ⟨found, hfound, h⟩ := bind_eq_ok.mp h
  obtain ⟨parts, hsegments, rfl, hparts⟩ := exists_pairs_of_mapM hfound
  refine ⟨parts, hsegments, hparts, ?_⟩
  rw [← Except.ok.inj h, List.filter_flatten, List.map_map, List.flatMap_def]
  rfl

theorem inRegions_of_parts {sql : Text} {parts : List (Segment × List Statement)}
    (hsegments : parts.map Prod.fst = Segment.split (cleanText sql))
    (hparts : ∀ part ∈ parts, Statement.ofSegment account part.1 = .ok part.2) :
    Statement.inRegions account sql =
      .ok ((parts.filter (·.1.delimiter.isSome)).flatMap Prod.snd) := by
  have hregions : (parts.map Prod.fst).filter (·.delimiter.isSome) =
      (parts.filter (·.1.delimiter.isSome)).map Prod.fst := List.filter_map
  rw [Statement.inRegions, ← hsegments, hregions,
    mapM_pairs fun part hpart => hparts part (List.mem_of_mem_filter hpart), List.flatMap_def]
  rfl

/-- **Putting an account in changes the first clause and nothing else, and doing it again changes
nothing.** So where the keyword stands before no first clause in a region, the routines that a dump
holds because of a region are those that reading the region gives. -/
theorem assign_once (plain : account.Plain) :
    (∀ query, (∀ before clause after, FirstClause query before clause after →
        assign account query = .ok (before ++ template account ++ after)) ∧
      (Clauseless query → assign account query = .ok query) ∧
      (Settled query → ∃ given, assign account query = .ok given ∧
        assign account given = .ok given)) ∧
    ∀ sql, SettledRegions sql →
      ((∃ dump, Dump.parse account sql = .ok dump) ↔
        ∃ statements, Statement.split account sql = .ok statements) ∧
      ∀ dump, Dump.parse account sql = .ok dump → ∃ parts : List (Segment × List Statement),
        parts.map Prod.fst = Segment.split (cleanText sql) ∧
        (∀ part ∈ parts, Statement.ofSegment account part.1 = .ok part.2) ∧
        Statement.inRegions account sql =
          .ok ((parts.filter (·.1.delimiter.isSome)).flatMap Prod.snd) ∧
        ∀ kind, Statement.isRoutine kind = true →
          dump.routines kind = parts.flatMap (routinesFrom account kind) := by
  refine ⟨fun query => ⟨fun before clause after hfirst => ?_, fun hnone => ?_, fun settled => ?_⟩,
    fun sql settled => ⟨?_, fun dump hdump => ?_⟩⟩
  · rw [assign_eq plain, rewritten_of_firstClause hfirst]
  · rw [assign_eq plain, rewritten_of_clauseless hnone]
  · exact ⟨rewritten account query, assign_eq plain query,
      by rw [assign_eq plain, rewritten_rewritten settled plain]⟩
  · rw [Dump.parse_of_plain plain]
    cases Statement.split account sql with
    | error e =>
      constructor
      · rintro ⟨dump, ⟨⟩⟩
      · rintro ⟨statements, ⟨⟩⟩
    | ok statements => exact ⟨fun _ => ⟨statements, rfl⟩, fun _ => ⟨_, rfl⟩⟩
  · rw [Dump.parse_of_plain plain] at hdump
    obtain ⟨statements, hsplit, rfl⟩ := map_eq_ok.mp hdump
    obtain ⟨parts, hsegments, hparts, rfl⟩ := exists_parts_of_split hsplit
    refine ⟨parts, hsegments, hparts, inRegions_of_parts hsegments hparts, fun kind hkind => ?_⟩
    rw [Dump.routines_finish, (Dump.Collects.foldl_put _).routines hkind, List.flatMap_map,
      List.flatMap_assoc]
    refine List.flatMap_congr fun part hpart => ?_
    exact routinesFrom_eq plain hkind (hparts part hpart)
      (settled part.1 (hsegments ▸ List.mem_map_of_mem hpart))

/-- A clause that is written with blanks and quotes, and an account with a quote in it. -/
theorem assign_once_quote :
    let account : Account := { user := "it's", host := "%" }
    let query : Text := "CREATE DEFINER = 'a'@b FUNCTION f() RETURN 1"
    let given : Text := "CREATE DEFINER=`it's`@`%` FUNCTION f() RETURN 1"
    let sql : Text := "DELIMITER //\n" ++ query ++ "//\nDELIMITER ;"
    account.Plain ∧ (Settled query ∧ assign account query = .ok given ∧
      assign account given = .ok given) ∧ SettledRegions sql ∧
      ∃ dump statement, Dump.parse account sql = .ok dump ∧
        Statement.inRegions account sql = .ok [statement] ∧ statement.text = given ∧
        dump.functions = [given] := by
  intro account query given sql
  have unmarked : ∀ side : Text, (side.all fun c => c ≠ '\\' ∧ c ≠ '\x60') = true →
      ∀ c ∈ side, c ≠ '\\' ∧ c ≠ '\x60' :=
    fun side h c hc => of_decide_eq_true (List.all_eq_true.mp h c hc)
  have plain : account.Plain :=
    ⟨by decide, by decide, unmarked _ (by decide), unmarked _ (by decide)⟩
  have hsettled : Settled query ∧ SettledRegions sql := by decide +kernel
  obtain ⟨hquery, hsql⟩ := assign_once plain
  obtain ⟨given', hgiven, hagain⟩ := (hquery query).2.2 hsettled.1
  have hgiven' : assign account query = .ok given := by decide +kernel
  obtain rfl : given' = given := Except.ok.inj (hgiven.symm.trans hgiven')
  let function : Statement := { kind := .createFunction, name := some "f", text := given }
  have hfound : (Segment.split (cleanText sql)).mapM (Statement.ofSegment account) =
      .ok [[], [function], []] := by decide +kernel
  have hsplit : Statement.split account sql = .ok [function] := by
    rw [Statement.split, hfound]
    rfl
  obtain ⟨hread, hroutines⟩ := hsql sql hsettled.2
  obtain ⟨dump, hdump⟩ := hread.mpr ⟨_, hsplit⟩
  obtain ⟨parts, hsegments, hparts, hregions, hkinds⟩ := hroutines dump hdump
  have hstatements := hfound.symm.trans (hsegments ▸ mapM_pairs hparts)
  have hzip := List.zip_of_prod hsegments (Except.ok.inj hstatements).symm
  rw [hzip] at hregions hkinds
  refine ⟨plain, ⟨hsettled.1, hgiven, hagain⟩, hsettled.2, dump, function, hdump, ?_, rfl, ?_⟩
  · exact hregions.trans (by decide +kernel)
  · exact (hkinds .createFunction rfl).trans (by decide +kernel)

end Definer

end SqlDump
