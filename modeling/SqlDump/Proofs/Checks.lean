import SqlDump.Proofs.Attributes
import SqlDump.Proofs.Expressions

/-!
# Checks on a column

A check says nothing about the column that it stands in where its expression is told as one group.
Where groups nest deeper, the words of the expression are read as attributes of the column, the same
ones whatever stands around the check, so two columns tell whether an expression changes any.
-/

namespace SqlDump.Column

open Token (Spread)

/-- A check with an expression, behind a type or an attribute. -/
def check (e : Text) : Text := " CHECK (" ++ e ++ ")"

/-- Whether a check with an expression changes no column, whatever is declared before and after. -/
def Harmless (e : Text) : Prop :=
  ∀ (type name : Text) (arguments : Option Text) (before after : List Attribute)
    (front back behind : Text), type? type = some (name, arguments, []) → Written before front →
      Written after back → Ends behind →
        parse (type ++ front ++ check e ++ back ++ behind) = parse (type ++ front ++ back ++ behind)

/-! ## 1. What tokens say, whatever was said before -/

/-- What is said, and what was said before where it says nothing. -/
def Qualifiers.onto (said q : Qualifiers) : Qualifiers where
  unsigned := said.unsigned || q.unsigned
  nullable := said.nullable.or q.nullable
  default := said.default.or q.default
  autoIncrement := said.autoIncrement || q.autoIncrement
  primary := said.primary || q.primary

namespace Qualifiers

theorem onto_assoc (a b c : Qualifiers) : (a.onto b).onto c = a.onto (b.onto c) := by
  simp only [onto, Bool.or_assoc, Option.or_assoc]

theorem onto_empty (q : Qualifiers) : q.onto {} = q := by
  simp only [onto, Bool.or_false, Option.or_none]

end Qualifiers

theorem ite_onto {c : Prop} [Decidable c] {a b said other : Qualifiers × Nat} {q : Qualifiers}
    (ha : c → a = (said.1.onto q, said.2)) (hb : b = (other.1.onto q, other.2)) :
    (if c then a else b) =
      ((if c then said else other).1.onto q, (if c then said else other).2) := by
  split
  · exact ha ‹c›
  · exact hb

theorem qualifier_onto (q : Qualifiers) (token : Text) (following : Option Text) :
    qualifier q token following =
      ((qualifier {} token following).1.onto q, (qualifier {} token following).2) := by
  unfold qualifier
  dsimp only
  refine ite_onto (fun _ => rfl) (ite_onto (fun _ => rfl) (ite_onto (fun _ => rfl)
    (ite_onto (fun _ => rfl) (ite_onto (fun _ => rfl) (ite_onto (fun hdefault => ?_)
      (ite_onto (fun _ => rfl) (ite_onto (fun _ => rfl) (ite_onto (fun _ => rfl) rfl))))))))
  obtain ⟨value, rfl⟩ := Option.isSome_iff_exists.mp hdefault.2
  dsimp only
  split <;> rfl

theorem upper_getLast? {t : Text} (h : t.getLast? = some ')') :
    (Text.upper t).getLast? = some ')' := by
  obtain ⟨v, rfl⟩ := List.getLast?_eq_some_iff.mp h
  rw [Text.upper, List.flatMap_append]
  exact List.getLast?_concat

theorem upper_ne {t w : Text} (h : t.getLast? = some ')') (hw : w.getLast? ≠ some ')') :
    Text.upper t ≠ w := by
  rintro rfl
  exact hw (upper_getLast? h)

theorem qualifier_closing {t : Text} (h : t.getLast? = some ')') (q : Qualifiers)
    (following : Option Text) : qualifier q t following = (q, 0) := by
  refine qualifier_quiet (fun hmem => ?_) q following
  have hleads : (Attribute.leads.all fun w => decide (w.getLast? ≠ some ')')) = true := by decide
  have := List.all_eq_true.mp hleads _ hmem
  exact of_decide_eq_true this (upper_getLast? h)

-- No qualifier goes on behind a closing parenthesis.
theorem qualifier_skip_closing {t : Text} (h : t.getLast? = some ')') (q : Qualifiers)
    (token : Text) : (qualifier q token (some t)).2 ≤ 1 := by
  have hne : ∀ w : String, w.toList.getLast? ≠ some ')' →
      ¬ some (Text.upper t) = (do let a ← some w; pure a.toList) :=
    fun w hw e => upper_ne h hw (Option.some.inj e)
  unfold qualifier
  dsimp only
  rw [Option.map_some]
  simp only [hne "SET" (by decide), hne "=" (by decide), hne "UPDATE" (by decide), and_false,
    if_false]
  repeat' split
  all_goals
    dsimp only
    omega

/-- **What the tokens of a group say** does not depend on what is said before them, and all that is
behind them is read, or nothing. -/
theorem qualifiers_onto (tokens : List Text) {last : Text} (h : last.getLast? = some ')')
    {skip : Nat} (hskip : skip ≤ tokens.length + 1) :
    ∃ (said : Qualifiers) (stops : Bool), ∀ q rest,
      qualifiers q skip (tokens ++ last :: rest) =
        if stops then said.onto q else qualifiers (said.onto q) 0 rest := by
  induction tokens generalizing skip with
  | nil =>
    refine ⟨{}, false, fun q rest => ?_⟩
    rcases skip with _ | _ | skip
    · have hcomma : last ≠ "," := by
        rintro rfl
        cases h
      rw [List.nil_append, qualifiers, if_neg hcomma, qualifier_closing h]
      rfl
    · rfl
    · simp at hskip
  | cons token tokens ih =>
    cases skip with
    | succ skip => exact ih (by simpa using hskip)
    | zero =>
      by_cases hcomma : token = ","
      · refine ⟨{}, true, fun q rest => ?_⟩
        rw [List.cons_append, qualifiers, if_pos hcomma]
        rfl
      · have hhead : ∀ rest, (tokens ++ last :: rest).head? = (tokens ++ [last]).head? := by
          intro rest
          cases tokens <;> rfl
        have hle : (qualifier {} token (tokens ++ [last]).head?).2 ≤ tokens.length + 1 := by
          cases tokens with
          | nil => exact qualifier_skip_closing h {} token
          | cons next tokens => exact (qualifier_skip_le _ _ _).trans (by simp)
        obtain ⟨said, stops, hsaid⟩ := ih hle
        refine ⟨said.onto (qualifier {} token (tokens ++ [last]).head?).1, stops, fun q rest => ?_⟩
        rw [List.cons_append, qualifiers, if_neg hcomma, hhead, qualifier_onto q,
          Qualifiers.onto_assoc]
        exact hsaid _ rest

/-! ## 2. What a check says -/

variable {e : Text}

theorem check_append (x : Text) :
    check e ++ x = [' '] ++ "CHECK".toList ++ (' ' :: '(' :: (e ++ ')' :: x)) := by
  have hfront : " CHECK (".toList = [' '] ++ "CHECK".toList ++ [' ', '('] := rfl
  have hback : ")".toList = [')'] := rfl
  unfold check
  rw [hfront, hback]
  simp only [List.append_assoc, List.cons_append, List.nil_append]

theorem breaks_check (x : Text) : Breaks (check e ++ x) := by
  rw [check_append]
  exact breaks_cons (by decide) _

theorem all_check (x : Text) :
    Token.all (check e ++ x) = "CHECK".toList :: Token.all ('(' :: (e ++ ')' :: x)) := by
  have hspread : Token.Spread ["CHECK".toList] ([' '] ++ "CHECK".toList ++ []) :=
    .cons (by decide) (List.forall_mem_singleton.mpr (by decide)) (by decide) .nil
  have hall := Token.all_spread hspread (breaks_cons (c := ' ') (by decide) ('(' :: (e ++ ')' :: x)))
  rw [List.append_nil] at hall
  rw [check_append, hall]
  refine congrArg ("CHECK".toList :: ·) ?_
  rw [Token.all_eq, Token.all_eq]
  rfl

/-- A check that says something of the column, after which it stops the reading, or does not. -/
def Says (e : Text) (said : Qualifiers) (stops : Bool) : Prop := ∀ q x,
  qualifiers q 0 (Token.all (check e ++ x)) =
    if stops then said.onto q else qualifiers (said.onto q) 0 (Token.all x)

/-- Every check with an expression says something, the same whatever stands around it. -/
theorem exists_says (h : Expression false e) : ∃ said stops, Says e said stops := by
  obtain ⟨tokens, last, hlast, htokens⟩ := Token.all_expression h
  obtain ⟨said, stops, hsaid⟩ := qualifiers_onto ("CHECK".toList :: tokens) hlast (Nat.zero_le _)
  refine ⟨said, stops, fun q x => ?_⟩
  rw [all_check, htokens, ← hsaid, List.cons_append]

/-- A check with a flat expression says nothing. -/
theorem says_of_flat (h : Flat e) : Says e {} false := by
  intro q x
  have hlast : ('(' :: (e ++ [')'])).getLast? = some ')' := by
    rw [← List.cons_append, List.getLast?_concat]
  have hcomma : '(' :: (e ++ [')']) ≠ "," := nofun
  have hquiet : qualifier q "CHECK" (some ('(' :: (e ++ [')']))) = (q, 0) :=
    qualifier_quiet (by decide) q _
  rw [all_check, Token.all_flat h, qualifiers, if_neg (by decide), List.head?_cons, hquiet]
  dsimp only
  rw [qualifiers, if_neg hcomma, qualifier_closing hlast]
  rfl

/-! ## 3. Checks among attributes -/

section Among

variable {said : Qualifiers} {stops : Bool} {before after : List Attribute} {front back behind : Text}

theorem Says.read (h : Says e said stops) (hfront : Written before front)
    (hback : Written after back) (hbehind : Ends behind) :
    qualifiers {} 0 (Token.all (front ++ (check e ++ (back ++ behind)))) =
      if stops then said.onto (before.foldl Attribute.put {})
      else after.foldl Attribute.put (said.onto (before.foldl Attribute.put {})) := by
  have hfresh : Afresh (Token.all (check e ++ (back ++ behind))) := by
    intro token htoken
    rw [all_check] at htoken
    cases htoken
    decide
  rw [hfront.read (breaks_check _) hfresh, h, hback.read hbehind.breaks hbehind.read.1,
    hbehind.read.2]

end Among

theorem type?_check {type name front : Text} {arguments : Option Text} {before : List Attribute}
    (htype : type? type = some (name, arguments, [])) (hfront : Written before front) (x : Text) :
    type? (type ++ front ++ check e ++ x) = some (name, arguments, front ++ (check e ++ x)) := by
  have hopen : ∀ r, Text.trimLeft (check e ++ x) ≠ '(' :: r := by
    intro r
    rw [check_append]
    nofun
  have := type?_whole htype (hfront.breaks (breaks_check x)) (hfront.not_open hopen)
  simpa only [List.append_assoc] using this

theorem parse_congr {s t name r r' : Text} {arguments : Option Text}
    (hs : type? s = some (name, arguments, r)) (ht : type? t = some (name, arguments, r'))
    (hq : qualifiers {} 0 (Token.all r) = qualifiers {} 0 (Token.all r')) : parse s = parse t := by
  unfold parse
  rw [hs, ht]
  dsimp only
  rw [hq]

theorem Says.harmless (h : Says e {} false) : Harmless e := by
  intro type name arguments before after front back behind htype hfront hback hbehind
  have hplain := type?_whole htype (hfront.breaks (hback.breaks hbehind.breaks))
    (hfront.not_open (hback.not_open hbehind.not_open))
  rw [← List.append_assoc, ← List.append_assoc] at hplain
  rw [List.append_assoc _ back]
  refine parse_congr (type?_check htype hfront _) hplain ?_
  have hfresh := hback.afresh hbehind.breaks hbehind.read.1
  rw [h.read hfront hback hbehind, hfront.read (hback.breaks hbehind.breaks) hfresh,
    hback.read hbehind.breaks hbehind.read.1, hbehind.read.2]
  rfl

/-! ## 4. Two columns that tell -/

/-- The integer column with qualifiers. -/
def integer (q : Qualifiers) : Column where
  type := typeText "int" none q.unsigned
  datatype := "int"
  unsigned := q.unsigned
  nullable := q.nullable.getD (q.default = some "NULL")
  default := q.default
  autoIncrement := q.autoIncrement
  primary := q.primary

theorem parse_integer {text rest : Text} (h : type? text = some ("int".toList, none, rest)) :
    parse text = .ok (some (integer (qualifiers {} 0 (Token.all rest)))) := by
  have hlower : Text.lower "int".toList = "int".toList := by decide
  have hcharacters : characterTypes.contains "int".toList = false := by decide
  unfold parse
  rw [h]
  dsimp only
  rw [hlower, hcharacters]
  rfl

theorem type?_int : type? "int" = some ("int".toList, none, []) := by decide

theorem written_nil : Written [] [] := ⟨[], .nil, .nil⟩

theorem written_keyword {a : Attribute} {w : Text} (ha : a.Spelled [w]) (hw : Token.Standing w) :
    Written [a] (' ' :: w) := by
  refine ⟨[w] ++ [], .cons ha .nil, ?_⟩
  have := Token.spread_spaced (List.forall_mem_singleton.mpr hw)
  rwa [List.flatMap_singleton] at this

theorem written_null : Written [.nullable true] " NULL" :=
  written_keyword ⟨⟨["NULL"], by decide, rfl⟩, fun _ => nofun⟩ (by decide)

theorem written_unsigned : Written [.unsigned] " UNSIGNED" :=
  written_keyword ⟨⟨["UNSIGNED"], by decide, rfl⟩, fun _ => nofun⟩ (by decide)

theorem Says.parse_int {said : Qualifiers} {stops : Bool} {before after : List Attribute}
    {front back : Text} (h : Says e said stops) (hfront : Written before front)
    (hback : Written after back) : parse ("int" ++ front ++ check e ++ back) =
      .ok (some (integer (if stops then said.onto (before.foldl Attribute.put {})
        else after.foldl Attribute.put (said.onto (before.foldl Attribute.put {}))))) := by
  have hread := h.read hfront hback (show Ends [] from nofun)
  rw [List.append_nil] at hread
  rw [parse_integer (type?_check type?_int hfront back), hread]

/-- A check that says something says so of one of two columns. -/
theorem Says.eq_empty {said : Qualifiers} {stops : Bool} (h : Says e said stops)
    (hbare : parse ("int" ++ check e) = parse "int")
    (hnull : parse ("int NULL" ++ check e ++ " UNSIGNED") = parse "int NULL UNSIGNED") :
    said = {} ∧ stops = false := by
  have hplain : integer said = integer {} := by
    have hread := h.parse_int written_nil written_nil
    rw [List.append_nil, List.append_nil, List.foldl_nil, List.foldl_nil, ite_self,
      Qualifiers.onto_empty, hbare, parse_integer type?_int] at hread
    exact (Option.some.inj (Except.ok.inj hread)).symm
  have hamong : integer (if stops then said.onto { nullable := some true }
      else { said.onto { nullable := some true } with unsigned := true }) =
        integer { nullable := some true, unsigned := true } := by
    have hread := h.parse_int written_null written_unsigned
    have htext : "int".toList ++ " NULL".toList = "int NULL".toList := rfl
    have hdeclared : parse "int NULL UNSIGNED" =
        .ok (some (integer { nullable := some true, unsigned := true })) := by decide
    rw [htext, hnull, hdeclared] at hread
    exact (Option.some.inj (Except.ok.inj hread)).symm
  obtain ⟨unsigned, nullable, default, autoIncrement, primary⟩ := said
  obtain rfl : unsigned = false := congrArg (·.unsigned) hplain
  obtain rfl : default = none := congrArg (·.default) hplain
  obtain rfl : autoIncrement = false := congrArg (·.autoIncrement) hplain
  obtain rfl : primary = false := congrArg (·.primary) hplain
  have hstops : stops = false := by
    by_contra hstops
    rw [Bool.not_eq_false] at hstops
    subst hstops
    exact Bool.false_ne_true (congrArg (·.unsigned) hamong)
  subst hstops
  -- the bare column tells NULL, the other one NOT NULL
  refine ⟨?_, rfl⟩
  match nullable with
  | none => rfl
  | some true => exact absurd (congrArg (·.nullable) hplain) (by decide : ¬ true = false)
  | some false => exact absurd (congrArg (·.nullable) hamong) Bool.false_ne_true

/-! ## 5. Harmless expressions -/

/-- **A check changes no column if its expression is flat**, and in general if and only if it does
not change two of them: a bare one, and one that may be null and is declared further behind it. -/
theorem check_harmless (h : Expression false e) :
    (Flat e → Harmless e) ∧
      (Harmless e ↔ parse ("int" ++ check e) = parse "int" ∧
        parse ("int NULL" ++ check e ++ " UNSIGNED") = parse "int NULL UNSIGNED") := by
  refine ⟨fun hflat => (says_of_flat hflat).harmless, fun hharmless => ?_, fun ⟨hbare, hnull⟩ => ?_⟩
  · have hbare := hharmless _ _ _ _ _ _ _ [] type?_int written_nil written_nil nofun
    have hnull := hharmless _ _ _ _ _ _ _ [] type?_int written_null written_unsigned nofun
    simp only [List.append_nil] at hbare hnull
    exact ⟨hbare, hnull⟩
  · obtain ⟨said, stops, hsays⟩ := exists_says h
    obtain ⟨rfl, rfl⟩ := hsays.eq_empty hbare hnull
    exact hsays.harmless

/-- An expression with a parenthesis and a comma in a string, and one with a word behind an inner
group. -/
theorem check_harmless_nested :
    let flat : Text := "a IN (1, 2) OR a <> 'NULL, ('"
    let nested : Text := "((a)) IS NULL"
    (Flat flat ∧ Expression false flat ∧ Harmless flat) ∧
      (Expression false nested ∧ ¬ Harmless nested ∧ parse ("int" ++ check nested) =
        .ok (some { type := "int", datatype := "int", nullable := true })) := by
  intro flat nested
  have hparts : flat = "a IN ".toList ++ '(' :: ("1, 2".toList ++ [] ++ ')' ::
      (" OR a <> ".toList ++ ("'NULL, ('".toList ++ []))) := by decide
  have hliteral : Literal.read? '\x27' "'NULL, ('" = some ("'NULL, ('".toList, []) := by
    decide
  have hflat : Flat flat := by
    rw [hparts]
    exact .plains (by decide) (.group (by decide) (.plains (by decide) (.literal hliteral .nil)))
  have hexpression : Expression false flat := by
    rw [hparts]
    exact .plains (by decide) (.group (.plains (by decide) .nil)
      (.plains (by decide) (.literal (Or.inl rfl) hliteral nofun nofun .nil)))
  have hnested : Expression false nested := by
    show Expression false ('(' :: ('(' :: ("a".toList ++ [] ++ ')' :: []) ++ ')' ::
      (" IS NULL".toList ++ [])))
    exact .group (.group (.plains (by decide) .nil) .nil) (.plains (by decide) .nil)
  have hparse : parse ("int" ++ check nested) =
      .ok (some { type := "int", datatype := "int", nullable := true }) := by decide
  refine ⟨⟨hflat, hexpression, (check_harmless hexpression).1 hflat⟩, hnested, fun h => ?_, hparse⟩
  have hbare := ((check_harmless hnested).2.mp h).1
  rw [hparse] at hbare
  exact absurd hbare (by decide)

end SqlDump.Column
