import SqlDump.Proofs.Arguments
import SqlDump.Proofs.StandingTokens

/-!
# The attributes of a column, in any order

Behind its type a column has attributes: keywords, some with a value that is one token. Each is read
by itself, whatever its value holds, so the order in which they stand changes nothing, and nothing
behind a comma does.
-/

namespace SqlDump.Column

open Token (Standing Spread)

/-! ## 1. What is written behind a type -/

/-- What can be said of a column behind its type. -/
inductive Attribute
  | unsigned
  | nullable (can : Bool)
  | characterSet (name : Text)
  | collate (name : Text)
  | comment (text : Text)
  | default (value : Text)
  | autoIncrement
  | onUpdate (value : Text)
  | primaryKey
  /-- A token that says nothing. -/
  | other (token : Text)
  deriving DecidableEq

namespace Attribute

/-- The keywords of an attribute, in each of the forms that it has. -/
def forms : Attribute → List (List Text)
  | unsigned => [["UNSIGNED"]]
  | nullable true => [["NULL"]]
  | nullable false => [["NOT", "NULL"]]
  | characterSet _ => [["CHARACTER", "SET"], ["CHAR", "SET"], ["CHARSET"]]
  | collate _ => [["COLLATE"]]
  | comment _ => [["COMMENT"]]
  | default _ => [["DEFAULT"]]
  | autoIncrement => [["AUTO_INCREMENT"]]
  | onUpdate _ => [["ON", "UPDATE"]]
  | primaryKey => [["PRIMARY", "KEY"]]
  | other _ => [[]]

/-- The token behind the keywords. -/
def value? : Attribute → Option Text
  | characterSet name => some name
  | collate name => some name
  | comment text => some text
  | default value => some value
  | onUpdate value => some value
  | other token => some token
  | _ => none

/-- The tokens that say something, or end what is said, or go on with a keyword. -/
def leads : List Text := ["UNSIGNED", "NOT", "NULL", "CHARACTER", "CHAR", "CHARSET", "COLLATE",
  "COMMENT", "DEFAULT", "AUTO_INCREMENT", "ON", "PRIMARY", ",", "="]

/-- Whether tokens are the keywords of an attribute, in any case, and its value. -/
def Spelled (a : Attribute) (tokens : List Text) : Prop :=
  (∃ words, words.map Text.upper ∈ a.forms ∧ tokens = words ++ a.value?.toList) ∧
    ∀ token, a = other token → Text.upper token ∉ leads ∧ ∀ r, token ≠ '(' :: r

/-- What is known with an attribute. -/
def put (q : Qualifiers) : Attribute → Qualifiers
  | unsigned => { q with unsigned := true }
  | nullable can => { q with nullable := some can }
  | default value => { q with default := some (if Text.upper value = "NULL" then "NULL" else value) }
  | autoIncrement => { q with autoIncrement := true }
  | primaryKey => { q with primary := true }
  | _ => q

end Attribute

/-- The tokens of attributes, one attribute after another. -/
inductive Spelling : List Attribute → List Text → Prop
  | nil : Spelling [] []
  | cons {a : Attribute} {attributes : List Attribute} {tokens rest : List Text}
      (ha : a.Spelled tokens) (h : Spelling attributes rest) :
      Spelling (a :: attributes) (tokens ++ rest)

/-- Attributes as they stand in a text, each token behind one blank or more. -/
def Written (attributes : List Attribute) (text : Text) : Prop :=
  ∃ tokens, Spelling attributes tokens ∧ Spread tokens text

/-! ## 2. Reading attributes -/

/-- Tokens that the last keyword does not go on with. -/
def Afresh (tokens : List Text) : Prop := ∀ token, tokens.head? = some token → Text.upper token ≠ "="

theorem upper_singleton {token : Text} (h : token = ",") : Text.upper token = "," := by
  rw [h]
  decide

-- A token counts by its capitals, and so does the one behind it, but as a default.
theorem qualifier_congr {token keyword : Text} (h : Text.upper token = Text.upper keyword)
    (q : Qualifiers) (following : Option Text) :
    qualifier q token following = qualifier q keyword following := by
  unfold qualifier
  rw [h]

theorem qualifier_following {keyword next word : Text} (h : Text.upper next = Text.upper word)
    (hkeyword : Text.upper keyword ≠ "DEFAULT") (q : Qualifiers) :
    qualifier q keyword (some next) = qualifier q keyword (some word) := by
  unfold qualifier
  dsimp only
  simp only [Option.map_some, h, hkeyword, false_and, if_false]

theorem exists_of_map_upper {words : List Text} {k : Text} (h : words.map Text.upper = [k]) :
    ∃ w, words = [w] ∧ Text.upper w = k := by
  obtain ⟨w, rest, rfl, hw, hrest⟩ := List.map_eq_cons_iff.mp h
  exact ⟨w, by rw [List.map_eq_nil_iff.mp hrest], hw⟩

theorem exists_of_map_upper_two {words : List Text} {k l : Text}
    (h : words.map Text.upper = [k, l]) :
    ∃ w v, words = [w, v] ∧ Text.upper w = k ∧ Text.upper v = l := by
  obtain ⟨w, rest, rfl, hw, hrest⟩ := List.map_eq_cons_iff.mp h
  obtain ⟨v, rfl, hv⟩ := exists_of_map_upper hrest
  exact ⟨w, v, rfl, hw, hv⟩

/-- Whether a word is written in capitals, and is no comma. -/
def IsKeyword (keyword : Text) : Prop := Text.upper keyword = keyword ∧ keyword ≠ ","

instance (keyword : Text) : Decidable (IsKeyword keyword) := inferInstanceAs (Decidable (_ ∧ _))

/-- A keyword in any case is read as in capitals. -/
theorem qualifiers_keyword {token keyword : Text} (hkeyword : IsKeyword keyword)
    (h : Text.upper token = keyword) (q : Qualifiers) (tokens : List Text) :
    qualifiers q 0 (token :: tokens) = qualifiers (qualifier q keyword tokens.head?).1
      (qualifier q keyword tokens.head?).2 tokens := by
  rw [qualifiers, if_neg fun e => hkeyword.2 (h.symm.trans (upper_singleton e)),
    qualifier_congr (h.trans hkeyword.1.symm)]

theorem qualifiers_keywords {token next keyword word : Text} (hkeyword : IsKeyword keyword)
    (hdefault : keyword ≠ "DEFAULT") (hword : IsKeyword word) (h : Text.upper token = keyword)
    (hnext : Text.upper next = word) (q : Qualifiers) (tokens : List Text) :
    qualifiers q 0 (token :: next :: tokens) = qualifiers (qualifier q keyword (some word)).1
      (qualifier q keyword (some word)).2 (next :: tokens) := by
  rw [qualifiers_keyword hkeyword h, List.head?_cons,
    qualifier_following (hnext.trans hword.1.symm) (hkeyword.1.symm ▸ hdefault)]

theorem qualifier_quiet {token : Text} (h : Text.upper token ∉ Attribute.leads) (q : Qualifiers)
    (following : Option Text) : qualifier q token following = (q, 0) := by
  simp only [Attribute.leads, List.mem_cons, List.not_mem_nil, or_false, not_or] at h
  obtain ⟨h₁, h₂, h₃, h₄, h₅, h₆, h₇, h₈, h₉, h₁₀, h₁₁, h₁₂, -⟩ := h
  unfold qualifier
  dsimp only
  simp only [*, false_and, or_self, if_false]

theorem qualifier_default (q : Qualifiers) (value : Text) :
    qualifier q "DEFAULT" (some value) = (Attribute.put q (.default value), 1) := by
  have hshown : (if some (Text.upper value) = (some "NULL" : Option Text) then
      (some "NULL" : Option Text) else some value) =
        some (if Text.upper value = "NULL" then ("NULL" : Text) else value) := by
    by_cases hnull : Text.upper value = "NULL"
    · rw [if_pos hnull]
      exact if_pos (congrArg some hnull)
    · rw [if_neg hnull]
      exact if_neg fun e => hnull (Option.some.inj e)
  exact congrArg (fun value => ({ q with default := value }, 1)) hshown

theorem qualifier_autoIncrement {rest : List Text} (h : Afresh rest) (q : Qualifiers) :
    qualifier q "AUTO_INCREMENT" rest.head? = (Attribute.put q .autoIncrement, 0) := by
  have hnext : rest.head?.map Text.upper ≠ some "=" := by
    intro e
    obtain ⟨token, htoken, hupper⟩ := Option.map_eq_some_iff.mp e
    exact h token htoken hupper
  exact congrArg (Prod.mk _) (if_neg hnext)

/-- An attribute is read, and the tokens behind it are read afresh. -/
theorem Attribute.Spelled.read {a : Attribute} {tokens : List Text} (h : a.Spelled tokens)
    (q : Qualifiers) {rest : List Text} (hrest : Afresh rest) :
    qualifiers q 0 (tokens ++ rest) = qualifiers (a.put q) 0 rest := by
  obtain ⟨⟨words, hwords, rfl⟩, hother⟩ := h
  cases a with
  | unsigned =>
    obtain ⟨w, rfl, hw⟩ := exists_of_map_upper (List.mem_singleton.mp hwords)
    exact qualifiers_keyword (by decide) hw q rest
  | nullable can =>
    cases can with
    | true =>
      obtain ⟨w, rfl, hw⟩ := exists_of_map_upper (List.mem_singleton.mp hwords)
      exact qualifiers_keyword (by decide) hw q rest
    | false =>
      obtain ⟨w, v, rfl, hw, hv⟩ := exists_of_map_upper_two (List.mem_singleton.mp hwords)
      exact qualifiers_keywords (by decide) (by decide) (by decide) hw hv q rest
  | characterSet name =>
    simp only [forms, List.mem_cons, List.not_mem_nil, or_false] at hwords
    rcases hwords with hwords | hwords | hwords
    · obtain ⟨w, v, rfl, hw, hv⟩ := exists_of_map_upper_two hwords
      exact qualifiers_keywords (by decide) (by decide) (by decide) hw hv q (name :: rest)
    · obtain ⟨w, v, rfl, hw, hv⟩ := exists_of_map_upper_two hwords
      exact qualifiers_keywords (by decide) (by decide) (by decide) hw hv q (name :: rest)
    · obtain ⟨w, rfl, hw⟩ := exists_of_map_upper hwords
      exact qualifiers_keyword (by decide) hw q (name :: rest)
  | collate name =>
    obtain ⟨w, rfl, hw⟩ := exists_of_map_upper (List.mem_singleton.mp hwords)
    exact qualifiers_keyword (by decide) hw q (name :: rest)
  | comment text =>
    obtain ⟨w, rfl, hw⟩ := exists_of_map_upper (List.mem_singleton.mp hwords)
    exact qualifiers_keyword (by decide) hw q (text :: rest)
  | default value =>
    obtain ⟨w, rfl, hw⟩ := exists_of_map_upper (List.mem_singleton.mp hwords)
    refine (qualifiers_keyword (by decide) hw q (value :: rest)).trans ?_
    rw [List.head?_cons, qualifier_default]
    rfl
  | autoIncrement =>
    obtain ⟨w, rfl, hw⟩ := exists_of_map_upper (List.mem_singleton.mp hwords)
    refine (qualifiers_keyword (by decide) hw q rest).trans ?_
    rw [qualifier_autoIncrement hrest]
  | onUpdate value =>
    obtain ⟨w, v, rfl, hw, hv⟩ := exists_of_map_upper_two (List.mem_singleton.mp hwords)
    exact qualifiers_keywords (by decide) (by decide) (by decide) hw hv q (value :: rest)
  | primaryKey =>
    obtain ⟨w, v, rfl, hw, hv⟩ := exists_of_map_upper_two (List.mem_singleton.mp hwords)
    exact qualifiers_keywords (by decide) (by decide) (by decide) hw hv q rest
  | other token =>
    obtain rfl := List.map_eq_nil_iff.mp (List.mem_singleton.mp hwords)
    obtain ⟨hquiet, -⟩ := hother token rfl
    show qualifiers q 0 (token :: rest) = qualifiers q 0 rest
    have hcomma : token ≠ "," := fun e => hquiet (upper_singleton e ▸ by decide)
    rw [qualifiers, if_neg hcomma, qualifier_quiet hquiet]

/-- An attribute has a first token, which goes on with no keyword and opens no group. -/
theorem Attribute.Spelled.first {a : Attribute} {tokens : List Text} (h : a.Spelled tokens) :
    ∃ token more, tokens = token :: more ∧ Text.upper token ≠ "=" ∧ ∀ r, token ≠ '(' :: r := by
  obtain ⟨⟨words, hwords, rfl⟩, hother⟩ := h
  cases words with
  | nil =>
    cases a with
    | other token =>
      obtain ⟨hquiet, hopen⟩ := hother token rfl
      exact ⟨token, [], rfl, fun e => hquiet (e ▸ by decide), hopen⟩
    | nullable can => cases can <;> simp [forms] at hwords
    | _ => simp [forms] at hwords
  | cons w words =>
    have hheads : (a.forms.all fun form =>
        form.head? ≠ some "=" && (form.head?.bind List.head?) ≠ some '(') = true := by
      cases a with
      | nullable can => cases can <;> rfl
      | _ => rfl
    have hhead := List.all_eq_true.mp hheads _ hwords
    rw [Bool.and_eq_true, decide_eq_true_eq, decide_eq_true_eq] at hhead
    refine ⟨w, _, rfl, fun e => hhead.1 (congrArg some e), ?_⟩
    rintro r rfl
    exact hhead.2 rfl

theorem Spelling.first {attributes : List Attribute} {tokens : List Text}
    (h : Spelling attributes tokens) : tokens = [] ∨
      ∃ token more, tokens = token :: more ∧ Text.upper token ≠ "=" ∧ ∀ r, token ≠ '(' :: r := by
  cases h with
  | nil => exact Or.inl rfl
  | cons ha h =>
    obtain ⟨token, more, rfl, hfirst⟩ := ha.first
    exact Or.inr ⟨token, _, rfl, hfirst⟩

theorem Spelling.afresh {attributes : List Attribute} {tokens rest : List Text}
    (h : Spelling attributes tokens) (hrest : Afresh rest) : Afresh (tokens ++ rest) := by
  rcases h.first with rfl | ⟨token, more, rfl, hequals, -⟩
  · exact hrest
  · intro token' htoken
    obtain rfl := Option.some.inj htoken
    exact hequals

/-- Attributes are read one after another. -/
theorem Spelling.read {attributes : List Attribute} {tokens rest : List Text}
    (h : Spelling attributes tokens) (hrest : Afresh rest) (q : Qualifiers) :
    qualifiers q 0 (tokens ++ rest) = qualifiers (attributes.foldl Attribute.put q) 0 rest := by
  induction h generalizing q with
  | nil => rfl
  | cons ha h ih => rw [List.append_assoc, ha.read q (h.afresh hrest), ih, List.foldl_cons]

/-! ## 3. What attributes say -/

namespace Attribute

def nullable? : Attribute → Option Bool
  | nullable can => some can
  | _ => none

def default? : Attribute → Option Text
  | default value => some (if Text.upper value = "NULL" then "NULL" else value)
  | _ => none

/-- Whether no two attributes contradict each other. -/
structure Consistent (attributes : List Attribute) : Prop where
  nullable : ∀ can other, .nullable can ∈ attributes → .nullable other ∈ attributes → can = other
  default : ∀ value other, .default value ∈ attributes → .default other ∈ attributes → value = other

variable {α : Type} {says? : Attribute → Option α} {attributes order : List Attribute}

/-- Whether all attributes that say something say the same. -/
def Agree (says? : Attribute → Option α) (attributes : List Attribute) : Prop :=
  ∀ a ∈ attributes, ∀ b ∈ attributes, ∀ x y, says? a = some x → says? b = some y → x = y

theorem Consistent.agree_nullable (h : Consistent attributes) : Agree nullable? attributes := by
  intro a ha b hb x y hx hy
  cases a <;> cases hx
  cases b <;> cases hy
  exact h.nullable _ _ ha hb

theorem Consistent.agree_default (h : Consistent attributes) : Agree default? attributes := by
  intro a ha b hb x y hx hy
  cases a <;> cases hx
  cases b <;> cases hy
  rw [h.default _ _ ha hb]

-- Where all say the same, the last to say something says what the first one says.
theorem Agree.findSome?_reverse (h : Agree says? attributes) (horder : order.Perm attributes) :
    order.reverse.findSome? says? = attributes.findSome? says? := by
  cases hfirst : attributes.findSome? says? with
  | none =>
    rw [List.findSome?_eq_none_iff] at hfirst ⊢
    exact fun a ha => hfirst a (horder.mem_iff.mp (List.mem_reverse.mp ha))
  | some x =>
    obtain ⟨a, ha, hx⟩ := List.exists_of_findSome?_eq_some hfirst
    cases hlast : order.reverse.findSome? says? with
    | none =>
      rw [List.findSome?_eq_none_iff] at hlast
      rw [hlast a (List.mem_reverse.mpr (horder.mem_iff.mpr ha))] at hx
      cases hx
    | some y =>
      obtain ⟨b, hb, hy⟩ := List.exists_of_findSome?_eq_some hlast
      exact congrArg some (h b (horder.mem_iff.mp (List.mem_reverse.mp hb)) a ha y x hy hx)

/-- What is known of a field is what the last attribute on it says. -/
theorem foldl_says (attributes : List Attribute) (field : Qualifiers → Option α)
    (says? : Attribute → Option α) (hput : ∀ q a, field (put q a) = (says? a).or (field q))
    (q : Qualifiers) :
    field (attributes.foldl put q) = (attributes.reverse.findSome? says?).or (field q) := by
  induction attributes generalizing q with
  | nil => rfl
  | cons a attributes ih =>
    rw [List.foldl_cons, ih, hput, List.reverse_cons, List.findSome?_append]
    cases attributes.reverse.findSome? says? <;> simp

theorem foldl_flag (attributes : List Attribute) (field : Qualifiers → Bool) (flag : Attribute)
    (hput : ∀ q a, field (put q a) = (field q || decide (a = flag))) (q : Qualifiers) :
    field (attributes.foldl put q) = (field q || decide (flag ∈ attributes)) := by
  induction attributes generalizing q with
  | nil => simp
  | cons a attributes ih =>
    rw [List.foldl_cons, ih, hput, Bool.or_assoc]
    simp [List.mem_cons, eq_comm]

/-- Whatever their order, attributes that do not contradict each other say the same. -/
theorem Consistent.foldl_put (h : Consistent attributes) (horder : order.Perm attributes) :
    order.foldl put {} =
      { unsigned := decide (.unsigned ∈ attributes)
        nullable := attributes.findSome? nullable?
        default := attributes.findSome? default?
        autoIncrement := decide (.autoIncrement ∈ attributes)
        primary := decide (.primaryKey ∈ attributes) } := by
  have eta : ∀ q : Qualifiers,
      q = ⟨q.unsigned, q.nullable, q.default, q.autoIncrement, q.primary⟩ := fun _ => rfl
  have hflag : ∀ flag, decide (flag ∈ order) = decide (flag ∈ attributes) := fun flag =>
    decide_eq_decide.mpr horder.mem_iff
  have hunsigned := foldl_flag order (·.unsigned) .unsigned (fun q a => by cases a <;> simp [put]) {}
  have hauto := foldl_flag order (·.autoIncrement) .autoIncrement
    (fun q a => by cases a <;> simp [put]) {}
  have hprimary := foldl_flag order (·.primary) .primaryKey
    (fun q a => by cases a <;> simp [put]) {}
  have hnullable := foldl_says order (·.nullable) nullable? (fun q a => by cases a <;> rfl) {}
  have hdefault := foldl_says order (·.default) default? (fun q a => by cases a <;> rfl) {}
  rw [Bool.false_or, hflag] at hunsigned hauto hprimary
  rw [Option.or_none, h.agree_nullable.findSome?_reverse horder] at hnullable
  rw [Option.or_none, h.agree_default.findSome?_reverse horder] at hdefault
  rw [eta (order.foldl put {}), hunsigned, hauto, hprimary, hnullable, hdefault]

end Attribute

/-! ## 4. The type in front, and what follows -/

variable {x : Text}

-- Arguments are read alike whatever follows them.
theorem argumentsRest?_of_some {mark : Option Char} {s u r : Text}
    (h : argumentsRest? mark s = some (u, r)) (x : Text) :
    argumentsRest? mark (s ++ x) = some (u, r ++ x) := by
  obtain ⟨hu, rfl⟩ := Enclosed.of_read h
  rw [List.append_assoc, List.cons_append, hu.read]

theorem arguments?_of_some {s u r : Text} (h : arguments? s = some (u, r)) (x : Text) :
    arguments? (s ++ x) = some (u, r ++ x) := by
  unfold arguments? at h
  split at h
  · rename_i t ht
    have htrim : Text.trimLeft (s ++ x) = '(' :: (t ++ x) := (Token.span_append ht x).2
    rw [arguments?, htrim]
    exact argumentsRest?_of_some h x
  · cases h

theorem arguments?_eq_none {s : Text} (h : ∀ r, Text.trimLeft s ≠ '(' :: r) :
    arguments? s = none := by
  unfold arguments?
  split
  · rename_i r hr
    exact absurd hr (h r)
  · rfl

/-- A type that goes to the end of a text goes no further in front of a break, unless a parenthesis
opens behind it. -/
theorem type?_whole {s name : Text} {arguments : Option Text}
    (h : type? s = some (name, arguments, [])) (hx : Breaks x)
    (hopen : ∀ r, Text.trimLeft x ≠ '(' :: r) : type? (s ++ x) = some (name, arguments, x) := by
  unfold type? at h ⊢
  rcases trimLeft_append_cases s x with ⟨c, t, hs, hsx⟩ | ⟨hs, -⟩
  · rw [hs] at h
    rw [hsx]
    dsimp only at h ⊢
    split at h
    · rename_i hc
      obtain ⟨htake, hdrop⟩ := Token.takeWhile_append hx stopsAtBreaks_isWord t
      rw [if_pos hc, htake, hdrop]
      split at h
      · rename_i a r harguments
        cases h
        rw [arguments?_of_some harguments x]
        rfl
      · simp only [Option.some.injEq, Prod.mk.injEq] at h
        obtain ⟨rfl, rfl, hrest⟩ := h
        rw [hrest, List.nil_append, arguments?_eq_none hopen]
    · cases h
  · rw [hs] at h
    cases h

/-- Whether a text is blank up to its end or to a comma. -/
def Ends (behind : Text) : Prop := ∀ c r, Text.trimLeft behind = c :: r → c = ','

theorem Ends.breaks {behind : Text} (h : Ends behind) : Breaks behind := by
  rintro c r rfl
  by_cases hc : isBlank c = true
  · simp [isBreaking, hc]
  · simp [isBreaking, h c r (Text.trimLeft_cons (by simpa using hc) r)]

-- Nothing is read behind a comma.
theorem Ends.read {behind : Text} (h : Ends behind) :
    Afresh (Token.all behind) ∧ ∀ q, qualifiers q 0 (Token.all behind) = q := by
  cases hbehind : Text.trimLeft behind with
  | nil =>
    have hall : Token.all behind = [] := by
      rw [Token.all_eq, hbehind]
      rfl
    rw [hall]
    exact ⟨fun _ h => absurd h (Option.some_ne_none _).symm, fun q => rfl⟩
  | cons c r =>
    obtain rfl := h c r hbehind
    rw [Token.all_comma hbehind]
    refine ⟨fun token htoken => ?_, fun q => rfl⟩
    obtain rfl := Option.some.inj htoken
    decide

theorem Ends.not_open {behind : Text} (h : Ends behind) (r : Text) :
    Text.trimLeft behind ≠ '(' :: r :=
  fun e => absurd (h '(' r e) (by decide)

namespace Written

variable {attributes : List Attribute} {text : Text}

theorem breaks (h : Written attributes text) (hx : Breaks x) : Breaks (text ++ x) := by
  obtain ⟨tokens, -, hspread⟩ := h
  exact hspread.breaks hx

-- No group opens where attributes may begin.
theorem not_open (h : Written attributes text) (hx : ∀ r, Text.trimLeft x ≠ '(' :: r) (r : Text) :
    Text.trimLeft (text ++ x) ≠ '(' :: r := by
  obtain ⟨tokens, hspelling, hspread⟩ := h
  intro e
  rcases hspelling.first with rfl | ⟨token, more, rfl, -, hopen⟩
  · cases hspread
    exact hx r e
  · cases hspread with
    | cons hne hgap ht hs =>
      rw [List.append_assoc, ht.trimLeft_append hgap] at e
      obtain ⟨c, t, rfl, -⟩ := ht.starts
      exact hopen t (congrArg (· :: t) (List.cons.inj e).1)

theorem afresh (h : Written attributes text) (hx : Breaks x) (hfresh : Afresh (Token.all x)) :
    Afresh (Token.all (text ++ x)) := by
  obtain ⟨tokens, hspelling, hspread⟩ := h
  rw [Token.all_spread hspread hx]
  exact hspelling.afresh hfresh

/-- Attributes are read, and what stands behind them is read afresh. -/
theorem read (h : Written attributes text) (hx : Breaks x) (hfresh : Afresh (Token.all x))
    (q : Qualifiers) : qualifiers q 0 (Token.all (text ++ x)) =
      qualifiers (attributes.foldl Attribute.put q) 0 (Token.all x) := by
  obtain ⟨tokens, hspelling, hspread⟩ := h
  rw [Token.all_spread hspread hx, hspelling.read hfresh]

end Written

/-! ## 5. Columns -/

/-- The column with a type and attributes. -/
def declared (name : Text) (arguments : Option Text) (attributes : List Attribute) : Column :=
  let datatype := Text.lower name
  let arguments := arguments.map tidyArguments
  let size := natOfDigits ((arguments.getD []).takeWhile isDigit)
  let default := attributes.findSome? Attribute.default?
  { type := typeText datatype arguments (decide (.unsigned ∈ attributes))
    datatype
    size
    length := if characterTypes.contains datatype then size else 0
    unsigned := decide (.unsigned ∈ attributes)
    nullable := (attributes.findSome? Attribute.nullable?).getD (default = some "NULL")
    default
    autoIncrement := decide (.autoIncrement ∈ attributes)
    primary := decide (.primaryKey ∈ attributes) }

/-- **Attributes may stand in any order.** A type and attributes that do not contradict each other
declare one column, in whatever order the attributes stand and in whatever case their keywords are,
and nothing behind a comma changes it. -/
theorem parse_attributes {type name text behind : Text} {arguments : Option Text}
    {attributes order : List Attribute} (htype : type? type = some (name, arguments, []))
    (hsize : (((arguments.map tidyArguments).getD []).takeWhile isDigit).length ≤ digitLimit)
    (hconsistent : Attribute.Consistent attributes) (horder : order.Perm attributes)
    (hwritten : Written order text) (hbehind : Ends behind) :
    parse (type ++ text ++ behind) = .ok (some (declared name arguments attributes)) := by
  have hread := type?_whole htype (hwritten.breaks hbehind.breaks)
    (hwritten.not_open hbehind.not_open)
  have hq : qualifiers {} 0 (Token.all (text ++ behind)) = order.foldl Attribute.put {} := by
    rw [hwritten.read hbehind.breaks hbehind.read.1, hbehind.read.2]
  unfold parse
  rw [List.append_assoc, hread]
  dsimp only
  rw [sizeOf, if_neg (Nat.not_lt.mpr hsize), hq, hconsistent.foldl_put horder]
  rfl

/-- Strings that hold keywords, a comma and a quote. -/
theorem parse_attributes_strings :
    let attributes : List Attribute :=
      [.nullable false, .default "'NULL, UNSIGNED'", .comment "'it''s'"]
    let order : List Attribute :=
      [.comment "'it''s'", .default "'NULL, UNSIGNED'", .nullable false]
    let text : Text := " comment 'it''s' DEFAULT 'NULL, UNSIGNED' not NULL"
    type? "varchar(9)" = some ("varchar".toList, some "9".toList, []) ∧
      Attribute.Consistent attributes ∧ order.Perm attributes ∧ Written order text ∧
      Ends ", UNSIGNED (" ∧ parse ("varchar(9)" ++ text ++ ", UNSIGNED (") = .ok (some {
        type := "varchar(9)"
        datatype := "varchar"
        size := 9
        length := 9
        default := some "'NULL, UNSIGNED'".toList }) := by
  intro attributes order text
  have htype : type? "varchar(9)" = some ("varchar".toList, some "9".toList, []) := by
    decide
  have hconsistent : Attribute.Consistent attributes := by
    constructor <;> intro x y hx hy <;> simp [attributes] at hx hy <;> rw [hx, hy]
  have horder : order.Perm attributes := by
    decide
  have hwritten : Written order text := by
    refine ⟨["comment", "'it''s'", "DEFAULT", "'NULL, UNSIGNED'", "not", "NULL"], ?_,
      Token.spread_spaced (by decide)⟩
    show Spelling order ((["comment", "'it''s'"] : List Text) ++
      ((["DEFAULT", "'NULL, UNSIGNED'"] : List Text) ++ ((["not", "NULL"] : List Text) ++ [])))
    exact .cons ⟨⟨["comment"], by decide, rfl⟩, nofun⟩ (.cons ⟨⟨["DEFAULT"], by decide, rfl⟩, nofun⟩
      (.cons ⟨⟨["not", "NULL"], by decide, rfl⟩, nofun⟩ .nil))
  have hbehind : Ends ", UNSIGNED (" := fun c r h => (List.cons.inj h).1.symm
  refine ⟨htype, hconsistent, horder, hwritten, hbehind, ?_⟩
  rw [parse_attributes htype (by decide) hconsistent horder hwritten hbehind]
  decide

end SqlDump.Column
