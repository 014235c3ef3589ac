import TextTemplate.Expr.Flat
import TextTemplate.Proofs.Expression.Lexing
import TextTemplate.Proofs.Expression.RoundTrip

/-!
# Values that their own text spells

The text of a truth value, of an integer or of a list of such values is an expression, and its
value is the value that is shown. There is one exception: a number is written with its sign in
front, which is read as an operator, and the digits of the least integer are too large for an
integer without it. A text in which it occurs has no tokens.

The items of a list are shown with a comma and a blank between them, and no blank stands in front of
a comma or a closing bracket; what matters for a number or a name is that neither of them goes on
with it (`Ended`).

## Main definitions

* `Value.Simple`, `Value.depth` — truth values, integers and lists of them, and how deep they nest.
* `Value.Mentions` — an integer that occurs in a value.
* `Value.toExpr` — the expression that a value is shown as.

## Main results

* `Value.lexesTo_display` — the tokens of a shown value.
* `Value.unlexable_display` — a value in which the least integer occurs has no tokens.
* `display_reads_back` — what becomes of a shown value that is evaluated.
-/

namespace TextTemplate

namespace Value

/-! ### Simple values -/

/-- The values that are built of truth values and integers as lists. -/
inductive Simple : Value → Prop
  | bool (b : Bool) : Simple (.bool b)
  | int (n : Int64) : Simple (.int n)
  | list {as : List Value} (items : ∀ a ∈ as, Simple a) : Simple (.list as)

/-- An integer occurs in a value. -/
inductive Mentions (n : Int64) : Value → Prop
  | int : Mentions n (.int n)
  | item {a : Value} {as : List Value} (mem : a ∈ as) (mentioned : Mentions n a) :
      Mentions n (.list as)

private theorem mentions_int_iff {n k : Int64} : Mentions n (.int k) ↔ k = n := by
  constructor
  · rintro ⟨⟩
    rfl
  · rintro rfl
    exact .int

private theorem not_mentions_bool (n : Int64) (b : Bool) : ¬ Mentions n (.bool b) := nofun

private theorem mentions_list_iff {n : Int64} {as : List Value} :
    Mentions n (.list as) ↔ ∃ a ∈ as, Mentions n a := by
  constructor
  · rintro (_ | ⟨hmem, hmentioned⟩)
    exact ⟨_, hmem, hmentioned⟩
  · rintro ⟨a, hmem, hmentioned⟩
    exact .item hmem hmentioned

mutual

/-- How deep the lists of a value nest. -/
def depth : Value → Nat
  | .list as => depthAll as + 1
  | _ => 0

/-- How deep the lists of the deepest of several values nest. -/
def depthAll : List Value → Nat
  | [] => 0
  | a :: as => max (depth a) (depthAll as)

end

/-- The expression that an integer is shown as. -/
def ofInt (n : Int64) : Expr :=
  if n.toInt < 0 then .unary .neg (.literal (.int (.ofInt (-n.toInt)))) else .literal (.int n)

mutual

/-- The expression that a simple value is shown as. -/
def toExpr : Value → Expr
  | .bool b => .literal (.bool b)
  | .int n => ofInt n
  | .list as => .list (toExprs as)
  | _ => .literal .null

/-- The expressions that simple values are shown as. -/
def toExprs : List Value → List Expr
  | [] => []
  | a :: as => toExpr a :: toExprs as

end

private theorem toExprs_eq_map (as : List Value) : toExprs as = as.map toExpr := by
  induction as with
  | nil => rfl
  | cons a as ih => rw [toExprs, ih, List.map_cons]

/-! ### The sign of an integer -/

/-- The number behind the sign of a negative integer, unless this is the least one. -/
theorem ofInt?_neg {n : Int64} (hnegative : n.toInt < 0) (h : n ≠ Int64.minValue) :
    Checked.ofInt? (-n.toInt) = some (.ofInt (-n.toInt)) := by
  have hlow := n.minValue_le_toInt
  have hleast : n.toInt ≠ Int64.minValue.toInt := fun heq => h (Int64.toInt_inj.1 heq)
  simp only [Int64.toInt_minValue] at hlow hleast
  rw [Checked.ofInt?, if_pos (by omega)]

private theorem toInt_ofInt_neg {n : Int64} (hnegative : n.toInt < 0) (h : n ≠ Int64.minValue) :
    (Int64.ofInt (-n.toInt)).toInt = -n.toInt :=
  Checked.toInt_of_ofInt? (ofInt?_neg hnegative h)

private theorem toList_toString_of_nonneg {n : Int} (h : 0 ≤ n) :
    (toString n).toList = Nat.toDigits 10 n.toNat := by
  obtain ⟨k, rfl⟩ := Int.eq_ofNat_of_zero_le h
  exact Nat.toList_repr

private theorem toList_toString_of_neg {n : Int} (h : n < 0) :
    (toString n).toList = '-' :: Nat.toDigits 10 (-n).toNat := by
  obtain ⟨k, rfl⟩ := Int.eq_negSucc_of_lt_zero h
  change ("-" ++ Nat.repr (k + 1)).toList = _
  rw [String.toList_append, Nat.toList_repr]
  rfl

/-! ### The tokens of a shown value -/

/-- The text of the items of a list behind the first. -/
def itemsText (as : List Value) : List Char :=
  as.flatMap fun a => ',' :: ' ' :: a.display.toList

private theorem toList_displayItems (before : String) (as : List Value) :
    (displayItems before as).toList = before.toList ++ itemsText as := by
  induction as generalizing before with
  | nil => simp [displayItems, itemsText]
  | cons a as ih => simp [displayItems, itemsText, ih]

/-- The text of a list with items, in front of the rest of a text. -/
theorem toList_display_list_append (a : Value) (as : List Value) (rest : List Char) :
    (display (.list (a :: as))).toList ++ rest =
      '[' :: (a.display.toList ++ (itemsText as ++ ']' :: rest)) := by
  simp [display, toList_displayItems]

end Value

namespace Expr

private theorem one_le_strength_toExpr (a : Value) : 1 ≤ a.toExpr.strength := by
  cases a with
  | int n => rw [Value.toExpr, Value.ofInt]; split <;> simp [strength]
  | _ => simp [Value.toExpr, strength]

private theorem printed_one_toExpr (a : Value) : printed 1 a.toExpr = core a.toExpr := by
  rw [printed, enclose, if_neg (Nat.not_lt.2 (one_le_strength_toExpr a))]

/-- The tokens of expressions with symbols between them: the symbol stands in front of all but the
first. -/
theorem separated_cons (sign : Symbol) (e : Expr) (es : List Expr) :
    separated sign (e :: es) =
      printed 1 e ++ es.flatMap fun f => .symbol sign :: printed 1 f := by
  induction es generalizing e with
  | nil => simp [separated, printed]
  | cons f es ih =>
    rw [separated, ih f, List.flatMap_cons, List.cons_append]
    rfl

end Expr

namespace Value

open TextTemplate.Expr

private theorem ended_comma (cs : List Char) : Ended (',' :: cs) := by
  rintro _ ⟨⟩
  decide

private theorem ended_closeBracket (cs : List Char) : Ended (']' :: cs) := by
  rintro _ ⟨⟩
  decide

/-- A symbol that is not the beginning of another one. -/
theorem lexesTo_symbol (rest : List Char) {c : Char} {s : Symbol}
    (h : s = .openBracket ∨ s = .closeBracket ∨ s = .comma) (hc : s.chars = [c]) :
    LexesTo rest (c :: rest) [.symbol s] := by
  rcases h with rfl | rfl | rfl <;> cases hc <;> exact .of_ofCons rfl rfl

private theorem lexesTo_name {name : String} (hisName : IsName name) {rest : List Char}
    (h : Ended rest) : LexesTo rest (name.toList ++ rest) [.ident name] := by
  obtain ⟨c, cs, hname, hnoBlank, hreading⟩ := Reading.ofCons_name hisName h
  rw [hname]
  exact .of_ofCons hnoBlank hreading

private theorem lexesTo_digits {k : Nat} {n : Int64} (hn : Checked.ofInt? k = some n)
    {rest : List Char} (h : Ended rest) : LexesTo rest (Nat.toDigits 10 k ++ rest) [.int n] := by
  obtain ⟨c, cs, hdigits, hdigit, hreading⟩ := Reading.ofCons_digits k h
  rw [hn] at hreading
  rw [hdigits]
  exact .of_ofCons (isBlank_of_isDigit hdigit) hreading

/-- A minus sign in front of digits is a token of its own. -/
theorem ofCons_minus {k : Nat} (rest : List Char) :
    Reading.ofCons '-' (Nat.toDigits 10 k ++ rest) =
      ⟨.ok (.symbol .minus), ['-'], Nat.toDigits 10 k ++ rest⟩ := by
  have hdigits : ∀ c ∈ Nat.toDigits 10 k, c.isDigit = true :=
    fun c => Nat.isDigit_of_mem_toDigits (by decide) (by decide)
  cases hd : Nat.toDigits 10 k with
  | nil => exact (Nat.toDigits_ne_nil hd).elim
  | cons c cs =>
    have hnoSign : c ≠ '=' := by
      rintro rfl
      cases hdigits '=' (hd ▸ List.mem_cons_self)
    have hstarts : Symbol.atStart? ('-' :: (c :: cs ++ rest)) = some .minus := by
      simp [Symbol.atStart?, Symbol.all, Symbol.chars, List.isPrefixOf, hnoSign.symm]
    rw [Reading.ofCons, if_neg (by decide), if_neg (by decide), if_neg (by decide), hstarts]
    rfl

private theorem lexesTo_display_int {n : Int64} (h : n ≠ Int64.minValue) {rest : List Char}
    (hrest : Ended rest) :
    LexesTo rest ((display (.int n)).toList ++ rest) (core (ofInt n)) := by
  rw [display, ofInt]
  split
  · next hnegative =>
    rw [toList_toString_of_neg hnegative]
    have hdigits := lexesTo_digits (k := (-n.toInt).toNat) (by
      rw [Int.toNat_of_nonneg (by omega)]
      exact ofInt?_neg hnegative h) hrest
    exact .trans (.of_ofCons rfl (ofCons_minus rest)) hdigits
  · next hnonneg =>
    rw [toList_toString_of_nonneg (by omega)]
    refine lexesTo_digits ?_ hrest
    rw [Int.toNat_of_nonneg (by omega)]
    exact Checked.ofInt?_toInt n

/-- What stands behind an item of a list does not go on with it. -/
theorem ended_itemsText (as : List Value) (rest : List Char) :
    Ended (itemsText as ++ ']' :: rest) := by
  cases as with
  | nil => exact ended_closeBracket rest
  | cons a as => exact ended_comma _

private theorem lexesTo_itemsText {as : List Value}
    (h : ∀ a ∈ as, ∀ rest, Ended rest →
      LexesTo rest (a.display.toList ++ rest) (core a.toExpr)) (rest : List Char) :
    LexesTo (']' :: rest) (itemsText as ++ ']' :: rest)
      ((as.map toExpr).flatMap fun e => .symbol .comma :: printed 1 e) := by
  induction as with
  | nil => exact .here
  | cons a as ih =>
    rw [List.forall_mem_cons] at h
    have hcomma := lexesTo_symbol (' ' :: (a.display.toList ++ (itemsText as ++ ']' :: rest)))
      (.inr (.inr rfl)) (rfl : Symbol.comma.chars = [','])
    have hfirst := h.1 _ (ended_itemsText as rest)
    rw [List.map_cons, List.flatMap_cons, printed_one_toExpr]
    simpa [itemsText] using hcomma.trans (.blank rfl (hfirst.trans (ih h.2)))

/-- The text of a simple value in which the least integer does not occur is read into the tokens
of its expression. -/
theorem lexesTo_display {a : Value} (hsimple : a.Simple) (h : ¬ a.Mentions Int64.minValue)
    (rest : List Char) (hrest : Ended rest) :
    LexesTo rest (a.display.toList ++ rest) (core a.toExpr) := by
  induction hsimple generalizing rest with
  | bool b =>
    cases b with
    | false => exact lexesTo_name isName_false hrest
    | true => exact lexesTo_name isName_true hrest
  | int n => exact lexesTo_display_int (fun heq => h (heq ▸ .int)) hrest
  | @list as _ ih =>
    have hitems (a : Value) (hmem : a ∈ as) : ¬ a.Mentions Int64.minValue :=
      fun hmentioned => h (.item hmem hmentioned)
    have hclose : LexesTo rest (']' :: rest) [.symbol .closeBracket] :=
      lexesTo_symbol rest (.inr (.inl rfl)) rfl
    rw [toExpr, toExprs_eq_map, core]
    cases as with
    | nil => exact .trans (lexesTo_symbol (']' :: rest) (.inl rfl) rfl) hclose
    | cons a as =>
      have hfirst := ih a List.mem_cons_self (hitems a List.mem_cons_self) _
        (ended_itemsText as rest)
      have hothers := lexesTo_itemsText (fun b hmem => ih b (List.mem_cons_of_mem _ hmem)
        (hitems b (List.mem_cons_of_mem _ hmem))) rest
      rw [List.map_cons, separated_cons, printed_one_toExpr, toList_display_list_append]
      exact .trans (lexesTo_symbol _ (.inl rfl) rfl) ((hfirst.trans hothers).trans hclose)

/-- The reason why the digits of the least integer are not read. -/
def tooLarge : String :=
  "number too large to fit in target type"

private theorem unlexable_display_minValue {rest : List Char} (hrest : Ended rest) :
    Unlexable tooLarge ((display (.int Int64.minValue)).toList ++ rest) := by
  obtain ⟨c, cs, hdigits, hdigit, hreading⟩ := Reading.ofCons_digits 9223372036854775808 hrest
  have hminus := ofCons_minus (k := 9223372036854775808) rest
  rw [display, toList_toString_of_neg (by decide)]
  refine .of_token (t := .symbol .minus) rfl (congrArg Reading.token hminus) ?_
  change Unlexable tooLarge (Reading.ofCons '-' (Nat.toDigits 10 9223372036854775808 ++ rest)).rest
  rw [hminus, hdigits]
  exact unlexable_of_ofCons (isBlank_of_isDigit hdigit) (congrArg Reading.token hreading)

/-- An item, or one behind it, has no tokens. -/
theorem unlexable_items {a : Value} {as : List Value} {rest : List Char} (hsimple : a.Simple)
    (hhere : a.Mentions Int64.minValue →
      Unlexable tooLarge (a.display.toList ++ (itemsText as ++ ']' :: rest)))
    (hlater : (∃ b ∈ as, b.Mentions Int64.minValue) →
      Unlexable tooLarge (itemsText as ++ ']' :: rest))
    (h : ∃ b ∈ a :: as, b.Mentions Int64.minValue) :
    Unlexable tooLarge (a.display.toList ++ (itemsText as ++ ']' :: rest)) := by
  by_cases hmentioned : a.Mentions Int64.minValue
  · exact hhere hmentioned
  · obtain ⟨b, hmem, hb⟩ := h
    obtain rfl | hmem := List.mem_cons.1 hmem
    · exact (hmentioned hb).elim
    · exact (lexesTo_display hsimple hmentioned _ (ended_itemsText as rest)).unlexable
        (hlater ⟨b, hmem, hb⟩)

private theorem unlexable_itemsText {as : List Value} (hsimple : ∀ a ∈ as, a.Simple)
    (h : ∀ a ∈ as, a.Mentions Int64.minValue → ∀ rest, Ended rest →
      Unlexable tooLarge (a.display.toList ++ rest)) (rest : List Char)
    (hmentioned : ∃ a ∈ as, a.Mentions Int64.minValue) :
    Unlexable tooLarge (itemsText as ++ ']' :: rest) := by
  induction as with
  | nil => simp at hmentioned
  | cons a as ih =>
    rw [List.forall_mem_cons] at hsimple h
    have hitems := unlexable_items hsimple.1 (fun ha => h.1 ha _ (ended_itemsText as rest))
      (ih hsimple.2 h.2) hmentioned
    have hcomma := lexesTo_symbol (' ' :: (a.display.toList ++ (itemsText as ++ ']' :: rest)))
      (.inr (.inr rfl)) (rfl : Symbol.comma.chars = [','])
    simpa [itemsText] using hcomma.unlexable (.of_blank rfl hitems)

/-- A simple value in which the least integer occurs is shown as a text that has no tokens. -/
theorem unlexable_display {a : Value} (hsimple : a.Simple) (h : a.Mentions Int64.minValue)
    (rest : List Char) (hrest : Ended rest) :
    Unlexable tooLarge (a.display.toList ++ rest) := by
  induction hsimple generalizing rest with
  | bool b => cases h
  | int n =>
    cases h
    exact unlexable_display_minValue hrest
  | @list as hsimple ih =>
    rw [mentions_list_iff] at h
    cases as with
    | nil => simp at h
    | cons a as =>
      rw [List.forall_mem_cons] at hsimple ih
      rw [toList_display_list_append]
      refine (lexesTo_symbol _ (.inl rfl) rfl).unlexable ?_
      exact unlexable_items hsimple.1 (fun ha => ih.1 ha _ (ended_itemsText as rest))
        (unlexable_itemsText hsimple.2 ih.2 rest) h

/-! ### The expression of a shown value -/

/-- The expression that a simple value is shown as can be read back. -/
theorem Simple.plain {a : Value} (hsimple : a.Simple) (h : ¬ a.Mentions Int64.minValue) :
    Plain a.toExpr := by
  induction hsimple with
  | bool b => exact .literal trivial
  | int n =>
    rw [toExpr, ofInt]
    split
    · next hnegative =>
      have hleast : n ≠ Int64.minValue := fun heq => h (heq ▸ .int)
      refine .unary (.literal (l := .int _) ?_)
      change 0 ≤ (Int64.ofInt (-n.toInt)).toInt
      rw [toInt_ofInt_neg hnegative hleast]
      omega
    · next hnonneg => exact .literal (l := .int n) (Int.not_lt.1 hnonneg)
  | list _ ih =>
    rw [toExpr, toExprs_eq_map]
    refine .list fun e he => ?_
    obtain ⟨a, hmem, rfl⟩ := List.mem_map.1 he
    exact ih a hmem fun hmentioned => h (.item hmem hmentioned)

mutual

/-- A sign counts as one more level than the lists around it. -/
theorem coreNesting_toExpr_le : ∀ a : Value, coreNesting 0 a.toExpr ≤ a.depth + 1
  | .bool _ => Nat.zero_le _
  | .int n => by
    rw [toExpr, ofInt]
    split
    · exact Nat.le_refl 1
    · exact Nat.zero_le _
  | .list as => by
    rw [toExpr, coreNesting, depth]
    split
    · exact Nat.zero_le _
    · exact Nat.succ_le_succ (deepest_toExprs_le as)
  | .null | .float _ | .string _ | .map _ | .block .. => Nat.zero_le _

theorem deepest_toExprs_le : ∀ as : List Value, deepest 0 (toExprs as) ≤ depthAll as + 1
  | [] => Nat.zero_le _
  | a :: as => by
    have first : nesting 0 1 a.toExpr = coreNesting 0 a.toExpr :=
      nesting_of_le (one_le_strength_toExpr a)
    have shallow := coreNesting_toExpr_le a
    have others := deepest_toExprs_le as
    rw [nesting] at first
    rw [toExprs, deepest, depthAll, first]
    omega

end

section Evaluation

variable {m : Type → Type} [Monad m] [LawfulMonad m]

private theorem evalAll_map_toExpr {env : Environment m} {as : List Value}
    (h : ∀ a ∈ as, a.toExpr.eval env = pure a) : evalAll env (as.map toExpr) = pure as := by
  induction as with
  | nil => rw [List.map_nil, evalAll]
  | cons a as ih =>
    rw [List.forall_mem_cons] at h
    rw [List.map_cons, evalAll, h.1, pure_bind, ih h.2, pure_bind]

/-- The expression that a simple value is shown as has this value in every environment, which is
not asked for anything. -/
theorem Simple.eval_toExpr {a : Value} (hsimple : a.Simple) (h : ¬ a.Mentions Int64.minValue)
    (env : Environment m) : a.toExpr.eval env = pure a := by
  induction hsimple with
  | bool b => rw [toExpr, eval]; rfl
  | int n =>
    rw [toExpr, ofInt]
    split
    · next hnegative =>
      have hleast : n ≠ Int64.minValue := fun heq => h (heq ▸ .int)
      have hback : Checked.neg? (.ofInt (-n.toInt)) = some n := by
        rw [Checked.neg?, toInt_ofInt_neg hnegative hleast, Int.neg_neg, Checked.ofInt?_toInt]
      rw [eval, eval, pure_bind, Literal.value, UnaryOp.apply, hback]
      rfl
    · rw [eval]; rfl
  | @list as _ ih =>
    have hitems : ∀ a ∈ as, a.toExpr.eval env = pure a :=
      fun a hmem => ih a hmem fun hmentioned => h (.item hmem hmentioned)
    rw [toExpr, toExprs_eq_map, eval, evalAll_map_toExpr hitems, pure_bind]

end Evaluation

/-- The text of a simple value without the least integer spells its expression, if its lists nest
at most 126 deep. -/
theorem Simple.parse_display {a : Value} (hsimple : a.Simple) (h : ¬ a.Mentions Int64.minValue)
    (hshallow : a.depth ≤ 126) : parse a.display = .ok a.toExpr := by
  have hlexes : Lexes a.display.toList (core a.toExpr) := by
    simpa using (lexesTo_display hsimple h [] nofun).lexes .nil
  have hfits : nesting 0 0 a.toExpr < maxNesting := by
    rw [nesting_zero]
    exact Nat.lt_of_le_of_lt (coreNesting_toExpr_le a) (by rw [maxNesting]; omega)
  obtain ⟨lexemes, hlex, htokens⟩ := lexes_iff.1 hlexes
  obtain ⟨es, heq, hphrases⟩ := (Printable.single (hsimple.plain h)).statements hfits
  rw [printed_zero, ← htokens] at hphrases
  exact parse_eq_ok_iff.2 ⟨lexemes, es, hlex, hphrases, heq.symm⟩

/-- The text of a simple value with the least integer is refused for the digits of that integer. -/
theorem Simple.exists_parse_display_eq_error {a : Value} (hsimple : a.Simple)
    (h : a.Mentions Int64.minValue) :
    ∃ place, parse a.display = .error (.malformed place tooLarge) := by
  obtain ⟨place, hlex⟩ := unlexable_display hsimple h [] nofun 0
  rw [List.append_nil] at hlex
  exact ⟨place, by rw [parse, lex, hlex]; rfl⟩

end Value

/-- The text that is shown for truth values, integers and lists of them, nested at most 126 deep, is
evaluated to the value that was shown, and nothing is asked of the environment. If the least integer
occurs in the value, the text has no value: the digits are too large for a number. -/
theorem display_reads_back {m : Type → Type} [Monad m] [LawfulMonad m] (env : Environment m)
    {a : Value} (hsimple : a.Simple) (hshallow : a.depth ≤ 126) :
    (¬ a.Mentions Int64.minValue → evaluateText env a.display = pure a) ∧
      (a.Mentions Int64.minValue → ∃ place, evaluateText env a.display =
        throw (.malformed place "number too large to fit in target type")) := by
  constructor
  · intro h
    rw [evaluateText, hsimple.parse_display h hshallow]
    exact (pure_bind a.toExpr _).trans (hsimple.eval_toExpr h env)
  · intro h
    obtain ⟨place, hparse⟩ := hsimple.exists_parse_display_eq_error h
    refine ⟨place, ?_⟩
    have hstops : (throw (.malformed place "number too large to fit in target type") :
        ExceptT EvalError m Expr) >>= (fun e => e.eval env) =
          throw (.malformed place "number too large to fit in target type") :=
      ExceptT.ext (by simp)
    rw [evaluateText, hparse]
    exact hstops

/-- A list of lists with negative numbers, both ends of what is read back among them. -/
theorem display_reads_back_nested :
    let a : Value := .list [.int (-9223372036854775807), .list [.bool true, .list []],
      .int 9223372036854775807]
    a.Simple ∧ a.depth ≤ 126 ∧ ¬ a.Mentions Int64.minValue ∧
      evaluateText (Environment.flat Environment.refuseCalls) a.display = pure a := by
  intro a
  have hsimple : a.Simple :=
    .list (by simpa using ⟨.int _, .list (by simpa using ⟨.bool _, .list nofun⟩), .int _⟩)
  have habsent : ¬ a.Mentions Int64.minValue := by
    simp only [a, Value.mentions_list_iff, List.mem_cons, List.not_mem_nil, or_false,
      exists_eq_or_imp, exists_eq_left, Value.mentions_int_iff, Value.not_mentions_bool, false_and,
      exists_false]
    decide
  exact ⟨hsimple, by decide, habsent, (display_reads_back _ hsimple (by decide)).1 habsent⟩

/-- The least integer is not read back from the text that is shown for it. -/
theorem exists_display_not_read_back :
    (Value.int Int64.minValue).Simple ∧ (Value.int Int64.minValue).depth ≤ 126 ∧
      ∃ place, ∀ vars : Bindings Value,
        (evaluateText (Environment.flat Environment.refuseCalls)
          (Value.int Int64.minValue).display).run.run vars =
            (.error (.malformed place "number too large to fit in target type"), vars) := by
  obtain ⟨place, hparse⟩ := (Value.Simple.int Int64.minValue).exists_parse_display_eq_error .int
  refine ⟨.int _, by decide, place, fun vars => ?_⟩
  rw [evaluateText, hparse]
  rfl

end TextTemplate
