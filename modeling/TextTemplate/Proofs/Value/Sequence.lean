import TextTemplate.Proofs.Value.Arithmetic

/-!
# Strings and lists

A string is a sequence of characters and a list one of values. Both have a size, elements at the
places from zero on, and a sum. These go together: the places below the size are those where there
is an element, the sum of the elements is the sequence, and in a sum of two sequences the places of
the second stand behind those of the first.

## Main definitions

* `SequenceKind`: strings and lists, with what the two have in common.
* `sumTo`: a sum of expressions.

## Main results

* `Expr.Yields.run_size`, `Expr.Yields.run_element`: the size of a sequence, and an element or the
  error for its place.
* `Expr.Yields.sum_elements`: a sequence is the sum of its elements.
* `sequences_agree`: sizes, elements and sums of strings and lists.
-/

namespace TextTemplate

open Checked

/-- Strings and lists. -/
inductive SequenceKind where
  | string
  | list

namespace SequenceKind

/-- What the elements are. -/
def Item : SequenceKind → Type
  | string => Char
  | list => Value

/-- The value that is the sequence of these elements. -/
def value : (kind : SequenceKind) → List kind.Item → Value
  | string, cs => .string (String.ofList cs)
  | list, items => .list items

/-- An element as a value. -/
def element : (kind : SequenceKind) → kind.Item → Value
  | string, c => .string (String.singleton c)
  | list, item => item

/-- An expression for the sequence that has one element, from an expression for the element. -/
def alone : SequenceKind → Expr → Expr
  | string, e => e
  | list, e => .list [e]

private theorem select_size_string (cs : List Char) :
    (Value.string (String.ofList cs)).select "size" = Value.ofChecked (ofInt? cs.length) := by
  change Value.ofChecked (ofInt? (String.ofList cs).length) = _
  rw [String.length_ofList]

private theorem select_size (kind : SequenceKind) (xs : List kind.Item) :
    (kind.value xs).select "size" = Value.ofChecked (ofInt? xs.length) := by
  cases kind with
  | string => exact select_size_string xs
  | list => rfl

private theorem index_string (cs : List Char) (i : Int64) :
    (Value.string (String.ofList cs)).index (.int i) =
      ((Value.place? i).bind fun place => cs[place]?).elim
        (.error (.outOfBounds i cs.length)) fun c => .ok (.string (String.singleton c)) := by
  have hchars : charAt? (String.ofList cs) = fun place => cs[place]? := by
    funext place
    rw [charAt?_eq_getElem?, String.toList_ofList]
  rw [Value.index, hchars, String.length_ofList]
  cases (Value.place? i).bind fun place => cs[place]? <;> rfl

private theorem index_list (items : List Value) (i : Int64) :
    (Value.list items).index (.int i) =
      ((Value.place? i).bind fun place => items[place]?).elim
        (.error (.outOfBounds i items.length)) .ok := by
  rw [Value.index]
  cases (Value.place? i).bind fun place => items[place]? <;> rfl

private theorem index (kind : SequenceKind) (xs : List kind.Item) (i : Int64) :
    (kind.value xs).index (.int i) =
      ((Value.place? i).bind fun place => xs[place]?).elim
        (.error (.outOfBounds i xs.length)) fun x => .ok (kind.element x) := by
  cases kind with
  | string => exact index_string xs i
  | list => exact index_list xs i

private theorem add_string (cs ds : List Char) :
    (Value.string (String.ofList cs)).add (.string (String.ofList ds)) =
      .ok (.string (String.ofList (cs ++ ds))) := by
  rw [String.ofList_append]
  rfl

private theorem add (kind : SequenceKind) (xs ys : List kind.Item) :
    (kind.value xs).add (kind.value ys) = .ok (kind.value (xs ++ ys)) := by
  cases kind with
  | string => exact add_string xs ys
  | list => rfl

end SequenceKind

/-! ### Expressions for sequences -/

/-- The sum of these expressions, up to the last. -/
def sumTo (part : Nat → Expr) : Nat → Expr
  | 0 => part 0
  | last + 1 => .binary .add (sumTo part last) (part (last + 1))

section Expressions

variable {σ : Type} {env : Environment (StateM σ)} {s : σ}

/-- An expression whose evaluation is known has the value that is the outcome, if it is one. -/
theorem yields_iff {e : Expr} {result : Except EvalError Value} {value : Value}
    (h : (e.eval env).run.run s = (result, s)) : e.Yields env s value ↔ result = .ok value := by
  rw [Expr.Yields, h, Prod.mk.injEq]
  exact and_iff_left rfl

namespace Expr.Yields

variable {e f place : Expr} {kind : SequenceKind} {xs ys : List kind.Item} {i : Int64}

theorem run_size (he : e.Yields env s (kind.value xs)) :
    ((Expr.field e "size").eval env).run.run s = (Value.ofChecked (ofInt? xs.length), s) := by
  rw [eval, run_bind_of_fst_ok he, kind.select_size]
  rfl

theorem run_element (he : e.Yields env s (kind.value xs)) (hplace : place.Yields env s (.int i)) :
    ((Expr.index e place).eval env).run.run s =
      (((Value.place? i).bind fun place => xs[place]?).elim
        (.error (.outOfBounds i xs.length)) fun x => .ok (kind.element x), s) := by
  rw [eval, run_bind_of_fst_ok he, run_bind_of_fst_ok hplace, kind.index]
  rfl

private theorem plus (he : e.Yields env s (kind.value xs)) (hf : f.Yields env s (kind.value ys)) :
    (Expr.binary .add e f).Yields env s (kind.value (xs ++ ys)) := by
  rw [Yields, he.run_binary .add (by decide) hf]
  exact congrArg (·, s) (kind.add xs ys)

/-- The size of a sequence, where it has 64 bits. -/
theorem size_iff (he : e.Yields env s (kind.value xs)) {size : Int64} :
    (Expr.field e "size").Yields env s (.int size) ↔ size.toInt = xs.length := by
  rw [yields_iff he.run_size]
  constructor
  · intro h
    cases hfits : ofInt? xs.length with
    | none =>
      rw [hfits] at h
      cases h
    | some n =>
      rw [hfits] at h
      cases h
      exact toInt_of_ofInt? hfits
  · intro h
    rw [← h, ofInt?_toInt]
    rfl

/-- An element of a sequence. -/
theorem element_iff (he : e.Yields env s (kind.value xs)) (hplace : place.Yields env s (.int i))
    {value : Value} :
    (Expr.index e place).Yields env s value ↔
      0 ≤ i.toInt ∧ ∃ x, xs[i.toInt.toNat]? = some x ∧ kind.element x = value := by
  rw [yields_iff (he.run_element hplace), Value.place?]
  split_ifs with hnegative
  · refine iff_of_false ?_ fun h => absurd h.1 (not_le.2 hnegative)
    intro h
    cases h
  · rw [Option.bind_some]
    cases hfound : xs[i.toInt.toNat]? with
    | none =>
      refine iff_of_false ?_ ?_
      · intro h
        cases h
      · rintro ⟨-, x, h, -⟩
        cases h
    | some x => simp [not_lt.1 hnegative]

/-- A place where there is no element. -/
theorem element_outOfBounds (he : e.Yields env s (kind.value xs))
    (hplace : place.Yields env s (.int i)) (h : ¬(0 ≤ i.toInt ∧ i.toInt < xs.length)) :
    ((Expr.index e place).eval env).run.run s = (.error (.outOfBounds i xs.length), s) := by
  rw [he.run_element hplace, Value.place?]
  split_ifs with negative
  · rfl
  · rw [Option.bind_some, List.getElem?_eq_none (by omega)]
    rfl

/-- The sequence that has one element. -/
theorem alone {x : kind.Item} (he : e.Yields env s (kind.element x)) :
    (kind.alone e).Yields env s (kind.value [x]) := by
  cases kind with
  | string => exact he
  | list => exact he.singleton

/-- The sum of the first elements of a sequence. -/
theorem sum_elements (he : e.Yields env s (kind.value xs)) {n : Nat} (h : n < xs.length)
    (hrange : InRange n) :
    (sumTo (fun i => kind.alone (.index e (.literal (.int (Int64.ofInt i))))) n).Yields env s
      (kind.value (xs.take (n + 1))) := by
  have hpart {i : Nat} (h : i < xs.length) (hrange : InRange i) :
      (kind.alone (.index e (.literal (.int (Int64.ofInt i))))).Yields env s
        (kind.value [xs[i]]) := by
    refine alone ((he.element_iff (.literal (.int (Int64.ofInt i)))).2 ?_)
    rw [toInt_ofInt hrange]
    exact ⟨Int.natCast_nonneg i, xs[i], List.getElem?_eq_getElem h, rfl⟩
  induction n with
  | zero =>
    rw [← List.take_append_getElem h]
    exact hpart h hrange
  | succ n ih =>
    rw [← List.take_append_getElem h]
    exact (ih (by omega) ⟨by omega, by have := hrange.2; omega⟩).plus (hpart h hrange)

/-- The size of a sum is the sum of the sizes. -/
theorem run_size_plus (he : e.Yields env s (kind.value xs)) (hf : f.Yields env s (kind.value ys)) :
    ((Expr.field (.binary .add e f) "size").eval env).run.run s =
      ((Expr.binary .add (.field e "size") (.field f "size")).eval env).run.run s := by
  have hoverflows {m n : Nat} (h : ofInt? m = none) (hle : m ≤ n) : ofInt? n = none := by
    refine ofInt?_of_not_inRange fun hrange => ?_
    rw [ofInt?_of_inRange ⟨by omega, by have := hrange.2; omega⟩] at h
    cases h
  rw [(he.plus hf).run_size, List.length_append, eval_binary .add (by decide)]
  cases hleft : ofInt? xs.length with
  | none =>
    have hfails := he.run_size
    rw [hleft] at hfails
    rw [run_bind_of_fst_error hfails, hoverflows hleft (Nat.le_add_right _ _)]
    rfl
  | some m =>
    have hyields := he.run_size
    rw [hleft] at hyields
    rw [run_bind_of_fst_ok hyields]
    cases hright : ofInt? ys.length with
    | none =>
      have hfails := hf.run_size
      rw [hright] at hfails
      rw [run_bind_of_fst_error hfails, hoverflows hright (Nat.le_add_left _ _)]
      rfl
    | some n =>
      have hyields := hf.run_size
      rw [hright] at hyields
      rw [run_bind_of_fst_ok hyields, Int.natCast_add, ← toInt_of_ofInt? hleft,
        ← toInt_of_ofInt? hright]
      rfl

/-- The elements of a sum: behind those of the first sequence there are those of the second. -/
theorem element_plus_iff (he : e.Yields env s (kind.value xs)) (hf : f.Yields env s (kind.value ys))
    (hplace : place.Yields env s (.int i)) {value : Value} :
    (Expr.index (.binary .add e f) place).Yields env s value ↔
      if i.toInt < xs.length then (Expr.index e place).Yields env s value
      else (Expr.index f (.binary .sub place (.field e "size"))).Yields env s value := by
  rw [(he.plus hf).element_iff hplace]
  split_ifs with first
  · rw [he.element_iff hplace]
    refine and_congr_right fun hlow => ?_
    rw [List.getElem?_append_left (by omega)]
  · have high := (inRange_toInt i).2
    have hsize : (Expr.field e "size").Yields env s (.int (Int64.ofInt xs.length)) :=
      he.size_iff.2 (toInt_ofInt ⟨by omega, by omega⟩)
    have hrest : InRange (i.toInt - xs.length) := ⟨by omega, by omega⟩
    have hplace' : (Expr.binary .sub place (.field e "size")).Yields env s
        (.int (Int64.ofInt (i.toInt - xs.length))) := by
      rw [Yields, hplace.run_binary .sub (by decide) hsize]
      change (Value.ofChecked (ofInt? (i.toInt - (Int64.ofInt xs.length).toInt)), s) = _
      rw [toInt_ofInt ⟨by omega, by omega⟩, ofInt?_of_inRange hrest]
      rfl
    rw [hf.element_iff hplace', toInt_ofInt hrest, List.getElem?_append_right (by omega),
      show (i.toInt - xs.length).toNat = i.toInt.toNat - xs.length by omega]
    exact and_congr_left fun _ => iff_of_true (by omega) (by omega)

end Expr.Yields

end Expressions

/-- Size, elements and sums of strings and lists. Let `e` and `f` be expressions for two strings or
for two lists, and `i` the value of `place`. The size of `e` is the number of its characters or
items. `e[place]` is an element if `0 <= i < e.size`, and else fails with `i` and the size. If it
has elements, `e` is the sum of `e[0]`, ..., `e[e.size - 1]`, for a list of the lists with one of
them each. The size of `e + f` is `e.size + f.size`, and `(e + f)[place]` is `e[place]` if
`i < e.size` and else `f[place - e.size]`. -/
theorem sequences_agree {σ : Type} {env : Environment (StateM σ)} {s : σ} {e f place : Expr}
    {kind : SequenceKind} {xs ys : List kind.Item} {i : Int64}
    (he : e.Yields env s (kind.value xs)) (hf : f.Yields env s (kind.value ys))
    (hplace : place.Yields env s (.int i)) :
    (∀ size : Int64,
      (Expr.field e "size").Yields env s (.int size) ↔ size.toInt = xs.length) ∧
    (0 ≤ i.toInt ∧ i.toInt < xs.length →
      ∃ x, xs[i.toInt.toNat]? = some x ∧ (Expr.index e place).Yields env s (kind.element x)) ∧
    (¬(0 ≤ i.toInt ∧ i.toInt < xs.length) →
      ((Expr.index e place).eval env).run.run s = (.error (.outOfBounds i xs.length), s)) ∧
    (∀ size : Int64, (Expr.field e "size").Yields env s (.int size) →
      (size.toInt = 0 → xs = []) ∧
      (0 < size.toInt →
        (sumTo (fun i => kind.alone (.index e (.literal (.int (Int64.ofInt i)))))
          (size.toInt.toNat - 1)).Yields env s (kind.value xs))) ∧
    ((Expr.field (.binary .add e f) "size").eval env).run.run s =
      ((Expr.binary .add (.field e "size") (.field f "size")).eval env).run.run s ∧
    (∀ size : Int64, (Expr.field (.binary .add e f) "size").Yields env s (.int size) ↔
      size.toInt = xs.length + ys.length) ∧
    (∀ value, (Expr.index (.binary .add e f) place).Yields env s value ↔
      if i.toInt < xs.length then (Expr.index e place).Yields env s value
      else (Expr.index f (.binary .sub place (.field e "size"))).Yields env s value) := by
  refine ⟨fun _ => he.size_iff, ?_, he.element_outOfBounds hplace, ?_, he.run_size_plus hf, ?_,
    fun _ => he.element_plus_iff hf hplace⟩
  · rintro ⟨hlow, high⟩
    have hindex : i.toInt.toNat < xs.length := by omega
    have hfound := List.getElem?_eq_getElem hindex
    exact ⟨_, hfound, (he.element_iff hplace).2 ⟨hlow, _, hfound, rfl⟩⟩
  · intro size hsize
    have hcount := he.size_iff.1 hsize
    refine ⟨fun hzero => List.length_eq_zero_iff.1 (by omega), fun hpositive => ?_⟩
    have hrange := inRange_toInt size
    have hsum := he.sum_elements (n := size.toInt.toNat - 1) (by omega)
      ⟨by omega, by have := hrange.2; omega⟩
    rwa [List.take_of_length_le (by omega)] at hsum
  · intro size
    rw [(he.plus hf).size_iff, List.length_append, Int.natCast_add]

/-- Two strings in variables, the first with a character of more than one byte. -/
theorem sequences_agree_variables :
    ∃ (e f : Expr) (vars : Bindings Value),
      e.Yields (Environment.flat Environment.refuseCalls) vars (.string "ä") ∧
      f.Yields (Environment.flat Environment.refuseCalls) vars (.string "bc") ∧
      (Expr.field (.binary .add e f) "size").Yields (Environment.flat Environment.refuseCalls) vars
        (.int 3) ∧
      ((Expr.index e (.literal (.int 1))).eval (Environment.flat Environment.refuseCalls)).run.run
        vars = (.error (.outOfBounds 1 1), vars) := by
  let vars : Bindings Value := [("e", .string "ä"), ("f", .string "bc")]
  have hyieldsE : (Expr.ident "e").Yields (Environment.flat Environment.refuseCalls) vars
      (SequenceKind.string.value ['ä']) := rfl
  have hyieldsF : (Expr.ident "f").Yields (Environment.flat Environment.refuseCalls) vars
      (SequenceKind.string.value ['b', 'c']) := rfl
  have hyieldsPlace : (Expr.literal (.int 1)).Yields (Environment.flat Environment.refuseCalls) vars
      (.int 1) := rfl
  obtain ⟨-, -, houtside, -, -, hsize, -⟩ := sequences_agree hyieldsE hyieldsF hyieldsPlace
  exact ⟨.ident "e", .ident "f", vars, hyieldsE, hyieldsF, (hsize 3).2 rfl, houtside (by decide)⟩

end TextTemplate
