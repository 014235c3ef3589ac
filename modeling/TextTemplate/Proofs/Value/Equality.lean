import Mathlib.Data.List.Sort
import Mathlib.Data.String.Basic
import TextTemplate.Expr.Flat
import TextTemplate.Proofs.Evaluation

/-!
# Equality of containers

The language has two equalities: its own, which compares an integer and a floating-point number as
numbers, and the structural one, by which it compares what stands inside lists and maps. They differ
for such a pair of numbers and for nothing else. So two lists are equal when their items are, and
two maps when their fields are, unless one of two items or fields is an integer and the other a
floating-point number.

## Main definitions

* `Expr.Yields`: an expression has a value and leaves the state as it is.
* `Value.Mixed`: an integer and a floating-point number.
* `Bindings.Ordered`: the names of a map are in order.

## Main results

* `Value.equal_iff`: where the two equalities differ.
* `Value.equal_map_iff`: maps with the same names and equal fields.
* `containers_equal_elementwise`: equality of lists and maps by their items and fields.
* `exists_equal_items_of_lists_not_equal`: lists with equal items that are not equal.
-/

namespace TextTemplate

/-! ### Maps with their names in order -/

namespace Bindings

variable {α : Type} {bindings bindings' : Bindings α}

/-- The names are in order, so that each occurs once. -/
def Ordered (bindings : Bindings α) : Prop :=
  bindings.Pairwise fun entry later => entry.1 < later.1

private theorem mem_insert {name : String} {a : α} {entry : String × α}
    (h : entry ∈ insert name a bindings) : entry = (name, a) ∨ entry ∈ bindings := by
  induction bindings with
  | nil => exact .inl (List.mem_singleton.1 h)
  | cons first rest ih =>
    obtain ⟨other, b⟩ := first
    rw [insert] at h
    split at h
    · exact (List.mem_cons.1 h).imp_right (List.mem_cons_of_mem _)
    · split at h
      · exact List.mem_cons.1 h
      · rcases List.mem_cons.1 h with rfl | h
        · exact .inr List.mem_cons_self
        · exact (ih h).imp_right (List.mem_cons_of_mem _)

/-- A new binding keeps the order. -/
theorem Ordered.insert (h : bindings.Ordered) (name : String) (a : α) :
    (insert name a bindings).Ordered := by
  induction bindings with
  | nil => exact List.pairwise_singleton _ _
  | cons first rest ih =>
    obtain ⟨other, b⟩ := first
    have ⟨hbefore, hordered⟩ := List.pairwise_cons.1 h
    rw [Bindings.insert]
    split
    · rename_i hsame
      subst hsame
      exact List.pairwise_cons.2 ⟨hbefore, hordered⟩
    · rename_i hne
      split
      · rename_i hlt
        refine List.pairwise_cons.2 ⟨fun entry hentry => ?_, h⟩
        rcases List.mem_cons.1 hentry with rfl | hentry
        · exact hlt
        · exact lt_trans hlt (hbefore entry hentry)
      · rename_i hnotLt
        refine List.pairwise_cons.2 ⟨fun entry hentry => ?_, ih hordered⟩
        rcases mem_insert hentry with rfl | hentry
        · exact lt_of_le_of_ne (not_lt.1 hnotLt) (Ne.symm hne)
        · exact hbefore entry hentry

/-- A map that is put together from pairs is in order. -/
theorem ordered_ofPairs (pairs : List (String × α)) : (ofPairs pairs).Ordered := by
  have hall (bindings : Bindings α) (h : bindings.Ordered) :
      (pairs.foldl (fun bindings pair => insert pair.1 pair.2 bindings) bindings).Ordered := by
    induction pairs generalizing bindings with
    | nil => exact h
    | cons pair pairs ih => exact ih _ (h.insert pair.1 pair.2)
  exact hall [] List.Pairwise.nil

private theorem contains_iff_mem_names {name : String} :
    bindings.contains name = true ↔ name ∈ bindings.names := by
  induction bindings with
  | nil => simp [contains, names]
  | cons first rest ih =>
    rw [contains, find?_cons, names, List.map_cons, List.mem_cons]
    split_ifs with h
    · simp [h]
    · exact ih.trans (or_iff_right h).symm

/-- Maps in order that bind the same names have them in the same places. -/
theorem Ordered.names_eq (h : bindings.Ordered) (h' : bindings'.Ordered)
    (hsame : ∀ name, bindings.contains name = bindings'.contains name) :
    bindings.names = bindings'.names := by
  have hsorted : bindings.names.Pairwise (· < ·) := List.pairwise_map.2 h
  have hsorted' : bindings'.names.Pairwise (· < ·) := List.pairwise_map.2 h'
  refine hsorted.eq_of_mem_iff hsorted' fun name => ?_
  rw [← contains_iff_mem_names, ← contains_iff_mem_names, hsame]

end Bindings

/-! ### The two equalities -/

namespace Value

/-- One is an integer and the other a floating-point number. -/
def Mixed : Value → Value → Prop
  | int _, float _ | float _, int _ => True
  | _, _ => False

variable {a b : Value} {as bs : List Value}

private theorem looselyEqual_of_not_mixed (h : ¬ a.Mixed b) : a.looselyEqual b = a.equal b := by
  cases a <;> cases b <;> first | rfl | exact (h trivial).elim

/-- The structural equality is that of the language, except that it never holds of an integer and a
floating-point number. -/
theorem equal_iff : a.equal b = true ↔ a.looselyEqual b = true ∧ ¬ a.Mixed b := by
  by_cases h : a.Mixed b
  · have hunequal : a.equal b = false := by
      cases a <;> cases b <;> first | rfl | exact h.elim
    simp [hunequal, h]
  · rw [looselyEqual_of_not_mixed h]
    exact (and_iff_left h).symm

private theorem equalItems_iff :
    equalItems as bs = true ↔ as.length = bs.length ∧
      ∀ (i : Nat) (a b : Value), as[i]? = some a → bs[i]? = some b → a.equal b = true := by
  induction as generalizing bs with
  | nil => cases bs <;> simp [equalItems]
  | cons a as ih =>
    cases bs with
    | nil => simp [equalItems]
    | cons b bs =>
      rw [equalItems, Bool.and_eq_true, ih, List.length_cons, List.length_cons, Nat.succ_inj]
      constructor
      · rintro ⟨hfirst, hlength, hothers⟩
        refine ⟨hlength, fun i => ?_⟩
        cases i with
        | zero =>
          rintro _ _ ⟨⟩ ⟨⟩
          exact hfirst
        | succ i => exact hothers i
      · rintro ⟨hlength, hall⟩
        exact ⟨hall 0 a b rfl rfl, hlength, fun i => hall (i + 1)⟩

/-- Lists are equal when they are equally long and the language finds their items equal in every
place, without an integer on one side and a floating-point number on the other. -/
theorem looselyEqual_list_iff :
    (list as).looselyEqual (list bs) = true ↔ as.length = bs.length ∧
      ∀ (i : Nat) (a b : Value), as[i]? = some a → bs[i]? = some b →
        a.looselyEqual b = true ∧ ¬ a.Mixed b := by
  rw [looselyEqual_of_not_mixed id, equal, equalItems_iff]
  simp only [equal_iff]

private theorem looselyEqual_singleton_iff :
    (list [a]).looselyEqual (list [b]) = true ↔ a.looselyEqual b = true ∧ ¬ a.Mixed b := by
  rw [looselyEqual_of_not_mixed id, equal, equalItems, equalItems, Bool.and_true, equal_iff]

section Maps

variable {m n : Bindings Value}

/-- Maps with the same names in the same places are equal when their fields are. -/
theorem equalFields_iff_of_names (hordered : m.Ordered) (hnames : m.names = n.names) :
    equalFields m n = true ↔
      ∀ name a b, m.find? name = some a → n.find? name = some b → a.equal b = true := by
  induction m generalizing n with
  | nil =>
    cases n with
    | nil => simp [equalFields]
    | cons entry rest => cases hnames
  | cons entry m ih =>
    cases n with
    | nil => cases hnames
    | cons entry' n =>
      obtain ⟨name, a⟩ := entry
      obtain ⟨_, b⟩ := entry'
      obtain ⟨rfl, hrest⟩ := List.cons.inj hnames
      have ⟨hbefore, hordered'⟩ := List.pairwise_cons.1 hordered
      rw [equalFields, Bool.and_eq_true, Bool.and_eq_true, ih hordered' hrest]
      constructor
      · rintro ⟨⟨-, hfirst⟩, hothers⟩ other x y hx hy
        rw [Bindings.find?_cons] at hx hy
        split_ifs at hx hy
        · cases hx
          cases hy
          exact hfirst
        · exact hothers other x y hx hy
      · intro hall
        refine ⟨⟨beq_self_eq_true name, hall name a b (if_pos rfl) (if_pos rfl)⟩, ?_⟩
        intro other x y hx hy
        -- A later name is another one than the first.
        have hbound : Bindings.contains m other = true := Option.isSome_iff_exists.2 ⟨x, hx⟩
        obtain ⟨later, hlater, rfl⟩ := List.mem_map.1 (Bindings.contains_iff_mem_names.1 hbound)
        have hne : later.1 ≠ name := (hbefore later hlater).ne'
        exact hall later.1 x y (by rwa [Bindings.find?_cons, if_neg hne])
          (by rwa [Bindings.find?_cons, if_neg hne])

/-- Maps that are equal have the same names. -/
theorem names_eq_of_equalFields (h : equalFields m n = true) : m.names = n.names := by
  induction m generalizing n with
  | nil =>
    cases n with
    | nil => rfl
    | cons => cases h
  | cons entry m ih =>
    cases n with
    | nil => cases h
    | cons entry' n =>
      rw [equalFields, Bool.and_eq_true, Bool.and_eq_true, beq_iff_eq] at h
      exact congrArg₂ List.cons h.1.1 (ih h.2)

/-- Maps are equal when they bind the same names and the language finds the fields of every name
equal, without an integer on one side and a floating-point number on the other. -/
theorem looselyEqual_map_iff (hm : m.Ordered) (hn : n.Ordered) :
    (map m).looselyEqual (map n) = true ↔ (∀ name, m.contains name = n.contains name) ∧
      ∀ name a b, m.find? name = some a → n.find? name = some b →
        a.looselyEqual b = true ∧ ¬ a.Mixed b := by
  rw [looselyEqual_of_not_mixed id, equal]
  simp only [← equal_iff]
  constructor
  · intro h
    have hnames := names_eq_of_equalFields h
    refine ⟨fun name => ?_, (equalFields_iff_of_names hm hnames).1 h⟩
    rw [Bool.eq_iff_iff, Bindings.contains_iff_mem_names, Bindings.contains_iff_mem_names, hnames]
  · rintro ⟨hsame, hfields⟩
    exact (equalFields_iff_of_names hm (hm.names_eq hn hsame)).2 hfields

end Maps

end Value

/-! ### The operators -/

section Operators

variable {σ : Type} {env : Environment (StateM σ)} {s : σ}

/-- In this state the expression has the value, and it leaves the state as it is. -/
def Expr.Yields (env : Environment (StateM σ)) (s : σ) (e : Expr) (value : Value) : Prop :=
  (e.eval env).run.run s = (.ok value, s)

/-- An operator that needs both operands is applied to their values. -/
theorem Expr.eval_binary (op : BinaryOp) (hboth : op ≠ .and ∧ op ≠ .or) (e f : Expr) :
    (Expr.binary op e f).eval env = (do
      let left ← e.eval env
      let right ← f.eval env
      ExceptT.mk (pure (op.apply left right))) := by
  cases op with
  | and => exact absurd rfl hboth.1
  | or => exact absurd rfl hboth.2
  | _ => rw [eval.eq_def]

namespace Expr.Yields

variable {e f : Expr} {a b : Value}

theorem literal (l : Literal) : (Expr.literal l).Yields env s l.value :=
  rfl

theorem singleton (he : e.Yields env s a) : (Expr.list [e]).Yields env s (.list [a]) := by
  rw [Yields, eval, evalAll, evalAll]
  simp only [bind_assoc, pure_bind]
  exact run_bind_of_fst_ok he

private theorem index (he : e.Yields env s a) (hf : f.Yields env s b) {value : Value}
    (h : a.index b = .ok value) : (Expr.index e f).Yields env s value := by
  rw [Yields, eval, run_bind_of_fst_ok he, run_bind_of_fst_ok hf, h]
  rfl

theorem run_binary (op : BinaryOp) (hboth : op ≠ .and ∧ op ≠ .or) (he : e.Yields env s a)
    (hf : f.Yields env s b) :
    ((Expr.binary op e f).eval env).run.run s = (op.apply a b, s) := by
  rw [eval_binary op hboth, run_bind_of_fst_ok he, run_bind_of_fst_ok hf]
  rfl

theorem equals (he : e.Yields env s a) (hf : f.Yields env s b) :
    (Expr.binary .eq e f).Yields env s (.bool (a.looselyEqual b)) :=
  he.run_binary .eq (by decide) hf

private theorem differs (he : e.Yields env s a) (hf : f.Yields env s b) :
    (Expr.binary .ne e f).Yields env s (.bool !a.looselyEqual b) :=
  he.run_binary .ne (by decide) hf

/-- An expression has one value. -/
theorem bool_iff {b c : Bool} (h : e.Yields env s (.bool b)) :
    e.Yields env s (.bool c) ↔ b = c := by
  constructor
  · intro h'
    cases congrArg Prod.fst (h.symm.trans h')
    rfl
  · rintro rfl
    exact h

end Expr.Yields

end Operators

/-- Equality of containers by what they hold, for expressions `e` and `f` with the values `a` and
`b`. Two lists are equal when they are equally long and the language finds the items in every place
equal, with no integer against a floating-point number among them; `e[i] == f[i]` tells what it
finds. So it is with maps and the fields of their names. `!=` says the opposite, and putting both
sides into lists makes a difference for such a pair of numbers only. -/
theorem containers_equal_elementwise {σ : Type} {env : Environment (StateM σ)} {s : σ}
    {e f : Expr} {a b : Value} (he : e.Yields env s a) (hf : f.Yields env s b) :
    (∀ as bs, a = .list as → b = .list bs →
      ((Expr.binary .eq e f).Yields env s (.bool true) ↔ as.length = bs.length ∧
        ∀ (i : Nat) (x y : Value), as[i]? = some x → bs[i]? = some y →
          x.looselyEqual y = true ∧ ¬ x.Mixed y) ∧
      ∀ (i : Int64) (x y : Value), 0 ≤ i.toInt → as[i.toInt.toNat]? = some x →
        bs[i.toInt.toNat]? = some y →
          ((Expr.binary .eq (.index e (.literal (.int i))) (.index f (.literal (.int i)))).Yields
            env s (.bool true) ↔ x.looselyEqual y = true)) ∧
    (∀ m n : Bindings Value, m.Ordered → n.Ordered → a = .map m → b = .map n →
      ((Expr.binary .eq e f).Yields env s (.bool true) ↔
        (∀ k, m.contains k = n.contains k) ∧
          ∀ k x y, m.find? k = some x → n.find? k = some y →
            x.looselyEqual y = true ∧ ¬ x.Mixed y) ∧
      ∀ k x y, m.find? k = some x → n.find? k = some y →
        ((Expr.binary .eq (.index e (.literal (.string k)))
          (.index f (.literal (.string k)))).Yields env s (.bool true) ↔
            x.looselyEqual y = true)) ∧
    (∃ c, (Expr.binary .eq e f).Yields env s (.bool c) ∧
      (Expr.binary .ne e f).Yields env s (.bool !c)) ∧
    ((Expr.binary .eq (.list [e]) (.list [f])).Yields env s (.bool true) ↔
      (Expr.binary .eq e f).Yields env s (.bool true) ∧ ¬ a.Mixed b) := by
  refine ⟨?_, ?_, ⟨_, he.equals hf, he.differs hf⟩, ?_⟩
  · rintro as bs rfl rfl
    refine ⟨(he.equals hf).bool_iff.trans Value.looselyEqual_list_iff, ?_⟩
    intro i x y hnotNegative hx hy
    have hplace : Value.place? i = some i.toInt.toNat := if_neg (not_lt.2 hnotNegative)
    have hitem {zs : List Value} {z : Value} (hz : zs[i.toInt.toNat]? = some z) :
        (Value.list zs).index (.int i) = .ok z := by
      rw [Value.index, hplace, Option.bind_some, hz]
    have hleft := he.index (.literal (.int i)) (hitem hx)
    have hright := hf.index (.literal (.int i)) (hitem hy)
    exact (hleft.equals hright).bool_iff
  · rintro m n hm hn rfl rfl
    refine ⟨(he.equals hf).bool_iff.trans (Value.looselyEqual_map_iff hm hn), ?_⟩
    intro k x y hx hy
    have hfield {fields : Bindings Value} {z : Value} (hz : fields.find? k = some z) :
        (Value.map fields).index (.string k) = .ok z := by
      rw [Value.index, hz]
      rfl
    have hleft := he.index (.literal (.string k)) (hfield hx)
    have hright := hf.index (.literal (.string k)) (hfield hy)
    exact (hleft.equals hright).bool_iff
  · rw [(he.singleton.equals hf.singleton).bool_iff, (he.equals hf).bool_iff]
    exact Value.looselyEqual_singleton_iff

/-- Two variables with the same map in them are equal, by the fields of the map. -/
theorem containers_equal_elementwise_fields :
    ∃ (vars m : Bindings Value), m.names = ["k", "l"] ∧ m.Ordered ∧
      (Expr.ident "a").Yields (Environment.flat Environment.refuseCalls) vars (.map m) ∧
      (Expr.ident "b").Yields (Environment.flat Environment.refuseCalls) vars (.map m) ∧
      (Expr.binary .eq (.ident "a") (.ident "b")).Yields
        (Environment.flat Environment.refuseCalls) vars (.bool true) := by
  let m := Bindings.ofPairs [("l", Value.string "x"), ("k", .list [.int 1])]
  have hordered : m.Ordered := Bindings.ordered_ofPairs _
  have hyieldsA : (Expr.ident "a").Yields (Environment.flat Environment.refuseCalls)
      [("a", .map m), ("b", .map m)] (.map m) := rfl
  have hyieldsB : (Expr.ident "b").Yields (Environment.flat Environment.refuseCalls)
      [("a", .map m), ("b", .map m)] (.map m) := rfl
  refine ⟨[("a", .map m), ("b", .map m)], m, by decide, hordered, hyieldsA, hyieldsB, ?_⟩
  have hbyFields :=
    (containers_equal_elementwise hyieldsA hyieldsB).2.1 m m hordered hordered rfl rfl
  refine hbyFields.1.2 ⟨fun _ => rfl, fun k x y hx hy => ?_⟩
  cases hx.symm.trans hy
  have hfields : m = [("k", .list [.int 1]), ("l", .string "x")] := rfl
  rw [hfields, Bindings.find?_cons, Bindings.find?_cons] at hx
  split_ifs at hx
  · cases hx
    exact ⟨by decide, id⟩
  · cases hx
    exact ⟨by decide, id⟩
  · cases hx

/-- An integer and a floating-point number that are equal as numbers: the lists with just the one
and just the other have equal items in every place, and are not equal. -/
theorem exists_equal_items_of_lists_not_equal :
    ∃ (e f : Expr) (as bs : List Value), as.length = bs.length ∧ ∀ vars : Bindings Value,
      e.Yields (Environment.flat Environment.refuseCalls) vars (.list as) ∧
      f.Yields (Environment.flat Environment.refuseCalls) vars (.list bs) ∧
      (∀ i : Int64, 0 ≤ i.toInt → i.toInt < as.length →
        (Expr.binary .eq (.index e (.literal (.int i))) (.index f (.literal (.int i)))).Yields
          (Environment.flat Environment.refuseCalls) vars (.bool true)) ∧
      (Expr.binary .eq e f).Yields (Environment.flat Environment.refuseCalls) vars
        (.bool false) := by
  refine ⟨.list [.literal (.int 1)], .list [.literal (.float 1.0)], [.int 1], [.float 1.0], rfl,
    ?_⟩
  intro vars
  have hyieldsInt : (Expr.list [.literal (.int 1)]).Yields
      (Environment.flat Environment.refuseCalls) vars (.list [.int 1]) :=
    (Expr.Yields.literal _).singleton
  have hyieldsFloat : (Expr.list [.literal (.float 1.0)]).Yields
      (Environment.flat Environment.refuseCalls) vars (.list [.float 1.0]) :=
    (Expr.Yields.literal _).singleton
  refine ⟨hyieldsInt, hyieldsFloat, fun i hlow high => ?_, ?_⟩
  · have hzero : i = 0 := Int64.toInt_inj.1 (by simp at high ⊢; omega)
    subst hzero
    have hleft : (Expr.index _ (.literal (.int 0))).Yields _ vars (.int 1) :=
      hyieldsInt.index (.literal (.int 0)) rfl
    have hright : (Expr.index _ (.literal (.int 0))).Yields _ vars (.float 1.0) :=
      hyieldsFloat.index (.literal (.int 0)) rfl
    exact (hleft.equals hright).bool_iff.2 (by decide +kernel)
  · exact (hyieldsInt.equals hyieldsFloat).bool_iff.2 (by decide +kernel)

end TextTemplate
