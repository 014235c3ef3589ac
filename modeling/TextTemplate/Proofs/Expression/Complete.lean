import TextTemplate.Proofs.Expression.Sound

/-!
# Every phrase is read

A reader that stands in front of a phrase of its form reads that phrase and no more, whatever comes
behind it, as long as that cannot continue the phrase. The readers of chains, lists and suffixes
stop after so many steps at the latest; a text has fewer tokens than that, so they never stop for
that reason.

## Main definitions

* `Parser.Accepts` — a reader reads these tokens, where they may be followed by such lexemes.
* `Expr.Free`, `Expr.Closes` — the lexemes that may follow joined operands and expressions.

## Main results

* `Expr.accepts_deeper` — the reader of a level reads every expression of the level.
* `Expr.parse_eq_ok_iff` — a text spells an expression when its tokens are statements.
-/

namespace TextTemplate

namespace Parser

variable {α β : Type}

/-- Where lexemes with these tokens are followed by such lexemes, the reader reads just them. No
more than `tokens` lexemes are left there. -/
def Accepts (tokens : Nat) (follow : List Lexeme → Prop) (p : Parser α) (ts : List Token) (a : α) :
    Prop :=
  ∀ (ls rest : List Lexeme) (stop : Nat), ls.map Lexeme.token = ts → follow rest →
    (ls ++ rest).length ≤ tokens → p.run ⟨ls ++ rest, stop⟩ = .ok (a, ⟨rest, stop⟩)

theorem run_bind_of_ok {p : Parser α} {f : α → Parser β} {s s' : Tokens} {a : α}
    (h : p.run s = .ok (a, s')) : (p >>= f).run s = (f a).run s' := by
  rw [StateT.run_bind, h]
  rfl

theorem consume_run_symbol (x : Symbol) (o : Nat) (ls : List Lexeme) (stop : Nat) :
    (consume x).run ⟨⟨o, .symbol x⟩ :: ls, stop⟩ = .ok (true, ⟨ls, stop⟩) := by
  rw [consume_run]
  simp [symbolAt?]

theorem consume_run_other {x : Symbol} {ls : List Lexeme} (h : symbolAt? ls ≠ some x)
    (stop : Nat) : (consume x).run ⟨ls, stop⟩ = .ok (false, ⟨ls, stop⟩) := by
  rw [consume_run, if_neg h]

private theorem expect_run_symbol (x : Symbol) (o : Nat) (ls : List Lexeme) (stop : Nat) :
    (expect x).run ⟨⟨o, .symbol x⟩ :: ls, stop⟩ = .ok ((), ⟨ls, stop⟩) := by
  rw [expect, run_bind_of_ok (consume_run_symbol x o ls stop)]
  rfl

end Parser

namespace Expr

open TextTemplate.Parser

/-! ### What may follow -/

/-- A symbol that goes on with an expression behind it. -/
def OpensSuffix (s : Symbol) : Prop :=
  s = .dot ∨ s = .openBracket ∨ s = .openParen

/-- Lexemes that go on neither with an operand nor with operators of these levels. -/
def Free (lvls : List (List (Symbol × BinaryOp))) (rest : List Lexeme) : Prop :=
  ∀ s, symbolAt? rest = some s → ¬ OpensSuffix s ∧ ∀ ops ∈ lvls, List.lookup s ops = none

/-- Lexemes that end an expression. -/
def Closes (rest : List Lexeme) : Prop :=
  ∀ l ∈ rest.head?, EndsPhrase l.token

theorem Free.mono {lvls lvls' : List (List (Symbol × BinaryOp))} {rest : List Lexeme}
    (h : Free lvls rest) (hsub : lvls' ⊆ lvls) : Free lvls' rest :=
  fun s hs => ⟨(h s hs).1, fun ops hops => (h s hs).2 ops (hsub hops)⟩

private theorem Free.symbolAt?_ne {lvls : List (List (Symbol × BinaryOp))} {rest : List Lexeme}
    (h : Free lvls rest) {x : Symbol} (hx : OpensSuffix x) : symbolAt? rest ≠ some x :=
  fun hs => (h x hs).1 hx

private theorem endsPhrase_of_closes {rest : List Lexeme} (h : Closes rest) {s : Symbol}
    (hs : symbolAt? rest = some s) : EndsPhrase (.symbol s) := by
  obtain ⟨o, rest, rfl⟩ := symbolAt?_eq_some hs
  exact h _ rfl

/-- What ends an expression goes on with no operand and no operator. -/
theorem Closes.free {rest : List Lexeme} (h : Closes rest) : Free levels rest := by
  intro s hs
  rcases endsPhrase_of_closes h hs with rfl | rfl | rfl | rfl <;>
    exact ⟨by simp [OpensSuffix], by decide⟩

private theorem Closes.symbol {s : Symbol} (h : EndsPhrase (.symbol s)) (o : Nat)
    (rest : List Lexeme) :
    Closes (⟨o, .symbol s⟩ :: rest) := by
  rintro l ⟨⟩
  exact h

theorem exists_of_map_eq_cons {ls : List Lexeme} {t : Token} {ts : List Token}
    (h : ls.map Lexeme.token = t :: ts) :
    ∃ o ls', ls = ⟨o, t⟩ :: ls' ∧ ls'.map Lexeme.token = ts := by
  obtain ⟨⟨o, _⟩, ls', rfl, rfl, h'⟩ := List.map_eq_cons_iff.1 h
  exact ⟨o, ls', rfl, h'⟩

private theorem exists_of_map_eq_concat {ls : List Lexeme} {t : Token} {ts : List Token}
    (h : ls.map Lexeme.token = ts ++ [t]) :
    ∃ ls' o, ls = ls' ++ [⟨o, t⟩] ∧ ls'.map Lexeme.token = ts := by
  obtain ⟨ls', last, rfl, h', hlast⟩ := List.map_eq_append_iff.1 h
  obtain ⟨o, ls'', rfl, hnil⟩ := exists_of_map_eq_cons hlast
  obtain rfl := List.map_eq_nil_iff.1 hnil
  exact ⟨ls', o, rfl, h'⟩

theorem mem_of_lookup {ops : List (Symbol × BinaryOp)} {s : Symbol} {op : BinaryOp}
    (h : List.lookup s ops = some op) : (s, op) ∈ ops := by
  obtain ⟨before, after, rfl, -⟩ := List.lookup_eq_some_iff.1 h
  simp

/-- An operator goes on with no operand in front of it. -/
theorem not_opensSuffix_of_mem_levels {ops : List (Symbol × BinaryOp)} (h : ops ∈ levels)
    {s : Symbol} {op : BinaryOp} (hs : List.lookup s ops = some op) : ¬ OpensSuffix s :=
  have hall : ∀ ops ∈ levels, ∀ pair ∈ ops,
      ¬ (pair.1 = .dot ∨ pair.1 = .openBracket ∨ pair.1 = .openParen) := by decide
  hall ops h _ (mem_of_lookup hs)

/-- An operator belongs to one level. -/
theorem levels_pairwise : levels.Pairwise fun ops ops' =>
    ∀ s op, List.lookup s ops = some op → List.lookup s ops' = none := by
  have hapart : levels.Pairwise fun ops ops' =>
      ∀ pair ∈ ops, (List.lookup pair.1 ops').isNone = true := by decide
  refine hapart.imp fun h s op hs => ?_
  exact Option.isNone_iff_eq_none.1 (h (s, op) (mem_of_lookup hs))

/-! ### The readers of the forms -/

section Forms

variable {tokens : Nat} {operand item deeper value : Parser Expr}
  {Operands Inside Values : Phrase} {follow : List Lexeme → Prop}

theorem chainTail_run_of_none {ops : List (Symbol × BinaryOp)} {rest : List Lexeme}
    (h : ∀ s, symbolAt? rest = some s → List.lookup s ops = none) (more : Nat) (e : Expr)
    (stop : Nat) : (chainTail ops operand more e).run ⟨rest, stop⟩ = .ok (e, ⟨rest, stop⟩) := by
  cases more with
  | zero => rfl
  | succ more =>
    rw [chainTail, run_bind_of_ok (peekSymbol?_run _)]
    have hnone : ((symbolAt? rest).bind fun s => List.lookup s ops) = none := by
      simpa [Option.bind_eq_none_iff] using h
    simp only [hnone]
    rfl

theorem chainTail_run_of_some {ops : List (Symbol × BinaryOp)} {sign : Symbol} {op : BinaryOp}
    (h : List.lookup sign ops = some op) (more : Nat) (e : Expr) (o : Nat) (rest : List Lexeme)
    (stop : Nat) :
    (chainTail ops operand (more + 1) e).run ⟨⟨o, .symbol sign⟩ :: rest, stop⟩ =
      (operand >>= fun b => chainTail ops operand more (.binary op e b)).run ⟨rest, stop⟩ := by
  rw [chainTail, run_bind_of_ok (peekSymbol?_run _)]
  simp only [symbolAt?, Option.bind_some, h]
  rfl

/-- Joined operands are read up to the last, where the reader may go on with another operator. -/
theorem chain_run {ops : List (Symbol × BinaryOp)}
    (h : ∀ ts e, Operands ts e → Accepts tokens follow operand ts e)
    (hsigns : ∀ sign op, List.lookup sign ops = some op → ∀ o rest,
      follow (⟨o, .symbol sign⟩ :: rest))
    {ts : List Token} {e : Expr} (hjoined : Joined ops Operands ts e) (ls rest : List Lexeme)
    (stop : Nat) (hls : ls.map Lexeme.token = ts) (hbehind : follow rest)
    (hfits : (ls ++ rest).length ≤ tokens) :
    ∃ more, rest.length ≤ more ∧ (chain tokens ops operand).run ⟨ls ++ rest, stop⟩ =
      (chainTail ops operand more e).run ⟨rest, stop⟩ := by
  induction hjoined generalizing ls rest with
  | single honly =>
    refine ⟨tokens, by simp at hfits; omega, ?_⟩
    rw [chain, run_bind_of_ok (h _ _ honly ls rest stop hls hbehind hfits)]
  | @join ts us a b sign op hleft hop hright ih =>
    obtain ⟨ls₁, _, rfl, rfl, hls₂⟩ := List.map_eq_append_iff.1 hls
    obtain ⟨o, ls₂, rfl, rfl⟩ := exists_of_map_eq_cons hls₂
    rw [List.append_assoc] at hfits ⊢
    obtain ⟨more, henough, hrun⟩ := ih ls₁ (⟨o, .symbol sign⟩ :: (ls₂ ++ rest)) rfl
      (hsigns sign op hop o _) hfits
    obtain ⟨more, rfl⟩ : ∃ n, more = n + 1 := ⟨more - 1, by simp at henough; omega⟩
    refine ⟨more, by simp at henough; omega, hrun.trans ?_⟩
    rw [chainTail_run_of_some hop,
      run_bind_of_ok (h _ _ hright ls₂ rest stop rfl hbehind (by simp at hfits ⊢; omega))]

private theorem accepts_joinedAll
    (h : ∀ ts e, Operands ts e → Accepts tokens (Free []) operand ts e)
    {lvls : List (List (Symbol × BinaryOp))} (hsub : lvls ⊆ levels)
    (hapart : lvls.Pairwise fun ops ops' => ∀ s op, List.lookup s ops = some op →
      List.lookup s ops' = none)
    {ts : List Token} {e : Expr} (hjoined : JoinedAll lvls Operands ts e) :
    Accepts tokens (Free lvls) (lvls.foldr (chain tokens) operand) ts e := by
  induction lvls generalizing ts e with
  | nil => exact h ts e hjoined
  | cons ops lvls ih =>
    have ⟨hhere, hbelow⟩ := List.cons_subset.1 hsub
    have ⟨hfirst, hothers⟩ := List.pairwise_cons.1 hapart
    intro ls rest stop hls hbehind hfits
    have hsigns (sign : Symbol) (op : BinaryOp) (hop : List.lookup sign ops = some op) (o : Nat)
        (rest : List Lexeme) : Free lvls (⟨o, .symbol sign⟩ :: rest) := by
      rintro s ⟨⟩
      exact ⟨not_opensSuffix_of_mem_levels hhere hop, fun ops' h => hfirst ops' h _ op hop⟩
    obtain ⟨more, -, hrun⟩ :=
      chain_run (fun ts e => ih hbelow hothers) hsigns hjoined ls rest stop hls
        (hbehind.mono (List.subset_cons_self _ _)) hfits
    refine hrun.trans (chainTail_run_of_none (fun s hs => ?_) more e stop)
    exact (hbehind s hs).2 ops List.mem_cons_self

/-- A name and a sign start an assignment, or joined operands. -/
theorem assignment_run_ident (o o' : Nat) (name : String) (sign : Symbol) (ls : List Lexeme)
    (stop : Nat) :
    (assignment tokens value operand).run ⟨⟨o, .ident name⟩ :: ⟨o', .symbol sign⟩ :: ls, stop⟩ =
      match assignmentOp? sign with
      | some op => ((fun e => Expr.assign name op e) <$> value).run ⟨ls, stop⟩
      | none => (operations tokens operand).run
          ⟨⟨o, .ident name⟩ :: ⟨o', .symbol sign⟩ :: ls, stop⟩ := by
  rw [assignment, StateT.run_bind, StateT.run_get, pure_bind]
  cases h : assignmentOp? sign with
  | none => simp only [h]
  | some op =>
    simp only [h]
    rfl

/-- Where no assignment starts, joined operands are read. -/
theorem assignment_run_of_unassigned {s : Tokens} (h : Unassigned (s.left.map Lexeme.token)) :
    (assignment tokens value operand).run s = (operations tokens operand).run s := by
  obtain ⟨ls, stop⟩ := s
  match ls, h with
  | ⟨o, .ident name⟩ :: ⟨o', .symbol sign⟩ :: ls, h =>
    rw [assignment_run_ident, h name sign (ls.map Lexeme.token) rfl]
  | [], _ => rfl
  | [⟨_, .ident _⟩], _ => rfl
  | ⟨_, .ident _⟩ :: ⟨_, .int _⟩ :: _, _ => rfl
  | ⟨_, .ident _⟩ :: ⟨_, .float _⟩ :: _, _ => rfl
  | ⟨_, .ident _⟩ :: ⟨_, .string _⟩ :: _, _ => rfl
  | ⟨_, .ident _⟩ :: ⟨_, .ident _⟩ :: _, _ => rfl
  | ⟨_, .int _⟩ :: _, _ => rfl
  | ⟨_, .float _⟩ :: _, _ => rfl
  | ⟨_, .string _⟩ :: _, _ => rfl
  | ⟨_, .symbol _⟩ :: _, _ => rfl

private theorem Closes.unassigned {ts : List Token} (h : Unassigned ts) {rest : List Lexeme}
    (hbehind : Closes rest) : Unassigned (ts ++ rest.map Lexeme.token) := by
  cases rest with
  | nil => simpa using h
  | cons l rest =>
    obtain ⟨o, t⟩ := l
    have hends : EndsPhrase t := hbehind _ rfl
    cases t with
    | symbol s => exact h.append (by rcases hends with rfl | rfl | rfl | rfl <;> rfl) _
    | int | float | string | ident => exact hends.elim

private theorem accepts_assignment (hvalue : ∀ ts e, Values ts e → Accepts tokens Closes value ts e)
    (hunassigned : ∀ ts e, Operands ts e → Unassigned ts)
    (h : ∀ ts e, Operands ts e → Accepts tokens (Free []) operand ts e) {ts : List Token} {e : Expr}
    (hassigned : Assigned Values Operands ts e) :
    Accepts tokens Closes (assignment tokens value operand) ts e := by
  intro ls rest stop hls hbehind hfits
  cases hassigned with
  | @assign name sign op ts e hsign hright =>
    obtain ⟨o, _, rfl, hls₁⟩ := exists_of_map_eq_cons hls
    obtain ⟨o', ls, rfl, hls₂⟩ := exists_of_map_eq_cons hls₁
    simp only [List.cons_append, assignment_run_ident, hsign]
    rw [StateT.run_map, hvalue ts e hright ls rest stop hls₂ hbehind (by simp at hfits ⊢; omega)]
    rfl
  | joined hjoined =>
    rw [assignment_run_of_unassigned]
    · exact accepts_joinedAll h (List.Subset.refl _) levels_pairwise hjoined ls rest stop hls
        hbehind.free hfits
    · rw [List.map_append, hls]
      exact Closes.unassigned (hjoined.unassigned hunassigned (List.Subset.refl _)) hbehind

/-- A phrase starts with no symbol that ends one. -/
theorem Starts.symbolAt?_ne {ls : List Lexeme} (h : Starts (ls.map Lexeme.token)) {s : Symbol}
    (hending : EndsPhrase (.symbol s)) (rest : List Lexeme) : symbolAt? (ls ++ rest) ≠ some s := by
  obtain ⟨t, us, heq, hends⟩ := h
  obtain ⟨o, ls, rfl, -⟩ := exists_of_map_eq_cons heq
  intro hs
  obtain ⟨o', rest', heq'⟩ := symbolAt?_eq_some hs
  cases heq'
  exact hends hending

private theorem someItems_run (h : ∀ ts e, Inside ts e → Accepts tokens Closes item ts e)
    {close : Symbol} (hclose : close = .closeParen ∨ close = .closeBracket)
    {ts : List Token} {es : List Expr} (hitems : Items Inside ts es) (more o : Nat)
    (ls rest : List Lexeme) (stop : Nat) (hls : ls.map Lexeme.token = ts)
    (henough : ls.length ≤ more) (hfits : (ls ++ ⟨o, .symbol close⟩ :: rest).length ≤ tokens) :
    (someItems item close more).run ⟨ls ++ ⟨o, .symbol close⟩ :: rest, stop⟩ =
      .ok (es, ⟨rest, stop⟩) := by
  have hcloses : EndsPhrase (.symbol close) := by
    rcases hclose with rfl | rfl <;> simp [EndsPhrase]
  induction hitems generalizing more ls with
  | @last ts e honly =>
    have hfirst := h ts e honly ls _ stop hls (Closes.symbol hcloses o rest) hfits
    cases more with
    | zero =>
      rw [someItems, run_bind_of_ok hfirst, run_bind_of_ok (expect_run_symbol ..)]
      rfl
    | succ more =>
      have hnoComma : symbolAt? (⟨o, .symbol close⟩ :: rest) ≠ some .comma := by
        rcases hclose with rfl | rfl <;> simp [symbolAt?]
      rw [someItems, run_bind_of_ok hfirst, run_bind_of_ok (consume_run_other hnoComma stop),
        if_neg Bool.false_ne_true, run_bind_of_ok (expect_run_symbol ..)]
      rfl
  | @more ts us e es hfirst hothers ih =>
    obtain ⟨ls₁, _, rfl, rfl, hls₂⟩ := List.map_eq_append_iff.1 hls
    obtain ⟨o', ls₂, rfl, rfl⟩ := exists_of_map_eq_cons hls₂
    obtain ⟨more, rfl⟩ : ∃ n, more = n + 1 := ⟨more - 1, by simp at henough; omega⟩
    rw [List.append_assoc, List.cons_append] at hfits ⊢
    have hcomma : Closes (⟨o', .symbol .comma⟩ :: (ls₂ ++ ⟨o, .symbol close⟩ :: rest)) :=
      Closes.symbol (by simp [EndsPhrase]) _ _
    rw [someItems, run_bind_of_ok (h _ e hfirst ls₁ _ stop rfl hcomma hfits),
      run_bind_of_ok (consume_run_symbol ..), if_pos rfl,
      run_bind_of_ok (ih more ls₂ rfl (by simp at henough; omega) (by simp at hfits ⊢; omega))]
    rfl

private theorem Items.starts (hstarts : ∀ ts e, Inside ts e → Starts ts) {ts : List Token}
    {es : List Expr} (hitems : Items Inside ts es) : Starts ts := by
  cases hitems with
  | last honly => exact hstarts _ _ honly
  | more hfirst => exact (hstarts _ _ hfirst).append _

private theorem items_run (hstarts : ∀ ts e, Inside ts e → Starts ts)
    (h : ∀ ts e, Inside ts e → Accepts tokens Closes item ts e)
    {close : Symbol} (hclose : close = .closeParen ∨ close = .closeBracket)
    {ts : List Token} {es : List Expr} (hlisted : Listed Inside ts es) (o : Nat)
    (ls rest : List Lexeme) (stop : Nat) (hls : ls.map Lexeme.token = ts)
    (hfits : (ls ++ ⟨o, .symbol close⟩ :: rest).length ≤ tokens) :
    (items tokens item close).run ⟨ls ++ ⟨o, .symbol close⟩ :: rest, stop⟩ =
      .ok (es, ⟨rest, stop⟩) := by
  cases hlisted with
  | none =>
    obtain rfl := List.map_eq_nil_iff.1 hls
    rw [items, List.nil_append, run_bind_of_ok (consume_run_symbol ..)]
    rfl
  | some hitems =>
    have hcloses : EndsPhrase (.symbol close) := by
      rcases hclose with rfl | rfl <;> simp [EndsPhrase]
    have hnoClose := Starts.symbolAt?_ne (hls ▸ hitems.starts hstarts) hcloses
      (⟨o, .symbol close⟩ :: rest)
    rw [Expr.items, run_bind_of_ok (consume_run_other hnoClose stop), if_neg Bool.false_ne_true]
    exact someItems_run h hclose hitems tokens o ls rest stop hls (by simp at hfits; omega) hfits

/-- A phrase in front of the bracket that closes it. -/
theorem bracketed_run {α : Type} (h : ∀ ts e, Inside ts e → Accepts tokens Closes deeper ts e)
    {ts : List Token} {e : Expr} (hinner : Inside ts e) {close : Symbol}
    (hclose : close = .closeParen ∨ close = .closeBracket) (f : Expr → Parser α)
    {ls rest : List Lexeme} {o stop : Nat} (hls : ls.map Lexeme.token = ts)
    (hfits : (ls ++ ⟨o, .symbol close⟩ :: rest).length ≤ tokens) :
    (deeper >>= fun e => expect close >>= fun _ => f e).run
      ⟨ls ++ [⟨o, .symbol close⟩] ++ rest, stop⟩ = (f e).run ⟨rest, stop⟩ := by
  have hcloses : Closes (⟨o, .symbol close⟩ :: rest) := by
    apply Closes.symbol
    rcases hclose with rfl | rfl <;> simp [EndsPhrase]
  rw [List.append_assoc, List.singleton_append,
    run_bind_of_ok (h _ e hinner ls _ stop hls hcloses hfits),
    run_bind_of_ok (expect_run_symbol ..)]

/-- Phrases in front of the bracket that closes their list. -/
theorem listed_run {α : Type} (hstarts : ∀ ts e, Inside ts e → Starts ts)
    (h : ∀ ts e, Inside ts e → Accepts tokens Closes deeper ts e) {ts : List Token}
    {es : List Expr} (hlisted : Listed Inside ts es) {close : Symbol}
    (hclose : close = .closeParen ∨ close = .closeBracket) (f : List Expr → Parser α)
    {ls rest : List Lexeme} {o stop : Nat} (hls : ls.map Lexeme.token = ts)
    (hfits : (ls ++ ⟨o, .symbol close⟩ :: rest).length ≤ tokens) :
    (items tokens deeper close >>= f).run ⟨ls ++ [⟨o, .symbol close⟩] ++ rest, stop⟩ =
      (f es).run ⟨rest, stop⟩ := by
  rw [List.append_assoc, List.singleton_append,
    run_bind_of_ok (items_run hstarts h hclose hlisted o ls rest stop hls hfits)]

/-- The reader of an operand without unary operators, before the suffixes are read. -/
theorem suffixed_run (hstarts : ∀ ts e, Inside ts e → Starts ts)
    (h : ∀ ts e, Inside ts e → Accepts tokens Closes deeper ts e)
    {ts : List Token} {e : Expr} (hsuffixed : Suffixed Inside ts e) (ls rest : List Lexeme)
    (stop : Nat) (hls : ls.map Lexeme.token = ts) (hfits : (ls ++ rest).length ≤ tokens) :
    ∃ more, rest.length ≤ more ∧
      (primary tokens deeper >>= suffixes tokens deeper tokens).run ⟨ls ++ rest, stop⟩ =
        (suffixes tokens deeper more e).run ⟨rest, stop⟩ := by
  induction hsuffixed generalizing ls rest with
  | @atom t e hatom =>
    obtain ⟨o, ls', rfl, hnil⟩ := exists_of_map_eq_cons hls
    obtain rfl := List.map_eq_nil_iff.1 hnil
    refine ⟨tokens, by simp at hfits; omega, run_bind_of_ok ?_⟩
    cases t with
    | symbol s => cases hatom
    | int | float | string | ident => cases hatom; rfl
  | @brackets ts e hinner =>
    obtain ⟨o, _, rfl, hbehind⟩ := exists_of_map_eq_cons hls
    obtain ⟨ls, o', rfl, rfl⟩ := exists_of_map_eq_concat hbehind
    refine ⟨tokens, by simp at hfits; omega, run_bind_of_ok ?_⟩
    exact bracketed_run h hinner (.inl rfl) pure rfl (by simp at hfits ⊢; omega)
  | @list ts es hlisted =>
    obtain ⟨o, _, rfl, hbehind⟩ := exists_of_map_eq_cons hls
    obtain ⟨ls, o', rfl, rfl⟩ := exists_of_map_eq_concat hbehind
    refine ⟨tokens, by simp at hfits; omega, run_bind_of_ok ?_⟩
    exact listed_run hstarts h hlisted (.inr rfl) (fun es => pure (Expr.list es)) rfl
      (by simp at hfits ⊢; omega)
  | @field ts e name htarget ih =>
    obtain ⟨ls, _, rfl, rfl, hbehind⟩ := List.map_eq_append_iff.1 hls
    obtain ⟨o, _, rfl, hname⟩ := exists_of_map_eq_cons hbehind
    obtain ⟨o', _, rfl, hnil⟩ := exists_of_map_eq_cons hname
    obtain rfl := List.map_eq_nil_iff.1 hnil
    rw [List.append_assoc] at hfits ⊢
    obtain ⟨more, henough, hrun⟩ := ih ls _ rfl hfits
    obtain ⟨more, rfl⟩ : ∃ n, more = n + 1 := ⟨more - 1, by simp at henough; omega⟩
    exact ⟨more, by simp at henough; omega, hrun.trans rfl⟩
  | @index ts us a b htarget hplace ih =>
    obtain ⟨ls, _, rfl, rfl, hbehind⟩ := List.map_eq_append_iff.1 hls
    obtain ⟨o, _, rfl, hinside⟩ := exists_of_map_eq_cons hbehind
    obtain ⟨ls₂, o', rfl, rfl⟩ := exists_of_map_eq_concat hinside
    rw [List.append_assoc] at hfits ⊢
    obtain ⟨more, henough, hrun⟩ := ih ls _ rfl hfits
    obtain ⟨more, rfl⟩ : ∃ n, more = n + 1 := ⟨more - 1, by simp at henough; omega⟩
    refine ⟨more, by simp at henough; omega, hrun.trans ?_⟩
    exact bracketed_run h hplace (.inr rfl)
      (fun place => suffixes tokens deeper more (.index a place)) rfl (by simp at hfits ⊢; omega)
  | @call ts us e args hcallee hlisted ih =>
    obtain ⟨ls, _, rfl, rfl, hbehind⟩ := List.map_eq_append_iff.1 hls
    obtain ⟨o, _, rfl, hinside⟩ := exists_of_map_eq_cons hbehind
    obtain ⟨ls₂, o', rfl, rfl⟩ := exists_of_map_eq_concat hinside
    rw [List.append_assoc] at hfits ⊢
    obtain ⟨more, henough, hrun⟩ := ih ls _ rfl hfits
    obtain ⟨more, rfl⟩ : ∃ n, more = n + 1 := ⟨more - 1, by simp at henough; omega⟩
    refine ⟨more, by simp at henough; omega, hrun.trans ?_⟩
    exact listed_run hstarts h hlisted (.inl rfl)
      (fun args => suffixes tokens deeper more (.call e args)) rfl (by simp at hfits ⊢; omega)

theorem suffixes_run_of_free {rest : List Lexeme} (h : Free [] rest) (more : Nat) (e : Expr)
    (stop : Nat) :
    (suffixes tokens deeper more e).run ⟨rest, stop⟩ = .ok (e, ⟨rest, stop⟩) := by
  cases more with
  | zero => rfl
  | succ more =>
    rw [suffixes, run_bind_of_ok (peekSymbol?_run _)]
    cases hs : symbolAt? rest with
    | none => rfl
    | some s =>
      cases s
      case dot => exact (h.symbolAt?_ne (by simp [OpensSuffix]) hs).elim
      case openBracket => exact (h.symbolAt?_ne (by simp [OpensSuffix]) hs).elim
      case openParen => exact (h.symbolAt?_ne (by simp [OpensSuffix]) hs).elim
      all_goals rfl

private theorem accepts_operand (hstarts : ∀ ts e, Inside ts e → Starts ts)
    (hop : ∀ ts e, Operands ts e → Accepts tokens (Free []) operand ts e)
    (h : ∀ ts e, Inside ts e → Accepts tokens Closes deeper ts e) {ts : List Token} {e : Expr}
    (hoperated : Operated Operands Inside ts e) :
    Accepts tokens (Free []) (Expr.operand tokens operand deeper) ts e := by
  intro ls rest stop hls hbehind hfits
  cases hoperated with
  | @unary sign op ts e hunary hphrase =>
    obtain ⟨o, ls, rfl, hls₁⟩ := exists_of_map_eq_cons hls
    have hinner := hop ts e hphrase ls rest stop hls₁ hbehind (by simp at hfits ⊢; omega)
    have happlied (op : UnaryOp) : ((Expr.unary op) <$> operand).run ⟨ls ++ rest, stop⟩ =
        .ok (.unary op e, ⟨rest, stop⟩) := by
      rw [StateT.run_map, hinner]
      rfl
    cases sign
    case bang =>
      cases hunary
      exact happlied .not
    case minus =>
      cases hunary
      exact happlied .neg
    all_goals cases hunary
  | suffixed hsuffixed =>
    have hnoPrefix {x : Symbol} (hx : x = .bang ∨ x = .minus) :
        symbolAt? (ls ++ rest) ≠ some x := by
      obtain ⟨t, us, rfl, ht⟩ := hsuffixed.opens
      obtain ⟨o, ls, rfl, -⟩ := exists_of_map_eq_cons hls
      intro hs
      obtain ⟨o', rest', heq⟩ := symbolAt?_eq_some hs
      cases heq
      rcases hx with rfl | rfl <;> rcases ht _ rfl with h | h <;> cases h
    obtain ⟨more, -, hrun⟩ := suffixed_run hstarts h hsuffixed ls rest stop hls hfits
    rw [Expr.operand, run_bind_of_ok (consume_run_other (hnoPrefix (.inl rfl)) stop),
      if_neg Bool.false_ne_true, run_bind_of_ok (consume_run_other (hnoPrefix (.inr rfl)) stop),
      if_neg Bool.false_ne_true]
    exact hrun.trans (suffixes_run_of_free hbehind more e stop)

end Forms

/-! ### The levels of nesting -/

mutual

/-- The reader of a level reads the expressions of that level. -/
theorem accepts_deeper (tokens n : Nat) (ts : List Token) (e : Expr) (h : Statement n ts e) :
    Accepts tokens Closes (deeper tokens n) ts e := by
  cases n with
  | zero => exact h.elim
  | succ n =>
    exact accepts_assignment (accepts_deeper tokens n) (fun _ _ h => Operand.unassigned h)
      (accepts_operandAbove tokens n) h

/-- The reader of the operands of a level reads the operands of that level. -/
theorem accepts_operandAbove (tokens n : Nat) (ts : List Token) (e : Expr) (h : Operand n ts e) :
    Accepts tokens (Free []) (operandAbove tokens n) ts e := by
  cases n with
  | zero =>
    exact accepts_operand (fun _ _ h => h.elim) (fun _ _ h => h.elim) (fun _ _ h => h.elim) h
  | succ n =>
    exact accepts_operand (fun _ _ h => Statement.starts (n := n + 1) h)
      (accepts_operandAbove tokens n)
      (fun _ _ h => accepts_assignment (accepts_deeper tokens n) (fun _ _ h => Operand.unassigned h)
        (accepts_operandAbove tokens n) h) h

end

/-! ### Whole texts -/

section Whole

variable {tokens : Nat} {statement : Parser Expr} {Phrases : Phrase}

/-- In front of a statement no semicolon is passed over and the statement is read. -/
theorem statements_run_first (hstarts : ∀ ts e, Phrases ts e → Starts ts)
    (h : ∀ ts e, Phrases ts e → Accepts tokens Closes statement ts e) {ts : List Token} {e : Expr}
    (hphrase : Phrases ts e) {ls rest : List Lexeme} (more stop : Nat)
    (hls : ls.map Lexeme.token = ts) (hbehind : Closes rest)
    (hfits : (ls ++ rest).length ≤ tokens) :
    (statements statement (more + 1)).run ⟨ls ++ rest, stop⟩ =
      (do
        if (← peekSymbol?) = some Symbol.semicolon then
          return e :: (← statements statement more)
        else
          return [e] : Parser (List Expr)).run ⟨rest, stop⟩ := by
  obtain ⟨t, us, heq, hends⟩ := hstarts ts e hphrase
  have hrun := h ts e hphrase ls rest stop hls hbehind hfits
  obtain ⟨o, ls, rfl, -⟩ := exists_of_map_eq_cons (hls.trans heq)
  have hnotSemicolon : ¬ isSemicolon ⟨o, t⟩ = true := by
    rw [isSemicolon]
    split
    · rename_i h
      cases (h : t = .symbol .semicolon)
      exact (hends (by simp [EndsPhrase])).elim
    · exact Bool.false_ne_true
  have hkept : (⟨o, t⟩ :: (ls ++ rest)).dropWhile isSemicolon = ⟨o, t⟩ :: (ls ++ rest) :=
    List.dropWhile_cons_of_neg hnotSemicolon
  have hpassed : (modify fun s : Tokens => { s with left := s.left.dropWhile isSemicolon } :
      Parser Unit).run ⟨⟨o, t⟩ :: (ls ++ rest), stop⟩ = .ok ((), ⟨⟨o, t⟩ :: (ls ++ rest), stop⟩) :=
    congrArg (fun ls => Except.ok ((), (⟨ls, stop⟩ : Tokens))) hkept
  have hpeeked : peek?.run ⟨⟨o, t⟩ :: (ls ++ rest), stop⟩ =
      .ok (some t, ⟨⟨o, t⟩ :: (ls ++ rest), stop⟩) := rfl
  exact (run_bind_of_ok hpassed).trans ((run_bind_of_ok hpeeked).trans (run_bind_of_ok hrun))

theorem statements_run (hstarts : ∀ ts e, Phrases ts e → Starts ts)
    (h : ∀ ts e, Phrases ts e → Accepts tokens Closes statement ts e) {ts : List Token}
    {es : List Expr} (hphrases : Statements Phrases ts es) (ls : List Lexeme) (more stop : Nat)
    (hls : ls.map Lexeme.token = ts) (henough : ls.length ≤ more) (hfits : ls.length ≤ tokens) :
    (statements statement (more + 1)).run ⟨ls, stop⟩ = .ok (es, ⟨[], stop⟩) := by
  induction hphrases generalizing ls more with
  | done =>
    obtain rfl := List.map_eq_nil_iff.1 hls
    rfl
  | semicolon _ ih =>
    obtain ⟨o, ls, rfl, hls₁⟩ := exists_of_map_eq_cons hls
    exact ih ls more hls₁ (by simp at henough; omega) (by simp at hfits; omega)
  | @last ts e honly =>
    rw [← List.append_nil ls, statements_run_first hstarts h honly more stop hls (by simp [Closes])
      (by simpa using hfits)]
    rfl
  | @more ts us e es hphrase hothers ih =>
    obtain ⟨ls₁, _, rfl, rfl, hls₂⟩ := List.map_eq_append_iff.1 hls
    obtain ⟨o, ls₂, rfl, rfl⟩ := exists_of_map_eq_cons hls₂
    obtain ⟨more, rfl⟩ : ∃ n, more = n + 1 := ⟨more - 1, by simp at henough; omega⟩
    have hbehind : (statements statement (more + 1)).run ⟨⟨o, .symbol .semicolon⟩ :: ls₂, stop⟩ =
        .ok (es, ⟨[], stop⟩) :=
      ih ls₂ more rfl (by simp at henough; omega) (by simp at hfits; omega)
    rw [statements_run_first hstarts h hphrase (more + 1) stop rfl
      (Closes.symbol (by simp [EndsPhrase]) o ls₂) hfits, run_bind_of_ok (peekSymbol?_run _)]
    change ((e :: ·) <$> statements statement (more + 1)).run _ = _
    rw [StateT.run_map, hbehind]
    rfl

end Whole

/-- Statements are read as a whole text, where there are no more tokens than the bound. -/
theorem whole_run {ls : List Lexeme} {es : List Expr}
    (hphrases : Statements (Statement maxNesting) (ls.map Lexeme.token) es) {tokens : Nat}
    (hfits : ls.length ≤ tokens) (stop : Nat) :
    (whole tokens).run ⟨ls, stop⟩ = .ok (ofStatements es, ⟨[], stop⟩) := by
  have hrun := statements_run (fun _ _ => Statement.starts) (accepts_deeper tokens maxNesting)
    hphrases ls tokens stop rfl hfits hfits
  rw [whole, run_bind_of_ok hrun]
  rfl

/-- A text spells the expression of its statements, which nest on as many levels as there are. -/
theorem parse_eq_ok_iff {source : String} {e : Expr} :
    parse source = .ok e ↔ ∃ lexemes es, lex source = .ok lexemes ∧
      Statements (Statement maxNesting) (lexemes.map Lexeme.token) es ∧ e = ofStatements es := by
  refine ⟨statements_of_parse, ?_⟩
  rintro ⟨lexemes, es, hlex, hphrases, rfl⟩
  rw [parse_of_lex hlex, whole_run hphrases (Nat.le_refl _)]
  rfl

end Expr

end TextTemplate
