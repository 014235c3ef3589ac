import TextTemplate.Proofs.Expression.Prompt
import TextTemplate.Proofs.Expression.Spell

/-!
# Where the readers of expressions fail

Every reader of the expression language stops and fails where it has to: what it has read when it
fails begins a phrase of its form, for there are tokens that complete it, and the next token is what
it reports. An assignment is told from other expressions by its first two tokens, so that the reader
of assignments looks further ahead than the others; but an expression that starts with a name is
never refused for that name, and the token behind it is within reach.

## Main definitions

* `Expr.Begins` — tokens with which a phrase begins.
* `Expr.Prompts` — a family of readers that stop and fail where they have to.

## Main results

* `Expr.prompts_deeper`, `Expr.prompts_operandAbove` — the readers of a level.
* `Expr.prompt_whole` — the reader of a whole text.
-/

namespace TextTemplate.Expr

open TextTemplate.Parser

variable {α β ι : Type}

/-! ### Beginnings of phrases -/

/-- Tokens with which a phrase begins: with some more tokens, which can be written, they make up a
phrase. -/
def Begins (Q : List Token → α → Prop) (ts : List Token) : Prop :=
  ∃ us a, (∀ t ∈ us, t.Plain) ∧ Q (ts ++ us) a

private theorem Begins.of_phrase {Q : List Token → α → Prop} {ts : List Token} {a : α}
    (h : Q ts a) :
    Begins Q ts :=
  ⟨[], a, nofun, by rwa [List.append_nil]⟩

/-- A phrase that another one begins with, in front of tokens that complete the other one. -/
theorem Begins.complete {Q : List Token → α → Prop} {R : List Token → β → Prop} {ts : List Token}
    (h : Begins Q ts) (front : List Token) (close : List Token) (hplain : ∀ t ∈ close, t.Plain)
    (hR : ∀ us a, Q us a → ∃ b, R (front ++ (us ++ close)) b) : Begins R (front ++ ts) := by
  obtain ⟨us, a, hus, hQ⟩ := h
  obtain ⟨b, hb⟩ := hR _ a hQ
  refine ⟨us ++ close, b, ?_, by simpa using hb⟩
  intro t ht
  exact (List.mem_append.1 ht).elim (hus t) (hplain t)

theorem Begins.mono {Q : List Token → α → Prop} {R : List Token → β → Prop} {ts : List Token}
    (h : Begins Q ts) (hR : ∀ us a, Q us a → ∃ b, R us b) : Begins R ts :=
  h.complete [] [] nofun (by simpa using hR)

/-- A phrase that another one ends with, behind a token. -/
theorem Begins.behind {Q : List Token → α → Prop} {R : List Token → β → Prop} {us : List Token}
    (h : Begins Q us) (ts : List Token) (t : Token)
    (hR : ∀ vs a, Q vs a → ∃ b, R (ts ++ t :: vs) b) : Begins R (ts ++ t :: us) := by
  have hbegun := h.complete (R := R) (ts ++ [t]) [] nofun (by simpa using hR)
  rwa [List.append_assoc] at hbegun

/-- A name starts here. -/
def StartsWithName (ls : List Lexeme) : Prop :=
  ∃ o name rest, ls = ⟨o, .ident name⟩ :: rest

/-- Tokens with which a phrase begins that starts here; if a name starts here, it is one of them. -/
def BeginsAt (s : Tokens) (Q : Phrase) (ts : List Token) : Prop :=
  Begins Q ts ∧ (StartsWithName s.left → ts ≠ [])

/-- The readers of a family stop and fail where they have to. There is one for each bound on the
number of tokens, and a bound has to be large enough. -/
structure Prompts (tokens : ι → Nat) (p : ι → Parser Expr) (Q : Phrase) : Prop where
  starts (ts : List Token) (e : Expr) (h : Q ts e) : Starts ts
  prompt (s : Tokens) (room : ∀ i, s.left.length ≤ tokens i) : Prompt s p Q (BeginsAt s Q)

private theorem Starts.length_pos {ts : List Token} (h : Starts ts) : 0 < ts.length := by
  obtain ⟨t, us, rfl, -⟩ := h
  simp

/-- A name that completes a phrase. -/
theorem plain_name : ∀ t ∈ [Token.ident "x"], t.Plain := by
  rw [List.forall_mem_singleton]
  exact ⟨'x', [], rfl, rfl, nofun⟩

private theorem plain_symbol (s : Symbol) : ∀ t ∈ [Token.symbol s], t.Plain := by
  rw [List.forall_mem_singleton]
  exact trivial

/-- A bound that is larger than a number is a successor. -/
theorem exists_eq_succ {n : Nat} {more : ι → Nat} (h : ∀ i, n < more i) :
    ∃ k : ι → Nat, more = (fun i => k i + 1) ∧ ∀ i, n ≤ k i := by
  refine ⟨fun i => more i - 1, funext fun i => ?_, fun i => Nat.le_sub_one_of_lt (h i)⟩
  exact (Nat.sub_one_add_one (Nat.ne_zero_of_lt (h i))).symm

section Forms

variable {tokens more : ι → Nat} {operand item deeper value : ι → Parser Expr}
  {Operands Inside Values : Phrase} {s : Tokens} {ops : List (Symbol × BinaryOp)}

/-! ### Operands joined by operators -/

private theorem prompt_chainTail (hnoDot : ∀ sign op, List.lookup sign ops = some op → sign ≠ .dot)
    (h : Prompts tokens operand Operands) {ts : List Token} {a : Expr}
    (hleft : Joined ops Operands ts a) (hmore : ∀ i, s.left.length ≤ more i)
    (hroom : ∀ i, s.left.length ≤ tokens i) :
    Prompt s (fun i => chainTail ops (operand i) (more i) a)
      (fun us e => Joined ops Operands (ts ++ us) e)
      fun us => Begins (Joined ops Operands) (ts ++ us) := by
  induction hs : s.left.length using Nat.strongRecOn generalizing s more ts a with
  | ind n ih =>
    obtain ⟨ls, stop⟩ := s
    subst hs
    cases hsign : (symbolAt? ls).bind fun sign => List.lookup sign ops with
    | none =>
      have hstays : Prompt ⟨ls, stop⟩ (fun _ : ι => pure a)
          (fun us e => Joined ops Operands (ts ++ us) e)
          fun us => Begins (Joined ops Operands) (ts ++ us) := .pure (by simpa using hleft)
      refine hstays.look fun i ls' stop hls => chainTail_run_of_none ?_ _ _ _
      intro sign hat
      rw [← symbolAt?_congr hls, hat] at hsign
      exact hsign
    | some op =>
      obtain ⟨sign, hat, hop⟩ := Option.bind_eq_some_iff.1 hsign
      obtain ⟨o, rest, rfl⟩ := symbolAt?_eq_some hat
      obtain ⟨k, rfl, hk⟩ := exists_eq_succ (n := rest.length) hmore
      have hroom' : ∀ i, rest.length ≤ tokens i := fun i => Nat.le_of_succ_le (hroom i)
      refine Prompt.front [⟨o, .symbol sign⟩] (firm_singleton (by simpa using hnoDot _ _ hop)) ?_
        fun i ls' stop _ => chainTail_run_of_some hop _ _ _ _ _
      refine (h.prompt ⟨rest, stop⟩ hroom').bind (fun us hbegun => ?_) fun us b s' hright hlen => ?_
      · exact hbegun.1.behind ts _ fun us b hright => ⟨_, hleft.join hop hright⟩
      · have hshorter : s'.left.length ≤ rest.length := by simp at hlen; omega
        refine (ih s'.left.length (Nat.lt_succ_of_le hshorter) (hleft.join hop hright)
          (fun i => Nat.le_trans hshorter (hk i))
          (fun i => Nat.le_trans hshorter (hroom' i)) rfl).mono
          (fun vs e hjoined => ?_) fun vs hjoined => ?_
        · simpa using hjoined
        · simpa using hjoined

/-- A phrase of one kind begins where one of another kind does. -/
theorem BeginsAt.mono {Q R : Phrase} {ts : List Token} (h : BeginsAt s Q ts)
    (hR : ∀ us e, Q us e → R us e) : BeginsAt s R ts :=
  ⟨h.1.mono fun us e hQ => ⟨e, hR us e hQ⟩, h.2⟩

/-- Tokens with which a phrase begins behind others. -/
theorem BeginsAt.of_starts {R : Phrase} {ts us : List Token} (h : Starts ts)
    (hbegun : Begins R (ts ++ us)) : BeginsAt s R (ts ++ us) := by
  obtain ⟨t, vs, rfl, -⟩ := h
  exact ⟨hbegun, fun _ => by simp⟩

theorem Joined.starts (h : ∀ ts e, Operands ts e → Starts ts) {ts : List Token} {e : Expr}
    (hjoined : Joined ops Operands ts e) : Starts ts := by
  have hall : JoinedAll [ops] Operands ts e := hjoined
  exact hall.starts h

private theorem prompts_chain (hnoDot : ∀ sign op, List.lookup sign ops = some op → sign ≠ .dot)
    (h : Prompts tokens operand Operands) :
    Prompts tokens (fun i => chain (tokens i) ops (operand i)) (Joined ops Operands) where
  starts _ _ hjoined := hjoined.starts h.starts
  prompt s hroom := by
    refine (h.prompt s hroom).bind (fun ts hbegun => hbegun.mono fun _ _ => .single)
      fun ts a s' honly hlen => ?_
    have hroom' (i : ι) : s'.left.length ≤ tokens i := Nat.le_trans (by omega) (hroom i)
    exact (prompt_chainTail hnoDot h (.single honly) hroom' hroom').mono
      (fun _ _ hjoined => hjoined) fun us hbegun => .of_starts (h.starts ts a honly) hbegun

private theorem prompts_operations (h : Prompts tokens operand Operands) :
    Prompts tokens (fun i => operations (tokens i) (operand i)) (JoinedAll levels Operands) := by
  have hbelow (lvls : List (List (Symbol × BinaryOp))) (hsub : lvls ⊆ levels) :
      Prompts tokens (fun i => lvls.foldr (chain (tokens i)) (operand i))
        (JoinedAll lvls Operands) := by
    induction lvls with
    | nil => exact h
    | cons ops lvls ih =>
      obtain ⟨hhere, hsub⟩ := List.cons_subset.1 hsub
      refine prompts_chain (fun sign op hop heq => ?_) (ih hsub)
      exact not_opensSuffix_of_mem_levels hhere hop (.inl heq)
  exact hbelow levels (List.Subset.refl _)

/-! ### Assignments -/

/-- Whether an assignment starts is decided by the first two tokens. -/
theorem Unassigned.of_take {ls ls' : List Lexeme} (h : Unassigned (ls.map Lexeme.token))
    (heq : ls.take 2 = ls'.take 2) : Unassigned (ls'.map Lexeme.token) := by
  intro name sign us hls'
  obtain ⟨o, _, rfl, hls''⟩ := exists_of_map_eq_cons hls'
  obtain ⟨o', ls', rfl, -⟩ := exists_of_map_eq_cons hls''
  match ls, heq with
  | l :: l' :: ls, heq =>
    cases heq
    exact h name sign (ls.map Lexeme.token) rfl

private theorem take_two_append {read ls ls' : List Lexeme} (hread : read ≠ [])
    (h : ls.head? = ls'.head?) : (read ++ ls).take 2 = (read ++ ls').take 2 := by
  match read, hread with
  | [l], _ => cases ls <;> cases ls' <;> simp_all
  | l :: l' :: read, _ => rfl

/-- Where no name starts, no assignment does. -/
theorem unassigned_of_not_startsWithName {ls : List Lexeme} (h : ¬ StartsWithName ls) :
    Unassigned (ls.map Lexeme.token) := by
  intro name sign us hls
  obtain ⟨o, ls, rfl, -⟩ := exists_of_map_eq_cons hls
  exact (h ⟨o, name, ls, rfl⟩).elim

private theorem startsWithName_congr {ls ls' : List Lexeme} (h : ls.head? = ls'.head?)
    (hname : StartsWithName ls) : StartsWithName ls' := by
  obtain ⟨o, name, rest, rfl⟩ := hname
  obtain ⟨rest', rfl⟩ := List.head?_eq_some_iff.1 h.symm
  exact ⟨o, name, rest', rfl⟩

/-- Where the first two tokens start no assignment, there is none however the text goes on behind
the beginning of a phrase. -/
theorem prompt_unassigned (h : Prompts tokens operand Operands)
    (hunassigned : Unassigned (s.left.map Lexeme.token)) (hroom : ∀ i, s.left.length ≤ tokens i) :
    Prompt s (fun i => assignment (tokens i) (value i) (operand i)) (Assigned Values Operands)
      (BeginsAt s (Assigned Values Operands)) := by
  have hjoined : Prompt s (fun i => operations (tokens i) (operand i)) (Assigned Values Operands)
      (BeginsAt s (Assigned Values Operands)) :=
    ((prompts_operations h).prompt s hroom).mono (fun _ _ => .joined)
      fun _ hbegun => hbegun.mono fun _ _ => .joined
  refine hjoined.congr (fun i => assignment_run_of_unassigned hunassigned)
    fun i read rest ls stop hleft hread hls => assignment_run_of_unassigned ?_
  by_cases hname : StartsWithName s.left
  · refine hunassigned.of_take ?_
    rw [hleft]
    refine take_two_append ?_ hls.symm
    rintro rfl
    obtain ⟨e, hassigned⟩ | hbegun := hread
    · exact absurd (hassigned.starts h.starts).length_pos (Nat.lt_irrefl 0)
    · exact hbegun.2 hname rfl
  · refine unassigned_of_not_startsWithName fun hname' => hname ?_
    rw [hleft]
    exact startsWithName_congr (head?_append_congr hls read) hname'

private theorem prompt_assigned (hvalue : Prompts tokens value Values) {name : String}
    {sign : Symbol} {op : Option BinaryOp} (hsign : assignmentOp? sign = some op) (o o' : Nat)
    {ls : List Lexeme}
    {stop : Nat} (hroom : ∀ i, ls.length ≤ tokens i) :
    Prompt ⟨⟨o, .ident name⟩ :: ⟨o', .symbol sign⟩ :: ls, stop⟩
      (fun i => assignment (tokens i) (value i) (operand i)) (Assigned Values Operands)
      (BeginsAt ⟨⟨o, .ident name⟩ :: ⟨o', .symbol sign⟩ :: ls, stop⟩
        (Assigned Values Operands)) := by
  have hnoDot : sign ≠ .dot := by
    rintro rfl
    cases hsign
  have hbehind : Prompt ⟨ls, stop⟩ (fun i => value i >>= fun e => pure (.assign name op e))
      (fun ts => Assigned Values Operands (.ident name :: .symbol sign :: ts))
      fun ts => BeginsAt ⟨⟨o, .ident name⟩ :: ⟨o', .symbol sign⟩ :: ls, stop⟩
        (Assigned Values Operands) (.ident name :: .symbol sign :: ts) := by
    refine (hvalue.prompt ⟨ls, stop⟩ hroom).bind (fun ts hbegun => ⟨?_, fun _ => by simp⟩)
      fun ts e s' hright _ => .pure (by simpa using .assign hsign hright)
    exact hbegun.1.behind [.ident name] _ fun us e hright => ⟨_, .assign hsign hright⟩
  exact hbehind.front [⟨o, .ident name⟩, ⟨o', .symbol sign⟩]
    (firm_of_forall (by simpa using hnoDot)) fun i ls' stop _ =>
      (assignment_run_ident o o' name sign ls' stop).trans (by rw [hsign]; rfl)

private theorem prompts_assignment (hvalue : Prompts tokens value Values)
    (h : Prompts tokens operand Operands) :
    Prompts tokens (fun i => assignment (tokens i) (value i) (operand i))
      (Assigned Values Operands) where
  starts _ _ hassigned := hassigned.starts h.starts
  prompt s hroom := by
    by_cases hunassigned : Unassigned (s.left.map Lexeme.token)
    · exact prompt_unassigned h hunassigned hroom
    · simp only [Unassigned, not_forall] at hunassigned
      obtain ⟨name, sign, us, hls, hsign⟩ := hunassigned
      obtain ⟨left, stop⟩ := s
      obtain ⟨o, _, rfl, hls'⟩ := exists_of_map_eq_cons hls
      obtain ⟨o', ls, rfl, -⟩ := exists_of_map_eq_cons hls'
      obtain ⟨op, hsign⟩ := Option.ne_none_iff_exists'.1 hsign
      exact prompt_assigned hvalue hsign o o' fun i =>
        Nat.le_trans (Nat.le_add_right _ 2) (hroom i)

/-! ### What a symbol closes -/

/-- Phrases in front of the symbol that closes them. -/
def ClosedBy (close : Symbol) (Q : List Token → α → Prop) : List Token → α → Prop :=
  fun ts a => ∃ us, ts = us ++ [.symbol close] ∧ Q us a

private theorem Begins.closedBy {Q : List Token → α → Prop} {ts : List Token} (h : Begins Q ts)
    (close : Symbol) : Begins (ClosedBy close Q) ts :=
  h.complete [] [.symbol close] (plain_symbol close) fun us a hQ => ⟨a, us, rfl, hQ⟩

/-- A phrase, the symbol that closes it, and what the reader does then. -/
theorem prompt_closed {p : ι → Parser α} {f : ι → α → Parser β} {P : List Token → α → Prop}
    {Q : List Token → β → Prop} {B C : List Token → Prop} {close : Symbol} (hnoDot : close ≠ .dot)
    (hp : Prompt s p P C) (hC : ∀ ts, C ts → Begins P ts)
    (hB : ∀ ts, Begins (ClosedBy close P) ts → B ts)
    (hf : ∀ ts a s', ClosedBy close P ts a → s'.left.length ≤ s.left.length →
      Prompt s' (fun i => f i a) (fun us => Q (ts ++ us)) fun us => B (ts ++ us)) :
    Prompt s (fun i => p i >>= fun a => expect close >>= fun _ => f i a) Q B := by
  refine hp.bind (fun ts hbegun => hB ts ((hC ts hbegun).closedBy close)) fun ts a s' hP hlen => ?_
  refine (prompt_expect s' hnoDot).bind ?_ ?_
  · rintro _ rfl
    rw [List.append_nil]
    exact hB ts ((Begins.of_phrase hP).closedBy close)
  · rintro _ _ s'' rfl hlen'
    simp only [← List.append_assoc]
    exact hf _ a s'' ⟨ts, rfl, hP⟩ (by omega)

/-! ### Lists of items -/

/-- What the reader of items does behind an item. -/
def itemsBehind (item : Parser Expr) (close : Symbol) : Nat → Expr → Parser (List Expr)
  | 0, first => do
    expect close
    return [first]
  | more + 1, first => do
    if ← consume .comma then
      return first :: (← someItems item close more)
    else
      expect close
      return [first]

private theorem someItems_eq (item : Parser Expr) (close : Symbol) (more : Nat) :
    someItems item close more = item >>= itemsBehind item close more := by
  cases more <;> rfl

/-- The reader of items in two steps; the first is the same whatever the bound. -/
theorem prompt_someItems (h : Prompts tokens item Inside) {close : Symbol} (hnoDot : close ≠ .dot)
    (hmore : ∀ i, s.left.length ≤ more i) (hroom : ∀ i, s.left.length ≤ tokens i) :
    Prompt s (fun i => someItems (item i) close (more i)) (ClosedBy close (Items Inside))
      (Begins (ClosedBy close (Items Inside))) := by
  induction hs : s.left.length using Nat.strongRecOn generalizing s more with
  | ind n ih =>
    subst hs
    simp only [someItems_eq]
    refine (h.prompt s hroom).bind (fun ts hbegun => ?_) fun ts e s' hfirst hlen => ?_
    · exact (hbegun.1.mono fun us e honly => ⟨[e], .last honly⟩).closedBy close
    · have hnonempty := (h.starts ts e hfirst).length_pos
      have hlonger (i : ι) : s'.left.length < more i := Nat.lt_of_lt_of_le (by omega) (hmore i)
      obtain ⟨k, rfl, hk⟩ := exists_eq_succ hlonger
      have hlast : ClosedBy close (Items Inside) (ts ++ [.symbol close]) [e] :=
        ⟨ts, rfl, .last hfirst⟩
      have hanother {us : List Token} {es : List Expr}
          (hothers : ClosedBy close (Items Inside) us es) :
          ClosedBy close (Items Inside) (ts ++ .symbol .comma :: us) (e :: es) := by
        obtain ⟨us, rfl, hothers⟩ := hothers
        exact ⟨ts ++ .symbol .comma :: us, by simp, .more hfirst hothers⟩
      refine Prompt.consume (by decide) (fun o ls hleft => ?_) fun _ => ?_
      · have hshorter : ls.length < s'.left.length := by rw [hleft]; simp
        have hfits {fuel : ι → Nat} (hfuel : ∀ i, s'.left.length ≤ fuel i) (i : ι) :
            ls.length ≤ fuel i := Nat.le_trans (Nat.le_of_lt hshorter) (hfuel i)
        have hothers := ih ls.length (by omega) (s := ⟨ls, s'.stop⟩) (hfits hk)
          (hfits fun i => Nat.le_trans (by omega) (hroom i)) rfl
        refine hothers.bind (fun us hbegun => ?_) fun us es s'' hothers _ => .pure ?_
        · exact hbegun.behind ts _ fun us es hothers => ⟨_, hanother hothers⟩
        · simpa using hanother hothers
      · refine (prompt_expect s' hnoDot).bind ?_ ?_
        · rintro _ rfl
          rw [List.append_nil]
          exact ⟨[.symbol close], [e], plain_symbol close, hlast⟩
        · rintro _ _ s'' rfl -
          exact .pure (by simpa using hlast)

private theorem prompt_items (h : Prompts tokens item Inside) {close : Symbol}
    (hnoDot : close ≠ .dot) (hroom : ∀ i, s.left.length ≤ tokens i) :
    Prompt s (fun i => items (tokens i) (item i) close) (ClosedBy close (Listed Inside))
      (Begins (ClosedBy close (Listed Inside))) := by
  refine Prompt.consume hnoDot (fun o ls _ => .pure ⟨[], rfl, .none⟩) fun _ => ?_
  refine (prompt_someItems h hnoDot hroom hroom).mono ?_ fun ts hbegun => hbegun.mono ?_
  · rintro ts es ⟨us, hts, hitems⟩
    exact ⟨us, hts, .some hitems⟩
  · rintro ts es ⟨us, hts, hitems⟩
    exact ⟨es, us, hts, .some hitems⟩

/-! ### Primary expressions and what stands behind them -/

private theorem prompt_brackets (h : Prompts tokens deeper Inside) {ls : List Lexeme} {stop : Nat}
    (hroom : ∀ i, ls.length ≤ tokens i) :
    Prompt ⟨ls, stop⟩
      (fun i => do
        let inner ← deeper i
        expect .closeParen
        return inner)
      (fun ts e => Suffixed Inside (.symbol .openParen :: ts) e)
      fun ts => Begins (Suffixed Inside) (.symbol .openParen :: ts) := by
  refine prompt_closed (by decide) (h.prompt ⟨ls, stop⟩ hroom) (fun _ hbegun => hbegun.1)
    (fun ts hbegun => hbegun.behind [] _ ?_) ?_
  · rintro _ e ⟨us, rfl, hinner⟩
    exact ⟨e, .brackets hinner⟩
  · rintro _ e s' ⟨ts, rfl, hinner⟩ -
    exact .pure (by simpa using Suffixed.brackets hinner)

private theorem prompt_list (h : Prompts tokens deeper Inside) {ls : List Lexeme} {stop : Nat}
    (hroom : ∀ i, ls.length ≤ tokens i) :
    Prompt ⟨ls, stop⟩ (fun i => return .list (← items (tokens i) (deeper i) .closeBracket))
      (fun ts e => Suffixed Inside (.symbol .openBracket :: ts) e)
      fun ts => Begins (Suffixed Inside) (.symbol .openBracket :: ts) := by
  refine (prompt_items h (by decide) hroom).bind (fun ts hbegun => hbegun.behind [] _ ?_) ?_
  · rintro _ es ⟨us, rfl, hitems⟩
    exact ⟨.list es, .list hitems⟩
  · rintro _ es s' ⟨ts, rfl, hitems⟩ -
    exact .pure (by simpa using Suffixed.list hitems)

private theorem prompts_primary (h : Prompts tokens deeper Inside) :
    Prompts tokens (fun i => primary (tokens i) (deeper i)) (Suffixed Inside) where
  starts _ _ hsuffixed := hsuffixed.starts
  prompt s hroom := by
    obtain ⟨ls, stop⟩ := s
    have hbegins (o : Nat) (x : Symbol) (ls : List Lexeme) :
        BeginsAt ⟨⟨o, .symbol x⟩ :: ls, stop⟩ (Suffixed Inside) [] :=
      ⟨⟨[.ident "x"], ofName "x", plain_name, .atom rfl⟩, by rintro ⟨_, _, _, ⟨⟩⟩⟩
    refine Prompt.peek ?_
    match ls, hroom with
    | [], _ =>
      exact .fail (.unexpectedEnd rfl)
        ⟨⟨[.ident "x"], ofName "x", plain_name, .atom rfl⟩, by rintro ⟨_, _, _, ⟨⟩⟩⟩
    | ⟨_, .int n⟩ :: ls, _ => exact .skip nofun (.pure (.atom rfl))
    | ⟨_, .float x⟩ :: ls, _ => exact .skip nofun (.pure (.atom rfl))
    | ⟨_, .string s⟩ :: ls, _ => exact .skip nofun (.pure (.atom rfl))
    | ⟨_, .ident name⟩ :: ls, _ => exact .skip nofun (.pure (.atom rfl))
    | ⟨o, .symbol sign⟩ :: ls, hroom =>
      have hroom' (i : ι) : ls.length ≤ tokens i := Nat.le_of_succ_le (hroom i)
      have hreports : Reports (some (.symbol sign)) s!"unexpected '{sign.text}'" :=
        .unexpected (t := .symbol sign) rfl
      cases sign
      case openParen =>
        exact .skip nofun ((prompt_brackets h hroom').mono (fun _ _ hinner => hinner)
          fun _ hbegun => ⟨hbegun, fun _ => List.cons_ne_nil _ _⟩)
      case openBracket =>
        exact .skip nofun ((prompt_list h hroom').mono (fun _ _ hitems => hitems)
          fun _ hbegun => ⟨hbegun, fun _ => List.cons_ne_nil _ _⟩)
      all_goals exact .fail hreports (hbegins o _ ls)

/-- Behind the name of a field, or where there is none behind a dot. -/
theorem prompt_field {f : ι → String → Parser Expr} {Q : Phrase} {B : List Token → Prop}
    {o stop : Nat} {ls : List Lexeme} (h : B [.symbol .dot])
    (hnamed : ∀ o' name ls', ls = ⟨o', .ident name⟩ :: ls' → Prompt ⟨ls', stop⟩ (fun i => f i name)
      (fun ts => Q (.symbol .dot :: .ident name :: ts))
      fun ts => B (.symbol .dot :: .ident name :: ts)) :
    Prompt ⟨⟨o, .symbol .dot⟩ :: ls, stop⟩
      (fun i => do
        let dot ← here
        skip
        let name ← fieldName dot
        f i name) Q B := by
  have hother {l : Lexeme} {ls : List Lexeme} (hnoName : ∀ name, l.token ≠ .ident name) :
      Prompt ⟨⟨o, .symbol .dot⟩ :: l :: ls, stop⟩ (fun i => do
        let dot ← here
        skip
        let name ← fieldName dot
        f i name) Q B := by
    obtain ⟨o', t⟩ := l
    have hblames : Blames stop [⟨o, .symbol .dot⟩] (⟨o', t⟩ :: ls)
        (.malformed o' s!"expected a field name, found {foundText (some t)}") :=
      .next (.expected "a field name") nofun
    refine Prompt.of_error [⟨o, .symbol .dot⟩] h hblames (fun i => ?_) fun i ls' stop hls => ?_
    · cases t with
      | ident name => exact (hnoName name rfl).elim
      | int | float | string | symbol => rfl
    · obtain ⟨ls', rfl⟩ := List.head?_eq_some_iff.1 hls
      cases t with
      | ident name => exact (hnoName name rfl).elim
      | int | float | string | symbol => exact ⟨_, rfl⟩
  match ls, hnamed with
  | [], _ =>
    refine Prompt.of_error [⟨o, .symbol .dot⟩] h (.dot [] o) (fun i => rfl) fun i ls stop hls => ?_
    obtain rfl := List.head?_eq_none_iff.1 hls
    exact ⟨_, rfl⟩
  | ⟨o', .ident name⟩ :: ls, hnamed =>
    exact (hnamed o' name ls rfl).front [⟨o, .symbol .dot⟩, ⟨o', .ident name⟩]
      (by rintro _ ⟨⟩; exact nofun) fun i ls' stop _ => rfl
  | ⟨_, .int _⟩ :: _, _ => exact hother nofun
  | ⟨_, .float _⟩ :: _, _ => exact hother nofun
  | ⟨_, .string _⟩ :: _, _ => exact hother nofun
  | ⟨_, .symbol _⟩ :: _, _ => exact hother nofun

/-- What no suffix follows stays as it is. -/
theorem prompt_stays {Q : Phrase} {B : List Token → Prop} {e : Expr} (hQ : Q [] e)
    (h : Free [] s.left) :
    Prompt s (fun i => suffixes (tokens i) (deeper i) (more i) e) Q B := by
  refine (Prompt.pure hQ : Prompt s (fun _ : ι => pure e) Q B).look fun i ls stop hls => ?_
  refine suffixes_run_of_free (fun x hx => ?_) _ _ _
  rw [symbolAt?_congr hls] at hx
  exact h x hx

/-- Behind the tokens of a phrase, the reader of suffixes goes on with every suffix, if there are at
most this many lexemes left. -/
def GoesOn (f : ι → Expr → Parser Expr) (Inside : Phrase) (ts : List Token) (room : Nat) : Prop :=
  ∀ (us : List Token) (a : Expr) (s : Tokens), Suffixed Inside (ts ++ us) a →
    s.left.length ≤ room → Prompt s (fun i => f i a)
      (fun vs b => Suffixed Inside (ts ++ (us ++ vs)) b)
      fun vs => Begins (Suffixed Inside) (ts ++ (us ++ vs))

section Suffix

variable {f : ι → Expr → Parser Expr} {ts : List Token} {e : Expr} {ls : List Lexeme} {stop : Nat}

private theorem prompt_fieldSuffix (htarget : Suffixed Inside ts e)
    (hgoesOn : GoesOn f Inside ts ls.length) (o : Nat) :
    Prompt ⟨⟨o, .symbol .dot⟩ :: ls, stop⟩
      (fun i => do
        let dot ← here
        skip
        let name ← fieldName dot
        f i (.field e name))
      (fun us a => Suffixed Inside (ts ++ us) a) fun us => Begins (Suffixed Inside) (ts ++ us) := by
  have hfield (name : String) :
      Suffixed Inside (ts ++ [.symbol .dot, .ident name]) (.field e name) := .field htarget
  have hbegins : Begins (Suffixed Inside) (ts ++ [.symbol .dot]) :=
    ⟨[.ident "x"], _, plain_name, by simpa using hfield "x"⟩
  exact prompt_field hbegins fun o' name ls' hls =>
    hgoesOn _ _ ⟨ls', stop⟩ (hfield name) (by simp [hls])

private theorem prompt_indexSuffix (h : Prompts tokens deeper Inside)
    (htarget : Suffixed Inside ts e) (hgoesOn : GoesOn f Inside ts ls.length)
    (hroom : ∀ i, ls.length ≤ tokens i) :
    Prompt ⟨ls, stop⟩
      (fun i => do
        let place ← deeper i
        expect .closeBracket
        f i (.index e place))
      (fun us a => Suffixed Inside (ts ++ .symbol .openBracket :: us) a)
      fun us => Begins (Suffixed Inside) (ts ++ .symbol .openBracket :: us) := by
  have hindex {us : List Token} {b : Expr} (hplace : ClosedBy .closeBracket Inside us b) :
      Suffixed Inside (ts ++ .symbol .openBracket :: us) (.index e b) := by
    obtain ⟨us, rfl, hplace⟩ := hplace
    exact .index htarget hplace
  refine prompt_closed (by decide) (h.prompt ⟨ls, stop⟩ hroom) (fun _ hbegun => hbegun.1)
    (fun us hbegun => ?_) fun us b s' hplace hshorter => hgoesOn _ _ s' (hindex hplace) hshorter
  exact hbegun.behind ts _ fun us b hplace => ⟨_, hindex hplace⟩

private theorem prompt_callSuffix (h : Prompts tokens deeper Inside)
    (htarget : Suffixed Inside ts e) (hgoesOn : GoesOn f Inside ts ls.length)
    (hroom : ∀ i, ls.length ≤ tokens i) :
    Prompt ⟨ls, stop⟩
      (fun i => do
        let args ← items (tokens i) (deeper i) .closeParen
        f i (.call e args))
      (fun us a => Suffixed Inside (ts ++ .symbol .openParen :: us) a)
      fun us => Begins (Suffixed Inside) (ts ++ .symbol .openParen :: us) := by
  have hcall {us : List Token} {args : List Expr}
      (hitems : ClosedBy .closeParen (Listed Inside) us args) :
      Suffixed Inside (ts ++ .symbol .openParen :: us) (.call e args) := by
    obtain ⟨us, rfl, hitems⟩ := hitems
    exact .call htarget hitems
  refine (prompt_items h (by decide) hroom).bind (fun us hbegun => ?_)
    fun us args s' hitems hlen => hgoesOn _ _ s' (hcall hitems) (by simp at hlen; omega)
  exact hbegun.behind ts _ fun us args hitems => ⟨_, hcall hitems⟩

end Suffix

private theorem prompt_suffixes (h : Prompts tokens deeper Inside) {ts : List Token} {e : Expr}
    (htarget : Suffixed Inside ts e) (hmore : ∀ i, s.left.length ≤ more i)
    (hroom : ∀ i, s.left.length ≤ tokens i) :
    Prompt s (fun i => suffixes (tokens i) (deeper i) (more i) e)
      (fun us a => Suffixed Inside (ts ++ us) a) fun us => Begins (Suffixed Inside) (ts ++ us) := by
  induction hs : s.left.length using Nat.strongRecOn generalizing s more ts e with
  | ind n ih =>
    obtain ⟨ls, stop⟩ := s
    subst hs
    by_cases hopens : ∃ x, symbolAt? ls = some x ∧ OpensSuffix x
    · obtain ⟨sign, hat, hopens⟩ := hopens
      obtain ⟨o, rest, rfl⟩ := symbolAt?_eq_some hat
      obtain ⟨k, rfl, hk⟩ := exists_eq_succ (n := rest.length) hmore
      have hroom' : ∀ i, rest.length ≤ tokens i := fun i => Nat.le_of_succ_le (hroom i)
      have hgoesOn : GoesOn (fun i => suffixes (tokens i) (deeper i) (k i)) Inside ts
          rest.length := by
        intro us a s' htarget' hshorter
        simp only [← List.append_assoc]
        exact ih s'.left.length (Nat.lt_succ_of_le hshorter) htarget'
          (fun i => Nat.le_trans hshorter (hk i)) (fun i => Nat.le_trans hshorter (hroom' i)) rfl
      rcases hopens with rfl | rfl | rfl
      · refine (prompt_fieldSuffix htarget hgoesOn o).look fun i ls' stop hls => ?_
        obtain ⟨ls', rfl⟩ := List.head?_eq_some_iff.1 hls
        rfl
      · exact (prompt_indexSuffix h htarget hgoesOn hroom').front [⟨o, .symbol .openBracket⟩]
          (firm_singleton (by simp)) fun i ls' stop _ => rfl
      · exact (prompt_callSuffix h htarget hgoesOn hroom').front [⟨o, .symbol .openParen⟩]
          (firm_singleton (by simp)) fun i ls' stop _ => rfl
    · exact prompt_stays (by simpa using htarget) fun x hx =>
        ⟨fun hsuffix => hopens ⟨x, hx, hsuffix⟩, nofun⟩

/-! ### Operands -/

private theorem prompts_operand (hop : Prompts tokens operand Operands)
    (h : Prompts tokens deeper Inside) :
    Prompts tokens (fun i => Expr.operand (tokens i) (operand i) (deeper i))
      (Operated Operands Inside) where
  starts _ _ hoperated := hoperated.starts
  prompt s hroom := by
    have hbehind {o : Nat} {ls : List Lexeme} {sign : Symbol} {op : UnaryOp}
        (hleft : s.left = ⟨o, .symbol sign⟩ :: ls) (hunary : prefixOp? sign = some op) :
        Prompt ⟨ls, s.stop⟩ (fun i => operand i >>= fun e => pure (.unary op e))
          (fun ts => Operated Operands Inside (.symbol sign :: ts))
          fun ts => BeginsAt s (Operated Operands Inside) (.symbol sign :: ts) := by
      have hroom' (i : ι) : ls.length ≤ tokens i :=
        Nat.le_of_succ_le (by simpa [hleft] using hroom i)
      refine (hop.prompt ⟨ls, s.stop⟩ hroom').bind
        (fun ts hbegun => ⟨?_, fun _ => List.cons_ne_nil _ _⟩)
        fun ts e s' hoperated _ => .pure (by simpa using Operated.unary hunary hoperated)
      exact hbegun.1.behind [] _ fun us e hoperated => ⟨_, .unary hunary hoperated⟩
    refine Prompt.consume (by decide) (fun o ls hleft => hbehind hleft rfl) fun _ => ?_
    refine Prompt.consume (by decide) (fun o ls hleft => hbehind hleft rfl) fun _ => ?_
    refine ((prompts_primary h).prompt s hroom).bind
      (fun ts hbegun => hbegun.mono fun _ _ => .suffixed) fun ts e s' htarget hlen => ?_
    have hroom' (i : ι) : s'.left.length ≤ tokens i := Nat.le_trans (by omega) (hroom i)
    refine (prompt_suffixes h htarget hroom' hroom').mono (fun _ _ => .suffixed) fun us hbegun => ?_
    exact .of_starts htarget.starts (hbegun.mono fun vs a hsuffixed => ⟨a, .suffixed hsuffixed⟩)

end Forms

/-! ### The levels of nesting -/

private theorem prompts_tooDeep (tokens : ι → Nat) : Prompts tokens (fun _ => tooDeep) Nothing where
  starts _ _ hnothing := hnothing.elim
  prompt s _ :=
    { stops := by rintro i _ _ ⟨⟩
      fails := by
        rintro i _ ⟨⟩
        exact .inl ⟨_, rfl⟩ }

mutual

/-- The readers of a level stop and fail where they have to. -/
theorem prompts_deeper (tokens : ι → Nat) (n : Nat) :
    Prompts tokens (fun i => deeper (tokens i) n) (Statement n) := by
  cases n with
  | zero => exact prompts_tooDeep tokens
  | succ n => exact prompts_assignment (prompts_deeper tokens n) (prompts_operandAbove tokens n)

/-- So do the readers of the operands of a level. -/
theorem prompts_operandAbove (tokens : ι → Nat) (n : Nat) :
    Prompts tokens (fun i => operandAbove (tokens i) n) (Operand n) := by
  cases n with
  | zero => exact prompts_operand (prompts_tooDeep tokens) (prompts_tooDeep tokens)
  | succ n =>
    exact prompts_operand (prompts_operandAbove tokens n)
      (prompts_assignment (prompts_deeper tokens n) (prompts_operandAbove tokens n))

end

/-! ### Whole texts -/

section Whole

variable {tokens more : ι → Nat} {statement : ι → Parser Expr} {Phrases : Phrase} {s : Tokens}

/-- What the reader of statements does behind superfluous semicolons. -/
def statementsFrom (statement : Parser Expr) (more : Nat) : Parser (List Expr) := do
  if (← peek?).isNone then
    return []
  else
    let first ← statement
    if (← peekSymbol?) = some .semicolon then
      return first :: (← statements statement more)
    else
      return [first]

private theorem statements_run_succ (statement : Parser Expr) (more : Nat) (ls : List Lexeme)
    (stop : Nat) : (statements statement (more + 1)).run ⟨ls, stop⟩ =
      (statementsFrom statement more).run ⟨ls.dropWhile isSemicolon, stop⟩ :=
  rfl

private theorem dropWhile_isSemicolon_append {semicolons ls' : List Lexeme} (ls : List Lexeme)
    (hall : ∀ l ∈ semicolons, isSemicolon l = true)
    (h : ls'.head? = (ls.dropWhile isSemicolon).head?) :
    (semicolons ++ ls').dropWhile isSemicolon = ls' := by
  rw [List.dropWhile_append_of_pos hall]
  cases ls' with
  | nil => rfl
  | cons l ls' =>
    refine List.dropWhile_cons_of_neg fun hsemicolon => ?_
    have hfirst := List.head?_dropWhile_not isSemicolon ls
    rw [← h] at hfirst
    cases hsemicolon.symm.trans hfirst

/-- Superfluous semicolons are passed over. -/
theorem prompt_semicolons {ls : List Lexeme} {stop : Nat} {k : ι → Nat}
    (h : Prompt ⟨ls.dropWhile isSemicolon, stop⟩ (fun i => statementsFrom (statement i) (k i))
      (Statements Phrases) (Begins (Statements Phrases))) :
    Prompt ⟨ls, stop⟩ (fun i => statements (statement i) (k i + 1)) (Statements Phrases)
      (Begins (Statements Phrases)) := by
  have hall : ∀ l ∈ ls.takeWhile isSemicolon, isSemicolon l = true :=
    List.all_eq_true.1 List.all_takeWhile
  have hfirm : Firm (ls.takeWhile isSemicolon) :=
    firm_of_forall fun l hl => by simp [token_of_isSemicolon (hall l hl)]
  have hpassed : Prompt ⟨ls.takeWhile isSemicolon ++ ls.dropWhile isSemicolon, stop⟩
      (fun i => statements (statement i) (k i + 1)) (Statements Phrases)
      (Begins (Statements Phrases)) := by
    refine Prompt.front (ls.takeWhile isSemicolon) hfirm
      (h.mono (fun ts es hphrases => hphrases.semicolons hall) fun ts hbegun => ?_)
      fun i ls' stop hls => ?_
    · exact hbegun.complete _ [] nofun fun us es hphrases =>
        ⟨es, by simpa using hphrases.semicolons hall⟩
    · rw [statements_run_succ, dropWhile_isSemicolon_append ls hall hls]
  rwa [List.takeWhile_append_dropWhile] at hpassed

private theorem prompt_statements (h : Prompts tokens statement Phrases)
    (hmore : ∀ i, s.left.length < more i) (hroom : ∀ i, s.left.length ≤ tokens i) :
    Prompt s (fun i => statements (statement i) (more i)) (Statements Phrases)
      (Begins (Statements Phrases)) := by
  induction hs : s.left.length using Nat.strongRecOn generalizing s more with
  | ind n ih =>
    obtain ⟨ls, stop⟩ := s
    subst hs
    obtain ⟨k, rfl, hk⟩ := exists_eq_succ hmore
    have hshorter : (ls.dropWhile isSemicolon).length ≤ ls.length :=
      (List.dropWhile_suffix isSemicolon).length_le
    have hroom' (i : ι) : (ls.dropWhile isSemicolon).length ≤ tokens i :=
      Nat.le_trans hshorter (hroom i)
    refine prompt_semicolons (Prompt.peek ?_)
    split
    · exact .pure .done
    · refine (h.prompt ⟨_, stop⟩ hroom').bind
        (fun ts hbegun => hbegun.1.mono fun us e honly => ⟨[e], .last honly⟩)
        fun ts e s' hfirst hlen => Prompt.peekSymbol ?_
      split
      · next hat =>
        obtain ⟨o, rest, hleft⟩ := symbolAt?_eq_some hat
        obtain ⟨left, stop'⟩ := s'
        cases hleft
        have hfewer : rest.length < ls.length := by simp at hlen; omega
        have hroom'' (i : ι) : rest.length ≤ tokens i :=
          Nat.le_trans (Nat.le_of_lt hfewer) (hroom i)
        have hothers : Prompt ⟨rest, stop'⟩
            (fun i => statements (statement i) (k i) >>= fun es => pure (e :: es))
            (fun us es => Statements Phrases (ts ++ .symbol .semicolon :: us) es)
            fun us => Begins (Statements Phrases) (ts ++ .symbol .semicolon :: us) := by
          refine (ih rest.length hfewer (s := ⟨rest, stop'⟩)
            (fun i => Nat.lt_of_lt_of_le hfewer (hk i)) hroom'' rfl).bind (fun us hbegun => ?_)
            fun us es s'' hothers _ => .pure (by simpa using Statements.more hfirst hothers)
          exact hbegun.behind ts _ fun us es hothers => ⟨_, .more hfirst hothers⟩
        obtain ⟨k, rfl, -⟩ := exists_eq_succ fun i => Nat.lt_of_lt_of_le hfewer (hk i)
        exact hothers.front [⟨o, .symbol .semicolon⟩] (firm_singleton (by simp))
          fun i ls' stop _ => rfl
      · exact .pure (.last (by simpa using hfirst))

/-- The reader of a whole text stops and fails where it has to. -/
theorem prompt_whole (hroom : ∀ i, s.left.length ≤ tokens i) :
    Prompt s (fun i => whole (tokens i))
      (fun ts e => ∃ es, Statements (Statement maxNesting) ts es ∧ e = ofStatements es)
      (Begins (Statements (Statement maxNesting))) := by
  refine (prompt_statements (prompts_deeper tokens maxNesting)
    (fun i => Nat.lt_succ_of_le (hroom i)) hroom).bind (fun _ hbegun => hbegun)
    fun ts es s' hphrases _ => ?_
  refine Prompt.peek ?_
  split
  · exact .unexpected _ (by simpa using Begins.of_phrase hphrases)
  · exact .pure ⟨es, by simpa using hphrases, rfl⟩

end Whole

end TextTemplate.Expr
