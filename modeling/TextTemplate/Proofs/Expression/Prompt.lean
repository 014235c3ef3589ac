import TextTemplate.Proofs.Attempt
import TextTemplate.Proofs.Expression.Level

/-!
# Readers that notice an error at once

A reader looks one token ahead of what it has read, so where it stops or fails, another text with
the same tokens up to the next one takes it to the same place. And it fails only in front of a token
that cannot come next: what it has read up to there can still be completed.

How often the readers of chains, lists and suffixes go on at most does not matter for that, as long
as there are no more tokens than that. The rules are therefore about a family of readers that differ
in this number only, and a failure of one of them is a failure of all.

## Main definitions

* `Parser.Reports`, `Parser.Blames` — what a message says about the token that is next.
* `Parser.Prompt` — a reader that stops and fails where it has to.

## Main results

* `Parser.Prompt.bind`, `Parser.Prompt.front`, `Parser.Prompt.look` — the steps of a reader.
-/

namespace TextTemplate

namespace Parser

variable {ι α β : Type}

/-! ### What a message says -/

/-- How a message names the next token, or the end. -/
def foundText (next : Option Token) : String :=
  (next.map Token.describe).getD "end of expression"

/-- The reasons that name the next token, or that speak of the end where there is none. -/
inductive Reports (next : Option Token) : String → Prop
  | expected (what : String) : Reports next s!"expected {what}, found {foundText next}"
  | unexpected {t : Token} (isNext : next = some t) : Reports next s!"unexpected '{t.describe}'"
  | unexpectedEnd (isEnd : next = none) : Reports next "unexpected end of expression"

/-- A reason that speaks of the end names it last. -/
theorem Reports.isSuffix_of_end {reason : String} (h : Reports none reason) :
    "end of expression".toList <:+ reason.toList := by
  cases h with
  | expected what => exact ⟨(s!"expected {what}, found ").toList, by simp [foundText, toString]⟩
  | unexpected hnext => cases hnext
  | unexpectedEnd => exact ⟨"unexpected ".toList, rfl⟩

/-- The lexemes do not end with a dot. -/
def Firm (read : List Lexeme) : Prop :=
  ∀ l ∈ read.getLast?, l.token ≠ .symbol .dot

/-- The error is reported for what follows the lexemes that have been read, at its place; at the end
of a text that stops behind a dot it is reported for the dot. -/
inductive Blames (stop : Nat) : List Lexeme → List Lexeme → EvalError → Prop
  | next {read rest : List Lexeme} {reason : String}
      (reports : Reports (rest.head?.map Lexeme.token) reason) (firm : rest = [] → Firm read) :
      Blames stop read rest (.malformed ((rest.head?.map Lexeme.offset).getD stop) reason)
  | dot (read : List Lexeme) (o : Nat) : Blames stop (read ++ [⟨o, .symbol .dot⟩]) []
      (.malformed o "expected a field name, found .")

private theorem firm_nil : Firm [] := nofun

theorem firm_of_forall {read : List Lexeme} (h : ∀ l ∈ read, l.token ≠ .symbol .dot) :
    Firm read :=
  fun l hl => h l (List.mem_of_getLast? hl)

theorem firm_singleton {l : Lexeme} (h : l.token ≠ .symbol .dot) : Firm [l] :=
  firm_of_forall (List.forall_mem_singleton.2 h)

theorem Firm.append {read more : List Lexeme} (h : Firm read) (hmore : Firm more) :
    Firm (read ++ more) := by
  intro l hl
  rw [List.getLast?_append, Option.mem_def, Option.or_eq_some_iff] at hl
  obtain hl | ⟨-, hl⟩ := hl
  · exact hmore l hl
  · exact h l hl

private theorem Blames.behind {stop : Nat} {read more rest : List Lexeme} {e : EvalError}
    (h : Blames stop more rest e) (hfirm : Firm read) : Blames stop (read ++ more) rest e := by
  cases h with
  | next hreports hmore => exact .next hreports fun hrest => hfirm.append (hmore hrest)
  | dot more o =>
    rw [← List.append_assoc]
    exact .dot (read ++ more) o

theorem head?_append_congr {ls ls' : List Lexeme} (h : ls.head? = ls'.head?)
    (read : List Lexeme) : (read ++ ls).head? = (read ++ ls').head? := by
  rw [List.head?_append, List.head?_append, h]

theorem symbolAt?_congr {ls ls' : List Lexeme} (h : ls.head? = ls'.head?) :
    symbolAt? ls = symbolAt? ls' := by
  cases ls with
  | nil =>
    obtain rfl := List.head?_eq_none_iff.1 h.symm
    rfl
  | cons l ls =>
    obtain ⟨ls', rfl⟩ := List.head?_eq_some_iff.1 h.symm
    obtain ⟨o, t⟩ := l
    cases t <;> rfl

/-! ### The rules -/

/-- Where a reader of the family stops, it has read the tokens of a phrase, and where it fails for
another reason than the depth, it has read the beginning of one and reports what comes next. Any
other reader of the family does the same on every text that goes on in the same way up to the
token that is next. -/
structure Prompt (s : Tokens) (p : ι → Parser α) (Q : List Token → α → Prop)
    (B : List Token → Prop) : Prop where
  stops (i : ι) (a : α) (s' : Tokens) (hrun : (p i).run s = .ok (a, s')) :
    s'.stop = s.stop ∧ ∃ read, s.left = read ++ s'.left ∧ Firm read ∧ Q (read.map Lexeme.token) a ∧
      ∀ j ls stop, ls.head? = s'.left.head? →
        (p j).run ⟨read ++ ls, stop⟩ = .ok (a, ⟨ls, stop⟩)
  fails (i : ι) (e : EvalError) (hrun : (p i).run s = .error e) :
    IsTooDeep (.error e : Except EvalError α) ∨
      ∃ read rest, s.left = read ++ rest ∧ B (read.map Lexeme.token) ∧ Blames s.stop read rest e ∧
        ∀ j ls stop, ls.head? = rest.head? → ∃ e', (p j).run ⟨read ++ ls, stop⟩ = .error e'

namespace Prompt

variable {s : Tokens} {p q : ι → Parser β} {Q R : List Token → β → Prop} {B C : List Token → Prop}

theorem pure {b : β} (h : Q [] b) : Prompt s (fun _ : ι => pure b) Q B where
  stops := by
    rintro i _ _ ⟨⟩
    exact ⟨rfl, [], rfl, firm_nil, h, fun _ _ _ _ => rfl⟩
  fails := by rintro i _ ⟨⟩

/-- Lexemes that the reader passes over when what follows is next. -/
theorem front (passed : List Lexeme) {ls : List Lexeme} {stop : Nat} (hfirm : Firm passed)
    (h : Prompt ⟨ls, stop⟩ q (fun ts => Q (passed.map Lexeme.token ++ ts))
      fun ts => B (passed.map Lexeme.token ++ ts))
    (hrun : ∀ i ls' stop, ls'.head? = ls.head? →
      (p i).run ⟨passed ++ ls', stop⟩ = (q i).run ⟨ls', stop⟩) :
    Prompt ⟨passed ++ ls, stop⟩ p Q B where
  stops i b s' hok := by
    rw [hrun i ls stop rfl] at hok
    obtain ⟨hstop, read, hleft, hread, hQ, hagain⟩ := h.stops i b s' hok
    refine ⟨hstop, passed ++ read, ?_, hfirm.append hread, ?_, fun j ls' stop hls => ?_⟩
    · rw [List.append_assoc, ← hleft]
    · rwa [List.map_append]
    · rw [List.append_assoc, hrun j _ stop ((head?_append_congr hls read).trans
        (congrArg List.head? hleft).symm)]
      exact hagain j ls' stop hls
  fails i e herr := by
    rw [hrun i ls stop rfl] at herr
    refine (h.fails i e herr).imp_right ?_
    rintro ⟨read, rest, hleft, hB, hblames, hagain⟩
    refine ⟨passed ++ read, rest, ?_, ?_, hblames.behind hfirm, fun j ls' stop hls => ?_⟩
    · rw [List.append_assoc, ← hleft]
    · rwa [List.map_append]
    · rw [List.append_assoc, hrun j _ stop ((head?_append_congr hls read).trans
        (congrArg List.head? hleft).symm)]
      exact hagain j ls' stop hls

/-- A step that always succeeds and looks at the next token only, if at any, can be left out. -/
theorem look (h : Prompt s q Q B)
    (hrun : ∀ i ls stop, ls.head? = s.left.head? → (p i).run ⟨ls, stop⟩ = (q i).run ⟨ls, stop⟩) :
    Prompt s p Q B :=
  front [] firm_nil h hrun

/-- Readers that do the same here and wherever the same is read. -/
theorem congr (h : Prompt s q Q B) (hhere : ∀ i, (p i).run s = (q i).run s)
    (hagain : ∀ i read rest ls stop, s.left = read ++ rest →
      ((∃ b, Q (read.map Lexeme.token) b) ∨ B (read.map Lexeme.token)) → ls.head? = rest.head? →
        (p i).run ⟨read ++ ls, stop⟩ = (q i).run ⟨read ++ ls, stop⟩) : Prompt s p Q B where
  stops i b s' hok := by
    rw [hhere] at hok
    obtain ⟨hstop, read, hleft, hfirm, hQ, hsame⟩ := h.stops i b s' hok
    refine ⟨hstop, read, hleft, hfirm, hQ, fun j ls stop hls => ?_⟩
    rw [hagain j read _ ls stop hleft (.inl ⟨b, hQ⟩) hls]
    exact hsame j ls stop hls
  fails i e herr := by
    rw [hhere] at herr
    refine (h.fails i e herr).imp_right ?_
    rintro ⟨read, rest, hleft, hB, hblames, hsame⟩
    refine ⟨read, rest, hleft, hB, hblames, fun j ls stop hls => ?_⟩
    rw [hagain j read rest ls stop hleft (.inr hB) hls]
    exact hsame j ls stop hls

/-- One step after another. The beginning of a phrase for the first step has to be one for both. -/
theorem bind {p : ι → Parser α} {f : ι → α → Parser β} {R : List Token → α → Prop}
    (hp : Prompt s p R C) (hC : ∀ ts, C ts → B ts)
    (hf : ∀ ts a s', R ts a → s.left.length = ts.length + s'.left.length →
      Prompt s' (fun i => f i a) (fun us => Q (ts ++ us)) fun us => B (ts ++ us)) :
    Prompt s (fun i => p i >>= f i) Q B where
  stops i b s'' hok := by
    rw [StateT.run_bind, Attempt.bind_eq_ok_iff] at hok
    obtain ⟨⟨a, s'⟩, hpa, hfb⟩ := hok
    obtain ⟨hstop, read, hleft, hfirm, hR, hagain⟩ := hp.stops i a s' hpa
    have hnext := hf _ a s' hR (by rw [hleft]; simp)
    obtain ⟨hstop', read', hleft', hfirm', hQ, hagain'⟩ := hnext.stops i b s'' hfb
    refine ⟨hstop'.trans hstop, read ++ read', ?_, hfirm.append hfirm', ?_, fun j ls stop hls => ?_⟩
    · rw [hleft, hleft', List.append_assoc]
    · rwa [List.map_append]
    · rw [List.append_assoc, run_bind_of_ok (hagain j (read' ++ ls) stop
        (hleft' ▸ head?_append_congr hls read'))]
      exact hagain' j ls stop hls
  fails i e herr := by
    rw [StateT.run_bind, Attempt.bind_eq_error_iff] at herr
    obtain herr | ⟨⟨a, s'⟩, hpa, herr⟩ := herr
    · refine (hp.fails i e herr).imp ?_ ?_
      · rintro ⟨offset, heq⟩
        cases heq
        exact ⟨offset, rfl⟩
      · rintro ⟨read, rest, hleft, hbegun, hblames, hagain⟩
        refine ⟨read, rest, hleft, hC _ hbegun, hblames, fun j ls stop hls => ?_⟩
        obtain ⟨e', he'⟩ := hagain j ls stop hls
        exact ⟨e', by rw [StateT.run_bind, he']; rfl⟩
    · obtain ⟨hstop, read, hleft, hfirm, hR, hagain⟩ := hp.stops i a s' hpa
      have hnext := hf _ a s' hR (by rw [hleft]; simp)
      refine (hnext.fails i e herr).imp_right ?_
      rintro ⟨read', rest, hleft', hB, hblames, hagain'⟩
      refine ⟨read ++ read', rest, ?_, ?_, ?_, fun j ls stop hls => ?_⟩
      · rw [hleft, hleft', List.append_assoc]
      · rwa [List.map_append]
      · rw [← hstop]
        exact hblames.behind hfirm
      · rw [List.append_assoc, run_bind_of_ok (hagain j (read' ++ ls) stop
          (hleft' ▸ head?_append_congr hls read'))]
        exact hagain' j ls stop hls

theorem mono (h : Prompt s p R C) (hQ : ∀ ts b, R ts b → Q ts b) (hB : ∀ ts, C ts → B ts) :
    Prompt s p Q B where
  stops i b s' hok := by
    obtain ⟨hstop, read, hleft, hfirm, hR, hagain⟩ := h.stops i b s' hok
    exact ⟨hstop, read, hleft, hfirm, hQ _ b hR, hagain⟩
  fails i e herr := by
    refine (h.fails i e herr).imp_right ?_
    rintro ⟨read, rest, hleft, hC, hblames, hagain⟩
    exact ⟨read, rest, hleft, hB _ hC, hblames, hagain⟩

/-- A failure behind lexemes that can be completed, whatever follows the next token. -/
theorem of_error (read : List Lexeme) {rest : List Lexeme} {stop : Nat} {e : EvalError}
    (h : B (read.map Lexeme.token)) (hblames : Blames stop read rest e)
    (hhere : ∀ i, (p i).run ⟨read ++ rest, stop⟩ = .error e)
    (hagain : ∀ i ls stop, ls.head? = rest.head? →
      ∃ e', (p i).run ⟨read ++ ls, stop⟩ = .error e') : Prompt ⟨read ++ rest, stop⟩ p Q B where
  stops i b s' hok := by
    rw [hhere] at hok
    cases hok
  fails i e' herr := by
    rw [hhere] at herr
    cases herr
    exact .inr ⟨read, rest, rfl, h, hblames, hagain⟩

theorem fail {reason : String} (hreports : Reports (s.left.head?.map Lexeme.token) reason)
    (h : B []) : Prompt s (fun _ : ι => Parser.fail reason) Q B :=
  of_error [] h (.next hreports fun _ => firm_nil) (fun _ => rfl) fun _ _ _ _ => ⟨_, rfl⟩

theorem unexpected (expected : String) (h : B []) :
    Prompt s (fun _ : ι => Parser.unexpected expected) Q B := by
  have hreports : Reports (s.left.head?.map Lexeme.token) _ := .expected expected
  refine (Prompt.fail hreports h).look fun _ ls stop hls => ?_
  rw [← hls]
  rfl

theorem peekSymbol {f : ι → Option Symbol → Parser β}
    (h : Prompt s (fun i => f i (symbolAt? s.left)) Q B) :
    Prompt s (fun i => peekSymbol? >>= f i) Q B := by
  refine h.look fun i ls stop hls => ?_
  rw [run_bind_of_ok (peekSymbol?_run _), symbolAt?_congr hls]

theorem peek {f : ι → Option Token → Parser β}
    (h : Prompt s (fun i => f i (s.left.head?.map Lexeme.token)) Q B) :
    Prompt s (fun i => peek? >>= f i) Q B := by
  refine h.look fun i ls stop hls => ?_
  rw [← hls]
  rfl

theorem skip {l : Lexeme} {ls : List Lexeme} {stop : Nat} {f : ι → Unit → Parser β}
    (hfirm : l.token ≠ .symbol .dot)
    (h : Prompt ⟨ls, stop⟩ (fun i => f i ()) (fun ts => Q (l.token :: ts))
      fun ts => B (l.token :: ts)) :
    Prompt ⟨l :: ls, stop⟩ (fun i => Parser.skip >>= f i) Q B :=
  Prompt.front [l] (firm_singleton hfirm) h fun _ _ _ _ => rfl

theorem consume {x : Symbol} {f : ι → Bool → Parser β} (hx : x ≠ .dot)
    (hthere : ∀ o ls, s.left = ⟨o, .symbol x⟩ :: ls → Prompt ⟨ls, s.stop⟩ (fun i => f i true)
      (fun ts => Q (.symbol x :: ts)) fun ts => B (.symbol x :: ts))
    (hmissing : symbolAt? s.left ≠ some x → Prompt s (fun i => f i false) Q B) :
    Prompt s (fun i => Parser.consume x >>= f i) Q B := by
  by_cases h : symbolAt? s.left = some x
  · obtain ⟨o, ls, hleft⟩ := symbolAt?_eq_some h
    obtain ⟨left, stop⟩ := s
    cases hleft
    refine Prompt.front [⟨o, .symbol x⟩] (firm_singleton (by simpa using hx))
      (hthere o ls rfl) fun i ls stop _ => ?_
    exact run_bind_of_ok (consume_run_symbol x o ls stop)
  · refine (hmissing h).look fun i ls stop hls => ?_
    rw [← symbolAt?_congr hls] at h
    exact run_bind_of_ok (consume_run_other h stop)

end Prompt

theorem prompt_expect (s : Tokens) {x : Symbol} (hx : x ≠ .dot) :
    Prompt s (fun _ : ι => expect x) (fun ts _ => ts = [.symbol x]) fun ts => ts = [] :=
  .consume hx (fun _ _ _ => .pure rfl) fun _ => .unexpected _ rfl

end Parser

end TextTemplate
