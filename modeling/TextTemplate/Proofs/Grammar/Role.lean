import TextTemplate.Proofs.Grammar.Reading

/-!
# The role of a directive by rules

A directive has the role that its name gives it, when its body reads accordingly. A name that has
no meaning of its own has to be that of a known custom directive, which has to accept the body.

## Main definitions

* `Directive.builtInNames`: the names with a meaning of their own.
* `Directive.Reads`, `Directive.Faulty`: the role of a directive, and what is wrong with one that
  has none.

## Main results

* `Directive.role_eq_ok_iff`, `Directive.role_eq_error_iff`: these rules are those of
  `Directive.role`.
-/

namespace TextTemplate.Directive

open Attempt

/-! ### Names -/

/-- The names that have a meaning whatever custom directives are known. -/
def builtInNames : List String :=
  ["if", "else", "elseif", "end", "foreach", "declare", "include", "includeNamed", "", "eval",
    "code", "comment"]

/-- The role of a directive whose body is an expression, by its name. -/
def expressionRole? : String → Option (Slot → Role)
  | "if" => some fun slot => .opens (.conditional (some slot))
  | "declare" => some fun slot => .opens (.declare slot)
  | "" => some fun slot => .standsAlone (.expression slot)
  | "eval" => some fun slot => .standsAlone (.eval slot)
  | "code" => some fun slot => .standsAlone (.code slot)
  | _ => none

/-- The role of a directive whose body is a target and perhaps an expression to evaluate before it,
by its name. -/
def targetRole? : String → Option (Slot → Option Slot → Role)
  | "include" => some fun target pre => .standsAlone (.includeFile target pre)
  | "includeNamed" => some fun target pre => .standsAlone (.includeNamed target pre)
  | _ => none

/-! ### The two expressions of an include -/

/-- The target of an include: what stands before the first top-level semicolon. -/
def targetSpan (source : String) (d : Directive) : Span :=
  ((splitTopLevel source d.body ';').head?).getD d.body

/-- What stands behind the first top-level semicolon, unless it is blank. -/
def preSpan? (source : String) (d : Directive) : Option Span :=
  ((splitTopLevel source d.body ';').tail.head?.map fun second =>
    (⟨second.start, d.body.stop⟩ : Span)).filter fun pre => !pre.onlyBlanks source

variable {compiler : Compiler} {source : String} {d : Directive}

private theorem targetAndPre_eq : d.targetAndPre compiler source = do
    let target ← d.slot compiler source (d.targetSpan source)
    match d.preSpan? source with
    | none => return (target, none)
    | some pre => return (target, some (← d.slot compiler source pre)) := by
  rw [targetAndPre, targetSpan, preSpan?]
  cases splitTopLevel source d.body ';' <;> rfl

private theorem targetAndPre_eq_ok_iff {target : Slot} {pre : Option Slot} :
    d.targetAndPre compiler source = .ok (target, pre) ↔
      Spells compiler.mode source (d.targetSpan source) target ∧
        Option.Rel (Spells compiler.mode source) (d.preSpan? source) pre := by
  rw [targetAndPre_eq, bind_eq_ok_iff]
  cases d.preSpan? source with
  | none =>
    simp only [pure_eq_ok_iff, Prod.mk.injEq, slot_eq_ok_iff]
    constructor
    · rintro ⟨_, h, rfl, rfl⟩
      exact ⟨h, .none⟩
    · rintro ⟨h, ⟨⟩⟩
      exact ⟨_, h, rfl, rfl⟩
  | some span =>
    simp only [bind_eq_ok_iff, pure_eq_ok_iff, Prod.mk.injEq, slot_eq_ok_iff]
    constructor
    · rintro ⟨_, h, _, hpre, rfl, rfl⟩
      exact ⟨h, .some hpre⟩
    · rintro ⟨h, ⟨hpre⟩⟩
      exact ⟨_, h, _, hpre, rfl, rfl⟩

private theorem targetAndPre_eq_error_iff {e : CompileError} :
    d.targetAndPre compiler source = .error e ↔
      (∃ fault, Misspells compiler.mode source (d.targetSpan source) fault ∧ e = d.error fault) ∨
        ∃ target span fault, Spells compiler.mode source (d.targetSpan source) target ∧
          d.preSpan? source = some span ∧ Misspells compiler.mode source span fault ∧
          e = d.error fault := by
  rw [targetAndPre_eq, bind_eq_error_iff, slot_eq_error_iff]
  refine or_congr_right ⟨?_, ?_⟩
  · rintro ⟨target, htarget, h⟩
    cases hpre : d.preSpan? source with
    | none => simp [hpre, pure, Except.pure] at h
    | some span =>
      simp only [hpre, bind_eq_error_iff, slot_eq_error_iff] at h
      obtain ⟨fault, hfault, rfl⟩ | ⟨_, _, h⟩ := h
      · exact ⟨target, span, fault, slot_eq_ok_iff.1 htarget, rfl, hfault, rfl⟩
      · simp [pure, Except.pure] at h
  · rintro ⟨target, span, fault, htarget, hpre, hfault, rfl⟩
    refine ⟨target, slot_eq_ok_iff.2 htarget, ?_⟩
    simp only [hpre, bind_eq_error_iff]
    exact .inl (slot_eq_error_iff.2 ⟨fault, hfault, rfl⟩)

/-! ### Roles -/

variable (compiler source d) in
/-- The directive has a role. -/
inductive Reads : Role → Prop
  | expression {make : Slot → Role} {slot : Slot} (named : expressionRole? d.name = some make)
      (spells : Spells compiler.mode source d.body slot) : Reads (make slot)
  | target {make : Slot → Option Slot → Role} {target : Slot} {pre : Option Slot}
      (named : targetRole? d.name = some make)
      (spells : Spells compiler.mode source (d.targetSpan source) target)
      (spellsPre : Option.Rel (Spells compiler.mode source) (d.preSpan? source) pre) :
      Reads (make target pre)
  | loop {bindings : List LoopBinding} (named : d.name = "foreach")
      (nonblank : d.body.onlyBlanks source = false)
      (header : List.Forall₂ (IsBinding compiler.mode source)
        (splitTopLevel source d.body ',') bindings) : Reads (.opens (.loop bindings none))
  | comment (named : d.name = "comment") : Reads (.standsAlone .comment)
  | goesOn (named : d.name = "else" ∨ d.name = "elseif") : Reads .goesOn
  | ends (named : d.name = "end") : Reads .ends
  | custom {kind : CustomKind} {custom : Custom} (other : d.name ∉ builtInNames)
      (known : compiler.extensions.find? d.name = some kind)
      (fits : kind.make (d.body.slice source) = .ok custom) :
      Reads (if custom.opensBlock then .opens (.custom custom) else .standsAlone (.custom custom))

variable (compiler source d) in
/-- What is wrong with a directive that has no role; of a loop's header the first part that is no
binding counts. -/
inductive Faulty : CompileFault → Prop
  | expression {fault : CompileFault} (named : (expressionRole? d.name).isSome)
      (misspells : Misspells compiler.mode source d.body fault) : Faulty fault
  | target {fault : CompileFault} (named : (targetRole? d.name).isSome)
      (misspells : Misspells compiler.mode source (d.targetSpan source) fault) : Faulty fault
  | pre {target : Slot} {span : Span} {fault : CompileFault} (named : (targetRole? d.name).isSome)
      (spells : Spells compiler.mode source (d.targetSpan source) target)
      (behind : d.preSpan? source = some span)
      (misspells : Misspells compiler.mode source span fault) : Faulty fault
  | header (named : d.name = "foreach") (blank : d.body.onlyBlanks source = true) :
      Faulty (.malformedLoop "expected at least one 'variable : source' binding")
  | binding {before after : List Span} {part : Span} {fault : CompileFault}
      (named : d.name = "foreach") (nonblank : d.body.onlyBlanks source = false)
      (parts : splitTopLevel source d.body ',' = before ++ part :: after)
      (good : ∀ p ∈ before, ∃ binding, IsBinding compiler.mode source p binding)
      (bad : IsBadBinding compiler.mode source part fault) : Faulty fault
  | unknown (other : d.name ∉ builtInNames) (unknown : compiler.extensions.find? d.name = none) :
      Faulty (.unknownDirective d.name)
  | rejected {kind : CustomKind} {reason : String} (other : d.name ∉ builtInNames)
      (known : compiler.extensions.find? d.name = some kind)
      (rejects : kind.make (d.body.slice source) = .error reason) :
      Faulty (.custom d.name reason)

/-! ### The role by the name -/

theorem role_of_expressionRole? {make : Slot → Role} (h : expressionRole? d.name = some make) :
    d.role compiler source = make <$> d.slot compiler source d.body := by
  unfold expressionRole? at h
  split at h <;> cases h
  all_goals rename_i hname; simp only [role, hname]; rfl

theorem role_of_targetRole? {make : Slot → Option Slot → Role}
    (h : targetRole? d.name = some make) :
    d.role compiler source =
      (fun parts => make parts.1 parts.2) <$> d.targetAndPre compiler source := by
  unfold targetRole? at h
  split at h <;> cases h
  all_goals rename_i hname; simp only [role, hname]; rfl

theorem role_of_loop (h : d.name = "foreach") :
    d.role compiler source =
      (fun bindings => .opens (.loop bindings none)) <$> d.loopBindings compiler source := by
  simp only [role, h]
  rfl

theorem role_of_goesOn (h : d.name = "else" ∨ d.name = "elseif") :
    d.role compiler source = .ok .goesOn := by
  obtain h | h := h <;> (simp only [role, h]; rfl)

theorem role_of_ends (h : d.name = "end") : d.role compiler source = .ok .ends := by
  simp only [role, h]
  rfl

theorem role_of_comment (h : d.name = "comment") :
    d.role compiler source = .ok (.standsAlone .comment) := by
  simp only [role, h]
  rfl

private theorem role_of_other (h : d.name ∉ builtInNames) :
    d.role compiler source =
      (fun custom : Custom => if custom.opensBlock then .opens (.custom custom)
        else .standsAlone (.custom custom)) <$> d.makeCustom compiler source := by
  simp only [builtInNames, List.mem_cons, List.not_mem_nil, or_false, not_or] at h
  rw [role]
  split <;> first | rfl | simp_all

/-- Every name is of one of these kinds. -/
theorem name_cases (name : String) :
    (∃ make, expressionRole? name = some make) ∨ (∃ make, targetRole? name = some make) ∨
      name = "foreach" ∨ name = "comment" ∨ (name = "else" ∨ name = "elseif") ∨ name = "end" ∨
      name ∉ builtInNames := by
  by_cases h : name ∈ builtInNames
  · simp only [builtInNames, List.mem_cons, List.not_mem_nil, or_false] at h
    rcases h with rfl | rfl | rfl | rfl | rfl | rfl | rfl | rfl | rfl | rfl | rfl | rfl <;>
      simp [expressionRole?, targetRole?]
  · tauto

private theorem loopBindings_eq_ok_iff {bindings : List LoopBinding} :
    d.loopBindings compiler source = .ok bindings ↔
      d.body.onlyBlanks source = false ∧
        List.Forall₂ (IsBinding compiler.mode source) (splitTopLevel source d.body ',')
          bindings := by
  rw [loopBindings]
  cases d.body.onlyBlanks source <;> simp [mapM_eq_ok_iff, loopBinding_eq_ok_iff]

private theorem loopBindings_eq_error_iff {e : CompileError} :
    d.loopBindings compiler source = .error e ↔
      (d.body.onlyBlanks source = true ∧
        e = d.error (.malformedLoop "expected at least one 'variable : source' binding")) ∨
      d.body.onlyBlanks source = false ∧ ∃ before part after fault,
        splitTopLevel source d.body ',' = before ++ part :: after ∧
          (∀ p ∈ before, ∃ binding, IsBinding compiler.mode source p binding) ∧
          IsBadBinding compiler.mode source part fault ∧ e = d.error fault := by
  rw [loopBindings]
  cases d.body.onlyBlanks source with
  | false =>
    simp only [Bool.false_eq_true, if_false, mapM_eq_error_iff, loopBinding_eq_ok_iff,
      loopBinding_eq_error_iff, false_and, true_and, false_or]
    constructor
    · rintro ⟨before, part, after, hparts, hgood, fault, hbad, rfl⟩
      exact ⟨before, part, after, fault, hparts, hgood, hbad, rfl⟩
    · rintro ⟨before, part, after, fault, hparts, hgood, hbad, rfl⟩
      exact ⟨before, part, after, hparts, hgood, fault, hbad, rfl⟩
  | true => simp [eq_comm]

/-- The rules for roles are those of `role`. -/
theorem role_eq_ok_iff {role : Role} :
    d.role compiler source = .ok role ↔ d.Reads compiler source role := by
  constructor
  · intro h
    rcases name_cases d.name with ⟨make, hn⟩ | ⟨make, hn⟩ | hn | hn | hn | hn | hn
    · rw [role_of_expressionRole? hn] at h
      obtain ⟨slot, hslot, rfl⟩ := map_eq_ok_iff.1 h
      exact .expression hn (slot_eq_ok_iff.1 hslot)
    · rw [role_of_targetRole? hn] at h
      obtain ⟨⟨target, pre⟩, hparts, rfl⟩ := map_eq_ok_iff.1 h
      obtain ⟨htarget, hpre⟩ := targetAndPre_eq_ok_iff.1 hparts
      exact .target hn htarget hpre
    · rw [role_of_loop hn] at h
      obtain ⟨bindings, hbindings, rfl⟩ := map_eq_ok_iff.1 h
      obtain ⟨hblank, hheader⟩ := loopBindings_eq_ok_iff.1 hbindings
      exact .loop hn hblank hheader
    · rw [role_of_comment hn, Except.ok.injEq] at h
      exact h ▸ .comment hn
    · rw [role_of_goesOn hn, Except.ok.injEq] at h
      exact h ▸ .goesOn hn
    · rw [role_of_ends hn, Except.ok.injEq] at h
      exact h ▸ .ends hn
    · rw [role_of_other hn] at h
      obtain ⟨custom, hmake, rfl⟩ := map_eq_ok_iff.1 h
      rw [makeCustom] at hmake
      split at hmake
      · cases hmake
      · exact .custom hn ‹_› (mapError_eq_ok_iff.1 hmake)
  · intro h
    cases h with
    | expression hn hslot =>
      exact role_of_expressionRole? hn ▸ map_eq_ok_iff.2 ⟨_, slot_eq_ok_iff.2 hslot, rfl⟩
    | target hn htarget hpre =>
      exact role_of_targetRole? hn ▸
        map_eq_ok_iff.2 ⟨_, targetAndPre_eq_ok_iff.2 ⟨htarget, hpre⟩, rfl⟩
    | loop hn hblank hheader =>
      exact role_of_loop hn ▸
        map_eq_ok_iff.2 ⟨_, loopBindings_eq_ok_iff.2 ⟨hblank, hheader⟩, rfl⟩
    | comment hn => exact role_of_comment hn
    | goesOn hn => exact role_of_goesOn hn
    | ends hn => exact role_of_ends hn
    | custom hn hknown hfits =>
      simp only [role_of_other hn, makeCustom, hknown, hfits]
      rfl

/-- What is wrong by the rules is what `role` reports. -/
theorem role_eq_error_iff {e : CompileError} :
    d.role compiler source = .error e ↔
      ∃ fault, d.Faulty compiler source fault ∧ e = d.error fault := by
  constructor
  · intro h
    rcases name_cases d.name with ⟨make, hn⟩ | ⟨make, hn⟩ | hn | hn | hn | hn | hn
    · rw [role_of_expressionRole? hn, map_eq_error_iff, slot_eq_error_iff] at h
      obtain ⟨fault, hfault, rfl⟩ := h
      exact ⟨fault, .expression (by simp [hn]) hfault, rfl⟩
    · rw [role_of_targetRole? hn, map_eq_error_iff, targetAndPre_eq_error_iff] at h
      obtain ⟨fault, hfault, rfl⟩ | ⟨target, span, fault, htarget, hpre, hfault, rfl⟩ := h
      · exact ⟨fault, .target (by simp [hn]) hfault, rfl⟩
      · exact ⟨fault, .pre (by simp [hn]) htarget hpre hfault, rfl⟩
    · rw [role_of_loop hn, map_eq_error_iff, loopBindings_eq_error_iff] at h
      obtain ⟨hblank, rfl⟩ | ⟨hblank, before, part, after, fault, hparts, hgood, hbad, rfl⟩ := h
      · exact ⟨_, .header hn hblank, rfl⟩
      · exact ⟨fault, .binding hn hblank hparts hgood hbad, rfl⟩
    · rw [role_of_comment hn] at h
      cases h
    · rw [role_of_goesOn hn] at h
      cases h
    · rw [role_of_ends hn] at h
      cases h
    · rw [role_of_other hn, map_eq_error_iff, makeCustom] at h
      split at h
      · exact ⟨_, .unknown hn ‹_›, (Except.error.inj h).symm⟩
      · obtain ⟨reason, hreason, rfl⟩ := mapError_eq_error_iff.1 h
        exact ⟨_, .rejected hn ‹_› hreason, rfl⟩
  · rintro ⟨fault, h, rfl⟩
    cases h with
    | expression hn hfault =>
      obtain ⟨make, hn⟩ := Option.isSome_iff_exists.1 hn
      rw [role_of_expressionRole? hn, map_eq_error_iff]
      exact slot_eq_error_iff.2 ⟨fault, hfault, rfl⟩
    | target hn hfault =>
      obtain ⟨make, hn⟩ := Option.isSome_iff_exists.1 hn
      rw [role_of_targetRole? hn, map_eq_error_iff]
      exact targetAndPre_eq_error_iff.2 (.inl ⟨fault, hfault, rfl⟩)
    | pre hn htarget hpre hfault =>
      obtain ⟨make, hn⟩ := Option.isSome_iff_exists.1 hn
      rw [role_of_targetRole? hn, map_eq_error_iff]
      exact targetAndPre_eq_error_iff.2 (.inr ⟨_, _, fault, htarget, hpre, hfault, rfl⟩)
    | header hn hblank =>
      rw [role_of_loop hn, map_eq_error_iff]
      exact loopBindings_eq_error_iff.2 (.inl ⟨hblank, rfl⟩)
    | binding hn hblank hparts hgood hbad =>
      rw [role_of_loop hn, map_eq_error_iff]
      exact loopBindings_eq_error_iff.2
        (.inr ⟨hblank, _, _, _, fault, hparts, hgood, hbad, rfl⟩)
    | unknown hn hunknown =>
      rw [role_of_other hn, map_eq_error_iff, makeCustom, hunknown]
    | rejected hn hknown hrejects =>
      simp only [role_of_other hn, map_eq_error_iff, makeCustom, hknown, hrejects]
      rfl

/-- The directives with this role have this name. -/
def Names (name : String) : Role → Prop
  | .goesOn => name = "else" ∨ name = "elseif"
  | .ends => name = "end"
  | .standsAlone .comment => name = "comment"
  | _ => True

theorem names_of_reads {role : Role} (h : d.Reads compiler source role) : Names d.name role := by
  cases h with
  | expression hn =>
    unfold expressionRole? at hn
    split at hn <;> cases hn <;> trivial
  | target hn =>
    unfold targetRole? at hn
    split at hn <;> cases hn <;> trivial
  | loop => trivial
  | comment hn | goesOn hn | ends hn => exact hn
  | custom => split <;> trivial

theorem name_of_reads_comment (h : d.Reads compiler source (.standsAlone .comment)) :
    d.name = "comment" :=
  names_of_reads h

end TextTemplate.Directive
