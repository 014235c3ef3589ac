import TextTemplate.Proofs.Text.Coverage
import TextTemplate.Proofs.Text.Separators

/-!
# Where the expressions of a template stand

The expressions that a node holds are spans of the source. Each of them is cut out of the body of a
directive, without the blanks at its ends: of the directive of the node, or, for the separator of a
loop, of the directive that ends the loop.

## Main definitions

* `Slot.span`, `Node.slots`: where an expression stands, and the expressions of a node.
* `Node.DrawnFrom`: nodes whose spans are those of texts and directives, or cut out of these.

## Main results

* `Directive.Reads.cutFrom`, `Directive.Ends.cutFrom`: the expressions of a directive.
* `Body.Derives.drawnFrom_of_mem_layout`: the nodes of a body are drawn from its phrases.
-/

namespace TextTemplate

/-! ### The expressions of a node -/

/-- Where an expression stands. -/
def Slot.span : Slot → Span
  | .parsed span _ => span
  | .raw span => span

/-- The expressions of a directive that stands alone. -/
def Action.slots : Action → List Slot
  | .expression value | .eval value | .code value => [value]
  | .includeFile target pre | .includeNamed target pre => target :: pre.toList
  | .comment | .custom _ => []

/-- The expressions of a directive that opens a block. -/
def Opener.slots : Opener → List Slot
  | .conditional condition => condition.toList
  | .loop bindings separator => bindings.map LoopBinding.source ++ separator.toList
  | .declare name => [name]
  | .custom _ => []

/-- The expressions of a directive by its role. -/
def Role.slots : Role → List Slot
  | .opens opener => opener.slots
  | .standsAlone action => action.slots
  | .goesOn | .ends => []

/-- The expressions of a node. -/
def Node.slots (node : Node) : List Slot :=
  match node.kind with
  | .action action => action.slots
  | .block opener _ _ _ => opener.slots
  | .text _ | .terminal | .finish => []

/-! ### The expressions of a directive -/

section Directives

variable {compiler : Compiler} {source : String} {d : Directive}

private theorem CutFrom.of_spells {mode : Mode} {whole span : Span} {slot : Slot}
    (h : CutFrom source whole span) (hspells : Spells mode source span slot) :
    CutFrom source whole slot.span := by
  cases hspells with
  | parsed => exact h.trim
  | raw => exact h.trim

namespace Directive

theorem cutFrom_targetSpan : CutFrom source d.body (d.targetSpan source) := by
  rw [targetSpan]
  cases hparts : splitTopLevel source d.body ';' with
  | nil => exact .whole
  | cons target rest => exact .part .whole (by decide) (hparts ▸ List.mem_cons_self)

theorem cutFrom_preSpan {pre : Span} (h : d.preSpan? source = some pre) :
    CutFrom source d.body pre := by
  obtain ⟨hfound, -⟩ := Option.filter_eq_some_iff.1 h
  obtain ⟨second, hsecond, rfl⟩ := Option.map_eq_some_iff.1 hfound
  have hmem : second ∈ splitTopLevel source d.body ';' :=
    List.mem_of_mem_tail (List.mem_of_mem_head? hsecond)
  exact .behind .whole (by decide) hmem

/-- The source of a variable of a loop is cut out of the header. -/
theorem cutFrom_of_isBinding {mode : Mode} {bindings : List LoopBinding}
    (header : List.Forall₂ (IsBinding mode source) (splitTopLevel source d.body ',') bindings) :
    ∀ slot ∈ bindings.map LoopBinding.source, CutFrom source d.body slot.span := by
  have hparts : ∀ part ∈ splitTopLevel source d.body ',', CutFrom source d.body part :=
    fun part hmem => .part .whole (by decide) hmem
  generalize splitTopLevel source d.body ',' = found at header hparts
  induction header with
  | nil => nofun
  | @cons part _ _ _ hbinding _ ih =>
    obtain ⟨hfirst, hothers⟩ := List.forall_mem_cons.1 hparts
    refine List.forall_mem_cons.2 ⟨?_, ih hothers⟩
    cases hbinding with
    | @mk before after slot hcolon _ _ hspells =>
      have hbehind : after ∈ splitTopLevel source part ':' := by
        rw [hcolon]
        simp
      exact (hfirst.part (by decide) hbehind).of_spells hspells

/-- The expressions of a directive are cut out of its body. -/
theorem Reads.cutFrom {role : Role} (h : d.Reads compiler source role) :
    ∀ slot ∈ role.slots, CutFrom source d.body slot.span := by
  have hpre {target : Slot} {slots : Option Slot}
      (hspells : Spells compiler.mode source (d.targetSpan source) target)
      (hspellsPre : Option.Rel (Spells compiler.mode source) (d.preSpan? source) slots) :
      ∀ slot ∈ target :: slots.toList, CutFrom source d.body slot.span := by
    refine List.forall_mem_cons.2 ⟨cutFrom_targetSpan.of_spells hspells, ?_⟩
    generalize hbehind : d.preSpan? source = span at hspellsPre
    cases hspellsPre with
    | none => exact List.forall_mem_nil _
    | some hspells => simpa using (cutFrom_preSpan hbehind).of_spells hspells
  cases h with
  | expression hnamed hspells =>
    have hbody := CutFrom.whole.of_spells hspells
    unfold expressionRole? at hnamed
    split at hnamed <;> cases hnamed <;> exact List.forall_mem_singleton.2 hbody
  | target hnamed hspells hspellsPre =>
    unfold targetRole? at hnamed
    split at hnamed <;> cases hnamed <;> exact hpre hspells hspellsPre
  | loop _ _ header =>
    intro slot hmem
    rw [Role.slots, Opener.slots, Option.toList_none, List.append_nil] at hmem
    exact cutFrom_of_isBinding header slot hmem
  | comment | goesOn | ends => exact List.forall_mem_nil _
  | custom => split <;> exact List.forall_mem_nil _

/-- So is the condition of a branch. -/
theorem Continues.cutFrom {next : Option Slot} (h : d.Continues compiler source next) :
    ∀ slot ∈ next.toList, CutFrom source d.body slot.span := by
  cases h with
  | otherwise => nofun
  | condition _ hspells => simpa using CutFrom.whole.of_spells hspells

/-- Where a block ends, its opener has no other expressions than before but those cut out of the
body of the directive that ends it. -/
theorem Ends.cutFrom {opener opener' : Opener} (h : d.Ends compiler source opener opener') :
    ∀ slot ∈ opener'.slots, slot ∈ opener.slots ∨ CutFrom source d.body slot.span := by
  intro slot hmem
  cases h with
  | conditional | declare | custom => exact .inl hmem
  | bare =>
    rw [Opener.slots, Option.toList_none, List.append_nil] at hmem
    exact .inl (List.mem_append_left _ hmem)
  | separated _ hspells =>
    obtain hmem | hmem := List.mem_append.1 hmem
    · exact .inl (List.mem_append_left _ hmem)
    · obtain rfl := List.mem_singleton.1 hmem
      exact .inr (CutFrom.whole.of_spells hspells)

end Directive

end Directives

/-! ### Nodes -/

section Nodes

variable {compiler : Compiler} {source : String}

/-- The spans of a node are those of a text or of a directive among the phrases, and its expressions
are cut out of the bodies of directives among them. -/
structure Node.DrawnFrom (source : String) (phrases : List Phrase) (node : Node) : Prop where
  spans : (∃ spans, .text spans ∈ phrases ∧ node.textSpans = spans ∧
      node.span = (textNode spans).span ∧ node.body = (textNode spans).span) ∨
    ∃ d, .directive d ∈ phrases ∧ node.textSpans = [] ∧ node.span = d.span ∧ node.body = d.body
  slots : ∀ slot ∈ node.slots, ∃ d, .directive d ∈ phrases ∧ CutFrom source d.body slot.span

namespace Node.DrawnFrom

variable {phrases phrases' : List Phrase} {node : Node} {d : Directive}

theorem mono (h : node.DrawnFrom source phrases) (hsubset : phrases ⊆ phrases') :
    node.DrawnFrom source phrases' where
  spans := h.spans.imp (fun ⟨spans, hmem, hsame⟩ => ⟨spans, hsubset hmem, hsame⟩)
    fun ⟨d, hmem, hsame⟩ => ⟨d, hsubset hmem, hsame⟩
  slots slot hmem :=
    have ⟨d, hphrase, hcut⟩ := h.slots slot hmem
    ⟨d, hsubset hphrase, hcut⟩

/-- The node of a text. -/
theorem text {spans : List Span} {next : Nat} (hmem : .text spans ∈ phrases) :
    ((textNode spans).followedBy next).DrawnFrom source phrases :=
  ⟨.inl ⟨spans, hmem, rfl, rfl, rfl⟩, nofun⟩

/-- A node of a directive. -/
theorem directive {kind : NodeKind} {next : Nat} (hmem : .directive d ∈ phrases)
    (hnoText : ((d.node kind).followedBy next).textSpans = [])
    (hslots : ∀ slot ∈ ((d.node kind).followedBy next).slots,
      ∃ d, .directive d ∈ phrases ∧ CutFrom source d.body slot.span) :
    ((d.node kind).followedBy next).DrawnFrom source phrases :=
  ⟨.inr ⟨d, hmem, hnoText, rfl, rfl⟩, hslots⟩

end Node.DrawnFrom

/-- The opener of a block holds, at its end, what it held before and what the phrases say. -/
theorem Branches.Derives.cutFrom {opener opener' : Opener} {phrases : List Phrase} {body : Body}
    {branches : Branches}
    (h : Branches.Derives compiler source opener phrases opener' body branches) :
    ∀ slot ∈ opener'.slots, slot ∈ opener.slots ∨
      ∃ d, .directive d ∈ phrases ∧ CutFrom source d.body slot.span := by
  intro slot hmem
  cases h with
  | closed _ _ hends =>
    refine (hends.cutFrom slot hmem).imp_right fun hcut => ⟨_, ?_, hcut⟩
    exact List.mem_append_right _ List.mem_cons_self
  | branch => exact .inl hmem

mutual

/-- The nodes of a body are drawn from its phrases. -/
theorem Body.Derives.drawnFrom_of_mem_layout {phrases : List Phrase} {body : Body} {node : Node}
    {place : Nat} : body.Derives compiler source phrases → node ∈ body.layout place →
      node.DrawnFrom source phrases
  | .done, mem => absurd mem List.not_mem_nil
  | .text follows, mem => by
    rcases List.mem_cons.1 mem with rfl | mem
    · exact .text List.mem_cons_self
    · exact (follows.drawnFrom_of_mem_layout mem).mono (List.subset_cons_self _ _)
  | .action reads follows, mem => by
    rcases List.mem_cons.1 mem with rfl | mem
    · exact .directive List.mem_cons_self rfl fun slot isSlot =>
        ⟨_, List.mem_cons_self, reads.cutFrom slot isSlot⟩
    · exact (follows.drawnFrom_of_mem_layout mem).mono (List.subset_cons_self _ _)
  | .block reads block follows, mem => by
    rcases List.mem_cons.1 mem with rfl | mem
    · refine .directive List.mem_cons_self rfl fun slot isSlot => ?_
      obtain before | ⟨d, isPhrase, cut⟩ := block.cutFrom slot isSlot
      · exact ⟨_, List.mem_cons_self, reads.cutFrom slot before⟩
      · exact ⟨d, List.mem_cons_of_mem _ (List.mem_append_left _ isPhrase), cut⟩
    · rcases List.mem_append.1 mem with mem | mem
      · refine (block.drawnFrom_of_mem_layout mem).mono ?_
        exact List.Subset.trans (List.subset_append_left _ _) (List.subset_cons_self _ _)
      · refine (follows.drawnFrom_of_mem_layout mem).mono ?_
        exact List.Subset.trans (List.subset_append_right _ _) (List.subset_cons_self _ _)

/-- So are the nodes of the rest of a block. -/
theorem Branches.Derives.drawnFrom_of_mem_layout {opener opener' : Opener} {phrases : List Phrase}
    {body : Body} {branches : Branches} {node : Node} {place terminus after : Nat} :
    Branches.Derives compiler source opener phrases opener' body branches →
      node ∈ body.layout place ++ branches.layout terminus after → node.DrawnFrom source phrases
  | .closed derives _ _, mem => by
    rcases List.mem_append.1 mem with mem | mem
    · exact (derives.drawnFrom_of_mem_layout mem).mono (List.subset_append_left _ _)
    · obtain rfl := List.mem_singleton.1 mem
      exact .directive (List.mem_append_right _ List.mem_cons_self) rfl nofun
  | .branch derives _ continues follows, mem => by
    rcases List.mem_append.1 mem with mem | mem
    · exact (derives.drawnFrom_of_mem_layout mem).mono (List.subset_append_left _ _)
    · -- The directive of a branch has two nodes.
      rcases List.mem_cons.1 mem with rfl | mem
      · exact .directive (List.mem_append_right _ List.mem_cons_self) rfl nofun
      · rcases List.mem_cons.1 mem with rfl | mem
        · refine .directive (List.mem_append_right _ List.mem_cons_self) rfl fun slot isSlot => ?_
          exact ⟨_, List.mem_append_right _ List.mem_cons_self, continues.cutFrom slot isSlot⟩
        · refine (follows.drawnFrom_of_mem_layout mem).mono ?_
          exact List.Subset.trans (List.subset_cons_self _ _) (List.subset_append_right _ _)

end

end Nodes

end TextTemplate
