import TextTemplate.Template.Assembly

/-!
# Programs

A source that has been compiled: its text and its nodes. Execution starts at the first node, or,
when only the body of a block is executed, at the first node of that body.

## Main definitions

* `Program`, `Program.compile` — a source with its nodes.
* `Program.isPureExpression` — whether it is one expression and nothing else.
* `Part`, `Program.start?` — what of it can be executed, and from where.
-/

namespace TextTemplate

/-- What can be executed of a template: the whole of it, or the body of the block whose node stands
at a place. -/
inductive Part where
  | whole
  | bodyAt (place : Nat)

/-- A source with its nodes. Execution starts at the first of them. -/
structure Program where
  source : String
  nodes : Array Node

namespace Program

/-- Compiles a source. -/
def compile (compiler : Compiler) (source : String) : Except CompileError Program := do
  let arena ← (Outline.ofSource source).arena compiler source
  return ⟨source, arena.nodes⟩

/-- The expression of a template that is one expression directive and nothing else, with its
node. -/
def pureExpression? (program : Program) : Option (Node × Slot) :=
  match program.nodes.toList with
  | [node, _] =>
    match node.kind with
    | .action (.expression value) =>
      if node.span = ⟨0, program.source.utf8ByteSize⟩ then some (node, value) else none
    | _ => none
  | _ => none

/-- Whether the template is one expression directive and nothing else. -/
def isPureExpression (program : Program) : Bool :=
  program.pureExpression?.isSome

/-- The node at a place. -/
def node? (program : Program) (place : Nat) : Option Node :=
  program.nodes[place]?

/-- The node at which execution of a part starts, if the part has any. -/
def start? (program : Program) : Part → Option Nat
  | .whole => some 0
  | .bodyAt place => (program.node? place).bind fun node => node.kind.nested?

theorem source_of_compile {compiler : Compiler} {source : String} {program : Program}
    (h : compile compiler source = .ok program) : program.source = source := by
  rw [compile] at h
  cases harena : (Outline.ofSource source).arena compiler source with
  | error e => simp [harena, bind, Except.bind] at h
  | ok arena =>
    simp only [harena, bind, Except.bind, pure, Except.pure, Except.ok.injEq] at h
    rw [← h]

end Program

end TextTemplate
