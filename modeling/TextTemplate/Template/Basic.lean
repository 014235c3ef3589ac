import TextTemplate.Template.Program

/-!
# Templates

A template is a compiled source together with the file it was read from, the compiler that made it,
and the number of the cache in which renders keep what its includes lead to. Copies of a template
share that cache.

## Main definitions

* `Template` — a compiled template, with the proof that its compiler made it.
* `Template.compile` — compiles a source.
-/

namespace TextTemplate

/-- A compiled template. -/
structure Template where
  program : Program
  origin : Option Path
  compiler : Compiler
  cache : Nat
  compiled : Program.compile compiler program.source = .ok program

namespace Template

/-- Compiles a source read from a file or held in memory; an error names the file. -/
def compile (compiler : Compiler) (source : String) (origin : Option Path) (cache : Nat) :
    Except CompileError Template :=
  match h : Program.compile compiler source with
  | .ok program =>
    .ok ⟨program, origin, compiler, cache, by rw [Program.source_of_compile h]; exact h⟩
  | .error e => .error { e with path := origin }

def source (template : Template) : String :=
  template.program.source

/-- Where the relative includes of a template look when a render names no directory. -/
def defaultDirectory (template : Template) : Path :=
  (template.origin.bind Path.parent?).getD ⟨"."⟩

end Template

end TextTemplate
