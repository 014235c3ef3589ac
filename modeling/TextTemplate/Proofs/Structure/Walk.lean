import TextTemplate.Proofs.Structure.Matching
import TextTemplate.Render.Run

/-!
# Walking a tree

What a template does, read off its tree: a body is run from its first text, directive or block to
its last, and what a block does is followed by what stands behind its end. The nodes and their
links play no part in this; a place is only the number of a node, by which include nodes and
declared blocks are known.

## Main definitions

* `Body.walk`, `Branches.walk`: running a tree.
* `Body.bodyAt?`: the body of the block whose node has a given number.
* `Level.walkPart`, `Level.structural`: rendering by walking trees.
-/

namespace TextTemplate

open Level

section Walk

variable (level : Level) (template : Template)

mutual

/-- Runs a body whose first node stands at `place`. -/
def Body.walk (place : Nat) : Body → RenderM Unit
  | .done => return
  | .text spans rest => do
    located template (textNode spans).span.start "" (writeText template spans)
    rest.walk (place + 1)
  | .action d a rest => do
    located template d.span.start d.name (level.runAction template place d.body a)
    rest.walk (place + 1)
  | .block d opener body branches rest => do
    let after := place + 1 + body.width
    located template d.span.start d.name <|
      match opener with
      | .conditional condition => do
        if ← level.isTaken template d.span.start d.name condition then
          body.walk (place + 1)
        else
          branches.walk after
      | .loop bindings separator =>
        level.runLoop template bindings separator (body.walk (place + 1))
      | .declare name => level.runDeclare template name place
      | .custom custom =>
        level.runCustom custom (d.body.slice template.source)
          (some (branches.closer.body.slice template.source)) (body.walk (place + 1))
    rest.walk (after + branches.width + 1)

/-- Runs the body of the first branch that is taken, if there is one. The rest of the block starts
at `place`. -/
def Branches.walk (place : Nat) : Branches → RenderM Unit
  | .closed _ => return
  | .branch d condition body more => do
    if ← level.isTaken template d.span.start d.name condition then
      body.walk (place + 2)
    else
      more.walk (place + 2 + body.width)

end

end Walk

mutual

/-- The body of the block or branch whose node comes behind so many others. -/
def Body.bodyAt? : Body → Nat → Option Body
  | .done, _ => none
  | .text _ _, 0 => none
  | .text _ rest, n + 1 => rest.bodyAt? n
  | .action _ _ _, 0 => none
  | .action _ _ rest, n + 1 => rest.bodyAt? n
  | .block _ _ body _ _, 0 => some body
  | .block _ _ body branches rest, n + 1 =>
    if n < body.width then body.bodyAt? n
    else if n ≤ body.width + branches.width then branches.bodyAt? (n - body.width)
    else rest.bodyAt? (n - (body.width + branches.width + 1))

/-- The body of the block or branch in the rest of a block whose node comes behind so many
others. -/
def Branches.bodyAt? : Branches → Nat → Option Body
  | .closed _, _ => none
  | .branch _ _ _ _, 0 => none
  | .branch _ _ body _, 1 => some body
  | .branch _ _ body more, n + 2 =>
    if n < body.width then body.bodyAt? n
    else more.bodyAt? (n - body.width)

end

namespace Level

/-- Runs a part of a template by walking its tree. -/
def walkPart (level : Level) : Runner := fun template part =>
  match part with
  | .whole => template.tree.walk level template 0
  | .bodyAt place =>
    match template.tree.bodyAt? place with
    | none => return
    | some body => body.walk level template (place + 1)

/-- The level below which so many more levels are allowed, when templates are run by walking their
trees. -/
def structural (setting : Setting) : Nat → Level
  | 0 => ⟨setting, none⟩
  | levels + 1 => ⟨setting, some (structural setting levels).walkPart⟩

end Level

end TextTemplate
