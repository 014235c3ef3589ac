import TextTemplate.Proofs.Simulation.Level
import TextTemplate.Proofs.Structure.Links

/-!
# Renders that agree, at every level

Trees that are alike are walked alike, and so corresponding templates are rendered alike at every
level.

## Main definitions

* `Comparison.exact`: comparing renders of the same sources.
* `RegisteredAlike`: registries with related templates.
* `Setting.Simulates`: settings that correspond.

## Main results

* `Level.Simulates.runPart`: a part of corresponding templates.
* `Setting.Simulates.above`: the levels of corresponding settings.
-/

namespace TextTemplate

/-! ### Exact comparisons -/

/-- Comparisons that tell everything apart: what is run are the same parts of the same sources, in
the same directories, and the errors are the same. -/
class Comparison.IsExact (c : Comparison) : Prop where
  entries {e e' : Entry} :
    c.entries e e' ↔ e.template.source = e'.template.source ∧ e.part = e'.part
  paths {path path' : Path} (h : c.paths path path') : path = path'
  sinks (sink : Sink) : c.sinks sink
  texts (text : String) : c.texts text
  excuses (e : TemplateError) : ¬c.excuses e
  alike {e e' : TemplateError} : c.alike e e' ↔ e = e'

/-- The comparison of renders of the same sources. -/
def Comparison.exact (pairing : Pairing) : Comparison where
  toPairing := pairing
  entries e e' := e.template.source = e'.template.source ∧ e.part = e'.part
  paths := Eq
  texts _ := True
  sinks _ := True
  excuses _ := False
  alike := Eq
  entries_whole _ hsource _ _ := ⟨hsource, rfl⟩
  paths_refl _ := rfl
  paths_join h _ := h ▸ rfl
  paths_parent? {path _} h := by
    subst h
    cases path.parent? with
    | none => exact .none
    | some parent => exact .some rfl
  texts_read _ _ := trivial
  sinks_collector := trivial
  sinks_append _ _ := trivial
  excuses_annotate h _ _ := h
  alike_refl _ := rfl
  alike_paths h _ _ := h ▸ rfl
  reads h _ _ _ := .inl (h ▸ rfl)

instance Comparison.isExact_exact (pairing : Pairing) : (Comparison.exact pairing).IsExact where
  entries := Iff.rfl
  paths := id
  sinks _ := trivial
  texts _ := trivial
  excuses _ := id
  alike := Iff.rfl

section Walk

variable {c : Comparison} [hc : c.IsExact] {w : World} {v : View} {left right : Level}
  {a b : Template}

omit hc in
/-- Expressions of the same source are evaluated alike. -/
theorem Comparison.Templates.reads (hab : c.Templates w a b) (h : left.Simulates c w right) :
    Level.Reads c w left right a b (Slot.Alike a.source) where
  hosts := hab.toHosts
  evaluate hv _ _ hslot := by
    rw [Level.evaluate, Level.evaluate, ← hab.source]
    exact Level.Simulates.ofEval (Slot.simulates_eval (h.mono hv).environment hslot)

theorem Comparison.locates_of_source (hab : a.source = b.source) (offset : Nat)
    (name : String) : c.Locates a offset name b offset name := by
  intro e e' he
  rw [hc.alike.1 he, hab]
  exact hc.alike.2 rfl

mutual

/-- Bodies that are alike are walked alike. -/
theorem Body.Alike.simulates_walk {body body' : Body} (place : Nat) :
    ∀ {v : View}, left.Simulates c v.world right → c.Templates v.world a b →
      Body.Alike a.source body body' →
      Simulates c c.rendering v Same (body.walk left a place) (body'.walk right b place)
  | _, _, _, .done => .pure_same ()
  | _, h, hab, .text spans hrest =>
    (Level.Simulates.located (Comparison.locates_of_source (c := c) hab.source _ _)
      (Level.Simulates.writeText hab.source spans)).bind_same
        fun _ hv _ => hrest.simulates_walk (place + 1) (h.mono hv.1) (hab.mono hv.1)
  | _, h, hab, .action d haction hrest =>
    (Level.Simulates.located (Comparison.locates_of_source (c := c) hab.source _ _)
      (h.runAction (hab.reads h) place place (by rw [hab.source]) haction)).bind_same
        fun _ hv _ => hrest.simulates_walk (place + 1) (h.mono hv.1) (hab.mono hv.1)
  | v, h, hab, .block d hopener hbody hbranches hrest => by
    have hplaces := Comparison.locates_of_source (c := c) hab.source d.span.start d.name
    have hinside {v' : View} (hv : v ≤ v') :=
      hbody.simulates_walk (place + 1) (h.mono hv.1) (hab.mono hv.1)
    cases hopener with
    | conditional hcondition =>
      rw [Body.walk, Body.walk, ← hbody.width_eq, ← hbranches.width_eq]
      refine (Level.Simulates.located hplaces ?_).bind_same
        fun _ hv _ => hrest.simulates_walk _ (h.mono hv.1) (hab.mono hv.1)
      refine (Level.Simulates.isTaken (hab.reads h) hplaces hcondition).bind_same
        fun v' hv taken => ?_
      cases taken with
      | true => exact hinside hv
      | false => exact hbranches.simulates_walk _ (h.mono hv.1) (hab.mono hv.1)
    | loop hbindings hseparator =>
      rw [Body.walk, Body.walk, ← hbody.width_eq, ← hbranches.width_eq]
      exact (Level.Simulates.located hplaces
        (Level.Simulates.runLoop (hab.reads h) hbindings hseparator
          (hinside (le_refl _)))).bind_same
            fun _ hv _ => hrest.simulates_walk _ (h.mono hv.1) (hab.mono hv.1)
    | declare hname =>
      rw [Body.walk, Body.walk, ← hbody.width_eq, ← hbranches.width_eq]
      refine (Level.Simulates.located hplaces
        (Level.Simulates.runDeclare (hab.reads h) hname fun v' hv s t hst => ?_)).bind_same
          fun _ hv _ => hrest.simulates_walk _ (h.mono hv.1) (hab.mono hv.1)
      exact ⟨hab.toHosts.mono hv.1, hst.paths, hc.entries.2 ⟨hab.source, rfl⟩⟩
    | custom custom =>
      rw [Body.walk, Body.walk, ← hbody.width_eq, ← hbranches.width_eq, ← hbranches.closer_eq,
        ← hab.source]
      exact (Level.Simulates.located hplaces
        (h.runCustom custom _ _ (hinside (le_refl _)))).bind_same
          fun _ hv _ => hrest.simulates_walk _ (h.mono hv.1) (hab.mono hv.1)

theorem Branches.Alike.simulates_walk {branches branches' : Branches}
    (place : Nat) : ∀ {v : View}, left.Simulates c v.world right → c.Templates v.world a b →
      Branches.Alike a.source branches branches' →
      Simulates c c.rendering v Same (branches.walk left a place) (branches'.walk right b place)
  | _, _, _, .closed _ => .pure_same ()
  | _, h, hab, .branch d hcondition hbody hmore => by
    rw [Branches.walk, Branches.walk, ← hbody.width_eq]
    have hplaces := Comparison.locates_of_source (c := c) hab.source d.span.start d.name
    refine (Level.Simulates.isTaken (hab.reads h) hplaces hcondition).bind_same
      fun v' hv taken => ?_
    cases taken with
    | true => exact hbody.simulates_walk _ (h.mono hv.1) (hab.mono hv.1)
    | false => exact hmore.simulates_walk _ (h.mono hv.1) (hab.mono hv.1)

end

/-- Corresponding templates are run alike. -/
theorem Level.Simulates.runPart (h : left.Simulates c v.world right)
    (hab : c.Templates v.world a b) (part : Part) :
    TextTemplate.Simulates c c.rendering v Same (left.runPart a part) (right.runPart b part) := by
  have htree := Template.tree_alike hab.source (c.precedes hab.compilers)
  rw [Level.runPart_eq_walkPart, Level.runPart_eq_walkPart]
  cases part with
  | whole => exact htree.simulates_walk 0 h hab
  | bodyAt place =>
    have hbody : Option.Rel (Body.Alike a.source) (a.tree.bodyAt? place) (b.tree.bodyAt? place) :=
      htree.bodyAt?
    rw [Level.walkPart, Level.walkPart]
    generalize a.tree.bodyAt? place = body at hbody
    generalize b.tree.bodyAt? place = body' at hbody
    cases hbody with
    | none => exact .pure_same ()
    | some hbody => exact hbody.simulates_walk (place + 1) h hab

end Walk

/-! ### Registries and settings -/

/-- The template is registered under some name. -/
def IsRegistered (registry : Option (Bindings Template)) (template : Template) : Prop :=
  ∃ templates name, registry = some templates ∧ templates.find? name = some template

/-- Templates in this relation are registered under the same names. -/
def RegisteredAlike (R : Template → Template → Prop) (left right : Option (Bindings Template)) :
    Prop :=
  Option.Rel (fun templates templates' => ∀ name,
    Option.Rel R (templates.find? name) (templates'.find? name)) left right

section Registries

variable {R S : Template → Template → Prop} {registry left right : Option (Bindings Template)}

theorem RegisteredAlike.imp (h : RegisteredAlike R left right)
    (himp : ∀ a b, IsRegistered left a → IsRegistered right b → R a b → S a b) :
    RegisteredAlike S left right := by
  cases h with
  | none => exact .none
  | @some templates templates' htemplates =>
    refine .some fun name => ?_
    have hfound := htemplates name
    generalize hleft : templates.find? name = found at hfound
    generalize hright : templates'.find? name = found' at hfound
    cases hfound with
    | none => exact .none
    | some hab => exact .some (himp _ _ ⟨_, _, rfl, hleft⟩ ⟨_, _, rfl, hright⟩ hab)

theorem RegisteredAlike.refl (hrefl : ∀ a, IsRegistered registry a → R a a) :
    RegisteredAlike R registry registry := by
  cases registry with
  | none => exact .none
  | some templates =>
    refine .some fun name => ?_
    cases hfound : templates.find? name with
    | none => exact .none
    | some a => exact .some (hrefl a ⟨_, _, rfl, hfound⟩)

end Registries

/-- Settings with the same context, files and limit, and with corresponding templates registered
under the same names. -/
structure Setting.Simulates (c : Comparison) (w : World) (left right : Setting) : Prop where
  context : left.context = right.context
  files : left.files = right.files
  known : c.trees left.files
  limit : left.limit = right.limit
  registry : RegisteredAlike (fun a b => c.Templates w a b ∧ a.origin = b.origin) left.registry
    right.registry

section Settings

variable {c : Comparison} {w : World} {left right : Setting}

theorem Setting.Simulates.mono {w' : World} (h : left.Simulates c w right) (hw : w ≤ w') :
    left.Simulates c w' right :=
  { h with registry := h.registry.imp fun _ _ _ _ hab => ⟨hab.1.mono hw, hab.2⟩ }

private theorem Setting.Simulates.registered (h : left.Simulates c w right) (levels levels' : Nat)
    (name : String) {v : View} (hv : w ≤ v.world) :
    TextTemplate.Simulates c c.rendering v (fun w' a b => c.Templates w' a b ∧ a.origin = b.origin)
      ((Level.above left levels).registered name)
      ((Level.above right levels').registered name) := by
  rw [Level.registered, Level.registered, Level.setting_above, Level.setting_above]
  have hregistry := h.registry
  generalize left.registry = templates at hregistry
  generalize right.registry = templates' at hregistry
  cases hregistry with
  | none => exact .fail _
  | @some templates templates' htemplates =>
    have hfound := htemplates name
    dsimp only
    generalize templates.find? name = found at hfound
    generalize templates'.find? name = found' at hfound
    cases hfound with
    | none => exact .fail _
    | some hab => exact .pure fun w' hw => ⟨hab.1.mono (hv.trans hw), hab.2⟩

/-- Levels of corresponding settings correspond, if what they enter does. -/
theorem Setting.Simulates.of_enter (h : left.Simulates c w right) {levels levels' : Nat}
    (henter : ∀ {v : View}, w ≤ v.world → ∀ {e e' : Entry}, c.Entries v.world e e' →
      TextTemplate.Simulates c c.rendering v Same
        ((Level.above left levels).enter e.template e.part e.dir)
        ((Level.above right levels').enter e'.template e'.part e'.dir)) :
    (Level.above left levels).Simulates c w (Level.above right levels') where
  context := by rw [Level.setting_above, Level.setting_above]; exact h.context
  files := by rw [Level.setting_above, Level.setting_above]; exact h.files
  known := by rw [Level.setting_above]; exact h.known
  registered := h.registered levels levels'
  enter := henter

/-- The levels of settings with the same context, files and limit correspond, if they know
corresponding templates by name. -/
theorem Level.simulates_above [hc : c.IsExact] (hcontext : left.context = right.context)
    (hfiles : left.files = right.files) (hknown : c.trees left.files)
    (hlimit : left.limit = right.limit)
    (hregistered : ∀ levels name {v : View}, w ≤ v.world → TextTemplate.Simulates c c.rendering v
      (fun w' a b => c.Templates w' a b ∧ a.origin = b.origin)
      ((above left levels).registered name) ((above right levels).registered name))
    (levels : Nat) : (above left levels).Simulates c w (above right levels) := by
  induction levels with
  | zero =>
    refine ⟨hcontext, hfiles, hknown, hregistered 0, fun _ {_ _} _ => ?_⟩
    rw [enter, enter]
    simp only [above, hlimit]
    exact fun _ => .fail _
  | succ levels ih =>
    refine ⟨hcontext, hfiles, hknown, hregistered (levels + 1), fun {v} hv {e e'} h => ?_⟩
    obtain ⟨hsource, hpart⟩ := hc.entries.1 h.entries
    rw [← hpart]
    exact ((ih.mono hv).runPart (v := v.push e.dir e'.dir) ⟨h.hosts, hsource, hc.texts _⟩
      _).withDir h.dirs

/-- The levels of corresponding settings correspond. -/
theorem Setting.Simulates.above [c.IsExact] (h : left.Simulates c w right) (levels : Nat) :
    (Level.above left levels).Simulates c w (Level.above right levels) :=
  Level.simulates_above h.context h.files h.known h.limit
    (fun levels => h.registered levels levels) levels

end Settings

end TextTemplate
