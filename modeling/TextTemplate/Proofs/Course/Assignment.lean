import TextTemplate.Proofs.Attempt
import TextTemplate.Proofs.Course.Passes

/-!
# Reading an assignment back

A variable that has been assigned to has the value assigned, with one exception. Where no scope
knows the name, a resolver that accepts assignments takes it, but the blocks declared in the render
are looked up before the resolver: a block that was declared under the name in a scope that has
been left since hides the new value.

## Main definitions

* `RenderState.hidingBlock?`: the block that hides what is assigned to a name.

## Main results

* `RenderState.lookup_assign`: the value of a variable after an assignment to it.
* `Template.Reaches.lookup_assign_iff`: when an assignment can be read back, in every state of a
  render.
-/

namespace TextTemplate

variable {name : String} {value : Value} {scopes scopes' : List Scope}

/-! ### Scopes -/

private theorem lookupScopes_cons (name : String) (scope : Scope) (outer : List Scope) :
    RenderState.lookupScopes name (scope :: outer) =
      (scope.find? name <|> RenderState.lookupScopes name outer) := by
  rw [RenderState.lookupScopes, List.findSome?_cons]
  cases scope.find? name <;> rfl

private theorem lookupScopes_bindInnermost (h : scopes ≠ []) :
    RenderState.lookupScopes name (bindInnermost name value scopes) = some value := by
  cases scopes with
  | nil => exact absurd rfl h
  | cons scope outer =>
    rw [bindInnermost, lookupScopes_cons, Bindings.find?_insert_self]
    rfl

/-- Rebinding fails where no scope knows the name. -/
theorem rebind?_eq_none_iff :
    rebind? name value scopes = none ↔ RenderState.lookupScopes name scopes = none := by
  induction scopes with
  | nil => exact ⟨fun _ => rfl, fun _ => rfl⟩
  | cons scope outer ih =>
    rw [rebind?, lookupScopes_cons, Bindings.contains]
    cases hfound : scope.find? name with
    | none => simpa using ih
    | some found => simp

private theorem lookupScopes_of_rebind? (h : rebind? name value scopes = some scopes') :
    RenderState.lookupScopes name scopes' = some value := by
  induction scopes generalizing scopes' with
  | nil => cases h
  | cons scope outer ih =>
    rw [rebind?] at h
    split_ifs at h with hknown
    · cases h
      rw [lookupScopes_cons, Bindings.find?_insert_self]
      rfl
    · obtain ⟨outer', houter, rfl⟩ := Option.map_eq_some_iff.1 h
      have hunknown : scope.find? name = none := by simpa [Bindings.contains] using hknown
      rw [lookupScopes_cons, hunknown, ih houter]
      rfl

/-! ### States -/

namespace RenderState

/-- The block that hides what is assigned to a name: no scope knows the name, the resolver accepts
the assignment, and the block is declared under the name. -/
def hidingBlock? (s : RenderState) (name : String) : Option Nat :=
  match lookupScopes name s.scopes, s.resolver with
  | none, .writable _ => s.declared[name]?
  | _, _ => none

/-- The value of a variable after an assignment to it. -/
theorem lookup_assign (setting : Setting) {s : RenderState} (hs : s.scopes ≠ []) (name : String)
    (value : Value) :
    (s.assign name value).lookup setting name =
      some (((s.hidingBlock? name).map (Value.block · name)).getD value) := by
  unfold assign
  cases hrebind : rebind? name value s.scopes with
  | some scopes =>
    have hknown : lookupScopes name s.scopes ≠ none := fun hunknown =>
      Option.some_ne_none scopes (hrebind.symm.trans (rebind?_eq_none_iff.2 hunknown))
    have hfound : s.hidingBlock? name = none := by
      obtain ⟨found, hfound⟩ := Option.ne_none_iff_exists'.1 hknown
      rw [hidingBlock?, hfound]
    rw [hfound]
    simp [lookup, lookupScopes_of_rebind? hrebind]
  | none =>
    have hunknown : lookupScopes name s.scopes = none := rebind?_eq_none_iff.1 hrebind
    cases hresolver : s.resolver with
    | absent | readOnly vars =>
      simp [hidingBlock?, hunknown, hresolver, Resolver.assign?, lookup,
        lookupScopes_bindInnermost hs]
    | writable vars =>
      simp only [hidingBlock?, hunknown, hresolver, Resolver.assign?, lookup, Resolver.vars,
        Bindings.find?_insert_self]
      cases s.declared[name]? <;> rfl

end RenderState

/-! ### Renders -/

section Renders

variable {template : Template} {options : RenderOptions} {files : FileTree} {store : Store}
  {s : RenderState}

/-- In every state of a render, an assignment can be read back exactly if no declared block hides
it, or if it assigns that block itself. -/
theorem Template.Reaches.lookup_assign_iff (h : template.Reaches options files store s)
    (name : String) (value : Value) :
    (s.assign name value).lookup (options.setting files) name = some value ↔
      ∀ id, s.hidingBlock? name = some id → value = .block id name := by
  rw [RenderState.lookup_assign _ h.scopes_ne_nil]
  cases s.hidingBlock? name with
  | none => simp
  | some id => simp [eq_comm]

end Renders

/-- A block is declared in a loop that is then left: no scope knows the block any more, and it hides
what the resolver takes under its name. -/
theorem exists_hidingBlock :
    ∃ (template : Template) (store : Store) (s : RenderState),
      Store.empty.compile ⟨.compiled, []⟩ "@foreach{i : 1}@declare\x7b'f'\x7dx@end{}@end{}" none =
        .ok (template, store) ∧
      template.Reaches { resolver := .writable [] } .empty store s ∧
      s.hidingBlock? "f" = some 0 ∧ s.hidingBlock? "g" = none := by
  let last (loaded : Template × Store) : RenderState :=
    loaded.1.lastState { resolver := .writable [] } .empty loaded.2 .collector
  obtain ⟨⟨template, store⟩, hcompile, hlast⟩ := Attempt.exists_eq_ok_and
    (x := Store.empty.compile ⟨.compiled, []⟩
      "@foreach{i : 1}@declare\x7b'f'\x7dx@end{}@end{}" none)
    (p := fun loaded => (last loaded).hidingBlock? "f" = some 0 ∧
      (last loaded).hidingBlock? "g" = none) (by decide +kernel)
  exact ⟨template, store, _, hcompile, template.reaches_lastState _ _ _ .collector,
    of_decide_eq_true hlast⟩

/-- After the loop, what is assigned to the name of the block is not read back, and what is
assigned to another name is. -/
theorem lookup_assign_iff_left_loop :
    ∃ (template : Template) (options : RenderOptions) (store : Store) (s : RenderState),
      template.Reaches options .empty store s ∧
      (s.assign "f" (.int 1)).lookup (options.setting .empty) "f" ≠ some (.int 1) ∧
      (s.assign "g" (.int 1)).lookup (options.setting .empty) "g" = some (.int 1) := by
  obtain ⟨template, store, s, -, hreaches, hhides, hfree⟩ := exists_hidingBlock
  refine ⟨template, _, store, s, hreaches, ?_, ?_⟩
  · rw [Ne, hreaches.lookup_assign_iff]
    intro h
    cases h 0 hhides
  · rw [hreaches.lookup_assign_iff, hfree]
    exact nofun

/-- A render whose resolver accepts assignments reaches a state where an assignment is not read
back. -/
theorem exists_lookup_assign_ne :
    ∃ (template : Template) (options : RenderOptions) (store : Store) (s : RenderState),
      Store.empty.compile ⟨.compiled, []⟩ "@foreach{i : 1}@declare\x7b'f'\x7dx@end{}@end{}" none =
        .ok (template, store) ∧
      options.resolver = .writable [] ∧ template.Reaches options .empty store s ∧
      (s.assign "f" (.int 1)).lookup (options.setting .empty) "f" ≠ some (.int 1) := by
  obtain ⟨template, store, s, hcompile, hreaches, hhides, -⟩ := exists_hidingBlock
  refine ⟨template, { resolver := .writable [] }, store, s, hcompile, rfl, hreaches, ?_⟩
  rw [RenderState.lookup_assign _ hreaches.scopes_ne_nil, hhides]
  exact nofun

end TextTemplate
