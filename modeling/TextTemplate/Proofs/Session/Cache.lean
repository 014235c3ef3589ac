import TextTemplate.Proofs.Session.History

/-!
# The include caches cannot be seen

Whatever a session has rendered before, and however the files have changed since, a render leads
to the same outcome as it would with all include caches emptied, as long as a path with the same
time of change holds the same text.

## Main definitions

* `Store.forget`: the store with its include caches emptied.

## Main results

* `Session.agrees_forget`: the outcome does not depend on the include caches.
-/

namespace TextTemplate

/-- The store with its include caches emptied. -/
def Store.forget (store : Store) : Store :=
  { store with caches := store.caches.map fun cache => { cache with entries := [] } }

/-- Empty caches hold what the files hold, whatever that is. -/
theorem Store.Sound.forget {trees trees' : FileTree → Prop} {owners : List Compiler} {store : Store}
    (h : store.Sound trees owners) : store.forget.Sound trees' owners where
  faithful := by
    refine ⟨by rw [Store.forget, Array.size_map, h.faithful.size], ?_⟩
    intro place node cache entry compiler hcache hentry
    rw [Store.forget, Array.getElem?_map] at hcache
    obtain ⟨before, -, rfl⟩ := Option.map_eq_some_iff.1 hcache
    cases hentry
  blocks := h.blocks

section Forget

variable {trees : FileTree → Prop} {templates : List Template} {store : Store} {template : Template}
  {options : RenderOptions} {files : FileTree}

/-- In every session, rendering or evaluating a template leads to the outcome that it has with the
include caches emptied first. -/
theorem Session.agrees_forget (hconsistent : Consistent trees)
    (hsession : Session trees templates store) (hknown : template ∈ templates)
    (hregistered : options.KnownIn templates) (hpresent : trees files) :
    (∀ sink, (template.renderInto options files store sink).Agrees Eq
      (template.renderInto options files store.forget sink)) ∧
    (template.evaluate options files store).Agrees Eq
      (template.evaluate options files store.forget) := by
  obtain ⟨owners, hsound, howned⟩ := hsession.exists_sound hconsistent
  have hoptions := hregistered.simulates hconsistent howned
  have htemplate := (howned template hknown).same hconsistent
  have hstores : (Comparison.same hconsistent).Stores ⟨owners, owners⟩ store store.forget :=
    hsound.stores (fun _ => rfl) hsound.forget rfl
  constructor
  · intro sink
    have hrender :=
      Template.simulates_renderInto hoptions htemplate rfl hpresent hstores sink
    obtain ⟨-, -, -, hagrees⟩ := hrender.same hconsistent
    exact hagrees
  · have hevaluate := Template.simulates_evaluate hoptions htemplate hpresent hstores
    obtain ⟨-, -, -, hagrees⟩ := hevaluate.same hconsistent
    exact hagrees

end Forget

/-- A file in a directory outside the working directory is rewritten after a render that included
it. The next render writes the new text, and agrees with one that remembers nothing. -/
theorem Session.agrees_forget_rewritten :
    ∃ (first second : FileTree) (template : Template) (store : Store),
      let options : RenderOptions := { baseDir := some ⟨"/srv"⟩ }
      Session (fun files => files = first ∨ files = second) [template] store ∧
      store.compilations template = 1 ∧
      (template.renderText options second store).result = .ok "new" ∧
      (∀ sink, (template.renderInto options second store sink).Agrees Eq
        (template.renderInto options second store.forget sink)) ∧
      (template.evaluate options second store).Agrees Eq
        (template.evaluate options second store.forget) := by
  let srv : List String × FileEntry := (["srv"], .directory 7)
  let first : FileTree := ⟨["work"], [srv, (["srv", "page"], .file (.text "old") 1)]⟩
  let second : FileTree := ⟨["work"], [srv, (["srv", "page"], .file (.text "new") 2)]⟩
  let options : RenderOptions := { baseDir := some ⟨"/srv"⟩ }
  let after (loaded : Template × Store) : Store :=
    (loaded.1.renderInto options first loaded.2 .collector).store
  have hconsistent : Consistent fun files => files = first ∨ files = second := by
    refine consistent_of_times ?_
    rintro _ _ (rfl | rfl) (rfl | rfl) <;> decide
  obtain ⟨⟨template, store⟩, hload, hrun⟩ := Attempt.exists_eq_ok_and
    (x := Store.empty.compile ⟨.compiled, []⟩ "@include\x7b'page'\x7d" none)
    (p := fun loaded => decide ((after loaded).compilations loaded.1 = 1 ∧
      (loaded.1.renderText options second (after loaded)).result = .ok "new"))
    (by decide +kernel)
  obtain ⟨hcompilations, hnew⟩ := of_decide_eq_true hrun
  have hregistered : options.KnownIn [template] :=
    RenderOptions.knownIn_of_registry_eq_none rfl [template]
  have hsession : Session (fun files => files = first ∨ files = second) [template] _ :=
    .render (.load .start hload) (List.mem_singleton_self _) hregistered (Or.inl rfl) .collector
  exact ⟨first, second, template, _, hsession, hcompilations, hnew,
    hsession.agrees_forget hconsistent (List.mem_singleton_self _) hregistered (Or.inr rfl)⟩

end TextTemplate
