import TextTemplate.Proofs.Script.Alike
import TextTemplate.Proofs.Structure.Matching

/-!
# Scripts of sources in parts

Two sources that are sealed from one another are one source that compiles if both do, and its script
is the one behind the other. An include can be replaced by a text that is sealed on both sides.

## Main definitions

* `Template.script`: the script of a template.

## Main results

* `exists_script_append`: the script of one source behind another one.
* `exists_script_inlined`: the script of a source with an include replaced.
-/

namespace TextTemplate

/-- The script of a template. -/
def Template.script (template : Template) : Script :=
  template.tree.script template.source 0

variable {compiler : Compiler} {source : String}

theorem Template.unterminated_eq_none (template : Template) :
    (Outline.ofSource template.source).unterminated = none :=
  (compile_eq_ok_iff.1 template.compiled).1

theorem Template.script_derives (template : Template) :
    template.script.Derives template.compiler template.source (Outline.marks template.source) :=
  template.derives_tree.script 0

/-- The marks of a source that yields some items, but for the comments. -/
theorem Outline.map_item_marks_of_yields {items : List Item} (h : Yields [] source.toList items) :
    (Outline.marks source).map (Mark.item source) = Item.scripted items := by
  rw [Outline.map_item_marks, (Outline.yields_iff.1 h).2]

/-- A source whose marks are a script compiles, to templates with this script. -/
theorem exists_compile_of_script {script : Script}
    (hterminated : (Outline.ofSource source).unterminated = none)
    (h : script.Derives compiler source (Outline.marks source)) :
    (∃ program, Program.compile compiler source = .ok program) ∧
      ∀ template : Template, template.compiler = compiler → template.source = source →
        template.script = script := by
  obtain ⟨body, hbody, hscript⟩ := h.exists_body 0 [] _ rfl
  refine ⟨⟨_, compile_eq_ok_iff.2 ⟨hterminated, body, hbody, rfl⟩⟩, ?_⟩
  rintro template rfl rfl
  rw [hscript, Template.script, Template.tree, Outline.tree?_eq_of_derives hbody]
  rfl

/-- The marks of a part of a source are carried over to it. -/
theorem Template.exists_script_of_items (template : Template) {ms : List Mark}
    (hms : ∀ p d, .directive p d ∈ ms → .directive p d ∈ Outline.marks source)
    (hitems : (Outline.marks template.source).map (Mark.item template.source) =
      ms.map (Mark.item source)) (inlines : Slot → Script → Prop) :
    ∃ script : Script, script.Derives template.compiler source ms ∧
      Script.Alike .any template.source source inlines template.script script :=
  template.script_derives.expand (.of_items hitems
    (fun _ _ => Outline.exists_covers_of_mem_marks)
    fun p d hd => Outline.exists_covers_of_mem_marks (hms p d hd))

/-- One source behind another one compiles, and its script is the one behind the other. -/
theorem exists_script_append {a b : Template} (hcompiler : a.compiler = b.compiler)
    (hsealed : Sealed a.source.toList b.source.toList) (inlines : Slot → Script → Prop) :
    (∃ program, Program.compile a.compiler (a.source ++ b.source) = .ok program) ∧
      ∃ script script' : Script,
        Script.Alike .any a.source (a.source ++ b.source) inlines a.script script ∧
          Script.Alike .any b.source (a.source ++ b.source) inlines b.script script' ∧
          ∀ template : Template, template.compiler = a.compiler →
            template.source = a.source ++ b.source →
            template.script = script.append script' := by
  have ha := Outline.yields_iff.2 ⟨a.unterminated_eq_none, rfl⟩
  have hb := Outline.yields_iff.2 ⟨b.unterminated_eq_none, rfl⟩
  rw [← List.append_nil b.source.toList] at hsealed
  have hwhole := (ha.followedBy hsealed).append hb
  rw [← String.toList_append] at hwhole
  have hitems := Outline.map_item_marks_of_yields hwhole
  rw [Item.scripted_append, ← Outline.map_item_marks, ← Outline.map_item_marks] at hitems
  obtain ⟨ms, ms', hmarks, hms, hms'⟩ := List.map_eq_append_iff.1 hitems
  obtain ⟨script, hderives, halike⟩ := a.exists_script_of_items
    (fun p d hd => by rw [hmarks]; exact List.mem_append_left _ hd) hms.symm inlines
  obtain ⟨script', hderives', halike'⟩ := b.exists_script_of_items
    (fun p d hd => by rw [hmarks]; exact List.mem_append_right _ hd) hms'.symm inlines
  rw [← hcompiler] at hderives'
  have hboth := hderives.append hderives'
  rw [← hmarks] at hboth
  obtain ⟨hcompiles, hscript⟩ := exists_compile_of_script (Outline.yields_iff.1 hwhole).1 hboth
  exact ⟨hcompiles, script, script', halike, halike', hscript⟩

/-- An include that is a source of its own: its sigil, its name, and its body in braces. -/
def includeText (body : List Char) : List Char :=
  '@' :: ("include".toList ++ '{' :: (body ++ ['}']))

/-- What stands behind a directive is read on its own. -/
theorem Yields.behind_directive {sigil : Char} {name body after : List Char} {items : List Item}
    (h : Yields [] (sigil :: (name ++ '{' :: (body ++ '}' :: after)))
      (.directive name body :: items)) : Yields [] after items := by
  generalize hcs : sigil :: (name ++ '{' :: (body ++ '}' :: after)) = cs at h
  generalize hall : Item.directive name body :: items = all at h
  cases h with
  | nil => cases hcs
  | literal => cases hall
  | escape => cases hall
  | directive _ _ _ hrest =>
    obtain ⟨⟨rfl, rfl⟩, rfl⟩ : (_ ∧ _) ∧ _ := by simpa using hall
    obtain ⟨-, hnamed⟩ := List.cons.inj hcs
    obtain ⟨-, hbody⟩ := List.cons.inj (List.append_cancel_left hnamed)
    obtain ⟨-, rfl⟩ := List.cons.inj (List.append_cancel_left hbody)
    exact hrest

/-- What a source with an include yields, and what it yields with a text in its place that is sealed
on both sides. -/
theorem exists_yields_inlined {before body text after : List Char} {contents : List Item}
    (hterminated : (Outline.ofSource source).unterminated = none)
    (hsource : source.toList = before ++ includeText body ++ after)
    (hinclude : .directive (directiveAt before '@' "include".toList body) ∈
      (Outline.ofSource source).pieces)
    (htext : Yields [] text contents) (hbefore : Sealed before (text ++ after))
    (hafter : Sealed text after) :
    ∃ items items',
      Yields [] source.toList (items ++ .directive "include".toList body :: items') ∧
        Yields [] (before ++ (text ++ after)) (items ++ (contents ++ items')) := by
  have hsplit : source.toList =
      before ++ '@' :: ("include".toList ++ '{' :: (body ++ '}' :: after)) := by
    rw [hsource, includeText]
    simp
  obtain ⟨items, items', hitems, hitems'⟩ := Outline.yields_around hterminated hsplit hinclude
  refine ⟨items, items', ?_, ?_⟩
  · rw [hsplit]
    exact Yields.append (by rwa [List.append_nil]) hitems'
  · have hmoved := hitems.move
      (fun _ rest _ hrest => startsHead_of_append_sigil (by decide) hrest) hbefore
    exact Yields.append (by rwa [List.append_nil])
      (Yields.append (htext.followedBy (by rwa [List.append_nil])) hitems'.behind_directive)

/-- A source with an include that is replaced by another source compiles, if neither of the seams
makes a new head or escape; and its script is that of the first source with the include inlined. -/
theorem exists_script_inlined {a c : Template} {before body after : List Char}
    {inlines : Slot → Script → Prop} (hcompiler : a.compiler = c.compiler)
    (hsource : a.source.toList = before ++ includeText body ++ after)
    (hinclude : .directive (directiveAt before '@' "include".toList body) ∈
      (Outline.ofSource a.source).pieces)
    (hsource' : source.toList = before ++ (c.source.toList ++ after))
    (hbefore : Sealed before (c.source.toList ++ after)) (hafter : Sealed c.source.toList after)
    (hinlines : ∀ contents : Script,
      Script.Alike .any c.source source (fun _ _ => False) c.script contents →
      ∀ d : Directive, d.name = "include" → d.body.Covers a.source body →
      ∀ role, d.Reads a.compiler a.source role →
        ∃ target, role = .standsAlone (.includeFile target none) ∧ inlines target contents) :
    (∃ program, Program.compile a.compiler source = .ok program) ∧
      ∃ script : Script, Script.Alike .any a.source source inlines a.script script ∧
        ∀ template : Template, template.compiler = a.compiler → template.source = source →
          template.script = script := by
  obtain ⟨items, items', hleft, hright⟩ := exists_yields_inlined a.unterminated_eq_none hsource
    hinclude (Outline.yields_iff.2 ⟨c.unterminated_eq_none, rfl⟩) hbefore hafter
  rw [← hsource'] at hright
  -- The marks of both sources are cut where the items are.
  have hmarks := Outline.map_item_marks_of_yields hleft
  have hmarks' := Outline.map_item_marks_of_yields hright
  rw [Item.scripted_append] at hmarks hmarks'
  rw [Item.scripted_append, ← Outline.map_item_marks] at hmarks'
  obtain ⟨ms, _, heq, hms, hrest⟩ := List.map_eq_append_iff.1 hmarks
  obtain ⟨mark, last, rfl, hmark, hlast⟩ := List.map_eq_cons_iff.1 hrest
  obtain ⟨ms', _, heq', hms', hrest'⟩ := List.map_eq_append_iff.1 hmarks'
  obtain ⟨inside, last', rfl, hinside, hlast'⟩ := List.map_eq_append_iff.1 hrest'
  have hcovers (p : Nat) (d : Directive) (hd : .directive p d ∈ ms ++ mark :: last) :=
    Outline.exists_covers_of_mem_marks (heq ▸ hd)
  have hcovers' (p : Nat) (d : Directive) (hd : .directive p d ∈ ms' ++ (inside ++ last')) :=
    Outline.exists_covers_of_mem_marks (heq' ▸ hd)
  obtain ⟨contents, hcontents, halike⟩ := c.exists_script_of_items
    (fun p d hd => by rw [heq']; simp [hd]) hinside.symm (fun _ _ => False)
  -- The include is the mark between the two parts.
  cases mark with
  | char => cases hmark
  | directive p d =>
    rw [Mark.item, Item.directive.injEq] at hmark
    obtain ⟨text, htext⟩ := hcovers p d (by simp)
    obtain rfl : text = body := htext.chars_eq.symm.trans hmark.2
    have hexpands : Expands a.compiler .any a.source source inlines (ms ++ .directive p d :: last)
        (ms' ++ (inside ++ last')) := by
      refine .append (.of_items (hms.trans hms'.symm) (fun p d hd => hcovers p d (by simp [hd]))
        fun p d hd => hcovers' p d (by simp [hd])) (.inlined ?_ (hcompiler ▸ hcontents) ?_)
      · exact hinlines contents halike d (String.toList_inj.1 hmark.1) htext
      · exact .of_items (hlast.trans hlast'.symm) (fun p d hd => hcovers p d (by simp [hd]))
          fun p d hd => hcovers' p d (by simp [hd])
    rw [← heq, ← heq'] at hexpands
    obtain ⟨script, hderives, halike'⟩ := a.script_derives.expand hexpands
    obtain ⟨hcompiles, hscript⟩ :=
      exists_compile_of_script (Outline.yields_iff.1 hright).1 hderives
    exact ⟨hcompiles, script, halike', hscript⟩

end TextTemplate
