import TextTemplate.Proofs.Text.Coverage

/-!
# Scripts

The script of a template is its tree without what makes no difference to the text that a render
gives: comments are left out, and a text is a sequence of characters, however many spans it has.
The nodes that are left keep their places. A script can be read off the characters and directives
of a source, and one that is read off them is the script of a tree.

## Main definitions

* `Script`, `Alternatives`: trees without comments.
* `Body.script`: the script of a tree.
* `Mark`, `marks`: the characters and directives of phrases.
* `Script.Derives`: the block grammar over characters and directives.

## Main results

* `Body.Derives.script`: the script of a tree is derived from the marks of its phrases.
* `Script.Derives.exists_body`: what is derived from these marks is the script of a tree.
* `Script.Derives.append`: one script behind another one.
-/

namespace TextTemplate

/-! ### Scripts -/

mutual

/-- A sequence of characters, directives that stand alone, but no comments, and blocks; with the
places of their nodes. -/
inductive Script where
  | done
  | char (c : Char) (rest : Script)
  | action (place : Nat) (directive : Directive) (action : Action) (rest : Script)
  | block (place : Nat) (directive : Directive) (opener : Opener) (body : Script)
      (others : Alternatives) (rest : Script)

/-- What follows the first body of a block: its end, or one more branch. -/
inductive Alternatives where
  | closed (closer : Directive)
  | branch (directive : Directive) (condition : Option Slot) (body : Script) (more : Alternatives)

end

/-- One script behind another one. -/
def Script.append : Script → Script → Script
  | .done, last => last
  | .char c rest, last => .char c (rest.append last)
  | .action place d a rest, last => .action place d a (rest.append last)
  | .block place d opener body others rest, last =>
    .block place d opener body others (rest.append last)

/-- Characters in front of a script. -/
def Script.ofText (text : List Char) (rest : Script) : Script :=
  text.foldr .char rest

/-- The directive that ends the block. -/
def Alternatives.closer : Alternatives → Directive
  | .closed closer => closer
  | .branch _ _ _ more => more.closer

/-- Whether a directive is a comment. -/
def Action.isComment : Action → Bool
  | .comment => true
  | _ => false

/-- The text of the spans. -/
def textOf (source : String) (spans : List Span) : List Char :=
  spans.flatMap (Span.chars source)

section Tree

variable (source : String)

mutual

/-- The script of a body whose first node stands at `place`. -/
def Body.script (place : Nat) : Body → Script
  | .done => .done
  | .text spans rest => .ofText (textOf source spans) (rest.script (place + 1))
  | .action d a rest =>
    if a.isComment then rest.script (place + 1) else .action place d a (rest.script (place + 1))
  | .block d opener body branches rest =>
    let after := place + 1 + body.width
    .block place d opener (body.script (place + 1)) (branches.script after)
      (rest.script (after + branches.width + 1))

/-- The script of the rest of a block that starts at `place`. -/
def Branches.script (place : Nat) : Branches → Alternatives
  | .closed closer => .closed closer
  | .branch d condition body more =>
    .branch d condition (body.script (place + 2)) (more.script (place + 2 + body.width))

end

end Tree

/-! ### Marks -/

/-- A character, or a directive whose node stands at this place. -/
inductive Mark where
  | char (c : Char)
  | directive (place : Nat) (d : Directive)

/-- How many nodes a phrase has. -/
def Phrase.width (phrase : Phrase) : Nat :=
  phrase.imprints.length

/-- How many nodes phrases have. -/
def phrasesWidth (phrases : List Phrase) : Nat :=
  (phrases.flatMap Phrase.imprints).length

/-- The characters and directives of a phrase whose first node stands at `place`, comments apart. -/
def Phrase.marks (source : String) (place : Nat) : Phrase → List Mark
  | .text spans => (textOf source spans).map .char
  | .directive d => if d.name = "comment" then [] else [.directive place d]

/-- The characters and directives of phrases. -/
def marks (source : String) : Nat → List Phrase → List Mark
  | _, [] => []
  | place, phrase :: phrases =>
    phrase.marks source place ++ marks source (place + phrase.width) phrases

section Marks

variable {source : String} {place : Nat}

@[simp] theorem phrasesWidth_nil : phrasesWidth [] = 0 := rfl

@[simp] theorem phrasesWidth_cons (phrase : Phrase) (phrases : List Phrase) :
    phrasesWidth (phrase :: phrases) = phrase.width + phrasesWidth phrases := by
  rw [phrasesWidth, List.flatMap_cons, List.length_append]
  rfl

@[simp] theorem phrasesWidth_append (phrases more : List Phrase) :
    phrasesWidth (phrases ++ more) = phrasesWidth phrases + phrasesWidth more := by
  rw [phrasesWidth, List.flatMap_append, List.length_append]
  rfl

theorem marks_append (phrases more : List Phrase) :
    marks source place (phrases ++ more) =
      marks source place phrases ++ marks source (place + phrasesWidth phrases) more := by
  induction phrases generalizing place with
  | nil => rfl
  | cons phrase phrases ih =>
    rw [List.cons_append, marks, marks, ih, List.append_assoc, phrasesWidth_cons, Nat.add_assoc]

theorem marks_singleton (phrase : Phrase) :
    marks source place [phrase] = phrase.marks source place := by
  rw [marks, marks, List.append_nil]

private theorem Body.Derives.width_eq {compiler : Compiler} {phrases : List Phrase} {body : Body}
    (h : body.Derives compiler source phrases) : body.width = phrasesWidth phrases := by
  rw [← Body.length_layout 0 body, ← List.length_map Node.imprint, h.map_imprint_layout]
  rfl

private theorem Branches.Derives.width_eq {compiler : Compiler} {opener opener' : Opener}
    {phrases : List Phrase} {body : Body} {branches : Branches}
    (h : Branches.Derives compiler source opener phrases opener' body branches) :
    body.width + branches.width + 1 = phrasesWidth phrases := by
  rw [phrasesWidth, ← h.map_imprint_layout 0 0 0, List.length_map, List.length_append,
    Body.length_layout, Branches.length_layout, Nat.add_assoc]

private theorem Directive.width_of_reads {compiler : Compiler} {d : Directive} {role : Role}
    (h : d.Reads compiler source role) (hrole : role ≠ .goesOn) :
    (Phrase.directive d).width = 1 := by
  rw [Phrase.width, Directive.imprints_of_reads h hrole]
  rfl

private theorem Directive.width_of_goesOn {compiler : Compiler} {d : Directive}
    (h : d.Reads compiler source .goesOn) : (Phrase.directive d).width = 2 := by
  have hname : d.name = "else" ∨ d.name = "elseif" := Directive.names_of_reads h
  rw [Phrase.width, Phrase.imprints, if_pos hname]
  rfl

end Marks

/-! ### The grammar -/

section Grammar

variable (compiler : Compiler) (source : String)

mutual

/-- The marks are a script. -/
inductive Script.Derives : List Mark → Script → Prop
  | done : Script.Derives [] .done
  | char {ms : List Mark} {rest : Script} (c : Char) (follows : Script.Derives ms rest) :
      Script.Derives (.char c :: ms) (.char c rest)
  | action {place : Nat} {d : Directive} {action : Action} {ms : List Mark} {rest : Script}
      (reads : d.Reads compiler source (.standsAlone action)) (other : action.isComment = false)
      (follows : Script.Derives ms rest) :
      Script.Derives (.directive place d :: ms) (.action place d action rest)
  | block {place : Nat} {d : Directive} {opener opener' : Opener} {inside ms : List Mark}
      {body : Script} {others : Alternatives} {rest : Script}
      (reads : d.Reads compiler source (.opens opener))
      (block : Alternatives.Derives opener inside opener' body others)
      (follows : Script.Derives ms rest) :
      Script.Derives (.directive place d :: (inside ++ ms))
        (.block place d opener' body others rest)

/-- The marks are the rest of a block with this opener, up to its end. -/
inductive Alternatives.Derives : Opener → List Mark → Opener → Script → Alternatives → Prop
  | closed {place : Nat} {d : Directive} {opener opener' : Opener} {inside : List Mark}
      {body : Script} (derives : Script.Derives inside body)
      (reads : d.Reads compiler source .ends) (ends : d.Ends compiler source opener opener') :
      Alternatives.Derives opener (inside ++ [.directive place d]) opener' body (.closed d)
  | branch {place : Nat} {d : Directive} {condition : Slot} {next : Option Slot}
      {inside ms : List Mark} {body body' : Script} {more : Alternatives}
      (derives : Script.Derives inside body) (reads : d.Reads compiler source .goesOn)
      (continues : d.Continues compiler source next)
      (follows : Alternatives.Derives (.conditional next) ms (.conditional next) body' more) :
      Alternatives.Derives (.conditional (some condition)) (inside ++ .directive place d :: ms)
        (.conditional (some condition)) body (.branch d next body' more)

end

end Grammar

variable {compiler : Compiler} {source : String}

/-- Characters may stand in front of a script. -/
theorem Script.Derives.ofText {ms : List Mark} {rest : Script} (text : List Char)
    (h : rest.Derives compiler source ms) :
    (Script.ofText text rest).Derives compiler source (text.map .char ++ ms) := by
  induction text with
  | nil => exact h
  | cons c text ih => exact .char c ih

/-- One script may stand behind another one. -/
theorem Script.Derives.append {ms more : List Mark} {script last : Script} :
    script.Derives compiler source ms → last.Derives compiler source more →
      (script.append last).Derives compiler source (ms ++ more)
  | .done, hlast => hlast
  | .char c hrest, hlast => .char c (hrest.append hlast)
  | .action hreads hother hrest, hlast => .action hreads hother (hrest.append hlast)
  | .block hreads hblock hrest, hlast => by
    rw [List.cons_append, List.append_assoc]
    exact .block hreads hblock (hrest.append hlast)

/-- The condition of a branch is settled before its end. -/
theorem Alternatives.Derives.opener_eq {ms : List Mark} {condition : Option Slot} {opener : Opener}
    {script : Script} {others : Alternatives} :
    Alternatives.Derives compiler source (.conditional condition) ms opener script others →
      opener = .conditional condition
  | .closed _ _ .conditional => rfl
  | .branch .. => rfl

/-! ### The script of a tree -/

private theorem Directive.marks_of_reads {d : Directive} {role : Role}
    (h : d.Reads compiler source role) (hrole : role ≠ .standsAlone .comment) (place : Nat) :
    (Phrase.directive d).marks source place = [.directive place d] := by
  rw [Phrase.marks, if_neg]
  intro hname
  have hcomment : d.role compiler source = .ok (.standsAlone .comment) :=
    Directive.role_of_comment hname
  exact hrole (Except.ok.inj ((Directive.role_eq_ok_iff.2 h).symm.trans hcomment))

private theorem Action.ne_comment {action : Action} (h : action.isComment = false) :
    Role.standsAlone action ≠ .standsAlone .comment := by
  rintro ⟨⟩
  cases h

mutual

/-- The script of a tree is derived from the marks of the phrases of the tree. -/
theorem Body.Derives.script {phrases : List Phrase} {body : Body} (place : Nat) :
    body.Derives compiler source phrases →
      (body.script source place).Derives compiler source (marks source place phrases)
  | .done => .done
  | .text hrest => by
    rw [marks, Body.script]
    exact (hrest.script (place + 1)).ofText _
  | @Body.Derives.action _ _ _ action _ _ hreads hrest => by
    rw [marks, Directive.width_of_reads hreads nofun, Body.script]
    cases haction : action.isComment with
    | true =>
      obtain rfl : action = .comment := by cases action <;> first | rfl | cases haction
      rw [Phrase.marks, if_pos (Directive.name_of_reads_comment hreads)]
      exact hrest.script (place + 1)
    | false =>
      rw [Directive.marks_of_reads hreads (Action.ne_comment haction)]
      exact .action hreads haction (hrest.script (place + 1))
  | .block hreads hblock hrest => by
    rw [marks, Directive.width_of_reads hreads nofun, Directive.marks_of_reads hreads nofun,
      marks_append, ← hblock.width_eq, Body.script, List.singleton_append]
    refine .block hreads (hblock.script (place + 1)) ?_
    rw [← Nat.add_assoc, ← Nat.add_assoc]
    exact hrest.script _

/-- So is the script of the rest of a block. -/
theorem Branches.Derives.script {opener opener' : Opener} {phrases : List Phrase} {body : Body}
    {branches : Branches} (place : Nat) :
    Branches.Derives compiler source opener phrases opener' body branches →
      Alternatives.Derives compiler source opener (marks source place phrases) opener'
        (body.script source place) (branches.script source (place + body.width))
  | .closed hbody hreads hends => by
    rw [marks_append, marks_singleton, Directive.marks_of_reads hreads nofun]
    exact .closed (hbody.script place) hreads hends
  | .branch hbody hreads hcontinues hmore => by
    rw [marks_append, marks, Directive.marks_of_reads hreads nofun,
      Directive.width_of_goesOn hreads, ← hbody.width_eq, List.singleton_append, Branches.script]
    exact .branch (hbody.script place) hreads hcontinues (hmore.script _)

end

/-! ### The tree of a script -/

section Marks

variable {place : Nat}

/-- Phrases that leave no marks may stand in front of a body. -/
theorem exists_derives_of_marks_eq_nil {silent phrases : List Phrase} {body : Body}
    (hsilent : marks source place silent = []) (hbody : body.Derives compiler source phrases) :
    ∃ body' : Body, body'.Derives compiler source (silent ++ phrases) ∧
      body'.script source place = body.script source (place + phrasesWidth silent) := by
  induction silent generalizing place with
  | nil => exact ⟨body, hbody, rfl⟩
  | cons phrase silent ih =>
    rw [marks, List.append_eq_nil_iff] at hsilent
    obtain ⟨body', hbody', hscript⟩ := ih hsilent.2
    rw [phrasesWidth_cons, ← Nat.add_assoc, ← hscript]
    cases phrase with
    | text spans =>
      refine ⟨.text spans body', .text hbody', ?_⟩
      rw [Body.script, List.map_eq_nil_iff.1 hsilent.1]
      rfl
    | directive d =>
      have hname : d.name = "comment" := by
        by_contra hname
        simp [Phrase.marks, hname] at hsilent
      have hreads : d.Reads compiler source (.standsAlone .comment) := .comment hname
      refine ⟨.action d .comment body', .action hreads hbody', ?_⟩
      rw [Body.script, Directive.width_of_reads hreads nofun]
      rfl

/-- Where the next mark is a character, a text goes on with it. -/
theorem exists_of_marks_eq_char {phrases : List Phrase} {c : Char} {ms : List Mark}
    (h : .char c :: ms = marks source place phrases) :
    ∃ silent spans text after, phrases = silent ++ .text spans :: after ∧
      marks source place silent = [] ∧ textOf source spans = c :: text ∧
      ms = text.map .char ++ marks source (place + phrasesWidth silent + 1) after := by
  induction phrases generalizing place with
  | nil => cases h
  | cons phrase phrases ih =>
    rw [marks] at h
    cases hmarks : phrase.marks source place with
    | nil =>
      rw [hmarks, List.nil_append] at h
      obtain ⟨silent, spans, text, after, rfl, hsilent, htext, hms⟩ := ih h
      refine ⟨phrase :: silent, spans, text, after, rfl, ?_, htext, ?_⟩
      · rw [marks, hmarks, hsilent, List.nil_append]
      · rw [phrasesWidth_cons, ← Nat.add_assoc]
        exact hms
    | cons mark more =>
      rw [hmarks] at h
      obtain ⟨rfl, rfl⟩ := List.cons.inj h
      cases phrase with
      | text spans =>
        obtain ⟨d, text, htext, hd, rfl⟩ := List.map_eq_cons_iff.1 hmarks
        cases hd
        exact ⟨[], spans, text, phrases, rfl, rfl, htext, rfl⟩
      | directive d =>
        rw [Phrase.marks] at hmarks
        split_ifs at hmarks
        cases hmarks

/-- Where a mark is a directive, the phrases are cut there. -/
theorem exists_of_marks_eq_append {phrases : List Phrase} {inside more : List Mark} {p : Nat}
    {d : Directive} (h : inside ++ .directive p d :: more = marks source place phrases) :
    ∃ before after, phrases = before ++ .directive d :: after ∧
      inside = marks source place before ∧ p = place + phrasesWidth before ∧
      more = marks source (p + (Phrase.directive d).width) after := by
  induction phrases generalizing place inside with
  | nil => simp [marks] at h
  | cons phrase phrases ih =>
    have hlater (later : List Mark) (hinside : inside = phrase.marks source place ++ later)
        (hmarks : later ++ .directive p d :: more =
          marks source (place + phrase.width) phrases) :
        ∃ before after, phrase :: phrases = before ++ .directive d :: after ∧
          inside = marks source place before ∧ p = place + phrasesWidth before ∧
          more = marks source (p + (Phrase.directive d).width) after := by
      obtain ⟨before, after, rfl, rfl, hp, hmore⟩ := ih hmarks
      refine ⟨phrase :: before, after, rfl, hinside, ?_, hmore⟩
      rw [hp, phrasesWidth_cons, Nat.add_assoc]
    rw [marks] at h
    obtain ⟨later, hphrase, hmarks⟩ | ⟨later, hinside, hmarks⟩ := List.append_eq_append_iff.1 h
    · cases later with
      | nil =>
        rw [List.append_nil] at hphrase
        exact hlater [] (by rw [hphrase, List.append_nil]) hmarks
      | cons mark later =>
        obtain ⟨rfl, rfl⟩ := List.cons.inj hmarks
        cases phrase with
        | text spans =>
          have hmem : Mark.directive p d ∈ (Phrase.text spans).marks source place := by
            rw [hphrase]
            simp
          obtain ⟨_, -, hmark⟩ := List.mem_map.1 hmem
          cases hmark
        | directive e =>
          rw [Phrase.marks] at hphrase
          split_ifs at hphrase
          · cases inside <;> cases hphrase
          · obtain ⟨rfl, hrest⟩ | ⟨rest, rfl, hrest⟩ := List.cons_eq_append_iff.1 hphrase
            · obtain ⟨⟨rfl, rfl⟩, rfl⟩ : (_ ∧ _) ∧ _ := by simpa using hrest
              exact ⟨[], phrases, rfl, rfl, rfl, rfl⟩
            · cases rest <;> cases hrest
    · exact hlater later hinside hmarks.symm

/-- So they are behind characters that are left of a text. -/
theorem exists_of_marks_behind_text {phrases : List Phrase} {pending : List Char}
    {more : List Mark} {p : Nat} {d : Directive}
    (h : .directive p d :: more = pending.map .char ++ marks source place phrases) :
    pending = [] ∧ ∃ silent after, phrases = silent ++ .directive d :: after ∧
      marks source place silent = [] ∧ p = place + phrasesWidth silent ∧
      more = marks source (p + (Phrase.directive d).width) after := by
  cases pending with
  | cons c pending => cases h
  | nil =>
    have hmarks : [] ++ .directive p d :: more = marks source place phrases := h
    obtain ⟨silent, after, hphrases, hsilent, hp, hmore⟩ := exists_of_marks_eq_append hmarks
    exact ⟨rfl, silent, after, hphrases, hsilent.symm, hp, hmore⟩

end Marks

mutual

/-- A script that is derived from the marks of phrases is the script of a tree, and the phrases are
the body. Some characters may be left of a text in front of them. -/
theorem Script.Derives.exists_body {ms : List Mark} {script : Script} :
    script.Derives compiler source ms → ∀ (place : Nat) (pending : List Char)
      (phrases : List Phrase), ms = pending.map .char ++ marks source place phrases →
      ∃ body : Body, body.Derives compiler source phrases ∧
        script = .ofText pending (body.script source place)
  | .done, place, pending, phrases, h => by
    obtain ⟨hpending, hsilent⟩ := List.append_eq_nil_iff.1 h.symm
    obtain rfl := List.map_eq_nil_iff.1 hpending
    have hdone : Body.Derives compiler source [] .done := .done
    obtain ⟨body, hbody, hscript⟩ := exists_derives_of_marks_eq_nil hsilent hdone
    rw [List.append_nil] at hbody
    exact ⟨body, hbody, hscript.symm⟩
  | .char c hrest, place, pending, phrases, h => by
    cases pending with
    | cons d pending =>
      obtain ⟨hchar, hms⟩ := List.cons.inj h
      cases hchar
      obtain ⟨body, hbody, rfl⟩ := hrest.exists_body place pending phrases hms
      exact ⟨body, hbody, rfl⟩
    | nil =>
      obtain ⟨silent, spans, text, after, rfl, hsilent, htext, hms⟩ := exists_of_marks_eq_char h
      obtain ⟨body, hbody, rfl⟩ := hrest.exists_body _ text after hms
      have hbehind : Body.Derives compiler source (.text spans :: after) (.text spans body) :=
        .text hbody
      obtain ⟨body', hbody', hscript⟩ := exists_derives_of_marks_eq_nil hsilent hbehind
      refine ⟨body', hbody', ?_⟩
      rw [hscript, Body.script, htext]
      rfl
  | .action hreads hother hrest, place, pending, phrases, h => by
    obtain ⟨rfl, silent, after, rfl, hsilent, rfl, hmore⟩ := exists_of_marks_behind_text h
    rw [Directive.width_of_reads hreads nofun] at hmore
    obtain ⟨body, hbody, rfl⟩ := hrest.exists_body _ [] after hmore
    obtain ⟨body', hbody', hscript⟩ :=
      exists_derives_of_marks_eq_nil hsilent (.action hreads hbody)
    refine ⟨body', hbody', ?_⟩
    rw [hscript, Body.script, hother]
    rfl
  | .block hreads hblock hrest, place, pending, phrases, h => by
    obtain ⟨rfl, silent, after, rfl, hsilent, rfl, hmore⟩ := exists_of_marks_behind_text h
    rw [Directive.width_of_reads hreads nofun] at hmore
    obtain ⟨inside, after, body, branches, rfl, hafter, hderives, rfl, rfl⟩ :=
      hblock.exists_branches _ _ _ hmore
    obtain ⟨last, hlast, rfl⟩ := hrest.exists_body _ [] after hafter
    obtain ⟨body', hbody', hscript⟩ :=
      exists_derives_of_marks_eq_nil hsilent (.block hreads hderives hlast)
    refine ⟨body', hbody', ?_⟩
    rw [hscript, Body.script, ← hderives.width_eq, ← Nat.add_assoc, ← Nat.add_assoc]
    rfl

/-- So is what is derived from marks at the start of those of phrases, as the rest of a block. -/
theorem Alternatives.Derives.exists_branches {opener opener' : Opener} {ms : List Mark}
    {script : Script} {others : Alternatives} :
    Alternatives.Derives compiler source opener ms opener' script others →
      ∀ (place : Nat) (more : List Mark) (phrases : List Phrase),
      ms ++ more = marks source place phrases →
      ∃ inside after body branches, phrases = inside ++ after ∧
        more = marks source (place + phrasesWidth inside) after ∧
        Branches.Derives compiler source opener inside opener' body branches ∧
        script = body.script source place ∧ others = branches.script source (place + body.width)
  | .closed (d := d) hbody hreads hends, place, more, phrases, h => by
    rw [List.append_assoc, List.singleton_append] at h
    obtain ⟨before, after, rfl, hbefore, rfl, hmore⟩ := exists_of_marks_eq_append h
    obtain ⟨body, hderives, rfl⟩ := hbody.exists_body place [] before hbefore
    refine ⟨before ++ [.directive d], after, body, .closed d, by simp, ?_,
      .closed hderives hreads hends, rfl, rfl⟩
    rw [hmore, phrasesWidth_append, phrasesWidth_cons, phrasesWidth_nil, Nat.add_zero,
      Nat.add_assoc]
  | .branch (d := d) hbody hreads hcontinues hothers, place, more, phrases, h => by
    rw [List.append_assoc, List.cons_append] at h
    obtain ⟨before, after, rfl, hbefore, rfl, hmore⟩ := exists_of_marks_eq_append h
    obtain ⟨body, hderives, rfl⟩ := hbody.exists_body place [] before hbefore
    rw [Directive.width_of_goesOn hreads] at hmore
    obtain ⟨inside, after, body', branches, rfl, rfl, hinside, rfl, rfl⟩ :=
      hothers.exists_branches _ more after hmore
    refine ⟨before ++ .directive d :: inside, after, body, .branch d _ body' branches, by simp, ?_,
      .branch hderives hreads hcontinues hinside, rfl, ?_⟩
    · rw [phrasesWidth_append, phrasesWidth_cons, Directive.width_of_goesOn hreads]
      simp only [Nat.add_assoc]
    · rw [Branches.script, hderives.width_eq]

end

end TextTemplate
