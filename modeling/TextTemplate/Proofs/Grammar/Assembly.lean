import TextTemplate.Proofs.Grammar.Arena
import TextTemplate.Proofs.Grammar.Derivation
import TextTemplate.Template.Assembly

/-!
# Putting nodes together follows the grammar

A template is put together from the pieces of its source, but it might as well be from its
phrases, with nothing held back between them. The nodes put together from the phrases of a body
are those of its tree, behind the nodes that were there before.

## Main definitions

* `Assembly.addPhrase`: one more phrase.
* `OpenBlock.Shows`: what an open block does with its current body, by its nodes.

## Main results

* `Assembly.flush_foldlM_add`: to take the pieces of a source is to take its phrases.
* `Assembly.foldlM_of_derives`: the nodes of a body.
-/

namespace TextTemplate

open Attempt

namespace Assembly

/-- Nothing is held back. -/
def settled (arena : Arena) (opens : List OpenBlock) : Assembly :=
  ⟨arena, opens, [], []⟩

@[simp] theorem arena_settled (arena : Arena) (opens : List OpenBlock) :
    (settled arena opens).arena = arena := rfl

@[simp] theorem opens_settled (arena : Arena) (opens : List OpenBlock) :
    (settled arena opens).opens = opens := rfl

@[simp] theorem flush_settled (arena : Arena) (opens : List OpenBlock) :
    (settled arena opens).flush = settled arena opens := rfl

variable (compiler : Compiler) (source : String)

/-- What a directive with this role does. -/
def follow (a : Assembly) (d : Directive) : Role → Except CompileError Assembly
  | .opens opener => .ok (a.openBlock d opener)
  | .standsAlone .comment => .ok (a.addComment d)
  | .standsAlone action => .ok (a.addAction d action)
  | .goesOn => a.addBranch compiler source d
  | .ends => a.closeBlock compiler source d

/-- One more phrase, when nothing is held back. -/
def addPhrase (a : Assembly) : Phrase → Except CompileError Assembly
  | .text spans => .ok (a.append (textNode spans))
  | .directive d => a.add compiler source (.directive d)

variable {compiler source} {d : Directive}

theorem add_directive (a : Assembly) : a.add compiler source (.directive d) =
    d.role compiler source >>= a.follow compiler source d := by
  rw [add]
  congr

/-! ### Phrases instead of pieces -/

/-- Every directive first puts what is held back among the nodes; only a comment inside a text does
not. -/
theorem follow_flush {a : Assembly} {role : Role} (h : a.pending = [] → a.deferred = [])
    (hrole : role = .standsAlone .comment → a.pending = []) :
    a.flush.follow compiler source d role = a.follow compiler source d role := by
  cases role with
  | opens opener => rfl
  | standsAlone action =>
    cases action with
    | comment =>
      obtain ⟨arena, opens, pending, deferred⟩ := a
      obtain rfl : pending = [] := hrole rfl
      obtain rfl : deferred = [] := h rfl
      rfl
    | _ => rfl
  | goesOn => rfl
  | ends => rfl

/-- And it leaves nothing held back. -/
theorem eq_settled_of_follow {a a' : Assembly} {role : Role}
    (h : a.pending = [] → a.deferred = []) (hrole : role = .standsAlone .comment → a.pending = [])
    (ha : a.follow compiler source d role = .ok a') : a' = settled a'.arena a'.opens := by
  cases role with
  | opens opener =>
    cases ha
    rfl
  | standsAlone action =>
    cases action with
    | comment =>
      obtain ⟨arena, opens, pending, deferred⟩ := a
      obtain rfl : pending = [] := hrole rfl
      obtain rfl : deferred = [] := h rfl
      cases ha
      rfl
    | _ =>
      cases ha
      rfl
  | goesOn =>
    simp only [follow, addBranch] at ha
    split at ha
    · cases ha
    · split at ha
      · obtain ⟨_, _, ha⟩ := bind_eq_ok_iff.1 ha
        rw [← pure_eq_ok_iff.1 ha]
        rfl
      · cases ha
  | ends =>
    simp only [follow, closeBlock] at ha
    split at ha
    · cases ha
    · obtain ⟨_, _, ha⟩ := bind_eq_ok_iff.1 ha
      rw [← pure_eq_ok_iff.1 ha]
      rfl

/-- A comment when nothing is held back. -/
theorem addPhrase_comment (h : d.name = "comment") (arena : Arena) (opens : List OpenBlock) :
    addPhrase compiler source (settled arena opens) (.directive d) =
      .ok (settled (arena.append (d.node (.action .comment))) opens) := by
  rw [addPhrase, add_directive, Directive.role_of_comment h]
  rfl

private theorem foldlM_comments {comments : List Directive} (h : ∀ d ∈ comments, d.name = "comment")
    (arena : Arena) (opens : List OpenBlock) :
    (comments.map Phrase.directive).foldlM (addPhrase compiler source) (settled arena opens) =
      .ok (settled (arena.appendComments comments) opens) := by
  induction comments generalizing arena with
  | nil => rfl
  | cons d comments ih =>
    obtain ⟨hd, hcomments⟩ := List.forall_mem_cons.1 h
    rw [List.map_cons, List.foldlM_cons, addPhrase_comment hd, ok_bind, ih hcomments]
    rfl

/-- What is held back is taken phrase by phrase. -/
theorem foldlM_heldBack {a : Assembly} (h : ∀ d ∈ a.deferred, d.name = "comment") :
    (heldBack a.pending a.deferred).foldlM (addPhrase compiler source) (settled a.arena a.opens) =
      .ok a.flush := by
  have hcomments : ∀ d ∈ a.deferred.reverse, d.name = "comment" := by simpa using h
  rw [heldBack, List.foldlM_append]
  by_cases hpending : a.pending = []
  · rw [if_pos hpending]
    refine (foldlM_comments hcomments _ _).trans ?_
    simp [flush, hpending, settled, Arena.appendText]
  · rw [if_neg hpending]
    refine (foldlM_comments hcomments _ _).trans ?_
    simp [flush, hpending, settled, Arena.appendText]

/-- To take the pieces of a source is to take its phrases. -/
theorem flush_foldlM_add (pieces : List Piece) {a : Assembly}
    (hcomments : ∀ d ∈ a.deferred, d.name = "comment") (h : a.pending = [] → a.deferred = []) :
    flush <$> pieces.foldlM (add compiler source) a =
      (joinTexts a.pending a.deferred pieces).foldlM (addPhrase compiler source)
        (settled a.arena a.opens) := by
  induction pieces generalizing a with
  | nil => exact (foldlM_heldBack hcomments).symm
  | cons piece pieces ih =>
    cases piece with
    | text span => exact ih (a := { a with pending := span :: a.pending }) hcomments nofun
    | directive d =>
      rw [joinTexts]
      split_ifs with hcomment
      · rw [List.foldlM_cons, add_directive, Directive.role_of_comment hcomment.1]
        have hadd : a.addComment d = { a with deferred := d :: a.deferred } := by
          rw [addComment, if_neg (by simpa using hcomment.2)]
        rw [← ih (a := { a with deferred := d :: a.deferred })
          (List.forall_mem_cons.2 ⟨hcomment.1, hcomments⟩) (fun h => absurd h hcomment.2), ← hadd]
        rfl
      · have hpending : ∀ role, d.role compiler source = .ok role →
            role = .standsAlone .comment → a.pending = [] := by
          rintro role hrole rfl
          have := Directive.name_of_reads_comment (Directive.role_eq_ok_iff.1 hrole)
          by_contra hne
          exact hcomment ⟨this, hne⟩
        rw [List.foldlM_append, foldlM_heldBack hcomments]
        change _ = a.flush.add compiler source (.directive d) >>= _
        rw [List.foldlM_cons, add_directive, add_directive]
        cases hrole : d.role compiler source with
        | error e => rfl
        | ok role =>
          change flush <$> (a.follow compiler source d role >>= _) =
            a.flush.follow compiler source d role >>= _
          rw [follow_flush h (hpending role hrole)]
          cases ha : a.follow compiler source d role with
          | error e => rfl
          | ok a' =>
            have hsettled := eq_settled_of_follow h (hpending role hrole) ha
            have hdeferred : a'.deferred = [] := by rw [hsettled, settled]
            have hpending : a'.pending = [] := by rw [hsettled, settled]
            have := ih (a := a') (by simp [hdeferred]) fun _ => hdeferred
            rw [hdeferred, hpending, ← hsettled] at this
            exact this

/-! ### What the directives of the grammar add -/

section Steps

variable {arena : Arena} {opens : List OpenBlock}

private theorem addPhrase_of_reads {role : Role} (h : d.Reads compiler source role) :
    addPhrase compiler source (settled arena opens) (.directive d) =
      (settled arena opens).follow compiler source d role := by
  rw [addPhrase, add_directive, Directive.role_eq_ok_iff.2 h]
  rfl

@[simp] theorem addPhrase_text {spans : List Span} :
    addPhrase compiler source (settled arena opens) (.text spans) =
      .ok (settled (arena.append (textNode spans)) opens) := rfl

private theorem addPhrase_action {action : Action}
    (h : d.Reads compiler source (.standsAlone action)) :
    addPhrase compiler source (settled arena opens) (.directive d) =
      .ok (settled (arena.append (d.node (.action action))) opens) := by
  rw [addPhrase_of_reads h]
  cases action <;> rfl

theorem addPhrase_opens {opener : Opener} (h : d.Reads compiler source (.opens opener)) :
    addPhrase compiler source (settled arena opens) (.directive d) =
      .ok (settled (arena.append (d.opening opener)) (⟨d, arena.size, []⟩ :: opens)) :=
  addPhrase_of_reads h

theorem addPhrase_goesOn {block : OpenBlock} {condition : Slot} {next : Option Slot}
    (h : d.Reads compiler source .goesOn)
    (hcurrent : arena.opener? block.current = some (.conditional (some condition)))
    (hnext : d.Continues compiler source next) :
    addPhrase compiler source (settled arena (block :: opens)) (.directive d) =
      .ok (settled (arena.openBranch block.current d next)
        (⟨block.first, arena.size + 1, block.branches⟩ :: opens)) := by
  rw [addPhrase_of_reads h, follow, addBranch, flush_settled]
  simp only [opens_settled, arena_settled, hcurrent, Directive.branchCondition_eq_ok_iff.2 hnext]
  rfl

private theorem addPhrase_ends {block : OpenBlock} {arena' : Arena}
    (h : d.Reads compiler source .ends)
    (hend : endOpener compiler source (arena.closeBody block.current d) block.opening d =
      .ok arena') :
    addPhrase compiler source (settled arena (block :: opens)) (.directive d) =
      .ok (settled (block.branches.foldl (·.setTerminus arena.size ·) arena') opens) := by
  rw [addPhrase_of_reads h, follow, closeBlock, flush_settled]
  simp only [opens_settled, arena_settled, hend]
  rfl

end Steps

end Assembly

/-! ### Open blocks -/

namespace OpenBlock

variable {arena : Arena} {block : OpenBlock} {opener : Opener}

/-- The opener of the current branch of an open block, by the nodes. When there have been branches
before, it is that of a conditional, as is that of the block. -/
structure Shows (arena : Arena) (block : OpenBlock) (opener : Opener) : Prop where
  current : arena.opener? block.current = some opener
  opening : block.earlier = [] ∨ (∃ condition, opener = .conditional condition) ∧
    ∃ condition, arena.opener? block.opening = some (.conditional condition)

/-- Openers do not change while other nodes are put together. -/
theorem Shows.mono {arena' : Arena} (h : block.Shows arena opener)
    (harena : ∀ place opener, arena.opener? place = some opener →
      arena'.opener? place = some opener) : block.Shows arena' opener :=
  ⟨harena _ _ h.current, h.opening.imp_right fun ⟨hopener, condition, hopening⟩ =>
    ⟨hopener, condition, harena _ _ hopening⟩⟩

theorem Shows.of_linked {arena' : Arena} (h : block.Shows arena opener)
    (harena : arena.linked <+: arena'.linked) : block.Shows arena' opener :=
  h.mono fun _ _ => Arena.opener?_of_linked harena

theorem Shows.closeBody (h : block.Shows arena opener) (d : Directive) :
    block.Shows (arena.closeBody block.current d) opener :=
  h.mono fun _ _ => Arena.opener?_closeBody _ _

/-- A block with another branch. -/
theorem Shows.openBranch {condition : Slot} (h : block.Shows arena (.conditional (some condition)))
    (d : Directive) (next : Option Slot) :
    Shows (arena.openBranch block.current d next) ⟨block.first, arena.size + 1, block.branches⟩
      (.conditional next) := by
  refine ⟨Arena.opener?_openBranch_opening .., .inr ⟨⟨next, rfl⟩, ?_⟩⟩
  have hopening : OpenBlock.opening ⟨block.first, arena.size + 1, block.branches⟩ =
      block.opening := by
    simp [OpenBlock.opening, branches, List.getLast?_cons]
  rw [hopening]
  obtain hearlier | ⟨-, condition', hopening⟩ := h.opening
  · have hopening : block.opening = block.current := by rw [OpenBlock.opening, hearlier]; rfl
    exact ⟨_, hopening ▸ Arena.opener?_openBranch _ _ _ h.current⟩
  · exact ⟨_, Arena.opener?_openBranch _ _ _ hopening⟩

/-- The end of a block makes of its opener what it makes of that of its current branch. -/
theorem Shows.endOpener_eq (h : block.Shows arena opener) (compiler : Compiler) (source : String)
    (d : Directive) :
    Assembly.endOpener compiler source arena block.opening d =
      (fun opener' => arena.modifyKind block.current (.withOpener opener')) <$>
        d.ending compiler source opener := by
  obtain hearlier | ⟨⟨condition, rfl⟩, condition', hopening⟩ := h.opening
  · have hopening : block.opening = block.current := by rw [OpenBlock.opening, hearlier]; rfl
    rw [Assembly.endOpener, hopening, h.current]
  · have hself := Arena.modifyKind_withOpener_eq_self hopening
    have hself' := Arena.modifyKind_withOpener_eq_self h.current
    simp only [Assembly.endOpener, hopening, Directive.ending, Functor.map, Except.map, hself,
      hself']

end OpenBlock

namespace Assembly

variable {compiler : Compiler} {source : String}

/-! ### The nodes of a body -/

/-- The end of a block, when the current branch is all there is behind the nodes `xs`. -/
theorem exists_addPhrase_ends {arena : Arena} {xs : List Node} {d e first : Directive}
    {opener opener' : Opener} {body : Body} {earlier : List Nat} (opens : List OpenBlock)
    (hlinked : arena.linked = xs ++
      (d.opening opener).followedBy (xs.length + 1) :: body.layout (xs.length + 1))
    (hearlier : ∀ place ∈ earlier, place < xs.length)
    (hshows : OpenBlock.Shows arena ⟨first, xs.length, earlier⟩ opener)
    (hreads : e.Reads compiler source .ends) (hends : e.Ends compiler source opener opener') :
    ∃ arena', addPhrase compiler source (settled arena (⟨first, xs.length, earlier⟩ :: opens))
        (.directive e) = .ok (settled arena' opens) ∧
      let after := xs.length + 1 + body.width
      arena'.linked = Arena.endAt after earlier xs ++
        blockNode d opener' body (.closed e) (xs.length + 1) after after ::
        (body.layout (xs.length + 1) ++ [(e.node .terminal).followedBy (after + 1)]) := by
  have hend := (hshows.closeBody e).endOpener_eq compiler source e
  rw [Directive.ending_eq_ok_iff.2 hends] at hend
  have hsize : arena.size = xs.length + 1 + body.width := by
    rw [← Arena.length_linked, hlinked]
    simp
    omega
  refine ⟨_, addPhrase_ends hreads hend, ?_⟩
  rw [Arena.linked_foldl_setTerminus, Arena.linked_modifyKind, Arena.linked_closeBody hlinked,
    modify_append_cons, OpenBlock.branches, Arena.endAt_cons hearlier, hsize]
  rfl

mutual

/-- The nodes of a body come behind those that were there before. -/
theorem foldlM_of_derives {phrases : List Phrase} {body : Body} :
    body.Derives compiler source phrases → ∀ (arena : Arena) (opens : List OpenBlock),
      ∃ arena', phrases.foldlM (addPhrase compiler source) (settled arena opens) =
          .ok (settled arena' opens) ∧
        arena'.linked = arena.linked ++ body.layout arena.size
  | .done, arena, _ => ⟨arena, rfl, by simp [Body.layout]⟩
  | .text hrest, arena, opens => by
    obtain ⟨arena', hrun, hlinked⟩ := foldlM_of_derives hrest (arena.append (textNode _)) opens
    refine ⟨arena', by rw [List.foldlM_cons, addPhrase_text, ok_bind, hrun], ?_⟩
    simp [hlinked, Body.layout]
  | .action hreads hrest, arena, opens => by
    obtain ⟨arena', hrun, hlinked⟩ :=
      foldlM_of_derives hrest (arena.append (Directive.node _ (.action _))) opens
    refine ⟨arena', by rw [List.foldlM_cons, addPhrase_action hreads, ok_bind, hrun], ?_⟩
    simp [hlinked, Body.layout]
  | @Body.Derives.block _ _ d opener _ _ _ _ _ _ hreads hblock hrest, arena, opens => by
    have hcurrent : (arena.append (d.opening opener)).opener? arena.linked.length =
        some opener := by
      simp
    obtain ⟨arena₁, hrun₁, hlinked₁⟩ := foldlM_of_branches hblock d [] opens (d := d) (by simp)
      (by simp) ⟨hcurrent, .inl rfl⟩
    obtain ⟨arena', hrun, hlinked⟩ := foldlM_of_derives hrest arena₁ opens
    refine ⟨arena', ?_, ?_⟩
    · rw [List.foldlM_cons, addPhrase_opens hreads, ok_bind, List.foldlM_append,
        ← Arena.length_linked, hrun₁, ok_bind, hrun]
    · rw [hlinked, ← Arena.length_linked arena₁, hlinked₁]
      simp only [Arena.endAt, List.foldl_nil, Arena.length_linked, List.length_append,
        List.length_cons, Body.length_layout, Branches.length_layout, Body.layout,
        List.append_assoc, List.cons_append]
      congr 5
      omega

/-- So do the nodes of the rest of a block behind that of its current branch; and the nodes of the
branches before it are linked to the end. -/
theorem foldlM_of_branches {phrases : List Phrase} {opener opener' : Opener} {body : Body}
    {branches : Branches} :
    Branches.Derives compiler source opener phrases opener' body branches →
    ∀ (first : Directive) (earlier : List Nat) (opens : List OpenBlock) {arena : Arena}
      {d : Directive} {xs : List Node},
      arena.linked = xs ++ [(d.opening opener).followedBy (xs.length + 1)] →
      (∀ place ∈ earlier, place < xs.length) →
      OpenBlock.Shows arena ⟨first, xs.length, earlier⟩ opener →
      ∃ arena', phrases.foldlM (addPhrase compiler source)
            (settled arena (⟨first, xs.length, earlier⟩ :: opens)) = .ok (settled arena' opens) ∧
        let after := xs.length + 1 + body.width
        let terminus := after + branches.width
        arena'.linked = Arena.endAt terminus earlier xs ++
          blockNode d opener' body branches (xs.length + 1) after terminus ::
          (body.layout (xs.length + 1) ++ branches.layout terminus after)
  | .closed hinside hreads hends,
      first, earlier, opens, arena, d, xs, hlinked, hearlier, hshows => by
    obtain ⟨arena₁, hrun₁, hlinked₁⟩ :=
      foldlM_of_derives hinside arena (⟨first, xs.length, earlier⟩ :: opens)
    have hshows₁ := hshows.of_linked ⟨_, hlinked₁.symm⟩
    have hsize : arena.size = xs.length + 1 := by simp [← Arena.length_linked, hlinked]
    rw [hlinked, hsize, List.append_assoc, List.singleton_append] at hlinked₁
    obtain ⟨arena', hrun, hlinked'⟩ :=
      exists_addPhrase_ends opens hlinked₁ hearlier hshows₁ hreads hends
    refine ⟨arena', ?_, hlinked'⟩
    rw [List.foldlM_append, hrun₁, ok_bind, List.foldlM_cons, hrun]
    rfl
  | @Branches.Derives.branch _ _ e _ next _ _ _ body' more hinside hreads hcontinues hmore,
      first, earlier, opens, arena, d, xs, hlinked, hearlier, hshows => by
    obtain ⟨arena₁, hrun₁, hlinked₁⟩ :=
      foldlM_of_derives hinside arena (⟨first, xs.length, earlier⟩ :: opens)
    have hshows₁ := hshows.of_linked ⟨_, hlinked₁.symm⟩
    have hsize : arena.size = xs.length + 1 := by simp [← Arena.length_linked, hlinked]
    rw [hlinked, hsize, List.append_assoc, List.singleton_append] at hlinked₁
    have hsize₁ : arena₁.size = xs.length + 1 + body.width := by
      rw [← Arena.length_linked, hlinked₁]
      simp
      omega
    have hopened := Arena.linked_openBranch hlinked₁ e next
    have hshows₂ := hshows₁.openBranch e next
    -- The nodes up to the one of the branch that opens here.
    generalize hys : xs ++ Node.followedBy _ _ :: _ = ys at hopened
    have hlength : ys.length = arena₁.size + 1 := by
      rw [← hys, hsize₁]
      simp
      omega
    rw [← hlength] at hshows₂
    have hplaces : ∀ place ∈ xs.length :: earlier, place < ys.length :=
      List.forall_mem_cons.2 ⟨by omega, fun place h => by have := hearlier place h; omega⟩
    obtain ⟨arena', hrun, hlinked'⟩ := foldlM_of_branches hmore first _ opens
      (hopened.trans (by rw [hlength, hsize₁])) hplaces hshows₂
    refine ⟨arena', ?_, ?_⟩
    · rw [List.foldlM_append, hrun₁, ok_bind, List.foldlM_cons,
        addPhrase_goesOn hreads hshows₁.current hcontinues, ok_bind, ← hlength]
      exact hrun
    · have hafter : ys.length + 1 = xs.length + 1 + body.width + 2 := by omega
      have hterminus : xs.length + 1 + body.width + 2 + body'.width + more.width =
          xs.length + 1 + body.width + (2 + body'.width + more.width) := by omega
      rw [hlinked', ← hys, Arena.endAt_cons hearlier, hys]
      simp only [Branches.layout, Branches.width, hafter, hterminus, List.append_assoc,
        List.cons_append]
      rfl

end

end Assembly

end TextTemplate
