import OufMcp.Cursor.Exhaustion
import OufMcp.Cursor.Fencing

/-!
# The pages a cursor rests on

A node keeps a position on one page of each owner.  The pages themselves, as they were
when the owner was first read through them, are recorded beside a run: those of a
capture when a session is opened, and a page that a call turns to when its response is
committed with a continuation.  A call that reads its pages again and finds the
continuations they were captured with goes on from the record.
-/

namespace OufMcp.Cursor

open Ledger (UUID Time)
open Relational Transition Interaction

variable {codec : Codec}

/-! ## The record -/

/-- The pages each owner of a node was read through, newest first. -/
abbrev Captures (codec : Codec) := UUID → Producer → List (CursorOwnerPage codec)

def Draft.lastPages (draft : Draft codec) : Producer → CursorOwnerPage codec :=
  match (mergeItems draft.node.frame.pageLimit ⟨draft.node.frame, draft.pages, 2, [], false⟩).run
      draft.answer with
  | .ok progress => progress.pages
  | .error _ => draft.pages

def CursorFrame.pageIndexOf (frame : CursorFrame) (name : Producer) : List Nat :=
  (frame.owners.filter fun owner => decide (owner.name = name)).map (·.pageIndex)

/-- The pages an owner was read through when a call ends: one more where the call turned a
page. -/
def Draft.captured (draft : Draft codec) (before : Producer → List (CursorOwnerPage codec))
    (name : Producer) : List (CursorOwnerPage codec) :=
  if draft.composed.frame.pageIndexOf name = draft.node.frame.pageIndexOf name then before name
  else draft.lastPages name :: before name

/-- A node that was created rests on the pages its call holds, or was left with. -/
def Captures.step (captures : Captures codec) (state next : Composers codec)
    (event : ComposerEvent) : Captures codec :=
  if next.created.length = state.created.length then captures
  else
    match state.calls event.call, next.calls event.call with
    | _, .holding work => Function.update captures work.node.token fun name => [work.pages name]
    | .ready draft _ _, .returned (.ok (_, some token)) =>
      Function.update captures token (draft.captured (captures draft.node.token))
    | _, _ => captures

def CursorOwnerPage.Flagged (page : CursorOwnerPage codec) : Prop :=
  page.truncated = decide (page.nextCursor ≠ "")

theorem callProducer_flagged {answer : OwnerRead → OwnerReply} {scopeSource : String}
    {query : OwnerQuery} {producer : Producer} {page : CursorOwnerPage codec}
    (ran : (callProducer codec scopeSource query producer).run answer = .ok page) :
    page.Flagged := by
  obtain ⟨_, body, now, -, decoded⟩ := callProducer_eq_ok ran
  have envelope := (decodeCursorOwnerPage_eq_ok decoded).2.2.1
  simp only [decodeCursorOwnerPage, bind_eq_ok, ensure_eq_ok, demand_eq_ok] at decoded
  obtain ⟨_, -, _, -, _, -, _, -, _, -, _, flag, -⟩ := decoded
  rw [CursorOwnerPage.Flagged, envelope]
  exact flag

theorem readPage_flagged {answer : OwnerRead → OwnerReply} {filters : Filters} {name : Producer}
    {token : String} {coverage : Bool} {page : CursorOwnerPage codec}
    (ran : (readPage codec filters name token coverage).run answer = .ok page) : page.Flagged := by
  obtain ⟨_, -, called⟩ := (Dialogue.run_bind_eq_ok answer).mp ran
  exact callProducer_flagged called

/-- A position keeps what it does of the page that was captured for it. -/
structure OwnerPosition.Saved (frame : CursorFrame) (saved : CursorOwnerPage codec)
    (position : OwnerPosition) : Prop where
  on : position.On saved
  covered : checkCoverage frame position.name saved = .ok ()
  flagged : saved.Flagged

theorem OwnerPosition.On.trans {position start : OwnerPosition}
    {page saved : CursorOwnerPage codec} (on : position.On page) (was : start.On page)
    (captured : start.On saved) : position.On saved where
  cursor := on.cursor.trans (was.cursor.symm.trans captured.cursor)
  snapshotRef := on.snapshotRef.trans (was.snapshotRef.symm.trans captured.snapshotRef)
  items := on.items.trans (was.items.symm.trans captured.items)
  ownerDigest := on.ownerDigest.trans (was.ownerDigest.symm.trans captured.ownerDigest)
  offset := by
    have same : page.items = saved.items :=
      congrArg Digest.content (was.items.symm.trans captured.items)
    exact same ▸ on.offset
  bookmark := on.bookmark.trans (was.bookmark.symm.trans captured.bookmark)
  parent := on.parent.trans (was.parent.symm.trans captured.parent)

/-! ## One call -/

/-- An owner of a merge is on the page the call began with, or on the one after it. -/
inductive OwnerPosition.Turned (work : Work codec) (calls : Nat) (page : CursorOwnerPage codec)
    (position : OwnerPosition) : Prop where
  | still {start : OwnerPosition} (member : start ∈ work.node.frame.owners)
      (name : start.name = position.name) (index : position.pageIndex = start.pageIndex)
      (same : page = work.pages position.name)
  | turned {start : OwnerPosition} (member : start ∈ work.node.frame.owners)
      (name : start.name = position.name) (index : position.pageIndex = start.pageIndex + 1)
      (read : 3 ≤ calls) (cursor : page.cursor = (work.pages position.name).nextCursor)
      (more : (work.pages position.name).nextCursor ≠ "")
      (covered : checkCoverage work.node.frame position.name page = .ok ())
      (flagged : page.Flagged)

theorem OwnerPosition.Turned.congr {work : Work codec} {calls : Nat}
    {page : CursorOwnerPage codec} {position other : OwnerPosition}
    (turned : position.Turned work calls page) (name : other.name = position.name)
    (index : other.pageIndex = position.pageIndex) : other.Turned work calls page := by
  cases turned with
  | still member named indexed same =>
    exact .still member (named.trans name.symm) (index.trans indexed) (name ▸ same)
  | turned member named indexed read cursor more covered flagged =>
    rw [← name] at cursor more covered
    exact .turned member (named.trans name.symm) (index.trans indexed) read cursor more covered
      flagged

theorem OwnerPosition.Turned.mono {work : Work codec} {calls later : Nat}
    {page : CursorOwnerPage codec} {position : OwnerPosition}
    (turned : position.Turned work calls page) (grown : calls ≤ later) :
    position.Turned work later page := by
  cases turned with
  | still member name index same => exact .still member name index same
  | turned member name index read cursor more covered flagged =>
    exact .turned member name index (read.trans grown) cursor more covered flagged

/-- Owners that are done have no continuation, as long as they had none when the call began. -/
def Work.Closed (work : Work codec) : Prop :=
  ∀ start ∈ work.node.frame.owners, start.done = true → (work.pages start.name).nextCursor = ""

structure Progress.Turned (work : Work codec) (progress : Progress codec) : Prop where
  agrees : progress.Agrees
  scope : progress.frame.scope = work.node.frame.scope
  calls : 2 ≤ progress.calls
  owners : ∀ position ∈ progress.frame.owners,
    position.Turned work progress.calls (progress.pages position.name)
  ended : work.Closed → ∀ position ∈ progress.frame.owners, position.done = true →
    (progress.pages position.name).nextCursor = ""

section Merge

variable {answer : OwnerRead → OwnerReply} {work : Work codec} {progress next : Progress codec}

theorem checkCoverage_congr {frame other : CursorFrame} (same : frame.scope = other.scope)
    (name : Producer) (page : CursorOwnerPage codec) :
    checkCoverage frame name page = checkCoverage other name page := by
  have inScope (frame : CursorFrame) :
      checkCoverage frame.scope name page = checkCoverage frame name page := rfl
  rw [← inScope frame, ← inScope other, same]

theorem Progress.Turned.step (turned : progress.Turned work)
    (step : MergeStep answer progress next) : next.Turned work := by
  have agrees := turned.agrees.step step
  have scope := step.scope.trans turned.scope
  have owners := turned.owners
  have ended := turned.ended
  cases step with
  | @finish left right position split exhausted last =>
    rw [split] at owners ended
    refine ⟨agrees, scope, turned.calls, ?_, fun closed => ?_⟩
    · exact forall_mem_replace owners (fun _ _ same => same)
        ((owners position (by simp)).congr rfl rfl)
    · exact forall_mem_replace (ended closed) (fun _ _ same => same) fun _ => last
  | @refill left right position page split exhausted more room read =>
    rw [split] at owners ended
    obtain ⟨ran, checked⟩ := refill_eq_ok read
    obtain ⟨covered, -, cursor, -⟩ := checkRefill_eq_ok checked
    have names := split ▸ turned.agrees.names
    have grown : progress.calls ≤ progress.calls + 1 := Nat.le_succ _
    refine ⟨agrees, scope, turned.calls.trans grown, ?_, fun closed => ?_⟩
    · refine forall_mem_replace owners (fun other member here => ?_) ?_
      · dsimp only
        rw [Function.update_of_ne (name_ne_of_mem names member)]
        exact here.mono grown
      · change (position.refilled page).Turned work (progress.calls + 1)
          (Function.update progress.pages position.name page position.name)
        rw [Function.update_self]
        -- The call has read twice, so the owner is still on the page it began with.
        cases owners position (by simp) with
        | turned _ _ _ three => exact absurd room (Nat.not_lt.mpr three)
        | still member name index same =>
          rw [same] at cursor more
          exact .turned member name (congrArg (· + 1) index)
            (Nat.succ_le_succ turned.calls) cursor more
            ((checkCoverage_congr turned.scope _ _).symm.trans covered) (readPage_flagged ran)
    · refine forall_mem_replace (ended closed) (fun other member here done => ?_) fun done => ?_
      · dsimp only
        rw [Function.update_of_ne (name_ne_of_mem names member)]
        exact here done
      · change (Function.update progress.pages position.name page position.name).nextCursor = ""
        rw [Function.update_self]
        by_contra left
        have empty : page.items = [] := List.isEmpty_iff.mp done
        have full := page.full left
        rw [empty] at full
        cases full
  | @take left right position item split known pending head least self =>
    rw [split] at owners ended
    refine ⟨agrees, scope, turned.calls, ?_, fun closed => ?_⟩
    · exact forall_mem_replace owners (fun _ _ same => same)
        ((owners position (by simp)).congr rfl rfl)
    · exact forall_mem_replace (ended closed) (fun _ _ same => same)
        (ended closed position (by simp))
  | takeSelf => exact ⟨agrees, scope, turned.calls, owners, ended⟩

theorem Progress.Turned.steps (turned : progress.Turned work)
    (steps : MergeSteps answer progress next) : next.Turned work := by
  induction steps with
  | refl => exact turned
  | tail _ step ih => exact ih.step step

end Merge

theorem compose_scope_eq {answer : OwnerRead → OwnerReply} {frame : CursorFrame}
    {pages : Producer → CursorOwnerPage codec} {composed : Composition}
    (run : (compose frame pages).run answer = .ok composed)
    (names : (frame.owners.map (·.name)).Nodup) : composed.frame.scope = frame.scope := by
  obtain ⟨final, steps, -, rfl⟩ := compose_steps run names
  exact steps.scope

section Draft

variable {draft : Draft codec}

/-- What a call leaves of each owner, on the page it ends with. -/
structure OwnerPosition.Left (draft : Draft codec) (position : OwnerPosition) : Prop where
  on : position.On (draft.lastPages position.name)
  turned : ∃ calls, position.Turned draft.toWork calls (draft.lastPages position.name)
  ended : draft.toWork.Closed → position.done = true →
    (draft.lastPages position.name).nextCursor = ""
  index : draft.composed.frame.pageIndexOf position.name = [position.pageIndex]

theorem pageIndexOf_of_mem {frame : CursorFrame} (names : (frame.owners.map (·.name)).Nodup)
    {position : OwnerPosition} (member : position ∈ frame.owners) :
    frame.pageIndexOf position.name = [position.pageIndex] := by
  rw [CursorFrame.pageIndexOf, filter_name names member, List.map_singleton]

theorem Draft.Sound.left (sound : draft.Sound)
    (names : (draft.node.frame.owners.map (·.name)).Nodup) :
    ∀ position ∈ draft.composed.frame.owners, position.Left draft := by
  obtain ⟨final, merged, done⟩ := (Dialogue.run_bind_eq_ok draft.answer).mp sound.composed
  have composed : draft.composed = final.finish := (Except.ok.inj done).symm
  have last : draft.lastPages = final.pages := by
    unfold Draft.lastPages
    rw [merged]
  obtain ⟨steps, -⟩ := mergeItems_steps merged names rfl
  have start : (⟨draft.node.frame, draft.pages, 2, [], false⟩ : Progress codec).Turned
      draft.toWork :=
    ⟨⟨names, sound.on⟩, rfl, le_rfl, fun position member => .still member rfl rfl rfl,
      fun closed => closed⟩
  have turned := start.steps steps
  have same : draft.composed.frame.owners.map (·.name) =
      draft.node.frame.owners.map (·.name) := by
    rw [← steps.names, composed]
    change (final.frame.owners.map _).map _ = _
    rw [List.map_map]
    refine List.map_congr_left fun position _ => ?_
    simp only [Function.comp, OwnerPosition.settle]
    split <;> rfl
  intro position member
  have index := pageIndexOf_of_mem (same ▸ names) member
  rw [composed] at member
  obtain ⟨before, there, rfl⟩ := List.mem_map.mp member
  have name : (before.settle (final.pages before.name)).name = before.name := by
    unfold OwnerPosition.settle
    split <;> rfl
  have on := turned.agrees.on before there
  refine ⟨?_, ⟨final.calls, ?_⟩, fun closed finished => ?_, index⟩
  · rw [last, name]
    unfold OwnerPosition.settle
    split
    next => exact ⟨on.cursor, on.snapshotRef, on.items, on.ownerDigest, on.offset, on.bookmark,
      on.parent⟩
    next => exact on
  · rw [last, name]
    exact (turned.owners before there).congr name (settle_pageIndex before _)
  · rw [last, name]
    unfold OwnerPosition.settle at finished
    split at finished
    next settled => exact settled.2
    next => exact turned.ended closed before there finished

/-- What is known of the pages a node rests on. -/
def CursorNode.SavedIn (node : CursorNode) (pages : Producer → List (CursorOwnerPage codec)) :
    Prop :=
  ∀ position ∈ node.frame.owners, ∃ saved earlier, pages position.name = saved :: earlier ∧
    position.Saved node.frame saved

/-- The pages were followed from the first to where the position is, and to the last one where
it is done. -/
structure OwnerPosition.Followed (pages : List (CursorOwnerPage codec))
    (position : OwnerPosition) : Prop where
  linked : pages.IsChain fun newer older =>
    older.nextCursor = newer.cursor ∧ older.nextCursor ≠ ""
  counted : pages.length = position.pageIndex + 1
  ended : position.done = true → ∀ last ∈ pages.head?, last.nextCursor = ""

/-- The pages of a call announce what they did when they were captured. -/
def Work.Faithful (captures : Captures codec) (work : Work codec) : Prop :=
  ∀ position ∈ work.node.frame.owners, ∀ saved ∈ (captures work.node.token position.name).head?,
    (work.pages position.name).nextCursor = saved.nextCursor

theorem Draft.saved_captured (sound : draft.Sound)
    (names : (draft.node.frame.owners.map (·.name)).Nodup)
    {pages : Producer → List (CursorOwnerPage codec)} (saves : draft.node.SavedIn pages)
    {position : OwnerPosition} (member : position ∈ draft.composed.frame.owners) :
    ∃ saved earlier, draft.captured pages position.name = saved :: earlier ∧
      position.Saved draft.composed.frame saved := by
  have covers (page : CursorOwnerPage codec) :=
    checkCoverage_congr (compose_scope_eq sound.composed names) position.name page
  obtain ⟨on, ⟨_, turned⟩, -, index⟩ := sound.left names position member
  unfold Draft.captured
  cases turned with
  | @still start there name same here =>
    obtain ⟨saved, earlier, pagesEq, kept⟩ := saves start there
    have before := pageIndexOf_of_mem names there
    rw [name] at before pagesEq
    rw [if_pos (by rw [index, before, same]), pagesEq]
    refine ⟨saved, earlier, rfl, ?_, ?_, kept.flagged⟩
    · rw [here] at on
      exact on.trans (name ▸ sound.on start there) kept.on
    · rw [covers, ← name]
      exact kept.covered
  | @turned start there name more _ _ _ covered flagged =>
    have before := pageIndexOf_of_mem names there
    rw [name] at before
    rw [if_neg (by simp [index, before, more])]
    exact ⟨_, _, rfl, on, (covers _).trans covered, flagged⟩

theorem Draft.followed_captured (sound : draft.Sound)
    (names : (draft.node.frame.owners.map (·.name)).Nodup) {captures : Captures codec}
    (saves : draft.node.SavedIn (captures draft.node.token))
    (followed : ∀ start ∈ draft.node.frame.owners,
      start.Followed (captures draft.node.token start.name))
    (faithful : draft.toWork.Faithful captures) {position : OwnerPosition}
    (member : position ∈ draft.composed.frame.owners) :
    position.Followed (draft.captured (captures draft.node.token) position.name) := by
  have closed : draft.toWork.Closed := by
    intro start there done
    obtain ⟨saved, earlier, pages, -⟩ := saves start there
    have head : saved ∈ (captures draft.node.token start.name).head? := by
      rw [pages]
      rfl
    exact (faithful start there saved head).trans ((followed start there).ended done saved head)
  obtain ⟨-, ⟨_, turned⟩, ended, index⟩ := sound.left names position member
  have ended := ended closed
  unfold Draft.captured
  cases turned with
  | @still start there name same here =>
    have before := pageIndexOf_of_mem names there
    have path := followed start there
    have announced := faithful start there
    rw [name] at before path announced
    rw [if_pos (by rw [index, before, same])]
    refine ⟨path.linked, path.counted.trans (congrArg (· + 1) same.symm), fun done last head => ?_⟩
    exact (announced last head).symm.trans (here ▸ ended done)
  | @turned start there name more _ cursor announced _ _ =>
    obtain ⟨saved, earlier, pages, -⟩ := saves start there
    have before := pageIndexOf_of_mem names there
    have path := followed start there
    have same := faithful start there saved (by rw [pages]; rfl)
    rw [name] at before path pages same
    rw [if_neg (by simp [index, before, more])]
    refine ⟨?_, ?_, fun done last head => ?_⟩
    · have linked := path.linked
      rw [pages] at linked ⊢
      exact .cons_cons ⟨same.symm.trans cursor.symm, same ▸ announced⟩ linked
    · rw [List.length_cons, path.counted, more]
    · obtain rfl := Option.some.inj head
      exact ended done

end Draft

/-! ## Runs -/

section Runs

variable {state next : Composers codec} {captures : Captures codec} {event : ComposerEvent}
  {call : Nat}

def Composers.delivered (state : Composers codec) (token : UUID) : Bool :=
  state.log.any fun delivery => decide (delivery.node.token = token)

theorem Composers.delivered_eq_true {token : UUID} :
    state.delivered token = true ↔ ∃ delivery ∈ state.log, delivery.node.token = token := by
  simp [Composers.delivered]

theorem Captures.step_same (created : next.created = state.created) :
    captures.step state next event = captures :=
  if_pos (congrArg List.length created)

theorem Captures.step_opens {work : Work codec} {blank : CursorFrame}
    {answer : OwnerRead → OwnerReply} {own : Option SelfReply} {fresh : CreateInputs}
    (opens : state.Opens event next work blank answer own fresh) :
    captures.step state next event =
      Function.update captures work.node.token fun name => [work.pages name] := by
  have longer : next.created.length ≠ state.created.length := by simp [opens.created]
  rw [Captures.step, if_neg longer, opens.calls, Function.update_self]

section Commits

variable {delivery : Delivery codec} {locked : Bool} {committedAt : Time} {candidate : UUID}

theorem Captures.step_commits {node : CursorNode}
    (commits : state.Commits next call delivery locked committedAt candidate)
    (created : next.created = node :: state.created) (leads : delivery.next = some node.token) :
    captures.step state next (.commit call locked committedAt candidate) =
      Function.update captures node.token
        (delivery.toDraft.captured (captures delivery.node.token)) := by
  have longer : next.created.length ≠ state.created.length := by simp [created]
  rw [Captures.step, if_neg longer, ComposerEvent.call, commits.calls, Function.update_self,
    commits.before, leads]

/-- A commit creates no node, or the continuation of a node that had no committed page. -/
theorem Composers.Kept.commits_cases (kept : state.Kept) (stored : state.stored.Sound)
    (commits : state.Commits next call delivery locked committedAt candidate) :
    next.created = state.created ∨ ∃ new, next.created = new :: state.created ∧
      delivery.next = some new.token ∧ delivery.continuation = some new.frame ∧
      new.token ∉ state.stored.issued ∧ state.delivered delivery.node.token = false := by
  have committed := kept.committed stored commits
  have created := commits.created
  rcases Composers.opened_eq delivery.node candidate delivery.continuation delivery.next with
    none | ⟨new, one, -⟩
  · rw [none] at created
    exact .inl created
  · rw [one] at created committed
    obtain ⟨leads, continued, -, fresh, -⟩ := committed.opened new List.mem_cons_self
    refine .inr ⟨new, created, leads, continued, fresh, ?_⟩
    obtain ⟨row, found, pending | ⟨-, -, none⟩⟩ := committed.before
    · refine Bool.eq_false_iff.mpr fun delivered => ?_
      obtain ⟨earlier, logged, same⟩ := Composers.delivered_eq_true.mp delivered
      cases pending.symm.trans (kept.stored earlier logged row (same ▸ found)).1
    · cases none

end Commits

theorem capture_flagged {blank captured : CursorFrame} {self : Option SelfReply}
    {pages : Producer → CursorOwnerPage codec} {answer : OwnerRead → OwnerReply}
    (ran : (capture codec blank self).run answer = .ok (captured, pages)) (name : Producer) :
    (pages name).Flagged := by
  obtain ⟨-, status, gateway, ingestion, -, rfl, -, first, second⟩ := capture_eq_ok ran
  have flagged {name : Producer} {page : CursorOwnerPage codec}
      (read : (captureOwner blank name).run answer = .ok page) : page.Flagged := by
    simp only [captureOwner, Dialogue.run_bind_eq_ok] at read
    obtain ⟨_, called, _, -, done⟩ := read
    cases done
    exact callProducer_flagged called
  cases name
  · exact flagged first
  · exact flagged second

/-- Every node rests on pages that were captured for it. -/
def Saves (state : Composers codec) (captures : Captures codec) : Prop :=
  ∀ node ∈ state.created, node.SavedIn (captures node.token)

theorem Saves.enters (saves : Saves state captures) (created : next.created = state.created) :
    Saves next (captures.step state next event) := by
  rw [Captures.step_same created, Saves, created]
  exact saves

theorem Saves.cons (saves : Saves state captures) (kept : state.Kept) {node : CursorNode}
    (unused : node.token ∉ state.stored.issued)
    (created : next.created = node :: state.created)
    {pages : Producer → List (CursorOwnerPage codec)} (here : node.SavedIn pages) :
    Saves next (Function.update captures node.token pages) := by
  rw [Saves, created]
  intro other member
  rcases List.mem_cons.mp member with rfl | old
  · rwa [Function.update_self]
  · have apart : other.token ≠ node.token := fun same =>
      unused (same ▸ (kept.issued other old).1)
    rw [Function.update_of_ne apart]
    exact saves other old

theorem Draft.Sound.savedIn {draft : Draft codec} {page : CursorPage} {node : CursorNode}
    (sound : draft.Sound) (sealing : draft.Sealed page (some node.frame))
    (names : (draft.node.frame.owners.map (·.name)).Nodup)
    {pages : Producer → List (CursorOwnerPage codec)} (saves : draft.node.SavedIn pages) :
    node.SavedIn (draft.captured pages) := by
  have frame := sealing.continuation_eq.2
  intro position member
  rw [frame] at member
  obtain ⟨saved, earlier, pagesEq, on, covered, flagged⟩ :=
    draft.saved_captured sound names saves member
  refine ⟨saved, earlier, pagesEq, on, ?_, flagged⟩
  rw [frame]
  exact covered

theorem Saves.step (saves : Saves state captures) (kept : state.Kept)
    (stored : state.stored.Sound) (outcome : state.Outcome event next) :
    Saves next (captures.step state next event) := by
  cases outcome with
  | fails enters | resumes _ _ _ enters | loads _ _ _ enters | readsBack _ _ enters
  | composes _ _ enters | seals _ _ _ _ enters => exact saves.enters enters.created
  | @opens _ _ work _ _ _ _ opens =>
    have sound : work.Sound := capture_sound opens.ran rfl
    rw [Captures.step_opens opens]
    refine saves.cons kept opens.unused.1 opens.created fun position member => ?_
    exact ⟨_, [], rfl, sound.on position member, sound.covered position member,
      capture_flagged opens.ran _⟩
  | commits commits =>
    obtain ⟨member, names, sound, sealing⟩ := kept.ready commits.before
    rcases kept.commits_cases stored commits with same |
      ⟨new, created, leads, continued, fresh, -⟩
    · exact saves.enters same
    · rw [Captures.step_commits commits created leads]
      exact saves.cons kept fresh created
        (sound.savedIn (continued ▸ sealing) names (saves _ member))

end Runs

end OufMcp.Cursor
