import OufMcp.Cursor.Replay

/-!
# The order of a chain

Whatever the owners answer, no page of a chain has an incident that goes before
one the chain returned earlier.  A frame carries this from one page to the next:
nothing an open owner still has goes before what was returned, and neither does
the last incident of its page, which is what a refill is checked against.
-/

namespace OufMcp.Cursor

open Ledger (UUID Time)
open Relational Transition Interaction

variable {codec : Codec}

/-! ## Chains of pages -/

structure Composers.Chain (state : Composers codec) (deliveries : List (Delivery codec)) :
    Prop where
  logged : ∀ delivery ∈ deliveries, delivery ∈ state.log
  linked : deliveries.IsChain fun first second => first.next = some second.node.token

/-- Responses that follow each other through their continuations. -/
structure Composers.Responses (state : Composers codec)
    (bodies : List (CursorPage × Option UUID)) : Prop where
  returned : ∀ body ∈ bodies, ∃ call, (state.calls call).response? = some body
  linked : bodies.IsChain fun first second => first.2 = some second.1.cursor

theorem Composers.Responses.chain {guard : Composers codec → ComposerEvent → Prop}
    {state : Composers codec} (reached : (composerSystem codec).Reachable guard state)
    {bodies : List (CursorPage × Option UUID)} (responses : state.Responses bodies) :
    ∃ deliveries, state.Chain deliveries ∧
      deliveries.map (fun delivery => (delivery.page, delivery.next)) = bodies := by
  have kept := kept_of_reachable reached
  have found : ∃ deliveries : List (Delivery codec), (∀ delivery ∈ deliveries,
      delivery ∈ state.log) ∧
      deliveries.map (fun delivery => (delivery.page, delivery.next)) = bodies := by
    obtain ⟨returned, -⟩ := responses
    induction bodies with
    | nil => exact ⟨[], by simp, rfl⟩
    | cons body rest ih =>
      obtain ⟨call, here⟩ := returned body List.mem_cons_self
      obtain ⟨delivery, logged, same⟩ := response_delivered reached here
      obtain ⟨others, also, eq⟩ := ih fun body member => returned body (.tail _ member)
      exact ⟨delivery :: others, by simpa using ⟨logged, also⟩, by rw [List.map_cons, same, eq]⟩
  obtain ⟨deliveries, logged, rfl⟩ := found
  refine ⟨deliveries, ⟨logged, ?_⟩, rfl⟩
  refine ((List.isChain_map _).mp responses.linked).imp_of_mem_imp fun first second _ member => ?_
  rw [kept.cursor_eq (logged second member)]
  exact id

/-- What every page hands on to its continuation holds at the last page of a chain. -/
theorem Composers.Kept.chain_induction {state : Composers codec} (kept : state.Kept)
    {I : List Item → CursorFrame → Prop}
    (page : ∀ delivery ∈ state.log, ∀ frame, delivery.continuation = some frame → ∀ earlier,
      I earlier delivery.node.frame → I (earlier ++ delivery.page.items) frame)
    {first : Delivery codec} {rest : List (Delivery codec)} (chain : state.Chain (first :: rest))
    {earlier : List Item} (start : I earlier first.node.frame) :
    I (earlier ++ (first :: rest).dropLast.flatMap (·.page.items))
      ((first :: rest).getLast (List.cons_ne_nil _ _)).node.frame := by
  induction rest generalizing first earlier with
  | nil => simpa using start
  | cons second rest ih =>
    obtain ⟨next, linked⟩ := List.isChain_cons_cons.mp chain.linked
    have logged := chain.logged first List.mem_cons_self
    have created := (kept.delivered second (chain.logged second (by simp))).2.1
    have begun := page first logged _ (kept.continues logged created next).1 earlier start
    have done := ih ⟨fun delivery member => chain.logged delivery (.tail _ member), linked⟩ begun
    simpa using done

/-! ## What is still to come -/

variable (codec) in
/-- The incident goes before none of those that were returned. -/
def After (earlier : List Item) (item : Item) : Prop :=
  ∀ returned ∈ earlier, incidentBefore codec.parseTime item returned = false

theorem after_append_singleton {earlier : List Item} {last item : Item} :
    After codec (earlier ++ [last]) item ↔
      After codec earlier item ∧ incidentBefore codec.parseTime item last = false := by
  simp [After, or_imp, forall_and]

theorem After.trans {earlier : List Item} {first second : Item} (after : After codec earlier first)
    (ordered : incidentBefore codec.parseTime second first = false) :
    After codec earlier second :=
  fun returned member => not_incidentBefore_trans (after returned member) ordered

theorem After.pairwise {earlier : List Item} {item : Item} (after : After codec earlier item)
    (sorted : earlier.Pairwise fun first second =>
      incidentBefore codec.parseTime second first = false) :
    (earlier ++ [item]).Pairwise fun first second =>
      incidentBefore codec.parseTime second first = false :=
  List.pairwise_append.mpr ⟨sorted, List.pairwise_singleton _ _, fun first member _ last =>
    List.mem_singleton.mp last ▸ after first member⟩

/-- Nothing that is left goes before what was returned. -/
structure Ordered (codec : Codec) (earlier : List Item) (frame : CursorFrame) : Prop where
  sorted : earlier.Pairwise fun first second => incidentBefore codec.parseTime second first = false
  owners : ∀ position ∈ frame.owners, position.done = false → ∀ item,
    item ∈ position.itemsDigest.content.drop position.offset ∨
      position.itemsDigest.content.getLast? = some item → After codec earlier item
  self : ∀ item, selfCursorIncident frame = some item → After codec earlier item

theorem CursorOwnerPage.pairwise (page : CursorOwnerPage codec) :
    page.items.Pairwise fun first second =>
      incidentBefore codec.parseTime second first = false := by
  have : IsTrans Item fun first second => incidentBefore codec.parseTime second first = false :=
    ⟨fun _ _ _ => not_incidentBefore_trans⟩
  exact page.sorted.pairwise

theorem CursorOwnerPage.left_after_head (page : CursorOwnerPage codec) {offset : Nat}
    {head item : Item} (first : page.items[offset]? = some head)
    (left : item ∈ page.items.drop offset ∨ page.items.getLast? = some item) :
    incidentBefore codec.parseTime item head = false := by
  obtain ⟨bound, rfl⟩ := List.getElem?_eq_some_iff.mp first
  have member : item ∈ page.items.drop offset := by
    rcases left with rest | last
    · exact rest
    · refine List.mem_of_getLast? ?_
      rw [List.getLast?_drop, if_neg (not_le.mpr bound), last]
  rw [List.drop_eq_getElem_cons bound] at member
  rcases List.mem_cons.mp member with rfl | later
  · exact incidentBefore_irrefl _
  · have sorted := page.pairwise.sublist (List.drop_sublist offset page.items)
    rw [List.drop_eq_getElem_cons bound] at sorted
    exact List.rel_of_pairwise_cons sorted later

theorem CursorOwnerPage.after_of_head (page : CursorOwnerPage codec) {earlier : List Item}
    (first : ∀ head, page.items.head? = some head → After codec earlier head) {item : Item}
    (member : item ∈ page.items) : After codec earlier item := by
  cases shape : page.items.head? with
  | none =>
    rw [List.head?_eq_none_iff.mp shape] at member
    cases member
  | some head =>
    have start : page.items[0]? = some head := List.head?_eq_getElem?.symm.trans shape
    exact (first head shape).trans (page.left_after_head start (.inl member))

/-! ## Steps and pages -/

section Steps

variable {answer : OwnerRead → OwnerReply} {earlier : List Item}

theorem checkRefill_eq_ok {frame : CursorFrame} {position : OwnerPosition}
    {page next : CursorOwnerPage codec}
    (checked : checkRefill frame position page next = .ok ()) :
    checkCoverage frame position.name next = .ok () ∧ next.snapshotRef = position.snapshotRef ∧
      next.cursor = page.nextCursor ∧ ∀ last, page.items.getLast? = some last →
        ∀ head, next.items.head? = some head →
          incidentBefore codec.parseTime head last = false := by
  simp only [checkRefill, bind_eq_ok, ensure_eq_ok] at checked
  obtain ⟨_, covered, _, ⟨snapshot, cursor⟩, ordered⟩ := checked
  exact ⟨covered, snapshot, cursor, ordered⟩

theorem refill_eq_ok {frame : CursorFrame} {position : OwnerPosition}
    {page next : CursorOwnerPage codec}
    (ran : (refill frame position page).run answer = .ok next) :
    (readPage codec frame.filters position.name page.nextCursor frame.publicationCoverage).run
        answer = .ok next ∧ checkRefill frame position page next = .ok () := by
  simp only [refill, Dialogue.run_bind_eq_ok] at ran
  obtain ⟨_, -, _, read, _, checked, done⟩ := ran
  cases done
  exact ⟨read, checked⟩

theorem Progress.Least.left {progress : Progress codec} {item : Item}
    (least : progress.Least item) (agrees : progress.Agrees)
    (known : ∀ position ∈ progress.frame.owners, position.Known progress.pages)
    {position : OwnerPosition} (member : position ∈ progress.frame.owners)
    (pending : position.done = false) {other : Item}
    (left : other ∈ position.itemsDigest.content.drop position.offset ∨
      position.itemsDigest.content.getLast? = some other) :
    incidentBefore codec.parseTime other item = false := by
  rcases known position member with done | bound
  · cases pending.symm.trans done
  rw [(agrees.on position member).items] at left
  have head : position.head? progress.pages = some _ := List.getElem?_eq_getElem bound
  exact not_incidentBefore_trans (least position member pending _ head)
    ((progress.pages position.name).left_after_head head left)

theorem Ordered.step {progress next : Progress codec} (agrees : progress.Agrees)
    (ordered : Ordered codec (earlier ++ progress.items) progress.frame)
    (step : MergeStep answer progress next) :
    Ordered codec (earlier ++ next.items) next.frame := by
  obtain ⟨sorted, owners, self⟩ := ordered
  cases step with
  | @finish left right position split exhausted last =>
    refine ⟨sorted, ?_, self⟩
    rw [split] at owners
    refine forall_mem_replace owners (fun _ _ same => same) ?_
    intro impossible
    cases impossible
  | @refill left right position next split exhausted more room read =>
    refine ⟨sorted, ?_, self⟩
    have here : position ∈ progress.frame.owners := by simp [split]
    have on := agrees.on position here
    obtain ⟨-, -, -, checked⟩ := checkRefill_eq_ok (refill_eq_ok read).2
    -- The page that is used up has a last item, which the new head is checked against.
    obtain ⟨last, found⟩ : ∃ last, (progress.pages position.name).items.getLast? = some last := by
      have full := (progress.pages position.name).full more
      exact ⟨_, List.getLast?_eq_some_getLast (List.ne_nil_of_length_pos (by omega))⟩
    have before : After codec (earlier ++ progress.items) last :=
      owners position here exhausted.pending last (.inr (by rw [on.items, found]))
    rw [split] at owners
    refine forall_mem_replace owners (fun _ _ same => same) fun _ item left => ?_
    refine next.after_of_head (fun head first => before.trans (checked last found head first)) ?_
    rcases left with rest | final
    · exact List.mem_of_mem_drop rest
    · exact List.mem_of_getLast? final
  | @take left right position item split known pending head least selfLater =>
    have here : position ∈ progress.frame.owners := by simp [split]
    have on := agrees.on position here
    have after : After codec (earlier ++ progress.items) item := by
      refine owners position here pending item (.inl ?_)
      rw [on.items]
      obtain ⟨bound, rfl⟩ := List.getElem?_eq_some_iff.mp head
      exact List.mem_drop_iff_getElem.mpr ⟨0, by simpa using bound, by simp⟩
    have extended (opened : OwnerPosition) (member : opened ∈ progress.frame.owners)
        (pending : opened.done = false) (other : Item)
        (left : other ∈ opened.itemsDigest.content.drop opened.offset ∨
          opened.itemsDigest.content.getLast? = some other) :
        After codec (earlier ++ progress.items ++ [item]) other :=
      after_append_singleton.mpr
        ⟨owners opened member pending other left, least.left agrees known member pending left⟩
    rw [← List.append_assoc]
    refine ⟨after.pairwise sorted, ?_, fun other present =>
      after_append_singleton.mpr ⟨self other present, selfLater other present⟩⟩
    rw [split] at extended
    refine forall_mem_replace extended (fun _ _ same => same) fun _ other left => ?_
    refine extended position (by simp) pending other (left.imp_left fun rest => ?_)
    exact (List.drop_sublist_drop_left _ (Nat.le_succ _)).subset rest
  | @takeSelf item known unconsumed least =>
    rw [← List.append_assoc]
    refine ⟨(self item unconsumed).pairwise sorted, ?_, fun other present => ?_⟩
    · intro position member pending other left
      exact after_append_singleton.mpr
        ⟨owners position member pending other left, least.left agrees known member pending left⟩
    · simp [selfCursorIncident] at present

theorem Ordered.steps {progress final : Progress codec}
    (ordered : Ordered codec (earlier ++ progress.items) progress.frame)
    (agrees : progress.Agrees)
    (steps : MergeSteps answer progress final) :
    Ordered codec (earlier ++ final.items) final.frame := by
  induction steps with
  | refl => exact ordered
  | tail before step ih => exact ih.step (agrees.steps before) step

theorem Ordered.finish {progress : Progress codec}
    (ordered : Ordered codec earlier progress.frame) :
    Ordered codec earlier progress.finish.frame := by
  refine ⟨ordered.sorted, ?_, ordered.self⟩
  intro position member pending item left
  obtain ⟨old, there, rfl⟩ := List.mem_map.mp member
  unfold OwnerPosition.settle at pending left
  split at pending
  next => cases pending
  next unsettled =>
    rw [if_neg unsettled] at left
    exact ordered.owners old there pending item left

/-- A page returns nothing too late and leaves nothing earlier. -/
theorem Ordered.page {draft : Draft codec} (sound : draft.Sound)
    (names : (draft.node.frame.owners.map (·.name)).Nodup)
    (ordered : Ordered codec earlier draft.node.frame) :
    Ordered codec (earlier ++ draft.composed.items) draft.composed.frame := by
  obtain ⟨final, steps, -, composed⟩ := compose_steps sound.composed names
  have start : Ordered codec (earlier ++ []) draft.node.frame := by simpa using ordered
  have agrees : Progress.Agrees ⟨draft.node.frame, draft.pages, 2, [], false⟩ := ⟨names, sound.on⟩
  have done := start.steps agrees steps
  rw [composed]
  exact @Ordered.finish codec _ final done

end Steps

theorem Ordered.nil (frame : CursorFrame) : Ordered codec [] frame where
  sorted := .nil
  owners _ _ _ _ _ _ none := by cases none
  self _ _ _ none := by cases none

theorem Ordered.delivery {state : Composers codec} (kept : state.Kept) {delivery : Delivery codec}
    (logged : delivery ∈ state.log) {earlier : List Item}
    (ordered : Ordered codec earlier delivery.node.frame) :
    Ordered codec (earlier ++ delivery.page.items) delivery.composed.frame := by
  obtain ⟨sound, created, -⟩ := kept.delivered delivery logged
  obtain ⟨⟨_, -, page⟩, -⟩ := sound.page.spec
  rw [page]
  exact ordered.page sound.draft (validateCursorFrame_names (kept.valid _ created))

theorem Composers.Kept.chain_sorted {state : Composers codec} (kept : state.Kept)
    {deliveries : List (Delivery codec)} (chain : state.Chain deliveries) :
    (deliveries.flatMap (·.page.items)).Pairwise fun earlier later =>
      incidentBefore codec.parseTime later earlier = false := by
  cases deliveries with
  | nil => exact .nil
  | cons first rest =>
    have present : first :: rest ≠ [] := List.cons_ne_nil _ _
    have ordered := kept.chain_induction (I := Ordered codec) (fun delivery logged frame
      continued earlier ordered => ?_) chain (Ordered.nil first.node.frame)
    · have done := ordered.delivery kept (chain.logged _ (List.getLast_mem present))
      rw [← List.dropLast_append_getLast present, List.flatMap_append, List.flatMap_singleton]
      exact done.sorted
    · obtain ⟨-, rfl⟩ := (continued ▸ (kept.delivered delivery logged).1.page).continuation_eq
      obtain ⟨sorted, owners, self⟩ := ordered.delivery kept logged
      exact ⟨sorted, owners, self⟩

/-- The pages of a chain, one after another, are in priority order. -/
theorem chain_in_order {state : Composers codec}
    (reached : (composerSystem codec).Reachable System.always state)
    {bodies : List (CursorPage × Option UUID)} (responses : state.Responses bodies) :
    (bodies.flatMap (·.1.items)).Pairwise fun earlier later =>
      incidentBefore codec.parseTime later earlier = false := by
  have kept := Composers.kept_of_reachable reached
  obtain ⟨deliveries, chain, rfl⟩ := responses.chain reached
  rw [List.flatMap_map]
  exact kept.chain_sorted chain

def Composers.bodies (state : Composers codec) (calls : List Nat) :
    List (CursorPage × Option UUID) :=
  calls.filterMap fun call => (state.calls call).response?

theorem Composers.responses_bodies {state : Composers codec} {calls : List Nat}
    (linked : (state.bodies calls).IsChain fun first second => first.2 = some second.1.cursor) :
    state.Responses (state.bodies calls) := by
  refine ⟨fun body member => ?_, linked⟩
  obtain ⟨call, -, returned⟩ := List.mem_filterMap.mp member
  exact ⟨call, returned⟩

theorem PagedTwice.bodies {state : Composers sampleCodec} (runs : PagedTwice state) :
    ((state.bodies [0, 2]).flatMap (·.1.items)).length = 2 ∧
      (state.bodies [0, 2]).IsChain fun first second : CursorPage × Option UUID =>
        first.2 = some second.1.cursor := by
  obtain ⟨first, returnedFirst, summaryFirst⟩ := runs.first
  obtain ⟨last, returnedLast, summaryLast⟩ := runs.last
  simp only [summary, Prod.mk.injEq] at summaryFirst summaryLast
  obtain ⟨-, next, itemsFirst, -⟩ := summaryFirst
  obtain ⟨cursor, -, itemsLast, -⟩ := summaryLast
  have bodies : state.bodies [0, 2] = [first, last] := by
    simp [Composers.bodies, returnedFirst, returnedLast]
  rw [bodies]
  constructor
  · simp [itemsFirst, itemsLast]
  · simp [next, cursor]

theorem chain_in_order_pagedTwice :
    ∃ state, replayComposers pagedTwice = some state ∧
      ((state.bodies [0, 2]).flatMap (·.1.items)).length = 2 ∧
      ((state.bodies [0, 2]).flatMap (·.1.items)).Pairwise fun earlier later =>
        incidentBefore sampleCodec.parseTime later earlier = false := by
  obtain ⟨state, replayed, reached, runs⟩ := pagedTwice_reachable fun _ _ _ => trivial
  obtain ⟨length, linked⟩ := runs.bodies
  exact ⟨state, replayed, length, chain_in_order reached (Composers.responses_bodies linked)⟩

end OufMcp.Cursor
