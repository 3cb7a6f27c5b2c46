import Mathlib.Logic.Relation
import OufMcp.Cursor.Compose

/-!
# The steps of the merge

Composing a page is a sequence of four small steps: an owner is found to be used
up, an owner page is refilled, the head of an owner is taken, or the incident of
MCP itself is.  What a step requires is stated here once; results about whole
pages are invariants of the steps and do not look into the merge loop.
-/

namespace OufMcp.Cursor

open Relational Interaction

variable {codec : Codec}

def OwnerPosition.head? (pages : Producer → CursorOwnerPage codec) (position : OwnerPosition) :
    Option Item :=
  (pages position.name).items[position.offset]?

/-- The owner is done, or its next item is at hand. -/
def OwnerPosition.Known (pages : Producer → CursorOwnerPage codec) (position : OwnerPosition) :
    Prop :=
  position.done = true ∨ position.offset < (pages position.name).items.length

/-- Nothing is left of the page of an owner that is not done. -/
structure OwnerPosition.Exhausted (pages : Producer → CursorOwnerPage codec)
    (position : OwnerPosition) : Prop where
  pending : position.done = false
  items : (pages position.name).items.length ≤ position.offset

/-- No open owner has a next item before `item`. -/
def Progress.Least (progress : Progress codec) (item : Item) : Prop :=
  ∀ position ∈ progress.frame.owners, position.done = false →
    ∀ other, position.head? progress.pages = some other →
      incidentBefore codec.parseTime other item = false

/-- One small step of the merge, its reads answered by `answer`. -/
inductive MergeStep (answer : OwnerRead → OwnerReply) : Progress codec → Progress codec → Prop where
  | finish {progress : Progress codec} {left right : List OwnerPosition} {position : OwnerPosition}
      (owners : progress.frame.owners = left ++ position :: right)
      (exhausted : position.Exhausted progress.pages)
      (last : (progress.pages position.name).nextCursor = "") :
      MergeStep answer progress { progress with
        frame := { progress.frame with owners := left ++ { position with done := true } :: right } }
  | refill {progress : Progress codec} {left right : List OwnerPosition} {position : OwnerPosition}
      {next : CursorOwnerPage codec}
      (owners : progress.frame.owners = left ++ position :: right)
      (exhausted : position.Exhausted progress.pages)
      (more : (progress.pages position.name).nextCursor ≠ "") (room : progress.calls < 3)
      (read : (Cursor.refill progress.frame position (progress.pages position.name)).run answer =
        .ok next) :
      MergeStep answer progress { progress with
        frame := { progress.frame with owners := left ++ position.refilled next :: right }
        pages := Function.update progress.pages position.name next
        calls := progress.calls + 1 }
  | take {progress : Progress codec} {left right : List OwnerPosition} {position : OwnerPosition}
      {item : Item} (owners : progress.frame.owners = left ++ position :: right)
      (known : ∀ other ∈ progress.frame.owners, other.Known progress.pages)
      (pending : position.done = false) (head : position.head? progress.pages = some item)
      (least : progress.Least item)
      (self : ∀ self, selfCursorIncident progress.frame = some self →
        incidentBefore codec.parseTime self item = false) :
      MergeStep answer progress { progress with
        frame := { progress.frame with owners := left ++ position.consume :: right }
        items := progress.items ++ [item] }
  | takeSelf {progress : Progress codec} {self : Item}
      (known : ∀ other ∈ progress.frame.owners, other.Known progress.pages)
      (unconsumed : selfCursorIncident progress.frame = some self)
      (least : progress.Least self) :
      MergeStep answer progress { progress with
        frame := { progress.frame with selfConsumed := true }
        items := progress.items ++ [self] }

abbrev MergeSteps (answer : OwnerRead → OwnerReply) :
    Progress codec → Progress codec → Prop :=
  Relation.ReflTransGen (MergeStep answer)

/-! ## Heads -/

variable {answer : OwnerRead → OwnerReply}

theorem OwnerPosition.known_refilled {pages : Producer → CursorOwnerPage codec}
    {position : OwnerPosition} {next : CursorOwnerPage codec}
    (here : pages position.name = next) : (position.refilled next).Known pages := by
  unfold Known refilled
  cases items : next.items with
  | nil => exact .inl rfl
  | cons head rest =>
    refine .inr ?_
    change 0 < (pages position.name).items.length
    rw [here, items]
    exact Nat.succ_pos _

theorem OwnerPosition.known_update {pages : Producer → CursorOwnerPage codec}
    {position : OwnerPosition} {name : Producer} {next : CursorOwnerPage codec}
    (differ : position.name ≠ name) :
    position.Known (Function.update pages name next) ↔ position.Known pages := by
  unfold Known
  rw [Function.update_of_ne differ]

/-- What is known of the heads after a pass over the owners. -/
structure Heads.Sound (heads : Heads codec) (owners : List OwnerPosition) : Prop where
  known : heads.unknownHead = false → ∀ position ∈ owners, position.Known heads.pages
  unknown : heads.unknownHead = true → 3 ≤ heads.calls ∧
    ∃ position ∈ owners, position.Exhausted heads.pages ∧
      (heads.pages position.name).nextCursor ≠ ""

@[simp] theorem Heads.cons_owners (position : OwnerPosition) (heads : Heads codec) :
    (heads.cons position).owners = position :: heads.owners := rfl

@[simp] theorem Heads.cons_pages (position : OwnerPosition) (heads : Heads codec) :
    (heads.cons position).pages = heads.pages := rfl

@[simp] theorem Heads.cons_calls (position : OwnerPosition) (heads : Heads codec) :
    (heads.cons position).calls = heads.calls := rfl

@[simp] theorem Heads.sound_cons {position : OwnerPosition} {heads : Heads codec}
    {owners : List OwnerPosition} : (heads.cons position).Sound owners ↔ heads.Sound owners :=
  ⟨fun sound => ⟨sound.known, sound.unknown⟩, fun sound => ⟨sound.known, sound.unknown⟩⟩

theorem fillHeads_steps {frame : CursorFrame} (items : List Item) (scanPending : Bool)
    (before : List OwnerPosition) {rest : List OwnerPosition}
    {pages : Producer → CursorOwnerPage codec} {calls : Nat} {heads : Heads codec}
    (run : (fillHeads frame rest pages calls).run answer = .ok heads)
    (names : ((before ++ rest).map (·.name)).Nodup)
    (earlier : ∀ position ∈ before, position.Known pages) :
    MergeSteps answer ⟨{ frame with owners := before ++ rest }, pages, calls, items, scanPending⟩
        ⟨{ frame with owners := before ++ heads.owners }, heads.pages, heads.calls, items,
          scanPending⟩ ∧
      heads.Sound (before ++ heads.owners) := by
  induction rest generalizing before pages calls heads with
  | nil =>
    cases run
    refine ⟨.refl, fun _ position member => earlier position (by simpa using member), ?_⟩
    intro impossible
    cases impossible
  | cons position rest ih =>
    -- The names of the owners are those of the whole list, wherever it is cut.
    have shifted (other : OwnerPosition) (same : other.name = position.name) :
        (((before ++ [other]) ++ rest).map (·.name)).Nodup := by
      simpa [same] using names
    simp only [fillHeads] at run
    split at run
    next known =>
      obtain ⟨inner, ran, done⟩ := (Dialogue.run_bind_eq_ok answer).mp run
      cases done
      have step := ih _ ran (shifted position rfl) (by
        intro other member
        rcases List.mem_append.mp member with old | new
        · exact earlier other old
        · exact List.mem_singleton.mp new ▸ known)
      simpa using step
    next unknown =>
      have exhausted : position.Exhausted pages := by
        rw [not_or, Bool.not_eq_true, not_lt] at unknown
        exact ⟨unknown.1, unknown.2⟩
      split at run
      next last =>
        obtain ⟨inner, ran, done⟩ := (Dialogue.run_bind_eq_ok answer).mp run
        cases done
        have step := ih _ ran (shifted { position with done := true } rfl) (by
          intro other member
          rcases List.mem_append.mp member with old | new
          · exact earlier other old
          · exact List.mem_singleton.mp new ▸ .inl rfl)
        refine ⟨.head (.finish rfl exhausted last) ?_, ?_⟩
        · simpa using step.1
        · simpa using step.2
      next more =>
        split at run
        next full =>
          cases run
          refine ⟨.refl, ?_, fun _ => ⟨full, position, by simp, exhausted, more⟩⟩
          intro impossible
          cases impossible
        next room =>
          obtain ⟨next, read, after⟩ := (Dialogue.run_bind_eq_ok answer).mp run
          obtain ⟨inner, ran, done⟩ := (Dialogue.run_bind_eq_ok answer).mp after
          cases done
          have step := ih _ ran (shifted (position.refilled next) rfl) (by
            intro other member
            rcases List.mem_append.mp member with old | new
            · refine (OwnerPosition.known_update ?_).mpr (earlier other old)
              intro same
              rw [List.map_append, List.nodup_append] at names
              exact names.2.2 _ (List.mem_map_of_mem old) _ (by simp) same
            · rw [List.mem_singleton.mp new]
              exact OwnerPosition.known_refilled (Function.update_self ..))
          refine ⟨.head (.refill rfl exhausted more (not_le.mp room) read) ?_, ?_⟩
          · simpa using step.1
          · simpa using step.2

/-! ## The best head -/

theorem incidentBefore_irrefl (item : Item) : incidentBefore codec.parseTime item item = false :=
  (incidentBefore_eq_false codec.parseTime).mpr le_rfl

theorem not_incidentBefore_trans {first second third : Item}
    (one : incidentBefore codec.parseTime second first = false)
    (two : incidentBefore codec.parseTime third second = false) :
    incidentBefore codec.parseTime third first = false := by
  rw [incidentBefore_eq_false] at one two ⊢
  exact one.trans two

/-- At an open owner the search goes on with the better of its head and the best so far. -/
theorem bestHead_cons {pages : Producer → CursorOwnerPage codec} {position : OwnerPosition}
    {rest : List OwnerPosition} {index : Nat} {best result : Option (Nat × Item)}
    (run : bestHead pages index best (position :: rest) = .ok result)
    (pending : position.done = false) :
    ∃ item chosen, position.head? pages = some item ∧
      bestHead pages (index + 1) (some chosen) rest = .ok result ∧
      (chosen = (index, item) ∨ best = some chosen) ∧
      incidentBefore codec.parseTime item chosen.2 = false ∧
      ∀ held, best = some held → incidentBefore codec.parseTime held.2 chosen.2 = false := by
  rw [bestHead, if_neg (by simp [pending])] at run
  cases head : (pages position.name).items[position.offset]? with
  | none =>
    rw [head] at run
    cases run
  | some item =>
    rw [head] at run
    cases best with
    | none =>
      refine ⟨item, (index, item), head, run, .inl rfl, incidentBefore_irrefl item, ?_⟩
      intro _ impossible
      cases impossible
    | some held =>
      obtain ⟨winner, candidate⟩ := held
      dsimp only at run
      by_cases better : incidentBefore codec.parseTime item candidate = true
      · rw [if_pos better] at run
        refine ⟨item, (index, item), head, run, .inl rfl, incidentBefore_irrefl item, ?_⟩
        rintro _ ⟨⟩
        rw [incidentBefore_eq_true] at better
        exact (incidentBefore_eq_false codec.parseTime).mpr better.le
      · rw [if_neg better] at run
        refine ⟨item, (winner, candidate), head, run, .inr rfl, by simpa using better, ?_⟩
        rintro _ ⟨⟩
        exact incidentBefore_irrefl candidate

/-- The best head is that of an open owner, and none before it is at hand. -/
theorem bestHead_spec {pages : Producer → CursorOwnerPage codec} {owners : List OwnerPosition}
    {index : Nat} {best result : Option (Nat × Item)}
    (run : bestHead pages index best owners = .ok result) :
    (result = none → best = none ∧ ∀ position ∈ owners, position.done = true) ∧
      ∀ winner item, result = some (winner, item) →
        (best = some (winner, item) ∨ ∃ place position, owners[place]? = some position ∧
          winner = index + place ∧ position.done = false ∧ position.head? pages = some item) ∧
        (∀ held, best = some held → incidentBefore codec.parseTime held.2 item = false) ∧
        ∀ position ∈ owners, position.done = false → ∀ other, position.head? pages = some other →
          incidentBefore codec.parseTime other item = false := by
  induction owners generalizing index best with
  | nil =>
    cases run
    refine ⟨fun none => ⟨none, by simp⟩, fun winner item found => ⟨.inl found, ?_, by simp⟩⟩
    intro held same
    cases found.symm.trans same
    exact incidentBefore_irrefl item
  | cons position rest ih =>
    cases pending : position.done with
    | true =>
      rw [bestHead, if_pos pending] at run
      obtain ⟨none, some⟩ := ih run
      refine ⟨fun absent => ⟨(none absent).1, ?_⟩, fun winner item found => ?_⟩
      · intro other member
        rcases List.mem_cons.mp member with rfl | later
        · exact pending
        · exact (none absent).2 other later
      · obtain ⟨source, before, least⟩ := some winner item found
        refine ⟨source.imp_right ?_, before, ?_⟩
        · rintro ⟨place, other, there, rfl, rest⟩
          exact ⟨place + 1, other, by simpa using there, by omega, rest⟩
        · intro other member opened
          rcases List.mem_cons.mp member with rfl | later
          · cases pending.symm.trans opened
          · exact least other later opened
    | false =>
      obtain ⟨head, chosen, here, ran, source, better, best⟩ := bestHead_cons run pending
      obtain ⟨none, some⟩ := ih ran
      refine ⟨fun absent => (by cases (none absent).1), fun winner item found => ?_⟩
      obtain ⟨from', before, least⟩ := some winner item found
      have chosenLeast := before chosen rfl
      refine ⟨?_, fun held same => not_incidentBefore_trans chosenLeast (best held same), ?_⟩
      · rcases from' with same | ⟨place, other, there, rfl, rest⟩
        · rcases source with rfl | old
          · cases same
            exact .inr ⟨0, position, rfl, rfl, pending, here⟩
          · exact .inl (old.trans same)
        · exact .inr ⟨place + 1, other, by simpa using there, by omega, rest⟩
      · intro other member opened item' there
        rcases List.mem_cons.mp member with rfl | later
        · obtain rfl := Option.some.inj (here.symm.trans there)
          exact not_incidentBefore_trans chosenLeast better
        · exact least other later opened item' there

/-! ## Whole pages -/

/-- Why the merge loop ended. -/
inductive Progress.Ends (progress : Progress codec) (limit : Nat) : Prop where
  | full (length : progress.items.length = limit) (complete : progress.scanPending = false)
  | unknownHead (pending : progress.scanPending = true) (calls : 3 ≤ progress.calls)
      (waiting : ∃ position ∈ progress.frame.owners, position.Exhausted progress.pages ∧
        (progress.pages position.name).nextCursor ≠ "")
  | used (owners : ∀ position ∈ progress.frame.owners, position.done = true)
      (self : selfCursorIncident progress.frame = none) (complete : progress.scanPending = false)

theorem MergeStep.names {progress next : Progress codec} (step : MergeStep answer progress next) :
    next.frame.owners.map (·.name) = progress.frame.owners.map (·.name) := by
  cases step with
  | finish owners => simp [owners]
  | refill owners => simp [owners, OwnerPosition.refilled, CursorOwnerPage.position]
  | take owners => simp [owners, OwnerPosition.consume]
  | takeSelf => rfl

theorem MergeSteps.names {progress final : Progress codec}
    (steps : MergeSteps answer progress final) :
    final.frame.owners.map (·.name) = progress.frame.owners.map (·.name) := by
  induction steps with
  | refl => rfl
  | tail _ step ih => exact step.names.trans ih

/-- The self incident goes first when no open owner has a head before it. -/
theorem selfFirst_eq_some {frame : CursorFrame} {pages : Producer → CursorOwnerPage codec}
    {best : Option (Nat × Item)} {self : Item}
    (found : bestHead pages 0 none frame.owners = .ok best)
    (first : selfFirst codec frame best = some self) :
    selfCursorIncident frame = some self ∧ ∀ position ∈ frame.owners, position.done = false →
      ∀ other, position.head? pages = some other →
        incidentBefore codec.parseTime other self = false := by
  obtain ⟨none, some⟩ := bestHead_spec found
  rw [selfFirst, Option.filter_eq_some_iff] at first
  refine ⟨first.1, fun position member opened other head => ?_⟩
  cases best with
  | none => cases ((none rfl).2 position member).symm.trans opened
  | some held =>
    obtain ⟨winner, candidate⟩ := held
    have least := (some winner candidate rfl).2.2 position member opened other head
    have before : incidentBefore codec.parseTime self candidate = true := first.2
    rw [incidentBefore_eq_true] at before
    rw [incidentBefore_eq_false] at least ⊢
    exact before.le.trans least

theorem selfFirst_eq_none {frame : CursorFrame} {best : Option (Nat × Item)}
    (last : selfFirst codec frame best = none) :
    (best = none → selfCursorIncident frame = none) ∧
      ∀ winner item, best = some (winner, item) → ∀ self, selfCursorIncident frame = some self →
        incidentBefore codec.parseTime self item = false := by
  unfold selfFirst at last
  constructor
  · rintro rfl
    cases present : selfCursorIncident frame with
    | none => rfl
    | some self => simp [present] at last
  · rintro winner item rfl self present
    rw [present] at last
    simpa using last

theorem mergeItems_steps {room : Nat} {progress final : Progress codec}
    (run : (mergeItems room progress).run answer = .ok final)
    (names : (progress.frame.owners.map (·.name)).Nodup)
    (complete : progress.scanPending = false) :
    MergeSteps answer progress { final with scanPending := false } ∧
      final.Ends (progress.items.length + room) := by
  induction room generalizing progress with
  | zero =>
    cases run
    exact ⟨complete ▸ .refl, .full rfl complete⟩
  | succ room ih =>
    simp only [mergeItems] at run
    obtain ⟨heads, filled, after⟩ := (Dialogue.run_bind_eq_ok answer).mp run
    obtain ⟨passed, sound⟩ := fillHeads_steps progress.items progress.scanPending [] filled
      (by simpa using names) (by simp)
    rw [List.nil_append, List.nil_append] at passed
    rw [List.nil_append] at sound
    have kept := passed.names
    cases unknown : heads.unknownHead with
    | true =>
      rw [if_pos unknown] at after
      cases after
      obtain ⟨calls, waiting⟩ := sound.unknown unknown
      exact ⟨complete ▸ passed, .unknownHead rfl calls waiting⟩
    | false =>
      rw [if_neg (by simp [unknown])] at after
      obtain ⟨best, found, after⟩ := (Dialogue.run_bind_eq_ok answer).mp after
      replace found : bestHead heads.pages 0 none heads.owners = .ok best := found
      have known := sound.known unknown
      -- An item more, and room for one less.
      have counted : progress.items.length + 1 + room = progress.items.length + (room + 1) := by
        omega
      cases first : selfFirst codec { progress.frame with owners := heads.owners } best with
      | some self =>
        rw [first] at after
        obtain ⟨unconsumed, least⟩ := selfFirst_eq_some
          (show bestHead heads.pages 0 none
            { progress.frame with owners := heads.owners }.owners = _ from found) first
        obtain ⟨steps, ends⟩ := ih after (kept ▸ names) complete
        rw [List.length_append, List.length_singleton, counted] at ends
        exact ⟨(passed.tail (.takeSelf known unconsumed least)).trans steps, ends⟩
      | none =>
        rw [first] at after
        obtain ⟨whenNone, whenSome⟩ := selfFirst_eq_none first
        obtain ⟨none, some⟩ := bestHead_spec found
        cases best with
        | none =>
          cases after
          exact ⟨complete ▸ passed, .used (none rfl).2 (whenNone rfl) complete⟩
        | some held =>
          obtain ⟨winner, item⟩ := held
          obtain ⟨source, -, least⟩ := some winner item rfl
          rcases source with impossible | ⟨place, position, there, rfl, opened, head⟩
          · cases impossible
          rw [Nat.zero_add] at after
          have bound : place < heads.owners.length :=
            (List.getElem?_eq_some_iff.mp there).1
          obtain ⟨left, chosen, right, owners, length, modified⟩ :=
            List.exists_of_modify OwnerPosition.consume bound
          obtain rfl : chosen = position := by
            rw [owners, ← length] at there
            simpa using there
          dsimp only at after
          rw [modified] at after
          have step := @MergeStep.take codec answer
            ⟨{ progress.frame with owners := heads.owners }, heads.pages, heads.calls,
              progress.items, progress.scanPending⟩
            left right chosen item owners known opened head least (whenSome _ item rfl)
          obtain ⟨steps, ends⟩ := ih after (step.names ▸ kept ▸ names) complete
          rw [List.length_append, List.length_singleton, counted] at ends
          exact ⟨(passed.tail step).trans steps, ends⟩

theorem compose_steps {frame : CursorFrame} {pages : Producer → CursorOwnerPage codec}
    {composed : Composition} (run : (compose frame pages).run answer = .ok composed)
    (names : (frame.owners.map (·.name)).Nodup) :
    ∃ final : Progress codec, MergeSteps answer ⟨frame, pages, 2, [], false⟩
        { final with scanPending := false } ∧
      final.Ends frame.pageLimit ∧ composed = final.finish := by
  obtain ⟨final, merged, done⟩ := (Dialogue.run_bind_eq_ok answer).mp run
  cases done
  obtain ⟨steps, ends⟩ := mergeItems_steps merged names rfl
  exact ⟨final, steps, by simpa using ends, rfl⟩

theorem compose_more {frame : CursorFrame} {pages : Producer → CursorOwnerPage codec}
    {composed : Composition} (run : (compose frame pages).run answer = .ok composed) :
    composed.frame.more = composed.more := by
  obtain ⟨_, -, done⟩ := (Dialogue.run_bind_eq_ok answer).mp run
  cases done
  rfl

/-! ## What all steps keep -/

/-- What no step of a merge changes in a frame. -/
def CursorFrame.scope (frame : CursorFrame) : CursorFrame :=
  { frame with owners := [], selfConsumed := false }

theorem MergeStep.scope {progress next : Progress codec} (step : MergeStep answer progress next) :
    next.frame.scope = progress.frame.scope := by
  cases step with
  | finish => rfl
  | refill => rfl
  | take => rfl
  | takeSelf => rfl

theorem MergeSteps.scope {progress final : Progress codec}
    (steps : MergeSteps answer progress final) : final.frame.scope = progress.frame.scope := by
  induction steps with
  | refl => rfl
  | tail _ step ih => exact step.scope.trans ih

/-- Frames of one scope agree on what later pages read of it. -/
structure CursorFrame.Alike (frame other : CursorFrame) : Prop where
  filters : frame.filters = other.filters
  pageNumber : frame.pageNumber = other.pageNumber
  selfStatus : frame.selfStatus = other.selfStatus
  selfActionRequired : frame.selfActionRequired = other.selfActionRequired
  publicationCoverage : frame.publicationCoverage = other.publicationCoverage
  publicationParent : frame.publicationParent = other.publicationParent
  publicationBase : frame.publicationBase = other.publicationBase

theorem compose_alike {frame : CursorFrame} {pages : Producer → CursorOwnerPage codec}
    {composed : Composition} (run : (compose frame pages).run answer = .ok composed)
    (names : (frame.owners.map (·.name)).Nodup) : composed.frame.Alike frame := by
  obtain ⟨final, steps, -, rfl⟩ := compose_steps run names
  have same : final.frame.scope = frame.scope := steps.scope
  simp only [CursorFrame.scope, CursorFrame.mk.injEq, true_and] at same
  obtain ⟨-, filters, -, number, status, action, -, coverage, parent, base⟩ := same
  exact ⟨filters, number, status, action, coverage, parent, base⟩

/-- A position on a page that was read back. -/
structure OwnerPosition.On (position : OwnerPosition) (page : CursorOwnerPage codec) : Prop where
  cursor : position.cursor = page.cursor
  snapshotRef : position.snapshotRef = page.snapshotRef
  items : position.itemsDigest = ⟨page.items⟩
  ownerDigest : position.ownerDigest = page.itemsDigest
  offset : position.offset ≤ page.items.length
  bookmark : position.publicationBookmark = page.publicationBookmark
  parent : position.publicationParent = page.parentBookmark

theorem sameOwnerPage_eq_true {position : OwnerPosition} {page : CursorOwnerPage codec} :
    sameOwnerPage position page = true ↔ position.On page := by
  unfold sameOwnerPage
  rw [decide_eq_true_eq]
  constructor
  · rintro ⟨cursor, snapshotRef, items, ownerDigest, offset, bookmark, parent⟩
    exact ⟨cursor, snapshotRef, items, ownerDigest, offset, bookmark, parent⟩
  · intro on
    exact ⟨on.cursor, on.snapshotRef, on.items, on.ownerDigest, on.offset, on.bookmark, on.parent⟩

theorem CursorOwnerPage.position_on (page : CursorOwnerPage codec) (name : Producer) (index : Nat) :
    (page.position name index).On page :=
  ⟨rfl, rfl, rfl, rfl, Nat.zero_le _, rfl, rfl⟩

theorem OwnerPosition.On.consume {position : OwnerPosition}
    {pages : Producer → CursorOwnerPage codec}
    {item : Item} (on : position.On (pages position.name))
    (head : position.head? pages = some item) : position.consume.On (pages position.name) :=
  { on with offset := (List.getElem?_eq_some_iff.mp head).1 }

theorem OwnerPosition.refilled_on (position : OwnerPosition) (next : CursorOwnerPage codec) :
    (position.refilled next).On next :=
  ⟨rfl, rfl, rfl, rfl, Nat.zero_le _, rfl, rfl⟩

theorem forall_mem_replace {α : Type} {P Q : α → Prop} {left right : List α} {old new : α}
    (all : ∀ x ∈ left ++ old :: right, P x) (others : ∀ x, x ∈ left ∨ x ∈ right → P x → Q x)
    (here : Q new) : ∀ x ∈ left ++ new :: right, Q x := by
  intro x member
  rcases List.mem_append.mp member with before | rest
  · exact others x (.inl before) (all x (List.mem_append_left _ before))
  · rcases List.mem_cons.mp rest with rfl | after
    · exact here
    · exact others x (.inr after) (all x (List.mem_append_right _ (List.mem_cons_of_mem _ after)))

theorem name_ne_of_mem {left right : List OwnerPosition} {position other : OwnerPosition}
    (names : ((left ++ position :: right).map (·.name)).Nodup)
    (member : other ∈ left ∨ other ∈ right) : other.name ≠ position.name := by
  rw [List.map_append, List.map_cons, List.nodup_append, List.nodup_cons] at names
  rcases member with before | after
  · exact names.2.2 _ (List.mem_map_of_mem before) _ List.mem_cons_self
  · intro same
    exact names.2.1.1 (same ▸ List.mem_map_of_mem after)

/-- Every position is on the page at hand for its owner. -/
structure Progress.Agrees (progress : Progress codec) : Prop where
  names : (progress.frame.owners.map (·.name)).Nodup
  on : ∀ position ∈ progress.frame.owners, position.On (progress.pages position.name)

theorem Progress.Agrees.step {progress next : Progress codec} (agrees : progress.Agrees)
    (step : MergeStep answer progress next) : next.Agrees := by
  refine ⟨step.names ▸ agrees.names, ?_⟩
  have on := agrees.on
  cases step with
  | @finish left right position owners exhausted last =>
    rw [owners] at on
    have here := on position (by simp)
    exact forall_mem_replace on (fun _ _ same => same) ⟨here.cursor, here.snapshotRef,
      here.items, here.ownerDigest, here.offset, here.bookmark, here.parent⟩
  | @refill left right position next owners exhausted more room read =>
    rw [owners] at on
    refine forall_mem_replace on (fun other member same => ?_) ?_
    · dsimp only
      rwa [Function.update_of_ne (name_ne_of_mem (owners ▸ agrees.names) member)]
    · change (position.refilled next).On (Function.update progress.pages position.name next
        position.name)
      rw [Function.update_self]
      exact position.refilled_on next
  | @take left right position item owners known pending head least self =>
    rw [owners] at on
    exact forall_mem_replace on (fun _ _ same => same) ((on position (by simp)).consume head)
  | takeSelf => exact on

theorem Progress.Agrees.steps {progress final : Progress codec} (agrees : progress.Agrees)
    (steps : MergeSteps answer progress final) : final.Agrees := by
  induction steps with
  | refl => exact agrees
  | tail _ step ih => exact ih.step step

/-! ## Progress -/

def CursorFrame.pageIndexes (frame : CursorFrame) : List Nat := frame.owners.map (·.pageIndex)

def CursorFrame.pagesTurned (frame : CursorFrame) : Nat := frame.pageIndexes.foldr (· + ·) 0

def Advanced (before after : List Nat) : Prop :=
  ∃ left index right, before = left ++ index :: right ∧ after = left ++ (index + 1) :: right

/-- After two reads there is one more at most, and it moves one owner on. -/
theorem MergeSteps.advanced {progress final : Progress codec}
    (steps : MergeSteps answer progress final) (two : progress.calls = 2) :
    (final.calls = 2 ∧ final.frame.pageIndexes = progress.frame.pageIndexes) ∨
      (final.calls = 3 ∧ Advanced progress.frame.pageIndexes final.frame.pageIndexes) := by
  induction steps with
  | refl => exact .inl ⟨two, rfl⟩
  | @tail middle last _ step ih =>
    -- Only a refill moves an owner on.
    have still (calls : last.calls = middle.calls)
        (same : last.frame.pageIndexes = middle.frame.pageIndexes) :
        (last.calls = 2 ∧ last.frame.pageIndexes = progress.frame.pageIndexes) ∨
          (last.calls = 3 ∧ Advanced progress.frame.pageIndexes last.frame.pageIndexes) := by
      rw [calls, same]
      exact ih
    cases step with
    | finish owners => exact still rfl (by simp [CursorFrame.pageIndexes, owners])
    | @refill left right position next owners exhausted more room read =>
      rcases ih with ⟨before, same⟩ | ⟨before, -⟩
      · refine .inr ⟨by simp [before], left.map (·.pageIndex), position.pageIndex,
          right.map (·.pageIndex), ?_, ?_⟩
        · rw [← same]
          simp [CursorFrame.pageIndexes, owners]
        · simp [CursorFrame.pageIndexes, OwnerPosition.refilled, CursorOwnerPage.position]
      · omega
    | take owners =>
      exact still rfl (by simp [CursorFrame.pageIndexes, OwnerPosition.consume, owners])
    | takeSelf => exact still rfl rfl

theorem settle_pageIndex (position : OwnerPosition) (page : CursorOwnerPage codec) :
    (position.settle page).pageIndex = position.pageIndex := by
  unfold OwnerPosition.settle
  split <;> rfl

theorem settle_done {position : OwnerPosition} (page : CursorOwnerPage codec)
    (done : position.done = true) : (position.settle page).done = true := by
  unfold OwnerPosition.settle
  split
  · rfl
  · exact done

/-- A page that leaves something returned an item or moved one owner on. -/
theorem compose_advances {frame : CursorFrame} {pages : Producer → CursorOwnerPage codec}
    {composed : Composition} (run : (compose frame pages).run answer = .ok composed)
    (names : (frame.owners.map (·.name)).Nodup) (limit : 1 ≤ frame.pageLimit)
    (more : composed.more = true) :
    (composed.items ≠ [] ∧ composed.frame.pageIndexes = frame.pageIndexes) ∨
      Advanced frame.pageIndexes composed.frame.pageIndexes := by
  obtain ⟨final, steps, ends, rfl⟩ := compose_steps run names
  have indexes : final.finish.frame.pageIndexes = final.frame.pageIndexes := by
    simp [Progress.finish, CursorFrame.pageIndexes, settle_pageIndex]
  rw [indexes]
  rcases steps.advanced rfl with ⟨calls, same⟩ | ⟨-, advanced⟩
  · refine .inl ⟨?_, same⟩
    cases ends with
    | full length => exact List.ne_nil_of_length_pos (length ▸ limit)
    | unknownHead _ three =>
      replace calls : final.calls = 2 := calls
      omega
    | used owners self =>
      have settled : ∀ position ∈ final.frame.owners,
          (position.settle (final.pages position.name)).done = true :=
        fun position member => settle_done _ (owners position member)
      have none : selfCursorIncident final.finish.frame = none := self
      have last : final.finish.frame.more = false := by
        simpa [CursorFrame.more, none] using by simpa [Progress.finish] using settled
      cases more.symm.trans last
  · exact .inr advanced

theorem compose_pending {frame : CursorFrame} {pages : Producer → CursorOwnerPage codec}
    {composed : Composition} (run : (compose frame pages).run answer = .ok composed)
    (names : (frame.owners.map (·.name)).Nodup) (pending : composed.scanPending = true) :
    composed.more = true := by
  obtain ⟨final, -, ends, rfl⟩ := compose_steps run names
  replace pending : final.scanPending = true := pending
  cases ends with
  | full _ complete => cases complete.symm.trans pending
  | used _ _ complete => cases complete.symm.trans pending
  | unknownHead _ _ waiting =>
    obtain ⟨position, member, exhausted, continued⟩ := waiting
    have settled : position.settle (final.pages position.name) = position :=
      if_neg fun last => continued last.2
    have left : ∃ other ∈ final.finish.frame.owners, other.done = false :=
      ⟨position, List.mem_map.mpr ⟨position, member, settled⟩, exhausted.pending⟩
    have more : final.finish.frame.more = true := by
      simpa [CursorFrame.more] using Or.inr left
    exact more

/-! ## Reads -/

section Reads

open Dialogue

variable (answer)

theorem length_asked_callProducer_le (scopeSource : String) (query : OwnerQuery)
    (producer : Producer) :
    ((callProducer codec scopeSource query producer).asked answer).length ≤ 1 := by
  unfold callProducer
  refine length_asked_bind_le answer (m := 0) (n := 1) (by simp) fun read _ => ?_
  refine length_asked_bind_le answer (m := 1) (n := 0) (by simp) fun reply _ => ?_
  exact length_asked_bind_le answer (m := 0) (n := 0) (by simp) fun body _ => (by simp)

theorem length_asked_readPage_le (filters : Filters) (name : Producer) (token : String)
    (coverage : Bool) : ((readPage codec filters name token coverage).asked answer).length ≤ 1 :=
  length_asked_bind_le answer (m := 0) (n := 1) (by simp) fun scopeSource _ =>
    length_asked_callProducer_le answer scopeSource (.cursor token coverage) name

theorem length_asked_refill_le (frame : CursorFrame) (position : OwnerPosition)
    (page : CursorOwnerPage codec) :
    ((refill frame position page).asked answer).length ≤ 1 := by
  unfold refill
  refine length_asked_bind_le answer (m := 0) (n := 1) (by simp) fun _ _ => ?_
  refine length_asked_bind_le answer (m := 1) (n := 0)
    (length_asked_readPage_le answer _ _ _ _) fun next _ => ?_
  exact length_asked_bind_le answer (m := 0) (n := 0) (by simp) fun _ _ => (by simp)

theorem within_refill (frame : CursorFrame) (position : OwnerPosition)
    (page : CursorOwnerPage codec) {calls : Nat} (room : calls < 3) :
    Within answer 3 calls (refill frame position page) fun _ => calls + 1 := by
  have asked := length_asked_refill_le answer frame position page
  exact ⟨by omega, fun _ _ => ⟨by omega, room⟩⟩

theorem within_fillHeads (frame : CursorFrame) (owners : List OwnerPosition)
    (pages : Producer → CursorOwnerPage codec) {calls : Nat} (few : calls ≤ 3) :
    Within answer 3 calls (fillHeads frame owners pages calls) (·.calls) := by
  induction owners generalizing pages calls with
  | nil => exact .pure le_rfl few
  | cons position rest ih =>
    -- The pass over the rest, after which the position is put back.
    have back (fresh : OwnerPosition) {pages : Producer → CursorOwnerPage codec} {calls : Nat}
        (few : calls ≤ 3) :
        Within answer 3 calls (do
          let heads ← fillHeads frame rest pages calls
          pure (heads.cons fresh) : Reading (Heads codec)) (·.calls) :=
      (ih pages few).bind fun heads ran =>
        .pure (Heads.cons_calls fresh heads).ge (((ih pages few).recorded heads ran).2)
    simp only [fillHeads]
    split
    next => exact back position few
    next =>
      split
      next => exact back _ few
      next =>
        split
        next => exact .pure le_rfl few
        next full =>
          have room := not_le.mp full
          exact (within_refill answer frame position _ room).bind fun next _ => back _ room

theorem within_mergeItems (room : Nat) (progress : Progress codec) (few : progress.calls ≤ 3) :
    Within answer 3 progress.calls (mergeItems room progress) (·.calls) := by
  induction room generalizing progress with
  | zero => exact .pure le_rfl few
  | succ room ih =>
    simp only [mergeItems]
    have filled := within_fillHeads answer progress.frame progress.frame.owners progress.pages few
    refine filled.bind fun heads ran => ?_
    have spent := (filled.recorded heads ran).2
    split
    next => exact .pure le_rfl spent
    next =>
      refine (Within.lift _ spent).bind fun best _ => ?_
      split
      next => exact ih ⟨_, heads.pages, heads.calls, _, _⟩ spent
      next => exact .pure le_rfl spent
      next => exact ih ⟨_, heads.pages, heads.calls, _, _⟩ spent

/-- A page is composed with at most one read after the two that were made. -/
theorem length_asked_compose_le (frame : CursorFrame) (pages : Producer → CursorOwnerPage codec) :
    ((compose frame pages).asked answer).length ≤ 1 ∧
      ∀ composed, (compose frame pages).run answer = .ok composed → composed.calls ≤ 3 := by
  have merged := within_mergeItems answer frame.pageLimit ⟨frame, pages, 2, [], false⟩
    (show 2 ≤ 3 by decide)
  have composed : Within answer 3 2 (compose frame pages) (·.calls) :=
    merged.bind fun final ran => .pure le_rfl (merged.recorded final ran).2
  exact ⟨by have := composed.total; omega, fun result ran => (composed.recorded result ran).2⟩

end Reads

end OufMcp.Cursor
