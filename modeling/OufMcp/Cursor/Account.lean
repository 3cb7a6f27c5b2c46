import OufMcp.Cursor.Order

/-!
# Every incident once

Owners that return one page per cursor are read along a path of linked pages.
A frame stands for the pages of its owners that were used up and the part of the
current one, and what a chain has returned is a permutation of just that.
-/

namespace OufMcp.Cursor

open Ledger (UUID Time)
open Relational Transition Interaction

variable {codec : Codec}

/-! ## Owners that serve one page per cursor -/

variable (codec) in
/-- The page of a cursor, read with or without publication members. -/
abbrev Service := Producer → Bool → String → Option (CursorOwnerPage codec)

def OwnerQuery.coverage : OwnerQuery → Bool
  | .snapshot _ coverage => coverage
  | .resumeFrom _ => true
  | .cursor _ coverage => coverage

def OwnerQuery.opening : OwnerQuery → Bool
  | .snapshot _ _ | .resumeFrom _ => true
  | .cursor _ _ => false

/-- Every page an owner returns is the one it serves for that cursor. -/
def Serves (serve : Service codec) (answer : OwnerRead → OwnerReply) : Prop :=
  ∀ read body page, (answer read).body = some body →
    decodeCursorOwnerPage codec (answer read).decodedAt body read.producer = .ok page →
    serve read.producer read.query.coverage page.cursor = some page

section Reads

variable {serve : Service codec} {answer : OwnerRead → OwnerReply}

theorem producerRead_eq_some {scopeSource : String} {query : OwnerQuery} {producer : Producer}
    {read : OwnerRead} (made : producerRead scopeSource query producer = some read) :
    read.producer = producer ∧ read.query.coverage = query.coverage ∧
      read.query.opening = query.opening := by
  cases producer with
  | gateway =>
    cases query with
    | snapshot filters coverage =>
      cases made
      exact ⟨rfl, rfl, rfl⟩
    | resumeFrom bookmark =>
      cases made
      exact ⟨rfl, rfl, rfl⟩
    | cursor token coverage =>
      cases made
      exact ⟨rfl, rfl, rfl⟩
  | ingestion =>
    cases query with
    | snapshot filters coverage =>
      simp only [producerRead] at made
      split at made
      next =>
        cases made
        exact ⟨rfl, rfl, rfl⟩
      next =>
        split at made
        next => cases made
        next =>
          cases made
          exact ⟨rfl, rfl, rfl⟩
    | resumeFrom bookmark =>
      cases made
      exact ⟨rfl, rfl, rfl⟩
    | cursor token coverage =>
      cases made
      exact ⟨rfl, rfl, rfl⟩

theorem Serves.callProducer (serves : Serves serve answer) {scopeSource : String}
    {query : OwnerQuery} {producer : Producer} {page : CursorOwnerPage codec}
    (ran : (callProducer codec scopeSource query producer).run answer = .ok page) :
    serve producer query.coverage page.cursor = some page := by
  simp only [Cursor.callProducer, Dialogue.run_bind_eq_ok] at ran
  obtain ⟨read, made, reply, replied, body, found, decoded⟩ := ran
  obtain ⟨producerEq, coverageEq, -⟩ := producerRead_eq_some (demand_eq_ok.mp made)
  cases replied
  have served := serves read body page (demand_eq_ok.mp found) (producerEq ▸ decoded)
  rwa [producerEq, coverageEq] at served

theorem Serves.readPage (serves : Serves serve answer) {filters : Filters} {name : Producer}
    {token : String} {coverage : Bool} {page : CursorOwnerPage codec}
    (ran : (readPage codec filters name token coverage).run answer = .ok page) :
    serve name coverage page.cursor = some page := by
  obtain ⟨_, -, called⟩ := (Dialogue.run_bind_eq_ok answer).mp ran
  exact serves.callProducer called

end Reads

/-! ## Paths of pages -/

section Paths

variable {serve : String → Option (CursorOwnerPage codec)}

/-- The page that the continuation of another one is served with. -/
def Follows (serve : String → Option (CursorOwnerPage codec))
    (page next : CursorOwnerPage codec) : Prop :=
  page.nextCursor ≠ "" ∧ serve page.nextCursor = some next

/-- Pages that follow each other up to one without a continuation. -/
structure Complete (serve : String → Option (CursorOwnerPage codec)) (first : CursorOwnerPage codec)
    (pages : List (CursorOwnerPage codec)) : Prop where
  first : pages.head? = some first
  linked : pages.IsChain (Follows serve)
  last : ∀ page, pages.getLast? = some page → page.nextCursor = ""

/-- The pages of an owner that a frame was taken through, and the one it is on. -/
structure Track (codec : Codec) where
  before : List (CursorOwnerPage codec)
  current : CursorOwnerPage codec

def Track.pages (track : Track codec) : List (CursorOwnerPage codec) :=
  track.before ++ [track.current]

/-- What a position at an offset of the current page has behind it. -/
def Track.consumed (track : Track codec) (offset : Nat) : List Item :=
  track.before.flatMap (·.items) ++ track.current.items.take offset

def Track.advance (track : Track codec) (next : CursorOwnerPage codec) : Track codec :=
  ⟨track.pages, next⟩

/-- The track leads from the first page to the one that the position is on. -/
structure Track.Holds (serve : String → Option (CursorOwnerPage codec))
    (first : CursorOwnerPage codec) (position : OwnerPosition) (track : Track codec) : Prop where
  first : track.pages.head? = some first
  linked : track.pages.IsChain (Follows serve)
  served : serve track.current.cursor = some track.current
  on : position.On track.current
  ended : position.done = true →
    track.current.nextCursor = "" ∧ position.offset = track.current.items.length
  index : position.pageIndex = track.before.length

theorem Track.Holds.complete {first : CursorOwnerPage codec} {position : OwnerPosition}
    {track : Track codec} (holds : track.Holds serve first position)
    (done : position.done = true) :
    Complete serve first track.pages ∧
      track.consumed position.offset = track.pages.flatMap (·.items) := by
  obtain ⟨last, all⟩ := holds.ended done
  refine ⟨⟨holds.first, holds.linked, fun page found => ?_⟩, ?_⟩
  · rw [pages, List.getLast?_concat] at found
    cases found
    exact last
  · simp [pages, consumed, all]

theorem Track.Holds.current_eq {first page : CursorOwnerPage codec} {position : OwnerPosition}
    {track : Track codec} (holds : track.Holds serve first position) (on : position.On page)
    (served : serve page.cursor = some page) : track.current = page := by
  have same := holds.served
  rw [← holds.on.cursor, on.cursor, served] at same
  exact (Option.some.inj same).symm

theorem Track.Holds.start {page : CursorOwnerPage codec} {name : Producer}
    (served : serve page.cursor = some page) :
    (⟨[], page⟩ : Track codec).Holds serve page (page.position name 0) where
  first := rfl
  linked := List.isChain_singleton _
  served := served
  on := page.position_on name 0
  ended impossible := by cases impossible
  index := rfl

theorem Track.Holds.finish {first : CursorOwnerPage codec} {position : OwnerPosition}
    {track : Track codec} (holds : track.Holds serve first position)
    (used : track.current.items.length ≤ position.offset)
    (last : track.current.nextCursor = "") :
    track.Holds serve first { position with done := true } where
  first := holds.first
  linked := holds.linked
  served := holds.served
  on := ⟨holds.on.cursor, holds.on.snapshotRef, holds.on.items, holds.on.ownerDigest,
    holds.on.offset, holds.on.bookmark, holds.on.parent⟩
  ended _ := ⟨last, le_antisymm holds.on.offset used⟩
  index := holds.index

theorem Track.Holds.refill {first next : CursorOwnerPage codec} {position : OwnerPosition}
    {track : Track codec} (holds : track.Holds serve first position)
    (follows : Follows serve track.current next) (served : serve next.cursor = some next) :
    (track.advance next).Holds serve first (position.refilled next) where
  first := by
    change (track.pages ++ [next]).head? = some first
    rw [List.head?_append, holds.first]
    rfl
  linked := by
    refine List.isChain_append.mpr ⟨holds.linked, List.isChain_singleton _, ?_⟩
    intro last found head same
    change (track.before ++ [track.current]).getLast? = some last at found
    rw [List.getLast?_concat] at found
    cases found
    cases same
    exact follows
  served := served
  on := position.refilled_on next
  ended done := by
    have empty : next.items = [] := List.isEmpty_iff.mp done
    refine ⟨?_, by simp [advance, empty, OwnerPosition.refilled, CursorOwnerPage.position]⟩
    by_contra more
    have full := next.full more
    simp [empty] at full
  index := by
    change position.pageIndex + 1 = track.pages.length
    rw [holds.index, pages, List.length_append, List.length_singleton]

theorem Track.Holds.consume {first : CursorOwnerPage codec} {position : OwnerPosition}
    {track : Track codec} (holds : track.Holds serve first position)
    (pending : position.done = false) (room : position.offset < track.current.items.length) :
    track.Holds serve first position.consume where
  first := holds.first
  linked := holds.linked
  served := holds.served
  on := { holds.on with offset := room }
  ended done := by cases pending.symm.trans done
  index := holds.index

end Paths

/-! ## What a frame accounts for -/

def selfPlaced (frame : CursorFrame) : List Item :=
  if frame.selfConsumed = true then [selfIncident frame.selfStatus frame.selfActionRequired] else []

def ownersPlaced (tracks : Producer → Track codec) (owners : List OwnerPosition) : List Item :=
  owners.flatMap fun position => (tracks position.name).consumed position.offset

theorem ownersPlaced_replace {tracks : Producer → Track codec} {left right : List OwnerPosition}
    {position : OwnerPosition} :
    ownersPlaced tracks (left ++ position :: right) =
      ownersPlaced tracks left ++ (tracks position.name).consumed position.offset ++
        ownersPlaced tracks right := by
  simp [ownersPlaced]

theorem ownersPlaced_update {tracks : Producer → Track codec} {owners : List OwnerPosition}
    {name : Producer} {track : Track codec} (others : ∀ position ∈ owners, position.name ≠ name) :
    ownersPlaced (Function.update tracks name track) owners = ownersPlaced tracks owners := by
  refine List.flatMap_congr fun position member => ?_
  rw [Function.update_of_ne (others position member)]

/-- What was returned is what the positions of the frame have behind them. -/
structure Accounts (serve : Service codec) (firsts : Producer → CursorOwnerPage codec)
    (tracks : Producer → Track codec) (placed : List Item) (frame : CursorFrame) : Prop where
  names : frame.owners.map (·.name) = [.gateway, .ingestion]
  holds : ∀ position ∈ frame.owners, (tracks position.name).Holds
    (serve position.name frame.publicationCoverage) (firsts position.name) position
  placed : placed.Perm (ownersPlaced tracks frame.owners ++ selfPlaced frame)
  self : frame.selfConsumed = true → frame.selfStatus ≠ .healthy

section Steps

variable {serve : Service codec} {firsts : Producer → CursorOwnerPage codec}
  {tracks : Producer → Track codec} {answer : OwnerRead → OwnerReply} {earlier : List Item}

theorem selfCursorIncident_eq_some {frame : CursorFrame} {item : Item}
    (found : selfCursorIncident frame = some item) :
    frame.selfConsumed = false ∧ frame.selfStatus ≠ .healthy ∧
      item = selfIncident frame.selfStatus frame.selfActionRequired := by
  unfold selfCursorIncident at found
  split at found
  next => cases found
  next absent =>
    rw [not_or, Bool.not_eq_true] at absent
    exact ⟨absent.1, absent.2, (Option.some.inj found).symm⟩

theorem Track.consumed_length (track : Track codec) :
    track.consumed track.current.items.length = track.pages.flatMap (·.items) := by
  simp [consumed, pages]

theorem Track.consumed_succ {track : Track codec} {offset : Nat} {item : Item}
    (head : track.current.items[offset]? = some item) :
    track.consumed (offset + 1) = track.consumed offset ++ [item] := by
  rw [consumed, consumed, List.append_assoc, List.take_add_one, head]
  rfl

/-- A step returns an item and moves past it, or does neither. -/
theorem Accounts.step {progress next : Progress codec} (serves : Serves serve answer)
    (accounts : Accounts serve firsts tracks (earlier ++ progress.items) progress.frame)
    (current : ∀ position ∈ progress.frame.owners,
      (tracks position.name).current = progress.pages position.name)
    (step : MergeStep answer progress next) :
    ∃ after : Producer → Track codec,
      Accounts serve firsts after (earlier ++ next.items) next.frame ∧
      ∀ position ∈ next.frame.owners, (after position.name).current = next.pages position.name := by
  obtain ⟨names, holds, placed, self⟩ := accounts
  have kept := step.names.trans names
  have nodup : (progress.frame.owners.map (·.name)).Nodup := by
    rw [names]
    decide
  cases step with
  | @finish left right position owners exhausted last =>
    have here : position ∈ progress.frame.owners := by simp [owners]
    have page := current position here
    rw [owners] at holds current placed
    refine ⟨tracks, ⟨kept, ?_, ?_, self⟩, ?_⟩
    · exact forall_mem_replace holds (fun _ _ same => same)
        ((holds position (by simp)).finish (page ▸ exhausted.items) (page ▸ last))
    · rw [ownersPlaced_replace] at placed
      exact ownersPlaced_replace ▸ placed
    · exact forall_mem_replace current (fun _ _ same => same) page
  | @refill left right position next owners exhausted more room read =>
    have here : position ∈ progress.frame.owners := by simp [owners]
    have page := current position here
    have held := holds position here
    obtain ⟨read, checked⟩ := refill_eq_ok read
    obtain ⟨-, -, cursor, -⟩ := checkRefill_eq_ok checked
    have served := serves.readPage read
    have follows : Follows (serve position.name progress.frame.publicationCoverage)
        (tracks position.name).current next := by
      rw [page]
      exact ⟨more, cursor ▸ served⟩
    have used : position.offset = (tracks position.name).current.items.length :=
      le_antisymm held.on.offset (page ▸ exhausted.items)
    rw [owners] at nodup holds current placed
    have apart (other : OwnerPosition) (member : other ∈ left ∨ other ∈ right) :=
      name_ne_of_mem nodup member
    refine ⟨Function.update tracks position.name ((tracks position.name).advance next),
      ⟨kept, ?_, ?_, self⟩, ?_⟩
    · refine forall_mem_replace holds (fun other member same => ?_) ?_
      · rwa [Function.update_of_ne (apart other member)]
      · change (Function.update tracks position.name _ position.name).Holds _ _ _
        rw [Function.update_self]
        exact held.refill follows served
    · rw [ownersPlaced_replace, ownersPlaced_update fun other member => apart other (.inl member),
        ownersPlaced_update fun other member => apart other (.inr member)]
      change List.Perm _ (_ ++ (Function.update tracks position.name _ position.name).consumed 0 ++
        _ ++ selfPlaced progress.frame)
      rw [Function.update_self]
      rw [ownersPlaced_replace, used, Track.consumed_length] at placed
      simpa [Track.advance, Track.consumed] using placed
    · refine forall_mem_replace current (fun other member same => ?_) ?_
      · dsimp only
        rwa [Function.update_of_ne (apart other member), Function.update_of_ne (apart other member)]
      · change (Function.update tracks position.name _ position.name).current =
          Function.update progress.pages position.name next position.name
        rw [Function.update_self, Function.update_self]
        rfl
  | @take left right position item owners known pending head least selfLater =>
    have here : position ∈ progress.frame.owners := by simp [owners]
    have page := current position here
    have head : (tracks position.name).current.items[position.offset]? = some item :=
      page ▸ head
    rw [owners] at holds current placed
    refine ⟨tracks, ⟨kept, ?_, ?_, self⟩, ?_⟩
    · exact forall_mem_replace holds (fun _ _ same => same)
        ((holds position (by simp)).consume pending (List.getElem?_eq_some_iff.mp head).1)
    · rw [ownersPlaced_replace] at placed ⊢
      change List.Perm _ (_ ++ (tracks position.name).consumed (position.offset + 1) ++ _ ++
        selfPlaced progress.frame)
      rw [Track.consumed_succ head, ← List.append_assoc]
      refine (placed.append_right [item]).trans ?_
      simp only [List.append_assoc]
      refine .append_left _ (.append_left _ ?_)
      rw [← List.append_assoc]
      exact List.perm_append_comm
    · exact forall_mem_replace current (fun _ _ same => same) page
  | @takeSelf item known unconsumed least =>
    obtain ⟨unplaced, unhealthy, rfl⟩ := selfCursorIncident_eq_some unconsumed
    refine ⟨tracks, ⟨kept, holds, ?_, fun _ => unhealthy⟩, current⟩
    have none : selfPlaced progress.frame = [] := by simp [selfPlaced, unplaced]
    rw [none, List.append_nil] at placed
    rw [← List.append_assoc]
    exact placed.append_right _

theorem Accounts.steps {progress final : Progress codec} (serves : Serves serve answer)
    (accounts : Accounts serve firsts tracks (earlier ++ progress.items) progress.frame)
    (current : ∀ position ∈ progress.frame.owners,
      (tracks position.name).current = progress.pages position.name)
    (steps : MergeSteps answer progress final) :
    ∃ after : Producer → Track codec,
      Accounts serve firsts after (earlier ++ final.items) final.frame ∧
      ∀ position ∈ final.frame.owners,
        (after position.name).current = final.pages position.name := by
  induction steps with
  | refl => exact ⟨tracks, accounts, current⟩
  | tail _ step ih =>
    obtain ⟨middle, accounts, current⟩ := ih
    exact accounts.step serves current step

theorem Accounts.finish {progress : Progress codec}
    (accounts : Accounts serve firsts tracks earlier progress.frame)
    (current : ∀ position ∈ progress.frame.owners,
      (tracks position.name).current = progress.pages position.name) :
    Accounts serve firsts tracks earlier progress.finish.frame := by
  -- Settling a position keeps its name and its offset.
  have name (position : OwnerPosition) (page : CursorOwnerPage codec) :
      (position.settle page).name = position.name := by
    unfold OwnerPosition.settle
    split <;> rfl
  have offset (position : OwnerPosition) (page : CursorOwnerPage codec) :
      (position.settle page).offset = position.offset := by
    unfold OwnerPosition.settle
    split <;> rfl
  refine ⟨?_, ?_, ?_, accounts.self⟩
  · rw [← accounts.names]
    simp [Progress.finish, name]
  · intro settled member
    obtain ⟨position, old, rfl⟩ := List.mem_map.mp member
    have holds := accounts.holds position old
    have page := current position old
    rw [name]
    unfold OwnerPosition.settle
    split
    next ended => exact holds.finish (page ▸ ended.1.ge) (page ▸ ended.2)
    next => exact holds
  · have same : ownersPlaced tracks progress.finish.frame.owners =
        ownersPlaced tracks progress.frame.owners := by
      simp [ownersPlaced, Progress.finish, List.flatMap_map, name, offset]
    rw [same]
    exact accounts.placed

def Work.Served (serve : Service codec) (work : Work codec) : Prop :=
  ∀ position ∈ work.node.frame.owners, serve position.name work.node.frame.publicationCoverage
    (work.pages position.name).cursor = some (work.pages position.name)

structure Draft.Served (serve : Service codec) (draft : Draft codec) : Prop where
  work : draft.toWork.Served serve
  answer : Serves serve draft.answer

theorem Accounts.page {draft : Draft codec} (sound : draft.Sound) (served : draft.Served serve)
    (accounts : Accounts serve firsts tracks earlier draft.node.frame) :
    ∃ after : Producer → Track codec,
      Accounts serve firsts after (earlier ++ draft.composed.items) draft.composed.frame := by
  have names : (draft.node.frame.owners.map (·.name)).Nodup := by
    rw [accounts.names]
    decide
  obtain ⟨final, steps, -, composed⟩ := compose_steps sound.composed names
  have start : Accounts serve firsts tracks (earlier ++ []) draft.node.frame := by
    simpa using accounts
  have current (position : OwnerPosition) (member : position ∈ draft.node.frame.owners) :
      (tracks position.name).current = draft.pages position.name :=
    (accounts.holds position member).current_eq (sound.on position member)
      (served.work position member)
  obtain ⟨after, done, pages⟩ := start.steps served.answer current steps
  rw [composed]
  exact ⟨after, @Accounts.finish codec serve firsts after _ final done pages⟩

/-! ## Chains that end -/

def selfItems (self : Status × Bool) : List Item :=
  if self.1 = .healthy then [] else [selfIncident self.1 self.2]

theorem more_eq_false {frame : CursorFrame} (used : frame.more = false) :
    selfCursorIncident frame = none ∧ ∀ position ∈ frame.owners, position.done = true := by
  simpa [CursorFrame.more] using used

/-- A frame with nothing left was taken through all pages, each of them whole. -/
theorem Accounts.complete {frame : CursorFrame}
    (accounts : Accounts serve firsts tracks earlier frame) (used : frame.more = false) :
    (∀ name, Complete (serve name frame.publicationCoverage) (firsts name) (tracks name).pages) ∧
      earlier.Perm ((tracks .gateway).pages.flatMap (·.items) ++
        (tracks .ingestion).pages.flatMap (·.items) ++
          selfItems (frame.selfStatus, frame.selfActionRequired)) := by
  obtain ⟨names, holds, placed, self⟩ := accounts
  obtain ⟨none, done⟩ := more_eq_false used
  have ends (position : OwnerPosition) (member : position ∈ frame.owners) :=
    (holds position member).complete (done position member)
  have selfWhole : selfPlaced frame = selfItems (frame.selfStatus, frame.selfActionRequired) := by
    unfold selfPlaced selfItems
    cases consumed : frame.selfConsumed with
    | true => simp [self consumed]
    | false =>
      have healthy : frame.selfStatus = .healthy := by
        by_contra unhealthy
        simp [selfCursorIncident, consumed, unhealthy] at none
      simp [healthy]
  have ownersWhole : ownersPlaced tracks frame.owners = (tracks .gateway).pages.flatMap (·.items) ++
      (tracks .ingestion).pages.flatMap (·.items) := by
    have whole : ownersPlaced tracks frame.owners =
        (frame.owners.map (·.name)).flatMap fun name => (tracks name).pages.flatMap (·.items) := by
      rw [List.flatMap_map]
      exact List.flatMap_congr fun position member => (ends position member).2
    rw [whole, names]
    simp
  constructor
  · intro name
    have listed : name ∈ frame.owners.map (·.name) := by
      rw [names]
      cases name <;> decide
    obtain ⟨position, member, rfl⟩ := List.mem_map.mp listed
    exact (ends position member).1
  · rw [selfWhole, ownersWhole] at placed
    exact placed

end Steps

end OufMcp.Cursor
