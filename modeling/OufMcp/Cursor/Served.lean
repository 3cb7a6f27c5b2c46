import OufMcp.Cursor.Account

/-!
# Runs over consistent owners

In a run whose owners serve one page per cursor, whatever a call holds was served,
and a session starts from the pages its capture was given.  From there the account
of a chain is carried to every node of it, together with a count of its pages: a
page that has a continuation returned something or moved one owner on.
-/

namespace OufMcp.Cursor

open Ledger (UUID Time)
open Relational Transition Interaction

variable {codec : Codec}

/-! ## Environments -/

variable (codec) in
/-- What the owners and the status of MCP itself may answer. -/
structure Environment where
  serve : Service codec
  /-- The pages a capture may be given. -/
  opens : Producer → CursorOwnerPage codec → Prop
  reports : Status × Bool → Prop

def Opens (opens : Producer → CursorOwnerPage codec → Prop) (answer : OwnerRead → OwnerReply) :
    Prop :=
  ∀ read body page, (answer read).body = some body →
    decodeCursorOwnerPage codec (answer read).decodedAt body read.producer = .ok page →
    read.query.opening = true → opens read.producer page

/-- The replies an event brings are those of the environment. -/
structure Environment.Allows (environment : Environment codec) (event : ComposerEvent) :
    Prop where
  serves : ∀ answer, event.answer = some answer → Serves environment.serve answer
  opens : ∀ answer, event.answer = some answer → Opens environment.opens answer
  reports : ∀ self status, event.self = some self → currentSelf self = .ok status →
    environment.reports status

/-- A frame as a capture makes it. -/
structure Captured (environment : Environment codec) (frame blank : CursorFrame)
    (status : Status × Bool) (firsts : Producer → CursorOwnerPage codec) : Prop where
  made : frame = blank.captured status (firsts .gateway) (firsts .ingestion)
  number : blank.pageNumber = 0
  unconsumed : blank.selfConsumed = false
  served : ∀ name, environment.serve name frame.publicationCoverage (firsts name).cursor =
    some (firsts name)
  opens : ∀ name, environment.opens name (firsts name)
  reported : environment.reports status
  covered : ∀ name, checkCoverage blank name (firsts name) = .ok ()

section Captures

variable {environment : Environment codec} {answer : OwnerRead → OwnerReply}

theorem Opens.callProducer {opens : Producer → CursorOwnerPage codec → Prop}
    (opened : Opens opens answer) {scopeSource : String} {query : OwnerQuery}
    {producer : Producer} {page : CursorOwnerPage codec} (opening : query.opening = true)
    (ran : (callProducer codec scopeSource query producer).run answer = .ok page) :
    opens producer page := by
  simp only [Cursor.callProducer, Dialogue.run_bind_eq_ok] at ran
  obtain ⟨read, made, reply, replied, body, found, decoded⟩ := ran
  have same := producerRead_eq_some (demand_eq_ok.mp made)
  cases replied
  obtain rfl := same.1
  exact opened read body page (demand_eq_ok.mp found) decoded (same.2.2.trans opening)

theorem validateCursorFrame_spec {frame : CursorFrame}
    (valid : validateCursorFrame codec frame = .ok ()) :
    1 ≤ frame.pageLimit ∧ frame.owners.length = 2 ∧
      validatePublicationCapture codec frame = .ok () := by
  simp only [validateCursorFrame, bind_eq_ok, ensure_eq_ok] at valid
  obtain ⟨_, ⟨-, limit, -, -, two⟩, _, -, _, capture, -⟩ := valid
  exact ⟨limit, two, capture⟩

theorem validatePublicationCapture_base {frame : CursorFrame}
    (valid : validatePublicationCapture codec frame = .ok ())
    (uncovered : frame.publicationCoverage = false) : frame.publicationBase = none := by
  rw [validatePublicationCapture, if_pos uncovered] at valid
  simp only [bind_eq_ok, ensure_eq_ok] at valid
  obtain ⟨_, ⟨-, base⟩, -⟩ := valid
  exact base

theorem captureQuery_coverage {frame : CursorFrame} (name : Producer)
    (based : frame.publicationCoverage = false → frame.publicationBase = none) :
    (captureQuery frame name).coverage = frame.publicationCoverage ∧
      (captureQuery frame name).opening = true := by
  unfold captureQuery
  cases base : frame.publicationBase with
  | none => exact ⟨rfl, rfl⟩
  | some vector =>
    cases covered : frame.publicationCoverage with
    | true => exact ⟨rfl, rfl⟩
    | false =>
      rw [based covered] at base
      cases base

theorem captureOwner_served {event : ComposerEvent} (allowed : environment.Allows event)
    (replies : event.answer = some answer) {frame : CursorFrame} {name : Producer}
    {page : CursorOwnerPage codec}
    (based : frame.publicationCoverage = false → frame.publicationBase = none)
    (ran : (captureOwner frame name).run answer = .ok page) :
    environment.serve name frame.publicationCoverage page.cursor = some page ∧
      environment.opens name page := by
  obtain ⟨coverage, opening⟩ := captureQuery_coverage name based
  simp only [captureOwner, Dialogue.run_bind_eq_ok] at ran
  obtain ⟨_, called, _, -, done⟩ := ran
  cases done
  have served := (allowed.serves answer replies).callProducer called
  rw [coverage] at served
  exact ⟨served, (allowed.opens answer replies).callProducer opening called⟩

theorem capture_captured {event : ComposerEvent} (allowed : environment.Allows event)
    {self : Option SelfReply} (replies : event.answer = some answer)
    (reports : event.self = some self) {blank captured : CursorFrame}
    {pages : Producer → CursorOwnerPage codec}
    (ran : (capture codec blank self).run answer = .ok (captured, pages))
    (number : blank.pageNumber = 0) (unconsumed : blank.selfConsumed = false) :
    ∃ status, Captured environment captured blank status pages := by
  obtain ⟨valid, status, gateway, ingestion, rfl, rfl, reported, first, second⟩ := capture_eq_ok ran
  have based := validatePublicationCapture_base (validateCursorFrame_spec valid).2.2
  obtain ⟨servedFirst, opensFirst⟩ := captureOwner_served allowed replies based first
  obtain ⟨servedSecond, opensSecond⟩ := captureOwner_served allowed replies based second
  refine ⟨status, rfl, number, unconsumed, ?_, ?_, allowed.reports self status reports reported, ?_⟩
  · intro name
    cases name with
    | gateway => exact servedFirst
    | ingestion => exact servedSecond
  · intro name
    cases name with
    | gateway => exact opensFirst
    | ingestion => exact opensSecond
  · intro name
    cases name with
    | gateway => exact captureOwner_covered first
    | ingestion => exact captureOwner_covered second

theorem Captured.accounts {frame blank : CursorFrame} {status : Status × Bool}
    {firsts : Producer → CursorOwnerPage codec}
    (captured : Captured environment frame blank status firsts) :
    Accounts environment.serve firsts (fun name => ⟨[], firsts name⟩) [] frame := by
  obtain ⟨rfl, -, unconsumed, served, -, -, -⟩ := captured
  refine ⟨rfl, ?_, ?_, ?_⟩
  · intro position member
    rcases List.mem_pair.mp member with rfl | rfl
    · exact .start (served .gateway)
    · exact .start (served .ingestion)
  · simp [ownersPlaced, selfPlaced, CursorFrame.captured, CursorOwnerPage.position, Track.consumed,
      unconsumed]
  · intro consumed
    cases unconsumed.symm.trans consumed

end Captures

/-! ## What calls hold -/

structure Blank (frame : CursorFrame) : Prop where
  number : frame.pageNumber = 0
  unconsumed : frame.selfConsumed = false

def Phase.Served (serve : Service codec) : Phase codec → Prop
  | .resuming _ frame => Blank frame
  | .holding work => work.Served serve
  | .composed draft => draft.Served serve
  | .ready draft _ _ => draft.Served serve
  | _ => True

/-- Whatever calls hold was served, and sessions start from captures. -/
structure Composers.Served (environment : Environment codec) (state : Composers codec) : Prop where
  phases : ∀ call, (state.calls call).Served environment.serve
  delivered : ∀ delivery ∈ state.log, delivery.toDraft.Served environment.serve
  captured : ∀ node ∈ state.created, node.frame.pageNumber = 0 →
    ∃ blank status firsts, Captured environment node.frame blank status firsts

namespace Composers

variable {environment : Environment codec} {state next : Composers codec} {event : ComposerEvent}

theorem Served.enters (served : state.Served environment) {phase : Phase codec}
    (enters : state.Enters event next phase) (here : phase.Served environment.serve) :
    next.Served environment where
  phases := forall_calls enters.calls here served.phases
  delivered := enters.log ▸ served.delivered
  captured := enters.created ▸ served.captured

theorem startFrame_blank {publication : Bool} {arguments : Filters} {frame : CursorFrame}
    (started : startFrame codec publication arguments = .ok frame) : Blank frame := by
  simp only [startFrame, bind_eq_ok] at started
  obtain ⟨_, -, started⟩ := started
  split at started
  all_goals
    simp only [bind_eq_ok, pure_eq_ok] at started
    obtain ⟨_, -, rfl⟩ := started
    exact ⟨rfl, rfl⟩

theorem Capturing.blank {caller : Caller} {frame : CursorFrame} {answer : OwnerRead → OwnerReply}
    {self : Option SelfReply} {fresh : CreateInputs}
    (capturing : state.Capturing event caller frame answer self fresh)
    (served : state.Served environment) : Blank frame := by
  cases capturing with
  | starts _ started => exact startFrame_blank started
  | @resumes call _ _ _ _ _ resuming =>
    have phase := served.phases call
    rw [resuming] at phase
    exact phase

theorem mem_opened {node created : CursorNode} {candidate : UUID}
    {continuation : Option CursorFrame} {result : Option UUID}
    (member : created ∈ opened node candidate continuation result) :
    continuation = some created.frame := by
  rcases opened_eq node candidate continuation result with none | ⟨new, one, -, continued⟩
  · rw [none] at member
    cases member
  · rw [one] at member
    rw [List.mem_singleton.mp member, continued]

theorem Served.step (served : state.Served environment) (kept : state.Kept)
    (allowed : environment.Allows event) (outcome : state.Outcome event next) :
    next.Served environment := by
  cases outcome with
  | fails enters => exact served.enters enters trivial
  | resumes _ _ _ enters => exact served.enters enters ⟨rfl, rfl⟩
  | loads _ _ _ enters => exact served.enters enters trivial
  | @readsBack call _ _ node _ answer _ _ before ran enters =>
    refine served.enters enters fun position member => ?_
    have created : node ∈ state.created := kept.held call node (before ▸ rfl)
    have read := readBack_eq_ok ran (validateCursorFrame_names (kept.valid node created))
    have back := (read position member).2.2
    simp only [readBackOwner, Dialogue.run_bind_eq_ok] at back
    obtain ⟨_, paged, _, -, _, -, done⟩ := back
    cases done
    exact (allowed.serves answer rfl).readPage paged
  | @composes call _ answer _ _ before _ enters =>
    have phase := served.phases call
    rw [before] at phase
    exact served.enters enters ⟨phase, allowed.serves answer rfl⟩
  | @seals call _ _ _ _ _ _ _ _ _ before _ _ _ enters =>
    have phase := served.phases call
    rw [before] at phase
    exact served.enters enters phase
  | @opens _ _ work blank _ _ _ opens =>
    obtain ⟨number, unconsumed⟩ := opens.capturing.blank served
    obtain ⟨replies, reports⟩ := opens.capturing.brings
    obtain ⟨status, start⟩ :=
      capture_captured allowed replies reports opens.ran number unconsumed
    refine ⟨forall_calls opens.calls ?_ served.phases, opens.log ▸ served.delivered, ?_⟩
    · exact fun position _ => start.served position.name
    · rw [opens.created]
      intro other member first
      rcases List.mem_cons.mp member with rfl | old
      · exact ⟨blank, status, work.pages, start⟩
      · exact served.captured other old first
  | @commits call _ _ _ _ _ commits =>
    have phase := served.phases call
    rw [commits.before] at phase
    obtain ⟨-, names, sound⟩ := kept.ready commits.before
    refine ⟨forall_calls commits.calls trivial served.phases, ?_, ?_⟩
    · rw [commits.log]
      exact List.forall_mem_cons.mpr ⟨phase, served.delivered⟩
    · rw [commits.created]
      intro other member first
      rcases List.mem_append.mp member with new | old
      · -- A continuation is never a first page.
        have number := (mem_opened new ▸ sound.2).pageNumber sound.1 names
        omega
      · exact served.captured other old first

theorem served_of_reachable
    (reached : (composerSystem codec).Reachable (fun _ event => environment.Allows event) state) :
    state.Served environment := by
  refine reached.induction ?_ fun source event target before served allowed stepped => ?_
  · rintro _ ⟨now, rfl⟩
    refine ⟨fun _ => trivial, ?_, ?_⟩
    · intro _ impossible
      cases impossible
    · intro _ impossible
      cases impossible
  · exact served.step (kept_of_reachable before) allowed (step_outcome stepped)

end Composers

/-! ## Along a chain -/

/-- What the pages of a chain up to a frame have returned. -/
structure Behind (environment : Environment codec) (firsts : Producer → CursorOwnerPage codec)
    (status : Status × Bool) (coverage : Bool) (earlier : List Item) (frame : CursorFrame) :
    Prop where
  accounts : ∃ tracks, Accounts environment.serve firsts tracks earlier frame
  status : (frame.selfStatus, frame.selfActionRequired) = status
  coverage : frame.publicationCoverage = coverage
  count : frame.pageNumber ≤ earlier.length + frame.pagesTurned

section Chains

variable {environment : Environment codec} {firsts : Producer → CursorOwnerPage codec}
  {status : Status × Bool} {coverage : Bool} {earlier : List Item}

theorem Captured.behind {frame blank : CursorFrame}
    (captured : Captured environment frame blank status firsts) :
    Behind environment firsts status frame.publicationCoverage [] frame := by
  refine ⟨⟨_, captured.accounts⟩, ?_, rfl, ?_⟩
  · rw [captured.made]
    rfl
  · rw [captured.made]
    exact captured.number.le.trans (Nat.zero_le _)

theorem Advanced.pagesTurned {frame after : CursorFrame}
    (advanced : Advanced frame.pageIndexes after.pageIndexes) :
    after.pagesTurned = frame.pagesTurned + 1 := by
  obtain ⟨left, index, right, before, later⟩ := advanced
  rw [CursorFrame.pagesTurned, CursorFrame.pagesTurned, before, later]
  clear before later
  induction left with
  | nil => exact Nat.succ_add index _
  | cons other left ih =>
    simp only [List.cons_append, List.foldr_cons]
    omega

theorem Behind.composed {draft : Draft codec} (sound : draft.Sound)
    (served : draft.Served environment.serve)
    (behind : Behind environment firsts status coverage earlier draft.node.frame) :
    (∃ tracks, Accounts environment.serve firsts tracks (earlier ++ draft.composed.items)
      draft.composed.frame) ∧
    (draft.composed.frame.selfStatus, draft.composed.frame.selfActionRequired) = status ∧
    draft.composed.frame.publicationCoverage = coverage := by
  obtain ⟨tracks, accounts⟩ := behind.accounts
  have names : (draft.node.frame.owners.map (·.name)).Nodup := by
    rw [accounts.names]
    decide
  have alike := compose_alike sound.composed names
  refine ⟨accounts.page sound served, ?_, alike.publicationCoverage.trans behind.coverage⟩
  rw [alike.selfStatus, alike.selfActionRequired]
  exact behind.status

/-- A continuation is behind what its page returned, and one page further. -/
theorem Behind.continuation {draft : Draft codec} {page : CursorPage} {frame : CursorFrame}
    (sound : draft.Sound) (served : draft.Served environment.serve)
    (valid : validateCursorFrame codec draft.node.frame = .ok ())
    (sealed : draft.Sealed page (some frame))
    (behind : Behind environment firsts status coverage earlier draft.node.frame) :
    Behind environment firsts status coverage (earlier ++ page.items) frame := by
  have names := validateCursorFrame_names valid
  have number := sealed.pageNumber sound names
  obtain ⟨⟨_, -, rfl⟩, -⟩ := sealed.spec
  obtain ⟨more, rfl⟩ := sealed.continuation_eq
  obtain ⟨⟨tracks, accounts⟩, reported, covered⟩ := behind.composed sound served
  refine ⟨⟨tracks, accounts.names, accounts.holds, accounts.placed, accounts.self⟩, reported,
    covered, ?_⟩
  have count := behind.count
  rw [number]
  change _ ≤ (earlier ++ draft.composed.items).length + draft.composed.frame.pagesTurned
  rw [List.length_append]
  rcases compose_advances sound.composed names (validateCursorFrame_spec valid).1 more with
    ⟨items, same⟩ | advanced
  · have some := List.length_pos_of_ne_nil items
    have turned : draft.composed.frame.pagesTurned = draft.node.frame.pagesTurned := by
      rw [CursorFrame.pagesTurned, CursorFrame.pagesTurned, same]
    omega
  · rw [advanced.pagesTurned]
    omega

theorem Composers.Served.chain {state : Composers codec} (served : state.Served environment)
    (kept : state.Kept) {first : Delivery codec} {rest : List (Delivery codec)}
    (chain : state.Chain (first :: rest))
    (behind : Behind environment firsts status coverage [] first.node.frame) :
    Behind environment firsts status coverage
      ((first :: rest).dropLast.flatMap (·.page.items))
      ((first :: rest).getLast (List.cons_ne_nil _ _)).node.frame := by
  refine kept.chain_induction
    (fun delivery logged frame continued earlier behind => ?_) chain behind
  obtain ⟨sound, created, -⟩ := kept.delivered delivery logged
  exact behind.continuation sound.draft (served.delivered delivery logged) (kept.valid _ created)
    (continued ▸ sound.page)

theorem Composers.Kept.chain_number {state : Composers codec} (kept : state.Kept)
    {first : Delivery codec} {rest : List (Delivery codec)} (chain : state.Chain (first :: rest)) :
    ((first :: rest).getLast (List.cons_ne_nil _ _)).node.frame.pageNumber =
      first.node.frame.pageNumber + rest.length := by
  induction rest generalizing first with
  | nil => rfl
  | cons second rest ih =>
    obtain ⟨next, linked⟩ := List.isChain_cons_cons.mp chain.linked
    have logged := chain.logged first List.mem_cons_self
    obtain ⟨sound, created, -⟩ := kept.delivered first logged
    have member := (kept.delivered second (chain.logged second (by simp))).2.1
    have number := ((kept.continues logged member next).1 ▸ sound.page).pageNumber sound.draft
      (validateCursorFrame_names (kept.valid _ created))
    have last := ih ⟨fun delivery member => chain.logged delivery (.tail _ member), linked⟩
    rw [List.getLast_cons_cons, last, number, List.length_cons]
    omega

end Chains

end OufMcp.Cursor
