import OufMcp.Cursor.Served

/-!
# Whole chains

Two owners with a fixed chain of pages each, and a status of MCP that stays the
same.  A chain of responses that ends returned every incident of both owners and
the one of MCP itself exactly once, and no chain is longer than what there is to
return and to read.  No call reads the owners more than three times.
-/

namespace OufMcp.Cursor

open Ledger (UUID Time)
open Relational Transition Interaction

variable {codec : Codec}

/-! ## Chains of owner pages -/

/-- A finite chain of pages with one page per cursor. -/
structure OwnerChain (codec : Codec) where
  first : CursorOwnerPage codec
  rest : List (CursorOwnerPage codec)
  linked : (first :: rest).IsChain fun page next =>
    page.nextCursor ≠ "" ∧ page.nextCursor = next.cursor
  last : ((first :: rest).getLast (List.cons_ne_nil _ _)).nextCursor = ""
  distinct : ((first :: rest).map (·.cursor)).Nodup

namespace OwnerChain

def pages (chain : OwnerChain codec) : List (CursorOwnerPage codec) := chain.first :: chain.rest

def page (chain : OwnerChain codec) (token : String) : Option (CursorOwnerPage codec) :=
  chain.pages.find? fun page => decide (page.cursor = token)

def items (chain : OwnerChain codec) : List Item := chain.pages.flatMap (·.items)

theorem page_eq_some {chain : OwnerChain codec} {page : CursorOwnerPage codec}
    (member : page ∈ chain.pages) : chain.page page.cursor = some page := by
  cases found : chain.page page.cursor with
  | none => simpa using List.find?_eq_none.mp found page member
  | some other =>
    have same : other.cursor = page.cursor := of_decide_eq_true (List.find?_some found :)
    rw [List.inj_on_of_nodup_map chain.distinct (List.mem_of_find?_eq_some found) member same]

theorem complete (chain : OwnerChain codec) : Complete chain.page chain.first chain.pages where
  first := rfl
  linked := by
    refine chain.linked.imp_of_mem_imp fun page next _ member follows => ?_
    exact ⟨follows.1, follows.2 ▸ page_eq_some member⟩
  last page found := by
    have last : chain.pages.getLast? = some _ :=
      List.getLast?_eq_some_getLast (List.cons_ne_nil chain.first chain.rest)
    rw [← Option.some.inj (last.symm.trans found)]
    exact chain.last

end OwnerChain

theorem Complete.extends_path {serve : String → Option (CursorOwnerPage codec)}
    {first : CursorOwnerPage codec} {path whole : List (CursorOwnerPage codec)}
    (complete : Complete serve first whole) (start : path.head? = some first)
    (linked : path.IsChain (Follows serve)) : path <+: whole := by
  induction path generalizing first whole with
  | nil => cases start
  | cons page rest ih =>
    cases start
    obtain ⟨tail, rfl⟩ : ∃ tail, whole = page :: tail := by
      cases whole with
      | nil => cases complete.first
      | cons head tail =>
        cases complete.first
        exact ⟨tail, rfl⟩
    refine List.prefix_cons_inj page |>.mpr ?_
    cases rest with
    | nil => exact List.nil_prefix
    | cons second rest =>
      obtain ⟨follows, linked⟩ := List.isChain_cons_cons.mp linked
      cases tail with
      | nil => exact absurd (complete.last page rfl) follows.1
      | cons next tail =>
        obtain ⟨also, rest⟩ := List.isChain_cons_cons.mp complete.linked
        obtain rfl := Option.some.inj (follows.2.symm.trans also.2)
        exact ih ⟨rfl, rest, fun page found => complete.last page (by
          rw [List.getLast?_cons_cons]
          exact found)⟩ rfl linked

theorem Complete.unique {serve : String → Option (CursorOwnerPage codec)}
    {first : CursorOwnerPage codec} {path whole : List (CursorOwnerPage codec)}
    (one : Complete serve first path) (other : Complete serve first whole) : path = whole := by
  have shorter := other.extends_path one.first one.linked
  have longer := one.extends_path other.first other.linked
  exact shorter.eq_of_length (le_antisymm shorter.length_le longer.length_le)

/-! ## Scenarios -/

variable (codec) in
/-- Owners with one chain of pages each, and a status of MCP that stays the same. -/
structure Scenario where
  chain : Producer → OwnerChain codec
  self : Status × Bool

namespace Scenario

variable (scenario : Scenario codec)

def environment : Environment codec where
  serve name _ token := (scenario.chain name).page token
  opens name page := page = (scenario.chain name).first
  reports status := status = scenario.self

def items : List Item :=
  (scenario.chain .gateway).items ++ (scenario.chain .ingestion).items ++ selfItems scenario.self

variable {scenario}

theorem consumed_le {name : Producer} {position : OwnerPosition} {track : Track codec}
    (holds : track.Holds (scenario.chain name).page (scenario.chain name).first position) :
    (track.consumed position.offset).length + position.pageIndex + 1 ≤
      (scenario.chain name).items.length + (scenario.chain name).pages.length := by
  obtain ⟨rest, whole⟩ :=
    (scenario.chain name).complete.extends_path holds.first holds.linked
  have items : (track.consumed position.offset).length ≤ (scenario.chain name).items.length := by
    rw [OwnerChain.items, ← whole, List.flatMap_append, List.length_append, Track.pages,
      List.flatMap_append, List.length_append, Track.consumed, List.length_append]
    simp only [List.flatMap_singleton, List.length_take]
    omega
  have pages : position.pageIndex + 1 ≤ (scenario.chain name).pages.length := by
    rw [← whole, List.length_append, Track.pages, List.length_append, List.length_singleton,
      holds.index]
    omega
  omega

/-- A frame is numbered no higher than there is something to return or to read. -/
theorem number_le {coverage : Bool} {earlier : List Item} {frame : CursorFrame}
    (behind : Behind scenario.environment (fun name => (scenario.chain name).first) scenario.self
      coverage earlier frame) :
    frame.pageNumber + 1 ≤ (scenario.chain .gateway).items.length +
      (scenario.chain .ingestion).items.length + (scenario.chain .gateway).pages.length +
        (scenario.chain .ingestion).pages.length := by
  obtain ⟨⟨tracks, names, holds, placed, -⟩, -, -, count⟩ := behind
  obtain ⟨gateway, ingestion, owners⟩ :
      ∃ gateway ingestion, frame.owners = [gateway, ingestion] := by
    have two : frame.owners.length = 2 := by simpa using congrArg List.length names
    exact List.length_eq_two.mp two
  rw [owners] at names holds
  have first : gateway.name = .gateway := (List.cons.inj names).1
  have second : ingestion.name = .ingestion := (List.cons.inj (List.cons.inj names).2).1
  have one := holds gateway (by simp)
  have two := holds ingestion (by simp)
  rw [first] at one
  rw [second] at two
  have boundOne := consumed_le one
  have boundTwo := consumed_le two
  have self : (selfPlaced frame).length ≤ 1 := by
    unfold selfPlaced
    split <;> simp
  have length := placed.length_eq
  rw [List.length_append, owners, ownersPlaced, List.flatMap_cons, List.flatMap_singleton,
    List.length_append, first, second] at length
  have indexes : frame.pagesTurned = gateway.pageIndex + ingestion.pageIndex := by
    simp [CursorFrame.pagesTurned, CursorFrame.pageIndexes, owners]
  omega

end Scenario

/-! ## Reads of a call -/

def Phase.allowance : Phase codec → Nat
  | .idle | .resuming _ _ | .loaded _ _ _ => 0
  | .holding _ => 2
  | _ => 3

namespace Composers

def Frugal (state : Composers codec) : Prop :=
  ∀ call, state.reads call ≤ (state.calls call).allowance

variable {state next : Composers codec} {event : ComposerEvent}

theorem allowance_le (phase : Phase codec) : phase.allowance ≤ 3 := by
  cases phase <;> simp [Phase.allowance]

theorem allowance_cost (kept : state.Kept) :
    (state.calls event.call).allowance + state.cost event ≤ 3 := by
  unfold cost
  split
  next idle => simp [idle, Phase.allowance]
  next resuming => simp [resuming, Phase.allowance]
  next node loaded =>
    have created : node ∈ state.created := kept.held _ node (congrArg Phase.node? loaded)
    have owners := (validateCursorFrame_spec (kept.valid node created)).2.1
    simp [loaded, owners, Phase.allowance]
  next holding => simp [holding, Phase.allowance]
  next => exact allowance_le _

theorem Frugal.counts (frugal : state.Frugal) {phase : Phase codec}
    (reads : state.Counts event next.reads)
    (calls : next.calls = Function.update state.calls event.call phase)
    (allowed : (state.calls event.call).allowance + state.cost event ≤ phase.allowance) :
    next.Frugal := by
  obtain ⟨asked, few, reads⟩ := reads
  intro other
  rw [calls, reads]
  by_cases same : other = event.call
  · subst same
    rw [Function.update_self, Function.update_self]
    exact (Nat.add_le_add (frugal _) few).trans allowed
  · rw [Function.update_of_ne same, Function.update_of_ne same]
    exact frugal other

theorem Frugal.step (frugal : state.Frugal) (kept : state.Kept)
    (outcome : state.Outcome event next) : next.Frugal := by
  cases outcome with
  | fails enters => exact frugal.counts enters.reads enters.calls (allowance_cost kept)
  | resumes idle _ _ enters =>
    refine frugal.counts enters.reads enters.calls ?_
    simp [cost, ComposerEvent.call, idle, Phase.allowance]
  | loads idle _ _ enters =>
    refine frugal.counts enters.reads enters.calls ?_
    simp [cost, ComposerEvent.call, idle, Phase.allowance]
  | @readsBack call _ _ node _ _ _ _ before _ enters =>
    have created : node ∈ state.created := kept.held call node (before ▸ rfl)
    have owners := (validateCursorFrame_spec (kept.valid node created)).2.1
    refine frugal.counts enters.reads enters.calls ?_
    simp [cost, ComposerEvent.call, before, owners, Phase.allowance]
  | composes _ _ enters | seals _ _ _ _ enters =>
    exact frugal.counts enters.reads enters.calls (allowance_cost kept)
  | opens opens =>
    refine frugal.counts opens.reads opens.calls ?_
    rw [opens.capturing.cost_eq]
    cases opens.capturing with
    | starts idle => simp [ComposerEvent.call, idle, Phase.allowance]
    | resumes resuming => simp [ComposerEvent.call, resuming, Phase.allowance]
  | @commits call locked committedAt candidate _ _ commits =>
    have reads : state.Counts (.commit call locked committedAt candidate) next.reads :=
      commits.reads ▸ counts_none
    exact frugal.counts reads commits.calls (allowance_cost kept)

theorem frugal_of_reachable {guard : Composers codec → ComposerEvent → Prop}
    (reached : (composerSystem codec).Reachable guard state) : state.Frugal := by
  refine reached.induction ?_ fun source event target before frugal _ stepped => ?_
  · rintro _ ⟨now, rfl⟩ call
    exact Nat.zero_le _
  · exact frugal.step (kept_of_reachable before) (step_outcome stepped)

/-! ## Chains of responses -/

def Begins (state : Composers codec) (bodies : List (CursorPage × Option UUID)) : Prop :=
  ∃ first ∈ bodies.head?, ∃ node ∈ state.created,
    node.token = first.1.cursor ∧ node.frame.pageNumber = 0

/-- A response that goes on returned something or moved one owner on. -/
theorem Kept.advances (kept : state.Kept) {delivery : Delivery codec}
    (logged : delivery ∈ state.log) {token : UUID} (goesOn : delivery.next = some token) :
    delivery.page.items ≠ [] ∨ ∃ before ∈ state.created, ∃ after ∈ state.created,
      before.token = delivery.page.cursor ∧ after.token = token ∧
        Advanced before.frame.pageIndexes after.frame.pageIndexes := by
  obtain ⟨sound, created, linked⟩ := kept.delivered delivery logged
  have valid := kept.valid _ created
  rcases linked with ⟨-, last⟩ | ⟨frame, other, continued, next, made⟩
  · cases last.symm.trans goesOn
  obtain rfl := Option.some.inj (next.symm.trans goesOn)
  obtain ⟨more, rfl⟩ := (continued ▸ sound.page).continuation_eq
  obtain ⟨⟨_, -, page⟩, -⟩ := sound.page.spec
  rcases compose_advances sound.draft.composed (validateCursorFrame_names valid)
    (validateCursorFrame_spec valid).1 more with ⟨items, -⟩ | advanced
  · exact .inl (page ▸ items)
  · exact .inr ⟨_, created, _, made, (kept.cursor_eq logged).symm, rfl, advanced⟩

end Composers

theorem Captured.scenario {scenario : Scenario codec} {frame blank : CursorFrame}
    {status : Status × Bool} {firsts : Producer → CursorOwnerPage codec}
    (captured : Captured scenario.environment frame blank status firsts) :
    Behind scenario.environment (fun name => (scenario.chain name).first) scenario.self
      frame.publicationCoverage [] frame := by
  have opens : firsts = fun name => (scenario.chain name).first := funext captured.opens
  have reported : status = scenario.self := captured.reported
  exact opens ▸ reported ▸ captured.behind

/-- A page that ends a chain completes what there is to return. -/
theorem Scenario.perm_of_last {scenario : Scenario codec} {coverage : Bool} {earlier : List Item}
    {draft : Draft codec} (sound : draft.Sound) (served : draft.Served scenario.environment.serve)
    (behind : Behind scenario.environment (fun name => (scenario.chain name).first) scenario.self
      coverage earlier draft.node.frame) (last : draft.composed.more = false) :
    (earlier ++ draft.composed.items).Perm scenario.items := by
  obtain ⟨⟨tracks, accounts⟩, status, -⟩ := behind.composed sound served
  obtain ⟨complete, placed⟩ := accounts.complete ((compose_more sound.composed).trans last)
  have whole (name : Producer) : (tracks name).pages = (scenario.chain name).pages :=
    (complete name).unique (scenario.chain name).complete
  rw [whole, whole, status] at placed
  exact placed

/-- Along the responses that one start and its continuations return, every incident of
both owners and the one of MCP itself is returned exactly once, and there is progress. -/
theorem chain_exhaustive (scenario : Scenario codec) {state : Composers codec}
    (reached : (composerSystem codec).Reachable
      (fun _ event => scenario.environment.Allows event) state) :
    (∀ bodies, state.Responses bodies → state.Begins bodies →
      bodies.length ≤ (scenario.chain .gateway).items.length +
        (scenario.chain .ingestion).items.length + (scenario.chain .gateway).pages.length +
          (scenario.chain .ingestion).pages.length ∧
      ∀ last, bodies.getLast? = some last → last.2 = none →
        (bodies.flatMap (·.1.items)).Perm scenario.items) ∧
    (∀ call body, (state.calls call).response? = some body →
      (∀ token, body.2 = some token → body.1.items ≠ [] ∨
        ∃ before ∈ state.created, ∃ after ∈ state.created, before.token = body.1.cursor ∧
          after.token = token ∧ Advanced before.frame.pageIndexes after.frame.pageIndexes) ∧
      (body.1.truncated = false ↔ body.2 = none)) ∧
    ∀ call, state.reads call ≤ 3 := by
  have kept := Composers.kept_of_reachable reached
  have served := Composers.served_of_reachable reached
  refine ⟨fun bodies responses begins => ?_, fun call body returned => ?_, fun call => ?_⟩
  · obtain ⟨deliveries, chain, rfl⟩ := responses.chain reached
    obtain ⟨start, head, node, member, token, number⟩ := begins
    cases deliveries with
    | nil => cases head
    | cons first rest =>
      cases head
      have created := (kept.delivered first (chain.logged first List.mem_cons_self)).2.1
      rw [kept.cursor_eq (chain.logged first List.mem_cons_self)] at token
      obtain rfl := kept.distinct node member first.node created token
      obtain ⟨blank, status, firsts, captured⟩ := served.captured _ created number
      have behind := served.chain kept chain captured.scenario
      refine ⟨?_, fun last final ended => ?_⟩
      · have bound := Scenario.number_le behind
        rw [kept.chain_number chain, number] at bound
        simpa using bound
      · have present : first :: rest ≠ [] := List.cons_ne_nil _ _
        have logged := chain.logged _ (List.getLast_mem present)
        rw [List.getLast?_map, List.getLast?_eq_some_getLast present] at final
        cases final
        have sound := (kept.delivered _ logged).1
        have done := Scenario.perm_of_last sound.draft (served.delivered _ logged) behind
          ((kept.next_eq_none logged).mp ended)
        obtain ⟨⟨_, -, page⟩, -⟩ := sound.page.spec
        rw [List.flatMap_map]
        nth_rewrite 1 [← List.dropLast_append_getLast present]
        rw [List.flatMap_append, List.flatMap_singleton, page]
        exact done
  · obtain ⟨delivery, logged, rfl⟩ := Composers.response_delivered reached returned
    refine ⟨fun token goesOn => kept.advances logged goesOn, ?_⟩
    obtain ⟨⟨_, -, page⟩, -⟩ := (kept.delivered delivery logged).1.page.spec
    rw [kept.next_eq_none logged, page]
    exact Iff.rfl
  · exact (Composers.frugal_of_reachable reached call).trans (Composers.allowance_le _)

def samplePage (name : Producer) : CursorOwnerPage sampleCodec :=
  match decodeCursorOwnerPage sampleCodec 0 (sampleBody name) name with
  | .ok page => page
  | .error _ => .zero sampleCodec

theorem samplePage_nextCursor (name : Producer) : (samplePage name).nextCursor = "" := by
  cases name <;> decide +kernel

def sampleScenario : Scenario sampleCodec where
  chain name :=
    { first := samplePage name
      rest := []
      linked := List.isChain_singleton _
      last := samplePage_nextCursor name
      distinct := List.nodup_singleton _ }
  self := (.degraded, true)

theorem sampleAnswer_page {read : OwnerRead} {body : OwnerBody}
    {page : CursorOwnerPage sampleCodec} (replied : (sampleAnswer read).body = some body)
    (decoded : decodeCursorOwnerPage sampleCodec (sampleAnswer read).decodedAt body
      read.producer = .ok page) : page = samplePage read.producer := by
  cases replied
  unfold samplePage
  change decodeCursorOwnerPage sampleCodec 0 (sampleBody read.producer) read.producer = _ at decoded
  rw [decoded]

theorem sampleScenario_allows {event : ComposerEvent} (member : event ∈ pagedTwice) :
    sampleScenario.environment.Allows event := by
  have brings : ∀ event ∈ pagedTwice, (∀ answer, event.answer = some answer →
      answer = sampleAnswer) ∧ ∀ self, event.self = some self → self = sampleSelf := by
    simp [pagedTwice, finishCall, ComposerEvent.answer, ComposerEvent.self]
  obtain ⟨replies, reports⟩ := brings event member
  refine ⟨?_, ?_, ?_⟩
  · intro answer brought read body page replied decoded
    obtain rfl := replies answer brought
    rw [sampleAnswer_page replied decoded]
    exact OwnerChain.page_eq_some List.mem_cons_self
  · intro answer brought read body page replied decoded _
    obtain rfl := replies answer brought
    exact sampleAnswer_page replied decoded
  · intro self status brought reported
    obtain rfl := reports self brought
    cases reported
    rfl

theorem chain_exhaustive_pagedTwice :
    ∃ state, replayComposers pagedTwice = some state ∧ sampleScenario.items.length = 2 ∧
      ((state.bodies [0, 2]).flatMap (·.1.items)).Perm sampleScenario.items := by
  obtain ⟨state, replayed, reached, runs⟩ :=
    pagedTwice_reachable fun event member _ => sampleScenario_allows member
  obtain ⟨first, returnedFirst, summaryFirst⟩ := runs.first
  obtain ⟨last, returnedLast, summaryLast⟩ := runs.last
  have bodies : state.bodies [0, 2] = [first, last] := by
    simp [Composers.bodies, returnedFirst, returnedLast]
  obtain ⟨node, member, token, number⟩ := runs.opened
  have cursor : first.1.cursor = 1 := congrArg Prod.fst summaryFirst
  have ended : last.2 = none := congrArg (fun summary => summary.2.1) summaryLast
  have whole := (chain_exhaustive sampleScenario reached).1 _
    (Composers.responses_bodies runs.bodies.2)
    ⟨first, by rw [bodies]; rfl, node, member, token.trans cursor.symm, number⟩
  exact ⟨state, replayed, by decide +kernel, whole.2 last (by rw [bodies]; rfl) ended⟩

end OufMcp.Cursor
