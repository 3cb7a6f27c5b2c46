import Mathlib.Data.List.DropRight
import Mathlib.Logic.Equiv.List
import OufMcp.Cursor.Account
import OufMcp.Json.Decode

/-!
# Idempotency keys of owner reads

Every owner read is admitted under a key made of a parent id, the capability and the
digest of its arguments.  All entry points but one add a new identifier to the attempt
id before they read, so their keys never meet; `PublicationComposer.Start` takes the
attempt id as it comes.  Within one invocation the reads differ in the owner or in the
arguments.
-/

namespace OufMcp.Cursor

open Ledger (UUID)
open Relational Interaction

/-! ## Keys -/

def filterText (filters : Filters) (name : String) : Option String :=
  (filters.lookup name).map fun value => stringValue (some value)

def textMembers (filters : Filters) (names : List String) : Json.Members Int :=
  names.filterMap fun name => (filterText filters name).map fun text => (name, .str text)

def coverageMember (coverage : Bool) : Json.Members Int :=
  if coverage then [("coverage", .bool true)] else []

/-- The arguments of a read, with its members in the order of their names.  Filters that
were accepted hold no other members. -/
def OwnerQuery.arguments : OwnerQuery → Json.Value String Int
  | .snapshot filters coverage =>
    .obj (coverageMember coverage ++ ("limit", .num 100) :: textMembers filters ["since"] ++
      ("snapshot", .bool true) :: textMembers filters ["sourceId", "state"])
  | .resumeFrom bookmark => .obj [("limit", .num 100), ("resumeFrom", .str bookmark)]
  | .cursor token coverage => .obj (coverageMember coverage ++ [("cursor", .str token)])

def Producer.capabilityId : Producer → String
  | .gateway => "ouf.gateway.operations.incidents"
  | .ingestion => "ouf.ingestion.operations.incidents"

/-- The texts a key is made of: an identifier is told by its text and has no colon in it, and
neither has an ideal digest. -/
structure KeyTexts (codec : Codec) where
  uuid_injective : Function.Injective codec.uuidText
  uuid_plain : ∀ id, ':' ∉ (codec.uuidText id).toList
  sha256Hex : ByteArray → String
  sha256_injective : Function.Injective sha256Hex
  sha256_plain : ∀ bytes, ':' ∉ (sha256Hex bytes).toList

variable {codec : Codec}

def KeyTexts.idempotency (texts : KeyTexts codec) (parent : String) (read : OwnerRead) : String :=
  parent ++ ":" ++ read.producer.capabilityId ++ ":" ++
    texts.sha256Hex (Json.marshal Json.integers read.query.arguments)

def lastField (text : List Char) : List Char := text.rtakeWhile (· ≠ ':')

theorem lastField_append {front last : List Char} (plain : ':' ∉ last) :
    lastField (front ++ ':' :: last) = last := by
  have inside : ∀ c ∈ last.reverse, decide (c ≠ ':') = true := by
    intro c member
    refine decide_eq_true ?_
    rintro rfl
    exact plain (List.mem_reverse.mp member)
  simp only [lastField, List.rtakeWhile, List.reverse_append, List.reverse_cons, List.append_assoc]
  rw [List.takeWhile_append_of_pos inside]
  simp

theorem lastField_of_plain {text : List Char} (plain : ':' ∉ text) : lastField text = text := by
  refine List.rtakeWhile_eq_self_iff.mpr ?_
  intro c member
  refine decide_eq_true ?_
  rintro rfl
  exact plain member

theorem lastField_inj {a b x y : List Char} (plainX : ':' ∉ x) (plainY : ':' ∉ y)
    (same : a ++ ':' :: x = b ++ ':' :: y) : a = b ∧ x = y := by
  have last : x = y := by
    rw [← lastField_append plainX, same, lastField_append plainY]
  subst last
  exact ⟨List.append_cancel_right same, rfl⟩

theorem Producer.capabilityId_plain (producer : Producer) :
    ':' ∉ producer.capabilityId.toList := by
  cases producer <;> decide

theorem Producer.capabilityId_injective : Function.Injective Producer.capabilityId := by
  intro a b same
  cases a <;> cases b <;> first | rfl | exact absurd same (by decide)

theorem KeyTexts.idempotency_toList (texts : KeyTexts codec) (parent : String) (read : OwnerRead) :
    (texts.idempotency parent read).toList =
      (parent.toList ++ ':' :: read.producer.capabilityId.toList) ++
        ':' :: (texts.sha256Hex (Json.marshal Json.integers read.query.arguments)).toList := by
  simp [idempotency]

/-- A key tells the parent, the owner and the arguments. -/
theorem KeyTexts.idempotency_inj (texts : KeyTexts codec) {p q : String} {a b : OwnerRead}
    (same : texts.idempotency p a = texts.idempotency q b) :
    p = q ∧ a.producer = b.producer ∧ a.query.arguments = b.query.arguments := by
  have chars := congrArg String.toList same
  rw [idempotency_toList, idempotency_toList] at chars
  obtain ⟨front, digest⟩ := lastField_inj (texts.sha256_plain _) (texts.sha256_plain _) chars
  obtain ⟨parent, capability⟩ :=
    lastField_inj a.producer.capabilityId_plain b.producer.capabilityId_plain front
  refine ⟨String.toList_injective parent,
    Producer.capabilityId_injective (String.toList_injective capability), ?_⟩
  exact Json.marshal_injective _ (texts.sha256_injective (String.toList_injective digest))

/-! ## Invocations -/

inductive EntryPoint where
  | cursorStart
  | cursorPage
  | publicationStart
  | publicationPage
  | publicationResume
  deriving DecidableEq, Repr

/-- What an entry point puts between the attempt id and a new identifier. -/
def EntryPoint.mark : EntryPoint → Option String
  | .cursorStart | .cursorPage => some ":cursor-read:"
  | .publicationStart => none
  | .publicationPage => some ":publication-page:"
  | .publicationResume => some ":publication-resume:"

/-- What the owners are read for: a capture, or a page of a frame that was loaded. -/
inductive Target where
  | capture (blank : CursorFrame)
  | page (frame : CursorFrame)

/-- What an entry point reads for, by the checks it makes before. -/
def EntryPoint.Admits (codec : Codec) : EntryPoint → Target → Prop
  | .cursorStart, .capture blank => ∃ arguments, startFrame codec false arguments = .ok blank
  | .publicationStart, .capture blank => ∃ arguments, startFrame codec true arguments = .ok blank
  | .publicationResume, .capture blank =>
    ∃ limit retained, resumeFrame codec limit retained = .ok blank
  | .cursorPage, .page frame =>
    validateCursorFrame codec frame = .ok () ∧ frame.publicationCoverage = false
  | .publicationPage, .page frame =>
    validateCursorFrame codec frame = .ok () ∧ frame.publicationCoverage = true
  | _, _ => False

/-- One call of an entry point, with what the owners answer to its first reads and to a refill. -/
structure Invocation (codec : Codec) where
  entry : EntryPoint
  attemptId : String
  correlationId : String
  /-- Drawn by the entry point. -/
  fresh : UUID
  /-- Drawn by a read that finds no parent id. -/
  draws : Nat → UUID
  target : Target
  admitted : entry.Admits codec target
  self : Option SelfReply
  answer : OwnerRead → OwnerReply
  refilled : OwnerRead → OwnerReply

/-- Both owners are asked at once, whatever the other answers. -/
def captureReads (blank : CursorFrame) : List OwnerRead :=
  [Producer.ingestion, .gateway].filterMap fun name =>
    producerRead (captureScope blank) (captureQuery blank name) name

namespace Invocation

variable (i j : Invocation codec)

def firstReads : List OwnerRead :=
  match i.target with
  | .capture blank => captureReads blank
  | .page frame => (readBack codec frame i.self).asked i.answer

def refills : List OwnerRead :=
  match i.target with
  | .capture blank =>
    match (capture codec blank i.self).run i.answer with
    | .ok (captured, pages) => (compose captured pages).asked i.refilled
    | .error _ => []
  | .page frame =>
    match (readBack codec frame i.self).run i.answer with
    | .ok pages => (compose frame pages).asked i.refilled
    | .error _ => []

def reads : List OwnerRead := i.firstReads ++ i.refills

def attempt : String :=
  match i.entry.mark with
  | some mark => i.attemptId ++ mark ++ codec.uuidText i.fresh
  | none => i.attemptId

def parent (read : Nat) : String :=
  if i.attempt ≠ "" then i.attempt
  else if i.correlationId ≠ "" then i.correlationId
  else codec.uuidText (i.draws read)

def keys (texts : KeyTexts codec) : List String :=
  i.reads.zipIdx.map fun (read, index) => texts.idempotency (i.parent index) read

def callerId : String := if i.attemptId ≠ "" then i.attemptId else i.correlationId

/-- An identifier was drawn for this invocation. -/
def Drew (id : UUID) : Prop := id = i.fresh ∨ ∃ read, id = i.draws read

/-- Identifiers are never drawn twice and no caller knows them beforehand. -/
structure Fresh : Prop where
  apart : ∀ id, i.Drew id → ¬ j.Drew id
  unknown : ∀ id, i.Drew id ∨ j.Drew id →
    ∀ text ∈ [i.attemptId, i.correlationId, j.attemptId, j.correlationId],
      ¬ (codec.uuidText id).toList <:+: text.toList

/-- Two starts of a publication under one id of the caller. -/
structure Repeats : Prop where
  first : i.entry = .publicationStart
  second : j.entry = .publicationStart
  same : i.callerId = j.callerId
  sent : i.callerId ≠ ""

/-- Repeated starts ask one owner for the same: the gateway, which is not told the source, or one
that gave both the same cursor for their refills. -/
structure Collides : Prop extends Repeats i j where
  shared : (∃ blank other, i.target = .capture blank ∧ j.target = .capture other ∧
      ∀ name ∈ ["since", "state"],
        filterText blank.filters name = filterText other.filters name) ∨
    ∃ read ∈ i.refills, ∃ later ∈ j.refills,
      read.producer = later.producer ∧ read.query = later.query

end Invocation

/-! ## Parents -/

theorem EntryPoint.mark_toList {entry : EntryPoint} {mark : String}
    (marked : entry.mark = some mark) : ∃ front, mark.toList = front ++ [':'] := by
  have ends : mark = ":cursor-read:" ∨ mark = ":publication-page:" ∨
      mark = ":publication-resume:" := by
    cases entry <;> cases marked <;> simp
  rcases ends with rfl | rfl | rfl
  · exact ⟨":cursor-read".toList, by decide⟩
  · exact ⟨":publication-page".toList, by decide⟩
  · exact ⟨":publication-resume".toList, by decide⟩

namespace Invocation

variable {i j : Invocation codec}

/-- A parent ends with an identifier that was drawn, or is what the caller sent. -/
theorem parent_cases (texts : KeyTexts codec) (i : Invocation codec) (read : Nat) :
    (∃ id, i.Drew id ∧ lastField (i.parent read).toList = (codec.uuidText id).toList) ∨
      (i.entry = .publicationStart ∧ i.callerId ≠ "" ∧ i.parent read = i.callerId) := by
  cases marked : i.entry.mark with
  | some mark =>
    obtain ⟨front, ends⟩ := EntryPoint.mark_toList marked
    have shape : i.attempt.toList =
        (i.attemptId.toList ++ front) ++ ':' :: (codec.uuidText i.fresh).toList := by
      simp [attempt, marked, ends]
    have some : i.attempt ≠ "" := by
      intro empty
      rw [empty] at shape
      simp at shape
    left
    refine ⟨i.fresh, .inl rfl, ?_⟩
    rw [parent, if_pos some, shape]
    exact lastField_append (texts.uuid_plain _)
  | none =>
    have start : i.entry = .publicationStart := by
      cases entry : i.entry with
      | publicationStart => rfl
      | _ =>
        rw [entry] at marked
        cases marked
    have plain : i.attempt = i.attemptId := by simp [attempt, marked]
    by_cases attempted : i.attemptId = ""
    · by_cases correlated : i.correlationId = ""
      · left
        refine ⟨i.draws read, .inr ⟨read, rfl⟩, ?_⟩
        have drawn : i.parent read = codec.uuidText (i.draws read) := by
          simp [parent, plain, attempted, correlated]
        rw [drawn]
        exact lastField_of_plain (texts.uuid_plain _)
      · right
        exact ⟨start, by simp [callerId, attempted, correlated],
          by simp [parent, plain, callerId, attempted, correlated]⟩
    · right
      exact ⟨start, by simp [callerId, attempted], by simp [parent, plain, callerId, attempted]⟩

theorem parent_ne (texts : KeyTexts codec) (fresh : i.Fresh j) (distinct : ¬ i.Repeats j)
    (m n : Nat) : i.parent m ≠ j.parent n := by
  intro same
  have known : ∀ (k : Invocation codec) (id : UUID), k = i ∨ k = j → i.Drew id ∨ j.Drew id →
      lastField k.callerId.toList ≠ (codec.uuidText id).toList := by
    intro k id among drew ends
    have suffix : (codec.uuidText id).toList <:+: k.callerId.toList :=
      ends ▸ (List.rtakeWhile_suffix _ _).isInfix
    have sent : k.callerId = k.attemptId ∨ k.callerId = k.correlationId := by
      unfold callerId
      split
      next => exact .inl rfl
      next => exact .inr rfl
    refine fresh.unknown id drew k.callerId ?_ suffix
    rcases among with rfl | rfl <;> rcases sent with sent | sent <;> simp [sent]
  rcases parent_cases texts i m with ⟨id, drew, ends⟩ | ⟨start, sent, here⟩
  · rcases parent_cases texts j n with ⟨other, drewOther, endsOther⟩ | ⟨-, -, there⟩
    · have equal : (codec.uuidText id).toList = (codec.uuidText other).toList := by
        rw [← ends, same, endsOther]
      obtain rfl := texts.uuid_injective (String.toList_injective equal)
      exact fresh.apart id drew drewOther
    · rw [same, there] at ends
      exact known j id (.inr rfl) (.inl drew) ends
  · rcases parent_cases texts j n with ⟨other, drewOther, endsOther⟩ | ⟨startOther, -, there⟩
    · rw [← same, here] at endsOther
      exact known i other (.inl rfl) (.inr drewOther) endsOther
    · exact distinct ⟨start, startOther, by rw [← here, same, there], sent⟩

end Invocation

/-! ## Reads of one invocation -/

def OwnerRead.Differs (a b : OwnerRead) : Prop :=
  a.producer = b.producer → a.query.arguments ≠ b.query.arguments

theorem OwnerQuery.arguments_opening {query : OwnerQuery} (opening : query.opening = true)
    (token : String) (coverage : Bool) :
    query.arguments ≠ (OwnerQuery.cursor token coverage).arguments := by
  cases query with
  | snapshot filters covered =>
    cases covered <;> cases coverage <;> simp [arguments, coverageMember]
  | resumeFrom bookmark => cases coverage <;> simp [arguments, coverageMember]
  | cursor other covered => cases opening

theorem OwnerQuery.arguments_cursor {token other : String} (different : token ≠ other)
    (coverage : Bool) :
    (OwnerQuery.cursor token coverage).arguments ≠
      (OwnerQuery.cursor other coverage).arguments := by
  cases coverage <;> simp [arguments, coverageMember, different]

theorem OwnerQuery.arguments_snapshot_iff {a b : Filters} {coverage : Bool} :
    (OwnerQuery.snapshot a coverage).arguments = (OwnerQuery.snapshot b coverage).arguments ↔
      ∀ name ∈ ["since", "sourceId", "state"], filterText a name = filterText b name := by
  simp only [arguments, textMembers, List.filterMap_cons, List.filterMap_nil, List.forall_mem_cons]
  generalize filterText a "since" = since
  generalize filterText b "since" = since'
  generalize filterText a "sourceId" = source
  generalize filterText b "sourceId" = source'
  generalize filterText a "state" = state
  generalize filterText b "state" = state'
  cases since <;> cases since' <;> cases source <;> cases source' <;> cases state <;>
    cases state' <;> simp

theorem pairwise_of_length_le_one {α : Type} {R : α → α → Prop} {l : List α}
    (short : l.length ≤ 1) : l.Pairwise R := by
  match l, short with
  | [], _ => exact .nil
  | [a], _ => exact List.pairwise_singleton R a

section Reads

variable {answer : OwnerRead → OwnerReply}

theorem mem_asked_callProducer {scopeSource : String} {query : OwnerQuery} {producer : Producer}
    {read : OwnerRead}
    (member : read ∈ (callProducer codec scopeSource query producer).asked answer) :
    producerRead scopeSource query producer = some read := by
  unfold callProducer at member
  rcases Dialogue.mem_asked_bind answer member with none | ⟨made, found, later⟩
  · simp at none
  · rcases Dialogue.mem_asked_bind answer later with here | ⟨reply, -, later⟩
    · rw [Dialogue.asked_query, List.mem_singleton] at here
      rw [here]
      exact demand_eq_ok.mp found
    · rcases Dialogue.mem_asked_bind answer later with none | ⟨body, -, none⟩
      · simp at none
      · simp at none

/-- A read that asks an owner, for the source that saved filters name. -/
def OwnerRead.Asks (filters : Filters) (query : OwnerQuery) (name : Producer) (read : OwnerRead) :
    Prop :=
  ∃ source, savedSource filters = .ok source ∧ producerRead source query name = some read

theorem OwnerRead.Asks.query {filters : Filters} {name : Producer} {token : String}
    {coverage : Bool} {read : OwnerRead}
    (asks : read.Asks filters (.cursor token coverage) name) :
    read.producer = name ∧ read.query = .cursor token coverage := by
  obtain ⟨_, -, made⟩ := asks
  cases name <;> cases made <;> exact ⟨rfl, rfl⟩

theorem mem_asked_readPage {filters : Filters} {name : Producer} {token : String}
    {coverage : Bool} {read : OwnerRead}
    (member : read ∈ (readPage codec filters name token coverage).asked answer) :
    read.Asks filters (.cursor token coverage) name := by
  unfold readPage at member
  rcases Dialogue.mem_asked_bind answer member with none | ⟨source, saved, later⟩
  · simp at none
  · exact ⟨source, saved, mem_asked_callProducer later⟩

def OwnerRead.Continues (pages : Producer → CursorOwnerPage codec) (filters : Filters)
    (coverage : Bool) (read : OwnerRead) : Prop :=
  (pages read.producer).nextCursor ≠ "" ∧
    read.Asks filters (.cursor (pages read.producer).nextCursor coverage) read.producer

theorem mem_asked_refill {frame : CursorFrame} {position : OwnerPosition}
    {page : CursorOwnerPage codec} {read : OwnerRead}
    (member : read ∈ (refill frame position page).asked answer) :
    read.Asks frame.filters (.cursor page.nextCursor frame.publicationCoverage) position.name := by
  unfold refill at member
  rcases Dialogue.mem_asked_bind answer member with none | ⟨_, -, later⟩
  · simp at none
  · rcases Dialogue.mem_asked_bind answer later with here | ⟨next, -, later⟩
    · exact mem_asked_readPage here
    · rcases Dialogue.mem_asked_bind answer later with none | ⟨_, -, none⟩
      · simp at none
      · simp at none

theorem asked_fillHeads_three (frame : CursorFrame) (owners : List OwnerPosition)
    (pages : Producer → CursorOwnerPage codec) :
    (fillHeads frame owners pages 3).asked answer = [] := by
  have within := (within_fillHeads answer frame owners pages le_rfl).total
  exact List.eq_nil_of_length_eq_zero (by omega)

/-- A pass after two reads asks for what follows one of its pages, and then the count tells. -/
theorem fillHeads_continues (frame : CursorFrame) (owners : List OwnerPosition)
    (pages : Producer → CursorOwnerPage codec) :
    (∀ read ∈ (fillHeads frame owners pages 2).asked answer,
        read.Continues pages frame.filters frame.publicationCoverage) ∧
      ∀ heads, (fillHeads frame owners pages 2).run answer = .ok heads →
        heads.calls = 3 ∨ heads.pages = pages ∧ heads.calls = 2 := by
  induction owners with
  | nil =>
    refine ⟨?_, ?_⟩
    · exact nofun
    · intro heads done
      cases done
      exact .inr ⟨rfl, rfl⟩
  | cons position rest ih =>
    have back : ∀ fresh : OwnerPosition,
        (∀ read ∈ (do
          let heads ← fillHeads frame rest pages 2
          pure (heads.cons fresh) : Reading (Heads codec)).asked answer,
            read.Continues pages frame.filters frame.publicationCoverage) ∧
        ∀ heads, (do
          let heads ← fillHeads frame rest pages 2
          pure (heads.cons fresh) : Reading (Heads codec)).run answer = .ok heads →
            heads.calls = 3 ∨ heads.pages = pages ∧ heads.calls = 2 := by
      intro fresh
      refine ⟨?_, ?_⟩
      · intro read member
        rcases Dialogue.mem_asked_bind answer member with here | ⟨_, -, none⟩
        · exact ih.1 read here
        · cases none
      · intro heads done
        obtain ⟨inner, ran, same⟩ := (Dialogue.run_bind_eq_ok answer).mp done
        cases same
        exact ih.2 inner ran
    simp only [fillHeads]
    split
    next => exact back position
    next =>
      split
      next => exact back _
      next more =>
        rw [if_neg (by decide)]
        refine ⟨?_, ?_⟩
        · intro read member
          rcases Dialogue.mem_asked_bind answer member with here | ⟨next, -, later⟩
          · have asks := mem_asked_refill here
            unfold OwnerRead.Continues
            rw [asks.query.1]
            exact ⟨more, asks⟩
          · rcases Dialogue.mem_asked_bind answer later with none | ⟨_, -, none⟩
            · rw [asked_fillHeads_three] at none
              cases none
            · cases none
        · intro heads done
          obtain ⟨next, -, rest⟩ := (Dialogue.run_bind_eq_ok answer).mp done
          obtain ⟨inner, ran, same⟩ := (Dialogue.run_bind_eq_ok answer).mp rest
          cases same
          have spent := (within_fillHeads answer frame _ _ (le_refl 3)).recorded inner ran
          left
          show inner.calls = 3
          omega

theorem mergeItems_continues (room : Nat) (progress : Progress codec) (two : progress.calls = 2) :
    ∀ read ∈ (mergeItems room progress).asked answer,
      read.Continues progress.pages progress.frame.filters progress.frame.publicationCoverage := by
  induction room generalizing progress with
  | zero =>
    exact nofun
  | succ room ih =>
    obtain ⟨follows, counts⟩ :=
      @fillHeads_continues codec answer progress.frame progress.frame.owners progress.pages
    rw [← two] at follows counts
    -- The loop goes on with the pages it had, or has made its third read.
    have again : ∀ heads, (fillHeads progress.frame progress.frame.owners progress.pages
          progress.calls).run answer = .ok heads →
        ∀ next : Progress codec, next.pages = heads.pages → next.calls = heads.calls →
        next.frame.filters = progress.frame.filters →
        next.frame.publicationCoverage = progress.frame.publicationCoverage →
        ∀ read ∈ (mergeItems room next).asked answer,
          read.Continues progress.pages progress.frame.filters
            progress.frame.publicationCoverage := by
      intro heads ran next pages calls filters covered read member
      rcases counts heads ran with three | ⟨same, before⟩
      · have spent : next.calls = 3 := calls.trans three
        have within := (within_mergeItems answer room next spent.le).total
        have none : (mergeItems room next).asked answer = [] :=
          List.eq_nil_of_length_eq_zero (by omega)
        rw [none] at member
        cases member
      · have continued := ih next (calls.trans (before.trans two)) read member
        rwa [filters, covered, pages, same] at continued
    intro read member
    simp only [mergeItems] at member
    rcases Dialogue.mem_asked_bind answer member with here | ⟨heads, ran, later⟩
    · exact follows read here
    · split at later
      next => cases later
      next =>
        rcases Dialogue.mem_asked_bind answer later with none | ⟨best, -, later⟩
        · simp at none
        · split at later
          next => refine again heads ran _ ?_ ?_ ?_ ?_ read later <;> rfl
          next => cases later
          next => refine again heads ran _ ?_ ?_ ?_ ?_ read later <;> rfl

theorem compose_continues (frame : CursorFrame) (pages : Producer → CursorOwnerPage codec) :
    ∀ read ∈ (compose frame pages).asked answer,
      read.Continues pages frame.filters frame.publicationCoverage := by
  intro read member
  rcases Dialogue.mem_asked_bind answer member with here | ⟨_, -, none⟩
  · exact mergeItems_continues frame.pageLimit ⟨frame, pages, 2, [], false⟩ rfl read here
  · cases none

theorem nextCursor_ne_of_callProducer {scopeSource : String} {query : OwnerQuery}
    {producer : Producer} {page : CursorOwnerPage codec}
    (ran : (callProducer codec scopeSource query producer).run answer = .ok page)
    (more : page.nextCursor ≠ "") : page.nextCursor ≠ page.cursor := by
  simp only [callProducer, Dialogue.run_bind_eq_ok] at ran
  obtain ⟨_, -, reply, -, body, -, decoded⟩ := ran
  have decoded : decodeCursorOwnerPage codec reply.decodedAt body producer = .ok page := decoded
  exact (decodeCursorOwnerPage_eq_ok decoded).2.2.2.1 more

theorem readBackOwner_nextCursor {frame : CursorFrame} {position : OwnerPosition}
    {page : CursorOwnerPage codec}
    (ran : (readBackOwner frame position).run answer = .ok page)
    (more : page.nextCursor ≠ "") : page.nextCursor ≠ page.cursor := by
  simp only [readBackOwner, readPage, Dialogue.run_bind_eq_ok] at ran
  obtain ⟨_, ⟨_, -, called⟩, _, -, _, -, done⟩ := ran
  cases done
  exact nextCursor_ne_of_callProducer called more

theorem mem_asked_readBackOwner {frame : CursorFrame} {position : OwnerPosition}
    {read : OwnerRead}
    (member : read ∈
      (readBackOwner frame position : Reading (CursorOwnerPage codec)).asked answer) :
    read.Asks frame.filters (.cursor position.cursor frame.publicationCoverage) position.name := by
  unfold readBackOwner at member
  rcases Dialogue.mem_asked_bind answer member with here | ⟨_, -, later⟩
  · exact mem_asked_readPage here
  · rcases Dialogue.mem_asked_bind answer later with none | ⟨_, -, later⟩
    · unfold checkCoverage at none
      simp at none
    · rcases Dialogue.mem_asked_bind answer later with none | ⟨_, -, none⟩
      · simp at none
      · simp at none

theorem readBackOwners_pairwise (frame : CursorFrame) (owners : List OwnerPosition)
    (pages : Producer → CursorOwnerPage codec) (names : (owners.map (·.name)).Nodup) :
    (∀ read ∈ (readBackOwners frame owners pages).asked answer,
      ∃ position ∈ owners, read.Asks frame.filters
        (.cursor position.cursor frame.publicationCoverage) position.name) ∧
      ((readBackOwners frame owners pages).asked answer).Pairwise
        fun a b => a.producer ≠ b.producer := by
  induction owners generalizing pages with
  | nil =>
    refine ⟨?_, .nil⟩
    intro read impossible
    cases impossible
  | cons position rest ih =>
    rw [List.map_cons, List.nodup_cons] at names
    refine ⟨?_, Dialogue.pairwise_asked_bind answer ?_ ?_ ?_⟩
    · intro read member
      rcases Dialogue.mem_asked_bind answer member with here | ⟨page, -, later⟩
      · exact ⟨position, List.mem_cons_self, mem_asked_readBackOwner here⟩
      · obtain ⟨other, among, reads⟩ := (ih _ names.2).1 read later
        exact ⟨other, List.mem_cons_of_mem _ among, reads⟩
    · exact pairwise_of_length_le_one (length_asked_readBackOwner_le answer frame position)
    · intro page _
      exact (ih _ names.2).2
    · intro page _ read here other later same
      obtain ⟨next, among, asks⟩ := (ih _ names.2).1 other later
      rw [(mem_asked_readBackOwner here).query.1, asks.query.1] at same
      exact names.1 (same ▸ List.mem_map_of_mem among)

theorem asked_readBack (frame : CursorFrame) (self : Option SelfReply) :
    (readBack codec frame self).asked answer =
      (readBackOwners frame frame.owners fun _ => .zero codec).asked answer := by
  refine Dialogue.asked_bind_of_silent answer fun pages => ?_
  refine (Dialogue.asked_bind_of_silent answer fun status => ?_).trans (Dialogue.asked_lift ..)
  exact (Dialogue.asked_bind_of_silent answer fun _ => rfl).trans (Dialogue.asked_lift ..)

/-- A refill asks for another cursor than the read back of its owner. -/
theorem readBack_differs {frame : CursorFrame} {self : Option SelfReply}
    {pages : Producer → CursorOwnerPage codec} {refilled : OwnerRead → OwnerReply}
    (names : (frame.owners.map (·.name)).Nodup)
    (ran : (readBack codec frame self).run answer = .ok pages) {read later : OwnerRead}
    (member : read ∈ (readBack codec frame self).asked answer)
    (after : later ∈ (compose frame pages).asked refilled) : read.Differs later := by
  intro same
  rw [asked_readBack] at member
  obtain ⟨position, among, asks⟩ :=
    (readBackOwners_pairwise frame frame.owners _ names).1 read member
  obtain ⟨on, -, back⟩ := readBack_eq_ok ran names position among
  obtain ⟨more, next⟩ := compose_continues frame pages later after
  rw [← same, asks.query.1] at more next
  rw [asks.query.2, next.query.2, on.cursor]
  exact OwnerQuery.arguments_cursor (readBackOwner_nextCursor back more).symm _

theorem captureReads_pairwise (blank : CursorFrame) :
    (∀ read ∈ captureReads blank, read.query.opening = true) ∧
      (captureReads blank).Pairwise fun a b => a.producer ≠ b.producer := by
  have opening : ∀ name, (captureQuery blank name).opening = true := by
    intro name
    unfold captureQuery
    cases blank.publicationBase <;> rfl
  refine ⟨?_, ?_⟩
  · intro read member
    obtain ⟨name, -, made⟩ := List.mem_filterMap.mp member
    exact (producerRead_eq_some made).2.2.trans (opening name)
  · refine List.pairwise_filterMap.mpr (List.pairwise_pair.mpr ?_)
    intro first made second other same
    rw [(producerRead_eq_some made).1, (producerRead_eq_some other).1] at same
    cases same

end Reads

namespace Invocation

theorem reads_differ (i : Invocation codec) : i.reads.Pairwise OwnerRead.Differs := by
  have other : ∀ {a b : OwnerRead}, a.producer ≠ b.producer → a.Differs b :=
    fun apart same => absurd same apart
  unfold reads firstReads refills
  split
  next blank _ =>
    obtain ⟨opening, apart⟩ := captureReads_pairwise blank
    refine List.pairwise_append.mpr ⟨apart.imp other, ?_, ?_⟩
    · split
      next => exact pairwise_of_length_le_one (length_asked_compose_le _ _ _).1
      next => exact .nil
    · intro read here later member
      split at member
      next captured pages _ =>
        intro _
        rw [(compose_continues captured pages later member).2.query.2]
        exact OwnerQuery.arguments_opening (opening read here) _ _
      next => cases member
  next frame target =>
    have names : (frame.owners.map (·.name)).Nodup := by
      have admitted := i.admitted
      rw [target] at admitted
      refine @validateCursorFrame_names codec _ ?_
      cases entry : i.entry with
      | cursorPage =>
        rw [entry] at admitted
        exact admitted.1
      | publicationPage =>
        rw [entry] at admitted
        exact admitted.1
      | _ =>
        rw [entry] at admitted
        cases admitted
    have apart := (@readBackOwners_pairwise codec i.answer frame frame.owners
      (fun _ => .zero codec) names).2
    rw [← asked_readBack frame i.self] at apart
    refine List.pairwise_append.mpr ⟨apart.imp other, ?_, ?_⟩
    · split
      next => exact pairwise_of_length_le_one (length_asked_compose_le _ _ _).1
      next => exact .nil
    · intro read here later member
      split at member
      next pages ran => exact readBack_differs names ran here member
      next => cases member

theorem keys_nodup (texts : KeyTexts codec) (i : Invocation codec) : (i.keys texts).Nodup := by
  have differ := i.reads_differ
  rw [← List.zipIdx_map_fst 0 i.reads, List.pairwise_map] at differ
  refine List.pairwise_map.mpr (differ.imp ?_)
  intro a b differs same
  obtain ⟨-, owner, arguments⟩ := texts.idempotency_inj same
  exact differs owner arguments

theorem parent_of_start {i : Invocation codec} (start : i.entry = .publicationStart)
    (sent : i.callerId ≠ "") (read : Nat) : i.parent read = i.callerId := by
  have attempt : i.attempt = i.attemptId := by
    unfold Invocation.attempt
    rw [start]
    rfl
  unfold callerId at sent ⊢
  unfold parent
  rw [attempt]
  by_cases attempted : i.attemptId = ""
  · rw [if_neg (not_not.mpr attempted)] at sent
    rw [if_neg (not_not.mpr attempted), if_pos sent, if_neg (not_not.mpr attempted)]
  · rw [if_pos attempted, if_pos attempted]

theorem start_target {i : Invocation codec} (start : i.entry = .publicationStart) :
    ∃ blank, i.target = .capture blank ∧ ∀ name,
      captureQuery blank name = .snapshot blank.filters true := by
  have admitted := i.admitted
  rw [start] at admitted
  cases target : i.target with
  | capture blank =>
    rw [target] at admitted
    obtain ⟨arguments, started⟩ := admitted
    simp only [startFrame, bind_eq_ok] at started
    obtain ⟨limit, -, started⟩ := started
    rw [if_pos trivial, bind_eq_ok] at started
    obtain ⟨filters, -, ⟨⟩⟩ := started
    exact ⟨_, rfl, fun _ => rfl⟩
  | page frame =>
    rw [target] at admitted
    cases admitted

theorem mem_captureReads {blank : CursorFrame}
    (query : ∀ name, captureQuery blank name = .snapshot blank.filters true) {read : OwnerRead}
    (member : read ∈ captureReads blank) : ∃ filters, read.query = .snapshot filters true ∧
      ∀ name ∈ ["since", "state"], filterText filters name = filterText blank.filters name := by
  obtain ⟨name, -, made⟩ := List.mem_filterMap.mp member
  rw [query] at made
  cases name with
  | gateway =>
    obtain rfl := Option.some.inj made
    refine ⟨_, rfl, ?_⟩
    simp [filterText, Finmap.lookup_erase_ne]
  | ingestion =>
    simp only [producerRead] at made
    split at made
    next =>
      obtain rfl := Option.some.inj made
      exact ⟨_, rfl, fun _ _ => rfl⟩
    next =>
      split at made
      next => cases made
      next =>
        obtain rfl := Option.some.inj made
        exact ⟨_, rfl, fun _ _ => rfl⟩

theorem refills_cursor {i : Invocation codec} {read : OwnerRead} (member : read ∈ i.refills) :
    ∃ token coverage, read.query = .cursor token coverage := by
  unfold refills at member
  split at member
  all_goals
    split at member
    next => exact ⟨_, _, (compose_continues _ _ read member).2.query.2⟩
    next => cases member

theorem Repeats.collides_iff {i j : Invocation codec} (repeated : i.Repeats j) :
    i.Collides j ↔ ∃ read ∈ i.reads, ∃ later ∈ j.reads, ¬ read.Differs later := by
  obtain ⟨blank, target, query⟩ := start_target repeated.first
  obtain ⟨other, otherTarget, otherQuery⟩ := start_target repeated.second
  have opening : i.firstReads = captureReads blank := by simp [firstReads, target]
  have otherOpening : j.firstReads = captureReads other := by simp [firstReads, otherTarget]
  have differ : ∀ {k : Invocation codec} {frame : CursorFrame} {a b : OwnerRead},
      a ∈ captureReads frame → b ∈ k.refills → a.query.arguments ≠ b.query.arguments := by
    intro k frame a b first second
    obtain ⟨token, coverage, cursor⟩ := refills_cursor second
    rw [cursor]
    exact OwnerQuery.arguments_opening ((captureReads_pairwise frame).1 a first) _ _
  simp only [OwnerRead.Differs, Classical.not_imp, not_not, reads, opening, otherOpening,
    List.mem_append]
  constructor
  · rintro ⟨-, ⟨_, _, here, there, agree⟩ | ⟨read, member, later, among, owner, same⟩⟩
    · obtain rfl := Target.capture.inj (target.symm.trans here)
      obtain rfl := Target.capture.inj (otherTarget.symm.trans there)
      have gateway : ∀ frame : CursorFrame,
          (∀ name, captureQuery frame name = .snapshot frame.filters true) →
          ⟨.gateway, .snapshot (frame.filters.erase "sourceId") true, none⟩ ∈
            captureReads frame := by
        intro frame asks
        refine List.mem_filterMap.mpr ⟨.gateway, by decide, ?_⟩
        rw [asks]
        rfl
      refine ⟨_, .inl (gateway _ query), _, .inl (gateway _ otherQuery), rfl, ?_⟩
      refine OwnerQuery.arguments_snapshot_iff.mpr ?_
      simpa [filterText, Finmap.lookup_erase, Finmap.lookup_erase_ne] using agree
    · exact ⟨read, .inr member, later, .inr among, owner, congrArg _ same⟩
  · rintro ⟨read, first | refill, later, second | again, owner, same⟩
    · obtain ⟨filters, asked, agree⟩ := mem_captureReads query first
      obtain ⟨others, otherAsked, otherAgree⟩ := mem_captureReads otherQuery second
      rw [asked, otherAsked] at same
      refine ⟨repeated, .inl ⟨blank, other, target, otherTarget, fun name among => ?_⟩⟩
      rw [← agree name among, ← otherAgree name among]
      refine OwnerQuery.arguments_snapshot_iff.mp same name ?_
      simp only [List.mem_cons, List.not_mem_nil, or_false] at among ⊢
      tauto
    · exact (differ first again same).elim
    · exact (differ second refill same.symm).elim
    · obtain ⟨token, coverage, cursor⟩ := refills_cursor refill
      obtain ⟨otherToken, otherCoverage, otherCursor⟩ := refills_cursor again
      refine ⟨repeated, .inr ⟨read, refill, later, again, owner, ?_⟩⟩
      rw [cursor, otherCursor] at same ⊢
      cases coverage <;> cases otherCoverage <;>
        simp_all [OwnerQuery.arguments, coverageMember]

theorem keys_disjoint_iff (texts : KeyTexts codec) {i j : Invocation codec} (fresh : i.Fresh j) :
    (i.keys texts).Disjoint (j.keys texts) ↔ ¬ i.Collides j := by
  have indexed : ∀ (k : Invocation codec) {read : OwnerRead}, read ∈ k.reads →
      ∃ index, (read, index) ∈ k.reads.zipIdx := by
    intro k read member
    rw [← List.zipIdx_map_fst 0 k.reads] at member
    obtain ⟨⟨found, index⟩, among, rfl⟩ := List.mem_map.mp member
    exact ⟨index, among⟩
  constructor
  · intro disjoint collides
    have repeated := collides.toRepeats
    obtain ⟨read, member, later, among, meets⟩ := repeated.collides_iff.mp collides
    obtain ⟨owner, same⟩ := Classical.not_imp.mp meets
    obtain ⟨m, here⟩ := indexed i member
    obtain ⟨n, there⟩ := indexed j among
    have parents : i.parent m = j.parent n := by
      rw [parent_of_start repeated.first repeated.sent,
        parent_of_start repeated.second (repeated.same ▸ repeated.sent), repeated.same]
    refine disjoint (List.mem_map.mpr ⟨_, here, rfl⟩) (List.mem_map.mpr ⟨_, there, ?_⟩)
    simp only [KeyTexts.idempotency, parents, owner, not_not.mp same]
  · intro apart key here there
    obtain ⟨⟨read, m⟩, member, rfl⟩ := List.mem_map.mp here
    obtain ⟨⟨later, n⟩, among, same⟩ := List.mem_map.mp there
    obtain ⟨parents, owner, arguments⟩ := texts.idempotency_inj same
    by_cases repeated : i.Repeats j
    · refine apart (repeated.collides_iff.mpr ⟨read, (List.fst_mem_of_mem_zipIdx member), later,
        (List.fst_mem_of_mem_zipIdx among), ?_⟩)
      exact Classical.not_imp.mpr ⟨owner.symm, not_not.mpr arguments.symm⟩
    · exact parent_ne texts fresh repeated m n parents.symm

theorem Repeats.collides {i j : Invocation codec} (repeated : i.Repeats j)
    (same : i.target = j.target) : i.Collides j := by
  obtain ⟨blank, target, -⟩ := start_target repeated.first
  exact ⟨repeated, .inl ⟨blank, blank, target, same ▸ target, fun _ _ => rfl⟩⟩

end Invocation

/-! ## Sample invocations -/

def sampleTexts : KeyTexts sampleCodec where
  uuid_injective := Identifier.canonicalText_injective
  uuid_plain := by
    intro id member
    rcases Identifier.mem_canonicalText member with dash | ⟨digit, low, colon⟩
    · cases dash
    · have none : ∀ digit : Fin 16, ':' ≠ Identifier.hexDigit digit.val := by decide
      exact none ⟨digit, low⟩ colon
  sha256Hex bytes :=
    String.ofList (List.replicate (Encodable.encode (bytes.data.toList.map UInt8.toNat)) 'a')
  sha256_injective := by
    intro a b same
    have lengths := congrArg List.length (String.ofList_injective same)
    simp only [List.length_replicate] at lengths
    have bytes := List.map_injective_iff.mpr (fun _ _ => UInt8.toNat.inj)
      (Encodable.encode_injective lengths)
    exact ByteArray.ext (Array.toList_inj.mp bytes)
  sha256_plain := by
    intro bytes member
    rw [String.toList_ofList] at member
    exact absurd (List.eq_of_mem_replicate member) (by decide)

/-- A start without filters, whose reads fail; it draws the given identifiers. -/
def sampleStart (publication : Bool) (fresh draw : UUID) : Invocation sampleCodec where
  entry := if publication then .publicationStart else .cursorStart
  attemptId := "attempt"
  correlationId := ""
  fresh := fresh
  draws _ := draw
  target := .capture (blankFrame ∅ 50 publication none none)
  admitted := by cases publication <;> exact ⟨∅, rfl⟩
  self := none
  answer _ := ⟨none, 0⟩
  refilled _ := ⟨none, 0⟩

theorem sampleStart_drew {publication : Bool} {fresh draw id : UUID} :
    (sampleStart publication fresh draw).Drew id ↔ id = fresh ∨ id = draw := by
  simp [Invocation.Drew, sampleStart]

theorem sampleStart_fresh (publication other : Bool) :
    (sampleStart publication 1 2).Fresh (sampleStart other 3 4) where
  apart := by
    intro id first second
    rw [sampleStart_drew] at first second
    rcases first with rfl | rfl <;> rcases second with same | same <;>
      exact absurd same (by decide)
  unknown := by
    intro id drew text among inside
    have absent : ∀ text ∈ ["attempt", "", "attempt", ""], '-' ∉ text.toList := by decide
    exact absent text among (inside.subset (Identifier.hyphen_mem_canonicalText id))

/-- The keys within one invocation are distinct.  Those of two invocations are disjoint unless
both are starts of a publication under one id of the caller.  Then they meet exactly when the
filters agree apart from the source, or when an owner gives both the same cursor for a refill. -/
theorem ownerReads_collide_iff (texts : KeyTexts codec) (i j : Invocation codec)
    (fresh : i.Fresh j) :
    (i.keys texts).Nodup ∧ (j.keys texts).Nodup ∧
      (¬ i.Repeats j → (i.keys texts).Disjoint (j.keys texts)) ∧
      (i.target = j.target → ((i.keys texts).Disjoint (j.keys texts) ↔ ¬ i.Repeats j)) ∧
      ((i.keys texts).Disjoint (j.keys texts) ↔ ¬ i.Collides j) := by
  have exactly := Invocation.keys_disjoint_iff texts fresh
  refine ⟨i.keys_nodup texts, j.keys_nodup texts, ?_, ?_, exactly⟩
  · exact fun apart => exactly.mpr fun collides => apart collides.toRepeats
  · intro same
    rw [exactly]
    exact not_congr ⟨fun collides => collides.toRepeats, fun repeated => repeated.collides same⟩

theorem ownerReads_collide_iff_starts :
    (sampleStart false 1 2).Fresh (sampleStart true 3 4) ∧
      ((sampleStart false 1 2).keys sampleTexts).Disjoint
        ((sampleStart true 3 4).keys sampleTexts) := by
  refine ⟨sampleStart_fresh false true, ?_⟩
  refine (ownerReads_collide_iff sampleTexts _ _ (sampleStart_fresh false true)).2.2.1 ?_
  intro repeated
  cases repeated.first

/-- A start of a publication that is repeated reads under keys that were used before. -/
theorem publicationStart_repeats_keys :
    (sampleStart true 1 2).Fresh (sampleStart true 3 4) ∧
      ¬ ((sampleStart true 1 2).keys sampleTexts).Disjoint
        ((sampleStart true 3 4).keys sampleTexts) := by
  refine ⟨sampleStart_fresh true true, ?_⟩
  have repeated : (sampleStart true 1 2).Repeats (sampleStart true 3 4) :=
    ⟨rfl, rfl, rfl, by decide⟩
  exact fun disjoint =>
    (Invocation.keys_disjoint_iff sampleTexts (sampleStart_fresh true true)).mp disjoint
      (repeated.collides rfl)

end OufMcp.Cursor
