import OufMcp.Ledger.Service
import OufMcp.StatusView.Public

/-!
# Replies to a public status call

How `Service.Call` turns the reply of the gateway into a result.  For the public
status capability the body is replaced by its projection and a problem by a fixed
one, so that nothing else of a reply reaches the caller.
-/

namespace OufMcp.StatusView

open Json (Numerals Reader marshal)
open Ledger (Cost AttemptOutcome UUID publicStatusCapability)

structure Problem where
  type : String
  title : String
  code : String
  detail : String
  status : Int
  retryAfter : String
  deriving DecidableEq, Repr

structure GatewayResponse where
  status : Int
  body : Option ByteArray
  backendRequestId : String
  problem : Option Problem

inductive CallError where
  | invalidStatus
  | resultLimit
  /-- Any error of a port. -/
  | port (message : String)
  deriving DecidableEq, Repr

/-- What `Gateway.Execute` returns. -/
structure Reply where
  response : GatewayResponse
  error : Option CallError

structure Result where
  body : Option ByteArray
  problem : Option Problem
  attemptId : UUID
  replay : Bool

structure AuditEvent where
  attemptId : UUID
  outcomeCode : String
  redacted : Bool
  deriving DecidableEq, Repr

/-- The ports a call settles through; an answer is the error, if any. -/
structure Ports where
  reconcile : UUID → Cost → AttemptOutcome → Option CallError
  audit : Option (AuditEvent → Option CallError)

structure Ports.Succeed (ports : Ports) : Prop where
  reconcile : ∀ id actual outcome, ports.reconcile id actual outcome = none
  audit : ∀ port ∈ ports.audit, ∀ event, port event = none

/-- Everything of a call that does not depend on the gateway's reply. -/
structure Setting where
  capabilityId : String
  maximum : Cost
  backendRequestId : String
  /-- The attempt and whether it is a replay, unless a check, the authorization, the admission
  or the dispatch failed. -/
  admitted : Except CallError (UUID × Bool)
  ports : Ports

def Setting.publicStatus (setting : Setting) : Bool :=
  decide (setting.capabilityId = publicStatusCapability)

/-- `len` of a slice that may be nil. -/
def size (body : Option ByteArray) : Int := (body.map ByteArray.size).getD 0

def successful (status : Int) : Bool := decide (200 ≤ status ∧ status < 300)

section Call

variable {ν : Type} {numerals : Numerals ν} (reader : Reader numerals)

/-- The reply as it is rewritten on its way to the caller. -/
structure Rewriting where
  response : GatewayResponse
  error : Option CallError
  outcome : AttemptOutcome
  redacted : Bool

def received (setting : Setting) (reply : Reply) : Rewriting where
  response := reply.response
  error := reply.error
  outcome := {
    code := match reply.response.problem with
      | some problem => if problem.code = "" then "UPSTREAM_ERROR" else problem.code
      | none => "UPSTREAM_ERROR"
    success := false
    backendRequestId := if reply.response.backendRequestId = "" then setting.backendRequestId
      else reply.response.backendRequestId }
  redacted := false

/-- A good public status is replaced by its projection. -/
def projecting (setting : Setting) (reply : Reply) (now : Rewriting) : Rewriting :=
  if setting.publicStatus = true ∧ now.error = none ∧ now.response.problem = none ∧
      successful now.response.status = true ∧
      size reply.response.body ≤ setting.maximum.resultBytes then
    match project reader (now.response.body.getD .empty) with
    | some view =>
        { now with response := { now.response with body := some view }, redacted := true }
    | none => { now with
        response := { now.response with body := none }
        error := some .invalidStatus
        outcome := { now.outcome with code := "INVALID_PUBLIC_STATUS" } }
  else now

/-- Of a failed public status only its kind is passed on. -/
def sanitizing (setting : Setting) (now : Rewriting) : Rewriting :=
  if setting.publicStatus = true ∧
      (now.response.problem ≠ none ∨ successful now.response.status = false) then
    let code := if now.response.status = 401 ∨ now.response.status = 403 then "NOT_AUTHORIZED"
      else "STATUS_UNAVAILABLE"
    { now with response := { now.response with
        body := none
        problem := some ⟨"", code, code, "", now.response.status, ""⟩ } }
  else now

def judging (now : Rewriting) : Rewriting :=
  if now.error = none ∧ now.response.problem = none ∧ successful now.response.status = true then
    { now with outcome := { now.outcome with success := true, code := "SUCCEEDED" } }
  else now

def limiting (setting : Setting) (reply : Reply) (now : Rewriting) : Rewriting :=
  if setting.maximum.resultBytes < size reply.response.body ∨
      setting.maximum.resultBytes < size now.response.body then
    { now with
      error := some .resultLimit
      outcome := { now.outcome with code := "RESULT_LIMIT_EXCEEDED", success := false } }
  else now

def rewriting (setting : Setting) (reply : Reply) : Rewriting :=
  limiting setting reply (judging (sanitizing setting (projecting reader setting reply
    (received setting reply))))

/-- `Service.Call` from the gateway's reply on. -/
def settle (setting : Setting) (id : UUID) (reply : Reply) : Except CallError Result := do
  let final := rewriting reader setting reply
  let actual : Cost :=
    { toolCalls := 1, distinctObjects := 0, resultBytes := size reply.response.body }
  if let some error := setting.ports.reconcile id actual final.outcome then throw error
  if let some port := setting.ports.audit then
    if let some error := port ⟨id, final.outcome.code, final.redacted⟩ then throw error
  if let some error := final.error then throw error
  return ⟨final.response.body, final.response.problem, id, false⟩

/-- `Service.Call`; a replayed attempt does not reach the gateway. -/
def call (setting : Setting) (reply : Reply) : Except CallError Result := do
  let (id, replay) ← setting.admitted
  if replay then return ⟨none, none, id, true⟩
  settle reader setting id reply

/-! ## What the caller of a public status learns -/

/-- All that the answer to a public status call may depend on. -/
structure Visible where
  error : Option CallError
  status : Int
  problem : Bool
  overLimit : Bool
  view : Option PublicStatus

def Reply.visible (reply : Reply) (setting : Setting) : Visible where
  error := reply.error
  status := reply.response.status
  problem := reply.response.problem.isSome
  overLimit := decide (setting.maximum.resultBytes < size reply.response.body)
  view := view? reader (reply.response.body.getD .empty)

def fixedProblem (status : Int) : Problem :=
  let code := if status = 401 ∨ status = 403 then "NOT_AUTHORIZED" else "STATUS_UNAVAILABLE"
  ⟨"", code, code, "", status, ""⟩

def Visible.answer (numerals : Numerals ν) (limit : Int) (seen : Visible) :
    Except CallError (Option ByteArray × Option Problem) :=
  if seen.overLimit = true then .error .resultLimit
  else match seen.error with
    | some error => .error error
    | none =>
      if seen.problem = true ∨ successful seen.status = false then
        .ok (none, some (fixedProblem seen.status))
      else match seen.view with
        | none => .error .invalidStatus
        | some view =>
          if limit < size (some (marshal numerals view.document)) then .error .resultLimit
          else .ok (some (marshal numerals view.document), none)

def Rewriting.answer (final : Rewriting) : Except CallError (Option ByteArray × Option Problem) :=
  match final.error with
  | some error => .error error
  | none => .ok (final.response.body, final.response.problem)

theorem limiting_answer (setting : Setting) (reply : Reply) (now : Rewriting) :
    (limiting setting reply now).answer =
      if setting.maximum.resultBytes < size reply.response.body ∨
          setting.maximum.resultBytes < size now.response.body then .error .resultLimit
      else now.answer := by
  unfold limiting
  split
  · rfl
  · rfl

theorem judging_answer (now : Rewriting) :
    (judging now).answer = now.answer ∧ (judging now).response = now.response := by
  unfold judging
  split
  · exact ⟨rfl, rfl⟩
  · exact ⟨rfl, rfl⟩

theorem sanitizing_failed {setting : Setting} {reply : Reply}
    (capability : setting.publicStatus = true)
    (failed : reply.response.problem.isSome = true ∨ successful reply.response.status = false) :
    (sanitizing setting (projecting reader setting reply (received setting reply))).response.body =
        none ∧
      (sanitizing setting (projecting reader setting reply (received setting reply))).answer =
        match reply.error with
        | some error => .error error
        | none => .ok (none, some (fixedProblem reply.response.status)) := by
  have untouched : projecting reader setting reply (received setting reply) =
      received setting reply := by
    refine if_neg ?_
    rintro ⟨-, -, noProblem, good, -⟩
    rcases failed with problem | bad
    · rw [show reply.response.problem = none from noProblem] at problem
      cases problem
    · rw [show successful reply.response.status = true from good] at bad
      cases bad
  have replaced : setting.publicStatus = true ∧
      ((received setting reply).response.problem ≠ none ∨
        successful (received setting reply).response.status = false) :=
    ⟨capability, failed.imp_left Option.ne_none_iff_isSome.mpr⟩
  rw [untouched, sanitizing, if_pos replaced]
  exact ⟨rfl, rfl⟩

theorem sanitizing_good {setting : Setting} {reply : Reply}
    (capability : setting.publicStatus = true) (noProblem : reply.response.problem = none)
    (good : successful reply.response.status = true)
    (within : size reply.response.body ≤ setting.maximum.resultBytes) :
    (sanitizing setting (projecting reader setting reply (received setting reply))).response.body =
        (match reply.error with
        | some _ => reply.response.body
        | none => project reader (reply.response.body.getD .empty)) ∧
      (sanitizing setting (projecting reader setting reply (received setting reply))).answer =
        match reply.error with
        | some error => .error error
        | none => match project reader (reply.response.body.getD .empty) with
          | none => .error .invalidStatus
          | some view => .ok (some view, none) := by
  have kept : ∀ now : Rewriting, now.response.problem = none →
      now.response.status = reply.response.status → sanitizing setting now = now := by
    intro now problem status
    refine if_neg ?_
    rintro ⟨-, some | bad⟩
    · exact some problem
    · rw [status, good] at bad
      cases bad
  cases failure : reply.error with
  | some error =>
    have untouched : projecting reader setting reply (received setting reply) =
        received setting reply := by
      refine if_neg ?_
      rintro ⟨-, none, -⟩
      cases failure.symm.trans none
    rw [untouched, kept _ noProblem rfl, Rewriting.answer]
    simp [received, failure]
  | none =>
    have projects : setting.publicStatus = true ∧ (received setting reply).error = none ∧
        (received setting reply).response.problem = none ∧
        successful (received setting reply).response.status = true ∧
        size reply.response.body ≤ setting.maximum.resultBytes :=
      ⟨capability, failure, noProblem, good, within⟩
    rw [projecting, if_pos projects]
    cases viewed : project reader (reply.response.body.getD .empty) with
    | none =>
      simp only [received, viewed]
      rw [kept _ noProblem rfl]
      exact ⟨rfl, rfl⟩
    | some view =>
      simp only [received, viewed]
      rw [kept _ noProblem rfl]
      simp [Rewriting.answer, failure, noProblem]

@[simp] theorem size_none : size none = 0 := rfl

theorem size_nonneg (body : Option ByteArray) : 0 ≤ size body := by
  cases body <;> simp [size]

/-- The caller learns nothing of a reply but what is visible of it. -/
theorem rewriting_answer {setting : Setting} (reply : Reply)
    (capability : setting.publicStatus = true) :
    (rewriting reader setting reply).answer =
      (reply.visible reader setting).answer numerals setting.maximum.resultBytes := by
  rw [rewriting, limiting_answer, (judging_answer _).1, (judging_answer _).2]
  by_cases exceeds : setting.maximum.resultBytes < size reply.response.body
  · simp [exceeds, Reply.visible, Visible.answer]
  have within : size reply.response.body ≤ setting.maximum.resultBytes := not_lt.mp exceeds
  have nonneg : 0 ≤ setting.maximum.resultBytes := (size_nonneg _).trans within
  by_cases failed : reply.response.problem.isSome = true ∨ successful reply.response.status = false
  · obtain ⟨body, answered⟩ := sanitizing_failed reader capability failed
    rw [body, answered, if_neg (by simp [exceeds, nonneg])]
    simp [Reply.visible, Visible.answer, exceeds, failed]
  · have noProblem : reply.response.problem = none := by
      by_contra some
      exact failed (.inl (Option.ne_none_iff_isSome.mp some))
    have good : successful reply.response.status = true := by
      by_contra bad
      exact failed (.inr (Bool.eq_false_iff.mpr bad))
    obtain ⟨body, answered⟩ := sanitizing_good reader capability noProblem good within
    rw [body, answered]
    cases failure : reply.error with
    | some error => simp [Reply.visible, Visible.answer, exceeds, failure]
    | none =>
      cases viewed : view? reader (reply.response.body.getD .empty) with
      | none =>
        simp [Reply.visible, Visible.answer, exceeds, failure, noProblem, good, project,
          viewed, nonneg]
      | some view =>
        simp [Reply.visible, Visible.answer, exceeds, failure, noProblem, good, project,
          viewed]

theorem settle_eq {setting : Setting} {id : UUID} {reply : Reply} (succeed : setting.ports.Succeed)
    (capability : setting.publicStatus = true) :
    settle reader setting id reply =
      ((reply.visible reader setting).answer numerals setting.maximum.resultBytes).map
        fun answer => ⟨answer.1, answer.2, id, false⟩ := by
  rw [← rewriting_answer reader reply capability, settle, Rewriting.answer]
  cases ports : setting.ports.audit with
  | none =>
    simp only [succeed.reconcile]
    cases (rewriting reader setting reply).error <;> rfl
  | some port =>
    have silent := succeed.audit port ports
    simp only [succeed.reconcile, silent]
    cases (rewriting reader setting reply).error <;> rfl

theorem answer_body {limit : Int} {seen : Visible} {body : Option ByteArray}
    {problem : Option Problem} (answered : seen.answer numerals limit = .ok (body, problem)) :
    body = none ∨ ∃ view : PublicStatus, body = some (marshal numerals view.document) := by
  unfold Visible.answer at answered
  split at answered
  next => cases answered
  next =>
    split at answered
    next => cases answered
    next =>
      split at answered
      next =>
        obtain ⟨rfl, -⟩ := Prod.mk.inj (Except.ok.inj answered)
        exact .inl rfl
      next =>
        split at answered
        next => cases answered
        next view _ =>
          split at answered
          next => cases answered
          next =>
            obtain ⟨rfl, -⟩ := Prod.mk.inj (Except.ok.inj answered)
            exact .inr ⟨view, rfl⟩

/-- Two replies that look alike give the same answer, a successful one carries the projection
or no body, and projecting is idempotent. -/
theorem publicStatus_noninterference {setting : Setting} (succeed : setting.ports.Succeed)
    (capability : setting.capabilityId = publicStatusCapability) :
    (∀ a b : Reply, a.visible reader setting = b.visible reader setting →
      call reader setting a = call reader setting b) ∧
    (∀ (reply : Reply) result, call reader setting reply = .ok result →
      result.body = none ∨ ∃ view : PublicStatus,
        result.body = some (marshal numerals view.document)) ∧
    ∀ raw view, project reader raw = some view → project reader view = some view := by
  have publicStatus : setting.publicStatus = true := decide_eq_true capability
  refine ⟨?_, ?_, fun raw view => project_project reader⟩
  · intro a b alike
    unfold call
    cases setting.admitted with
    | error error => rfl
    | ok admitted => simp only [settle_eq reader succeed publicStatus, alike]
  · intro reply result done
    unfold call at done
    cases admitted : setting.admitted with
    | error error =>
      rw [admitted] at done
      cases done
    | ok entry =>
      obtain ⟨id, replay⟩ := entry
      cases replay with
      | true =>
        rw [admitted] at done
        obtain rfl := Except.ok.inj done
        exact .inl rfl
      | false =>
        have settled : settle reader setting id reply = .ok result := by
          rw [admitted] at done
          exact done
        rw [settle_eq reader succeed publicStatus] at settled
        cases answered : (reply.visible reader setting).answer numerals
            setting.maximum.resultBytes with
        | error error =>
          rw [answered] at settled
          cases settled
        | ok answer =>
          rw [answered] at settled
          obtain rfl := Except.ok.inj settled
          exact answer_body answered

end Call

def detailed (incidents : String) : Json.Value String Int :=
  .obj [("module", .str "MCP"), ("incidents", .str incidents), ("status", .str "HEALTHY"),
    ("actionRequired", .bool false), ("partial", .bool false)]

theorem detailed_view (incidents : String) :
    view? (Json.strictReader Json.integers) (marshal Json.integers (detailed incidents)) =
      some ⟨.healthy, false, false⟩ := by
  have own : ∀ field ∈ sourceFields, Json.target sourceFields field = some field := by decide
  have added : Json.target sourceFields "incidents" = none := by decide
  simp only [sourceFields, List.forall_mem_cons] at own added
  have shallow : (detailed incidents).depth ≤ Json.maxNestingDepth := by
    simp [detailed, Json.Value.depth, Json.membersDepth, Json.maxNestingDepth]
  simp only [view?, Json.Reader.read_marshal _ _ shallow]
  simp [decodeSource, detailed, Json.Value.members?,
    Json.fillField, Json.into, sourceFields, own, added, Json.storeText, Json.storeFlagPointer,
    Source.valid?, status?]

def statusCall : Setting :=
  ⟨publicStatusCapability, ⟨1, 0, 1024⟩, "request", .ok (1, false), ⟨fun _ _ _ => none, none⟩⟩

def good (incidents : String) : Reply :=
  ⟨⟨200, some (marshal Json.integers (detailed incidents)), "backend", none⟩, none⟩

theorem good_visible {incidents : String}
    (short : (marshal Json.integers (detailed incidents)).size ≤ 1024) :
    (good incidents).visible (Json.strictReader Json.integers) statusCall =
      ⟨none, 200, false, false, some ⟨.healthy, false, false⟩⟩ := by
  have within : ¬ statusCall.maximum.resultBytes < size (good incidents).response.body :=
    not_lt.mpr (Int.ofNat_le.mpr short)
  unfold Reply.visible
  rw [decide_eq_false within]
  simp [good, detailed_view]

theorem publicStatus_noninterference_counter :
    call (Json.strictReader Json.integers) statusCall (good "seven") =
      call (Json.strictReader Json.integers) statusCall (good "eleven") := by
  have succeed : statusCall.ports.Succeed := ⟨fun _ _ _ => rfl, by simp [statusCall]⟩
  obtain ⟨same, -⟩ :=
    publicStatus_noninterference (Json.strictReader Json.integers) succeed rfl
  refine same _ _ ?_
  have seven : (marshal Json.integers (detailed "seven")).size ≤ 1024 :=
    (Json.utf8_size_le _).trans (by decide +kernel)
  have eleven : (marshal Json.integers (detailed "eleven")).size ≤ 1024 :=
    (Json.utf8_size_le _).trans (by decide +kernel)
  rw [good_visible seven, good_visible eleven]

end OufMcp.StatusView
