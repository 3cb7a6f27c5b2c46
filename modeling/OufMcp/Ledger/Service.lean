import OufMcp.Ledger.Evidence

/-!
# Governed calls

`Service.Call` from its budget profile to its settlement, and the bodies
`GatewayClient.Execute` can return.  Digests of the arguments, the authorization
decision and the projection of a public status body are inputs of a call.
-/

namespace OufMcp.Ledger

open Relational

/-- The part of `orchestration.Invocation` that admission and settlement read. -/
structure Invocation where
  budgetProfile : String
  identity : Identity
  capabilityId : String
  owner : String
  operationClass : String
  gatewayBindingRef : String
  manifestChecksum : String
  idempotencyKey : String
  requestHash : String
  semanticFingerprint : String
  correlationId : String
  window : Time
  timeout : Time
  retryThreshold : Int
  maximum : Cost
  deriving DecidableEq, Repr

def second : Time := 1000000000

/-- The budget profile a call uses: control reads default to the control profile. -/
def Invocation.profile (call : Invocation) : String :=
  if call.budgetProfile = "" ∧
      isOperationalControlRead call.capabilityId call.operationClass = true then
    operationalControlBudgetProfile
  else call.budgetProfile

def Invocation.admission (call : Invocation) (attemptId : UUID) : AdmissionRequest where
  budgetProfile := call.profile
  attemptId := attemptId
  identity := call.identity
  capabilityId := call.capabilityId
  owner := call.owner
  operationClass := call.operationClass
  manifestChecksum := call.manifestChecksum
  idempotencyKey := call.idempotencyKey
  requestHash := call.requestHash
  semanticFingerprint := call.semanticFingerprint
  fingerprintVersion := "v1"
  correlationId := call.correlationId
  window := call.window
  retryThreshold := call.retryThreshold
  maximum := call.maximum

def Invocation.accepted (call : Invocation) : Bool :=
  (admissionWindowBudget (call.admission 0)).isOk
    && decide (call.identity.servicePrincipalId ≠ "" ∧ call.identity.principalId ≠ "" ∧
      call.identity.tenantId ≠ "" ∧ call.capabilityId ≠ "" ∧ call.owner ≠ "" ∧
      call.gatewayBindingRef ≠ "")

/-- `orchestration.GatewayResponse`, with the code of its problem when it has one. -/
structure GatewayResponse where
  status : Int
  bodyLength : Nat
  backendRequestId : String
  problem : Option String
  deriving DecidableEq, Repr

/-- What `Gateway.Execute` returns, and the length of the projected public status
body, absent when the projection fails. -/
structure GatewayReply where
  response : GatewayResponse
  failed : Bool
  projected : Option Nat
  deriving DecidableEq, Repr

def gatewayReadLimit (maxResultBytes : Int) : Int :=
  int64 ((if maxResultBytes < 1 then 2 ^ 20 else maxResultBytes) + 1)

def publicStatusCapability : String := "ouf.system.status"

def GatewayResponse.ok (response : GatewayResponse) : Bool :=
  response.problem.isNone && decide (200 ≤ response.status ∧ response.status < 300)

/-- The cost a call settles with: one call, the bytes received, no objects. -/
def GatewayReply.actual (reply : GatewayReply) : Cost where
  toolCalls := 1
  distinctObjects := 0
  resultBytes := reply.response.bodyLength

def GatewayReply.projects (reply : GatewayReply) (call : Invocation) : Bool :=
  decide (call.capabilityId = publicStatusCapability) && !reply.failed && reply.response.ok
    && decide (reply.actual.resultBytes ≤ call.maximum.resultBytes)

def GatewayReply.returnedLength (reply : GatewayReply) (call : Invocation) : Nat :=
  if reply.projects call then reply.projected.getD 0
  else if call.capabilityId = publicStatusCapability ∧ reply.response.ok = false then 0
  else reply.response.bodyLength

def GatewayReply.overLimit (reply : GatewayReply) (call : Invocation) : Bool :=
  decide (reply.actual.resultBytes > call.maximum.resultBytes)
    || decide ((reply.returnedLength call : Int) > call.maximum.resultBytes)

def GatewayReply.outcome (reply : GatewayReply) (call : Invocation) (backendRequestId : String) :
    AttemptOutcome :=
  let unprojectable := reply.projects call && reply.projected.isNone
  let success := !reply.failed && !unprojectable && reply.response.ok && !reply.overLimit call
  { code :=
      if reply.overLimit call then "RESULT_LIMIT_EXCEEDED"
      else if success then "SUCCEEDED"
      else if unprojectable then "INVALID_PUBLIC_STATUS"
      else match reply.response.problem with
        | some code => if code = "" then "UPSTREAM_ERROR" else code
        | none => "UPSTREAM_ERROR"
    success
    backendRequestId :=
      if reply.response.backendRequestId = "" then backendRequestId
      else reply.response.backendRequestId }

end OufMcp.Ledger
