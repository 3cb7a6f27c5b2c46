import OufMcp.Ledger.Service
import OufMcp.Policy.Bundle
import OufMcp.Transition.Register
import OufMcp.Transition.System

/-!
# The policy cache

Any number of refreshes and authorizations over one published snapshot.  A refresh
fetches and validates a bundle, reads the clock, and then loads, checks and swaps
until its swap finds the snapshot it had checked against.  An authorization loads
the snapshot once and reads the clock three times: twice for the freshness test
and once for the evaluation.  The readings of all calls never go back, as those of
`time.Now` with its monotonic clock do not.
-/

namespace OufMcp.Policy

open Ledger (Time second)
open Cursor (Identity)
open Relational Transition

/-! ## The cache -/

/-- `cachedSnapshot` -/
structure CachedSnapshot where
  active : ActivePolicyBundle
  verifiedAt : Time
  digest : BitVec 256
  deriving DecidableEq

/-- The JSON encoding: the deep copy of a bundle, where encoding and decoding
succeed, and the hash of the encoded policy. -/
structure Encoding where
  detach : ActivePolicyBundle → Option ActivePolicyBundle
  digest : PolicyBundle → BitVec 256

structure Settings where
  hasSource : Bool
  maxStaleness : Int
  bounded : second ≤ maxStaleness ∧ maxStaleness ≤ 24 * 3600 * second

def newCache (hasSource : Bool) : Settings := ⟨hasSource, 300 * second, by decide⟩

def newCacheWithMaxStaleness (hasSource : Bool) (age : Int) : Option Settings :=
  if bounded : second ≤ age ∧ age ≤ 24 * 3600 * second then some ⟨hasSource, age, bounded⟩
  else none

inductive RefreshError where
  | policyUnavailable
  | fetch
  | invalid (error : BundleError)
  | encoding
  | rollback
  | versionChanged
  | activationCollision
  | older
  deriving DecidableEq, Repr

/-- The texts of the errors that `Refresh` makes itself. -/
def RefreshError.text : RefreshError → Option String
  | .policyUnavailable => some "authorization policy bundle unavailable"
  | .fetch => none
  | .invalid error => some ("invalid authorization policy bundle: " ++ error.text)
  | .encoding => none
  | .rollback => some "authorization rollback or lineage switch rejected"
  | .versionChanged => some "immutable authorization version changed"
  | .activationCollision => some "authorization activation timestamp collision"
  | .older => some "older refresh rejected"

/-- The tests of a refresh against the snapshot it loaded. -/
def CachedSnapshot.check (next : CachedSnapshot) :
    Option CachedSnapshot → Except RefreshError Unit
  | none => pure ()
  | some current => do
      ensure (next.active.bundleId = current.active.bundleId ∧
        current.active.bundleVersion ≤ next.active.bundleVersion ∧
        current.active.activatedAt ≤ next.active.activatedAt) .rollback
      ensure (¬ (next.active.bundleVersion = current.active.bundleVersion ∧
        next.digest ≠ current.digest)) .versionChanged
      ensure (¬ (next.active.activatedAt = current.active.activatedAt ∧
        next.active.bundleVersion ≠ current.active.bundleVersion)) .activationCollision
      ensure (current.verifiedAt ≤ next.verifiedAt) .older

inductive AuthorizeError where
  | policyUnavailable
  | principalIncomplete
  | servicePrincipalRequired
  deriving DecidableEq, Repr

def AuthorizeError.text : AuthorizeError → String
  | .policyUnavailable => "authorization policy bundle unavailable"
  | .principalIncomplete => "trusted authorization principal context incomplete"
  | .servicePrincipalRequired => "service principal id is required for SERVICE actor"

structure AuthorizationRequest where
  identity : Identity
  resource : ResourceContext
  capabilityId : String
  operationClass : String
  deriving DecidableEq

namespace AuthorizationRequest

def checkPrincipal (request : AuthorizationRequest) : Except AuthorizeError Unit := do
  let identity := request.identity
  ensure (identity.principalId ≠ "" ∧ identity.tenantId ≠ "" ∧ identity.actorType ≠ "" ∧
    identity.authenticationContextRef ≠ "" ∧ identity.issuer ≠ "" ∧ identity.audience ≠ "")
    .principalIncomplete
  ensure (¬ (identity.actorType = "SERVICE" ∧ identity.servicePrincipalId = ""))
    .servicePrincipalRequired

def completed (request : AuthorizationRequest) : ResourceContext :=
  { request.resource with
    tenantId := if request.resource.tenantId = "" then request.identity.tenantId
      else request.resource.tenantId
    resourceType := if request.resource.resourceType = "" then "capability"
      else request.resource.resourceType }

def decision (request : AuthorizationRequest) (active : CachedSnapshot) (now : Time) :
    AuthorizationDecision :=
  evaluate active.active.bundle request.identity request.completed request.capabilityId
    request.operationClass now

end AuthorizationRequest

/-! ## Interleaved calls -/

/-- An authorization in progress: its request and the snapshot it loaded. -/
structure Inquiry where
  request : AuthorizationRequest
  active : CachedSnapshot

inductive Call where
  | idle
  | fetched (bundle : ActivePolicyBundle)
  | detached (bundle : ActivePolicyBundle) (digest : BitVec 256)
  | verified (next : CachedSnapshot)
  | loaded (next : CachedSnapshot) (pointer : Nat) (current : Option CachedSnapshot)
  | checked (next : CachedSnapshot) (pointer : Nat)
  | refreshed
  | failed (error : RefreshError)
  | authorizing (inquiry : Inquiry)
  | past (inquiry : Inquiry) (first : Time)
  | fresh (inquiry : Inquiry) (first again : Time)
  | decided (inquiry : Inquiry) (first again last : Time) (decision : AuthorizationDecision)
  | refused (error : AuthorizeError)

/-- The published snapshots, the calls, the latest instant the clock was read at and
the calls whose swaps published a snapshot. -/
structure Cache where
  active : Register CachedSnapshot
  calls : Nat → Call
  clock : Time
  publishers : List Nat

inductive Event where
  | fetch (caller : Nat) (reply : Option ActivePolicyBundle)
  | validate (caller : Nat)
  | readClock (caller : Nat) (now : Time)
  | load (caller : Nat)
  | check (caller : Nat)
  | swap (caller : Nat)
  | authorize (caller : Nat) (request : AuthorizationRequest)
  | testPast (caller : Nat) (now : Time)
  | testAge (caller : Nat) (now : Time)
  | evaluate (caller : Nat) (now : Time)

namespace Cache

def initial (clock : Time) : Cache := ⟨.empty, fun _ => .idle, clock, []⟩

def setCall (cache : Cache) (caller : Nat) (call : Call) : Cache :=
  { cache with calls := Function.update cache.calls caller call }

/-- A reading of the clock, which never goes back. -/
def read (cache : Cache) (now : Time) : Option Cache :=
  if cache.clock ≤ now then some { cache with clock := now } else none

variable (encoding : Encoding) (settings : Settings)

def fetch (reply : Option ActivePolicyBundle) : Call :=
  if settings.hasSource then
    match reply with
    | some bundle => .fetched bundle
    | none => .failed .fetch
  else .failed .policyUnavailable

def validate (bundle : ActivePolicyBundle) : Call :=
  match bundle.validate with
  | .error error => .failed (.invalid error)
  | .ok _ =>
    match encoding.detach bundle with
    | none => .failed .encoding
    | some detached => .detached detached (encoding.digest detached.bundle)

def check (next : CachedSnapshot) (pointer : Nat) (current : Option CachedSnapshot) : Call :=
  match next.check current with
  | .error error => .failed error
  | .ok _ => .checked next pointer

/-- The swap of a refresh; one that fails makes the refresh load again. -/
def swap (cache : Cache) (caller : Nat) (next : CachedSnapshot) (pointer : Nat) : Cache :=
  match cache.active.compareAndSwap pointer next with
  | some active =>
    { cache.setCall caller .refreshed with active, publishers := caller :: cache.publishers }
  | none => cache.setCall caller (.verified next)

def authorize (cache : Cache) (request : AuthorizationRequest) : Call :=
  match cache.active.value with
  | none => .refused .policyUnavailable
  | some active => .authorizing ⟨request, active⟩

def testPast (inquiry : Inquiry) (now : Time) : Call :=
  if now < inquiry.active.verifiedAt then .refused .policyUnavailable else .past inquiry now

def testAge (inquiry : Inquiry) (first now : Time) : Call :=
  if now < inquiry.active.verifiedAt + settings.maxStaleness then .fresh inquiry first now
  else .refused .policyUnavailable

def step (cache : Cache) : Event → Option Cache
  | .fetch caller reply =>
    match cache.calls caller with
    | .idle => some (cache.setCall caller (fetch settings reply))
    | _ => none
  | .validate caller =>
    match cache.calls caller with
    | .fetched bundle => some (cache.setCall caller (validate encoding bundle))
    | _ => none
  | .readClock caller now =>
    match cache.calls caller with
    | .detached bundle digest =>
      (cache.read now).map (·.setCall caller (.verified ⟨bundle, now, digest⟩))
    | _ => none
  | .load caller =>
    match cache.calls caller with
    | .verified next =>
      some (cache.setCall caller (.loaded next cache.active.pointer cache.active.value))
    | _ => none
  | .check caller =>
    match cache.calls caller with
    | .loaded next pointer current => some (cache.setCall caller (check next pointer current))
    | _ => none
  | .swap caller =>
    match cache.calls caller with
    | .checked next pointer => some (cache.swap caller next pointer)
    | _ => none
  | .authorize caller request =>
    match cache.calls caller with
    | .idle => some (cache.setCall caller (cache.authorize request))
    | _ => none
  | .testPast caller now =>
    match cache.calls caller with
    | .authorizing inquiry => (cache.read now).map (·.setCall caller (testPast inquiry now))
    | _ => none
  | .testAge caller now =>
    match cache.calls caller with
    | .past inquiry first =>
      (cache.read now).map (·.setCall caller (testAge settings inquiry first now))
    | _ => none
  | .evaluate caller now =>
    match cache.calls caller with
    | .fresh inquiry first again =>
      match inquiry.request.checkPrincipal with
      | .error error => some (cache.setCall caller (.refused error))
      | .ok _ =>
        (cache.read now).map (·.setCall caller (.decided inquiry first again now
          (inquiry.request.decision inquiry.active now)))
    | _ => none

end Cache

def policyCache (encoding : Encoding) (settings : Settings) : System Cache Event where
  initial cache := ∃ clock, cache = .initial clock
  step := Cache.step encoding settings

end OufMcp.Policy
