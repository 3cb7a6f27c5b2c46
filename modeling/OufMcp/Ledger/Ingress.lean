import Mathlib.Data.String.Basic
import OufMcp.Json.Tree
import OufMcp.Ledger.Attribution
import OufMcp.Sorting.Slice

/-!
# Ingress of owner evidence

`evidence.Service.Ingest` in front of the inbox.  It trusts the owner of the caller's
identity, names the evidence by owner and backend request, sorts the object hashes
and hashes the canonical document; the store then knows a second report of the same
evidence by that hash.
-/

namespace OufMcp.Ledger.Evidence

open Relational Transition Sorting

/-! ## The service -/

structure TrustedIdentity where
  authenticated : Bool
  servicePrincipalId : String
  backendOwner : String
  deriving DecidableEq, Repr

structure Input where
  claimedOwner : String
  backendRequestId : String
  kind : String
  terminalState : String
  outcomeCode : String
  resultRef : String
  actualDistinctObjects : Int64
  objectHashes : List String
  deriving DecidableEq, Repr

inductive IngestError where
  | unauthenticated
  | invalidEvidenceInput
  | store (error : StoreError)
  deriving DecidableEq, Repr

structure Hashing where
  /-- `uuid.NewSHA1` in the name space of object identifiers. -/
  uuidV5 : String → UUID
  /-- `hex.EncodeToString` of `sha256.Sum256`. -/
  sha256Hex : List Char → String
  isHex : ∀ document, hexDigest (sha256Hex document) = true

namespace Input

/-- `append([]string(nil), hashes...)`, sorted; a copy of no hashes is the nil slice. -/
def canonicalHashes (input : Input) : Option (List String) :=
  match input.objectHashes with
  | [] => none
  | first :: rest => some ((first :: rest).insertionSort (· ≤ ·))

end Input

namespace Hashing

def evidenceRef (hash : Hashing) (owner backendRequestId : String) : UUID :=
  hash.uuidV5 (owner ++ "\x00" ++ backendRequestId)

/-- The struct that `Ingest` marshals; the fields of the input follow the owner's. -/
def canonical (hash : Hashing) (identity : TrustedIdentity) (input : Input) :
    Json.Value String Int :=
  .obj [("EvidenceRef",
      .str (uuidString (hash.evidenceRef identity.backendOwner input.backendRequestId))),
    ("BackendOwner", .str identity.backendOwner),
    ("ClaimedOwner", .str input.claimedOwner),
    ("BackendRequestID", .str input.backendRequestId),
    ("Kind", .str input.kind),
    ("TerminalState", .str input.terminalState),
    ("OutcomeCode", .str input.outcomeCode),
    ("ResultRef", .str input.resultRef),
    ("ActualDistinctObjects", .num input.actualDistinctObjects.toInt),
    ("ObjectHashes", match input.canonicalHashes with
      | none => .null
      | some hashes => .arr (hashes.map .str))]

def document (hash : Hashing) (identity : TrustedIdentity) (input : Input) : List Char :=
  Json.render Json.text Json.integers (hash.canonical identity input)

def verified (hash : Hashing) (identity : TrustedIdentity) (input : Input) : Verified where
  evidenceRef := hash.evidenceRef identity.backendOwner input.backendRequestId
  backendOwner := identity.backendOwner
  backendRequestId := input.backendRequestId
  kind := input.kind
  terminalState := input.terminalState
  outcomeCode := input.outcomeCode
  resultRef := input.resultRef
  actualDistinctObjects := input.actualDistinctObjects.toInt
  objectHashes := input.canonicalHashes
  payloadHash := hash.sha256Hex (hash.document identity input)

end Hashing

/-- What `Ingest` asks of the caller's identity. -/
def TrustedIdentity.Trusted (identity : TrustedIdentity) : Prop :=
  identity.authenticated = true ∧ identity.servicePrincipalId ≠ "" ∧ identity.backendOwner ≠ ""

/-- A claimed owner may be left out, but not differ from the trusted one. -/
def Input.ClaimFits (input : Input) (identity : TrustedIdentity) : Prop :=
  input.claimedOwner = "" ∨ input.claimedOwner = identity.backendOwner

def Input.Shaped (input : Input) : Prop :=
  input.backendRequestId ≠ "" ∧
    (input.kind = "OWNER_RESULT" ∨ input.kind = "OWNER_PROVES_NO_DISPATCH")

instance (identity : TrustedIdentity) : Decidable identity.Trusted :=
  inferInstanceAs (Decidable (_ ∧ _))

instance (input : Input) (identity : TrustedIdentity) : Decidable (input.ClaimFits identity) :=
  inferInstanceAs (Decidable (_ ∨ _))

instance (input : Input) : Decidable input.Shaped := inferInstanceAs (Decidable (_ ∧ _))

def ingest (hash : Hashing) (db : Database) (identity : TrustedIdentity) (input : Input) :
    Except IngestError (IngressResult × Database) := do
  ensure identity.Trusted .unauthenticated
  ensure (input.ClaimFits identity) (.store .ownerMismatch)
  ensure input.Shaped .invalidEvidenceInput
  (Store.insertVerifiedEvidence db (hash.verified identity input)).mapError .store

/-! ## What a document says -/

/-- The inputs denote the same evidence. -/
structure Input.SameEvidence (a b : Input) : Prop where
  request : a.backendRequestId = b.backendRequestId
  kind : a.kind = b.kind
  terminal : a.terminalState = b.terminalState
  outcome : a.outcomeCode = b.outcomeCode
  result : a.resultRef = b.resultRef
  objects : a.actualDistinctObjects = b.actualDistinctObjects
  hashes : a.objectHashes.Perm b.objectHashes

theorem Input.canonicalHashes_eq_iff {a b : Input} :
    a.canonicalHashes = b.canonicalHashes ↔ a.objectHashes.Perm b.objectHashes := by
  unfold Input.canonicalHashes
  cases left : a.objectHashes with
  | nil =>
    cases right : b.objectHashes with
    | nil => simp
    | cons second others => simp
  | cons first rest =>
    cases right : b.objectHashes with
    | nil => simp
    | cons second others => simp only [Option.some.injEq, insertionSort_eq_iff]

/-- The hashed document tells the evidence, and also the claimed owner. -/
theorem Hashing.document_eq_iff (hash : Hashing) (identity : TrustedIdentity) (a b : Input) :
    hash.document identity a = hash.document identity b ↔
      a.SameEvidence b ∧ a.claimedOwner = b.claimedOwner := by
  have listed : ∀ a b : Option (List String),
      (match a with
        | none => (.null : Json.Value String Int)
        | some hashes => .arr (hashes.map .str)) =
      (match b with
        | none => .null
        | some hashes => .arr (hashes.map .str)) ↔ a = b := by
    have injective : Function.Injective (Json.Value.str : String → Json.Value String Int) := by
      intro a b same
      exact Json.Value.str.inj same
    intro a b
    cases a <;> cases b <;> simp [List.map_inj_right injective]
  unfold Hashing.document
  rw [(Json.render_injective Json.text_injective).eq_iff]
  simp only [Hashing.canonical, Json.Value.obj.injEq, List.cons.injEq, Prod.mk.injEq,
    Json.Value.str.injEq, Json.Value.num.injEq, true_and, and_true, listed,
    Input.canonicalHashes_eq_iff, Int64.toInt_inj]
  constructor
  · rintro ⟨-, claimed, request, kind, terminal, outcome, result, objects, hashes⟩
    exact ⟨⟨request, kind, terminal, outcome, result, objects, hashes⟩, claimed⟩
  · rintro ⟨⟨request, kind, terminal, outcome, result, objects, hashes⟩, claimed⟩
    exact ⟨by rw [request], claimed, request, kind, terminal, outcome, result, objects, hashes⟩

end OufMcp.Ledger.Evidence
