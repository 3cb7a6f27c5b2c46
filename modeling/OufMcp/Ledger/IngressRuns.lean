import OufMcp.Ledger.Ingress

/-!
# Ingress and the inbox

What `Ingest` does to the inbox it finds.  A second report of stored evidence is
known by the hash of its document, which also contains the owner as claimed: leaving
the owner out once and naming it the next time is taken for different evidence.  An
empty list of hashes reaches the database as `NULL` and is never stored.
-/

namespace OufMcp.Ledger.Evidence

open Relational Transition

variable {result : IngressResult} {db : Database} {state : StoreState} {ref : UUID}

theorem ingest_eq_ok {hash : Hashing} {db after : Database} {identity : TrustedIdentity}
    {input : Input} :
    ingest hash db identity input = .ok (result, after) ↔
      identity.Trusted ∧ input.ClaimFits identity ∧ input.Shaped ∧
        Store.insertVerifiedEvidence db (hash.verified identity input) = .ok (result, after) := by
  have mapped : ∀ outcome : Except StoreError (IngressResult × Database),
      outcome.mapError IngestError.store = .ok (result, after) ↔ outcome = .ok (result, after) := by
    intro outcome
    cases outcome <;> simp [Except.mapError]
  simp only [ingest, bind_eq_ok, ensure_eq_ok, exists_const, mapped]

theorem ingest_of_accepted {hash : Hashing} {identity : TrustedIdentity} {input : Input}
    (trusted : identity.Trusted) (claim : input.ClaimFits identity) (shaped : input.Shaped) :
    ingest hash db identity input =
      (Store.insertVerifiedEvidence db (hash.verified identity input)).mapError .store := by
  simp [ingest, ensure, trusted, claim, shaped]
  rfl

/-! ## A second report -/

def Hashing.Stored (hash : Hashing) (db : Database) (identity : TrustedIdentity) (input : Input)
    (ref : UUID) : Prop :=
  ∃ row, db.evidence.get ref = some row ∧ row.backendOwner = identity.backendOwner ∧
    row.backendRequestId = input.backendRequestId ∧
    row.evidencePayloadHash = hash.sha256Hex (hash.document identity input)

theorem stored_of_ingest {hash : Hashing} {db after : Database} {identity : TrustedIdentity}
    {input : Input} (done : ingest hash db identity input = .ok (result, after)) :
    hash.Stored after identity input result.evidenceRef := by
  obtain ⟨-, -, -, inserted⟩ := ingest_eq_ok.mp done
  rcases insertVerifiedEvidence_cases inserted with
    ⟨row, found, owner, request, payload, -, rfl⟩ |
    ⟨id, context, kind, terminal, hashes, evidence, -, -, -, put, rfl, rfl⟩
  · exact ⟨row, found, owner, request, payload⟩
  · exact ⟨_, put.get_self, rfl, rfl, rfl⟩

theorem Hashing.Stored.perform {hash : Hashing} {operation : Operation} {next : Database}
    {identity : TrustedIdentity} {input : Input} (retained : state.Retained)
    (performed : state.perform operation = some next)
    (stored : hash.Stored state.db identity input ref) : hash.Stored next identity input ref := by
  obtain ⟨row, found, owner, request, payload⟩ := stored
  obtain ⟨later, still, _, _, rfl⟩ :=
    (perform_moves retained.sound performed).keepsEvidence retained.sound.formed found
  exact ⟨_, still, owner, request, payload⟩

theorem insertVerifiedEvidence_of_found {input : Verified} {row : InboxEvidence}
    (found : db.evidence.get ref = some row) (owner : row.backendOwner = input.backendOwner)
    (request : row.backendRequestId = input.backendRequestId) :
    Store.insertVerifiedEvidence db input =
      if row.evidencePayloadHash = input.payloadHash then .ok (⟨ref, true⟩, db)
      else .error .ingressConflict := by
  unfold Store.insertVerifiedEvidence
  split
  next existingRef existing selected =>
    have matched := List.find?_some selected
    obtain ⟨sameOwner, sameRequest⟩ := of_decide_eq_true matched
    have there := Table.mem_toList.mp (List.mem_of_find?_eq_some selected)
    have clash : ownerEvidenceInbox.clash existing row = true :=
      decide_eq_true ⟨sameOwner.trans owner.symm, sameRequest.trans request.symm⟩
    obtain rfl := db.evidence.unique existingRef existing ref row there found clash
    obtain rfl := Option.some.inj (there.symm.trans found)
    by_cases same : existing.evidencePayloadHash = input.payloadHash
    · simp [ensure, same]
    · simp [ensure, same]
  next absent =>
    have missed := List.find?_eq_none.mp absent _ (Table.mem_toList.mpr found)
    exact absurd (decide_eq_true ⟨owner, request⟩) missed

theorem ingest_of_stored {hash : Hashing} {identity : TrustedIdentity} {first second : Input}
    (trusted : identity.Trusted) (claim : second.ClaimFits identity) (shaped : second.Shaped)
    (request : first.backendRequestId = second.backendRequestId)
    (stored : hash.Stored db identity first ref) :
    ingest hash db identity second =
      if hash.sha256Hex (hash.document identity first) =
          hash.sha256Hex (hash.document identity second) then .ok (⟨ref, true⟩, db)
      else .error (.store .ingressConflict) := by
  obtain ⟨row, found, owner, sameRequest, payload⟩ := stored
  have answered : Store.insertVerifiedEvidence db (hash.verified identity second) = _ :=
    insertVerifiedEvidence_of_found found owner (sameRequest.trans request)
  have hashed : (hash.verified identity second).payloadHash =
      hash.sha256Hex (hash.document identity second) := rfl
  rw [ingest_of_accepted trusted claim shaped, answered, payload, hashed]
  by_cases same : hash.sha256Hex (hash.document identity first) =
      hash.sha256Hex (hash.document identity second)
  · rw [if_pos same, if_pos same]
    rfl
  · rw [if_neg same, if_neg same]
    rfl

theorem ingest_conflict_of_separated {hash : Hashing} {db after : Database}
    {identity : TrustedIdentity} {first second : Input} (trusted : identity.Trusted)
    (claim : second.ClaimFits identity) (shaped : second.Shaped)
    (request : first.backendRequestId = second.backendRequestId)
    (done : ingest hash db identity first = .ok (result, after))
    (separated : hash.sha256Hex (hash.document identity first) ≠
      hash.sha256Hex (hash.document identity second)) :
    ingest hash after identity second = .error (.store .ingressConflict) := by
  rw [ingest_of_stored trusted claim shaped request (stored_of_ingest done)]
  exact if_neg separated

/-! ## A first report -/

/-- The rules of `owner_evidence_inbox` for what an owner reports. -/
def Input.FollowsRules (input : Input) : Prop :=
  0 ≤ input.actualDistinctObjects.toInt ∧
    (input.terminalState = "SUCCEEDED" ∨ input.terminalState = "FAILED") ∧
    (input.kind = "OWNER_RESULT" ∧ input.resultRef ≠ "" ∨
      input.kind = "OWNER_PROVES_NO_DISPATCH" ∧ input.terminalState = "FAILED" ∧
        input.outcomeCode = "DISPATCH_NOT_STARTED" ∧ input.actualDistinctObjects.toInt = 0 ∧
        input.objectHashes = [] ∧ input.resultRef = "")

/-- A governed attempt that was sent to an owner and has no evidence yet. -/
structure Awaits (db : Database) (id : UUID) (context : AdmissionContext) (owner : String)
    (backendRequestId : String) : Prop where
  sent : ∃ attempt, db.attempts.get id = some attempt ∧
    attempt.backendRequestId = some backendRequestId
  governed : db.contexts.get id = some context
  owned : context.owner = owner
  unreported : ∀ ref row, db.evidence.get ref = some row → row.attemptId ≠ id

theorem attempt_of_request {first second : UUID} {a b : ToolAttempt} {backendRequestId : String}
    (foundA : db.attempts.get first = some a) (foundB : db.attempts.get second = some b)
    (sentA : a.backendRequestId = some backendRequestId)
    (sentB : b.backendRequestId = some backendRequestId) : first = second := by
  refine db.attempts.unique first a second b foundA foundB ?_
  simp [toolAttempt, sentA, sentB]

namespace Awaits

variable {db : Database} {id : UUID} {context : AdmissionContext} {owner request : String}

theorem attemptFor (awaits : Awaits db id context owner request) :
    Store.attemptFor db request owner = some (id, context) := by
  obtain ⟨attempt, found, sent⟩ := awaits.sent
  have listed : (id, context) ∈ db.attempts.toList.filterMap fun entry =>
      (db.contexts.get entry.1).bind fun context =>
        if entry.2.backendRequestId = some request ∧ context.owner = owner then
          some (entry.1, context)
        else none := by
    refine List.mem_filterMap.mpr ⟨(id, attempt), Table.mem_toList.mpr found, ?_⟩
    simp [awaits.governed, awaits.owned, sent]
  cases selected : Store.attemptFor db request owner with
  | none =>
    rw [Store.attemptFor, List.head?_eq_none_iff] at selected
    rw [selected] at listed
    cases listed
  | some entry =>
    obtain ⟨other, inContext⟩ := entry
    obtain ⟨attempt', found', governed', sent', -⟩ := attemptFor_eq_some selected
    obtain rfl := attempt_of_request found' found sent' sent
    obtain rfl := Option.some.inj (governed'.symm.trans awaits.governed)
    rfl

theorem unknown (awaits : Awaits db id context owner request) (formed : db.WellFormed)
    {row : InboxEvidence} (found : db.evidence.get ref = some row) :
    row.backendRequestId ≠ request := by
  rintro rfl
  obtain ⟨-, attempt, stored, same⟩ := formed.attributes found
  obtain ⟨own, there, sent⟩ := awaits.sent
  exact awaits.unreported ref row found (attempt_of_request stored there same sent)

theorem insertVerifiedEvidence (awaits : Awaits db id context owner request)
    (formed : db.WellFormed) {input : Verified} (ownerOf : input.backendOwner = owner)
    (requestOf : input.backendRequestId = request) {kind : EvidenceKind} {terminal : TerminalState}
    (kindOf : EvidenceKind.ofString? input.kind = some kind)
    (terminalOf : TerminalState.ofString? input.terminalState = some terminal) :
    Store.insertVerifiedEvidence db input = (do
      let hashes ← demand .constraintViolation input.objectHashes
      let evidence ← demand .constraintViolation (db.evidence.insert? input.evidenceRef
        (input.row id context.budgetWindowId kind terminal hashes))
      pure (⟨input.evidenceRef, false⟩, { db with evidence })) := by
  subst ownerOf requestOf
  have missing : (db.evidence.toList.find? fun entry =>
      decide (entry.2.backendOwner = input.backendOwner ∧
        entry.2.backendRequestId = input.backendRequestId)) = none := by
    refine List.find?_eq_none.mpr ?_
    rintro ⟨ref, row⟩ member matched
    exact awaits.unknown formed (Table.mem_toList.mp member) (of_decide_eq_true matched).2
  unfold Store.insertVerifiedEvidence
  rw [missing, awaits.attemptFor]
  simp only [kindOf, terminalOf]
  rfl

end Awaits

structure Filed (hash : Hashing) (db after : Database) (id : UUID) (identity : TrustedIdentity)
    (input : Input) : Prop where
  row : ∃ row, after.evidence.get
      (hash.evidenceRef identity.backendOwner input.backendRequestId) = some row ∧
    row.attemptId = id ∧ row.evidenceState = .verified ∧
    row.backendOwner = identity.backendOwner ∧ row.backendRequestId = input.backendRequestId ∧
    row.objectHashes = input.objectHashes.insertionSort (· ≤ ·)
  only : ∀ ref row, after.evidence.get ref = some row → row.attemptId = id →
    ref = hash.evidenceRef identity.backendOwner input.backendRequestId
  others : ∀ ref, ref ≠ hash.evidenceRef identity.backendOwner input.backendRequestId →
    after.evidence.get ref = db.evidence.get ref
  unchanged : after = { db with evidence := after.evidence }

section First

variable {hash : Hashing} {db : Database} {id : UUID} {context : AdmissionContext}
  {identity : TrustedIdentity} {input : Input}

theorem ofString?_of_rules (rules : input.FollowsRules) :
    ∃ kind terminal, EvidenceKind.ofString? input.kind = some kind ∧
      TerminalState.ofString? input.terminalState = some terminal := by
  obtain ⟨-, terminal, kind⟩ := rules
  have terminalOf : ∃ terminal, TerminalState.ofString? input.terminalState = some terminal := by
    rcases terminal with ended | ended
    · exact ⟨.succeeded, by rw [ended]; rfl⟩
    · exact ⟨.failed, by rw [ended]; rfl⟩
  obtain ⟨terminal, terminalOf⟩ := terminalOf
  rcases kind with ⟨kind, -⟩ | ⟨kind, -⟩
  · exact ⟨.ownerResult, terminal, by rw [kind]; rfl, terminalOf⟩
  · exact ⟨.ownerProvesNoDispatch, terminal, by rw [kind]; rfl, terminalOf⟩

/-- The nil slice is refused by the column's `not null`. -/
theorem ingest_of_no_hashes (formed : db.WellFormed) (trusted : identity.Trusted)
    (claim : input.ClaimFits identity) (shaped : input.Shaped)
    (awaits : Awaits db id context identity.backendOwner input.backendRequestId)
    (rules : input.FollowsRules) (empty : input.objectHashes = []) :
    ingest hash db identity input = .error (.store .constraintViolation) := by
  obtain ⟨kind, terminal, kindOf, terminalOf⟩ := ofString?_of_rules rules
  have nothing : (hash.verified identity input).objectHashes = none := by
    simp [Hashing.verified, Input.canonicalHashes, empty]
  have inserted : Store.insertVerifiedEvidence db (hash.verified identity input) = _ :=
    awaits.insertVerifiedEvidence formed rfl rfl kindOf terminalOf
  rw [ingest_of_accepted trusted claim shaped, inserted, nothing]
  rfl

theorem row_check (rules : input.FollowsRules) (some : input.objectHashes ≠ [])
    {kind : EvidenceKind} {terminal : TerminalState} {hashes : List String} {window : UUID}
    (kindOf : EvidenceKind.ofString? input.kind = .some kind) :
    ownerEvidenceInbox.check
      ((hash.verified identity input).row id window kind terminal hashes) = true := by
  obtain ⟨objects, -, result⟩ := rules
  have reported : input.kind = "OWNER_RESULT" ∧ input.resultRef ≠ "" := by
    rcases result with reported | ⟨-, -, -, -, empty, -⟩
    · exact reported
    · exact absurd empty some
  have own : kind = .ownerResult := by
    rw [reported.1] at kindOf
    exact (Option.some.inj kindOf).symm
  have counted : bigint input.actualDistinctObjects.toInt = true :=
    decide_eq_true ⟨input.actualDistinctObjects.le_toInt, input.actualDistinctObjects.toInt_lt⟩
  simp [ownerEvidenceInbox, Verified.row, Hashing.verified, objects, counted, hash.isHex, own,
    nullifEmpty, reported.2]

theorem ingest_of_hashes (formed : db.WellFormed) (trusted : identity.Trusted)
    (claim : input.ClaimFits identity) (shaped : input.Shaped)
    (awaits : Awaits db id context identity.backendOwner input.backendRequestId)
    (rules : input.FollowsRules) (some : input.objectHashes ≠ [])
    (free : db.evidence.get
      (hash.evidenceRef identity.backendOwner input.backendRequestId) = none) :
    ∃ after, ingest hash db identity input =
        .ok (⟨hash.evidenceRef identity.backendOwner input.backendRequestId, false⟩, after) ∧
      Filed hash db after id identity input := by
  obtain ⟨kind, terminal, kindOf, terminalOf⟩ := ofString?_of_rules rules
  have hashes : (hash.verified identity input).objectHashes =
      .some (input.objectHashes.insertionSort (· ≤ ·)) := by
    unfold Hashing.verified Input.canonicalHashes
    cases listed : input.objectHashes with
    | nil => exact absurd listed some
    | cons first rest => rfl
  have inserted : Store.insertVerifiedEvidence db (hash.verified identity input) = _ :=
    awaits.insertVerifiedEvidence formed rfl rfl kindOf terminalOf
  obtain ⟨evidence, put⟩ := Table.exists_insert? free (row_check rules some kindOf) (by
    intro other old found
    have differ := awaits.unknown formed found
    exact ⟨decide_eq_false fun same => differ same.2,
      decide_eq_false fun same => differ same.2.symm⟩)
  have puts := (Table.insert?_eq_some.mp put).2
  refine ⟨{ db with evidence }, ?_, ⟨_, puts.get_self, rfl, rfl, rfl, rfl, rfl⟩, ?_, ?_, rfl⟩
  · have stored : Store.insertVerifiedEvidence db (hash.verified identity input) =
        .ok (⟨hash.evidenceRef identity.backendOwner input.backendRequestId, false⟩,
          { db with evidence }) := by
      rw [inserted, hashes]
      refine bind_eq_ok.mpr ⟨_, rfl, ?_⟩
      exact bind_eq_ok.mpr ⟨evidence, demand_eq_ok.mpr put, rfl⟩
    rw [ingest_of_accepted trusted claim shaped, stored]
    rfl
  · intro ref row found mine
    by_contra other
    exact awaits.unreported ref row ((puts.get_of_ne other).symm.trans found) mine
  · intro ref other
    exact puts.get_of_ne other

end First

/-! ## Runs in which evidence comes through ingress -/

/-- Evidence enters the store only as `Ingest` prepares it. -/
def ThroughIngress (hash : Hashing) (state : StoreState) (event : RetentionEvent) : Prop :=
  RetentionEvent.Fresh state event ∧
    ∀ verified, event = .operation (.insertVerifiedEvidence verified) →
      ∃ identity input, verified = hash.verified identity input

def Referenced (hash : Hashing) (db : Database) : Prop :=
  ∀ ref row, db.evidence.get ref = some row →
    ref = hash.evidenceRef row.backendOwner row.backendRequestId

theorem Referenced.move {hash : Hashing} {kind : Kind} {before after : Database}
    (referenced : Referenced hash before) (move : Move kind before after)
    (quiet : kind ≠ .ingest) : Referenced hash after := by
  intro ref row found
  rcases move.evidence_origin found with ⟨old, was, same⟩ | ⟨ingested, -⟩
  · rw [same.owner, same.request]
    exact referenced ref old was
  · exact absurd ingested quiet

theorem Referenced.insertVerifiedEvidence {hash : Hashing} {db after : Database}
    {identity : TrustedIdentity} {input : Input} (referenced : Referenced hash db)
    (done : Store.insertVerifiedEvidence db (hash.verified identity input) = .ok (result, after)) :
    Referenced hash after := by
  rcases insertVerifiedEvidence_cases done with ⟨-, -, -, -, -, -, rfl⟩ |
    ⟨id, context, kind, terminal, hashes, evidence, -, -, -, put, -, rfl⟩
  · exact referenced
  · intro ref row found
    by_cases same : ref = (hash.verified identity input).evidenceRef
    · subst same
      obtain rfl := Option.some.inj (put.get_self.symm.trans found)
      rfl
    · exact referenced ref row ((put.get_of_ne same).symm.trans found)

theorem Operation.ingest_of_allows {operation : Operation} (allowed : operation.allows .ingest) :
    ∃ verified, operation = .insertVerifiedEvidence verified := by
  cases operation with
  | insertVerifiedEvidence verified => exact ⟨verified, rfl⟩
  | _ => simp [Operation.allows, Kind.stale] at allowed

theorem Referenced.perform {hash : Hashing} {event : RetentionEvent} (retained : state.Retained)
    (referenced : Referenced hash state.db) (through : ThroughIngress hash state event)
    (performed : event.perform state = some db) : Referenced hash db := by
  rcases retained.perform_cases performed with ⟨operation, rfl⟩ | ⟨gone, drops, -⟩
  · by_cases ingests : operation.allows .ingest
    · obtain ⟨verified, rfl⟩ := Operation.ingest_of_allows ingests
      obtain ⟨identity, input, rfl⟩ := through.2 verified rfl
      obtain ⟨result, done⟩ := map_snd_toOption performed
      exact referenced.insertVerifiedEvidence done
    · have moves := perform_moves retained.sound performed
      refine moves.invariant (P := Referenced hash) retained.sound.formed referenced ?_
      rintro kind a b allowed - move before
      refine before.move move ?_
      rintro rfl
      exact ingests allowed
  · intro ref row found
    exact referenced ref row (drops.evidence ref row found).1

theorem ThroughIngress.retained {hash : Hashing}
    (reached : retention.Reachable (ThroughIngress hash) state) : state.Retained :=
  retention_retained (reached.mono fun _ _ through => through.1)

theorem ThroughIngress.referenced {hash : Hashing} {state : StoreState}
    (reached : retention.Reachable (ThroughIngress hash) state) : Referenced hash state.db := by
  refine reached.induction (P := fun state => Referenced hash state.db) ?_ ?_
  · rintro _ ⟨manifests, valid, rfl⟩ ref row found
    cases found
  · rintro before event after earlier referenced through stepped
    obtain rfl := Option.some.inj stepped
    cases performed : event.perform before with
    | none => exact referenced
    | some db => exact referenced.perform (ThroughIngress.retained earlier) through performed

/-! ## A search without answer -/

def Hashing.telling (document : List Char) : Hashing where
  uuidV5 _ := 7
  sha256Hex other := if other = document then sampleChecksum else
    "bbbbbbbbbbbbbbbbbbbbbbbbbbbbbbbbbbbbbbbbbbbbbbbbbbbbbbbbbbbbbbbb"
  isHex other := by
    split
    · decide
    · decide

theorem Hashing.telling_self (document : List Char) :
    (Hashing.telling document).sha256Hex document = sampleChecksum := if_pos rfl

theorem Hashing.telling_other {document other : List Char} (differ : other ≠ document) :
    (Hashing.telling document).sha256Hex other ≠ sampleChecksum := by
  have value : (Hashing.telling document).sha256Hex other =
      "bbbbbbbbbbbbbbbbbbbbbbbbbbbbbbbbbbbbbbbbbbbbbbbbbbbbbbbbbbbbbbbb" := if_neg differ
  rw [value]
  decide

theorem Hashing.telling_document (document : List Char) (identity : TrustedIdentity)
    (input : Input) :
    (Hashing.telling document).document identity input =
      (Hashing.telling []).document identity input := rfl

def Hashing.tells (identity : TrustedIdentity) (input : Input) : Hashing :=
  .telling ((Hashing.telling []).document identity input)

theorem Hashing.tells_separates {identity : TrustedIdentity} {a b : Input}
    (differ : a.claimedOwner ≠ b.claimedOwner) :
    (tells identity a).sha256Hex ((tells identity a).document identity a) ≠
      (tells identity a).sha256Hex ((tells identity a).document identity b) := by
  have other : (Hashing.telling []).document identity b ≠
      (Hashing.telling []).document identity a := by
    rw [ne_eq, Hashing.document_eq_iff]
    exact fun equal => differ equal.2.symm
  have first := Hashing.telling_document ((Hashing.telling []).document identity a) identity a
  have second := Hashing.telling_document ((Hashing.telling []).document identity a) identity b
  rw [tells, first, second]
  exact fun same => Hashing.telling_other other (same.symm.trans (Hashing.telling_self _))

def sentSearch : List RetentionEvent :=
  [.operation (.reserve 0 ⟨10, 11, 0⟩ ((searchCall "first" "one" 5).admission 1)),
    .operation (.dispatch 0 1 "request" second 0)]

def udp : TrustedIdentity := ⟨true, "udp-workload", "udp"⟩

def oneObject (claimedOwner : String) : Input :=
  ⟨claimedOwner, "request", "OWNER_RESULT", "SUCCEEDED", "OK", "result", 1,
    ["v1:hmac-sha256:aaaaaaaaaaaaaaaaaaaaaaaaaaaaaaaa"]⟩

def neverStarted : Input :=
  ⟨"udp", "request", "OWNER_PROVES_NO_DISPATCH", "FAILED", "DISPATCH_NOT_STARTED", "", 0, []⟩

theorem sentSearch_awaits (hash : Hashing) : ∃ state context,
    retention.Reachable (ThroughIngress hash) state ∧
      Awaits state.db 1 context "udp" "request" ∧ ∀ ref, state.db.evidence.get ref = none := by
  have sound : ∀ event ∈ sentSearch, ∀ state : StoreState,
      (state.past.isEmpty || (state.db.attempts.get 1).isSome) = true →
      ThroughIngress hash state event := by
    intro event member state early
    rcases List.mem_cons.mp member with rfl | last
    · refine ⟨RetentionEvent.fresh_of_unpurged early, ?_⟩
      intro verified impossible
      cases impossible
    · rw [List.mem_singleton.mp last]
      refine ⟨trivial, ?_⟩
      intro verified impossible
      cases impossible
  obtain ⟨state, -, reached, checked⟩ := System.exists_reachable sound sampleStore_initial
    (show (retention.replay _ _ sentSearch).any (fun state =>
      (state.db.attempts.get 1).any (fun attempt : ToolAttempt =>
        decide (attempt.backendRequestId = some "request")) &&
      (state.db.contexts.get 1).any (fun context : AdmissionContext =>
        decide (context.owner = "udp")) &&
      state.db.evidence.toList.isEmpty) = true by decide +kernel)
  simp only [Bool.and_eq_true, Option.any_eq_true, decide_eq_true_eq, List.isEmpty_iff] at checked
  obtain ⟨⟨⟨attempt, found, sent⟩, context, governed, owned⟩, empty⟩ := checked
  have none : ∀ ref, state.db.evidence.get ref = none := by
    intro ref
    refine Option.eq_none_iff_forall_ne_some.mpr fun row stored => ?_
    have member := Table.mem_toList.mpr stored
    rw [empty] at member
    cases member
  refine ⟨state, context, reached, ⟨⟨attempt, found, sent⟩, governed, owned, ?_⟩, none⟩
  intro ref row stored
  cases (none ref).symm.trans stored

theorem udp_trusted : udp.Trusted := by decide

theorem oneObject_followsRules (claimedOwner : String) : (oneObject claimedOwner).FollowsRules :=
  ⟨show (0 : Int) ≤ (1 : Int64).toInt by decide, .inl rfl,
    .inl ⟨rfl, show "result" ≠ "" by decide⟩⟩

theorem neverStarted_followsRules : neverStarted.FollowsRules :=
  ⟨by decide, .inr rfl, .inr ⟨rfl, rfl, rfl, by decide, rfl, rfl⟩⟩

theorem oneObject_sameEvidence (a b : String) : (oneObject a).SameEvidence (oneObject b) :=
  ⟨rfl, rfl, rfl, rfl, rfl, rfl, .refl _⟩

theorem oneObject_stored : ∃ state after,
    retention.Reachable (ThroughIngress (.tells udp (oneObject "udp"))) state ∧
      ingest (.tells udp (oneObject "udp")) state.db udp (oneObject "udp") =
        .ok (⟨7, false⟩, after) := by
  obtain ⟨state, context, reached, awaits, empty⟩ :=
    sentSearch_awaits (.tells udp (oneObject "udp"))
  have claim : (oneObject "udp").ClaimFits udp := by decide
  have shaped : (oneObject "udp").Shaped := by decide
  obtain ⟨after, done, -⟩ := ingest_of_hashes (ThroughIngress.retained reached).sound.formed
    udp_trusted claim shaped awaits (oneObject_followsRules "udp") (by decide) (empty _)
  exact ⟨state, after, reached, done⟩

/-! ## What ingress stores and what it knows again -/

/-- A first report that follows the rules of the inbox is stored exactly when it lists an object
hash, apart from what `Ingest` refuses by its shape. -/
theorem ingest_stores_iff {hash : Hashing} {state : StoreState} {id : UUID}
    {context : AdmissionContext} {identity : TrustedIdentity} {input : Input}
    (reached : retention.Reachable (ThroughIngress hash) state) (trusted : identity.Trusted)
    (awaits : Awaits state.db id context identity.backendOwner input.backendRequestId)
    (rules : input.FollowsRules)
    (separated : ∀ ref row, state.db.evidence.get ref = some row →
      hash.evidenceRef row.backendOwner row.backendRequestId =
        hash.evidenceRef identity.backendOwner input.backendRequestId →
      row.backendRequestId = input.backendRequestId) :
    (∃ after, ingest hash state.db identity input =
        .ok (⟨hash.evidenceRef identity.backendOwner input.backendRequestId, false⟩, after) ∧
      Filed hash state.db after id identity input) ↔
      input.ClaimFits identity ∧ input.backendRequestId ≠ "" ∧ input.objectHashes ≠ [] := by
  have referenced := ThroughIngress.referenced reached
  have formed := (ThroughIngress.retained reached).sound.formed
  constructor
  · rintro ⟨after, done, -⟩
    obtain ⟨-, claim, shaped, -⟩ := ingest_eq_ok.mp done
    refine ⟨claim, shaped.1, fun empty => ?_⟩
    rw [ingest_of_no_hashes formed trusted claim shaped awaits rules empty] at done
    cases done
  · rintro ⟨claim, request, some⟩
    have shaped : input.Shaped := ⟨request, rules.2.2.imp (·.1) (·.1)⟩
    refine ingest_of_hashes formed trusted claim shaped awaits rules some ?_
    refine Option.eq_none_iff_forall_ne_some.mpr fun row found => ?_
    have same := separated _ row found (referenced _ row found).symm
    exact awaits.unknown formed found same

theorem ingest_stores_iff_oneObject : ∃ state after,
    retention.Reachable (ThroughIngress (.telling [])) state ∧
      ingest (.telling []) state.db udp (oneObject "udp") = .ok (⟨7, false⟩, after) ∧
      Filed (.telling []) state.db after 1 udp (oneObject "udp") := by
  obtain ⟨state, context, reached, awaits, empty⟩ := sentSearch_awaits (.telling [])
  have stores := ingest_stores_iff reached udp_trusted awaits (oneObject_followsRules "udp") (by
    intro ref row found
    cases (empty ref).symm.trans found)
  obtain ⟨after, done, filed⟩ := stores.mpr (by decide)
  exact ⟨state, after, reached, done, filed⟩

/-- The proof that a call never started follows the rules and is not stored. -/
theorem neverStarted_refused : ∃ state context,
    retention.Reachable (ThroughIngress (.telling [])) state ∧ udp.Trusted ∧
      neverStarted.ClaimFits udp ∧
      Awaits state.db 1 context udp.backendOwner neverStarted.backendRequestId ∧
      neverStarted.FollowsRules ∧
      ingest (.telling []) state.db udp neverStarted = .error (.store .constraintViolation) := by
  obtain ⟨state, context, reached, awaits, -⟩ := sentSearch_awaits (.telling [])
  have claim : neverStarted.ClaimFits udp := by decide
  exact ⟨state, context, reached, udp_trusted, claim, awaits, neverStarted_followsRules,
    ingest_of_no_hashes (ThroughIngress.retained reached).sound.formed udp_trusted claim
      (by decide) awaits neverStarted_followsRules rfl⟩

/-- Once evidence is stored, the same evidence is a replay exactly when the owner is claimed as
before, and other evidence for the request is a conflict. -/
theorem ingest_idempotent_iff (hash : Hashing) {identity : TrustedIdentity} {first second : Input}
    (trusted : identity.Trusted) (claim : second.ClaimFits identity) (shaped : second.Shaped)
    (request : first.backendRequestId = second.backendRequestId)
    (separated : hash.sha256Hex (hash.document identity first) =
      hash.sha256Hex (hash.document identity second) →
        hash.document identity first = hash.document identity second) :
    (∀ db result after, ingest hash db identity first = .ok (result, after) →
      hash.Stored after identity first result.evidenceRef) ∧
    (∀ state, retention.Reachable RetentionEvent.Fresh state →
      ∀ operation next ref, state.perform operation = some next →
        hash.Stored state.db identity first ref → hash.Stored next identity first ref) ∧
    ∀ db ref, hash.Stored db identity first ref →
      (first.SameEvidence second → (ingest hash db identity second = .ok (⟨ref, true⟩, db) ↔
        first.claimedOwner = second.claimedOwner)) ∧
      (¬ first.SameEvidence second →
        ingest hash db identity second = .error (.store .ingressConflict)) := by
  refine ⟨fun db result after done => stored_of_ingest done, ?_, ?_⟩
  · intro state reached operation next ref performed stored
    exact stored.perform (retention_retained reached) performed
  · intro db ref stored
    have answer := ingest_of_stored trusted claim shaped request stored
    have document : hash.sha256Hex (hash.document identity first) =
        hash.sha256Hex (hash.document identity second) ↔
        first.SameEvidence second ∧ first.claimedOwner = second.claimedOwner := by
      rw [← hash.document_eq_iff identity first second]
      exact ⟨separated, congrArg _⟩
    rw [answer]
    constructor
    · intro same
      constructor
      · intro replayed
        by_contra differ
        rw [if_neg fun equal => differ (document.mp equal).2] at replayed
        cases replayed
      · intro claimed
        rw [if_pos (document.mpr ⟨same, claimed⟩)]
    · intro other
      exact if_neg fun equal => other (document.mp equal).1

theorem ingest_idempotent_iff_oneObject : ∃ state after,
    retention.Reachable (ThroughIngress (.tells udp (oneObject "udp"))) state ∧
      ingest (.tells udp (oneObject "udp")) state.db udp (oneObject "udp") =
        .ok (⟨7, false⟩, after) ∧
      ingest (.tells udp (oneObject "udp")) after udp (oneObject "udp") =
        .ok (⟨7, true⟩, after) := by
  obtain ⟨state, after, reached, done⟩ := oneObject_stored
  have claim : (oneObject "udp").ClaimFits udp := by decide
  have shaped : (oneObject "udp").Shaped := by decide
  obtain ⟨stored, -, again⟩ := @ingest_idempotent_iff (.tells udp (oneObject "udp")) udp
    (oneObject "udp") (oneObject "udp") udp_trusted claim shaped rfl fun _ => rfl
  refine ⟨state, after, reached, done, ?_⟩
  exact ((again after 7 (stored _ _ _ done)).1 (oneObject_sameEvidence _ _)).mpr rfl

/-- A report repeated without naming the owner is taken for different evidence. -/
theorem oneObject_conflict : ∃ state after,
    retention.Reachable (ThroughIngress (.tells udp (oneObject "udp"))) state ∧ udp.Trusted ∧
      (oneObject "udp").SameEvidence (oneObject "") ∧ (oneObject "").ClaimFits udp ∧
      (oneObject "").Shaped ∧
      ingest (.tells udp (oneObject "udp")) state.db udp (oneObject "udp") =
        .ok (⟨7, false⟩, after) ∧
      ingest (.tells udp (oneObject "udp")) after udp (oneObject "") =
        .error (.store .ingressConflict) := by
  obtain ⟨state, after, reached, done⟩ := oneObject_stored
  have claim : (oneObject "").ClaimFits udp := .inl rfl
  have shaped : (oneObject "").Shaped := by decide
  have differ : (oneObject "udp").claimedOwner ≠ (oneObject "").claimedOwner := by decide
  have request : (oneObject "udp").backendRequestId = (oneObject "").backendRequestId := rfl
  have conflict := ingest_conflict_of_separated udp_trusted claim shaped request done
    (Hashing.tells_separates differ)
  exact ⟨state, after, reached, udp_trusted, oneObject_sameEvidence _ _, claim, shaped, done,
    conflict⟩

end OufMcp.Ledger.Evidence
