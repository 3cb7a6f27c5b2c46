import Mathlib.Data.Fintype.Basic
import OufMcp.Relational.RowLocks
import OufMcp.Ledger.Worker

/-!
# The statements of the recovery transactions

`MarkStaleAndClaim`, `ApplyOwnerEvidence` and `ExpireUnknown` statement by statement,
as several workers run them at once.  Only their statements on `tool_attempt` are
steps: the locks on windows and guards make a transaction wait, and what fails there
ends it, which may happen between any two steps.  The query for candidates and that of
`ExpireUnknown` return any rows that satisfy their conditions, up to the limit, so that
their order and the choice among them do not matter.  The loops over stale admissions and
stale dispatches are wider than the code's: they may lock any rows, in any number, and
what the code's queries choose is one way to do so.
-/

namespace OufMcp.Ledger

open Relational Transition

variable {now stamp : Time} {id : UUID} {evidence : OwnerEvidence}

/-- Where a worker's transaction is. -/
inductive Transaction where
  | idle
  /-- The loop over stale admissions, of any rows; this one is locked and about to be updated. -/
  | releasing (now leaseUntil : Time) (limit : Nat) (row : Option UUID)
  /-- The loop over stale dispatches. -/
  | losing (now leaseUntil : Time) (limit : Nat) (row : Option UUID)
  /-- The loop over the candidates, which are locked. -/
  | holding (now leaseUntil : Time) (todo out : List UUID)
  /-- `ApplyOwnerEvidence`, before or after it locked the attempt. -/
  | applying (id : UUID) (evidence : OwnerEvidence) (locked : Bool)
  | applied
  /-- The loop of `ExpireUnknown`; the first row may be locked. -/
  | expiring (now : Time) (todo : List UUID) (locked : Bool)
  deriving DecidableEq, Repr

variable {phase : Transaction}

inductive Statement (τ : Type) where
  | tick (time : Time)
  | claim (worker : τ) (now lease : Time) (limit : Nat)
  | apply (worker : τ) (id : UUID) (evidence : OwnerEvidence)
  /-- The query of `ExpireUnknown`. -/
  | expire (worker : τ) (now unknownBefore : Time) (limit : Nat) (picked : List UUID)
  /-- `select .. for update` of one attempt. -/
  | lock (worker : τ) (id : UUID)
  /-- The `update` of the locked attempt, or its omission. -/
  | update (worker : τ) (stamp : Time)
  /-- The query for stale dispatches. -/
  | dispatches (worker : τ)
  /-- The query for candidates, `for update .. skip locked`. -/
  | select (worker : τ) (picked : List UUID)
  | commit (worker : τ)
  | rollback (worker : τ)
  deriving DecidableEq, Repr

/-- The attempts under the locks of the workers, their transactions, and the clock. -/
structure Cluster (τ : Type) where
  rows : LockedRows UUID ToolAttempt τ
  phase : τ → Transaction
  clock : Time

/-- The recovery lease of the row is not there or ended before an instant. -/
def ToolAttempt.lapsed (attempt : ToolAttempt) (now : Time) : Bool :=
  attempt.recoveryLeaseUntil.all (· < now)

variable {old new : ToolAttempt}

namespace Cluster

variable {τ : Type} [DecidableEq τ]

def enter (cluster : Cluster τ) (worker : τ) (phase : Transaction) : Cluster τ :=
  { cluster with phase := Function.update cluster.phase worker phase }

def lock (cluster : Cluster τ) (worker : τ) (id : UUID) (phase : Transaction) :
    Option (Cluster τ) :=
  (cluster.rows.lock? worker id).map fun rows => { cluster with rows }.enter worker phase

/-- Update the row a worker has locked and go on; `none` is an update that affects no row,
which ends the transaction. -/
def write (cluster : Cluster τ) (worker : τ) (id : UUID)
    (set : ToolAttempt → Option ToolAttempt) (phase : Transaction) : Option (Cluster τ) :=
  if cluster.rows.free worker id = true then
    ((cluster.rows.visible worker id).bind set).map fun row =>
      { cluster with rows := cluster.rows.keep worker id row }.enter worker phase
  else none

def finish (cluster : Cluster τ) (worker : τ) : Cluster τ :=
  { cluster with rows := cluster.rows.commit worker }.enter worker .idle

end Cluster

/-- The loop body for a stale admission, once the attempt is locked. -/
def ToolAttempt.releaseStale (stamp : Time) (attempt : ToolAttempt) : Option ToolAttempt :=
  if attempt.state ≠ .admitted then some attempt
  else if attempt.dispatchState = .notDispatched then some (attempt.failUndispatched stamp)
  else none

/-- The loop body for a stale dispatch. -/
def ToolAttempt.loseStale (now : Time) (attempt : ToolAttempt) : Option ToolAttempt :=
  if attempt.state ≠ .running ∨ attempt.leaseUntil.any (· < now) = false then some attempt
  else some (attempt.lose now)

/-- The loop body for a candidate. -/
def ToolAttempt.claimFor (worker : String) (leaseUntil : Time) (attempt : ToolAttempt) :
    Option ToolAttempt :=
  if attempt.state = .unknown then some (attempt.hold worker leaseUntil) else none

/-- `ApplyOwnerEvidence` on the locked attempt. -/
def ToolAttempt.applyEvidence (worker : String) (evidence : OwnerEvidence) (stamp : Time)
    (attempt : ToolAttempt) : Option ToolAttempt :=
  attempt.backendRequestId.bind fun backendRequestId =>
    if attempt.state ≠ .unknown then some attempt
    else if attempt.recoveryOwner.getD "" = worker ∧
        backendRequestId = evidence.backendRequestId then
      -- Both updates name the owner again in their conditions.
      if attempt.recoveryOwner = some worker then
        some (if evidence.outcome = .unknown then attempt.letGo else attempt.recover evidence stamp)
      else none
    else none

/-- The loop body of `ExpireUnknown`. -/
def ToolAttempt.expireStale (now : Time) (attempt : ToolAttempt) : Option ToolAttempt :=
  if attempt.state ≠ .unknown then some attempt else some (attempt.expire now)

namespace Cluster

variable {τ : Type} [DecidableEq τ] (name : τ → String)

/-- The rows that the query of `ExpireUnknown` may return. -/
def overdue (cluster : Cluster τ) (now unknownBefore : Time) (id : UUID) : Bool :=
  (cluster.rows.committed id).any fun attempt =>
    decide (attempt.state = .unknown) && attempt.unknownSince.any (· < unknownBefore) &&
      attempt.lapsed now

/-- The rows that the query for candidates may return: locked rows are passed over. -/
def claimable (cluster : Cluster τ) (worker : τ) (now : Time) (id : UUID) : Bool :=
  cluster.rows.free worker id && (cluster.rows.visible worker id).any fun attempt =>
    decide (attempt.state = .unknown) && attempt.lapsed now

def step (cluster : Cluster τ) : Statement τ → Option (Cluster τ)
  | .tick time => if cluster.clock ≤ time then some { cluster with clock := time } else none
  | .claim worker now lease limit =>
    if cluster.phase worker = .idle ∧ now ≤ cluster.clock then
      some (cluster.enter worker (.releasing now (now + lease) limit none))
    else none
  | .apply worker id evidence =>
    if cluster.phase worker = .idle then
      some (cluster.enter worker (.applying id evidence false))
    else none
  | .expire worker now unknownBefore limit picked =>
    if cluster.phase worker = .idle ∧ now ≤ cluster.clock ∧ picked.Nodup ∧
        picked.length ≤ limit ∧ picked.all (cluster.overdue now unknownBefore) = true then
      some (cluster.enter worker (.expiring now picked false))
    else none
  | .lock worker id =>
    match cluster.phase worker with
    | .releasing now leaseUntil limit none =>
      cluster.lock worker id (.releasing now leaseUntil limit (some id))
    | .losing now leaseUntil limit none =>
      cluster.lock worker id (.losing now leaseUntil limit (some id))
    | .applying wanted evidence false =>
      if id = wanted then cluster.lock worker id (.applying wanted evidence true) else none
    | .expiring now (first :: rest) false =>
      if id = first then cluster.lock worker id (.expiring now (first :: rest) true) else none
    | _ => none
  | .update worker stamp =>
    match cluster.phase worker with
    | .releasing now leaseUntil limit (some id) =>
      cluster.write worker id (·.releaseStale stamp) (.releasing now leaseUntil limit none)
    | .losing now leaseUntil limit (some id) =>
      cluster.write worker id (·.loseStale now) (.losing now leaseUntil limit none)
    | .holding now leaseUntil (id :: todo) out =>
      cluster.write worker id (·.claimFor (name worker) leaseUntil)
        (.holding now leaseUntil todo (out ++ [id]))
    | .applying id evidence true =>
      cluster.write worker id (·.applyEvidence (name worker) evidence stamp) .applied
    | .expiring now (id :: rest) true =>
      cluster.write worker id (·.expireStale now) (.expiring now rest false)
    | _ => none
  | .dispatches worker =>
    match cluster.phase worker with
    | .releasing now leaseUntil limit none =>
      some (cluster.enter worker (.losing now leaseUntil limit none))
    | _ => none
  | .select worker picked =>
    match cluster.phase worker with
    | .losing now leaseUntil limit none =>
      if picked.Nodup ∧ picked.length ≤ limit ∧
          picked.all (cluster.claimable worker now) = true then
        (cluster.rows.lockAll? worker picked).map fun rows =>
          { cluster with rows }.enter worker (.holding now leaseUntil picked [])
      else none
    | _ => none
  | .commit worker =>
    match cluster.phase worker with
    | .holding _ _ [] _ | .applied | .expiring _ [] _ => some (cluster.finish worker)
    | _ => none
  | .rollback worker =>
    match cluster.phase worker with
    | .idle => none
    | _ => some ({ cluster with rows := cluster.rows.rollback worker }.enter worker .idle)

end Cluster

def cluster {τ : Type} [DecidableEq τ] (name : τ → String) : System (Cluster τ) (Statement τ) where
  initial state := (∀ id, state.rows.held id = none) ∧ ∀ worker, state.phase worker = .idle
  step := Cluster.step name

/-! ## What a version may differ in -/

def ToolAttempt.SameLease (base version : ToolAttempt) : Prop :=
  version.recoveryOwner = base.recoveryOwner ∧
    version.recoveryLeaseUntil = base.recoveryLeaseUntil

theorem ToolAttempt.SameLease.lapsed {base version : ToolAttempt}
    (same : base.SameLease version) (now : Time) : version.lapsed now = base.lapsed now := by
  unfold ToolAttempt.lapsed
  rw [same.2]

theorem ToolAttempt.lapsed_of_none {attempt : ToolAttempt}
    (none : attempt.recoveryLeaseUntil = none) : attempt.lapsed now = true := by
  unfold ToolAttempt.lapsed
  rw [none]
  rfl

/-- How a transaction's version of a row may differ from the committed row. -/
def Transaction.Licensed (worker : String) (id : UUID) (base version : ToolAttempt) :
    Transaction → Prop
  | .idle => False
  | .releasing .. | .losing .. => base.SameLease version
  | .holding _ _ _ out => base.SameLease version ∨ id ∈ out
  | .applying .. => version = base
  | .applied =>
    version = base ∨ base.recoveryOwner = some worker ∧ version.recoveryLeaseUntil = none
  | .expiring now _ _ => version = base ∨ base.lapsed now = true ∧ version.recoveryLeaseUntil = none

def Transaction.now? : Transaction → Option Time
  | .releasing now .. | .losing now .. | .holding now .. | .expiring now .. => some now
  | .idle | .applying .. | .applied => none

def Transaction.candidates : Transaction → List UUID
  | .holding _ _ todo out => todo ++ out
  | _ => []

def Transaction.picks : Transaction → List UUID
  | .expiring _ todo _ => todo
  | _ => []

def Transaction.handing : Transaction → Option (List UUID)
  | .holding _ _ [] out => some out
  | _ => none

theorem Transaction.mem_candidates_of_handing (phase : Transaction) {out : List UUID}
    (handing : phase.handing = some out) (member : id ∈ out) :
    ∃ now ∈ phase.now?, id ∈ phase.candidates := by
  cases phase with
  | holding now leaseUntil todo given =>
    cases todo with
    | nil =>
      cases handing
      exact ⟨now, rfl, member⟩
    | cons _ _ => cases handing
  | _ => cases handing

/-- No claim is committed of an attempt that an expiry has picked and not come to. -/
def Cluster.Unraced {τ : Type} (cluster : Cluster τ) : Statement τ → Prop
  | .commit worker => ∀ out ∈ (cluster.phase worker).handing, ∀ other,
      ∀ id ∈ (cluster.phase other).picks, id ∉ out
  | _ => True

section Orderly

variable {τ : Type} [DecidableEq τ] (name : τ → String)

structure Cluster.Orderly (cluster : Cluster τ) : Prop where
  licensed : ∀ worker id version, cluster.rows.Holds worker id version →
    ∃ base, cluster.rows.committed id = some base ∧
      (cluster.phase worker).Licensed (name worker) id base version
  started : ∀ worker, ∀ now ∈ (cluster.phase worker).now?, now ≤ cluster.clock
  claimed : ∀ worker, ∀ now ∈ (cluster.phase worker).now?, ∀ id ∈ (cluster.phase worker).candidates,
    (∃ version, cluster.rows.Holds worker id version) ∧
      ∃ base, cluster.rows.committed id = some base ∧ base.lapsed now = true
  picked : ∀ worker, ∀ now ∈ (cluster.phase worker).now?, ∀ id ∈ (cluster.phase worker).picks,
    ∀ base, cluster.rows.committed id = some base → base.lapsed now = true

variable {name} {cluster : Cluster τ}

omit [DecidableEq τ] in
theorem Cluster.Orderly.idle_holds (orderly : cluster.Orderly name) {worker : τ}
    {version : ToolAttempt} (idle : cluster.phase worker = .idle)
    (holds : cluster.rows.Holds worker id version) : False := by
  obtain ⟨base, -, licence⟩ := orderly.licensed worker id version holds
  rw [idle] at licence
  exact licence

/-- A statement that commits nothing keeps the invariant if it does so for its worker. -/
theorem Cluster.Orderly.advance (orderly : cluster.Orderly name) {worker : τ}
    {rows : LockedRows UUID ToolAttempt τ} (committed : rows.committed = cluster.rows.committed)
    (others : ∀ other ≠ worker, ∀ id version,
      rows.Holds other id version ↔ cluster.rows.Holds other id version)
    (licensed : ∀ id version, rows.Holds worker id version →
      ∃ base, rows.committed id = some base ∧ phase.Licensed (name worker) id base version)
    (started : ∀ now ∈ phase.now?, now ≤ cluster.clock)
    (claimed : ∀ now ∈ phase.now?, ∀ id ∈ phase.candidates,
      (∃ version, rows.Holds worker id version) ∧
        ∃ base, rows.committed id = some base ∧ base.lapsed now = true)
    (picked : ∀ now ∈ phase.now?, ∀ id ∈ phase.picks, ∀ base, rows.committed id = some base →
      base.lapsed now = true) : ({ cluster with rows }.enter worker phase).Orderly name := by
  have own : ({ cluster with rows }.enter worker phase).phase worker = phase :=
    Function.update_self ..
  have apart : ∀ other ≠ worker, ({ cluster with rows }.enter worker phase).phase other =
      cluster.phase other := fun other differ => Function.update_of_ne differ _ _
  constructor
  · intro other id version holds
    by_cases same : other = worker
    · subst same
      rw [own]
      exact licensed id version holds
    · rw [apart other same]
      obtain ⟨base, found, licence⟩ := orderly.licensed other id version
        ((others other same id version).mp holds)
      exact ⟨base, (congrFun committed id).trans found, licence⟩
  · intro other
    by_cases same : other = worker
    · subst same
      rw [own]
      exact started
    · rw [apart other same]
      exact orderly.started other
  · intro other
    by_cases same : other = worker
    · subst same
      rw [own]
      exact claimed
    · rw [apart other same]
      intro now given id member
      obtain ⟨⟨version, holds⟩, base, found, lapsed⟩ := orderly.claimed other now given id member
      exact ⟨⟨version, (others other same id version).mpr holds⟩, base,
        (congrFun committed id).trans found, lapsed⟩
  · intro other
    by_cases same : other = worker
    · subst same
      rw [own]
      exact picked
    · rw [apart other same]
      intro now given id member base found
      exact orderly.picked other now given id member base ((congrFun committed id).symm.trans found)

/-- The phase goes on in one transaction without new rows. -/
structure Transaction.Continues (worker : String) (phase next : Transaction) : Prop where
  now : next.now? = phase.now?
  candidates : ∀ id ∈ next.candidates, id ∈ phase.candidates
  picks : ∀ id ∈ next.picks, id ∈ phase.picks
  licence : ∀ id base version, phase.Licensed worker id base version →
    next.Licensed worker id base version

section Continues

variable {worker : String} {now leaseUntil : Time} {limit : Nat} {id : UUID}

theorem Transaction.continues_releasing {row next : Option UUID} :
    (releasing now leaseUntil limit row).Continues worker (releasing now leaseUntil limit next) :=
  ⟨rfl, fun _ member => member, fun _ member => member, fun _ _ _ licence => licence⟩

theorem Transaction.continues_losing {row next : Option UUID} :
    (losing now leaseUntil limit row).Continues worker (losing now leaseUntil limit next) :=
  ⟨rfl, fun _ member => member, fun _ member => member, fun _ _ _ licence => licence⟩

theorem Transaction.continues_dispatches {row next : Option UUID} :
    (releasing now leaseUntil limit row).Continues worker (losing now leaseUntil limit next) :=
  ⟨rfl, fun _ member => member, fun _ member => member, fun _ _ _ licence => licence⟩

theorem Transaction.continues_holding {todo out : List UUID} :
    (holding now leaseUntil (id :: todo) out).Continues worker
      (holding now leaseUntil todo (out ++ [id])) := by
  refine ⟨rfl, ?_, fun _ member => member, ?_⟩
  · intro other member
    simp only [candidates, List.mem_append, List.mem_cons, List.not_mem_nil, or_false] at member ⊢
    tauto
  · intro other base version licence
    exact licence.imp_right (List.mem_append_left _)

theorem Transaction.continues_applying {locked next : Bool} :
    (applying id evidence locked).Continues worker (applying id evidence next) :=
  ⟨rfl, fun _ member => member, fun _ member => member, fun _ _ _ licence => licence⟩

theorem Transaction.continues_applied {locked : Bool} :
    (applying id evidence locked).Continues worker applied :=
  ⟨rfl, fun _ member => member, fun _ member => member, fun _ _ _ licence => .inl licence⟩

theorem Transaction.continues_expiring {todo next : List UUID} {locked also : Bool}
    (fewer : ∀ id ∈ next, id ∈ todo) :
    (expiring now todo locked).Continues worker (expiring now next also) :=
  ⟨rfl, fun _ member => member, fewer, fun _ _ _ licence => licence⟩

end Continues

theorem Cluster.Orderly.proceed (orderly : cluster.Orderly name) {worker : τ}
    (continues : (cluster.phase worker).Continues (name worker) phase) :
    (cluster.enter worker phase).Orderly name := by
  refine orderly.advance rfl (fun _ _ _ _ => Iff.rfl) ?_ ?_ ?_ ?_
  · intro id version holds
    obtain ⟨base, found, licence⟩ := orderly.licensed worker id version holds
    exact ⟨base, found, continues.licence _ _ _ licence⟩
  · rw [continues.now]
    exact orderly.started worker
  · rw [continues.now]
    exact fun now given id member =>
      orderly.claimed worker now given id (continues.candidates id member)
  · rw [continues.now]
    exact fun now given id member => orderly.picked worker now given id (continues.picks id member)

theorem Cluster.Orderly.keep (orderly : cluster.Orderly name) {worker : τ}
    (free : cluster.rows.free worker id = true) (seen : cluster.rows.visible worker id = some old)
    (continues : (cluster.phase worker).Continues (name worker) phase)
    (licence : ∀ base, cluster.rows.committed id = some base →
      (old = base ∨ (cluster.phase worker).Licensed (name worker) id base old) →
      phase.Licensed (name worker) id base new) :
    ({ cluster with rows := cluster.rows.keep worker id new }.enter worker phase).Orderly name := by
  have known : ∃ base, cluster.rows.committed id = some base ∧
      (old = base ∨ (cluster.phase worker).Licensed (name worker) id base old) := by
    rcases cluster.rows.visible_cases worker id with ⟨version, holds⟩ | same
    · obtain rfl := Option.some.inj (seen.symm.trans (LockedRows.visible_of_holds holds))
      obtain ⟨base, found, was⟩ := orderly.licensed worker id old holds
      exact ⟨base, found, .inr was⟩
    · exact ⟨old, same.symm.trans seen, .inl rfl⟩
  refine orderly.advance rfl ?_ ?_ ?_ ?_ ?_
  · intro other differ another version
    exact LockedRows.keep_holds_other free differ
  · intro another version holds
    by_cases same : another = id
    · subst same
      obtain ⟨-, rfl⟩ := Prod.mk.inj (Option.some.inj (holds.symm.trans LockedRows.keep_holds))
      obtain ⟨base, found, was⟩ := known
      exact ⟨base, found, licence base found was⟩
    · obtain ⟨base, found, was⟩ := orderly.licensed worker another version
        ((LockedRows.keep_held_of_ne same).symm.trans holds)
      exact ⟨base, found, continues.licence _ _ _ was⟩
  · rw [continues.now]
    exact orderly.started worker
  · rw [continues.now]
    intro now given another member
    obtain ⟨⟨version, holds⟩, base, found, lapsed⟩ :=
      orderly.claimed worker now given another (continues.candidates another member)
    refine ⟨?_, base, found, lapsed⟩
    by_cases same : another = id
    · subst same
      exact ⟨new, LockedRows.keep_holds⟩
    · exact ⟨version, (LockedRows.keep_held_of_ne same).trans holds⟩
  · rw [continues.now]
    intro now given another member base found
    exact orderly.picked worker now given another (continues.picks another member) base found

theorem Cluster.Orderly.lock (orderly : cluster.Orderly name) {worker : τ} {after : Cluster τ}
    (continues : (cluster.phase worker).Continues (name worker) phase)
    (reflexive : ∀ base, phase.Licensed (name worker) id base base)
    (done : cluster.lock worker id phase = some after) : after.Orderly name := by
  obtain ⟨rows, locked, rfl⟩ := Option.map_eq_some_iff.mp done
  obtain ⟨free, old, seen, rfl⟩ := LockedRows.lock?_eq_some locked
  refine orderly.keep free seen continues ?_
  rintro base - (rfl | licence)
  · exact reflexive old
  · exact continues.licence _ _ _ licence

theorem Cluster.Orderly.write (orderly : cluster.Orderly name) {worker : τ}
    {set : ToolAttempt → Option ToolAttempt} {after : Cluster τ}
    (continues : (cluster.phase worker).Continues (name worker) phase)
    (licence : ∀ base old new, cluster.rows.committed id = some base → set old = some new →
      (old = base ∨ (cluster.phase worker).Licensed (name worker) id base old) →
      phase.Licensed (name worker) id base new)
    (done : cluster.write worker id set phase = some after) : after.Orderly name := by
  unfold Cluster.write at done
  split at done
  next free =>
    obtain ⟨new, wrote, rfl⟩ := Option.map_eq_some_iff.mp done
    obtain ⟨old, seen, wrote⟩ := Option.bind_eq_some_iff.mp wrote
    exact orderly.keep free seen continues fun base found was =>
      licence base old new found wrote was
  next => cases done

theorem Cluster.Orderly.begin (orderly : cluster.Orderly name) {worker : τ}
    (idle : cluster.phase worker = .idle) (started : ∀ now ∈ phase.now?, now ≤ cluster.clock)
    (none : phase.candidates = []) (picked : ∀ now ∈ phase.now?, ∀ id ∈ phase.picks, ∀ base,
      cluster.rows.committed id = some base → base.lapsed now = true) :
    (cluster.enter worker phase).Orderly name := by
  refine orderly.advance rfl (fun _ _ _ _ => Iff.rfl) ?_ started ?_ picked
  · intro id version holds
    exact (orderly.idle_holds idle holds).elim
  · intro now _ id member
    rw [none] at member
    cases member

theorem Cluster.Orderly.select (orderly : cluster.Orderly name) {worker : τ} {picked : List UUID}
    {now leaseUntil : Time} {limit : Nat} {rows : LockedRows UUID ToolAttempt τ}
    (phase : cluster.phase worker = .losing now leaseUntil limit none)
    (claimable : ∀ id ∈ picked, cluster.claimable worker now id = true)
    (done : cluster.rows.lockAll? worker picked = some rows) :
    ({ cluster with rows }.enter worker (.holding now leaseUntil picked [])).Orderly name := by
  obtain ⟨committed, others, -, all, own⟩ := LockedRows.lockAll?_eq_some done
  -- A version the worker sees has the lease of the committed row.
  have sameLease : ∀ id version, cluster.rows.visible worker id = some version →
      ∃ base, cluster.rows.committed id = some base ∧ base.SameLease version := by
    intro id version seen
    rcases cluster.rows.visible_cases worker id with ⟨kept, holds⟩ | same
    · obtain rfl := Option.some.inj (seen.symm.trans (LockedRows.visible_of_holds holds))
      obtain ⟨base, found, licence⟩ := orderly.licensed worker id version holds
      rw [phase] at licence
      exact ⟨base, found, licence⟩
    · exact ⟨version, same.symm.trans seen, rfl, rfl⟩
  refine orderly.advance committed others ?_ ?_ ?_ ?_
  · intro id version holds
    obtain ⟨base, found, same⟩ := sameLease id version (own id version holds)
    exact ⟨base, (congrFun committed id).trans found, .inl same⟩
  · intro time given
    obtain rfl := Option.some.inj given
    exact orderly.started worker now (by rw [phase]; rfl)
  · intro time given id member
    obtain rfl := Option.some.inj given
    simp only [Transaction.candidates, List.append_nil] at member
    obtain ⟨version, holds⟩ := all id member
    obtain ⟨base, found, same⟩ := sameLease id version (own id version holds)
    refine ⟨⟨version, holds⟩, base, (congrFun committed id).trans found, ?_⟩
    have wanted := claimable id member
    unfold Cluster.claimable at wanted
    rw [own id version holds, Option.any_some, Bool.and_eq_true, Bool.and_eq_true] at wanted
    exact (same.lapsed now).symm.trans wanted.2.2
  · exact nofun

theorem Cluster.Orderly.leave (orderly : cluster.Orderly name) {worker : τ}
    {committed : UUID → Option ToolAttempt}
    (kept : ∀ other ≠ worker, ∀ id version, cluster.rows.Holds other id version →
      committed id = cluster.rows.committed id)
    (picked : ∀ other ≠ worker, ∀ now ∈ (cluster.phase other).now?,
      ∀ id ∈ (cluster.phase other).picks, ∀ base, committed id = some base →
        base.lapsed now = true) :
    ({ cluster with rows := ⟨committed, cluster.rows.release worker⟩ }.enter worker
      .idle).Orderly name := by
  have own : ({ cluster with rows := ⟨committed, cluster.rows.release worker⟩ }.enter worker
      .idle).phase worker = .idle := Function.update_self ..
  have apart : ∀ other ≠ worker, ({ cluster with
      rows := ⟨committed, cluster.rows.release worker⟩ }.enter worker .idle).phase other =
      cluster.phase other := fun other differ => Function.update_of_ne differ _ _
  constructor
  · intro other id version holds
    obtain ⟨before, differ⟩ := LockedRows.of_release holds
    obtain ⟨base, found, licence⟩ := orderly.licensed other id version before
    rw [apart other differ]
    exact ⟨base, (kept other differ id version before).trans found, licence⟩
  · intro other now given
    by_cases same : other = worker
    · subst same
      rw [own] at given
      cases given
    · rw [apart other same] at given
      exact orderly.started other now given
  · intro other now given id member
    by_cases same : other = worker
    · subst same
      rw [own] at given
      cases given
    · rw [apart other same] at given member
      obtain ⟨⟨version, holds⟩, base, found, lapsed⟩ := orderly.claimed other now given id member
      exact ⟨⟨version, holds.released same⟩, base, (kept other same id version holds).trans found,
        lapsed⟩
  · intro other now given
    by_cases same : other = worker
    · subst same
      rw [own] at given
      cases given
    · rw [apart other same] at given ⊢
      exact picked other same now given

theorem Cluster.Orderly.rollback (orderly : cluster.Orderly name) (worker : τ) :
    ({ cluster with rows := cluster.rows.rollback worker }.enter worker .idle).Orderly name :=
  orderly.leave (fun _ _ _ _ _ => rfl) fun other _ => orderly.picked other

/-- A commit gives no row a lease, except to the candidates it hands out. -/
theorem Transaction.Licensed.lapsed {phase : Transaction} {worker : String} {id : UUID}
    {base version : ToolAttempt} {now : Time} (licence : phase.Licensed worker id base version)
    (unclaimed : id ∉ phase.candidates) (lapsed : base.lapsed now = true) :
    version.lapsed now = true := by
  cases phase with
  | idle => exact licence.elim
  | releasing _ _ _ _ | losing _ _ _ _ =>
    exact (ToolAttempt.SameLease.lapsed licence now).trans lapsed
  | holding _ _ todo out =>
    rcases licence with same | claimed
    · exact (same.lapsed now).trans lapsed
    · exact absurd (List.mem_append_right todo claimed) unclaimed
  | applying _ _ _ => exact licence ▸ lapsed
  | applied | expiring _ _ _ =>
    rcases licence with rfl | ⟨-, none⟩
    · exact lapsed
    · exact ToolAttempt.lapsed_of_none none

theorem Cluster.Orderly.finish (orderly : cluster.Orderly name) {worker : τ}
    (unraced : ∀ other ≠ worker, ∀ id ∈ (cluster.phase other).picks,
      id ∉ (cluster.phase worker).candidates) :
    (cluster.finish worker).Orderly name := by
  refine orderly.leave ?_ ?_
  · intro other differ id version holds
    exact holds.visible_other differ
  · intro other differ now given id member base found
    rcases cluster.rows.visible_cases worker id with ⟨version, holds⟩ | same
    · obtain rfl := Option.some.inj (found.symm.trans (LockedRows.visible_of_holds holds))
      obtain ⟨old, was, licence⟩ := orderly.licensed worker id base holds
      exact licence.lapsed (unraced other differ id member)
        (orderly.picked other now given id member old was)
    · exact orderly.picked other now given id member base (same.symm.trans found)

/-! ## Statements keep the invariant -/

theorem ToolAttempt.SameLease.releaseStale {base old new : ToolAttempt} (same : base.SameLease old)
    (wrote : old.releaseStale stamp = some new) : base.SameLease new := by
  unfold ToolAttempt.releaseStale at wrote
  split at wrote
  · exact Option.some.inj wrote ▸ same
  · split at wrote
    · exact Option.some.inj wrote ▸ same
    · cases wrote

theorem ToolAttempt.SameLease.loseStale {base old new : ToolAttempt} (same : base.SameLease old)
    (wrote : old.loseStale now = some new) : base.SameLease new := by
  unfold ToolAttempt.loseStale at wrote
  split at wrote <;> exact Option.some.inj wrote ▸ same

theorem ToolAttempt.applyEvidence_eq_some {worker : String}
    (wrote : old.applyEvidence worker evidence stamp = some new) :
    new = old ∨ old.recoveryOwner = some worker ∧ new.recoveryLeaseUntil = none := by
  obtain ⟨backendRequestId, -, wrote⟩ := Option.bind_eq_some_iff.mp wrote
  split at wrote
  · exact .inl (Option.some.inj wrote).symm
  · split at wrote
    · split at wrote
      next owner =>
        obtain rfl := Option.some.inj wrote
        refine .inr ⟨owner, ?_⟩
        split <;> rfl
      next => cases wrote
    · cases wrote

theorem ToolAttempt.expireStale_eq_some (wrote : old.expireStale now = some new) :
    new = old ∨ new.recoveryLeaseUntil = none := by
  unfold ToolAttempt.expireStale at wrote
  split at wrote
  · exact .inl (Option.some.inj wrote).symm
  · exact .inr (Option.some.inj wrote ▸ rfl)

theorem Cluster.Orderly.update (orderly : cluster.Orderly name) {worker : τ} {after : Cluster τ}
    (stepped : cluster.step name (.update worker stamp) = some after) : after.Orderly name := by
  simp only [Cluster.step] at stepped
  split at stepped
  next now leaseUntil limit id phase =>
    refine orderly.write (by rw [phase]; exact Transaction.continues_releasing) ?_ stepped
    rw [phase]
    rintro base old new - wrote (rfl | same)
    · exact ToolAttempt.SameLease.releaseStale ⟨rfl, rfl⟩ wrote
    · exact ToolAttempt.SameLease.releaseStale same wrote
  next now leaseUntil limit id phase =>
    refine orderly.write (by rw [phase]; exact Transaction.continues_losing) ?_ stepped
    rw [phase]
    rintro base old new - wrote (rfl | same)
    · exact ToolAttempt.SameLease.loseStale ⟨rfl, rfl⟩ wrote
    · exact ToolAttempt.SameLease.loseStale same wrote
  next now leaseUntil id todo out phase =>
    refine orderly.write (by rw [phase]; exact Transaction.continues_holding) ?_ stepped
    intro base old new _ _ _
    exact .inr (List.mem_append_right out List.mem_cons_self)
  next id evidence phase =>
    refine orderly.write (by rw [phase]; exact Transaction.continues_applied) ?_ stepped
    rw [phase]
    rintro base old new - wrote (rfl | rfl) <;> exact ToolAttempt.applyEvidence_eq_some wrote
  next now id rest phase =>
    have continues : (cluster.phase worker).Continues (name worker) (.expiring now rest false) := by
      rw [phase]
      exact Transaction.continues_expiring fun _ => List.mem_cons_of_mem _
    refine orderly.write continues ?_ stepped
    intro base old new found wrote was
    have lapsed : base.lapsed now = true :=
      orderly.picked worker now (by rw [phase]; rfl) id (by rw [phase]; exact List.mem_cons_self)
        base found
    rw [phase] at was
    have none : old = base ∨ old.recoveryLeaseUntil = none :=
      was.elim .inl fun licence => licence.imp_right And.right
    rcases ToolAttempt.expireStale_eq_some wrote with rfl | ended
    · rcases none with rfl | none
      · exact .inl rfl
      · exact .inr ⟨lapsed, none⟩
    · exact .inr ⟨lapsed, ended⟩
  next => cases stepped

theorem Cluster.Orderly.locks (orderly : cluster.Orderly name) {worker : τ} {after : Cluster τ}
    (stepped : cluster.step name (.lock worker id) = some after) : after.Orderly name := by
  simp only [Cluster.step] at stepped
  split at stepped
  next now leaseUntil limit phase =>
    refine orderly.lock (by rw [phase]; exact Transaction.continues_releasing) ?_ stepped
    exact fun base => ⟨rfl, rfl⟩
  next now leaseUntil limit phase =>
    refine orderly.lock (by rw [phase]; exact Transaction.continues_losing) ?_ stepped
    exact fun base => ⟨rfl, rfl⟩
  next wanted evidence phase =>
    split at stepped
    · refine orderly.lock (by rw [phase]; exact Transaction.continues_applying) ?_ stepped
      exact fun base => rfl
    · cases stepped
  next now first rest phase =>
    split at stepped
    · refine orderly.lock
        (by rw [phase]; exact Transaction.continues_expiring fun _ member => member) ?_
        stepped
      exact fun base => .inl rfl
    · cases stepped
  next => cases stepped

theorem Cluster.Orderly.step (orderly : cluster.Orderly name) {statement : Statement τ}
    {after : Cluster τ} (unraced : cluster.Unraced statement)
    (stepped : cluster.step name statement = some after) : after.Orderly name := by
  cases statement with
  | tick time =>
    simp only [Cluster.step] at stepped
    split at stepped
    next later =>
      cases stepped
      exact ⟨orderly.licensed,
        fun worker now given => (orderly.started worker now given).trans later,
        orderly.claimed, orderly.picked⟩
    next => cases stepped
  | claim worker now lease limit =>
    simp only [Cluster.step] at stepped
    split at stepped
    next begins =>
      cases stepped
      refine orderly.begin begins.1 ?_ rfl ?_
      · intro time given
        exact Option.some.inj given ▸ begins.2
      · exact nofun
    next => cases stepped
  | apply worker id evidence =>
    simp only [Cluster.step] at stepped
    split at stepped
    next idle =>
      cases stepped
      refine orderly.begin idle ?_ rfl ?_ <;> intro time given <;> cases given
    next => cases stepped
  | expire worker now unknownBefore limit picked =>
    simp only [Cluster.step] at stepped
    split at stepped
    next begins =>
      cases stepped
      obtain ⟨idle, later, -, -, overdue⟩ := begins
      refine orderly.begin idle ?_ rfl ?_
      · intro time given
        exact Option.some.inj given ▸ later
      · intro time given id member base found
        obtain rfl := Option.some.inj given
        have wanted := List.all_eq_true.mp overdue id member
        unfold Cluster.overdue at wanted
        rw [found, Option.any_some, Bool.and_eq_true] at wanted
        exact wanted.2
    next => cases stepped
  | lock worker id => exact orderly.locks stepped
  | update worker stamp => exact orderly.update stepped
  | dispatches worker =>
    simp only [Cluster.step] at stepped
    split at stepped
    next now leaseUntil limit phase =>
      cases stepped
      exact orderly.proceed (by rw [phase]; exact Transaction.continues_dispatches)
    next => cases stepped
  | select worker picked =>
    simp only [Cluster.step] at stepped
    split at stepped
    next now leaseUntil limit phase =>
      split at stepped
      next wanted =>
        obtain ⟨rows, locked, rfl⟩ := Option.map_eq_some_iff.mp stepped
        exact orderly.select phase (List.all_eq_true.mp wanted.2.2) locked
      next => cases stepped
    next => cases stepped
  | commit worker =>
    have unclaimed : ∀ phase, cluster.phase worker = phase → phase.candidates = [] →
        (cluster.finish worker).Orderly name := by
      intro phase was none
      refine orderly.finish ?_
      rw [was, none]
      exact fun _ _ _ _ => List.not_mem_nil
    simp only [Cluster.step] at stepped
    split at stepped
    next now leaseUntil out phase =>
      cases stepped
      refine orderly.finish ?_
      intro other _ id member
      rw [phase]
      exact unraced out (by rw [phase]; rfl) other id member
    next phase =>
      cases stepped
      exact unclaimed _ phase rfl
    next phase =>
      cases stepped
      exact unclaimed _ phase rfl
    next => cases stepped
  | rollback worker =>
    simp only [Cluster.step] at stepped
    split at stepped
    next => cases stepped
    next =>
      cases stepped
      exact orderly.rollback worker

theorem cluster_orderly {state : Cluster τ}
    (reached : (Ledger.cluster name).Reachable Cluster.Unraced state) : state.Orderly name := by
  refine reached.induction ?_ ?_
  · rintro start ⟨unlocked, idle⟩
    constructor
    · intro worker id version holds
      cases (unlocked id).symm.trans holds
    all_goals
      intro worker now given
      rw [idle worker] at given
      cases given
  · intro before statement after _ orderly unraced stepped
    exact orderly.step unraced stepped

end Orderly

/-! ## The lease -/

theorem commit_committed {τ : Type} [DecidableEq τ] {name : τ → String} {state after : Cluster τ}
    {worker : τ} (stepped : (cluster name).step state (.commit worker) = some after) :
    after.rows.committed = state.rows.visible worker := by
  change state.step name (.commit worker) = some after at stepped
  simp only [Cluster.step] at stepped
  split at stepped <;> cases stepped <;> rfl

/-- In every run in which no claim is committed of an attempt that an expiry has picked and
not come to: while a worker's lease of an attempt is in the future, nobody is handed the
attempt as a candidate, the evidence of no other worker changes it, and no expiry changes
it. -/
theorem recoveryLease_exclusive {τ : Type} [DecidableEq τ] {name : τ → String}
    (distinct : Function.Injective name) {state after : Cluster τ} {statement : Statement τ}
    (reached : (cluster name).Reachable Cluster.Unraced state) (unraced : state.Unraced statement)
    (stepped : (cluster name).step state statement = some after) {id : UUID}
    {attempt : ToolAttempt} {owner : τ} {leaseUntil : Time}
    (found : state.rows.committed id = some attempt)
    (owned : attempt.recoveryOwner = some (name owner))
    (lease : attempt.recoveryLeaseUntil = some leaseUntil) (live : state.clock < leaseUntil) :
    (∀ other out, statement = .commit other → (state.phase other).handing = some out → id ∉ out) ∧
    (∀ other ≠ owner, statement = .commit other → state.phase other = .applied →
      after.rows.committed id = some attempt) ∧
    ∀ other now todo locked, statement = .commit other →
      state.phase other = .expiring now todo locked → after.rows.committed id = some attempt := by
  have orderly := cluster_orderly reached
  -- No transaction in progress was given a time after the lease.
  have current : ∀ worker, ∀ now ∈ (state.phase worker).now?, ¬ attempt.lapsed now = true := by
    intro worker now given lapsed
    have started := orderly.started worker now given
    rw [ToolAttempt.lapsed, lease, Option.all_some, decide_eq_true_eq] at lapsed
    exact absurd live (not_lt_of_gt (lapsed.trans_le started))
  -- A commit that changes the row commits a version the worker held.
  have changed : ∀ other, statement = .commit other →
      (∀ version, state.rows.Holds other id version →
        (state.phase other).Licensed (name other) id attempt version → version = attempt) →
      after.rows.committed id = some attempt := by
    rintro other rfl kept
    rw [commit_committed stepped]
    rcases state.rows.visible_cases other id with ⟨version, holds⟩ | same
    · obtain ⟨base, was, licence⟩ := orderly.licensed other id version holds
      obtain rfl := Option.some.inj (found.symm.trans was)
      rw [LockedRows.visible_of_holds holds, kept version holds licence]
    · exact same.trans found
  refine ⟨?_, ?_, ?_⟩
  · rintro other out - handing member
    obtain ⟨now, given, candidate⟩ := (state.phase other).mem_candidates_of_handing handing member
    obtain ⟨-, base, was, lapsed⟩ := orderly.claimed other now given id candidate
    obtain rfl := Option.some.inj (found.symm.trans was)
    exact current other now given lapsed
  · intro other differ committed phase
    refine changed other committed fun version _ licence => ?_
    rw [phase] at licence
    rcases licence with same | ⟨mine, -⟩
    · exact same
    · exact absurd (distinct (Option.some.inj (mine.symm.trans owned))) differ
  · intro other now todo locked committed phase
    refine changed other committed fun version _ licence => ?_
    rw [phase] at licence
    rcases licence with same | ⟨lapsed, -⟩
    · exact same
    · exact absurd lapsed (current other now (by rw [phase]; rfl))

/-! ## A lease that an expiry does not see -/

def uncertainAttempt : ToolAttempt where
  servicePrincipalId := "service"
  principalId := "principal"
  tenantId := "tenant"
  capabilityId := "urban.object.search"
  operationClass := "READ"
  manifestChecksum := sampleChecksum
  idempotencyKey := "key"
  requestHash := sampleChecksum
  correlationId := "correlation"
  state := .unknown
  dispatchState := .unknown
  backendRequestId := some "request"
  admittedAt := 0
  completedAt := none
  leaseUntil := none
  lockVersion := 2
  recoveryOwner := none
  recoveryLeaseUntil := none
  unknownSince := some (10 * second)
  outcomeCode := none
  resultRef := none
  outcomeRevision := 0

def twoUncertain : Cluster Bool where
  rows := .settled fun id =>
    if id = 1 then some uncertainAttempt
    else if id = 2 then
      some { uncertainAttempt with idempotencyKey := "other", backendRequestId := some "other" }
    else none
  phase _ := .idle
  clock := 100 * second

def podName (pod : Bool) : String := if pod then "second" else "first"

theorem twoUncertain_initial : (cluster podName).initial twoUncertain :=
  ⟨fun _ => rfl, fun _ => rfl⟩

/-- The second worker claims the first attempt for half a minute. -/
def claimFirst : List (Statement Bool) :=
  [.claim true (100 * second) (30 * second) 1, .dispatches true, .select true [1], .update true 0,
    .commit true]

def leasedToSecond (state : Cluster Bool) : Bool :=
  (state.rows.committed 1).any fun attempt =>
    decide (attempt.recoveryOwner = some "second") &&
      attempt.recoveryLeaseUntil.any fun leaseUntil => decide (state.clock < leaseUntil)

instance {τ : Type} [Fintype τ] (state : Cluster τ) : (statement : Statement τ) →
    Decidable (state.Unraced statement)
  | .commit worker => decidable_of_iff
      (∀ out ∈ (state.phase worker).handing, ∀ other,
        ((state.phase other).picks.all fun id => !out.contains id) = true)
      (by simp [Cluster.Unraced])
  | .tick _ | .claim .. | .apply .. | .expire .. | .lock .. | .update .. | .dispatches _
  | .select .. | .rollback _ => .isTrue trivial

theorem recoveryLease_exclusive_claimFirst :
    ∃ state after attempt, (cluster podName).Reachable Cluster.Unraced state ∧
      (cluster podName).step state (.commit false) = some after ∧
      state.phase false = .expiring (100 * second) [] false ∧
      state.rows.committed 1 = some attempt ∧ leasedToSecond state = true ∧
      after.rows.committed 1 = some attempt := by
  have sound : ∀ statement ∈ claimFirst ++
      [.expire false (100 * second) (40 * second) 1 [2], .lock false 2, .update false 0],
      ∀ state : Cluster Bool, decide (state.Unraced statement) = true → state.Unraced statement :=
    fun _ _ _ passed => of_decide_eq_true passed
  obtain ⟨state, -, reached, checked⟩ := System.exists_reachable sound twoUncertain_initial
    (show ((cluster podName).replay _ _ _).any (fun state => leasedToSecond state &&
        decide (state.phase false = .expiring (100 * second) [] false)) = true by
      decide +kernel)
  rw [Bool.and_eq_true, decide_eq_true_eq] at checked
  obtain ⟨leased, phase⟩ := checked
  obtain ⟨attempt, found, holds⟩ := (Option.any_eq_true _ _).mp leased
  rw [Bool.and_eq_true, decide_eq_true_eq] at holds
  obtain ⟨owned, lease⟩ := holds
  obtain ⟨leaseUntil, ends, live⟩ := (Option.any_eq_true _ _).mp lease
  have unraced : state.Unraced (.commit false) := by
    intro out handing
    rw [phase] at handing
    cases handing
  have stepped : (cluster podName).step state (.commit false) = some (state.finish false) := by
    change state.step podName (.commit false) = _
    simp only [Cluster.step, phase]
  have distinct : Function.Injective podName := by unfold Function.Injective; decide
  have mine : attempt.recoveryOwner = some (podName true) := owned
  have kept := (recoveryLease_exclusive distinct reached unraced stepped found mine ends
    (of_decide_eq_true live)).2.2
  exact ⟨state, _, attempt, reached, stepped, phase, found, leased, kept false _ _ _ rfl phase⟩

/-- The query of an expiry runs before the claim and its update after: the attempt becomes
`UNRESOLVED` while the worker that claimed it holds the lease. -/
theorem expiry_ignores_lease :
    ∃ state after, (cluster podName).Reachable System.always state ∧
      (cluster podName).step state (.commit false) = some after ∧
      state.phase false = .expiring (100 * second) [] false ∧ leasedToSecond state = true ∧
      ∃ attempt, after.rows.committed 1 = some attempt ∧ attempt.state = .unresolved := by
  obtain ⟨state, -, reached, checked⟩ := System.exists_reachable (fun _ _ _ _ => trivial)
    twoUncertain_initial
    (show ((cluster podName).replay (fun _ _ => true) _
        (.expire false (100 * second) (40 * second) 1 [1] :: claimFirst ++
          [.lock false 1, .update false 0])).any (fun state => leasedToSecond state &&
        decide (state.phase false = .expiring (100 * second) [] false) &&
        (state.finish false |>.rows.committed 1).any fun attempt =>
          decide (attempt.state = .unresolved)) = true by
      decide +kernel)
  rw [Bool.and_eq_true, Bool.and_eq_true, decide_eq_true_eq] at checked
  obtain ⟨⟨leased, phase⟩, moved⟩ := checked
  obtain ⟨attempt, found, unresolved⟩ := (Option.any_eq_true _ _).mp moved
  have stepped : (cluster podName).step state (.commit false) = some (state.finish false) := by
    change state.step podName (.commit false) = _
    simp only [Cluster.step, phase]
  exact ⟨state, _, reached, stepped, phase, leased, attempt, found, of_decide_eq_true unresolved⟩

end OufMcp.Ledger
