import OufMcp.Policy.Cache

/-!
# The published snapshots never roll back

A snapshot is published only by a swap that still finds the snapshot it was
checked against, so each published snapshot follows the one before it, and the
relation is transitive.  What a call has loaded and tested stays true while other
calls publish and the clock goes on.
-/

namespace OufMcp.Policy

open Ledger (Time)
open Relational Transition

variable {encoding : Encoding} {settings : Settings} {cache next : Cache} {event : Event}
  {active : Register CachedSnapshot} {first clock now : Time} {caller : Nat}

/-! ## Succession -/

/-- What a published snapshot may be after an earlier one. -/
structure Succeeds (newer older : CachedSnapshot) : Prop where
  lineage : newer.active.bundleId = older.active.bundleId
  version : older.active.bundleVersion ≤ newer.active.bundleVersion
  activated : older.active.activatedAt ≤ newer.active.activatedAt
  verified : older.verifiedAt ≤ newer.verifiedAt
  activates : older.active.bundleVersion < newer.active.bundleVersion →
    older.active.activatedAt < newer.active.activatedAt
  immutable : newer.active.bundleVersion = older.active.bundleVersion →
    newer.digest = older.digest

theorem Succeeds.trans (a b c : CachedSnapshot) (first : Succeeds a b) (rest : Succeeds b c) :
    Succeeds a c where
  lineage := first.lineage.trans rest.lineage
  version := le_trans rest.version first.version
  activated := le_trans rest.activated first.activated
  verified := le_trans rest.verified first.verified
  activates := by
    intro increased
    rcases lt_or_eq_of_le rest.version with early | same
    · exact lt_of_lt_of_le (rest.activates early) first.activated
    · exact lt_of_le_of_lt rest.activated (first.activates (same ▸ increased))
  immutable := by
    intro same
    have middle : b.active.bundleVersion = c.active.bundleVersion :=
      le_antisymm (same ▸ first.version) rest.version
    exact (first.immutable (same.trans middle.symm)).trans (rest.immutable middle)

theorem succeeds_of_check {newer older : CachedSnapshot}
    (passed : newer.check (some older) = .ok ()) : Succeeds newer older := by
  simp only [CachedSnapshot.check, bind_eq_ok, ensure_eq_ok] at passed
  obtain ⟨_, ⟨lineage, version, activated⟩, _, immutable, _, collision, verified⟩ := passed
  refine ⟨lineage, version, activated, verified, ?_, ?_⟩
  · intro increased
    refine lt_of_le_of_ne activated fun same => ?_
    exact collision ⟨same.symm, ne_of_gt increased⟩
  · intro same
    by_contra changed
    exact immutable ⟨same, changed⟩

/-! ## What a call knows -/

/-- The first reading of the clock is not before the verification. -/
structure Inquiry.Past (inquiry : Inquiry) (active : Register CachedSnapshot) (first : Time) :
    Prop where
  published : inquiry.active ∈ active.history
  verified : inquiry.active.verifiedAt ≤ first

variable {inquiry : Inquiry}

/-- The second reading is later and within the staleness bound. -/
structure Inquiry.Fresh (inquiry : Inquiry) (settings : Settings)
    (active : Register CachedSnapshot) (first again : Time) : Prop
    extends inquiry.Past active first where
  ordered : first ≤ again
  recent : again < inquiry.active.verifiedAt + settings.maxStaleness

/-- What holds of a call in terms of the published snapshots and the clock. -/
def Call.Sound (settings : Settings) (active : Register CachedSnapshot) (clock : Time) :
    Call → Prop
  | .loaded _ pointer current => active.Loaded pointer current
  | .checked next pointer => ∃ current, active.Loaded pointer current ∧ next.check current = .ok ()
  | .authorizing inquiry => inquiry.active ∈ active.history
  | .past inquiry first => inquiry.Past active first ∧ first ≤ clock
  | .fresh inquiry first again => inquiry.Fresh settings active first again ∧ again ≤ clock
  | .decided inquiry first again last decision =>
    inquiry.Fresh settings active first again ∧ again ≤ last ∧
      decision = inquiry.request.decision inquiry.active last
  | _ => True

theorem Inquiry.Past.publish (past : inquiry.Past active first) (snapshot : CachedSnapshot) :
    inquiry.Past ⟨snapshot :: active.history⟩ first :=
  ⟨.tail _ past.published, past.verified⟩

theorem Inquiry.Fresh.publish {first again : Time}
    (fresh : inquiry.Fresh settings active first again) (snapshot : CachedSnapshot) :
    inquiry.Fresh settings ⟨snapshot :: active.history⟩ first again :=
  ⟨fresh.toPast.publish snapshot, fresh.ordered, fresh.recent⟩

theorem Call.Sound.publish {call : Call} (sound : call.Sound settings active clock)
    (snapshot : CachedSnapshot) : call.Sound settings ⟨snapshot :: active.history⟩ clock := by
  cases call with
  | loaded newer pointer current => exact Register.Loaded.publish sound snapshot
  | checked newer pointer =>
    obtain ⟨current, loaded, passed⟩ := sound
    exact ⟨current, loaded.publish snapshot, passed⟩
  | authorizing inquiry => exact .tail _ sound
  | past inquiry first => exact ⟨sound.1.publish snapshot, sound.2⟩
  | fresh inquiry first again => exact ⟨sound.1.publish snapshot, sound.2⟩
  | decided inquiry first again last decision => exact ⟨sound.1.publish snapshot, sound.2⟩
  | _ => trivial

theorem Call.Sound.later {active : Register CachedSnapshot} {clock now : Time} {call : Call}
    (sound : call.Sound settings active clock) (later : clock ≤ now) :
    call.Sound settings active now := by
  cases call with
  | past inquiry first => exact ⟨sound.1, le_trans sound.2 later⟩
  | fresh inquiry first again => exact ⟨sound.1, le_trans sound.2 later⟩
  | loaded | checked | authorizing | decided => exact sound
  | _ => trivial

/-! ## Steps -/

/-- A step is local to a call that has not published, or it is the swap of a call
whose snapshot follows the current one. -/
inductive Moves (settings : Settings) (cache : Cache) : Event → Cache → Prop where
  | call (event : Event) (caller : Nat) (call : Call) (now : Time)
      (active : cache.calls caller ≠ .refreshed) (later : cache.clock ≤ now)
      (sound : call.Sound settings cache.active now) :
      Moves settings cache event { cache.setCall caller call with clock := now }
  | publish (caller : Nat) (snapshot : CachedSnapshot)
      (active : cache.calls caller ≠ .refreshed)
      (follows : ∀ current, cache.active.value = some current → Succeeds snapshot current) :
      Moves settings cache (.swap caller) { cache.setCall caller .refreshed with
        active := ⟨snapshot :: cache.active.history⟩, publishers := caller :: cache.publishers }

theorem Moves.still (event : Event) {caller : Nat} {call : Call}
    (active : cache.calls caller ≠ .refreshed)
    (sound : call.Sound settings cache.active cache.clock) :
    Moves settings cache event (cache.setCall caller call) :=
  .call event caller call cache.clock active le_rfl sound

theorem Moves.reading (event : Event) {call : Call} (active : cache.calls caller ≠ .refreshed)
    (stepped : (cache.read now).map (·.setCall caller call) = some next)
    (sound : cache.clock ≤ now → call.Sound settings cache.active now) :
    Moves settings cache event next := by
  unfold Cache.read at stepped
  split at stepped
  next later =>
    cases stepped
    exact .call event caller call now active later (sound later)
  next => cases stepped

theorem check_sound {snapshot : CachedSnapshot} {pointer : Nat} {current : Option CachedSnapshot}
    (loaded : active.Loaded pointer current) :
    (Cache.check snapshot pointer current).Sound settings active clock := by
  unfold Cache.check
  split
  next => trivial
  next passed => exact ⟨current, loaded, passed⟩

theorem authorize_sound (request : AuthorizationRequest) :
    (cache.authorize request).Sound settings cache.active cache.clock := by
  unfold Cache.authorize
  split
  next => trivial
  next current published => exact List.mem_of_head? published

theorem testPast_sound (published : inquiry.active ∈ active.history) :
    (Cache.testPast inquiry now).Sound settings active now := by
  unfold Cache.testPast
  split
  next => trivial
  next past => exact ⟨⟨published, not_lt.mp past⟩, le_rfl⟩

theorem testAge_sound (past : inquiry.Past active first) (later : first ≤ now) :
    (Cache.testAge settings inquiry first now).Sound settings active now := by
  unfold Cache.testAge
  split
  next recent => exact ⟨⟨past, later, recent⟩, le_rfl⟩
  next => trivial

theorem swap_moves {snapshot : CachedSnapshot} {pointer : Nat} {current : Option CachedSnapshot}
    (active : cache.calls caller ≠ .refreshed) (loaded : cache.active.Loaded pointer current)
    (passed : snapshot.check current = .ok ()) :
    Moves settings cache (.swap caller) (cache.swap caller snapshot pointer) := by
  unfold Cache.swap
  split
  next published swapped =>
    obtain ⟨held, rfl⟩ := Register.compareAndSwap_eq_some swapped
    refine .publish caller snapshot active fun now holds => ?_
    -- the pointer is still held, so the refresh was checked against this snapshot
    have same : current = some now := (loaded.value_eq held).symm.trans holds
    exact succeeds_of_check (same ▸ passed)
  next => exact .still _ active trivial

theorem step_moves (sound : ∀ caller, (cache.calls caller).Sound settings cache.active cache.clock)
    (stepped : cache.step encoding settings event = some next) :
    Moves settings cache event next := by
  cases event with
  | fetch caller reply =>
    simp only [Cache.step] at stepped
    split at stepped
    next phase =>
      cases stepped
      refine .still _ (by simp [phase]) ?_
      unfold Cache.fetch
      repeat' split
      all_goals trivial
    next => cases stepped
  | validate caller =>
    simp only [Cache.step] at stepped
    split at stepped
    next bundle phase =>
      cases stepped
      refine .still _ (by simp [phase]) ?_
      unfold Cache.validate
      repeat' split
      all_goals trivial
    next => cases stepped
  | readClock caller now =>
    simp only [Cache.step] at stepped
    split at stepped
    next bundle digest phase =>
      exact .reading _ (by simp [phase]) stepped fun _ => trivial
    next => cases stepped
  | load caller =>
    simp only [Cache.step] at stepped
    split at stepped
    next snapshot phase =>
      cases stepped
      exact .still _ (by simp [phase]) cache.active.loaded_now
    next => cases stepped
  | check caller =>
    simp only [Cache.step] at stepped
    split at stepped
    next snapshot pointer current phase =>
      cases stepped
      have known := sound caller
      rw [phase] at known
      exact .still _ (by simp [phase]) (check_sound known)
    next => cases stepped
  | swap caller =>
    simp only [Cache.step] at stepped
    split at stepped
    next snapshot pointer phase =>
      cases stepped
      have known := sound caller
      rw [phase] at known
      obtain ⟨current, loaded, passed⟩ := known
      exact swap_moves (by simp [phase]) loaded passed
    next => cases stepped
  | authorize caller request =>
    simp only [Cache.step] at stepped
    split at stepped
    next phase =>
      cases stepped
      exact .still _ (by simp [phase]) (authorize_sound request)
    next => cases stepped
  | testPast caller now =>
    simp only [Cache.step] at stepped
    split at stepped
    next inquiry phase =>
      have known := sound caller
      rw [phase] at known
      exact .reading _ (by simp [phase]) stepped fun _ => testPast_sound known
    next => cases stepped
  | testAge caller now =>
    simp only [Cache.step] at stepped
    split at stepped
    next inquiry first phase =>
      have known := sound caller
      rw [phase] at known
      exact .reading _ (by simp [phase]) stepped fun later =>
        testAge_sound known.1 (le_trans known.2 later)
    next => cases stepped
  | evaluate caller now =>
    simp only [Cache.step] at stepped
    split at stepped
    next inquiry first again phase =>
      have known := sound caller
      rw [phase] at known
      split at stepped
      next error refused =>
        cases stepped
        exact .still _ (by simp [phase]) trivial
      next =>
        exact .reading _ (by simp [phase]) stepped fun later =>
          ⟨known.1, le_trans known.2 later, rfl⟩
    next => cases stepped

/-! ## Runs -/

structure Cache.Sound (settings : Settings) (cache : Cache) : Prop where
  ordered : cache.active.history.Pairwise Succeeds
  calls : ∀ caller, (cache.calls caller).Sound settings cache.active cache.clock
  publishers : ∀ caller ∈ cache.publishers, cache.calls caller = .refreshed

theorem Cache.setCall_sound {call : Call}
    (others : ∀ other, (cache.calls other).Sound settings active clock)
    (sound : call.Sound settings active clock) (other : Nat) :
    ((cache.setCall caller call).calls other).Sound settings active clock := by
  by_cases same : other = caller
  · subst same
    simpa [Cache.setCall] using sound
  · simpa [Cache.setCall, Function.update_of_ne same] using others other

theorem Cache.Sound.moves (sound : cache.Sound settings) (moved : Moves settings cache event next) :
    next.Sound settings := by
  cases moved with
  | call _ caller call now active later known =>
    refine ⟨sound.ordered,
      Cache.setCall_sound (fun other => (sound.calls other).later later) known, ?_⟩
    intro other published
    have kept := sound.publishers other published
    have distinct : other ≠ caller := by
      rintro rfl
      exact active kept
    simpa [Cache.setCall, Function.update_of_ne distinct] using kept
  | publish caller snapshot active follows =>
    refine ⟨Register.pairwise_cons Succeeds.trans sound.ordered follows,
      Cache.setCall_sound (fun other => (sound.calls other).publish snapshot) trivial, ?_⟩
    intro other published
    by_cases same : other = caller
    · subst same
      simp [Cache.setCall]
    · have earlier := (List.mem_cons.mp published).resolve_left same
      simpa [Cache.setCall, Function.update_of_ne same] using sound.publishers other earlier

theorem sound_of_reachable {guard : Cache → Event → Prop}
    (reached : (policyCache encoding settings).Reachable guard cache) : cache.Sound settings := by
  refine reached.induction ?_ fun _ _ _ _ sound _ stepped =>
    sound.moves (step_moves sound.calls stepped)
  rintro _ ⟨clock, rfl⟩
  refine ⟨.nil, fun _ => trivial, fun _ published => ?_⟩
  cases published

/-- A step that changes the published snapshot is the swap of a refresh that
thereby returns without an error. -/
theorem Moves.published (moved : Moves settings cache event next)
    (changed : next.active ≠ cache.active) :
    ∃ caller, event = .swap caller ∧ next.calls caller = .refreshed ∧
      next.publishers = caller :: cache.publishers := by
  cases moved with
  | call => exact absurd rfl changed
  | publish caller snapshot active follows =>
    exact ⟨caller, rfl, by simp [Cache.setCall], rfl⟩

/-- In every run the published snapshots keep their lineage, never go back in
version, activation or verification, activate strictly later when the version
increases and keep the digest of a version.  A refresh that failed has published
nothing.  A decision is taken on a published snapshot that was verified at all
three readings of the clock and fresh at the two of the freshness test. -/
theorem policy_never_rolls_back
    (reached : (policyCache encoding settings).Reachable System.always cache) :
    cache.active.history.Pairwise Succeeds ∧
    (∀ caller error, cache.calls caller = .failed error → caller ∉ cache.publishers) ∧
    (∀ event next, cache.step encoding settings event = some next → next.active ≠ cache.active →
      ∃ caller, event = .swap caller ∧ next.calls caller = .refreshed ∧
        next.publishers = caller :: cache.publishers) ∧
    ∀ caller inquiry first again last decision,
      cache.calls caller = .decided inquiry first again last decision →
      inquiry.active ∈ cache.active.history ∧
      decision = inquiry.request.decision inquiry.active last ∧
      (∀ reading ∈ [first, again, last], inquiry.active.verifiedAt ≤ reading) ∧
      ∀ reading ∈ [first, again],
        reading < inquiry.active.verifiedAt + settings.maxStaleness := by
  have sound := sound_of_reachable reached
  refine ⟨sound.ordered, ?_, fun event next stepped => (step_moves sound.calls stepped).published,
    ?_⟩
  · intro caller error failed published
    rw [sound.publishers caller published] at failed
    cases failed
  · intro caller inquiry first again last decision decided
    have known := sound.calls caller
    rw [decided] at known
    obtain ⟨fresh, later, evaluated⟩ := known
    have verifiedAgain := le_trans fresh.verified fresh.ordered
    refine ⟨fresh.published, evaluated, ?_, ?_⟩
    · simpa using ⟨fresh.verified, verifiedAgain, le_trans verifiedAgain later⟩
    · simpa using ⟨lt_of_le_of_lt fresh.ordered fresh.recent, fresh.recent⟩

/-! ## Traces -/

def sampleActive (version : Int) (activatedAt : Time) : ActivePolicyBundle where
  contentHash := ""
  bundleId := "bundle"
  bundleVersion := version
  activatedAt := activatedAt
  bundle :=
    { bundleId := "bundle"
      version := version
      publishedAt := 1
      capabilities := [⟨"ouf.system.status", "READ", "operations.status.read", ["HUMAN"]⟩]
      grants := [⟨none, "grant", "ouf.system.status", "tenant", "user", "", "", 0,
        1000000000000⟩] }

def sampleEncoding : Encoding where
  detach := some
  digest bundle := BitVec.ofInt 256 bundle.version

def sampleRequest : AuthorizationRequest where
  identity := ⟨"user", "tenant", "", "HUMAN", "mfa", "issuer", "ouf", ["operations.status.read"],
    none⟩
  resource := ⟨"", "", "", "", ∅⟩
  capabilityId := "ouf.system.status"
  operationClass := "READ"

def refreshUntilLoad (caller : Nat) (bundle : ActivePolicyBundle) (now : Time) : List Event :=
  [.fetch caller (some bundle), .validate caller, .readClock caller now, .load caller]

/-- Two refreshes that load before either swaps, so that the second one has to load
again; a refresh that comes with the older bundle once more; and an authorization
whose evaluation comes when the snapshot has just become stale. -/
def racingRefreshes : List Event :=
  refreshUntilLoad 0 (sampleActive 1 10) 100 ++ refreshUntilLoad 1 (sampleActive 2 20) 200 ++
    [.check 0, .check 1, .swap 0, .swap 1, .load 1, .check 1, .swap 1] ++
    refreshUntilLoad 2 (sampleActive 1 10) 300 ++
    [.check 2, .authorize 3 sampleRequest, .testPast 3 300000000199, .testAge 3 300000000199,
      .evaluate 3 300000000200]

def Call.decision? : Call → Option (Inquiry × Time × Time × Time × AuthorizationDecision)
  | .decided inquiry first again last decision => some (inquiry, first, again, last, decision)
  | _ => none

def Call.failed? : Call → Option RefreshError
  | .failed error => some error
  | _ => none

theorem Call.eq_decided {call : Call} {first again last : Time} {decision : AuthorizationDecision}
    (decided : call.decision? = some (inquiry, first, again, last, decision)) :
    call = .decided inquiry first again last decision := by
  cases call with
  | decided => cases decided; rfl
  | _ => cases decided

theorem Call.eq_failed {call : Call} {error : RefreshError}
    (failed : call.failed? = some error) : call = .failed error := by
  cases call with
  | failed => cases failed; rfl
  | _ => cases failed

def raced (cache : Cache) : Bool :=
  decide (cache.active.history.map (fun snapshot => snapshot.active.bundleVersion) = [2, 1] ∧
    (cache.calls 2).failed? = some .rollback ∧
    ((cache.calls 3).decision?.any fun decided =>
      decide (decided.1.active.verifiedAt = 200 ∧ decided.2.2.2.1 = 300000000200 ∧
        decided.2.2.2.2.allowed = true)) = true)

theorem exists_raced : ∃ cache, (policyCache sampleEncoding (newCache true)).Reachable
    System.always cache ∧ raced cache = true := by
  have start : (policyCache sampleEncoding (newCache true)).initial (.initial 0) := ⟨0, rfl⟩
  have accepted : ((policyCache sampleEncoding (newCache true)).replay (fun _ _ => true)
      (.initial 0) racingRefreshes).any raced = true := by decide +kernel
  obtain ⟨cache, _, reached, passed⟩ := System.exists_reachable (fun _ _ _ _ => trivial) start
    accepted
  exact ⟨cache, reached, passed⟩

/-- The evaluation may read the clock when the snapshot is no longer fresh. -/
theorem evaluation_after_staleness :
    ∃ cache, (policyCache sampleEncoding (newCache true)).Reachable System.always cache ∧
      ∃ inquiry first again last decision,
        cache.calls 3 = .decided inquiry first again last decision ∧ decision.allowed = true ∧
        ¬ last < inquiry.active.verifiedAt + (newCache true).maxStaleness := by
  obtain ⟨cache, reached, passed⟩ := exists_raced
  obtain ⟨_, _, decided⟩ := of_decide_eq_true passed
  obtain ⟨⟨inquiry, first, again, last, decision⟩, shape, facts⟩ :=
    (Option.any_eq_true _ _).mp decided
  obtain ⟨verified, stale, allowed⟩ := of_decide_eq_true facts
  refine ⟨cache, reached, inquiry, first, again, last, decision, Call.eq_decided shape, allowed, ?_⟩
  have readAt : last = 300000000200 := stale
  have verifiedAt : inquiry.active.verifiedAt = 200 := verified
  rw [readAt, verifiedAt]
  decide

/-- Two published versions, a rejected rollback and a decision on the newer one. -/
theorem policy_never_rolls_back_racing :
    ∃ cache, (policyCache sampleEncoding (newCache true)).Reachable System.always cache ∧
      cache.active.history.length = 2 ∧ cache.active.history.Pairwise Succeeds ∧
      cache.calls 2 = .failed .rollback ∧ 2 ∉ cache.publishers ∧
      ∃ inquiry first again last decision,
        cache.calls 3 = .decided inquiry first again last decision ∧
        again < inquiry.active.verifiedAt + (newCache true).maxStaleness ∧
        inquiry.active.verifiedAt ≤ last := by
  obtain ⟨cache, reached, passed⟩ := exists_raced
  obtain ⟨versions, failed, decided⟩ := of_decide_eq_true passed
  obtain ⟨⟨inquiry, first, again, last, decision⟩, shape, -⟩ := (Option.any_eq_true _ _).mp decided
  have failed := Call.eq_failed failed
  have decided := Call.eq_decided shape
  obtain ⟨ordered, silent, -, fresh⟩ := policy_never_rolls_back reached
  obtain ⟨-, -, verified, recent⟩ := fresh 3 _ _ _ _ _ decided
  have two : cache.active.history.length = 2 := by simpa using congrArg List.length versions
  exact ⟨cache, reached, two, ordered, failed, silent 2 _ failed, inquiry, first, again, last,
    decision, decided, recent again (by simp), verified last (by simp)⟩

/-! ## Monotone reads -/

def Call.inquiry? : Call → Option Inquiry
  | .authorizing inquiry | .past inquiry _ | .fresh inquiry _ _ | .decided inquiry _ _ _ _ =>
    some inquiry
  | _ => none

theorem Call.Sound.published {call : Call} (sound : call.Sound settings active clock)
    (found : call.inquiry? = some inquiry) : inquiry.active ∈ active.history := by
  cases call with
  | authorizing =>
    cases found
    exact sound
  | past | fresh | decided =>
    cases found
    exact sound.1.published
  | _ => cases found

/-- Whatever refreshes and authorizations run beside it, an authorization that begins after
another has loaded its policy loads the same snapshot or one that succeeds it. -/
theorem authorizations_monotone
    (reached : (policyCache encoding settings).Reachable System.always cache) {caller other : Nat}
    {request : AuthorizationRequest} {later earlier : Inquiry}
    (stepped : (policyCache encoding settings).step cache (.authorize caller request) = some next)
    (begins : (next.calls caller).inquiry? = some later)
    (loaded : (cache.calls other).inquiry? = some earlier) :
    later.active = earlier.active ∨ Succeeds later.active earlier.active := by
  have sound := sound_of_reachable reached
  have published := (sound.calls other).published loaded
  simp only [policyCache, Cache.step] at stepped
  split at stepped
  next =>
    cases stepped
    simp only [Cache.setCall, Function.update_self, Cache.authorize] at begins
    split at begins
    next => cases begins
    next active current =>
      cases begins
      obtain ⟨rest, history⟩ := List.head?_eq_some_iff.mp current
      rw [history] at published
      rcases List.mem_cons.mp published with same | older
      · exact .inl same.symm
      · exact .inr (List.rel_of_pairwise_cons (history ▸ sound.ordered) older)
  next => cases stepped

/-- One authorization before a newer version is published and one after. -/
theorem authorizations_monotone_newVersion :
    ∃ later earlier, Succeeds later earlier ∧ later.active.bundleVersion = 2 ∧
      earlier.active.bundleVersion = 1 := by
  let system := policyCache sampleEncoding (newCache true)
  have start : system.initial (.initial 0) := ⟨0, rfl⟩
  obtain ⟨cache, -, reached, checked⟩ := System.exists_reachable
    (fun _ _ _ _ => trivial) start
    (show (system.replay (fun _ _ => true) (.initial 0)
      (refreshUntilLoad 0 (sampleActive 1 10) 100 ++ [.check 0, .swap 0, .authorize 3 sampleRequest]
        ++ refreshUntilLoad 1 (sampleActive 2 20) 200 ++ [.check 1, .swap 1])).any (fun cache =>
          ((system.step cache (.authorize 4 sampleRequest)).any fun next =>
            (next.calls 4).inquiry?.any fun later =>
              decide (later.active.active.bundleVersion = 2)) &&
          (cache.calls 3).inquiry?.any fun earlier =>
            decide (earlier.active.active.bundleVersion = 1)) = true by decide +kernel)
  obtain ⟨began, before⟩ := Bool.and_eq_true_iff.mp checked
  obtain ⟨next, stepped, found⟩ := (Option.any_eq_true _ _).mp began
  obtain ⟨later, begins, newer⟩ := (Option.any_eq_true _ _).mp found
  obtain ⟨earlier, loaded, older⟩ := (Option.any_eq_true _ _).mp before
  have two := of_decide_eq_true newer
  have one := of_decide_eq_true older
  refine ⟨later.active, earlier.active, ?_, two, one⟩
  refine (authorizations_monotone reached stepped begins loaded).resolve_left fun same => ?_
  rw [same, one] at two
  cases two

end OufMcp.Policy
