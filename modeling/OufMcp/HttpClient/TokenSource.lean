import OufMcp.Ledger.Service

/-!
# The workload token

The calls of `ClientCredentialsTokenSource.Token` hold a mutex, so they run one after the
other over the cached token.
-/

namespace OufMcp.HttpClient

open Ledger (Time second int64)
open Relational

structure TokenPayload where
  accessToken : String
  expiresIn : Int
  tokenType : String

/-- A response of the endpoint; a body that is not decoded has no payload. -/
structure TokenResponse where
  statusCode : Nat
  payload : Option TokenPayload

inductive TokenError where
  | secretUnreadable | secretEmpty | exchange | rejected | invalid | incomplete | unsupportedType

structure ClientCredentialsTokenSource where
  token : String
  expiresAt : Time

/-- What a call meets: the clock, the secret file and the endpoint. -/
structure TokenCall where
  now : Time
  secretFile : Option String
  post : String → Option TokenResponse

def ClientCredentialsTokenSource.Reuses (source : ClientCredentialsTokenSource)
    (call : TokenCall) : Prop :=
  source.token ≠ "" ∧ call.now + 30 * second < source.expiresAt

instance (source : ClientCredentialsTokenSource) (call : TokenCall) :
    Decidable (source.Reuses call) :=
  inferInstanceAs (Decidable (_ ∧ _))

section Calls

-- `strings.TrimSpace` and `strings.EqualFold`
variable (trim : String → String) (fold : String → String → Bool)

def TokenCall.request (call : TokenCall) : Except TokenError TokenPayload := do
  let secretRaw ← demand .secretUnreadable call.secretFile
  ensure (trim secretRaw ≠ "") .secretEmpty
  let response ← demand .exchange (call.post (trim secretRaw))
  ensure (response.statusCode / 100 = 2) .rejected
  let payload ← demand .invalid response.payload
  ensure (trim payload.accessToken ≠ "" ∧ 0 < payload.expiresIn) .incomplete
  ensure (payload.tokenType = "" ∨ fold payload.tokenType "Bearer" = true) .unsupportedType
  pure payload

def ClientCredentialsTokenSource.Token (source : ClientCredentialsTokenSource)
    (call : TokenCall) : Except TokenError String × ClientCredentialsTokenSource :=
  if source.Reuses call then (.ok source.token, source)
  else match call.request trim fold with
    | .error error => (.error error, source)
    | .ok payload => (.ok payload.accessToken,
        ⟨payload.accessToken, call.now + int64 (payload.expiresIn * second)⟩)

def sourceAfter : List TokenCall → ClientCredentialsTokenSource
  | [] => ⟨"", 0⟩
  | call :: earlier => ((sourceAfter earlier).Token trim fold call).2

/-- A call after some others sends a request and is given a payload. -/
def Obtains (earlier : List TokenCall) (call : TokenCall) (payload : TokenPayload) : Prop :=
  ¬ (sourceAfter trim fold earlier).Reuses call ∧ call.request trim fold = .ok payload

/-- One of the calls was given the token, with a lifetime that reaches an instant. -/
def Lives (calls : List TokenCall) (token : String) (expiry : Time) : Prop :=
  ∃ call earlier payload, call :: earlier <:+ calls ∧ Obtains trim fold earlier call payload ∧
    payload.accessToken = token ∧ expiry ≤ call.now + payload.expiresIn * second

variable {trim fold}

/-- The product of the lifetime may overflow, which only shortens it. -/
theorem int64_lifetime_le {call : TokenCall} {payload : TokenPayload}
    (done : call.request trim fold = .ok payload) :
    int64 (payload.expiresIn * second) ≤ payload.expiresIn * second := by
  simp only [TokenCall.request, bind_eq_ok, ensure_eq_ok, demand_eq_ok, pure_eq_ok] at done
  obtain ⟨_, -, _, -, _, -, _, -, _, -, _, ⟨-, positive⟩, _, -, rfl⟩ := done
  rw [int64, second, Int.bmod_def]
  split <;> omega

theorem lives_sourceAfter {calls : List TokenCall}
    (cached : (sourceAfter trim fold calls).token ≠ "") :
    Lives trim fold calls (sourceAfter trim fold calls).token
      (sourceAfter trim fold calls).expiresAt := by
  induction calls with
  | nil => exact absurd rfl cached
  | cons call earlier ih =>
    have older (present : (sourceAfter trim fold earlier).token ≠ "") :
        Lives trim fold (call :: earlier) (sourceAfter trim fold earlier).token
          (sourceAfter trim fold earlier).expiresAt := by
      obtain ⟨sender, before, payload, among, obtained⟩ := ih present
      exact ⟨sender, before, payload, among.trans (List.suffix_cons _ _), obtained⟩
    rw [sourceAfter, ClientCredentialsTokenSource.Token] at cached ⊢
    split at cached
    next reused =>
      rw [if_pos reused]
      exact older cached
    next spent =>
      rw [if_neg spent]
      cases done : call.request trim fold with
      | error error =>
        rw [done] at cached
        exact older cached
      | ok payload =>
        exact ⟨call, earlier, payload, List.suffix_rfl, ⟨spent, done⟩, rfl,
          Int.add_le_add_left (int64_lifetime_le done) _⟩

/-- Whatever the clock and the endpoint do: a token that is returned was requested by this call,
or by an earlier one that was given it with a lifetime of which more than 30 seconds are left. -/
theorem token_current {calls : List TokenCall} {call : TokenCall} {token : String}
    (returned : ((sourceAfter trim fold calls).Token trim fold call).1 = .ok token) :
    (∃ payload, Obtains trim fold calls call payload ∧ payload.accessToken = token) ∨
      ∃ expiry, call.now + 30 * second < expiry ∧ Lives trim fold calls token expiry := by
  rw [ClientCredentialsTokenSource.Token] at returned
  split at returned
  next reused =>
    cases returned
    exact .inr ⟨_, reused.2, lives_sourceAfter reused.1⟩
  next spent =>
    cases done : call.request trim fold with
    | error error =>
      rw [done] at returned
      cases returned
    | ok payload =>
      rw [done] at returned
      cases returned
      exact .inl ⟨payload, ⟨spent, done⟩, rfl⟩

end Calls

/-- The second of two calls finds the endpoint down and the first one's token alive. -/
theorem token_current_reused :
    ∃ expiry, 100 * second + 30 * second < expiry ∧
      Lives id (· == ·) [⟨0, some "s", fun _ => some ⟨200, some ⟨"t", 300, ""⟩⟩⟩] "t" expiry :=
  (@token_current id (· == ·) _ ⟨100 * second, none, fun _ => none⟩ "t" rfl).resolve_left
    fun ⟨_, ⟨_, done⟩, _⟩ => by cases done

end OufMcp.HttpClient
