import OufMcp.Json.Decode
import OufMcp.Json.Runes
import OufMcp.Ledger.Schema
import OufMcp.Relational.Transaction

/-!
# What a cursor and a bookmark are bound to

`BindIncidentCursor` and `BindPublicationBookmark` over the strings of Go, which are any
bytes.  The identity goes through the JSON encoder before it is hashed, and the encoder
writes all bytes that are no UTF-8 alike.  Two identities share a binding exactly when
they are the same or differ in such bytes only.
-/

namespace OufMcp.Binding

open Ledger (Time)
open Relational
open Json (GoString Text Value runes sortedSet goString)

/-! ## Identities -/

/-- A `time.Time` with its zone. -/
structure ZonedTime where
  instant : Time
  zone : Int
  deriving DecidableEq, Repr

def ZonedTime.utc (time : ZonedTime) : ZonedTime := { time with zone := 0 }

structure IdentityClaims where
  externalRoleRefs : List GoString
  acr : GoString
  amr : List GoString
  authenticatedAt : ZonedTime
  deriving DecidableEq, Repr

structure Identity where
  delegation : GoString
  claims : Option IdentityClaims
  servicePrincipalId : GoString
  principalId : GoString
  tenantId : GoString
  actorType : GoString
  authenticationContextRef : GoString
  issuer : GoString
  audience : GoString
  scopes : List GoString
  deriving DecidableEq, Repr

structure CursorBinding where
  principalId : GoString
  tenantId : GoString
  fingerprint : GoString
  policyRef : GoString
  manifestChecksum : GoString
  deriving DecidableEq, Repr

inductive BindError where
  | identityIncomplete
  | encoding
  | capacity
  deriving DecidableEq, Repr

/-- The functions of the standard library: how a time is marshalled, if its year has four
digits, and an ideal SHA-256. -/
structure Primitives where
  marshalTime : ZonedTime → Option String
  marshalTime_utc : ∀ (a b : ZonedTime) (text : String),
    marshalTime a.utc = some text → marshalTime b.utc = some text → a.instant = b.instant
  sha256Hex : ByteArray → GoString
  sha256_injective : Function.Injective sha256Hex

def validDigest (value : GoString) : Bool :=
  decide (value.length = 64) && (runes value).all fun
    | some c => decide ('0' ≤ c ∧ c ≤ '9') || decide ('a' ≤ c ∧ c ≤ 'f')
    | none => false

/-! ## Payloads -/

section Bind

variable (primitives : Primitives)

def member (name : String) (value : Value Text Int) : Text × Value Text Int :=
  (Json.text name, value)

def stringSet (elements : List GoString) : Value Text Int :=
  .arr ((sortedSet elements).map fun element => .str (runes element))

def IdentityClaims.payload (claims : IdentityClaims) : Option (Value Text Int) :=
  (primitives.marshalTime claims.authenticatedAt.utc).map fun authenticatedAt =>
    .obj [member "externalRoleRefs" (stringSet claims.externalRoleRefs),
      member "acr" (.str (runes claims.acr)),
      member "amr" (stringSet claims.amr),
      member "authenticatedAt" (.str (Json.text authenticatedAt))]

def claimsPayload : Option IdentityClaims → Option (Value Text Int)
  | none => some .null
  | some claims => claims.payload primitives

/-- All verified identity evidence; the delegation is left out. -/
def Identity.payload (identity : Identity) : Option (Value Text Int) :=
  (claimsPayload primitives identity.claims).map fun claims =>
    .obj [member "Principal" (.str (runes identity.principalId)),
      member "Tenant" (.str (runes identity.tenantId)),
      member "Service" (.str (runes identity.servicePrincipalId)),
      member "Actor" (.str (runes identity.actorType)),
      member "Authentication" (.str (runes identity.authenticationContextRef)),
      member "Issuer" (.str (runes identity.issuer)),
      member "Audience" (.str (runes identity.audience)),
      member "Scopes" (stringSet identity.scopes),
      member "Claims" claims]

/-- What stays the same over logins. -/
def Identity.stablePayload (identity : Identity) : Value Text Int :=
  .arr ([identity.principalId, identity.tenantId, identity.actorType, identity.servicePrincipalId,
    identity.issuer, identity.audience].map fun field => .str (runes field))

def encode (payload : Value Text Int) : ByteArray :=
  Json.utf8 (Json.render id Json.integers payload)

theorem encode_injective : Function.Injective encode :=
  Json.utf8_injective.comp (Json.render_injective Function.injective_id)

def boundTo (identity : Identity) (payload : Value Text Int) (policyRef manifest : GoString) :
    Except BindError CursorBinding := do
  ensure ((encode payload).size ≤ 16 * 1024) .capacity
  pure ⟨identity.principalId, identity.tenantId, primitives.sha256Hex (encode payload), policyRef,
    manifest⟩

def bindIncidentCursor (identity : Identity) (policyRef manifest : GoString) :
    Except BindError CursorBinding := do
  ensure (identity.principalId ≠ [] ∧ identity.tenantId ≠ [] ∧ identity.actorType ≠ [] ∧
    policyRef ≠ [] ∧ validDigest manifest = true) .identityIncomplete
  let payload ← demand .encoding (identity.payload primitives)
  boundTo primitives identity payload policyRef manifest

def bindPublicationBookmark (identity : Identity) (policy manifest : GoString) :
    Except BindError CursorBinding := do
  ensure (identity.principalId ≠ [] ∧ identity.tenantId ≠ [] ∧ validDigest manifest = true ∧
    policy ≠ [] ∧ (identity.actorType = goString "HUMAN" ∨
      identity.actorType = goString "SERVICE" ∨ identity.actorType = goString "AI_AGENT"))
    .identityIncomplete
  boundTo primitives identity identity.stablePayload policy manifest

end Bind

/-! ## Equal bindings -/

variable {primitives : Primitives} {i j : Identity}

theorem bound_eq_iff {first second : Value Text Int} {p q m n : GoString}
    {b c : CursorBinding} (one : boundTo primitives i first p m = .ok b)
    (two : boundTo primitives j second q n = .ok c) :
    b = c ↔ i.principalId = j.principalId ∧ i.tenantId = j.tenantId ∧ first = second ∧ p = q ∧
      m = n := by
  simp only [boundTo, bind_eq_ok, pure_eq_ok] at one two
  obtain ⟨_, -, rfl⟩ := one
  obtain ⟨_, -, rfl⟩ := two
  simp only [CursorBinding.mk.injEq, primitives.sha256_injective.eq_iff, encode_injective.eq_iff]

section Agreement

variable (strings : GoString → GoString → Prop) (lists : List GoString → List GoString → Prop)

/-- Claims agree, with the given notions for strings and for lists of strings. -/
structure IdentityClaims.Agrees (a b : IdentityClaims) : Prop where
  externalRoleRefs : lists a.externalRoleRefs b.externalRoleRefs
  acr : strings a.acr b.acr
  amr : lists a.amr b.amr
  instant : a.authenticatedAt.instant = b.authenticatedAt.instant

/-- Identities agree.  The principal and the tenant are always compared as they are. -/
structure Identity.Agrees (i j : Identity) : Prop where
  principalId : i.principalId = j.principalId
  tenantId : i.tenantId = j.tenantId
  servicePrincipalId : strings i.servicePrincipalId j.servicePrincipalId
  actorType : strings i.actorType j.actorType
  authenticationContextRef : strings i.authenticationContextRef j.authenticationContextRef
  issuer : strings i.issuer j.issuer
  audience : strings i.audience j.audience
  scopes : lists i.scopes j.scopes
  claims : Option.Rel (IdentityClaims.Agrees strings lists) i.claims j.claims

structure Identity.HolderAgrees (i j : Identity) : Prop where
  principalId : i.principalId = j.principalId
  tenantId : i.tenantId = j.tenantId
  actorType : strings i.actorType j.actorType
  servicePrincipalId : strings i.servicePrincipalId j.servicePrincipalId
  issuer : strings i.issuer j.issuer
  audience : strings i.audience j.audience

end Agreement

/-- The strings of an identity that are compared after they were encoded. -/
def IdentityClaims.encoded (claims : IdentityClaims) : List GoString :=
  claims.acr :: claims.externalRoleRefs ++ claims.amr

def Identity.encoded (identity : Identity) : List GoString :=
  [identity.servicePrincipalId, identity.actorType, identity.authenticationContextRef,
    identity.issuer, identity.audience] ++ identity.scopes ++
    (identity.claims.map IdentityClaims.encoded).getD []

theorem rel_imp {α : Type} {R S : α → α → Prop} {x y : Option α} (related : Option.Rel R x y)
    (imp : ∀ a ∈ x, ∀ b, R a b → S a b) : Option.Rel S x y := by
  cases related with
  | none => exact .none
  | some same => exact .some (imp _ rfl _ same)

/-- Agreement carries over if it does for every string and every list of the first identity. -/
theorem Identity.Agrees.imp {strings strings' : GoString → GoString → Prop}
    {lists lists' : List GoString → List GoString → Prop} (agrees : i.Agrees strings lists j)
    (string : ∀ a ∈ i.encoded, ∀ b, strings a b → strings' a b)
    (list : ∀ a, (∀ element ∈ a, element ∈ i.encoded) → ∀ b, lists a b → lists' a b) :
    i.Agrees strings' lists' j where
  principalId := agrees.principalId
  tenantId := agrees.tenantId
  servicePrincipalId := string _ (by simp [encoded]) _ agrees.servicePrincipalId
  actorType := string _ (by simp [encoded]) _ agrees.actorType
  authenticationContextRef := string _ (by simp [encoded]) _ agrees.authenticationContextRef
  issuer := string _ (by simp [encoded]) _ agrees.issuer
  audience := string _ (by simp [encoded]) _ agrees.audience
  scopes := list _ (fun element among => by simp [encoded, among]) _ agrees.scopes
  claims := by
    have within : ∀ claims ∈ i.claims, ∀ element ∈ claims.encoded, element ∈ i.encoded := by
      intro claims has element among
      rw [encoded, Option.mem_def.mp has]
      exact List.mem_append_right _ among
    refine rel_imp agrees.claims ?_
    intro a has b same
    have inside := within a has
    refine ⟨list _ ?_ _ same.externalRoleRefs, string _ ?_ _ same.acr, list _ ?_ _ same.amr,
      same.instant⟩
    · intro element among
      exact inside element (by simp [IdentityClaims.encoded, among])
    · exact inside a.acr (by simp [IdentityClaims.encoded])
    · intro element among
      exact inside element (by simp [IdentityClaims.encoded, among])

/-- The same identity: lists count as sets, times as instants, and the delegation not at all. -/
def Identity.SameAs : Identity → Identity → Prop :=
  Identity.Agrees (· = ·) fun a b => ∀ element, element ∈ a ↔ element ∈ b

/-- The encoder reads the same of both. -/
def Identity.ReadAlike : Identity → Identity → Prop :=
  Identity.Agrees (fun a b => runes a = runes b)
    fun a b => (sortedSet a).map runes = (sortedSet b).map runes

def Identity.SameHolder : Identity → Identity → Prop := Identity.HolderAgrees (· = ·)

def Identity.HolderReadAlike : Identity → Identity → Prop :=
  Identity.HolderAgrees fun a b => runes a = runes b

def Identity.WellFormed (identity : Identity) : Prop :=
  ∀ s ∈ identity.encoded, Json.WellFormed s

theorem Identity.SameAs.readAlike (same : i.SameAs j) : i.ReadAlike j := by
  refine Identity.Agrees.imp same ?_ ?_
  · intro a _ b equal
    exact congrArg runes equal
  · intro a _ b equal
    exact congrArg (List.map runes) (Json.sortedSet_eq_iff.mpr equal)

theorem Identity.ReadAlike.sameAs (wellFormed : i.WellFormed) (alike : i.ReadAlike j) :
    i.SameAs j := by
  refine Identity.Agrees.imp alike ?_ ?_
  · intro a among b equal
    exact Json.runes_inj (wellFormed a among) equal
  · intro a within b equal
    refine Json.sortedSet_eq_iff.mp (Json.map_runes_inj ?_ equal)
    intro element among
    exact wellFormed element (within element (Json.mem_sortedSet.mp among))

theorem Identity.SameHolder.readAlike (same : i.SameHolder j) : i.HolderReadAlike j :=
  ⟨same.principalId, same.tenantId, congrArg runes same.actorType,
    congrArg runes same.servicePrincipalId, congrArg runes same.issuer,
    congrArg runes same.audience⟩

theorem Identity.HolderReadAlike.sameHolder (wellFormed : i.WellFormed)
    (alike : i.HolderReadAlike j) : i.SameHolder j where
  principalId := alike.principalId
  tenantId := alike.tenantId
  actorType := Json.runes_inj (wellFormed _ (by simp [encoded])) alike.actorType
  servicePrincipalId := Json.runes_inj (wellFormed _ (by simp [encoded])) alike.servicePrincipalId
  issuer := Json.runes_inj (wellFormed _ (by simp [encoded])) alike.issuer
  audience := Json.runes_inj (wellFormed _ (by simp [encoded])) alike.audience

/-! ## Payloads tell what was read -/

theorem stringSet_eq_iff {a b : List GoString} :
    stringSet a = stringSet b ↔ (sortedSet a).map runes = (sortedSet b).map runes := by
  have wrapped : ∀ elements : List GoString, stringSet elements =
      .arr (((sortedSet elements).map runes).map Value.str) := by
    intro elements
    rw [List.map_map]
    rfl
  rw [wrapped, wrapped, Value.arr.injEq]
  exact (List.map_injective_iff.mpr fun _ _ => Value.str.inj).eq_iff

theorem IdentityClaims.payload_eq_iff {a b : IdentityClaims} {first second : Value Text Int}
    (one : a.payload primitives = some first) (two : b.payload primitives = some second) :
    first = second ↔ a.Agrees (fun a b => runes a = runes b)
      (fun a b => (sortedSet a).map runes = (sortedSet b).map runes) b := by
  obtain ⟨s, marshalled, rfl⟩ := Option.map_eq_some_iff.mp one
  obtain ⟨t, again, rfl⟩ := Option.map_eq_some_iff.mp two
  simp only [member, Value.obj.injEq, List.cons.injEq, Prod.mk.injEq, true_and, and_true,
    stringSet_eq_iff, Value.str.injEq]
  constructor
  · rintro ⟨roles, acr, amr, same⟩
    obtain rfl := Json.text_injective same
    exact ⟨roles, acr, amr, primitives.marshalTime_utc _ _ _ marshalled again⟩
  · rintro ⟨roles, acr, amr, instant⟩
    have equal : a.authenticatedAt.utc = b.authenticatedAt.utc := by
      simp only [ZonedTime.utc, instant]
    rw [equal, again] at marshalled
    exact ⟨roles, acr, amr, by rw [Option.some.inj marshalled]⟩

theorem claimsPayload_eq_iff {a b : Option IdentityClaims} {first second : Value Text Int}
    (one : claimsPayload primitives a = some first)
    (two : claimsPayload primitives b = some second) :
    first = second ↔ Option.Rel (IdentityClaims.Agrees (fun a b => runes a = runes b)
      fun a b => (sortedSet a).map runes = (sortedSet b).map runes) a b := by
  -- Claims are written as an object, their absence as `null`.
  have object : ∀ {claims : IdentityClaims} {payload : Value Text Int},
      claims.payload primitives = some payload → payload ≠ .null := by
    intro claims payload made null
    obtain ⟨_, -, rfl⟩ := Option.map_eq_some_iff.mp made
    cases null
  cases a with
  | none =>
    obtain rfl := Option.some.inj one
    cases b with
    | none =>
      obtain rfl := Option.some.inj two
      exact ⟨fun _ => .none, fun _ => rfl⟩
    | some claims =>
      refine ⟨fun same => absurd same.symm (object two), ?_⟩
      intro impossible
      cases impossible
  | some claims =>
    cases b with
    | none =>
      obtain rfl := Option.some.inj two
      refine ⟨fun same => absurd same (object one), ?_⟩
      intro impossible
      cases impossible
    | some others =>
      rw [IdentityClaims.payload_eq_iff one two]
      refine ⟨.some, ?_⟩
      intro related
      cases related with
      | some same => exact same

theorem Identity.payload_eq_iff {first second : Value Text Int}
    (one : i.payload primitives = some first) (two : j.payload primitives = some second) :
    (i.principalId = j.principalId ∧ i.tenantId = j.tenantId ∧ first = second) ↔
      i.ReadAlike j := by
  obtain ⟨claims, made, rfl⟩ := Option.map_eq_some_iff.mp one
  obtain ⟨others, again, rfl⟩ := Option.map_eq_some_iff.mp two
  have related := claimsPayload_eq_iff made again
  simp only [member, Value.obj.injEq, List.cons.injEq, Prod.mk.injEq, true_and, and_true,
    stringSet_eq_iff, Value.str.injEq, related]
  constructor
  · rintro ⟨principal, tenant, -, -, service, actor, context, issuer, audience, scopes, claims⟩
    exact ⟨principal, tenant, service, actor, context, issuer, audience, scopes, claims⟩
  · rintro ⟨principal, tenant, service, actor, context, issuer, audience, scopes, claims⟩
    exact ⟨principal, tenant, congrArg runes principal, congrArg runes tenant, service, actor,
      context, issuer, audience, scopes, claims⟩

theorem Identity.stablePayload_eq_iff :
    (i.principalId = j.principalId ∧ i.tenantId = j.tenantId ∧
      i.stablePayload = j.stablePayload) ↔ i.HolderReadAlike j := by
  simp only [stablePayload, Value.arr.injEq, List.map_cons, List.map_nil, List.cons.injEq,
    Value.str.injEq, and_true]
  constructor
  · rintro ⟨principal, tenant, -, -, actor, service, issuer, audience⟩
    exact ⟨principal, tenant, actor, service, issuer, audience⟩
  · rintro ⟨principal, tenant, actor, service, issuer, audience⟩
    exact ⟨principal, tenant, congrArg runes principal, congrArg runes tenant, actor, service,
      issuer, audience⟩

theorem bindIncidentCursor_eq_iff {p q m n : GoString} {b c : CursorBinding}
    (one : bindIncidentCursor primitives i p m = .ok b)
    (two : bindIncidentCursor primitives j q n = .ok c) :
    b = c ↔ p = q ∧ m = n ∧ i.ReadAlike j := by
  simp only [bindIncidentCursor, bind_eq_ok, demand_eq_ok] at one two
  obtain ⟨_, -, first, made, one⟩ := one
  obtain ⟨_, -, second, again, two⟩ := two
  rw [bound_eq_iff one two, ← Identity.payload_eq_iff made again]
  tauto

theorem bindPublicationBookmark_eq_iff {p q m n : GoString} {b c : CursorBinding}
    (one : bindPublicationBookmark primitives i p m = .ok b)
    (two : bindPublicationBookmark primitives j q n = .ok c) :
    b = c ↔ p = q ∧ m = n ∧ i.HolderReadAlike j := by
  simp only [bindPublicationBookmark, bind_eq_ok] at one two
  obtain ⟨_, -, one⟩ := one
  obtain ⟨_, -, two⟩ := two
  rw [bound_eq_iff one two, ← Identity.stablePayload_eq_iff]
  tauto

/-- Bindings are equal exactly when the encoder reads the same of the identities.  So they tell
identities apart unless these differ in bytes that are no UTF-8, and always if one is
well-formed. -/
theorem bindings_exact_iff (primitives : Primitives) (i j : Identity) (p q m n : GoString) :
    (∀ b c, bindIncidentCursor primitives i p m = .ok b →
      bindIncidentCursor primitives j q n = .ok c →
      ((b = c ↔ p = q ∧ m = n ∧ i.SameAs j) ↔
        ¬ (p = q ∧ m = n ∧ i.ReadAlike j ∧ ¬ i.SameAs j))) ∧
    (∀ b c, bindPublicationBookmark primitives i p m = .ok b →
      bindPublicationBookmark primitives j q n = .ok c →
      ((b = c ↔ p = q ∧ m = n ∧ i.SameHolder j) ↔
        ¬ (p = q ∧ m = n ∧ i.HolderReadAlike j ∧ ¬ i.SameHolder j))) ∧
    (i.WellFormed → (i.ReadAlike j → i.SameAs j) ∧ (i.HolderReadAlike j → i.SameHolder j)) := by
  refine ⟨?_, ?_, ?_⟩
  · intro b c one two
    rw [bindIncidentCursor_eq_iff one two]
    have same : i.SameAs j → i.ReadAlike j := Identity.SameAs.readAlike
    tauto
  · intro b c one two
    rw [bindPublicationBookmark_eq_iff one two]
    have same : i.SameHolder j → i.HolderReadAlike j := Identity.SameHolder.readAlike
    tauto
  · intro wellFormed
    exact ⟨Identity.ReadAlike.sameAs wellFormed, Identity.HolderReadAlike.sameHolder wellFormed⟩

/-- Times written as integers, and bytes as their own digest. -/
def samplePrimitives : Primitives where
  marshalTime time := some (String.ofList (Json.integers.print time.instant))
  marshalTime_utc a b text one two := by
    have same : Json.integers.print a.instant = Json.integers.print b.instant :=
      String.ofList_injective ((Option.some.inj one).trans (Option.some.inj two).symm)
    exact Json.integers.injective same
  sha256Hex bytes := bytes.data.toList.map UInt8.toFin
  sha256_injective := by
    intro a b same
    have bytes := List.map_injective_iff.mpr
      (fun _ _ equal => UInt8.toFin_inj.mp equal) same
    exact ByteArray.ext (Array.toList_inj.mp bytes)

def samplePerson (issuer : GoString) : Identity :=
  ⟨[], none, goString "service", goString "operator", goString "tenant", goString "HUMAN",
    goString "login", issuer, goString "mcp", []⟩

theorem samplePerson_payload {issuer other : GoString} (alike : runes issuer = runes other) :
    (samplePerson issuer).payload samplePrimitives =
      (samplePerson other).payload samplePrimitives := by
  simp only [Identity.payload, samplePerson, alike]

/-- The tokens of two issuers whose names differ in one byte share a cursor. -/
theorem issuers_share_binding :
    ∃ b, bindIncidentCursor samplePrimitives (samplePerson [0xff]) [1] (List.replicate 64 0x61) =
        .ok b ∧
      bindIncidentCursor samplePrimitives (samplePerson [0xfe]) [1] (List.replicate 64 0x61) =
        .ok b ∧
      ¬ (samplePerson [0xff]).SameAs (samplePerson [0xfe]) := by
  have alike : runes [0xff] = runes [0xfe] := by decide +kernel
  have same := samplePerson_payload alike
  obtain ⟨payload, made⟩ : ∃ payload,
      (samplePerson [0xff]).payload samplePrimitives = some payload := ⟨_, rfl⟩
  have small : (encode payload).size ≤ 16 * 1024 := by
    refine (Json.utf8_size_le _).trans ?_
    obtain rfl := Option.some.inj made
    decide +kernel
  have bound : ∀ issuer, (samplePerson issuer).payload samplePrimitives = some payload →
      bindIncidentCursor samplePrimitives (samplePerson issuer) [1] (List.replicate 64 0x61) =
        .ok ⟨goString "operator", goString "tenant",
          samplePrimitives.sha256Hex (encode payload), [1], List.replicate 64 0x61⟩ := by
    intro issuer made
    have complete : (goString "operator" ≠ [] ∧ goString "tenant" ≠ [] ∧ goString "HUMAN" ≠ [] ∧
        ([1] : GoString) ≠ [] ∧ validDigest (List.replicate 64 0x61) = true) := by
      decide +kernel
    exact bind_eq_ok.mpr ⟨(), ensure_eq_ok.mpr complete, bind_eq_ok.mpr ⟨payload,
      demand_eq_ok.mpr made, bind_eq_ok.mpr ⟨(), ensure_eq_ok.mpr small, rfl⟩⟩⟩
  refine ⟨_, bound _ made, bound _ (same.symm.trans made), ?_⟩
  intro same
  exact absurd same.issuer (by decide)

end OufMcp.Binding
