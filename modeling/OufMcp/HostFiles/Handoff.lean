import Mathlib.Data.Finmap
import OufMcp.Identifier.Uuid
import OufMcp.StatusView.Call

/-!
# Handoffs of managed uploads

The arguments of an upload without a stream name a handoff.  They are checked by the
status tool, by `Service.Call` before anything is reserved, and by `GatewayClient.Execute`
after the attempt was dispatched.  The first two ask the UUID package, the last one a
pattern of its own.
-/

namespace OufMcp.HostFiles

open Identifier
open Json (GoString goString Numerals Reader marshal)
open Ledger (Cost UUID)
open Relational (ensure bind_eq_ok ensure_eq_ok)
open StatusView (CallError Reply Ports Setting Result)

def uploadCapability : String := "ouf.managed-source.file.upload"

/-- `UploadStream`, with whether it has a reader. -/
structure UploadStream where
  readable : Bool
  size : Int
  sha256 : GoString
  fileId : GoString

/-- What the checks of uploads read of an invocation and of its gateway request. -/
structure Invocation where
  capabilityId : String
  arguments : ByteArray
  upload : Option UploadStream
  delegation : String

/-! ## The arguments -/

section Arguments

variable {ν : Type} {numerals : Numerals ν}

/-- A `map[string]string`. -/
abbrev Texts := Finmap fun _ : String => String

/-- One member decoded into a map of strings; `null` leaves the empty string. -/
def storeMember (texts : Texts) (member : String × Json.Value String ν) : Option Texts :=
  match member.2 with
  | .str text => some (texts.insert member.1 text)
  | .null => some (texts.insert member.1 "")
  | _ => none

/-- `json.Unmarshal` into a `map[string]string`. -/
def unmarshalTexts (reader : Reader numerals) (raw : ByteArray) : Option Texts := do
  let document ← reader.read raw
  let members ← document.members?
  members.foldlM storeMember ∅

/-- `args["handoffId"]` -/
def handoffId (texts : Texts) : GoString := goString ((texts.lookup "handoffId").getD "")

def exactHandoff (reader : Reader numerals) (check : GoString → Bool) (raw : ByteArray) : Bool :=
  match unmarshalTexts reader raw with
  | none => false
  | some texts => decide (texts.keys.card = 1) && check (handoffId texts)

end Arguments

/-! ## The patterns of the client -/

/-- The pattern `^[0-9a-f]{8}-[0-9a-f]{4}-[1-8][0-9a-f]{3}-[89ab][0-9a-f]{3}-[0-9a-f]{12}$`. -/
def uploadHandoff : List ByteClass :=
  List.replicate 8 lowerHex ++ [single '-'] ++ List.replicate 4 lowerHex ++ [single '-'] ++
    [span '1' '8'] ++ List.replicate 3 lowerHex ++ [single '-'] ++
    [either (span '8' '9') (span 'a' 'b')] ++ List.replicate 3 lowerHex ++ [single '-'] ++
    List.replicate 12 lowerHex

/-- The pattern `^sha256:[0-9a-f]{64}$`. -/
def uploadHash : List ByteClass := "sha256:".toList.map single ++ List.replicate 64 lowerHex

/-- `[A-Za-z0-9_-]` -/
def fileLetter : ByteClass :=
  either (either (span 'A' 'Z') (span 'a' 'z'))
    (either (span '0' '9') (either (single '_') (single '-')))

/-- The pattern `^file_[A-Za-z0-9_-]{1,128}$`. -/
def uploadID (text : GoString) : Bool :=
  (List.range 128).any fun more =>
    full ("file_".toList.map single ++ List.replicate (more + 1) fileLetter) text

/-! ## The call -/

section Call

variable {ν : Type} {numerals : Numerals ν}

/-- What a call does that does not look at uploads. -/
structure Service where
  /-- The budget window, the identity and the delegation. -/
  admissible : Invocation → Except CallError Unit
  /-- The authorization and the fingerprint. -/
  authorize : Invocation → Except CallError Unit
  /-- The attempt of a reservation, and whether it is a replay. -/
  reserve : Invocation → Except CallError (UUID × Bool)
  dispatch : UUID → Except CallError Unit
  /-- The exchange with the gateway. -/
  exchange : Invocation → Reply
  maximum : Cost
  backendRequestId : String
  ports : Ports

/-- The invocation is a handoff: an upload without a stream. -/
def Invocation.handoff (invocation : Invocation) : Bool :=
  decide (invocation.capabilityId = uploadCapability) && invocation.upload.isNone

def uploadLimit : Int := 10 * 1024 * 1024

/-- A stream belongs to the upload capability, has a reader and a size within bounds. -/
def Invocation.streamed (invocation : Invocation) : Bool :=
  match invocation.upload with
  | none => true
  | some upload => decide (invocation.capabilityId = uploadCapability) && upload.readable &&
      decide (1 ≤ upload.size ∧ upload.size ≤ uploadLimit)

variable (package : Package) (reader : Reader numerals) (service : Service)

/-- `Service.Call` up to the dispatch of the attempt. -/
def admitted (invocation : Invocation) : Except CallError (UUID × Bool) := do
  service.admissible invocation
  ensure (invocation.streamed = true) (.port "invalid governed upload")
  ensure (invocation.handoff = true →
    exactHandoff reader package.validate invocation.arguments = true)
    (.port "invalid managed upload handoff")
  service.authorize invocation
  let (id, replay) ← service.reserve invocation
  if replay then return (id, true)
  service.dispatch id
  return (id, false)

def rejectsHandoff (invocation : Invocation) : Bool :=
  invocation.handoff && !exactHandoff reader (full uploadHandoff) invocation.arguments

def rejectsStream (invocation : Invocation) : Bool :=
  match invocation.upload with
  | none => false
  | some upload => decide (invocation.capabilityId ≠ uploadCapability) ||
      decide (upload.size < 1 ∨ upload.size > uploadLimit) || !uploadID upload.fileId ||
      !full uploadHash upload.sha256 || decide (invocation.delegation = "")

def failure (message : String) : Reply := ⟨⟨0, none, "", none⟩, some (.port message)⟩

/-- `GatewayClient.Execute` -/
def execute (invocation : Invocation) : Reply :=
  if rejectsHandoff reader invocation = true then
    failure "managed upload requires a verified stream or exact handoff"
  else if rejectsStream invocation = true then failure "invalid governed upload"
  else service.exchange invocation

def setting (invocation : Invocation) : Setting :=
  ⟨invocation.capabilityId, service.maximum, service.backendRequestId,
    admitted package reader service invocation, service.ports⟩

/-- `Service.Call` with the client as its gateway. -/
def call (invocation : Invocation) : Except CallError Result :=
  StatusView.call reader (setting package reader service invocation)
    (execute reader service invocation)

variable (numerals) in
/-- The handler of `source.file.upload.status`: the arguments it invokes the upload with, or
the code of its error. -/
def uploadStatus (human : Bool) (input : Finmap fun _ : String => Json.Value String ν) :
    Except String ByteArray :=
  if human = false then .error "UNAUTHENTICATED"
  else match input.lookup "handoffId" with
    | some (.str value) =>
      if package.validate (goString value) = false then .error "HANDOFF_ID_INVALID"
      else .ok (marshal numerals (.obj [("handoffId", .str value)]))
    | _ => .error "HANDOFF_ID_INVALID"

def statusInvocation (delegation : String) (arguments : ByteArray) : Invocation :=
  ⟨uploadCapability, arguments, none, delegation⟩

end Call

/-! ## Where the checks differ -/

/-- The text of an identifier as the picker hands it out: hyphenated, without upper-case
letters, of a numbered version and of the RFC variant. -/
structure Issued (id : GoString) : Prop where
  length : id.length = 36
  lower : ∀ byte ∈ id, span 'A' 'Z' byte = false
  version : ∀ byte ∈ id[14]?, span '1' '8' byte = true
  variant : ∀ byte ∈ id[19]?, either (span '8' '9') (span 'a' 'b') byte = true

/-- What the client's pattern asks of a hyphenated UUID, place by place. -/
def asked (index : Nat) (byte : Fin 256) : Bool :=
  !span 'A' 'Z' byte && (!decide (index = 14) || span '1' '8' byte) &&
    (!decide (index = 19) || either (span '8' '9') (span 'a' 'b') byte)

theorem uploadHandoff_narrows : ∀ index < 36, ∀ byte : Fin 256,
    (uploadHandoff.getD index fun _ => false) byte =
      (((grouped hexadecimal).getD index fun _ => false) byte && asked index byte) := by
  decide +kernel

theorem full_uploadHandoff {text : GoString} (hyphenated : full (grouped hexadecimal) text = true) :
    full uploadHandoff text = true ↔ ∀ index byte, text[index]? = some byte →
      asked index byte = true :=
  @full_narrow (grouped hexadecimal) uploadHandoff asked (by decide)
    (fun index byte bound => uploadHandoff_narrows index bound byte) text hyphenated

theorem forall_asked_iff {id : GoString} (length : id.length = 36) :
    (∀ index byte, id[index]? = some byte → asked index byte = true) ↔ Issued id := by
  simp only [asked, Bool.and_eq_true, Bool.or_eq_true, Bool.not_eq_true', decide_eq_false_iff_not]
  constructor
  · intro all
    refine ⟨length, ?_, ?_, ?_⟩
    · intro byte member
      obtain ⟨index, there⟩ := List.mem_iff_getElem?.mp member
      exact (all index byte there).1.1
    · intro byte there
      exact (all 14 byte there).1.2.resolve_left (by simp)
    · intro byte there
      exact (all 19 byte there).2.resolve_left (by simp)
  · intro issued index byte there
    refine ⟨⟨issued.lower byte (List.mem_of_getElem? there), ?_⟩, ?_⟩
    · by_cases place : index = 14
      · exact .inr (issued.version byte (place ▸ there))
      · exact .inl place
    · by_cases place : index = 19
      · exact .inr (issued.variant byte (place ▸ there))
      · exact .inl place

/-- Of the texts the package accepts, the client accepts those that look issued. -/
theorem uploadHandoff_iff (package : Package) {text : GoString}
    (valid : package.validate text = true) : full uploadHandoff text = true ↔ Issued text := by
  constructor
  · intro whole
    have length : text.length = 36 := length_of_full whole
    exact (forall_asked_iff length).mp
      ((full_uploadHandoff (package.grouped_of_length valid length)).mp whole)
  · intro issued
    exact (full_uploadHandoff (package.grouped_of_length valid issued.length)).mpr
      ((forall_asked_iff issued.length).mpr issued)

section Checks

variable {ν : Type} {numerals : Numerals ν} {reader : Reader numerals}

theorem exactHandoff_iff {check : GoString → Bool} {raw : ByteArray} {texts : Texts}
    (read : unmarshalTexts reader raw = some texts) :
    exactHandoff reader check raw = true ↔
      texts.keys.card = 1 ∧ check (handoffId texts) = true := by
  rw [exactHandoff, read, Bool.and_eq_true, decide_eq_true_iff]

theorem exists_texts {check : GoString → Bool} {raw : ByteArray}
    (exact : exactHandoff reader check raw = true) :
    ∃ texts, unmarshalTexts reader raw = some texts := by
  cases read : unmarshalTexts reader raw with
  | some texts => exact ⟨texts, rfl⟩
  | none =>
    rw [exactHandoff, read] at exact
    cases exact

/-- The client refuses no other documents than those whose handoff does not look issued. -/
theorem rejectsHandoff_iff (package : Package) {invocation : Invocation} {texts : Texts}
    (handoff : invocation.handoff = true)
    (read : unmarshalTexts reader invocation.arguments = some texts)
    (accepted : exactHandoff reader package.validate invocation.arguments = true) :
    rejectsHandoff reader invocation = false ↔ Issued (handoffId texts) := by
  obtain ⟨one, valid⟩ := (exactHandoff_iff read).mp accepted
  rw [rejectsHandoff, handoff, Bool.true_and, Bool.not_eq_false', exactHandoff_iff read,
    uploadHandoff_iff package valid]
  exact and_iff_right one

theorem exactHandoff_of_admitted {package : Package} {service : Service}
    {invocation : Invocation} {result : UUID × Bool} (handoff : invocation.handoff = true)
    (done : admitted package reader service invocation = .ok result) :
    exactHandoff reader package.validate invocation.arguments = true := by
  simp only [admitted, bind_eq_ok, ensure_eq_ok] at done
  obtain ⟨_, -, _, -, _, accepted, -⟩ := done
  exact accepted handoff

theorem unmarshalTexts_status (value : String) :
    unmarshalTexts reader (marshal numerals (.obj [("handoffId", .str value)])) =
      some (Finmap.singleton "handoffId" value) := by
  rw [unmarshalTexts, reader.read_marshal _
    (by simp [Json.Value.depth, Json.membersDepth, Json.maxNestingDepth])]
  rfl

theorem handoff_status (delegation : String) (arguments : ByteArray) :
    (statusInvocation delegation arguments).handoff = true := by
  simp [Invocation.handoff, statusInvocation]

theorem handoffId_status (value : String) :
    handoffId (Finmap.singleton "handoffId" value) = goString value := by
  rw [handoffId, Finmap.lookup_singleton_eq, Option.getD_some]

theorem uploadStatus_eq_ok {package : Package} {human : Bool}
    {input : Finmap fun _ : String => Json.Value String ν} {arguments : ByteArray}
    (accepted : uploadStatus numerals package human input = .ok arguments) :
    ∃ value, input.lookup "handoffId" = some (.str value) ∧
      package.validate (goString value) = true ∧
      arguments = marshal numerals (.obj [("handoffId", .str value)]) := by
  unfold uploadStatus at accepted
  split at accepted
  next => cases accepted
  next =>
    split at accepted
    next value found =>
      split at accepted
      next => cases accepted
      next valid =>
        obtain rfl := Except.ok.inj accepted
        exact ⟨value, found, Bool.not_eq_false _ ▸ valid, rfl⟩
    next => cases accepted

/-- Whatever document the status tool or `Service.Call` lets through to the dispatch, the client
goes on with it exactly when its handoff looks issued; so do the two checks of a text agree. -/
theorem handoff_executed_iff (package : Package) (reader : Reader numerals) (service : Service) :
    (∀ invocation id, invocation.handoff = true →
      admitted package reader service invocation = .ok (id, false) →
      ∃ texts, unmarshalTexts reader invocation.arguments = some texts ∧
        (rejectsHandoff reader invocation = false ↔ Issued (handoffId texts))) ∧
    (∀ human input arguments delegation,
      uploadStatus numerals package human input = .ok arguments →
      exactHandoff reader package.validate arguments = true ∧
      ∃ value, input.lookup "handoffId" = some (.str value) ∧
        (rejectsHandoff reader (statusInvocation delegation arguments) = false ↔
          Issued (goString value))) ∧
    ∀ text, package.validate text = true → (full uploadHandoff text = true ↔ Issued text) := by
  refine ⟨?_, ?_, fun text => uploadHandoff_iff package⟩
  · intro invocation id handoff done
    have accepted := exactHandoff_of_admitted handoff done
    obtain ⟨texts, read⟩ := exists_texts accepted
    exact ⟨texts, read, rejectsHandoff_iff package handoff read accepted⟩
  · intro human input arguments delegation done
    obtain ⟨value, found, valid, same⟩ := uploadStatus_eq_ok done
    have read : unmarshalTexts reader arguments = some (Finmap.singleton "handoffId" value) := by
      rw [same, unmarshalTexts_status]
    have accepted : exactHandoff reader package.validate arguments = true := by
      rw [exactHandoff_iff read, handoffId_status]
      exact ⟨rfl, valid⟩
    refine ⟨accepted, value, found, ?_⟩
    rw [← handoffId_status value]
    exact rejectsHandoff_iff package (handoff_status delegation arguments) read accepted

end Checks

theorem rewriting_failure {ν : Type} {numerals : Numerals ν} {reader : Reader numerals}
    {setting : Setting} (undisclosed : setting.publicStatus = false)
    (limit : 0 ≤ setting.maximum.resultBytes) (message : String) :
    (StatusView.rewriting reader setting (failure message)).outcome.code = "UPSTREAM_ERROR" := by
  simp [StatusView.rewriting, StatusView.limiting, StatusView.judging, StatusView.sanitizing,
    StatusView.projecting, StatusView.received, undisclosed, failure, StatusView.size,
    not_lt.mpr limit]

/-! ## A handoff in upper case -/

def openService : Service where
  admissible _ := .ok ()
  authorize _ := .ok ()
  reserve _ := .ok (1, false)
  dispatch _ := .ok ()
  exchange _ := ⟨⟨200, none, "", none⟩, none⟩
  maximum := ⟨1, 1, 4096⟩
  backendRequestId := "request"
  ports := ⟨fun _ _ _ => none, none⟩

def handoffInput (value : String) : Finmap fun _ : String => Json.Value String Int :=
  Finmap.singleton "handoffId" (.str value)

def handoffArguments (value : String) : ByteArray :=
  marshal Json.integers (.obj [("handoffId", .str value)])

def lowerCase : String := "6ba7b810-9dad-41d1-80b4-00c04fd430c8"

def upperCase : String := "6BA7B810-9DAD-41D1-80B4-00C04FD430C8"

theorem uploadStatus_handoffInput {value : String}
    (valid : Package.trying.validate (goString value) = true) :
    uploadStatus Json.integers .trying true (handoffInput value) =
      .ok (handoffArguments value) := by
  rw [uploadStatus, handoffInput, Finmap.lookup_singleton_eq, if_neg (by simp)]
  simp only [valid, Bool.true_eq_false, if_false]
  rfl

theorem handoff_executed_iff_lowerCase :
    uploadStatus Json.integers .trying true (handoffInput lowerCase) =
        .ok (handoffArguments lowerCase) ∧
      rejectsHandoff (Json.strictReader Json.integers)
        (statusInvocation "delegation" (handoffArguments lowerCase)) = false := by
  have accepted := @uploadStatus_handoffInput lowerCase (by decide +kernel)
  refine ⟨accepted, ?_⟩
  obtain ⟨-, status, -⟩ :=
    handoff_executed_iff .trying (Json.strictReader Json.integers) openService
  obtain ⟨-, value, found, agrees⟩ := status true _ _ "delegation" accepted
  rw [handoffInput, Finmap.lookup_singleton_eq] at found
  obtain rfl := Json.Value.str.inj (Option.some.inj found)
  refine agrees.mpr ⟨?_, ?_, ?_, ?_⟩ <;> decide +kernel

/-- The status tool and the service accept the same identifier in upper case, a call and its
bytes are reserved and dispatched, and the client refuses it; the attempt is settled as a
failure of the gateway. -/
theorem upperCase_refused :
    uploadStatus Json.integers .trying true (handoffInput upperCase) =
        .ok (handoffArguments upperCase) ∧
      admitted .trying (Json.strictReader Json.integers) openService
        (statusInvocation "delegation" (handoffArguments upperCase)) = .ok (1, false) ∧
      rejectsHandoff (Json.strictReader Json.integers)
        (statusInvocation "delegation" (handoffArguments upperCase)) = true ∧
      (StatusView.rewriting (Json.strictReader Json.integers)
        (setting .trying (Json.strictReader Json.integers) openService
          (statusInvocation "delegation" (handoffArguments upperCase)))
        (execute (Json.strictReader Json.integers) openService
          (statusInvocation "delegation" (handoffArguments upperCase)))).outcome.code =
        "UPSTREAM_ERROR" := by
  generalize arguments : handoffArguments upperCase = raw
  have read : unmarshalTexts (Json.strictReader Json.integers) raw =
      some (Finmap.singleton "handoffId" upperCase) := by
    rw [← arguments, handoffArguments, unmarshalTexts_status]
  have handoff := handoff_status "delegation" raw
  have accepted : exactHandoff (Json.strictReader Json.integers) Package.trying.validate raw =
      true := by
    rw [exactHandoff_iff read, handoffId_status]
    exact ⟨rfl, by decide +kernel⟩
  have refused : exactHandoff (Json.strictReader Json.integers) (full uploadHandoff) raw =
      false := by
    rw [← Bool.not_eq_true, exactHandoff_iff read, handoffId_status]
    exact fun both => absurd both.2 (by decide +kernel)
  have rejected : rejectsHandoff (Json.strictReader Json.integers)
      (statusInvocation "delegation" raw) = true := by
    rw [rejectsHandoff, handoff, Bool.true_and, Bool.not_eq_true']
    exact refused
  refine ⟨?_, ?_, rejected, ?_⟩
  · rw [← arguments]
    exact uploadStatus_handoffInput (by decide +kernel)
  · have passes : (statusInvocation "delegation" raw).handoff = true →
        exactHandoff (Json.strictReader Json.integers) Package.trying.validate
          (statusInvocation "delegation" raw).arguments = true := fun _ => accepted
    have streamed : (statusInvocation "delegation" raw).streamed = true := rfl
    rw [admitted, ensure, if_pos streamed, ensure, if_pos passes]
    rfl
  · have other : uploadCapability ≠ Ledger.publicStatusCapability := by decide
    have undisclosed : (setting .trying (Json.strictReader Json.integers) openService
        (statusInvocation "delegation" raw)).publicStatus = false := decide_eq_false other
    rw [execute, if_pos rejected]
    exact rewriting_failure undisclosed (show (0 : Int) ≤ 4096 by decide) _

end OufMcp.HostFiles
