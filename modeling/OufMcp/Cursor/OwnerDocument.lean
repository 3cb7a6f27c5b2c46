import OufMcp.Cursor.StoreRun
import OufMcp.Json.Canonical
import OufMcp.Json.Record

/-!
# Owner pages as documents

How the body of an owner reply becomes the page that is checked.  `encoding/json`
matches the members of the envelope without regard to letter case, while the check for
repeated members compares names exactly.  A page has one reading exactly when no member
reaches a field under another spelling with something in it.
-/

namespace OufMcp.Cursor

open Ledger (Time)
open Relational
open Json (Members Numerals Layout marshal storeText storeFlag storeFlagPointer)

variable {ν : Type}

/-! ## Items -/

/-- A value of an incident, as far as the composers tell values apart. -/
def itemValue (numerals : Numerals ν) : Json.Value String ν → Value
  | .str s => .text s
  | .bool b => .flag b
  | value => .other (String.ofList (Json.render Json.text numerals value.canonical))

/-- Into a `map[string]any`; members are added to a map that is there. -/
def storeItem (numerals : Numerals ν) :
    Json.Value String ν → Option Item → Option (Option Item)
  | .null, _ => some none
  | .obj members, old =>
    some (some (members.foldl (fun (item : Item) (member : String × Json.Value String ν) =>
      item.insert member.1 (itemValue numerals member.2)) (old.getD ∅)))
  | _, _ => none

/-- A slice of maps, with what is left of the array behind it. -/
structure ItemSlice where
  items : Option (List (Option Item))
  spare : List (Option Item)

def ItemSlice.zero : ItemSlice := ⟨none, []⟩

/-- The elements of an array, each stored into what the slice has at its place. -/
def storeElements (numerals : Numerals ν) :
    List (Json.Value String ν) → List (Option Item) → Option (List (Option Item))
  | [], _ => some []
  | value :: rest, old => do
      let item ← storeItem numerals value old.head?.join
      let items ← storeElements numerals rest old.tail
      pure (item :: items)

/-- Into a `[]map[string]any`.  An array is stored over the elements of the slice and those behind
it; an empty one leaves nothing behind. -/
def storeItems (numerals : Numerals ν) : Json.Value String ν → ItemSlice → Option ItemSlice
  | .null, _ => some .zero
  | .arr [], _ => some ⟨some [], []⟩
  | .arr values, old => do
      let backing := old.items.getD [] ++ old.spare
      let items ← storeElements numerals values backing
      pure ⟨some items, backing.drop items.length⟩
  | _, _ => none

/-! ## The envelope -/

inductive CoverageField where
  | parentBookmark
  | noPublicationProgress
  deriving DecidableEq, Repr

def coverageLayout (ν : Type) : Layout ν where
  Field := CoverageField
  fields := [.parentBookmark, .noPublicationProgress]
  complete field := by cases field <;> decide
  name
    | .parentBookmark => "parentBookmark"
    | .noPublicationProgress => "noPublicationProgress"
  Holds
    | .parentBookmark => String
    | .noPublicationProgress => Option Bool
  zero
    | .parentBookmark => ""
    | .noPublicationProgress => none
  store
    | .parentBookmark => storeText
    | .noPublicationProgress => storeFlagPointer

def storeCoverage (value : Json.Value String ν) (old : (coverageLayout ν).Record) :
    Option (coverageLayout ν).Record :=
  value.members?.bind ((coverageLayout ν).decode old)

def storeTime (unmarshalTime : String → Option Time) : Json.Value String ν → Time → Option Time
  | .null, old => some old
  | .str s, _ => unmarshalTime s
  | _, _ => none

inductive PageField where
  | items
  | partialResult
  | truncated
  | cursor
  | nextCursor
  | snapshotRef
  | itemsDigest
  | expiresAt
  | snapshotExpiresAt
  | priorityProfile
  | cursorProfile
  | consultationRecorded
  | bookmarkProfile
  | publicationBookmark
  | coverage
  deriving DecidableEq, Repr

section Envelope

variable (numerals : Numerals ν) (unmarshalTime : String → Option Time)

/-- `cursorOwnerPage` -/
def pageLayout : Layout ν where
  Field := PageField
  fields := [.items, .partialResult, .truncated, .cursor, .nextCursor, .snapshotRef, .itemsDigest,
    .expiresAt, .snapshotExpiresAt, .priorityProfile, .cursorProfile, .consultationRecorded,
    .bookmarkProfile, .publicationBookmark, .coverage]
  complete field := by cases field <;> decide
  name
    | .items => "items"
    | .partialResult => "partial"
    | .truncated => "truncated"
    | .cursor => "cursor"
    | .nextCursor => "nextCursor"
    | .snapshotRef => "snapshotRef"
    | .itemsDigest => "itemsDigest"
    | .expiresAt => "expiresAt"
    | .snapshotExpiresAt => "snapshotExpiresAt"
    | .priorityProfile => "priorityProfile"
    | .cursorProfile => "cursorProfile"
    | .consultationRecorded => "consultationRecorded"
    | .bookmarkProfile => "bookmarkProfile"
    | .publicationBookmark => "publicationBookmark"
    | .coverage => "coverage"
  Holds
    | .items => ItemSlice
    | .partialResult => Option Bool
    | .truncated | .consultationRecorded => Bool
    | .expiresAt | .snapshotExpiresAt => Time
    | .coverage => (coverageLayout ν).Record
    | _ => String
  zero
    | .items => .zero
    | .partialResult => none
    | .truncated | .consultationRecorded => false
    | .expiresAt | .snapshotExpiresAt => zeroTime
    | .coverage => (coverageLayout ν).zero
    | .cursor | .nextCursor | .snapshotRef | .itemsDigest | .priorityProfile | .cursorProfile
    | .bookmarkProfile | .publicationBookmark => ""
  store
    | .items => storeItems numerals
    | .partialResult => storeFlagPointer
    | .truncated | .consultationRecorded => storeFlag
    | .expiresAt | .snapshotExpiresAt => storeTime unmarshalTime
    | .coverage => storeCoverage
    | .cursor | .nextCursor | .snapshotRef | .itemsDigest | .priorityProfile | .cursorProfile
    | .bookmarkProfile | .publicationBookmark => storeText

abbrev PageRecord := (pageLayout numerals unmarshalTime).Record

variable {numerals unmarshalTime} in
def PageRecord.body (page : PageRecord numerals unmarshalTime) (readable unique : Bool) :
    OwnerBody where
  readable := readable
  unique := unique
  items := ItemSlice.items (page .items)
  partialResult := page .partialResult
  truncated := page .truncated
  cursor := page .cursor
  nextCursor := page .nextCursor
  snapshotRef := page .snapshotRef
  itemsDigest := page .itemsDigest
  expiresAt := page .expiresAt
  snapshotExpiresAt := page .snapshotExpiresAt
  priorityProfile := page .priorityProfile
  cursorProfile := page .cursorProfile
  consultationRecorded := page .consultationRecorded
  bookmarkProfile := page .bookmarkProfile
  publicationBookmark := page .publicationBookmark
  parentBookmark := (page .coverage : (coverageLayout ν).Record) .parentBookmark
  noPublicationProgress := (page .coverage : (coverageLayout ν).Record) .noPublicationProgress

variable {numerals} (stream : Json.Stream numerals)

def readOwnerBody (bytes : ByteArray) : OwnerBody :=
  let blank := PageRecord.body (pageLayout numerals unmarshalTime).zero
  match stream.first bytes with
  | none => blank false false
  | some (document, whole) =>
    match document.members?.bind ((pageLayout numerals unmarshalTime).decode
        (pageLayout numerals unmarshalTime).zero) with
    | none => blank false false
    | some page =>
      PageRecord.body page (decide (bytes.size ≤ 512 * 1024)) (whole && document.unique)

end Envelope

/-! ## One reading -/

section Reading

variable {numerals : Numerals ν} {unmarshalTime : String → Option Time}

/-- The fields of a page and of its coverage have the values of the members of their names, and
no second member reaches one of them. -/
structure OneReading (members : Members ν) (page : PageRecord numerals unmarshalTime) : Prop where
  envelope : (pageLayout numerals unmarshalTime).OneReading members page
  coverage : ∀ member ∈ Json.into (pageLayout numerals unmarshalTime).names "coverage" members,
    ∀ inner, member.2 = .obj inner → (coverageLayout ν).OneReading inner (page .coverage)

variable (numerals unmarshalTime) in
/-- What reaches a field under another spelling is alone and holds nothing. -/
structure WellSpelled (members : Members ν) : Prop where
  envelope : (pageLayout numerals unmarshalTime).WellSpelled members
  coverage : ∀ member ∈ Json.into (pageLayout numerals unmarshalTime).names "coverage" members,
    ∀ inner, member.2 = .obj inner → (coverageLayout ν).WellSpelled inner

theorem oneReading_iff {members : Members ν} {page : PageRecord numerals unmarshalTime}
    (unique : (Json.Value.obj members).unique = true)
    (decoded : (pageLayout numerals unmarshalTime).decode
      (pageLayout numerals unmarshalTime).zero members = some page) :
    OneReading members page ↔ WellSpelled numerals unmarshalTime members := by
  obtain ⟨distinct, below⟩ := Json.unique_obj.mp unique
  have envelope := (pageLayout numerals unmarshalTime).oneReading_iff_wellSpelled distinct decoded
  -- With one member for the coverage, the coverage of the page is what that member holds.
  have inner : (pageLayout numerals unmarshalTime).OneReading members page →
      ∀ member ∈ Json.into (pageLayout numerals unmarshalTime).names "coverage" members,
      ∀ inner, member.2 = .obj inner →
        ((coverageLayout ν).OneReading inner (page .coverage) ↔
          (coverageLayout ν).WellSpelled inner) := by
    intro reading member reaches inner held
    have alone : Json.into (pageLayout numerals unmarshalTime).names "coverage" members =
        [member] := by
      obtain ⟨only, same⟩ := List.length_eq_one_iff.mp
        (Nat.le_antisymm (reading .coverage).single (List.length_pos_of_mem reaches))
      have same : Json.into (pageLayout numerals unmarshalTime).names "coverage" members =
        [only] := same
      rw [same] at reaches ⊢
      rw [List.mem_singleton.mp reaches]
    have filled := (pageLayout numerals unmarshalTime).decode_eq_some.mp decoded .coverage
    have stored : storeCoverage member.2 (coverageLayout ν).zero = some (page .coverage) :=
      (Json.fillField_single alone).symm.trans filled
    have names : (Json.Value.obj inner).unique = true :=
      held ▸ below member (List.mem_of_mem_filter reaches)
    rw [held] at stored
    exact (coverageLayout ν).oneReading_iff_wellSpelled (Json.unique_obj.mp names).1 stored
  constructor
  · rintro ⟨reading, covered⟩
    refine ⟨envelope.mp reading, ?_⟩
    intro member reaches held same
    exact (inner reading member reaches held same).mp (covered member reaches held same)
  · rintro ⟨spelled, covered⟩
    have reading := envelope.mpr spelled
    refine ⟨reading, ?_⟩
    intro member reaches held same
    exact (inner reading member reaches held same).mpr (covered member reaches held same)

theorem readOwnerBody_accepted {codec : Codec} {stream : Json.Stream numerals} {bytes : ByteArray}
    {now : Time} {name : Producer} {page : CursorOwnerPage codec}
    (accepted : decodeCursorOwnerPage codec now (readOwnerBody unmarshalTime stream bytes) name =
      .ok page) :
    ∃ members record, stream.first bytes = some (.obj members, true) ∧
      (Json.Value.obj members).unique = true ∧
      (pageLayout numerals unmarshalTime).decode (pageLayout numerals unmarshalTime).zero members =
        some record ∧
      page.toOwnerEnvelope = (PageRecord.body record true true).toOwnerEnvelope ∧
      ∃ entries, ItemSlice.items (record .items) = some entries ∧
        entries.mapM (decodeIncident name) = .ok page.items := by
  obtain ⟨readable, unique, envelope, -, entries, found, items⟩ :=
    decodeCursorOwnerPage_eq_ok accepted
  unfold readOwnerBody at readable unique envelope found
  cases first : stream.first bytes with
  | none =>
    rw [first] at readable
    cases readable
  | some read =>
    obtain ⟨document, whole⟩ := read
    simp only [first] at readable unique envelope found
    cases decoded : document.members?.bind ((pageLayout numerals unmarshalTime).decode
        (pageLayout numerals unmarshalTime).zero) with
    | none =>
      rw [decoded] at readable
      cases readable
    | some record =>
      simp only [decoded] at readable unique envelope found
      have whole : whole = true ∧ document.unique = true := Bool.and_eq_true_iff.mp unique
      obtain ⟨members, shape, filled⟩ := Option.bind_eq_some_iff.mp decoded
      cases document with
      | obj given =>
        obtain rfl := Option.some.inj shape
        exact ⟨given, record, by rw [whole.1], whole.2, filled, envelope, entries, found, items⟩
      | null =>
        -- Without members the items are missing.
        obtain rfl := Option.some.inj shape
        have untouched := (pageLayout numerals unmarshalTime).decode_eq_some.mp filled .items
        have empty : ItemSlice.zero = record .items := Option.some.inj untouched
        have missing : ItemSlice.items (record .items) = none := empty ▸ rfl
        rw [show ItemSlice.items (record .items) = some entries from found] at missing
        cases missing
      | _ => cases shape

theorem readOwnerBody_marshal (stream : Json.Stream numerals) {document : Json.Value String ν}
    {record : PageRecord numerals unmarshalTime}
    (small : (marshal numerals document).size ≤ 512 * 1024)
    (shallow : document.depth ≤ Json.maxNestingDepth)
    (decoded : document.members?.bind ((pageLayout numerals unmarshalTime).decode
      (pageLayout numerals unmarshalTime).zero) = some record) :
    readOwnerBody unmarshalTime stream (marshal numerals document) =
      PageRecord.body record true document.unique := by
  simp only [readOwnerBody, stream.first_marshal document shallow, decoded, decide_eq_true small,
    Bool.true_and]

end Reading

/-! ## Sample replies -/

/-- A reply with some items, and with the members that say whether more follows. -/
def sampleReply (items : List (Json.Value String Int)) (ending : Members Int) : Members Int :=
  [("items", .arr items), ("partial", .bool false), ("cursor", .str (sampleToken 1)),
    ("snapshotRef", .str (sampleToken 1)), ("itemsDigest", .str sampleDigest),
    ("expiresAt", .str "later"),
    ("priorityProfile", .str "ouf.incident-priority.v1"),
    ("cursorProfile", .str "ouf.incident-owner-cursor.v1")] ++ ending

def sampleTime : String → Option Time := fun _ => some 0

noncomputable def sampleStream : Json.Stream Json.integers :=
  (Json.strictReader Json.integers).stream

def samplePage? (members : Members Int) : Option (CursorOwnerPage sampleCodec) := do
  let record ← (pageLayout Json.integers sampleTime).decode
    (pageLayout Json.integers sampleTime).zero members
  (decodeCursorOwnerPage sampleCodec 0
    (PageRecord.body record true (Json.Value.obj members).unique) .gateway).toOption

theorem samplePage?_accepted {members : Members Int} {page : CursorOwnerPage sampleCodec}
    (small : (Json.render Json.text Json.integers (.obj members)).length ≤ 128 * 1024)
    (shallow : (Json.Value.obj members).depth ≤ Json.maxNestingDepth)
    (found : samplePage? members = some page) :
    decodeCursorOwnerPage sampleCodec 0
      (readOwnerBody sampleTime sampleStream (marshal Json.integers (.obj members))) .gateway =
        .ok page := by
  have size : (marshal Json.integers (.obj members)).size ≤ 512 * 1024 :=
    (Json.utf8_size_le _).trans (Nat.mul_le_mul_left 4 small)
  unfold samplePage? at found
  obtain ⟨record, decoded, accepted⟩ := Option.bind_eq_some_iff.mp found
  rw [readOwnerBody_marshal sampleStream size shallow decoded]
  cases outcome : decodeCursorOwnerPage sampleCodec 0
      (PageRecord.body record true (Json.Value.obj members).unique) .gateway with
  | error error =>
    rw [outcome] at accepted
    cases accepted
  | ok other =>
    rw [outcome] at accepted
    rw [Option.some.inj accepted]

/-! ## Accepted pages -/

/-- An accepted page has one reading exactly when its members are spelled as its fields are, or
hold nothing. -/
theorem ownerPage_oneReading_iff {codec : Codec} {ν : Type} {numerals : Numerals ν}
    (stream : Json.Stream numerals)
    (unmarshalTime : String → Option Time) {bytes : ByteArray} {now : Time} {name : Producer}
    {page : CursorOwnerPage codec}
    (accepted : decodeCursorOwnerPage codec now (readOwnerBody unmarshalTime stream bytes) name =
      .ok page) :
    ∃ members record, stream.first bytes = some (.obj members, true) ∧
      (pageLayout numerals unmarshalTime).decode (pageLayout numerals unmarshalTime).zero members =
        some record ∧
      page.toOwnerEnvelope = (PageRecord.body record true true).toOwnerEnvelope ∧
      (∃ entries, ItemSlice.items (record .items) = some entries ∧
        entries.mapM (decodeIncident name) = .ok page.items) ∧
      (OneReading members record ↔ WellSpelled numerals unmarshalTime members) := by
  obtain ⟨members, record, first, unique, decoded, envelope, items⟩ :=
    readOwnerBody_accepted accepted
  exact ⟨members, record, first, decoded, envelope, items, oneReading_iff unique decoded⟩

/-- Two incidents and a coverage, and no more pages by a member of another spelling. -/
def spelledReply : Members Int :=
  sampleReply
    [.obj [("incident_id", .str "a"), ("severity", .str "ERROR"), ("lifecycle_state", .str "OPEN"),
        ("action_required", .bool true)],
      .obj [("incident_id", .str "b"), ("severity", .str "INFO"), ("lifecycle_state", .str "OPEN"),
        ("action_required", .bool false)]]
    [("Truncated", .bool false),
      ("coverage", .obj [("parentBookmark", .str ""), ("noPublicationProgress", .bool true)])]

theorem ownerPage_oneReading_iff_spelledReply :
    ∃ members record, sampleStream.first (marshal Json.integers (.obj spelledReply)) =
        some (.obj members, true) ∧
      (pageLayout Json.integers sampleTime).decode (pageLayout Json.integers sampleTime).zero
        members = some record ∧
      (∃ entries items, ItemSlice.items (record .items) = some entries ∧
        entries.mapM (decodeIncident .gateway) = .ok items ∧ items.length = 2) ∧
      (OneReading members record ↔ WellSpelled Json.integers sampleTime members) := by
  have accepted : (samplePage? spelledReply).any
      (fun page : CursorOwnerPage sampleCodec => page.items.length = 2) = true := by
    decide +kernel
  obtain ⟨page, found, two⟩ := (Option.any_eq_true _ _).mp accepted
  obtain ⟨members, record, first, decoded, -, ⟨entries, held, kept⟩, agree⟩ :=
    ownerPage_oneReading_iff sampleStream sampleTime
      (samplePage?_accepted (by decide +kernel) (by decide) found)
  exact ⟨members, record, first, decoded, ⟨entries, page.items, held, kept, of_decide_eq_true two⟩,
    agree⟩

/-- More follows by the members of the exact names, and nothing by those that come later. -/
def overwrittenEnding : Members Int :=
  [("truncated", .bool true), ("nextCursor", .str (sampleToken 2)), ("Truncated", .bool false),
    ("NextCursor", .str "")]

/-- A reply that has a next page is accepted as the last one. -/
theorem ending_overwritten :
    ∃ page, decodeCursorOwnerPage sampleCodec 0 (readOwnerBody sampleTime sampleStream
        (marshal Json.integers (.obj (sampleReply [] overwrittenEnding)))) .gateway = .ok page ∧
      page.truncated = false ∧ page.nextCursor = "" ∧
      Json.exactField "truncated" storeFlag false (sampleReply [] overwrittenEnding) = some true ∧
      Json.exactField "nextCursor" storeText "" (sampleReply [] overwrittenEnding) =
        some (sampleToken 2) := by
  have accepted : (samplePage? (sampleReply [] overwrittenEnding)).any
      (fun page : CursorOwnerPage sampleCodec =>
        decide (page.truncated = false ∧ page.nextCursor = "")) = true := by
    decide +kernel
  obtain ⟨page, found, ends⟩ := (Option.any_eq_true _ _).mp accepted
  obtain ⟨last, none⟩ := of_decide_eq_true ends
  exact ⟨page, samplePage?_accepted (by decide +kernel) (by decide) found, last, none, rfl, rfl⟩

end OufMcp.Cursor
