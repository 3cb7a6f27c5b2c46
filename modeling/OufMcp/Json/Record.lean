import Mathlib.Data.List.Nodup
import OufMcp.Json.Decode

/-!
# Records with one reading

A struct is described by its fields: their names, what they hold and how a value is
stored.  Names are compared exactly where a document is checked for repeated members,
but without regard to letter case where members are decoded.  The two agree about a
record exactly when every member that reaches a field under another spelling is alone
there and holds nothing.
-/

namespace OufMcp.Json

variable {ν β : Type}

/-! ## Unique names -/

mutual

def Value.unique : Value String ν → Bool
  | .null | .bool _ | .num _ | .str _ => true
  | .arr items => uniqueItems items
  | .obj members => decide (members.map Prod.fst).Nodup && uniqueMembers members

def uniqueItems : List (Value String ν) → Bool
  | [] => true
  | item :: rest => item.unique && uniqueItems rest

def uniqueMembers : List (String × Value String ν) → Bool
  | [] => true
  | (_, value) :: rest => value.unique && uniqueMembers rest

end

theorem uniqueMembers_eq_true {members : Members ν} :
    uniqueMembers members = true ↔ ∀ member ∈ members, member.2.unique = true := by
  induction members with
  | nil => simp [uniqueMembers]
  | cons member rest ih =>
    rw [uniqueMembers, Bool.and_eq_true, ih, List.forall_mem_cons]

theorem unique_obj {members : Members ν} :
    (Value.obj members).unique = true ↔
      (members.map Prod.fst).Nodup ∧ ∀ member ∈ members, member.2.unique = true := by
  rw [Value.unique, Bool.and_eq_true, decide_eq_true_iff, uniqueMembers_eq_true]

/-! ## One field -/

/-- What the member of exactly this name stores. -/
def exactField (field : String) (store : Value String ν → β → Option β) (zero : β)
    (members : Members ν) : Option β :=
  match members.find? fun member => decide (member.1 = field) with
  | none => some zero
  | some member => store member.2 zero

/-- At most one member reaches the field, which has the value of the member of its name. -/
structure ReadsExactly (fields : List String) (field : String)
    (store : Value String ν → β → Option β) (zero : β) (members : Members ν) (value : β) :
    Prop where
  single : (into fields field members).length ≤ 1
  exact : exactField field store zero members = some value

/-- A member that reaches the field under another spelling is alone and holds nothing. -/
def Spelled (fields : List String) (field : String) (store : Value String ν → β → Option β)
    (zero : β) (members : Members ν) : Prop :=
  ∀ member ∈ into fields field members, member.1 ≠ field →
    into fields field members = [member] ∧ store member.2 zero = some zero

section Field

variable {fields : List String} {field : String} {store : Value String ν → β → Option β}
  {zero value : β} {members : Members ν}

theorem mem_into_of_exact (known : field ∈ fields) {member : String × Value String ν}
    (among : member ∈ members) (named : member.1 = field) : member ∈ into fields field members := by
  refine List.mem_filter.mpr ⟨among, decide_eq_true ?_⟩
  rw [named, target, if_pos known]

theorem exactField_of_absent (absent : ∀ member ∈ members, member.1 ≠ field) :
    exactField field store zero members = some zero := by
  have none : members.find? (fun member => decide (member.1 = field)) = none := by
    refine List.find?_eq_none.mpr ?_
    intro member among
    exact mt of_decide_eq_true (absent member among)
  rw [exactField, none]

theorem exactField_of_mem (distinct : (members.map Prod.fst).Nodup)
    {member : String × Value String ν} (among : member ∈ members) (named : member.1 = field) :
    exactField field store zero members = store member.2 zero := by
  have found : members.find? (fun member => decide (member.1 = field)) = some member := by
    cases search : members.find? (fun member => decide (member.1 = field)) with
    | none => exact absurd (decide_eq_true named) (List.find?_eq_none.mp search member among)
    | some other =>
      have here := List.find?_some search
      have same : other.1 = field := of_decide_eq_true here
      rw [List.inj_on_of_nodup_map distinct (List.mem_of_find?_eq_some search) among
        (same.trans named.symm)]
  rw [exactField, found]

theorem eq_singleton_of_forall_eq {α : Type} {l : List α} {a : α} (once : l.Nodup)
    (member : a ∈ l) (only : ∀ b ∈ l, b = a) : l = [a] := by
  cases l with
  | nil => cases member
  | cons first rest =>
    obtain rfl := only first List.mem_cons_self
    have none : rest = [] := by
      refine List.eq_nil_iff_forall_not_mem.mpr ?_
      intro b later
      have same := only b (List.mem_cons_of_mem _ later)
      exact (List.nodup_cons.mp once).1 (same ▸ later)
    rw [none]

theorem fillField_single {member : String × Value String ν}
    (alone : into fields field members = [member]) :
    fillField fields field store zero members = store member.2 zero := by
  rw [fillField, alone]
  simp

/-- Both readings of a field agree exactly when its members are spelled well enough. -/
theorem readsExactly_iff_spelled (known : field ∈ fields)
    (distinct : (members.map Prod.fst).Nodup)
    (filled : fillField fields field store zero members = some value) :
    ReadsExactly fields field store zero members value ↔
      Spelled fields field store zero members := by
  constructor
  · rintro ⟨single, exact⟩ member reaches other
    have alone : into fields field members = [member] := by
      obtain ⟨only, same⟩ := List.length_eq_one_iff.mp
        (Nat.le_antisymm single (List.length_pos_of_mem reaches))
      rw [same] at reaches ⊢
      rw [List.mem_singleton.mp reaches]
    have absent : ∀ found ∈ members, found.1 ≠ field := by
      intro found among named
      have here := mem_into_of_exact known among named
      rw [alone, List.mem_singleton] at here
      exact other (here ▸ named)
    rw [exactField_of_absent absent] at exact
    rw [fillField_single alone, ← exact] at filled
    exact ⟨alone, filled⟩
  · intro spelled
    by_cases named : ∃ member ∈ members, member.1 = field
    · obtain ⟨member, among, named⟩ := named
      have here := mem_into_of_exact known among named
      -- Any other member would have another name, and then be alone.
      have alone : into fields field members = [member] := by
        have only : ∀ other ∈ into fields field members, other = member := by
          intro other reaches
          by_cases same : other.1 = field
          · exact List.inj_on_of_nodup_map distinct (List.mem_of_mem_filter reaches) among
              (same.trans named.symm)
          · have alone := (spelled other reaches same).1
            rw [alone, List.mem_singleton] at here
            exact here.symm
        have once : (into fields field members).Nodup :=
          (List.Nodup.of_map _ distinct).filter _
        exact eq_singleton_of_forall_eq once here only
      refine ⟨Nat.le_of_eq (congrArg List.length alone), ?_⟩
      rw [exactField_of_mem distinct among named, ← filled, fillField_single alone]
    · have absent : ∀ member ∈ members, member.1 ≠ field :=
        fun member among same => named ⟨member, among, same⟩
      cases reaching : into fields field members with
      | nil =>
        have empty : value = zero := by
          rw [fillField, reaching] at filled
          exact (Option.some.inj filled).symm
        exact ⟨by rw [reaching]; exact Nat.zero_le 1, empty ▸ exactField_of_absent absent⟩
      | cons member rest =>
        have reaches : member ∈ into fields field members := by
          rw [reaching]
          exact List.mem_cons_self
        obtain ⟨alone, nothing⟩ :=
          spelled member reaches (absent member (List.mem_of_mem_filter reaches))
        have empty : value = zero := by
          rw [fillField_single alone, nothing] at filled
          exact (Option.some.inj filled).symm
        exact ⟨Nat.le_of_eq (congrArg List.length alone), empty ▸ exactField_of_absent absent⟩

end Field

/-! ## Records -/

/-- The fields of a struct, in the order in which they are declared. -/
structure Layout (ν : Type) where
  Field : Type
  fields : List Field
  complete : ∀ field, field ∈ fields
  name : Field → String
  Holds : Field → Type
  zero : (field : Field) → Holds field
  store : (field : Field) → Value String ν → Holds field → Option (Holds field)

namespace Layout

variable (layout : Layout ν)

def Record : Type := (field : layout.Field) → layout.Holds field

def names : List String := layout.fields.map layout.name

def fill (old : layout.Record) (members : Members ν) (field : layout.Field) :
    Option (layout.Holds field) :=
  fillField layout.names (layout.name field) (layout.store field) (old field) members

/-- Decode the members of an object into a struct; one value of a wrong type spoils it. -/
def decode (old : layout.Record) (members : Members ν) : Option layout.Record :=
  if filled : ∀ field ∈ layout.fields, (layout.fill old members field).isSome = true then
    some fun field => (layout.fill old members field).get (filled field (layout.complete field))
  else none

theorem decode_eq_some {old record : layout.Record} {members : Members ν} :
    layout.decode old members = some record ↔
      ∀ field, layout.fill old members field = some (record field) := by
  unfold decode
  constructor
  · intro decoded field
    split at decoded
    next filled =>
      obtain rfl := Option.some.inj decoded
      exact (Option.some_get _).symm
    next => cases decoded
  · intro filled
    rw [dif_pos fun field _ => by rw [filled field]; rfl]
    congr 1
    funext field
    simp only [filled field, Option.get_some]

theorem name_mem (field : layout.Field) : layout.name field ∈ layout.names :=
  List.mem_map_of_mem (layout.complete field)

/-- Every field has the value of the member of its name, and no second member reaches it. -/
def OneReading (members : Members ν) (record : layout.Record) : Prop :=
  ∀ field, ReadsExactly layout.names (layout.name field) (layout.store field) (layout.zero field)
    members (record field)

def WellSpelled (members : Members ν) : Prop :=
  ∀ field, Spelled layout.names (layout.name field) (layout.store field) (layout.zero field) members

theorem oneReading_iff_wellSpelled {members : Members ν} {record : layout.Record}
    (distinct : (members.map Prod.fst).Nodup)
    (decoded : layout.decode layout.zero members = some record) :
    layout.OneReading members record ↔ layout.WellSpelled members :=
  forall_congr' fun field => readsExactly_iff_spelled (layout.name_mem field) distinct
    (layout.decode_eq_some.mp decoded field)

end Layout

end OufMcp.Json
