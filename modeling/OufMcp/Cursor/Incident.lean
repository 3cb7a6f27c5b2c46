import Mathlib.Data.Finmap
import Mathlib.Data.Prod.Lex
import Mathlib.Data.String.Basic
import Mathlib.Order.BooleanAlgebra.Basic
import OufMcp.Ledger.Schema

/-!
# Incidents and their priority

Incident objects are finite maps from member names to JSON values, compared the
way `incidentBefore` compares them.  Only texts, flags and whole numbers are told
apart; any other value is kept as its canonical text.  The comparison is the
strict order of a lexicographic key, which is where its order laws come from.
-/

namespace OufMcp.Cursor

open Ledger (Time)

/-- A JSON value, with everything the composers do not look into kept as text. -/
inductive Value where
  | text (value : String)
  | flag (value : Bool)
  | whole (value : Int)
  | other (json : String)
  deriving DecidableEq, Repr

/-- A JSON object with unique member names, `map[string]any` in the source. -/
abbrev Item := Finmap fun _ : String => Value

/-- `time.Time{}`, in nanoseconds of Unix time. -/
def zeroTime : Time := -62135596800000000000

def stringValue : Option Value → String
  | some (.text value) => value
  | _ => ""

def boolValue : Option Value → Bool
  | some (.flag value) => value
  | _ => false

def incidentValue (item : Item) (snake camel : String) : Option Value :=
  match item.lookup snake with
  | some value => some value
  | none => item.lookup camel

def incidentField (item : Item) (snake camel : String) : String :=
  stringValue (incidentValue item snake camel)

def severityRank (value : String) : Nat :=
  if value = "CRITICAL" then 4
  else if value = "ERROR" then 3
  else if value = "WARNING" then 2
  else if value = "INFO" then 1
  else 0

section Priority

-- `time.Parse(time.RFC3339Nano, ·)`
variable (parseTime : String → Option Time)

def incidentTime (item : Item) : Time :=
  let seen := incidentField item "last_seen_at" "lastSeenAt"
  let value := if seen = "" then incidentField item "first_seen_at" "firstSeenAt" else seen
  (parseTime value).getD zeroTime

def incidentBefore (a b : Item) : Bool :=
  let av := incidentField a "lifecycle_state" "lifecycleState"
  let bv := incidentField b "lifecycle_state" "lifecycleState"
  if decide (av = "RESOLVED") ≠ decide (bv = "RESOLVED") then decide (av ≠ "RESOLVED")
  else
    let ar := severityRank (stringValue (a.lookup "severity"))
    let br := severityRank (stringValue (b.lookup "severity"))
    if ar ≠ br then decide (ar > br)
    else
      let aa := boolValue (incidentValue a "action_required" "actionRequired")
      let ba := boolValue (incidentValue b "action_required" "actionRequired")
      if aa ≠ ba then aa
      else if incidentTime parseTime a ≠ incidentTime parseTime b then
        decide (incidentTime parseTime a > incidentTime parseTime b)
      else
        let am := stringValue (a.lookup "module")
        let bm := stringValue (b.lookup "module")
        if am ≠ bm then decide (am < bm)
        else decide (incidentField a "incident_id" "incidentId" <
          incidentField b "incident_id" "incidentId")

/-! ## The order behind the comparison -/

/-- Resolved last, then by falling severity, pending action, recency, module and identifier. -/
abbrev Priority := Bool ×ₗ ℕᵒᵈ ×ₗ Boolᵒᵈ ×ₗ Timeᵒᵈ ×ₗ String ×ₗ String

def priority (item : Item) : Priority :=
  toLex (decide (incidentField item "lifecycle_state" "lifecycleState" = "RESOLVED"),
    toLex (OrderDual.toDual (severityRank (stringValue (item.lookup "severity"))),
      toLex (OrderDual.toDual (boolValue (incidentValue item "action_required" "actionRequired")),
        toLex (OrderDual.toDual (incidentTime parseTime item),
          toLex (stringValue (item.lookup "module"),
            incidentField item "incident_id" "incidentId")))))

/-- A comparison that looks at one component and then at the rest, as the source
writes it, is a comparison of pairs. -/
theorem component_eq_true {α β : Type} [LinearOrder α] [LinearOrder β] {a b : α} {c d : β}
    {differ : Prop} [Decidable differ] {first rest : Bool} (changed : differ ↔ a ≠ b)
    (here : a ≠ b → (first = true ↔ a < b)) (below : rest = true ↔ c < d) :
    (if differ then first else rest) = true ↔ (toLex (a, c) : α ×ₗ β) < toLex (b, d) := by
  rw [Prod.Lex.toLex_lt_toLex]
  by_cases same : a = b
  · rw [if_neg (by rw [changed]; simpa using same), below]
    simp [same]
  · rw [if_pos (changed.mpr same), here same]
    simp [same]

theorem incidentBefore_eq_true {a b : Item} :
    incidentBefore parseTime a b = true ↔ priority parseTime a < priority parseTime b := by
  unfold incidentBefore priority
  refine component_eq_true Iff.rfl (fun differ => ?_) ?_
  · by_cases resolved : incidentField a "lifecycle_state" "lifecycleState" = "RESOLVED" <;>
      by_cases also : incidentField b "lifecycle_state" "lifecycleState" = "RESOLVED" <;>
      simp [resolved, also] at differ ⊢
  refine component_eq_true (by simp) (fun _ => by simp) ?_
  refine component_eq_true (by simp) (fun differ => ?_) ?_
  · rw [OrderDual.toDual_lt_toDual]
    cases pending : boolValue (incidentValue a "action_required" "actionRequired") <;>
      cases other : boolValue (incidentValue b "action_required" "actionRequired") <;>
      simp [pending, other] at differ ⊢
  refine component_eq_true (by simp) (fun _ => by simp) ?_
  exact component_eq_true Iff.rfl (fun _ => decide_eq_true_iff) decide_eq_true_iff

theorem incidentBefore_eq_false {a b : Item} :
    incidentBefore parseTime a b = false ↔ priority parseTime b ≤ priority parseTime a := by
  rw [← Bool.not_eq_true, incidentBefore_eq_true, not_lt]

end Priority

end OufMcp.Cursor
