import OufMcp.Json.Tree

/-!
# Decoding into records

How `encoding/json` reads a document and fills the fields of a struct from the
members of an object.  A member belongs to the field of its name, or else to the
first field that differs from it in letter case only; later members of a field
overwrite earlier ones.
-/

namespace OufMcp.Json

variable {ν β : Type}

/-! ## Documents as bytes -/

def utf8 (chars : List Char) : ByteArray := (String.ofList chars).toByteArray

theorem utf8_injective : Function.Injective utf8 := by
  intro a b same
  exact String.ofList_injective (String.toByteArray_inj.mp same)

theorem utf8_size_le (chars : List Char) : (utf8 chars).size ≤ 4 * chars.length := by
  have encoded : utf8 chars = chars.utf8Encode := String.toByteArray_ofList
  rw [encoded]
  clear encoded
  induction chars with
  | nil => simp
  | cons c rest ih =>
    have one := c.utf8Size_le_four
    rw [← List.singleton_append, List.utf8Encode_append, List.utf8Encode_singleton,
      ByteArray.size_append, List.length_append, List.length_singleton]
    simp only [List.size_toByteArray, String.length_utf8EncodeChar]
    omega

/-- The bytes `json.Marshal` writes for a document. -/
def marshal (numerals : Numerals ν) (value : Value String ν) : ByteArray :=
  utf8 (render text numerals value)

theorem marshal_injective (numerals : Numerals ν) :
    Function.Injective (marshal numerals : Value String ν → ByteArray) :=
  utf8_injective.comp (render_injective text_injective)

/-- The parser of `encoding/json`: it reads what the encoder writes, unless it is nested too
deeply. -/
structure Reader (numerals : Numerals ν) where
  read : ByteArray → Option (Value String ν)
  read_marshal : ∀ value, value.depth ≤ maxNestingDepth →
    read (marshal numerals value) = some value

/-- The reader that accepts nothing but the encoder's texts. -/
noncomputable def strictReader (numerals : Numerals ν) : Reader numerals := by
  classical
  exact {
    read := fun bytes => if written : ∃ value, marshal numerals value = bytes then
      some written.choose else none
    read_marshal := by
      intro value _
      have written : ∃ other, marshal numerals other = marshal numerals value := ⟨value, rfl⟩
      rw [dif_pos written, marshal_injective numerals written.choose_spec] }

/-- A `json.Decoder`: the first document of a text, and whether only white space follows it. -/
structure Stream (numerals : Numerals ν) where
  first : ByteArray → Option (Value String ν × Bool)
  first_marshal : ∀ value, value.depth ≤ maxNestingDepth →
    first (marshal numerals value) = some (value, true)

def Reader.stream {numerals : Numerals ν} (reader : Reader numerals) : Stream numerals where
  first bytes := (reader.read bytes).map fun value => (value, true)
  first_marshal value shallow := by rw [reader.read_marshal value shallow, Option.map_some]

/-! ## Names -/

/-- `foldRune`, for letters that may fold to an ASCII letter. -/
def foldRune (c : Char) : Char :=
  if c = '\u017f' then 'S' else if c = '\u212a' then 'K' else c.toUpper

def foldName (name : String) : List Char := name.toList.map foldRune

/-- The field a member is decoded into, among the fields of a struct. -/
def target (fields : List String) (name : String) : Option String :=
  if name ∈ fields then some name
  else fields.find? fun field => decide (foldName field = foldName name)

abbrev Members (ν : Type) := List (String × Value String ν)

/-- The members of what is decoded into a struct; `null` leaves the struct as it is. -/
def Value.members? : Value String ν → Option (Members ν)
  | .obj members => some members
  | .null => some []
  | _ => none

/-! ## Fields -/

def into (fields : List String) (field : String) (members : Members ν) : Members ν :=
  members.filter fun member => decide (target fields member.1 = some field)

/-- A field after its members were decoded one after another, if each has the field's type. -/
def fillField (fields : List String) (field : String)
    (store : Value String ν → β → Option β) (zero : β) (members : Members ν) : Option β :=
  (into fields field members).foldlM (fun value member => store member.2 value) zero

def storeText : Value String ν → String → Option String
  | .str s, _ => some s
  | .null, old => some old
  | _, _ => none

def storeFlag : Value String ν → Bool → Option Bool
  | .bool b, _ => some b
  | .null, old => some old
  | _, _ => none

def storeFlagPointer : Value String ν → Option Bool → Option (Option Bool)
  | .bool b, _ => some (some b)
  | .null, _ => some none
  | _, _ => none

end OufMcp.Json
