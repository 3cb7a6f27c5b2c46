import OufMcp.Json.Lexeme

/-!
# Strings as they are read

What `encoding/json` makes of the bytes between the quotes of a string.  Escapes stand
for characters, two escapes for one character beyond the first plane, and what is no
character is read as the replacement character.  The result is therefore always a text,
and there is one for every string that the scanner lets through.
-/

namespace OufMcp.Json

/-- `unicode.ReplacementChar` -/
def replacementChar : Char := '\ufffd'

def hexDigitValue (b : Fin 256) : Nat :=
  if isDigit b = true then b.val - 48 else if 97 ≤ b.val then b.val - 87 else b.val - 55

/-- `getu4`: the code of the escape at the beginning of a text, and what follows it. -/
def getu4 : GoString → Option (Nat × GoString)
  | slash :: u :: a :: b :: c :: d :: rest =>
    if slash = byte '\\' ∧ u = byte 'u' ∧ [a, b, c, d].all isHexDigit = true then
      some (((hexDigitValue a * 16 + hexDigitValue b) * 16 + hexDigitValue c) * 16 +
        hexDigitValue d, rest)
    else none
  | _ => none

/-- `utf16.IsSurrogate` -/
def isSurrogate (code : Nat) : Bool := decide (0xd800 ≤ code ∧ code < 0xe000)

/-- `utf16.DecodeRune`, if the two codes are a pair. -/
def decodePair (high low : Nat) : Option Char :=
  if (0xd800 ≤ high ∧ high < 0xdc00) ∧ 0xdc00 ≤ low ∧ low < 0xe000 then
    some (Char.ofNat ((high - 0xd800) * 0x400 + (low - 0xdc00) + 0x10000))
  else none

def unquoteCode (s : GoString) : Option (Char × GoString) := do
  let (code, rest) ← getu4 s
  if isSurrogate code = true then
    match getu4 rest with
    | some (low, after) =>
      match decodePair code low with
      | some c => some (c, after)
      | none => some (replacementChar, rest)
    | none => some (replacementChar, rest)
  else some (Char.ofNat code, rest)

def unquoteLetter (e : Fin 256) : Option Char :=
  if e = byte '"' then some '"'
  else if e = byte '\\' then some '\\'
  else if e = byte '/' then some '/'
  else if e = byte '\x27' then some '\x27'
  else if e = byte 'b' then some '\x08'
  else if e = byte 'f' then some '\x0c'
  else if e = byte 'n' then some '\n'
  else if e = byte 'r' then some '\r'
  else if e = byte 't' then some '\t'
  else none

/-- One round of the loop of `unquoteBytes`. -/
def unquoteStep : GoString → Option (Char × GoString)
  | [] => none
  | b :: rest =>
    if b = byte '\\' then
      match rest with
      | [] => none
      | e :: more =>
        if e = byte 'u' then unquoteCode (b :: e :: more)
        else (unquoteLetter e).map fun c => (c, more)
    else if b = byte '"' ∨ b.val < 32 then none
    else
      match decodeRune (b :: rest) with
      | some c => some (c, (b :: rest).drop c.utf8Size)
      | none => some (replacementChar, rest)

def unquoteUpTo : Nat → GoString → Option (List Char)
  | _, [] => some []
  | 0, _ :: _ => none
  | fuel + 1, b :: s => do
      let (c, rest) ← unquoteStep (b :: s)
      let more ← unquoteUpTo fuel rest
      pure (c :: more)

/-- `unquoteBytes`, without the quotes. -/
def unquote? (body : GoString) : Option String :=
  (unquoteUpTo body.length body).map String.ofList

def unquote (body : GoString) : String := (unquote? body).getD ""

/-! ## Every string reads something -/

theorem getu4_eq_some {s after : GoString} {code : Nat} (read : getu4 s = some (code, after)) :
    ∃ a b c d, s = byte '\\' :: byte 'u' :: a :: b :: c :: d :: after := by
  unfold getu4 at read
  split at read
  next slash u a b c d rest =>
    split at read
    next escape =>
      cases read
      obtain ⟨rfl, rfl, -⟩ := escape
      exact ⟨a, b, c, d, rfl⟩
    next => cases read
  next => cases read

theorem Body.of_code {a b c d : Fin 256} {after : GoString}
    (body : Body (byte '\\' :: byte 'u' :: a :: b :: c :: d :: after)) : Body after := by
  cases body with
  | plain plain more => exact absurd plain (by decide)
  | escape letter more => exact absurd letter (by decide)
  | code hex more => exact more

theorem Body.of_getu4 {s after : GoString} {code : Nat} (body : Body s)
    (read : getu4 s = some (code, after)) : Body after := by
  obtain ⟨a, b, c, d, rfl⟩ := getu4_eq_some read
  exact body.of_code

theorem utf8EncodeChar_tail {c : Char} :
    ∀ b ∈ (String.utf8EncodeChar c).tail, b.toFin ≠ byte '\\' := by
  have trailing : ∀ n : Nat, (UInt8.ofNat (n % 64 + 128)).toFin ≠ byte '\\' := by
    intro n same
    have value : (UInt8.ofNat (n % 64 + 128)).toNat = 92 := congrArg Fin.val same
    rw [UInt8.toNat_ofNat'] at value
    omega
  intro b member
  simp only [String.utf8EncodeChar] at member
  split at member
  next => cases member
  next =>
    split at member
    next =>
      obtain rfl := List.mem_singleton.mp member
      exact trailing _
    next =>
      split at member
      next =>
        rcases List.mem_cons.mp member with rfl | later
        · exact trailing _
        · obtain rfl := List.mem_singleton.mp later
          exact trailing _
      next =>
        rcases List.mem_cons.mp member with rfl | later
        · exact trailing _
        · rcases List.mem_cons.mp later with rfl | last
          · exact trailing _
          · obtain rfl := List.mem_singleton.mp last
            exact trailing _

theorem decodeRune_take {s : GoString} {c : Char} (read : decodeRune s = some c) :
    (s.take c.utf8Size).map UInt8.ofFin = String.utf8EncodeChar c := by
  have encoded := String.toByteArray_utf8EncodeChar_of_utf8DecodeChar?_eq_some read
  have lists := congrArg (fun bytes : ByteArray => bytes.data.toList) encoded
  simp only [ByteArray.data_extract, Array.toList_extract, List.extract_eq_take_drop,
    byteArray_toList, List.drop_zero, Nat.sub_zero, List.data_toByteArray] at lists
  rw [List.map_take, ← lists]

theorem Body.drop {s : GoString} (body : Body s) {n : Nat}
    (plain : ∀ b ∈ s.take n, b ≠ byte '\\') : Body (s.drop n) := by
  induction n generalizing s with
  | zero => exact body
  | succ n ih =>
    cases body with
    | nil => exact .nil
    | plain _ more =>
      refine ih more ?_
      intro c member
      exact plain c (List.mem_cons_of_mem _ member)
    | escape letter more => exact absurd rfl (plain _ List.mem_cons_self)
    | code hex more => exact absurd rfl (plain _ List.mem_cons_self)

theorem Body.drop_rune {b : Fin 256} {rest : GoString} {c : Char} (body : Body (b :: rest))
    (starts : b ≠ byte '\\') (read : decodeRune (b :: rest) = some c) :
    Body ((b :: rest).drop c.utf8Size) := by
  refine body.drop ?_
  have bytes := decodeRune_take read
  obtain ⟨n, size⟩ : ∃ n, c.utf8Size = n + 1 := Nat.exists_eq_add_one.mpr c.utf8Size_pos
  rw [size, List.take_succ_cons] at bytes ⊢
  intro d member
  rcases List.mem_cons.mp member with rfl | later
  · exact starts
  · refine @utf8EncodeChar_tail c (UInt8.ofFin d) ?_
    rw [← bytes, List.map_cons, List.tail_cons]
    exact List.mem_map_of_mem later

theorem unquoteLetter_isSome : ∀ e : Fin 256, isEscape e = true →
    e ≠ byte 'u' ∧ (unquoteLetter e).isSome = true := by
  decide +kernel

def Leaves (s : GoString) (read : Option (Char × GoString)) : Prop :=
  ∃ c rest, read = some (c, rest) ∧ Body rest ∧ rest.length < s.length

theorem unquoteCode_leaves {a b c d : Fin 256} {rest : GoString}
    (hex : [a, b, c, d].all isHexDigit = true) (more : Body rest) :
    Leaves (byte '\\' :: byte 'u' :: a :: b :: c :: d :: rest)
      (unquoteCode (byte '\\' :: byte 'u' :: a :: b :: c :: d :: rest)) := by
  have first : ∃ code, getu4 (byte '\\' :: byte 'u' :: a :: b :: c :: d :: rest) =
      some (code, rest) := ⟨_, if_pos ⟨rfl, rfl, hex⟩⟩
  obtain ⟨code, first⟩ := first
  have shorter : rest.length <
      (byte '\\' :: byte 'u' :: a :: b :: c :: d :: rest).length := by
    simp only [List.length_cons]
    omega
  rw [unquoteCode, first, Option.bind_eq_bind, Option.bind_some]
  dsimp only
  split
  next =>
    split
    next low after second =>
      have shape := getu4_eq_some second
      split
      next =>
        refine ⟨_, after, rfl, more.of_getu4 second, ?_⟩
        obtain ⟨_, _, _, _, rfl⟩ := shape
        simp only [List.length_cons]
        omega
      next => exact ⟨_, rest, rfl, more, shorter⟩
    next => exact ⟨_, rest, rfl, more, shorter⟩
  next => exact ⟨_, rest, rfl, more, shorter⟩

theorem unquoteStep_leaves {b : Fin 256} {s : GoString} (body : Body (b :: s)) :
    Leaves (b :: s) (unquoteStep (b :: s)) := by
  cases body with
  | plain plain more =>
    have slash : b ≠ byte '\\' := by
      rintro rfl
      exact absurd plain (by decide)
    have readable : ¬(b = byte '"' ∨ b.val < 32) := by
      simp only [isPlain, Bool.and_eq_true, decide_eq_true_eq, bne_iff_ne] at plain
      rintro (same | control)
      · exact plain.1.2 same
      · omega
    rw [unquoteStep.eq_def]
    dsimp only
    rw [if_neg slash, if_neg readable]
    split
    next c read =>
      refine ⟨c, _, rfl, Body.drop_rune (.plain plain more) slash read, ?_⟩
      have positive := c.utf8Size_pos
      rw [List.length_drop, List.length_cons]
      omega
    next => exact ⟨_, s, rfl, more, Nat.lt_succ_self _⟩
  | @escape e rest letter more =>
    obtain ⟨notCode, known⟩ := unquoteLetter_isSome e letter
    obtain ⟨c, read⟩ := Option.isSome_iff_exists.mp known
    rw [unquoteStep.eq_def]
    dsimp only
    rw [if_pos rfl, if_neg notCode, read]
    refine ⟨c, rest, rfl, more, ?_⟩
    simp only [List.length_cons]
    omega
  | code hex more =>
    rw [unquoteStep.eq_def]
    dsimp only
    rw [if_pos rfl, if_pos rfl]
    exact unquoteCode_leaves hex more

theorem unquoteUpTo_isSome {fuel : Nat} {s : GoString} (body : Body s) (enough : s.length ≤ fuel) :
    (unquoteUpTo fuel s).isSome = true := by
  induction fuel generalizing s with
  | zero =>
    obtain rfl := List.length_eq_zero_iff.mp (Nat.le_zero.mp enough)
    rfl
  | succ fuel ih =>
    cases s with
    | nil => rfl
    | cons b s =>
      obtain ⟨c, rest, read, left, shorter⟩ := unquoteStep_leaves body
      obtain ⟨more, others⟩ := Option.isSome_iff_exists.mp (ih left (by omega))
      rw [unquoteUpTo, read, Option.bind_eq_bind, Option.bind_some]
      dsimp only
      rw [others]
      rfl

theorem unquote?_eq {body : GoString} (valid : Body body) :
    unquote? body = some (unquote body) := by
  obtain ⟨chars, read⟩ := Option.isSome_iff_exists.mp (unquoteUpTo_isSome valid le_rfl)
  rw [unquote, unquote?, read]
  rfl

end OufMcp.Json
