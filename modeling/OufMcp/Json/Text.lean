import Mathlib.Data.List.Basic

/-!
# JSON string literals

The string literals that `encoding/json` writes.  A text is given as the encoder
reads it: one entry per character, `none` for a byte that is no UTF-8.  All such
bytes are written alike, as `\ufffd`; everything else of a text can be read back.
-/

namespace OufMcp.Json

/-- A text as the encoder reads it. -/
abbrev Text := List (Option Char)

def text (s : String) : Text := s.toList.map some

theorem text_injective : Function.Injective text := by
  intro a b same
  exact String.toList_inj.mp (List.map_injective_iff.mpr (fun _ _ => Option.some.inj) same)

/-! ## Escapes -/

def hexDigit (value : Nat) : Char := Nat.digitChar (value % 16)

def hexValue (digit : Char) : Nat :=
  if digit.isDigit then digit.toNat - '0'.toNat else digit.toNat - 'a'.toNat + 10

def hex4 (code : Nat) : List Char :=
  [hexDigit (code / 4096), hexDigit (code / 256), hexDigit (code / 16), hexDigit code]

def shortEscape? : Char → Option Char
  | '"' => some '"'
  | '\\' => some '\\'
  | '\x08' => some 'b'
  | '\x0c' => some 'f'
  | '\n' => some 'n'
  | '\r' => some 'r'
  | '\t' => some 't'
  | _ => none

/-- The characters written as `\u` and their code. -/
def needsCode (c : Char) : Bool :=
  decide (c.toNat < 0x20) || c == '<' || c == '>' || c == '&' || c == '\u2028' || c == '\u2029'

def escape : Option Char → List Char
  | none => ['\\', 'u', 'f', 'f', 'f', 'd']
  | some c => match shortEscape? c with
    | some letter => ['\\', letter]
    | none => if needsCode c then '\\' :: 'u' :: hex4 c.toNat else [c]

def quote (t : Text) : List Char := '"' :: t.flatMap escape ++ ['"']

/-! ## Reading back -/

def shortUnescape? : Char → Option Char
  | '"' => some '"'
  | '\\' => some '\\'
  | 'b' => some '\x08'
  | 'f' => some '\x0c'
  | 'n' => some '\n'
  | 'r' => some '\r'
  | 't' => some '\t'
  | _ => none

def codeOf (a b c d : Char) : Nat :=
  4096 * hexValue a + 256 * hexValue b + 16 * hexValue c + hexValue d

/-- The first entry of a text and what follows its escape. -/
def unescape : List Char → Option (Option Char × List Char)
  | '\\' :: 'u' :: a :: b :: c :: d :: rest =>
    some (if codeOf a b c d = 0xfffd then none else some (Char.ofNat (codeOf a b c d)), rest)
  | '\\' :: letter :: rest => (shortUnescape? letter).map fun c => (some c, rest)
  | c :: rest => some (some c, rest)
  | [] => none

theorem hexValue_hexDigit (value : Nat) : hexValue (hexDigit value) = value % 16 := by
  have digits : ∀ d < 16, hexValue (Nat.digitChar d) = d := by decide
  exact digits _ (Nat.mod_lt _ (by decide))

theorem codeOf_hex4 {code : Nat} (small : code < 0x10000) :
    codeOf (hexDigit (code / 4096)) (hexDigit (code / 256)) (hexDigit (code / 16))
      (hexDigit code) = code := by
  simp only [codeOf, hexValue_hexDigit]
  omega

theorem shortUnescape?_of_shortEscape? {c letter : Char} (short : shortEscape? c = some letter) :
    shortUnescape? letter = some c ∧ letter ≠ 'u' := by
  unfold shortEscape? at short
  split at short
  case h_8 => cases short
  all_goals
    obtain rfl := Option.some.inj short
    exact ⟨rfl, by decide⟩

theorem needsCode_small {c : Char} (code : needsCode c = true) :
    c.toNat < 0x10000 ∧ c.toNat ≠ 0xfffd := by
  simp only [needsCode, Bool.or_eq_true, decide_eq_true_eq, beq_iff_eq, or_assoc] at code
  rcases code with low | rfl | rfl | rfl | rfl | rfl
  · omega
  all_goals decide

theorem unescape_escape (entry : Option Char) (rest : List Char) :
    unescape (escape entry ++ rest) = some (entry, rest) := by
  cases entry with
  | none => rfl
  | some c =>
    cases short : shortEscape? c with
    | some letter =>
      obtain ⟨back, differ⟩ := shortUnescape?_of_shortEscape? short
      simp [escape, short, unescape, back, differ]
    | none =>
      by_cases code : needsCode c = true
      · obtain ⟨small, real⟩ := needsCode_small code
        simp [escape, short, code, hex4, unescape, codeOf_hex4 small, real]
      · have plain : c ≠ '\\' := by
          rintro rfl
          cases short
        simp [escape, short, code, unescape, plain]

theorem escape_append_inj {a b : Option Char} {x y : List Char}
    (same : escape a ++ x = escape b ++ y) : a = b ∧ x = y := by
  have read := congrArg unescape same
  rw [unescape_escape, unescape_escape] at read
  exact Prod.mk.inj (Option.some.inj read)

theorem escape_head (entry : Option Char) : ∃ c rest, escape entry = c :: rest ∧ c ≠ '"' := by
  cases entry with
  | none => exact ⟨'\\', _, rfl, by decide⟩
  | some c =>
    cases short : shortEscape? c with
    | some letter => exact ⟨'\\', [letter], by simp [escape, short], by decide⟩
    | none =>
      by_cases code : needsCode c = true
      · exact ⟨'\\', 'u' :: hex4 c.toNat, by simp [escape, short, code], by decide⟩
      · refine ⟨c, [], by simp [escape, short, code], ?_⟩
        rintro rfl
        cases short

/-- A literal shows its text and where it ends. -/
theorem quote_append_inj {a b : Text} {x y : List Char} (same : quote a ++ x = quote b ++ y) :
    a = b ∧ x = y := by
  have closed : ∀ (a b : Text), a.flatMap escape ++ '"' :: x = b.flatMap escape ++ '"' :: y →
      a = b ∧ x = y := by
    intro a
    induction a with
    | nil =>
      intro b same
      cases b with
      | nil => exact ⟨rfl, (List.cons.inj same).2⟩
      | cons entry b =>
        obtain ⟨c, rest, head, differ⟩ := escape_head entry
        rw [List.flatMap_cons, head] at same
        exact absurd (List.cons.inj same).1.symm differ
    | cons first a ih =>
      intro b same
      cases b with
      | nil =>
        obtain ⟨c, rest, head, differ⟩ := escape_head first
        rw [List.flatMap_cons, head] at same
        exact absurd (List.cons.inj same).1 differ
      | cons entry b =>
        rw [List.flatMap_cons, List.flatMap_cons, List.append_assoc, List.append_assoc] at same
        obtain ⟨rfl, tail⟩ := escape_append_inj same
        obtain ⟨rfl, rfl⟩ := ih b tail
        exact ⟨rfl, rfl⟩
  unfold quote at same
  rw [List.cons_append, List.cons_append, List.append_assoc, List.append_assoc] at same
  exact closed a b (List.cons.inj same).2

end OufMcp.Json
