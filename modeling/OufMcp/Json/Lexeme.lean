import OufMcp.Json.Runes

/-!
# Lexemes of JSON

The words of JSON as they stand in a text: marks, literals, numbers and strings, each
with white space in front of it.  The grammar of each word is declared on its own, and a
scanner reads the first word of a text.  A number is read as far as it goes, so what is
read of a text is what was written unless two numbers touch.
-/

namespace OufMcp.Json

def byte (c : Char) : Fin 256 := Fin.ofNat 256 c.toNat

def ascii (s : String) : GoString := s.toList.map byte

def isSpace (b : Fin 256) : Bool :=
  b == byte ' ' || b == byte '\t' || b == byte '\r' || b == byte '\n'

def isDigit (b : Fin 256) : Bool := decide (48 ≤ b.val ∧ b.val ≤ 57)

def isHexDigit (b : Fin 256) : Bool :=
  isDigit b || decide (97 ≤ b.val ∧ b.val ≤ 102) || decide (65 ≤ b.val ∧ b.val ≤ 70)

/-! ## Grammar -/

def Blank (s : GoString) : Prop := ∀ b ∈ s, isSpace b = true

structure Digits (s : GoString) : Prop where
  nonempty : s ≠ []
  digits : ∀ b ∈ s, isDigit b = true

/-- The digits in front of a fraction: no zero leads, unless it is alone. -/
inductive Whole : GoString → Prop where
  | zero : Whole [byte '0']
  | digits {d : Fin 256} {rest : GoString} (digit : isDigit d = true) (leads : d ≠ byte '0')
      (more : ∀ b ∈ rest, isDigit b = true) : Whole (d :: rest)

inductive Sign : GoString → Prop where
  | none : Sign []
  | minus : Sign [byte '-']

inductive Fraction : GoString → Prop where
  | none : Fraction []
  | point {digits : GoString} (some : Digits digits) : Fraction (byte '.' :: digits)

inductive ExponentSign : GoString → Prop where
  | none : ExponentSign []
  | plus : ExponentSign [byte '+']
  | minus : ExponentSign [byte '-']

inductive Exponent : GoString → Prop where
  | none : Exponent []
  | letter {e : Fin 256} {sign digits : GoString} (letter : e = byte 'e' ∨ e = byte 'E')
      (signed : ExponentSign sign) (some : Digits digits) : Exponent (e :: (sign ++ digits))

inductive Number : GoString → Prop where
  | parts {sign whole fraction exponent : GoString} (isSign : Sign sign) (isWhole : Whole whole)
      (isFraction : Fraction fraction) (isExponent : Exponent exponent) :
      Number (sign ++ (whole ++ (fraction ++ exponent)))

/-- A byte that stands for itself in a string. -/
def isPlain (b : Fin 256) : Bool := decide (32 ≤ b.val) && b != byte '"' && b != byte '\\'

def isEscape (b : Fin 256) : Bool := (ascii "\"\\/bfnrt").contains b

/-- What stands between the quotes of a string. -/
inductive Body : GoString → Prop where
  | nil : Body []
  | plain {b : Fin 256} {rest : GoString} (plain : isPlain b = true) (more : Body rest) :
      Body (b :: rest)
  | escape {e : Fin 256} {rest : GoString} (letter : isEscape e = true) (more : Body rest) :
      Body (byte '\\' :: e :: rest)
  | code {a b c d : Fin 256} {rest : GoString} (hex : [a, b, c, d].all isHexDigit = true)
      (more : Body rest) : Body (byte '\\' :: byte 'u' :: a :: b :: c :: d :: rest)

inductive Mark where
  | beginArray
  | endArray
  | beginObject
  | endObject
  | colon
  | comma
  deriving DecidableEq, Repr

def Mark.char : Mark → Char
  | .beginArray => '['
  | .endArray => ']'
  | .beginObject => '\x7b'
  | .endObject => '\x7d'
  | .colon => ':'
  | .comma => ','

/-- A word of JSON; numbers and strings as they are written. -/
inductive Lexeme where
  | mark (m : Mark)
  | null
  | bool (b : Bool)
  | num (literal : GoString)
  | str (body : GoString)
  deriving DecidableEq

variable {lexeme : Lexeme}

namespace Lexeme

def bytes : Lexeme → GoString
  | .mark m => [byte m.char]
  | .null => ascii "null"
  | .bool true => ascii "true"
  | .bool false => ascii "false"
  | .num literal => literal
  | .str body => byte '"' :: (body ++ [byte '"'])

def Valid : Lexeme → Prop
  | .num literal => Number literal
  | .str body => Body body
  | _ => True

def isNumber : Lexeme → Bool
  | .num _ => true
  | _ => false

end Lexeme

/-- The text is spelled by the words, with white space before and after each. -/
inductive Spells : List Lexeme → GoString → Prop where
  | nil {blank : GoString} (isBlank : Blank blank) : Spells [] blank
  | cons {lexeme : Lexeme} {lexemes : List Lexeme} {blank rest : GoString} (isBlank : Blank blank)
      (valid : lexeme.Valid) (tail : Spells lexemes rest) :
      Spells (lexeme :: lexemes) (blank ++ (lexeme.bytes ++ rest))

/-! ## Numbers -/

section Numbers

def scanDigits (s : GoString) : GoString × GoString := (s.takeWhile isDigit, s.dropWhile isDigit)

def scanSign : GoString → GoString × GoString
  | b :: rest => if b = byte '-' then ([b], rest) else ([], b :: rest)
  | [] => ([], [])

def scanWhole : GoString → Option (GoString × GoString)
  | b :: rest =>
    if b = byte '0' then some ([b], rest)
    else if isDigit b = true then some (b :: (scanDigits rest).1, (scanDigits rest).2)
    else none
  | [] => none

def scanFraction : GoString → Option (GoString × GoString)
  | b :: rest =>
    if b = byte '.' then
      if (scanDigits rest).1 = [] then none
      else some (b :: (scanDigits rest).1, (scanDigits rest).2)
    else some ([], b :: rest)
  | [] => some ([], [])

def scanExponentSign : GoString → GoString × GoString
  | b :: rest => if b = byte '+' ∨ b = byte '-' then ([b], rest) else ([], b :: rest)
  | [] => ([], [])

def scanExponent : GoString → Option (GoString × GoString)
  | b :: rest =>
    if b = byte 'e' ∨ b = byte 'E' then
      let signed := scanExponentSign rest
      if (scanDigits signed.2).1 = [] then none
      else some (b :: (signed.1 ++ (scanDigits signed.2).1), (scanDigits signed.2).2)
    else some ([], b :: rest)
  | [] => some ([], [])

def scanNumber (s : GoString) : Option (GoString × GoString) := do
  let signed := scanSign s
  let whole ← scanWhole signed.2
  let fraction ← scanFraction whole.2
  let exponent ← scanExponent fraction.2
  pure (signed.1 ++ (whole.1 ++ (fraction.1 ++ exponent.1)), exponent.2)

theorem scanDigits_append (s : GoString) : (scanDigits s).1 ++ (scanDigits s).2 = s :=
  List.takeWhile_append_dropWhile

theorem scanDigits_digits {s : GoString} : ∀ b ∈ (scanDigits s).1, isDigit b = true := by
  intro b member
  exact List.all_eq_true.mp List.all_takeWhile b member

theorem scanSign_sound (s : GoString) :
    Sign (scanSign s).1 ∧ (scanSign s).1 ++ (scanSign s).2 = s := by
  cases s with
  | nil => exact ⟨.none, rfl⟩
  | cons b rest =>
    rw [scanSign]
    split
    next minus =>
      subst minus
      exact ⟨.minus, rfl⟩
    next => exact ⟨.none, rfl⟩

theorem scanWhole_sound {s whole rest : GoString} (read : scanWhole s = some (whole, rest)) :
    Whole whole ∧ whole ++ rest = s := by
  cases s with
  | nil => cases read
  | cons b tail =>
    rw [scanWhole] at read
    split at read
    next zero =>
      cases read
      subst zero
      exact ⟨.zero, rfl⟩
    next nonzero =>
      split at read
      next digit =>
        cases read
        exact ⟨.digits digit nonzero scanDigits_digits,
          congrArg (b :: ·) (scanDigits_append tail)⟩
      next => cases read

theorem scanFraction_sound {s fraction rest : GoString}
    (read : scanFraction s = some (fraction, rest)) :
    Fraction fraction ∧ fraction ++ rest = s := by
  cases s with
  | nil =>
    cases read
    exact ⟨.none, rfl⟩
  | cons b tail =>
    rw [scanFraction] at read
    split at read
    next point =>
      split at read
      next => cases read
      next some =>
        cases read
        subst point
        exact ⟨.point ⟨some, scanDigits_digits⟩, congrArg (_ :: ·) (scanDigits_append tail)⟩
    next =>
      cases read
      exact ⟨.none, rfl⟩

theorem scanExponentSign_sound (s : GoString) :
    ExponentSign (scanExponentSign s).1 ∧ (scanExponentSign s).1 ++ (scanExponentSign s).2 = s := by
  cases s with
  | nil => exact ⟨.none, rfl⟩
  | cons b rest =>
    rw [scanExponentSign]
    split
    next signed =>
      rcases signed with rfl | rfl
      · exact ⟨.plus, rfl⟩
      · exact ⟨.minus, rfl⟩
    next => exact ⟨.none, rfl⟩

theorem scanExponent_sound {s exponent rest : GoString}
    (read : scanExponent s = some (exponent, rest)) :
    Exponent exponent ∧ exponent ++ rest = s := by
  cases s with
  | nil =>
    cases read
    exact ⟨.none, rfl⟩
  | cons b tail =>
    rw [scanExponent] at read
    split at read
    next letter =>
      obtain ⟨signed, whole⟩ := scanExponentSign_sound tail
      dsimp only at read
      split at read
      next => cases read
      next some =>
        cases read
        refine ⟨.letter letter signed ⟨some, scanDigits_digits⟩, ?_⟩
        rw [List.cons_append, List.append_assoc, scanDigits_append, whole]
    next =>
      cases read
      exact ⟨.none, rfl⟩

theorem scanNumber_sound {s literal rest : GoString} (read : scanNumber s = some (literal, rest)) :
    Number literal ∧ literal ++ rest = s := by
  obtain ⟨sign, signed⟩ := scanSign_sound s
  simp only [scanNumber, Option.bind_eq_bind, Option.bind_eq_some_iff, Option.pure_def,
    Option.some.injEq, Prod.mk.injEq] at read
  obtain ⟨⟨whole, s₁⟩, wholeRead, ⟨fraction, s₂⟩, fractionRead, ⟨exponent, s₃⟩, exponentRead,
    rfl, rfl⟩ := read
  obtain ⟨isWhole, eq₁⟩ := scanWhole_sound wholeRead
  obtain ⟨isFraction, eq₂⟩ := scanFraction_sound fractionRead
  obtain ⟨isExponent, eq₃⟩ := scanExponent_sound exponentRead
  refine ⟨.parts sign isWhole isFraction isExponent, ?_⟩
  simp only [List.append_assoc]
  rw [eq₃, eq₂, eq₁, signed]

/-! ### Numbers are read as far as they go -/

def continues (b : Fin 256) : Bool :=
  isDigit b || b == byte '.' || b == byte 'e' || b == byte 'E'

/-- A number in front of the text ends there. -/
def Stops (s : GoString) : Prop := ∀ b ∈ s.head?, continues b = false

theorem Stops.digit {s : GoString} (stops : Stops s) : ∀ b ∈ s.head?, isDigit b = false := by
  intro b first
  have stop := stops b first
  simp only [continues, Bool.or_eq_false_iff] at stop
  exact stop.1.1.1

theorem scanDigits_complete {digits s : GoString} (all : ∀ b ∈ digits, isDigit b = true)
    (stop : ∀ b ∈ s.head?, isDigit b = false) : scanDigits (digits ++ s) = (digits, s) := by
  have rest : s.takeWhile isDigit = [] ∧ s.dropWhile isDigit = s := by
    cases s with
    | nil => exact ⟨rfl, rfl⟩
    | cons b s =>
      have no := stop b rfl
      constructor
      · rw [List.takeWhile_cons_of_neg (by simp [no])]
      · rw [List.dropWhile_cons_of_neg (by simp [no])]
  unfold scanDigits
  rw [List.takeWhile_append_of_pos all, List.dropWhile_append_of_pos all, rest.1, rest.2,
    List.append_nil]

theorem scanSign_complete {sign s : GoString} (isSign : Sign sign)
    (other : ∀ b ∈ s.head?, b ≠ byte '-') : scanSign (sign ++ s) = (sign, s) := by
  cases isSign with
  | minus => rfl
  | none =>
    cases s with
    | nil => rfl
    | cons b s => rw [List.nil_append, scanSign, if_neg (other b rfl)]

theorem scanWhole_complete {whole s : GoString} (isWhole : Whole whole)
    (stop : ∀ b ∈ s.head?, isDigit b = false) : scanWhole (whole ++ s) = some (whole, s) := by
  cases isWhole with
  | zero => rfl
  | digits digit leads more =>
    rw [List.cons_append, scanWhole, if_neg leads, if_pos digit, scanDigits_complete more stop]

theorem scanFraction_complete {fraction s : GoString} (isFraction : Fraction fraction)
    (stop : ∀ b ∈ s.head?, isDigit b = false) (other : ∀ b ∈ s.head?, b ≠ byte '.') :
    scanFraction (fraction ++ s) = some (fraction, s) := by
  cases isFraction with
  | none =>
    cases s with
    | nil => rfl
    | cons b s => rw [List.nil_append, scanFraction, if_neg (other b rfl)]
  | point some =>
    rw [List.cons_append, scanFraction, if_pos rfl, scanDigits_complete some.digits stop,
      if_neg some.nonempty]

theorem Digits.head {digits s : GoString} (some : Digits digits) :
    ∀ b ∈ (digits ++ s).head?, isDigit b = true := by
  cases digits with
  | nil => exact absurd rfl some.nonempty
  | cons d rest =>
    intro b first
    obtain rfl := Option.some.inj first
    exact some.digits d List.mem_cons_self

theorem isDigit_sign : isDigit (byte '+') = false ∧ isDigit (byte '-') = false := by decide

theorem scanExponentSign_complete {sign s : GoString} (isSign : ExponentSign sign)
    (digit : ∀ b ∈ s.head?, isDigit b = true) : scanExponentSign (sign ++ s) = (sign, s) := by
  cases isSign with
  | plus => rfl
  | minus => rfl
  | none =>
    cases s with
    | nil => rfl
    | cons b s =>
      have unsigned : ¬ (b = byte '+' ∨ b = byte '-') := by
        have here := digit b rfl
        rintro (rfl | rfl)
        · rw [isDigit_sign.1] at here
          cases here
        · rw [isDigit_sign.2] at here
          cases here
      rw [List.nil_append, scanExponentSign, if_neg unsigned]

theorem scanExponent_complete {exponent s : GoString} (isExponent : Exponent exponent)
    (stops : Stops s) : scanExponent (exponent ++ s) = some (exponent, s) := by
  cases isExponent with
  | none =>
    cases s with
    | nil => rfl
    | cons b s =>
      have stop := stops b rfl
      simp only [continues, Bool.or_eq_false_iff, beq_eq_false_iff_ne] at stop
      rw [List.nil_append, scanExponent, if_neg (not_or.mpr ⟨stop.1.2, stop.2⟩)]
  | letter letter signed some =>
    rw [List.cons_append, List.append_assoc, scanExponent, if_pos letter,
      scanExponentSign_complete signed some.head]
    dsimp only
    rw [scanDigits_complete some.digits stops.digit, if_neg some.nonempty]

theorem Exponent.head {exponent s : GoString} (isExponent : Exponent exponent)
    (stops : Stops s) :
    ∀ b ∈ (exponent ++ s).head?, isDigit b = false ∧ b ≠ byte '.' := by
  intro b first
  cases isExponent with
  | none =>
    have stop := stops b first
    simp only [continues, Bool.or_eq_false_iff, beq_eq_false_iff_ne] at stop
    exact ⟨stop.1.1.1, stop.1.1.2⟩
  | letter letter signed some =>
    obtain rfl := Option.some.inj first
    rcases letter with rfl | rfl
    · decide
    · decide

theorem Fraction.head {fraction exponent s : GoString} (isFraction : Fraction fraction)
    (isExponent : Exponent exponent) (stops : Stops s) :
    ∀ b ∈ (fraction ++ (exponent ++ s)).head?, isDigit b = false := by
  intro b first
  cases isFraction with
  | none => exact (isExponent.head stops b first).1
  | point some =>
    obtain rfl := Option.some.inj first
    decide

theorem Whole.head {whole s : GoString} (isWhole : Whole whole) :
    ∀ b ∈ (whole ++ s).head?, b ≠ byte '-' := by
  intro b first
  cases isWhole with
  | zero =>
    obtain rfl := Option.some.inj first
    decide
  | digits digit leads more =>
    obtain rfl := Option.some.inj first
    rintro rfl
    rw [isDigit_sign.2] at digit
    cases digit

theorem scanNumber_complete {literal s : GoString} (number : Number literal) (stops : Stops s) :
    scanNumber (literal ++ s) = some (literal, s) := by
  obtain ⟨isSign, isWhole, isFraction, isExponent⟩ := number
  simp only [List.append_assoc, scanNumber]
  rw [scanSign_complete isSign isWhole.head]
  dsimp only
  rw [scanWhole_complete isWhole (isFraction.head isExponent stops), Option.bind_eq_bind,
    Option.bind_some, scanFraction_complete isFraction
      (fun b first => (isExponent.head stops b first).1)
      (fun b first => (isExponent.head stops b first).2), Option.bind_some,
    scanExponent_complete isExponent stops]
  rfl

end Numbers

/-! ## Strings -/

/-- Where in a string the scanner is: outside of escapes, after a backslash, or before the last
digits of a code. -/
inductive StringState where
  | text
  | escape
  | code (more : Nat)
  deriving DecidableEq

def StringState.after : Nat → StringState
  | 0 => .text
  | more + 1 => .code more

/-- The state after a byte that does not end the string. -/
def StringState.step : StringState → Fin 256 → Option StringState
  | .text, b =>
      if b = byte '\\' then some .escape else if isPlain b = true then some .text else none
  | .escape, b =>
      if b = byte 'u' then some (.code 3) else if isEscape b = true then some .text else none
  | .code more, b => if isHexDigit b = true then some (.after more) else none

/-- The rest of the body of a string, with what follows its closing quote. -/
def scanBody : StringState → GoString → Option (GoString × GoString)
  | _, [] => none
  | state, b :: rest =>
    if state = .text ∧ b = byte '"' then some ([], rest)
    else match state.step b with
      | none => none
      | some next => (scanBody next rest).map fun found => (b :: found.1, found.2)

inductive BodyFrom : StringState → GoString → Prop where
  | text {s : GoString} (body : Body s) : BodyFrom .text s
  | escape {e : Fin 256} {s : GoString} (letter : isEscape e = true) (body : Body s) :
      BodyFrom .escape (e :: s)
  | code {s : GoString} (codes : BodyFrom (.code 3) s) : BodyFrom .escape (byte 'u' :: s)
  | last {b : Fin 256} {s : GoString} (hex : isHexDigit b = true) (body : Body s) :
      BodyFrom (.code 0) (b :: s)
  | digit {more : Nat} {b : Fin 256} {s : GoString} (hex : isHexDigit b = true)
      (codes : BodyFrom (.code more) s) : BodyFrom (.code (more + 1)) (b :: s)

theorem BodyFrom.cons {state next : StringState} {b : Fin 256} {s : GoString}
    (step : state.step b = some next) (more : BodyFrom next s) : BodyFrom state (b :: s) := by
  cases state with
  | text =>
    rw [StringState.step] at step
    split at step
    next backslash =>
      cases step
      subst backslash
      cases more with
      | escape letter body => exact .text (.escape letter body)
      | code codes =>
        cases codes with | digit hexA codes =>
        cases codes with | digit hexB codes =>
        cases codes with | digit hexC codes =>
        cases codes with | last hexD body =>
        exact .text (.code (by simp [hexA, hexB, hexC, hexD]) body)
    next =>
      split at step
      next plain =>
        cases step
        cases more with
        | text body => exact .text (.plain plain body)
      next => cases step
  | escape =>
    rw [StringState.step] at step
    split at step
    next letter =>
      cases step
      subst letter
      exact .code more
    next =>
      split at step
      next letter =>
        cases step
        cases more with
        | text body => exact .escape letter body
      next => cases step
  | code left =>
    rw [StringState.step] at step
    split at step
    next hex =>
      cases left with
      | zero =>
        cases step
        cases more with
        | text body => exact .last hex body
      | succ left =>
        cases step
        exact .digit hex more
    next => cases step

theorem scanBody_sound {state : StringState} {s body rest : GoString}
    (read : scanBody state s = some (body, rest)) :
    BodyFrom state body ∧ body ++ byte '"' :: rest = s := by
  induction s generalizing state body with
  | nil => cases read
  | cons b s ih =>
    rw [scanBody] at read
    split at read
    next ended =>
      cases read
      obtain ⟨rfl, rfl⟩ := ended
      exact ⟨.text .nil, rfl⟩
    next =>
      split at read
      next => cases read
      next next step =>
        obtain ⟨⟨found, after⟩, inner, same⟩ := Option.map_eq_some_iff.mp read
        cases same
        obtain ⟨more, rfl⟩ := ih inner
        exact ⟨more.cons step, rfl⟩

theorem scanBody_step {state next : StringState} {b : Fin 256} {s body rest : GoString}
    (step : state.step b = some next) (open_ : ¬ (state = .text ∧ b = byte '"'))
    (inner : scanBody next s = some (body, rest)) :
    scanBody state (b :: s) = some (b :: body, rest) := by
  rw [scanBody, if_neg open_, step]
  dsimp only
  rw [inner]
  rfl

theorem isPlain_ne {b : Fin 256} (plain : isPlain b = true) : b ≠ byte '"' ∧ b ≠ byte '\\' := by
  simp only [isPlain, Bool.and_eq_true, bne_iff_ne] at plain
  exact ⟨plain.1.2, plain.2⟩

theorem scanBody_complete {body rest : GoString} (isBody : Body body) :
    scanBody .text (body ++ byte '"' :: rest) = some (body, rest) := by
  induction isBody with
  | nil => rfl
  | plain plain more ih =>
    obtain ⟨quote, backslash⟩ := isPlain_ne plain
    refine scanBody_step ?_ (fun both => quote both.2) ih
    rw [StringState.step, if_neg backslash, if_pos plain]
  | @escape e tail letter more ih =>
    have other : e ≠ byte 'u' := by
      rintro rfl
      revert letter
      decide
    refine scanBody_step rfl (by decide) (scanBody_step ?_ (by simp) ih)
    rw [StringState.step, if_neg other, if_pos letter]
  | code hex more ih =>
    simp only [List.all_cons, List.all_nil, Bool.and_true, Bool.and_eq_true] at hex
    obtain ⟨hexA, hexB, hexC, hexD⟩ := hex
    have digit : ∀ (left : Nat) (b : Fin 256), isHexDigit b = true →
        (StringState.code left).step b = some (.after left) := by
      intro left b hex
      rw [StringState.step, if_pos hex]
    refine scanBody_step rfl (by decide) (scanBody_step rfl (by simp) ?_)
    refine scanBody_step (digit 3 _ hexA) (by simp) ?_
    refine scanBody_step (digit 2 _ hexB) (by simp [StringState.after]) ?_
    refine scanBody_step (digit 1 _ hexC) (by simp [StringState.after]) ?_
    exact scanBody_step (digit 0 _ hexD) (by simp [StringState.after]) ih

/-! ## Words -/

def marks : List Mark := [.beginArray, .endArray, .beginObject, .endObject, .colon, .comma]

def Mark.of? (b : Fin 256) : Option Mark := marks.find? fun m => byte m.char == b

theorem Mark.of?_byte (m : Mark) : Mark.of? (byte m.char) = some m := by
  cases m <;> decide

theorem Mark.of?_eq_some {b : Fin 256} {m : Mark} (found : Mark.of? b = some m) :
    b = byte m.char := by
  have same := List.find?_some found
  exact (beq_iff_eq.mp same).symm

def strip : GoString → GoString → Option GoString
  | [], s => some s
  | expected :: more, b :: s => if b = expected then strip more s else none
  | _ :: _, [] => none

theorem strip_eq_some {expected s rest : GoString} :
    strip expected s = some rest ↔ s = expected ++ rest := by
  induction expected generalizing s with
  | nil => simp [strip]
  | cons e more ih =>
    cases s with
    | nil => simp [strip]
    | cons b s =>
      rw [strip]
      split
      next same => simp [same, ih]
      next differ => simp [differ]

def scanLiteral (s : GoString) : Option (Lexeme × GoString) :=
  match strip (ascii "null") s with
  | some rest => some (.null, rest)
  | none =>
    match strip (ascii "true") s with
    | some rest => some (.bool true, rest)
    | none => (strip (ascii "false") s).map fun rest => (.bool false, rest)

def scan : GoString → Option (Lexeme × GoString)
  | [] => none
  | b :: rest =>
    match Mark.of? b with
    | some m => some (.mark m, rest)
    | none =>
      if b = byte '"' then (scanBody .text rest).map fun found => (.str found.1, found.2)
      else (scanLiteral (b :: rest)).or
        ((scanNumber (b :: rest)).map fun found => (.num found.1, found.2))

theorem scanLiteral_sound {s rest : GoString} (read : scanLiteral s = some (lexeme, rest)) :
    lexeme.Valid ∧ lexeme.bytes ++ rest = s := by
  unfold scanLiteral at read
  split at read
  next found =>
    cases read
    exact ⟨trivial, (strip_eq_some.mp found).symm⟩
  next =>
    split at read
    next found =>
      cases read
      exact ⟨trivial, (strip_eq_some.mp found).symm⟩
    next =>
      obtain ⟨after, found, same⟩ := Option.map_eq_some_iff.mp read
      cases same
      exact ⟨trivial, (strip_eq_some.mp found).symm⟩

theorem scan_sound {s rest : GoString} (read : scan s = some (lexeme, rest)) :
    lexeme.Valid ∧ lexeme.bytes ++ rest = s := by
  cases s with
  | nil => cases read
  | cons b tail =>
    rw [scan] at read
    split at read
    next m found =>
      cases read
      rw [Mark.of?_eq_some found]
      exact ⟨trivial, rfl⟩
    next =>
      split at read
      next quote =>
        obtain ⟨⟨body, after⟩, inner, same⟩ := Option.map_eq_some_iff.mp read
        cases same
        obtain ⟨⟨isBody⟩, rfl⟩ := scanBody_sound inner
        refine ⟨isBody, ?_⟩
        rw [quote, Lexeme.bytes, List.cons_append, List.append_assoc, List.singleton_append]
      next =>
        rcases Option.or_eq_some_iff.mp read with literal | ⟨-, number⟩
        · exact scanLiteral_sound literal
        · obtain ⟨⟨literal, after⟩, inner, same⟩ := Option.map_eq_some_iff.mp number
          cases same
          exact scanNumber_sound inner

/-- The byte that a number starts with starts no other word. -/
theorem Number.head {literal s : GoString} (number : Number literal) :
    ∃ b rest, literal ++ s = b :: rest ∧ (isDigit b = true ∨ b = byte '-') := by
  obtain ⟨isSign, isWhole, -, -⟩ := number
  cases isSign with
  | minus => exact ⟨_, _, rfl, .inr rfl⟩
  | none =>
    cases isWhole with
    | zero => exact ⟨_, _, rfl, .inl (by decide)⟩
    | digits digit leads more => exact ⟨_, _, rfl, .inl digit⟩

theorem strip_eq_none {e b : Fin 256} {expected s : GoString} (differ : b ≠ e) :
    strip (e :: expected) (b :: s) = none := by
  rw [strip, if_neg differ]

theorem scan_number {b : Fin 256} {rest : GoString} (starts : isDigit b = true ∨ b = byte '-') :
    scan (b :: rest) = (scanNumber (b :: rest)).map fun found => (.num found.1, found.2) := by
  have apart : ∀ b : Fin 256, isDigit b = true ∨ b = byte '-' →
      Mark.of? b = none ∧ b ≠ byte '"' ∧ b ≠ byte 'n' ∧ b ≠ byte 't' ∧ b ≠ byte 'f' := by
    decide +kernel
  obtain ⟨mark, quote, n, t, f⟩ := apart b starts
  have literal : scanLiteral (b :: rest) = none := by
    unfold scanLiteral
    rw [show ascii "null" = byte 'n' :: ascii "ull" from rfl, strip_eq_none n,
      show ascii "true" = byte 't' :: ascii "rue" from rfl, strip_eq_none t,
      show ascii "false" = byte 'f' :: ascii "alse" from rfl, strip_eq_none f]
    rfl
  rw [scan, mark]
  dsimp only
  rw [if_neg quote, literal, Option.none_or]

theorem scan_complete {s : GoString} (valid : lexeme.Valid)
    (ends : lexeme.isNumber = true → Stops s) : scan (lexeme.bytes ++ s) = some (lexeme, s) := by
  cases lexeme with
  | mark m =>
    rw [Lexeme.bytes, List.singleton_append, scan, Mark.of?_byte]
  | null => rfl
  | bool b =>
    cases b with
    | true => rfl
    | false => rfl
  | num literal =>
    obtain ⟨b, rest, shape, starts⟩ := Number.head (s := s) valid
    rw [Lexeme.bytes, shape, scan_number starts, ← shape, scanNumber_complete valid (ends rfl)]
    rfl
  | str body =>
    have quote : Mark.of? (byte '"') = none := by decide
    rw [Lexeme.bytes, List.cons_append, List.append_assoc, List.singleton_append, scan, quote]
    dsimp only
    rw [if_pos rfl, scanBody_complete valid]
    rfl

/-! ## One word after another -/

inductive ScanError where
  /-- There is nothing left but white space. -/
  | eof
  | invalid
  deriving DecidableEq, Repr

/-- The first word of a text after its white space, with what follows it. -/
def next : GoString → Except ScanError (Lexeme × GoString)
  | [] => .error .eof
  | b :: rest =>
    if isSpace b = true then next rest
    else match scan (b :: rest) with
      | some found => .ok found
      | none => .error .invalid

theorem Blank.cons {b : Fin 256} {s : GoString} (space : isSpace b = true) (blank : Blank s) :
    Blank (b :: s) := by
  intro c member
  rcases List.mem_cons.mp member with rfl | later
  · exact space
  · exact blank c later

theorem blank_nil : Blank [] := by
  exact nofun

theorem next_blank {blank s : GoString} (isBlank : Blank blank) : next (blank ++ s) = next s := by
  induction blank with
  | nil => rfl
  | cons b blank ih =>
    rw [List.cons_append, next, if_pos (isBlank b List.mem_cons_self)]
    exact ih fun c member => isBlank c (List.mem_cons_of_mem _ member)

theorem next_eq_eof {s : GoString} : next s = .error .eof ↔ Spells [] s := by
  constructor
  · intro none
    refine .nil ?_
    induction s with
    | nil => exact blank_nil
    | cons b s ih =>
      rw [next] at none
      split at none
      next space => exact (ih none).cons space
      next =>
        split at none
        next => cases none
        next => cases none
  · rintro ⟨isBlank⟩
    have read := @next_blank _ [] isBlank
    rwa [List.append_nil] at read

theorem spells_of_next {s rest : GoString} {lexemes : List Lexeme}
    (read : next s = .ok (lexeme, rest)) (tail : Spells lexemes rest) :
    Spells (lexeme :: lexemes) s := by
  induction s with
  | nil => cases read
  | cons b s ih =>
    rw [next] at read
    split at read
    next space =>
      cases ih read with
      | cons isBlank valid tail => exact .cons (isBlank.cons space) valid tail
    next =>
      split at read
      next found scanned =>
        cases read
        obtain ⟨valid, same⟩ := scan_sound scanned
        rw [← same]
        exact .cons blank_nil valid tail
      next => cases read

theorem continues_space : ∀ b : Fin 256, isSpace b = true → continues b = false := by
  decide +kernel

theorem Lexeme.head (valid : lexeme.Valid) (s : GoString) :
    ∃ b rest, lexeme.bytes ++ s = b :: rest ∧ isSpace b = false ∧
      (lexeme.isNumber = false → continues b = false) := by
  cases lexeme with
  | mark m =>
    refine ⟨_, _, rfl, ?_, fun _ => ?_⟩
    · cases m <;> decide
    · cases m <;> decide
  | null => exact ⟨_, _, rfl, by decide, fun _ => by decide⟩
  | bool b =>
    cases b with
    | true => exact ⟨_, _, rfl, by decide, fun _ => by decide⟩
    | false => exact ⟨_, _, rfl, by decide, fun _ => by decide⟩
  | num literal =>
    obtain ⟨b, rest, shape, starts⟩ := Number.head (s := s) valid
    refine ⟨b, rest, shape, ?_, fun impossible => by cases impossible⟩
    have solid : ∀ b : Fin 256, isDigit b = true ∨ b = byte '-' → isSpace b = false := by
      decide +kernel
    exact solid b starts
  | str body => exact ⟨_, _, rfl, by decide, fun _ => by decide⟩

theorem Spells.stops {lexemes : List Lexeme} {s : GoString} (spells : Spells lexemes s)
    (apart : ∀ lexeme ∈ lexemes.head?, lexeme.isNumber = false) : Stops s := by
  intro b first
  cases spells with
  | nil isBlank => exact continues_space b (isBlank b (List.mem_of_head? first))
  | @cons lexeme lexemes blank rest isBlank valid tail =>
    cases blank with
    | cons c blank =>
      obtain rfl := Option.some.inj first
      exact continues_space c (isBlank c List.mem_cons_self)
    | nil =>
      obtain ⟨c, rest, shape, -, stop⟩ := Lexeme.head valid rest
      rw [List.nil_append, shape] at first
      obtain rfl := Option.some.inj first
      exact stop (apart lexeme rfl)

/-- The first word that a text is spelled with is the first that is read, if no two numbers
touch. -/
theorem next_of_spells {lexemes : List Lexeme} {s : GoString}
    (spells : Spells (lexeme :: lexemes) s)
    (apart : lexeme.isNumber = true → ∀ other ∈ lexemes.head?, other.isNumber = false) :
    ∃ rest, next s = .ok (lexeme, rest) ∧ Spells lexemes rest := by
  cases spells with
  | @cons _ _ blank rest isBlank valid tail =>
  refine ⟨rest, ?_, tail⟩
  obtain ⟨b, after, shape, solid, -⟩ := Lexeme.head valid rest
  rw [next_blank isBlank, shape, next, if_neg (by simp [solid]), ← shape,
    scan_complete valid fun number => tail.stops (apart number)]

theorem next_shorter {s rest : GoString} (read : next s = .ok (lexeme, rest)) :
    rest.length < s.length := by
  induction s with
  | nil => cases read
  | cons b s ih =>
    rw [next] at read
    split at read
    next => exact Nat.lt_succ_of_lt (ih read)
    next =>
      split at read
      next found scanned =>
        cases read
        obtain ⟨valid, same⟩ := scan_sound scanned
        obtain ⟨c, more, shape, -, -⟩ := Lexeme.head valid []
        rw [List.append_nil] at shape
        rw [← same, shape, List.length_append, List.length_cons]
        omega
      next => cases read

end OufMcp.Json
