import Mathlib.Algebra.Group.Nat.Defs
import OufMcp.Json.Runes

/-!
# Texts of UUIDs

Texts are matched byte by byte against a sequence of byte classes, the way an anchored
regular expression without repetition does it.  A UUID can be written in four forms, in
either case and with any version and variant; programs that agree on UUIDs need not agree
on their texts.
-/

namespace OufMcp.Identifier

open Json (GoString goString)

abbrev ByteClass := Fin 256 → Bool

def span (first last : Char) : ByteClass :=
  fun byte => decide (first.toNat ≤ byte.val ∧ byte.val ≤ last.toNat)

def single (c : Char) : ByteClass := span c c

def either (a b : ByteClass) : ByteClass := fun byte => a byte || b byte

/-- Every byte of a text is in the class at its place, and there are as many of both. -/
def full : List ByteClass → GoString → Bool
  | [], [] => true
  | place :: places, byte :: bytes => place byte && full places bytes
  | _, _ => false

theorem length_of_full {places : List ByteClass} {bytes : GoString}
    (whole : full places bytes = true) : bytes.length = places.length := by
  induction places generalizing bytes with
  | nil =>
    cases bytes with
    | nil => rfl
    | cons byte bytes => cases whole
  | cons place places ih =>
    cases bytes with
    | nil => cases whole
    | cons byte bytes =>
      rw [full, Bool.and_eq_true] at whole
      rw [List.length_cons, List.length_cons, ih whole.2]

/-- A text matches one sequence of classes exactly when it matches a wider one and the bytes
of every place pass what the narrower class asks for. -/
theorem full_narrow {wide narrow : List ByteClass} {extra : Nat → ByteClass}
    (same : wide.length = narrow.length)
    (narrows : ∀ index byte, index < wide.length →
      ((narrow.getD index fun _ => false) byte =
        ((wide.getD index fun _ => false) byte && extra index byte)))
    {bytes : GoString} (matched : full wide bytes = true) :
    full narrow bytes = true ↔ ∀ index byte, bytes[index]? = some byte →
      extra index byte = true := by
  induction wide generalizing narrow bytes extra with
  | nil =>
    obtain rfl := List.length_eq_zero_iff.mp same.symm
    cases bytes with
    | nil => simp [full]
    | cons byte bytes => cases matched
  | cons place wide ih =>
    cases narrow with
    | nil => cases same
    | cons strict narrow =>
      cases bytes with
      | nil => cases matched
      | cons byte bytes =>
        rw [full, Bool.and_eq_true] at matched ⊢
        have here := narrows 0 byte (Nat.succ_pos _)
        simp only [List.getD_cons_zero, matched.1, Bool.true_and] at here
        have later := @ih narrow (fun index => extra (index + 1)) (Nat.succ.inj same)
          (fun index byte bound => narrows (index + 1) byte (Nat.succ_lt_succ bound))
          bytes matched.2
        rw [here, later]
        constructor
        · rintro ⟨first, rest⟩ index found there
          cases index with
          | zero =>
            obtain rfl := Option.some.inj there
            exact first
          | succ index => exact rest index found there
        · intro all
          exact ⟨all 0 byte rfl, fun index found there => all (index + 1) found there⟩

/-! ## UUIDs -/

def lowerHex : ByteClass := either (span '0' '9') (span 'a' 'f')

def hexadecimal : ByteClass := either lowerHex (span 'A' 'F')

def grouped (digit : ByteClass) : List ByteClass :=
  List.replicate 8 digit ++ [single '-'] ++ List.replicate 4 digit ++ [single '-'] ++
    List.replicate 4 digit ++ [single '-'] ++ List.replicate 4 digit ++ [single '-'] ++
    List.replicate 12 digit

/-- Letter by letter, in either case. -/
def caseless (letters : List Char) : List ByteClass :=
  letters.map fun c => either (single c) (single c.toUpper)

def forms : List (List ByteClass) :=
  [grouped hexadecimal, caseless "urn:uuid:".toList ++ grouped hexadecimal,
    single '\x7b' :: grouped hexadecimal ++ [single '\x7d'], List.replicate 32 hexadecimal]

/-- The part of a UUID package that validates texts. -/
structure Package where
  validate : GoString → Bool
  validate_iff : ∀ text, validate text = true ↔ ∃ form ∈ forms, full form text = true

def Package.trying : Package where
  validate text := forms.any fun form => full form text
  validate_iff _ := List.any_eq_true

theorem Package.grouped_of_length (package : Package) {text : GoString}
    (valid : package.validate text = true) (plain : text.length = 36) :
    full (grouped hexadecimal) text = true := by
  obtain ⟨form, member, whole⟩ := (package.validate_iff text).mp valid
  have length := length_of_full whole
  rw [plain] at length
  simp only [forms, List.mem_cons, List.not_mem_nil, or_false] at member
  rcases member with rfl | rfl | rfl | rfl
  · exact whole
  all_goals cases length

/-! ## Canonical texts -/

def hexDigit (value : Nat) : Char := Char.ofNat (if value < 10 then 48 + value else 87 + value)

def hexDigits : Nat → Nat → List Char
  | 0, _ => []
  | width + 1, value => hexDigits width (value / 16) ++ [hexDigit (value % 16)]

def hyphenated (digits : List Char) : List Char :=
  digits.take 8 ++ '-' :: ((digits.drop 8).take 4 ++ '-' :: ((digits.drop 12).take 4 ++
    '-' :: ((digits.drop 16).take 4 ++ '-' :: digits.drop 20)))

/-- The lower case text with hyphens. -/
def canonicalText (id : BitVec 128) : String := String.ofList (hyphenated (hexDigits 32 id.toNat))

def hexValue (byte : Fin 256) : Nat := if byte.val < 58 then byte.val - 48 else byte.val - 87

def parseCanonical (text : String) : Option (BitVec 128) :=
  let bytes := goString text
  if full (grouped lowerHex) bytes then
    some (BitVec.ofNat 128 ((bytes.filter fun byte => !single '-' byte).foldl
      (fun value byte => 16 * value + hexValue byte) 0))
  else none

theorem hexDigit_injective {a b : Nat} (low : a < 16) (high : b < 16)
    (same : hexDigit a = hexDigit b) : a = b := by
  have all : ∀ a b : Fin 16, hexDigit a.val = hexDigit b.val → a = b := by decide
  exact congrArg Fin.val (all ⟨a, low⟩ ⟨b, high⟩ same)

theorem hexDigits_injective {width a b : Nat} (same : hexDigits width a = hexDigits width b) :
    a % 16 ^ width = b % 16 ^ width := by
  induction width generalizing a b with
  | zero => simp [Nat.mod_one]
  | succ width ih =>
    obtain ⟨front, last⟩ := List.append_inj' same rfl
    have low := hexDigit_injective (Nat.mod_lt _ (by decide)) (Nat.mod_lt _ (by decide))
      (List.singleton_inj.mp last)
    rw [Nat.pow_succ', Nat.mod_mul, Nat.mod_mul, low, ih front]

theorem mem_hexDigits {width value : Nat} {c : Char} (member : c ∈ hexDigits width value) :
    ∃ digit < 16, c = hexDigit digit := by
  induction width generalizing value with
  | zero => cases member
  | succ width ih =>
    rcases List.mem_append.mp member with front | last
    · exact ih front
    · exact ⟨value % 16, Nat.mod_lt _ (by decide), List.mem_singleton.mp last⟩

theorem hyphen_not_mem_hexDigits (width value : Nat) : '-' ∉ hexDigits width value := by
  intro member
  obtain ⟨digit, low, dash⟩ := mem_hexDigits member
  have none : ∀ digit : Fin 16, '-' ≠ hexDigit digit.val := by decide
  exact none ⟨digit, low⟩ dash

theorem filter_hyphenated {digits : List Char} (plain : '-' ∉ digits) :
    (hyphenated digits).filter (· ≠ '-') = digits := by
  have keep {part : List Char} (inside : part.Sublist digits) : part.filter (· ≠ '-') = part := by
    refine List.filter_eq_self.mpr fun c member => ?_
    simp only [ne_eq, decide_eq_true_eq]
    rintro rfl
    exact plain (inside.subset member)
  have middle (n m : Nat) : ((digits.drop n).take m).filter (· ≠ '-') = (digits.drop n).take m :=
    keep ((List.take_sublist _ _).trans (List.drop_sublist _ _))
  unfold hyphenated
  simp only [List.filter_append, keep (List.take_sublist _ _), middle, keep (List.drop_sublist _ _),
    List.filter_cons, ne_eq, not_true_eq_false, decide_false, Bool.false_eq_true, if_false]
  have join (n m : Nat) : (digits.drop n).take m ++ digits.drop (n + m) = digits.drop n := by
    rw [← List.drop_drop, List.take_append_drop]
  rw [join 16 4, join 12 4, join 8 4, List.take_append_drop]

theorem mem_canonicalText {id : BitVec 128} {c : Char} (member : c ∈ (canonicalText id).toList) :
    c = '-' ∨ ∃ digit < 16, c = hexDigit digit := by
  rw [canonicalText, String.toList_ofList] at member
  by_cases dash : c = '-'
  · exact .inl dash
  · have kept : c ∈ (hyphenated (hexDigits 32 id.toNat)).filter (· ≠ '-') :=
      List.mem_filter.mpr ⟨member, decide_eq_true dash⟩
    rw [filter_hyphenated (hyphen_not_mem_hexDigits _ _)] at kept
    exact .inr (mem_hexDigits kept)

theorem hyphen_mem_canonicalText (id : BitVec 128) : '-' ∈ (canonicalText id).toList := by
  rw [canonicalText, String.toList_ofList, hyphenated]
  simp

theorem canonicalText_injective : Function.Injective canonicalText := by
  intro a b same
  have digits := congrArg (List.filter (· ≠ '-')) (String.ofList_injective same)
  rw [filter_hyphenated (hyphen_not_mem_hexDigits _ _),
    filter_hyphenated (hyphen_not_mem_hexDigits _ _)] at digits
  have values := hexDigits_injective digits
  have below (value : BitVec 128) : value.toNat % 16 ^ 32 = value.toNat :=
    Nat.mod_eq_of_lt value.isLt
  rw [below, below] at values
  exact BitVec.eq_of_toNat_eq values

end OufMcp.Identifier
