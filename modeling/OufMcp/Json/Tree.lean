import OufMcp.Json.Text

/-!
# JSON documents

Documents as trees, with the members of an object in the order and number in which
they stand, and the text that `encoding/json` writes for them.  The text determines
the tree.
-/

namespace OufMcp.Json

/-- A JSON document over the given texts and numbers. -/
inductive Value (τ ν : Type) where
  | null
  | bool (b : Bool)
  | num (n : ν)
  | str (s : τ)
  | arr (items : List (Value τ ν))
  | obj (members : List (τ × Value τ ν))

variable {τ ν : Type}

/-- Induction over a document, with the hypothesis for every item and every member. -/
theorem Value.induction {P : Value τ ν → Prop} (null : P .null) (bool : ∀ b, P (.bool b))
    (num : ∀ n, P (.num n)) (str : ∀ s, P (.str s))
    (arr : ∀ items, (∀ item ∈ items, P item) → P (.arr items))
    (obj : ∀ members, (∀ member ∈ members, P member.2) → P (.obj members)) :
    ∀ value, P value := by
  intro value
  refine @Value.rec τ ν P (fun items => ∀ item ∈ items, P item)
    (fun members => ∀ member ∈ members, P member.2) (fun member => P member.2)
    null bool num str arr obj ?_ ?_ ?_ ?_ ?_ value
  · exact nofun
  · intro first rest here there item member
    rcases List.mem_cons.mp member with rfl | later
    · exact here
    · exact there item later
  · exact nofun
  · intro first rest here there member among
    rcases List.mem_cons.mp among with rfl | later
    · exact here
    · exact there member later
  · intro name value here
    exact here

mutual

/-- How many arrays and objects stand in one another. -/
def Value.depth : Value τ ν → Nat
  | .null | .bool _ | .num _ | .str _ => 0
  | .arr items => itemsDepth items + 1
  | .obj members => membersDepth members + 1

def itemsDepth : List (Value τ ν) → Nat
  | [] => 0
  | item :: rest => max item.depth (itemsDepth rest)

def membersDepth : List (τ × Value τ ν) → Nat
  | [] => 0
  | (_, value) :: rest => max value.depth (membersDepth rest)

end

/-- The most arrays and objects that the scanner lets stand in one another. -/
def maxNestingDepth : Nat := 10000

/-! ## Numerals -/

def numeric (c : Char) : Bool :=
  c.isDigit || c == '-' || c == '+' || c == '.' || c == 'e' || c == 'E'

structure Numerals (ν : Type) where
  print : ν → List Char
  injective : Function.Injective print
  numeric : ∀ n, ∀ c ∈ print n, numeric c = true
  leads : ∀ n, ∃ c rest, print n = c :: rest ∧ (c.isDigit = true ∨ c = '-')

/-- What follows does not continue a number. -/
def Ends (rest : List Char) : Prop := ∀ c ∈ rest.head?, numeric c = false

theorem Numerals.append_inj (numerals : Numerals ν) {a b : ν} {x y : List Char} (endX : Ends x)
    (endY : Ends y) (same : numerals.print a ++ x = numerals.print b ++ y) : a = b ∧ x = y := by
  have span : ∀ (n : ν) (rest : List Char), Ends rest →
      (numerals.print n ++ rest).takeWhile Json.numeric = numerals.print n := by
    intro n rest ends
    rw [List.takeWhile_append_of_pos (numerals.numeric n)]
    cases rest with
    | nil => simp
    | cons c rest =>
      have stop : Json.numeric c = false := ends c rfl
      simp [stop]
  have read := congrArg (List.takeWhile Json.numeric) same
  rw [span a x endX, span b y endY] at read
  refine ⟨numerals.injective read, ?_⟩
  rw [read] at same
  exact List.append_cancel_left same

def integers : Numerals Int where
  print
    | .ofNat n => Nat.toDigits 10 n
    | .negSucc n => '-' :: Nat.toDigits 10 (n + 1)
  injective := by
    have digits : ∀ {m n : Nat}, Nat.toDigits 10 m = Nat.toDigits 10 n → m = n := by
      intro m n same
      have read := congrArg (fun l => Nat.ofDigitChars 10 l 0) same
      simpa only [Nat.ofDigitChars_ten_toDigits] using read
    have signed : ∀ m n : Nat, Nat.toDigits 10 m ≠ '-' :: Nat.toDigits 10 n := by
      intro m n same
      have digit := Nat.isDigit_of_mem_toDigits (b := 10) (n := m) (by decide) (by decide)
        (same ▸ List.mem_cons_self)
      exact absurd digit (by decide)
    intro a b same
    cases a with
    | ofNat m =>
      cases b with
      | ofNat n => exact congrArg Int.ofNat (digits same)
      | negSucc n => exact absurd same (signed m (n + 1))
    | negSucc m =>
      cases b with
      | ofNat n => exact absurd same.symm (signed n (m + 1))
      | negSucc n =>
        have equal := digits (List.cons.inj same).2
        exact congrArg Int.negSucc (Nat.succ.inj equal)
  numeric := by
    have digits : ∀ (n : Nat), ∀ c ∈ Nat.toDigits 10 n, Json.numeric c = true := by
      intro n c member
      have digit := Nat.isDigit_of_mem_toDigits (by decide) (by decide) member
      simp [Json.numeric, digit]
    intro n c member
    cases n with
    | ofNat n => exact digits n c member
    | negSucc n =>
      rcases List.mem_cons.mp member with rfl | later
      · decide
      · exact digits (n + 1) c later
  leads := by
    intro n
    cases n with
    | ofNat n =>
      cases shown : Nat.toDigits 10 n with
      | nil => exact absurd shown Nat.toDigits_ne_nil
      | cons c rest =>
        exact ⟨c, rest, shown, .inl (Nat.isDigit_of_mem_toDigits (b := 10) (n := n)
          (by decide) (by decide) (shown ▸ List.mem_cons_self))⟩
    | negSucc n => exact ⟨'-', Nat.toDigits 10 (n + 1), rfl, .inr rfl⟩

/-! ## Rendering -/

def joinedRest : List (List Char) → List Char
  | [] => []
  | part :: rest => ',' :: part ++ joinedRest rest

def joined : List (List Char) → List Char
  | [] => []
  | part :: rest => part ++ joinedRest rest

section Rendering

variable (text : τ → Text) (numerals : Numerals ν)

mutual

/-- The text of a document, without any white space. -/
def render : Value τ ν → List Char
  | .null => ['n', 'u', 'l', 'l']
  | .bool true => ['t', 'r', 'u', 'e']
  | .bool false => ['f', 'a', 'l', 's', 'e']
  | .num n => numerals.print n
  | .str s => quote (text s)
  | .arr items => '[' :: joined (renderItems items) ++ [']']
  | .obj members => '\x7b' :: joined (renderMembers members) ++ ['\x7d']

def renderItems : List (Value τ ν) → List (List Char)
  | [] => []
  | item :: rest => render item :: renderItems rest

def renderMembers : List (τ × Value τ ν) → List (List Char)
  | [] => []
  | (name, value) :: rest => (quote (text name) ++ ':' :: render value) :: renderMembers rest

end

def renderMember (member : τ × Value τ ν) : List Char :=
  quote (text member.1) ++ ':' :: render text numerals member.2

theorem renderItems_eq (items : List (Value τ ν)) :
    renderItems text numerals items = items.map (render text numerals) := by
  induction items with
  | nil => rfl
  | cons item rest ih => rw [renderItems, ih, List.map_cons]

theorem renderMembers_eq (members : List (τ × Value τ ν)) :
    renderMembers text numerals members = members.map (renderMember text numerals) := by
  induction members with
  | nil => rfl
  | cons member rest ih => rw [renderMembers, ih, List.map_cons, renderMember]

end Rendering

/-! ## The text determines the document -/

theorem ends_cons {c : Char} (stop : numeric c = false) (rest : List Char) : Ends (c :: rest) := by
  intro d first
  obtain rfl := Option.some.inj first
  exact stop

section Joined

variable {α : Type} {encode : α → List Char} {close : Char} {x y : List Char}

/-- Whatever follows that does not continue a number, the part can be read back. -/
def Reads (encode : α → List Char) (a : α) : Prop :=
  ∀ b x y, Ends x → Ends y → encode a ++ x = encode b ++ y → a = b ∧ x = y

theorem ends_joinedRest (stop : numeric close = false) (parts : List (List Char)) :
    Ends (joinedRest parts ++ close :: x) := by
  cases parts with
  | nil => exact ends_cons stop x
  | cons part rest => exact ends_cons (by decide) _

theorem joinedRest_append_inj (notComma : close ≠ ',') (stop : numeric close = false) :
    ∀ {as bs : List α}, (∀ a ∈ as, Reads encode a) →
      joinedRest (as.map encode) ++ close :: x = joinedRest (bs.map encode) ++ close :: y →
      as = bs ∧ x = y := by
  intro as
  induction as with
  | nil =>
    intro bs _ same
    cases bs with
    | nil => exact ⟨rfl, (List.cons.inj same).2⟩
    | cons b bs => exact absurd (List.cons.inj same).1 notComma
  | cons a as ih =>
    intro bs reads same
    cases bs with
    | nil => exact absurd (List.cons.inj same).1.symm notComma
    | cons b bs =>
      simp only [List.map_cons, joinedRest, List.cons_append, List.append_assoc] at same
      obtain ⟨rfl, tail⟩ := reads a List.mem_cons_self b _ _ (ends_joinedRest stop _)
        (ends_joinedRest stop _) (List.cons.inj same).2
      obtain ⟨rfl, rfl⟩ := ih (fun a member => reads a (List.mem_cons_of_mem _ member)) tail
      exact ⟨rfl, rfl⟩

theorem joined_append_inj (notComma : close ≠ ',') (stop : numeric close = false)
    (head : ∀ a, ∃ c rest, encode a = c :: rest ∧ c ≠ close) {as bs : List α}
    (reads : ∀ a ∈ as, Reads encode a)
    (same : joined (as.map encode) ++ close :: x = joined (bs.map encode) ++ close :: y) :
    as = bs ∧ x = y := by
  cases as with
  | nil =>
    cases bs with
    | nil => exact ⟨rfl, (List.cons.inj same).2⟩
    | cons b bs =>
      obtain ⟨c, rest, starts, differ⟩ := head b
      rw [List.map_cons, joined, starts] at same
      exact absurd (List.cons.inj same).1.symm differ
  | cons a as =>
    cases bs with
    | nil =>
      obtain ⟨c, rest, starts, differ⟩ := head a
      rw [List.map_cons, joined, starts] at same
      exact absurd (List.cons.inj same).1 differ
    | cons b bs =>
      simp only [List.map_cons, joined, List.append_assoc] at same
      obtain ⟨rfl, tail⟩ := reads a List.mem_cons_self b _ _ (ends_joinedRest stop _)
        (ends_joinedRest stop _) same
      obtain ⟨rfl, rfl⟩ := joinedRest_append_inj notComma stop
        (fun a member => reads a (List.mem_cons_of_mem _ member)) tail
      exact ⟨rfl, rfl⟩

end Joined

/-! ### The first character -/

inductive Kind where
  | null
  | bool (b : Bool)
  | num
  | str
  | arr
  | obj
  deriving DecidableEq

def Value.kind : Value τ ν → Kind
  | .null => .null
  | .bool b => .bool b
  | .num _ => .num
  | .str _ => .str
  | .arr _ => .arr
  | .obj _ => .obj

def kindOf (c : Char) : Option Kind :=
  if c.isDigit || c == '-' then some .num
  else if c = 'n' then some .null
  else if c = 't' then some (.bool true)
  else if c = 'f' then some (.bool false)
  else if c = '"' then some .str
  else if c = '[' then some .arr
  else if c = '\x7b' then some .obj
  else none

section Readable

variable {text : τ → Text} {numerals : Numerals ν}

theorem render_kind (value : Value τ ν) :
    ∃ c rest, render text numerals value = c :: rest ∧ kindOf c = some value.kind := by
  cases value with
  | null => exact ⟨_, _, rfl, rfl⟩
  | bool b =>
    cases b with
    | true => exact ⟨_, _, rfl, rfl⟩
    | false => exact ⟨_, _, rfl, rfl⟩
  | num n =>
    obtain ⟨c, rest, shown, leads⟩ := numerals.leads n
    refine ⟨c, rest, by rw [render, shown], if_pos ?_⟩
    rcases leads with digit | rfl
    · rw [digit]
      rfl
    · decide
  | str s => exact ⟨_, _, rfl, rfl⟩
  | arr items => exact ⟨_, _, by rw [render]; rfl, rfl⟩
  | obj members => exact ⟨_, _, by rw [render]; rfl, rfl⟩

theorem kind_of_append {a b : Value τ ν} {x y : List Char}
    (same : render text numerals a ++ x = render text numerals b ++ y) : a.kind = b.kind := by
  have left : ∃ c rest, render text numerals a = c :: rest ∧ kindOf c = some a.kind :=
    render_kind a
  have right : ∃ c rest, render text numerals b = c :: rest ∧ kindOf c = some b.kind :=
    render_kind b
  obtain ⟨c, rest, shown, kind⟩ := left
  obtain ⟨d, tail, also, other⟩ := right
  rw [shown, also] at same
  obtain rfl := (List.cons.inj same).1
  exact Option.some.inj (kind.symm.trans other)

theorem render_ne_bracket (value : Value τ ν) :
    ∃ c rest, render text numerals value = c :: rest ∧ c ≠ ']' := by
  have starts : ∃ c rest, render text numerals value = c :: rest ∧ kindOf c = some value.kind :=
    render_kind value
  obtain ⟨c, rest, shown, kind⟩ := starts
  refine ⟨c, rest, shown, ?_⟩
  rintro rfl
  cases kind

theorem renderMember_reads (injective : Function.Injective text) {member : τ × Value τ ν}
    (reads : Reads (render text numerals) member.2) :
    Reads (renderMember text numerals) member := by
  intro other x y endX endY same
  unfold renderMember at same
  rw [List.append_assoc, List.append_assoc] at same
  obtain ⟨name, rest⟩ := quote_append_inj same
  obtain ⟨value, tail⟩ := reads other.2 x y endX endY (List.cons.inj rest).2
  exact ⟨Prod.ext (injective name) value, tail⟩

/-- The text of a document tells the document and where it ends. -/
theorem render_reads (injective : Function.Injective text) (value : Value τ ν) :
    Reads (render text numerals) value := by
  induction value using Value.induction with
  | null =>
    intro other x y _ _ same
    have kinds := kind_of_append same
    cases other <;> cases kinds
    exact ⟨rfl, List.append_cancel_left same⟩
  | bool b =>
    intro other x y _ _ same
    have kinds := kind_of_append same
    cases other <;> cases kinds
    exact ⟨rfl, List.append_cancel_left same⟩
  | num n =>
    intro other x y endX endY same
    have kinds := kind_of_append same
    cases other <;> cases kinds
    obtain ⟨rfl, tail⟩ := numerals.append_inj endX endY same
    exact ⟨rfl, tail⟩
  | str s =>
    intro other x y _ _ same
    have kinds := kind_of_append same
    cases other <;> cases kinds
    obtain ⟨equal, tail⟩ := quote_append_inj same
    exact ⟨congrArg Value.str (injective equal), tail⟩
  | arr items ih =>
    intro other x y _ _ same
    have kinds := kind_of_append same
    cases other <;> cases kinds
    simp only [render, renderItems_eq, List.cons_append, List.append_assoc,
      List.nil_append] at same
    obtain ⟨equal, tail⟩ := joined_append_inj (by decide) (by decide) render_ne_bracket ih
      (List.cons.inj same).2
    exact ⟨congrArg Value.arr equal, tail⟩
  | obj members ih =>
    intro other x y _ _ same
    have kinds := kind_of_append same
    cases other <;> cases kinds
    simp only [render, renderMembers_eq, List.cons_append, List.append_assoc,
      List.nil_append] at same
    obtain ⟨equal, tail⟩ := joined_append_inj (by decide) (by decide)
      (fun member => ⟨'"', _, rfl, by decide⟩)
      (fun member among => renderMember_reads injective (ih member among))
      (List.cons.inj same).2
    exact ⟨congrArg Value.obj equal, tail⟩

theorem render_injective (injective : Function.Injective text) :
    Function.Injective (render text numerals) := by
  intro a b same
  have ends : Ends [] := by
    exact nofun
  exact (render_reads injective a b [] [] ends ends (by rw [same])).1

end Readable

end OufMcp.Json
