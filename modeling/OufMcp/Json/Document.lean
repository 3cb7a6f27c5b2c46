import OufMcp.Json.Canonical
import OufMcp.Json.Record
import OufMcp.Json.Unquote

/-!
# Documents as they are written

A document with its names, strings and numbers as they stand in the text, the words that
spell it, and what it means.  `json.Unmarshal` into an `any` reads the document of a text,
unless it is nested too deeply, and keeps the last member of each name.
-/

namespace OufMcp.Json

/-- A document with its names, strings and numbers as they are written. -/
abbrev Written := Value GoString GoString

/-! ## Words -/

def afterCommas : List (List Lexeme) → List Lexeme
  | [] => []
  | part :: rest => .mark .comma :: (part ++ afterCommas rest)

def separated : List (List Lexeme) → List Lexeme
  | [] => []
  | part :: rest => part ++ afterCommas rest

mutual

def Value.lexemes : Written → List Lexeme
  | .null => [.null]
  | .bool b => [.bool b]
  | .num literal => [.num literal]
  | .str body => [.str body]
  | .arr items => .mark .beginArray :: (separated (itemLexemes items) ++ [.mark .endArray])
  | .obj members =>
    .mark .beginObject :: (separated (memberLexemes members) ++ [.mark .endObject])

def itemLexemes : List Written → List (List Lexeme)
  | [] => []
  | item :: rest => item.lexemes :: itemLexemes rest

def memberLexemes : List (GoString × Written) → List (List Lexeme)
  | [] => []
  | (name, value) :: rest =>
    (.str name :: .mark .colon :: value.lexemes) :: memberLexemes rest

end

/-! ## Meaning -/

mutual

/-- The document with its names and strings as they read. -/
def Value.decoded : Written → Value String GoString
  | .null => .null
  | .bool b => .bool b
  | .num literal => .num literal
  | .str body => .str (unquote body)
  | .arr items => .arr (decodedItems items)
  | .obj members => .obj (decodedMembers members)

def decodedItems : List Written → List (Value String GoString)
  | [] => []
  | item :: rest => item.decoded :: decodedItems rest

def decodedMembers : List (GoString × Written) → Members GoString
  | [] => []
  | (name, value) :: rest => (unquote name, value.decoded) :: decodedMembers rest

end

mutual

/-- What an `any` holds of a document: a map has one value for each name, the last. -/
def Value.interface : Value String GoString → Value String GoString
  | .null => .null
  | .bool b => .bool b
  | .num literal => .num literal
  | .str s => .str s
  | .arr items => .arr (interfaceItems items)
  | .obj members => .obj (lastWins (interfaceMembers members))

def interfaceItems : List (Value String GoString) → List (Value String GoString)
  | [] => []
  | item :: rest => item.interface :: interfaceItems rest

def interfaceMembers : Members GoString → Members GoString
  | [] => []
  | (name, value) :: rest => (name, value.interface) :: interfaceMembers rest

end

theorem lastWins_eq_self {α : Type} {members : List (String × α)}
    (nodup : (members.map Prod.fst).Nodup) : lastWins members = members := by
  induction members with
  | nil => rfl
  | cons member rest ih =>
    rw [List.map_cons, List.nodup_cons] at nodup
    rw [lastWins, if_neg nodup.1, ih nodup.2]

theorem uniqueItems_eq_true {ν : Type} {items : List (Value String ν)} :
    uniqueItems items = true ↔ ∀ item ∈ items, item.unique = true := by
  induction items with
  | nil => simp [uniqueItems]
  | cons item rest ih => rw [uniqueItems, Bool.and_eq_true, ih, List.forall_mem_cons]

theorem interfaceItems_eq_self {items : List (Value String GoString)}
    (same : ∀ item ∈ items, item.interface = item) : interfaceItems items = items := by
  induction items with
  | nil => rfl
  | cons item rest ih =>
    rw [List.forall_mem_cons] at same
    rw [interfaceItems, same.1, ih same.2]

theorem interfaceMembers_eq_self {members : Members GoString}
    (same : ∀ member ∈ members, member.2.interface = member.2) :
    interfaceMembers members = members := by
  induction members with
  | nil => rfl
  | cons member rest ih =>
    rw [List.forall_mem_cons] at same
    rw [interfaceMembers, same.1, ih same.2]

theorem Value.interface_of_unique {value : Value String GoString} (unique : value.unique = true) :
    value.interface = value := by
  induction value using Value.induction with
  | null => rfl
  | bool b => rfl
  | num literal => rfl
  | str s => rfl
  | arr items ih =>
    rw [Value.unique, uniqueItems_eq_true] at unique
    rw [Value.interface, interfaceItems_eq_self fun item member => ih item member
      (unique item member)]
  | obj members ih =>
    obtain ⟨nodup, inner⟩ := unique_obj.mp unique
    rw [Value.interface, interfaceMembers_eq_self fun member among => ih member among
      (inner member among), lastWins_eq_self nodup]

theorem itemsDepth_decoded {items : List Written}
    (same : ∀ item ∈ items, item.decoded.depth = item.depth) :
    itemsDepth (decodedItems items) = itemsDepth items := by
  induction items with
  | nil => rfl
  | cons item rest ih =>
    rw [List.forall_mem_cons] at same
    rw [decodedItems, itemsDepth, itemsDepth, same.1, ih same.2]

theorem membersDepth_decoded {members : List (GoString × Written)}
    (same : ∀ member ∈ members, member.2.decoded.depth = member.2.depth) :
    membersDepth (decodedMembers members) = membersDepth members := by
  induction members with
  | nil => rfl
  | cons member rest ih =>
    rw [List.forall_mem_cons] at same
    rw [decodedMembers, membersDepth, membersDepth, same.1, ih same.2]

theorem Value.depth_decoded (document : Written) : document.decoded.depth = document.depth := by
  induction document using Value.induction with
  | null => rfl
  | bool b => rfl
  | num literal => rfl
  | str body => rfl
  | arr items ih => rw [Value.decoded, Value.depth, Value.depth, itemsDepth_decoded ih]
  | obj members ih => rw [Value.decoded, Value.depth, Value.depth, membersDepth_decoded ih]

/-! ## Reading -/

mutual

def parseValue : Nat → GoString → Option (Written × GoString)
  | 0, _ => none
  | fuel + 1, s =>
    match next s with
    | .ok (.null, rest) => some (.null, rest)
    | .ok (.bool b, rest) => some (.bool b, rest)
    | .ok (.num literal, rest) => some (.num literal, rest)
    | .ok (.str body, rest) => some (.str body, rest)
    | .ok (.mark .beginArray, rest) =>
      match next rest with
      | .ok (.mark .endArray, after) => some (.arr [], after)
      | _ => parseItems fuel [] rest
    | .ok (.mark .beginObject, rest) =>
      match next rest with
      | .ok (.mark .endObject, after) => some (.obj [], after)
      | _ => parseMembers fuel [] rest
    | _ => none

/-- An array of which some items were read, from its next item on. -/
def parseItems : Nat → List Written → GoString → Option (Written × GoString)
  | 0, _, _ => none
  | fuel + 1, items, s =>
    match parseValue fuel s with
    | some (item, rest) =>
      match next rest with
      | .ok (.mark .comma, after) => parseItems fuel (items ++ [item]) after
      | .ok (.mark .endArray, after) => some (.arr (items ++ [item]), after)
      | _ => none
    | none => none

/-- An object of which some members were read, from its next member on. -/
def parseMembers : Nat → List (GoString × Written) → GoString → Option (Written × GoString)
  | 0, _, _ => none
  | fuel + 1, members, s =>
    match next s with
    | .ok (.str name, named) =>
      match next named with
      | .ok (.mark .colon, begun) =>
        match parseValue fuel begun with
        | some (value, rest) =>
          match next rest with
          | .ok (.mark .comma, after) =>
            parseMembers fuel (members ++ [(name, value)]) after
          | .ok (.mark .endObject, after) =>
            some (.obj (members ++ [(name, value)]), after)
          | _ => none
        | none => none
      | _ => none
    | _ => none

end

/-- `json.Unmarshal` into an `any`, with numbers as they are written. -/
def unmarshal (raw : GoString) : Option (Value String GoString) := do
  let (document, rest) ← parseValue (2 * raw.length) raw
  match next rest with
  | .error .eof =>
    if document.depth ≤ maxNestingDepth then some document.decoded.interface else none
  | _ => none

/-! ### What is read is what is spelled -/

/-- Whatever spells the rest, with the words in front of it, spells the text. -/
def Leads (lexemes : List Lexeme) (s rest : GoString) : Prop :=
  ∀ more, Spells more rest → Spells (lexemes ++ more) s

theorem leads_of_next {s rest : GoString} {lexeme : Lexeme} (read : next s = .ok (lexeme, rest)) :
    Leads [lexeme] s rest :=
  fun _ tail => spells_of_next read tail

theorem Leads.trans {first second : List Lexeme} {s middle rest : GoString}
    (begins : Leads first s middle) (goes : Leads second middle rest) :
    Leads (first ++ second) s rest := by
  intro more tail
  rw [List.append_assoc]
  exact begins _ (goes more tail)

theorem Leads.cons {lexeme : Lexeme} {lexemes : List Lexeme} {s middle rest : GoString}
    (read : next s = .ok (lexeme, middle)) (goes : Leads lexemes middle rest) :
    Leads (lexeme :: lexemes) s rest :=
  (leads_of_next read).trans goes

/-! ### What is spelled is read -/

def Follows (more : List Lexeme) : Prop := ∀ lexeme ∈ more.head?, lexeme.isNumber = false

theorem follows_cons {lexeme : Lexeme} {more : List Lexeme} (other : lexeme.isNumber = false) :
    Follows (lexeme :: more) := by
  intro first same
  obtain rfl := Option.some.inj same
  exact other

theorem follows_nil : Follows [] := by
  exact nofun

theorem next_word {lexeme : Lexeme} {more : List Lexeme} {s : GoString}
    (other : lexeme.isNumber = false) (spells : Spells (lexeme :: more) s) :
    ∃ rest, next s = .ok (lexeme, rest) ∧ Spells more rest := by
  refine next_of_spells spells ?_
  intro number
  rw [other] at number
  cases number

/-- The fuel suffices to read the document wherever it is spelled. -/
def ParseComplete (document : Written) : Prop :=
  ∀ fuel s more, Spells (document.lexemes ++ more) s → Follows more →
    2 * document.lexemes.length ≤ fuel →
    ∃ rest, parseValue fuel s = some (document, rest) ∧ Spells more rest

theorem length_afterCommas (part : List Lexeme) (rest : List (List Lexeme)) :
    (afterCommas (part :: rest)).length = (separated (part :: rest)).length + 1 := rfl

theorem length_separated (part : List Lexeme) (rest : List (List Lexeme)) :
    (separated (part :: rest)).length = part.length + (afterCommas rest).length := by
  rw [separated, List.length_append]

theorem follows_afterCommas {parts : List (List Lexeme)} {m : Mark} {more : List Lexeme} :
    Follows (afterCommas parts ++ .mark m :: more) := by
  cases parts with
  | nil => exact follows_cons rfl
  | cons part rest => exact follows_cons rfl

theorem parseItems_complete {item : Written} {others items : List Written} {fuel : Nat}
    {s : GoString} {more : List Lexeme} (complete : ∀ one ∈ item :: others, ParseComplete one)
    (spells : Spells (separated (itemLexemes (item :: others)) ++ .mark .endArray :: more) s)
    (enough : 2 * (separated (itemLexemes (item :: others))).length + 1 ≤ fuel) :
    ∃ rest, parseItems fuel items s = some (.arr (items ++ item :: others), rest) ∧
      Spells more rest := by
  induction others generalizing item items fuel s with
  | nil =>
    cases fuel with
    | zero => cases enough
    | succ fuel =>
      rw [itemLexemes, length_separated] at enough
      rw [itemLexemes, separated, List.append_assoc] at spells
      obtain ⟨middle, here, tail⟩ := complete item List.mem_cons_self fuel _ _ spells
        follows_afterCommas (by omega)
      obtain ⟨rest, last, left⟩ := next_word rfl tail
      exact ⟨rest, by rw [parseItems, here]; dsimp only; rw [last], left⟩
  | cons following others ih =>
    cases fuel with
    | zero => cases enough
    | succ fuel =>
      rw [itemLexemes, length_separated, itemLexemes, length_afterCommas, ← itemLexemes]
        at enough
      rw [itemLexemes, separated, List.append_assoc] at spells
      obtain ⟨middle, here, tail⟩ := complete item List.mem_cons_self fuel _ _ spells
        follows_afterCommas (by omega)
      obtain ⟨after, comma, begun⟩ := next_word rfl tail
      obtain ⟨rest, goes, left⟩ := @ih following (items ++ [item]) fuel after
        (fun one member => complete one (List.mem_cons_of_mem _ member)) begun (by omega)
      refine ⟨rest, ?_, left⟩
      rw [parseItems, here]
      dsimp only
      rw [comma]
      dsimp only
      rw [goes, List.append_assoc]
      rfl

theorem parseMembers_complete {member : GoString × Written}
    {others members : List (GoString × Written)} {fuel : Nat} {s : GoString} {more : List Lexeme}
    (complete : ∀ one ∈ member :: others, ParseComplete one.2)
    (spells : Spells (separated (memberLexemes (member :: others)) ++ .mark .endObject :: more) s)
    (enough : 2 * (separated (memberLexemes (member :: others))).length + 1 ≤ fuel) :
    ∃ rest, parseMembers fuel members s = some (.obj (members ++ member :: others), rest) ∧
      Spells more rest := by
  induction others generalizing member members fuel s with
  | nil =>
    obtain ⟨name, value⟩ := member
    cases fuel with
    | zero => cases enough
    | succ fuel =>
      rw [memberLexemes, length_separated, List.length_cons, List.length_cons] at enough
      rw [memberLexemes, separated, List.append_assoc] at spells
      obtain ⟨named, first, spells⟩ := next_word rfl spells
      obtain ⟨begun, colon, spells⟩ := next_word rfl spells
      obtain ⟨middle, here, tail⟩ := complete (name, value) List.mem_cons_self fuel _ _ spells
        follows_afterCommas (by dsimp only; omega)
      obtain ⟨rest, last, left⟩ := next_word rfl tail
      refine ⟨rest, ?_, left⟩
      simp only [parseMembers, first, colon, here, last]
  | cons following others ih =>
    obtain ⟨name, value⟩ := member
    obtain ⟨title, content⟩ := following
    cases fuel with
    | zero => cases enough
    | succ fuel =>
      rw [memberLexemes, length_separated, List.length_cons, List.length_cons,
        memberLexemes, length_afterCommas, ← memberLexemes] at enough
      rw [memberLexemes, separated, List.append_assoc] at spells
      obtain ⟨named, first, spells⟩ := next_word rfl spells
      obtain ⟨begun, colon, spells⟩ := next_word rfl spells
      obtain ⟨middle, here, tail⟩ := complete (name, value) List.mem_cons_self fuel _ _ spells
        follows_afterCommas (by dsimp only; omega)
      obtain ⟨after, comma, begun⟩ := next_word rfl tail
      obtain ⟨rest, goes, left⟩ := @ih (title, content) (members ++ [(name, value)]) fuel after
        (fun one among => complete one (List.mem_cons_of_mem _ among)) begun (by omega)
      refine ⟨rest, ?_, left⟩
      simp only [parseMembers, first, colon, here, comma, goes, List.append_assoc,
        List.singleton_append]

theorem parseItems_end {fuel : Nat} {items : List Written} {s after : GoString}
    (last : next s = .ok (.mark .endArray, after)) : parseItems fuel items s = none := by
  cases fuel with
  | zero => rfl
  | succ fuel =>
    have nothing : parseValue fuel s = none := by
      cases fuel with
      | zero => rfl
      | succ fuel => rw [parseValue, last]
    rw [parseItems, nothing]

theorem parseMembers_end {fuel : Nat} {members : List (GoString × Written)} {s after : GoString}
    (last : next s = .ok (.mark .endObject, after)) : parseMembers fuel members s = none := by
  cases fuel with
  | zero => rfl
  | succ fuel => rw [parseMembers, last]

theorem parse_complete (document : Written) : ParseComplete document := by
  induction document using Value.induction with
  | null =>
    intro fuel s more spells _ enough
    obtain ⟨rest, read, tail⟩ := next_word rfl spells
    cases fuel with
    | zero => cases enough
    | succ fuel => exact ⟨rest, by rw [parseValue, read], tail⟩
  | bool b =>
    intro fuel s more spells _ enough
    obtain ⟨rest, read, tail⟩ := next_word rfl spells
    cases fuel with
    | zero => cases enough
    | succ fuel => exact ⟨rest, by rw [parseValue, read], tail⟩
  | num literal =>
    intro fuel s more spells follows enough
    obtain ⟨rest, read, tail⟩ := next_of_spells spells fun _ => follows
    cases fuel with
    | zero => cases enough
    | succ fuel => exact ⟨rest, by rw [parseValue, read], tail⟩
  | str body =>
    intro fuel s more spells _ enough
    obtain ⟨rest, read, tail⟩ := next_word rfl spells
    cases fuel with
    | zero => cases enough
    | succ fuel => exact ⟨rest, by rw [parseValue, read], tail⟩
  | arr items ih =>
    intro fuel s more spells _ enough
    rw [Value.lexemes, List.length_cons, List.length_append, List.length_singleton] at enough
    rw [Value.lexemes, List.cons_append, List.append_assoc, List.singleton_append] at spells
    obtain ⟨begun, first, inner⟩ := next_word rfl spells
    cases fuel with
    | zero => omega
    | succ fuel =>
      cases items with
      | nil =>
        obtain ⟨rest, last, tail⟩ := next_word rfl inner
        refine ⟨rest, ?_, tail⟩
        simp only [parseValue, first, last]
      | cons item others =>
        obtain ⟨rest, read, tail⟩ := @parseItems_complete item others [] fuel begun more ih
          inner (by omega)
        refine ⟨rest, ?_, tail⟩
        rw [parseValue, first]
        dsimp only
        split
        next after last =>
          rw [parseItems_end last] at read
          cases read
        next => exact read
  | obj members ih =>
    intro fuel s more spells _ enough
    rw [Value.lexemes, List.length_cons, List.length_append, List.length_singleton] at enough
    rw [Value.lexemes, List.cons_append, List.append_assoc, List.singleton_append] at spells
    obtain ⟨begun, first, inner⟩ := next_word rfl spells
    cases fuel with
    | zero => omega
    | succ fuel =>
      cases members with
      | nil =>
        obtain ⟨rest, last, tail⟩ := next_word rfl inner
        refine ⟨rest, ?_, tail⟩
        simp only [parseValue, first, last]
      | cons member others =>
        obtain ⟨rest, read, tail⟩ := @parseMembers_complete member others [] fuel begun
          more ih inner (by omega)
        refine ⟨rest, ?_, tail⟩
        rw [parseValue, first]
        dsimp only
        split
        next after last =>
          rw [parseMembers_end last] at read
          cases read
        next => exact read

/-! ### The document of a text -/

theorem Spells.length_le {lexemes : List Lexeme} {s : GoString} (spells : Spells lexemes s) :
    lexemes.length ≤ s.length := by
  induction spells with
  | nil isBlank => exact Nat.zero_le _
  | @cons lexeme lexemes blank rest isBlank valid tail ih =>
    obtain ⟨b, after, shape, -, -⟩ := Lexeme.head valid []
    rw [List.append_nil] at shape
    simp only [shape, List.length_append, List.length_cons]
    omega

theorem parse_spelled {document : Written} {raw : GoString} (spells : Spells document.lexemes raw) :
    ∃ rest, parseValue (2 * raw.length) raw = some (document, rest) ∧ Spells [] rest := by
  have size := spells.length_le
  refine parse_complete document _ _ _ ?_ follows_nil (by omega)
  rwa [List.append_nil]

theorem unmarshal_of_spelled {document : Written} {raw : GoString}
    (spells : Spells document.lexemes raw) :
    unmarshal raw =
      if document.depth ≤ maxNestingDepth then some document.decoded.interface else none := by
  obtain ⟨rest, read, tail⟩ := parse_spelled spells
  rw [unmarshal, read, Option.bind_eq_bind, Option.bind_some]
  dsimp only
  rw [next_eq_eof.mpr tail]

end OufMcp.Json
