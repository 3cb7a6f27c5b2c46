import OufMcp.Json.TokenStream

/-!
# Documents without repeated names

`uniquePublicationJSON` reads a document token by token and refuses it if a name comes twice in
one object.  It accepts exactly the texts that spell one document whose names are unique at
every depth, and returns that document.  It does not bound the nesting, which `json.Unmarshal`
does.
-/

namespace OufMcp.Operational

open Json

inductive UniqueError where
  | token (e : TokenError)
  /-- `ErrCursorConflict` -/
  | cursorConflict
  /-- The fuel is used up, which it never is. -/
  | unfinished
  deriving DecidableEq

mutual

def uniquePublicationValue : Nat → Decoder → Except UniqueError (Value String GoString × Decoder)
  | 0, _ => .error .unfinished
  | fuel + 1, decoder =>
    match decoder.token with
    | .error e => .error (.token e)
    | .ok (.delim .beginObject, decoder) => uniquePublicationMembers fuel [] decoder
    | .ok (.delim .beginArray, decoder) => uniquePublicationItems fuel [] decoder
    | .ok (.delim _, _) => .error .cursorConflict
    | .ok (.null, decoder) => .ok (.null, decoder)
    | .ok (.bool b, decoder) => .ok (.bool b, decoder)
    | .ok (.number literal, decoder) => .ok (.num literal, decoder)
    | .ok (.string s, decoder) => .ok (.str s, decoder)

def uniquePublicationMembers : Nat → Members GoString → Decoder →
    Except UniqueError (Value String GoString × Decoder)
  | 0, _, _ => .error .unfinished
  | fuel + 1, values, decoder =>
    if decoder.more = true then
      match decoder.token with
      | .error e => .error (.token e)
      | .ok (.string key, decoder) =>
        if key ∈ values.map Prod.fst then .error .cursorConflict
        else
          match uniquePublicationValue fuel decoder with
          | .error e => .error e
          | .ok (value, decoder) => uniquePublicationMembers fuel (values ++ [(key, value)]) decoder
      | .ok _ => .error .cursorConflict
    else
      match decoder.token with
      | .ok (.delim .endObject, decoder) => .ok (.obj values, decoder)
      | _ => .error .cursorConflict

def uniquePublicationItems : Nat → List (Value String GoString) → Decoder →
    Except UniqueError (Value String GoString × Decoder)
  | 0, _, _ => .error .unfinished
  | fuel + 1, values, decoder =>
    if decoder.more = true then
      match uniquePublicationValue fuel decoder with
      | .error e => .error e
      | .ok (value, decoder) => uniquePublicationItems fuel (values ++ [value]) decoder
    else
      match decoder.token with
      | .ok (.delim .endArray, decoder) => .ok (.arr values, decoder)
      | _ => .error .cursorConflict

end

def uniquePublicationJSON (raw : GoString) : Except UniqueError (Value String GoString) :=
  match uniquePublicationValue (2 * raw.length + 1) (newDecoder raw) with
  | .error e => .error e
  | .ok (value, decoder) =>
    match decoder.token with
    | .error .eof => .ok value
    | _ => .error .cursorConflict

/-! ## The reader finishes -/

/-- The result is reached with fuel to spare, and something was read for it. -/
def Finishes (size : Nat) : Except UniqueError (Value String GoString × Decoder) → Prop
  | .ok (_, decoder) => decoder.rest.length < size
  | .error e => e ≠ .unfinished

theorem Finishes.mono {m n : Nat} {result : Except UniqueError (Value String GoString × Decoder)}
    (finishes : Finishes m result) (more : m ≤ n) : Finishes n result := by
  cases result with
  | ok read => exact Nat.lt_of_lt_of_le finishes more
  | error e => exact finishes

/-- With two units of fuel for each byte the three readers finish. -/
structure AllFinish (fuel : Nat) : Prop where
  value : ∀ decoder : Decoder, 2 * decoder.rest.length < fuel →
    Finishes decoder.rest.length (uniquePublicationValue fuel decoder)
  members : ∀ values (decoder : Decoder), 2 * decoder.rest.length + 1 < fuel →
    Finishes decoder.rest.length (uniquePublicationMembers fuel values decoder)
  items : ∀ values (decoder : Decoder), 2 * decoder.rest.length + 1 < fuel →
    Finishes decoder.rest.length (uniquePublicationItems fuel values decoder)

theorem all_finish (fuel : Nat) : AllFinish fuel := by
  induction fuel with
  | zero =>
    refine ⟨?_, ?_, ?_⟩
    · intro decoder impossible
      cases impossible
    · intro values decoder impossible
      cases impossible
    · intro values decoder impossible
      cases impossible
  | succ fuel ih =>
    refine ⟨?_, ?_, ?_⟩
    · intro decoder enough
      rw [uniquePublicationValue]
      split
      next => exact UniqueError.noConfusion
      next after read =>
        have shorter := Decoder.token_shorter read
        exact (ih.members [] after (by omega)).mono shorter.le
      next after read =>
        have shorter := Decoder.token_shorter read
        exact (ih.items [] after (by omega)).mono shorter.le
      next => exact UniqueError.noConfusion
      next after read => exact Decoder.token_shorter read
      next b after read => exact Decoder.token_shorter read
      next literal after read => exact Decoder.token_shorter read
      next s after read => exact Decoder.token_shorter read
    · intro values decoder enough
      rw [uniquePublicationMembers]
      split
      next =>
        split
        next => exact UniqueError.noConfusion
        next key named read =>
          have shorter := Decoder.token_shorter read
          split
          next => exact UniqueError.noConfusion
          next =>
            have inner := ih.value named (by omega)
            split
            next e failed =>
              rw [failed] at inner
              exact inner
            next value after passed =>
              rw [passed] at inner
              have least : after.rest.length < named.rest.length := inner
              refine (ih.members _ after (by omega)).mono (by omega)
        next => exact UniqueError.noConfusion
      next =>
        split
        next after read => exact Decoder.token_shorter read
        next => exact UniqueError.noConfusion
    · intro values decoder enough
      rw [uniquePublicationItems]
      split
      next =>
        have inner := ih.value decoder (by omega)
        split
        next e failed =>
          rw [failed] at inner
          exact inner
        next value after passed =>
          rw [passed] at inner
          have least : after.rest.length < decoder.rest.length := inner
          refine (ih.items _ after (by omega)).mono (by omega)
      next =>
        split
        next after read => exact Decoder.token_shorter read
        next => exact UniqueError.noConfusion

theorem uniquePublicationJSON_finishes (raw : GoString) :
    uniquePublicationJSON raw ≠ .error .unfinished := by
  have finishes := (all_finish (2 * raw.length + 1)).value (newDecoder raw) (Nat.lt_succ_self _)
  intro unfinished
  rw [uniquePublicationJSON] at unfinished
  split at unfinished
  next e failed =>
    rw [failed] at finishes
    cases unfinished
    exact finishes rfl
  next value decoder read =>
    split at unfinished
    next => cases unfinished
    next => cases unfinished

/-! ## What is accepted is spelled -/

/-- Parts of an array or object, with the separator that is expected in front of each. -/
def listed (state : TokenState) : List (List Lexeme) → List Lexeme
  | [] => []
  | part :: rest => lead state ++ (part ++ afterCommas rest)

theorem listed_start {state : TokenState} (start : lead state = []) (parts : List (List Lexeme)) :
    listed state parts = separated parts := by
  cases parts with
  | nil => rfl
  | cons part rest => rw [listed, start, List.nil_append, separated]

theorem listed_comma {state : TokenState} (comma : lead state = [.mark .comma])
    (parts : List (List Lexeme)) : listed state parts = afterCommas parts := by
  cases parts with
  | nil => rfl
  | cons part rest => rw [listed, comma, List.singleton_append, afterCommas]

def InArray (state : TokenState) : Prop := state = .arrayStart ∨ state = .arrayComma

def InObject (state : TokenState) : Prop := state = .objectStart ∨ state = .objectComma

theorem InArray.value {state : TokenState} (within : InArray state) :
    tokenValueAllowed (led state) = true ∧ tokenValueEnd (led state) = .arrayComma := by
  rcases within with rfl | rfl <;> exact ⟨rfl, rfl⟩

/-- The decoder went on over the words, and over nothing else. -/
structure Moves (decoder after : Decoder) (lexemes : List Lexeme) (state : TokenState)
    (stack : List TokenState) : Prop where
  leads : Leads lexemes decoder.rest after.rest
  tokenState : after.tokenState = state
  tokenStack : after.tokenStack = stack

/-- What the three readers return is unique and spelled by what they read. -/
structure UniqueSound (fuel : Nat) : Prop where
  value : ∀ {decoder value after},
    uniquePublicationValue fuel decoder = .ok (value, after) →
    tokenValueAllowed (led decoder.tokenState) = true →
    ∃ document : Written, value = document.decoded ∧ value.unique = true ∧
      Moves decoder after (lead decoder.tokenState ++ document.lexemes)
        (tokenValueEnd (led decoder.tokenState)) decoder.tokenStack
  items : ∀ {values decoder value after outer stack},
    uniquePublicationItems fuel values decoder = .ok (value, after) →
    InArray decoder.tokenState → decoder.tokenStack = outer :: stack →
    ∃ others : List Written, value = .arr (values ++ decodedItems others) ∧
      (∀ item ∈ decodedItems others, item.unique = true) ∧
      Moves decoder after (listed decoder.tokenState (itemLexemes others) ++ [.mark .endArray])
        (tokenValueEnd outer) stack
  members : ∀ {values decoder value after outer stack},
    uniquePublicationMembers fuel values decoder = .ok (value, after) →
    InObject decoder.tokenState → decoder.tokenStack = outer :: stack →
    (values.map Prod.fst).Nodup →
    ∃ others : List (GoString × Written), value = .obj (values ++ decodedMembers others) ∧
      ((values ++ decodedMembers others).map Prod.fst).Nodup ∧
      (∀ member ∈ decodedMembers others, member.2.unique = true) ∧
      Moves decoder after (listed decoder.tokenState (memberLexemes others) ++ [.mark .endObject])
        (tokenValueEnd outer) stack

theorem scalar_sound {decoder after : Decoder} {token : Token} {value : Value String GoString}
    (read : decoder.token = .ok (token, after)) (plain : ∀ m, token ≠ .delim m)
    (allowed : tokenValueAllowed (led decoder.tokenState) = true)
    (means : ∀ document, Decoder.simple document = some token →
      value = document.decoded ∧ value.unique = true) :
    ∃ document : Written, value = document.decoded ∧ value.unique = true ∧
      Moves decoder after (lead decoder.tokenState ++ document.lexemes)
        (tokenValueEnd (led decoder.tokenState)) decoder.tokenStack := by
  obtain ⟨state, stack, document, simple, leads⟩ := Decoder.token_scalar read plain allowed
  obtain ⟨same, unique⟩ := means document simple
  exact ⟨document, same, unique, leads, state, stack⟩

theorem UniqueSound.succ_value {fuel : Nat} (sound : UniqueSound fuel) {decoder after : Decoder}
    {value : Value String GoString}
    (read : uniquePublicationValue (fuel + 1) decoder = .ok (value, after))
    (allowed : tokenValueAllowed (led decoder.tokenState) = true) :
    ∃ document : Written, value = document.decoded ∧ value.unique = true ∧
      Moves decoder after (lead decoder.tokenState ++ document.lexemes)
        (tokenValueEnd (led decoder.tokenState)) decoder.tokenStack := by
  rw [uniquePublicationValue] at read
  split at read
  next => cases read
  next begun first =>
    obtain ⟨state, stack, leads⟩ := Decoder.token_opening first (.inr ⟨rfl, rfl⟩)
    obtain ⟨others, rfl, nodup, unique, moves⟩ :=
      sound.members read (.inl state) stack List.nodup_nil
    rw [List.nil_append] at nodup
    refine ⟨.obj others, rfl, unique_obj.mpr ⟨nodup, unique⟩, ?_, moves.2, moves.3⟩
    have goes := leads.trans moves.leads
    rw [listed_start (by rw [state]; rfl), List.append_assoc] at goes
    exact goes
  next begun first =>
    obtain ⟨state, stack, leads⟩ := Decoder.token_opening first (.inl ⟨rfl, rfl⟩)
    obtain ⟨others, rfl, unique, moves⟩ := sound.items read (.inl state) stack
    refine ⟨.arr others, rfl, uniqueItems_eq_true.mpr unique, ?_, moves.2, moves.3⟩
    have goes := leads.trans moves.leads
    rw [listed_start (by rw [state]; rfl), List.append_assoc] at goes
    exact goes
  next => cases read
  next begun first =>
    cases read
    refine scalar_sound first (by simp) allowed ?_
    intro document simple
    cases document <;> cases simple
    exact ⟨rfl, rfl⟩
  next b begun first =>
    cases read
    refine scalar_sound first (by simp) allowed ?_
    intro document simple
    cases document <;> cases simple
    exact ⟨rfl, rfl⟩
  next literal begun first =>
    cases read
    refine scalar_sound first (by simp) allowed ?_
    intro document simple
    cases document <;> cases simple
    exact ⟨rfl, rfl⟩
  next s begun first =>
    cases read
    refine scalar_sound first (by simp) allowed ?_
    intro document simple
    cases document <;> cases simple
    exact ⟨rfl, rfl⟩

theorem UniqueSound.succ_items {fuel : Nat} (sound : UniqueSound fuel)
    {values : List (Value String GoString)} {decoder after : Decoder}
    {value : Value String GoString} {outer : TokenState} {stack : List TokenState}
    (read : uniquePublicationItems (fuel + 1) values decoder = .ok (value, after))
    (within : InArray decoder.tokenState) (opened : decoder.tokenStack = outer :: stack) :
    ∃ others : List Written, value = .arr (values ++ decodedItems others) ∧
      (∀ item ∈ decodedItems others, item.unique = true) ∧
      Moves decoder after (listed decoder.tokenState (itemLexemes others) ++ [.mark .endArray])
        (tokenValueEnd outer) stack := by
  rw [uniquePublicationItems] at read
  split at read
  next =>
    split at read
    next => cases read
    next first middle here =>
      obtain ⟨allowed, ends⟩ := within.value
      obtain ⟨item, rfl, unique, moves⟩ := sound.value here allowed
      have state := moves.tokenState.trans ends
      obtain ⟨others, rfl, later, goes⟩ :=
        sound.items read (.inr state) (moves.tokenStack.trans opened)
      refine ⟨item :: others, by rw [List.append_assoc]; rfl, ?_, ?_, goes.2, goes.3⟩
      · exact List.forall_mem_cons.mpr ⟨unique, later⟩
      · have leads := moves.leads.trans goes.leads
        rw [listed_comma (by rw [state]; rfl)] at leads
        rw [itemLexemes, listed]
        simpa only [List.append_assoc] using leads
  next =>
    split at read
    next closed last =>
      cases read
      obtain ⟨⟨_, _, pushed, state, rest⟩, leads⟩ := Decoder.token_closing last (.inl rfl)
      rw [opened] at pushed
      cases pushed
      refine ⟨[], by rw [decodedItems, List.append_nil], ?_, leads, state, rest⟩
      intro item impossible
      cases impossible
    next => cases read

theorem UniqueSound.succ_members {fuel : Nat} (sound : UniqueSound fuel)
    {values : Members GoString} {decoder after : Decoder}
    {value : Value String GoString} {outer : TokenState} {stack : List TokenState}
    (read : uniquePublicationMembers (fuel + 1) values decoder = .ok (value, after))
    (within : InObject decoder.tokenState) (opened : decoder.tokenStack = outer :: stack)
    (nodup : (values.map Prod.fst).Nodup) :
    ∃ others : List (GoString × Written), value = .obj (values ++ decodedMembers others) ∧
      ((values ++ decodedMembers others).map Prod.fst).Nodup ∧
      (∀ member ∈ decodedMembers others, member.2.unique = true) ∧
      Moves decoder after (listed decoder.tokenState (memberLexemes others) ++ [.mark .endObject])
        (tokenValueEnd outer) stack := by
  rw [uniquePublicationMembers] at read
  split at read
  next =>
    split at read
    next => cases read
    next key named first =>
      obtain ⟨colon, same, body, rfl, leads⟩ := Decoder.token_name first within
      split at read
      next => cases read
      next fresh =>
        split at read
        next => cases read
        next content middle here =>
          obtain ⟨document, rfl, unique, moves⟩ := sound.value here (by rw [colon]; rfl)
          have state : middle.tokenState = .objectComma := by rw [moves.tokenState, colon]; rfl
          have extended : ((values ++ [(unquote body, document.decoded)]).map Prod.fst).Nodup := by
            rw [List.map_append]
            exact nodup.append (List.nodup_singleton _) (List.disjoint_singleton.mpr fresh)
          obtain ⟨others, rfl, distinct, later, goes⟩ := sound.members read (.inr state)
            (moves.tokenStack.trans (same.trans opened)) extended
          rw [List.append_assoc] at distinct
          refine ⟨(body, document) :: others, by rw [List.append_assoc]; rfl, distinct, ?_, ?_,
            goes.2, goes.3⟩
          · exact List.forall_mem_cons.mpr ⟨unique, later⟩
          · have words := (leads.trans moves.leads).trans goes.leads
            rw [listed_comma (by rw [state]; rfl), colon,
              show lead .objectColon = [.mark .colon] from rfl] at words
            rw [memberLexemes, listed]
            simpa only [List.append_assoc, List.cons_append, List.nil_append] using words
    next => cases read
  next =>
    split at read
    next closed last =>
      cases read
      obtain ⟨⟨_, _, pushed, state, rest⟩, leads⟩ := Decoder.token_closing last (.inr rfl)
      rw [opened] at pushed
      cases pushed
      refine ⟨[], by rw [decodedMembers, List.append_nil], ?_, ?_, leads, state, rest⟩
      · rwa [decodedMembers, List.append_nil]
      · intro member impossible
        cases impossible
    next => cases read

theorem unique_sound (fuel : Nat) : UniqueSound fuel := by
  induction fuel with
  | zero =>
    refine ⟨?_, ?_, ?_⟩
    · intro decoder value after impossible
      cases impossible
    · intro values decoder value after outer stack impossible
      cases impossible
    · intro values decoder value after outer stack impossible
      cases impossible
  | succ fuel ih => exact ⟨ih.succ_value, ih.succ_items, ih.succ_members⟩

/-! ## What is spelled is accepted -/

theorem lexemes_head (document : Written) :
    ∃ lexeme others, document.lexemes = lexeme :: others ∧ lexeme.closes = false ∧
      lexeme.separates = false := by
  cases document with
  | null => exact ⟨_, _, rfl, rfl, rfl⟩
  | bool b => exact ⟨_, _, rfl, rfl, rfl⟩
  | num literal => exact ⟨_, _, rfl, rfl, rfl⟩
  | str body => exact ⟨_, _, rfl, rfl, rfl⟩
  | arr items => exact ⟨_, _, by rw [Value.lexemes], rfl, rfl⟩
  | obj members => exact ⟨_, _, by rw [Value.lexemes], rfl, rfl⟩

theorem lexemes_pos (document : Written) : 0 < document.lexemes.length := by
  obtain ⟨lexeme, others, shape, -, -⟩ := lexemes_head document
  rw [shape]
  exact Nat.succ_pos _

theorem more_of_part {decoder : Decoder} {lexeme : Lexeme} {others : List Lexeme}
    (spells : Spells (lead decoder.tokenState ++ lexeme :: others) decoder.rest)
    (inner : lexeme.closes = false) : decoder.more = true := by
  cases expected : lead decoder.tokenState with
  | nil =>
    rw [expected] at spells
    rw [Decoder.more_of_spells spells, inner]
    rfl
  | cons separator more =>
    have mark : separator.closes = false := by
      cases state : decoder.tokenState <;> rw [state] at expected <;> cases expected <;> rfl
    rw [expected] at spells
    rw [Decoder.more_of_spells spells, mark]
    rfl

/-- The fuel suffices to accept the document wherever it is spelled and a value expected. -/
def Accepted (document : Written) : Prop :=
  ∀ fuel (decoder : Decoder) more, document.decoded.unique = true →
    tokenValueAllowed (led decoder.tokenState) = true →
    Spells (lead decoder.tokenState ++ (document.lexemes ++ more)) decoder.rest →
    Follows more → 2 * document.lexemes.length ≤ fuel →
    ∃ rest, uniquePublicationValue fuel decoder = .ok (document.decoded,
        ⟨rest, tokenValueEnd (led decoder.tokenState), decoder.tokenStack⟩) ∧
      Spells more rest

theorem items_accepted {others : List Written} {values : List (Value String GoString)}
    {fuel : Nat} {decoder : Decoder} {outer : TokenState} {stack : List TokenState}
    {more : List Lexeme} (accepted : ∀ item ∈ others, Accepted item)
    (unique : ∀ item ∈ decodedItems others, item.unique = true)
    (within : InArray decoder.tokenState) (opened : decoder.tokenStack = outer :: stack)
    (spells : Spells (listed decoder.tokenState (itemLexemes others) ++ .mark .endArray :: more)
      decoder.rest)
    (enough : 2 * (listed decoder.tokenState (itemLexemes others)).length + 1 ≤ fuel) :
    ∃ rest, uniquePublicationItems fuel values decoder =
        .ok (.arr (values ++ decodedItems others), ⟨rest, tokenValueEnd outer, stack⟩) ∧
      Spells more rest := by
  induction others generalizing values fuel decoder with
  | nil =>
    cases fuel with
    | zero => cases enough
    | succ fuel =>
      obtain ⟨rest, read, tail⟩ :=
        Decoder.token_of_closing spells (.inl ⟨rfl, within⟩) opened
      refine ⟨rest, ?_, tail⟩
      rw [uniquePublicationItems, if_neg (by rw [Decoder.more_of_spells spells]; decide), read,
        decodedItems, List.append_nil]
  | cons item others ih =>
    cases fuel with
    | zero => cases enough
    | succ fuel =>
      rw [List.forall_mem_cons] at accepted
      rw [decodedItems, List.forall_mem_cons] at unique
      obtain ⟨allowed, ends⟩ := within.value
      have size := lexemes_pos item
      rw [itemLexemes, listed, List.length_append, List.length_append] at enough
      rw [itemLexemes, listed, List.append_assoc, List.append_assoc] at spells
      obtain ⟨lexeme, words, shape, inner, -⟩ := lexemes_head item
      have continues : decoder.more = true := by
        rw [shape] at spells
        exact more_of_part spells inner
      obtain ⟨middle, here, tail⟩ := accepted.1 fuel decoder _ unique.1 allowed spells
        follows_afterCommas (by omega)
      rw [ends] at here
      have comma : ∀ parts, listed .arrayComma parts = afterCommas parts := listed_comma rfl
      obtain ⟨rest, goes, left⟩ :=
        @ih (values ++ [item.decoded]) fuel ⟨middle, .arrayComma, decoder.tokenStack⟩ accepted.2
          unique.2 (.inr rfl) opened (by rw [comma]; exact tail) (by rw [comma]; omega)
      refine ⟨rest, ?_, left⟩
      rw [uniquePublicationItems, if_pos continues, here]
      dsimp only
      rw [goes, List.append_assoc]
      rfl

theorem members_accepted {others : List (GoString × Written)} {values : Members GoString}
    {fuel : Nat} {decoder : Decoder} {outer : TokenState} {stack : List TokenState}
    {more : List Lexeme} (accepted : ∀ member ∈ others, Accepted member.2)
    (unique : ∀ member ∈ decodedMembers others, member.2.unique = true)
    (distinct : ((values ++ decodedMembers others).map Prod.fst).Nodup)
    (within : InObject decoder.tokenState) (opened : decoder.tokenStack = outer :: stack)
    (spells : Spells (listed decoder.tokenState (memberLexemes others) ++ .mark .endObject :: more)
      decoder.rest)
    (enough : 2 * (listed decoder.tokenState (memberLexemes others)).length + 1 ≤ fuel) :
    ∃ rest, uniquePublicationMembers fuel values decoder =
        .ok (.obj (values ++ decodedMembers others), ⟨rest, tokenValueEnd outer, stack⟩) ∧
      Spells more rest := by
  induction others generalizing values fuel decoder with
  | nil =>
    cases fuel with
    | zero => cases enough
    | succ fuel =>
      obtain ⟨rest, read, tail⟩ :=
        Decoder.token_of_closing spells (.inr ⟨rfl, within⟩) opened
      refine ⟨rest, ?_, tail⟩
      rw [uniquePublicationMembers, if_neg (by rw [Decoder.more_of_spells spells]; decide),
        read, decodedMembers, List.append_nil]
  | cons member others ih =>
    obtain ⟨name, content⟩ := member
    cases fuel with
    | zero => cases enough
    | succ fuel =>
      rw [List.forall_mem_cons] at accepted
      rw [decodedMembers, List.forall_mem_cons] at unique
      rw [decodedMembers] at distinct
      rw [memberLexemes, listed, List.length_append, List.length_append, List.length_cons,
        List.length_cons] at enough
      rw [memberLexemes, listed, List.append_assoc, List.append_assoc, List.cons_append]
        at spells
      have continues := more_of_part spells rfl
      obtain ⟨named, first, spells⟩ := Decoder.token_of_name spells within
      have fresh : unquote name ∉ values.map Prod.fst := by
        rw [List.map_append, List.map_cons] at distinct
        intro repeated
        exact (List.disjoint_of_nodup_append distinct) repeated List.mem_cons_self
      obtain ⟨middle, here, tail⟩ := accepted.1 fuel
        ⟨named, .objectColon, decoder.tokenStack⟩ _ unique.1 rfl spells follows_afterCommas
        (by dsimp only; omega)
      have comma : ∀ parts, listed .objectComma parts = afterCommas parts := listed_comma rfl
      obtain ⟨rest, goes, left⟩ :=
        @ih (values ++ [(unquote name, content.decoded)]) fuel
          ⟨middle, .objectComma, decoder.tokenStack⟩ accepted.2 unique.2
          (by rw [List.append_assoc]; exact distinct) (.inr rfl) opened
          (by rw [comma]; exact tail) (by rw [comma]; omega)
      refine ⟨rest, ?_, left⟩
      rw [uniquePublicationMembers, if_pos continues, first]
      dsimp only
      rw [if_neg fresh, here]
      dsimp only [led, tokenValueEnd]
      rw [goes, List.append_assoc]
      rfl

theorem accepted_of_simple {document : Written} {token : Token}
    (means : Decoder.simple document = some token)
    (read : ∀ fuel decoder after, decoder.token = .ok (token, after) →
      uniquePublicationValue (fuel + 1) decoder = .ok (document.decoded, after)) :
    Accepted document := by
  intro fuel decoder more _ allowed spells follows enough
  have size := lexemes_pos document
  cases fuel with
  | zero => omega
  | succ fuel =>
    obtain ⟨rest, found, tail⟩ := Decoder.token_of_scalar spells means allowed follows
    exact ⟨rest, read fuel decoder _ found, tail⟩

theorem accepted (document : Written) : Accepted document := by
  induction document using Value.induction with
  | null =>
    refine accepted_of_simple rfl ?_
    intro fuel decoder after found
    rw [uniquePublicationValue, found]
    rfl
  | bool b =>
    refine accepted_of_simple rfl ?_
    intro fuel decoder after found
    rw [uniquePublicationValue, found]
    rfl
  | num literal =>
    refine accepted_of_simple rfl ?_
    intro fuel decoder after found
    rw [uniquePublicationValue, found]
    rfl
  | str body =>
    refine accepted_of_simple rfl ?_
    intro fuel decoder after found
    rw [uniquePublicationValue, found]
    rfl
  | arr items ih =>
    intro fuel decoder more unique allowed spells _ enough
    rw [Value.decoded, Value.unique, uniqueItems_eq_true] at unique
    rw [Value.lexemes, List.length_cons, List.length_append, List.length_singleton] at enough
    rw [Value.lexemes, List.cons_append, List.append_assoc] at spells
    obtain ⟨begun, first, inner⟩ := Decoder.token_of_opening spells (.inl ⟨rfl, rfl⟩) allowed
    have start : ∀ parts, listed .arrayStart parts = separated parts := listed_start rfl
    cases fuel with
    | zero => omega
    | succ fuel =>
      obtain ⟨rest, read, tail⟩ := @items_accepted items [] fuel
        ⟨begun, .arrayStart, led decoder.tokenState :: decoder.tokenStack⟩ _ _ more ih unique
        (.inl rfl) rfl (by rw [start]; exact inner) (by rw [start]; omega)
      refine ⟨rest, ?_, tail⟩
      rw [uniquePublicationValue, first]
      exact read
  | obj members ih =>
    intro fuel decoder more unique allowed spells _ enough
    obtain ⟨distinct, within⟩ := unique_obj.mp unique
    rw [Value.lexemes, List.length_cons, List.length_append, List.length_singleton] at enough
    rw [Value.lexemes, List.cons_append, List.append_assoc] at spells
    obtain ⟨begun, first, inner⟩ := Decoder.token_of_opening spells (.inr ⟨rfl, rfl⟩) allowed
    have start : ∀ parts, listed .objectStart parts = separated parts := listed_start rfl
    cases fuel with
    | zero => omega
    | succ fuel =>
      obtain ⟨rest, read, tail⟩ := @members_accepted members [] fuel
        ⟨begun, .objectStart, led decoder.tokenState :: decoder.tokenStack⟩ _ _ more ih within
        distinct (.inl rfl) rfl (by rw [start]; exact inner) (by rw [start]; omega)
      refine ⟨rest, ?_, tail⟩
      rw [uniquePublicationValue, first]
      exact read

/-! ## The whole text -/

theorem uniquePublicationJSON_sound {raw : GoString} {value : Value String GoString}
    (read : uniquePublicationJSON raw = .ok value) :
    ∃ document : Written, Spells document.lexemes raw ∧ document.decoded.unique = true ∧
      value = document.decoded := by
  rw [uniquePublicationJSON] at read
  split at read
  next => cases read
  next found decoder passed =>
    split at read
    next ended =>
      cases read
      obtain ⟨document, rfl, unique, moves⟩ := (unique_sound _).value passed rfl
      have nothing := (Decoder.token_eq_eof moves.tokenState).mp ended
      have spells := moves.leads [] nothing
      rw [List.append_nil] at spells
      exact ⟨document, spells, unique, rfl⟩
    next => cases read

theorem uniquePublicationJSON_complete {raw : GoString} {document : Written}
    (spells : Spells document.lexemes raw) (unique : document.decoded.unique = true) :
    uniquePublicationJSON raw = .ok document.decoded := by
  have size := spells.length_le
  obtain ⟨rest, read, nothing⟩ := accepted document (2 * raw.length + 1) (newDecoder raw) [] unique
    rfl (by rw [List.append_nil]; exact spells) follows_nil (by omega)
  have ended := (@Decoder.token_eq_eof ⟨rest, .topValue, []⟩ rfl).mpr nothing
  rw [uniquePublicationJSON, read]
  dsimp only [newDecoder, led, tokenValueEnd]
  rw [ended]

/-- Where `json.Unmarshal` reads a document that was accepted, it reads the same one. -/
theorem unmarshal_of_accepted {raw : GoString} {value : Value String GoString}
    (read : uniquePublicationJSON raw = .ok value) :
    unmarshal raw = if value.depth ≤ maxNestingDepth then some value else none := by
  obtain ⟨document, spells, unique, rfl⟩ := uniquePublicationJSON_sound read
  rw [unmarshal_of_spelled spells, Value.interface_of_unique unique, Value.depth_decoded]

/-! ### Nested arrays -/

def nested : Nat → Written
  | 0 => .arr []
  | n + 1 => .arr [nested n]

def nestedText (n : Nat) : GoString :=
  List.replicate (n + 1) (byte '[') ++ List.replicate (n + 1) (byte ']')

theorem nested_decoded (n : Nat) : (nested n).decoded.unique = true := by
  induction n with
  | zero => rfl
  | succ n ih =>
    rw [nested, Value.decoded, decodedItems, decodedItems, Value.unique, uniqueItems, ih]
    rfl

theorem nested_depth (n : Nat) : (nested n).depth = n + 1 := by
  induction n with
  | zero => rfl
  | succ n ih => rw [nested, Value.depth, itemsDepth, itemsDepth, ih, Nat.max_zero]

theorem nested_lexemes (n : Nat) :
    (nested n).lexemes = List.replicate (n + 1) (.mark .beginArray) ++
      List.replicate (n + 1) (.mark .endArray) := by
  induction n with
  | zero => rfl
  | succ n ih =>
    rw [nested, Value.lexemes, itemLexemes, itemLexemes, separated, afterCommas,
      List.append_nil, ih, List.replicate_succ (n := n + 1), List.cons_append, List.append_assoc,
      ← List.replicate_succ']

theorem spells_joined {lexemes : List Lexeme} (valid : ∀ lexeme ∈ lexemes, lexeme.Valid) :
    Spells lexemes (lexemes.flatMap Lexeme.bytes) := by
  induction lexemes with
  | nil => exact .nil blank_nil
  | cons lexeme lexemes ih =>
    obtain ⟨head, rest⟩ := List.forall_mem_cons.mp valid
    exact .cons blank_nil head (ih rest)

theorem nested_spelled (n : Nat) : Spells (nested n).lexemes (nestedText n) := by
  have marks : ∀ lexeme ∈ (nested n).lexemes, lexeme.Valid := by
    intro lexeme among
    rw [nested_lexemes, List.mem_append] at among
    rcases among with among | among <;>
    · rw [List.eq_of_mem_replicate among]
      trivial
  have text : (nested n).lexemes.flatMap Lexeme.bytes = nestedText n := by
    rw [nested_lexemes, List.flatMap_append, List.flatMap_replicate, List.flatMap_replicate]
    exact congrArg₂ _ List.flatten_replicate_singleton List.flatten_replicate_singleton
  exact text ▸ spells_joined marks

/-! ### The recognizer -/

/-- `uniquePublicationJSON` finishes on every text.  It succeeds exactly on the texts that spell
one document, with white space around it, in which no object has two members of one name, and
returns that document.  It is what `json.Unmarshal` returns, unless the document is nested more
deeply than `json.Unmarshal` allows, which refuses it then. -/
theorem uniquePublicationJSON_recognizes (raw : GoString) :
    uniquePublicationJSON raw ≠ .error .unfinished ∧
    (∀ value, uniquePublicationJSON raw = .ok value ↔
      ∃ document : Written, Spells document.lexemes raw ∧ document.decoded.unique = true ∧
        value = document.decoded) ∧
    ∀ value, uniquePublicationJSON raw = .ok value →
      unmarshal raw = if value.depth ≤ maxNestingDepth then some value else none := by
  refine ⟨uniquePublicationJSON_finishes raw, ?_, fun _ read => unmarshal_of_accepted read⟩
  intro value
  constructor
  · exact uniquePublicationJSON_sound
  · rintro ⟨document, spells, unique, rfl⟩
    exact uniquePublicationJSON_complete spells unique

/-- Two members, of which the second holds an object with two of its own. -/
def twoMembers : Written :=
  .obj [(ascii "a", .num (ascii "1")),
    (ascii "b", .obj [(ascii "a", .arr [.str (ascii "b"), .null]), (ascii "c", .bool true)])]

def twoMembersText : GoString :=
  ascii "\x7b\"a\":1,\"b\":\x7b\"a\":[\"b\",null],\"c\":true\x7d\x7d"

theorem uniquePublicationJSON_recognizes_twoMembers :
    uniquePublicationJSON twoMembersText = .ok twoMembers.decoded ∧
      unmarshal twoMembersText = some twoMembers.decoded := by
  obtain ⟨-, accepts, reads⟩ := uniquePublicationJSON_recognizes twoMembersText
  have one : Number ([] ++ ([byte '1'] ++ ([] ++ []))) :=
    .parts .none (.digits rfl (by decide) (by simp)) .none .none
  have valid : ∀ lexeme ∈ twoMembers.lexemes, lexeme.Valid := by
    have letter (b : Fin 256) (plain : isPlain b = true) : Body [b] := .plain plain .nil
    simp only [twoMembers, Value.lexemes, memberLexemes, itemLexemes, separated, afterCommas,
      List.cons_append, List.nil_append, List.append_nil, List.forall_mem_cons, Lexeme.Valid]
    exact ⟨trivial, letter _ rfl, trivial, one, trivial, letter _ rfl, trivial, trivial,
      letter _ rfl, trivial, trivial, letter _ rfl, trivial, trivial, trivial, trivial,
      letter _ rfl, trivial, trivial, trivial, trivial, List.forall_mem_nil _⟩
  have spelled : Spells twoMembers.lexemes twoMembersText := spells_joined valid
  have accepted := (accepts _).mpr ⟨twoMembers, spelled, by decide, rfl⟩
  exact ⟨accepted, (reads _ accepted).trans (if_pos (by decide))⟩

/-- Ten thousand and one arrays in one another are accepted, and `json.Unmarshal` refuses
them. -/
theorem deep_nesting_accepted :
    uniquePublicationJSON (nestedText 10000) = .ok (nested 10000).decoded ∧
      unmarshal (nestedText 10000) = none := by
  refine ⟨uniquePublicationJSON_complete (nested_spelled _) (nested_decoded _), ?_⟩
  rw [unmarshal_of_spelled (nested_spelled _), nested_depth]
  rfl

end OufMcp.Operational
