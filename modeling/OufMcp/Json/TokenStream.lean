import OufMcp.Json.Document

/-!
# Token streams

`json.Decoder` read token by token.  The decoder keeps what it expects next, and for every
array or object that is open what it expected before it.  It checks commas and colons but does
not return them.  A token is a word of the text, with the separator in front of it that the
expectation calls for.
-/

namespace OufMcp.Json

variable {rest : GoString}

/-! ## Decoder -/

/-- What the decoder expects next. -/
inductive TokenState where
  | topValue
  | arrayStart
  | arrayValue
  | arrayComma
  | objectStart
  | objectKey
  | objectColon
  | objectValue
  | objectComma
  deriving DecidableEq, Repr

variable {inner : TokenState}

structure Decoder where
  rest : GoString
  tokenState : TokenState
  tokenStack : List TokenState

/-- `json.NewDecoder` -/
def newDecoder (raw : GoString) : Decoder := ⟨raw, .topValue, []⟩

inductive Token where
  | delim (m : Mark)
  | null
  | bool (b : Bool)
  | number (literal : GoString)
  | string (s : String)
  deriving DecidableEq

inductive TokenError where
  | eof
  | invalid
  /-- The string of a word cannot be unquoted, for which the decoder panics. -/
  | phase
  deriving DecidableEq, Repr

def ScanError.token : ScanError → TokenError
  | .eof => .eof
  | .invalid => .invalid

/-- `tokenValueAllowed` -/
def tokenValueAllowed : TokenState → Bool
  | .topValue | .arrayStart | .arrayValue | .objectValue => true
  | _ => false

/-- `tokenValueEnd` -/
def tokenValueEnd : TokenState → TokenState
  | .arrayStart | .arrayValue => .arrayComma
  | .objectValue => .objectComma
  | state => state

namespace Decoder

def scalar (d : Decoder) (token : Token) (rest : GoString) : Except TokenError (Token × Decoder) :=
  if tokenValueAllowed d.tokenState = true then
    .ok (token, ⟨rest, tokenValueEnd d.tokenState, d.tokenStack⟩)
  else .error .invalid

def openWith (d : Decoder) (m : Mark) (inner : TokenState) (rest : GoString) :
    Except TokenError (Token × Decoder) :=
  if tokenValueAllowed d.tokenState = true then
    .ok (.delim m, ⟨rest, inner, d.tokenState :: d.tokenStack⟩)
  else .error .invalid

def closeWith (d : Decoder) (m : Mark) (start comma : TokenState) (rest : GoString) :
    Except TokenError (Token × Decoder) :=
  if d.tokenState = start ∨ d.tokenState = comma then
    match d.tokenStack with
    | outer :: stack => .ok (.delim m, ⟨rest, tokenValueEnd outer, stack⟩)
    | [] => .error .invalid
  else .error .invalid

/-- The branches of `Token` that return one. -/
def accept (d : Decoder) (rest : GoString) : Lexeme → Except TokenError (Token × Decoder)
  | .mark .beginArray => d.openWith .beginArray .arrayStart rest
  | .mark .endArray => d.closeWith .endArray .arrayStart .arrayComma rest
  | .mark .beginObject => d.openWith .beginObject .objectStart rest
  | .mark .endObject => d.closeWith .endObject .objectStart .objectComma rest
  | .mark .colon | .mark .comma => .error .invalid
  | .null => d.scalar .null rest
  | .bool b => d.scalar (.bool b) rest
  | .num literal => d.scalar (.number literal) rest
  | .str body =>
    match unquote? body with
    | none => .error .phase
    | some s =>
      if d.tokenState = .objectStart ∨ d.tokenState = .objectKey then
        .ok (.string s, ⟨rest, .objectColon, d.tokenStack⟩)
      else d.scalar (.string s) rest

/-- The branches of `Token` that go on with the next word. -/
def skip (d : Decoder) (rest : GoString) : Lexeme → Option Decoder
  | .mark .colon =>
    match d.tokenState with
    | .objectColon => some ⟨rest, .objectValue, d.tokenStack⟩
    | _ => none
  | .mark .comma =>
    match d.tokenState with
    | .arrayComma => some ⟨rest, .arrayValue, d.tokenStack⟩
    | .objectComma => some ⟨rest, .objectKey, d.tokenStack⟩
    | _ => none
  | _ => none

/-- `Token`.  The loop goes on once at most: neither state after a separator takes another. -/
def token (d : Decoder) : Except TokenError (Token × Decoder) :=
  match next d.rest with
  | .error e => .error e.token
  | .ok (lexeme, rest) =>
    match d.skip rest lexeme with
    | none => d.accept rest lexeme
    | some d =>
      match next d.rest with
      | .error e => .error e.token
      | .ok (lexeme, rest) => d.accept rest lexeme

/-- `peek`: the first byte that is not white space. -/
def peek (d : Decoder) : Option (Fin 256) := (d.rest.dropWhile isSpace).head?

/-- `More` -/
def more (d : Decoder) : Bool :=
  match d.peek with
  | some c => decide (c ≠ byte ']' ∧ c ≠ byte '\x7d')
  | none => false

end Decoder

/-! ## Tokens and words -/

def lead : TokenState → List Lexeme
  | .arrayComma | .objectComma => [.mark .comma]
  | .objectColon => [.mark .colon]
  | _ => []

def led : TokenState → TokenState
  | .arrayComma => .arrayValue
  | .objectComma => .objectKey
  | .objectColon => .objectValue
  | state => state

def Lexeme.closes : Lexeme → Bool
  | .mark .endArray | .mark .endObject => true
  | _ => false

variable {lexeme : Lexeme} {others : List Lexeme}

def Lexeme.separates : Lexeme → Bool
  | .mark .colon | .mark .comma => true
  | _ => false

namespace Decoder

theorem skip_eq_none {d : Decoder} (word : lexeme.separates = false) :
    d.skip rest lexeme = none := by
  cases lexeme with
  | mark m =>
    cases m with
    | colon => cases word
    | comma => cases word
    | _ => rfl
  | _ => rfl

theorem skip_eq_some {d after : Decoder} :
    d.skip rest lexeme = some after ↔
      lead d.tokenState = [lexeme] ∧ after = ⟨rest, led d.tokenState, d.tokenStack⟩ := by
  obtain ⟨text, state, stack⟩ := d
  constructor
  · intro skipped
    cases lexeme with
    | mark m =>
      cases m with
      | colon =>
        cases state <;> cases skipped
        exact ⟨rfl, rfl⟩
      | comma => cases state <;> cases skipped <;> exact ⟨rfl, rfl⟩
      | _ => cases skipped
    | _ => cases skipped
  · rintro ⟨expected, rfl⟩
    cases state <;> cases expected <;> rfl

def settled (d : Decoder) : Decoder := ⟨d.rest, led d.tokenState, d.tokenStack⟩

theorem settled_of_lead {d : Decoder} (nothing : lead d.tokenState = []) : d.settled = d := by
  obtain ⟨text, state, stack⟩ := d
  cases state <;> cases nothing <;> rfl

theorem accept_congr {text other rest : GoString} {state : TokenState} {stack : List TokenState}
    {lexeme : Lexeme} :
    (Decoder.mk text state stack).accept rest lexeme =
      (Decoder.mk other state stack).accept rest lexeme := by
  cases lexeme with
  | mark m => cases m <;> rfl
  | _ => rfl

def simple : Written → Option Token
  | .null => some .null
  | .bool b => some (.bool b)
  | .num literal => some (.number literal)
  | .str body => some (.string (unquote body))
  | _ => none

theorem simple_ne_delim {document : Written} {m : Mark} : simple document ≠ some (.delim m) := by
  intro means
  cases document <;> cases means

/-- What a token is, and what the decoder expects after it. -/
inductive Accepts (d : Decoder) (rest : GoString) : Lexeme → Token → Decoder → Prop where
  | beginArray (allowed : tokenValueAllowed d.tokenState = true) :
      Accepts d rest (.mark .beginArray) (.delim .beginArray)
        ⟨rest, .arrayStart, d.tokenState :: d.tokenStack⟩
  | beginObject (allowed : tokenValueAllowed d.tokenState = true) :
      Accepts d rest (.mark .beginObject) (.delim .beginObject)
        ⟨rest, .objectStart, d.tokenState :: d.tokenStack⟩
  | endArray {outer : TokenState} {stack : List TokenState}
      (within : d.tokenState = .arrayStart ∨ d.tokenState = .arrayComma)
      (opened : d.tokenStack = outer :: stack) :
      Accepts d rest (.mark .endArray) (.delim .endArray) ⟨rest, tokenValueEnd outer, stack⟩
  | endObject {outer : TokenState} {stack : List TokenState}
      (within : d.tokenState = .objectStart ∨ d.tokenState = .objectComma)
      (opened : d.tokenStack = outer :: stack) :
      Accepts d rest (.mark .endObject) (.delim .endObject) ⟨rest, tokenValueEnd outer, stack⟩
  | name {body : GoString}
      (within : d.tokenState = .objectStart ∨ d.tokenState = .objectKey) :
      Accepts d rest (.str body) (.string (unquote body)) ⟨rest, .objectColon, d.tokenStack⟩
  | scalar {document : Written} {lexeme : Lexeme} {token : Token}
      (word : document.lexemes = [lexeme]) (means : simple document = some token)
      (allowed : tokenValueAllowed d.tokenState = true) :
      Accepts d rest lexeme token ⟨rest, tokenValueEnd d.tokenState, d.tokenStack⟩

theorem openWith_eq_ok {d after : Decoder} {m : Mark} {token : Token}
    (accepted : d.openWith m inner rest = .ok (token, after)) :
    tokenValueAllowed d.tokenState = true ∧ token = .delim m ∧
      after = ⟨rest, inner, d.tokenState :: d.tokenStack⟩ := by
  unfold openWith at accepted
  split at accepted
  next allowed =>
    cases accepted
    exact ⟨allowed, rfl, rfl⟩
  next => cases accepted

theorem closeWith_eq_ok {d after : Decoder} {m : Mark} {start comma : TokenState} {token : Token}
    (accepted : d.closeWith m start comma rest = .ok (token, after)) :
    (d.tokenState = start ∨ d.tokenState = comma) ∧ token = .delim m ∧
      ∃ outer stack, d.tokenStack = outer :: stack ∧
        after = ⟨rest, tokenValueEnd outer, stack⟩ := by
  unfold closeWith at accepted
  split at accepted
  next within =>
    split at accepted
    next outer stack opened =>
      cases accepted
      exact ⟨within, rfl, outer, stack, opened, rfl⟩
    next => cases accepted
  next => cases accepted

theorem scalar_eq_ok {d after : Decoder} {word token : Token}
    (accepted : d.scalar word rest = .ok (token, after)) :
    tokenValueAllowed d.tokenState = true ∧ token = word ∧
      after = ⟨rest, tokenValueEnd d.tokenState, d.tokenStack⟩ := by
  unfold scalar at accepted
  split at accepted
  next allowed =>
    cases accepted
    exact ⟨allowed, rfl, rfl⟩
  next => cases accepted

theorem accept_eq_ok {d after : Decoder} {token : Token}
    (accepted : d.accept rest lexeme = .ok (token, after)) : Accepts d rest lexeme token after := by
  cases lexeme with
  | mark m =>
    cases m with
    | beginArray =>
      obtain ⟨allowed, rfl, rfl⟩ := openWith_eq_ok accepted
      exact .beginArray allowed
    | beginObject =>
      obtain ⟨allowed, rfl, rfl⟩ := openWith_eq_ok accepted
      exact .beginObject allowed
    | endArray =>
      obtain ⟨within, rfl, outer, stack, opened, rfl⟩ := closeWith_eq_ok accepted
      exact .endArray within opened
    | endObject =>
      obtain ⟨within, rfl, outer, stack, opened, rfl⟩ := closeWith_eq_ok accepted
      exact .endObject within opened
    | colon => cases accepted
    | comma => cases accepted
  | null =>
    obtain ⟨allowed, rfl, rfl⟩ := scalar_eq_ok accepted
    exact @Accepts.scalar _ _ .null _ _ rfl rfl allowed
  | bool b =>
    obtain ⟨allowed, rfl, rfl⟩ := scalar_eq_ok accepted
    exact @Accepts.scalar _ _ (.bool b) _ _ rfl rfl allowed
  | num literal =>
    obtain ⟨allowed, rfl, rfl⟩ := scalar_eq_ok accepted
    exact @Accepts.scalar _ _ (.num literal) _ _ rfl rfl allowed
  | str body =>
    rw [accept] at accepted
    split at accepted
    next => cases accepted
    next s read =>
      have same : s = unquote body := by rw [unquote, read]; rfl
      subst same
      split at accepted
      next within =>
        cases accepted
        exact .name within
      next =>
        obtain ⟨allowed, rfl, rfl⟩ := scalar_eq_ok accepted
        exact @Accepts.scalar _ _ (.str body) _ _ rfl rfl allowed

theorem Accepts.rest_eq {d after : Decoder} {token : Token}
    (accepts : Accepts d rest lexeme token after) : after.rest = rest := by
  cases accepts <;> rfl

/-- A token is a word after the separator that is expected, or a mark that closes. -/
inductive Reads (d : Decoder) : Token → Decoder → Prop where
  | word {lexeme : Lexeme} {rest : GoString} {token : Token} {after : Decoder}
      (leads : Leads (lead d.tokenState ++ [lexeme]) d.rest rest)
      (accepts : Accepts d.settled rest lexeme token after) : Reads d token after
  | closing {m : Mark} {rest : GoString} {outer : TokenState} {stack : List TokenState}
      (closes : m = .endArray ∨ m = .endObject) (leads : Leads [.mark m] d.rest rest)
      (opened : d.tokenStack = outer :: stack) :
      Reads d (.delim m) ⟨rest, tokenValueEnd outer, stack⟩

theorem Accepts.reads_of_lead {d after : Decoder} {lexeme separator : Lexeme} {token : Token}
    (accepts : Accepts d rest lexeme token after) (leads : Leads [lexeme] d.rest rest)
    (expected : lead d.tokenState = [separator]) : Reads d token after := by
  have values : ∀ state, lead state = [separator] → tokenValueAllowed state = true → False := by
    intro state expected allowed
    cases state <;> cases expected <;> cases allowed
  cases accepts with
  | beginArray allowed => exact (values _ expected allowed).elim
  | beginObject allowed => exact (values _ expected allowed).elim
  | endArray within opened => exact .closing (.inl rfl) leads opened
  | endObject within opened => exact .closing (.inr rfl) leads opened
  | name within =>
    rcases within with start | key
    · rw [start] at expected
      cases expected
    · rw [key] at expected
      cases expected
  | scalar word means allowed => exact (values _ expected allowed).elim

theorem token_eq_ok {d after : Decoder} {token : Token} (read : d.token = .ok (token, after)) :
    Reads d token after := by
  rw [Decoder.token] at read
  split at read
  next => cases read
  next lexeme rest first =>
    split at read
    next unskipped =>
      have accepts := accept_eq_ok read
      cases expected : lead d.tokenState with
      | nil =>
        refine .word ?_ ((settled_of_lead expected).symm ▸ accepts)
        rw [expected]
        exact leads_of_next first
      | cons separator others =>
        have single : lead d.tokenState = [separator] := by
          cases state : d.tokenState <;> rw [state] at expected <;> cases expected <;> rfl
        exact accepts.reads_of_lead (leads_of_next first) single
    next middle skipped =>
      obtain ⟨expected, rfl⟩ := skip_eq_some.mp skipped
      split at read
      next => cases read
      next word rest second =>
        rw [@accept_congr _ d.rest] at read
        refine .word ?_ (accept_eq_ok read)
        rw [expected]
        exact .cons first (leads_of_next second)

theorem token_opening {d after : Decoder} {m : Mark} (read : d.token = .ok (.delim m, after))
    (opens : m = .beginArray ∧ inner = .arrayStart ∨ m = .beginObject ∧ inner = .objectStart) :
    after.tokenState = inner ∧ after.tokenStack = led d.tokenState :: d.tokenStack ∧
      Leads (lead d.tokenState ++ [.mark m]) d.rest after.rest := by
  cases token_eq_ok read with
  | word leads accepts =>
    rcases opens with ⟨rfl, rfl⟩ | ⟨rfl, rfl⟩
    · cases accepts with
      | beginArray => exact ⟨rfl, rfl, leads⟩
      | scalar word means => exact absurd means simple_ne_delim
    · cases accepts with
      | beginObject => exact ⟨rfl, rfl, leads⟩
      | scalar word means => exact absurd means simple_ne_delim
  | closing closes =>
    rcases opens with ⟨rfl, rfl⟩ | ⟨rfl, rfl⟩
    · rcases closes with impossible | impossible <;> cases impossible
    · rcases closes with impossible | impossible <;> cases impossible

theorem lead_of_led {state : TokenState}
    (start : led state = .arrayStart ∨ led state = .arrayComma ∨ led state = .objectStart ∨
      led state = .objectComma) : lead state = [] := by
  cases state <;> first | rfl | simp [led] at start

theorem token_closing {d after : Decoder} {m : Mark} (read : d.token = .ok (.delim m, after))
    (closes : m = .endArray ∨ m = .endObject) :
    (∃ outer stack, d.tokenStack = outer :: stack ∧ after.tokenState = tokenValueEnd outer ∧
      after.tokenStack = stack) ∧ Leads [.mark m] d.rest after.rest := by
  cases token_eq_ok read with
  | word leads accepts =>
    cases accepts with
    | beginArray => rcases closes with impossible | impossible <;> cases impossible
    | beginObject => rcases closes with impossible | impossible <;> cases impossible
    | @endArray outer stack within opened =>
      have nothing : lead d.tokenState = [] := lead_of_led (by
        rcases within with start | comma
        · exact .inl start
        · exact .inr (.inl comma))
      rw [nothing] at leads
      exact ⟨⟨outer, stack, opened, rfl, rfl⟩, leads⟩
    | @endObject outer stack within opened =>
      have nothing : lead d.tokenState = [] := lead_of_led (by
        rcases within with start | comma
        · exact .inr (.inr (.inl start))
        · exact .inr (.inr (.inr comma)))
      rw [nothing] at leads
      exact ⟨⟨outer, stack, opened, rfl, rfl⟩, leads⟩
    | scalar word means => exact absurd means simple_ne_delim
  | @closing _ rest outer stack _ leads opened =>
    exact ⟨⟨outer, stack, opened, rfl, rfl⟩, leads⟩

theorem token_scalar {d after : Decoder} {token : Token} (read : d.token = .ok (token, after))
    (plain : ∀ m, token ≠ .delim m) (allowed : tokenValueAllowed (led d.tokenState) = true) :
    after.tokenState = tokenValueEnd (led d.tokenState) ∧ after.tokenStack = d.tokenStack ∧
      ∃ document, simple document = some token ∧
        Leads (lead d.tokenState ++ document.lexemes) d.rest after.rest := by
  cases token_eq_ok read with
  | word leads accepts =>
    cases accepts with
    | @scalar document _ _ word means => exact ⟨rfl, rfl, document, means, word ▸ leads⟩
    | name within =>
      rcases within with start | key
      · rw [show led d.tokenState = .objectStart from start] at allowed
        cases allowed
      · rw [show led d.tokenState = .objectKey from key] at allowed
        cases allowed
    | _ => exact absurd rfl (plain _)
  | closing => exact absurd rfl (plain _)

theorem token_name {d after : Decoder} {key : String}
    (read : d.token = .ok (.string key, after))
    (expected : d.tokenState = .objectStart ∨ d.tokenState = .objectComma) :
    after.tokenState = .objectColon ∧ after.tokenStack = d.tokenStack ∧
      ∃ body, key = unquote body ∧ Leads (lead d.tokenState ++ [.str body]) d.rest after.rest := by
  have value : tokenValueAllowed (led d.tokenState) = true → False := by
    intro allowed
    rcases expected with start | comma
    · rw [start] at allowed
      cases allowed
    · rw [comma] at allowed
      cases allowed
  cases token_eq_ok read with
  | word leads accepts =>
    cases accepts with
    | @name body _ => exact ⟨rfl, rfl, body, rfl, leads⟩
    | scalar word means allowed => exact (value allowed).elim

theorem token_shorter {d after : Decoder} {token : Token} (read : d.token = .ok (token, after)) :
    after.rest.length < d.rest.length := by
  rw [Decoder.token] at read
  split at read
  next => cases read
  next lexeme rest first =>
    have shorter := next_shorter first
    split at read
    next =>
      rw [(accept_eq_ok read).rest_eq]
      exact shorter
    next middle skipped =>
      obtain ⟨-, rfl⟩ := skip_eq_some.mp skipped
      split at read
      next => cases read
      next word rest second =>
        rw [(accept_eq_ok read).rest_eq]
        exact (next_shorter second).trans shorter

/-! ## Spelled tokens -/

/-- A word that is spelled after the separator that is expected is the next token. -/
theorem token_of_spells {d : Decoder}
    (spells : Spells (lead d.tokenState ++ lexeme :: others) d.rest)
    (word : lexeme.separates = false) (apart : lexeme.isNumber = true → Follows others) :
    ∃ rest, d.token = d.settled.accept rest lexeme ∧ Spells others rest := by
  cases expected : lead d.tokenState with
  | nil =>
    rw [expected] at spells
    obtain ⟨rest, read, tail⟩ := next_of_spells spells apart
    refine ⟨rest, ?_, tail⟩
    rw [Decoder.token, read]
    dsimp only
    rw [skip_eq_none word, settled_of_lead expected]
  | cons separator more =>
    have single : lead d.tokenState = [separator] ∧ separator.isNumber = false := by
      cases state : d.tokenState <;> rw [state] at expected <;> cases expected <;>
        exact ⟨rfl, rfl⟩
    rw [single.1, List.singleton_append] at spells
    obtain ⟨middle, first, spells⟩ := next_word single.2 spells
    obtain ⟨rest, second, tail⟩ := next_of_spells spells apart
    refine ⟨rest, ?_, tail⟩
    rw [Decoder.token, first]
    dsimp only
    rw [skip_eq_some.mpr ⟨single.1, rfl⟩]
    dsimp only
    rw [second]
    exact accept_congr

theorem token_of_opening {d : Decoder} {m : Mark}
    (spells : Spells (lead d.tokenState ++ .mark m :: others) d.rest)
    (opens : m = .beginArray ∧ inner = .arrayStart ∨ m = .beginObject ∧ inner = .objectStart)
    (allowed : tokenValueAllowed (led d.tokenState) = true) :
    ∃ rest, d.token = .ok (.delim m, ⟨rest, inner, led d.tokenState :: d.tokenStack⟩) ∧
      Spells others rest := by
  have word : (Lexeme.mark m).separates = false := by
    rcases opens with ⟨rfl, -⟩ | ⟨rfl, -⟩ <;> rfl
  obtain ⟨rest, read, tail⟩ := token_of_spells spells word (fun number => by cases number)
  refine ⟨rest, ?_, tail⟩
  rw [read]
  rcases opens with ⟨rfl, rfl⟩ | ⟨rfl, rfl⟩
  · exact if_pos allowed
  · exact if_pos allowed

theorem token_of_closing {d : Decoder} {m : Mark} {outer : TokenState} {stack : List TokenState}
    (spells : Spells (.mark m :: others) d.rest)
    (closes : m = .endArray ∧ (d.tokenState = .arrayStart ∨ d.tokenState = .arrayComma) ∨
      m = .endObject ∧ (d.tokenState = .objectStart ∨ d.tokenState = .objectComma))
    (opened : d.tokenStack = outer :: stack) :
    ∃ rest, d.token = .ok (.delim m, ⟨rest, tokenValueEnd outer, stack⟩) ∧ Spells others rest := by
  obtain ⟨rest, read, tail⟩ := next_word rfl spells
  refine ⟨rest, ?_, tail⟩
  have word : (Lexeme.mark m).separates = false := by
    rcases closes with ⟨rfl, -⟩ | ⟨rfl, -⟩ <;> rfl
  rw [Decoder.token, read]
  dsimp only
  rw [skip_eq_none word]
  rcases closes with ⟨rfl, within⟩ | ⟨rfl, within⟩
  · rw [accept, closeWith, if_pos within, opened]
  · rw [accept, closeWith, if_pos within, opened]

theorem body_of_spells {before others : List Lexeme} {body s : GoString}
    (spells : Spells (before ++ .str body :: others) s) : Body body := by
  induction before generalizing s with
  | nil =>
    cases spells with
    | cons isBlank valid tail => exact valid
  | cons lexeme before ih =>
    cases spells with
    | cons isBlank valid tail => exact ih tail

theorem token_of_name {d : Decoder} {body : GoString}
    (spells : Spells (lead d.tokenState ++ .str body :: others) d.rest)
    (expected : d.tokenState = .objectStart ∨ d.tokenState = .objectComma) :
    ∃ rest, d.token = .ok (.string (unquote body), ⟨rest, .objectColon, d.tokenStack⟩) ∧
      Spells others rest := by
  obtain ⟨rest, read, tail⟩ := token_of_spells spells rfl (fun number => by cases number)
  refine ⟨rest, ?_, tail⟩
  have within : d.settled.tokenState = .objectStart ∨ d.settled.tokenState = .objectKey := by
    rcases expected with start | comma
    · exact .inl (by rw [settled, start]; rfl)
    · exact .inr (by rw [settled, comma]; rfl)
  rw [read, accept, unquote?_eq (body_of_spells spells)]
  exact if_pos within

theorem token_of_scalar {d : Decoder} {document : Written} {token : Token}
    (spells : Spells (lead d.tokenState ++ (document.lexemes ++ others)) d.rest)
    (means : simple document = some token) (allowed : tokenValueAllowed (led d.tokenState) = true)
    (follows : Follows others) :
    ∃ rest, d.token = .ok (token, ⟨rest, tokenValueEnd (led d.tokenState), d.tokenStack⟩) ∧
      Spells others rest := by
  have plain : ∀ word : Token, d.settled.scalar word = fun rest =>
      .ok (word, ⟨rest, tokenValueEnd (led d.tokenState), d.tokenStack⟩) := by
    intro word
    funext rest
    exact if_pos allowed
  cases document with
  | null =>
    cases means
    obtain ⟨rest, read, tail⟩ := token_of_spells spells rfl (fun number => by cases number)
    exact ⟨rest, by rw [read, accept, plain], tail⟩
  | bool b =>
    cases means
    obtain ⟨rest, read, tail⟩ := token_of_spells spells rfl (fun number => by cases number)
    exact ⟨rest, by rw [read, accept, plain], tail⟩
  | num literal =>
    cases means
    obtain ⟨rest, read, tail⟩ := token_of_spells spells rfl (fun _ => follows)
    exact ⟨rest, by rw [read, accept, plain], tail⟩
  | str body =>
    cases means
    obtain ⟨rest, read, tail⟩ := token_of_spells spells rfl (fun number => by cases number)
    have value : ¬(d.settled.tokenState = .objectStart ∨ d.settled.tokenState = .objectKey) := by
      rintro (start | key)
      · rw [show led d.tokenState = .objectStart from start] at allowed
        cases allowed
      · rw [show led d.tokenState = .objectKey from key] at allowed
        cases allowed
    refine ⟨rest, ?_, tail⟩
    rw [read, accept, unquote?_eq (body_of_spells spells)]
    dsimp only
    rw [if_neg value, plain]
  | arr items => cases means
  | obj members => cases means

theorem accept_ne_eof {d : Decoder} : d.accept rest lexeme ≠ .error .eof := by
  have plain : ∀ token, d.scalar token rest ≠ .error .eof := by
    intro token
    rw [scalar]
    split <;> exact nofun
  have opening : ∀ m inner, d.openWith m inner rest ≠ .error .eof := by
    intro m inner
    rw [openWith]
    split <;> exact nofun
  have closing : ∀ m start comma, d.closeWith m start comma rest ≠ .error .eof := by
    intro m start comma
    rw [closeWith]
    split
    next => split <;> exact nofun
    next => exact nofun
  cases lexeme with
  | mark m =>
    cases m with
    | beginArray => exact opening _ _
    | beginObject => exact opening _ _
    | endArray => exact closing _ _ _
    | endObject => exact closing _ _ _
    | colon => exact nofun
    | comma => exact nofun
  | null => exact plain _
  | bool b => exact plain _
  | num literal => exact plain _
  | str body =>
    rw [accept]
    split
    next => exact nofun
    next s =>
      split
      next => exact nofun
      next => exact plain _

theorem token_eq_eof {d : Decoder} (top : d.tokenState = .topValue) :
    d.token = .error .eof ↔ Spells [] d.rest := by
  rw [← next_eq_eof]
  constructor
  · intro ended
    rw [Decoder.token] at ended
    split at ended
    next e failed =>
      cases e with
      | eof => exact failed
      | invalid => cases ended
    next lexeme rest read =>
      split at ended
      next => exact absurd ended accept_ne_eof
      next middle skipped =>
        have expected := (skip_eq_some.mp skipped).1
        rw [top] at expected
        cases expected
  · intro nothing
    rw [Decoder.token, nothing]
    rfl

theorem closes_of_head (valid : lexeme.Valid) {b : Fin 256} {s rest : GoString}
    (shape : lexeme.bytes ++ s = b :: rest) :
    decide (b ≠ byte ']' ∧ b ≠ byte '\x7d') = !lexeme.closes := by
  cases lexeme with
  | mark m =>
    obtain rfl := (List.cons.inj shape).1
    cases m <;> decide
  | bool value =>
    cases value with
    | true =>
      obtain rfl := (List.cons.inj shape).1
      decide
    | false =>
      obtain rfl := (List.cons.inj shape).1
      decide
  | num literal =>
    obtain ⟨first, after, begins, starts⟩ := Number.head (s := s) valid
    rw [Lexeme.bytes, begins] at shape
    obtain rfl := (List.cons.inj shape).1
    have plain : ∀ c : Fin 256, isDigit c = true ∨ c = byte '-' →
        c ≠ byte ']' ∧ c ≠ byte '\x7d' := by
      decide +kernel
    exact decide_eq_true (plain first starts)
  | _ =>
    obtain rfl := (List.cons.inj shape).1
    rfl

theorem more_of_spells {d : Decoder} (spells : Spells (lexeme :: others) d.rest) :
    d.more = !lexeme.closes := by
  have first : ∃ b, (d.rest.dropWhile isSpace).head? = some b ∧
      decide (b ≠ byte ']' ∧ b ≠ byte '\x7d') = !lexeme.closes := by
    generalize d.rest = s at spells
    cases spells with
    | @cons _ _ blank rest isBlank valid tail =>
      obtain ⟨b, after, shape, solid, -⟩ := Lexeme.head valid rest
      refine ⟨b, ?_, closes_of_head valid shape⟩
      rw [List.dropWhile_append_of_pos isBlank, shape, List.dropWhile_cons_of_neg]
      · rfl
      · rw [solid]
        decide
  obtain ⟨b, head, closes⟩ := first
  rw [more, peek, head]
  exact closes

end Decoder

end OufMcp.Json
