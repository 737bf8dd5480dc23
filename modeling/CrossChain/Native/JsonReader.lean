import CrossChain.Native.JsonWriter

/-!
# Reading json

jsoncpp's `Reader` with `Features::all()`, which the server reads its requests
with.  The state of a reader is what lies between `current_` and `end_`.  The
caller looks at the value and at whether there were errors; the list of errors
is left out.  `turns` bounds the nesting and the loops of the three functions
that call each other, and `outOfTurns` is a reader still running.
-/

namespace CrossChain

namespace JsonReader

/-- `TokenType`. -/
inductive TokenType where
  | endOfStream
  | objectBegin
  | objectEnd
  | arrayBegin
  | arrayEnd
  | string
  | number
  | true
  | false
  | null
  | arraySeparator
  | memberSeparator
  | comment
  | error
  deriving DecidableEq, Repr

/-- `Token`, its text from `start_` to `end_`. -/
structure Token where
  type : TokenType
  text : Str
  deriving DecidableEq

/-! ## Tokens -/

/-- `getNextChar`, which gives 0 at the end. -/
def getNextChar : Str → UInt8 × Str
  | [] => (0, [])
  | c :: s => (c, s)

def isSpace (c : UInt8) : Bool := c = 0x20 ∨ c = 0x09 ∨ c = 0x0d ∨ c = 0x0a

/-- `skipSpaces`. -/
def skipSpaces (s : Str) : Str := s.dropWhile isSpace

/-- `match`: whether the pattern comes next. -/
def matches' (pattern s : Str) : Bool × Str :=
  if pattern.isPrefixOf s then (true, s.drop pattern.length) else (false, s)

/-- `readCStyleComment`. -/
def readCStyleComment : Str → Bool × Str
  | [] => (false, [])
  | c :: s =>
    if c = 0x2a ∧ s.head? = some 0x2f then (true, s.drop 1) else readCStyleComment s

/-- `readCppStyleComment`, which always succeeds. -/
def readCppStyleComment : Str → Str
  | [] => []
  | c :: s => if c = 0x0d ∨ c = 0x0a then s else readCppStyleComment s

/-- `readComment`, behind the first slash. -/
def readComment (s : Str) : Bool × Str :=
  let (c, s) := getNextChar s
  if c = 0x2a then readCStyleComment s
  else if c = 0x2f then (true, readCppStyleComment s)
  else (false, s)

/-- The characters `readNumber` goes over. -/
def isNumberChar (c : UInt8) : Bool :=
  isdigit c || c = 0x2e || c = 0x65 || c = 0x45 || c = 0x2b || c = 0x2d

/-- `readNumber`. -/
def readNumber (s : Str) : Str := s.dropWhile isNumberChar

/-- `readString`, behind the opening quote. -/
def readString : Str → Bool × Str
  | [] => (false, [])
  | c :: s =>
    if c = 0x5c then
      match s with
      | [] => (false, [])
      | _ :: s => readString s
    else if c = 0x22 then (true, s)
    else readString s

/-- The `case` labels of `readToken`, other than those of a number. -/
def tokenCases : List (UInt8 × TokenType) :=
  [(0x7b, .objectBegin), (0x7d, .objectEnd), (0x5b, .arrayBegin), (0x5d, .arrayEnd),
    (0x22, .string), (0x2f, .comment), (0x74, .true), (0x66, .false), (0x6e, .null),
    (0x2c, .arraySeparator), (0x3a, .memberSeparator), (0, .endOfStream)]

/-- The type of the token that starts with `c`. -/
def tokenType (c : UInt8) : TokenType :=
  if isdigit c ∨ c = 0x2d then .number else (tokenCases.lookup c).getD .error

/-- What the `switch` does for a type: whether it is `ok`, and what it leaves. -/
def finishToken (type : TokenType) (s : Str) : Bool × Str :=
  match type with
  | .string => readString s
  | .comment => readComment s
  | .number => (true, readNumber s)
  | .true => matches' (str "rue") s
  | .false => matches' (str "alse") s
  | .null => matches' (str "ull") s
  | .error => (false, s)
  | _ => (true, s)

/-- `readToken`, which never fails. -/
def readToken (s : Str) : Token × Str :=
  let start := skipSpaces s
  let (c, current) := getNextChar start
  let (ok, current) := finishToken (tokenType c) current
  (⟨if ok then tokenType c else .error, start.take (start.length - current.length)⟩, current)

/-- The loop of `skipCommentTokens`. -/
def skipCommentTokensGo : Nat → Str → Token × Str
  | 0, s => readToken s
  | turns + 1, s =>
    let (token, s) := readToken s
    if token.type = .comment then skipCommentTokensGo turns s else (token, s)

/-- `skipCommentTokens`.  No more comments follow than there are bytes. -/
def skipCommentTokens (s : Str) : Token × Str := skipCommentTokensGo s.length s

/-! ## Strings -/

/-- `codePointToUTF8`. -/
def codePointToUTF8 (cp : Nat) : Str :=
  if cp ≤ 0x7f then [UInt8.ofNat cp]
  else if cp ≤ 0x7ff then
    [UInt8.ofNat (0xc0 ||| (0x1f &&& (cp >>> 6))), UInt8.ofNat (0x80 ||| (0x3f &&& cp))]
  else if cp ≤ 0xffff then
    [UInt8.ofNat (0xe0 ||| (0xf &&& (cp >>> 12))), UInt8.ofNat (0x80 ||| (0x3f &&& (cp >>> 6))),
      UInt8.ofNat (0x80 ||| (0x3f &&& cp))]
  else if cp ≤ 0x10ffff then
    [UInt8.ofNat (0xf0 ||| (0x7 &&& (cp >>> 18))), UInt8.ofNat (0x80 ||| (0x3f &&& (cp >>> 12))),
      UInt8.ofNat (0x80 ||| (0x3f &&& (cp >>> 6))), UInt8.ofNat (0x80 ||| (0x3f &&& cp))]
  else []

/-- The value of a hexadecimal digit. -/
def hexValue (c : UInt8) : Option Nat :=
  if isdigit c then some (c.toNat - 0x30)
  else if 0x61 ≤ c ∧ c ≤ 0x66 then some (c.toNat - 0x61 + 10)
  else if 0x41 ≤ c ∧ c ≤ 0x46 then some (c.toNat - 0x41 + 10)
  else none

/-- `decodeUnicodeEscapeSequence`: four digits. -/
def decodeUnicodeEscapeSequence (s : Str) : Option (Nat × Str) :=
  match s with
  | c₀ :: c₁ :: c₂ :: c₃ :: s => do
    let d₀ ← hexValue c₀
    let d₁ ← hexValue c₁
    let d₂ ← hexValue c₂
    let d₃ ← hexValue c₃
    return (((d₀ * 16 + d₁) * 16 + d₂) * 16 + d₃, s)
  | _ => none

/-- `decodeUnicodeCodePoint`, with the second half of a surrogate pair. -/
def decodeUnicodeCodePoint (s : Str) : Option (Nat × Str) := do
  let (unicode, s) ← decodeUnicodeEscapeSequence s
  if 0xd800 ≤ unicode ∧ unicode ≤ 0xdbff then
    if s.length < 6 then none
    else if s.take 2 = str "\\u" then do
      let (surrogatePair, s) ← decodeUnicodeEscapeSequence (s.drop 2)
      return (0x10000 + ((unicode &&& 0x3ff) <<< 10) + (surrogatePair &&& 0x3ff), s)
    else none
  else return (unicode, s)

/-- The escapes of one character. -/
def escape (c : UInt8) : Option UInt8 :=
  if c = 0x22 then some 0x22
  else if c = 0x2f then some 0x2f
  else if c = 0x5c then some 0x5c
  else if c = 0x62 then some 0x08
  else if c = 0x66 then some 0x0c
  else if c = 0x6e then some 0x0a
  else if c = 0x72 then some 0x0d
  else if c = 0x74 then some 0x09
  else none

/-- The loop of `decodeString`, between the quotes. -/
def decodeStringGo : Nat → Str → Option Str
  | _, [] => some []
  | 0, _ :: _ => none
  | turns + 1, c :: s =>
    if c = 0x22 then some []
    else if c = 0x5c then
      match s with
      | [] => none
      | e :: s =>
        if e = 0x75 then do
          let (unicode, s) ← decodeUnicodeCodePoint s
          let decoded ← decodeStringGo turns s
          return codePointToUTF8 unicode ++ decoded
        else do
          let c ← escape e
          let decoded ← decodeStringGo turns s
          return c :: decoded
    else do
      let decoded ← decodeStringGo turns s
      return c :: decoded

/-- `decodeString`, of the text of a token.  Each turn goes over a byte at least. -/
def decodeString (text : Str) : Option Str :=
  let body := (text.drop 1).dropLast
  decodeStringGo body.length body

/-! ## Numbers -/

/-- What the loop of `decodeNumber` comes to. -/
inductive Digits where
  | value (n : Nat)
  /-- From `threshold` on the number is read as a double. -/
  | large
  | notANumber

/-- The loop of `decodeNumber`. -/
def decodeDigits (threshold : Nat) : Nat → Str → Digits
  | value, [] => .value value
  | value, c :: s =>
    if ¬ isdigit c then .notANumber
    else if threshold ≤ value then .large
    else decodeDigits threshold (value * 10 + (c.toNat - 0x30)) s

/-- `decodeNumber`, with `scan` for `decodeDouble`. -/
def decodeNumber (scan : Str → Option ℚ) (text : Str) : Option Json :=
  let isDouble := text.any (fun c => c = 0x2e ∨ c = 0x65 ∨ c = 0x45 ∨ c = 0x2b) ||
    (text.drop 1).any (· = 0x2d)
  if isDouble then (scan text).map .real
  else
    let isNegative := text.head? = some 0x2d
    let threshold := if isNegative then 0x80000000 / 10 else 0xffffffff / 10
    match decodeDigits threshold 0 (if isNegative then text.drop 1 else text) with
    | .value n => some (.int (if isNegative then -n else n))
    | .large => (scan text).map .real
    | .notANumber => none

/-! ## Values -/

/-- The loop of `recoverFromError`. -/
def recoverGo (skipUntilToken : TokenType) : Nat → Str → Str
  | 0, s => s
  | turns + 1, s =>
    let (skip, s) := readToken s
    if skip.type = skipUntilToken ∨ skip.type = .endOfStream then s
    else recoverGo skipUntilToken turns s

/-- `recoverFromError`: where it leaves `current_`. -/
def recoverFromError (skipUntilToken : TokenType) (s : Str) : Str :=
  recoverGo skipUntilToken (s.length + 1) s

/-- The name of a member, with its colon: the first half of a turn of `readObject`, from
    the token it starts with.  An error carries `current_`. -/
def readName (tokenName : Token) (s : Str) : Except Str (Str × Str) :=
  if tokenName.type ≠ .string then .error s
  else
    match decodeString tokenName.text with
    | none => .error s
    | some name =>
      let (colon, s) := readToken s
      if colon.type ≠ .memberSeparator then .error s else .ok (name, s)

/-- What follows the value of a member: the other half. -/
def readComma (s : Str) : Except Str (TokenType × Str) :=
  let (comma, s) := readToken s
  if comma.type ≠ .objectEnd ∧ comma.type ≠ .arraySeparator ∧ comma.type ≠ .comment then .error s
  else
    -- behind a comment the type is not tested again
    let (comma, s) := if comma.type = .comment then skipCommentTokens s else (comma, s)
    .ok (comma.type, s)

/-- How a function of the reader ends. -/
inductive Outcome where
  /-- It returns true. -/
  | done (value : Json) (rest : Str)
  /-- It returns false. -/
  | failed (rest : Str)
  | outOfTurns

mutual

/-- `readValue`. -/
def readValue (scan : Str → Option ℚ) : Nat → Str → Outcome
  | 0, _ => .outOfTurns
  | turns + 1, s =>
    let (token, s) := skipCommentTokens s
    match token.type with
    | .objectBegin => readObject scan turns [] [] s
    | .arrayBegin =>
      -- the test for an empty array does not skip comments
      if (skipSpaces s).head? = some 0x5d then .done (.array []) (readToken s).2
      else readArray scan turns [] s
    | .number =>
      match decodeNumber scan token.text with
      | some value => .done value s
      | none => .failed s
    | .string =>
      match decodeString token.text with
      | some decoded => .done (.string (cStr decoded)) s
      | none => .failed s
    | .true => .done (.bool true) s
    | .false => .done (.bool false) s
    | .null => .done .null s
    | _ => .failed s

/-- The loop of `readObject`, with the name it has last read. -/
def readObject (scan : Str → Option ℚ) : Nat → Str → Object → Str → Outcome
  | 0, _, _, _ => .outOfTurns
  | turns + 1, name, members, s =>
    let (tokenName, s) := skipCommentTokens s
    if tokenName.type = .objectEnd ∧ name = [] then .done (.object members) s
    else
      match readName tokenName s with
      | .error s => .failed (recoverFromError .objectEnd s)
      | .ok (name, s) =>
        match readValue scan turns s with
        | .outOfTurns => .outOfTurns
        | .failed s => .failed (recoverFromError .objectEnd s)
        | .done value s =>
          match readComma s with
          | .error s => .failed (recoverFromError .objectEnd s)
          | .ok (comma, s) =>
            let members := OrdMap.insert nameRank members (nameOf (cStr name)) value
            if comma = .objectEnd then .done (.object members) s
            else readObject scan turns name members s

/-- The loop of `readArray`. -/
def readArray (scan : Str → Option ℚ) : Nat → List Json → Str → Outcome
  | 0, _, _ => .outOfTurns
  | turns + 1, elems, s =>
    match readValue scan turns s with
    | .outOfTurns => .outOfTurns
    | .failed s => .failed (recoverFromError .arrayEnd s)
    | .done value s =>
      let (token, s) := skipCommentTokens s
      -- as in the source, no type is both
      let badTokenType := token.type = .arraySeparator ∧ token.type = .arrayEnd
      if badTokenType then .failed (recoverFromError .arrayEnd s)
      else if token.type = .arrayEnd then .done (.array (elems ++ [value])) s
      else readArray scan turns (elems ++ [value]) s

end

/-- `parse`: the value, if it returns true.  What follows the value is skipped. -/
def parse (scan : Str → Option ℚ) (document : Str) : Option Json :=
  match readValue scan (2 * document.length + 1) document with
  | .done value _ => some value
  | _ => none

end JsonReader

end CrossChain
