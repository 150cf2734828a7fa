import MoeNG.Kernel.JsonTree

/-!
# `JSON.parse`

The reader of the JSON grammar: whitespace between tokens, escapes with
hexadecimal digits of both cases, no control characters in strings, the last
of two entries with one key. `value` is the number that a number text denotes.
-/

namespace MoeNG.Kernel
open MoeNG.Lib

/-! ### Tokens -/

def isSpace (c : CodeUnit) : Bool := c = 32 || c = 9 || c = 10 || c = 13

def skipSpace (s : JsString) : JsString := s.dropWhile isSpace

def isDigitUnit (c : CodeUnit) : Bool := 48 ≤ c && c ≤ 57

def hexOf (c : CodeUnit) : Option ℕ :=
  if 48 ≤ c ∧ c ≤ 57 then some (c.val - 48) else if 97 ≤ c ∧ c ≤ 102 then some (c.val - 87)
  else if 65 ≤ c ∧ c ≤ 70 then some (c.val - 55) else none

def hexUnit (a b c d : CodeUnit) : Option CodeUnit := do
  let a ← hexOf a
  let b ← hexOf b
  let c ← hexOf c
  let d ← hexOf d
  some (Fin.ofNat 65536 (a * 4096 + b * 256 + c * 16 + d))

def escapeOf (c : CodeUnit) : Option CodeUnit :=
  if c = 34 ∨ c = 92 ∨ c = 47 then some c else if c = 98 then some 8 else if c = 102 then some 12
  else if c = 110 then some 10 else if c = 114 then some 13 else if c = 116 then some 9 else none

/-- The units of a string behind its opening quote, and what follows the closing one. -/
def readChars : JsString → Option (JsString × JsString)
  | [] => none
  | c :: rest =>
    if c = 34 then some ([], rest)
    else if c = 92 then
      match rest with
      | [] => none
      | e :: rest =>
        if e = 117 then
          match rest with
          | a :: b :: c :: d :: rest =>
            (hexUnit a b c d).bind fun unit => (readChars rest).map fun p => (unit :: p.1, p.2)
          | _ => none
        else (escapeOf e).bind fun unit => (readChars rest).map fun p => (unit :: p.1, p.2)
    else if c < 32 then none
    else (readChars rest).map fun p => (c :: p.1, p.2)

/-! ### Number texts -/

def readDigits (s : JsString) : Option (JsString × JsString) :=
  if s.takeWhile isDigitUnit = [] then none else some (s.takeWhile isDigitUnit, s.dropWhile isDigitUnit)

def readMinus : JsString → JsString × JsString
  | 45 :: rest => ([45], rest)
  | s => ([], s)

def readInteger : JsString → Option (JsString × JsString)
  | 48 :: rest => some ([48], rest)
  | s => readDigits s

def readFraction : JsString → Option (JsString × JsString)
  | 46 :: rest => (readDigits rest).map fun p => (46 :: p.1, p.2)
  | s => some ([], s)

def readSign : JsString → JsString × JsString
  | 43 :: rest => ([43], rest)
  | 45 :: rest => ([45], rest)
  | s => ([], s)

def readExponent : JsString → Option (JsString × JsString)
  | [] => some ([], [])
  | e :: rest =>
    if e = 101 ∨ e = 69 then (readDigits (readSign rest).2).map fun p => (e :: (readSign rest).1 ++ p.1, p.2)
    else some ([], e :: rest)

def readLexeme (s : JsString) : Option (JsString × JsString) := do
  let (whole, afterWhole) ← readInteger (readMinus s).2
  let (fraction, afterFraction) ← readFraction afterWhole
  let (exponent, rest) ← readExponent afterFraction
  some ((readMinus s).1 ++ whole ++ fraction ++ exponent, rest)

/-! ### Values -/

namespace Json

/-- The last of the entries with one key, at the place of the first. -/
def assign {A : Type} (entries : List (JsString × A)) (entry : JsString × A) : List (JsString × A) :=
  if entries.any fun e => e.1 = entry.1 then entries.map fun e => if e.1 = entry.1 then entry else e
  else entries ++ [entry]

def assignAll {A : Type} (entries : List (JsString × A)) : List (JsString × A) := entries.foldl assign []

variable {N : Type} (value : JsString → Option N)

mutual

def settled : Json N → Json N
  | .array items => .array (settledItems items)
  | .object entries => .object (assignAll (settledEntries entries))
  | value => value

def settledItems : List (Json N) → List (Json N)
  | [] => []
  | value :: rest => settled value :: settledItems rest

def settledEntries : List (JsString × Json N) → List (JsString × Json N)
  | [] => []
  | (key, value) :: rest => (key, settled value) :: settledEntries rest

end

def readNumber (s : JsString) : Option (Json N × JsString) := do
  let (lexeme, rest) ← readLexeme s
  let number ← value lexeme
  some (.number number, rest)

def readWord (word : String) (result : Json N) (s : JsString) : Option (Json N × JsString) :=
  if (lit word).isPrefixOf s then some (result, s.drop (lit word).length) else none

mutual

def readValue : ℕ → JsString → Option (Json N × JsString)
  | 0, _ => none
  | fuel + 1, s =>
    match skipSpace s with
    | [] => none
    | c :: rest =>
      if c = 34 then (readChars rest).map fun p => (.string p.1, p.2)
      else if c = 91 then
        match skipSpace rest with
        | 93 :: rest => some (.array [], rest)
        | rest => (readItems fuel rest).map fun p => (.array p.1, p.2)
      else if c = 123 then
        match skipSpace rest with
        | 125 :: rest => some (.object [], rest)
        | rest => (readEntries fuel rest).map fun p => (.object p.1, p.2)
      else if c = 110 then readWord "null" .null (c :: rest)
      else if c = 116 then readWord "true" (.boolean true) (c :: rest)
      else if c = 102 then readWord "false" (.boolean false) (c :: rest)
      else readNumber value (c :: rest)

def readItems : ℕ → JsString → Option (List (Json N) × JsString)
  | 0, _ => none
  | fuel + 1, s =>
    (readValue fuel s).bind fun item =>
      match skipSpace item.2 with
      | 44 :: rest => (readItems fuel rest).map fun p => (item.1 :: p.1, p.2)
      | 93 :: rest => some ([item.1], rest)
      | _ => none

def readEntries : ℕ → JsString → Option (List (JsString × Json N) × JsString)
  | 0, _ => none
  | fuel + 1, s =>
    match skipSpace s with
    | 34 :: rest =>
      (readChars rest).bind fun key =>
        match skipSpace key.2 with
        | 58 :: rest =>
          (readValue fuel rest).bind fun item =>
            match skipSpace item.2 with
            | 44 :: rest => (readEntries fuel rest).map fun p => ((key.1, item.1) :: p.1, p.2)
            | 125 :: rest => some ([(key.1, item.1)], rest)
            | _ => none
        | _ => none
    | _ => none

end

/-- `JSON.parse` of the text. Every call reads a unit or is the first of two for it. -/
def parse (text : JsString) : Option (Json N) := do
  let (result, rest) ← readValue value (2 * text.length + 1) text
  if skipSpace rest = [] then some result.settled else none

end Json

end MoeNG.Kernel
