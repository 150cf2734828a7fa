import MoeNG.Kernel.JsonParse
import MoeNG.Kernel.Utf8Decode

/-!
# Bounded JSON (`packages/contracts/src/bounded-json.ts`, `bounded-json-parser.ts`, `bounded-json-string.ts`, `input-limits.ts`)

The parser of hostile bytes. The number policy is the parameter `number`, from
the lexeme of a number to the value it stands for, if it is supported.
-/

namespace MoeNG.Contracts
open MoeNG.Kernel

/-! ### Limits and refusals (`input-limits.ts:1-3`, `bounded-json-model.ts:1-13`) -/

def maxJsonBodyBytes : ℕ := 1048576
def maxJsonDepth : ℕ := 64
def maxJsonStringUtf8Bytes : ℕ := 262144

inductive BoundedJsonErrorCode where
  | JSON_INPUT_TYPE_INVALID
  | JSON_BODY_LIMIT_EXCEEDED
  | JSON_UTF8_INVALID
  | JSON_SYNTAX_INVALID
  | JSON_DEPTH_LIMIT_EXCEEDED
  | JSON_STRING_LIMIT_EXCEEDED
  | JSON_DUPLICATE_KEY
  | JSON_UNICODE_INVALID
  | JSON_NUMBER_RANGE_INVALID
  deriving DecidableEq

/-! ### Strings (`bounded-json-string.ts:48-161`) -/

def readHexCodeUnit : JsString → Option (CodeUnit × JsString)
  | a :: b :: c :: d :: rest => (hexUnit a b c d).map fun unit => (unit, rest)
  | _ => none

def utf8ByteLength (codePoint : ℕ) : ℕ :=
  if codePoint ≤ 0x7F then 1 else if codePoint ≤ 0x7FF then 2 else if codePoint ≤ 0xFFFF then 3 else 4

/-- What an escape stands for, how many bytes that takes, and what follows the escape. -/
def scanEscape : JsString → Except BoundedJsonErrorCode (JsString × ℕ × JsString)
  | [] => .error .JSON_SYNTAX_INVALID
  | e :: rest =>
    match escapeOf e with
    | some simple => .ok ([simple], 1, rest)
    | none =>
      if e ≠ 117 then .error .JSON_SYNTAX_INVALID
      else match readHexCodeUnit rest with
        | none => .error .JSON_SYNTAX_INVALID
        | some (high, rest) =>
          if isLowSurrogate high then .error .JSON_UNICODE_INVALID
          else if !isHighSurrogate high then .ok ([high], utf8ByteLength high, rest)
          else match rest with
            | 92 :: 117 :: rest =>
              match readHexCodeUnit rest with
              | none => .error .JSON_SYNTAX_INVALID
              | some (low, rest) =>
                if !isLowSurrogate low then .error .JSON_UNICODE_INVALID else .ok ([high, low], 4, rest)
            | _ => .error .JSON_UNICODE_INVALID

/-- The loop of the scanner, with the bytes decoded so far. Every round takes a unit or more. -/
def scanUnits : ℕ → ℕ → JsString → Except BoundedJsonErrorCode (JsString × JsString)
  | 0, _, _ => .error .JSON_SYNTAX_INVALID
  | _, _, [] => .error .JSON_SYNTAX_INVALID
  | fuel + 1, decodedBytes, c :: rest =>
    if c = 34 then .ok ([], rest)
    else if c = 92 then
      (scanEscape rest).bind fun (units, byteLength, rest) =>
        if decodedBytes + byteLength > maxJsonStringUtf8Bytes then .error .JSON_STRING_LIMIT_EXCEEDED
        else (scanUnits fuel (decodedBytes + byteLength) rest).map fun p => (units ++ p.1, p.2)
    else if c < 0x20 then .error .JSON_SYNTAX_INVALID
    else if isHighSurrogate c then
      -- behind the last unit `charCodeAt` is `NaN`, which no comparison refuses
      if rest.head?.any fun low => !isLowSurrogate low then .error .JSON_UNICODE_INVALID
      else if decodedBytes + 4 > maxJsonStringUtf8Bytes then .error .JSON_STRING_LIMIT_EXCEEDED
      else (scanUnits fuel (decodedBytes + 4) (rest.drop 1)).map fun p => (c :: rest.take 1 ++ p.1, p.2)
    else if isLowSurrogate c then .error .JSON_UNICODE_INVALID
    else if decodedBytes + utf8ByteLength c > maxJsonStringUtf8Bytes then .error .JSON_STRING_LIMIT_EXCEEDED
    else (scanUnits fuel (decodedBytes + utf8ByteLength c) rest).map fun p => (c :: p.1, p.2)

/-- The string behind an opening quote, and what follows the closing one. -/
def scanBoundedJsonString (rest : JsString) : Except BoundedJsonErrorCode (JsString × JsString) :=
  scanUnits (rest.length + 1) 0 rest

/-! ### Values (`bounded-json-parser.ts:24-206`) -/

def scanNumber (s : JsString) : Option (JsString × JsString) :=
  match (readMinus s).2 with
  | 48 :: c :: _ => if isDigitUnit c then none else readLexeme s
  | _ => readLexeme s

section Parser
variable {N : Type} (number : JsString → Option N)

def parseNumber (s : JsString) : Except BoundedJsonErrorCode (Json N × Bool × JsString) :=
  match scanNumber s with
  | none => .error .JSON_SYNTAX_INVALID
  | some (lexeme, rest) =>
    match number lexeme with
    | none => .error .JSON_NUMBER_RANGE_INVALID
    | some value => .ok (.number value, false, rest)

def parseLiteral (source : String) (value : Json N) (s : JsString) :
    Except BoundedJsonErrorCode (Json N × Bool × JsString) :=
  if (lit source).isPrefixOf s then .ok (value, false, s.drop (lit source).length) else .error .JSON_SYNTAX_INVALID

mutual

/-- A value, whether a key was found twice in it, and what follows it. Every call takes a unit or is the first of two
for it. -/
def parseValue : ℕ → ℕ → JsString → Except BoundedJsonErrorCode (Json N × Bool × JsString)
  | 0, _, _ => .error .JSON_SYNTAX_INVALID
  | _, _, [] => .error .JSON_SYNTAX_INVALID
  | fuel + 1, depth, c :: rest =>
    if c = 34 then (scanBoundedJsonString rest).map fun p => (.string p.1, false, p.2)
    else if c = 91 then
      if depth ≥ maxJsonDepth then .error .JSON_DEPTH_LIMIT_EXCEEDED
      else match skipSpace rest with
        | 93 :: rest => .ok (.array [], false, rest)
        | rest => (parseItems fuel depth rest).map fun p => (.array p.1, p.2)
    else if c = 123 then
      if depth ≥ maxJsonDepth then .error .JSON_DEPTH_LIMIT_EXCEEDED
      else match skipSpace rest with
        | 125 :: rest => .ok (.object [], false, rest)
        | rest => (parseEntries fuel depth [] rest).map fun p => (.object p.1, p.2)
    else if c = 116 then parseLiteral "true" (.boolean true) (c :: rest)
    else if c = 102 then parseLiteral "false" (.boolean false) (c :: rest)
    else if c = 110 then parseLiteral "null" .null (c :: rest)
    else if c = 45 || isDigitUnit c then parseNumber number (c :: rest)
    else .error .JSON_SYNTAX_INVALID

def parseItems : ℕ → ℕ → JsString → Except BoundedJsonErrorCode (List (Json N) × Bool × JsString)
  | 0, _, _ => .error .JSON_SYNTAX_INVALID
  | fuel + 1, depth, s =>
    (parseValue fuel (depth + 1) (skipSpace s)).bind fun (item, found, rest) =>
      match skipSpace rest with
      | 93 :: rest => .ok ([item], found, rest)
      | 44 :: rest => (parseItems fuel depth rest).map fun p => (item :: p.1, found || p.2.1, p.2.2)
      | _ => .error .JSON_SYNTAX_INVALID

/-- The entries of an object behind those with the given keys; a key met again adds no entry. -/
def parseEntries : ℕ → ℕ → List JsString → JsString →
    Except BoundedJsonErrorCode (List (JsString × Json N) × Bool × JsString)
  | 0, _, _, _ => .error .JSON_SYNTAX_INVALID
  | fuel + 1, depth, keys, s =>
    match skipSpace s with
    | 34 :: rest =>
      (scanBoundedJsonString rest).bind fun (key, rest) =>
        match skipSpace rest with
        | 58 :: rest =>
          (parseValue fuel (depth + 1) (skipSpace rest)).bind fun (member, found, rest) =>
            let duplicate := decide (key ∈ keys)
            let entry := if duplicate then [] else [(key, member)]
            match skipSpace rest with
            | 125 :: rest => .ok (entry, duplicate || found, rest)
            | 44 :: rest =>
              (parseEntries fuel depth (key :: keys) rest).map fun p => (entry ++ p.1, duplicate || found || p.2.1, p.2.2)
            | _ => .error .JSON_SYNTAX_INVALID
        | _ => .error .JSON_SYNTAX_INVALID
    | _ => .error .JSON_SYNTAX_INVALID

end

def parseBoundedJsonText (text : JsString) : Except BoundedJsonErrorCode (Json N) :=
  (parseValue number (2 * text.length) 0 (skipSpace text)).bind fun (value, found, rest) =>
    if skipSpace rest ≠ [] then .error .JSON_SYNTAX_INVALID
    else if found then .error .JSON_DUPLICATE_KEY
    else .ok value

/-! ### Bytes (`bounded-json.ts:126-144`) -/

def decodeBoundedJsonBytes (bytes : List Byte) : Except BoundedJsonErrorCode (Json N) :=
  if bytes.length > maxJsonBodyBytes then .error .JSON_BODY_LIMIT_EXCEEDED
  else match decodeText bytes with
    | none => .error .JSON_UTF8_INVALID
    | some text => parseBoundedJsonText number text

end Parser

end MoeNG.Contracts
