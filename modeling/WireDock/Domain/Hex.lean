import WireDock.Domain.Event

namespace WireDock.Hex

def isAsciiHexdigit (c : Char) : Bool :=
  c.isDigit || ('a' ≤ c && c ≤ 'f') || ('A' ≤ c && c ≤ 'F')

def toDigit (c : Char) : Option Nat :=
  if c.isDigit then some (c.toNat - '0'.toNat)
  else if 'a' ≤ c && c ≤ 'f' then some (c.toNat - 'a'.toNat + 10)
  else if 'A' ≤ c && c ≤ 'F' then some (c.toNat - 'A'.toNat + 10)
  else none

/-- The code points that `{:?}` shows as Unicode escapes: controls, separators other than the
space, characters for formatting and private use, combining diacritics. -/
def escapedRanges : List (Nat × Nat) :=
  [(0x00, 0x1F), (0x7F, 0xA0), (0xAD, 0xAD), (0x300, 0x36F), (0x600, 0x605), (0x61C, 0x61C),
    (0x6DD, 0x6DD), (0x70F, 0x70F), (0x890, 0x891), (0x8E2, 0x8E2), (0x1680, 0x1680),
    (0x180E, 0x180E), (0x2000, 0x200F), (0x2028, 0x202F), (0x205F, 0x206F), (0x3000, 0x3000),
    (0xE000, 0xF8FF), (0xFE00, 0xFE0F), (0xFEFF, 0xFEFF), (0xFFF9, 0xFFFB), (0xE0000, 0x10FFFF)]

/-- A character as `{:?}` prints it between quotes of one kind. -/
def escapeDebug (quote c : Char) : List Char :=
  if c = '\t' then ['\\', 't'] else if c = '\n' then ['\\', 'n'] else if c = '\r' then ['\\', 'r']
  else if c = '\x00' then ['\\', '0'] else if c = quote ∨ c = '\\' then ['\\', c]
  else if escapedRanges.any fun r ↦ r.1 ≤ c.toNat && c.toNat ≤ r.2 then
    ['\\', 'u', '\x7b'] ++ Nat.toDigits 16 c.toNat ++ ['\x7d']
  else [c]

def debugChar (c : Char) : String := String.ofList ('\'' :: escapeDebug '\'' c ++ ['\''])

example : debugChar '\x1b' = "'\\u\x7b1b\x7d'" := by decide

def radixDigits (value : Nat) : List Char → Except String UInt8
  | [] => .ok (UInt8.ofNat value)
  | c :: cs =>
    match toDigit c with
    | none => .error "invalid digit found in string"
    | some d =>
      if 16 * value + d < 2 ^ 8 then radixDigits (16 * value + d) cs
      else .error "number too large to fit in target type"

def fromStrRadix16 : List Char → Except String UInt8
  | [] => .error "cannot parse integer from empty string"
  | ['+'] | ['-'] => .error "invalid digit found in string"
  | '+' :: cs => radixDigits 0 cs
  | cs => radixDigits 0 cs

def joinDigits : List Char → Except DomainError (List Char)
  | [] => .ok []
  | c :: cs =>
    if isAsciiHexdigit c then (joinDigits cs).map (c :: ·)
    else .error (.invalidHex s!"non-hex character: {debugChar c}")

/-- The loop over byte pairs, each read back as text and parsed. A last byte
without a partner is the slice out of range, on which the source would panic. -/
def parsePairs : List UInt8 → Except DomainError (List UInt8)
  | [] => .ok []
  | [_] => .error (.logic "slice out of range")
  | b :: b' :: bytes =>
    match String.fromUTF8? ⟨#[b, b']⟩ with
    | none => .error (.invalidHex "non-ascii hex pair")
    | some pair =>
      match fromStrRadix16 pair.toList with
      | .error e => .error (.invalidHex s!"parse pair \"{pair}\": {e}")
      | .ok byte => (parsePairs bytes).map (byte :: ·)

def parseHexTokens (tokens : List String) : Except DomainError (List UInt8) :=
  if tokens.isEmpty then .error .emptyPayload
  else
    match joinDigits (tokens.flatMap String.toList) with
    | .error e => .error e
    | .ok joined =>
      if joined.isEmpty then .error .emptyPayload
      else if (String.ofList joined).utf8ByteSize % 2 ≠ 0 then
        .error (.invalidHex "odd number of hex digits")
      else parsePairs (joined.flatMap String.utf8EncodeChar)

def upperDigit (n : Nat) : Char :=
  if n < 10 then Char.ofNat ('0'.toNat + n) else Char.ofNat ('A'.toNat + (n - 10))

def formatByte (b : UInt8) : String :=
  String.ofList [upperDigit (b.toNat / 16), upperDigit (b.toNat % 16)]

def formatHexSpaced (bytes : List UInt8) : String :=
  " ".intercalate (bytes.map formatByte)

example : parseHexTokens ["4", "9", "3f"] = .ok [0x49, 0x3F] := by decide

example : formatHexSpaced [0x49, 0x35, 0, 0x1F] = "49 35 00 1F" := by decide

end WireDock.Hex
