/-!
# UTF-8

Bytes are read as the text they encode. Where they encode none, the first position at which they
fail is reported: with the length of the malformed sequence, or as incomplete if the bytes end
within a sequence that is well formed so far.
-/

namespace FrameQuery.Utf8

/-- Why bytes encode no text. -/
inductive Fault where
  | invalid (length index : Nat)
  | incomplete (index : Nat)
  deriving DecidableEq, Repr

/-- A fault in words. -/
def Fault.message : Fault → String
  | .invalid length index =>
    "invalid utf-8 sequence of " ++ toString length ++ " bytes from index " ++ toString index
  | .incomplete index => "incomplete utf-8 byte sequence from index " ++ toString index

/-- Whether a byte lies between two others. -/
def between (low high byte : UInt8) : Bool := low ≤ byte && byte ≤ high

/-- Whether a byte continues a sequence. -/
def continues (byte : UInt8) : Bool := between 0x80 0xBF byte

/-- The second bytes a first byte allows. Shorter encodings, surrogates and numbers beyond the last
code point are excluded here. -/
def allowsSecond (first second : UInt8) : Bool :=
  if first = 0xE0 then between 0xA0 0xBF second
  else if first = 0xED then between 0x80 0x9F second
  else if first = 0xF0 then between 0x90 0xBF second
  else if first = 0xF4 then between 0x80 0x8F second
  else continues second

/-- The six payload bits of a continuing byte. -/
def payload (byte : UInt8) : Nat := byte.toNat % 64

/-- Reads bytes from a position on. -/
def decodeFrom : List UInt8 → Nat → Except Fault (List Char)
  | [], _ => .ok []
  | a :: rest, i =>
    if a < 0x80 then
      (decodeFrom rest (i + 1)).map (Char.ofNat a.toNat :: ·)
    else if between 0xC2 0xDF a then
      match rest with
      | [] => .error (.incomplete i)
      | b :: rest =>
        if !allowsSecond a b then .error (.invalid 1 i)
        else (decodeFrom rest (i + 2)).map (Char.ofNat (a.toNat % 32 * 64 + payload b) :: ·)
    else if between 0xE0 0xEF a then
      match rest with
      | [] => .error (.incomplete i)
      | b :: rest =>
        if !allowsSecond a b then .error (.invalid 1 i)
        else match rest with
        | [] => .error (.incomplete i)
        | c :: rest =>
          if !continues c then .error (.invalid 2 i)
          else
            let n := (a.toNat % 16 * 64 + payload b) * 64 + payload c
            (decodeFrom rest (i + 3)).map (Char.ofNat n :: ·)
    else if between 0xF0 0xF4 a then
      match rest with
      | [] => .error (.incomplete i)
      | b :: rest =>
        if !allowsSecond a b then .error (.invalid 1 i)
        else match rest with
        | [] => .error (.incomplete i)
        | c :: rest =>
          if !continues c then .error (.invalid 2 i)
          else match rest with
          | [] => .error (.incomplete i)
          | d :: rest =>
            if !continues d then .error (.invalid 3 i)
            else
              let n := ((a.toNat % 8 * 64 + payload b) * 64 + payload c) * 64 + payload d
              (decodeFrom rest (i + 4)).map (Char.ofNat n :: ·)
    else .error (.invalid 1 i)

/-- Reads bytes as a text. -/
def decode (bytes : List UInt8) : Except Fault String := (decodeFrom bytes 0).map String.ofList

end FrameQuery.Utf8
