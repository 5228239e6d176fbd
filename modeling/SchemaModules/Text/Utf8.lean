import SchemaModules.Text.Quoted

/-!
# Decoding UTF-8

Bytes are decoded strictly: overlong forms, surrogates and code points past the last one are
refused at their first byte. A refusal tells which bytes are at fault and why.
-/

namespace SchemaModules.Text

inductive Utf8Reason
  | startByte
  | continuationByte
  | endOfData

def Utf8Reason.message : Utf8Reason → String
  | startByte => "invalid start byte"
  | continuationByte => "invalid continuation byte"
  | endOfData => "unexpected end of data"

/-- The bytes at fault are `count` from `position` on, of which `byte` is the first. -/
structure Utf8Fault where
  reason : Utf8Reason
  position : Nat
  count : Nat
  byte : Nat

def Utf8Fault.message (fault : Utf8Fault) : String :=
  let reason := fault.reason.message
  if fault.count = 1 then
    let byte := String.ofList (hexDigits 2 fault.byte)
    s!"'utf-8' codec can't decode byte 0x{byte} in position {fault.position}: {reason}"
  else
    let last := fault.position + fault.count - 1
    s!"'utf-8' codec can't decode bytes in position {fault.position}-{last}: {reason}"

def isContinuation (byte : Nat) : Bool := 0x80 ≤ byte && byte ≤ 0xBF

/-- Least and greatest second byte after a first byte of a sequence of three or four. -/
def secondByteRange (first : Nat) : Nat × Nat :=
  if first = 0xE0 then (0xA0, 0xBF)
  else if first = 0xED then (0x80, 0x9F)
  else if first = 0xF0 then (0x90, 0xBF)
  else if first = 0xF4 then (0x80, 0x8F)
  else (0x80, 0xBF)

/-- The code point that `first` begins and the number of further bytes it takes, or the reason of
a refusal and the number of bytes at fault. -/
def decodeSequence (first : Nat) (rest : List Nat) : Except (Utf8Reason × Nat) (Nat × Nat) :=
  let inRange (second : Nat) : Bool :=
    (secondByteRange first).1 ≤ second && second ≤ (secondByteRange first).2
  if first < 0x80 then .ok (first, 0)
  else if first < 0xC2 || 0xF4 < first then .error (.startByte, 1)
  else if first < 0xE0 then
    match rest with
    | [] => .error (.endOfData, 1)
    | b :: _ =>
      if isContinuation b then .ok ((first - 0xC0) * 0x40 + (b - 0x80), 1)
      else .error (.continuationByte, 1)
  else if first < 0xF0 then
    match rest with
    | [] => .error (.endOfData, 1)
    | [b] => if inRange b then .error (.endOfData, 2) else .error (.continuationByte, 1)
    | b :: c :: _ =>
      if !inRange b then .error (.continuationByte, 1)
      else if !isContinuation c then .error (.continuationByte, 2)
      else .ok (((first - 0xE0) * 0x40 + (b - 0x80)) * 0x40 + (c - 0x80), 2)
  else
    match rest with
    | [] => .error (.endOfData, 1)
    | [b] => if inRange b then .error (.endOfData, 2) else .error (.continuationByte, 1)
    | [b, c] =>
      if !inRange b then .error (.continuationByte, 1)
      else if !isContinuation c then .error (.continuationByte, 2)
      else .error (.endOfData, 3)
    | b :: c :: d :: _ =>
      if !inRange b then .error (.continuationByte, 1)
      else if !isContinuation c then .error (.continuationByte, 2)
      else if !isContinuation d then .error (.continuationByte, 3)
      else
        .ok ((((first - 0xF0) * 0x40 + (b - 0x80)) * 0x40 + (c - 0x80)) * 0x40 + (d - 0x80), 3)

def decodeFrom (position : Nat) : List Nat → Except Utf8Fault (List Char)
  | [] => .ok []
  | first :: rest =>
    match decodeSequence first rest with
    | .error (reason, count) => .error ⟨reason, position, count, first⟩
    | .ok (code, further) =>
      (decodeFrom (position + 1 + further) (rest.drop further)).map (Char.ofNat code :: ·)
termination_by bytes => bytes.length
decreasing_by
  simp only [List.length_drop, List.length_cons]
  omega

def decodeUtf8 (bytes : List Nat) : Except Utf8Fault String :=
  (decodeFrom 0 bytes).map String.ofList

/-- Ends every line with a line feed: a carriage return, with the line feed after it if there is
one, becomes a line feed. -/
def unifyBreaks : List Char → List Char
  | [] => []
  | '\r' :: '\n' :: rest => '\n' :: unifyBreaks rest
  | '\r' :: rest => '\n' :: unifyBreaks rest
  | c :: rest => c :: unifyBreaks rest

end SchemaModules.Text
