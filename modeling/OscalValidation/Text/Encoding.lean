import OscalValidation.Text.Quoted

set_option autoImplicit false

/-! # Texts as bytes

A text reaches the program as bytes in one of a few encodings. Decoding goes through the
bytes once: at each place there is either a character with the number of bytes it takes, or
a fault with the number of bytes it spoils. A strict decoder stops at the first fault and
says where it is; a lenient one leaves the spoilt bytes out.
-/

namespace OscalValidation.Text

abbrev Bytes := List UInt8

/-! ## Encodings -/

/-- **The encodings of a text.** -/
inductive Encoding
  /-- One to four bytes a character. -/
  | utf8
  | utf16 (bigEndian : Bool)
  | utf32 (bigEndian : Bool)
  /-- The first 256 characters, a byte each. -/
  | latin1
  /-- The first 128 characters, a byte each. -/
  | ascii
deriving DecidableEq

def Encoding.name : Encoding → String
  | .utf8 => "utf-8"
  | .utf16 false => "utf-16-le"
  | .utf16 true => "utf-16-be"
  | .utf32 false => "utf-32-le"
  | .utf32 true => "utf-32-be"
  | .latin1 => "iso8859-1"
  | .ascii => "ascii"

/-- What stands at a place in the bytes. -/
inductive Piece
  /-- A character that takes `length` bytes. -/
  | char (c : Char) (length : Nat)
  /-- `length` bytes that no character begins with. -/
  | fault (reason : String) (length : Nat)

/-- Half of a surrogate pair on its own is replaced. -/
def replacement : Char := Char.ofNat 0xFFFD

/-! ## One character -/

/-- A byte that continues a character. -/
def isContinuation (b : UInt8) : Bool := 0x80 ≤ b && b < 0xC0

/-- The six bits that a continuation byte carries. -/
def payload (b : UInt8) : Nat := b.toNat % 64

/-- The second bytes that may follow the first byte of a character; `surrogates` admits the
codes of surrogates. -/
def secondByteOk (surrogates : Bool) (first second : UInt8) : Bool :=
  isContinuation second &&
    if first = 0xE0 then 0xA0 ≤ second
    else if first = 0xED then surrogates || second < 0xA0
    else if first = 0xF0 then 0x90 ≤ second
    else if first = 0xF4 then second < 0x90
    else true

/-- The number of bytes of the character that begins with `first`; zero if none does. -/
def lengthFromFirst (first : UInt8) : Nat :=
  if first < 0x80 then 1
  else if first < 0xC2 then 0
  else if first < 0xE0 then 2
  else if first < 0xF0 then 3
  else if first < 0xF5 then 4
  else 0

/-- The character with a code; a surrogate is replaced. -/
def charOfCode (code : Nat) : Char :=
  if 0xD800 ≤ code ∧ code < 0xE000 then replacement else Char.ofNat code

/-- The piece of UTF-8 that begins with `first` and goes on with `rest`. A surrogate is
admitted only if it is complete. -/
def utf8Piece (surrogates : Bool) (first : UInt8) (rest : Bytes) : Piece :=
  let missing : Piece := .fault "unexpected end of data" (rest.length + 1)
  let broken (length : Nat) : Piece := .fault "invalid continuation byte" length
  let whole := surrogates && (rest.take 2).length == 2 && (rest.take 2).all isContinuation
  match lengthFromFirst first, rest with
  | 1, _ => .char (Char.ofNat first.toNat) 1
  | 2, [] => missing
  | 2, b :: _ =>
      if isContinuation b then .char (Char.ofNat (first.toNat % 32 * 64 + payload b)) 2
      else broken 1
  | 3, [] => missing
  | 3, b :: rest =>
      if !secondByteOk whole first b then broken 1
      else match rest with
        | [] => missing
        | c :: _ =>
            if isContinuation c then
              .char (charOfCode ((first.toNat % 16 * 64 + payload b) * 64 + payload c)) 3
            else broken 2
  | 4, [] => missing
  | 4, b :: rest =>
      if !secondByteOk whole first b then broken 1
      else match rest with
        | [] => missing
        | c :: rest =>
            if !isContinuation c then broken 2
            else match rest with
              | [] => missing
              | d :: _ =>
                  if isContinuation d then
                    .char (Char.ofNat
                      (((first.toNat % 8 * 64 + payload b) * 64 + payload c) * 64 + payload d)) 4
                  else broken 3
  | _, _ => .fault "invalid start byte" 1

/-- The number that bytes denote in the given order. -/
def unitOfBytes (bigEndian : Bool) (bytes : Bytes) : Nat :=
  (if bigEndian then bytes else bytes.reverse).foldl (fun n b => n * 256 + b.toNat) 0

/-- The piece of UTF-16 at the start of the bytes. Two surrogates that fit make one
character; half a pair on its own is replaced. -/
def utf16Piece (bigEndian : Bool) (bytes : Bytes) : Piece :=
  let first := unitOfBytes bigEndian (bytes.take 2)
  let second := unitOfBytes bigEndian ((bytes.drop 2).take 2)
  if bytes.length < 2 then .fault "truncated data" bytes.length
  else if 0xD800 ≤ first ∧ first < 0xDC00 ∧ 4 ≤ bytes.length ∧ 0xDC00 ≤ second ∧
      second < 0xE000 then
    .char (Char.ofNat (0x10000 + (first - 0xD800) * 0x400 + (second - 0xDC00))) 4
  else .char (charOfCode first) 2

/-- The piece of UTF-32 at the start of the bytes. -/
def utf32Piece (bigEndian : Bool) (bytes : Bytes) : Piece :=
  let code := unitOfBytes bigEndian (bytes.take 4)
  if bytes.length < 4 then .fault "truncated data" bytes.length
  else if 0x110000 ≤ code then .fault "code point not in range(0x110000)" 4
  else .char (charOfCode code) 4

/-- The piece that begins with `first` and goes on with `rest`. -/
def Encoding.piece (encoding : Encoding) (surrogates : Bool) (first : UInt8) (rest : Bytes) :
    Piece :=
  match encoding with
  | .utf8 => utf8Piece surrogates first rest
  | .utf16 bigEndian => utf16Piece bigEndian (first :: rest)
  | .utf32 bigEndian => utf32Piece bigEndian (first :: rest)
  | .latin1 => .char (Char.ofNat first.toNat) 1
  | .ascii =>
      if first < 0x80 then .char (Char.ofNat first.toNat) 1
      else .fault "ordinal not in range(128)" 1

/-! ## Whole texts -/

/-- The number of bytes of a piece. -/
def Piece.length : Piece → Nat
  | .char _ length | .fault _ length => length

/-- The pieces of a sequence of bytes, each with the bytes from its place on. The first `skip`
bytes belong to the piece before. -/
def piecesFrom (encoding : Encoding) (surrogates : Bool) : Nat → Bytes → List (Piece × Bytes)
  | _, [] => []
  | skip + 1, _ :: rest => piecesFrom encoding surrogates skip rest
  | 0, b :: rest =>
      let piece := encoding.piece surrogates b rest
      (piece, b :: rest) :: piecesFrom encoding surrogates (piece.length - 1) rest

/-- Bytes that are no text in their encoding. -/
structure DecodeError where
  encoding : Encoding
  reason : String
  /-- The offset of the first spoilt byte. -/
  offset : Nat
  spoilt : Bytes
deriving DecidableEq

/-- The wording of a fault in the bytes. -/
def DecodeError.message (e : DecodeError) : String :=
  let place := match e.spoilt with
    | [b] => s!"byte 0x{String.ofList (hexDigits 2 b.toNat)} in position {e.offset}"
    | bytes => s!"bytes in position {e.offset}-{e.offset + bytes.length - 1}"
  s!"'{e.encoding.name}' codec can't decode {place}: {e.reason}"

/-- The characters of the pieces up to the first fault, which is an error. `total` is the
number of all bytes. -/
def joinPieces (encoding : Encoding) (total : Nat) :
    List (Piece × Bytes) → Except DecodeError (List Char)
  | [] => .ok []
  | (.char c _, _) :: pieces => (joinPieces encoding total pieces).map (c :: ·)
  | (.fault reason length, bytes) :: _ =>
      .error ⟨encoding, reason, total - bytes.length, bytes.take length⟩

/-- **The text of a sequence of bytes.** With `surrogates` the codes of surrogates are
admitted in UTF-8, and replaced. -/
def decode (encoding : Encoding) (surrogates : Bool) (bytes : Bytes) :
    Except DecodeError String :=
  (joinPieces encoding bytes.length (piecesFrom encoding surrogates 0 bytes)).map String.ofList

/-- The text of bytes in UTF-8 without what is spoilt. -/
def decodeLenient (bytes : Bytes) : String :=
  String.ofList ((piecesFrom .utf8 false 0 bytes).filterMap fun
    | (.char c _, _) => some c
    | (.fault _ _, _) => none)

/-- The bytes of a text in UTF-8. -/
def encode (s : String) : Bytes := s.toUTF8.toList

/-- The text with every line end made a line feed. -/
def uniformLines : List Char → List Char
  | '\r' :: '\n' :: rest => '\n' :: uniformLines rest
  | '\r' :: rest => '\n' :: uniformLines rest
  | c :: rest => c :: uniformLines rest
  | [] => []

end OscalValidation.Text
