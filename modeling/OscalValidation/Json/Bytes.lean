import OscalValidation.Json.Reader
import OscalValidation.Text.Encoding

set_option autoImplicit false

/-! # Object documents as bytes

A document given as bytes says by its first bytes which encoding it is in: by a byte order
mark, or by where the zero bytes stand, since a document begins with an ASCII character.
-/

namespace OscalValidation

namespace Json

open Text (Bytes Encoding DecodeError)

/-- The encoding of a document without a byte order mark, by where the zero bytes stand. -/
def encodingByZeros (bytes : Bytes) : Encoding :=
  match bytes with
  | 0x00 :: 0x00 :: _ :: _ :: _ => .utf32 true
  | 0x00 :: _ :: _ :: _ :: _ => .utf16 true
  | _ :: 0x00 :: 0x00 :: 0x00 :: _ => .utf32 false
  | _ :: 0x00 :: _ :: _ :: _ => .utf16 false
  | [0x00, _] => .utf16 true
  | [_, 0x00] => .utf16 false
  | _ => .utf8

/-- The encoding of a document, and its bytes without a byte order mark and the number of
bytes the mark takes. -/
def detectEncoding (bytes : Bytes) : Encoding × Bytes × Nat :=
  match bytes with
  | 0x00 :: 0x00 :: 0xFE :: 0xFF :: rest => (.utf32 true, rest, 4)
  | 0xFF :: 0xFE :: 0x00 :: 0x00 :: rest => (.utf32 false, rest, 4)
  | 0xFE :: 0xFF :: rest => (.utf16 true, rest, 2)
  | 0xFF :: 0xFE :: rest => (.utf16 false, rest, 2)
  | 0xEF :: 0xBB :: 0xBF :: rest => (.utf8, rest, 0)
  | _ => (encodingByZeros bytes, bytes, 0)

/-- Why bytes could not be read as a document. -/
inductive BytesError
  | decode (error : DecodeError)
  | read (error : ReadError)
deriving DecidableEq

/-- The wording of a failure to read bytes. -/
def BytesError.message : BytesError → String
  | .decode error => error.message
  | .read error => error.message

/-- **The document that bytes hold.** -/
def readBytes (bytes : Bytes) : Except BytesError Json :=
  let (encoding, rest, mark) := detectEncoding bytes
  match Text.decode encoding true rest with
  | .error error => .error (.decode { error with offset := error.offset + mark })
  | .ok text => (readDecoded text).mapError .read

/-- The document that a text file in UTF-8 holds. -/
def readFile (bytes : Bytes) : Except BytesError Json :=
  match Text.decode .utf8 false bytes with
  | .error error => .error (.decode error)
  | .ok text => (read (String.ofList (Text.uniformLines text.toList))).mapError .read

end Json

end OscalValidation
