/-!
Lines of a byte stream. A line ends at a line feed, a carriage return before the line feed belongs to
the ending, and each line is decoded on its own, so that a malformed line leaves those before it readable.
-/

namespace Mos6502.Text

/-- Splits bytes after each line feed; a last line without line feed counts if it is not empty. -/
def splitLinesFrom (line : List UInt8) : List UInt8 → List (List UInt8)
  | [] => if line.isEmpty then [] else [line.reverse]
  | byte :: rest =>
    if byte = 0x0A then
      (match line with
        | 0x0D :: kept => kept.reverse
        | _ => line.reverse) :: splitLinesFrom [] rest
    else splitLinesFrom (byte :: line) rest

/-- The lines of a byte stream without their endings. -/
def splitLines (bytes : List UInt8) : List (List UInt8) :=
  splitLinesFrom [] bytes

/-- The text that a byte string encodes in UTF-8, if it does. -/
def decodeUtf8? (bytes : List UInt8) : Option String :=
  String.fromUTF8? bytes.toByteArray

def malformedUtf8 : String := "stream did not contain valid UTF-8"

end Mos6502.Text
