import Telemetry.Text.Encoding

/-! Files of text: UTF-8, with line breaks of any kind. -/

namespace Telemetry.Text

def unifyBreaks : List Char → List Char
  | '\r' :: '\n' :: rest => '\n' :: unifyBreaks rest
  | '\r' :: rest => '\n' :: unifyBreaks rest
  | c :: rest => c :: unifyBreaks rest
  | [] => []

def readFile (octets : List UInt8) : Except EncodingFault (List Char) :=
  unifyBreaks <$> decodeUtf8 octets

end Telemetry.Text
