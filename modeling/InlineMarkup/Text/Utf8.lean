/-!
# Texts as bytes

Offsets into a text count the bytes of its UTF-8 encoding, so the functions that look for
delimiters and cut runs work on `Bytes`. `Utf8.decode?_encode` says that nothing is lost on the
way there and back.
-/

namespace InlineMarkup

/-- The bytes of a text, or of a piece of one. -/
abbrev Bytes := List UInt8

namespace Utf8

/-- The UTF-8 encoding of a text. -/
def encode (s : String) : Bytes :=
  s.toList.flatMap String.utf8EncodeChar

/-- The text that `b` encodes, if `b` is well formed. -/
def decode? (b : Bytes) : Option String :=
  String.fromUTF8? b.toByteArray

/-- The text that `b` encodes; bytes that encode no text stand for the empty text. -/
def decode (b : Bytes) : String :=
  (decode? b).getD ""

theorem toByteArray_encode (s : String) : (encode s).toByteArray = s.toByteArray := by
  have h : s.toList.utf8Encode = s.toByteArray := by simp
  exact h

theorem decode?_encode (s : String) : decode? (encode s) = some s := by
  unfold decode? String.fromUTF8?
  rw [toByteArray_encode]
  simp [s.isValidUTF8, String.fromUTF8]

theorem decode_encode (s : String) : decode (encode s) = s := by
  rw [decode, decode?_encode, Option.getD_some]

theorem encode_append (s t : String) : encode (s ++ t) = encode s ++ encode t := by
  simp [encode]

theorem encode_injective {s t : String} (h : encode s = encode t) : s = t := by
  rw [← decode_encode s, h, decode_encode]

end Utf8

end InlineMarkup
