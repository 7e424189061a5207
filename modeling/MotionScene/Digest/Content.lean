import MotionScene.Digest.Sha256
import MotionScene.Json.Printer

/-!
# Content hashes

A content hash is the SHA-256 digest of a byte string led by its length, so that
equal hashes stand for equal contents.  A JSON tree is hashed through its text
without blanks.
-/

namespace MotionScene

/-- The hash of a content, as the list of its thirty-two bytes. -/
structure ContentHash where
  bytes : List UInt8
deriving DecidableEq, Repr

namespace ContentHash

/-- The length of a content as eight bytes, lowest first. -/
def lengthBytes (size : Nat) : List UInt8 :=
  (List.range 8).map fun index => (size >>> (8 * index)).toUInt8

/-- The message that is digested for a content: its length, then its bytes. -/
def framed (content : ByteArray) : ByteArray :=
  (lengthBytes content.size).toByteArray ++ content

/-- The hash of a byte string. -/
def ofBytes (content : ByteArray) : ContentHash :=
  ⟨Sha256.digest (framed content)⟩

/-- The hash of a text, taken over its UTF-8 bytes. -/
def ofText (text : String) : ContentHash :=
  ofBytes text.toUTF8

/-- The hash of a JSON tree, taken over its text without blanks. -/
def ofJson (tree : Json) : ContentHash :=
  ofText tree.text

/-- The hash in hexadecimal. -/
def hex (hash : ContentHash) : String :=
  String.ofList (hash.bytes.flatMap fun byte =>
    [Digit.lowerHex (byte.toNat / 16), Digit.lowerHex (byte.toNat % 16)])

end ContentHash
end MotionScene
