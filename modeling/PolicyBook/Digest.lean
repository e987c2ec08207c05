import PolicyBook.Text.Numeral
/-!
Digests: thirty-two bytes that stand for a content.

The text of a digest is its bytes in lower-case hexadecimal, and its label names the algorithm too.
-/
namespace PolicyBook

structure Digest where
  bytes : Vector UInt8 32
  deriving DecidableEq

namespace Digest

/-- The digest of all zero bytes, which stands for “nothing before”. -/
def zero : Digest := ⟨Vector.replicate 32 0⟩

def ofBytes? (bytes : List UInt8) : Option Digest :=
  if h : bytes.toArray.size = 32 then some ⟨⟨bytes.toArray, h⟩⟩ else none

def toBytes (d : Digest) : List UInt8 := d.bytes.toList

def hex (d : Digest) : String := String.ofList (d.toBytes.flatMap Text.hexByte)

def label (d : Digest) : String := "sha256:" ++ d.hex

theorem ofBytes?_toBytes (d : Digest) : ofBytes? d.toBytes = some d := by
  obtain ⟨⟨array, size_eq⟩⟩ := d
  simp [ofBytes?, toBytes, size_eq]

end Digest

end PolicyBook
