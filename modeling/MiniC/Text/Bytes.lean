/-!
# Bytes of a text

Texts are stored and sent as their UTF-8 bytes. Cutting such bytes may cut a character, and bytes
that are no UTF-8 have no text.
-/

namespace MiniC

/-- What is stored in a file or sent to a program. -/
abbrev Bytes := List UInt8

/-- The bytes of a text. -/
def Bytes.ofText (text : String) : Bytes := text.toUTF8.data.toList

/-- The text that bytes are the UTF-8 of. -/
def Bytes.text? (bytes : Bytes) : Option String := String.fromUTF8? ⟨bytes.toArray⟩

end MiniC
