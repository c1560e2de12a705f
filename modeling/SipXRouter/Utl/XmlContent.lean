import SipXRouter.Xml

/-!
# Escaping of XML content

`XmlEscape` copies runs of bytes that need no escape and writes a reference for each
byte between them.  The two classes of its expression cover every byte.
-/

namespace SipXRouter

/-- `XML_CHARS`. -/
def isXmlChar (c : Byte) : Bool :=
  oneOf "\x09\x0a\x0d\x20\x21\x3d" c || inRange '\x23' '\x25' c || inRange '\x28' '\x3b' c ||
    decide (0x3f ≤ c)

/-- The `switch` over a byte of `ESC_CHARS`. -/
def escapedChar (c : Byte) : Text :=
  if c = 0x22 then text "&quot;"
  else if c = 0x26 then text "&amp;"
  else if c = 0x27 then text "&apos;"
  else if c = 0x3c then text "&lt;"
  else if c = 0x3e then text "&gt;"
  else text "&#x" ++ [byte (Nat.digitChar (c.toNat / 16)), byte (Nat.digitChar (c.toNat % 16))] ++
    text ";"

/-- `XmlEscape`: what it appends to the destination. -/
def xmlEscape (source : Text) : Text :=
  source.flatMap fun c => if isXmlChar c then [c] else escapedChar c

/-- **`XmlEscape` writes character data.** -/
theorem xmlEscape_eq (source : Text) : xmlEscape source = Xml.escape source := by
  have hbyte : ∀ c, (if isXmlChar c then [c] else escapedChar c) = Xml.escapeByte c := by
    decide +kernel
  exact congrArg source.flatMap (funext hbyte)

end SipXRouter
