/-
# What can be wrong with a markup text

Each fault is a cause. Its wording stands in one function per kind of fault.
Offsets count bytes: for an attribute within the text between `<` and `>`, for
an escape within the attribute's value.
-/

import OverlayManifest.Text.Quoted

namespace OverlayManifest.Xml

/-- A piece of markup that has an end of its own. -/
inductive Construct
  | bang
  | comment
  | cdata
  | doctype
  | instruction
  | element
  deriving DecidableEq, Repr

/-- The name under which a construct is reported. -/
def Construct.name : Construct → String
  | .bang => "Bang"
  | .comment => "Comment"
  | .cdata => "CData"
  | .doctype => "DOCTYPE"
  | .instruction => "XmlDecl"
  | .element => "Element"

/-- What can be wrong with an escape in an attribute value. -/
inductive EscapeFault
  | unterminated (start stop : Nat)
  | unknownName (start stop : Nat) (name : List Char)
  | nullCharacter (start stop : Nat)
  | noCharacter (code : Nat)
  | notHexadecimal (symbol : Char)
  | notDecimal (symbol : Char)
  | hexadecimalTooLong
  | decimalTooLong
  deriving DecidableEq, Repr

namespace EscapeFault

/-- How a fault that has a place in the value opens its wording. -/
private def located (start stop : Nat) (reason : String) : String :=
  s!"Error while escaping character at range {start}..{stop}: " ++ reason

/-- The wording of a fault. -/
def message : EscapeFault → String
  | .unterminated start stop => located start stop "Cannot find ';' after '&'"
  | .unknownName start stop name =>
      located start stop ("Unrecognized escape symbol: " ++ Text.quoted name)
  | .nullCharacter start stop => located start stop "Null character entity not allowed"
  | .noCharacter code => s!"'{code}' is not a valid codepoint"
  | .notHexadecimal symbol => s!"'{symbol}' is not a valid hexadecimal character"
  | .notDecimal symbol => s!"'{symbol}' is not a valid decimal character"
  | .hexadecimalTooLong => "Cannot convert hexadecimal to utf8"
  | .decimalTooLong => "Cannot convert decimal to utf8"

end EscapeFault

/-- What can be wrong with the attributes of a tag. -/
inductive AttributeFault
  | expectedEquals (offset : Nat)
  | expectedValue (offset : Nat)
  | unquotedValue (offset : Nat)
  | unclosedValue (offset : Nat) (quote : Char)
  | duplicated (offset previous : Nat)
  deriving DecidableEq, Repr

/-- The wording of a fault. -/
def AttributeFault.message : AttributeFault → String
  | .expectedEquals offset =>
      s!"position {offset}: attribute key must be directly followed by `=` or space"
  | .expectedValue offset =>
      s!"position {offset}: `=` must be followed by an attribute value"
  | .unquotedValue offset =>
      s!"position {offset}: attribute value must be enclosed in `\"` or `'`"
  | .unclosedValue offset quote =>
      s!"position {offset}: missing closing quote `{quote}` in attribute value"
  | .duplicated offset previous =>
      s!"position {offset}: duplicated attribute, previous declaration at position {previous}"

/-- What can be wrong with a markup text. -/
inductive Fault
  | endOfText (construct : Construct)
  | unknownBang (symbol : Char)
  | emptyDoctype
  | mismatch (expected found : List Char)
  | attribute (fault : AttributeFault)
  | escape (fault : EscapeFault)
  deriving DecidableEq, Repr

/-- The wording of a fault. -/
def Fault.message : Fault → String
  | .endOfText construct => "Unexpected EOF during reading " ++ construct.name
  | .unknownBang symbol =>
      "Only Comment (`--`), CDATA (`[CDATA[`) and DOCTYPE (`DOCTYPE`) nodes can start with a '!', "
        ++ s!"but symbol `{symbol}` found"
  | .emptyDoctype => "DOCTYPE declaration must not be empty"
  | .mismatch expected found =>
      "Expecting </" ++ String.ofList expected ++ "> found </" ++ String.ofList found ++ ">"
  | .attribute fault => "error while parsing attribute: " ++ fault.message
  | .escape fault => fault.message

end OverlayManifest.Xml
