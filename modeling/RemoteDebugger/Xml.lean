/-!
# XML elements

The payloads of structured answers are XML. An element is a tag with attributes and elements inside;
only `render` makes text of it, and it escapes every attribute value, so no text can end an
attribute or start an element. White space in values is written as character references, which keeps
a reader from turning it into blanks.
-/

namespace RemoteDebugger

/-- An attribute of an element: its name and its value before escaping. -/
abbrev Xml.Attribute := String × String

/-- An element. An empty one is written as a single tag, with or without a blank before its end; any
other has a closing tag. -/
inductive Xml where
  | empty (tag : String) (spaced : Bool) (attrs : List Xml.Attribute)
  | node (tag : String) (attrs : List Xml.Attribute) (children : List Xml)

namespace Xml

def escapeChar (c : Char) : List Char :=
  match c with
  | '&' => "&amp;".toList
  | '<' => "&lt;".toList
  | '>' => "&gt;".toList
  | '\'' => "&apos;".toList
  | '"' => "&quot;".toList
  | '\t' => "&#9;".toList
  | '\n' => "&#10;".toList
  | '\r' => "&#13;".toList
  | c => [c]

/-- Escape a text for use in an attribute value. -/
def escape (s : String) : String := String.ofList (s.toList.flatMap escapeChar)

def renderAttribute (a : Attribute) : String := " " ++ a.1 ++ "=\"" ++ escape a.2 ++ "\""

def renderAttributes (attrs : List Attribute) : String := String.join (attrs.map renderAttribute)

mutual

def render : Xml → String
  | .empty tag spaced attrs =>
    "<" ++ tag ++ renderAttributes attrs ++ (if spaced then " />" else "/>")
  | .node tag attrs children =>
    "<" ++ tag ++ renderAttributes attrs ++ ">" ++ renderAll children ++ "</" ++ tag ++ ">"

def renderAll : List Xml → String
  | [] => ""
  | x :: rest => render x ++ renderAll rest

end

/-- A payload: elements inside the root element. -/
def document (children : List Xml) : String := (Xml.node "xml" [] children).render

end Xml

end RemoteDebugger
