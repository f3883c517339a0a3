namespace RuleChart.Flowchart

/-! Texts inside a flowchart document.

A text is cut before it is escaped, so no code is ever cut.  Codes stand for the three
characters that could be read as markup; quotes and edge delimiters are replaced by
look-alikes, braces are dropped, and control characters become blanks.
-/

/-- The first `limit` characters; a negative limit drops as many from the end. -/
def slice (limit : Int) (text : List Char) : List Char :=
  if 0 ≤ limit then text.take limit.toNat else text.take (text.length - (-limit).toNat)

def isControl (c : Char) : Bool := c.toNat < 32 || c.toNat = 127

def escapedChar (c : Char) : List Char :=
  if isControl c then [' ']
  else if c = '"' then ['\'']
  else if c = '#' then ['#', '3', '5', ';']
  else if c = '<' then ['#', 'l', 't', ';']
  else if c = '>' then ['#', 'g', 't', ';']
  else if c = '\x7b' ∨ c = '\x7d' then []
  else if c = '|' then ['/']
  else [c]

def escapeLabel (limit : Int) (text : String) : String :=
  String.ofList ((slice limit text.toList).flatMap escapedChar)

end RuleChart.Flowchart
