import GeneralParser.Text.CodePoints

/-!
# White space

The characters with the property of white space: the controls from the tabulator to the carriage
return and the one for the next line, and all separators. Characters without a width of their own
are not among them.
-/

namespace GeneralParser

/-- The code points of white space. The ranges have been the same since version 6.3 of the character
database. -/
def CodePoints.whiteSpace : CodePoints.Ranges :=
  [(0x9, 0xd), (0x20, 0x20), (0x85, 0x85), (0xa0, 0xa0), (0x1680, 0x1680), (0x2000, 0x200a),
   (0x2028, 0x2029), (0x202f, 0x202f), (0x205f, 0x205f), (0x3000, 0x3000)]

/-- Whether `c` is white space. -/
def isWhiteSpace (c : Char) : Bool := CodePoints.whiteSpace.contain c

end GeneralParser
