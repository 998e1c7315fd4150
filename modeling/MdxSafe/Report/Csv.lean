-- SUMMARY: Tables as comma-separated text.
import MdxSafe.Text.Basic

/-!
# Comma-separated text

A row is written on a line of its own, its fields separated by commas. A field that holds a comma, a quote or
a line feed is put in quotes, and the quotes inside are doubled.
-/

namespace MdxSafe.Csv

/-- Whether a character forces a field into quotes. -/
def isSpecial (c : Char) : Bool := c = ',' || c = '"' || c = '\n'

/-- A field. -/
def field (t : Text) : Text :=
  if t.any isSpecial then '"' :: Text.replaceChar '"' "\"\"" t ++ ['"'] else t

/-- A row with its line end. -/
def row (fields : List Text) : Text := Text.join [','] (fields.map field) ++ ['\n']

/-- A table: its rows in order. -/
def table (rows : List (List Text)) : Text := rows.flatMap row

end MdxSafe.Csv
