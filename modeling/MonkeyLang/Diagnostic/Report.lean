import MonkeyLang.Diagnostic.ParseError

/-!
# Reports

A report gives a parse error to a tool as one line: a JSON object whose fields stand in a fixed
order, with the field for advice left out where there is none. Reports on one text follow each
other on lines of their own.
-/

namespace MonkeyLang.Report

/-- What stands for one character in a string of a report. The quote, the backslash and the five
control characters that have short names are escaped; every other character is itself. -/
def escape (c : Char) : List Char :=
  if c = '"' then ['\\', '"']
  else if c = '\\' then ['\\', '\\']
  else if c = '\n' then ['\\', 'n']
  else if c = '\r' then ['\\', 'r']
  else if c = '\t' then ['\\', 't']
  else if c = '\x08' then ['\\', 'b']
  else if c = '\x0c' then ['\\', 'f']
  else [c]

/-- A string of a report, between double quotes. -/
def string (text : String) : String :=
  String.ofList ('"' :: text.toList.flatMap escape ++ ['"'])

/-- A named field of a report. -/
def field (name value : String) : String := "\"" ++ name ++ "\": " ++ value

/-- An object of a report. -/
def object (fields : List String) : String := "\x7b" ++ ",".intercalate fields ++ "\x7d"

/-- The place that an error cites, with its label. -/
def label (e : ParseError) : String :=
  "\x7b" ++ field "label" (string e.cause.label) ++ ","
    ++ field "span" ("\x7b" ++ field "offset" e.span.start.repr ++ ","
      ++ field "length" e.span.length.repr ++ "\x7d") ++ "\x7d"

/-- The report on one error in a file. -/
def ofError (file : String) (e : ParseError) : String :=
  object <|
    [field "message" (string e.message),
      field "code" (string e.cause.code),
      field "severity" (string "error"),
      field "causes" "[]"]
    ++ (e.cause.help?.map fun help ↦ field "help" (string help)).toList
    ++ [field "filename" (string file),
      field "labels" ("[" ++ label e ++ "]"),
      field "related" "[]"]

/-- The reports on the errors in a file. -/
def ofErrors (file : String) (errors : List ParseError) : String :=
  "\n".intercalate (errors.map (ofError file))

end MonkeyLang.Report
