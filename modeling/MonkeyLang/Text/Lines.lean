/-!
# Lines of bytes

Input arrives as bytes, and a line of it ends at a newline. A carriage return directly in front
of the newline belongs to the line's end, but nowhere else: the last line, if no newline ends
it, keeps every byte. Whether a line is text is not asked here.

What one more byte does to a line is said apart from where the bytes come from, so input that is at
hand as a whole and input that is still being typed are cut into lines alike.
-/

namespace MonkeyLang

/-- The byte of a newline. -/
def newlineByte : UInt8 := 10

/-- The byte of a carriage return. -/
def returnByte : UInt8 := 13

/-- A line in reverse, without a carriage return at its end. -/
def dropReturn : List UInt8 → List UInt8
  | [] => []
  | b :: line => if b = returnByte then line else b :: line

/-- What is known of a line when some bytes have been read. -/
inductive LineRead
  /-- It has ended. -/
  | whole (line : List UInt8)
  /-- It goes on behind these bytes, which are in reverse. -/
  | begun (line : List UInt8)

/-- One more byte behind the bytes `line`, in reverse: a newline ends the line, and any other byte
belongs to it. -/
def readByte (line : List UInt8) (b : UInt8) : LineRead :=
  if b = newlineByte then .whole (dropReturn line).reverse else .begun (b :: line)

/-- The line that ends with the input, behind the bytes `line`, in reverse, if there are any. -/
def lastLine? (line : List UInt8) : Option (List UInt8) :=
  if line.isEmpty then none else some line.reverse

/-- The lines of input of which the bytes `line`, in reverse, have been seen in the first. -/
def linesFrom (line : List UInt8) : List UInt8 → List (List UInt8)
  | [] => (lastLine? line).toList
  | b :: input =>
    match readByte line b with
    | .whole read => read :: linesFrom [] input
    | .begun line => linesFrom line input

/-- The lines of input, without their ends. -/
def lines (input : List UInt8) : List (List UInt8) := linesFrom [] input

/-- Input without bytes has no lines. -/
@[simp] theorem lines_nil : lines [] = [] := rfl

end MonkeyLang
