import TapeBench.Suite
import TapeBench.Suite.Programs

/-!
# `TapeBench.Suite.Standard`: the standard suite

* `standard`: the standard programs with their inputs and outputs, in their usual order.

Programs that read past their input take zero for its end. The program that prints itself is
listed but not run, because it needs far more cycles than the others.
-/

set_option autoImplicit false

namespace TapeBench.Suite

/-- The bytes of a text in UTF-8. -/
def textBytes (text : String) : Bytes :=
  text.toUTF8.data

/-- A case that prints `expected`. -/
def printing (name program expected : String) : Case where
  name := name
  program := textBytes program
  expected := textBytes expected

/-- A case that reads `input`, with zero for its end, and prints `expected`. -/
def filtering (name program input expected : String) : Case where
  name := name
  program := textBytes program
  input := textBytes input
  expected := textBytes expected
  onExhausted := some (.returnByte 0)

/-- The standard suite. -/
def standard : List Entry := [
  { case := printing "hello_world" Programs.helloWorld "Hello World!\n" },
  { case := filtering "cristofani_word_count" Programs.wordCount "example 123\nasdf"
      "\t1\t3\t16\n" },
  { case := printing "cristofani_h" Programs.letterH "H\n" },
  { case := filtering "cristofani_rot13" Programs.rot13 "This is aTest of the rot13"
      "Guvf vf nGrfg bs gur ebg13" },
  { case := filtering "cristofani_lb" Programs.endOfInput "\n" "LB\nLB\n" },
  { case := printing "bosman_quine" Programs.quine Programs.quine, skip := true }]

end TapeBench.Suite
