/-!
# `TapeBench.Suite.Programs`: the texts of the standard programs

Classic programs for tape machines. They probe wrap-around, empty loops, bytes that are no
instructions, bracket matching and the end of the input.
-/

set_option autoImplicit false

namespace TapeBench.Suite.Programs

/-- Prints `Hello World!` and a line feed. -/
def helloWorld : String :=
  String.join [
    "++++++++[>++++[>++>+++>+++>+<<<<-]>+>+>->>+[<]<-]>>.>---.+++++++..+++.>>.<-.<.++",
    "+.------.--------.>>+.>++."]

/-- Counts the lines, words and bytes of its input, and takes zero for the end of the input. -/
def wordCount : String :=
  String.join [
    "\n",
    ">>>+>>>>>+>>+>>+[<<],[\n",
    "    -[-[-[-[-[-[-[-[<+>-[>+<-[>-<-[-[-[<++[<++++++>-]<\n",
    "        [>>[-<]<[>]<-]>>[<+>-[<->[-]]]]]]]]]]]]]]]]\n",
    "    <[-<<[-]+>]<<[>>>>>>+<<<<<<-]>[>]>>>>>>>+>[\n",
    "        <+[\n",
    "            >+++++++++<-[>-<-]++>[<+++++++>-[<->-]+[+>>>>>>]]\n",
    "            <[>+<-]>[>>>>>++>[-]]+<\n",
    "        ]>[-<<<<<<]>>>>\n",
    "    ],\n",
    "]+<++>>>[[+++++>>>>>>]<+>+[[<++++++++>-]<.<<<<<]>>>>>>>>]\n",
    "[Counts lines, words, bytes. Assumes no-change-on-EOF or EOF->0.\n",
    "Daniel B Cristofani (cristofdathevanetdotcom)\n",
    "http://www.hevanet.com/cristofd/brainfuck/]"]

/-- Prints `H` and a line feed after empty loops, stray bytes and nested brackets. -/
def letterH : String :=
  String.join [
    "[]++++++++++[>>+>+>++++++[<<+<+++>>>-]<<<<-]\n",
    "\"A*$\";?@![#>>+<<]>[>>]<<<<[>++<[-]]>.>."]

/-- Shifts letters of its input by 13 places, and takes zero for the end of the input. -/
def rot13 : String :=
  String.join [
    ",\n",
    "[>+<-[>+<-[>+<-[>+<-[>+<-[>+<-[>+<-[>+<-[>+<-[>+<-[>+<-[>+<-[>+<-[>+<-[>+<-[>+<-\n",
    "[>+<-[>+<-[>+<-[>+<-[>+<-[>+<-[>+<-[>+<-[>+<-[>+<-[>+<-[>+<-[>+<-[>+<-[>+<-[>+<-\n",
    "[>+<-[>+<-[>+<-[>+<-[>+<-[>+<-[>+<-[>+<-[>+<-[>+<-[>+<-[>+<-[>+<-[>+<-[>+<-[>+<-\n",
    "[>+<-[>+<-[>+<-[>+<-[>+<-[>+<-[>+<-[>+<-[>+<-[>+<-[>+<-[>+<-[>+<-[>+<-[>+<-[>+<-\n",
    "[>++++++++++++++<-\n",
    "[>+<-[>+<-[>+<-[>+<-[>+<-[>+<-[>+<-[>+<-[>+<-[>+<-[>+<-[>+<-\n",
    "[>>+++++[<----->-]<<-\n",
    "[>+<-[>+<-[>+<-[>+<-[>+<-[>+<-[>+<-[>+<-[>+<-[>+<-[>+<-[>+<-\n",
    "[>++++++++++++++<-\n",
    "[>+<-[>+<-[>+<-[>+<-[>+<-\n",
    "[>++++++++++++++<-\n",
    "[>+<-[>+<-[>+<-[>+<-[>+<-[>+<-[>+<-[>+<-[>+<-[>+<-[>+<-[>+<-\n",
    "[>>+++++[<----->-]<<-\n",
    "[>+<-[>+<-[>+<-[>+<-[>+<-[>+<-[>+<-[>+<-[>+<-[>+<-[>+<-[>+<-\n",
    "[>++++++++++++++<-\n",
    "[>+<-]]]]]]]]]]]]]]]]]]]]]]]]]]]]]]]]]]]]]]]]]]]]]]]]]]]]]]]]]]]]]]]]]]]]]]]]]]]\n",
    "]]]]]]]]]]]]]]]]]]]]]]]]]]]]]]]]]]]]]]]]]]]]]]]]>.[-]<,]\n",
    "\n",
    "of course any function char f(char) can be made easily on the same principle\n",
    "\n",
    "[Daniel B Cristofani (cristofdathevanetdotcom)\n",
    "http://www.hevanet.com/cristofd/brainfuck/]\n"]

/-- Reads a line feed and then past the end of its input. Prints `LB` twice if the end reads as
zero. -/
def endOfInput : String :=
  String.join [
    ">,>+++++++++,>+++++++++++[<++++++<++++++<+>>>-]<<.>.<<-.>.>.<<."]

/-- Prints its own text. -/
def quine : String :=
  String.join [
    "-->+++>+>+>+>+++++>++>++>->+++>++>+>>>>>>>>>>>>>>>>->++++>>>>->+++>+++>+++>+++>+",
    "++>+++>+>+>>>->->>++++>+>>>>->>++++>+>+>>->->++>++>++>++++>+>++>->++>++++>+>+>++",
    ">++>->->++>++>++++>+>+>>>>>->>->>++++>++>++>++++>>>>>->>>>>+++>->++++>->->->+++>",
    ">>+>+>+++>+>++++>>+++>->>>>>->>>++++>++>++>+>+++>->++++>>->->+++>+>+++>+>++++>>>",
    "+++>->++++>>->->++>++++>++>++++>>++[-[->>+[>]++[<]<]>>+[>]<--[++>++++>]+[<]<<++]",
    ">>>[>]++++>++++[--[+>+>++++<<[-->>--<<[->-<[--->>+<<[+>+++<[+>>++<<]]]]]]>+++[>+",
    "++++++++++++++<-]>--.<<<]"]

end TapeBench.Suite.Programs
