import Kernel391.Lib.Strings

/-! `parse_arguments` and the copy `execute` makes of its command. The loops run on
memories, so what they read past the end of a string is visible. -/
namespace Kernel391
set_option autoImplicit false

/-- The first loop: the executable name, at most 32 characters. The first number counts the rounds
left, the second is `traverse`. -/
def parseExecutable (command : ℕ → UInt8) : ℕ → ℕ → (ℕ → UInt8) → ℕ × (ℕ → UInt8)
  | 0, traverse, buf => (traverse, buf)
  | n + 1, traverse, buf =>
    if command traverse ≠ 0 ∧ command traverse ≠ 0x20 ∧ command traverse ≠ 0x0A then
      parseExecutable command n (traverse + 1) (Function.update buf traverse (command traverse))
    else (traverse, buf)

/-- The second loop skips spaces; the string's terminator stops it, so the length bounds the rounds. -/
def skipSpaces (command : ℕ → UInt8) : ℕ → ℕ → ℕ
  | 0, traverse => traverse
  | n + 1, traverse => if command traverse = 0x20 then skipSpaces command n (traverse + 1) else traverse

/-- The third loop copies the arguments. It stops at a newline or at index 128, not at a NUL. -/
def parseRest (command : ℕ → UInt8) : ℕ → ℕ → ℕ → (ℕ → UInt8) → ℕ × (ℕ → UInt8)
  | 0, _, argCount, buf => (argCount, buf)
  | n + 1, traverse, argCount, buf =>
    if command traverse ≠ 0x0A then
      parseRest command n (traverse + 1) (argCount + 1) (Function.update buf argCount (command traverse))
    else (argCount, buf)

structure ParsedCommand where
  argCount : ℕ
  executableBuf : ℕ → UInt8
  argumentBuf : ℕ → UInt8

/-- `parse_arguments` on a string of the given length. -/
def parseArguments (length : ℕ) (command executableBuf argumentBuf : ℕ → UInt8) : ParsedCommand :=
  let r := parseExecutable command 32 0 executableBuf
  let traverse := skipSpaces command (length + 1) r.1
  let s := parseRest command (128 - traverse) traverse 0 argumentBuf
  { argCount := s.1, executableBuf := Function.update r.2 r.1 0, argumentBuf := s.2 }

/-- The `copy_cmd` array; `tail` is the stack above it. -/
def copyCmd (command : List UInt8) (tail : ℕ → UInt8) : ℕ → UInt8 :=
  strncpy (Function.update tail (strlen command) 0) (cstr command) (strlen command) 0

end Kernel391
