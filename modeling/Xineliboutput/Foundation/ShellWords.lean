import Xineliboutput.Foundation.DecimalText

/-!
# The words of a shell command

How a POSIX shell splits a simple command into words, as far as blanks and double
quotes go. Between double quotes only `$`, the backquote, the double quote and the
backslash are special; the backslash only in front of one of these and of a line
break. Whatever makes more than words of the text (an expansion, an operator, a
comment, a pattern, a second command, an open quotation) has no result.
-/

namespace Xineliboutput.Foundation.ShellWords

set_option autoImplicit false

inductive Mode where
  | between
  | word (text : List UInt8)
  | quoted (text : List UInt8)
  /-- Behind a backslash between double quotes. -/
  | escaped (text : List UInt8)
  deriving DecidableEq

structure Reader where
  words : List (List UInt8)
  mode : Mode
  deriving DecidableEq

def isBlank (byte : UInt8) : Bool := byte == 32 || byte == 9

def isOrdinary (byte : UInt8) : Bool :=
  (48 ≤ byte.toNat && byte.toNat ≤ 57) || (65 ≤ byte.toNat && byte.toNat ≤ 90) ||
    (97 ≤ byte.toNat && byte.toNat ≤ 122) || (ascii "-_./=%,:+@".toList).contains byte

/-- `$` and the backquote -/
def expands (byte : UInt8) : Bool := byte == 36 || byte == 96

def isQuoting (byte : UInt8) : Bool := byte == 34 || byte == 92

def step (reader : Reader) (byte : UInt8) : Option Reader :=
  match reader.mode with
  | .between =>
      if isBlank byte then some reader
      else if byte = 34 then some { reader with mode := .quoted [] }
      else if isOrdinary byte then some { reader with mode := .word [byte] }
      else none
  | .word text =>
      if isBlank byte then some ⟨reader.words ++ [text], .between⟩
      else if byte = 34 then some { reader with mode := .quoted text }
      else if isOrdinary byte then some { reader with mode := .word (text ++ [byte]) }
      else none
  | .quoted text =>
      if byte = 34 then some { reader with mode := .word text }
      else if expands byte then none
      else if byte = 92 then some { reader with mode := .escaped text }
      else some { reader with mode := .quoted (text ++ [byte]) }
  | .escaped text =>
      if expands byte || isQuoting byte then some { reader with mode := .quoted (text ++ [byte]) }
      else if byte = 10 then some { reader with mode := .quoted text }
      else some { reader with mode := .quoted (text ++ [92, byte]) }

def finish (reader : Reader) : Option (List (List UInt8)) :=
  match reader.mode with
  | .between => some reader.words
  | .word text => some (reader.words ++ [text])
  | .quoted _ | .escaped _ => none

def read (reader : Reader) (text : List UInt8) : Option Reader := text.foldlM step reader

def shellWords (command : List UInt8) : Option (List (List UInt8)) :=
  (read ⟨[], .between⟩ command).bind finish

@[simp] theorem read_nil (reader : Reader) : read reader [] = some reader := rfl

@[simp] theorem read_cons (reader : Reader) (byte : UInt8) (text : List UInt8) :
    read reader (byte :: text) = (step reader byte).bind fun next => read next text := rfl

theorem read_append (reader : Reader) (first second : List UInt8) :
    read reader (first ++ second) = (read reader first).bind fun next => read next second :=
  List.foldlM_append

def escapeQuoting (text : List UInt8) : List UInt8 :=
  text.flatMap fun byte => if isQuoting byte then [92, byte] else [byte]

theorem read_escaped_byte (words : List (List UInt8)) (text : List UInt8) (byte : UInt8) :
    read ⟨words, .quoted text⟩ (if isQuoting byte then [92, byte] else [byte]) =
      if expands byte then none else some ⟨words, .quoted (text ++ [byte])⟩ := by
  cases quoting : isQuoting byte with
  | true =>
      have silent : expands byte = false := by
        simp only [isQuoting, Bool.or_eq_true, beq_iff_eq] at quoting
        rcases quoting with rfl | rfl <;> decide
      have backslash : expands 92 = false := by decide
      simp [step, silent, quoting, backslash]
  | false =>
      simp only [isQuoting, Bool.or_eq_false_iff, beq_eq_false_iff_ne] at quoting
      cases special : expands byte <;> simp [step, special, quoting]

/-- Escaped text between double quotes is taken as it was written, unless some
character of it asks for an expansion. -/
theorem read_escape_quoting (words : List (List UInt8)) (before text : List UInt8) :
    read ⟨words, .quoted before⟩ (escapeQuoting text) =
      if text.any expands then none else some ⟨words, .quoted (before ++ text)⟩ := by
  induction text generalizing before with
  | nil => simp [escapeQuoting]
  | cons byte text ih =>
      rw [escapeQuoting, List.flatMap_cons, ← escapeQuoting, read_append, read_escaped_byte]
      cases special : expands byte with
      | true => simp [special]
      | false => simp [special, ih]

theorem shell_words_quoted {opening : List UInt8} {words : List (List UInt8)}
    (opened : read ⟨[], .between⟩ opening = some ⟨words, .quoted []⟩) (text : List UInt8) :
    shellWords (opening ++ escapeQuoting text ++ [34]) =
      if text.any expands then none else some (words ++ [text]) := by
  rw [shellWords, read_append, read_append, opened, Option.bind_some, read_escape_quoting]
  cases text.any expands with
  | true => rfl
  | false => simp [step, finish]

end Xineliboutput.Foundation.ShellWords
