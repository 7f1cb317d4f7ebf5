import CodeReview.Text.Basic

/-! # Printed text

    A printed text carries no control over the terminal: escape sequences
    are taken out of it, and a carriage return before a newline is
    dropped. -/

namespace CodeReview.Text

/-- The character that starts an escape sequence. -/
def escape : Char := '\x1b'

/-- The characters between the bracket and the letter of an escape
    sequence. -/
def isParameter (c : Char) : Bool := c.isDigit || c == ';' || c == '?'

/-- How far an escape sequence reaches into the text behind its first
    character: over a bracket, parameters and a letter. -/
def sequenceLength? : Text → Option Nat
  | '[' :: rest =>
      match rest.span isParameter with
      | (parameters, final :: _) =>
          if final.isAlpha then some (parameters.length + 2) else none
      | (_, []) => none
  | _ => none

/-- The text without escape sequences.  `skip` is what is left of the last
    sequence. -/
def dropSequencesFrom : (skip : Nat) → Text → Text
  | _, [] => []
  | skip + 1, _ :: rest => dropSequencesFrom skip rest
  | 0, c :: rest =>
      match (if c = escape then sequenceLength? rest else none) with
      | some length => dropSequencesFrom length rest
      | none => c :: dropSequencesFrom 0 rest

/-- The text without escape sequences; what their removal puts together is
    left alone. -/
def dropSequences (text : Text) : Text := dropSequencesFrom 0 text

/-- The text without the carriage return just before each newline. -/
def dropReturns : Text → Text
  | [] => []
  | '\r' :: '\n' :: rest => '\n' :: dropReturns rest
  | c :: rest => c :: dropReturns rest

/-- A text as it is printed. -/
def printed (s : String) : String :=
  String.ofList (dropReturns (dropSequences s.toList))

end CodeReview.Text
