import TensorDispatch.Number.Digits
import TensorDispatch.Yaml.Gap

/-!
# Quoted scalars

A scalar between single quotes holds its characters as they stand, a quote written twice. A
scalar between double quotes also has escapes behind a backslash: for control characters, for
any character by its number, and for an end of line that is to be left out.
-/

namespace TensorDispatch.Yaml.Quoted

/-- How many digits tell the character of an escape, or the character it stands for. -/
inductive Escape
  | char (c : Char)
  | number (digits : Nat)
  deriving DecidableEq, Repr

/-- The escape of a letter. -/
def escape? : Char → Option Escape
  | '0' => some (.char '\x00')
  | 'a' => some (.char '\x07')
  | 'b' => some (.char '\x08')
  | 't' => some (.char '\t')
  | '\t' => some (.char '\t')
  | 'n' => some (.char '\n')
  | 'v' => some (.char '\x0b')
  | 'f' => some (.char '\x0c')
  | 'r' => some (.char '\r')
  | 'e' => some (.char '\x1b')
  | ' ' => some (.char ' ')
  | '"' => some (.char '"')
  | '/' => some (.char '/')
  | '\\' => some (.char '\\')
  | 'N' => some (.char '\u0085')
  | '_' => some (.char '\u00a0')
  | 'L' => some (.char '\u2028')
  | 'P' => some (.char '\u2029')
  | 'x' => some (.number 2)
  | 'u' => some (.number 4)
  | 'U' => some (.number 8)
  | _ => none

/-- The character of a number, if it is one. -/
def charOfNumber? (n : Nat) : Option Char :=
  if n.isValidChar then some (Char.ofNat n) else none

/-- Where the reading of a quoted scalar stands. -/
inductive State
  /-- Between characters, with the space passed since the last one. -/
  | text (gap : Gap)
  /-- Behind a backslash. -/
  | escape
  /-- Among the digits of a number. -/
  | number (digits : Nat) (value : Nat)

/-- Reads on to the closing quote, `read` holding the characters so far, the latest first. -/
def scan (double : Bool) (read : List Char) (state : State) (p : Position) :
    List Char → Option (List Char × Cursor)
  | [] => none
  | c :: cs =>
    let next := p.after c
    match state with
    | .text gap =>
      if p.column = 0 && isDocumentMark (c :: cs) then none
      else if isBlank c then scan double read (.text (gap.addBlank c)) next cs
      else if isBreak c then scan double read (.text (gap.addBreak c)) next cs
      else
        let read := gap.fold ++ read
        if double && c = '"' then some (read.reverse, ⟨cs, next⟩)
        else if double && c = '\\' then scan double read .escape next cs
        else if !double && c = '\'' then
          match cs with
          | '\'' :: cs => scan double ('\'' :: read) (.text {}) (next.after '\'') cs
          | cs => some (read.reverse, ⟨cs, next⟩)
        else scan double (c :: read) (.text {}) next cs
    | .escape =>
      if isBreak c then scan double read (.text .escapedBreak) next cs
      else
        match escape? c with
        | none => none
        | some (.char e) => scan double (e :: read) (.text {}) next cs
        | some (.number digits) => scan double read (.number digits 0) next cs
    | .number digits value =>
      match Number.digitIn? 16 c with
      | none => none
      | some d =>
        let value := value * 16 + d
        if 1 < digits then scan double read (.number (digits - 1) value) next cs
        else
          match charOfNumber? value with
          | none => none
          | some e => scan double (e :: read) (.text {}) next cs

/-- The scalar that starts at a quote, and the cursor behind its closing quote. -/
def read? (double : Bool) (c : Cursor) : Option (String × Cursor) :=
  let start := c.skip 1
  (scan double [] (.text {}) start.position start.rest).map fun (cs, next) =>
    (String.ofList cs, next)

end TensorDispatch.Yaml.Quoted
