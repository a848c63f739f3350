import SqlDump.Segment.Scan

/-!
# The lexer in registers

The lexer of a dump as a reader runs it over its chunks: the span it is in, the octet before, and
flags for what may open a comment and for what began the statement. Inside strings and line
comments it passes over runs of octets at once, and then the octet before is not kept.

Main statement: `Lexer.step_of_passes`, an octet of such a run changes nothing but the octet before.
-/

namespace SqlDump

/-- What the lexer is inside of. -/
inductive Span where
  /-- Outside every span. -/
  | plain
  | singleQuote
  | doubleQuote
  | backtick
  /-- A line comment. -/
  | lineComment
  | blockComment
  deriving DecidableEq, Repr

/-- The registers of the lexer. The flags are for the span they are about; elsewhere they keep what
they held. -/
structure Lexer where
  span : Span := .plain
  /-- Behind a backslash in a string. -/
  escaped : Bool := false
  /-- The octet before. -/
  prev : UInt8 := 0
  /-- The octet before is a dash or slash that may open a comment. -/
  opener : Bool := false
  /-- The two octets before are dashes, which open a comment if a blank follows. -/
  dashes : Bool := false
  /-- What may open a comment stands at the start of the statement. -/
  openerLeading : Bool := false
  /-- The comment stands at the start of the statement. -/
  commentLeading : Bool := false
  /-- Before the first octet of a block comment. -/
  fresh : Bool := false
  /-- A character other than a blank was met. -/
  begun : Bool := false
  deriving DecidableEq, Repr

namespace Lexer

open Scan (quoteMark doubleQuote backtickMark backslash semicolon dash slash asterisk exclamation
  lineFeed)

/-- One octet of a string that `quote` closes. -/
def stepQuoted (l : Lexer) (quote b : UInt8) : Lexer :=
  if l.escaped then { l with escaped := false }
  else if b = backslash then { l with escaped := true }
  else if b = quote then { l with span := .plain }
  else l

/-- The lexer behind a comment; nothing if the comment is the statement. -/
def closeComment (l : Lexer) : Option Lexer :=
  if l.commentLeading then none else some { l with span := .plain }

/-- One octet of a block comment, `prev` the one before. An exclamation mark at its start makes it
conditional. -/
def stepBlock (l : Lexer) (prev b : UInt8) : Option Lexer :=
  let l :=
    if l.fresh && b == exclamation then
      { l with fresh := false, commentLeading := false, begun := true }
    else
      { l with fresh := false }
  if b = slash ∧ prev = asterisk then l.closeComment else some l

/-- One octet outside every span that goes with none before it. -/
def stepAlone (l : Lexer) (b : UInt8) : Option Lexer :=
  if b = quoteMark then some { l with span := .singleQuote, begun := true }
  else if b = doubleQuote then some { l with span := .doubleQuote, begun := true }
  else if b = backtickMark then some { l with span := .backtick, begun := true }
  else if b = semicolon then none
  else if b = dash ∨ b = slash then some { l with opener := true, openerLeading := !l.begun }
  else if Octets.isBlank b then some l
  else some { l with begun := true }

/-- One octet outside every span and not behind two dashes, `prev` the one before. -/
def stepOpener (l : Lexer) (prev b : UInt8) : Option Lexer :=
  if l.opener then
    let l := { l with opener := false }
    if b = dash ∧ prev = dash then some { l with dashes := true }
    else if b = asterisk ∧ prev = slash then
      some { l with
        span := .blockComment, fresh := true, commentLeading := l.openerLeading, prev := 0 }
    else
      { l with begun := true }.stepAlone b
  else
    l.stepAlone b

/-- One octet outside every span, `prev` the one before. -/
def stepPlain (l : Lexer) (prev b : UInt8) : Option Lexer :=
  if l.dashes then
    let l := { l with dashes := false }
    if b = 0x20 ∨ b = 0x09 ∨ b = 0x0D then
      some { l with span := .lineComment, commentLeading := l.openerLeading }
    else if b = lineFeed then
      if l.openerLeading then none else some l
    else
      { l with begun := true }.stepOpener prev b
  else
    l.stepOpener prev b

/-- One octet; nothing if it ends the statement. -/
def step (l : Lexer) (b : UInt8) : Option Lexer :=
  let prev := l.prev
  let l := { l with prev := b }
  match l.span with
  | .singleQuote => some (l.stepQuoted quoteMark b)
  | .doubleQuote => some (l.stepQuoted doubleQuote b)
  | .backtick => some (if b = backtickMark then { l with span := .plain } else l)
  | .lineComment => if b = lineFeed then l.closeComment else some l
  | .blockComment => l.stepBlock prev b
  | .plain => l.stepPlain prev b

/-- Whether input may end here without cutting a statement short. -/
def isComplete (l : Lexer) : Bool :=
  match l.span with
  | .lineComment => l.commentLeading
  | .plain => l.dashes && l.openerLeading
  | _ => false

/-- Whether an octet can be passed over with the run it stands in. -/
def passes (l : Lexer) (b : UInt8) : Bool :=
  match l.span with
  | .singleQuote => !l.escaped && !(b == backslash || b == quoteMark)
  | .doubleQuote => !l.escaped && !(b == backslash || b == doubleQuote)
  | .lineComment => !(b == lineFeed)
  | _ => false

theorem step_of_passes {l : Lexer} {b : UInt8} (h : l.passes b = true) :
    l.step b = some { l with prev := b } := by
  obtain ⟨span, escaped, prev, opener, dashes, openerLeading, commentLeading, fresh, begun⟩ := l
  cases span with
  | singleQuote | doubleQuote =>
    simp only [passes, Bool.and_eq_true, Bool.not_eq_true', Bool.or_eq_false_iff,
      beq_eq_false_iff_ne] at h
    simp [step, stepQuoted, h.1, h.2.1, h.2.2]
  | lineComment =>
    simp only [passes, Bool.not_eq_true', beq_eq_false_iff_ne] at h
    simp [step, h]
  | plain | backtick | blockComment => simp [passes] at h

end Lexer

end SqlDump
