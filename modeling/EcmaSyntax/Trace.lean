import EcmaSyntax.Grammar.Program

/-!
The records that the parsing of a program leaves for observers: one that it began, and one on how it
ended.
-/

namespace EcmaSyntax

/-- A record of a parse. -/
inductive TraceRecord where
  | started (bytes : Nat) (dialect : Dialect)
  | finished (statements : Nat)
  | failed (code : String) (position : Option Position)
  deriving DecidableEq, Repr

/-- The written form of a position that may be missing. -/
def Position.optionText : Option Position → String
  | some position =>
      s!"Some(Position \x7b line: {position.line}, column: {position.column} \x7d)"
  | none => "None"

namespace TraceRecord

/-- The fields of a record, all of them texts. -/
def fields : TraceRecord → List (String × String)
  | started bytes dialect => [("bytes", toString bytes), ("dialect", dialect.name)]
  | finished statements => [("message", "parsed program"), ("statements", toString statements)]
  | failed code position =>
      [("code", code), ("message", "parse failed"), ("position", Position.optionText position)]

end TraceRecord

/-- The outcome of a parse together with its records. -/
def Program.parseTraced (source : List Char) (dialect : Dialect) :
    Except Failure Program × List TraceRecord :=
  let outcome := Program.parse source dialect
  let ending :=
    match outcome with
    | .ok program => [TraceRecord.finished program.body.length]
    | .error (.rejected error) => [TraceRecord.failed error.cause.code error.position]
    | .error (.fault _) => []
  (outcome, TraceRecord.started (Text.size source) dialect :: ending)

end EcmaSyntax
