import EcmaSyntax.Grammar.Statement
import EcmaSyntax.Proofs.Grammar.Rule

/-! The kinds of the next two tokens select the parser of a statement before any token is consumed. What
holds of all statements is proved by cases on the selection, with one case for each parser.
-/

namespace EcmaSyntax.Grammar

open EcmaSyntax.Parser

/-- A token of the kind is enough to tell that the parser is the one for the statement. -/
inductive Opens (kind : Kind) : (Rules → Bool → Parser Stmt) → Prop
  | block (opens : kind = .braceOpen) : Opens kind blockStatement
  | breakTo (opens : kind = .keywordBreak) : Opens kind fun _ _ => breakStatement
  | declaration (opens : opensDeclaration kind)
    : Opens kind fun rules inAllowed => .declaration <$> declaration rules inAllowed .statement
  | continueTo (opens : kind = .keywordContinue) : Opens kind fun _ _ => continueStatement
  | debugger (opens : kind = .keywordDebugger) : Opens kind fun _ _ => debuggerStatement
  | doWhile (opens : kind = .keywordDo) : Opens kind doWhileStatement
  | forLoop (opens : kind = .keywordFor) : Opens kind forStatement
  | function (opens : kind = .keywordFunction) : Opens kind fun rules _ => functionDeclaration rules
  | ifElse (opens : kind = .keywordIf) : Opens kind ifStatement
  | returnValue (opens : kind = .keywordReturn) : Opens kind returnStatement
  | switch (opens : kind = .keywordSwitch) : Opens kind switchStatement
  | throwValue (opens : kind = .keywordThrow) : Opens kind throwStatement
  | tryBlock (opens : kind = .keywordTry) : Opens kind tryStatement
  | whileLoop (opens : kind = .keywordWhile) : Opens kind whileStatement
  | withObject (opens : kind = .keywordWith) : Opens kind withStatement
  | empty (opens : kind = .semicolon) : Opens kind fun _ _ => emptyStatement

/-- The parser reads the statement if tokens of the two kinds are next. The second kind only tells labels
from expressions.
-/
inductive Selects (first second : Kind) : (Rules → Bool → Parser Stmt) → Prop
  | opened {parser : Rules → Bool → Parser Stmt} (opens : Opens first parser)
    : Selects first second parser
  | labelled (named : first = .identifier) (divides : second = .colon)
    : Selects first second labelledStatement
  | expression (plain : opensStatement first = false)
    (noLabel : first = .identifier → second ≠ .colon)
    : Selects first second expressionStatement

/-- The parser of a statement that begins with the tokens. -/
def selected (rules : Rules) (inAllowed : Bool) (tokens : List Token) : Parser Stmt :=
  match tokens.map Token.kind with
  | .braceOpen :: _ => blockStatement rules inAllowed
  | .keywordBreak :: _ => breakStatement
  | .keywordConst :: _ => .declaration <$> declaration rules inAllowed .statement
  | .keywordVar :: _ => .declaration <$> declaration rules inAllowed .statement
  | .keywordContinue :: _ => continueStatement
  | .keywordDebugger :: _ => debuggerStatement
  | .keywordDo :: _ => doWhileStatement rules inAllowed
  | .keywordFor :: _ => forStatement rules inAllowed
  | .keywordFunction :: _ => functionDeclaration rules
  | .keywordIf :: _ => ifStatement rules inAllowed
  | .keywordReturn :: _ => returnStatement rules inAllowed
  | .keywordSwitch :: _ => switchStatement rules inAllowed
  | .keywordThrow :: _ => throwStatement rules inAllowed
  | .keywordTry :: _ => tryStatement rules inAllowed
  | .keywordWhile :: _ => whileStatement rules inAllowed
  | .keywordWith :: _ => withStatement rules inAllowed
  | .semicolon :: _ => emptyStatement
  | [.identifier, .colon] => labelledStatement rules inAllowed
  | _ => expressionStatement rules inAllowed

/-- A statement is read by what its next two tokens select. -/
theorem statement_eq_bind_selected (rules : Rules) (inAllowed : Bool)
    : statement rules inAllowed = peekMany 2 >>= selected rules inAllowed :=
  rfl

/-- A token that opens a statement has a parser that it opens, by cases on its kind. -/
theorem opens_of_opensStatement {kind : Kind} (opens : opensStatement kind = true)
    : ∃ parser, Opens kind parser := by
  unfold opensStatement at opens
  split at opens
  · exact ⟨_, .block rfl⟩
  · exact ⟨_, .breakTo rfl⟩
  · exact ⟨_, .declaration rfl⟩
  · exact ⟨_, .declaration rfl⟩
  · exact ⟨_, .continueTo rfl⟩
  · exact ⟨_, .debugger rfl⟩
  · exact ⟨_, .doWhile rfl⟩
  · exact ⟨_, .forLoop rfl⟩
  · exact ⟨_, .function rfl⟩
  · exact ⟨_, .ifElse rfl⟩
  · exact ⟨_, .returnValue rfl⟩
  · exact ⟨_, .switch rfl⟩
  · exact ⟨_, .throwValue rfl⟩
  · exact ⟨_, .tryBlock rfl⟩
  · exact ⟨_, .whileLoop rfl⟩
  · exact ⟨_, .withObject rfl⟩
  · exact ⟨_, .empty rfl⟩
  · cases opens

/-- A name alone opens no statement, for it may be a label. -/
theorem Opens.ne_identifier {kind : Kind} {parser : Rules → Bool → Parser Stmt}
    (opens : Opens kind parser)
    : kind ≠ .identifier := by
  rintro rfl
  cases opens with
  | declaration opens => exact absurd opens (by decide)
  | _ opens => cases opens

/-- There is a parser for every two kinds of tokens. -/
theorem Selects.exists (first second : Kind) : ∃ parser, Selects first second parser := by
  by_cases label : first = .identifier ∧ second = .colon
  · exact ⟨_, .labelled label.1 label.2⟩
  cases plain : opensStatement first with
  | true =>
      obtain ⟨parser, opens⟩ := opens_of_opensStatement plain
      exact ⟨parser, .opened opens⟩
  | false => exact ⟨_, .expression plain fun named divides => label ⟨named, divides⟩⟩

/-- The second token matters after an identifier only. -/
theorem Selects.of_unnamed {first second : Kind} {parser : Rules → Bool → Parser Stmt}
    (selects : Selects first second parser) (unnamed : first ≠ .identifier) (another : Kind)
    : Selects first another parser := by
  cases selects with
  | opened opens => exact .opened opens
  | labelled named => exact absurd named unnamed
  | expression plain => exact .expression plain fun named => absurd named unnamed

/-- A token that opens a statement selects its parser, whatever the second token is. -/
theorem Opens.selected_eq {first second : Token} {parser : Rules → Bool → Parser Stmt}
    (opens : Opens first.kind parser) (rules : Rules) (inAllowed : Bool)
    : selected rules inAllowed [first, second] = parser rules inAllowed := by
  unfold selected
  cases opens with
  | declaration opens =>
      rcases (Bool.or_eq_true _ _).mp opens with opens | opens
      · rw [List.map_cons, of_decide_eq_true opens]
      · rw [List.map_cons, of_decide_eq_true opens]
  | _ opens => rw [List.map_cons, opens]

/-- The statement is read by what its first two tokens select. -/
theorem Selects.selected_eq {first second : Token} {parser : Rules → Bool → Parser Stmt}
    (selects : Selects first.kind second.kind parser) (rules : Rules) (inAllowed : Bool)
    : selected rules inAllowed [first, second] = parser rules inAllowed := by
  cases selects with
  | opened opens => exact opens.selected_eq rules inAllowed
  | labelled named divides =>
      unfold selected
      rw [List.map_cons, List.map_cons, named, divides]
      rfl
  | expression plain noLabel =>
      unfold selected
      simp only [List.map_cons, List.map_nil]
      split
      case h_19 => rfl
      all_goals simp_all [opensStatement]

end EcmaSyntax.Grammar
