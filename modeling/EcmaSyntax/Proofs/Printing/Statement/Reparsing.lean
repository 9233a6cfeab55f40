import EcmaSyntax.Proofs.Printing.Statement.Clauses

/-! The words of a printable statement parse as the statement, up to the places of its nodes. What follows
matters to a statement that ends with an `if`, which would take an `else`, and to a `try`, which would
take a `finally`.
-/

namespace EcmaSyntax

open EcmaSyntax.Grammar

variable {script : Script} {offset : Nat} {tokens : List Token}

-----------------------------------------------------------------------------------------
-- What is to be proved of a statement
-----------------------------------------------------------------------------------------

/-- The token is not taken for a part of the statement that it follows. -/
structure Stmt.EndsBefore (statement : Stmt) (next : Token) : Prop where
  noFinally : next.kind ≠ .keywordFinally
  noElse : statement.endsInIf → next.kind ≠ .keywordElse

/-- Wherever the words of the statement are spelled, in front of a token that is no part of it, a
statement that differs in places only parses.
-/
def Stmt.Reparses (script : Script) (statement : Stmt) : Prop :=
  ∀ offset tokens next,
    script.Spells offset tokens (Printed.ofStmt statement) →
    script.Reads .standard (Token.endOf offset tokens) next →
    statement.EndsBefore next →
    ∃ result,
      Placeless.ofStmt result = Placeless.ofStmt statement
      ∧ Parses script (.phrase (.statement true result)) offset tokens

/-- Likewise for a block, wherever its words are spelled. -/
def Block.Reparses (script : Script) (block : Block) : Prop :=
  ∀ offset tokens,
    script.Spells offset tokens (Printed.ofBlock block) →
    ∃ result,
      Placeless.ofBlock result = Placeless.ofBlock block
      ∧ Parses script (.phrase (.block true result)) offset tokens

def Body.Reparses (script : Script) (body : Body) : Prop :=
  ∀ offset tokens,
    script.Spells offset tokens (Printed.ofBody body) →
    ∃ result,
      Placeless.ofBody result = Placeless.ofBody body
      ∧ Parses script (.phrase (.body result)) offset tokens

def Func.Reparses (script : Script) (function : Func) : Prop :=
  ∀ offset tokens,
    script.Spells offset tokens (Printed.ofFunc function) →
    ∃ result,
      Placeless.ofFunc result = Placeless.ofFunc function
      ∧ Parses script (.phrase (.function result)) offset tokens

/-- The node is parsed from its words; of a handler the block is, and of a branch every statement. -/
def Node.Reparses (script : Script) : Node → Prop
  | statement inner => inner.Reparses script
  | block inner => inner.Reparses script
  | body inner => inner.Reparses script
  | function inner => inner.Reparses script
  | handler inner => inner.body.Reparses script
  | branch inner => ∀ statement ∈ inner.body, statement.Reparses script
  | _ => True

-----------------------------------------------------------------------------------------
-- Statements in a row
-----------------------------------------------------------------------------------------

/-- The nodes are complete, with all that is below them. -/
def Stmt.AllComplete (statements : List Stmt) : Prop :=
  ∀ statement ∈ statements, (Node.statement statement).Everywhere Node.Complete

namespace Grammar

/-- The words of a statement begin with a token that statements begin with. -/
theorem opens_statement {statement : Stmt} {words : List Word}
    (complete : (Node.statement statement).Everywhere Node.Complete)
    (spells : script.Spells offset tokens (Printed.ofStmt statement ++ words))
    : ∃ first, script.Reads .standard offset first ∧ first.kind.opensPrintedStatement := by
  obtain ⟨word, rest, same, opens⟩ :=
    Printed.opens_ofStmt (complete.mono fun _ complete => complete.1)
  rw [same] at spells
  obtain ⟨first, _, _, read, kind_eq, _⟩ := Script.spells_cons spells
  exact ⟨first, read, kind_eq ▸ opens⟩

/-- Statements in a row, in front of a token where they end. -/
theorem reparses_statements {statements : List Stmt} {goes : Kind → Bool}
    (complete : Stmt.AllComplete statements)
    (reparses : ∀ statement ∈ statements, statement.Reparses script)
    (goesOn : ∀ kind : Kind, kind.opensPrintedStatement → goes kind = true)
    (spells : script.Spells offset tokens (Printed.ofStmts statements)) {next : Token}
    (read : script.Reads .standard (Token.endOf offset tokens) next)
    (stops : goes next.kind = false) (noFinally : next.kind ≠ .keywordFinally)
    (noElse : next.kind ≠ .keywordElse)
    : ∃ results : List Stmt,
        Placeless.ofStmts results = Placeless.ofStmts statements
        ∧ Parses script (.repeated goes (results.map (.statement true))) offset tokens := by
  induction statements generalizing offset tokens with
  | nil =>
      obtain rfl := Script.spells_nil spells
      exact ⟨[], rfl,
        .intro (.repetition (.repeatedNone stops)) (.ahead ⟨read, trivial⟩ .nil) rfl⟩
  | cons statement rest ih =>
      obtain ⟨completeFirst, completeRest⟩ := List.forall_mem_cons.mp complete
      obtain ⟨reparsesFirst, reparsesRest⟩ := List.forall_mem_cons.mp reparses
      obtain ⟨first, readFirst, opens⟩ := opens_statement completeFirst spells
      obtain ⟨front, back, rfl, spelled, spells⟩ := Script.spells_append spells
      obtain ⟨follow, readFollow, before⟩
          : ∃ follow,
              script.Reads .standard (Token.endOf offset front) follow
              ∧ statement.EndsBefore follow := by
        cases rest with
        | nil =>
            obtain rfl := Script.spells_nil spells
            exact ⟨next, by simpa using read, noFinally, fun _ => noElse⟩
        | cons second rest =>
            obtain ⟨follow, readFollow, opens⟩ :=
              opens_statement (completeRest second List.mem_cons_self) spells
            refine ⟨follow, readFollow, ?_, fun _ => ?_⟩
            · intro same
              rw [same] at opens
              cases opens
            · intro same
              rw [same] at opens
              cases opens
      obtain ⟨result, alike, parses⟩ := reparsesFirst _ _ follow spelled readFollow before
      rw [Token.endOf_append] at read
      obtain ⟨results, others, parsesRest⟩ := ih completeRest reparsesRest spells read
      refine ⟨result :: results, ?_, ?_⟩
      · rw [Placeless.ofStmts, Placeless.ofStmts, alike, others]
      · exact .intro (.repetition (.repeatedMore (goesOn _ opens)))
          (.ahead ⟨readFirst, trivial⟩ (.part parses (.part parsesRest .nil)))
          (by simp [Item.tokensOf])

/-- Statements go on up to a token that begins none. -/
theorem goesUntil_of_opens {stop kind : Kind} (plain : stop.opensPrintedStatement = false)
    (opens : kind.opensPrintedStatement)
    : goesUntil stop kind = true := by
  simp only [goesUntil, Bool.and_eq_true, bne_iff_ne]
  constructor
  · rintro rfl
    rw [plain] at opens
    cases opens
  · rintro rfl
    cases opens

theorem goesOn_branch {kind : Kind} (opens : kind.opensPrintedStatement)
    : (!endsBranch kind) = true := by
  rw [Bool.not_eq_true', ← Bool.not_eq_true]
  intro ends
  simp only [endsBranch, Bool.or_eq_true, decide_eq_true_eq] at ends
  rcases ends with ((rfl | rfl) | rfl) | rfl <;> cases opens

/-- Statements in braces. -/
theorem reparses_braces {statements : List Stmt} (complete : Stmt.AllComplete statements)
    (reparses : ∀ statement ∈ statements, statement.Reparses script)
    (spells
      : script.Spells offset tokens
          (.ofKind .braceOpen :: (Printed.ofStmts statements ++ [.ofKind .braceClose])))
    : ∃ brace inner close results,
        tokens = brace :: (inner ++ [close])
        ∧ script.Reads .standard offset brace
        ∧ brace.kind = .braceOpen
        ∧ script.Reads .standard (Token.endOf brace.span.stop inner) close
        ∧ close.kind = .braceClose
        ∧ Placeless.ofStmts results = Placeless.ofStmts statements
        ∧ Parses script (.repeated (goesUntil .braceClose) (results.map (.statement true)))
            brace.span.stop inner := by
  obtain ⟨brace, rest, rfl, read, kind_eq, _, spells⟩ := Script.spells_kind spells
  obtain ⟨inner, back, rfl, spelled, spells⟩ := Script.spells_append spells
  obtain ⟨close, rest, rfl, readClose, close_eq, _, behind⟩ := Script.spells_kind spells
  obtain rfl := Script.spells_nil behind
  have goesOn : ∀ kind : Kind, kind.opensPrintedStatement → goesUntil .braceClose kind = true :=
    fun kind => goesUntil_of_opens (by decide)
  obtain ⟨results, alike, parses⟩ :=
    reparses_statements complete reparses goesOn spelled readClose (by simp [goesUntil, close_eq])
      (by simp [close_eq]) (by simp [close_eq])
  exact ⟨brace, inner, close, results, rfl, read, kind_eq, readClose, close_eq, alike, parses⟩

/-- A block is reparsed if its statements are. -/
theorem reparses_block {block : Block} (complete : Stmt.AllComplete block.statements)
    (reparses : ∀ statement ∈ block.statements, statement.Reparses script)
    : block.Reparses script := by
  intro offset tokens spells
  obtain ⟨span, statements⟩ := block
  obtain ⟨brace, inner, close, results, rfl, read, opens, readClose, closes, alike, parses⟩ :=
    reparses_braces complete reparses spells
  refine ⟨{ span := _, statements := results }, by rw [Placeless.ofBlock, Placeless.ofBlock, alike],
    .intro (.statement (.blockOf opens closes))
      (.token read (.part parses (.token readClose .nil))) (by simp [Item.tokensOf])⟩

/-- The body of a function is reparsed as a block of statements is. -/
theorem reparses_body {body : Body} (complete : Stmt.AllComplete body.statements)
    (reparses : ∀ statement ∈ body.statements, statement.Reparses script)
    : body.Reparses script := by
  intro offset tokens spells
  obtain ⟨span, statements⟩ := body
  obtain ⟨brace, inner, close, results, rfl, read, opens, readClose, closes, alike, parses⟩ :=
    reparses_braces complete reparses spells
  refine ⟨{ span := _, statements := results }, by rw [Placeless.ofBody, Placeless.ofBody, alike],
    .intro (.expression (.body opens closes))
      (.token read (.part parses (.token readClose .nil))) (by simp [Item.tokensOf])⟩

/-- A function is reparsed if its body is. -/
theorem reparses_function {function : Func}
    (names : ∀ parameter ∈ function.parameters, IsFreeName parameter.name)
    (body : function.body.Reparses script)
    : function.Reparses script := by
  intro offset tokens spells
  obtain ⟨span, parameters, inner⟩ := function
  obtain ⟨parenthesis, rest, rfl, read, kind_eq, _, spells⟩ := Script.spells_kind spells
  obtain ⟨front, back, rfl, spelled, spells⟩ := Script.spells_append spells
  obtain ⟨results, alike, parses⟩ := reparses_parameters names spelled
  obtain ⟨result, alikeBody, parsesBody⟩ := body _ _ spells
  refine ⟨{ span := _, parameters := results, body := result }, ?_,
    .intro (.expression (.function kind_eq))
      (.token read (.part parses (.part parsesBody .nil))) (by simp [Item.tokensOf])⟩
  rw [Placeless.ofFunc, Placeless.ofFunc, alike, alikeBody]

-----------------------------------------------------------------------------------------
-- Branches
-----------------------------------------------------------------------------------------

/-- A branch, in front of a token where its statements end. -/
theorem reparses_branch {branch : Branch}
    (complete : (Node.branch branch).Everywhere Node.Complete)
    (reparses : ∀ statement ∈ branch.body, statement.Reparses script)
    (spells
      : script.Spells offset tokens
          (Printed.ofBranchTest branch.test ++ .ofKind .colon :: Printed.ofStmts branch.body))
    {next : Token} (read : script.Reads .standard (Token.endOf offset tokens) next)
    (ends : endsBranch next.kind)
    : ∃ (result : Branch) (first : Token),
        Placeless.ofBranch result = Placeless.ofBranch branch
        ∧ Parses script (.phrase (.branch true result)) offset tokens
        ∧ script.Reads .standard offset first
        ∧ (first.kind = .keywordCase ∨ first.kind = .keywordDefault) := by
  obtain ⟨span, test, body⟩ := branch
  obtain ⟨front, rest, rfl, spelledTest, spells⟩ := Script.spells_append spells
  obtain ⟨colon, back, rfl, readColon, colon_eq, _, spells⟩ := Script.spells_kind spells
  rw [Token.endOf_append, Token.endOf_cons] at read
  have completeTest : ∀ inner, test = some inner → (Node.expression inner).Complete := by
    rintro inner rfl
    exact (complete.child List.mem_cons_self).self
  have completeBody : Stmt.AllComplete body := fun statement listed =>
    complete.child (List.mem_append_right _ (List.mem_map_of_mem listed))
  obtain ⟨value, first, alikeTest, parsesTest, readFirst, opens⟩ :=
    reparses_branchTest completeTest spelledTest readColon colon_eq
  obtain ⟨results, alike, parses⟩ :=
    reparses_statements completeBody reparses (fun _ => goesOn_branch) spells read (by simp [ends])
      (fun same => by simp [same, endsBranch] at ends)
      (fun same => by simp [same, endsBranch] at ends)
  refine ⟨{ span := Token.spanOf (front ++ colon :: back), test := value, body := results }, first,
    ?_, .intro (.statement (.branch colon_eq))
      (.part parsesTest (.token readColon (.part parses .nil))) (by simp [Item.tokensOf]),
    readFirst, opens⟩
  rw [Placeless.ofBranch, Placeless.ofBranch, alikeTest, alike]

/-- The branches of a `switch`, in front of the closing brace. They begin where a branch would end. -/
theorem reparses_branches {branches : List Branch}
    (complete : ∀ branch ∈ branches, (Node.branch branch).Everywhere Node.Complete)
    (reparses
      : ∀ branch ∈ branches, ∀ statement ∈ branch.body, statement.Reparses script)
    (spells : script.Spells offset tokens (Printed.ofBranches branches)) {close : Token}
    (read : script.Reads .standard (Token.endOf offset tokens) close)
    (closes : close.kind = .braceClose)
    : ∃ (results : List Branch) (first : Token),
        Placeless.ofBranches results = Placeless.ofBranches branches
        ∧ Parses script (.repeated (goesUntil .braceClose) (results.map (.branch true))) offset tokens
        ∧ script.Reads .standard offset first
        ∧ endsBranch first.kind := by
  induction branches generalizing offset tokens with
  | nil =>
      obtain rfl := Script.spells_nil spells
      exact ⟨[], close, rfl,
        .intro (.repetition (.repeatedNone (by simp [goesUntil, closes])))
          (.ahead ⟨read, trivial⟩ .nil) rfl,
        read, by simp [endsBranch, closes]⟩
  | cons branch rest ih =>
      obtain ⟨completeFirst, completeRest⟩ := List.forall_mem_cons.mp complete
      obtain ⟨reparsesFirst, reparsesRest⟩ := List.forall_mem_cons.mp reparses
      obtain ⟨span, test, body⟩ := branch
      obtain ⟨front, back, rfl, spelled, spells⟩ := Script.spells_append spells
      rw [Token.endOf_append] at read
      obtain ⟨results, follow, others, parsesRest, readFollow, ends⟩ :=
        ih completeRest reparsesRest spells read
      obtain ⟨result, first, alike, parses, readFirst, opens⟩ :=
        reparses_branch completeFirst reparsesFirst spelled readFollow ends
      have goesOn : goesUntil .braceClose first.kind = true := by
        rcases opens with opens | opens <;> simp [goesUntil, opens]
      refine ⟨result :: results, first, ?_,
        .intro (.repetition (.repeatedMore goesOn))
          (.ahead ⟨readFirst, trivial⟩ (.part parses (.part parsesRest .nil)))
          (by simp [Item.tokensOf]),
        readFirst, ?_⟩
      · rw [Placeless.ofBranches, Placeless.ofBranches, alike, others]
      · rcases opens with opens | opens <;> simp [endsBranch, opens]

-----------------------------------------------------------------------------------------
-- Clauses of `try`
-----------------------------------------------------------------------------------------

/-- A handler, behind the word `catch`. -/
theorem reparses_handler {handler : Handler} (isFree : IsFreeName handler.parameter)
    (reparses : handler.body.Reparses script)
    (spells
      : script.Spells offset tokens
          (.ofKind .parenthesisOpen :: .ofName handler.parameter :: .ofKind .parenthesisClose
            :: Printed.ofBlock handler.body))
    : ∃ result : Handler,
        Placeless.ofHandler result = Placeless.ofHandler handler
        ∧ Parses script (.phrase (.handler true result)) offset tokens := by
  obtain ⟨span, parameter, body⟩ := handler
  obtain ⟨bracket, rest, rfl, readBracket, bracket_eq, _, spells⟩ := Script.spells_kind spells
  obtain ⟨token, rest, rfl, readName, named, _, name_eq, behind⟩ := Script.spells_name isFree spells
  obtain ⟨close, rest, rfl, readClose, close_eq, _, behind⟩ := Script.spells_kind behind
  subst name_eq
  obtain ⟨result, alike, parses⟩ := reparses _ _ behind
  refine ⟨
    {
      span := Token.spanOf (bracket :: token :: close :: rest)
      parameter := script.nameOf token
      body := result
    },
    by rw [Placeless.ofHandler, Placeless.ofHandler, alike], ?_⟩
  exact .intro (.statement (.handler bracket_eq named close_eq))
    (.token readBracket (.token readName (.token readClose (.part parses .nil))))
    (by simp [Item.tokensOf])

/-- The handler of a `try` with its keyword, which is missing only where no `catch` follows. -/
theorem reparses_optionalHandler {handler : Option Handler}
    (names : ∀ inner, handler = some inner → IsFreeName inner.parameter)
    (reparses : ∀ inner, handler = some inner → inner.body.Reparses script)
    (spells : script.Spells offset tokens (Printed.ofHandler handler)) {next : Token}
    (read : script.Reads .standard (Token.endOf offset tokens) next)
    (noCatch : handler = none → next.kind ≠ .keywordCatch)
    : ∃ result : Option Handler,
        Placeless.ofOptionalHandler result = Placeless.ofOptionalHandler handler
        ∧ result.isSome = handler.isSome
        ∧ Parses script (.afterKeyword .keywordCatch (result.map (.handler true))) offset tokens := by
  cases handler with
  | none =>
      obtain rfl := Script.spells_nil spells
      exact ⟨none, rfl, rfl,
        .intro (.repetition (.afterKeywordNone (noCatch rfl))) (.ahead ⟨read, trivial⟩ .nil) rfl⟩
  | some inner =>
      have isFree := names inner rfl
      have reparses := reparses inner rfl
      obtain ⟨span, parameter, body⟩ := inner
      obtain ⟨keyword, rest, rfl, readKeyword, kind_eq, _, spells⟩ := Script.spells_kind spells
      obtain ⟨result, alike, parses⟩ := reparses_handler isFree reparses spells
      exact ⟨some result, congrArg some alike, rfl,
        .intro (.repetition (.afterKeywordSome kind_eq rfl))
          (.token readKeyword (.part parses .nil)) (by simp [Item.tokensOf])⟩

/-- The `finally` clause of a `try`, which is missing only where no other `finally` follows. -/
theorem reparses_optionalFinalizer {finalizer : Option Block}
    (reparses : ∀ inner, finalizer = some inner → inner.Reparses script)
    (spells : script.Spells offset tokens (Printed.ofFinalizer finalizer)) {next : Token}
    (read : script.Reads .standard (Token.endOf offset tokens) next)
    (noFinally : next.kind ≠ .keywordFinally)
    : ∃ result : Option Block,
        Placeless.ofOptionalBlock result = Placeless.ofOptionalBlock finalizer
        ∧ result.isSome = finalizer.isSome
        ∧ Parses script (.afterKeyword .keywordFinally (result.map (.block true))) offset tokens := by
  cases finalizer with
  | none =>
      obtain rfl := Script.spells_nil spells
      exact ⟨none, rfl, rfl,
        .intro (.repetition (.afterKeywordNone noFinally)) (.ahead ⟨read, trivial⟩ .nil) rfl⟩
  | some inner =>
      obtain ⟨keyword, rest, rfl, readKeyword, kind_eq, _, spells⟩ := Script.spells_kind spells
      obtain ⟨result, alike, parses⟩ := reparses inner rfl _ _ spells
      exact ⟨some result, congrArg some alike, rfl,
        .intro (.repetition (.afterKeywordSome kind_eq rfl))
          (.token readKeyword (.part parses .nil)) (by simp [Item.tokensOf])⟩

end Grammar

namespace Stmt

variable {span : Span}

-----------------------------------------------------------------------------------------
-- Statements without statements in them
-----------------------------------------------------------------------------------------

theorem reparses_empty : (empty span).Reparses script := by
  intro offset tokens next spells _ _
  obtain ⟨semicolon, rest, rfl, read, kind_eq, _, behind⟩ := Script.spells_kind spells
  obtain rfl := Script.spells_nil behind
  exact ⟨.empty (Token.spanOf [semicolon]), rfl,
    .intro (.statement (.empty kind_eq)) (.token read .nil) rfl⟩

/-- A statement that is an expression is reparsed, as a name neither opens another statement nor is a
label without its colon.
-/
theorem reparses_expression {value : Expr} (complete : (Node.expression value).Complete)
    : (expression span value).Reparses script := by
  intro offset tokens next spells _ _
  obtain ⟨front, back, rfl, spelled, spells⟩ := Script.spells_append spells
  have ended := parses_statementEnd spells
  obtain ⟨semicolon, rest, rfl, read, kind_eq, _⟩ := Script.spells_kind spells
  obtain ⟨result, first, alike, _, parses, readFirst, named, _, stop_eq⟩ :=
    reparses_name complete spelled read (stopsOperators_of_kind kind_eq rfl)
  rw [← stop_eq] at read
  refine ⟨.expression _ result, congrArg (Stmt.expression .nowhere) alike,
    .intro (.statement (.expressionNamed named (by simp [kind_eq])))
      (.ahead ⟨readFirst, read, trivial⟩ (.part parses (.part ended .nil)))
      (by simp [Item.tokensOf])⟩

/-- A statement that is a keyword and one phrase parses if the phrase does. -/
theorem reparses_of_keyword {statement : Stmt} {kind : Kind} {words : List Word}
    (words_eq : Printed.ofStmt statement = .ofKind kind :: words)
    (phrase
      : ∀ (keyword : Token) (tokens : List Token),
          keyword.kind = kind →
          script.Spells keyword.span.stop tokens words →
          ∃ (last : Phrase) (result : Span → Stmt),
            (∀ span, Placeless.ofStmt (result span) = Placeless.ofStmt statement)
            ∧ Parses script (.phrase last) keyword.span.stop tokens
            ∧ ∀ span,
                StatementRule script span (.statement true (result span))
                  [.token keyword, .part (.phrase last) tokens])
    : statement.Reparses script := by
  intro offset tokens next spells _ _
  rw [words_eq] at spells
  obtain ⟨keyword, rest, rfl, read, kind_eq, _, spells⟩ := Script.spells_kind spells
  obtain ⟨last, result, alike, parses, rule⟩ := phrase keyword rest kind_eq spells
  exact ⟨result (Token.spanOf (keyword :: rest)), alike _,
    .intro (.statement (rule _)) (.token read (.part parses .nil)) (by simp [Item.tokensOf])⟩

/-- A `break` is reparsed with its label, which is on its line. -/
theorem reparses_breakTo {label : Option String}
    (names : ∀ name ∈ label.toList, IsFreeName name)
    : (breakTo span label).Reparses script := by
  refine reparses_of_keyword rfl fun keyword tokens opens spells => ?_
  exact ⟨.jumpLabel label, (breakTo · label), fun _ => rfl, parses_jumpLabel names spells,
    fun _ => .breakTo opens⟩

theorem reparses_continueTo {label : Option String}
    (names : ∀ name ∈ label.toList, IsFreeName name)
    : (continueTo span label).Reparses script := by
  refine reparses_of_keyword rfl fun keyword tokens opens spells => ?_
  exact ⟨.jumpLabel label, (continueTo · label), fun _ => rfl, parses_jumpLabel names spells,
    fun _ => .continueTo opens⟩

/-- A `return` is reparsed with its value, which is on its line. -/
theorem reparses_returnValue {value : Option Expr}
    (complete : ∀ inner, value = some inner → (Node.expression inner).Complete)
    : (returnValue span value).Reparses script := by
  refine reparses_of_keyword rfl fun keyword tokens opens spells => ?_
  obtain ⟨result, alike, parses⟩ := reparses_restrictedOperand complete spells
  exact ⟨.restrictedOperand true result, (returnValue · result),
    fun _ => congrArg (returnValue .nowhere) alike, parses, fun _ => .returnValue opens⟩

theorem reparses_throwValue {value : Option Expr}
    (complete : ∀ inner, value = some inner → (Node.expression inner).Complete)
    : (throwValue span value).Reparses script := by
  refine reparses_of_keyword rfl fun keyword tokens opens spells => ?_
  obtain ⟨result, alike, parses⟩ := reparses_restrictedOperand complete spells
  exact ⟨.restrictedOperand true result, (throwValue · result),
    fun _ => congrArg (throwValue .nowhere) alike, parses, fun _ => .throwValue opens⟩

/-- A declaration is reparsed, where the dialect has its keyword. -/
theorem reparses_declaration {inner : Declaration} (isJs : script.dialect = .js)
    (complete : (Node.declaration inner).Everywhere Node.Complete)
    : (declaration inner).Reparses script := by
  intro offset tokens next spells _ _
  obtain ⟨result, alike, parses⟩ := reparses_declarationStatement isJs complete spells
  exact ⟨.declaration result, congrArg Stmt.declaration alike,
    .intro (.statement .declaration) (.part parses .nil) (by simp [Item.tokensOf])⟩

-----------------------------------------------------------------------------------------
-- Statements with a body
-----------------------------------------------------------------------------------------

/-- Only `else` and `finally` may belong to the statement in front of them. -/
theorem EndsBefore.of_kind {statement : Stmt} {next : Token} {kind : Kind}
    (kind_eq : next.kind = kind) (noFinally : kind ≠ .keywordFinally) (noElse : kind ≠ .keywordElse)
    : statement.EndsBefore next where
  noFinally := kind_eq ▸ noFinally
  noElse _ := kind_eq ▸ noElse

theorem reparses_block {inner : Block} (reparses : inner.Reparses script)
    : (block inner).Reparses script := by
  intro offset tokens next spells _ _
  obtain ⟨result, alike, parses⟩ := reparses offset tokens spells
  exact ⟨.block result, congrArg Stmt.block alike,
    .intro (.statement .block) (.part parses .nil) (by simp [Item.tokensOf])⟩

/-- A labelled statement is reparsed if its statement is. -/
theorem reparses_labelled {label : String} {inner : Stmt} (isFree : IsFreeName label)
    (reparses : inner.Reparses script)
    : (labelled span label inner).Reparses script := by
  intro offset tokens next spells read before
  obtain ⟨token, rest, rfl, readName, named, _, name_eq, behind⟩ := Script.spells_name isFree spells
  obtain ⟨colon, rest, rfl, readColon, colon_eq, _, behind⟩ := Script.spells_kind behind
  subst name_eq
  rw [Token.endOf_cons, Token.endOf_cons] at read
  obtain ⟨result, alike, parses⟩ :=
    reparses _ _ next behind read ⟨before.noFinally, before.noElse⟩
  exact ⟨.labelled (Token.spanOf (token :: colon :: rest)) (script.nameOf token) result,
    congrArg (Stmt.labelled .nowhere _) alike,
    .intro (.statement (.labelled named colon_eq))
      (.token readName (.token readColon (.part parses .nil))) (by simp [Item.tokensOf])⟩

/-- A statement that is a keyword, a condition and a body parses if the body does. -/
theorem reparses_of_condition {make : Span → Expr → Stmt → Stmt} {kind : Kind} {condition : Expr}
    {body : Stmt}
    (words_eq
      : Printed.ofStmt (make span condition body)
        = .ofKind kind :: (Printed.ofCondition condition ++ Printed.ofStmt body))
    (open_eq : (make span condition body).endsInIf = body.endsInIf)
    (placeless
      : ∀ place test inner,
          Placeless.ofStmt (make place test inner)
          = make .nowhere (Placeless.ofExpr test) (Placeless.ofStmt inner))
    (rule
      : ∀ place keyword front back test inner,
          keyword.kind = kind →
          StatementRule script place (.statement true (make place test inner))
            [
              .token keyword,
              .part (.phrase (.condition true test)) front,
              .part (.phrase (.statement true inner)) back
            ])
    (complete : (Node.expression condition).Complete) (reparses : body.Reparses script)
    : (make span condition body).Reparses script := by
  intro offset tokens next spells read before
  rw [words_eq] at spells
  obtain ⟨keyword, rest, rfl, readKeyword, kind_eq, _, spells⟩ := Script.spells_kind spells
  obtain ⟨front, back, rfl, spelled, spells⟩ := Script.spells_append spells
  rw [Token.endOf_cons, Token.endOf_append] at read
  obtain ⟨test, alikeTest, parsesTest⟩ := reparses_condition complete spelled
  obtain ⟨result, alike, parses⟩ :=
    reparses _ _ next spells read ⟨before.noFinally, open_eq ▸ before.noElse⟩
  refine ⟨make (Token.spanOf (keyword :: (front ++ back))) test result, ?_,
    .intro (.statement (rule _ _ _ _ _ _ kind_eq))
      (.token readKeyword (.part parsesTest (.part parses .nil))) (by simp [Item.tokensOf])⟩
  rw [placeless, placeless, alikeTest, alike]

/-- A `while` loop is reparsed if its body is. -/
theorem reparses_whileLoop {condition : Expr} {body : Stmt}
    (complete : (Node.expression condition).Complete) (reparses : body.Reparses script)
    : (whileLoop span condition body).Reparses script := by
  refine reparses_of_condition rfl rfl (fun _ _ _ => ?_) (fun _ _ _ _ _ _ => .whileLoop) complete
    reparses
  rw [Placeless.ofStmt]

theorem reparses_withObject {object : Expr} {body : Stmt}
    (complete : (Node.expression object).Complete) (reparses : body.Reparses script)
    : (withObject span object body).Reparses script := by
  refine reparses_of_condition rfl rfl (fun _ _ _ => ?_) (fun _ _ _ _ _ _ => .withObject) complete
    reparses
  rw [Placeless.ofStmt]

/-- A `do` statement is reparsed if its body is; the semicolon behind it is part of it. -/
theorem reparses_doWhile {condition : Expr} {body : Stmt}
    (complete : (Node.expression condition).Complete) (reparses : body.Reparses script)
    : (doWhile span body condition).Reparses script := by
  intro offset tokens next spells _ _
  obtain ⟨keyword, rest, rfl, readKeyword, kind_eq, _, spells⟩ := Script.spells_kind spells
  obtain ⟨front, back, rfl, spelled, spells⟩ := Script.spells_append spells
  obtain ⟨whileWord, back, rfl, readWhile, while_eq, _, spells⟩ := Script.spells_kind spells
  obtain ⟨middle, back, rfl, spelledTest, spells⟩ := Script.spells_append spells
  obtain ⟨semicolon, last, rfl, readEnd, end_eq, _, behind⟩ := Script.spells_kind spells
  obtain rfl := Script.spells_nil behind
  obtain ⟨result, alike, parses⟩ :=
    reparses _ _ whileWord spelled readWhile (.of_kind while_eq (by decide) (by decide))
  obtain ⟨test, alikeTest, parsesTest⟩ := reparses_condition complete spelledTest
  exact ⟨.doWhile (Token.spanOf (keyword :: (front ++ whileWord :: (middle ++ [semicolon]))))
      result test,
    congrArg₂ (Stmt.doWhile .nowhere) alike alikeTest,
    .intro (.statement (.doWhileEnded kind_eq while_eq end_eq))
      (.token readKeyword
        (.part parses (.token readWhile (.part parsesTest (.token readEnd .nil)))))
      (by simp [Item.tokensOf])⟩

/-- A loop over properties is reparsed: no `in` stands in its target, so the header is told by its own. -/
theorem reparses_forIn {target : ForInTarget} {object : Expr} {body : Stmt}
    (isJs : script.dialect = .js)
    (complete : ∀ node ∈ target.children, node.Everywhere Node.Complete)
    (single : ∀ inner, target = .declaration inner → inner.declarators.length = 1)
    (completeObject : (Node.expression object).Complete) (reparses : body.Reparses script)
    : (forIn span target object body).Reparses script := by
  intro offset tokens next spells read before
  obtain ⟨keyword, rest, rfl, readKeyword, kind_eq, _, spells⟩ := Script.spells_kind spells
  obtain ⟨bracket, rest, rfl, readBracket, bracket_eq, _, spells⟩ := Script.spells_kind spells
  obtain ⟨front, rest, rfl, spelledTarget, spells⟩ := Script.spells_append spells
  obtain ⟨inWord, rest, rfl, readIn, in_eq, _, spells⟩ := Script.spells_kind spells
  obtain ⟨middle, rest, rfl, spelledObject, spells⟩ := Script.spells_append spells
  obtain ⟨close, back, rfl, readClose, close_eq, _, spells⟩ := Script.spells_kind spells
  simp only [Token.endOf_cons, Token.endOf_append] at read
  obtain ⟨place, alikeTarget, parsesTarget⟩ :=
    reparses_forInTarget isJs complete single spelledTarget readIn in_eq
  obtain ⟨value, _, alikeObject, _, parsesObject, _⟩ :=
    reparses_name completeObject spelledObject readClose (stopsOperators_of_kind close_eq rfl)
  obtain ⟨result, alike, parses⟩ :=
    reparses _ _ next spells read ⟨before.noFinally, before.noElse⟩
  refine ⟨.forIn (Token.spanOf (keyword :: bracket :: (front ++ inWord :: (middle ++ close :: back))))
      place value result, ?_,
    .intro (.statement (.forIn kind_eq bracket_eq in_eq close_eq))
      (.token readKeyword
        (.token readBracket
          (.part parsesTarget
            (.token readIn (.part parsesObject (.token readClose (.part parses .nil)))))))
      (by simp [Item.tokensOf])⟩
  simp [Placeless.ofStmt, alikeTarget, alikeObject, alike]

/-- A loop with three clauses is reparsed: each is ended by its mark, and none has an `in`. -/
theorem reparses_forLoop {start : ForStart} {condition update : Option Expr} {body : Stmt}
    (isJs : script.dialect = .js)
    (complete : ∀ node ∈ start.children, node.Everywhere Node.Complete)
    (completeCondition : ∀ inner, condition = some inner → (Node.expression inner).Complete)
    (completeUpdate : ∀ inner, update = some inner → (Node.expression inner).Complete)
    (reparses : body.Reparses script)
    : (forLoop span start condition update body).Reparses script := by
  intro offset tokens next spells read before
  obtain ⟨keyword, rest, rfl, readKeyword, kind_eq, _, spells⟩ := Script.spells_kind spells
  obtain ⟨bracket, rest, rfl, readBracket, bracket_eq, _, spells⟩ := Script.spells_kind spells
  obtain ⟨front, rest, rfl, spelledStart, spells⟩ := Script.spells_append spells
  obtain ⟨semicolon, rest, rfl, readEnd, end_eq, _, spells⟩ := Script.spells_kind spells
  obtain ⟨middle, rest, rfl, spelledCondition, spells⟩ := Script.spells_append spells
  obtain ⟨last, back, rfl, spelledUpdate, spells⟩ := Script.spells_append spells
  simp only [Token.endOf_cons, Token.endOf_append] at read
  obtain ⟨first, alikeStart, parsesStart⟩ :=
    reparses_forStart isJs complete spelledStart readEnd end_eq
  obtain ⟨test, alikeTest, parsesTest⟩ :=
    reparses_forClause completeCondition rfl rfl (by decide) spelledCondition
  obtain ⟨step, alikeStep, parsesStep⟩ :=
    reparses_forClause completeUpdate rfl rfl (by decide) spelledUpdate
  obtain ⟨result, alike, parses⟩ :=
    reparses _ _ next spells read ⟨before.noFinally, before.noElse⟩
  refine ⟨.forLoop
      (Token.spanOf (keyword :: bracket :: (front ++ semicolon :: (middle ++ (last ++ back)))))
      first test step result, ?_,
    .intro (.statement (.forLoop kind_eq bracket_eq end_eq))
      (.token readKeyword
        (.token readBracket
          (.part parsesStart
            (.token readEnd (.part parsesTest (.part parsesStep (.part parses .nil)))))))
      (by simp [Item.tokensOf])⟩
  simp [Placeless.ofStmt, alikeStart, alikeTest, alikeStep, alike]

/-- An `if` is reparsed with its own alternative, as no other `if` in front takes it up. -/
theorem reparses_ifElse {test : Expr} {consequent : Stmt} {alternate : Option Stmt}
    (complete : (Node.expression test).Complete)
    (matched : alternate.isSome → consequent.endsInIf = false)
    (reparses : consequent.Reparses script)
    (reparsesAlternate : ∀ inner, alternate = some inner → inner.Reparses script)
    : (ifElse span test consequent alternate).Reparses script := by
  intro offset tokens next spells read before
  obtain ⟨keyword, rest, rfl, readKeyword, kind_eq, _, spells⟩ := Script.spells_kind spells
  obtain ⟨front, rest, rfl, spelledTest, spells⟩ := Script.spells_append spells
  obtain ⟨value, alikeTest, parsesTest⟩ := reparses_condition complete spelledTest
  obtain ⟨middle, back, rfl, spelled, spells⟩ := Script.spells_append spells
  simp only [Token.endOf_cons, Token.endOf_append] at read
  cases alternate with
  | none =>
      obtain rfl := Script.spells_nil spells
      have noElse : next.kind ≠ .keywordElse := before.noElse rfl
      obtain ⟨result, alike, parses⟩ :=
        reparses _ _ next spelled read ⟨before.noFinally, fun _ => noElse⟩
      refine ⟨.ifElse (Token.spanOf (keyword :: (front ++ (middle ++ [])))) value result none, ?_,
        .intro (.statement (.ifOnly kind_eq noElse))
          (.token readKeyword
            (.part parsesTest (.part parses (.ahead ⟨read, trivial⟩ .nil))))
          (by simp [Item.tokensOf])⟩
      simp [Placeless.ofStmt, alikeTest, alike]
  | some alternate =>
      obtain ⟨elseWord, back, rfl, readElse, else_eq, _, spells⟩ := Script.spells_kind spells
      have closed : consequent.EndsBefore elseWord := by
        refine ⟨by simp [else_eq], fun open_ => ?_⟩
        rw [matched rfl] at open_
        cases open_
      obtain ⟨result, alike, parses⟩ := reparses _ _ elseWord spelled readElse closed
      obtain ⟨other, alikeOther, parsesOther⟩ :=
        reparsesAlternate alternate rfl _ _ next spells read ⟨before.noFinally, before.noElse⟩
      refine ⟨.ifElse (Token.spanOf (keyword :: (front ++ (middle ++ elseWord :: back)))) value
          result (some other), ?_,
        .intro (.statement (.ifElse kind_eq else_eq))
          (.token readKeyword
            (.part parsesTest (.part parses (.token readElse (.part parsesOther .nil)))))
          (by simp [Item.tokensOf])⟩
      simp [Placeless.ofStmt, Placeless.ofOptionalStmt, alikeTest, alike, alikeOther]

/-- A declared function is reparsed if the function is. -/
theorem reparses_function {name : String} {inner : Func} (isFree : IsFreeName name)
    (reparses : inner.Reparses script)
    : (function span name inner).Reparses script := by
  intro offset tokens next spells _ _
  obtain ⟨keyword, rest, rfl, readKeyword, kind_eq, _, spells⟩ := Script.spells_kind spells
  obtain ⟨token, rest, rfl, readName, named, _, name_eq, behind⟩ := Script.spells_name isFree spells
  subst name_eq
  obtain ⟨result, alike, parses⟩ := reparses _ _ behind
  exact ⟨.function (Token.spanOf (keyword :: token :: rest)) (script.nameOf token) result,
    congrArg (Stmt.function .nowhere _) alike,
    .intro (.statement (.function kind_eq named))
      (.token readKeyword (.token readName (.part parses .nil))) (by simp [Item.tokensOf])⟩

/-- A `switch` is reparsed if the statements in its branches are. -/
theorem reparses_switch {test : Expr} {branches : List Branch}
    (completeTest : (Node.expression test).Complete)
    (complete : ∀ branch ∈ branches, (Node.branch branch).Everywhere Node.Complete)
    (reparses
      : ∀ branch ∈ branches, ∀ statement ∈ branch.body, statement.Reparses script)
    : (switch span test branches).Reparses script := by
  intro offset tokens next spells _ _
  obtain ⟨keyword, rest, rfl, readKeyword, kind_eq, _, spells⟩ := Script.spells_kind spells
  obtain ⟨front, rest, rfl, spelledTest, spells⟩ := Script.spells_append spells
  obtain ⟨brace, rest, rfl, readBrace, brace_eq, _, spells⟩ := Script.spells_kind spells
  obtain ⟨back, rest, rfl, spelled, spells⟩ := Script.spells_append spells
  obtain ⟨close, rest, rfl, readClose, close_eq, _, behind⟩ := Script.spells_kind spells
  obtain rfl := Script.spells_nil behind
  obtain ⟨value, alikeTest, parsesTest⟩ := reparses_condition completeTest spelledTest
  obtain ⟨results, _, alike, parses, _⟩ :=
    reparses_branches complete reparses spelled readClose close_eq
  exact ⟨.switch (Token.spanOf (keyword :: (front ++ brace :: (back ++ [close])))) value results,
    congrArg₂ (Stmt.switch .nowhere) alikeTest alike,
    .intro (.statement (.switch kind_eq brace_eq close_eq))
      (.token readKeyword
        (.part parsesTest (.token readBrace (.part parses (.token readClose .nil)))))
      (by simp [Item.tokensOf])⟩

/-- A `try` is reparsed with its handler and its finalizer, of which it has one at least. -/
theorem reparses_tryBlock {inner : Block} {clause : Option Handler} {finalizer : Option Block}
    (guarded : clause.isSome ∨ finalizer.isSome)
    (names : ∀ handler, clause = some handler → IsFreeName handler.parameter)
    (reparses : inner.Reparses script)
    (reparsesClause : ∀ handler, clause = some handler → handler.body.Reparses script)
    (reparsesFinalizer : ∀ last, finalizer = some last → last.Reparses script)
    : (tryBlock span inner clause finalizer).Reparses script := by
  intro offset tokens next spells read before
  obtain ⟨keyword, rest, rfl, readKeyword, kind_eq, _, spells⟩ := Script.spells_kind spells
  obtain ⟨front, rest, rfl, spelled, spells⟩ := Script.spells_append spells
  obtain ⟨middle, back, rfl, spelledClause, spells⟩ := Script.spells_append spells
  simp only [Token.endOf_cons, Token.endOf_append] at read
  -- Without a handler the word `finally` stands behind the block.
  obtain ⟨follow, readFollow, noCatch⟩
      : ∃ follow,
          script.Reads .standard (Token.endOf (Token.endOf keyword.span.stop front) middle) follow
          ∧ (clause = none → follow.kind ≠ .keywordCatch) := by
    cases finalizer with
    | none =>
        obtain rfl := Script.spells_nil spells
        refine ⟨next, by simpa using read, ?_⟩
        rintro rfl
        simp at guarded
    | some last =>
        obtain ⟨follow, _, _, readFollow, follow_eq, _⟩ := Script.spells_kind spells
        exact ⟨follow, readFollow, fun _ => by simp [follow_eq]⟩
  obtain ⟨result, alike, parses⟩ := reparses _ _ spelled
  obtain ⟨handler, alikeClause, isSome_clause, parsesClause⟩ :=
    reparses_optionalHandler names reparsesClause spelledClause readFollow noCatch
  obtain ⟨last, alikeLast, isSome_last, parsesLast⟩ :=
    reparses_optionalFinalizer reparsesFinalizer spells read before.noFinally
  rw [← isSome_clause, ← isSome_last] at guarded
  refine ⟨.tryBlock (Token.spanOf (keyword :: (front ++ (middle ++ back)))) result handler last, ?_,
    .intro (.statement (.tryBlock kind_eq guarded))
      (.token readKeyword (.part parses (.part parsesClause (.part parsesLast .nil))))
      (by simp [Item.tokensOf])⟩
  simp [Placeless.ofStmt, alike, alikeClause, alikeLast]

end Stmt

-----------------------------------------------------------------------------------------
-- Every node
-----------------------------------------------------------------------------------------

/-- A complete statement parses if the nodes right below it do. -/
theorem Stmt.reparses {statement : Stmt} (isJs : script.dialect = .js)
    (complete : (Node.statement statement).Everywhere Node.Complete)
    (below : ∀ node ∈ statement.children, node.Reparses script)
    : statement.Reparses script := by
  have completeBelow : ∀ node ∈ statement.children, node.Everywhere Node.Complete :=
    fun node listed => complete.child listed
  have names := complete.self.1.names
  have printed := complete.self.1.printed
  cases statement with
  | block inner => exact reparses_block (below _ (List.mem_singleton_self _))
  | breakTo span label => exact reparses_breakTo names
  | continueTo span label => exact reparses_continueTo names
  | empty => exact reparses_empty
  | expression span value =>
      exact reparses_expression (completeBelow _ (List.mem_singleton_self _)).self
  | declaration inner =>
      exact reparses_declaration isJs (completeBelow _ (List.mem_singleton_self _))
  | labelled span label inner =>
      exact reparses_labelled (names label (List.mem_singleton_self _))
        (below _ (List.mem_singleton_self _))
  | function span name inner =>
      exact reparses_function (names name (List.mem_singleton_self _))
        (below _ (List.mem_singleton_self _))
  | returnValue span value =>
      exact reparses_returnValue fun inner same =>
        (completeBelow (.expression inner) (by simp [children, same])).self
  | throwValue span value =>
      exact reparses_throwValue fun inner same =>
        (completeBelow (.expression inner) (by simp [children, same])).self
  | whileLoop span condition body =>
      exact reparses_whileLoop (completeBelow _ List.mem_cons_self).self
        (below (.statement body) (by simp [children]))
  | withObject span object body =>
      exact reparses_withObject (completeBelow _ List.mem_cons_self).self
        (below (.statement body) (by simp [children]))
  | doWhile span body condition =>
      exact reparses_doWhile (completeBelow _ List.mem_cons_self).self
        (below (.statement body) (by simp [children]))
  | forIn span target object body =>
      refine reparses_forIn isJs
        (fun node listed => completeBelow node (List.mem_append_left _ listed)) ?_
        (completeBelow (.expression object) (by simp [children])).self
        (below (.statement body) (by simp [children]))
      rintro inner rfl
      exact printed
  | forLoop span start condition update body =>
      refine reparses_forLoop isJs
        (fun node listed => completeBelow node (by simp [children, listed])) ?_ ?_
        (below (.statement body) (by simp [children]))
      · rintro inner rfl
        exact (completeBelow (.expression inner) (by simp [children])).self
      · rintro inner rfl
        exact (completeBelow (.expression inner) (by simp [children])).self
  | ifElse span test consequent alternate =>
      refine reparses_ifElse (completeBelow _ List.mem_cons_self).self ?_
        (below (.statement consequent) (by simp [children])) ?_
      · intro present
        obtain ⟨inner, rfl⟩ := Option.isSome_iff_exists.mp present
        exact printed
      · rintro inner rfl
        exact below (.statement inner) (by simp [children])
  | switch span test branches =>
      exact reparses_switch (completeBelow _ List.mem_cons_self).self
        (fun branch listed => completeBelow (.branch branch) (by simp [children, listed]))
        (fun branch listed => below (.branch branch) (by simp [children, listed]))
  | tryBlock span inner clause finalizer =>
      refine reparses_tryBlock printed ?_ (below _ List.mem_cons_self) ?_ ?_
      · rintro handler rfl
        have complete : (Node.handler handler).Complete :=
          (completeBelow (.handler handler) (by simp [children])).self
        exact complete.1.names _ (List.mem_singleton_self _)
      · rintro handler rfl
        exact below (.handler handler) (by simp [children])
      · rintro last rfl
        exact below (.block last) (by simp [children])

/-- Every node of a complete tree parses from its words. -/
theorem Node.reparses (isJs : script.dialect = .js) (node : Node)
    (complete : node.Everywhere Node.Complete)
    : node.Reparses script := by
  induction node using Node.children_induct with
  | step node ih =>
  have below : ∀ child ∈ node.children, child.Reparses script :=
    fun child listed => ih child listed (complete.child listed)
  have completeBelow : ∀ child ∈ node.children, child.Everywhere Node.Complete :=
    fun child listed => complete.child listed
  cases node with
  | statement inner => exact Stmt.reparses isJs complete below
  | block inner =>
      simp only [Node.children, List.forall_mem_map] at below completeBelow
      exact reparses_block completeBelow below
  | body inner =>
      simp only [Node.children, List.forall_mem_map] at below completeBelow
      exact reparses_body completeBelow below
  | function inner =>
      refine reparses_function (fun parameter listed => ?_)
        (below (.body inner.body) (by simp [Node.children]))
      have complete : (Node.parameter parameter).Complete :=
        (completeBelow (.parameter parameter) (by simp [Node.children, listed])).self
      exact complete.1.names _ (List.mem_singleton_self _)
  | handler inner => exact below (.block inner.body) (List.mem_singleton_self _)
  | branch inner =>
      intro statement listed
      exact below (.statement statement) (by simp [Node.children, listed])
  | program | expression | arguments | member | parameter | declaration | initializer => trivial

end EcmaSyntax
