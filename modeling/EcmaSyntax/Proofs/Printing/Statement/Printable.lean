import EcmaSyntax.Proofs.Grammar.Names
import EcmaSyntax.Proofs.Printing.Printable
import EcmaSyntax.Proofs.Tree.Induction

/-! Statements as they are printed: the words of a statement one after the other, with a semicolon after
every statement that takes one. Printable trees are those whose expressions are names and that have a
text at all.
-/

namespace EcmaSyntax

-----------------------------------------------------------------------------------------
-- Printing
-----------------------------------------------------------------------------------------

namespace Printed

/-- An expression in parentheses, as it stands after a keyword. -/
def ofCondition (value : Expr) : List Word :=
  .ofKind .parenthesisOpen :: (ofExpr value ++ [.ofKind .parenthesisClose])

def ofOptionalExpr : Option Expr → List Word
  | none => []
  | some value => ofExpr value

def ofLabel : Option String → List Word
  | none => []
  | some label => [.ofName label]

/-- The words of parameters behind the first, and the closing parenthesis. -/
def ofParameterTail : List Parameter → List Word
  | [] => [.ofKind .parenthesisClose]
  | parameter :: rest => .ofKind .comma :: .ofName parameter.name :: ofParameterTail rest

def ofParameters : List Parameter → List Word
  | [] => [.ofKind .parenthesisClose]
  | parameter :: rest => .ofName parameter.name :: ofParameterTail rest

def ofInitializer : Option Initializer → List Word
  | none => []
  | some initializer => .ofKind .equals :: ofExpr initializer.value

/-- The words of declarators, with commas between them. -/
def ofDeclarators : List Declarator → List Word
  | [] => []
  | [declarator] => .ofName declarator.name :: ofInitializer declarator.initializer
  | declarator :: rest =>
      .ofName declarator.name
      :: (ofInitializer declarator.initializer ++ .ofKind .comma :: ofDeclarators rest)

/-- The keyword of a declaration. -/
def declarationKind : DeclarationMode → Kind
  | .constants => .keywordConst
  | .vars => .keywordVar

def ofDeclaration (declaration : Declaration) : List Word :=
  .ofKind (declarationKind declaration.mode) :: ofDeclarators declaration.declarators

def ofForStart : ForStart → List Word
  | .nothing => []
  | .expression value => ofExpr value
  | .declaration declaration => ofDeclaration declaration

def ofForInTarget : ForInTarget → List Word
  | .expression value => ofExpr value
  | .declaration declaration => ofDeclaration declaration

def ofBranchTest : Option Expr → List Word
  | none => [.ofKind .keywordDefault]
  | some test => .ofKind .keywordCase :: ofExpr test

mutual

/-- The words of the statement. -/
def ofStmt : Stmt → List Word
  | .block block => ofBlock block
  | .breakTo _ label => .ofKind .keywordBreak :: (ofLabel label ++ [.ofKind .semicolon])
  | .continueTo _ label => .ofKind .keywordContinue :: (ofLabel label ++ [.ofKind .semicolon])
  | .doWhile _ body condition =>
      .ofKind .keywordDo
      :: (ofStmt body
          ++ .ofKind .keywordWhile :: (ofCondition condition ++ [.ofKind .semicolon]))
  | .empty _ => [.ofKind .semicolon]
  | .expression _ value => ofExpr value ++ [.ofKind .semicolon]
  | .forIn _ target object body =>
      .ofKind .keywordFor :: .ofKind .parenthesisOpen
      :: (ofForInTarget target
          ++ .ofKind .keywordIn
            :: (ofExpr object ++ .ofKind .parenthesisClose :: ofStmt body))
  | .forLoop _ start condition update body =>
      .ofKind .keywordFor :: .ofKind .parenthesisOpen
      :: (ofForStart start
          ++ .ofKind .semicolon
            :: ((ofOptionalExpr condition ++ [.ofKind .semicolon])
              ++ ((ofOptionalExpr update ++ [.ofKind .parenthesisClose]) ++ ofStmt body)))
  | .ifElse _ test consequent alternate =>
      .ofKind .keywordIf :: (ofCondition test ++ (ofStmt consequent ++ ofAlternate alternate))
  | .labelled _ label statement => .ofName label :: .ofKind .colon :: ofStmt statement
  | .returnValue _ value =>
      .ofKind .keywordReturn :: (ofOptionalExpr value ++ [.ofKind .semicolon])
  | .switch _ test branches =>
      .ofKind .keywordSwitch
      :: (ofCondition test
          ++ .ofKind .braceOpen :: (ofBranches branches ++ [.ofKind .braceClose]))
  | .throwValue _ value =>
      .ofKind .keywordThrow :: (ofOptionalExpr value ++ [.ofKind .semicolon])
  | .tryBlock _ block handler finalizer =>
      .ofKind .keywordTry :: (ofBlock block ++ (ofHandler handler ++ ofFinalizer finalizer))
  | .whileLoop _ condition body =>
      .ofKind .keywordWhile :: (ofCondition condition ++ ofStmt body)
  | .withObject _ object body => .ofKind .keywordWith :: (ofCondition object ++ ofStmt body)
  | .function _ name function => .ofKind .keywordFunction :: .ofName name :: ofFunc function
  | .declaration declaration => ofDeclaration declaration ++ [.ofKind .semicolon]

def ofStmts : List Stmt → List Word
  | [] => []
  | statement :: rest => ofStmt statement ++ ofStmts rest

def ofAlternate : Option Stmt → List Word
  | none => []
  | some alternate => .ofKind .keywordElse :: ofStmt alternate

def ofBlock : Block → List Word
  | { span := _, statements } =>
      .ofKind .braceOpen :: (ofStmts statements ++ [.ofKind .braceClose])

def ofHandler : Option Handler → List Word
  | none => []
  | some { span := _, parameter, body } =>
      .ofKind .keywordCatch :: .ofKind .parenthesisOpen :: .ofName parameter
      :: .ofKind .parenthesisClose :: ofBlock body

def ofFinalizer : Option Block → List Word
  | none => []
  | some block => .ofKind .keywordFinally :: ofBlock block

def ofBranches : List Branch → List Word
  | [] => []
  | { span := _, test, body } :: rest =>
      (ofBranchTest test ++ .ofKind .colon :: ofStmts body) ++ ofBranches rest

def ofFunc : Func → List Word
  | { span := _, parameters, body } =>
      .ofKind .parenthesisOpen :: (ofParameters parameters ++ ofBody body)

def ofBody : Body → List Word
  | { span := _, statements } =>
      .ofKind .braceOpen :: (ofStmts statements ++ [.ofKind .braceClose])

end

end Printed

/-- The text of the program: its words with a space between them. -/
def Program.print (program : Program) : List Char :=
  Word.spaced (Printed.ofStmts program.body)

-----------------------------------------------------------------------------------------
-- Trees that can be printed
-----------------------------------------------------------------------------------------

/-- An `else` behind the statement would belong to an `if` at its end. -/
def Stmt.endsInIf : Stmt → Bool
  | ifElse _ _ _ none => true
  | ifElse _ _ _ (some alternate) => alternate.endsInIf
  | forIn _ _ _ body | forLoop _ _ _ _ body | labelled _ _ body | whileLoop _ _ body
  | withObject _ _ body => body.endsInIf
  | _ => false

/-- The name is an identifier and no reserved word. -/
structure IsFreeName (name : String) : Prop where
  written : Text.IsName name.toList
  free : wordKind? name.toList = none

/-- The node has a text of its own: an expression is a name, a `for`-`in` loop declares one variable, a
`try` has a clause, and an `else` belongs to the `if` that has it.
-/
def Node.IsPrinted : Node → Prop
  | expression value => ∃ span name, value = .identifier span name
  | statement (.ifElse _ _ consequent (some _)) => consequent.endsInIf = false
  | statement (.tryBlock _ _ clause finalizer) => clause.isSome ∨ finalizer.isSome
  | statement (.forIn _ (.declaration target) _ _) => target.declarators.length = 1
  | _ => True

/-- The node is printed as the grammar has it, and its names are free. -/
structure Node.Printable (node : Node) : Prop where
  names : ∀ name ∈ node.names, IsFreeName name
  printed : node.IsPrinted

/-- A declaration declares something. -/
def Node.Declares : Node → Prop
  | declaration inner => inner.declarators ≠ []
  | _ => True

/-- A printable node that declares something, if it is a declaration. -/
def Node.Complete (node : Node) : Prop :=
  node.Printable ∧ node.Declares

-----------------------------------------------------------------------------------------
-- The words of printable trees
-----------------------------------------------------------------------------------------

/-- A free name is an identifier. -/
theorem IsFreeName.kind_ofName {name : String} (isFree : IsFreeName name)
    : (Word.ofName name).kind = .identifier := by
  rw [Word.ofName, isFree.free]
  rfl

/-- A kind of token that a printed statement begins with. -/
def Kind.opensPrintedStatement (kind : Kind) : Bool :=
  kind = .identifier || Grammar.opensStatement kind

namespace Printed

variable {statement : Stmt}

/-- A printed statement begins with a word that opens statements, by cases on the statement. -/
theorem opens_ofStmt (printable : (Node.statement statement).Everywhere Node.Printable)
    : ∃ word rest, ofStmt statement = word :: rest ∧ word.kind.opensPrintedStatement := by
  cases statement with
  | expression span value =>
      have below : (Node.expression value).Everywhere Node.Printable := printable.child (.head _)
      obtain ⟨_, name, rfl⟩ := below.self.printed
      have isFree := below.self.names name (List.mem_singleton_self _)
      refine ⟨_, _, rfl, ?_⟩
      rw [isFree.kind_ofName]
      rfl
  | labelled span label inner =>
      have isFree := printable.self.names label (List.mem_singleton_self _)
      refine ⟨_, _, rfl, ?_⟩
      rw [isFree.kind_ofName]
      rfl
  | block inner =>
      cases inner
      exact ⟨_, _, rfl, rfl⟩
  | declaration inner =>
      refine ⟨_, _, rfl, ?_⟩
      cases inner.mode <;> rfl
  | _ => exact ⟨_, _, rfl, rfl⟩

theorem ofStmts_eq_flatMap (statements : List Stmt)
    : ofStmts statements = statements.flatMap ofStmt := by
  induction statements with
  | nil => rfl
  | cons statement rest ih => rw [ofStmts, ih, List.flatMap_cons]

end Printed

/-- The words of a node. -/
def Node.words : Node → List Word
  | program inner => Printed.ofStmts inner.body
  | statement inner => Printed.ofStmt inner
  | expression value => Printed.ofExpr value
  | arguments _ | member _ => []
  | function inner => Printed.ofFunc inner
  | parameter inner => [.ofName inner.name]
  | body inner => Printed.ofBody inner
  | block inner => Printed.ofBlock inner
  | handler inner => Printed.ofHandler (some inner)
  | branch inner => Printed.ofBranches [inner]
  | declaration inner => Printed.ofDeclaration inner
  | initializer inner => Printed.ofExpr inner.value

namespace Word

/-- All of the words are well-formed. -/
def AllWellFormed (words : List Word) : Prop :=
  ∀ word ∈ words, word.WellFormed

@[simp]
theorem allWellFormed_nil : AllWellFormed [] := by simp [AllWellFormed]

@[simp]
theorem allWellFormed_cons {word : Word} {words : List Word}
    : AllWellFormed (word :: words) ↔ word.WellFormed ∧ AllWellFormed words :=
  List.forall_mem_cons

@[simp]
theorem allWellFormed_append {front back : List Word}
    : AllWellFormed (front ++ back) ↔ AllWellFormed front ∧ AllWellFormed back :=
  List.forall_mem_append

end Word

namespace Printed

open Word

/-- The words of statements are those of each. -/
theorem allWellFormed_ofStmts {statements : List Stmt}
    (all : ∀ statement ∈ statements, AllWellFormed (ofStmt statement))
    : AllWellFormed (ofStmts statements) := by
  rw [ofStmts_eq_flatMap]
  intro word member
  obtain ⟨statement, listed, inside⟩ := List.mem_flatMap.mp member
  exact all statement listed word inside

theorem allWellFormed_ofParameterTail {parameters : List Parameter}
    (names : ∀ parameter ∈ parameters, (Word.ofName parameter.name).WellFormed)
    : AllWellFormed (ofParameterTail parameters) := by
  induction parameters with
  | nil => simp (disch := decide) [ofParameterTail, wellFormed_ofKind]
  | cons parameter rest ih =>
      obtain ⟨first, names⟩ := List.forall_mem_cons.mp names
      simp (disch := decide) [ofParameterTail, wellFormed_ofKind, first, ih names]

/-- The words of parameters are their names and marks. -/
theorem allWellFormed_ofParameters {parameters : List Parameter}
    (names : ∀ parameter ∈ parameters, (Word.ofName parameter.name).WellFormed)
    : AllWellFormed (ofParameters parameters) := by
  cases parameters with
  | nil => simp (disch := decide) [ofParameters, wellFormed_ofKind]
  | cons parameter rest =>
      obtain ⟨first, names⟩ := List.forall_mem_cons.mp names
      exact allWellFormed_cons.mpr ⟨first, allWellFormed_ofParameterTail names⟩

/-- The words of an initializer are those of its value, and the mark in front. -/
theorem allWellFormed_ofInitializer {declarator : Declarator}
    (below : ∀ node ∈ declarator.children, AllWellFormed node.words)
    : AllWellFormed (ofInitializer declarator.initializer) := by
  obtain ⟨name, _ | initializer⟩ := declarator
  · simp [ofInitializer]
  · have value := below _ (List.mem_singleton_self _)
    exact allWellFormed_cons.mpr ⟨wellFormed_ofKind (by decide), value⟩

/-- The words of declarators are their names, initializers and commas. -/
theorem allWellFormed_ofDeclarators {declarators : List Declarator}
    (names : ∀ declarator ∈ declarators, (Word.ofName declarator.name).WellFormed)
    (below
      : ∀ declarator ∈ declarators, ∀ node ∈ declarator.children, AllWellFormed node.words)
    : AllWellFormed (ofDeclarators declarators) := by
  induction declarators with
  | nil => simp [ofDeclarators]
  | cons declarator rest ih =>
      obtain ⟨first, names⟩ := List.forall_mem_cons.mp names
      obtain ⟨initializer, below⟩ := List.forall_mem_cons.mp below
      have initializer := allWellFormed_ofInitializer initializer
      cases rest with
      | nil => exact allWellFormed_cons.mpr ⟨first, initializer⟩
      | cons next rest =>
          simp (disch := decide) [ofDeclarators, wellFormed_ofKind, first, initializer,
            ih names below]

theorem allWellFormed_ofOptionalExpr {value : Option Expr}
    (below : ∀ node ∈ value.toList.map Node.expression, AllWellFormed node.words)
    : AllWellFormed (ofOptionalExpr value) := by
  cases value with
  | none => simp [ofOptionalExpr]
  | some value => exact below _ (List.mem_singleton_self _)

theorem allWellFormed_ofLabel {label : Option String}
    (names : ∀ name ∈ label.toList, (Word.ofName name).WellFormed)
    : AllWellFormed (ofLabel label) := by
  cases label with
  | none => simp [ofLabel]
  | some label => simpa [ofLabel] using names

/-- The words in front of the colon of a branch are its keyword and its test. -/
theorem allWellFormed_ofBranchTest {test : Option Expr}
    (below : ∀ node ∈ test.toList.map Node.expression, AllWellFormed node.words)
    : AllWellFormed (ofBranchTest test) := by
  cases test with
  | none => simp (disch := decide) [ofBranchTest, wellFormed_ofKind]
  | some test =>
      exact allWellFormed_cons.mpr
        ⟨wellFormed_ofKind (by decide), below _ (List.mem_singleton_self _)⟩

/-- The words of branches are those of each. -/
theorem allWellFormed_ofBranches {branches : List Branch}
    (all : ∀ branch ∈ branches, AllWellFormed (Node.branch branch).words)
    : AllWellFormed (ofBranches branches) := by
  induction branches with
  | nil => simp [ofBranches]
  | cons branch rest ih =>
      obtain ⟨first, others⟩ := List.forall_mem_cons.mp all
      obtain ⟨span, test, body⟩ := branch
      have first : AllWellFormed (ofBranchTest test ++ .ofKind .colon :: ofStmts body) := by
        simpa [Node.words, ofBranches] using first
      exact allWellFormed_append.mpr ⟨first, ih others⟩

/-- The words of a statement are well-formed if its names and the words below it are. -/
theorem allWellFormed_ofStmt {statement : Stmt}
    (names : ∀ name ∈ statement.names, (Word.ofName name).WellFormed)
    (below : ∀ node ∈ statement.children, AllWellFormed node.words)
    : AllWellFormed (ofStmt statement) := by
  have mark {kind : Kind} (spelled : kind.punctuator?.isSome || kind.isWord)
      : (Word.ofKind kind).WellFormed :=
    wellFormed_ofKind spelled
  cases statement with
  | block inner => exact below _ (List.mem_singleton_self _)
  | empty => simp (disch := decide) [ofStmt, mark]
  | breakTo _ label | continueTo _ label =>
      simp (disch := decide) [ofStmt, mark, allWellFormed_ofLabel names]
  | expression _ value =>
      simp only [Stmt.children, List.forall_mem_singleton, Node.words] at below
      simp (disch := decide) [ofStmt, mark, below]
  | doWhile _ body condition | whileLoop _ condition body | withObject _ condition body =>
      simp only [Stmt.children, List.forall_mem_cons, Node.words] at below
      simp (disch := decide) [ofStmt, ofCondition, mark, below]
  | forIn _ target object body =>
      simp only [Stmt.children, List.forall_mem_append, List.forall_mem_cons, Node.words] at below
      have target : AllWellFormed (ofForInTarget target) := by
        cases target <;> exact below.1 _ (List.mem_singleton_self _)
      simp (disch := decide) [ofStmt, mark, target, below]
  | forLoop _ start condition update body =>
      simp only [Stmt.children, List.forall_mem_append, List.forall_mem_singleton, Node.words]
        at below
      obtain ⟨⟨⟨first, condition⟩, update⟩, body⟩ := below
      have start : AllWellFormed (ofForStart start) := by
        cases start with
        | nothing => simp [ofForStart]
        | expression | declaration => exact first _ (List.mem_singleton_self _)
      simp (disch := decide) [ofStmt, mark, start, allWellFormed_ofOptionalExpr condition,
        allWellFormed_ofOptionalExpr update, body]
  | ifElse _ test consequent alternate =>
      simp only [Stmt.children, List.forall_mem_cons, Node.words] at below
      have alternate : AllWellFormed (ofAlternate alternate) := by
        cases alternate with
        | none => simp [ofAlternate]
        | some alternate =>
            exact allWellFormed_cons.mpr ⟨mark (by decide), below.2.2 _ (List.mem_singleton_self _)⟩
      simp (disch := decide) [ofStmt, ofCondition, mark, below, alternate]
  | labelled _ label inner =>
      simp only [Stmt.names, Stmt.children, List.forall_mem_singleton, Node.words] at names below
      simp (disch := decide) [ofStmt, mark, names, below]
  | returnValue _ value | throwValue _ value =>
      simp (disch := decide) [ofStmt, mark, allWellFormed_ofOptionalExpr below]
  | switch _ test branches =>
      simp only [Stmt.children, List.forall_mem_cons, List.forall_mem_map] at below
      have test : AllWellFormed (ofExpr test) := below.1
      simp (disch := decide) [ofStmt, ofCondition, mark, test, allWellFormed_ofBranches below.2]
  | tryBlock _ inner clause finalizer =>
      simp only [Stmt.children, List.forall_mem_cons, List.forall_mem_append] at below
      have inner : AllWellFormed (ofBlock inner) := below.1
      have clause : AllWellFormed (ofHandler clause) := by
        cases clause with
        | none => simp [ofHandler]
        | some clause => exact below.2.1 _ (List.mem_singleton_self _)
      have finalizer : AllWellFormed (ofFinalizer finalizer) := by
        cases finalizer with
        | none => simp [ofFinalizer]
        | some finalizer =>
            exact allWellFormed_cons.mpr ⟨mark (by decide), below.2.2 _ (List.mem_singleton_self _)⟩
      simp (disch := decide) [ofStmt, mark, inner, clause, finalizer]
  | function _ name inner =>
      simp only [Stmt.names, Stmt.children, List.forall_mem_singleton, Node.words] at names below
      simp (disch := decide) [ofStmt, mark, names, below]
  | declaration inner =>
      simp only [Stmt.children, List.forall_mem_singleton, Node.words] at below
      simp (disch := decide) [ofStmt, mark, below]

end Printed

open Word in
/-- All words of a printable tree are well-formed. -/
theorem Node.allWellFormed (node : Node) (printable : node.Everywhere Node.Printable)
    : AllWellFormed node.words := by
  induction node using Node.children_induct with
  | step node ih =>
  have below : ∀ child ∈ node.children, AllWellFormed child.words :=
    fun child listed => ih child listed (printable.child listed)
  have names : ∀ name ∈ node.names, (Word.ofName name).WellFormed :=
    fun name listed => wellFormed_ofName (printable.self.names name listed).written
  have printed := printable.self.printed
  cases node with
  | program inner =>
      simp only [Node.children, List.forall_mem_map] at below
      exact Printed.allWellFormed_ofStmts below
  | statement inner => exact Printed.allWellFormed_ofStmt names below
  | expression value =>
      obtain ⟨span, name, rfl⟩ := printed
      simpa [Node.names, Expr.names, Node.words, Printed.ofExpr] using names
  | arguments | member => exact allWellFormed_nil
  | parameter inner => simpa [Node.names, Node.words] using names
  | initializer inner => exact below (.expression inner.value) (List.mem_singleton_self _)
  | declaration inner =>
      have mode : (Word.ofKind (Printed.declarationKind inner.mode)).WellFormed :=
        wellFormed_ofKind (by cases inner.mode <;> decide)
      simp only [Node.children, List.forall_mem_flatMap] at below
      simp only [Node.names, List.forall_mem_map] at names
      exact allWellFormed_cons.mpr ⟨mode, Printed.allWellFormed_ofDeclarators names below⟩
  | block inner | body inner =>
      obtain ⟨span, statements⟩ := inner
      simp only [Node.children, List.forall_mem_map] at below
      have inside := Printed.allWellFormed_ofStmts below
      simp (disch := decide) [Node.words, Printed.ofBlock, Printed.ofBody, wellFormed_ofKind, inside]
  | handler inner =>
      obtain ⟨span, parameter, body⟩ := inner
      simp only [Node.names, Node.children, List.forall_mem_singleton, Node.words] at names below
      simp (disch := decide) [Node.words, Printed.ofHandler, wellFormed_ofKind, names, below]
  | branch inner =>
      obtain ⟨span, test, body⟩ := inner
      obtain ⟨test, inside⟩ := List.forall_mem_append.mp below
      have test := Printed.allWellFormed_ofBranchTest test
      rw [List.forall_mem_map] at inside
      have inside := Printed.allWellFormed_ofStmts inside
      simp (disch := decide) [Node.words, Printed.ofBranches, wellFormed_ofKind, test, inside]
  | function inner =>
      obtain ⟨span, parameters, body⟩ := inner
      simp only [Node.children, List.forall_mem_append, List.forall_mem_map,
        List.forall_mem_singleton] at below
      have names : AllWellFormed (Printed.ofParameters parameters) :=
        Printed.allWellFormed_ofParameters fun parameter listed =>
          (allWellFormed_cons.mp (below.1 parameter listed)).1
      have body : AllWellFormed (Printed.ofBody body) := below.2
      simp (disch := decide) [Node.words, Printed.ofFunc, wellFormed_ofKind, names, body]

end EcmaSyntax
