import EcmaSyntax.Token.Kind

/-!
The tokens with one spelling: punctuators and reserved words. Two tables pair kinds with spellings;
punctuators are recognised by the longest spelling that opens a text, words by their whole text.
-/

namespace EcmaSyntax

/-- The punctuators and their spellings. -/
def punctuators : List (Kind × String) :=
  [
    (.ampersand, "&"), (.ampersandAmpersand, "&&"), (.ampersandEquals, "&="), (.asterisk, "*"),
    (.asteriskEquals, "*="), (.bar, "|"), (.barBar, "||"), (.barEquals, "|="),
    (.braceClose, "\x7d"), (.braceOpen, "\x7b"), (.bracketClose, "]"), (.bracketOpen, "["),
    (.caret, "^"), (.caretEquals, "^="), (.chevronLeft, "<"), (.chevronLeftChevronLeft, "<<"),
    (.chevronLeftChevronLeftEquals, "<<="), (.chevronLeftEquals, "<="), (.chevronRight, ">"),
    (.chevronRightChevronRight, ">>"), (.chevronRightChevronRightChevronRight, ">>>"),
    (.chevronRightChevronRightChevronRightEquals, ">>>="),
    (.chevronRightChevronRightEquals, ">>="), (.chevronRightEquals, ">="), (.colon, ":"),
    (.comma, ","), (.dot, "."), (.equals, "="), (.equalsEquals, "=="),
    (.equalsEqualsEquals, "==="), (.exclamation, "!"), (.exclamationEquals, "!="),
    (.exclamationEqualsEquals, "!=="), (.hyphen, "-"), (.hyphenEquals, "-="),
    (.hyphenHyphen, "--"), (.parenthesisClose, ")"), (.parenthesisOpen, "("), (.percent, "%"),
    (.percentEquals, "%="), (.plus, "+"), (.plusEquals, "+="), (.plusPlus, "++"),
    (.question, "?"), (.semicolon, ";"), (.slash, "/"), (.slashEquals, "/="), (.tilde, "~")
  ]

/-- The reserved words and their spellings. -/
def reservedWords : List (Kind × String) :=
  [
    (.keywordBreak, "break"), (.keywordCase, "case"), (.keywordCatch, "catch"),
    (.keywordClass, "class"), (.keywordConst, "const"), (.keywordContinue, "continue"),
    (.keywordDebugger, "debugger"), (.keywordDefault, "default"), (.keywordDelete, "delete"),
    (.keywordDo, "do"), (.keywordElse, "else"), (.keywordEnum, "enum"),
    (.keywordExport, "export"), (.keywordExtends, "extends"), (.keywordFinally, "finally"),
    (.keywordFor, "for"), (.keywordFunction, "function"), (.keywordIf, "if"),
    (.keywordImport, "import"), (.keywordIn, "in"), (.keywordInstanceof, "instanceof"),
    (.keywordNew, "new"), (.keywordReturn, "return"), (.keywordSuper, "super"),
    (.keywordSwitch, "switch"), (.keywordThis, "this"), (.keywordThrow, "throw"),
    (.keywordTry, "try"), (.keywordTypeof, "typeof"), (.keywordVar, "var"),
    (.keywordVoid, "void"), (.keywordWhile, "while"), (.keywordWith, "with"),
    (.literalFalse, "false"), (.literalNull, "null"), (.literalTrue, "true")
  ]

namespace Kind

/-- The spelling of a punctuator. -/
def punctuator? (kind : Kind) : Option String :=
  punctuators.lookup kind

/-- The spelling of a reserved word. -/
def word? (kind : Kind) : Option String :=
  reservedWords.lookup kind

/-- A kind of reserved word, which a property name may be but an identifier may not. -/
def isWord (kind : Kind) : Bool :=
  kind.word?.isSome

/-- A word that is reserved for future use: it has no part in the grammar. -/
def isFutureReserved : Kind → Bool
  | keywordClass | keywordEnum | keywordExport | keywordExtends | keywordImport | keywordSuper => true
  | _ => false

end Kind

/-- The kind of the reserved word that the whole text spells. -/
def wordKind? (text : List Char) : Option Kind :=
  (reservedWords.find? fun entry => entry.2.toList = text).map Prod.fst

/-- The longer of two spellings, the first if they are equally long. -/
def longerSpelling (first second : Kind × String) : Kind × String :=
  if first.2.length < second.2.length then second else first

/-- The punctuator with the longest spelling that opens the text. -/
def longestPunctuator? (text : List Char) : Option (Kind × String) :=
  (punctuators.filter fun entry => entry.2.toList.isPrefixOf text).foldl
    (fun best entry => some (best.elim entry fun best => longerSpelling best entry)) none

end EcmaSyntax
