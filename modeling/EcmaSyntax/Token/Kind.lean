/-!
The kinds of tokens. Each has a name that diagnostics show, and the names tell the kinds apart.
-/

namespace EcmaSyntax

/-- What a token is. `endOfInput` closes every token sequence, and `invalid` stands for text that
is no token. The kinds of comments, blanks and `literalNumberHex` classify text within the lexer, and
no token carries them. -/
inductive Kind where
  | endOfInput
  | invalid
  | commentMultiline
  | commentMultilineEnd
  | commentSingle
  | lineTerminator
  | literalNumberHex
  | whitespace
  | ampersand
  | ampersandAmpersand
  | ampersandEquals
  | asterisk
  | asteriskEquals
  | bar
  | barBar
  | barEquals
  | braceClose
  | braceOpen
  | bracketClose
  | bracketOpen
  | caret
  | caretEquals
  | chevronLeft
  | chevronLeftChevronLeft
  | chevronLeftChevronLeftEquals
  | chevronLeftEquals
  | chevronRight
  | chevronRightChevronRight
  | chevronRightChevronRightChevronRight
  | chevronRightChevronRightChevronRightEquals
  | chevronRightChevronRightEquals
  | chevronRightEquals
  | colon
  | comma
  | dot
  | equals
  | equalsEquals
  | equalsEqualsEquals
  | exclamation
  | exclamationEquals
  | exclamationEqualsEquals
  | hyphen
  | hyphenEquals
  | hyphenHyphen
  | identifier
  | keywordBreak
  | keywordCase
  | keywordCatch
  | keywordClass
  | keywordConst
  | keywordContinue
  | keywordDebugger
  | keywordDefault
  | keywordDelete
  | keywordDo
  | keywordElse
  | keywordEnum
  | keywordExport
  | keywordExtends
  | keywordFinally
  | keywordFor
  | keywordFunction
  | keywordIf
  | keywordImport
  | keywordIn
  | keywordInstanceof
  | keywordNew
  | keywordReturn
  | keywordSuper
  | keywordSwitch
  | keywordThis
  | keywordThrow
  | keywordTry
  | keywordTypeof
  | keywordVar
  | keywordVoid
  | keywordWhile
  | keywordWith
  | literalFalse
  | literalNull
  | literalNumber
  | literalRegex
  | literalString
  | literalTrue
  | parenthesisClose
  | parenthesisOpen
  | percent
  | percentEquals
  | plus
  | plusEquals
  | plusPlus
  | question
  | semicolon
  | slash
  | slashEquals
  | tilde
  deriving DecidableEq, Repr, Inhabited

namespace Kind

/-- The name that diagnostics show. -/
def name : Kind → String
  | endOfInput => "EOF"
  | invalid => "Invalid"
  | commentMultiline => "CommentMultiline"
  | commentMultilineEnd => "CommentMultilineEnd"
  | commentSingle => "CommentSingle"
  | lineTerminator => "LineTerminator"
  | literalNumberHex => "LiteralNumberHex"
  | whitespace => "Whitespace"
  | ampersand => "Ampersand"
  | ampersandAmpersand => "AmpersandAmpersand"
  | ampersandEquals => "AmpersandEquals"
  | asterisk => "Asterisk"
  | asteriskEquals => "AsteriskEquals"
  | bar => "Bar"
  | barBar => "BarBar"
  | barEquals => "BarEquals"
  | braceClose => "BraceClose"
  | braceOpen => "BraceOpen"
  | bracketClose => "BracketClose"
  | bracketOpen => "BracketOpen"
  | caret => "Caret"
  | caretEquals => "CaretEquals"
  | chevronLeft => "ChevronLeft"
  | chevronLeftChevronLeft => "ChevronLeftChevronLeft"
  | chevronLeftChevronLeftEquals => "ChevronLeftChevronLeftEquals"
  | chevronLeftEquals => "ChevronLeftEquals"
  | chevronRight => "ChevronRight"
  | chevronRightChevronRight => "ChevronRightChevronRight"
  | chevronRightChevronRightChevronRight => "ChevronRightChevronRightChevronRight"
  | chevronRightChevronRightChevronRightEquals => "ChevronRightChevronRightChevronRightEquals"
  | chevronRightChevronRightEquals => "ChevronRightChevronRightEquals"
  | chevronRightEquals => "ChevronRightEquals"
  | colon => "Colon"
  | comma => "Comma"
  | dot => "Dot"
  | equals => "Equals"
  | equalsEquals => "EqualsEquals"
  | equalsEqualsEquals => "EqualsEqualsEquals"
  | exclamation => "Exclamation"
  | exclamationEquals => "ExclamationEquals"
  | exclamationEqualsEquals => "ExclamationEqualsEquals"
  | hyphen => "Hyphen"
  | hyphenEquals => "HyphenEquals"
  | hyphenHyphen => "HyphenHyphen"
  | identifier => "Identifier"
  | keywordBreak => "KeywordBreak"
  | keywordCase => "KeywordCase"
  | keywordCatch => "KeywordCatch"
  | keywordClass => "KeywordClass"
  | keywordConst => "KeywordConst"
  | keywordContinue => "KeywordContinue"
  | keywordDebugger => "KeywordDebugger"
  | keywordDefault => "KeywordDefault"
  | keywordDelete => "KeywordDelete"
  | keywordDo => "KeywordDo"
  | keywordElse => "KeywordElse"
  | keywordEnum => "KeywordEnum"
  | keywordExport => "KeywordExport"
  | keywordExtends => "KeywordExtends"
  | keywordFinally => "KeywordFinally"
  | keywordFor => "KeywordFor"
  | keywordFunction => "KeywordFunction"
  | keywordIf => "KeywordIf"
  | keywordImport => "KeywordImport"
  | keywordIn => "KeywordIn"
  | keywordInstanceof => "KeywordInstanceof"
  | keywordNew => "KeywordNew"
  | keywordReturn => "KeywordReturn"
  | keywordSuper => "KeywordSuper"
  | keywordSwitch => "KeywordSwitch"
  | keywordThis => "KeywordThis"
  | keywordThrow => "KeywordThrow"
  | keywordTry => "KeywordTry"
  | keywordTypeof => "KeywordTypeof"
  | keywordVar => "KeywordVar"
  | keywordVoid => "KeywordVoid"
  | keywordWhile => "KeywordWhile"
  | keywordWith => "KeywordWith"
  | literalFalse => "LiteralFalse"
  | literalNull => "LiteralNull"
  | literalNumber => "LiteralNumber"
  | literalRegex => "LiteralRegex"
  | literalString => "LiteralString"
  | literalTrue => "LiteralTrue"
  | parenthesisClose => "ParenthesisClose"
  | parenthesisOpen => "ParenthesisOpen"
  | percent => "Percent"
  | percentEquals => "PercentEquals"
  | plus => "Plus"
  | plusEquals => "PlusEquals"
  | plusPlus => "PlusPlus"
  | question => "Question"
  | semicolon => "Semicolon"
  | slash => "Slash"
  | slashEquals => "SlashEquals"
  | tilde => "Tilde"

/-- Every kind. -/
def all : List Kind :=
  [
    .endOfInput, .invalid, .commentMultiline, .commentMultilineEnd, .commentSingle,
    .lineTerminator, .literalNumberHex, .whitespace, .ampersand, .ampersandAmpersand,
    .ampersandEquals, .asterisk, .asteriskEquals, .bar, .barBar, .barEquals, .braceClose,
    .braceOpen, .bracketClose, .bracketOpen, .caret, .caretEquals, .chevronLeft,
    .chevronLeftChevronLeft, .chevronLeftChevronLeftEquals, .chevronLeftEquals, .chevronRight,
    .chevronRightChevronRight, .chevronRightChevronRightChevronRight,
    .chevronRightChevronRightChevronRightEquals, .chevronRightChevronRightEquals,
    .chevronRightEquals, .colon, .comma, .dot, .equals, .equalsEquals, .equalsEqualsEquals,
    .exclamation, .exclamationEquals, .exclamationEqualsEquals, .hyphen, .hyphenEquals,
    .hyphenHyphen, .identifier, .keywordBreak, .keywordCase, .keywordCatch, .keywordClass,
    .keywordConst, .keywordContinue, .keywordDebugger, .keywordDefault, .keywordDelete,
    .keywordDo, .keywordElse, .keywordEnum, .keywordExport, .keywordExtends, .keywordFinally,
    .keywordFor, .keywordFunction, .keywordIf, .keywordImport, .keywordIn, .keywordInstanceof,
    .keywordNew, .keywordReturn, .keywordSuper, .keywordSwitch, .keywordThis, .keywordThrow,
    .keywordTry, .keywordTypeof, .keywordVar, .keywordVoid, .keywordWhile, .keywordWith,
    .literalFalse, .literalNull, .literalNumber, .literalRegex, .literalString, .literalTrue,
    .parenthesisClose, .parenthesisOpen, .percent, .percentEquals, .plus, .plusEquals,
    .plusPlus, .question, .semicolon, .slash, .slashEquals, .tilde
  ]

/-- The kind with the name. -/
def ofName? (name : String) : Option Kind :=
  all.find? fun kind => kind.name == name

end Kind

end EcmaSyntax
