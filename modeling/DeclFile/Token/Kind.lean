/-! # Kinds of tokens

A token of a declaration file is a name or literal, a piece of a template literal, a
keyword, a punctuation mark, a comment, or the end of the text. Most keywords are only
reserved in some places, so the classes below say which kinds may serve as names.
-/

namespace DeclFile

/-- The words with a meaning of their own somewhere in a declaration file. -/
inductive Keyword where
  | abstract | accessor | as | asserts | async | «class» | const | declare | default | enum
  | export | extends | from | function | get | global | implements | import | in | infer
  | interface | is | keyof | let | module | namespace | new | out | override | «private»
  | «protected» | «public» | readonly | set | static | this | type | typeof | unique | var
  | string | number | boolean | bigint | symbol | object | void | null | undefined | any
  | unknown | never | true | false
deriving DecidableEq, Repr

namespace Keyword

/-- Every keyword, in alphabetical order within words of syntax and words of types. -/
def all : List Keyword := [
  .abstract, .accessor, .as, .asserts, .async, .class, .const, .declare, .default, .enum,
  .export, .extends, .from, .function, .get, .global, .implements, .import, .in, .infer,
  .interface, .is, .keyof, .let, .module, .namespace, .new, .out, .override, .private,
  .protected, .public, .readonly, .set, .static, .this, .type, .typeof, .unique, .var, .string,
  .number, .boolean, .bigint, .symbol, .object, .void, .null, .undefined, .any, .unknown, .never,
  .true, .false]

/-- How a keyword is written. -/
def spelling : Keyword → String
  | .abstract => "abstract"
  | .accessor => "accessor"
  | .as => "as"
  | .asserts => "asserts"
  | .async => "async"
  | .class => "class"
  | .const => "const"
  | .declare => "declare"
  | .default => "default"
  | .enum => "enum"
  | .export => "export"
  | .extends => "extends"
  | .from => "from"
  | .function => "function"
  | .get => "get"
  | .global => "global"
  | .implements => "implements"
  | .import => "import"
  | .in => "in"
  | .infer => "infer"
  | .interface => "interface"
  | .is => "is"
  | .keyof => "keyof"
  | .let => "let"
  | .module => "module"
  | .namespace => "namespace"
  | .new => "new"
  | .out => "out"
  | .override => "override"
  | .private => "private"
  | .protected => "protected"
  | .public => "public"
  | .readonly => "readonly"
  | .set => "set"
  | .static => "static"
  | .this => "this"
  | .type => "type"
  | .typeof => "typeof"
  | .unique => "unique"
  | .var => "var"
  | .string => "string"
  | .number => "number"
  | .boolean => "boolean"
  | .bigint => "bigint"
  | .symbol => "symbol"
  | .object => "object"
  | .void => "void"
  | .null => "null"
  | .undefined => "undefined"
  | .any => "any"
  | .unknown => "unknown"
  | .never => "never"
  | .true => "true"
  | .false => "false"

/-- The keyword written `word`, if there is one. -/
def ofSpelling? (word : String) : Option Keyword :=
  all.find? fun keyword => keyword.spelling == word

/-- The keywords that can never name a binding. -/
def reserved : List Keyword := [
  .class, .const, .default, .enum, .export, .extends, .function, .import, .in, .new, .null,
  .this, .true, .false, .typeof, .var, .void]

theorem ofSpelling?_spelling (keyword : Keyword) :
    ofSpelling? keyword.spelling = some keyword := by
  cases keyword <;> decide

/-- Whether a keyword can never name a binding. -/
def isReserved (keyword : Keyword) : Bool := reserved.contains keyword

end Keyword

/-- Punctuation. A `>` always stands alone, so that nested type arguments close one by one. -/
inductive Mark where
  | openParen | closeParen | openBrace | closeBrace | openBracket | closeBracket | openAngle
  | closeAngle | comma | semicolon | colon | dot | ellipsis | question | pipe | ampersand
  | arrow | equals | plus | minus | star | slash | bang | atSign
deriving DecidableEq, Repr

/-- How a mark is written. -/
def Mark.spelling : Mark → String
  | .openParen => "("
  | .closeParen => ")"
  | .openBrace => "\x7b"
  | .closeBrace => "\x7d"
  | .openBracket => "["
  | .closeBracket => "]"
  | .openAngle => "<"
  | .closeAngle => ">"
  | .comma => ","
  | .semicolon => ";"
  | .colon => ":"
  | .dot => "."
  | .ellipsis => "..."
  | .question => "?"
  | .pipe => "|"
  | .ampersand => "&"
  | .arrow => "=>"
  | .equals => "="
  | .plus => "+"
  | .minus => "-"
  | .star => "*"
  | .slash => "/"
  | .bang => "!"
  | .atSign => "@"

/-- What sort of token a stretch of text is. -/
inductive Kind where
  | identifier
  | privateName
  | stringLiteral
  | numberLiteral
  | bigintLiteral
  /-- A whole template literal, without substitutions. -/
  | templateWhole
  /-- A template literal from its backtick to the first substitution. -/
  | templateHead
  /-- The part of a template literal between two substitutions. -/
  | templateMiddle
  /-- A template literal from the last substitution to the closing backtick. -/
  | templateTail
  | lineComment
  | blockComment
  | directive
  | word (keyword : Keyword)
  | mark (sign : Mark)
  | endOfText
deriving DecidableEq, Repr, Inhabited

namespace Kind

/-- Whether a token of this kind is a keyword. -/
def isKeyword : Kind → Bool
  | .word _ => true
  | _ => false

/-- Whether a token of this kind is a keyword that can never name a binding. -/
def isReserved : Kind → Bool
  | .word keyword => keyword.isReserved
  | _ => false

/-- Whether a token of this kind can stand where any name is allowed, as after a dot. -/
def isName (kind : Kind) : Bool := kind == .identifier || kind.isKeyword

/-- Whether a token of this kind can name a binding. -/
def isBindingName (kind : Kind) : Bool := kind.isName && !kind.isReserved

/-- Whether a token of this kind is passed over between significant tokens. -/
def isTrivia : Kind → Bool
  | .lineComment | .blockComment | .directive => true
  | _ => false

/-- How messages refer to a token of this kind. -/
def describe : Kind → String
  | .identifier => "identifier"
  | .privateName => "private name"
  | .stringLiteral => "string literal"
  | .numberLiteral => "number literal"
  | .bigintLiteral => "bigint literal"
  | .templateWhole | .templateHead => "template literal"
  | .templateMiddle | .templateTail => "template continuation"
  | .lineComment | .blockComment => "comment"
  | .directive => "triple-slash directive"
  | .word keyword => s!"`{keyword.spelling}`"
  | .mark sign => s!"`{sign.spelling}`"
  | .endOfText => "end of input"

theorem ne_endOfText {kind : Kind} {p : Kind → Bool} (h : p kind = true)
    (hend : p .endOfText = false) : kind ≠ .endOfText := by
  rintro rfl
  exact absurd h (by simp [hend])

end Kind

end DeclFile
