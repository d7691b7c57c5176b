/-
The words that statements are made of. Letter case is settled here:
keywords are constructors, and identifiers carry their final spelling.
-/

namespace DialectDb

-- ============================================================ keywords

/-- The reserved words. -/
inductive Keyword
  | ALL | AND | AS | ASC | BETWEEN | BY | CONFLICT | CREATE | CROSS | DEFAULT | DELETE | DESC
  | DISTINCT | DO | DROP | DUPLICATE | EXISTS | FALSE | FETCH | FIRST | FOR | FORCE | FROM
  | GROUP | HAVING | IF | IGNORE | IN | INDEX | INNER | INSERT | INTO | IS | JOIN | KEY | LEFT
  | LIKE | LIMIT | MATERIALIZED | MATCHED | MERGE | NEXT | NOT | NOTHING | NULL | OFFSET | ON
  | ONLY | OPTION | OR | ORDER | OUTER | PRIMARY | RECURSIVE | RIGHT | ROW | ROWS | SELECT
  | SET | TABLE | THEN | TOP | TRUE | UNION | UNIQUE | UPDATE | USE | USING | VALUES | WHEN
  | WHERE | WITH
deriving DecidableEq

namespace Keyword

/-- The keywords, in alphabetic order. -/
def all : List Keyword :=
  [ALL, AND, AS, ASC, BETWEEN, BY, CONFLICT, CREATE, CROSS, DEFAULT, DELETE, DESC, DISTINCT, DO,
    DROP, DUPLICATE, EXISTS, FALSE, FETCH, FIRST, FOR, FORCE, FROM, GROUP, HAVING, IF, IGNORE,
    IN, INDEX, INNER, INSERT, INTO, IS, JOIN, KEY, LEFT, LIKE, LIMIT, MATERIALIZED, MATCHED,
    MERGE, NEXT, NOT, NOTHING, NULL, OFFSET, ON, ONLY, OPTION, OR, ORDER, OUTER, PRIMARY,
    RECURSIVE, RIGHT, ROW, ROWS, SELECT, SET, TABLE, THEN, TOP, TRUE, UNION, UNIQUE, UPDATE,
    USE, USING, VALUES, WHEN, WHERE, WITH]

/-- The keyword in lower case, as a statement's letters are compared. -/
def word : Keyword → String
  | ALL => "all" | AND => "and" | AS => "as" | ASC => "asc" | BETWEEN => "between" | BY => "by"
  | CONFLICT => "conflict" | CREATE => "create" | CROSS => "cross" | DEFAULT => "default"
  | DELETE => "delete" | DESC => "desc" | DISTINCT => "distinct" | DO => "do" | DROP => "drop"
  | DUPLICATE => "duplicate" | EXISTS => "exists" | FALSE => "false" | FETCH => "fetch"
  | FIRST => "first" | FOR => "for" | FORCE => "force" | FROM => "from" | GROUP => "group"
  | HAVING => "having" | IF => "if" | IGNORE => "ignore" | IN => "in" | INDEX => "index"
  | INNER => "inner" | INSERT => "insert" | INTO => "into" | IS => "is" | JOIN => "join"
  | KEY => "key" | LEFT => "left" | LIKE => "like" | LIMIT => "limit"
  | MATERIALIZED => "materialized" | MATCHED => "matched" | MERGE => "merge" | NEXT => "next"
  | NOT => "not" | NOTHING => "nothing" | NULL => "null" | OFFSET => "offset" | ON => "on"
  | ONLY => "only" | OPTION => "option" | OR => "or" | ORDER => "order" | OUTER => "outer"
  | PRIMARY => "primary" | RECURSIVE => "recursive" | RIGHT => "right" | ROW => "row"
  | ROWS => "rows" | SELECT => "select" | SET => "set" | TABLE => "table" | THEN => "then"
  | TOP => "top" | TRUE => "true" | UNION => "union" | UNIQUE => "unique" | UPDATE => "update"
  | USE => "use" | USING => "using" | VALUES => "values" | WHEN => "when" | WHERE => "where"
  | WITH => "with"

/-- The keyword in upper case, as it is shown. -/
def text (keyword : Keyword) : String :=
  .ofList (keyword.word.toList.map Char.toUpper)

/-- The keyword that a lower case word is, if any. -/
def ofWord? (word : String) : Option Keyword :=
  all.find? fun keyword => keyword.word == word

/-- Whether the keyword can also be used as an identifier, such as a
column named `key`. -/
def isUnreserved : Keyword → Bool
  | CONFLICT | DO | DUPLICATE | FIRST | FORCE | IGNORE | INDEX | KEY | MATCHED | MATERIALIZED
  | MERGE | NEXT | NOTHING | ONLY | OPTION | RECURSIVE | ROW | ROWS | TOP | USE => true
  | _ => false

end Keyword

-- ============================================================= symbols

/-- The tokens that have one spelling and no content. -/
inductive Sign
  | question
  | period
  | equal
  | notEqual
  | greater
  | greaterEqual
  | less
  | lessEqual
  | plus
  | minus
  | asterisk
  | slash
  | percent
  | concat
  | openParen
  | closeParen
  | comma
  | semicolon
deriving DecidableEq

def Sign.text : Sign → String
  | question => "?"
  | period => "."
  | equal => "="
  | notEqual => "!="
  | greater => ">"
  | greaterEqual => ">="
  | less => "<"
  | lessEqual => "<="
  | plus => "+"
  | minus => "-"
  | asterisk => "*"
  | slash => "/"
  | percent => "%"
  | concat => "||"
  | openParen => "("
  | closeParen => ")"
  | comma => ","
  | semicolon => ";"

-- ============================================================== tokens

/-- A word of a statement. -/
inductive Token
  | number (text : String)
  /-- A string, with its quotes and escapes resolved. -/
  | string (text : String)
  /-- An identifier: quoted, or unquoted and put into lower case. -/
  | ident (name : String)
  | keyword (word : Keyword)
  /-- A named parameter, without the sign before its name. -/
  | parameter (name : String)
  | sign (mark : Sign)
deriving DecidableEq

def Token.text : Token → String
  | .number text => text
  | .string text => text
  | .ident name => name
  | .keyword word => word.text
  | .parameter name => "@" ++ name
  | .sign mark => mark.text

instance : Coe Keyword Token := ⟨.keyword⟩

instance : Coe Sign Token := ⟨.sign⟩

end DialectDb
