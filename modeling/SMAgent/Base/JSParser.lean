import SMAgent.Base.JSLexer

/-!
# Expressions and statements of JavaScript

A fragment of the language: arrow functions of one parameter, function declarations, calls,
member and index expressions, `!`, `+`, `===` and `!==`, object and template literals, constant
declarations, assignments to variables, `if` and `return`. The parser takes the lexemes of a text
and has the fuel for one round of each rule at every lexeme. What is not in the fragment is
refused.
-/

namespace SMAgent.Base.JavaScript
open GoString

/-! ### Tokens of the parser -/

/-- Reserved words and punctuators of the fragment. -/
inductive Key where
  | kwConst | kwIf | kwElse | kwReturn | kwFunction | kwTrue | kwFalse | kwNull
  | leftParen | rightParen | leftBrace | rightBrace | leftBracket | rightBracket
  | dot | comma | semicolon | colon | assign | arrow | plus | bang | equal | unequal
  deriving DecidableEq, Repr

/-- What the rules of the parser see of a lexeme. -/
inductive Tok where
  | ident (name : GoString)
  | number (n : Nat)
  | string (raw : GoString)
  | template (text : GoString)
  | key (k : Key)
  deriving DecidableEq, Repr

/-- A name as a token. -/
abbrev Tok.name (s : String) : Tok := .ident (lit s)

/-- The reserved words. -/
def keywords : List (GoString × Key) :=
  [(lit "const", .kwConst), (lit "if", .kwIf), (lit "else", .kwElse), (lit "return", .kwReturn),
    (lit "function", .kwFunction), (lit "true", .kwTrue), (lit "false", .kwFalse),
    (lit "null", .kwNull)]

/-- Reserved words that no rule of the fragment uses. -/
def otherWords : List GoString :=
  ["await", "break", "case", "catch", "class", "continue", "debugger", "default", "delete", "do",
    "enum", "export", "extends", "finally", "for", "import", "in", "instanceof", "let", "new",
    "static", "super", "switch", "this", "throw", "try", "typeof", "var", "void", "while", "with",
    "yield"].map lit

/-- The punctuators. -/
def punctuators : List (GoString × Key) :=
  [(lit "(", .leftParen), (lit ")", .rightParen), (lit "\x7b", .leftBrace),
    (lit "\x7d", .rightBrace), (lit "[", .leftBracket), (lit "]", .rightBracket), (lit ".", .dot),
    (lit ",", .comma), (lit ";", .semicolon), (lit ":", .colon), (lit "=", .assign),
    (lit "=>", .arrow), (lit "+", .plus), (lit "!", .bang), (lit "===", .equal),
    (lit "!==", .unequal)]

/-- A decimal digit. -/
def isDecimal (b : UInt8) : Bool := decide (byte '0' ≤ b ∧ b ≤ byte '9')

/-- A word: a reserved word, a decimal number or a name. -/
def wordTok (text : GoString) : Option Tok :=
  match keywords.lookup text with
  | some k => some (.key k)
  | none =>
    if text.head?.any isDecimal then
      if text.all isDecimal then some (.number (text.foldl (fun n b ↦ n * 10 + (b.toNat - 48)) 0))
      else none
    else if otherWords.contains text then none
    else some (.ident text)

/-- The token of a lexeme; `none` for one that no rule uses. -/
def Lexeme.tok : Lexeme → Option Tok
  | .word text => wordTok text
  | .punctuator text => (punctuators.lookup text).map .key
  | .string raw => some (.string raw)
  | .template text => some (.template text)

/-! ### Programs -/

mutual

/-- An expression. -/
inductive Expr where
  | ident (name : GoString)
  | number (n : Nat)
  | string (raw : GoString)
  | bool (b : Bool)
  | null
  /-- the text up to the first substitution, then each substitution and the text after it -/
  | template (first : GoString) (rest : List (Expr × GoString))
  | member (e : Expr) (name : GoString)
  | index (e i : Expr)
  | call (f : Expr) (args : List Expr)
  | not (e : Expr)
  | add (a b : Expr)
  | equal (a b : Expr)
  | unequal (a b : Expr)
  | arrow (param : GoString) (body : List Stmt)
  | object (props : List (GoString × Expr))

/-- A statement. -/
inductive Stmt where
  | expr (e : Expr)
  | const (name : GoString) (e : Expr)
  | assign (name : GoString) (e : Expr)
  | ret (e : Expr)
  | cond (c : Expr) (yes no : List Stmt)
  | function (name : GoString) (params : List GoString) (body : List Stmt)

end

/-- A name as an expression. -/
abbrev Expr.var (s : String) : Expr := .ident (lit s)

/-! ### The rules -/

/-- The parameters of a function, after the opening parenthesis. -/
def parseParams : List Tok → Option (List GoString × List Tok)
  | .key .rightParen :: ts => some ([], ts)
  | .ident x :: .key .comma :: ts => (parseParams ts).map fun (xs, ts) ↦ (x :: xs, ts)
  | .ident x :: .key .rightParen :: ts => some ([x], ts)
  | _ => none

/-- The text of a part of a template literal, without the back quotes, the braces and the
dollar sign around it; whether a substitution follows. -/
def templateText (text : GoString) : GoString × Bool :=
  if text.getLast? = some (byte '{') then (text.tail.dropLast.dropLast, true)
  else (text.tail.dropLast, false)

/-- What a rule returns: a phrase, and the tokens after it. -/
abbrev Parsed (α : Type) := Option (α × List Tok)

mutual

/-- An expression: an arrow function, a comparison or a sum. -/
def parseExpr : Nat → List Tok → Parsed Expr
  | 0, _ => none
  | n + 1, .ident x :: .key .arrow :: .key .leftBrace :: ts =>
    (parseBlock n ts).map fun (body, ts) ↦ (.arrow x body, ts)
  | n + 1, .ident x :: .key .arrow :: ts =>
    (parseExpr n ts).map fun (e, ts) ↦ (.arrow x [.ret e], ts)
  | n + 1, ts =>
    (parseSum n ts).bind fun
      | (a, .key .equal :: ts) => (parseSum n ts).map fun (b, ts) ↦ (.equal a b, ts)
      | (a, .key .unequal :: ts) => (parseSum n ts).map fun (b, ts) ↦ (.unequal a b, ts)
      | (a, ts) => some (a, ts)

/-- A sum. -/
def parseSum : Nat → List Tok → Parsed Expr
  | 0, _ => none
  | n + 1, ts => (parseUnary n ts).bind fun (a, ts) ↦ parseSumRest n a ts

/-- The rest of a sum: `+` associates to the left. -/
def parseSumRest : Nat → Expr → List Tok → Parsed Expr
  | n + 1, a, .key .plus :: ts => (parseUnary n ts).bind fun (b, ts) ↦ parseSumRest n (.add a b) ts
  | _, a, ts => some (a, ts)

/-- An operand. -/
def parseUnary : Nat → List Tok → Parsed Expr
  | 0, _ => none
  | n + 1, .key .bang :: ts => (parseUnary n ts).map fun (e, ts) ↦ (.not e, ts)
  | n + 1, ts => (parsePrimary n ts).bind fun (e, ts) ↦ parsePostfix n e ts

/-- Members, indices and calls after an expression. -/
def parsePostfix : Nat → Expr → List Tok → Parsed Expr
  | n + 1, e, .key .dot :: .ident x :: ts => parsePostfix n (.member e x) ts
  | n + 1, e, .key .leftBracket :: ts =>
    (parseExpr n ts).bind fun
      | (i, .key .rightBracket :: ts) => parsePostfix n (.index e i) ts
      | _ => none
  | n + 1, e, .key .leftParen :: .key .rightParen :: ts => parsePostfix n (.call e []) ts
  | n + 1, e, .key .leftParen :: ts =>
    (parseArgs n ts).bind fun (args, ts) ↦ parsePostfix n (.call e args) ts
  | _, e, ts => some (e, ts)

/-- One argument or more, up to the closing parenthesis. -/
def parseArgs : Nat → List Tok → Parsed (List Expr)
  | 0, _ => none
  | n + 1, ts =>
    (parseExpr n ts).bind fun
      | (e, .key .comma :: ts) => (parseArgs n ts).map fun (es, ts) ↦ (e :: es, ts)
      | (e, .key .rightParen :: ts) => some ([e], ts)
      | _ => none

/-- A name, a literal or an expression in parentheses. -/
def parsePrimary : Nat → List Tok → Parsed Expr
  | _, .ident x :: ts => some (.ident x, ts)
  | _, .number k :: ts => some (.number k, ts)
  | _, .string raw :: ts => some (.string raw, ts)
  | _, .key .kwTrue :: ts => some (.bool true, ts)
  | _, .key .kwFalse :: ts => some (.bool false, ts)
  | _, .key .kwNull :: ts => some (.null, ts)
  | n + 1, .template text :: ts =>
    match templateText text with
    | (first, false) => some (.template first [], ts)
    | (first, true) => (parseTemplate n ts).map fun (rest, ts) ↦ (.template first rest, ts)
  | n + 1, .key .leftParen :: ts =>
    (parseExpr n ts).bind fun
      | (e, .key .rightParen :: ts) => some (e, ts)
      | _ => none
  | n + 1, .key .leftBrace :: ts => (parseProps n ts).map fun (props, ts) ↦ (.object props, ts)
  | _, _ => none

/-- The substitutions of a template literal. -/
def parseTemplate : Nat → List Tok → Parsed (List (Expr × GoString))
  | 0, _ => none
  | n + 1, ts =>
    (parseExpr n ts).bind fun
      | (e, .template text :: ts) =>
        match templateText text with
        | (next, false) => some ([(e, next)], ts)
        | (next, true) => (parseTemplate n ts).map fun (rest, ts) ↦ ((e, next) :: rest, ts)
      | _ => none

/-- The properties of an object literal, after the opening brace. -/
def parseProps : Nat → List Tok → Parsed (List (GoString × Expr))
  | n + 1, .string key :: .key .colon :: ts =>
    (parseExpr n ts).bind fun
      | (e, .key .comma :: ts) => (parseProps n ts).map fun (props, ts) ↦ ((key, e) :: props, ts)
      | (e, .key .rightBrace :: ts) => some ([(key, e)], ts)
      | _ => none
  | _, .key .rightBrace :: ts => some ([], ts)
  | _, _ => none

/-- Statements up to the closing brace. -/
def parseBlock : Nat → List Tok → Parsed (List Stmt)
  | _, .key .rightBrace :: ts => some ([], ts)
  | n + 1, .key .semicolon :: ts => parseBlock n ts
  | n + 1, ts =>
    (parseStmt n ts).bind fun (s, ts) ↦ (parseBlock n ts).map fun (body, ts) ↦ (s :: body, ts)
  | 0, _ => none

/-- A statement that ends in a semicolon, or before a closing brace or the end. -/
def parseEnd (s : Stmt) : List Tok → Parsed Stmt
  | .key .semicolon :: ts => some (s, ts)
  | .key .rightBrace :: ts => some (s, .key .rightBrace :: ts)
  | [] => some (s, [])
  | _ => none

/-- A statement. -/
def parseStmt : Nat → List Tok → Parsed Stmt
  | 0, _ => none
  | n + 1, .key .kwConst :: .ident x :: .key .assign :: ts =>
    (parseExpr n ts).bind fun (e, ts) ↦ parseEnd (.const x e) ts
  | n + 1, .ident x :: .key .assign :: ts =>
    (parseExpr n ts).bind fun (e, ts) ↦ parseEnd (.assign x e) ts
  | n + 1, .key .kwReturn :: ts => (parseExpr n ts).bind fun (e, ts) ↦ parseEnd (.ret e) ts
  | n + 1, .key .kwIf :: .key .leftParen :: ts =>
    (parseExpr n ts).bind fun
      | (c, .key .rightParen :: .key .leftBrace :: ts) =>
        (parseBlock n ts).bind fun (yes, ts) ↦
          (parseElse n ts).map fun (no, ts) ↦ (.cond c yes no, ts)
      | _ => none
  | n + 1, .key .kwFunction :: .ident f :: .key .leftParen :: ts =>
    (parseParams ts).bind fun
      | (params, .key .leftBrace :: ts) =>
        (parseBlock n ts).map fun (body, ts) ↦ (.function f params body, ts)
      | _ => none
  | n + 1, ts => (parseExpr n ts).bind fun (e, ts) ↦ parseEnd (.expr e) ts

/-- What follows the first block of an `if`. -/
def parseElse : Nat → List Tok → Parsed (List Stmt)
  | n + 1, .key .kwElse :: .key .leftBrace :: ts => parseBlock n ts
  | n + 1, .key .kwElse :: ts => (parseStmt n ts).map fun (s, ts) ↦ ([s], ts)
  | _, ts => some ([], ts)

end

/-- Statements up to the end. -/
def parseStmts : Nat → List Tok → Option (List Stmt)
  | _, [] => some []
  | n + 1, .key .semicolon :: ts => parseStmts n ts
  | n + 1, ts => (parseStmt n ts).bind fun (s, ts) ↦ (parseStmts n ts).map (s :: ·)
  | 0, _ => none

/-- Enough fuel for these tokens: a rule takes a token or is one of a few in a row. -/
def fuelFor (ts : List Tok) : Nat := 8 * ts.length + 8

/-- The tokens of a text. -/
def toks (text : GoString) : Option (List Tok) := (lexemes text).bind (·.mapM Lexeme.tok)

/-- The expression that a text is. -/
def parseExpression (text : GoString) : Option Expr :=
  (toks text).bind fun ts ↦
    match parseExpr (fuelFor ts) ts with
    | some (e, []) => some e
    | _ => none

/-- The statements that a text is. -/
def parseProgram (text : GoString) : Option (List Stmt) :=
  (toks text).bind fun ts ↦ parseStmts (fuelFor ts) ts

end SMAgent.Base.JavaScript
