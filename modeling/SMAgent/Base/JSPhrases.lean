import SMAgent.Base.JSParser

/-!
# Rules for the parser of JavaScript

What the parser returns for a phrase, from what it returns for the phrases inside it. A phrase of
fixed tokens is parsed by evaluation; the rules are for phrases in which tokens are not known.
-/

namespace SMAgent.Base.JavaScript

section
variable {n : Nat} {ts us rest : List Tok} {e : Expr} {x : GoString}

/-! ### Expressions -/

/-- Where an expression may end. -/
def EndsExpr (rest : List Tok) : Prop :=
  ∃ k ts, rest = .key k :: ts ∧ (k = .rightParen ∨ k = .rightBrace ∨ k = .comma ∨ k = .semicolon)

/-- An arrow function with an expression. -/
theorem parseExpr_arrow (hts : ∀ us, ts ≠ .key .leftBrace :: us)
    (h : parseExpr n ts = some (e, rest)) :
    parseExpr (n + 1) (.ident x :: .key .arrow :: ts) = some (.arrow x [.ret e], rest) := by
  rw [parseExpr, h]
  · rfl
  · exact fun us heq ↦ hts us heq

/-- An arrow function with a block. -/
theorem parseExpr_arrow_block {body : List Stmt} (h : parseBlock n ts = some (body, rest)) :
    parseExpr (n + 1) (.ident x :: .key .arrow :: .key .leftBrace :: ts) =
      some (.arrow x body, rest) := by
  rw [parseExpr, h]
  rfl

/-- An operand that is a whole expression. -/
theorem parseExpr_of_parseUnary (hts : ∀ x us, ts ≠ .ident x :: .key .arrow :: us)
    (hrest : EndsExpr rest) (h : parseUnary n ts = some (e, rest)) :
    parseExpr (n + 2) ts = some (e, rest) := by
  obtain ⟨k, us, rfl, hk⟩ := hrest
  have hsum : parseSum (n + 1) ts = some (e, .key k :: us) := by
    rw [parseSum, h, Option.bind_some]
    rcases hk with rfl | rfl | rfl | rfl <;> cases n <;> rfl
  rw [parseExpr]
  · rw [hsum]
    rcases hk with rfl | rfl | rfl | rfl <;> rfl
  · exact fun x us heq ↦ hts x _ heq
  · exact fun x us heq ↦ hts x us heq

/-- A negation. -/
theorem parseUnary_not (h : parseUnary n ts = some (e, rest)) :
    parseUnary (n + 1) (.key .bang :: ts) = some (.not e, rest) := by
  rw [parseUnary, h]
  rfl

private theorem parsePostfix_end (hrest : EndsExpr rest) :
    parsePostfix n e rest = some (e, rest) := by
  obtain ⟨k, us, rfl, hk⟩ := hrest
  rcases hk with rfl | rfl | rfl | rfl <;> cases n <;> rfl

/-! ### Arguments and properties -/

/-- A call. -/
theorem parsePostfix_call {args : List Expr} (hts : ∀ us, ts ≠ .key .rightParen :: us)
    (h : parseArgs n ts = some (args, us)) (hus : EndsExpr us) :
    parsePostfix (n + 1) e (.key .leftParen :: ts) = some (.call e args, us) := by
  rw [parsePostfix, h, Option.bind_some]
  · exact parsePostfix_end hus
  · exact fun us heq ↦ hts us heq

/-- The last argument. -/
theorem parseArgs_last (h : parseExpr n ts = some (e, .key .rightParen :: rest)) :
    parseArgs (n + 1) ts = some ([e], rest) := by
  rw [parseArgs, h]
  rfl

/-- One more argument. -/
theorem parseArgs_cons {args : List Expr} (h : parseExpr n ts = some (e, .key .comma :: us))
    (hus : parseArgs n us = some (args, rest)) : parseArgs (n + 1) ts = some (e :: args, rest) := by
  rw [parseArgs, h, Option.bind_some]
  show (parseArgs n us).map _ = _
  rw [hus]
  rfl

/-- The last property of an object. -/
theorem parseProps_last {key : GoString} (h : parseExpr n ts = some (e, .key .rightBrace :: rest)) :
    parseProps (n + 1) (.string key :: .key .colon :: ts) = some ([(key, e)], rest) := by
  rw [parseProps, h]
  rfl

/-- An object literal that is a whole expression. -/
theorem parseExpr_object {props : List (GoString × Expr)} (hrest : EndsExpr rest)
    (h : parseProps n ts = some (props, rest)) :
    parseExpr (n + 4) (.key .leftBrace :: ts) = some (.object props, rest) := by
  apply parseExpr_of_parseUnary (fun _ _ heq ↦ by cases heq) hrest
  show ((parseProps n ts).map _).bind _ = _
  rw [h]
  exact parsePostfix_end hrest

/-! ### Statements -/

/-- A return. -/
theorem parseStmt_ret (h : parseExpr n ts = some (e, .key .semicolon :: rest)) :
    parseStmt (n + 1) (.key .kwReturn :: ts) = some (.ret e, rest) := by
  rw [parseStmt, h]
  rfl

/-- An assignment. -/
theorem parseStmt_assign (h : parseExpr n ts = some (e, .key .semicolon :: rest)) :
    parseStmt (n + 1) (.ident x :: .key .assign :: ts) = some (.assign x e, rest) := by
  rw [parseStmt, h]
  rfl

/-- A statement of a block that begins with a word. -/
theorem parseBlock_cons {s : Stmt} {body : List Stmt} (hts : ∀ us, ts ≠ .key .rightBrace :: us)
    (hts' : ∀ us, ts ≠ .key .semicolon :: us) (h : parseStmt n ts = some (s, us))
    (hus : parseBlock n us = some (body, rest)) :
    parseBlock (n + 1) ts = some (s :: body, rest) := by
  rw [parseBlock, h, Option.bind_some]
  · show (parseBlock n us).map _ = _
    rw [hus]
    rfl
  · exact fun us heq ↦ hts us heq
  · exact fun us heq ↦ hts' us heq

/-- A statement that begins with a name, and the statements after it. -/
theorem parseStmts_cons {s : Stmt} (h : parseStmt n (.ident x :: ts) = some (s, rest)) :
    parseStmts (n + 1) (.ident x :: ts) = (parseStmts n rest).map (s :: ·) := by
  rw [parseStmts, h, Option.bind_some]
  · exact fun h ↦ by cases h
  · exact fun _ h ↦ by cases h

end
end SMAgent.Base.JavaScript
