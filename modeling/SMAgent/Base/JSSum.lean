import SMAgent.Base.JSRules

/-!
# Sums of JavaScript scalars

The operator `+` associates to the left, adds numbers and concatenates as soon as one side is a
string. So a sum of several operands is the concatenation of their texts from the first string
on; the operands before it are added as numbers.
-/

namespace SMAgent.Base.JavaScript
open GoString

/-! ### Scalars -/

/-- A string, a number or a boolean. -/
inductive Scalar (Num : Type) where
  | string (s : JSString)
  | number (n : Num)
  | bool (b : Bool)

namespace Scalar

/-- The scalar as a value. -/
def value {Num : Type} : Scalar Num → Value Num
  | .string s => .string s
  | .number n => .number n
  | .bool b => .bool b

variable (E : Engine)

/-- The string form. -/
def text : Scalar E.Num → JSString
  | .string s => s
  | .number n => E.text n
  | .bool b => utf16 (lit (if b then "true" else "false"))

/-- The number that `+` takes the scalar for, unless it is a string. -/
def numeric : Scalar E.Num → Option E.Num
  | .string _ => none
  | .number n => some n
  | .bool b => some (E.ofNat b.toNat)

/-- The operator `+`. -/
def add (a b : Scalar E.Num) : Scalar E.Num :=
  match a.numeric E, b.numeric E with
  | some m, some n => .number (E.add m n)
  | _, _ => .string (a.text E ++ b.text E)

/-- A scalar as a text. -/
theorem toText_value (a : Scalar E.Num) : toText E a.value = .ok (a.text E) := by
  cases a <;> rfl

private theorem plus_value (a b : Scalar E.Num) :
    plus E a.value b.value = .ok (add E a b).value := by
  cases a <;> cases b <;> rfl

/-- The texts one after the other. -/
def concat (vs : List (Scalar E.Num)) : JSString := vs.flatMap (text E)

/-- The text of the sum, which is empty if there is no operand. -/
def sumText : List (Scalar E.Num) → JSString
  | [] => []
  | v :: vs => (vs.foldl (add E) v).text E

/-- After a string everything is appended as a text. -/
theorem foldl_add_string (s : JSString) (vs : List (Scalar E.Num)) :
    vs.foldl (add E) (.string s) = .string (s ++ concat E vs) := by
  induction vs generalizing s with
  | nil => rw [List.foldl_nil, concat, List.flatMap_nil, List.append_nil]
  | cons v vs ih =>
    rw [List.foldl_cons, concat, List.flatMap_cons, ← List.append_assoc]
    exact ih (s ++ v.text E)

/-- From a string on, a sum is a concatenation. -/
theorem sumText_append_string (ns : List (Scalar E.Num)) (s : JSString)
    (vs : List (Scalar E.Num)) :
    sumText E (ns ++ .string s :: vs) = sumText E ns ++ concat E (.string s :: vs) := by
  cases ns with
  | nil =>
    show (vs.foldl (add E) (.string s)).text E = concat E (.string s :: vs)
    rw [foldl_add_string]
    rfl
  | cons v ns =>
    have hadd (a : Scalar E.Num) : add E a (.string s) = .string (a.text E ++ s) := by
      cases a <;> rfl
    rw [List.cons_append, sumText, List.foldl_append, List.foldl_cons, hadd, foldl_add_string]
    show _ ++ s ++ concat E vs = _ ++ (s ++ concat E vs)
    exact List.append_assoc _ _ _

/-- Whether a sum is a concatenation is decided by the operands before the first string. -/
theorem sumText_eq_concat_iff (vs : List (Scalar E.Num)) :
    sumText E vs = concat E vs ↔
      sumText E (vs.takeWhile fun v ↦ (v.numeric E).isSome) =
        concat E (vs.takeWhile fun v ↦ (v.numeric E).isSome) := by
  have hsplit := (List.takeWhile_append_dropWhile (p := fun v : Scalar E.Num ↦ (v.numeric E).isSome)
    (l := vs)).symm
  generalize vs.takeWhile _ = ns at hsplit ⊢
  cases hrest : vs.dropWhile fun v ↦ (v.numeric E).isSome with
  | nil =>
    rw [hrest, List.append_nil] at hsplit
    rw [hsplit]
  | cons v rest =>
    have hhead : ¬ (v.numeric E).isSome := by
      have := List.head_dropWhile_not (fun v : Scalar E.Num ↦ (v.numeric E).isSome)
        (l := vs) (by simp [hrest])
      simpa only [hrest, List.head_cons, Bool.not_eq_true] using this
    cases v with
    | string s =>
      rw [hrest] at hsplit
      rw [hsplit, sumText_append_string]
      simp only [concat, List.flatMap_append]
      exact List.append_left_inj _
    | number n => exact absurd rfl hhead
    | bool b => exact absurd rfl hhead

end Scalar

/-! ### Sums as programs -/

/-- An operand of a sum: its text, its tokens, the expression that it is and its value. -/
structure Operand (Num : Type) where
  source : GoString
  toks : List Tok
  expr : Expr
  value : Scalar Num

/-- Where an operand may end: before a `+`, or at the end. -/
def EndsOperand (rest : List Tok) : Prop := rest = [] ∨ ∃ ts, rest = .key .plus :: ts

namespace Operand
variable {E : Engine}

/-- The parts of an operand belong together. -/
structure Means (E : Engine) (env : Env E.Num) (o : Operand E.Num) : Prop where
  scans : scan [] o.source = some (o.toks, [])
  scansAfterPlus : scan (lit "+") o.source = some (.key .plus :: o.toks, [])
  parses : ∀ n rest, EndsOperand rest → parseUnary (n + 6) (o.toks ++ rest) = some (o.expr, rest)
  /-- the operand is not the parameter of an arrow function -/
  head : ∀ rest x ts, EndsOperand rest → o.toks ++ rest ≠ .ident x :: .key .arrow :: ts
  yields : Yields E env o.expr (.ok o.value.value)

/-- Operands with `+` between them. -/
def joined : List (Operand E.Num) → GoString
  | [] => []
  | o :: os => o.source ++ os.flatMap fun o ↦ byte '+' :: o.source

variable {os : List (Operand E.Num)}

/-- The source of two sums, joined. -/
theorem joined_append (hos : os ≠ []) (o : Operand E.Num) (ps : List (Operand E.Num)) :
    joined (os ++ o :: ps) = joined os ++ byte '+' :: joined (o :: ps) := by
  cases os with
  | nil => exact absurd rfl hos
  | cons o' os => simp only [List.cons_append, joined, List.flatMap_append, List.flatMap_cons,
      List.append_assoc]

/-- The tokens after the first operand. -/
def restToks (os : List (Operand E.Num)) : List Tok := os.flatMap fun o ↦ .key .plus :: o.toks

/-- The sum that the operands are added to. -/
def sumExpr (e : Expr) (os : List (Operand E.Num)) : Expr := os.foldl (fun e o ↦ .add e o.expr) e

private theorem endsOperand_restToks (os : List (Operand E.Num)) : EndsOperand (restToks os) := by
  cases os with
  | nil => exact .inl rfl
  | cons o os => exact .inr ⟨_, rfl⟩

private theorem length_le_restToks (os : List (Operand E.Num)) :
    os.length ≤ (restToks os).length := by
  induction os with
  | nil => exact Nat.le_refl 0
  | cons o os ih =>
    simp only [restToks, List.flatMap_cons, List.length_cons, List.length_append] at ih ⊢
    omega

variable {env : Env E.Num}

private theorem scan_rest (h : ∀ o ∈ os, o.Means E env) :
    scan [] (os.flatMap fun o ↦ byte '+' :: o.source) = some (restToks os, []) := by
  induction os with
  | nil => rfl
  | cons o os ih =>
    have hplus : scan [] [byte '+'] = some ([], lit "+") := by decide
    have hfirst := scan_append hplus (h o List.mem_cons_self).scansAfterPlus
    exact scan_append hfirst (ih fun o' ho' ↦ h o' (List.mem_cons_of_mem _ ho'))

private theorem parseSumRest_rest (h : ∀ o ∈ os, o.Means E env) (e : Expr) (n : Nat) :
    parseSumRest (n + os.length + 6) e (restToks os) = some (sumExpr e os, []) := by
  induction os generalizing e n with
  | nil => rfl
  | cons o os ih =>
    have hparse := (h o List.mem_cons_self).parses (n + os.length) _ (endsOperand_restToks os)
    show (parseUnary (n + os.length + 6) (o.toks ++ restToks os)).bind _ = _
    rw [hparse]
    exact ih (fun o' ho' ↦ h o' (List.mem_cons_of_mem _ ho')) (.add e o.expr) n

private theorem parseExpr_of_parseSum {n : Nat} {ts : List Tok} {e : Expr}
    (hhead : ∀ x us, ts ≠ .ident x :: .key .arrow :: us) (h : parseSum n ts = some (e, [])) :
    parseExpr (n + 1) ts = some (e, []) := by
  rw [parseExpr]
  · rw [h]
    rfl
  · intro x us heq
    exact hhead x _ heq
  · intro x us heq
    exact hhead x us heq

/-- The text of a sum is that sum. -/
theorem parseExpression_joined {o : Operand E.Num} (h : ∀ o' ∈ o :: os, o'.Means E env) :
    parseExpression (joined (o :: os)) = some (sumExpr o.expr os) := by
  have ho := h o List.mem_cons_self
  have hos : ∀ o' ∈ os, o'.Means E env := fun o' ho' ↦ h o' (List.mem_cons_of_mem _ ho')
  have htoks : JavaScript.toks (joined (o :: os)) = some (o.toks ++ restToks os) :=
    toks_of_scan (scan_append ho.scans (scan_rest hos))
  -- the fuel is enough for every operand
  obtain ⟨n, hn⟩ : ∃ n, fuelFor (o.toks ++ restToks os) = n + os.length + 6 + 1 + 1 := by
    have hle := length_le_restToks os
    rw [fuelFor, List.length_append]
    exact ⟨8 * (o.toks.length + (restToks os).length) - os.length, by omega⟩
  have hends := endsOperand_restToks os
  have hsum : parseSum (n + os.length + 6 + 1) (o.toks ++ restToks os)
      = some (sumExpr o.expr os, []) := by
    rw [parseSum, ho.parses (n + os.length) _ hends]
    exact parseSumRest_rest hos o.expr n
  have hexpr := parseExpr_of_parseSum (fun x us ↦ ho.head _ x us hends) hsum
  rw [parseExpression, htoks, Option.bind_some, hn, hexpr]

/-- The value of a sum is the sum of the values. -/
theorem yields_sumExpr {e : Expr} {v : Scalar E.Num} (he : Yields E env e (.ok v.value))
    (h : ∀ o ∈ os, o.Means E env) :
    Yields E env (sumExpr e os) (.ok ((os.map value).foldl (Scalar.add E) v).value) := by
  induction os generalizing e v with
  | nil => exact he
  | cons o os ih =>
    have hadd := he.add (h o List.mem_cons_self).yields
    rw [Scalar.plus_value] at hadd
    exact ih hadd fun o' ho' ↦ h o' (List.mem_cons_of_mem _ ho')

end Operand
end SMAgent.Base.JavaScript
