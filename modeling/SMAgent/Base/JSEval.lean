import SMAgent.Base.JSParser

/-!
# Evaluation of JavaScript

What the expressions and statements of the fragment mean. Scoping is lexical: a closure has the
bindings around it. An assignment is a statement that rebinds a variable, and a closure keeps the
bindings it was made with; this is JavaScript as long as no closure reads a variable that is
assigned after the closure is made. Numbers, the lower case of strings and the functions of the
host are parameters. A value for which an operation is not modelled is refused with
`Error.unsupported`, which no program of JavaScript throws.
-/

namespace SMAgent.Base.JavaScript
open GoString

/-- The numbers of JavaScript, with what is used of them. -/
structure Numbers where
  Num : Type
  ofNat : Nat → Num
  add : Num → Num → Num
  text : Num → JSString
  index : Num → Option Nat
  equal : Num → Num → Bool
  truthy : Num → Bool
  index_ofNat : ∀ n, n < 2 ^ 32 - 1 → index (ofNat n) = some n
  equal_zero : ∀ n, equal (ofNat n) (ofNat 0) = decide (n = 0)
  add_zero : add (ofNat 0) (ofNat 0) = ofNat 0
  text_zero : text (ofNat 0) = utf16 (lit "0")

/-- The natural numbers with these operations. -/
def Numbers.nat : Numbers where
  Num := Nat
  ofNat n := n
  add := Nat.add
  text n := (Nat.toDigits 10 n).map fun c ↦ c.toNat.toUInt16
  index := some
  equal m n := m == n
  truthy n := n != 0
  index_ofNat _ _ := rfl
  equal_zero n := by cases n <;> rfl
  add_zero := rfl
  text_zero := by decide

/-- A value. -/
inductive Value (Num : Type) where
  | undefined
  | null
  | bool (b : Bool)
  | number (n : Num)
  | string (s : JSString)
  | array (items : List (Value Num))
  | object (props : List (JSString × Value Num))
  | closure (env : List (GoString × Value Num)) (params : List GoString) (body : List Stmt)
  /-- a function of the host -/
  | native (name : GoString)

/-- The bindings in scope, the innermost first. -/
abbrev Env (Num : Type) := List (GoString × Value Num)

/-- Why an evaluation has no value. -/
inductive Error where
  | reference (name : GoString)
  | type
  | unsupported
  | fuel
  deriving DecidableEq, Repr

/-- What runs the programs. -/
structure Engine extends Numbers where
  lower : JSString → JSString
  native : GoString → List (Value Num) → Except Error (Value Num)

section Operations
variable (E : Engine)

/-- `ToBoolean`. -/
def truthy : Value E.Num → Bool
  | .undefined | .null => false
  | .bool b => b
  | .number n => E.truthy n
  | .string s => !s.isEmpty
  | .array _ | .object _ | .closure _ _ _ | .native _ => true

/-- `ToString`, of primitive values. -/
def toText : Value E.Num → Except Error JSString
  | .undefined => .ok (utf16 (lit "undefined"))
  | .null => .ok (utf16 (lit "null"))
  | .bool b => .ok (utf16 (lit (if b then "true" else "false")))
  | .number n => .ok (E.text n)
  | .string s => .ok s
  | .array _ | .object _ | .closure _ _ _ | .native _ => .error .unsupported

/-- `ToNumber`, of numbers and booleans. -/
def toNumber : Value E.Num → Except Error E.Num
  | .number n => .ok n
  | .bool b => .ok (E.ofNat b.toNat)
  | _ => .error .unsupported

/-- A string. -/
def isText : Value E.Num → Bool
  | .string _ => true
  | _ => false

/-- The operator `+`: strings are concatenated, numbers are added. -/
def plus (a b : Value E.Num) : Except Error (Value E.Num) :=
  if isText E a || isText E b then
    (toText E a).bind fun s ↦ (toText E b).map fun t ↦ .string (s ++ t)
  else (toNumber E a).bind fun m ↦ (toNumber E b).map fun n ↦ .number (E.add m n)

/-- The operator `===`, of primitive values. -/
def strictEqual : Value E.Num → Value E.Num → Except Error Bool
  | .undefined, .undefined | .null, .null => .ok true
  | .bool a, .bool b => .ok (a == b)
  | .number m, .number n => .ok (E.equal m n)
  | .string s, .string t => .ok (s == t)
  | .array _, .array _ | .object _, .object _ | .closure _ _ _, .closure _ _ _
  | .native _, .native _ => .error .unsupported
  | _, _ => .ok false

/-- The value of a variable. -/
def lookupVar (env : Env E.Num) (x : GoString) : Except Error (Value E.Num) :=
  match env.lookup x with
  | some v => .ok v
  | none => .error (.reference x)

/-- A variable gets another value where it is bound. -/
def rebind (x : GoString) (v : Value E.Num) : Env E.Num → Except Error (Env E.Num)
  | [] => .error (.reference x)
  | (y, w) :: env =>
    if y = x then .ok ((y, v) :: env) else (rebind x v env).map ((y, w) :: ·)

/-- The parameters of a call. -/
def bindParams : List GoString → List (Value E.Num) → Env E.Num
  | [], _ => []
  | p :: ps, [] => (p, .undefined) :: bindParams ps []
  | p :: ps, v :: vs => (p, v) :: bindParams ps vs

/-- The value of a literal. -/
def literalOf (raw : GoString) : Except Error (Value E.Num) :=
  match literalValue raw with
  | some s => .ok (.string s)
  | none => .error .unsupported

/-- A property. -/
def getMember (v : Value E.Num) (x : GoString) : Except Error (Value E.Num) :=
  match v with
  | .object props => .ok ((props.lookup x.utf16).getD .undefined)
  | .array items =>
    if x = lit "length" then .ok (.number (E.ofNat items.length)) else .error .unsupported
  | .string s => if x = lit "length" then .ok (.number (E.ofNat s.length)) else .error .unsupported
  | .undefined | .null => .error .type
  | _ => .error .unsupported

/-- An element, or a property whose name is computed. -/
def getIndex (v i : Value E.Num) : Except Error (Value E.Num) :=
  match v, i with
  | .array items, .number n =>
    match E.index n with
    | some k => .ok (items.getD k .undefined)
    | none => .error .unsupported
  | .object props, .string x => .ok ((props.lookup x).getD .undefined)
  | .undefined, _ | .null, _ => .error .type
  | _, _ => .error .unsupported

end Operations

/-! ### Methods of strings -/

/-- `GetSubstitution` without captures: `$$`, `$&`, and `$` with a back quote or an apostrophe. -/
def expandTemplate (before matched after : JSString) : JSString → JSString
  | [] => []
  | 0x24 :: 0x24 :: rest => 0x24 :: expandTemplate before matched after rest
  | 0x24 :: 0x26 :: rest => matched ++ expandTemplate before matched after rest
  | 0x24 :: 0x60 :: rest => before ++ expandTemplate before matched after rest
  | 0x24 :: 0x27 :: rest => after ++ expandTemplate before matched after rest
  | u :: rest => u :: expandTemplate before matched after rest

/-- The occurrences of a pattern that is not empty, from left to right; `skip` code units belong
to the occurrence before. -/
def replaceOccurrences (pattern template : JSString) : Nat → JSString → JSString → JSString
  | _, _, [] => []
  | skip + 1, before, u :: rest => replaceOccurrences pattern template skip (before ++ [u]) rest
  | 0, before, u :: rest =>
    if pattern.isPrefixOf (u :: rest) then
      expandTemplate before pattern ((u :: rest).drop pattern.length) template ++
        replaceOccurrences pattern template (pattern.length - 1) (before ++ [u]) rest
    else u :: replaceOccurrences pattern template 0 (before ++ [u]) rest

/-- `String.prototype.replaceAll`, for strings of which the first is not empty. -/
def replaceAll (s pattern template : JSString) : JSString :=
  replaceOccurrences pattern template 0 [] s

section Methods
variable (E : Engine)

/-- A method of a string. -/
def stringMethod (s : JSString) (x : GoString) (args : List (Value E.Num)) :
    Except Error (Value E.Num) :=
  match args with
  | [] =>
    if x = lit "toLowerCase" then .ok (.string (E.lower s))
    else if x = lit "toString" then .ok (.string s)
    else .error .unsupported
  | [.string t] =>
    if x = lit "includes" then .ok (.bool (decide (t <:+: s)))
    else if x = lit "startsWith" then .ok (.bool (t.isPrefixOf s))
    else if x = lit "endsWith" then .ok (.bool (t.isSuffixOf s))
    else .error .unsupported
  | [.string t, .string u] =>
    if x = lit "replaceAll" ∧ t ≠ [] then .ok (.string (replaceAll s t u))
    else .error .unsupported
  | _ => .error .unsupported

variable (call : Value E.Num → Except Error (Value E.Num))

/-- The first element for which the callback is truthy. -/
def findItem : List (Value E.Num) → Except Error (Value E.Num)
  | [] => .ok .undefined
  | v :: vs => (call v).bind fun r ↦ if truthy E r then .ok v else findItem vs

/-- Whether the callback is truthy for an element. -/
def someItem : List (Value E.Num) → Except Error Bool
  | [] => .ok false
  | v :: vs => (call v).bind fun r ↦ if truthy E r then .ok true else someItem vs

/-- The elements for which the callback is truthy. -/
def filterItems : List (Value E.Num) → Except Error (List (Value E.Num))
  | [] => .ok []
  | v :: vs => (call v).bind fun r ↦
      (filterItems vs).map fun ws ↦ if truthy E r then v :: ws else ws

/-- What the callback returns for the elements. -/
def mapItems : List (Value E.Num) → Except Error (List (Value E.Num))
  | [] => .ok []
  | v :: vs => (call v).bind fun r ↦ (mapItems vs).map (r :: ·)

/-- A method of an array that takes a callback. -/
def arrayMethod (items : List (Value E.Num)) (x : GoString) : Except Error (Value E.Num) :=
  if x = lit "find" then findItem E call items
  else if x = lit "some" then (someItem E call items).map .bool
  else if x = lit "filter" then (filterItems E call items).map .array
  else if x = lit "map" then (mapItems E call items).map .array
  else if x = lit "forEach" then (mapItems E call items).map fun _ ↦ .undefined
  else .error .unsupported

end Methods

/-- `Object.entries`. -/
def entries {Num : Type} (props : List (JSString × Value Num)) : Value Num :=
  .array (props.map fun (k, v) ↦ .array [.string k, v])

/-! ### Evaluation -/

section Evaluation
variable (E : Engine)

mutual

/-- The value of an expression. -/
def eval : Nat → Env E.Num → Expr → Except Error (Value E.Num)
  | 0, _, _ => .error .fuel
  | _ + 1, env, .ident x => lookupVar E env x
  | _ + 1, _, .number k => .ok (.number (E.ofNat k))
  | _ + 1, _, .string raw => literalOf E raw
  | _ + 1, _, .bool b => .ok (.bool b)
  | _ + 1, _, .null => .ok .null
  | n + 1, env, .template first rest => evalTemplate n env first rest
  | n + 1, env, .member e x => (eval n env e).bind fun v ↦ getMember E v x
  | n + 1, env, .index e i => (eval n env e).bind fun v ↦ (eval n env i).bind (getIndex E v)
  | n + 1, env, .call (.member e x) args =>
    (eval n env e).bind fun v ↦ (evalArgs n env args).bind fun vs ↦ invoke n v x vs
  | n + 1, env, .call f args =>
    (eval n env f).bind fun v ↦ (evalArgs n env args).bind fun vs ↦ apply n v vs
  | n + 1, env, .not e => (eval n env e).map fun v ↦ .bool (!truthy E v)
  | n + 1, env, .add a b => (eval n env a).bind fun v ↦ (eval n env b).bind (plus E v)
  | n + 1, env, .equal a b =>
    (eval n env a).bind fun v ↦ (eval n env b).bind fun w ↦ (strictEqual E v w).map .bool
  | n + 1, env, .unequal a b =>
    (eval n env a).bind fun v ↦ (eval n env b).bind fun w ↦
      (strictEqual E v w).map fun r ↦ .bool (!r)
  | _ + 1, env, .arrow x body => .ok (.closure env [x] body)
  | n + 1, env, .object props => (evalProps n env props).map .object

/-- The text of a template literal. -/
def evalTemplate : Nat → Env E.Num → GoString → List (Expr × GoString) →
    Except Error (Value E.Num)
  | 0, _, _, _ => .error .fuel
  | _ + 1, _, first, [] => literalOf E first
  | n + 1, env, first, (e, next) :: rest =>
    (literalOf E first).bind fun s ↦ (eval n env e).bind fun v ↦ (toText E v).bind fun t ↦
      (evalTemplate n env next rest).bind fun u ↦ (plus E s (.string t)).bind (plus E · u)

/-- The values of arguments. -/
def evalArgs : Nat → Env E.Num → List Expr → Except Error (List (Value E.Num))
  | 0, _, _ => .error .fuel
  | _ + 1, _, [] => .ok []
  | n + 1, env, e :: es => (eval n env e).bind fun v ↦ (evalArgs n env es).map (v :: ·)

/-- The properties of an object literal. -/
def evalProps : Nat → Env E.Num → List (GoString × Expr) →
    Except Error (List (JSString × Value E.Num))
  | 0, _, _ => .error .fuel
  | _ + 1, _, [] => .ok []
  | n + 1, env, (key, e) :: props =>
    match literalValue key with
    | some k => (eval n env e).bind fun v ↦ (evalProps n env props).map ((k, v) :: ·)
    | none => .error .unsupported

/-- A method call. -/
def invoke : Nat → Value E.Num → GoString → List (Value E.Num) → Except Error (Value E.Num)
  | _, .string s, x, vs => stringMethod E s x vs
  | _, .number k, x, [] => if x = lit "toString" then .ok (.string (E.text k)) else .error .type
  | n + 1, .array items, x, [f] => arrayMethod E (fun v ↦ apply n f [v]) items x
  | n + 1, .object props, x, vs =>
    match props.lookup x.utf16 with
    | some f => apply n f vs
    | none => .error .type
  | _, .undefined, _, _ | _, .null, _, _ => .error .type
  | 0, _, _, _ => .error .fuel
  | _, _, _, _ => .error .unsupported

/-- A function call. -/
def apply : Nat → Value E.Num → List (Value E.Num) → Except Error (Value E.Num)
  | n + 1, .closure env params body, vs =>
    (exec n (bindParams E params vs ++ env) body).map fun r ↦ r.2.getD .undefined
  | _, .native name, vs =>
    if name = lit "Object.entries" then
      match vs with
      | [.object props] => .ok (entries props)
      | _ => .error .unsupported
    else E.native name vs
  | 0, .closure _ _ _, _ => .error .fuel
  | _, _, _ => .error .type

/-- Statements: the bindings after them, and the value that is returned, if one is. -/
def exec : Nat → Env E.Num → List Stmt → Except Error (Env E.Num × Option (Value E.Num))
  | 0, _, _ => .error .fuel
  | _ + 1, env, [] => .ok (env, none)
  | n + 1, env, .expr e :: rest => (eval n env e).bind fun _ ↦ exec n env rest
  | n + 1, env, .const x e :: rest => (eval n env e).bind fun v ↦ exec n ((x, v) :: env) rest
  | n + 1, env, .assign x e :: rest =>
    (eval n env e).bind fun v ↦ (rebind E x v env).bind fun env' ↦ exec n env' rest
  | n + 1, env, .ret e :: _ => (eval n env e).map fun v ↦ (env, some v)
  | n + 1, env, .cond c yes no :: rest =>
    (eval n env c).bind fun v ↦ (exec n env (if truthy E v then yes else no)).bind fun
      | (inner, some r) => .ok (inner, some r)
      -- the constants of the block are not in scope after it
      | (inner, none) => exec n (inner.drop (inner.length - env.length)) rest
  | n + 1, env, .function f params body :: rest =>
    exec n ((f, .closure env params body) :: env) rest

end

end Evaluation

/-! ### Results that do not depend on the fuel -/

/-- With enough fuel the function has this value. -/
def Settles {α : Type} (f : Nat → α) (r : α) : Prop := ∃ k, ∀ n, k ≤ n → f n = r

section Results
variable (E : Engine)

/-- The expression has this value, or this error. -/
def Yields (env : Env E.Num) (e : Expr) (r : Except Error (Value E.Num)) : Prop :=
  Settles (fun n ↦ eval E n env e) r

/-- The call returns this value, or ends in this error. -/
def Returns (f : Value E.Num) (args : List (Value E.Num)) (r : Except Error (Value E.Num)) : Prop :=
  Settles (fun n ↦ apply E n f args) r

/-- The statements end with these bindings and this value that is returned, or in this error. -/
def Executes (env : Env E.Num) (body : List Stmt)
    (r : Except Error (Env E.Num × Option (Value E.Num))) : Prop :=
  Settles (fun n ↦ exec E n env body) r

end Results
end SMAgent.Base.JavaScript
