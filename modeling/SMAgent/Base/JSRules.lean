import SMAgent.Base.JSEval
import SMAgent.Base.JSPhrases

/-!
# Rules for JavaScript programs

The tokens of a text are those of its parts, with the punctuator or word that is not over yet
handed on. What an expression, a call or statements come to is derived from what their parts come
to; the rules hide the fuel of the evaluator.
-/

namespace SMAgent.Base.JavaScript
open GoString

/-! ### Tokens of a text -/

/-- The tokens of a part of the code, which starts and ends outside of literals; `p` is not over
yet at its start, and the text that is returned is not over yet at its end. -/
def scan (p s : GoString) : Option (List Tok × GoString) :=
  match lex ⟨⟨.code p, []⟩, []⟩ s with
  | (⟨⟨.code q, []⟩, []⟩, ls) => (ls.mapM Lexeme.tok).map (·, q)
  | _ => none

private theorem scan_eq_some {p s q : GoString} {ts : List Tok} (h : scan p s = some (ts, q)) :
    ∃ ls, lex ⟨⟨.code p, []⟩, []⟩ s = (⟨⟨.code q, []⟩, []⟩, ls) ∧ ls.mapM Lexeme.tok = some ts := by
  unfold scan at h
  split at h
  · next q' ls hlex =>
    obtain ⟨ts', hts, heq⟩ := Option.map_eq_some_iff.mp h
    obtain ⟨rfl, rfl⟩ := Prod.mk.inj heq
    exact ⟨ls, hlex, hts⟩
  · cases h

/-- Texts that end between tokens are scanned one after the other. -/
theorem scan_append {p s q t r : GoString} {ts us : List Tok} (hs : scan p s = some (ts, q))
    (ht : scan q t = some (us, r)) : scan p (s ++ t) = some (ts ++ us, r) := by
  obtain ⟨ls, hls, hts⟩ := scan_eq_some hs
  obtain ⟨ms, hms, hus⟩ := scan_eq_some ht
  rw [scan, lex_append, hls, hms]
  simp [List.mapM_append, hts, hus]

/-- The token that is over when something else begins. -/
def flushToks (p : GoString) : Option (List Tok) :=
  ((flush p).map (Lexeme.ofToken [])).mapM Lexeme.tok

/-- A string literal. -/
theorem scan_string {quote : UInt8} (hquote : quote = byte '"' ∨ quote = byte '\'') {p : GoString}
    {ts : List Tok} (hp : flushToks p = some ts) {raw : GoString}
    (hraw : literal quote .normal raw = some .normal) :
    scan p (quote :: (raw ++ [quote])) = some (ts ++ [.string raw], []) := by
  have hopen : lexStep ⟨⟨.code p, []⟩, []⟩ quote
      = (⟨⟨.string quote .normal, []⟩, []⟩, (flush p).map (Lexeme.ofToken [])) := by
    rcases hquote with rfl | rfl <;> rfl
  have hclose : lex ⟨⟨.string quote .normal, []⟩, raw⟩ [quote]
      = (⟨⟨.code [], []⟩, []⟩, [.string raw]) := by
    rcases hquote with rfl | rfl <;> rfl
  rw [scan, lex, hopen, lex_append, lex_literal hraw, List.nil_append, hclose]
  rw [flushToks] at hp
  simp [List.mapM_append, hp, Lexeme.tok]

/-- A literal is one token. -/
theorem scan_literal {quote : UInt8} (hquote : quote = byte '"' ∨ quote = byte '\'')
    {raw : GoString} (hraw : literal quote .normal raw = some .normal) :
    scan [] (quote :: (raw ++ [quote])) = some ([.string raw], []) :=
  scan_string hquote (p := []) rfl hraw

/-- The tokens of a whole text. -/
theorem toks_of_scan {s : GoString} {ts : List Tok} (h : scan [] s = some (ts, [])) :
    toks s = some ts := by
  obtain ⟨ls, hls, hts⟩ := scan_eq_some h
  have hlexemes : lexemes s = some ls := by
    rw [lexemes, show ({} : Lexer) = ⟨⟨.code [], []⟩, []⟩ from rfl, hls]
    simp [flush]
  rw [toks, hlexemes]
  exact hts

/-! ### Fuel -/

namespace Settles
variable {α β ε : Type}

/-- A computation settles on one result. -/
theorem unique {f : Nat → α} {r s : α} (hr : Settles f r) (hs : Settles f s) : r = s := by
  obtain ⟨k, hk⟩ := hr
  obtain ⟨l, hl⟩ := hs
  rw [← hk (k + l) (Nat.le_add_right k l), hl (k + l) (Nat.le_add_left l k)]

private theorem const (r : α) : Settles (fun _ ↦ r) r := ⟨0, fun _ _ ↦ rfl⟩

/-- A round of the evaluator takes one unit of fuel. -/
theorem succ {f g : Nat → α} {r : α} (h : Settles f r) (hg : ∀ n, g (n + 1) = f n) :
    Settles g r := by
  obtain ⟨k, hk⟩ := h
  refine ⟨k + 1, fun n hn ↦ ?_⟩
  cases n with
  | zero => cases hn
  | succ n => rw [hg, hk n (Nat.le_of_succ_le_succ hn)]

/-- A result that depends on another one. -/
theorem comp {f : Nat → α} {a : α} (hf : Settles f a) {g : α → Nat → β} {r : β}
    (hg : Settles (g a) r) : Settles (fun n ↦ g (f n) n) r := by
  obtain ⟨k, hk⟩ := hf
  obtain ⟨l, hl⟩ := hg
  refine ⟨k + l, fun n hn ↦ ?_⟩
  show g (f n) n = r
  rw [hk n (Nat.le_trans (Nat.le_add_right k l) hn), hl n (Nat.le_trans (Nat.le_add_left l k) hn)]

private theorem bind {f : Nat → Except ε α} {a : α} (hf : Settles f (.ok a))
    {g : α → Nat → Except ε β} {r : Except ε β} (hg : Settles (g a) r) :
    Settles (fun n ↦ (f n).bind fun x ↦ g x n) r :=
  hf.comp (g := fun x n ↦ x.bind fun y ↦ g y n) hg

private theorem bind_error {f : Nat → Except ε α} {e : ε} (hf : Settles f (.error e))
    (g : α → Nat → Except ε β) : Settles (fun n ↦ (f n).bind fun x ↦ g x n) (.error e) :=
  hf.comp (g := fun x n ↦ x.bind fun y ↦ g y n) (const _)

private theorem map {f : Nat → Except ε α} {r : Except ε α} (hf : Settles f r) (g : α → β) :
    Settles (fun n ↦ (f n).map g) (r.map g) :=
  hf.comp (g := fun x _ ↦ x.map g) (const _)

private theorem forall_mem {f : β → Nat → α} {r : β → α} {l : List β}
    (h : ∀ b ∈ l, Settles (f b) (r b)) : ∃ k, ∀ n, k ≤ n → ∀ b ∈ l, f b n = r b := by
  induction l with
  | nil => exact ⟨0, fun _ _ _ hb ↦ absurd hb List.not_mem_nil⟩
  | cons b l ih =>
    obtain ⟨k, hk⟩ := h b List.mem_cons_self
    obtain ⟨m, hm⟩ := ih fun b' hb' ↦ h b' (List.mem_cons_of_mem _ hb')
    refine ⟨k + m, fun n hn ↦ List.forall_mem_cons.mpr ⟨hk n ?_, hm n ?_⟩⟩
    · exact Nat.le_trans (Nat.le_add_right k m) hn
    · exact Nat.le_trans (Nat.le_add_left m k) hn

end Settles

/-! ### Expressions -/

section Rules
variable {E : Engine} {env : Env E.Num}

/-- The arguments have these values. -/
def Args (E : Engine) (env : Env E.Num) (es : List Expr) (vs : List (Value E.Num)) : Prop :=
  Settles (fun n ↦ evalArgs E n env es) (.ok vs)

/-- The method call returns this value, or ends in this error. -/
def Invokes (E : Engine) (v : Value E.Num) (x : GoString) (vs : List (Value E.Num))
    (r : Except Error (Value E.Num)) : Prop :=
  Settles (fun n ↦ invoke E n v x vs) r

/-- The parts of a template literal make up this text. -/
def Fills (E : Engine) (env : Env E.Num) (first : GoString) (rest : List (Expr × GoString))
    (s : JSString) : Prop :=
  Settles (fun n ↦ evalTemplate E n env first rest) (.ok (.string s))

namespace Fills
variable {first next : GoString} {s t u : JSString}

/-- Rule for a template without substitutions. -/
theorem nil (h : literalValue first = some s) : Fills E env first [] s :=
  (Settles.const _).succ fun _ ↦ by rw [evalTemplate, literalOf, h]

/-- Rule for one more substitution. -/
theorem cons {e : Expr} {v : Value E.Num} {rest : List (Expr × GoString)}
    (hfirst : literalValue first = some s) (he : Yields E env e (.ok v))
    (ht : toText E v = .ok t) (hrest : Fills E env next rest u) :
    Fills E env first ((e, next) :: rest) (s ++ t ++ u) := by
  have hnext : Settles (fun n ↦ (toText E v).bind fun t ↦ (evalTemplate E n env next rest).bind
      fun u ↦ (plus E (.string s) (.string t)).bind (plus E · u))
      (.ok (.string (s ++ t ++ u))) := by
    rw [ht]
    exact hrest.bind (g := fun u _ ↦ (plus E (.string s) (.string t)).bind (plus E · u))
      (.const _)
  exact (he.bind (g := fun v n ↦ (toText E v).bind fun t ↦ (evalTemplate E n env next rest).bind
    fun u ↦ (plus E (.string s) (.string t)).bind (plus E · u)) hnext).succ fun n ↦ by
      rw [evalTemplate, literalOf, hfirst]
      rfl

end Fills

namespace Args

/-- Rule for no arguments. -/
theorem nil : Args E env [] [] := (Settles.const _).succ fun _ ↦ rfl

/-- Rule for one more argument. -/
theorem cons {e : Expr} {v : Value E.Num} {es : List Expr} {vs : List (Value E.Num)}
    (he : Yields E env e (.ok v)) (hes : Args E env es vs) : Args E env (e :: es) (v :: vs) :=
  (he.bind (hes.map (v :: ·))).succ fun _ ↦ rfl

end Args

namespace Yields

/-- Rule for a name in scope. -/
theorem ident {x : GoString} {v : Value E.Num} (h : env.lookup x = some v) :
    Yields E env (.ident x) (.ok v) :=
  (Settles.const _).succ fun _ ↦ by rw [eval, lookupVar, h]

/-- Rule for a name that is not in scope. -/
theorem unbound {x : GoString} (h : env.lookup x = none) :
    Yields E env (.ident x) (.error (.reference x)) :=
  (Settles.const _).succ fun _ ↦ by rw [eval, lookupVar, h]

/-- Rule for a number. -/
theorem number (k : Nat) : Yields E env (.number k) (.ok (.number (E.ofNat k))) :=
  (Settles.const _).succ fun _ ↦ rfl

/-- Rule for a Boolean. -/
theorem bool (b : Bool) : Yields E env (.bool b) (.ok (.bool b)) :=
  (Settles.const _).succ fun _ ↦ rfl

/-- Rule for a string literal. -/
theorem string {raw : GoString} {s : JSString} (h : literalValue raw = some s) :
    Yields E env (.string raw) (.ok (.string s)) :=
  (Settles.const _).succ fun _ ↦ by rw [eval, literalOf, h]

/-- Rule for a function. -/
theorem arrow (x : GoString) (body : List Stmt) :
    Yields E env (.arrow x body) (.ok (.closure env [x] body)) :=
  (Settles.const _).succ fun _ ↦ rfl

section
variable {e i a b : Expr} {v w : Value E.Num} {x : GoString} {r : Except Error (Value E.Num)}

/-- Rule for a property. -/
theorem member (he : Yields E env e (.ok v)) : Yields E env (.member e x) (getMember E v x) :=
  (he.bind (g := fun v _ ↦ getMember E v x) (.const _)).succ fun _ ↦ rfl

/-- Rule for an index. -/
theorem index (he : Yields E env e (.ok v)) (hi : Yields E env i (.ok w)) :
    Yields E env (.index e i) (getIndex E v w) :=
  (he.bind (g := fun v n ↦ (eval E n env i).bind (getIndex E v))
    (hi.bind (g := fun w _ ↦ getIndex E v w) (.const _))).succ fun _ ↦ rfl

/-- Rule for a sum. -/
theorem add (ha : Yields E env a (.ok v)) (hb : Yields E env b (.ok w)) :
    Yields E env (.add a b) (plus E v w) :=
  (ha.bind (g := fun v n ↦ (eval E n env b).bind (plus E v))
    (hb.bind (g := fun w _ ↦ plus E v w) (.const _))).succ fun _ ↦ rfl

/-- Rule for `===`. -/
theorem equal (ha : Yields E env a (.ok v)) (hb : Yields E env b (.ok w)) :
    Yields E env (.equal a b) ((strictEqual E v w).map .bool) :=
  (ha.bind (g := fun v n ↦ (eval E n env b).bind fun w ↦ (strictEqual E v w).map Value.bool)
    (hb.bind (g := fun w _ ↦ (strictEqual E v w).map Value.bool) (.const _))).succ fun _ ↦ rfl

/-- Rule for `===` with a left side that fails. -/
theorem equal_error {err : Error} (ha : Yields E env a (.error err)) :
    Yields E env (.equal a b) (.error err) :=
  (ha.bind_error fun v n ↦ (eval E n env b).bind fun w ↦
    (strictEqual E v w).map Value.bool).succ fun _ ↦ rfl

/-- Rule for `!==`. -/
theorem unequal (ha : Yields E env a (.ok v)) (hb : Yields E env b (.ok w)) :
    Yields E env (.unequal a b) ((strictEqual E v w).map fun r ↦ .bool (!r)) :=
  (ha.bind (g := fun v n ↦ (eval E n env b).bind fun w ↦
      (strictEqual E v w).map fun r ↦ Value.bool (!r))
    (hb.bind (g := fun w _ ↦ (strictEqual E v w).map fun r ↦ Value.bool (!r))
      (.const _))).succ fun _ ↦ rfl

/-- Rule for `!==` with a left side that fails. -/
theorem unequal_error {err : Error} (ha : Yields E env a (.error err)) :
    Yields E env (.unequal a b) (.error err) :=
  (ha.bind_error fun v n ↦ (eval E n env b).bind fun w ↦
    (strictEqual E v w).map fun r ↦ Value.bool (!r)).succ fun _ ↦ rfl

/-- Rule for a negation. -/
theorem not (he : Yields E env e r) :
    Yields E env (.not e) (r.map fun v ↦ .bool (!truthy E v)) :=
  (he.map fun v ↦ Value.bool (!truthy E v)).succ fun _ ↦ rfl

/-- Rule for a method call. -/
theorem method {args : List Expr} {vs : List (Value E.Num)} (he : Yields E env e (.ok v))
    (hargs : Args E env args vs) (hcall : Invokes E v x vs r) :
    Yields E env (.call (.member e x) args) r :=
  (he.bind (g := fun v n ↦ (evalArgs E n env args).bind fun vs ↦ invoke E n v x vs)
    (hargs.bind (g := fun vs n ↦ invoke E n v x vs) hcall)).succ fun _ ↦ rfl

/-- Rule for a method of what fails. -/
theorem method_error {args : List Expr} {err : Error} (he : Yields E env e (.error err)) :
    Yields E env (.call (.member e x) args) (.error err) :=
  (he.bind_error fun v n ↦ (evalArgs E n env args).bind fun vs ↦ invoke E n v x vs).succ
    fun _ ↦ rfl

/-- Rule for a template. -/
theorem template {first : GoString} {rest : List (Expr × GoString)} {s : JSString}
    (h : Fills E env first rest s) : Yields E env (.template first rest) (.ok (.string s)) :=
  h.succ fun _ ↦ rfl

/-- A function that is called by its name. -/
theorem call {f : GoString} {args : List Expr} {vs : List (Value E.Num)}
    (hf : env.lookup f = some v) (hargs : Args E env args vs) (hcall : Returns E v vs r) :
    Yields E env (.call (.ident f) args) r :=
  ((ident hf).bind (g := fun v n ↦ (evalArgs E n env args).bind fun vs ↦ apply E n v vs)
    (hargs.bind (g := fun vs n ↦ apply E n v vs) hcall)).succ fun _ ↦ rfl

end
end Yields

/-! ### Calls -/

section Items
variable {α : Type} {call : Value E.Num → Except Error (Value E.Num)} {f : α → Value E.Num}
  {l : List α}

private theorem findItem_map {p : α → Bool} (h : ∀ x ∈ l, call (f x) = .ok (.bool (p x))) :
    findItem E call (l.map f) = .ok (((l.find? p).map f).getD .undefined) := by
  induction l with
  | nil => rfl
  | cons x l ih =>
    rw [List.map_cons, findItem, h x List.mem_cons_self, List.find?_cons]
    show (if p x = true then _ else _) = _
    cases p x with
    | true => rfl
    | false => exact ih (List.forall_mem_cons.mp h).2

private theorem someItem_map {p : α → Bool} (h : ∀ x ∈ l, call (f x) = .ok (.bool (p x))) :
    someItem E call (l.map f) = .ok (l.any p) := by
  induction l with
  | nil => rfl
  | cons x l ih =>
    rw [List.map_cons, someItem, h x List.mem_cons_self, List.any_cons]
    show (if p x = true then _ else _) = _
    cases p x with
    | true => rfl
    | false => exact ih (List.forall_mem_cons.mp h).2

private theorem filterItems_map {p : α → Bool} (h : ∀ x ∈ l, call (f x) = .ok (.bool (p x))) :
    filterItems E call (l.map f) = .ok ((l.filter p).map f) := by
  induction l with
  | nil => rfl
  | cons x l ih =>
    rw [List.map_cons, filterItems, h x List.mem_cons_self,
      ih (List.forall_mem_cons.mp h).2, List.filter_cons]
    show Except.ok (if p x = true then _ else _) = _
    cases p x <;> rfl

private theorem mapItems_map {g : α → Value E.Num} (h : ∀ x ∈ l, call (f x) = .ok (g x)) :
    mapItems E call (l.map f) = .ok (l.map g) := by
  induction l with
  | nil => rfl
  | cons x l ih =>
    rw [List.map_cons, mapItems, h x List.mem_cons_self,
      ih (List.forall_mem_cons.mp h).2]
    rfl

end Items

namespace Invokes
variable {x : GoString}

/-- Rule for the methods of a string. -/
theorem string (s : JSString) (vs : List (Value E.Num)) :
    Invokes E (.string s) x vs (stringMethod E s x vs) :=
  (Settles.const _).succ fun _ ↦ rfl

/-- Rule for `toString`. -/
theorem toString (k : E.Num) :
    Invokes E (.number k) (lit "toString") [] (.ok (.string (E.text k))) :=
  (Settles.const _).succ fun _ ↦ rfl

section Array
variable {α : Type} {f : α → Value E.Num} {l : List α} {fn : Value E.Num}

private theorem array {call : α → Except Error (Value E.Num)}
    (h : ∀ a ∈ l, Returns E fn [f a] (call a)) {r : Except Error (Value E.Num)}
    (hmethod : ∀ g : Value E.Num → Except Error (Value E.Num), (∀ a ∈ l, g (f a) = call a) →
      arrayMethod E g (l.map f) x = r) :
    Invokes E (.array (l.map f)) x [fn] r := by
  obtain ⟨k, hk⟩ := Settles.forall_mem h
  exact Settles.succ ⟨k, fun n hn ↦ hmethod (fun v ↦ apply E n fn [v]) (hk n hn)⟩ fun _ ↦ rfl

/-- Rule for `find`. -/
theorem find {p : α → Bool} (h : ∀ a ∈ l, Returns E fn [f a] (.ok (.bool (p a)))) :
    Invokes E (.array (l.map f)) (lit "find") [fn] (.ok (((l.find? p).map f).getD .undefined)) :=
  array h fun _ hg ↦ findItem_map hg

/-- Rule for `find` with a predicate that fails at once. -/
theorem find_error {v : Value E.Num} {vs : List (Value E.Num)} {err : Error}
    (h : Returns E fn [v] (.error err)) :
    Invokes E (.array (v :: vs)) (lit "find") [fn] (.error err) :=
  (h.bind_error fun r n ↦
    if truthy E r then .ok v else findItem E (fun v ↦ apply E n fn [v]) vs).succ fun _ ↦ rfl

/-- Rule for `some`. -/
theorem any {p : α → Bool} (h : ∀ a ∈ l, Returns E fn [f a] (.ok (.bool (p a)))) :
    Invokes E (.array (l.map f)) (lit "some") [fn] (.ok (.bool (l.any p))) :=
  array h fun g hg ↦ by
    show (someItem E g (l.map f)).map Value.bool = _
    rw [someItem_map hg]
    rfl

/-- Rule for `filter`. -/
theorem filter {p : α → Bool} (h : ∀ a ∈ l, Returns E fn [f a] (.ok (.bool (p a)))) :
    Invokes E (.array (l.map f)) (lit "filter") [fn] (.ok (.array ((l.filter p).map f))) :=
  array h fun g hg ↦ by
    show (filterItems E g (l.map f)).map Value.array = _
    rw [filterItems_map hg]
    rfl

/-- Rule for `map`. -/
theorem map {g : α → Value E.Num} (h : ∀ a ∈ l, Returns E fn [f a] (.ok (g a))) :
    Invokes E (.array (l.map f)) (lit "map") [fn] (.ok (.array (l.map g))) :=
  array h fun c hc ↦ by
    show (mapItems E c (l.map f)).map Value.array = _
    rw [mapItems_map hc]
    rfl

/-- Rule for `forEach`. -/
theorem forEach {g : α → Value E.Num} (h : ∀ a ∈ l, Returns E fn [f a] (.ok (g a))) :
    Invokes E (.array (l.map f)) (lit "forEach") [fn] (.ok .undefined) :=
  array h fun c hc ↦ by
    show (mapItems E c (l.map f)).map (fun _ ↦ Value.undefined) = _
    rw [mapItems_map hc]
    rfl

end Array

/-- Rule for a method that is a property. -/
theorem object {props : List (JSString × Value E.Num)} {f : Value E.Num}
    {vs : List (Value E.Num)} {r : Except Error (Value E.Num)}
    (hf : props.lookup x.utf16 = some f) (h : Returns E f vs r) :
    Invokes E (.object props) x vs r :=
  h.succ fun n ↦ by
    simp only [invoke, hf]

end Invokes

namespace Returns

/-- Rule for a call of a closure. -/
theorem closure {params : List GoString} {body : List Stmt} {vs : List (Value E.Num)}
    {r : Except Error (Env E.Num × Option (Value E.Num))}
    (h : Executes E (bindParams E params vs ++ env) body r) :
    Returns E (.closure env params body) vs (r.map fun r ↦ r.2.getD .undefined) :=
  (h.map fun r ↦ r.2.getD .undefined).succ fun _ ↦ rfl

/-- Rule for a call of the host. -/
theorem native {name : GoString} (hname : name ≠ lit "Object.entries") (vs : List (Value E.Num)) :
    Returns E (.native name) vs (E.native name vs) :=
  (Settles.const _).succ fun n ↦ by
    show (if name = lit "Object.entries" then _ else E.native name vs) = _
    rw [if_neg hname]

/-- Rule for `Object.entries`. -/
theorem entries (props : List (JSString × Value E.Num)) :
    Returns E (.native (lit "Object.entries")) [.object props] (.ok (JavaScript.entries props)) :=
  (Settles.const _).succ fun _ ↦ rfl

end Returns

/-! ### Statements -/

namespace Executes
variable {e : Expr} {v : Value E.Num} {x : GoString} {rest : List Stmt}
  {r : Except Error (Env E.Num × Option (Value E.Num))}

/-- Rule for the end of a block. -/
theorem nil : Executes E env [] (.ok (env, none)) := (Settles.const _).succ fun _ ↦ rfl

/-- Rule for a return. -/
theorem ret {r : Except Error (Value E.Num)} (he : Yields E env e r) :
    Executes E env (.ret e :: rest) (r.map fun v ↦ (env, some v)) :=
  (he.map fun v ↦ (env, some v)).succ fun _ ↦ rfl

/-- Rule for an expression statement. -/
theorem expr (he : Yields E env e (.ok v)) (hrest : Executes E env rest r) :
    Executes E env (.expr e :: rest) r :=
  (he.bind (g := fun _ n ↦ exec E n env rest) hrest).succ fun _ ↦ rfl

/-- Rule for a constant. -/
theorem const (he : Yields E env e (.ok v)) (hrest : Executes E ((x, v) :: env) rest r) :
    Executes E env (.const x e :: rest) r :=
  (he.bind (g := fun v n ↦ exec E n ((x, v) :: env) rest) hrest).succ fun _ ↦ rfl

/-- Rule for an assignment. -/
theorem assign {env' : Env E.Num} (he : Yields E env e (.ok v))
    (hbind : rebind E x v env = .ok env') (hrest : Executes E env' rest r) :
    Executes E env (.assign x e :: rest) r := by
  have hnext : Settles (fun n ↦ (rebind E x v env).bind fun env' ↦ exec E n env' rest) r := by
    rw [hbind]
    exact hrest
  exact (he.bind (g := fun v n ↦ (rebind E x v env).bind fun env' ↦ exec E n env' rest)
    hnext).succ fun _ ↦ rfl

/-- What follows the block of an `if`, which may have returned a value. -/
private def afterBlock (E : Engine) (env : Env E.Num) (rest : List Stmt)
    (block : Env E.Num × Option (Value E.Num)) (n : Nat) :
    Except Error (Env E.Num × Option (Value E.Num)) :=
  block.2.elim (exec E n (block.1.drop (block.1.length - env.length)) rest)
    fun v ↦ .ok (block.1, some v)

private theorem exec_cond {yes no : List Stmt} (n : Nat) :
    exec E (n + 1) env (.cond e yes no :: rest) = (eval E n env e).bind fun v ↦
      (exec E n env (if truthy E v then yes else no)).bind
        fun block ↦ afterBlock E env rest block n := by
  rw [exec]
  congr 1
  funext v
  congr 1
  funext ⟨inner, result⟩
  cases result with
  | none => rfl
  | some v => rfl

/-- An `if` whose block returns nothing. -/
theorem cond {yes no : List Stmt} {inner : Env E.Num} (he : Yields E env e (.ok v))
    (hblock : Executes E env (if truthy E v then yes else no) (.ok (inner, none)))
    (hrest : Executes E (inner.drop (inner.length - env.length)) rest r) :
    Executes E env (.cond e yes no :: rest) r :=
  (he.bind (g := fun v n ↦ (exec E n env (if truthy E v then yes else no)).bind
      fun block ↦ afterBlock E env rest block n)
    (hblock.bind (g := afterBlock E env rest) hrest)).succ exec_cond

/-- An `if` whose block returns a value. -/
theorem cond_ret {yes no : List Stmt} {inner : Env E.Num} {w : Value E.Num}
    (he : Yields E env e (.ok v))
    (hblock : Executes E env (if truthy E v then yes else no) (.ok (inner, some w))) :
    Executes E env (.cond e yes no :: rest) (.ok (inner, some w)) :=
  (he.bind (g := fun v n ↦ (exec E n env (if truthy E v then yes else no)).bind
      fun block ↦ afterBlock E env rest block n)
    (hblock.bind (g := afterBlock E env rest) (.const _))).succ exec_cond

/-- Rule for a condition that fails. -/
theorem cond_error {yes no : List Stmt} {err : Error} (he : Yields E env e (.error err)) :
    Executes E env (.cond e yes no :: rest) (.error err) :=
  (he.bind_error fun v n ↦ (exec E n env (if truthy E v then yes else no)).bind
      fun block ↦ afterBlock E env rest block n).succ exec_cond

/-- Rule for a declaration of a function. -/
theorem function {params : List GoString} {body : List Stmt}
    (hrest : Executes E ((x, .closure env params body) :: env) rest r) :
    Executes E env (.function x params body :: rest) r :=
  hrest.succ fun _ ↦ rfl

end Executes

/-- An arrow function whose body is an expression. -/
theorem Returns.arrow {x : GoString} {e : Expr} {v : Value E.Num} {r : Except Error (Value E.Num)}
    (h : Yields E ((x, v) :: env) e r) : Returns E (.closure env [x] [.ret e]) [v] r := by
  have hbody : Executes E (bindParams E [x] [v] ++ env) [.ret e] (r.map fun w ↦ (_, some w)) :=
    .ret h
  have hcall := Returns.closure hbody
  cases r with
  | error err => exact hcall
  | ok w => exact hcall

end Rules
end SMAgent.Base.JavaScript
