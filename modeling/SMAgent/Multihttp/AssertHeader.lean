import SMAgent.Base.JSRules
import SMAgent.Multihttp.Script

/-!
# The helper `assertHeader` of the script

`script.tmpl:51-66`. The function is read from the template. It compares names without regard to
case and calls the matcher on the values of the headers of that name.
-/

namespace SMAgent.Multihttp
open SMAgent.Base SMAgent.Base.JavaScript

/-- `script.tmpl:51-66`. -/
def assertHeaderSource : GoString := ((preamble.drop 50).take 16).flatten

/-- The condition of `filter`. -/
def sameName : Expr :=
  .equal (.call (.member (.index (.var "h") (.number 0)) (.lit "toLowerCase")) [])
    (.var "lcName")

/-- The values of the headers of the name. -/
def namedValues : Expr :=
  .call (.member (.call (.member (.call (.member (.var "Object") (.lit "entries"))
    [.var "headers"]) (.lit "filter")) [.arrow (.lit "h") [.ret sameName]]) (.lit "map"))
    [.arrow (.lit "h") [.ret (.index (.var "h") (.number 1))]]

/-- A warning. -/
def warning (message : Expr) : Expr :=
  .call (.member (.var "console") (.lit "warn")) [message]

/-- The text of the first warning. -/
def absentMessage : Expr :=
  .template (.lit "'") [(.var "name", .lit "' not present in response")]

/-- The text of the second warning. -/
def valueMessage : Expr :=
  .template (.lit "'") [(.var "name", .lit "' has the value '"),
    (.var "v", .lit "'")]

/-- The search for a value that matches. -/
def matchingValue : Expr :=
  .call (.member (.var "values") (.lit "find"))
    [.arrow (.lit "v") [.ret (.call (.var "matcher") [.var "v"])]]

/-- A warning for each value. -/
def warnOfValues : Stmt :=
  .expr (.call (.member (.var "values") (.lit "forEach"))
    [.arrow (.lit "v") [.ret (warning valueMessage)]])

/-- The warnings if no value matches. -/
def warnings : Stmt :=
  .cond (.equal (.member (.var "values") (.lit "length")) (.number 0))
    [.expr (warning absentMessage)] [warnOfValues]

/-- The statements of the function. -/
def assertHeaderBody : List Stmt :=
  [.const (.lit "lcName") (.call (.member (.var "name") (.lit "toLowerCase")) []),
    .const (.lit "values") namedValues,
    .cond (.unequal matchingValue (.var "undefined")) [.ret (.bool true)] [warnings],
    .ret (.bool false)]

/-- The declaration. -/
def assertHeaderDecl : Stmt :=
  .function (.lit "assertHeader") [.lit "headers", .lit "name", .lit "matcher"] assertHeaderBody

/-- The tokens of the declaration. -/
def assertHeaderToks : List Tok :=
  [.key .kwFunction, .name "assertHeader", .key .leftParen, .name "headers", .key .comma,
    .name "name", .key .comma, .name "matcher", .key .rightParen, .key .leftBrace, .key .kwConst,
    .name "lcName", .key .assign, .name "name", .key .dot, .name "toLowerCase", .key .leftParen,
    .key .rightParen, .key .semicolon, .key .kwConst, .name "values", .key .assign, .name "Object",
    .key .dot, .name "entries", .key .leftParen, .name "headers", .key .rightParen, .key .dot,
    .name "filter", .key .leftParen, .name "h", .key .arrow, .name "h", .key .leftBracket,
    .number 0, .key .rightBracket, .key .dot, .name "toLowerCase", .key .leftParen,
    .key .rightParen, .key .equal, .name "lcName", .key .rightParen, .key .dot, .name "map",
    .key .leftParen, .name "h", .key .arrow, .name "h", .key .leftBracket, .number 1,
    .key .rightBracket, .key .rightParen, .key .semicolon, .key .kwIf, .key .leftParen,
    .name "values", .key .dot, .name "find", .key .leftParen, .name "v", .key .arrow,
    .name "matcher", .key .leftParen, .name "v", .key .rightParen, .key .rightParen, .key .unequal,
    .name "undefined", .key .rightParen, .key .leftBrace, .key .kwReturn, .key .kwTrue,
    .key .semicolon, .key .rightBrace, .key .kwElse, .key .kwIf, .key .leftParen, .name "values",
    .key .dot, .name "length", .key .equal, .number 0, .key .rightParen, .key .leftBrace,
    .name "console", .key .dot, .name "warn", .key .leftParen, .template (.lit "`'$\x7b"),
    .name "name", .template (.lit "\x7d' not present in response`"), .key .rightParen,
    .key .semicolon, .key .rightBrace, .key .kwElse, .key .leftBrace, .name "values", .key .dot,
    .name "forEach", .key .leftParen, .name "v", .key .arrow, .name "console", .key .dot,
    .name "warn", .key .leftParen, .template (.lit "`'$\x7b"), .name "name",
    .template (.lit "\x7d' has the value '$\x7b"), .name "v", .template (.lit "\x7d'`"),
    .key .rightParen, .key .rightParen, .key .semicolon, .key .rightBrace, .key .kwReturn,
    .key .kwFalse, .key .semicolon, .key .rightBrace]

private theorem toks_assertHeaderSource : toks assertHeaderSource = some assertHeaderToks := by
  decide +kernel

/-- The source of `assertHeader` is parsed. -/
theorem parseProgram_assertHeaderSource :
    parseProgram assertHeaderSource = some [assertHeaderDecl] := by
  rw [parseProgram, toks_assertHeaderSource]
  rfl

/-! ### Its meaning -/

/-- What runs the script: an engine, and the bindings of the script and of its host that are not
modelled. The template declares no variable `value`. -/
structure ScriptHost extends Engine where
  bindings : Env Num
  value_unbound : bindings.lookup (.lit "value") = none
  warn : ∀ args, native (.lit "console.warn") args = .ok .undefined

section
variable (H : ScriptHost)

/-- The global bindings. -/
def globals : Env H.Num :=
  [(.lit "undefined", .undefined),
    (.lit "Object",
      .object [(GoString.utf16 (.lit "entries"), .native (.lit "Object.entries"))]),
    (.lit "console", .object [(GoString.utf16 (.lit "warn"), .native (.lit "console.warn"))]),
    (.lit "jsonpath",
      .object [(GoString.utf16 (.lit "query"), .native (.lit "jsonpath.query"))])] ++
    H.bindings

/-- The function as a value. -/
def assertHeaderValue : Value H.Num :=
  .closure (globals H) [.lit "headers", .lit "name", .lit "matcher"] assertHeaderBody

/-- The header map of a response. -/
def headerObject (headers : List (JSString × JSString)) : Value H.Num :=
  .object (headers.map fun h ↦ (h.1, .string h.2))

/-- The values of the headers whose name is the same without regard to case. -/
def namedHeaders (headers : List (JSString × JSString)) (name : JSString) : List JSString :=
  (headers.filter fun h ↦ H.lower h.1 == H.lower name).map Prod.snd

/-- A header as an element of `Object.entries`. -/
def headerEntry (h : JSString × JSString) : Value H.Num := .array [.string h.1, .string h.2]

variable {H}

/-- The entries of the headers. -/
theorem returns_entries (headers : List (JSString × JSString)) :
    Returns H.toEngine (.native (.lit "Object.entries")) [headerObject H headers]
      (.ok (.array (headers.map (headerEntry H)))) := by
  have h := Returns.entries (E := H.toEngine) (headers.map fun h ↦ (h.1, Value.string h.2))
  rw [entries, List.map_map] at h
  exact h

/-- The elements of an entry. -/
theorem yields_entry {env : Env H.Num} {x : GoString} {h : JSString × JSString}
    (hx : env.lookup x = some (headerEntry H h)) :
    Yields H.toEngine env (.index (.ident x) (.number 0)) (.ok (.string h.1)) ∧
      Yields H.toEngine env (.index (.ident x) (.number 1)) (.ok (.string h.2)) := by
  have hindex (k : Nat) (hk : k < 2 ^ 32 - 1) :
      getIndex H.toEngine (headerEntry H h) (.number (H.ofNat k)) =
        .ok ([Value.string h.1, .string h.2].getD k .undefined) := by
    simp only [getIndex, headerEntry, H.index_ofNat k hk]
  have hnumber (k : Nat) : Yields H.toEngine env (.number k) (.ok (.number (H.ofNat k))) :=
    .number k
  constructor
  · rw [← show _ = Except.ok (Value.string h.1) from hindex 0 (by decide)]
    exact (Yields.ident hx).index (hnumber 0)
  · rw [← show _ = Except.ok (Value.string h.2) from hindex 1 (by decide)]
    exact (Yields.ident hx).index (hnumber 1)

section Call
variable (headers : List (JSString × JSString)) (name : JSString) (matcher : Value H.Num)

/-- The bindings of a call. -/
def callScope : Env H.Num :=
  bindParams H.toEngine [.lit "headers", .lit "name", .lit "matcher"]
    [headerObject H headers, .string name, matcher] ++ globals H

/-- The bindings after the first statement. -/
def lowerScope : Env H.Num :=
  (.lit "lcName", .string (H.lower name)) :: callScope headers name matcher

/-- The bindings after the second statement. -/
def valuesScope : Env H.Num :=
  (.lit "values", .array ((namedHeaders H headers name).map .string)) ::
    lowerScope headers name matcher

private theorem yields_namedValues :
    Yields H.toEngine (lowerScope headers name matcher) namedValues
      (.ok (.array ((namedHeaders H headers name).map .string))) := by
  have hentries : Yields H.toEngine (lowerScope headers name matcher)
      (.call (.member (.var "Object") (.lit "entries")) [.var "headers"])
      (.ok (.array (headers.map (headerEntry H)))) :=
    .method (.ident rfl) (.cons (.ident rfl) .nil) (.object rfl (returns_entries headers))
  have hsame (h : JSString × JSString) :
      Returns H.toEngine (.closure (lowerScope headers name matcher) [.lit "h"] [.ret sameName])
        [headerEntry H h] (.ok (.bool (H.lower h.1 == H.lower name))) := by
    have hlower : Yields H.toEngine ((.lit "h", headerEntry H h) :: lowerScope headers name matcher)
        (.call (.member (.index (.var "h") (.number 0)) (.lit "toLowerCase")) [])
        (.ok (.string (H.lower h.1))) :=
      .method (yields_entry rfl).1 .nil (.string _ _)
    have hname : Yields H.toEngine ((.lit "h", headerEntry H h) :: lowerScope headers name matcher)
        (.var "lcName") (.ok (.string (H.lower name))) := .ident rfl
    exact .arrow (hlower.equal hname)
  have hsecond (h : JSString × JSString) :
      Returns H.toEngine (.closure (lowerScope headers name matcher) [.lit "h"]
        [.ret (.index (.var "h") (.number 1))]) [headerEntry H h] (.ok (.string h.2)) :=
    .arrow (yields_entry rfl).2
  have hfilter := hentries.method (.cons (.arrow _ _) .nil) (.filter fun h _ ↦ hsame h)
  have hmap := hfilter.method (.cons (.arrow _ _) .nil) (.map fun h _ ↦ hsecond h)
  rw [namedHeaders, List.map_map]
  exact hmap

variable {headers name matcher}

private theorem yields_warn {env : Env H.Num} {message : Expr} {s : JSString}
    (henv : env.lookup (.lit "console") = some
      (.object [(GoString.utf16 (.lit "warn"), .native (.lit "console.warn"))]))
    (hmessage : Yields H.toEngine env message (.ok (.string s))) :
    Yields H.toEngine env (warning message) (.ok .undefined) := by
  have hcall : Returns H.toEngine (.native (.lit "console.warn")) [.string s] (.ok .undefined) := by
    rw [← H.warn [.string s]]
    exact .native (by decide) _
  exact .method (.ident henv) (.cons hmessage .nil) (.object rfl hcall)

private theorem executes_warnings :
    Executes H.toEngine (valuesScope headers name matcher) [warnings]
      (.ok (valuesScope headers name matcher, none)) := by
  have hname {env : Env H.Num} (henv : env.lookup (.lit "name") = some (.string name)) :
      Yields H.toEngine env (.var "name") (.ok (.string name)) := .ident henv
  have hquote : literalValue (.lit "'") = some (GoString.utf16 (.lit "'")) := by decide
  have habsent : Executes H.toEngine (valuesScope headers name matcher)
      [.expr (warning absentMessage)] (.ok (valuesScope headers name matcher, none)) := by
    have hlast : literalValue (.lit "' not present in response") =
        some (GoString.utf16 (.lit "' not present in response")) := by decide
    have hmessage : Fills H.toEngine (valuesScope headers name matcher) (.lit "'")
        [(.var "name", .lit "' not present in response")] _ :=
      .cons hquote (hname rfl) rfl (.nil hlast)
    exact .expr (yields_warn rfl (.template hmessage)) .nil
  have heach (v : JSString) : Returns H.toEngine
      (.closure (valuesScope headers name matcher) [.lit "v"] [.ret (warning valueMessage)])
      [.string v] (.ok .undefined) := by
    have hvalue : Yields H.toEngine ((.lit "v", .string v) :: valuesScope headers name matcher)
        (.var "v") (.ok (.string v)) := .ident rfl
    have hmiddle : literalValue (.lit "' has the value '") =
        some (GoString.utf16 (.lit "' has the value '")) := by decide
    have hmessage : Fills H.toEngine ((.lit "v", .string v) :: valuesScope headers name matcher)
        (.lit "'") [(.var "name", .lit "' has the value '"), (.var "v", .lit "'")]
        _ := .cons hquote (hname rfl) rfl (.cons hmiddle hvalue rfl (.nil hquote))
    exact .arrow (yields_warn rfl (.template hmessage))
  have hpresent : Executes H.toEngine (valuesScope headers name matcher) [warnOfValues]
      (.ok (valuesScope headers name matcher, none)) :=
    .expr (.method (.ident rfl) (.cons (.arrow _ _) .nil) (.forEach fun v _ ↦ heach v)) .nil
  have hvalues : Yields H.toEngine (valuesScope headers name matcher) (.var "values")
      (.ok (.array ((namedHeaders H headers name).map .string))) := .ident rfl
  have hlength : Yields H.toEngine (valuesScope headers name matcher)
      (.member (.var "values") (.lit "length"))
      (.ok (.number (H.ofNat ((namedHeaders H headers name).map Value.string).length))) :=
    hvalues.member
  have hrest (env : Env H.Num) :
      Executes H.toEngine (env.drop (env.length - env.length)) [] (.ok (env, none)) := by
    rw [Nat.sub_self]
    exact .nil
  refine .cond (hlength.equal (.number 0)) ?_ (hrest _)
  show Executes H.toEngine _ (if _ then _ else _) _
  split
  · exact habsent
  · exact hpresent

private theorem returns_of_search {r : Except Error (Value H.Num)}
    (h : Executes H.toEngine (valuesScope headers name matcher) (assertHeaderBody.drop 2)
      (r.map fun v ↦ (valuesScope headers name matcher, some v))) :
    Returns H.toEngine (assertHeaderValue H) [headerObject H headers, .string name, matcher] r := by
  have hlower : Yields H.toEngine (callScope headers name matcher)
      (.call (.member (.var "name") (.lit "toLowerCase")) [])
      (.ok (.string (H.lower name))) := .method (.ident rfl) .nil (.string _ _)
  have hbody : Executes H.toEngine (callScope headers name matcher) assertHeaderBody
      (r.map fun v ↦ (valuesScope headers name matcher, some v)) :=
    .const hlower (.const (yields_namedValues headers name matcher) h)
  have hcall := Returns.closure hbody
  cases r with
  | error err => exact hcall
  | ok v => exact hcall

private theorem returns_matcher {v : JSString} {r : Except Error (Value H.Num)}
    (h : Returns H.toEngine matcher [.string v] r) :
    Returns H.toEngine (.closure (valuesScope headers name matcher) [.lit "v"]
      [.ret (.call (.var "matcher") [.var "v"])]) [.string v] r := by
  have hargs : Args H.toEngine ((.lit "v", .string v) :: valuesScope headers name matcher)
      [.var "v"] [.string v] := .cons (.ident rfl) .nil
  have hmatcher : List.lookup (GoString.lit "matcher")
      ((.lit "v", .string v) :: valuesScope headers name matcher) = some matcher := rfl
  exact .arrow (.call hmatcher hargs h)

/-- The helper finds out whether the matcher is true for a value of a header of that name. -/
theorem returns_assertHeader {p : JSString → Bool}
    (h : ∀ v ∈ namedHeaders H headers name,
      Returns H.toEngine matcher [.string v] (.ok (.bool (p v)))) :
    Returns H.toEngine (assertHeaderValue H) [headerObject H headers, .string name, matcher]
      (.ok (.bool ((namedHeaders H headers name).any p))) := by
  have hfind : Yields H.toEngine (valuesScope headers name matcher) matchingValue
      (.ok ((((namedHeaders H headers name).find? p).map Value.string).getD .undefined)) :=
    .method (.ident rfl) (.cons (.arrow _ _) .nil) (.find fun v hv ↦ returns_matcher (h v hv))
  have hundefined : Yields H.toEngine (valuesScope headers name matcher)
      (.var "undefined") (.ok .undefined) := .ident rfl
  have hsearch := hfind.unequal hundefined
  apply returns_of_search
  cases hfound : (namedHeaders H headers name).find? p with
  | some v =>
    have hany : (namedHeaders H headers name).any p = true :=
      List.any_eq_true.mpr ⟨v, List.mem_of_find?_eq_some hfound, List.find?_some hfound⟩
    rw [hfound] at hsearch
    rw [hany]
    exact .cond_ret hsearch (.ret (.bool true))
  | none =>
    have hany : (namedHeaders H headers name).any p = false := by
      rw [List.any_eq_false]
      exact List.find?_eq_none.mp hfound
    rw [hfound] at hsearch
    rw [hany]
    have hrest (env : Env H.Num) : Executes H.toEngine (env.drop (env.length - env.length))
        [.ret (.bool false)] (.ok (env, some (.bool false))) := by
      rw [Nat.sub_self]
      exact .ret (.bool false)
    exact .cond hsearch executes_warnings (hrest _)

/-- If the matcher fails on the first value, so does the helper. -/
theorem returns_assertHeader_error {v : JSString} {vs : List JSString} {err : Error}
    (hnamed : namedHeaders H headers name = v :: vs)
    (h : Returns H.toEngine matcher [.string v] (.error err)) :
    Returns H.toEngine (assertHeaderValue H) [headerObject H headers, .string name, matcher]
      (.error err) := by
  have hvalues : List.lookup (GoString.lit "values") (valuesScope headers name matcher) =
      some (.array (.string v :: vs.map .string)) := by
    rw [valuesScope, hnamed]
    rfl
  have hfind : Yields H.toEngine (valuesScope headers name matcher) matchingValue (.error err) :=
    .method (.ident hvalues) (.cons (.arrow _ _) .nil) (.find_error (returns_matcher h))
  exact returns_of_search (.cond_error hfind.unequal_error)

end Call
end
end SMAgent.Multihttp
