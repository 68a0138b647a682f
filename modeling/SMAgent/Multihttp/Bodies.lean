import SMAgent.Base.JSReplace
import SMAgent.Multihttp.Strings

/-!
# Variables in bodies

The script decodes the body and then replaces the placeholders of one variable after the other,
`script.tmpl:90-96`, with `replaceAll`, which has replacement patterns of its own. The result is
the body with all placeholders replaced at once as long as every value stands for itself and every
statement finds the placeholders of the payload only. A body that names a variable has values for
which it is not.
-/

namespace SMAgent.Multihttp
open SMAgent.Base SMAgent.Base.JavaScript SMAgent.Base.Placeholders SMAgent.Pb
open GoString (lit byte)

/-! ### Base64 -/

/-- The value of a digit. -/
def base64Value (u : UInt16) : Option Nat := (base64Alphabet.map UInt8.toUInt16).idxOf? u

/-- The bytes of an encoding without padding. -/
def base64Decode : JSString → Option GoString
  | a :: b :: c :: d :: rest => do
    let n := (((← base64Value a) * 64 + (← base64Value b)) * 64 + (← base64Value c)) * 64 +
      (← base64Value d)
    return (n / 65536).toUInt8 :: (n / 256).toUInt8 :: n.toUInt8 :: (← base64Decode rest)
  | [a, b, c] => do
    let n := ((← base64Value a) * 64 + (← base64Value b)) * 64 + (← base64Value c)
    return [(n / 1024).toUInt8, (n / 4).toUInt8]
  | [a, b] => do
    let n := (← base64Value a) * 64 + (← base64Value b)
    return [(n / 16).toUInt8]
  | [_] => none
  | [] => some []

private theorem base64Value_digit (n : Nat) :
    base64Value (base64Digit n).toUInt16 = some (n % 64) := by
  have h : ∀ m < 64, base64Value (base64Alphabet.getD m 0x41).toUInt16 = some m := by
    decide +kernel
  exact h (n % 64) (Nat.mod_lt n (by decide))

private theorem toUInt8_eq {n : Nat} {b : UInt8} (h : n % 256 = b.toNat) : n.toUInt8 = b :=
  UInt8.toNat_inj.mp h

private theorem base64Decode_base64Encode (s : GoString) :
    base64Decode ((base64Encode s).map UInt8.toUInt16) = some s := by
  fun_induction base64Encode s with
  | case1 a b c rest n ih =>
    have ha := a.toNat_lt
    have hb := b.toNat_lt
    have hc := c.toNat_lt
    have hn : n = (a.toNat * 256 + b.toNat) * 256 + c.toNat := rfl
    simp only [List.map_cons, base64Decode, base64Value_digit, ih, Option.bind_eq_bind,
      Option.bind_some, Option.pure_def, Option.some.injEq, List.cons.injEq, and_true]
    refine ⟨toUInt8_eq ?_, toUInt8_eq ?_, toUInt8_eq ?_⟩ <;> omega
  | case2 a b n =>
    have ha := a.toNat_lt
    have hb := b.toNat_lt
    have hn : n = a.toNat * 256 + b.toNat := rfl
    simp only [List.map_cons, List.map_nil, base64Decode, base64Value_digit, Option.bind_eq_bind,
      Option.bind_some, Option.pure_def, Option.some.injEq, List.cons.injEq, and_true]
    refine ⟨toUInt8_eq ?_, toUInt8_eq ?_⟩ <;> omega
  | case3 a =>
    have ha := a.toNat_lt
    simp only [List.map_cons, List.map_nil, base64Decode, base64Value_digit, Option.bind_eq_bind,
      Option.bind_some, Option.pure_def, Option.some.injEq, List.cons.injEq, and_true]
    exact toUInt8_eq (by omega)
  | case4 => rfl

private theorem utf16_base64Encode (s : GoString) :
    GoString.utf16 (base64Encode s) = (base64Encode s).map UInt8.toUInt16 := by
  apply GoString.utf16_ascii
  intro b hb
  obtain ⟨n, rfl⟩ := mem_base64Encode hb
  have h : ∀ m < 64, base64Alphabet.getD m 0x41 < 0x80 := by decide +kernel
  exact h (n % 64) (Nat.mod_lt n (by decide))

private theorem literalValue_base64Encode (s : GoString) :
    literalValue (base64Encode s) = some (GoString.utf16 (base64Encode s)) := by
  apply literalValue_plain
  intro b hb
  obtain ⟨n, rfl⟩ := mem_base64Encode hb
  have h : ∀ m < 64, base64Alphabet.getD m 0x41 < 0x80 := by decide +kernel
  exact ⟨h (n % 64) (Nat.mod_lt n (by decide)), (base64Digit_plain n).2.2.2⟩

/-! ### The program -/

/-- An engine whose host decodes base64. -/
structure BodyEngine extends Engine where
  b64decode : ∀ data bytes, base64Decode data = some bytes →
    native (.lit "encoding.b64decode") [.string data, .string (GoString.utf16 (.lit "rawstd")),
      .string (GoString.utf16 (.lit "s"))] = .ok (.string bytes.utf16)

/-- What the script does with the body before the request, `script.tmpl:90-96`. -/
def bodyScript (body : HttpRequestBody) : List Piece :=
  [source "\n\n\tbody = "] ++ buildBody (some body) ++ [source ";", source "\n\t"] ++
    (interpolateBodyVariables "body" (some body)).flatMap (· ++ [source ";\n\t"])

section Program
variable (E : BodyEngine) (σ : JSString → JSString)

/-- The bindings around `body`. -/
def outerScope (payload : GoString) : Env E.Num :=
  [(.lit "vars", varsObject (fun n ↦ .string (σ n)) payload),
    (.lit "encoding", .object
      [(GoString.utf16 (.lit "b64decode"), .native (.lit "encoding.b64decode"))])]

/-- The bindings that the program uses. -/
def bodyScope (payload : GoString) (v : Value E.Num) : Env E.Num :=
  (.lit "body", v) :: outerScope E σ payload

/-- One statement of `interpolateBodyVariables`. -/
def bodyRound (s n : JSString) : JSString := replaceAll s (unitMarks.wrap n) (σ n)

/-- The statement for a variable. -/
def replaceStmt (n : GoString) : Stmt :=
  .assign (.lit "body") (.call (.member (.var "body") (.lit "replaceAll"))
    [.string (byteMarks.wrap n), variableExpr n])

/-- The tokens of `replaceStmt`. -/
def replaceToks (n : GoString) : List Tok :=
  [.name "body", .key .assign, .name "body", .key .dot, .name "replaceAll", .key .leftParen,
    .string (byteMarks.wrap n), .key .comma] ++ variableToks n ++
    [.key .rightParen, .key .semicolon]

/-- The value that the body gets first. -/
def bodyExpr (payload : GoString) : Expr :=
  if payload.length = 0 then .string []
  else .call (.member (.var "encoding") (.lit "b64decode"))
    [.string (base64Encode payload), .string (.lit "rawstd"), .string (.lit "s")]

/-- The tokens of its assignment. -/
def bodyToks (payload : GoString) : List Tok :=
  [.name "body", .key .assign] ++ (if payload.length = 0 then [.string []]
    else [.name "encoding", .key .dot, .name "b64decode", .key .leftParen,
      .string (base64Encode payload), .key .comma, .string (.lit "rawstd"), .key .comma,
      .string (.lit "s"), .key .rightParen]) ++ [.key .semicolon]

/-- The statements of the script. -/
def bodyProgram (payload : GoString) : List Stmt :=
  .assign (.lit "body") (bodyExpr payload) :: (bodyVariables payload).map replaceStmt

variable {E σ}

private theorem isName_of_mem_bodyVariables {payload n : GoString}
    (h : n ∈ bodyVariables payload) : byteMarks.IsName n := by
  rw [bodyVariables, List.mem_eraseDups] at h
  obtain ⟨loc, hloc, rfl⟩ := List.mem_map.mp h
  exact (cut_userVariables payload).isName loc hloc

private theorem mem_names_of_mem_bodyVariables {payload n : GoString}
    (h : n ∈ bodyVariables payload) : n.utf16 ∈ unitMarks.names payload.utf16 := by
  rw [bodyVariables, List.mem_eraseDups] at h
  obtain ⟨loc, hloc, rfl⟩ := List.mem_map.mp h
  rw [ascii_byteMarks.names_utf16 (cut_userVariables payload)]
  exact List.mem_map_of_mem hloc

private theorem scan_replaceStmt {n : GoString} (hn : byteMarks.IsName n) :
    scan [] (text (replaceVariable "body" n ++ [source ";\n\t"])) = some (replaceToks n, []) := by
  have hopen : scan [] (.lit "body=body.replaceAll(") =
      some ((replaceToks []).take 6, []) := by decide
  have hpattern := scan_literal (.inr rfl) (literal_placeholder hn.2)
  have hcomma : scan [] (.lit ", ") = some ([.key .comma], []) := by decide
  have hvar := scan_readVariable [] (plainText_of_isName hn) (p := []) (by decide)
  have hclose : scan [] (.lit ");\n\t") = some ([.key .rightParen, .key .semicolon], []) := by
    decide
  have h := scan_append (scan_append (scan_append (scan_append hopen hpattern) hcomma) hvar) hclose
  have htext : text (replaceVariable "body" n ++ [source ";\n\t"]) =
      .lit "body=body.replaceAll(" ++ byte '\'' ::
        ((lit "$\x7b" ++ n ++ lit "\x7d") ++ [byte '\'']) ++ .lit ", " ++
        readVariable n ++ .lit ");\n\t" := by
    simp only [replaceVariable, readVariable, text, source, Piece.bytes, List.flatMap_cons,
      List.flatMap_nil, List.append_nil, List.cons_append, List.nil_append, List.append_assoc]
    rfl
  rw [htext, h]
  rfl

private theorem scan_bodyExpr (body : HttpRequestBody) :
    scan [] (text ([source "\n\n\tbody = "] ++ buildBody (some body) ++
      [source ";", source "\n\t"])) =
      some (bodyToks body.payload, []) := by
  rw [buildBody, bodyToks]
  split
  · decide
  · have hopen : scan [] (.lit "\n\n\tbody = encoding.b64decode(") =
        some ((bodyToks [0]).take 6, []) := by decide
    have hdata := scan_literal (.inl rfl) (literal_base64Encode body.payload)
    have hclose : scan [] (.lit ", 'rawstd', \"s\");\n\t") =
        some ((bodyToks [0]).drop 7, []) := by decide
    have h := scan_append (scan_append hopen hdata) hclose
    have htext : text ([source "\n\n\tbody = "] ++ [source "encoding.b64decode(\"",
        .data (base64Encode body.payload), source "\", 'rawstd', \"s\")"] ++
        [source ";", source "\n\t"]) = .lit "\n\n\tbody = encoding.b64decode(" ++
          byte '"' :: (base64Encode body.payload ++ [byte '"']) ++
          .lit ", 'rawstd', \"s\");\n\t" := by
      simp only [text, source, Piece.bytes, List.flatMap_cons, List.flatMap_nil, List.append_nil,
        List.cons_append, List.nil_append, List.append_assoc]
      rfl
    rw [htext, h]
    rfl

private theorem toks_bodyScript (body : HttpRequestBody) :
    toks (text (bodyScript body)) =
      some (bodyToks body.payload ++ (bodyVariables body.payload).flatMap replaceToks) := by
  apply toks_of_scan
  rw [bodyScript, text_append]
  refine scan_append (scan_bodyExpr body) ?_
  have hnames : ∀ n ∈ bodyVariables body.payload, byteMarks.IsName n :=
    fun n hn ↦ isName_of_mem_bodyVariables hn
  rw [interpolateBodyVariables]
  split
  · next hempty =>
    rw [List.eq_nil_of_length_eq_zero hempty]
    rfl
  · generalize bodyVariables body.payload = names at hnames
    induction names with
    | nil => rfl
    | cons n names ih =>
      rw [List.map_cons, List.flatMap_cons, List.flatMap_cons, text_append]
      exact scan_append (scan_replaceStmt (hnames n List.mem_cons_self))
        (ih (List.forall_mem_cons.mp hnames).2)

/-! ### Its statements -/

private theorem parseStmts_replaceToks (names : List GoString) (n : Nat) :
    parseStmts (n + names.length + 18) (names.flatMap replaceToks) =
      some (names.map replaceStmt) := by
  induction names generalizing n with
  | nil => rfl
  | cons name names ih =>
    have hstmt : parseStmt (n + names.length + 18) (replaceToks name ++ names.flatMap replaceToks)
        = some (replaceStmt name, names.flatMap replaceToks) := rfl
    rw [List.flatMap_cons]
    exact (parseStmts_cons hstmt).trans (congrArg _ (ih n))

private theorem parseProgram_bodyScript (body : HttpRequestBody) :
    parseProgram (text (bodyScript body)) = some (bodyProgram body.payload) := by
  have hfirst (n : Nat) (rest : List Tok) : parseStmt (n + 18) (bodyToks body.payload ++ rest) =
      some (.assign (.lit "body") (bodyExpr body.payload), rest) := by
    rw [bodyToks, bodyExpr]
    split <;> rfl
  have hlength (names : List GoString) : names.length ≤ (names.flatMap replaceToks).length := by
    induction names with
    | nil => exact Nat.le_refl 0
    | cons name names ih =>
      simp only [List.flatMap_cons, List.length_append, List.length_cons, replaceToks]
      omega
  rw [parseProgram, toks_bodyScript, Option.bind_some]
  generalize hts : (bodyVariables body.payload).flatMap replaceToks = ts
  obtain ⟨n, hn⟩ : ∃ n, fuelFor (bodyToks body.payload ++ ts) =
      n + (bodyVariables body.payload).length + 18 + 1 := by
    have := hlength (bodyVariables body.payload)
    rw [hts] at this
    refine ⟨fuelFor (bodyToks body.payload ++ ts) - (bodyVariables body.payload).length - 19, ?_⟩
    simp only [fuelFor, bodyToks, List.length_append, List.length_cons, List.length_nil]
    omega
  rw [hn]
  refine (parseStmts_cons (hfirst _ ts)).trans ?_
  rw [← hts, parseStmts_replaceToks]
  rfl

private theorem yields_bodyExpr (payload : GoString) (v : Value E.Num) :
    Yields E.toEngine (bodyScope E σ payload v) (bodyExpr payload)
      (.ok (.string payload.utf16)) := by
  unfold bodyExpr
  split
  · next hempty =>
    rw [List.eq_nil_of_length_eq_zero hempty]
    exact .string rfl
  · have hargs : Args E.toEngine (bodyScope E σ payload v) [.string (base64Encode payload),
        .string (.lit "rawstd"), .string (.lit "s")]
        [.string (GoString.utf16 (base64Encode payload)),
          .string (GoString.utf16 (.lit "rawstd")), .string (GoString.utf16 (.lit "s"))] :=
      .cons (.string (literalValue_base64Encode payload))
        (.cons (.string (by decide)) (.cons (.string (by decide)) .nil))
    have hdecode := E.b64decode (GoString.utf16 (base64Encode payload)) payload (by
      rw [utf16_base64Encode, base64Decode_base64Encode])
    have hcall : Returns E.toEngine (.native (.lit "encoding.b64decode"))
        [.string (GoString.utf16 (base64Encode payload)),
          .string (GoString.utf16 (.lit "rawstd")), .string (GoString.utf16 (.lit "s"))]
        (.ok (.string payload.utf16)) := by
      rw [← hdecode]
      exact .native (by decide) _
    exact .method (.ident rfl) hargs (.object rfl hcall)

private theorem literalValue_wrap {n : GoString} (hn : byteMarks.IsName n) :
    literalValue (byteMarks.wrap n) = some (unitMarks.wrap n.utf16) := by
  have hplain : ∀ b ∈ byteMarks.wrap n, b < 0x80 ∧ b ≠ byte '\\' := by
    intro b hb
    refine ⟨ascii_byteMarks.wrap hn b hb, ?_⟩
    rcases List.mem_cons.mp hb with rfl | hb
    · decide
    rcases List.mem_cons.mp hb with rfl | hb
    · decide
    rcases List.mem_append.mp hb with hb | hb
    · exact (isNameByte_plain b (hn.2 b hb)).2.2.2
    · rw [List.mem_singleton.mp hb]
      decide
  have hunits := ascii_byteMarks.utf16_wrap_append hn []
  rw [List.append_nil] at hunits
  rw [literalValue_plain hplain, hunits]
  exact congrArg some (List.append_nil _)

private theorem yields_replace {payload n : GoString} (hn : n ∈ bodyVariables payload)
    (s : JSString) :
    Yields E.toEngine (bodyScope E σ payload (.string s))
      (.call (.member (.var "body") (.lit "replaceAll"))
        [.string (byteMarks.wrap n), variableExpr n])
      (.ok (.string (bodyRound σ s n.utf16))) := by
  have hname := isName_of_mem_bodyVariables hn
  have hargs : Args E.toEngine (bodyScope E σ payload (.string s))
      [.string (byteMarks.wrap n), variableExpr n]
      [.string (unitMarks.wrap n.utf16), .string (σ n.utf16)] :=
    .cons (.string (literalValue_wrap hname))
      (.cons (yields_variableExpr (σ := fun n ↦ .string (σ n)) rfl
        (plainText_of_isName hname) (mem_names_of_mem_bodyVariables hn)) .nil)
  have hmethod : stringMethod E.toEngine s (.lit "replaceAll")
      [.string (unitMarks.wrap n.utf16), .string (σ n.utf16)] =
      .ok (.string (bodyRound σ s n.utf16)) := by
    rw [stringMethod, if_pos ⟨rfl, List.cons_ne_nil _ _⟩]
    rfl
  have hcall := Invokes.string (E := E.toEngine) (x := .lit "replaceAll") s
    [.string (unitMarks.wrap n.utf16), .string (σ n.utf16)]
  rw [hmethod] at hcall
  exact .method (.ident rfl) hargs hcall

private theorem executes_replaceStmts {payload : GoString} {names : List GoString}
    (h : ∀ n ∈ names, n ∈ bodyVariables payload) (s : JSString) :
    Executes E.toEngine (bodyScope E σ payload (.string s)) (names.map replaceStmt)
      (.ok (bodyScope E σ payload
        (.string ((names.map GoString.utf16).foldl (bodyRound σ) s)), none)) := by
  induction names generalizing s with
  | nil => exact .nil
  | cons n names ih =>
    exact .assign (yields_replace (h n List.mem_cons_self) s) rfl
      (ih (List.forall_mem_cons.mp h).2 _)

/-- The body after the first statement and those for the first `k` variables. -/
theorem executes_bodyProgram (payload : GoString) (k : Nat) (v : Value E.Num) :
    Executes E.toEngine (bodyScope E σ payload v) ((bodyProgram payload).take (k + 1))
      (.ok (bodyScope E σ payload (.string
        ((((bodyVariables payload).take k).map GoString.utf16).foldl (bodyRound σ)
          payload.utf16)), none)) := by
  rw [bodyProgram, List.take_succ_cons, ← List.map_take]
  exact .assign (yields_bodyExpr payload v) rfl
    (executes_replaceStmts (fun n hn ↦ List.mem_of_mem_take hn) _)

variable (E σ)

/-- The names of the variables, in the order of their statements. -/
def bodyNames (payload : GoString) : List JSString := (bodyVariables payload).map GoString.utf16

/-- The body before the statement at `k`. -/
def bodyAt (payload : GoString) (k : Nat) : JSString :=
  ((bodyNames payload).take k).foldl (bodyRound σ) payload.utf16

/-- After the first statement and `k` more the script has this text as the body. -/
def BodyAfter (body : HttpRequestBody) (k : Nat) (b : JSString) : Prop :=
  ∃ program env, parseProgram (text (bodyScript body)) = some program ∧
    Executes E.toEngine (bodyScope E σ body.payload .undefined) (program.take (k + 1))
      (.ok (env, none)) ∧
    env.lookup (.lit "body") = some (.string b)

/-- At its end the script has the payload with all placeholders replaced at once as the body. -/
def InterpolatesBody (body : HttpRequestBody) : Prop :=
  ∃ program env, parseProgram (text (bodyScript body)) = some program ∧
    Executes E.toEngine (bodyScope E σ body.payload .undefined) program (.ok (env, none)) ∧
    env.lookup (.lit "body") = some (.string (unitMarks.subst σ body.payload.utf16))

/-- The payload with the placeholders of the first `k` variables replaced at once. -/
def replacedFirst (payload : GoString) (k : Nat) : JSString :=
  unitMarks.subst (unitMarks.filled (fun n ↦ some (σ n)) ((bodyNames payload).take k))
    payload.utf16

/-- At every placeholder of `n` in the body before the statement at `k`, the value of `n` stands
for itself as a replacement. -/
def StatementVerbatim (payload : GoString) (k : Nat) (n : JSString) : Prop :=
  ∀ before after, bodyAt σ payload k = before ++ (unitMarks.wrap n ++ after) →
    expandTemplate before (unitMarks.wrap n) after (σ n) = σ n

/-- The body before the statement at `k` has as many placeholders of `n` as the payload; or the
value of `n` is its own placeholder. -/
def StatementClear (payload : GoString) (k : Nat) (n : JSString) : Prop :=
  σ n = unitMarks.wrap n ∨
    (unitMarks.names (bodyAt σ payload k)).count n = (unitMarks.names payload.utf16).count n

variable {E σ}

private theorem bodyAfter_iff (body : HttpRequestBody) (k : Nat) (b : JSString) :
    BodyAfter E σ body k b ↔ bodyAt σ body.payload k = b := by
  have hparse := parseProgram_bodyScript body
  have hexec := executes_bodyProgram (E := E) (σ := σ) body.payload k .undefined
  rw [List.map_take] at hexec
  constructor
  · rintro ⟨program, env, hprogram, henv, hlookup⟩
    obtain rfl := Option.some.inj (hparse.symm.trans hprogram)
    obtain ⟨rfl, -⟩ := Prod.mk.inj (Except.ok.inj (hexec.unique henv))
    exact Value.string.inj (Option.some.inj hlookup)
  · rintro rfl
    exact ⟨_, _, hparse, hexec, rfl⟩

private theorem interpolatesBody_iff (body : HttpRequestBody) :
    InterpolatesBody E σ body ↔
      bodyAt σ body.payload (bodyNames body.payload).length =
        unitMarks.subst σ body.payload.utf16 := by
  have htake : (bodyProgram body.payload).take ((bodyNames body.payload).length + 1) =
      bodyProgram body.payload := by
    apply List.take_of_length_le
    simp [bodyProgram, bodyNames]
  have hparse := parseProgram_bodyScript body
  rw [← bodyAfter_iff (E := E)]
  constructor
  · rintro ⟨program, env, hprogram, h⟩
    obtain rfl := Option.some.inj (hparse.symm.trans hprogram)
    exact ⟨_, env, hprogram, by rwa [htake]⟩
  · rintro ⟨program, env, hprogram, h⟩
    obtain rfl := Option.some.inj (hparse.symm.trans hprogram)
    exact ⟨_, env, hprogram, by rwa [htake] at h⟩

end Program

/-! ### Names of the statements -/

private theorem nodup_eraseDups (l : List GoString) : l.eraseDups.Nodup := by
  induction hlen : l.length using Nat.strong_induction_on generalizing l with
  | _ len ih =>
    cases l with
    | nil => exact List.nodup_nil
    | cons a l =>
      rw [List.eraseDups_cons, List.nodup_cons]
      have hlt : (l.filter fun b ↦ !b == a).length < len := by
        rw [← hlen]
        exact Nat.lt_succ_of_le (List.length_filter_le _ l)
      exact ⟨by simp [List.mem_eraseDups], ih _ hlt _ rfl⟩

private theorem isName_of_mem_bodyNames {payload : GoString} {n : JSString}
    (h : n ∈ bodyNames payload) : unitMarks.IsName n := by
  obtain ⟨k, hk, rfl⟩ := List.mem_map.mp h
  exact ascii_byteMarks.isName_utf16 (isName_of_mem_bodyVariables hk)

private theorem mem_bodyNames {payload : GoString} {n : JSString} :
    n ∈ bodyNames payload ↔ n ∈ unitMarks.names payload.utf16 := by
  rw [ascii_byteMarks.names_utf16 (cut_userVariables payload), bodyNames, bodyVariables,
    List.mem_map]
  simp only [List.mem_eraseDups, List.mem_map]
  constructor
  · rintro ⟨k, ⟨loc, hloc, rfl⟩, rfl⟩
    exact ⟨loc, hloc, rfl⟩
  · rintro ⟨loc, hloc, rfl⟩
    exact ⟨loc.2, ⟨loc, hloc, rfl⟩, rfl⟩

private theorem nodup_bodyNames (payload : GoString) : (bodyNames payload).Nodup := by
  apply List.Nodup.map_on _ (nodup_eraseDups _)
  intro n hn k hk heq
  rw [ascii_byteMarks.utf16_name (isName_of_mem_bodyVariables hn),
    ascii_byteMarks.utf16_name (isName_of_mem_bodyVariables hk)] at heq
  exact List.map_injective_iff.mpr toUInt16_injective heq

/-! ### Statements and replacements -/

section Statements
variable {σ : JSString → JSString} {payload : GoString} {k : Nat} {n : JSString}

private theorem replaceAll_wrap {n v w s : JSString} (hn : unitMarks.IsName n)
    (h : ∀ b a, s = b ++ (unitMarks.wrap n ++ a) → expandTemplate b (unitMarks.wrap n) a v = w) :
    replaceAll s (unitMarks.wrap n) v = unitMarks.replace n w s := by
  rw [replaceAll_eq h]
  exact unitMarks.eq_replace hn (f := replaceWith (unitMarks.wrap n) w 0) rfl
    (replaceWith_append (List.cons_ne_nil _ _) w) (fun _ _ h ↦ replaceWith_cons h w) s

private theorem bodyAt_succ (h : (bodyNames payload)[k]? = some n) :
    bodyAt σ payload (k + 1) = bodyRound σ (bodyAt σ payload k) n := by
  rw [bodyAt, List.take_add_one, h, Option.toList_some, List.foldl_concat]
  rfl

section

variable (h : ∀ k n, (bodyNames payload)[k]? = some n → StatementVerbatim σ payload k n)
include h

private theorem bodyAt_eq_replaceEach (k : Nat) : bodyAt σ payload k =
    unitMarks.replaceEach (fun n ↦ some (σ n)) ((bodyNames payload).take k) payload.utf16 := by
  induction k with
  | zero => rfl
  | succ k ih =>
    cases hn : (bodyNames payload)[k]? with
    | none =>
      have htake : (bodyNames payload).take (k + 1) = (bodyNames payload).take k := by
        rw [List.take_add_one, hn, Option.toList_none, List.append_nil]
      rw [bodyAt, htake]
      exact ih
    | some n =>
      have hname := isName_of_mem_bodyNames (List.mem_of_getElem? hn)
      rw [bodyAt_succ hn, bodyRound, replaceAll_wrap hname (h k n hn), List.take_add_one, hn,
        Option.toList_some, unitMarks.replaceEach_concat, ← ih]
      rfl

private theorem statementClear_iff (hn : (bodyNames payload)[k]? = some n) :
    StatementClear σ payload k n ↔
      unitMarks.Clear (fun n ↦ some (σ n)) payload.utf16 ((bodyNames payload).take k) n := by
  have hnotMem : n ∉ (bodyNames payload).take k := by
    have hnodup := (nodup_bodyNames payload).sublist (List.take_sublist (k + 1) _)
    rw [List.take_add_one, hn, Option.toList_some, List.nodup_append] at hnodup
    exact fun hmem ↦ hnodup.2.2 n hmem n List.mem_cons_self rfl
  rw [StatementClear, Marks.Clear, bodyAt_eq_replaceEach h, if_neg hnotMem, Marks.count_names,
    Marks.count_names]
  simp only [Option.some.injEq, forall_eq']

private theorem bodyAt_iff :
    (∀ k, bodyAt σ payload k = replacedFirst σ payload k) ↔
      ∀ k n, (bodyNames payload)[k]? = some n → StatementClear σ payload k n := by
  have hnames : ∀ n ∈ bodyNames payload, unitMarks.IsName n :=
    fun n hn ↦ isName_of_mem_bodyNames hn
  have hlib := unitMarks.replaceEach_iff (fun n ↦ some (σ n)) hnames payload.utf16
  constructor
  · intro hright k n hn
    rw [statementClear_iff h hn]
    apply hlib.mp
    · intro done hpre
      rw [List.prefix_iff_eq_take.mp hpre, ← bodyAt_eq_replaceEach h]
      exact hright done.length
    · have := List.take_prefix (k + 1) (bodyNames payload)
      rwa [List.take_add_one, hn] at this
  · intro hclear k
    rw [bodyAt_eq_replaceEach h]
    refine hlib.mpr (fun done n hpre ↦ ?_) _ (List.take_prefix k _)
    have hdone := List.prefix_iff_eq_take.mp ((List.prefix_append done [n]).trans hpre)
    have hn : (bodyNames payload)[done.length]? = some n := by
      obtain ⟨after, hafter⟩ := hpre
      rw [← hafter, List.append_assoc, List.getElem?_append_right (Nat.le_refl _), Nat.sub_self]
      rfl
    rw [hdone]
    exact (statementClear_iff h hn).mp (hclear done.length n hn)

end

private theorem replacedFirst_length (payload : GoString) :
    replacedFirst σ payload (bodyNames payload).length = unitMarks.subst σ payload.utf16 := by
  rw [replacedFirst, List.take_length]
  exact unitMarks.subst_filled_names _ fun n hn ↦ mem_bodyNames.mpr hn

/-! ### A value that goes wrong -/

private theorem expandTemplate_of_notMem {t : JSString} (h : 0x24 ∉ t) (b m a : JSString) :
    expandTemplate b m a t = t := by
  induction t with
  | nil => rfl
  | cons u t ih =>
    have hu : u ≠ 0x24 := fun hu ↦ h (hu ▸ List.mem_cons_self)
    rw [expandTemplate, ih fun ht ↦ h (List.mem_cons_of_mem _ ht)]
    · exact fun _ hu' _ ↦ hu hu'
    · exact fun _ hu' _ ↦ hu hu'
    · exact fun _ hu' _ ↦ hu hu'
    · exact fun _ hu' _ ↦ hu hu'

private theorem bodyRound_wrap {n : JSString} (hn : unitMarks.IsName n)
    (hσ : σ n = unitMarks.wrap n) (s : JSString) : bodyRound σ s n = s := by
  rw [bodyRound, hσ, replaceAll_wrap hn (w := unitMarks.wrap n), unitMarks.replace_wrap]
  intro b a _
  have htail : 0x24 ∉ unitMarks.opening :: (n ++ [unitMarks.closing]) :=
    unitMarks.barrier_mark.notMem_tail_wrap hn
  show 0x24 :: expandTemplate b _ a (unitMarks.opening :: (n ++ [unitMarks.closing])) = _
  rw [expandTemplate_of_notMem htail]
  rfl

/-- One variable has two dollar signs as its value, the others their own placeholders. -/
def twoDollars (n : JSString) : JSString → JSString :=
  Function.update unitMarks.wrap n [0x24, 0x24]

private theorem bodyRound_twoDollars {n : JSString} (hn : unitMarks.IsName n) (s : JSString) :
    bodyRound (twoDollars n) s n = unitMarks.replace n [0x24] s := by
  rw [bodyRound, twoDollars, Function.update_self]
  exact replaceAll_wrap hn fun _ _ _ ↦ rfl

private theorem foldl_bodyRound_wrap {names : List JSString}
    (h : ∀ n ∈ names, unitMarks.IsName n ∧ σ n = unitMarks.wrap n) (s : JSString) :
    names.foldl (bodyRound σ) s = s := by
  induction names with
  | nil => rfl
  | cons n names ih =>
    have ⟨hn, hσ⟩ := h n List.mem_cons_self
    rw [List.foldl_cons, bodyRound_wrap hn hσ, ih (List.forall_mem_cons.mp h).2]

end Statements

/-- For every body: the script replaces all placeholders at once, whatever the values are, exactly
when the payload names no variable. If every value stands for itself where it is inserted, the
body is right at every point exactly when every statement is clear; and then it is right at the
end. -/
theorem interpolatesBody_iff_no_variables (E : BodyEngine) (body : HttpRequestBody) :
    ((∀ σ, InterpolatesBody E σ body) ↔ bodyVariables body.payload = []) ∧
    ∀ σ, (∀ k n, (bodyNames body.payload)[k]? = some n → StatementVerbatim σ body.payload k n) →
      ((∀ k, BodyAfter E σ body k (replacedFirst σ body.payload k)) ↔
        ∀ k n, (bodyNames body.payload)[k]? = some n → StatementClear σ body.payload k n) ∧
      ((∀ k n, (bodyNames body.payload)[k]? = some n → StatementClear σ body.payload k n) →
        InterpolatesBody E σ body) := by
  refine ⟨⟨fun h ↦ ?_, fun h σ ↦ ?_⟩, fun σ hverbatim ↦ ⟨?_, fun hclear ↦ ?_⟩⟩
  · -- the first variable gets two dollar signs, the others their own placeholders
    cases hnames : bodyNames body.payload with
    | nil => exact List.map_eq_nil_iff.mp hnames
    | cons n names =>
      have hmem : ∀ k ∈ n :: names, unitMarks.IsName k := by
        rw [← hnames]
        exact fun k hk ↦ isName_of_mem_bodyNames hk
      have hnodup := nodup_bodyNames body.payload
      rw [hnames, List.nodup_cons] at hnodup
      have hothers : ∀ k ∈ names, unitMarks.IsName k ∧ twoDollars n k = unitMarks.wrap k :=
        fun k hk ↦ ⟨hmem k (List.mem_cons_of_mem _ hk),
          Function.update_of_ne (fun heq : k = n ↦ hnodup.1 (heq ▸ hk)) _ _⟩
      have hright := (interpolatesBody_iff body).mp (h (twoDollars n))
      rw [bodyAt, List.take_length, hnames, List.foldl_cons, foldl_bodyRound_wrap hothers,
        bodyRound_twoDollars (hmem n List.mem_cons_self)] at hright
      rcases (unitMarks.replace_eq_replace_iff n _ _ _).mp hright with heq | hnot
      · cases heq
      · exact absurd (unitMarks.mem_names.mp (mem_bodyNames.mp (by rw [hnames]; simp))) hnot
  · have hnames : bodyNames body.payload = [] := by
      rw [bodyNames, h]
      rfl
    have hparts : unitMarks.parts body.payload.utf16 = body.payload.utf16.map .letter :=
      unitMarks.parts_eq_letters fun n hn ↦ by
        have := mem_bodyNames.mpr (unitMarks.mem_names.mpr hn)
        rw [hnames] at this
        exact List.not_mem_nil this
    rw [interpolatesBody_iff, unitMarks.subst_letters hparts, bodyAt, hnames]
    rfl
  · simp only [bodyAfter_iff]
    exact bodyAt_iff hverbatim
  · rw [interpolatesBody_iff, (bodyAt_iff hverbatim).mpr hclear, replacedFirst_length]

/-- The host function of `base64Engine`. -/
def decodeNative (args : List (Value Nat)) : Except Error (Value Nat) :=
  match args with
  | [.string data, _, _] =>
    match base64Decode data with
    | some bytes => .ok (.string bytes.utf16)
    | none => .error .type
  | _ => .error .unsupported

/-- An engine with natural numbers and a host that decodes base64. -/
def base64Engine : BodyEngine where
  toNumbers := .nat
  lower s := s
  native _ args := decodeNative args
  b64decode data bytes h := by
    show decodeNative _ = _
    simp only [decodeNative, h]
    rfl

/-- Two values without dollar signs. -/
theorem interpolatesBody_plain :
    InterpolatesBody base64Engine (fun _ ↦ GoString.utf16 (.lit "x"))
      { payload := .lit "$\x7ba\x7d$\x7bb\x7d" } := by
  have hnames : bodyNames (.lit "$\x7ba\x7d$\x7bb\x7d") =
      [GoString.utf16 (.lit "a"), GoString.utf16 (.lit "b")] := by decide +kernel
  apply (((interpolatesBody_iff_no_variables base64Engine _).2 _ ?_).2 ?_)
  · intro k n _ before after _
    rfl
  · intro k n hk
    right
    rw [hnames] at hk
    rcases k with _ | _ | k
    · cases hk
      decide +kernel
    · cases hk
      decide +kernel
    · cases hk

/-- Dollar signs of a value are read as a replacement pattern, and placeholders of a value are
replaced in turn. -/
theorem body_values_reinterpreted :
    BodyAfter base64Engine (fun _ ↦ GoString.utf16 (.lit "$$"))
        { payload := .lit "$\x7ba\x7d" } 1 (GoString.utf16 (.lit "$")) ∧
      unitMarks.subst (fun _ ↦ GoString.utf16 (.lit "$$")) (GoString.utf16 (.lit "$\x7ba\x7d")) =
        GoString.utf16 (.lit "$$") ∧
      ¬ InterpolatesBody base64Engine (fun _ ↦ GoString.utf16 (.lit "$$"))
        { payload := .lit "$\x7ba\x7d" } ∧
      ¬ InterpolatesBody base64Engine
        (Function.update (fun _ ↦ GoString.utf16 (.lit "x")) (GoString.utf16 (.lit "a"))
          (GoString.utf16 (.lit "$\x7bb\x7d")))
        { payload := .lit "$\x7ba\x7d$\x7bb\x7d" } := by
  rw [bodyAfter_iff, interpolatesBody_iff, interpolatesBody_iff]
  decide +kernel

end SMAgent.Multihttp
