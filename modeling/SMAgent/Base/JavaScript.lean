import SMAgent.Base.GoString

/-!
# JavaScript source text

How JavaScript is read into tokens, byte by byte: words, punctuators, string literals and
template literals, with comments and white space between them. The token of a string literal
does not have its contents. A `/` that begins no comment is a punctuator; whether it divides or
begins a regular expression only a parser can tell.

A text may be put together from code and from data that is inserted into it. Data that is
inserted inside a string literal, and ends neither the literal nor in the middle of an escape,
leaves the tokens as they are without it.
-/

namespace SMAgent.Base.JavaScript
open GoString

/-! ### String literals -/

/-- Where the reader is inside a string literal. -/
inductive Escape where
  | normal
  /-- after a backslash -/
  | backslash
  /-- after a backslash and a carriage return, which a line feed may complete -/
  | cr
  /-- before so many more hexadecimal digits -/
  | hex (digits : Nat)
  /-- after a backslash and `u` -/
  | unicode
  /-- between the braces of a code point, with its value so far -/
  | codePoint (value : Option Nat)
  deriving DecidableEq, Repr

/-- The value of a hexadecimal digit. -/
def hexValue (b : UInt8) : Option Nat :=
  if byte '0' ≤ b ∧ b ≤ byte '9' then some (b.toNat - 48)
  else if byte 'A' ≤ b ∧ b ≤ byte 'F' then some (b.toNat - 55)
  else if byte 'a' ≤ b ∧ b ≤ byte 'f' then some (b.toNat - 87)
  else none

/-- One byte between the quotes of a string literal; `none` if it ends the literal or cannot
stand there. -/
def literalStep (quote : UInt8) (e : Escape) (b : UInt8) : Option Escape :=
  match e with
  | .normal => plain b
  | .cr => if b = byte '\n' then some .normal else plain b
  | .backslash =>
    if b = byte '\r' then some .cr
    else if b = byte 'x' then some (.hex 2)
    else if b = byte 'u' then some .unicode
    else some .normal
  | .hex digits => (hexValue b).map fun _ ↦ if digits ≤ 1 then .normal else .hex (digits - 1)
  | .unicode =>
    if b = byte '{' then some (.codePoint none) else (hexValue b).map fun _ ↦ .hex 3
  | .codePoint value =>
    if b = byte '}' then value.map fun _ ↦ .normal
    else ((hexValue b).map (value.getD 0 * 16 + ·)).bind fun v ↦
      if v ≤ 0x10ffff then some (.codePoint (some v)) else none
where
  /-- A byte that is not part of an escape. -/
  plain (b : UInt8) : Option Escape :=
    if b = quote ∨ b = byte '\n' ∨ b = byte '\r' then none
    else if b = byte '\\' then some .backslash
    else some .normal

/-- Text between the quotes of a string literal; `none` if the literal does not last to its
end. -/
def literal (quote : UInt8) (e : Escape) : GoString → Option Escape
  | [] => some e
  | b :: rest => (literalStep quote e b).bind fun e' ↦ literal quote e' rest

/-- A content is read piece by piece. -/
theorem literal_append (quote : UInt8) (e : Escape) (a b : GoString) :
    literal quote e (a ++ b) = (literal quote e a).bind fun e' ↦ literal quote e' b := by
  induction a generalizing e with
  | nil => rfl
  | cons c a ih =>
    rw [List.cons_append, literal, literal]
    cases literalStep quote e c with
    | none => rfl
    | some e' => exact ih e'

/-- Text without quotes, backslashes and line ends is part of the literal. -/
theorem literal_of_forall {quote : UInt8} {s : GoString}
    (h : ∀ b ∈ s, b ≠ quote ∧ b ≠ byte '\n' ∧ b ≠ byte '\r' ∧ b ≠ byte '\\') :
    literal quote .normal s = some .normal := by
  induction s with
  | nil => rfl
  | cons b s ih =>
    obtain ⟨hq, hn, hr, hb⟩ := h b List.mem_cons_self
    have hstep : literalStep quote .normal b = some .normal := by
      have hplain : ¬ (b = quote ∨ b = byte '\n' ∨ b = byte '\r') := by
        simp only [hq, hn, hr, or_self, not_false_eq_true]
      rw [literalStep, literalStep.plain, if_neg hplain, if_neg hb]
    rw [literal, hstep, Option.bind_some]
    exact ih fun b' hb' ↦ h b' (List.mem_cons_of_mem _ hb')

/-! ### Tokens -/

/-- A token. -/
inductive Token where
  /-- an identifier, a keyword or a number -/
  | word (text : GoString)
  | punctuator (text : GoString)
  /-- a string literal in these quotes -/
  | string (quote : UInt8)
  /-- a part of a template literal -/
  | template (text : GoString)
  deriving DecidableEq, Repr

/-- The punctuators of more than one byte. -/
def longPunctuators : List GoString :=
  ["...", "<=", ">=", "==", "!=", "===", "!==", "**", "++", "--", "<<", ">>", ">>>", "&&", "||",
    "??", "?.", "+=", "-=", "*=", "/=", "%=", "**=", "<<=", ">>=", ">>>=", "&=", "|=", "^=", "&&=",
    "||=", "??=", "=>"].map lit

/-- Bytes that words are made of. -/
def isWord (b : UInt8) : Bool :=
  (byte 'a' ≤ b && b ≤ byte 'z') || (byte 'A' ≤ b && b ≤ byte 'Z') ||
    (byte '0' ≤ b && b ≤ byte '9') || b == byte '_' || b == byte '$' || 0x80 ≤ b

/-- White space of one byte. -/
def isSpace (b : UInt8) : Bool := b == byte ' ' || (0x09 ≤ b && b ≤ 0x0d)

/-- The text has a punctuator that goes on after it. -/
def goesOn (text : GoString) : Bool :=
  longPunctuators.any fun p ↦ text.isPrefixOf p && text.length < p.length

/-- What the reader is inside of. -/
inductive Mode where
  /-- code, with the token that is not over yet -/
  | code (pending : GoString)
  /-- after a `/` that may begin a comment -/
  | slash
  | lineComment
  | blockComment
  /-- after a `*` in a comment -/
  | star
  | string (quote : UInt8) (e : Escape)
  /-- a template literal, with its text so far -/
  | template (text : GoString)
  /-- after a backslash in a template literal -/
  | templateEscape (text : GoString)
  /-- after a `$` in a template literal -/
  | templateDollar (text : GoString)
  /-- after what no token begins with -/
  | error
  deriving DecidableEq, Repr

/-- The reader: what it is inside of and, for each substitution of a template literal around it,
the number of braces open in it. -/
structure Reader where
  mode : Mode := .code []
  braces : List Nat := []
  deriving DecidableEq, Repr

/-- A token is over. -/
def flush : GoString → List Token
  | [] => []
  | b :: rest => if isWord b then [.word (b :: rest)] else [.punctuator (b :: rest)]

/-- A byte of a punctuator; one that does not go on is over at once. -/
def punctuate (braces : List Nat) (text : GoString) : Reader × List Token :=
  if goesOn text then (⟨.code text, braces⟩, []) else (⟨.code [], braces⟩, [.punctuator text])

/-- A brace, which may end the substitution that the code is in. -/
def braceStep (braces : List Nat) (b : UInt8) : Reader × List Token :=
  match braces with
  | [] => (⟨.code [], []⟩, [.punctuator [b]])
  | n :: outer =>
    if b = byte '{' then (⟨.code [], (n + 1) :: outer⟩, [.punctuator [b]])
    else match n with
      | 0 => (⟨.template [b], outer⟩, [])
      | n + 1 => (⟨.code [], n :: outer⟩, [.punctuator [b]])

/-- One byte of the code. -/
def codeStep (pending : GoString) (braces : List Nat) (b : UInt8) : Reader × List Token :=
  if isWord b then
    if pending.head?.any isWord then (⟨.code (pending ++ [b]), braces⟩, [])
    else (⟨.code [b], braces⟩, flush pending)
  else if isSpace b then (⟨.code [], braces⟩, flush pending)
  else if b = byte '"' ∨ b = byte '\'' then (⟨.string b .normal, braces⟩, flush pending)
  else if b = byte '/' then (⟨.slash, braces⟩, flush pending)
  else if b = byte '`' then (⟨.template [b], braces⟩, flush pending)
  else if b = byte '{' ∨ b = byte '}' then
    ((braceStep braces b).1, flush pending ++ (braceStep braces b).2)
  else if pending ≠ [] ∧ (goesOn (pending ++ [b]) ∨ longPunctuators.contains (pending ++ [b])) then
    punctuate braces (pending ++ [b])
  else ((punctuate braces [b]).1, flush pending ++ (punctuate braces [b]).2)

/-- One byte of a template literal. -/
def templateStep (text : GoString) (braces : List Nat) (b : UInt8) : Reader × List Token :=
  if b = byte '`' then (⟨.code [], braces⟩, [.template (text ++ [b])])
  else if b = byte '\\' then (⟨.templateEscape (text ++ [b]), braces⟩, [])
  else if b = byte '$' then (⟨.templateDollar (text ++ [b]), braces⟩, [])
  else (⟨.template (text ++ [b]), braces⟩, [])

/-- One byte. -/
def step (r : Reader) (b : UInt8) : Reader × List Token :=
  match r.mode with
  | .code pending => codeStep pending r.braces b
  | .slash =>
    if b = byte '/' then (⟨.lineComment, r.braces⟩, [])
    else if b = byte '*' then (⟨.blockComment, r.braces⟩, [])
    else codeStep [byte '/'] r.braces b
  | .lineComment =>
    (if b = byte '\n' ∨ b = byte '\r' then ⟨.code [], r.braces⟩ else r, [])
  | .blockComment => (if b = byte '*' then ⟨.star, r.braces⟩ else r, [])
  | .star =>
    (if b = byte '/' then ⟨.code [], r.braces⟩
      else if b = byte '*' then r else ⟨.blockComment, r.braces⟩, [])
  | .string quote e =>
    match literalStep quote e b with
    | some e' => (⟨.string quote e', r.braces⟩, [])
    | none =>
      if b = quote ∧ (e = .normal ∨ e = .cr) then (⟨.code [], r.braces⟩, [.string quote])
      else (⟨.error, r.braces⟩, [])
  | .template text => templateStep text r.braces b
  | .templateEscape text => (⟨.template (text ++ [b]), r.braces⟩, [])
  | .templateDollar text =>
    if b = byte '{' then (⟨.code [], 0 :: r.braces⟩, [.template (text ++ [b])])
    else templateStep text r.braces b
  | .error => (r, [])

/-- A text: where the reader is after it, and the tokens that are over. -/
def read (r : Reader) : GoString → Reader × List Token
  | [] => (r, [])
  | b :: rest => ((read (step r b).1 rest).1, (step r b).2 ++ (read (step r b).1 rest).2)

/-- The tokens of a text; `none` if it cannot be read, or ends inside a literal or a comment. -/
def tokens (text : GoString) : Option (List Token) :=
  match read {} text with
  | (⟨.code pending, []⟩, ts) => some (ts ++ flush pending)
  | (⟨.slash, []⟩, ts) => some (ts ++ [.punctuator (lit "/")])
  | (⟨.lineComment, []⟩, ts) => some ts
  | _ => none

/-- A text is read piece by piece. -/
theorem read_append (r : Reader) (a b : GoString) :
    read r (a ++ b) = ((read (read r a).1 b).1, (read r a).2 ++ (read (read r a).1 b).2) := by
  induction a generalizing r with
  | nil => rfl
  | cons c a ih =>
    rw [List.cons_append, read, ih]
    simp only [read, List.append_assoc]

/-- Inside a string literal nothing is over before the literal is. -/
theorem read_literal {quote : UInt8} {e e' : Escape} {braces : List Nat} {s : GoString}
    (h : literal quote e s = some e') :
    read ⟨.string quote e, braces⟩ s = (⟨.string quote e', braces⟩, []) := by
  induction s generalizing e with
  | nil =>
    cases h
    rfl
  | cons b s ih =>
    rw [literal] at h
    obtain ⟨e₁, h₁, h₂⟩ := Option.bind_eq_some_iff.mp h
    have hstep : step ⟨.string quote e, braces⟩ b = (⟨.string quote e₁, braces⟩, []) := by
      simp only [step, h₁]
    rw [read, hstep, ih h₂]
    rfl

/-! ### Code with data inserted -/

/-- A part of a text. -/
inductive Piece where
  | code (text : GoString)
  | data (text : GoString)
  deriving DecidableEq, Repr

/-- The bytes of a part. -/
def Piece.bytes : Piece → GoString
  | .code text => text
  | .data text => text

/-- The text of its parts. -/
def text (ps : List Piece) : GoString := ps.flatMap Piece.bytes

/-- The part without the data. -/
def Piece.blank : Piece → Piece
  | .code text => .code text
  | .data _ => .data []

/-- The parts without the data. -/
def blank (ps : List Piece) : List Piece := ps.map Piece.blank

/-- Where the reader is after the code, if the data is left out. -/
def after (r : Reader) : List Piece → Reader
  | [] => r
  | .code text :: ps => after (read r text).1 ps
  | .data _ :: ps => after r ps

/-- Data is the content of a string literal, in full escapes: what follows, which begins with
`next`, does not complete an escape that the data began. -/
def Content (quote : UInt8) (data : GoString) (next : Option UInt8) : Prop :=
  literal quote .normal data = some .normal ∨
    (literal quote .normal data = some .cr ∧ ∃ b, next = some b ∧ b ≠ byte '\n')

/-- Every piece of data is content of a string literal. -/
def Confined (r : Reader) (rest : GoString) : List Piece → Prop
  | [] => True
  | .code text :: ps => Confined (read r text).1 rest ps
  | .data data :: ps =>
    (∃ quote, r.mode = .string quote .normal ∧ Content quote data (text ps ++ rest).head?) ∧
      Confined r rest ps

/-- The text of two lists of pieces. -/
theorem text_append (ps qs : List Piece) : text (ps ++ qs) = text ps ++ text qs :=
  List.flatMap_append

private theorem after_append (r : Reader) (ps qs : List Piece) :
    after r (ps ++ qs) = after (after r ps) qs := by
  induction ps generalizing r with
  | nil => rfl
  | cons p ps ih =>
    cases p with
    | code text => exact ih _
    | data data => exact ih _

private theorem confined_append (r : Reader) (rest : GoString) (ps qs : List Piece) :
    Confined r rest (ps ++ qs) ↔
      Confined r (text qs ++ rest) ps ∧ Confined (after r ps) rest qs := by
  induction ps generalizing r with
  | nil => exact (and_iff_right trivial).symm
  | cons p ps ih =>
    cases p with
    | code text => exact ih _
    | data data =>
      rw [List.cons_append, Confined, Confined, ih, text_append, List.append_assoc, and_assoc]
      rfl

/-- What follows the content of a literal is read as if the literal had not that content. -/
theorem read_content {quote : UInt8} {braces : List Nat} {data rest : GoString}
    (h : Content quote data rest.head?) :
    read ⟨.string quote .normal, braces⟩ (data ++ rest) =
      read ⟨.string quote .normal, braces⟩ rest := by
  rcases h with h | ⟨h, b, hb, hne⟩
  · rw [read_append, read_literal h]
    rfl
  · rw [read_append, read_literal h]
    obtain ⟨rest', rfl⟩ : ∃ rest', rest = b :: rest' := by
      cases rest with
      | nil => cases hb
      | cons c rest' =>
        cases hb
        exact ⟨rest', rfl⟩
    -- after the carriage return only a line feed is read in another way
    have hstep : step ⟨.string quote .cr, braces⟩ b = step ⟨.string quote .normal, braces⟩ b := by
      have hlit : literalStep quote .cr b = literalStep quote .normal b := if_neg hne
      simp only [step, hlit, or_true, true_or, reduceCtorEq]
    rw [read, read, hstep]
    rfl

/-- Confined data leaves everything else as it is. -/
theorem read_blank {r : Reader} {ps : List Piece} {rest : GoString} (h : Confined r rest ps) :
    read r (text ps ++ rest) = read r (text (blank ps) ++ rest) := by
  induction ps generalizing r with
  | nil => rfl
  | cons p ps ih =>
    cases p with
    | code c =>
      have htext (qs : List Piece) : text (.code c :: qs) ++ rest = c ++ (text qs ++ rest) :=
        List.append_assoc _ _ _
      rw [blank, List.map_cons, Piece.blank, htext, htext, read_append r c, read_append r c,
        ih h, blank]
    | data d =>
      obtain ⟨⟨quote, hmode, hcontent⟩, hps⟩ := h
      obtain ⟨mode, braces⟩ := r
      obtain rfl : mode = .string quote .normal := hmode
      have htext : text (.data d :: ps) ++ rest = d ++ (text ps ++ rest) :=
        List.append_assoc _ _ _
      have hblank : text (blank (.data d :: ps)) ++ rest = text (blank ps) ++ rest := rfl
      rw [htext, hblank, read_content hcontent, ih hps]

/-- The tokens that are over at the end of a text are its first ones. -/
theorem read_prefix_tokens {s : GoString} {ts : List Token} (h : tokens s = some ts) :
    (read {} s).2 <+: ts := by
  unfold tokens at h
  split at h
  · next heq =>
    cases h
    rw [heq]
    exact List.prefix_append _ _
  · next heq =>
    cases h
    rw [heq]
    exact List.prefix_append _ _
  · next heq =>
    cases h
    rw [heq]
  · cases h

/-! ### Parts that differ in the data only -/

/-- Data is left out piece by piece. -/
theorem blank_append (ps qs : List Piece) : blank (ps ++ qs) = blank ps ++ blank qs :=
  List.map_append

/-- Parts written for each element depend on what the elements have in common. -/
theorem blank_flatMap_eq {α β : Type*} {f : α → List Piece} {g : α → β} {l l' : List α}
    (hf : ∀ a a', g a = g a' → blank (f a) = blank (f a')) (h : l.map g = l'.map g) :
    blank (l.flatMap f) = blank (l'.flatMap f) := by
  induction l generalizing l' with
  | nil =>
    cases l' with
    | nil => rfl
    | cons _ _ => cases h
  | cons a l ih =>
    cases l' with
    | nil => cases h
    | cons a' l' =>
      rw [List.map_cons, List.map_cons, List.cons.injEq] at h
      rw [List.flatMap_cons, List.flatMap_cons, blank_append, blank_append, hf a a' h.1, ih h.2]

private theorem read_text_blank (r : Reader) (ps : List Piece) :
    (read r (text (blank ps))).1 = after r ps := by
  induction ps generalizing r with
  | nil => rfl
  | cons p ps ih =>
    cases p with
    | code c =>
      have htext : text (blank (.code c :: ps)) = c ++ text (blank ps) := rfl
      rw [htext, read_append, ih]
      rfl
    | data d => exact ih r

/-! ### Rules -/

/-- Without their data the parts are read from `r` to `r'`, and the data is confined exactly
if `P`, whatever follows. -/
structure ReadsIf (P : Prop) (r : Reader) (ps : List Piece) (r' : Reader) : Prop where
  confined_iff : ∀ rest, Confined r rest ps ↔ P
  after_eq : after r ps = r'

/-- The data is confined in any case. -/
abbrev Reads (r : Reader) (ps : List Piece) (r' : Reader) : Prop := ReadsIf True r ps r'

/-- The data is content of a literal, but for a line feed that may follow. -/
def Ends (quote : UInt8) (d : GoString) : Prop :=
  literal quote .normal d = some .normal ∨ literal quote .normal d = some .cr

instance (quote : UInt8) (d : GoString) : Decidable (Ends quote d) :=
  inferInstanceAs (Decidable (_ ∨ _))

namespace ReadsIf

variable {P Q : Prop} {r r' r'' : Reader} {ps qs : List Piece} {quote : UInt8} {braces : List Nat}

/-- Nothing is read. -/
theorem nil : Reads r [] r := ⟨fun _ ↦ Iff.rfl, rfl⟩

/-- A condition that says the same. -/
theorem congr (h : ReadsIf P r ps r') (hPQ : P ↔ Q) : ReadsIf Q r ps r' :=
  ⟨fun rest ↦ (h.confined_iff rest).trans hPQ, h.after_eq⟩

/-- Where the reader is after the pieces. -/
theorem read_eq (h : ReadsIf P r ps r') (hP : P) : (read r (text ps)).1 = r' := by
  have hblank := read_blank ((h.confined_iff []).mpr hP)
  rw [List.append_nil, List.append_nil] at hblank
  rw [hblank, read_text_blank, h.after_eq]

/-- The tokens of parts that are read from code to code come before those of the rest. -/
theorem read_append (h : ReadsIf P {} ps {}) (hP : P) (qs : List Piece) :
    (read {} (text (ps ++ qs))).2 = (read {} (text ps)).2 ++ (read {} (text qs)).2 := by
  rw [text_append, JavaScript.read_append, h.read_eq hP]

/-- Nothing is left over at their end. -/
theorem tokens_eq (h : ReadsIf P {} ps {}) (hP : P) :
    tokens (text ps) = some (read {} (text ps)).2 := by
  have hend := h.read_eq hP
  unfold tokens
  generalize read {} (text ps) = result at hend
  obtain ⟨r, ts⟩ := result
  subst hend
  exact congrArg some (List.append_nil ts)

/-- Parts that differ in confined data only are read alike. -/
theorem read_eq_of_blank_eq (h : ReadsIf P r ps r') (hP : P) (h' : ReadsIf Q r qs r'') (hQ : Q)
    (hblank : blank ps = blank qs) : read r (text ps) = read r (text qs) := by
  have hps := read_blank ((h.confined_iff []).mpr hP)
  have hqs := read_blank ((h'.confined_iff []).mpr hQ)
  rw [List.append_nil, List.append_nil] at hps hqs
  rw [hps, hqs, hblank]

/-- Rule for code. -/
theorem code {c : GoString} (hc : (read r c).1 = r') (h : ReadsIf P r' ps r'') :
    ReadsIf P r (.code c :: ps) r'' := by
  subst hc
  exact ⟨h.confined_iff, h.after_eq⟩

/-- Rule for data that is safe in its literal. -/
theorem data {d : GoString} (hd : literal quote .normal d = some .normal)
    (h : ReadsIf P ⟨.string quote .normal, braces⟩ ps r') :
    ReadsIf P ⟨.string quote .normal, braces⟩ (.data d :: ps) r' :=
  ⟨fun rest ↦ (and_iff_right ⟨quote, rfl, .inl hd⟩).trans (h.confined_iff rest), h.after_eq⟩

/-- Data that may not be content, before code that does not begin with a line feed. -/
theorem data_code {d c : GoString} (hnext : c.head?.any (· != byte '\n') = true)
    (h : ReadsIf P ⟨.string quote .normal, braces⟩ (.code c :: ps) r') :
    ReadsIf (Ends quote d ∧ P) ⟨.string quote .normal, braces⟩ (.data d :: .code c :: ps) r' := by
  obtain ⟨b, c', rfl⟩ : ∃ b c', c = b :: c' := by
    cases c with
    | nil => cases hnext
    | cons b c' => exact ⟨b, c', rfl⟩
  have hne : b ≠ byte '\n' := bne_iff_ne.mp hnext
  have hhead (rest : GoString) : (text (.code (b :: c') :: ps) ++ rest).head? = some b := rfl
  refine ⟨fun rest ↦ and_congr ?_ (h.confined_iff rest), h.after_eq⟩
  rw [hhead]
  constructor
  · rintro ⟨q, hq, hd⟩
    cases hq
    exact hd.imp_right And.left
  · intro hd
    exact ⟨quote, rfl, hd.imp_right fun hcr ↦ ⟨hcr, b, rfl, hne⟩⟩

/-- Rule for pieces that follow each other. -/
theorem append (h : ReadsIf P r ps r') (h' : ReadsIf Q r' qs r'') :
    ReadsIf (P ∧ Q) r (ps ++ qs) r'' := by
  refine ⟨fun rest ↦ ?_, by rw [after_append, h.after_eq, h'.after_eq]⟩
  rw [confined_append, h.after_eq, h.confined_iff, h'.confined_iff]

/-- Rule for pieces in front that are always confined. -/
theorem prepend (h : Reads r ps r') (h' : ReadsIf P r' qs r'') : ReadsIf P r (ps ++ qs) r'' :=
  (h.append h').congr (and_iff_right trivial)

/-- A part that only the next one ends. -/
theorem prepend_snoc {p : Piece} (h : Reads r (ps ++ [p]) r') (h' : ReadsIf P r' qs r'') :
    ReadsIf P r (ps ++ p :: qs) r'' := by
  rw [← List.singleton_append, ← List.append_assoc]
  exact h.prepend h'

/-- Parts that are each read from `r` to `r`. -/
theorem flatMap {α : Type*} {f : α → List Piece} {l : List α} (h : ∀ a ∈ l, Reads r (f a) r) :
    Reads r (l.flatMap f) r := by
  induction l with
  | nil => exact nil
  | cons a l ih =>
    rw [List.flatMap_cons]
    exact (h a List.mem_cons_self).prepend (ih (List.forall_mem_cons.mp h).2)

end ReadsIf
end SMAgent.Base.JavaScript
