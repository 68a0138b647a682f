import SMAgent.Prober.Interpolation

/-!
# Secrets are inserted once and as they are

Without a variable provider the two loops of `Resolve` amount to one pass over the pieces of
the template: the names are checked first, then asked for in order, and each answer takes the
place of its placeholder. The indices always lie in the template, so no slice panics.
-/

namespace SMAgent.Prober
open SMAgent.Base SMAgent.Base.Delimited SMAgent.Model
open GoString (lit byte)

/-! ### Names -/

/-- A DNS subdomain name, by the rules of the page that `isValidSecretName` refers to: at most
253 characters, each a lowercase letter, a digit, `-` or `.`, with a letter or a digit at both
ends. -/
structure IsSubdomainName (name : GoString) : Prop where
  pos : 1 ≤ name.length
  le : name.length ≤ 253
  bytes : ∀ b ∈ name, isAlphanumeric b ∨ b = byte '-' ∨ b = byte '.'
  first : ∀ b, name.head? = some b → isAlphanumeric b
  last : ∀ b, name.getLast? = some b → isAlphanumeric b

private theorem isSecretNameByte_iff (b : UInt8) : isSecretNameByte b = true ↔
    isAlphanumeric b ∨ b = byte '-' ∨ b = byte '.' := by
  simp only [isSecretNameByte, Bool.or_eq_true, beq_iff_eq, or_assoc]

private theorem matchesSecretName_iff (b : UInt8) (rest : GoString) :
    matchesSecretName (b :: rest) = true ↔ (∀ x ∈ b :: rest, isSecretNameByte x = true) ∧
      isAlphanumeric b = true ∧ ∀ x, (b :: rest).getLast? = some x → isAlphanumeric x = true := by
  have hbyte {x : UInt8} (hx : isAlphanumeric x = true) : isSecretNameByte x = true :=
    (isSecretNameByte_iff x).mpr (.inl hx)
  rcases List.eq_nil_or_concat' rest with rfl | ⟨mid, last, rfl⟩
  · simp only [matchesSecretName, List.isEmpty_nil, Bool.true_or, Bool.and_true,
      List.mem_singleton, forall_eq, List.getLast?_singleton, Option.some.injEq, forall_eq']
    exact ⟨fun h ↦ ⟨hbyte h, h, h⟩, fun h ↦ h.2.1⟩
  · have hlast : (b :: (mid ++ [last])).getLast? = some last := by
      rw [← List.cons_append, List.getLast?_append, List.getLast?_singleton]
      rfl
    have hempty : (mid ++ [last]).isEmpty = false := by simp
    simp only [hlast, Option.some.injEq, forall_eq', matchesSecretName, hempty, Bool.false_or,
      List.dropLast_concat, List.getLast?_concat, Option.any_some, Bool.and_eq_true,
      List.all_eq_true, List.mem_cons, List.mem_append, List.not_mem_nil, or_false]
    constructor
    · rintro ⟨hb, hmid, hend⟩
      refine ⟨?_, hb, hend⟩
      rintro x (rfl | hx | rfl)
      · exact hbyte hb
      · exact hmid x hx
      · exact hbyte hend
    · rintro ⟨hall, hb, hend⟩
      exact ⟨hb, fun x hx ↦ hall x (.inr (.inl hx)), hend⟩

/-- The check accepts exactly the subdomain names. -/
theorem isValidSecretName_iff (name : GoString) :
    isValidSecretName name = true ↔ IsSubdomainName name := by
  unfold isValidSecretName
  cases name with
  | nil =>
    constructor
    · intro h
      cases h
    · intro h
      exact absurd h.pos (by decide)
  | cons b rest =>
    split
    · next hlen =>
      constructor
      · intro h
        cases h
      · intro h
        have := h.pos
        have := h.le
        omega
    · next hlen =>
      rw [matchesSecretName_iff]
      simp only [isSecretNameByte_iff]
      constructor
      · rintro ⟨hbytes, hfirst, hlast⟩
        exact ⟨by omega, by omega, hbytes, fun x hx ↦ Option.some.inj hx ▸ hfirst, hlast⟩
      · intro h
        exact ⟨h.bytes, h.first b rfl, h.last⟩

/-! ### The first loop -/

/-- A template cut at its placeholders: names with the texts before them. -/
abbrev Pieces := List (GoString × GoString)

/-- The template that has these pieces. -/
def template (pieces : Pieces) (tail : GoString) : GoString :=
  assemble (pieces.map fun p ↦ (p.1, wrap secretOpening secretClosing p.2)) tail

private theorem template_cons (text name : GoString) (pieces : Pieces) (tail : GoString) :
    template ((text, name) :: pieces) tail =
      text ++ (wrap secretOpening secretClosing name ++ template pieces tail) := rfl

/-- The matches in a template that begins at index `pos`. -/
def matchesAt : Nat → Pieces → List SecretMatch
  | _, [] => []
  | pos, (text, name) :: pieces =>
    let loc := Loc.at secretOpening (pos + text.length) name
    ⟨loc.start, loc.stop, name⟩ :: matchesAt loc.stop pieces

private theorem slice_name (front text name rest : GoString) :
    (front ++ (text ++ (wrap secretOpening secretClosing name ++ rest))).slice
      (Loc.at secretOpening (front.length + text.length) name).nameStart
      (Loc.at secretOpening (front.length + text.length) name).nameStop = .ok name := by
  have h := GoString.slice_append (front ++ text ++ secretOpening) name ([secretClosing] ++ rest)
  simp only [List.length_append, List.append_assoc] at h
  simp only [Loc.at, wrap, List.append_assoc]
  exact h

private theorem front_step (front text name rest : GoString) :
    front ++ (text ++ (wrap secretOpening secretClosing name ++ rest)) =
      (front ++ text ++ wrap secretOpening secretClosing name) ++ rest ∧
    (Loc.at secretOpening (front.length + text.length) name).stop =
      (front ++ text ++ wrap secretOpening secretClosing name).length := by
  constructor
  · simp only [List.append_assoc]
  · simp only [Loc.at, List.length_append, length_wrap]

private theorem secretMatches_eq (pieces : Pieces) (front tail : GoString)
    (found : List SecretMatch) :
    ((∀ p ∈ pieces, isValidSecretName p.2 = true) →
      secretMatches (front ++ template pieces tail) found
        (locs secretOpening front.length pieces) =
          .ok (.ok (found ++ matchesAt front.length pieces))) ∧
    ((∃ p ∈ pieces, isValidSecretName p.2 = false) →
      ∃ err, secretMatches (front ++ template pieces tail) found
        (locs secretOpening front.length pieces) = .ok (.error err)) := by
  induction pieces generalizing front found with
  | nil =>
    constructor
    · intro _
      simp only [locs, secretMatches, matchesAt, List.append_nil]
    · rintro ⟨p, hp, -⟩
      cases hp
  | cons p pieces ih =>
    obtain ⟨text, name⟩ := p
    have hslice := slice_name front text name (template pieces tail)
    obtain ⟨hvalue, hstop⟩ := front_step front text name (template pieces tail)
    have ih := ih (front ++ text ++ wrap secretOpening secretClosing name)
      (found ++ [⟨front.length + text.length,
        (Loc.at secretOpening (front.length + text.length) name).stop, name⟩])
    rw [← hvalue, ← hstop] at ih
    rw [template_cons]
    simp only [locs, secretMatches, hslice, matchesAt, Loc.start_at, bind, Except.bind]
    cases hvalid : isValidSecretName name with
    | true =>
      simp only [Bool.true_eq_false, if_false]
      constructor
      · intro h
        have hrest := ih.1 (List.forall_mem_cons.mp h).2
        rwa [List.append_assoc, List.singleton_append] at hrest
      · rintro ⟨q, hq, hinvalid⟩
        rcases List.mem_cons.mp hq with rfl | hq
        · cases hvalid.symm.trans hinvalid
        · exact ih.2 ⟨q, hq, hinvalid⟩
    | false =>
      constructor
      · intro h
        cases hvalid.symm.trans (h (text, name) List.mem_cons_self)
      · intro _
        exact ⟨_, rfl⟩

/-! ### The second loop -/

section Loop
variable (secretProvider : SecretProvider) (tenantID : GlobalID)

/-- The names are asked for in order until one is refused, and the answers inserted. -/
def insertSecrets (tail : GoString) : Pieces → GoString → List Asked → Resolved
  | [], result, asked => ⟨result ++ tail, none, asked⟩
  | (text, name) :: pieces, result, asked =>
    match secretProvider asked tenantID name with
    | .error err =>
      ⟨[], some (.lit "failed to get secret '" ++ name ++ .lit "' from GSM: " ++ err),
        asked ++ [(tenantID, name)]⟩
    | .ok secretValue =>
      insertSecrets tail pieces (result ++ text ++ secretValue) (asked ++ [(tenantID, name)])

private theorem writePart_eq (result part : GoString) :
    Resolver.writePart ⟨none, secretProvider, tenantID, true⟩ result part = result ++ part := by
  rw [Resolver.writePart]
  split
  · rfl
  · next h => rw [not_not.mp h, List.append_nil]

private theorem rebuild_eq (pieces : Pieces) (front tail result : GoString) (asked : List Asked) :
    Resolver.rebuild ⟨none, secretProvider, tenantID, true⟩ (front ++ template pieces tail)
        (matchesAt front.length pieces) front.length result asked =
      .ok (insertSecrets secretProvider tenantID tail pieces result asked) := by
  induction pieces generalizing front result asked with
  | nil =>
    have hslice := GoString.slice_append front tail []
    rw [List.append_nil, ← List.length_append] at hslice
    have htemplate : template [] tail = tail := rfl
    simp only [matchesAt, Resolver.rebuild, htemplate, hslice, bind, Except.bind, pure,
      Except.pure, writePart_eq, insertSecrets]
  | cons p pieces ih =>
    obtain ⟨text, name⟩ := p
    have hslice := GoString.slice_append front text
      (wrap secretOpening secretClosing name ++ template pieces tail)
    obtain ⟨hvalue, hstop⟩ := front_step front text name (template pieces tail)
    have ih := ih (front ++ text ++ wrap secretOpening secretClosing name)
    rw [← hvalue, ← hstop] at ih
    rw [template_cons]
    simp only [matchesAt, Resolver.rebuild, Loc.start_at, hslice, bind, Except.bind, writePart_eq,
      insertSecrets]
    cases secretProvider asked tenantID name with
    | error err => rfl
    | ok secretValue => exact ih _ _

/-! ### What the pass does -/

/-- Every question is answered, with these values. -/
inductive Answers : List Asked → List GoString → List GoString → Prop
  | nil {asked : List Asked} : Answers asked [] []
  | cons {asked : List Asked} {name value : GoString} {names values : List GoString}
      (hvalue : secretProvider asked tenantID name = .ok value)
      (hrest : Answers (asked ++ [(tenantID, name)]) names values) :
      Answers asked (name :: names) (value :: values)

/-- The template with the values in the places of the placeholders. -/
def substitute (pieces : Pieces) (values : List GoString) (tail : GoString) : GoString :=
  assemble (List.zipWith (fun p value ↦ (p.1, value)) pieces values) tail

variable {secretProvider tenantID}

private theorem insertSecrets_of_answers {pieces : Pieces} {asked : List Asked}
    {values : List GoString}
    (h : Answers secretProvider tenantID asked (pieces.map Prod.snd) values)
    (tail result : GoString) :
    insertSecrets secretProvider tenantID tail pieces result asked =
      ⟨result ++ substitute pieces values tail, none,
        asked ++ pieces.map fun p ↦ (tenantID, p.2)⟩ := by
  induction pieces generalizing asked values result with
  | nil =>
    cases h
    simp only [insertSecrets, substitute, List.zipWith_nil_left, assemble, List.map_nil,
      List.append_nil]
  | cons p pieces ih =>
    obtain ⟨text, name⟩ := p
    cases h with
    | cons hvalue hrest =>
      simp only [insertSecrets, hvalue, ih hrest, substitute, List.zipWith_cons_cons, assemble,
        List.map_cons, List.append_assoc, List.singleton_append]

private theorem insertSecrets_cases (pieces : Pieces) (asked : List Asked)
    (tail result : GoString) :
    (∃ values, Answers secretProvider tenantID asked (pieces.map Prod.snd) values) ∨
    ∃ err n, insertSecrets secretProvider tenantID tail pieces result asked =
      ⟨[], some err, asked ++ (pieces.map fun p ↦ (tenantID, p.2)).take n⟩ := by
  induction pieces generalizing asked result with
  | nil => exact .inl ⟨[], .nil⟩
  | cons p pieces ih =>
    obtain ⟨text, name⟩ := p
    simp only [insertSecrets]
    cases hvalue : secretProvider asked tenantID name with
    | error err => exact .inr ⟨_, 1, rfl⟩
    | ok secretValue =>
      rcases ih (asked ++ [(tenantID, name)]) (result ++ text ++ secretValue) with
        ⟨values, hrest⟩ | ⟨err, n, heq⟩
      · exact .inl ⟨secretValue :: values, .cons hvalue hrest⟩
      · refine .inr ⟨err, n + 1, heq.trans ?_⟩
        rw [List.append_assoc, List.singleton_append, List.map_cons, List.take_succ_cons]

end Loop

private theorem resolve_eq (secretProvider : SecretProvider) (tenantID : GlobalID)
    {value tail : GoString} {pieces : Pieces}
    (h : Leftmost secretOpening secretClosing value pieces tail) :
    ((∀ p ∈ pieces, isValidSecretName p.2 = true) →
      Resolver.resolve ⟨none, secretProvider, tenantID, true⟩ value =
        .ok (insertSecrets secretProvider tenantID tail pieces [] [])) ∧
    ((∃ p ∈ pieces, isValidSecretName p.2 = false) →
      ∃ err, Resolver.resolve ⟨none, secretProvider, tenantID, true⟩ value =
        .ok ⟨[], some err, []⟩) := by
  -- the guard for the empty template only saves work
  have hguard : Resolver.resolve ⟨none, secretProvider, tenantID, true⟩ value =
      Resolver.resolveSecrets ⟨none, secretProvider, tenantID, true⟩ value := by
    unfold Resolver.resolve
    split
    · next hnil =>
      subst hnil
      rfl
    · rfl
  have hvalue : value = template pieces tail := h.eq_assemble
  have hfind : findSecrets value = locs secretOpening 0 pieces := findAll_eq h le_rfl 0
  obtain ⟨hvalid, hinvalid⟩ := secretMatches_eq pieces [] tail []
  simp only [List.nil_append, List.length_nil, ← hvalue, ← hfind] at hvalid hinvalid
  constructor
  · intro hall
    have hrebuild := rebuild_eq secretProvider tenantID pieces [] tail [] []
    simp only [List.nil_append, List.length_nil, ← hvalue] at hrebuild
    rw [hguard, Resolver.resolveSecrets, hvalid hall]
    exact hrebuild
  · intro hsome
    obtain ⟨err, herr⟩ := hinvalid hsome
    rw [hguard, Resolver.resolveSecrets, herr]
    exact ⟨err, rfl⟩

/-- The interpolation of secrets, as the HTTP prober calls it, for every template and provider.
The template has a cut at its leftmost non-overlapping placeholders. With valid names and
answers to all questions the result is the template with the answers in the places of the
placeholders, and the provider was asked for the names in order, for the resolver's tenant. A
name that is not valid, or a refused question, is an error; in the first case nothing is
asked, and with an error the returned string is empty. -/
theorem resolve_singlePass (secretProvider : SecretProvider) (tenantID : GlobalID)
    (value : GoString) :
    (∃ pieces tail, Leftmost secretOpening secretClosing value pieces tail) ∧
    ∀ pieces tail, Leftmost secretOpening secretClosing value pieces tail →
      ∃ r, Resolver.resolve ⟨none, secretProvider, tenantID, true⟩ value = .ok r ∧
        resolveSecretValue value secretProvider tenantID true = .ok r ∧
        (∀ values, (∀ p ∈ pieces, IsSubdomainName p.2) →
          Answers secretProvider tenantID [] (pieces.map Prod.snd) values →
          r = ⟨substitute pieces values tail, none, pieces.map fun p ↦ (tenantID, p.2)⟩) ∧
        ((∃ p ∈ pieces, ¬ IsSubdomainName p.2) → r.err ≠ none ∧ r.asked = []) ∧
        ((∀ values, ¬ Answers secretProvider tenantID [] (pieces.map Prod.snd) values) →
          r.err ≠ none) ∧
        r.asked <+: pieces.map (fun p ↦ (tenantID, p.2)) ∧
        (r.err ≠ none → r.value = []) := by
  refine ⟨exists_leftmost value, fun pieces tail h ↦ ?_⟩
  have hcaller : resolveSecretValue value secretProvider tenantID true =
      Resolver.resolve ⟨none, secretProvider, tenantID, true⟩ value := by
    unfold resolveSecretValue Resolver.resolve
    split
    · rfl
    · rfl
  obtain ⟨hvalid, hinvalid⟩ := resolve_eq secretProvider tenantID h
  rw [hcaller]
  by_cases hnames : ∀ p ∈ pieces, isValidSecretName p.2 = true
  · have hsub : ∀ p ∈ pieces, IsSubdomainName p.2 :=
      fun p hp ↦ (isValidSecretName_iff p.2).mp (hnames p hp)
    refine ⟨_, hvalid hnames, hvalid hnames,
      fun values _ hanswers ↦ insertSecrets_of_answers hanswers tail [],
      fun ⟨p, hp, hnot⟩ ↦ absurd (hsub p hp) hnot, ?_⟩
    rcases insertSecrets_cases pieces [] tail [] with ⟨values, hanswers⟩ | ⟨err, n, heq⟩
    · rw [insertSecrets_of_answers hanswers tail []]
      refine ⟨fun hnone ↦ absurd hanswers (hnone values), List.prefix_refl _, ?_⟩
      intro herr
      exact absurd rfl herr
    · rw [heq]
      exact ⟨fun _ ↦ Option.some_ne_none err, List.take_prefix _ _, fun _ ↦ rfl⟩
  · have hsome : ∃ p ∈ pieces, isValidSecretName p.2 = false := by
      simpa only [not_forall, exists_prop, Bool.not_eq_true] using hnames
    obtain ⟨err, heq⟩ := hinvalid hsome
    obtain ⟨p, hp, hfalse⟩ := hsome
    refine ⟨_, heq, heq, fun values' hall _ ↦ ?_, fun _ ↦ ⟨Option.some_ne_none err, rfl⟩,
      fun _ ↦ Option.some_ne_none err, List.nil_prefix, fun _ ↦ rfl⟩
    cases hfalse.symm.trans ((isValidSecretName_iff p.2).mpr (hall p hp))

/-- A provider whose answers look like placeholders. -/
def echoProvider : SecretProvider :=
  fun _ _ name ↦ .ok (wrap secretOpening secretClosing (name ++ name))

/-- The answer stands in the result as it is: nobody asks for the name that it contains. -/
theorem resolve_singlePass_echoProvider :
    ∃ r, Resolver.resolve ⟨none, echoProvider, 7, true⟩ (.lit "k=$\x7bsecrets.a\x7d;") = .ok r ∧
      r = ⟨.lit "k=$\x7bsecrets.aa\x7d;", none, [(7, .lit "a")]⟩ := by
  have hvalue : lit "k=$\x7bsecrets.a\x7d;" = lit "k=" ++
      (wrap secretOpening secretClosing (lit "a") ++ lit ";") := by decide
  have hnone : ∀ s ∈ (lit ";").tails, front secretOpening secretClosing s = none := by
    decide
  have hfirst : ∀ s ∈ (lit "k=$\x7bsecrets.a\x7d;").tails, 13 < s.length →
      front secretOpening secretClosing s = none := by decide
  have hcut : Leftmost secretOpening secretClosing (lit "k=$\x7bsecrets.a\x7d;")
      [(lit "k=", lit "a")] (lit ";") := by
    rw [hvalue] at hfirst ⊢
    apply Leftmost.next
    · decide
    · intro s hs hlen
      exact front_eq_none.mp (hfirst s ((List.mem_tails s _).mpr hs) hlen)
    · apply Leftmost.done
      intro s hs
      exact front_eq_none.mp (hnone s ((List.mem_tails s _).mpr hs))
  obtain ⟨r, hr, -, hsuccess, -⟩ := (resolve_singlePass echoProvider 7 _).2 _ _ hcut
  have hname : IsSubdomainName (lit "a") := (isValidSecretName_iff _).mp (by decide)
  refine ⟨r, hr, hsuccess [wrap secretOpening secretClosing (lit "aa")] ?_
    (.cons rfl .nil)⟩
  intro p hp
  rw [List.mem_singleton.mp hp]
  exact hname

end SMAgent.Prober
