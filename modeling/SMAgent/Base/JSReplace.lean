import SMAgent.Base.JSEval

/-!
# Replacing all occurrences in JavaScript

`String.prototype.replaceAll` expands the replacement at every occurrence. Where all expansions
give the same text, it is a plain scan that writes that text.
-/

namespace SMAgent.Base.JavaScript

/-- The scan of `replaceOccurrences` with a text that is not expanded. -/
def replaceWith (pattern value : JSString) : Nat → JSString → JSString
  | _, [] => []
  | skip + 1, _ :: rest => replaceWith pattern value skip rest
  | 0, u :: rest =>
    if pattern.isPrefixOf (u :: rest) then
      value ++ replaceWith pattern value (pattern.length - 1) rest
    else u :: replaceWith pattern value 0 rest

private theorem replaceOccurrences_eq {pattern template value : JSString} {skip : Nat}
    {before s : JSString} (h : ∀ b a, before ++ s = b ++ (pattern ++ a) →
      expandTemplate b pattern a template = value) :
    replaceOccurrences pattern template skip before s = replaceWith pattern value skip s := by
  induction s generalizing skip before with
  | nil => simp only [replaceOccurrences, replaceWith]
  | cons u rest ih =>
    have hnext (skip : Nat) : replaceOccurrences pattern template skip (before ++ [u]) rest =
        replaceWith pattern value skip rest := by
      apply ih
      intro b a heq
      apply h
      rw [← heq, List.append_assoc]
      rfl
    cases skip with
    | succ skip => exact hnext skip
    | zero =>
      rw [replaceOccurrences, replaceWith, hnext, hnext]
      split
      · next hpre =>
        obtain ⟨a, ha⟩ := List.isPrefixOf_iff_prefix.mp hpre
        rw [← ha, List.drop_left, h before a (by rw [ha])]
      · rfl

/-- If the replacement stands for one text at all occurrences, that text is written. -/
theorem replaceAll_eq {s pattern template value : JSString}
    (h : ∀ b a, s = b ++ (pattern ++ a) → expandTemplate b pattern a template = value) :
    replaceAll s pattern template = replaceWith pattern value 0 s :=
  replaceOccurrences_eq h

private theorem replaceWith_skip (pattern value u s : JSString) :
    replaceWith pattern value u.length (u ++ s) = replaceWith pattern value 0 s := by
  induction u with
  | nil => rfl
  | cons x u ih => exact ih

/-- An occurrence is replaced. -/
theorem replaceWith_append {pattern : JSString} (hpattern : pattern ≠ []) (value s : JSString) :
    replaceWith pattern value 0 (pattern ++ s) = value ++ replaceWith pattern value 0 s := by
  cases pattern with
  | nil => exact absurd rfl hpattern
  | cons x pattern =>
    rw [List.cons_append, replaceWith, if_pos]
    · exact congrArg (value ++ ·) (replaceWith_skip (x :: pattern) value pattern s)
    · exact List.isPrefixOf_iff_prefix.mpr (List.prefix_append (x :: pattern) s)

/-- A code unit at which the pattern does not begin stays. -/
theorem replaceWith_cons {pattern s : JSString} {u : UInt16} (h : ¬ pattern <+: u :: s)
    (value : JSString) :
    replaceWith pattern value 0 (u :: s) = u :: replaceWith pattern value 0 s := by
  rw [replaceWith, if_neg]
  rwa [List.isPrefixOf_iff_prefix]

end SMAgent.Base.JavaScript
