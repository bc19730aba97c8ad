import Kici.Js.Str

/-!
# Regular expressions that are alternatives of words

A regular expression that has no operators but `|` matches the words between its bars,
in which the characters that are syntax are escaped (`alternatives`).
-/

namespace Kici

open List JsString

variable {words : List JsString}

/-- The characters of the syntax of regular expressions. -/
def syntaxCharacters : JsString := ".*+?^${}()|[]\\"

/-- The words with a letter put before the first of them. -/
def consWord (c : UInt16) : List JsString → List JsString
  | [] => [[c]]
  | word :: words => (c :: word) :: words

/-- The words of the rest of a regular expression, which may begin behind a backslash. -/
def alternativesFrom : (escaped : Bool) → JsString → Option (List JsString)
  | false, [] => some [[]]
  | true, [] => none
  -- An escaped character of the syntax stands for itself.
  | true, c :: source =>
    if c ∈ syntaxCharacters then (alternativesFrom false source).map (consWord c) else none
  | false, c :: source =>
    if [c] = js "\\" then alternativesFrom true source
    else if [c] = js "|" then (alternativesFrom false source).map ([] :: ·)
    else if c ∈ syntaxCharacters then none
    else (alternativesFrom false source).map (consWord c)

/-- The words of a regular expression without operators but `|`, `none` of another. -/
def alternatives (source : JsString) : Option (List JsString) := alternativesFrom false source

/-- A word with the characters of the syntax escaped. -/
def escapeRegExp (s : JsString) : JsString :=
  s.flatMap fun c => if c ∈ syntaxCharacters then js "\\" ++ [c] else [c]

theorem alternatives_bar {source : JsString} :
    alternatives (js "|" ++ source) = (alternatives source).map ([] :: ·) := by
  have hbar : js "|" = [0x7C] := by decide
  have hne : [0x7C] ≠ js "\\" := by decide
  rw [hbar, singleton_append, alternatives, alternativesFrom, if_neg hne, if_pos hbar.symm]
  rfl

/-- An escaped word is matched as it is. -/
theorem alternatives_escapeRegExp {word source : JsString} {first : JsString}
    (h : alternatives source = some (first :: words)) :
    alternatives (escapeRegExp word ++ source) = some ((word ++ first) :: words) := by
  induction word with
  | nil => exact h
  | cons c word ih =>
    rw [alternatives] at ih
    rw [escapeRegExp, flatMap_cons, ← escapeRegExp, append_assoc, alternatives]
    split
    next hsyntax =>
      have hescape : js "\\" = [0x5C] := by decide
      rw [hescape, singleton_append, cons_append, alternativesFrom, if_pos hescape.symm,
        singleton_append, alternativesFrom, if_pos hsyntax, ih]
      rfl
    next hsyntax =>
      -- The bar and the backslash are syntax.
      have hback : [c] ≠ js "\\" := fun heq => hsyntax (by
        rw [singleton_inj.1 (heq.trans (by decide : js "\\" = [0x5C]))]
        decide)
      have hbar : [c] ≠ js "|" := fun heq => hsyntax (by
        rw [singleton_inj.1 (heq.trans (by decide : js "|" = [0x7C]))]
        decide)
      rw [singleton_append, alternativesFrom, if_neg hback, if_neg hbar, if_neg hsyntax, ih]
      rfl

/-- Escaped words, joined by bars, are matched as they are. -/
theorem alternatives_join (h : words ≠ []) :
    alternatives (join (words.map escapeRegExp) "|") = some words := by
  induction words with
  | nil => exact absurd rfl h
  | cons word words ih =>
    cases words with
    | nil =>
      have hlast : alternatives (escapeRegExp word ++ []) = some [word ++ []] :=
        alternatives_escapeRegExp rfl
      simpa [join] using hlast
    | cons next words =>
      have hrest := ih (cons_ne_nil _ _)
      have hbar : alternatives (js "|" ++ join ((next :: words).map escapeRegExp) "|") =
          some ([] :: next :: words) := by rw [alternatives_bar, hrest]; rfl
      have hword : alternatives (escapeRegExp word ++
          (js "|" ++ join ((next :: words).map escapeRegExp) "|")) =
            some ((word ++ []) :: next :: words) := alternatives_escapeRegExp hbar
      simpa [join, intercalate_cons_cons, append_assoc] using hword

end Kici
