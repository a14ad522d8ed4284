import RiskRules.Text.LetterCase

/-!
Lower-casing of whole texts. Each character goes to its lower-case partner, with two rules of its
own: the dotted capital I keeps its dot as a combining mark, and a capital sigma at the end of a
word becomes the final sigma.
-/

namespace RiskRules.Lowercase

/-- A letter with case comes next, marks passed over. -/
def letterFollows (rest : List Char) : Bool :=
  match rest.dropWhile LetterCase.isIgnorable with
  | [] => false
  | c :: _ => LetterCase.isCased c

/-- Lower-cases the characters; `letterBefore` tells whether a letter with case came last, marks
passed over. -/
def chars (letterBefore : Bool) : List Char → List Char → List Char
  | [], done => done.reverse
  | c :: rest, done =>
    let letterNow := if LetterCase.isIgnorable c then letterBefore else LetterCase.isCased c
    if c = 'Σ' then
      let sigma := if letterBefore && !letterFollows rest then 'ς' else 'σ'
      chars letterNow rest (sigma :: done)
    else if c = 'İ' then chars letterNow rest ('\u0307' :: 'i' :: done)
    else chars letterNow rest (LetterCase.lower c :: done)

/-- The text in lower case. -/
def text (s : String) : String :=
  String.ofList (chars false s.toList [])

end RiskRules.Lowercase
