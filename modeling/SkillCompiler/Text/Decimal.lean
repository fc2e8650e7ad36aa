/-!
# Decimal numbers

The written forms of numbers: a sign, digits with a point among them, and an exponent. Infinity and
what is no number have words.
-/

namespace SkillCompiler

namespace Text

/-- A text without a sign at its start. -/
def dropSign (text : List Char) : List Char :=
  match text with
  | '+' :: rest | '-' :: rest => rest
  | _ => text

/-- Whether a text is an exponent, or nothing. -/
def isExponent (text : List Char) : Bool :=
  match text with
  | [] => true
  | c :: rest => (c = 'e' || c = 'E') && dropSign rest ≠ [] && (dropSign rest).all Char.isDigit

/-- Whether a text is a number. -/
def isNumber (text : List Char) : Bool :=
  let body := dropSign text
  if String.ofList (body.map Char.toLower) ∈ ["inf", "infinity", "nan"] then true
  else
    let whole := body.takeWhile Char.isDigit
    match body.drop whole.length with
    | '.' :: rest =>
      let part := rest.takeWhile Char.isDigit
      (whole ≠ [] || part ≠ []) && isExponent (rest.drop part.length)
    | rest => whole ≠ [] && isExponent rest

end Text

end SkillCompiler
