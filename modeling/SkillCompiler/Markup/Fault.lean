/-!
# What can be wrong with markup text

Each fault is a cause; `Fault.message` is its wording. Positions and ranges are byte offsets inside
the tag, text or attribute value that holds the fault.
-/

namespace SkillCompiler

namespace Markup

/-- Why a character reference names no character. -/
inductive BadNumber where
  | sign
  | empty
  | digit
  | tooLarge
  | notScalar (code : Nat)
  | zero
  deriving DecidableEq, Repr

/-- Why text is not markup. -/
inductive Fault where
  | unknownBang
  | unclosedInstruction
  | unclosedComment
  | unclosedDoctype
  | unclosedCData
  | unclosedTag
  | namelessDoctype
  | unmatchedClose (name : String)
  | mismatchedClose (expected found : String)
  | missingEquals (position : Nat)
  | missingValue (position : Nat)
  | unquotedValue (position : Nat)
  | missingQuote (position : Nat) (quote : Char)
  | duplicatedAttribute (position previous : Nat)
  | unknownEntity (start stop : Nat) (name : String)
  | unterminatedReference (start stop : Nat)
  | badNumber (cause : BadNumber)
  deriving DecidableEq, Repr

def BadNumber.message : BadNumber → String
  | sign => "unexpected number sign"
  | empty => "cannot parse integer from empty string"
  | digit => "invalid digit found in string"
  | tooLarge => "number too large to fit in target type"
  | notScalar code => "`" ++ toString code ++ "` is not a valid codepoint"
  | zero => "0x0 character is not permitted in XML"

def Fault.message : Fault → String
  | unknownBang => "syntax error: unknown or missed symbol in markup"
  | unclosedInstruction =>
    "syntax error: processing instruction or xml declaration not closed: " ++
      "`?>` not found before end of input"
  | unclosedComment => "syntax error: comment not closed: `-->` not found before end of input"
  | unclosedDoctype => "syntax error: DOCTYPE not closed: `>` not found before end of input"
  | unclosedCData => "syntax error: CDATA not closed: `]]>` not found before end of input"
  | unclosedTag => "syntax error: tag not closed: `>` not found before end of input"
  | namelessDoctype =>
    "ill-formed document: `<!DOCTYPE>` declaration does not contain a name of a document type"
  | unmatchedClose name =>
    "ill-formed document: close tag `</" ++ name ++ ">` does not match any open tag"
  | mismatchedClose expected found =>
    "ill-formed document: expected `</" ++ expected ++ ">`, but `</" ++ found ++ ">` was found"
  | missingEquals p =>
    "position " ++ toString p ++ ": attribute key must be directly followed by `=` or space"
  | missingValue p => "position " ++ toString p ++ ": `=` must be followed by an attribute value"
  | unquotedValue p =>
    "position " ++ toString p ++ ": attribute value must be enclosed in `\"` or `'`"
  | missingQuote p q =>
    "position " ++ toString p ++ ": missing closing quote `" ++ q.toString ++
      "` in attribute value"
  | duplicatedAttribute p r =>
    "position " ++ toString p ++ ": duplicated attribute, previous declaration at position " ++
      toString r
  | unknownEntity s e name =>
    "at " ++ toString s ++ ".." ++ toString e ++ ": unrecognized entity `" ++ name ++ "`"
  | unterminatedReference s e =>
    "Error while escaping character at range " ++ toString s ++ ".." ++ toString e ++
      ": Cannot find ';' after '&'"
  | badNumber cause => "invalid character reference: " ++ cause.message

end Markup

end SkillCompiler
