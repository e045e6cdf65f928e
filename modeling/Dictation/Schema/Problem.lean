import Dictation.Json.Shown

/-!
# What is wrong with a value

A value that is read as a record may have any number of problems.  A problem has the path to the
place, the cause, and the value found there.

* `Cause.name`, `Cause.message`   how a cause is called and described;
* `Problem.report`                the text that lists all problems of one value.
-/

namespace Dictation

inductive Cause where
  | notText
  | notList
  | notBool
  /-- a word or number that is no truth value -/
  | unclearBool
  | missing
  /-- none of the words allowed -/
  | notAmong (allowed : List Text)
  /-- a tag other than the one of the record -/
  | otherTag (expected : Text)
  /-- a record without the key that tells its kind -/
  | untagged (key : Text)
  | unknownTag (found key : Text) (allowed : List Text)
  | notRecord
  | notModel (name : Text)
deriving DecidableEq, Repr

inductive Step where
  | field (name : Text)
  | index (i : Nat)
deriving DecidableEq, Repr

structure Problem where
  path : List Step
  cause : Cause
  given : Json

/-! ## wording -/

namespace Cause

def inQuotes (t : Text) : Text := '\'' :: t ++ ['\'']

/-- quoted words with "or" before the last -/
def alternatives : List Text → Text
  | [] => []
  | [t] => inQuotes t
  | [t, u] => inQuotes t ++ " or ".toList ++ inQuotes u
  | t :: ts => inQuotes t ++ ", ".toList ++ alternatives ts

def name : Cause → Text
  | notText => "string_type".toList
  | notList => "list_type".toList
  | notBool => "bool_type".toList
  | unclearBool => "bool_parsing".toList
  | missing => "missing".toList
  | notAmong _ => "enum".toList
  | otherTag _ => "literal_error".toList
  | untagged _ => "union_tag_not_found".toList
  | unknownTag _ _ _ => "union_tag_invalid".toList
  | notRecord => "model_attributes_type".toList
  | notModel _ => "model_type".toList

def message : Cause → Text
  | notText => "Input should be a valid string".toList
  | notList => "Input should be a valid list".toList
  | notBool => "Input should be a valid boolean".toList
  | unclearBool => "Input should be a valid boolean, unable to interpret input".toList
  | missing => "Field required".toList
  | notAmong allowed => "Input should be ".toList ++ alternatives allowed
  | otherTag expected => "Input should be ".toList ++ inQuotes expected
  | untagged key => "Unable to extract tag using discriminator ".toList ++ inQuotes key
  | unknownTag found key allowed =>
    "Input tag ".toList ++ inQuotes found ++ " found using ".toList ++ inQuotes key
      ++ " does not match any of the expected tags: ".toList
      ++ Text.joinWith ", ".toList (allowed.map inQuotes)
  | notRecord =>
    "Input should be a valid dictionary or object to extract fields from".toList
  | notModel name => "Input should be a valid dictionary or instance of ".toList ++ name

end Cause

def Step.text : Step → Text
  | .field name => name
  | .index i => Decimal.digits i

namespace Problem

/-- the path with points between its steps -/
def location (p : Problem) : Text := Text.joinWith ['.'] (p.path.map Step.text)

/-- the cause and the value found, as a report shows them; `link` may add a line to a cause -/
def details (link : Cause → Option Text) (p : Problem) : Text :=
  '\n' :: p.location ++ "\n  ".toList ++ p.cause.message ++ " [type=".toList ++ p.cause.name
    ++ ", input_value=".toList ++ Json.shortened p.given.shown ++ ", input_type=".toList
    ++ p.given.kind.name ++ [']']
    ++ match link p.cause with
      | some t => "\n    ".toList ++ t
      | none => []

def count (n : Nat) : Text :=
  Decimal.digits n ++ (if n == 1 then " validation error" else " validation errors").toList

def report (link : Cause → Option Text) (model : Text) (ps : List Problem) : Text :=
  count ps.length ++ " for ".toList ++ model ++ ps.flatMap (details link)

end Problem
end Dictation
