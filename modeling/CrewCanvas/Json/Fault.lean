/-
Why a JSON document is not the record it is read as.

A text that is not JSON has no cause of its own.  A document of the wrong shape
has one, and its wording is fixed here.
-/

import CrewCanvas.Json.Doc
import CrewCanvas.Json.Print
import CrewCanvas.Text.Quoted
import CrewCanvas.Text.Blank

namespace CrewCanvas.Json

inductive Found
  | null
  | bool (value : Bool)
  | number (value : Number)
  | text (value : String)
  | list
  | record
  | unitVariant

inductive Mismatch
  | wrongType (found : Found) (expected : String)
  | wrongValue (found : Found) (expected : String)
  | wrongLength (length : Nat) (expected : String)
  | missingField (name : String)
  | duplicateField (name : String)
  | unknownVariant (name : String) (known : List String)

inductive Fault
  | malformed
  | mismatch (cause : Mismatch)

def Found.describe : Found → String
  | .null => "null"
  | .bool true => "boolean `true`"
  | .bool false => "boolean `false`"
  | .number (.int value) => "integer `" ++ String.ofList (Number.write (.int value)) ++ "`"
  | .number (.real value) =>
      "floating point `" ++ String.ofList (Number.write (.real value)) ++ "`"
  | .text value => "string " ++ Text.quoted false value
  | .list => "sequence"
  | .record => "map"
  | .unitVariant => "unit variant"

def describeKnown (known : List String) : String :=
  match known.map (fun name => "`" ++ name ++ "`") with
  | [] => "there are no variants"
  | [only] => "expected " ++ only
  | [first, second] => "expected " ++ first ++ " or " ++ second
  | names => "expected one of " ++ Text.joinWith ", " names

def Mismatch.message : Mismatch → String
  | .wrongType found expected =>
      "invalid type: " ++ found.describe ++ ", expected " ++ expected
  | .wrongValue found expected =>
      "invalid value: " ++ found.describe ++ ", expected " ++ expected
  | .wrongLength length expected =>
      "invalid length " ++ toString length ++ ", expected " ++ expected
  | .missingField name => "missing field `" ++ name ++ "`"
  | .duplicateField name => "duplicate field `" ++ name ++ "`"
  | .unknownVariant name known =>
      "unknown variant `" ++ name ++ "`, " ++ describeKnown known

def Fault.message? : Fault → Option String
  | .malformed => none
  | .mismatch cause => some cause.message

end CrewCanvas.Json
