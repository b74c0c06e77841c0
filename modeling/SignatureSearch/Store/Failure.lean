/-
# `Store.Failure` — why an operation on the store fails

The store itself may refuse a call, and what it holds may not be what is
expected there.
-/
import SignatureSearch.Signature.Symbol
import SignatureSearch.Text.Numeral
import SignatureSearch.Text.Quoted
import SignatureSearch.Validation.Report

namespace SignatureSearch.Store

inductive Refusal where
  | runtime
  | value
  | key
  /-- Another transaction was in the way. -/
  | aborted
  | permissionDenied
deriving DecidableEq, Repr

/-- Why an operation fails. -/
inductive Failure where
  /-- The store cannot be reached: its key file is missing. -/
  | unavailable (keyFile : String)
  | refused (kind : Refusal) (message : String)
  /-- A document that was to be changed does not exist. -/
  | noDocument (path : String)
  /-- A document lacks a field. -/
  | noField (name : String)
  /-- A transaction was aborted too often. -/
  | contention (attempts : Nat)
  /-- A value to which no number can be added. -/
  | notAddable (kind : String)
  /-- A text that is no integer. -/
  | notIntegerText (text : String)
  /-- An integer that is too large to be added to a floating point number. -/
  | sumTooLarge
  /-- A value that cannot be taken as an integer. -/
  | notInteger (kind : String)
  /-- An infinite number, or none at all, in the place of an integer. -/
  | notFinite (isNan : Bool)
  /-- A document that is no record of the expected kind. -/
  | invalid (title : String) (issues : List Validation.Issue)
  /-- A signature that cannot be indexed. -/
  | unindexable (error : Signature.KeyError)
deriving DecidableEq, Repr

namespace Failure

/-- So many characters of a text that is no integer are shown, its quotes included. -/
def shownLength : Nat := 200

def message : Failure → String
  | .unavailable keyFile => s!"[Errno 2] No such file or directory: {Text.quoted keyFile}"
  | .refused .runtime text => text
  | .refused .value text => text
  | .refused .key text => Text.quoted text
  | .refused .aborted text => s!"409 {text}"
  | .refused .permissionDenied text => s!"403 {text}"
  | .noDocument path => s!"404 No document to update: {path}"
  | .noField name => Text.quoted name
  | .contention attempts => s!"Failed to commit transaction in {attempts} attempts."
  | .notAddable kind =>
    if kind = "str" || kind = "list" then s!"can only concatenate {kind} (not \"int\") to {kind}"
    else s!"unsupported operand type(s) for +: '{kind}' and 'int'"
  | .notIntegerText text =>
    let shown := String.ofList ((Text.quoted text).toList.take shownLength)
    s!"invalid literal for int() with base 10: {shown}"
  | .sumTooLarge => "int too large to convert to float"
  | .notInteger kind =>
    "int() argument must be a string, a bytes-like object or a real number, not "
      ++ s!"'{kind}'"
  | .notFinite isNan =>
    if isNan then "cannot convert float NaN to integer"
    else "cannot convert float infinity to integer"
  | .invalid title issues => Validation.report title issues
  | .unindexable error => error.message

end Failure
end SignatureSearch.Store
