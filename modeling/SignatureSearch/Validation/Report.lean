/-
# `Validation.Report` — the issues of a record as one text

The first line counts the issues and names the record.  Each issue then has the
place where it is, its wording with its code and the input, and where to read
about its code.  A long input is shown by its two ends only.
-/
import SignatureSearch.Validation

namespace SignatureSearch.Validation

/-- The longest prefix of at most that many bytes. -/
def headBytes (budget : Nat) : List Char → List Char
  | [] => []
  | c :: rest => if c.utf8Size ≤ budget then c :: headBytes (budget - c.utf8Size) rest else []

/-- Inputs of more bytes than this are shown by their ends. -/
def longestShown : Nat := 50

/-- How many bytes are shown of the start and of the end of a long input. -/
def shownEnds : Nat × Nat := (25, 24)

/-- A text, or its two ends if it is long. -/
def shorten (s : String) : String :=
  if s.utf8ByteSize > longestShown then
    String.ofList (headBytes shownEnds.1 s.toList) ++ "..."
      ++ String.ofList (headBytes shownEnds.2 s.toList.reverse).reverse
  else s

def Step.text : Step → String
  | .field name => name
  | .index i => toString i

/-- Where the codes of issues are explained. -/
def codePages : String := "https://errors.pydantic.dev/2.14/v/"

def Issue.report (i : Issue) : String :=
  let place := if i.path.isEmpty then "" else ".".intercalate (i.path.map Step.text) ++ "\n"
  place ++ s!"  {i.problem.message} [type={i.problem.code}, "
    ++ s!"input_value={shorten i.input.literal}, input_type={i.input.kindName}]\n"
    ++ s!"    For further information visit {codePages}{i.problem.code}"

def report (name : String) (issues : List Issue) : String :=
  let count := issues.length
  let errors := if count = 1 then "error" else "errors"
  "\n".intercalate (s!"{count} validation {errors} for {name}" :: issues.map Issue.report)

end SignatureSearch.Validation
