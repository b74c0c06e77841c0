/-
# `CommandLine` — options on a command line

A command line is a list of words.  First every word is classed: an option of
the program (perhaps abbreviated, perhaps with a value attached to it), an
option that does not exist, or a value.  Then the words are taken from left to
right.  Short options without values can share a word.  A word of two hyphens
ends the options.  In the end the required options have to be there, and no
word may be left over.
-/
import SignatureSearch.Text.Numeral
import SignatureSearch.Text.Quoted
import SignatureSearch.Text.Search

namespace SignatureSearch.CommandLine

/-- What is given to an option that takes a value.  Two hyphens are no value, so where they stand in
the place of one, nothing is given. -/
inductive Given (α : Type) where
  | value (a : α)
  | nothing
deriving DecidableEq, Repr

def Given.value? {α : Type} : Given α → Option α
  | .value a => some a
  | .nothing => none

/-- What an option does to the result `σ`. -/
inductive Effect (σ : Type) where
  /-- Shows the help and stops. -/
  | help
  /-- Takes no value. -/
  | flag (f : σ → σ)
  /-- Takes a text. -/
  | text (f : Given String → σ → σ)
  /-- Takes an integer. -/
  | number (f : Given Int → σ → σ)

structure Switch (σ : Type) where
  names : List String
  effect : Effect σ
  required : Bool := false

variable {σ : Type}

def Switch.takesValue (o : Switch σ) : Bool :=
  match o.effect with
  | .help | .flag _ => false
  | .text _ | .number _ => true

/-- All names of an option, as messages show them. -/
def Switch.title (o : Switch σ) : String :=
  "/".intercalate o.names

inductive Misuse where
  | ambiguous (word : String) (candidates : List String)
  | valueMissing (option : String)
  | notInteger (option value : String)
  | valueIgnored (option value : String)
  | required (options : List String)
  | leftOver (words : List String)
deriving DecidableEq, Repr

def Misuse.message : Misuse → String
  | .ambiguous word candidates =>
    s!"ambiguous option: {word} could match " ++ ", ".intercalate candidates
  | .valueMissing option => s!"argument {option}: expected one argument"
  | .notInteger option value => s!"argument {option}: invalid int value: {Text.quoted value}"
  | .valueIgnored option value =>
    s!"argument {option}: ignored explicit argument {Text.quoted value}"
  | .required options => "the following arguments are required: " ++ ", ".intercalate options
  | .leftOver words => "unrecognized arguments: " ++ " ".intercalate words

/-- Why a program does not start: the help was shown, or the command line is not accepted. -/
inductive Stop where
  | help
  | misuse (m : Misuse)
deriving DecidableEq, Repr

/-- The exit code of a program that does not start. -/
def Stop.code : Stop → Nat
  | .help => 0
  | .misuse _ => 2

/-- What a misuse is announced with. -/
def errorMark : String := "error: "

/-- What is said when a program does not start. -/
def Stop.announcement : Stop → String
  | .help => ""
  | .misuse m => errorMark ++ m.message

/-- The last line of what is said, without blanks at its end, and only what follows the first mark
in it, if there is one. -/
def Stop.lastLine (s : Stop) : String :=
  let fromEnd := s.announcement.toList.reverse.dropWhile Text.isBlank
  let line := (fromEnd.takeWhile (· != '\n')).reverse
  String.ofList ((Text.cut errorMark.toList line).elim line (·.2))

/-! ## Classing the words -/

/-- The class of a word. -/
inductive Word (σ : Type) where
  | value
  /-- The word that ends the options. -/
  | separator
  /-- An option that does not exist. -/
  | unknown
  /-- An option, its name, and the value that is attached to it. -/
  | option (o : Switch σ) (name : String) (attached : Option (List Char))

def byName (options : List (Switch σ)) : List (String × Switch σ) :=
  options.flatMap fun o => o.names.map (·, o)

/-- A word that looks like a negative number; a line feed at its end does not count. -/
def looksNegative : List Char → Bool
  | '-' :: rest =>
    let digit := fun c => (Text.digitValue? c).isSome
    let rest := if rest.getLast? = some '\n' then rest.dropLast else rest
    let whole := rest.takeWhile digit
    match rest.dropWhile digit with
    | [] => !whole.isEmpty
    | '.' :: fraction => !fraction.isEmpty && fraction.all digit
    | _ => false
  | _ => false

/-- The options that a word may stand for, with the name that is meant. -/
def candidates (options : List (Switch σ)) (word : List Char) : List (Word σ) :=
  match word with
  | '-' :: '-' :: _ =>
    let (start, attached) : List Char × Option (List Char) :=
      match Text.cutChar '=' word with
      | some (start, value) => (start, some value)
      | none => (word, none)
    ((byName options).filter fun (name, _) => start.isPrefixOf name.toList).map fun (name, o) =>
      .option o name attached
  | a :: b :: rest =>
    ((byName options).filter fun (name, _) => name.toList = [a, b]).map fun (name, o) =>
      .option o name (some rest)
  | _ => []

/-- The name that a word is classed under, if it is an option. -/
def Word.name? : Word σ → Option String
  | .option _ name _ => some name
  | _ => none

/-- The option that a word names in full, perhaps with a value after an equals sign. -/
def named? (options : List (Switch σ)) (word : List Char) : Option (Word σ) :=
  match (byName options).lookup (String.ofList word) with
  | some o => some (.option o (String.ofList word) none)
  | none => do
    let (start, value) ← Text.cutChar '=' word
    let o ← (byName options).lookup (String.ofList start)
    return .option o (String.ofList start) (some value)

/-- Classes a word that is not the separator. -/
def classify (options : List (Switch σ)) (word : String) : Except Misuse (Word σ) :=
  match word.toList with
  | '-' :: c :: rest =>
    let cs := '-' :: c :: rest
    match named? options cs, candidates options cs with
    | some w, _ => .ok w
    | none, [w] => .ok w
    | none, [] =>
      if looksNegative cs || cs.contains ' ' then .ok .value else .ok .unknown
    | none, several => .error (.ambiguous word (several.filterMap Word.name?))
  | _ => .ok .value

/-- Classes all words; after the separator there are only values. -/
def classifyAll (options : List (Switch σ)) : List String → Except Misuse (List (String × Word σ))
  | [] => .ok []
  | "--" :: rest => .ok (("--", .separator) :: rest.map (·, .value))
  | word :: rest => do
    let w ← classify options word
    return (word, w) :: (← classifyAll options rest)

/-! ## Taking the words -/

/-- What a word with options comes to: options that have what they need, then one that may need the
next word. -/
structure Cluster (σ : Type) where
  complete : List (Switch σ × String) := []
  last : Option (Switch σ) := none

/-- Puts an option without a value in front of a cluster. -/
def Cluster.cons (o : Switch σ) (c : Cluster σ) : Cluster σ :=
  { c with complete := (o, "") :: c.complete }

/-- Takes apart a word that starts with an option.  What is attached to a short option without a
value are further short options. -/
def cluster (options : List (Switch σ)) (o : Switch σ) (short : Bool) :
    List Char → Except Misuse (Cluster σ)
  | [] =>
    if o.takesValue then .ok { complete := [(o, "")] } else .error (.valueIgnored o.title "")
  | c :: rest =>
    if o.takesValue then .ok { complete := [(o, String.ofList (c :: rest))] }
    else
      match (byName options).lookup (String.ofList ['-', c]), short, rest with
      | some next, true, [] => .ok { complete := [(o, "")], last := some next }
      | some next, true, d :: value => (cluster options next true (d :: value)).map (.cons o)
      | _, _, _ => .error (.valueIgnored o.title (String.ofList (c :: rest)))

/-- The words that are not used, and the result so far. -/
structure Progress (σ : Type) where
  result : σ
  seen : List String := []
  leftOver : List String := []

def given (word : String) : Given String :=
  if word = "--" then .nothing else .value word

/-- Lets an option with its value take effect. -/
def act (p : Progress σ) (use : Switch σ × String) : Except Stop (Progress σ) :=
  let (o, word) := use
  let seen := o.title :: p.seen
  match o.effect, given word with
  | .help, _ => .error .help
  | .flag f, _ => .ok { p with result := f p.result, seen }
  | .text f, value => .ok { p with result := f value p.result, seen }
  | .number f, .nothing => .ok { p with result := f .nothing p.result, seen }
  | .number f, .value s =>
    match Text.readInteger? s with
    | some n => .ok { p with result := f (.value n) p.result, seen }
    | none => .error (.misuse (.notInteger o.title s))

/-- A short option has one hyphen. -/
def isShort (name : String) : Bool :=
  match name.toList with
  | '-' :: '-' :: _ => false
  | _ => true

/-- What a word with an option comes to. -/
def clusterOf (options : List (Switch σ)) (o : Switch σ) (name : String) :
    Option (List Char) → Except Misuse (Cluster σ)
  | none => .ok { last := some o }
  | some value => cluster options o (isShort name) value

/-- Takes the words from left to right. -/
def take (options : List (Switch σ)) (p : Progress σ) :
    List (String × Word σ) → Except Stop (Progress σ)
  | [] => .ok p
  | (_, .option o name attached) :: rest => do
    let c ← (clusterOf options o name attached).mapError .misuse
    match c.last with
    | none => take options (← c.complete.foldlM act p) rest
    | some last =>
      if last.takesValue then
        match rest with
        | (value, .value) :: rest =>
          take options (← (c.complete ++ [(last, value)]).foldlM act p) rest
        | _ => .error (.misuse (.valueMissing last.title))
      else
        take options (← (c.complete ++ [(last, "")]).foldlM act p) rest
  | (word, _) :: rest => take options { p with leftOver := p.leftOver ++ [word] } rest

def read (options : List (Switch σ)) (defaults : σ) (words : List String) : Except Stop σ := do
  let classed ← (classifyAll options words).mapError .misuse
  let p ← take options { result := defaults } classed
  let missing := options.filter fun o => o.required && !p.seen.contains o.title
  unless missing.isEmpty do
    throw (.misuse (.required (missing.map Switch.title)))
  unless p.leftOver.isEmpty do
    throw (.misuse (.leftOver p.leftOver))
  return p.result

def helpOption : Switch σ := { names := ["-h", "--help"], effect := .help }

/-! ## The programs -/

/-- The options of the job that scrapes packages. -/
structure ScrapeOptions where
  cacheDir : Given String := .nothing
  workers : Option (Given Int) := none
  limit : Option (Given Int) := none
  skipSync : Bool := false
  refreshUrl : Option (Given String) := none
  verbosity : Nat := 0
deriving DecidableEq, Repr

/-- The command line of the job that scrapes packages. -/
def ScrapeOptions.options : List (Switch ScrapeOptions) :=
  [helpOption,
   { names := ["-d", "--cache-dir"], effect := .text fun s o => { o with cacheDir := s },
     required := true },
   { names := ["--workers"], effect := .number fun n o => { o with workers := some n } },
   { names := ["--limit"], effect := .number fun n o => { o with limit := some n } },
   { names := ["--skip-sync"], effect := .flag fun o => { o with skipSync := true } },
   { names := ["--refresh-url"], effect := .text fun s o => { o with refreshUrl := some s } },
   { names := ["-v", "--verbose"],
     effect := .flag fun o => { o with verbosity := o.verbosity + 1 } }]

/-- Reads the command line of the job that scrapes packages. -/
def ScrapeOptions.read (words : List String) : Except Stop ScrapeOptions :=
  CommandLine.read ScrapeOptions.options {} words

/-- The options of the program that runs the service. -/
structure ServeOptions where
  host : Given String := .value "0.0.0.0"
  port : Given Int := .value 8080
  reload : Bool := false
deriving DecidableEq, Repr

/-- The command line of the program that runs the service. -/
def ServeOptions.options : List (Switch ServeOptions) :=
  [helpOption,
   { names := ["--host"], effect := .text fun s o => { o with host := s } },
   { names := ["--port"], effect := .number fun n o => { o with port := n } },
   { names := ["--reload"], effect := .flag fun o => { o with reload := true } }]

/-- Reads the command line of the program that runs the service. -/
def ServeOptions.read (words : List String) : Except Stop ServeOptions :=
  CommandLine.read ServeOptions.options {} words

end SignatureSearch.CommandLine
