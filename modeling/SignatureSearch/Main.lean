/-
# `Main` — the command line

The first word `scrape` runs a scrape, any other command line runs the service.
The service keeps its documents in memory and answers requests from standard
input, one a line: a method, a blank, and a path, perhaps with a query after a
question mark.  A scrape has no network here, so it ends where the catalog is
asked for.
-/
import SignatureSearch.Json.Render
import SignatureSearch.Scrape
import SignatureSearch.Service.Api
import SignatureSearch.Timestamp
import Std.Time

namespace SignatureSearch.Program

def currentTime : IO String := do
  let moment := Std.Time.DateTime.ofTimestamp (← Std.Time.Timestamp.now) .UTC
  return (Timestamp.ofText (toString moment.toPlainDateTime)).mark

/-- The service as it is before anything is stored. -/
def blank : Service where
  client := ⟨.empty, [], []⟩
  cache := .empty

def readRequest (host line : String) : Service.Request :=
  let (method, target) := (Text.cutChar ' ' line.toList).getD (line.toList, [])
  let (path, query) := (Text.cutChar '?' target).getD (target, [])
  ⟨String.ofList method, host, String.ofList path, String.ofList query⟩

def replyLine (r : Service.Reply) : String :=
  s!"{r.status} {r.body.render}" ++ r.location.elim "" (" " ++ ·)

/-- What surrounds a scrape without a network. -/
def isolated (cacheDir : String) : Scrape.Surroundings where
  network := []
  remote := ⟨[], []⟩
  cacheDir := .ofText cacheDir
  root := .ofText cacheDir
  tree := .empty

/-- Says why the program does not start. -/
def stop (s : CommandLine.Stop) : IO UInt32 := do
  unless s.announcement.isEmpty do IO.eprintln s.announcement
  return s.code.toUInt32

def scrape (words : List String) : IO UInt32 := do
  let now ← currentTime
  let ((exit, _), _) := (Scrape.program {} now isolated words).run blank.client
  match exit with
  | .stopped s => stop s
  | .failed _ => return 1
  | .code n => return n.toUInt32

/-- Answers requests until the input ends. -/
partial def answerLines (host : String) (started : Nat) (s : Service) : IO UInt32 := do
  let line ← (← IO.getStdin).getLine
  if line.isEmpty then return 0
  let uptime := .ofDecimal false ((← IO.monoMsNow) - started) (-3)
  let request := readRequest host (line.dropEndWhile (· == '\n')).toString
  let (reply, s) := (Service.respond {} ⟨← currentTime, uptime⟩ request).run s
  IO.println (replyLine reply)
  answerLines host started s

def serve (words : List String) : IO UInt32 := do
  match CommandLine.ServeOptions.read words with
  | .error s => stop s
  | .ok o =>
    let (_, s) := (Service.start {} (← currentTime)).run blank
    let host := o.host.value?.getD ""
    let port := (o.port.value?.map toString).getD ""
    answerLines s!"{host}:{port}" (← IO.monoMsNow) s

end SignatureSearch.Program

/-- Runs the program that the command line asks for. -/
def main (args : List String) : IO UInt32 :=
  match args with
  | "scrape" :: words => SignatureSearch.Program.scrape words
  | words => SignatureSearch.Program.serve words
