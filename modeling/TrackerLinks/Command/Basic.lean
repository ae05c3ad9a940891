import TrackerLinks.Guide
import TrackerLinks.Walk

namespace TrackerLinks

inductive Command
  | comments (file : Path) (language? : Option Text)
  | info (json : Bool)
  | links (file : Path) (language? : Option Text) (json : Bool)
  | resolve (path : Path) (json : Bool)
  | scan (json : Bool)
  deriving DecidableEq

/-- What a run of the program leaves behind: on standard output, and on standard error if an error
ended it. -/
structure Outcome where
  exitCode : Nat
  output : Text
  diagnostic : Option Error
  deriving DecidableEq

namespace Outcome

def success (output : Text) : Outcome :=
  ⟨0, output, none⟩

def failure (exitCode : Nat) (error : Error) : Outcome :=
  ⟨exitCode, [], some error⟩

end Outcome

variable [Monad m]

/-- A command at work. It prints as it goes, until it is done or an error ends it with an exit
code. -/
abbrev Work (m : Type → Type) :=
  ExceptT (Nat × Error) (StateT Text m)

namespace Work

def ask (action : m α) : Work m α :=
  liftM action

def print (text : Text) : Work m Unit :=
  modify (· ++ text)

/-- The value of an action, whose error ends the work with this exit code. -/
def orExit (exitCode : Nat) (action : m (Except Error α)) : Work m α := do
  match ← action with
  | .ok value => return value
  | .error error => throw (exitCode, error)

def outcome (work : Work m Unit) : m Outcome := do
  match ← work.run.run [] with
  | (.ok _, output) => return ⟨0, output, none⟩
  | (.error (exitCode, error), output) => return ⟨exitCode, output, some error⟩

end Work

namespace Command

open Work

def here : Path :=
  ['.']

def printed (json : Json) : Text :=
  json.pretty ++ ['\n']

def loadHere (host : Host m) (file : Path) (language? : Option Text) :
    m (Except Error Document) := do
  match ← Settings.load host here with
  | .error error => return .error error
  | .ok settings => Document.load host settings file language?

def pathFault : Text :=
  "path contains invalid UTF-8 characters".toList

/-- The links of a document as JSON, which holds text only. -/
def report (host : Host m) (path : Path) (found : DocumentLinks) : Work m Json := do
  if ← host.isUnicode path then return found.json path
  throw (2, .json pathFault)

def runComments (host : Host m) (file : Path) (language? : Option Text) : Work m Unit := do
  let document ← orExit 2 (loadHere host file language?)
  print ("language: ".toList ++ document.language ++ "\n".toList)
  (Comment.spanLines document.language document.text).forM print

def runInfo (host : Host m) (json : Bool) : Work m Unit := do
  let state ← ask (Guide.State.gather host here)
  print (if json then printed (Guide.json state) else Guide.markdown state)

def runLinks (host : Host m) (file : Path) (language? : Option Text) (json : Bool) :
    Work m Unit := do
  let document ← orExit 2 (loadHere host file language?)
  let found ← ask (document.links host)
  if json then print (printed (← report host file found))
  else print (found.lines file)

def runResolve (host : Host m) (path : Path) (json : Bool) : Work m Unit := do
  let repository ← orExit 1 (Repository.ofPath host path)
  print (if json then printed repository.json else repository.lines)

def scanFile? (host : Host m) (settings : Settings) (names : List Name) :
    m (Option (Path × DocumentLinks)) := do
  match ← Document.load host settings (here.below names) none with
  | .error _ => return none
  | .ok document =>
      let found ← document.links host
      return if found.links.isEmpty then none else some (Text.joined ['/'] names, found)

def scanFiles (host : Host m) (settings : Settings) :
    List (List Name) → m (List (Path × DocumentLinks))
  | [] => return []
  | names :: more => do
      let first ← scanFile? host settings names
      return first.toList ++ (← scanFiles host settings more)

def printReports (host : Host m) (json : Bool) (files : List (Path × DocumentLinks)) :
    Work m Unit := do
  if json then
    let reports ← files.mapM fun file => report host file.1 file.2
    print (printed (.list reports))
  else files.forM fun file => print (file.2.lines file.1)

def runScan (host : Host m) (json : Bool) : Work m Unit := do
  let settings ← orExit 2 (Settings.load host here)
  let names ← ask (walkNames host settings here)
  let files ← ask (scanFiles host settings names)
  printReports host json files

def work (host : Host m) : Command → Work m Unit
  | comments file language? => runComments host file language?
  | info json => runInfo host json
  | links file language? json => runLinks host file language? json
  | resolve path json => runResolve host path json
  | scan json => runScan host json

def run (host : Host m) (command : Command) : m Outcome :=
  (command.work host).outcome

end Command

end TrackerLinks
