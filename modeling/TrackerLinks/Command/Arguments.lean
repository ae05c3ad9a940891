import TrackerLinks.Command.Basic

/-! Command lines. An option takes the argument after it or the text after its `=`, and after `--`
there are only operands. -/

namespace TrackerLinks

inductive Request
  | run (command : Command)
  | version
  | misuse
  deriving DecidableEq

namespace Request

/-- What a command accepts besides the log level. -/
structure Usage where
  takesLanguage : Bool
  takesJson : Bool
  takesOperand : Bool

structure Given where
  hasLevel : Bool
  language? : Option Text
  json : Bool
  operand? : Option Text
  operandsOnly : Bool

def Given.start : Given :=
  ⟨false, none, false, none, false⟩

/-- A lone dash is an operand like any other. -/
def isFlag (argument : Text) : Bool :=
  argument.head? = some '-' && argument ≠ ['-']

def level : Text :=
  "--log-level".toList

def language : Text :=
  "--language".toList

def attached? (option argument : Text) : Option Text :=
  if (option ++ ['=']).isPrefixOf argument then some (argument.drop (option.length + 1))
  else none

def Given.withLevel? (given : Given) : Option Given :=
  if given.hasLevel then none else some { given with hasLevel := true }

def Given.withLanguage? (usage : Usage) (given : Given) (value : Text) : Option Given :=
  if !usage.takesLanguage || given.language?.isSome then none
  else some { given with language? := some value }

def Given.withJson? (usage : Usage) (given : Given) : Option Given :=
  if !usage.takesJson || given.json then none else some { given with json := true }

def Given.withOperand? (usage : Usage) (given : Given) (operand : Text) : Option Given :=
  if !usage.takesOperand || given.operand?.isSome || operand.isEmpty then none
  else some { given with operand? := some operand }

def readArguments? (usage : Usage) (given : Given) : List Text → Option Given
  | [] => some given
  | argument :: rest =>
      if given.operandsOnly || !isFlag argument then
        (given.withOperand? usage argument).bind (readArguments? usage · rest)
      else if argument = "--".toList then
        readArguments? usage { given with operandsOnly := true } rest
      else if argument = "--json".toList then
        (given.withJson? usage).bind (readArguments? usage · rest)
      else if argument = level then
        match rest with
        | [] => none
        | value :: rest =>
            if isFlag value then none
            else given.withLevel?.bind (readArguments? usage · rest)
      else if argument = language then
        match rest with
        | [] => none
        | value :: rest =>
            if isFlag value then none
            else (given.withLanguage? usage value).bind (readArguments? usage · rest)
      else if (attached? level argument).isSome then
        given.withLevel?.bind (readArguments? usage · rest)
      else
        match attached? language argument with
        | some value => (given.withLanguage? usage value).bind (readArguments? usage · rest)
        | none => none

def ofCommand? (name : Text) (arguments : List Text) : Option Command :=
  match String.ofList name with
  | "comments" => do
      let given ← readArguments? ⟨true, false, true⟩ .start arguments
      return .comments (← given.operand?) given.language?
  | "info" => do
      let given ← readArguments? ⟨false, true, false⟩ .start arguments
      return .info given.json
  | "links" => do
      let given ← readArguments? ⟨true, true, true⟩ .start arguments
      return .links (← given.operand?) given.language? given.json
  | "resolve" => do
      let given ← readArguments? ⟨false, true, true⟩ .start arguments
      return .resolve (← given.operand?) given.json
  | "scan" => do
      let given ← readArguments? ⟨false, true, false⟩ .start arguments
      return .scan given.json
  | _ => none

/-- The request of a command line, whose arguments up to the command are read from the left. -/
def ofArguments (hasLevel : Bool) : List Text → Request
  | [] => misuse
  | argument :: rest =>
      if argument = "--version".toList || "-V".toList.isPrefixOf argument then version
      else if argument = level then
        match rest with
        | [] => misuse
        | value :: rest =>
            if hasLevel || isFlag value then misuse else ofArguments true rest
      else if (attached? level argument).isSome then
        if hasLevel then misuse else ofArguments true rest
      else
        match ofCommand? argument rest with
        | some command => run command
        | none => misuse

end Request

def Outcome.ofArguments [Monad m] (host : Host m) (arguments : List Text) : m Outcome :=
  match Request.ofArguments false arguments with
  | .run command => command.run host
  | .version => return .success ("issuelink ".toList ++ Guide.version ++ "\n".toList)
  | .misuse => return ⟨2, [], none⟩

end TrackerLinks
