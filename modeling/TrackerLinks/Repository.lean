import TrackerLinks.Text.Blank

namespace TrackerLinks

/-- The service that hosts a repository and lays out its issue URLs. -/
inductive Provider
  | bitbucket
  | git
  | gitHub
  | gitLab
  deriving DecidableEq

namespace Provider

def name : Provider → Text
  | bitbucket => "Bitbucket".toList
  | git => "Git".toList
  | gitHub => "GitHub".toList
  | gitLab => "GitLab".toList

def all : List Provider :=
  [gitHub, gitLab, bitbucket, git]

def ofName? (name : Text) : Option Provider :=
  all.find? (·.name = name)

/-- The first well-known site that the host name mentions. -/
def ofHost (host : Text) : Provider :=
  if Text.contains host "github.com".toList then gitHub
  else if Text.contains host "gitlab.com".toList then gitLab
  else if Text.contains host "bitbucket.org".toList then bitbucket
  else git

/-- What stands between the web URL of a repository and the number of an issue. -/
def issuePath : Provider → Text
  | gitLab => "/-/issues/".toList
  | _ => "/issues/".toList

def issueUrl (provider : Provider) (webUrl number : Text) : Text :=
  webUrl ++ provider.issuePath ++ number

end Provider

structure Repository where
  provider : Provider
  slug : Text
  webUrl : Text
  deriving DecidableEq

namespace Repository

def issueUrl (repository : Repository) (number : Text) : Text :=
  repository.provider.issueUrl repository.webUrl number

def isSlash (c : Char) : Bool :=
  c = '/'

def gitSuffix : Text :=
  ".git".toList

/-- A run of characters on one line, at least one. -/
def isPlain (text : Text) : Bool :=
  !text.isEmpty && text.all (· ≠ '\n')

/-- The text up to the first separator and the text after it. -/
def cutAt? (separator : Char) (text : Text) : Option (Text × Text) :=
  match text.dropWhile (· ≠ separator) with
  | [] => none
  | _ :: after => some (text.takeWhile (· ≠ separator), after)

/-- Host and path of `git@host:path`, where a final `.git` is not part of a longer path. -/
def sshParts? (url : Text) : Option (Text × Text) := do
  guard ("git@".toList.isPrefixOf url)
  let (host, path) ← cutAt? ':' (url.drop 4)
  guard (!host.isEmpty && isPlain path)
  return (host, if path = gitSuffix then path else Text.dropSuffix gitSuffix path)

def scheme? (url : Text) : Option Text :=
  ["http://".toList, "https://".toList].find? (·.isPrefixOf url)

/-- Host and path of an HTTP URL without its final `.git` and without user information. -/
def httpParts? (url : Text) : Option (Text × Text) := do
  guard (scheme? url).isSome
  let bare := Text.dropSuffix gitSuffix url
  let scheme ← scheme? bare
  let (authority, path) ← cutAt? '/' (bare.drop scheme.length)
  guard (!authority.isEmpty && isPlain path)
  return ((authority.reverse.takeWhile (· ≠ '@')).reverse, path)

def at? (host path : Text) : Option Repository :=
  let slug := Text.trimEndWhile isSlash (path.dropWhile isSlash)
  if host.isEmpty || slug.isEmpty then none
  else some
    { provider := Provider.ofHost host
      slug := slug
      webUrl := "https://".toList ++ host ++ '/' :: slug }

def ofRemoteUrl? (url : Text) : Option Repository :=
  let url := Text.trimEndWhile isSlash (Text.trim url)
  match (sshParts? url).orElse fun _ => httpParts? url with
  | some (host, path) => at? host path
  | none => none

end Repository

end TrackerLinks
