import TrackerLinks.Comment.Span
import TrackerLinks.Document
import TrackerLinks.Json
import TrackerLinks.Text.Quoted

namespace TrackerLinks

def Position.json (p : Position) : Json :=
  .object [("character".toList, .number p.character), ("line".toList, .number p.line)]

def Range.json (range : Range) : Json :=
  .object [("end".toList, range.stop.json), ("start".toList, range.start.json)]

def Link.json (link : Link) : Json :=
  .object
    [("end_offset".toList, .number link.stop),
      ("range".toList, link.range.json),
      ("start_offset".toList, .number link.start),
      ("target".toList, .text link.target),
      ("tooltip".toList, .text link.tooltip)]

def Repository.json (repository : Repository) : Json :=
  .object
    [("provider".toList, .text repository.provider.name),
      ("slug".toList, .text repository.slug),
      ("web_url".toList, .text repository.webUrl)]

def Repository.lines (repository : Repository) : Text :=
  "web_url:  ".toList ++ repository.webUrl ++ "\nprovider: ".toList ++
    repository.provider.name ++ "\nslug:     ".toList ++ repository.slug ++ "\n".toList

def Position.shown (p : Position) : Text :=
  Text.decimal (p.line + 1) ++ ":".toList ++ Text.decimal (p.character + 1)

def Link.line (path : Path) (link : Link) : Text :=
  path ++ ":".toList ++ link.range.start.shown ++ "-".toList ++ link.range.stop.shown ++
    "  ".toList ++ link.target ++ "  ".toList ++ link.tooltip ++ "\n".toList

def DocumentLinks.json (path : Path) (found : DocumentLinks) : Json :=
  .object
    [("links".toList, .list (found.links.map Link.json)),
      ("repository".toList, .option Repository.json found.repository),
      ("path".toList, .text path)]

def DocumentLinks.lines (path : Path) (found : DocumentLinks) : Text :=
  found.links.flatMap (Link.line path)

def Comment.Span.line (span : Comment.Span) (position : Position) : Text :=
  position.shown ++ "  ".toList ++ Text.decimal span.start ++ "..".toList ++
    Text.decimal span.stop ++ "  ".toList ++ Text.quote span.text ++ "\n".toList

def Comment.spanLines (language text : Text) : List Text :=
  let index := LineIndex.ofText text
  (Comment.spansIn language text).map fun span => span.line (index.positionAt span.start)

end TrackerLinks
