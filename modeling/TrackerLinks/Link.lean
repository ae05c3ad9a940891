import TrackerLinks.Comment.Span
import TrackerLinks.LineIndex
import TrackerLinks.Reference
import TrackerLinks.Repository

namespace TrackerLinks

structure Link where
  start : Nat
  stop : Nat
  range : Range
  target : Text
  tooltip : Text
  deriving DecidableEq

namespace Link

/-- The link for a reference whose offset counts from the start of the document. -/
def ofReference (repository : Repository) (reference : Reference) (range : Range) : Link :=
  { start := reference.start
    stop := reference.stop
    range := range
    target := repository.issueUrl reference.number
    tooltip :=
      "Open ".toList ++ repository.provider.name ++ " Issue #".toList ++ reference.number }

end Link

/-- The references that stand inside a comment, counted from the start of the document. -/
def Comment.Span.references (span : Comment.Span) : List Reference :=
  (Reference.inText span.text).map fun reference =>
    { reference with start := span.start + reference.start }

def commentReferences (language text : Text) : List Reference :=
  (Comment.spansIn language text).flatMap (·.references)

def links (language text : Text) (repository : Repository) : List Link :=
  let index := LineIndex.ofText text
  (commentReferences language text).map fun reference =>
    Link.ofReference repository reference (index.range reference.start reference.stop)

end TrackerLinks
