import TrackerLinks.Text.Basic

namespace TrackerLinks.Comment

/-- A comment that a line marker opens ends with its line, and a block ends at its closer. -/
inductive Marker
  | line (opener : Text)
  | block (opener closer : Text)
  deriving DecidableEq

namespace Marker

def opener : Marker → Text
  | line opener => opener
  | block opener _ => opener

def isBlock : Marker → Bool
  | line _ => false
  | block _ _ => true

def line? : Marker → Option Text
  | line opener => some opener
  | block _ _ => none

def block? : Marker → Option (Text × Text)
  | line _ => none
  | block opener closer => some (opener, closer)

/-- The markers with one more, before the first whose opener is no longer. -/
def insert (marker : Marker) : List Marker → List Marker
  | [] => [marker]
  | other :: more =>
      if Text.size other.opener ≤ Text.size marker.opener then marker :: other :: more
      else other :: insert marker more

theorem mem_insert_iff {marker other : Marker} {markers : List Marker} :
    other ∈ insert marker markers ↔ other = marker ∨ other ∈ markers := by
  induction markers with
  | nil => simp [insert]
  | cons first more ih =>
      rw [insert]
      split
      · exact List.mem_cons
      · rw [List.mem_cons, ih, List.mem_cons]
        exact or_left_comm

end Marker

structure Delimiters where
  markers : List Marker
  opener_ne_nil : ∀ marker ∈ markers, marker.opener ≠ [] := by decide

namespace Delimiters

/-- With a block among the markers, comments may stand anywhere in the text; without one, they
are whole lines. -/
def isDelimited (delimiters : Delimiters) : Bool :=
  delimiters.markers.any Marker.isBlock

def lineOpeners (delimiters : Delimiters) : List Text :=
  delimiters.markers.filterMap Marker.line?

def blocks (delimiters : Delimiters) : List (Text × Text) :=
  delimiters.markers.filterMap Marker.block?

/-- The markers in the order in which they are tried: longer openers come first, and of those that
are as long as each other the blocks. -/
def alternatives (delimiters : Delimiters) : List Marker :=
  (delimiters.markers.filter (·.isBlock) ++
    delimiters.markers.filter (!·.isBlock)).foldr Marker.insert []

def markerAt? (delimiters : Delimiters) (text : Text) : Option Marker :=
  delimiters.alternatives.find? (·.opener.isPrefixOf text)

theorem mem_alternatives_iff {delimiters : Delimiters} {marker : Marker} :
    marker ∈ delimiters.alternatives ↔ marker ∈ delimiters.markers := by
  have inserted (markers : List Marker) :
      marker ∈ markers.foldr Marker.insert [] ↔ marker ∈ markers := by
    induction markers with
    | nil => exact Iff.rfl
    | cons first more ih => rw [List.foldr_cons, Marker.mem_insert_iff, ih, List.mem_cons]
  rw [alternatives, inserted, List.mem_append, List.mem_filter, List.mem_filter]
  cases marker.isBlock <;> simp

theorem mem_of_markerAt? {delimiters : Delimiters} {text : Text} {marker : Marker}
    (h : delimiters.markerAt? text = some marker) : marker ∈ delimiters.markers :=
  mem_alternatives_iff.mp (List.mem_of_find?_eq_some h)

theorem opener_ne_nil_of_markerAt? {delimiters : Delimiters} {text : Text} {marker : Marker}
    (h : delimiters.markerAt? text = some marker) : marker.opener ≠ [] :=
  delimiters.opener_ne_nil marker (mem_of_markerAt? h)

end Delimiters

end TrackerLinks.Comment
