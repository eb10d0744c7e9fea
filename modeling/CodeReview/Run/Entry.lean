import CodeReview.Failure
import CodeReview.Log.Record
/-!
# Listings

What a run is given to analyze: entries in an order, each a path and the outcome of reading it, which is
looked at only if the entry is analyzed. A listing may break off with a failure.
-/
namespace CodeReview.Run

structure Unreadable where
  path : String
  message : String
  deriving DecidableEq, Repr

def Unreadable.failure (u : Unreadable) : Failure := .unreadable u.path u.message

structure Entry where
  path : String
  /-- What reading the file gives. -/
  load : Except Failure String

namespace Entry

def ofText (path text : String) : Entry := ⟨path, .ok text⟩

/-- How the failure of a load is reported: as it is if it already tells of a file that could not be
read, and otherwise as that of this file. -/
def unreadable (e : Entry) : Failure → Unreadable
  | .unreadable path message => ⟨path, message⟩
  | f => ⟨e.path, f.reason⟩

def read (e : Entry) : Except Unreadable String := e.load.mapError e.unreadable

end Entry

/-- The files of a repository, in the order in which they are analyzed. -/
structure Listing where
  entries : List Entry
  /-- Why the listing could not be completed. -/
  failure : Option Failure := none
  /-- What was told while the files were listed. -/
  log : List Log.Record := []

end CodeReview.Run
