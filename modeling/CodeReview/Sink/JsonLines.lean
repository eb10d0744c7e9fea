import CodeReview.Sink.Progress
import CodeReview.Text.Lines
import CodeReview.Value.Json
/-!
# Findings as JSON lines

A file to which one JSON table a line is appended: one for each file result and, when the sink is closed, a
last one with the summary. Each line has the time at which it was written. A closed sink refuses results,
and closing it again does nothing.
-/
namespace CodeReview.Sink

open Calendar (Clock)

/-- A file that JSON lines are appended to: its path, whether it is open, and the lines so far. -/
structure JsonLines where
  path : String
  isOpen : Bool := true
  lines : List String := []
  deriving DecidableEq, Repr, Inhabited

namespace JsonLines

/-- Appends a line: the given entries and the time. -/
def append (s : JsonLines) (clock : Clock) (entries : Entries Value) : JsonLines × Clock :=
  let (time, clock) := clock.read
  ({ s with lines := s.lines ++ [(Value.map (entries.set "ts" (.text time.iso))).compact] }, clock)

def fileEntries (r : FileResult) : Entries Value := [("type", .text "file"), ("file", r.toValue)]

def summaryEntries (r : RepositoryResult) : Entries Value := [
  ("type", .text "summary"),
  ("status", .text r.state.name),
  ("summary", r.summary),
  ("errors", .list (r.errors.map (·.toValue)))]

def write (s : JsonLines) (clock : Clock) (r : FileResult) : Run.Reply (JsonLines × Clock) :=
  if s.isOpen then { state := s.append clock (fileEntries r) }
  else { failure := some (.closedSink s.path), state := (s, clock) }

def close (s : JsonLines) (clock : Clock) (r : RepositoryResult) : Run.Reply (JsonLines × Clock) :=
  if s.isOpen then
    let (s, clock) := s.append clock (summaryEntries r)
    { state := ({ s with isOpen := false }, clock)
      log := [Log.debug speaker ("Closed findings log " ++ s.path)] }
  else { state := (s, clock) }

def text (s : JsonLines) : String := Text.ofLines s.lines

end JsonLines
end CodeReview.Sink
