import CodeReview.Sink.JsonLines
/-!
# Watching a run

A run is watched by the log, which hears of its progress, and by a file of findings if there is one. The
clock that stamps the lines of the file is the one that the run reads.
-/
namespace CodeReview.Sink

open Calendar (Clock)

/-- Those who watch a run, and its clock. -/
structure Watch where
  progress : Progress := {}
  findings : Option JsonLines := none
  clock : Clock

namespace Watch

def wrote (w : Watch) (reply : Run.Reply (JsonLines × Clock)) : Run.Reply Watch where
  failure := reply.failure
  state := { w with findings := some reply.state.1, clock := reply.state.2 }
  log := reply.log

def observers : Run.Observers Watch where
  now w :=
    let (time, clock) := w.clock.read
    (time, { w with clock })
  progress w processed total phase :=
    let reply := w.progress.report processed total phase
    { failure := reply.failure, state := { w with progress := reply.state }, log := reply.log }
  write w r :=
    match w.findings with
    | none => { state := w }
    | some sink => w.wrote (sink.write w.clock r)
  close w r :=
    match w.findings with
    | none => { state := w }
    | some sink => w.wrote (sink.close w.clock r)

def text (w : Watch) : String := (w.findings.map (·.text)).getD ""

end Watch
end CodeReview.Sink
