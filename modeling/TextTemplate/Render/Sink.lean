/-!
# Sinks

Where a render writes its text: into one text, into a list that keeps every piece apart, or into
bytes. A list can be full after a number of pieces, and bytes can run out of room, in which case
the bytes that still fit are written.

## Main definitions

* `Sink` — what has been written, and how much room there is.
* `Sink.append` — writes one more piece.
-/

namespace TextTemplate

/-- What has been written so far, and the room that is left, if there is a limit to it. Pieces are
kept latest first. -/
inductive Sink where
  | text (written : String)
  | pieces (written : List String) (room : Option Nat)
  | bytes (written : ByteArray) (room : Option Nat)

namespace Sink

/-- The sink that collects one text. -/
def collector : Sink := .text ""

/-- Writes one more piece; if it fails, what has been written and why no more was. -/
def append (sink : Sink) (piece : String) : Sink × Option String :=
  match sink with
  | .text written => (.text (written ++ piece), none)
  | .pieces written none => (.pieces (piece :: written) none, none)
  | .pieces written (some 0) => (.pieces written (some 0), some "sink full")
  | .pieces written (some (room + 1)) => (.pieces (piece :: written) (some room), none)
  | .bytes written none => (.bytes (written ++ piece.toUTF8) none, none)
  | .bytes written (some room) =>
    let bytes := piece.toUTF8
    if bytes.size ≤ room then
      (.bytes (written ++ bytes) (some (room - bytes.size)), none)
    else
      (.bytes (written ++ bytes.extract 0 room) (some 0), some "failed to write whole buffer")

/-- The text of a sink that collects one text. -/
def collected : Sink → String
  | .text written => written
  | .pieces written _ => String.join written.reverse
  | .bytes written _ => (String.fromUTF8? written).getD ""

end Sink

end TextTemplate
