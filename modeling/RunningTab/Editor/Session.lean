import RunningTab.Editor.Event
import RunningTab.Editor.Paint
import RunningTab.Screen.Terminal

/-!
# Full-screen sessions

A frame is drawn at the start and after every event; drawing may scroll, so it is part of the
session's course. The session ends with the frame after the event that quits.
-/

namespace RunningTab.Editor

/-- **The editor and the last frame of a session** on a screen of the given size. -/
def session (width height : Nat) (e : Editor) : List Event → Editor × Frame
  | [] => e.draw width height
  | event :: events =>
    let drawn := e.draw width height
    if drawn.1.quitting then drawn else session width height (drawn.1.handle event) events

/-- What is written to the terminal when a session whose last frame is given is over. -/
def farewell (f : Frame) : Text :=
  Terminal.leaveFullScreen f.cursor.isNone

end RunningTab.Editor
