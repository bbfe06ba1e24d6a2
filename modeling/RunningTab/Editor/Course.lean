import RunningTab.Editor.Event
import RunningTab.Editor.Paint

/-!
# What happens to an editor as data

Events and frames, in any order, as one type (`RunningTab.Editor.Occurrence`): the course of a
session is a list of them, and a statement about all courses is an induction on it
(`RunningTab.Editor.afterAll`). Frames belong to it because drawing settles the editor for the size
of the screen.
-/

namespace RunningTab.Editor

/-- Something that happens to an editor. -/
inductive Occurrence where
  | event (event : Event)
  /-- A frame of the given size is drawn. -/
  | frame (width height : Nat)
  deriving DecidableEq, Repr

/-- The editor after an occurrence. -/
def after (e : Editor) : Occurrence → Editor
  | .event event => e.handle event
  | .frame width height => (e.draw width height).1

/-- The editor after a course. -/
def afterAll (e : Editor) (course : List Occurrence) : Editor :=
  course.foldl after e

theorem afterAll_append (e : Editor) (course later : List Occurrence) :
    e.afterAll (course ++ later) = (e.afterAll course).afterAll later :=
  List.foldl_append

theorem afterAll_concat (e : Editor) (course : List Occurrence) (occurrence : Occurrence) :
    e.afterAll (course ++ [occurrence]) = (e.afterAll course).after occurrence :=
  afterAll_append e course [occurrence]

/-- **The reachable editors**: what a course makes of an editor at its start, with any settings. -/
def Reachable (e : Editor) : Prop :=
  ∃ settings course, e = (ofSettings settings).afterAll course

end RunningTab.Editor
