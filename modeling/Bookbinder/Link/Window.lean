import Bookbinder.Text.Basic

/-!
# Line windows

The lines that follow a comment in its source, cut off after a fixed number and trimmed.
-/

namespace Bookbinder

/-- The trimmed line a comment ends on and the trimmed lines after it. -/
structure Window where
  anchor : Text
  nextLines : List Text
deriving DecidableEq, Repr

namespace Window

/-- The lines after the comment run together with nothing between them. -/
def joined (w : Window) : Text := w.nextLines.flatten

/-- The window of up to `size` lines after line `endLine`, which counts from 1. There is none when
nothing follows that line. -/
def after? (content : Text) (endLine size : Nat) : Option Window :=
  match endLine with
  | 0 => none
  | last + 1 =>
    match (lines content).drop last with
    | anchor :: line :: rest => some ⟨trim anchor, ((line :: rest).take size).map trim⟩
    | _ => none

end Window

end Bookbinder
