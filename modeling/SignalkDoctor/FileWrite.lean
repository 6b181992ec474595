/-!
# FileWrite — a file written step by step

A file is opened, written, in the same `try` synced and the like, and closed in the `finally`.  Each step may fail, and a
write that does not fail may still accept a prefix of the content only.  `WriteSteps.run` is what the steps throw, if
anything, and what the file holds after them, by `run_of_openError` and `run_opened`.  `fsyncDir` is the sync of the
directory after a rename.
-/
namespace SignalkDoctor

/-- The outcomes of the steps; `later` are those of the `try` after the write. -/
structure WriteSteps (ε : Type) where
  openError : Option ε
  /-- How much of the content the write accepts, also when it fails. -/
  accepted : Nat
  writeError : Option ε
  later : List (Option ε)
  closeError : Option ε
  deriving DecidableEq, Repr

namespace WriteSteps

variable {ε α : Type}

/-- The first error of the `try`; what the close throws replaces it. -/
def bodyError (w : WriteSteps ε) : Option ε := w.closeError.or (w.writeError.or (w.later.findSome? id))

/-- The error thrown, and the content of the file, none when it was not opened. -/
def run (w : WriteSteps ε) (body : List α) : Option ε × Option (List α) :=
  match w.openError with
  | some e => (some e, none)
  | none => (w.bodyError, some (body.take w.accepted))

theorem run_of_openError {w : WriteSteps ε} {e : ε} (h : w.openError = some e) (body : List α) :
    w.run body = (some e, none) := by
  simp only [run, h]

theorem run_opened {w : WriteSteps ε} (h : w.openError = none) (body : List α) :
    w.run body = (w.bodyError, some (body.take w.accepted)) := by
  simp only [run, h]

end WriteSteps

/-- `fsyncDir`, a directory opened, synced and closed in the `finally`: what it throws. -/
def fsyncDir {ε : Type} (openError syncError closeError : Option ε) : Option ε := openError.or (closeError.or syncError)

end SignalkDoctor
