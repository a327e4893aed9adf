import OutlineWiki.Command.Run

/-!
What a run of the command leaves behind.

Apart from files, that is an exit status and what goes to the two outputs. A command that
fails prints nothing, and reports why it fails.
-/

namespace OutlineWiki

/-- The exit status of a run, what it prints, and what it reports about faults. -/
structure Outcome where
  status : UInt32
  printed : List Char := []
  reported : List Char := []
  deriving DecidableEq, Repr

namespace Outcome

def success (text : List Char) : Outcome :=
  { status := 0, printed := text }

def failed (failure : Failure) : Outcome :=
  { status := 1, reported := "Error: ".toList ++ failure.message ++ ['\n'] }

/-- The outcome when the arguments are in disorder. -/
def disorder : Outcome :=
  { status := 2, reported := "usage: wikidown [-v] convert|info|version\n".toList }

def ofResult : Except Failure (List Char) → Outcome
  | .ok text => success text
  | .error failure => failed failure

end Outcome

section

variable {m : Type → Type} [Monad m]

/-- Does what is asked for, and gives the outcome. -/
def Invocation.outcome (system : FileSystem m) (invocation : Invocation) : m Outcome := do
  let result ← (invocation.run system).run
  return .ofResult result

/-- Runs the command with the given arguments. -/
def runCommand (system : FileSystem m) (arguments : List String) : m Outcome :=
  match Invocation.ofArguments arguments with
  | none => return .disorder
  | some invocation => invocation.outcome system

end

end OutlineWiki
