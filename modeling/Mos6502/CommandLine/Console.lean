import Mos6502.CommandLine.FileStore
import Mos6502.Timestamp

/-!
Consoles: programs that talk to their surroundings, by files, two streams of lines, and a clock. A program is a
finite tree of requests. It can be run against files that are held as data, which gives a transcript.
-/

namespace Mos6502

/-- One request of a program to its surroundings. -/
inductive ConsoleOp where
  | read (path : String)
  | write (path : String) (bytes : List UInt8)
  /-- A line for the output. -/
  | print (line : String)
  /-- A line for the error output. -/
  | complain (line : String)
  | now
deriving DecidableEq, Repr

def ConsoleOp.Answer : ConsoleOp → Type
  | .read _ => Except FileError (List UInt8)
  | .write _ _ => Except FileError Unit
  | .print _ | .complain _ => Unit
  | .now => Timestamp

/-- A program of requests with a result. -/
inductive Console (α : Type) where
  | done (result : α)
  | step (op : ConsoleOp) (next : op.Answer → Console α)

namespace Console

variable {α β : Type}

/-- Runs one program and then another that depends on its result. -/
def bind : Console α → (α → Console β) → Console β
  | done result, next => next result
  | step op rest, next => step op fun answer => (rest answer).bind next

instance : Monad Console where
  pure := done
  bind := bind

@[simp]
theorem pure_eq_done (result : α) : (pure result : Console α) = done result := rfl

@[simp]
theorem bind_done (result : α) (next : α → Console β) : (done result >>= next) = next result := rfl

@[simp]
theorem bind_step (op : ConsoleOp) (rest : op.Answer → Console α) (next : α → Console β) :
    (step op rest >>= next) = step op fun answer => rest answer >>= next := rfl

def read (path : String) : Console (Except FileError (List UInt8)) := step (.read path) done

def write (path : String) (bytes : List UInt8) : Console (Except FileError Unit) :=
  step (.write path bytes) done

def print (line : String) : Console Unit := step (.print line) done

/-- Prints a line on the error output. -/
def complain (line : String) : Console Unit := step (.complain line) done

def now : Console Timestamp := step .now done

def printLines : List String → Console Unit
  | [] => done ()
  | line :: rest => step (.print line) fun _ => printLines rest

/-- Prints lines on the error output. -/
def complainLines : List String → Console Unit
  | [] => done ()
  | line :: rest => step (.complain line) fun _ => complainLines rest

end Console

/-- What a program leaves behind: the lines of both streams and the files. -/
structure Transcript where
  output : Array String := #[]
  errors : Array String := #[]
  files : FileStore := {}
deriving DecidableEq, Repr

/-- Answers a request from the files of a transcript, at a given time. -/
def ConsoleOp.perform (time : Timestamp) : (op : ConsoleOp) → Transcript → op.Answer × Transcript
  | .read path, t => (t.files.read path, t)
  | .write path bytes, t =>
    let (result, files) := t.files.write path bytes
    (result, { t with files })
  | .print line, t => ((), { t with output := t.output.push line })
  | .complain line, t => ((), { t with errors := t.errors.push line })
  | .now, t => (time, t)

/-- Runs a program against the files of a transcript. -/
def Console.run {α : Type} (time : Timestamp) : Console α → Transcript → α × Transcript
  | .done result, t => (result, t)
  | .step op next, t =>
    match op.perform time t with
    | (answer, t) => (next answer).run time t

namespace Console

variable {α β : Type}

@[simp]
theorem run_done (time : Timestamp) (result : α) (t : Transcript) :
    (done result).run time t = (result, t) := rfl

@[simp]
theorem run_step (time : Timestamp) (op : ConsoleOp) (next : op.Answer → Console α)
    (t : Transcript) :
    (step op next).run time t = (next (op.perform time t).1).run time (op.perform time t).2 := rfl

@[simp]
theorem run_bind (time : Timestamp) (program : Console α) (next : α → Console β)
    (t : Transcript) :
    (program >>= next).run time t =
      (next (program.run time t).1).run time (program.run time t).2 := by
  induction program generalizing t with
  | done result => rfl
  | step op rest ih => simp only [bind_step, run_step, ih]

end Console

end Mos6502
