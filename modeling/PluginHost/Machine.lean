import PluginHost.Environment
import PluginHost.Failure

/-!
# Machines

A machine is what a program runs on: files, variables of the environment, and one other
program that can be started, the package manager, which answers each run with the next of its
replies.  A program is looked up by its path if its name has a separator in it, and in the
directories of the variable `PATH` otherwise.
-/

namespace PluginHost

/-- What a program does in one run: the files that it writes, its output, and how it ends. -/
structure Reply where
  files : List (Path × Entry)
  output : List UInt8
  complaints : List UInt8
  status : ExitStatus

/-- Files, an environment, and a package manager with its replies, the reply that it gives when
none of them is left, and the arguments of its runs. -/
structure Machine where
  files : Files
  environment : Environment
  manager : Path
  replies : List Reply
  lastReply : Reply
  calls : List (List String)

namespace Machine

/-- Whether the file that a path leads to can be started as a program. -/
def executable (m : Machine) (files : Files) (p : Path) : Except FileError Unit := do
  match ← files.entry p with
  | .directory => .error .accessDenied
  | .file _ =>
    if (files.resolve p).toOption == (files.resolve m.manager).toOption then .ok ()
    else .error .accessDenied

/-- The first program in a list of places that can be started.  Otherwise a refusal counts
most, and then the last reason. -/
def firstExecutable (m : Machine) (files : Files) (reason : FileError) :
    List Path → Except FileError Unit
  | [] => .error reason
  | p :: rest =>
    match m.executable files p with
    | .ok () => .ok ()
    | .error e =>
      firstExecutable m files (if reason = .accessDenied then reason else e) rest

/-- Whether a program can be started in a directory. -/
def startable (m : Machine) (directory : Path) (program : String) (arguments : List String) :
    Except FileError Unit := do
  if (program :: directory.text :: arguments).any fun s => s.toList.contains '\x00' then
    throw .nulInProgram
  match ← m.files.entry directory with
  | .file _ => throw .notDirectory
  | .directory =>
    let files := { m.files with here := m.files.here.join directory }
    if program = "" then throw .notFound
    else if program.toList.contains '/' then m.executable files ⟨program⟩
    else
      let directories := Text.splitOn ':' ((m.environment.lookup? "PATH").getD "").toList
      m.firstExecutable files .notFound
        (directories.map fun d => (⟨String.ofList d⟩ : Path).below program)

/-- One run of a program in a directory: its reply, and the machine after it. -/
def run (m : Machine) (directory : Path) (program : String) (arguments : List String) :
    Except FileError (Reply × Machine) := do
  m.startable directory program arguments
  let reply := m.replies.head?.getD m.lastReply
  return (reply, { m with
    files := reply.files.foldl (fun fs f => fs.provide f.1 f.2) m.files
    replies := m.replies.tail
    calls := m.calls ++ [arguments] })

end Machine

end PluginHost
