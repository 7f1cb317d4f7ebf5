import CodeReview.CommandLine.Run

/-! # The program

    Gathers the surroundings of a run, runs the command line, and carries
    out what the run wants printed and written.  There is no connection to
    a server, so every request fails. -/

namespace CodeReview.Main

/-- The files and folders beneath some entries of a folder. -/
partial def filesIn (place : List String) (entries : List IO.FS.DirEntry) : IO FileTree := do
  let parts ← entries.mapM fun entry => do
    let here := place ++ [entry.fileName]
    if ← entry.path.isDir then
      let inner ← filesIn here (← entry.path.readDir).toList
      return { inner with emptyFolders := here :: inner.emptyFolders }
    else
      try
        return { files := [(here, (← IO.FS.readBinFile entry.path).toList)] }
      catch _ => return { files := [(here, [])], unreadable := [here] }
  return {
    files := parts.flatMap (·.files)
    emptyFolders := parts.flatMap (·.emptyFolders)
    unreadable := parts.flatMap (·.unreadable) }

/-- The rest of the standard input. -/
partial def readAll (input : IO.FS.Stream) (before : String) : IO String := do
  let line ← input.getLine
  if line.isEmpty then return before else readAll input (before ++ line)

/-- The standard input, if a command line asks for it. -/
def standardInput (s : CommandLine.Surroundings) (args : List String) :
    IO Text := do
  match s.command? args with
  | some (.review options) =>
      if options.diffSource? = some "-" then
        return (← readAll (← IO.getStdin) "").toList
      else return []
  | _ => return []

/-- What the program tells about its commands. -/
def help : CommandLine.HelpTopic → String
  | .program => "Usage: rulelens [OPTIONS] COMMAND [ARGS]...\n"
  | .review => "Usage: rulelens review [OPTIONS] [PATHS]...\n"
  | .languages => "Usage: rulelens languages [OPTIONS]\n"

/-- The variables that a run looks at. -/
def variableNames : List String :=
  "GITHUB_TOKEN" :: Config.Field.all.map Config.Field.variableName

/-- The environment of the program. -/
def environment : IO Environment := do
  let values ← variableNames.mapM fun name => do
    return (← IO.getEnv name).map (name, ·)
  return values.filterMap id

/-- What the program finds around it. -/
def surroundings (args : List String) : IO CommandLine.Surroundings := do
  let folder ← IO.currentDir
  let tree ← filesIn [] (← folder.readDir).toList
  let lost : HttpFault := ⟨.other "", "no connection"⟩
  let s : CommandLine.Surroundings := {
    tree := { tree with home := Path.parse folder.toString }
    environment := ← environment
    replies := fun _ => .fault lost
    comments := { lost := some (.openRepository, lost) }
    help }
  return { s with input := ← standardInput s args }

/-- Carries out what a run does to the outside. -/
def carryOut : Event → IO Unit
  | .print text => IO.print text
  | .write place text => IO.FS.writeFile (String.intercalate "/" place) text
  | _ => return ()

/-- What to say about a failure that was not foreseen. -/
def lastWords : CommandLine.ExitStatus → Option String
  | .crashed (.inaccessible e) => some e.text
  | .crashed (.fetch e) => some e.message
  | .crashed (.post e) => some e.message
  | _ => none

end CodeReview.Main

open CodeReview in
/-- Runs the command line. -/
def main (args : List String) : IO UInt32 := do
  let outcome := CommandLine.run (← Main.surroundings args) args
  outcome.log.forM fun entry => IO.eprintln entry.render
  outcome.events.forM Main.carryOut
  (Main.lastWords outcome.value).forM fun text => IO.eprintln text
  return outcome.value.code.toUInt32
