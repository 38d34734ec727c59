import RealmDirectory.Server
/-!
# The command line

Reads the settings as a server would be started with, from the settings file of the working
directory and from the environment, and shows where it would listen, or why it could not.
-/

namespace RealmDirectory.CommandLine

/-- The variables that are looked up in the environment. -/
def variableNames : List String :=
  ["bind_address", "registration_port", "admin_address", "max_connections"].map fun key =>
    (Settings.variableHead ++ key).toUpper

/-- The text of the settings file, if there is one. -/
def settingsFile : IO (Option String) :=
  try
    some <$> IO.FS.readFile "config.toml"
  catch _ => pure none

/-- The variables that are set. -/
def environment : IO (List (String × String)) :=
  variableNames.filterMapM fun name => do
    return (← IO.getEnv name).map (name, ·)

/-- What a server with these settings would serve. -/
def report (settings : Settings) : List String :=
  [s!"realm servers: {settings.socket}, at most {settings.maxConnections}",
    "admin logins: " ++ settings.adminAddress.getD "none"]

end RealmDirectory.CommandLine

open RealmDirectory in
/-- Shows the settings in effect. -/
def main : IO UInt32 := do
  match Settings.load (← CommandLine.settingsFile) (← CommandLine.environment) with
  | .ok settings =>
    (CommandLine.report settings).forM IO.println
    return 0
  | .error fault =>
    IO.eprintln fault.message
    return 1
