import Turnstile.Text.Blank
import Turnstile.Text.Utf8

/-!
# Environment file

A file of assignments from which a few variables are passed on to the build.

* `Environment.assignment?`: the variable that a line sets, and its value.
* `Environment.output`: what is told to the build.
-/

namespace Turnstile.Environment

/-- The name of the file. -/
def fileName : String := ".env"

/-- The variables that are passed on. -/
def passedOn : List String :=
  ["WIFI_SSID", "WIFI_PASS", "MQTT_URL", "MQTT_USER", "MQTT_PASS", "DEVICE_ID", "TOPIC_ROOT",
   "RESPONSE_TOPIC"]

/-- A value without the quotes around it. -/
def unquote (value : List Char) : List Char :=
  if value.head? = some '"' ∧ value.getLast? = some '"' ∧ 2 ≤ value.length then
    (value.drop 1).dropLast
  else value

/-- What follows the word `export` and a space, if a line starts so. -/
def dropExport (line : List Char) : List Char :=
  if "export ".toList.isPrefixOf line then line.drop 7 else line

/-- The variable that a line sets, and its value. Comments and lines without `=` set
none. Blanks around the line, a carriage return among them, do not count. -/
def assignment? (line : List Char) : Option (List Char × List Char) :=
  let line := Text.trim Text.isBlank line
  if line.isEmpty ∨ line.head? = some '#' then none
  else
    let line := dropExport line
    let value := line.dropWhile (· ≠ '=')
    if value.isEmpty then none
    else
      some (Text.trim Text.isBlank (line.takeWhile (· ≠ '=')),
        unquote (Text.trim Text.isBlank (value.drop 1)))

/-- What is told to the build of a line. -/
def directive? (line : List Char) : Option String :=
  match assignment? line with
  | none => none
  | some (name, value) =>
    if passedOn.contains (String.ofList name) then
      some ("cargo:rustc-env=" ++ String.ofList name ++ "=" ++ String.ofList value)
    else none

/-- What is told to the build of a file; of one that is missing or no text, just that. -/
def directives (file : Option Bytes) : List String :=
  match file.bind Utf8.decode? with
  | none => ["cargo:warning=missing .env (built-in defaults for WIFI_*/MQTT_*/DEVICE_ID apply)"]
  | some text => (text.toList.splitOn '\n').filterMap directive?

/-- What is told to the build, line by line. -/
def output (file : Option Bytes) : String :=
  String.join ((("cargo:rerun-if-changed=" ++ fileName) :: directives file).map (· ++ "\n"))

end Turnstile.Environment
