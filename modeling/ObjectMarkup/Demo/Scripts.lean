import ObjectMarkup.Number.Numeral
import ObjectMarkup.Script

namespace ObjectMarkup.Demo

/-- The command on a line such as `name=value` or `name=$other`. -/
def assignment (line : List Char) : Command :=
  if line = "fail".toList then .fail (.evaluation "asked to fail")
  else
    match Text.cutFirst '=' line with
    | some (name, '$' :: source) => .copy (String.ofList source) (String.ofList name)
    | some (name, value) => .assign (String.ofList name) (.string (String.ofList value))
    | none => .fail (.evaluation ("bad line '" ++ String.ofList line ++ "'"))

def lineScript : ScriptEngine where
  language := "test"
  extensions := ["tst"]
  compile script :=
    (((Text.pieces '\n' script.toList).map Text.trim).filter fun l => !l.isEmpty).map assignment

/-- The commands on a line of words, of which there are none on a blank line. -/
def operation (line : List Char) : List Command :=
  match (Text.words line).map String.ofList with
  | [] => []
  | ["put", name, value] => [.assign name (.string value)]
  | ["int", name, numeral] =>
    [.assign name
      (((readIntWithin 32 numeral.toList).map fun n => Value.int (.ofInt n)).getD .null)]
  | ["copy", source, target] => [.copy source target]
  | ["remove", name] => [.remove name]
  | ["has", source, target] => [.test source target]
  | ["keys", target] => [.list target]
  | _ => [.fail (.unsupported (String.ofList (Text.trim line)))]

def operations : ScriptEngine where
  language := "ops"
  extensions := ["ops", "op"]
  compile script := (Text.pieces '\n' script.toList).flatMap operation

def engines : ScriptEngines := [lineScript, operations]

end ObjectMarkup.Demo
