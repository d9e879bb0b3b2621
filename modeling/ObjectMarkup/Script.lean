import ObjectMarkup.Registry

namespace ObjectMarkup

inductive ScriptError where
  | evaluation (reason : String)
  | unsupported (construct : String)
  deriving DecidableEq, Repr

def ScriptError.message : ScriptError → String
  | .evaluation reason => s!"Script evaluation failed: {reason}"
  | .unsupported construct => s!"Unsupported script construct: {construct}"

inductive Command where
  /-- Binds a name to a value. -/
  | assign (target : String) (value : Value)
  /-- Binds a name to what a path leads to, or to null. -/
  | copy (source target : String)
  /-- Drops a name. -/
  | remove (target : String)
  /-- Binds a name to whether a path leads to a value. -/
  | test (source target : String)
  /-- Binds a name to the list of all names, in order, with commas between them. -/
  | list (target : String)
  /-- Stops the script. -/
  | fail (e : ScriptError)
  deriving DecidableEq, Repr

namespace Command

def run (names : Registry) : Command → Except ScriptError Registry
  | .assign target value => .ok (names.put target value)
  | .copy source target => .ok (names.put target ((names.get? source).getD .null))
  | .remove target => .ok (names.remove target)
  | .test source target => .ok (names.put target (.boolean (names.contains source)))
  | .list target => .ok (names.put target (.string (Text.join "," names.sortedIds)))
  | .fail e => .error e

def runAll (names : Registry) : List Command → Except ScriptError Registry
  | [] => .ok names
  | c :: rest =>
    match c.run names with
    | .error e => .error e
    | .ok names => runAll names rest

end Command

structure ScriptEngine where
  language : String
  extensions : List String
  compile : String → List Command

/-- The engines of a reader, in the order of their registration. -/
abbrev ScriptEngines := List ScriptEngine

namespace ScriptEngines

def byLanguage? (engines : ScriptEngines) (language : String) : Option ScriptEngine :=
  engines.reverse.find? fun e => Text.sameLetters e.language language

def byExtension? (engines : ScriptEngines) (extension : String) : Option ScriptEngine :=
  engines.reverse.find? fun e => e.extensions.any fun x => Text.sameLetters x extension

/-- The engine for a key: a language, or else an extension, in any case of ASCII letters. The one
registered last counts. -/
def find? (engines : ScriptEngines) (key : String) : Option ScriptEngine :=
  (engines.byLanguage? key).orElse fun _ => engines.byExtension? key

end ScriptEngines

def ScriptEngine.run (engine : ScriptEngine) (script : String) (names : Registry) :
    Except ScriptError Registry :=
  Command.runAll names (engine.compile script)

end ObjectMarkup
