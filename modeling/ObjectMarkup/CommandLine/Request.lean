import ObjectMarkup.OrderedMap
import ObjectMarkup.Text.Split

namespace ObjectMarkup.CommandLine

/-- The options that take a value, after an equals sign or as the next argument, which then must not
look like an option. -/
inductive Setting where
  | root
  | resources
  | locale
  | id
  deriving DecidableEq, Repr

def Setting.ofName? : String → Option Setting
  | "root" => some .root
  | "resources" => some .resources
  | "locale" => some .locale
  | "id" => some .id
  | _ => none

/-- Whether the setting may have the empty value. The root directory needs a name. -/
def Setting.allowsEmpty : Setting → Bool
  | .root => false
  | _ => true

/-- The options without a value. -/
inductive Switch where
  | verbose
  | help
  | version
  deriving DecidableEq, Repr

def Switch.ofName? : String → Option Switch
  | "verbose" => some .verbose
  | "help" => some .help
  | "version" => some .version
  | _ => none

def Switch.ofLetter? : Char → Option Switch
  | 'v' => some .verbose
  | 'h' => some .help
  | 'V' => some .version
  | _ => none

/-- Why no document is read. -/
inductive Halt where
  | misuse
  | help
  | version
  deriving DecidableEq, Repr

/-- A document to read, and how. -/
structure Request where
  document : String
  settings : OrderedMap Setting String
  verbose : Bool
  deriving DecidableEq, Repr

/-- A request that the arguments so far leave open. They are read from left to right, and the first
that is wrong or stops the program decides. Nothing may be said twice, and after a double hyphen no
argument is an option. -/
structure Draft where
  document : Option String
  settings : OrderedMap Setting String
  verbose : Bool
  deriving DecidableEq, Repr

inductive Argument where
  | plain (text : String)
  /-- The mark after which all arguments are plain. -/
  | endOfOptions
  | named (name : String) (value : Option String)
  | letters (letters : List Char)
  deriving DecidableEq, Repr

namespace Argument

/-- The form of an argument. A single hyphen is plain. -/
def ofString (s : String) : Argument :=
  match s.toList with
  | ['-', '-'] => .endOfOptions
  | '-' :: '-' :: rest =>
    match Text.cutFirst '=' rest with
    | some (name, value) => .named (String.ofList name) (some (String.ofList value))
    | none => .named (String.ofList rest) none
  | '-' :: c :: rest => .letters (c :: rest)
  | _ => .plain s

end Argument

namespace Draft

def empty : Draft := ⟨none, .empty, false⟩

def addDocument (d : Draft) (document : String) : Except Halt Draft :=
  match d.document with
  | some _ => .error .misuse
  | none => .ok { d with document := some document }

def addSetting (d : Draft) (setting : Setting) (value : String) : Except Halt Draft :=
  if d.settings.contains setting then .error .misuse
  else if value = "" ∧ !setting.allowsEmpty then .error .misuse
  else .ok { d with settings := d.settings.insert setting value }

def addSwitch (d : Draft) : Switch → Except Halt Draft
  | .verbose => if d.verbose then .error .misuse else .ok { d with verbose := true }
  | .help => .error .help
  | .version => .error .version

def addLetters (d : Draft) : List Char → Except Halt Draft
  | [] => .ok d
  | c :: rest =>
    match Switch.ofLetter? c with
    | none => .error .misuse
    | some switch => do (← d.addSwitch switch).addLetters rest

def addDocuments (d : Draft) : List String → Except Halt Draft
  | [] => .ok d
  | document :: rest => do (← d.addDocument document).addDocuments rest

/-- Takes a named option that has no value after it. -/
def addSwitchNamed (d : Draft) (name : String) : Except Halt Draft :=
  match Switch.ofName? name with
  | some switch => d.addSwitch switch
  | none => .error .misuse

def add (d : Draft) : List String → Except Halt Draft
  | [] => .ok d
  | argument :: rest =>
    match Argument.ofString argument with
    | .plain document => do (← d.addDocument document).add rest
    | .endOfOptions => d.addDocuments rest
    | .letters letters => do (← d.addLetters letters).add rest
    | .named name value =>
      match Setting.ofName? name, value, rest with
      | some setting, some value, rest => do (← d.addSetting setting value).add rest
      | some _, none, [] => .error .misuse
      | some setting, none, next :: rest =>
        match Argument.ofString next with
        | .plain value => do (← d.addSetting setting value).add rest
        | _ => .error .misuse
      | none, some _, _ => .error .misuse
      | none, none, rest => do (← d.addSwitchNamed name).add rest

def finish (d : Draft) : Except Halt Request :=
  match d.document with
  | none => .error .misuse
  | some document => .ok ⟨document, d.settings, d.verbose⟩

end Draft

def Request.parse (arguments : List String) : Except Halt Request := do
  (← Draft.empty.add arguments).finish

/-- The directory that documents are read from, which is where the program runs unless said
otherwise. -/
def Request.root (r : Request) : String := (r.settings.get? .root).getD "."

def Request.withRoot (r : Request) (root : String) : Request :=
  { r with settings := r.settings.insert .root root }

end ObjectMarkup.CommandLine
