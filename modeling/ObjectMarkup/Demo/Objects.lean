import ObjectMarkup.Collections

namespace ObjectMarkup.Demo

def writable (name : String) (type : ValueType) (intake : Intake) (held : Value) : Property :=
  ⟨⟨name, .writable, type⟩, intake, some held⟩

def plain (name : String) (type : ValueType) : Property := writable name type .anything .null

def text (name : String) : Property := writable name .string .text .null

def link (name : String) : Property := writable name .url .link .null

def composite (name : String) (held : Option Value) : Property :=
  ⟨⟨name, .composite, .object⟩, .anything, held⟩

def listeners (name : String) (held : Option Value) : Property :=
  ⟨⟨name, .listenerList, .object⟩, .anything, held⟩

/-- The part of a blueprint with a number; the root has number zero. -/
def part (n : Nat) : Option Value := some (.object ⟨n⟩)

def bean (typeName : String) (properties : List Property) : Object :=
  { typeName, bean := some ⟨properties, false⟩ }

def openSequence : Sequence := ⟨[], none, none⟩

def style : Object := bean "Style" [text "color", writable "size" .int .integer (.int 0)]

def foo : Blueprint where
  root := bean "Foo"
    [text "bar", plain "count" .int, writable "enabled" .boolean .flag (.boolean false),
      link "icon", plain "child" .object, composite "style" (part 1),
      listeners "listeners" (part 2)]
  parts := [style, .listenerList]

def panel : Blueprint where
  root := { bean "Panel" [text "title"] with sequence := some openSequence }

def hollow : Blueprint where
  root := { typeName := "Hollow", bean := some ⟨[composite "skin" (some .null)], true⟩ }

def handler : Blueprint where
  root := { typeName := "Handler" }

/-- A property of each type, and of each kind that can go wrong. -/
def gauge : Blueprint where
  root := bean "Gauge"
    [plain "flag" .boolean, plain "ch" .char, plain "b" .byte, plain "s" .short, plain "i" .int,
      plain "l" .long, plain "f" .float, plain "d" .double, plain "str" .string, plain "url" .url,
      plain "o" .object, plain "any" .any, writable "strict" .any .requiredText .null,
      ⟨⟨"att", .attached, .int⟩, .anything, some .null⟩,
      composite "tags" (part 1), composite "seq" (part 2), composite "scalar" (some (.int 7)),
      listeners "hooks" (part 3), listeners "fake" (part 1), listeners "nohooks" none]
  parts := [.hashMap, .arrayList, .listenerList]

def both : Blueprint where
  root :=
    { typeName := "Both"
      dictionary := some .empty
      bean := some ⟨[⟨⟨"n", .writable, .int⟩, .anything, some (.string "from bean")⟩,
        composite "frozen" (some (.string "from bean"))], true⟩
      sequence := some openSequence }

/-- A sequence of three good items at most. -/
def picky : Blueprint where
  root := { typeName := "Picky", sequence := some ⟨[], some 3, some "bad"⟩ }

def window : Blueprint where
  root := bean "Window"
    [text "title", plain "content" .object, writable "maximized" .boolean .flag (.boolean false)]

def boxPane : Blueprint where
  root := { bean "BoxPane" [writable "spacing" .int .integer (.int 0)] with
    sequence := some openSequence }

def label : Blueprint where
  root := bean "Label" [text "text"]

def pushButton : Blueprint where
  root := bean "PushButton"
    [text "label", link "icon", listeners "buttonPressListeners" (part 1)]
  parts := [.listenerList]

def pressHandler : Blueprint where
  root := { typeName := "PressHandler" }

def factories : List (String × Factory) :=
  [("demo.Foo", .ok foo), ("demo.Panel", .ok panel), ("demo.Hollow", .ok hollow),
    ("demo.Handler", .ok handler), ("demo.ui.Window", .ok window), ("demo.ui.BoxPane", .ok boxPane),
    ("demo.ui.Label", .ok label), ("demo.ui.PushButton", .ok pushButton),
    ("demo.ui.PressHandler", .ok pressHandler),
    ("demo.Listeners", .ok { root := .listenerList }), ("demo.Shape", .error "abstract type"),
    ("demo.Gauge", .ok gauge), ("demo.Both", .ok both), ("demo.Picky", .ok picky)]

def attached (name : String) (type : ValueType) (intake : Intake) : AttachedProperty :=
  ⟨⟨name, .attached, type⟩, intake⟩

def attachments : List (String × AttachedProperty) :=
  [("demo.Grid", attached "row" .int .anything), ("demo.Grid", attached "label" .string .anything),
    ("demo.Grid", attached "link" .any .anything), ("demo.Grid", attached "strict" .int .integral),
    ("demo.Outer.Grid", attached "row" .boolean .anything),
    ("demo.ui.TablePane", attached "columnSpan" .int .anything)]

def types : TypeRegistry :=
  attachments.foldl (fun t a => t.attach a.1 a.2)
    (factories.foldl (fun t f => t.register f.1 f.2) .collections)

end ObjectMarkup.Demo
