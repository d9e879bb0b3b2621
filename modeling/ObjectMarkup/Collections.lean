import ObjectMarkup.Types

namespace ObjectMarkup

namespace Object

def hashMap : Object := { typeName := "HashMap", dictionary := some .empty }

def arrayList : Object := { typeName := "ArrayList", sequence := some ⟨[], none, none⟩ }

def listenerList : Object := { typeName := "ListenerList", listeners := some [] }

end Object

def collectionsSpace : String := "wtkx.collections"

def TypeRegistry.collections : TypeRegistry :=
  (TypeRegistry.empty.register (qualifiedName collectionsSpace "HashMap")
    (.ok { root := .hashMap })).register (qualifiedName collectionsSpace "ArrayList")
    (.ok { root := .arrayList })

end ObjectMarkup
