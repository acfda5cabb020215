import SchemaTyping.Json.Decoding
import SchemaTyping.OrderedMap
import SchemaTyping.TypeUse.Basic

/-!
# Settings

The settings name the roots of collections, streams and maps, and the type that stands for a
component about which nothing better is known.
-/

namespace SchemaTyping

/-- Which declared names are roots of containers, and the name of the object type. -/
structure Settings where
  objectType : String
  collectionTypes : OrderedSet
  streamTypes : OrderedSet
  mapTypes : OrderedSet
deriving DecidableEq

namespace Settings

/-- The object type unless a setting names another one. -/
def defaultObjectType : String := "java.lang.Object"

/-- The settings unless something else is said. -/
def standard : Settings where
  objectType := defaultObjectType
  collectionTypes := .ofList
    ["java.util.Collection", "java.util.List", "java.util.Set", "java.util.SortedSet",
      "java.util.Queue", "java.util.Deque", "java.util.ArrayList", "java.util.LinkedList",
      "java.util.HashSet", "java.util.LinkedHashSet", "java.util.TreeSet"]
  streamTypes := .ofList ["java.util.stream.Stream"]
  mapTypes := .ofList
    ["java.util.Map", "java.util.HashMap", "java.util.LinkedHashMap", "java.util.TreeMap",
      "java.util.SortedMap", "java.util.concurrent.ConcurrentMap"]

instance : Inhabited Settings := ⟨standard⟩

/-- Add the roots of other settings. Their object type counts unless it is the default one. -/
def merge (settings other : Settings) : Settings where
  objectType :=
    if other.objectType = defaultObjectType then settings.objectType else other.objectType
  collectionTypes := settings.collectionTypes.union other.collectionTypes
  streamTypes := settings.streamTypes.union other.streamTypes
  mapTypes := settings.mapTypes.union other.mapTypes

/-- Is this the name of a root of collections? -/
def isCollectionRoot (settings : Settings) (name : String) : Bool :=
  name ∈ settings.collectionTypes

/-- Is this the name of a root of streams? -/
def isStreamRoot (settings : Settings) (name : String) : Bool :=
  name ∈ settings.streamTypes

/-- Is this the name of a root of maps? -/
def isMapRoot (settings : Settings) (name : String) : Bool :=
  name ∈ settings.mapTypes

/-- The object type as a type use. -/
def object (settings : Settings) : TypeUse :=
  .declared settings.objectType []

/-! ### JSON -/

open Json JsonSource

/-- Write settings; all four are written. -/
def toJson (settings : Settings) : Json :=
  .object [("object_type", .string settings.objectType),
    ("collection_types", ofStrings settings.collectionTypes.toList),
    ("stream_types", ofStrings settings.streamTypes.toList),
    ("map_types", ofStrings settings.mapTypes.toList)]

/-- A set of names, given by a list. -/
def readNames (tree : JsonSource) : Decoded OrderedSet :=
  .ofList <$> asList asString tree

/-- Read settings; each one that is absent has its standard value. -/
def decode (tree : JsonSource) : Decoded Settings :=
  asRecord tree
    [field _ "object_type" false asString fun objectType s => { s with objectType },
      field _ "collection_types" false readNames
        fun collectionTypes s => { s with collectionTypes },
      field _ "stream_types" false readNames fun streamTypes s => { s with streamTypes },
      field _ "map_types" false readNames fun mapTypes s => { s with mapTypes }]
    standard

end Settings

end SchemaTyping
