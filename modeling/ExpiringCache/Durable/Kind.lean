import ExpiringCache.Text.Choice

/-!
# Kinds of backend

A durable table is kept by a backend: in memory, or in a file. Records name the kind of backend
they are for, and a configuration chooses one.
-/

namespace ExpiringCache

/-- A kind of backend for the durable table. -/
inductive BackendKind where
  | memory
  | file
deriving DecidableEq, Inhabited

namespace BackendKind

/-- The kinds in the order of their names. -/
def all : List BackendKind := [.file, .memory]

/-- Whether applying a change waits for a disk. -/
def blocks : BackendKind → Bool
  | .memory => false
  | .file => true

/-- The name of the kind. -/
def name : BackendKind → String
  | .memory => "memory"
  | .file => "file"

/-- The name of the kind as a title. -/
def title : BackendKind → String
  | .memory => "Memory"
  | .file => "File"

/-- The kind whose name is exactly this text. -/
def ofName? (text : String) : Option BackendKind := all.find? (fun kind => kind.name == text)

/-- The words for the kinds. -/
def words : List (String × BackendKind) :=
  [("memory", .memory), ("mem", .memory), ("file", .file), ("disk", .file)]

/-- The kind a word stands for. -/
def ofText (text : String) : Except Text.UnknownWord BackendKind :=
  Text.choose "persistence solver" words text

end BackendKind

end ExpiringCache
