import ExpiringCache.Durable.Snapshot

/-!
# Backends

Where a durable table is kept: in memory, or in memory and in the snapshot file of a folder. The
file backend writes a new snapshot after every change that changes something. A snapshot is written
whole or not at all; when it cannot be written, the call fails, and the table in memory keeps the
change.
-/

namespace ExpiringCache

/-- The folder of a snapshot file. -/
inductive Folder where
  /-- The folder cannot be made. -/
  | blocked
  /-- There is no folder. -/
  | absent
  /-- The folder, with the content of the snapshot file, if there is one, and whether there is no
  room to write. -/
  | present (snapshot : Option Bytes) (full : Bool)
deriving DecidableEq

namespace Folder

/-- Makes the folder unless it is there. -/
def create : Folder → Except DurableError Folder
  | .blocked => .error .io
  | .absent => .ok (.present none false)
  | .present snapshot full => .ok (.present snapshot full)

/-- The content of the snapshot file. -/
def snapshot? : Folder → Option Bytes
  | .present snapshot _ => snapshot
  | _ => none

/-- Replaces the snapshot file. -/
def write (folder : Folder) (content : Bytes) : Except DurableError Folder :=
  match folder with
  | .present _ false => .ok (.present (some content) false)
  | _ => .error .io

end Folder

/-- A durable table and where it is kept. -/
inductive Backend where
  | memory (table : Table)
  | file (table : Table) (folder : Folder)

namespace Backend

/-- The table of a backend. -/
def table : Backend → Table
  | .memory table => table
  | .file table _ => table

/-- Opens the snapshot of a folder, which is made unless it is there. -/
def openFolder (folder : Folder) : Except DurableError Backend := do
  let folder ← folder.create
  let table ← Snapshot.parse (folder.snapshot?.getD [])
  pure (.file table folder)

/-- Keeps a changed table, and writes it where there is a folder to write to. -/
def keep (backend : Backend) (table : Table) : Except DurableError Unit × Backend :=
  match backend with
  | .memory _ => (.ok (), .memory table)
  | .file _ folder =>
    match folder.write (Snapshot.render table) with
    | .ok folder => (.ok (), .file table folder)
    | .error e => (.error e, .file table folder)

/-- Applies a change. -/
def apply (backend : Backend) (change : Change) (now : Millis) :
    Except DurableError Unit × Backend :=
  let (changed, table) := backend.table.apply change now
  if changed then backend.keep table else (.ok (), backend)

/-- Removes a key, and answers whether it was recorded. -/
def erase (backend : Backend) (key : Bytes) : Except DurableError Bool × Backend :=
  let (erased, table) := backend.table.erase key
  if erased then
    let (result, backend) := backend.keep table
    (result.map fun _ => true, backend)
  else (.ok false, backend)

end Backend

/-- The backends there are, by kind. -/
structure Registry where
  memory : Option Backend := none
  file : Option Backend := none
deriving Inhabited

namespace Registry

/-- The backend of a kind. -/
def find? (r : Registry) : BackendKind → Option Backend
  | .memory => r.memory
  | .file => r.file

/-- Sets the backend of a kind. -/
def insert (r : Registry) (kind : BackendKind) (backend : Backend) : Registry :=
  match kind with
  | .memory => { r with memory := some backend }
  | .file => { r with file := some backend }

/-- The kinds that have a backend, in the order of their names. -/
def kinds (r : Registry) : List BackendKind := BackendKind.all.filter fun k => (r.find? k).isSome

/-- The backend of a kind, or the error that there is none. -/
def resolve (r : Registry) (kind : BackendKind) : Except DurableError Backend :=
  match r.find? kind with
  | some backend => .ok backend
  | none => .error (.noBackend kind)

@[simp] theorem find?_insert (r : Registry) (kind k : BackendKind) (backend : Backend) :
    (r.insert kind backend).find? k = if k = kind then some backend else r.find? k := by
  cases kind <;> cases k <;> rfl

end Registry

end ExpiringCache
