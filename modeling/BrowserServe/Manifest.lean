import Mathlib.Data.List.Basic

namespace BrowserServe
set_option autoImplicit true

structure ManifestEntry where
  path : String
  bytes : List UInt8
  deriving DecidableEq

def NATIVE_STORES : List String := ["Default/IndexedDB", "Default/Service Worker"]

mutual

/-- What `pack_walk` meets under a name: a directory, a regular file and what reading it
gives, a node of another type, or one whose metadata cannot be read. -/
inductive Node where
  | dir (entries : Dir)
  | file (bytes : Except String (List UInt8))
  | other
  | unreadable (error : String)

/-- What `read_dir` gives, entry by entry, to its end or an error. -/
inductive Dir where
  | nil
  | failed (error : String)
  | cons (name : String) (node : Node) (rest : Dir)

end

mutual

def packNode (path : String) (out : List ManifestEntry) :
    Node → Except String (List ManifestEntry)
  | .dir entries => packWalk path out entries
  | .file (.ok bytes) => .ok (out ++ [⟨path, bytes⟩])
  | .file (.error e) => .error e
  | .other => .ok out
  | .unreadable e => .error e

def packWalk (dir : String) (out : List ManifestEntry) :
    Dir → Except String (List ManifestEntry)
  | .nil => .ok out
  | .failed e => .error e
  | .cons name node rest => do
    let out ← packNode (dir ++ "/" ++ name) out node
    packWalk dir out rest

end

/-- `pack_native` over the directories that are at the paths of the native stores. -/
def packNative (store : String → Option Dir) : Except String (List ManifestEntry) :=
  NATIVE_STORES.foldlM (fun out path =>
    match store path with
    | some dir => packWalk path out dir
    | none => .ok out) []

end BrowserServe
