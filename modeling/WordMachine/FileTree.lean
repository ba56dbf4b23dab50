import WordMachine.Text.Parts

/-!
# File trees

Files and directories as a value, paths into them, and the walk through a
directory in the order of its entries' names.
-/

namespace WordMachine

/-- Why there is no text to be had from a path. -/
inductive FileProblem where
  | missing
  | belowFile
  | notText
deriving DecidableEq, Repr

namespace FileProblem

def message : FileProblem → String
  | missing => "No such file or directory (os error 2)"
  | belowFile => "Not a directory (os error 20)"
  | notText => "stream did not contain valid UTF-8"

end FileProblem

inductive FileTree where
  | file (content : ByteArray)
  | directory (entries : List (String × FileTree))

namespace FileTree

def empty : FileTree := .directory []

/-! ## Paths -/

/-- The names along a path.  That of an absolute path is preceded by a name of
its own, which no entry of a real directory bears. -/
def components (path : String) : List String :=
  let names := (Text.splitAt '/' path.toList).map String.ofList
  if path.toList.head? = some '/' then "/" :: names else names

/-- Follows the components of a path; `above` holds the directories on the way,
the nearest first.  Only a directory can be gone on from, be it to itself. -/
def follow (above : List FileTree) (node : FileTree) : List String → Except FileProblem FileTree
  | [] => .ok node
  | name :: rest =>
    match node with
    | file _ => .error .belowFile
    | directory entries =>
      if name = "" ∨ name = "." then follow above node rest
      else
        match entries.lookup name with
        | some child => follow (node :: above) child rest
        | none =>
          match name, above with
          | "..", parent :: above => follow above parent rest
          | _, _ => .error .missing

/-- The node at a path that starts from the root of the tree.  What lies outside
of the tree is known only so far as the root has entries `/` and `..`. -/
def find (root : FileTree) (path : String) : Except FileProblem FileTree :=
  root.follow [] (components path)

/-- The path of an entry of the directory at `path`. -/
def join (path name : String) : String :=
  if path = "" ∨ path.toList.getLast? = some '/' then path ++ name else path ++ "/" ++ name

/-! ## Building -/

/-- Puts a node at the end of a path, with the directories that lead there. -/
def insert (node : FileTree) : List String → FileTree → FileTree
  | [], tree => match node, tree with
    | directory [], directory entries => directory entries
    | _, _ => node
  | name :: rest, tree =>
    let entries := match tree with
      | directory entries => entries
      | file _ => []
    let child := (entries.lookup name).getD empty
    directory ((name, insert node rest child) :: entries.filter fun entry ↦ entry.1 != name)

/-- Puts a node at a path. -/
def place (tree : FileTree) (path : String) (node : FileTree) : FileTree :=
  insert node ((components path).filter fun name ↦ name ≠ "" ∧ name ≠ ".") tree

/-- A tree of files by their paths; a path that ends in a slash is a directory. -/
def ofFiles (files : List (String × ByteArray)) : FileTree :=
  files.foldl (fun tree (path, content) ↦
    tree.place path (if path.toList.getLast? = some '/' then empty else file content)) empty

/-! ## Walking -/

/-- A name has the extension `json` when something stands before it. -/
def isJsonName (name : String) : Bool :=
  let cs := name.toList
  ".json".toList.isSuffixOf cs && 5 < cs.length

mutual

/-- The `json` files below a node that stands at `path`, with their paths. -/
def jsonFiles (path : String) : FileTree → List (String × ByteArray)
  | file _ => []
  | directory entries =>
    ((entryFiles path entries).mergeSort fun a b ↦ a.1 ≤ b.1).flatMap (·.2)

/-- For each entry its name and the `json` files that it is or holds. -/
def entryFiles (path : String) :
    List (String × FileTree) → List (String × List (String × ByteArray))
  | [] => []
  | (name, node) :: rest =>
    let found := match node with
      | file content => if isJsonName name then [(join path name, content)] else []
      | directory entries => jsonFiles (join path name) (.directory entries)
    (name, found) :: entryFiles path rest

end

/-- The text of a file. -/
def text (content : ByteArray) : Except FileProblem String :=
  match String.fromUTF8? content with
  | some text => .ok text
  | none => .error .notText

end FileTree

end WordMachine
