/-
# Reading TOML documents

A document is a list of lines: headers, which open a table or a further table of an
array, and keys with their values.  A table is *implied* as long as only the tables
below it have headers, and *dotted* if the keys of a line made it.

| refused | |
| --- | --- |
| a key that is there already | |
| a header of a table that is not implied, or dotted | |
| a dotted key into a table that is not dotted | |
| a key below a value | |
-/
import ElementBuild.Toml.Scalar
import ElementBuild.Toml.Text

namespace ElementBuild
namespace Toml

/-- What stands under a key while a document is read. -/
inductive Item where
  | value (v : Toml)
  | table (implied dotted : Bool) (items : List (String × Item))
  /-- The tables of an array. -/
  | tables (rows : List (List (String × Item)))

/-- Keys and what stands under them. -/
abbrev Items := List (String × Item)

namespace Items

/-- What stands under a key. -/
def get? (items : Items) (key : String) : Option Item :=
  (items.find? (·.1 == key)).map (·.2)

/-- Puts something under a key, in its place or at the end. -/
def put (items : Items) (key : String) (x : Item) : Items :=
  if items.any (·.1 == key) then items.map fun e => if e.1 == key then (key, x) else e
  else items ++ [(key, x)]

/-- Changes the table that keys lead to from a table, which is told whether it is
dotted.  Tables that are missing are implied; `dotted` says whether the keys are
those of a line. -/
def modifyAt (dotted : Bool) (f : Bool → Items → Option Items) :
    List String → Bool → Items → Option Items
  | [], isDotted, items => f isDotted items
  | key :: keys, _, items =>
    match items.get? key with
    | none => (modifyAt dotted f keys dotted []).map fun below =>
        items.put key (.table true dotted below)
    | some (.value _) => none
    | some (.tables rows) =>
      match rows.reverse with
      | [] => none
      | last :: before => (modifyAt dotted f keys false last).map fun last =>
          items.put key (.tables (last :: before).reverse)
    | some (.table implied d below) =>
      if dotted && !implied then none
      else (modifyAt dotted f keys d below).map fun below =>
        items.put key (.table implied d below)

/-- Puts a value under the keys of a line. -/
def assign (items : Items) (path : List String) (key : String) (v : Toml) : Option Items :=
  items.modifyAt true (fun isDotted items =>
    if isDotted == path.isEmpty then none
    else if (items.get? key).isSome then none
    else some (items.put key (.value v))) path false

end Items

mutual

/-- The value of an item. -/
def Item.toToml : Item → Toml
  | .value v => v
  | .table _ _ items => .table (itemsToToml items)
  | .tables rows => .array (rowsToToml rows)

/-- The values of items. -/
def itemsToToml : List (String × Item) → List (String × Toml)
  | [] => []
  | (key, x) :: rest => (key, x.toToml) :: itemsToToml rest

/-- The tables of an array. -/
def rowsToToml : List (List (String × Item)) → List Toml
  | [] => []
  | row :: rows => .table (itemsToToml row) :: rowsToToml rows

end

/-! ### Keys and values -/

/-- Whether a character may stand in a key without quotes. -/
def isKeyChar (c : Char) : Bool := c.isAlpha || c.isDigit || c == '_' || c == '-'

/-- One key. -/
def simpleKey? (cs : List Char) : Option (String × List Char) :=
  match cs with
  | '"' :: rest => basic? (rest.length + 1) [] rest
  | '\'' :: rest => literal? rest
  | _ =>
    let (key, rest) := cs.span isKeyChar
    if key.isEmpty then none else some (String.ofList key, rest)

/-- The most keys between dots. -/
def keyLimit : Nat := 79

/-- Keys between dots. -/
def keys? : Nat → List Char → Option (List String × List Char)
  | 0, _ => none
  | n + 1, cs => do
    let (key, rest) ← simpleKey? (dropBlanks cs)
    match dropBlanks rest with
    | '.' :: rest =>
      let (more, rest) ← keys? n rest
      some (key :: more, rest)
    | rest => some ([key], rest)

/-- A line's keys and value: the tables on the way, the last key and the value. -/
def keyValue? (value : List Char → Option (Toml × List Char)) (cs : List Char) :
    Option ((List String × String × Toml) × List Char) := do
  let (keys, rest) ← keys? keyLimit cs
  let rest ← mark? '=' rest
  let (v, rest) ← value (dropBlanks rest)
  let key ← keys.getLast?
  some ((keys.dropLast, key, v), rest)

/-- The items of an array after its bracket. -/
def arrayItems? (value : List Char → Option (Toml × List Char)) :
    Nat → List Toml → List Char → Option (List Toml × List Char)
  | 0, _, _ => none
  | n + 1, read, cs =>
    match dropFiller cs.length cs with
    | ']' :: rest => some (read.reverse, rest)
    | cs => do
      let (v, rest) ← value cs
      match dropFiller rest.length rest with
      | ',' :: rest => arrayItems? value n (v :: read) rest
      | ']' :: rest => some ((v :: read).reverse, rest)
      | _ => none

/-- The entries of a table in braces, after at least one blank or none. -/
def inlineEntries? (value : List Char → Option (Toml × List Char)) :
    Nat → Items → List Char → Option (Items × List Char)
  | 0, _, _ => none
  | n + 1, read, cs => do
    let ((path, key, v), rest) ← keyValue? value cs
    let read ← read.assign path key v
    match dropBlanks rest with
    | ',' :: rest => inlineEntries? value n read rest
    | '}' :: rest => some (read, rest)
    | _ => none

/-- A value that nests less than a depth. -/
def value? : Nat → List Char → Option (Toml × List Char)
  | depth, cs =>
    match cs with
    | [] => none
    | c :: rest =>
      if c = '"' ∨ c = '\'' then (quoted? cs).map fun (s, rest) => (.string s, rest)
      else if c = '[' then
        match depth with
        | 0 => none
        | depth + 1 => (arrayItems? (value? depth) (rest.length + 1) [] rest).map
            fun (vs, rest) => (.array vs, rest)
      else if c = '{' then
        match depth with
        | 0 => none
        | depth + 1 =>
          match dropBlanks rest with
          | '}' :: rest => some (.table [], rest)
          | _ => (inlineEntries? (value? depth) (rest.length + 1) [] rest).map
              fun (items, rest) => (.table (itemsToToml items), rest)
      else scalar? cs

/-- The depth to which values nest. -/
def depthLimit : Nat := 79

/-! ### Documents -/

/-- A document in the course of being read: the tables that are finished, and the
one that is open. -/
structure Document where
  root : Items := []
  /-- The keys of the open table. -/
  path : List String := []
  /-- Whether the open table belongs to an array. -/
  inArray : Bool := false
  items : Items := []

namespace Document

/-- Closes the open table. -/
def close (d : Document) : Option Items :=
  match d.path.getLast? with
  | none => some d.items
  | some key =>
    d.root.modifyAt false (fun _ parent =>
      if d.inArray then
        match parent.get? key with
        | some (.tables rows) => some (parent.put key (.tables (rows ++ [d.items])))
        | none => some (parent.put key (.tables [d.items]))
        | _ => none
      else
        match parent.get? key with
        | none => some (parent.put key (.table false false d.items))
        | _ => none) d.path.dropLast false

/-- The table that keys lead to, as far as it is there. -/
def itemsAt : List String → Items → Items
  | [], items => items
  | key :: keys, items =>
    match items.get? key with
    | some (.table _ _ below) => itemsAt keys below
    | some (.tables rows) => itemsAt keys (rows.getLast?.getD [])
    | _ => []

/-- Opens a table.  One that was only implied goes on, at the end of its parent. -/
def openTable (d : Document) (path : List String) (key : String) : Option Document := do
  let closed ← d.close
  let root ← closed.modifyAt false (fun _ parent =>
    match parent.get? key with
    | none => some parent
    | some (.table true false _) => some (parent.filter (·.1 != key))
    | _ => none) path false
  let items := match Items.get? (itemsAt path closed) key with
    | some (.table _ _ items) => items
    | _ => []
  some { root, path := path ++ [key], items }

/-- Opens a further table of an array. -/
def openRow (d : Document) (path : List String) (key : String) : Option Document := do
  let closed ← d.close
  let root ← closed.modifyAt false (fun _ parent =>
    match parent.get? key with
    | none => some parent
    | some (.tables _) => some parent
    | _ => none) path false
  some { root, path := path ++ [key], inArray := true }

/-- Reads a header after its brackets: its keys up to the brackets that close it. -/
def header? (close : String) (cs : List Char) : Option (List String × String × List Char) := do
  let (keys, rest) ← keys? keyLimit cs
  let rest ← close.toList.isPrefixOf? rest
  let key ← keys.getLast?
  some (keys.dropLast, key, rest)

/-- Reads one line. -/
def line? (d : Document) (cs : List Char) : Option (Document × List Char) :=
  match dropBlanks cs with
  | '[' :: '[' :: rest => do
    let (path, key, rest) ← header? "]]" rest
    let d ← d.openRow path key
    some (d, ← lineEnd? rest)
  | '[' :: rest => do
    let (path, key, rest) ← header? "]" rest
    let d ← d.openTable path key
    some (d, ← lineEnd? rest)
  | cs =>
    match lineEnd? cs with
    | some rest => some (d, rest)
    | none => do
      let ((path, key, v), rest) ← keyValue? (value? depthLimit) cs
      let items ← d.items.assign path key v
      some ({ d with items }, ← lineEnd? rest)

/-- Reads lines to the end of the text; its length bounds the steps. -/
def lines? : Nat → Document → List Char → Option Document
  | _, d, [] => some d
  | 0, _, _ => none
  | n + 1, d, cs => (d.line? cs).bind fun (d, rest) => lines? n d rest

end Document

/-- The entries of the document that a text writes. -/
def read? (text : String) : Option (List (String × Toml)) :=
  let cs := match text.toList with
    | '\ufeff' :: cs => cs
    | cs => cs
  ((Document.lines? (cs.length + 1) {} cs).bind Document.close).map itemsToToml

end Toml
end ElementBuild
