import ProviderManual.Text.Order
import ProviderManual.Text.Pieces
import ProviderManual.Text.Utf8

/-! A place is the list of names from the root; paths are followed from the working directory. -/

namespace ProviderManual.Files

/-- A path below another one; an absolute path stays as it is. -/
def join (base path : String) : String :=
  match path.toList with
  | '/' :: _ => path
  | _ =>
      match base.toList.getLast? with
      | none | some '/' => base ++ path
      | some _ => base ++ "/" ++ path

def names (path : String) : List String :=
  (Text.pieces '/' path.toList).map String.ofList

def lastName (path : String) : String :=
  (names path).getLast?.getD ""

/-- Leaves out names at the end that stay in the same directory; the first name is kept. -/
def dropStays (names : List String) : List String :=
  match names with
  | [] => []
  | first :: rest =>
      first :: (rest.reverse.dropWhile fun name => name = "" || name = ".").reverse

def parent (path : String) : String :=
  match dropStays (names path).dropLast with
  | [] => ""
  | [""] => "/"
  | names => "/".intercalate names

inductive Entry where
  | file (bytes : ByteArray)
  | directory

namespace Entry

def isFile : Entry → Bool
  | file _ => true
  | directory => false

end Entry

abbrev Place := List String

inductive Fault where
  | notFound
  | alreadyThere
  | notDirectory
  | isDirectory
  | nameTooLong
  | nameWithNul
  | notText
  deriving DecidableEq, Repr

def Fault.message : Fault → String
  | .notFound => "No such file or directory (os error 2)"
  | .alreadyThere => "File exists (os error 17)"
  | .notDirectory => "Not a directory (os error 20)"
  | .isDirectory => "Is a directory (os error 21)"
  | .nameTooLong => "File name too long (os error 36)"
  | .nameWithNul => "file name contained an unexpected NUL byte"
  | .notText => "stream did not contain valid UTF-8"

/-- The entries by their places; the root is a directory and has no entry. -/
structure Tree where
  entries : List (Place × Entry)
  here : Place

namespace Tree

def lookup (p : Place) : List (Place × Entry) → Option Entry
  | [] => none
  | (q, e) :: rest => if q = p then some e else lookup p rest

def find? (t : Tree) (p : Place) : Option Entry :=
  if p = [] then some .directory else lookup p t.entries

def set (t : Tree) (p : Place) (e : Entry) : Tree :=
  { t with entries := (p, e) :: t.entries.filter (·.1 ≠ p) }

theorem lookup_filter_ne (p q : Place) (es : List (Place × Entry)) (h : q ≠ p) :
    lookup q (es.filter (·.1 ≠ p)) = lookup q es := by
  induction es with
  | nil => rfl
  | cons e es ih =>
      by_cases he : e.1 = p
      · have hq : e.1 ≠ q := fun hq => h (hq.symm.trans he)
        simp only [lookup, if_neg hq]
        rw [← ih, List.filter_cons_of_neg (by simpa using he)]
      · rw [List.filter_cons_of_pos (by simpa using he)]
        simp only [lookup, ih]

theorem find?_set (t : Tree) (p q : Place) (e : Entry) (hp : p ≠ []) :
    (t.set p e).find? q = if q = p then some e else t.find? q := by
  by_cases hq : q = p
  · subst hq
    simp [find?, set, lookup, hp]
  · by_cases h : q = []
    · simp [find?, h, Ne.symm hp]
    · simp only [find?, set, lookup, if_neg h, if_neg hq, if_neg (Ne.symm hq)]
      exact lookup_filter_ne p q _ hq

def stays (name : String) : Bool :=
  name = "" || name = "."

def walk (t : Tree) (p : Place) : List String → Except Fault Place
  | [] => .ok p
  | name :: names =>
      match t.find? p with
      | none => .error .notFound
      | some (.file _) => .error .notDirectory
      | some .directory =>
          if stays name then t.walk p names
          else if name = ".." then t.walk p.dropLast names
          else if 255 < name.utf8ByteSize then .error .nameTooLong
          else if (t.find? (p ++ [name])).isNone then .error .notFound
          else t.walk (p ++ [name]) names

def placesFrom (p : Place) : List String → List Place
  | [] => []
  | name :: names =>
      let q := if stays name then p else if name = ".." then p.dropLast else p ++ [name]
      q :: placesFrom q names

def start (t : Tree) (path : String) : Place :=
  if path.toList.head? = some '/' then [] else t.here

def placesOf (t : Tree) (path : String) : List Place :=
  placesFrom (t.start path) (names path)

def locate (t : Tree) (path : String) : Except Fault Place :=
  if path = "" then .error .notFound
  else if path.toList.contains '\x00' then .error .nameWithNul
  else t.walk (t.start path) (names path)

def status (t : Tree) (path : String) : Except Fault Entry :=
  match t.locate path with
  | .error f => .error f
  | .ok p => (t.find? p).elim (.error .notFound) .ok

def isFile (t : Tree) (path : String) : Bool :=
  match t.status path with
  | .ok e => e.isFile
  | .error _ => false

def read (t : Tree) (path : String) : Except Fault ByteArray :=
  match t.status path with
  | .error f => .error f
  | .ok .directory => .error .isDirectory
  | .ok (.file bytes) => .ok bytes

def readText (t : Tree) (path : String) : Except Fault String :=
  match t.read path with
  | .error f => .error f
  | .ok bytes =>
      match Text.decodeUtf8 bytes with
      | .error _ => .error .notText
      | .ok text => .ok text

def filesIn (t : Tree) (p : Place) : List String :=
  let inside := t.entries.filter fun (q, e) => q ≠ [] && q.dropLast = p && e.isFile
  Text.sortOn id (inside.filterMap fun (q, _) => q.getLast?)

def makeDirectories (t : Tree) (p : Place) : List String → Except Fault Tree
  | [] => .ok t
  | name :: names =>
      if stays name then t.makeDirectories p names
      else if name = ".." then t.makeDirectories p.dropLast names
      else if 255 < name.utf8ByteSize then .error .nameTooLong
      else
        let q := p ++ [name]
        match t.find? q with
        | some .directory => t.makeDirectories q names
        | some (.file _) => .error (if names.isEmpty then .alreadyThere else .notDirectory)
        | none => (t.set q .directory).makeDirectories q names

def createDirectory (t : Tree) (path : String) : Except Fault Tree :=
  if path.toList.contains '\x00' then .error .nameWithNul
  else t.makeDirectories (t.start path) (names path)

def target (t : Tree) (path : String) : Except Fault Place :=
  let last := lastName path
  if path.toList.contains '\x00' then .error .nameWithNul
  else
    match t.walk (t.start path) (names path).dropLast with
    | .error f => .error f
    | .ok p =>
        match t.find? p with
        | none => .error .notFound
        | some (.file _) => .error .notDirectory
        | some .directory =>
            if stays last ∨ last = ".." then .error .isDirectory
            else if 255 < last.utf8ByteSize then .error .nameTooLong
            else
              match t.find? (p ++ [last]) with
              | some .directory => .error .isDirectory
              | _ => .ok (p ++ [last])

def write (t : Tree) (path : String) (bytes : ByteArray) : Except Fault Tree :=
  match t.target path with
  | .error f => .error f
  | .ok p => .ok (t.set p (.file bytes))

def changes (before after : Tree) : List (Place × ByteArray) :=
  after.entries.filterMap fun (p, e) =>
    match e, before.find? p with
    | .directory, _ => none
    | .file bytes, some (.file old) => if old.data = bytes.data then none else some (p, bytes)
    | .file bytes, _ => some (p, bytes)

def add (t : Tree) (p : Place) (e : Entry) : Tree :=
  let above := (List.range p.length).map p.take
  let t := above.foldl (fun t q => if (t.find? q).isSome then t else t.set q .directory) t
  if p = [] then t else t.set p e

def ofList (listed : List (String × Entry)) : Tree :=
  listed.foldl (fun t (path, e) => t.add ((names path).filter (!stays ·)) e) ⟨[], []⟩

end Tree

end ProviderManual.Files
