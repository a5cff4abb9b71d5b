import Prox.Lib.Choice
import Prox.Lib.JsonPlaces
import Prox.Lib.Lines
import Prox.Relay.NegativeIndex
import Prox.Relay.PruneObjects

/-! # Operations on wildcard paths

The operations of `relay/common/override.go` that change a document at a path: `resolveOperationPaths` expands a path
with wildcards against the document as it is at first, and the loop of `applyOperations` goes through the paths one
after the other. The paths are texts in which the keys stand as they are.

The packages gjson and sjson are a parameter, `PathLibrary`: nothing is assumed of them but that they resolve paths in
which everything special is escaped. -/

namespace Prox

open JsonValue List

/-! ## Paths as the packages read them -/

section Escape

variable {special : Char → Bool}

/-- A name with a backslash before everything that is special in a path. -/
def escapeName (special : Char → Bool) (name : List Char) : List Char :=
  name.flatMap fun c => if special c then ['\\', c] else [c]

/-- The escaped path of a chain of names. -/
def escapedPath (special : Char → Bool) (chain : List String) : String :=
  String.ofList (joinPath (chain.map fun name => escapeName special name.toList))

/-- A character in front of the first part. -/
def consHead (c : Char) : List (List Char) → List (List Char)
  | [] => [[c]]
  | first :: rest => (c :: first) :: rest

/-- A path split at the dots that are not escaped, without the backslashes. -/
def readChars : List Char → List (List Char)
  | [] => [[]]
  | '.' :: cs => [] :: readChars cs
  | '\\' :: c :: cs => consHead c (readChars cs)
  | c :: cs => consHead c (readChars cs)

/-- The chain of names that a path denotes. -/
def readPath (path : String) : List String := (readChars path.toList).map String.ofList

/-- The name in front is read back, whatever comes behind it. -/
theorem readChars_escapeName_append (hdot : special '.' = true) (hback : special '\\' = true)
    (name tail first : List Char) (rest : List (List Char)) (h : readChars tail = first :: rest) :
    readChars (escapeName special name ++ tail) = (name ++ first) :: rest := by
  induction name with
  | nil => exact h
  | cons c name ih =>
    rw [escapeName, flatMap_cons, ← escapeName, append_assoc]
    by_cases hc : special c = true
    · rw [if_pos hc]
      show readChars ('\\' :: c :: (escapeName special name ++ tail)) = _
      rw [readChars, ih]
      rfl
    · rw [if_neg hc, singleton_append, readChars, ih]
      · rfl
      · rintro rfl
        exact hc hdot
      · rintro _ _ rfl
        exact absurd hback hc

theorem readChars_dotted (hdot : special '.' = true) (hback : special '\\' = true) (name : List Char)
    (names : List (List Char)) :
    readChars (escapeName special name ++ dotted (names.map (escapeName special))) = name :: names := by
  induction names generalizing name with
  | nil => rw [readChars_escapeName_append hdot hback name _ [] [] rfl, append_nil]
  | cons next names ih =>
    have htail : readChars (dotted ((next :: names).map (escapeName special))) = [] :: next :: names := by
      rw [map_cons, dotted_cons, readChars, ih]
    rw [readChars_escapeName_append hdot hback name _ [] _ htail, append_nil]

/-- An escaped path is read as the chain that it was written for. -/
theorem readPath_escapedPath (hdot : special '.' = true) (hback : special '\\' = true) {chain : List String}
    (h : chain ≠ []) : readPath (escapedPath special chain) = chain := by
  obtain ⟨name, rest, rfl⟩ := exists_cons_of_ne_nil h
  have hread := readChars_dotted hdot hback name.toList (rest.map String.toList)
  rw [map_map] at hread
  rw [readPath, escapedPath, String.toList_ofList, map_cons, joinPath]
  rw [show (fun name : String => escapeName special name.toList) = escapeName special ∘ String.toList from rfl, hread]
  simp

end Escape

/-- A name of a member, there or not, or a position, there or not. -/
def IsSlot (name : String) (j : JsonValue) : Prop :=
  j.kind = .object ∨ j.kind = .array ∧ ∃ i : Nat, name = toString i

/-- A name of a member, there or not, or the position of an item. -/
def IsSettable (name : String) (j : JsonValue) : Prop := j.kind = .object ∨ name ∈ j.names
  deriving Decidable

/-- `gjson.GetBytes`, `sjson.SetBytes` and `sjson.DeleteBytes`, with the characters that are special in their
paths. -/
structure PathLibrary where
  special : Char → Bool
  special_dot : special '.' = true
  special_backslash : special '\\' = true
  get : JsonValue → String → Option JsonValue
  set : JsonValue → String → JsonValue → Except String JsonValue
  delete : JsonValue → String → Except String JsonValue
  get_escaped : ∀ chain j, "" ∉ chain → PlaceOf IsSlot chain j → get j (escapedPath special chain) = j.follow chain
  set_escaped : ∀ chain j v, "" ∉ chain → PlaceOf IsSettable chain j →
    set j (escapedPath special chain) v = .ok (actAt (fun name => setChild name v) chain j)
  delete_escaped : ∀ chain j, "" ∉ chain → PlaceOf IsSlot chain j →
    delete j (escapedPath special chain) = .ok (actAt removeChild chain j)

/-- What `gjson.Escape` puts a backslash before. -/
def isSpecialChar (c : Char) : Bool := !(c ≤ ' ' || '~' < c || c = '_' || c = '-' || c = ':' || c.isAlphanum)

/-- A library that only knows escaped paths. -/
def escapedLibrary : PathLibrary where
  special := isSpecialChar
  special_dot := rfl
  special_backslash := rfl
  get j path := j.follow (readPath path)
  set j path v := .ok (actAt (fun name => setChild name v) (readPath path) j)
  delete j path := .ok (actAt removeChild (readPath path) j)
  get_escaped chain j _ hplace := by rw [readPath_escapedPath rfl rfl hplace.ne_nil]
  set_escaped chain j v _ hplace := by rw [readPath_escapedPath rfl rfl hplace.ne_nil]
  delete_escaped chain j _ hplace := by rw [readPath_escapedPath rfl rfl hplace.ne_nil]

/-- What the operations use: the packages for paths, the numbers that come back, and how `%v` writes a number. -/
structure OverrideEnv where
  lib : PathLibrary
  codec : NumberCodec
  formatFloat : ℚ → String

/-! ## Operations -/

/-- The modes that put a new value at a path. -/
inductive EditMode where
  | set | prepend | append | trimPrefix | trimSuffix | trimSpace | replace

/-- The modes. -/
inductive PathMode where
  | delete
  | edit (mode : EditMode)

/-- An operation without conditions; `null` is a value that is not given. -/
structure ParamOperation where
  path : String
  mode : PathMode
  value : JsonValue := .null
  keepOrigin : Bool := false
  fromText : String := ""
  toText : String := ""

/-- Why an operation fails. -/
inductive OverrideError where
  | decode (e : PruneError)
  | library (text : String)
  | notSupported (t : GjsonType)
  | trimValueRequired
  | replaceFromRequired
  | notAMap (got : String)

/-- The texts. -/
def OverrideError.message : OverrideError → String
  | .decode e => e.message
  | .library text => text
  | .notSupported t => "operation not supported for type: " ++ t.name
  | .trimValueRequired => "trim value is required"
  | .replaceFromRequired => "replace from is required"
  | .notAMap got => "json: cannot unmarshal " ++ got ++ " into Go value of type map[string]interface {}"

/-- A result of the packages. -/
def fromLibrary {α : Type} : Except String α → Except OverrideError α
  | .ok a => .ok a
  | .error text => .error (.library text)

mutual

/-- `fmt.Sprintf("%v", value)`. -/
def sprint (formatFloat : ℚ → String) : JsonValue → String
  | .null => "<nil>"
  | .bool b => if b then "true" else "false"
  | .number n => formatFloat n
  | .string s => s
  | .array items => "[" ++ " ".intercalate (sprintItems formatFloat items) ++ "]"
  | .object members => "map[" ++ " ".intercalate (sprintMembers formatFloat members) ++ "]"

/-- The items of a slice. -/
def sprintItems (formatFloat : ℚ → String) : List JsonValue → List String
  | [] => []
  | item :: rest => sprint formatFloat item :: sprintItems formatFloat rest

/-- The entries of a map, in the order of their keys. -/
def sprintMembers (formatFloat : ℚ → String) : List (String × JsonValue) → List String
  | [] => []
  | (key, value) :: rest => (key ++ ":" ++ sprint formatFloat value) :: sprintMembers formatFloat rest

end

/-! ## Expanding a path -/

/-- `collectWildcardPaths`. The keys of a map come sorted, which is the order of the members. -/
def collectWildcardPaths : JsonValue → List String → List String → List String
  | _, [], before => [".".intercalate before]
  | node, text :: segments, before =>
    let segment := trimSpace text
    if segment = "" then []
    else if segment = "*" then
      node.children.flatMap fun c => collectWildcardPaths c.2 segments (before ++ [c.1])
    else
      match node with
      | .object members =>
        if segments = [] then [".".intercalate (before ++ [segment])]
        else
          match members.lookup segment with
          | none => []
          | some next => collectWildcardPaths next segments (before ++ [segment])
      | .array items =>
        match atoi segment with
        | none => []
        | some index =>
          if index < 0 then []
          else
            match items[index.toNat]? with
            | none => []
            | some next =>
              if segments = [] then [".".intercalate (before ++ [segment])]
              else collectWildcardPaths next segments (before ++ [segment])
      | .null => []
      | .bool _ => []
      | .number _ => []
      | .string _ => []

/-- `expandWildcardPaths`. -/
def expandWildcardPaths (env : OverrideEnv) (data : JsonDocument) (path : String) :
    Except OverrideError (List String) :=
  match data.unmarshal env.codec with
  | .error e => .error (.decode e)
  | .ok root => .ok (firstOccurrences (collectWildcardPaths root (splitOn '.' path) []))

/-- `resolveOperationPaths`. -/
def resolveOperationPaths (env : OverrideEnv) (data : JsonDocument) (path : String) :
    Except OverrideError (List String) :=
  if '*' ∉ path.toList then .ok [path] else expandWildcardPaths env data path

/-! ## The modes -/

/-- `deleteValue`. -/
def deleteValue (env : OverrideEnv) (data : JsonValue) (path : String) : Except OverrideError JsonValue :=
  if trimSpace path = "" then .ok data else fromLibrary (env.lib.delete data path)

/-- The type of a result of gjson; that of a missing one is `Null`. -/
def currentType (current : Option JsonValue) : GjsonType := (current.map JsonValue.gjsonType).getD .null

/-- The common form of the modes that read the value at a path and put another one there, or none. -/
def editValue (env : OverrideEnv) (data : JsonValue) (path : String)
    (edit : Option JsonValue → Except OverrideError (Option JsonValue)) : Except OverrideError JsonValue :=
  match edit (env.lib.get data path) with
  | .error e => .error e
  | .ok none => .ok data
  | .ok (some value) => fromLibrary (env.lib.set data path value)

/-- What `modifyArray` makes of an array; the items come back as decoding gives them. -/
def modifiedArray (codec : NumberCodec) (items : List JsonValue) (value : JsonValue) (isPrepend : Bool) : JsonValue :=
  let original := items.map (JsonValue.mapNumbers fun n => (codec.reencode n).getD n)
  let added := match value with
    | .array values => values
    | value => [value]
  .array (if isPrepend then added ++ original else original ++ added)

/-- A member is there and not null. -/
def isGiven : Option JsonValue → Bool
  | none => false
  | some .null => false
  | some _ => true

/-- What `mergeObjects` makes of an object. -/
def mergedObject (codec : NumberCodec) (members : List (String × JsonValue)) (value : JsonValue) (keepOrigin : Bool) :
    Except OverrideError JsonValue :=
  let current := (JsonValue.object members).mapNumbers fun n => (codec.reencode n).getD n
  match value with
  | .object newMembers =>
    .ok (newMembers.foldl (fun result m =>
      if keepOrigin && isGiven (result.children.lookup m.1) then result else setChild m.1 m.2 result) current)
  | .null => .ok current
  | .bool _ => .error (.notAMap "bool")
  | .number _ => .error (.notAMap "number")
  | .string _ => .error (.notAMap "string")
  | .array _ => .error (.notAMap "array")

/-- `modifyValue`, with `modifyArray` and `modifyString`. -/
def modifiedValue (env : OverrideEnv) (value : JsonValue) (keepOrigin isPrepend : Bool) (current : Option JsonValue) :
    Except OverrideError JsonValue :=
  match current with
  | some (.array items) => .ok (modifiedArray env.codec items value isPrepend)
  | some (.string s) =>
    let valueStr := sprint env.formatFloat value
    .ok (.string (if isPrepend then valueStr ++ s else s ++ valueStr))
  | some (.object members) => mergedObject env.codec members value keepOrigin
  | current => .error (.notSupported (currentType current))

/-- `strings.TrimPrefix`. -/
def trimPrefix (s p : String) : String := if hasPrefix s p then afterPrefix s p else s

/-- `strings.TrimSuffix`. -/
def trimSuffix (s p : String) : String :=
  if p.toList.isSuffixOf s.toList then String.ofList (s.toList.take (s.toList.length - p.toList.length)) else s

/-- `trimStringValue`. -/
def trimmedValue (env : OverrideEnv) (value : JsonValue) (isPrefix : Bool) (current : Option JsonValue) :
    Except OverrideError JsonValue :=
  match current with
  | some (.string s) =>
    match value with
    | .null => .error .trimValueRequired
    | value =>
      let valueStr := sprint env.formatFloat value
      .ok (.string (if isPrefix then trimPrefix s valueStr else trimSuffix s valueStr))
  | current => .error (.notSupported (currentType current))

/-- `transformStringValue`. -/
def transformedValue (transform : String → String) (current : Option JsonValue) : Except OverrideError JsonValue :=
  match current with
  | some (.string s) => .ok (.string (transform s))
  | current => .error (.notSupported (currentType current))

/-- `strings.ReplaceAll` for a text that is not empty; the fuel is the length of the text. -/
def replaceAllChars (old new : List Char) : Nat → List Char → List Char
  | 0, s => s
  | _ + 1, [] => []
  | fuel + 1, c :: cs =>
    if old.isPrefixOf (c :: cs) then new ++ replaceAllChars old new fuel ((c :: cs).drop old.length)
    else c :: replaceAllChars old new fuel cs

/-- `replaceStringValue`. -/
def replacedValue (fromText toText : String) (current : Option JsonValue) : Except OverrideError JsonValue :=
  match current with
  | some (.string s) =>
    if fromText = "" then .error .replaceFromRequired
    else .ok (.string (String.ofList (replaceAllChars fromText.toList toText.toList s.length s.toList)))
  | current => .error (.notSupported (currentType current))

/-- What an operation makes of the value at one path; the mode `set` can leave a value that is there. -/
def ParamOperation.edit (env : OverrideEnv) (op : ParamOperation) (mode : EditMode) (current : Option JsonValue) :
    Except OverrideError (Option JsonValue) :=
  match mode with
  | .set => .ok (if op.keepOrigin && current.isSome then none else some op.value)
  | .prepend => (modifiedValue env op.value op.keepOrigin true current).map some
  | .append => (modifiedValue env op.value op.keepOrigin false current).map some
  | .trimPrefix => (trimmedValue env op.value true current).map some
  | .trimSuffix => (trimmedValue env op.value false current).map some
  | .trimSpace => (transformedValue trimSpace current).map some
  | .replace => (replacedValue op.fromText op.toText current).map some

/-- One round of the loop over the paths. -/
def applyAtPath (env : OverrideEnv) (op : ParamOperation) (result : JsonValue) (path : String) :
    Except OverrideError JsonValue :=
  match op.mode with
  | .delete => deleteValue env result path
  | .edit mode => editValue env result path (op.edit env mode)

/-- As much of a value as `processNegativeIndex` looks at. -/
def JsonValue.shape : JsonValue → Json
  | .array items => .array (items.map fun _ => .scalar)
  | .object _ => .object []
  | .null => .scalar
  | .bool _ => .scalar
  | .number _ => .scalar
  | .string _ => .scalar

/-- The path of an operation with its negative indices resolved. -/
def ParamOperation.opPath (env : OverrideEnv) (data : JsonDocument) (op : ParamOperation) : String :=
  processNegativeIndex (fun path => (env.lib.get data.root path).map JsonValue.shape) op.path

/-- `applyOperations` for one operation. -/
def applyOperation (env : OverrideEnv) (jsonData : JsonDocument) (op : ParamOperation) :
    Except OverrideError JsonValue := do
  let opPaths ← resolveOperationPaths env jsonData (op.opPath env jsonData)
  opPaths.foldlM (applyAtPath env op) jsonData.root

end Prox
