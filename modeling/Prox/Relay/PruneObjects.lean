import Prox.Lib.Go
import Prox.Lib.Json

/-! # Pruning objects by their type

The operation `prune_objects` of `relay/common/override.go` for a value that is a string, an empty path and an empty
context: the document is decoded, `pruneObjectsNode` goes through it, and the result is encoded. The condition that
`parsePruneObjectsOptions` makes of the string compares the member `type` with the trimmed string, and comparing
values of different types is an error.

What decoding a number to a `float64` and encoding it again makes of it is a parameter. -/

namespace Prox

open JsonValue List Option

/-! ## Documents -/

/-- A JSON document. -/
structure JsonDocument where
  root : JsonValue
  canonical : root.Canonical

/-- A number as it comes back from a `float64`; `none` when it is out of range. A number that came back once comes
back as it is. -/
structure NumberCodec where
  reencode : ℚ → Option ℚ
  stable : ∀ n m, reencode n = some m → reencode m = some m

/-- The limit of `encoding/json`. -/
def maxNestingDepth : Nat := 10000

/-- `gjson.Type`. -/
inductive GjsonType where
  | null | false | number | string | true | json

/-- Why an operation fails. -/
inductive PruneError where
  | valueRequired
  | maxDepth
  | numberOutOfRange (n : ℚ)
  | differentTypes (got : GjsonType)

/-- `Type.String()`. -/
def GjsonType.name : GjsonType → String
  | .null => "Null"
  | .false => "False"
  | .number => "Number"
  | .string => "String"
  | .true => "True"
  | .json => "JSON"

/-- The texts of the errors that the operation makes itself. -/
def PruneError.message : PruneError → String
  | .valueRequired => "prune_objects value is required"
  | .differentTypes got =>
    "comparison failed for path type: compare for different types, got " ++ got.name ++ " and String"
  | .maxDepth => "exceeded max depth"
  | .numberOutOfRange _ => "json: cannot unmarshal number into Go value of type float64"

/-- `common.Unmarshal` into an `interface{}`. -/
def JsonDocument.unmarshal (codec : NumberCodec) (doc : JsonDocument) : Except PruneError JsonValue :=
  if maxNestingDepth < doc.root.depth then .error .maxDepth
  else
    match doc.root.numbers.find? fun n => codec.reencode n = none with
    | some n => .error (.numberOutOfRange n)
    | none => .ok (doc.root.mapNumbers fun n => (codec.reencode n).getD n)

/-! ## The rewriting -/

/-- The type of a value. -/
def JsonValue.gjsonType : JsonValue → GjsonType
  | .null => .null
  | .bool b => if b then .true else .false
  | .number _ => .number
  | .string _ => .string
  | .array _ => .json
  | .object _ => .json

/-- `compareEqual` with a target that is a string. -/
def compareEqual (jsonValue : JsonValue) (target : String) : Except PruneError Bool :=
  match jsonValue with
  | .null => .ok false
  | .string s => .ok (s = target)
  | jsonValue => .error (.differentTypes jsonValue.gjsonType)

/-- `shouldPruneObject` with the one condition that is made of a string: a missing member does not meet it. -/
def shouldPruneObject (v : String) (node : List (String × JsonValue)) : Except PruneError Bool :=
  match node.lookup "type" with
  | none => .ok false
  | some value => compareEqual value v

mutual

/-- `pruneObjectsNode`; `none` for an object that is dropped. -/
def pruneObjectsNode (v : String) (isRoot : Bool) : JsonValue → Except PruneError (Option JsonValue)
  | .array items => do
    let result ← pruneItems v items
    return some (.array result)
  | .object members => do
    let shouldDrop ← shouldPruneObject v members
    if shouldDrop && !isRoot then return none
    let result ← pruneMembers v members
    return some (.object result)
  | .null => .ok (some .null)
  | .bool b => .ok (some (.bool b))
  | .number n => .ok (some (.number n))
  | .string s => .ok (some (.string s))

/-- The loop over the items of an array. -/
def pruneItems (v : String) : List JsonValue → Except PruneError (List JsonValue)
  | [] => .ok []
  | item :: rest => do
    let next ← pruneObjectsNode v false item
    let result ← pruneItems v rest
    return next.toList ++ result

/-- The loop over the members of an object, which comes to them in any order. -/
def pruneMembers (v : String) : List (String × JsonValue) → Except PruneError (List (String × JsonValue))
  | [] => .ok []
  | (key, child) :: rest => do
    let next ← pruneObjectsNode v false child
    let result ← pruneMembers v rest
    return (next.map (key, ·)).toList ++ result

end

/-- `pruneObjects` for a string and the empty path; what is returned is encoded again. -/
def pruneObjects (codec : NumberCodec) (doc : JsonDocument) (raw : String) : Except PruneError JsonValue :=
  let v := trimSpace raw
  if v = "" then .error .valueRequired
  else do
    let root ← doc.unmarshal codec
    let cleaned ← pruneObjectsNode v true root
    return cleaned.getD .null

/-! ## What is asked of it -/

/-- An object whose member `type` is this string. -/
def JsonValue.hasType (v : String) : JsonValue → Bool
  | .object members =>
    match members.lookup "type" with
    | some (.string s) => s = v
    | _ => false
  | _ => false

mutual

/-- The value without the outermost objects of a type inside of it. -/
def JsonValue.without (v : String) : JsonValue → JsonValue
  | .array items => .array (withoutItems v items)
  | .object members => .object (withoutMembers v members)
  | .null => .null
  | .bool b => .bool b
  | .number n => .number n
  | .string s => .string s

/-- The items that are no object of the type. -/
def withoutItems (v : String) : List JsonValue → List JsonValue
  | [] => []
  | item :: rest => if item.hasType v then withoutItems v rest else item.without v :: withoutItems v rest

/-- The members that are no object of the type. -/
def withoutMembers (v : String) : List (String × JsonValue) → List (String × JsonValue)
  | [] => []
  | (key, child) :: rest =>
    if child.hasType v then withoutMembers v rest else (key, child.without v) :: withoutMembers v rest

end

/-- The member `type` can be compared with a string. -/
def typeComparable (members : List (String × JsonValue)) : Bool :=
  match members.lookup "type" with
  | none => true
  | some .null => true
  | some (.string _) => true
  | some _ => false

mutual

/-- The member `type` of the value, and of every object in it that is in no object of the type, can be compared. -/
def JsonValue.comparable (v : String) : JsonValue → Bool
  | .array items => comparableItems v items
  | .object members => typeComparable members && comparableMembers v members
  | .null => true
  | .bool _ => true
  | .number _ => true
  | .string _ => true

/-- All items are of the type or can be compared. -/
def comparableItems (v : String) : List JsonValue → Bool
  | [] => true
  | item :: rest => (item.hasType v || item.comparable v) && comparableItems v rest

/-- All members are of the type or can be compared. -/
def comparableMembers (v : String) : List (String × JsonValue) → Bool
  | [] => true
  | (_, child) :: rest => (child.hasType v || child.comparable v) && comparableMembers v rest

end

/-! ## The rewriting does what is asked -/

variable {v : String}

theorem toOption_bind {α β E : Type} (x : Except E α) (f : α → Except E β) :
    (x >>= f).toOption = x.toOption.bind fun a => (f a).toOption := by
  cases x <;> rfl

theorem toOption_shouldPruneObject (v : String) (members : List (String × JsonValue)) :
    (shouldPruneObject v members).toOption =
      if typeComparable members then some ((object members).hasType v) else none := by
  rw [shouldPruneObject, typeComparable, hasType]
  cases hlookup : members.lookup "type" with
  | none => rfl
  | some value => cases value <;> simp [compareEqual] <;> rfl

variable {members : List (String × JsonValue)}

/-- An object of the type can be compared with it. -/
theorem typeComparable_of_hasType (h : (object members).hasType v = true) :
    typeComparable members = true := by
  rw [hasType] at h
  rw [typeComparable]
  cases hlookup : members.lookup "type" with
  | none => rfl
  | some value => cases value <;> simp_all

/-- What the rewriting makes of a part of a document. -/
def PrunedPart (v : String) (j : JsonValue) : Prop :=
  (pruneObjectsNode v false j).toOption =
    if j.hasType v then some none else if j.comparable v then some (some (j.without v)) else none

/-- The loop over the items of an array. -/
theorem toOption_pruneItems {items : List JsonValue} (ih : ∀ j ∈ items, PrunedPart v j) :
    (pruneItems v items).toOption = if comparableItems v items then some (withoutItems v items) else none := by
  induction items with
  | nil => rfl
  | cons j rest ihrest =>
    obtain ⟨hj, hrest⟩ := forall_mem_cons.mp ih
    rw [pruneItems, toOption_bind, hj, comparableItems, withoutItems]
    simp only [toOption_bind, ihrest hrest]
    cases j.hasType v <;> cases j.comparable v <;> cases comparableItems v rest <;> rfl

/-- The loop over the members of an object. -/
theorem toOption_pruneMembers (ih : ∀ m ∈ members, PrunedPart v m.2) :
    (pruneMembers v members).toOption =
      if comparableMembers v members then some (withoutMembers v members) else none := by
  induction members with
  | nil => rfl
  | cons m rest ihrest =>
    obtain ⟨key, j⟩ := m
    obtain ⟨hj, hrest⟩ := forall_mem_cons.mp ih
    rw [pruneMembers, toOption_bind, hj, comparableMembers, withoutMembers]
    simp only [toOption_bind, ihrest hrest]
    cases j.hasType v <;> cases j.comparable v <;> cases comparableMembers v rest <;> rfl

/-- The rewriting of an object, in terms of the loop over its members. -/
theorem toOption_pruneObjectsNode_object (isRoot : Bool) (members : List (String × JsonValue)) :
    (pruneObjectsNode v isRoot (.object members)).toOption =
      (if typeComparable members then some ((object members).hasType v) else none).bind fun drop =>
        if drop && !isRoot then some none else (pruneMembers v members).toOption.map (some ∘ .object) := by
  rw [pruneObjectsNode, toOption_bind, toOption_shouldPruneObject]
  congr 1
  funext drop
  cases drop && !isRoot
  · simp only [Bool.false_eq_true, if_false, toOption_bind]
    cases (pruneMembers v members).toOption <;> rfl
  · rfl

/-- The rewriting leaves out the objects of the type and fails on the values that cannot be compared. -/
theorem prunedPart (v : String) (j : JsonValue) : PrunedPart v j := by
  induction j with
  | hnull => rfl
  | hbool b => rfl
  | hnumber n => rfl
  | hstring s => rfl
  | harray items ih =>
    show (pruneObjectsNode v false (.array items)).toOption = _
    have htype : (array items).hasType v = false := rfl
    rw [pruneObjectsNode, toOption_bind, toOption_pruneItems ih, comparable]
    cases comparableItems v items <;> rfl
  | hobject members ih =>
    show (pruneObjectsNode v false (.object members)).toOption = _
    rw [toOption_pruneObjectsNode_object, toOption_pruneMembers ih, comparable]
    cases htype : (object members).hasType v with
    | true => rw [typeComparable_of_hasType htype]; rfl
    | false => cases typeComparable members <;> cases comparableMembers v members <;> rfl

/-- The whole document is not left out. -/
theorem toOption_pruneObjectsNode_root (v : String) (j : JsonValue) :
    (pruneObjectsNode v true j).toOption = if j.comparable v then some (some (j.without v)) else none := by
  cases j with
  | null => rfl
  | bool b => rfl
  | number n => rfl
  | string s => rfl
  | array items =>
    rw [pruneObjectsNode, toOption_bind, toOption_pruneItems fun j _ => prunedPart v j, comparable]
    cases comparableItems v items <;> rfl
  | object members =>
    rw [toOption_pruneObjectsNode_object, toOption_pruneMembers fun m _ => prunedPart v m.2,
        comparable]
    cases typeComparable members <;> cases comparableMembers v members <;>
      cases (object members).hasType v <;> rfl

/-! ## The rewriting once more -/

theorem withoutItems_eq (v : String) (items : List JsonValue) :
    withoutItems v items = (items.filter fun j => !j.hasType v).map (without v) := by
  induction items with
  | nil => rfl
  | cons j rest ih =>
    rw [withoutItems, ih, filter_cons]
    cases j.hasType v <;> rfl

theorem withoutMembers_eq (v : String) (members : List (String × JsonValue)) :
    withoutMembers v members = (members.filter fun m => !m.2.hasType v).map fun m => (m.1, m.2.without v) := by
  induction members with
  | nil => rfl
  | cons m rest ih =>
    rw [withoutMembers, ih, filter_cons]
    cases m.2.hasType v <;> rfl

theorem comparableItems_iff {items : List JsonValue} :
    comparableItems v items = true ↔ ∀ j ∈ items, j.hasType v = false → j.comparable v = true := by
  induction items with
  | nil => simp [comparableItems]
  | cons j rest ih =>
    rw [comparableItems, Bool.and_eq_true, ih, forall_mem_cons]
    cases j.hasType v <;> simp

theorem comparableMembers_iff :
    comparableMembers v members = true ↔ ∀ m ∈ members, m.2.hasType v = false → m.2.comparable v = true := by
  induction members with
  | nil => simp [comparableMembers]
  | cons m rest ih =>
    rw [comparableMembers, Bool.and_eq_true, ih, forall_mem_cons]
    cases m.2.hasType v <;> simp

/-- A member `type` that can be compared is no object, and stays. -/
theorem lookup_withoutMembers (h : typeComparable members = true) :
    (withoutMembers v members).lookup "type" = members.lookup "type" := by
  induction members with
  | nil => rfl
  | cons m rest ih =>
    obtain ⟨key, child⟩ := m
    rw [withoutMembers]
    by_cases hkey : "type" = key
    · subst hkey
      rw [typeComparable] at h
      cases child <;> simp_all [hasType, without]
    · have hne : ("type" == key) = false := beq_false_of_ne hkey
      have hrest : typeComparable rest = true := by
        rw [typeComparable, lookup_cons, hne] at h
        exact h
      rw [lookup_cons, hne]
      split
      · exact ih hrest
      · rw [lookup_cons, hne]
        exact ih hrest

variable {j : JsonValue}

/-- What is left of a value is of the type when the value is. -/
theorem hasType_without (h : j.comparable v = true) : (j.without v).hasType v = j.hasType v := by
  cases j with
  | null => rfl
  | bool b => rfl
  | number n => rfl
  | string s => rfl
  | array items => rfl
  | object members =>
    rw [comparable, Bool.and_eq_true] at h
    rw [without, hasType, hasType, lookup_withoutMembers h.1]

/-- In what is left of a value there is nothing more to leave out. -/
theorem without_without (h : j.comparable v = true) :
    (j.without v).comparable v = true ∧ (j.without v).without v = j.without v := by
  induction j with
  | hnull => exact ⟨rfl, rfl⟩
  | hbool b => exact ⟨rfl, rfl⟩
  | hnumber n => exact ⟨rfl, rfl⟩
  | hstring s => exact ⟨rfl, rfl⟩
  | harray items ih =>
    rw [comparable, comparableItems_iff] at h
    have hleft : ∀ j' ∈ withoutItems v items,
        j'.hasType v = false ∧ j'.comparable v = true ∧ j'.without v = j' := by
      intro j' hj'
      rw [withoutItems_eq] at hj'
      obtain ⟨j, hj, rfl⟩ := List.mem_map.mp hj'
      obtain ⟨hmem, htype⟩ := mem_filter.mp hj
      rw [Bool.not_eq_true'] at htype
      exact ⟨(hasType_without (h j hmem htype)).trans htype, ih j hmem (h j hmem htype)⟩
    rw [without, comparable, without, comparableItems_iff]
    refine ⟨fun j' hj' _ => (hleft j' hj').2.1, congrArg _ ?_⟩
    rw [withoutItems_eq v (withoutItems v items), filter_eq_self.mpr fun j' hj' => by rw [(hleft j' hj').1]; rfl]
    exact (map_congr_left fun j' hj' => (hleft j' hj').2.2).trans (List.map_id' _)
  | hobject members ih =>
    rw [comparable, Bool.and_eq_true, comparableMembers_iff] at h
    obtain ⟨htypes, h⟩ := h
    have hleft : ∀ m' ∈ withoutMembers v members,
        m'.2.hasType v = false ∧ m'.2.comparable v = true ∧ m'.2.without v = m'.2 := by
      intro m' hm'
      rw [withoutMembers_eq] at hm'
      obtain ⟨m, hm, rfl⟩ := List.mem_map.mp hm'
      obtain ⟨hmem, htype⟩ := mem_filter.mp hm
      rw [Bool.not_eq_true'] at htype
      exact ⟨(hasType_without (h m hmem htype)).trans htype, ih m hmem (h m hmem htype)⟩
    rw [without, comparable, without, Bool.and_eq_true, comparableMembers_iff,
      typeComparable, lookup_withoutMembers htypes]
    refine ⟨⟨htypes, fun m' hm' _ => (hleft m' hm').2.1⟩, congrArg _ ?_⟩
    rw [withoutMembers_eq v (withoutMembers v members),
      filter_eq_self.mpr fun m' hm' => by rw [(hleft m' hm').1]; rfl]
    refine (map_congr_left fun m' hm' => ?_).trans (List.map_id' _)
    rw [(hleft m' hm').2.2]

/-! ## Numbers -/

section Numbers

variable (f : ℚ → ℚ)

variable (members : List (String × JsonValue))

theorem lookup_mapNumbers (name : String) :
    (members.map fun m => (m.1, m.2.mapNumbers f)).lookup name =
      (members.lookup name).map (mapNumbers f) := by
  induction members with
  | nil => rfl
  | cons m rest ih =>
    rw [map_cons, lookup_cons, lookup_cons, ih]
    cases name == m.1 <;> rfl

variable (j : JsonValue)

/-- The type of an object does not depend on numbers. -/
@[simp] theorem hasType_mapNumbers : (j.mapNumbers f).hasType v = j.hasType v := by
  cases j with
  | null => rfl
  | bool b => rfl
  | number n => rfl
  | string s => rfl
  | array items => rfl
  | object members =>
    rw [mapNumbers, mapNumbersMembers_eq, hasType, hasType, lookup_mapNumbers]
    rcases members.lookup "type" with _ | value
    · rfl
    · cases value <;> rfl

theorem typeComparable_mapNumbers :
    typeComparable (members.map fun m => (m.1, m.2.mapNumbers f)) = typeComparable members := by
  rw [typeComparable, typeComparable, lookup_mapNumbers]
  rcases members.lookup "type" with _ | value
  · rfl
  · cases value <;> rfl

/-- Nor does it whether the member `type` can be compared. -/
@[simp] theorem comparable_mapNumbers : (j.mapNumbers f).comparable v = j.comparable v := by
  rw [Bool.eq_iff_iff]
  induction j with
  | hnull => exact Iff.rfl
  | hbool b => exact Iff.rfl
  | hnumber n => exact Iff.rfl
  | hstring s => exact Iff.rfl
  | harray items ih =>
    rw [mapNumbers, mapNumbersItems_eq, comparable, comparable,
      comparableItems_iff, comparableItems_iff, List.forall_mem_map]
    exact forall₂_congr fun j hj => by rw [hasType_mapNumbers, ih j hj]
  | hobject members ih =>
    rw [mapNumbers, mapNumbersMembers_eq, comparable, comparable,
      Bool.and_eq_true, Bool.and_eq_true, typeComparable_mapNumbers, comparableMembers_iff, comparableMembers_iff,
      List.forall_mem_map]
    exact and_congr_right' (forall₂_congr fun m hm => by rw [hasType_mapNumbers, ih m hm])

/-- The rewriting and the numbers do not touch each other. -/
theorem without_mapNumbers : (j.mapNumbers f).without v = (j.without v).mapNumbers f := by
  induction j with
  | hnull => rfl
  | hbool b => rfl
  | hnumber n => rfl
  | hstring s => rfl
  | harray items ih =>
    simp only [mapNumbers, mapNumbersItems_eq, without, withoutItems_eq,
      List.filter_map, List.map_map, Function.comp_def, hasType_mapNumbers]
    exact congrArg _ (map_congr_left fun j hj => ih j (mem_of_mem_filter hj))
  | hobject members ih =>
    simp only [mapNumbers, mapNumbersMembers_eq, without, withoutMembers_eq,
      List.filter_map, List.map_map, Function.comp_def, hasType_mapNumbers]
    refine congrArg _ (map_congr_left fun m hm => ?_)
    rw [ih m (mem_of_mem_filter hm)]

end Numbers

/-- Nothing in what is left of a value is new. -/
theorem numbers_without_subset (v : String) (j : JsonValue) : (j.without v).numbers ⊆ j.numbers := by
  induction j with
  | hnull => exact List.Subset.refl _
  | hbool b => exact List.Subset.refl _
  | hnumber n => exact List.Subset.refl _
  | hstring s => exact List.Subset.refl _
  | harray items ih =>
    intro n hn
    rw [without, numbers, numbersItems_eq, withoutItems_eq] at hn
    obtain ⟨_, hj', hn⟩ := mem_flatMap.mp hn
    obtain ⟨j, hj, rfl⟩ := List.mem_map.mp hj'
    have hmem := mem_of_mem_filter hj
    rw [numbers, numbersItems_eq]
    exact mem_flatMap.mpr ⟨j, hmem, ih j hmem hn⟩
  | hobject members ih =>
    intro n hn
    rw [without, numbers, numbersMembers_eq, withoutMembers_eq] at hn
    obtain ⟨_, hm', hn⟩ := mem_flatMap.mp hn
    obtain ⟨m, hm, rfl⟩ := List.mem_map.mp hm'
    have hmem := mem_of_mem_filter hm
    rw [numbers, numbersMembers_eq]
    exact mem_flatMap.mpr ⟨m, hmem, ih m hmem hn⟩

theorem depth_without_le (v : String) (j : JsonValue) : (j.without v).depth ≤ j.depth := by
  induction j with
  | hnull => exact Nat.le_refl _
  | hbool b => exact Nat.le_refl _
  | hnumber n => exact Nat.le_refl _
  | hstring s => exact Nat.le_refl _
  | harray items ih =>
    have hbound := depthItems_le_iff.mp (Nat.le_refl (depthItems items))
    rw [without, withoutItems_eq]
    refine Nat.succ_le_succ (depthItems_le_iff.mpr (List.forall_mem_map.mpr fun j hj => ?_))
    have hmem := mem_of_mem_filter hj
    exact (ih j hmem).trans (hbound j hmem)
  | hobject members ih =>
    have hbound := depthMembers_le_iff.mp (Nat.le_refl (depthMembers members))
    rw [without, withoutMembers_eq]
    refine Nat.succ_le_succ (depthMembers_le_iff.mpr (List.forall_mem_map.mpr fun m hm => ?_))
    have hmem := mem_of_mem_filter hm
    exact (ih m hmem).trans (hbound m hmem)

theorem JsonValue.Canonical.without (h : j.Canonical) (v : String) : (j.without v).Canonical := by
  induction h with
  | null => exact .null
  | bool b => exact .bool b
  | number n => exact .number n
  | string s => exact .string s
  | array h ih =>
    rw [JsonValue.without, withoutItems_eq]
    exact .array (List.forall_mem_map.mpr fun j hj => ih j (mem_of_mem_filter hj))
  | object hnames h ih =>
    rw [JsonValue.without, withoutMembers_eq]
    refine .object ?_ (List.forall_mem_map.mpr fun m hm => ih m (mem_of_mem_filter hm))
    rw [List.map_map]
    exact hnames.sublist (List.Sublist.map _ filter_sublist)

/-! ## The operation -/

/-- A document whose numbers are all in range and which is not nested too deep. -/
def JsonDocument.Decodable (codec : NumberCodec) (doc : JsonDocument) : Prop :=
  doc.root.depth ≤ maxNestingDepth ∧ ∀ n ∈ doc.root.numbers, codec.reencode n ≠ none

/-- The numbers of a document as they come back. -/
def JsonDocument.decoded (codec : NumberCodec) (doc : JsonDocument) : JsonValue :=
  doc.root.mapNumbers fun n => (codec.reencode n).getD n

variable {codec : NumberCodec} {doc : JsonDocument}

theorem unmarshal_eq_ok_iff :
    doc.unmarshal codec = .ok j ↔ doc.Decodable codec ∧ j = doc.decoded codec := by
  rw [JsonDocument.unmarshal, JsonDocument.Decodable, JsonDocument.decoded]
  by_cases hdepth : maxNestingDepth < doc.root.depth
  · simp [hdepth]
  · rw [if_neg hdepth]
    cases hfind : doc.root.numbers.find? fun n => codec.reencode n = none with
    | some n =>
      have hmem := List.mem_of_find?_eq_some hfind
      have hnone : codec.reencode n = none := by simpa using List.find?_some hfind
      refine iff_of_false nofun fun ⟨⟨_, hall⟩, _⟩ => hall n hmem hnone
    | none =>
      have hall : ∀ n ∈ doc.root.numbers, codec.reencode n ≠ none := by
        intro n hn
        simpa using List.find?_eq_none.mp hfind n hn
      exact ⟨fun h => ⟨⟨Nat.not_lt.mp hdepth, hall⟩, (Except.ok.inj h).symm⟩, fun h => by rw [h.2]⟩

/-- The operation succeeds on what can be decoded and compared, and returns what is left. -/
theorem pruneObjects_eq_ok_iff {raw : String} {out : JsonValue} :
    pruneObjects codec doc raw = .ok out ↔
      trimSpace raw ≠ "" ∧ doc.Decodable codec ∧ doc.root.comparable (trimSpace raw) = true ∧
        out = (doc.decoded codec).without (trimSpace raw) := by
  rw [pruneObjects]
  by_cases hblank : trimSpace raw = ""
  · simp [hblank]
  · rw [if_neg hblank]
    constructor
    · intro h
      obtain ⟨root, hroot, h⟩ := bind_eq_ok.mp h
      obtain ⟨hdec, rfl⟩ := unmarshal_eq_ok_iff.mp hroot
      obtain ⟨cleaned, hcleaned, h⟩ := bind_eq_ok.mp h
      have hto := toOption_pruneObjectsNode_root (trimSpace raw) (doc.decoded codec)
      rw [hcleaned, JsonDocument.decoded, comparable_mapNumbers] at hto
      split at hto
      next hcomp =>
        cases hto
        exact ⟨hblank, hdec, hcomp, (Except.ok.inj h).symm⟩
      next => cases hto
    · rintro ⟨_, hdec, hcomp, rfl⟩
      rw [unmarshal_eq_ok_iff.mpr ⟨hdec, rfl⟩]
      have hto := toOption_pruneObjectsNode_root (trimSpace raw) (doc.decoded codec)
      rw [JsonDocument.decoded, comparable_mapNumbers, if_pos hcomp, ← JsonDocument.decoded] at hto
      cases hnode : pruneObjectsNode (trimSpace raw) true (doc.decoded codec) with
      | error e => rw [hnode] at hto; cases hto
      | ok cleaned =>
        rw [hnode] at hto
        cases hto
        exact bind_eq_ok.mpr ⟨_, rfl, bind_eq_ok.mpr ⟨_, hnode, rfl⟩⟩

/-- What is left of a decoded document is a document. -/
def JsonDocument.left (codec : NumberCodec) (doc : JsonDocument) (v : String) : JsonDocument where
  root := (doc.decoded codec).without v
  canonical := (doc.canonical.mapNumbers _).without v

/-- What is left can be decoded, and comes back as it is. -/
theorem JsonDocument.Decodable.left (h : doc.Decodable codec) (v : String) :
    (doc.left codec v).Decodable codec ∧ (doc.left codec v).decoded codec = (doc.left codec v).root := by
  have hnumbers : ∀ n ∈ (doc.left codec v).root.numbers, codec.reencode n = some n := by
    intro n hn
    have hmem := numbers_without_subset v (doc.decoded codec) hn
    rw [JsonDocument.decoded, numbers_mapNumbers] at hmem
    obtain ⟨m, hm, rfl⟩ := List.mem_map.mp hmem
    obtain ⟨k, hk⟩ := ne_none_iff_exists'.mp (h.2 m hm)
    rw [hk]
    exact codec.stable m k hk
  refine ⟨⟨?_, fun n hn => ?_⟩, mapNumbers_eq_self fun n hn => ?_⟩
  · refine (depth_without_le v (doc.decoded codec)).trans ?_
    rw [JsonDocument.decoded, depth_mapNumbers]
    exact h.1
  · rw [hnumbers n hn]
    exact some_ne_none n
  · rw [hnumbers n hn, getD_some]

/-- The operation succeeds exactly when the string is not blank, the document can be decoded, and every object that is
visited has no member `type`, or one that is null or a string. It then leaves out the outermost objects of the type
and keeps the rest, with the numbers as they come back, and doing it again changes nothing. -/
theorem pruneObjects_succeeds_iff (codec : NumberCodec) (doc : JsonDocument) (raw : String) :
    ((∃ out, pruneObjects codec doc raw = .ok out) ↔
      trimSpace raw ≠ "" ∧ doc.Decodable codec ∧ doc.root.comparable (trimSpace raw) = true) ∧
    ∀ out, pruneObjects codec doc raw = .ok out →
      out = (doc.root.without (trimSpace raw)).mapNumbers (fun n => (codec.reencode n).getD n) ∧
      ∃ again : JsonDocument, again.root = out ∧ pruneObjects codec again raw = .ok out := by
  constructor
  · constructor
    · rintro ⟨out, hout⟩
      obtain ⟨hblank, hdec, hcomp, _⟩ := pruneObjects_eq_ok_iff.mp hout
      exact ⟨hblank, hdec, hcomp⟩
    · rintro ⟨hblank, hdec, hcomp⟩
      exact ⟨_, pruneObjects_eq_ok_iff.mpr ⟨hblank, hdec, hcomp, rfl⟩⟩
  · intro out hout
    obtain ⟨hblank, hdec, hcomp, rfl⟩ := pruneObjects_eq_ok_iff.mp hout
    refine ⟨without_mapNumbers _ doc.root, doc.left codec (trimSpace raw), rfl, ?_⟩
    have hcomp' : (doc.decoded codec).comparable (trimSpace raw) = true := by
      rw [JsonDocument.decoded, comparable_mapNumbers]
      exact hcomp
    obtain ⟨hleft, hagain⟩ := without_without hcomp'
    obtain ⟨hdec', hsame⟩ := hdec.left (trimSpace raw)
    refine pruneObjects_eq_ok_iff.mpr ⟨hblank, hdec', hleft, ?_⟩
    rw [hsame]
    exact hagain.symm

/-- The parameters of a tool, one of which is named `type`. -/
def toolDocument : JsonDocument where
  root := .object [("tools", .array [.object [("parameters", .object [("properties", .object [("type",
    .object [("type", .string "string")])])])]])]
  canonical := by
    refine .object (by simp) (forall_mem_singleton.mpr (.array (forall_mem_singleton.mpr ?_)))
    refine .object (by simp) (forall_mem_singleton.mpr (.object (by simp) (forall_mem_singleton.mpr ?_)))
    refine .object (by simp) (forall_mem_singleton.mpr (.object (by simp) (forall_mem_singleton.mpr ?_)))
    exact .string _

/-- The member `type` of an object can be an object: nothing is left out, the operation fails. -/
theorem pruneObjects_type_object :
    pruneObjects ⟨some, fun _ _ _ => rfl⟩ toolDocument "redacted_thinking" = .error (.differentTypes .json) := by
  have hdec : (JsonDocument.unmarshal ⟨some, fun _ _ _ => rfl⟩ toolDocument) = .ok toolDocument.root := by
    refine unmarshal_eq_ok_iff.mpr ⟨⟨by decide, by simp⟩, (JsonValue.mapNumbers_eq_self fun n _ => rfl).symm⟩
  have hname : trimSpace "redacted_thinking" = "redacted_thinking" := by decide +kernel
  rfl

end Prox
