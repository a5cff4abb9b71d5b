import Mathlib.Data.Rat.Defs
import Mathlib.Data.List.Sort
import Mathlib.Order.Lattice

/-! # JSON values

A JSON document as the tree it denotes: an object is a finite map from names to values, written as its members in the
order of their names. Recursion over a value goes along its items and members, and `JsonValue.induct` is the
induction that goes with it. -/

namespace Prox

open List

/-- A JSON value. -/
inductive JsonValue where
  | null
  | bool (b : Bool)
  | number (n : ℚ)
  | string (s : String)
  | array (items : List JsonValue)
  | object (members : List (String × JsonValue))

namespace JsonValue

/-- What holds of a value when it holds of its items and members holds of every value. -/
@[elab_as_elim, induction_eliminator]
theorem induct {P : JsonValue → Prop} (hnull : P .null) (hbool : ∀ b, P (.bool b)) (hnumber : ∀ n, P (.number n))
    (hstring : ∀ s, P (.string s)) (harray : ∀ items, (∀ j ∈ items, P j) → P (.array items))
    (hobject : ∀ members : List (String × JsonValue), (∀ m ∈ members, P m.2) → P (.object members))
    (j : JsonValue) : P j :=
  @JsonValue.rec P (fun items => ∀ j ∈ items, P j) (fun members => ∀ m ∈ members, P m.2) (fun m => P m.2)
    hnull hbool hnumber hstring harray hobject
    nofun (fun _ _ hj hrest => forall_mem_cons.mpr ⟨hj, hrest⟩)
    nofun (fun _ _ hm hrest => forall_mem_cons.mpr ⟨hm, hrest⟩)
    (fun _ _ hj => hj) j

/-! ## Numbers and depth -/

mutual

/-- Every number of a value replaced. -/
def mapNumbers (f : ℚ → ℚ) : JsonValue → JsonValue
  | .number n => .number (f n)
  | .array items => .array (mapNumbersItems f items)
  | .object members => .object (mapNumbersMembers f members)
  | .null => .null
  | .bool b => .bool b
  | .string s => .string s

/-- Every number of the items replaced. -/
def mapNumbersItems (f : ℚ → ℚ) : List JsonValue → List JsonValue
  | [] => []
  | j :: rest => j.mapNumbers f :: mapNumbersItems f rest

/-- Every number of the members replaced. -/
def mapNumbersMembers (f : ℚ → ℚ) : List (String × JsonValue) → List (String × JsonValue)
  | [] => []
  | (name, j) :: rest => (name, j.mapNumbers f) :: mapNumbersMembers f rest

end

mutual

/-- The numbers of a value. -/
def numbers : JsonValue → List ℚ
  | .number n => [n]
  | .array items => numbersItems items
  | .object members => numbersMembers members
  | .null => []
  | .bool _ => []
  | .string _ => []

/-- The numbers of the items. -/
def numbersItems : List JsonValue → List ℚ
  | [] => []
  | j :: rest => j.numbers ++ numbersItems rest

/-- The numbers of the members. -/
def numbersMembers : List (String × JsonValue) → List ℚ
  | [] => []
  | (_, j) :: rest => j.numbers ++ numbersMembers rest

end

mutual

/-- How deep arrays and objects are nested. -/
def depth : JsonValue → Nat
  | .array items => depthItems items + 1
  | .object members => depthMembers members + 1
  | .null => 0
  | .bool _ => 0
  | .number _ => 0
  | .string _ => 0

/-- The greatest depth of the items. -/
def depthItems : List JsonValue → Nat
  | [] => 0
  | j :: rest => max j.depth (depthItems rest)

/-- The greatest depth of the members. -/
def depthMembers : List (String × JsonValue) → Nat
  | [] => 0
  | (_, j) :: rest => max j.depth (depthMembers rest)

end

variable (f : ℚ → ℚ)

@[simp] theorem mapNumbersItems_eq (items : List JsonValue) :
    mapNumbersItems f items = items.map (mapNumbers f) := by
  induction items with
  | nil => rfl
  | cons j rest ih => rw [mapNumbersItems, ih, map_cons]

@[simp] theorem mapNumbersMembers_eq (members : List (String × JsonValue)) :
    mapNumbersMembers f members = members.map fun m => (m.1, m.2.mapNumbers f) := by
  induction members with
  | nil => rfl
  | cons m rest ih => rw [mapNumbersMembers, ih, map_cons]

@[simp] theorem numbersItems_eq (items : List JsonValue) : numbersItems items = items.flatMap numbers := by
  induction items with
  | nil => rfl
  | cons j rest ih => rw [numbersItems, ih, flatMap_cons]

@[simp] theorem numbersMembers_eq (members : List (String × JsonValue)) :
    numbersMembers members = members.flatMap fun m => m.2.numbers := by
  induction members with
  | nil => rfl
  | cons m rest ih => rw [numbersMembers, ih, flatMap_cons]

theorem depthItems_le_iff {items : List JsonValue} {n : Nat} : depthItems items ≤ n ↔ ∀ j ∈ items, j.depth ≤ n := by
  induction items with
  | nil => simp [depthItems]
  | cons j rest ih => rw [depthItems, Nat.max_le, ih, forall_mem_cons]

theorem depthMembers_le_iff {members : List (String × JsonValue)} {n : Nat} :
    depthMembers members ≤ n ↔ ∀ m ∈ members, m.2.depth ≤ n := by
  induction members with
  | nil => simp [depthMembers]
  | cons m rest ih => rw [depthMembers, Nat.max_le, ih, forall_mem_cons]

/-- Values with the same numbers but for the ones that are kept anyway. -/
theorem mapNumbers_eq_self {f : ℚ → ℚ} {j : JsonValue} (h : ∀ n ∈ j.numbers, f n = n) : j.mapNumbers f = j := by
  induction j with
  | hnull => rfl
  | hbool b => rfl
  | hnumber n => rw [mapNumbers, h n (by simp [numbers])]
  | hstring s => rfl
  | harray items ih =>
    rw [mapNumbers, mapNumbersItems_eq]
    refine congrArg array ((map_congr_left fun j hj => ?_).trans (map_id' items))
    exact ih j hj fun n hn => h n (by rw [numbers, numbersItems_eq]; exact mem_flatMap.mpr ⟨j, hj, hn⟩)
  | hobject members ih =>
    rw [mapNumbers, mapNumbersMembers_eq]
    refine congrArg object ((map_congr_left fun m hm => ?_).trans (map_id' members))
    rw [ih m hm fun n hn => h n (by rw [numbers, numbersMembers_eq]; exact mem_flatMap.mpr ⟨m, hm, hn⟩)]

@[simp] theorem numbers_mapNumbers (j : JsonValue) : (j.mapNumbers f).numbers = j.numbers.map f := by
  induction j with
  | hnull => rfl
  | hbool b => rfl
  | hnumber n => rfl
  | hstring s => rfl
  | harray items ih =>
    rw [mapNumbers, mapNumbersItems_eq, numbers, numbersItems_eq, numbers, numbersItems_eq, map_flatMap,
      flatMap_map]
    exact flatMap_congr fun j hj => ih j hj
  | hobject members ih =>
    rw [mapNumbers, mapNumbersMembers_eq, numbers, numbersMembers_eq, numbers, numbersMembers_eq, map_flatMap,
      flatMap_map]
    exact flatMap_congr fun m hm => ih m hm

@[simp] theorem depth_mapNumbers (j : JsonValue) : (j.mapNumbers f).depth = j.depth := by
  induction j with
  | hnull => rfl
  | hbool b => rfl
  | hnumber n => rfl
  | hstring s => rfl
  | harray items ih =>
    have hle : ∀ n, depthItems (items.map (mapNumbers f)) ≤ n ↔ depthItems items ≤ n := by
      intro n
      rw [depthItems_le_iff, depthItems_le_iff, forall_mem_map]
      exact forall₂_congr fun j hj => by rw [ih j hj]
    rw [mapNumbers, mapNumbersItems_eq, depth, depth,
      Nat.le_antisymm ((hle _).mpr (Nat.le_refl _)) ((hle _).mp (Nat.le_refl _))]
  | hobject members ih =>
    have hle : ∀ n, depthMembers (members.map fun m => (m.1, m.2.mapNumbers f)) ≤ n ↔ depthMembers members ≤ n := by
      intro n
      rw [depthMembers_le_iff, depthMembers_le_iff, forall_mem_map]
      exact forall₂_congr fun m hm => by rw [ih m hm]
    rw [mapNumbers, mapNumbersMembers_eq, depth, depth,
      Nat.le_antisymm ((hle _).mpr (Nat.le_refl _)) ((hle _).mp (Nat.le_refl _))]

/-! ## Members -/

/-- The members of every object stand in the order of their names, which are distinct. -/
inductive Canonical : JsonValue → Prop
  | null : Canonical .null
  | bool (b : Bool) : Canonical (.bool b)
  | number (n : ℚ) : Canonical (.number n)
  | string (s : String) : Canonical (.string s)
  | array {items : List JsonValue} (h : ∀ j ∈ items, Canonical j) : Canonical (.array items)
  | object {members : List (String × JsonValue)} (hnames : (members.map Prod.fst).Pairwise (· < ·))
      (h : ∀ m ∈ members, Canonical m.2) : Canonical (.object members)

theorem Canonical.mapNumbers {j : JsonValue} (h : j.Canonical) (f : ℚ → ℚ) : (j.mapNumbers f).Canonical := by
  induction h with
  | null => exact .null
  | bool b => exact .bool b
  | number n => exact .number (f n)
  | string s => exact .string s
  | array h ih =>
    rw [JsonValue.mapNumbers, mapNumbersItems_eq]
    exact .array (forall_mem_map.mpr ih)
  | object hnames h ih =>
    rw [JsonValue.mapNumbers, mapNumbersMembers_eq]
    exact .object (by simpa [Function.comp_def] using hnames) (forall_mem_map.mpr ih)

end JsonValue

end Prox
