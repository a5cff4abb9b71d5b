import Prox.Lib.Go
import Prox.Lib.Json

/-! # Places in JSON values

A place is a chain of names that leads from the root of a value to one of its children: the names of members, and
the positions of items written in decimal. What is done at the last name of a chain is a parameter, `act`: it gets
the value that the rest of the chain leads to. Doing it at several places of one length, one after the other, is
doing something at each value one level above (`foldl_actAt_chains`). -/

namespace Prox

open List

variable {j : JsonValue} {path : List (String → Bool)} {chain : List String}

namespace JsonValue

/-! ## Children -/

/-- The items or members of a value under their names. -/
def children : JsonValue → List (String × JsonValue)
  | .object members => members
  | .array items => items.mapIdx fun i j => (toString i, j)
  | .null => []
  | .bool _ => []
  | .number _ => []
  | .string _ => []

/-- The value with other children. -/
def rebuild (list : List (String × JsonValue)) : JsonValue → JsonValue
  | .object _ => .object list
  | .array _ => .array (list.map Prod.snd)
  | .null => .null
  | .bool b => .bool b
  | .number n => .number n
  | .string s => .string s

/-- The names of the children. -/
def names (j : JsonValue) : List String := j.children.map Prod.fst

/-- An array or an object. -/
inductive Kind where
  | scalar | array | object
  deriving DecidableEq

/-- What a value is. -/
def kind : JsonValue → Kind
  | .object _ => .object
  | .array _ => .array
  | .null => .scalar
  | .bool _ => .scalar
  | .number _ => .scalar
  | .string _ => .scalar

variable (items : List JsonValue)

theorem names_array :
    (JsonValue.array items).names = (List.range items.length).map toString := by
  rw [names, children]
  exact ext_getElem (by simp) (by simp)

@[simp] theorem rebuild_children (j : JsonValue) : j.rebuild j.children = j := by
  cases j with
  | array items =>
    rw [children]
    exact congrArg _ (ext_getElem (by simp) (by simp))
  | _ => rfl

@[simp] theorem rebuild_rebuild (j : JsonValue) (l l' : List (String × JsonValue)) :
    (j.rebuild l).rebuild l' = j.rebuild l' := by
  cases j <;> rfl

@[simp] theorem kind_rebuild (j : JsonValue) (l : List (String × JsonValue)) : (j.rebuild l).kind = j.kind := by
  cases j <;> rfl

variable (f : ℚ → ℚ)

@[simp] theorem children_mapNumbers (j : JsonValue) :
    (j.mapNumbers f).children = j.children.map fun c => (c.1, c.2.mapNumbers f) := by
  cases j with
  | array items =>
    rw [mapNumbers, children, children]
    exact ext_getElem (by simp) (by simp)
  | object members => rw [mapNumbers, mapNumbersMembers_eq, children, children]
  | _ => rfl

@[simp] theorem names_mapNumbers (j : JsonValue) : (j.mapNumbers f).names = j.names := by
  simp [names]

@[simp] theorem kind_mapNumbers (j : JsonValue) : (j.mapNumbers f).kind = j.kind := by
  cases j <;> rfl

/-- The children that a value is rebuilt with, under the names it had. -/
theorem children_rebuild {l : List (String × JsonValue)} (h : l.map Prod.fst = j.names) :
    (j.rebuild l).children = l := by
  cases j with
  | object members => rfl
  | array items =>
    rw [rebuild, children]
    refine ext_getElem (by simp) fun i hi hi' => ?_
    have hin : i < (l.map Prod.fst).length := by simpa using hi'
    have hname : (l.map Prod.fst)[i] = toString i := by
      simp [h, names_array]
    simp only [getElem_mapIdx, getElem_map, ← hname]
  | _ => exact (map_eq_nil_iff.mp h).symm

/-! ## At one place -/

variable {act : String → JsonValue → JsonValue} {name name' : String}

/-- The child of one name changed. -/
def overChild (name : String) (f : JsonValue → JsonValue) (j : JsonValue) : JsonValue :=
  j.rebuild (j.children.map fun c => if c.1 = name then (c.1, f c.2) else c)

/-- What is done with the last name of a chain, at the end of the rest. -/
def actAt (act : String → JsonValue → JsonValue) : List String → JsonValue → JsonValue
  | [], j => j
  | [name], j => act name j
  | name :: next :: rest, j => j.overChild name (actAt act (next :: rest))

/-- The value at the end of a chain. -/
def follow : List String → JsonValue → Option JsonValue
  | [], j => some j
  | name :: rest, j => (j.children.lookup name).bind (follow rest)

theorem actAt_cons (name : String) {rest : List String} (h : rest ≠ []) (j : JsonValue) :
    actAt act (name :: rest) j = j.overChild name (actAt act rest) := by
  obtain ⟨next, rest, rfl⟩ := exists_cons_of_ne_nil h
  rfl

theorem map_fst_overChild (l : List (String × JsonValue)) (f : JsonValue → JsonValue) :
    (l.map fun c => if c.1 = name then (c.1, f c.2) else c).map Prod.fst = l.map Prod.fst := by
  rw [map_map]
  refine map_congr_left fun c _ => ?_
  simp only [Function.comp_apply]
  split <;> rfl

section

variable (f : JsonValue → JsonValue)

theorem children_overChild (j : JsonValue) :
    (j.overChild name f).children = j.children.map fun c => if c.1 = name then (c.1, f c.2) else c :=
  children_rebuild (map_fst_overChild _ _)

@[simp] theorem names_overChild (j : JsonValue) :
    (j.overChild name f).names = j.names := by
  rw [names, children_overChild, map_fst_overChild, names]

@[simp] theorem kind_overChild (j : JsonValue) : (j.overChild name f).kind = j.kind :=
  kind_rebuild _ _

theorem lookup_overChild (j : JsonValue) :
    (j.overChild name f).children.lookup name' =
      if name' = name then (j.children.lookup name').map f else j.children.lookup name' := by
  rw [children_overChild]
  induction j.children with
  | nil => simp
  | cons c rest ih =>
    obtain ⟨key, child⟩ := c
    have hpair : (if key = name then (key, f child) else (key, child)) =
        (key, if key = name then f child else child) := by split <;> rfl
    rw [map_cons, hpair, lookup_cons, lookup_cons, ih]
    by_cases hkey : name' = key
    · subst hkey
      by_cases hname : name' = name <;> simp [hname]
    · rw [beq_false_of_ne hkey]

end

/-- Changes of one child follow each other in the child. -/
theorem overChild_overChild (f g : JsonValue → JsonValue) (j : JsonValue) :
    (j.overChild name f).overChild name g = j.overChild name (g ∘ f) := by
  rw [overChild, children_overChild, overChild, rebuild_rebuild, map_map]
  refine congrArg (rebuild · j) (map_congr_left fun c _ => ?_)
  by_cases hc : c.1 = name
  · simp [hc]
  · simp [hc]

theorem overChild_id (j : JsonValue) : j.overChild name id = j := by
  rw [overChild]
  simp

/-! ## At every place that fits -/

/-- The places that fit: at each level the names that fit, and under them the last names. -/
def chains (lastNames : JsonValue → List String) : List (String → Bool) → JsonValue → List (List String)
  | [], j => (lastNames j).map ([·])
  | fits :: rest, j =>
    (j.children.filter fun c => fits c.1).flatMap fun c => (chains lastNames rest c.2).map (c.1 :: ·)

/-- The values that fit. -/
def matched : List (String → Bool) → JsonValue → List JsonValue
  | [], j => [j]
  | fits :: rest, j => (j.children.filter fun c => fits c.1).flatMap fun c => matched rest c.2

/-- Something done at each value that fits. -/
def alterMatched (f : JsonValue → JsonValue) : List (String → Bool) → JsonValue → JsonValue
  | [], j => f j
  | fits :: rest, j => j.rebuild (j.children.map fun c => if fits c.1 then (c.1, alterMatched f rest c.2) else c)

variable {lastNames : JsonValue → List String}

theorem map_fst_alterMatched (fits : String → Bool) (f : JsonValue → JsonValue) (l : List (String × JsonValue)) :
    (l.map fun c => if fits c.1 then (c.1, f c.2) else c).map Prod.fst = l.map Prod.fst := by
  rw [map_map]
  refine map_congr_left fun c _ => ?_
  simp only [Function.comp_apply]
  split <;> rfl

theorem ne_nil_of_mem_chains (h : chain ∈ chains lastNames path j) : chain ≠ [] := by
  cases path with
  | nil =>
    obtain ⟨name, _, rfl⟩ := mem_map.mp h
    exact cons_ne_nil _ _
  | cons fits rest =>
    obtain ⟨c, _, h⟩ := mem_flatMap.mp h
    obtain ⟨chain, _, rfl⟩ := mem_map.mp h
    exact cons_ne_nil _ _

theorem length_of_mem_chains (h : chain ∈ chains lastNames path j) :
    chain.length = path.length + 1 := by
  induction path generalizing j chain with
  | nil =>
    obtain ⟨name, _, rfl⟩ := mem_map.mp h
    rfl
  | cons fits rest ih =>
    obtain ⟨c, _, h⟩ := mem_flatMap.mp h
    obtain ⟨chain, hchain, rfl⟩ := mem_map.mp h
    rw [length_cons, length_cons, ih hchain]

/-- Chains that begin with one name stay in the child of that name. -/
theorem foldl_actAt_map_cons (name : String) {l : List (List String)} (h : ∀ chain ∈ l, chain ≠ []) (j : JsonValue) :
    (l.map (name :: ·)).foldl (fun r chain => actAt act chain r) j =
      j.overChild name fun x => l.foldl (fun r chain => actAt act chain r) x := by
  induction l generalizing j with
  | nil => exact (overChild_id j).symm
  | cons chain l ih =>
    obtain ⟨hne, h⟩ := forall_mem_cons.mp h
    rw [map_cons, foldl_cons, ih h, actAt_cons name hne, overChild_overChild]
    rfl

variable (F : JsonValue → JsonValue → JsonValue)

/-- Changing the children of distinct names one after the other changes each of them. -/
theorem foldl_overNames (fits : String → Bool)
    (before todo : List (String × JsonValue)) (h : ((before ++ todo).map Prod.fst).Nodup) :
    (todo.filter fun c => fits c.1).foldl
        (fun l c => l.map fun c' => if c'.1 = c.1 then (c'.1, F c.2 c'.2) else c') (before ++ todo) =
      before ++ todo.map fun c => if fits c.1 then (c.1, F c.2 c.2) else c := by
  induction todo generalizing before with
  | nil => rfl
  | cons c rest ih =>
    have hnodup : ((before ++ [if fits c.1 then (c.1, F c.2 c.2) else c] ++ rest).map Prod.fst).Nodup := by
      have hname : (if fits c.1 then (c.1, F c.2 c.2) else c).1 = c.1 := by split <;> rfl
      simpa [hname] using h
    have hrest := ih _ hnodup
    rw [map_cons, filter_cons]
    by_cases hfits : fits c.1 = true
    · rw [if_pos hfits] at hrest ⊢
      have hother : ∀ c' ∈ before ++ rest, c'.1 ≠ c.1 := by
        rw [map_append, map_cons, nodup_middle, nodup_cons, ← map_append] at h
        exact fun c' hc' heq => h.1 (heq ▸ mem_map_of_mem hc')
      have hkeep : ∀ l : List (String × JsonValue), (∀ c' ∈ l, c'.1 ≠ c.1) →
          l.map (fun c' => if c'.1 = c.1 then (c'.1, F c.2 c'.2) else c') = l := fun l hl =>
        (map_congr_left fun c' hc' => if_neg (hl c' hc')).trans (map_id' l)
      rw [if_pos hfits, foldl_cons, map_append, map_cons, hkeep before fun c' hc' =>
          hother c' (mem_append_left _ hc'), hkeep rest fun c' hc' => hother c'
          (mem_append_right _ hc')]
      simpa using hrest
    · rw [if_neg hfits] at hrest ⊢
      rw [if_neg hfits]
      simpa using hrest

theorem foldl_overChild (fits : String → Bool)
    (h : j.names.Nodup) :
    (j.children.filter fun c => fits c.1).foldl (fun r c => r.overChild c.1 (F c.2)) j =
      j.rebuild (j.children.map fun c => if fits c.1 then (c.1, F c.2 c.2) else c) := by
  have hlist : ∀ (todo l : List (String × JsonValue)), l.map Prod.fst = j.names →
      todo.foldl (fun r c => r.overChild c.1 (F c.2)) (j.rebuild l) =
        j.rebuild (todo.foldl (fun l c => l.map fun c' => if c'.1 = c.1 then (c'.1, F c.2 c'.2) else c') l) := by
    intro todo
    induction todo with
    | nil => exact fun l _ => rfl
    | cons c todo ih =>
      intro l hl
      rw [foldl_cons, overChild, children_rebuild hl, rebuild_rebuild]
      exact ih _ ((map_fst_overChild _ _).trans hl)
  have hrun := hlist (j.children.filter fun c => fits c.1) j.children rfl
  rw [rebuild_children] at hrun
  rw [hrun]
  exact congrArg (rebuild · j) (foldl_overNames F fits [] j.children h)

/-! ## Canonical values -/

theorem toString_nat_injective : Function.Injective (toString : Nat → String) := by
  intro m n h
  exact Int.ofNat.inj (toString_int_inj (x := m) (y := n) h)

theorem Canonical.nodup_names (h : j.Canonical) : j.names.Nodup := by
  cases h with
  | @object members hnames _ =>
    refine hnames.imp ?_
    intro a b hlt heq
    exact String.lt_irrefl b (heq ▸ hlt)
  | @array items _ =>
    rw [names_array]
    exact nodup_range.map toString_nat_injective
  | _ => exact nodup_nil

theorem Canonical.child (h : j.Canonical) {c : String × JsonValue} (hc : c ∈ j.children) :
    c.2.Canonical := by
  cases h with
  | object _ h => exact h c hc
  | array h =>
    obtain ⟨i, hi, rfl⟩ := mem_mapIdx.mp hc
    exact h _ (getElem_mem hi)
  | _ => exact absurd hc not_mem_nil

/-- Doing something at the places that fit, one after the other, is doing it with all last names at each value
above. -/
theorem foldl_actAt_chains (h : j.Canonical) :
    (chains lastNames path j).foldl (fun r chain => actAt act chain r) j =
      j.alterMatched (fun n => (lastNames n).foldl (fun r name => act name r) n) path := by
  induction path generalizing j with
  | nil => rw [chains, foldl_map]; rfl
  | cons fits rest ih =>
    rw [chains, foldl_flatMap]
    have hlift : ∀ (c : String × JsonValue) (r : JsonValue),
        ((chains lastNames rest c.2).map (c.1 :: ·)).foldl (fun r chain => actAt act chain r) r =
          r.overChild c.1 fun x => (chains lastNames rest c.2).foldl (fun r chain => actAt act chain r) x :=
      fun c r => foldl_actAt_map_cons c.1 (fun chain hchain => ne_nil_of_mem_chains hchain) r
    simp only [hlift]
    rw [foldl_overChild (fun child x => (chains lastNames rest child).foldl (fun r chain => actAt act chain r) x) fits
      h.nodup_names]
    refine congrArg (rebuild · j) (map_congr_left fun c hc => ?_)
    rw [ih (h.child hc)]

/-! ## Places -/

/-- A chain that leads over distinct names to a value of which something holds with the last name. -/
def PlaceOf (P : String → JsonValue → Prop) : List String → JsonValue → Prop
  | [], _ => False
  | [name], j => P name j
  | name :: next :: rest, j =>
    j.names.Nodup ∧ ∃ child, j.children.lookup name = some child ∧ PlaceOf P (next :: rest) child

variable {P : String → JsonValue → Prop}

theorem placeOf_cons {name : String} {rest : List String} (h : rest ≠ []) :
    PlaceOf P (name :: rest) j ↔
      j.names.Nodup ∧ ∃ child, j.children.lookup name = some child ∧ PlaceOf P rest child := by
  obtain ⟨next, rest, rfl⟩ := exists_cons_of_ne_nil h
  rfl

theorem lookup_of_mem {l : List (String × JsonValue)} (h : (l.map Prod.fst).Nodup) {c : String × JsonValue}
    (hc : c ∈ l) : l.lookup c.1 = some c.2 := by
  induction l with
  | nil => exact absurd hc not_mem_nil
  | cons c' rest ih =>
    rw [map_cons, nodup_cons] at h
    rw [lookup_cons]
    rcases mem_cons.mp hc with rfl | hc
    · rw [beq_self_eq_true]
    · have hne : c.1 ≠ c'.1 := fun heq => h.1 (heq ▸ mem_map_of_mem hc)
      rw [beq_false_of_ne hne]
      exact ih h.2 hc

/-- The chains that fit lead to places. -/
theorem placeOf_of_mem_chains (hlast : ∀ j name, name ∈ lastNames j → P name j) (h : j.Canonical)
    (hchain : chain ∈ chains lastNames path j) : PlaceOf P chain j := by
  induction path generalizing j chain with
  | nil =>
    obtain ⟨name, hname, rfl⟩ := mem_map.mp hchain
    exact hlast j name hname
  | cons fits rest ih =>
    obtain ⟨c, hc, hchain⟩ := mem_flatMap.mp hchain
    obtain ⟨rest, hrest, rfl⟩ := mem_map.mp hchain
    have hmem := mem_of_mem_filter hc
    exact (placeOf_cons (ne_nil_of_mem_chains hrest)).mpr
      ⟨h.nodup_names, c.2, lookup_of_mem h.nodup_names hmem, ih (h.child hmem) hrest⟩

theorem PlaceOf.ne_nil (h : PlaceOf P chain j) : chain ≠ [] := by
  rintro rfl
  exact h

theorem PlaceOf.imp {Q : String → JsonValue → Prop} (hPQ : ∀ name j, P name j → Q name j)
    (h : PlaceOf P chain j) : PlaceOf Q chain j := by
  induction chain generalizing j with
  | nil => exact h.elim
  | cons name rest ih =>
    by_cases hrest : rest = []
    · subst hrest
      exact hPQ name j h
    · obtain ⟨hnodup, child, hchild, hplace⟩ := (placeOf_cons hrest).mp h
      exact (placeOf_cons hrest).mpr ⟨hnodup, child, hchild, ih hplace⟩

/-- A place stays one when something is done at places of the same length. -/
theorem PlaceOf.actAt (hact : ∀ name name' j, P name j → P name (act name' j))
    {chain' : List String} (hlength : chain.length = chain'.length) (h : PlaceOf P chain j) :
    PlaceOf P chain (JsonValue.actAt act chain' j) := by
  induction chain generalizing chain' j with
  | nil => exact h.elim
  | cons name rest ih =>
    obtain ⟨name', rest', rfl⟩ : ∃ name' rest', chain' = name' :: rest' :=
      exists_cons_of_ne_nil fun hnil => by simp [hnil] at hlength
    have hlength' : rest.length = rest'.length := by simpa using hlength
    by_cases hrest : rest = []
    · subst hrest
      obtain rfl := length_eq_zero_iff.mp hlength'.symm
      exact hact name name' j h
    · have hrest' : rest' ≠ [] := fun hnil => hrest (by simpa [hnil] using hlength')
      obtain ⟨hnodup, child, hchild, hplace⟩ := (placeOf_cons hrest).mp h
      rw [actAt_cons name' hrest', placeOf_cons hrest, lookup_overChild, hchild, names_overChild]
      refine ⟨hnodup, ?_⟩
      by_cases hname : name = name'
      · exact ⟨_, if_pos hname, ih hlength' hplace⟩
      · exact ⟨child, if_neg hname, hplace⟩

/-- What is done at another place of the same length is not seen. -/
theorem follow_actAt
    (hact : ∀ name name' j, name ≠ name' → (act name' j).children.lookup name = j.children.lookup name)
    {chain' : List String} (hlength : chain.length = chain'.length) (hne : chain ≠ chain')
    (j : JsonValue) : (actAt act chain' j).follow chain = j.follow chain := by
  induction chain generalizing chain' j with
  | nil => exact absurd (length_eq_zero_iff.mp hlength.symm).symm hne
  | cons name rest ih =>
    obtain ⟨name', rest', rfl⟩ : ∃ name' rest', chain' = name' :: rest' :=
      exists_cons_of_ne_nil fun hnil => by simp [hnil] at hlength
    have hlength' : rest.length = rest'.length := by simpa using hlength
    by_cases hrest : rest' = []
    · subst hrest
      obtain rfl := length_eq_zero_iff.mp hlength'
      have hname : name ≠ name' := fun heq => hne (by rw [heq])
      show ((act name' j).children.lookup name).bind _ = _
      rw [hact name name' j hname, follow]
    · rw [actAt_cons name' hrest, follow, follow, lookup_overChild]
      by_cases hname : name = name'
      · rw [if_pos hname]
        cases j.children.lookup name with
        | none => rfl
        | some child => exact ih hlength' (fun heq => hne (by rw [hname, heq])) child
      · rw [if_neg hname]

/-- Distinct last names make distinct chains. -/
theorem nodup_chains (hlast : ∀ j : JsonValue, j.Canonical → (lastNames j).Nodup) (h : j.Canonical) :
    (chains lastNames path j).Nodup := by
  induction path generalizing j with
  | nil => exact (hlast j h).map fun a b hab => (List.cons.inj hab).1
  | cons fits rest ih =>
    rw [chains, nodup_flatMap]
    refine ⟨fun c hc => ?_, ?_⟩
    · have hchild := h.child (mem_of_mem_filter hc)
      exact (ih hchild).map fun a b hab => (List.cons.inj hab).2
    · have hnames : (j.children.filter fun c => fits c.1).Pairwise fun c c' => c.1 ≠ c'.1 :=
        (pairwise_map.mp h.nodup_names).sublist filter_sublist
      refine hnames.imp ?_
      intro c c' hne chain hchain hchain'
      obtain ⟨_, _, rfl⟩ := mem_map.mp hchain
      obtain ⟨_, _, heq⟩ := mem_map.mp hchain'
      exact hne (List.cons.inj heq).1.symm

/-- Two things done at the values that fit have one outcome exactly when they have at each of these. -/
theorem alterMatched_eq_iff {f g : JsonValue → JsonValue} :
    j.alterMatched f path = j.alterMatched g path ↔ ∀ n ∈ j.matched path, f n = g n := by
  induction path generalizing j with
  | nil => simp [alterMatched, matched]
  | cons fits rest ih =>
    have hchildren : ∀ f : JsonValue → JsonValue, (j.alterMatched f (fits :: rest)).children =
        j.children.map fun c => if fits c.1 then (c.1, c.2.alterMatched f rest) else c := fun f =>
      children_rebuild (map_fst_alterMatched fits (fun x => x.alterMatched f rest) j.children)
    have hiff : j.alterMatched f (fits :: rest) = j.alterMatched g (fits :: rest) ↔
        ∀ c ∈ j.children, fits c.1 = true → c.2.alterMatched f rest = c.2.alterMatched g rest := by
      constructor
      · intro heq c hc hfits
        have hlist := (hchildren f).symm.trans ((congrArg children heq).trans (hchildren g))
        have hpair := map_inj_left.mp hlist c hc
        rw [if_pos hfits, if_pos hfits] at hpair
        exact (Prod.mk.inj hpair).2
      · intro hall
        refine congrArg (rebuild · j) (map_congr_left fun c hc => ?_)
        by_cases hfits : fits c.1 = true
        · rw [if_pos hfits, if_pos hfits, hall c hc hfits]
        · rw [if_neg hfits, if_neg hfits]
    rw [hiff]
    constructor
    · intro hall n hn
      obtain ⟨c, hc, hn⟩ := mem_flatMap.mp hn
      obtain ⟨hmem, hfits⟩ := mem_filter.mp hc
      exact ih.mp (hall c hmem hfits) n hn
    · intro hall c hc hfits
      exact ih.mpr fun n hn => hall n (mem_flatMap.mpr ⟨c, mem_filter.mpr ⟨hc, hfits⟩, hn⟩)

theorem chains_mapNumbers (hlast : ∀ j : JsonValue, lastNames (j.mapNumbers f) = lastNames j)
    (path : List (String → Bool)) (j : JsonValue) :
    chains lastNames path (j.mapNumbers f) = chains lastNames path j := by
  induction path generalizing j with
  | nil => rw [chains, chains, hlast]
  | cons fits rest ih =>
    rw [chains, children_mapNumbers, filter_map, flatMap_map]
    exact flatMap_congr fun c _ => congrArg _ (ih c.2)

/-! ## Setting and removing a child -/

/-- A new member, in the order of the names. -/
def insertMember (name : String) (v : JsonValue) (members : List (String × JsonValue)) :
    List (String × JsonValue) :=
  members.takeWhile (·.1 < name) ++ (name, v) :: members.dropWhile (·.1 < name)

/-- A new member of an object. -/
def addMember (name : String) (v : JsonValue) : JsonValue → JsonValue
  | .object members => .object (insertMember name v members)
  | .array items => .array items
  | .null => .null
  | .bool b => .bool b
  | .number n => .number n
  | .string s => .string s

/-- The child of a name set: a child of the name is replaced, and a new one is a new member. -/
def setChild (name : String) (v j : JsonValue) : JsonValue :=
  if name ∈ j.names then j.overChild name fun _ => v else addMember name v j

/-- The children whose names match left out. -/
def removeMatching (fits : String → Bool) (j : JsonValue) : JsonValue :=
  j.rebuild (j.children.filter fun c => !fits c.1)

/-- The child of one name left out. -/
def removeChild (name : String) : JsonValue → JsonValue := removeMatching (· = name)

@[simp] theorem kind_setChild (name : String) (v j : JsonValue) : (setChild name v j).kind = j.kind := by
  rw [setChild]
  split
  · exact kind_overChild _ _
  · cases j <;> rfl

@[simp] theorem kind_removeChild (name : String) (j : JsonValue) : (j.removeChild name).kind = j.kind :=
  kind_rebuild _ _

/-- Names stay. -/
theorem mem_names_setChild {name name' : String} {v : JsonValue} (h : name ∈ j.names) :
    name ∈ (setChild name' v j).names := by
  rw [setChild]
  split
  · rwa [names_overChild]
  · cases j with
    | object members =>
      obtain ⟨c, hc, rfl⟩ := mem_map.mp h
      refine mem_map_of_mem ?_
      rw [children, ← takeWhile_append_dropWhile (p := fun c => decide (c.1 < name'))
        (l := members)] at hc
      show c ∈ insertMember name' v members
      rw [insertMember, mem_append, mem_cons]
      rcases mem_append.mp hc with hc | hc
      · exact .inl hc
      · exact .inr (.inr hc)
    | _ => exact h

/-- Other children stay. -/
theorem lookup_setChild_of_ne {name name' : String} (hne : name ≠ name') (v j : JsonValue) :
    (setChild name' v j).children.lookup name = j.children.lookup name := by
  rw [setChild]
  split
  · rw [lookup_overChild, if_neg hne]
  · cases j with
    | object members =>
      show (insertMember name' v members).lookup name = members.lookup name
      conv_rhs => rw [← takeWhile_append_dropWhile (p := fun c => decide (c.1 < name')) (l := members)]
      rw [insertMember, lookup_append, lookup_append, lookup_cons, beq_false_of_ne hne]
    | _ => rfl

/-! ## All children in turn -/

/-- The child of a name edited; an edit may keep what it gets. -/
def editChild (name : String) (edit : Option JsonValue → Option JsonValue) (j : JsonValue) : JsonValue :=
  match edit (j.children.lookup name) with
  | some v => setChild name v j
  | none => j

/-- Every child edited. -/
def editChildren (edit : Option JsonValue → Option JsonValue) (j : JsonValue) : JsonValue :=
  j.rebuild (j.children.map fun c => (c.1, (edit (some c.2)).getD c.2))

variable {edit : Option JsonValue → Option JsonValue}

@[simp] theorem kind_editChild (name : String) (j : JsonValue) : (editChild name edit j).kind = j.kind := by
  rw [editChild]
  split
  · exact kind_setChild _ _ _
  · rfl

theorem mem_names_editChild (h : name ∈ j.names) : name ∈ (editChild name' edit j).names := by
  rw [editChild]
  split
  · exact mem_names_setChild h
  · exact h

theorem lookup_editChild_of_ne (hne : name ≠ name') (j : JsonValue) :
    (editChild name' edit j).children.lookup name = j.children.lookup name := by
  rw [editChild]
  split
  · exact lookup_setChild_of_ne hne _ _
  · rfl

theorem overChild_congr {f g : JsonValue → JsonValue}
    (h : ∀ c ∈ j.children, c.1 = name → f c.2 = g c.2) :
    j.overChild name f = j.overChild name g := by
  refine congrArg (rebuild · j) (map_congr_left fun c hc => ?_)
  split
  next hname => rw [h c hc hname]
  next => rfl

/-- Editing a child that is there changes it alone. -/
theorem editChild_eq_overChild (h : j.names.Nodup) (hname : name ∈ j.names) :
    editChild name edit j = j.overChild name fun x => (edit (some x)).getD x := by
  obtain ⟨c, hc, rfl⟩ := mem_map.mp hname
  have hlookup := lookup_of_mem h hc
  have honly : ∀ c' ∈ j.children, c'.1 = c.1 → c'.2 = c.2 := by
    intro c' hc' heq
    have hlookup' := lookup_of_mem h hc'
    rw [heq, hlookup] at hlookup'
    exact (Option.some.inj hlookup').symm
  rw [editChild, hlookup]
  cases hedit : edit (some c.2) with
  | some v =>
    show setChild c.1 v j = _
    rw [setChild, if_pos hname]
    exact overChild_congr fun c' hc' heq => by rw [honly c' hc' heq, hedit]; rfl
  | none =>
    refine (overChild_id j).symm.trans (overChild_congr fun c' hc' heq => ?_)
    rw [honly c' hc' heq, hedit]
    rfl

/-- Editing at a place is setting what the edit makes of the value there. -/
theorem actAt_editChild {chain : List String} {j : JsonValue} (h : PlaceOf P chain j) :
    actAt (fun name => editChild name edit) chain j =
      match edit (j.follow chain) with
      | some v => actAt (fun name => setChild name v) chain j
      | none => j := by
  induction chain generalizing j with
  | nil => exact h.elim
  | cons name rest ih =>
    by_cases hrest : rest = []
    · subst hrest
      have hfollow : j.follow [name] = j.children.lookup name := by
        rw [follow]
        cases j.children.lookup name <;> rfl
      rw [hfollow]
      rfl
    · obtain ⟨hnodup, child, hchild, hplace⟩ := (placeOf_cons hrest).mp h
      have honly : ∀ c ∈ j.children, c.1 = name → c.2 = child := by
        intro c hc heq
        have hlookup := lookup_of_mem hnodup hc
        rw [heq, hchild] at hlookup
        exact (Option.some.inj hlookup).symm
      rw [actAt_cons name hrest, follow, hchild, Option.bind_some]
      have hih := ih hplace
      cases hedit : edit (child.follow rest) with
      | some v =>
        rw [hedit] at hih
        show _ = actAt _ (name :: rest) j
        rw [actAt_cons name hrest]
        exact overChild_congr fun c hc heq => by rw [honly c hc heq]; exact hih
      | none =>
        rw [hedit] at hih
        refine (overChild_congr fun c hc heq => ?_).trans (overChild_id j)
        rw [honly c hc heq]
        exact hih

/-- Editing the children one after the other edits each of them. -/
theorem foldl_editChild_names (h : j.names.Nodup) :
    j.names.foldl (fun r name => editChild name edit r) j = editChildren edit j := by
  have hturn : ∀ (todo : List (String × JsonValue)) (r : JsonValue), r.names = j.names →
      (∀ c ∈ todo, c.1 ∈ j.names) →
      todo.foldl (fun r c => editChild c.1 edit r) r =
        todo.foldl (fun r c => r.overChild c.1 fun x => (edit (some x)).getD x) r := by
    intro todo
    induction todo with
    | nil => exact fun r _ _ => rfl
    | cons c todo ih =>
      intro r hr hmem
      obtain ⟨hc, hmem⟩ := forall_mem_cons.mp hmem
      rw [foldl_cons, editChild_eq_overChild (hr ▸ h) (hr ▸ hc)]
      exact ih _ ((names_overChild _ r).trans hr) hmem
  have hall := foldl_overChild (fun _ x => (edit (some x)).getD x) (fun _ => true) h
  rw [filter_true] at hall
  rw [names, foldl_map, hturn j.children j rfl fun c hc => mem_map_of_mem hc, hall]
  rfl

/-- Removing the members of an object one after the other removes all. -/
theorem foldl_removeChild_object (members : List (String × JsonValue)) :
    (object members).names.foldl (fun r name => r.removeChild name) (object members) = object [] := by
  have hrun : ∀ (l : List String) (members : List (String × JsonValue)),
      l.foldl (fun r name => r.removeChild name) (object members) = object (members.filter fun c => c.1 ∉ l) := by
    intro l
    induction l with
    | nil => exact fun members => congrArg object (by simp)
    | cons name l ih =>
      intro members
      refine (ih (members.filter fun c => !decide (c.1 = name))).trans (congrArg object ?_)
      rw [filter_filter]
      exact filter_congr fun c _ => by by_cases hc : c.1 = name <;> simp [hc]
  rw [hrun]
  refine congrArg object (filter_eq_nil_iff.mpr fun c hc => ?_)
  have hmem : c.1 ∈ (object members).names := mem_map_of_mem hc
  simpa using hmem

/-- One item that is not the only one, or that is not there, does not take the last item away. -/
theorem exists_removeChild_array {items : List JsonValue} {i : Nat} (h : items ≠ []) (hi : 2 ≤ items.length + i) :
    ∃ items', (array items).removeChild (toString i) = array items' ∧ items' ≠ [] := by
  refine ⟨_, rfl, fun hnil => ?_⟩
  obtain ⟨k, hk, hne⟩ : ∃ k, k < items.length ∧ k ≠ i := by
    have hpos : 0 < items.length := length_pos_iff.mpr h
    by_cases hzero : i = 0
    · exact ⟨1, by omega, by omega⟩
    · exact ⟨0, hpos, fun heq => hzero heq.symm⟩
  have hchild : (toString k, items[k]) ∈ (array items).children := mem_mapIdx.mpr ⟨k, hk, rfl⟩
  have hkept : (toString k, items[k]) ∈
      (array items).children.filter fun c => !decide (c.1 = toString i) := by
    refine mem_filter.mpr ⟨hchild, ?_⟩
    simpa using fun heq => hne (toString_nat_injective heq)
  rw [map_eq_nil_iff.mp hnil] at hkept
  exact not_mem_nil hkept

/-- Removing the items at the positions of an array one after the other leaves none exactly when there are not
several: the items after a removed one move to the front. -/
theorem foldl_removeChild_array_iff :
    (array items).names.foldl (fun r name => r.removeChild name) (array items) = array [] ↔ items.length ≤ 1 := by
  have hrun : ∀ (l : List Nat) (items : List JsonValue), items ≠ [] → (∀ i ∈ l, 1 ≤ i) →
      l.foldl (fun r i => r.removeChild (toString i)) (array items) ≠ array [] := by
    intro l
    induction l with
    | nil => exact fun items hne _ heq => hne (array.inj heq)
    | cons i l ih =>
      intro items hne hl
      obtain ⟨hi, hl⟩ := forall_mem_cons.mp hl
      have hpos : 0 < items.length := length_pos_iff.mpr hne
      obtain ⟨items', heq, hne'⟩ := exists_removeChild_array hne (i := i) (by omega)
      rw [foldl_cons, heq]
      exact ih items' hne' hl
  rw [names_array, foldl_map]
  match items with
  | [] => exact iff_of_true rfl (Nat.zero_le 1)
  | [j] => exact iff_of_true rfl (Nat.le_refl 1)
  | j :: j' :: rest =>
    refine iff_of_false ?_ (by simp)
    rw [length_cons, range_succ_eq_map, foldl_cons]
    obtain ⟨items', heq, hne⟩ := @exists_removeChild_array (j :: j' :: rest) 0 (cons_ne_nil _ _) (by simp)
    rw [heq]
    refine hrun _ items' hne fun i hi => ?_
    obtain ⟨k, _, rfl⟩ := mem_map.mp hi
    exact Nat.succ_pos k

end JsonValue

end Prox
