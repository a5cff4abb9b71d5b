import Prox.Relay.WildcardPaths

/-! # What an operation on a wildcard path does

A node is matched by a path when its chain of keys and positions fits the path segment by segment. The paths that an
operation goes through are the chains that fit, and when no key needs to be escaped it does at each of them what it
should; only the items of one array cannot be deleted one after the other, as `applyOperation_eq_iff` says. -/

namespace Prox

open JsonValue List

/-! ## Nodes that are matched -/

/-- The segments of a path. -/
def segmentsOf (path : String) : List String := (splitOn '.' path).map trimSpace

/-- A name fits a segment. -/
def segmentFits (segment name : String) : Bool := segment = "*" || (segment ≠ "" && segment = name)

/-- The last names that fit a segment: a member that is not there yet is one of them. -/
def lastNames (segment : String) (j : JsonValue) : List String :=
  if segment = "*" then j.names
  else if segment = "" then []
  else if IsSettable segment j then [segment]
  else []

/-- The chains that fit some segments. -/
def chainsOf (segments : List String) (j : JsonValue) : List (List String) :=
  JsonValue.chains (lastNames (segments.getLastD "")) (segments.dropLast.map segmentFits) j

variable {env : OverrideEnv} {segment : String}

theorem chainsOf_cons (segment next : String) (rest : List String) (j : JsonValue) :
    chainsOf (segment :: next :: rest) j = (j.children.filter fun c => segmentFits segment c.1).flatMap fun c =>
      (chainsOf (next :: rest) c.2).map (c.1 :: ·) := by
  rw [chainsOf, dropLast_cons_cons, map_cons, JsonValue.chains]
  simp only [chainsOf, getLastD_cons]

theorem filter_segmentFits {j : JsonValue} (h : j.names.Nodup) (hstar : segment ≠ "*") (hblank : segment ≠ "") :
    (j.children.filter fun c => segmentFits segment c.1) =
      ((j.children.lookup segment).toList.map fun child => (segment, child)) := by
  rw [names] at h
  generalize j.children = l at h
  induction l with
  | nil => rfl
  | cons c rest ih =>
    obtain ⟨key, child⟩ := c
    obtain ⟨hkey, hrest⟩ := nodup_cons.mp h
    rw [filter_cons, lookup_cons, ih hrest]
    by_cases heq : segment = key
    · subst heq
      have hnone : rest.lookup segment = none := by
        rw [lookup_eq_none_iff]
        intro c hc
        have hmem : c.1 ∈ rest.map Prod.fst := mem_map_of_mem hc
        simpa using fun heq : segment = c.1 => hkey (heq ▸ hmem)
      simp [segmentFits, hblank, hnone]
    · rw [beq_false_of_ne heq]
      simp [segmentFits, hstar, heq]

/-- The segment is the decimal of a number exactly when it is read as it. -/
def IsNumeral (segment : String) : Prop := ∀ n : Nat, segment = toString n ↔ atoi segment = some (n : Int)

/-- The item that is found under a segment. -/
theorem lookup_array (h : IsNumeral segment) (items : List JsonValue) :
    (JsonValue.array items).children.lookup segment =
      match atoi segment with
      | none => none
      | some index => if index < 0 then none else items[index.toNat]? := by
  have hnodup : ((JsonValue.array items).children.map Prod.fst).Nodup := by
    have hnames := names_array items
    rw [names] at hnames
    rw [hnames]
    exact nodup_range.map toString_nat_injective
  have hnone : (∀ n : Nat, n < items.length → segment ≠ toString n) →
      (JsonValue.array items).children.lookup segment = none := by
    intro hall
    rw [lookup_eq_none_iff]
    intro c hc
    obtain ⟨n, hn, rfl⟩ := mem_mapIdx.mp hc
    simpa using hall n hn
  cases hread : atoi segment with
  | none =>
    refine hnone fun n _ heq => ?_
    rw [(h n).mp heq] at hread
    cases hread
  | some index =>
    by_cases hneg : index < 0
    · refine (hnone fun n _ heq => ?_).trans (if_pos hneg).symm
      rw [(h n).mp heq] at hread
      obtain rfl := Option.some.inj hread
      omega
    · show _ = if index < 0 then none else items[index.toNat]?
      rw [if_neg hneg]
      have hseg : segment = toString index.toNat := (h _).mpr (by rw [hread]; congr 1; omega)
      cases hitem : items[index.toNat]? with
      | none =>
        refine hnone fun n hn heq => ?_
        have := toString_nat_injective (hseg.symm.trans heq)
        rw [List.getElem?_eq_none_iff] at hitem
        omega
      | some item =>
        obtain ⟨hlt, rfl⟩ := List.getElem?_eq_some_iff.mp hitem
        have hc : (toString index.toNat, items[index.toNat]) ∈ (JsonValue.array items).children :=
          mem_mapIdx.mpr ⟨index.toNat, hlt, rfl⟩
        rw [hseg]
        exact lookup_of_mem hnodup hc

theorem mem_names_iff {j : JsonValue} : segment ∈ j.names ↔ (j.children.lookup segment).isSome = true := by
  constructor
  · intro hmem
    obtain ⟨c, hc, rfl⟩ := mem_map.mp hmem
    cases hlookup : j.children.lookup c.1 with
    | some child => rfl
    | none => simpa using lookup_eq_none_iff.mp hlookup c hc
  · intro hsome
    obtain ⟨child, hlookup⟩ := Option.isSome_iff_exists.mp hsome
    obtain ⟨l₁, l₂, heq, _⟩ := lookup_eq_some_iff.mp hlookup
    rw [names, heq]
    simp

/-- Every segment that arrays are met under is the decimal of a position exactly when it is read as it. -/
def ReadsPositions : List String → JsonValue → Prop
  | [], _ => True
  | segment :: rest, j =>
    (j.kind = .array → IsNumeral segment) ∧
      ∀ c ∈ j.children, segmentFits segment c.1 = true → ReadsPositions rest c.2

/-- One step of the expansion, for members and items alike. -/
theorem collectWildcardPaths_cons (node : JsonValue) (text : String) (segments before : List String)
    (h : node.kind = .array → IsNumeral (trimSpace text)) :
    collectWildcardPaths node (text :: segments) before =
      if trimSpace text = "" then []
      else if trimSpace text = "*" then
        node.children.flatMap fun c => collectWildcardPaths c.2 segments (before ++ [c.1])
      else if segments = [] then
        if IsSettable (trimSpace text) node then [".".intercalate (before ++ [trimSpace text])] else []
      else
        match node.children.lookup (trimSpace text) with
        | none => []
        | some next => collectWildcardPaths next segments (before ++ [trimSpace text]) := by
  have hscalar : ∀ j : JsonValue, j.kind = .scalar → j.names = [] → ¬ IsSettable (trimSpace text) j := by
    intro j hkind hnames hset
    rcases hset with hset | hset
    · rw [hkind] at hset
      cases hset
    · rw [hnames] at hset
      exact not_mem_nil hset
  cases node with
  | object members =>
    have hset : IsSettable (trimSpace text) (.object members) := .inl rfl
    rfl
  | array items =>
    have hset : IsSettable (trimSpace text) (.array items) ↔
        ((JsonValue.array items).children.lookup (trimSpace text)).isSome = true :=
      (or_iff_right (by simp [kind])).trans mem_names_iff
    rw [collectWildcardPaths, if_congr hset rfl rfl, lookup_array (h rfl)]
    cases atoi (trimSpace text) with
    | none => simp
    | some index =>
      by_cases hneg : index < 0
      · simp [hneg]
      · cases hitem : items[index.toNat]? with
        | none => simp [hitem]
        | some item => simp [hneg, hitem]
  | _ =>
    rw [collectWildcardPaths, if_neg (hscalar _ rfl rfl)]
    simp [children]

/-- The paths that an operation goes through are the chains that fit. -/
theorem collectWildcardPaths_eq {texts : List String} (hne : texts ≠ []) {node : JsonValue} (h : node.Canonical)
    (hpositions : ReadsPositions (texts.map trimSpace) node) (before : List String) :
    collectWildcardPaths node texts before =
      (chainsOf (texts.map trimSpace) node).map fun chain => ".".intercalate (before ++ chain) := by
  induction texts generalizing node before with
  | nil => exact absurd rfl hne
  | cons text texts ih =>
    obtain ⟨hsegment, hbelow⟩ := hpositions
    rw [collectWildcardPaths_cons node text texts before hsegment, map_cons]
    generalize trimSpace text = segment at hbelow
    cases texts with
    | nil =>
      show _ = List.map _ (List.map _ (lastNames segment node))
      rw [lastNames, map_map, if_pos rfl]
      by_cases hblank : segment = ""
      · subst hblank
        rfl
      by_cases hstar : segment = "*"
      · rw [if_neg hblank, if_pos hstar, if_pos hstar, names, map_map]
        exact map_eq_flatMap.symm
      rw [if_neg hstar, if_neg hblank]
      split <;> rfl
    | cons next texts =>
      have hstep : ∀ c ∈ node.children, segmentFits segment c.1 = true →
          collectWildcardPaths c.2 (next :: texts) (before ++ [c.1]) =
            ((chainsOf ((next :: texts).map trimSpace) c.2).map (c.1 :: ·)).map fun chain =>
              ".".intercalate (before ++ chain) := by
        intro c hc hfits
        rw [ih (cons_ne_nil _ _) (h.child hc) (hbelow c hc hfits)]
        simp
      rw [map_cons, chainsOf_cons, map_flatMap, if_neg (cons_ne_nil _ _)]
      by_cases hblank : segment = ""
      · subst hblank
        have hfit : ∀ name, segmentFits "" name = false := fun name => by simp [segmentFits]
        simp [hfit]
      by_cases hstar : segment = "*"
      · have hfit : ∀ name, segmentFits segment name = true := fun name => by simp [segmentFits, hstar]
        rw [if_neg hblank, if_pos hstar]
        simp only [hfit, filter_true]
        exact flatMap_congr fun c hc => hstep c hc (hfit c.1)
      rw [if_neg hblank, if_neg hstar, filter_segmentFits h.nodup_names hstar hblank]
      cases hlookup : node.children.lookup segment with
      | none => rfl
      | some child =>
        obtain ⟨l₁, l₂, heq, _⟩ := lookup_eq_some_iff.mp hlookup
        rw [Option.toList_some, map_singleton, flatMap_singleton]
        exact hstep (segment, child) (by rw [heq]; simp) (by simp [segmentFits, hblank])

/-! ## Keys that need no escape -/

/-- A name that stands for itself in a path. -/
def PlainName (lib : PathLibrary) (name : String) : Prop := name ≠ "" ∧ ∀ c ∈ name.toList, lib.special c = false

variable {lib : PathLibrary} {chain : List String}

theorem escapeName_of_plain {name : String} (h : PlainName lib name) :
    escapeName lib.special name.toList = name.toList := by
  have hplain : ∀ c ∈ name.toList, (if lib.special c then ['\\', c] else [c]) = [c] := fun c hc => by
    rw [h.2 c hc]
    rfl
  rw [escapeName, flatMap_congr hplain]
  exact flatMap_singleton' _

section

variable (h : ∀ name ∈ chain, PlainName lib name)

include h

/-- Names that stand for themselves need no escape. -/
theorem escapedPath_of_plain :
    escapedPath lib.special chain = ".".intercalate chain := by
  have hnames : chain.map (fun name => escapeName lib.special name.toList) = chain.map String.toList :=
    map_congr_left fun name hname => escapeName_of_plain (h name hname)
  have hjoin : ∀ names : List (List Char), joinPath names = ['.'].intercalate names := by
    intro names
    cases names with
    | nil => rfl
    | cons name rest =>
      induction rest generalizing name with
      | nil => simp [joinPath]
      | cons next rest ih =>
        have hnext := ih next
        simp only [joinPath] at hnext
        rw [joinPath, dotted_cons, hnext]
        simp
  rw [escapedPath, hnames, hjoin, ← String.toList_inj, String.toList_ofList, String.toList_intercalate]
  rfl

theorem empty_not_mem_of_plain : "" ∉ chain := fun hmem =>
  (h "" hmem).1 rfl

/-- Distinct chains of such names make distinct paths. -/
theorem intercalate_inj {chain' : List String}
    (h' : ∀ name ∈ chain', PlainName lib name) (hne : chain ≠ []) (hne' : chain' ≠ [])
    (heq : ".".intercalate chain = ".".intercalate chain') : chain = chain' := by
  rw [← escapedPath_of_plain h, ← escapedPath_of_plain h'] at heq
  rw [← readPath_escapedPath lib.special_dot lib.special_backslash hne, heq,
    readPath_escapedPath lib.special_dot lib.special_backslash hne']

end

/-! ## One path after the other -/

variable {op : ParamOperation} {r : JsonValue}

theorem isSlot_of_isSettable (name : String) (j : JsonValue) (h : IsSettable name j) : IsSlot name j := by
  rcases h with h | h
  · exact .inl h
  · cases j with
    | object members => exact .inl rfl
    | array items =>
      rw [names_array] at h
      obtain ⟨i, _, rfl⟩ := mem_map.mp h
      exact .inr ⟨rfl, i, rfl⟩
    | _ => exact absurd h not_mem_nil

/-- What an operation sets at a place, if anything. -/
def ParamOperation.newValue (env : OverrideEnv) (op : ParamOperation) (mode : EditMode)
    (current : Option JsonValue) : Option JsonValue :=
  (op.edit env mode current).toOption.join

theorem applyAtPath_delete (hmode : op.mode = .delete) (h : ∀ name ∈ chain, PlainName env.lib name)
    (hvisible : trimSpace (".".intercalate chain) ≠ "") (hplace : PlaceOf IsSlot chain r) :
    applyAtPath env op r (".".intercalate chain) = .ok (actAt removeChild chain r) := by
  rw [applyAtPath, hmode]
  rw [deleteValue, if_neg hvisible, ← escapedPath_of_plain h,
    env.lib.delete_escaped chain r (empty_not_mem_of_plain h) hplace]
  rfl

theorem applyAtPath_edit {mode : EditMode} (hmode : op.mode = .edit mode) (h : ∀ name ∈ chain, PlainName env.lib name)
    (hplace : PlaceOf IsSettable chain r) :
    applyAtPath env op r (".".intercalate chain) =
      (op.edit env mode (r.follow chain)).map fun _ =>
        actAt (fun name => editChild name (op.newValue env mode)) chain r := by
  have hget := env.lib.get_escaped chain r (empty_not_mem_of_plain h) (hplace.imp isSlot_of_isSettable)
  rw [applyAtPath, hmode]
  show editValue env r _ _ = _
  rw [editValue, ← escapedPath_of_plain h, hget, actAt_editChild hplace, ParamOperation.newValue]
  cases op.edit env mode (r.follow chain) with
  | error e => rfl
  | ok o =>
    cases o with
    | none => rfl
    | some v =>
      show fromLibrary (env.lib.set r (escapedPath env.lib.special chain) v) = _
      rw [env.lib.set_escaped chain r v (empty_not_mem_of_plain h) hplace]
      rfl

/-- Deleting at one place after the other. -/
theorem foldlM_delete (hmode : op.mode = .delete) {l : List (List String)} {n : Nat}
    (h : ∀ chain ∈ l, ∀ name ∈ chain, PlainName env.lib name)
    (hvisible : ∀ chain ∈ l, trimSpace (".".intercalate chain) ≠ "") (hlength : ∀ chain ∈ l, chain.length = n)
    (hplace : ∀ chain ∈ l, PlaceOf IsSlot chain r) :
    (l.map (".".intercalate ·)).foldlM (applyAtPath env op) r =
      .ok (l.foldl (fun r chain => actAt removeChild chain r) r) := by
  induction l generalizing r with
  | nil => rfl
  | cons chain l ih =>
    obtain ⟨hplain, h⟩ := forall_mem_cons.mp h
    obtain ⟨hseen, hvisible⟩ := forall_mem_cons.mp hvisible
    obtain ⟨hchain, hlength⟩ := forall_mem_cons.mp hlength
    obtain ⟨hat, hplace⟩ := forall_mem_cons.mp hplace
    rw [map_cons, List.foldlM_cons, applyAtPath_delete hmode hplain hseen hat]
    refine ih h hvisible hlength fun chain' hmem => ?_
    refine (hplace chain' hmem).actAt ?_ ((hlength chain' hmem).trans hchain.symm)
    intro name name' j hslot
    rwa [IsSlot, kind_removeChild]

/-- Editing at one place after the other: each place is seen as it was at first. -/
theorem foldlM_edit_eq_ok_iff {mode : EditMode} (hmode : op.mode = .edit mode) {l : List (List String)} {n : Nat}
    (h : ∀ chain ∈ l, ∀ name ∈ chain, PlainName env.lib name) (hlength : ∀ chain ∈ l, chain.length = n)
    (hnodup : l.Nodup)
    (hplace : ∀ chain ∈ l, PlaceOf IsSettable chain r) {out : JsonValue} :
    (l.map (".".intercalate ·)).foldlM (applyAtPath env op) r = .ok out ↔
      (∀ chain ∈ l, ∃ o, op.edit env mode (r.follow chain) = .ok o) ∧
        out = l.foldl (fun r chain => actAt (fun name => editChild name (op.newValue env mode)) chain r) r := by
  induction l generalizing r with
  | nil =>
    rw [map_nil, foldlM_nil, pure_eq_ok]
    exact ⟨fun heq => ⟨nofun, heq.symm⟩, fun heq => heq.2.symm⟩
  | cons chain l ih =>
    obtain ⟨hplain, h⟩ := forall_mem_cons.mp h
    obtain ⟨hchain, hlength⟩ := forall_mem_cons.mp hlength
    obtain ⟨hat, hplace⟩ := forall_mem_cons.mp hplace
    obtain ⟨hnew, hnodup⟩ := nodup_cons.mp hnodup
    rw [map_cons, List.foldlM_cons, applyAtPath_edit hmode hplain hat, forall_mem_cons]
    cases hedit : op.edit env mode (r.follow chain) with
    | error e => exact iff_of_false nofun fun hall => by obtain ⟨⟨o, ho⟩, _⟩ := hall.1; cases ho
    | ok o =>
      show (l.map _).foldlM (applyAtPath env op) (actAt _ chain r) = .ok out ↔ _
      have hsame : ∀ chain' ∈ l, chain'.length = chain.length := fun chain' hmem =>
        (hlength chain' hmem).trans hchain.symm
      have hplace' : ∀ chain' ∈ l, PlaceOf IsSettable chain'
          (actAt (fun name => editChild name (op.newValue env mode)) chain r) := by
        intro chain' hmem
        refine (hplace chain' hmem).actAt ?_ (hsame chain' hmem)
        intro name name' j hset
        rcases hset with hkind | hname
        · exact .inl ((kind_editChild name' j).trans hkind)
        · exact .inr (mem_names_editChild hname)
      have hseen : ∀ chain' ∈ l, (actAt (fun name => editChild name (op.newValue env mode)) chain r).follow chain' =
          r.follow chain' := fun chain' hmem =>
        follow_actAt (fun name name' j hne => lookup_editChild_of_ne hne j) (hsame chain' hmem)
          (fun heq => hnew (heq ▸ hmem)) r
      rw [ih h hlength hnodup hplace', forall₂_congr fun chain' hmem => by rw [hseen chain' hmem]]
      exact and_congr_left' ⟨fun hall => ⟨⟨o, rfl⟩, hall⟩, fun hall => hall.2⟩

/-! ## All matched nodes at once -/

/-- Every child that fits the segment edited; a missing member that the segment names counts as matched. -/
def editFitting (segment : String) (edit : Option JsonValue → Option JsonValue) (j : JsonValue) : JsonValue :=
  if segment = "*" then editChildren edit j
  else if segment ≠ "" ∧ IsSettable segment j then editChild segment edit j
  else j

/-- The segments of a path above the last one. -/
def aboveLast (path : String) : List (String → Bool) := (segmentsOf path).dropLast.map segmentFits

/-- The last segment of a path. -/
def lastSegment (path : String) : String := (segmentsOf path).getLastD ""

/-- What an operation is for: exactly the matched nodes are removed, or get their new values. -/
def ParamOperation.intended (env : OverrideEnv) (op : ParamOperation) (path : String) (j : JsonValue) : JsonValue :=
  match op.mode with
  | .delete => j.alterMatched (removeMatching (segmentFits (lastSegment path))) (aboveLast path)
  | .edit mode => j.alterMatched (editFitting (lastSegment path) (op.newValue env mode)) (aboveLast path)

/-- What an operation asks of the document: no two matched nodes to delete are items of one array, and no matched
node is one that the mode refuses. -/
def ParamOperation.Suits (env : OverrideEnv) (op : ParamOperation) (path : String) (j : JsonValue) : Prop :=
  match op.mode with
  | .delete =>
    lastSegment path = "*" → ∀ n ∈ j.matched (aboveLast path), ∀ items, n = .array items → items.length ≤ 1
  | .edit mode => ∀ chain ∈ chainsOf (segmentsOf path) j, ∃ o, op.edit env mode (j.follow chain) = .ok o

theorem nodup_lastNames {j : JsonValue} (h : j.Canonical) : (lastNames segment j).Nodup := by
  rw [lastNames]
  split
  · exact h.nodup_names
  · split
    · exact nodup_nil
    · split
      · exact nodup_singleton _
      · exact nodup_nil

theorem isSettable_of_mem_lastNames (j : JsonValue) (name : String) (h : name ∈ lastNames segment j) :
    IsSettable name j := by
  rw [lastNames] at h
  split at h
  · exact .inr h
  · split at h
    · exact absurd h not_mem_nil
    · split at h
      next hset => exact mem_singleton.mp h ▸ hset
      next => exact absurd h not_mem_nil

theorem lastNames_mapNumbers (f : ℚ → ℚ) (j : JsonValue) :
    lastNames segment (j.mapNumbers f) = lastNames segment j := by
  have hset : IsSettable segment (j.mapNumbers f) ↔ IsSettable segment j := by
    rw [IsSettable, IsSettable, kind_mapNumbers, names_mapNumbers]
  rw [lastNames, lastNames, names_mapNumbers, if_congr hset rfl rfl]

/-- Removing the children that fit one after the other removes just these, unless they are several items of one
array. -/
theorem foldl_removeChild_lastNames_iff (j : JsonValue) :
    (lastNames segment j).foldl (fun r name => removeChild name r) j = removeMatching (segmentFits segment) j ↔
      (segment = "*" → ∀ items, j = .array items → items.length ≤ 1) := by
  by_cases hstar : segment = "*"
  · subst hstar
    rw [lastNames, forall_prop_of_true rfl]
    have hall : ∀ list : List (String × JsonValue), (list.filter fun c => !segmentFits "*" c.1) = [] := fun list =>
      filter_eq_nil_iff.mpr fun c _ => by simp [segmentFits]
    have hempty : removeMatching (segmentFits "*") j = j.rebuild [] := by rw [removeMatching, hall]
    rw [hempty]
    cases j with
    | object members => exact iff_of_true (foldl_removeChild_object members) nofun
    | array items =>
      refine (foldl_removeChild_array_iff items).trans ⟨fun hle items' heq => ?_, fun hall => hall items rfl⟩
      obtain rfl := array.inj heq
      exact hle
    | _ => exact iff_of_true rfl nofun
  · refine iff_of_true ?_ fun heq => absurd heq hstar
    rw [lastNames, if_neg hstar, removeMatching]
    by_cases hblank : segment = ""
    · subst hblank
      have hkeep : (j.children.filter fun c => !segmentFits "" c.1) = j.children :=
        filter_eq_self.mpr fun c _ => by simp [segmentFits]
      rw [hkeep, rebuild_children]
      rfl
    · have hfit : ∀ name, segmentFits segment name = decide (name = segment) := fun name => by
        simp [segmentFits, hstar, hblank, eq_comm]
      rw [if_neg hblank]
      simp only [hfit]
      split
      next => rfl
      next hset =>
        have hkeep : (j.children.filter fun c => !decide (c.1 = segment)) = j.children := by
          refine filter_eq_self.mpr fun c hc => ?_
          have hmem : c.1 ∈ j.names := mem_map_of_mem hc
          simpa using fun heq : c.1 = segment => hset (.inr (heq ▸ hmem))
        rw [hkeep, rebuild_children]
        rfl

/-- Editing the children that fit one after the other edits just these. -/
theorem foldl_editChild_lastNames {j : JsonValue} (h : j.names.Nodup) (edit : Option JsonValue → Option JsonValue) :
    (lastNames segment j).foldl (fun r name => editChild name edit r) j = editFitting segment edit j := by
  rw [lastNames, editFitting]
  by_cases hstar : segment = "*"
  · rw [if_pos hstar, if_pos hstar]
    exact foldl_editChild_names h
  · rw [if_neg hstar, if_neg hstar]
    by_cases hblank : segment = ""
    · rw [if_pos hblank, if_neg fun hand => hand.1 hblank]
      rfl
    · rw [if_neg hblank]
      by_cases hset : IsSettable segment j
      · rw [if_pos hset, if_pos ⟨hblank, hset⟩]
        rfl
      · rw [if_neg hset, if_neg fun hand => hset hand.2]
        rfl

theorem canonical_of_mem_matched {path : List (String → Bool)} {j n : JsonValue} (h : j.Canonical)
    (hn : n ∈ j.matched path) : n.Canonical := by
  induction path generalizing j with
  | nil => exact mem_singleton.mp hn ▸ h
  | cons fits rest ih =>
    obtain ⟨c, hc, hn⟩ := mem_flatMap.mp hn
    exact ih (h.child (mem_of_mem_filter hc)) hn

/-! ## The operation -/

theorem readsPositions_mapNumbers (f : ℚ → ℚ) {segments : List String} {j : JsonValue}
    (h : ReadsPositions segments j) : ReadsPositions segments (j.mapNumbers f) := by
  induction segments generalizing j with
  | nil => trivial
  | cons segment rest ih =>
    obtain ⟨harray, hbelow⟩ := h
    refine ⟨fun hkind => harray (by rwa [kind_mapNumbers] at hkind), fun c hc hfits => ?_⟩
    rw [children_mapNumbers] at hc
    obtain ⟨child, hchild, rfl⟩ := mem_map.mp hc
    exact ih (hbelow child hchild hfits)

/-- A wildcard path, its negative indices resolved, whose numbers are positions and which matches no key that is
empty or would have to be escaped, and no blank key of the root to delete. -/
structure PlainPath (env : OverrideEnv) (doc : JsonDocument) (op : ParamOperation) (path : String) : Prop where
  resolved : op.opPath env doc = path
  wildcard : '*' ∈ path.toList
  positions : ReadsPositions (segmentsOf path) doc.root
  plain : ∀ chain ∈ chainsOf (segmentsOf path) doc.root, ∀ name ∈ chain, PlainName env.lib name
  visible : op.mode = .delete →
    ∀ chain ∈ chainsOf (segmentsOf path) doc.root, trimSpace (".".intercalate chain) ≠ ""

variable {doc : JsonDocument} {path : String} {paths : List String}

/-- The paths are found when the document can be decoded. -/
theorem resolveOperationPaths_eq_ok_iff (h : PlainPath env doc op path) :
    resolveOperationPaths env doc path = .ok paths ↔
      doc.Decodable env.codec ∧ paths = (chainsOf (segmentsOf path) doc.root).map (".".intercalate ·) := by
  have hchains : ∀ f : ℚ → ℚ, chainsOf (segmentsOf path) (doc.root.mapNumbers f) =
      chainsOf (segmentsOf path) doc.root := fun f =>
    chains_mapNumbers f (fun j => lastNames_mapNumbers f j) _ doc.root
  have hnodup : ((chainsOf (segmentsOf path) doc.root).map (".".intercalate ·)).Nodup := by
    refine List.Nodup.map_on ?_ (nodup_chains (fun j hj => nodup_lastNames hj) doc.canonical)
    intro chain hchain chain' hchain' heq
    exact intercalate_inj (h.plain chain hchain) (h.plain chain' hchain') (ne_nil_of_mem_chains hchain)
      (ne_nil_of_mem_chains hchain') heq
  have hcollect : ∀ root, root = doc.decoded env.codec →
      firstOccurrences (collectWildcardPaths root (splitOn '.' path) []) =
        (chainsOf (segmentsOf path) doc.root).map (".".intercalate ·) := by
    rintro root rfl
    have hcanonical : (doc.decoded env.codec).Canonical := doc.canonical.mapNumbers _
    rw [collectWildcardPaths_eq (splitOn_ne_nil '.' path) hcanonical (readsPositions_mapNumbers _ h.positions),
      ← segmentsOf, JsonDocument.decoded, hchains]
    exact firstOccurrences_of_nodup hnodup
  rw [resolveOperationPaths, if_neg (not_not.mpr h.wildcard), expandWildcardPaths]
  cases hdecode : doc.unmarshal env.codec with
  | error e =>
    refine iff_of_false (fun hok => by cases hok) fun hboth => ?_
    rw [unmarshal_eq_ok_iff.mpr ⟨hboth.1, rfl⟩] at hdecode
    cases hdecode
  | ok root =>
    obtain ⟨hdec, hroot⟩ := unmarshal_eq_ok_iff.mp hdecode
    show Except.ok (firstOccurrences _) = .ok paths ↔ _
    rw [hcollect root hroot]
    exact ⟨fun heq => ⟨hdec, (Except.ok.inj heq).symm⟩, fun heq => by rw [heq.2]⟩

/-- An operation on a wildcard path whose keys need no escape does what it is for exactly when the document can be
decoded and suits it. -/
theorem applyOperation_eq_iff (env : OverrideEnv) (doc : JsonDocument) (op : ParamOperation) (path : String)
    (h : PlainPath env doc op path) :
    applyOperation env doc op = .ok (op.intended env path doc.root) ↔
      doc.Decodable env.codec ∧ op.Suits env path doc.root := by
  have hlength : ∀ chain ∈ chainsOf (segmentsOf path) doc.root, chain.length = (aboveLast path).length + 1 :=
    fun chain hchain => length_of_mem_chains hchain
  have hplace : ∀ chain ∈ chainsOf (segmentsOf path) doc.root, PlaceOf IsSettable chain doc.root :=
    fun chain hchain => placeOf_of_mem_chains isSettable_of_mem_lastNames doc.canonical hchain
  have hnodup : (chainsOf (segmentsOf path) doc.root).Nodup :=
    nodup_chains (fun j hj => nodup_lastNames hj) doc.canonical
  have hrun : ∀ out, applyOperation env doc op = .ok out ↔ doc.Decodable env.codec ∧
      ((chainsOf (segmentsOf path) doc.root).map (".".intercalate ·)).foldlM (applyAtPath env op) doc.root =
        .ok out := by
    intro out
    rw [applyOperation, h.resolved, bind_eq_ok]
    constructor
    · rintro ⟨paths, hpaths, hfold⟩
      obtain ⟨hdec, rfl⟩ := (resolveOperationPaths_eq_ok_iff h).mp hpaths
      exact ⟨hdec, hfold⟩
    · rintro ⟨hdec, hfold⟩
      exact ⟨_, (resolveOperationPaths_eq_ok_iff h).mpr ⟨hdec, rfl⟩, hfold⟩
  rw [hrun, ParamOperation.intended, ParamOperation.Suits]
  refine and_congr_right' ?_
  cases hmode : op.mode with
  | delete =>
    rw [foldlM_delete hmode h.plain (h.visible hmode) hlength fun chain hchain =>
      (hplace chain hchain).imp isSlot_of_isSettable, Except.ok.injEq]
    refine (iff_of_eq (congrArg (· = _) (foldl_actAt_chains doc.canonical))).trans ?_
    refine alterMatched_eq_iff.trans ?_
    refine (forall₂_congr fun n _ => foldl_removeChild_lastNames_iff n).trans ?_
    exact ⟨fun hall hstar n hn => hall n hn hstar, fun hall n hn hstar => hall hstar n hn⟩
  | edit mode =>
    rw [foldlM_edit_eq_ok_iff hmode h.plain hlength hnodup hplace]
    refine and_iff_left ?_
    refine Eq.trans ?_ (foldl_actAt_chains doc.canonical).symm
    refine alterMatched_eq_iff.mpr fun n hn => ?_
    exact (foldl_editChild_lastNames (canonical_of_mem_matched doc.canonical hn).nodup_names _).symm

/-- An environment whose numbers come back as they are. -/
def exactEnv : OverrideEnv := ⟨escapedLibrary, ⟨some, fun _ _ _ => rfl⟩, fun _ => "0"⟩

/-- Two tools. -/
def twoTools : JsonDocument where
  root := .object [("tools", .array [.object [("name", .string "a ")], .object [("name", .string " b")]])]
  canonical := by
    refine .object (by simp) (forall_mem_singleton.mpr (.array ?_))
    refine forall_mem_cons.mpr ⟨?_, forall_mem_singleton.mpr ?_⟩
    · exact .object (by simp) (forall_mem_singleton.mpr (.string _))
    · exact .object (by simp) (forall_mem_singleton.mpr (.string _))

theorem isNumeral_star : IsNumeral "*" := by
  intro n
  have hread : atoi "*" = none := by decide
  refine iff_of_false (fun heq => ?_) nofun
  have hmem : '*' ∈ (toString n).toList := heq ▸ mem_singleton.mpr rfl
  exact absurd (isDigit_of_mem_toDigits (n := n) (by simpa using hmem)) (by decide)

/-- The names of both tools are trimmed. -/
theorem applyOperation_trim_names :
    applyOperation exactEnv twoTools { path := "tools.*.name", mode := .edit .trimSpace } =
      .ok (ParamOperation.intended exactEnv { path := "tools.*.name", mode := .edit .trimSpace } "tools.*.name"
        twoTools.root) := by
  have hchains : chainsOf (segmentsOf "tools.*.name") twoTools.root =
      [["tools", "0", "name"], ["tools", "1", "name"]] := by decide +kernel
  refine (applyOperation_eq_iff exactEnv twoTools { path := "tools.*.name", mode := .edit .trimSpace } "tools.*.name"
    ⟨by decide, by decide, ?_, ?_, nofun⟩).mpr ⟨⟨by decide, by decide⟩, ?_⟩
  · have hsegments : segmentsOf "tools.*.name" = ["tools", "*", "name"] := by decide +kernel
    rw [hsegments]
    refine ⟨nofun, forall_mem_singleton.mpr fun _ => ⟨fun _ => isNumeral_star, ?_⟩⟩
    exact forall_mem_cons.mpr ⟨fun _ => ⟨nofun, fun _ _ _ => trivial⟩,
      forall_mem_singleton.mpr fun _ => ⟨nofun, fun _ _ _ => trivial⟩⟩
  · have hplain : ∀ chain ∈ [["tools", "0", "name"], ["tools", "1", "name"]], ∀ name ∈ chain,
        name ≠ "" ∧ name.toList.all (!isSpecialChar ·) := by decide
    rw [hchains]
    intro chain hchain name hname
    obtain ⟨hne, hall⟩ := hplain chain hchain name hname
    exact ⟨hne, fun c hc => (Bool.not_eq_true' _).mp (all_eq_true.mp hall c hc)⟩
  · rw [ParamOperation.Suits, hchains]
    exact forall_mem_cons.mpr ⟨⟨_, rfl⟩, forall_mem_singleton.mpr ⟨_, rfl⟩⟩

/-- Metadata under a key with a dot. -/
def dottedMetadata : JsonDocument where
  root := .object [("metadata", .object [("user.id", .string "u")])]
  canonical := by
    refine .object (by simp) (forall_mem_singleton.mpr ?_)
    exact .object (by simp) (forall_mem_singleton.mpr (.string _))

/-- Of two items the second moves to the front before it is deleted, and stays; a key with a dot is not found. -/
theorem applyOperation_delete_items :
    applyOperation exactEnv twoTools { path := "tools.*", mode := .delete } =
        .ok (.object [("tools", .array [.object [("name", .string " b")]])]) ∧
      ParamOperation.intended exactEnv { path := "tools.*", mode := .delete } "tools.*" twoTools.root =
        .object [("tools", .array [])] ∧
      applyOperation exactEnv dottedMetadata { path := "metadata.*", mode := .delete } = .ok dottedMetadata.root ∧
      ParamOperation.intended exactEnv { path := "metadata.*", mode := .delete } "metadata.*" dottedMetadata.root =
        .object [("metadata", .object [])] :=
  ⟨rfl, rfl, rfl, rfl⟩

end Prox
